import ScriptMachine.Engine.Step

namespace ScriptMachine

section Except

variable {ε α β : Type} {x : Except ε α} {f : α → Except ε β}

theorem exceptBind_eq_ok {b : β} (h : x >>= f = .ok b) : ∃ a, x = .ok a ∧ f a = .ok b := by
  cases x with
  | error e => cases h
  | ok a => exact ⟨a, rfl, h⟩

theorem exceptBind_eq_error {e : ε} (h : x >>= f = .error e) :
    x = .error e ∨ ∃ a, x = .ok a ∧ f a = .error e := by
  cases x with
  | error e' =>
    cases h
    exact .inl rfl
  | ok a => exact .inr ⟨a, rfl, h⟩

end Except

namespace Store

variable {s : Store} {a : Access} {receiver target v : Value} {name : String} {c : Cause}

theorem checkRead_kind {r : Resolved} (h : s.checkRead a receiver name r = .error c) :
    c.kind ≠ .internal := by
  simp only [checkRead] at h
  split at h
  · cases h; nofun
  · cases h

theorem find_kind (h : s.find a receiver name = .error c) : c.kind ≠ .internal := by
  unfold find at h
  split at h
  · cases h; nofun
  · rcases exceptBind_eq_error h with hread | ⟨_, _, h⟩
    · exact checkRead_kind hread
    · cases h

theorem checkWrite_kind {r : Resolved} (h : s.checkWrite a receiver name r = .error c) :
    c.kind ≠ .internal := by
  unfold checkWrite at h
  rcases exceptBind_eq_error h with hread | ⟨_, _, h⟩
  · exact checkRead_kind hread
  · split at h
    · cases h; nofun
    · cases h

theorem set_kind (h : s.set a target name v = .error c) : c.kind ≠ .internal := by
  unfold set at h
  split at h
  · split at h
    · rcases exceptBind_eq_error h with hwrite | ⟨_, _, h⟩
      · exact checkWrite_kind hwrite
      · split at h <;> cases h
    · cases h
  · cases h; nofun

theorem define_kind {flags : Flags} (h : s.define target name v flags = .error c) :
    c.kind ≠ .internal := by
  unfold define at h
  split at h
  · cases h
  · cases h; nofun

theorem readElement_kind {container index : Value}
    (h : s.readElement container index = .error c) : c.kind ≠ .internal := by
  unfold readElement at h
  split at h
  · split at h
    · cases h
    · cases h; nofun
  · split at h
    · cases h
    · cases h; nofun
  · split at h
    · cases h
    · cases h; nofun
  · cases h; nofun

theorem storeElement_kind {items : Array Value} {i : Nat}
    (h : storeElement items i v = .error c) : c.kind ≠ .internal := by
  unfold storeElement at h
  split at h
  · cases h
  · split at h
    · cases h; nofun
    · cases h

theorem writeElement_kind {container index : Value}
    (h : s.writeElement container index v = .error c) : c.kind ≠ .internal := by
  unfold writeElement at h
  split at h
  · split at h
    · rcases exceptBind_eq_error h with hstore | ⟨_, _, h⟩
      · exact storeElement_kind hstore
      · cases h
    · cases h; nofun
  · split at h
    · cases h
    · cases h; nofun
  · cases h; nofun

end Store

theorem Effect.mapEntries_kind {t : Table Value} {items : List Value} {c : Cause}
    (h : mapEntries t items = .error c) : c.kind ≠ .internal := by
  fun_induction mapEntries t items with
  | case1 t key v rest k hk ih => exact ih h
  | case2 t key v rest hk => cases h; nofun
  | case3 t items => cases h

end ScriptMachine
