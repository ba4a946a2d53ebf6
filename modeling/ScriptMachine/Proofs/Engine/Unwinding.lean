import ScriptMachine.Proofs.Engine.Nesting

namespace ScriptMachine

/-- The same failure, whatever frames it has left: cause and place of an error, value of a raise. -/
inductive Signal.SameOrigin : Signal → Signal → Prop
  | error {a b : Fault} (cause : b.cause = a.cause) (position : b.position = a.position) :
      SameOrigin (.error a) (.error b)
  | raise (v : Value) : SameOrigin (.raise v) (.raise v)

namespace Signal.SameOrigin

variable {s s' s'' : Signal}

theorem refl (s : Signal) : s.SameOrigin s := by
  cases s with
  | error fault => exact .error rfl rfl
  | raise v => exact .raise v

theorem trans (h : s.SameOrigin s') (h' : s'.SameOrigin s'') : s.SameOrigin s'' := by
  cases h with
  | error hc hp =>
    cases h' with
    | error hc' hp' => exact .error (hc'.trans hc) (hp'.trans hp)
  | raise v => exact h'

theorem catchable_eq (h : s.SameOrigin s') : s'.catchable = s.catchable := by
  cases h with
  | error hc _ => rw [catchable, catchable, Fault.kind, Fault.kind, hc]
  | raise v => rfl

end Signal.SameOrigin

/-- A signal and the trace of a raise after the frames `fs` are left. -/
def Signal.leaveAll (store : Store) (s : Signal) (trace : List TraceEntry) (fs : List Frame) :
    Signal × List TraceEntry :=
  fs.foldl (fun st f =>
    st.1.leave (f.traceEntry (store.staticsCell f.closure.statics).source) st.2) (s, trace)

/-- The operands that are left when the frames `fs` are left. -/
def stackBelow (stack : List Value) (fs : List Frame) : List Value :=
  fs.foldl (fun st f => cutTo f.stackBase st) stack

theorem Signal.sameOrigin_leave (s : Signal) (e : TraceEntry) (trace : List TraceEntry) :
    s.SameOrigin (s.leave e trace).1 := by
  cases s with
  | error fault => exact .error rfl rfl
  | raise v => exact .raise v

theorem Signal.sameOrigin_leaveAll (store : Store) (s : Signal) (trace : List TraceEntry)
    (fs : List Frame) : s.SameOrigin (s.leaveAll store trace fs).1 := by
  induction fs generalizing s trace with
  | nil => exact .refl s
  | cons f below ih => exact (s.sameOrigin_leave ..).trans (ih ..)

/-- Whether a frame takes a signal. -/
def Frame.Takes (f : Frame) (s : Signal) : Prop :=
  s.catchable = true ∧ f.handlers ≠ []

theorem Frame.takes_leaveAll {f : Frame} {s : Signal} (store : Store) (trace : List TraceEntry)
    (fs : List Frame) : f.Takes (s.leaveAll store trace fs).1 ↔ f.Takes s := by
  rw [Takes, Takes, (s.sameOrigin_leaveAll store trace fs).catchable_eq]

section Land

variable {store : Store} {base : Nat} {s : Signal} {trace : List TraceEntry} {stack : List Value}
  {f : Frame} {below : List Frame}

theorem resume_of_not_takes (h : ¬ f.Takes s) :
    (if s.catchable then f.resume? else none) = none := by
  split
  · rename_i hc
    have hf : f.handlers = [] := Classical.not_not.1 fun hne => h ⟨hc, hne⟩
    rw [Frame.resume?, hf]
  · rfl

theorem land_cons (h : ¬ f.Takes s) (hb : base < below.length) :
    land store base s trace stack (f :: below) =
      land store base (s.leaveAll store trace [f]).1 (s.leaveAll store trace [f]).2
        (stackBelow stack [f]) below := by
  rw [land, resume_of_not_takes h]
  exact if_neg (Nat.not_le_of_lt hb)

theorem land_append (above : List Frame) (h : ∀ g ∈ above, ¬ g.Takes s) (hb : base < below.length) :
    land store base s trace stack (above ++ below) =
      land store base (s.leaveAll store trace above).1 (s.leaveAll store trace above).2
        (stackBelow stack above) below := by
  induction above generalizing s trace stack with
  | nil => rfl
  | cons f above ih =>
    have hlen : base < (above ++ below).length := by rw [List.length_append]; omega
    rw [List.cons_append, land_cons (h f (List.mem_cons_self ..)) hlen, ih]
    · rfl
    · intro g hg
      rw [Frame.takes_leaveAll]
      exact h g (List.mem_cons_of_mem _ hg)

/-- The innermost frame with a catch region takes the signal. -/
theorem land_caught {above : List Frame} {h : Handler} {hs : List Handler}
    (habove : ∀ g ∈ above, ¬ g.Takes s) (hc : s.catchable = true) (hf : f.handlers = h :: hs)
    (hb : base ≤ below.length) :
    land store base s trace stack (above ++ f :: below) =
      (.caught { f with pc := h.target, handlers := hs } below
        (cutTo h.height (stackBelow stack above)) (s.leaveAll store trace above).1,
      (s.leaveAll store trace above).2) := by
  rw [land_append above habove (Nat.lt_succ_of_le hb), land,
    (s.sameOrigin_leaveAll store trace above).catchable_eq, if_pos hc, Frame.resume?, hf]

theorem exists_of_caught {s' : Signal} {trace' : List TraceEntry} {stack' : List Value}
    {fs : List Frame} (h : land store base s trace stack fs = (.caught f below stack' s', trace')) :
    ∃ above g r rs, fs = above ++ g :: below ∧ g.handlers = r :: rs ∧
      f = { g with pc := r.target, handlers := rs } := by
  induction fs generalizing s trace stack with
  | nil => cases h
  | cons g fs ih =>
    rw [land] at h
    split at h
    · rename_i hresume
      cases h
      split at hresume
      · rw [Frame.resume?] at hresume
        split at hresume
        · rename_i r rs hg
          cases hresume
          exact ⟨[], g, r, rs, rfl, hg, rfl⟩
        · cases hresume
      · cases hresume
    · dsimp only at h
      split at h
      · cases h
      · obtain ⟨above, g', r, rs, rfl, hg', hf⟩ := ih h
        exact ⟨g :: above, g', r, rs, rfl, hg', hf⟩

theorem suffix_of_escaped {s' : Signal} {trace' : List TraceEntry} {stack' : List Value}
    {fs left : List Frame} (h : land store base s trace stack fs = (.escaped left stack' s', trace')) :
    left <:+ fs := by
  induction fs generalizing s trace stack with
  | nil =>
    cases h
    exact List.suffix_rfl
  | cons g fs ih =>
    rw [land] at h
    split at h
    · cases h
    · dsimp only at h
      split at h
      · cases h
        exact List.suffix_cons ..
      · exact (ih h).trans (List.suffix_cons ..)

/-- Where no frame of the loop takes the signal, it leaves all of them. -/
theorem land_escaped {upper lower : List Frame} (hne : upper ≠ [])
    (hupper : ∀ g ∈ upper, ¬ g.Takes s) (hb : lower.length = base) :
    land store base s trace stack (upper ++ lower) =
      (.escaped lower (stackBelow stack upper) (s.leaveAll store trace upper).1,
        (s.leaveAll store trace upper).2) := by
  -- `land` looks at the base only after it has left a frame: the last one stands apart
  obtain ⟨above, f, rfl⟩ : ∃ above f, upper = above ++ [f] :=
    ⟨_, _, (List.dropLast_concat_getLast hne).symm⟩
  have hf : ¬ f.Takes (s.leaveAll store trace above).1 := by
    rw [Frame.takes_leaveAll]
    exact hupper f (by simp)
  rw [List.append_assoc, List.singleton_append,
    land_append above (fun g hg => hupper g (List.mem_append_left _ hg)) (by simp [hb]),
    land, resume_of_not_takes hf]
  simp only [hb, Nat.le_refl, if_true, Signal.leaveAll, stackBelow, List.foldl_append,
    List.foldl_cons, List.foldl_nil]

end Land

/-- Where the operands of a frame end that has the frames `above` above it. -/
def ceiling (above : List Frame) (height : Nat) : Nat :=
  (above.getLast?.map Frame.stackBase).getD height

theorem ceiling_cons (f : Frame) (above : List Frame) (height : Nat) :
    ceiling (f :: above) height = ceiling above f.stackBase := by
  cases above with
  | nil => rfl
  | cons g above =>
    rw [ceiling, ceiling, List.getLast?_cons_cons,
      List.getLast?_eq_some_getLast (List.cons_ne_nil g above)]
    rfl

theorem Nested.below_append {ground height : Nat} {above below : List Frame}
    (h : Nested ground (above ++ below) height) : Nested ground below (ceiling above height) := by
  induction above generalizing height with
  | nil => exact h
  | cons f above ih =>
    rw [ceiling_cons]
    exact ih h.2.2

theorem Nested.ceiling_le {ground height : Nat} {above below : List Frame}
    (h : Nested ground (above ++ below) height) : ceiling above height ≤ height := by
  induction above generalizing height with
  | nil => exact Nat.le_refl _
  | cons f above ih =>
    rw [ceiling_cons]
    exact Nat.le_trans (ih h.2.2) h.1

/-- On nested frames, what is left is the stack below the lowest of those that are left. -/
theorem Nested.stackBelow_eq {ground : Nat} {above below : List Frame} {stack : List Value}
    (h : Nested ground (above ++ below) stack.length) :
    stackBelow stack above = cutTo (ceiling above stack.length) stack := by
  induction above generalizing stack with
  | nil => exact (cutTo_of_length_le (Nat.le_refl _)).symm
  | cons f above ih =>
    have hlen : (cutTo f.stackBase stack).length = f.stackBase := by
      rw [length_cutTo, Nat.min_eq_left h.1]
    have hn : Nested ground (above ++ below) f.stackBase := h.2.2
    -- bases fall from the innermost frame on, so that the last cut decides
    calc stackBelow (cutTo f.stackBase stack) above
        = cutTo (ceiling above f.stackBase) (cutTo f.stackBase stack) := by
          rw [ih (by rw [hlen]; exact hn), hlen]
      _ = cutTo (ceiling above f.stackBase) stack := cutTo_cutTo hn.ceiling_le
      _ = cutTo (ceiling (f :: above) stack.length) stack := by rw [ceiling_cons]

namespace Machine.Above

variable {m₀ m : Machine} {above below : List Frame} {f : Frame}

theorem leaveAll (h : m₀.Above (above ++ below) m) :
    m₀.Above below
      { m with frames := below ++ m₀.frames, stack := stackBelow m.stack above } := by
  have hnest := h.nested.below_append
  have hlen : (cutTo (ceiling above m.stack.length) m.stack).length =
      ceiling above m.stack.length := by
    rw [length_cutTo, Nat.min_eq_left h.nested.ceiling_le]
  rw [h.nested.stackBelow_eq]
  refine ⟨rfl, suffix_cutTo h.stack hnest.ground_le, ?_, h.config, h.guard, h.store⟩
  rw [hlen]
  exact hnest

theorem resume {r : Handler} {rs : List Handler} (h : m₀.Above (f :: below) m)
    (hf : f.handlers = r :: rs) :
    m₀.Above ({ f with pc := r.target, handlers := rs } :: below)
      { m with
        frames := { f with pc := r.target, handlers := rs } :: (below ++ m₀.frames)
        stack := cutTo r.height m.stack } := by
  have hheight : f.stackBase ≤ r.height := h.nested.2.1 r (by rw [hf]; exact List.mem_cons_self ..)
  refine ⟨rfl, suffix_cutTo h.stack (Nat.le_trans h.nested.2.2.ground_le hheight), ⟨?_, ?_, ?_⟩,
    h.config, h.guard, h.store⟩
  · rw [length_cutTo]
    exact Nat.le_min.2 ⟨hheight, h.nested.1⟩
  · intro q hq
    exact h.nested.2.1 q (by rw [hf]; exact List.mem_cons_of_mem _ hq)
  · exact h.nested.2.2

end Machine.Above

/-- Among frames with a catch region there is an innermost one. -/
theorem first_handler {fs : List Frame} (hfs : ∃ g ∈ fs, g.handlers ≠ []) :
    ∃ above f h hs below, fs = above ++ f :: below ∧ (∀ g ∈ above, g.handlers = []) ∧
      f.handlers = h :: hs := by
  induction fs with
  | nil =>
    obtain ⟨g, hg, -⟩ := hfs
    exact absurd hg List.not_mem_nil
  | cons f fs ih =>
    cases hf : f.handlers with
    | cons h hs => exact ⟨[], f, h, hs, fs, rfl, fun _ hg => absurd hg List.not_mem_nil, hf⟩
    | nil =>
      have htail : ∃ g ∈ fs, g.handlers ≠ [] := by
        obtain ⟨g, hg, hne⟩ := hfs
        rcases List.mem_cons.1 hg with rfl | hg
        · exact absurd hf hne
        · exact ⟨g, hg, hne⟩
      obtain ⟨above, g, h, hs, below, rfl, hnone, hg⟩ := ih htail
      exact ⟨f :: above, g, h, hs, below, rfl, List.forall_mem_cons.2 ⟨hf, hnone⟩, hg⟩

theorem first_taker (s : Signal) (fs : List Frame) :
    (∃ above f h hs below, fs = above ++ f :: below ∧ (∀ g ∈ above, ¬ g.Takes s) ∧
      s.catchable = true ∧ f.handlers = h :: hs) ∨ ∀ g ∈ fs, ¬ g.Takes s := by
  by_cases hfs : s.catchable = true ∧ ∃ g ∈ fs, g.handlers ≠ []
  · obtain ⟨above, f, h, hs, below, hsplit, hnone, hf⟩ := first_handler hfs.2
    exact .inl ⟨above, f, h, hs, below, hsplit, fun g hg ht => ht.2 (hnone g hg), hfs.1, hf⟩
  · exact .inr fun g hg ht => hfs ⟨ht.1, g, hg, ht.2⟩

/-- An exception object for an error. -/
structure Store.IsExceptionFor (store : Store) (fault : Fault) (id : ObjectId) : Prop where
  type : (store.object id).type = Builtin.exception.id
  kind : ∃ a, (store.object id).attributes.get? "kind" = some a ∧ a.value = .string fault.kind.name
  message : ∃ a, (store.object id).attributes.get? "message" = some a ∧
    a.value = .string fault.message
  line : ∃ a, (store.object id).attributes.get? "line" = some a ∧
    a.value = fault.line?.elim .void fun n => .number (Float.ofNat n)

/-- The value with which a catch region starts: what was raised, or a new object for the error. -/
inductive Delivers (store : Store) : Signal → Value → Store → Prop
  | raise (v : Value) : Delivers store (.raise v) v store
  | error {fault : Fault} {id : ObjectId} {store' : Store} (fresh : id.index = store.objects.size)
      (exception : store'.IsExceptionFor fault id) :
      Delivers store (.error fault) (.object id) store'

theorem Store.objects_instanceCopy (s : Store) (a : Attribute) :
    (s.instanceCopy a).2.objects = s.objects := by
  unfold instanceCopy
  split <;> rfl

theorem Store.objects_copyInit (s : Store) (into : Attributes) (l : List (String × Attribute)) :
    (s.copyInit into l).2.objects = s.objects := by
  induction l generalizing s into with
  | nil => rfl
  | cons e rest ih =>
    rw [copyInit]
    split
    · exact (ih ..).trans (objects_instanceCopy ..)
    · exact ih ..

theorem Store.object_setObject_self (s : Store) {id : ObjectId} (f : Attributes → Attributes)
    (h : id.index < s.objects.size) :
    (s.setObject id f).object id =
      { s.object id with attributes := f (s.object id).attributes } := by
  simp [object, setObject, h, Array.getElem_modify]

theorem Store.instantiate_fst (s : Store) (t : TypeId) : (s.instantiate t).1 = ⟨s.objects.size⟩ :=
  congrArg (fun objects : Array Object => (⟨objects.size⟩ : ObjectId)) (s.objects_copyInit _ _)

theorem Store.object_instantiate (s : Store) (t : TypeId) :
    (s.instantiate t).1.index < (s.instantiate t).2.objects.size ∧
      ((s.instantiate t).2.object (s.instantiate t).1).type = t := by
  simp [instantiate, newObject, object]

theorem Store.makeException_spec (s : Store) (fault : Fault) :
    ∃ id : ObjectId, (s.makeException fault.kind.name fault.message fault.line?).1 = .object id ∧
      id.index = s.objects.size ∧
      (s.makeException fault.kind.name fault.message fault.line?).2.IsExceptionFor fault id := by
  obtain ⟨hlt, ht⟩ := s.object_instantiate Builtin.exception.id
  refine ⟨(s.instantiate Builtin.exception.id).1, rfl, ?_, ?_, ?_, ?_, ?_⟩
  · rw [instantiate_fst]
  all_goals
    simp only [makeException]
    rw [object_setObject_self _ _ hlt]
  · exact ht
  all_goals simp [Table.get?_insert]

theorem Delivers.of_sameOrigin {store store' : Store} {s s' : Signal} {v : Value}
    (h : Delivers store s' v store') (hs : s.SameOrigin s') : Delivers store s v store' := by
  cases hs with
  | raise v => exact h
  | error hc hp =>
    cases h with
    | error fresh e =>
      obtain ⟨type, kind, message, line⟩ := e
      rw [Fault.kind, hc] at kind
      rw [Fault.message, hc] at message
      rw [Fault.line?, hp] at line
      exact .error fresh ⟨type, kind, message, line⟩

namespace Exec

theorem exceptionOf_eq (s : Signal) (m : Machine) :
    ∃ v store, exceptionOf s m = .ok v { m with store } ∧ Delivers m.store s v store ∧
      m.store.Kept store := by
  cases s with
  | raise v => exact ⟨v, m.store, rfl, .raise v, .refl _⟩
  | error fault =>
    obtain ⟨id, hid, hfresh, he⟩ := m.store.makeException_spec fault
    exact ⟨.object id, _, congrArg (EStateM.Result.ok · _) hid, .error hfresh he,
      m.store.kept_makeException ..⟩

variable {m : Machine} {s : Signal} {base : Nat} {above below upper lower : List Frame} {f : Frame}
  {h : Handler} {hs : List Handler}

theorem unwind_caught (hm : m.frames = above ++ f :: below) (habove : ∀ g ∈ above, ¬ g.Takes s)
    (hc : s.catchable = true) (hf : f.handlers = h :: hs) (hb : base ≤ below.length) :
    ∃ v store, Delivers m.store s v store ∧ m.store.Untouched store ∧
      unwind s base m =
        .ok () { m with
          frames := { f with pc := h.target, handlers := hs } :: below
          stack := v :: cutTo h.height (stackBelow m.stack above)
          store := store, raiseTrace := [], raisePosition := none } := by
  obtain ⟨v, store, heq, hv, hstore⟩ := exceptionOf_eq
    (s.leaveAll m.store m.raiseTrace above).1
    { m with
      frames := { f with pc := h.target, handlers := hs } :: below
      stack := cutTo h.height (stackBelow m.stack above) }
  refine ⟨v, store, hv.of_sameOrigin (s.sameOrigin_leaveAll ..), hstore.toUntouched, ?_⟩
  rw [unwind, get_bind_apply, hm, land_caught habove hc hf hb]
  exact bind_of_ok heq

theorem unwind_escaped (hm : m.frames = upper ++ lower) (hne : upper ≠ [])
    (hupper : ∀ g ∈ upper, ¬ g.Takes s) (hb : lower.length = base) :
    unwind s base m =
      .error (.failed (s.leaveAll m.store m.raiseTrace upper).1)
        { m with
          frames := lower
          stack := stackBelow m.stack upper
          raiseTrace := (s.leaveAll m.store m.raiseTrace upper).2 } := by
  rw [unwind, get_bind_apply, hm, land_escaped hne hupper hb]
  rfl

end Exec

end ScriptMachine
