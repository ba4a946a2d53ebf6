import ScriptMachine.Model.Release
import ScriptMachine.Proofs.Model.Growth

namespace ScriptMachine

namespace Store

/-- Every block of `s` is one of `s'` with as many slots. -/
def SlotsKept (s s' : Store) : Prop :=
  ∀ id : StaticsId, id.index < s.statics.size →
    id.index < s'.statics.size ∧ (s'.staticsCell id).slots.size = (s.staticsCell id).slots.size

theorem SlotsKept.refl (s : Store) : s.SlotsKept s :=
  fun _ h => ⟨h, rfl⟩

theorem SlotsKept.trans {s s' s'' : Store} (h : s.SlotsKept s') (h' : s'.SlotsKept s'') :
    s.SlotsKept s'' := by
  intro id hid
  obtain ⟨hid', hsize⟩ := h id hid
  obtain ⟨hid'', hsize'⟩ := h' id hid'
  exact ⟨hid'', hsize'.trans hsize⟩

theorem SlotsKept.newStatics (s : Store) (b : Statics) : s.SlotsKept (s.newStatics b).2 := by
  intro id hid
  -- the new block is the last one, so the others keep their places
  have hne : id.index ≠ s.statics.size := by omega
  simp only [Store.newStatics, staticsCell, Array.size_push, Array.getD_eq_getD_getElem?,
    Array.getElem?_push, if_neg hne, and_true]
  omega

theorem SlotsKept.setStatics {s s' : Store} {id : StaticsId} {b : Statics} (h : s.SlotsKept s')
    (hb : id.index < s.statics.size → b.slots.size = (s.staticsCell id).slots.size) :
    s.SlotsKept (s'.setStatics id b) := by
  intro j hj
  obtain ⟨hj', hsize⟩ := h j hj
  refine ⟨by simpa [Store.setStatics] using hj', ?_⟩
  by_cases hij : id.index = j.index
  -- the block that is replaced has to have the right size; the others stay
  · have hid : id = j := by cases id; cases j; simp_all
    subst hid
    rw [← hb hj]
    simp [Store.setStatics, staticsCell, hj']
  · rw [← hsize]
    simp [Store.setStatics, staticsCell, hij]

/-- What running code keeps: the native functions, and every static block in its size. -/
structure Retained (s s' : Store) : Prop where
  slots : s.SlotsKept s'
  natives : s'.natives = s.natives

theorem Retained.refl (s : Store) : s.Retained s :=
  ⟨.refl s, rfl⟩

theorem Retained.trans {s s' s'' : Store} (h : s.Retained s') (h' : s'.Retained s'') :
    s.Retained s'' :=
  ⟨h.slots.trans h'.slots, h'.natives.trans h.natives⟩

theorem Untouched.retained {s s' : Store} (h : s.Untouched s') : s.Retained s' := by
  refine ⟨fun id hid => ?_, h.natives⟩
  rw [staticsCell, staticsCell, h.statics]
  exact ⟨hid, rfl⟩

theorem Kept.retained {s s' : Store} (h : s.Kept s') : s.Retained s' :=
  h.toUntouched.retained

theorem Retained.setStatics {s s' : Store} {id : StaticsId} {b : Statics} (h : s.Retained s')
    (hb : id.index < s.statics.size → b.slots.size = (s.staticsCell id).slots.size) :
    s.Retained (s'.setStatics id b) :=
  ⟨h.slots.setStatics hb, h.natives⟩

theorem Retained.native {s s' : Store} (h : s.Retained s') (id : NativeId) :
    s'.native id = s.native id := by
  rw [Store.native, Store.native, h.natives]

/-- The native functions of the built-in types are methods. -/
theorem native_initial (id : NativeId) : ∃ b, (initial.native id).body = .method b := by
  rw [native, Array.getD_eq_getD_getElem?]
  cases h : initial.natives[id.index]? with
  | none => exact ⟨default, rfl⟩
  | some n =>
    obtain ⟨e, -, rfl⟩ := List.mem_map.1 (List.mem_toArray.1 (Array.mem_of_getElem? h))
    exact ⟨e.method, rfl⟩

end Store

theorem Statics.size_set {b b' : Statics} {slot : Nat} {v : Value} (h : b.set slot v = .ok b') :
    b'.slots.size = b.slots.size := by
  unfold Statics.set at h
  split at h
  · cases h
    exact Array.size_setIfInBounds
  · cases h

theorem Statics.set_error {b : Statics} {slot : Nat} {v : Value} {c : Cause}
    (h : b.set slot v = .error c) : c = .breakdown (.noStatic slot) ∧ b.slots.size ≤ slot := by
  unfold Statics.set at h
  split at h
  · cases h
  · rename_i hn
    cases h
    exact ⟨rfl, Array.getElem?_eq_none_iff.1 hn⟩

namespace Store

variable (s : Store)

theorem untouched_newArray (items : Array Value) : s.Untouched (s.newArray items).2 := ⟨rfl, rfl⟩

theorem untouched_newMap (t : Table Value) : s.Untouched (s.newMap t).2 := ⟨rfl, rfl⟩

theorem untouched_newFunction (f : Function) : s.Untouched (s.newFunction f).2 := ⟨rfl, rfl⟩

theorem untouched_newType (t : TypeCell) : s.Untouched (s.newType t).2 := ⟨rfl, rfl⟩

theorem untouched_newTrait (t : Trait) : s.Untouched (s.newTrait t).2 := ⟨rfl, rfl⟩

theorem untouched_setDatum (id : HostedId) (d : Datum) : s.Untouched (s.setDatum id d) := ⟨rfl, rfl⟩

theorem untouched_compose (t : TypeId) (b : TraitId) : s.Untouched (s.compose t b) := ⟨rfl, rfl⟩

end Store

theorem Method.untouched_apply {m : Method} {s s' : Store} {this v : Value} {args : List Value}
    (h : m.apply s this args = .ok (v, s')) : s.Untouched s' := by
  by_cases hclone : m = .clone
  · subst hclone
    obtain ⟨_, _, h⟩ := exceptBind_eq_ok h
    cases h
    exact ⟨rfl, rfl⟩
  · exact (kept_apply h hclone).toUntouched

end ScriptMachine
