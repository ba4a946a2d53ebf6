import ScriptMachine.Proofs.Model.Causes

namespace ScriptMachine

namespace Store

/-- New arrays, maps and objects, and every old cell as it was. -/
structure Grown (s s' : Store) : Prop where
  same : s' = { s with arrays := s'.arrays, maps := s'.maps, objects := s'.objects }
  arrays : s.arrays.toList <+: s'.arrays.toList
  maps : s.maps.toList <+: s'.maps.toList
  objects : s.objects.toList <+: s'.objects.toList

/-- No static slot and no native function has changed. -/
structure Untouched (s s' : Store) : Prop where
  statics : s'.statics = s.statics
  natives : s'.natives = s.natives

theorem Untouched.refl (s : Store) : s.Untouched s :=
  ⟨rfl, rfl⟩

theorem Untouched.trans {s s' s'' : Store} (h : s.Untouched s') (h' : s'.Untouched s'') :
    s.Untouched s'' :=
  ⟨h'.statics.trans h.statics, h'.natives.trans h.natives⟩

/-- The same static slots, and the same functions up to their attributes. -/
structure SameCode (s s' : Store) : Prop where
  statics : s'.statics = s.statics
  closures : s'.functions.map (·.closure) = s.functions.map (·.closure)

/-- Nothing was done to static slots, to native functions and to the code of functions. -/
structure Kept (s s' : Store) : Prop extends Untouched s s', SameCode s s'

variable {s s' s'' : Store}

namespace Grown

theorem refl (s : Store) : s.Grown s :=
  ⟨rfl, List.prefix_rfl, List.prefix_rfl, List.prefix_rfl⟩

theorem trans (h : s.Grown s') (h' : s'.Grown s'') : s.Grown s'' := by
  refine ⟨?_, h.arrays.trans h'.arrays, h.maps.trans h'.maps, h.objects.trans h'.objects⟩
  rw [h'.same, h.same]

theorem newArray (s : Store) (items : Array Value) : s.Grown (s.newArray items).2 := by
  refine ⟨rfl, ?_, List.prefix_rfl, List.prefix_rfl⟩
  simp [Store.newArray]

theorem newMap (s : Store) (entries : Table Value) : s.Grown (s.newMap entries).2 := by
  refine ⟨rfl, List.prefix_rfl, ?_, List.prefix_rfl⟩
  simp [Store.newMap]

theorem newObject (s : Store) (o : Object) : s.Grown (s.newObject o).2 := by
  refine ⟨rfl, List.prefix_rfl, List.prefix_rfl, ?_⟩
  simp [Store.newObject]

theorem instanceCopy (s : Store) (a : Attribute) : s.Grown (s.instanceCopy a).2 := by
  unfold Store.instanceCopy
  split
  · exact newArray s _
  · exact newMap s _
  · exact refl s

theorem copyInit (s : Store) (into : Attributes) (l : List (String × Attribute)) :
    s.Grown (s.copyInit into l).2 := by
  induction l generalizing s into with
  | nil => exact refl s
  | cons e rest ih =>
    rw [Store.copyInit]
    split
    · exact (instanceCopy ..).trans (ih ..)
    · exact ih ..

theorem instantiate (s : Store) (t : TypeId) : s.Grown (s.instantiate t).2 :=
  (copyInit s .empty (s.instanceDeclarations t)).trans (newObject ..)

theorem kept (h : s.Grown s') : s.Kept s' := by
  rw [h.same]
  exact ⟨⟨rfl, rfl⟩, rfl⟩

end Grown

namespace SameCode

theorem refl (s : Store) : s.SameCode s :=
  ⟨rfl, rfl⟩

theorem trans (h : s.SameCode s') (h' : s'.SameCode s'') : s.SameCode s'' :=
  ⟨h'.statics.trans h.statics, h'.closures.trans h.closures⟩

theorem size_eq (h : s.SameCode s') : s'.functions.size = s.functions.size := by
  have hsize := congrArg Array.size h.closures
  simpa only [Array.size_map] using hsize

theorem closure_eq (h : s.SameCode s') (id : FunctionId) :
    (s'.function id).closure = (s.function id).closure := by
  have hget := congrArg (·[id.index]?) h.closures
  simp only [Array.getElem?_map] at hget
  rw [function, function, Array.getD_eq_getD_getElem?, Array.getD_eq_getD_getElem?]
  cases hs : s.functions[id.index]? with
  | none =>
    rw [hs, Option.map_none, Option.map_eq_none_iff] at hget
    rw [hget]
  | some f =>
    rw [hs, Option.map_some, Option.map_eq_some_iff] at hget
    obtain ⟨f', hf', hclosure⟩ := hget
    rw [hf']
    exact hclosure

end SameCode

theorem Kept.refl (s : Store) : s.Kept s :=
  ⟨.refl s, rfl⟩

theorem Kept.trans (h : s.Kept s') (h' : s'.Kept s'') : s.Kept s'' :=
  ⟨h.toUntouched.trans h'.toUntouched, h'.closures.trans h.closures⟩

variable (s : Store)

theorem kept_setFunction (id : FunctionId) (f : Attributes → Attributes) :
    s.Kept (s.setFunction id f) := by
  refine ⟨⟨rfl, rfl⟩, ?_⟩
  ext i
  · simp [setFunction]
  · simp only [setFunction, Array.getElem_map, Array.getElem_modify]
    split <;> rfl

theorem kept_setOwn (target : Value) (f : Attributes → Attributes) :
    s.Kept (s.setOwn target f) := by
  cases target with
  | function id => exact s.kept_setFunction id f
  | _ => exact ⟨⟨rfl, rfl⟩, rfl⟩

theorem kept_bind (receiver v : Value) : s.Kept (s.bind receiver v).2 := by
  unfold Store.bind
  split <;> exact ⟨⟨rfl, rfl⟩, rfl⟩

theorem kept_tie (receiver method : Value) : s.Kept (s.tie receiver method).2 := by
  unfold Store.tie
  split <;> exact ⟨⟨rfl, rfl⟩, rfl⟩

theorem kept_makeException (kind message : String) (line : Option Nat) :
    s.Kept (s.makeException kind message line).2 :=
  (Grown.instantiate s Builtin.exception.id).kept.trans ⟨⟨rfl, rfl⟩, rfl⟩

variable {s}

theorem kept_assignOwn {target : Value} {name : String} {v : Value}
    (h : s.assignOwn target name v = some s') : s.Kept s' := by
  unfold assignOwn at h
  simp only [Option.bind_eq_bind, Option.bind_eq_some_iff, pure, Option.some.injEq] at h
  obtain ⟨_, _, _, _, rfl⟩ := h
  exact kept_setOwn ..

theorem kept_set {a : Access} {target : Value} {name : String} {v : Value}
    (h : s.set a target name v = .ok s') : s.Kept s' := by
  unfold Store.set at h
  split at h
  · split at h
    · obtain ⟨_, _, h⟩ := exceptBind_eq_ok h
      split at h
      · rename_i s'' hs
        cases h
        exact kept_assignOwn hs
      · cases h
        exact kept_setOwn ..
    · cases h
      exact kept_setOwn ..
  · cases h

theorem kept_define {target : Value} {name : String} {v : Value} {flags : Flags}
    (h : s.define target name v flags = .ok s') : s.Kept s' := by
  unfold define at h
  split at h
  · cases h
    exact kept_setOwn ..
  · cases h

theorem kept_writeElement {container index v : Value}
    (h : s.writeElement container index v = .ok s') : s.Kept s' := by
  unfold writeElement at h
  split at h
  · split at h
    · obtain ⟨_, _, h⟩ := exceptBind_eq_ok h
      cases h
      exact ⟨⟨rfl, rfl⟩, rfl⟩
    · cases h
  · split at h
    · cases h
      exact ⟨⟨rfl, rfl⟩, rfl⟩
    · cases h
  · cases h

end Store

theorem Method.kept_apply {m : Method} {s s' : Store} {this v : Value} {args : List Value}
    (h : m.apply s this args = .ok (v, s')) (hclone : m ≠ .clone) : s.Kept s' := by
  cases m with
  | clone => exact absurd rfl hclone
  | getType | toString => cases h; exact .refl s
  | isA | stringLength | getMessage =>
    simp only [apply] at h
    split at h
    · cases h; exact .refl s
    · cases h
  | exceptionConstructor =>
    simp only [apply] at h
    split at h
    · rename_i id message _
      cases h
      cases ha : s.assignOwn (.object id) "message" (.string (s.text message)) with
      | none => exact .refl s
      | some s'' => exact Store.kept_assignOwn ha
    · cases h; exact .refl s
  | getName | getBaseType | getTraits | arraySize | arrayPush | arrayPop | mapSize | mapKeys
  | getParamCount | getMinParamCount | getMaxParamCount | getMultiParam | getLine =>
    obtain ⟨_, _, h⟩ := exceptBind_eq_ok h
    cases h
    exact ⟨⟨rfl, rfl⟩, rfl⟩
  | arrayGet | mapGet | mapSet | mapContains =>
    obtain ⟨_, _, h⟩ := exceptBind_eq_ok h
    obtain ⟨_, _, h⟩ := exceptBind_eq_ok h
    cases h
    exact ⟨⟨rfl, rfl⟩, rfl⟩
  | arraySet =>
    obtain ⟨_, _, h⟩ := exceptBind_eq_ok h
    obtain ⟨_, _, h⟩ := exceptBind_eq_ok h
    obtain ⟨_, _, h⟩ := exceptBind_eq_ok h
    cases h
    exact ⟨⟨rfl, rfl⟩, rfl⟩

end ScriptMachine
