import ScriptMachine.Model.Element
import ScriptMachine.Proofs.Model.Assignment

namespace ScriptMachine

/-- Where an index leads in an array or a map. -/
inductive Slot where
  | element (i : Nat)
  | key (name : String)
  deriving DecidableEq

def Value.slot? (container index : Value) : Option Slot :=
  match container with
  | .array _ => index.index?.map .element
  | .map _ => index.mapKey?.map .key
  | _ => none

theorem Value.slot?_array_eq_iff {id : ArrayId} {i j : Value} :
    (Value.array id).slot? i = (Value.array id).slot? j ↔ i.index? = j.index? :=
  ⟨fun h => Option.map_injective (fun _ _ => Slot.element.inj) h,
    fun h => congrArg (Option.map Slot.element) h⟩

theorem Value.slot?_map_eq_iff {id : MapId} {i j : Value} :
    (Value.map id).slot? i = (Value.map id).slot? j ↔ i.mapKey? = j.mapKey? :=
  ⟨fun h => Option.map_injective (fun _ _ => Slot.key.inj) h,
    fun h => congrArg (Option.map Slot.key) h⟩

section Growth

variable {items items' : Array Value} {i : Nat} {v : Value}

theorem storeElement_cases (items : Array Value) (i : Nat) (v : Value) :
    (i < items.size ∧ storeElement items i v = .ok (items.setIfInBounds i v)) ∨
      (items.size ≤ i ∧ i ≤ items.size + maxGap ∧ storeElement items i v =
        .ok ((items ++ Array.replicate (i - items.size) Value.void).push v)) ∨
      (items.size + maxGap < i ∧
        storeElement items i v = .error (.indexTooFar i items.size)) := by
  unfold storeElement
  by_cases hin : i < items.size
  · exact .inl ⟨hin, if_pos hin⟩
  · rw [if_neg hin]
    by_cases hfar : maxGap < i - items.size
    · exact .inr (.inr ⟨by omega, if_pos hfar⟩)
    · exact .inr (.inl ⟨by omega, by omega, if_neg hfar⟩)

theorem storeElement_isOk_iff :
    (∃ items', storeElement items i v = .ok items') ↔ i ≤ items.size + maxGap := by
  rcases storeElement_cases items i v with ⟨hin, heq⟩ | ⟨-, hnear, heq⟩ | ⟨hfar, heq⟩
  · exact ⟨fun _ => by omega, fun _ => ⟨_, heq⟩⟩
  · exact ⟨fun _ => hnear, fun _ => ⟨_, heq⟩⟩
  · rw [heq]
    exact ⟨nofun, fun hnear => absurd hfar (Nat.not_lt.2 hnear)⟩

theorem size_storeElement (h : storeElement items i v = .ok items') :
    items'.size = max items.size (i + 1) := by
  rcases storeElement_cases items i v with ⟨hin, heq⟩ | ⟨hout, -, heq⟩ | ⟨-, heq⟩
  · obtain rfl := Except.ok.inj (heq.symm.trans h)
    rw [Array.size_setIfInBounds]
    omega
  · obtain rfl := Except.ok.inj (heq.symm.trans h)
    rw [Array.size_push, Array.size_append, Array.size_replicate]
    omega
  · cases heq.symm.trans h

theorem getElem?_storeElement (h : storeElement items i v = .ok items') (j : Nat) :
    items'[j]?.getD .void = if j = i then v else items[j]?.getD .void := by
  rcases storeElement_cases items i v with ⟨hin, heq⟩ | ⟨hout, -, heq⟩ | ⟨-, heq⟩
  · obtain rfl := Except.ok.inj (heq.symm.trans h)
    grind
  · obtain rfl := Except.ok.inj (heq.symm.trans h)
    grind
  · cases heq.symm.trans h

end Growth

namespace Store

/-- An array or a map of the store. -/
inductive Indexed (s : Store) : Value → Prop
  | array {id : ArrayId} (h : id.index < s.arrays.size) : s.Indexed (.array id)
  | map {id : MapId} (h : id.index < s.maps.size) : s.Indexed (.map id)

/-- A write may go past the end of an array, but not too far. -/
def Takes (s : Store) : Value → Slot → Prop
  | .array id, .element i => i ≤ (s.array id).size + 65536
  | _, _ => True

/-- The value is in the slot, and the others are as they were. -/
structure Stored (s : Store) (container index v : Value) (s' : Store) : Prop where
  same : ∀ j, container.slot? j = container.slot? index → s'.readElement container j = .ok v
  other : ∀ j, container.slot? j ≠ container.slot? index →
    s'.readElement container j = s.readElement container j
  size : ∀ id i, container = .array id → index.index? = some i →
    (s'.array id).size = max (s.array id).size (i + 1)
  names : ∀ id key, container = .map id → index.mapKey? = some key →
    (s'.map id).names =
      if key ∈ (s.map id).names then (s.map id).names else (s.map id).names ++ [key]

section Reading

variable {s s' : Store} {container index j v : Value}

theorem readElement_array {id : ArrayId} {k : Nat} (hj : j.index? = some k) :
    s.readElement (.array id) j = .ok ((s.array id)[k]?.getD .void) := by
  cases j with
  | number n => rw [readElement, hj, Option.bind_some]
  | _ => cases hj

theorem readElement_array_of_none {id : ArrayId} (hj : j.index? = none) :
    s'.readElement (.array id) j = s.readElement (.array id) j := by
  cases j with
  | number n => rw [readElement, readElement, hj, Option.bind_none, Option.bind_none]
  | _ => rfl

theorem readElement_map {id : MapId} {key : String} (hj : j.mapKey? = some key) :
    s.readElement (.map id) j = .ok (((s.map id).get? key).getD .void) := by
  rw [readElement, hj]

theorem readElement_map_of_none {id : MapId} (hj : j.mapKey? = none) :
    s'.readElement (.map id) j = s.readElement (.map id) j := by
  rw [readElement, readElement, hj]

theorem array_setArray {id : ArrayId} (h : id.index < s.arrays.size)
    (f : Array Value → Array Value) : (s.setArray id f).array id = f (s.array id) :=
  getD_modify_self f h

theorem map_setMap {id : MapId} (h : id.index < s.maps.size) (f : Table Value → Table Value) :
    (s.setMap id f).map id = f (s.map id) :=
  getD_modify_self f h

theorem stored_array {id : ArrayId} {i : Nat} {items : Array Value} (h : id.index < s.arrays.size)
    (hi : index.index? = some i) (hitems : storeElement (s.array id) i v = .ok items) :
    s.Stored (.array id) index v (s.setArray id fun _ => items) := by
  have hnew : (s.setArray id fun _ => items).array id = items := array_setArray h _
  refine ⟨fun j hj => ?_, fun j hj => ?_, ?_, nofun⟩
  · have hj' : j.index? = some i := (Value.slot?_array_eq_iff.1 hj).trans hi
    rw [readElement_array hj', hnew, getElem?_storeElement hitems, if_pos rfl]
  · cases hk : j.index? with
    | none => exact readElement_array_of_none hk
    | some k =>
      have hne : k ≠ i := by
        rintro rfl
        exact hj (Value.slot?_array_eq_iff.2 (hk.trans hi.symm))
      rw [readElement_array hk, readElement_array hk, hnew, getElem?_storeElement hitems,
        if_neg hne]
  · rintro _ k ⟨⟩ hk
    obtain rfl : i = k := Option.some.inj (hi.symm.trans hk)
    rw [hnew, size_storeElement hitems]

theorem stored_map {id : MapId} {key : String} (h : id.index < s.maps.size)
    (hkey : index.mapKey? = some key) :
    s.Stored (.map id) index v (s.setMap id (·.insert key v)) := by
  have hnew : (s.setMap id (·.insert key v)).map id = (s.map id).insert key v := map_setMap h _
  refine ⟨fun j hj => ?_, fun j hj => ?_, nofun, ?_⟩
  · have hj' : j.mapKey? = some key := (Value.slot?_map_eq_iff.1 hj).trans hkey
    rw [readElement_map hj', hnew, Table.get?_insert, if_pos rfl]
    rfl
  · cases hk : j.mapKey? with
    | none => exact readElement_map_of_none hk
    | some other =>
      have hne : other ≠ key := by
        rintro rfl
        exact hj (Value.slot?_map_eq_iff.2 (hk.trans hkey.symm))
      rw [readElement_map hk, readElement_map hk, hnew, Table.get?_insert, if_neg hne]
  · rintro _ k ⟨⟩ hk
    obtain rfl : key = k := Option.some.inj (hkey.symm.trans hk)
    rw [hnew, Table.names_insert]

theorem writeElement_array {id : ArrayId} {i : Nat} (hi : index.index? = some i) :
    s.writeElement (.array id) index v =
      (storeElement (s.array id) i v).map fun items => s.setArray id fun _ => items := by
  rw [writeElement, hi]

theorem writeElement_map {id : MapId} {key : String} (hkey : index.mapKey? = some key) :
    s.writeElement (.map id) index v = .ok (s.setMap id (·.insert key v)) := by
  rw [writeElement, hkey]

theorem writeElement_of_none (h : container.slot? index = none) :
    ∃ c, s.writeElement container index v = .error c := by
  cases container with
  | array id =>
    rw [writeElement, Option.map_eq_none_iff.1 h]
    exact ⟨_, rfl⟩
  | map id =>
    rw [writeElement, Option.map_eq_none_iff.1 h]
    exact ⟨_, rfl⟩
  | _ => exact ⟨_, rfl⟩

theorem writeElement_isOk_iff (hc : s.Indexed container) :
    (∃ s', s.writeElement container index v = .ok s') ↔
      ∃ slot, container.slot? index = some slot ∧ s.Takes container slot := by
  cases hslot : container.slot? index with
  | none =>
    obtain ⟨c, herror⟩ := s.writeElement_of_none (v := v) hslot
    rw [herror]
    exact ⟨nofun, nofun⟩
  | some slot =>
    have hslots (p : Slot → Prop) : (∃ slot', some slot = some slot' ∧ p slot') ↔ p slot := by
      simp
    rw [hslots]
    cases hc with
    | @array id hid =>
      obtain ⟨i, hi, rfl⟩ := Option.map_eq_some_iff.1 hslot
      rw [writeElement_array hi]
      refine Iff.trans ?_ (storeElement_isOk_iff (v := v))
      cases storeElement (s.array id) i v with
      | ok items => exact ⟨fun _ => ⟨_, rfl⟩, fun _ => ⟨_, rfl⟩⟩
      | error c => exact ⟨nofun, nofun⟩
    | @map id hid =>
      obtain ⟨key, hkey, rfl⟩ := Option.map_eq_some_iff.1 hslot
      rw [writeElement_map hkey]
      exact ⟨fun _ => trivial, fun _ => ⟨_, rfl⟩⟩

theorem stored_of_writeElement (hc : s.Indexed container)
    (h : s.writeElement container index v = .ok s') : s.Stored container index v s' := by
  cases hslot : container.slot? index with
  | none =>
    obtain ⟨c, herror⟩ := s.writeElement_of_none (v := v) hslot
    rw [herror] at h
    cases h
  | some slot =>
    cases hc with
    | @array id hid =>
      obtain ⟨i, hi, -⟩ := Option.map_eq_some_iff.1 hslot
      rw [writeElement_array hi] at h
      cases hitems : storeElement (s.array id) i v with
      | error c =>
        rw [hitems] at h
        cases h
      | ok items =>
        rw [hitems] at h
        cases h
        exact stored_array hid hi hitems
    | @map id hid =>
      obtain ⟨key, hkey, -⟩ := Option.map_eq_some_iff.1 hslot
      rw [writeElement_map hkey] at h
      cases h
      exact stored_map hid hkey

end Reading

end Store

end ScriptMachine
