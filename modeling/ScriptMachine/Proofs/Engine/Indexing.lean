import ScriptMachine.Proofs.Engine.PrivateAccess
import ScriptMachine.Proofs.Model.Elements

namespace ScriptMachine

/-- What a write comes to, with the result of its success. -/
def Machine.written {α : Type} (m : Machine) (a : α) :
    Except Cause Store → EStateM.Result (Stop Signal) Machine α
  | .ok store => .ok a { m with store }
  | .error c => .error (.failed (.ofCause c)) m

namespace Exec

variable {m : Machine} {c i v : Value}

section Instructions

variable {f : Frame} {rest : List Frame} {left : List Value}

theorem alter_eq (g : Store → Except Cause Store) (m : Machine) :
    alter g m = m.written () (g m.store) := by
  rw [alter, get_bind_apply]
  cases g m.store <;> rfl

theorem execute_setIndex (hm : m.frames = f :: rest) (hleft : f.stackBase ≤ left.length) :
    execute .setIndex { m with stack := v :: i :: c :: left } =
      Machine.written { m with stack := left } .next (m.store.writeElement c i v) := by
  have hmore : f.stackBase ≤ (c :: left).length := Nat.le_succ_of_le hleft
  have heffect : Effect.setIndex { m with stack := v :: i :: c :: left } =
      Machine.written { m with stack := left } () (m.store.writeElement c i v) :=
    (pop_pop_bind _ hm hmore).trans ((pop_bind _ hm hleft).trans (alter_eq _ _))
  cases hwrite : m.store.writeElement c i v with
  | ok s =>
    rw [hwrite] at heffect
    exact bind_of_ok heffect
  | error e =>
    rw [hwrite] at heffect
    exact bind_of_error heffect

theorem execute_getIndex (hm : m.frames = f :: rest) (hleft : f.stackBase ≤ left.length) :
    execute .getIndex { m with stack := i :: c :: left } =
      match m.store.readElement c i with
      | .ok w => .ok .next { m with stack := w :: left }
      | .error e => .error (.failed (.ofCause e)) { m with stack := left } := by
  have heffect : Effect.getIndex { m with stack := i :: c :: left } =
      (do push (← ofExcept (m.store.readElement c i))) { m with stack := left } :=
    pop_pop_bind _ hm hleft
  cases hread : m.store.readElement c i with
  | ok w =>
    rw [hread] at heffect
    exact bind_of_ok heffect
  | error e =>
    rw [hread] at heffect
    exact bind_of_error heffect

end Instructions

end Exec

/-- The built-in method `name` of the values of a type. -/
structure MethodEntry.Serves (e : MethodEntry) (name : String) (t : TypeId) : Prop where
  mem : e ∈ MethodEntry.all
  name_eq : e.name = name
  owner_eq : e.owner.id = t

namespace MethodEntry

variable {e : MethodEntry} {s : Store} {c i v : Value}

theorem Serves.method_eq {name : String} {t : TypeId} {method : Method} (he : e.Serves name t)
    (h : ∀ e ∈ all, e.name = name → e.owner.id = t → e.method = method) : e.method = method :=
  h e he.mem he.name_eq he.owner_eq

theorem apply_set (hc : s.Indexed c) (he : e.Serves "set" (s.typeOf c))
    (hslot : (c.slot? i).isSome) :
    e.method.apply s c [i, v] = (s.writeElement c i v).map fun s' => (c, s') := by
  obtain ⟨slot, hslot⟩ := Option.isSome_iff_exists.1 hslot
  cases hc with
  | @array id hid =>
    obtain ⟨k, hk, rfl⟩ := Option.map_eq_some_iff.1 hslot
    have hmethod : e.method = .arraySet := he.method_eq (t := Builtin.array.id) (by decide)
    have hindex : Method.indexOf "set" i = .ok k := by rw [Method.indexOf, hk]
    rw [hmethod, Store.writeElement_array hk, Method.apply]
    simp only [List.getElem?_cons_zero, Option.getD_some, hindex]
    change (storeElement (s.array id) k v >>= fun items =>
      Except.ok (Value.array id, s.setArray id fun _ => items)) = _
    cases storeElement (s.array id) k v <;> rfl
  | @map id hid =>
    obtain ⟨key, hkey, rfl⟩ := Option.map_eq_some_iff.1 hslot
    have hmethod : e.method = .mapSet := he.method_eq (t := Builtin.map.id) (by decide)
    have hkeyOf : Method.keyOf "set" i = .ok key := by rw [Method.keyOf, hkey]
    rw [hmethod, Store.writeElement_map hkey, Method.apply]
    simp only [List.getElem?_cons_zero, Option.getD_some, hkeyOf]
    rfl

theorem apply_get (hc : s.Indexed c) (he : e.Serves "get" (s.typeOf c))
    (hslot : (c.slot? i).isSome) :
    e.method.apply s c [i] = (s.readElement c i).map fun w => (w, s) := by
  obtain ⟨slot, hslot⟩ := Option.isSome_iff_exists.1 hslot
  cases hc with
  | @array id hid =>
    obtain ⟨k, hk, rfl⟩ := Option.map_eq_some_iff.1 hslot
    have hmethod : e.method = .arrayGet := he.method_eq (t := Builtin.array.id) (by decide)
    have hindex : Method.indexOf "get" i = .ok k := by rw [Method.indexOf, hk]
    rw [hmethod, Store.readElement_array hk, Method.apply]
    simp only [List.getElem?_cons_zero, Option.getD_some, hindex]
    rfl
  | @map id hid =>
    obtain ⟨key, hkey, rfl⟩ := Option.map_eq_some_iff.1 hslot
    have hmethod : e.method = .mapGet := he.method_eq (t := Builtin.map.id) (by decide)
    have hkeyOf : Method.keyOf "get" i = .ok key := by rw [Method.keyOf, hkey]
    rw [hmethod, Store.readElement_map hkey, Method.apply]
    simp only [List.getElem?_cons_zero, Option.getD_some, hkeyOf]
    rfl

end MethodEntry

namespace Exec

section Methods

variable (call : Callback) {e : MethodEntry}

theorem runBody_of_ok {args : List Value} {w : Value} {s : Store}
    (h : e.method.apply m.store c args = .ok (w, s)) :
    runBody call e.native.body c args m = .ok w { m with store := s } := by
  have hresult : (ofExcept (e.method.apply m.store c args) : Exec _) m = .ok (w, s) m := by
    rw [h]
    rfl
  exact bind_of_ok hresult

theorem runBody_of_error {args : List Value} {cause : Cause}
    (h : e.method.apply m.store c args = .error cause) :
    runBody call e.native.body c args m = .error (.failed (.ofCause cause)) m := by
  have hresult : (ofExcept (e.method.apply m.store c args) : Exec _) m =
      .error (.failed (.ofCause cause)) m := by
    rw [h]
    rfl
  change ((ofExcept (e.method.apply m.store c args) : Exec _) >>= _) m = _
  exact bind_of_error hresult

theorem runBody_set (hc : m.store.Indexed c) (he : e.Serves "set" (m.store.typeOf c))
    (hslot : (c.slot? i).isSome) :
    runBody call e.native.body c [i, v] m = m.written c (m.store.writeElement c i v) := by
  have happly := MethodEntry.apply_set (v := v) hc he hslot
  cases hwrite : m.store.writeElement c i v with
  | ok s =>
    rw [hwrite] at happly
    exact runBody_of_ok call happly
  | error cause =>
    rw [hwrite] at happly
    exact runBody_of_error call happly

theorem runBody_get (hc : m.store.Indexed c) (he : e.Serves "get" (m.store.typeOf c))
    (hslot : (c.slot? i).isSome) :
    runBody call e.native.body c [i] m =
      match m.store.readElement c i with
      | .ok w => .ok w m
      | .error cause => .error (.failed (.ofCause cause)) m := by
  have happly := MethodEntry.apply_get hc he hslot
  cases hread : m.store.readElement c i with
  | ok w =>
    rw [hread] at happly
    exact runBody_of_ok call happly
  | error cause =>
    rw [hread] at happly
    exact runBody_of_error call happly

end Methods

end Exec

/-- Access by the index `i` to a container, with the operands `left` below those of the access. -/
structure Machine.ByIndex (m : Machine) (left : List Value) (c i v : Value) : Prop where
  succeeds : (∃ s, m.store.writeElement c i v = .ok s) ↔
    ∃ slot, c.slot? i = some slot ∧ m.store.Takes c slot
  stored : ∀ s, m.store.writeElement c i v = .ok s → m.store.Stored c i v s
  /-- The instructions write and read elements. -/
  setIndex : Exec.execute .setIndex { m with stack := v :: i :: c :: left } =
    Machine.written { m with stack := left } .next (m.store.writeElement c i v)
  getIndex : Exec.execute .getIndex { m with stack := i :: c :: left } =
    match m.store.readElement c i with
    | .ok w => .ok .next { m with stack := w :: left }
    | .error cause => .error (.failed (.ofCause cause)) { m with stack := left }
  /-- The methods do the same wherever there is a slot. -/
  set : ∀ (e : MethodEntry) call, e.Serves "set" (m.store.typeOf c) → (c.slot? i).isSome →
    Exec.runBody call e.native.body c [i, v] m = m.written c (m.store.writeElement c i v)
  get : ∀ (e : MethodEntry) call, e.Serves "get" (m.store.typeOf c) → (c.slot? i).isSome →
    Exec.runBody call e.native.body c [i] m =
      match m.store.readElement c i with
      | .ok w => .ok w m
      | .error cause => .error (.failed (.ofCause cause)) m

/-- Stores and loads by index, for every array or map, every index and every value. -/
theorem indexed_store_and_load {m : Machine} {f : Frame} {rest : List Frame} {left : List Value}
    {c : Value} (i v : Value) (hm : m.frames = f :: rest) (hleft : f.stackBase ≤ left.length)
    (hc : m.store.Indexed c) : m.ByIndex left c i v where
  succeeds := Store.writeElement_isOk_iff hc
  stored _ h := Store.stored_of_writeElement hc h
  setIndex := Exec.execute_setIndex hm hleft
  getIndex := Exec.execute_getIndex hm hleft
  set _ call he hslot := Exec.runBody_set call hc he hslot
  get _ call he hslot := Exec.runBody_get call hc he hslot

/-- In a call, with a map. -/
def holdingMap : Machine :=
  { Machine.start {} with
    store := (Store.initial.newMap .empty).2
    frames := [{ function := ⟨0⟩, closure := default, locals := #[], supplied := 0, this := .void,
                 stackBase := 0 }] }

theorem indexed_store_and_load_map :
    ∃ s, holdingMap.store.writeElement (.map ⟨0⟩) (.string "k") (.bool true) = .ok s ∧
      s.readElement (.map ⟨0⟩) (.string "k") = .ok (.bool true) := by
  have hc : holdingMap.store.Indexed (.map ⟨0⟩) := .map (by decide)
  have h : holdingMap.ByIndex [] (.map ⟨0⟩) (.string "k") (.bool true) :=
    indexed_store_and_load _ _ rfl (Nat.le_refl 0) hc
  obtain ⟨s, hs⟩ := h.succeeds.2 ⟨_, rfl, trivial⟩
  exact ⟨s, hs, (h.stored s hs).same _ rfl⟩

end ScriptMachine
