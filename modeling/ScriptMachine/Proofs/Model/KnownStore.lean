import ScriptMachine.Proofs.Model.Dispatch
import ScriptMachine.Proofs.Model.KnownTypes

namespace ScriptMachine

namespace Store.Known

variable {n : Nat} {s : Store}

theorem bind (h : s.Known n) {receiver v : Value} (hr : receiver.Known n) (hv : v.Known n) :
    (s.bind receiver v).1.Known n ∧ (s.bind receiver v).2.Known n := by
  unfold Store.bind
  split
  · rename_i method _
    exact ⟨trivial, h.newBound ⟨hr, method.known_value n⟩ _⟩
  · exact ⟨hv, h⟩

theorem dispatch (h : s.Known n) {access : Access} {callee this : Value} {p : Callable × Value}
    (hthis : this.Known n) (hp : s.dispatch access callee this = .ok p) : p.2.Known n := by
  fun_induction Store.dispatch s access callee this with
  | case1 => cases hp; exact hthis
  | case2 => cases hp; exact hthis
  | case3 this id ih => exact ih (h.bound id).1 hp
  | case4 this id ih =>
    obtain ⟨handler, -, hp⟩ := exceptBind_eq_ok hp
    split at hp
    · rename_i hplain
      exact ih handler hplain trivial hp
    · cases hp
  | case5 => cases hp

theorem tie (h : s.Known n) {receiver method : Value} (hr : receiver.Known n)
    (hm : method.Known n) : (s.tie receiver method).2.Known n := by
  unfold Store.tie
  split
  · exact h.newBound ⟨hr, hm⟩ _
  · exact h

theorem insertOwn (h : s.Known n) (target : Value) {name : String} {a : Attribute}
    (ha : a.value.Known n) : (s.setOwn target (·.insert name a)).Known n :=
  h.setOwn target fun _ has => Table.All.insert has ha

theorem assignOwn (h : s.Known n) {target v : Value} {name : String} {s' : Store}
    (hv : v.Known n) (hs : s.assignOwn target name v = some s') : s'.Known n := by
  obtain ⟨as, -, hs⟩ := Option.bind_eq_some_iff.1 hs
  obtain ⟨a, -, hs⟩ := Option.bind_eq_some_iff.1 hs
  cases hs
  exact h.insertOwn target hv

theorem set (h : s.Known n) {access : Access} {target v : Value} {name : String} {s' : Store}
    (hv : v.Known n) (hs : s.set access target name v = .ok s') : s'.Known n := by
  unfold Store.set at hs
  split at hs
  · split at hs
    · obtain ⟨_, -, hs⟩ := exceptBind_eq_ok hs
      split at hs
      · rename_i s₁ hs₁
        cases hs
        exact h.assignOwn hv hs₁
      · cases hs
        exact h.insertOwn target hv
    · cases hs
      exact h.insertOwn target hv
  · cases hs

theorem define (h : s.Known n) {target v : Value} {name : String} {flags : Flags} {s' : Store}
    (hv : v.Known n) (hs : s.define target name v flags = .ok s') : s'.Known n := by
  unfold Store.define at hs
  split at hs
  · cases hs
    exact h.insertOwn target hv
  · cases hs

end Store.Known

section Elements

variable {n : Nat} {v : Value}

theorem storeElement_known {items items' : Array Value} {i : Nat} (hi : ∀ w ∈ items, w.Known n)
    (hv : v.Known n) (h : storeElement items i v = .ok items') : ∀ w ∈ items', w.Known n := by
  unfold storeElement at h
  split at h
  · cases h
    exact forall_mem_setIfInBounds hi hv
  · split at h
    · cases h
    · cases h
      rw [Array.forall_mem_push, Array.forall_mem_append, Array.forall_mem_replicate]
      exact ⟨hv, hi, .inr trivial⟩

theorem getElem?_known {items : Array Value} (hi : ∀ w ∈ items, w.Known n) (o : Option Nat) :
    ((o.bind (items[·]?)).getD .void).Known n := by
  refine getD_of_forall (fun w hw => ?_) trivial
  obtain ⟨i, -, hw⟩ := Option.bind_eq_some_iff.1 hw
  exact hi w (Array.mem_of_getElem? hw)

theorem getEntry_known {t : Table Value} (ht : t.All (Value.Known n)) (key : String) :
    ((t.get? key).getD .void).Known n :=
  getD_of_forall (fun w hw => ht key w hw) trivial

theorem Effect.mapEntries_known {t t' : Table Value} {items : List Value}
    (ht : t.All (Value.Known n)) (hi : ∀ w ∈ items, w.Known n)
    (h : mapEntries t items = .ok t') : t'.All (Value.Known n) := by
  fun_induction mapEntries t items with
  | case1 t key w rest k hk ih =>
    simp only [List.forall_mem_cons] at hi
    exact ih (ht.insert hi.2.1) hi.2.2 h
  | case2 t key w rest hk => cases h
  | case3 t items => cases h; exact ht

theorem Statics.Known.get? {b : Statics} (h : b.Known n) (slot : Nat) :
    ((b.get? slot).getD .void).Known n := by
  refine getD_of_forall (fun w hw => ?_) trivial
  obtain ⟨e, he, hw⟩ := Option.bind_eq_some_iff.1 hw
  exact h e (Array.mem_of_getElem? he) w hw

theorem Statics.Known.set {b b' : Statics} {slot : Nat} (h : b.Known n) (hv : v.Known n)
    (hb : b.set slot v = .ok b') : b'.Known n := by
  unfold Statics.set at hb
  split at hb
  · cases hb
    refine forall_mem_setIfInBounds h fun w hw => ?_
    cases hw
    exact hv
  · cases hb

end Elements

namespace Store.Known

variable {n : Nat} {s : Store} {v : Value}

theorem readElement (h : s.Known n) {container index : Value}
    (hv : s.readElement container index = .ok v) : v.Known n := by
  unfold Store.readElement at hv
  split at hv
  · split at hv
    · cases hv
      exact getElem?_known (h.array _) _
    · cases hv
  · split at hv
    · cases hv
      exact getEntry_known (h.map _) _
    · cases hv
  · split at hv
    · cases hv
      have hchar (o : Option Char) : (o.elim Value.void fun c => .string c.toString).Known n := by
        cases o <;> trivial
      exact hchar _
    · cases hv
  · cases hv

theorem writeElement (h : s.Known n) {container index : Value} {s' : Store} (hv : v.Known n)
    (hs : s.writeElement container index v = .ok s') : s'.Known n := by
  unfold Store.writeElement at hs
  split at hs
  · split at hs
    · obtain ⟨items, hi, hs⟩ := exceptBind_eq_ok hs
      cases hs
      exact h.setArray _ fun _ _ => storeElement_known (h.array _) hv hi
    · cases hs
  · split at hs
    · cases hs
      exact h.setMap _ fun _ ht => ht.insert hv
    · cases hs
  · cases hs

theorem instanceCopy (h : s.Known n) {a : Attribute} (ha : a.value.Known n) :
    (s.instanceCopy a).1.value.Known n ∧ (s.instanceCopy a).2.Known n := by
  unfold Store.instanceCopy
  split
  · exact ⟨trivial, h.newArray (h.array _)⟩
  · exact ⟨trivial, h.newMap (h.map _)⟩
  · exact ⟨ha, h⟩

theorem copyInit (h : s.Known n) {into : Attributes} {l : List (String × Attribute)}
    (hinto : Attributes.Known n into) (hl : ∀ e ∈ l, e.2.value.Known n) :
    Attributes.Known n (s.copyInit into l).1 ∧ (s.copyInit into l).2.Known n := by
  induction l generalizing s into with
  | nil => exact ⟨hinto, h⟩
  | cons e l ih =>
    rw [List.forall_mem_cons] at hl
    unfold Store.copyInit
    split
    · obtain ⟨ha, hs⟩ := h.instanceCopy hl.1
      exact ih hs (Table.All.insert hinto ha) hl.2
    · exact ih h hinto hl.2

theorem instanceDeclarations (h : s.Known n) (t : TypeId) :
    ∀ e ∈ s.instanceDeclarations t, e.2.value.Known n := by
  intro e he
  obtain ⟨u, -, he⟩ := List.mem_flatMap.1 he
  rcases List.mem_append.1 he with he | he
  · obtain ⟨snapshot, hmem, he⟩ := List.mem_flatMap.1 he
    exact Table.All.of_mem ((h.type u).2 snapshot hmem) he
  · exact Table.All.of_mem (h.type u).1 he

theorem instantiate (h : s.Known n) {t : TypeId} (ht : t.index < n) :
    (s.instantiate t).2.Known n := by
  obtain ⟨has, hs⟩ := h.copyInit .empty (h.instanceDeclarations t)
  exact hs.newObject ⟨ht, has⟩

theorem makeException (h : s.Known n) (kind message : String) (line : Option Nat) :
    (s.makeException kind message line).1.Known n ∧
      (s.makeException kind message line).2.Known n := by
  have hs := h.instantiate (h.builtin .exception)
  unfold Store.makeException
  generalize s.instantiate Builtin.exception.id = r at hs ⊢
  obtain ⟨id, s₁⟩ := r
  dsimp only at hs ⊢
  refine ⟨trivial, hs.setObject id fun as has => ?_⟩
  refine ((Table.All.insert has ?_).insert ?_).insert ?_
  · trivial
  · trivial
  · cases line <;> trivial

theorem strings (h : s.Known n) (names : List String) :
    (Method.strings s names).1.Known n ∧ (Method.strings s names).2.Known n := by
  refine ⟨trivial, h.newArray fun w hw => ?_⟩
  obtain ⟨name, -, rfl⟩ := List.mem_map.1 (List.mem_toArray.1 hw)
  trivial

theorem breakReferences (h : s.Known n) (w : Value) : (s.breakReferences w).2.Known n := by
  cases w with
  | array id => exact h.setArray id fun _ _ => Array.forall_mem_empty _
  | map id => exact h.setMap id fun _ _ => .empty
  | object id => exact h.setObject id fun _ _ => .empty
  | function id =>
    have hclear : (s.staticsCell (s.function id).closure.statics).clear.Known n :=
      Array.forall_mem_map.2 fun _ _ _ hv => nomatch hv
    exact (h.setFunction id fun _ _ => .empty).setStatics _ hclear
  | type id => exact h.modifyType id.index (fun _ => rfl) fun _ _ => ⟨.empty, nofun⟩
  | trait id => exact h.setTrait id fun _ _ => .empty
  | _ => exact h

theorem base (h : s.Known n) (t : TypeId) : ((s.type t).base.elim Value.void .type).Known n := by
  cases hb : (s.type t).base with
  | none => trivial
  | some b =>
    obtain ⟨hlt, ht⟩ := h.base_older hb
    exact Nat.lt_trans hlt ht

/-- A method gives a type as that of its receiver, as a base, or out of a cell. -/
theorem apply (h : s.Known n) {m : Method} {this : Value} {args : List Value} {r : Value × Store}
    (hthis : this.Known n) (hargs : ∀ w ∈ args, w.Known n) (hr : m.apply s this args = .ok r) :
    r.1.Known n ∧ r.2.Known n := by
  have arg (i : Nat) : (args[i]?.getD .void).Known n :=
    getD_of_forall (fun w hw => hargs w (List.mem_of_getElem? hw)) trivial
  cases m with
  | getType =>
    cases hr
    exact ⟨h.typeOf this, h⟩
  | toString =>
    cases hr
    exact ⟨trivial, h⟩
  | isA | stringLength =>
    simp only [Method.apply] at hr
    split at hr
    · cases hr
      exact ⟨trivial, h⟩
    · cases hr
  | getMessage =>
    simp only [Method.apply] at hr
    split at hr
    · rename_i id
      cases hr
      refine ⟨?_, h⟩
      cases ha : (s.object id).attributes.get? "message" with
      | none => trivial
      | some a => exact (h.object id).2 _ a ha
    · cases hr
  | exceptionConstructor =>
    simp only [Method.apply] at hr
    split at hr
    · rename_i id message _
      cases hr
      have htext : (Value.string (s.text message)).Known n := trivial
      exact ⟨trivial, getD_of_forall (fun _ hs => h.assignOwn htext hs) h⟩
    · cases hr
      exact ⟨trivial, h⟩
  | getBaseType =>
    obtain ⟨t, -, hr⟩ := exceptBind_eq_ok hr
    cases hr
    exact ⟨h.base t, h⟩
  | getTraits | mapKeys =>
    obtain ⟨_, -, hr⟩ := exceptBind_eq_ok hr
    cases hr
    exact h.strings _
  | getName | arraySize | mapSize | getParamCount | getMinParamCount | getLine =>
    obtain ⟨_, -, hr⟩ := exceptBind_eq_ok hr
    cases hr
    exact ⟨trivial, h⟩
  | getMaxParamCount =>
    obtain ⟨a, -, hr⟩ := exceptBind_eq_ok hr
    cases hr
    refine ⟨?_, h⟩
    cases a.bound? <;> trivial
  | getMultiParam =>
    obtain ⟨a, -, hr⟩ := exceptBind_eq_ok hr
    cases hr
    refine ⟨?_, h⟩
    cases a.variadic <;> trivial
  | clone =>
    obtain ⟨id, -, hr⟩ := exceptBind_eq_ok hr
    cases hr
    exact ⟨trivial, h.newFunction (h.function id)⟩
  | arrayPush =>
    obtain ⟨id, -, hr⟩ := exceptBind_eq_ok hr
    cases hr
    refine ⟨hthis, h.setArray id fun items hi => Array.forall_mem_append.2 ⟨hi, fun w hw => ?_⟩⟩
    exact hargs w (List.mem_toArray.1 hw)
  | arrayPop =>
    obtain ⟨id, -, hr⟩ := exceptBind_eq_ok hr
    cases hr
    refine ⟨getD_of_forall (fun w hw => ?_) trivial, h.setArray id fun items hi w hw => ?_⟩
    · exact h.array id w (Array.mem_of_back? hw)
    · rw [Array.mem_def, Array.toList_pop] at hw
      exact hi w (Array.mem_def.2 (List.dropLast_subset _ hw))
  | arrayGet =>
    obtain ⟨i, -, hr⟩ := exceptBind_eq_ok hr
    obtain ⟨id, -, hr⟩ := exceptBind_eq_ok hr
    cases hr
    exact ⟨getElem?_known (h.array id) (some i), h⟩
  | mapGet =>
    obtain ⟨key, -, hr⟩ := exceptBind_eq_ok hr
    obtain ⟨id, -, hr⟩ := exceptBind_eq_ok hr
    cases hr
    exact ⟨getEntry_known (h.map id) key, h⟩
  | mapSet =>
    obtain ⟨key, -, hr⟩ := exceptBind_eq_ok hr
    obtain ⟨id, -, hr⟩ := exceptBind_eq_ok hr
    cases hr
    exact ⟨hthis, h.setMap id fun _ ht => ht.insert (arg 1)⟩
  | mapContains =>
    obtain ⟨key, -, hr⟩ := exceptBind_eq_ok hr
    obtain ⟨id, -, hr⟩ := exceptBind_eq_ok hr
    cases hr
    exact ⟨trivial, h⟩
  | arraySet =>
    obtain ⟨i, -, hr⟩ := exceptBind_eq_ok hr
    obtain ⟨id, -, hr⟩ := exceptBind_eq_ok hr
    obtain ⟨items, hi, hr⟩ := exceptBind_eq_ok hr
    cases hr
    exact ⟨hthis, h.setArray id fun _ _ => storeElement_known (h.array id) (arg 1) hi⟩

end Store.Known

end ScriptMachine
