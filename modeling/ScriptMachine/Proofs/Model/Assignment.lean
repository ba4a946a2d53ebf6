import ScriptMachine.Proofs.Model.Causes
import ScriptMachine.Proofs.Model.Chain

namespace ScriptMachine

section Cells

variable {α : Type} {xs : Array α} {i j : Nat} {d : α}

theorem getD_modify_self (f : α → α) (h : i < xs.size) :
    (xs.modify i f).getD i d = f (xs.getD i d) := by
  simp [h, Array.getElem_modify]

theorem getElem?_modify_of_ne (f : α → α) (h : i ≠ j) : (xs.modify i f)[j]? = xs[j]? := by
  rw [Array.getElem?_modify, if_neg h]

theorem Id.index_ne {k : CellKind} {a b : Id k} (h : a ≠ b) : a.index ≠ b.index := by
  intro hindex
  apply h
  cases a
  cases b
  cases hindex
  rfl

end Cells

namespace Store

variable {s s' : Store} {a : Access} {target v : Value} {name other : String} {t : TypeId}
  {r : Resolved}

theorem checkWrite_eq_ok (h : s.checkWrite a target name r = .ok ()) :
    s.checkRead a target name r = .ok () ∧ r.attr.flags.isConstant = false := by
  obtain ⟨⟨⟩, hread, h⟩ := exceptBind_eq_ok h
  refine ⟨hread, ?_⟩
  cases hc : r.attr.flags.isConstant with
  | false => rfl
  | true =>
    rw [hc] at h
    cases h

theorem checkWrite_of_constant (a : Access) (target : Value) (name : String)
    (hr : r.attr.flags.isConstant = true) :
    ∃ refusal, s.checkWrite a target name r = .error (.access name refusal) := by
  cases hread : s.checkRead a target name r with
  | ok _ =>
    refine ⟨.constant, ?_⟩
    rw [checkWrite, hread]
    exact if_pos hr
  | error c =>
    rw [checkWrite, hread]
    simp only [checkRead] at hread
    split at hread
    · cases hread
      exact ⟨_, rfl⟩
    · cases hread

/-- An assignment that is not refused writes one own attribute of its target, and what it replaces or
shadows may be written. -/
theorem set_eq_ok (h : s.set a target name v = .ok s') :
    (∀ r, s.assigned? target name = some r → s.checkWrite a target name r = .ok ()) ∧
      ∃ flags, s' = s.setOwn target (·.insert name ⟨v, flags⟩) := by
  unfold set at h
  split at h
  · split at h
    · rename_i r hr
      obtain ⟨⟨⟩, hwrite, h⟩ := exceptBind_eq_ok h
      refine ⟨fun r' hr' => ?_, ?_⟩
      · cases hr.symm.trans hr'
        exact hwrite
      · split at h
        · rename_i s'' hs
          cases h
          unfold assignOwn at hs
          simp only [Option.bind_eq_bind, Option.bind_eq_some_iff, pure, Option.some.injEq] at hs
          obtain ⟨_, _, b, _, rfl⟩ := hs
          exact ⟨b.flags, rfl⟩
        · cases h
          exact ⟨_, rfl⟩
    · rename_i hnone
      cases h
      exact ⟨fun r hr => (nomatch hnone.symm.trans hr), _, rfl⟩
  · cases h

theorem set_of_constant (a : Access) (v : Value) (htarget : hasOwn target = true)
    (hr : s.assigned? target name = some r) (hc : r.attr.flags.isConstant = true) :
    ∃ refusal, s.set a target name v = .error (.access name refusal) := by
  obtain ⟨refusal, hwrite⟩ := checkWrite_of_constant (s := s) a target name hc
  refine ⟨refusal, ?_⟩
  rw [set, if_pos htarget, hr]
  dsimp only
  rw [hwrite]
  rfl

theorem type_setOwn (s : Store) (target : Value) (g : Attributes → Attributes) (t : TypeId) :
    (s.setOwn target g).type t = s.type t ∨
      target = .type t ∧
        (s.setOwn target g).type t = { s.type t with attributes := g (s.type t).attributes } := by
  cases target with
  | type u =>
    simp only [setOwn, setType, type, Array.getD_eq_getD_getElem?, Array.getElem?_modify]
    split
    · rename_i hi
      have hu : u = t := by cases u; cases t; cases hi; rfl
      cases s.types[t.index]? with
      | none => exact .inl rfl
      | some c => exact .inr ⟨by rw [hu], rfl⟩
    · exact .inl rfl
  | _ => exact .inl rfl

theorem older_setOwn (s : Store) (target : Value) (g : Attributes → Attributes) (t : TypeId) :
    (s.setOwn target g).older? t = s.older? t := by
  rcases s.type_setOwn target g t with h | ⟨-, h⟩ <;> rw [older?, h] <;> rfl

theorem typeOf_object_setOwn (s : Store) (target : Value) (g : Attributes → Attributes)
    (id : ObjectId) : (s.setOwn target g).typeOf (.object id) = s.typeOf (.object id) := by
  cases target with
  | object j =>
    simp only [setOwn, setObject, typeOf, object, Array.getD_eq_getD_getElem?, Array.getElem?_modify]
    split
    · cases s.objects[id.index]? <;> rfl
    · rfl
  | _ => rfl

theorem resolveOwn_object_setOwn (s : Store) (target : Value) (name other : String) (b : Attribute)
    (id : ObjectId) (h : target = .object id → other ≠ name) :
    (s.setOwn target (·.insert name b)).resolveOwn (.object id) other =
      s.resolveOwn (.object id) other := by
  cases target with
  | object j =>
    simp only [setOwn, setObject, resolveOwn, ownAttributes?, object, Array.getD_eq_getD_getElem?,
      Array.getElem?_modify]
    split
    · rename_i hi
      have hj : j = id := by cases j; cases id; cases hi; rfl
      cases s.objects[id.index]? with
      | none => rfl
      | some o =>
        simp only [Option.map_some, Option.getD_some, Option.bind_some, Table.get?_insert,
          if_neg (h (by rw [hj]))]
    · rfl
  | _ => rfl

theorem find_insert_of_ne (c : TypeCell) (t : TypeId) (b : Attribute) (h : other ≠ name) :
    ({ c with attributes := c.attributes.insert name b } : TypeCell).find? t other =
      c.find? t other := by
  simp only [TypeCell.find?, Table.get?_insert, if_neg h]

theorem lookup_setOwn_of_ne (s : Store) (target : Value) (b : Attribute) (t : TypeId)
    (h : other ≠ name) :
    (s.setOwn target (·.insert name b)).lookup t other = s.lookup t other := by
  induction t using older_induction (s := s) with
  | step t ih =>
    rw [lookup_eq, lookup_eq s, older_setOwn]
    have hfind : ((s.setOwn target (·.insert name b)).type t).find? t other =
        (s.type t).find? t other := by
      rcases s.type_setOwn target (·.insert name b) t with htype | ⟨-, htype⟩
      · rw [htype]
      · rw [htype, find_insert_of_ne _ _ _ h]
    rw [hfind]
    congr 1
    cases hb : s.older? t with
    | none => rfl
    | some u => exact ih u hb

/-- A constant that a look-up finds, it finds again after a write that was not refused: the types
before it in the chain find the same constant, so that none of them was written. -/
theorem lookup_setOwn_of_constant {b : Attribute} (hr : s.lookup t name = some r)
    (hc : r.attr.flags.isConstant = true)
    (hwrite : ∀ u r', target = .type u → s.lookup u name = some r' →
      r'.attr.flags.isConstant = false) :
    (s.setOwn target (·.insert name b)).lookup t name = some r := by
  induction t using older_induction (s := s) with
  | step t ih =>
    rcases s.type_setOwn target (·.insert name b) t with htype | ⟨htarget, -⟩
    · rw [lookup_eq] at hr
      rw [lookup_eq, older_setOwn, htype]
      cases hfind : (s.type t).find? t name with
      | some r' =>
        rw [hfind] at hr
        exact hr
      | none =>
        rw [hfind, Option.none_or] at hr
        obtain ⟨u, hu, hlookup⟩ := Option.bind_eq_some_iff.1 hr
        rw [hu, Option.none_or]
        exact ih u hu hlookup
    · have hconst := hwrite t r htarget hr
      rw [hc] at hconst
      cases hconst

theorem resolve_of_set {id : ObjectId} (hr : s.resolve (.object id) name = some r)
    (hc : r.attr.flags.isConstant = true) (h : s.set a target other v = .ok s') :
    s'.resolve (.object id) name = some r := by
  obtain ⟨hwrite, flags, rfl⟩ := set_eq_ok h
  have hother : target = .object id → name ≠ other := by
    rintro rfl rfl
    obtain ⟨-, hconst⟩ := checkWrite_eq_ok (hwrite r hr)
    rw [hc] at hconst
    cases hconst
  rw [resolve, resolveOwn_object_setOwn _ _ _ _ _ _ hother, typeOf_object_setOwn]
  rw [resolve] at hr
  cases hown : s.resolveOwn (.object id) name with
  | some r' =>
    rw [hown] at hr
    exact hr
  | none =>
    rw [hown, Option.none_or] at hr
    rw [Option.none_or]
    by_cases hname : name = other
    · subst hname
      refine lookup_setOwn_of_constant hr hc fun u r' htarget hlookup => ?_
      subst htarget
      exact (checkWrite_eq_ok (hwrite r' hlookup)).2
    · rw [lookup_setOwn_of_ne _ _ _ _ hname]
      exact hr

end Store

/-- An assignment: who makes it, to which attribute of what, and the value. -/
structure Assignment where
  access : Access
  target : Value
  name : String
  value : Value

namespace Store

/-- The store after an assignment. One that is refused changes nothing. -/
def assign (s : Store) (a : Assignment) : Store :=
  match s.set a.access a.target a.name a.value with
  | .ok s' => s'
  | .error _ => s

def assignAll (s : Store) (as : List Assignment) : Store :=
  as.foldl assign s

theorem resolve_assign {s : Store} {id : ObjectId} {name : String} {r : Resolved}
    (hr : s.resolve (.object id) name = some r) (hc : r.attr.flags.isConstant = true)
    (a : Assignment) : (s.assign a).resolve (.object id) name = some r := by
  unfold assign
  split
  · rename_i s' h
    exact resolve_of_set hr hc h
  · exact hr

theorem resolve_assignAll {s : Store} {id : ObjectId} {name : String} {r : Resolved}
    (hr : s.resolve (.object id) name = some r) (hc : r.attr.flags.isConstant = true)
    (as : List Assignment) : (s.assignAll as).resolve (.object id) name = some r := by
  induction as generalizing s with
  | nil => exact hr
  | cons a as ih => exact ih (resolve_assign hr hc a)

end Store

/-- A constant of an object outlasts all assignments, to the object and to whatever else, and each
attempt to assign it is refused. -/
theorem constant_outlasts_assignments {s : Store} {id : ObjectId} {name : String} {r : Resolved}
    (hr : s.resolve (.object id) name = some r) (hc : r.attr.flags.isConstant = true)
    (as : List Assignment) :
    (∀ before access v after, as = before ++ ⟨access, .object id, name, v⟩ :: after →
      ∃ refusal, (s.assignAll before).set access (.object id) name v =
        .error (.access name refusal)) ∧
    (s.assignAll as).resolve (.object id) name = some r := by
  refine ⟨fun before access v after _ => ?_, Store.resolve_assignAll hr hc as⟩
  exact Store.set_of_constant access v rfl (Store.resolve_assignAll hr hc before) hc

/-- An object of a type whose base has a constant from a trait. -/
def withLimit : Store where
  types :=
    #[{ name := "Object", base := none },
      { name := "Account", base := some ⟨0⟩,
        traits := [⟨"Limited", .ofList [("limit", ⟨.bool true, { isConstant := true }⟩)]⟩] },
      { name := "Savings", base := some ⟨1⟩ }]
  objects := #[⟨⟨2⟩, .empty⟩]

theorem constant_outlasts_assignments_limit :
    withLimit.resolve (.object ⟨0⟩) "limit" =
      some ⟨⟨.bool true, { isConstant := true }⟩, .trait ⟨1⟩ "Limited"⟩ ∧
    (∃ refusal, withLimit.set .host (.object ⟨0⟩) "limit" .void = .error (.access "limit" refusal)) ∧
    (withLimit.assignAll [⟨.host, .object ⟨0⟩, "limit", .void⟩, ⟨.host, .type ⟨2⟩, "limit", .void⟩,
      ⟨.within (.type ⟨1⟩), .type ⟨1⟩, "limit", .void⟩, ⟨.host, .type ⟨0⟩, "limit", .void⟩]).resolve
        (.object ⟨0⟩) "limit" =
      some ⟨⟨.bool true, { isConstant := true }⟩, .trait ⟨1⟩ "Limited"⟩ := by
  have hr : withLimit.resolve (.object ⟨0⟩) "limit" =
      some ⟨⟨.bool true, { isConstant := true }⟩, .trait ⟨1⟩ "Limited"⟩ := by
    have hchain : withLimit.chain ⟨2⟩ = [⟨2⟩, ⟨1⟩, ⟨0⟩] := by decide +kernel
    change (withLimit.chain ⟨2⟩).findSome? _ = _
    rw [hchain]
    rfl
  have h := constant_outlasts_assignments hr rfl
    [⟨.host, .object ⟨0⟩, "limit", .void⟩, ⟨.host, .type ⟨2⟩, "limit", .void⟩,
      ⟨.within (.type ⟨1⟩), .type ⟨1⟩, "limit", .void⟩, ⟨.host, .type ⟨0⟩, "limit", .void⟩]
  exact ⟨hr, h.1 [] .host .void _ rfl, h.2⟩

end ScriptMachine
