import ScriptMachine.Engine.Host
import ScriptMachine.Proofs.Model.Assignment
import ScriptMachine.Proofs.Model.Growth
import ScriptMachine.Proofs.Model.Privacy

namespace ScriptMachine

namespace Store

variable {s : Store} {target v w : Value} {name other : String} {access : Access} {r : Resolved}
  {a : Attribute} {t : TypeId}

/-- The own attributes of a value; none for a value that has no room for any. -/
def own (s : Store) (target : Value) : Attributes :=
  (s.ownAttributes? target).getD .empty

/-- The flags of an attribute after it was assigned. -/
def assignedFlags (s : Store) (target : Value) (name : String) : Flags :=
  match (s.own target).get? name with
  | some a => a.flags
  | none => ((s.assigned? target name).map (·.attr.flags.settled)).getD {}

/-- The store after an assignment. -/
def written (s : Store) (target : Value) (name : String) (v : Value) : Store :=
  s.setOwn target (·.insert name ⟨v, s.assignedFlags target name⟩)

/-- Whether an assignment is admitted. -/
def checkAssign (s : Store) (access : Access) (target : Value) (name : String) :
    Except Cause Unit :=
  match s.assigned? target name with
  | some r => s.checkWrite access target name r
  | none => .ok ()

theorem resolve_eq (h : ∀ t, target ≠ .type t) :
    s.resolve target name =
      (((s.own target).get? name).map fun a => ⟨a, .own⟩).or (s.lookup (s.typeOf target) name) := by
  cases target with
  | type t => exact absurd rfl (h t)
  | _ => rfl

theorem lookup_of_own (h : (s.own (.type t)).get? name = some a) :
    s.lookup t name = some ⟨a, .type t⟩ := by
  have hget : (s.type t).attributes.get? name = some a := h
  rw [lookup_eq, TypeCell.find?, hget]
  rfl

theorem assigned?_of_own (h : (s.own target).get? name = some a) :
    ∃ origin, s.assigned? target name = some ⟨a, origin⟩ := by
  cases target with
  | type t => exact ⟨.type t, lookup_of_own h⟩
  | trait id =>
    refine ⟨.own, ?_⟩
    change ((s.own (.trait id)).get? name).map _ = _
    rw [h]
    rfl
  | _ =>
    refine ⟨.own, ?_⟩
    change s.resolve _ name = _
    rw [resolve_eq (by simp), h]
    rfl

theorem ownAttributes?_eq (h : hasOwn target = true) :
    s.ownAttributes? target = some (s.own target) := by
  cases target with
  | object id => rfl
  | function id => rfl
  | type id => rfl
  | trait id => rfl
  | _ => cases h

theorem assignOwn_eq (h : hasOwn target = true) :
    s.assignOwn target name v = ((s.own target).get? name).map fun a =>
      s.setOwn target (·.insert name { a with value := v }) := by
  rw [assignOwn, ownAttributes?_eq h]
  cases hget : (s.own target).get? name <;> simp [hget]

/-- An assignment is refused or writes one attribute, with the flags that it has by then. -/
theorem set_eq (h : hasOwn target = true) :
    s.set access target name v =
      (s.checkAssign access target name).map fun _ => s.written target name v := by
  rw [set, if_pos h, checkAssign, written, assignedFlags]
  cases hr : s.assigned? target name with
  | none =>
    have hown : (s.own target).get? name = none := by
      rw [Option.eq_none_iff_forall_ne_some]
      intro a ha
      obtain ⟨origin, horigin⟩ := assigned?_of_own ha
      rw [hr] at horigin
      cases horigin
    rw [hown]
    rfl
  | some r =>
    dsimp only
    rw [assignOwn_eq h]
    cases s.checkWrite access target name r with
    | error c => rfl
    | ok _ => cases (s.own target).get? name <;> rfl

theorem set_eq_ok_iff {s' : Store} (h : hasOwn target = true) :
    s.set access target name v = .ok s' ↔
      s.checkAssign access target name = .ok () ∧ s' = s.written target name v := by
  rw [set_eq h]
  cases s.checkAssign access target name with
  | error c => simp [Except.map]
  | ok _ => simp [Except.map, eq_comm]

theorem assignedFlags_of_some (hr : s.assigned? target name = some r) :
    (s.assignedFlags target name).isPrivate = r.attr.flags.isPrivate ∧
      (s.assignedFlags target name).isConstant = r.attr.flags.isConstant := by
  rw [assignedFlags]
  cases hown : (s.own target).get? name with
  | some a =>
    obtain ⟨origin, horigin⟩ := assigned?_of_own hown
    rw [hr] at horigin
    cases horigin
    exact ⟨rfl, rfl⟩
  | none =>
    rw [hr]
    exact ⟨rfl, rfl⟩

theorem assignedFlags_of_none (hr : s.assigned? target name = none) :
    s.assignedFlags target name = {} := by
  rw [assignedFlags]
  cases hown : (s.own target).get? name with
  | some a =>
    obtain ⟨origin, horigin⟩ := assigned?_of_own hown
    rw [hr] at horigin
    cases horigin
  | none =>
    rw [hr]
    rfl

theorem assigned_of_private (h : (s.assignedFlags target name).isPrivate = true) :
    ∃ r, s.assigned? target name = some r ∧ r.attr.flags.isPrivate = true := by
  cases hr : s.assigned? target name with
  | some r =>
    rw [(assignedFlags_of_some hr).1] at h
    exact ⟨r, rfl, h⟩
  | none =>
    rw [assignedFlags_of_none hr] at h
    cases h

theorem checkWrite_of_checkAssign (h : s.checkAssign access target name = .ok ())
    (hr : s.assigned? target name = some r) : s.checkWrite access target name r = .ok () := by
  rw [checkAssign, hr] at h
  exact h

theorem assignedFlags_isConstant (h : s.checkAssign access target name = .ok ()) :
    (s.assignedFlags target name).isConstant = false := by
  cases hr : s.assigned? target name with
  | some r =>
    rw [(assignedFlags_of_some hr).2]
    exact (checkWrite_eq_ok (checkWrite_of_checkAssign h hr)).2
  | none => rw [assignedFlags_of_none hr]

/-- The store has the value, and the value has attributes of its own. -/
def Owns (s : Store) : Value → Prop
  | .object id => id.index < s.objects.size
  | .function id => id.index < s.functions.size
  | .type id => id.index < s.types.size
  | .trait id => id.index < s.traits.size
  | _ => False

theorem hasOwn_of_owns (h : s.Owns target) : hasOwn target = true := by
  cases target with
  | object id => rfl
  | function id => rfl
  | type id => rfl
  | trait id => rfl
  | _ => cases h

theorem own_setOwn (h : s.Owns target) (f : Attributes → Attributes) :
    (s.setOwn target f).own target = f (s.own target) := by
  cases target with
  | object id => exact congrArg Object.attributes (getD_modify_self _ h)
  | function id => exact congrArg Function.attributes (getD_modify_self _ h)
  | type id => exact congrArg TypeCell.attributes (getD_modify_self _ h)
  | trait id => exact congrArg Trait.attributes (getD_modify_self _ h)
  | _ => cases h

theorem get?_own_written (h : s.Owns target) :
    ((s.written target name v).own target).get? other =
      if other = name then some ⟨v, s.assignedFlags target name⟩
      else (s.own target).get? other := by
  rw [written, own_setOwn h, Table.get?_insert]

theorem typeOf_setOwn (f : Attributes → Attributes) (w : Value) :
    (s.setOwn target f).typeOf w = s.typeOf w := by
  cases w with
  | object id => exact s.typeOf_object_setOwn target f id
  | hosted id => cases target <;> rfl
  | _ => rfl

theorem types_setOwn (h : ∀ t, target ≠ .type t) (f : Attributes → Attributes) :
    (s.setOwn target f).types = s.types := by
  cases target with
  | type t => exact absurd rfl (h t)
  | _ => rfl

section Types

variable {s' : Store}

theorem selfType_congr (h : ∀ v, s'.typeOf v = s.typeOf v) (self : Value) :
    s'.selfType self = s.selfType self := by
  unfold selfType
  split
  · rfl
  · exact h _

theorem mayAccess_congr (htypes : s'.types = s.types) (htypeOf : ∀ v, s'.typeOf v = s.typeOf v) :
    s'.mayAccess access t = s.mayAccess access t := by
  have htype (u : TypeId) : s'.type u = s.type u := by rw [type, htypes, type]
  cases access with
  | host => rfl
  | within self => simp only [mayAccess, actsFor?, selfType_congr htypeOf]
  | running self f =>
    simp only [mayAccess, actsFor?, methodOwner?, selfType_congr htypeOf, htype,
      chain_congr fun u _ => htype u]

end Types

theorem mayAccess_of_checkRead (h : s.checkRead access target name r = .ok ())
    (hp : r.attr.flags.isPrivate = true) :
    s.mayAccess access (s.definingType target name r) = true := by
  by_contra hno
  rw [checkRead_of_private hp (Bool.not_eq_true _ ▸ hno)] at h
  cases h

/-- The type to which a name belongs in a search from `t`. -/
def ownerOf (s : Store) (t : TypeId) (name : String) : TypeId :=
  ((s.lookup t name).bind (originType? ·.origin)).getD t

/-- Wherever a value other than a type finds an attribute, the attribute belongs to the type that
declares the name. -/
theorem definingType_eq (h : ∀ t, target ≠ .type t) (hr : s.resolve target name = some r) :
    s.definingType target name r = s.ownerOf (s.typeOf target) name := by
  rw [resolve_eq h] at hr
  cases hown : (s.own target).get? name with
  | some a =>
    rw [hown] at hr
    cases hr
    cases target with
    | type t => exact absurd rfl (h t)
    | _ => rfl
  | none =>
    rw [hown, Option.map_none, Option.none_or] at hr
    obtain ⟨u, hu⟩ := exists_originType hr
    simp [definingType, ownerOf, hr, hu]

theorem resolve_of_assigned (h : ∀ t, target ≠ .type t) (hr : s.assigned? target name = some r) :
    s.resolve target name = some r := by
  cases target with
  | type t => exact absurd rfl (h t)
  | trait id =>
    rw [resolve_eq h]
    change (((s.own (.trait id)).get? name).map _) = _ at hr
    rw [hr]
    rfl
  | _ => exact hr

theorem lookup_written (h : ∀ t, target ≠ .type t) :
    (s.written target name v).lookup t other = s.lookup t other := by
  apply lookup_congr
  intro u _
  rw [type, written, types_setOwn h, type]

theorem resolve_written_of_ne (h : ∀ t, target ≠ .type t) (howns : s.Owns target)
    (hne : other ≠ name) : (s.written target name v).resolve target other = s.resolve target other := by
  rw [resolve_eq h, resolve_eq h, get?_own_written howns, if_neg hne, lookup_written h, written,
    typeOf_setOwn]

/-- The right to write is the right to read what was written: the attribute belongs to the same type
before and after, whether it was its own before or is so now. -/
theorem find_written (h : ∀ t, target ≠ .type t) (howns : s.Owns target)
    (hcheck : s.checkAssign access target name = .ok ()) :
    (s.written target name v).find access target name = .ok v := by
  have hresolve : (s.written target name v).resolve target name =
      some ⟨⟨v, s.assignedFlags target name⟩, .own⟩ := by
    rw [resolve_eq h, get?_own_written howns, if_pos rfl]
    rfl
  have howner : (s.written target name v).ownerOf ((s.written target name v).typeOf target) name =
      s.ownerOf (s.typeOf target) name := by
    rw [ownerOf, ownerOf, lookup_written h, written, typeOf_setOwn]
  have hread : (s.written target name v).checkRead access target name
      ⟨⟨v, s.assignedFlags target name⟩, .own⟩ = .ok () := by
    apply checkRead_of_mayAccess
    intro hp
    obtain ⟨r, hr, hprivate⟩ := assigned_of_private hp
    have hmay := mayAccess_of_checkRead
      (checkWrite_eq_ok (checkWrite_of_checkAssign hcheck hr)).1 hprivate
    rw [definingType_eq h (resolve_of_assigned h hr)] at hmay
    rw [definingType_eq h hresolve, howner, written,
      mayAccess_congr (types_setOwn h _) (typeOf_setOwn _)]
    exact hmay
  rw [find, hresolve]
  dsimp only
  rw [hread]
  rfl

/-- An object or a function of the store. -/
inductive Extensible (s : Store) : Value → Prop
  | object {id : ObjectId} (h : id.index < s.objects.size) : s.Extensible (.object id)
  | function {id : FunctionId} (h : id.index < s.functions.size) : s.Extensible (.function id)

theorem Extensible.owns (h : s.Extensible target) : s.Owns target := by
  cases h with
  | object h => exact h
  | function h => exact h

theorem Extensible.ne_type (h : s.Extensible target) (t : TypeId) : target ≠ .type t := by
  cases h with
  | object h => simp
  | function h => simp

theorem Extensible.assigned?_eq (h : s.Extensible target) :
    s.assigned? target name = s.resolve target name := by
  cases h with
  | object h => rfl
  | function h => rfl

/-- The stores differ in the own attributes of an object or a function at most. -/
structure SameBut (s s' : Store) (target : Value) : Prop where
  tables : s' = { s with objects := s'.objects, functions := s'.functions }
  objects : ∀ id : ObjectId, target ≠ .object id → s'.objects[id.index]? = s.objects[id.index]?
  functions : ∀ id : FunctionId, target ≠ .function id →
    s'.functions[id.index]? = s.functions[id.index]?
  type : s'.typeOf target = s.typeOf target
  closure : ∀ id, target = .function id → (s'.function id).closure = (s.function id).closure

theorem Extensible.sameBut_setOwn (h : s.Extensible target) (f : Attributes → Attributes) :
    s.SameBut (s.setOwn target f) target := by
  cases h with
  | @object id h =>
    refine ⟨rfl, fun j hj => ?_, fun _ _ => rfl, typeOf_setOwn f _, fun _ _ => rfl⟩
    apply getElem?_modify_of_ne
    apply Id.index_ne
    rintro rfl
    exact hj rfl
  | @function id h =>
    refine ⟨rfl, fun _ _ => rfl, fun j hj => ?_, typeOf_setOwn f _, ?_⟩
    · apply getElem?_modify_of_ne
      apply Id.index_ne
      rintro rfl
      exact hj rfl
    · rintro _ ⟨⟩
      exact (s.kept_setFunction id f).closure_eq id

/-- What an assignment to an object or a function, made between `s` and `s'`, comes to. -/
structure Assigned (s : Store) (access : Access) (target : Value) (name : String) (v : Value)
    (s' : Store) : Prop where
  /-- Who made it reads the value, tied to the target. -/
  readBack : s'.get access target name = .ok (s'.bind target v)
  others : ∀ other, other ≠ name → s'.resolve target other = s.resolve target other
  /-- The name has the place that it had, or else the last one. -/
  names : (s'.own target).names =
    if name ∈ (s.own target).names then (s.own target).names else (s.own target).names ++ [name]
  replaced : ∀ a, (s.own target).get? name = some a →
    (s'.own target).get? name = some ⟨v, a.flags⟩
  shadowed : (s.own target).get? name = none → ∀ r, s.resolve target name = some r →
    (s'.own target).get? name = some ⟨v, { r.attr.flags with isInit := false }⟩
  created : s.resolve target name = none → (s'.own target).get? name = some ⟨v, {}⟩
  rest : s.SameBut s' target

theorem Extensible.assigned (h : s.Extensible target)
    (hcheck : s.checkAssign access target name = .ok ()) :
    s.Assigned access target name v (s.written target name v) := by
  have hget : ((s.written target name v).own target).get? name =
      some ⟨v, s.assignedFlags target name⟩ := by
    rw [get?_own_written h.owns, if_pos rfl]
  rw [assignedFlags, h.assigned?_eq] at hget
  refine ⟨?_, fun other hne => resolve_written_of_ne h.ne_type h.owns hne, ?_, fun a ha => ?_,
    fun hnone r hr => ?_, fun hnone => ?_, h.sameBut_setOwn _⟩
  · rw [get, find_written h.ne_type h.owns hcheck]
    rfl
  · rw [written, own_setOwn h.owns, Table.names_insert]
  · rw [ha] at hget
    exact hget
  · rw [hnone, hr] at hget
    exact hget
  · have hown : (s.own target).get? name = none := by
      rw [resolve_eq h.ne_type, Option.or_eq_none_iff, Option.map_eq_none_iff] at hnone
      exact hnone.1
    rw [hown, hnone] at hget
    exact hget

end Store

/-- Assignment and reading, for every object and every function: what was assigned is read back by
whoever assigned it, under the flags that go with the name, and nothing else has changed; a refused
assignment has changed nothing at all. -/
theorem assignment_read_back {m : Machine} {target : Value} (h : m.store.Extensible target)
    (access : Access) (name : String) (v : Value) :
    (∀ s', m.store.set access target name v = .ok s' →
      HostM.setAttribute access target name v m = .ok () { m with store := s' } ∧
        m.store.Assigned access target name v s') ∧
    ∀ c, m.store.set access target name v = .error c →
      HostM.setAttribute access target name v m =
        .error (.failed { fault := { cause := c } }) m := by
  have hhost : HostM.setAttribute access target name v m =
      (HostM.ofExcept (m.store.set access target name v) >>= fun store =>
        modify fun m => { m with store }) m := rfl
  refine ⟨fun s' hset => ?_, fun c hset => ?_⟩
  · obtain ⟨hcheck, rfl⟩ := (Store.set_eq_ok_iff (Store.hasOwn_of_owns h.owns)).1 hset
    rw [hhost, hset]
    exact ⟨rfl, h.assigned hcheck⟩
  · rw [hhost, hset]
    rfl

/-- A method of the base assigns its private attribute on an object of the derived type, and the host
is refused. -/
theorem assignment_read_back_secret :
    (∃ s', (withSecret []).set (.running (.object ⟨0⟩) ⟨0⟩) (.object ⟨0⟩) "secret" .void = .ok s' ∧
      s'.get (.running (.object ⟨0⟩) ⟨0⟩) (.object ⟨0⟩) "secret" =
        .ok (s'.bind (.object ⟨0⟩) .void) ∧
      (s'.own (.object ⟨0⟩)).get? "secret" = some ⟨.void, { isPrivate := true }⟩) ∧
    ∃ failure, HostM.setAttribute .host (.object ⟨0⟩) "secret" .void { store := withSecret [] } =
      .error (.failed failure) { store := withSecret [] } := by
  have hextensible : (withSecret []).Extensible (.object ⟨0⟩) := .object (by decide)
  have hr : (withSecret []).resolve (.object ⟨0⟩) "secret" =
      some ⟨⟨.bool true, { isPrivate := true }⟩, .type ⟨1⟩⟩ := by
    have hchain : (withSecret []).chain ⟨2⟩ = [⟨2⟩, ⟨1⟩, ⟨0⟩] := by decide +kernel
    change ((withSecret []).chain ⟨2⟩).findSome? _ = _
    rw [hchain]
    rfl
  have hok : ((withSecret []).set (.running (.object ⟨0⟩) ⟨0⟩) (.object ⟨0⟩) "secret" .void).isOk =
      true := by
    decide +kernel
  refine ⟨?_, ?_⟩
  · cases hset : (withSecret []).set (.running (.object ⟨0⟩) ⟨0⟩) (.object ⟨0⟩) "secret" .void with
    | error c =>
      rw [hset] at hok
      cases hok
    | ok s' =>
      obtain ⟨-, hassigned⟩ := (assignment_read_back (m := { store := withSecret [] }) hextensible
        (.running (.object ⟨0⟩) ⟨0⟩) "secret" .void).1 s' hset
      exact ⟨s', rfl, hassigned.readBack, hassigned.shadowed rfl _ hr⟩
  · obtain ⟨c, hset⟩ : ∃ c, (withSecret []).set .host (.object ⟨0⟩) "secret" .void = .error c :=
      ⟨_, Store.set_of_private hr rfl rfl Store.not_mayAccess_host⟩
    exact ⟨_, (assignment_read_back (m := { store := withSecret [] }) hextensible .host "secret"
      .void).2 c hset⟩

end ScriptMachine
