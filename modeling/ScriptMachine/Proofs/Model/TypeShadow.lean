import ScriptMachine.Proofs.Model.ReadBack

namespace ScriptMachine

namespace Store

variable {s : Store} {self target v w : Value} {name : String} {access : Access} {t : TypeId}
  {r : Resolved}

/-- A search from the type ends at a private attribute of one of its bases. -/
def PrivateInBase (s : Store) (t : TypeId) (name : String) : Prop :=
  ∃ r, s.lookup t name = some r ∧ r.attr.flags.isPrivate = true ∧ originType? r.origin ≠ some t

/-- What a type has after an assignment. -/
def asType (s : Store) (t : TypeId) (name : String) (v : Value) : Resolved :=
  ⟨⟨v, s.assignedFlags (.type t) name⟩, .type t⟩

theorem lookup_written_type (ht : t.index < s.types.size) :
    (s.written (.type t) name v).lookup t name = some (s.asType t name v) := by
  have howns : s.Owns (.type t) := ht
  apply lookup_of_own
  rw [get?_own_written howns, if_pos rfl]

theorem resolve_written_type (ht : t.index < s.types.size) :
    (s.written (.type t) name v).resolve (.type t) name = some (s.asType t name v) := by
  rw [resolve]
  change ((s.written (.type t) name v).lookup t name).or _ = _
  rw [lookup_written_type ht]
  rfl

theorem assigned?_written_type (ht : t.index < s.types.size) :
    (s.written (.type t) name v).assigned? (.type t) name = some (s.asType t name v) :=
  lookup_written_type ht

theorem typeName_written (u : TypeId) : (s.written target name v).typeName u = s.typeName u := by
  rw [written]
  rcases s.type_setOwn target (·.insert name ⟨v, s.assignedFlags target name⟩) u with h | ⟨-, h⟩
  · rw [typeName, h, typeName]
  · rw [typeName, h, typeName]

theorem mayAccess_within_iff : s.mayAccess (.within self) t = true ↔ s.selfType self = t := by
  simp [mayAccess, actsFor?]

theorem mayAccess_within_written :
    (s.written target name v).mayAccess (.within self) t = s.mayAccess (.within self) t := by
  simp only [mayAccess, actsFor?, written, selfType_congr (typeOf_setOwn _)]

theorem definingType_of_origin {u : TypeId} (h : originType? r.origin = some u) :
    s.definingType target name r = u := by
  simp [definingType, h]

/-- Whoever could write and is a method of the type itself keeps the right. -/
theorem mayAccess_of_not_privateInBase (hcheck : s.checkAssign access (.type t) name = .ok ())
    (hbase : ¬ s.PrivateInBase t name)
    (hp : (s.assignedFlags (.type t) name).isPrivate = true) : s.mayAccess access t = true := by
  obtain ⟨r, hr, hprivate⟩ := assigned_of_private hp
  have hmay := mayAccess_of_checkRead
    (checkWrite_eq_ok (checkWrite_of_checkAssign hcheck hr)).1 hprivate
  have horigin : originType? r.origin = some t := by
    by_contra hne
    exact hbase ⟨r, hr, hprivate, hne⟩
  rw [definingType_of_origin horigin] at hmay
  exact hmay

/-- A method of the base could write, and is no method of the type. -/
theorem not_mayAccess_of_privateInBase (hcheck : s.checkAssign (.within self) (.type t) name = .ok ())
    (hbase : s.PrivateInBase t name) :
    (s.assignedFlags (.type t) name).isPrivate = true ∧
      s.mayAccess (.within self) t = false := by
  obtain ⟨r, hr, hprivate, horigin⟩ := hbase
  have hassigned : s.assigned? (.type t) name = some r := hr
  refine ⟨(assignedFlags_of_some hassigned).1.trans hprivate, ?_⟩
  obtain ⟨u, hu⟩ := exists_originType hr
  have hmay := mayAccess_of_checkRead
    (checkWrite_eq_ok (checkWrite_of_checkAssign hcheck hassigned)).1 hprivate
  rw [definingType_of_origin hu, mayAccess_within_iff] at hmay
  rw [← Bool.not_eq_true, mayAccess_within_iff, hmay]
  rintro rfl
  exact horigin hu

theorem checkRead_written_type (h : (s.assignedFlags (.type t) name).isPrivate = true →
    (s.written (.type t) name v).mayAccess access t = true) :
    (s.written (.type t) name v).checkRead access (.type t) name (s.asType t name v) = .ok () :=
  checkRead_of_mayAccess h

theorem get_written_type (ht : t.index < s.types.size)
    (h : (s.assignedFlags (.type t) name).isPrivate = true →
      (s.written (.type t) name v).mayAccess access t = true) :
    (s.written (.type t) name v).get access (.type t) name =
      .ok ((s.written (.type t) name v).bind (.type t) v) := by
  rw [get, find, resolve_written_type ht]
  dsimp only
  rw [checkRead_written_type h]
  rfl

theorem set_written_type (ht : t.index < s.types.size)
    (hcheck : s.checkAssign access (.type t) name = .ok ())
    (h : (s.assignedFlags (.type t) name).isPrivate = true →
      (s.written (.type t) name v).mayAccess access t = true) (w : Value) :
    ∃ s', (s.written (.type t) name v).set access (.type t) name w = .ok s' := by
  have hconstant : (s.asType t name v).attr.flags.isConstant = false :=
    assignedFlags_isConstant hcheck
  refine ⟨_, (set_eq_ok_iff rfl).2 ⟨?_, rfl⟩⟩
  rw [checkAssign, assigned?_written_type ht]
  dsimp only
  rw [checkWrite, checkRead_written_type h]
  exact if_neg (by rw [hconstant]; exact Bool.false_ne_true)

theorem refused_written_type (ht : t.index < s.types.size)
    (hp : (s.assignedFlags (.type t) name).isPrivate = true)
    (hno : (s.written (.type t) name v).mayAccess access t = false) :
    (s.written (.type t) name v).get access (.type t) name =
      .error (.access name (.privateTo (s.typeName t))) ∧
    ∀ w, (s.written (.type t) name v).set access (.type t) name w =
      .error (.access name (.privateTo (s.typeName t))) := by
  have hcause : (s.written (.type t) name v).privateTo (.type t) name (s.asType t name v) =
      .access name (.privateTo (s.typeName t)) := by
    rw [← typeName_written]
    rfl
  refine ⟨?_, fun w => ?_⟩
  · rw [get, find_of_private (resolve_written_type ht) hp hno, hcause]
    rfl
  · rw [set_of_private (assigned?_written_type ht) rfl hp hno, hcause]

end Store

/-- Assignment and reading, for types: a method that assigned an attribute of a type reads it back and
may assign it again, unless it did so as a method of a base that has the name as a private attribute.
Then the type has got a private attribute of its own, which is closed to the base and open to the
methods of the type. -/
theorem type_assignment_read_back {s s' : Store} {t : TypeId} {self v : Value} {name : String}
    (ht : t.index < s.types.size) (h : s.set (.within self) (.type t) name v = .ok s') :
    (¬ s.PrivateInBase t name →
      s'.get (.within self) (.type t) name = .ok (s'.bind (.type t) v) ∧
      ∀ w, ∃ s'', s'.set (.within self) (.type t) name w = .ok s'') ∧
    (s.PrivateInBase t name →
      s'.get (.within self) (.type t) name = .error (.access name (.privateTo (s.typeName t))) ∧
      (∀ w, s'.set (.within self) (.type t) name w =
        .error (.access name (.privateTo (s.typeName t)))) ∧
      ∀ access, s'.mayAccess access t = true →
        s'.get access (.type t) name = .ok (s'.bind (.type t) v)) := by
  obtain ⟨hcheck, rfl⟩ := (Store.set_eq_ok_iff rfl).1 h
  refine ⟨fun hbase => ?_, fun hbase => ?_⟩
  · have hmay (hp : (s.assignedFlags (.type t) name).isPrivate = true) :
        (s.written (.type t) name v).mayAccess (.within self) t = true := by
      rw [Store.mayAccess_within_written]
      exact Store.mayAccess_of_not_privateInBase hcheck hbase hp
    exact ⟨Store.get_written_type ht hmay, Store.set_written_type ht hcheck hmay⟩
  · obtain ⟨hp, hno⟩ := Store.not_mayAccess_of_privateInBase hcheck hbase
    rw [← Store.mayAccess_within_written (v := v)] at hno
    obtain ⟨hget, hset⟩ := Store.refused_written_type ht hp hno
    exact ⟨hget, hset, fun access hmay => Store.get_written_type ht fun _ => hmay⟩

theorem lookup_secret : ∀ t ∈ [(⟨2⟩ : TypeId), ⟨1⟩], (withSecret []).lookup t "secret" =
    some ⟨⟨.bool true, { isPrivate := true }⟩, .type ⟨1⟩⟩ := by
  have hderived : (withSecret []).chain ⟨2⟩ = [⟨2⟩, ⟨1⟩, ⟨0⟩] := by decide +kernel
  have hbase : (withSecret []).chain ⟨1⟩ = [⟨1⟩, ⟨0⟩] := by decide +kernel
  intro t ht
  rw [Store.lookup]
  rcases List.mem_cons.1 ht with rfl | ht
  · rw [hderived]
    rfl
  · rw [List.mem_singleton.1 ht, hbase]
    rfl

theorem set_secret {t : TypeId} (ht : t ∈ [(⟨2⟩ : TypeId), ⟨1⟩]) (v : Value) :
    (withSecret []).set (.within (.type ⟨1⟩)) (.type t) "secret" v =
      .ok ((withSecret []).written (.type t) "secret" v) := by
  have hassigned : (withSecret []).assigned? (.type t) "secret" =
      some ⟨⟨.bool true, { isPrivate := true }⟩, .type ⟨1⟩⟩ := lookup_secret t ht
  refine (Store.set_eq_ok_iff rfl).2 ⟨?_, rfl⟩
  rw [Store.checkAssign, hassigned]
  rfl

theorem privateInBase_secret : (withSecret []).PrivateInBase ⟨2⟩ "secret" :=
  ⟨_, lookup_secret ⟨2⟩ (by simp), rfl, by decide⟩

theorem type_assignment_read_back_secret :
    (∃ s', (withSecret []).set (.within (.type ⟨1⟩)) (.type ⟨1⟩) "secret" .void = .ok s' ∧
      s'.get (.within (.type ⟨1⟩)) (.type ⟨1⟩) "secret" = .ok (s'.bind (.type ⟨1⟩) .void)) ∧
    ∃ s', (withSecret []).set (.within (.type ⟨1⟩)) (.type ⟨2⟩) "secret" .void = .ok s' ∧
      s'.get (.within (.type ⟨2⟩)) (.type ⟨2⟩) "secret" = .ok (s'.bind (.type ⟨2⟩) .void) := by
  have hbase := set_secret (t := ⟨1⟩) (by simp) .void
  have hderived := set_secret (t := ⟨2⟩) (by simp) .void
  refine ⟨⟨_, hbase, ?_⟩, _, hderived, ?_⟩
  · refine ((type_assignment_read_back (by decide) hbase).1 ?_).1
    rintro ⟨r, hr, -, horigin⟩
    rw [lookup_secret ⟨1⟩ (by simp)] at hr
    cases hr
    exact horigin rfl
  · refine ((type_assignment_read_back (by decide) hderived).2 privateInBase_secret).2.2 _ ?_
    rfl

/-- A method of the base assigns the private attribute of the base on the derived type, and from then
on it is refused what it has assigned. -/
theorem owner_loses_access : ∃ s',
    (withSecret []).set (.within (.type ⟨1⟩)) (.type ⟨2⟩) "secret" .void = .ok s' ∧
    s'.get (.within (.type ⟨1⟩)) (.type ⟨2⟩) "secret" =
      .error (.access "secret" (.privateTo "Derived")) ∧
    s'.set (.within (.type ⟨1⟩)) (.type ⟨2⟩) "secret" .void =
      .error (.access "secret" (.privateTo "Derived")) := by
  have hset := set_secret (t := ⟨2⟩) (by simp) .void
  obtain ⟨hcheck, -⟩ := (Store.set_eq_ok_iff rfl).1 hset
  obtain ⟨hp, hno⟩ := Store.not_mayAccess_of_privateInBase hcheck privateInBase_secret
  rw [← Store.mayAccess_within_written (v := .void)] at hno
  obtain ⟨hget, hagain⟩ := Store.refused_written_type (by decide) hp hno
  exact ⟨_, hset, hget, hagain .void⟩

end ScriptMachine
