import ScriptMachine.Proofs.Model.TypeShadow

namespace ScriptMachine

namespace Store

variable {s : Store} {access : Access} {target v : Value} {name : String} {r : Resolved}
  {c : Cause}

/-- Types and traits, whose own type is a meta type. -/
def isMeta : Value → Bool
  | .type _ | .trait _ => true
  | _ => false

/-- A type or trait finds the name on its meta type and nowhere before. -/
def MetaOnly (s : Store) (target : Value) (name : String) : Prop :=
  isMeta target = true ∧ s.resolveOwn target name = none ∧
    ∃ r, s.lookup (s.typeOf target) name = some r

/-- The search before an assignment leaves out the meta type. -/
theorem assigned?_eq (s : Store) (target : Value) (name : String) :
    s.assigned? target name =
      if isMeta target then s.resolveOwn target name else s.resolve target name := by
  cases target with
  | _ => rfl

theorem MetaOnly.assigned?_eq_none (h : s.MetaOnly target name) :
    s.assigned? target name = none := by
  rw [assigned?_eq, if_pos h.1]
  exact h.2.1

/-- Everywhere else the two searches find the same. -/
theorem assigned?_eq_resolve (h : ¬ s.MetaOnly target name) :
    s.assigned? target name = s.resolve target name := by
  rw [assigned?_eq]
  split
  · rename_i hmeta
    rw [resolve]
    cases hown : s.resolveOwn target name with
    | some r => rfl
    | none =>
      cases hlookup : s.lookup (s.typeOf target) name with
      | none => rfl
      | some r => exact absurd ⟨hmeta, hown, r, hlookup⟩ h
  · rfl

/-- The access may read what it finds under the name, which is no constant. -/
def Open (s : Store) (access : Access) (target : Value) (name : String) : Prop :=
  ∃ r, s.resolve target name = some r ∧ s.find access target name = .ok r.attr.value ∧
    r.attr.flags.isConstant = false

theorem find_of_resolved (hr : s.resolve target name = some r) :
    s.find access target name = (s.checkRead access target name r).map fun _ => r.attr.value := by
  rw [find, hr]

theorem checkWrite_eq_ok_iff : s.checkWrite access target name r = .ok () ↔
    s.checkRead access target name r = .ok () ∧ r.attr.flags.isConstant = false := by
  refine ⟨checkWrite_eq_ok, fun ⟨hread, hc⟩ => ?_⟩
  rw [checkWrite, hread]
  exact if_neg (by rw [hc]; exact Bool.false_ne_true)

/-- A refused assignment tells why the reading is refused, or that the attribute is constant. -/
theorem checkWrite_eq_error (h : s.checkWrite access target name r = .error c) :
    s.checkRead access target name r = .error c ∨
      r.attr.flags.isConstant = true ∧ c = .access name .constant := by
  cases hread : s.checkRead access target name r with
  | error c' =>
    rw [checkWrite, hread] at h
    cases h
    exact .inl rfl
  | ok _ =>
    rw [checkWrite, hread] at h
    cases hc : r.attr.flags.isConstant with
    | false => rw [hc] at h; cases h
    | true => rw [hc] at h; cases h; exact .inr ⟨rfl, rfl⟩

theorem open_iff (hr : s.resolve target name = some r) :
    s.Open access target name ↔ s.checkWrite access target name r = .ok () := by
  rw [checkWrite_eq_ok_iff]
  refine ⟨fun ⟨r', hr', hfind, hc⟩ => ?_, fun ⟨hread, hc⟩ => ⟨r, hr, ?_, hc⟩⟩
  · cases hr.symm.trans hr'
    rw [find_of_resolved hr] at hfind
    refine ⟨?_, hc⟩
    cases hread : s.checkRead access target name r with
    | ok _ => rfl
    | error c => rw [hread] at hfind; cases hfind
  · rw [find_of_resolved hr, hread]
    rfl

theorem exists_set_iff (h : hasOwn target = true) :
    (∃ s', s.set access target name v = .ok s') ↔ s.checkAssign access target name = .ok () :=
  ⟨fun ⟨_, hset⟩ => ((set_eq_ok_iff h).1 hset).1, fun hcheck => ⟨_, (set_eq_ok_iff h).2 ⟨hcheck, rfl⟩⟩⟩

theorem checkAssign_eq_ok_iff (h : ¬ s.MetaOnly target name) :
    s.checkAssign access target name = .ok () ↔
      s.resolve target name = none ∨ s.Open access target name := by
  rw [checkAssign, assigned?_eq_resolve h]
  cases hr : s.resolve target name with
  | none => simp
  | some r => simp [open_iff hr]

theorem MetaOnly.checkAssign (h : s.MetaOnly target name) :
    s.checkAssign access target name = .ok () := by
  rw [Store.checkAssign, h.assigned?_eq_none]

theorem MetaOnly.get_written (h : s.MetaOnly target name) (howns : s.Owns target) :
    (s.written target name v).get access target name =
      .ok ((s.written target name v).bind target v) := by
  cases target with
  | type t =>
    refine get_written_type howns fun hp => ?_
    rw [assignedFlags_of_none h.assigned?_eq_none] at hp
    cases hp
  | trait id =>
    rw [get, find_written (by simp) howns h.checkAssign]
    rfl
  | _ => cases h.1

theorem set_eq_error (h : hasOwn target = true) (hset : s.set access target name v = .error c) :
    s.find access target name = .error c ∨
      (∃ r, s.resolve target name = some r ∧ r.attr.flags.isConstant = true) ∧
        c = .access name .constant := by
  have hcheck : s.checkAssign access target name = .error c := by
    rw [set_eq h] at hset
    cases hcheck : s.checkAssign access target name with
    | ok _ => rw [hcheck] at hset; cases hset
    | error c' => rw [hcheck] at hset; cases hset; rfl
  have hmeta : ¬ s.MetaOnly target name := by
    intro hmeta
    rw [hmeta.checkAssign] at hcheck
    cases hcheck
  rw [Store.checkAssign, assigned?_eq_resolve hmeta] at hcheck
  cases hr : s.resolve target name with
  | none => rw [hr] at hcheck; cases hcheck
  | some r =>
    rw [hr] at hcheck
    rcases checkWrite_eq_error hcheck with hread | ⟨hc, hconstant⟩
    · rw [find_of_resolved hr, hread]
      exact .inl rfl
    · exact .inr ⟨⟨r, rfl, hc⟩, hconstant⟩

end Store

/-- Assignment against reading, for every value with attributes of its own. A name that the value
finds before its meta type, or not at all, may be assigned if and only if it is new, or may be read and
is no constant; a refusal is that of the reading, or names the constant. A name that a type or a trait
has from the meta type alone may always be assigned, whatever its flags, and the attribute so made is
neither private nor constant. -/
theorem write_admission {target : Value} (h : Store.hasOwn target = true) (s : Store)
    (access : Access) (name : String) (v : Value) :
    (¬ s.MetaOnly target name →
      ((∃ s', s.set access target name v = .ok s') ↔
        s.resolve target name = none ∨ s.Open access target name)) ∧
    (s.MetaOnly target name → s.set access target name v =
      .ok (s.setOwn target (·.insert name { value := v }))) ∧
    ∀ c, s.set access target name v = .error c →
      s.find access target name = .error c ∨
        (∃ r, s.resolve target name = some r ∧ r.attr.flags.isConstant = true) ∧
          c = .access name .constant := by
  refine ⟨fun hmeta => ?_, fun hmeta => ?_, fun c => Store.set_eq_error h⟩
  · rw [Store.exists_set_iff h, Store.checkAssign_eq_ok_iff hmeta]
  · refine (Store.set_eq_ok_iff h).2 ⟨hmeta.checkAssign, ?_⟩
    rw [Store.written, Store.assignedFlags_of_none hmeta.assigned?_eq_none]

/-- A type and a trait. The meta type of the one has a constant, that of the other a private
attribute. -/
def withMetaAttributes : Store where
  types :=
    #[{ name := "Object", base := none },
      { name := "Type", base := some ⟨0⟩,
        attributes := .ofList [("limit", ⟨.bool true, { isConstant := true }⟩)] },
      { name := "Trait", base := some ⟨0⟩,
        attributes := .ofList [("secret", ⟨.bool true, { isPrivate := true }⟩)] },
      { name := "Plain", base := some ⟨0⟩ }]
  traits := #[⟨"Bundle", .empty⟩]

theorem chain_withMetaAttributes : withMetaAttributes.chain ⟨1⟩ = [⟨1⟩, ⟨0⟩] ∧
    withMetaAttributes.chain ⟨2⟩ = [⟨2⟩, ⟨0⟩] ∧ withMetaAttributes.chain ⟨3⟩ = [⟨3⟩, ⟨0⟩] := by
  decide +kernel

theorem lookup_limit : withMetaAttributes.lookup ⟨1⟩ "limit" =
    some ⟨⟨.bool true, { isConstant := true }⟩, .type ⟨1⟩⟩ := by
  rw [Store.lookup, chain_withMetaAttributes.1]
  rfl

theorem lookup_secret_of_trait : withMetaAttributes.lookup ⟨2⟩ "secret" =
    some ⟨⟨.bool true, { isPrivate := true }⟩, .type ⟨2⟩⟩ := by
  rw [Store.lookup, chain_withMetaAttributes.2.1]
  rfl

theorem metaOnly_limit : withMetaAttributes.MetaOnly (.type ⟨3⟩) "limit" := by
  refine ⟨rfl, ?_, _, lookup_limit⟩
  change withMetaAttributes.lookup ⟨3⟩ "limit" = none
  rw [Store.lookup, chain_withMetaAttributes.2.2]
  rfl

theorem metaOnly_secret : withMetaAttributes.MetaOnly (.trait ⟨0⟩) "secret" :=
  ⟨rfl, rfl, _, lookup_secret_of_trait⟩

theorem resolve_limit : withMetaAttributes.resolve (.type ⟨3⟩) "limit" =
    some ⟨⟨.bool true, { isConstant := true }⟩, .type ⟨1⟩⟩ := by
  rw [Store.resolve, metaOnly_limit.2.1, Option.none_or]
  exact lookup_limit

theorem resolve_secret : withMetaAttributes.resolve (.trait ⟨0⟩) "secret" =
    some ⟨⟨.bool true, { isPrivate := true }⟩, .type ⟨2⟩⟩ :=
  lookup_secret_of_trait

/-- The constant is refused on the meta type itself, and may be assigned on every other type. -/
theorem write_admission_limit :
    (¬ ∃ s', withMetaAttributes.set .host (.type ⟨1⟩) "limit" .void = .ok s') ∧
    ∃ s', withMetaAttributes.set .host (.type ⟨3⟩) "limit" .void = .ok s' := by
  have hown : withMetaAttributes.resolveOwn (.type ⟨1⟩) "limit" =
      some ⟨⟨.bool true, { isConstant := true }⟩, .type ⟨1⟩⟩ := lookup_limit
  have hresolve : withMetaAttributes.resolve (.type ⟨1⟩) "limit" =
      some ⟨⟨.bool true, { isConstant := true }⟩, .type ⟨1⟩⟩ := by
    rw [Store.resolve, hown]
    rfl
  have hbefore : ¬ withMetaAttributes.MetaOnly (.type ⟨1⟩) "limit" := by
    rintro ⟨-, hnone, -⟩
    rw [hown] at hnone
    cases hnone
  refine ⟨?_, _, (write_admission rfl withMetaAttributes .host "limit" .void).2.1 metaOnly_limit⟩
  rw [(write_admission rfl withMetaAttributes .host "limit" .void).1 hbefore, Store.Open, hresolve]
  rintro (hnone | ⟨r, hsome, -, hc⟩)
  · cases hnone
  · cases hsome
    cases hc

/-- The host assigns over a constant and over a private attribute of a meta type. Neither is new, and
neither is open to it; from then on it reads what it has assigned. -/
theorem meta_attributes_shadowed :
    (¬ (withMetaAttributes.resolve (.type ⟨3⟩) "limit" = none ∨
        withMetaAttributes.Open .host (.type ⟨3⟩) "limit") ∧
      ∃ s', withMetaAttributes.set .host (.type ⟨3⟩) "limit" .void = .ok s' ∧
        s'.get .host (.type ⟨3⟩) "limit" = .ok (.void, s')) ∧
    ¬ (withMetaAttributes.resolve (.trait ⟨0⟩) "secret" = none ∨
        withMetaAttributes.Open .host (.trait ⟨0⟩) "secret") ∧
      ∃ s', withMetaAttributes.set .host (.trait ⟨0⟩) "secret" .void = .ok s' ∧
        s'.get .host (.trait ⟨0⟩) "secret" = .ok (.void, s') := by
  have htype : withMetaAttributes.Owns (.type ⟨3⟩) := show 3 < 4 by decide
  have htrait : withMetaAttributes.Owns (.trait ⟨0⟩) := show 0 < 1 by decide
  refine ⟨⟨?_, _, (Store.set_eq_ok_iff rfl).2 ⟨metaOnly_limit.checkAssign, rfl⟩,
    metaOnly_limit.get_written htype⟩, ?_, _,
    (Store.set_eq_ok_iff rfl).2 ⟨metaOnly_secret.checkAssign, rfl⟩,
    metaOnly_secret.get_written htrait⟩
  · rw [Store.Open, resolve_limit]
    rintro (hnone | ⟨r, hsome, -, hc⟩)
    · cases hnone
    · cases hsome
      cases hc
  · rw [Store.Open, Store.find_of_private resolve_secret rfl rfl, resolve_secret]
    rintro (hnone | ⟨r, -, hfind, -⟩)
    · cases hnone
    · cases hfind

end ScriptMachine
