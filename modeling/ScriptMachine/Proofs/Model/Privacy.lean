import ScriptMachine.Proofs.Model.Causes
import ScriptMachine.Proofs.Model.Chain

namespace ScriptMachine

/-- A function is among the attributes. -/
def Attributes.Holds (as : Attributes) (f : FunctionId) : Prop :=
  ∃ name a, as.get? name = some a ∧ a.value = .function f

/-- A type declares a function, among its own attributes or those of a trait composed into it. -/
def TypeCell.Declares (c : TypeCell) (f : FunctionId) : Prop :=
  c.attributes.Holds f ∨ ∃ t ∈ c.traits, t.attributes.Holds f

theorem Attributes.holds_iff {as : Attributes} {f : FunctionId} :
    (as.values.any fun a => match a.value with | .function g => g == f | _ => false) = true ↔
      as.Holds f := by
  rw [List.any_eq_true]
  constructor
  · rintro ⟨a, ha, hf⟩
    obtain ⟨name, hname⟩ := Table.mem_values_iff.1 ha
    refine ⟨name, a, hname, ?_⟩
    split at hf
    · rename_i g hg
      rw [hg, eq_of_beq hf]
    · cases hf
  · rintro ⟨name, a, hname, hf⟩
    refine ⟨a, Table.mem_values_iff.2 ⟨name, hname⟩, ?_⟩
    rw [hf]
    exact beq_self_eq_true f

theorem TypeCell.declares_iff {c : TypeCell} {f : FunctionId} :
    c.declares f = true ↔ c.Declares f := by
  unfold declares
  rw [Bool.or_eq_true]
  refine or_congr Attributes.holds_iff (List.any_eq_true.trans ?_)
  exact exists_congr fun t => and_congr_right fun _ => Attributes.holds_iff

namespace Store

variable {s : Store} {self receiver target v : Value} {f : FunctionId} {t : TypeId} {name : String}
  {r : Resolved} {a : Access}

/-- `f` at work on `this` is a method of `t`. -/
structure Authorises (s : Store) (t : TypeId) (this : Value) (f : FunctionId) : Prop where
  declares : (s.type t).Declares f
  inChain : t ∈ s.chain (s.selfType this)

/-- A type derived from `t` that `self` has, declares `f` as well. -/
def DeclaredBelow (s : Store) (t : TypeId) (self : Value) (f : FunctionId) : Prop :=
  ∃ u ∈ s.chain (s.selfType self), u ≠ t ∧ s.isSubtype u t = true ∧ (s.type u).Declares f

theorem authorises_of_mayAccess (h : s.mayAccess (.running self f) t = true) :
    s.Authorises t self f := by
  have howner : s.methodOwner? self f = some t := eq_of_beq h
  have hdeclares : (s.type t).declares f = true := 
    List.find?_some (p := fun t => (s.type t).declares f) howner
  exact ⟨TypeCell.declares_iff.1 hdeclares, List.mem_of_find?_eq_some howner⟩

theorem not_mayAccess_host : s.mayAccess .host t = false := rfl

theorem find_chain_eq_some_iff {p : TypeId → Bool} {w : TypeId} :
    (s.chain w).find? p = some t ↔ t ∈ s.chain w ∧ p t = true ∧
      ∀ u ∈ s.chain w, u ≠ t → s.isSubtype u t = true → p u = false := by
  induction w using older_induction (s := s) with
  | step w ih =>
    cases hw : p w with
    | true =>
      have hfind : (s.chain w).find? p = some w := by
        rw [chain_eq, List.find?_cons_of_pos hw]
      rw [hfind, Option.some.injEq]
      constructor
      · rintro rfl
        refine ⟨s.mem_chain_self w, hw, fun u hu hne hsub => absurd ?_ hne⟩
        exact eq_of_mem_chain hu (isSubtype_iff_mem_chain.1 hsub)
      · rintro ⟨ht, -, hfirst⟩
        by_contra hne
        have hnone := hfirst w (s.mem_chain_self w) hne (isSubtype_iff_mem_chain.2 ht)
        rw [hw] at hnone
        cases hnone
    | false =>
      have hself : p t = true → t ≠ w := by
        rintro ht rfl
        rw [hw] at ht
        cases ht
      rw [chain_eq, List.find?_cons_of_neg (by rw [hw]; exact Bool.false_ne_true)]
      cases hb : s.older? w with
      | none =>
        simp only [Option.elim_none, List.find?_nil, List.mem_singleton, reduceCtorEq, false_iff]
        rintro ⟨ht, hp, -⟩
        exact hself hp ht
      | some b =>
        rw [Option.elim_some, ih b hb]
        constructor
        · rintro ⟨ht, hp, hfirst⟩
          refine ⟨List.mem_cons_of_mem _ ht, hp, List.forall_mem_cons.2 ⟨fun _ _ => hw, hfirst⟩⟩
        · rintro ⟨ht, hp, hfirst⟩
          refine ⟨(List.mem_cons.1 ht).resolve_left (hself hp), hp, fun u hu => ?_⟩
          exact hfirst u (List.mem_cons_of_mem _ hu)

theorem mayAccess_iff (h : s.Authorises t self f) :
    s.mayAccess (.running self f) t = true ↔ ¬ s.DeclaredBelow t self f := by
  have howner : s.mayAccess (.running self f) t = true ↔ s.methodOwner? self f = some t :=
    beq_iff_eq
  rw [howner, methodOwner?, find_chain_eq_some_iff]
  constructor
  · rintro ⟨-, -, hfirst⟩ ⟨u, hu, hne, hsub, hdeclares⟩
    have hnone := hfirst u hu hne hsub
    rw [TypeCell.declares_iff.2 hdeclares] at hnone
    cases hnone
  · intro hbelow
    refine ⟨h.inChain, TypeCell.declares_iff.2 h.declares, fun u hu hne hsub => ?_⟩
    rw [← Bool.not_eq_true]
    exact fun hdeclares => hbelow ⟨u, hu, hne, hsub, TypeCell.declares_iff.1 hdeclares⟩

/-- The refusal of a private attribute. -/
def privateTo (s : Store) (receiver : Value) (name : String) (r : Resolved) : Cause :=
  .access name (.privateTo (s.typeName (s.definingType receiver name r)))

theorem checkRead_of_private (hp : r.attr.flags.isPrivate = true)
    (hno : s.mayAccess a (s.definingType receiver name r) = false) :
    s.checkRead a receiver name r = .error (s.privateTo receiver name r) := by
  rw [checkRead, hp, hno]
  rfl

theorem checkRead_of_mayAccess (h : r.attr.flags.isPrivate = true →
    s.mayAccess a (s.definingType receiver name r) = true) :
    s.checkRead a receiver name r = .ok () := by
  rw [checkRead]
  cases hp : r.attr.flags.isPrivate with
  | false => rfl
  | true =>
    rw [h hp]
    rfl

theorem find_of_private (hr : s.resolve receiver name = some r)
    (hp : r.attr.flags.isPrivate = true)
    (hno : s.mayAccess a (s.definingType receiver name r) = false) :
    s.find a receiver name = .error (s.privateTo receiver name r) := by
  rw [find, hr]
  dsimp only
  rw [checkRead_of_private hp hno]
  rfl

theorem set_of_private (hr : s.assigned? target name = some r) (hown : hasOwn target = true)
    (hp : r.attr.flags.isPrivate = true)
    (hno : s.mayAccess a (s.definingType target name r) = false) :
    s.set a target name v = .error (s.privateTo target name r) := by
  rw [set, if_pos hown, hr]
  dsimp only
  rw [checkWrite, checkRead_of_private hp hno]
  rfl

end Store

/-- A method of the type that has an attribute reads it, unless a type derived from that one declares
the same function: then the function is taken for a method of the derived type, and a private
attribute stays closed. -/
theorem own_method_reads {s : Store} {t : TypeId} {self receiver : Value} {f : FunctionId}
    {name : String} {r : Resolved} (hchain : t ∈ s.chain (s.selfType self))
    (hf : (s.type t).Declares f) (hr : s.resolve receiver name = some r)
    (ht : s.definingType receiver name r = t) :
    (s.mayAccess (.running self f) t = true ↔ ¬ s.DeclaredBelow t self f) ∧
    (r.attr.flags.isPrivate = false ∨ ¬ s.DeclaredBelow t self f →
      s.get (.running self f) receiver name = .ok (s.bind receiver r.attr.value)) ∧
    (r.attr.flags.isPrivate = true → s.DeclaredBelow t self f →
      s.get (.running self f) receiver name =
        .error (.access name (.privateTo (s.typeName t)))) := by
  subst ht
  have hiff := Store.mayAccess_iff (s := s) ⟨hf, hchain⟩
  refine ⟨hiff, fun hopen => ?_, fun hp hbelow => ?_⟩
  · have hmay : r.attr.flags.isPrivate = true →
        s.mayAccess (.running self f) (s.definingType receiver name r) = true := by
      intro hp
      rcases hopen with hpublic | hbelow
      · rw [hp] at hpublic
        cases hpublic
      · exact hiff.2 hbelow
    rw [Store.get, Store.find, hr]
    dsimp only
    rw [Store.checkRead_of_mayAccess hmay]
    rfl
  · have hno : s.mayAccess (.running self f) (s.definingType receiver name r) = false := by
      rw [← Bool.not_eq_true]
      exact fun h => hiff.1 h hbelow
    rw [Store.get, Store.find_of_private hr hp hno]
    rfl

/-- An object of a derived type. The base has a private attribute and a trait with a method; the
derived type has the given traits. -/
def withSecret (traits : List Snapshot) : Store where
  types :=
    #[{ name := "Object", base := none },
      { name := "Base", base := some ⟨0⟩,
        attributes := .ofList [("secret", ⟨.bool true, { isPrivate := true }⟩)],
        traits := [⟨"Peek", .ofList [("peek", ⟨.function ⟨0⟩, {}⟩)]⟩] },
      { name := "Derived", base := some ⟨1⟩, traits }]
  objects := #[⟨⟨2⟩, .empty⟩]
  functions := #[default]

theorem own_method_reads_secret :
    (withSecret []).get (.running (.object ⟨0⟩) ⟨0⟩) (.object ⟨0⟩) "secret" =
      .ok (.bool true, withSecret []) := by
  have hchain : (withSecret []).chain ((withSecret []).selfType (.object ⟨0⟩)) =
      [⟨2⟩, ⟨1⟩, ⟨0⟩] := by decide +kernel
  have hr : (withSecret []).resolve (.object ⟨0⟩) "secret" =
      some ⟨⟨.bool true, { isPrivate := true }⟩, .type ⟨1⟩⟩ := by
    change List.findSome? _ ((withSecret []).chain ((withSecret []).selfType (.object ⟨0⟩))) = _
    rw [hchain]
    rfl
  have hmay : (withSecret []).mayAccess (.running (.object ⟨0⟩) ⟨0⟩) ⟨1⟩ = true := by
    decide +kernel
  obtain ⟨hiff, hreads, -⟩ := own_method_reads (t := ⟨1⟩) (by rw [hchain]; decide)
    (.inr ⟨_, List.mem_cons_self .., "peek", _, rfl, rfl⟩) hr rfl
  exact hreads (.inr (hiff.1 hmay))

/-- The same trait in both types. -/
def secretTwice : Store :=
  withSecret [⟨"Peek", .ofList [("peek", ⟨.function ⟨0⟩, {}⟩)]⟩]

/-- The method of the base is refused what the base declares. -/
theorem own_method_refused :
    ⟨1⟩ ∈ secretTwice.chain (secretTwice.selfType (.object ⟨0⟩)) ∧
    (secretTwice.type ⟨1⟩).Declares ⟨0⟩ ∧
    (∃ r, secretTwice.resolve (.object ⟨0⟩) "secret" = some r ∧
      secretTwice.definingType (.object ⟨0⟩) "secret" r = ⟨1⟩) ∧
    secretTwice.get (.running (.object ⟨0⟩) ⟨0⟩) (.object ⟨0⟩) "secret" =
      .error (.access "secret" (.privateTo "Base")) := by
  have hchain : secretTwice.chain (secretTwice.selfType (.object ⟨0⟩)) = [⟨2⟩, ⟨1⟩, ⟨0⟩] := by
    decide +kernel
  have hr : secretTwice.resolve (.object ⟨0⟩) "secret" =
      some ⟨⟨.bool true, { isPrivate := true }⟩, .type ⟨1⟩⟩ := by
    change List.findSome? _ (secretTwice.chain (secretTwice.selfType (.object ⟨0⟩))) = _
    rw [hchain]
    rfl
  have hno : secretTwice.mayAccess (.running (.object ⟨0⟩) ⟨0⟩) ⟨1⟩ = false := by decide +kernel
  refine ⟨by rw [hchain]; decide, .inr ⟨_, List.mem_cons_self .., "peek", _, rfl, rfl⟩,
    ⟨_, hr, rfl⟩, ?_⟩
  rw [Store.get, Store.find_of_private hr rfl hno]
  rfl

end ScriptMachine
