import ScriptMachine.Model.Release
import ScriptMachine.Proofs.Model.Assignment

namespace ScriptMachine

/-- A type has an attribute by itself, as its own or from a trait composed into it. -/
def TypeCell.Provides (c : TypeCell) (name : String) : Prop :=
  c.attributes.contains name = true ∨ ∃ snapshot ∈ c.traits, snapshot.attributes.contains name = true

theorem TypeCell.find?_eq_none_iff {c : TypeCell} {t : TypeId} {name : String} :
    c.find? t name = none ↔ ¬ c.Provides name := by
  simp only [find?, Provides, Table.contains]
  cases c.attributes.get? name with
  | some a => simp
  | none => simp [List.findSome?_eq_none_iff]

/-- The type with one snapshot more. -/
def TypeCell.composed (c : TypeCell) (snapshot : Snapshot) : TypeCell :=
  { c with traits := c.traits ++ [snapshot] }

/-- The last snapshot is the first one to be asked, after the own attributes. -/
theorem TypeCell.find?_composed (c : TypeCell) (snapshot : Snapshot) (t : TypeId) (name : String) :
    (c.composed snapshot).find? t name =
      match c.attributes.get? name with
      | some _ => c.find? t name
      | none => ((snapshot.attributes.get? name).map fun a => ⟨a, .trait t snapshot.name⟩).or
          (c.find? t name) := by
  simp only [find?, composed, List.reverse_append, List.reverse_singleton, List.singleton_append,
    List.findSome?_cons]
  cases c.attributes.get? name with
  | some a => rfl
  | none => cases snapshot.attributes.get? name <;> rfl

namespace Store

variable {s : Store} {t u : TypeId} {b : TraitId} {name : String} {a : Attribute}

/-- The snapshot of a trait as it is now. -/
def snapshot (s : Store) (b : TraitId) : Snapshot :=
  ⟨(s.trait b).name, (s.trait b).attributes⟩

theorem type_compose_self (ht : t.index < s.types.size) :
    (s.compose t b).type t = (s.type t).composed (s.snapshot b) := by
  exact getD_modify_self _ ht

theorem type_compose_of_ne (h : u ≠ t) : (s.compose t b).type u = s.type u := by
  simp only [type, compose, Array.getD_eq_getD_getElem?, getElem?_modify_of_ne _ (Id.index_ne h.symm)]

theorem older_compose (ht : t.index < s.types.size) : (s.compose t b).older? u = s.older? u := by
  by_cases hu : u = t
  · subst hu
    rw [older?, type_compose_self ht]
    rfl
  · rw [older?, type_compose_of_ne hu]
    rfl

theorem type_compose_of_notMem (h : t ∉ s.chain u) (w : TypeId) (hw : w ∈ s.chain u) :
    (s.compose t b).type w = s.type w := by
  apply type_compose_of_ne
  rintro rfl
  exact h hw

/-- In a search from the type `u`, the trait `b` composed into `t` comes first with its attribute
`a`. -/
structure Surfaces (s : Store) (t : TypeId) (b : TraitId) (u : TypeId) (name : String)
    (a : Attribute) : Prop where
  inChain : t ∈ s.chain u
  between : ∀ w ∈ s.chain u, w ≠ t → s.isSubtype w t = true → ¬ (s.type w).Provides name
  own : (s.type t).attributes.get? name = none
  brings : (s.trait b).attributes.get? name = some a

theorem Surfaces.of_older {c : TypeId} (h : s.Surfaces t b u name a) (hne : u ≠ t)
    (hc : s.older? u = some c) : s.Surfaces t b c name a := by
  have hmem {w : TypeId} (hw : w ∈ s.chain c) : w ∈ s.chain u := mem_chain_iff.2 (.inr ⟨c, hc, hw⟩)
  refine ⟨?_, fun w hw => h.between w (hmem hw), h.own, h.brings⟩
  rcases mem_chain_iff.1 h.inChain with htu | ⟨c', hc', ht⟩
  · exact absurd htu.symm hne
  · rw [hc] at hc'
    cases hc'
    exact ht

theorem Surfaces.of_derived {c : TypeId} (h : s.Surfaces t b c name a) (hc : s.older? u = some c)
    (hu : ¬ (s.type u).Provides name) : s.Surfaces t b u name a := by
  refine ⟨mem_chain_iff.2 (.inr ⟨c, hc, h.inChain⟩), fun w hw hne hsub => ?_, h.own, h.brings⟩
  rcases mem_chain_iff.1 hw with rfl | ⟨c', hc', hw'⟩
  · exact hu
  · rw [hc] at hc'
    cases hc'
    exact h.between w hw' hne hsub

/-- The search meets the new snapshot before anything else that has the name. -/
theorem lookup_compose_of_surfaces (ht : t.index < s.types.size) (h : s.Surfaces t b u name a) :
    (s.compose t b).lookup u name = some ⟨a, .trait t (s.trait b).name⟩ := by
  induction u using older_induction (s := s) with
  | step u ih =>
    rw [lookup_eq, older_compose ht]
    by_cases hu : u = t
    · subst hu
      rw [type_compose_self ht, TypeCell.find?_composed, h.own, snapshot, h.brings]
      rfl
    · have hnone : (s.type u).find? u name = none := by
        apply TypeCell.find?_eq_none_iff.2
        apply h.between u (s.mem_chain_self u) hu
        exact isSubtype_iff_mem_chain.2 h.inChain
      obtain ⟨c, hc, -⟩ := (mem_chain_iff.1 h.inChain).resolve_left fun htu => hu htu.symm
      rw [type_compose_of_ne hu, hnone, Option.none_or, hc, Option.bind_some]
      exact ih c hc (h.of_older hu hc)

/-- The snapshot is hidden, or it has nothing under the name. -/
theorem lookup_compose_of_hidden (ht : t.index < s.types.size)
    (h : ∀ a, ¬ s.Surfaces t b u name a) :
    (s.compose t b).lookup u name = s.lookup u name := by
  induction u using older_induction (s := s) with
  | step u ih =>
    rw [lookup_eq, lookup_eq s, older_compose ht]
    by_cases hu : u = t
    · subst hu
      have hbrings : (s.type u).attributes.get? name = none →
          (s.trait b).attributes.get? name = none := by
        intro hown
        rw [Option.eq_none_iff_forall_ne_some]
        intro a ha
        refine h a ⟨s.mem_chain_self u, fun w hw hne hsub => absurd ?_ hne, hown, ha⟩
        exact eq_of_mem_chain hw (isSubtype_iff_mem_chain.1 hsub)
      have hfind : ((s.compose u b).type u).find? u name = (s.type u).find? u name := by
        rw [type_compose_self ht, TypeCell.find?_composed]
        cases hown : (s.type u).attributes.get? name with
        | some a => rfl
        | none => simp only [snapshot, hbrings hown, Option.map_none, Option.none_or]
      rw [hfind]
      -- the bases of the type are not derived from it
      congr 1
      cases hc : s.older? u with
      | none => rfl
      | some c =>
        have hnot : u ∉ s.chain c := by
          intro hmem
          have hle := index_le_of_mem_chain hmem
          have hlt := index_lt_of_older hc
          omega
        exact lookup_congr (type_compose_of_notMem hnot)
    · rw [type_compose_of_ne hu]
      cases hfind : (s.type u).find? u name with
      | some r => rfl
      | none =>
        rw [Option.none_or, Option.none_or]
        cases hc : s.older? u with
        | none => rfl
        | some c =>
          apply ih c hc
          intro a hsurfaces
          exact h a (hsurfaces.of_derived hc (TypeCell.find?_eq_none_iff.1 hfind))

end Store

/-- Something done to the store: to a trait, by an assignment, or by a further composition. -/
inductive Edit where
  | define (b : TraitId) (name : String) (v : Value) (flags : Flags)
  /-- Takes all attributes out of a trait. -/
  | clear (b : TraitId)
  | assign (a : Assignment)
  | compose (t : TypeId) (b : TraitId)

/-- The edit writes to none of the given types. -/
def Edit.Spares (types : List TypeId) : Edit → Prop
  | define .. | clear _ => True
  | assign a => ∀ t, a.target ≠ .type t
  | compose t _ => t ∉ types

namespace Store

/-- The store after an edit. One that is refused changes nothing. -/
def edit (s : Store) : Edit → Store
  | .define b name v flags =>
    match s.define (.trait b) name v flags with
    | .ok s' => s'
    | .error _ => s
  | .clear b => (s.breakReferences (.trait b)).2
  | .assign a => s.assign a
  | .compose t b => s.compose t b

def editAll (s : Store) (edits : List Edit) : Store :=
  edits.foldl edit s

variable {s : Store} {t u : TypeId} {b : TraitId} {name : String}

theorem type_assign {a : Assignment} (h : ∀ t, a.target ≠ .type t) (t : TypeId) :
    (s.assign a).type t = s.type t := by
  unfold assign
  split
  · rename_i s' hs
    obtain ⟨-, flags, rfl⟩ := set_eq_ok hs
    exact (s.type_setOwn a.target _ t).resolve_right fun hwritten => h t hwritten.1
  · rfl

theorem type_edit {e : Edit} (h : e.Spares (s.chain u)) (t : TypeId) (ht : t ∈ s.chain u) :
    (s.edit e).type t = s.type t := by
  cases e with
  | define b name v flags => rfl
  | clear b => rfl
  | assign a => exact type_assign h t
  | compose w b => exact type_compose_of_notMem h t ht

theorem lookup_editAll (edits : List Edit) (h : ∀ e ∈ edits, e.Spares (s.chain u)) :
    (s.editAll edits).lookup u name = s.lookup u name := by
  induction edits generalizing s with
  | nil => rfl
  | cons e edits ih =>
    have htype := type_edit (h e List.mem_cons_self)
    have hchain : (s.edit e).chain u = s.chain u := chain_congr htype
    have hrest : ∀ e' ∈ edits, e'.Spares ((s.edit e).chain u) := by
      intro e' he'
      rw [hchain]
      exact h e' (List.mem_cons_of_mem e he')
    exact (ih hrest).trans (lookup_congr htype)

theorem chain_compose (ht : t.index < s.types.size) : (s.compose t b).chain u = s.chain u := by
  induction u using older_induction (s := s) with
  | step u ih =>
    rw [chain_eq, chain_eq s, older_compose ht]
    cases hc : s.older? u with
    | none => rfl
    | some c => rw [Option.elim_some, Option.elim_some, ih c hc]

end Store

/-- The exact effect of composing a trait: for each type and each name, a search from the type finds
what it found before, unless it meets the new snapshot first; and from then on neither edits of traits
nor compositions outside the chain of the type nor assignments to objects and functions make a
difference to it. -/
theorem compose_effect {s : Store} {t : TypeId} (ht : t.index < s.types.size) (b : TraitId)
    (u : TypeId) (name : String) :
    (∀ a, s.Surfaces t b u name a →
      (s.compose t b).lookup u name = some ⟨a, .trait t (s.trait b).name⟩) ∧
    ((¬ ∃ a, s.Surfaces t b u name a) → (s.compose t b).lookup u name = s.lookup u name) ∧
    ∀ edits, (∀ e ∈ edits, e.Spares (s.chain u)) →
      ((s.compose t b).editAll edits).lookup u name = (s.compose t b).lookup u name := by
  refine ⟨fun a h => Store.lookup_compose_of_surfaces ht h, fun h => ?_, fun edits h => ?_⟩
  · exact Store.lookup_compose_of_hidden ht (not_exists.1 h)
  · apply Store.lookup_editAll
    rw [Store.chain_compose ht]
    exact h

/-- A base that has an older trait, a type derived from it with an attribute of its own, an object of
that type and a type apart; and a trait that has the names of both. -/
def withGreeting : Store where
  types :=
    #[{ name := "Object", base := none },
      { name := "Base", base := some ⟨0⟩,
        traits := [⟨"Curt", .ofList [("greet", ⟨.bool false, {}⟩)]⟩] },
      { name := "Derived", base := some ⟨1⟩, attributes := .ofList [("leave", ⟨.bool false, {}⟩)] },
      { name := "Apart", base := some ⟨0⟩ }]
  traits :=
    #[⟨"Polite", .ofList [("greet", ⟨.bool true, {}⟩), ("leave", ⟨.bool true, {}⟩)]⟩]
  objects := #[⟨⟨2⟩, .empty⟩]

theorem compose_effect_greeting :
    (withGreeting.compose ⟨1⟩ ⟨0⟩).lookup ⟨2⟩ "greet" =
      some ⟨⟨.bool true, {}⟩, .trait ⟨1⟩ "Polite"⟩ ∧
    (withGreeting.compose ⟨1⟩ ⟨0⟩).lookup ⟨2⟩ "leave" = withGreeting.lookup ⟨2⟩ "leave" ∧
    ((withGreeting.compose ⟨1⟩ ⟨0⟩).editAll
      [.define ⟨0⟩ "greet" .void {}, .clear ⟨0⟩, .assign ⟨.host, .object ⟨0⟩, "greet", .void⟩,
        .compose ⟨3⟩ ⟨0⟩]).lookup ⟨2⟩ "greet" =
      (withGreeting.compose ⟨1⟩ ⟨0⟩).lookup ⟨2⟩ "greet" := by
  have hchain : withGreeting.chain ⟨2⟩ = [⟨2⟩, ⟨1⟩, ⟨0⟩] := by decide +kernel
  have ht : (⟨1⟩ : TypeId).index < withGreeting.types.size := by decide
  have hgreet : withGreeting.Surfaces ⟨1⟩ ⟨0⟩ ⟨2⟩ "greet" ⟨.bool true, {}⟩ := by
    refine ⟨by rw [hchain]; decide, fun w hw hne _ => ?_, rfl, rfl⟩
    rw [hchain] at hw
    rcases List.mem_cons.1 hw with rfl | hw
    · exact (TypeCell.find?_eq_none_iff (t := ⟨2⟩)).1 rfl
    · rcases List.mem_cons.1 hw with rfl | hw
      · exact absurd rfl hne
      · rw [List.mem_singleton.1 hw]
        exact (TypeCell.find?_eq_none_iff (t := ⟨0⟩)).1 rfl
  have hleave : ¬ ∃ a, withGreeting.Surfaces ⟨1⟩ ⟨0⟩ ⟨2⟩ "leave" a := by
    rintro ⟨a, h⟩
    have hsub : withGreeting.isSubtype ⟨2⟩ ⟨1⟩ = true := by decide +kernel
    exact h.between ⟨2⟩ (withGreeting.mem_chain_self ⟨2⟩) (by decide) hsub (.inl rfl)
  obtain ⟨hfound, -, hlater⟩ := compose_effect ht ⟨0⟩ ⟨2⟩ "greet"
  refine ⟨hfound _ hgreet, (compose_effect ht ⟨0⟩ ⟨2⟩ "leave").2.1 hleave, hlater _ ?_⟩
  rw [hchain]
  simp [Edit.Spares]

end ScriptMachine
