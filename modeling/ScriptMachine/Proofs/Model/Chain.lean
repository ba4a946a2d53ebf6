import Mathlib.Data.List.Chain
import ScriptMachine.Model.Access

namespace ScriptMachine

namespace Store

/-- The base to which a walk along the bases goes on. -/
def older? (s : Store) (t : TypeId) : Option TypeId :=
  (s.type t).base.filter fun b => b.index < t.index

variable {s : Store} {t u b : TypeId} {name : String}

theorem base_of_older (h : s.older? t = some b) : (s.type t).base = some b :=
  (Option.filter_eq_some_iff.1 h).1

theorem index_lt_of_older (h : s.older? t = some b) : b.index < t.index :=
  of_decide_eq_true (Option.filter_eq_some_iff.1 h).2

/-- Induction along the bases. -/
@[elab_as_elim]
theorem older_induction {P : TypeId → Prop} (t : TypeId)
    (step : ∀ t, (∀ b, s.older? t = some b → P b) → P t) : P t := by
  induction hi : t.index using Nat.strong_induction_on generalizing t with
  | _ i ih =>
    refine step t fun b hb => ih b.index ?_ b rfl
    rw [← hi]
    exact index_lt_of_older hb

theorem chain_eq (s : Store) (t : TypeId) : s.chain t = t :: (s.older? t).elim [] s.chain := by
  rw [chain, older?]
  cases (s.type t).base with
  | none => rfl
  | some b =>
    by_cases hlt : b.index < t.index
    · simp [Option.filter_some, hlt]
    · simp [Option.filter_some, hlt]

theorem lookup_eq (s : Store) (t : TypeId) (name : String) :
    s.lookup t name = ((s.type t).find? t name).or ((s.older? t).bind (s.lookup · name)) := by
  rw [lookup, chain_eq, List.findSome?_cons]
  cases (s.type t).find? t name with
  | some r => rfl
  | none =>
    cases s.older? t with
    | none => rfl
    | some b => rfl

theorem exists_originType {d : Resolved} (h : s.lookup t name = some d) :
    ∃ u, originType? d.origin = some u := by
  obtain ⟨u, -, hu⟩ := List.exists_of_findSome?_eq_some h
  unfold TypeCell.find? at hu
  split at hu
  · cases hu
    exact ⟨u, rfl⟩
  · obtain ⟨snapshot, -, ha⟩ := List.exists_of_findSome?_eq_some hu
    obtain ⟨a, -, rfl⟩ := Option.map_eq_some_iff.1 ha
    exact ⟨u, rfl⟩

theorem isSubtype_eq (s : Store) (t u : TypeId) :
    s.isSubtype t u = (decide (t = u) || (s.older? t).any (s.isSubtype · u)) := by
  rw [isSubtype, older?]
  cases (s.type t).base with
  | none => rfl
  | some b =>
    by_cases hlt : b.index < t.index
    · simp [hlt]
    · simp [hlt]

theorem mem_chain_self (s : Store) (t : TypeId) : t ∈ s.chain t := by
  rw [chain_eq]
  exact List.mem_cons_self ..

theorem mem_chain_iff : u ∈ s.chain t ↔ u = t ∨ ∃ b, s.older? t = some b ∧ u ∈ s.chain b := by
  rw [chain_eq, List.mem_cons]
  cases s.older? t with
  | none => simp
  | some b => simp

theorem chain_suffix_of_mem (h : u ∈ s.chain t) : s.chain u <:+ s.chain t := by
  induction t using older_induction (s := s) with
  | step t ih =>
    rcases mem_chain_iff.1 h with rfl | ⟨b, hb, hu⟩
    · exact List.suffix_refl _
    · rw [chain_eq s t, hb]
      exact (ih b hb hu).trans (List.suffix_cons ..)

theorem index_le_of_mem_chain (h : u ∈ s.chain t) : u.index ≤ t.index := by
  induction t using older_induction (s := s) with
  | step t ih =>
    rcases mem_chain_iff.1 h with rfl | ⟨b, hb, hu⟩
    · exact Nat.le_refl _
    · exact Nat.le_trans (ih b hb hu) (Nat.le_of_lt (index_lt_of_older hb))

theorem eq_of_mem_chain (h : u ∈ s.chain t) (h' : t ∈ s.chain u) : u = t := by
  have hindex : u.index = t.index :=
    Nat.le_antisymm (index_le_of_mem_chain h) (index_le_of_mem_chain h')
  cases u
  cases t
  cases hindex
  rfl

theorem nodup_chain (s : Store) (t : TypeId) : (s.chain t).Nodup := by
  induction t using older_induction (s := s) with
  | step t ih =>
    rw [chain_eq]
    cases hb : s.older? t with
    | none => simp
    | some b =>
      refine List.nodup_cons.2 ⟨fun hmem => ?_, ih b hb⟩
      -- a type is younger than everything in the chain of its base
      have hle := index_le_of_mem_chain hmem
      have hlt := index_lt_of_older hb
      omega

theorem isChain_chain (s : Store) (t : TypeId) :
    (s.chain t).IsChain fun u b => (s.type u).base = some b := by
  induction t using older_induction (s := s) with
  | step t ih =>
    rw [chain_eq]
    cases hb : s.older? t with
    | none => exact .singleton t
    | some b =>
      have hchain := ih b hb
      rw [Option.elim_some]
      rw [chain_eq s b] at hchain ⊢
      exact .cons_cons (base_of_older hb) hchain

theorem isSubtype_iff_mem_chain : s.isSubtype t u = true ↔ u ∈ s.chain t := by
  induction t using older_induction (s := s) with
  | step t ih =>
    rw [isSubtype_eq, mem_chain_iff, Bool.or_eq_true, decide_eq_true_iff, eq_comm, Option.any_eq_true]
    refine or_congr_right (exists_congr fun b => and_congr_right fun hb => ?_)
    exact ih b hb

theorem chain_congr {s' : Store} (h : ∀ u ∈ s.chain t, s'.type u = s.type u) :
    s'.chain t = s.chain t := by
  induction t using older_induction (s := s) with
  | step t ih =>
    have holder : s'.older? t = s.older? t := by rw [older?, older?, h t (s.mem_chain_self t)]
    rw [chain_eq s', chain_eq s, holder]
    cases hb : s.older? t with
    | none => rfl
    | some b =>
      rw [Option.elim_some, Option.elim_some, ih b hb]
      exact fun u hu => h u (mem_chain_iff.2 (.inr ⟨b, hb, hu⟩))

theorem lookup_congr {s' : Store} (h : ∀ u ∈ s.chain t, s'.type u = s.type u) :
    s'.lookup t name = s.lookup t name := by
  induction t using older_induction (s := s) with
  | step t ih =>
    have htype := h t (s.mem_chain_self t)
    have holder : s'.older? t = s.older? t := by rw [older?, older?, htype]
    rw [lookup_eq s', lookup_eq s, htype, holder]
    cases hb : s.older? t with
    | none => rfl
    | some b =>
      rw [Option.bind_some, Option.bind_some, ih b hb]
      exact fun u hu => h u (mem_chain_iff.2 (.inr ⟨b, hb, hu⟩))

end Store

end ScriptMachine
