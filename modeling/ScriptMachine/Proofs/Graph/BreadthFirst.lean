import Mathlib.Data.List.Induction
import ScriptMachine.Proofs.Graph.Reach

namespace ScriptMachine

namespace Value

/-- The containers in a list, each where it occurs first. -/
def firstContainers (l : List Value) : List Value :=
  (l.filter isContainer).eraseDups

/-- Why graphs have no form for the value. -/
def refusal? : Value → Option CodecError
  | void | bool _ | string _ | type _ | array _ | map _ | object _ => none
  | number n => if n.isFinite then none else some (.nonFinite n)
  | w => some (.unsupported w.kindName)

theorem refusal?_eq_none_iff {w : Value} : w.refusal? = none ↔ w.Encodable := by
  cases w <;> simp [refusal?, Encodable]

theorem beq_iff_of_isContainer {a b : Value} (hb : b.isContainer = true) :
    (a == b) = true ↔ a = b := by
  change a.same b = true ↔ a = b
  cases b <;> cases hb <;> cases a <;> simp [same]

end Value

theorem eraseDupsBy_loop_concat {α : Type} (r : α → α → Bool) (l acc : List α) (a : α) :
    List.eraseDupsBy.loop r (l ++ [a]) acc =
      if (List.eraseDupsBy.loop r l acc).any (r a) then List.eraseDupsBy.loop r l acc
      else List.eraseDupsBy.loop r l acc ++ [a] := by
  induction l generalizing acc with
  | nil =>
    simp only [List.nil_append, List.eraseDupsBy.loop, List.any_reverse]
    cases acc.any (r a) <;> simp
  | cons b l ih =>
    simp only [List.cons_append, List.eraseDupsBy.loop]
    by_cases hb : acc.any (r b) = true
    · simp only [hb]
      exact ih acc
    · rw [Bool.not_eq_true] at hb
      simp only [hb]
      exact ih (b :: acc)

section Firsts

open Value

variable {l l' m : List Value} {w c : Value}

theorem firstContainers_concat_of_plain (hw : w.isContainer = false) (l : List Value) :
    firstContainers (l ++ [w]) = firstContainers l := by
  simp [firstContainers, hw]

theorem firstContainers_concat (hw : w.isContainer = true) (l : List Value) :
    firstContainers (l ++ [w]) =
      if (firstContainers l).any (w == ·) then firstContainers l else firstContainers l ++ [w] := by
  rw [firstContainers, List.filter_append, List.filter_cons_of_pos hw]
  exact eraseDupsBy_loop_concat (· == ·) _ [] w

theorem isContainer_of_mem_firstContainers (h : c ∈ firstContainers l) : c.isContainer = true := by
  induction l using List.reverseRecOn with
  | nil => cases h
  | append_singleton l w ih =>
    cases hw : w.isContainer with
    | false => exact ih (firstContainers_concat_of_plain hw l ▸ h)
    | true =>
      rw [firstContainers_concat hw] at h
      split at h
      · exact ih h
      · rcases List.mem_append.1 h with h | h
        · exact ih h
        · rw [List.mem_singleton.1 h, hw]

theorem any_firstContainers : (firstContainers l).any (w == ·) = true ↔ w ∈ firstContainers l := by
  rw [List.any_eq_true]
  constructor
  · rintro ⟨c, hc, heq⟩
    rwa [(beq_iff_of_isContainer (isContainer_of_mem_firstContainers hc)).1 heq]
  · intro hw
    exact ⟨w, hw, (beq_iff_of_isContainer (isContainer_of_mem_firstContainers hw)).2 rfl⟩

theorem firstContainers_concat_of_mem (hw : w ∈ firstContainers l) :
    firstContainers (l ++ [w]) = firstContainers l := by
  rw [firstContainers_concat (isContainer_of_mem_firstContainers hw), if_pos (any_firstContainers.2 hw)]

theorem firstContainers_concat_of_notMem (hw : w.isContainer = true) (hnew : w ∉ firstContainers l) :
    firstContainers (l ++ [w]) = firstContainers l ++ [w] := by
  rw [firstContainers_concat hw, if_neg fun h => hnew (any_firstContainers.1 h)]

theorem mem_firstContainers : c ∈ firstContainers l ↔ c ∈ l ∧ c.isContainer = true := by
  induction l using List.reverseRecOn with
  | nil => simp [firstContainers]
  | append_singleton l w ih =>
    rw [List.mem_append, List.mem_singleton, or_and_right, ← ih]
    cases hw : w.isContainer with
    | false =>
      rw [firstContainers_concat_of_plain hw]
      exact ⟨.inl, fun h => h.resolve_right fun h => by simp [h.1, hw] at h⟩
    | true =>
      by_cases hmem : w ∈ firstContainers l
      · rw [firstContainers_concat_of_mem hmem]
        exact ⟨.inl, fun h => h.elim id fun h => h.1 ▸ hmem⟩
      · rw [firstContainers_concat_of_notMem hw hmem, List.mem_append, List.mem_singleton]
        exact or_congr_right ⟨fun h => ⟨h, h ▸ hw⟩, fun h => h.1⟩

theorem nodup_firstContainers (l : List Value) : (firstContainers l).Nodup := by
  induction l using List.reverseRecOn with
  | nil => exact List.nodup_nil
  | append_singleton l w ih =>
    cases hw : w.isContainer with
    | false => rwa [firstContainers_concat_of_plain hw]
    | true =>
      by_cases hmem : w ∈ firstContainers l
      · rwa [firstContainers_concat_of_mem hmem]
      · rw [firstContainers_concat_of_notMem hw hmem, List.nodup_append]
        refine ⟨ih, List.pairwise_singleton _ w, fun a ha b hb hab => hmem ?_⟩
        rwa [← List.mem_singleton.1 hb, ← hab]

theorem firstContainers_prefix_append (l m : List Value) :
    firstContainers l <+: firstContainers (l ++ m) := by
  induction m using List.reverseRecOn with
  | nil => simp
  | append_singleton m w ih =>
    rw [← List.append_assoc]
    refine ih.trans ?_
    cases hw : w.isContainer with
    | false => simp only [firstContainers_concat_of_plain hw, List.prefix_rfl]
    | true =>
      rw [firstContainers_concat hw]
      split
      · exact List.prefix_rfl
      · exact List.prefix_append ..

theorem prefix_firstContainers (h : l <+: l') : firstContainers l <+: firstContainers l' := by
  obtain ⟨m, rfl⟩ := h
  exact firstContainers_prefix_append l m

/-- `l'` is `l` without some of the elements that stand further in front already. -/
inductive Thinned : List Value → List Value → Prop
  | nil : Thinned [] []
  | keep {l l' : List Value} {w : Value} (h : Thinned l l') : Thinned (l ++ [w]) (l' ++ [w])
  | drop {l l' : List Value} {w : Value} (h : Thinned l l') (hw : w ∈ l') : Thinned (l ++ [w]) l'

theorem Thinned.append (h : Thinned l l') (m : List Value) : Thinned (l ++ m) (l' ++ m) := by
  induction m using List.reverseRecOn with
  | nil => rwa [List.append_nil, List.append_nil]
  | append_singleton m w ih =>
    rw [← List.append_assoc, ← List.append_assoc]
    exact ih.keep

theorem Thinned.append_of_subset (h : Thinned l l') (hm : ∀ w ∈ m, w ∈ l') :
    Thinned (l ++ m) l' := by
  induction m using List.reverseRecOn with
  | nil => rwa [List.append_nil]
  | append_singleton m w ih =>
    rw [← List.append_assoc]
    refine (ih fun u hu => hm u (List.mem_append_left _ hu)).drop (hm w ?_)
    exact List.mem_append_right _ (List.mem_singleton_self w)

theorem Thinned.firstContainers_eq (h : Thinned l l') : firstContainers l = firstContainers l' := by
  induction h with
  | nil => rfl
  | @keep l l' w _ ih =>
    cases hw : w.isContainer with
    | false => rw [firstContainers_concat_of_plain hw, firstContainers_concat_of_plain hw, ih]
    | true => rw [firstContainers_concat hw, firstContainers_concat hw, ih]
  | @drop l l' w _ hmem ih =>
    cases hw : w.isContainer with
    | false => rw [firstContainers_concat_of_plain hw, ih]
    | true =>
      have hfirst : w ∈ firstContainers l := by
        rw [ih]
        exact mem_firstContainers.2 ⟨hmem, hw⟩
      rw [firstContainers_concat_of_mem hfirst, ih]

theorem Thinned.findSome?_eq {α : Type} (f : Value → Option α) (h : Thinned l l') :
    l.findSome? f = l'.findSome? f := by
  induction h with
  | nil => rfl
  | keep _ ih => rw [List.findSome?_append, List.findSome?_append, ih]
  | @drop l l' w _ hmem ih =>
    rw [List.findSome?_append, ih]
    cases hfound : l'.findSome? f with
    | some a => rfl
    | none =>
      rw [List.findSome?_eq_none_iff] at hfound
      simp [hfound w hmem]

end Firsts

namespace Store

/-- What is reached from `v` in `n` steps, in order, and as often as there are ways to it. -/
def level (s : Store) (v : Value) : Nat → List Value
  | 0 => [v]
  | n + 1 => (s.level v n).flatMap s.contents

/-- The first `n` levels, one after the other. -/
def levels (s : Store) (v : Value) (n : Nat) : List Value :=
  (List.range n).flatMap (s.level v)

/-- The containers that a search level by level comes upon, in the order of discovery. -/
def BreadthFirst (s : Store) (v : Value) (order : List Value) : Prop :=
  ∃ n, ∀ m, n ≤ m → Value.firstContainers (s.levels v m) = order

variable {s : Store} {v w : Value} {n : Nat} {l order : List Value}

theorem levels_succ (s : Store) (v : Value) (n : Nat) :
    s.levels v (n + 1) = v :: (s.levels v n).flatMap s.contents := by
  have hsplit (n : Nat) : s.levels v (n + 1) = s.levels v n ++ s.level v n := by
    simp [levels, List.range_succ]
  induction n with
  | zero => rfl
  | succ n ih =>
    calc s.levels v (n + 2) = s.levels v (n + 1) ++ s.level v (n + 1) := hsplit (n + 1)
      _ = v :: (s.levels v n).flatMap s.contents ++ (s.level v n).flatMap s.contents := by
        rw [ih, level]
      _ = v :: (s.levels v n ++ s.level v n).flatMap s.contents := by
        rw [List.flatMap_append, List.cons_append]
      _ = v :: (s.levels v (n + 1)).flatMap s.contents := by rw [hsplit n]

theorem levels_prefix_of_le {m : Nat} (h : n ≤ m) : s.levels v n <+: s.levels v m := by
  obtain ⟨k, rfl⟩ := Nat.exists_eq_add_of_le h
  rw [levels, levels, List.range_add, List.flatMap_append]
  exact List.prefix_append ..

theorem reach_of_mem_levels (h : w ∈ s.levels v n) : s.Reach v w := by
  induction n generalizing w with
  | zero => cases h
  | succ n ih =>
    rw [levels_succ] at h
    rcases List.mem_cons.1 h with rfl | h
    · exact .refl
    · obtain ⟨c, hc, hw⟩ := List.mem_flatMap.1 h
      exact (ih hc).step hw

theorem contents_of_plain (h : w.isContainer = false) : s.contents w = [] := by
  cases w <;> first | rfl | cases h

theorem thinned_flatMap (s : Store) (v : Value) (l : List Value) :
    Thinned (v :: l.flatMap s.contents) (v :: (Value.firstContainers l).flatMap s.contents) := by
  induction l using List.reverseRecOn with
  | nil => exact Thinned.nil.keep (w := v)
  | append_singleton l w ih =>
    rw [List.flatMap_append, List.flatMap_singleton, ← List.cons_append]
    cases hw : w.isContainer with
    | false =>
      rw [firstContainers_concat_of_plain hw, contents_of_plain hw, List.append_nil]
      exact ih
    | true =>
      by_cases hmem : w ∈ Value.firstContainers l
      · -- it was listed before, and what it holds was listed with it
        rw [firstContainers_concat_of_mem hmem]
        refine ih.append_of_subset fun u hu => List.mem_cons_of_mem _ ?_
        exact List.mem_flatMap.2 ⟨w, hmem, hu⟩
      · rw [firstContainers_concat_of_notMem hw hmem, List.flatMap_append, List.flatMap_singleton,
          ← List.cons_append]
        exact ih.append _

theorem firstContainers_levels_succ (s : Store) (v : Value) (n : Nat) :
    Value.firstContainers (s.levels v (n + 1)) =
      Value.firstContainers (v :: (Value.firstContainers (s.levels v n)).flatMap s.contents) := by
  rw [levels_succ, (s.thinned_flatMap v _).firstContainers_eq]

theorem prefix_flatMap_contents (s : Store) (v : Value) {l' : List Value} (h : l <+: l') :
    v :: l.flatMap s.contents <+: v :: l'.flatMap s.contents := by
  obtain ⟨rest, rfl⟩ := h
  rw [List.flatMap_append, ← List.cons_append]
  exact List.prefix_append ..

/-- What the first containers lead to is discovered one level later. -/
theorem firstContainers_prefix_levels (h : l <+: Value.firstContainers (s.levels v n)) :
    Value.firstContainers (v :: l.flatMap s.contents) <+:
      Value.firstContainers (s.levels v (n + 1)) := by
  rw [firstContainers_levels_succ]
  exact prefix_firstContainers (s.prefix_flatMap_contents v h)

theorem findSome?_levels {α : Type} {f : Value → Option α} {a : α}
    (h : l <+: Value.firstContainers (s.levels v n))
    (ha : (v :: l.flatMap s.contents).findSome? f = some a) :
    (s.levels v (n + 1)).findSome? f = some a := by
  rw [levels_succ, (s.thinned_flatMap v _).findSome?_eq]
  exact (s.prefix_flatMap_contents v h).findSome?_eq_some ha

/-- Containers that are all discovered, and lead to no others, are the order of discovery. -/
theorem breadthFirst_of_closed (hclosed : order = Value.firstContainers (v :: order.flatMap s.contents))
    (hnear : order <+: Value.firstContainers (s.levels v n)) : s.BreadthFirst v order := by
  have hwithin (m : Nat) : Value.firstContainers (s.levels v m) <+: order := by
    induction m with
    | zero => exact List.nil_prefix
    | succ m ih =>
      rw [firstContainers_levels_succ, hclosed]
      exact prefix_firstContainers (s.prefix_flatMap_contents v ih)
  refine ⟨n, fun m hm => ?_⟩
  have hgrow := prefix_firstContainers (levels_prefix_of_le (s := s) (v := v) hm)
  exact (hwithin m).eq_of_length_le (hnear.trans hgrow).length_le

end Store

end ScriptMachine
