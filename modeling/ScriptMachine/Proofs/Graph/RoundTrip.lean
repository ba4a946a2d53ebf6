import Mathlib.Data.List.Perm.Subperm
import Mathlib.Data.Set.Function
import ScriptMachine.Proofs.Graph.Rebuilt

namespace ScriptMachine

open List (Forall₂)

section Closed

variable {s : Store} {v : Value} {order : List Value}

theorem NodeFor.mem {w : Value} {n : Node} (hn : NodeFor s order w n) (hw : w.isContainer = true) :
    w ∈ order := by
  cases hn with
  | ref _ h => exact List.mem_of_getElem? h
  | _ => cases hw

theorem RecordFor.exists_node {c w : Value} {r : Record} (hr : RecordFor s order c r)
    (hw : w ∈ s.contents c) : ∃ n, NodeFor s order w n := by
  cases hr with
  | array h =>
    obtain ⟨i, hi⟩ := List.getElem?_of_mem hw
    obtain ⟨n, -, hn⟩ := exists_getElem?_of_forall₂ h hi
    exact ⟨n, hn⟩
  | map h =>
    obtain ⟨e, he, rfl⟩ := List.mem_map.1 hw
    obtain ⟨i, hi⟩ := List.getElem?_of_mem he
    obtain ⟨f, -, -, hn⟩ := exists_getElem?_of_forall₂ h hi
    exact ⟨f.value, hn⟩
  | object h =>
    obtain ⟨e, he, rfl⟩ := List.mem_map.1 hw
    obtain ⟨i, hi⟩ := List.getElem?_of_mem he
    obtain ⟨f, -, -, -, -, hn⟩ := exists_getElem?_of_forall₂ h hi
    exact ⟨f.value, hn⟩

theorem Graph.Shows.mem_order {g : Graph} (hg : g.Shows s v order) {w : Value}
    (hw : s.Reach v w) : w.isContainer = true → w ∈ order := by
  induction hw with
  | refl => exact hg.root.mem
  | @step c w _ hmem ih =>
    obtain ⟨i, hi⟩ := List.getElem?_of_mem (ih (Store.isContainer_of_mem_contents hmem))
    obtain ⟨r, -, hr⟩ := exists_getElem?_of_forall₂ hg.records hi
    obtain ⟨n, hn⟩ := hr.exists_node hmem
    exact hn.mem

theorem Graph.Describes.not_tooMany {g : Graph} (hg : g.Describes s v order) : ¬ s.TooMany v := by
  rintro ⟨l, hnodup, hlong, hl⟩
  have hsub : l ⊆ order := fun c hc => hg.toShows.mem_order (hl c hc).2 (hl c hc).1
  have hle : l.length ≤ order.length := (List.subperm_of_subset hnodup hsub).length_le
  have := hg.limit
  omega

end Closed

/-- The containers that are reached from `v`, itself included. -/
def Store.containers (s : Store) (v : Value) : Set Value :=
  {c | s.Reach v c ∧ c.isContainer = true}

/-- Between `t` and `t'` everything that `v` reaches in `s` was copied, and `root` is the copy of
`v`. Copies of containers are new and one to one; each has its own kind and the contents of the
original, every value in it replaced by its copy. -/
structure Store.IsCopy (s : Store) (v : Value) (φ : Value → Value) (t t' : Store) (root : Value) :
    Prop where
  top : φ v = root
  plain : ∀ w, s.Reach v w → w.isContainer = false → φ w = w
  cell : ∀ c ∈ s.containers v, t'.cell? (φ c) = s.copied φ c
  bij : Set.BijOn φ (s.containers v) (t'.containers root)
  fresh : ∀ x ∈ t'.containers root, t.cell? x = none
  kept : ∀ y, t.cell? y ≠ none → t'.cell? y = t.cell? y

section Walks

variable {s t' : Store} {v root : Value} {φ : Value → Value}

theorem Store.exists_copied (s : Store) (φ : Value → Value) {c : Value} (hc : c.isContainer = true) :
    ∃ cell, s.copied φ c = some cell := by
  cases c <;> first | exact ⟨_, rfl⟩ | cases hc

theorem Store.Reach.copied (hroot : φ v = root)
    (hcell : ∀ c ∈ s.containers v, t'.cell? (φ c) = s.copied φ c) {w : Value} (hw : s.Reach v w) :
    t'.Reach root (φ w) := by
  induction hw with
  | refl =>
    rw [hroot]
    exact .refl
  | @step c w hc hmem ih =>
    have hcontainer := isContainer_of_mem_contents hmem
    refine ih.step ?_
    rw [contents_of_copied hcontainer (hcell c ⟨hc, hcontainer⟩)]
    exact List.mem_map_of_mem hmem

theorem Store.Reach.exists_original (hroot : φ v = root)
    (hplain : ∀ w, s.Reach v w → w.isContainer = false → φ w = w)
    (hcell : ∀ c ∈ s.containers v, t'.cell? (φ c) = s.copied φ c) {x : Value}
    (hx : t'.Reach root x) : ∃ w, s.Reach v w ∧ φ w = x := by
  induction hx with
  | refl => exact ⟨v, .refl, hroot⟩
  | @step _ y _ hmem ih =>
    obtain ⟨c, hc, rfl⟩ := ih
    -- anything else is its own copy, and holds nothing
    have hcontainer : c.isContainer = true := by
      by_contra hnot
      have hself := hplain c hc (Bool.eq_false_iff.2 hnot)
      rw [hself] at hmem
      exact hnot (isContainer_of_mem_contents hmem)
    rw [contents_of_copied hcontainer (hcell c ⟨hc, hcontainer⟩)] at hmem
    obtain ⟨w, hw, rfl⟩ := List.mem_map.1 hmem
    exact ⟨w, hc.step hw, rfl⟩

/-- One to one on the containers, and copying each of them: that is a bijection. -/
theorem Store.bijOn_containers (hroot : φ v = root)
    (hplain : ∀ w, s.Reach v w → w.isContainer = false → φ w = w)
    (hcell : ∀ c ∈ s.containers v, t'.cell? (φ c) = s.copied φ c)
    (hinj : Set.InjOn φ (s.containers v)) :
    Set.BijOn φ (s.containers v) (t'.containers root) := by
  refine ⟨fun c hc => ?_, hinj, fun x hx => ?_⟩
  · obtain ⟨cell, hsome⟩ := s.exists_copied φ hc.2
    exact ⟨hc.1.copied hroot hcell, isContainer_of_cell ((hcell c hc).trans hsome)⟩
  · obtain ⟨c, hc, rfl⟩ := Store.Reach.exists_original hroot hplain hcell hx.1
    refine ⟨c, ⟨hc, ?_⟩, rfl⟩
    by_contra hnot
    have hself := hplain c hc (Bool.eq_false_iff.2 hnot)
    rw [hself] at hx
    exact hnot hx.2

end Walks

section Decoded

variable {s : Store} {v : Value} {order : List Value} {g : Graph} {lookup : TypeLookup}

/-- What a graph shows, decoding copies. -/
theorem Graph.Shows.isCopy (hg : g.Shows s v order)
    (hroot : ∀ ty, v = .type ty → lookup (s.typeName ty) = some ty)
    (hfound : ∀ c ∈ order, ∀ ty, s.Mentions c ty → lookup (s.typeName ty) = some ty) (t : Store) :
    ∃ d t' φ, g.decode lookup t = .ok d t' ∧ s.IsCopy v φ t t' d.root := by
  obtain ⟨vs, d, t', hdecode, hroot, hcopies, hnodup, hfresh, hsame⟩ :=
    hg.decode_spec hroot hfound t
  -- a container and its copy have the same place, one in `order` and the other in `vs`
  have hplace : ∀ c ∈ s.containers v, ∃ i : Nat, order[i]? = some c ∧
      vs[i]? = some (image order vs c) ∧
      t'.cell? (image order vs c) = s.copied (image order vs) c := by
    intro c hc
    obtain ⟨i, hi⟩ := List.getElem?_of_mem (hg.mem_order hc.1 hc.2)
    obtain ⟨x, hx, hcell⟩ := exists_getElem?_of_forall₂ hcopies hi
    have himage := image_of_getElem? hg.nodup hg.containers hi hx
    rw [himage]
    exact ⟨i, hi, hx, hcell⟩
  have hcell : ∀ c ∈ s.containers v,
      t'.cell? (image order vs c) = s.copied (image order vs) c := by
    intro c hc
    obtain ⟨_, _, _, hcell⟩ := hplace c hc
    exact hcell
  have hplain : ∀ w, s.Reach v w → w.isContainer = false → image order vs w = w :=
    fun _ _ => image_of_not_isContainer
  have hinj : Set.InjOn (image order vs) (s.containers v) := by
    intro c hc c' hc' heq
    obtain ⟨i, hi, hx, -⟩ := hplace c hc
    obtain ⟨j, hj, hy, -⟩ := hplace c' hc'
    have hlt : i < vs.length := (List.getElem?_eq_some_iff.1 hx).1
    have hij : i = j := (List.getElem?_inj hlt hnodup).1 (by rw [hx, hy, heq])
    rw [hij, hj] at hi
    exact (Option.some.inj hi).symm
  have hbij := Store.bijOn_containers hroot.symm hplain hcell hinj
  refine ⟨d, t', image order vs, hdecode, hroot.symm, hplain, hcell, hbij, ?_, ?_⟩
  · intro x hx
    obtain ⟨c, hc, rfl⟩ := hbij.surjOn hx
    obtain ⟨_, _, hmem, _⟩ := hplace c hc
    exact hfresh _ (List.mem_of_getElem? hmem)
  · intro y hy
    exact hsame y fun hmem => hy (hfresh y hmem)

theorem Graph.Describes.isCopy (hg : g.Describes s v order)
    (hfound : ∀ ty, s.Occurs v ty → lookup (s.typeName ty) = some ty) (t : Store) :
    ∃ d t' φ, g.decode lookup t = .ok d t' ∧ s.IsCopy v φ t t' d.root :=
  hg.toShows.isCopy (fun ty hty => hfound ty (.inl (hty ▸ .refl)))
    (fun c hc ty hty => hfound ty (hty.occurs (hg.reached c hc))) t

end Decoded

/-- Decoding what was encoded makes a copy of it. Encoding fails only when there are more containers
than numbers for them. -/
theorem decode_encode (s t : Store) (v : Value) (lookup : TypeLookup)
    (hv : ∀ w, s.Reach v w → w.Encodable)
    (hfound : ∀ ty, s.Occurs v ty → lookup (s.typeName ty) = some ty) :
    s.TooMany v ∧ s.encode v = .error .idsExhausted ∨
      ¬ s.TooMany v ∧ ∃ g d t' φ, s.encode v = .ok g ∧ g.decode lookup t = .ok d t' ∧
        s.IsCopy v φ t t' d.root := by
  rcases Store.encode_spec hv with ⟨g, order, hencode, hg⟩ | ⟨hencode, hmany⟩
  · obtain ⟨d, t', φ, hdecode, hcopy⟩ := hg.isCopy hfound t
    exact .inr ⟨hg.not_tooMany, g, d, t', φ, hencode, hdecode, hcopy⟩
  · exact .inl ⟨hmany, hencode⟩

/-- A list that holds itself and, twice, an object of the type `node` that points back to it. -/
def knot : Store where
  arrays := #[#[.array ⟨0⟩, .object ⟨0⟩, .object ⟨0⟩]]
  objects := #[⟨⟨0⟩, ⟨[("list", ⟨.array ⟨0⟩, { isPrivate := true }⟩),
    ("kind", ⟨.type ⟨0⟩, { isConstant := true, isInit := true }⟩), ("text", ⟨.string "knot", {}⟩)],
    by decide⟩⟩]
  types := #[{ name := "node", base := none }]

theorem reach_knot {w : Value} (hw : knot.Reach (.array ⟨0⟩) w) :
    w = .array ⟨0⟩ ∨ w = .object ⟨0⟩ ∨ w = .type ⟨0⟩ ∨ w = .string "knot" := by
  induction hw with
  | refl => exact .inl rfl
  | step _ hmem ih =>
    have hlist : knot.contents (.array ⟨0⟩) = [.array ⟨0⟩, .object ⟨0⟩, .object ⟨0⟩] := rfl
    have hobject : knot.contents (.object ⟨0⟩) = [.array ⟨0⟩, .type ⟨0⟩, .string "knot"] := rfl
    rcases ih with rfl | rfl | rfl | rfl
    · rw [hlist] at hmem
      grind
    · rw [hobject] at hmem
      grind
    · cases hmem
    · cases hmem

def knotTypes : TypeLookup := fun name => if name = "node" then some ⟨0⟩ else none

theorem decode_encode_knot :
    ∃ g d t' φ, knot.encode (.array ⟨0⟩) = .ok g ∧
      g.decode knotTypes knot = .ok d t' ∧
      knot.IsCopy (.array ⟨0⟩) φ knot t' d.root := by
  have hv : ∀ w, knot.Reach (.array ⟨0⟩) w → w.Encodable := by
    intro w hw
    rcases reach_knot hw with rfl | rfl | rfl | rfl <;> exact trivial
  have hfound : ∀ ty, knot.Occurs (.array ⟨0⟩) ty → knotTypes (knot.typeName ty) = some ty := by
    rintro ty (hty | ⟨id, hid, rfl⟩)
    · rcases reach_knot hty with h | h | h | h <;> cases h
      rfl
    · rcases reach_knot hid with h | h | h | h <;> cases h
      rfl
  rcases decode_encode knot knot (.array ⟨0⟩) knotTypes hv hfound with ⟨-, hfail⟩ | ⟨-, hcopy⟩
  · cases hfail
  · exact hcopy

end ScriptMachine
