import ScriptMachine.Host.Holders
import ScriptMachine.Proofs.Engine.RenumberedMachine

namespace ScriptMachine

namespace Renumbering

/-- Bound methods from number `k` on move up by one. -/
def skip (k : Nat) : Renumbering where
  image id := if id.index < k then id else ⟨id.index + 1⟩
  injective {a b} h := by
    obtain ⟨i⟩ := a
    obtain ⟨j⟩ := b
    have hindex := congrArg Id.index h
    dsimp only at hindex
    congr 1
    split at hindex <;> split at hindex <;> dsimp only at hindex <;> omega

/-- Bound methods keep their numbers. -/
def same : Renumbering where
  image id := id
  injective h := h

/-- The bound methods among some cells keep their numbers. -/
def Fixes (ρ : Renumbering) (cells : List Cell) : Prop :=
  ∀ c ∈ cells, c.1 = .bound → ρ.image ⟨c.2⟩ = ⟨c.2⟩

theorem image_skip_of_lt {k : Nat} (id : BoundId) (h : id.index < k) : (skip k).image id = id :=
  if_pos h

theorem image_skip_of_le {k : Nat} {id : BoundId} (h : k ≤ id.index) :
    (skip k).image id = ⟨id.index + 1⟩ :=
  if_neg (Nat.not_lt_of_le h)

end Renumbering

section Fixed

variable {ρ : Renumbering}

theorem Value.renumber_of_fixes {vs : List Value} (h : ρ.Fixes (Store.cellsOf vs)) {v : Value}
    (hv : v ∈ vs) : v.renumber ρ = v := by
  cases v with
  | bound id =>
    have hcell : (CellKind.bound, id.index) ∈ Store.cellsOf vs :=
      List.mem_filterMap.2 ⟨.bound id, hv, rfl⟩
    exact congrArg Value.bound (h _ hcell rfl)
  | _ => rfl

theorem map_renumber_of_fixes {vs : List Value} (h : ρ.Fixes (Store.cellsOf vs)) :
    vs.map (Value.renumber ρ) = vs :=
  (List.map_congr_left fun _ hv => Value.renumber_of_fixes h hv).trans (List.map_id vs)

theorem Table.map_eq_self {α : Type} {f : α → α} {t : Table α} (h : ∀ v ∈ t.values, f v = v) :
    t.map f = t := by
  refine Table.ext ((List.map_congr_left fun e he => ?_).trans (List.map_id t.entries))
  rw [h e.2 (List.mem_map_of_mem he)]
  rfl

theorem Table.map_renumber_of_fixes {t : Table Value} (h : ρ.Fixes (Store.cellsOf t.values)) :
    t.map (Value.renumber ρ) = t :=
  Table.map_eq_self fun _ hv => Value.renumber_of_fixes h hv

theorem Attributes.renumber_of_fixes {as : Attributes} (h : ρ.Fixes (Store.attributeCells as)) :
    as.map (Attribute.renumber ρ) = as := by
  refine Table.map_eq_self fun a ha => ?_
  have hvalue := Value.renumber_of_fixes h (List.mem_map_of_mem ha)
  rw [Attribute.renumber, hvalue]

theorem map_eq_self_of_getD {α : Type} [Inhabited α] {f : α → α} {xs : Array α}
    (h : ∀ i < xs.size, f (xs.getD i default) = xs.getD i default) : xs.map f = xs := by
  refine Array.ext (Array.size_map ..) fun i hi hi' => ?_
  have hget := h i hi'
  rw [Array.getD_eq_getD_getElem?, Array.getElem?_eq_getElem hi'] at hget
  rw [Array.getElem_map]
  exact hget

@[simp] theorem Value.renumber_same (v : Value) : v.renumber .same = v := by
  cases v <;> rfl

theorem renumber_same_eq_id : Value.renumber .same = id :=
  funext Value.renumber_same

theorem Outcome.renumber_same (o : Outcome) : Outcome.renumber .same o = o := by
  cases o with
  | ok v => exact congrArg Except.ok v.renumber_same
  | error s =>
    cases s with
    | error fault => rfl
    | raise v => exact congrArg (fun w => Except.error (Signal.raise w)) v.renumber_same

theorem HostProgram.alike_same (p : HostProgram) : p.Alike .same p := by
  induction p with
  | finish outcome =>
    have h := Alike.finish (ρ := .same) outcome
    rwa [Outcome.renumber_same] at h
  | call callee this args next ih =>
    have hnext (o : Outcome) : (next o).Alike .same (next (Outcome.renumber .same o)) := by
      rw [Outcome.renumber_same]
      exact ih o
    have h := Alike.call callee this args hnext
    rwa [renumber_same_eq_id, Option.map_id, List.map_id] at h
  | callMethod receiver name args next ih =>
    have hnext (o : Outcome) : (next o).Alike .same (next (Outcome.renumber .same o)) := by
      rw [Outcome.renumber_same]
      exact ih o
    have h := Alike.callMethod receiver name args hnext
    rwa [renumber_same_eq_id, List.map_id] at h
  | newArray items next ih =>
    have hnext (v : Value) : (next v).Alike .same (next (v.renumber .same)) := by
      rw [Value.renumber_same]
      exact ih v
    have h := Alike.newArray items hnext
    rwa [renumber_same_eq_id, List.map_id] at h
  | typeName v next ih =>
    have h := Alike.typeName (ρ := .same) v ih
    rwa [Value.renumber_same] at h
  | readDatum id next ih => exact .readDatum id ih
  | writeDatum id d next ih => exact .writeDatum id d ih

theorem NativeBody.alike_same (body : NativeBody) : body.Alike .same body := by
  cases body with
  | method m => rfl
  | host p =>
    intro this args
    rw [Value.renumber_same, renumber_same_eq_id, List.map_id]
    exact (p this args).alike_same

end Fixed

section Store

variable {ρ : Renumbering} {n : Nat} {s : Store}

theorem Renumbering.Fixes.mono {cs ds : List Cell} (h : ρ.Fixes ds) (hsub : cs ⊆ ds) : ρ.Fixes cs :=
  fun c hc => h c (hsub hc)

/-- A store of which every cell keeps its numbers, beside one with other bound methods. -/
theorem Store.renumbers_of_fixes {bounds : Bounds}
    (hcells : ∀ c ∈ s.cells, ρ.Fixes (s.holds c))
    (hbound : ∀ id, ({ s with bounds } : Store).bound (ρ.image id) = (s.bound id).renumber ρ)
    (hfresh : ∀ j, ρ.image ⟨s.bounds.size + j⟩ = ⟨bounds.size + j⟩)
    (hnatives : ∀ f ∈ s.natives, f.body.Alike ρ f.body) (hn : n ≤ s.objects.size) :
    s.Renumbers ρ n { s with bounds } where
  arrays := by
    refine (map_eq_self_of_getD fun i hi => ?_).symm
    have h := hcells (.array, i) (by simp [Store.cells, hi])
    exact Array.toList_inj.1 ((Array.toList_map ..).trans (map_renumber_of_fixes h))
  maps := by
    refine (map_eq_self_of_getD fun i hi => ?_).symm
    exact Table.map_renumber_of_fixes (hcells (.map, i) (by simp [Store.cells, hi]))
  objects := by
    refine (map_eq_self_of_getD fun i hi => ?_).symm
    have h := hcells (.object, i) (by simp [Store.cells, hi])
    have hattributes := Attributes.renumber_of_fixes (h.mono (List.subset_cons_self ..))
    exact congrArg (Object.mk _) hattributes
  functions := by
    refine (map_eq_self_of_getD fun i hi => ?_).symm
    have h := hcells (.function, i) (by simp [Store.cells, hi])
    have hattributes := Attributes.renumber_of_fixes (h.mono (List.subset_cons_self ..))
    exact congrArg (Function.mk _) hattributes
  types := by
    refine (map_eq_self_of_getD fun i hi => ?_).symm
    have h := hcells (.type, i) (by simp [Store.cells, hi])
    have hattributes := Attributes.renumber_of_fixes
      (h.mono fun c hc => List.mem_append_left _ (List.mem_append_right _ hc))
    have htraits : (s.type ⟨i⟩).traits.map (Snapshot.renumber ρ) = (s.type ⟨i⟩).traits := by
      refine (List.map_congr_left fun t ht => ?_).trans (List.map_id _)
      have ht := Attributes.renumber_of_fixes
        (h.mono fun c hc => List.mem_append_right _ (List.mem_flatMap.2 ⟨t, ht, hc⟩))
      exact congrArg (Snapshot.mk _) ht
    exact congrArg₂ (TypeCell.mk _ _) hattributes htraits
  traits := by
    refine (map_eq_self_of_getD fun i hi => ?_).symm
    have h := hcells (.trait, i) (by simp [Store.cells, hi])
    exact congrArg (Trait.mk _) (Attributes.renumber_of_fixes h)
  hosted := rfl
  statics := by
    refine (map_eq_self_of_getD fun i hi => ?_).symm
    have h := hcells (.statics, i) (by simp [Store.cells, hi])
    refine congrArg (Statics.mk _) (Array.toList_inj.1 ?_)
    rw [Array.toList_map]
    refine (List.map_congr_left fun e he => ?_).trans (List.map_id _)
    obtain ⟨name, v⟩ := e
    cases v with
    | none => rfl
    | some v =>
      have hv : v ∈ (s.staticsCell ⟨i⟩).slots.toList.filterMap Prod.snd :=
        List.mem_filterMap.2 ⟨_, he, rfl⟩
      exact congrArg (fun w => (name, some w)) (Value.renumber_of_fixes h hv)
  bound := hbound
  fresh := hfresh
  native id := by
    refine ⟨rfl, rfl, rfl, ?_⟩
    change (s.native id).body.Alike ρ (s.native id).body
    rw [Store.native, Array.getD_eq_getD_getElem?]
    cases hf : s.natives[id.index]? with
    | none => rfl
    | some f => exact hnatives f (Array.mem_of_getElem? hf)
  enough := hn

end Store

section Machine

variable {ρ : Renumbering} {n : Nat} {m : Machine}

theorem Frame.renumber_of_fixes {f : Frame} (h : ρ.Fixes f.holds) : f.renumber ρ = f := by
  have hthis : f.this.renumber ρ = f.this := Value.renumber_of_fixes h (by simp)
  have hlocals : f.locals.map (Value.renumber ρ) = f.locals := by
    refine Array.toList_inj.1 ?_
    rw [Array.toList_map]
    exact (List.map_congr_left fun v hv => Value.renumber_of_fixes h (by simp [hv])).trans
      (List.map_id _)
  have hconstructing : f.constructing.map (Value.renumber ρ) = f.constructing := by
    cases hc : f.constructing with
    | none => rfl
    | some v => exact congrArg some (Value.renumber_of_fixes h (by simp [hc]))
  rw [Frame.renumber, hthis, hlocals, hconstructing]

theorem Machine.renumbers_of_fixes {store : Store} (hroots : ρ.Fixes m.roots)
    (hstore : m.store.Renumbers ρ n store) : m.Renumbers ρ n { m with store } where
  store := hstore
  globals := by
    refine (Table.map_renumber_of_fixes (hroots.mono fun c hc => ?_)).symm
    simp [Machine.roots, hc]
  frames := by
    refine ((List.map_congr_left fun f hf => ?_).trans (List.map_id m.frames)).symm
    refine Frame.renumber_of_fixes (hroots.mono fun c hc => ?_)
    have hframe : c ∈ m.frames.flatMap Frame.holds := List.mem_flatMap.2 ⟨f, hf, hc⟩
    simp only [Machine.roots, List.mem_append, hframe, or_true, true_or]
  stack := by
    refine (map_renumber_of_fixes (hroots.mono fun c hc => ?_)).symm
    simp [Machine.roots, hc]
  config := rfl
  guard := rfl
  guarded := rfl
  executed := rfl
  raiseTrace := rfl
  raisePosition := rfl
  loads := rfl

theorem Machine.renumbers_same (m : Machine) (hn : n ≤ m.store.objects.size) :
    m.Renumbers .same n m := by
  have hbound (b : Bound) : b.renumber .same = b :=
    congrArg₂ Bound.mk b.receiver.renumber_same b.method.renumber_same
  refine Machine.renumbers_of_fixes (fun _ _ _ => rfl) (Store.renumbers_of_fixes
    (fun _ _ _ _ _ => rfl) (fun id => ?_) (fun _ => rfl) (fun f _ => f.body.alike_same) hn)
  exact (hbound _).symm

/-- A bound method is not named anywhere before it is made, and native functions, which see bound
methods as handles, do the same whatever their numbers are. -/
structure Machine.Anchored (m : Machine) : Prop where
  roots : ∀ c ∈ m.roots, c.1 = .bound → c.2 < m.store.bounds.size
  cells : ∀ c ∈ m.store.cells, ∀ d ∈ m.store.holds c, d.1 = .bound → d.2 < m.store.bounds.size
  natives : ∀ f ∈ m.store.natives, f.body.Alike (.skip m.store.bounds.size) f.body

/-- One bound method more makes no difference but in the numbers of those that come after it. -/
theorem Machine.Anchored.renumbers (h : m.Anchored) (b : Bound)
    (hold : b.method.BoundBelow m.store.bounds.size) :
    m.Renumbers (.skip m.store.bounds.size) 0 { m with store := (m.store.newBound b hold).2 } := by
  have hcells : ∀ c ∈ m.store.cells,
      (Renumbering.skip m.store.bounds.size).Fixes (m.store.holds c) := fun c hc d hd hb =>
    Renumbering.image_skip_of_lt ⟨d.2⟩ (h.cells c hc d hd hb)
  refine Machine.renumbers_of_fixes
    (fun c hc hb => Renumbering.image_skip_of_lt ⟨c.2⟩ (h.roots c hc hb))
    (Store.renumbers_of_fixes hcells (fun id => ?_) (fun j => ?_) h.natives (Nat.zero_le _))
  · change ((m.store.bounds.push b hold).get _) = _
    rw [Bounds.get_push]
    by_cases hid : id.index < m.store.bounds.size
    · have hsame : (m.store.bound id).renumber (.skip m.store.bounds.size) = m.store.bound id := by
        have hbound := hcells (.bound, id.index) (by simp [Store.cells, hid])
        exact congrArg₂ Bound.mk (Value.renumber_of_fixes hbound List.mem_cons_self)
          (Value.renumber_of_fixes hbound (List.mem_cons_of_mem _ List.mem_cons_self))
      rw [hsame, Renumbering.image_skip_of_lt id hid, if_neg (Nat.ne_of_lt hid)]
      rfl
    · have hdefault : m.store.bound id = default := Bounds.get_of_size_le (Nat.le_of_not_lt hid)
      rw [hdefault, Renumbering.image_skip_of_le (Nat.le_of_not_lt hid), if_neg (by dsimp only; omega),
        Bounds.get_of_size_le (by dsimp only; omega)]
      rfl
  · rw [Renumbering.image_skip_of_le (Nat.le_add_right _ _), Bounds.size_push, Nat.add_right_comm]

end Machine

end ScriptMachine
