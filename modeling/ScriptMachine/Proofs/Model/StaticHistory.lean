import ScriptMachine.Proofs.Model.StaticSlots

namespace ScriptMachine

/-- What happens to functions and to their static slots. -/
inductive Event where
  /-- The function `f` gets a block of its own with a number of slots: a fragment is loaded, or the
  host makes a block. -/
  | loaded (f : FunctionId) (slots : Nat)
  /-- The function `f` is made from another one: a closure, a clone or an instance of its code. -/
  | derived (f parent : FunctionId)
  /-- The function `f` assigns one of its static slots. -/
  | stored (f : FunctionId) (slot : Nat) (v : Value)
  /-- The references of `f` are broken. -/
  | cleared (f : FunctionId)

/-- Events, latest first. -/
abbrev History := List Event

namespace History

/-- The loaded function that a function comes from. -/
def origin : History → FunctionId → Option FunctionId
  | [], _ => none
  | .loaded f _ :: h, g => if g = f then some f else origin h g
  | .derived f parent :: h, g => if g = f then origin h parent else origin h g
  | .stored .. :: h, g => origin h g
  | .cleared _ :: h, g => origin h g

/-- The number of slots that a function was loaded with. -/
def slots : History → FunctionId → Nat
  | [], _ => 0
  | .loaded f n :: h, root => if root = f then n else slots h root
  | .derived .. :: h, root => slots h root
  | .stored .. :: h, root => slots h root
  | .cleared _ :: h, root => slots h root

/-- What the functions that come from `root` last assigned to a slot, since its load and since the
references of one of them were broken. -/
def last : History → FunctionId → Nat → Option Value
  | [], _, _ => none
  | .loaded f _ :: h, root, i => if root = f then none else last h root i
  | .derived .. :: h, root, i => last h root i
  | .stored f slot v :: h, root, i =>
    if origin h f = some root ∧ slot = i then some v else last h root i
  | .cleared f :: h, root, i => if origin h f = some root then none else last h root i

/-- A longer history says the same of the functions that were there before. -/
def Prolongs (h h' : History) : Prop :=
  ∀ f r, h.origin f = some r → h'.origin f = some r ∧ h'.slots r = h.slots r

theorem Prolongs.refl (h : History) : h.Prolongs h :=
  fun _ _ hf => ⟨hf, rfl⟩

theorem Prolongs.trans {h h' h'' : History} (hh : h.Prolongs h') (hh' : h'.Prolongs h'') :
    h.Prolongs h'' := by
  intro f r hf
  obtain ⟨horigin, hslots⟩ := hh f r hf
  obtain ⟨horigin', hslots'⟩ := hh' f r horigin
  exact ⟨horigin', hslots'.trans hslots⟩

end History

namespace Store

/-- The static block that a function works on. -/
def block (s : Store) (f : FunctionId) : StaticsId :=
  (s.function f).closure.statics

theorem SameCode.block_eq {s s' : Store} (h : s.SameCode s') (f : FunctionId) :
    s'.block f = s.block f := by
  rw [block, block, h.closure_eq]

theorem SameCode.staticsCell_eq {s s' : Store} (h : s.SameCode s') (id : StaticsId) :
    s'.staticsCell id = s.staticsCell id := by
  rw [staticsCell, staticsCell, h.statics]

theorem function_newFunction (s : Store) (f : Function) (g : FunctionId) :
    (s.newFunction f).2.function g = if g = ⟨s.functions.size⟩ then f else s.function g := by
  have hg : g = ⟨s.functions.size⟩ ↔ g.index = s.functions.size := by
    cases g
    simp
  simp only [function, newFunction, Array.getD_eq_getD_getElem?, Array.getElem?_push, hg]
  split <;> rfl

theorem staticsCell_newStatics (s : Store) (b : Statics) (id : StaticsId) :
    (s.newStatics b).2.staticsCell id =
      if id.index = s.statics.size then b else s.staticsCell id := by
  simp only [staticsCell, newStatics, Array.getD_eq_getD_getElem?, Array.getElem?_push]
  split <;> rfl

theorem staticsCell_setStatics {s : Store} {id : StaticsId} (hid : id.index < s.statics.size)
    (b : Statics) (j : StaticsId) :
    (s.setStatics id b).staticsCell j = if j = id then b else s.staticsCell j := by
  have hj : j = id ↔ id.index = j.index := by
    cases j
    cases id
    simp [eq_comm]
  simp only [staticsCell, setStatics, Array.getD_eq_getD_getElem?, Array.getElem?_setIfInBounds, hj]
  by_cases hji : id.index = j.index
  · rw [if_pos hji, if_pos hji, if_pos hid]
    rfl
  · rw [if_neg hji, if_neg hji]

end Store

namespace Statics

theorem get?_set {b b' : Statics} {slot : Nat} {v : Value} (h : b.set slot v = .ok b') (i : Nat) :
    b'.get? i = if slot = i then some v else b.get? i := by
  unfold set at h
  split at h
  · rename_i name old hslot
    cases h
    obtain ⟨hlt, -⟩ := Array.getElem?_eq_some_iff.1 hslot
    simp only [get?, Array.getElem?_setIfInBounds]
    by_cases hi : slot = i
    · rw [if_pos hi, if_pos hi, if_pos hlt]
      rfl
    · rw [if_neg hi, if_neg hi]
  · cases h

@[simp] theorem get?_clear (b : Statics) (i : Nat) : b.clear.get? i = none := by
  simp only [get?, clear, Array.getElem?_map]
  cases b.slots[i]? <;> rfl

@[simp] theorem size_clear (b : Statics) : b.clear.slots.size = b.slots.size := by
  simp [clear]

theorem get?_ofNames (names : List String) (source : Option String) (i : Nat) :
    (ofNames names source).get? i = none := by
  simp only [get?, ofNames, List.getElem?_toArray, List.getElem?_map]
  cases names[i]? <;> rfl

end Statics

/-- The store is as the history tells. Functions without an origin have no instructions. -/
structure History.Tells (h : History) (s : Store) : Prop where
  known : ∀ f r, h.origin f = some r → f.index < s.functions.size ∧ r.index < s.functions.size
  bare : ∀ f, h.origin f = none → (s.function f).closure.template.body.code = #[]
  shared : ∀ f g r r', h.origin f = some r → h.origin g = some r' → (s.block f = s.block g ↔ r = r')
  block : ∀ f r, h.origin f = some r → (s.block f).index < s.statics.size
  size : ∀ f r, h.origin f = some r → (s.staticsCell (s.block f)).slots.size = h.slots r
  value : ∀ f r, h.origin f = some r → ∀ i, (s.staticsCell (s.block f)).get? i = h.last r i

namespace History.Tells

variable {h : History} {s s' : Store} {f g r : FunctionId}

theorem nil (s : Store) (hs : s.functions = #[]) : Tells [] s where
  known := nofun
  bare f _ := by
    rw [Store.function, hs]
    rfl
  shared := nofun
  block := nofun
  size := nofun
  value := nofun

theorem sameCode (hh : h.Tells s) (hs : s.SameCode s') : h.Tells s' where
  known := hs.size_eq ▸ hh.known
  bare f hf := by
    rw [hs.closure_eq]
    exact hh.bare f hf
  shared f g r r' hf hg := by
    rw [hs.block_eq, hs.block_eq]
    exact hh.shared f g r r' hf hg
  block f r hf := by
    rw [hs.block_eq, hs.statics]
    exact hh.block f r hf
  size f r hf := by
    rw [hs.block_eq, hs.staticsCell_eq]
    exact hh.size f r hf
  value f r hf := by
    rw [hs.block_eq, hs.staticsCell_eq]
    exact hh.value f r hf

theorem ne_of_origin (hh : h.Tells s) (hf : h.origin f = some r) :
    f ≠ ⟨s.functions.size⟩ ∧ r ≠ ⟨s.functions.size⟩ := by
  obtain ⟨hlt, hlt'⟩ := hh.known f r hf
  constructor
  · rintro rfl
    exact Nat.lt_irrefl _ hlt
  · rintro rfl
    exact Nat.lt_irrefl _ hlt'

/-- A change of one block reaches the functions that come from the same load, and no others. -/
theorem replaced (hh : h.Tells s) (hf : h.origin f = some r) {e : Event} {b : Statics}
    (horigin : ∀ g, History.origin (e :: h) g = h.origin g)
    (hslots : ∀ q, History.slots (e :: h) q = h.slots q)
    (hsize : b.slots.size = (s.staticsCell (s.block f)).slots.size)
    (hlast : ∀ q i, History.last (e :: h) q i = if r = q then b.get? i else h.last q i) :
    Tells (e :: h) (s.setStatics (s.block f) b) := by
  have hcell (g : FunctionId) : (s.setStatics (s.block f) b).staticsCell (s.block g) =
      if s.block g = s.block f then b else s.staticsCell (s.block g) :=
    Store.staticsCell_setStatics (hh.block f r hf) b _
  refine ⟨fun g q hg => ?_, fun g hg => ?_, fun g g' q q' hg hg' => ?_, fun g q hg => ?_,
    fun g q hg => ?_, fun g q hg i => ?_⟩
  all_goals rw [horigin] at hg
  · exact hh.known g q hg
  · exact hh.bare g hg
  · rw [horigin] at hg'
    exact hh.shared g g' q q' hg hg'
  · have hlt : (s.block g).index < (s.statics.setIfInBounds (s.block f).index b).size := by
      rw [Array.size_setIfInBounds]
      exact hh.block g q hg
    exact hlt
  · rw [hslots, ← hh.size g q hg]
    refine (congrArg (fun b : Statics => b.slots.size) (hcell g)).trans ?_
    by_cases hblock : s.block g = s.block f
    · rw [if_pos hblock, hsize, hblock]
    · rw [if_neg hblock]
  · rw [hlast, ← hh.value g q hg]
    refine (congrArg (Statics.get? · i) (hcell g)).trans ?_
    by_cases hrq : r = q
    · rw [if_pos hrq, if_pos ((hh.shared g f q r hg hf).2 hrq.symm)]
    · rw [if_neg hrq, if_neg fun hblock => hrq ((hh.shared g f q r hg hf).1 hblock).symm]

theorem stored (hh : h.Tells s) (hf : h.origin f = some r) {slot : Nat} {v : Value} {b : Statics}
    (hset : (s.staticsCell (s.block f)).set slot v = .ok b) :
    Tells (.stored f slot v :: h) (s.setStatics (s.block f) b) := by
  refine hh.replaced hf (fun _ => rfl) (fun _ => rfl) (Statics.size_set hset) fun q i => ?_
  rw [Statics.get?_set hset, hh.value f r hf]
  simp only [History.last, hf, Option.some.injEq]
  by_cases hrq : r = q
  · simp [hrq]
  · simp [hrq]

theorem cleared (hh : h.Tells s) (hf : h.origin f = some r) :
    Tells (.cleared f :: h) (s.breakReferences (.function f)).2 := by
  have hcode : s.SameCode (s.setFunction f fun _ => .empty) := (s.kept_setFunction f _).toSameCode
  have hreplaced := (hh.sameCode hcode).replaced hf (e := .cleared f)
    (b := (s.staticsCell (s.block f)).clear) (fun _ => rfl) (fun _ => rfl) ?_ fun q i => ?_
  · rw [hcode.block_eq] at hreplaced
    exact hreplaced
  · rw [hcode.block_eq, hcode.staticsCell_eq, Statics.size_clear]
  · simp only [History.last, hf, Option.some.injEq, Statics.get?_clear]

theorem derived (hh : h.Tells s) {c : Function} (hblock : c.closure.statics = s.block f)
    (hbare : h.origin f = none → c.closure.template.body.code = #[]) :
    Tells (.derived ⟨s.functions.size⟩ f :: h) (s.newFunction c).2 := by
  have horigin (g : FunctionId) : History.origin (.derived ⟨s.functions.size⟩ f :: h) g =
      if g = ⟨s.functions.size⟩ then h.origin f else h.origin g := rfl
  have hb (g : FunctionId) : (s.newFunction c).2.block g =
      s.block (if g = ⟨s.functions.size⟩ then f else g) := by
    rw [Store.block, Store.function_newFunction]
    split
    · exact hblock
    · rfl
  have hold {g q : FunctionId}
      (hg : (if g = ⟨s.functions.size⟩ then h.origin f else h.origin g) = some q) :
      h.origin (if g = ⟨s.functions.size⟩ then f else g) = some q := by
    split at hg
    · rename_i hnew
      rw [if_pos hnew]
      exact hg
    · rename_i hnew
      rw [if_neg hnew]
      exact hg
  refine ⟨fun g q hg => ?_, fun g hg => ?_, fun g g' q q' hg hg' => ?_, fun g q hg => ?_,
    fun g q hg => ?_, fun g q hg => ?_⟩
  all_goals rw [horigin] at hg
  · have hsize : (s.newFunction c).2.functions.size = s.functions.size + 1 := Array.size_push ..
    obtain ⟨hlt, hlt'⟩ := hh.known _ q (hold hg)
    rw [hsize]
    split at hlt
    · rename_i hnew
      subst hnew
      exact ⟨Nat.lt_succ_self _, Nat.lt_succ_of_lt hlt'⟩
    · exact ⟨Nat.lt_succ_of_lt hlt, Nat.lt_succ_of_lt hlt'⟩
  · rw [Store.function_newFunction]
    split at hg
    · rename_i hnew
      rw [if_pos hnew]
      exact hbare hg
    · rename_i hnew
      rw [if_neg hnew]
      exact hh.bare g hg
  · rw [horigin] at hg'
    rw [hb, hb]
    exact hh.shared _ _ q q' (hold hg) (hold hg')
  · rw [hb]
    exact hh.block _ q (hold hg)
  · rw [hb]
    exact hh.size _ q (hold hg)
  · rw [hb]
    exact hh.value _ q (hold hg)

theorem newStatics (hh : h.Tells s) (b : Statics) : h.Tells (s.newStatics b).2 := by
  have hcell {g q : FunctionId} (hg : h.origin g = some q) :
      (s.newStatics b).2.staticsCell (s.block g) = s.staticsCell (s.block g) := by
    rw [Store.staticsCell_newStatics, if_neg (Nat.ne_of_lt (hh.block g q hg))]
  refine ⟨hh.known, hh.bare, hh.shared, fun g q hg => ?_, fun g q hg => ?_, fun g q hg i => ?_⟩
  · have hsize : (s.newStatics b).2.statics.size = s.statics.size + 1 := Array.size_push ..
    rw [hsize]
    exact Nat.lt_succ_of_lt (hh.block g q hg)
  · exact (congrArg (fun b : Statics => b.slots.size) (hcell hg)).trans (hh.size g q hg)
  · exact (congrArg (Statics.get? · i) (hcell hg)).trans (hh.value g q hg i)

theorem founded (hh : h.Tells s) {c : Function}
    (hlt : c.closure.statics.index < s.statics.size)
    (hfree : ∀ g q, h.origin g = some q → s.block g ≠ c.closure.statics)
    (hempty : ∀ i, (s.staticsCell c.closure.statics).get? i = none) :
    Tells (.loaded ⟨s.functions.size⟩ (s.staticsCell c.closure.statics).slots.size :: h)
      (s.newFunction c).2 := by
  have hnew : (s.newFunction c).2.block ⟨s.functions.size⟩ = c.closure.statics := by
    rw [Store.block, Store.function_newFunction, if_pos rfl]
  have hold {g q : FunctionId} (hg : h.origin g = some q) :
      (s.newFunction c).2.block g = s.block g := by
    rw [Store.block, Store.function_newFunction, if_neg (hh.ne_of_origin hg).1]
    rfl
  have hcases {g q : FunctionId} {n : Nat}
      (hg : History.origin (.loaded ⟨s.functions.size⟩ n :: h) g = some q) :
      (g = ⟨s.functions.size⟩ ∧ q = ⟨s.functions.size⟩) ∨ h.origin g = some q := by
    rw [History.origin] at hg
    split at hg
    · rename_i hg'
      exact .inl ⟨hg', (Option.some.inj hg).symm⟩
    · exact .inr hg
  refine ⟨fun g q hg => ?_, fun g hg => ?_, fun g g' q q' hg hg' => ?_, fun g q hg => ?_,
    fun g q hg => ?_, fun g q hg i => ?_⟩
  · have hsize : (s.newFunction c).2.functions.size = s.functions.size + 1 := Array.size_push ..
    rw [hsize]
    rcases hcases hg with ⟨rfl, rfl⟩ | hg
    · exact ⟨Nat.lt_succ_self _, Nat.lt_succ_self _⟩
    · exact (hh.known g q hg).imp Nat.lt_succ_of_lt Nat.lt_succ_of_lt
  · rw [History.origin] at hg
    split at hg
    · cases hg
    · rename_i hne
      rw [Store.function_newFunction, if_neg hne]
      exact hh.bare g hg
  · rcases hcases hg with ⟨rfl, rfl⟩ | hg <;> rcases hcases hg' with ⟨rfl, rfl⟩ | hg'
    · exact ⟨fun _ => rfl, fun _ => rfl⟩
    · rw [hnew, hold hg']
      exact ⟨fun heq => absurd heq.symm (hfree g' q' hg'),
        fun heq => absurd heq.symm (hh.ne_of_origin hg').2⟩
    · rw [hnew, hold hg]
      exact ⟨fun heq => absurd heq (hfree g q hg), fun heq => absurd heq (hh.ne_of_origin hg).2⟩
    · rw [hold hg, hold hg']
      exact hh.shared g g' q q' hg hg'
  · rcases hcases hg with ⟨rfl, rfl⟩ | hg
    · rw [hnew]
      exact hlt
    · rw [hold hg]
      exact hh.block g q hg
  · rw [History.slots]
    rcases hcases hg with ⟨rfl, rfl⟩ | hg
    · rw [hnew, if_pos rfl]
      rfl
    · rw [hold hg, if_neg (hh.ne_of_origin hg).2]
      exact hh.size g q hg
  · rw [History.last]
    rcases hcases hg with ⟨rfl, rfl⟩ | hg
    · rw [hnew, if_pos rfl]
      exact hempty i
    · rw [hold hg, if_neg (hh.ne_of_origin hg).2]
      exact hh.value g q hg i

theorem loaded (hh : h.Tells s) {c : Function} (hc : c.closure.statics = ⟨s.statics.size⟩)
    (names : List String) (source : Option String) :
    Tells (.loaded ⟨s.functions.size⟩ names.length :: h)
      ((s.newStatics (.ofNames names source)).2.newFunction c).2 := by
  have hcell : (s.newStatics (.ofNames names source)).2.staticsCell c.closure.statics =
      .ofNames names source := by
    rw [Store.staticsCell_newStatics, hc, if_pos rfl]
  have hlength : names.length = ((s.newStatics (.ofNames names source)).2.staticsCell
      c.closure.statics).slots.size := by
    rw [hcell]
    simp [Statics.ofNames]
  rw [hlength]
  apply (hh.newStatics _).founded
  · rw [hc]
    simp [Store.newStatics]
  · intro g q hg hblock
    have hindex : (s.block g).index = s.statics.size := by
      have hblock' : s.block g = c.closure.statics := hblock
      rw [hblock', hc]
    exact absurd hindex (Nat.ne_of_lt (hh.block g q hg))
  · intro i
    rw [hcell]
    exact Statics.get?_ofNames names source i

theorem prolongs_loaded (hh : h.Tells s) (n : Nat) :
    h.Prolongs (.loaded ⟨s.functions.size⟩ n :: h) := by
  intro g q hg
  obtain ⟨hne, hne'⟩ := hh.ne_of_origin hg
  rw [History.origin, History.slots, if_neg hne, if_neg hne']
  exact ⟨hg, rfl⟩

theorem prolongs_derived (hh : h.Tells s) (f : FunctionId) :
    h.Prolongs (.derived ⟨s.functions.size⟩ f :: h) := by
  intro g q hg
  rw [History.origin, if_neg (hh.ne_of_origin hg).1]
  exact ⟨hg, rfl⟩

end History.Tells

end ScriptMachine
