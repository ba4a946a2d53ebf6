import ScriptMachine.Proofs.Graph.Reach
import ScriptMachine.Proofs.Model.Chain
import ScriptMachine.Proofs.Model.Growth

namespace ScriptMachine

/-- The declaration of a data slot. -/
def Attributes.slot? (as : Attributes) (name : String) : Option Attribute :=
  (as.get? name).filter (·.flags.isInit)

/-- The slot that a type declares itself: its own attributes first, then its traits, last one
first. -/
def TypeCell.slot? (c : TypeCell) (name : String) : Option Attribute :=
  (c.attributes.slot? name).or (c.traits.reverse.findSome? (·.attributes.slot? name))

/-- The slot of highest precedence in a chain of types, most derived type first. -/
def Store.slot? (s : Store) (t : TypeId) (name : String) : Option Attribute :=
  (s.chain t).findSome? fun u => (s.type u).slot? name

/-- Some type of the chain declares a slot, among its own attributes or in a composed trait. -/
def Store.DeclaresSlot (s : Store) (t : TypeId) (name : String) : Prop :=
  ∃ u ∈ s.chain t, ∃ as,
    (as = (s.type u).attributes ∨ ∃ snapshot ∈ (s.type u).traits, as = snapshot.attributes) ∧
      ∃ a, as.get? name = some a ∧ a.flags.isInit = true

def slotNames (l : List (String × Attribute)) : List String :=
  (l.filter (·.2.flags.isInit)).map Prod.fst

/-- The names of slots as a walk from the root meets them: for each type those of its traits in the
order of composition, then its own. -/
def Store.slotNames (s : Store) (t : TypeId) : List String :=
  (s.chain t).reverse.flatMap fun u =>
    (s.type u).traits.flatMap (fun snapshot => ScriptMachine.slotNames snapshot.attributes.entries) ++
      ScriptMachine.slotNames (s.type u).attributes.entries

theorem Attributes.slot?_eq_some_iff {as : Attributes} {name : String} {a : Attribute} :
    as.slot? name = some a ↔ as.get? name = some a ∧ a.flags.isInit = true :=
  Option.filter_eq_some_iff

theorem Store.slot?_isSome_iff {s : Store} {t : TypeId} {name : String} :
    (s.slot? t name).isSome = true ↔ s.DeclaresSlot t name := by
  simp only [slot?, TypeCell.slot?, DeclaresSlot, List.findSome?_isSome_iff, Option.isSome_or,
    Bool.or_eq_true, List.mem_reverse]
  refine exists_congr fun u => and_congr_right fun _ => ?_
  simp only [Option.isSome_iff_exists, Attributes.slot?_eq_some_iff]
  constructor
  · rintro (⟨a, ha⟩ | ⟨snapshot, hmem, a, ha⟩)
    · exact ⟨_, .inl rfl, a, ha⟩
    · exact ⟨_, .inr ⟨snapshot, hmem, rfl⟩, a, ha⟩
  · rintro ⟨_, rfl | ⟨snapshot, hmem, rfl⟩, a, ha⟩
    · exact .inl ⟨a, ha⟩
    · exact .inr ⟨snapshot, hmem, a, ha⟩

/-- The last declaration of a slot in a list of declarations. -/
def lastSlot? (name : String) : List (String × Attribute) → Option Attribute
  | [] => none
  | (n, a) :: rest => (lastSlot? name rest).or (if n = name ∧ a.flags.isInit then some a else none)

section Walks

variable {α : Type} {name : String}

theorem lastSlot?_append (l l' : List (String × Attribute)) :
    lastSlot? name (l ++ l') = (lastSlot? name l').or (lastSlot? name l) := by
  induction l with
  | nil => simp [lastSlot?]
  | cons e l ih => rw [List.cons_append, lastSlot?, ih, Option.or_assoc, lastSlot?]

theorem lastSlot?_flatMap_reverse (f : α → List (String × Attribute)) (l : List α) :
    lastSlot? name (l.reverse.flatMap f) = l.findSome? fun x => lastSlot? name (f x) := by
  induction l with
  | nil => rfl
  | cons x l ih =>
    rw [List.reverse_cons, List.flatMap_append, lastSlot?_append, ih, List.findSome?_cons]
    simp only [List.flatMap_cons, List.flatMap_nil, List.append_nil]
    cases lastSlot? name (f x) <;> simp

theorem lastSlot?_entries (as : Attributes) : lastSlot? name as.entries = as.slot? name := by
  have hlist (l : List (String × Attribute)) (hl : (l.map Prod.fst).Nodup) :
      lastSlot? name l = (findEntry name l).filter (·.flags.isInit) := by
    induction l with
    | nil => rfl
    | cons e l ih =>
      obtain ⟨k, a⟩ := e
      rw [List.map_cons, List.nodup_cons] at hl
      rw [lastSlot?, ih hl.2, findEntry]
      by_cases hk : k = name
      · -- the name is not in the rest of the table
        have habsent : findEntry name l = none := by
          rw [Option.eq_none_iff_forall_not_mem]
          intro b hb
          have hmem : (name, b) ∈ l := (findEntry_eq_some_iff hl.2).1 hb
          exact hl.1 (hk ▸ List.mem_map.2 ⟨_, hmem, rfl⟩)
        simp [habsent, hk, Option.filter_some]
      · simp [hk]
  exact hlist as.entries as.nodup

theorem lastSlot?_instanceDeclarations (s : Store) (t : TypeId) :
    lastSlot? name (s.instanceDeclarations t) = s.slot? t name := by
  rw [Store.instanceDeclarations, lastSlot?_flatMap_reverse, Store.slot?]
  congr 1
  funext u
  rw [lastSlot?_append, lastSlot?_entries, TypeCell.slot?]
  congr 1
  rw [← List.reverse_reverse (s.type u).traits, lastSlot?_flatMap_reverse, List.reverse_reverse]
  simp only [lastSlot?_entries]

theorem slotNames_instanceDeclarations (s : Store) (t : TypeId) :
    slotNames (s.instanceDeclarations t) = s.slotNames t := by
  simp [slotNames, Store.slotNames, Store.instanceDeclarations, List.filter_flatMap,
    List.map_flatMap]

end Walks

/-- Whether an instance has a copy of its own of a declared value. -/
def Value.isCopied : Value → Bool
  | array _ | map _ => true
  | _ => false

namespace Store

/-- What an instance made between `s` and `s'` has for a declared value: an array or map that is new
and has the same contents, and anything else as it is. -/
structure Renews (s s' : Store) (v w : Value) : Prop where
  fresh : v.isCopied = true → s.cell? w = none ∧ (s'.cell? w).isSome
  contents : v.isCopied = true → ∀ cell, s.cell? v = some cell → s'.cell? w = some cell
  shared : v.isCopied = false → w = v

/-- The slot `b` of an instance made between `s` and `s'` is the copy of the declaration `a`. -/
structure IsSlotOf (s s' : Store) (a b : Attribute) : Prop where
  value : s.Renews s' a.value b.value
  isPrivate : b.flags.isPrivate = a.flags.isPrivate
  isConstant : b.flags.isConstant = a.flags.isConstant
  isInit : b.flags.isInit = false

variable {s s' s'' : Store}

theorem Grown.cell? (h : s.Grown s') {v : Value} {cell : Cell} (hv : s.cell? v = some cell) :
    s'.cell? v = some cell := by
  have hgrown {α : Type} {xs ys : Array α} (hext : xs.toList <+: ys.toList) {i : Nat} {x : α}
      (hx : xs[i]? = some x) : ys[i]? = some x := by
    rw [← Array.getElem?_toList] at hx ⊢
    obtain ⟨rest, hrest⟩ := hext
    rw [← hrest, List.getElem?_append_left (List.getElem?_eq_some_iff.1 hx).1, hx]
  cases v with
  | array id =>
    obtain ⟨items, hitems, rfl⟩ := Option.map_eq_some_iff.1 hv
    exact Option.map_eq_some_iff.2 ⟨items, hgrown h.arrays hitems, rfl⟩
  | map id =>
    obtain ⟨entries, hentries, rfl⟩ := Option.map_eq_some_iff.1 hv
    exact Option.map_eq_some_iff.2 ⟨entries, hgrown h.maps hentries, rfl⟩
  | object id =>
    obtain ⟨o, ho, rfl⟩ := Option.map_eq_some_iff.1 hv
    exact Option.map_eq_some_iff.2 ⟨o, hgrown h.objects ho, rfl⟩
  | _ => cases hv

theorem Grown.isSome_cell? (h : s.Grown s') {v : Value} (hv : (s.cell? v).isSome) :
    (s'.cell? v).isSome := by
  obtain ⟨cell, hcell⟩ := Option.isSome_iff_exists.1 hv
  exact Option.isSome_iff_exists.2 ⟨cell, h.cell? hcell⟩

theorem Renews.of_shared {v : Value} (h : v.isCopied = false) : s.Renews s' v v := by
  have hne : v.isCopied ≠ true := by
    rw [h]
    exact Bool.false_ne_true
  exact ⟨fun hcopied => absurd hcopied hne, fun hcopied => absurd hcopied hne, fun _ => rfl⟩

theorem IsSlotOf.grown {a b : Attribute} (h : s.IsSlotOf s' a b) (h' : s'.Grown s'') :
    s.IsSlotOf s'' a b := by
  refine ⟨⟨fun hcopied => ?_, fun hcopied cell hcell => ?_, h.value.shared⟩, h.isPrivate,
    h.isConstant, h.isInit⟩
  · obtain ⟨hnew, hthere⟩ := h.value.fresh hcopied
    exact ⟨hnew, h'.isSome_cell? hthere⟩
  · exact h'.cell? (h.value.contents hcopied cell hcell)

theorem isSlotOf_instanceCopy (h : s.Grown s') (a : Attribute) :
    s.IsSlotOf (s'.instanceCopy a).2 a (s'.instanceCopy a).1 := by
  unfold instanceCopy
  cases hvalue : a.value with
  | array id =>
    have hlength : s.arrays.size ≤ s'.arrays.size := h.arrays.length_le
    refine ⟨?_, rfl, rfl, rfl⟩
    rw [hvalue]
    refine ⟨fun _ => ⟨?_, ?_⟩, fun _ cell hcell => ?_, fun hshared => by cases hshared⟩
    · simp [Store.cell?, newArray, hlength]
    · simp [Store.cell?, newArray]
    · obtain ⟨items, hitems, rfl⟩ := Option.map_eq_some_iff.1 (h.cell? hcell)
      simp [Store.cell?, newArray, array, hitems]
  | map id =>
    have hlength : s.maps.size ≤ s'.maps.size := h.maps.length_le
    refine ⟨?_, rfl, rfl, rfl⟩
    rw [hvalue]
    refine ⟨fun _ => ⟨?_, ?_⟩, fun _ cell hcell => ?_, fun hshared => by cases hshared⟩
    · simp [Store.cell?, newMap, hlength]
    · simp [Store.cell?, newMap]
    · obtain ⟨entries, hentries, rfl⟩ := Option.map_eq_some_iff.1 (h.cell? hcell)
      simp [Store.cell?, newMap, map, hentries]
  | _ =>
    refine ⟨?_, rfl, rfl, rfl⟩
    rw [hvalue]
    exact .of_shared rfl

/-- A table that was copied into has a copy of the last declaration of each slot, and for other names
what it had. -/
theorem get?_copyInit {s₀ : Store} (h : s₀.Grown s) (into : Attributes) (name : String)
    (l : List (String × Attribute)) :
    match lastSlot? name l with
    | some a => ∃ b, (s.copyInit into l).1.get? name = some b ∧
        s₀.IsSlotOf (s.copyInit into l).2 a b
    | none => (s.copyInit into l).1.get? name = into.get? name := by
  induction l generalizing s into with
  | nil => rfl
  | cons e l ih =>
    obtain ⟨n, a⟩ := e
    rw [copyInit, lastSlot?]
    by_cases hinit : a.flags.isInit = true
    · rw [if_pos hinit]
      have hcopy := isSlotOf_instanceCopy h a
      have hgrown := Grown.instanceCopy s a
      generalize s.instanceCopy a = r at hcopy hgrown
      obtain ⟨b, s₁⟩ := r
      have hrest := ih (h.trans hgrown) (into.insert n b)
      dsimp only
      cases hlast : lastSlot? name l with
      | some a' =>
        rw [hlast] at hrest
        exact hrest
      | none =>
        rw [hlast, Table.get?_insert] at hrest
        by_cases hn : n = name
        · rw [if_pos ⟨hn, hinit⟩]
          rw [if_pos hn.symm] at hrest
          exact ⟨b, hrest, hcopy.grown (Grown.copyInit ..)⟩
        · rw [if_neg fun hand => hn hand.1]
          rw [if_neg fun heq => hn heq.symm] at hrest
          exact hrest
    · rw [if_neg hinit, if_neg fun hand => hinit hand.2, Option.or_none]
      exact ih h into

/-- Names that are new to the table follow those that it has, each where it first occurs. -/
theorem names_copyInit (s : Store) (into : Attributes) (l : List (String × Attribute)) :
    (s.copyInit into l).1.names =
      into.names ++ ((ScriptMachine.slotNames l).filter (· ∉ into.names)).eraseDups := by
  induction l generalizing s into with
  | nil => simp [copyInit, ScriptMachine.slotNames]
  | cons e l ih =>
    obtain ⟨n, a⟩ := e
    rw [copyInit]
    by_cases hinit : a.flags.isInit = true
    · have hnames : ScriptMachine.slotNames ((n, a) :: l) = n :: ScriptMachine.slotNames l := by
        simp [ScriptMachine.slotNames, hinit]
      rw [if_pos hinit, hnames]
      dsimp only
      rw [ih, Table.names_insert]
      by_cases hmem : n ∈ into.names
      · simp [hmem]
      · rw [if_neg hmem, List.filter_cons_of_pos (by simpa using hmem), List.eraseDups_cons,
          List.append_assoc, List.singleton_append, List.filter_filter]
        congr 4
        funext k
        by_cases hk : k = n <;> simp [hk]
    · have hnames : ScriptMachine.slotNames ((n, a) :: l) = ScriptMachine.slotNames l := by
        simp [ScriptMachine.slotNames, hinit]
      rw [if_neg hinit, hnames]
      exact ih s into

/-- The arrays and maps of a table are in the store, each under one name. -/
structure Separate (s : Store) (as : Attributes) : Prop where
  inside : ∀ name b, as.get? name = some b → b.value.isCopied = true → (s.cell? b.value).isSome
  apart : ∀ name name' b b', as.get? name = some b → as.get? name' = some b' →
    b.value.isCopied = true → b'.value = b.value → name' = name

theorem separate_empty (s : Store) : s.Separate .empty := by
  constructor <;> simp

theorem Separate.grown {as : Attributes} (h : s.Separate as) (hgrown : s.Grown s') :
    s'.Separate as :=
  ⟨fun name b hb hcopied => hgrown.isSome_cell? (h.inside name b hb hcopied), h.apart⟩

theorem Separate.insert {as : Attributes} (h : s.Separate as) (hgrown : s.Grown s') (name : String)
    {a b : Attribute} (hb : s.IsSlotOf s' a b) : s'.Separate (as.insert name b) := by
  have hfresh (hcopied : b.value.isCopied = true) :
      s.cell? b.value = none ∧ (s'.cell? b.value).isSome := by
    refine hb.value.fresh ?_
    by_contra hshared
    rw [hb.value.shared (by simpa using hshared)] at hcopied
    exact hshared hcopied
  -- an array or map that the table has was there before
  have hold {n : String} {c : Attribute} (hc : as.get? n = some c) (hcopied : c.value.isCopied = true)
      (heq : b.value = c.value) : False := by
    have hinside := h.inside n c hc hcopied
    rw [← heq, (hfresh (heq ▸ hcopied)).1] at hinside
    cases hinside
  refine ⟨fun n c hc hcopied => ?_, fun n n' c c' hc hc' hcopied heq => ?_⟩
  · rw [Table.get?_insert] at hc
    split at hc
    · cases hc
      exact (hfresh hcopied).2
    · exact hgrown.isSome_cell? (h.inside n c hc hcopied)
  · rw [Table.get?_insert] at hc hc'
    split at hc <;> split at hc'
    · rename_i hn hn'
      rw [hn, hn']
    · cases hc
      exact (hold hc' (heq ▸ hcopied) heq.symm).elim
    · cases hc'
      exact (hold hc hcopied heq).elim
    · exact h.apart n n' c c' hc hc' hcopied heq

theorem separate_copyInit {into : Attributes} (h : s.Separate into)
    (l : List (String × Attribute)) :
    (s.copyInit into l).2.Separate (s.copyInit into l).1 := by
  induction l generalizing s into with
  | nil => exact h
  | cons e l ih =>
    obtain ⟨n, a⟩ := e
    rw [copyInit]
    split
    · exact ih (h.insert (Grown.instanceCopy s a) n (isSlotOf_instanceCopy (.refl s) a))
    · exact ih h

theorem attributes_instantiate (s : Store) (t : TypeId) :
    ((s.instantiate t).2.object (s.instantiate t).1).attributes =
      (s.copyInit .empty (s.instanceDeclarations t)).1 := by
  simp [instantiate, newObject, object]

theorem typeOf_instantiate (s : Store) (t : TypeId) :
    (s.instantiate t).2.typeOf (.object (s.instantiate t).1) = t := by
  simp [typeOf, instantiate, newObject, object]

/-- The object `o`, made between `s` and `s'`, is a new instance of `t`. -/
structure NewInstance (s : Store) (t : TypeId) (o : ObjectId) (s' : Store) : Prop where
  grown : s.Grown s'
  fresh : s.cell? (.object o) = none
  type : s'.typeOf (.object o) = t
  declared : ∀ name, (s'.object o).attributes.contains name = true ↔ s.DeclaresSlot t name
  slots : ∀ name a, s.slot? t name = some a →
    ∃ b, (s'.object o).attributes.get? name = some b ∧ s.IsSlotOf s' a b
  separate : s'.Separate (s'.object o).attributes
  names : (s'.object o).attributes.names = (s.slotNames t).eraseDups

theorem get?_instantiate (s : Store) (t : TypeId) (name : String) :
    match s.slot? t name with
    | some a => ∃ b, ((s.instantiate t).2.object (s.instantiate t).1).attributes.get? name = some b ∧
        s.IsSlotOf (s.instantiate t).2 a b
    | none => ((s.instantiate t).2.object (s.instantiate t).1).attributes.get? name = none := by
  have hcopied := get?_copyInit (.refl s) .empty name (s.instanceDeclarations t)
  rw [lastSlot?_instanceDeclarations] at hcopied
  rw [attributes_instantiate]
  cases hslot : s.slot? t name with
  | none =>
    rw [hslot] at hcopied
    exact hcopied
  | some a =>
    rw [hslot] at hcopied
    obtain ⟨b, hb, hcopy⟩ := hcopied
    exact ⟨b, hb, hcopy.grown (Grown.newObject ..)⟩

theorem newInstance_instantiate (s : Store) (t : TypeId) :
    s.NewInstance t (s.instantiate t).1 (s.instantiate t).2 := by
  have hget := s.get?_instantiate t
  refine ⟨Grown.instantiate s t, ?_, s.typeOf_instantiate t, fun name => ?_, fun name a ha => ?_, ?_,
    ?_⟩
  · have hobjects := (Grown.copyInit s .empty (s.instanceDeclarations t)).objects.length_le
    simpa [Store.cell?, instantiate, newObject] using hobjects
  · rw [← slot?_isSome_iff, Table.contains]
    specialize hget name
    split at hget
    · rename_i a ha
      obtain ⟨b, hb, -⟩ := hget
      simp [ha, hb]
    · rename_i hnone
      simp [hnone, hget]
  · specialize hget name
    rw [ha] at hget
    exact hget
  · rw [attributes_instantiate]
    exact (separate_copyInit (separate_empty s) (s.instanceDeclarations t)).grown (Grown.newObject ..)
  · rw [attributes_instantiate, names_copyInit, slotNames_instanceDeclarations]
    simp [Table.names, Table.empty]

/-- The attribute `b` that an instance made between `s` and `s'` finds means what the declaration `a`
means: the value is the same one or an instance's copy of it, and so are the rules for its use. -/
structure SameMeaning (s s' : Store) (a b : Attribute) : Prop where
  value : b.value = a.value ∨ s.Renews s' a.value b.value
  isPrivate : b.flags.isPrivate = a.flags.isPrivate
  isConstant : b.flags.isConstant = a.flags.isConstant

theorem IsSlotOf.sameMeaning {a b : Attribute} (h : s.IsSlotOf s' a b) : s.SameMeaning s' a b :=
  ⟨.inr h.value, h.isPrivate, h.isConstant⟩

/-- A search for slots beside a search for any attribute: it finds nothing where that finds nothing,
and the same where that finds a slot. -/
structure SlotSearch (found : Option Resolved) (slot : Option Attribute) : Prop where
  absent : found = none → slot = none
  same : ∀ r, found = some r → r.attr.flags.isInit = true → slot = some r.attr

theorem SlotSearch.findSome? {α : Type} {f : α → Option Resolved} {g : α → Option Attribute}
    (h : ∀ x, SlotSearch (f x) (g x)) (l : List α) :
    SlotSearch (l.findSome? f) (l.findSome? g) := by
  induction l with
  | nil => exact ⟨fun _ => rfl, nofun⟩
  | cons x l ih =>
    rw [List.findSome?_cons, List.findSome?_cons]
    cases hf : f x with
    | none =>
      rw [(h x).absent hf]
      exact ih
    | some r =>
      refine ⟨nofun, fun r' hr' hinit => ?_⟩
      cases hr'
      rw [(h x).same r hf hinit]

theorem slotSearch_attributes (as : Attributes) (name : String) (origin : Origin) :
    SlotSearch ((as.get? name).map fun a => ⟨a, origin⟩) (as.slot? name) := by
  constructor
  · intro hnone
    rw [Attributes.slot?, Option.map_eq_none_iff.1 hnone]
    rfl
  · intro r hr hinit
    obtain ⟨a, ha, rfl⟩ := Option.map_eq_some_iff.1 hr
    exact Attributes.slot?_eq_some_iff.2 ⟨ha, hinit⟩

theorem slotSearch_typeCell (c : TypeCell) (t : TypeId) (name : String) :
    SlotSearch (c.find? t name) (c.slot? name) := by
  have hown := slotSearch_attributes c.attributes name (.type t)
  unfold TypeCell.find? TypeCell.slot?
  cases ha : c.attributes.get? name with
  | none =>
    rw [ha] at hown
    rw [hown.absent rfl, Option.none_or]
    exact .findSome? (fun snapshot : Snapshot => slotSearch_attributes _ _ (.trait t snapshot.name)) _
  | some a =>
    rw [ha] at hown
    refine ⟨nofun, fun r hr hinit => ?_⟩
    rw [hown.same r hr hinit, Option.some_or]

theorem slotSearch_lookup (s : Store) (t : TypeId) (name : String) :
    SlotSearch (s.lookup t name) (s.slot? t name) :=
  .findSome? (fun u => slotSearch_typeCell (s.type u) u name) _

theorem Grown.lookup (h : s.Grown s') (t : TypeId) (name : String) :
    s'.lookup t name = s.lookup t name := by
  apply lookup_congr
  intro u _
  rw [h.same]
  rfl

/-- Whatever an object finds belongs to the type that a search in its type ends at. -/
theorem originType_of_resolve {o : ObjectId} {name : String} {d r : Resolved}
    (hd : s.lookup (s.typeOf (.object o)) name = some d)
    (hr : s.resolve (.object o) name = some r) :
    originType? d.origin = some (s.definingType (.object o) name r) := by
  obtain ⟨u, hu⟩ := exists_originType hd
  rw [resolve, hd] at hr
  cases hown : s.resolveOwn (.object o) name with
  | none =>
    rw [hown] at hr
    cases hr
    simp [definingType, hu]
  | some own =>
    rw [hown] at hr
    cases hr
    obtain ⟨a, -, rfl⟩ := Option.map_eq_some_iff.1 hown
    show _ = some (((s.lookup (s.typeOf (.object o)) name).bind (originType? ·.origin)).getD _)
    rw [hd, Option.bind_some, hu, Option.getD_some]

/-- A name means for the object `o`, made between `s` and `s'` as an instance of `t`, what it means
for `t`. -/
structure KeepsMeaning (s : Store) (t : TypeId) (o : ObjectId) (s' : Store) (name : String) :
    Prop where
  found : (s'.resolve (.object o) name).isSome = (s.lookup t name).isSome
  same : ∀ d r, s.lookup t name = some d → s'.resolve (.object o) name = some r →
    s.SameMeaning s' d.attr r.attr
  owner : ∀ d r, s.lookup t name = some d → s'.resolve (.object o) name = some r →
    originType? d.origin = some (s'.definingType (.object o) name r)

/-- What a name means for an instance: the slot, if there is one, belongs to the type that the search
in `t` ends at, even where it ends at a declaration of another kind. -/
structure InstanceMeaning (s : Store) (t : TypeId) (o : ObjectId) (s' : Store) (name : String) :
    Prop where
  found : (s'.resolve (.object o) name).isSome = (s.lookup t name).isSome
  owner : ∀ d r, s.lookup t name = some d → s'.resolve (.object o) name = some r →
    originType? d.origin = some (s'.definingType (.object o) name r)
  unslotted : s.slot? t name = none → s'.resolve (.object o) name = s.lookup t name
  slotted : ∀ a, s.slot? t name = some a →
    ∃ b, s'.resolve (.object o) name = some ⟨b, .own⟩ ∧ s.IsSlotOf s' a b
  keeps : (∀ d, s.lookup t name = some d → d.attr.flags.isInit = true ∨ ¬ s.DeclaresSlot t name) →
    s.KeepsMeaning t o s' name

theorem resolve_instantiate (s : Store) (t : TypeId) (name : String) :
    match s.slot? t name with
    | some a => ∃ b, (s.instantiate t).2.resolve (.object (s.instantiate t).1) name = some ⟨b, .own⟩ ∧
        s.IsSlotOf (s.instantiate t).2 a b
    | none => (s.instantiate t).2.resolve (.object (s.instantiate t).1) name = s.lookup t name := by
  have hget := s.get?_instantiate t name
  have hresolve : (s.instantiate t).2.resolve (.object (s.instantiate t).1) name =
      ((((s.instantiate t).2.object (s.instantiate t).1).attributes.get? name).map
        fun a => ⟨a, .own⟩).or (s.lookup t name) := by
    rw [resolve, typeOf_instantiate, (Grown.instantiate s t).lookup]
    rfl
  rw [hresolve]
  cases hslot : s.slot? t name with
  | none =>
    rw [hslot] at hget
    rw [hget]
    rfl
  | some a =>
    rw [hslot] at hget
    obtain ⟨b, hb, hcopy⟩ := hget
    rw [hb]
    exact ⟨b, rfl, hcopy⟩

theorem instantiate_meaning (s : Store) (t : TypeId) (name : String) :
    s.InstanceMeaning t (s.instantiate t).1 (s.instantiate t).2 name := by
  have hsearch := s.slotSearch_lookup t name
  have hresolve := s.resolve_instantiate t name
  have howner (d r : Resolved) (hd : s.lookup t name = some d)
      (hr : (s.instantiate t).2.resolve (.object (s.instantiate t).1) name = some r) :
      originType? d.origin =
        some ((s.instantiate t).2.definingType (.object (s.instantiate t).1) name r) := by
    refine originType_of_resolve ?_ hr
    rw [typeOf_instantiate, (Grown.instantiate s t).lookup, hd]
  generalize s.instantiate t = made at hresolve howner
  obtain ⟨o, s'⟩ := made
  cases hslot : s.slot? t name with
  | none =>
    rw [hslot] at hresolve
    have hfound : (s'.resolve (.object o) name).isSome = (s.lookup t name).isSome := by rw [hresolve]
    refine ⟨hfound, howner, fun _ => hresolve, by simp [hslot], fun _ => ⟨hfound, ?_, howner⟩⟩
    intro d r hd hr
    rw [hresolve, hd] at hr
    cases hr
    exact ⟨.inl rfl, rfl, rfl⟩
  | some a =>
    rw [hslot] at hresolve
    obtain ⟨b, hb, hcopy⟩ := hresolve
    have hfound : (s'.resolve (.object o) name).isSome = (s.lookup t name).isSome := by
      rw [hb]
      cases hd : s.lookup t name with
      | none => cases (hsearch.absent hd).symm.trans hslot
      | some d => rfl
    refine ⟨hfound, howner, by simp [hslot], ?_, fun hwhich => ⟨hfound, ?_, howner⟩⟩
    · intro a' ha'
      cases hslot.symm.trans ha'
      exact ⟨b, hb, hcopy⟩
    · intro d r hd hr
      have hinit : d.attr.flags.isInit = true := by
        refine (hwhich d hd).resolve_right fun hno => hno (slot?_isSome_iff.1 ?_)
        rw [hslot]
        rfl
      cases hb.symm.trans hr
      cases hslot.symm.trans (hsearch.same d hd hinit)
      exact hcopy.sameMeaning

/-- A type whose own declaration stands before a slot that its base declares. -/
def beforeSlot : Store where
  types :=
    #[⟨"Base", none, .ofList [("v", ⟨.string "base", { isInit := true }⟩)], []⟩,
      ⟨"Derived", some ⟨0⟩, .ofList [("v", ⟨.string "derived", {}⟩)], []⟩]

/-- The type finds its own declaration, and an instance of it finds the slot. -/
theorem not_keepsMeaning_beforeSlot :
    ¬ beforeSlot.KeepsMeaning ⟨1⟩ (beforeSlot.instantiate ⟨1⟩).1 (beforeSlot.instantiate ⟨1⟩).2
      "v" := by
  intro h
  have hlookup : (beforeSlot.lookup ⟨1⟩ "v").map (·.attr.value.string?) = some (some "derived") := by
    decide +kernel
  have hresolve : ((beforeSlot.instantiate ⟨1⟩).2.resolve
      (.object (beforeSlot.instantiate ⟨1⟩).1) "v").map (·.attr.value.string?) =
        some (some "base") := by
    decide +kernel
  obtain ⟨d, hd, hderived⟩ := Option.map_eq_some_iff.1 hlookup
  obtain ⟨r, hr, hbase⟩ := Option.map_eq_some_iff.1 hresolve
  -- a string is no array and no map, so it would be the same string
  have hvalue : r.attr.value = d.attr.value := by
    refine (h.same d r hd hr).value.elim id fun hrenews => hrenews.shared ?_
    cases hv : d.attr.value with
    | string _ => rfl
    | _ => rw [hv] at hderived; cases hderived
  rw [hvalue, hderived] at hbase
  simp at hbase

end Store

end ScriptMachine
