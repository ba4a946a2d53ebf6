import ScriptMachine.Engine.Method
import ScriptMachine.Model.Release
import ScriptMachine.Proofs.Model.Causes

namespace ScriptMachine

section All

variable {α : Type} {P Q : α → Prop}

theorem forall_mem_modify (i : Nat) (f : α → α) {a : Array α} (h : ∀ y ∈ a, P y)
    (hf : ∀ y ∈ a, P (f y)) : ∀ y ∈ a.modify i f, P y := by
  intro y hy
  obtain ⟨j, hj⟩ := Array.mem_iff_getElem?.1 hy
  rw [Array.getElem?_modify] at hj
  split at hj
  · obtain ⟨x, hx, rfl⟩ := Option.map_eq_some_iff.1 hj
    exact hf x (Array.mem_of_getElem? hx)
  · exact h y (Array.mem_of_getElem? hj)

theorem forall_mem_setIfInBounds {a : Array α} {i : Nat} {x : α} (h : ∀ y ∈ a, P y) (hx : P x) :
    ∀ y ∈ a.setIfInBounds i x, P y := by
  intro y hy
  rcases Array.mem_or_eq_of_mem_setIfInBounds hy with hy | rfl
  · exact h y hy
  · exact hx

theorem forall_getD [Inhabited α] {a : Array α} (h : ∀ y ∈ a, P y) (hd : P default) (i : Nat) :
    P (a.getD i default) := by
  rw [Array.getD_eq_getD_getElem?]
  cases hi : a[i]? with
  | none => exact hd
  | some x => exact h x (Array.mem_of_getElem? hi)

theorem getD_of_forall {o : Option α} {d : α} (h : ∀ x ∈ o, P x) (hd : P d) : P (o.getD d) := by
  cases o with
  | none => exact hd
  | some x => exact h x rfl

/-- Everything in the table has `P`. -/
def Table.All (P : α → Prop) (t : Table α) : Prop :=
  ∀ name v, t.get? name = some v → P v

namespace Table.All

variable {t : Table α}

theorem empty : (Table.empty : Table α).All P :=
  fun _ _ h => nomatch h

theorem insert (h : t.All P) {name : String} {v : α} (hv : P v) : (t.insert name v).All P := by
  intro other w hw
  rw [get?_insert] at hw
  split at hw
  · cases hw
    exact hv
  · exact h other w hw

theorem insertAll (h : t.All P) {l : List (String × α)} (hl : ∀ e ∈ l, P e.2) :
    (t.insertAll l).All P := by
  induction l generalizing t with
  | nil => exact h
  | cons e l ih =>
    rw [List.forall_mem_cons] at hl
    exact ih (h.insert hl.1) hl.2

theorem ofList {l : List (String × α)} (hl : ∀ e ∈ l, P e.2) : (Table.ofList l).All P :=
  insertAll empty hl

theorem of_mem (h : t.All P) {e : String × α} (he : e ∈ t.entries) : P e.2 :=
  h e.1 e.2 (get?_eq_some_iff.2 he)

theorem imp (h : t.All P) (hPQ : ∀ v, P v → Q v) : t.All Q :=
  fun name v hv => hPQ v (h name v hv)

end Table.All

end All

/-- The value is not a type beyond the first `n`. -/
def Value.Known (n : Nat) : Value → Prop
  | .type t => t.index < n
  | _ => True

theorem Value.Known.mono {n k : Nat} {v : Value} (h : v.Known n) (hk : n ≤ k) : v.Known k := by
  cases v with
  | type t => exact Nat.lt_of_lt_of_le h hk
  | _ => trivial

theorem Callable.known_value (c : Callable) (n : Nat) : c.value.Known n := by
  cases c <;> trivial

def Attributes.Known (n : Nat) (as : Attributes) : Prop :=
  as.All fun a => a.value.Known n

theorem Attributes.Known.mono {n k : Nat} {as : Attributes} (h : Attributes.Known n as)
    (hk : n ≤ k) : Attributes.Known k as :=
  h.imp fun _ ha => ha.mono hk

def Signal.Known (n : Nat) : Signal → Prop
  | .error _ => True
  | .raise v => v.Known n

def Outcome.Known (n : Nat) : Outcome → Prop
  | .ok v => v.Known n
  | .error s => s.Known n

/-- A host program that uses known values, as long as it is given such. By the time of an answer
there may be more types. -/
def HostProgram.Known : Nat → HostProgram → Prop
  | n, finish outcome => Outcome.Known n outcome
  | n, call _ this args next => (∀ v ∈ this, v.Known n) ∧ (∀ v ∈ args, v.Known n) ∧
      ∀ k outcome, n ≤ k → Outcome.Known k outcome → (next outcome).Known k
  | n, callMethod receiver _ args next => receiver.Known n ∧ (∀ v ∈ args, v.Known n) ∧
      ∀ k outcome, n ≤ k → Outcome.Known k outcome → (next outcome).Known k
  | n, newArray items next => (∀ v ∈ items, v.Known n) ∧ ∀ id, (next (.array id)).Known n
  | n, typeName _ next => ∀ name, (next name).Known n
  | n, readDatum _ next => ∀ d, (next d).Known n
  | n, writeDatum _ _ next => next.Known n

def NativeBody.Known (n : Nat) : NativeBody → Prop
  | .method _ => True
  | .host p => ∀ k this args, n ≤ k → this.Known k → (∀ v ∈ args, v.Known k) → (p this args).Known k

theorem NativeBody.Known.mono {n k : Nat} {body : NativeBody} (h : body.Known n) (hk : n ≤ k) :
    body.Known k := by
  cases body with
  | method m => trivial
  | host p => exact fun j this args hj => h j this args (Nat.le_trans hk hj)

def Object.Known (n : Nat) (o : Object) : Prop :=
  o.type.index < n ∧ Attributes.Known n o.attributes

def Bound.Known (n : Nat) (b : Bound) : Prop :=
  b.receiver.Known n ∧ b.method.Known n

theorem Bound.Known.mono {n k : Nat} {b : Bound} (h : b.Known n) (hk : n ≤ k) : b.Known k :=
  ⟨h.1.mono hk, h.2.mono hk⟩

/-- The attributes of a type, those of its traits included. -/
def TypeCell.Known (n : Nat) (c : TypeCell) : Prop :=
  Attributes.Known n c.attributes ∧ ∀ t ∈ c.traits, Attributes.Known n t.attributes

/-- The type with index `i` is the root, or has an older base. -/
def TypeCell.BasedAt (i : Nat) (c : TypeCell) : Prop :=
  match c.base with
  | none => i = Builtin.object.id.index
  | some b => b.index < i

def Statics.Known (n : Nat) (b : Statics) : Prop :=
  ∀ e ∈ b.slots, ∀ v ∈ e.2, v.Known n

/-- A store with `n` types, the built-in ones among them, whose cells name no others. -/
structure Store.Known (n : Nat) (s : Store) : Prop where
  size : s.types.size = n
  builtins : Builtin.all.length ≤ n
  bases : ∀ (i : Nat) (c : TypeCell), s.types[i]? = some c → c.BasedAt i
  arrays : ∀ items ∈ s.arrays, ∀ v ∈ items, v.Known n
  maps : ∀ entries ∈ s.maps, entries.All (Value.Known n)
  objects : ∀ o ∈ s.objects, o.Known n
  functions : ∀ f ∈ s.functions, Attributes.Known n f.attributes
  natives : ∀ f ∈ s.natives, f.body.Known n
  bounds : ∀ b ∈ s.bounds.cells, b.Known n
  types : ∀ c ∈ s.types, c.Known n
  traits : ∀ t ∈ s.traits, Attributes.Known n t.attributes
  hosted : ∀ h ∈ s.hosted, h.type.index < n
  statics : ∀ b ∈ s.statics, b.Known n

theorem Builtin.index_lt (b : Builtin) : b.id.index < Builtin.all.length := by
  cases b <;> decide

namespace Store.Known

variable {n : Nat} {s : Store}

theorem builtin (h : s.Known n) (b : Builtin) : b.id.index < n :=
  Nat.lt_of_lt_of_le b.index_lt h.builtins

theorem array (h : s.Known n) (id : ArrayId) : ∀ v ∈ s.array id, v.Known n :=
  forall_getD h.arrays (Array.forall_mem_empty _) id.index

theorem map (h : s.Known n) (id : MapId) : (s.map id).All (Value.Known n) :=
  forall_getD h.maps .empty id.index

theorem object (h : s.Known n) (id : ObjectId) : (s.object id).Known n :=
  forall_getD h.objects ⟨h.builtin .object, .empty⟩ id.index

theorem function (h : s.Known n) (id : FunctionId) :
    Attributes.Known n (s.function id).attributes :=
  forall_getD (P := fun f : Function => Attributes.Known n f.attributes) h.functions .empty id.index

theorem native (h : s.Known n) (id : NativeId) : (s.native id).body.Known n :=
  forall_getD (P := fun f : Native => f.body.Known n) h.natives (by trivial) id.index

theorem bound (h : s.Known n) (id : BoundId) : (s.bound id).Known n :=
  forall_getD (P := Bound.Known n) h.bounds ⟨by trivial, by trivial⟩ id.index

theorem type (h : s.Known n) (t : TypeId) : (s.type t).Known n :=
  forall_getD h.types ⟨.empty, nofun⟩ t.index

theorem trait (h : s.Known n) (id : TraitId) : Attributes.Known n (s.trait id).attributes :=
  forall_getD (P := fun t : Trait => Attributes.Known n t.attributes) h.traits .empty id.index

theorem hostedCell (h : s.Known n) (id : HostedId) : (s.hostedCell id).type.index < n :=
  forall_getD (P := fun c : Hosted => c.type.index < n) h.hosted (h.builtin .object) id.index

theorem staticsCell (h : s.Known n) (id : StaticsId) : (s.staticsCell id).Known n :=
  forall_getD h.statics (Array.forall_mem_empty _) id.index

theorem typeOf (h : s.Known n) (v : Value) : (s.typeOf v).index < n := by
  cases v with
  | object id => exact (h.object id).1
  | hosted id => exact h.hostedCell id
  | _ => exact h.builtin _

theorem base_older (h : s.Known n) {t b : TypeId} (hb : (s.type t).base = some b) :
    b.index < t.index ∧ t.index < n := by
  rw [Store.type, Array.getD_eq_getD_getElem?] at hb
  cases hc : s.types[t.index]? with
  | none =>
    rw [hc] at hb
    cases hb
  | some c =>
    rw [hc, Option.getD_some] at hb
    have hbased := h.bases t.index c hc
    rw [TypeCell.BasedAt, hb] at hbased
    have hlt := (Array.getElem?_eq_some_iff.1 hc).1
    exact ⟨hbased, h.size ▸ hlt⟩

theorem find?_type (h : s.Known n) {t : TypeId} {name : String} {r : Resolved}
    (hr : (s.type t).find? t name = some r) : r.attr.value.Known n := by
  unfold TypeCell.find? at hr
  split at hr
  · rename_i a ha
    cases hr
    exact (h.type t).1 name a ha
  · obtain ⟨snapshot, hmem, hr⟩ := List.exists_of_findSome?_eq_some hr
    obtain ⟨a, ha, rfl⟩ := Option.map_eq_some_iff.1 hr
    exact (h.type t).2 snapshot (List.mem_reverse.1 hmem) name a ha

theorem lookup (h : s.Known n) {t : TypeId} {name : String} {r : Resolved}
    (hr : s.lookup t name = some r) : r.attr.value.Known n := by
  obtain ⟨u, -, hr⟩ := List.exists_of_findSome?_eq_some hr
  exact h.find?_type hr

theorem ownAttributes (h : s.Known n) {v : Value} {as : Attributes}
    (has : s.ownAttributes? v = some as) : Attributes.Known n as := by
  cases v with
  | object id => cases has; exact (h.object id).2
  | function id => cases has; exact h.function id
  | type id => cases has; exact (h.type id).1
  | trait id => cases has; exact h.trait id
  | _ => cases has

theorem resolveOwn (h : s.Known n) {receiver : Value} {name : String} {r : Resolved}
    (hr : s.resolveOwn receiver name = some r) : r.attr.value.Known n := by
  unfold Store.resolveOwn at hr
  split at hr
  · exact h.lookup hr
  · obtain ⟨a, ha, rfl⟩ := Option.map_eq_some_iff.1 hr
    obtain ⟨as, has, ha⟩ := Option.bind_eq_some_iff.1 ha
    exact h.ownAttributes has name a ha

theorem resolve (h : s.Known n) {receiver : Value} {name : String} {r : Resolved}
    (hr : s.resolve receiver name = some r) : r.attr.value.Known n := by
  rcases Option.or_eq_some_iff.1 hr with hr | ⟨-, hr⟩
  · exact h.resolveOwn hr
  · exact h.lookup hr

theorem find (h : s.Known n) {access : Access} {receiver v : Value} {name : String}
    (hv : s.find access receiver name = .ok v) : v.Known n := by
  unfold Store.find at hv
  split at hv
  · cases hv
  · rename_i r hr
    obtain ⟨_, -, hv⟩ := exceptBind_eq_ok hv
    cases hv
    exact h.resolve hr

theorem newArray (h : s.Known n) {items : Array Value} (hi : ∀ v ∈ items, v.Known n) :
    (s.newArray items).2.Known n :=
  { h with arrays := Array.forall_mem_push.2 ⟨hi, h.arrays⟩ }

theorem newMap (h : s.Known n) {entries : Table Value} (he : entries.All (Value.Known n)) :
    (s.newMap entries).2.Known n :=
  { h with maps := Array.forall_mem_push.2 ⟨he, h.maps⟩ }

theorem newObject (h : s.Known n) {o : Object} (ho : o.Known n) : (s.newObject o).2.Known n :=
  { h with objects := Array.forall_mem_push.2 ⟨ho, h.objects⟩ }

theorem newFunction (h : s.Known n) {f : Function} (hf : Attributes.Known n f.attributes) :
    (s.newFunction f).2.Known n :=
  { h with functions := Array.forall_mem_push.2 ⟨hf, h.functions⟩ }

theorem newNative (h : s.Known n) {f : Native} (hf : f.body.Known n) :
    (s.newNative f).2.Known n :=
  { h with natives := Array.forall_mem_push.2 ⟨hf, h.natives⟩ }

theorem newBound (h : s.Known n) {b : Bound} (hb : b.Known n)
    (hold : b.method.BoundBelow s.bounds.size) : (s.newBound b hold).2.Known n :=
  { h with bounds := Array.forall_mem_push.2 ⟨hb, h.bounds⟩ }

theorem newTrait (h : s.Known n) {t : Trait} (ht : Attributes.Known n t.attributes) :
    (s.newTrait t).2.Known n :=
  { h with traits := Array.forall_mem_push.2 ⟨ht, h.traits⟩ }

theorem newHosted (h : s.Known n) {c : Hosted} (hc : c.type.index < n) :
    (s.newHosted c).2.Known n :=
  { h with hosted := Array.forall_mem_push.2 ⟨hc, h.hosted⟩ }

theorem newStatics (h : s.Known n) {b : Statics} (hb : b.Known n) : (s.newStatics b).2.Known n :=
  { h with statics := Array.forall_mem_push.2 ⟨hb, h.statics⟩ }

/-- A type is newer than everything its base can be. -/
theorem newType (h : s.Known n) (name : String) {b : TypeId} (hb : b.index < n) :
    (s.newType { name, base := some b }).2.Known (n + 1) where
  size := (Array.size_push ..).trans (congrArg (· + 1) h.size)
  builtins := Nat.le_succ_of_le h.builtins
  bases i c hc := by
    rw [Store.newType, Array.getElem?_push] at hc
    split at hc
    · rename_i hi
      cases hc
      rw [TypeCell.BasedAt, hi, h.size]
      exact hb
    · exact h.bases i c hc
  arrays items hi v hv := (h.arrays items hi v hv).mono (Nat.le_succ n)
  maps entries he := (h.maps entries he).imp fun _ hv => hv.mono (Nat.le_succ n)
  objects o ho := ⟨Nat.lt_succ_of_lt (h.objects o ho).1, (h.objects o ho).2.mono (Nat.le_succ n)⟩
  functions f hf := (h.functions f hf).mono (Nat.le_succ n)
  natives f hf := (h.natives f hf).mono (Nat.le_succ n)
  bounds b hb := (h.bounds b hb).mono (Nat.le_succ n)
  types := by
    refine Array.forall_mem_push.2 ⟨⟨.empty, nofun⟩, fun c hc => ?_⟩
    obtain ⟨hown, htraits⟩ := h.types c hc
    exact ⟨hown.mono (Nat.le_succ n), fun t ht => (htraits t ht).mono (Nat.le_succ n)⟩
  traits t ht := (h.traits t ht).mono (Nat.le_succ n)
  hosted c hc := Nat.lt_succ_of_lt (h.hosted c hc)
  statics b hb e he v hv := (h.statics b hb e he v hv).mono (Nat.le_succ n)

section Changes

variable {f : Attributes → Attributes}

theorem setArray (h : s.Known n) (id : ArrayId) {f : Array Value → Array Value}
    (hf : ∀ items, (∀ v ∈ items, v.Known n) → ∀ v ∈ f items, v.Known n) :
    (s.setArray id f).Known n :=
  { h with
    arrays := forall_mem_modify id.index f h.arrays fun items hi => hf items (h.arrays items hi) }

theorem setMap (h : s.Known n) (id : MapId) {f : Table Value → Table Value}
    (hf : ∀ t : Table Value, t.All (Value.Known n) → (f t).All (Value.Known n)) :
    (s.setMap id f).Known n :=
  { h with maps := forall_mem_modify id.index f h.maps fun t ht => hf t (h.maps t ht) }

theorem setObject (h : s.Known n) (id : ObjectId)
    (hf : ∀ as, Attributes.Known n as → Attributes.Known n (f as)) : (s.setObject id f).Known n :=
  { h with
    objects := forall_mem_modify id.index (fun o : Object => { o with attributes := f o.attributes })
      h.objects fun o ho => ⟨(h.objects o ho).1, hf _ (h.objects o ho).2⟩ }

theorem setFunction (h : s.Known n) (id : FunctionId)
    (hf : ∀ as, Attributes.Known n as → Attributes.Known n (f as)) :
    (s.setFunction id f).Known n :=
  { h with
    functions := forall_mem_modify id.index
      (fun o : Function => { o with attributes := f o.attributes }) h.functions
      fun o ho => hf _ (h.functions o ho) }

theorem setTrait (h : s.Known n) (id : TraitId)
    (hf : ∀ as, Attributes.Known n as → Attributes.Known n (f as)) : (s.setTrait id f).Known n :=
  { h with
    traits := forall_mem_modify id.index (fun t : Trait => { t with attributes := f t.attributes })
      h.traits fun t ht => hf _ (h.traits t ht) }

theorem setDatum (h : s.Known n) (id : HostedId) (d : Datum) : (s.setDatum id d).Known n :=
  { h with
    hosted := forall_mem_modify id.index (fun c : Hosted => { c with datum := d }) h.hosted
      h.hosted }

theorem setStatics (h : s.Known n) (id : StaticsId) {b : Statics} (hb : b.Known n) :
    (s.setStatics id b).Known n :=
  { h with statics := forall_mem_setIfInBounds h.statics hb }

theorem modifyType (h : s.Known n) (i : Nat) {g : TypeCell → TypeCell}
    (hbase : ∀ c, (g c).base = c.base) (hg : ∀ c : TypeCell, c.Known n → (g c).Known n) :
    Store.Known n { s with types := s.types.modify i g } :=
  { h with
    size := Array.size_modify.trans h.size
    bases := by
      intro j c hc
      rw [Array.getElem?_modify] at hc
      split at hc
      · obtain ⟨c', hc', rfl⟩ := Option.map_eq_some_iff.1 hc
        rw [TypeCell.BasedAt, hbase]
        exact h.bases j c' hc'
      · exact h.bases j c hc
    types := forall_mem_modify i g h.types fun c hc => hg c (h.types c hc) }

theorem setType (h : s.Known n) (id : TypeId)
    (hf : ∀ as, Attributes.Known n as → Attributes.Known n (f as)) : (s.setType id f).Known n :=
  h.modifyType id.index (fun _ => rfl) fun _ hc => ⟨hf _ hc.1, hc.2⟩

theorem compose (h : s.Known n) (t : TypeId) (b : TraitId) : (s.compose t b).Known n := by
  refine h.modifyType t.index (fun _ => rfl) fun c hc => ⟨hc.1, fun snapshot hs => ?_⟩
  rcases List.mem_append.1 hs with hs | hs
  · exact hc.2 snapshot hs
  · rw [List.mem_singleton.1 hs]
    exact h.trait b

theorem setOwn (h : s.Known n) (target : Value)
    (hf : ∀ as, Attributes.Known n as → Attributes.Known n (f as)) :
    (s.setOwn target f).Known n := by
  cases target with
  | object id => exact h.setObject id hf
  | function id => exact h.setFunction id hf
  | type id => exact h.setType id hf
  | trait id => exact h.setTrait id hf
  | _ => exact h

end Changes

end Store.Known

theorem Builtin.index_of_getElem? {b : Builtin} {i : Nat} (h : Builtin.all[i]? = some b) :
    b.id.index = i := by
  have hall : ∀ j : Fin Builtin.all.length, (Builtin.all.get j).id.index = j := by decide
  obtain ⟨hi, rfl⟩ := List.getElem?_eq_some_iff.1 h
  exact hall ⟨i, hi⟩

theorem Builtin.basedAt (b : Builtin) {c : TypeCell} (hc : c.base = b.base?) :
    c.BasedAt b.id.index := by
  rw [TypeCell.BasedAt, hc]
  cases b <;> simp [Builtin.base?, Builtin.id]

theorem Store.builtinAttributes_known (n : Nat) (b : Builtin) :
    Attributes.Known n (Store.builtinAttributes b) := by
  refine Table.All.ofList fun e he => ?_
  rcases List.mem_append.1 he with he | he
  · split at he
    · simp only [Store.exceptionSlots, List.mem_cons, List.not_mem_nil, or_false] at he
      rcases he with rfl | rfl | rfl <;> trivial
    · cases he
  · obtain ⟨⟨entry, i⟩, -, he⟩ := List.mem_filterMap.1 he
    dsimp only at he
    split at he
    · cases he
      trivial
    · cases he

theorem Store.initial_known : Store.initial.Known Builtin.all.length where
  size := rfl
  builtins := Nat.le_refl _
  bases i c hc := by
    rw [Store.initial, List.getElem?_toArray, List.getElem?_map] at hc
    obtain ⟨b, hb, rfl⟩ := Option.map_eq_some_iff.1 hc
    rw [← Builtin.index_of_getElem? hb]
    exact b.basedAt rfl
  arrays := Array.forall_mem_empty _
  maps := Array.forall_mem_empty _
  objects := Array.forall_mem_empty _
  functions := Array.forall_mem_empty _
  natives f hf := by
    obtain ⟨e, -, rfl⟩ := List.mem_map.1 (List.mem_toArray.1 hf)
    trivial
  bounds := Array.forall_mem_empty _
  types c hc := by
    obtain ⟨b, -, rfl⟩ := List.mem_map.1 (List.mem_toArray.1 hc)
    exact ⟨Store.builtinAttributes_known _ b, nofun⟩
  traits := Array.forall_mem_empty _
  hosted := Array.forall_mem_empty _
  statics := Array.forall_mem_empty _

end ScriptMachine
