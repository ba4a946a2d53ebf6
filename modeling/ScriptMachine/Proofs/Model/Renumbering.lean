import ScriptMachine.Model.Access
import ScriptMachine.Model.Display
import ScriptMachine.Proofs.Model.Chain

namespace ScriptMachine

/-- New numbers for bound methods, different for different ones. -/
structure Renumbering where
  image : BoundId → BoundId
  injective : ∀ {a b : BoundId}, image a = image b → a = b

variable {ρ : Renumbering}

namespace Value

def renumber (ρ : Renumbering) : Value → Value
  | bound id => bound (ρ.image id)
  | v => v

@[simp] theorem renumber_void : void.renumber ρ = void := rfl

@[simp] theorem kindName_renumber (v : Value) : (v.renumber ρ).kindName = v.kindName := by
  cases v <;> rfl

@[simp] theorem truthy_renumber (v : Value) : (v.renumber ρ).truthy = v.truthy := by
  cases v <;> rfl

@[simp] theorem isVoid_renumber (v : Value) : (v.renumber ρ).isVoid = v.isVoid := by
  cases v <;> rfl

@[simp] theorem isCallable_renumber (v : Value) : (v.renumber ρ).isCallable = v.isCallable := by
  cases v <;> rfl

@[simp] theorem index?_renumber (v : Value) : (v.renumber ρ).index? = v.index? := by
  cases v <;> rfl

@[simp] theorem mapKey?_renumber (v : Value) : (v.renumber ρ).mapKey? = v.mapKey? := by
  cases v <;> rfl

@[simp] theorem primitiveText?_renumber (v : Value) :
    (v.renumber ρ).primitiveText? = v.primitiveText? := by
  cases v <;> rfl

@[simp] theorem callable?_renumber (v : Value) : (v.renumber ρ).callable? = v.callable? := by
  cases v <;> rfl

@[simp] theorem renumber_callable (c : Callable) : c.value.renumber ρ = c.value := by
  cases c <;> rfl

@[simp] theorem renumber_ofConstant (c : Constant) : (ofConstant c).renumber ρ = ofConstant c := by
  cases c <;> rfl

@[simp] theorem renumber_beq (v w : Value) : (v.renumber ρ == w.renumber ρ) = (v == w) := by
  change same (v.renumber ρ) (w.renumber ρ) = same v w
  cases v with
  | bound a =>
    cases w with
    | bound b =>
      change (ρ.image a == ρ.image b) = (a == b)
      rw [Bool.eq_iff_iff, beq_iff_eq, beq_iff_eq]
      exact ⟨ρ.injective, congrArg ρ.image⟩
    | _ => rfl
  | _ => cases w <;> rfl

end Value

section Tables

variable {α β : Type}

theorem findEntry_map (f : α → β) (name : String) (l : List (String × α)) :
    findEntry name (l.map fun e => (e.1, f e.2)) = (findEntry name l).map f := by
  induction l with
  | nil => rfl
  | cons e rest ih =>
    simp only [List.map_cons, findEntry, ih]
    split <;> rfl

theorem putEntry_map (f : α → β) (name : String) (v : α) (l : List (String × α)) :
    putEntry name (f v) (l.map fun e => (e.1, f e.2)) =
      (putEntry name v l).map fun e => (e.1, f e.2) := by
  induction l with
  | nil => rfl
  | cons e rest ih =>
    simp only [List.map_cons, putEntry, ih]
    split <;> rfl

namespace Table

def map (f : α → β) (t : Table α) : Table β where
  entries := t.entries.map fun e => (e.1, f e.2)
  nodup := by
    have hnames : (t.entries.map fun e => (e.1, f e.2)).map Prod.fst = t.entries.map Prod.fst := by
      rw [List.map_map]
      rfl
    rw [hnames]
    exact t.nodup

@[simp] theorem map_empty (f : α → β) : (empty : Table α).map f = empty := rfl

@[simp] theorem names_map (f : α → β) (t : Table α) : (t.map f).names = t.names := by
  simp [names, map, Function.comp_def]

@[simp] theorem size_map (f : α → β) (t : Table α) : (t.map f).size = t.size := by
  simp [size, map]

@[simp] theorem values_map (f : α → β) (t : Table α) : (t.map f).values = t.values.map f := by
  simp [values, map, Function.comp_def]

@[simp] theorem get?_map (f : α → β) (t : Table α) (name : String) :
    (t.map f).get? name = (t.get? name).map f :=
  findEntry_map f name t.entries

@[simp] theorem contains_map (f : α → β) (t : Table α) (name : String) :
    (t.map f).contains name = t.contains name := by
  simp [contains]

theorem insert_map (f : α → β) (t : Table α) (name : String) (v : α) :
    (t.map f).insert name (f v) = (t.insert name v).map f :=
  Table.ext (putEntry_map f name v t.entries)

end Table

end Tables

def Attribute.renumber (ρ : Renumbering) (a : Attribute) : Attribute :=
  { a with value := a.value.renumber ρ }

@[simp] theorem Attribute.value_renumber (a : Attribute) :
    (a.renumber ρ).value = a.value.renumber ρ := rfl

@[simp] theorem Attribute.flags_renumber (a : Attribute) : (a.renumber ρ).flags = a.flags := rfl

def Object.renumber (ρ : Renumbering) (o : Object) : Object :=
  { o with attributes := o.attributes.map (Attribute.renumber ρ) }

def Function.renumber (ρ : Renumbering) (f : Function) : Function :=
  { f with attributes := f.attributes.map (Attribute.renumber ρ) }

def Bound.renumber (ρ : Renumbering) (b : Bound) : Bound :=
  ⟨b.receiver.renumber ρ, b.method.renumber ρ⟩

def Snapshot.renumber (ρ : Renumbering) (s : Snapshot) : Snapshot :=
  { s with attributes := s.attributes.map (Attribute.renumber ρ) }

def TypeCell.renumber (ρ : Renumbering) (c : TypeCell) : TypeCell :=
  { c with
    attributes := c.attributes.map (Attribute.renumber ρ)
    traits := c.traits.map (Snapshot.renumber ρ) }

def Trait.renumber (ρ : Renumbering) (t : Trait) : Trait :=
  { t with attributes := t.attributes.map (Attribute.renumber ρ) }

def Statics.renumber (ρ : Renumbering) (b : Statics) : Statics :=
  { b with slots := b.slots.map fun e => (e.1, e.2.map (Value.renumber ρ)) }

def Resolved.renumber (ρ : Renumbering) (r : Resolved) : Resolved :=
  { r with attr := r.attr.renumber ρ }

theorem TypeCell.find?_renumber (c : TypeCell) (t : TypeId) (name : String) :
    (c.renumber ρ).find? t name = (c.find? t name).map (Resolved.renumber ρ) := by
  simp only [TypeCell.find?, TypeCell.renumber, Table.get?_map]
  cases c.attributes.get? name with
  | some a => rfl
  | none =>
    simp only [Option.map_none, ← List.map_reverse, List.findSome?_map, List.map_findSome?]
    congr 1
    funext s
    simp [Snapshot.renumber, Resolved.renumber, Function.comp_def]

theorem Attributes.any_renumber (as : Attributes) {p : Attribute → Bool}
    (hp : ∀ v flags, p ⟨v.renumber ρ, flags⟩ = p ⟨v, flags⟩) :
    (as.map (Attribute.renumber ρ)).values.any p = as.values.any p := by
  rw [Table.values_map, List.any_map]
  exact congrArg as.values.any (funext fun a => hp a.value a.flags)

theorem TypeCell.declares_renumber (c : TypeCell) (f : FunctionId) :
    (c.renumber ρ).declares f = c.declares f := by
  unfold TypeCell.declares
  refine congrArg₂ or (Attributes.any_renumber _ fun v _ => by cases v <;> rfl) ?_
  refine List.any_map.trans (congrArg c.traits.any (funext fun s => ?_))
  exact Attributes.any_renumber _ fun v _ => by cases v <;> rfl

def Access.renumber (ρ : Renumbering) : Access → Access
  | host => host
  | within self => within (self.renumber ρ)
  | running self f => running (self.renumber ρ) f

def Signal.renumber (ρ : Renumbering) : Signal → Signal
  | error fault => error fault
  | raise v => raise (v.renumber ρ)

@[simp] theorem Signal.renumber_ofCause (c : Cause) :
    (Signal.ofCause c).renumber ρ = .ofCause c := rfl

@[simp] theorem Signal.catchable_renumber (s : Signal) :
    (s.renumber ρ).catchable = s.catchable := by
  cases s <;> rfl

def Outcome.renumber (ρ : Renumbering) : Outcome → Outcome
  | .ok v => .ok (v.renumber ρ)
  | .error s => .error (s.renumber ρ)

/-- Two host programs that make the same steps and differ in the numbers of bound methods only. -/
inductive HostProgram.Alike (ρ : Renumbering) : HostProgram → HostProgram → Prop
  | finish (outcome : Outcome) : Alike ρ (.finish outcome) (.finish (Outcome.renumber ρ outcome))
  | call (callee : Value) (this : Option Value) (args : List Value)
      {next next' : Outcome → HostProgram}
      (h : ∀ outcome, Alike ρ (next outcome) (next' (Outcome.renumber ρ outcome))) :
      Alike ρ (.call callee this args next)
        (.call (callee.renumber ρ) (this.map (Value.renumber ρ)) (args.map (Value.renumber ρ))
          next')
  | callMethod (receiver : Value) (name : String) (args : List Value)
      {next next' : Outcome → HostProgram}
      (h : ∀ outcome, Alike ρ (next outcome) (next' (Outcome.renumber ρ outcome))) :
      Alike ρ (.callMethod receiver name args next)
        (.callMethod (receiver.renumber ρ) name (args.map (Value.renumber ρ)) next')
  | newArray (items : List Value) {next next' : Value → HostProgram}
      (h : ∀ v, Alike ρ (next v) (next' (v.renumber ρ))) :
      Alike ρ (.newArray items next) (.newArray (items.map (Value.renumber ρ)) next')
  | typeName (v : Value) {next next' : String → HostProgram}
      (h : ∀ name, Alike ρ (next name) (next' name)) :
      Alike ρ (.typeName v next) (.typeName (v.renumber ρ) next')
  | readDatum (id : HostedId) {next next' : Datum → HostProgram}
      (h : ∀ d, Alike ρ (next d) (next' d)) : Alike ρ (.readDatum id next) (.readDatum id next')
  | writeDatum (id : HostedId) (d : Datum) {next next' : HostProgram} (h : Alike ρ next next') :
      Alike ρ (.writeDatum id d next) (.writeDatum id d next')

/-- Two native bodies of which neither looks at the numbers of bound methods. -/
def NativeBody.Alike (ρ : Renumbering) : NativeBody → NativeBody → Prop
  | .method m, .method m' => m' = m
  | .host p, .host p' => ∀ this args,
      (p this args).Alike ρ (p' (this.renumber ρ) (args.map (Value.renumber ρ)))
  | _, _ => False

structure Native.Alike (ρ : Renumbering) (n n' : Native) : Prop where
  name : n'.name = n.name
  minimum : n'.minimum = n.minimum
  maximum : n'.maximum = n.maximum
  body : n.body.Alike ρ n'.body

/-- Two stores that are the same up to the numbers of bound methods. Both are about to give the next
bound method corresponding numbers. The first one has at least `n` objects. -/
structure Store.Renumbers (ρ : Renumbering) (n : Nat) (s s' : Store) : Prop where
  arrays : s'.arrays = s.arrays.map (·.map (Value.renumber ρ))
  maps : s'.maps = s.maps.map (·.map (Value.renumber ρ))
  objects : s'.objects = s.objects.map (Object.renumber ρ)
  functions : s'.functions = s.functions.map (Function.renumber ρ)
  types : s'.types = s.types.map (TypeCell.renumber ρ)
  traits : s'.traits = s.traits.map (Trait.renumber ρ)
  hosted : s'.hosted = s.hosted
  statics : s'.statics = s.statics.map (Statics.renumber ρ)
  bound : ∀ id, s'.bound (ρ.image id) = (s.bound id).renumber ρ
  fresh : ∀ j, ρ.image ⟨s.bounds.size + j⟩ = ⟨s'.bounds.size + j⟩
  native : ∀ id, (s.native id).Alike ρ (s'.native id)
  enough : n ≤ s.objects.size

theorem getD_map {α : Type} [Inhabited α] {f : α → α} (xs : Array α) (i : Nat)
    (hf : f default = default) : (xs.map f).getD i default = f (xs.getD i default) := by
  simp only [Array.getD_eq_getD_getElem?, Array.getElem?_map]
  cases xs[i]? with
  | none => exact hf.symm
  | some x => rfl

namespace Store.Renumbers

variable {n : Nat} {s s' : Store} (h : s.Renumbers ρ n s')
include h

theorem array (id : ArrayId) : s'.array id = (s.array id).map (Value.renumber ρ) := by
  rw [Store.array, h.arrays]
  exact getD_map s.arrays id.index Array.map_empty

theorem map (id : MapId) : s'.map id = (s.map id).map (Value.renumber ρ) := by
  rw [Store.map, h.maps]
  exact getD_map s.maps id.index rfl

theorem object (id : ObjectId) : s'.object id = (s.object id).renumber ρ := by
  rw [Store.object, h.objects]
  exact getD_map s.objects id.index rfl

theorem function (id : FunctionId) : s'.function id = (s.function id).renumber ρ := by
  rw [Store.function, h.functions]
  exact getD_map s.functions id.index rfl

theorem closure (id : FunctionId) : (s'.function id).closure = (s.function id).closure := by
  rw [h.function]
  rfl

theorem type (t : TypeId) : s'.type t = (s.type t).renumber ρ := by
  rw [Store.type, h.types]
  exact getD_map s.types t.index rfl

theorem trait (id : TraitId) : s'.trait id = (s.trait id).renumber ρ := by
  rw [Store.trait, h.traits]
  exact getD_map s.traits id.index rfl

theorem hostedCell (id : HostedId) : s'.hostedCell id = s.hostedCell id := by
  rw [Store.hostedCell, h.hosted, Store.hostedCell]

theorem staticsCell (id : StaticsId) : s'.staticsCell id = (s.staticsCell id).renumber ρ := by
  rw [Store.staticsCell, h.statics]
  exact getD_map s.statics id.index (congrArg (Statics.mk none) Array.map_empty)

theorem typeOf (v : Value) : s'.typeOf (v.renumber ρ) = s.typeOf v := by
  cases v with
  | object id =>
    change (s'.object id).type = (s.object id).type
    rw [h.object]
    rfl
  | hosted id => exact congrArg Hosted.type (h.hostedCell id)
  | _ => rfl

theorem typeName (t : TypeId) : s'.typeName t = s.typeName t := by
  rw [Store.typeName, h.type]
  rfl

theorem older? (t : TypeId) : s'.older? t = s.older? t := by
  rw [Store.older?, h.type]
  rfl

theorem chain (t : TypeId) : s'.chain t = s.chain t := by
  induction t using older_induction (s := s) with
  | step t ih =>
    rw [chain_eq s', chain_eq s, h.older?]
    cases hb : s.older? t with
    | none => rfl
    | some b => rw [Option.elim_some, Option.elim_some, ih b hb]

theorem isSubtype (t u : TypeId) : s'.isSubtype t u = s.isSubtype t u := by
  rw [Bool.eq_iff_iff, isSubtype_iff_mem_chain, isSubtype_iff_mem_chain, h.chain]

theorem isInstance (v : Value) (t : TypeId) :
    s'.isInstance (v.renumber ρ) t = s.isInstance v t := by
  rw [Store.isInstance, h.typeOf, h.isSubtype, Store.isInstance]

theorem lookup (t : TypeId) (name : String) :
    s'.lookup t name = (s.lookup t name).map (Resolved.renumber ρ) := by
  rw [Store.lookup, h.chain, Store.lookup, List.map_findSome?]
  congr 1
  funext u
  rw [h.type]
  exact (s.type u).find?_renumber u name

theorem ownAttributes? (v : Value) : s'.ownAttributes? (v.renumber ρ) =
    (s.ownAttributes? v).map (·.map (Attribute.renumber ρ)) := by
  cases v with
  | object id => exact congrArg (some ·.attributes) (h.object id)
  | function id => exact congrArg (some ·.attributes) (h.function id)
  | type id => exact congrArg (some ·.attributes) (h.type id)
  | trait id => exact congrArg (some ·.attributes) (h.trait id)
  | _ => rfl

theorem resolveOwn (v : Value) (name : String) : s'.resolveOwn (v.renumber ρ) name =
    (s.resolveOwn v name).map (Resolved.renumber ρ) := by
  have own : ((s'.ownAttributes? (v.renumber ρ)).bind (·.get? name)).map (⟨·, Origin.own⟩) =
      (((s.ownAttributes? v).bind (·.get? name)).map (⟨·, Origin.own⟩)).map
        (Resolved.renumber ρ) := by
    rw [h.ownAttributes?]
    cases s.ownAttributes? v with
    | none => rfl
    | some as => simp [Resolved.renumber, Function.comp_def]
  cases v with
  | type t => exact h.lookup t name
  | _ => exact own

theorem resolve (v : Value) (name : String) : s'.resolve (v.renumber ρ) name =
    (s.resolve v name).map (Resolved.renumber ρ) := by
  rw [Store.resolve, h.resolveOwn, h.typeOf, h.lookup, Store.resolve]
  cases s.resolveOwn v name <;> rfl

theorem selfType (v : Value) : s'.selfType (v.renumber ρ) = s.selfType v := by
  cases v with
  | object id => exact h.typeOf (.object id)
  | hosted id => exact h.typeOf (.hosted id)
  | _ => rfl

theorem methodOwner? (self : Value) (f : FunctionId) :
    s'.methodOwner? (self.renumber ρ) f = s.methodOwner? self f := by
  rw [Store.methodOwner?, h.selfType, h.chain, Store.methodOwner?]
  congr 1
  funext t
  rw [h.type]
  exact (s.type t).declares_renumber f

theorem mayAccess (access : Access) (t : TypeId) :
    s'.mayAccess (access.renumber ρ) t = s.mayAccess access t := by
  cases access with
  | host => rfl
  | within self => exact congrArg (some · == some t) (h.selfType self)
  | running self f => exact congrArg (· == some t) (h.methodOwner? self f)

theorem definingType (v : Value) (name : String) (r : Resolved) :
    s'.definingType (v.renumber ρ) name (r.renumber ρ) = s.definingType v name r := by
  have own : ((s'.lookup (s'.typeOf (v.renumber ρ)) name).bind (originType? ·.origin)).getD
      (s'.typeOf (v.renumber ρ)) =
      ((s.lookup (s.typeOf v) name).bind (originType? ·.origin)).getD (s.typeOf v) := by
    rw [h.typeOf, h.lookup]
    cases s.lookup (s.typeOf v) name <;> rfl
  obtain ⟨a, origin⟩ := r
  cases origin with
  | type t => rfl
  | trait t name => rfl
  | own =>
    cases v with
    | type t => rfl
    | _ => exact own

theorem checkRead (access : Access) (v : Value) (name : String) (r : Resolved) :
    s'.checkRead (access.renumber ρ) (v.renumber ρ) name (r.renumber ρ) =
      s.checkRead access v name r := by
  rw [Store.checkRead, h.definingType, h.mayAccess, h.typeName, Store.checkRead]
  rfl

theorem checkWrite (access : Access) (v : Value) (name : String) (r : Resolved) :
    s'.checkWrite (access.renumber ρ) (v.renumber ρ) name (r.renumber ρ) =
      s.checkWrite access v name r := by
  rw [Store.checkWrite, h.checkRead, Store.checkWrite]
  rfl

theorem find (access : Access) (v : Value) (name : String) :
    s'.find (access.renumber ρ) (v.renumber ρ) name =
      (s.find access v name).map (Value.renumber ρ) := by
  rw [Store.find, h.resolve, h.typeOf, h.typeName, Store.find]
  cases s.resolve v name with
  | none => rfl
  | some r =>
    dsimp only [Option.map_some]
    rw [h.checkRead]
    cases s.checkRead access v name r <;> rfl

section Within

variable {boundText boundText' : BoundId → String}
  (htext : ∀ id, boundText' (ρ.image id) = boundText id)

include htext

theorem flatText (k : Nat) {v : Value} (harray : ∀ id, v ≠ .array id) (hmap : ∀ id, v ≠ .map id) :
    s'.textWithin boundText' k (v.renumber ρ) = s.textWithin boundText k v := by
  cases v with
  | array id => exact absurd rfl (harray id)
  | map id => exact absurd rfl (hmap id)
  | bound id =>
    rw [Value.renumber, Store.textWithin, htext, Store.textWithin]
  | object id =>
    change s'.textWithin boundText' k (.object id) = _
    rw [Store.textWithin, h.object, h.typeName, Store.textWithin]
    rfl
  | hosted id =>
    change s'.textWithin boundText' k (.hosted id) = _
    rw [Store.textWithin, h.hostedCell, h.typeName, Store.textWithin]
  | trait id =>
    change s'.textWithin boundText' k (.trait id) = _
    rw [Store.textWithin, h.trait, Store.textWithin]
    rfl
  | type id =>
    change s'.textWithin boundText' k (.type id) = _
    rw [Store.textWithin, h.typeName, Store.textWithin]
  | function id =>
    change s'.textWithin boundText' k (.function id) = _
    rw [Store.textWithin, h.closure, Store.textWithin]
  | native id =>
    change s'.textWithin boundText' k (.native id) = _
    rw [Store.textWithin, (h.native id).name, Store.textWithin]
  | _ => cases k <;> rfl

theorem textWithin (k : Nat) (v : Value) :
    s'.textWithin boundText' k (v.renumber ρ) = s.textWithin boundText k v := by
  induction k generalizing v with
  | zero =>
    cases v with
    | array id => rfl
    | map id => rfl
    | _ => exact h.flatText htext 0 nofun nofun
  | succ k ih =>
    cases v with
    | array id =>
      change s'.textWithin boundText' (k + 1) (.array id) = _
      rw [Store.textWithin, h.array, Array.toList_map, List.map_map, Store.textWithin]
      simp only [Function.comp_def, ih]
    | map id =>
      change s'.textWithin boundText' (k + 1) (.map id) = _
      rw [Store.textWithin, h.map, Table.map, List.map_map, Store.textWithin]
      simp only [Function.comp_def, ih]
    | _ => exact h.flatText htext (k + 1) nofun nofun

end Within

/-- The text of a bound method tells what it runs, not which one it is. -/
theorem boundText (k : Nat) (id : BoundId) : s'.boundText k (ρ.image id) = s.boundText k id := by
  induction k generalizing id with
  | zero => rfl
  | succ k ih =>
    have htext := h.textWithin ih displayDepth (s.bound id).method
    rw [Store.boundText, h.bound, Store.boundText, ← htext]
    rfl

theorem text (v : Value) : s'.text (v.renumber ρ) = s.text v :=
  h.textWithin (h.boundText maxWord) displayDepth v

end Store.Renumbers

end ScriptMachine
