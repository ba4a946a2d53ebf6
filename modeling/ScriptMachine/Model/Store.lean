import ScriptMachine.Table
import ScriptMachine.Code.Template
import ScriptMachine.Model.Signal

namespace ScriptMachine

structure Attribute where
  value : Value
  flags : Flags := {}
  deriving Inhabited

abbrev Attributes := Table Attribute

structure Object where
  type : TypeId
  attributes : Attributes := .empty
  deriving Inhabited

/-- Identity of compiled code: which load brought it in, and the way to it from the top level. -/
structure CodeId where
  load : Nat
  path : List Nat := []
  deriving DecidableEq, Inhabited

/-- Code with the static slots that it works on. -/
structure Closure where
  template : Template
  code : CodeId
  statics : StaticsId
  deriving Inhabited

def Closure.name (c : Closure) : String :=
  c.template.displayName

/-- A function literal of the code, on the same static slots. -/
def Closure.nested? (c : Closure) (i : Nat) : Option Closure :=
  c.template.body.nested[i]?.map fun template =>
    { c with template, code := { c.code with path := c.code.path ++ [i] } }

structure Function where
  closure : Closure
  attributes : Attributes := .empty
  deriving Inhabited

/-- The methods that come with the built-in types. -/
inductive Method where
  | getType | isA | toString
  | getName | getBaseType | getTraits
  | arraySize | arrayPush | arrayPop | arrayGet | arraySet
  | mapSize | mapGet | mapSet | mapContains | mapKeys
  | stringLength
  | getParamCount | getMinParamCount | getMaxParamCount | getMultiParam | getLine | clone
  | exceptionConstructor | getMessage
  deriving DecidableEq, Inhabited

inductive NativeBody where
  | method (m : Method)
  /-- A host function of the receiver and the arguments. -/
  | host (run : Value → List Value → HostProgram)

structure Native where
  name : String
  minimum : Nat
  maximum : Option Nat
  body : NativeBody
  /-- Values that the function keeps alive. -/
  holds : List Value := []

instance : Inhabited Native := ⟨⟨"", 0, none, .method default, []⟩⟩

/-- A receiver, and what a call on its behalf goes to. That is a function when an attribute was read
off the receiver, but the host may tie any value. -/
structure Bound where
  receiver : Value
  method : Value
  deriving Inhabited

/-- The bound methods. They never change, so that one which goes to another goes to an older one. -/
structure Bounds where
  cells : Array Bound
  older : ∀ i (h : i < cells.size), cells[i].method.BoundBelow i

namespace Bounds

def empty : Bounds :=
  ⟨#[], fun _ h => absurd h (Nat.not_lt_zero _)⟩

instance : Inhabited Bounds := ⟨empty⟩

def size (bs : Bounds) : Nat :=
  bs.cells.size

def push (bs : Bounds) (b : Bound) (h : b.method.BoundBelow bs.size) : Bounds where
  cells := bs.cells.push b
  older i hi := by
    rw [Array.getElem_push]
    split
    · exact bs.older i _
    · rw [Array.size_push] at hi
      rwa [Nat.le_antisymm (Nat.le_of_lt_succ hi) (Nat.le_of_not_lt ‹_›)]

/-- The bound method at an index, or one that goes to nothing. -/
def get (bs : Bounds) (i : Nat) : Bound :=
  bs.cells.getD i default

theorem boundBelow_get (bs : Bounds) (i : Nat) : (bs.get i).method.BoundBelow i := by
  rw [get, Array.getD_eq_getD_getElem?]
  by_cases h : i < bs.cells.size
  · rw [Array.getElem?_eq_getElem h]
    exact bs.older i h
  · rw [Array.getElem?_eq_none (Nat.le_of_not_lt h)]
    exact trivial

theorem get_push (bs : Bounds) (b : Bound) (h : b.method.BoundBelow bs.size) (i : Nat) :
    (bs.push b h).get i = if i = bs.size then b else bs.get i := by
  rw [get, push, Array.getD_eq_getD_getElem?, Array.getElem?_push, get,
    Array.getD_eq_getD_getElem?]
  exact apply_ite (Option.getD · default) ..

theorem get_of_size_le {bs : Bounds} {i : Nat} (h : bs.size ≤ i) : bs.get i = default := by
  rw [get, Array.getD_eq_getD_getElem?, Array.getElem?_eq_none h]
  rfl

@[simp] theorem size_push (bs : Bounds) (b : Bound) (h : b.method.BoundBelow bs.size) :
    (bs.push b h).size = bs.size + 1 :=
  Array.size_push ..

end Bounds

/-- The attributes of a trait at the time when it was composed into a type. -/
structure Snapshot where
  name : String
  attributes : Attributes
  deriving Inhabited

structure TypeCell where
  name : String
  base : Option TypeId
  attributes : Attributes := .empty
  /-- In order of composition. -/
  traits : List Snapshot := []
  deriving Inhabited

structure Trait where
  name : String
  attributes : Attributes := .empty
  deriving Inhabited

structure Hosted where
  type : TypeId
  datum : Datum
  deriving Inhabited

/-- The static slots of one load; a slot without a value is not assigned yet. -/
structure Statics where
  source : Option String := none
  slots : Array (String × Option Value) := #[]
  deriving Inhabited

namespace Statics

def ofNames (names : List String) (source : Option String := none) : Statics where
  source := source
  slots := (names.map fun n => (n, none)).toArray

def get? (s : Statics) (slot : Nat) : Option Value :=
  s.slots[slot]?.bind Prod.snd

def isInitialized (s : Statics) (slot : Nat) : Bool :=
  (s.get? slot).isSome

def set (s : Statics) (slot : Nat) (v : Value) : Except Cause Statics :=
  match s.slots[slot]? with
  | some (name, _) => .ok { s with slots := s.slots.setIfInBounds slot (name, some v) }
  | none => .error (.breakdown (.noStatic slot))

def slotOf? (s : Statics) (name : String) : Option Nat :=
  s.slots.findIdx? (·.1 == name)

def nameOf? (s : Statics) (slot : Nat) : Option String :=
  s.slots[slot]?.map Prod.fst

def clear (s : Statics) : Statics :=
  { s with slots := s.slots.map fun e => (e.1, none) }

end Statics

/-- One table of cells for each kind. Cells are never removed, so that an identity stays valid. -/
structure Store where
  arrays : Array (Array Value) := #[]
  maps : Array (Table Value) := #[]
  objects : Array Object := #[]
  functions : Array Function := #[]
  natives : Array Native := #[]
  bounds : Bounds := .empty
  types : Array TypeCell := #[]
  traits : Array Trait := #[]
  hosted : Array Hosted := #[]
  statics : Array Statics := #[]
  deriving Inhabited

namespace Store

def array (s : Store) (id : ArrayId) : Array Value := s.arrays.getD id.index default
def map (s : Store) (id : MapId) : Table Value := s.maps.getD id.index default
def object (s : Store) (id : ObjectId) : Object := s.objects.getD id.index default
def function (s : Store) (id : FunctionId) : Function := s.functions.getD id.index default
def native (s : Store) (id : NativeId) : Native := s.natives.getD id.index default
def bound (s : Store) (id : BoundId) : Bound := s.bounds.get id.index
def type (s : Store) (id : TypeId) : TypeCell := s.types.getD id.index default
def trait (s : Store) (id : TraitId) : Trait := s.traits.getD id.index default
def hostedCell (s : Store) (id : HostedId) : Hosted := s.hosted.getD id.index default
def staticsCell (s : Store) (id : StaticsId) : Statics := s.statics.getD id.index default

def newArray (s : Store) (items : Array Value) : ArrayId × Store :=
  (⟨s.arrays.size⟩, { s with arrays := s.arrays.push items })

def newMap (s : Store) (entries : Table Value) : MapId × Store :=
  (⟨s.maps.size⟩, { s with maps := s.maps.push entries })

def newObject (s : Store) (o : Object) : ObjectId × Store :=
  (⟨s.objects.size⟩, { s with objects := s.objects.push o })

def newFunction (s : Store) (f : Function) : FunctionId × Store :=
  (⟨s.functions.size⟩, { s with functions := s.functions.push f })

def newNative (s : Store) (n : Native) : NativeId × Store :=
  (⟨s.natives.size⟩, { s with natives := s.natives.push n })

def newBound (s : Store) (b : Bound) (h : b.method.BoundBelow s.bounds.size) : BoundId × Store :=
  (⟨s.bounds.size⟩, { s with bounds := s.bounds.push b h })

@[simp] theorem bound_newBound (s : Store) (b : Bound) (h : b.method.BoundBelow s.bounds.size) :
    (s.newBound b h).2.bound (s.newBound b h).1 = b :=
  (s.bounds.get_push b h s.bounds.size).trans (if_pos rfl)

def newType (s : Store) (t : TypeCell) : TypeId × Store :=
  (⟨s.types.size⟩, { s with types := s.types.push t })

def newTrait (s : Store) (t : Trait) : TraitId × Store :=
  (⟨s.traits.size⟩, { s with traits := s.traits.push t })

def newHosted (s : Store) (h : Hosted) : HostedId × Store :=
  (⟨s.hosted.size⟩, { s with hosted := s.hosted.push h })

def newStatics (s : Store) (b : Statics) : StaticsId × Store :=
  (⟨s.statics.size⟩, { s with statics := s.statics.push b })

def setArray (s : Store) (id : ArrayId) (f : Array Value → Array Value) : Store :=
  { s with arrays := s.arrays.modify id.index f }

def setMap (s : Store) (id : MapId) (f : Table Value → Table Value) : Store :=
  { s with maps := s.maps.modify id.index f }

def setObject (s : Store) (id : ObjectId) (f : Attributes → Attributes) : Store :=
  { s with objects := s.objects.modify id.index fun o => { o with attributes := f o.attributes } }

def setFunction (s : Store) (id : FunctionId) (f : Attributes → Attributes) : Store :=
  { s with
    functions := s.functions.modify id.index fun o => { o with attributes := f o.attributes } }

def setType (s : Store) (id : TypeId) (f : Attributes → Attributes) : Store :=
  { s with types := s.types.modify id.index fun t => { t with attributes := f t.attributes } }

def setTrait (s : Store) (id : TraitId) (f : Attributes → Attributes) : Store :=
  { s with traits := s.traits.modify id.index fun t => { t with attributes := f t.attributes } }

def setDatum (s : Store) (id : HostedId) (d : Datum) : Store :=
  { s with hosted := s.hosted.modify id.index fun h => { h with datum := d } }

def setStatics (s : Store) (id : StaticsId) (b : Statics) : Store :=
  { s with statics := s.statics.setIfInBounds id.index b }

/-- Copies the present attributes of a trait into a type. -/
def compose (s : Store) (t : TypeId) (b : TraitId) : Store :=
  let trait := s.trait b
  { s with
    types := s.types.modify t.index fun c =>
      { c with traits := c.traits ++ [⟨trait.name, trait.attributes⟩] } }

end Store

end ScriptMachine
