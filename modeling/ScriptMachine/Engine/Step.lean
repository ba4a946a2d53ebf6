import ScriptMachine.Engine.Call
import ScriptMachine.Engine.Operator

namespace ScriptMachine

/-- What an instruction leaves to be done. -/
inductive Step where
  | next
  | returned (v : Value)
  /-- To run the body of a native function, whose result goes to the operands. -/
  | native (body : NativeBody) (this : Value) (args : List Value) (constructing : Option Value)
  /-- To run a method `==` to its end; the negated result goes to the operands. -/
  | compare (method a b : Value)

namespace Exec

def andNext (x : Exec Unit) : Exec Step := do
  x
  return .next

/-- Starts a call whose result goes to the operands, when its frame or its body returns. -/
def callAndGoOn (callee : Value) (this : Option Value) (args : List Value)
    (constructing : Option Value) : Exec Step := do
  match ← beginCall callee this args constructing with
  | .entered => return .next
  | .native body this args constructing => return .native body this args constructing

/-- Leaves an operator to the method of that name. -/
def callOperator (o : Opcode) (receiver : Value) (args : List Value) : Exec Step := do
  match o.operator? with
  | none => fail (.breakdown (.noOperator o.text))
  | some op =>
    match (← get).store.resolve receiver op with
    | none => fail (.typeMismatch op receiver.kindName)
    | some _ => callAndGoOn (← find receiver op) (some receiver) args none

/-- Whether `==` on a value is a method of its own. -/
def hasEqualityMethod (v : Value) : Exec Bool :=
  return !v.hasBuiltinEquality && ((← get).store.resolve v "==").isSome

def statics : Exec Statics := do
  let f ← top
  return (← get).store.staticsCell f.closure.statics

end Exec

namespace Effect

open Exec

def pushConstant (i : Nat) : Exec Unit := do
  match (← top).closure.template.body.constants[i]? with
  | some c => push (.ofConstant c)
  | none => fail (.breakdown (.noConstant i))

def loadLocal (slot : Nat) : Exec Unit := do
  match (← top).locals[slot]? with
  | some v => push v
  | none => fail (.breakdown (.noLocal slot))

def storeLocal (slot : Nat) : Exec Unit := do
  let v ← pop
  if slot < (← top).locals.size then
    setTop fun f => { f with locals := f.locals.setIfInBounds slot v }
  else fail (.breakdown (.noLocal slot))

def loadThis : Exec Unit := do
  push (← top).this

/-- A slot that is not assigned reads as void. -/
def loadStatic (slot : Nat) : Exec Unit := do
  push (((← statics).get? slot).getD .void)

def storeStatic (slot : Nat) : Exec Unit := do
  let v ← pop
  let block ← ofExcept ((← statics).set slot v)
  let id := (← top).closure.statics
  modify fun m => { m with store := m.store.setStatics id block }

def jumpIfStaticInitialized (slot target : Nat) : Exec Unit := do
  if (← statics).isInitialized slot then jump target else return

def loadGlobal (i : Nat) : Exec Unit := do
  let n ← name i
  match (← get).globals.get? n with
  | some v => push v
  | none => fail (.attributeNotFound n "global scope")

def storeGlobal (i : Nat) : Exec Unit := do
  let n ← name i
  let v ← pop
  modify fun m => { m with globals := m.globals.insert n v }

def getAttribute (i : Nat) : Exec Unit := do
  let n ← name i
  let receiver ← pop
  let v ← find receiver n
  push (← alloc (·.bind receiver v))

def setAttribute (i : Nat) : Exec Unit := do
  let n ← name i
  let v ← pop
  let target ← pop
  let a ← access
  alter (·.set a target n v)

def defineAttribute (i : Nat) (flags : Flags) : Exec Unit := do
  let n ← name i
  let v ← pop
  let target ← pop
  alter (·.define target n v flags)
  push target

def getIndex : Exec Unit := do
  let index ← pop
  let container ← pop
  push (← ofExcept ((← get).store.readElement container index))

def setIndex : Exec Unit := do
  let v ← pop
  let index ← pop
  let container ← pop
  alter (·.writeElement container index v)

def binary (op : BinaryOp) : Exec Step := do
  let b ← pop
  let a ← pop
  match op.onPrimitives? a b with
  | some v => andNext (push v)
  | none => callOperator (.binary op) a [b]

def neg : Exec Step := do
  let a ← pop
  match a.negate? with
  | some v => andNext (push v)
  | none => callOperator .neg a []

def not : Exec Unit := do
  let a ← pop
  push (.bool !a.truthy)

/-- A method `==` runs in the same loop. -/
def equal : Exec Step := do
  let b ← pop
  let a ← pop
  if ← hasEqualityMethod a then callOperator .equal a [b]
  else andNext (push (.bool (a == b)))

/-- A method `==` runs to its end first, and its result is negated. -/
def notEqual : Exec Step := do
  let b ← pop
  let a ← pop
  if ← hasEqualityMethod a then return .compare (← find a "==") a b
  else andNext (push (.bool !(a == b)))

def identical : Exec Unit := do
  let b ← pop
  let a ← pop
  push (.bool (a == b))

def isInstanceOf : Exec Unit := do
  let t ← pop
  let v ← pop
  match t with
  | .type id => push (.bool ((← get).store.isInstance v id))
  | w => fail (.typeMismatch "instanceof" w.kindName)

def jumpIf (expected : Bool) (target : Nat) : Exec Unit := do
  let v ← pop
  if v.truthy = expected then jump target else return

def jumpIfArgumentSupplied (parameter target : Nat) : Exec Unit := do
  if parameter < (← top).supplied then jump target else return

/-- Returns the operand on top, or void. -/
def ret : Exec Step := do
  let m ← get
  if m.floor < m.stack.length then return .returned (← pop) else return .returned .void

def raise : Exec Unit := do
  let v ← pop
  modify fun m => { m with raiseTrace := [], raisePosition := none }
  signal (.raise v)

def pushTry (target : Nat) : Exec Unit := do
  let height := (← get).stack.length
  setTop fun f => { f with handlers := ⟨target, height⟩ :: f.handlers }

def popTry : Exec Unit :=
  setTop fun f => { f with handlers := f.handlers.tail }

def discard : Exec Unit := do
  let _ ← pop

def dup : Exec Unit := do
  let v ← pop
  push v
  push v

def call (argc : Nat) : Exec Step := do
  let args ← popMany argc
  let callee ← pop
  callAndGoOn callee none args none

def callMethod (i argc : Nat) : Exec Step := do
  let n ← name i
  let args ← popMany argc
  let receiver ← pop
  let method ← find receiver n
  callAndGoOn method (some receiver) args none

/-- Starts the constructor of a new instance, if it has one. -/
def constructOn (obj : Value) (args : List Value) : Exec Step := do
  let store := (← get).store
  match store.resolve obj "_constructor" with
  | none => andNext (push obj)
  | some _ =>
    let constructor ← ofExcept (store.find (.within obj) obj "_constructor")
    callAndGoOn constructor (some obj) args (some obj)

/-- Makes an instance of a type. Arrays and maps have no constructor. -/
def construct (t : TypeId) (args : List Value) : Exec Step := do
  if t = Builtin.array.id then
    let v ← newArray args
    andNext (push v)
  else if t = Builtin.map.id then
    let id ← alloc (·.newMap .empty)
    andNext (push (.map id))
  else if Builtin.isSealed t then
    fail (.typeMismatch "instantiate" ((← get).store.typeName t))
  else
    let id ← alloc (·.instantiate t)
    constructOn (.object id) args

def instantiate (argc : Nat) : Exec Step := do
  let args ← popMany argc
  match ← pop with
  | .type t => construct t args
  | v => fail (.typeMismatch "instantiate" v.kindName)

def createArray (count : UInt64) : Exec Unit := do
  let items ← popCounted count.toNat
  push (← newArray items)

/-- The entries of a new map from keys and values in turn. -/
def mapEntries (t : Table Value) : List Value → Except Cause (Table Value)
  | key :: v :: rest =>
    match key.mapKey? with
    | some k => mapEntries (t.insert k v) rest
    | none => .error (.typeMismatch "map key" key.kindName)
  | _ => .ok t

/-- Twice the count must be a machine word. -/
def createMap (count : UInt64) : Exec Unit := do
  if 2 * count.toNat ≤ maxWord then
    let items ← popCounted (2 * count.toNat)
    let entries ← ofExcept (mapEntries .empty items)
    push (.map (← alloc (·.newMap entries)))
  else overflow

def createClosure (i : Nat) : Exec Unit := do
  match (← top).closure.nested? i with
  | some closure => push (.function (← alloc (·.newFunction ⟨closure, .empty⟩)))
  | none => fail (.breakdown (.noNested i))

/-- The base of a new type: an operand, or `Object`. -/
def baseType (hasBase : Bool) : Exec TypeId := do
  if hasBase then
    match ← pop with
    | .type t => return t
    | v => fail (.typeMismatch "base type" v.kindName)
  else return Builtin.object.id

def createType (i : Nat) (hasBase : Bool) : Exec Unit := do
  let n ← name i
  let base ← baseType hasBase
  push (.type (← alloc (·.newType { name := n, base := some base })))

def createTrait (i : Nat) : Exec Unit := do
  let n ← name i
  push (.trait (← alloc (·.newTrait { name := n })))

def composeTrait : Exec Unit := do
  let bundle ← pop
  let target ← pop
  match target, bundle with
  | .type t, .trait b =>
    modify fun m => { m with store := m.store.compose t b }
    push target
  | .type _, v | v, _ => fail (.typeMismatch "compose trait" v.kindName)

end Effect

namespace Exec

def execute : Opcode → Exec Step
  | .pushConstant i => andNext (Effect.pushConstant i)
  | .pushVoid => andNext (push .void)
  | .pushTrue => andNext (push (.bool true))
  | .pushFalse => andNext (push (.bool false))
  | .loadLocal slot => andNext (Effect.loadLocal slot)
  | .storeLocal slot => andNext (Effect.storeLocal slot)
  | .loadThis => andNext Effect.loadThis
  | .loadStatic slot => andNext (Effect.loadStatic slot)
  | .storeStatic slot => andNext (Effect.storeStatic slot)
  | .jumpIfStaticInitialized slot target => andNext (Effect.jumpIfStaticInitialized slot target)
  | .loadGlobal i => andNext (Effect.loadGlobal i)
  | .storeGlobal i => andNext (Effect.storeGlobal i)
  | .getAttribute i => andNext (Effect.getAttribute i)
  | .setAttribute i => andNext (Effect.setAttribute i)
  | .defineAttribute i flags => andNext (Effect.defineAttribute i flags)
  | .getIndex => andNext Effect.getIndex
  | .setIndex => andNext Effect.setIndex
  | .binary op => Effect.binary op
  | .neg => Effect.neg
  | .not => andNext Effect.not
  | .equal => Effect.equal
  | .notEqual => Effect.notEqual
  | .identical => andNext Effect.identical
  | .isInstanceOf => andNext Effect.isInstanceOf
  | .jump target => andNext (jump target)
  | .jumpIfTrue target => andNext (Effect.jumpIf true target)
  | .jumpIfFalse target => andNext (Effect.jumpIf false target)
  | .jumpIfArgumentSupplied p target => andNext (Effect.jumpIfArgumentSupplied p target)
  | .ret => Effect.ret
  | .call argc => Effect.call argc
  | .callMethod i argc => Effect.callMethod i argc
  | .instantiate argc => Effect.instantiate argc
  | .createArray count => andNext (Effect.createArray count)
  | .createMap count => andNext (Effect.createMap count)
  | .createClosure i => andNext (Effect.createClosure i)
  | .createType i hasBase => andNext (Effect.createType i hasBase)
  | .createTrait i => andNext (Effect.createTrait i)
  | .composeTrait => andNext Effect.composeTrait
  | .throw => andNext Effect.raise
  | .pushTry target => andNext (Effect.pushTry target)
  | .popTry => andNext Effect.popTry
  | .pop => andNext Effect.discard
  | .dup => andNext Effect.dup

/-- Runs what an instruction leaves to the host or to a loop of its own. -/
def complete (call : Callback) : Step → Exec Step
  | .native body this args constructing => do
    andNext (push (← runNative call body this args constructing))
  | .compare method a b => do
    let v ← call method (some a) [b]
    andNext (push (.bool !v.truthy))
  | s => return s

end Exec

end ScriptMachine
