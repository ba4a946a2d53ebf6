import ScriptMachine.Engine.Machine
import ScriptMachine.Engine.Method
import ScriptMachine.Model.Dispatch

namespace ScriptMachine

/-- Calls a value to its end, with an optional receiver. -/
abbrev Callback := Value → Option Value → List Value → Exec Value

def HostProgram.run (call : Callback) : HostProgram → Exec Value
  | finish outcome => Exec.reply outcome
  | HostProgram.call callee this args next => do
    let outcome ← Exec.attempt (call callee this args)
    (next outcome).run call
  | callMethod receiver name args next => do
    let outcome ← Exec.attempt do
      let method ← Exec.find receiver name
      call method (some receiver) args
    (next outcome).run call
  | newArray items next => do
    (next (← Exec.newArray items)).run call
  | typeName v next => do
    let store := (← get).store
    (next (store.typeName (store.typeOf v))).run call
  | readDatum id next => do
    (next ((← get).store.hostedCell id).datum).run call
  | writeDatum id d next => do
    modify fun m => { m with store := m.store.setDatum id d }
    next.run call

/-- What is left to do once a call has started. -/
inductive Start where
  /-- To run the frame that was entered. -/
  | entered
  /-- To run the body of a native function, on behalf of a constructor or not. -/
  | native (body : NativeBody) (this : Value) (args : List Value) (constructing : Option Value)

namespace Exec

/-- The parameters and other locals of a call: positional arguments, then void. -/
def bindLocals (size : Nat) (args : List Value) : Array Value :=
  let bound := args.take size
  (bound ++ List.replicate (size - bound.length) Value.void).toArray

def askGuard (depth : Nat) (name : String) : Exec Unit := do
  let m ← get
  match m.guard with
  | none => return
  | some guard =>
    modify fun m => { m with guarded := m.guarded ++ [(depth, name)] }
    match guard.refuse? m.guarded depth name with
    | some c => fail c
    | none => return

/-- The depth of one call more, if the configuration allows it. -/
def deeper : Exec Nat := do
  let m ← get
  let depth := m.frames.length + 1
  if depth ≤ m.config.maxDepth then return depth
  else fail (.breakdown (.tooDeep m.config.maxDepth))

/-- The locals of a call, the tail of a variadic function collected in an array. -/
def bindArguments (t : Template) (args : List Value) : Exec (Array Value) := do
  let arity := t.arity
  let limit := arity.positionalLimit
  let locals := bindLocals t.frameSize (args.take limit)
  if args.length < arity.minimum then
    fail (.arity t.displayName arity.minimum arity.bound? args.length)
  else
    match arity.variadic.filter (· < arity.parameters) with
    | some slot =>
      let tail ← newArray (args.drop (min limit t.frameSize))
      return locals.setIfInBounds slot tail
    | none => return locals

/-- Binds the arguments and enters a script function. -/
def pushFrame (id : FunctionId) (this : Value) (args : List Value) (constructing : Option Value) :
    Exec Unit := do
  let depth ← deeper
  let closure := ((← get).store.function id).closure
  askGuard depth closure.name
  let locals ← bindArguments closure.template args
  let supplied := min args.length closure.template.arity.positionalLimit
  modify fun m =>
    { m with
      frames :=
        { function := id, closure, locals, supplied, this, stackBase := m.stack.length,
          constructing } :: m.frames }

/-- Checks the number of arguments of a native function. -/
def startNative (id : NativeId) (this : Value) (args : List Value) (constructing : Option Value) :
    Exec Start := do
  let n := (← get).store.native id
  if args.length < n.minimum || n.maximum.any (· < args.length) then
    fail (.arity n.name n.minimum n.maximum args.length)
  else return .native n.body this args constructing

def beginPlain (callee : Callable) (this : Value) (args : List Value)
    (constructing : Option Value) : Exec Start := do
  match callee with
  | .function id =>
    pushFrame id this args constructing
    return .entered
  | .native id => startNative id this args constructing

def beginCall (callee : Value) (this : Option Value) (args : List Value)
    (constructing : Option Value) : Exec Start := do
  let m ← get
  let (method, self) ← ofExcept (m.store.dispatch m.access callee (this.getD .void))
  beginPlain method self args constructing

def runBody (call : Callback) (body : NativeBody) (this : Value) (args : List Value) :
    Exec Value := do
  match body with
  | .method m =>
    let (v, store) ← ofExcept (m.apply (← get).store this args)
    modify fun m => { m with store }
    return v
  | .host p => (p this args).run call

/-- Runs a native function. A native constructor may return an instance of its choice. -/
def runNative (call : Callback) (body : NativeBody) (this : Value) (args : List Value)
    (constructing : Option Value) : Exec Value := do
  let result ← runBody call body this args
  match constructing with
  | some obj => return if result.isVoid then obj else result
  | none => return result

end Exec

end ScriptMachine
