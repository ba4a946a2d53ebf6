import ScriptMachine.Code.Verify
import ScriptMachine.Engine.Run

namespace ScriptMachine

/-- A call that did not return: what went wrong, and the value that a script raised. -/
structure Failure where
  fault : Fault
  thrown : Option Value := none

abbrev HostM := EStateM (Stop Failure) Machine

namespace Machine

def start (config : Config) : Machine where
  config := config
  globals := .ofList (Builtin.all.map fun b => (b.name, .type b.id))

/-- The message of a raise that nobody caught. -/
def raiseText (m : Machine) (v : Value) : String :=
  match v, m.store.resolve v "message" with
  | .object _, some r => m.store.text (if r.attr.value.isCallable then v else r.attr.value)
  | _, _ => m.store.text v

/-- The type that a serialized name stands for: the global of that name, if it is a type, or else
the built-in. -/
def typeNamed? (m : Machine) (name : String) : Option TypeId :=
  match m.globals.get? name with
  | some (.type t) => some t
  | _ => (Builtin.all.find? (·.name == name)).map Builtin.id

def summary (m : Machine) : String :=
  let limit :=
    match m.config.instructionLimit with
    | some n => s!"Some({n})"
    | none => "None"
  let flag (b : Bool) : String := if b then "true" else "false"
  s!"Engine \x7b config: EngineConfig \x7b max_call_depth: {m.config.maxDepth}, " ++
    s!"instruction_limit: {limit}, verify_fragments: {flag m.config.verifyFragments} \x7d, " ++
    s!"globals: {m.globals.size}, frames: {m.frames.length}, stack: {m.stack.length}, " ++
    s!"has_frame_guard: {flag m.guard.isSome} \x7d"

end Machine

namespace HostM

def failWith {α : Type} (f : Fault) : HostM α :=
  throw (.failed { fault := f })

def ofExcept {α : Type} : Except Cause α → HostM α
  | .ok a => pure a
  | .error c => failWith { cause := c }

def alloc {α : Type} (f : Store → α × Store) : HostM α :=
  modifyGet fun m =>
    let (a, store) := f m.store
    (a, { m with store })

def alter (f : Store → Except Cause Store) : HostM Unit := do
  let store ← ofExcept (f (← get).store)
  modify fun m => { m with store }

def instantiate (c : Closure) : HostM Value :=
  return .function (← alloc (·.newFunction ⟨c, .empty⟩))

/-- Turns a fragment into a function with static slots of its own. -/
def load (f : Fragment) : HostM Value := do
  let m ← get
  match if m.config.verifyFragments then f.verify else none with
  | some fault => failWith fault
  | none =>
    let statics ← alloc (·.newStatics (.ofNames f.statics (some f.source)))
    modify fun m => { m with loads := m.loads + 1 }
    instantiate ⟨f.main, ⟨m.loads, []⟩, statics⟩

/-- What the host is told of a signal that left the outermost call. -/
def report {α : Type} : Signal → HostM α
  | .error fault => throw (.failed { fault })
  | .raise v => do
    let m ← get
    set { m with raiseTrace := [], raisePosition := none }
    let fault : Fault :=
      { cause := .uncaught (m.raiseText v), trace := m.raiseTrace, position := m.raisePosition }
    throw (.failed { fault, thrown := some v })

/-- Runs a computation of the machine on behalf of the host. A signal leaves no operands behind. -/
def ofExec {α : Type} (x : Exec α) : HostM α := fun m =>
  match x m with
  | .ok a m' => .ok a m'
  | .error (.failed s) m' => report s { m' with stack := cutTo m.stack.length m'.stack }
  | .error .overflow m' => .error .overflow m'
  | .error .outOfFuel m' => .error .outOfFuel m'

def callWith (fuel : Nat) (callee : Value) (this : Option Value) (args : List Value) :
    HostM Value := do
  modify fun m => if m.frames.isEmpty then { m with executed := 0 } else m
  ofExec (Exec.invoke fuel callee this args)

def call (fuel : Nat) (callee : Value) (args : List Value) : HostM Value :=
  callWith fuel callee none args

def callMethod (fuel : Nat) (receiver : Value) (name : String) (args : List Value) :
    HostM Value := do
  let method ← ofExcept ((← get).store.find .host receiver name)
  callWith fuel method (some receiver) args

def execute (fuel : Nat) (f : Fragment) : HostM Value := do
  call fuel (← load f) []

def getAttribute (access : Access) (receiver : Value) (name : String) : HostM Value := do
  let v ← ofExcept ((← get).store.find access receiver name)
  alloc (·.bind receiver v)

def setAttribute (access : Access) (target : Value) (name : String) (v : Value) : HostM Unit :=
  alter (·.set access target name v)

def getGlobal (name : String) : HostM (Option Value) :=
  return (← get).globals.get? name

def setGlobal (name : String) (v : Value) : HostM Unit :=
  modify fun m => { m with globals := m.globals.insert name v }

/-- Makes a type, derived from `Object` unless a base is given, and a global of its name. -/
def declareType (name : String) (base : Option TypeId) : HostM Value := do
  let t ← alloc (·.newType { name, base := some (base.getD Builtin.object.id) })
  setGlobal name (.type t)
  return .type t

def declareTrait (name : String) : HostM Value := do
  let t ← alloc (·.newTrait { name })
  setGlobal name (.trait t)
  return .trait t

def compose (t : TypeId) (b : TraitId) : HostM Unit :=
  modify fun m => { m with store := m.store.compose t b }

def newNative (n : Native) : HostM Value :=
  return .native (← alloc (·.newNative n))

def declareNative (t : TypeId) (n : Native) : HostM Unit := do
  let v ← newNative n
  modify fun m => { m with store := m.store.setType t (·.insert n.name ⟨v, {}⟩) }

def wrap (t : TypeId) (d : Datum) : HostM Value :=
  return .hosted (← alloc (·.newHosted ⟨t, d⟩))

def setGuard (g : Option Guard) : HostM Unit :=
  modify fun m => { m with guard := g }

end HostM

end ScriptMachine
