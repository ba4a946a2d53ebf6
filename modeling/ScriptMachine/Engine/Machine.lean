import ScriptMachine.Engine.Config
import ScriptMachine.Model.Instance

namespace ScriptMachine

/-- A stack, top first, cut to a height that it may already be below. -/
def cutTo (height : Nat) (stack : List Value) : List Value :=
  stack.drop (stack.length - height)

/-- A catch region: where it continues, and the height of the operand stack at its start. -/
structure Handler where
  target : Nat
  height : Nat
  deriving DecidableEq

/-- The line of the instruction before `pc`, or that of the declaration. -/
def Template.lineBefore (t : Template) (pc : Nat) : Nat :=
  (t.body.lineAt? (pc - 1)).getD t.line

structure Frame where
  function : FunctionId
  closure : Closure
  locals : Array Value
  /-- How many parameters the caller filled by position. -/
  supplied : Nat
  this : Value
  /-- Offset of the next instruction. -/
  pc : Nat := 0
  /-- Height of the operand stack at the start of the call. -/
  stackBase : Nat
  /-- Innermost first. -/
  handlers : List Handler := []
  /-- The object under construction, which replaces the result of the call. -/
  constructing : Option Value := none
  deriving Inhabited

def Frame.currentLine (f : Frame) : Nat :=
  f.closure.template.lineBefore f.pc

/-- A hook of the host that may refuse a call by its depth and the name of the function. It may have
a memory of its own, so its answer may depend on what it was `asked` before. -/
structure Guard where
  refuse? (asked : List (Nat × String)) (depth : Nat) (name : String) : Option Cause

structure Machine where
  config : Config := {}
  store : Store := .initial
  globals : Table Value := .empty
  /-- Innermost first. -/
  frames : List Frame := []
  /-- The operands of all calls, top first. -/
  stack : List Value := []
  guard : Option Guard := none
  /-- The calls that the guard was asked about, latest last. -/
  guarded : List (Nat × String) := []
  /-- Instructions begun since the last call of the host. -/
  executed : Nat := 0
  /-- Calls left by the raise under way, innermost first. -/
  raiseTrace : List TraceEntry := []
  raisePosition : Option Position := none
  /-- How many fragments were loaded. -/
  loads : Nat := 0

/-- In whose name the running code reaches for attributes. -/
def Machine.access (m : Machine) : Access :=
  match m.frames with
  | f :: _ => .running f.this f.function
  | [] => .host

/-- The height below which the running code has no operands. -/
def Machine.floor (m : Machine) : Nat :=
  match m.frames with
  | f :: _ => f.stackBase
  | [] => 0

inductive Stop (ε : Type) where
  | failed (e : ε)
  /-- A count left the range of machine words. -/
  | overflow
  /-- The step budget of the caller was used up. -/
  | outOfFuel

/-- Computations on a machine; what they changed stays changed when they end early. -/
abbrev Exec := EStateM (Stop Signal) Machine

namespace Exec

def fail {α : Type} (c : Cause) : Exec α :=
  throw (.failed (.ofCause c))

def signal {α : Type} (s : Signal) : Exec α :=
  throw (.failed s)

def overflow {α : Type} : Exec α :=
  throw .overflow

def ofExcept {α : Type} : Except Cause α → Exec α
  | .ok a => pure a
  | .error c => fail c

/-- Runs a computation and hands over the signal that it ended with, if any. -/
def attempt {α : Type} (x : Exec α) : Exec (Except Signal α) := fun m =>
  match x m with
  | .ok a m => .ok (.ok a) m
  | .error (.failed s) m => .ok (.error s) m
  | .error .overflow m => .error .overflow m
  | .error .outOfFuel m => .error .outOfFuel m

def reply : Outcome → Exec Value
  | .ok v => pure v
  | .error s => signal s

def alloc {α : Type} (f : Store → α × Store) : Exec α :=
  modifyGet fun m =>
    let (a, store) := f m.store
    (a, { m with store })

def alter (f : Store → Except Cause Store) : Exec Unit := do
  let store ← ofExcept (f (← get).store)
  modify fun m => { m with store }

def newArray (items : List Value) : Exec Value :=
  return .array (← alloc (·.newArray items.toArray))

def top : Exec Frame := do
  match (← get).frames with
  | f :: _ => return f
  | [] => fail (.breakdown .noFrame)

def setTop (g : Frame → Frame) : Exec Unit := do
  match (← get).frames with
  | f :: rest => modify fun m => { m with frames := g f :: rest }
  | [] => fail (.breakdown .noFrame)

def push (v : Value) : Exec Unit :=
  modify fun m => { m with stack := v :: m.stack }

def pop : Exec Value := do
  let m ← get
  if m.stack.length ≤ m.floor then fail (.breakdown .operandUnderflow)
  else
    match m.stack with
    | v :: rest =>
      set { m with stack := rest }
      return v
    | [] => fail (.breakdown .operandUnderflow)

/-- Pops `n` operands; the last is the one that was on top. -/
def popMany (n : Nat) : Exec (List Value) := do
  let m ← get
  if m.stack.length < m.floor + n then fail (.breakdown .operandUnderflow)
  else
    set { m with stack := m.stack.drop n }
    return (m.stack.take n).reverse

/-- Pops as many operands as a machine word says. The sum of that word and the height below must be
a word too. -/
def popCounted (n : Nat) : Exec (List Value) := do
  if maxWord < (← get).floor + n then overflow else popMany n

def jump (target : Nat) : Exec Unit :=
  setTop fun f => { f with pc := target }

def name (i : Nat) : Exec String := do
  match (← top).closure.template.body.nameAt? i with
  | some n => return n
  | none => fail (.breakdown (.notName i))

def access : Exec Access :=
  return (← get).access

def find (receiver : Value) (name : String) : Exec Value := do
  let m ← get
  ofExcept (m.store.find (← access) receiver name)

end Exec

end ScriptMachine
