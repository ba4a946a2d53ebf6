namespace ScriptMachine

inductive ErrorKind where
  | arity
  | attributeNotFound
  | access
  | typeMismatch
  | userRaised
  | unhandled
  | internal
  deriving DecidableEq

namespace ErrorKind

def name : ErrorKind → String
  | arity => "ArityError"
  | attributeNotFound => "AttributeNotFound"
  | access => "AccessError"
  | typeMismatch => "TypeMismatchError"
  | userRaised => "UserRaisedException"
  | unhandled => "UnhandledException"
  | internal => "InternalError"

def all : List ErrorKind :=
  [arity, attributeNotFound, access, typeMismatch, userRaised, unhandled, internal]

def ofName? (s : String) : Option ErrorKind :=
  all.find? (·.name == s)

/-- Whether a catch region may handle an error of this kind. -/
def recoverable : ErrorKind → Bool
  | unhandled | internal => false
  | _ => true

end ErrorKind

/-- A place in a source text; column 0 when only the line is known. -/
structure Position where
  line : Nat
  column : Nat := 0
  deriving DecidableEq

/-- A call that a failure left. -/
structure TraceEntry where
  function : Option String
  source : Option String
  line : Nat
  deriving DecidableEq

namespace TraceEntry

def text (e : TraceEntry) : String :=
  let name := e.function.getD "<anonymous>"
  match e.source with
  | some source => s!"{name} ({source}:{e.line})"
  | none => s!"{name} (line {e.line})"

end TraceEntry

/-- Why an attribute may not be touched. -/
inductive Refusal where
  | privateTo (owner : String)
  | constant
  | other (reason : String)
  deriving DecidableEq

/-- What is wrong with the counts of a parameter list. -/
inductive ArityFlaw where
  | minimumAboveLimit (minimum limit : Nat)
  | limitAboveParameters (limit parameters : Nat)
  deriving DecidableEq

/-- What is wrong with the operand of an instruction. -/
inductive OperandFlaw where
  | jumpOutside (target length : Nat)
  | notName (constant : Nat)
  | noConstant (constant : Nat)
  | noLocal (slot frameSize : Nat)
  | noStatic (slot : Nat)
  | noParameter (parameter : Nat)
  | noNested (function : Nat)
  deriving DecidableEq

/-- What the verifier finds, by the function in which it finds it. -/
inductive CodeFlaw where
  | nestedTooDeep (limit : Nat)
  | badArity (function : String) (flaw : ArityFlaw)
  | badOperand (function : String) (offset : Nat) (flaw : OperandFlaw)
  deriving DecidableEq

/-- What stops the machine itself. -/
inductive Breakdown where
  | operandUnderflow
  | noLocal (slot : Nat)
  | noConstant (constant : Nat)
  | notName (constant : Nat)
  | noNested (function : Nat)
  | noStatic (slot : Nat)
  | noOperator (instruction : String)
  | noFrame
  | tooDeep (limit : Nat)
  | outOfInstructions (limit : Nat)
  deriving DecidableEq

inductive Cause where
  | arity (callee : String) (minimum : Nat) (maximum : Option Nat) (given : Nat)
  | attributeNotFound (name on : String)
  | access (name : String) (refusal : Refusal)
  | typeMismatch (operation found : String)
  | indexTooFar (index length : Nat)
  | uncaught (text : String)
  | breakdown (b : Breakdown)
  | unverified (flaw : CodeFlaw)
  | internal (message : String)
  /-- An error with the kind and message that the host chose. -/
  | stated (kind : ErrorKind) (message : String)
  deriving DecidableEq

def Refusal.reason : Refusal → String
  | privateTo owner => s!"private to {owner}"
  | constant => "attribute is constant"
  | other reason => reason

def ArityFlaw.message : ArityFlaw → String
  | minimumAboveLimit minimum limit =>
    s!"minimum argument count {minimum} exceeds positional limit {limit}"
  | limitAboveParameters limit parameters =>
    s!"positional limit {limit} exceeds parameter count {parameters}"

def OperandFlaw.message : OperandFlaw → String
  | jumpOutside target length => s!"jump target {target} outside block of {length}"
  | notName constant => s!"constant {constant} is not a name"
  | noConstant constant => s!"constant {constant} out of range"
  | noLocal slot frameSize => s!"local {slot} outside frame of {frameSize}"
  | noStatic slot => s!"static slot {slot} not declared"
  | noParameter parameter => s!"parameter {parameter} not declared"
  | noNested function => s!"nested function {function} out of range"

def CodeFlaw.message : CodeFlaw → String
  | nestedTooDeep limit => s!"function literals nested deeper than {limit}"
  | badArity function flaw => s!"{function}: {flaw.message}"
  | badOperand function offset flaw => s!"{function} @{offset}: {flaw.message}"

def Breakdown.message : Breakdown → String
  | operandUnderflow => "operand stack underflow"
  | noLocal slot => s!"local slot {slot} out of range"
  | noConstant constant => s!"constant {constant} out of range"
  | notName constant => s!"constant {constant} is not a name"
  | noNested function => s!"nested function {function} out of range"
  | noStatic slot => s!"static slot {slot} not declared"
  | noOperator instruction => s!"{instruction} has no operator method"
  | noFrame => "no active call frame"
  | tooDeep limit => s!"maximum call depth of {limit} exceeded"
  | outOfInstructions limit => s!"instruction limit of {limit} exceeded"

namespace Cause

def kind : Cause → ErrorKind
  | arity .. => .arity
  | attributeNotFound .. => .attributeNotFound
  | access .. => .access
  | typeMismatch .. | indexTooFar .. => .typeMismatch
  | uncaught .. => .unhandled
  | breakdown .. | unverified .. | internal .. => .internal
  | stated kind _ => kind

/-- How many arguments a callable expects. -/
def expectation (minimum : Nat) : Option Nat → String
  | none => s!"at least {minimum}"
  | some maximum => if maximum = minimum then s!"{minimum}" else s!"{minimum} to {maximum}"

def message : Cause → String
  | arity callee minimum maximum given =>
    s!"'{callee}' expects {expectation minimum maximum} argument(s), {given} given"
  | attributeNotFound name on => s!"attribute '{name}' not found on {on}"
  | access name refusal => s!"cannot access attribute '{name}': {refusal.reason}"
  | typeMismatch operation found => s!"'{operation}' is not supported for {found}"
  | indexTooFar index length => s!"index {index} is out of range for array of length {length}"
  | uncaught text => s!"uncaught exception: {text}"
  | breakdown b => b.message
  | unverified flaw => flaw.message
  | internal message => message
  | stated _ message => message

end Cause

/-- A failure on its way out: the calls that it left come innermost first. -/
structure Fault where
  cause : Cause
  trace : List TraceEntry := []
  position : Option Position := none
  deriving DecidableEq

namespace Fault

def kind (f : Fault) : ErrorKind :=
  f.cause.kind

def message (f : Fault) : String :=
  f.cause.message

def text (f : Fault) : String :=
  s!"{f.kind.name}: {f.message}"

def line? (f : Fault) : Option Nat :=
  f.position.map (·.line)

def locate (f : Fault) (p : Position) : Fault :=
  { f with position := f.position.or (some p) }

def leave (f : Fault) (e : TraceEntry) : Fault :=
  { f with trace := f.trace ++ [e] }

end Fault

end ScriptMachine
