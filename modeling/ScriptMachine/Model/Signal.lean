import ScriptMachine.Fault
import ScriptMachine.Model.Value

namespace ScriptMachine

/-- Errors of the machine and values raised by scripts travel apart. -/
inductive Signal where
  | error (fault : Fault)
  | raise (v : Value)

namespace Signal

def ofCause (c : Cause) : Signal :=
  error { cause := c }

/-- Whether a catch region may take the signal. -/
def catchable : Signal → Bool
  | error f => f.kind.recoverable
  | raise _ => true

end Signal

/-- What the host keeps inside a hosted cell. -/
inductive Datum where
  | number (n : Float)
  | text (s : String)
  deriving Inhabited

abbrev Outcome := Except Signal Value

/-- A host function at work, which sees the machine only through these operations. It may call scripts
and go on with the outcome, whichever it is. -/
inductive HostProgram where
  | finish (outcome : Outcome)
  | call (callee : Value) (this : Option Value) (args : List Value) (next : Outcome → HostProgram)
  | callMethod (receiver : Value) (name : String) (args : List Value) (next : Outcome → HostProgram)
  | newArray (items : List Value) (next : Value → HostProgram)
  | typeName (v : Value) (next : String → HostProgram)
  | readDatum (id : HostedId) (next : Datum → HostProgram)
  | writeDatum (id : HostedId) (d : Datum) (next : HostProgram)

namespace HostProgram

def ret (v : Value) : HostProgram :=
  finish (.ok v)

def fail (c : Cause) : HostProgram :=
  finish (.error (.ofCause c))

end HostProgram

end ScriptMachine
