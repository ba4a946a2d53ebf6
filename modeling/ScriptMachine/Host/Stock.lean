import ScriptMachine.Model.Store

namespace ScriptMachine

namespace Stock

open HostProgram

abbrev Body := Value → List Value → HostProgram

def argument (args : List Value) (i : Nat) : Value :=
  args[i]?.getD .void

def this : Body := fun self _ => ret self

def collect : Body := fun _ args => newArray args ret

def raiseFirst : Body := fun _ args => finish (.error (.raise (argument args 0)))

/-- Calls the first argument with the others. -/
def forward : Body := fun _ args => call (argument args 0) none (args.drop 1) finish

/-- Calls the first argument on the second, with the others. -/
def forwardOn : Body := fun _ args =>
  call (argument args 0) (some (argument args 1)) (args.drop 2) finish

/-- Calls the method that the second argument names on the first, with the others. -/
def callMethodOn : Body := fun _ args =>
  match argument args 1 with
  | .string name => callMethod (argument args 0) name (args.drop 2) finish
  | v => fail (.typeMismatch "call_method_on" v.kindName)

/-- Calls as `forward` does and tells the outcome in an array. -/
def tryForward : Body := fun _ args =>
  call (argument args 0) none (args.drop 1) fun outcome =>
    match outcome with
    | .ok v => newArray [.string "ok", v] ret
    | .error (.raise v) => newArray [.string "raise", v] ret
    | .error (.error f) =>
      newArray [.string "error", .string f.kind.name, .string f.message] ret

def typeNameOf : Body := fun self _ => typeName self fun name => ret (.string name)

def datumValue : Datum → Value
  | .number n => .number n
  | .text s => .string s

def hostedGet : Body := fun self _ =>
  match self with
  | .hosted id => readDatum id fun d => ret (datumValue d)
  | v => fail (.typeMismatch "wrapped_get" v.kindName)

def hostedAdd : Body := fun self args =>
  match self, argument args 0 with
  | .hosted id, .number n =>
    readDatum id fun d =>
      match d with
      | .number x => writeDatum id (.number (x + n)) (ret (.number (x + n)))
      | .text _ => fail (.typeMismatch "wrapped_add" self.kindName)
  | _, v => fail (.typeMismatch "wrapped_add" v.kindName)

def returns (v : Value) : Body := fun _ _ => ret v

def raises (v : Value) : Body := fun _ _ => finish (.error (.raise v))

def fails (c : Cause) : Body := fun _ _ => fail c

def callNamed (name : String) : Body := fun self args => callMethod self name args finish

end Stock

end ScriptMachine
