import ScriptMachine.Code.Template

namespace ScriptMachine

namespace Template

/-- A jump may go to the end of the block, where the call returns. -/
def jumpFlaw? (t : Template) (o : Opcode) : Option OperandFlaw :=
  match o.jumpTarget? with
  | some target =>
    if target ≤ t.body.code.size then none else some (.jumpOutside target t.body.code.size)
  | none => none

def nameFlaw? (t : Template) (o : Opcode) : Option OperandFlaw :=
  match o.nameOperand? with
  | some i => if (t.body.nameAt? i).isSome then none else some (.notName i)
  | none => none

def tableFlaw? (t : Template) (statics : Nat) : Opcode → Option OperandFlaw
  | .pushConstant i => if i < t.body.constants.size then none else some (.noConstant i)
  | .loadLocal s | .storeLocal s => if s < t.frameSize then none else some (.noLocal s t.frameSize)
  | .loadStatic s | .storeStatic s | .jumpIfStaticInitialized s _ =>
    if s < statics then none else some (.noStatic s)
  | .jumpIfArgumentSupplied p _ => if p < t.arity.parameters then none else some (.noParameter p)
  | .createClosure i => if i < t.body.nested.length then none else some (.noNested i)
  | _ => none

/-- What an instruction of `t` lacks when there are `statics` static slots. -/
def operandFlaw? (t : Template) (statics : Nat) (o : Opcode) : Option OperandFlaw :=
  (t.jumpFlaw? o).or ((t.nameFlaw? o).or (t.tableFlaw? statics o))

def codeFault? (t : Template) (statics : Nat) : Nat → List Instruction → Option Fault
  | _, [] => none
  | offset, i :: rest =>
    match t.operandFlaw? statics i.opcode with
    | some flaw =>
      some { cause := .unverified (.badOperand t.displayName offset flaw), position := i.position }
    | none => t.codeFault? statics (offset + 1) rest

def ownFault? (t : Template) (statics : Nat) : Option Fault :=
  match t.arity.flaw? with
  | some flaw =>
    some { cause := .unverified (.badArity t.displayName flaw), position := some ⟨t.line, 0⟩ }
  | none => t.codeFault? statics 0 t.body.code.toList

mutual

/-- The first flaw of a function at the given depth, then of those nested in it. -/
def faultAt? (statics limit depth : Nat) : Template → Option Fault
  | ⟨name, ⟨code, constants, locals, nested⟩, arity, line⟩ =>
    if limit < depth then some { cause := .unverified (.nestedTooDeep limit) }
    else
      (Template.ownFault? ⟨name, ⟨code, constants, locals, nested⟩, arity, line⟩ statics).or
        (faultIn? statics limit (depth + 1) nested)

def faultIn? (statics limit depth : Nat) : List Template → Option Fault
  | [] => none
  | t :: ts => (faultAt? statics limit depth t).or (faultIn? statics limit depth ts)

end

/-- How deep function literals may be nested unless the caller says otherwise. -/
def nestingLimit : Nat := 64

def verify (t : Template) (statics : Nat) (limit : Nat := nestingLimit) : Option Fault :=
  faultAt? statics limit 0 t

end Template

def Fragment.verify (f : Fragment) : Option Fault :=
  f.main.verify f.statics.length

end ScriptMachine
