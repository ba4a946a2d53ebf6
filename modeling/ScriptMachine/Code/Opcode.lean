import ScriptMachine.Fault

namespace ScriptMachine

/-- How an attribute was declared. -/
structure Flags where
  /-- Only method bodies of the declaring type may touch it. -/
  isPrivate : Bool := false
  /-- It keeps its value. -/
  isConstant : Bool := false
  /-- Every new instance gets a copy of its own. -/
  isInit : Bool := false
  deriving DecidableEq, Inhabited

namespace Flags

def union (a b : Flags) : Flags where
  isPrivate := a.isPrivate || b.isPrivate
  isConstant := a.isConstant || b.isConstant
  isInit := a.isInit || b.isInit

/-- The flags without the instance mark. -/
def settled (f : Flags) : Flags :=
  { f with isInit := false }

end Flags

def flagText (b : Bool) : String :=
  if b then "true" else "false"

def Flags.text (f : Flags) : String :=
  s!"AttributeFlags \x7b private: {flagText f.isPrivate}, constant: {flagText f.isConstant}, " ++
    s!"init: {flagText f.isInit} \x7d"

/-- Binary operators; each is also the name of a method. -/
inductive BinaryOp where
  | add | sub | mul | div | mod
  | less | lessEqual | greater | greaterEqual
  deriving DecidableEq

def BinaryOp.method : BinaryOp → String
  | add => "+"
  | sub => "-"
  | mul => "*"
  | div => "/"
  | mod => "%"
  | less => "<"
  | lessEqual => "<="
  | greater => ">"
  | greaterEqual => ">="

def BinaryOp.text : BinaryOp → String
  | add => "Add"
  | sub => "Sub"
  | mul => "Mul"
  | div => "Div"
  | mod => "Mod"
  | less => "Less"
  | lessEqual => "LessEqual"
  | greater => "Greater"
  | greaterEqual => "GreaterEqual"

inductive Opcode where
  | pushConstant (constant : Nat)
  | pushVoid
  | pushTrue
  | pushFalse
  | loadLocal (slot : Nat)
  | storeLocal (slot : Nat)
  | loadThis
  | loadStatic (slot : Nat)
  | storeStatic (slot : Nat)
  | jumpIfStaticInitialized (slot target : Nat)
  | loadGlobal (name : Nat)
  | storeGlobal (name : Nat)
  | getAttribute (name : Nat)
  | setAttribute (name : Nat)
  | defineAttribute (name : Nat) (flags : Flags)
  | getIndex
  | setIndex
  | binary (op : BinaryOp)
  | neg
  | not
  | equal
  | notEqual
  | identical
  | isInstanceOf
  | jump (target : Nat)
  | jumpIfTrue (target : Nat)
  | jumpIfFalse (target : Nat)
  | jumpIfArgumentSupplied (parameter target : Nat)
  | ret
  | call (argc : Nat)
  | callMethod (name argc : Nat)
  | instantiate (argc : Nat)
  | createArray (count : UInt64)
  | createMap (count : UInt64)
  | createClosure (function : Nat)
  | createType (name : Nat) (hasBase : Bool)
  | createTrait (name : Nat)
  | composeTrait
  | throw
  | pushTry (target : Nat)
  | popTry
  | pop
  | dup
  deriving DecidableEq

namespace Opcode

def isTerminator : Opcode → Bool
  | ret | jump _ | jumpIfTrue _ | jumpIfFalse _ | jumpIfArgumentSupplied .. |
    jumpIfStaticInitialized .. | throw => true
  | _ => false

/-- Whether control never passes to the next instruction. -/
def isUnconditional : Opcode → Bool
  | ret | jump _ | throw => true
  | _ => false

def jumpTarget? : Opcode → Option Nat
  | jump t | jumpIfTrue t | jumpIfFalse t | pushTry t => some t
  | jumpIfArgumentSupplied _ t | jumpIfStaticInitialized _ t => some t
  | _ => none

/-- Index of the constant that names something. -/
def nameOperand? : Opcode → Option Nat
  | loadGlobal n | storeGlobal n | getAttribute n | setAttribute n | createTrait n => some n
  | defineAttribute n _ | callMethod n _ | createType n _ => some n
  | _ => none

/-- The method that stands for the instruction on operands without a built-in rule. -/
def operator? : Opcode → Option String
  | binary op => some op.method
  | neg => some "-_"
  | equal => some "=="
  | _ => none

/-- The instruction as a listing shows it. -/
def text : Opcode → String
  | pushConstant i => s!"PushConstant({i})"
  | pushVoid => "PushVoid"
  | pushTrue => "PushTrue"
  | pushFalse => "PushFalse"
  | loadLocal s => s!"LoadLocal(LocalId({s}))"
  | storeLocal s => s!"StoreLocal(LocalId({s}))"
  | loadThis => "LoadThis"
  | loadStatic s => s!"LoadStatic({s})"
  | storeStatic s => s!"StoreStatic({s})"
  | jumpIfStaticInitialized s t => s!"JumpIfStaticInitialized \x7b slot: {s}, target: {t} \x7d"
  | loadGlobal n => s!"LoadGlobal({n})"
  | storeGlobal n => s!"StoreGlobal({n})"
  | getAttribute n => s!"GetAttribute({n})"
  | setAttribute n => s!"SetAttribute({n})"
  | defineAttribute n flags => s!"DefineAttribute({n}, {flags.text})"
  | getIndex => "GetIndex"
  | setIndex => "SetIndex"
  | binary op => op.text
  | neg => "Neg"
  | not => "Not"
  | equal => "Equal"
  | notEqual => "NotEqual"
  | identical => "Identical"
  | isInstanceOf => "IsInstanceOf"
  | jump t => s!"Jump({t})"
  | jumpIfTrue t => s!"JumpIfTrue({t})"
  | jumpIfFalse t => s!"JumpIfFalse({t})"
  | jumpIfArgumentSupplied p t => s!"JumpIfArgumentSupplied \x7b param: {p}, target: {t} \x7d"
  | ret => "Return"
  | call argc => s!"Call({argc})"
  | callMethod n argc => s!"CallMethod({n}, {argc})"
  | instantiate argc => s!"Instantiate({argc})"
  | createArray n => s!"CreateArray({n})"
  | createMap n => s!"CreateMap({n})"
  | createClosure i => s!"CreateClosure({i})"
  | createType n hasBase => s!"CreateType \x7b name: {n}, has_base: {flagText hasBase} \x7d"
  | createTrait n => s!"CreateTrait({n})"
  | composeTrait => "ComposeTrait"
  | throw => "Throw"
  | pushTry t => s!"PushTry({t})"
  | popTry => "PopTry"
  | pop => "Pop"
  | dup => "Dup"

/-- The instruction with its jump target replaced, if it has one. -/
def retarget? (t : Nat) : Opcode → Option Opcode
  | jump _ => some (jump t)
  | jumpIfTrue _ => some (jumpIfTrue t)
  | jumpIfFalse _ => some (jumpIfFalse t)
  | pushTry _ => some (pushTry t)
  | jumpIfArgumentSupplied p _ => some (jumpIfArgumentSupplied p t)
  | jumpIfStaticInitialized s _ => some (jumpIfStaticInitialized s t)
  | _ => none

end Opcode

structure Instruction where
  opcode : Opcode
  position : Option Position := none
  deriving DecidableEq

end ScriptMachine
