import ScriptMachine.Code.Opcode
import ScriptMachine.Code.Constant

namespace ScriptMachine

structure Block (τ : Type) where
  code : Array Instruction := #[]
  constants : Array Constant := #[]
  /-- How many local slots a call needs. -/
  locals : Nat := 0
  nested : List τ := []
  deriving Inhabited

namespace Block

variable {τ : Type}

def emit (b : Block τ) (i : Instruction) : Nat × Block τ :=
  (b.code.size, { b with code := b.code.push i })

def addConstant (b : Block τ) (c : Constant) : Nat × Block τ :=
  (b.constants.size, { b with constants := b.constants.push c })

/-- Index of a name, which is added unless it is there. -/
def addName (b : Block τ) (name : String) : Nat × Block τ :=
  match b.constants.findIdx? fun c => c.string? == some name with
  | some i => (i, b)
  | none => b.addConstant (.string name)

def nameAt? (b : Block τ) (i : Nat) : Option String :=
  b.constants[i]?.bind Constant.string?

def addNested (b : Block τ) (t : τ) : Nat × Block τ :=
  (b.nested.length, { b with nested := b.nested ++ [t] })

/-- Replaces the jump target of the instruction at `offset`; fails where there is none. -/
def patch? (b : Block τ) (offset target : Nat) : Option (Block τ) := do
  let i ← b.code[offset]?
  let opcode ← i.opcode.retarget? target
  return { b with code := b.code.setIfInBounds offset { i with opcode } }

def targetAt? (b : Block τ) (offset : Nat) : Option Nat :=
  b.code[offset]?.bind (·.opcode.jumpTarget?)

def lineAt? (b : Block τ) (offset : Nat) : Option Nat :=
  b.code[offset]?.bind fun i => i.position.map (·.line)

end Block

end ScriptMachine
