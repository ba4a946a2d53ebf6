import ScriptMachine.Code.Arity
import ScriptMachine.Code.Block

namespace ScriptMachine

structure Template where
  name : Option String := none
  body : Block Template
  arity : Arity := .fixed 0
  /-- Line of the declaration. -/
  line : Nat := 0

instance : Inhabited Template := ⟨{ body := {} }⟩

namespace Template

def displayName (t : Template) : String :=
  t.name.getD "<anonymous>"

/-- How many local slots a call needs: those of the body, and one for each parameter. -/
def frameSize (t : Template) : Nat :=
  max t.body.locals t.arity.parameters

mutual

/-- Equal in every part, literals by value. -/
def same : Template → Template → Bool
  | ⟨n, ⟨c, k, l, f⟩, a, d⟩, ⟨n', ⟨c', k', l', f'⟩, a', d'⟩ =>
    n == n' && c == c' && k == k' && l == l' && a == a' && d == d' && sameAll f f'

def sameAll : List Template → List Template → Bool
  | [], [] => true
  | t :: ts, u :: us => same t u && sameAll ts us
  | _, _ => false

end

end Template

/-- One source text, compiled: its top-level function and the static names used inside it. -/
structure Fragment where
  source : String
  main : Template
  statics : List String := []
  deriving Inhabited

end ScriptMachine
