import ScriptMachine.Model.Builtin

namespace ScriptMachine

def displayDepth : Nat := 8

namespace Store

/-- The text of a value inside which containers may be opened `n` levels deep. -/
def textWithin (s : Store) (boundText : BoundId → String) : Nat → Value → String
  | 0, .array _ => "[...]"
  | 0, .map _ => "\x7b...\x7d"
  | n + 1, .array id =>
    "[" ++ ", ".intercalate ((s.array id).toList.map (s.textWithin boundText n)) ++ "]"
  | n + 1, .map id =>
    let entry (e : String × Value) : String := e.1 ++ ": " ++ s.textWithin boundText n e.2
    "\x7b" ++ ", ".intercalate ((s.map id).entries.map entry) ++ "\x7d"
  | _, .object id => s!"<{s.typeName (s.object id).type} object>"
  | _, .function id => s!"<function {(s.function id).closure.name}>"
  | _, .native id => s!"<native {(s.native id).name}>"
  | _, .bound id => boundText id
  | _, .type id => s!"<type {s.typeName id}>"
  | _, .trait id => s!"<trait {(s.trait id).name}>"
  | _, .hosted id => s!"<{s.typeName (s.hostedCell id).type} native>"
  | _, v => v.primitiveText?.getD ""

/-- The text of a bound method: that of its method, from the first level again, with at most `n`
bound methods inside one another. -/
def boundText (s : Store) : Nat → BoundId → String
  | 0, _ => "<bound ...>"
  | n + 1, id => s!"<bound {s.textWithin (s.boundText n) displayDepth (s.bound id).method}>"

/-- The text of a value. There are not as many bound methods as a machine word counts, so only one
that stands inside its own text, which has no end, would come to that number. -/
def text (s : Store) (v : Value) : String :=
  s.textWithin (s.boundText maxWord) displayDepth v

/-- A one-line description that opens no container. -/
def summary (s : Store) : Value → String
  | .string t => s!"String({Text.quoted t})"
  | .array id => s!"Array(len={(s.array id).size})"
  | .map id => s!"Map(len={(s.map id).size})"
  | v => s!"{v.kindName}({s.text v})"

end Store

end ScriptMachine
