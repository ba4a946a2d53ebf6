import ScriptMachine.Model.Access

namespace ScriptMachine

namespace Store

/-- A copy for one instance: arrays and maps are copied, other values are shared. -/
def instanceCopy (s : Store) (a : Attribute) : Attribute × Store :=
  match a.value with
  | .array id =>
    let (id, s) := s.newArray (s.array id)
    (⟨.array id, a.flags.settled⟩, s)
  | .map id =>
    let (id, s) := s.newMap (s.map id)
    (⟨.map id, a.flags.settled⟩, s)
  | v => (⟨v, a.flags.settled⟩, s)

/-- Copies the declarations marked for instances into a table. -/
def copyInit (s : Store) (into : Attributes) : List (String × Attribute) → Attributes × Store
  | [] => (into, s)
  | (name, a) :: rest =>
    if a.flags.isInit then
      let (a, s) := s.instanceCopy a
      s.copyInit (into.insert name a) rest
    else s.copyInit into rest

/-- The declarations that an instance of `t` is made from, in the order in which they are copied. -/
def instanceDeclarations (s : Store) (t : TypeId) : List (String × Attribute) :=
  (s.chain t).reverse.flatMap fun u =>
    let c := s.type u
    c.traits.flatMap (·.attributes.entries) ++ c.attributes.entries

def instantiate (s : Store) (t : TypeId) : ObjectId × Store :=
  let (attributes, s) := s.copyInit .empty (s.instanceDeclarations t)
  s.newObject ⟨t, attributes⟩

/-- An exception object for a caught error. -/
def makeException (s : Store) (kind message : String) (line : Option Nat) : Value × Store :=
  let (id, s) := s.instantiate Builtin.exception.id
  let lineValue : Value := line.elim .void fun n => .number (Float.ofNat n)
  (.object id, s.setObject id fun as =>
    ((as.insert "kind" ⟨.string kind, {}⟩).insert "message" ⟨.string message, {}⟩).insert
      "line" ⟨lineValue, {}⟩)

end Store

end ScriptMachine
