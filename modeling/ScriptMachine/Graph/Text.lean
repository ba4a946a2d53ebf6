import ScriptMachine.Graph.Basic
import ScriptMachine.Json.Basic

namespace ScriptMachine

def maxReference : Nat := UInt32.size - 1

/-- How deep values may nest inside the two fields of a graph. -/
def graphNesting : Nat := 126

namespace Json

def member (key : String) (v : Json) : Option String × Json :=
  (some key, v)

def str (s : String) : Json :=
  string (some s)

def tagged (tag : String) (members : List (Option String × Json)) : Json :=
  object (member "type" (str tag) :: members)

/-- Splits a tagged value into the position of its tag among `tags` and the value without it. The
position itself may stand for the tag where `byPosition` says so. -/
def untag? (tags : List String) (byPosition : Bool) : Json → Option (Nat × Json)
  | object members => do
    let tag ← (← field? members "type")
    return (← position tag, object (members.filter (·.1 != some "type")))
  | array (tag :: rest) => do
    return (← position tag, array rest)
  | _ => none
where
  position (tag : Json) : Option Nat :=
    match tag with
    | string (some s) => tags.findIdx? (· == s)
    | v => if byPosition then v.nat?.filter (· < tags.length) else none

end Json

open Json

namespace Node

def tags : List String :=
  ["void", "bool", "number", "string", "type", "ref"]

def toJson : Node → Json
  | void => Json.tagged "void" []
  | bool b => Json.tagged "bool" [member "value" (.bool b)]
  | number n => Json.tagged "number" [member "value" (.number (.ofFloat n))]
  | string s => Json.tagged "string" [member "value" (str s)]
  | type name => Json.tagged "type" [member "name" (str name)]
  | ref id => Json.tagged "ref" [member "id" (.number (.ofNat id))]

def payload? (name : String) (body : Json) : Option Json := do
  match ← body.fields? [name] with
  | [v] => v
  | _ => none

def reference? (v : Json) : Option Nat :=
  v.nat?.filter (· ≤ maxReference)

/-- `nested` is true inside records, where a tag may be given by its position. -/
def ofJson? (nested : Bool) (v : Json) : Option Node := do
  let (tag, body) ← v.untag? tags nested
  match tag with
  | 0 =>
    match body with
    | .array (_ :: _) => none
    | _ => return void
  | 1 => return bool (← (← payload? "value" body).bool?)
  | 2 => return number (← (← payload? "value" body).float?)
  | 3 => return string (← (← payload? "value" body).string?)
  | 4 => return type (← (← payload? "name" body).string?)
  | _ => return ref (← reference? (← payload? "id" body))

end Node

namespace Entry

def toJson (e : Entry) : Json :=
  .object [member "key" (str e.key), member "value" e.value.toJson]

def ofJson? (v : Json) : Option Entry := do
  match ← v.fields? ["key", "value"] with
  | [some key, some value] =>
    return { key := ← key.string?, value := ← Node.ofJson? true value }
  | _ => none

end Entry

namespace Field

def flagMember (name : String) (b : Bool) : List (Option String × Json) :=
  if b then [member name (.bool true)] else []

def toJson (f : Field) : Json :=
  .object (member "name" (str f.name) :: flagMember "private" f.isPrivate ++
    flagMember "constant" f.isConstant ++ [member "value" f.value.toJson])

def flag? (v : Option Json) : Option Bool :=
  v.elim (some false) Json.bool?

def ofJson? (v : Json) : Option Field := do
  match ← v.fields? ["name", "private", "constant", "value"] with
  | [some name, isPrivate, isConstant, some value] =>
    return {
      name := ← name.string?
      isPrivate := ← flag? isPrivate
      isConstant := ← flag? isConstant
      value := ← Node.ofJson? true value }
  | _ => none

end Field

namespace Record

def tags : List String :=
  ["array", "map", "object"]

def toJson : Record → Json
  | array items => Json.tagged "array" [member "items" (.array (items.map Node.toJson))]
  | map entries => Json.tagged "map" [member "entries" (.array (entries.map Entry.toJson))]
  | object typeName attributes =>
    Json.tagged "object" [member "type_name" (str typeName),
      member "attributes" (.array (attributes.map Field.toJson))]

def elements? {α : Type} (f : Json → Option α) (v : Option Json) : Option (List α) := do
  (← (← v).items?).mapM f

def ofJson? (v : Json) : Option Record := do
  let (tag, body) ← v.untag? tags false
  match tag with
  | 0 =>
    match ← body.fields? ["items"] with
    | [items] => return array (← elements? (Node.ofJson? true) items)
    | _ => none
  | 1 =>
    match ← body.fields? ["entries"] with
    | [entries] => return map (← elements? Entry.ofJson? entries)
    | _ => none
  | _ =>
    match ← body.fields? ["type_name", "attributes"] with
    | [some typeName, attributes] =>
      return object (← typeName.string?) (← elements? Field.ofJson? attributes)
    | _ => none

end Record

namespace Graph

def recordsJson (records : List Record) : Json :=
  .array (records.map Record.toJson)

def toJson (g : Graph) : Json :=
  .object (member "root" g.root.toJson ::
    if g.records.isEmpty then [] else [member "records" (recordsJson g.records)])

def text (g : Graph) : String :=
  g.toJson.text

def sound? (v : Json) : Option Json :=
  if v.sound graphNesting then some v else none

def ofJson? (v : Json) : Option Graph := do
  match ← v.fields? ["root", "records"] with
  | [some root, records] =>
    let root ← Node.ofJson? false (← sound? root)
    match records with
    | none => return { root }
    | some records => return { root, records := ← Record.elements? Record.ofJson? (sound? records) }
  | _ => none

def parse (text : String) : Except CodecError Graph :=
  match (Json.parse text).bind ofJson? with
  | some g => .ok g
  | none => .error .malformed

end Graph

end ScriptMachine
