import ScriptMachine.Json.Numeral

namespace ScriptMachine

/-- The tree of a text. A string has no text when an escape in it names half of a surrogate pair. -/
inductive Json where
  | null
  | bool (b : Bool)
  | number (n : Numeral)
  | string (s : Option String)
  | array (items : List Json)
  | object (members : List (Option String × Json))
  deriving Inhabited

namespace Json

def isBlank (c : Char) : Bool :=
  c == ' ' || c == '\n' || c == '\t' || c == '\r'

def skipBlank (cs : List Char) : List Char :=
  cs.dropWhile isBlank

def hexValue? (c : Char) : Option Nat :=
  if '0' ≤ c && c ≤ '9' then some (c.toNat - '0'.toNat)
  else if 'a' ≤ c && c ≤ 'f' then some (c.toNat - 'a'.toNat + 10)
  else if 'A' ≤ c && c ≤ 'F' then some (c.toNat - 'A'.toNat + 10)
  else none

def hex4? (a b c d : Char) : Option Nat := do
  return ((← hexValue? a) * 16 + (← hexValue? b)) * 256 + (← hexValue? c) * 16 + (← hexValue? d)

/-- The character after a backslash, `u` apart. -/
def escaped? : Char → Option Char
  | '"' => some '"'
  | '\\' => some '\\'
  | '/' => some '/'
  | 'b' => some '\x08'
  | 'f' => some '\x0c'
  | 'n' => some '\n'
  | 'r' => some '\r'
  | 't' => some '\t'
  | _ => none

def isHigh (n : Nat) : Bool :=
  0xd800 ≤ n && n < 0xdc00

def isLow (n : Nat) : Bool :=
  0xdc00 ≤ n && n < 0xe000

def joinPair (high low : Nat) : Char :=
  Char.ofNat (0x10000 + (high - 0xd800) * 0x400 + (low - 0xdc00))

/-- The rest of a string after its opening quote. -/
def readText (acc : List Char) (valid : Bool) : List Char → Option (Option String × List Char)
  | [] => none
  | '"' :: rest => some (if valid then some (String.ofList acc.reverse) else none, rest)
  | '\\' :: 'u' :: a :: b :: c :: d :: '\\' :: 'u' :: e :: f :: g :: h :: rest =>
    match hex4? a b c d, hex4? e f g h with
    | some n, some l =>
      if isHigh n && isLow l then readText (joinPair n l :: acc) valid rest
      else if isHigh n || isLow n then
        readText acc false ('\\' :: 'u' :: e :: f :: g :: h :: rest)
      else readText (Char.ofNat n :: acc) valid ('\\' :: 'u' :: e :: f :: g :: h :: rest)
    | _, _ => none
  | '\\' :: 'u' :: a :: b :: c :: d :: rest =>
    match hex4? a b c d with
    | some n =>
      if isHigh n || isLow n then readText acc false rest
      else readText (Char.ofNat n :: acc) valid rest
    | none => none
  | '\\' :: c :: rest =>
    match escaped? c with
    | some c => readText (c :: acc) valid rest
    | none => none
  | c :: rest => if c.toNat < 0x20 then none else readText (c :: acc) valid rest

mutual

def readValue : Nat → List Char → Option (Json × List Char)
  | 0, _ => none
  | n + 1, cs =>
    match skipBlank cs with
    | 'n' :: 'u' :: 'l' :: 'l' :: rest => some (null, rest)
    | 't' :: 'r' :: 'u' :: 'e' :: rest => some (bool true, rest)
    | 'f' :: 'a' :: 'l' :: 's' :: 'e' :: rest => some (bool false, rest)
    | '"' :: rest => (readText [] true rest).map fun (s, rest) => (string s, rest)
    | '[' :: rest =>
      match skipBlank rest with
      | ']' :: rest => some (array [], rest)
      | rest => (readItems n rest).map fun (items, rest) => (array items, rest)
    | '\x7b' :: rest =>
      match skipBlank rest with
      | '\x7d' :: rest => some (object [], rest)
      | rest => (readMembers n rest).map fun (members, rest) => (object members, rest)
    | rest => (Numeral.read rest).map fun (x, rest) => (number x, rest)

/-- Items up to the closing bracket; there is at least one. -/
def readItems : Nat → List Char → Option (List Json × List Char)
  | 0, _ => none
  | n + 1, cs => do
    let (item, cs) ← readValue n cs
    match skipBlank cs with
    | ',' :: rest =>
      let (items, rest) ← readItems n rest
      return (item :: items, rest)
    | ']' :: rest => return ([item], rest)
    | _ => none

/-- Members up to the closing brace; there is at least one. -/
def readMembers : Nat → List Char → Option (List (Option String × Json) × List Char)
  | 0, _ => none
  | n + 1, cs => do
    match skipBlank cs with
    | '"' :: rest =>
      let (key, rest) ← readText [] true rest
      match skipBlank rest with
      | ':' :: rest =>
        let (v, rest) ← readValue n rest
        match skipBlank rest with
        | ',' :: rest =>
          let (members, rest) ← readMembers n rest
          return ((key, v) :: members, rest)
        | '\x7d' :: rest => return ([(key, v)], rest)
        | _ => none
      | _ => none
    | _ => none

end

/-- Reads a whole text. Values nest at most as deep as there are characters, twice over. -/
def parse (text : String) : Option Json := do
  let cs := text.toList
  let (v, rest) ← readValue (2 * cs.length + 2) cs
  if (skipBlank rest).isEmpty then return v else none

def hexDigits (n : Nat) : List Char :=
  let ds := Nat.toDigits 16 n
  List.replicate (4 - ds.length) '0' ++ ds

def escape (c : Char) : List Char :=
  match c with
  | '"' => ['\\', '"']
  | '\\' => ['\\', '\\']
  | '\x08' => ['\\', 'b']
  | '\x0c' => ['\\', 'f']
  | '\n' => ['\\', 'n']
  | '\r' => ['\\', 'r']
  | '\t' => ['\\', 't']
  | c => if c.toNat < 0x20 then '\\' :: 'u' :: hexDigits c.toNat else [c]

def quote (s : String) : List Char :=
  '"' :: s.toList.flatMap escape ++ ['"']

mutual

def chars : Json → List Char
  | null => ['n', 'u', 'l', 'l']
  | bool b => if b then ['t', 'r', 'u', 'e'] else ['f', 'a', 'l', 's', 'e']
  | number n => n.chars
  | string s => quote (s.getD "")
  | array items => '[' :: itemChars items ++ [']']
  | object members => '\x7b' :: memberChars members ++ ['\x7d']

def itemChars : List Json → List Char
  | [] => []
  | [v] => v.chars
  | v :: rest => v.chars ++ ',' :: itemChars rest

def memberChars : List (Option String × Json) → List Char
  | [] => []
  | [(key, v)] => quote (key.getD "") ++ ':' :: v.chars
  | (key, v) :: rest => quote (key.getD "") ++ ':' :: v.chars ++ ',' :: memberChars rest

end

def text (v : Json) : String :=
  String.ofList v.chars

/-- Whether strings have texts, numbers are in range and values nest at most `n` deep. -/
def sound : Nat → Json → Bool
  | _, null | _, bool _ => true
  | _, number x => x.value?.isSome
  | _, string s => s.isSome
  | 0, array _ | 0, object _ => false
  | n + 1, array items => items.all (sound n)
  | n + 1, object members => members.all fun (key, v) => key.isSome && sound n v

def string? : Json → Option String
  | string s => s
  | _ => none

def bool? : Json → Option Bool
  | bool b => some b
  | _ => none

def nat? : Json → Option Nat
  | number x =>
    match x.value? with
    | some (.nat n) => some n
    | _ => none
  | _ => none

def float? : Json → Option Float
  | number x => x.value?.map JsonNumber.toFloat
  | _ => none

def items? : Json → Option (List Json)
  | array items => some items
  | _ => none

/-- The value of a field; an outer none when the field is repeated. -/
def field? (members : List (Option String × Json)) (name : String) : Option (Option Json) :=
  match members.filter (·.1 == some name) with
  | [] => some none
  | [(_, v)] => some (some v)
  | _ => none

/-- The values of a record's fields, which is written as an object or as the array of its values.
Other members of the object are ignored. -/
def fields? (names : List String) : Json → Option (List (Option Json))
  | object members =>
    if members.all (·.1.isSome) then names.mapM (field? members) else none
  | array items =>
    if items.length ≤ names.length then some (names.zipIdx.map fun (_, i) => items[i]?) else none
  | _ => none

end Json

end ScriptMachine
