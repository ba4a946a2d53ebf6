import ScriptMachine.Model.Resolve

namespace ScriptMachine

/-- Who reaches for an attribute. -/
inductive Access where
  /-- The host, outside every method. -/
  | host
  /-- A method that the type of `self` declares; of `self` itself when that is a type. -/
  | within (self : Value)
  /-- The function `f` at work on `self`. -/
  | running (self : Value) (f : FunctionId)

def Access.self? : Access → Option Value
  | host => none
  | within v => some v
  | running v _ => some v

namespace Store

def selfType (s : Store) : Value → TypeId
  | .type t => t
  | v => s.typeOf v

/-- The first type in the chain of `self` that declares `f`. -/
def methodOwner? (s : Store) (self : Value) (f : FunctionId) : Option TypeId :=
  (s.chain (s.selfType self)).find? fun t => (s.type t).declares f

/-- The type as whose method an access is made. -/
def actsFor? (s : Store) : Access → Option TypeId
  | .host => none
  | .within self => some (s.selfType self)
  | .running self f => s.methodOwner? self f

/-- Whether private attributes of `t` are open to an access. -/
def mayAccess (s : Store) (access : Access) (t : TypeId) : Bool :=
  s.actsFor? access == some t

def originType? : Origin → Option TypeId
  | .own => none
  | .type t => some t
  | .trait t _ => some t

/-- The type whose methods own a resolved attribute. A receiver's own copy of an attribute belongs
to the type that declares the name. -/
def definingType (s : Store) (receiver : Value) (name : String) (r : Resolved) : TypeId :=
  match originType? r.origin, receiver with
  | some t, _ => t
  | none, .type t => t
  | none, v => ((s.lookup (s.typeOf v) name).bind (originType? ·.origin)).getD (s.typeOf v)

def checkRead (s : Store) (access : Access) (receiver : Value) (name : String) (r : Resolved) :
    Except Cause Unit :=
  let owner := s.definingType receiver name r
  if r.attr.flags.isPrivate && !s.mayAccess access owner then
    .error (.access name (.privateTo (s.typeName owner)))
  else .ok ()

def checkWrite (s : Store) (access : Access) (receiver : Value) (name : String) (r : Resolved) :
    Except Cause Unit := do
  s.checkRead access receiver name r
  if r.attr.flags.isConstant then .error (.access name .constant) else .ok ()

def find (s : Store) (access : Access) (receiver : Value) (name : String) : Except Cause Value :=
  match s.resolve receiver name with
  | none => .error (.attributeNotFound name (s.typeName (s.typeOf receiver)))
  | some r => (s.checkRead access receiver name r).map fun _ => r.attr.value

/-- Ties a function to a receiver; other values stay as they are. -/
def bind (s : Store) (receiver v : Value) : Value × Store :=
  match v.callable? with
  | some method =>
    let (id, s) := s.newBound ⟨receiver, method.value⟩ (method.boundBelow_value _)
    (.bound id, s)
  | none => (v, s)

/-- Ties any value of the store to a receiver; it has to be there first. -/
def tie (s : Store) (receiver method : Value) : Value × Store :=
  if h : method.BoundBelow s.bounds.size then
    let (id, s) := s.newBound ⟨receiver, method⟩ h
    (.bound id, s)
  else (method, s)

/-- The value of an attribute, tied to the receiver. -/
def get (s : Store) (access : Access) (receiver : Value) (name : String) :
    Except Cause (Value × Store) :=
  (s.find access receiver name).map (s.bind receiver)

/-- Changes the own attributes of a value that has any. -/
def setOwn (s : Store) (target : Value) (f : Attributes → Attributes) : Store :=
  match target with
  | .object id => s.setObject id f
  | .function id => s.setFunction id f
  | .type id => s.setType id f
  | .trait id => s.setTrait id f
  | _ => s

def hasOwn : Value → Bool
  | .object _ | .function _ | .type _ | .trait _ => true
  | _ => false

/-- Sets the value of an own attribute and keeps its flags; nothing happens without one. -/
def assignOwn (s : Store) (target : Value) (name : String) (v : Value) : Option Store := do
  let a ← (← s.ownAttributes? target).get? name
  return s.setOwn target (·.insert name { a with value := v })

/-- The attribute that an assignment would replace or shadow. -/
def assigned? (s : Store) (target : Value) (name : String) : Option Resolved :=
  match target with
  | .type t => s.lookup t name
  | .trait id => ((s.trait id).attributes.get? name).map fun a => ⟨a, .own⟩
  | v => s.resolve v name

/-- Assigns an attribute. An own one keeps its flags, one found further away is shadowed with the
same flags, and a new one has none. -/
def set (s : Store) (access : Access) (target : Value) (name : String) (v : Value) :
    Except Cause Store :=
  if hasOwn target then
    match s.assigned? target name with
    | some r => do
      s.checkWrite access target name r
      match s.assignOwn target name v with
      | some s' => return s'
      | none => return s.setOwn target (·.insert name ⟨v, r.attr.flags.settled⟩)
    | none => .ok (s.setOwn target (·.insert name ⟨v, {}⟩))
  else .error (.typeMismatch s!"set attribute '{name}'" target.kindName)

/-- Declares an attribute, whatever was there before. -/
def define (s : Store) (target : Value) (name : String) (v : Value) (flags : Flags) :
    Except Cause Store :=
  if hasOwn target then .ok (s.setOwn target (·.insert name ⟨v, flags⟩))
  else .error (.typeMismatch s!"define attribute '{name}'" target.kindName)

end Store

end ScriptMachine
