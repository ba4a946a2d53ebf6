import ScriptMachine.Engine.Step

namespace ScriptMachine

/-- Where a signal ends up, and with which operands. -/
inductive Landing where
  /-- In a catch region of a frame, whose region is gone. -/
  | caught (frame : Frame) (below : List Frame) (stack : List Value) (signal : Signal)
  /-- Outside the loop. -/
  | escaped (frames : List Frame) (stack : List Value) (signal : Signal)

def Frame.traceEntry (f : Frame) (source : Option String) : TraceEntry where
  function := some f.closure.name
  source := source
  line := f.currentLine

/-- The frame in its innermost catch region, and the height to which the region cuts the stack. -/
def Frame.resume? (f : Frame) : Option (Frame × Nat) :=
  match f.handlers with
  | h :: rest => some ({ f with pc := h.target, handlers := rest }, h.height)
  | [] => none

/-- A signal that leaves a frame. A raise has its trace apart; an error carries its own. -/
def Signal.leave (entry : TraceEntry) (trace : List TraceEntry) :
    Signal → Signal × List TraceEntry
  | error fault => (error (fault.leave entry), trace)
  | raise v => (raise v, trace ++ [entry])

/-- Leaves frames above `base` until one takes the signal. `trace` collects the frames left by a
raise. -/
def land (store : Store) (base : Nat) (signal : Signal) (trace : List TraceEntry)
    (stack : List Value) : List Frame → Landing × List TraceEntry
  | [] => (.escaped [] stack signal, trace)
  | f :: below =>
    match if signal.catchable then f.resume? else none with
    | some (f, height) => (.caught f below (cutTo height stack) signal, trace)
    | none =>
      let entry := f.traceEntry (store.staticsCell f.closure.statics).source
      let (signal, trace) := signal.leave entry trace
      let stack := cutTo f.stackBase stack
      if below.length ≤ base then (.escaped below stack signal, trace)
      else land store base signal trace stack below

namespace Exec

/-- The next instruction of the innermost frame; none at the end of its code. -/
def fetch : Exec (Option Instruction) := do
  let f ← top
  match f.closure.template.body.code[f.pc]? with
  | none => return none
  | some i =>
    setTop fun f => { f with pc := f.pc + 1 }
    modify fun m => { m with executed := m.executed + 1 }
    let m ← get
    match m.config.instructionLimit with
    | some limit =>
      if limit < m.executed then fail (.breakdown (.outOfInstructions limit)) else return some i
    | none => return some i

/-- Gives a signal the place of the instruction that it comes from, unless it has one. -/
def locate (s : Signal) (position : Option Position) : Exec Signal := do
  let m ← get
  let position := position.or (m.frames.head?.map fun f => ⟨f.closure.template.line, 0⟩)
  match s with
  | .error fault =>
    return .error (match position with
      | some p => fault.locate p
      | none => fault)
  | .raise v =>
    set { m with raisePosition := m.raisePosition.or position }
    return .raise v

def executeAt (call : Callback) (i : Instruction) : Exec Step := do
  match ← attempt (execute i.opcode >>= complete call) with
  | .ok step => return step
  | .error s => signal (← locate s i.position)

/-- Takes the innermost frame off. Its result is that of the loop when the base is reached. -/
def finishFrame (v : Value) (base : Nat) : Exec (Option Value) := do
  match (← get).frames with
  | [] => return some v
  | f :: below =>
    modify fun m => { m with frames := below, stack := cutTo f.stackBase m.stack }
    let v := f.constructing.getD v
    if below.length ≤ base then return some v
    else
      push v
      return none

/-- The value with which a catch region starts. -/
def exceptionOf : Signal → Exec Value
  | .raise v => return v
  | .error fault => alloc (·.makeException fault.kind.name fault.message fault.line?)

def unwind (s : Signal) (base : Nat) : Exec Unit := do
  let m ← get
  match land m.store base s m.raiseTrace m.stack m.frames with
  | (.caught f below stack s, _) =>
    set { m with frames := f :: below, stack }
    push (← exceptionOf s)
    modify fun m => { m with raiseTrace := [], raisePosition := none }
  | (.escaped frames stack s, trace) =>
    set { m with frames, stack, raiseTrace := trace }
    signal s

def dispatch (call : Callback) : Exec Step := do
  match ← fetch with
  | some i => executeAt call i
  | none => return .returned .void

/-- One round of the loop; a value ends it. -/
def cycle (call : Callback) (base : Nat) : Exec (Option Value) := do
  match ← attempt (dispatch call) with
  | .ok (.returned v) => finishFrame v base
  | .ok _ => return none
  | .error s =>
    unwind s base
    return none

def loop (call : Callback) (base : Nat) : Nat → Exec Value
  | 0 => throw .outOfFuel
  | fuel + 1 => do
    match ← cycle call base with
    | some v => return v
    | none => loop call base fuel

/-- Calls a value to its end. Loops started inside one another share the budget. -/
def invoke : Nat → Callback
  | 0, _, _, _ => throw .outOfFuel
  | fuel + 1, callee, this, args => do
    let base := (← get).frames.length
    match ← beginCall callee this args none with
    | .entered => loop (invoke fuel) base fuel
    | .native body this args constructing => runNative (invoke fuel) body this args constructing

end Exec

end ScriptMachine
