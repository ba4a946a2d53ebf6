import ScriptMachine.Proofs.Engine.Balance

namespace ScriptMachine

/-- What is at work: a call about to start, a host program, or a loop with its base. -/
inductive Activity where
  | call (callee : Value) (this : Option Value) (args : List Value)
  | program (p : HostProgram)
  | loop (base : Nat)

/-- A machine at work; calls made from here have the given budget. -/
structure Work where
  fuel : Nat
  activity : Activity
  machine : Machine

/-- The instruction at the counter, and what it leaves to be done. -/
def Exec.instruct : Exec (Option Step) := do
  match ← fetch with
  | some i => return some (← execute i.opcode)
  | none => return none

/-- One state of a call and the next one, or one inside it. -/
inductive Leads : Work → Work → Prop
  /-- A script function is entered. -/
  | enter {n : Nat} {callee : Value} {this : Option Value} {args : List Value} {m m' : Machine}
      (h : Exec.beginCall callee this args none m = .ok .entered m') :
      Leads ⟨n + 1, .call callee this args, m⟩ ⟨n, .loop m.frames.length, m'⟩
  /-- A host function is called. -/
  | native {n : Nat} {callee : Value} {this : Option Value} {args : List Value} {m m' : Machine}
      {p : Value → List Value → HostProgram} {self : Value} {given : List Value}
      {constructing : Option Value}
      (h : Exec.beginCall callee this args none m =
        .ok (.native (.host p) self given constructing) m') :
      Leads ⟨n + 1, .call callee this args, m⟩ ⟨n, .program (p self given), m'⟩
  /-- A round of a loop is over. -/
  | round {n base : Nat} {m m' : Machine} (h : Exec.cycle (Exec.invoke n) base m = .ok none m') :
      Leads ⟨n, .loop base, m⟩ ⟨n, .loop base, m'⟩
  /-- Inside a round, an instruction runs a host function. -/
  | host {n base : Nat} {m m' : Machine} {p : Value → List Value → HostProgram} {self : Value}
      {given : List Value} {constructing : Option Value}
      (h : Exec.instruct m = .ok (some (.native (.host p) self given constructing)) m') :
      Leads ⟨n, .loop base, m⟩ ⟨n, .program (p self given), m'⟩
  /-- Inside a round, an instruction runs a method `==` to its end. -/
  | compare {n base : Nat} {m m' : Machine} {method a b : Value}
      (h : Exec.instruct m = .ok (some (.compare method a b)) m') :
      Leads ⟨n, .loop base, m⟩ ⟨n, .call method (some a) [b], m'⟩
  /-- A host program makes a call. -/
  | calls {n : Nat} {callee : Value} {this : Option Value} {args : List Value}
      {next : Outcome → HostProgram} {m : Machine} :
      Leads ⟨n, .program (.call callee this args next), m⟩ ⟨n, .call callee this args, m⟩
  | callsMethod {n : Nat} {receiver method : Value} {name : String} {args : List Value}
      {next : Outcome → HostProgram} {m m' : Machine}
      (h : Exec.find receiver name m = .ok method m') :
      Leads ⟨n, .program (.callMethod receiver name args next), m⟩
        ⟨n, .call method (some receiver) args, m'⟩
  /-- A host program goes on after a call, however that ended. -/
  | resumes {n : Nat} {callee : Value} {this : Option Value} {args : List Value}
      {next : Outcome → HostProgram} {m m' : Machine} {outcome : Outcome}
      (h : Exec.attempt (Exec.invoke n callee this args) m = .ok outcome m') :
      Leads ⟨n, .program (.call callee this args next), m⟩ ⟨n, .program (next outcome), m'⟩
  | resumesMethod {n : Nat} {receiver : Value} {name : String} {args : List Value}
      {next : Outcome → HostProgram} {m m' : Machine} {outcome : Outcome}
      (h : Exec.attempt (do
        let method ← Exec.find receiver name
        Exec.invoke n method (some receiver) args) m = .ok outcome m') :
      Leads ⟨n, .program (.callMethod receiver name args next), m⟩ ⟨n, .program (next outcome), m'⟩
  | newArray {n : Nat} {items : List Value} {next : Value → HostProgram} {m m' : Machine} {v : Value}
      (h : Exec.newArray items m = .ok v m') :
      Leads ⟨n, .program (.newArray items next), m⟩ ⟨n, .program (next v), m'⟩
  | typeName {n : Nat} {v : Value} {next : String → HostProgram} {m : Machine} :
      Leads ⟨n, .program (.typeName v next), m⟩
        ⟨n, .program (next (m.store.typeName (m.store.typeOf v))), m⟩
  | readDatum {n : Nat} {id : HostedId} {next : Datum → HostProgram} {m : Machine} :
      Leads ⟨n, .program (.readDatum id next), m⟩
        ⟨n, .program (next (m.store.hostedCell id).datum), m⟩
  | writeDatum {n : Nat} {id : HostedId} {d : Datum} {next : HostProgram} {m : Machine} :
      Leads ⟨n, .program (.writeDatum id d next), m⟩
        ⟨n, .program next, { m with store := m.store.setDatum id d }⟩

/-- The states of a call, from its start on. -/
inductive Reaches (w : Work) : Work → Prop
  | refl : Reaches w w
  | step {w' w'' : Work} : Reaches w w' → Leads w' w'' → Reaches w w''

/-- All frames have `P`, and static blocks have kept their slots since `store`. -/
structure Machine.Good (P : Frame → Prop) (store : Store) (m : Machine) : Prop where
  frames : ∀ f ∈ m.frames, P f
  slots : store.SlotsKept m.store

namespace Machine.Good

variable {P : Frame → Prop} {store : Store} {m m' : Machine}

theorem quiet (h : m.Good P store) (h' : m.Quiet m') : m'.Good P store :=
  ⟨h'.frames ▸ h.frames, h.slots.trans h'.store.slots⟩

theorem busy (h : m.Good P store) (h' : m.Busy P m') : m'.Good P store := by
  obtain ⟨f, us, habove, hP⟩ := h'
  refine ⟨fun g hg => ?_, h.slots.trans habove.store.slots⟩
  rw [habove.frames] at hg
  rcases List.mem_append.1 hg with hg | hg
  · exact hP g hg
  · exact h.frames g hg

end Machine.Good

/-- A loop has frames of its own above those of the machine in which its call was made. -/
def Work.Good (P : Frame → Prop) (store : Store) (w : Work) : Prop :=
  match w.activity with
  | .loop base => ∃ m₀ : Machine, m₀.Good P store ∧ m₀.frames.length = base ∧ m₀.Busy P w.machine
  | _ => w.machine.Good P store

theorem Work.Good.machine {P : Frame → Prop} {store : Store} {w : Work} (h : w.Good P store) :
    w.machine.Good P store := by
  obtain ⟨n, activity, m⟩ := w
  cases activity with
  | loop base =>
    obtain ⟨m₀, hm₀, -, hbusy⟩ := h
    exact hm₀.busy hbusy
  | call callee this args => exact h
  | program p => exact h

namespace Exec

/-- An instruction keeps to the loop in which it is executed. -/
theorem busy_instruct {P : Frame → Prop} {m₀ : Machine} (hP : Frame.Invariant P) :
    Triple (m₀.Busy P) instruct (fun _ => m₀.Busy P) fun _ => m₀.Busy P := by
  refine .bind (busy_fetch hP) fun r => ?_
  cases r with
  | none => exact .pure fun _ h => h
  | some i => exact .bind (busy_execute hP i) fun step => .pure fun _ h => h

theorem quiet_answered {x : Exec Value} {m m' : Machine} {outcome : Outcome}
    (hx : Keeps m.Quiet (fun _ => True) x) (h : attempt x m = .ok outcome m') : m.Quiet m' :=
  (Keeps.attempt hx (E := fun _ _ => True)).of_ok (Machine.Quiet.refl m) h

end Exec

/-- Every step inside a call keeps what a call keeps. -/
theorem Leads.good {P : Frame → Prop} {store : Store} (hP : Frame.Invariant P) {w w' : Work}
    (h : Leads w w') (hw : w.Good P store) : w'.Good P store := by
  cases h with
  | enter h => exact ⟨_, hw, rfl, Machine.Enters.busy hP (Exec.started_of_ok h)⟩
  | native h => exact Machine.Good.quiet hw (Exec.started_of_ok h).1.quiet
  | round h =>
    obtain ⟨m₀, hm₀, rfl, hbusy⟩ := hw
    exact ⟨m₀, hm₀, rfl, (Exec.busy_cycle hP (Exec.quiet_invoke _)).of_ok hbusy h⟩
  | host h =>
    obtain ⟨m₀, hm₀, rfl, hbusy⟩ := hw
    exact hm₀.busy ((Exec.busy_instruct hP).of_ok hbusy h)
  | compare h =>
    obtain ⟨m₀, hm₀, rfl, hbusy⟩ := hw
    exact hm₀.busy ((Exec.busy_instruct hP).of_ok hbusy h)
  | calls => exact hw
  | callsMethod h => exact Machine.Good.quiet hw ((Exec.quiet_find _ _).of_ok (.refl _) h)
  | resumes h => exact Machine.Good.quiet hw (Exec.quiet_answered (Exec.quiet_invoke _ _ _ _ _) h)
  | resumesMethod h =>
    exact Machine.Good.quiet hw
      (Exec.quiet_answered (Exec.quiet_callMethod (Exec.quiet_invoke _) _ _ _) h)
  | newArray h =>
    exact Machine.Good.quiet hw ((Exec.quiet_newArray _).of_ok (.refl _) h)
  | typeName => exact hw
  | readDatum => exact hw
  | writeDatum => exact Machine.Good.quiet hw ((Machine.Quiet.refl _).withStore ⟨rfl, rfl⟩)

theorem Reaches.good {P : Frame → Prop} {store : Store} (hP : Frame.Invariant P) {w w' : Work}
    (h : Reaches w w') (hw : w.Good P store) : w'.Good P store := by
  induction h with
  | refl => exact hw
  | step _ hstep ih => exact hstep.good hP ih

end ScriptMachine
