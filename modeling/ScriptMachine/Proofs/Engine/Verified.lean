import ScriptMachine.Proofs.Code.Verify
import ScriptMachine.Proofs.Engine.Origin

namespace ScriptMachine

/-- Made from the closure `c` by creating closures, any number of times. -/
inductive Closure.Derived (c : Closure) : Closure → Prop
  | refl : Derived c c
  | nested {d e : Closure} {i : Nat} : Derived c d → d.nested? i = some e → Derived c e

theorem Closure.Derived.checked {c d : Closure} {statics limit depth : Nat} (h : c.Derived d)
    (hc : c.template.faultAt? statics limit depth = none) :
    d.statics = c.statics ∧ ∃ depth, d.template.faultAt? statics limit depth = none := by
  induction h with
  | refl => exact ⟨rfl, depth, hc⟩
  | nested _ hnested ih =>
    obtain ⟨hstatics, k, hk⟩ := ih
    obtain ⟨t, ht, rfl⟩ := Option.map_eq_some_iff.1 hnested
    exact ⟨hstatics, k + 1, (Template.of_faultAt hk).2 t (List.mem_of_getElem? ht)⟩

/-- A frame that has not left its code and will not by a catch region. -/
structure Frame.InBounds (f : Frame) : Prop where
  locals : f.locals.size = f.closure.template.frameSize
  pc : f.pc ≤ f.closure.template.body.code.size
  handlers : ∀ h ∈ f.handlers, h.target ≤ f.closure.template.body.code.size

theorem Frame.invariant_inBounds {c : Closure} {statics : Nat}
    (hc : ∀ d, c.Derived d → d.template.InRange statics) :
    Frame.Invariant fun f => c.Derived f.closure → f.InBounds where
  fresh := by
    intro m g hg _
    refine ⟨hg.locals, ?_, ?_⟩
    · rw [hg.pc]
      exact Nat.zero_le _
    · rw [hg.handlers]
      exact fun _ hh => absurd hh List.not_mem_nil
  step := by
    intro f g i hf hi hfollow hg
    have hclosure : g.closure = f.closure := hfollow.closure_eq
    rw [hclosure] at hg
    obtain ⟨hlocals, hpc, hhandlers⟩ := hf hg
    obtain ⟨hlt, hget⟩ := Array.getElem?_eq_some_iff.1 hi
    have hflaw := hc _ hg i (hget ▸ Array.getElem_mem hlt)
    refine ⟨?_, ?_, ?_⟩ <;> rw [hclosure]
    · exact hfollow.locals.trans hlocals
    · rcases hfollow.pc with hsame | hjump
      · rw [hsame]
        exact hlt
      · exact Template.jumpTarget_le hflaw hjump
    · intro r hr
      rcases hfollow.handlers r hr with hold | ⟨hnew, -⟩
      · exact hhandlers r hold
      · exact Template.jumpTarget_le hflaw hnew
  resume := by
    intro f h hs hf hh hd
    obtain ⟨hlocals, -, hhandlers⟩ := hf hd
    rw [hh] at hhandlers
    exact ⟨hlocals, hhandlers h (List.mem_cons_self ..),
      fun r hr => hhandlers r (List.mem_cons_of_mem _ hr)⟩

/-- Causes of internal errors that a round of checked code at `m` may still have. -/
inductive Residual (fuel : Nat) (m : Machine) : Cause → Prop
  | underflow : Residual fuel m (.breakdown .operandUnderflow)
  | tooDeep : Residual fuel m (.breakdown (.tooDeep m.config.maxDepth))
  | outOfInstructions {limit : Nat} (h : m.config.instructionLimit = some limit) :
      Residual fuel m (.breakdown (.outOfInstructions limit))
  | refused {g : Guard} {asked : List (Nat × String)} {depth : Nat} {name : String} {c : Cause}
      (hg : m.guard = some g) (hc : g.refuse? asked depth name = some c) : Residual fuel m c
  /-- The error of a native function or a method `==` that the instruction ran. -/
  | passedOn {step : Step} {m₁ m₂ : Machine} {fault : Fault}
      (hstep : Exec.instruct m = .ok (some step) m₁)
      (h : Exec.complete (Exec.invoke fuel) step m₁ = .error (.failed (.error fault)) m₂) :
      Residual fuel m fault.cause

/-- The innermost frame runs checked code on a block of as many slots as the check was told. -/
structure Frame.Checked (statics : Nat) (m : Machine) (f : Frame) : Prop where
  bounds : f.InBounds
  range : f.closure.template.InRange statics
  block : f.closure.statics.index < m.store.statics.size
  slots : (m.store.staticsCell f.closure.statics).slots.size = statics

namespace Exec

variable {m₀ m m' : Machine} {f : Frame} {us : List Frame} {statics fuel : Nat} {fault : Fault}

theorem residual_of_breaks {i : Instruction} {rest : List Frame} {c : Cause}
    (hf : f.Checked statics m) (hi : f.closure.template.body.code[f.pc]? = some i)
    (h : Breaks i.opcode (fetched m f rest) { f with pc := f.pc + 1 } c) : Residual fuel m c := by
  obtain ⟨hlt, hget⟩ := Array.getElem?_eq_some_iff.1 hi
  have hflaw := hf.range i (hget ▸ Array.getElem_mem hlt)
  cases h with
  | underflow => exact .underflow
  | tooDeep => exact .tooDeep
  | refused hg hc => exact .refused hg hc
  | noConstant ho hnone =>
    exact absurd (Template.constant_lt hflaw ho) (Nat.not_lt_of_le (Array.getElem?_eq_none_iff.1 hnone))
  | notName ho hnone => exact absurd hnone (Template.nameAt_ne_none hflaw ho)
  | noLocal ho hle =>
    have hlt := Template.local_lt hflaw ho
    rw [← hf.bounds.locals] at hlt
    exact absurd hlt (Nat.not_lt_of_le hle)
  | noStatic ho hle =>
    have hlt := Template.static_lt hflaw ho
    rw [← hf.slots] at hlt
    exact absurd hlt (Nat.not_lt_of_le (hle hf.block))
  | noNested ho hnone =>
    exact absurd (Template.nested_lt hflaw ho) (Nat.not_lt_of_le (List.getElem?_eq_none_iff.1 hnone))

/-- Checked code ends a round with no internal errors but the remaining ones. -/
theorem residual_of_dispatch (h : m₀.Above (f :: us) m) (hf : f.Checked statics m)
    (hd : dispatch (invoke fuel) m = .error (.failed (.error fault)) m')
    (hk : fault.kind = .internal) : Residual fuel m fault.cause := by
  have hfetch := fetch_spec h.frames
  rcases bind_eq_failed hd with hfail | ⟨r, m₁, hok, hrest⟩
  · rw [hfail] at hfetch
    obtain ⟨i, limit, -, hlimit, hs, -⟩ := hfetch
    cases hs
    exact .outOfInstructions hlimit
  rw [hok] at hfetch
  obtain ⟨hr, rfl⟩ := hfetch
  cases r with
  | none => cases hrest
  | some i =>
    obtain ⟨s', m₂, hs, hfail | ⟨step, m₃, hstep, hcomplete⟩⟩ := executeAt_eq_failed hrest
    · obtain ⟨fault', rfl, hcause⟩ := Signal.eq_error_of_essence hs
      have hblames := (advances_execute i.opcode).of_failed (h.fetched.running i.opcode) hfail
      rw [hcause]
      refine residual_of_breaks hf hr.symm (hblames.2.2 ?_)
      rw [← hk, Fault.kind, Fault.kind, hcause]
    · obtain ⟨fault', rfl, hcause⟩ := Signal.eq_error_of_essence hs
      rw [hcause]
      have hinstruct : instruct m = .ok (some step) m₃ := by
        rw [instruct, bind_of_ok hok]
        exact bind_of_ok hstep
      exact .passedOn hinstruct hcomplete

end Exec

theorem HostM.loaded_spec {f : Fragment} {id : FunctionId} {m m' : Machine}
    (h : HostM.load f m = .ok (.function id) m') :
    (m'.store.function id).closure.template = f.main ∧
      (m'.store.function id).closure.statics.index < m'.store.statics.size ∧
      (m'.store.staticsCell (m'.store.function id).closure.statics).slots.size =
        f.statics.length := by
  obtain ⟨hid, rfl⟩ := load_eq_ok h
  cases hid
  simp [afterLoad, loaded, Store.newFunction, Store.newStatics, Store.function, Store.staticsCell,
    Statics.ofNames]

/-- Code of an accepted fragment, in every state of every call after its load: its frames are within
their code, and its instructions have no internal errors but the remaining ones. -/
theorem verified_code_in_bounds {f : Fragment} {id : FunctionId} {m₀ m₁ m₂ : Machine} {fuel : Nat}
    {callee : Value} {this : Option Value} {args : List Value} {w : Work}
    (hverify : f.verify = none) (hidle : m₀.frames = [])
    (hload : HostM.load f m₀ = .ok (.function id) m₁) (hrun : HostRun m₁ m₂)
    (hreach : Reaches ⟨fuel, .call callee this args, m₂⟩ w) :
    (∀ g ∈ w.machine.frames, (m₁.store.function id).closure.Derived g.closure →
      g.pc ≤ g.closure.template.body.code.size) ∧
    ∀ base g rest, w.activity = .loop base → w.machine.frames = g :: rest →
      (m₁.store.function id).closure.Derived g.closure → ∀ fault m',
      Exec.dispatch (Exec.invoke w.fuel) w.machine = .error (.failed (.error fault)) m' →
      fault.kind = .internal → Residual w.fuel w.machine fault.cause := by
  obtain ⟨htemplate, hblock, hslots⟩ := HostM.loaded_spec hload
  have hmain : (m₁.store.function id).closure.template.faultAt? f.statics.length
      Template.nestingLimit 0 = none := by
    rw [htemplate]
    exact hverify
  have hchecked {d : Closure} (hd : (m₁.store.function id).closure.Derived d) :
      d.statics = (m₁.store.function id).closure.statics ∧
        d.template.InRange f.statics.length := by
    obtain ⟨hstatics, k, hk⟩ := hd.checked hmain
    exact ⟨hstatics, (Template.of_faultAt hk).1⟩
  have hidle₂ : m₂.frames = [] := by
    rw [hrun.still.frames, (HostM.load_eq_ok hload).2]
    exact hidle
  have hgood : w.Good (fun g => (m₁.store.function id).closure.Derived g.closure → g.InBounds)
      m₁.store := by
    refine hreach.good (Frame.invariant_inBounds fun d hd => (hchecked hd).2) ⟨?_, hrun.still.slots⟩
    rw [hidle₂]
    exact fun _ hg => absurd hg List.not_mem_nil
  refine ⟨fun g hg hd => (hgood.machine.frames g hg hd).pc, ?_⟩
  intro base g rest hloop hframes hd fault m' hdispatch hk
  obtain ⟨k, activity, m⟩ := w
  cases hloop
  obtain ⟨m₃, hm₃, -, f', us, habove, hinv⟩ := hgood
  -- the frame in question is the innermost one of the loop
  obtain rfl : f' = g := (List.cons.inj (habove.frames.symm.trans hframes)).1
  -- the block of the load is still there, with as many slots as the check was told
  obtain ⟨hblock', hslots'⟩ := (hm₃.busy ⟨f', us, habove, hinv⟩).slots _ hblock
  obtain ⟨hstatics, hrange⟩ := hchecked hd
  have hcheck : f'.Checked f.statics.length m := by
    refine ⟨hinv f' (List.mem_cons_self ..) hd, hrange, ?_, ?_⟩
    · rw [hstatics]
      exact hblock'
    · rw [hstatics]
      exact hslots'.trans hslots
  exact Exec.residual_of_dispatch habove hcheck hdispatch hk

/-- A fragment with a function literal that lacks an operand before it assigns a static slot. -/
def lacking : Fragment where
  source := "lacking"
  main :=
    { body :=
      { code := #[⟨.createClosure 0, none⟩, ⟨.call 0, none⟩]
        nested := [{ body := { code := #[⟨.storeStatic 0, none⟩] } }] } }
  statics := ["n"]

/-- The machine with `lacking` loaded, in the call of its top-level function. -/
def inLacking (pc : Nat) (stack : List Value) : Machine :=
  { HostM.afterLoad lacking (Machine.start {}) with
    frames := [{ function := ⟨0⟩, closure := HostM.loaded lacking (Machine.start {}), locals := #[],
                 supplied := 0, this := .void, pc, stackBase := 0 }]
    stack
    executed := pc }

/-- The function literal. -/
def literal : Closure where
  template := { body := { code := #[⟨.storeStatic 0, none⟩] } }
  code := ⟨0, [0]⟩
  statics := ⟨0⟩

def afterLiteral (pc : Nat) (stack : List Value) : Machine :=
  { inLacking pc stack with
    store := ((inLacking pc stack).store.newFunction ⟨literal, .empty⟩).2 }

def inLiteral : Machine :=
  { afterLiteral 2 [] with
    frames :=
      { function := ⟨1⟩, closure := literal, locals := #[], supplied := 0, this := .void,
        stackBase := 0 } :: (afterLiteral 2 []).frames }

theorem verified_code_in_bounds_lacking :
    ∃ fault m', Exec.dispatch (Exec.invoke 1) inLiteral = .error (.failed (.error fault)) m' ∧
      fault.kind = .internal ∧ Residual 1 inLiteral fault.cause := by
  have hload : HostM.load lacking (Machine.start {}) =
      .ok (.function ⟨0⟩) (HostM.afterLoad lacking (Machine.start {})) := by
    rw [HostM.load_eq]
    rfl
  have henter : Exec.beginCall (.function ⟨0⟩) none [] none
      (HostM.afterLoad lacking (Machine.start {})) = .ok .entered (inLacking 0 []) := rfl
  have hcreate : Exec.cycle (Exec.invoke 1) 0 (inLacking 0 []) =
      .ok none (afterLiteral 1 [.function ⟨1⟩]) := rfl
  have hcall : Exec.cycle (Exec.invoke 1) 0 (afterLiteral 1 [.function ⟨1⟩]) =
      .ok none inLiteral := rfl
  have hreach : Reaches
      ⟨2, .call (.function ⟨0⟩) none [], HostM.afterLoad lacking (Machine.start {})⟩
      ⟨1, .loop 0, inLiteral⟩ :=
    .step (.step (.step .refl (.enter henter)) (.round hcreate)) (.round hcall)
  have hderived : ((HostM.afterLoad lacking (Machine.start {})).store.function
      ⟨0⟩).closure.Derived literal := .nested (i := 0) .refl rfl
  have hfail : ∃ m', Exec.dispatch (Exec.invoke 1) inLiteral =
      .error (.failed (.error ⟨.breakdown .operandUnderflow, [], some ⟨0, 0⟩⟩)) m' := ⟨_, rfl⟩
  obtain ⟨m', hfail⟩ := hfail
  have hbounds := verified_code_in_bounds (by decide) rfl hload .refl hreach
  exact ⟨_, m', hfail, rfl, hbounds.2 0 _ _ rfl rfl hderived _ m' hfail rfl⟩

end ScriptMachine
