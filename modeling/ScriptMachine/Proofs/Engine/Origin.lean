import ScriptMachine.Proofs.Engine.Activity

namespace ScriptMachine

/-- What a signal is about, apart from its place and its trace. -/
def Signal.essence : Signal → Cause ⊕ Value
  | error fault => .inl fault.cause
  | raise v => .inr v

theorem Signal.eq_error_of_essence {fault : Fault} {s : Signal}
    (h : (Signal.error fault).essence = s.essence) :
    ∃ fault', s = .error fault' ∧ fault.cause = fault'.cause := by
  cases s with
  | error fault' => exact ⟨fault', rfl, Sum.inl.inj h⟩
  | raise v => cases h

/-- The signal arises in the state itself, not in one inside it. -/
inductive Arises : Work → Signal → Prop
  | start {n : Nat} {callee : Value} {this : Option Value} {args : List Value} {m m' : Machine}
      {s : Signal} (h : Exec.beginCall callee this args none m = .error (.failed s) m') :
      Arises ⟨n + 1, .call callee this args, m⟩ s
  | called {n : Nat} {callee self : Value} {this constructing : Option Value}
      {args given : List Value} {m m' : Machine} {b : Method} {c : Cause}
      (h : Exec.beginCall callee this args none m =
        .ok (.native (.method b) self given constructing) m')
      (hb : b.apply m'.store self given = .error c) :
      Arises ⟨n + 1, .call callee this args, m⟩ (.ofCause c)
  | instruction {n base : Nat} {m m' : Machine} {s : Signal}
      (h : Exec.instruct m = .error (.failed s) m') : Arises ⟨n, .loop base, m⟩ s
  | method {n base : Nat} {self : Value} {given : List Value} {constructing : Option Value}
      {m m' : Machine} {b : Method} {c : Cause}
      (h : Exec.instruct m = .ok (some (.native (.method b) self given constructing)) m')
      (hb : b.apply m'.store self given = .error c) : Arises ⟨n, .loop base, m⟩ (.ofCause c)
  | finish {n : Nat} {s : Signal} {m : Machine} : Arises ⟨n, .program (.finish (.error s)), m⟩ s

/-- The signal arises in a state that is passed through from here. -/
def HasOrigin (w : Work) (s : Signal) : Prop :=
  ∃ w' s', Reaches w w' ∧ Arises w' s' ∧ s'.essence = s.essence

theorem Reaches.head {w w' w'' : Work} (h : Leads w w') (h' : Reaches w' w'') : Reaches w w'' := by
  induction h' with
  | refl => exact .step .refl h
  | step _ hstep ih => exact .step ih hstep

theorem Arises.hasOrigin {w : Work} {s : Signal} (h : Arises w s) : HasOrigin w s :=
  ⟨w, s, .refl, h, rfl⟩

theorem Leads.hasOrigin {w w' : Work} {s : Signal} (h : Leads w w') (h' : HasOrigin w' s) :
    HasOrigin w s := by
  obtain ⟨w'', s', hreach, harises, hs⟩ := h'
  exact ⟨w'', s', .head h hreach, harises, hs⟩

theorem HasOrigin.congr {w : Work} {s s' : Signal} (h : HasOrigin w s')
    (hs : s'.essence = s.essence) : HasOrigin w s := by
  obtain ⟨w', s'', hreach, harises, hs'⟩ := h
  exact ⟨w', s'', hreach, harises, hs'.trans hs⟩

section Natives

variable {n : Nat} {m m' : Machine} {s : Signal}

/-- What a host program fails with is what it ends with; failures of its calls are answers to it. -/
theorem HostProgram.hasOrigin {p : HostProgram}
    (h : p.run (Exec.invoke n) m = .error (.failed s) m') : HasOrigin ⟨n, .program p, m⟩ s := by
  induction p generalizing m with
  | finish outcome =>
    cases outcome with
    | ok v => cases h
    | error s =>
      cases h
      exact Arises.finish.hasOrigin
  | call callee this args next ih =>
    rcases Exec.bind_eq_failed h with hfail | ⟨outcome, m₁, hok, hrest⟩
    -- the call may have failed, but then that is the answer
    · exact absurd hfail Exec.attempt_ne_failed
    · exact (Leads.resumes hok).hasOrigin (ih outcome hrest)
  | callMethod receiver name args next ih =>
    rcases Exec.bind_eq_failed h with hfail | ⟨outcome, m₁, hok, hrest⟩
    · exact absurd hfail Exec.attempt_ne_failed
    · exact (Leads.resumesMethod hok).hasOrigin (ih outcome hrest)
  | newArray items next ih =>
    rcases Exec.bind_eq_failed h with hfail | ⟨v, m₁, hok, hrest⟩
    · cases hfail
    · exact (Leads.newArray hok).hasOrigin (ih v hrest)
  | typeName v next ih => exact Leads.typeName.hasOrigin (ih _ h)
  | readDatum id next ih => exact Leads.readDatum.hasOrigin (ih _ h)
  | writeDatum id d next ih => exact Leads.writeDatum.hasOrigin (ih h)

theorem Exec.runNative_eq_failed {call : Callback} {body : NativeBody} {this : Value}
    {args : List Value} {constructing : Option Value}
    (h : runNative call body this args constructing m = .error (.failed s) m') :
    (∃ b c, body = .method b ∧ b.apply m.store this args = .error c ∧ s = .ofCause c) ∨
      ∃ p, body = .host p ∧ (p this args).run call m = .error (.failed s) m' := by
  rcases bind_eq_failed h with hbody | ⟨v, m₁, -, hrest⟩
  · cases body with
    | host p => exact .inr ⟨p, rfl, hbody⟩
    | method b =>
      change (ofExcept (b.apply m.store this args) >>= _) m = _ at hbody
      cases hb : b.apply m.store this args with
      | error c =>
        rw [hb] at hbody
        cases hbody
        exact .inl ⟨b, c, rfl, hb, rfl⟩
      | ok r =>
        rw [hb] at hbody
        cases hbody
  · cases constructing <;> cases hrest

end Natives

namespace Exec

variable {m m' : Machine} {s s' : Signal}

theorem essence_locate {position : Option Position} (h : locate s position m = .ok s' m') :
    s'.essence = s.essence := by
  rw [locate, get_bind_apply] at h
  cases s with
  | raise v =>
    cases h
    rfl
  | error fault =>
    cases h
    split <;> rfl

theorem executeAt_eq_failed {call : Callback} {i : Instruction}
    (h : executeAt call i m = .error (.failed s) m') :
    ∃ s' m₁, s.essence = s'.essence ∧
      (execute i.opcode m = .error (.failed s') m₁ ∨ ∃ step m₂,
        execute i.opcode m = .ok step m₂ ∧ complete call step m₂ = .error (.failed s') m₁) := by
  rcases bind_eq_failed h with hfail | ⟨r, m₁, hattempt, hlocate⟩
  · exact absurd hfail attempt_ne_failed
  rcases attempt_eq_ok hattempt with ⟨step, rfl, -⟩ | ⟨s', rfl, hs'⟩
  · cases hlocate
  rcases bind_eq_failed hlocate with hfail | ⟨s'', m₂, hlocate, hsignal⟩
  · exact ((quiet_locate s' i.position).of_failed (.refl m₁) hfail).elim
  cases hsignal
  exact ⟨s', m₁, essence_locate hlocate, bind_eq_failed hs'⟩

theorem dispatch_eq_failed {call : Callback} (h : dispatch call m = .error (.failed s) m') :
    ∃ s' m₁, s.essence = s'.essence ∧
      (instruct m = .error (.failed s') m₁ ∨ ∃ step m₂,
        instruct m = .ok (some step) m₂ ∧ complete call step m₂ = .error (.failed s') m₁) := by
  rcases bind_eq_failed h with hfail | ⟨r, m₁, hfetch, hrest⟩
  · exact ⟨s, m', rfl, .inl (bind_of_error hfail)⟩
  cases r with
  | none => cases hrest
  | some i =>
    obtain ⟨s', m₂, hs, hfail | ⟨step, m₃, hok, hcomplete⟩⟩ := executeAt_eq_failed hrest
    · exact ⟨s', m₂, hs, .inl ((bind_of_ok hfetch).trans (bind_of_error hfail))⟩
    · exact ⟨s', m₂, hs, .inr ⟨step, m₃, (bind_of_ok hfetch).trans (bind_of_ok hok), hcomplete⟩⟩

theorem essence_leave (s : Signal) (entry : TraceEntry) (trace : List TraceEntry) :
    (s.leave entry trace).1.essence = s.essence := by
  cases s <;> rfl

theorem essence_land {store : Store} {base : Nat} {trace trace' : List TraceEntry}
    {stack stack' : List Value} {fs fs' : List Frame}
    (h : land store base s trace stack fs = (.escaped fs' stack' s', trace')) :
    s'.essence = s.essence := by
  induction fs generalizing s trace stack with
  | nil =>
    cases h
    rfl
  | cons f below ih =>
    rw [land] at h
    split at h
    · cases h
    · dsimp only at h
      split at h
      · cases h
        exact essence_leave ..
      · exact (ih h).trans (essence_leave ..)

theorem essence_unwind {base : Nat} (h : unwind s base m = .error (.failed s') m') :
    s'.essence = s.essence := by
  rw [unwind, get_bind_apply] at h
  cases hland : land m.store base s m.raiseTrace m.stack m.frames with
  | mk landing trace =>
    rw [hland] at h
    cases landing with
    | escaped frames stack s₁ =>
      cases h
      exact essence_land hland
    | caught f below stack s₁ =>
      -- the value for a catch region can always be made
      obtain ⟨v, store, heq, -, -⟩ := exceptionOf_eq s₁ { m with frames := f :: below, stack }
      have hok := bind_of_ok (f := fun v => push v >>= fun _ =>
        modify fun m => { m with raiseTrace := [], raisePosition := none }) heq
      cases hok.symm.trans h

theorem finishFrame_ne_failed {v : Value} {base : Nat} :
    finishFrame v base m ≠ .error (.failed s) m' := by
  intro h
  rw [finishFrame, get_bind_apply] at h
  cases hframes : m.frames with
  | nil =>
    rw [hframes] at h
    cases h
  | cons f below =>
    rw [hframes] at h
    dsimp only at h
    rw [modify_bind_apply] at h
    split at h <;> cases h

theorem cycle_eq_failed {call : Callback} {base : Nat}
    (h : cycle call base m = .error (.failed s) m') :
    ∃ s' m₁, s.essence = s'.essence ∧ dispatch call m = .error (.failed s') m₁ := by
  rcases bind_eq_failed h with hfail | ⟨r, m₁, hattempt, hrest⟩
  · exact absurd hfail attempt_ne_failed
  rcases attempt_eq_ok hattempt with ⟨step, rfl, -⟩ | ⟨s', rfl, hdispatch⟩
  · cases step with
    | returned v => exact absurd hrest finishFrame_ne_failed
    | _ => cases hrest
  · rcases bind_eq_failed hrest with hunwind | ⟨_, _, -, hpure⟩
    · exact ⟨s', m₁, essence_unwind hunwind, hdispatch⟩
    · cases hpure

end Exec

section Calls

variable {n base : Nat} {m m' : Machine} {s : Signal}

/-- What an instruction leaves to be done fails inside, given that for calls of less budget. -/
theorem hasOrigin_complete {step : Step} {m₁ : Machine}
    (hcall : ∀ {callee this args} {m m' : Machine} {s : Signal},
      Exec.invoke n callee this args m = .error (.failed s) m' →
        HasOrigin ⟨n, .call callee this args, m⟩ s)
    (hstep : Exec.instruct m = .ok (some step) m₁)
    (h : Exec.complete (Exec.invoke n) step m₁ = .error (.failed s) m') :
    HasOrigin ⟨n, .loop base, m⟩ s := by
  cases step with
  | next => cases h
  | returned v => cases h
  | native body this args constructing =>
    rcases Exec.bind_eq_failed h with hnative | ⟨_, _, -, hpush⟩
    · rcases Exec.runNative_eq_failed hnative with ⟨b, c, rfl, hb, rfl⟩ | ⟨p, rfl, hp⟩
      · exact (Arises.method hstep hb).hasOrigin
      · exact (Leads.host hstep).hasOrigin (HostProgram.hasOrigin hp)
    · cases hpush
  | compare method a b =>
    rcases Exec.bind_eq_failed h with hmethod | ⟨_, _, -, hpush⟩
    · exact (Leads.compare hstep).hasOrigin (hcall hmethod)
    · cases hpush

theorem hasOrigin_loop
    (hcall : ∀ {callee this args} {m m' : Machine} {s : Signal},
      Exec.invoke n callee this args m = .error (.failed s) m' →
        HasOrigin ⟨n, .call callee this args, m⟩ s) {fuel : Nat}
    (h : Exec.loop (Exec.invoke n) base fuel m = .error (.failed s) m') :
    HasOrigin ⟨n, .loop base, m⟩ s := by
  induction fuel generalizing m with
  | zero => cases h
  | succ fuel ih =>
    rcases Exec.bind_eq_failed h with hcycle | ⟨r, m₁, hround, hrest⟩
    · obtain ⟨s₁, m₁, hs₁, hdispatch⟩ := Exec.cycle_eq_failed hcycle
      obtain ⟨s₂, m₂, hs₂, hfail | ⟨step, m₃, hstep, hcomplete⟩⟩ := Exec.dispatch_eq_failed hdispatch
      · exact (Arises.instruction hfail).hasOrigin.congr (hs₁.trans hs₂).symm
      · exact (hasOrigin_complete hcall hstep hcomplete).congr (hs₁.trans hs₂).symm
    · cases r with
      | some v => cases hrest
      | none => exact (Leads.round hround).hasOrigin (ih hrest)

/-- Every signal that leaves a call arises in a state of the call. -/
theorem hasOrigin_invoke {callee : Value} {this : Option Value} {args : List Value}
    (h : Exec.invoke n callee this args m = .error (.failed s) m') :
    HasOrigin ⟨n, .call callee this args, m⟩ s := by
  induction n generalizing callee this args m m' s with
  | zero => cases h
  | succ n ih =>
    rw [Exec.invoke, Exec.get_bind_apply] at h
    rcases Exec.bind_eq_failed h with hstart | ⟨start, m₁, hstart, hrest⟩
    · exact (Arises.start hstart).hasOrigin
    · cases start with
      | entered => exact (Leads.enter hstart).hasOrigin (hasOrigin_loop ih hrest)
      | native body self given constructing =>
        rcases Exec.runNative_eq_failed hrest with ⟨b, c, rfl, hb, rfl⟩ | ⟨p, rfl, hp⟩
        · exact (Arises.called hstart hb).hasOrigin
        · exact (Leads.native hstart).hasOrigin (HostProgram.hasOrigin hp)

end Calls

end ScriptMachine
