import ScriptMachine.Proofs.Engine.Attempt
import ScriptMachine.Proofs.Engine.NestedLoop
import ScriptMachine.Proofs.Engine.Origin
import ScriptMachine.Proofs.Engine.RenumberedRun
import ScriptMachine.Proofs.Engine.SkippedNumber

namespace ScriptMachine

/-- The same call at a later time. -/
def Frame.Continues (f g : Frame) : Prop :=
  g = { f with pc := g.pc, locals := g.locals, handlers := g.handlers }

namespace Frame.Continues

variable {f g h : Frame}

theorem refl (f : Frame) : f.Continues f := rfl

theorem trans (hfg : f.Continues g) (hgh : g.Continues h) : f.Continues h := by
  rw [Continues] at hfg hgh ⊢
  rw [hgh, hfg]

theorem constructing_eq (h : f.Continues g) : g.constructing = f.constructing := by
  rw [h]

end Frame.Continues

/-- The object under construction, if there is one, is none of the first `k`. -/
def Recent (k : Nat) (constructing : Option Value) : Prop :=
  ∀ v, constructing = some v → ∃ id : ObjectId, v = .object id ∧ k ≤ id.index

theorem recent_none (k : Nat) : Recent k none := nofun

/-- The call `f` is active, right above the calls `low`, and no call above it constructs one of the
first `k` objects. -/
def Machine.Within (k : Nat) (f : Frame) (low : List Frame) (m : Machine) : Prop :=
  ∃ us g, m.frames = us ++ g :: low ∧ f.Continues g ∧ ∀ u ∈ us, Recent k u.constructing

namespace Machine.Within

variable {k : Nat} {f : Frame} {low : List Frame} {m m' : Machine}

theorem of_frames (h : m.Within k f low) (hm' : m'.frames = m.frames) : m'.Within k f low := by
  rw [Within, hm']
  exact h

theorem deep (h : m.Within k f low) : low.length < m.frames.length := by
  obtain ⟨us, g, hm, -, -⟩ := h
  rw [hm, List.length_append, List.length_cons]
  omega

/-- A signal or a return may take calls away, and `f` with them. -/
theorem cut (h : m.Within k f low) (above : List Frame) {below : List Frame} {g g' : Frame}
    (hm : m.frames = above ++ g :: below) (hg : g.Continues g') (hm' : m'.frames = g' :: below) :
    m'.Within k f low ∨ m'.frames.length ≤ low.length := by
  obtain ⟨us, r, hr, hfr, hus⟩ := h
  rw [hr] at hm
  rcases List.append_eq_append_iff.1 hm with ⟨as, habove, hrest⟩ | ⟨bs, hus', hrest⟩
  · cases as with
    | nil =>
      obtain ⟨rfl, rfl⟩ := List.cons.inj hrest
      exact .inl ⟨[], g', hm', hfr.trans hg, nofun⟩
    -- the frame that goes on is below `f`
    | cons a as =>
      right
      obtain ⟨-, hlow⟩ := List.cons.inj hrest
      have hlength := congrArg List.length hlow
      simp only [List.append_eq, List.length_append, List.length_cons] at hlength
      rw [hm', List.length_cons]
      omega
  · cases bs with
    | nil =>
      obtain ⟨rfl, rfl⟩ := List.cons.inj hrest
      exact .inl ⟨[], g', hm', hfr.trans hg, nofun⟩
    | cons b bs =>
      obtain ⟨rfl, rfl⟩ := List.cons.inj hrest
      refine .inl ⟨g' :: bs, r, hm', hfr, ?_⟩
      rw [hus'] at hus
      refine List.forall_mem_cons.2 ⟨?_, fun u hu => hus u (by simp [hu])⟩
      rw [hg.constructing_eq]
      exact hus g (by simp)

theorem go (h : m.Within k f low) {g g' : Frame} {rest : List Frame} (hm : m.frames = g :: rest)
    (hg : g.Continues g') (hm' : m'.frames = g' :: rest) : m'.Within k f low := by
  refine (h.cut [] hm hg hm').resolve_right fun hshort => ?_
  have hdeep := h.deep
  rw [hm, List.length_cons] at hdeep
  rw [hm', List.length_cons] at hshort
  omega

theorem enter (h : m.Within k f low) {g : Frame} (hg : Recent k g.constructing)
    (hm' : m'.frames = g :: m.frames) : m'.Within k f low := by
  obtain ⟨us, r, hr, hfr, hus⟩ := h
  exact ⟨g :: us, r, by rw [hm', hr, List.cons_append], hfr, List.forall_mem_cons.2 ⟨hg, hus⟩⟩

theorem leave (h : m.Within k f low) {g : Frame} {rest : List Frame} (hm : m.frames = g :: rest)
    (hm' : m'.frames = rest) : m'.Within k f low ∨ rest = low ∧ f.Continues g := by
  obtain ⟨us, r, hr, hfr, hus⟩ := h
  rw [hr] at hm
  cases us with
  | nil =>
    obtain ⟨rfl, rfl⟩ := List.cons.inj hm
    exact .inr ⟨rfl, hfr⟩
  | cons u us =>
    obtain ⟨rfl, rfl⟩ := List.cons.inj hm
    exact .inl ⟨us, r, hm', hfr, fun v hv => hus v (List.mem_cons_of_mem _ hv)⟩

end Machine.Within

namespace Exec

section Objects

variable {α : Type} {k : Nat} {R : α → α → Prop} {x y : Exec α}

/-- A computation that does the same whatever the numbers of bound methods removes no object. -/
theorem objects_of_tracks (h : Tracks .same k R x y) :
    Triple (fun m => k ≤ m.store.objects.size) x (fun _ m => k ≤ m.store.objects.size)
      fun _ m => k ≤ m.store.objects.size := by
  intro m hm
  have hend := h m m (m.renumbers_same hm)
  generalize x m = r at hend ⊢
  generalize y m = r' at hend
  cases hend with
  | ok _ hm' => exact hm'.store.enough
  | failed s hm' => exact hm'.store.enough
  | overflow => trivial
  | outOfFuel => trivial

end Objects

section Marks

variable {α : Type} {k : Nat} {m m' : Machine}

section Entered

variable {callee : Value} {this : Option Value} {args : List Value} {constructing : Option Value}

theorem entered_iff {start : Start} (h : beginCall callee this args constructing m = .ok start m') :
    start = .entered ↔ (m.entry? callee this).isSome := by
  have hopens : Opens m args constructing _ (beginCall callee this args constructing m) :=
    opens_beginCall
  generalize hstart : beginCall callee this args constructing m = r at hopens
  generalize m.entry? callee this = entry at hopens
  rw [h] at hstart
  cases hopens with
  | attempt id self =>
    cases hpush : pushFrame id self args constructing m with
    | error stop m₁ => cases hstart.trans (bind_of_error hpush)
    | ok _ m₁ =>
      cases hstart.trans (bind_of_ok hpush)
      exact ⟨fun _ => rfl, fun _ => rfl⟩
  | native start' =>
    cases hstart
    refine ⟨?_, nofun⟩
    rintro rfl
    -- a frame more would have been there
    obtain ⟨m₁, g, hsilent, -, hm⟩ := started_of_ok h
    have hlength := congrArg (fun m : Machine => m.frames.length) hm
    rw [hsilent.same] at hlength
    exact absurd hlength.symm (Nat.succ_ne_self _)
  | failed s => cases hstart

theorem frame_of_entered (h : beginCall callee this args constructing m = .ok .entered m') :
    ∃ f, m'.frames = f :: m.frames ∧ f.constructing = constructing := by
  obtain ⟨⟨id, self⟩, hentry⟩ := Option.isSome_iff_exists.1 ((entered_iff h).1 rfl)
  have ha : m.attempt? callee this args constructing = some ⟨m, id, self, args, constructing⟩ := by
    rw [Machine.attempt?, hentry]
    rfl
  obtain ⟨-, hbegin⟩ := beginCall_of_attempt ha
  rw [h] at hbegin
  cases hrefusal : (Attempt.mk m id self args constructing).refusal? with
  | some c =>
    have henter := Attempt.enter_of_refused hrefusal
    cases hbegin.trans (bind_of_error henter)
  | none =>
    obtain ⟨-, locals, store, henter⟩ := Attempt.enter_of_admitted hrefusal
    cases hbegin.trans (bind_of_ok henter)
    exact ⟨_, rfl, rfl⟩

theorem started_of_callAndGoOn {step : Step}
    (h : callAndGoOn callee this args constructing m = .ok step m') :
    ∃ start, beginCall callee this args constructing m = .ok start m' := by
  cases hbegin : beginCall callee this args constructing m with
  | error stop m₁ => cases (bind_of_error hbegin).symm.trans h
  | ok start m₁ =>
    cases start with
    | entered =>
      cases (bind_of_ok hbegin).symm.trans h
      exact ⟨_, rfl⟩
    | native body self given marked =>
      cases (bind_of_ok hbegin).symm.trans h
      exact ⟨_, rfl⟩

end Entered

/-- Of the two parts of an instruction, the first says what the call is to construct. -/
def Prepared.Recent (k : Nat) : Prepared → Prop
  | .step _ => True
  | .call _ _ _ constructing => ScriptMachine.Recent k constructing

theorem triple_true (x : Exec α) (I : Machine → Prop) :
    Triple I x (fun _ _ => True) fun _ _ => True := by
  intro m _
  match x m with
  | .ok _ _ => trivial
  | .error (.failed _) _ => trivial
  | .error .overflow _ => trivial
  | .error .outOfFuel _ => trivial

/-- The first part of an instruction. -/
abbrev Marks (k : Nat) (x : Exec Prepared) (I : Machine → Prop := fun _ => True) : Prop :=
  Triple I x (fun p _ => Prepared.Recent k p) fun _ _ => True

theorem marks_step (x : Exec Step) : Marks k (Prepared.step <$> x) :=
  .bind (triple_true x _) fun _ => .pure fun _ _ => trivial

theorem marks_prepareOperator (o : Opcode) (receiver : Value) (args : List Value) :
    Marks k (prepareOperator o receiver args) := by
  unfold prepareOperator
  split
  · exact .fail fun _ _ => trivial
  · refine .bind (triple_true _ _) fun m => ?_
    split
    · exact .fail fun _ _ => trivial
    · exact .bind (triple_true _ _) fun _ => .pure fun _ _ => recent_none k

theorem marks_prepareInstance (t : TypeId) (args : List Value) :
    Marks k (prepareInstance t args) fun m => k ≤ m.store.objects.size := by
  unfold prepareInstance
  split
  · exact .bind (triple_true _ _) fun _ => marks_step _
  · split
    · exact .bind (triple_true _ _) fun _ => marks_step _
    · split
      · exact .bind (triple_true _ _) fun _ => .fail fun _ _ => trivial
      · refine .bind (J := fun id _ => k ≤ id.index) (.alloc fun m hm => ?_) fun id => ?_
        · rw [Store.instantiate_fst]
          exact hm
        · refine .get_bind fun m hm => ?_
          dsimp only
          split
          · exact (marks_step _).conseq (fun _ _ => trivial) (fun _ _ h => h) fun _ _ h => h
          · refine .bind (triple_true _ _) fun constructor => .pure fun _ _ v hv => ?_
            cases hv
            exact ⟨id, rfl, hm⟩

theorem marks_prepare (o : Opcode) : Marks k (prepare o) fun m => k ≤ m.store.objects.size := by
  have step (x : Exec Step) : Marks k (Prepared.step <$> x) fun m => k ≤ m.store.objects.size :=
    (marks_step x).conseq (fun _ _ => trivial) (fun _ _ h => h) fun _ _ h => h
  cases o with
  | binary op =>
    refine .bind (triple_true _ _) fun b => .bind (triple_true _ _) fun a => ?_
    split
    · exact marks_step _
    · exact marks_prepareOperator _ _ _
  | neg =>
    refine .bind (triple_true _ _) fun a => ?_
    split
    · exact marks_step _
    · exact marks_prepareOperator _ _ _
  | equal =>
    refine .bind (triple_true _ _) fun b => .bind (triple_true _ _) fun a => ?_
    refine .bind (triple_true _ _) fun has => ?_
    split
    · exact marks_prepareOperator _ _ _
    · exact marks_step _
  | call argc =>
    refine .bind (triple_true _ _) fun args => .bind (triple_true _ _) fun callee => ?_
    exact .pure fun _ _ => recent_none k
  | callMethod i argc =>
    refine .bind (triple_true _ _) fun n => .bind (triple_true _ _) fun args => ?_
    refine .bind (triple_true _ _) fun receiver => .bind (triple_true _ _) fun method => ?_
    exact .pure fun _ _ => recent_none k
  | instantiate argc =>
    refine .bind ((objects_of_tracks (maps_popMany argc)).conseq (fun _ h => h) (fun _ _ h => h)
      fun _ _ _ => trivial) fun args => ?_
    refine .bind ((objects_of_tracks maps_pop).conseq (fun _ h => h) (fun _ _ h => h)
      fun _ _ _ => trivial) fun v => ?_
    split
    · exact marks_prepareInstance _ args
    · exact .fail fun _ _ => trivial
  | _ => exact step _

theorem recent_of_execute {o : Opcode} {step : Step} {g : Frame} {rest : List Frame}
    (hk : k ≤ m.store.objects.size) (h : execute o m = .ok step m') (hm' : m'.frames = g :: rest)
    (hrest : m.frames.length ≤ rest.length) : Recent k g.constructing := by
  rw [execute_eq] at h
  cases hp : prepare o m with
  | error stop m₁ =>
    rw [bind_of_error hp] at h
    cases h
  | ok p m₁ =>
    have hmark : Prepared.Recent k p := (marks_prepare o).of_ok hk hp
    have hdepth : m₁.frames.length ≤ m.frames.length := ((plain_prepare o).of_ok (.refl m) hp).depth
    have hlength : m₁.frames.length < m'.frames.length := by
      rw [hm', List.length_cons]
      omega
    rw [bind_of_ok hp] at h
    cases p with
    | step s =>
      cases h
      exact absurd hlength (Nat.lt_irrefl _)
    | call callee this args constructing =>
      obtain ⟨start, hbegin⟩ := started_of_callAndGoOn h
      cases start with
      | native body self given marked =>
        have hframes := (started_of_ok hbegin).1.quiet.frames
        rw [hframes] at hlength
        exact absurd hlength (Nat.lt_irrefl _)
      | entered =>
        obtain ⟨f, hf, hconstructing⟩ := frame_of_entered hbegin
        cases hf.symm.trans hm'
        rw [hconstructing]
        exact hmark

end Marks

section Rounds

variable {k : Nat} {f₀ : Frame} {low : List Frame} {m₀ m m' : Machine} {call : Callback}

theorem within_of_running {o : Opcode} {f : Frame} {rest : List Frame} {bottom : List Value}
    (hw : m.Within k f₀ low) (hm : m.frames = f :: rest)
    (h : Running o m₀ { f with pc := f.pc + 1 } rest bottom m') : m'.Within k f₀ low := by
  obtain ⟨g, hg, hfollows⟩ := h.frames
  have hnext : f.Continues { f with pc := f.pc + 1 } := rfl
  exact hw.go hm (hnext.trans hfollows.same) hg

theorem within_execute {f : Frame} {us : List Frame} (i : Instruction) (h : m₀.Above (f :: us) m)
    (hk : k ≤ m.store.objects.size) (hw : m.Within k f₀ low) :
    Ends (fun _ => Machine.Within k f₀ low) (fun _ => Machine.Within k f₀ low) False
      (execute i.opcode (fetched m f (us ++ m₀.frames))) := by
  have hrun := advances_execute i.opcode _ (h.fetched.running i.opcode)
  cases hx : execute i.opcode (fetched m f (us ++ m₀.frames)) with
  | error stop m₁ =>
    rw [hx] at hrun
    cases stop with
    | failed s => exact within_of_running hw h.frames hrun.1
    | overflow => trivial
    | outOfFuel => exact hrun
  | ok step m₁ =>
    rw [hx] at hrun
    rcases hrun.running_or_enters with hm₁ | ⟨m₂, hm₂, m₃, g, hsilent, -, rfl⟩
    · exact within_of_running hw h.frames hm₁
    · have hframes : m₃.frames = m₂.frames := hsilent.quiet.frames
      obtain ⟨r, hr, -⟩ := hm₂.frames
      have hlength : (fetched m f (us ++ m₀.frames)).frames.length ≤ m₃.frames.length := by
        rw [hframes, hr]
        exact Nat.le_refl _
      have hrecent : Recent k g.constructing :=
        recent_of_execute (m := fetched m f (us ++ m₀.frames)) hk hx rfl hlength
      exact (within_of_running hw h.frames hm₂).enter hrecent (congrArg (g :: ·) hframes)

/-- The call `f₀` is active in the loop of a call made at `m₀`, after at least `k` objects. -/
def Lasts (k : Nat) (f₀ : Frame) (low : List Frame) (m₀ m : Machine) : Prop :=
  m₀.Busy (fun _ => True) m ∧ k ≤ m.store.objects.size ∧ m.Within k f₀ low

theorem within_dispatch (hcall : call.Quiet) :
    Triple (Lasts k f₀ low m₀) (dispatch call) (fun _ => Machine.Within k f₀ low)
      fun _ => Machine.Within k f₀ low := by
  rintro m ⟨⟨f, us, h, -⟩, hk, hw⟩
  refine dispatch_rule (I := fun m' => m' = m)
    (X := fun _ m' => m' = fetched m f (us ++ m₀.frames)) ?_ (fun i => ?_) m rfl
  · rintro _ rfl
    refine (fetch_spec h.frames).weaken.mono (fun r m' hm' => ?_) fun s m' hm' => ?_
    · obtain ⟨-, rfl⟩ := hm'
      cases r with
      | none => exact hw
      | some i => rfl
    · obtain ⟨i, limit, -, -, -, rfl⟩ := hm'
      have hnext : f.Continues { f with pc := f.pc + 1 } := rfl
      exact hw.go h.frames hnext rfl
  · have hlocated {s : Signal} {m' : Machine} (hm' : m'.Within k f₀ low) :
        (located s i.position m').2.Within k f₀ low := hm'.of_frames (frames_located ..)
    refine .bind (J := fun _ => Machine.Within k f₀ low) ?_ fun step m' hm' => ?_
    · rintro _ rfl
      exact (within_execute i h hk hw).weaken.mono (fun _ _ h => h) fun _ _ h => hlocated h
    · refine (frames_complete hcall step m'.frames m' rfl).mono (fun _ _ h => hm'.of_frames h) ?_
      exact fun _ _ h => hlocated (hm'.of_frames h)

/-- After a round the call `f₀` is active, or it was the one to end. A loop that its return ends has
the object under construction for its result. -/
def AfterLasting (k : Nat) (f₀ : Frame) (low : List Frame) (base : Nat) :
    Option Value → Machine → Prop
  | none, m => m.Within k f₀ low ∨ m.frames.length ≤ low.length
  | some v, _ => base ≤ low.length → ∃ v₀, v = f₀.constructing.getD v₀

theorem within_finishFrame (v : Value) (base : Nat) :
    Triple (Machine.Within k f₀ low) (finishFrame v base) (AfterLasting k f₀ low base)
      fun _ _ => True := by
  intro m hw
  obtain ⟨g, rest, hm⟩ := List.exists_cons_of_length_pos (Nat.zero_lt_of_lt hw.deep)
  have hdeep := hw.deep
  rw [hm, List.length_cons] at hdeep
  rw [finishFrame_eq hm]
  split
  · intro hbase
    rcases hw.leave hm (show Machine.frames { m with frames := rest } = rest from rfl) with
      hleft | ⟨rfl, hg⟩
    · have hlow : low.length < rest.length := hleft.deep
      omega
    · exact ⟨v, by rw [hg.constructing_eq]⟩
  · refine Or.imp_right (fun h => ?_) (hw.leave hm rfl)
    rw [h.1]

theorem within_unwind (s : Signal) (base : Nat) :
    Triple (Machine.Within k f₀ low) (unwind s base) (fun _ => AfterLasting k f₀ low base none)
      fun _ _ => True := by
  refine .get_bind fun m hw => ?_
  cases hland : land m.store base s m.raiseTrace m.stack m.frames with
  | mk landing trace =>
    cases landing with
    | escaped frames stack s' =>
      exact .bind (J := fun _ _ => True) (.set fun _ _ => trivial) fun _ =>
        .signal fun _ _ => trivial
    | caught f below stack s' =>
      obtain ⟨above, g, r, rs, hframes, -, rfl⟩ := exists_of_caught hland
      have hg : g.Continues { g with pc := r.target, handlers := rs } := rfl
      -- what is caught goes on the operands, and the frames stay as they have landed
      refine .bind (J := fun _ => AfterLasting k f₀ low base none)
        (.set fun _ _ => hw.cut above hframes hg rfl) fun _ => ?_
      refine .bind (J := fun _ => AfterLasting k f₀ low base none) (fun m' hm' => ?_) fun v =>
        .bind (.modify fun _ h => h) fun _ => .modify fun _ h => h
      obtain ⟨v, store, heq, -, -⟩ := exceptionOf_eq s' m'
      rw [heq]
      exact hm'

theorem within_cycle (hcall : call.Quiet) (base : Nat) :
    Triple (Lasts k f₀ low m₀) (cycle call base) (AfterLasting k f₀ low base) fun _ _ => True :=
  cycle_rule (within_dispatch hcall) (fun v => within_finishFrame v base)
    (fun _ _ _ h => .inl h) fun s => within_unwind s base

/-- A loop whose base is not below `f₀` does not end that call but with itself. -/
theorem Lasts.round {n : Nat} (hm : Lasts k f₀ low m₀ m) (hlow : low.length ≤ m₀.frames.length)
    (h : cycle (invoke n) m₀.frames.length m = .ok none m') : Lasts k f₀ low m₀ m' := by
  have hbusy : m₀.Busy (fun _ => True) m' :=
    (busy_cycle Frame.invariant_true (quiet_invoke n)).of_ok hm.1 h
  refine ⟨hbusy, (objects_of_tracks (maps_cycle (maps_invoke n) _)).of_ok hm.2.1 h, ?_⟩
  refine ((within_cycle (quiet_invoke n) _).of_ok hm h).resolve_right fun hshort => ?_
  have hdeep := deep_of_busy hbusy
  omega

/-- The loop of a call that constructs an object has that object for its result. -/
theorem constructing_of_loop {n fuel : Nat} {v : Value} (hm : Lasts k f₀ m₀.frames m₀ m)
    (h : loop (invoke n) m₀.frames.length fuel m = .ok v m') :
    ∃ v₀, v = f₀.constructing.getD v₀ := by
  induction fuel generalizing m with
  | zero => cases h
  | succ fuel ih =>
    cases hc : cycle (invoke n) m₀.frames.length m with
    | error stop m₁ =>
      rw [loop, bind_of_error hc] at h
      cases h
    | ok r m₁ =>
      rw [loop_of_inner hc] at h
      cases r with
      | none => exact ih (hm.round (Nat.le_refl _) hc) h
      | some w =>
        cases h
        exact (within_cycle (quiet_invoke n) _).of_ok hm hc (Nat.le_refl _)

end Rounds

end Exec

section States

variable {k : Nat} {f : Frame} {low : List Frame} {store : Store} {w w' : Work}

/-- The call `f` is active, in the loop at work or below it, after at least `k` objects. -/
structure Work.Within (k : Nat) (f : Frame) (low : List Frame) (w : Work) : Prop where
  machine : w.machine.Within k f low
  objects : k ≤ w.machine.store.objects.size
  base : ∀ base, w.activity = .loop base → low.length ≤ base

open Exec

theorem Exec.objects_instruct :
    Triple (fun m => k ≤ m.store.objects.size) instruct (fun _ m => k ≤ m.store.objects.size)
      fun _ m => k ≤ m.store.objects.size := by
  refine .bind (objects_of_tracks maps_fetch) fun r => ?_
  cases r with
  | none => exact .pure fun _ h => h
  | some i => exact .bind (objects_of_tracks (tracks_execute i.opcode)) fun _ => .pure fun _ h => h

theorem Leads.objects (h : Leads w w') (hk : k ≤ w.machine.store.objects.size) :
    k ≤ w'.machine.store.objects.size := by
  cases h with
  | enter h => exact (objects_of_tracks (tracks_beginCall _ _ _)).of_ok hk h
  | native h => exact (objects_of_tracks (tracks_beginCall _ _ _)).of_ok hk h
  | round h => exact (objects_of_tracks (maps_cycle (maps_invoke _) _)).of_ok hk h
  | host h => exact objects_instruct.of_ok hk h
  | compare h => exact objects_instruct.of_ok hk h
  | calls => exact hk
  | callsMethod h => exact (objects_of_tracks (maps_find _ _)).of_ok hk h
  | @resumes n callee this args _ _ _ _ h =>
    exact (objects_of_tracks (maps_invoke n callee this args).attempt).of_ok hk h
  | @resumesMethod n receiver name args _ _ _ _ h =>
    have htracks : Maps .same k (Value.renumber .same)
        (do
          let method ← find receiver name
          invoke n method (some receiver) args)
        (do
          let method ← find (receiver.renumber .same) name
          invoke n method (some (receiver.renumber .same)) (args.map (Value.renumber .same))) :=
      .bind (maps_find receiver name) fun method => maps_invoke n method (some receiver) args
    exact (objects_of_tracks htracks.attempt).of_ok hk h
  | newArray h => exact (objects_of_tracks (maps_newArray _)).of_ok hk h
  | typeName => exact hk
  | readDatum => exact hk
  | writeDatum => exact hk

theorem Exec.within_instruct {m₀ m m' : Machine} {step : Step} (hm : Lasts k f low m₀ m)
    (h : instruct m = .ok (some step) m') : m'.Within k f low := by
  obtain ⟨⟨g, us, habove, -⟩, hk, hw⟩ := hm
  cases hfetch : fetch m with
  | error stop m₁ =>
    rw [instruct, bind_of_error hfetch] at h
    cases h
  | ok r m₁ =>
    rw [instruct, bind_of_ok hfetch] at h
    cases r with
    | none => cases h
    | some i =>
      obtain ⟨g', rest, hframes, -, rfl⟩ := frames_of_fetch hfetch
      cases habove.frames.symm.trans hframes
      have hend := within_execute i habove hk hw
      cases hx : execute i.opcode (fetched m g (us ++ m₀.frames)) with
      | error stop m₂ =>
        cases (bind_of_error hx).symm.trans h
      | ok step' m₂ =>
        rw [hx] at hend
        cases (bind_of_ok hx).symm.trans h
        exact hend

/-- No step inside a call ends a call that was active before it. -/
theorem Leads.within (h : Leads w w') (hgood : w.Good (fun _ => True) store)
    (hw : w.Within k f low) : w'.Within k f low := by
  have hobjects := h.objects hw.objects
  cases h with
  | enter h =>
    obtain ⟨g, hg, hconstructing⟩ := frame_of_entered h
    refine ⟨hw.machine.enter ?_ hg, hobjects, fun base hbase => ?_⟩
    · rw [hconstructing]
      exact recent_none k
    · cases hbase
      exact Nat.le_of_lt hw.machine.deep
  | native h => exact ⟨hw.machine.of_frames (started_of_ok h).1.quiet.frames, hobjects, nofun⟩
  | round h =>
    obtain ⟨m₀, -, rfl, hbusy⟩ := hgood
    have hm : Lasts k f low m₀ _ := ⟨hbusy, hw.objects, hw.machine⟩
    exact ⟨(hm.round (hw.base _ rfl) h).2.2, hobjects, hw.base⟩
  | host h =>
    obtain ⟨m₀, -, rfl, hbusy⟩ := hgood
    exact ⟨within_instruct ⟨hbusy, hw.objects, hw.machine⟩ h, hobjects, nofun⟩
  | compare h =>
    obtain ⟨m₀, -, rfl, hbusy⟩ := hgood
    exact ⟨within_instruct ⟨hbusy, hw.objects, hw.machine⟩ h, hobjects, nofun⟩
  | calls => exact ⟨hw.machine, hobjects, nofun⟩
  | callsMethod h =>
    have hframes := ((quiet_find _ _).of_ok (.refl _) h).frames
    exact ⟨hw.machine.of_frames hframes, hobjects, nofun⟩
  | resumes h =>
    have hframes := (quiet_answered (quiet_invoke _ _ _ _ _) h).frames
    exact ⟨hw.machine.of_frames hframes, hobjects, nofun⟩
  | resumesMethod h =>
    have hframes := (quiet_answered (quiet_callMethod (quiet_invoke _) _ _ _) h).frames
    exact ⟨hw.machine.of_frames hframes, hobjects, nofun⟩
  | newArray h =>
    have hframes := ((quiet_newArray _).of_ok (.refl _) h).frames
    exact ⟨hw.machine.of_frames hframes, hobjects, nofun⟩
  | typeName => exact ⟨hw.machine, hobjects, nofun⟩
  | readDatum => exact ⟨hw.machine, hobjects, nofun⟩
  | writeDatum => exact ⟨hw.machine.of_frames rfl, hobjects, nofun⟩

theorem Reaches.within (h : Reaches w w') (hgood : w.Good (fun _ => True) store)
    (hw : w.Within k f low) : w'.Within k f low := by
  induction h with
  | refl => exact hw
  | step hreach hstep ih => exact hstep.within (hreach.good Frame.invariant_true hgood) ih

/-- A call that was entered at `m₀` is active in all states of the loop that runs it. -/
theorem Reaches.within_of_entered {m₀ m : Machine} {n : Nat} (hm : m₀.Busy (fun _ => True) m)
    (hframes : m.frames = f :: m₀.frames) (hk : k ≤ m.store.objects.size)
    (h : Reaches ⟨n, .loop m₀.frames.length, m⟩ w) : w.machine.Within k f m₀.frames := by
  have hgood : Work.Good (fun _ => True) m₀.store ⟨n, .loop m₀.frames.length, m⟩ :=
    ⟨m₀, ⟨fun _ _ => trivial, .refl _⟩, rfl, hm⟩
  have hwithin : Work.Within k f m₀.frames ⟨n, .loop m₀.frames.length, m⟩ := by
    refine ⟨⟨[], f, hframes, .refl f, nofun⟩, hk, fun base hbase => ?_⟩
    cases hbase
    exact Nat.le_refl _
  exact (h.within hgood hwithin).machine

/-- As long as the call is active, the rounds of the loop in which it was made are those of a loop
of its own. -/
theorem Exec.Rounds.reaches {m₀ m m' : Machine} {n base : Nat}
    (h : Rounds (invoke n) base m₀.frames.length m m') (hbase : base ≤ m₀.frames.length)
    (hm : m₀.Busy (fun _ => True) m) (hdeep : m₀.frames.length < m'.frames.length) :
    Reaches ⟨n, .loop m₀.frames.length, m⟩ ⟨n, .loop m₀.frames.length, m'⟩ := by
  induction h with
  | refl m => exact .refl
  | @step m m₁ m₂ _ round rest ih =>
    rcases Nat.eq_or_lt_of_le hbase with rfl | hlt
    · have hbusy := (busy_cycle Frame.invariant_true (quiet_invoke n)).of_ok hm round
      exact .head (.round round) (ih hbusy hdeep)
    · cases cycle_paired (quiet_invoke n) hlt hm with
      | on busy outer inner =>
        cases round.symm.trans outer
        exact .head (.round inner) (ih busy hdeep)
      | back quiet outer inner =>
        cases round.symm.trans outer
        cases rest.eq_of_not_deep (not_deep_of_frames quiet.frames)
        exact absurd hdeep (not_deep_of_frames quiet.frames)
      | left leaves frames outer inner =>
        have hle := (frames_of_round (outer.symm.trans round)).1
        rw [frames] at hle
        cases rest.eq_of_not_deep (Nat.not_lt_of_le hle)
        exact absurd hdeep (Nat.not_lt_of_le hle)
      | stopped stops outer inner => cases round.symm.trans outer

end States

end ScriptMachine
