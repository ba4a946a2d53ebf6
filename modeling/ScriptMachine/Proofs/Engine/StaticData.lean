import ScriptMachine.Proofs.Engine.Deeds

namespace ScriptMachine

/-- The machine is as the history tells. A call that has instructions to run is that of a function
with an origin, and works on the block of that function. -/
structure History.Governs (h : History) (m : Machine) : Prop where
  tells : h.Tells m.store
  frames : ∀ f ∈ m.frames, f.closure.template.body.code = #[] ∨
    (h.origin f.function).isSome ∧ f.closure.statics = m.store.block f.function

namespace History.Governs

variable {h h' : History} {m m' : Machine} {f : Frame} {rest : List Frame}

theorem unwritten (hm : h.Governs m) (hw : m.Unwritten m') : h.Governs m' := by
  refine ⟨hm.tells.sameCode hw.store, fun g hg => ?_⟩
  rw [hw.store.block_eq]
  rcases hw.frames g hg with ⟨f, hf, hfunction, hclosure⟩ | hclosure
  · rw [hfunction, hclosure]
    exact hm.frames f hf
  · rw [hclosure]
    cases horigin : h.origin g.function with
    | none => exact .inl (hm.tells.bare _ horigin)
    | some r => exact .inr ⟨rfl, rfl⟩

theorem prolonged (hm : h.Governs m) (hh : h.Prolongs h') (hframes : m'.frames = m.frames)
    (htells : h'.Tells m'.store)
    (hblock : ∀ g r, h.origin g = some r → m'.store.block g = m.store.block g) : h'.Governs m' := by
  refine ⟨htells, fun g hg => ?_⟩
  rw [hframes] at hg
  refine (hm.frames g hg).imp_right fun ⟨horigin, hstatics⟩ => ?_
  obtain ⟨r, hr⟩ := Option.isSome_iff_exists.1 horigin
  rw [hblock _ r hr, (hh _ r hr).1]
  exact ⟨rfl, hstatics⟩

theorem of_executing (hm : h.Governs m) (hframes : m.frames = f :: rest)
    (hcode : f.closure.template.body.code ≠ #[]) :
    ∃ r, h.origin f.function = some r ∧ f.closure.statics = m.store.block f.function := by
  rcases hm.frames f (hframes ▸ List.mem_cons_self ..) with hempty | ⟨horigin, hstatics⟩
  · exact absurd hempty hcode
  · obtain ⟨r, hr⟩ := Option.isSome_iff_exists.1 horigin
    exact ⟨r, hr, hstatics⟩

end History.Governs

namespace Exec

variable {α : Type} {m m' : Machine}

theorem unwritten_fetch (m : Machine) :
    Ends (fun _ => m.Unwritten) (fun _ => m.Unwritten) True (fetch m) := by
  cases hframes : m.frames with
  | nil =>
    rw [fetch, top, bind_assoc, get_bind_apply, hframes]
    exact .refl m
  | cons f rest =>
    have hfetched : m.Unwritten (fetched m f rest) := by
      refine ⟨.refl _, fun g hg => .inl ?_⟩
      rw [hframes]
      rcases List.mem_cons.1 hg with rfl | hg
      · exact ⟨f, List.mem_cons_self .., rfl, rfl⟩
      · exact ⟨g, List.mem_cons_of_mem _ hg, rfl, rfl⟩
    refine (fetch_spec hframes).weaken.mono ?_ ?_
    · rintro r m' ⟨-, rfl⟩
      split
      · exact hfetched
      · exact .refl m
    · rintro s m' ⟨i, limit, -, -, -, rfl⟩
      exact hfetched

theorem unwritten_finishFrame (v : Value) (base : Nat) (m : Machine) :
    Ends (fun _ => m.Unwritten) (fun _ => m.Unwritten) True (finishFrame v base m) := by
  cases hframes : m.frames with
  | nil =>
    rw [finishFrame, get_bind_apply, hframes]
    exact .refl m
  | cons f below =>
    have hbelow (stack : List Value) : m.Unwritten { m with frames := below, stack } := by
      refine ⟨.refl _, fun g hg => .inl ⟨g, ?_, rfl, rfl⟩⟩
      rw [hframes]
      exact List.mem_cons_of_mem _ hg
    rw [finishFrame_eq hframes]
    split
    · exact hbelow _
    · exact hbelow _

theorem unwritten_unwind (s : Signal) (base : Nat) (m : Machine) :
    Triple (fun m' => m' = m) (unwind s base) (fun _ => m.Unwritten) fun _ => m.Unwritten := by
  refine .get_bind fun m' hm' => ?_
  subst hm'
  cases hland : land m'.store base s m'.raiseTrace m'.stack m'.frames with
  | mk landing trace =>
    cases landing with
    | escaped frames stack s' =>
      have hescaped : m'.Unwritten { m' with frames, stack, raiseTrace := trace } :=
        ⟨.refl _, fun g hg => .inl ⟨g, (suffix_of_escaped hland).subset hg, rfl, rfl⟩⟩
      exact .bind (J := fun _ => m'.Unwritten) (.set fun _ _ => hescaped) fun _ =>
        .signal fun _ h => h
    | caught f below stack s' =>
      have hcaught : m'.Unwritten { m' with frames := f :: below, stack } := by
        obtain ⟨above, g, r, rs, hframes, -, rfl⟩ := exists_of_caught hland
        refine ⟨.refl _, fun e he => .inl ?_⟩
        rw [hframes]
        rcases List.mem_cons.1 he with rfl | he
        · exact ⟨g, List.mem_append_right _ (List.mem_cons_self ..), rfl, rfl⟩
        · exact ⟨e, List.mem_append_right _ (List.mem_cons_of_mem _ he), rfl, rfl⟩
      refine .bind (J := fun _ => m'.Unwritten) (.set fun _ _ => hcaught) fun _ => ?_
      refine .bind (J := fun _ => m'.Unwritten) (fun m₁ hm₁ => ?_) fun v =>
        .bind (unwritten_push v) fun _ => .modify fun _ h => h.trans (.of_frames (.refl _) rfl)
      obtain ⟨v, store, hexception, -, hstore⟩ := exceptionOf_eq s' m₁
      rw [hexception]
      exact hm₁.withStore hstore.toSameCode

theorem Atomic.unwritten {x : Exec α} (hx : Atomic m x) :
    Ends (fun _ => m.Unwritten) (fun _ => m.Unwritten) True (x m) :=
  (hx m (.refl m)).mono (fun _ _ h => h) fun _ _ h => h.1.unwritten

theorem Chore.unwritten {x : Exec α} (hx : Chore x) :
    Ends (fun _ => m.Unwritten) (fun _ => m.Unwritten) True (x m) := by
  cases hx with
  | fetch => exact unwritten_fetch m
  | find receiver name => exact Atomic.unwritten (spares_find receiver name).atomic
  | beginCall callee this args constructing =>
    exact Atomic.unwritten (atomic_beginCall callee this args constructing)
  | newArray items => exact Atomic.unwritten (spares_newArray items).atomic
  | writeDatum id d => exact (Machine.Unwritten.refl m).withStore ⟨rfl, rfl⟩
  | push v => exact Atomic.unwritten (atomic_push v)
  | locate s position =>
    rw [locate_eq]
    cases s with
    | error fault => exact .refl m
    | raise v => exact .of_frames (.refl _) rfl
  | finishFrame v base => exact unwritten_finishFrame v base m
  | unwind s base => exact unwritten_unwind s base m m rfl

end Exec

namespace HostM

variable {α : Type} {m m' : Machine}

theorem unwritten_alloc {f : Store → α × Store} (hf : m.store.SameCode (f m.store).2)
    (h : Completes (alloc f) m m') : m.Unwritten m' := by
  rw [h.eq_of_ok rfl]
  exact .of_frames hf rfl

theorem unwritten_alter {f : Store → Except Cause Store}
    (hf : ∀ s, f m.store = .ok s → m.store.SameCode s) (h : Completes (alter f) m m') :
    m.Unwritten m' := by
  have h' : Completes (ofExcept (f m.store) >>= fun store => modify fun m => { m with store })
    m m' := h
  rcases completes_ofExcept h' with ⟨s, hs, hset⟩ | rfl
  · rw [hset.eq_of_ok rfl]
    exact .of_frames (hf s hs) rfl
  · exact .refl _

theorem unwritten_getAttribute {access : Access} {receiver : Value} {name : String}
    (h : Completes (getAttribute access receiver name) m m') : m.Unwritten m' := by
  have h' : Completes (ofExcept (m.store.find access receiver name) >>= fun v =>
    alloc (·.bind receiver v)) m m' := h
  rcases completes_ofExcept h' with ⟨v, -, halloc⟩ | rfl
  · exact unwritten_alloc (m.store.kept_bind receiver v).toSameCode halloc
  · exact .refl _

theorem sameCode_breakReferences (s : Store) {v : Value} (hv : ∀ f, v ≠ .function f) :
    s.SameCode (s.breakReferences v).2 := by
  cases v with
  | function f => exact absurd rfl (hv f)
  | _ => exact ⟨rfl, rfl⟩

theorem Chore.unwritten {x : HostM α} (hx : Chore x) (h : Completes x m m') : m.Unwritten m' := by
  cases hx with
  | getAttribute access receiver name => exact unwritten_getAttribute h
  | setAttribute access target name v =>
    exact unwritten_alter (fun _ hs => (Store.kept_set hs).toSameCode) h
  | defineAttribute target name v flags =>
    exact unwritten_alter (fun _ hs => (Store.kept_define hs).toSameCode) h
  | writeElement container index v =>
    exact unwritten_alter (fun _ hs => (Store.kept_writeElement hs).toSameCode) h
  | tie receiver method => exact unwritten_alloc (m.store.kept_tie receiver method).toSameCode h
  | newInstance t => exact unwritten_alloc (Store.Grown.instantiate m.store t).kept.toSameCode h
  | breakReferences hv => exact unwritten_alloc (sameCode_breakReferences m.store hv) h
  | newArray items => exact unwritten_alloc ⟨rfl, rfl⟩ h
  | newMap entries => exact unwritten_alloc ⟨rfl, rfl⟩ h
  | newObject o => exact unwritten_alloc ⟨rfl, rfl⟩ h
  | beforeCall =>
    rw [h.eq_of_ok rfl, Machine.beforeCall]
    split
    · exact .of_frames (.refl _) rfl
    · exact .refl m
  | report s =>
    cases s with
    | error fault =>
      rw [h.eq_of_failed rfl]
      exact .refl m
    | raise v =>
      rw [h.eq_of_failed rfl]
      exact .of_frames (.refl _) rfl
  | setGlobal | declareType | declareTrait | compose | newNative | declareNative | wrap | setGuard
  | cut =>
    rw [h.eq_of_ok rfl]
    exact .of_frames ⟨rfl, rfl⟩ rfl

end HostM

theorem Opcode.events_eq_nil {o : Opcode} (h : o.writesCode = false) (m : Machine) :
    o.events m = [] := by
  cases o <;> first | rfl | cases h

theorem Opcode.events_storeStatic {m : Machine} {f : Frame} {rest : List Frame} {v : Value}
    {left : List Value} (hframes : m.frames = f :: rest) (hstack : m.stack = v :: left)
    (slot : Nat) :
    (storeStatic slot).events m = [.stored f.function slot v] := by
  simp only [events, hframes, hstack]

theorem Opcode.events_createClosure {m : Machine} {f : Frame} {rest : List Frame}
    (hframes : m.frames = f :: rest) (i : Nat) :
    (createClosure i).events m = [.derived ⟨m.store.functions.size⟩ f.function] := by
  simp only [events, hframes]

namespace Exec

variable {m m' : Machine} {f : Frame} {rest : List Frame} {step : Step}

theorem andNext_of_ok {x : Exec Unit} (h : x m = .ok () m') : andNext x m = .ok .next m' :=
  bind_of_ok h

theorem andNext_eq_ok {x : Exec Unit} (h : andNext x m = .ok step m') : x m = .ok () m' := by
  cases hx : x m with
  | ok u m₁ =>
    rw [andNext, bind_of_ok hx] at h
    cases h
    rfl
  | error stop m₁ =>
    rw [andNext, bind_of_error hx] at h
    cases h

theorem statics_eq (hframes : m.frames = f :: rest) :
    statics m = .ok (m.store.staticsCell f.closure.statics) m :=
  bind_of_ok (top_eq hframes)

theorem storeStatic_eq_ok {slot : Nat} (hframes : m.frames = f :: rest)
    (h : execute (.storeStatic slot) m = .ok step m') :
    ∃ v left b, m.stack = v :: left ∧ (m.store.staticsCell f.closure.statics).set slot v = .ok b ∧
      m' = { m with stack := left, store := m.store.setStatics f.closure.statics b } := by
  have heffect : Effect.storeStatic slot m = .ok () m' := andNext_eq_ok h
  rcases pop_cases m with ⟨v, left, hstack, hpop⟩ | hpop
  · have hstatics : statics { m with stack := left } = _ := statics_eq hframes
    have htop : top { m with stack := left } = .ok f { m with stack := left } := top_eq hframes
    rw [Effect.storeStatic, bind_of_ok hpop, bind_of_ok hstatics] at heffect
    cases hset : (m.store.staticsCell f.closure.statics).set slot v with
    | error c =>
      rw [hset] at heffect
      cases heffect
    | ok b =>
      rw [hset] at heffect
      have hstored := (bind_of_ok htop).symm.trans heffect
      cases hstored
      exact ⟨v, left, b, hstack, hset, rfl⟩
  · cases (bind_of_error hpop).symm.trans heffect

theorem createClosure_eq_ok {i : Nat} (hframes : m.frames = f :: rest)
    (h : execute (.createClosure i) m = .ok step m') :
    ∃ c, f.closure.nested? i = some c ∧
      m' = { m with
        stack := .function ⟨m.store.functions.size⟩ :: m.stack
        store := (m.store.newFunction ⟨c, .empty⟩).2 } := by
  have heffect : Effect.createClosure i m = .ok () m' := andNext_eq_ok h
  rw [Effect.createClosure, bind_of_ok (top_eq hframes)] at heffect
  cases hnested : f.closure.nested? i with
  | none =>
    rw [hnested] at heffect
    cases heffect
  | some c =>
    rw [hnested] at heffect
    cases heffect
    exact ⟨c, rfl, rfl⟩

theorem loadStatic_eq (hframes : m.frames = f :: rest) (slot : Nat) :
    execute (.loadStatic slot) m = .ok .next { m with
      stack := ((m.store.staticsCell f.closure.statics).get? slot).getD .void :: m.stack } := by
  apply andNext_of_ok
  rw [Effect.loadStatic, bind_of_ok (statics_eq hframes)]
  rfl

theorem jumpIfStaticInitialized_eq (hframes : m.frames = f :: rest) (slot target : Nat) :
    execute (.jumpIfStaticInitialized slot target) m = .ok .next
      (if ((m.store.staticsCell f.closure.statics).get? slot).isSome then
        { m with frames := { f with pc := target } :: rest } else m) := by
  apply andNext_of_ok
  rw [Effect.jumpIfStaticInitialized, bind_of_ok (statics_eq hframes), Statics.isInitialized]
  split
  · exact setTop_eq hframes _
  · rfl

end Exec

namespace History.Governs

variable {h : History} {m m' : Machine} {f : Frame} {rest : List Frame} {step : Step}

theorem derived {g : FunctionId} {c : Function} (hm : h.Governs m)
    (hblock : c.closure.statics = m.store.block g)
    (hbare : h.origin g = none → c.closure.template.body.code = #[])
    (hframes : m'.frames = m.frames) (hstore : m'.store = (m.store.newFunction c).2) :
    Governs (.derived ⟨m.store.functions.size⟩ g :: h) m' := by
  refine hm.prolonged (hm.tells.prolongs_derived g) hframes ?_ fun e r he => ?_
  · rw [hstore]
    exact hm.tells.derived hblock hbare
  · rw [hstore, Store.block, Store.function_newFunction, if_neg (hm.tells.ne_of_origin he).1]
    rfl

theorem storeStatic {slot : Nat} (hm : h.Governs m) (hframes : m.frames = f :: rest)
    (hcode : f.closure.template.body.code ≠ #[])
    (hx : Exec.execute (.storeStatic slot) m = .ok step m') :
    Governs ((Opcode.storeStatic slot).events m ++ h) m' := by
  obtain ⟨r, hr, hblock⟩ := hm.of_executing hframes hcode
  obtain ⟨v, left, b, hstack, hset, rfl⟩ := Exec.storeStatic_eq_ok hframes hx
  rw [Opcode.events_storeStatic hframes hstack]
  rw [hblock] at hset ⊢
  exact hm.prolonged (fun _ _ hf => ⟨hf, rfl⟩) rfl (hm.tells.stored hr hset) fun _ _ _ => rfl

theorem createClosure {i : Nat} (hm : h.Governs m) (hframes : m.frames = f :: rest)
    (hcode : f.closure.template.body.code ≠ #[])
    (hx : Exec.execute (.createClosure i) m = .ok step m') :
    Governs ((Opcode.createClosure i).events m ++ h) m' := by
  obtain ⟨r, hr, hblock⟩ := hm.of_executing hframes hcode
  obtain ⟨c, hnested, rfl⟩ := Exec.createClosure_eq_ok hframes hx
  rw [Opcode.events_createClosure hframes]
  refine hm.derived (g := f.function) ?_ (fun hnone => ?_) rfl rfl
  · obtain ⟨t, -, rfl⟩ := Option.map_eq_some_iff.1 hnested
    exact hblock
  · rw [hnone] at hr
    cases hr

theorem instruction {o : Opcode} (hm : h.Governs m) (hframes : m.frames = f :: rest)
    (hcode : f.closure.template.body.code ≠ #[]) (hx : Exec.execute o m = .ok step m') :
    Governs (o.events m ++ h) m' := by
  cases hwrites : o.writesCode with
  | false =>
    have hleaves := (Exec.acts_execute o).of_ok (.refl m) hx
    rw [Opcode.events_eq_nil hwrites]
    cases step with
    | compare method a b => exact hm.unwritten (Machine.Spared.unwritten hleaves)
    | _ => exact hm.unwritten (hleaves hwrites)
  | true =>
    cases o with
    | storeStatic slot => exact hm.storeStatic hframes hcode hx
    | createClosure i => exact hm.createClosure hframes hcode hx
    | _ => cases hwrites

theorem method {b : Method} {this v : Value} {args : List Value} {store : Store} (hm : h.Governs m)
    (hx : b.apply m.store this args = .ok (v, store)) :
    Governs (b.events m.store this ++ h) { m with store } := by
  by_cases hclone : b = .clone
  · subst hclone
    obtain ⟨g, hg, hx⟩ := exceptBind_eq_ok hx
    cases this with
    | function g' =>
      cases hg
      cases hx
      exact hm.derived rfl (fun hnone => hm.tells.bare g hnone) rfl rfl
    | _ => cases hg
  · have hevents : b.events m.store this = [] := by
      cases b <;> first | rfl | exact absurd rfl hclone
    rw [hevents]
    exact hm.unwritten (.of_frames (Method.kept_apply hx hclone).toSameCode rfl)

end History.Governs

theorem Opcode.prolongs_events {h : History} {m : Machine} (hh : h.Tells m.store) (o : Opcode) :
    h.Prolongs (o.events m ++ h) := by
  unfold Opcode.events
  split
  · exact fun _ _ hf => ⟨hf, rfl⟩
  · exact hh.prolongs_derived _
  · exact .refl h

theorem Method.prolongs_events {h : History} {s : Store} (hh : h.Tells s) (b : Method)
    (this : Value) : h.Prolongs (b.events s this ++ h) := by
  unfold Method.events
  split
  · exact hh.prolongs_derived _
  · exact .refl h

theorem Frame.Executing.code_ne {f : Frame} {i : Instruction} (h : f.Executing i) :
    f.closure.template.body.code ≠ #[] := by
  intro hcode
  have hget := h.2
  rw [hcode] at hget
  cases hget

theorem Deed.governs {h es : History} {m m' : Machine} (hd : Deed m es m') (hm : h.Governs m) :
    History.Governs (es ++ h) m' ∧ h.Prolongs (es ++ h) := by
  cases hd with
  | instruction hframes hi hx =>
    exact ⟨hm.instruction hframes hi.code_ne hx, Opcode.prolongs_events hm.tells _⟩
  | refusal hx =>
    have hspared := ((Exec.acts_execute _).of_failed (.refl m) hx).1
    exact ⟨hm.unwritten hspared.unwritten, .refl h⟩
  | method hx => exact ⟨hm.method hx, Method.prolongs_events hm.tells _ _⟩
  | chore hchore hx =>
    have hends := hchore.unwritten (m := m)
    rcases hx with ⟨a, hx⟩ | ⟨s, hx⟩
    · rw [hx] at hends
      exact ⟨hm.unwritten hends, .refl h⟩
    · rw [hx] at hends
      exact ⟨hm.unwritten hends, .refl h⟩

theorem History.Governs.loaded {h : History} {m m' : Machine} {c : Function} (hm : h.Governs m)
    (hc : c.closure.statics = ⟨m.store.statics.size⟩) (names : List String)
    (source : Option String) (hframes : m'.frames = m.frames)
    (hstore : m'.store = ((m.store.newStatics (.ofNames names source)).2.newFunction c).2) :
    Governs (.loaded ⟨m.store.functions.size⟩ names.length :: h) m' := by
  refine hm.prolonged (hm.tells.prolongs_loaded names.length) hframes ?_ fun g r hg => ?_
  · rw [hstore]
    exact hm.tells.loaded hc names source
  · rw [hstore, Store.block, Store.function_newFunction]
    have hnew : g ≠ ⟨m.store.functions.size⟩ := (hm.tells.ne_of_origin hg).1
    exact congrArg (fun f : Function => f.closure.statics) (if_neg hnew)

theorem HostDeed.governs {h es : History} {m m' : Machine} (hd : HostDeed h m es m')
    (hm : h.Governs m) : History.Governs (es ++ h) m' ∧ h.Prolongs (es ++ h) := by
  cases hd with
  | @load f _ _ hx =>
    obtain ⟨hid, rfl⟩ := HostM.load_eq_ok hx
    cases hid
    exact ⟨hm.loaded rfl f.statics _ rfl rfl, hm.tells.prolongs_loaded _⟩
  | found hx =>
    cases hx
    exact ⟨hm.loaded rfl _ _ rfl rfl, hm.tells.prolongs_loaded _⟩
  | @instantiate c id parent _ hparent hc hx =>
    cases hx
    refine ⟨hm.derived hc (fun hnone => ?_) rfl rfl, hm.tells.prolongs_derived parent⟩
    rw [hnone] at hparent
    cases hparent
  | @clone id parent _ hparent hx =>
    cases hx
    exact ⟨hm.derived rfl (fun hnone => hm.tells.bare parent hnone) rfl rfl,
      hm.tells.prolongs_derived parent⟩
  | @breakReferences f _ hf hx =>
    obtain ⟨r, hr⟩ := Option.isSome_iff_exists.1 hf
    rw [hx.eq_of_ok rfl]
    refine ⟨hm.prolonged (fun _ _ hf => ⟨hf, rfl⟩) rfl (hm.tells.cleared hr) fun g q _ => ?_,
      fun _ _ hf => ⟨hf, rfl⟩⟩
    exact (m.store.kept_setFunction f fun _ => .empty).block_eq g
  | chore hchore hx => exact ⟨hm.unwritten (hchore.unwritten hx), .refl h⟩

theorem Goes.governs {h h' : History} {m m' : Machine} (hgoes : Goes h m h' m')
    (hm : h.Governs m) : h'.Governs m' ∧ h.Prolongs h' := by
  induction hgoes with
  | refl => exact ⟨hm, .refl h⟩
  | deed _ hdeed ih =>
    obtain ⟨hm', hprolongs⟩ := hdeed.governs ih.1
    exact ⟨hm', ih.2.trans hprolongs⟩
  | host _ hdeed ih =>
    obtain ⟨hm', hprolongs⟩ := hdeed.governs ih.1
    exact ⟨hm', ih.2.trans hprolongs⟩

theorem Machine.start_governed (config : Config) : History.Governs [] (start config) :=
  ⟨.nil _ rfl, nofun⟩

/-- At any point of a run, with the history up to there: functions share a static block exactly if
they come from the same load, which has as many slots as it began with, and code of such a function
finds in a slot what one of them assigned last. The history goes on without changing what it has
said of a function, and all calls of the host and the states inside them are part of it. -/
theorem static_data_of_load {config : Config} {h : History} {m : Machine}
    (hm : Goes [] (.start config) h m) :
    (∀ f g r r', h.origin f = some r → h.origin g = some r' →
      (m.store.block f = m.store.block g ↔ r = r')) ∧
    (∀ f r, h.origin f = some r →
      (m.store.staticsCell (m.store.block f)).slots.size = h.slots r) ∧
    (∀ f rest, m.frames = f :: rest → f.closure.template.body.code ≠ #[] →
      ∃ r, h.origin f.function = some r ∧ ∀ slot target,
        Exec.execute (.loadStatic slot) m =
          .ok .next { m with stack := (h.last r slot).getD .void :: m.stack } ∧
        Exec.execute (.jumpIfStaticInitialized slot target) m =
          .ok .next (if (h.last r slot).isSome then
            { m with frames := { f with pc := target } :: rest } else m)) ∧
    (∀ h' m', Goes h m h' m' → h.Prolongs h') ∧
    (∀ fuel callee this args m', Completes (HostM.callWith fuel callee this args) m m' →
      Reached h m m') ∧
    (∀ fuel receiver name args m', Completes (HostM.callMethod fuel receiver name args) m m' →
      Reached h m m') ∧
    (∀ fuel f m', Completes (HostM.execute fuel f) m m' → Reached h m m') ∧
    ∀ fuel callee this args w, Reaches ⟨fuel, .call callee this args, m.beforeCall⟩ w →
      Reached h m w.machine := by
  have hgoverns : h.Governs m := (hm.governs (Machine.start_governed config)).1
  have hreached : Reached h m m := .refl h m
  refine ⟨hgoverns.tells.shared, hgoverns.tells.size, ?_,
    fun _ _ hgoes => (hgoes.governs hgoverns).2,
    fun _ _ _ _ _ hcall => HostM.reached_callWith hreached hcall,
    fun _ _ _ _ _ hcall => HostM.reached_callMethod hreached hcall,
    fun _ _ _ hcall => HostM.reached_execute hreached hcall,
    fun _ _ _ _ _ hw => hw.reached (HostM.reached_beforeCall hreached)⟩
  intro f rest hframes hcode
  obtain ⟨r, hr, hblock⟩ := hgoverns.of_executing hframes hcode
  refine ⟨r, hr, fun slot target => ?_⟩
  rw [Exec.loadStatic_eq hframes, Exec.jumpIfStaticInitialized_eq hframes, hblock,
    hgoverns.tells.value f.function r hr]
  exact ⟨rfl, rfl⟩

/-- A fragment whose function assigns a static slot and then calls a function literal that reads the
slot. -/
def tally : Fragment where
  source := "tally"
  main :=
    { body :=
      { code := #[⟨.pushTrue, none⟩, ⟨.storeStatic 0, none⟩, ⟨.createClosure 0, none⟩,
          ⟨.call 0, none⟩]
        nested := [{ body := { code := #[⟨.loadStatic 0, none⟩] } }] } }
  statics := ["n"]

/-- The fragment is loaded twice, and the function of the first load is called. -/
def tallyBegun : Machine :=
  stoppedAt (Exec.beginCall (.function ⟨0⟩) none [] none
    (HostM.afterLoad tally (HostM.afterLoad tally (.start {}))))

/-- Four instructions later, in the function literal. -/
def tallyRead : Machine :=
  let next (m : Machine) := stoppedAt (Exec.instruct m)
  next (next (next (next tallyBegun)))

def tallyHistory : History :=
  [.derived ⟨2⟩ ⟨0⟩, .stored ⟨0⟩ 0 (.bool true), .loaded ⟨1⟩ 1, .loaded ⟨0⟩ 1]

/-- The literal has the block of the function that made it and finds what that assigned; the
function of the other load has another block. -/
theorem static_data_of_load_tally :
    Goes [] (.start {}) tallyHistory tallyRead ∧
      tallyRead.store.block ⟨2⟩ = tallyRead.store.block ⟨0⟩ ∧
      tallyRead.store.block ⟨2⟩ ≠ tallyRead.store.block ⟨1⟩ ∧
      Exec.execute (.loadStatic 0) tallyRead =
        .ok .next { tallyRead with stack := .bool true :: tallyRead.stack } := by
  have hload (m : Machine) (hm : m.config = {}) : HostM.load tally m =
      .ok (.function ⟨m.store.functions.size⟩) (HostM.afterLoad tally m) := by
    rw [HostM.load_eq, hm]
    rfl
  have hloaded : Goes [] (.start {}) [.loaded ⟨1⟩ 1, .loaded ⟨0⟩ 1] _ :=
    (Goes.refl.host (.load (hload (.start {}) rfl))).host (.load (hload _ rfl))
  have hbegun : Goes [] (.start {}) [.loaded ⟨1⟩ 1, .loaded ⟨0⟩ 1] tallyBegun :=
    hloaded.deed (.chore (.beginCall ..) (.of_returned (by decide +kernel)))
  have hread : Goes [] (.start {}) tallyHistory tallyRead :=
    (((hbegun.instruct rfl rfl).instruct rfl rfl).instruct rfl rfl).instruct rfl rfl
  obtain ⟨hshared, -, hexecute, -⟩ := static_data_of_load hread
  obtain ⟨r, hr, hvalue⟩ := hexecute _ _ rfl (by decide)
  cases hr
  refine ⟨hread, (hshared ⟨2⟩ ⟨0⟩ _ _ rfl rfl).2 rfl, fun hblock => ?_, (hvalue 0 0).1⟩
  cases (hshared ⟨2⟩ ⟨1⟩ _ _ rfl rfl).1 hblock

end ScriptMachine
