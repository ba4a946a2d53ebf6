import ScriptMachine.Proofs.Engine.Start

namespace ScriptMachine

/-- A frame before and after steps of the instruction `o`: the same call, which has gone on or
jumped, assigned locals, and dropped catch regions or registered one of `o`. -/
structure Frame.Follows (o : Opcode) (f f' : Frame) : Prop where
  same : f' = { f with pc := f'.pc, locals := f'.locals, handlers := f'.handlers }
  locals : f'.locals.size = f.locals.size
  pc : f'.pc = f.pc ∨ o.jumpTarget? = some f'.pc
  handlers : ∀ h ∈ f'.handlers,
    h ∈ f.handlers ∨ o.jumpTarget? = some h.target ∧ f.stackBase ≤ h.height

namespace Frame.Follows

variable {o : Opcode} {f f' : Frame}

theorem refl (f : Frame) : f.Follows o f :=
  ⟨rfl, rfl, .inl rfl, fun _ h => .inl h⟩

theorem closure_eq (h : f.Follows o f') : f'.closure = f.closure := by rw [h.same]

theorem stackBase_eq (h : f.Follows o f') : f'.stackBase = f.stackBase := by rw [h.same]

theorem withPc (h : f.Follows o f') {t : Nat} (ht : o.jumpTarget? = some t) :
    f.Follows o { f' with pc := t } :=
  ⟨by rw [h.same], h.locals, .inr ht, h.handlers⟩

theorem withLocal (h : f.Follows o f') (slot : Nat) (v : Value) :
    f.Follows o { f' with locals := f'.locals.setIfInBounds slot v } :=
  ⟨by rw [h.same], Array.size_setIfInBounds.trans h.locals, h.pc, h.handlers⟩

theorem withHandler (h : f.Follows o f') {t height : Nat} (ht : o.jumpTarget? = some t)
    (hh : f.stackBase ≤ height) : f.Follows o { f' with handlers := ⟨t, height⟩ :: f'.handlers } := by
  refine ⟨by rw [h.same], h.locals, h.pc, fun r hr => ?_⟩
  rcases List.mem_cons.1 hr with rfl | hr
  · exact .inr ⟨ht, hh⟩
  · exact h.handlers r hr

theorem dropHandler (h : f.Follows o f') :
    f.Follows o { f' with handlers := f'.handlers.tail } :=
  ⟨by rw [h.same], h.locals, h.pc, fun r hr => h.handlers r (List.mem_of_mem_tail hr)⟩

end Frame.Follows

/-- No raise is on record. -/
def Machine.Clean (m : Machine) : Prop :=
  m.raiseTrace = [] ∧ m.raisePosition = none

/-- The machine at work on the instruction `o`, which began at `m₀` with the innermost frame `f₀`
above `rest` and the operands `low` below its base. -/
structure Running (o : Opcode) (m₀ : Machine) (f₀ : Frame) (rest : List Frame) (low : List Value)
    (m : Machine) : Prop where
  frames : ∃ f, m.frames = f :: rest ∧ f₀.Follows o f
  base : low.length = f₀.stackBase
  stack : low <:+ m.stack
  config : m.config = m₀.config
  guard : m.guard = m₀.guard
  store : m₀.store.Retained m.store
  executed : m.executed = m₀.executed
  clean : m₀.Clean → m.Clean

/-- The causes for which `o` may break the machine down, or be refused by the guard. -/
inductive Breaks (o : Opcode) (m₀ : Machine) (f₀ : Frame) : Cause → Prop
  | underflow : Breaks o m₀ f₀ (.breakdown .operandUnderflow)
  | tooDeep : Breaks o m₀ f₀ (.breakdown (.tooDeep m₀.config.maxDepth))
  | refused {g : Guard} {asked : List (Nat × String)} {depth : Nat} {name : String} {c : Cause}
      (hg : m₀.guard = some g) (hc : g.refuse? asked depth name = some c) : Breaks o m₀ f₀ c
  | noConstant {i : Nat} (ho : o = .pushConstant i)
      (h : f₀.closure.template.body.constants[i]? = none) :
      Breaks o m₀ f₀ (.breakdown (.noConstant i))
  | notName {i : Nat} (ho : o.nameOperand? = some i)
      (h : f₀.closure.template.body.nameAt? i = none) : Breaks o m₀ f₀ (.breakdown (.notName i))
  | noLocal {slot : Nat} (ho : o = .loadLocal slot ∨ o = .storeLocal slot)
      (h : f₀.locals.size ≤ slot) : Breaks o m₀ f₀ (.breakdown (.noLocal slot))
  | noStatic {slot : Nat} (ho : o = .storeStatic slot)
      (h : f₀.closure.statics.index < m₀.store.statics.size →
        (m₀.store.staticsCell f₀.closure.statics).slots.size ≤ slot) :
      Breaks o m₀ f₀ (.breakdown (.noStatic slot))
  | noNested {i : Nat} (ho : o = .createClosure i)
      (h : f₀.closure.template.body.nested[i]? = none) :
      Breaks o m₀ f₀ (.breakdown (.noNested i))

/-- Signals of `o`: raises are those of `throw`, and an internal error has one of the causes above. -/
def Blames (o : Opcode) (m₀ : Machine) (f₀ : Frame) : Signal → Prop
  | .raise _ => o = .throw
  | .error fault => fault.Fresh ∧ (fault.kind = .internal → Breaks o m₀ f₀ fault.cause)

namespace Running

variable {o : Opcode} {m₀ m : Machine} {f₀ : Frame} {rest : List Frame} {low : List Value}

theorem withStack (h : Running o m₀ f₀ rest low m) {stack : List Value} (hs : low <:+ stack) :
    Running o m₀ f₀ rest low { m with stack } :=
  ⟨h.frames, h.base, hs, h.config, h.guard, h.store, h.executed, h.clean⟩

theorem withStore (h : Running o m₀ f₀ rest low m) {store : Store}
    (hs : m₀.store.Retained store) : Running o m₀ f₀ rest low { m with store } :=
  ⟨h.frames, h.base, h.stack, h.config, h.guard, hs, h.executed, h.clean⟩

theorem silent {m' : Machine} (h : Running o m₀ f₀ rest low m) (h' : m.Silent m') :
    Running o m₀ f₀ rest low m' := by
  rw [h'.same]
  exact ⟨h.frames, h.base, h.stack, h.config, h.guard, h.store.trans h'.retained, h.executed,
    h.clean⟩

theorem floor_eq (h : Running o m₀ f₀ rest low m) : m.floor = low.length := by
  obtain ⟨f, hf, hff⟩ := h.frames
  rw [Machine.floor, hf, h.base]
  exact hff.stackBase_eq

end Running

theorem Blames.of_kind {o : Opcode} {m₀ : Machine} {f₀ : Frame} {c : Cause}
    (h : c.kind ≠ .internal) : Blames o m₀ f₀ (.ofCause c) :=
  ⟨⟨rfl, rfl⟩, fun hc => absurd hc h⟩

theorem Blames.of_breaks {o : Opcode} {m₀ : Machine} {f₀ : Frame} {c : Cause}
    (h : Breaks o m₀ f₀ c) : Blames o m₀ f₀ (.ofCause c) :=
  ⟨⟨rfl, rfl⟩, fun _ => h⟩

theorem Blames.of_denial {o : Opcode} {m₀ m : Machine} {f₀ : Frame} {rest : List Frame}
    {low : List Value} {s : Signal} (hm : Running o m₀ f₀ rest low m) (h : s.Denial m) :
    Blames o m₀ f₀ s := by
  cases s with
  | raise v => exact h.elim
  | error fault =>
    refine ⟨h.1, fun hk => ?_⟩
    rcases h.2 hk with hc | ⟨g, asked, depth, name, hg, hc⟩
    · rw [hc, hm.config]
      exact .tooDeep
    · exact .refused (hm.guard ▸ hg) hc

/-- The machine after an instruction. One that starts a call does not jump; it has entered a frame or
leaves the call to be done. -/
def Advanced (o : Opcode) (m₀ : Machine) (f₀ : Frame) (rest : List Frame) (low : List Value) :
    Step → Machine → Prop
  | .next, m => Running o m₀ f₀ rest low m ∨
      ∃ m₁, Running o m₀ f₀ rest low m₁ ∧ o.jumpTarget? = none ∧ m₁.Enters m
  | .returned _, m => Running o m₀ f₀ rest low m
  | .native body .., m => Running o m₀ f₀ rest low m ∧ o.jumpTarget? = none ∧
      ∃ id, body = (m₀.store.native id).body
  | .compare .., m => Running o m₀ f₀ rest low m ∧ o.jumpTarget? = none

theorem Advanced.running_or_enters {o : Opcode} {m₀ m : Machine} {f₀ : Frame} {rest : List Frame}
    {low : List Value} {step : Step} (h : Advanced o m₀ f₀ rest low step m) :
    Running o m₀ f₀ rest low m ∨ ∃ m₁, Running o m₀ f₀ rest low m₁ ∧ m₁.Enters m := by
  cases step with
  | next => exact h.imp_right fun ⟨m₁, hm₁, _, henters⟩ => ⟨m₁, hm₁, henters⟩
  | returned v => exact .inl h
  | native body this args constructing => exact .inl h.1
  | compare method a b => exact .inl h.1

namespace Exec

/-- A part of the instruction `o`: it keeps to the frame and blames only what `o` may blame. -/
abbrev Obeys {α : Type} (o : Opcode) (m₀ : Machine) (f₀ : Frame) (rest : List Frame)
    (low : List Value) (x : Exec α) : Prop :=
  Keeps (Running o m₀ f₀ rest low) (Blames o m₀ f₀) x False

section Parts

variable {α β : Type} {o : Opcode} {m₀ : Machine} {f₀ : Frame} {rest : List Frame}
  {low : List Value} {J : β → Machine → Prop} {E : Signal → Machine → Prop} {F : Prop}

theorem obeys_pure (a : α) : Obeys o m₀ f₀ rest low (pure a) :=
  .pure fun _ h => h

theorem obeys_fail {c : Cause} (h : Blames o m₀ f₀ (.ofCause c)) :
    Obeys o m₀ f₀ rest low (fail c : Exec α) :=
  .fail fun _ hm => ⟨hm, h⟩

theorem obeys_ofExcept {r : Except Cause α} (h : ∀ c, r = .error c → Blames o m₀ f₀ (.ofCause c)) :
    Obeys o m₀ f₀ rest low (ofExcept r) :=
  .ofExcept (fun _ _ _ hm => hm) fun c _ hc hm => ⟨hm, h c hc⟩

theorem obeys_modify {g : Machine → Machine}
    (h : ∀ m, Running o m₀ f₀ rest low m → Running o m₀ f₀ rest low (g m)) :
    Obeys o m₀ f₀ rest low (modify g) :=
  .modify h

/-- Reading the machine, when what follows obeys whatever machine was read. -/
theorem running_get {k : Machine → Exec β}
    (h : ∀ m, Running o m₀ f₀ rest low m → Triple (Running o m₀ f₀ rest low) (k m) J E F) :
    Triple (Running o m₀ f₀ rest low) (get >>= k) J E F :=
  .get_bind fun m hm => (h m hm).conseq (fun _ hm' => hm'.2) (fun _ _ h => h) fun _ _ h => h

theorem running_top {k : Frame → Exec β}
    (h : ∀ f, f₀.Follows o f → Triple (Running o m₀ f₀ rest low) (k f) J E F) :
    Triple (Running o m₀ f₀ rest low) (top >>= k) J E F := by
  refine .bind (J := fun f m => f₀.Follows o f ∧ Running o m₀ f₀ rest low m) ?_
    fun f m hm => h f hm.1 m hm.2
  unfold top
  refine .get_bind fun m hm => ?_
  obtain ⟨f, hf, hff⟩ := hm.frames
  rw [hf]
  exact .pure fun m' hm' => ⟨hff, hm'.2⟩

theorem obeys_setTop {g : Frame → Frame} (h : ∀ f, f₀.Follows o f → f₀.Follows o (g f)) :
    Obeys o m₀ f₀ rest low (setTop g) := by
  unfold setTop
  refine .get_bind fun m hm => ?_
  obtain ⟨f, hf, hff⟩ := hm.frames
  rw [hf]
  -- the frame that is replaced is the one that was read
  refine .modify fun m' hm' => ?_
  obtain ⟨-, hrun⟩ := hm'
  exact ⟨⟨g f, rfl, h f hff⟩, hm.base, hrun.stack, hrun.config, hrun.guard, hrun.store,
    hrun.executed, hrun.clean⟩

theorem obeys_push (v : Value) : Obeys o m₀ f₀ rest low (push v) :=
  .modify fun _ hm => hm.withStack (hm.stack.trans (List.suffix_cons ..))

theorem obeys_pop : Obeys o m₀ f₀ rest low pop := by
  unfold pop
  refine running_get fun m hm => ?_
  split
  · exact obeys_fail (.of_breaks .underflow)
  · rename_i hlt
    split
    · rename_i v tail hs
      refine .bind (J := fun _ => Running o m₀ f₀ rest low) (.set fun _ _ => ?_) fun _ => obeys_pure v
      rw [hm.floor_eq, hs] at hlt
      have hsuf := hm.stack
      rw [hs] at hsuf
      rcases List.suffix_cons_iff.1 hsuf with heq | hsuf
      -- a stack that is all below the base has no operand to give
      · rw [heq] at hlt
        exact absurd (Nat.le_refl _) hlt
      · exact hm.withStack hsuf
    · exact obeys_fail (.of_breaks .underflow)

theorem obeys_popMany (n : Nat) : Obeys o m₀ f₀ rest low (popMany n) := by
  unfold popMany
  refine running_get fun m hm => ?_
  split
  · exact obeys_fail (.of_breaks .underflow)
  · rename_i hlt
    refine .bind (J := fun _ => Running o m₀ f₀ rest low) (.set fun _ _ => ?_) fun _ => obeys_pure _
    rw [hm.floor_eq] at hlt
    refine hm.withStack (List.suffix_of_suffix_length_le hm.stack (List.drop_suffix ..) ?_)
    rw [List.length_drop]
    omega

theorem obeys_popCounted (n : Nat) : Obeys o m₀ f₀ rest low (popCounted n) := by
  unfold popCounted
  refine running_get fun m hm => ?_
  split
  · exact .overflow
  · exact obeys_popMany n

theorem obeys_alloc {g : Store → α × Store} (h : ∀ s : Store, s.Untouched (g s).2) :
    Obeys o m₀ f₀ rest low (alloc g) :=
  .alloc fun m hm => hm.withStore (hm.store.trans (h m.store).retained)

theorem obeys_newArray (items : List Value) : Obeys o m₀ f₀ rest low (newArray items) :=
  .bind (obeys_alloc fun s => s.untouched_newArray _) fun _ => obeys_pure _

theorem obeys_alter {g : Store → Except Cause Store}
    (hok : ∀ s s', g s = .ok s' → s.Untouched s')
    (herr : ∀ s c, g s = .error c → c.kind ≠ .internal) : Obeys o m₀ f₀ rest low (alter g) := by
  unfold alter
  refine .get_bind fun m hm => ?_
  refine .bind (J := fun store m' => m' = m ∧ g m.store = .ok store) (.ofExcept ?_ ?_) ?_
  · exact fun store m' hr hm' => ⟨hm'.1, hr⟩
  · exact fun c m' hr hm' => ⟨hm'.2, .of_kind (herr _ _ hr)⟩
  · refine fun store => .modify fun m' hm' => ?_
    obtain ⟨rfl, hr⟩ := hm'
    exact hm.withStore (hm.store.trans (hok _ _ hr).retained)

theorem obeys_jump {t : Nat} (h : o.jumpTarget? = some t) : Obeys o m₀ f₀ rest low (jump t) :=
  obeys_setTop fun _ hf => hf.withPc h

theorem obeys_name {i : Nat} (h : o.nameOperand? = some i) : Obeys o m₀ f₀ rest low (name i) := by
  unfold name
  refine running_top fun f hf => ?_
  split
  · exact obeys_pure _
  · rename_i hn
    rw [hf.closure_eq] at hn
    exact obeys_fail (.of_breaks (.notName h hn))

theorem obeys_access : Obeys o m₀ f₀ rest low access :=
  running_get fun _ _ => obeys_pure _

theorem obeys_find (receiver : Value) (n : String) : Obeys o m₀ f₀ rest low (find receiver n) :=
  running_get fun _ _ => .bind obeys_access fun _ =>
    obeys_ofExcept fun _ hc => .of_kind (Store.find_kind hc)

theorem running_statics {k : Statics → Exec β}
    (h : ∀ block : Statics,
      (f₀.closure.statics.index < m₀.store.statics.size →
        block.slots.size = (m₀.store.staticsCell f₀.closure.statics).slots.size) →
      Triple (Running o m₀ f₀ rest low) (k block) J E F) :
    Triple (Running o m₀ f₀ rest low) (statics >>= k) J E F := by
  unfold statics
  rw [bind_assoc]
  refine running_top fun f hf => ?_
  rw [bind_assoc]
  refine running_get fun m hm => ?_
  rw [pure_bind, hf.closure_eq]
  exact h _ fun hid => (hm.store.slots _ hid).2

/-- The last part of the instruction, which may enter a frame. -/
abbrev Advances (o : Opcode) (m₀ : Machine) (f₀ : Frame) (rest : List Frame) (low : List Value)
    (x : Exec Step) : Prop :=
  Triple (Running o m₀ f₀ rest low) x (Advanced o m₀ f₀ rest low)
    (fun s m => Running o m₀ f₀ rest low m ∧ Blames o m₀ f₀ s) False

theorem advances_andNext {x : Exec Unit} (h : Obeys o m₀ f₀ rest low x) :
    Advances o m₀ f₀ rest low (andNext x) :=
  .bind h fun _ => .pure fun _ hm => .inl hm

theorem advances_push (v : Value) : Advances o m₀ f₀ rest low (andNext (push v)) :=
  advances_andNext (obeys_push v)

theorem advances_fail {c : Cause} (h : c.kind ≠ .internal) :
    Advances o m₀ f₀ rest low (fail c) :=
  .fail fun _ hm => ⟨hm, .of_kind h⟩

/-- Where a call that has begun stands. -/
def Begins (o : Opcode) (m₀ : Machine) (f₀ : Frame) (rest : List Frame) (low : List Value) :
    Start → Machine → Prop
  | .entered, m => ∃ m₁, Running o m₀ f₀ rest low m₁ ∧ m₁.Enters m
  | .native body .., m => Running o m₀ f₀ rest low m ∧ ∃ id, body = (m₀.store.native id).body

theorem advances_callAndGoOn (ho : o.jumpTarget? = none) (callee : Value) (this : Option Value)
    (args : List Value) (constructing : Option Value) :
    Advances o m₀ f₀ rest low (callAndGoOn callee this args constructing) := by
  unfold callAndGoOn
  refine .bind (J := Begins o m₀ f₀ rest low) ?_ fun start => ?_
  · intro m hm
    refine (started_beginCall callee this args constructing m (.refl m)).mono ?_ ?_
    · intro start m' hs
      cases start with
      | entered => exact ⟨m, hm, hs⟩
      | native body =>
        obtain ⟨hs, id, hid⟩ := hs
        exact ⟨hm.silent hs, id, by rw [hid, hm.store.native]⟩
    · exact fun s m' hs => ⟨hm.silent hs.1, .of_denial hm hs.2⟩
  · cases start with
    | entered =>
      refine .pure fun m hm => .inr ?_
      obtain ⟨m₁, hm₁, henter⟩ := hm
      exact ⟨m₁, hm₁, ho, henter⟩
    | native => exact .pure fun _ h => ⟨h.1, ho, h.2⟩

theorem advances_callOperator {p : Opcode} {op : String} (ho : o.jumpTarget? = none)
    (hp : p.operator? = some op) (receiver : Value) (args : List Value) :
    Advances o m₀ f₀ rest low (callOperator p receiver args) := by
  unfold callOperator
  rw [hp]
  refine running_get fun m _ => ?_
  split
  · exact advances_fail nofun
  · exact .bind (obeys_find receiver op) fun method => advances_callAndGoOn ho method _ _ _

theorem obeys_hasEqualityMethod (v : Value) : Obeys o m₀ f₀ rest low (hasEqualityMethod v) :=
  running_get fun _ _ => obeys_pure _

end Parts

end Exec

end ScriptMachine
