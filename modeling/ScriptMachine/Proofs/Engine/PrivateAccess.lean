import ScriptMachine.Proofs.Engine.Rounds
import ScriptMachine.Proofs.Model.Privacy

namespace ScriptMachine

/-- The instruction, with this stack, comes to reach for an attribute of a receiver, and the rest of
the stack is left by then. An operator does so where no rule for primitives applies. -/
inductive Frame.ReachesFor (f : Frame) : List Value → Opcode → Value → String → List Value → Prop
  | getAttribute {i : Nat} {n : String} {receiver : Value} {left : List Value}
      (hn : f.closure.template.body.nameAt? i = some n) (hleft : f.stackBase ≤ left.length) :
      f.ReachesFor (receiver :: left) (.getAttribute i) receiver n left
  | setObject {i : Nat} {n : String} {v : Value} {id : ObjectId} {left : List Value}
      (hn : f.closure.template.body.nameAt? i = some n) (hleft : f.stackBase ≤ left.length) :
      f.ReachesFor (v :: .object id :: left) (.setAttribute i) (.object id) n left
  | setFunction {i : Nat} {n : String} {v : Value} {id : FunctionId} {left : List Value}
      (hn : f.closure.template.body.nameAt? i = some n) (hleft : f.stackBase ≤ left.length) :
      f.ReachesFor (v :: .function id :: left) (.setAttribute i) (.function id) n left
  | callMethod {i : Nat} {n : String} {args : List Value} {receiver : Value} {left : List Value}
      (hn : f.closure.template.body.nameAt? i = some n) (hleft : f.stackBase ≤ left.length) :
      f.ReachesFor (args ++ receiver :: left) (.callMethod i args.length) receiver n left
  | binary {op : BinaryOp} {a b : Value} {left : List Value} (hop : op.onPrimitives? a b = none)
      (hleft : f.stackBase ≤ left.length) :
      f.ReachesFor (b :: a :: left) (.binary op) a op.method left
  | neg {a : Value} {left : List Value} (hop : a.negate? = none)
      (hleft : f.stackBase ≤ left.length) : f.ReachesFor (a :: left) .neg a "-_" left
  | equal {a b : Value} {left : List Value} (hop : a.hasBuiltinEquality = false)
      (hleft : f.stackBase ≤ left.length) : f.ReachesFor (b :: a :: left) .equal a "==" left
  | notEqual {a b : Value} {left : List Value} (hop : a.hasBuiltinEquality = false)
      (hleft : f.stackBase ≤ left.length) : f.ReachesFor (b :: a :: left) .notEqual a "==" left

namespace Exec

variable {β : Type} {m : Machine} {f : Frame} {rest : List Frame} {stack left : List Value}
  {n : String} {c : Cause} {receiver : Value} {r : Resolved}

theorem pop_bind {v : Value} (k : Value → Exec β) (hm : m.frames = f :: rest)
    (hleft : f.stackBase ≤ left.length) :
    (pop >>= k) { m with stack := v :: left } = k v { m with stack := left } := by
  have hfloor : ¬ (v :: left).length ≤ Machine.floor { m with stack := v :: left } := by
    simp only [Machine.floor, hm, List.length_cons]
    omega
  refine bind_of_ok ?_
  rw [pop, get_bind_apply, if_neg hfloor]
  rfl

theorem pop_pop_bind {a b : Value} (k : Value → Value → Exec β) (hm : m.frames = f :: rest)
    (hleft : f.stackBase ≤ left.length) :
    (pop >>= fun b => pop >>= fun a => k b a) { m with stack := b :: a :: left } =
      k b a { m with stack := left } := by
  have hmore : f.stackBase ≤ (a :: left).length := Nat.le_succ_of_le hleft
  exact (pop_bind _ hm hmore).trans (pop_bind _ hm hleft)

theorem popMany_pop_bind {args : List Value} (k : List Value → Value → Exec β)
    (hm : m.frames = f :: rest) (hleft : f.stackBase ≤ left.length) :
    (popMany args.length >>= fun args => pop >>= fun v => k args v)
        { m with stack := args ++ receiver :: left } =
      k args.reverse receiver { m with stack := left } := by
  have hfloor : ¬ (args ++ receiver :: left).length <
      Machine.floor { m with stack := args ++ receiver :: left } + args.length := by
    simp only [Machine.floor, hm, List.length_append, List.length_cons]
    omega
  have hmany : popMany args.length { m with stack := args ++ receiver :: left } =
      .ok args.reverse { m with stack := receiver :: left } := by
    rw [popMany, get_bind_apply, if_neg hfloor, List.take_left, List.drop_left]
    rfl
  exact (bind_of_ok hmany).trans (pop_bind _ hm hleft)

theorem operands_bind (args : List Value) (callee : Value) (k : List Value → Value → Exec β)
    (hm : m.frames = f :: rest) (hleft : f.stackBase ≤ left.length) :
    (popMany args.length >>= fun args => pop >>= fun v => k args v)
        { m with stack := args.reverse ++ callee :: left } =
      k args callee { m with stack := left } := by
  have h : (popMany args.reverse.length >>= fun args => pop >>= fun v => k args v)
        { m with stack := args.reverse ++ callee :: left } =
      k args.reverse.reverse callee { m with stack := left } := popMany_pop_bind k hm hleft
  rwa [List.length_reverse, List.reverse_reverse] at h

theorem name_bind {i : Nat} (k : String → Exec β) (hm : m.frames = f :: rest)
    (hn : f.closure.template.body.nameAt? i = some n) :
    (name i >>= k) { m with stack } = k n { m with stack } := by
  have htop : top { m with stack } = .ok f { m with stack } := top_eq hm
  refine bind_of_ok ?_
  rw [name, bind_of_ok htop, hn]
  rfl

theorem access_bind (k : Access → Exec β) (hm : m.frames = f :: rest) :
    (access >>= k) { m with stack } = k (.running f.this f.function) { m with stack } := by
  refine bind_of_ok ?_
  rw [access, get_bind_apply, Machine.access, hm]
  rfl

theorem find_bind_of_error (k : Value → Exec β) (hm : m.frames = f :: rest)
    (h : m.store.find (.running f.this f.function) receiver n = .error c) :
    (find receiver n >>= k) { m with stack } =
      .error (.failed (.ofCause c)) { m with stack } := by
  refine bind_of_error ?_
  rw [find, get_bind_apply, access_bind _ hm, h]
  rfl

theorem callOperator_refused {o : Opcode} {args : List Value} (hm : m.frames = f :: rest)
    (ho : o.operator? = some n) (hr : m.store.resolve receiver n = some r)
    (h : m.store.find (.running f.this f.function) receiver n = .error c) :
    callOperator o receiver args { m with stack } =
      .error (.failed (.ofCause c)) { m with stack } := by
  rw [callOperator, ho]
  dsimp only
  rw [get_bind_apply, hr]
  exact find_bind_of_error _ hm h

theorem alter_refused {v target : Value} (hr : m.store.assigned? target n = some r)
    (hown : Store.hasOwn target = true) (hp : r.attr.flags.isPrivate = true)
    (hno : m.store.mayAccess (.running f.this f.function) (m.store.definingType target n r) =
      false) :
    alter (·.set (.running f.this f.function) target n v) { m with stack } =
      .error (.failed (.ofCause (m.store.privateTo target n r))) { m with stack } := by
  rw [alter, get_bind_apply, Store.set_of_private hr hown hp hno]
  rfl

theorem hasEqualityMethod_bind {a : Value} (k : Bool → Exec β) (h : a.hasBuiltinEquality = false)
    (hr : m.store.resolve a "==" = some r) :
    (hasEqualityMethod a >>= k) { m with stack } = k true { m with stack } := by
  have hask : hasEqualityMethod a { m with stack } =
      .ok (!a.hasBuiltinEquality && (m.store.resolve a "==").isSome) { m with stack } := rfl
  rw [h, hr] at hask
  exact bind_of_ok hask

/-- Where the check refuses, the instruction fails, and only operands are gone. -/
theorem execute_refused {o : Opcode} (hm : m.frames = f :: rest)
    (hreach : f.ReachesFor stack o receiver n left) (hr : m.store.resolve receiver n = some r)
    (hp : r.attr.flags.isPrivate = true)
    (hno : m.store.mayAccess (.running f.this f.function) (m.store.definingType receiver n r) =
      false) :
    execute o { m with stack } =
      .error (.failed (.ofCause (m.store.privateTo receiver n r))) { m with stack := left } := by
  have hfind := Store.find_of_private hr hp hno
  cases hreach with
  | getAttribute hn hleft =>
    refine bind_of_error ((name_bind _ hm hn).trans ((pop_bind _ hm hleft).trans ?_))
    exact find_bind_of_error _ hm hfind
  | setObject hn hleft =>
    refine bind_of_error ((name_bind _ hm hn).trans ((pop_pop_bind _ hm hleft).trans ?_))
    exact (access_bind _ hm).trans (alter_refused hr rfl hp hno)
  | setFunction hn hleft =>
    refine bind_of_error ((name_bind _ hm hn).trans ((pop_pop_bind _ hm hleft).trans ?_))
    exact (access_bind _ hm).trans (alter_refused hr rfl hp hno)
  | callMethod hn hleft =>
    refine (name_bind _ hm hn).trans ((popMany_pop_bind _ hm hleft).trans ?_)
    exact find_bind_of_error _ hm hfind
  | binary hop hleft =>
    refine (pop_pop_bind _ hm hleft).trans ?_
    rw [hop]
    exact callOperator_refused hm rfl hr hfind
  | neg hop hleft =>
    refine (pop_bind _ hm hleft).trans ?_
    rw [hop]
    exact callOperator_refused hm rfl hr hfind
  | equal hop hleft =>
    refine (pop_pop_bind _ hm hleft).trans ((hasEqualityMethod_bind _ hop hr).trans ?_)
    exact callOperator_refused (o := .equal) hm rfl hr hfind
  | notEqual hop hleft =>
    refine (pop_pop_bind _ hm hleft).trans ((hasEqualityMethod_bind _ hop hr).trans ?_)
    exact find_bind_of_error _ hm hfind

/-- In the loop, the error gets the place of the instruction on its way out. -/
theorem dispatch_refused {call : Callback} {m₁ : Machine} {i : Instruction}
    (hm : m.frames = f :: rest) (hfetch : fetch m = .ok (some i) m₁)
    (hreach : f.ReachesFor m.stack i.opcode receiver n left)
    (hr : m.store.resolve receiver n = some r) (hp : r.attr.flags.isPrivate = true)
    (hno : m.store.mayAccess (.running f.this f.function) (m.store.definingType receiver n r) =
      false) :
    ∃ position, dispatch call m =
      .error (.failed (.error ⟨m.store.privateTo receiver n r, [], position⟩))
        { fetched m f rest with stack := left } := by
  have hspec := fetch_spec hm
  rw [hfetch] at hspec
  obtain ⟨-, rfl⟩ := hspec
  have hreach' : ({ f with pc := f.pc + 1 } : Frame).ReachesFor m.stack i.opcode receiver n left := by
    generalize m.stack = stack, i.opcode = o at hreach ⊢
    cases hreach <;> constructor <;> assumption
  have hexec : (execute i.opcode >>= complete call) (fetched m f rest) =
      .error (.failed (.ofCause (m.store.privateTo receiver n r)))
        { fetched m f rest with stack := left } :=
    bind_of_error (execute_refused (m := fetched m f rest) rfl hreach' hr hp hno)
  exact ⟨_, (bind_of_ok hfetch).trans (executeAt_of_failed hexec)⟩

end Exec

/-- Whoever reaches for a private attribute of a receiver: an instruction does so as a method of the
type that has the attribute, or else it fails with an access error, and nothing is changed but that
it was fetched and its operands are gone. The host fails with an access error, and nothing is
changed. -/
theorem private_access_authorised {m : Machine} {receiver : Value} {name : String} {r : Resolved}
    (hr : m.store.resolve receiver name = some r) (hp : r.attr.flags.isPrivate = true) :
    (∀ call f rest i m₁ left, m.frames = f :: rest → Exec.fetch m = .ok (some i) m₁ →
      f.ReachesFor m.stack i.opcode receiver name left →
      ¬ m.store.Authorises (m.store.definingType receiver name r) f.this f.function →
      ∃ position, Exec.dispatch call m =
        .error (.failed (.error ⟨m.store.privateTo receiver name r, [], position⟩))
          { Exec.fetched m f rest with stack := left }) ∧
    HostM.getAttribute .host receiver name m =
      .error (.failed { fault := { cause := m.store.privateTo receiver name r } }) m ∧
    (∀ fuel args, HostM.callMethod fuel receiver name args m =
      .error (.failed { fault := { cause := m.store.privateTo receiver name r } }) m) ∧
    ∀ v, ((∃ id, receiver = .object id) ∨ ∃ id, receiver = .function id) →
      HostM.setAttribute .host receiver name v m =
        .error (.failed { fault := { cause := m.store.privateTo receiver name r } }) m := by
  have hfind : m.store.find .host receiver name = .error (m.store.privateTo receiver name r) :=
    Store.find_of_private hr hp Store.not_mayAccess_host
  refine ⟨?_, ?_, ?_, ?_⟩
  · intro call f rest i m₁ left hm hfetch hreach hno
    refine Exec.dispatch_refused hm hfetch hreach hr hp ?_
    rw [← Bool.not_eq_true]
    exact fun hmay => hno (Store.authorises_of_mayAccess hmay)
  · change (HostM.ofExcept (m.store.find .host receiver name) >>= _) m = _
    rw [hfind]
    rfl
  · intro fuel args
    change (HostM.ofExcept (m.store.find .host receiver name) >>= _) m = _
    rw [hfind]
    rfl
  · intro v hreceiver
    have hset : m.store.set .host receiver name v = .error (m.store.privateTo receiver name r) := by
      rcases hreceiver with ⟨id, rfl⟩ | ⟨id, rfl⟩
      · exact Store.set_of_private hr rfl hp Store.not_mayAccess_host
      · exact Store.set_of_private hr rfl hp Store.not_mayAccess_host
    change (HostM.ofExcept (m.store.set .host receiver name v) >>= _) m = _
    rw [hset]
    rfl

/-- A function that reads the attribute `secret` of its receiver. -/
def prying : Template where
  body :=
    { code := #[⟨.loadThis, none⟩, ⟨.getAttribute 0, some ⟨4, 2⟩⟩]
      constants := #[.string "secret"] }

/-- A free function at work on an object, about to read the private attribute of the base. -/
def inPrying : Machine where
  store := { withSecret [] with functions := #[default, ⟨⟨prying, ⟨0, []⟩, ⟨0⟩⟩, .empty⟩] }
  frames :=
    [{ function := ⟨1⟩, closure := ⟨prying, ⟨0, []⟩, ⟨0⟩⟩, locals := #[], supplied := 0,
       this := .object ⟨0⟩, pc := 1, stackBase := 0 }]
  stack := [.object ⟨0⟩]

theorem private_access_authorised_prying :
    (∃ position m', Exec.dispatch (Exec.invoke 0) inPrying =
        .error (.failed (.error ⟨.access "secret" (.privateTo "Base"), [], position⟩)) m' ∧
      m'.store = inPrying.store) ∧
    ∃ failure, HostM.getAttribute .host (.object ⟨0⟩) "secret" inPrying =
      .error (.failed failure) inPrying := by
  have hchain : inPrying.store.chain (inPrying.store.typeOf (.object ⟨0⟩)) = [⟨2⟩, ⟨1⟩, ⟨0⟩] := by
    decide +kernel
  have hr : inPrying.store.resolve (.object ⟨0⟩) "secret" =
      some ⟨⟨.bool true, { isPrivate := true }⟩, .type ⟨1⟩⟩ := by
    change List.findSome? _ (inPrying.store.chain (inPrying.store.typeOf (.object ⟨0⟩))) = _
    rw [hchain]
    rfl
  have hdeclares : (inPrying.store.type ⟨1⟩).declares ⟨1⟩ = false := by decide
  have hno : ¬ inPrying.store.Authorises ⟨1⟩ (.object ⟨0⟩) ⟨1⟩ := by
    intro h
    rw [TypeCell.declares_iff.2 h.declares] at hdeclares
    cases hdeclares
  obtain ⟨hscript, hhost, -⟩ := private_access_authorised hr rfl
  obtain ⟨position, hdispatch⟩ := hscript (Exec.invoke 0) _ [] _ _ [] rfl rfl
    (.getAttribute rfl (Nat.le_refl 0)) hno
  exact ⟨⟨position, _, hdispatch, rfl⟩, _, hhost⟩

end ScriptMachine
