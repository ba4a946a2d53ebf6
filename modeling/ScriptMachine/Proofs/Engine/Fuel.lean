import ScriptMachine.Proofs.Engine.Triple

namespace ScriptMachine

namespace Exec

variable {α β : Type}

/-- The budget is used up before the computation has come to an end. -/
def Exhausted (x : Exec α) (m : Machine) : Prop :=
  ∃ m', x m = .error .outOfFuel m'

/-- Wherever `x` has budget enough, `y` ends in the same way. -/
def Extends (x y : Exec α) : Prop :=
  ∀ m, Exhausted x m ∨ y m = x m

theorem Extends.refl (x : Exec α) : Extends x x :=
  fun _ => .inr rfl

theorem Extends.bind {x y : Exec α} {f g : α → Exec β} (hx : Extends x y)
    (hf : ∀ a, Extends (f a) (g a)) : Extends (x >>= f) (y >>= g) := by
  intro m
  rcases hx m with ⟨m', hout⟩ | heq
  · exact .inl ⟨m', bind_of_error hout⟩
  cases hr : x m with
  | error stop m' =>
    rw [hr] at heq
    exact .inr ((bind_of_error heq).trans (bind_of_error hr).symm)
  | ok a m' =>
    rw [hr] at heq
    rw [Exhausted, bind_of_ok hr, bind_of_ok heq]
    exact hf a m'

theorem Extends.attempt {x y : Exec α} (hx : Extends x y) : Extends (attempt x) (attempt y) := by
  intro m
  rcases hx m with ⟨m', hout⟩ | heq
  · exact .inl ⟨m', by rw [Exec.attempt, hout]⟩
  · exact .inr (by rw [Exec.attempt, Exec.attempt, heq])

theorem Extends.eq_of_ok {x y : Exec α} (h : Extends x y) {a : α} {m m' : Machine}
    (hx : x m = .ok a m') : y m = .ok a m' := by
  rcases h m with ⟨_, hout⟩ | heq
  · cases hx.symm.trans hout
  · rw [heq, hx]

theorem Extends.eq_of_failed {x y : Exec α} (h : Extends x y) {s : Signal} {m m' : Machine}
    (hx : x m = .error (.failed s) m') : y m = .error (.failed s) m' := by
  rcases h m with ⟨_, hout⟩ | heq
  · cases hx.symm.trans hout
  · rw [heq, hx]

end Exec

/-- A callback with a larger budget. -/
def Callback.Extends (call call' : Callback) : Prop :=
  ∀ callee this args, Exec.Extends (call callee this args) (call' callee this args)

section Callbacks

variable {call call' : Callback}

theorem HostProgram.run_extends (hcall : call.Extends call') (p : HostProgram) :
    Exec.Extends (p.run call) (p.run call') := by
  induction p with
  | finish outcome => exact .refl _
  | call callee this args next ih => exact .bind (hcall callee this args).attempt ih
  | callMethod receiver name args next ih =>
    refine .bind (Exec.Extends.attempt (.bind (.refl _) fun method => ?_)) ih
    exact hcall method (some receiver) args
  | newArray items next ih => exact .bind (.refl _) ih
  | typeName v next ih => exact .bind (.refl _) fun m => ih _
  | readDatum id next ih => exact .bind (.refl _) fun m => ih _
  | writeDatum id d next ih => exact .bind (.refl _) fun _ => ih

namespace Exec

theorem runNative_extends (hcall : call.Extends call') (body : NativeBody) (this : Value)
    (args : List Value) (constructing : Option Value) :
    Extends (runNative call body this args constructing)
      (runNative call' body this args constructing) := by
  refine .bind ?_ fun result => .refl _
  cases body with
  | method m => exact .refl _
  | host p => exact (p this args).run_extends hcall

theorem complete_extends (hcall : call.Extends call') (step : Step) :
    Extends (complete call step) (complete call' step) := by
  cases step with
  | next => exact .refl _
  | returned v => exact .refl _
  | native body this args constructing =>
    exact .bind (runNative_extends hcall body this args constructing) fun _ => .refl _
  | compare method a b => exact .bind (hcall method (some a) [b]) fun _ => .refl _

theorem dispatch_extends (hcall : call.Extends call') :
    Extends (dispatch call) (dispatch call') := by
  refine .bind (.refl _) fun r => ?_
  cases r with
  | none => exact .refl _
  | some i =>
    refine .bind (Extends.attempt (.bind (.refl _) fun step => complete_extends hcall step)) ?_
    exact fun _ => .refl _

theorem cycle_extends (hcall : call.Extends call') (base : Nat) :
    Extends (cycle call base) (cycle call' base) :=
  .bind (dispatch_extends hcall).attempt fun _ => .refl _

/-- A loop that gets both more rounds and more budget inside them. -/
theorem loop_extends (hcall : call.Extends call') (base : Nat) {k k' : Nat} (hk : k ≤ k') :
    Extends (loop call base k) (loop call' base k') := by
  induction k generalizing k' with
  | zero => exact fun m => .inl ⟨m, rfl⟩
  | succ k ih =>
    obtain ⟨k', rfl⟩ : ∃ j, k' = j + 1 := ⟨k' - 1, by omega⟩
    refine .bind (cycle_extends hcall base) fun r => ?_
    cases r with
    | some v => exact .refl _
    | none => exact ih (by omega)

theorem invoke_extends {n k : Nat} (hn : n ≤ k) : Callback.Extends (invoke n) (invoke k) := by
  induction n generalizing k with
  | zero => exact fun callee this args m => .inl ⟨m, rfl⟩
  | succ n ih =>
    obtain ⟨k, rfl⟩ : ∃ j, k = j + 1 := ⟨k - 1, by omega⟩
    have hcall := ih (k := k) (by omega)
    intro callee this args
    refine .bind (.refl _) fun m => .bind (.refl _) fun start => ?_
    cases start with
    | entered => exact loop_extends hcall _ (by omega)
    | native body this args constructing => exact runNative_extends hcall body this args constructing

end Exec

end Callbacks

end ScriptMachine
