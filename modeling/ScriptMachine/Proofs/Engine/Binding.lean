import ScriptMachine.Proofs.Engine.Lasting

namespace ScriptMachine

namespace Arity

variable {a : Arity} {slot : Nat}

/-- The parameter that gets the arguments from the positional limit on. -/
def tailSlot? (a : Arity) : Option Nat :=
  a.variadic.filter (· < a.parameters)

end Arity

namespace Attempt

variable {a : Attempt}

abbrev arity (a : Attempt) : Arity :=
  a.closure.template.arity

/-- How many parameters the caller fills by position. -/
def supplied (a : Attempt) : Nat :=
  min a.args.length a.arity.positionalLimit

/-- The array that is made for a tail. -/
def tailArray (a : Attempt) : ArrayId :=
  ⟨a.machine.store.arrays.size⟩

def locals (a : Attempt) : Array Value :=
  let bound := Exec.bindLocals a.closure.template.frameSize (a.args.take a.arity.positionalLimit)
  match a.arity.tailSlot? with
  | some slot => bound.setIfInBounds slot (.array a.tailArray)
  | none => bound

def store (a : Attempt) : Store :=
  match a.arity.tailSlot? with
  | some _ =>
    let tail := a.args.drop (min a.arity.positionalLimit a.closure.template.frameSize)
    (a.machine.store.newArray tail.toArray).2
  | none => a.machine.store

/-- The machine once the function is entered. -/
def entered (a : Attempt) : Machine :=
  { a.asked with
    store := a.store
    frames := a.frame a.locals a.machine.stack.length :: a.machine.frames }

theorem bindArguments_eq (h : ¬ a.args.length < a.arity.minimum) :
    Exec.bindArguments a.closure.template a.args a.asked =
      .ok a.locals { a.asked with store := a.store } := by
  rw [Exec.bindArguments, if_neg h, locals, store, Arity.tailSlot?]
  cases a.arity.variadic.filter (· < a.arity.parameters) with
  | none => rfl
  | some slot => rfl

theorem enter_eq_entered (h : a.refusal? = none) : a.enter a.machine = .ok () a.entered := by
  obtain ⟨hdepth, -⟩ := enter_of_admitted h
  rw [refusal?, if_pos hdepth] at h
  obtain ⟨hobjection, hshortfall⟩ := Option.or_eq_none_iff.1 h
  have henough : ¬ a.args.length < a.arity.minimum := by
    intro hlt
    rw [shortfall?, if_pos hlt] at hshortfall
    cases hshortfall
  have hask := askGuard_eq hdepth
  rw [hobjection] at hask
  rw [enter_eq hdepth, Exec.bind_of_ok hask, Exec.bind_of_ok (bindArguments_eq henough)]
  rfl

/-- The frame `f` has the arguments of the attempt for its locals, with the `store` that goes with
them. -/
structure Binds (a : Attempt) (f : Frame) (store : Store) : Prop where
  size : f.locals.size = a.closure.template.frameSize
  positional : ∀ i < a.supplied, f.locals[i]? = a.args[i]?
  tail : ∀ slot, a.arity.tailSlot? = some slot →
    a.supplied ≤ slot ∧ f.locals[slot]? = some (.array a.tailArray)
  void : ∀ i < a.closure.template.frameSize, a.supplied ≤ i → a.arity.tailSlot? ≠ some i →
    f.locals[i]? = some .void
  supplied : f.supplied = a.supplied
  /-- The tail is all that is new. -/
  collected : a.arity.tailSlot?.isSome → store =
    { a.machine.store with
      arrays := a.machine.store.arrays.push (a.args.drop a.arity.positionalLimit).toArray }
  dropped : a.arity.tailSlot? = none → store = a.machine.store

open Exec

end Attempt

end ScriptMachine
