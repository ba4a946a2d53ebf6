import ScriptMachine.Model.Access

namespace ScriptMachine

namespace Store

/-- Whether a value is a function or a function tied to a receiver. -/
def isPlain (s : Store) : Value → Bool
  | .bound id => (s.bound id).method.callable?.isSome
  | v => v.callable?.isSome

/-- A measure of how far a call may be passed on. -/
def callRank (s : Store) : Value → Nat
  | .bound id => if s.isPlain (.bound id) then 1 else id.index + 3
  | .object _ => 2
  | _ => 0

theorem callRank_bound_le (s : Store) (id : BoundId) : s.callRank (.bound id) ≤ id.index + 3 := by
  change (if s.isPlain (.bound id) then 1 else id.index + 3) ≤ id.index + 3
  split <;> omega

theorem callRank_method_lt (s : Store) (id : BoundId) :
    s.callRank (s.bound id).method < s.callRank (.bound id) := by
  have hbelow : (s.bound id).method.BoundBelow id.index := s.bounds.boundBelow_get id.index
  change _ < if s.isPlain (.bound id) then 1 else id.index + 3
  rw [isPlain]
  cases hmethod : (s.bound id).method with
  | bound inner =>
    rw [hmethod] at hbelow
    exact Nat.lt_of_le_of_lt (s.callRank_bound_le inner) (Nat.add_lt_add_right hbelow 3)
  | _ => simp [callRank, Value.callable?]

theorem callRank_lt_of_isPlain {s : Store} {handler : Value} (h : s.isPlain handler = true)
    (id : ObjectId) : s.callRank handler < s.callRank (.object id) := by
  cases handler with
  | bound inner =>
    rw [callRank, if_pos h]
    exact Nat.one_lt_two
  | object inner => cases h
  | _ => exact Nat.two_pos

/-- What a call runs, and on whose behalf. A bound method passes it on to its method, and an object
to its `_call` attribute. That has to be a plain function, so that no object passes a call on to
itself. -/
@[semireducible]
def dispatch (s : Store) (access : Access) (callee this : Value) :
    Except Cause (Callable × Value) :=
  match callee with
  | .function id => .ok (.function id, this)
  | .native id => .ok (.native id, this)
  | .bound id => s.dispatch access (s.bound id).method (s.bound id).receiver
  | .object id => do
    let handler ← s.find access (.object id) "_call"
    if _h : s.isPlain handler = true then s.dispatch access handler (.object id)
    else .error (.typeMismatch "_call" handler.kindName)
  | v => .error (.typeMismatch "call" v.kindName)
termination_by s.callRank callee
decreasing_by
  · exact s.callRank_method_lt id
  · exact callRank_lt_of_isPlain _h id

end Store

end ScriptMachine
