import Mathlib.Logic.Relation
import ScriptMachine.Model.Dispatch
import ScriptMachine.Proofs.Model.Causes

namespace ScriptMachine

namespace Store

/-- One step of a call, from what is called to what that passes the call on to. -/
inductive PassesOn (s : Store) (access : Access) : Value → Value → Prop
  | method (id : BoundId) : PassesOn s access (.bound id) (s.bound id).method
  | handler {id : ObjectId} {v : Value} (hfind : s.find access (.object id) "_call" = .ok v)
      (hplain : s.isPlain v = true) : PassesOn s access (.object id) v

variable {s : Store} {access : Access} {callee this v w self : Value} {method : Callable}
  {c : Cause}

theorem dispatch_bound (s : Store) (access : Access) (id : BoundId) (this : Value) :
    s.dispatch access (.bound id) this =
      s.dispatch access (s.bound id).method (s.bound id).receiver := by
  rw [dispatch]

theorem dispatch_object (s : Store) (access : Access) (id : ObjectId) (this : Value) :
    s.dispatch access (.object id) this = (do
      let handler ← s.find access (.object id) "_call"
      if s.isPlain handler then s.dispatch access handler (.object id)
      else .error (.typeMismatch "_call" handler.kindName)) := by
  rw [dispatch]
  rfl

/-- Only a function that is called itself gets the receiver of the call. -/
theorem dispatch_receiver (h : callee.callable? = none) (this this' : Value) :
    s.dispatch access callee this = s.dispatch access callee this' := by
  cases callee with
  | function id => cases h
  | native id => cases h
  | bound id => rw [dispatch_bound, dispatch_bound]
  | object id => rw [dispatch_object, dispatch_object]
  | _ => rfl

/-- An object whose handler is tied to the object itself is not called. -/
example :
    ({ objects := #[⟨Builtin.object.id, .ofList [("_call", ⟨.bound ⟨0⟩, {}⟩)]⟩]
       bounds := .push .empty ⟨.void, .object ⟨0⟩⟩ trivial } : Store).dispatch .host (.bound ⟨0⟩)
      .void = .error (.typeMismatch "_call" "BoundMethod") := rfl

theorem dispatch_kind (h : s.dispatch access callee this = .error c) : c.kind ≠ .internal := by
  fun_induction dispatch s access callee this with
  | case1 => cases h
  | case2 => cases h
  | case3 this id ih => exact ih h
  | case4 this id ih =>
    rcases exceptBind_eq_error h with hfind | ⟨handler, -, h⟩
    · exact find_kind hfind
    · split at h
      · rename_i hplain
        exact ih handler hplain h
      · cases h
        nofun
  | case5 => cases h; nofun

end Store

end ScriptMachine
