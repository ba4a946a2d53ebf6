import ScriptMachine.Proofs.Engine.PrivateAccess
import ScriptMachine.Proofs.Model.Places

namespace ScriptMachine

/-- What an access gets of an attribute that was found. -/
def Store.grant (s : Store) (access : Access) (receiver : Value) (name : String) (r : Resolved) :
    Except Cause Value :=
  (s.checkRead access receiver name r).map fun _ => r.attr.value

/-- The answer when a name is not found. -/
def Store.notFound (s : Store) (receiver : Value) (name : String) : Cause :=
  .attributeNotFound name (s.typeName (s.typeOf receiver))

namespace Machine

/-- Every lookup of the name on the receiver goes on with the attribute `r`, or with the refusal of
it. -/
structure Sees (m : Machine) (receiver : Value) (name : String) (r : Resolved) : Prop where
  find : ∀ access, m.store.find access receiver name = m.store.grant access receiver name r
  get : ∀ access, m.store.get access receiver name =
    (m.store.grant access receiver name r).map (m.store.bind receiver)
  running : Exec.find receiver name m = Exec.ofExcept (m.store.grant m.access receiver name r) m
  operator : ∀ o args, o.operator? = some name → Exec.callOperator o receiver args m =
    (do
      let method ← Exec.ofExcept (m.store.grant m.access receiver name r)
      Exec.callAndGoOn method (some receiver) args none) m
  hasEquality : name = "==" → Exec.hasEqualityMethod receiver m = .ok (!receiver.hasBuiltinEquality) m
  notEqual : name = "==" → receiver.hasBuiltinEquality = false → ∀ f rest b left,
    m.frames = f :: rest → f.stackBase ≤ left.length →
    Effect.notEqual { m with stack := b :: receiver :: left } =
      (do
        let method ← Exec.ofExcept (m.store.grant m.access receiver name r)
        return Step.compare method receiver b) { m with stack := left }
  construct : name = "_constructor" → ∀ args, Effect.constructOn receiver args m =
    (do
      let method ← Exec.ofExcept (m.store.grant (.within receiver) receiver name r)
      Exec.callAndGoOn method (some receiver) args (some receiver)) m
  call : name = "_call" → ∀ id this args constructing, receiver = .object id →
    Exec.beginCall receiver this args constructing m =
      (do
        let handler ← Exec.ofExcept (m.store.grant m.access receiver name r)
        if m.store.isPlain handler then Exec.beginCall handler (some receiver) args constructing
        else Exec.fail (.typeMismatch "_call" handler.kindName)) m

/-- Every lookup of the name on the receiver goes on without an attribute. -/
structure SeesNothing (m : Machine) (receiver : Value) (name : String) : Prop where
  find : ∀ access, m.store.find access receiver name = .error (m.store.notFound receiver name)
  get : ∀ access, m.store.get access receiver name = .error (m.store.notFound receiver name)
  running : Exec.find receiver name m = Exec.fail (m.store.notFound receiver name) m
  operator : ∀ o args, o.operator? = some name → Exec.callOperator o receiver args m =
    Exec.fail (.typeMismatch name receiver.kindName) m
  hasEquality : name = "==" → Exec.hasEqualityMethod receiver m = .ok false m
  notEqual : name = "==" → ∀ f rest b left, m.frames = f :: rest → f.stackBase ≤ left.length →
    Effect.notEqual { m with stack := b :: receiver :: left } =
      .ok .next { m with stack := (.bool !(receiver == b)) :: left }
  construct : name = "_constructor" → ∀ args, Effect.constructOn receiver args m =
    .ok .next { m with stack := receiver :: m.stack }
  call : name = "_call" → ∀ id this args constructing, receiver = .object id →
    Exec.beginCall receiver this args constructing m =
      Exec.fail (m.store.notFound receiver name) m

/-- Resolution is the search through the places of the receiver, and every lookup is about what it
ends at. -/
structure SearchesInOrder (m : Machine) (receiver : Value) (name : String) : Prop where
  found : ∀ r, m.store.resolve receiver name = some r ↔
    FirstHit (m.store.places receiver) name r
  absent : m.store.resolve receiver name = none ↔ NoHit (m.store.places receiver) name
  sees : ∀ r, FirstHit (m.store.places receiver) name r → m.Sees receiver name r
  seesNothing : NoHit (m.store.places receiver) name → m.SeesNothing receiver name

end Machine

section Lookups

open Exec

variable {m : Machine} {receiver : Value} {name : String} {r : Resolved}

theorem Store.find_of_resolve {s : Store} (access : Access) (h : s.resolve receiver name = some r) :
    s.find access receiver name = s.grant access receiver name r := by
  rw [find, h]
  rfl

theorem Store.find_of_absent {s : Store} (access : Access) (h : s.resolve receiver name = none) :
    s.find access receiver name = .error (s.notFound receiver name) := by
  rw [find, h]
  rfl

theorem Exec.access_eq (m : Machine) : Exec.access m = .ok m.access m := rfl

theorem Exec.find_eq (m : Machine) (receiver : Value) (name : String) :
    Exec.find receiver name m = ofExcept (m.store.find m.access receiver name) m := by
  rw [Exec.find, get_bind_apply, bind_of_ok (access_eq m)]

theorem Exec.hasEqualityMethod_eq (m : Machine) (v : Value) : hasEqualityMethod v m =
    .ok (!v.hasBuiltinEquality && (m.store.resolve v "==").isSome) m := rfl

theorem Exec.hasEqualityMethod_of_absent (h : m.store.resolve receiver "==" = none) :
    hasEqualityMethod receiver m = .ok false m := by
  rw [hasEqualityMethod_eq, h, Option.isSome_none, Bool.and_false]

theorem Exec.beginCall_object (id : ObjectId) (this : Option Value) (args : List Value)
    (constructing : Option Value) (m : Machine) : beginCall (.object id) this args constructing m =
      (do
        let handler ← Exec.find (.object id) "_call"
        if m.store.isPlain handler then beginCall handler (some (.object id)) args constructing
        else fail (.typeMismatch "_call" handler.kindName)) m := by
  have hdispatch := m.store.dispatch_object m.access id
  have hfind := find_eq m (.object id) "_call"
  cases hread : m.store.find m.access (.object id) "_call" with
  | error c =>
    rw [hread] at hdispatch hfind
    rw [beginCall_of_undispatched (hdispatch _)]
    exact (bind_of_error hfind).symm
  | ok handler =>
    rw [hread] at hdispatch hfind
    rw [bind_of_ok hfind]
    split
    · rename_i hplain
      exact beginCall_congr ((hdispatch _).trans (if_pos hplain))
    · rename_i hplain
      exact beginCall_of_undispatched ((hdispatch _).trans (if_neg hplain))

theorem Machine.sees_of_resolve (h : m.store.resolve receiver name = some r) :
    m.Sees receiver name r := by
  have hrunning : Exec.find receiver name m =
      ofExcept (m.store.grant m.access receiver name r) m := by
    rw [find_eq, Store.find_of_resolve _ h]
  refine ⟨fun access => Store.find_of_resolve access h, fun access => ?_, hrunning, ?_, ?_, ?_, ?_, ?_⟩
  · rw [Store.get, Store.find_of_resolve access h]
  · intro o args ho
    rw [callOperator, ho]
    dsimp only
    rw [get_bind_apply, h]
    exact bind_congr_apply _ hrunning
  · rintro rfl
    rw [hasEqualityMethod_eq, h, Option.isSome_some, Bool.and_true]
  · rintro rfl hrule f rest b left hm hleft
    refine (pop_pop_bind _ hm hleft).trans ((hasEqualityMethod_bind _ hrule h).trans ?_)
    have hfind : Exec.find receiver "==" { m with stack := left } =
        ofExcept (m.store.grant m.access receiver "==" r) { m with stack := left } := by
      rw [find_eq, ← Store.find_of_resolve m.access h]
      rfl
    exact bind_congr_apply _ hfind
  · rintro rfl args
    rw [Effect.constructOn, get_bind_apply, h]
    dsimp only
    rw [Store.find_of_resolve _ h]
  · rintro rfl id this args constructing rfl
    rw [beginCall_object]
    exact bind_congr_apply _ hrunning

theorem Machine.seesNothing_of_resolve (h : m.store.resolve receiver name = none) :
    m.SeesNothing receiver name := by
  have hrunning : Exec.find receiver name m = fail (m.store.notFound receiver name) m := by
    rw [find_eq, Store.find_of_absent _ h]
    rfl
  refine ⟨fun access => Store.find_of_absent access h, fun access => ?_, hrunning, ?_, ?_, ?_, ?_, ?_⟩
  · rw [Store.get, Store.find_of_absent access h]
    rfl
  · intro o args ho
    rw [callOperator, ho]
    dsimp only
    rw [get_bind_apply, h]
  · rintro rfl
    exact hasEqualityMethod_of_absent h
  · rintro rfl f rest b left hm hleft
    have hask : hasEqualityMethod receiver { m with stack := left } =
        .ok false { m with stack := left } := hasEqualityMethod_of_absent h
    exact (pop_pop_bind _ hm hleft).trans (bind_of_ok hask)
  · rintro rfl args
    rw [Effect.constructOn, get_bind_apply, h]
    rfl
  · rintro rfl id this args constructing rfl
    rw [beginCall_object]
    exact bind_of_error hrunning

end Lookups

/-- For every value and every name: resolution ends at the first place of the receiver that has the
name, with the origin of that place, and finds nothing exactly if no place has it; and all lookups are
about the attribute there. -/
theorem resolution_in_order (m : Machine) (receiver : Value) (name : String) :
    m.SearchesInOrder receiver name where
  found := fun _ => Store.resolve_eq_some_iff
  absent := Store.resolve_eq_none_iff
  sees := fun _ hit => Machine.sees_of_resolve (Store.resolve_eq_some_iff.2 hit)
  seesNothing := fun none => Machine.seesNothing_of_resolve (Store.resolve_eq_none_iff.2 none)

end ScriptMachine
