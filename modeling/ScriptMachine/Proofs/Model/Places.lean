import ScriptMachine.Proofs.Model.Chain

namespace ScriptMachine

/-- A map of attributes, and the origin of what is found in it. -/
structure Place where
  origin : Origin
  attributes : Attributes

/-- The places that a type adds to a search. -/
def TypeCell.places (c : TypeCell) (t : TypeId) : List Place :=
  ⟨.type t, c.attributes⟩ ::
    c.traits.reverse.map fun snapshot => ⟨.trait t snapshot.name, snapshot.attributes⟩

namespace Store

/-- The places of a type and of its bases. -/
def typePlaces (s : Store) (t : TypeId) : List Place :=
  (s.chain t).flatMap fun u => (s.type u).places u

/-- The places of the receiver itself. A type has those of its chain. -/
def ownPlaces (s : Store) : Value → List Place
  | .object id => [⟨.own, (s.object id).attributes⟩]
  | .function id => [⟨.own, (s.function id).attributes⟩]
  | .trait id => [⟨.own, (s.trait id).attributes⟩]
  | .type t => s.typePlaces t
  | _ => []

/-- All places where a name is searched on a receiver, in their order. -/
def places (s : Store) (receiver : Value) : List Place :=
  s.ownPlaces receiver ++ s.typePlaces (s.typeOf receiver)

end Store

/-- The first place that has the name has `r` under it. -/
def FirstHit (places : List Place) (name : String) (r : Resolved) : Prop :=
  ∃ before place after, places = before ++ place :: after ∧
    (∀ p ∈ before, p.attributes.get? name = none) ∧
    place.attributes.get? name = some r.attr ∧ place.origin = r.origin

/-- No place has the name. -/
def NoHit (places : List Place) (name : String) : Prop :=
  ∀ p ∈ places, p.attributes.get? name = none

def Place.find? (p : Place) (name : String) : Option Resolved :=
  (p.attributes.get? name).map fun a => ⟨a, p.origin⟩

def search (name : String) (places : List Place) : Option Resolved :=
  places.findSome? (·.find? name)

section Search

variable {l l' : List Place} {p : Place} {name : String} {r : Resolved}

theorem Place.find?_eq_none_iff : p.find? name = none ↔ p.attributes.get? name = none :=
  Option.map_eq_none_iff

theorem Place.find?_eq_some_iff :
    p.find? name = some r ↔ p.attributes.get? name = some r.attr ∧ p.origin = r.origin := by
  unfold find?
  constructor
  · intro h
    obtain ⟨a, ha, rfl⟩ := Option.map_eq_some_iff.1 h
    exact ⟨ha, rfl⟩
  · rintro ⟨ha, horigin⟩
    rw [ha, Option.map_some, horigin]

theorem search_eq_some_iff : search name l = some r ↔ FirstHit l name r := by
  unfold search FirstHit
  rw [List.findSome?_eq_some_iff]
  simp only [Place.find?_eq_some_iff, Place.find?_eq_none_iff]
  refine exists_congr fun before => exists_congr fun place => exists_congr fun after => ?_
  exact and_congr_right fun _ => and_comm

theorem search_eq_none_iff : search name l = none ↔ NoHit l name := by
  unfold search NoHit
  rw [List.findSome?_eq_none_iff]
  simp only [Place.find?_eq_none_iff]

theorem search_append : search name (l ++ l') = (search name l).or (search name l') :=
  List.findSome?_append

theorem search_cons : search name (p :: l) = (p.find? name).or (search name l) := by
  unfold search
  rw [List.findSome?_cons]
  cases p.find? name <;> rfl

end Search

theorem TypeCell.search_places (c : TypeCell) (t : TypeId) (name : String) :
    search name (c.places t) = c.find? t name := by
  rw [places, search_cons, Place.find?, TypeCell.find?]
  cases c.attributes.get? name with
  | some a => rfl
  | none =>
    rw [Option.map_none, Option.none_or, search, List.findSome?_map]
    rfl

namespace Store

variable (s : Store) (receiver : Value) (name : String)

theorem search_typePlaces (t : TypeId) : search name (s.typePlaces t) = s.lookup t name := by
  unfold typePlaces lookup
  induction s.chain t with
  | nil => rfl
  | cons u us ih =>
    rw [List.flatMap_cons, search_append, TypeCell.search_places, ih, List.findSome?_cons]
    cases (s.type u).find? u name <;> rfl

theorem search_ownPlaces : search name (s.ownPlaces receiver) = s.resolveOwn receiver name := by
  have hmap (as : Attributes) :
      search name [⟨.own, as⟩] = (as.get? name).map fun a => ⟨a, .own⟩ := by
    rw [search_cons]
    exact Option.or_none
  cases receiver with
  | object id => exact hmap _
  | function id => exact hmap _
  | trait id => exact hmap _
  | type t => exact s.search_typePlaces name t
  | _ => rfl

theorem search_places : search name (s.places receiver) = s.resolve receiver name := by
  rw [places, search_append, search_ownPlaces, search_typePlaces, resolve]

variable {s receiver name} {r : Resolved}

theorem resolve_eq_some_iff :
    s.resolve receiver name = some r ↔ FirstHit (s.places receiver) name r := by
  rw [← search_places, search_eq_some_iff]

theorem resolve_eq_none_iff :
    s.resolve receiver name = none ↔ NoHit (s.places receiver) name := by
  rw [← search_places, search_eq_none_iff]

end Store

end ScriptMachine
