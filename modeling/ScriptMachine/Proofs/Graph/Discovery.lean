import ScriptMachine.Proofs.Graph.BreadthFirst
import ScriptMachine.Proofs.Graph.Stable

namespace ScriptMachine

open List (Forall₂)
open Value (firstContainers refusal?)

namespace Encoder

/-- How steps end that look at the values `l` behind `seen`. All of them have a form, and their
containers were met in this order; or the first one that has none is the reason of failure, unless
the numbers do not suffice. -/
def Visits {α : Type} (seen : List Value) (k : Nat) (l : List Value) :
    EStateM.Result CodecError Encoder α → Prop :=
  Ends
    (fun _ e => l.findSome? refusal? = none ∧ e.Met (fun _ => True) (firstContainers (seen ++ l)) k)
    (fun err _ => l.findSome? refusal? = some err ∨ idLimit < (firstContainers (seen ++ l)).length)

section Visits

variable {α β γ : Type} {s : Store} {seen l m : List Value} {k : Nat} {e : Encoder} {w c : Value}

theorem Visits.bind {x : EncodeM α} {f : α → EncodeM β} (hx : Visits seen k l (x e))
    (hf : ∀ a e', e'.Met (fun _ => True) (firstContainers (seen ++ l)) k →
      Visits (seen ++ l) k m (f a e')) : Visits seen k (l ++ m) ((x >>= f) e) := by
  refine Ends.bind (hx.mono (fun _ _ h => h) ?_) ?_
  · rintro err e' (hfirst | hmany)
    · exact .inl (by rw [List.findSome?_append, hfirst]; rfl)
    · have hle := (firstContainers_prefix_append (seen ++ l) m).length_le
      rw [List.append_assoc] at hle
      exact .inr (Nat.lt_of_lt_of_le hmany hle)
  · rintro a e' ⟨hnone, he'⟩
    rw [← List.append_assoc, List.findSome?_append, hnone]
    exact hf a e' he'

theorem visits_pure (he : e.Met (fun _ => True) (firstContainers seen) k) (a : α) :
    Visits seen k [] ((pure a : EncodeM α) e) := by
  refine ⟨rfl, ?_⟩
  rwa [List.append_nil]

theorem Visits.map {x : EncodeM α} {f : α → β} (hx : Visits seen k l (x e)) :
    Visits seen k l ((x >>= fun a => pure (f a)) e) := by
  have hend := hx.bind fun a e' he' => visits_pure he' (f a)
  rwa [List.append_nil] at hend

theorem slot_of_refusal {err : CodecError} (h : w.refusal? = some err) :
    slot s w e = .error err e := by
  cases w with
  | number n =>
    by_cases hn : n.isFinite = true
    · simp [refusal?, hn] at h
    · simp only [refusal?, hn] at h
      rw [slot, if_neg hn]
      cases h
      rfl
  | function id => cases h; rfl
  | native id => cases h; rfl
  | bound id => cases h; rfl
  | trait id => cases h; rfl
  | hosted id => cases h; rfl
  | _ => cases h

theorem exists_slot_of_plain (hw : w.isContainer = false) (h : w.refusal? = none) :
    ∃ n, slot s w e = .ok n e := by
  cases w with
  | number n =>
    by_cases hn : n.isFinite = true
    · exact ⟨.number n, by simp [slot, hn, Pure.pure, EStateM.pure]⟩
    · simp [refusal?, hn] at h
  | array id => cases hw
  | map id => cases hw
  | object id => cases hw
  | void => exact ⟨_, rfl⟩
  | bool b => exact ⟨_, rfl⟩
  | string t => exact ⟨_, rfl⟩
  | type t => exact ⟨_, rfl⟩
  | _ => cases h

theorem visits_slot (he : e.Met (fun _ => True) (firstContainers seen) k) (w : Value) :
    Visits seen k [w] (slot s w e) := by
  cases hrefusal : w.refusal? with
  | some err =>
    rw [slot_of_refusal hrefusal]
    exact .inl (by simp [hrefusal])
  | none =>
    have hnone : [w].findSome? refusal? = none := by simp [hrefusal]
    cases hw : w.isContainer with
    | false =>
      obtain ⟨n, heq⟩ := exists_slot_of_plain (s := s) (e := e) hw hrefusal
      rw [heq]
      refine ⟨hnone, ?_⟩
      rwa [firstContainers_concat_of_plain hw]
    | true =>
      obtain ⟨i, hi, heq⟩ | ⟨hnew, e', heq, he', -⟩ | ⟨hnew, hfull, heq⟩ :=
        he.container_cases (s := s) hw trivial
      · rw [heq]
        refine ⟨hnone, ?_⟩
        rwa [firstContainers_concat_of_mem (List.mem_of_getElem? hi)]
      · rw [heq]
        refine ⟨hnone, ?_⟩
        rwa [firstContainers_concat_of_notMem hw hnew]
      · rw [heq]
        refine .inr ?_
        rw [firstContainers_concat_of_notMem hw hnew, List.length_append, List.length_singleton]
        omega

theorem visits_packAll {value : α → Value} {pack : α → Node → β} (as : List α)
    (he : e.Met (fun _ => True) (firstContainers seen) k) :
    Visits seen k (as.map value) (packAll s value pack as e) := by
  induction as generalizing seen e with
  | nil => exact visits_pure he []
  | cons a as ih =>
    refine (visits_slot he (value a)).bind (m := as.map value) fun n e₁ he₁ => ?_
    exact (ih he₁).map

/-- Writing a record looks at what the container holds. -/
theorem visits_record (he : e.Met (fun _ => True) (firstContainers seen) k)
    (hc : c.isContainer = true) : Visits seen k (s.contents c) (record s c e) := by
  cases c with
  | array i =>
    rw [record, slots_eq_packAll]
    rw [show s.contents (.array i) = (s.array i).toList.map id from (List.map_id _).symm]
    exact (visits_packAll _ he).map
  | map id =>
    rw [record, entries_eq_packAll]
    exact (visits_packAll _ he).map
  | object id =>
    rw [record, fields_eq_packAll]
    exact (visits_packAll _ he).map
  | _ => cases hc

end Visits

/-- The first value without a form decides the error; or there are too many containers. -/
def Fails (s : Store) (v : Value) (err : CodecError) : Prop :=
  ∃ n, (s.levels v n).findSome? refusal? = some err ∨
    idLimit < (firstContainers (s.levels v n)).length

/-- An encoder on its way from `v`. The containers that it has met are those found in what the first
`k` of them hold, all of which has a form; and they were discovered in this order. -/
structure Walked (s : Store) (v : Value) (order : List Value) (k : Nat) (e : Encoder) : Prop where
  met : e.Met (fun _ => True) order k
  found : order = firstContainers (v :: (order.take k).flatMap s.contents)
  fine : (v :: (order.take k).flatMap s.contents).findSome? refusal? = none
  near : ∃ n, order <+: firstContainers (s.levels v n)

section Walk

variable {s : Store} {v c : Value} {order : List Value} {k n : Nat} {e : Encoder}

theorem fails_of_visited {l : List Value} {err : CodecError}
    (hnear : l <+: firstContainers (s.levels v n))
    (h : (v :: l.flatMap s.contents).findSome? refusal? = some err ∨
      idLimit < (firstContainers (v :: l.flatMap s.contents)).length) : Fails s v err := by
  refine ⟨n + 1, h.imp (Store.findSome?_levels hnear) fun hmany => ?_⟩
  exact Nat.lt_of_lt_of_le hmany (Store.firstContainers_prefix_levels hnear).length_le

theorem Walked.record (h : Walked s v order k e) {rest : List Value}
    (hrest : e.pending = c :: rest) :
    Ends (fun _ e' => ∃ order', Walked s v order' (k + 1) e') (fun err _ => Fails s v err)
      (record s c { e with pending := rest }) := by
  obtain ⟨n, hnear⟩ := h.near
  obtain ⟨hk, hmet⟩ := h.met.takeUp hrest
  obtain ⟨hlt, hget⟩ := List.getElem?_eq_some_iff.1 hk
  have htake : order.take (k + 1) = order.take k ++ [c] := by
    rw [List.take_succ_eq_append_getElem hlt, hget]
  -- one container more was looked through
  have hseen : v :: (order.take k).flatMap s.contents ++ s.contents c =
      v :: (order.take (k + 1)).flatMap s.contents := by
    rw [htake, List.flatMap_append, List.flatMap_singleton, List.cons_append]
  have hnear' : order.take (k + 1) <+: firstContainers (s.levels v n) :=
    List.IsPrefix.trans (List.take_prefix ..) hnear
  have hc := (h.met.kinds c (List.mem_of_getElem? hk)).1
  nth_rewrite 1 [h.found] at hmet
  refine (visits_record hmet hc).mono ?_ ?_
  · rintro _ e' ⟨hnone, he'⟩
    rw [hseen] at he'
    have hgrow : order <+: firstContainers (v :: (order.take (k + 1)).flatMap s.contents) := by
      rw [← hseen]
      nth_rewrite 1 [h.found]
      exact firstContainers_prefix_append ..
    have hsame : (firstContainers (v :: (order.take (k + 1)).flatMap s.contents)).take (k + 1) =
        order.take (k + 1) := by
      obtain ⟨more, hmore⟩ := hgrow
      rw [← hmore, List.take_append_of_le_length hlt]
    refine ⟨_, he', by rw [hsame], ?_, n + 1, Store.firstContainers_prefix_levels hnear'⟩
    rw [hsame, ← hseen, List.findSome?_append, h.fine, hnone]
    rfl
  · rintro err e' herr
    refine fails_of_visited hnear' ?_
    rw [← hseen, List.findSome?_append, h.fine]
    exact herr

theorem Walked.drain (h : Walked s v order k e) (hn : idLimit ≤ n + k) :
    Ends (fun _ e' => ∃ order', Walked s v order' order'.length e') (fun err _ => Fails s v err)
      (drain s n e) := by
  have hdone {order : List Value} {k : Nat} {e : Encoder} (h : Walked s v order k e)
      (hk : order.length ≤ k) : ∃ order', Walked s v order' order'.length e := by
    obtain rfl : k = order.length := Nat.le_antisymm h.met.taken hk
    exact ⟨order, h⟩
  induction n generalizing order k e with
  | zero =>
    have := h.met.limit
    exact hdone h (by omega)
  | succ n ih =>
    cases hp : e.pending with
    | nil =>
      rw [drain_nil s n hp]
      exact hdone h (List.drop_eq_nil_iff.1 (h.met.pending.symm.trans hp))
    | cons c rest =>
      rw [drain_cons s n hp]
      refine .bind (h.record hp) ?_
      rintro r e₁ ⟨order₁, h₁⟩
      exact ih (k := k + 1) ⟨h₁.met.push r, h₁.found, h₁.fine, h₁.near⟩ (by omega)

theorem walked_slot (s : Store) (v : Value) :
    Ends (fun _ e => Walked s v (firstContainers [v]) 0 e) (fun err _ => Fails s v err)
      (slot s v {}) := by
  have hstart : Met (fun _ => True) (firstContainers []) 0 {} := Met.start _
  refine (visits_slot hstart v).mono ?_ ?_
  · rintro _ e ⟨hnone, he⟩
    exact ⟨he, rfl, hnone, 1, List.prefix_rfl⟩
  · rintro err e herr
    exact fails_of_visited (n := 0) List.nil_prefix herr

theorem Walked.pending_eq_nil (h : Walked s v order order.length e) : e.pending = [] := by
  rw [h.met.pending, List.drop_length]

theorem walked_encode (s : Store) (v : Value) :
    Ends (fun _ e => ∃ order, Walked s v order order.length e) (fun err _ => Fails s v err)
      (encode s v {}) := by
  refine Ends.bind (walked_slot s v) fun node e h => ?_
  change Ends _ _ ((Encoder.drain s (idLimit + e.pending.length) >>= fun _ => pure node) e)
  exact .bind (h.drain (by omega)) fun _ _ h => h

theorem drain_add (h : Ends (fun _ e' => e'.pending = []) (fun _ _ => True) (drain s n e)) (m : Nat) :
    drain s (n + m) e = drain s n e := by
  induction n generalizing e with
  | zero =>
    have hp : e.pending = [] := h
    cases m with
    | zero => rfl
    | succ m => rw [Nat.zero_add, drain_nil s m hp]; rfl
  | succ n ih =>
    rw [Nat.add_right_comm]
    cases hp : e.pending with
    | nil => rw [drain_nil s n hp, drain_nil s (n + m) hp]
    | cons c rest =>
      rw [drain_cons s n hp] at h ⊢
      rw [drain_cons s (n + m) hp]
      change Ends _ _ (EStateM.bind _ _ _) at h
      change EStateM.bind _ _ _ = EStateM.bind _ _ _
      unfold EStateM.bind at h ⊢
      cases hr : Encoder.record s c { e with pending := rest } with
      | error err e₁ => rfl
      | ok r e₁ =>
        rw [hr] at h
        exact ih h

/-- Encoding that is broken off after some rounds. -/
def encodeWithin (s : Store) (rounds : Nat) (v : Value) : EncodeM Node := do
  let node ← slot s v
  drain s rounds
  return node

theorem encodeWithin_eq (s : Store) (v : Value) {rounds : Nat} (h : idLimit ≤ rounds) :
    encodeWithin s rounds v {} = encode s v {} := by
  have hslot := walked_slot s v
  change EStateM.bind _ _ _ = EStateM.bind _ _ _
  unfold EStateM.bind
  cases hr : slot s v {} with
  | error err e => rfl
  | ok node e =>
    rw [hr] at hslot
    have hends : Ends (fun _ e' => e'.pending = []) (fun _ _ => True) (Encoder.drain s idLimit e) := by
      refine (Walked.drain hslot (Nat.le_refl _)).mono ?_ fun _ _ _ => trivial
      rintro _ e' ⟨order, h'⟩
      exact h'.pending_eq_nil
    obtain ⟨m, rfl⟩ := Nat.exists_eq_add_of_le h
    change (Encoder.drain s (idLimit + m) >>= fun _ => pure node) e =
      (Encoder.drain s (idLimit + e.pending.length) >>= fun _ => pure node) e
    change EStateM.bind _ _ _ = EStateM.bind _ _ _
    unfold EStateM.bind
    rw [drain_add hends, drain_add hends]

end Walk

theorem Met.order_unique {P Q : Value → Prop} {order order' : List Value} {k k' : Nat} {e : Encoder}
    (h : e.Met P order k) (h' : e.Met Q order' k') : order = order' :=
  List.ext_getElem? fun i => (h.values i).symm.trans (h'.values i)

theorem not_lt_firstContainers {s : Store} {v : Value} (hfew : ¬ s.TooMany v) (n : Nat) :
    ¬ idLimit < (firstContainers (s.levels v n)).length := by
  refine fun hmany => hfew ⟨_, nodup_firstContainers _, hmany, fun c hc => ?_⟩
  obtain ⟨hmem, hcontainer⟩ := mem_firstContainers.1 hc
  exact ⟨hcontainer, Store.reach_of_mem_levels hmem⟩

end Encoder

/-- The graph has one record for each container that is reached from `v`, in the order of discovery,
with the slots of the container, and refers to no others. -/
structure Graph.Lists (s : Store) (v : Value) (order : List Value) (g : Graph) : Prop where
  discovered : s.BreadthFirst v order
  nodup : order.Nodup
  complete : ∀ c, c ∈ order ↔ c ∈ s.containers v
  root : NodeFor s order v g.root
  records : Forall₂ (RecordFor s order) order g.records
  valid : ∀ i, Node.ref i ∈ g.nodes → i < g.records.length

section Output

variable {s : Store} {v : Value}

theorem Encoder.Walked.encodable {order : List Value} {e : Encoder}
    (h : Encoder.Walked s v order order.length e) (hall : ∀ c ∈ s.containers v, c ∈ order) {w : Value}
    (hw : s.Reach v w) : w.Encodable := by
  have hmem : w ∈ v :: order.flatMap s.contents := by
    cases hw with
    | refl => exact List.mem_cons_self ..
    | @step c _ hc hmem =>
      have hcontainer := Store.isContainer_of_mem_contents hmem
      exact List.mem_cons_of_mem _ (List.mem_flatMap.2 ⟨c, hall c ⟨hc, hcontainer⟩, hmem⟩)
  have hfine := h.fine
  rw [List.take_length, List.findSome?_eq_none_iff] at hfine
  exact Value.refusal?_eq_none_iff.1 (hfine w hmem)

/-- What is written is the list of the containers in the order of discovery. -/
theorem Store.lists_of_encode {g : Graph} (h : s.encode v = .ok g) :
    (∃ order, g.Lists s v order) ∧ ∀ w, s.Reach v w → w.Encodable := by
  have hends := Encoder.encode_ends s v
  have hwalked := Encoder.walked_encode s v
  unfold Store.encode at h
  cases hr : Encoder.encode s v {} with
  | error err e =>
    rw [hr] at h
    cases h
  | ok root e =>
    rw [hr] at h hends hwalked
    cases h
    obtain ⟨order, hmet, hdescribes⟩ := hends
    obtain ⟨order', hwalk⟩ := hwalked
    -- both are the numbers that the encoder has given
    obtain rfl : order = order' := hmet.order_unique hwalk.met
    have hall : ∀ c, c ∈ order ↔ c ∈ s.containers v := fun c =>
      ⟨fun hc => ⟨hdescribes.reached c hc, hdescribes.containers c hc⟩,
        fun hc => hdescribes.mem_order hc.1 hc.2⟩
    -- a lookup that knows every name, since the numbers do not depend on it
    have hclosed : Graph.Closed (fun _ => some default) ⟨root, e.records.toList⟩ :=
      hdescribes.closed fun _ _ => rfl
    obtain ⟨n, hnear⟩ := hwalk.near
    have hfound := hwalk.found
    rw [List.take_length] at hfound
    refine ⟨⟨order, Store.breadthFirst_of_closed hfound hnear, hdescribes.nodup, hall,
      hdescribes.root, hdescribes.records, fun i hi => hclosed.known hi⟩, fun w hw => ?_⟩
    exact hwalk.encodable (fun c hc => (hall c).2 hc) hw

theorem Store.refusal_of_encode (hfew : ¬ s.TooMany v) {err : CodecError}
    (h : s.encode v = .error err) : ∃ n, (s.levels v n).findSome? refusal? = some err := by
  have hwalked := Encoder.walked_encode s v
  unfold Store.encode at h
  cases hr : Encoder.encode s v {} with
  | ok root e =>
    rw [hr] at h
    cases h
  | error err' e =>
    rw [hr] at h hwalked
    cases h
    obtain ⟨n, hfirst | hmany⟩ := hwalked
    · exact ⟨n, hfirst⟩
    · exact absurd hmany (Encoder.not_lt_firstContainers hfew n)

end Output

/-- The outcome of encoding, when there are no more containers than numbers. The walk ends by itself.
It succeeds exactly when all that is reached has a form, and then the graph lists the containers in
the order of discovery; otherwise the error is that of the first value without a form, in the same
order. -/
theorem Store.encode_outcome (s : Store) (v : Value) (hfew : ¬ s.TooMany v) :
    ((∀ rounds, idLimit ≤ rounds → Encoder.encodeWithin s rounds v {} = Encoder.encode s v {}) ∧
      ∀ root e, Encoder.encode s v {} = .ok root e → e.pending = []) ∧
    ((∃ g, s.encode v = .ok g) ↔ ∀ w, s.Reach v w → w.Encodable) ∧
    (∀ g, s.encode v = .ok g → ∃ order, g.Lists s v order) ∧
    ∀ err, s.encode v = .error err → ∃ n, (s.levels v n).findSome? Value.refusal? = some err := by
  refine ⟨⟨fun rounds h => Encoder.encodeWithin_eq s v h, fun root e h => ?_⟩, ⟨?_, fun hall => ?_⟩,
    fun g h => (Store.lists_of_encode h).1, fun err h => Store.refusal_of_encode hfew h⟩
  · have hwalked := Encoder.walked_encode s v
    rw [h] at hwalked
    obtain ⟨order, hwalk⟩ := hwalked
    exact hwalk.pending_eq_nil
  · rintro ⟨g, h⟩
    exact (Store.lists_of_encode h).2
  · cases h : s.encode v with
    | ok g => exact ⟨g, rfl⟩
    | error err =>
      obtain ⟨n, hfirst⟩ := Store.refusal_of_encode hfew h
      obtain ⟨w, hw, hrefusal⟩ := List.exists_of_findSome?_eq_some hfirst
      have hnone := Value.refusal?_eq_none_iff.2 (hall w (Store.reach_of_mem_levels hw))
      rw [hrefusal] at hnone
      cases hnone

theorem Store.not_tooMany_of_reach {s : Store} {v : Value} {l : List Value}
    (h : ∀ w, s.Reach v w → w ∈ l) (hl : l.length ≤ idLimit) : ¬ s.TooMany v := by
  rintro ⟨m, hnodup, hlong, hm⟩
  have hsub : m ⊆ l := fun c hc => h c (hm c hc).2
  have hle := (List.subperm_of_subset hnodup hsub).length_le
  omega

/-- Lists with a ring. The way that is tried first leads to a native function, but the script function
is one level nearer to list 0. -/
def maze : Store where
  arrays := #[#[.array ⟨1⟩, .array ⟨2⟩], #[.array ⟨3⟩, .array ⟨0⟩], #[.function ⟨0⟩],
    #[.array ⟨2⟩, .native ⟨0⟩]]

theorem reach_maze {w : Value} (hw : maze.Reach (.array ⟨0⟩) w) :
    w ∈ [.array ⟨0⟩, .array ⟨1⟩, .array ⟨2⟩, .array ⟨3⟩, .function ⟨0⟩, .native ⟨0⟩] := by
  induction hw with
  | refl => exact List.mem_cons_self ..
  | step _ hmem ih =>
    simp only [List.mem_cons, List.not_mem_nil, or_false] at ih ⊢
    rcases ih with rfl | rfl | rfl | rfl | rfl | rfl <;>
      simp [Store.contents, Store.array, maze] at hmem <;> tauto

theorem encode_outcome_maze :
    (maze.encode (.array ⟨0⟩) = .error (.unsupported "UserFunction") ∧
      ∃ n, (maze.levels (.array ⟨0⟩) n).findSome? Value.refusal? =
        some (.unsupported "UserFunction")) ∧
    ∃ g order, knot.encode (.array ⟨0⟩) = .ok g ∧ g.Lists knot (.array ⟨0⟩) order := by
  have hmaze : ¬ maze.TooMany (.array ⟨0⟩) :=
    Store.not_tooMany_of_reach (fun _ => reach_maze) (by decide)
  have hknot : ¬ knot.TooMany (.array ⟨0⟩) := by
    refine Store.not_tooMany_of_reach
      (l := [.array ⟨0⟩, .object ⟨0⟩, .type ⟨0⟩, .string "knot"]) (fun w hw => ?_) (by decide)
    simpa using reach_knot hw
  obtain ⟨-, -, -, herror⟩ := Store.encode_outcome maze (.array ⟨0⟩) hmaze
  obtain ⟨-, -, hlists, -⟩ := Store.encode_outcome knot (.array ⟨0⟩) hknot
  obtain ⟨order, horder⟩ := hlists _ rfl
  exact ⟨⟨rfl, herror _ rfl⟩, _, order, rfl, horder⟩

end ScriptMachine
