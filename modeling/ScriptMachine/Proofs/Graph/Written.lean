import Mathlib.Data.List.Forall2
import ScriptMachine.Proofs.Graph.Reach

namespace ScriptMachine

open List (Forall₂)

/-- The node stands for the value when containers are numbered by `order`. -/
inductive NodeFor (s : Store) (order : List Value) : Value → Node → Prop
  | void : NodeFor s order .void .void
  | bool (b : Bool) : NodeFor s order (.bool b) (.bool b)
  | number (n : Float) : NodeFor s order (.number n) (.number n)
  | string (t : String) : NodeFor s order (.string t) (.string t)
  | type (t : TypeId) : NodeFor s order (.type t) (.type (s.typeName t))
  | ref {c : Value} {i : Nat} (hc : c.isContainer = true) (h : order[i]? = some c) :
      NodeFor s order c (.ref i)

/-- The record describes the container, slot by slot. -/
inductive RecordFor (s : Store) (order : List Value) : Value → Record → Prop
  | array {id : ArrayId} {items : List Node}
      (h : Forall₂ (NodeFor s order) (s.array id).toList items) :
      RecordFor s order (.array id) (.array items)
  | map {id : MapId} {entries : List Entry}
      (h : Forall₂ (fun e f => f.key = e.1 ∧ NodeFor s order e.2 f.value)
        (s.map id).entries entries) : RecordFor s order (.map id) (.map entries)
  | object {id : ObjectId} {fields : List Field}
      (h : Forall₂ (fun e f => f.name = e.1 ∧ f.isPrivate = e.2.flags.isPrivate ∧
        f.isConstant = e.2.flags.isConstant ∧ NodeFor s order e.2.value f.value)
        (s.object id).attributes.entries fields) :
      RecordFor s order (.object id) (.object (s.typeName (s.object id).type) fields)

section Growth

variable {s : Store} {order order' : List Value}

theorem getElem?_grow {i : Nat} {c : Value} (h : order <+: order') (hi : order[i]? = some c) :
    order'[i]? = some c := by
  obtain ⟨rest, rfl⟩ := h
  have hlt := (List.getElem?_eq_some_iff.1 hi).1
  rw [List.getElem?_append_left hlt, hi]

theorem exists_getElem?_of_forall₂ {α β : Type} {R : α → β → Prop} {l : List α} {m : List β}
    {i : Nat} {a : α} (h : Forall₂ R l m) (hi : l[i]? = some a) : ∃ b, m[i]? = some b ∧ R a b := by
  obtain ⟨hlt, rfl⟩ := List.getElem?_eq_some_iff.1 hi
  have hlt' : i < m.length := h.length_eq ▸ hlt
  exact ⟨m[i], List.getElem?_eq_getElem hlt', h.get hlt hlt'⟩

theorem getElem?_append_singleton {i : Nat} {c w : Value} :
    (order ++ [w])[i]? = some c ↔ order[i]? = some c ∨ i = order.length ∧ w = c := by
  rw [List.getElem?_append]
  by_cases hi : i < order.length
  · have hne : i ≠ order.length := by omega
    simp [hi, hne]
  · have hnone : order[i]? = none := List.getElem?_eq_none (Nat.le_of_not_lt hi)
    by_cases heq : i = order.length
    · simp [heq]
    · have hpos : 0 < i - order.length := by omega
      simp [hi, heq, Nat.ne_of_gt hpos]

theorem NodeFor.grow {w : Value} {n : Node} (hn : NodeFor s order w n) (h : order <+: order') :
    NodeFor s order' w n := by
  cases hn with
  | void => exact .void
  | bool b => exact .bool b
  | number x => exact .number x
  | string t => exact .string t
  | type t => exact .type t
  | ref hc hi => exact .ref hc (getElem?_grow h hi)

theorem RecordFor.grow {c : Value} {r : Record} (hr : RecordFor s order c r) (h : order <+: order') :
    RecordFor s order' c r := by
  cases hr with
  | array hs => exact .array (hs.imp fun _ _ hn => hn.grow h)
  | map hs => exact .map (hs.imp fun _ _ hn => ⟨hn.1, hn.2.grow h⟩)
  | object hs => exact .object (hs.imp fun _ _ hn => ⟨hn.1, hn.2.1, hn.2.2.1, hn.2.2.2.grow h⟩)

end Growth

/-- An encoder that has met the containers `order`, all of them with `P`, and taken the first `k` of
them up. -/
structure Encoder.Met (P : Value → Prop) (order : List Value) (k : Nat) (e : Encoder) : Prop where
  kinds : ∀ c ∈ order, c.isContainer = true ∧ P c
  nodup : order.Nodup
  ids : ∀ c : Value, c.isContainer = true → ∀ i, e.registry.idOf? c = some i ↔ order[i]? = some c
  values : ∀ i, e.registry.get? i = order[i]?
  next : e.registry.next = order.length
  limit : order.length ≤ idLimit
  pending : e.pending = order.drop k
  taken : k ≤ order.length

theorem Encoder.Met.start (P : Value → Prop) : Encoder.Met P [] 0 {} := by
  refine ⟨fun c hc => absurd hc List.not_mem_nil, List.nodup_nil, ?_, fun _ => rfl, rfl,
    Nat.zero_le _, rfl, Nat.le_refl _⟩
  intro c hc i
  obtain ⟨cell, hcell⟩ := Value.exists_identity hc
  simp [Registry.idOf?, hcell]

/-- Why an encoder that has met `order` fails when what it looks at has `P`: graphs have no form for
a value, or there is one container more than numbers. -/
inductive Encoder.Refuses (P : Value → Prop) (order : List Value) : CodecError → Prop
  | noForm {w : Value} {err : CodecError} (hP : P w) (hw : ¬ w.Encodable) : Refuses P order err
  | exhausted {w : Value} (hP : P w) (hw : w.isContainer = true) (hnew : w ∉ order)
      (hlimit : idLimit ≤ order.length) : Refuses P order .idsExhausted

namespace Encoder

/-- How steps of the encoder may end: with a result and `J`, or with an error and `E`. -/
def Ends {α : Type} (J : α → Encoder → Prop) (E : CodecError → Encoder → Prop) :
    EStateM.Result CodecError Encoder α → Prop
  | .ok a e => J a e
  | .error err e => E err e

section Rules

variable {α β : Type} {J J' : α → Encoder → Prop} {K : β → Encoder → Prop}
  {E E' : CodecError → Encoder → Prop}

theorem Ends.mono {r : EStateM.Result CodecError Encoder α} (h : Ends J E r)
    (hJ : ∀ a e, J a e → J' a e) (hE : ∀ err e, E err e → E' err e) : Ends J' E' r := by
  cases r with
  | ok a e => exact hJ a e h
  | error err e => exact hE err e h

theorem Ends.bind {x : EncodeM α} {f : α → EncodeM β} {e : Encoder} (hx : Ends J E (x e))
    (hf : ∀ a e', J a e' → Ends K E (f a e')) : Ends K E ((x >>= f) e) := by
  change Ends K E (EStateM.bind x f e)
  unfold EStateM.bind
  cases hr : x e with
  | ok a e' =>
    rw [hr] at hx
    exact hf a e' hx
  | error err e' =>
    rw [hr] at hx
    exact hx

theorem get_bind_apply (f : Encoder → EncodeM β) (e : Encoder) : (get >>= f) e = f e e := rfl

end Rules

/-- Steps that meet containers: the numbers go on from `order`, and no record is written. -/
def Goes {α : Type} (P : Value → Prop) (order : List Value) (k : Nat) (e : Encoder)
    (Q : List Value → α → Prop) (a : α) (e' : Encoder) : Prop :=
  ∃ order', order <+: order' ∧ e'.Met P order' k ∧ e'.records = e.records ∧ Q order' a

/-- Such steps may fail. What was met before the failure keeps its number. -/
abbrev Walks {α : Type} (P : Value → Prop) (order : List Value) (k : Nat) (e : Encoder)
    (Q : List Value → α → Prop) : EStateM.Result CodecError Encoder α → Prop :=
  Ends (Goes P order k e Q) (Goes P order k e (Refuses P))

section Slots

variable {P : Value → Prop} {s : Store} {w : Value} {order : List Value} {k : Nat} {e : Encoder}

theorem Met.notMem (he : e.Met P order k) (hw : w.isContainer = true)
    (hnew : e.registry.idOf? w = none) : w ∉ order := by
  intro h
  obtain ⟨i, hi⟩ := List.getElem?_of_mem h
  rw [(he.ids w hw i).2 hi] at hnew
  cases hnew

theorem Met.append (he : e.Met P order k) (hw : w.isContainer = true) (hP : P w)
    (hnew : e.registry.idOf? w = none) (hlt : order.length < idLimit) {cell : CellKind × Nat}
    (hcell : w.identity? = some cell) :
    Met P (order ++ [w]) k
      { e with
        registry :=
          { ids := (cell, order.length) :: e.registry.ids
            values := (order.length, w) :: e.registry.values
            next := order.length + 1 }
        pending := e.pending ++ [w] } := by
  have hmem := he.notMem hw hnew
  refine ⟨?_, ?_, ?_, ?_, ?_, ?_, ?_, ?_⟩
  · intro c hc
    rcases List.mem_append.1 hc with hc | hc
    · exact he.kinds c hc
    · rw [List.mem_singleton.1 hc]
      exact ⟨hw, hP⟩
  · rw [List.nodup_append]
    refine ⟨he.nodup, List.pairwise_singleton _ w, fun a ha b hb hab => ?_⟩
    rw [List.mem_singleton.1 hb] at hab
    exact hmem (hab ▸ ha)
  · intro c hc i
    obtain ⟨cell', hcell'⟩ := Value.exists_identity hc
    rw [getElem?_append_singleton, ← he.ids c hc]
    by_cases hcw : c = w
    -- the container itself has the new number and no other
    · subst hcw
      have hself : ((cell, order.length) :: e.registry.ids).lookup cell = some order.length := by
        simp
      simp only [Registry.idOf?, hcell, Option.bind_eq_bind, Option.bind_some] at hnew ⊢
      rw [hself, hnew]
      simp [eq_comm]
    · have hne : (cell' == cell) = false := by
        refine beq_eq_false_iff_ne.2 fun heq => hcw ?_
        exact Value.eq_of_identity hc hw (by rw [hcell', hcell, heq])
      simp [Registry.idOf?, hcell', List.lookup_cons, hne, Ne.symm hcw]
  · intro i
    have hi := he.values i
    rw [Registry.get?] at hi ⊢
    by_cases heq : i = order.length
    · simp [heq]
    · rw [List.lookup_cons, beq_eq_false_iff_ne.2 heq]
      by_cases hlt : i < order.length
      · rw [List.getElem?_append_left hlt]
        exact hi
      · rw [List.getElem?_eq_none (by omega)] at hi
        rw [List.getElem?_eq_none (by rw [List.length_append, List.length_singleton]; omega)]
        exact hi
  · simp
  · rw [List.length_append, List.length_singleton]
    omega
  · rw [he.pending, List.drop_append_of_le_length he.taken]
  · rw [List.length_append]
    have := he.taken
    omega

theorem Goes.refl {α : Type} {Q : List Value → α → Prop} {a : α} (he : e.Met P order k)
    (h : Q order a) : Goes P order k e Q a e :=
  ⟨order, List.prefix_rfl, he, rfl, h⟩

theorem Goes.after {α : Type} {Q : List Value → α → Prop} {a : α} {order₁ : List Value}
    {e₁ e' : Encoder} (hgrow : order <+: order₁) (hrec : e₁.records = e.records)
    (h : Goes P order₁ k e₁ Q a e') : Goes P order k e Q a e' := by
  obtain ⟨order', hgrow', he', hrec', hQ⟩ := h
  exact ⟨order', hgrow.trans hgrow', he', hrec'.trans hrec, hQ⟩

theorem slot_container (s : Store) (hw : w.isContainer = true) (e : Encoder) :
    slot s w e =
      match e.registry.register w with
      | some (id, isNew, registry) =>
        .ok (.ref id) { e with registry, pending := if isNew then e.pending ++ [w] else e.pending }
      | none => .error .idsExhausted e := by
  cases w <;> cases hw
  all_goals
    rw [slot, get_bind_apply]
    split
    · rename_i hr
      rw [hr]
      rfl
    · rename_i hr
      rw [hr]
      rfl

theorem Met.container_cases (he : e.Met P order k) (hw : w.isContainer = true) (hP : P w) :
    (∃ i, order[i]? = some w ∧ slot s w e = .ok (.ref i) e) ∨
      (w ∉ order ∧ ∃ e', slot s w e = .ok (.ref order.length) e' ∧ e'.Met P (order ++ [w]) k ∧
        e'.records = e.records) ∨
      w ∉ order ∧ idLimit ≤ order.length ∧ slot s w e = .error .idsExhausted e := by
  rw [Encoder.slot_container s hw]
  obtain ⟨cell, hcell⟩ := Value.exists_identity hw
  cases hid : e.registry.idOf? w with
  | some i =>
    have hreg : e.registry.register w = some (i, false, e.registry) := by
      simp only [Registry.idOf?, hcell, Option.bind_eq_bind, Option.bind_some] at hid
      simp [Registry.register, hcell, hid]
    rw [hreg]
    exact .inl ⟨i, (he.ids w hw i).1 hid, rfl⟩
  | none =>
    have hreg : e.registry.register w =
        if order.length < idLimit then
          some (order.length, true,
            { ids := (cell, order.length) :: e.registry.ids
              values := (order.length, w) :: e.registry.values
              next := order.length + 1 })
        else none := by
      simp only [Registry.idOf?, hcell, Option.bind_eq_bind, Option.bind_some] at hid
      simp [Registry.register, hcell, hid, he.next]
    rw [hreg]
    by_cases hlt : order.length < idLimit
    · rw [if_pos hlt]
      exact .inr (.inl ⟨he.notMem hw hid, _, rfl, he.append hw hP hid hlt hcell, rfl⟩)
    · rw [if_neg hlt]
      exact .inr (.inr ⟨he.notMem hw hid, Nat.le_of_not_lt hlt, rfl⟩)

theorem Met.slot_container (he : e.Met P order k) (hw : w.isContainer = true) (hP : P w) :
    Walks P order k e (fun order' n => NodeFor s order' w n) (slot s w e) := by
  obtain ⟨i, hi, heq⟩ | ⟨-, e', heq, he', hrec⟩ | ⟨hnew, hlimit, heq⟩ :=
    he.container_cases (s := s) hw hP
  · rw [heq]
    exact .refl he (.ref hw hi)
  · rw [heq]
    refine ⟨order ++ [w], List.prefix_append .., he', hrec, ?_⟩
    exact .ref hw (getElem?_append_singleton.2 (.inr ⟨rfl, rfl⟩))
  · rw [heq]
    -- the numbers are used up, and here is one container more
    exact .refl he (.exhausted hP hw hnew hlimit)

theorem Met.slot (he : e.Met P order k) (hP : P w) :
    Walks P order k e (fun order' n => NodeFor s order' w n) (slot s w e) := by
  cases w with
  | void => exact .refl he .void
  | bool b => exact .refl he (.bool b)
  | string t => exact .refl he (.string t)
  | type t => exact .refl he (.type t)
  | number n =>
    by_cases hn : n.isFinite = true
    · have heq : Encoder.slot s (.number n) e = .ok (.number n) e := by
        simp [Encoder.slot, hn, pure, EStateM.pure]
      rw [heq]
      exact .refl he (.number n)
    · have heq : Encoder.slot s (.number n) e = .error (.nonFinite n) e := by
        rw [Encoder.slot, if_neg hn]
        rfl
      rw [heq]
      exact .refl he (.noForm hP hn)
  | array id => exact he.slot_container rfl hP
  | map id => exact he.slot_container rfl hP
  | object id => exact he.slot_container rfl hP
  | function id => exact .refl he (.noForm hP fun h => h)
  | native id => exact .refl he (.noForm hP fun h => h)
  | bound id => exact .refl he (.noForm hP fun h => h)
  | trait id => exact .refl he (.noForm hP fun h => h)
  | hosted id => exact .refl he (.noForm hP fun h => h)

/-- Slots one after the other, each packed with what belongs to it. -/
def packAll {α β : Type} (s : Store) (value : α → Value) (pack : α → Node → β) :
    List α → EncodeM (List β)
  | [] => return []
  | a :: rest => do
    let node ← slot s (value a)
    return pack a node :: (← packAll s value pack rest)

theorem slots_eq_packAll (s : Store) (l : List Value) :
    slots s l = packAll s id (fun _ n => n) l := by
  induction l with
  | nil => rfl
  | cons w rest ih => rw [slots, packAll, ih]; rfl

theorem entries_eq_packAll (s : Store) (l : List (String × Value)) :
    entries s l = packAll s (fun e => e.2) (fun e value => { key := e.1, value }) l := by
  induction l with
  | nil => rfl
  | cons e rest ih => rw [entries, packAll, ih]

theorem fields_eq_packAll (s : Store) (l : List (String × Attribute)) :
    fields s l =
      packAll s (fun e => e.2.value)
        (fun e value => ⟨e.1, e.2.flags.isPrivate, e.2.flags.isConstant, value⟩) l := by
  induction l with
  | nil => rfl
  | cons e rest ih => rw [fields, packAll, ih]

theorem Met.packAll {α β : Type} {value : α → Value} {pack : α → Node → β} {l : List α}
    (he : e.Met P order k) (hl : ∀ a ∈ l, P (value a)) :
    Walks P order k e (fun order' bs =>
      Forall₂ (fun a b => ∃ n, b = pack a n ∧ NodeFor s order' (value a) n) l bs)
      (packAll s value pack l e) := by
  induction l generalizing order e with
  | nil => exact .refl he .nil
  | cons a rest ih =>
    refine .bind (he.slot (hl a (List.mem_cons_self ..))) ?_
    rintro n e₁ ⟨order₁, hgrow₁, he₁, hrec₁, hn⟩
    refine .bind ((ih he₁ fun b hb => hl b (List.mem_cons_of_mem _ hb)).mono (fun _ _ h => h)
      fun _ _ h => h.after hgrow₁ hrec₁) ?_
    rintro bs e₂ ⟨order₂, hgrow₂, he₂, hrec₂, hbs⟩
    exact ⟨order₂, hgrow₁.trans hgrow₂, he₂, hrec₂.trans hrec₁, .cons ⟨n, rfl, hn.grow hgrow₂⟩ hbs⟩

variable {c : Value}

theorem Met.record (he : e.Met P order k) (hc : c.isContainer = true)
    (hP : ∀ w ∈ s.contents c, P w) :
    Walks P order k e (fun order' r => RecordFor s order' c r) (record s c e) := by
  cases c with
  | array id =>
    rw [Encoder.record, slots_eq_packAll]
    refine .bind (he.packAll fun w hw => hP w hw) ?_
    rintro items e' ⟨order', hgrow, he', hrec, hitems⟩
    refine ⟨order', hgrow, he', hrec, .array (hitems.imp ?_)⟩
    rintro w n ⟨_, rfl, hn⟩
    exact hn
  | map id =>
    rw [Encoder.record, entries_eq_packAll]
    refine .bind (he.packAll fun p hp => hP _ (List.mem_map_of_mem hp)) ?_
    rintro entries e' ⟨order', hgrow, he', hrec, hentries⟩
    refine ⟨order', hgrow, he', hrec, .map (hentries.imp ?_)⟩
    rintro p f ⟨n, rfl, hn⟩
    exact ⟨rfl, hn⟩
  | object id =>
    rw [Encoder.record, fields_eq_packAll]
    refine .bind (he.packAll fun p hp => hP _ (List.mem_map_of_mem hp)) ?_
    rintro fields e' ⟨order', hgrow, he', hrec, hfields⟩
    refine ⟨order', hgrow, he', hrec, .object (hfields.imp ?_)⟩
    rintro p f ⟨n, rfl, hn⟩
    exact ⟨rfl, rfl, rfl, hn⟩
  | _ => cases hc

theorem drain_nil (s : Store) (n : Nat) (he : e.pending = []) : drain s (n + 1) e = .ok () e := by
  rw [drain, get_bind_apply, he]
  rfl

theorem drain_cons (s : Store) (n : Nat) {rest : List Value} (he : e.pending = c :: rest) :
    drain s (n + 1) e =
      (record s c >>= fun r =>
        modify (fun e : Encoder => { e with records := e.records.push r }) >>= fun _ => drain s n)
        { e with pending := rest } := by
  rw [drain, get_bind_apply, he]
  rfl

theorem Met.takeUp {rest : List Value} (he : e.Met P order k) (hp : e.pending = c :: rest) :
    order[k]? = some c ∧ Met P order (k + 1) { e with pending := rest } := by
  have hdrop : order.drop k = c :: rest := he.pending.symm.trans hp
  have hlt : k < order.length := by
    have := congrArg List.length hdrop
    rw [List.length_drop, List.length_cons] at this
    omega
  obtain ⟨hget, hrest⟩ := List.cons.inj ((List.drop_eq_getElem_cons hlt).symm.trans hdrop)
  exact ⟨List.getElem?_eq_some_iff.2 ⟨hlt, hget⟩, he.kinds, he.nodup, he.ids, he.values, he.next,
    he.limit, hrest.symm, hlt⟩

theorem Met.push (he : e.Met P order k) (r : Record) :
    Met P order k { e with records := e.records.push r } :=
  ⟨he.kinds, he.nodup, he.ids, he.values, he.next, he.limit, he.pending, he.taken⟩

/-- The record describes the container as it was in a store in which `T` holds of it. -/
def WrittenIn (T : Store → Value → Prop) (order : List Value) (c : Value) (r : Record) : Prop :=
  ∃ s, T s c ∧ RecordFor s order c r

theorem WrittenIn.grow {T : Store → Value → Prop} {order' : List Value} {r : Record}
    (h : WrittenIn T order c r) (hgrow : order <+: order') : WrittenIn T order' c r := by
  obtain ⟨s, hs, hr⟩ := h
  exact ⟨s, hs, hr.grow hgrow⟩

/-- The records describe, in order, the first `k` containers but for `lost` of them. -/
def Kept (T : Store → Value → Prop) (order : List Value) (k lost : Nat) (e : Encoder) : Prop :=
  ∃ done : List Value, done.Sublist (order.take k) ∧ done.length + lost = k ∧
    Forall₂ (WrittenIn T order) done e.records.toList

section Kept

variable {T : Store → Value → Prop} {lost : Nat} {order' : List Value} {e' : Encoder}

theorem Kept.push (h : Kept T order k lost e) (hk : order[k]? = some c)
    (hgrow : order <+: order') (hrec : e'.records = e.records) (hs : T s c) {r : Record}
    (hr : RecordFor s order' c r) :
    Kept T order' (k + 1) lost { e' with records := e'.records.push r } := by
  obtain ⟨done, hsub, hlen, hdone⟩ := h
  obtain ⟨hlt, hget⟩ := List.getElem?_eq_some_iff.1 hk
  obtain ⟨more, rfl⟩ := hgrow
  have htake : (order ++ more).take (k + 1) = order.take k ++ [c] := by
    rw [List.take_append_of_le_length hlt, List.take_succ_eq_append_getElem hlt, hget]
  refine ⟨done ++ [c], ?_, ?_, ?_⟩
  · rw [htake]
    exact hsub.append (.refl _)
  · rw [List.length_append, List.length_singleton]
    omega
  · rw [Array.toList_push, hrec]
    exact List.rel_append (hdone.imp fun _ _ h => h.grow (List.prefix_append ..))
      (.cons ⟨s, hs, hr⟩ .nil)

theorem Kept.grow (h : Kept T order k lost e) (hgrow : order <+: order')
    (hrec : e'.records = e.records) : Kept T order' k lost e' := by
  obtain ⟨done, hsub, hlen, hdone⟩ := h
  refine ⟨done, ?_, hlen, ?_⟩
  · obtain ⟨more, rfl⟩ := hgrow
    rw [List.take_append]
    exact hsub.trans (List.sublist_append_left ..)
  · rw [hrec]
    exact hdone.imp fun _ _ h => h.grow hgrow

/-- The next container was taken up and has got no record. -/
theorem Kept.lose (h : Kept T order k lost e) : Kept T order (k + 1) (lost + 1) e := by
  obtain ⟨done, hsub, hlen, hdone⟩ := h
  exact ⟨done, hsub.trans (List.take_sublist_take_left (Nat.le_succ k)), by omega, hdone⟩

theorem Kept.all (h : Kept T order order.length 0 e) :
    Forall₂ (WrittenIn T order) order e.records.toList := by
  obtain ⟨done, hsub, hlen, hdone⟩ := h
  rw [List.take_length] at hsub
  have heq : done = order := hsub.eq_of_length (by omega)
  rw [heq] at hdone
  exact hdone

end Kept

theorem Met.drained {T : Store → Value → Prop} {lost : Nat} (he : e.Met P order k)
    (hkept : Kept T order k lost e) (hk : order.length ≤ k) :
    ∃ order', order <+: order' ∧ e.Met P order' order'.length ∧
      Kept T order' order'.length lost e := by
  obtain rfl : k = order.length := Nat.le_antisymm he.taken hk
  exact ⟨order, List.prefix_rfl, he, hkept⟩

/-- The walk ends with a record for every container that was still to be taken up. If it fails, the
container at which it fails has none. -/
theorem Met.drain {T : Store → Value → Prop} {lost n : Nat} (he : e.Met P order k)
    (hkept : Kept T order k lost e) (hs : ∀ c, T s c)
    (hP : ∀ c, P c → ∀ w ∈ s.contents c, P w) (hn : idLimit ≤ n + k) :
    Ends
      (fun _ e' => ∃ order', order <+: order' ∧ e'.Met P order' order'.length ∧
        Kept T order' order'.length lost e')
      (fun err e' => ∃ order' k', order <+: order' ∧ e'.Met P order' k' ∧
        Kept T order' k' (lost + 1) e' ∧ Refuses P order' err)
      (drain s n e) := by
  -- every round takes up one container, and there are no more than numbers
  induction n generalizing order k e with
  | zero =>
    have := he.limit
    exact he.drained hkept (by omega)
  | succ n ih =>
    cases hp : e.pending with
    | nil =>
      rw [drain_nil s n hp]
      exact he.drained hkept (List.drop_eq_nil_iff.1 (he.pending.symm.trans hp))
    | cons c rest =>
      rw [drain_cons s n hp]
      obtain ⟨hk, he₁⟩ := he.takeUp hp
      have hc := he.kinds c (List.mem_of_getElem? hk)
      refine .bind ((he₁.record hc.1 (hP c hc.2)).mono (fun _ _ h => h) ?_) ?_
      · rintro err e₂ ⟨order₂, hgrow, he₂, hrec, herr⟩
        exact ⟨order₂, k + 1, hgrow, he₂, (hkept.grow hgrow hrec).lose, herr⟩
      rintro r e₂ ⟨order₂, hgrow, he₂, hrec, hr⟩
      have hkept₃ := hkept.push hk hgrow hrec (hs c) hr
      refine (ih (he₂.push r) hkept₃ (by omega)).mono ?_ ?_
      · rintro _ e₄ ⟨order₄, hgrow₄, hrest₄⟩
        exact ⟨order₄, hgrow.trans hgrow₄, hrest₄⟩
      · rintro err e₄ ⟨order₄, k₄, hgrow₄, hrest₄⟩
        exact ⟨order₄, k₄, hgrow.trans hgrow₄, hrest₄⟩

/-- A call ends with records for all containers that were met. One that fails, fails at the value
itself, or it loses the container at which it fails. -/
theorem Met.encode {T : Store → Value → Prop} {lost : Nat} {v : Value} (he : e.Met P order k)
    (hkept : Kept T order k lost e) (hs : ∀ c, T s c) (hv : P v)
    (hP : ∀ c, P c → ∀ w ∈ s.contents c, P w) :
    Ends
      (fun root e' => ∃ order', e'.Met P order' order'.length ∧
        Kept T order' order'.length lost e' ∧ NodeFor s order' v root)
      (fun err e' => ∃ order' k' lost', e'.Met P order' k' ∧ Kept T order' k' lost' e' ∧
        Refuses P order' err ∧
        ((∃ e₁, Encoder.slot s v e = .error err e₁) ∧ lost' = lost ∨
          (∃ root e₁, Encoder.slot s v e = .ok root e₁) ∧ lost' = lost + 1))
      (Encoder.encode s v e) := by
  have hslot := he.slot (s := s) hv
  change Ends _ _ (EStateM.bind (Encoder.slot s v) _ e)
  rw [EStateM.bind]
  cases hr : Encoder.slot s v e with
  | error err e₁ =>
    rw [hr] at hslot
    obtain ⟨order₁, hgrow, he₁, hrec, herr⟩ := hslot
    exact ⟨order₁, k, lost, he₁, hkept.grow hgrow hrec, herr, .inl ⟨⟨e₁, rfl⟩, rfl⟩⟩
  | ok root e₁ =>
    rw [hr] at hslot
    obtain ⟨order₁, hgrow, he₁, hrec, hroot⟩ := hslot
    refine .bind (J := fun e' e'' => e' = e₁ ∧ e'' = e₁) ⟨rfl, rfl⟩ ?_
    rintro _ _ ⟨rfl, rfl⟩
    refine .bind ((he₁.drain (hkept.grow hgrow hrec) hs hP (by omega)).mono (fun _ _ h => h) ?_) ?_
    · rintro err e₂ ⟨order₂, k₂, -, he₂, hkept₂, herr⟩
      exact ⟨order₂, k₂, lost + 1, he₂, hkept₂, herr, .inr ⟨⟨root, _, rfl⟩, rfl⟩⟩
    · rintro _ e₂ ⟨order₂, hgrow₂, he₂, hkept₂⟩
      exact ⟨order₂, he₂, hkept₂, hroot.grow hgrow₂⟩

end Slots

end Encoder

/-- The records of a graph are those of the containers `order`, and its root stands for `v`. -/
structure Graph.Shows (s : Store) (v : Value) (order : List Value) (g : Graph) : Prop where
  root : NodeFor s order v g.root
  records : Forall₂ (RecordFor s order) order g.records
  containers : ∀ c ∈ order, c.isContainer = true
  nodup : order.Nodup
  limit : order.length ≤ idLimit

/-- A graph that describes `v`: besides, all of its containers are reached from `v`. -/
structure Graph.Describes (s : Store) (v : Value) (order : List Value) (g : Graph) : Prop
    extends g.Shows s v order where
  reached : ∀ c ∈ order, s.Reach v c

theorem Encoder.encode_ends (s : Store) (v : Value) :
    Ends
      (fun root e => ∃ order, e.Met (s.Reach v) order order.length ∧
        (Graph.mk root e.records.toList).Describes s v order)
      (fun err _ => ∃ order, order.Nodup ∧ (∀ c ∈ order, c.isContainer = true ∧ s.Reach v c) ∧
        Refuses (s.Reach v) order err)
      (encode s v {}) := by
  have hnone : Kept (fun s' _ => s' = s) [] 0 0 {} := ⟨[], .refl _, rfl, .nil⟩
  refine ((Met.start (s.Reach v)).encode hnone (fun _ => rfl) .refl
    fun _ hc _ hw => hc.step hw).mono ?_ ?_
  · rintro root e ⟨order, he, hkept, hroot⟩
    have hrecords : Forall₂ (RecordFor s order) order e.records.toList := by
      refine hkept.all.imp ?_
      rintro c r ⟨s', hs', hfor⟩
      rwa [hs'] at hfor
    exact ⟨order, he, ⟨hroot, hrecords, fun c hc => (he.kinds c hc).1, he.nodup, he.limit⟩,
      fun c hc => (he.kinds c hc).2⟩
  · rintro err e ⟨order, _, _, he, -, herr, -⟩
    exact ⟨order, he.nodup, he.kinds, herr⟩

/-- A graph that was written describes the value; otherwise something that is reached was refused. -/
theorem Store.encode_ends (s : Store) (v : Value) :
    (∃ g order, s.encode v = .ok g ∧ g.Describes s v order) ∨
      ∃ err order, s.encode v = .error err ∧ order.Nodup ∧
        (∀ c ∈ order, c.isContainer = true ∧ s.Reach v c) ∧ Encoder.Refuses (s.Reach v) order err := by
  have hend := Encoder.encode_ends s v
  unfold Store.encode
  cases hr : Encoder.encode s v {} with
  | ok root e =>
    rw [hr] at hend
    obtain ⟨order, -, hdescribes⟩ := hend
    exact .inl ⟨_, order, rfl, hdescribes⟩
  | error err e =>
    rw [hr] at hend
    obtain ⟨order, hnodup, hkinds, herr⟩ := hend
    exact .inr ⟨err, order, rfl, hnodup, hkinds, herr⟩

theorem Store.describes_of_encode {s : Store} {v : Value} {g : Graph} (h : s.encode v = .ok g) :
    ∃ order, g.Describes s v order := by
  obtain ⟨g', order, hg', hdescribes⟩ | ⟨err, _, herr, -⟩ := s.encode_ends v
  · rw [h] at hg'
    cases hg'
    exact ⟨order, hdescribes⟩
  · rw [h] at herr
    cases herr

/-- A value of encodable parts is encoded, unless there are too many of them. -/
theorem Store.encode_spec {s : Store} {v : Value} (hv : ∀ w, s.Reach v w → w.Encodable) :
    (∃ g order, s.encode v = .ok g ∧ g.Describes s v order) ∨
      s.encode v = .error .idsExhausted ∧ s.TooMany v := by
  refine (s.encode_ends v).imp_right ?_
  rintro ⟨err, order, hencode, hnodup, hkinds, herr⟩
  cases herr with
  | noForm hw hnot => exact absurd (hv _ hw) hnot
  | @exhausted w hreach hw hnew hlimit =>
    refine ⟨hencode, w :: order, List.nodup_cons.2 ⟨hnew, hnodup⟩, ?_, ?_⟩
    · rw [List.length_cons]
      omega
    · exact List.forall_mem_cons.2 ⟨⟨hw, hreach⟩, hkinds⟩

end ScriptMachine
