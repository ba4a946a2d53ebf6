import ScriptMachine.Proofs.Graph.RoundTrip

namespace ScriptMachine

open List (Forall₂)

namespace Encoder

/-- An encoder after calls, the last call first, each with the store on which it worked and the
encoder that it left. `lost` counts the calls that failed behind the value itself. -/
inductive After : List (Store × Encoder) → Nat → Encoder → Prop
  | new : After [] 0 {}
  | written {calls : List (Store × Encoder)} {lost : Nat} {e e' : Encoder} {s : Store} {v : Value}
      {root : Node} (h : After calls lost e) (hcall : encode s v e = .ok root e') :
      After ((s, e') :: calls) lost e'
  | refused {calls : List (Store × Encoder)} {lost : Nat} {e e₁ e' : Encoder} {s : Store} {v : Value}
      {err : CodecError} (h : After calls lost e) (hslot : slot s v e = .error err e₁)
      (hcall : encode s v e = .error err e') : After ((s, e') :: calls) lost e'
  | broken {calls : List (Store × Encoder)} {lost : Nat} {e e₁ e' : Encoder} {s : Store} {v : Value}
      {root : Node} {err : CodecError} (h : After calls lost e) (hslot : slot s v e = .ok root e₁)
      (hcall : encode s v e = .error err e') : After ((s, e') :: calls) (lost + 1) e'

/-- The container had its number at the end of a call on this store. -/
def Numbered (calls : List (Store × Encoder)) (s : Store) (c : Value) : Prop :=
  ∃ e i, (s, e) ∈ calls ∧ e.registry.get? i = some c

/-- The number of each container is the position of its record. -/
def Aligned (calls : List (Store × Encoder)) (order : List Value) (e : Encoder) : Prop :=
  (∀ i, e.registry.get? i = order[i]?) ∧
    Forall₂ (WrittenIn (Numbered calls) order) order e.records.toList

section Calls

variable {calls : List (Store × Encoder)} {order : List Value} {k lost : Nat} {e e' : Encoder}
  {s : Store} {v : Value} {root : Node} {P : Value → Prop} {T T' : Store → Value → Prop}

theorem Kept.imp (h : Kept T order k lost e) (hT : ∀ s, ∀ c ∈ order, T s c → T' s c) :
    Kept T' order k lost e := by
  obtain ⟨done, hsub, hlen, hdone⟩ := h
  refine ⟨done, hsub, hlen, ?_⟩
  have hmem : ∀ c ∈ done, c ∈ order := fun c hc => List.mem_of_mem_take (hsub.subset hc)
  refine ((List.forall₂_and_left ..).2 ⟨hmem, hdone⟩).imp ?_
  rintro c r ⟨hc, s, hs, hr⟩
  exact ⟨s, hT s c hc hs, hr⟩

/-- During a call the store is known and the encoder that it will leave is not. -/
theorem Kept.close (he : e'.Met P order k)
    (h : Kept (fun s' c => Numbered calls s' c ∨ s' = s) order k lost e') :
    Kept (Numbered ((s, e') :: calls)) order k lost e' := by
  refine h.imp ?_
  rintro s' c hc (⟨e, i, hmem, hi⟩ | rfl)
  · exact ⟨e, i, List.mem_cons_of_mem _ hmem, hi⟩
  · obtain ⟨i, hi⟩ := List.getElem?_of_mem hc
    exact ⟨e', i, List.mem_cons_self .., (he.values i).trans hi⟩

theorem Met.call (he : e.Met (fun _ => True) order k) (hkept : Kept (Numbered calls) order k lost e)
    (s : Store) (v : Value) :
    Ends
      (fun root e' => ∃ order', e'.Met (fun _ => True) order' order'.length ∧
        Kept (Numbered ((s, e') :: calls)) order' order'.length lost e' ∧ NodeFor s order' v root)
      (fun err e' => ∃ order' k' lost', e'.Met (fun _ => True) order' k' ∧
        Kept (Numbered ((s, e') :: calls)) order' k' lost' e' ∧
        ((∃ e₁, Encoder.slot s v e = .error err e₁) ∧ lost' = lost ∨
          (∃ root e₁, Encoder.slot s v e = .ok root e₁) ∧ lost' = lost + 1))
      (Encoder.encode s v e) := by
  have hopen : Kept (fun s' c => Numbered calls s' c ∨ s' = s) order k lost e :=
    hkept.imp fun _ _ _ => .inl
  refine (he.encode hopen (fun _ => .inr rfl) trivial fun _ _ _ _ => trivial).mono ?_ ?_
  · rintro root e' ⟨order', he', hkept', hroot⟩
    exact ⟨order', he', hkept'.close he', hroot⟩
  · rintro err e' ⟨order', k', lost', he', hkept', -, hlost⟩
    exact ⟨order', k', lost', he', hkept'.close he', hlost⟩

theorem After.met (h : After calls lost e) :
    ∃ order k, e.Met (fun _ => True) order k ∧ Kept (Numbered calls) order k lost e := by
  induction h with
  | new => exact ⟨[], 0, .start _, [], .refl _, rfl, .nil⟩
  | @written _ _ _ _ s v _ _ hcall ih =>
    obtain ⟨order, k, he, hkept⟩ := ih
    have hend := he.call hkept s v
    rw [hcall] at hend
    obtain ⟨order', he', hkept', -⟩ := hend
    exact ⟨order', _, he', hkept'⟩
  | @refused _ _ _ _ _ s v _ _ hslot hcall ih =>
    obtain ⟨order, k, he, hkept⟩ := ih
    have hend := he.call hkept s v
    rw [hcall, hslot] at hend
    obtain ⟨order', k', _, he', hkept', ⟨-, rfl⟩ | ⟨⟨_, _, hok⟩, -⟩⟩ := hend
    · exact ⟨order', k', he', hkept'⟩
    · cases hok
  | @broken _ _ _ _ _ s v _ _ _ hslot hcall ih =>
    obtain ⟨order, k, he, hkept⟩ := ih
    have hend := he.call hkept s v
    rw [hcall, hslot] at hend
    obtain ⟨order', k', _, he', hkept', ⟨⟨_, herr⟩, -⟩ | ⟨-, rfl⟩⟩ := hend
    · cases herr
    · exact ⟨order', k', he', hkept'⟩

end Calls

end Encoder

/-- The container and the names of its types are in the later store as they were. -/
structure Store.Unchanged (s s' : Store) (c : Value) : Prop where
  cell : s.cell? c = s'.cell? c
  names : ∀ ty, s'.Mentions c ty → s.typeName ty = s'.typeName ty

section Unchanged

variable {s s' : Store} {order : List Value}

theorem NodeFor.unchanged {w : Value} {n : Node} (hn : NodeFor s order w n)
    (hnames : ∀ ty, w = .type ty → s.typeName ty = s'.typeName ty) : NodeFor s' order w n := by
  cases hn with
  | void => exact .void
  | bool b => exact .bool b
  | number x => exact .number x
  | string t => exact .string t
  | type ty =>
    rw [hnames ty rfl]
    exact .type ty
  | ref hc hi => exact .ref hc hi

theorem Store.Unchanged.array {id : ArrayId} (h : s.Unchanged s' (.array id)) :
    s.array id = s'.array id := by
  have hget := Option.map_injective (fun _ _ => Store.Cell.array.inj) h.cell
  rw [Store.array, Store.array, Array.getD_eq_getD_getElem?, Array.getD_eq_getD_getElem?, hget]

theorem Store.Unchanged.map {id : MapId} (h : s.Unchanged s' (.map id)) : s.map id = s'.map id := by
  have hget := Option.map_injective (fun _ _ => Store.Cell.map.inj) h.cell
  rw [Store.map, Store.map, Array.getD_eq_getD_getElem?, Array.getD_eq_getD_getElem?, hget]

theorem Store.Unchanged.object {id : ObjectId} (h : s.Unchanged s' (.object id)) :
    s.object id = s'.object id := by
  have hget := Option.map_injective (fun _ _ => Store.Cell.object.inj) h.cell
  rw [Store.object, Store.object, Array.getD_eq_getD_getElem?, Array.getD_eq_getD_getElem?, hget]

theorem Store.Unchanged.recordFor {c : Value} {r : Record} (h : s.Unchanged s' c)
    (hr : RecordFor s order c r) : RecordFor s' order c r := by
  have hslot {w : Value} {n : Node} (hw : w ∈ s'.contents c) (hn : NodeFor s order w n) :
      NodeFor s' order w n :=
    hn.unchanged fun ty hty => h.names ty (.inl (hty ▸ hw))
  cases hr with
  | @array id items hs =>
    rw [h.array] at hs
    have hmem : ∀ w ∈ (s'.array id).toList, w ∈ s'.contents (.array id) := fun _ hw => hw
    refine .array (((List.forall₂_and_left ..).2 ⟨hmem, hs⟩).imp ?_)
    rintro w n ⟨hw, hn⟩
    exact hslot hw hn
  | @map id entries hs =>
    rw [h.map] at hs
    have hmem : ∀ e ∈ (s'.map id).entries, e.2 ∈ s'.contents (.map id) :=
      fun _ he => List.mem_map_of_mem he
    refine .map (((List.forall₂_and_left ..).2 ⟨hmem, hs⟩).imp ?_)
    rintro e f ⟨he, hkey, hn⟩
    exact ⟨hkey, hslot he hn⟩
  | @object id fields hs =>
    rw [h.object] at hs ⊢
    rw [h.names _ (.inr ⟨id, rfl, rfl⟩)]
    have hmem : ∀ e ∈ (s'.object id).attributes.entries, e.2.value ∈ s'.contents (.object id) :=
      fun _ he => List.mem_map_of_mem he
    refine .object (((List.forall₂_and_left ..).2 ⟨hmem, hs⟩).imp ?_)
    rintro e f ⟨he, hname, hprivate, hconstant, hn⟩
    exact ⟨hname, hprivate, hconstant, hslot he hn⟩

end Unchanged

namespace Encoder

theorem Aligned.shows {calls : List (Store × Encoder)} {order : List Value} {e : Encoder} {s : Store}
    {v : Value} {root : Node} {P : Value → Prop} (h : Aligned calls order e)
    (he : e.Met P order order.length) (hroot : NodeFor s order v root)
    (hsame : ∀ s' c, Numbered calls s' c → s'.Unchanged s c) :
    Graph.Shows s v order ⟨root, e.records.toList⟩ := by
  refine ⟨hroot, h.2.imp ?_, fun c hc => (he.kinds c hc).1, he.nodup, he.limit⟩
  rintro c r ⟨s', hs', hr⟩
  exact (hsame s' c hs').recordFor hr

/-- A call that succeeds leaves the records of all numbered containers but the `lost` ones, in the
order of the numbers. So records are at their numbers if and only if no call before was broken off,
and then the graph decodes to a copy of the value, provided that the containers are unchanged since
they were numbered. -/
theorem alignment_after_calls {calls : List (Store × Encoder)} {lost : Nat} {e e' : Encoder}
    {s : Store} {v : Value} {root : Node} (h : After calls lost e)
    (hcall : encode s v e = .ok root e') :
    ∃ order done, (∀ i, e'.registry.get? i = order[i]?) ∧ NodeFor s order v root ∧
      done.Sublist order ∧ done.length + lost = order.length ∧
      Forall₂ (WrittenIn (Numbered ((s, e') :: calls)) order) done e'.records.toList ∧
      (Aligned ((s, e') :: calls) order e' ↔ lost = 0) ∧
      (lost = 0 → ∀ (lookup : TypeLookup) (t : Store),
        (∀ s' c, Numbered calls s' c → s'.Unchanged s c) →
        (∀ ty, v = .type ty → lookup (s.typeName ty) = some ty) →
        (∀ c ∈ order, ∀ ty, s.Mentions c ty → lookup (s.typeName ty) = some ty) →
        ∃ d t' φ, (Graph.mk root e'.records.toList).decode lookup t = .ok d t' ∧
          s.IsCopy v φ t t' d.root) := by
  obtain ⟨order₀, k, he, hkept⟩ := h.met
  have hend := he.call hkept s v
  rw [hcall] at hend
  obtain ⟨order, he', hkept', hroot⟩ := hend
  obtain ⟨done, hsub, hlen, hdone⟩ := id hkept'
  rw [List.take_length] at hsub
  have haligned : lost = 0 → Aligned ((s, e') :: calls) order e' := by
    rintro rfl
    exact ⟨he'.values, hkept'.all⟩
  refine ⟨order, done, he'.values, hroot, hsub, hlen, hdone, ⟨fun h => ?_, haligned⟩, ?_⟩
  · have := h.2.length_eq
    have := hdone.length_eq
    omega
  · intro hlost lookup t hsame htype hfound
    have hshows := (haligned hlost).shows he' hroot fun s' c hs' => by
      obtain ⟨e₁, i, hmem, hi⟩ := hs'
      rcases List.mem_cons.1 hmem with heq | hmem
      · cases heq
        exact ⟨rfl, fun _ _ => rfl⟩
      · exact hsame s' c ⟨e₁, i, hmem, hi⟩
    exact hshows.isCopy htype hfound t

end Encoder

/-- Two lists; the first holds a function, for which graphs have no form. -/
def mixed : Store where
  arrays := #[#[.function ⟨0⟩], #[.bool true]]

/-- A function is refused as the value itself, and the list after it is written as number 0. -/
theorem alignment_after_refused :
    ∃ e e' d t' φ, Encoder.After [(mixed, e)] 0 e ∧
      Encoder.encode mixed (.array ⟨1⟩) e = .ok (.ref 0) e' ∧
      (Graph.mk (.ref 0) e'.records.toList).decode (fun _ => none) mixed = .ok d t' ∧
      mixed.IsCopy (.array ⟨1⟩) φ mixed t' d.root := by
  have hafter : Encoder.After [(mixed, {})] 0 {} :=
    .refused (v := .function ⟨0⟩) .new rfl rfl
  obtain ⟨order, _, hnumbers, -, -, -, -, -, hcopy⟩ :=
    Encoder.alignment_after_calls (s := mixed) (v := .array ⟨1⟩) hafter rfl
  have hunnumbered : ∀ s' c, Encoder.Numbered [(mixed, {})] s' c → s'.Unchanged mixed c := by
    rintro s' c ⟨e, i, hmem, hi⟩
    cases List.mem_singleton.1 hmem
    cases hi
  have hfound : ∀ c ∈ order, ∀ ty, mixed.Mentions c ty → none = some ty := by
    intro c hc ty hty
    obtain ⟨i, hi⟩ := List.getElem?_of_mem hc
    have hget := (hnumbers i).trans hi
    obtain ⟨rfl, rfl⟩ : i = 0 ∧ c = .array ⟨1⟩ := by
      cases i with
      | zero => exact ⟨rfl, (Option.some.inj hget).symm⟩
      | succ i => cases hget
    rcases hty with hmem | ⟨_, heq, _⟩
    · cases List.mem_singleton.1 hmem
    · cases heq
  obtain ⟨d, t', φ, hdecode, hφ⟩ :=
    hcopy rfl (fun _ => none) mixed hunnumbered (fun _ h => by cases h) hfound
  exact ⟨{}, _, d, t', φ, hafter, rfl, hdecode, hφ⟩

/-- The list with the function breaks a call off. It leaves a number without a record, so that the
next list has number 1 and the one record there is. -/
theorem alignment_lost :
    ∃ err e e' t', Encoder.encode mixed (.array ⟨0⟩) {} = .error err e ∧
      Encoder.encode mixed (.array ⟨1⟩) e = .ok (.ref 1) e' ∧
      e'.registry.get? 1 = some (.array ⟨1⟩) ∧ e'.records = #[.array [.bool true]] ∧
      (Graph.mk (.ref 1) e'.records.toList).decode (fun _ => none) mixed =
        .error (.unknownId 1) t' :=
  ⟨_, _, _, _, rfl, rfl, rfl, rfl, rfl⟩

end ScriptMachine
