import ScriptMachine.Graph.Decoder
import ScriptMachine.Proofs.Graph.Decoded

namespace ScriptMachine

namespace Table

variable {α : Type}

/-- The table has the names of the list, each at its first place and with its last value. -/
structure Gathers (T : Table α) (l : List (String × α)) : Prop where
  names : T.names = (l.map Prod.fst).eraseDups
  values : ∀ name, T.get? name = l.reverse.lookup name

theorem eraseDups_concat (l : List String) (name : String) :
    (l ++ [name]).eraseDups =
      if name ∈ l.eraseDups then l.eraseDups else l.eraseDups ++ [name] := by
  rw [List.eraseDups_append]
  by_cases h : name ∈ l <;> simp [List.removeAll, List.eraseDups_cons, h]

theorem Gathers.insert {T : Table α} {l : List (String × α)} (h : T.Gathers l) (name : String)
    (a : α) : (T.insert name a).Gathers (l ++ [(name, a)]) := by
  constructor
  · rw [names_insert, h.names, List.map_append]
    exact (eraseDups_concat _ name).symm
  · intro other
    rw [get?_insert, h.values, List.reverse_append, List.reverse_singleton, List.singleton_append,
      List.lookup_cons]
    by_cases ho : other = name
    · simp [ho]
    · simp [ho, beq_eq_false_iff_ne.2 ho]

theorem Gathers.insertAll {T : Table α} {l m : List (String × α)} (h : T.Gathers l) :
    (T.insertAll m).Gathers (l ++ m) := by
  induction m generalizing T l with
  | nil => rwa [List.append_nil]
  | cons e m ih =>
    rw [List.append_cons]
    exact ih (h.insert e.1 e.2)

theorem gathers_ofList (l : List (String × α)) : (ofList l).Gathers l :=
  Gathers.insertAll (l := []) ⟨rfl, fun _ => rfl⟩

end Table

/-- A container of the kind of the record, with the slots of the record. -/
def Record.Fits (lookup : TypeLookup) (vs : List Value) : Record → Store.Cell → Prop
  | array items, .array xs => xs.toList = items.map (·.value lookup vs)
  | map entries, .map T => T.Gathers (entries.map fun e => (e.key, e.value.value lookup vs))
  | object name fields, .object o =>
    lookup name = some o.type ∧ o.attributes.Gathers (fields.map fun f =>
      (f.name, ⟨f.value.value lookup vs, { isPrivate := f.isPrivate, isConstant := f.isConstant }⟩))
  | _, _ => False

theorem Record.fits_cell {lookup : TypeLookup} {r : Record} (h : r.Typed lookup) (vs : List Value) :
    r.Fits lookup vs (r.cell lookup vs) := by
  cases r with
  | array items => rfl
  | map entries => exact Table.gathers_ofList _
  | object name fields =>
    obtain ⟨ty, hty⟩ := Option.isSome_iff_exists.1 h
    exact ⟨by rw [hty]; rfl, Table.gathers_ofList _⟩

namespace Graph

/-- The first fault of a graph: of a record without its type, else of a slot, else of the root. -/
def fault? (lookup : TypeLookup) (g : Graph) : Option CodecError :=
  (g.records.findSome? (·.fault? lookup)).or
    (((g.records.flatMap Record.nodes).findSome? (·.fault? lookup g.records.length)).or
      (g.root.fault? lookup g.records.length))

theorem fault?_of_decode {g : Graph} {lookup : TypeLookup} {t t' : Store} {err : CodecError}
    (hlimit : g.records.length ≤ idLimit) (h : g.decode lookup t = .error err t') :
    g.fault? lookup = some err := by
  have hend := g.settles_decode lookup t
  rw [h, shellsFault?_eq_findSome? (by omega)] at hend
  exact hend

end Graph

namespace Decoder

/-- A decoder that uses `lookup` ends as steps in the store alone do. -/
def Follows {α β : Type} (lookup : TypeLookup) (Q : α → β → Registry → Prop) :
    EStateM.Result CodecError (Decoder × Store) α → EStateM.Result CodecError Store β → Prop
  | .ok a (d, t), .ok b t' => d.lookup = lookup ∧ t = t' ∧ Q a b d.registry
  | .error err (d, t), .error err' t' => d.lookup = lookup ∧ t = t' ∧ err = err'
  | _, _ => False

section Rules

variable {α β γ δ : Type} {lookup : TypeLookup} {Q : α → β → Registry → Prop}
  {R : γ → δ → Registry → Prop} {p : Decoder × Store} {t : Store} {r : Registry}

theorem Follows.bind {x : DecodeM α} {y : Graph.RebuildM β} {f : α → DecodeM γ}
    {k : β → Graph.RebuildM δ} (hx : Follows lookup Q (x p) (y t))
    (hf : ∀ a b r t', Q a b r → Follows lookup R (f a (⟨lookup, r⟩, t')) (k b t')) :
    Follows lookup R ((x >>= f) p) ((y >>= k) t) := by
  change Follows lookup R (EStateM.bind x f p) (EStateM.bind y k t)
  unfold EStateM.bind
  cases hr : x p with
  | ok a p' =>
    cases hs : y t with
    | ok b t' =>
      rw [hr, hs] at hx
      obtain ⟨⟨_, r⟩, t'⟩ := p'
      obtain ⟨rfl, rfl, hQ⟩ := hx
      exact hf a b r t' hQ
    | error err t' =>
      rw [hr, hs] at hx
      exact hx.elim
  | error err p' =>
    cases hs : y t with
    | ok b t' =>
      rw [hr, hs] at hx
      exact hx.elim
    | error err' t' =>
      rw [hr, hs] at hx
      exact hx

theorem follows_building (f : TypeLookup → Registry → Graph.RebuildM α)
    {Q : α → α → Registry → Prop} (hQ : ∀ a, Q a a r) :
    Follows lookup Q (building f (⟨lookup, r⟩, t)) (f lookup r t) := by
  simp only [building]
  cases f lookup r t with
  | ok a t' => exact ⟨rfl, rfl, hQ a⟩
  | error err t' => exact ⟨rfl, rfl, rfl⟩

theorem get_bind_apply (f : Decoder × Store → DecodeM γ) (p : Decoder × Store) :
    (get >>= f) p = f p p := rfl

theorem number_of_none {i : Nat} {v : Value} (h : r.bind i v = none) :
    number i v (⟨lookup, r⟩, t) = .error .idsExhausted (⟨lookup, r⟩, t) := by
  simp only [number, get_bind_apply, h]
  rfl

theorem number_of_some {i : Nat} {v : Value} {r' : Registry} (h : r.bind i v = some r') :
    number i v (⟨lookup, r⟩, t) = .ok () (⟨lookup, r'⟩, t) := by
  simp only [number, get_bind_apply, h]
  rfl

theorem follows_number {i : Nat} {v : Value} {f : DecodeM γ} {k : Registry → Graph.RebuildM δ}
    (h : ∀ r', Follows lookup R (f (⟨lookup, r'⟩, t)) (k r' t)) :
    Follows lookup R ((number i v >>= fun _ => f) (⟨lookup, r⟩, t))
      ((match r.bind i v with
        | none => throw .idsExhausted
        | some r' => k r' : Graph.RebuildM δ) t) := by
  change Follows lookup R (EStateM.bind (number i v) (fun _ => f) (⟨lookup, r⟩, t)) _
  unfold EStateM.bind
  cases hr : r.bind i v with
  | none =>
    rw [number_of_none hr]
    exact ⟨rfl, rfl, rfl⟩
  | some r' =>
    rw [number_of_some hr]
    exact h r'

theorem follows_forM {f : α → DecodeM Unit} {k : α → Graph.RebuildM Unit} (items : List α)
    (h : ∀ a t, Follows lookup (fun _ _ r' => r' = r) (f a (⟨lookup, r⟩, t)) (k a t)) (t : Store) :
    Follows lookup (fun _ _ r' => r' = r) (items.forM f (⟨lookup, r⟩, t)) (items.forM k t) := by
  induction items generalizing t with
  | nil => exact ⟨rfl, rfl, rfl⟩
  | cons a items ih =>
    refine (h a t).bind ?_
    rintro _ _ _ t' rfl
    exact ih t'

end Rules

variable {lookup : TypeLookup}

theorem follows_shells (records : List Record) (i : Nat) (r : Registry) (t : Store) :
    Follows lookup (fun vs p r' => p = (vs, r')) (shells i records (⟨lookup, r⟩, t))
      (Graph.shells lookup r i records t) := by
  induction records generalizing i r t with
  | nil => exact ⟨rfl, rfl, rfl⟩
  | cons record records ih =>
    refine (follows_building (fun lookup _ => Graph.shell lookup record)
      (Q := fun a b r' => a = b ∧ r' = r) fun _ => ⟨rfl, rfl⟩).bind ?_
    rintro v _ _ t₁ ⟨rfl, rfl⟩
    refine follows_number fun r₁ => (ih (i + 1) r₁ t₁).bind ?_
    rintro vs _ r' t' rfl
    exact ⟨rfl, rfl, rfl⟩

/-- Whatever it has built before, a decoder decodes a graph as one without a past. -/
theorem follows_decode (g : Graph) (r : Registry) (t : Store) :
    Follows lookup (fun root d r' => root = d.root ∧ r' = d.registry)
      (decode g (⟨lookup, r⟩, t)) (g.decode lookup t) := by
  refine (follows_shells g.records 0 {} t).bind ?_
  rintro vs _ r₁ t₁ rfl
  refine (follows_forM _ (fun _ _ => follows_building _ fun _ => rfl) t₁).bind ?_
  rintro _ _ r₂ t₂ rfl
  rw [← bind_pure (building _)]
  refine (follows_building _ (Q := fun a b r' => a = b ∧ r' = r₂) fun _ => ⟨rfl, rfl⟩).bind ?_
  rintro root _ r₃ t₃ ⟨rfl, rfl⟩
  exact ⟨rfl, rfl, rfl, rfl⟩

/-- The decoder and its store, whether the step succeeded or not. -/
def left {α : Type} : EStateM.Result CodecError (Decoder × Store) α → Decoder × Store
  | .ok _ p => p
  | .error _ p => p

/-- A decoder and its store after some graphs, each of them decoded or refused. -/
def after (p : Decoder × Store) : List Graph → Decoder × Store
  | [] => p
  | g :: rest => after (left (decode g p)) rest

theorem Follows.lookup_left {α β : Type} {Q : α → β → Registry → Prop}
    {x : EStateM.Result CodecError (Decoder × Store) α} {y : EStateM.Result CodecError Store β}
    (h : Follows lookup Q x y) : (left x).1.lookup = lookup := by
  cases x <;> cases y
  · exact h.1
  · exact h.elim
  · exact h.elim
  · exact h.1

theorem lookup_after (p : Decoder × Store) (graphs : List Graph) :
    (after p graphs).1.lookup = p.1.lookup := by
  induction graphs generalizing p with
  | nil => rfl
  | cons g rest ih => exact (ih _).trans (follows_decode g p.1.registry p.2).lookup_left

end Decoder

/-- Exactly the closed graphs are decoded, and each record becomes a new container of its kind with
its slots. Any other graph is refused for its first fault. A decoder that went through other graphs
before, whether they were decoded or refused, is as good as a new one. -/
theorem Graph.decode_outcome {g : Graph} (hlimit : g.records.length ≤ idLimit)
    (lookup : TypeLookup) :
    (∀ t, ((∃ d t', g.decode lookup t = .ok d t') ↔ g.Closed lookup) ∧
      (∀ d t', g.decode lookup t = .ok d t' → ∃ vs, g.Built lookup vs t t' ∧
        (∀ r ∈ g.records, r.Fits lookup vs (r.cell lookup vs)) ∧
        d.root = g.root.value lookup vs) ∧
      ∀ err t', g.decode lookup t = .error err t' → g.fault? lookup = some err) ∧
    ∀ t₀ earlier d t, Decoder.after ({ lookup }, t₀) earlier = (d, t) →
      Decoder.decode g (d, t) = Decoder.decode g ({ lookup }, t) ∧
      Decoder.Follows lookup (fun root d r => root = d.root ∧ r = d.registry)
        (Decoder.decode g (d, t)) (g.decode lookup t) := by
  refine ⟨fun t => ⟨⟨?_, ?_⟩, ?_, ?_⟩, ?_⟩
  · rintro ⟨d, t', hr⟩
    have hend := g.builds_decode lookup t
    rw [hr] at hend
    exact hend.1
  · intro hclosed
    obtain ⟨vs, d, t', hr, -⟩ := hclosed.decode_spec t
    exact ⟨d, t', hr⟩
  · intro d t' hr
    have hend := g.builds_decode lookup t
    rw [hr] at hend
    obtain ⟨hclosed, vs, hbuilt, hroot⟩ := hend
    exact ⟨vs, hbuilt, fun r hr => Record.fits_cell (hclosed.typed r hr) vs, hroot⟩
  · intro err t' hr
    exact fault?_of_decode hlimit hr
  · intro t₀ earlier d t hafter
    obtain ⟨lookup', registry⟩ := d
    obtain rfl : lookup' = lookup := by
      have hlookup := Decoder.lookup_after ({ lookup }, t₀) earlier
      rw [hafter] at hlookup
      exact hlookup
    exact ⟨rfl, Decoder.follows_decode g registry t⟩

/-- A slot that needs one type comes before an object that needs another, and a key is given twice. -/
def haunted : Graph where
  root := .ref 2
  records := [.array [.ref 2, .type "lost"], .object "ghost" [⟨"self", true, false, .ref 1⟩],
    .map [⟨"a", .ref 0⟩, ⟨"b", .bool true⟩, ⟨"a", .ref 1⟩]]

theorem decode_outcome_haunted :
    haunted.records.length ≤ idLimit ∧
      (∃ d t', haunted.decode (fun _ => some default) {} = .ok d t') ∧
      ∃ t', haunted.decode (fun _ => none) {} = .error (.unknownType "ghost") t' := by
  have hlimit : haunted.records.length ≤ idLimit := by decide
  refine ⟨hlimit, ?_, ?_⟩
  · refine ((Graph.decode_outcome hlimit (fun _ => some default)).1 {}).1.2 ⟨hlimit, ?_, ?_, ?_⟩
    · simp [haunted, Record.Typed]
    · simp [haunted, Node.Known]
    · simp [haunted, Record.nodes, Node.Known]
  · obtain ⟨haccept, -, hrefuse⟩ := (Graph.decode_outcome hlimit (fun _ => none)).1 {}
    cases hr : haunted.decode (fun _ => none) {} with
    | ok d t' =>
      have htyped := (haccept.1 ⟨d, t', hr⟩).typed (.object "ghost" [⟨"self", true, false, .ref 1⟩])
      exact absurd (htyped (by simp [haunted])) Bool.false_ne_true
    | error err t' =>
      have hfault := hrefuse err t' hr
      cases hfault
      exact ⟨t', rfl⟩

end ScriptMachine
