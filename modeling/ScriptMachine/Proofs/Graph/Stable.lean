import ScriptMachine.Proofs.Graph.Alike
import ScriptMachine.Proofs.Graph.RoundTrip
import ScriptMachine.Proofs.Model.KnownTypes

namespace ScriptMachine

open List (Forall₂)

/-- For each name in the graph the lookup has a type of that name. -/
def TypeLookup.Covers (lookup : TypeLookup) (t : Store) (g : Graph) : Prop :=
  ∀ name, g.Mentions name → ∃ ty, lookup name = some ty ∧ t.typeName ty = name

theorem TypeLookup.Covers.isSome {lookup : TypeLookup} {t : Store} {g : Graph}
    (h : lookup.Covers t g) {name : String} (hname : g.Mentions name) :
    (lookup name).isSome = true := by
  obtain ⟨ty, hty, -⟩ := h name hname
  rw [hty]
  rfl

theorem Store.typeName_eq {t t' : Store} (h : t'.types = t.types) (ty : TypeId) :
    t'.typeName ty = t.typeName ty := by
  rw [typeName, typeName, type, type, h]

namespace Graph

/-- The numbers in the graph are finite. -/
def Finite (g : Graph) : Prop :=
  ∀ x, Node.number x ∈ g.nodes → x.isFinite = true

theorem mem_nodes {g : Graph} {r : Record} {n : Node} (hr : r ∈ g.records) (hn : n ∈ r.nodes) :
    n ∈ g.nodes :=
  List.mem_cons_of_mem _ (List.mem_flatMap.2 ⟨r, hr, hn⟩)

section Written

variable {s t t' : Store} {v : Value} {order vs : List Value} {g : Graph} {lookup : TypeLookup}

/-- `b` is what was decoded in place of `a`. -/
def Pairs (s : Store) (order vs : List Value) (lookup : TypeLookup) (g : Graph) (a b : Value) :
    Prop :=
  ∃ n ∈ g.nodes, NodeFor s order a n ∧ n.value lookup vs = b

theorem pairs_slots {α β : Type} {R : α → β → Prop} {l : List α} {m : List β}
    (value : α → Value) (node : β → Node) (h : Forall₂ R l m)
    (hR : ∀ a b, R a b → NodeFor s order (value a) (node b)) (hm : ∀ b ∈ m, node b ∈ g.nodes) :
    Forall₂ (fun a b => R a b ∧ Pairs s order vs lookup g (value a) ((node b).value lookup vs))
      l m := by
  refine (((List.forall₂_and_left ..).2 ⟨hm, h.flip⟩).imp fun b a hab => ?_).flip
  exact ⟨hab.2, node b, hab.1, hR a b hab.2, rfl⟩

theorem Built.resembles (hbuilt : g.Built lookup vs t t') (hcovers : lookup.Covers t g) {c x : Value}
    {r : Record} (hr : r ∈ g.records) (hfor : RecordFor s order c r)
    (hx : t'.cell? x = some (r.cell lookup vs)) :
    c.Resembles s t' (Pairs s order vs lookup g) x := by
  cases hfor with
  | array h =>
    obtain ⟨j, rfl, hj⟩ := Store.exists_array hx
    refine .array ?_
    rw [hj, List.forall₂_map_right_iff]
    exact (pairs_slots id id h (fun _ _ hn => hn)
      fun n hn => mem_nodes hr hn).imp fun _ _ hab => hab.2
  | @map i entries h =>
    obtain ⟨j, rfl, hj⟩ := Store.exists_map hx
    -- the keys are those of the map that was written, so none is repeated
    have hkeys : (entries.map fun f => f.key) = (s.map i).entries.map Prod.fst :=
      map_eq_map_of_forall₂ (h.imp fun _ _ he => he.1)
    refine .map ?_
    rw [hj, Table.entries_ofList, List.forall₂_map_right_iff]
    · exact (pairs_slots (·.2) (·.value) h (fun _ _ he => he.2) fun f hf =>
        mem_nodes hr (List.mem_map_of_mem hf)).imp fun _ _ he => ⟨he.1.1.symm, he.2⟩
    · rw [List.map_map]
      exact hkeys ▸ (s.map i).nodup
  | @object i fields h =>
    obtain ⟨j, rfl, hj⟩ := Store.exists_object hx
    have hnames : (fields.map fun f => f.name) = (s.object i).attributes.entries.map Prod.fst :=
      map_eq_map_of_forall₂ (h.imp fun _ _ he => he.1)
    obtain ⟨ty, hty, hname⟩ := hcovers _ (.inr ⟨fields, hr⟩)
    refine .object ?_ ?_
    · rw [hj, hty, Option.getD_some, Store.typeName_eq hbuilt.types, hname]
    · rw [hj, Table.entries_ofList, List.forall₂_map_right_iff]
      · exact (pairs_slots (·.2.value) (·.value) h (fun _ _ he => he.2.2.2) fun f hf =>
          mem_nodes hr (List.mem_map_of_mem hf)).imp fun _ _ he =>
            ⟨he.1.1.symm, he.1.2.1.symm, he.1.2.2.1.symm, he.2⟩
      · rw [List.map_map]
        exact hnames ▸ (s.object i).attributes.nodup

/-- A container that is paired has one place in `order` and `vs`. -/
theorem Pairs.exists_place {a b : Value} (h : Pairs s order vs lookup g a b)
    (ha : a.isContainer = true) : ∃ i, order[i]? = some a ∧ b = vs.getD i .void := by
  obtain ⟨n, -, hn, rfl⟩ := h
  cases hn with
  | @ref _ i _ hi => exact ⟨i, hi, rfl⟩
  | _ => cases ha

/-- What is decoded from a graph looks like what the graph was written from. -/
theorem Shows.alike (hg : g.Shows s v order) (hbuilt : g.Built lookup vs t t')
    (hcovers : lookup.Covers t g) : s.Alike t' (Pairs s order vs lookup g) := by
  have hplace : ∀ (i : Nat) (c : Value), order[i]? = some c → ∃ r x, r ∈ g.records ∧
      RecordFor s order c r ∧ vs[i]? = some x ∧ t'.cell? x = some (r.cell lookup vs) := by
    intro i c hi
    obtain ⟨r, hr, hfor⟩ := exists_getElem?_of_forall₂ hg.records hi
    obtain ⟨x, hx, hcell⟩ := exists_getElem?_of_forall₂ hbuilt.cells hr
    exact ⟨r, x, List.mem_of_getElem? hr, hfor, hx, hcell⟩
  constructor
  · rintro a b ⟨n, hmem, hn, rfl⟩
    cases hn with
    | type ty =>
      obtain ⟨ty', hty', hname⟩ := hcovers _ (.inl hmem)
      rw [Node.value, hty']
      exact .type (by rw [Option.getD_some, Store.typeName_eq hbuilt.types, hname])
    | @ref _ i _ hi =>
      obtain ⟨r, x, hr, hfor, hx, hcell⟩ := hplace i a hi
      rw [Node.value, List.getD_eq_getElem?_getD, hx]
      exact hbuilt.resembles hcovers hr hfor hcell
    | _ => exact .primitive rfl
  · intro a b a' b' hab hab' ha ha'
    obtain ⟨i, hi, rfl⟩ := hab.exists_place ha
    obtain ⟨j, hj, rfl⟩ := hab'.exists_place ha'
    obtain ⟨_, x, -, -, hx, -⟩ := hplace i a hi
    obtain ⟨_, y, -, -, hy, -⟩ := hplace j a' hj
    rw [List.getD_eq_getElem?_getD, List.getD_eq_getElem?_getD, hx, hy]
    have hilt : i < order.length := (List.getElem?_eq_some_iff.1 hi).1
    have hjlt : i < vs.length := (List.getElem?_eq_some_iff.1 hx).1
    constructor
    · intro heq
      obtain rfl : i = j := (List.getElem?_inj hilt hg.nodup).1 (by rw [hi, hj, heq])
      rw [← hx, ← hy]
    · intro heq
      obtain rfl : i = j :=
        (List.getElem?_inj hjlt hbuilt.nodup).1 (by rw [hx, hy]; exact congrArg some heq)
      exact Option.some.inj (hi.symm.trans hj)

/-- What was written is accepted, and encoding what was built from it gives the same graph. -/
theorem encode_of_written (h : s.encode v = .ok g) (hcovers : lookup.Covers t g) :
    ∃ d t', g.decode lookup t = .ok d t' ∧ t'.encode d.root = .ok g := by
  obtain ⟨order, hg⟩ := Store.describes_of_encode h
  obtain ⟨vs, d, t', hdecode, hbuilt, hroot⟩ :=
    (hg.closed fun _ hname => hcovers.isSome hname).decode_spec t
  have hpair : Pairs s order vs lookup g v d.root :=
    ⟨g.root, List.mem_cons_self .., hg.root, hroot.symm⟩
  refine ⟨d, t', hdecode, ?_⟩
  rw [← (hg.alike hbuilt hcovers).encode_eq hpair, h]

end Written

section Accepted

variable {t t' : Store} {vs : List Value} {g : Graph} {lookup : TypeLookup}

/-- The value of some slot of the graph. -/
def HasValue (lookup : TypeLookup) (vs : List Value) (g : Graph) (w : Value) : Prop :=
  ∃ n ∈ g.nodes, n.value lookup vs = w

theorem Closed.known (h : g.Closed lookup) {n : Node} (hn : n ∈ g.nodes) :
    n.Known lookup g.records.length := by
  rcases List.mem_cons.1 hn with rfl | hn
  · exact h.root
  · obtain ⟨r, hr, hn⟩ := List.mem_flatMap.1 hn
    exact h.nodes r hr n hn

theorem Built.exists_ref (hbuilt : g.Built lookup vs t t') {i : Nat} (hi : i < g.records.length) :
    (Node.ref i).value lookup vs ∈ vs ∧
      ∃ r ∈ g.records, t'.cell? ((Node.ref i).value lookup vs) = some (r.cell lookup vs) := by
  obtain ⟨x, hx, hcell⟩ := exists_getElem?_of_forall₂ hbuilt.cells (List.getElem?_eq_getElem hi)
  rw [Node.value, List.getD_eq_getElem?_getD, hx]
  exact ⟨List.mem_of_getElem? hx, _, List.getElem_mem hi, hcell⟩

theorem HasValue.exists_record {w : Value} (h : g.HasValue lookup vs w) (hclosed : g.Closed lookup)
    (hbuilt : g.Built lookup vs t t') (hw : w.isContainer = true) :
    w ∈ vs ∧ ∃ r ∈ g.records, t'.cell? w = some (r.cell lookup vs) := by
  obtain ⟨n, hn, rfl⟩ := h
  cases n with
  | ref i => exact hbuilt.exists_ref (hclosed.known hn)
  | _ => cases hw

theorem HasValue.encodable {w : Value} (h : g.HasValue lookup vs w) (hclosed : g.Closed lookup)
    (hbuilt : g.Built lookup vs t t') (hfinite : g.Finite) : w.Encodable := by
  obtain ⟨n, hn, rfl⟩ := h
  cases n with
  | number x => exact hfinite x hn
  | ref i =>
    obtain ⟨-, r, -, hcell⟩ := hbuilt.exists_ref (hclosed.known hn)
    have hcontainer := Store.isContainer_of_cell hcell
    cases hvalue : (Node.ref i).value lookup vs <;> rw [hvalue] at hcontainer <;>
      first | exact trivial | cases hcontainer
  | _ => exact trivial

theorem HasValue.lookup_typeName {ty : TypeId} (h : g.HasValue lookup vs (.type ty))
    (hclosed : g.Closed lookup) (hbuilt : g.Built lookup vs t t') (hcovers : lookup.Covers t g) :
    lookup (t.typeName ty) = some ty := by
  obtain ⟨n, hn, hvalue⟩ := h
  cases n with
  | type name =>
    obtain ⟨ty', hty', hname⟩ := hcovers name (.inl hn)
    rw [Node.value, hty'] at hvalue
    cases hvalue
    rw [Option.getD_some, hname, hty']
  | ref i =>
    obtain ⟨-, r, -, hcell⟩ := hbuilt.exists_ref (hclosed.known hn)
    rw [hvalue] at hcell
    cases hcell
  | _ => cases hvalue

theorem hasValue_of_mem_values {r : Record} (hr : r ∈ g.records) {w : Value}
    (hw : w ∈ (r.cell lookup vs).values) : g.HasValue lookup vs w := by
  cases r with
  | array items =>
    obtain ⟨n, hn, rfl⟩ := List.mem_map.1 hw
    exact ⟨n, mem_nodes hr hn, rfl⟩
  | map entries =>
    obtain ⟨e, he, rfl⟩ := List.mem_map.1 hw
    refine Table.All.of_mem (P := g.HasValue lookup vs) (Table.All.ofList ?_) he
    intro e he
    obtain ⟨f, hf, rfl⟩ := List.mem_map.1 he
    exact ⟨f.value, mem_nodes hr (List.mem_map_of_mem hf), rfl⟩
  | object name fields =>
    obtain ⟨e, he, rfl⟩ := List.mem_map.1 hw
    refine Table.All.of_mem (P := fun a : Attribute => g.HasValue lookup vs a.value)
      (Table.All.ofList ?_) he
    intro e he
    obtain ⟨f, hf, rfl⟩ := List.mem_map.1 he
    exact ⟨f.value, mem_nodes hr (List.mem_map_of_mem hf), rfl⟩

theorem Built.hasValue (hbuilt : g.Built lookup vs t t') (hclosed : g.Closed lookup) {w : Value}
    (hw : t'.Reach (g.root.value lookup vs) w) : g.HasValue lookup vs w := by
  induction hw with
  | refl => exact ⟨g.root, List.mem_cons_self .., rfl⟩
  | step _ hmem ih =>
    obtain ⟨-, r, hr, hcell⟩ :=
      ih.exists_record hclosed hbuilt (Store.isContainer_of_mem_contents hmem)
    rw [Store.contents_of_cell hcell] at hmem
    exact hasValue_of_mem_values hr hmem

theorem Built.not_tooMany (hbuilt : g.Built lookup vs t t') (hclosed : g.Closed lookup) :
    ¬ t'.TooMany (g.root.value lookup vs) := by
  rintro ⟨l, hnodup, hlong, hl⟩
  have hsub : l ⊆ vs := by
    intro c hc
    obtain ⟨hcontainer, hreach⟩ := hl c hc
    exact ((hbuilt.hasValue hclosed hreach).exists_record hclosed hbuilt hcontainer).1
  have hle : l.length ≤ vs.length := (List.subperm_of_subset hnodup hsub).length_le
  have hlength := hbuilt.cells.length_eq
  have hlimit := hclosed.limit
  omega

theorem Built.lookup_typeName (hbuilt : g.Built lookup vs t t') (hclosed : g.Closed lookup)
    (hcovers : lookup.Covers t g) {ty : TypeId} (h : t'.Occurs (g.root.value lookup vs) ty) :
    lookup (t.typeName ty) = some ty := by
  rcases h with hreach | ⟨id, hreach, rfl⟩
  · exact (hbuilt.hasValue hclosed hreach).lookup_typeName hclosed hbuilt hcovers
  · obtain ⟨-, r, hr, hcell⟩ := (hbuilt.hasValue hclosed hreach).exists_record hclosed hbuilt rfl
    cases r with
    | object name fields =>
      obtain ⟨ty, hty, hname⟩ := hcovers name (.inr ⟨fields, hr⟩)
      obtain ⟨_, heq, hobject⟩ := Store.exists_object hcell
      cases heq
      rw [hobject, hty, Option.getD_some, hname, hty]
    | array items =>
      obtain ⟨_, heq, -⟩ := Store.exists_array hcell
      cases heq
    | map entries =>
      obtain ⟨_, heq, -⟩ := Store.exists_map hcell
      cases heq

/-- What is decoded from a graph of finite numbers can be encoded, and names no types but those that
were found. -/
theorem Built.exists_encode (hbuilt : g.Built lookup vs t t') (hclosed : g.Closed lookup)
    (hfinite : g.Finite) (hcovers : lookup.Covers t g) :
    ∃ g', t'.encode (g.root.value lookup vs) = .ok g' ∧ lookup.Covers t' g' := by
  have hv : ∀ w, t'.Reach (g.root.value lookup vs) w → w.Encodable :=
    fun w hw => (hbuilt.hasValue hclosed hw).encodable hclosed hbuilt hfinite
  rcases Store.encode_spec hv with ⟨g', order, hencode, hg'⟩ | ⟨-, hmany⟩
  · refine ⟨g', hencode, fun name hname => ?_⟩
    obtain ⟨ty, rfl, hty⟩ := hg'.exists_type hname
    have hoccurs : t'.Occurs (g.root.value lookup vs) ty := by
      rcases hty with hroot | ⟨c, hc, hmention⟩
      · exact .inl (hroot ▸ .refl)
      · exact hmention.occurs (hg'.reached c hc)
    refine ⟨ty, ?_, rfl⟩
    rw [Store.typeName_eq hbuilt.types]
    exact hbuilt.lookup_typeName hclosed hcovers hoccurs
  · exact absurd hmany (hbuilt.not_tooMany hclosed)

end Accepted

/-- A graph that was written is written again, record for record, from what it is decoded to. So is
the graph written from what an accepted graph of finite numbers is decoded to. -/
theorem encode_decode_stable (lookup : TypeLookup) :
    (∀ (s : Store) (v : Value) (g : Graph) (t : Store), s.encode v = .ok g → lookup.Covers t g →
      ∃ d t', g.decode lookup t = .ok d t' ∧ t'.encode d.root = .ok g) ∧
    ∀ (g : Graph) (t : Store) (d : Decoded) (t' : Store), g.Finite → lookup.Covers t g →
      g.decode lookup t = .ok d t' →
      ∃ g', t'.encode d.root = .ok g' ∧ lookup.Covers t' g' ∧
        ∀ u, lookup.Covers u g' →
          ∃ d' u', g'.decode lookup u = .ok d' u' ∧ u'.encode d'.root = .ok g' := by
  refine ⟨fun s v g t h hcovers => encode_of_written h hcovers, ?_⟩
  intro g t d t' hfinite hcovers hdecode
  have hend := g.builds_decode lookup t
  rw [hdecode] at hend
  obtain ⟨hclosed, vs, hbuilt, hroot⟩ := hend
  obtain ⟨g', hencode, hcovers'⟩ := hbuilt.exists_encode hclosed hfinite hcovers
  rw [← hroot] at hencode
  exact ⟨g', hencode, hcovers', fun u hu => encode_of_written hencode hu⟩

/-- A ring of a map and an object, with a record that nothing refers to in front and a key that is
given twice. -/
def tangle : Graph where
  root := .ref 2
  records := [.array [.ref 0], .object "node" [⟨"back", true, false, .ref 2⟩],
    .map [⟨"a", .bool true⟩, ⟨"b", .ref 1⟩, ⟨"a", .type "node"⟩]]

/-- The form that it takes: no idle record, no repeated key, numbers in the order of the walk. -/
def tangleWritten : Graph where
  root := .ref 0
  records :=
    [.map [⟨"a", .type "node"⟩, ⟨"b", .ref 1⟩], .object "node" [⟨"back", true, false, .ref 0⟩]]

/-- Two types of one name, of which the later one is found. -/
def nodeKinds : Store where
  types := #[{ name := "node", base := none }, { name := "node", base := none }]

def laterNode : TypeLookup := fun name => if name = "node" then some ⟨1⟩ else none

theorem laterNode_covers {g : Graph} (h : ∀ name, g.Mentions name → name = "node") :
    laterNode.Covers nodeKinds g := by
  intro name hname
  rw [h name hname]
  exact ⟨⟨1⟩, rfl, rfl⟩

theorem encode_decode_stable_tangle :
    (∃ g d t', knot.encode (.array ⟨0⟩) = .ok g ∧ laterNode.Covers nodeKinds g ∧
      g.decode laterNode nodeKinds = .ok d t' ∧ t'.encode d.root = .ok g) ∧
    tangle.Finite ∧ laterNode.Covers nodeKinds tangle ∧
    ∃ d t' d' u', tangle.decode laterNode nodeKinds = .ok d t' ∧
      t'.encode d.root = .ok tangleWritten ∧
      tangleWritten.decode laterNode t' = .ok d' u' ∧ u'.encode d'.root = .ok tangleWritten := by
  have hknot : laterNode.Covers nodeKinds ⟨.ref 0, [.array [.ref 0, .ref 1, .ref 1], .object "node"
      [⟨"list", true, false, .ref 0⟩, ⟨"kind", false, true, .type "node"⟩,
        ⟨"text", false, false, .string "knot"⟩]]⟩ :=
    laterNode_covers fun name h => by simpa [Mentions, nodes, Record.nodes] using h
  have hfinite : tangle.Finite := by
    intro x hx
    simp [tangle, nodes, Record.nodes] at hx
  have hcovers : laterNode.Covers nodeKinds tangle :=
    laterNode_covers fun name h => by simpa [Mentions, nodes, Record.nodes, tangle] using h
  obtain ⟨hwritten, haccepted⟩ := encode_decode_stable laterNode
  obtain ⟨d, t', hdecode, hencode⟩ := hwritten knot (.array ⟨0⟩) _ nodeKinds rfl hknot
  refine ⟨⟨_, d, t', rfl, hknot, hdecode, hencode⟩, hfinite, hcovers, ?_⟩
  obtain ⟨g', hencode', hcovers', hstable⟩ := haccepted tangle nodeKinds _ _ hfinite hcovers rfl
  obtain rfl : tangleWritten = g' := Except.ok.inj hencode'
  obtain ⟨d', u', hdecode', hagain⟩ := hstable _ hcovers'
  exact ⟨_, _, d', u', rfl, hencode', hdecode', hagain⟩

end Graph

end ScriptMachine
