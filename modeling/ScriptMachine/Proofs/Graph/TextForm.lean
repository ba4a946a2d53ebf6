import ScriptMachine.Graph.Text
import ScriptMachine.Proofs.Graph.Decoded
import ScriptMachine.Proofs.Json.Reading

namespace ScriptMachine

/-- The text of a number stands for that number. -/
def ReadsBack (x : Float) : Prop :=
  (Json.parse (Json.number (.ofFloat x)).text).bind Json.float? = some x

instance (x : Float) : Decidable (ReadsBack x) :=
  inferInstanceAs (Decidable (_ = _))

namespace Json

theorem wellFormed_ofFloat (x : Float) : (number (.ofFloat x)).WellFormed :=
  Numeral.wellFormed_ofFloat x

theorem untag?_tagged {tags : List String} {tag : String} {members : List (Option String × Json)}
    (nested : Bool) {i : Nat} (htag : tags.findIdx? (· == tag) = some i)
    (hmembers : ∀ m ∈ members, m.1 ≠ some "type") :
    (tagged tag members).untag? tags nested = some (i, object members) := by
  have hothers : members.filter (·.1 == some "type") = [] := by
    simpa [List.filter_eq_nil_iff] using hmembers
  have hkept : members.filter (·.1 != some "type") = members := by
    simpa [List.filter_eq_self] using hmembers
  simp [tagged, member, str, untag?, untag?.position, field?, hothers, hkept, htag]

end Json

theorem readsBack_iff {x : Float} :
    ReadsBack x ↔ (Json.number (.ofFloat x)).float? = some x := by
  rw [ReadsBack, Json.parse_text (Json.wellFormed_ofFloat x), Option.bind_some]

namespace Node

open Json

/-- The slot holds what a text can bring back. -/
def Readable : Node → Prop
  | number x => ReadsBack x
  | ref id => id ≤ maxReference
  | _ => True

theorem payload?_object (name : String) (v : Json) :
    payload? name (.object [member name v]) = some v := by
  simp [payload?, fields?, field?, member]

theorem reference?_ofNat_iff (id : Nat) :
    reference? (.number (.ofNat id)) = some id ↔ id ≤ maxReference := by
  rw [reference?, Option.filter_eq_some_iff, decide_eq_true_iff, and_iff_right_iff_imp]
  intro hle
  have hword : id ≤ maxWord := Nat.le_trans hle (by decide)
  rw [nat?, Numeral.value?_ofNat hword]

theorem ofJson?_toJson_iff (nested : Bool) (n : Node) :
    ofJson? nested n.toJson = some n ↔ n.Readable := by
  cases n with
  | void =>
    rw [toJson, ofJson?, untag?_tagged nested (show _ = some 0 by rfl) (by simp)]
    simp [Readable]
  | bool b =>
    rw [toJson, ofJson?, untag?_tagged nested (show _ = some 1 by rfl) (by simp [member])]
    simp [payload?_object, Json.bool?, Readable]
  | number x =>
    rw [toJson, ofJson?, untag?_tagged nested (show _ = some 2 by rfl) (by simp [member])]
    simp [payload?_object, Readable, readsBack_iff, Option.bind_eq_some_iff]
  | string s =>
    rw [toJson, ofJson?, untag?_tagged nested (show _ = some 3 by rfl) (by simp [member])]
    simp [payload?_object, Json.string?, str, Readable]
  | type name =>
    rw [toJson, ofJson?, untag?_tagged nested (show _ = some 4 by rfl) (by simp [member])]
    simp [payload?_object, Json.string?, str, Readable]
  | ref id =>
    rw [toJson, ofJson?, untag?_tagged nested (show _ = some 5 by rfl) (by simp [member])]
    simp [payload?_object, Readable, ← reference?_ofNat_iff, Option.bind_eq_some_iff]

theorem wellFormed_toJson (n : Node) : n.toJson.WellFormed := by
  cases n with
  | number x =>
    simp [toJson, tagged, member, str, WellFormed, WellFormedMembers, Numeral.wellFormed_ofFloat]
  | ref id =>
    simp [toJson, tagged, member, str, WellFormed, WellFormedMembers, Numeral.wellFormed_ofNat]
  | _ => simp [toJson, tagged, member, str, WellFormed, WellFormedMembers]

theorem sound_toJson {n : Node} (h : n.Readable) (k : Nat) : n.toJson.sound (k + 1) = true := by
  cases n with
  | number x =>
    obtain ⟨y, hy, -⟩ := Option.map_eq_some_iff.1 (readsBack_iff.1 h)
    simp [toJson, tagged, member, str, sound, hy]
  | ref id =>
    have hword : id ≤ maxWord := Nat.le_trans h (by decide)
    simp [toJson, tagged, member, str, sound, Numeral.value?_ofNat hword]
  | _ => simp [toJson, tagged, member, str, sound]

end Node

theorem mapM_map_eq_some_iff {α : Type} {f : Json → Option α} {g : α → Json} {l : List α} :
    (l.map g).mapM f = some l ↔ ∀ x ∈ l, f (g x) = some x := by
  induction l with
  | nil => simp
  | cons x l ih =>
    rw [List.forall_mem_cons, ← ih]
    simp [Option.bind_eq_some_iff]

theorem Record.elements?_eq_some_iff {α : Type} {f : Json → Option α} {g : α → Json} {l : List α} :
    elements? f (some (.array (l.map g))) = some l ↔ ∀ x ∈ l, f (g x) = some x :=
  mapM_map_eq_some_iff

namespace Entry

open Json

theorem ofJson?_toJson_iff (e : Entry) : ofJson? e.toJson = some e ↔ e.value.Readable := by
  rw [← Node.ofJson?_toJson_iff true]
  obtain ⟨key, value⟩ := e
  simp [toJson, ofJson?, fields?, field?, member, str, Json.string?, Option.bind_eq_some_iff]

theorem wellFormed_toJson (e : Entry) : e.toJson.WellFormed := by
  simp [toJson, member, str, WellFormed, WellFormedMembers, Node.wellFormed_toJson]

theorem sound_toJson {e : Entry} (h : e.value.Readable) (k : Nat) :
    e.toJson.sound (k + 2) = true := by
  simp [toJson, member, str, sound, Node.sound_toJson h]

end Entry

namespace Field

open Json

theorem ofJson?_toJson_iff (f : Field) : ofJson? f.toJson = some f ↔ f.value.Readable := by
  rw [← Node.ofJson?_toJson_iff true]
  obtain ⟨name, isPrivate, isConstant, value⟩ := f
  cases isPrivate <;> cases isConstant <;>
    simp [toJson, ofJson?, flagMember, flag?, fields?, field?, member, str, Json.string?, Json.bool?,
      Option.bind_eq_some_iff]

theorem wellFormed_toJson (f : Field) : f.toJson.WellFormed := by
  cases hprivate : f.isPrivate <;> cases hconstant : f.isConstant <;>
    simp [toJson, flagMember, hprivate, hconstant, member, str, WellFormed, WellFormedMembers,
      Node.wellFormed_toJson]

theorem sound_toJson {f : Field} (h : f.value.Readable) (k : Nat) :
    f.toJson.sound (k + 2) = true := by
  cases hprivate : f.isPrivate <;> cases hconstant : f.isConstant <;>
    simp [toJson, flagMember, hprivate, hconstant, member, str, sound, Node.sound_toJson h]

end Field

namespace Record

open Json

theorem ofJson?_toJson_iff (r : Record) :
    ofJson? r.toJson = some r ↔ ∀ n ∈ r.nodes, n.Readable := by
  cases r with
  | array items =>
    rw [toJson, ofJson?, untag?_tagged false (show _ = some 0 by rfl) (by simp [member])]
    simp [fields?, field?, member, Option.bind_eq_some_iff, elements?_eq_some_iff, nodes,
      Node.ofJson?_toJson_iff]
  | map entries =>
    rw [toJson, ofJson?, untag?_tagged false (show _ = some 1 by rfl) (by simp [member])]
    simp [fields?, field?, member, Option.bind_eq_some_iff, elements?_eq_some_iff, nodes,
      Entry.ofJson?_toJson_iff]
  | object typeName attributes =>
    rw [toJson, ofJson?, untag?_tagged false (show _ = some 2 by rfl) (by simp [member])]
    simp [fields?, field?, member, str, Json.string?, Option.bind_eq_some_iff, elements?_eq_some_iff,
      nodes, Field.ofJson?_toJson_iff]

theorem wellFormed_toJson (r : Record) : r.toJson.WellFormed := by
  cases r with
  | array items =>
    simp [toJson, tagged, member, str, WellFormed, WellFormedMembers, wellFormedItems_iff,
      Node.wellFormed_toJson]
  | map entries =>
    simp [toJson, tagged, member, str, WellFormed, WellFormedMembers, wellFormedItems_iff,
      Entry.wellFormed_toJson]
  | object typeName attributes =>
    simp [toJson, tagged, member, str, WellFormed, WellFormedMembers, wellFormedItems_iff,
      Field.wellFormed_toJson]

theorem sound_toJson {r : Record} (h : ∀ n ∈ r.nodes, n.Readable) (k : Nat) :
    r.toJson.sound (k + 4) = true := by
  cases r with
  | array items =>
    have hitems : ∀ n ∈ items, n.toJson.sound (k + 2) = true :=
      fun n hn => Node.sound_toJson (h n hn) (k + 1)
    simpa [toJson, tagged, member, str, sound] using hitems
  | map entries =>
    have hentries : ∀ e ∈ entries, e.toJson.sound (k + 2) = true :=
      fun e he => Entry.sound_toJson (h e.value (List.mem_map.2 ⟨e, he, rfl⟩)) k
    simpa [toJson, tagged, member, str, sound] using hentries
  | object typeName attributes =>
    have hattributes : ∀ f ∈ attributes, f.toJson.sound (k + 2) = true :=
      fun f hf => Field.sound_toJson (h f.value (List.mem_map.2 ⟨f, hf, rfl⟩)) k
    simpa [toJson, tagged, member, str, sound] using hattributes

end Record

namespace Graph

open Json

theorem wellFormed_toJson (g : Graph) : g.toJson.WellFormed := by
  cases hrecords : g.records with
  | nil => simp [toJson, hrecords, member, WellFormed, WellFormedMembers, Node.wellFormed_toJson]
  | cons r rs =>
    simp [toJson, recordsJson, hrecords, member, WellFormed, WellFormedMembers, wellFormedItems_iff,
      Node.wellFormed_toJson, Record.wellFormed_toJson]

theorem sound?_eq_some_iff {v w : Json} :
    sound? v = some w ↔ v.sound graphNesting = true ∧ v = w := by
  unfold sound?
  split <;> simp [*]

theorem ofJson?_root_iff (n : Node) :
    (sound? n.toJson).bind (Node.ofJson? false) = some n ↔ n.Readable := by
  simp only [Option.bind_eq_some_iff, sound?_eq_some_iff, and_assoc, exists_and_left, exists_eq_left',
    Node.ofJson?_toJson_iff]
  exact ⟨fun h => h.2, fun h => ⟨Node.sound_toJson h _, h⟩⟩

theorem ofJson?_records_iff (records : List Record) :
    Record.elements? Record.ofJson? (sound? (recordsJson records)) = some records ↔
      ∀ r ∈ records, ∀ n ∈ r.nodes, n.Readable := by
  have hread : Record.elements? Record.ofJson? (some (recordsJson records)) = some records ↔
      ∀ r ∈ records, ∀ n ∈ r.nodes, n.Readable := by
    simp only [recordsJson, Record.elements?_eq_some_iff, Record.ofJson?_toJson_iff]
  unfold sound?
  split
  · exact hread
  · rename_i hunsound
    -- what can be read back is sound
    refine ⟨nofun, fun h => absurd ?_ hunsound⟩
    simp only [recordsJson, graphNesting, sound, List.all_map, List.all_eq_true]
    exact fun r hr => Record.sound_toJson (h r hr) _

theorem forall_nodes_iff (g : Graph) (P : Node → Prop) :
    (∀ n ∈ g.nodes, P n) ↔ P g.root ∧ ∀ r ∈ g.records, ∀ n ∈ r.nodes, P n := by
  simp only [nodes, List.forall_mem_cons, List.mem_flatMap, forall_exists_index, and_imp]
  exact and_congr_right fun _ => ⟨fun h r hr n hn => h n r hr hn, fun h n r hr hn => h r hr n hn⟩

theorem ofJson?_toJson_iff (g : Graph) :
    ofJson? g.toJson = some g ↔ ∀ n ∈ g.nodes, n.Readable := by
  rw [forall_nodes_iff, ← ofJson?_root_iff]
  obtain ⟨root, records⟩ := g
  cases records with
  | nil =>
    simp [toJson, ofJson?, fields?, field?, member, Option.bind_eq_some_iff]
  | cons r rs =>
    rw [← ofJson?_records_iff]
    simp [toJson, ofJson?, fields?, field?, member, Option.bind_eq_some_iff, ← and_assoc]

/-- A graph is read back from its text exactly if its numbers are, and if its references are in
range. -/
theorem parse_text_iff (g : Graph) :
    Json.parse g.text = some g.toJson ∧
      (Graph.parse g.text = .ok g ↔
        (∀ x, .number x ∈ g.nodes → ReadsBack x) ∧ ∀ id, .ref id ∈ g.nodes → id ≤ maxReference) := by
  have htext : Json.parse g.text = some g.toJson := parse_text g.wellFormed_toJson
  refine ⟨htext, ?_⟩
  have hparse : Graph.parse g.text = .ok g ↔ ofJson? g.toJson = some g := by
    rw [Graph.parse, htext, Option.bind_some]
    cases ofJson? g.toJson <;> simp
  rw [hparse, ofJson?_toJson_iff]
  constructor
  · intro h
    exact ⟨fun x hx => h _ hx, fun id hid => h _ hid⟩
  · rintro ⟨hnumbers, hrefs⟩ n hn
    cases n with
    | number x => exact hnumbers x hn
    | ref id => exact hrefs id hn
    | _ => trivial

/-- Numbers, names and flags that ask something of the text. -/
def knotted : Graph where
  root := .ref 1
  records :=
    [.array [.number 0.1, .number (-0.0), .number 5e-324, .void, .ref maxReference],
     .object "Quote\"\\" [⟨"tab\t\x01\x1f", true, false, .string "\x00\u2028😀"⟩,
       ⟨"", false, true, .bool true⟩],
     .map [⟨"key", .type "Object"⟩]]

theorem parse_text_iff_knotted : Graph.parse knotted.text = .ok knotted := by
  refine (parse_text_iff knotted).2.2 ⟨fun x hx => ?_, fun id hid => ?_⟩
  · have hnumbers : x = 0.1 ∨ x = -0.0 ∨ x = 5e-324 := by
      simpa [nodes, knotted, Record.nodes] using hx
    rcases hnumbers with rfl | rfl | rfl <;> decide +kernel
  · have hrefs : id = 1 ∨ id = maxReference := by
      simpa [nodes, knotted, Record.nodes] using hid
    rcases hrefs with rfl | rfl <;> decide

/-- Reading is fast rather than exact. -/
example : ¬ ReadsBack (Float.ofBits 0x7feffffffffffffe) := by
  decide +kernel

end Graph

end ScriptMachine
