import Mathlib.Data.List.Nodup
import ScriptMachine.Proofs.Graph.Decoded
import ScriptMachine.Proofs.Graph.Written

namespace ScriptMachine

open List (Forall₂)

/-- The value in place of `w` when the containers `order` are replaced by `vs`, one by one. -/
def image (order vs : List Value) (w : Value) : Value :=
  if w.isContainer then vs.getD ((order.map Value.identity?).idxOf w.identity?) w else w

theorem image_of_not_isContainer {order vs : List Value} {w : Value} (h : w.isContainer = false) :
    image order vs w = w := by
  simp [image, h]

theorem image_of_getElem? {order vs : List Value} {i : Nat} {c x : Value} (hnodup : order.Nodup)
    (hcontainers : ∀ c ∈ order, c.isContainer = true) (hc : order[i]? = some c)
    (hx : vs[i]? = some x) : image order vs c = x := by
  have hids : (order.map Value.identity?).Nodup :=
    List.Nodup.map_on (fun a ha b hb h => Value.eq_of_identity (hcontainers a ha) (hcontainers b hb) h)
      hnodup
  have hid : (order.map Value.identity?)[i]? = some c.identity? := by
    rw [List.getElem?_map, hc]
    rfl
  obtain ⟨hlt, hget⟩ := List.getElem?_eq_some_iff.1 hid
  have hidx : (order.map Value.identity?).idxOf c.identity? = i := by
    rw [← hget]
    exact hids.idxOf_getElem i hlt
  have hcontainer := hcontainers c (List.mem_of_getElem? hc)
  simp [image, hcontainer, hidx, hx]

/-- The type is reached from `v`, as a value or as the type of an object. -/
def Store.Occurs (s : Store) (v : Value) (type : TypeId) : Prop :=
  s.Reach v (.type type) ∨ ∃ id, s.Reach v (.object id) ∧ (s.object id).type = type

/-- The type is in a slot of the container, or it is the type of the container itself. -/
def Store.Mentions (s : Store) (c : Value) (type : TypeId) : Prop :=
  .type type ∈ s.contents c ∨ ∃ id, c = .object id ∧ (s.object id).type = type

theorem Store.Mentions.occurs {s : Store} {v c : Value} {type : TypeId} (h : s.Mentions c type)
    (hc : s.Reach v c) : s.Occurs v type := by
  rcases h with hmem | ⟨id, rfl, htype⟩
  · exact .inl (hc.step hmem)
  · exact .inr ⟨id, hc, htype⟩

section Records

variable {s : Store} {order vs : List Value} {lookup : TypeLookup} {w c : Value} {n : Node}
  {r : Record} {φ : Value → Value}

theorem NodeFor.known (hn : NodeFor s order w n)
    (hfound : ∀ name, n = .type name → (lookup name).isSome = true) :
    n.Known lookup order.length := by
  cases hn with
  | type ty => exact hfound _ rfl
  | ref _ hi => exact (List.getElem?_eq_some_iff.1 hi).1
  | _ => exact trivial

theorem exists_mem_of_forall₂ {α β : Type} {R : α → β → Prop} {l : List α} {m : List β} {b : β}
    (h : Forall₂ R l m) (hb : b ∈ m) : ∃ a ∈ l, R a b := by
  obtain ⟨i, hi⟩ := List.getElem?_of_mem hb
  obtain ⟨a, ha, hab⟩ := exists_getElem?_of_forall₂ h.flip hi
  exact ⟨a, List.mem_of_getElem? ha, hab⟩

theorem RecordFor.exists_slot (hr : RecordFor s order c r) (hn : n ∈ r.nodes) :
    ∃ w ∈ s.contents c, NodeFor s order w n := by
  cases hr with
  | array h => exact exists_mem_of_forall₂ h hn
  | map h =>
    obtain ⟨f, hf, rfl⟩ := List.mem_map.1 hn
    obtain ⟨e, he, -, hnode⟩ := exists_mem_of_forall₂ h hf
    exact ⟨e.2, List.mem_map_of_mem he, hnode⟩
  | object h =>
    obtain ⟨f, hf, rfl⟩ := List.mem_map.1 hn
    obtain ⟨e, he, -, -, -, hnode⟩ := exists_mem_of_forall₂ h hf
    exact ⟨e.2.value, List.mem_map_of_mem he, hnode⟩

theorem forall₂_comp {α β γ : Type} {R : α → β → Prop} {S : β → γ → Prop} {T : α → γ → Prop}
    {l : List α} {m : List β} {k : List γ} (h : Forall₂ R l m) (h' : Forall₂ S m k)
    (hRS : ∀ a b c, R a b → S b c → T a c) : Forall₂ T l k := by
  induction h generalizing k with
  | nil =>
    cases h'
    exact .nil
  | cons hab _ ih =>
    cases h' with
    | cons hbc h' => exact .cons (hRS _ _ _ hab hbc) (ih h')

theorem map_eq_map_of_forall₂ {α β γ : Type} {f : α → γ} {g : β → γ} {l : List α} {m : List β}
    (h : Forall₂ (fun a b => g b = f a) l m) : m.map g = l.map f := by
  induction h with
  | nil => rfl
  | cons hab _ ih => rw [List.map_cons, List.map_cons, hab, ih]

/-- What the record of a container stands for is a copy of the container. -/
theorem RecordFor.cell_eq (hr : RecordFor s order c r)
    (htype : ∀ ty, s.Mentions c ty → lookup (s.typeName ty) = some ty)
    (hvalue : ∀ w ∈ s.contents c, ∀ n, NodeFor s order w n → n.value lookup vs = φ w) :
    some (r.cell lookup vs) = s.copied φ c := by
  cases hr with
  | @array id items h =>
    have hitems : items.map (·.value lookup vs) = (s.array id).toList.map φ :=
      map_eq_map_of_forall₂ (((List.forall₂_and_left ..).2 ⟨hvalue, h⟩).imp fun w n h => h.1 n h.2)
    rw [Record.cell, hitems, ← Array.toList_map]
    rfl
  | @map id entries h =>
    have hread : ∀ e ∈ (s.map id).entries, ∀ n, NodeFor s order e.2 n → n.value lookup vs = φ e.2 :=
      fun e he => hvalue e.2 (List.mem_map_of_mem he)
    have hentries : entries.map (fun f => (f.key, f.value.value lookup vs)) =
        ((s.map id).mapValues φ).entries := by
      refine map_eq_map_of_forall₂ (((List.forall₂_and_left ..).2 ⟨hread, h⟩).imp fun e f h => ?_)
      rw [h.2.1, h.1 f.value h.2.2]
    rw [Record.cell, hentries, Table.ofList_entries]
    rfl
  | @object id fields h =>
    have hread : ∀ e ∈ (s.object id).attributes.entries, ∀ n, NodeFor s order e.2.value n →
        n.value lookup vs = φ e.2.value :=
      fun e he => hvalue e.2.value (List.mem_map_of_mem he)
    have hfields : fields.map (fun f => (f.name, (⟨f.value.value lookup vs,
        { isPrivate := f.isPrivate, isConstant := f.isConstant }⟩ : Attribute))) =
        ((s.object id).attributes.mapValues (·.copied φ)).entries := by
      refine map_eq_map_of_forall₂ (((List.forall₂_and_left ..).2 ⟨hread, h⟩).imp fun e f h => ?_)
      rw [h.2.1, h.1 f.value h.2.2.2.2, h.2.2.1, h.2.2.2.1]
      rfl
    rw [Record.cell, hfields, Table.ofList_entries, htype _ (.inr ⟨id, rfl, rfl⟩)]
    rfl

end Records

namespace Graph

variable {s : Store} {v : Value} {order : List Value} {lookup : TypeLookup} {g : Graph}

theorem Shows.exists_type (hg : g.Shows s v order) {name : String} (h : g.Mentions name) :
    ∃ ty, s.typeName ty = name ∧ (v = .type ty ∨ ∃ c ∈ order, s.Mentions c ty) := by
  have hslot {w : Value} (hw : NodeFor s order w (.type name)) :
      ∃ ty, w = .type ty ∧ s.typeName ty = name := by
    cases hw with
    | type ty => exact ⟨ty, rfl, rfl⟩
  rcases h with hnode | ⟨fields, hrecord⟩
  · rcases List.mem_cons.1 hnode with hroot | hnode
    · obtain ⟨ty, hv, hname⟩ := hslot (hroot ▸ hg.root)
      exact ⟨ty, hname, .inl hv⟩
    · obtain ⟨r, hr, hn⟩ := List.mem_flatMap.1 hnode
      obtain ⟨c, hc, hfor⟩ := exists_mem_of_forall₂ hg.records hr
      obtain ⟨w, hw, hnode⟩ := hfor.exists_slot hn
      obtain ⟨ty, rfl, hname⟩ := hslot hnode
      exact ⟨ty, hname, .inr ⟨c, hc, .inl hw⟩⟩
  · obtain ⟨c, hc, hfor⟩ := exists_mem_of_forall₂ hg.records hrecord
    cases hfor with
    | @object id _ _ => exact ⟨(s.object id).type, rfl, .inr ⟨_, hc, .inr ⟨id, rfl, rfl⟩⟩⟩

theorem Shows.closed (hg : g.Shows s v order)
    (hfound : ∀ name, g.Mentions name → (lookup name).isSome = true) : g.Closed lookup := by
  have hlength : g.records.length = order.length := hg.records.length_eq.symm
  refine ⟨hlength ▸ hg.limit, fun r hr => ?_, ?_, fun r hr n hn => ?_⟩
  · cases r with
    | object name fields => exact hfound name (.inr ⟨fields, hr⟩)
    | _ => exact trivial
  · rw [hlength]
    refine hg.root.known fun name hname => hfound name (.inl ?_)
    exact hname ▸ List.mem_cons_self ..
  · rw [hlength]
    obtain ⟨c, -, hfor⟩ := exists_mem_of_forall₂ hg.records hr
    obtain ⟨w, -, hnode⟩ := hfor.exists_slot hn
    refine hnode.known fun name hname => hfound name (.inl ?_)
    exact List.mem_cons_of_mem _ (List.mem_flatMap.2 ⟨r, hr, hname ▸ hn⟩)

/-- A graph that shows `v` is decoded to copies of its containers. -/
theorem Shows.decode_spec (hg : g.Shows s v order)
    (hroot : ∀ ty, v = .type ty → lookup (s.typeName ty) = some ty)
    (hfound : ∀ c ∈ order, ∀ ty, s.Mentions c ty → lookup (s.typeName ty) = some ty) (t : Store) :
    ∃ vs d t', g.decode lookup t = .ok d t' ∧ d.root = image order vs v ∧
      Forall₂ (fun c x => t'.cell? x = s.copied (image order vs) c) order vs ∧ vs.Nodup ∧
      (∀ x ∈ vs, t.cell? x = none) ∧ ∀ y, y ∉ vs → t'.cell? y = t.cell? y := by
  have hnames : ∀ name, g.Mentions name → (lookup name).isSome = true := by
    intro name h
    obtain ⟨ty, rfl, hv | ⟨c, hc, hty⟩⟩ := hg.exists_type h
    · rw [hroot ty hv]
      rfl
    · rw [hfound c hc ty hty]
      rfl
  obtain ⟨vs, d, t', hdecode, hbuilt, hd⟩ := (hg.closed hnames).decode_spec t
  have hvalue {w : Value} {n : Node} (hw : ∀ ty, w = .type ty → lookup (s.typeName ty) = some ty)
      (hn : NodeFor s order w n) : n.value lookup vs = image order vs w := by
    cases hn with
    | type ty =>
      rw [Node.value, hw ty rfl]
      rfl
    | @ref _ i _ hi =>
      obtain ⟨r, hr, -⟩ := exists_getElem?_of_forall₂ hg.records hi
      obtain ⟨x, hx, -⟩ := exists_getElem?_of_forall₂ hbuilt.cells hr
      rw [image_of_getElem? hg.nodup hg.containers hi hx, Node.value, List.getD_eq_getElem?_getD, hx]
      rfl
    | _ => rfl
  refine ⟨vs, d, t', hdecode, hd.trans (hvalue hroot hg.root), ?_, hbuilt.nodup, hbuilt.fresh,
    hbuilt.kept⟩
  refine forall₂_comp ((List.forall₂_and_left ..).2 ⟨fun c hc => hc, hg.records⟩) hbuilt.cells ?_
  rintro c r x ⟨hc, hr⟩ hx
  rw [hx]
  exact hr.cell_eq (hfound c hc) fun w hw n hn =>
    hvalue (fun ty hty => hfound c hc ty (.inl (hty ▸ hw))) hn

end Graph

end ScriptMachine
