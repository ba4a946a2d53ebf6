import Mathlib.Data.List.Forall2
import ScriptMachine.Proofs.Graph.Written

namespace ScriptMachine

open List (Forall₂)

/-- Seen from outside the two values are the same: one primitive, types of one name, or containers of
one kind whose slots are paired by `R`. -/
inductive Value.Resembles (s t : Store) (R : Value → Value → Prop) : Value → Value → Prop
  | primitive {a : Value} (ha : a.isPrimitive = true) : Resembles s t R a a
  | type {x y : TypeId} (h : s.typeName x = t.typeName y) : Resembles s t R (.type x) (.type y)
  | array {i j : ArrayId} (h : Forall₂ R (s.array i).toList (t.array j).toList) :
      Resembles s t R (.array i) (.array j)
  | map {i j : MapId}
      (h : Forall₂ (fun e f => e.1 = f.1 ∧ R e.2 f.2) (s.map i).entries (t.map j).entries) :
      Resembles s t R (.map i) (.map j)
  | object {i j : ObjectId} (htype : s.typeName (s.object i).type = t.typeName (t.object j).type)
      (h : Forall₂ (fun e f => e.1 = f.1 ∧ e.2.flags.isPrivate = f.2.flags.isPrivate ∧
        e.2.flags.isConstant = f.2.flags.isConstant ∧ R e.2.value f.2.value)
        (s.object i).attributes.entries (t.object j).attributes.entries) :
      Resembles s t R (.object i) (.object j)

/-- The pairing makes the stores look alike, and it is one to one on containers. -/
structure Store.Alike (s t : Store) (R : Value → Value → Prop) : Prop where
  resembles : ∀ {a b : Value}, R a b → a.Resembles s t R b
  inj : ∀ {a b a' b' : Value}, R a b → R a' b' → a.isContainer = true → a'.isContainer = true →
    (a = a' ↔ b = b')

namespace Encoder

/-- Two encoders that have gone the same way, each in its store. -/
structure Twin (R : Value → Value → Prop) (e e' : Encoder) : Prop where
  next : e.registry.next = e'.registry.next
  ids : ∀ a b, R a b → a.isContainer = true → e.registry.idOf? a = e'.registry.idOf? b
  pending : Forall₂ (fun a b => R a b ∧ a.isContainer = true) e.pending e'.pending
  records : e.records = e'.records

/-- Two steps that end the same way: with one result and twins, or with one error. -/
def Together {α : Type} (R : Value → Value → Prop) :
    EStateM.Result CodecError Encoder α → EStateM.Result CodecError Encoder α → Prop
  | .ok a e, .ok b e' => a = b ∧ Twin R e e'
  | .error err _, .error err' _ => err = err'
  | _, _ => False

section Lockstep

variable {α β : Type} {R : Value → Value → Prop} {s t : Store} {e e' : Encoder} {a b : Value}

theorem Together.exists {r r' : EStateM.Result CodecError Encoder α} (h : Together R r r') :
    (∃ a e e', r = .ok a e ∧ r' = .ok a e' ∧ Twin R e e') ∨
      ∃ err e e', r = .error err e ∧ r' = .error err e' := by
  cases r with
  | ok a e =>
    cases r' with
    | ok b e' =>
      obtain ⟨rfl, htwin⟩ := h
      exact .inl ⟨a, e, e', rfl, rfl, htwin⟩
    | error err e' => exact h.elim
  | error err e =>
    cases r' with
    | ok b e' => exact h.elim
    | error err' e' => exact .inr ⟨err, e, e', rfl, congrArg (EStateM.Result.error · e') h.symm⟩

theorem Together.bind {x y : EncodeM α} {f g : α → EncodeM β} (h : Together R (x e) (y e'))
    (hf : ∀ a e e', Twin R e e' → Together R (f a e) (g a e')) :
    Together R ((x >>= f) e) ((y >>= g) e') := by
  change Together R (EStateM.bind x f e) (EStateM.bind y g e')
  unfold EStateM.bind
  obtain ⟨a, e₁, e₁', hx, hy, htwin⟩ | ⟨err, e₁, e₁', hx, hy⟩ := h.exists
  · rw [hx, hy]
    exact hf a e₁ e₁' htwin
  · rw [hx, hy]
    exact rfl

theorem Together.pure (x : α) (h : Twin R e e') :
    Together R ((pure x : EncodeM α) e) ((pure x : EncodeM α) e') :=
  ⟨rfl, h⟩

theorem isContainer_of_resembles (h : a.Resembles s t R b) : b.isContainer = a.isContainer := by
  cases h <;> rfl

theorem Twin.append (h : Twin R e e') (hR : s.Alike t R) (hab : R a b) (ha : a.isContainer = true)
    {cell cell' : CellKind × Nat} (hcell : a.identity? = some cell)
    (hcell' : b.identity? = some cell') (n : Nat) :
    Twin R
      { e with
        registry :=
          { ids := (cell, n) :: e.registry.ids
            values := (n, a) :: e.registry.values
            next := n + 1 }
        pending := e.pending ++ [a] }
      { e' with
        registry :=
          { ids := (cell', n) :: e'.registry.ids
            values := (n, b) :: e'.registry.values
            next := n + 1 }
        pending := e'.pending ++ [b] } := by
  have hb : b.isContainer = true := (isContainer_of_resembles (hR.resembles hab)).trans ha
  refine ⟨rfl, ?_, List.rel_append h.pending (.cons ⟨hab, ha⟩ .nil), h.records⟩
  intro c d hcd hc
  have hd : d.isContainer = true := (isContainer_of_resembles (hR.resembles hcd)).trans hc
  obtain ⟨k, hk⟩ := Value.exists_identity hc
  obtain ⟨k', hk'⟩ := Value.exists_identity hd
  have hids := h.ids c d hcd hc
  simp only [Registry.idOf?, hk, hk', Option.bind_eq_bind, Option.bind_some, List.lookup_cons]
    at hids ⊢
  by_cases hca : c = a
  · obtain rfl : d = b := (hR.inj hcd hab hc ha).1 hca
    subst hca
    rw [hcell] at hk
    rw [hcell'] at hk'
    cases hk
    cases hk'
    simp
  · have hdb : d ≠ b := fun heq => hca ((hR.inj hcd hab hc ha).2 heq)
    have hne : (k == cell) = false := by
      refine beq_eq_false_iff_ne.2 fun heq => hca (Value.eq_of_identity hc ha ?_)
      rw [hk, hcell, heq]
    have hne' : (k' == cell') = false := by
      refine beq_eq_false_iff_ne.2 fun heq => hdb (Value.eq_of_identity hd hb ?_)
      rw [hk', hcell', heq]
    rw [hne, hne']
    exact hids

theorem Twin.slot_container (h : Twin R e e') (hR : s.Alike t R) (hab : R a b)
    (ha : a.isContainer = true) : Together R (slot s a e) (slot t b e') := by
  have hb : b.isContainer = true := (isContainer_of_resembles (hR.resembles hab)).trans ha
  obtain ⟨cell, hcell⟩ := Value.exists_identity ha
  obtain ⟨cell', hcell'⟩ := Value.exists_identity hb
  have hids := h.ids a b hab ha
  rw [Encoder.slot_container s ha, Encoder.slot_container t hb]
  simp only [Registry.idOf?, hcell, hcell', Option.bind_eq_bind, Option.bind_some] at hids
  simp only [Registry.register, hcell, hcell', Option.bind_eq_bind, Option.bind_some, hids, h.next]
  cases e'.registry.ids.lookup cell' with
  | some i => exact ⟨rfl, h.next, h.ids, h.pending, h.records⟩
  | none =>
    by_cases hlt : e'.registry.next < idLimit
    · simp only [hlt, if_true]
      exact ⟨rfl, h.append hR hab ha hcell hcell' e'.registry.next⟩
    · simp only [hlt, if_false]
      rfl

theorem Twin.slot (h : Twin R e e') (hR : s.Alike t R) (hab : R a b) :
    Together R (slot s a e) (slot t b e') := by
  cases hR.resembles hab with
  | primitive ha =>
    cases a with
    | void => exact ⟨rfl, h⟩
    | bool _ => exact ⟨rfl, h⟩
    | string _ => exact ⟨rfl, h⟩
    | number n =>
      by_cases hn : n.isFinite = true
      · simp only [Encoder.slot, hn, if_true]
        exact ⟨rfl, h⟩
      · simp only [Encoder.slot, hn]
        exact rfl
    | _ => cases ha
  | @type x y hname =>
    have hnode : Node.type (s.typeName x) = .type (t.typeName y) := congrArg _ hname
    exact ⟨hnode, h⟩
  | array _ => exact h.slot_container hR hab rfl
  | map _ => exact h.slot_container hR hab rfl
  | object _ _ => exact h.slot_container hR hab rfl

theorem Twin.packAll {γ : Type} {value : α → Value} {value' : β → Value} {pack : α → Node → γ}
    {pack' : β → Node → γ} {l : List α} {l' : List β} (h : Twin R e e') (hR : s.Alike t R)
    (hl : Forall₂ (fun x y => R (value x) (value' y) ∧ pack x = pack' y) l l') :
    Together R (packAll s value pack l e) (packAll t value' pack' l' e') := by
  induction hl generalizing e e' with
  | nil => exact .pure [] h
  | cons hxy _ ih =>
    refine .bind (h.slot hR hxy.1) fun n e₁ e₁' h₁ => ?_
    rw [hxy.2]
    exact .bind (ih h₁) fun bs e₂ e₂' h₂ => .pure _ h₂

theorem Twin.record (h : Twin R e e') (hR : s.Alike t R) (hab : R a b) (ha : a.isContainer = true) :
    Together R (record s a e) (record t b e') := by
  cases hR.resembles hab with
  | primitive hprimitive =>
    obtain ⟨cell, hcell⟩ := Value.exists_identity ha
    simp [Value.isPrimitive, hcell] at hprimitive
  | type _ => cases ha
  | array hitems =>
    rw [Encoder.record, Encoder.record, slots_eq_packAll, slots_eq_packAll]
    refine .bind (h.packAll hR (hitems.imp fun x y hxy => ⟨hxy, rfl⟩)) fun _ _ _ h₁ => .pure _ h₁
  | map hentries =>
    rw [Encoder.record, Encoder.record, entries_eq_packAll, entries_eq_packAll]
    refine .bind (h.packAll hR (hentries.imp fun x y hxy => ⟨hxy.2, ?_⟩)) fun _ _ _ h₁ => .pure _ h₁
    rw [hxy.1]
  | object htype hfields =>
    rw [Encoder.record, Encoder.record, fields_eq_packAll, fields_eq_packAll, htype]
    refine .bind (h.packAll hR (hfields.imp fun x y hxy => ⟨hxy.2.2.2, ?_⟩)) fun _ _ _ h₁ => .pure _ h₁
    rw [hxy.1, hxy.2.1, hxy.2.2.1]

theorem Twin.drain (h : Twin R e e') (hR : s.Alike t R) (n : Nat) :
    Together R (drain s n e) (drain t n e') := by
  induction n generalizing e e' with
  | zero => exact .pure () h
  | succ n ih =>
    have hpending := h.pending
    cases hp : e.pending with
    | nil =>
      rw [hp] at hpending
      rw [drain_nil s n hp, drain_nil t n (List.forall₂_nil_left_iff.1 hpending)]
      exact .pure () h
    | cons c rest =>
      rw [hp] at hpending
      obtain ⟨c', rest', hc, hrest, hp'⟩ := List.forall₂_cons_left_iff.1 hpending
      rw [drain_cons s n hp, drain_cons t n hp']
      have h₁ : Twin R { e with pending := rest } { e' with pending := rest' } :=
        ⟨h.next, h.ids, hrest, h.records⟩
      refine .bind (h₁.record hR hc.1 hc.2) fun r e₂ e₂' h₂ => ?_
      have h₃ : Twin R { e₂ with records := e₂.records.push r }
          { e₂' with records := e₂'.records.push r } :=
        ⟨h₂.next, h₂.ids, h₂.pending, congrArg (Array.push · r) h₂.records⟩
      exact ih h₃

theorem Twin.encode (h : Twin R e e') (hR : s.Alike t R) (hab : R a b) :
    Together R (encode s a e) (encode t b e') := by
  refine .bind (h.slot hR hab) fun root e₁ e₁' h₁ => ?_
  have hfuel : e₁.pending.length = e₁'.pending.length := h₁.pending.length_eq
  change Together R ((Encoder.drain s (idLimit + e₁.pending.length) >>= fun _ => pure root) e₁)
    ((Encoder.drain t (idLimit + e₁'.pending.length) >>= fun _ => pure root) e₁')
  rw [hfuel]
  exact .bind (h₁.drain hR _) fun _ _ _ h₂ => .pure root h₂

end Lockstep

end Encoder

/-- Encoding sees only what values look like: paired values have one and the same graph, or fail in
the same way. -/
theorem Store.Alike.encode_eq {s t : Store} {R : Value → Value → Prop} {a b : Value}
    (hR : s.Alike t R) (hab : R a b) : s.encode a = t.encode b := by
  have hstart : Encoder.Twin R {} {} := by
    refine ⟨rfl, fun c d hcd hc => ?_, .nil, rfl⟩
    have hd := (Encoder.isContainer_of_resembles (hR.resembles hcd)).trans hc
    obtain ⟨k, hk⟩ := Value.exists_identity hc
    obtain ⟨k', hk'⟩ := Value.exists_identity hd
    simp [Registry.idOf?, hk, hk']
  unfold Store.encode
  obtain ⟨root, e, e', hx, hy, htwin⟩ | ⟨err, e, e', hx, hy⟩ := (hstart.encode hR hab).exists
  · simp only [hx, hy, htwin.records]
  · simp only [hx, hy]

end ScriptMachine
