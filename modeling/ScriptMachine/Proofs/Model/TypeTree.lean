import ScriptMachine.Proofs.Model.Chain
import ScriptMachine.Proofs.Model.KnownTypes

namespace ScriptMachine

namespace Store

/-- `ts` leads from `t` along the bases to `Object`, past no type twice. -/
structure BasePath (s : Store) (t : TypeId) (ts : List TypeId) : Prop where
  head : ts.head? = some t
  links : ts.IsChain fun u b => (s.type u).base = some b
  last : ts.getLast? = some Builtin.object.id
  nodup : ts.Nodup

/-- Walks along the bases come to an end, and each goes on to every base that there is. -/
structure BasesFounded (s : Store) : Prop where
  root : (s.type Builtin.object.id).base = none
  founded : WellFounded fun b t => (s.type t).base = some b
  chain : ∀ t, s.chain t = t :: (s.type t).base.elim [] s.chain
  lookup : ∀ t name,
    s.lookup t name = ((s.type t).find? t name).or ((s.type t).base.bind (s.lookup · name))
  methodOwner : ∀ t f, s.methodOwner? (.type t) f =
    if (s.type t).declares f then some t
    else (s.type t).base.bind fun b => s.methodOwner? (.type b) f
  isSubtype : ∀ t u,
    s.isSubtype t u = (decide (t = u) || (s.type t).base.any (s.isSubtype · u))

theorem methodOwner?_eq (s : Store) (t : TypeId) (f : FunctionId) :
    s.methodOwner? (.type t) f =
      if (s.type t).declares f then some t
      else (s.older? t).bind fun b => s.methodOwner? (.type b) f := by
  change (s.chain t).find? _ = _
  rw [chain_eq, List.find?_cons]
  cases (s.type t).declares f with
  | true => rfl
  | false =>
    cases s.older? t with
    | none => rfl
    | some b => rfl

theorem isSubtype_trans {s : Store} {t u v : TypeId} (h : s.isSubtype t u = true)
    (h' : s.isSubtype u v = true) : s.isSubtype t v = true := by
  rw [isSubtype_iff_mem_chain] at h h' ⊢
  exact (chain_suffix_of_mem h).subset h'

theorem isSubtype_antisymm {s : Store} {t u : TypeId} (h : s.isSubtype t u = true)
    (h' : s.isSubtype u t = true) : t = u := by
  rw [isSubtype_iff_mem_chain] at h h'
  exact eq_of_mem_chain h' h

namespace Known

variable {n : Nat} {s : Store} {t b : TypeId}

theorem older_eq (h : s.Known n) (t : TypeId) : s.older? t = (s.type t).base := by
  rw [older?]
  cases hb : (s.type t).base with
  | none => rfl
  | some b => exact Option.filter_some_pos (decide_eq_true (h.base_older hb).1)

theorem eq_object_of_base (h : s.Known n) (ht : t.index < n) (hb : (s.type t).base = none) :
    t = Builtin.object.id := by
  rw [← h.size] at ht
  have hbased := h.bases t.index _ (Array.getElem?_eq_getElem ht)
  have hbase : (s.types[t.index]).base = none := by
    rw [Store.type, Array.getD_eq_getD_getElem?, Array.getElem?_eq_getElem ht] at hb
    exact hb
  rw [TypeCell.BasedAt, hbase] at hbased
  cases t
  cases hbased
  rfl

theorem getLast_chain (h : s.Known n) (ht : t.index < n) :
    (s.chain t).getLast? = some Builtin.object.id := by
  induction t using older_induction (s := s) with
  | step t ih =>
    rw [chain_eq]
    cases hb : s.older? t with
    | none =>
      rw [h.older_eq] at hb
      rw [h.eq_object_of_base ht hb]
      rfl
    | some b =>
      have hlast := ih b hb (Nat.lt_trans (index_lt_of_older hb) ht)
      rw [Option.elim_some, List.getLast?_cons, hlast]
      rfl

theorem basePath (h : s.Known n) (ht : t.index < n) : s.BasePath t (s.chain t) where
  head := by
    rw [chain_eq]
    rfl
  links := s.isChain_chain t
  last := h.getLast_chain ht
  nodup := s.nodup_chain t

theorem base_object (h : s.Known n) : (s.type Builtin.object.id).base = none := by
  cases hb : (s.type Builtin.object.id).base with
  | none => rfl
  | some b => exact absurd (h.base_older hb).1 (Nat.not_lt_zero _)

theorem basesFounded (h : s.Known n) : s.BasesFounded where
  root := h.base_object
  founded :=
    Subrelation.wf (r := InvImage (· < ·) Id.index) (fun hb => (h.base_older hb).1)
      (InvImage.wf Id.index Nat.lt_wfRel.wf)
  chain t := by rw [← h.older_eq, ← chain_eq]
  lookup t name := by rw [← h.older_eq, ← lookup_eq]
  methodOwner t f := by rw [← h.older_eq, ← methodOwner?_eq]
  isSubtype t u := by rw [← h.older_eq, ← isSubtype_eq]

theorem isInstance_object (h : s.Known n) (v : Value) :
    s.isInstance v Builtin.object.id = true := by
  rw [isInstance, isSubtype_iff_mem_chain]
  exact List.mem_of_getLast? (h.getLast_chain (h.typeOf v))

end Known

end Store

end ScriptMachine
