import ScriptMachine.Code.Verify

namespace ScriptMachine

/-- Something that has to hold, and how it is reported where it does not. -/
structure Demand (φ : Type) where
  met : Prop
  report : φ

def Demand.map {φ ψ : Type} (f : φ → ψ) (d : Demand φ) : Demand ψ :=
  ⟨d.met, f d.report⟩

/-- The first of the demands that is not met has this report. -/
inductive FirstUnmet {φ : Type} : List (Demand φ) → φ → Prop
  | here {d : Demand φ} {l : List (Demand φ)} (h : ¬ d.met) : FirstUnmet (d :: l) d.report
  | later {d : Demand φ} {l : List (Demand φ)} {r : φ} (h : d.met) (hl : FirstUnmet l r) :
    FirstUnmet (d :: l) r

/-- What becomes of a list of demands: a report of the first that is not met, or none. -/
def Verdict {φ : Type} (l : List (Demand φ)) : Option φ → Prop
  | none => ∀ d ∈ l, d.met
  | some r => FirstUnmet l r

section Verdicts

variable {φ ψ : Type} {l l' : List (Demand φ)} {r r' : φ} {v v' : Option φ}

theorem FirstUnmet.not_all (h : FirstUnmet l r) : ¬ ∀ d ∈ l, d.met := by
  induction h with
  | here h => exact fun hall => h (hall _ (List.mem_cons_self ..))
  | later _ _ ih => exact fun hall => ih fun d hd => hall d (List.mem_cons_of_mem _ hd)

theorem FirstUnmet.exists_mem (h : FirstUnmet l r) : ∃ d ∈ l, d.report = r := by
  induction h with
  | here => exact ⟨_, List.mem_cons_self .., rfl⟩
  | later _ _ ih =>
    obtain ⟨d, hd, heq⟩ := ih
    exact ⟨d, List.mem_cons_of_mem _ hd, heq⟩

theorem FirstUnmet.unique (h : FirstUnmet l r) (h' : FirstUnmet l r') : r = r' := by
  induction h with
  | here h =>
    cases h' with
    | here => rfl
    | later hmet => exact absurd hmet h
  | later hmet _ ih =>
    cases h' with
    | here h => exact absurd hmet h
    | later _ hl => exact ih hl

theorem FirstUnmet.append (h : FirstUnmet l r) (l' : List (Demand φ)) : FirstUnmet (l ++ l') r := by
  induction h with
  | here h => exact .here h
  | later h _ ih => exact .later h ih

theorem FirstUnmet.prepend (hl : ∀ d ∈ l, d.met) (h : FirstUnmet l' r) :
    FirstUnmet (l ++ l') r := by
  induction l with
  | nil => exact h
  | cons d l ih =>
    obtain ⟨hd, hl⟩ := List.forall_mem_cons.1 hl
    exact .later hd (ih hl)

theorem FirstUnmet.map (f : φ → ψ) (h : FirstUnmet l r) : FirstUnmet (l.map (.map f)) (f r) := by
  induction h with
  | here h => exact .here (d := .map f _) h
  | later h _ ih => exact .later h ih

theorem Verdict.eq_none_iff (h : Verdict l v) : v = none ↔ ∀ d ∈ l, d.met := by
  cases v with
  | none => exact ⟨fun _ => h, fun _ => rfl⟩
  | some r => exact ⟨nofun, fun hall => absurd hall h.not_all⟩

theorem Verdict.eq_some_iff (h : Verdict l v) : v = some r ↔ FirstUnmet l r := by
  cases v with
  | none => exact ⟨nofun, fun hfirst => absurd h hfirst.not_all⟩
  | some r' =>
    constructor
    · rintro ⟨⟩
      exact h
    · exact fun hfirst => congrArg some (FirstUnmet.unique h hfirst)

theorem verdict_nil : Verdict ([] : List (Demand φ)) none :=
  fun _ hd => absurd hd List.not_mem_nil

theorem Verdict.append (h : Verdict l v) (h' : Verdict l' v') : Verdict (l ++ l') (v.or v') := by
  cases v with
  | some r => exact FirstUnmet.append h l'
  | none =>
    cases v' with
    | some r => exact FirstUnmet.prepend h h'
    | none => exact List.forall_mem_append.2 ⟨h, h'⟩

theorem Verdict.map (f : φ → ψ) (h : Verdict l v) : Verdict (l.map (.map f)) (v.map f) := by
  cases v with
  | some r => exact FirstUnmet.map f h
  | none => exact List.forall_mem_map.2 h

theorem Verdict.guard {p q : Prop} [Decidable q] (h : Verdict l v) (hq : q ↔ ¬ p) :
    Verdict (⟨p, r⟩ :: l) (if q then some r else v) := by
  by_cases hp : p
  · rw [if_neg fun hq' => hq.1 hq' hp]
    cases v with
    | none => exact List.forall_mem_cons.2 ⟨hp, h⟩
    | some _ => exact .later hp h
  · rw [if_pos (hq.2 hp)]
    exact .here hp

theorem verdict_ite {p q : Prop} [Decidable q] (h : q ↔ p) :
    Verdict [⟨p, r⟩] (if q then none else some r) := by
  by_cases hq : q
  · rw [if_pos hq]
    exact List.forall_mem_singleton.2 (h.1 hq)
  · rw [if_neg hq]
    exact .here fun hp => hq (h.2 hp)

end Verdicts

namespace Template

/-- A jump to the end of the block is one that returns. -/
def jumpDemand (t : Template) (target : Nat) : Demand OperandFlaw :=
  ⟨target ≤ t.body.code.size, .jumpOutside target t.body.code.size⟩

def nameDemand (t : Template) (i : Nat) : Demand OperandFlaw :=
  ⟨∃ s, t.body.constants[i]? = some (.string s), .notName i⟩

def localDemand (t : Template) (slot : Nat) : Demand OperandFlaw :=
  ⟨slot < t.frameSize, .noLocal slot t.frameSize⟩

def staticDemand (statics slot : Nat) : Demand OperandFlaw :=
  ⟨slot < statics, .noStatic slot⟩

/-- What each instruction demands of its function when there are `statics` static slots. -/
def operandDemands (t : Template) (statics : Nat) : Opcode → List (Demand OperandFlaw)
  | .pushConstant i => [⟨i < t.body.constants.size, .noConstant i⟩]
  | .loadLocal slot | .storeLocal slot => [t.localDemand slot]
  | .loadStatic slot | .storeStatic slot => [staticDemand statics slot]
  | .jumpIfStaticInitialized slot target => [t.jumpDemand target, staticDemand statics slot]
  | .jumpIfArgumentSupplied p target =>
    [t.jumpDemand target, ⟨p < t.arity.parameters, .noParameter p⟩]
  | .jump target | .jumpIfTrue target | .jumpIfFalse target | .pushTry target =>
    [t.jumpDemand target]
  | .loadGlobal i | .storeGlobal i | .getAttribute i | .setAttribute i | .defineAttribute i _
  | .callMethod i _ | .createType i _ | .createTrait i => [t.nameDemand i]
  | .createClosure i => [⟨i < t.body.nested.length, .noNested i⟩]
  | .pushVoid | .pushTrue | .pushFalse | .loadThis | .getIndex | .setIndex | .binary _ | .neg | .not
  | .equal | .notEqual | .identical | .isInstanceOf | .ret | .call _ | .instantiate _
  | .createArray _ | .createMap _ | .composeTrait | .throw | .popTry | .pop | .dup => []

/-- The demands of the instructions in their order, each reported with its place. -/
def codeDemands (t : Template) (statics : Nat) (code : List (Instruction × Nat)) :
    List (Demand Fault) :=
  code.flatMap fun (i, offset) => (t.operandDemands statics i.opcode).map <| .map fun flaw =>
    { cause := .unverified (.badOperand t.displayName offset flaw), position := i.position }

def arityDemands (a : Arity) : List (Demand ArityFlaw) :=
  [⟨a.minimum ≤ a.positionalLimit, .minimumAboveLimit a.minimum a.positionalLimit⟩,
    ⟨a.positionalLimit ≤ a.parameters, .limitAboveParameters a.positionalLimit a.parameters⟩]

def signatureDemands (t : Template) : List (Demand Fault) :=
  (arityDemands t.arity).map <| .map fun flaw =>
    { cause := .unverified (.badArity t.displayName flaw), position := some ⟨t.line, 0⟩ }

/-- All demands of a function at a depth, apart from those of the literals in it. -/
def ownDemands (t : Template) (statics limit depth : Nat) : List (Demand Fault) :=
  ⟨depth ≤ limit, { cause := .unverified (.nestedTooDeep limit) }⟩ ::
    (t.signatureDemands ++ t.codeDemands statics t.body.code.toList.zipIdx)

mutual

/-- A function and the literals in it, each with its depth and before the literals in itself. -/
def preorder (depth : Nat) : Template → List (Nat × Template)
  | ⟨name, ⟨code, constants, locals, nested⟩, arity, line⟩ =>
    (depth, ⟨name, ⟨code, constants, locals, nested⟩, arity, line⟩) :: preorderIn (depth + 1) nested

def preorderIn (depth : Nat) : List Template → List (Nat × Template)
  | [] => []
  | t :: ts => t.preorder depth ++ preorderIn depth ts

end

/-- The demands of a function and of the literals in it. -/
def demands (t : Template) (statics limit : Nat) : List (Demand Fault) :=
  (t.preorder 0).flatMap fun (depth, u) => u.ownDemands statics limit depth

/-- `u` is `t` itself, at depth 0, or a literal `k` levels deep in it. -/
inductive Within : Template → Nat → Template → Prop
  | self {t : Template} : Within t 0 t
  | nested {t u w : Template} {k : Nat} (hu : u ∈ t.body.nested) (h : Within u k w) :
    Within t (k + 1) w

/-- At every level the counts fit together and the operands are in range, and no level is below the
limit. -/
def WellFormed (t : Template) (statics limit : Nat) : Prop :=
  ∀ k u, t.Within k u →
    k ≤ limit ∧ u.arity.minimum ≤ u.arity.positionalLimit ∧
      u.arity.positionalLimit ≤ u.arity.parameters ∧
      ∀ i ∈ u.body.code, ∀ d ∈ u.operandDemands statics i.opcode, d.met

section Own

variable (t : Template) (statics : Nat)

theorem isSome_nameAt?_iff (i : Nat) :
    (t.body.nameAt? i).isSome ↔ ∃ s, t.body.constants[i]? = some (.string s) := by
  unfold Block.nameAt?
  cases t.body.constants[i]? with
  | none => simp
  | some c => cases c <;> simp [Constant.string?]

theorem verdict_operandFlaw (o : Opcode) :
    Verdict (t.operandDemands statics o) (t.operandFlaw? statics o) := by
  have hjump (target : Nat) : Verdict [t.jumpDemand target]
      (if target ≤ t.body.code.size then none else some (t.jumpDemand target).report) :=
    verdict_ite .rfl
  have hname (i : Nat) : Verdict [t.nameDemand i]
      (if (t.body.nameAt? i).isSome then none else some (.notName i)) :=
    verdict_ite (t.isSome_nameAt?_iff i)
  unfold operandFlaw?
  cases o with
  | jump target | jumpIfTrue target | jumpIfFalse target | pushTry target =>
    exact (hjump target).append verdict_nil
  | jumpIfStaticInitialized slot target => exact (hjump target).append (verdict_ite .rfl)
  | jumpIfArgumentSupplied p target => exact (hjump target).append (verdict_ite .rfl)
  | loadGlobal i | storeGlobal i | getAttribute i | setAttribute i | defineAttribute i _
  | callMethod i _ | createType i _ | createTrait i => exact (hname i).append verdict_nil
  | pushConstant i => exact verdict_ite .rfl
  | loadLocal slot | storeLocal slot => exact verdict_ite .rfl
  | loadStatic slot | storeStatic slot => exact verdict_ite .rfl
  | createClosure i => exact verdict_ite .rfl
  | _ => exact verdict_nil

theorem verdict_codeFault (offset : Nat) (code : List Instruction) :
    Verdict (t.codeDemands statics (code.zipIdx offset)) (t.codeFault? statics offset code) := by
  induction code generalizing offset with
  | nil => exact verdict_nil
  | cons i rest ih =>
    have hfirst := (t.verdict_operandFlaw statics i.opcode).map fun flaw =>
      ({ cause := .unverified (.badOperand t.displayName offset flaw),
         position := i.position } : Fault)
    have hboth := hfirst.append (ih (offset + 1))
    rw [codeFault?]
    cases hflaw : t.operandFlaw? statics i.opcode with
    | none | some flaw =>
      rw [hflaw] at hboth
      exact hboth

theorem verdict_arityFlaw (a : Arity) : Verdict (arityDemands a) a.flaw? :=
  verdict_nil.guard Nat.not_le.symm |>.guard Nat.not_le.symm

theorem verdict_ownFault :
    Verdict (t.signatureDemands ++ t.codeDemands statics t.body.code.toList.zipIdx)
      (t.ownFault? statics) := by
  have harity := (verdict_arityFlaw t.arity).map fun flaw =>
    ({ cause := .unverified (.badArity t.displayName flaw), position := some ⟨t.line, 0⟩ } : Fault)
  have hboth := harity.append (t.verdict_codeFault statics 0 t.body.code.toList)
  rw [ownFault?]
  cases hflaw : t.arity.flaw? with
  | none | some flaw =>
    rw [hflaw] at hboth
    exact hboth

end Own

section Tree

variable {statics limit : Nat}

mutual

theorem verdict_faultAt (depth : Nat) : ∀ t : Template,
    Verdict ((t.preorder depth).flatMap fun (k, u) => u.ownDemands statics limit k)
      (t.faultAt? statics limit depth)
  | ⟨name, ⟨code, constants, locals, nested⟩, arity, line⟩ => by
    rw [faultAt?, preorder, List.flatMap_cons]
    exact ((verdict_ownFault _ statics).append (verdict_faultIn (depth + 1) nested)).guard
      Nat.not_le.symm

theorem verdict_faultIn (depth : Nat) : ∀ ts : List Template,
    Verdict ((preorderIn depth ts).flatMap fun (k, u) => u.ownDemands statics limit k)
      (faultIn? statics limit depth ts)
  | [] => verdict_nil
  | t :: ts => by
    rw [faultIn?, preorderIn, List.flatMap_append]
    exact (verdict_faultAt depth t).append (verdict_faultIn depth ts)

end

mutual

theorem mem_preorder_iff (depth k : Nat) (w : Template) : ∀ t : Template,
    (k, w) ∈ t.preorder depth ↔ ∃ j, k = depth + j ∧ t.Within j w
  | ⟨name, ⟨code, constants, locals, nested⟩, arity, line⟩ => by
    rw [preorder, List.mem_cons, mem_preorderIn_iff (depth + 1) k w nested]
    constructor
    · rintro (heq | ⟨u, hu, j, rfl, hj⟩)
      · cases heq
        exact ⟨0, rfl, .self⟩
      · exact ⟨j + 1, by omega, .nested hu hj⟩
    · rintro ⟨j, rfl, hj⟩
      cases hj with
      | self => exact .inl rfl
      | @nested _ u _ i hu hi => exact .inr ⟨u, hu, i, by omega, hi⟩

theorem mem_preorderIn_iff (depth k : Nat) (w : Template) : ∀ ts : List Template,
    (k, w) ∈ preorderIn depth ts ↔ ∃ t ∈ ts, ∃ j, k = depth + j ∧ t.Within j w
  | [] => by simp [preorderIn]
  | t :: ts => by
    rw [preorderIn, List.mem_append, mem_preorder_iff depth k w t, mem_preorderIn_iff depth k w ts]
    simp only [List.mem_cons, exists_eq_or_imp]

end

theorem verdict_verify (t : Template) (statics limit : Nat) :
    Verdict (t.demands statics limit) (t.verify statics limit) :=
  verdict_faultAt 0 t

theorem forall_codeDemands_iff {t : Template} (offset : Nat) (code : List Instruction) :
    (∀ d ∈ t.codeDemands statics (code.zipIdx offset), d.met) ↔
      ∀ i ∈ code, ∀ d ∈ t.operandDemands statics i.opcode, d.met := by
  induction code generalizing offset with
  | nil => simp [codeDemands]
  | cons i rest ih =>
    have hfirst (f : OperandFlaw → Fault) :
        (∀ d ∈ (t.operandDemands statics i.opcode).map (Demand.map f), d.met) ↔
          ∀ d ∈ t.operandDemands statics i.opcode, d.met :=
      List.forall_mem_map
    rw [List.zipIdx_cons, codeDemands, List.flatMap_cons, List.forall_mem_append,
      List.forall_mem_cons, hfirst]
    exact and_congr_right' (ih (offset + 1))

theorem forall_ownDemands_iff {t : Template} {depth : Nat} :
    (∀ d ∈ t.ownDemands statics limit depth, d.met) ↔
      depth ≤ limit ∧ t.arity.minimum ≤ t.arity.positionalLimit ∧
        t.arity.positionalLimit ≤ t.arity.parameters ∧
        ∀ i ∈ t.body.code, ∀ d ∈ t.operandDemands statics i.opcode, d.met := by
  rw [ownDemands, List.forall_mem_cons, List.forall_mem_append, forall_codeDemands_iff]
  simp only [signatureDemands, arityDemands, List.map_cons, List.map_nil, List.forall_mem_cons,
    List.not_mem_nil, Demand.map, Array.mem_toList_iff, false_implies, implies_true, and_true,
    and_assoc]

theorem forall_demands_iff (t : Template) :
    (∀ d ∈ t.demands statics limit, d.met) ↔ t.WellFormed statics limit := by
  have hmem (k : Nat) (u : Template) : (k, u) ∈ t.preorder 0 ↔ t.Within k u := by
    simp [mem_preorder_iff]
  simp only [demands, List.forall_mem_flatMap, Prod.forall, hmem, forall_ownDemands_iff, WellFormed]

theorem kind_of_mem_demands {t : Template} {d : Demand Fault} (hd : d ∈ t.demands statics limit) :
    d.report.kind = .internal := by
  obtain ⟨⟨depth, u⟩, -, hd⟩ := List.mem_flatMap.1 hd
  rcases List.mem_cons.1 hd with rfl | hd
  · rfl
  · rcases List.mem_append.1 hd with hd | hd
    · obtain ⟨_, -, rfl⟩ := List.mem_map.1 hd
      rfl
    · obtain ⟨_, -, hd⟩ := List.mem_flatMap.1 hd
      obtain ⟨_, -, rfl⟩ := List.mem_map.1 hd
      rfl

/-- The check accepts the well-formed functions and no others, and else it reports the first demand
that is not met. -/
theorem verify_decides (t : Template) (statics limit : Nat) :
    (t.verify statics limit = none ↔ t.WellFormed statics limit) ∧
      ∀ fault, t.verify statics limit = some fault ↔
        fault.kind = .internal ∧ FirstUnmet (t.demands statics limit) fault := by
  have hverdict := t.verdict_verify statics limit
  refine ⟨hverdict.eq_none_iff.trans (forall_demands_iff t), fun fault => ?_⟩
  refine hverdict.eq_some_iff.trans ⟨fun hfirst => ⟨?_, hfirst⟩, fun h => h.2⟩
  obtain ⟨d, hd, rfl⟩ := hfirst.exists_mem
  exact kind_of_mem_demands hd

end Tree

end Template

end ScriptMachine
