import Mathlib.Order.Bounds.Basic
import ScriptMachine.Code.Template

namespace ScriptMachine

/-- The two agree in all but their jump targets. -/
inductive Opcode.SameButTarget : Opcode → Opcode → Prop
  | self (o : Opcode) : SameButTarget o o
  | jump (s t : Nat) : SameButTarget (.jump s) (.jump t)
  | jumpIfTrue (s t : Nat) : SameButTarget (.jumpIfTrue s) (.jumpIfTrue t)
  | jumpIfFalse (s t : Nat) : SameButTarget (.jumpIfFalse s) (.jumpIfFalse t)
  | pushTry (s t : Nat) : SameButTarget (.pushTry s) (.pushTry t)
  | jumpIfArgumentSupplied (p s t : Nat) :
    SameButTarget (.jumpIfArgumentSupplied p s) (.jumpIfArgumentSupplied p t)
  | jumpIfStaticInitialized (slot s t : Nat) :
    SameButTarget (.jumpIfStaticInitialized slot s) (.jumpIfStaticInitialized slot t)

/-- `j` is the instruction `i`, but for going to `target?` if that is given. -/
structure Instruction.Redirected (i : Instruction) (target? : Option Nat) (j : Instruction) :
    Prop where
  position : j.position = i.position
  opcode : i.opcode.SameButTarget j.opcode
  target : j.opcode.jumpTarget? = target?.or i.opcode.jumpTarget?

section Redirection

variable {o p q : Opcode} {i j k : Instruction} {s? t? : Option Nat}

theorem Opcode.SameButTarget.trans (h : o.SameButTarget p) (h' : p.SameButTarget q) :
    o.SameButTarget q := by
  cases h with
  | self => exact h'
  | _ => cases h' <;> constructor

theorem Opcode.SameButTarget.unique (h : o.SameButTarget p) (h' : o.SameButTarget q)
    (htarget : p.jumpTarget? = q.jumpTarget?) : p = q := by
  cases h <;> cases h' <;> simp_all [jumpTarget?]

theorem Opcode.SameButTarget.exists_target (h : o.SameButTarget p) {t : Nat}
    (hp : p.jumpTarget? = some t) : ∃ s, o.jumpTarget? = some s := by
  cases h with
  | self => exact ⟨t, hp⟩
  | _ => exact ⟨_, rfl⟩

theorem Opcode.retarget?_cases (o : Opcode) (target : Nat) :
    (o.jumpTarget? = none ∧ o.retarget? target = none) ∨
      ∃ s p, o.jumpTarget? = some s ∧ o.retarget? target = some p ∧ o.SameButTarget p ∧
        p.jumpTarget? = some target := by
  cases o with
  | jump s => exact .inr ⟨s, _, rfl, rfl, .jump s target, rfl⟩
  | jumpIfTrue s => exact .inr ⟨s, _, rfl, rfl, .jumpIfTrue s target, rfl⟩
  | jumpIfFalse s => exact .inr ⟨s, _, rfl, rfl, .jumpIfFalse s target, rfl⟩
  | pushTry s => exact .inr ⟨s, _, rfl, rfl, .pushTry s target, rfl⟩
  | jumpIfArgumentSupplied p s =>
    exact .inr ⟨s, _, rfl, rfl, .jumpIfArgumentSupplied p s target, rfl⟩
  | jumpIfStaticInitialized slot s =>
    exact .inr ⟨s, _, rfl, rfl, .jumpIfStaticInitialized slot s target, rfl⟩
  | _ => exact .inl ⟨rfl, rfl⟩

theorem Instruction.Redirected.refl (i : Instruction) : i.Redirected none i :=
  ⟨rfl, .self _, rfl⟩

theorem Instruction.Redirected.trans (h : i.Redirected s? j) (h' : j.Redirected t? k) :
    i.Redirected (t?.or s?) k where
  position := h'.position.trans h.position
  opcode := h.opcode.trans h'.opcode
  target := by rw [h'.target, h.target, Option.or_assoc]

theorem Instruction.Redirected.unique (h : i.Redirected t? j) (h' : i.Redirected t? k) : j = k := by
  have hopcode : j.opcode = k.opcode := h.opcode.unique h'.opcode (h.target.trans h'.target.symm)
  have hposition : j.position = k.position := h.position.trans h'.position.symm
  cases j
  cases k
  exact congrArg₂ Instruction.mk hopcode hposition

end Redirection

theorem Constant.string?_beq_iff {c : Constant} {s : String} :
    (c.string? == some s) = true ↔ c = .string s := by
  cases c <;> simp [string?]

namespace Block

/-- What can be done to a block. An instruction comes with a position or without one. -/
inductive Operation (τ : Type) where
  | emit (i : Instruction)
  | constant (c : Constant)
  | name (s : String)
  | nested (t : τ)
  | patch (offset target : Nat)

variable {τ : Type}

/-- The index that an operation hands out. -/
def index? (b : Block τ) : Operation τ → Option Nat
  | .emit i => some (b.emit i).1
  | .constant c => some (b.addConstant c).1
  | .name s => some (b.addName s).1
  | .nested t => some (b.addNested t).1
  | .patch .. => none

/-- The block after an operation. A patch that fails leaves it as it was. -/
def after (b : Block τ) : Operation τ → Block τ
  | .emit i => (b.emit i).2
  | .constant c => (b.addConstant c).2
  | .name s => (b.addName s).2
  | .nested t => (b.addNested t).2
  | .patch offset target => (b.patch? offset target).getD b

def afterAll (b : Block τ) (operations : List (Operation τ)) : Block τ :=
  operations.foldl after b

/-- Where an operation sends the instruction at an offset, if it is a patch of it that succeeds. -/
def sent? (b : Block τ) : Operation τ → Nat → Option Nat
  | .patch offset target, k =>
    if k = offset ∧ (b.patch? offset target).isSome then some target else none
  | _, _ => none

/-- Where the last successful patch of the instruction at an offset sends it. -/
def lastSent? : Block τ → List (Operation τ) → Nat → Option Nat
  | _, [], _ => none
  | b, o :: later, k => ((b.after o).lastSent? later k).or (b.sent? o k)

/-- From `b` to `b'` the jump at `offset` was sent to `target`, and nothing else has changed. -/
structure Patched (b : Block τ) (offset target : Nat) (b' : Block τ) : Prop where
  jump : ∃ i j, b.code[offset]? = some i ∧ b'.code[offset]? = some j ∧ i.Redirected (some target) j
  others : ∀ k, k ≠ offset → b'.code[k]? = b.code[k]?
  constants : b'.constants = b.constants
  locals : b'.locals = b.locals
  nested : b'.nested = b.nested

/-- All that can become of a block in one operation, and where it sends an instruction. -/
inductive Change (b : Block τ) : (Nat → Option Nat) → Block τ → Prop
  | nothing : Change b (fun _ => none) b
  | code (i : Instruction) : Change b (fun _ => none) { b with code := b.code.push i }
  | constant (c : Constant) : Change b (fun _ => none) { b with constants := b.constants.push c }
  | nested (t : τ) : Change b (fun _ => none) { b with nested := b.nested ++ [t] }
  | target {offset target : Nat} {b' : Block τ} (h : b.Patched offset target b') :
    Change b (fun k => if k = offset then some target else none) b'

/-- In the block, the index `k` stands for what the operation was given, and a name is not held by
any smaller index. Jumps may have been sent elsewhere since. -/
def Denotes (b : Block τ) (sent : Nat → Option Nat) (k : Nat) : Operation τ → Prop
  | .emit i => ∃ j, b.code[k]? = some j ∧ i.Redirected (sent k) j
  | .constant c => b.constants[k]? = some c
  | .name s => IsLeast {n : Nat | b.constants[n]? = some (.string s)} k
  | .nested t => b.nested[k]? = some t
  | .patch .. => False

variable {b b' : Block τ} {o : Operation τ} {offset target k : Nat} {s : String}
  {sent : Nat → Option Nat}

theorem addName_cases (b : Block τ) (s : String) :
    (∃ k, IsLeast {n : Nat | b.constants[n]? = some (.string s)} k ∧ b.addName s = (k, b)) ∨
      ((∀ n : Nat, b.constants[n]? ≠ some (.string s)) ∧
        b.addName s = b.addConstant (.string s)) := by
  unfold addName
  cases hfind : b.constants.findIdx? fun c => c.string? == some s with
  | some k =>
    obtain ⟨hk, hat, hbefore⟩ := Array.findIdx?_eq_some_iff_getElem.1 hfind
    refine .inl ⟨k, ⟨?_, fun n hn => Nat.le_of_not_lt fun hlt => ?_⟩, rfl⟩
    · exact Array.getElem?_eq_some_iff.2 ⟨hk, Constant.string?_beq_iff.1 hat⟩
    · obtain ⟨_, heq⟩ := Array.getElem?_eq_some_iff.1 hn
      exact hbefore n hlt (Constant.string?_beq_iff.2 heq)
  | none =>
    refine .inr ⟨fun n hn => ?_, rfl⟩
    have habsent := Array.findIdx?_eq_none_iff.1 hfind _ (Array.mem_of_getElem? hn)
    rw [Constant.string?_beq_iff.2 rfl] at habsent
    cases habsent

theorem patch?_cases (b : Block τ) (offset target : Nat) :
    (b.patch? offset target = none ∧
      ¬ ∃ i t, b.code[offset]? = some i ∧ i.opcode.jumpTarget? = some t) ∨
    ∃ b', b.patch? offset target = some b' ∧ b.Patched offset target b' := by
  unfold patch?
  cases hcode : b.code[offset]? with
  | none => exact .inl ⟨rfl, by rintro ⟨i, t, hi, -⟩; cases hi⟩
  | some i =>
    rcases i.opcode.retarget?_cases target with ⟨hno, hnone⟩ | ⟨t, p, -, hsome, hsame, htarget⟩
    · refine .inl ⟨by simp [hnone], ?_⟩
      rintro ⟨j, t, hj, ht⟩
      cases hj
      rw [hno] at ht
      cases ht
    · have hlt : offset < b.code.size := (Array.getElem?_eq_some_iff.1 hcode).1
      refine .inr ⟨{ b with code := b.code.setIfInBounds offset { i with opcode := p } },
        by simp [hsome], ?_, fun k hk => ?_, rfl, rfl, rfl⟩
      · refine ⟨i, { i with opcode := p }, hcode, ?_, rfl, hsame, htarget⟩
        exact Array.getElem?_setIfInBounds_self_of_lt hlt
      · exact Array.getElem?_setIfInBounds_ne hk.symm

theorem Patched.unique {b₁ b₂ : Block τ} (h₁ : b.Patched offset target b₁)
    (h₂ : b.Patched offset target b₂) : b₁ = b₂ := by
  have hcode : b₁.code = b₂.code := by
    refine Array.ext_getElem? fun k => ?_
    by_cases hk : k = offset
    · subst hk
      obtain ⟨i, j₁, hi, hj₁, hi₁⟩ := h₁.jump
      obtain ⟨i', j₂, hi', hj₂, hi₂⟩ := h₂.jump
      obtain rfl : i = i' := Option.some.inj (hi.symm.trans hi')
      rw [hj₁, hj₂, hi₁.unique hi₂]
    · rw [h₁.others k hk, h₂.others k hk]
  have hconstants : b₁.constants = b₂.constants := h₁.constants.trans h₂.constants.symm
  have hlocals : b₁.locals = b₂.locals := h₁.locals.trans h₂.locals.symm
  have hnested : b₁.nested = b₂.nested := h₁.nested.trans h₂.nested.symm
  cases b₁
  cases b₂
  rw [Block.mk.injEq]
  exact ⟨hcode, hconstants, hlocals, hnested⟩

theorem Patched.exists_jump (h : b.Patched offset target b') :
    ∃ i t, b.code[offset]? = some i ∧ i.opcode.jumpTarget? = some t := by
  obtain ⟨i, j, hi, -, hij⟩ := h.jump
  obtain ⟨t, ht⟩ := hij.opcode.exists_target hij.target
  exact ⟨i, t, hi, ht⟩

theorem patch?_eq_some_iff : b.patch? offset target = some b' ↔ b.Patched offset target b' := by
  rcases b.patch?_cases offset target with ⟨hnone, hno⟩ | ⟨b₁, hsome, hpatched⟩
  · rw [hnone]
    exact ⟨nofun, fun h => absurd h.exists_jump hno⟩
  · rw [hsome]
    constructor
    · rintro ⟨⟩
      exact hpatched
    · exact fun h => congrArg some (hpatched.unique h)

theorem patch?_isSome_iff : (∃ b', b.patch? offset target = some b') ↔
    ∃ i t, b.code[offset]? = some i ∧ i.opcode.jumpTarget? = some t := by
  rcases b.patch?_cases offset target with ⟨hnone, hno⟩ | ⟨b₁, hsome, hpatched⟩
  · rw [hnone]
    exact ⟨nofun, fun h => absurd h hno⟩
  · exact ⟨fun _ => hpatched.exists_jump, fun _ => ⟨b₁, hsome⟩⟩

theorem change_after (b : Block τ) (o : Operation τ) : b.Change (b.sent? o) (b.after o) := by
  cases o with
  | emit i => exact .code i
  | constant c => exact .constant c
  | name s =>
    rcases b.addName_cases s with ⟨_, -, heq⟩ | ⟨-, heq⟩
    · rw [after, heq]
      exact .nothing
    · rw [after, heq]
      exact .constant (.string s)
  | nested t => exact .nested t
  | patch offset target =>
    rcases b.patch?_cases offset target with ⟨hnone, -⟩ | ⟨b', hsome, hpatched⟩
    · have hsent : b.sent? (.patch offset target) = fun _ => none := by
        funext k
        simp [sent?, hnone]
      rw [after, hnone, hsent]
      exact .nothing
    · have hsent : b.sent? (.patch offset target) =
          fun k => if k = offset then some target else none := by
        funext k
        simp [sent?, hsome]
      rw [after, hsome, hsent]
      exact .target hpatched

theorem Change.getElem?_code (h : b.Change sent b') {i : Instruction}
    (hi : b.code[k]? = some i) : ∃ j, b'.code[k]? = some j ∧ i.Redirected (sent k) j := by
  cases h with
  | nothing => exact ⟨i, hi, .refl i⟩
  | code i' =>
    have hlt : k < b.code.size := (Array.getElem?_eq_some_iff.1 hi).1
    refine ⟨i, ?_, .refl i⟩
    rw [Array.getElem?_push, if_neg (Nat.ne_of_lt hlt), hi]
  | constant c => exact ⟨i, hi, .refl i⟩
  | nested t => exact ⟨i, hi, .refl i⟩
  | @target offset target _ hpatched =>
    by_cases hk : k = offset
    · subst hk
      obtain ⟨i', j, hi', hj, hij⟩ := hpatched.jump
      obtain rfl : i' = i := Option.some.inj (hi'.symm.trans hi)
      exact ⟨j, hj, by simpa using hij⟩
    · refine ⟨i, (hpatched.others k hk).trans hi, ?_⟩
      simpa [hk] using Instruction.Redirected.refl i

theorem Change.getElem?_constants (h : b.Change sent b') (hk : k < b.constants.size) :
    b'.constants[k]? = b.constants[k]? := by
  cases h with
  | constant c => rw [Array.getElem?_push, if_neg (Nat.ne_of_lt hk)]
  | target hpatched => rw [hpatched.constants]
  | nothing | code | nested => rfl

theorem Change.getElem?_nested (h : b.Change sent b') (hk : k < b.nested.length) :
    b'.nested[k]? = b.nested[k]? := by
  cases h with
  | nested t => exact List.getElem?_append_left hk
  | target hpatched => rw [hpatched.nested]
  | nothing | code | constant => rfl

theorem Change.exists_of_sent (h : b.Change sent b') {t : Nat} (hsent : sent k = some t) :
    ∃ i, b.code[k]? = some i := by
  cases h with
  | target hpatched =>
    obtain ⟨rfl, -⟩ := Option.ite_none_right_eq_some.1 hsent
    obtain ⟨i, -, hi, -⟩ := hpatched.jump
    exact ⟨i, hi⟩
  | nothing | code | constant | nested => cases hsent

theorem addName_of_isLeast (h : IsLeast {n : Nat | b.constants[n]? = some (.string s)} k) :
    b.addName s = (k, b) := by
  rcases b.addName_cases s with ⟨k', hk', heq⟩ | ⟨habsent, -⟩
  · rw [heq, hk'.unique h]
  · exact absurd h.1 (habsent k)

theorem size_lt_after_name_iff : b.constants.size < (b.after (.name s)).constants.size ↔
    ∀ n : Nat, b.constants[n]? ≠ some (.string s) := by
  rcases b.addName_cases s with ⟨k, hk, heq⟩ | ⟨habsent, heq⟩
  · rw [after, heq]
    exact ⟨fun h => absurd h (Nat.lt_irrefl _), fun h => absurd hk.1 (h k)⟩
  · rw [after, heq, addConstant, Array.size_push]
    exact ⟨fun _ => habsent, fun _ => Nat.lt_succ_self _⟩

theorem sent?_of_index? (h : b.index? o = some k) (n : Nat) : b.sent? o n = none := by
  cases o with
  | patch => cases h
  | _ => rfl

theorem afterAll_append (b : Block τ) (earlier later : List (Operation τ)) :
    b.afterAll (earlier ++ later) = (b.afterAll earlier).afterAll later :=
  List.foldl_append

theorem lastSent?_append (b : Block τ) (earlier later : List (Operation τ)) (k : Nat) :
    b.lastSent? (earlier ++ later) k =
      ((b.afterAll earlier).lastSent? later k).or (b.lastSent? earlier k) := by
  induction earlier generalizing b with
  | nil => exact (Option.or_none ..).symm
  | cons o earlier ih =>
    rw [List.cons_append, lastSent?, ih, lastSent?, Option.or_assoc]
    rfl

/-- One more operation leaves an index with its meaning. -/
theorem Denotes.after (h : b.Denotes sent k o) (o' : Operation τ) :
    (b.after o').Denotes (fun n => (b.sent? o' n).or (sent n)) k o := by
  have hchange := b.change_after o'
  cases o with
  | emit i =>
    obtain ⟨j, hj, hij⟩ := h
    obtain ⟨j', hj', hjj'⟩ := hchange.getElem?_code hj
    exact ⟨j', hj', hij.trans hjj'⟩
  | constant c =>
    exact (hchange.getElem?_constants (Array.getElem?_eq_some_iff.1 h).1).trans h
  | name s =>
    have hk : k < b.constants.size := (Array.getElem?_eq_some_iff.1 h.1).1
    refine ⟨(hchange.getElem?_constants hk).trans h.1, fun n hn => Nat.le_of_not_lt fun hlt => ?_⟩
    -- a smaller index held the name before, as it does now
    have hold := (hchange.getElem?_constants (hlt.trans hk)).symm.trans hn
    exact absurd hlt (Nat.not_lt.2 (h.2 hold))
  | nested t =>
    exact (hchange.getElem?_nested (List.getElem?_eq_some_iff.1 h).1).trans h
  | patch => exact h

theorem Denotes.afterAll (h : b.Denotes sent k o) (operations : List (Operation τ)) :
    (b.afterAll operations).Denotes (fun n => (b.lastSent? operations n).or (sent n)) k o := by
  induction operations generalizing b sent with
  | nil => exact h
  | cons o' later ih =>
    have hlater := ih (h.after o')
    simp only [← Option.or_assoc] at hlater
    exact hlater

theorem lastSent?_eq_none {operations : List (Operation τ)}
    (h : (b.afterAll operations).code[k]? = none) : b.lastSent? operations k = none := by
  induction operations generalizing b with
  | nil => rfl
  | cons o later ih =>
    rw [lastSent?, ih h, Option.none_or, Option.eq_none_iff_forall_ne_some]
    intro t ht
    obtain ⟨i, hi⟩ := (b.change_after o).exists_of_sent ht
    have hdenotes : b.Denotes (fun _ => none) k (.emit i) := ⟨i, hi, .refl i⟩
    obtain ⟨j, hj, -⟩ := hdenotes.afterAll (o :: later)
    rw [hj] at h
    cases h

/-- An index stands for what it was handed out for. -/
theorem denotes_of_index? (h : b.index? o = some k)
    (hsent : ∀ n : Nat, b.code[n]? = none → sent n = none) : (b.after o).Denotes sent k o := by
  cases o with
  | emit i =>
    cases h
    refine ⟨i, Array.getElem?_push_size, ?_⟩
    have hend : sent b.code.size = none := hsent _ (Array.getElem?_eq_none (Nat.le_refl _))
    rw [emit, hend]
    exact .refl i
  | constant c =>
    cases h
    exact Array.getElem?_push_size
  | name s =>
    cases h
    rcases b.addName_cases s with ⟨k, hk, heq⟩ | ⟨habsent, heq⟩
    · rwa [after, heq]
    · rw [after, heq]
      refine ⟨Array.getElem?_push_size, fun n hn => Nat.le_of_not_lt fun hlt => habsent n ?_⟩
      rw [← hn]
      exact ((Change.constant (.string s)).getElem?_constants hlt).symm
  | nested t =>
    cases h
    exact List.getElem?_concat_length
  | patch => cases h

/-- Whatever is done to a block, before and after: what an operation was given is found in the end
at the index it handed out, an instruction with the target of the last patch of it that succeeded;
a patch succeeds exactly on jumps and changes the target of that one alone; and the index of a name
is the smallest that holds it, the same for each request, and takes a new constant only if no
constant is that name. -/
theorem indices_stay_valid (b : Block τ) (earlier later : List (Operation τ)) :
    (∀ o k, (b.afterAll earlier).index? o = some k →
      (b.afterAll (earlier ++ o :: later)).Denotes (b.lastSent? (earlier ++ o :: later)) k o) ∧
    (∀ offset target,
      ((∃ b', (b.afterAll earlier).patch? offset target = some b') ↔
        ∃ i t, (b.afterAll earlier).code[offset]? = some i ∧ i.opcode.jumpTarget? = some t) ∧
      ∀ b', (b.afterAll earlier).patch? offset target = some b' ↔
        (b.afterAll earlier).Patched offset target b') ∧
    ∀ s,
      (b.afterAll (earlier ++ .name s :: later)).index? (.name s) =
        (b.afterAll earlier).index? (.name s) ∧
      ((b.afterAll earlier).constants.size < (b.afterAll (earlier ++ [.name s])).constants.size ↔
        ∀ n : Nat, (b.afterAll earlier).constants[n]? ≠ some (.string s)) := by
  have hdenotes (o : Operation τ) (k : Nat) (h : (b.afterAll earlier).index? o = some k) :
      (b.afterAll (earlier ++ o :: later)).Denotes (b.lastSent? (earlier ++ o :: later)) k o := by
    -- an instruction comes behind all earlier ones, so that no earlier patch was one of it
    have hhanded := denotes_of_index? h fun n hn => lastSent?_eq_none hn
    have hsent : b.lastSent? (earlier ++ o :: later) = fun n =>
        (((b.afterAll earlier).after o).lastSent? later n).or (b.lastSent? earlier n) := by
      funext n
      rw [lastSent?_append, lastSent?, sent?_of_index? h, Option.or_none]
    rw [afterAll_append, hsent]
    exact hhanded.afterAll later
  refine ⟨hdenotes, fun offset target => ⟨patch?_isSome_iff, fun b' => patch?_eq_some_iff⟩,
    fun s => ⟨?_, ?_⟩⟩
  · have hleast := hdenotes (.name s) _ rfl
    exact congrArg (fun p => some p.1) (addName_of_isLeast hleast)
  · rw [afterAll_append]
    exact size_lt_after_name_iff

/-- A jump forward over a function literal. -/
def forwardJump : Operation Template :=
  .emit { opcode := .jumpIfFalse 0, position := some ⟨3, 1⟩ }

/-- A literal that is also asked for as a name, before the jump. -/
def beforeJump : List (Operation Template) :=
  [.constant (.string "size"), .patch 1 8, .emit { opcode := .loadThis }]

/-- The jump is given its target twice, and two more patches fail. -/
def afterJump : List (Operation Template) :=
  [.name "size", .emit { opcode := .getAttribute 0 }, .patch 1 3, .patch 2 7,
    .nested { body := {} }, .emit { opcode := .createClosure 0 }, .patch 1 4, .patch 9 5,
    .constant (.string "size")]

theorem indices_stay_valid_forward :
    (afterAll {} beforeJump).index? forwardJump = some 1 ∧
      (afterAll {} (beforeJump ++ forwardJump :: afterJump)).Denotes
        (lastSent? {} (beforeJump ++ forwardJump :: afterJump)) 1 forwardJump ∧
      lastSent? {} (beforeJump ++ forwardJump :: afterJump) 1 = some 4 :=
  ⟨rfl, (indices_stay_valid {} beforeJump afterJump).1 forwardJump 1 rfl, by decide +kernel⟩

end Block

end ScriptMachine
