import Mathlib.Data.List.TakeWhile
import ScriptMachine.Json.Basic

namespace ScriptMachine

namespace Numeral

/-- Digits, and at least one of them. -/
structure IsRun (ds : List Char) : Prop where
  nonempty : ds ≠ []
  digits : ∀ d ∈ ds, isDigit d = true

/-- The parts of a literal are as JSON asks. -/
structure WellFormed (n : Numeral) : Prop where
  whole : IsRun n.whole
  noLeadingZero : ∀ rest, n.whole = '0' :: rest → rest = []
  fraction : ∀ ds, n.fraction = some ds → IsRun ds
  exponent : ∀ sign ds, n.exponent = some (sign, ds) →
    IsRun ds ∧ (sign = none ∨ sign = some '+' ∨ sign = some '-')

def fractionChars (f : Option (List Char)) : List Char :=
  f.elim [] ('.' :: ·)

def exponentChars (e : Option (Option Char × List Char)) : List Char :=
  e.elim [] fun (sign, ds) => 'e' :: sign.toList ++ ds

/-- The text ends, or goes on with a mark that no number has. -/
def Ends (rest : List Char) : Prop :=
  ∀ c cs, rest = c :: cs → c = ',' ∨ c = ']' ∨ c = '\x7d'

/-- What follows a run of digits is no digit. -/
def EndsRun (rest : List Char) : Prop :=
  ∀ c cs, rest = c :: cs → isDigit c = false

variable {cs rest ds : List Char} {n : Numeral}

theorem Ends.endsRun (h : Ends rest) : EndsRun rest := by
  intro c cs hrest
  rcases h c cs hrest with rfl | rfl | rfl <;> rfl

theorem endsRun_cons {c : Char} (h : isDigit c = false) : EndsRun (c :: rest) := by
  intro c' cs heq
  cases heq
  exact h

theorem isRun_of_digits? (h : digits? cs = some (ds, rest)) : IsRun ds := by
  unfold digits? at h
  split at h
  · cases h
  · rename_i hne
    cases h
    exact ⟨hne, fun d hd => List.mem_takeWhile_imp hd⟩

theorem digits?_append (hds : IsRun ds) (hrest : EndsRun rest) :
    digits? (ds ++ rest) = some (ds, rest) := by
  have hspan : rest.takeWhile isDigit = [] ∧ rest.dropWhile isDigit = rest := by
    cases rest with
    | nil => exact ⟨rfl, rfl⟩
    | cons c cs => simp [hrest c cs rfl]
  unfold digits?
  rw [List.takeWhile_append_of_pos hds.digits, List.dropWhile_append_of_pos hds.digits, hspan.1,
    hspan.2, List.append_nil]
  split
  · exact absurd rfl hds.nonempty
  · rfl

theorem isRun_of_readFraction (h : readFraction cs = some (some ds, rest)) : IsRun ds := by
  unfold readFraction at h
  split at h
  · obtain ⟨⟨ds', rest'⟩, hds, heq⟩ := Option.map_eq_some_iff.1 h
    cases heq
    exact isRun_of_digits? hds
  · cases h

theorem isRun_of_readExponent {sign : Option Char}
    (h : readExponent cs = some (some (sign, ds), rest)) :
    IsRun ds ∧ (sign = none ∨ sign = some '+' ∨ sign = some '-') := by
  have hrun {cs : List Char} {mark : Option Char}
      (h : (digits? cs).map (fun r => (some (mark, r.1), r.2)) = some (some (sign, ds), rest)) :
      IsRun ds ∧ sign = mark := by
    obtain ⟨⟨ds', rest'⟩, hds, heq⟩ := Option.map_eq_some_iff.1 h
    cases heq
    exact ⟨isRun_of_digits? hds, rfl⟩
  unfold readExponent at h
  split at h
  · split at h
    · exact (hrun h).imp_right fun hmark => .inr (.inl hmark)
    · exact (hrun h).imp_right fun hmark => .inr (.inr hmark)
    · exact (hrun h).imp_right .inl
  · split at h
    · exact (hrun h).imp_right fun hmark => .inr (.inl hmark)
    · exact (hrun h).imp_right fun hmark => .inr (.inr hmark)
    · exact (hrun h).imp_right .inl
  · cases h

theorem wellFormed_of_readUnsigned {negative : Bool}
    (h : readUnsigned negative cs = some (n, rest)) : n.WellFormed := by
  unfold readUnsigned at h
  simp only [Option.bind_eq_bind, Option.bind_eq_some_iff] at h
  obtain ⟨⟨whole, cs₁⟩, hwhole, h⟩ := h
  split at h
  · cases h
  · rename_i hzero
    simp only [Option.bind_eq_some_iff, pure, Option.some.injEq, Prod.mk.injEq] at h
    obtain ⟨⟨fraction, cs₂⟩, hfraction, ⟨exponent, cs₃⟩, hexponent, rfl, -⟩ := h
    refine ⟨isRun_of_digits? hwhole, fun ds hds => ?_, fun ds hds => ?_, fun sign ds hds => ?_⟩
    · cases ds with
      | nil => rfl
      | cons d ds => exact absurd hds (hzero d ds)
    · cases hds
      exact isRun_of_readFraction hfraction
    · cases hds
      exact isRun_of_readExponent hexponent

theorem wellFormed_of_read (h : read cs = some (n, rest)) : n.WellFormed := by
  unfold read at h
  split at h
  · exact wellFormed_of_readUnsigned h
  · exact wellFormed_of_readUnsigned h

theorem wellFormed_ofFloat (x : Float) : (ofFloat x).WellFormed := by
  unfold ofFloat
  cases hread : read (Layout.json.render x).toList with
  | none => exact ⟨⟨by simp [zero], by simp [zero, isDigit]⟩, by simp [zero], nofun, nofun⟩
  | some r => exact wellFormed_of_read hread

theorem head?_toDigits_ne_zero {k : Nat} (h : 0 < k) : (Nat.toDigits 10 k).head? ≠ some '0' := by
  induction k using Nat.strong_induction_on with
  | _ k ih =>
    by_cases hk : k < 10
    · have hdigits : ∀ d < 10, 0 < d → d.digitChar ≠ '0' := by decide
      rw [Nat.toDigits_of_lt_base hk, List.head?_cons, ne_eq, Option.some.injEq]
      exact hdigits k hk h
    · obtain ⟨d, ds, hds⟩ := List.exists_cons_of_ne_nil (@Nat.toDigits_ne_nil (k / 10) 10)
      have hhead := ih (k / 10) (by omega) (by omega)
      rw [hds] at hhead
      rw [Nat.toDigits_of_base_le (by decide) (by omega), hds]
      exact hhead

theorem wellFormed_ofNat (k : Nat) : (ofNat k).WellFormed := by
  refine ⟨⟨Nat.toDigits_ne_nil, fun d hd => ?_⟩, ?_, nofun, nofun⟩
  · have hdigit := Nat.isDigit_of_mem_toDigits (by decide) (by decide) hd
    simpa [isDigit, Char.isDigit, Char.le_def] using hdigit
  · intro rest hrest
    change Nat.toDigits 10 k = '0' :: rest at hrest
    rcases Nat.eq_zero_or_pos k with rfl | hpos
    · cases hrest
      rfl
    · exact absurd (by rw [hrest]; rfl) (head?_toDigits_ne_zero hpos)

theorem readExponent_of_ends (h : Ends rest) : readExponent rest = some (none, rest) := by
  cases rest with
  | nil => rfl
  | cons c cs => rcases h c cs rfl with rfl | rfl | rfl <;> rfl

theorem readExponent_append {e : Option (Option Char × List Char)} (h : Ends rest)
    (he : ∀ sign ds, e = some (sign, ds) →
      IsRun ds ∧ (sign = none ∨ sign = some '+' ∨ sign = some '-')) :
    readExponent (exponentChars e ++ rest) = some (e, rest) := by
  cases e with
  | none => exact readExponent_of_ends h
  | some p =>
    obtain ⟨sign, ds⟩ := p
    obtain ⟨hds, rfl | rfl | rfl⟩ := he sign ds rfl
    · have hread := digits?_append hds h.endsRun
      cases ds with
      | nil => exact absurd rfl hds.nonempty
      | cons d ds =>
        have hd := hds.digits d List.mem_cons_self
        simp only [exponentChars, readExponent, Option.elim_some, Option.toList_none, List.cons_append,
          List.nil_append] at hread ⊢
        -- the first digit is no sign
        split
        · rename_i heq
          cases heq
          cases hd
        · rename_i heq
          cases heq
          cases hd
        · rw [hread]
          rfl
    · simp [exponentChars, readExponent, digits?_append hds h.endsRun]
    · simp [exponentChars, readExponent, digits?_append hds h.endsRun]

theorem readFraction_append {f : Option (List Char)} (h : EndsRun rest)
    (hrest : f = none → readFraction rest = some (none, rest)) (hf : ∀ ds, f = some ds → IsRun ds) :
    readFraction (fractionChars f ++ rest) = some (f, rest) := by
  cases f with
  | none => exact hrest rfl
  | some ds => simp [fractionChars, readFraction, digits?_append (hf ds rfl) h]

theorem readUnsigned_append (hn : n.WellFormed) (h : Ends rest) :
    readUnsigned n.negative
      (n.whole ++ (fractionChars n.fraction ++ (exponentChars n.exponent ++ rest))) =
        some (n, rest) := by
  have hexponent := readExponent_append h hn.exponent
  -- what follows the whole part and the fraction starts with a mark
  generalize htail : exponentChars n.exponent ++ rest = tail at hexponent ⊢
  have htail' : EndsRun tail ∧ readFraction tail = some (none, tail) := by
    rw [← htail]
    cases n.exponent with
    | none =>
      refine ⟨h.endsRun, ?_⟩
      cases rest with
      | nil => rfl
      | cons c cs => rcases h c cs rfl with rfl | rfl | rfl <;> rfl
    | some p => exact ⟨endsRun_cons rfl, rfl⟩
  have hfraction := readFraction_append htail'.1 (fun _ => htail'.2) hn.fraction
  have hend : EndsRun (fractionChars n.fraction ++ tail) := by
    cases n.fraction with
    | none => exact htail'.1
    | some ds => exact endsRun_cons rfl
  unfold readUnsigned
  rw [digits?_append hn.whole hend]
  simp only [Option.bind_eq_bind, Option.bind_some]
  split
  · rename_i d ds hzero
    cases hn.noLeadingZero _ hzero
  · rw [hfraction, Option.bind_some, hexponent]
    rfl

theorem read_append (hn : n.WellFormed) (h : Ends rest) :
    read (n.chars ++ rest) = some (n, rest) := by
  have hread := readUnsigned_append hn h
  have hchars : n.chars ++ rest = (if n.negative then ['-'] else []) ++
      (n.whole ++ (fractionChars n.fraction ++ (exponentChars n.exponent ++ rest))) := by
    simp [chars, fractionChars, exponentChars]
  rw [hchars]
  cases hneg : n.negative with
  | true =>
    rw [hneg] at hread
    exact hread
  | false =>
    rw [hneg] at hread
    obtain ⟨d, ds, hwhole⟩ := List.exists_cons_of_ne_nil hn.whole.nonempty
    have hd := hn.whole.digits d (by simp [hwhole])
    rw [if_neg Bool.false_ne_true, List.nil_append]
    unfold read
    split
    · rename_i heq
      rw [hwhole] at heq
      cases heq
      cases hd
    · exact hread

theorem ne_of_isDigit {c d : Char} (hc : isDigit c = true) (hd : isDigit d = false) : c ≠ d := by
  rintro rfl
  rw [hc] at hd
  cases hd

theorem exists_chars_eq (hn : n.WellFormed) :
    ∃ c cs, n.chars = c :: cs ∧ (c = '-' ∨ isDigit c = true) := by
  obtain ⟨d, ds, hwhole⟩ := List.exists_cons_of_ne_nil hn.whole.nonempty
  cases hneg : n.negative with
  | true => exact ⟨'-', _, by simp [chars, hneg]; rfl, .inl rfl⟩
  | false =>
    refine ⟨d, _, by simp [chars, hneg, hwhole]; rfl, .inr ?_⟩
    exact hn.whole.digits d (by simp [hwhole])

theorem le_ofDigitChars (ds : List Char) (k : Nat) : k ≤ Nat.ofDigitChars 10 ds k := by
  induction ds generalizing k with
  | nil => exact Nat.le_refl k
  | cons d ds ih =>
    rw [Nat.ofDigitChars_cons]
    have hle := ih (10 * k + (d.toNat - '0'.toNat))
    omega

theorem gather_of_le {limit k : Nat} (h : Nat.ofDigitChars 10 ds k ≤ limit) :
    gather limit k ds = (Nat.ofDigitChars 10 ds k, []) := by
  induction ds generalizing k with
  | nil => rfl
  | cons d ds ih =>
    rw [Nat.ofDigitChars_cons] at h ⊢
    have hle := le_ofDigitChars ds (10 * k + (d.toNat - '0'.toNat))
    have hstep : k * 10 + digitValue d = 10 * k + (d.toNat - '0'.toNat) := by
      rw [digitValue, Nat.mul_comm]
    rw [gather, hstep, if_pos (Nat.le_trans hle h)]
    exact ih h

theorem value?_ofNat {k : Nat} (h : k ≤ maxWord) : (ofNat k).value? = some (.nat k) := by
  have hdigits : Nat.ofDigitChars 10 (Nat.toDigits 10 k) 0 = k :=
    Nat.ofDigitChars_toDigits (by decide) (by decide)
  have hgather : gather maxWord 0 (Nat.toDigits 10 k) = (k, []) := by
    rw [gather_of_le (by rw [hdigits]; exact h), hdigits]
  simp [value?, ofNat, hgather, isIntegral]

end Numeral

namespace Json

theorem escape_cases (c : Char) :
    (∃ x, escape c = ['\\', x] ∧ x ≠ 'u' ∧ escaped? x = some c) ∨
    (c.toNat < 0x20 ∧ escape c = '\\' :: 'u' :: hexDigits c.toNat) ∨
    (0x20 ≤ c.toNat ∧ c ≠ '"' ∧ c ≠ '\\' ∧ escape c = [c]) := by
  unfold escape
  split
  · exact .inl ⟨_, rfl, by decide, rfl⟩
  · exact .inl ⟨_, rfl, by decide, rfl⟩
  · exact .inl ⟨_, rfl, by decide, rfl⟩
  · exact .inl ⟨_, rfl, by decide, rfl⟩
  · exact .inl ⟨_, rfl, by decide, rfl⟩
  · exact .inl ⟨_, rfl, by decide, rfl⟩
  · exact .inl ⟨_, rfl, by decide, rfl⟩
  · split
    · rename_i hlow
      exact .inr (.inl ⟨hlow, rfl⟩)
    · rename_i hquote hslash _ _ _ _ _ hlow
      exact .inr (.inr ⟨Nat.le_of_not_lt hlow, hquote, hslash, rfl⟩)

theorem hexDigits_of_lt {n : Nat} (h : n < 0x20) :
    ∃ a b c d, hexDigits n = [a, b, c, d] ∧ hex4? a b c d = some n := by
  have hall : ∀ k < 0x20,
      hexDigits k = ['0', '0', (k / 16).digitChar, (k % 16).digitChar] ∧
        hex4? '0' '0' (k / 16).digitChar (k % 16).digitChar = some k := by decide
  exact ⟨_, _, _, _, hall n h⟩

/-- An escape by number in what follows is complete. -/
def Complete (rest : List Char) : Prop :=
  ∀ a b c d cs, rest = '\\' :: 'u' :: a :: b :: c :: d :: cs → (hex4? a b c d).isSome = true

theorem complete_flatMap_escape (cs rest : List Char) :
    Complete (cs.flatMap escape ++ '"' :: rest) := by
  intro a b c d tail heq
  cases cs with
  | nil => cases heq
  | cons x cs =>
    rw [List.flatMap_cons, List.append_assoc] at heq
    rcases escape_cases x with ⟨y, hx, hy, -⟩ | ⟨hlow, hx⟩ | ⟨-, -, hslash, hx⟩
    · rw [hx] at heq
      simp only [List.cons_append, List.nil_append, List.cons.injEq] at heq
      exact absurd heq.2.1 hy
    · obtain ⟨a', b', c', d', hhex, hvalue⟩ := hexDigits_of_lt hlow
      rw [hx, hhex] at heq
      simp only [List.cons_append, List.nil_append, List.cons.injEq] at heq
      obtain ⟨-, -, rfl, rfl, rfl, rfl, -⟩ := heq
      rw [hvalue]
      rfl
    · rw [hx] at heq
      simp only [List.cons_append, List.nil_append, List.cons.injEq] at heq
      exact absurd heq.1 hslash

theorem not_surrogate_of_lt {n : Nat} (h : n < 0x20) : isHigh n = false ∧ isLow n = false := by
  simp only [isHigh, isLow, Bool.and_eq_false_iff, decide_eq_false_iff_not]
  omega

theorem readText_escape (acc : List Char) (c : Char) {rest : List Char} (hrest : Complete rest) :
    readText acc true (escape c ++ rest) = readText (c :: acc) true rest := by
  rcases escape_cases c with ⟨x, hx, hu, hchar⟩ | ⟨hlow, hx⟩ | ⟨hhigh, hquote, hslash, hx⟩
  · rw [hx, List.cons_append, List.singleton_append, readText.eq_5]
    · rw [hchar]
    · exact fun _ _ _ _ _ _ _ _ _ h => absurd h hu
    · exact fun _ _ _ _ _ h => absurd h hu
  · obtain ⟨a, b, d, e, hhex, hvalue⟩ := hexDigits_of_lt hlow
    obtain ⟨hhigh, hlow⟩ := not_surrogate_of_lt hlow
    have hchar := Char.ofNat_toNat c
    rw [hx, hhex]
    -- an escape that follows is looked at as the possible half of a pair
    by_cases hnext : ∃ f g h i tail, rest = '\\' :: 'u' :: f :: g :: h :: i :: tail
    · obtain ⟨f, g, h, i, tail, rfl⟩ := hnext
      obtain ⟨l, hl⟩ := Option.isSome_iff_exists.1 (hrest f g h i tail rfl)
      show readText acc true ('\\' :: 'u' :: a :: b :: d :: e :: '\\' :: 'u' :: _) = _
      rw [readText.eq_3, hvalue, hl]
      simp [hhigh, hlow, hchar]
    · show readText acc true ('\\' :: 'u' :: a :: b :: d :: e :: rest) = _
      rw [readText.eq_4, hvalue]
      · simp [hhigh, hlow, hchar]
      · exact fun f g h i tail heq => hnext ⟨f, g, h, i, tail, heq⟩
  · rw [hx, List.singleton_append, readText.eq_6]
    · rw [if_neg (Nat.not_lt.2 hhigh)]
    · exact hquote
    · exact fun _ _ _ _ _ _ _ _ _ h => absurd h hslash
    · exact fun _ _ _ _ _ h => absurd h hslash
    · exact fun _ _ h => absurd h hslash

theorem readText_flatMap_escape (acc cs rest : List Char) :
    readText acc true (cs.flatMap escape ++ '"' :: rest) =
      some (some (String.ofList (acc.reverse ++ cs)), rest) := by
  induction cs generalizing acc with
  | nil => simp [readText]
  | cons c cs ih =>
    rw [List.flatMap_cons, List.append_assoc, readText_escape _ _ (complete_flatMap_escape _ _), ih]
    simp

theorem readText_quote (t : String) (rest : List Char) :
    readText [] true (t.toList.flatMap escape ++ '"' :: rest) = some (some t, rest) := by
  rw [readText_flatMap_escape]
  simp

mutual

/-- Every string has a text, and every number is a literal. -/
def WellFormed : Json → Prop
  | null | bool _ => True
  | number n => n.WellFormed
  | string t => t.isSome = true
  | array items => WellFormedItems items
  | object members => WellFormedMembers members

def WellFormedItems : List Json → Prop
  | [] => True
  | v :: rest => v.WellFormed ∧ WellFormedItems rest

def WellFormedMembers : List (Option String × Json) → Prop
  | [] => True
  | (key, v) :: rest => key.isSome = true ∧ v.WellFormed ∧ WellFormedMembers rest

end

theorem skipBlank_cons {c : Char} (h : isBlank c = false) (cs : List Char) :
    skipBlank (c :: cs) = c :: cs :=
  List.dropWhile_cons_of_neg (by simp [h])

theorem isBlank_of_isDigit {c : Char} (h : Numeral.isDigit c = true) : isBlank c = false := by
  rw [Bool.eq_false_iff]
  intro hblank
  simp only [isBlank, Bool.or_eq_true, beq_iff_eq, or_assoc] at hblank
  rcases hblank with rfl | rfl | rfl | rfl <;> cases h

theorem exists_chars_eq {v : Json} (hv : v.WellFormed) :
    ∃ c cs, v.chars = c :: cs ∧ isBlank c = false ∧ c ≠ ']' := by
  cases v with
  | null => exact ⟨_, _, rfl, by decide⟩
  | bool b => cases b <;> exact ⟨_, _, rfl, by decide⟩
  | string t => exact ⟨_, _, rfl, by decide⟩
  | array items => exact ⟨_, _, rfl, by decide⟩
  | object members => exact ⟨_, _, rfl, by decide⟩
  | number n =>
    obtain ⟨c, cs, hchars, hc⟩ := Numeral.exists_chars_eq hv
    refine ⟨c, cs, hchars, ?_⟩
    rcases hc with rfl | hdigit
    · decide
    · exact ⟨isBlank_of_isDigit hdigit, Numeral.ne_of_isDigit hdigit rfl⟩

theorem readValue_number {n : Numeral} (hn : n.WellFormed) (k : Nat) {rest : List Char}
    (hrest : Numeral.Ends rest) : readValue (k + 1) (n.chars ++ rest) = some (number n, rest) := by
  obtain ⟨c, cs, hchars, hc⟩ := Numeral.exists_chars_eq hn
  have hread := Numeral.read_append hn hrest
  have hne (d : Char) (hd : Numeral.isDigit d = false) (hminus : '-' ≠ d) : c ≠ d := by
    rcases hc with rfl | hdigit
    · exact hminus
    · exact Numeral.ne_of_isDigit hdigit hd
  have hblank : isBlank c = false := by
    rcases hc with rfl | hdigit
    · rfl
    · exact isBlank_of_isDigit hdigit
  rw [hchars, List.cons_append] at hread ⊢
  rw [readValue, skipBlank_cons hblank]
  split
  · exact absurd (List.cons.inj ‹_›).1 (hne _ rfl (by decide))
  · exact absurd (List.cons.inj ‹_›).1 (hne _ rfl (by decide))
  · exact absurd (List.cons.inj ‹_›).1 (hne _ rfl (by decide))
  · exact absurd (List.cons.inj ‹_›).1 (hne _ rfl (by decide))
  · exact absurd (List.cons.inj ‹_›).1 (hne _ rfl (by decide))
  · exact absurd (List.cons.inj ‹_›).1 (hne _ rfl (by decide))
  · rw [hread]
    rfl

theorem readValue_array (k : Nat) (cs : List Char) :
    readValue (k + 1) ('[' :: cs) =
      match skipBlank cs with
      | ']' :: rest => some (array [], rest)
      | rest => (readItems k rest).map fun (items, rest) => (array items, rest) := by
  rw [readValue, skipBlank_cons rfl]
  rfl

theorem readValue_object (k : Nat) (cs : List Char) :
    readValue (k + 1) ('\x7b' :: cs) =
      match skipBlank cs with
      | '\x7d' :: rest => some (object [], rest)
      | rest => (readMembers k rest).map fun (members, rest) => (object members, rest) := by
  rw [readValue, skipBlank_cons rfl]
  rfl

theorem ends_cons {c : Char} (h : c = ',' ∨ c = ']' ∨ c = '\x7d') (cs : List Char) :
    Numeral.Ends (c :: cs) := by
  intro c' cs' heq
  cases heq
  exact h

theorem exists_itemChars_eq {v : Json} {tail : List Json} (hv : WellFormedItems (v :: tail)) :
    ∃ c cs, itemChars (v :: tail) = c :: cs ∧ isBlank c = false ∧ c ≠ ']' := by
  obtain ⟨c, cs, hchars, hc⟩ := exists_chars_eq hv.1
  cases tail with
  | nil => exact ⟨c, cs, hchars, hc⟩
  | cons w tail => exact ⟨c, cs ++ ',' :: itemChars (w :: tail), by simp [itemChars, hchars], hc⟩

theorem exists_memberChars_eq (m : Option String × Json) (tail : List (Option String × Json)) :
    ∃ cs, memberChars (m :: tail) = '"' :: cs := by
  cases tail with
  | nil => exact ⟨_, rfl⟩
  | cons m' tail => exact ⟨_, rfl⟩

mutual

theorem readValue_chars (v : Json) (hv : v.WellFormed) {k : Nat} (hk : 2 * v.chars.length ≤ k)
    {rest : List Char} (hrest : Numeral.Ends rest) :
    readValue k (v.chars ++ rest) = some (v, rest) := by
  obtain ⟨c, cs, hchars, -⟩ := exists_chars_eq hv
  obtain ⟨k, rfl⟩ : ∃ k', k = k' + 1 := Nat.exists_eq_succ_of_ne_zero (by
    rw [hchars, List.length_cons] at hk
    omega)
  cases v with
  | null => rfl
  | bool b => cases b <;> rfl
  | number n => exact readValue_number hv k hrest
  | string t =>
    obtain ⟨t, rfl⟩ := Option.isSome_iff_exists.1 hv
    simp [chars, quote, readValue, skipBlank_cons, isBlank, readText_quote]
  | array items =>
    cases items with
    | nil => simp [chars, itemChars, readValue, skipBlank_cons, isBlank]
    | cons w tail =>
      have hitems := readItems_chars (w :: tail) hv (by simp) (k := k)
        (by simp [chars] at hk ⊢; omega) rest
      obtain ⟨c, cs, hitem, hblank, hclose⟩ := exists_itemChars_eq hv
      have htext : (array (w :: tail)).chars ++ rest = '[' :: c :: (cs ++ ']' :: rest) := by
        simp [chars, hitem]
      rw [hitem, List.cons_append] at hitems
      rw [htext, readValue_array, skipBlank_cons hblank]
      split
      · exact absurd (List.cons.inj ‹_›).1 hclose
      · rw [hitems]
        rfl
  | object members =>
    cases members with
    | nil => simp [chars, memberChars, readValue, skipBlank_cons, isBlank]
    | cons m tail =>
      have hmembers := readMembers_chars (m :: tail) hv (by simp) (k := k)
        (by simp [chars] at hk ⊢; omega) rest
      obtain ⟨cs, hmember⟩ := exists_memberChars_eq m tail
      have htext : (object (m :: tail)).chars ++ rest = '\x7b' :: '"' :: (cs ++ '\x7d' :: rest) := by
        simp [chars, hmember]
      rw [hmember, List.cons_append] at hmembers
      rw [htext, readValue_object, skipBlank_cons rfl]
      show (readMembers k _).map _ = _
      rw [hmembers]
      rfl

theorem readItems_chars (items : List Json) (hitems : WellFormedItems items) (hne : items ≠ [])
    {k : Nat} (hk : 2 * (itemChars items).length + 1 ≤ k) (rest : List Char) :
    readItems k (itemChars items ++ ']' :: rest) = some (items, rest) := by
  obtain ⟨k, rfl⟩ : ∃ k', k = k' + 1 := Nat.exists_eq_succ_of_ne_zero (by omega)
  match items, hitems, hne with
  | [v], ⟨hv, _⟩, _ =>
    have hread := readValue_chars v hv (k := k) (by simp only [itemChars] at hk; omega)
      (ends_cons (.inr (.inl rfl)) rest)
    simp [itemChars, readItems, hread, skipBlank_cons, isBlank]
  | v :: w :: tail, ⟨hv, htail⟩, _ =>
    have hread := readValue_chars v hv (k := k) (by simp [itemChars] at hk; omega)
      (ends_cons (.inl rfl) (itemChars (w :: tail) ++ ']' :: rest))
    have hitems := readItems_chars (w :: tail) htail (by simp) (k := k)
      (by simp [itemChars] at hk ⊢; omega) rest
    simp [itemChars, readItems, hread, skipBlank_cons, isBlank, hitems]

theorem readMembers_chars (members : List (Option String × Json))
    (hmembers : WellFormedMembers members)
    (hne : members ≠ []) {k : Nat} (hk : 2 * (memberChars members).length + 1 ≤ k)
    (rest : List Char) :
    readMembers k (memberChars members ++ '\x7d' :: rest) = some (members, rest) := by
  obtain ⟨k, rfl⟩ : ∃ k', k = k' + 1 := Nat.exists_eq_succ_of_ne_zero (by omega)
  match members, hmembers, hne with
  | [(some key, v)], ⟨_, hv, _⟩, _ =>
    have hread := readValue_chars v hv (k := k) (by simp [memberChars] at hk; omega)
      (ends_cons (.inr (.inr rfl)) rest)
    simp [memberChars, quote, readMembers, readText_quote, hread, skipBlank_cons, isBlank]
  | (some key, v) :: m :: tail, ⟨_, hv, htail⟩, _ =>
    have hread := readValue_chars v hv (k := k) (by simp [memberChars] at hk; omega)
      (ends_cons (.inl rfl) (memberChars (m :: tail) ++ '\x7d' :: rest))
    have hmembers := readMembers_chars (m :: tail) htail (by simp) (k := k)
      (by simp [memberChars] at hk ⊢; omega) rest
    simp [memberChars, quote, readMembers, readText_quote, hread, skipBlank_cons, isBlank, hmembers]

end

/-- A tree is read back from its text. -/
theorem parse_text {v : Json} (hv : v.WellFormed) : parse v.text = some v := by
  have hread : readValue (2 * v.chars.length + 2) (v.chars ++ []) = some (v, []) :=
    readValue_chars v hv (by omega) nofun
  rw [List.append_nil] at hread
  have hchars : v.text.toList = v.chars := String.toList_ofList
  rw [parse, hchars, hread]
  rfl

theorem wellFormedItems_iff {items : List Json} :
    WellFormedItems items ↔ ∀ v ∈ items, v.WellFormed := by
  induction items with
  | nil => simp [WellFormedItems]
  | cons v items ih => simp [WellFormedItems, ih]

end Json

end ScriptMachine
