import Mathlib.Data.Set.Card
import ScriptMachine.Model.Registry

namespace ScriptMachine

theorem Value.eq_of_cell {v w : Value} (hv : v.isPrimitive = false)
    (h : v.identity? = w.identity?) : v = w := by
  cases v <;> cases w <;> simp_all [isPrimitive, identity?] <;> exact congrArg Id.mk h

namespace Registry

inductive Call where
  | register (v : Value)
  | bind (id : Nat) (v : Value)

/-- The registry after a call that succeeds. -/
def call? (r : Registry) : Call → Option Registry
  | .register v => (r.register v).map fun answer => answer.2.2
  | .bind id v => r.bind id v

/-- The registry after a call. One that fails leaves nothing behind. -/
def after (r : Registry) (c : Call) : Registry :=
  (r.call? c).getD r

def afterAll (r : Registry) (calls : List Call) : Registry :=
  calls.foldl after r

/-- The registry that the calls make from a new one. -/
def ofCalls (calls : List Call) : Registry :=
  afterAll {} calls

/-- Why a call fails: a primitive has no number, there is none left, or it is not to be had. -/
def Refuses (r : Registry) : Call → Prop
  | .register v => v.isPrimitive = true ∨ r.idOf? v = none ∧ r.next = idLimit
  | .bind id _ => idLimit ≤ id ∨ ∃ v, r.get? id = some v

/-- A number in use is below the next one, which is at most the limit. The number of a value leads
to it, and a value in use has a number unless it is a primitive. -/
structure Sound (r : Registry) : Prop where
  below : ∀ i v, r.get? i = some v → i < r.next
  limit : r.next ≤ idLimit
  found : ∀ v i, r.idOf? v = some i → r.get? i = some v
  known : ∀ i v, r.get? i = some v → v.isPrimitive = false → ∃ j, r.idOf? v = some j
  nodup : (r.values.map Prod.fst).Nodup

/-- From `r` to `r'` the free number `i` was given to `v`, and no other number has changed. -/
structure Adds (r : Registry) (i : Nat) (v : Value) (r' : Registry) : Prop where
  free : r.get? i = none
  lt : i < idLimit
  self : r'.get? i = some v
  others : ∀ j, j ≠ i → r'.get? j = r.get? j
  idSelf : v.isPrimitive = false → r'.idOf? v = some i
  idOthers : ∀ w, w ≠ v → r'.idOf? w = r.idOf? w
  next : r'.next = max r.next (i + 1)
  numbers : r'.values.map Prod.fst = i :: r.values.map Prod.fst

section Calls

variable {r r' : Registry} {c : Call} {v : Value} {i : Nat}

theorem sound_new : Sound {} := by
  refine ⟨fun i v h => ?_, Nat.zero_le _, fun v i h => ?_, fun i v h => ?_, List.nodup_nil⟩
  · cases h
  · cases hv : v.identity? <;> simp [idOf?, hv] at h
  · cases h

theorem exists_get?_iff : (∃ v, r.get? i = some v) ↔ i ∈ r.values.map Prod.fst := by
  rw [← Option.isSome_iff_exists, get?, List.lookup_isSome_iff]
  simp

theorem idOf?_of_isPrimitive (hv : v.isPrimitive = true) : r.idOf? v = none := by
  rw [Value.isPrimitive, Option.isNone_iff_eq_none] at hv
  simp [idOf?, hv]

/-- What every way of giving a number comes to. -/
theorem adds_cons (hi : i < idLimit) (hfree : r.get? i = none)
    (hids : r'.ids = (v.identity?.map fun cell => (cell, i)).toList ++ r.ids)
    (hvalues : r'.values = (i, v) :: r.values) (hnext : r'.next = max r.next (i + 1)) :
    r.Adds i v r' := by
  refine ⟨hfree, hi, ?_, fun j hj => ?_, fun hv => ?_, fun w hw => ?_, hnext, ?_⟩
  · simp [get?, hvalues]
  · simp [get?, hvalues, List.lookup_cons, beq_eq_false_iff_ne.2 hj]
  · cases hcell : v.identity? with
    | none => simp [Value.isPrimitive, hcell] at hv
    | some cell => simp [idOf?, hids, hcell]
  · cases hcell : w.identity? with
    | none => simp [idOf?, hcell]
    | some cell =>
      cases hcell' : v.identity? with
      | none => simp [idOf?, hids, hcell, hcell']
      | some cell' =>
        have hne : (cell == cell') = false := by
          refine beq_eq_false_iff_ne.2 fun heq => hw ?_
          exact Value.eq_of_cell (by simp [Value.isPrimitive, hcell]) (by rw [hcell, hcell', heq])
        simp [idOf?, hids, hcell, hcell', List.lookup_cons, hne]
  · rw [hvalues, List.map_cons]

theorem register_of_idOf? (h : r.idOf? v = some i) : r.register v = some (i, false, r) := by
  cases hcell : v.identity? with
  | none => simp [idOf?, hcell] at h
  | some cell =>
    have hlookup : r.ids.lookup cell = some i := by simpa [idOf?, hcell] using h
    simp [register, hcell, hlookup]

theorem register_cases (hr : r.Sound) (v : Value) :
    r.register v = none ∧ r.Refuses (.register v) ∨
      (∃ i, r.idOf? v = some i ∧ r.register v = some (i, false, r)) ∨
      ∃ r', r.idOf? v = none ∧ r.register v = some (r.next, true, r') ∧ r.Adds r.next v r' := by
  cases hcell : v.identity? with
  | none => exact .inl ⟨by simp [register, hcell], .inl (by simp [Value.isPrimitive, hcell])⟩
  | some cell =>
    have hid : r.idOf? v = r.ids.lookup cell := by simp [idOf?, hcell]
    cases hlookup : r.ids.lookup cell with
    | some i =>
      have hfound := hid.trans hlookup
      exact .inr (.inl ⟨i, hfound, register_of_idOf? hfound⟩)
    | none =>
      by_cases hlt : r.next < idLimit
      · have hfree : r.get? r.next = none := by
          cases hget : r.get? r.next with
          | none => rfl
          | some w => exact absurd (hr.below _ _ hget) (Nat.lt_irrefl _)
        refine .inr (.inr ⟨_, hid.trans hlookup, by simp [register, hcell, hlookup, hlt]; rfl, ?_⟩)
        exact adds_cons hlt hfree (by simp [hcell]) rfl (by simp)
      · refine .inl ⟨by simp [register, hcell, hlookup, hlt], .inr ⟨hid.trans hlookup, ?_⟩⟩
        exact Nat.le_antisymm hr.limit (Nat.le_of_not_lt hlt)

theorem bind_cases (r : Registry) (i : Nat) (v : Value) :
    r.bind i v = none ∧ r.Refuses (.bind i v) ∨ ∃ r', r.bind i v = some r' ∧ r.Adds i v r' := by
  by_cases hi : i < idLimit
  · cases hget : r.get? i with
    | some w => exact .inl ⟨by simp [bind, hget], .inr ⟨w, hget⟩⟩
    | none =>
      refine .inr ⟨_, if_pos ⟨hi, by rw [hget]; rfl⟩, ?_⟩
      exact adds_cons hi hget rfl rfl rfl
  · exact .inl ⟨if_neg fun h => hi h.1, .inl (Nat.le_of_not_lt hi)⟩

theorem call?_eq_none_iff (hr : r.Sound) : r.call? c = none ↔ r.Refuses c := by
  cases c with
  | register v =>
    rw [call?, Option.map_eq_none_iff]
    obtain ⟨hnone, hrefuses⟩ | ⟨i, hid, hsome⟩ | ⟨r', hid, hsome, hadds⟩ := register_cases hr v
    · exact ⟨fun _ => hrefuses, fun _ => hnone⟩
    · rw [hsome]
      refine ⟨nofun, ?_⟩
      rintro (hv | ⟨hnone, -⟩)
      · rw [idOf?_of_isPrimitive hv] at hid
        cases hid
      · rw [hnone] at hid
        cases hid
    · rw [hsome]
      refine ⟨nofun, ?_⟩
      rintro (hv | ⟨-, hfull⟩)
      · simp [register, Option.isNone_iff_eq_none.1 hv] at hsome
      · exact absurd hadds.lt (by omega)
  | bind i v =>
    obtain ⟨hnone, hrefuses⟩ | ⟨r', hsome, hadds⟩ := bind_cases r i v
    · exact ⟨fun _ => hrefuses, fun _ => hnone⟩
    · rw [call?, hsome]
      refine ⟨nofun, ?_⟩
      rintro (hi | ⟨w, hw⟩)
      · exact absurd hadds.lt (by omega)
      · rw [hadds.free] at hw
        cases hw

/-- The call gives `v` a number although it has one. -/
def Rebinds (r : Registry) (v : Value) : Call → Prop
  | .register _ => False
  | .bind i w => w = v ∧ ¬ r.Refuses (.bind i w) ∧ ∃ j, r.idOf? v = some j

/-- What a call does: nothing, or it gives a free number, as a second one only by `bind`. -/
theorem after_cases (hr : r.Sound) (c : Call) :
    r.after c = r ∧ (∀ v, ¬ r.Rebinds v c) ∨
      ∃ i v, r.Adds i v (r.after c) ∧ ∀ w, r.Rebinds w c ↔ w = v ∧ ∃ j, r.idOf? v = some j := by
  cases c with
  | register v =>
    obtain ⟨hnone, -⟩ | ⟨i, -, hsome⟩ | ⟨r', hid, hsome, hadds⟩ := register_cases hr v
    · exact .inl ⟨by simp [after, call?, hnone], fun _ h => h⟩
    · exact .inl ⟨by simp [after, call?, hsome], fun _ h => h⟩
    · refine .inr ⟨r.next, v, by simpa [after, call?, hsome] using hadds, fun w => ?_⟩
      simp [Rebinds, hid]
  | bind i v =>
    obtain ⟨hnone, hrefuses⟩ | ⟨r', hsome, hadds⟩ := bind_cases r i v
    · exact .inl ⟨by simp [after, call?, hnone], fun _ h => h.2.1 hrefuses⟩
    · have hadmits : ¬ r.Refuses (.bind i v) := by
        rw [← call?_eq_none_iff hr, call?, hsome]
        exact Option.some_ne_none r'
      refine .inr ⟨i, v, by simpa [after, call?, hsome] using hadds, fun w => ⟨?_, ?_⟩⟩
      · rintro ⟨rfl, -, hid⟩
        exact ⟨rfl, hid⟩
      · rintro ⟨rfl, hid⟩
        exact ⟨rfl, hadmits, hid⟩

theorem Adds.ne (h : r.Adds i v r') {j : Nat} {w : Value} (hj : r.get? j = some w) : j ≠ i := by
  rintro rfl
  rw [h.free] at hj
  cases hj

theorem Adds.get?_cases (h : r.Adds i v r') {j : Nat} {w : Value} (hj : r'.get? j = some w) :
    j = i ∧ w = v ∨ r.get? j = some w := by
  by_cases hji : j = i
  · subst hji
    rw [h.self] at hj
    exact .inl ⟨rfl, (Option.some.inj hj).symm⟩
  · rw [h.others j hji] at hj
    exact .inr hj

theorem Adds.get?_of_get? (h : r.Adds i v r') {j : Nat} {w : Value} (hj : r.get? j = some w) :
    r'.get? j = some w := by
  rw [h.others j (h.ne hj), hj]

theorem Adds.sound (h : r.Adds i v r') (hr : r.Sound) : r'.Sound := by
  refine ⟨fun j w hj => ?_, ?_, fun w j hw => ?_, fun j w hj hw => ?_, ?_⟩
  · rw [h.next]
    rcases h.get?_cases hj with ⟨rfl, -⟩ | hold
    · omega
    · have := hr.below j w hold
      omega
  · have := hr.limit
    have := h.lt
    rw [h.next]
    omega
  · by_cases hwv : w = v
    · subst hwv
      cases hp : w.isPrimitive with
      | true =>
        rw [idOf?_of_isPrimitive hp] at hw
        cases hw
      | false =>
        rw [h.idSelf hp] at hw
        exact Option.some.inj hw ▸ h.self
    · rw [h.idOthers w hwv] at hw
      exact h.get?_of_get? (hr.found w j hw)
  · by_cases hwv : w = v
    · exact ⟨i, hwv ▸ h.idSelf (hwv ▸ hw)⟩
    · rw [h.idOthers w hwv]
      rcases h.get?_cases hj with ⟨-, heq⟩ | hold
      · exact absurd heq hwv
      · exact hr.known j w hold hw
  · rw [h.numbers, List.nodup_cons]
    refine ⟨fun hmem => ?_, hr.nodup⟩
    obtain ⟨w, hw⟩ := exists_get?_iff.2 hmem
    exact h.ne hw rfl

theorem sound_after (hr : r.Sound) (c : Call) : (r.after c).Sound := by
  obtain ⟨hsame, -⟩ | ⟨i, v, hadds, -⟩ := after_cases hr c
  · rwa [hsame]
  · exact hadds.sound hr

theorem Sound.get?_after (hr : r.Sound) (c : Call) (h : r.get? i = some v) :
    (r.after c).get? i = some v := by
  obtain ⟨hsame, -⟩ | ⟨j, w, hadds, -⟩ := after_cases hr c
  · rwa [hsame]
  · exact hadds.get?_of_get? h

theorem sound_afterAll (hr : r.Sound) (calls : List Call) : (r.afterAll calls).Sound := by
  induction calls generalizing r with
  | nil => exact hr
  | cons c calls ih => exact ih (sound_after hr c)

/-- A number in use stays with its value. -/
theorem Sound.get?_afterAll (hr : r.Sound) (calls : List Call) (h : r.get? i = some v) :
    (r.afterAll calls).get? i = some v := by
  induction calls generalizing r with
  | nil => exact h
  | cons c calls ih => exact ih (sound_after hr c) (hr.get?_after c h)

theorem Sound.size_eq (hr : r.Sound) : r.size = {i | ∃ v, r.get? i = some v}.ncard := by
  have hset : {i | ∃ v, r.get? i = some v} = ((r.values.map Prod.fst).toFinset : Set Nat) := by
    ext i
    rw [Set.mem_ofPred_eq, exists_get?_iff, Finset.mem_coe, List.mem_toFinset]
  rw [hset, Set.ncard_coe_finset, List.toFinset_card_of_nodup hr.nodup, List.length_map, size]

theorem sound_ofCalls (calls : List Call) : (ofCalls calls).Sound :=
  sound_afterAll sound_new calls

theorem ofCalls_append (calls later : List Call) :
    ofCalls (calls ++ later) = (ofCalls calls).afterAll later :=
  List.foldl_append

/-- The numbers of a registry, whichever calls were made. Those in use are below the next one and
below the limit; a new one was never in use; the number of a value leads to it, and registering the
value again gives this number; what is in use stays with its value; a call that fails changes
nothing. -/
theorem numbers_after_calls (calls : List Call) :
    (∀ i v, (ofCalls calls).get? i = some v → i < (ofCalls calls).next ∧ i < idLimit) ∧
    (∀ v i r', (ofCalls calls).register v = some (i, true, r') →
      (∀ earlier, earlier <+: calls → (ofCalls earlier).get? i = none) ∧ r'.get? i = some v) ∧
    (∀ v i, (ofCalls calls).idOf? v = some i →
      (ofCalls calls).get? i = some v ∧
        (ofCalls calls).register v = some (i, false, ofCalls calls)) ∧
    (∀ i v later, (ofCalls calls).get? i = some v → (ofCalls (calls ++ later)).get? i = some v) ∧
    (ofCalls calls).size = {i | ∃ v, (ofCalls calls).get? i = some v}.ncard ∧
    ∀ c, ((ofCalls calls).call? c = none ↔ (ofCalls calls).Refuses c) ∧
      ((ofCalls calls).Refuses c → ofCalls (calls ++ [c]) = ofCalls calls) := by
  have hr := sound_ofCalls calls
  refine ⟨fun i v h => ?_, fun v i r' h => ?_, fun v i h => ⟨hr.found v i h, register_of_idOf? h⟩,
    fun i v later h => ?_, hr.size_eq, fun c => ⟨call?_eq_none_iff hr, fun h => ?_⟩⟩
  · have hlt := hr.below i v h
    exact ⟨hlt, Nat.lt_of_lt_of_le hlt hr.limit⟩
  · obtain ⟨hnone, -⟩ | ⟨j, -, hsome⟩ | ⟨r₁, -, hsome, hadds⟩ := register_cases hr v
    · rw [hnone] at h
      cases h
    · rw [hsome] at h
      cases h
    · rw [hsome] at h
      cases h
      refine ⟨?_, hadds.self⟩
      -- had the number been in use before, it would still be
      rintro earlier ⟨rest, rfl⟩
      refine Option.eq_none_iff_forall_ne_some.2 fun w hw => ?_
      have hlater := (sound_ofCalls earlier).get?_afterAll rest hw
      rw [← ofCalls_append, hadds.free] at hlater
      cases hlater
  · rw [ofCalls_append]
    exact hr.get?_afterAll later h
  · rw [ofCalls_append]
    change ((ofCalls calls).call? c).getD (ofCalls calls) = ofCalls calls
    rw [(call?_eq_none_iff hr).2 h, Option.getD_none]

/-- Along the calls `v` is given a number although it has one. -/
def Rebound (v : Value) : Registry → List Call → Prop
  | _, [] => False
  | r, c :: later => r.Rebinds v c ∨ Rebound v (r.after c) later

/-- The value has two numbers. -/
def Twice (r : Registry) (v : Value) : Prop :=
  ∃ i j, i ≠ j ∧ r.get? i = some v ∧ r.get? j = some v

theorem Sound.idOf?_after_iff (hr : r.Sound) (c : Call) (h : r.idOf? v = some i) :
    (r.after c).idOf? v = some i ↔ ¬ r.Rebinds v c := by
  obtain ⟨hsame, hnot⟩ | ⟨j, w, hadds, hrebinds⟩ := after_cases hr c
  · rw [hsame]
    exact ⟨fun _ => hnot v, fun _ => h⟩
  · rw [hrebinds]
    by_cases hvw : v = w
    · subst hvw
      have hv : v.isPrimitive = false := by
        refine Bool.eq_false_iff.2 fun hv => ?_
        rw [idOf?_of_isPrimitive hv] at h
        cases h
      have hne : i ≠ j := hadds.ne (hr.found v i h)
      simp [hadds.idSelf hv, h, hne.symm]
    · rw [hadds.idOthers v hvw]
      simp [h, hvw]

theorem Sound.idOf?_afterAll_iff (hr : r.Sound) (later : List Call) (h : r.idOf? v = some i) :
    (∀ n, (r.afterAll (later.take n)).idOf? v = some i) ↔ ¬ Rebound v r later := by
  induction later generalizing r with
  | nil => simp [Rebound, afterAll, h]
  | cons c later ih =>
    rw [Rebound, not_or, ← hr.idOf?_after_iff c h]
    constructor
    · intro hall
      have hfirst : (r.after c).idOf? v = some i := hall 1
      exact ⟨hfirst, (ih (sound_after hr c) hfirst).1 fun n => hall (n + 1)⟩
    · rintro ⟨hfirst, hrest⟩ n
      cases n with
      | zero => exact h
      | succ n => exact (ih (sound_after hr c) hfirst).2 hrest n

theorem Sound.twice_after_iff (hr : r.Sound) (c : Call) (hv : v.isPrimitive = false) :
    (r.after c).Twice v ↔ r.Twice v ∨ r.Rebinds v c := by
  obtain ⟨hsame, hnot⟩ | ⟨k, w, hadds, hrebinds⟩ := after_cases hr c
  · rw [hsame]
    exact ⟨.inl, fun h => h.resolve_right (hnot v)⟩
  · rw [hrebinds]
    constructor
    · rintro ⟨i, j, hij, hi, hj⟩
      rcases hadds.get?_cases hi with ⟨rfl, rfl⟩ | hi'
      · -- then it had the other number before
        rcases hadds.get?_cases hj with ⟨rfl, -⟩ | hj'
        · exact absurd rfl hij
        · exact .inr ⟨rfl, hr.known j v hj' hv⟩
      · rcases hadds.get?_cases hj with ⟨rfl, rfl⟩ | hj'
        · exact .inr ⟨rfl, hr.known i v hi' hv⟩
        · exact .inl ⟨i, j, hij, hi', hj'⟩
    · rintro (⟨i, j, hij, hi, hj⟩ | ⟨rfl, i, hi⟩)
      · exact ⟨i, j, hij, hadds.get?_of_get? hi, hadds.get?_of_get? hj⟩
      · have hget := hr.found v i hi
        exact ⟨i, k, hadds.ne hget, hadds.get?_of_get? hget, hadds.self⟩

theorem Sound.twice_afterAll_iff (hr : r.Sound) (later : List Call) (hv : v.isPrimitive = false) :
    (r.afterAll later).Twice v ↔ r.Twice v ∨ Rebound v r later := by
  induction later generalizing r with
  | nil => exact (or_iff_left fun h => h).symm
  | cons c later ih =>
    have hstep := ih (sound_after hr c)
    rw [hr.twice_after_iff c hv, or_assoc] at hstep
    exact hstep

/-- A value keeps its number as long as `bind` does not give it another, and it has two numbers
exactly when `bind` gave it one although it had one. -/
theorem number_kept_iff (calls : List Call) (v : Value) (hv : v.isPrimitive = false) :
    (∀ i later, (ofCalls calls).idOf? v = some i →
      ((∀ n, (ofCalls (calls ++ later.take n)).idOf? v = some i) ↔
        ¬ Rebound v (ofCalls calls) later)) ∧
    ((ofCalls calls).Twice v ↔ Rebound v {} calls) := by
  constructor
  · intro i later h
    simp only [ofCalls_append]
    exact (sound_ofCalls calls).idOf?_afterAll_iff later h
  · have hnew : ¬ Twice {} v := by
      rintro ⟨i, j, -, hi, -⟩
      cases hi
    have hiff := sound_new.twice_afterAll_iff calls hv
    rw [or_iff_right hnew] at hiff
    exact hiff

end Calls

/-- Two lists, of which the second has number 7 and no other; what comes later leaves it that. -/
theorem number_kept_iff_second :
    (ofCalls [.register (.array ⟨0⟩), .bind 7 (.array ⟨1⟩)]).idOf? (.array ⟨1⟩) = some 7 ∧
      (∀ n, (ofCalls ([.register (.array ⟨0⟩), .bind 7 (.array ⟨1⟩)] ++
        [.register (.array ⟨1⟩), .bind 7 .void, .bind 3 (.map ⟨1⟩)].take n)).idOf?
          (.array ⟨1⟩) = some 7) ∧
      ¬ (ofCalls [.register (.array ⟨0⟩), .bind 7 (.array ⟨1⟩)]).Twice (.array ⟨1⟩) := by
  have hid : (ofCalls [.register (.array ⟨0⟩), .bind 7 (.array ⟨1⟩)]).idOf? (.array ⟨1⟩) = some 7 := rfl
  obtain ⟨hkept, htwice⟩ :=
    number_kept_iff [.register (.array ⟨0⟩), .bind 7 (.array ⟨1⟩)] (.array ⟨1⟩) rfl
  refine ⟨hid, (hkept 7 _ hid).2 ?_, fun h => ?_⟩
  · rintro (h | h | h | h)
    · exact h
    · cases h.1
    · cases h.1
    · exact h
  · rcases htwice.1 h with h | ⟨-, -, j, hj⟩ | h
    · exact h
    · cases hj
    · exact h

/-- Two numbers are bound to one list. The first is not its number any more, and both lead to it. -/
theorem number_replaced :
    ∃ r r', Registry.bind {} 5 (.array ⟨0⟩) = some r ∧ r.idOf? (.array ⟨0⟩) = some 5 ∧
      r.bind 6 (.array ⟨0⟩) = some r' ∧ r'.idOf? (.array ⟨0⟩) = some 6 ∧
      r'.get? 5 = some (.array ⟨0⟩) ∧ r'.get? 6 = some (.array ⟨0⟩) :=
  ⟨_, _, rfl, rfl, rfl, rfl, rfl, rfl⟩

end Registry

end ScriptMachine
