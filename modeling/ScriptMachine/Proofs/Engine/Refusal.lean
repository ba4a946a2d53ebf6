import ScriptMachine.Host.Holders
import ScriptMachine.Proofs.Engine.Atomic
import ScriptMachine.Proofs.Engine.Rounds

namespace ScriptMachine

/-- A cell that the machine holds, directly or through other cells. -/
inductive Machine.Holds (m : Machine) : Cell → Prop
  | root {c : Cell} (h : c ∈ m.roots) : m.Holds c
  | through {c d : Cell} (h : m.Holds c) (hd : d ∈ m.store.holds c) : m.Holds d

/-- The machine holds no cells but those of its store. -/
def Machine.Intact (m : Machine) : Prop :=
  ∀ c, m.Holds c → c ∈ m.store.cells

/-- What holds in a store with all its cells closed under holding. -/
theorem Machine.intact_of_cells {m : Machine} (hroots : ∀ c ∈ m.roots, c ∈ m.store.cells)
    (hcells : ∀ c ∈ m.store.cells, ∀ d ∈ m.store.holds c, d ∈ m.store.cells) : m.Intact := by
  intro c hc
  induction hc with
  | root h => exact hroots _ h
  | through _ hd ih => exact hcells _ ih _ hd

namespace Store

variable {s s' : Store}

theorem lt_of_mem_cells {k : CellKind} {i : Nat} (h : (k, i) ∈ s.cells) :
    (k = .array → i < s.arrays.size) ∧ (k = .map → i < s.maps.size) ∧
      (k = .object → i < s.objects.size) := by
  simp only [cells, List.mem_append, List.mem_map, List.mem_range, Prod.mk.injEq] at h
  refine ⟨?_, ?_, ?_⟩
  all_goals
    intro hk
    subst hk
    simpa using h

theorem getD_eq_of_prefix {α : Type} [Inhabited α] {xs ys : Array α} (h : xs.toList <+: ys.toList)
    {i : Nat} (hi : i < xs.size) : ys.getD i default = xs.getD i default := by
  obtain ⟨new, hnew⟩ := h
  have hget : ys[i]? = xs[i]? := by
    rw [← Array.getElem?_toList, ← Array.getElem?_toList, ← hnew]
    exact List.getElem?_append_left hi
  rw [Array.getD_eq_getD_getElem?, Array.getD_eq_getD_getElem?, hget]

theorem Grown.holds_eq (h : s.Grown s') {c : ScriptMachine.Cell} (hc : c ∈ s.cells) :
    s'.holds c = s.holds c := by
  obtain ⟨k, i⟩ := c
  obtain ⟨harray, hmap, hobject⟩ := lt_of_mem_cells hc
  cases k with
  | array =>
    have hcell : s'.array ⟨i⟩ = s.array ⟨i⟩ := getD_eq_of_prefix h.arrays (harray rfl)
    rw [holds, holds, hcell]
  | map =>
    have hcell : s'.map ⟨i⟩ = s.map ⟨i⟩ := getD_eq_of_prefix h.maps (hmap rfl)
    rw [holds, holds, hcell]
  | object =>
    have hcell : s'.object ⟨i⟩ = s.object ⟨i⟩ := getD_eq_of_prefix h.objects (hobject rfl)
    rw [holds, holds, hcell]
  | _ =>
    rw [h.same]
    rfl

end Store

namespace Machine.Spared

variable {m₀ m : Machine}

theorem roots_subset (h : m₀.Spared m) : m.roots ⊆ m₀.roots := by
  have hroots : m.roots = Builtin.all.map (Store.typeCell ·.id) ++
      Store.cellsOf m₀.globals.values ++ m₀.frames.flatMap Frame.holds ++
      Store.cellsOf m.stack := by
    rw [h.same]
    rfl
  rw [hroots]
  exact List.append_subset.2 ⟨List.subset_append_left .., fun c hc =>
    List.mem_append_right _ ((h.stack.sublist.filterMap _).subset hc)⟩

theorem holds_of_holds (h : m₀.Spared m) (hm₀ : m₀.Intact) {c : Cell} (hc : m.Holds c) :
    m₀.Holds c := by
  induction hc with
  | root hc => exact .root (h.roots_subset hc)
  | through _ hd ih =>
    rw [h.store.holds_eq (hm₀ _ ih)] at hd
    exact .through ih hd

end Machine.Spared

namespace Exec

/-- The instruction comes to enter a native body or the method of a comparison. One that enters a
script function in any other way has not failed. -/
def EntersCode (o : Opcode) (m : Machine) : Prop :=
  match execute o m with
  | .ok (.native ..) _ => True
  | .ok (.compare method a b) m₁ => ∃ start m₂, beginCall method (some a) [b] none m₁ = .ok start m₂
  | _ => False

variable {o : Opcode} {n : Nat} {m m' : Machine} {s : Signal}

theorem spared_of_compare {m₁ : Machine} {method a b : Value} (hm₁ : m.Spared m₁)
    (hentered : ¬ ∃ start m₂, beginCall method (some a) [b] none m₁ = .ok start m₂)
    (h : complete (invoke n) (.compare method a b) m₁ = .error (.failed s) m') :
    m.Spared m' ∧ s.Taken m := by
  rcases bind_eq_failed h with hcall | ⟨v, m₂, -, hpush⟩
  · cases n with
    | zero => cases hcall
    | succ n =>
      rw [invoke, get_bind_apply] at hcall
      rcases bind_eq_failed hcall with hbegin | ⟨start, m₂, hbegin, -⟩
      · exact (atomic_beginCall method (some a) [b] none).of_failed hm₁ hbegin
      · exact absurd ⟨start, m₂, hbegin⟩ hentered
  · cases hpush

theorem spared_of_failed (h : (execute o >>= complete (invoke n)) m = .error (.failed s) m')
    (hentered : ¬ EntersCode o m) : m.Spared m' ∧ s.Taken m := by
  rcases bind_eq_failed h with hexecute | ⟨step, m₁, hexecute, hcomplete⟩
  · exact (acts_execute o).of_failed (.refl m) hexecute
  · have hleaves := (acts_execute o).of_ok (.refl m) hexecute
    rw [EntersCode, hexecute] at hentered
    cases step with
    | next => cases hcomplete
    | returned v => cases hcomplete
    | native body this args constructing => exact absurd trivial hentered
    | compare method a b => exact spared_of_compare hleaves hentered hcomplete

theorem not_entersCode_of_failed (h : execute o m = .error (.failed s) m') : ¬ EntersCode o m := by
  rw [EntersCode, h]
  exact id

theorem spared_located (h : m.Spared m') (position : Option Position) :
    m.Spared (located s position m').2 := by
  cases s with
  | error fault => exact h
  | raise v => exact ⟨by rw [located, h.same], h.store, h.stack, h.floor⟩

/-- An instruction that ends with a signal and has entered no code leaves the machine as it was, but
for the operands that it has taken, the guard, the record of a raise, and new cells that nothing
holds. So does the whole round of the loop, but for the counters. -/
theorem failed_instruction_atomic
    (h : (execute o >>= complete (invoke n)) m = .error (.failed s) m')
    (hentered : ¬ EntersCode o m) :
    m.Spared m' ∧ s.Taken m ∧ (m.Intact → ∀ c, m'.Holds c → m.Holds c) ∧
    ∀ m₀ position, fetch m₀ = .ok (some ⟨o, position⟩) m →
      ∃ f rest s' m'', m₀.frames = f :: rest ∧
        dispatch (invoke n) m₀ = .error (.failed s') m'' ∧ (fetched m₀ f rest).Spared m'' := by
  obtain ⟨hspared, htaken⟩ := spared_of_failed h hentered
  refine ⟨hspared, htaken, fun hm c hc => hspared.holds_of_holds hm hc, ?_⟩
  intro m₀ position hfetch
  obtain ⟨f, rest, hframes, -, rfl⟩ := frames_of_fetch hfetch
  have hdispatch : dispatch (invoke n) m₀ =
      .error (.failed (located s position m').1) (located s position m').2 :=
    (bind_of_ok hfetch).trans (executeAt_of_failed h)
  exact ⟨f, rest, _, _, hframes, hdispatch, spared_located hspared position⟩

/-- A script that makes an `Account` without the argument that its constructor needs. -/
def careless : Template where
  body := { code := #[⟨.instantiate 0, none⟩] }

/-- The script is in a catch region and has `Account` on its stack. -/
def opening : Machine :=
  { Machine.start {} with
    store :=
      { Store.initial with
        types := Store.initial.types.push
          { name := "Account", base := some Builtin.object.id
            attributes := .ofList [("_constructor", ⟨.function ⟨0⟩, {}⟩)] }
        functions := #[⟨⟨{ arity := .fixed 1, body := {} }, ⟨0, [0]⟩, ⟨0⟩⟩, .empty⟩,
          ⟨⟨careless, ⟨0, []⟩, ⟨0⟩⟩, .empty⟩]
        statics := #[{}] }
    frames :=
      [{ function := ⟨1⟩, closure := ⟨careless, ⟨0, []⟩, ⟨0⟩⟩, locals := #[], supplied := 0,
         this := .void, pc := 1, stackBase := 0, handlers := [⟨1, 0⟩] }]
    stack := [.type ⟨Builtin.all.length⟩] }

/-- The instance is made, the constructor refuses to start, and nothing holds the instance. -/
theorem failed_instruction_atomic_account :
    ∃ s m', (execute (.instantiate 0) >>= complete (invoke 1)) opening = .error (.failed s) m' ∧
      opening.Spared m' ∧ m'.store.objects.size = 1 ∧ ¬ m'.Holds (.object, 0) := by
  have hfailure : (failure? (execute (.instantiate 0) opening)).isSome = true := by decide +kernel
  have hobjects : (stoppedAt (execute (.instantiate 0) opening)).store.objects.size = 1 := by
    decide +kernel
  have hroots : ∀ c ∈ opening.roots, c ∈ opening.store.cells := by decide +kernel
  have hcells : ∀ c ∈ opening.store.cells, ∀ d ∈ opening.store.holds c, d ∈ opening.store.cells := by
    decide +kernel
  have hnone : ((.object, 0) : Cell) ∉ opening.store.cells := by decide +kernel
  have hintact : opening.Intact := Machine.intact_of_cells hroots hcells
  obtain ⟨s, hexecute⟩ := exists_of_failure hfailure
  have hfailed : (execute (.instantiate 0) >>= complete (invoke 1)) opening =
      .error (.failed s) (stoppedAt (execute (.instantiate 0) opening)) := bind_of_error hexecute
  obtain ⟨hspared, -, hholds, -⟩ :=
    failed_instruction_atomic hfailed (not_entersCode_of_failed hexecute)
  exact ⟨s, _, hfailed, hspared, hobjects, fun h => hnone (hintact _ (hholds hintact _ h))⟩

end Exec

end ScriptMachine
