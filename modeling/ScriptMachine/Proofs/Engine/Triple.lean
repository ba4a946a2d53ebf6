import ScriptMachine.Engine.Host

namespace ScriptMachine

namespace Exec

variable {α β : Type}

theorem bind_of_ok {x : Exec α} {f : α → Exec β} {a : α} {m m' : Machine} (h : x m = .ok a m') :
    (x >>= f) m = f a m' := by
  change EStateM.bind x f m = _
  rw [EStateM.bind, h]

theorem bind_of_error {x : Exec α} {f : α → Exec β} {stop : Stop Signal} {m m' : Machine}
    (h : x m = .error stop m') : (x >>= f) m = .error stop m' := by
  change EStateM.bind x f m = _
  rw [EStateM.bind, h]

theorem bind_congr_apply {x y : Exec α} (k : α → Exec β) {m m' : Machine} (h : x m = y m') :
    (x >>= k) m = (y >>= k) m' := by
  change EStateM.bind x k m = EStateM.bind y k m'
  rw [EStateM.bind, EStateM.bind, h]

theorem bind_eq_failed {x : Exec α} {f : α → Exec β} {s : Signal} {m m' : Machine}
    (h : (x >>= f) m = .error (.failed s) m') :
    x m = .error (.failed s) m' ∨ ∃ a m₁, x m = .ok a m₁ ∧ f a m₁ = .error (.failed s) m' := by
  change EStateM.bind x f m = _ at h
  rw [EStateM.bind] at h
  cases hx : x m with
  | ok a m₁ =>
    rw [hx] at h
    exact .inr ⟨a, m₁, rfl, h⟩
  | error stop m₁ =>
    rw [hx] at h
    cases h
    exact .inl rfl

theorem attempt_eq_ok {x : Exec α} {r : Except Signal α} {m m' : Machine}
    (h : attempt x m = .ok r m') :
    (∃ a, r = .ok a ∧ x m = .ok a m') ∨ ∃ s, r = .error s ∧ x m = .error (.failed s) m' := by
  unfold attempt at h
  cases hx : x m with
  | ok a m₁ =>
    rw [hx] at h
    cases h
    exact .inl ⟨a, rfl, rfl⟩
  | error stop m₁ =>
    rw [hx] at h
    cases stop with
    | failed s =>
      cases h
      exact .inr ⟨s, rfl, rfl⟩
    | overflow => cases h
    | outOfFuel => cases h

theorem attempt_of_ok {x : Exec α} {a : α} {m m' : Machine} (h : x m = .ok a m') :
    attempt x m = .ok (.ok a) m' := by
  rw [attempt, h]

theorem attempt_of_overflow {x : Exec α} {m m' : Machine} (h : x m = .error .overflow m') :
    attempt x m = .error .overflow m' := by
  rw [attempt, h]

theorem attempt_of_failed {x : Exec α} {s : Signal} {m m' : Machine}
    (h : x m = .error (.failed s) m') : attempt x m = .ok (.error s) m' := by
  rw [attempt, h]

theorem attempt_ne_failed {x : Exec α} {s : Signal} {m m' : Machine} :
    attempt x m ≠ .error (.failed s) m' := by
  unfold attempt
  split <;> exact fun h => nomatch h

theorem get_bind_apply (f : Machine → Exec β) (m : Machine) : (get >>= f) m = f m m := rfl

theorem modify_bind_apply (g : Machine → Machine) (f : PUnit → Exec β) (m : Machine) :
    (modify g >>= f) m = f ⟨⟩ (g m) := rfl

/-- How a computation may end: returning with `J`, or by a signal with `E`. Where `F` is false it has
budget enough. -/
def Ends (J : α → Machine → Prop) (E : Signal → Machine → Prop) (F : Prop) :
    EStateM.Result (Stop Signal) Machine α → Prop
  | .ok a m => J a m
  | .error (.failed s) m => E s m
  | .error .overflow _ => True
  | .error .outOfFuel _ => F

def Triple (I : Machine → Prop) (x : Exec α) (J : α → Machine → Prop)
    (E : Signal → Machine → Prop) (F : Prop := True) : Prop :=
  ∀ m, I m → Ends J E F (x m)

/-- A computation that keeps `I` and ends with no signals but those that `B` admits. -/
abbrev Keeps (I : Machine → Prop) (B : Signal → Prop) (x : Exec α) (F : Prop := True) : Prop :=
  Triple I x (fun _ => I) (fun s m => I m ∧ B s) F

section Rules

variable {I I' : Machine → Prop} {x : Exec α} {f : α → Exec β} {J J' : α → Machine → Prop}
  {K : β → Machine → Prop} {E E' : Signal → Machine → Prop} {F : Prop}

theorem Ends.mono {r : EStateM.Result (Stop Signal) Machine α} (h : Ends J E F r)
    (hJ : ∀ a m, J a m → J' a m) (hE : ∀ s m, E s m → E' s m) : Ends J' E' F r := by
  match r, h with
  | .ok a m, h => exact hJ a m h
  | .error (.failed s) m, h => exact hE s m h
  | .error .overflow _, _ => trivial
  | .error .outOfFuel _, h => exact h

theorem Ends.and {r : EStateM.Result (Stop Signal) Machine α} {F' : Prop} (h : Ends J E F r)
    (h' : Ends J' E' F' r) : Ends (fun a m => J a m ∧ J' a m) (fun s m => E s m ∧ E' s m) F r := by
  match r, h, h' with
  | .ok _ _, h, h' => exact ⟨h, h'⟩
  | .error (.failed _) _, h, h' => exact ⟨h, h'⟩
  | .error .overflow _, _, _ => trivial
  | .error .outOfFuel _, h, _ => exact h

theorem Ends.weaken {r : EStateM.Result (Stop Signal) Machine α} (h : Ends J E F r) :
    Ends J E True r := by
  match r, h with
  | .ok _ _, h => exact h
  | .error (.failed _) _, h => exact h
  | .error .overflow _, _ => trivial
  | .error .outOfFuel _, _ => trivial

theorem Triple.weaken (h : Triple I x J E F) : Triple I x J E :=
  fun m hm => (h m hm).weaken

theorem Triple.conseq (h : Triple I x J E F) (hI : ∀ m, I' m → I m)
    (hJ : ∀ a m, J a m → J' a m) (hE : ∀ s m, E s m → E' s m) : Triple I' x J' E' F :=
  fun m hm => (h m (hI m hm)).mono hJ hE

theorem Triple.of_ok {m m' : Machine} {a : α} (h : Triple I x J E F) (hm : I m)
    (hx : x m = .ok a m') : J a m' := by
  have hend := h m hm
  rw [hx] at hend
  exact hend

theorem Triple.of_failed {m m' : Machine} {s : Signal} (h : Triple I x J E F) (hm : I m)
    (hx : x m = .error (.failed s) m') : E s m' := by
  have hend := h m hm
  rw [hx] at hend
  exact hend

theorem Triple.bind (hx : Triple I x J E F) (hf : ∀ a, Triple (J a) (f a) K E F) :
    Triple I (x >>= f) K E F := by
  intro m hm
  have h := hx m hm
  change Ends K E F (EStateM.bind x f m)
  unfold EStateM.bind
  generalize x m = r at h ⊢
  match r, h with
  | .ok a m', h => exact hf a m' h
  | .error (.failed _) _, h => exact h
  | .error .overflow _, _ => trivial
  | .error .outOfFuel _, h => exact h

theorem Triple.pure {a : α} (h : ∀ m, I m → J a m) : Triple I (pure a) J E F :=
  fun m hm => h m hm

theorem Triple.signal {s : Signal} (h : ∀ m, I m → E s m) : Triple I (signal s) J E F :=
  fun m hm => h m hm

theorem Triple.fail {c : Cause} (h : ∀ m, I m → E (.ofCause c) m) : Triple I (fail c) J E F :=
  fun m hm => h m hm

theorem Triple.overflow : Triple I overflow J E F :=
  fun _ _ => trivial

theorem Triple.modify {g : Machine → Machine} {J : Unit → Machine → Prop}
    (h : ∀ m, I m → J () (g m)) : Triple I (modify g) J E F :=
  fun m hm => h m hm

theorem Triple.set {m' : Machine} {J : PUnit → Machine → Prop} (h : ∀ m, I m → J ⟨⟩ m') :
    Triple I (set m') J E F :=
  fun m hm => h m hm

theorem Triple.alloc {g : Store → α × Store}
    (h : ∀ m, I m → J (g m.store).1 { m with store := (g m.store).2 }) :
    Triple I (alloc g) J E F :=
  fun m hm => h m hm

theorem Triple.get_bind {f : Machine → Exec β}
    (h : ∀ m, I m → Triple (fun m' => m' = m ∧ I m') (f m) K E F) : Triple I (get >>= f) K E F :=
  fun m hm => h m hm m ⟨rfl, hm⟩

theorem Triple.ofExcept {r : Except Cause α} (hok : ∀ a m, r = .ok a → I m → J a m)
    (herr : ∀ c m, r = .error c → I m → E (.ofCause c) m) : Triple I (ofExcept r) J E F := by
  intro m hm
  cases r with
  | ok a => exact hok a m rfl hm
  | error c => exact herr c m rfl hm

theorem Triple.attempt (h : Triple I x J E F) :
    Triple I (attempt x)
      (fun r m => match r with | .ok a => J a m | .error s => E s m) E' F := by
  intro m hm
  have hx := h m hm
  unfold Exec.attempt
  generalize x m = r at hx ⊢
  match r, hx with
  | .ok _ _, hx => exact hx
  | .error (.failed _) _, hx => exact hx
  | .error .overflow _, _ => trivial
  | .error .outOfFuel _, hx => exact hx

theorem Keeps.attempt {B : Signal → Prop} (h : Keeps I B x F) :
    Triple I (attempt x) (fun _ => I) E F := by
  refine (Triple.attempt h).conseq (fun _ hm => hm) (fun r m hm => ?_) fun _ _ hm => hm
  cases r with
  | ok a => exact hm
  | error s => exact hm.1

end Rules

end Exec

end ScriptMachine
