import Tename.Program.Running

/-!
# The values a program may return

A program read without an environment: a value may be returned if some answers to the
operations lead to it. What holds of every such value holds in every environment.
-/

namespace Program

variable {Op : Type} {Res : Op → Type} {ε σ α β : Type}

/-- Some answers lead the program to the value. -/
def MayReturn : Program Op Res ε α → α → Prop
  | pure a, b => b = a
  | throw _, _ => False
  | op _ k, b => ∃ r, (k r).MayReturn b

variable {p : Program Op Res ε α} {a : α}

@[simp] theorem mayReturn_pure {b : α} : (pure a : Program Op Res ε α).MayReturn b ↔ b = a :=
  Iff.rfl

@[simp] theorem mayReturn_throw {e : ε} : ¬ (throw e : Program Op Res ε α).MayReturn a := id

theorem mayReturn_bind {f : α → Program Op Res ε β} {b : β} :
    (p.bind f).MayReturn b ↔ ∃ a, p.MayReturn a ∧ (f a).MayReturn b := by
  induction p with
  | pure a =>
      constructor
      · intro returns
        exact ⟨a, rfl, returns⟩
      · rintro ⟨_, rfl, returns⟩
        exact returns
  | throw e =>
      constructor
      · intro impossible
        exact impossible.elim
      · rintro ⟨_, impossible, _⟩
        exact impossible.elim
  | op o k ih =>
      constructor
      · rintro ⟨r, returns⟩
        obtain ⟨a, first, second⟩ := (ih r).mp returns
        exact ⟨a, ⟨r, first⟩, second⟩
      · rintro ⟨a, ⟨r, first⟩, second⟩
        exact ⟨r, (ih r).mpr ⟨a, first, second⟩⟩

theorem mayReturn_settle {r : Except ε α} :
    (settle r : Program Op Res ε α).MayReturn a ↔ r = .ok a := by
  cases r with
  | ok b =>
      constructor
      · rintro rfl
        rfl
      · intro same
        exact (Except.ok.inj same).symm
  | error e =>
      constructor
      · intro impossible
        exact impossible.elim
      · intro impossible
        cases impossible

/-- An attempt that returns a value has it from the body. -/
theorem mayReturn_attempt_ok : p.attempt.MayReturn (.ok a) ↔ p.MayReturn a := by
  induction p with
  | pure b =>
      constructor
      · intro same
        exact Except.ok.inj same
      · rintro rfl
        rfl
  | throw e =>
      constructor
      · intro impossible
        cases impossible
      · intro impossible
        exact impossible.elim
  | op o k ih =>
      constructor
      · rintro ⟨r, returns⟩
        exact ⟨r, (ih r).mp returns⟩
      · rintro ⟨r, returns⟩
        exact ⟨r, (ih r).mpr returns⟩

/-- What follows a part has to keep within bounds for the values that the part may return. -/
theorem Within.bind_returning {A : Op → Prop} {f : α → Program Op Res ε β} (first : p.Within A)
    (second : ∀ a, p.MayReturn a → (f a).Within A) : (p.bind f).Within A := by
  induction p with
  | pure a => exact second a rfl
  | throw e => exact trivial
  | op o k ih =>
      exact ⟨first.1, fun r => ih r (first.2 r) fun a returns => second a ⟨r, returns⟩⟩

/-- What a run returns may be returned. -/
theorem mayReturn_of_run {handle : Handler Op Res ε σ} {s s' : σ}
    (ran : p.run handle s = (.ok a, s')) : p.MayReturn a := by
  induction p generalizing s with
  | pure b => exact (Except.ok.inj (congrArg Prod.fst ran)).symm
  | throw e => cases ran
  | op o k ih => exact ⟨_, ih _ ran⟩

end Program
