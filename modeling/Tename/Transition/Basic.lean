import Mathlib.Logic.Relation

/-!
# Labelled transition systems

A system has a set of initial states and a step that is a partial function of
a state and a label. Every choice of the environment (which party moves, what
a device answers, whether a process dies) is part of the label, so a run is a
list of labels and can be evaluated.

Reachability is indexed by a condition on the steps taken. `Reachable` is the
instance with no condition; a result about runs that keep to a discipline is a
result about `ReachableIf`. The invariant rule is proved once for the indexed
form.
-/

namespace Transition

universe u v

/-- A labelled system whose step is a partial function of state and label. -/
structure System (σ : Type u) (α : Type v) where
  initial : σ → Prop
  step : σ → α → Option σ

namespace System

variable {σ : Type u} {α : Type v} (S : System σ α)

/-- Perform labels from left to right; undefined once one is not enabled. -/
def run : σ → List α → Option σ
  | s, [] => some s
  | s, a :: as => (S.step s a).bind fun t => run t as

/-- `t` is reached from `s` through steps that all meet `C`. -/
inductive Reaches (C : σ → α → Prop) (s : σ) : σ → Prop
  | refl : Reaches C s s
  | tail {t t' : σ} {a : α} :
      Reaches C s t → C t a → S.step t a = some t' → Reaches C s t'

/-- `t` is reached from `s` through steps that all meet `C`, `n` of them marked by `p`. -/
inductive Counts (C : σ → α → Prop) (p : σ → α → Bool) (s : σ) : Nat → σ → Prop
  | refl : Counts C p s 0 s
  | tail {n : Nat} {t t' : σ} {a : α} :
      Counts C p s n t → C t a → S.step t a = some t' → Counts C p s (n + (p t a).toNat) t'

/-- `t` is reached from an initial state through steps that all meet `C`. -/
def ReachableIf (C : σ → α → Prop) (t : σ) : Prop :=
  ∃ s, S.initial s ∧ S.Reaches C s t

/-- `t` comes after `s` in some run. -/
abbrev Later (s t : σ) : Prop :=
  S.Reaches (fun _ _ => True) s t

abbrev Reachable (t : σ) : Prop :=
  S.ReachableIf (fun _ _ => True) t

variable {S} {C C' : σ → α → Prop} {s t t' : σ}

theorem Reaches.trans (first : S.Reaches C s t) (second : S.Reaches C t t') :
    S.Reaches C s t' := by
  induction second with
  | refl => exact first
  | tail _ holds stepped ih => exact .tail ih holds stepped

theorem Reaches.mono (h : S.Reaches C s t) (weaken : ∀ u a, C u a → C' u a) :
    S.Reaches C' s t := by
  induction h with
  | refl => exact .refl
  | tail _ holds stepped ih => exact .tail ih (weaken _ _ holds) stepped

theorem Reaches.later (h : S.Reaches C s t) : S.Later s t :=
  h.mono fun _ _ _ => trivial

/-- What every permitted step preserves, every run of permitted steps preserves. -/
theorem Reaches.preserves {P : σ → Prop} (h : S.Reaches C s t) (start : P s)
    (step : ∀ u a u', P u → C u a → S.step u a = some u' → P u') : P t := by
  induction h with
  | refl => exact start
  | tail _ holds stepped ih => exact step _ _ _ ih holds stepped

/-- A reflexive and transitive relation that contains every permitted step
contains every run of permitted steps. -/
theorem Reaches.relates {R : σ → σ → Prop} (h : S.Reaches C s t) (refl : ∀ u, R u u)
    (trans : ∀ u v w, R u v → R v w → R u w)
    (step : ∀ u a u', C u a → S.step u a = some u' → R u u') : R s t :=
  h.preserves (P := R s) (refl s)
    fun u a u' related holds stepped => trans _ _ _ related (step u a u' holds stepped)

/-- What every permitted step preserves of the count and the state, every run does. -/
theorem Counts.preserves {p : σ → α → Bool} {P : Nat → σ → Prop} {n : Nat}
    (h : S.Counts C p s n t) (start : P 0 s)
    (step : ∀ n u a u', P n u → C u a → S.step u a = some u' → P (n + (p u a).toNat) u') :
    P n t := by
  induction h with
  | refl => exact start
  | tail _ holds stepped ih => exact step _ _ _ _ ih holds stepped

/-- Every run can be counted. -/
theorem Reaches.counts (p : σ → α → Bool) (h : S.Reaches C s t) : ∃ n, S.Counts C p s n t := by
  induction h with
  | refl => exact ⟨0, .refl⟩
  | tail _ holds stepped ih =>
      obtain ⟨n, counts⟩ := ih
      exact ⟨_, .tail counts holds stepped⟩

theorem ReachableIf.of_initial (h : S.initial s) : S.ReachableIf C s :=
  ⟨s, h, .refl⟩

theorem ReachableIf.extend (h : S.ReachableIf C s) (more : S.Reaches C s t) :
    S.ReachableIf C t := by
  obtain ⟨s₀, initial, reaches⟩ := h
  exact ⟨s₀, initial, reaches.trans more⟩

theorem ReachableIf.step {a : α} (h : S.ReachableIf C s) (holds : C s a)
    (stepped : S.step s a = some t) : S.ReachableIf C t :=
  h.extend (.tail .refl holds stepped)

theorem ReachableIf.mono (h : S.ReachableIf C t) (weaken : ∀ u a, C u a → C' u a) :
    S.ReachableIf C' t := by
  obtain ⟨s, initial, reaches⟩ := h
  exact ⟨s, initial, reaches.mono weaken⟩

/-- What every reachable state allows, no run needs to be restricted to. -/
theorem ReachableIf.strengthen (h : S.ReachableIf C t)
    (allowed : ∀ u, S.ReachableIf C u → ∀ a, C' u a) : S.ReachableIf C' t := by
  obtain ⟨s, initial, reaches⟩ := h
  refine ⟨s, initial, ?_⟩
  induction reaches with
  | refl => exact .refl
  | tail before holds stepped ih => exact .tail ih (allowed _ ⟨s, initial, before⟩ _) stepped

/-- The invariant rule: true initially and kept by every permitted step. -/
theorem ReachableIf.invariant {P : σ → Prop} (h : S.ReachableIf C t)
    (start : ∀ s, S.initial s → P s)
    (step : ∀ u a u', P u → C u a → S.step u a = some u' → P u') : P t := by
  obtain ⟨s, initial, reaches⟩ := h
  exact reaches.preserves (start s initial) step

theorem Later.step {a : α} (stepped : S.step s a = some t) : S.Later s t :=
  .tail .refl trivial stepped

theorem Later.head {a : α} (stepped : S.step s a = some t) (rest : S.Later t t') : S.Later s t' :=
  (Later.step stepped).trans rest

/-- Some run from `s` ends in a state that meets `Q`. -/
def Leads (S : System σ α) (Q : σ → Prop) (s : σ) : Prop :=
  ∃ t, S.Later s t ∧ Q t

theorem Leads.here {Q : σ → Prop} (holds : Q s) : S.Leads Q s :=
  ⟨s, .refl, holds⟩

theorem Leads.after {Q : σ → Prop} (first : S.Later s t) (rest : S.Leads Q t) : S.Leads Q s := by
  obtain ⟨u, later, holds⟩ := rest
  exact ⟨u, first.trans later, holds⟩

theorem Leads.step {Q : σ → Prop} {a : α} (stepped : S.step s a = some t) (rest : S.Leads Q t) :
    S.Leads Q s :=
  .after (.step stepped) rest

/-- The states a list of labels passes through all meet `C` with the label taken. -/
def RunMeets (S : System σ α) (C : σ → α → Prop) : σ → List α → Prop
  | _, [] => True
  | s, a :: as => C s a ∧ ∀ t, S.step s a = some t → S.RunMeets C t as

theorem run_cons {a : α} {as : List α} (stepped : S.step s a = some t) :
    S.run s (a :: as) = S.run t as := by
  simp [run, stepped]

/-- An evaluated run whose steps meet `C` is a reachability proof. -/
theorem reaches_of_run {as : List α} (meets : S.RunMeets C s as) (ran : S.run s as = some t) :
    S.Reaches C s t := by
  induction as generalizing s with
  | nil =>
      obtain rfl : s = t := by simpa [run] using ran
      exact .refl
  | cons a as ih =>
      obtain ⟨u, stepped, rest⟩ := Option.bind_eq_some_iff.mp ran
      exact (Reaches.tail .refl meets.1 stepped).trans (ih (meets.2 u stepped) rest)

/-- `run` through steps that all meet the check `C`. -/
def runIf (S : System σ α) (C : σ → α → Bool) : σ → List α → Option σ
  | s, [] => some s
  | s, a :: as => if C s a then (S.step s a).bind fun t => runIf S C t as else none

theorem reaches_of_runIf {C : σ → α → Bool} {as : List α} (ran : S.runIf C s as = some t) :
    S.Reaches (fun u a => C u a = true) s t := by
  induction as generalizing s with
  | nil =>
      obtain rfl : s = t := by simpa [runIf] using ran
      exact .refl
  | cons a as ih =>
      rw [runIf] at ran
      split at ran
      · rename_i holds
        obtain ⟨u, stepped, rest⟩ := Option.bind_eq_some_iff.mp ran
        have first : S.Reaches (fun u a => C u a = true) s u := .tail .refl holds stepped
        exact first.trans (ih rest)
      · cases ran

/-- `runIf`, and how many of the steps are marked by `p`. -/
def countIf (S : System σ α) (C p : σ → α → Bool) : Nat → σ → List α → Option (Nat × σ)
  | n, s, [] => some (n, s)
  | n, s, a :: as =>
      if C s a then (S.step s a).bind fun t => countIf S C p (n + (p s a).toNat) t as else none

theorem counts_of_countIf {C p : σ → α → Bool} {n m : Nat} {as : List α} (h : S.Counts C' p s n t)
    (meets : ∀ u a, C u a = true → C' u a) (ran : S.countIf C p n t as = some (m, t')) :
    S.Counts C' p s m t' := by
  induction as generalizing n t with
  | nil =>
      obtain ⟨rfl, rfl⟩ : n = m ∧ t = t' := by simpa [countIf] using ran
      exact h
  | cons a as ih =>
      rw [countIf] at ran
      split at ran
      case isTrue holds =>
        obtain ⟨u, stepped, rest⟩ := Option.bind_eq_some_iff.mp ran
        exact ih (h.tail (meets t a holds) stepped) rest
      case isFalse => cases ran

theorem later_of_run {as : List α} (ran : S.run s as = some t) : S.Later s t := by
  refine reaches_of_run ?_ ran
  clear ran
  induction as generalizing s with
  | nil => exact trivial
  | cons a as ih => exact ⟨trivial, fun _ _ => ih⟩

end System

end Transition
