import Mathlib.Logic.Relation
import Tename.Program.Process

/-!
# Monitors: verifying a process against a protocol

A monitor watches the operations of a process and keeps a ghost state. It says
which operations are permitted where, and how the ghost state may move when an
operation has been performed. Starting and stopping the process set the ghost
state; the acts of others leave it alone.

`Safe` is the weakest precondition of a program for its monitor: every
operation it requests is permitted, whatever the environment answers and
however others act in between. Once the main program is `Safe`, a property of
every run of the process is proved on the monitor alone, by `Invariant`: one
case for each kind of permitted operation, none for a point of the program.
-/

variable {Op : Type} {Res : Op → Type} {ε σ Ans Ext γ : Type}

/-- A protocol automaton that watches the operations of a process. -/
structure Monitor (P : Process Op Res ε σ Ans Ext) (γ : Type) where
  permits : σ → γ → Op → Prop
  /-- The ghost state after an operation, from the states around it and its outcome. -/
  moves : σ → γ → (o : Op) → Except ε (Res o) → σ → γ → Prop
  begun : γ
  stopped : γ

namespace Monitor

variable {P : Process Op Res ε σ Ans Ext} (M : Monitor P γ)

/-- Any number of acts of others. -/
def Interferes (P : Process Op Res ε σ Ans Ext) : σ → σ → Prop :=
  Relation.ReflTransGen fun s s' => ∃ e, P.disturb s e = some s'

/-- The program requests only permitted operations and ends in `Q`. -/
def Safe {α : Type} (Q : Except ε α → σ → γ → Prop) : Program Op Res ε α → σ → γ → Prop
  | .pure a, s, g => Q (.ok a) s g
  | .throw e, s, g => Q (.error e) s g
  | .op o k, s, g => ∀ s', Interferes P s s' → M.permits s' g o ∧
      ∀ answer s'' r, P.perform s' o answer = some (s'', r) →
        ∃ g', M.moves s' g o r s'' g' ∧ Safe Q (k r) s'' g'

variable {M} {α β : Type} {Q : Except ε α → σ → γ → Prop} {R : Except ε β → σ → γ → Prop}
variable {s s' : σ} {g g' : γ}

/-- A reflexive and transitive relation that contains every single act of others
contains any number of them. -/
theorem Interferes.relates {R : σ → σ → Prop} (h : Interferes P s s') (refl : ∀ s, R s s)
    (trans : ∀ a b c, R a b → R b c → R a c)
    (step : ∀ s e s', P.disturb s e = some s' → R s s') : R s s' := by
  induction h with
  | refl => exact refl s
  | tail _ disturbs ih =>
      obtain ⟨e, stepped⟩ := disturbs
      exact trans _ _ _ ih (step _ e _ stepped)

@[simp] theorem safe_pure {a : α} : M.Safe Q (.pure a) s g ↔ Q (.ok a) s g := Iff.rfl

@[simp] theorem safe_throw {e : ε} : M.Safe Q (.throw e) s g ↔ Q (.error e) s g := Iff.rfl

theorem Safe.mono {Q' : Except ε α → σ → γ → Prop} {p : Program Op Res ε α}
    (h : M.Safe Q p s g) (weaken : ∀ r s g, Q r s g → Q' r s g) : M.Safe Q' p s g := by
  induction p generalizing s g with
  | pure a => exact weaken _ _ _ h
  | throw e => exact weaken _ _ _ h
  | op o k ih =>
      intro s' related
      obtain ⟨permitted, next⟩ := h s' related
      refine ⟨permitted, fun answer s'' r performed => ?_⟩
      obtain ⟨g', moved, rest⟩ := next answer s'' r performed
      exact ⟨g', moved, ih r rest⟩

/-- The rule of sequencing. -/
theorem Safe.bind {p : Program Op Res ε α} {f : α → Program Op Res ε β}
    (first : M.Safe Q p s g) (second : ∀ a s g, Q (.ok a) s g → M.Safe R (f a) s g)
    (raised : ∀ e s g, Q (.error e) s g → R (.error e) s g) : M.Safe R (p.bind f) s g := by
  induction p generalizing s g with
  | pure a => exact second a s g first
  | throw e => exact raised e s g first
  | op o k ih =>
      intro s' related
      obtain ⟨permitted, next⟩ := first s' related
      refine ⟨permitted, fun answer s'' r performed => ?_⟩
      obtain ⟨g', moved, rest⟩ := next answer s'' r performed
      exact ⟨g', moved, ih r rest⟩

theorem Safe.attempt {p : Program Op Res ε α} {Q : Except ε (Except ε α) → σ → γ → Prop}
    (h : M.Safe (fun r => Q (.ok r)) p s g) : M.Safe Q p.attempt s g := by
  induction p generalizing s g with
  | pure a => exact h
  | throw e => exact h
  | op o k ih =>
      intro s' related
      obtain ⟨permitted, next⟩ := h s' related
      refine ⟨permitted, fun answer s'' r performed => ?_⟩
      obtain ⟨g', moved, rest⟩ := next answer s'' r performed
      exact ⟨g', moved, ih r rest⟩

theorem Safe.settle {r : Except ε α} (ok : ∀ a, r = .ok a → Q (.ok a) s g)
    (error : ∀ e, r = .error e → Q (.error e) s g) : M.Safe Q (Program.settle r) s g := by
  cases r with
  | ok a => exact ok a rfl
  | error e => exact error e rfl

/-- The rule of `try … finally …`: the cleanup is safe on every way out of the body. -/
theorem Safe.tryFinally {body : Program Op Res ε α} {cleanup : Program Op Res ε Unit}
    {B : Except ε α → σ → γ → Prop} (first : M.Safe B body s g)
    (cleaned : ∀ r s g, B r s g →
      M.Safe (fun outcome s g => match outcome with
        | .ok _ => Q r s g
        | .error e => Q (.error e) s g) cleanup s g) :
    M.Safe Q (body.tryFinally cleanup) s g := by
  refine Safe.bind (Q := fun r s g => ∃ outcome, r = .ok outcome ∧ B outcome s g)
    (Safe.attempt (first.mono fun r s g holds => ⟨r, rfl, holds⟩)) ?_ ?_
  · rintro outcome s g ⟨_, ⟨⟩, holds⟩
    refine Safe.bind (cleaned _ s g holds) ?_ ?_
    · intro _ s g done
      cases outcome with
      | ok a => exact done
      | error e => exact done
    · intro e s g raised
      exact raised
  · rintro e s g ⟨outcome, impossible, _⟩
    cases impossible

/-- The rule of single operations. -/
theorem Safe.perform {o : Op} {Q : Except ε (Res o) → σ → γ → Prop}
    (permitted : ∀ s', Interferes P s s' → M.permits s' g o)
    (next : ∀ s' answer s'' r, Interferes P s s' → P.perform s' o answer = some (s'', r) →
      ∃ g', M.moves s' g o r s'' g' ∧ Q r s'' g') :
    M.Safe Q (Program.perform o) s g := by
  intro s' related
  refine ⟨permitted s' related, fun answer s'' r performed => ?_⟩
  obtain ⟨g', moved, holds⟩ := next s' answer s'' r related performed
  refine ⟨g', moved, ?_⟩
  cases r with
  | ok a => exact holds
  | error e => exact holds

/-- A postcondition on normal return and one on exceptions. -/
def Ends (A : α → σ → γ → Prop) (E : σ → γ → Prop) : Except ε α → σ → γ → Prop
  | .ok a, s, g => A a s g
  | .error _, s, g => E s g

/-- A postcondition on normal return; an exception may leave anything behind. -/
abbrev OnReturn (A : α → σ → γ → Prop) : Except ε α → σ → γ → Prop :=
  Ends A fun _ _ => True

/-- The rule of sequencing, with one postcondition for the exceptions of both parts. -/
theorem Safe.seq {A : α → σ → γ → Prop} {B : β → σ → γ → Prop} {E : σ → γ → Prop}
    {p : Program Op Res ε α} {f : α → Program Op Res ε β} (first : M.Safe (Ends A E) p s g)
    (second : ∀ a s g, A a s g → M.Safe (Ends B E) (f a) s g) :
    M.Safe (Ends B E) (p.bind f) s g :=
  first.bind second fun _ _ _ raised => raised

/-- The rule of `except`: what holds on an exception of the body holds where it is caught. -/
theorem Safe.catch {A : α → σ → γ → Prop} {E F : σ → γ → Prop} {p : Program Op Res ε α}
    (h : M.Safe (Ends A E) p s g) : M.Safe (Ends (Ends A E) F) p.attempt s g :=
  Safe.attempt h

/-- The rule of loops: an invariant indexed by what is left to visit. -/
theorem Safe.forEach {I : List β → σ → γ → Prop} {body : β → Program Op Res ε Unit}
    (step : ∀ x xs s g, I (x :: xs) s g → M.Safe (OnReturn fun _ => I xs) (body x) s g)
    (xs : List β) (start : I xs s g) :
    M.Safe (OnReturn fun _ => I []) (Program.forEach xs body) s g := by
  induction xs generalizing s g with
  | nil => exact start
  | cons x xs ih => exact (step x xs s g start).seq fun _ _ _ holds => ih holds

variable (M)

/-- What is left of the program is safe where the ghost state stands; a dead
process has the ghost state of a stopped one. -/
structure Watches (c : Process.Config Op Res ε σ) (g : γ) : Prop where
  safe : ∀ p, c.program = some p → M.Safe (fun _ _ _ => True) p c.state g
  dead : c.program = none → g = M.stopped

variable {M}

theorem Watches.permits {c : Process.Config Op Res ε σ} {o : Op}
    {k : Except ε (Res o) → Program Op Res ε Unit} (h : M.Watches c g)
    (requested : c.program = some (.op o k)) : M.permits c.state g o :=
  (h.safe _ requested _ .refl).1

/-- One step of a watched process, with the move of the ghost state. -/
theorem Watches.step {a : Process.Action Ans Ext} {c c' : Process.Config Op Res ε σ}
    (safe : ∀ s, M.Safe (fun _ _ _ => True) P.main (P.boot s) M.begun) (watched : M.Watches c g)
    (stepped : P.step c a = some c') : ∃ g', M.Watches c' g' ∧
      ((a = .start ∧ c' = ⟨P.boot c.state, some P.main⟩ ∧ g' = M.begun) ∨
      (∃ answer o k s' r, a = .respond answer ∧ c.program = some (.op o k) ∧
        P.perform c.state o answer = some (s', r) ∧ c' = ⟨s', some (k r)⟩ ∧
        M.permits c.state g o ∧ M.moves c.state g o r s' g') ∨
      (a ≠ .start ∧ (∀ answer, a ≠ .respond answer) ∧ c' = ⟨c.state, none⟩ ∧ g' = M.stopped) ∨
      ∃ x s', a = .disturb x ∧ P.disturb c.state x = some s' ∧ c' = ⟨s', c.program⟩ ∧ g' = g) := by
  obtain ⟨s, program⟩ := c
  rcases Process.step_cases stepped with ⟨rfl, rfl, rfl⟩ |
    ⟨answer, o, k, s', r, rfl, rfl, performed, rfl⟩ | ⟨ends, _, rfl⟩ | ⟨x, s', rfl, disturbed, rfl⟩
  · refine ⟨M.begun, ⟨?_, by simp⟩, .inl ⟨rfl, rfl, rfl⟩⟩
    rintro _ ⟨⟩
    exact safe s
  · obtain ⟨g', moved, rest⟩ := (watched.safe _ rfl s .refl).2 answer s' r performed
    refine ⟨g', ⟨?_, by simp⟩, .inr (.inl ⟨answer, o, k, s', r, rfl, rfl, performed, rfl,
      watched.permits rfl, moved⟩)⟩
    rintro _ ⟨⟩
    exact rest
  · refine ⟨M.stopped, ⟨by rintro _ ⟨⟩, fun _ => rfl⟩, .inr (.inr (.inl ⟨?_, ?_, rfl, rfl⟩))⟩
    · rcases ends with rfl | rfl <;> rintro ⟨⟩
    · rcases ends with rfl | rfl <;> rintro answer ⟨⟩
  · refine ⟨g, ⟨?_, watched.dead⟩, .inr (.inr (.inr ⟨x, s', rfl, disturbed, rfl, rfl⟩))⟩
    intro p alive
    have rest := watched.safe p alive
    cases p with
    | pure a => trivial
    | throw e => trivial
    | op o k =>
        intro s'' related
        exact rest s'' (.head ⟨x, disturbed⟩ related)

variable (M)

/-- A property of durable and ghost state that every permitted step keeps. The
steps considered are those that meet `C`. -/
structure Invariant (C : Process.Config Op Res ε σ → Process.Action Ans Ext → Prop)
    (I : σ → γ → Prop) : Prop where
  begun : ∀ s, I s M.stopped → C ⟨s, none⟩ .start → I (P.boot s) M.begun
  performed : ∀ s g o (k : Except ε (Res o) → Program Op Res ε Unit) answer s' r g', I s g →
    M.permits s g o → C ⟨s, some (.op o k)⟩ (.respond answer) →
    P.perform s o answer = some (s', r) → M.moves s g o r s' g' → I s' g'
  disturbed : ∀ c g e s', I c.state g → (c.program = none → g = M.stopped) →
    C c (.disturb e) → P.disturb c.state e = some s' → I s' g
  stopped : ∀ s g, I s g → I s M.stopped

variable {M} {start : σ → Prop} {C : Process.Config Op Res ε σ → Process.Action Ans Ext → Prop}
variable {I : σ → γ → Prop} {c c' : Process.Config Op Res ε σ}

/-- One step of a watched process keeps the watch and every invariant. -/
theorem Invariant.step (h : M.Invariant C I)
    (safe : ∀ s, M.Safe (fun _ _ _ => True) P.main (P.boot s) M.begun)
    {a : Process.Action Ans Ext} (watched : M.Watches c g) (holds : I c.state g) (permitted : C c a)
    (stepped : P.step c a = some c') : ∃ g', M.Watches c' g' ∧ I c'.state g' := by
  obtain ⟨s, program⟩ := c
  rcases Process.step_cases stepped with ⟨rfl, rfl, rfl⟩ |
    ⟨answer, o, k, s', r, rfl, rfl, performed, rfl⟩ | ⟨_, _, rfl⟩ | ⟨x, s', rfl, disturbed, rfl⟩
  · obtain rfl := watched.dead rfl
    refine ⟨M.begun, ⟨?_, by simp⟩, h.begun s holds permitted⟩
    rintro _ ⟨⟩
    exact safe s
  · obtain ⟨g', moved, rest⟩ := (watched.safe _ rfl s .refl).2 answer s' r performed
    refine ⟨g', ⟨?_, by simp⟩, h.performed s g o k answer s' r g' holds
      (watched.permits rfl) permitted performed moved⟩
    rintro _ ⟨⟩
    exact rest
  · exact ⟨M.stopped, ⟨by rintro _ ⟨⟩, fun _ => rfl⟩, h.stopped s g holds⟩
  · refine ⟨g, ⟨?_, watched.dead⟩, h.disturbed _ g x s' holds watched.dead permitted disturbed⟩
    intro p alive
    have rest := watched.safe p alive
    cases p with
    | pure a => trivial
    | throw e => trivial
    | op o k =>
        intro s'' related
        exact rest s'' (.head ⟨x, disturbed⟩ related)

/-- Adequacy: in every reachable configuration what is left of the program is
safe, and the invariant holds. -/
theorem Invariant.reachable (h : M.Invariant C I)
    (safe : ∀ s, M.Safe (fun _ _ _ => True) P.main (P.boot s) M.begun)
    (initial : ∀ s, start s → I s M.stopped) (reachable : (P.system start).ReachableIf C c) :
    ∃ g, M.Watches c g ∧ I c.state g := by
  refine reachable.invariant (P := fun c => ∃ g, M.Watches c g ∧ I c.state g) ?_ ?_
  · rintro c ⟨idle, started⟩
    exact ⟨M.stopped, ⟨fun p alive => by simp [idle] at alive, fun _ => rfl⟩, initial _ started⟩
  · rintro u a u' ⟨g, watched, holds⟩ permitted stepped
    exact h.step safe watched holds permitted stepped

/-- Adequacy from a watched configuration on. -/
theorem Invariant.reaches (h : M.Invariant C I)
    (safe : ∀ s, M.Safe (fun _ _ _ => True) P.main (P.boot s) M.begun) (watched : M.Watches c g)
    (holds : I c.state g) (reaches : (P.system start).Reaches C c c') :
    ∃ g', M.Watches c' g' ∧ I c'.state g' := by
  refine reaches.preserves (P := fun c' => ∃ g', M.Watches c' g' ∧ I c'.state g')
    ⟨g, watched, holds⟩ ?_
  rintro u a u' ⟨g, watched, holds⟩ permitted stepped
  exact h.step safe watched holds permitted stepped

end Monitor
