import Tename.Program.Monitor
import Tename.Program.Running

/-!
# Evaluations

An uninterrupted execution of a program from its first operation to its end, with
the operations it performs as a list. Others may act before every operation.

The rules invert an evaluation by the control structures of the program. A relation
between the states around a part and what the part performs, closed under
sequencing, carries over from the operations to whole programs: `Respects`.
-/

namespace Process

/-- An operation, the environment's answer and what came of it. -/
structure Performed (Op : Type) (Res : Op → Type) (ε Ans : Type) where
  op : Op
  answer : Ans
  outcome : Except ε (Res op)

variable {Op : Type} {Res : Op → Type} {ε σ Ans Ext : Type} {α β : Type}
variable (P : Process Op Res ε σ Ans Ext)

/-- The program runs from a state to its end: what it performs, its outcome and the state
it leaves. -/
inductive Evaluates : Program Op Res ε α → σ → List (Performed Op Res ε Ans) → Except ε α → σ → Prop
  | pure (a : α) (s : σ) : Evaluates (.pure a) s [] (.ok a) s
  | throw (e : ε) (s : σ) : Evaluates (.throw e) s [] (.error e) s
  | op {o : Op} {k : Except ε (Res o) → Program Op Res ε α} {s s₁ s₂ s' : σ} {answer : Ans}
      {r : Except ε (Res o)} {h : List (Performed Op Res ε Ans)} {out : Except ε α}
      (interferes : Monitor.Interferes P s s₁) (performed : P.perform s₁ o answer = some (s₂, r))
      (rest : Evaluates (k r) s₂ h out s') : Evaluates (.op o k) s (⟨o, answer, r⟩ :: h) out s'

variable {P} {s s' : σ} {h : List (Performed Op Res ε Ans)} {out : Except ε α}

theorem evaluates_pure {a : α} :
    P.Evaluates (.pure a) s h out s' ↔ h = [] ∧ out = .ok a ∧ s' = s := by
  constructor
  · intro ran
    cases ran
    exact ⟨rfl, rfl, rfl⟩
  · rintro ⟨rfl, rfl, rfl⟩
    exact .pure a s'

theorem evaluates_throw {e : ε} :
    P.Evaluates (.throw e) s h out s' ↔ h = [] ∧ out = .error e ∧ s' = s := by
  constructor
  · intro ran
    cases ran
    exact ⟨rfl, rfl, rfl⟩
  · rintro ⟨rfl, rfl, rfl⟩
    exact .throw e s'

theorem evaluates_settle {r : Except ε α} :
    P.Evaluates (Program.settle r) s h out s' ↔ h = [] ∧ out = r ∧ s' = s := by
  cases r with
  | ok a => exact evaluates_pure
  | error e => exact evaluates_throw

/-- A single operation. -/
theorem evaluates_perform {o : Op} {out : Except ε (Res o)} :
    P.Evaluates (Program.perform o) s h out s' ↔ ∃ s₁ answer, Monitor.Interferes P s s₁ ∧
      P.perform s₁ o answer = some (s', out) ∧ h = [⟨o, answer, out⟩] := by
  constructor
  · intro ran
    cases ran with
    | @op _ _ _ s₁ s₂ _ answer r h out interferes performed rest =>
        cases r with
        | ok a =>
            obtain ⟨rfl, rfl, rfl⟩ := evaluates_pure.mp rest
            exact ⟨s₁, answer, interferes, performed, rfl⟩
        | error e =>
            obtain ⟨rfl, rfl, rfl⟩ := evaluates_throw.mp rest
            exact ⟨s₁, answer, interferes, performed, rfl⟩
  · rintro ⟨s₁, answer, interferes, performed, rfl⟩
    refine .op interferes performed ?_
    cases out with
    | ok a => exact .pure a s'
    | error e => exact .throw e s'

/-- Sequencing: the first part raises, or the second goes on from where it returns. -/
theorem evaluates_bind {p : Program Op Res ε β} {f : β → Program Op Res ε α} :
    P.Evaluates (p.bind f) s h out s' ↔
      (∃ e, out = .error e ∧ P.Evaluates p s h (.error e) s') ∨
      ∃ b h₁ h₂ s₁, h = h₁ ++ h₂ ∧ P.Evaluates p s h₁ (.ok b) s₁ ∧
        P.Evaluates (f b) s₁ h₂ out s' := by
  constructor
  · intro ran
    induction p generalizing s h with
    | pure b => exact .inr ⟨b, [], h, s, rfl, .pure b s, ran⟩
    | throw e =>
        obtain ⟨rfl, rfl, rfl⟩ := evaluates_throw.mp ran
        exact .inl ⟨e, rfl, .throw e s'⟩
    | op o k ih =>
        cases ran with
        | op interferes performed rest =>
            rcases ih _ rest with ⟨e, rfl, raised⟩ | ⟨b, h₁, h₂, s₁, rfl, first, second⟩
            · exact .inl ⟨e, rfl, .op interferes performed raised⟩
            · exact .inr ⟨b, _ :: h₁, h₂, s₁, rfl, .op interferes performed first, second⟩
  · rintro (⟨e, rfl, raised⟩ | ⟨b, h₁, h₂, s₁, rfl, first, second⟩)
    · induction p generalizing s h with
      | pure b =>
          obtain ⟨-, impossible, -⟩ := evaluates_pure.mp raised
          cases impossible
      | throw e' =>
          obtain ⟨rfl, ⟨⟩, rfl⟩ := evaluates_throw.mp raised
          exact .throw _ s'
      | op o k ih =>
          cases raised with
          | op interferes performed rest => exact .op interferes performed (ih _ rest)
    · induction p generalizing s h₁ with
      | pure b' =>
          obtain ⟨rfl, ⟨⟩, rfl⟩ := evaluates_pure.mp first
          exact second
      | throw e =>
          obtain ⟨-, impossible, -⟩ := evaluates_throw.mp first
          cases impossible
      | op o k ih =>
          cases first with
          | op interferes performed rest => exact .op interferes performed (ih _ _ rest)

/-- A sequence returns where both parts do. -/
theorem evaluates_bind_ok {p : Program Op Res ε β} {f : β → Program Op Res ε α} {a : α} :
    P.Evaluates (p.bind f) s h (.ok a) s' ↔ ∃ b h₁ h₂ s₁, h = h₁ ++ h₂ ∧
      P.Evaluates p s h₁ (.ok b) s₁ ∧ P.Evaluates (f b) s₁ h₂ (.ok a) s' := by
  rw [evaluates_bind]
  constructor
  · rintro (⟨e, impossible, -⟩ | returned)
    · cases impossible
    · exact returned
  · exact .inr

/-- `except`: the outcome is caught, raised or not. -/
theorem evaluates_attempt {p : Program Op Res ε α} {out : Except ε (Except ε α)} :
    P.Evaluates p.attempt s h out s' ↔ ∃ r, out = .ok r ∧ P.Evaluates p s h r s' := by
  constructor
  · intro ran
    induction p generalizing s h with
    | pure a =>
        obtain ⟨rfl, rfl, rfl⟩ := evaluates_pure.mp ran
        exact ⟨.ok a, rfl, .pure a s'⟩
    | throw e =>
        obtain ⟨rfl, rfl, rfl⟩ := evaluates_pure.mp ran
        exact ⟨.error e, rfl, .throw e s'⟩
    | op o k ih =>
        cases ran with
        | op interferes performed rest =>
            obtain ⟨r, rfl, body⟩ := ih _ rest
            exact ⟨r, rfl, .op interferes performed body⟩
  · rintro ⟨r, rfl, body⟩
    induction body with
    | pure a s => exact .pure _ s
    | throw e s => exact .pure _ s
    | op interferes performed _ ih => exact .op interferes performed ih

/-- `try … finally …`: the cleanup runs whatever comes of the body. -/
theorem evaluates_tryFinally {body : Program Op Res ε α} {cleanup : Program Op Res ε Unit} :
    P.Evaluates (body.tryFinally cleanup) s h out s' ↔ ∃ r c h₁ h₂ s₁, h = h₁ ++ h₂ ∧
      P.Evaluates body s h₁ r s₁ ∧ P.Evaluates cleanup s₁ h₂ c s' ∧
      out = c.bind fun _ => r := by
  simp only [Program.tryFinally, evaluates_bind, evaluates_attempt, evaluates_settle]
  constructor
  · rintro (⟨e, rfl, r, impossible, -⟩ | ⟨r, h₁, h₂, s₁, rfl, ⟨_, ⟨⟩, first⟩, rest⟩)
    · cases impossible
    · rcases rest with ⟨e, rfl, raised⟩ | ⟨_, h₃, _, s₂, rfl, cleaned, rfl, rfl, rfl⟩
      · exact ⟨r, .error e, h₁, h₂, s₁, rfl, first, raised, rfl⟩
      · exact ⟨out, .ok (), h₁, h₃, s₁, by rw [List.append_nil], first, cleaned, rfl⟩
  · rintro ⟨r, c, h₁, h₂, s₁, rfl, first, cleaned, rfl⟩
    refine .inr ⟨r, h₁, h₂, s₁, rfl, ⟨r, rfl, first⟩, ?_⟩
    cases c with
    | error e => exact .inl ⟨e, rfl, cleaned⟩
    | ok _ => exact .inr ⟨(), h₂, [], s', by rw [List.append_nil], cleaned, rfl, rfl, rfl⟩

/-- An evaluation performs operations of its program only. -/
theorem Evaluates.within {A : Op → Prop} {p : Program Op Res ε α} (ran : P.Evaluates p s h out s')
    (within : p.Within A) : ∀ x ∈ h, A x.op := by
  induction ran with
  | pure a s => simp
  | throw e s => simp
  | op interferes performed rest ih =>
      rw [List.forall_mem_cons]
      exact ⟨within.1, ih (within.2 _)⟩

/-- The evaluation for given answers of the environment, without anybody else. -/
def evaluate (P : Process Op Res ε σ Ans Ext) : Program Op Res ε α → σ → List Ans →
    Option (List (Performed Op Res ε Ans) × Except ε α × σ)
  | .pure a, s, [] => some ([], .ok a, s)
  | .throw e, s, [] => some ([], .error e, s)
  | .op o k, s, answer :: answers =>
      (P.perform s o answer).bind fun (s', r) =>
        (evaluate P (k r) s' answers).map fun (h, out, t) => (⟨o, answer, r⟩ :: h, out, t)
  | _, _, _ => none

theorem evaluates_of_evaluate {p : Program Op Res ε α} {answers : List Ans}
    (ran : evaluate P p s answers = some (h, out, s')) : P.Evaluates p s h out s' := by
  induction p generalizing s answers h with
  | pure a =>
      cases answers with
      | nil =>
          cases ran
          exact .pure a _
      | cons answer answers => cases ran
  | throw e =>
      cases answers with
      | nil =>
          cases ran
          exact .throw e _
      | cons answer answers => cases ran
  | op o k ih =>
      cases answers with
      | nil => cases ran
      | cons answer answers =>
          obtain ⟨⟨s₁, r⟩, performed, rest⟩ := Option.bind_eq_some_iff.mp ran
          obtain ⟨⟨h', out', t⟩, rest, same⟩ := Option.map_eq_some_iff.mp rest
          cases same
          exact .op .refl performed (ih _ rest)

section Steps

variable {start : σ → Prop} {p q : Program Op Res ε Unit} {out : Except ε Unit}

/-- The steps of a running process and of the others. -/
def uninterrupted : Action Ans Ext → Bool
  | .respond _ | .disturb _ => true
  | _ => false

/-- One such step before an evaluation belongs to it. -/
theorem Evaluates.of_step {a : Action Ans Ext} {c : Config Op Res ε σ}
    (ran : P.Evaluates q s' h out s) (going : uninterrupted a = true)
    (stepped : P.step c a = some ⟨s', some q⟩) : ∃ p h' t, c.program = some p ∧
      P.Evaluates p c.state h' out t ∧ Monitor.Interferes P t s := by
  obtain ⟨s₀, program⟩ := c
  rcases step_cases stepped with ⟨rfl, -⟩ | ⟨answer, o, k, s₁, r, rfl, rfl, performed, same⟩ |
    ⟨rfl | rfl, -⟩ | ⟨x, s₁, rfl, disturbed, same⟩
  · cases going
  · obtain ⟨rfl, ⟨⟩⟩ := Config.mk.inj same
    exact ⟨_, _, s, rfl, .op .refl performed ran, .refl⟩
  · cases going
  · cases going
  · obtain ⟨rfl, rfl⟩ := Config.mk.inj same
    refine ⟨q, ?_⟩
    have acts : Monitor.Interferes P s₀ s' := .single ⟨x, disturbed⟩
    cases ran with
    | pure a => exact ⟨[], s₀, rfl, .pure a s₀, acts⟩
    | throw e => exact ⟨[], s₀, rfl, .throw e s₀, acts⟩
    | op interferes performed rest =>
        exact ⟨_, s, rfl, .op (acts.trans interferes) performed rest, .refl⟩

/-- A run of the process that is not interrupted and comes to an end is an evaluation, up
to what others do after its last operation. -/
theorem evaluates_of_reaches {c : Config Op Res ε σ}
    (reaches : (P.system start).Reaches (fun _ a => uninterrupted a = true) c ⟨s', some q⟩)
    (ended : P.Evaluates q s' h out s) : ∃ p h' t, c.program = some p ∧
      P.Evaluates p c.state h' out t ∧ Monitor.Interferes P t s := by
  generalize target : (⟨s', some q⟩ : Config Op Res ε σ) = c' at reaches
  induction reaches generalizing s' q h s with
  | refl =>
      subst target
      exact ⟨q, h, s, rfl, ended, .refl⟩
  | tail _ going stepped ih =>
      subst target
      rename_i t _ _
      obtain ⟨p, h', u, running, ran, acts⟩ := Evaluates.of_step ended going stepped
      obtain ⟨s₁, program⟩ := t
      obtain rfl : program = some p := running
      obtain ⟨p', h'', v, running', ran', acts'⟩ := ih ran rfl
      exact ⟨p', h'', v, running', ran', acts'.trans acts⟩

/-- What is left of the process performs nothing but what the whole does. -/
theorem within_of_reachable {A : Op → Prop} {C : Config Op Res ε σ → Action Ans Ext → Prop}
    {c : Config Op Res ε σ} (within : P.main.Within A)
    (reachable : (P.system start).ReachableIf C c) (running : c.program = some p) :
    p.Within A := by
  refine reachable.invariant (P := fun c => ∀ p, c.program = some p → p.Within A) ?_ ?_ p running
  · rintro c ⟨idle, -⟩ p running
    rw [idle] at running
    cases running
  · rintro ⟨s, program⟩ a c' inner - stepped p running
    rcases step_cases stepped with ⟨-, -, rfl⟩ | ⟨answer, o, k, s', r, -, rfl, -, rfl⟩ |
      ⟨-, -, rfl⟩ | ⟨x, s', -, -, rfl⟩
    · obtain rfl := Option.some.inj running
      exact within
    · obtain rfl := Option.some.inj running
      exact (inner _ rfl).2 r
    · cases running
    · exact inner p running

end Steps

section May

variable {start : σ → Prop} {R : Config Op Res ε σ → Prop} {Q : α → σ → Prop}

/-- What surrounds a part of a program that is to run next. -/
def Context (K : Program Op Res ε α → Program Op Res ε Unit) : Prop :=
  ∀ o k, K (.op o k) = .op o fun r => K (k r)

theorem Context.bind {K : Program Op Res ε α → Program Op Res ε Unit} (context : Context K)
    (f : β → Program Op Res ε α) : Context fun p => K (p.bind f) :=
  fun o k => context o fun r => (k r).bind f

theorem Context.attempt {K : Program Op Res ε (Except ε α) → Program Op Res ε Unit}
    (context : Context K) : Context fun p => K p.attempt :=
  fun o k => context o fun r => (k r).attempt

/-- An evaluation of the part is a run of the process. -/
theorem Evaluates.later {K : Program Op Res ε α → Program Op Res ε Unit} (context : Context K)
    {p : Program Op Res ε α} {out : Except ε α} (ran : P.Evaluates p s h out s') :
    (P.system start).Later ⟨s, some (K p)⟩ ⟨s', some (K (Program.settle out))⟩ := by
  induction ran with
  | pure a s => exact .refl
  | throw e s => exact .refl
  | @op o k s s₁ s₂ s' answer r h out interferes performed rest ih =>
      have disturbed : (P.system start).Later ⟨s, some (K (.op o k))⟩ ⟨s₁, some (K (.op o k))⟩ := by
        refine interferes.relates
          (R := fun s s' => (P.system start).Later ⟨s, some (K (.op o k))⟩ ⟨s', some (K (.op o k))⟩)
          (fun _ => .refl) (fun _ _ _ first second => first.trans second) ?_
        intro s x s' acts
        exact .tail (a := .disturb x) .refl trivial (step_disturb _ acts)
      refine disturbed.trans (.trans ?_ ih)
      rw [context]
      exact .tail (a := .respond answer) .refl trivial (step_respond _ performed)

/-- Some evaluation of the program returns in `Q`. -/
def May (P : Process Op Res ε σ Ans Ext) (Q : α → σ → Prop) (p : Program Op Res ε α) (s : σ) :
    Prop :=
  ∃ h a s', P.Evaluates p s h (.ok a) s' ∧ Q a s'

theorem May.pure {a : α} (holds : Q a s) : P.May Q (.pure a) s :=
  ⟨[], a, s, .pure a s, holds⟩

theorem May.perform {o : Op} {Q : Res o → σ → Prop} {a : Res o} (answer : Ans)
    (performed : P.perform s o answer = some (s', .ok a)) (holds : Q a s') :
    P.May Q (Program.perform o) s :=
  ⟨_, a, s', evaluates_perform.mpr ⟨s, answer, .refl, performed, rfl⟩, holds⟩

theorem May.bind {Q' : β → σ → Prop} {p : Program Op Res ε α} {f : α → Program Op Res ε β}
    (first : P.May Q p s) (second : ∀ a s', Q a s' → P.May Q' (f a) s') :
    P.May Q' (p.bind f) s := by
  obtain ⟨h₁, a, s₁, ran₁, holds⟩ := first
  obtain ⟨h₂, b, s₂, ran₂, holds'⟩ := second a s₁ holds
  exact ⟨_, b, s₂, evaluates_bind.mpr (.inr ⟨a, h₁, h₂, s₁, rfl, ran₁, ran₂⟩), holds'⟩

theorem May.attempt {p : Program Op Res ε α} (body : P.May Q p s) :
    P.May (fun r s => ∃ a, r = .ok a ∧ Q a s) p.attempt s := by
  obtain ⟨h, a, s', ran, holds⟩ := body
  exact ⟨h, .ok a, s', evaluates_attempt.mpr ⟨_, rfl, ran⟩, a, rfl, holds⟩

/-- What may come of a part of the program is on the way of a run. -/
theorem May.leads {K : Program Op Res ε α → Program Op Res ε Unit} {p : Program Op Res ε α}
    (context : Context K) (part : P.May Q p s)
    (rest : ∀ a s', Q a s' → (P.system start).Leads R ⟨s', some (K (.pure a))⟩) :
    (P.system start).Leads R ⟨s, some (K p)⟩ := by
  obtain ⟨h, a, s', ran, holds⟩ := part
  exact .after (ran.later context) (rest a s' holds)

end May

/-- The process without anybody else. -/
def calm (P : Process Op Res ε σ Ans Ext) : Process Op Res ε σ Ans Ext :=
  { P with disturb := fun _ _ => none }

theorem interferes_calm {s s' : σ} : Monitor.Interferes P.calm s s' ↔ s' = s := by
  constructor
  · intro acts
    exact acts.relates (R := fun s s' => s' = s) (fun _ => rfl)
      (fun _ _ _ first second => second.trans first) fun _ _ _ impossible => by cases impossible
  · rintro rfl
    exact .refl

/-- Others need not act. -/
theorem Evaluates.of_calm {p : Program Op Res ε α} (ran : P.calm.Evaluates p s h out s') :
    P.Evaluates p s h out s' := by
  induction ran with
  | pure a s => exact .pure a s
  | throw e s => exact .throw e s
  | op acts performed _ ih =>
      obtain rfl := interferes_calm.mp acts
      exact .op .refl performed ih

/-- Every evaluation of the program stands in a relation of the states around it and what
it performs. -/
def Respects (P : Process Op Res ε σ Ans Ext)
    (R : σ → List (Performed Op Res ε Ans) → σ → Prop) (p : Program Op Res ε α) : Prop :=
  ∀ s h out s', P.Evaluates p s h out s' → R s h s'

/-- A relation that holds of nothing and of two parts in sequence. -/
structure Composes (R : σ → List (Performed Op Res ε Ans) → σ → Prop) : Prop where
  nil : ∀ s, R s [] s
  append : ∀ s h s₁ h' s', R s h s₁ → R s₁ h' s' → R s (h ++ h') s'

section Respects

variable {R : σ → List (Performed Op Res ε Ans) → σ → Prop}

theorem Respects.pure (composes : Composes R) (a : α) :
    P.Respects R (.pure a : Program Op Res ε α) := by
  intro s h out s' ran
  obtain ⟨rfl, -, rfl⟩ := evaluates_pure.mp ran
  exact composes.nil s'

theorem Respects.throw (composes : Composes R) (e : ε) :
    P.Respects R (.throw e : Program Op Res ε α) := by
  intro s h out s' ran
  obtain ⟨rfl, -, rfl⟩ := evaluates_throw.mp ran
  exact composes.nil s'

theorem Respects.settle (composes : Composes R) (r : Except ε α) :
    P.Respects R (Program.settle r) := by
  intro s h out s' ran
  obtain ⟨rfl, -, rfl⟩ := evaluates_settle.mp ran
  exact composes.nil s'

theorem Respects.bind (composes : Composes R) {p : Program Op Res ε β}
    {f : β → Program Op Res ε α} (first : P.Respects R p) (second : ∀ b, P.Respects R (f b)) :
    P.Respects R (p.bind f) := by
  intro s h out s' ran
  rcases evaluates_bind.mp ran with ⟨e, -, raised⟩ | ⟨b, h₁, h₂, s₁, rfl, ran₁, ran₂⟩
  · exact first s h _ s' raised
  · exact composes.append s h₁ s₁ h₂ s' (first _ _ _ _ ran₁) (second b _ _ _ _ ran₂)

theorem Respects.attempt {p : Program Op Res ε α} (body : P.Respects R p) :
    P.Respects R p.attempt := by
  intro s h out s' ran
  obtain ⟨r, -, ran⟩ := evaluates_attempt.mp ran
  exact body s h r s' ran

theorem Respects.perform {o : Op} (performs : ∀ s s₁ answer s' r, Monitor.Interferes P s s₁ →
      P.perform s₁ o answer = some (s', r) → R s [⟨o, answer, r⟩] s') :
    P.Respects R (Program.perform o) := by
  intro s h out s' ran
  obtain ⟨s₁, answer, interferes, performed, rfl⟩ := evaluates_perform.mp ran
  exact performs s s₁ answer s' out interferes performed

theorem Respects.forEach (composes : Composes R) {body : β → Program Op Res ε Unit}
    (each : ∀ x, P.Respects R (body x)) (xs : List β) :
    P.Respects R (Program.forEach xs body) := by
  induction xs with
  | nil => exact .pure composes ()
  | cons x xs ih => exact .bind composes (each x) fun _ => ih

end Respects

end Process
