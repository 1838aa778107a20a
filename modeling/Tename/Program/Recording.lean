import Tename.Program.Evaluation

/-!
# Recorded processes

A process together with a memory of what it has performed, for statements that relate
an operation to earlier ones. The memory outlives the process: a start does what
`restart` says to it, and a kill nothing. It decides nothing, so the runs of the
recorded process are those of the process.
-/

namespace Process

variable {Op : Type} {Res : Op → Type} {ε σ μ Ans Ext : Type}

/-- The process with a memory beside its state. -/
def recording (P : Process Op Res ε σ Ans Ext) (note : μ → Performed Op Res ε Ans → μ)
    (restart : μ → μ) : Process Op Res ε (σ × μ) Ans Ext where
  main := P.main
  boot s := (P.boot s.1, restart s.2)
  perform s o answer := (P.perform s.1 o answer).map fun (s', r) =>
    ((s', note s.2 ⟨o, answer, r⟩), r)
  disturb s x := (P.disturb s.1 x).map fun s' => (s', s.2)

/-- A configuration without its memory. -/
def Config.plain (c : Config Op Res ε (σ × μ)) : Config Op Res ε σ :=
  ⟨c.state.1, c.program⟩

variable {P : Process Op Res ε σ Ans Ext} {note : μ → Performed Op Res ε Ans → μ}
variable {restart : μ → μ}

theorem recording_perform {s s' : σ × μ} {o : Op} {answer : Ans} {r : Except ε (Res o)} :
    (P.recording note restart).perform s o answer = some (s', r) ↔
      P.perform s.1 o answer = some (s'.1, r) ∧ s'.2 = note s.2 ⟨o, answer, r⟩ := by
  constructor
  · intro recorded
    obtain ⟨⟨t, r'⟩, performed, same⟩ := Option.map_eq_some_iff.mp recorded
    cases same
    exact ⟨performed, rfl⟩
  · rintro ⟨performed, noted⟩
    obtain ⟨t, m⟩ := s'
    obtain rfl : m = note s.2 ⟨o, answer, r⟩ := noted
    exact Option.map_eq_some_iff.mpr ⟨(t, r), performed, rfl⟩

theorem recording_disturb {s s' : σ × μ} {x : Ext} :
    (P.recording note restart).disturb s x = some s' ↔
      P.disturb s.1 x = some s'.1 ∧ s'.2 = s.2 := by
  constructor
  · intro recorded
    obtain ⟨t, disturbed, same⟩ := Option.map_eq_some_iff.mp recorded
    cases same
    exact ⟨disturbed, rfl⟩
  · rintro ⟨disturbed, kept⟩
    obtain ⟨t, m⟩ := s'
    obtain rfl : m = s.2 := kept
    exact Option.map_eq_some_iff.mpr ⟨t, disturbed, rfl⟩

/-- Others leave the memory alone. -/
theorem interferes_recording {s s' : σ × μ}
    (acts : Monitor.Interferes (P.recording note restart) s s') :
    Monitor.Interferes P s.1 s'.1 ∧ s'.2 = s.2 := by
  refine acts.relates (R := fun s s' : σ × μ => Monitor.Interferes P s.1 s'.1 ∧ s'.2 = s.2)
    (fun _ => ⟨.refl, rfl⟩) ?_ ?_
  · rintro a b c ⟨first, kept⟩ ⟨second, kept'⟩
    exact ⟨first.trans second, kept'.trans kept⟩
  · intro s x s' disturbed
    obtain ⟨disturbed, kept⟩ := recording_disturb.mp disturbed
    exact ⟨.single ⟨x, disturbed⟩, kept⟩

/-- A step of the recorded process is a step of the process. -/
theorem step_plain {c c' : Config Op Res ε (σ × μ)} {a : Action Ans Ext}
    (stepped : (P.recording note restart).step c a = some c') :
    P.step c.plain a = some c'.plain := by
  obtain ⟨s, program⟩ := c
  rcases step_cases stepped with ⟨rfl, rfl, rfl⟩ | ⟨answer, o, k, t, r, rfl, rfl, performed, rfl⟩ |
    ⟨ends, alive, rfl⟩ | ⟨x, t, rfl, disturbed, rfl⟩
  · rfl
  · exact step_respond k (recording_perform.mp performed).1
  · rcases ends with rfl | rfl
    · cases program with
      | none => exact absurd rfl alive
      | some p =>
          cases p with
          | pure a => rfl
          | throw e => rfl
          | op o k => cases stepped
    · cases program with
      | none => exact absurd rfl alive
      | some p => rfl
  · exact step_disturb program (recording_disturb.mp disturbed).1

/-- A step of the process can be recorded. -/
theorem step_recorded {c : Config Op Res ε (σ × μ)} {d : Config Op Res ε σ} {a : Action Ans Ext}
    (stepped : P.step c.plain a = some d) :
    ∃ c', (P.recording note restart).step c a = some c' ∧ c'.plain = d := by
  obtain ⟨⟨s, m⟩, program⟩ := c
  rcases step_cases stepped with ⟨rfl, idle, rfl⟩ |
    ⟨answer, o, k, t, r, rfl, running, performed, rfl⟩ |
    ⟨ends, alive, rfl⟩ | ⟨x, t, rfl, disturbed, rfl⟩
  · obtain rfl : program = none := idle
    exact ⟨_, step_start _ _, rfl⟩
  · obtain rfl : program = some (.op o k) := running
    exact ⟨⟨(t, note m ⟨o, answer, r⟩), some (k r)⟩,
      step_respond k (recording_perform.mpr ⟨performed, rfl⟩), rfl⟩
  · refine ⟨⟨(s, m), none⟩, ?_, rfl⟩
    rcases ends with rfl | rfl
    · cases program with
      | none => exact absurd rfl alive
      | some p =>
          cases p with
          | pure a => rfl
          | throw e => rfl
          | op o k => cases stepped
    · cases program with
      | none => exact absurd rfl alive
      | some p => rfl
  · exact ⟨⟨(t, m), program⟩, step_disturb program (recording_disturb.mpr ⟨disturbed, rfl⟩), rfl⟩

/-- The reachable configurations of the process are those of the recorded one, without
their memory. -/
theorem reachable_recording_iff {start : σ → Prop} {m₀ : μ} {d : Config Op Res ε σ} :
    (P.system start).Reachable d ↔ ∃ c, c.plain = d ∧
      ((P.recording note restart).system fun s => start s.1 ∧ s.2 = m₀).Reachable c := by
  constructor
  · intro reachable
    refine reachable.invariant (P := fun d => ∃ c : Config Op Res ε (σ × μ), c.plain = d ∧
      ((P.recording note restart).system fun s => start s.1 ∧ s.2 = m₀).Reachable c) ?_ ?_
    · rintro ⟨s, program⟩ ⟨idle, started⟩
      exact ⟨⟨(s, m₀), program⟩, rfl, .of_initial ⟨idle, started, rfl⟩⟩
    · rintro d a d' ⟨c, rfl, reachable⟩ - stepped
      obtain ⟨c', stepped', same⟩ := step_recorded stepped
      exact ⟨c', same, reachable.step trivial stepped'⟩
  · rintro ⟨c, rfl, reachable⟩
    refine reachable.invariant (P := fun c => (P.system start).Reachable c.plain) ?_ ?_
    · rintro c ⟨idle, started, -⟩
      exact .of_initial ⟨idle, started⟩
    · intro c a c' reachable' _ stepped
      exact reachable'.step trivial (step_plain stepped)

end Process
