import Tename.Sdk.Sessions

/-!
# A runtime that fails during a call

The failure of the runtime is noticed in one of two places: the call asks whether the task is
done, and reads what is left of the log before it raises; or it waits for the task, and raises
at once. What the runtime committed before it failed is lost in the second case, unless the call
had read it already.
-/

namespace Tename

namespace SendState

variable {rt : Runtime} {agents : AgentId → Option Agent} {sid : SessionId} {agentId : AgentId}
variable {content : String} {s s' : SendState} {n : Nat} {e e' : Exn}

/-- The call waits for a task that has failed, and has not read the whole log. -/
def Stranded (s : SendState) : Prop :=
  ∃ n e, s.phase = .waiting n ∧ s.taskResult = some (.error e) ∧ e.isTimeout = false ∧
    n < s.run.state.session.events.length

/-- Steps of the call are not taken where it is stranded. -/
def Unstranded (s : SendState) (a : SendAction) : Prop :=
  a = .proceed → ¬ s.Stranded

/-- What is known when the call has raised: the runtime has never been started, or its own
exception has been raised, after everything was received. -/
def Surfaced (content : String) (s : SendState) : Prop :=
  ∀ e, s.phase = .raised e → s.run.program = none ∨
    (s.taskResult = some (.error e) ∧
      (s.run.state.session.events.length ≤ 1000 → Received content s))

theorem ended_eq_raised {r : Option (Except Exn Unit)} (raised : SendPhase.ended r = .raised e) :
    r = some (.error e) := by
  cases r with
  | none => cases raised
  | some r =>
      cases r with
      | ok done => cases raised
      | error e =>
          cases raised
          rfl

/-- With everything read, nothing is missing. -/
theorem Streaming.received_of_all {session : SessionState} {before yielded : List Event}
    (h : Streaming content session.events before yielded n) (short : session.events.length ≤ 1000)
    (all : session.events.length ≤ n) : ∃ own rest, session.events = before ++ own :: rest ∧
      own.utters content ∧ yielded = own :: rest := by
  have nothing : (session.events.drop n).take 1000 = [] := by
    rw [List.drop_eq_nil_of_le all, List.take_nil]
  have fits : before.length ≤ session.events.length := by
    obtain ⟨own, rest, log, -⟩ := h.own
    rw [log, List.length_append]
    omega
  have received := h.received_iff.mpr ⟨by omega, by omega⟩
  rwa [nothing, List.append_nil] at received

/-- One step of a call that is not stranded. -/
theorem surfaced_proceed (known : Invariant rt agents sid content s) (fine : ¬ s.Stranded)
    (stepped : s.proceed rt sid content = some s') : Surfaced content s' := by
  intro e raised
  cases proceeds stepped with
  | opens => cases raised
  | speaks => cases raised
  | refused => exact .inl rfl
  | launches => cases raised
  | reads => cases raised
  | finds => cases raised
  | sleeps => cases raised
  | @fails n e' phase failed other =>
      obtain rfl := SendPhase.raised.inj raised
      refine .inr ⟨failed, fun short => ?_⟩
      simp only [Invariant, phase] at known
      have read : s.run.state.session.events.length ≤ n := by
        by_contra unread
        exact fine ⟨n, e', phase, failed, other, Nat.lt_of_not_le unread⟩
      exact known.received_of_all short read
  | wakes => cases raised
  | @drains n phase =>
      refine .inr ⟨ended_eq_raised raised, fun short => ?_⟩
      simp only [Invariant, phase] at known
      refine known.received_iff.mpr ⟨?_, Nat.le_add_left_of_le short⟩
      obtain ⟨own, rest, log, -⟩ := known.own
      have total := congrArg List.length log
      rw [List.length_append] at total
      dsimp only at short
      omega

/-- A task that is over does not move. -/
theorem taskResult_of_harness {answer : Answer}
    (stepped : (sendSystem rt agents sid agentId content).step s (.harness answer) = some s') :
    s.run.program ≠ none ∧ s.taskResult = none ∧ s'.phase = s.phase := by
  obtain ⟨c, performed, rfl⟩ := Option.map_eq_some_iff.mp stepped
  change (runtimeProcess rt agents sid).step s.run (.respond answer) = some c at performed
  rcases Process.step_cases performed with ⟨other, _⟩ | ⟨_, o, k, w, r, _, alive, _, _⟩ |
    ⟨other, _⟩ | ⟨_, _, other, _⟩
  · cases other
  · refine ⟨by rw [alive]; exact Option.some_ne_none _, ?_, rfl⟩
    rw [taskResult, alive]
  · rcases other with other | other <;> cases other
  · cases other

theorem surfaced_harness {answer : Answer} (known : Surfaced content s)
    (stepped : (sendSystem rt agents sid agentId content).step s (.harness answer) = some s') :
    Surfaced content s' := by
  obtain ⟨alive, unfinished, same⟩ := taskResult_of_harness stepped
  intro e raised
  rcases known e (same ▸ raised) with idle | ⟨failed, -⟩
  · exact absurd idle alive
  · rw [unfinished] at failed
    cases failed

/-- In a run whose call is never stranded, nothing is lost to a failure. -/
theorem surfaced_of_reachable
    (reachable : (sendSystem rt agents sid agentId content).ReachableIf Unstranded s) :
    Surfaced content s := by
  obtain ⟨s₀, initial, reaches⟩ := reachable
  induction reaches with
  | refl =>
      obtain ⟨-, -, opening, -⟩ := initial
      intro e raised
      rw [opening] at raised
      cases raised
  | @tail t t' a before fine stepped ih =>
      cases a with
      | proceed =>
          have known : Invariant rt agents sid content t :=
            invariant_of_reachable ⟨s₀, initial, before.later⟩
          exact surfaced_proceed known (fine rfl) stepped
      | harness answer => exact surfaced_harness ih stepped

/-- A call that is stranded raises without what is left. -/
theorem stranded_raises (reachable : (sendSystem rt agents sid agentId content).Reachable s)
    (stranded : s.Stranded) (short : s.run.state.session.events.length ≤ 1000) :
    ∃ s' e, s.proceed rt sid content = some s' ∧ s'.phase = .raised e ∧
      s'.taskResult = some (.error e) ∧ ¬ Received content s' := by
  obtain ⟨n, e, waiting, failed, other, unread⟩ := stranded
  have known := invariant_of_reachable reachable
  simp only [Invariant, waiting] at known
  refine ⟨{ s with phase := .raised e }, e, ?_, rfl, failed, ?_⟩
  · simp only [SendState.proceed, waiting, failed, other]
    rfl
  · rintro ⟨own, rest, log, -, received⟩
    have lengths := congrArg List.length (known.handed.symm.trans received)
    have total := congrArg List.length log
    simp only [List.length_drop, List.length_take, List.length_append, List.length_cons]
      at lengths total
    omega

/-- In a run whose call has not been stranded so far, a failure of the runtime is raised after
the caller has received its own message and all that followed; where the call is stranded, its
next step raises the failure before that. -/
theorem failure_received
    (reachable : (sendSystem rt agents sid agentId content).ReachableIf Unstranded s)
    (short : s.run.state.session.events.length ≤ 1000) :
    (∀ e e', s.phase = .raised e → s.taskResult = some (.error e') →
      e = e' ∧ Received content s) ∧
    (s.Stranded → ∃ s' e, s.proceed rt sid content = some s' ∧ s'.phase = .raised e ∧
      s'.taskResult = some (.error e) ∧ ¬ Received content s') := by
  constructor
  · intro e e' raised failed
    rcases surfaced_of_reachable reachable e raised with idle | ⟨failed', received⟩
    · rw [taskResult, idle] at failed
      cases failed
    · rw [failed'] at failed
      cases failed
      exact ⟨rfl, received short⟩
  · intro stranded
    exact stranded_raises (reachable.mono fun _ _ _ => trivial) stranded short

end SendState

section Prompted

open SendState

/-- The runtime adds the system prompt to the log, and its first read fails. -/
def promptThenFailure : List SendAction :=
  promptLogged ++ [.harness (.raises (.other "connection lost"))]

/-- While the call waits, the runtime writes an event and fails: the caller gets the failure
without the event. -/
theorem failure_loses_event : ∃ s : SendState, promptedSystem.Reachable s ∧
    s.phase = .raised (.other "connection lost") ∧
    s.taskResult = some (.error (.other "connection lost")) ∧
    s.run.state.session.events.length ≤ 1000 ∧ ¬ Received "hello" s := by
  obtain ⟨s, ran, facts⟩ := Option.map_eq_some_iff.mp (show
    (promptedSystem.run .fresh (untilWait ++ promptThenFailure ++ [.proceed])).map (fun s =>
        (s.phase, s.taskResult, s.before, s.run.state.session.events.length, s.yielded.length)) =
      some (.raised (.other "connection lost"), some (.error (.other "connection lost")), [], 2,
        1) from rfl)
  obtain ⟨raised, failed, before, length, yielded⟩ := by
    simpa only [Prod.mk.injEq] using facts
  refine ⟨s, ⟨_, fresh_initial, Transition.System.later_of_run ran⟩, raised, failed, ?_, ?_⟩
  · omega
  · rintro ⟨own, rest, log, -, received⟩
    rw [log, before, List.nil_append, ← received] at length
    omega

/-- A call that waits for a runtime that has failed has read the whole log. -/
def SendState.upToDate (s : SendState) : Bool :=
  match s.phase, s.taskResult with
  | .waiting n, some (.error _) => s.run.state.session.events.length ≤ n
  | _, _ => true

theorem SendState.unstranded_of_upToDate {s : SendState} {a : SendAction}
    (read : s.upToDate = true) : s.Unstranded a := by
  rintro - ⟨n, e, waiting, failed, -, unread⟩
  rw [upToDate, waiting, failed] at read
  exact Nat.not_le_of_gt unread (of_decide_eq_true read)

/-- The runtime adds the system prompt to the log, the call reads it, and the runtime fails: the
caller has received both events. -/
theorem failure_received_prompted : ∃ s : SendState,
    s.phase = .raised (.other "connection lost") ∧ s.run.state.session.events.length = 2 ∧
    Received "hello" s := by
  obtain ⟨s, ran, facts⟩ := Option.map_eq_some_iff.mp (show
    (promptedSystem.runIf (fun s _ => s.upToDate) .fresh
      (untilWait ++ promptLogged ++ [.proceed, .proceed, .proceed] ++
        [.harness (.raises (.other "connection lost")), .proceed])).map (fun s =>
        (s.phase, s.taskResult, s.run.state.session.events.length)) =
      some (.raised (.other "connection lost"), some (.error (.other "connection lost")), 2)
      from rfl)
  obtain ⟨raised, failed, length⟩ := by simpa only [Prod.mk.injEq] using facts
  have reachable : promptedSystem.ReachableIf Unstranded s :=
    ⟨_, fresh_initial, (Transition.System.reaches_of_runIf ran).mono
      fun _ _ read => unstranded_of_upToDate read⟩
  have short : s.run.state.session.events.length ≤ 1000 := by omega
  exact ⟨s, raised, length, ((failure_received reachable short).1 _ _ raised failed).2⟩

end Prompted

end Tename
