import Tename.Sandbox.ToolEnds

/-!
# Verdicts on a call

`Sandbox.execute` learns of a timeout from the text of the result, and of a failure from
the exception. The verdict is right exactly if the backend ends the call as the service
reads it: no result passes for a timeout that is none, and nothing is raised that the
service lets pass.
-/

namespace Tename

open Docker

/-- The sandbox that a call is an operation on. -/
def SandboxRequest.target : SandboxRequest → Option SandboxId
  | .provision _ => none
  | .execute id _ _ | .destroy id | .status id => some id

/-- The sandbox that a call in its await is an operation on. -/
def SandboxPhase.target : SandboxPhase → Option SandboxId
  | .executing id _ _ | .destroying id _ | .asking id _ => some id
  | _ => none

/-- The sandbox that an answer gives an id to. -/
def BackendAnswer.target : BackendAnswer → Option SandboxId
  | .provisions id => some id
  | _ => none

/-- A step that has no part in an operation on the sandbox. -/
def Elsewhere (id : SandboxId) (s : SandboxService) : SandboxStep → Prop
  | .call _ request => request.target ≠ some id
  | .answer c answer =>
      (∀ phase, s.calls c = some phase → phase.target ≠ some id) ∧ answer.target ≠ some id

section Tracker

variable {tracker tracker' : Tracker} {id : SandboxId} {phase phase' : SandboxPhase}

theorem Tracker.set_of_ne {id' : SandboxId} (other : id ≠ id') (status : SandboxStatus) :
    tracker.set id' status id = tracker id :=
  Function.update_of_ne other _ _

theorem Tracker.transition_of_ne {id' : SandboxId} {next : SandboxStatus} (other : id ≠ id')
    (moved : tracker.transition id' next = .ok tracker') : tracker' id = tracker id := by
  unfold Tracker.transition at moved
  split at moved
  · obtain rfl := Except.ok.inj moved
    exact Tracker.set_of_ne other next
  · cases moved

theorem Tracker.leave_of_ne {id' : SandboxId} {next : SandboxStatus} {outcome : SandboxPhase}
    (other : id ≠ id') : (tracker.leave id' next outcome).1 id = tracker id := by
  unfold Tracker.leave
  cases moved : tracker.transition id' next with
  | ok tracker' => exact Tracker.transition_of_ne other moved
  | error m => rfl

/-- Entering an operation on another sandbox. -/
theorem Tracker.enter_of_ne {request : SandboxRequest} (other : request.target ≠ some id) :
    (tracker.enter request).1 id = tracker id := by
  cases request with
  | provision recipe => rfl
  | status id' => rfl
  | execute id' tool input =>
      have other' : id ≠ id' := fun same => other (congrArg some same.symm)
      simp only [Tracker.enter]
      cases moved : tracker.transition id' .running with
      | ok tracker' => exact Tracker.transition_of_ne other' moved
      | error m => rfl
  | destroy id' =>
      simp only [Tracker.enter]
      split
      · rfl
      · split
        · rfl
        · rfl

/-- Resuming an operation on another sandbox. -/
theorem Tracker.resume_of_ne {answer : BackendAnswer} (other : phase.target ≠ some id)
    (other' : answer.target ≠ some id)
    (resumed : tracker.resume phase answer = some (tracker', phase')) :
    tracker' id = tracker id := by
  have ne {id' : SandboxId} (different : (some id' : Option SandboxId) ≠ some id) : id ≠ id' :=
    fun same => different (congrArg some same.symm)
  cases phase with
  | provisioning recipe =>
      cases answer with
      | provisions id' =>
          obtain ⟨rfl, rfl⟩ := Prod.mk.inj (Option.some.inj resumed)
          exact Tracker.set_of_ne (ne other') _
      | raises e =>
          obtain ⟨rfl, rfl⟩ := Prod.mk.inj (Option.some.inj resumed)
          rfl
      | _ => cases resumed
  | executing id' tool input =>
      cases answer with
      | results r =>
          rw [← show _ = tracker' from congrArg Prod.fst (Option.some.inj resumed)]
          exact Tracker.leave_of_ne (ne other)
      | raises e =>
          rw [← show _ = tracker' from congrArg Prod.fst (Option.some.inj resumed)]
          split
          · exact Tracker.leave_of_ne (ne other)
          · rfl
      | _ => cases resumed
  | destroying id' tracked =>
      cases answer with
      | destroyed =>
          rw [← show _ = tracker' from congrArg Prod.fst (Option.some.inj resumed)]
          cases tracked with
          | false => rfl
          | true => exact Tracker.set_of_ne (ne other) _
      | raises e =>
          obtain ⟨rfl, rfl⟩ := Prod.mk.inj (Option.some.inj resumed)
          rfl
      | _ => cases resumed
  | asking id' tracked =>
      cases answer with
      | reports view =>
          cases tracked with
          | none =>
              obtain ⟨rfl, rfl⟩ := Prod.mk.inj (Option.some.inj resumed)
              rfl
          | some tracked =>
              simp only [Tracker.resume] at resumed
              split at resumed
              · obtain ⟨rfl, rfl⟩ := Prod.mk.inj (Option.some.inj resumed)
                exact Tracker.set_of_ne (ne other) _
              · obtain ⟨rfl, rfl⟩ := Prod.mk.inj (Option.some.inj resumed)
                rfl
      | raises e =>
          cases tracked <;> obtain ⟨rfl, rfl⟩ := Prod.mk.inj (Option.some.inj resumed)
          · rfl
          · rfl
      | _ => cases tracked <;> cases resumed
  | _ => cases answer <;> cases resumed

end Tracker

namespace SandboxService

variable {s s' s₁ s₂ : SandboxService} {id : SandboxId} {c : SandboxCallId}

/-- What a step elsewhere keeps of a sandbox and of the call on it. -/
theorem keeps_elsewhere {a : SandboxStep} {phase : SandboxPhase} {status : Option SandboxStatus}
    (stepped : s.step a = some s') (elsewhere : Elsewhere id s a)
    (target : phase.target = some id) (held : s.status id = status ∧ s.calls c = some phase) :
    s'.status id = status ∧ s'.calls c = some phase := by
  obtain ⟨tracked, calling⟩ := held
  cases a with
  | call c' request =>
      simp only [step] at stepped
      split at stepped
      · cases stepped
      · rename_i fresh
        obtain rfl := Option.some.inj stepped
        refine ⟨(Tracker.enter_of_ne elsewhere).trans tracked, ?_⟩
        have other : c ≠ c' := by
          rintro rfl
          rw [calling] at fresh
          cases fresh
        exact (Function.update_of_ne other _ _).trans calling
  | answer c' answer =>
      obtain ⟨phase', calling', rest⟩ := Option.bind_eq_some_iff.mp stepped
      obtain ⟨⟨tracker, after⟩, resumed, done⟩ := Option.bind_eq_some_iff.mp rest
      obtain rfl := Option.some.inj done
      have away := elsewhere.1 phase' calling'
      refine ⟨(Tracker.resume_of_ne away elsewhere.2 resumed).trans tracked, ?_⟩
      have other : c ≠ c' := by
        rintro rfl
        obtain rfl := Option.some.inj (calling.symm.trans calling')
        exact away target
      exact (Function.update_of_ne other _ _).trans calling

theorem calls_execute {name : String} {input : Payload}
    (live : s.status id = some .ready ∨ s.status id = some .idle)
    (called : s.step (.call c (.execute id name input)) = some s₁) :
    s₁.status id = some .running ∧ s₁.calls c = some (.executing id name input) := by
  have moved : s.status.transition id .running = .ok (s.status.set id .running) := by
    have permitted : assertTransition (s.status.current id) .running id = .ok () := by
      rw [assertTransition_eq_ok]
      rcases live with live | live
      · simp [Tracker.current, live, allowedTransitions]
      · simp [Tracker.current, live, allowedTransitions]
    simp only [Tracker.transition, permitted]
  simp only [step] at called
  split at called
  · cases called
  · obtain rfl := Option.some.inj called
    simp [Tracker.enter, moved, Tracker.set]

/-- The verdict on an answer. -/
def verdict : BackendAnswer → SandboxStatus
  | .results r => if r.timedOut then .error else .idle
  | .raises e => if e.isException then .error else .running
  | _ => .running

theorem answers_execute {name : String} {input : Payload} (tracked : s.status id = some .running)
    (calling : s.calls c = some (.executing id name input))
    (outcome : Except DockerExn ToolResult) :
    ∃ s', s.step (.answer c (DockerBackend.answer outcome)) = some s' ∧
      s'.status id = some (verdict (DockerBackend.answer outcome)) := by
  have leave {next : SandboxStatus} {phase : SandboxPhase}
      (permitted : next = .running ∨ next ∈ allowedTransitions .running) :
      (s.status.leave id next phase).1 id = some next := by
    have current : s.status.current id = .running := by simp [Tracker.current, tracked]
    have moved : s.status.transition id next = .ok (s.status.set id next) := by
      simp only [Tracker.transition, current, assertTransition_eq_ok.mpr permitted]
    simp only [Tracker.leave, moved, Tracker.set, Function.update_self]
  have raises (e : Exn) : ∃ s', s.step (.answer c (.raises e)) = some s' ∧
      s'.status id = some (verdict (.raises e)) := by
    refine ⟨_, by simp only [step, calling]; rfl, ?_⟩
    dsimp only [verdict]
    split
    · exact leave (.inr (by decide))
    · exact tracked
  cases outcome with
  | ok r =>
      refine ⟨_, by simp only [step, calling, DockerBackend.answer]; rfl, ?_⟩
      dsimp only [verdict, DockerBackend.answer]
      split
      · exact leave (.inr (by decide))
      · exact leave (.inr (by decide))
  | error e =>
      cases e with
      | timeout m => exact raises (.timeoutError m)
      | other e => exact raises e

end SandboxService

section Backend

variable {σ : Type}

def BackendAnswer.raised : BackendAnswer → Bool
  | .raises _ => true
  | _ => false

namespace DockerBackend

/-- The wait for a tool ends by the timeout. A tool that is unknown, or has no container to
run in, is not waited for. -/
def exceeds (b : DockerBackend) (id : SandboxId) (name : String) : CallEnding → Bool
  | .exceeds _ => (getTool name).isSome && (b.containers id).isSome
  | _ => false

/-- What the backend answers to a call. -/
def answerTo (repr : String → String) (docker : DockerHandler σ) (b : DockerBackend)
    (id : SandboxId) (name : String) (input : Payload) (ending : CallEnding) (t : σ) :
    BackendAnswer :=
  answer ((b.execute repr id name input ending).run docker t).1

/-- The verdict that an answer deserves: an error if the backend raised or the tool exceeded
its time. -/
def deserved (b : DockerBackend) (id : SandboxId) (name : String) (ending : CallEnding)
    (answer : BackendAnswer) : SandboxStatus :=
  if answer.raised || b.exceeds id name ending then .error else .idle

variable (repr : String → String) (docker : DockerHandler σ) (b : DockerBackend)

/-- The kill comes to its end. -/
def Kills (docker : DockerHandler σ) (c : Container) (s : σ) : Prop :=
  ∀ e, (docker (.kill c) s).1 = .error e → e.isException = true

/-- The end of a call that the service reads as it is. -/
def Clear (id : SandboxId) (name : String) (input : Payload) (ending : CallEnding) (t : σ) :
    Prop :=
  match getTool name, b.containers id with
  | none, _ => ¬ Mentions name
  | some _, none => True
  | some tool, some c =>
      match ending with
      | .finishes => (toolEnd repr docker c tool input t).Clear
      -- Nothing cancels the kill.
      | .exceeds done => Kills docker c (((tool.call repr c input).firstOps done).run docker t).2
      | .cancelled _ => False

variable {repr docker b} {id : SandboxId} {name : String} {input : Payload} {t : σ}
variable {c : Container} {recipe : SandboxRecipe}

theorem run_safeKill (s : σ) : ((safeKill c).run docker s).1 =
    match (docker (.kill c) s).1 with
    | .ok _ => .ok ()
    | .error e => if e.isException then .ok () else .error e := by
  have killed : (kill c).run docker s = docker (.kill c) s :=
    Program.run_perform (DockerOp.kill c) s
  have caught := run_except docker (kill c) s
  rw [killed] at caught
  rw [safeKill, Program.monad_bind_eq, Program.run_bind, caught]
  rcases docker (.kill c) s with ⟨e | _, s'⟩
  · by_cases caught' : e.isException = true
    · simp [caught']
    · simp [caught']
  · rfl

/-- A timeout is reported where the kill comes to its end. -/
theorem run_timeOut (s : σ) : ((timeOut c name recipe).run docker s).1 =
    ((safeKill c).run docker s).1.map fun _ => failedResult (exceededTimeout name recipe) := by
  rw [timeOut, Program.monad_bind_eq, Program.run_bind]
  rcases (safeKill c).run docker s with ⟨e | _, s'⟩ <;> rfl

variable (docker c name recipe) in
/-- The end of a call that takes too long. -/
theorem answer_timeOut (s : σ) :
    (Kills docker c s ∧ answer ((timeOut c name recipe).run docker s).1 =
      .results (failedResult (exceededTimeout name recipe))) ∨
    ¬ Kills docker c s ∧ ∃ e, e.isException = false ∧
      answer ((timeOut c name recipe).run docker s).1 = .raises e := by
  rw [run_timeOut, run_safeKill]
  cases answered : (docker (.kill c) s).1 with
  | ok u =>
      refine .inl ⟨fun e raised => ?_, rfl⟩
      rw [answered] at raised
      cases raised
  | error e =>
      dsimp only
      cases caught : e.isException with
      | true =>
          refine .inl ⟨fun e' raised => ?_, rfl⟩
          obtain rfl := Except.error.inj (answered.symm.trans raised)
          exact caught
      | false =>
          refine .inr ⟨fun kills => ?_, ?_⟩
          · rw [kills e answered] at caught
            cases caught
          · cases e with
            | timeout m => cases caught
            | other e => exact ⟨e, caught, rfl⟩

theorem verdict_reported : SandboxService.verdict
    (.results (failedResult (exceededTimeout name recipe))) = .error :=
  if_pos (timedOut_failedResult.mpr (mentions_exceededTimeout name recipe))

theorem verdict_passed {e : Exn} (passes : e.isException = false) :
    SandboxService.verdict (.raises e) = .running :=
  if_neg (Bool.eq_false_iff.mp passes)

variable {tool : BuiltinTool} {ending : CallEnding}

theorem execute_unknown (unknown : getTool name = none) :
    b.execute repr id name input ending = .pure (failedResult (unknownTool name)) := by
  simp [execute, unknown]

theorem execute_untracked (known : getTool name = some tool) (gone : b.containers id = none) :
    b.execute repr id name input ending =
      .throw (.other (.other s!"unknown sandbox_id '{id}'")) := by
  simp [execute, known, gone]

variable (repr input ending) in
/-- A container that is tracked has a recipe. -/
theorem execute_tracked (known : getTool name = some tool) (held : b.containers id = some c) :
    ∃ recipe, b.execute repr id name input ending =
      await c name recipe (tool.call repr c input) ending := by
  have both := b.agree id
  rw [held, Option.isSome_some, eq_comm] at both
  obtain ⟨recipe, described⟩ := Option.isSome_iff_exists.mp both
  exact ⟨recipe, by simp [execute, known, held, described]⟩

variable (docker c name recipe) in
/-- The verdict on a tool that finishes. -/
theorem verdict_finishes (call : Docker ToolResult) (s : σ) (e : ToolEnd σ)
    (shows : e.Shows (call.run docker s)) :
    (SandboxService.verdict (answer ((await c name recipe call .finishes).run docker s).1) =
      if (answer ((await c name recipe call .finishes).run docker s).1).raised then .error
      else .idle) ↔ e.Clear := by
  have caught : call.attempt.run docker s = (.ok (call.run docker s).1, (call.run docker s).2) :=
    Program.run_attempt call s
  cases returned : call.run docker s with
  | mk outcome s' =>
      rw [returned] at caught shows
      rw [await, Program.monad_bind_eq, Program.run_bind_ok caught]
      cases e with
      | done s₁ =>
          obtain ⟨rfl, r, rfl, fine⟩ := shows
          refine iff_of_true ?_ trivial
          simp [answer, SandboxService.verdict, BackendAnswer.raised, fine]
      | quotes text =>
          obtain ⟨r, rfl, reads⟩ := shows
          simp [answer, SandboxService.verdict, BackendAnswer.raised, ToolEnd.Clear, ← reads]
      | raises e =>
          obtain rfl := shows
          cases e with
          | timeout m =>
              refine iff_of_false ?_ id
              simp only
              have ends := answer_timeOut docker name c recipe s'
              rcases ends with ⟨_, reports⟩ | ⟨_, x, passes, raises⟩
              · rw [reports, verdict_reported]
                simp [BackendAnswer.raised]
              · rw [raises, verdict_passed passes]
                simp [BackendAnswer.raised]
          | other e =>
              simp only
              rw [Program.run_settle, answer, BackendAnswer.raised, if_pos rfl, ToolEnd.Clear]
              cases fine : e.isException with
              | true => simp [SandboxService.verdict, fine]
              | false => simp [SandboxService.verdict, fine]

theorem verdict_deserved_iff :
    SandboxService.verdict (b.answerTo repr docker id name input ending t) =
        b.deserved id name ending (b.answerTo repr docker id name input ending t) ↔
      b.Clear repr docker id name input ending t := by
  unfold answerTo Clear deserved
  cases known : getTool name with
  | none =>
      rw [execute_unknown known, ← mentions_unknownTool, ← timedOut_failedResult]
      have short : b.exceeds id name ending = false := by
        cases ending <;> simp [exceeds, known]
      simp [short, answer, SandboxService.verdict, BackendAnswer.raised]
  | some tool =>
      cases held : b.containers id with
      | none =>
          rw [execute_untracked known held]
          exact iff_of_true rfl trivial
      | some c =>
          obtain ⟨recipe, awaits⟩ := execute_tracked repr input ending known held
          rw [awaits]
          cases ending with
          | finishes =>
              have ends := verdict_finishes docker name c recipe _ t _
                (shows_tool repr docker c tool input t)
              simpa only [exceeds, Bool.or_false] using ends
          | exceeds done =>
              have late : b.exceeds id name (.exceeds done) = true := by
                simp [exceeds, known, held]
              obtain ⟨s', left⟩ : ∃ s',
                  ((tool.call repr c input).firstOps done).run docker t = (.ok (), s') :=
                Program.run_firstOps done (tool.call repr c input) t
              have ran : (await c name recipe (tool.call repr c input) (.exceeds done)).run
                  docker t = (timeOut c name recipe).run docker s' := by
                rw [await, Program.monad_bind_eq, Program.run_bind_ok left]
              simp only [ran, left, late, Bool.or_true, if_true]
              have ends := answer_timeOut docker name c recipe s'
              rcases ends with ⟨kills, reports⟩ | ⟨hangs, x, passes, raises⟩
              · rw [reports, verdict_reported]
                exact iff_of_true rfl kills
              · rw [raises, verdict_passed passes]
                exact iff_of_false (by decide) hangs
          | cancelled done =>
              obtain ⟨s', left⟩ : ∃ s',
                  ((tool.call repr c input).firstOps done).run docker t = (.ok (), s') :=
                Program.run_firstOps done (tool.call repr c input) t
              have ran : (await c name recipe (tool.call repr c input) (.cancelled done)).run
                  docker t = (.error (.other .cancelledError), s') := by
                rw [await, Program.monad_bind_eq, Program.run_bind_ok left]
                rfl
              rw [ran]
              refine iff_of_false ?_ fun impossible => impossible
              simp [answer, SandboxService.verdict, BackendAnswer.raised, Exn.isException]

end DockerBackend

/-- A call on a live sandbox, with nothing else done to the sandbox meanwhile, leaves it in
`ERROR` if the backend raised or the tool exceeded its time and in `IDLE` otherwise, exactly
if the service can read the backend's end of the call. -/
theorem execute_verdict_iff (repr : String → String) (docker : DockerHandler σ)
    (b : DockerBackend) (t : σ) {s s₁ s₂ : SandboxService} {c : SandboxCallId} {id : SandboxId}
    {name : String} {input : Payload} (ending : CallEnding)
    (live : s.status id = some .ready ∨ s.status id = some .idle)
    (called : SandboxService.system.step s (.call c (.execute id name input)) = some s₁)
    (meanwhile : SandboxService.system.Reaches (Elsewhere id) s₁ s₂) :
    ∃ s₃, SandboxService.system.step s₂
        (.answer c (b.answerTo repr docker id name input ending t)) = some s₃ ∧
      (s₃.status id = some (b.deserved id name ending
          (b.answerTo repr docker id name input ending t)) ↔
        b.Clear repr docker id name input ending t) := by
  have running := meanwhile.preserves (SandboxService.calls_execute live called)
    fun u a u' held elsewhere stepped =>
      SandboxService.keeps_elsewhere stepped elsewhere rfl held
  obtain ⟨s₃, answered, settled⟩ := SandboxService.answers_execute running.1 running.2
    ((b.execute repr id name input ending).run docker t).1
  refine ⟨s₃, answered, ?_⟩
  rw [settled, Option.some_inj]
  exact DockerBackend.verdict_deserved_iff

end Backend

section Missing

/-- A docker whose commands all fail and print one text. -/
def failingDocker (stderr : String) : DockerHandler Unit
  | .execRun _ _, s => (.ok ⟨some 1, none, some (Utf8.encode stderr.toList)⟩, s)
  | .containersRun _, s => (.ok ⟨0, some "c1"⟩, s)
  | .putArchive .., s => (.ok true, s)
  | .uuid4, s => (.ok (0 : Nat), s)
  | .client, s | .imagesGet _, s | .imagesPull _, s | .kill _, s => (.ok (), s)

/-- A backend that tracks one sandbox. -/
def oneSandbox : DockerBackend :=
  DockerBackend.empty.track "c1" ⟨0, some "c1"⟩ .default

/-- A service that has provisioned it. -/
def provisionedOne : List SandboxStep :=
  [.call 0 (.provision .default), .answer 0 (.provisions "c1")]

def missingLog : Payload := [("path", .str "/tmp/timeout.log")]

/-- `cat` does not find a file, and the service takes its name for a timeout. -/
theorem missing_log_errs : ∃ s s₁ s₃,
    SandboxService.system.Reachable s ∧ s.status "c1" = some .ready ∧
    SandboxService.system.step s (.call 1 (.execute "c1" "file_read" missingLog)) = some s₁ ∧
    SandboxService.system.step s₁ (.answer 1 (oneSandbox.answerTo id
      (failingDocker "cat: /tmp/timeout.log: No such file or directory")
      "c1" "file_read" missingLog .finishes ())) = some s₃ ∧
    s₃.status "c1" = some .error ∧
    oneSandbox.deserved "c1" "file_read" .finishes (oneSandbox.answerTo id
      (failingDocker "cat: /tmp/timeout.log: No such file or directory")
      "c1" "file_read" missingLog .finishes ()) = .idle := by
  obtain ⟨s, ran, rest⟩ := Option.bind_eq_some_iff.mp (show
    ((SandboxService.system.run .empty provisionedOne).bind fun s =>
      (SandboxService.system.step s (.call 1 (.execute "c1" "file_read" missingLog))).bind fun s₁ =>
        (SandboxService.system.step s₁ (.answer 1 (oneSandbox.answerTo id
          (failingDocker "cat: /tmp/timeout.log: No such file or directory")
          "c1" "file_read" missingLog .finishes ()))).map fun s₃ =>
            (s.status "c1", s₃.status "c1")) = some (some .ready, some .error) by
      decide)
  obtain ⟨s₁, called, rest⟩ := Option.bind_eq_some_iff.mp rest
  obtain ⟨s₃, answered, both⟩ := Option.map_eq_some_iff.mp rest
  obtain ⟨ready, wrong⟩ := Prod.mk.inj both
  exact ⟨s, s₁, s₃, ⟨.empty, rfl, Transition.System.later_of_run ran⟩, ready, called, answered,
    wrong, by decide⟩

/-- A command fails, and the sandbox is idle. -/
theorem execute_verdict_iff_failing : ∃ s s₁ s₃,
    SandboxService.system.run .empty provisionedOne = some s ∧
    SandboxService.system.step s (.call 1 (.execute "c1" "bash" [("command", .str "false")])) =
      some s₁ ∧
    SandboxService.system.step s₁ (.answer 1 (oneSandbox.answerTo id (failingDocker "")
      "c1" "bash" [("command", .str "false")] .finishes ())) = some s₃ ∧
    s₃.status "c1" = some .idle := by
  obtain ⟨s, ran, rest⟩ := Option.bind_eq_some_iff.mp (show
    ((SandboxService.system.run .empty provisionedOne).bind fun s =>
      (SandboxService.system.step s
        (.call 1 (.execute "c1" "bash" [("command", .str "false")]))).map fun _ =>
          s.status "c1") = some (some .ready) by decide)
  obtain ⟨s₁, called, ready⟩ := Option.map_eq_some_iff.mp rest
  obtain ⟨s₃, answered, settled⟩ := execute_verdict_iff id (failingDocker "") oneSandbox ()
    .finishes (.inl ready) called .refl
  refine ⟨s, s₁, s₃, ran, called, answered, ?_⟩
  have deserved : oneSandbox.deserved "c1" "bash" .finishes (oneSandbox.answerTo id
      (failingDocker "") "c1" "bash" [("command", .str "false")] .finishes ()) = .idle := by
    decide
  rw [deserved] at settled
  have known : getTool "bash" = some .bash := by decide
  have held : oneSandbox.containers "c1" = some ⟨0, some "c1"⟩ := by decide
  have ends : toolEnd id (failingDocker "") ⟨0, some "c1"⟩ .bash
      [("command", .str "false")] () = .done () := by
    have command : (textInput [("command", .str "false")] "command").filter
        (fun command => strip command ≠ "") = some "false" := by decide
    simp only [toolEnd, command]
    rfl
  refine settled.mpr ?_
  simp only [DockerBackend.Clear, known, held, ends]
  trivial

end Missing

end Tename
