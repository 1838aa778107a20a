import Tename.Sandbox.Types
import Tename.Sessions.Models
import Tename.Transition.Basic

/-!
# The sandbox service

The tracker of one `Sandbox` service, and the calls in progress on it. A call runs
without interruption up to the await of its backend and from there to its end; between
the two any other call may run. What the backend answers is the label's choice.

`provision`, the end of `destroy` and `status` write the tracker without
`assert_transition`.
-/

namespace Tename

abbrev SandboxId := String
abbrev SandboxCallId := Nat

/-- The tracked status of each sandbox, if it has one. -/
abbrev Tracker := SandboxId → Option SandboxStatus

/-- A call on the service. -/
inductive SandboxRequest where
  | provision (recipe : SandboxRecipe)
  | execute (id : SandboxId) (tool : String) (input : Payload)
  | destroy (id : SandboxId)
  | status (id : SandboxId)

/-- What the backend answers. -/
inductive BackendAnswer where
  | provisions (id : SandboxId)
  | results (result : ToolResult)
  | destroyed
  | reports (view : SandboxStatus)
  | raises (error : Exn)

/-- Where a call stands: in its await, or at its end. -/
inductive SandboxPhase where
  | provisioning (recipe : SandboxRecipe)
  | executing (id : SandboxId) (tool : String) (input : Payload)
  | destroying (id : SandboxId) (tracked : Bool)
  /-- `status` has read the tracker before it asks. -/
  | asking (id : SandboxId) (tracked : Option SandboxStatus)
  | provisioned (id : SandboxId)
  | executed (result : ToolResult)
  | destroyed
  | reported (status : SandboxStatus)
  | raised (error : Exn)

namespace Tracker

variable (tracker : Tracker)

/-- `self._status.get(sandbox_id, SandboxStatus.READY)`. -/
def current (id : SandboxId) : SandboxStatus :=
  (tracker id).getD .ready

def set (id : SandboxId) (status : SandboxStatus) : Tracker :=
  Function.update tracker id (some status)

/-- `_transition`. -/
def transition (id : SandboxId) (next : SandboxStatus) : Except String Tracker :=
  match assertTransition (tracker.current id) next id with
  | .ok () => .ok (tracker.set id next)
  | .error m => .error m

/-- A call up to its await. -/
def enter : SandboxRequest → Tracker × SandboxPhase
  | .provision recipe => (tracker, .provisioning recipe)
  | .execute id tool input =>
      match tracker.transition id .running with
      | .ok tracker => (tracker, .executing id tool input)
      | .error m => (tracker, .raised (.runtimeError m))
  | .destroy id =>
      match tracker id with
      | none => (tracker, .destroying id false)
      | some current =>
          match assertTransition current .destroyed id with
          | .ok () => (tracker, .destroying id true)
          | .error m => (tracker, .raised (.runtimeError m))
  | .status id => (tracker, .asking id (tracker id))

/-- The end of `execute`: an `InvalidTransitionError` of its last transition takes the place
of what it would have returned or raised. -/
def leave (id : SandboxId) (next : SandboxStatus) (outcome : SandboxPhase) :
    Tracker × SandboxPhase :=
  match tracker.transition id next with
  | .ok tracker => (tracker, outcome)
  | .error m => (tracker, .raised (.runtimeError m))

/-- A call from its await to its end. -/
def resume : SandboxPhase → BackendAnswer → Option (Tracker × SandboxPhase)
  | .provisioning _, .provisions id => some (tracker.set id .ready, .provisioned id)
  | .provisioning _, .raises e => some (tracker, .raised e)
  | .executing id _ _, .results r =>
      some (tracker.leave id (if r.timedOut then .error else .idle) (.executed r))
  | .executing id _ _, .raises e =>
      some (if e.isException then tracker.leave id .error (.raised e) else (tracker, .raised e))
  | .destroying id tracked, .destroyed =>
      some (if tracked then tracker.set id .destroyed else tracker, .destroyed)
  | .destroying _ _, .raises e => some (tracker, .raised e)
  | .asking _ none, .reports view => some (tracker, .reported view)
  | .asking id (some tracked), .reports view =>
      -- The tracker may have moved on since it was read.
      if view = .destroyed ∨ view = .error then some (tracker.set id view, .reported view)
      else some (tracker, .reported tracked)
  | .asking _ _, .raises e => some (tracker, .raised e)
  | _, _ => none

end Tracker

/-- A service and its calls. -/
structure SandboxService where
  status : Tracker
  calls : SandboxCallId → Option SandboxPhase

inductive SandboxStep where
  | call (c : SandboxCallId) (request : SandboxRequest)
  | answer (c : SandboxCallId) (answer : BackendAnswer)

namespace SandboxService

/-- One label. A call id names one call for the whole run. -/
def step (s : SandboxService) : SandboxStep → Option SandboxService
  | .call c request =>
      match s.calls c with
      | some _ => none
      | none =>
          let (status, phase) := s.status.enter request
          some ⟨status, Function.update s.calls c (some phase)⟩
  | .answer c answer => do
      let phase ← s.calls c
      let (status, phase) ← s.status.resume phase answer
      return ⟨status, Function.update s.calls c (some phase)⟩

def empty : SandboxService := ⟨fun _ => none, fun _ => none⟩

/-- All histories of a new service. -/
def system : Transition.System SandboxService SandboxStep where
  initial s := s = empty
  step := step

end SandboxService

/-- A status changes to one that the table permits, and stays tracked. An id that is not
tracked counts as `READY`, as it does in `execute`. -/
def Follows (before after : Tracker) (id : SandboxId) : Prop :=
  match after id with
  | none => before id = none
  | some next => next = before.current id ∨ next ∈ allowedTransitions (before.current id)

/-- A provision does not answer an id that is in use, and a report of an error does not
come after the sandbox has been destroyed. -/
def Tracker.sound (tracker : Tracker) : SandboxPhase → BackendAnswer → Bool
  | .provisioning _, .provisions id =>
      tracker.current id = .ready ∨ tracker.current id = .provisioning
  | .asking id (some _), .reports view => view ≠ .error ∨ tracker.current id ≠ .destroyed
  | _, _ => true

def SandboxService.sound (s : SandboxService) : SandboxStep → Bool
  | .answer c answer =>
      match s.calls c with
      | some phase => s.status.sound phase answer
      | none => true
  | _ => true

section Tracker

variable {tracker tracker' : Tracker} {id : SandboxId} {next : SandboxStatus}

theorem follows_refl (tracker : Tracker) (id : SandboxId) : Follows tracker tracker id := by
  unfold Follows
  cases tracked : tracker id with
  | none => rfl
  | some status => exact .inl (by simp [Tracker.current, tracked])

theorem follows_set : (∀ id', Follows tracker (tracker.set id next) id') ↔
    next = tracker.current id ∨ next ∈ allowedTransitions (tracker.current id) := by
  constructor
  · intro follows
    simpa [Follows, Tracker.set] using follows id
  · intro permitted id'
    by_cases here : id' = id
    · subst here
      simpa [Follows, Tracker.set] using permitted
    · have kept := follows_refl tracker id'
      simpa [Follows, Tracker.set, here] using kept

theorem follows_transition (moved : tracker.transition id next = .ok tracker') (id' : SandboxId) :
    Follows tracker tracker' id' := by
  unfold Tracker.transition at moved
  split at moved
  · rename_i permitted
    obtain rfl := Except.ok.inj moved
    exact follows_set.mpr (assertTransition_eq_ok.mp permitted) id'
  · cases moved

theorem follows_leave {outcome : SandboxPhase} (id' : SandboxId) :
    Follows tracker (tracker.leave id next outcome).1 id' := by
  unfold Tracker.leave
  cases moved : tracker.transition id next with
  | ok tracker' => exact follows_transition moved id'
  | error m => exact follows_refl tracker id'

/-- Up to its await, a call changes the tracker through the check only. -/
theorem follows_enter (request : SandboxRequest) (id' : SandboxId) :
    Follows tracker (tracker.enter request).1 id' := by
  cases request with
  | provision recipe => exact follows_refl tracker id'
  | status id => exact follows_refl tracker id'
  | execute id tool input =>
      simp only [Tracker.enter]
      cases moved : tracker.transition id .running with
      | ok tracker' => exact follows_transition moved id'
      | error m => exact follows_refl tracker id'
  | destroy id =>
      simp only [Tracker.enter]
      split
      · exact follows_refl tracker id'
      · split
        · exact follows_refl tracker id'
        · exact follows_refl tracker id'

/-- From its await on, a call follows the table exactly if the answer is sound. -/
theorem follows_resume {phase phase' : SandboxPhase} {answer : BackendAnswer}
    (resumed : tracker.resume phase answer = some (tracker', phase')) :
    (∀ id', Follows tracker tracker' id') ↔ tracker.sound phase answer = true := by
  have unchanged : tracker' = tracker → (∀ id', Follows tracker tracker' id') := by
    rintro rfl
    exact follows_refl tracker'
  cases phase with
  | provisioning recipe =>
      cases answer with
      | provisions id =>
          obtain ⟨rfl, rfl⟩ := Prod.mk.inj (Option.some.inj resumed)
          rw [follows_set]
          simp only [Tracker.sound]
          cases tracker.current id <;> decide
      | raises e =>
          obtain ⟨rfl, rfl⟩ := Prod.mk.inj (Option.some.inj resumed)
          exact iff_of_true (unchanged rfl) rfl
      | _ => cases resumed
  | executing id tool input =>
      cases answer with
      | results r =>
          refine iff_of_true (fun id' => ?_) rfl
          rw [← show _ = tracker' from congrArg Prod.fst (Option.some.inj resumed)]
          exact follows_leave id'
      | raises e =>
          refine iff_of_true (fun id' => ?_) rfl
          rw [← show _ = tracker' from congrArg Prod.fst (Option.some.inj resumed)]
          split
          · exact follows_leave id'
          · exact follows_refl tracker id'
      | _ => cases resumed
  | destroying id tracked =>
      cases answer with
      | destroyed =>
          refine iff_of_true (fun id' => ?_) rfl
          rw [← show _ = tracker' from congrArg Prod.fst (Option.some.inj resumed)]
          cases tracked with
          | false => exact follows_refl tracker id'
          | true => exact follows_set.mpr (destroyed_follows _) id'
      | raises e =>
          obtain ⟨rfl, rfl⟩ := Prod.mk.inj (Option.some.inj resumed)
          exact iff_of_true (unchanged rfl) rfl
      | _ => cases resumed
  | asking id tracked =>
      cases answer with
      | reports view =>
          cases tracked with
          | none =>
              obtain ⟨rfl, rfl⟩ := Prod.mk.inj (Option.some.inj resumed)
              exact iff_of_true (unchanged rfl) rfl
          | some tracked =>
              simp only [Tracker.resume] at resumed
              split at resumed
              · obtain ⟨rfl, rfl⟩ := Prod.mk.inj (Option.some.inj resumed)
                rename_i gone
                rw [follows_set]
                simp only [Tracker.sound]
                rcases gone with rfl | rfl
                · exact iff_of_true (destroyed_follows _) rfl
                · cases tracker.current id <;> decide
              · rename_i lives
                obtain ⟨rfl, rfl⟩ := Prod.mk.inj (Option.some.inj resumed)
                refine iff_of_true (unchanged rfl) ?_
                simp [Tracker.sound, (not_or.mp lives).2]
      | raises e =>
          cases tracked <;> obtain ⟨rfl, rfl⟩ := Prod.mk.inj (Option.some.inj resumed)
          · exact iff_of_true (unchanged rfl) rfl
          · exact iff_of_true (unchanged rfl) rfl
      | _ => cases tracked <;> cases resumed
  | _ => cases answer <;> cases resumed

/-- What the table makes of the two last states. -/
theorem Follows.settled (h : Follows tracker tracker' id) :
    (tracker id = some .destroyed → tracker' id = some .destroyed) ∧
    (tracker id = some .error → tracker' id = some .error ∨ tracker' id = some .destroyed) := by
  unfold Follows at h
  cases after : tracker' id with
  | none =>
      rw [after] at h
      simp [show tracker id = none from h]
  | some next =>
      rw [after] at h
      constructor
      · intro before
        simp only [Tracker.current, before, Option.getD_some] at h
        rcases h with rfl | impossible
        · rfl
        · cases impossible
      · intro before
        simp only [Tracker.current, before, Option.getD_some] at h
        rcases h with rfl | permitted
        · exact .inl rfl
        · exact .inr (congrArg some (List.mem_singleton.mp permitted))

end Tracker

namespace SandboxService

variable {s s' : SandboxService}

theorem follows_step {a : SandboxStep} (stepped : s.step a = some s') :
    (∀ id, Follows s.status s'.status id) ↔ s.sound a = true := by
  cases a with
  | call c request =>
      refine iff_of_true (fun id => ?_) rfl
      simp only [step] at stepped
      split at stepped
      · cases stepped
      · obtain rfl := Option.some.inj stepped
        exact follows_enter request id
  | answer c answer =>
      obtain ⟨phase, running, rest⟩ := Option.bind_eq_some_iff.mp stepped
      obtain ⟨⟨tracker', phase'⟩, resumed, done⟩ := Option.bind_eq_some_iff.mp rest
      obtain rfl := Option.some.inj done
      rw [follows_resume resumed]
      simp only [sound, running]

/-- A step changes the tracker by the table exactly if it is sound; in a run of sound steps
`DESTROYED` is never left, and `ERROR` is left for `DESTROYED` only. -/
theorem tracker_follows (s : SandboxService) :
    (∀ a s', system.step s a = some s' →
      ((∀ id, Follows s.status s'.status id) ↔ s.sound a = true)) ∧
    ∀ s', system.Reaches (fun s a => s.sound a = true) s s' → ∀ id,
      (s.status id = some .destroyed → s'.status id = some .destroyed) ∧
      (s.status id = some .error →
        s'.status id = some .error ∨ s'.status id = some .destroyed) := by
  refine ⟨fun a s' => follows_step, fun s' reaches id => ?_⟩
  refine reaches.relates (R := fun s s' =>
    (s.status id = some .destroyed → s'.status id = some .destroyed) ∧
    (s.status id = some .error → s'.status id = some .error ∨ s'.status id = some .destroyed))
    (fun s => ⟨fun gone => gone, .inl⟩) ?_ ?_
  · rintro s t u ⟨first, first'⟩ ⟨second, second'⟩
    refine ⟨second ∘ first, fun errs => ?_⟩
    rcases first' errs with errs | gone
    · exact second' errs
    · exact .inr (second gone)
  · intro s a s' sound stepped
    exact ((follows_step stepped).mpr sound id).settled

section Paused

/-- Call `1` asks for the status of a sandbox, and call `2` destroys it in the meantime. -/
def destroyedWhileAsked : List SandboxStep :=
  [.call 0 (.provision .default), .answer 0 (.provisions "c1"), .call 1 (.status "c1"),
    .call 2 (.destroy "c1"), .answer 2 .destroyed]

/-- The container was paused when it was looked at: the destroyed sandbox is now in error. -/
theorem destroyed_left : ∃ s s', system.Reachable s ∧
    system.step s (.answer 1 (.reports (statusFromContainer (some "paused")))) = some s' ∧
    s.status "c1" = some .destroyed ∧ s'.status "c1" = some .error ∧
    ¬Follows s.status s'.status "c1" := by
  obtain ⟨s, ran, rest⟩ := Option.bind_eq_some_iff.mp (show
    ((system.run empty destroyedWhileAsked).bind fun s =>
      (system.step s (.answer 1 (.reports (statusFromContainer (some "paused"))))).map fun s' =>
        (s.status "c1", s'.status "c1")) = some (some .destroyed, some .error) by decide)
  obtain ⟨s', stepped, both⟩ := Option.map_eq_some_iff.mp rest
  obtain ⟨gone, wrong⟩ := Prod.mk.inj both
  refine ⟨s, s', ⟨empty, rfl, Transition.System.later_of_run ran⟩, stepped, gone, wrong, ?_⟩
  intro follows
  rw [follows.settled.1 gone] at wrong
  cases wrong

/-- A tool runs out of time, and the sandbox is destroyed from `ERROR`. -/
theorem tracker_follows_timeout : ∃ s s',
    system.run empty [.call 0 (.provision .default), .answer 0 (.provisions "c1"),
      .call 1 (.execute "c1" "bash" []),
      .answer 1 (.results ⟨true, "", "", "", none, some "tool 'bash' exceeded 600s timeout"⟩)] =
        some s ∧
    system.runIf sound s [.call 2 (.destroy "c1"), .answer 2 .destroyed] = some s' ∧
    s.status "c1" = some .error ∧
    (s'.status "c1" = some .error ∨ s'.status "c1" = some .destroyed) := by
  obtain ⟨s, ran, rest⟩ := Option.bind_eq_some_iff.mp (show
    ((system.run empty [.call 0 (.provision .default), .answer 0 (.provisions "c1"),
        .call 1 (.execute "c1" "bash" []), .answer 1 (.results
          ⟨true, "", "", "", none, some "tool 'bash' exceeded 600s timeout"⟩)]).bind fun s =>
      (system.runIf sound s [.call 2 (.destroy "c1"), .answer 2 .destroyed]).map fun _ =>
        s.status "c1") = some (some .error) by decide)
  obtain ⟨s', ran', failed⟩ := Option.map_eq_some_iff.mp rest
  exact ⟨s, s', ran, ran', failed, ((tracker_follows s).2 s'
    (Transition.System.reaches_of_runIf ran') "c1").2 failed⟩

end Paused

end SandboxService

end Tename
