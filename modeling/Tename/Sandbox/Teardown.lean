import Tename.Sandbox.Docker

/-!
# Teardown, and the service over docker

The end of a container and the look at it, as the docker backend asks for them, and the calls of
a sandbox service whose backend is docker. `Sandbox.destroy` leaves no entry, whatever docker
makes of the stop and the removal; a status is live only if there is an entry.
-/

namespace Tename

/-- What is asked of docker about a container that is there. -/
inductive LifeOp where
  /-- With a timeout of 5 seconds. -/
  | stop (container : Container)
  /-- By force. -/
  | remove (container : Container)
  | reload (container : Container)

/-- A reload answers the state of the container, `"unknown"` if it has none. -/
def LifeOp.Res : LifeOp → Type
  | .stop _ => Unit
  | .remove _ => Unit
  | .reload _ => String

abbrev Lifecycle (α : Type) := Program LifeOp LifeOp.Res DockerExn α

abbrev LifeHandler (σ : Type) := Program.Handler LifeOp LifeOp.Res DockerExn σ

/-- `with contextlib.suppress(Exception)`, as the outcome of its body. -/
def suppressed : Except DockerExn Unit → Except DockerExn Unit
  | .ok () => .ok ()
  | .error e => if e.isException then .ok () else .error e

def suppress (body : Lifecycle Unit) : Lifecycle Unit :=
  body.attempt.bind fun outcome => Program.settle (suppressed outcome)

/-- `_safe_destroy`. -/
def safeDestroy (c : Container) : Lifecycle Unit := do
  suppress (Program.perform (LifeOp.stop c))
  suppress (Program.perform (LifeOp.remove c))

/-- The status of a container, by the outcome of its reload. -/
def reloaded : Except DockerExn String → Except DockerExn SandboxStatus
  | .ok state => .ok (statusFromContainer (some state))
  | .error e => if e.isException then .ok (statusFromContainer none) else .error e

/-- `_status_from_container`. -/
def containerStatus (c : Container) : Lifecycle SandboxStatus :=
  (Program.perform (LifeOp.reload c)).attempt.bind fun outcome => Program.settle (reloaded outcome)

def DockerExn.exn : DockerExn → Exn
  | .timeout m => .timeoutError m
  | .other e => e

namespace DockerBackend

variable (b : DockerBackend)

/-- `pop` from both dictionaries. -/
def untrack (id : SandboxId) : DockerBackend where
  containers := Function.update b.containers id none
  recipes := Function.update b.recipes id none
  agree id' := by
    by_cases here : id' = id
    · simp [here]
    · simpa [here] using b.agree id'

/-- The thread of `DockerBackend.destroy`, for the entry that has been popped. -/
def destroy (id : SandboxId) : Lifecycle Unit :=
  match b.containers id with
  | none => .pure ()
  | some c => safeDestroy c

/-- `DockerBackend.status`. -/
def status (id : SandboxId) : Lifecycle SandboxStatus :=
  match b.containers id with
  | none => .pure .destroyed
  | some c => containerStatus c

end DockerBackend

/-- What the service sees of a destruction. -/
def destroyAnswer : Except DockerExn Unit → BackendAnswer
  | .ok () => .destroyed
  | .error e => .raises e.exn

/-- What the service sees of a status. -/
def statusAnswer : Except DockerExn SandboxStatus → BackendAnswer
  | .ok view => .reports view
  | .error e => .raises e.exn

section Running

open Program (Performs)

variable {σ : Type} {life : LifeHandler σ} {c : Container} {d d' : σ} {ops : List LifeOp}
variable {b : DockerBackend} {id : SandboxId}

/-- A status looks at the container of the entry, and without one it is `DESTROYED`. -/
theorem performs_status {out : Except DockerExn SandboxStatus}
    (ran : Performs life (b.status id) d ops out d') :
    b.containers id = none ∧ ops = [] ∧ out = .ok .destroyed ∨
      ∃ c, b.containers id = some c ∧ ops = [.reload c] := by
  unfold DockerBackend.status at ran
  split at ran
  · rename_i absent
    obtain ⟨rfl, -⟩ := Prod.mk.inj (ran.outcome.symm.trans Performs.pure.outcome)
    exact .inl ⟨absent, ran.operations.symm, rfl⟩
  · rename_i c there
    refine .inr ⟨c, there, ?_⟩
    have asked : Performs life (Program.perform (LifeOp.reload c)) d [.reload c] _ _ := .perform rfl
    have looked : Performs life (containerStatus c) d [.reload c] _ _ :=
      asked.attempt.bind_silent .settle
    exact ran.operations.symm.trans looked.operations

end Running

/-- The sandbox that a call is about. -/
def SandboxRequest.sandbox? : SandboxRequest → Option SandboxId
  | .provision _ => none
  | .execute id _ _ | .destroy id | .status id => some id

/-- A service, its backend and docker. -/
structure SandboxStack (σ : Type) where
  tracker : Tracker
  backend : DockerBackend
  daemon : σ

section Stack

variable {σ : Type} (repr : String → String) (docker : DockerHandler σ) (life : LifeHandler σ)

/-- Whether a provision is cancelled, and how the wait for a tool ends. -/
structure CallFate where
  cancelled : Bool
  ending : CallEnding

/-- What the backend asks of docker about a container that is there, what it answers, and the
entries and the state of docker that it leaves. -/
def DockerBackend.reply (b : DockerBackend) (d : σ) (fate : CallFate) :
    SandboxRequest → List LifeOp × BackendAnswer × DockerBackend × σ
  | .provision recipe =>
      match (b.provision repr recipe fate.cancelled).run docker d with
      | (.ok (id, b'), d') => ([], .provisions id, b', d')
      | (.error e, d') => ([], .raises e.exn, b, d')
  | .execute id tool input =>
      let (out, d') := (b.execute repr id tool input fate.ending).run docker d
      ([], answer out, b, d')
  | .destroy id =>
      -- The entry is popped before the thread is awaited.
      let (out, d') := (b.destroy id).run life d
      ((b.destroy id).trace life d, destroyAnswer out, b.untrack id, d')
  | .status id =>
      let (out, d') := (b.status id).run life d
      ((b.status id).trace life d, statusAnswer out, b, d')

/-- A call of the service from its beginning to its end: what is asked of docker about a container
that is there, the end of the call, and what it leaves. -/
def SandboxStack.call (s : SandboxStack σ) (fate : CallFate) (q : SandboxRequest) :
    Option (List LifeOp × SandboxPhase × SandboxStack σ) :=
  match s.tracker.enter q with
  | (t, .raised e) => some ([], .raised e, ⟨t, s.backend, s.daemon⟩)
  | (t, phase) =>
      let (ops, answer, b, d) := s.backend.reply repr docker life s.daemon fate q
      (t.resume phase answer).map fun (t', phase') => (ops, phase', ⟨t', b, d⟩)

namespace SandboxStack

/-- The two stacks agree on a sandbox. -/
structure SameAt (s s' : SandboxStack σ) (id : SandboxId) : Prop where
  tracker : s'.tracker id = s.tracker id
  container : s'.backend.containers id = s.backend.containers id

/-- The backend has no entry for the sandbox, and the service knows of nothing but its end. -/
structure Gone (s : SandboxStack σ) (id : SandboxId) : Prop where
  untracked : s.backend.containers id = none
  ended : (s.tracker id).getD .destroyed = .destroyed

theorem SameAt.gone {s s' : SandboxStack σ} {id : SandboxId} (same : s.SameAt s' id)
    (h : s.Gone id) : s'.Gone id :=
  ⟨same.container.trans h.untracked, by rw [same.tracker, h.ended]⟩

variable {repr docker life} {s s' : SandboxStack σ} {id : SandboxId} {ops : List LifeOp}
variable {fate : CallFate} {phase : SandboxPhase}

/-- A provision that returns has tracked the container of its id. -/
theorem track_of_provision {b b' : DockerBackend} {recipe : SandboxRecipe} {cancelled : Bool}
    {d d' : σ} (ran : (b.provision repr recipe cancelled).run docker d = (.ok (id, b'), d')) :
    ∃ c, b' = b.track id c recipe := by
  rw [DockerBackend.provision, Program.monad_bind_eq, Program.run_bind, Program.run_attempt] at ran
  dsimp only at ran
  split at ran
  · cases ran
  · generalize ((provisionSync repr recipe).run docker d).1 = outcome at ran
    cases outcome with
    | error e => cases ran
    | ok c =>
        cases shortened : shortId c.id with
        | error e =>
            simp only [Program.monad_bind_eq, Program.settle, Program.pure_bind', shortened] at ran
            cases ran
        | ok id' =>
            simp only [Program.monad_bind_eq, Program.settle, Program.pure_bind', shortened] at ran
            cases ran
            exact ⟨c, rfl⟩

/-- A provision keeps all entries and makes the one it answers. -/
theorem call_provision {recipe : SandboxRecipe}
    (h : s.call repr docker life fate (.provision recipe) = some (ops, phase, s')) : ops = [] ∧
      (∀ id, (s.backend.containers id).isSome → (s'.backend.containers id).isSome) ∧
      ∀ id, phase = .provisioned id → (s'.backend.containers id).isSome := by
  simp only [call, Tracker.enter, DockerBackend.reply] at h
  split at h
  · rename_i new b' d' ran
    cases h
    obtain ⟨c, rfl⟩ := track_of_provision ran
    refine ⟨rfl, fun id there => ?_, ?_⟩
    · by_cases here : id = new
      · simp [DockerBackend.track, here]
      · simpa [DockerBackend.track, here] using there
    · rintro id ⟨⟩
      simp [DockerBackend.track]
  · cases h
    exact ⟨rfl, fun _ there => there, by rintro id ⟨⟩⟩

/-- A tool leaves the entries alone. -/
theorem call_execute {tool : String} {input : Payload}
    (h : s.call repr docker life fate (.execute id tool input) = some (ops, phase, s')) :
    ops = [] ∧ s'.backend = s.backend := by
  unfold call at h
  split at h
  · cases h
    exact ⟨rfl, rfl⟩
  · obtain ⟨_, _, same⟩ := Option.map_eq_some_iff.mp h
    cases same
    exact ⟨rfl, rfl⟩

/-- A status leaves the entries alone, and without one it is `DESTROYED`. -/
theorem call_status (h : s.call repr docker life fate (.status id) = some (ops, phase, s')) :
    s'.backend = s.backend ∧ (∀ o ∈ ops, ∃ c, o = .reload c) ∧
      ∀ status, phase = .reported status → status ≠ .destroyed →
        (s.backend.containers id).isSome := by
  obtain ⟨⟨t, phase'⟩, resumed, same⟩ := Option.map_eq_some_iff.mp h
  cases same
  refine ⟨rfl, ?_⟩
  rcases performs_status ⟨rfl, rfl⟩ with ⟨absent, nothing, view⟩ | ⟨c, there, looks⟩
  · refine ⟨by rw [nothing]; rintro o ⟨⟩, fun status reported other => ?_⟩
    subst reported
    rw [view] at resumed
    cases tracked : s.tracker id with
    | none =>
        rw [tracked] at resumed
        cases resumed
        exact absurd rfl other
    | some before =>
        rw [tracked] at resumed
        cases resumed
        exact absurd rfl other
  · rw [looks, there]
    exact ⟨fun o mem => ⟨c, List.mem_singleton.mp mem⟩, fun _ _ _ => rfl⟩

end SandboxStack

end Stack

end Tename
