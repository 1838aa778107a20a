import Tename.Sandbox.Docker

/-!
# Provisioning

A container runs from `containers.run` on, and is tracked when everything after that has
succeeded. So a call that raises in between leaves its container running, and nobody knows
its id.
-/

namespace Tename

open Docker

/-- The state of docker, and the containers that run in it. -/
structure Daemon (σ : Type) where
  env : σ
  running : List Container

variable {σ : Type}

/-- Only `containers.run` starts a container, and only `kill` stops one. -/
def Daemon.handle (docker : DockerHandler σ) : DockerHandler (Daemon σ)
  | .containersRun options, d =>
      let started : Except DockerExn Container × σ := docker (.containersRun options) d.env
      match started with
      | (.ok c, s) => (.ok c, ⟨s, c :: d.running⟩)
      | (.error e, s) => (.error e, ⟨s, d.running⟩)
  | .kill c, d =>
      match docker (.kill c) d.env with
      | (.ok _, s) => (.ok (), ⟨s, d.running.erase c⟩)
      | (.error e, s) => (.error e, ⟨s, d.running⟩)
  | o, d => ((docker o d.env).1, ⟨(docker o d.env).2, d.running⟩)

/-- A provision: what it returns or raises, and the backend and the daemon after it. -/
def DockerBackend.provisioned (repr : String → String) (docker : DockerHandler σ)
    (b : DockerBackend) (d : Daemon σ) (recipe : SandboxRecipe) (cancelled : Bool) :
    Except DockerExn SandboxId × DockerBackend × Daemon σ :=
  match (b.provision repr recipe cancelled).run (Daemon.handle docker) d with
  | (.ok (id, b'), d') => (.ok id, b', d')
  | (.error e, d') => (.error e, b, d')

/-- A provision that returns has started one container and tracks it under the id; one that
raises has left everything as it was. -/
def AllOrNothing (b : DockerBackend) (d : Daemon σ) (recipe : SandboxRecipe) :
    Except DockerExn SandboxId × DockerBackend × Daemon σ → Prop
  | (.ok id, b', d') => ∃ c, b' = b.track id c recipe ∧ d'.running = c :: d.running
  | (.error _, b', d') => b' = b ∧ d'.running = d.running

section Answers

variable {τ : Type} (docker : DockerHandler τ)

/-- Docker starts a container: it has the image, or pulls it. -/
def Starts (recipe : SandboxRecipe) (s : τ) (c : Container) (s' : τ) : Prop :=
  ∃ s₁ s₂, docker .client s = (.ok (), s₁) ∧
    (docker (.imagesGet recipe.runtime) s₁ = (.ok (), s₂) ∨
      ∃ e t, e.isException = true ∧ docker (.imagesGet recipe.runtime) s₁ = (.error e, t) ∧
        docker (.imagesPull recipe.runtime) t = (.ok (), s₂)) ∧
    docker (.containersRun (runOptions recipe)) s₂ = (.ok c, s')

variable (c : Container)

/-- Docker takes a file: its path names a file, its directory can be made, and the archive is
accepted. -/
def TakesFile (path content : String) (s s' : τ) : Prop :=
  NamesFile path ∧ ∃ out s₁,
    docker (.execRun c ["mkdir", "-p", (uploadTarget path).1]) s = (.ok out, s₁) ∧
    out.ran.exitCode = 0 ∧
    docker (.putArchive c (uploadTarget path).1
      ⟨(uploadTarget path).2, Utf8.encode content.toList⟩) s₁ = (.ok true, s')

/-- Docker takes the files one after the other. -/
inductive TakesFiles : List (String × String) → τ → τ → Prop
  | nil (s : τ) : TakesFiles [] s s
  | cons {path content : String} {files : List (String × String)} {s s₁ s' : τ}
      (first : TakesFile docker c path content s s₁) (rest : TakesFiles files s₁ s') :
      TakesFiles ((path, content) :: files) s s'

/-- Docker does all that a new container needs: the commands run, whatever their exit codes,
and the files are taken. -/
def SetsUp (recipe : SandboxRecipe) (s : τ) : Prop :=
  ∃ out s₁ s₂, docker (.execRun c ["mkdir", "-p", "/workspace"]) s = (.ok out, s₁) ∧
    TakesFiles docker c recipe.files s₁ s₂ ∧
    (Installs recipe → ∃ out s₃, docker (.execRun c
      (["pip", "install", "--no-cache-dir", "--quiet"] ++ recipe.packages)) s₂ = (.ok out, s₃))

/-- The container has an id. -/
def Container.HasId (c : Container) : Prop :=
  ∃ full, c.id = some full ∧ full ≠ ""

/-- If a container is started, then the call is not cancelled, the container has an id, and
docker does all that it needs. -/
def Completes (recipe : SandboxRecipe) (cancelled : Bool) (s : τ) : Prop :=
  ∀ c s', Starts docker recipe s c s' →
    cancelled = false ∧ c.HasId ∧ SetsUp docker c recipe s'

end Answers

section Running

variable {τ : Type} {docker : DockerHandler τ} {c : Container} {s s' : τ}
variable {repr : String → String} {recipe : SandboxRecipe}

theorem run_perform_eq (o : DockerOp) (s : τ) : (perform o).run docker s = docker o s :=
  Program.run_perform o s

theorem run_runExec_ok_iff {cmd : List String} {ran : RanCommand} :
    (runExec c cmd).run docker s = (.ok ran, s') ↔
      ∃ out, docker (.execRun c cmd) s = (.ok out, s') ∧ out.ran = ran := by
  rw [run_runExec]
  rcases docker (.execRun c cmd) s with ⟨e | out, t⟩
  · simp [Except.map]
  · simp only [Except.map, Prod.mk.injEq, Except.ok.injEq]
    constructor
    · rintro ⟨rfl, rfl⟩
      exact ⟨out, ⟨rfl, rfl⟩, rfl⟩
    · rintro ⟨_, ⟨rfl, rfl⟩, rfl⟩
      exact ⟨rfl, rfl⟩

theorem run_putFile_iff {path content : String} :
    (putFile repr c path content).run docker s = (.ok (), s') ↔
      TakesFile docker c path content s s' := by
  constructor
  · intro returned
    have uploads := uploads_putFile repr docker c path content s
    rw [returned] at uploads
    generalize kept : (Except.ok () : Except DockerExn Unit) = outcome at uploads
    cases uploads with
    | refused => cases kept
    | unmade => cases kept
    | failed => cases kept
    | @put out s₁ s₂ stored names made code put =>
        cases stored with
        | error e => cases kept
        | ok ok =>
            cases ok with
            | false => cases kept
            | true => exact ⟨names, out, s₁, made, code, put⟩
  · rintro ⟨names, out, s₁, made, code, put⟩
    rw [putFile_of_names repr c names, upload]
    refine Program.run_bind_ok_iff.mpr
      ⟨out.ran, s₁, run_runExec_ok_iff.mpr ⟨out, made, rfl⟩, ?_⟩
    rw [if_neg (not_not_intro code)]
    refine Program.run_bind_ok_iff.mpr ⟨true, s', ?_, rfl⟩
    exact (run_putArchive docker c _ _ _).trans put

theorem run_uploads_iff (files : List (String × String)) :
    (Program.forEach files fun (path, content) => putFile repr c path content).run docker s =
      (.ok (), s') ↔ TakesFiles docker c files s s' := by
  induction files generalizing s with
  | nil =>
      constructor
      · intro returned
        obtain rfl := congrArg Prod.snd returned
        exact .nil _
      · intro takes
        cases takes with
        | nil => rfl
  | cons file files ih =>
      obtain ⟨path, content⟩ := file
      rw [Program.forEach_cons, Program.run_bind_ok_iff]
      constructor
      · rintro ⟨_, s₁, first, rest⟩
        exact .cons (run_putFile_iff.mp first) (ih.mp rest)
      · intro takes
        cases takes with
        | cons first rest => exact ⟨(), _, run_putFile_iff.mpr first, ih.mpr rest⟩

theorem run_installPackages_iff : (∃ s', (installPackages c recipe).run docker s = (.ok (), s')) ↔
    (Installs recipe → ∃ out s₁, docker (.execRun c
      (["pip", "install", "--no-cache-dir", "--quiet"] ++ recipe.packages)) s = (.ok out, s₁)) := by
  unfold installPackages
  by_cases installs : Installs recipe
  · rw [if_pos installs]
    refine Iff.trans ?_ (forall_prop_of_true installs).symm
    constructor
    · rintro ⟨s', returned⟩
      obtain ⟨ran, s₁, first, _⟩ := Program.run_bind_ok_iff.mp returned
      obtain ⟨out, answered, _⟩ := run_runExec_ok_iff.mp first
      exact ⟨out, s₁, answered⟩
    · rintro ⟨out, s₁, answered⟩
      exact ⟨s₁, Program.run_bind_ok_iff.mpr
        ⟨out.ran, s₁, run_runExec_ok_iff.mpr ⟨out, answered, rfl⟩, rfl⟩⟩
  · rw [if_neg installs]
    exact iff_of_true ⟨s, rfl⟩ fun installs' => absurd installs' installs

variable (repr) in
theorem run_setUp_iff :
    (∃ s', (setUp repr c recipe).run docker s = (.ok (), s')) ↔ SetsUp docker c recipe s := by
  constructor
  · rintro ⟨s', returned⟩
    obtain ⟨ran, s₁, first, rest⟩ := Program.run_bind_ok_iff.mp returned
    obtain ⟨out, made, _⟩ := run_runExec_ok_iff.mp first
    obtain ⟨_, s₂, uploaded, last⟩ := Program.run_bind_ok_iff.mp rest
    exact ⟨out, s₁, s₂, made, (run_uploads_iff _).mp uploaded,
      run_installPackages_iff.mp ⟨s', last⟩⟩
  · rintro ⟨out, s₁, s₂, made, takes, installs⟩
    obtain ⟨s', last⟩ := run_installPackages_iff.mpr installs
    exact ⟨s', Program.run_bind_ok_iff.mpr
      ⟨out.ran, s₁, run_runExec_ok_iff.mpr ⟨out, made, rfl⟩,
        Program.run_bind_ok_iff.mpr ⟨(), s₂, (run_uploads_iff _).mpr takes, last⟩⟩⟩

theorem run_ensureImage_iff {image : String} :
    (ensureImage image).run docker s = (.ok (), s') ↔
      docker (.imagesGet image) s = (.ok (), s') ∨
        ∃ e t, e.isException = true ∧ docker (.imagesGet image) s = (.error e, t) ∧
          docker (.imagesPull image) t = (.ok (), s') := by
  have got : (imagesGet image).run docker s = docker (.imagesGet image) s := run_perform_eq _ s
  have caught := run_except docker (imagesGet image) s
  rw [got] at caught
  rw [ensureImage, Program.monad_bind_eq, Program.run_bind, caught]
  rcases docker (.imagesGet image) s with ⟨e | u, t⟩
  · by_cases exception : e.isException = true
    · simp only [exception, if_true]
      rw [show (imagesPull image).run docker t = docker (.imagesPull image) t from
        run_perform_eq _ t]
      constructor
      · intro pulled
        exact .inr ⟨e, t, exception, rfl, pulled⟩
      · rintro (got | ⟨_, _, _, got, pulled⟩)
        · cases got
        · obtain ⟨_, rfl⟩ := Prod.mk.inj got
          exact pulled
    · simp only [exception]
      refine iff_of_false (fun raised => by cases raised) ?_
      rintro (got | ⟨e', _, exception', got, _⟩)
      · cases got
      · obtain ⟨same, _⟩ := Prod.mk.inj got
        obtain rfl := Except.error.inj same
        exact exception exception'
  · constructor
    · intro had
      exact .inl had
    · rintro (had | ⟨_, _, _, got, _⟩)
      · exact had
      · cases got

theorem run_startContainer_iff :
    (startContainer recipe).run docker s = (.ok c, s') ↔ Starts docker recipe s c s' := by
  constructor
  · intro started
    obtain ⟨_, s₁, connected, rest⟩ := Program.run_bind_ok_iff.mp started
    obtain ⟨_, s₂, ensured, ran⟩ := Program.run_bind_ok_iff.mp rest
    exact ⟨s₁, s₂, (run_perform_eq _ _).symm.trans connected, run_ensureImage_iff.mp ensured,
      (run_perform_eq _ _).symm.trans ran⟩
  · rintro ⟨s₁, s₂, connected, ensured, ran⟩
    exact Program.run_bind_ok_iff.mpr ⟨(), s₁, (run_perform_eq _ _).trans connected,
      Program.run_bind_ok_iff.mpr ⟨(), s₂, run_ensureImage_iff.mpr ensured,
        (run_perform_eq _ _).trans ran⟩⟩

end Running

/-- An operation that neither starts a container nor stops one. -/
def DockerOp.Quiet : DockerOp → Prop
  | .containersRun _ | .kill _ => False
  | _ => True

section Ledger

variable {docker : DockerHandler σ} {c : Container} {d d' : Daemon σ}
variable {repr : String → String} {recipe : SandboxRecipe} {α : Type}

theorem Daemon.handle_quiet {o : DockerOp} (quiet : o.Quiet) (d : Daemon σ) :
    (Daemon.handle docker o d).2.running = d.running := by
  cases o with
  | containersRun options => exact quiet.elim
  | kill c => exact quiet.elim
  | _ => rfl

variable (docker) in
/-- A program of quiet operations starts no container and stops none. -/
theorem running_of_quiet {p : Docker α} (quiet : p.Within DockerOp.Quiet) (d : Daemon σ) :
    (p.run (Daemon.handle docker) d).2.running = d.running := by
  have kept : ∀ o (d' : Daemon σ), o.Quiet → ¬ False → d'.running = d.running →
      (Daemon.handle docker o d').2.running = d.running := by
    intro o d' quiet' _ same
    rw [Daemon.handle_quiet quiet', same]
  exact quiet.keeps (B := fun _ => False) (fun o mem impossible => impossible) kept rfl

theorem UploadOp.quiet {o : DockerOp} (uploads : UploadOp c o) : o.Quiet := by
  cases uploads with
  | mkdir directory => exact trivial
  | put directory file => exact trivial

theorem quiet_runExec (cmd : List String) : (runExec c cmd).Within DockerOp.Quiet :=
  .bind (Program.within_perform trivial) fun _ => trivial

variable (repr c recipe) in
theorem quiet_setUp : (setUp repr c recipe).Within DockerOp.Quiet := by
  refine .bind (quiet_runExec _) fun _ => .bind ?_ fun _ => ?_
  · induction recipe.files with
    | nil => exact trivial
    | cons file files ih =>
        exact .bind ((within_putFile repr c file.1 file.2).mono fun o => UploadOp.quiet) fun _ => ih
  · unfold installPackages
    split
    · exact .bind (quiet_runExec _) fun _ => trivial
    · exact trivial

theorem quiet_ensureImage (image : String) : (ensureImage image).Within DockerOp.Quiet := by
  refine .bind (Docker.within_except (Program.within_perform trivial)) fun outcome => ?_
  cases outcome with
  | ok u => exact trivial
  | error e => exact Program.within_perform trivial

variable (docker recipe d) in
/-- The container that a start returns is the one that it has started. -/
theorem running_startContainer : ((startContainer recipe).run (Daemon.handle docker) d).2.running =
    match ((startContainer recipe).run (Daemon.handle docker) d).1 with
    | .ok c => c :: d.running
    | .error _ => d.running := by
  have quiet : (client.bind fun _ => ensureImage recipe.runtime).Within DockerOp.Quiet :=
    .bind (Program.within_perform trivial) fun _ => quiet_ensureImage _
  have kept := running_of_quiet docker quiet d
  have split' : startContainer recipe = (client.bind fun _ => ensureImage recipe.runtime).bind
      fun _ => containersRun (runOptions recipe) := (Program.bind_assoc _ _ _).symm
  rw [split', Program.run_bind]
  cases ensured :
    (client.bind fun _ => ensureImage recipe.runtime).run (Daemon.handle docker) d with
  | mk outcome d₁ =>
      rw [ensured] at kept
      cases outcome with
      | error e => exact kept
      | ok u =>
          dsimp only at kept ⊢
          have ran : (containersRun (runOptions recipe)).run (Daemon.handle docker) d₁ =
              Daemon.handle docker (.containersRun (runOptions recipe)) d₁ := run_perform_eq _ _
          rw [ran, ← kept]
          simp only [Daemon.handle]
          rcases docker (.containersRun (runOptions recipe)) d₁.env with ⟨e | c, s⟩
          · rfl
          · rfl

theorem shortId_of_hasId (has : c.HasId) : ∃ id, shortId c.id = .ok id := by
  obtain ⟨full, named, some'⟩ := has
  exact ⟨_, by rw [shortId, named, Option.filter_some, if_pos (by simpa using some')]⟩

theorem shortId_of_not_hasId (lacks : ¬ c.HasId) : ∃ e, shortId c.id = .error e := by
  have nameless : c.id.filter (· ≠ "") = none := by
    rw [Option.filter_eq_none_iff]
    intro full named
    by_contra some'
    exact lacks ⟨full, named, by simpa using some'⟩
  exact ⟨_, by rw [shortId, nameless]⟩

/-- What follows the end of the thread. -/
theorem provisioned_of_run {b : DockerBackend} {cancelled : Bool}
    {outcome : Except DockerExn Container}
    (ran : (provisionSync repr recipe).run (Daemon.handle docker) d = (outcome, d')) :
    b.provisioned repr docker d recipe cancelled =
      if cancelled then (.error (.other .cancelledError), b, d')
      else match outcome with
        | .error e => (.error e, b, d')
        | .ok c =>
            match shortId c.id with
            | .error e => (.error e, b, d')
            | .ok id => (.ok id, b.track id c recipe, d') := by
  unfold DockerBackend.provisioned DockerBackend.provision
  rw [Program.monad_bind_eq, Program.run_bind, Program.run_attempt, ran]
  cases cancelled with
  | true => rfl
  | false =>
      cases outcome with
      | error e => rfl
      | ok c =>
          simp only [Program.monad_bind_eq, Program.settle, Program.pure_bind']
          cases shortId c.id with
          | error e => rfl
          | ok id => rfl

variable (repr docker) in
/-- Everything a provision can do: it fails before there is a container, or after it, or it
tracks the container it has started. -/
theorem provisioned_cases (b : DockerBackend) (d : Daemon σ) (recipe : SandboxRecipe)
    (cancelled : Bool) :
    ((∀ c d', ¬ Starts (Daemon.handle docker) recipe d c d') ∧
      ∃ e d', b.provisioned repr docker d recipe cancelled = (.error e, b, d') ∧
        d'.running = d.running) ∨
    ∃ c d₁, Starts (Daemon.handle docker) recipe d c d₁ ∧
      ((¬ (cancelled = false ∧ c.HasId ∧ SetsUp (Daemon.handle docker) c recipe d₁) ∧
          ∃ e d', b.provisioned repr docker d recipe cancelled = (.error e, b, d') ∧
            d'.running = c :: d.running) ∨
        (cancelled = false ∧ c.HasId ∧ SetsUp (Daemon.handle docker) c recipe d₁) ∧
          ∃ id d', b.provisioned repr docker d recipe cancelled =
            (.ok id, b.track id c recipe, d') ∧ d'.running = c :: d.running) := by
  have running := running_startContainer docker d recipe
  cases started : (startContainer recipe).run (Daemon.handle docker) d with
  | mk outcome d₁ =>
      rw [started] at running
      cases outcome with
      | error e =>
          have ran : (provisionSync repr recipe).run (Daemon.handle docker) d = (.error e, d₁) :=
            Program.run_bind_error started
          refine .inl ⟨fun c d' starts => ?_, ?_⟩
          · rw [run_startContainer_iff.mpr starts] at started
            cases started
          · rw [provisioned_of_run ran]
            cases cancelled with
            | true => exact ⟨_, d₁, rfl, running⟩
            | false => exact ⟨_, d₁, rfl, running⟩
      | ok c =>
          refine .inr ⟨c, d₁, run_startContainer_iff.mp started, ?_⟩
          have kept := running_of_quiet docker (quiet_setUp c repr recipe) d₁
          have sync : (provisionSync repr recipe).run (Daemon.handle docker) d =
              ((setUp repr c recipe).bind fun _ => Program.pure c).run (Daemon.handle docker) d₁ :=
            Program.run_bind_ok started
          cases done : (setUp repr c recipe).run (Daemon.handle docker) d₁ with
          | mk outcome d₂ =>
              rw [done] at kept
              have running' : d₂.running = c :: d.running := kept.trans running
              cases outcome with
              | error e =>
                  have ran := sync.trans (Program.run_bind_error done)
                  refine .inl ⟨fun ⟨_, _, sets⟩ => ?_, ?_⟩
                  · obtain ⟨d', sets⟩ := (run_setUp_iff repr).mpr sets
                    rw [done] at sets
                    cases sets
                  · rw [provisioned_of_run ran]
                    cases cancelled with
                    | true => exact ⟨_, d₂, rfl, running'⟩
                    | false => exact ⟨_, d₂, rfl, running'⟩
              | ok u =>
                  have ran := sync.trans (Program.run_bind_ok done)
                  have sets := (run_setUp_iff repr).mp ⟨d₂, done⟩
                  rw [provisioned_of_run ran]
                  cases cancelled with
                  | true => exact .inl ⟨fun all => absurd all.1 (by decide), _, d₂, rfl, running'⟩
                  | false =>
                      by_cases has : c.HasId
                      · obtain ⟨id, named⟩ := shortId_of_hasId has
                        simp only [named]
                        exact .inr ⟨⟨trivial, has, sets⟩, id, d₂, rfl, running'⟩
                      · obtain ⟨e, unnamed⟩ := shortId_of_not_hasId has
                        simp only [unnamed]
                        exact .inl ⟨fun all => has all.2.1, e, d₂, rfl, running'⟩

theorem cons_ne_self {c : Container} {cs : List Container} : c :: cs ≠ cs := fun same => by
  have longer := congrArg List.length same
  rw [List.length_cons] at longer
  omega

variable (repr) in
theorem allOrNothing_iff {b : DockerBackend} {cancelled : Bool} :
    AllOrNothing b d recipe (b.provisioned repr docker d recipe cancelled) ↔
      Completes (Daemon.handle docker) recipe cancelled d := by
  have cases' := provisioned_cases docker repr b d recipe cancelled
  rcases cases' with ⟨never, e, d', ran, same⟩ | ⟨c, d₁, starts, ended⟩
  · rw [ran]
    exact iff_of_true ⟨rfl, same⟩ fun c d₁ starts => absurd starts (never c d₁)
  · rcases ended with ⟨incomplete, e, d', ran, more⟩ | ⟨complete, id, d', ran, more⟩
    · rw [ran]
      refine iff_of_false ?_ fun completes => incomplete (completes c d₁ starts)
      rintro ⟨_, same⟩
      exact cons_ne_self (more.symm.trans same)
    · rw [ran]
      refine iff_of_true ⟨c, rfl, more⟩ fun c' d₁' starts' => ?_
      obtain ⟨same, rfl⟩ := Prod.mk.inj
        ((run_startContainer_iff.mpr starts).symm.trans (run_startContainer_iff.mpr starts'))
      obtain rfl := Except.ok.inj same
      exact complete

end Ledger

/-- A provision of a process. Docker may have changed since the last one. -/
structure ProvisionCall (σ : Type) where
  env : σ
  recipe : SandboxRecipe
  cancelled : Bool

section Calls

variable (repr : String → String) (docker : DockerHandler σ)

/-- What a call makes of a backend and its daemon. -/
def ProvisionCall.outcome (call : ProvisionCall σ) (s : DockerBackend × Daemon σ) :
    Except DockerExn SandboxId × DockerBackend × Daemon σ :=
  s.1.provisioned repr docker ⟨call.env, s.2.running⟩ call.recipe call.cancelled

/-- The provisions of a process, one after the other. -/
def provisioning : Transition.System (DockerBackend × Daemon σ) (ProvisionCall σ) where
  initial s := s.1 = .empty ∧ s.2.running = []
  step s call := some (call.outcome repr docker s).2

/-- A call that raises, and completes what it begins. -/
def ProvisionCall.FailsWhole (s : DockerBackend × Daemon σ) (call : ProvisionCall σ) : Prop :=
  (∃ e, (call.outcome repr docker s).1 = .error e) ∧
    Completes (Daemon.handle docker) call.recipe call.cancelled ⟨call.env, s.2.running⟩

/-- A provision is all or nothing exactly if it completes what it begins, and then failing
provisions leave the containers and what is tracked as they were, however many there are. -/
theorem provision_atomic_iff :
    (∀ b d recipe cancelled,
      AllOrNothing b d recipe (b.provisioned repr docker d recipe cancelled) ↔
        Completes (Daemon.handle docker) recipe cancelled d) ∧
    ∀ s s', (provisioning repr docker).Reaches (ProvisionCall.FailsWhole repr docker) s s' →
      s'.1 = s.1 ∧ s'.2.running = s.2.running := by
  refine ⟨fun b d recipe cancelled => allOrNothing_iff repr, fun s s' reaches => ?_⟩
  refine reaches.preserves (P := fun t => t.1 = s.1 ∧ t.2.running = s.2.running) ⟨rfl, rfl⟩ ?_
  rintro t call t' ⟨same, same'⟩ ⟨⟨e, raised⟩, completes⟩ stepped
  obtain rfl := Option.some.inj stepped
  have whole : AllOrNothing t.1 ⟨call.env, t.2.running⟩ call.recipe (call.outcome repr docker t) :=
    (allOrNothing_iff repr).mpr completes
  cases ended : call.outcome repr docker t with
  | mk outcome after =>
      rw [ended] at raised whole
      obtain rfl : outcome = .error e := raised
      exact ⟨whole.1.trans same, whole.2.trans same'⟩

end Calls

section Relative

/-- A docker that does what it is asked for, whatever it is. -/
def obligingDocker : DockerHandler Unit
  | .execRun _ _, s => (.ok ⟨some 0, none, none⟩, s)
  | .containersRun _, s => (.ok ⟨0, some "4f1c2d3e5a6b7c8d"⟩, s)
  | .putArchive .., s => (.ok true, s)
  | .uuid4, s => (.ok (0 : Nat), s)
  | .client, s | .imagesGet _, s | .imagesPull _, s | .kill _, s => (.ok (), s)

/-- A file is to be put under a relative path. -/
def relativeRecipe : SandboxRecipe :=
  { SandboxRecipe.default with files := [("notes.txt", "x")] }

/-- The upload is refused, and the container stays. -/
theorem relative_path_leaks :
    (∃ e, (DockerBackend.empty.provisioned id obligingDocker ⟨(), []⟩ relativeRecipe false).1 =
      .error e) ∧
    (DockerBackend.empty.provisioned id obligingDocker ⟨(), []⟩ relativeRecipe
      false).2.2.running = [⟨0, some "4f1c2d3e5a6b7c8d"⟩] ∧
    ¬ AllOrNothing .empty ⟨(), []⟩ relativeRecipe
      (DockerBackend.empty.provisioned id obligingDocker ⟨(), []⟩ relativeRecipe false) := by
  have left : (DockerBackend.empty.provisioned id obligingDocker ⟨(), []⟩ relativeRecipe
      false).2.2.running = [⟨0, some "4f1c2d3e5a6b7c8d"⟩] := by decide
  have raised : (DockerBackend.empty.provisioned id obligingDocker ⟨(), []⟩ relativeRecipe
      false).1.toOption = none := by decide
  generalize DockerBackend.empty.provisioned id obligingDocker ⟨(), []⟩ relativeRecipe false =
    result at left raised ⊢
  obtain ⟨outcome, b', d'⟩ := result
  cases outcome with
  | ok id => cases raised
  | error e =>
      refine ⟨⟨e, rfl⟩, left, fun whole => ?_⟩
      have none' : d'.running = [] := whole.2
      rw [none'] at left
      cases left

/-- A docker without images. -/
def imagelessDocker : DockerHandler Unit
  | .imagesGet _, s | .imagesPull _, s => (.error (.other (.other "no such image")), s)
  | o, s => obligingDocker o s

def failingCall : ProvisionCall Unit := ⟨(), .default, false⟩

theorem fails_without_image (s : DockerBackend × Daemon Unit) :
    ProvisionCall.FailsWhole id imagelessDocker s failingCall := by
  refine ⟨⟨_, rfl⟩, fun c d' starts => ?_⟩
  obtain ⟨_, _, _, image, _⟩ := starts
  rcases image with had | ⟨_, _, _, _, pulled⟩
  · cases had
  · cases pulled

/-- Two provisions fail for want of an image. -/
theorem provision_atomic_iff_imageless : ∃ s',
    (provisioning id imagelessDocker).run (.empty, ⟨(), []⟩) [failingCall, failingCall] = some s' ∧
    s'.1 = .empty ∧ s'.2.running = [] := by
  have meets : (provisioning id imagelessDocker).RunMeets
      (ProvisionCall.FailsWhole id imagelessDocker) (.empty, ⟨(), []⟩) [failingCall, failingCall] :=
    ⟨fails_without_image _, fun s' _ => ⟨fails_without_image s', fun _ _ => trivial⟩⟩
  exact ⟨_, rfl, (provision_atomic_iff id imagelessDocker).2 (.empty, ⟨(), []⟩) _
    (Transition.System.reaches_of_run meets rfl)⟩

end Relative

end Tename
