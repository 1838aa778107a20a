import Tename.Harness.Containers
import Tename.Sandbox.Files

/-!
# The files of a run

The loop over a sandbox service over docker, once more: what the results of a run's tools have
told of the files of its sandbox is what the next tools find there. Nobody else writes to that
sandbox; tools may time out, docker may fail, and the service may be asked for the status of the
sandbox as often as anyone likes.
-/

namespace Tename

/-- The tool has come through, without an error. -/
def succeeded : Performed → Bool
  | ⟨.sandboxExecute .., _, .ok r⟩ => !r.isError
  | _ => false

namespace Texts

variable (overlap : String → String → Bool) (id : SandboxId)

/-- What an operation tells of the texts of a sandbox, once the run has it. -/
def note (known : Option Texts) (x : Performed) : Option Texts :=
  match x.op with
  | .sandboxProvision _ => if acquires x = some id then some unknown else none
  | .sandboxStatus _ => if acquires x = some id then some (known.getD unknown) else known
  | .sandboxExecute id' name input =>
      if id' = id then known.map fun known => known.afterCall overlap name input (succeeded x)
      else none
  | .sandboxDestroy _ => none
  | _ => known

/-- What a history tells. -/
def told (h : List Performed) : Option Texts :=
  h.foldl (note overlap id) none

end Texts

section Served

open SandboxStack

variable {σ : Type} {repr : String → String} {docker : DockerHandler σ} {life : LifeHandler σ}
variable {contents : FileContents σ} {overlap : String → String → Bool} {id : SandboxId}
variable {held : List SandboxId} {s s₁ s' : SandboxStack σ} {known : Option Texts}
variable {x : Performed} {h : List Performed} {ops : List (SandboxId × LifeOp)}

/-- Others leave the files of the sandbox alone. -/
def LeavesFiles (contents : FileContents σ) (id : SandboxId) (s s' : SandboxStack σ) : Prop :=
  ∀ c, s.backend.containers id = some c → contents s'.daemon c = contents s.daemon c

/-- What is known of the sandbox's files is in its container. -/
def TracksFiles (contents : FileContents σ) (id : SandboxId) (held : List SandboxId)
    (s : SandboxStack σ) (known : Option Texts) : Prop :=
  ∀ texts, known = some texts → id ∈ held ∧
    ∃ c, s.backend.containers id = some c ∧ Knows contents c texts s.daemon

theorem tracks_none : TracksFiles contents id held s none := by
  rintro texts ⟨⟩

theorem TracksFiles.other (tracks : TracksFiles contents id held s known)
    (apart : ∀ id ∈ held, s.SameAt s₁ id ∧ LeavesFiles contents id s s₁) :
    TracksFiles contents id held s₁ known := by
  intro texts found
  obtain ⟨mem, c, there, knows⟩ := tracks texts found
  obtain ⟨same, left⟩ := apart id mem
  refine ⟨mem, c, same.container.trans there, fun path text given => ?_⟩
  rw [left c there]
  exact knows path text given

theorem note_of_silent (silent : x.op.request? = none) :
    Texts.note overlap id known x = known := by
  obtain ⟨o, answer, r⟩ := x
  cases o <;> first | rfl | cases silent

/-- A sandbox that is acquired, with whatever it has in it. -/
theorem tracks_acquired (gives : acquires x = some id)
    (there : (s.backend.containers id).isSome) :
    TracksFiles contents id (held ++ (acquires x).toList) s (some .unknown) := by
  rintro texts ⟨⟩
  obtain ⟨c, there⟩ := Option.isSome_iff_exists.mp there
  exact ⟨by simp [gives], c, there, knows_unknown⟩

theorem TracksFiles.step (keeps : KeepsFiles docker life contents overlap)
    (tracks : TracksFiles contents id held s known) {q : SandboxRequest} {fate : CallFate}
    {asked : List LifeOp} {phase : SandboxPhase} (request : x.op.request? = some q)
    (called : s.call repr docker life fate q = some (asked, phase, s₁))
    (outcome : phase.outcome? x.op = some x.outcome) :
    TracksFiles contents id (held ++ (acquires x).toList) s₁ (Texts.note overlap id known x) := by
  have acquired (gives : acquires x = some id) : (s₁.backend.containers id).isSome := by
    have spares : destroys x = none := by
      by_contra takes
      cases gives.symm.trans (acquires_of_destroys (Option.isSome_iff_ne_none.mpr takes))
    exact (keeps_of_call request called outcome spares).2.2 id gives
  obtain ⟨o, answer, r⟩ := x
  cases o with
  | sandboxProvision recipe =>
      unfold Texts.note
      dsimp only
      split
      · rename_i gives
        exact tracks_acquired gives (acquired gives)
      · exact tracks_none
  | sandboxStatus id' =>
      obtain rfl := Option.some.inj request
      have same := keeps.call_status_contents called
      have kept := (call_status called).1
      unfold Texts.note
      dsimp only
      have before : TracksFiles contents id
          (held ++ (acquires ⟨.sandboxStatus id', answer, r⟩).toList) s₁ known := by
        intro texts found
        obtain ⟨mem, c, there, knows⟩ := tracks texts found
        exact ⟨List.mem_append_left _ mem, c, by rw [kept, there], knows.same same⟩
      split
      · rename_i gives
        cases known with
        | none => exact tracks_acquired gives (acquired gives)
        | some texts => exact before
      · exact before
  | sandboxExecute id' name input =>
      obtain rfl := Option.some.inj request
      unfold Texts.note
      dsimp only
      split
      · rename_i here
        subst here
        intro texts found
        obtain ⟨before, rfl, rfl⟩ := Option.map_eq_some_iff.mp found
        obtain ⟨mem, c, there, knows⟩ := tracks before rfl
        obtain ⟨left, shown⟩ := keeps.call_knows there called knows
        refine ⟨List.mem_append_left _ mem, c, by rw [(call_execute called).2, there], ?_⟩
        cases success : succeeded ⟨.sandboxExecute id' name input, answer, r⟩ with
        | false => exact left
        | true =>
            cases r with
            | error e => cases success
            | ok r =>
                have fine : r.isError = false := by simpa [succeeded] using success
                cases phase with
                | executed r' =>
                    obtain rfl : r' = r := Except.ok.inj (Option.some.inj outcome)
                    exact (shown r' rfl).2 fine
                | raised e => cases outcome
                | _ => cases outcome
      · exact tracks_none
  | sandboxDestroy id' => exact tracks_none
  | _ => cases request

/-- What a history has told is so at its end. -/
theorem TracksFiles.told (keeps : KeepsFiles docker life contents overlap)
    (served : Serves repr docker life (LeavesFiles contents) held s h ops s')
    (tracks : TracksFiles contents id held s known) :
    TracksFiles contents id (held ++ acquired h) s' (h.foldl (Texts.note overlap id) known) := by
  induction served generalizing known with
  | done => simpa [acquired] using tracks
  | other apart rest ih => exact ih (tracks.other apart)
  | quiet silent rest ih =>
      rw [acquired_cons, acquires_of_silent silent, List.foldl_cons, note_of_silent silent]
      exact ih tracks
  | call request called outcome rest ih =>
      rw [acquired_cons, ← List.append_assoc, List.foldl_cons]
      exact ih (tracks.step keeps request called outcome)

/-- The first operation of a history that is a call of the service is made where what is known
still is so. -/
theorem TracksFiles.next {q : SandboxRequest} (request : x.op.request? = some q)
    (served : Serves repr docker life (LeavesFiles contents) held s (x :: h) ops s')
    (tracks : TracksFiles contents id held s known) :
    ∃ s₁ s₂ fate asked phase, TracksFiles contents id held s₁ known ∧
      s₁.call repr docker life fate q = some (asked, phase, s₂) ∧
      phase.outcome? x.op = some x.outcome := by
  generalize whole : x :: h = hs at served
  induction served with
  | done => cases whole
  | other apart rest ih => exact ih (tracks.other apart) whole
  | quiet silent rest ih =>
      cases whole
      cases request.symm.trans silent
  | call request' called outcome rest ih =>
      cases whole
      obtain rfl := Option.some.inj (request.symm.trans request')
      exact ⟨_, _, _, _, _, tracks, called, outcome⟩

/-- In every history that the service over docker answers, whoever uses it for other sandboxes:
what the results before have told of the files of a sandbox, a result tells again. A file that is
read has the text that was last written to it, or that its edits have made of it, unless the read
has timed out; and a file is edited only where that text may be. -/
theorem tools_tell_files (keeps : KeepsFiles docker life contents overlap)
    {before after : List Performed} {name : String} {input : Payload} {answer : Answer}
    {r : ToolResult} {texts : Texts}
    (served : Serves repr docker life (LeavesFiles contents) [] s
      (before ++ ⟨.sandboxExecute id name input, answer, .ok r⟩ :: after) ops s')
    (known : Texts.told overlap id before = some texts) :
    TellsFiles texts name input r := by
  obtain ⟨ops₁, ops₂, s₁, -, first, second⟩ := served.split
  have tracks : TracksFiles contents id ([] ++ acquired before) s₁ (Texts.told overlap id before) :=
    TracksFiles.told keeps first tracks_none
  obtain ⟨s₂, s₃, fate, asked, phase, tracks, called, outcome⟩ := tracks.next rfl second
  obtain ⟨mem, c, there, knows⟩ := tracks texts known
  cases phase with
  | executed r' =>
      obtain rfl : r' = r := Except.ok.inj (Option.some.inj outcome)
      exact ((keeps.call_knows there called knows).2 r' rfl).1
  | raised e => cases outcome
  | _ => cases outcome

end Served

section Rereading

/-- A docker whose containers have an id, and files in memory. -/
def namingDocker : DockerHandler MemoryFiles
  | .containersRun _, m => (.ok ⟨0, some "c1"⟩, m)
  | o, m => memoryDocker o m

def memoryLife : LifeHandler MemoryFiles
  | .stop _, m | .remove _, m => (.ok (), m)
  | .reload _, m => (.ok "running", m)

/-- Paths under which an upload stores the same file. -/
def sameTarget (path path' : String) : Bool :=
  uploadTarget path = uploadTarget path'

theorem namingDocker_put (c : Container) (directory : String) (file : TarFile) (m : MemoryFiles) :
    (namingDocker (.putArchive c directory file) m).2 =
      Function.update m (directory, file.name) (some file.data) := rfl

theorem memory_keepsFiles :
    KeepsFiles namingDocker memoryLife (fun m _ path => memoryFile m path) sameTarget where
  cat {c path m bytes out m'} file printed := by
    have file : m (uploadTarget path) = some bytes := file
    have shown : memoryExec m ["cat", "--", path] = out := Except.ok.inj (Prod.mk.inj printed).1
    rw [memoryExec, if_pos rfl, file] at shown
    subst shown
    exact ⟨rfl, rfl⟩
  looks m looks := by cases looks <;> rfl
  put {c path data m m'} _ stored := by
    obtain rfl := congrArg Prod.snd stored
    rw [namingDocker_put, memoryFile, Function.update_self]
  put_keeps {c path path' data} m _ _ apart := by
    have other : uploadTarget path' ≠ uploadTarget path :=
      fun same => of_decide_eq_false apart same.symm
    rw [namingDocker_put, memoryFile, Function.update_of_ne other, memoryFile]
  reload c m := rfl

/-- A file is written and edited. -/
def drafted : List Performed :=
  [⟨.sandboxProvision .default, .provisions "c1", .ok "c1"⟩,
    ⟨.sandboxExecute "c1" "file_write" [("path", .str "/w/a"), ("content", .str "held")], .done,
      .ok ⟨false, "wrote 4 bytes to /w/a", "", "", none, none⟩⟩,
    ⟨.sandboxExecute "c1" "file_edit" (editInput "/w/a" "d" "p" false), .done,
      .ok (editResult "/w/a" 1)⟩]

def reread : ToolResult :=
  ⟨false, "help", "help", "", some 0, none⟩

theorem tools_tell_files_reread : ∃ texts ops s',
    SandboxStack.Serves id namingDocker memoryLife
      (LeavesFiles fun m _ path => memoryFile m path) []
      ⟨fun _ => none, .empty, fun _ => none⟩ (drafted ++
        [⟨.sandboxExecute "c1" "file_read" [("path", .str "/w/a")], .done, .ok reread⟩]) ops s' ∧
    Texts.told sameTarget "c1" drafted = some texts ∧ texts "/w/a" = some "help" ∧
    TellsFiles texts "file_read" [("path", .str "/w/a")] reread := by
  obtain ⟨⟨ops, s'⟩, served, -⟩ := Option.map_eq_some_iff.mp (show
    (SandboxStack.serve? id namingDocker memoryLife ⟨false, .finishes⟩
      ⟨fun _ => none, .empty, fun _ => none⟩ (drafted ++
        [⟨.sandboxExecute "c1" "file_read" [("path", .str "/w/a")], .done, .ok reread⟩])).map
          (fun _ => true) = some true by decide +kernel)
  obtain ⟨texts, told, known⟩ := Option.map_eq_some_iff.mp (show
    (Texts.told sameTarget "c1" drafted).map (· "/w/a") = some (some "help") by decide +kernel)
  have served := SandboxStack.serves_of_serve? (LeavesFiles fun m _ path => memoryFile m path) []
    served
  exact ⟨texts, ops, s', served, told, known, tools_tell_files memory_keepsFiles served told⟩

end Rereading

end Tename
