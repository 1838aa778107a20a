import Tename.Codec.Utf8
import Tename.Program.Running
import Tename.Sandbox.Types
import Tename.Sessions.Models

/-!
# Containers

What the backend and its tools ask of docker, and the helpers of the tools: commands,
whose output is decoded without ever failing, and uploads, which are archives of one file.
Docker itself is whatever answers the operations; any of them may raise.
-/

namespace Tename

/-- An exception as the backend tells them apart: a `TimeoutError`, or another one. -/
inductive DockerExn where
  | timeout (message : String)
  | other (error : Exn)
  deriving DecidableEq

namespace DockerExn

/-- `str(exc)`. -/
def message : DockerExn → String
  | .timeout m => m
  | .other e => e.message

/-- `isinstance(exc, Exception)`. -/
def isException : DockerExn → Bool
  | .timeout _ => true
  | .other e => e.isException

end DockerExn

/-- A handle on a container. Docker may leave it without an id. -/
structure Container where
  handle : Nat
  id : Option String
  deriving DecidableEq

/-- The exit code of a command and its two streams, each if it was written to. -/
structure ExecOutput where
  exitCode : Option Int
  stdout : Option (List UInt8)
  stderr : Option (List UInt8)

/-- The file of an archive. -/
structure TarFile where
  name : String
  data : List UInt8

/-- How a container is run. -/
structure RunOptions where
  image : String
  command : List String
  nanoCpus : Nat
  memLimit : String
  pidsLimit : Nat
  workingDir : String
  environment : List (String × String)
  labels : List (String × String)
  securityOpt : List String
  networkMode : String

inductive DockerOp where
  /-- The client, built on first use. -/
  | client
  | imagesGet (image : String)
  | imagesPull (image : String)
  | containersRun (options : RunOptions)
  /-- In `/workspace`, with no environment of its own. -/
  | execRun (container : Container) (cmd : List String)
  | putArchive (container : Container) (directory : String) (file : TarFile)
  | kill (container : Container)
  /-- `uuid4()`, as a number. -/
  | uuid4

def DockerOp.Res : DockerOp → Type
  | .client | .imagesGet _ | .imagesPull _ | .kill _ => Unit
  | .containersRun _ => Container
  | .execRun .. => ExecOutput
  | .putArchive .. => Bool
  | .uuid4 => Nat

abbrev Docker (α : Type) := Program DockerOp DockerOp.Res DockerExn α

/-- An environment for docker calls. -/
abbrev DockerHandler (σ : Type) := Program.Handler DockerOp DockerOp.Res DockerExn σ

namespace Docker

def perform (o : DockerOp) : Docker o.Res := Program.perform o

def client : Docker Unit := perform .client
def imagesGet (image : String) : Docker Unit := perform (.imagesGet image)
def imagesPull (image : String) : Docker Unit := perform (.imagesPull image)
def containersRun (options : RunOptions) : Docker Container := perform (.containersRun options)
def execRun (c : Container) (cmd : List String) : Docker ExecOutput := perform (.execRun c cmd)
def putArchive (c : Container) (directory : String) (file : TarFile) : Docker Bool :=
  perform (.putArchive c directory file)
def kill (c : Container) : Docker Unit := perform (.kill c)
def uuid4 : Docker Nat := perform .uuid4

def runtimeError {α : Type} (message : String) : Docker α :=
  .throw (.other (.runtimeError message))

def valueError {α : Type} (message : String) : Docker α :=
  .throw (.other (.other message))

/-- `try … except Exception`: the outcome of the body, unless it is no `Exception`. -/
def except {α : Type} (body : Docker α) : Docker (Except DockerExn α) :=
  body.attempt.bind fun
    | .ok a => .pure (.ok a)
    | .error e => if e.isException then .pure (.error e) else .throw e

end Docker

open Docker

/-- `decode_stream`. -/
def decodeStream : Option (List UInt8) → String
  | none => ""
  | some bytes => .ofList (Utf8.decodeReplace bytes)

/-- What `run_exec` returns. -/
structure RanCommand where
  exitCode : Int
  stdout : String
  stderr : String

/-- `int(exit_code or 0)`, and both streams decoded. -/
def ExecOutput.ran (out : ExecOutput) : RanCommand :=
  ⟨out.exitCode.getD 0, decodeStream out.stdout, decodeStream out.stderr⟩

/-- `run_exec`. -/
def runExec (c : Container) (cmd : List String) : Docker RanCommand := do
  let out ← execRun c cmd
  return out.ran

/-- `path.rpartition("/")` without the separator. -/
def rpartitionSlash (path : String) : String × String :=
  let tail := path.toList.reverse
  (.ofList ((tail.dropWhile (· ≠ '/')).drop 1).reverse, .ofList (tail.takeWhile (· ≠ '/')).reverse)

/-- The directory and the name under which an upload stores a file. -/
def uploadTarget (path : String) : String × String :=
  let (directory, filename) := rpartitionSlash path
  (if directory = "" then "/" else directory, filename)

/-- What `put_file` raises for a directory that cannot be made. -/
def mkdirFailure (directory : String) (code : Int) : String :=
  s!"mkdir -p {directory} failed inside sandbox (exit {code})"

/-- What `put_file` raises for an archive that docker does not take. -/
def putFailure (path : String) : String :=
  s!"put_archive failed for {path}"

/-- `put_file` behind the checks of its path. -/
def upload (c : Container) (path content : String) (target : String × String) : Docker Unit := do
  let made ← runExec c ["mkdir", "-p", target.1]
  if made.exitCode ≠ 0 then runtimeError (mkdirFailure target.1 made.exitCode)
  else do
    let ok ← putArchive c target.1 ⟨target.2, Utf8.encode content.toList⟩
    if ok then return () else runtimeError (putFailure path)

variable (repr : String → String)

/-- What `_split_abs` raises for a path that ends in a slash. -/
def directoryRefusal (path : String) : String :=
  let shown := repr path
  s!"put_file path must name a file, not a directory: {shown}"

/-- What `put_file` raises for a path that is not absolute. -/
def relativeRefusal (path : String) : String :=
  let shown := repr path
  s!"put_file requires an absolute path, got {shown}"

/-- `_split_abs`. -/
def splitAbs (path : String) : Docker (String × String) :=
  if path.toList.getLast? = some '/' then valueError (directoryRefusal repr path)
  else return uploadTarget path

/-- `put_file`. -/
def putFile (c : Container) (path content : String) : Docker Unit :=
  if path.toList.head? ≠ some '/' then valueError (relativeRefusal repr path)
  else do
    let target ← splitAbs repr path
    upload c path content target

section Running

variable {σ : Type} (docker : DockerHandler σ) (c : Container)

theorem run_execRun (cmd : List String) (s : σ) :
    (execRun c cmd).run docker s = docker (.execRun c cmd) s :=
  Program.run_perform (DockerOp.execRun c cmd) s

theorem run_putArchive (directory : String) (file : TarFile) (s : σ) :
    (putArchive c directory file).run docker s = docker (.putArchive c directory file) s :=
  Program.run_perform (DockerOp.putArchive c directory file) s

theorem run_runExec (cmd : List String) (s : σ) :
    (runExec c cmd).run docker s =
      ((docker (.execRun c cmd) s).1.map ExecOutput.ran, (docker (.execRun c cmd) s).2) := by
  rw [runExec, Program.monad_bind_eq, Program.run_bind, run_execRun]
  rcases docker (.execRun c cmd) s with ⟨_ | _, _⟩ <;> rfl

theorem run_except {α : Type} (body : Docker α) (s : σ) :
    (Docker.except body).run docker s = match body.run docker s with
      | (.ok a, s) => (.ok (.ok a), s)
      | (.error e, s) => (if e.isException then .ok (.error e) else .error e, s) := by
  rw [Docker.except, Program.run_bind, Program.run_attempt]
  rcases body.run docker s with ⟨e | a, s⟩
  · dsimp only
    split <;> rfl
  · rfl

/-- A path that names a file by an absolute path. -/
def NamesFile (path : String) : Prop :=
  path.toList.head? = some '/' ∧ path.toList.getLast? ≠ some '/'

instance (path : String) : Decidable (NamesFile path) :=
  inferInstanceAs (Decidable (_ ∧ _))

/-- Everything an upload can do: it refuses the path, fails at one of its two steps, or
stores the file. -/
inductive Uploads (path content : String) (s : σ) :
    Except DockerExn Unit → σ → Prop
  | refused {m : String} (bad : ¬ NamesFile path)
      (quotes : m = relativeRefusal repr path ∨ m = directoryRefusal repr path) :
      Uploads path content s (.error (.other (.other m))) s
  | unmade {e : DockerExn} {s₁ : σ} (names : NamesFile path)
      (made : docker (.execRun c ["mkdir", "-p", (uploadTarget path).1]) s = (.error e, s₁)) :
      Uploads path content s (.error e) s₁
  | failed {out : ExecOutput} {s₁ : σ} (names : NamesFile path)
      (made : docker (.execRun c ["mkdir", "-p", (uploadTarget path).1]) s = (.ok out, s₁))
      (code : out.ran.exitCode ≠ 0) :
      Uploads path content s
        (.error (.other (.runtimeError (mkdirFailure (uploadTarget path).1 out.ran.exitCode)))) s₁
  | put {out : ExecOutput} {s₁ s₂ : σ} {stored : Except DockerExn Bool} (names : NamesFile path)
      (made : docker (.execRun c ["mkdir", "-p", (uploadTarget path).1]) s = (.ok out, s₁))
      (code : out.ran.exitCode = 0)
      (put : docker (.putArchive c (uploadTarget path).1
        ⟨(uploadTarget path).2, Utf8.encode content.toList⟩) s₁ = (stored, s₂)) :
      Uploads path content s
        (stored.bind fun ok => if ok then .ok ()
          else .error (.other (.runtimeError (putFailure path)))) s₂

theorem putFile_of_names {path : String} (names : NamesFile path) (content : String) :
    putFile repr c path content = upload c path content (uploadTarget path) := by
  rw [putFile, if_neg (by simpa using names.1), splitAbs, if_neg names.2]
  rfl

theorem uploads_putFile (path content : String) (s : σ) :
    Uploads repr docker c path content s ((putFile repr c path content).run docker s).1
      ((putFile repr c path content).run docker s).2 := by
  by_cases names : NamesFile path
  · rw [putFile_of_names repr c names, upload, Program.monad_bind_eq]
    have ran := run_runExec docker c ["mkdir", "-p", (uploadTarget path).1] s
    cases made : docker (.execRun c ["mkdir", "-p", (uploadTarget path).1]) s with
    | mk outcome s₁ =>
        rw [made] at ran
        cases outcome with
        | error e =>
            rw [Program.run_bind_error ran]
            exact .unmade names made
        | ok out =>
            rw [Program.run_bind_ok ran]
            by_cases code : out.ran.exitCode = 0
            · rw [if_neg (by simpa using code), Program.monad_bind_eq]
              have ran := run_putArchive docker c (uploadTarget path).1
                ⟨(uploadTarget path).2, Utf8.encode content.toList⟩ s₁
              cases put : docker (.putArchive c (uploadTarget path).1
                  ⟨(uploadTarget path).2, Utf8.encode content.toList⟩) s₁ with
              | mk stored s₂ =>
                  rw [put] at ran
                  have step : Uploads repr docker c path content s _ s₂ :=
                    .put names made code put
                  cases stored with
                  | error e =>
                      rw [Program.run_bind_error ran]
                      exact step
                  | ok ok =>
                      rw [Program.run_bind_ok ran]
                      cases ok with
                      | false => exact step
                      | true => exact step
            · rw [if_pos code]
              exact .failed names made code
  · by_cases absolute : path.toList.head? = some '/'
    · have directory : path.toList.getLast? = some '/' := by
        by_contra file
        exact names ⟨absolute, file⟩
      rw [putFile, if_neg (by simpa using absolute), splitAbs, if_pos directory]
      exact .refused names (.inr rfl)
    · rw [putFile, if_pos absolute]
      exact .refused names (.inl rfl)

/-- The operations of an upload. -/
inductive UploadOp (c : Container) : DockerOp → Prop
  | mkdir (directory : String) : UploadOp c (.execRun c ["mkdir", "-p", directory])
  | put (directory : String) (file : TarFile) : UploadOp c (.putArchive c directory file)

theorem within_upload (path content : String) (target : String × String) :
    (upload c path content target).Within (UploadOp c) := by
  refine .bind (.bind (Program.within_perform (.mkdir _)) fun out => trivial) fun made => ?_
  split
  · exact trivial
  · refine .bind (Program.within_perform (.put _ _)) fun ok => ?_
    split
    · exact trivial
    · exact trivial

theorem within_putFile (path content : String) :
    (putFile repr c path content).Within (UploadOp c) := by
  unfold putFile
  split
  · exact trivial
  · refine .bind ?_ fun target => within_upload c path content target
    unfold splitAbs
    split
    · exact trivial
    · exact trivial

theorem Docker.within_except {α : Type} {A : DockerOp → Prop} {body : Docker α}
    (h : body.Within A) : (Docker.except body).Within A := by
  refine .bind h.attempt fun outcome => ?_
  cases outcome with
  | ok a => exact trivial
  | error e =>
      dsimp only
      split
      · exact trivial
      · exact trivial

end Running

end Tename
