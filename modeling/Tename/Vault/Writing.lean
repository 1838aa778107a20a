import Tename.Program.Running
import Tename.Vault.Documents

/-!
# Writing the vault file

`_write_state` as the calls it makes to the operating system: each may fail, and the process
may die between any two of them. What the calls come to, if it does not, is `writeFile`, and
to those who read the file as JSON it is the end that `writeOutcome` says.
-/

namespace Tename

/-- The calls of `_write_state`. -/
inductive FileOp where
  /-- `parent.mkdir(parents=True, exist_ok=True)`. -/
  | mkdir
  | chmodParent
  | mkstemp
  | write (buffer : List UInt8)
  | close
  | chmodFile
  | replace
  /-- `tmp_path.unlink(missing_ok=True)`. -/
  | unlink
  deriving DecidableEq

/-- `os.write` says how many bytes it has taken. -/
abbrev FileRes : FileOp → Type
  | .write _ => Nat
  | _ => Unit

/-- An `OSError` is an exception of the kind `other`. -/
abbrev Writing (α : Type) := Program FileOp FileRes VaultExn α

namespace Vault

variable (v : Vault) (depth : Nat)

/-- `with contextlib.suppress(OSError, NotImplementedError)`, around a `chmod`. -/
def suppress (chmod : Writing Unit) : Writing Unit :=
  chmod.attempt.bind fun _ => return ()

/-- What `_write_state` does before its `try`. -/
def prepare (next : VaultState) : Writing (List UInt8) := do
  Program.perform FileOp.mkdir
  suppress (Program.perform FileOp.chmodParent)
  let serialized ← Program.settle
    ((serialize depth next).mapError fun e => VaultExn.other e.message)
  Program.perform FileOp.mkstemp
  return serialized

/-- The inner `try` of `_write_state`. What `os.write` returns is not looked at. -/
def fillTemporary (serialized : List UInt8) : Writing Unit :=
  Program.tryFinally (do
      let _ ← Program.perform (FileOp.write serialized)
      return ())
    (Program.perform FileOp.close)

/-- The outer `try` of `_write_state`. -/
def install (serialized : List UInt8) : Writing Unit := do
  fillTemporary serialized
  suppress (Program.perform FileOp.chmodFile)
  Program.perform FileOp.replace

/-- The `except` clause of `_write_state`. -/
def conclude : Except VaultExn Unit → Writing Unit
  | .ok () => return ()
  | .error (.other m) => do
      Program.perform FileOp.unlink
      Program.throw (.vaultConfigurationError s!"failed to write vault file {v.path}: {m}")
  | .error e => Program.throw e

/-- `_write_state`. -/
def writeStateCalls (next : VaultState) : Writing Unit := do
  let serialized ← prepare depth next
  v.conclude (← (install serialized).attempt)

end Vault

/-- What the operating system answers to the calls of one `_write_state`. -/
structure OsAnswers where
  mkdir : Option String
  mkstemp : Option String
  /-- How many bytes `os.write` takes. -/
  write : Except String Nat
  close : Option String
  replace : Option String
  unlink : Option String

namespace OsAnswers

/-- Some call before the file is replaced, or its replacement, reports an error. -/
def fails (os : OsAnswers) : Bool :=
  os.mkdir.isSome || os.mkstemp.isSome || !os.write.isOk || os.close.isSome || os.replace.isSome

/-- Every call is answered without an error, and the whole buffer is written. -/
def faultless (size : Nat) : OsAnswers :=
  ⟨none, none, .ok size, none, none, none⟩

end OsAnswers

namespace Vault

variable (v : Vault)

/-- `_write_state` after its serialization, where `written n` is a file of the first `n` bytes:
what the vault's path and the temporary file hold after it. -/
def writeFile {α : Type} (os : OsAnswers) (written : Nat → α) (file : Option α) :
    Option α × Option α × Except VaultExn Unit :=
  -- The `except` clause, for an error that `exc` prints as `m`.
  let cleanup (m : String) (temporary : α) : Option α × Option α × Except VaultExn Unit :=
    match os.unlink with
    | some m' => (file, some temporary, .error (.other m'))
    | none =>
        (file, none, .error (.vaultConfigurationError s!"failed to write vault file {v.path}: {m}"))
  match os.mkdir with
  | some m => (file, none, .error (.other m))
  | none =>
      match os.mkstemp with
      | some m => (file, none, .error (.other m))
      | none =>
          match os.write, os.close with
          | .error m, none => cleanup m (written 0)
          | .error _, some m => cleanup m (written 0)
          | .ok n, some m => cleanup m (written n)
          | .ok n, none =>
              match os.replace with
              | some m => cleanup m (written n)
              | none => (some (written n), none, .ok ())

/-- How `_write_state` ends. A file is cut short or not, depending on how much of it was taken. -/
def writeOutcome (depth : Nat) (os : OsAnswers) (next : VaultState) : WriteOutcome :=
  match os.mkdir, serialize depth next with
  | some m, _ => .refused (.other m)
  | none, .error e => .refused (.other e.message)
  | none, .ok bytes =>
      match v.writeFile os (fun n => decide (n < bytes.length)) none with
      | (_, _, .error e) => .refused e
      | (some true, _, .ok ()) => .short
      | (_, _, .ok ()) => .whole

/-- A failing write leaves the file; one that returns has replaced it, by what was written. -/
theorem writeFile_cases {α : Type} (v : Vault) (os : OsAnswers) (written : Nat → α)
    (file : Option α) :
    os.fails = true ∧ (∃ temporary e, v.writeFile os written file = (file, temporary, .error e)) ∨
      os.fails = false ∧ ∃ n, os.write = .ok n ∧
        v.writeFile os written file = (some (written n), none, .ok ()) := by
  obtain ⟨mkdir, mkstemp, write, close, replace, unlink⟩ := os
  unfold writeFile OsAnswers.fails
  cases mkdir with
  | some m => exact .inl ⟨rfl, _, _, rfl⟩
  | none =>
      cases mkstemp with
      | some m => exact .inl ⟨rfl, _, _, rfl⟩
      | none =>
          cases write with
          | error m =>
              refine .inl ⟨rfl, ?_⟩
              cases close with
              | none => cases unlink <;> exact ⟨_, _, rfl⟩
              | some m => cases unlink <;> exact ⟨_, _, rfl⟩
          | ok n =>
              cases close with
              | some m =>
                  refine .inl ⟨rfl, ?_⟩
                  cases unlink <;> exact ⟨_, _, rfl⟩
              | none =>
                  cases replace with
                  | some m =>
                      refine .inl ⟨rfl, ?_⟩
                      cases unlink <;> exact ⟨_, _, rfl⟩
                  | none => exact .inr ⟨rfl, n, rfl, rfl⟩

/-- What is raised does not depend on what the files hold. -/
theorem writeFile_answer {α β : Type} (v : Vault) (os : OsAnswers) (written : Nat → α)
    (file : Option α) (written' : Nat → β) (file' : Option β) :
    (v.writeFile os written file).2.2 = (v.writeFile os written' file').2.2 := by
  obtain ⟨mkdir, mkstemp, write, close, replace, unlink⟩ := os
  unfold writeFile
  cases mkdir <;> cases mkstemp <;> cases write <;> cases close <;> cases replace <;>
    cases unlink <;> rfl

/-- A failing write refuses with what it raises. -/
theorem writeOutcome_of_error {α : Type} {v : Vault} {depth : Nat} {os : OsAnswers}
    {next : VaultState} {bytes : List UInt8} {written : Nat → α} {file : Option α} {e : VaultExn}
    (serialized : serialize depth next = .ok bytes)
    (raised : (v.writeFile os written file).2.2 = .error e) :
    v.writeOutcome depth os next = .refused e := by
  rw [writeOutcome, serialized]
  have answer := writeFile_answer v os (fun n => decide (n < bytes.length)) none written file
  rw [raised] at answer
  cases mkdir : os.mkdir with
  | some m =>
      unfold writeFile at raised
      rw [mkdir] at raised
      cases raised
      rfl
  | none =>
      dsimp only
      generalize v.writeFile os (fun n => decide (n < bytes.length)) none = ended at answer ⊢
      obtain ⟨file, temporary, answered⟩ := ended
      cases answer
      rfl

/-- The end is a refusal, or as long as what was taken. -/
theorem writeOutcome_cases (v : Vault) (depth : Nat) (os : OsAnswers) (next : VaultState) :
    ((os.fails || !(serialize depth next).isOk) = true ∧
        ∃ e, v.writeOutcome depth os next = .refused e) ∨
      os.fails = false ∧ ∃ bytes n, serialize depth next = .ok bytes ∧ os.write = .ok n ∧
        v.writeOutcome depth os next = if n < bytes.length then .short else .whole := by
  unfold writeOutcome
  cases mkdir : os.mkdir with
  | some m => exact .inl ⟨by simp [OsAnswers.fails, mkdir], _, rfl⟩
  | none =>
      cases serialized : serialize depth next with
      | error e => exact .inl ⟨by simp [Except.isOk, Except.toBool], _, rfl⟩
      | ok bytes =>
          rcases writeFile_cases v os (fun n => decide (n < bytes.length)) none with
            ⟨fails, temporary, e, ended⟩ | ⟨goes, n, taken, ended⟩
          · exact .inl ⟨by simp [fails], e, by simp only [ended]⟩
          · refine .inr ⟨goes, bytes, n, rfl, taken, ?_⟩
            by_cases short : n < bytes.length <;> simp [ended, short]

end Vault

section OperatingSystem

/-- What the operating system answers, the `chmod`s included. -/
structure SystemAnswers extends OsAnswers where
  chmodParent : Option String
  chmodFile : Option String

/-- The vault file and the temporary file beside it. -/
structure VaultDir where
  target : Option (List UInt8)
  temporary : Option (List UInt8)

/-- A call that fails leaves all as it is. -/
def report (failure : Option String) (done s : VaultDir) : Except VaultExn Unit × VaultDir :=
  match failure with
  | none => (.ok (), done)
  | some m => (.error (.other m), s)

/-- The operating system. -/
def SystemAnswers.handle (os : SystemAnswers) : Program.Handler FileOp FileRes VaultExn VaultDir
  | .mkdir, s => report os.mkdir s s
  | .chmodParent, s => report os.chmodParent s s
  | .mkstemp, s => report os.mkstemp { s with temporary := some [] } s
  | .write buffer, s =>
      match os.write with
      | .ok n => (.ok (min n buffer.length), { s with temporary := some (buffer.take n) })
      | .error m => (.error (.other m), s)
  | .close, s => report os.close s s
  | .chmodFile, s => report os.chmodFile s s
  | .replace, s => report os.replace ⟨s.temporary, none⟩ s
  | .unlink, s => report os.unlink { s with temporary := none } s

variable {os : SystemAnswers} {s : VaultDir} {bytes : List UInt8} {old : Option (List UInt8)}

theorem report_same (failure : Option String) (s : VaultDir) : (report failure s s).2 = s := by
  cases failure <;> rfl

theorem run_suppress {chmod : Writing Unit} (quiet : (chmod.run os.handle s).2 = s) :
    (Vault.suppress chmod).run os.handle s = (.ok (), s) := by
  rw [Vault.suppress, Program.run_bind_ok (Program.run_attempt chmod s), quiet]
  rfl

theorem run_chmodParent (os : SystemAnswers) (s : VaultDir) :
    (Vault.suppress (Program.perform FileOp.chmodParent)).run os.handle s = (.ok (), s) :=
  run_suppress (by rw [Program.run_perform]; exact report_same os.chmodParent s)

theorem run_chmodFile (os : SystemAnswers) (s : VaultDir) :
    (Vault.suppress (Program.perform FileOp.chmodFile)).run os.handle s = (.ok (), s) :=
  run_suppress (by rw [Program.run_perform]; exact report_same os.chmodFile s)

theorem run_fillTemporary (os : SystemAnswers) (bytes : List UInt8) (old : Option (List UInt8)) :
    (Vault.fillTemporary bytes).run os.handle ⟨old, some []⟩ =
      match os.write, os.close with
      | .ok n, none => (.ok (), ⟨old, some (bytes.take n)⟩)
      | .ok n, some m => (.error (.other m), ⟨old, some (bytes.take n)⟩)
      | .error m, none => (.error (.other m), ⟨old, some []⟩)
      | .error _, some m => (.error (.other m), ⟨old, some []⟩) := by
  rw [Vault.fillTemporary, Program.tryFinally]
  cases write : os.write <;> cases close : os.close <;>
    simp [Program.run_bind, Program.run_attempt, SystemAnswers.handle, report, write, close]

/-- A failure after the temporary file was made removes it, and reports what went wrong, unless
the removal fails in its turn. -/
theorem run_conclude_error (v : Vault) (os : SystemAnswers) (bytes t : List UInt8)
    (old : Option (List UInt8)) (m : String)
    (stopped : (Vault.install bytes).run os.handle ⟨old, some []⟩ =
      (.error (.other m), ⟨old, some t⟩)) :
    ((Vault.install bytes).attempt.bind v.conclude).run os.handle ⟨old, some []⟩ =
      match os.unlink with
      | some m' => (.error (.other m'), ⟨old, some t⟩)
      | none => (.error (.vaultConfigurationError
          s!"failed to write vault file {v.path}: {m}"), ⟨old, none⟩) := by
  rw [Program.run_bind_ok (Program.run_attempt _ _), stopped]
  cases unlink : os.unlink <;>
    simp [Vault.conclude, Program.run_bind, SystemAnswers.handle, report, unlink]

/-- What the calls come to once the temporary file is there. -/
theorem run_install (v : Vault) (os : SystemAnswers) (bytes : List UInt8)
    (old : Option (List UInt8)) (mkdir : os.mkdir = none) (mkstemp : os.mkstemp = none) :
    ((Vault.install bytes).attempt.bind v.conclude).run os.handle ⟨old, some []⟩ =
      ((v.writeFile os.toOsAnswers bytes.take old).2.2,
        ⟨(v.writeFile os.toOsAnswers bytes.take old).1,
          (v.writeFile os.toOsAnswers bytes.take old).2.1⟩) := by
  have filled := run_fillTemporary os bytes old
  rw [Vault.writeFile, mkdir, mkstemp]
  cases write : os.write with
  | error m =>
      cases close : os.close with
      | none =>
          rw [write, close] at filled
          rw [run_conclude_error v os bytes [] old m (Program.run_bind_error filled)]
          cases os.unlink <;> rfl
      | some m' =>
          rw [write, close] at filled
          rw [run_conclude_error v os bytes [] old m' (Program.run_bind_error filled)]
          cases os.unlink <;> rfl
  | ok n =>
      cases close : os.close with
      | some m =>
          rw [write, close] at filled
          rw [run_conclude_error v os bytes (bytes.take n) old m (Program.run_bind_error filled)]
          cases os.unlink <;> rfl
      | none =>
          rw [write, close] at filled
          have replaces : (Vault.install bytes).run os.handle ⟨old, some []⟩ =
              os.handle .replace ⟨old, some (bytes.take n)⟩ := by
            rw [Vault.install, Program.monad_bind_eq, Program.run_bind_ok filled,
              Program.monad_bind_eq, Program.run_bind_ok (run_chmodFile os _), Program.run_perform]
          rw [SystemAnswers.handle] at replaces
          cases replace : os.replace with
          | some m =>
              rw [replace] at replaces
              rw [run_conclude_error v os bytes (bytes.take n) old m replaces]
              cases os.unlink <;> rfl
          | none =>
              rw [replace] at replaces
              rw [Program.run_bind_ok (Program.run_attempt _ _), replaces]
              rfl

/-- Without the temporary file nothing is written. -/
theorem run_prepare (depth : Nat) (next : VaultState) (os : SystemAnswers)
    (old : Option (List UInt8)) :
    (Vault.prepare depth next).run os.handle ⟨old, none⟩ =
      match os.mkdir, Vault.serialize depth next, os.mkstemp with
      | some m, _, _ => (.error (.other m), ⟨old, none⟩)
      | none, .error e, _ => (.error (.other e.message), ⟨old, none⟩)
      | none, .ok _, some m => (.error (.other m), ⟨old, none⟩)
      | none, .ok bytes, none => (.ok bytes, ⟨old, some []⟩) := by
  cases mkdir : os.mkdir with
  | some m => simp [Vault.prepare, Program.run_bind, SystemAnswers.handle, report, mkdir]
  | none =>
      cases serialized : Vault.serialize depth next with
      | error e =>
          simp [Vault.prepare, Program.run_bind, SystemAnswers.handle, report, mkdir, serialized,
            run_chmodParent, Except.mapError]
      | ok bytes =>
          cases mkstemp : os.mkstemp <;>
            simp [Vault.prepare, Program.run_bind, SystemAnswers.handle, report, mkdir, serialized,
              run_chmodParent, mkstemp, Except.mapError]

/-- A call that serializes its state comes to what `writeFile` says. -/
theorem run_writeStateCalls (v : Vault) {depth : Nat} {next : VaultState} (os : SystemAnswers)
    (old : Option (List UInt8)) (serialized : Vault.serialize depth next = .ok bytes) :
    (v.writeStateCalls depth next).run os.handle ⟨old, none⟩ =
      ((v.writeFile os.toOsAnswers bytes.take old).2.2,
        ⟨(v.writeFile os.toOsAnswers bytes.take old).1,
          (v.writeFile os.toOsAnswers bytes.take old).2.1⟩) := by
  have prepared := run_prepare depth next os old
  cases mkdir : os.mkdir with
  | some m =>
      rw [mkdir] at prepared
      rw [Vault.writeStateCalls, Program.monad_bind_eq, Program.run_bind_error prepared,
        Vault.writeFile, mkdir]
  | none =>
      cases mkstemp : os.mkstemp with
      | some m =>
          rw [mkdir, serialized, mkstemp] at prepared
          rw [Vault.writeStateCalls, Program.monad_bind_eq, Program.run_bind_error prepared,
            Vault.writeFile, mkdir, mkstemp]
      | none =>
          rw [mkdir, serialized, mkstemp] at prepared
          rw [Vault.writeStateCalls, Program.monad_bind_eq, Program.run_bind_ok prepared]
          exact run_install v os bytes old mkdir mkstemp

/-- A state that is not serialized is not written. -/
theorem run_unserialized (v : Vault) {depth : Nat} {next : VaultState} {e : PyError}
    (os : SystemAnswers) (old : Option (List UInt8))
    (failed : Vault.serialize depth next = .error e) :
    (v.writeStateCalls depth next).run os.handle ⟨old, none⟩ =
      (.error (.other (os.mkdir.getD e.message)), ⟨old, none⟩) := by
  have prepared := run_prepare depth next os old
  rw [failed] at prepared
  cases mkdir : os.mkdir with
  | some m =>
      rw [mkdir] at prepared
      exact Program.run_bind_error prepared
  | none =>
      rw [mkdir] at prepared
      exact Program.run_bind_error prepared

/-- The calls end as `writeState` does, where a document is read back from its text and no part of
the text is JSON. -/
theorem run_writeState (v : Vault) {depth : Nat} {next : VaultState} {parse : List UInt8 → Disk}
    (os : SystemAnswers) (old : Option (List UInt8))
    (reads : ∀ bytes n, Vault.serialize depth next = .ok bytes → parse (bytes.take n) =
      if n < bytes.length then .undecodable else .json (.obj (Vault.document next))) :
    let ended := (v.writeStateCalls depth next).run os.handle ⟨old, none⟩
    (ended.2.target.map parse, ended.1) = Vault.writeState (old.map parse) next
      (v.writeOutcome depth os.toOsAnswers next) := by
  intro ended
  cases serialized : Vault.serialize depth next with
  | error e =>
      rw [show ended = _ from run_unserialized v os old serialized, Vault.writeOutcome, serialized]
      cases os.mkdir <;> rfl
  | ok bytes =>
      have ran : ended = _ := run_writeStateCalls v os old serialized
      rw [ran]
      rcases Vault.writeFile_cases v os.toOsAnswers bytes.take old with
        ⟨fails, temporary, e, written⟩ | ⟨goes, n, taken, written⟩
      · have raised := congrArg (fun r => r.2.2) written
        rw [written, Vault.writeOutcome_of_error serialized raised]
        rfl
      · rcases Vault.writeOutcome_cases v depth os.toOsAnswers next with
          ⟨fails, -⟩ | ⟨-, bytes', n', serialized', taken', outcome⟩
        · rw [goes, serialized] at fails
          cases fails
        · cases serialized.symm.trans serialized'
          cases taken.symm.trans taken'
          rw [written, outcome, Option.map_some, reads bytes n serialized]
          split <;> rfl

/-- Only the replacement touches the vault file. -/
theorem target_kept (os : SystemAnswers) (op : FileOp) (s : VaultDir) (other : op ≠ .replace) :
    (os.handle op s).2.target = s.target := by
  cases op with
  | mkdir => exact congrArg VaultDir.target (report_same os.mkdir s)
  | chmodParent => exact congrArg VaultDir.target (report_same os.chmodParent s)
  | mkstemp =>
      rw [SystemAnswers.handle]
      cases os.mkstemp <;> rfl
  | write buffer =>
      rw [SystemAnswers.handle]
      cases os.write <;> rfl
  | close => exact congrArg VaultDir.target (report_same os.close s)
  | chmodFile => exact congrArg VaultDir.target (report_same os.chmodFile s)
  | replace => exact absurd rfl other
  | unlink =>
      rw [SystemAnswers.handle]
      cases os.unlink <;> rfl

/-- A program without the replacement keeps what holds of the vault file. -/
theorem throughout_of_within {α : Type} {p : Writing α} {P : Option (List UInt8) → Prop}
    (within : p.Within (· ≠ FileOp.replace)) (here : P s.target) :
    p.Throughout os.handle (fun s => P s.target) s :=
  .of_within within (fun op s other held => by rw [target_kept os op s other]; exact held) here

theorem within_suppress {chmod : Writing Unit} (within : chmod.Within (· ≠ FileOp.replace)) :
    (Vault.suppress chmod).Within (· ≠ FileOp.replace) :=
  within.attempt.bind fun _ => trivial

theorem within_prepare (depth : Nat) (next : VaultState) :
    (Vault.prepare depth next).Within (· ≠ FileOp.replace) := by
  refine Program.Within.bind (Program.within_perform (by decide)) fun _ => ?_
  refine Program.Within.bind (within_suppress (Program.within_perform (by decide))) fun _ => ?_
  refine Program.Within.bind (Program.within_settle _) fun _ => ?_
  exact Program.Within.bind (Program.within_perform (by decide)) fun _ => trivial

theorem within_fillTemporary (bytes : List UInt8) :
    (Vault.fillTemporary bytes).Within (· ≠ FileOp.replace) := by
  refine Program.Within.tryFinally ?_ (Program.within_perform (by decide))
  refine Program.Within.bind (Program.within_perform ?_) fun _ => trivial
  intro same
  cases same

theorem within_conclude (v : Vault) (r : Except VaultExn Unit) :
    (v.conclude r).Within (· ≠ FileOp.replace) := by
  cases r with
  | ok _ => trivial
  | error e =>
      cases e with
      | other m => exact Program.Within.bind (Program.within_perform (by decide)) fun _ => trivial
      | _ => trivial

variable (bytes) in
/-- What holds of the old file and of one that is installed holds throughout. -/
theorem throughout_install {P : Option (List UInt8) → Prop} (here : P old)
    (there : ∀ n, os.write = .ok n → os.close = none → os.replace = none →
      P (some (bytes.take n))) :
    (Vault.install bytes).Throughout os.handle (fun s => P s.target) ⟨old, some []⟩ := by
  have filled := run_fillTemporary os bytes old
  refine Program.Throughout.bind (throughout_of_within (within_fillTemporary bytes) here) ?_
  intro _ s₁ fills
  rw [filled] at fills
  cases write : os.write with
  | error m =>
      rw [write] at fills
      cases close : os.close <;> rw [close] at fills <;> cases fills
  | ok n =>
      cases close : os.close with
      | some m =>
          rw [write, close] at fills
          cases fills
      | none =>
          rw [write, close] at fills
          obtain ⟨-, rfl⟩ := Prod.mk.inj fills
          refine Program.Throughout.bind (throughout_of_within (within_suppress
            (Program.within_perform (by decide))) here) fun _ s₂ suppressed => ?_
          rw [run_chmodFile] at suppressed
          obtain ⟨-, rfl⟩ := Prod.mk.inj suppressed
          refine .perform here ?_
          rw [SystemAnswers.handle]
          cases replace : os.replace with
          | some m => exact here
          | none => exact there n write close replace

/-- The bytes of the old file, or all those of the new one. -/
def OldOrNew (depth : Nat) (next : VaultState) (old file : Option (List UInt8)) : Prop :=
  file = old ∨ ∃ bytes, Vault.serialize depth next = .ok bytes ∧ file = some bytes

/-- A call keeps the old file or puts the whole new one in its place, wherever the process dies;
it returns with the new one, and leaves no temporary file behind unless it dies. -/
structure WritesAtomically (v : Vault) (depth : Nat) (next : VaultState) (os : SystemAnswers)
    (old : Option (List UInt8)) : Prop where
  whole : (v.writeStateCalls depth next).Throughout os.handle
    (fun s => OldOrNew depth next old s.target) ⟨old, none⟩
  returned : ∀ s, (v.writeStateCalls depth next).run os.handle ⟨old, none⟩ = (.ok (), s) →
    (∃ bytes, Vault.serialize depth next = .ok bytes ∧ s.target = some bytes) ∧ s.temporary = none
  raised : ∀ e s, (v.writeStateCalls depth next).run os.handle ⟨old, none⟩ = (.error e, s) →
    s.temporary = none

/-- What replaces the file is whole, and a temporary file that does not is removed. -/
def OsAnswers.Sound (os : OsAnswers) (size : Nat) : Prop :=
  if os.fails then os.mkdir.isSome ∨ os.mkstemp.isSome ∨ os.unlink = none
  else ∃ n, os.write = .ok n ∧ size ≤ n

/-- A failing write leaves the temporary file if it was made and is not removed. -/
theorem writeFile_leaves {α : Type} (v : Vault) (os : OsAnswers) (written : Nat → α)
    (file : Option α) (fails : os.fails = true) :
    ∃ t e, v.writeFile os written file = (file, t, .error e) ∧
      (t = none ↔ os.mkdir.isSome ∨ os.mkstemp.isSome ∨ os.unlink = none) := by
  obtain ⟨mkdir, mkstemp, write, close, replace, unlink⟩ := os
  unfold Vault.writeFile
  cases mkdir with
  | some m => exact ⟨_, _, rfl, iff_of_true rfl (.inl rfl)⟩
  | none =>
      cases mkstemp with
      | some m => exact ⟨_, _, rfl, iff_of_true rfl (.inr (.inl rfl))⟩
      | none =>
          -- The temporary file is there, so it is the answer of `unlink` that counts.
          have counts (t : Option α) (same : t = none ↔ unlink = none) :
              t = none ↔ (none : Option String).isSome ∨ (none : Option String).isSome ∨
                unlink = none := by
            simp [same]
          cases write with
          | error m =>
              cases close <;> cases unlink <;> exact ⟨_, _, rfl, counts _ (by simp)⟩
          | ok n =>
              cases close with
              | some m => cases unlink <;> exact ⟨_, _, rfl, counts _ (by simp)⟩
              | none =>
                  cases replace with
                  | some m => cases unlink <;> exact ⟨_, _, rfl, counts _ (by simp)⟩
                  | none => cases fails

/-- Where only whole files are installed, the old file or the new one is there until the call has
ended. -/
theorem throughout_calls (v : Vault) {depth : Nat} {next : VaultState}
    (whole : ∀ bytes, Vault.serialize depth next = .ok bytes → ∀ n, os.mkdir = none →
      os.mkstemp = none → os.write = .ok n → os.close = none → os.replace = none →
      bytes.take n = bytes) :
    (v.writeStateCalls depth next).Throughout os.handle
      (fun s => OldOrNew depth next old s.target) ⟨old, none⟩ := by
  have here : OldOrNew depth next old old := .inl rfl
  refine Program.Throughout.bind (throughout_of_within (within_prepare depth next) here) ?_
  intro bytes s₁ prepared
  rw [run_prepare] at prepared
  cases mkdir : os.mkdir with
  | some m =>
      rw [mkdir] at prepared
      cases prepared
  | none =>
      cases serialized : Vault.serialize depth next with
      | error e =>
          rw [mkdir, serialized] at prepared
          cases prepared
      | ok bytes' =>
          cases mkstemp : os.mkstemp with
          | some m =>
              rw [mkdir, serialized, mkstemp] at prepared
              cases prepared
          | none =>
              rw [mkdir, serialized, mkstemp] at prepared
              cases prepared
              have installs := throughout_install bytes here
                fun n write close replace => by
                  rw [whole bytes serialized n mkdir mkstemp write close replace]
                  exact .inr ⟨bytes, serialized, rfl⟩
              refine Program.Throughout.bind installs.attempt fun r s₂ attempted => ?_
              refine throughout_of_within (within_conclude v r) ?_
              have held := installs.attempt.finish
              rw [attempted] at held
              exact held

/-- A call writes atomically exactly if the new file is installed whole or not at all, and the
temporary file removed where it is not. -/
theorem write_atomic_iff (v : Vault) (depth : Nat) (next : VaultState) (os : SystemAnswers)
    (old : Option (List UInt8)) :
    WritesAtomically v depth next os old ↔
      ∀ bytes, Vault.serialize depth next = .ok bytes → os.Sound bytes.length := by
  constructor
  · intro atomic bytes serialized
    have ran := run_writeStateCalls v os old serialized
    rw [OsAnswers.Sound]
    cases fails : os.fails with
    | true =>
        obtain ⟨t, e, ends, removed⟩ := writeFile_leaves v os.toOsAnswers bytes.take old fails
        rw [ends] at ran
        exact removed.mp (atomic.raised e _ ran)
    | false =>
        rcases Vault.writeFile_cases v os.toOsAnswers bytes.take old with
          ⟨failed, -⟩ | ⟨-, n, write, ends⟩
        · rw [fails] at failed
          cases failed
        · rw [ends] at ran
          obtain ⟨⟨whole, same, target⟩, -⟩ := atomic.returned _ ran
          cases serialized.symm.trans same
          have length := congrArg List.length (Option.some.inj target)
          rw [List.length_take] at length
          exact ⟨n, write, by omega⟩
  · intro sound
    cases serialized : Vault.serialize depth next with
    | error e =>
        have ran := run_unserialized v os old serialized
        refine ⟨throughout_calls v ?_, fun s returned => ?_, fun e s raised => ?_⟩
        · intro bytes same
          cases serialized.symm.trans same
        · cases ran.symm.trans returned
        · cases ran.symm.trans raised
          rfl
    | ok bytes =>
        have ran := run_writeStateCalls v os old serialized
        have sound := sound bytes serialized
        rw [OsAnswers.Sound] at sound
        cases fails : os.fails with
        | true =>
            rw [fails, if_pos rfl] at sound
            obtain ⟨t, e, ends, removed⟩ := writeFile_leaves v os.toOsAnswers bytes.take old fails
            rw [ends] at ran
            refine ⟨throughout_calls v ?_, fun s returned => ?_, fun e s raised => ?_⟩
            · intro _ _ n mkdir mkstemp write close replace
              rw [OsAnswers.fails, mkdir, mkstemp, write, close, replace] at fails
              cases fails
            · cases ran.symm.trans returned
            · cases ran.symm.trans raised
              exact removed.mpr sound
        | false =>
            rw [fails, if_neg Bool.false_ne_true] at sound
            obtain ⟨n, write, whole⟩ := sound
            rcases Vault.writeFile_cases v os.toOsAnswers bytes.take old with
              ⟨failed, -⟩ | ⟨-, n', write', ends⟩
            · rw [fails] at failed
              cases failed
            · rw [ends] at ran
              cases write.symm.trans write'
              refine ⟨throughout_calls v ?_, fun s returned => ?_, fun e s raised => ?_⟩
              · intro bytes' same n' _ _ write' _ _
                cases serialized.symm.trans same
                cases write.symm.trans write'
                exact List.take_of_length_le whole
              · cases ran.symm.trans returned
                exact ⟨⟨bytes, serialized, congrArg some (List.take_of_length_le whole)⟩, rfl⟩
              · cases ran.symm.trans raised

section ShortWrite

/-- No call fails, but `os.write` takes one byte. -/
def shortWrite : SystemAnswers :=
  ⟨.faultless 1, none, none⟩

theorem long_of_serialize {depth : Nat} {next : VaultState} {bytes : List UInt8}
    (serialized : Vault.serialize depth next = .ok bytes) : 1 < bytes.length := by
  rw [Vault.serialize] at serialized
  cases dumped : Json.dumps depth 0 (.obj (Vault.document next)) with
  | error e =>
      rw [dumped] at serialized
      cases serialized
  | ok text =>
      rw [dumped] at serialized
      cases serialized
      obtain ⟨inner, rfl⟩ := Json.dumps_braces dumped
      simp only [Utf8.encode, String.toList_append, List.flatMap_append, List.length_append]
      have open' : ("\x7b".toList.flatMap String.utf8EncodeChar).length = 1 := by decide
      have close' : ("\x7d".toList.flatMap String.utf8EncodeChar).length = 1 := by decide
      omega

theorem document_initState (salt : List UInt8) : Vault.document (Vault.initState salt) =
    [("version", .int 1), ("salt", .str (.ofList (Base64.encode salt))),
      ("iterations", .int 600000), ("credentials", .obj [])] := rfl

theorem serialisable_initState (salt : List UInt8) :
    Json.serialisable 9 (.obj (Vault.document (Vault.initState salt))) = true := by
  have one : Json.serialisable 8 (.int 1) = true :=
    serialisable_int (lt_intLimit (by decide))
  have iterations : Json.serialisable 8 (.int 600000) = true :=
    serialisable_int (lt_intLimit (by decide))
  rw [document_initState]
  unfold Json.serialisable
  simp only [List.all_cons, List.all_nil, one, iterations]
  rfl

theorem serialize_initState (salt : List UInt8) :
    ∃ bytes, Vault.serialize 9 (Vault.initState salt) = .ok bytes := by
  have shown := Json.dumps_isOk 9 0 (.obj (Vault.document (Vault.initState salt)))
  rw [serialisable_initState] at shown
  cases dumped : Json.dumps 9 0 (.obj (Vault.document (Vault.initState salt))) with
  | error e =>
      rw [dumped] at shown
      cases shown
  | ok text => exact ⟨Utf8.encode text.toList, by rw [Vault.serialize, dumped]; rfl⟩

/-- One byte is the vault file, where there was none, and the call has returned. -/
theorem short_write_installed :
    ¬ WritesAtomically ⟨"/vault", some "pw"⟩ 9 (Vault.initState []) shortWrite none := by
  intro atomic
  obtain ⟨bytes, serialized⟩ := serialize_initState []
  have long := long_of_serialize serialized
  have ran := run_writeStateCalls ⟨"/vault", some "pw"⟩ shortWrite none serialized
  obtain ⟨⟨whole, same, target⟩, -⟩ := atomic.returned _ ran
  cases serialized.symm.trans same
  have shorter : some (bytes.take 1) = some bytes := target
  have length := congrArg List.length (Option.some.inj shorter)
  rw [List.length_take] at length
  omega

end ShortWrite

end OperatingSystem

end Tename
