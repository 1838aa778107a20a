import Tename.Text.Spaces
import Tename.Vault.AnyFile

/-!
# The vault commands

`tename vault set`, `list`, `remove` and `get`. Every command is a process of its own, with the
passphrase of its own environment, and all it leaves is the file.
-/

namespace Tename

/-- What a prompt is answered with. -/
inductive Reply where
  | typed (text : PyStr)
  /-- `KeyboardInterrupt` or `EOFError`. -/
  | interrupted

inductive VaultCommand where
  | set (name : String) (reply : Reply)
  | list
  | remove (name : String) (yes : Bool) (reply : Reply)
  | get (name : String)

/-- A process that runs a command, what it draws, and how what it writes ends. -/
structure Invocation where
  command : VaultCommand
  /-- As the errors name it. All processes are about one file. -/
  vaultPath : String
  passphrase : Option PyStr
  salt : List UInt8
  draw : Nat
  write : WriteOutcome

/-- What a command prints, and the exit code it returns or what it raises. -/
structure CommandEnd where
  stdout : String
  stderr : String
  code : Except VaultExn Nat

def VaultExn.message : VaultExn → String
  | .vaultError m | .vaultLockedError m | .vaultCredentialNotFoundError m
  | .vaultConfigurationError m | .other m => m

namespace CommandEnd

/-- `except (KeyboardInterrupt, EOFError)`. -/
def interrupted : CommandEnd := ⟨"\n", "", .ok 130⟩

/-- `except VaultError`. -/
def failed (e : VaultExn) : CommandEnd :=
  if e.isVaultError then ⟨"", s!"error: {e.message}\n", .ok 1⟩ else ⟨"", "", .error e⟩

/-- The end of `cmd_set`, after `store`. -/
def stored (shown : String) : Except VaultExn Unit → CommandEnd
  | .ok () => ⟨s!"stored credential {shown}\n", "", .ok 0⟩
  | .error e => failed e

/-- The names, each on a line. -/
def listing (names : List String) : String :=
  if names = [] then "(no credentials stored)\n" else .join (names.map (· ++ "\n"))

/-- The end of `cmd_list`. -/
def listed : Except VaultExn (List String) → CommandEnd
  | .ok names => ⟨listing names, "", .ok 0⟩
  | .error e => failed e

/-- The end of `cmd_remove`, after `revoke`. -/
def removed (shown : String) : Except VaultExn Bool → CommandEnd
  | .ok true => ⟨s!"removed credential {shown}\n", "", .ok 0⟩
  | .ok false => ⟨"", s!"credential {shown} was not stored\n", .ok 1⟩
  | .error e => failed e

/-- The end of `cmd_get`. -/
def got (shown : String) : Except VaultExn String → CommandEnd
  | .ok value => ⟨value ++ "\n", "", .ok 0⟩
  | .error (.vaultCredentialNotFoundError _) => ⟨"", s!"no credential named {shown}\n", .ok 1⟩
  | .error e => failed e

end CommandEnd

/-- No other character is lowered to one of these, and no surrogate is. -/
def affirmative : PyStr → Bool
  | .text text => (strip text).toLower ∈ ["y", "yes"]
  | .unencodable .. => false

/-- A removal that goes on after its prompt, if it has one. -/
def confirmed (yes : Bool) : Reply → Bool
  | .typed text => yes || affirmative text
  | .interrupted => yes

namespace Invocation

variable (crypto : Crypto) (repr : Json → String) (i : Invocation)

/-- `_make_vault`. -/
def vault : Vault where
  path := i.vaultPath
  passphrase := i.passphrase

def cmdSet (name : String) (reply : Reply) (file : VaultFile) : VaultFile × CommandEnd :=
  let shown := repr (.str name)
  match reply with
  | .interrupted => (file, .interrupted)
  | .typed value =>
      if value = .text "" then
        (file, ⟨"", s!"no value supplied for {shown}; nothing stored\n", .ok 2⟩)
      else
        let (file, answer) := i.vault.store crypto repr name value i.salt i.draw i.write file
        (file, .stored shown answer)

def cmdList (file : VaultFile) : CommandEnd :=
  .listed (i.vault.list repr file)

def cmdRemove (name : String) (yes : Bool) (reply : Reply) (file : VaultFile) :
    VaultFile × CommandEnd :=
  let shown := repr (.str name)
  if confirmed yes reply then
    let (file, answer) := i.vault.revoke repr name i.write file
    (file, .removed shown answer)
  else
    match reply with
    | .interrupted => (file, .interrupted)
    | .typed _ => (file, ⟨"cancelled\n", "", .ok 0⟩)

def cmdGet (name : String) (file : VaultFile) : CommandEnd :=
  let shown := repr (.str name)
  .got shown (i.vault.retrieve crypto repr name file)

/-- The process, from its beginning to its end. -/
def run (file : VaultFile) : VaultFile × CommandEnd :=
  match i.command with
  | .set name reply => i.cmdSet crypto repr name reply file
  | .list => (file, i.cmdList repr file)
  | .remove name yes reply => i.cmdRemove repr name yes reply file
  | .get name => (file, i.cmdGet crypto repr name file)

/-- Processes one after the other: the file they leave, and how each has ended. -/
def runAll : VaultFile → List Invocation → VaultFile × List (Invocation × CommandEnd)
  | file, [] => (file, [])
  | file, i :: rest =>
      let (file, e) := i.run crypto repr file
      let (file, ended) := runAll file rest
      (file, (i, e) :: ended)

end Invocation

end Tename
