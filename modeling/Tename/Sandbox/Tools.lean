import Tename.Sandbox.Container
import Tename.Text.Matching
import Tename.Text.Spaces

/-!
# Built-in tools

A tool takes a container and the model's input and returns a `ToolResult`. What it does
with the recipe is nothing, so the recipe is left out. A failing command is a result, with
the text of its streams; a failing upload is one too. Where the command cannot be run at
all, the exception is the tool's.
-/

namespace Tename

/-- A string of the input, if there is one under the name. -/
def textInput (input : Payload) (name : String) : Option String :=
  (input.get? name).bind Json.str?

/-- A string of the input that is not empty. -/
def pathInput (input : Payload) (name : String) : Option String :=
  (textInput input name).filter (· ≠ "")

/-- A result that shows its error. -/
def failedResult (message : String) : ToolResult :=
  ⟨true, message, "", "", none, some message⟩

/-- `_missing`. -/
def missing (tool field : String) : ToolResult :=
  failedResult s!"{tool}: missing required input '{field}' (non-empty string)"

/-- The streams of a command as one text. -/
def streamsContent (ran : RanCommand) : String :=
  let stdout := ran.stdout
  let stderr := ran.stderr
  if stderr = "" then stdout
  else if stdout = "" then s!"[stderr]\n{stderr}"
  else s!"{stdout}\n[stderr]\n{stderr}"

/-- The result of a command of `bash` or `python`. -/
def commandResult (tool : String) (ran : RanCommand) : ToolResult :=
  let code := ran.exitCode
  ⟨code ≠ 0, streamsContent ran, ran.stdout, ran.stderr, some code,
    if code ≠ 0 then some s!"{tool} exited with code {code}" else none⟩

/-- The result of a command that reads for a `file_` tool. -/
def readingResult (tool : String) (ran : RanCommand) : ToolResult :=
  let code := ran.exitCode
  if code ≠ 0 then
    let said := strip ran.stderr
    let message := if said = "" then s!"{tool} exited with code {code}" else said
    ⟨true, message, ran.stdout, ran.stderr, some code, some message⟩
  else ⟨false, ran.stdout, ran.stdout, ran.stderr, some code, none⟩

variable (repr : String → String)

/-- `bash_tool`. -/
def bashTool (c : Container) (input : Payload) : Docker ToolResult :=
  match (textInput input "command").filter fun command => strip command ≠ "" with
  | none => return missing "bash" "command"
  | some command => do
      let ran ← runExec c ["bash", "-lc", command]
      return commandResult "bash" ran

def hexDigit (d : Nat) : Char :=
  "0123456789abcdef".toList.getD d '0'

/-- `uuid4().hex`. -/
def uuidHex (n : Nat) : String :=
  .ofList ((List.range 32).map fun i => hexDigit (n / 16 ^ (31 - i) % 16))

/-- Where `python` puts the script it runs. -/
def scriptPath (n : Nat) : String :=
  let hex := uuidHex n
  s!"/tmp/tename_{hex}.py"

/-- `python_tool`. -/
def pythonTool (c : Container) (input : Payload) : Docker ToolResult :=
  match pathInput input "code" with
  | none => return missing "python" "code"
  | some code => do
      let path := scriptPath (← Docker.uuid4)
      match ← Docker.except (putFile repr c path code) with
      | .error e =>
          let text := e.message
          return failedResult s!"python: could not upload script: {text}"
      | .ok () => do
          let ran ← runExec c ["python", path]
          -- The outcome of the cleanup is ignored, but not what it raises.
          let _ ← runExec c ["rm", "-f", path]
          return commandResult "python" ran

/-- `file_read_tool`. -/
def fileReadTool (c : Container) (input : Payload) : Docker ToolResult :=
  match pathInput input "path" with
  | none => return missing "file_read" "path"
  | some path => do
      let ran ← runExec c ["cat", "--", path]
      return readingResult "file_read" ran

/-- `file_write_tool`. -/
def fileWriteTool (c : Container) (input : Payload) : Docker ToolResult :=
  match pathInput input "path", textInput input "content" with
  | none, _ => return missing "file_write" "path"
  | some _, none => return failedResult "file_write: 'content' must be a string"
  | some path, some content => do
      match ← Docker.except (putFile repr c path content) with
      | .error e =>
          let text := e.message
          return failedResult s!"file_write: {text}"
      | .ok () =>
          let length := content.length
          return ⟨false, s!"wrote {length} bytes to {path}", "", "", none, none⟩

/-- The text after an edit. -/
def edited (original oldStr newStr : String) (replaceAll : Bool) : String :=
  .ofList <|
    if replaceAll then Matching.replace oldStr.toList newStr.toList original.toList
    else Matching.replaceFirst oldStr.toList newStr.toList original.toList

/-- The result of an edit. -/
def editResult (path : String) (found : Nat) : ToolResult :=
  let plural := if found ≠ 1 then "s" else ""
  ⟨false, s!"edited {path} ({found} replacement{plural})", "", "", none, none⟩

/-- `file_edit_tool` once it has read the file. -/
def editText (c : Container) (path oldStr newStr : String) (replaceAll : Bool)
    (original : String) : Docker ToolResult :=
  let found := Matching.count oldStr.toList original.toList
  if found = 0 then return failedResult s!"file_edit: old_str not found in {path}"
  else if found > 1 ∧ replaceAll = false then
    return failedResult (s!"file_edit: old_str matches {found} locations in {path}; " ++
      "pass replace_all=true to replace every match")
  else do
    match ← Docker.except (putFile repr c path (edited original oldStr newStr replaceAll)) with
    | .error e =>
        let text := e.message
        return failedResult s!"file_edit: {text}"
    | .ok () => return editResult path found

/-- `file_edit_tool` behind the checks of its input. -/
def editFile (c : Container) (path oldStr newStr : String) (replaceAll : Bool) :
    Docker ToolResult := do
  let read ← runExec c ["cat", "--", path]
  if read.exitCode ≠ 0 then
    let code := read.exitCode
    let said := strip read.stderr
    let message := if said = "" then s!"file_edit: cannot read {path} (exit {code})" else said
    return ⟨true, message, "", read.stderr, some code, some message⟩
  else editText repr c path oldStr newStr replaceAll read.stdout

/-- `file_edit_tool`. -/
def fileEditTool (c : Container) (input : Payload) : Docker ToolResult :=
  match pathInput input "path", textInput input "old_str", textInput input "new_str" with
  | none, _, _ => return missing "file_edit" "path"
  | some _, none, _ => return failedResult "file_edit: 'old_str' must be a string"
  | some _, some _, none => return failedResult "file_edit: 'new_str' must be a string"
  | some path, some oldStr, some newStr =>
      editFile repr c path oldStr newStr (input.getD "replace_all" (.bool false)).truthy

/-- `file_list_tool`. -/
def fileListTool (c : Container) (input : Payload) : Docker ToolResult :=
  match (input.getD "path" (.str "/workspace")).str?.filter (· ≠ "") with
  | none => return missing "file_list" "path"
  | some path => do
      let ran ← runExec c ["ls", "-la", "--", path]
      return readingResult "file_list" ran

/-- A tool of the registry. -/
inductive BuiltinTool where
  | bash
  | python
  | fileRead
  | fileWrite
  | fileEdit
  | fileList
  deriving DecidableEq

/-- The registry's key of a tool. -/
def BuiltinTool.name : BuiltinTool → String
  | .bash => "bash"
  | .python => "python"
  | .fileRead => "file_read"
  | .fileWrite => "file_write"
  | .fileEdit => "file_edit"
  | .fileList => "file_list"

/-- `_BUILTIN_TOOLS`, by name. -/
def getTool (name : String) : Option BuiltinTool :=
  [.bash, .python, .fileRead, .fileWrite, .fileEdit, .fileList].find? (·.name = name)

def BuiltinTool.call : BuiltinTool → Container → Payload → Docker ToolResult
  | .bash => bashTool
  | .python => pythonTool repr
  | .fileRead => fileReadTool
  | .fileWrite => fileWriteTool repr
  | .fileEdit => fileEditTool repr
  | .fileList => fileListTool

/-- The characters of a natural number. -/
theorem isDigit_of_mem_toString {n : Nat} {x : Char} (mem : x ∈ (toString n).toList) :
    x.isDigit = true := by
  refine Nat.isDigit_of_mem_toDigits (b := 10) (by decide) (by decide) (n := n) ?_
  simpa [toString, Nat.repr] using mem

/-- The characters of an integer, as an error text shows it. -/
theorem mem_toString_int {n : Int} {x : Char} (mem : x ∈ (toString n).toList) :
    x = '-' ∨ x.isDigit = true := by
  cases n with
  | ofNat n => exact .inr (isDigit_of_mem_toString mem)
  | negSucc n =>
      have shown : (toString (Int.negSucc n)).toList = '-' :: (toString (n + 1)).toList :=
        String.toList_append
      rw [shown] at mem
      rcases List.mem_cons.mp mem with rfl | mem
      · exact .inl rfl
      · exact .inr (isDigit_of_mem_toString mem)

end Tename
