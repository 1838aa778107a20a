import Tename.Sandbox.Editing
import Tename.Sandbox.Teardown
import Tename.Sandbox.ToolEnds

/-!
# The texts of the files

What the results of the file tools tell of the files of a container, whatever else is in it. A
write that succeeds makes the text of its file known, and so does an edit of a text that is known;
one that does not may have done anything to that file, and to no other. `bash` and `python` may
do anything to all of them.
-/

namespace Tename

open Docker

variable {σ : Type}

/-- What the paths in each container hold, as `cat` prints it. -/
abbrev FileContents (σ : Type) := σ → Container → String → Option (List UInt8)

/-- The operations of the file tools that upload nothing, and the end of a tool by its timeout. -/
inductive LooksOp (c : Container) : DockerOp → Prop
  | cat (path : String) : LooksOp c (.execRun c ["cat", "--", path])
  | list (path : String) : LooksOp c (.execRun c ["ls", "-la", "--", path])
  | mkdir (directory : String) : LooksOp c (.execRun c ["mkdir", "-p", directory])
  | kill : LooksOp c (.kill c)

/-- Docker keeps files: an upload changes what its path holds, and at most what the paths that
overlap it hold. -/
structure KeepsFiles (docker : DockerHandler σ) (life : LifeHandler σ) (contents : FileContents σ)
    (overlap : String → String → Bool) : Prop where
  cat : ∀ {c path s bytes out s'}, contents s c path = some bytes →
    docker (.execRun c ["cat", "--", path]) s = (.ok out, s') →
      out.exitCode.getD 0 = 0 ∧ out.stdout.getD [] = bytes
  looks : ∀ {c o} s, LooksOp c o → contents (docker o s).2 = contents s
  put : ∀ {c path data s s'}, NamesFile path →
    docker (.putArchive c (uploadTarget path).1 ⟨(uploadTarget path).2, data⟩) s = (.ok true, s') →
      contents s' c path = some data
  put_keeps : ∀ {c path path' data} s, NamesFile path → path' ≠ path →
    overlap path path' = false →
      contents (docker (.putArchive c (uploadTarget path).1 ⟨(uploadTarget path).2, data⟩) s).2 c
        path' = contents s c path'
  reload : ∀ c s, contents (life (.reload c) s).2 = contents s

/-- The texts that are known, by path. -/
abbrev Texts := String → Option String

namespace Texts

def unknown : Texts := fun _ => none

variable (overlap : String → String → Bool) (known : Texts)

/-- A file has been given a text, or nobody knows which. -/
def put (path : String) (text : Option String) : Texts := fun path' =>
  if path' = path then text else if overlap path path' then none else known path'

/-- The file that a call may upload, and what it then holds, as far as that is known. -/
def upload? : BuiltinTool → Payload → Option (String × Option String)
  | .fileWrite, input =>
      match pathInput input "path", textInput input "content" with
      | some path, some content => if NamesFile path then some (path, some content) else none
      | _, _ => none
  | .fileEdit, input =>
      match pathInput input "path", textInput input "old_str", textInput input "new_str" with
      | some path, some oldStr, some newStr =>
          let replaceAll := (input.getD "replace_all" (.bool false)).truthy
          if NamesFile path then
            match known path with
            | none => some (path, none)
            | some text =>
                if Editable text.toList oldStr.toList replaceAll then
                  some (path, some (edited text oldStr newStr replaceAll))
                else none
          else none
      | _, _, _ => none
  | _, _ => none

/-- What is known after a call, by whether its result was a success. -/
def after (tool : BuiltinTool) (input : Payload) (success : Bool) : Texts :=
  match tool with
  | .bash | .python => unknown
  | _ =>
      match known.upload? tool input with
      | none => known
      | some (path, text) => known.put overlap path (if success then text else none)

/-- A tool that is not in the registry does nothing. -/
def afterCall (name : String) (input : Payload) (success : Bool) : Texts :=
  match getTool name with
  | none => known
  | some tool => known.after overlap tool input success

end Texts

section Tools

variable {repr : String → String} {docker : DockerHandler σ} {life : LifeHandler σ}
variable {contents : FileContents σ} {overlap : String → String → Bool} {c : Container}
variable {known known' : Texts} {d d' : σ} {path path' content text : String} {input : Payload}

/-- The texts are what the files hold. -/
def Knows (contents : FileContents σ) (c : Container) (known : Texts) (d : σ) : Prop :=
  ∀ path text, known path = some text → contents d c path = some (Utf8.encode text.toList)

theorem knows_unknown : Knows contents c .unknown d := by
  rintro path text ⟨⟩

theorem Knows.same (knows : Knows contents c known d) (same : contents d' = contents d) :
    Knows contents c known d' := fun path text found => by rw [same, knows path text found]

/-- Of a file that may be changed nothing is known. -/
theorem Knows.forget (knows : Knows contents c known d) (path : String) :
    Knows contents c (known.put overlap path none) d := by
  intro path' text found
  unfold Texts.put at found
  split at found
  · cases found
  · split at found
    · cases found
    · exact knows path' text found

/-- The uploads to a path, with the directory before them. -/
inductive PutsOp (c : Container) (path : String) : DockerOp → Prop
  | mkdir (directory : String) : PutsOp c path (.execRun c ["mkdir", "-p", directory])
  | put (names : NamesFile path) (data : List UInt8) :
      PutsOp c path (.putArchive c (uploadTarget path).1 ⟨(uploadTarget path).2, data⟩)

theorem within_runExec {A : DockerOp → Prop} {cmd : List String} (allowed : A (.execRun c cmd)) :
    (runExec c cmd).Within A :=
  .bind (Program.within_perform allowed) fun _ => trivial

theorem puts_putFile : (putFile repr c path content).Within (PutsOp c path) := by
  by_cases names : NamesFile path
  · rw [putFile_of_names repr c names]
    refine .bind (within_runExec (.mkdir _)) fun made => ?_
    split
    · exact trivial
    · refine .bind (Program.within_perform (.put names _)) fun ok => ?_
      split
      · exact trivial
      · exact trivial
  · unfold putFile
    split
    · exact trivial
    · rename_i absolute
      rw [splitAbs, if_pos]
      · exact trivial
      · by_contra file
        exact names ⟨by simpa using absolute, file⟩

/-- Where the path names no file, nothing is asked of docker. -/
theorem silent_putFile {A : DockerOp → Prop} (bad : ¬ NamesFile path) :
    (putFile repr c path content).Within A := by
  unfold putFile
  split
  · exact trivial
  · rename_i absolute
    rw [splitAbs, if_pos]
    · exact trivial
    · by_contra file
      exact bad ⟨by simpa using absolute, file⟩

namespace KeepsFiles

variable (keeps : KeepsFiles docker life contents overlap)

include keeps in
theorem forgets {o : DockerOp} (puts : PutsOp c path o)
    (knows : Knows contents c (known.put overlap path none) d) :
    Knows contents c (known.put overlap path none) (docker o d).2 := by
  cases puts with
  | mkdir directory => exact knows.same (keeps.looks d (.mkdir directory))
  | put names data =>
      intro path' text found
      have before := knows path' text found
      unfold Texts.put at found
      split at found
      · cases found
      · rename_i other
        split at found
        · cases found
        · rename_i apart
          rw [keeps.put_keeps d names other (by simpa using apart), before]

/-- What `cat` prints of a text that is known. -/
theorem cat_known (keeps : KeepsFiles docker life contents overlap)
    (knows : Knows contents c known d) (found : known path = some text) {ran : RanCommand}
    (printed : (runExec c ["cat", "--", path]).run docker d = (.ok ran, d')) :
    ran.exitCode = 0 ∧ ran.stdout = text ∧ contents d' = contents d := by
  rw [run_runExec] at printed
  obtain ⟨outcome, rfl⟩ := Prod.mk.inj printed
  refine ⟨?_, ?_, keeps.looks d (.cat path)⟩
  all_goals
    cases answered : (docker (.execRun c ["cat", "--", path]) d).1 with
    | error e =>
        rw [answered] at outcome
        cases outcome
    | ok out =>
        rw [answered] at outcome
        obtain rfl := Except.ok.inj outcome
        obtain ⟨code, stdout⟩ := keeps.cat (knows path text found)
          (Prod.ext answered rfl : docker (.execRun c ["cat", "--", path]) d = (.ok out, _))
        first
          | exact code
          | exact (decodeStream_eq out.stdout).trans
              (by rw [stdout, Utf8.decodeReplace_encode, String.ofList_toList])

theorem looks_editFile {oldStr newStr : String} {replaceAll : Bool} :
    (editFile repr c path oldStr newStr replaceAll).Within
      fun o => LooksOp c o ∨ PutsOp c path o := by
  refine .bind (within_runExec (.inl (.cat path))) fun read => ?_
  split
  · exact trivial
  · unfold editText
    dsimp only
    split
    · exact trivial
    · split
      · exact trivial
      · refine .bind (within_except (puts_putFile.mono fun o => .inr)) fun done => ?_
        split <;> exact trivial

theorem editText_of_not_editable (repr : String → String) (c : Container) (path newStr : String)
    {oldStr original : String} {replaceAll : Bool}
    (other : ¬ Editable original.toList oldStr.toList replaceAll) :
    ∃ m, editText repr c path oldStr newStr replaceAll original = .pure (failedResult m) := by
  unfold Editable at other
  unfold editText
  dsimp only
  split
  · exact ⟨_, rfl⟩
  · rw [if_pos]
    · exact ⟨_, rfl⟩
    · refine ⟨by omega, ?_⟩
      cases replaceAll with
      | false => rfl
      | true => exact absurd (show _ ∨ _ by simp; omega) other

/-- Where the path names no file, an edit does not upload. -/
theorem looks_editFile_of_bad {oldStr newStr : String} {replaceAll : Bool}
    (bad : ¬ NamesFile path) :
    (editFile repr c path oldStr newStr replaceAll).Within (LooksOp c) := by
  refine .bind (within_runExec (.cat path)) fun read => ?_
  split
  · exact trivial
  · unfold editText
    dsimp only
    split
    · exact trivial
    · split
      · exact trivial
      · refine .bind (within_except (silent_putFile bad)) fun done => ?_
        split <;> exact trivial

include keeps in
theorem throughout_looks {p : Docker ToolResult} (within : p.Within (LooksOp c))
    (knows : Knows contents c known d) : p.Throughout docker (Knows contents c known) d :=
  .of_within within (fun _ s looks before => before.same (keeps.looks s looks)) knows

include keeps in
theorem throughout_puts {p : Docker ToolResult}
    (within : p.Within fun o => LooksOp c o ∨ PutsOp c path o) (knows : Knows contents c known d) :
    p.Throughout docker (Knows contents c (known.put overlap path none)) d := by
  refine .of_within within (fun o s allowed before => ?_) (knows.forget path)
  rcases allowed with looks | puts
  · exact before.same (keeps.looks s looks)
  · exact keeps.forgets puts before

include keeps in
/-- What has been uploaded is known. -/
theorem uploaded (ran : (putFile repr c path content).run docker d = (.ok (), d'))
    (knows : Knows contents c known d) :
    NamesFile path ∧ Knows contents c (known.put overlap path (some content)) d' := by
  have others : Knows contents c (known.put overlap path none) d' := by
    have kept : (putFile repr c path content).Throughout docker
        (Knows contents c (known.put overlap path none)) d :=
      .of_within puts_putFile (fun _ _ puts before => keeps.forgets puts before)
        (knows.forget path)
    simpa only [ran] using kept.finish
  have stored : NamesFile path ∧ contents d' c path = some (Utf8.encode content.toList) := by
    have uploads := uploads_putFile repr docker c path content d
    rw [ran] at uploads
    generalize outcome : (Except.ok () : Except DockerExn Unit) = r at uploads
    cases uploads with
    | refused => cases outcome
    | unmade => cases outcome
    | failed => cases outcome
    | @put out s₁ s₂ stored names made code put =>
        cases stored with
        | error e => cases outcome
        | ok ok =>
            cases ok with
            | false => cases outcome
            | true => exact ⟨names, keeps.put names put⟩
  refine ⟨stored.1, fun path' text found => ?_⟩
  by_cases here : path' = path
  · rw [Texts.put, if_pos here] at found
    rw [here, stored.2, ← Option.some.inj found]
  · refine others path' text ?_
    rw [Texts.put, if_neg here] at found ⊢
    exact found

include keeps in
theorem knows_written {r : ToolResult}
    (ran : (fileWriteTool repr c input).run docker d = (.ok r, d')) (fine : r.isError = false)
    (knows : Knows contents c known d) : ∃ path content, pathInput input "path" = some path ∧
      textInput input "content" = some content ∧ NamesFile path ∧
      Knows contents c (known.put overlap path (some content)) d' := by
  unfold fileWriteTool at ran
  split at ran
  · cases ran
    cases fine
  · cases ran
    cases fine
  · rename_i path content given written
    rw [Program.monad_bind_eq, Program.run_bind, run_except] at ran
    cases uploads : (putFile repr c path content).run docker d with
    | mk outcome d₁ =>
        rw [uploads] at ran
        cases outcome with
        | ok u =>
            cases ran
            exact ⟨path, content, given, written, keeps.uploaded uploads knows⟩
        | error e =>
            dsimp only at ran
            split at ran
            · rename_i caught
              split at caught
              · cases caught
                cases ran
                cases fine
              · cases caught
            · cases ran

include keeps in
/-- An edit that succeeds has read a text that it may edit, and uploaded what it makes of it. -/
theorem edits {oldStr newStr : String} {replaceAll : Bool} {r : ToolResult}
    (ran : (editFile repr c path oldStr newStr replaceAll).run docker d = (.ok r, d'))
    (fine : r.isError = false) (knows : Knows contents c known d) :
    ∃ original, (∀ text, known path = some text → original = text) ∧
      Editable original.toList oldStr.toList replaceAll ∧ NamesFile path ∧
      r = editResult path (Matching.count oldStr.toList original.toList) ∧
      Knows contents c (known.put overlap path (some (edited original oldStr newStr replaceAll)))
        d' := by
  cases printed : (runExec c ["cat", "--", path]).run docker d with
  | mk outcome d₁ =>
      cases outcome with
      | error e =>
          rw [editFile, Program.monad_bind_eq, Program.run_bind_error printed] at ran
          cases ran
      | ok read =>
          rw [editFile, Program.monad_bind_eq, Program.run_bind_ok printed] at ran
          split at ran
          · cases ran
            cases fine
          · have looked : contents d₁ = contents d := by
              rw [run_runExec] at printed
              rw [← (Prod.mk.inj printed).2]
              exact keeps.looks d (.cat path)
            by_cases editable : Editable read.stdout.toList oldStr.toList replaceAll
            · rw [run_editText_of_editable editable] at ran
              cases uploads : (putFile repr c path
                  (edited read.stdout oldStr newStr replaceAll)).run docker d₁ with
              | mk outcome d₂ =>
                  rw [uploads] at ran
                  cases outcome with
                  | ok u =>
                      cases ran
                      obtain ⟨names, after⟩ := keeps.uploaded uploads (knows.same looked)
                      exact ⟨read.stdout,
                        fun text found => (keeps.cat_known knows found printed).2.1,
                        editable, names, rfl, after⟩
                  | error e =>
                      dsimp only at ran
                      split at ran
                      · cases ran
                        cases fine
                      · cases ran
            · obtain ⟨m, refused⟩ := editText_of_not_editable repr c path newStr editable
              rw [refused] at ran
              cases ran
              cases fine

include keeps in
/-- A text that is known, and may not be edited, is left as it is. -/
theorem throughout_refused {oldStr newStr : String} {replaceAll : Bool}
    (found : known path = some text)
    (other : ¬ Editable text.toList oldStr.toList replaceAll) (knows : Knows contents c known d) :
    (editFile repr c path oldStr newStr replaceAll).Throughout docker
      (Knows contents c known) d := by
  refine .bind (.of_within (within_runExec (.cat path))
    (fun _ s looks before => before.same (keeps.looks s looks)) knows) fun read d₁ printed => ?_
  obtain ⟨-, rfl, looked⟩ := keeps.cat_known knows found printed
  have after : Knows contents c known d₁ := knows.same looked
  split
  · exact after
  · obtain ⟨m, refused⟩ := editText_of_not_editable repr c path newStr other
    rw [refused]
    exact after

include keeps in
theorem throughout_write (knows : Knows contents c known d) :
    (fileWriteTool repr c input).Throughout docker
      (Knows contents c (known.after overlap .fileWrite input false)) d := by
  unfold fileWriteTool
  split
  · rename_i given
    change Knows contents c _ d
    simpa only [Texts.after, Texts.upload?, given] using knows
  · rename_i given written
    change Knows contents c _ d
    simpa only [Texts.after, Texts.upload?, given, written] using knows
  · rename_i path content given written
    simp only [Texts.after, Texts.upload?, given, written]
    by_cases names : NamesFile path
    · rw [if_pos names]
      refine keeps.throughout_puts (.bind (within_except (puts_putFile.mono fun o => .inr))
        fun done => ?_) knows
      split <;> exact trivial
    · rw [if_neg names]
      refine keeps.throughout_looks (.bind (within_except (silent_putFile names))
        fun done => ?_) knows
      split <;> exact trivial

include keeps in
theorem throughout_edit (knows : Knows contents c known d) :
    (fileEditTool repr c input).Throughout docker
      (Knows contents c (known.after overlap .fileEdit input false)) d := by
  unfold fileEditTool
  split
  · rename_i given
    change Knows contents c _ d
    simpa only [Texts.after, Texts.upload?, given] using knows
  · rename_i given old
    change Knows contents c _ d
    simpa only [Texts.after, Texts.upload?, given, old] using knows
  · rename_i given old new
    change Knows contents c _ d
    simpa only [Texts.after, Texts.upload?, given, old, new] using knows
  · rename_i path oldStr newStr given old new
    simp only [Texts.after, Texts.upload?, given, old, new]
    by_cases names : NamesFile path
    · rw [if_pos names]
      cases found : known path with
      | none => exact keeps.throughout_puts looks_editFile knows
      | some text =>
          dsimp only
          by_cases editable : Editable text.toList oldStr.toList
              (input.getD "replace_all" (.bool false)).truthy
          · rw [if_pos editable]
            exact keeps.throughout_puts looks_editFile knows
          · rw [if_neg editable]
            exact keeps.throughout_refused found editable knows
    · rw [if_neg names]
      exact keeps.throughout_looks (looks_editFile_of_bad names) knows

include keeps in
/-- Wherever a tool is left, what is known without its success holds. -/
theorem throughout_tool (repr : String → String) (tool : BuiltinTool) (input : Payload)
    (knows : Knows contents c known d) :
    (tool.call repr c input).Throughout docker
      (Knows contents c (known.after overlap tool input false)) d := by
  cases tool with
  | bash => exact Program.Throughout.iff_firstOps.mpr fun _ => knows_unknown
  | python => exact Program.Throughout.iff_firstOps.mpr fun _ => knows_unknown
  | fileRead =>
      refine keeps.throughout_looks (p := fileReadTool c input) ?_ knows
      unfold fileReadTool
      split
      · exact trivial
      · exact .bind (within_runExec (.cat _)) fun _ => trivial
  | fileWrite => exact keeps.throughout_write knows
  | fileEdit => exact keeps.throughout_edit knows
  | fileList =>
      refine keeps.throughout_looks (p := fileListTool c input) ?_ knows
      unfold fileListTool
      split
      · exact trivial
      · exact .bind (within_runExec (.list _)) fun _ => trivial

include keeps in
/-- A success leaves what it makes known. -/
theorem knows_of_success (tool : BuiltinTool) {r : ToolResult}
    (ran : (tool.call repr c input).run docker d = (.ok r, d')) (fine : r.isError = false)
    (knows : Knows contents c known d) :
    Knows contents c (known.after overlap tool input true) d' := by
  have left := (keeps.throughout_tool repr tool input knows).finish
  rw [ran] at left
  cases tool with
  | fileWrite =>
      obtain ⟨path, content, given, written, names, after⟩ := keeps.knows_written ran fine knows
      simp only [Texts.after, Texts.upload?, given, written, if_pos names, if_true]
      exact after
  | fileEdit =>
      replace ran : (fileEditTool repr c input).run docker d = (.ok r, d') := ran
      unfold fileEditTool at ran
      split at ran
      · cases ran
        cases fine
      · cases ran
        cases fine
      · cases ran
        cases fine
      · rename_i path oldStr newStr given old new
        obtain ⟨original, same, editable, names, -, after⟩ := keeps.edits ran fine knows
        simp only [Texts.after, Texts.upload?, given, old, new, if_pos names] at left ⊢
        cases found : known path with
        | none =>
            rw [found] at left
            exact left
        | some text =>
            obtain rfl := same text found
            simp only [if_pos editable, if_true]
            exact after
  | _ => exact left

end KeepsFiles

/-- What a result says of the texts that are known: it shows the text that was read, and an edit
that was made was one to make. -/
structure TellsFiles (known : Texts) (name : String) (input : Payload) (r : ToolResult) : Prop where
  reads : ∀ path text, getTool name = some .fileRead → pathInput input "path" = some path →
    known path = some text → r.isError = false ∧ r.content = text ∨ r.timedOut = true
  edits : ∀ path text, getTool name = some .fileEdit → pathInput input "path" = some path →
    known path = some text → r.isError = false →
      ∃ oldStr newStr, textInput input "old_str" = some oldStr ∧
        textInput input "new_str" = some newStr ∧
        Editable text.toList oldStr.toList (input.getD "replace_all" (.bool false)).truthy ∧
        r = editResult path (Matching.count oldStr.toList text.toList)

theorem tells_exceeded {name : String} {recipe : SandboxRecipe} :
    TellsFiles known name input (failedResult (exceededTimeout name recipe)) where
  reads _ _ _ _ _ := .inr (timedOut_failedResult.mpr (mentions_exceededTimeout name recipe))
  edits _ _ _ _ _ fine := by cases fine

namespace KeepsFiles

variable (keeps : KeepsFiles docker life contents overlap)

include keeps in
theorem tells_tool {name : String} {tool : BuiltinTool} (registered : getTool name = some tool)
    {r : ToolResult} (ran : (tool.call repr c input).run docker d = (.ok r, d'))
    (knows : Knows contents c known d) : TellsFiles known name input r where
  reads path text named given found := by
    obtain rfl := Option.some.inj (registered.symm.trans named)
    replace ran : (fileReadTool c input).run docker d = (.ok r, d') := ran
    unfold fileReadTool at ran
    rw [given] at ran
    obtain ⟨read, d₁, printed, shown⟩ := Program.run_bind_ok_iff.mp ran
    obtain ⟨code, rfl, -⟩ := keeps.cat_known knows found printed
    cases shown
    rw [readingResult, if_neg (by rw [code]; decide)]
    exact .inl ⟨rfl, rfl⟩
  edits path text named given found fine := by
    obtain rfl := Option.some.inj (registered.symm.trans named)
    replace ran : (fileEditTool repr c input).run docker d = (.ok r, d') := ran
    unfold fileEditTool at ran
    split at ran
    · cases ran
      cases fine
    · cases ran
      cases fine
    · cases ran
      cases fine
    · rename_i path' oldStr newStr given' old new
      obtain rfl := Option.some.inj (given'.symm.trans given)
      obtain ⟨original, same, editable, -, shows, -⟩ := keeps.edits ran fine knows
      obtain rfl := same text found
      exact ⟨oldStr, newStr, old, new, editable, shows⟩

include keeps in
/-- A kill leaves the files, and the result says why. -/
theorem timeOut_run {name : String} {recipe : SandboxRecipe} {out : Except DockerExn ToolResult}
    (ran : (DockerBackend.timeOut c name recipe).run docker d = (out, d'))
    (knows : Knows contents c known d) :
    Knows contents c known d' ∧
      ∀ r, out = .ok r → r = failedResult (exceededTimeout name recipe) := by
  have within : (DockerBackend.timeOut c name recipe).Within (LooksOp c) :=
    .bind (.bind (within_except (Program.within_perform .kill)) fun _ => trivial) fun _ => trivial
  have left := (keeps.throughout_looks within knows).finish
  rw [ran] at left
  refine ⟨left, ?_⟩
  rintro r rfl
  obtain ⟨_, _, -, shown⟩ := Program.run_bind_ok_iff.mp ran
  cases shown
  rfl

include keeps in
/-- However the wait for a tool ends, what is known without its success holds, and a result that
comes through tells of the files. -/
theorem await_knows {name : String} {tool : BuiltinTool} {recipe : SandboxRecipe}
    {ending : CallEnding} {out : Except DockerExn ToolResult}
    (registered : getTool name = some tool)
    (ran : (DockerBackend.await c name recipe (tool.call repr c input) ending).run docker d =
      (out, d')) (knows : Knows contents c known d) :
    Knows contents c (known.after overlap tool input false) d' ∧
      ∀ r, out = .ok r → TellsFiles known name input r ∧
        (r.isError = false → Knows contents c (known.after overlap tool input true) d') := by
  have during := keeps.throughout_tool repr tool input knows
  have killed {d₁ : σ} (before : Knows contents c (known.after overlap tool input false) d₁)
      (ran : (DockerBackend.timeOut c name recipe).run docker d₁ = (out, d')) :
      Knows contents c (known.after overlap tool input false) d' ∧
        ∀ r, out = .ok r → TellsFiles known name input r ∧
          (r.isError = false → Knows contents c (known.after overlap tool input true) d') := by
    obtain ⟨left, shown⟩ := keeps.timeOut_run ran before
    refine ⟨left, fun r returned => ?_⟩
    rw [shown r returned]
    exact ⟨tells_exceeded, fun fine => by cases fine⟩
  cases ending with
  | finishes =>
      rw [DockerBackend.await, Program.monad_bind_eq, Program.run_bind, Program.run_attempt] at ran
      have left := during.finish
      cases called : (tool.call repr c input).run docker d with
      | mk outcome d₁ =>
          rw [called] at ran left
          cases outcome with
          | ok r =>
              cases ran
              refine ⟨left, ?_⟩
              rintro r' ⟨⟩
              exact ⟨keeps.tells_tool registered called knows,
                fun fine => keeps.knows_of_success tool called fine knows⟩
          | error e =>
              cases e with
              | timeout m => exact killed left ran
              | other e =>
                  cases ran
                  exact ⟨left, by rintro r ⟨⟩⟩
  | exceeds done =>
      obtain ⟨d₁, stopped⟩ : ∃ d₁, ((tool.call repr c input).firstOps done).run docker d =
          (.ok (), d₁) := Program.run_firstOps done _ d
      have left := Program.Throughout.iff_firstOps.mp during done
      rw [stopped] at left
      rw [DockerBackend.await, Program.monad_bind_eq, Program.run_bind_ok stopped] at ran
      exact killed left ran
  | cancelled done =>
      obtain ⟨d₁, stopped⟩ : ∃ d₁, ((tool.call repr c input).firstOps done).run docker d =
          (.ok (), d₁) := Program.run_firstOps done _ d
      have left := Program.Throughout.iff_firstOps.mp during done
      rw [stopped] at left
      rw [DockerBackend.await, Program.monad_bind_eq, Program.run_bind_ok stopped] at ran
      cases ran
      exact ⟨left, by rintro r ⟨⟩⟩

include keeps in
/-- The backend's call for a sandbox that it has. -/
theorem execute_knows {b : DockerBackend} {id : SandboxId} {name : String} {ending : CallEnding}
    {out : Except DockerExn ToolResult} (tracked : b.containers id = some c)
    (ran : (b.execute repr id name input ending).run docker d = (out, d'))
    (knows : Knows contents c known d) :
    Knows contents c (known.afterCall overlap name input false) d' ∧
      ∀ r, out = .ok r → TellsFiles known name input r ∧
        (r.isError = false → Knows contents c (known.afterCall overlap name input true) d') := by
  unfold DockerBackend.execute at ran
  unfold Texts.afterCall
  cases registered : getTool name with
  | none =>
      rw [registered] at ran
      cases ran
      refine ⟨knows, ?_⟩
      rintro r ⟨⟩
      refine ⟨⟨?_, ?_⟩, fun _ => knows⟩
      · rintro path text named
        cases registered.symm.trans named
      · rintro path text named
        cases registered.symm.trans named
  | some tool =>
      obtain ⟨recipe, entered⟩ := Option.isSome_iff_exists.mp
        ((b.agree id).symm.trans (by rw [tracked]; rfl))
      rw [registered] at ran
      simp only [tracked, entered] at ran
      exact keeps.await_knows registered ran knows

theorem leave_executed {tracker tracker' : Tracker} {id : SandboxId} {next : SandboxStatus}
    {outcome : SandboxPhase} {r : ToolResult}
    (left : tracker.leave id next outcome = (tracker', .executed r)) : outcome = .executed r := by
  unfold Tracker.leave at left
  split at left
  · exact (Prod.mk.inj left).2
  · cases left

/-- A result that comes through is the backend's. -/
theorem resume_executed {tracker tracker' : Tracker} {phase : SandboxPhase} {answer : BackendAnswer}
    {r : ToolResult} (resumed : tracker.resume phase answer = some (tracker', .executed r)) :
    answer = .results r := by
  unfold Tracker.resume at resumed
  split at resumed
  · cases resumed
  · cases resumed
  · cases leave_executed (Option.some.inj resumed)
    rfl
  · split at resumed
    · cases leave_executed (Option.some.inj resumed)
    · cases resumed
  · cases resumed
  · cases resumed
  · cases resumed
  · split at resumed <;> cases resumed
  · cases resumed
  · cases resumed

include keeps in
/-- A call of the service for a sandbox that it has. -/
theorem call_knows {s s' : SandboxStack σ} {fate : CallFate} {id : SandboxId} {name : String}
    {asked : List LifeOp} {phase : SandboxPhase} (tracked : s.backend.containers id = some c)
    (called : s.call repr docker life fate (.execute id name input) = some (asked, phase, s'))
    (knows : Knows contents c known s.daemon) :
    Knows contents c (known.afterCall overlap name input false) s'.daemon ∧
      ∀ r, phase = .executed r → TellsFiles known name input r ∧ (r.isError = false →
        Knows contents c (known.afterCall overlap name input true) s'.daemon) := by
  unfold SandboxStack.call at called
  split at called
  · cases called
    refine ⟨?_, by rintro r ⟨⟩⟩
    unfold Texts.afterCall
    cases getTool name with
    | none => exact knows
    | some tool => exact (keeps.throughout_tool repr tool input knows).start
  · rename_i t phase₁ entered _
    obtain ⟨⟨t', phase'⟩, resumed, same⟩ := Option.map_eq_some_iff.mp called
    cases same
    obtain ⟨left, shown⟩ := keeps.execute_knows tracked rfl knows
    refine ⟨left, ?_⟩
    rintro r rfl
    have answered := resume_executed resumed
    refine shown r ?_
    generalize ((s.backend.execute repr id name input fate.ending).run docker s.daemon).1 = out
      at answered ⊢
    cases out with
    | ok r' =>
        cases answered
        rfl
    | error e => cases e <;> cases answered

include keeps in
/-- A look at a container leaves the files. -/
theorem call_status_contents {s s' : SandboxStack σ} {fate : CallFate} {id : SandboxId}
    {asked : List LifeOp} {phase : SandboxPhase}
    (called : s.call repr docker life fate (.status id) = some (asked, phase, s')) :
    contents s'.daemon = contents s.daemon := by
  obtain ⟨⟨t, phase'⟩, resumed, same⟩ := Option.map_eq_some_iff.mp called
  cases same
  change contents ((s.backend.status id).run life s.daemon).2 = contents s.daemon
  have reloads : (s.backend.status id).Within fun o => ∃ c, o = .reload c := by
    unfold DockerBackend.status
    split
    · exact trivial
    · rename_i c there
      exact (Program.within_perform ⟨c, rfl⟩).attempt.bind fun outcome => Program.within_settle _
  refine Program.Throughout.finish (P := fun d => contents d = contents s.daemon)
    (.of_within reloads ?_ rfl)
  rintro o d ⟨c, rfl⟩ before
  rw [keeps.reload c d, before]

end KeepsFiles

end Tools

end Tename
