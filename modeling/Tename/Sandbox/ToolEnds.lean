import Tename.Sandbox.Docker

/-!
# The ends of tools

Most errors of a tool hold text that is not the tool's: what a command prints, a path, the
message of an exception. `toolEnd` says for each tool what its environment makes of it, and
the result of the tool mentions a timeout exactly if the text that it quotes does.
-/

namespace Tename

open Docker

/-- The text says `timeout`, in upper or lower case. -/
def Mentions (text : String) : Prop :=
  "timeout".toList <:+: text.toList.map Char.toLower

instance (text : String) : Decidable (Mentions text) :=
  inferInstanceAs (Decidable (_ <:+: _))

/-- A fixed text in front of another one that mentions what the other one does. -/
def Leading (text : String) : Prop :=
  (∃ x, x ∈ (text.toList.map Char.toLower).getLast? ∧ x ∉ "timeout".toList) ∧ ¬ Mentions text

/-- A fixed text behind another one that mentions what the other one does. -/
def Trailing (text : String) : Prop :=
  (∃ x, x ∈ (text.toList.map Char.toLower).head? ∧ x ∉ "timeout".toList) ∧ ¬ Mentions text

instance (text : String) : Decidable (Leading text) :=
  @instDecidableAnd _ _ (Option.decidableExistsMem (text.toList.map Char.toLower).getLast?)
    inferInstance

instance (text : String) : Decidable (Trailing text) :=
  @instDecidableAnd _ _ (Option.decidableExistsMem (text.toList.map Char.toLower).head?)
    inferInstance

section Texts

variable {text text' wall : String}

theorem timedOut_iff {r : ToolResult} :
    r.timedOut = true ↔ r.isError = true ∧ ∃ e, r.error = some e ∧ Mentions e := by
  rw [ToolResult.timedOut, Bool.and_eq_true]
  refine and_congr_right fun _ => ?_
  cases r.error with
  | none => simp
  | some e =>
      simp only [Option.any_some, List.any_eq_true, List.mem_tails, List.isPrefixOf_iff_prefix,
        Option.some.injEq, exists_eq_left', Mentions, List.infix_iff_prefix_suffix]
      exact ⟨fun ⟨t, suffix', front⟩ => ⟨t, front, suffix'⟩,
        fun ⟨t, front, suffix'⟩ => ⟨t, suffix', front⟩⟩

theorem timedOut_failedResult : (failedResult text).timedOut = true ↔ Mentions text := by
  simp [timedOut_iff, failedResult]

theorem mentions_leading (leads : Leading wall) : Mentions (wall ++ text) ↔ Mentions text := by
  rw [Mentions, String.toList_append, List.map_append]
  exact Matching.infix_front_iff leads.1 leads.2

theorem mentions_trailing (trails : Trailing wall) : Mentions (text ++ wall) ↔ Mentions text := by
  rw [Mentions, String.toList_append, List.map_append]
  exact Matching.infix_back_iff trails.1 trails.2

theorem mentions_between (leads : Leading wall) (trails : Trailing wall) :
    Mentions (text ++ wall ++ text') ↔ Mentions text ∨ Mentions text' := by
  rw [Mentions, String.toList_append, String.toList_append, List.map_append, List.map_append]
  exact Matching.infix_wall_iff trails.1 leads.1 leads.2

theorem Mentions.behind (mentions : Mentions text) : Mentions (text' ++ text) := by
  rw [Mentions, String.toList_append, List.map_append]
  exact mentions.trans (List.suffix_append _ _).isInfix

theorem Mentions.holds_t (mentions : Mentions text) : ∃ x ∈ text.toList, x.toLower = 't' :=
  List.mem_map.mp (mentions.subset (by decide))

/-- Characters other than upper-case letters are left as they are. -/
theorem toLower_of_not_upper {x : Char} (other : ¬ (x.val ≥ 'A'.val ∧ x.val ≤ 'Z'.val)) :
    x.toLower = x :=
  dif_neg other

theorem toLower_of_isDigit {x : Char} (digit : x.isDigit = true) : x.toLower = x := by
  simp only [Char.isDigit, Bool.and_eq_true, decide_eq_true_eq] at digit
  apply toLower_of_not_upper
  intro upper
  have low := UInt32.le_iff_toNat_le.mp digit.2
  have high := UInt32.le_iff_toNat_le.mp upper.1
  exact absurd (high.trans low) (by decide)

theorem not_mentions_nat (n : Nat) : ¬ Mentions (toString n) := by
  intro mentions
  obtain ⟨x, mem, t⟩ := mentions.holds_t
  have digit := isDigit_of_mem_toString mem
  rw [toLower_of_isDigit digit] at t
  subst t
  cases digit

theorem not_mentions_int (n : Int) : ¬ Mentions (toString n) := by
  cases n with
  | ofNat n => exact not_mentions_nat n
  | negSucc n =>
      intro mentions
      exact not_mentions_nat (n + 1) ((mentions_leading (show Leading "-" by decide)).mp mentions)

theorem isSpace_not_mem {x : Char} (space : isSpace x = true) : x.toLower ∉ "timeout".toList := by
  have far := isSpace_far space
  intro mem
  by_cases upper : x.val ≥ 'A'.val ∧ x.val ≤ 'Z'.val
  · have low : 0x41 ≤ x.toNat := UInt32.le_iff_toNat_le.mp upper.1
    have high : x.toNat ≤ 0x5A := UInt32.le_iff_toNat_le.mp upper.2
    omega
  · rw [toLower_of_not_upper upper] at mem
    have near : ("timeout".toList.all fun y => 0x20 < y.toNat && y.toNat < 0x85) = true := by decide
    have between := List.all_eq_true.mp near x mem
    rw [Bool.and_eq_true, decide_eq_true_iff, decide_eq_true_iff] at between
    omega

/-- The spaces around a text do not take part in what it mentions. -/
theorem mentions_strip : Mentions (strip text) ↔ Mentions text := by
  have spaces : ∀ cs : List Char, ∀ x ∈ (cs.takeWhile isSpace).map Char.toLower,
      x ∉ "timeout".toList := by
    intro cs x mem
    obtain ⟨y, front, rfl⟩ := List.mem_map.mp mem
    exact isSpace_not_mem (List.all_eq_true.mp List.all_takeWhile y front)
  have front (cs : List Char) : "timeout".toList <:+: cs.map Char.toLower ↔
      "timeout".toList <:+: (cs.dropWhile isSpace).map Char.toLower := by
    conv => lhs; rw [← List.takeWhile_append_dropWhile (p := isSpace) (l := cs), List.map_append]
    exact Matching.infix_skip_front (by decide) (spaces cs)
  have back (cs : List Char) : "timeout".toList <:+: cs.map Char.toLower ↔
      "timeout".toList <:+: (cs.reverse.dropWhile isSpace).reverse.map Char.toLower := by
    conv =>
      lhs
      rw [← List.reverse_reverse cs, ← List.takeWhile_append_dropWhile (p := isSpace)
        (l := cs.reverse), List.reverse_append, List.map_append]
    refine Matching.infix_skip_back (by decide) fun x mem => spaces cs.reverse x ?_
    rw [List.map_reverse] at mem
    exact List.mem_reverse.mp mem
  have core : (strip text).toList =
      ((text.toList.dropWhile isSpace).reverse.dropWhile isSpace).reverse := String.toList_ofList
  rw [Mentions, Mentions, core]
  exact (back _).symm.trans (front _).symm

end Texts

/-- How a tool ends, as its environment decides: it quotes a text of others in its error,
raises an exception, or does neither. -/
inductive ToolEnd (σ : Type) where
  | done (s : σ)
  | quotes (text : String)
  | raises (error : DockerExn)

section Ends

variable {σ : Type}

/-- Go on where a part of a tool is done. -/
def ToolEnd.andThen : ToolEnd σ → (σ → ToolEnd σ) → ToolEnd σ
  | .done s, next => next s
  | .quotes text, _ => .quotes text
  | .raises e, _ => .raises e

/-- The end of a tool does not pass for a timeout: it mentions none, and raises no
`TimeoutError`, nor what `except Exception` lets pass. -/
def ToolEnd.Clear : ToolEnd σ → Prop
  | .done _ => True
  | .quotes text => ¬ Mentions text
  | .raises (.timeout _) => False
  | .raises (.other e) => e.isException = true

variable (repr : String → String) (docker : DockerHandler σ) (c : Container)

/-- The end of a command whose exit code does not matter. -/
def commandEnd (cmd : List String) (s : σ) : ToolEnd σ :=
  match docker (.execRun c cmd) s with
  | (.ok _, s) => .done s
  | (.error e, _) => .raises e

/-- The end of a command that reads: if it fails, what it prints is quoted, unless that is
blank. -/
def readingEnd (cmd : List String) (blank : σ → ToolEnd σ) (next : String → σ → ToolEnd σ)
    (s : σ) : ToolEnd σ :=
  match docker (.execRun c cmd) s with
  | (.error e, _) => .raises e
  | (.ok out, s) =>
      if out.ran.exitCode = 0 then next out.ran.stdout s
      else if strip out.ran.stderr = "" then blank s
      else .quotes out.ran.stderr

/-- The end of `except Exception`. -/
def caughtEnd (e : DockerExn) : ToolEnd σ :=
  if e.isException then .quotes e.message else .raises e

/-- The end of an upload. -/
def uploadEnd (path content : String) (s : σ) : ToolEnd σ :=
  if NamesFile path then
    match docker (.execRun c ["mkdir", "-p", (uploadTarget path).1]) s with
    | (.error e, _) => caughtEnd e
    | (.ok out, s) =>
        if out.ran.exitCode ≠ 0 then .quotes (uploadTarget path).1
        else
          let put : Except DockerExn Bool × σ := docker (.putArchive c (uploadTarget path).1
            ⟨(uploadTarget path).2, Utf8.encode content.toList⟩) s
          match put with
          | (.error e, _) => caughtEnd e
          | (.ok ok, s) => if ok then .done s else .quotes path
  else .quotes (repr path)

/-- The end of an edit that has read its file. -/
def editEnd (path oldStr newStr : String) (replaceAll : Bool) (original : String) (s : σ) :
    ToolEnd σ :=
  let found := Matching.count oldStr.toList original.toList
  if found = 0 ∨ (found > 1 ∧ replaceAll = false) then .quotes path
  else uploadEnd repr docker c path (edited original oldStr newStr replaceAll) s

/-- The end of a tool on an input. -/
def toolEnd : BuiltinTool → Payload → σ → ToolEnd σ
  | .bash, input, s =>
      match (textInput input "command").filter fun command => strip command ≠ "" with
      | none => .done s
      | some command => commandEnd docker c ["bash", "-lc", command] s
  | .python, input, s =>
      match pathInput input "code" with
      | none => .done s
      | some code =>
          match docker .uuid4 s with
          | (.error e, _) => .raises e
          | (.ok n, s) =>
              (uploadEnd repr docker c (scriptPath n) code s).andThen fun s =>
                (commandEnd docker c ["python", scriptPath n] s).andThen
                  (commandEnd docker c ["rm", "-f", scriptPath n])
  | .fileRead, input, s =>
      match pathInput input "path" with
      | none => .done s
      | some path => readingEnd docker c ["cat", "--", path] .done (fun _ => .done) s
  | .fileWrite, input, s =>
      match pathInput input "path", textInput input "content" with
      | some path, some content => uploadEnd repr docker c path content s
      | _, _ => .done s
  | .fileEdit, input, s =>
      match pathInput input "path", textInput input "old_str", textInput input "new_str" with
      | some path, some oldStr, some newStr =>
          readingEnd docker c ["cat", "--", path] (fun _ => .quotes path)
            (editEnd repr docker c path oldStr newStr
              (input.getD "replace_all" (.bool false)).truthy) s
      | _, _, _ => .done s
  | .fileList, input, s =>
      match (input.getD "path" (.str "/workspace")).str?.filter (· ≠ "") with
      | none => .done s
      | some path => readingEnd docker c ["ls", "-la", "--", path] .done (fun _ => .done) s

/-- A run ends as its environment decides: with a result that is no timeout, with one that
passes for a timeout if the quoted text mentions one, or with the exception. -/
def ToolEnd.Shows : ToolEnd σ → Except DockerExn ToolResult × σ → Prop
  | .done s, (outcome, s') => s' = s ∧ ∃ r, outcome = .ok r ∧ r.timedOut = false
  | .quotes text, (outcome, _) => ∃ r, outcome = .ok r ∧ (r.timedOut = true ↔ Mentions text)
  | .raises e, (outcome, _) => outcome = .error e

/-- The same for the attempt of an upload. -/
def ToolEnd.ShowsUpload : ToolEnd σ → Except DockerExn (Except DockerExn Unit) × σ → Prop
  | .done s, (outcome, s') => s' = s ∧ outcome = .ok (.ok ())
  | .quotes text, (outcome, _) =>
      ∃ e, outcome = .ok (.error e) ∧ (Mentions e.message ↔ Mentions text)
  | .raises e, (outcome, _) => outcome = .error e

section Messages

variable {path directory name : String}

theorem mentions_relativeRefusal :
    Mentions (relativeRefusal repr path) ↔ Mentions (repr path) := by
  unfold relativeRefusal
  exact mentions_leading (by decide)

theorem mentions_directoryRefusal :
    Mentions (directoryRefusal repr path) ↔ Mentions (repr path) := by
  unfold directoryRefusal
  exact mentions_leading (by decide)

theorem mentions_putFailure : Mentions (putFailure path) ↔ Mentions path := by
  unfold putFailure
  exact mentions_leading (by decide)

theorem mentions_mkdirFailure (code : Int) :
    Mentions (mkdirFailure directory code) ↔ Mentions directory := by
  unfold mkdirFailure
  rw [mentions_trailing (by decide),
    mentions_between (by decide) (by decide), mentions_leading (by decide)]
  exact or_iff_left (not_mentions_int code)

theorem mentions_notFound : Mentions s!"file_edit: old_str not found in {path}" ↔ Mentions path :=
  mentions_leading (by decide)

theorem mentions_ambiguous (found : Nat) :
    Mentions (s!"file_edit: old_str matches {found} locations in {path}; " ++
      "pass replace_all=true to replace every match") ↔ Mentions path := by
  rw [mentions_trailing (by decide), mentions_trailing (by decide),
    mentions_between (by decide) (by decide), mentions_leading (by decide)]
  exact or_iff_right (not_mentions_nat found)

theorem mentions_cannotRead (code : Int) :
    Mentions s!"file_edit: cannot read {path} (exit {code})" ↔ Mentions path := by
  rw [mentions_trailing (by decide),
    mentions_between (by decide) (by decide), mentions_leading (by decide)]
  exact or_iff_left (not_mentions_int code)

theorem not_mentions_exited {tool : String} (leads : Leading (tool ++ " exited with code "))
    (code : Int) : ¬ Mentions s!"{tool} exited with code {code}" := by
  intro mentions
  exact not_mentions_int code ((mentions_leading leads).mp mentions)

theorem mentions_unknownTool : Mentions (unknownTool name) ↔ Mentions name := by
  unfold unknownTool
  exact (mentions_trailing (by decide)).trans (mentions_leading (by decide))

theorem mentions_exceededTimeout (name : String) (recipe : SandboxRecipe) :
    Mentions (exceededTimeout name recipe) := by
  have last : Mentions "s timeout" := by decide
  exact last.behind

end Messages

variable {repr docker c}

theorem shows_caught {path content : String} {s s' : σ} {e : DockerExn}
    (raised : (putFile repr c path content).run docker s = (.error e, s')) :
    (caughtEnd e : ToolEnd σ).ShowsUpload
      ((Docker.except (putFile repr c path content)).run docker s) := by
  rw [run_except, raised, caughtEnd]
  dsimp only
  split
  · exact ⟨e, rfl, Iff.rfl⟩
  · rfl

/-- An upload that refuses or fails of itself quotes what it was given. -/
theorem shows_quoted {path content text m : String} {s s' : σ} {e : Exn}
    (raised : (putFile repr c path content).run docker s = (.error (.other e), s'))
    (says' : e = .other m ∨ e = .runtimeError m) (quotes : Mentions m ↔ Mentions text) :
    (ToolEnd.quotes text : ToolEnd σ).ShowsUpload
      ((Docker.except (putFile repr c path content)).run docker s) := by
  rw [run_except, raised]
  rcases says' with rfl | rfl
  · exact ⟨_, rfl, quotes⟩
  · exact ⟨_, rfl, quotes⟩

variable (repr docker c) in
theorem shows_upload (path content : String) (s : σ) :
    (uploadEnd repr docker c path content s).ShowsUpload
      ((Docker.except (putFile repr c path content)).run docker s) := by
  have uploads := uploads_putFile repr docker c path content s
  generalize ran : (putFile repr c path content).run docker s = out at uploads
  obtain ⟨outcome, s'⟩ := out
  unfold uploadEnd
  cases uploads with
  | refused bad quotes =>
      rw [if_neg bad]
      rcases quotes with rfl | rfl
      · exact shows_quoted ran (.inl rfl) (mentions_relativeRefusal repr)
      · exact shows_quoted ran (.inl rfl) (mentions_directoryRefusal repr)
  | unmade names made =>
      rw [if_pos names, made]
      exact shows_caught ran
  | failed names made code =>
      rw [if_pos names, made]
      dsimp only
      rw [if_pos code]
      exact shows_quoted ran (.inr rfl) (mentions_mkdirFailure _)
  | @put _ _ s₂ stored names made code put =>
      rw [if_pos names, made]
      dsimp only
      rw [if_neg (not_not_intro code), put]
      cases stored with
      | error e => exact shows_caught ran
      | ok ok =>
          cases ok with
          | false => exact shows_quoted ran (.inr rfl) mentions_putFailure
          | true =>
              rw [run_except, ran]
              exact ⟨rfl, rfl⟩

theorem ToolEnd.andThen_done (e : ToolEnd σ) : e.andThen .done = e := by
  cases e with
  | done s => rfl
  | quotes text => rfl
  | raises e => rfl

/-- A tool that reports a failed upload behind a text of its own, and else goes on. -/
theorem shows_andThen {path content wall : String} {s : σ} {next : σ → ToolEnd σ}
    {f : Except DockerExn Unit → Docker ToolResult} (leads : Leading wall)
    (failed : ∀ e, f (.error e) = .pure (failedResult (wall ++ e.message)))
    (went : ∀ s', (next s').Shows ((f (.ok ())).run docker s')) :
    ((uploadEnd repr docker c path content s).andThen next).Shows
      (((Docker.except (putFile repr c path content)).bind f).run docker s) := by
  have uploaded := shows_upload repr docker c path content s
  cases ran : (Docker.except (putFile repr c path content)).run docker s with
  | mk outcome s' =>
      rw [ran] at uploaded
      cases ends : uploadEnd repr docker c path content s with
      | done s₁ =>
          rw [ends] at uploaded
          obtain ⟨rfl, rfl⟩ := uploaded
          rw [Program.run_bind_ok ran]
          exact went s'
      | quotes text =>
          rw [ends] at uploaded
          obtain ⟨e, rfl, quotes⟩ := uploaded
          rw [Program.run_bind_ok ran, failed]
          refine ⟨_, rfl, ?_⟩
          rw [timedOut_failedResult, mentions_leading leads]
          exact quotes
      | raises e =>
          rw [ends] at uploaded
          obtain rfl := uploaded
          rw [Program.run_bind_error ran]
          rfl

theorem shows_runExec {cmd : List String} {s : σ} {e : ToolEnd σ}
    {f : RanCommand → Docker ToolResult}
    (failed : ∀ x s', docker (.execRun c cmd) s = (.error x, s') → e = .raises x)
    (went : ∀ out s', docker (.execRun c cmd) s = (.ok out, s') →
      e.Shows ((f out.ran).run docker s')) :
    e.Shows (((runExec c cmd).bind f).run docker s) := by
  have ran := run_runExec docker c cmd s
  cases answered : docker (.execRun c cmd) s with
  | mk outcome s' =>
      rw [answered] at ran
      cases outcome with
      | error x =>
          rw [Program.run_bind_error ran, failed x s' answered]
          rfl
      | ok out =>
          rw [Program.run_bind_ok ran]
          exact went out s' answered

/-- A result without an error text, or with one that mentions nothing, is no timeout. -/
theorem shows_done {r : ToolResult} {s : σ} (silent : ∀ e, r.error = some e → ¬ Mentions e) :
    (ToolEnd.done s).Shows (.ok r, s) := by
  refine ⟨rfl, r, rfl, Bool.eq_false_iff.mpr fun late => ?_⟩
  obtain ⟨_, e, shown, mentions⟩ := timedOut_iff.mp late
  exact silent e shown mentions

theorem shows_commandEnd {cmd : List String} {s : σ} {next : σ → ToolEnd σ}
    {f : RanCommand → Docker ToolResult}
    (went : ∀ ran s', (next s').Shows ((f ran).run docker s')) :
    ((commandEnd docker c cmd s).andThen next).Shows (((runExec c cmd).bind f).run docker s) := by
  unfold commandEnd
  refine shows_runExec (fun x s' answered => ?_) (fun out s' answered => ?_)
  · rw [answered]
    rfl
  · rw [answered]
    exact went out.ran s'

theorem shows_lastCommand {cmd : List String} {s : σ} {result : RanCommand → ToolResult}
    (silent : ∀ ran e, (result ran).error = some e → ¬ Mentions e) :
    (commandEnd docker c cmd s).Shows
      (((runExec c cmd).bind fun ran => .pure (result ran)).run docker s) := by
  rw [← ToolEnd.andThen_done (commandEnd docker c cmd s)]
  exact shows_commandEnd fun ran s' => shows_done (silent ran)

theorem silent_commandResult {tool : String} (leads : Leading (tool ++ " exited with code "))
    (ran : RanCommand) (e : String) (shown : (commandResult tool ran).error = some e) :
    ¬ Mentions e := by
  unfold commandResult at shown
  dsimp only at shown
  split at shown
  · obtain rfl := Option.some.inj shown
    exact not_mentions_exited leads _
  · cases shown

theorem shows_readingResult {tool : String} (leads : Leading (tool ++ " exited with code "))
    (cmd : List String) (s : σ) :
    (readingEnd docker c cmd .done (fun _ => .done) s).Shows
      (((runExec c cmd).bind fun ran => .pure (readingResult tool ran)).run docker s) := by
  unfold readingEnd
  refine shows_runExec (fun x s' answered => by rw [answered]) fun out s' answered => ?_
  rw [answered]
  dsimp only [readingResult, Program.run_pure]
  by_cases code : out.ran.exitCode = 0
  · rw [if_pos code, if_neg (not_not_intro code)]
    exact shows_done fun e shown => by cases shown
  · rw [if_neg code, if_pos code]
    by_cases blank : strip out.ran.stderr = ""
    · rw [if_pos blank, if_pos blank]
      refine shows_done fun e shown => ?_
      obtain rfl := Option.some.inj shown
      exact not_mentions_exited leads _
    · rw [if_neg blank, if_neg blank]
      refine ⟨_, rfl, ?_⟩
      rw [← mentions_strip]
      simp [timedOut_iff]

theorem shows_refused {m : String} {s : σ} (silent : ¬ Mentions m) :
    (ToolEnd.done s).Shows (.ok (failedResult m), s) := by
  refine shows_done fun e shown => ?_
  obtain rfl := Option.some.inj shown
  exact silent

theorem shows_bash (input : Payload) (s : σ) :
    (toolEnd repr docker c .bash input s).Shows ((bashTool c input).run docker s) := by
  unfold toolEnd bashTool
  dsimp only
  cases (textInput input "command").filter fun command => strip command ≠ "" with
  | none => exact shows_refused (by decide)
  | some command =>
      exact shows_lastCommand (silent_commandResult (by decide))

theorem shows_python (input : Payload) (s : σ) :
    (toolEnd repr docker c .python input s).Shows ((pythonTool repr c input).run docker s) := by
  unfold toolEnd pythonTool
  dsimp only
  cases pathInput input "code" with
  | none => exact shows_refused (by decide)
  | some code =>
      dsimp only
      have drawn : Docker.uuid4.run docker s = docker .uuid4 s :=
        Program.run_perform DockerOp.uuid4 s
      rw [Program.monad_bind_eq]
      cases answered : docker .uuid4 s with
      | mk outcome s' =>
          rw [answered] at drawn
          cases outcome with
          | error e =>
              rw [Program.run_bind_error drawn]
              rfl
          | ok n =>
              rw [Program.run_bind_ok drawn]
              refine shows_andThen (by decide) (fun e => rfl) fun s₁ => ?_
              refine shows_commandEnd fun ran s₂ => ?_
              exact shows_lastCommand fun _ => silent_commandResult (by decide) ran

theorem shows_fileRead (input : Payload) (s : σ) :
    (toolEnd repr docker c .fileRead input s).Shows ((fileReadTool c input).run docker s) := by
  unfold toolEnd fileReadTool
  dsimp only
  cases pathInput input "path" with
  | none => exact shows_refused (by decide)
  | some path => exact shows_readingResult (by decide) ["cat", "--", path] s

theorem shows_fileList (input : Payload) (s : σ) :
    (toolEnd repr docker c .fileList input s).Shows ((fileListTool c input).run docker s) := by
  unfold toolEnd fileListTool
  dsimp only
  cases (input.getD "path" (.str "/workspace")).str?.filter (· ≠ "") with
  | none => exact shows_refused (by decide)
  | some path => exact shows_readingResult (by decide) ["ls", "-la", "--", path] s

theorem shows_fileWrite (input : Payload) (s : σ) :
    (toolEnd repr docker c .fileWrite input s).Shows
      ((fileWriteTool repr c input).run docker s) := by
  unfold toolEnd fileWriteTool
  dsimp only
  cases pathInput input "path" with
  | none => exact shows_refused (by decide)
  | some path =>
      cases textInput input "content" with
      | none => exact shows_refused (by decide)
      | some content =>
          dsimp only
          rw [← ToolEnd.andThen_done (uploadEnd repr docker c path content s)]
          refine shows_andThen (by decide) (fun e => rfl) fun s' => ?_
          exact shows_done fun e shown => by cases shown

/-- An edit that has read its file. -/
theorem shows_editText (path oldStr newStr : String) (replaceAll : Bool) (original : String)
    (s : σ) : (editEnd repr docker c path oldStr newStr replaceAll original s).Shows
      ((editText repr c path oldStr newStr replaceAll original).run docker s) := by
  unfold editEnd editText
  dsimp only
  by_cases none' : Matching.count oldStr.toList original.toList = 0
  · rw [if_pos (.inl none'), if_pos none']
    exact ⟨_, rfl, by rw [timedOut_failedResult, mentions_notFound]⟩
  · rw [if_neg none']
    by_cases many :
        Matching.count oldStr.toList original.toList > 1 ∧ replaceAll = false
    · rw [if_pos (.inr many), if_pos many]
      exact ⟨_, rfl, by rw [timedOut_failedResult, mentions_ambiguous]⟩
    · rw [if_neg (not_or_intro none' many), if_neg many, ← ToolEnd.andThen_done (uploadEnd ..)]
      refine shows_andThen (by decide) (fun e => rfl) fun s' => ?_
      exact shows_done fun e shown => by cases shown

theorem shows_fileEdit (input : Payload) (s : σ) :
    (toolEnd repr docker c .fileEdit input s).Shows
      ((fileEditTool repr c input).run docker s) := by
  unfold toolEnd fileEditTool
  dsimp only
  cases pathInput input "path" with
  | none => exact shows_refused (by decide)
  | some path =>
      cases textInput input "old_str" with
      | none => exact shows_refused (by decide)
      | some oldStr =>
          cases textInput input "new_str" with
          | none => exact shows_refused (by decide)
          | some newStr =>
              dsimp only
              unfold readingEnd
              refine shows_runExec (fun x s' answered => by rw [answered]) ?_
              intro out s' answered
              rw [answered]
              dsimp only
              by_cases code : out.ran.exitCode = 0
              · rw [if_pos code, if_neg (not_not_intro code)]
                exact shows_editText path oldStr newStr _ out.ran.stdout s'
              · rw [if_neg code, if_pos code]
                by_cases blank : strip out.ran.stderr = ""
                · simp only [if_pos blank]
                  refine ⟨_, rfl, ?_⟩
                  rw [← mentions_cannotRead out.ran.exitCode]
                  simp [timedOut_iff]
                · simp only [if_neg blank]
                  refine ⟨_, rfl, ?_⟩
                  rw [← mentions_strip]
                  simp [timedOut_iff]

variable (repr docker c) in
/-- Every tool ends as `toolEnd` says. -/
theorem shows_tool (tool : BuiltinTool) (input : Payload) (s : σ) :
    (toolEnd repr docker c tool input s).Shows ((tool.call repr c input).run docker s) := by
  cases tool with
  | bash => exact shows_bash input s
  | python => exact shows_python input s
  | fileRead => exact shows_fileRead input s
  | fileWrite => exact shows_fileWrite input s
  | fileEdit => exact shows_fileEdit input s
  | fileList => exact shows_fileList input s

end Ends

end Tename
