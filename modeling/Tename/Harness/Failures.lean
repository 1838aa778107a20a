import Tename.Harness.ToolResults
import Tename.Program.Returning
import Tename.Router.Anthropic
import Tename.Sandbox.Verdicts

/-!
# Failures in the model's view

The text of a failure passes from the tool through the payload of its event and the block of
the adapter to the block on the wire. Errors of the runtime, the sandbox and the file tools
are their own content. A command's content is what it has printed, and its error is not
part of that unless the command says so itself.
-/

namespace Tename

open Harness

/-- The outcome is a failure, where it is recorded at all. A result of the sandbox is one of a
call on the docker backend. -/
def ToolOutcome.Fails (repr : String → String) (call : PendingEvent) : ToolOutcome → Prop
  | .executed _ r => r.isError = true ∧ ∃ (b : DockerBackend) (id : SandboxId) (input : Payload)
      (ending : CallEnding), (b.execute repr id call.toolName input ending).MayReturn r
  | .proxied r => r.isError = true
  | _ => True

/-- The text that a failing command has for its error. -/
def exitText (tool : String) (code : Int) : String :=
  s!"{tool} exited with code {code}"

/-- The content of a result holds its error. -/
def ToolResult.Told (r : ToolResult) : Prop :=
  r.content ≠ "" ∧ ∀ error, r.error = some error → error.toList <:+: r.content.toList

/-- A failing command has printed the text of its own error, and the result of a proxy tool
holds its error. -/
def ToolOutcome.Tells (call : PendingEvent) : ToolOutcome → Prop
  | .executed _ r =>
      call.toolName = "bash" ∨ call.toolName = "python" → ∀ code, r.exitCode = some code →
        (exitText call.toolName code).toList <:+: r.stdout.toList ∨
        (exitText call.toolName code).toList <:+: r.stderr.toList
  | .proxied r => r.Told
  | _ => True

/-- A block shows the failure that a payload records. -/
def ShowsFailure (payload block : Payload) : Prop :=
  block.get? "is_error" = some (.bool true) ∧
  ∃ content, block.get? "content" = some (.str content) ∧ content ≠ "" ∧
    ∀ error, payload.get? "error" = some (.str error) → error.toList <:+: content.toList

/-- A request has the block in one of its messages. -/
def Sends (request : List Payload) (block : Payload) : Prop :=
  ∃ m ∈ request, m.get? "role" = some (.str "user") ∧
    ∃ items, m.get? "content" = some (.arr items) ∧ .obj block ∈ items

section Commands

variable {tool : String} {ran : RanCommand}

theorem toList_exitText (tool : String) (code : Int) :
    (exitText tool code).toList =
      tool.toList ++ " exited with code ".toList ++ (toString code).toList := by
  unfold exitText
  rw [← String.toList_append, ← String.toList_append]
  rfl

theorem newline_not_mem_int (code : Int) : '\n' ∉ (toString code).toList := by
  intro mem
  rcases mem_toString_int mem with minus | digit
  · cases minus
  · cases digit

theorem newline_not_mem_exitText {tool : String} (single : '\n' ∉ tool.toList) (code : Int) :
    '\n' ∉ (exitText tool code).toList := by
  rw [toList_exitText]
  simp only [List.mem_append, not_or]
  exact ⟨⟨single, by decide⟩, newline_not_mem_int code⟩

theorem space_mem_exitText (tool : String) (code : Int) : ' ' ∈ (exitText tool code).toList := by
  rw [toList_exitText]
  refine List.mem_append_left _ (List.mem_append_right _ ?_)
  decide

theorem exitText_ne_empty (tool : String) (code : Int) : exitText tool code ≠ "" := by
  intro empty'
  have spaced := space_mem_exitText tool code
  rw [empty'] at spaced
  cases spaced

/-- A command's content has a text without line breaks where one of the streams has it. -/
theorem infix_streamsContent {pattern : List Char} (spaced : ' ' ∈ pattern)
    (line : '\n' ∉ pattern) : pattern <:+: (streamsContent ran).toList ↔
      pattern <:+: ran.stdout.toList ∨ pattern <:+: ran.stderr.toList := by
  have absent {wall : List Char} (unspaced : ' ' ∉ wall) : ¬ pattern <:+: wall :=
    fun occurs => unspaced (occurs.subset spaced)
  unfold streamsContent
  dsimp only
  by_cases quiet : ran.stderr = ""
  · rw [if_pos quiet, quiet]
    exact (or_iff_left (absent (by decide))).symm
  · rw [if_neg quiet]
    by_cases bare : ran.stdout = ""
    · rw [if_pos bare, bare]
      have split' : s!"[stderr]\n{ran.stderr}".toList =
          "[stderr]\n".toList ++ ran.stderr.toList := String.toList_append
      rw [split', Matching.infix_front_iff ⟨'\n', by decide, line⟩ (absent (by decide))]
      exact (or_iff_right (absent (by decide))).symm
    · rw [if_neg bare]
      have split' : s!"{ran.stdout}\n[stderr]\n{ran.stderr}".toList =
          ran.stdout.toList ++ "\n[stderr]\n".toList ++ ran.stderr.toList := by
        rw [← String.toList_append, ← String.toList_append]
        rfl
      rw [split', Matching.infix_wall_iff ⟨'\n', by decide, line⟩ ⟨'\n', by decide, line⟩
        (absent (by decide))]

/-- What a failing command of a shell tool tells. -/
theorem told_commandResult (single : '\n' ∉ tool.toList) (failed : ran.exitCode ≠ 0) :
    (commandResult tool ran).Told ↔
      (exitText tool ran.exitCode).toList <:+: ran.stdout.toList ∨
      (exitText tool ran.exitCode).toList <:+: ran.stderr.toList := by
  have spaced := space_mem_exitText tool ran.exitCode
  rw [← infix_streamsContent spaced (newline_not_mem_exitText single _)]
  have error : (commandResult tool ran).error = some (exitText tool ran.exitCode) := if_pos failed
  constructor
  · intro told
    exact told.2 _ error
  · intro occurs
    refine ⟨fun silent => ?_, fun e same => ?_⟩
    · have nothing : streamsContent ran = "" := silent
      rw [nothing] at occurs
      exact absurd (occurs.subset spaced) (by decide)
    · obtain rfl := Option.some.inj (error.symm.trans same)
      exact occurs

end Commands

section Tools

variable {repr : String → String} {c : Container} {input : Payload} {r : ToolResult}

/-- Everything a tool can return: a result without an error, an error of its own, the result
of a command that it reads with, or for a shell tool that of the command it is given. -/
inductive Reports (tool : BuiltinTool) : ToolResult → Prop
  | fine {r : ToolResult} (fine : r.isError = false) : Reports tool r
  | refused {message : String} (some' : message ≠ "") : Reports tool (failedResult message)
  | reading {r : ToolResult} (told : r.Told) (reads : tool ≠ .bash ∧ tool ≠ .python) :
      Reports tool r
  | command (ran : RanCommand) (shell : tool = .bash ∨ tool = .python) :
      Reports tool (commandResult tool.name ran)

theorem append_ne_empty {wall text : String} (some' : wall ≠ "") : wall ++ text ≠ "" := by
  intro empty'
  have both : wall.toList ++ text.toList = [] := by
    rw [← String.toList_append, empty']
    rfl
  exact some' (String.toList_injective (List.append_eq_nil_iff.mp both).1)

theorem told_of_content (some' : r.content ≠ "") (error : r.error = some r.content) : r.Told := by
  refine ⟨some', fun e same => ?_⟩
  obtain rfl := Option.some.inj (error.symm.trans same)
  exact List.infix_rfl

theorem told_failedResult {message : String} (some' : message ≠ "") :
    (failedResult message).Told :=
  told_of_content some' rfl

theorem reports_bash (returns : (bashTool c input).MayReturn r) : Reports .bash r := by
  unfold bashTool at returns
  cases given : (textInput input "command").filter fun command => strip command ≠ "" with
  | none =>
      rw [given] at returns
      obtain rfl := returns
      exact .refused (by decide)
  | some command =>
      rw [given] at returns
      obtain ⟨ran, _, rfl⟩ := Program.mayReturn_bind.mp returns
      exact .command ran (.inl rfl)

theorem reports_python (returns : (pythonTool repr c input).MayReturn r) : Reports .python r := by
  unfold pythonTool at returns
  cases given : pathInput input "code" with
  | none =>
      rw [given] at returns
      obtain rfl := returns
      exact .refused (by decide)
  | some code =>
      rw [given] at returns
      simp only [Program.monad_bind_eq, Program.mayReturn_bind] at returns
      obtain ⟨n, _, uploaded, _, returns⟩ := returns
      cases uploaded with
      | error e =>
          obtain rfl := returns
          exact .refused (append_ne_empty (by decide))
      | ok u =>
          simp only [Program.mayReturn_bind] at returns
          obtain ⟨ran, _, _, _, rfl⟩ := returns
          exact .command ran (.inr rfl)

/-- A tool that reads with a command tells why it could not. -/
theorem told_readingResult {tool : String} {ran : RanCommand}
    (failed : (readingResult tool ran).isError = true) : (readingResult tool ran).Told := by
  unfold readingResult at failed ⊢
  dsimp only at failed ⊢
  split
  · refine told_of_content ?_ (by dsimp only)
    dsimp only
    split
    · exact exitText_ne_empty tool ran.exitCode
    · assumption
  · rename_i fine
    rw [if_neg fine] at failed
    cases failed

theorem reports_readingResult {tool : BuiltinTool} {name : String} {ran : RanCommand}
    (reads : tool ≠ .bash ∧ tool ≠ .python) : Reports tool (readingResult name ran) := by
  cases failed : (readingResult name ran).isError with
  | false => exact .fine failed
  | true => exact .reading (told_readingResult failed) reads

theorem reports_fileRead (returns : (fileReadTool c input).MayReturn r) : Reports .fileRead r := by
  unfold fileReadTool at returns
  cases given : pathInput input "path" with
  | none =>
      rw [given] at returns
      obtain rfl := returns
      exact .refused (by decide)
  | some path =>
      rw [given] at returns
      obtain ⟨ran, _, rfl⟩ := Program.mayReturn_bind.mp returns
      exact reports_readingResult (by decide)

theorem reports_fileList (returns : (fileListTool c input).MayReturn r) : Reports .fileList r := by
  unfold fileListTool at returns
  cases given : (input.getD "path" (.str "/workspace")).str?.filter (· ≠ "") with
  | none =>
      rw [given] at returns
      obtain rfl := returns
      exact .refused (by decide)
  | some path =>
      rw [given] at returns
      obtain ⟨ran, _, rfl⟩ := Program.mayReturn_bind.mp returns
      exact reports_readingResult (by decide)

theorem reports_fileWrite (returns : (fileWriteTool repr c input).MayReturn r) :
    Reports .fileWrite r := by
  unfold fileWriteTool at returns
  cases given : pathInput input "path" with
  | none =>
      rw [given] at returns
      obtain rfl := returns
      exact .refused (by decide)
  | some path =>
      cases given' : textInput input "content" with
      | none =>
          rw [given, given'] at returns
          obtain rfl := returns
          exact .refused (by decide)
      | some content =>
          rw [given, given'] at returns
          obtain ⟨uploaded, _, returns⟩ := Program.mayReturn_bind.mp returns
          cases uploaded with
          | error e =>
              obtain rfl := returns
              exact .refused (append_ne_empty (by decide))
          | ok u =>
              obtain rfl := returns
              exact .fine rfl

theorem reports_editText {path oldStr newStr original : String} {replaceAll : Bool}
    (returns : (editText repr c path oldStr newStr replaceAll original).MayReturn r) :
    Reports .fileEdit r := by
  unfold editText at returns
  dsimp only at returns
  split at returns
  · obtain rfl := returns
    exact .refused (append_ne_empty (by decide))
  · split at returns
    · obtain rfl := returns
      exact .refused (append_ne_empty (append_ne_empty (append_ne_empty
        (append_ne_empty (append_ne_empty (by decide))))))
    · obtain ⟨uploaded, _, returns⟩ := Program.mayReturn_bind.mp returns
      cases uploaded with
      | error e =>
          obtain rfl := returns
          exact .refused (append_ne_empty (by decide))
      | ok u =>
          obtain rfl := returns
          exact .fine rfl

theorem reports_fileEdit (returns : (fileEditTool repr c input).MayReturn r) :
    Reports .fileEdit r := by
  unfold fileEditTool at returns
  split at returns
  · obtain rfl := returns
    exact .refused (by decide)
  · obtain rfl := returns
    exact .refused (by decide)
  · obtain rfl := returns
    exact .refused (by decide)
  · obtain ⟨read, _, returns⟩ := Program.mayReturn_bind.mp returns
    split at returns
    · obtain rfl := returns
      refine .reading (told_of_content ?_ (by dsimp only)) (by decide)
      dsimp only
      split
      · exact append_ne_empty (append_ne_empty (append_ne_empty (append_ne_empty
          (by decide))))
      · assumption
    · exact reports_editText returns

theorem reports_call (tool : BuiltinTool) (returns : (tool.call repr c input).MayReturn r) :
    Reports tool r := by
  cases tool with
  | bash => exact reports_bash returns
  | python => exact reports_python returns
  | fileRead => exact reports_fileRead returns
  | fileWrite => exact reports_fileWrite returns
  | fileEdit => exact reports_fileEdit returns
  | fileList => exact reports_fileList returns

end Tools

namespace ContextFold

variable {ids : List (EventId × String)} {st : ContextFold} {block : ContentBlock}

/-- A result that has been read, in a message or still in its buffer. -/
def Holds (st : ContextFold) (block : ContentBlock) : Prop :=
  (∃ items, ⟨.tool, .blocks items⟩ ∈ st.messages ∧ block ∈ items) ∨ block ∈ st.pendingToolResults

theorem Holds.grow {st' : ContextFold} (h : st.Holds block)
    (messages : ∀ m ∈ st.messages, m ∈ st'.messages)
    (results : st'.pendingToolResults = st.pendingToolResults) : st'.Holds block := by
  rcases h with ⟨items, mem, inside⟩ | waiting
  · exact .inl ⟨items, messages _ mem, inside⟩
  · exact .inr (results ▸ waiting)

theorem Holds.flushAssistant (h : st.Holds block) : st.flushAssistant.Holds block := by
  unfold ContextFold.flushAssistant
  split
  · exact h
  · exact h.grow (fun m mem => List.mem_append_left _ mem) rfl

/-- Once the results are flushed, they are in a message. -/
theorem Holds.flushToolResults (h : st.Holds block) :
    ∃ items, ⟨.tool, .blocks items⟩ ∈ st.flushToolResults.messages ∧ block ∈ items := by
  unfold ContextFold.flushToolResults
  rcases h with ⟨items, mem, inside⟩ | waiting
  · split
    · exact ⟨items, mem, inside⟩
    · exact ⟨items, List.mem_append_left _ mem, inside⟩
  · split
    · rename_i nothing
      rw [List.isEmpty_iff.mp nothing] at waiting
      cases waiting
    · exact ⟨_, List.mem_append_right _ (List.mem_singleton_self _), waiting⟩

theorem Holds.flush (h : st.Holds block) : st.flush.Holds block :=
  .inl h.flushAssistant.flushToolResults

theorem Holds.push (h : st.Holds block) (m : Message) : (st.push m).Holds block :=
  h.grow (fun _ mem => List.mem_append_left _ mem) rfl

/-- No event makes the fold lose a result. -/
theorem Holds.foldEvent (h : st.Holds block) (e : Event) :
    (Tename.foldEvent ids st e).Holds block := by
  unfold Tename.foldEvent
  split
  · split
    · split
      · split
        · exact h.flush
        · exact h.flush.push _
      · exact h.flush
    · exact h
  · split
    · exact h.flush.push _
    · exact h.flush
  · split
    · split
      · exact .inl h.flushToolResults
      · exact .inl h.flushToolResults
    · exact h
  · split
    · dsimp only
      split
      · exact h.grow (fun m mem => mem) rfl
      · exact h.flush.grow (fun m mem => mem) rfl
    · exact h
  · split
    · exact h.flushAssistant
    · rcases h.flushAssistant with said | waiting
      · exact .inl said
      · exact .inr (List.mem_append_left _ waiting)
  · exact h
  · exact h

theorem Holds.foldl (h : st.Holds block) (events : List Event) :
    (events.foldl (Tename.foldEvent ids) st).Holds block := by
  induction events generalizing st with
  | nil => exact h
  | cons e events ih => exact ih (h.foldEvent e)

/-- A result whose call is known has its block in the context. -/
theorem result_in_context {events : List Event} {e : Event} {call : EventId} {toolUseId : String}
    (mem : e ∈ events) (type : e.type = .toolResult)
    (answers : e.payload.get? "tool_call_id" = some (.uuid call))
    (known : (toolCallIds events).lookup call = some toolUseId) :
    ∃ items, ⟨.tool, .blocks items⟩ ∈ foldContext events ∧
      toolResultBlock toolUseId e.payload ∈ items := by
  unfold foldContext
  generalize toolCallIds events = ids at known ⊢
  obtain ⟨before, after, rfl⟩ := List.append_of_mem mem
  rw [List.foldl_append, List.foldl_cons]
  refine Holds.flushToolResults (Holds.flushAssistant (Holds.foldl ?_ after))
  rw [foldEvent_toolResult type answers known]
  exact .inr (List.mem_append_right _ (List.mem_singleton_self _))

end ContextFold

theorem sends_of_context {str : Json → String} {messages : List Message}
    {items : List ContentBlock} {block : ContentBlock} (mem : ⟨.tool, .blocks items⟩ ∈ messages)
    (inside : block ∈ items) : Sends (splitSystem str messages).2 (block.toAnthropic str) := by
  exact ⟨_, mem_splitSystem mem (show Role.tool ≠ .system by decide), rfl, _, rfl,
    List.mem_map.mpr ⟨block, inside, rfl⟩⟩

section Shown

variable {rt : Runtime} {call : PendingEvent} {str : Json → String} {toolUseId : String}
variable {payload : Payload} {content : String}

/-- The block of a failure whose content is a text. -/
theorem showsFailure_iff (failed : payload.get? "is_error" = some (.bool true))
    (said : payload.get? "content" = some (.str content)) :
    ShowsFailure payload ((toolResultBlock toolUseId payload).toAnthropic str) ↔
      content ≠ "" ∧
        ∀ error, payload.get? "error" = some (.str error) → error.toList <:+: content.toList := by
  have block : (toolResultBlock toolUseId payload).toAnthropic str =
      [("type", .str "tool_result"), ("tool_use_id", .str toolUseId), ("content", .str content),
        ("is_error", .bool true)] := by
    simp [toolResultBlock, resultContent, Payload.getD, failed, said, ContentBlock.toAnthropic,
      ResultContent.toJson, Json.truthy]
  rw [block]
  constructor
  · rintro ⟨_, shown, same, some', holds⟩
    obtain rfl := Json.str.inj (Option.some.inj same)
    exact ⟨some', holds⟩
  · rintro ⟨some', holds⟩
    exact ⟨rfl, content, rfl, some', holds⟩

variable (call str toolUseId) in
/-- The block of an error that is its own content. -/
theorem shown_errorPayload {error : String} (some' : error ≠ "") (more : Payload) :
    ShowsFailure (errorPayload call call.toolName error ++ more)
      ((toolResultBlock toolUseId
        (errorPayload call call.toolName error ++ more)).toAnthropic str) := by
  refine (showsFailure_iff rfl (show _ = some (Json.str error) from rfl)).mpr
    ⟨some', fun e recorded => ?_⟩
  obtain rfl : error = e := Json.str.inj (Option.some.inj recorded)
  exact List.infix_rfl

/-- The block of a result with a content and perhaps an error. -/
theorem shown_result_iff {r : ToolResult} (failed : r.isError = true)
    (isError : payload.get? "is_error" = some (.bool r.isError))
    (said : payload.get? "content" = some (.str r.content))
    (error : payload.get? "error" = some ((r.error.map Json.str).getD .null)) :
    ShowsFailure payload ((toolResultBlock toolUseId payload).toAnthropic str) ↔ r.Told := by
  rw [showsFailure_iff (by rw [isError, failed]) said, error, ToolResult.Told]
  refine and_congr_right fun _ => forall_congr' fun e => ?_
  cases r.error with
  | none => simp
  | some e' => simp

end Shown

section Outcomes

variable {repr : String → String} {b : DockerBackend} {id : SandboxId} {name : String}
variable {input : Payload} {ending : CallEnding} {r : ToolResult}

theorem name_of_getTool {tool : BuiltinTool} (known : getTool name = some tool) :
    tool.name = name := by
  simpa using List.find?_some known

theorem shell_name_iff (tool : BuiltinTool) :
    tool.name = "bash" ∨ tool.name = "python" ↔ tool = .bash ∨ tool = .python := by
  cases tool <;> decide

/-- A call on the backend returns an error of the backend or what its tool does. -/
theorem execute_returns (returns : (b.execute repr id name input ending).MayReturn r) :
    (∃ message, message ≠ "" ∧ r = failedResult message) ∨
      ∃ (tool : BuiltinTool) (c : Container), tool.name = name ∧
        (tool.call repr c input).MayReturn r := by
  have late {c : Container} {recipe : SandboxRecipe}
      (returns : (DockerBackend.timeOut c name recipe).MayReturn r) :
      ∃ message, message ≠ "" ∧ r = failedResult message := by
    obtain ⟨_, _, rfl⟩ := Program.mayReturn_bind.mp returns
    exact ⟨_, append_ne_empty (append_ne_empty (append_ne_empty (append_ne_empty
      (by decide)))), rfl⟩
  unfold DockerBackend.execute at returns
  split at returns
  · obtain rfl := returns
    exact .inl ⟨_, append_ne_empty (append_ne_empty (by decide)), rfl⟩
  · rename_i tool known
    split at returns
    · rename_i c recipe _ _
      cases ending with
      | finishes =>
          obtain ⟨outcome, attempted, returns⟩ := Program.mayReturn_bind.mp returns
          cases outcome with
          | ok r' =>
              obtain rfl := Except.ok.inj (Program.mayReturn_settle.mp returns)
              exact .inr ⟨tool, c, name_of_getTool known,
                Program.mayReturn_attempt_ok.mp attempted⟩
          | error e =>
              cases e with
              | timeout m => exact .inl (late returns)
              | other e => exact returns.elim
      | exceeds done =>
          obtain ⟨_, _, returns⟩ := Program.mayReturn_bind.mp returns
          exact .inl (late returns)
      | cancelled done =>
          obtain ⟨_, _, returns⟩ := Program.mayReturn_bind.mp returns
          exact returns.elim
    · exact returns.elim

/-- A failing result of the backend holds its error, but for a command that does not print
it. -/
theorem told_iff (returns : (b.execute repr id name input ending).MayReturn r)
    (failed : r.isError = true) : r.Told ↔
      (name = "bash" ∨ name = "python" → ∀ code, r.exitCode = some code →
        (exitText name code).toList <:+: r.stdout.toList ∨
        (exitText name code).toList <:+: r.stderr.toList) := by
  rcases execute_returns returns with ⟨message, some', rfl⟩ | ⟨tool, c, rfl, returned⟩
  · exact iff_of_true (told_failedResult some') fun _ code exits => by cases exits
  · cases reports_call tool returned with
    | fine fine =>
        rw [fine] at failed
        cases failed
    | refused some' =>
        exact iff_of_true (told_failedResult some') fun _ code exits => by cases exits
    | reading told reads =>
        refine iff_of_true told fun shell => ?_
        rcases (shell_name_iff tool).mp shell with rfl | rfl
        · exact absurd rfl reads.1
        · exact absurd rfl reads.2
    | command ran shell =>
        have code : ran.exitCode ≠ 0 := by simpa [commandResult] using failed
        have single : '\n' ∉ tool.name.toList := by
          rcases shell with rfl | rfl
          · decide
          · decide
        rw [told_commandResult single code]
        constructor
        · intro tells _ code' exits
          obtain rfl := Option.some.inj exits
          exact tells
        · intro tells
          exact tells ((shell_name_iff tool).mpr shell) ran.exitCode rfl

end Outcomes

section Calls

variable (repr : String → String) (rt : Runtime) (sid : SessionId) (agent : Agent)
variable (call : PendingEvent)

/-- The payload of a tool call is that of one of the outcomes. -/
theorem toolPayload_outcome {payload : Payload}
    (returns : (toolPayload rt sid agent call).MayReturn payload) :
    ∃ outcome : ToolOutcome, outcome.result rt call = .ok payload := by
  rw [toolPayload_eq] at returns
  obtain ⟨outcome, _, settled⟩ := Program.mayReturn_bind.mp returns
  exact ⟨outcome, Program.mayReturn_settle.mp settled⟩

variable {repr rt call} {str : Json → String} {toolUseId : String}

theorem caught_eq_ok {e : Exn} {payload payload' : Payload} (h : caught e payload = .ok payload') :
    payload' = payload := by
  unfold caught at h
  split at h
  · exact (Except.ok.inj h).symm
  · cases h

theorem answers_payload {outcome : ToolOutcome} {payload : Payload}
    (recorded : outcome.result rt call = .ok payload) :
    payload.get? "tool_call_id" = some (.uuid call.id) := by
  cases outcome with
  | refused =>
      obtain rfl := Except.ok.inj recorded
      rfl
  | unprovisioned e =>
      obtain rfl := caught_eq_ok recorded
      rfl
  | failed sandbox e =>
      obtain rfl := caught_eq_ok recorded
      rfl
  | executed sandbox r =>
      obtain rfl := Except.ok.inj recorded
      rfl
  | unanswered e => cases recorded
  | proxied r =>
      obtain rfl := Except.ok.inj recorded
      rfl

variable (rt call) in
/-- A stub is an error of the runtime. -/
theorem stubPayload_eq : ∃ error, error ≠ "" ∧
    stubPayload rt call call.toolName = errorPayload call call.toolName error := by
  refine ⟨_, ?_, rfl⟩
  split
  · exact append_ne_empty (append_ne_empty (by decide))
  · split
    · exact append_ne_empty (append_ne_empty (by decide))
    · exact append_ne_empty (append_ne_empty (by decide))

theorem shown_iff_tells {outcome : ToolOutcome} {payload : Payload}
    (fails : outcome.Fails repr call) (recorded : outcome.result rt call = .ok payload) :
    ShowsFailure payload ((toolResultBlock toolUseId payload).toAnthropic str) ↔
      outcome.Tells call := by
  have error (text : String) (some' : text ≠ "") : ShowsFailure
      (errorPayload call call.toolName text)
      ((toolResultBlock toolUseId (errorPayload call call.toolName text)).toAnthropic str) := by
    have shown := shown_errorPayload call str toolUseId some' []
    rwa [List.append_nil] at shown
  cases outcome with
  | refused =>
      obtain rfl := Except.ok.inj recorded
      obtain ⟨text, some', stub⟩ := stubPayload_eq rt call
      rw [stub]
      exact iff_of_true (error text some') trivial
  | unprovisioned e =>
      obtain rfl := caught_eq_ok recorded
      exact iff_of_true (error _ (append_ne_empty (by decide))) trivial
  | failed sandbox e =>
      obtain rfl := caught_eq_ok recorded
      exact iff_of_true (shown_errorPayload _ _ _ (append_ne_empty (by decide)) _) trivial
  | executed sandbox r =>
      obtain rfl := Except.ok.inj recorded
      obtain ⟨failed, b, id, input, ending, returns⟩ := fails
      rw [shown_result_iff failed rfl rfl rfl]
      exact told_iff returns failed
  | unanswered e => cases recorded
  | proxied r =>
      obtain rfl := Except.ok.inj recorded
      exact shown_result_iff fails rfl rfl rfl

variable (repr rt call str toolUseId) in
/-- Every tool call is recorded as one of the outcomes. A recorded failure is sent with every
context that has it and its call, and shown exactly if it tells what its error is. -/
theorem failures_shown_iff :
    (∀ payload, (toolPayload rt sid agent call).MayReturn payload →
      ∃ outcome : ToolOutcome, outcome.result rt call = .ok payload) ∧
    ∀ (outcome : ToolOutcome) (payload : Payload), outcome.Fails repr call →
      outcome.result rt call = .ok payload →
        (∀ events e, e ∈ events → e.type = .toolResult → e.payload = payload →
          (toolCallIds events).lookup call.id = some toolUseId →
            Sends (splitSystem str (foldContext events)).2
              ((toolResultBlock toolUseId payload).toAnthropic str)) ∧
        (ShowsFailure payload ((toolResultBlock toolUseId payload).toAnthropic str) ↔
          outcome.Tells call) := by
  refine ⟨fun payload => toolPayload_outcome rt sid agent call,
    fun outcome payload fails recorded => ⟨?_, shown_iff_tells fails recorded⟩⟩
  rintro events e mem type rfl known
  obtain ⟨items, sent, inside⟩ :=
    ContextFold.result_in_context mem type (answers_payload recorded) known
  exact sends_of_context sent inside

end Calls

section Silent

/-- A runtime with a sandbox, and no profiles. -/
def sandboxRuntime : Runtime where
  sandbox := true
  toolProxy := false
  proxyToolNames := []
  loadProfile := fun _ => .error (.other "no profile")
  builtinSchemas := fun _ => none
  proxySchemas := fun _ => none
  deepAgentsSchemas := fun _ => none
  validateRecipe := fun _ => .ok .default

/-- A call of a command that fails and prints nothing. -/
def silentCall : PendingEvent :=
  ⟨.uuid4 0, .toolCall, toolCallPayload "t1" "bash" [("command", .str "false")]⟩

def silentPayload : Payload :=
  sandboxResultPayload silentCall silentCall.toolName "c1" (commandResult "bash" ⟨1, "", ""⟩)

/-- The error names the exit code, and the model is sent an empty content. -/
theorem silent_failure_hidden : ∃ outcome : ToolOutcome,
    outcome.Fails id silentCall ∧ outcome.result sandboxRuntime silentCall = .ok silentPayload ∧
    silentPayload.get? "error" = some (.str "bash exited with code 1") ∧
    ((toolResultBlock "t1" silentPayload).toAnthropic fun _ => "").get? "content" =
      some (.str "") ∧
    ¬ ShowsFailure silentPayload
      ((toolResultBlock "t1" silentPayload).toAnthropic fun _ => "") := by
  have ran : (oneSandbox.execute id "c1" silentCall.toolName [("command", .str "false")]
      .finishes).run (failingDocker "") () = (.ok (commandResult "bash" ⟨1, "", ""⟩), ()) := rfl
  have fails : (ToolOutcome.executed "c1" (commandResult "bash" ⟨1, "", ""⟩)).Fails id
      silentCall :=
    ⟨rfl, oneSandbox, "c1", [("command", .str "false")], .finishes, Program.mayReturn_of_run ran⟩
  have empty' : ((toolResultBlock "t1" silentPayload).toAnthropic fun _ => "").get? "content" =
      some (.str "") := rfl
  refine ⟨_, fails, rfl, rfl, empty', ?_⟩
  rintro ⟨_, content, said, some', _⟩
  obtain rfl := Json.str.inj (Option.some.inj (empty'.symm.trans said))
  exact some' rfl

/-- A call that reads a file. -/
def readCall : PendingEvent :=
  ⟨.uuid4 0, .toolCall, toolCallPayload "t1" "file_read" missingLog⟩

def missingResult : ToolResult :=
  readingResult "file_read" ⟨1, "", "No such file or directory"⟩

/-- The file is not there, and the model is told. -/
theorem failures_shown_iff_missing :
    ShowsFailure (sandboxResultPayload readCall readCall.toolName "c1" missingResult)
      ((toolResultBlock "t1" (sandboxResultPayload readCall readCall.toolName "c1"
        missingResult)).toAnthropic fun _ => "") := by
  have ran : (oneSandbox.execute id "c1" readCall.toolName missingLog .finishes).run
      (failingDocker "No such file or directory") () = (.ok missingResult, ()) := rfl
  have fails : (ToolOutcome.executed "c1" missingResult).Fails id readCall :=
    ⟨rfl, oneSandbox, "c1", missingLog, .finishes, Program.mayReturn_of_run ran⟩
  refine (((failures_shown_iff id sandboxRuntime "s" ⟨"agent", "model", "vanilla", none, [], none⟩
    readCall (fun _ => "") "t1").2 _ _ fails rfl).2).mpr fun shell => ?_
  rcases shell with bash | python
  · exact absurd bash (by decide)
  · exact absurd python (by decide)

end Silent

end Tename
