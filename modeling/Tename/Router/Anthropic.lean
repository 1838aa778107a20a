import Tename.Router.Types

/-!
# Messages on the wire

What the Anthropic provider sends for the messages of a request. System messages are a
field of their own, and tool messages are user messages of `tool_result` blocks.
-/

namespace Tename

def Role.value : Role → String
  | .system => "system"
  | .user => "user"
  | .assistant => "assistant"
  | .tool => "tool"

/-- A text block. -/
def textBlock (text : String) : Payload :=
  [("type", .str "text"), ("text", .str text)]

variable (str : Json → String)

/-- The content of a `tool_result` block. -/
def ResultContent.toJson : ResultContent → Json
  | .text said => .str said
  | .blocks items => .arr items
  | .strOf value => .str (str value)

/-- One block of `_content_to_anthropic`. -/
def ContentBlock.toAnthropic : ContentBlock → Payload
  | .text said => textBlock said
  | .toolUse id name input =>
      [("type", .str "tool_use"), ("id", .str id), ("name", .str name), ("input", .obj input)]
  | .toolResult toolUseId content isError =>
      [("type", .str "tool_result"), ("tool_use_id", .str toolUseId),
        ("content", content.toJson str)] ++
        if isError = some true then [("is_error", .bool true)] else []

/-- `_content_to_anthropic`. -/
def contentToAnthropic : MessageContent → Json
  | .text said => .str said
  | .blocks items => .arr (items.map fun block => .obj (block.toAnthropic str))

/-- `_to_text_blocks`. -/
def toTextBlocks : MessageContent → List Payload
  | .text said => [textBlock said]
  | .blocks items => items.filterMap fun
      | .text said => if said = "" then none else some (textBlock said)
      | _ => none

/-- A message that is not a system message. -/
def Message.toAnthropic (m : Message) : Payload :=
  [("role", .str (if m.role = .tool then "user" else m.role.value)),
    ("content", contentToAnthropic str m.content)]

/-- `_split_system`. -/
def splitSystem (messages : List Message) : List Payload × List Payload :=
  let (system, others) := messages.partition (·.role = .system)
  (system.flatMap fun m => toTextBlocks m.content, others.map (Message.toAnthropic str))

variable {str} {messages : List Message} {m : Message}

/-- Every message is sent, but for the system messages. -/
theorem mem_splitSystem (mem : m ∈ messages) (other : m.role ≠ .system) :
    m.toAnthropic str ∈ (splitSystem str messages).2 := by
  rw [splitSystem, List.partition_eq_filter_filter]
  exact List.mem_map_of_mem (List.mem_filter.mpr ⟨mem, by simpa using other⟩)

end Tename
