import Tename.Sessions.Models

/-!
# Messages and stream chunks

The part of `router/types.py` that the runtime reads. A `ContentBlock` and a
`ModelChunk` are one class each in the source, with a `type` that says which
fields are populated; here the type is the constructor, so a block or a chunk
with fields of another type cannot be built. Chunks follow the per-type schema
that `ModelChunk` documents and its factory helpers encode.
-/

namespace Tename

/-- Token usage for a single completion. -/
structure Usage where
  inputTokens : Int
  outputTokens : Int
  cachedInputTokens : Int
  reasoningTokens : Int
  /-- The shortest representation of the float, if known. -/
  costUsd : Option String

/-- `usage.model_dump()`. -/
def Usage.modelDump (u : Usage) : Payload :=
  [("input_tokens", .int u.inputTokens), ("output_tokens", .int u.outputTokens),
    ("cached_input_tokens", .int u.cachedInputTokens),
    ("reasoning_tokens", .int u.reasoningTokens),
    ("cost_usd", (u.costUsd.map Json.float).getD .null)]

inductive ModelChunk where
  | textDelta (text : String)
  | toolCallStart (toolId toolName : String) (index : Int)
  | toolCallDelta (toolId partialJson : String) (index : Int)
  | toolCallEnd (toolId toolName : String) (input : Payload) (index : Int)
  | usage (usage : Usage)
  | done
  | error (message : String) (retryable : Bool) (statusCode : Option Int)

inductive Role where
  | system
  | user
  | assistant
  | tool
  deriving DecidableEq, Repr

/-- What a `tool_result` block carries: the stored string or list, or `str()`
of another stored value. -/
inductive ResultContent where
  | text (text : String)
  | blocks (blocks : List Json)
  | strOf (value : Json)

inductive ContentBlock where
  | text (text : String)
  | toolUse (id name : String) (input : Payload)
  | toolResult (toolUseId : String) (content : ResultContent) (isError : Option Bool)

inductive MessageContent where
  | text (text : String)
  | blocks (blocks : List ContentBlock)

structure Message where
  role : Role
  content : MessageContent

/-- JSONSchema-shaped tool definition. -/
structure ToolDef where
  name : String
  description : String
  inputSchema : Payload

end Tename
