import Tename.Harness.Grammar
import Tename.Router.Contents
import Tename.Router.Pricing

/-!
# What a completion leaves in the log

The events of the Messages API pass through the provider, the router and the adapter before the
loop emits them. A turn leaves in the log what the API's stream says, piece by piece and in its
order, and then one event more: the closer with all the text and the priced usage, or the error
that the completion has failed with.
-/

namespace Tename

/-- The stream of `ModelRouter.complete`, from what the provider does and how it ends. -/
def completed {F : Type} (round : ℚ → String) (table : PricingTable) (profile : RouterProfile)
    (ops : List (ProviderOp F)) (r : Except ProviderExn Unit) : ModelStream where
  chunks := routed round table profile ops
  failure :=
    match r with
    | .ok () => none
    | .error (.api e) => some (.other e.message)
    | .error (.other e) => some (.other e.message)

/-- Type and payload of an event. -/
abbrev EventRecord := EventType × Payload

def Event.record (e : Event) : EventRecord := (e.type, e.payload)

def PendingEvent.record (e : PendingEvent) : EventRecord := (e.type, e.payload)

def Content.record : Content → EventRecord
  | .text said => (.assistantMessage, deltaPayload said)
  | .toolUse id name input => (.toolCall, toolCallPayload id name input)

def Content.text? : Content → Option String
  | .text said => some said
  | .toolUse _ _ _ => none

/-- The closer of a turn with text. -/
def closing (usage : Usage) (texts : List String) : List EventRecord :=
  if texts = [] then [] else [(.assistantMessage, closerPayload texts (some usage))]

section Chunks

variable {rt : Runtime} {agents : AgentId → Option Agent} {sid : SessionId}
variable {adapter : FrameworkAdapter} {w w' : World} {failure : Option Exn}

/-- What the loop knows after some content. -/
structure HeardContent (content : List ModelChunk) (records : List EventRecord)
    (st st' : TurnState) : Prop where
  texts : st'.textParts = st.textParts ++ content.filterMap ModelChunk.deltaText?
  calls : st'.toolCalls.map PendingEvent.record =
    st.toolCalls.map PendingEvent.record ++ records.filter (·.1 = .toolCall)
  usage : st'.latestUsage = st.latestUsage
  errored : st'.errored = st.errored

theorem HeardContent.silent {chunk : ModelChunk} {content : List ModelChunk}
    {records : List EventRecord} {st st' : TurnState} (wordless : chunk.deltaText? = none)
    (rest : HeardContent content records st st') :
      HeardContent (chunk :: content) records st st' := by
  refine ⟨?_, rest.calls, rest.usage, rest.errored⟩
  rw [rest.texts, List.filterMap_cons_none wordless]

end Chunks

section Completions

variable {F : Type} {loads : String → Loaded} {arith : FloatArith F} {eh : ErrorHandling F}
variable {outcomes : Nat → Except ApiError ApiStream} {ops : List (ProviderOp F)}
variable {r : Except ProviderExn Unit} {k : Nat}
variable (round : ℚ → String) (table : PricingTable) (profile : RouterProfile)

variable {rt : Runtime} {agents : AgentId → Option Agent} {sid : SessionId}
variable {adapter : FrameworkAdapter} {w w' : World} {st : TurnState}
variable {messages : List Message} {tools : List ToolDef}

end Completions

section Interleaved

/-- A text and a tool use whose events interleave. -/
def ApiStream.interleaved : ApiStream := ⟨Tename.interleaved, none⟩

end Interleaved

end Tename
