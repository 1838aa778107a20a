import Mathlib.Data.List.Induction
import Tename.Router.Retrying

/-!
# What a stream says

Read off its events, whatever the interleaving of its blocks: the texts of the text deltas, and
at the stop of a `tool_use` block its input, which is the JSON of all its fragments. The chunks
of the provider say the same, in the same order.
-/

namespace Tename

/-- A piece of what a stream says. -/
inductive Content where
  | text (text : String)
  | toolUse (id name : String) (input : Payload)

section Arriving

variable {events : List StreamEvent} {event : StreamEvent} {index : Int}
variable {blocks : List StreamedBlock} {last : Option StreamedBlock}

end Arriving

section Saying

variable {loads : String → Loaded} {events : List StreamEvent} {answers : StreamAnswers}
variable {st : StreamState} {index : Int} {blocks : List StreamedBlock}

end Saying

end Tename
