import Mathlib.Logic.Function.Basic
import Tename.Proxy.Values
import Tename.Router.Types
import Tename.Text.Spaces
import Tename.Transition.Keyed

/-!
# Events of a stream

The Messages API streams a message in content blocks, each with an index of its own, and
the events of different blocks may interleave. `_stream` keeps what it knows of an open
`tool_use` block in a table under the block's index. The events of an index are answered as
though there were no others, and what a block is answered with follows from its own events.
-/

namespace Tename

/-- What `json.loads` does with a text. -/
inductive Loaded where
  | value (value : Json)
  | jsonDecodeError
  /-- Another exception: a number of too many digits, or too deep a nesting. -/
  | raises (e : PyError)

/-- `usage` of a `message_start`. -/
structure StartUsage where
  inputTokens : Option Int
  cacheReadInputTokens : Option Int
  outputTokens : Option Int

/-- `usage` of a `message_delta`. -/
structure DeltaUsage where
  outputTokens : Option Int
  cacheReadInputTokens : Option Int
  inputTokens : Option Int

/-- `content_block` of a `content_block_start`. -/
inductive StartedBlock where
  | toolUse (id name : String)
  | other (type : String)

/-- `delta` of a `content_block_delta`. -/
inductive BlockDelta where
  | textDelta (text : String)
  | inputJsonDelta (partialJson : String)
  | other (type : String)

inductive StreamEvent where
  | messageStart (usage : StartUsage)
  | contentBlockStart (index : Int) (block : StartedBlock)
  | contentBlockDelta (index : Int) (delta : BlockDelta)
  | contentBlockStop (index : Int)
  | messageDelta (usage : DeltaUsage)
  | other (type : String)

/-- `_ToolBlockState`. -/
structure ToolBlockState where
  toolId : String
  toolName : String
  partialJsonBuf : String

/-- The local variables of `_stream`. -/
structure StreamState where
  toolBlocks : Int → Option ToolBlockState
  inputTokens : Int
  cachedInputTokens : Int
  outputTokens : Int

def StreamState.initial : StreamState := ⟨fun _ => none, 0, 0, 0⟩

variable (loads : String → Loaded)

/-- `_safe_json_loads`. -/
def safeJsonLoads (buf : String) : Except PyError Payload :=
  if strip buf = "" then .ok []
  else
    match loads buf with
    | .jsonDecodeError => .ok []
    | .raises e => .error e
    | .value (.obj fields) => .ok fields
    | .value value => .ok [("_value", value)]

/-- The body of the loop of `_stream`: the chunks of one event. -/
def handleEvent : Transducer StreamState StreamEvent (List ModelChunk) PyError
  | st, .messageStart usage =>
      .ok ({ st with
        inputTokens := usage.inputTokens.getD 0
        cachedInputTokens := usage.cacheReadInputTokens.getD 0
        outputTokens := usage.outputTokens.getD 0 }, [])
  | st, .contentBlockStart index (.toolUse id name) =>
      .ok ({ st with toolBlocks := Function.update st.toolBlocks index (some ⟨id, name, ""⟩) },
        [.toolCallStart id name index])
  | st, .contentBlockStart _ (.other _) => .ok (st, [])
  | st, .contentBlockDelta _ (.textDelta text) => .ok (st, [.textDelta text])
  | st, .contentBlockDelta index (.inputJsonDelta partialJson) =>
      match st.toolBlocks index with
      | none => .ok (st, [])
      | some state =>
          let state := { state with partialJsonBuf := state.partialJsonBuf ++ partialJson }
          .ok ({ st with toolBlocks := Function.update st.toolBlocks index (some state) },
            [.toolCallDelta state.toolId partialJson index])
  | st, .contentBlockDelta _ (.other _) => .ok (st, [])
  | st, .contentBlockStop index =>
      match st.toolBlocks index with
      | none => .ok (st, [])
      | some state => do
          let parsedInput ← safeJsonLoads loads state.partialJsonBuf
          return ({ st with toolBlocks := Function.update st.toolBlocks index none },
            [.toolCallEnd state.toolId state.toolName parsedInput index])
  | st, .messageDelta usage =>
      .ok ({ st with
        outputTokens := usage.outputTokens.getD st.outputTokens
        cachedInputTokens := usage.cacheReadInputTokens.getD st.cachedInputTokens
        inputTokens := (usage.inputTokens.map (max st.inputTokens)).getD st.inputTokens }, [])
  | st, .other _ => .ok (st, [])

/-- What an event does to the variables, and the chunks it is answered with. A stray fragment or
stop is one of a block that is not in the table. -/
inductive Handles (st : StreamState) : StreamEvent → StreamState → List ModelChunk → Prop where
  | messageStart (usage : StartUsage) :
      Handles st (.messageStart usage) { st with
        inputTokens := usage.inputTokens.getD 0
        cachedInputTokens := usage.cacheReadInputTokens.getD 0
        outputTokens := usage.outputTokens.getD 0 } []
  | messageDelta (usage : DeltaUsage) :
      Handles st (.messageDelta usage) { st with
        outputTokens := usage.outputTokens.getD st.outputTokens
        cachedInputTokens := usage.cacheReadInputTokens.getD st.cachedInputTokens
        inputTokens := (usage.inputTokens.map (max st.inputTokens)).getD st.inputTokens } []
  | toolUse (index : Int) (id name : String) :
      Handles st (.contentBlockStart index (.toolUse id name))
        { st with toolBlocks := Function.update st.toolBlocks index (some ⟨id, name, ""⟩) }
        [.toolCallStart id name index]
  | text (index : Int) (text : String) :
      Handles st (.contentBlockDelta index (.textDelta text)) st [.textDelta text]
  | fragment {index : Int} {partialJson : String} {state : ToolBlockState}
      (held : st.toolBlocks index = some state) :
      Handles st (.contentBlockDelta index (.inputJsonDelta partialJson))
        { st with
          toolBlocks := Function.update st.toolBlocks index
            (some { state with partialJsonBuf := state.partialJsonBuf ++ partialJson }) }
        [.toolCallDelta state.toolId partialJson index]
  | stop {index : Int} {state : ToolBlockState} {input : Payload}
      (held : st.toolBlocks index = some state)
      (parsed : safeJsonLoads loads state.partialJsonBuf = .ok input) :
      Handles st (.contentBlockStop index)
        { st with toolBlocks := Function.update st.toolBlocks index none }
        [.toolCallEnd state.toolId state.toolName input index]
  | strayStart (index : Int) (type : String) :
      Handles st (.contentBlockStart index (.other type)) st []
  | strayDelta (index : Int) (type : String) :
      Handles st (.contentBlockDelta index (.other type)) st []
  | strayFragment (index : Int) (partialJson : String) :
      Handles st (.contentBlockDelta index (.inputJsonDelta partialJson)) st []
  | strayStop (index : Int) : Handles st (.contentBlockStop index) st []
  | other (type : String) : Handles st (.other type) st []

variable {loads}

/-- An event that raises nothing does one of these things. -/
theorem handles {st st' : StreamState} {event : StreamEvent} {chunks : List ModelChunk}
    (read : handleEvent loads st event = .ok (st', chunks)) :
    Handles loads st event st' chunks := by
  cases event with
  | messageStart usage =>
      cases read
      exact .messageStart usage
  | messageDelta usage =>
      cases read
      exact .messageDelta usage
  | contentBlockStart index block =>
      cases block with
      | toolUse id name =>
          cases read
          exact .toolUse index id name
      | other type =>
          cases read
          exact .strayStart index type
  | contentBlockDelta index delta =>
      cases delta with
      | textDelta text =>
          cases read
          exact .text index text
      | inputJsonDelta partialJson =>
          simp only [handleEvent] at read
          split at read
          · cases read
            exact .strayFragment index partialJson
          · rename_i state held
            cases read
            exact .fragment held
      | other type =>
          cases read
          exact .strayDelta index type
  | contentBlockStop index =>
      simp only [handleEvent] at read
      split at read
      · cases read
        exact .strayStop index
      · rename_i state held
        cases parsed : safeJsonLoads loads state.partialJsonBuf with
        | error e =>
            rw [parsed] at read
            cases read
        | ok input =>
            rw [parsed] at read
            cases read
            exact .stop held parsed
  | other type =>
      cases read
      exact .other type

variable (loads)

section Blocks

/-- The index of an event that has one. -/
def StreamEvent.index? : StreamEvent → Option Int
  | .contentBlockStart index _ => some index
  | .contentBlockDelta index _ => some index
  | .contentBlockStop index => some index
  | _ => none

def StreamEvent.deltaText? : StreamEvent → Option String
  | .contentBlockDelta _ (.textDelta text) => some text
  | _ => none

def ModelChunk.deltaText? : ModelChunk → Option String
  | .textDelta text => some text
  | _ => none

/-- A chunk of text or of a tool call. -/
def ModelChunk.IsContent : ModelChunk → Prop
  | .textDelta _ => True
  | .toolCallStart _ _ _ => True
  | .toolCallDelta _ _ _ => True
  | .toolCallEnd _ _ _ _ => True
  | _ => False

def BlockDelta.fragment? : BlockDelta → Option String
  | .inputJsonDelta partialJson => some partialJson
  | _ => none

/-- The answers to some events, each with its event. -/
abbrev StreamAnswers := List (StreamEvent × List ModelChunk)

/-- The chunks of a start. -/
def StartedBlock.starts (index : Int) : StartedBlock → List ModelChunk
  | .toolUse id name => [.toolCallStart id name index]
  | .other _ => []

/-- The chunks of a delta. -/
def StartedBlock.carries (index : Int) : StartedBlock → BlockDelta → List ModelChunk
  | _, .textDelta text => [.textDelta text]
  | .toolUse id _, .inputJsonDelta partialJson => [.toolCallDelta id partialJson index]
  | _, _ => []

/-- A block as it arrives. -/
structure StreamedBlock where
  block : StartedBlock
  deltas : List BlockDelta

namespace StreamedBlock

variable (index : Int) (b : StreamedBlock)

/-- The events of a block up to its stop. -/
def opening : List StreamEvent :=
  .contentBlockStart index b.block :: b.deltas.map (.contentBlockDelta index)

def events : List StreamEvent :=
  b.opening index ++ [.contentBlockStop index]

/-- The concatenation of the fragments. -/
def buffer : String :=
  .join (b.deltas.filterMap BlockDelta.fragment?)

/-- One chunk for the start of a `tool_use` block, and one for each of its fragments. -/
def openingAnswers : StreamAnswers :=
  (.contentBlockStart index b.block, b.block.starts index) ::
    b.deltas.map fun delta => (.contentBlockDelta index delta, b.block.carries index delta)

/-- The chunks of the stop. -/
def finish : Except PyError (List ModelChunk) :=
  match b.block with
  | .toolUse id name => (safeJsonLoads loads b.buffer).map fun input =>
      [.toolCallEnd id name input index]
  | .other _ => .ok []

/-- The answers to a block's events. -/
def Carried (answers : StreamAnswers) : Prop :=
  ∃ last, b.finish loads index = .ok last ∧
    answers = b.openingAnswers index ++ [(.contentBlockStop index, last)]

/-- `json.loads` takes the fragments of a `tool_use` block, or refuses them for their syntax. -/
def Parses : Prop :=
  match b.block with
  | .toolUse _ _ => strip b.buffer ≠ "" → ∀ e, loads b.buffer ≠ .raises e
  | .other _ => True

end StreamedBlock

/-- The events of an index are those of some blocks, one after the other, the last of which may
still be open. -/
def Arrives (events : List StreamEvent) (index : Int) (blocks : List StreamedBlock)
    (last : Option StreamedBlock) : Prop :=
  lane StreamEvent.index? index events =
    blocks.flatMap (·.events index) ++ (last.map (·.opening index)).getD []

/-- Nothing is lost, and nothing mixed up. -/
structure Demultiplexed (events : List StreamEvent) (answers : StreamAnswers) : Prop where
  once : answers.map Prod.fst = events
  texts : (answers.flatMap Prod.snd).filterMap ModelChunk.deltaText? =
    events.filterMap StreamEvent.deltaText?
  blocks : ∀ index blocks last, Arrives events index blocks last → ∃ carried,
    List.Forall₂ (StreamedBlock.Carried loads index) blocks carried ∧
    lane (·.1.index?) index answers =
      carried.flatten ++ (last.map (·.openingAnswers index)).getD []
  others : ∀ answered ∈ answers, answered.1.index? = none → answered.2 = []

end Blocks

section OneIndex

/-- What `_stream` does with the events of one index: it reads and writes the table there. -/
def ownEvent (index : Int) :
    Transducer (Option ToolBlockState) StreamEvent (List ModelChunk) PyError
  | _, .contentBlockStart _ (.toolUse id name) =>
      .ok (some ⟨id, name, ""⟩, [.toolCallStart id name index])
  | slot, .contentBlockDelta _ (.textDelta text) => .ok (slot, [.textDelta text])
  | some state, .contentBlockDelta _ (.inputJsonDelta partialJson) =>
      .ok (some { state with partialJsonBuf := state.partialJsonBuf ++ partialJson },
        [.toolCallDelta state.toolId partialJson index])
  | some state, .contentBlockStop _ =>
      (safeJsonLoads loads state.partialJsonBuf).map fun input =>
        (none, [.toolCallEnd state.toolId state.toolName input index])
  | slot, _ => .ok (slot, [])

variable {loads}

theorem handleEvent_slotted :
    Transducer.Slotted (handleEvent loads) StreamEvent.index? StreamState.toolBlocks
      (ownEvent loads) where
  here st event index here := by
    cases event with
    | contentBlockStart at' block =>
        obtain rfl : at' = index := Option.some.inj here
        cases block with
        | toolUse id name => simp [handleEvent, ownEvent, Except.map]
        | other type => rfl
    | contentBlockDelta at' delta =>
        obtain rfl : at' = index := Option.some.inj here
        cases delta with
        | textDelta text => rfl
        | inputJsonDelta partialJson =>
            cases held : st.toolBlocks at' with
            | none => simp [handleEvent, ownEvent, held, Except.map]
            | some state => simp [handleEvent, ownEvent, held, Except.map]
        | other type =>
            cases held : st.toolBlocks at' with
            | none => simp [handleEvent, ownEvent, held, Except.map]
            | some state => simp [handleEvent, ownEvent, held, Except.map]
    | contentBlockStop at' =>
        obtain rfl : at' = index := Option.some.inj here
        cases held : st.toolBlocks at' with
        | none => simp [handleEvent, ownEvent, held, Except.map]
        | some state =>
            cases parsed : safeJsonLoads loads state.partialJsonBuf with
            | error e => simp [handleEvent, ownEvent, held, parsed, Except.map, bind, Except.bind]
            | ok input =>
                simp [handleEvent, ownEvent, held, parsed, Except.map, bind, Except.bind, pure,
                  Except.pure]
    | messageStart usage => cases here
    | messageDelta usage => cases here
    | other type => cases here
  elsewhere st event st' answer index read away := by
    have other {at' : Int} {slot : Option ToolBlockState} (away : some at' ≠ some index) :
        Function.update st.toolBlocks at' slot index = st.toolBlocks index :=
      Function.update_of_ne (fun same => away (congrArg some same.symm)) _ _
    cases handles read with
    | toolUse => exact other away
    | fragment => exact other away
    | stop => exact other away
    | _ => rfl
  keyless st event free := by
    cases event with
    | contentBlockStart at' block => cases free
    | contentBlockDelta at' delta => cases free
    | contentBlockStop at' => cases free
    | messageStart usage => exact ⟨_, rfl⟩
    | messageDelta usage => exact ⟨_, rfl⟩
    | other type => exact ⟨_, rfl⟩

/-- What the table holds of a block with these fragments so far. -/
def StartedBlock.slot (buffer : String) : StartedBlock → Option ToolBlockState
  | .toolUse id name => some ⟨id, name, buffer⟩
  | .other _ => none

namespace StreamedBlock

variable {index : Int} {b : StreamedBlock}

/-- The deltas of a block are answered one by one, and its fragments appended. -/
theorem run_deltas (block : StartedBlock) (deltas : List BlockDelta) (buffer : String) :
    (ownEvent loads index).run (block.slot buffer) (deltas.map (.contentBlockDelta index)) =
      .ok (block.slot ((deltas.filterMap BlockDelta.fragment?).foldl (· ++ ·) buffer),
        deltas.map fun delta => (.contentBlockDelta index delta, block.carries index delta)) := by
  induction deltas generalizing buffer with
  | nil => rfl
  | cons delta deltas ih =>
      have first : ownEvent loads index (block.slot buffer) (.contentBlockDelta index delta) =
          .ok (block.slot (([delta].filterMap BlockDelta.fragment?).foldl (· ++ ·) buffer),
            block.carries index delta) := by
        cases block <;> cases delta <;> rfl
      rw [List.map_cons, Transducer.run_cons first, ih]
      cases delta <;> rfl

theorem run_opening (b : StreamedBlock) :
    (ownEvent loads index).run none (b.opening index) =
      .ok (b.block.slot b.buffer, b.openingAnswers index) := by
  have first : ownEvent loads index none (.contentBlockStart index b.block) =
      .ok (b.block.slot "", b.block.starts index) := by
    cases b.block <;> rfl
  rw [opening, Transducer.run_cons first, run_deltas]
  rfl

theorem run_stop (b : StreamedBlock) :
    ownEvent loads index (b.block.slot b.buffer) (.contentBlockStop index) =
      (b.finish loads index).map fun last => (none, last) := by
  rw [finish]
  cases b.block with
  | toolUse id name =>
      simp only [StartedBlock.slot, ownEvent]
      cases safeJsonLoads loads b.buffer <;> rfl
  | other type => rfl

/-- A block goes through exactly if its stop is answered. -/
theorem run_events {ended : Option ToolBlockState × StreamAnswers} :
    (ownEvent loads index).run none (b.events index) = .ok ended ↔
      ended.1 = none ∧ b.Carried loads index ended.2 := by
  rw [events, Transducer.run_append (run_opening b), Transducer.run, run_stop, Carried]
  obtain ⟨slot, answers⟩ := ended
  cases b.finish loads index with
  | error e => simp [Except.map]
  | ok last => simp [Except.map, eq_comm]

theorem run_blocks {blocks : List StreamedBlock} {ended : Option ToolBlockState × StreamAnswers} :
    (ownEvent loads index).run none (blocks.flatMap (·.events index)) = .ok ended ↔
      ended.1 = none ∧ ∃ carried, List.Forall₂ (Carried loads index) blocks carried ∧
        ended.2 = carried.flatten := by
  induction blocks generalizing ended with
  | nil =>
      constructor
      · intro ran
        cases ran
        exact ⟨rfl, [], .nil, rfl⟩
      · rintro ⟨emptied, carried, answered, joined⟩
        cases answered
        obtain ⟨slot, answers⟩ := ended
        obtain rfl : slot = none := emptied
        obtain rfl : answers = [] := joined
        rfl
  | cons b blocks ih =>
      rw [List.flatMap_cons]
      constructor
      · intro ran
        obtain ⟨slot, before, after, first, rest, joined⟩ := Transducer.run_append_ok ran
        obtain ⟨emptied, answered⟩ := run_events.mp first
        obtain rfl : slot = none := emptied
        obtain ⟨emptied, carried, others, flat⟩ := ih.mp rest
        refine ⟨emptied, before :: carried, .cons answered others, ?_⟩
        rw [joined, List.flatten_cons]
        exact congrArg (before ++ ·) flat
      · rintro ⟨emptied, carried, answered, joined⟩
        cases answered with
        | cons first others =>
            rename_i before carried
            have ranFirst : (ownEvent loads index).run none (b.events index) = .ok (none, before) :=
              run_events.mpr ⟨rfl, first⟩
            have ranRest : (ownEvent loads index).run none (blocks.flatMap (·.events index)) =
                .ok (none, carried.flatten) := ih.mpr ⟨rfl, carried, others, rfl⟩
            rw [Transducer.run_append ranFirst, ranRest]
            obtain ⟨slot, answers⟩ := ended
            obtain rfl : slot = none := emptied
            obtain rfl : answers = before ++ carried.flatten := joined
            rfl

/-- What arrives at an index is answered block by block. -/
theorem run_arrived {blocks : List StreamedBlock} {last : Option StreamedBlock}
    {slot : Option ToolBlockState} {answers : StreamAnswers}
    (ran : (ownEvent loads index).run none
      (blocks.flatMap (·.events index) ++ (last.map (·.opening index)).getD []) =
        .ok (slot, answers)) :
    ∃ carried, List.Forall₂ (Carried loads index) blocks carried ∧
      answers = carried.flatten ++ (last.map (·.openingAnswers index)).getD [] := by
  obtain ⟨slot, before, after, first, rest, joined⟩ := Transducer.run_append_ok ran
  obtain ⟨emptied, carried, answered, flat⟩ := run_blocks.mp first
  obtain rfl : slot = none := emptied
  have whole : answers = before ++ after := joined
  refine ⟨carried, answered, ?_⟩
  rw [whole]
  refine congrArg₂ (· ++ ·) flat ?_
  cases last with
  | none =>
      cases rest
      rfl
  | some b =>
      rw [Option.map_some, Option.getD_some, run_opening] at rest
      cases rest
      rfl

/-- The stop of a block is answered exactly if its fragments are taken or refused. -/
theorem finish_ok_iff : (∃ last, b.finish loads index = .ok last) ↔ b.Parses loads := by
  rw [finish, Parses]
  cases b.block with
  | other type => exact iff_of_true ⟨_, rfl⟩ trivial
  | toolUse id name =>
      simp only [safeJsonLoads]
      by_cases blank : strip b.buffer = ""
      · rw [if_pos blank]
        exact iff_of_true ⟨_, rfl⟩ fun solid => absurd blank solid
      · rw [if_neg blank]
        cases loaded : loads b.buffer with
        | jsonDecodeError => exact iff_of_true ⟨_, rfl⟩ fun _ _ raised => nomatch raised
        | raises e =>
            refine iff_of_false ?_ fun parses => parses blank e rfl
            rintro ⟨last, impossible⟩
            cases impossible
        | value value =>
            refine iff_of_true ?_ fun _ _ raised => nomatch raised
            cases value <;> exact ⟨_, rfl⟩

/-- Where every stop is answered, all that arrives goes through. -/
theorem run_total {blocks : List StreamedBlock} {last : Option StreamedBlock}
    (parses : ∀ b ∈ blocks, b.Parses loads) :
    ∃ ended, (ownEvent loads index).run none
      (blocks.flatMap (·.events index) ++ (last.map (·.opening index)).getD []) = .ok ended := by
  have carried : ∃ carried, List.Forall₂ (Carried loads index) blocks carried := by
    induction blocks with
    | nil => exact ⟨[], .nil⟩
    | cons b blocks ih =>
        have first : ∃ last, b.finish loads index = .ok last :=
          finish_ok_iff.mpr (parses b List.mem_cons_self)
        obtain ⟨last, finished⟩ := first
        obtain ⟨carried, others⟩ := ih fun b mem => parses b (List.mem_cons_of_mem _ mem)
        exact ⟨_, .cons ⟨last, finished, rfl⟩ others⟩
  obtain ⟨carried, answered⟩ := carried
  have ran : (ownEvent loads index).run none (blocks.flatMap (·.events index)) =
      .ok (none, carried.flatten) := run_blocks.mpr ⟨rfl, carried, answered, rfl⟩
  rw [Transducer.run_append ran]
  cases last with
  | none => exact ⟨_, rfl⟩
  | some b =>
      rw [Option.map_some, Option.getD_some, run_opening]
      exact ⟨_, rfl⟩

end StreamedBlock

end OneIndex

section Streams

variable {loads} {events : List StreamEvent} {answers : StreamAnswers} {st st' : StreamState}

/-- An event is answered with nothing, or it is of an index and answered with one chunk. -/
theorem handleEvent_cases {event : StreamEvent} {chunks : List ModelChunk}
    (read : handleEvent loads st event = .ok (st', chunks)) :
    (chunks = [] ∧ event.deltaText? = none) ∨
      ∃ chunk index, chunks = [chunk] ∧ event.index? = some index ∧ chunk.IsContent ∧
        chunk.deltaText? = event.deltaText? := by
  cases handles read with
  | toolUse index => exact .inr ⟨_, index, rfl, rfl, trivial, rfl⟩
  | text index => exact .inr ⟨_, index, rfl, rfl, trivial, rfl⟩
  | @fragment index => exact .inr ⟨_, index, rfl, rfl, trivial, rfl⟩
  | @stop index => exact .inr ⟨_, index, rfl, rfl, trivial, rfl⟩
  | _ => exact .inl ⟨rfl, rfl⟩

/-- A text delta is answered with its text, and no other event with any. -/
theorem handleEvent_texts (st : StreamState) (event : StreamEvent) (st' : StreamState)
    (chunks : List ModelChunk) (read : handleEvent loads st event = .ok (st', chunks)) :
    chunks.filterMap ModelChunk.deltaText? = event.deltaText?.toList := by
  rcases handleEvent_cases read with ⟨rfl, silent⟩ | ⟨chunk, index, rfl, -, -, same⟩
  · rw [silent]
    rfl
  · rw [← same]
    cases text : chunk.deltaText? with
    | none => rw [List.filterMap_cons_none text, List.filterMap_nil, Option.toList_none]
    | some t => rw [List.filterMap_cons_some text, List.filterMap_nil, Option.toList_some]

/-- Events of no index are answered with nothing. -/
theorem handleEvent_silent (st : StreamState) (event : StreamEvent) (st' : StreamState)
    (chunks : List ModelChunk) (read : handleEvent loads st event = .ok (st', chunks))
    (free : event.index? = none) : chunks = [] := by
  rcases handleEvent_cases read with ⟨silent, -⟩ | ⟨chunk, index, -, here, -⟩
  · exact silent
  · rw [free] at here
    cases here

theorem texts_answers (each : ∀ answered ∈ answers,
    answered.2.filterMap ModelChunk.deltaText? = answered.1.deltaText?.toList) :
    (answers.flatMap Prod.snd).filterMap ModelChunk.deltaText? =
      (answers.map Prod.fst).filterMap StreamEvent.deltaText? := by
  induction answers with
  | nil => rfl
  | cons answered answers ih =>
      rw [List.flatMap_cons, List.filterMap_append, each answered List.mem_cons_self,
        ih fun answered mem => each answered (List.mem_cons_of_mem _ mem), List.map_cons]
      cases heard : answered.1.deltaText? with
      | none => rw [List.filterMap_cons_none heard, Option.toList_none, List.nil_append]
      | some text => rw [List.filterMap_cons_some heard, Option.toList_some, List.singleton_append]

/-- What a stream that goes through is answered with. -/
theorem demultiplexed_of_run
    (ran : (handleEvent loads).run .initial events = .ok (st', answers)) :
    Demultiplexed loads events answers where
  once := Transducer.run_events ran
  texts := by
    rw [texts_answers (Transducer.run_answers handleEvent_texts ran), Transducer.run_events ran]
  blocks := by
    intro index blocks last arrives
    have own := handleEvent_slotted.run_slot (i := index) ran
    rw [arrives] at own
    exact StreamedBlock.run_arrived own
  others := Transducer.run_answers handleEvent_silent ran

/-- A stopped block of the stream. -/
def Stopped (events : List StreamEvent) (b : StreamedBlock) : Prop :=
  ∃ index blocks last, Arrives events index blocks last ∧ b ∈ blocks

/-- Where the events of every index are those of blocks, one after the other, the stream is taken
apart without loss or mixing exactly if `json.loads` takes the fragments of every `tool_use`
block that stops, or refuses them for their syntax. -/
theorem stream_demultiplexed_iff (loads : String → Loaded) (events : List StreamEvent)
    (wellFormed : ∀ index, ∃ blocks last, Arrives events index blocks last) :
    (∃ st answers, (handleEvent loads).run .initial events = .ok (st, answers) ∧
      Demultiplexed loads events answers) ↔
    ∀ b, Stopped events b → b.Parses loads := by
  constructor
  · rintro ⟨st, answers, -, demultiplexed⟩ b ⟨index, blocks, last, arrives, mem⟩
    obtain ⟨carried, answered, -⟩ := demultiplexed.blocks index blocks last arrives
    obtain ⟨answers, last, finished, -⟩ : ∃ answers, b.Carried loads index answers := by
      clear arrives
      induction answered with
      | nil => cases mem
      | cons first _ ih =>
          cases mem with
          | head => exact ⟨_, first⟩
          | tail _ mem => exact ih mem
    exact StreamedBlock.finish_ok_iff.mp ⟨last, finished⟩
  · intro parses
    have alone : ∀ index, ∃ ended, (ownEvent loads index).run none
        (lane StreamEvent.index? index events) = .ok ended := by
      intro index
      obtain ⟨blocks, last, arrives⟩ := wellFormed index
      rw [arrives]
      exact StreamedBlock.run_total fun b mem => parses b ⟨index, blocks, last, arrives, mem⟩
    obtain ⟨⟨st, answers⟩, ran⟩ := handleEvent_slotted.run_total (s := .initial) alone
    exact ⟨st, answers, ran, demultiplexed_of_run ran⟩

section Interleaved

/-- A text block and a `tool_use` block that arrive at once. -/
def interleaved : List StreamEvent :=
  [.contentBlockStart 0 (.other "text"), .contentBlockStart 1 (.toolUse "toolu_1" "bash"),
    .contentBlockDelta 1 (.inputJsonDelta "[1"), .contentBlockDelta 0 (.textDelta "Run"),
    .contentBlockDelta 1 (.inputJsonDelta "]"), .contentBlockStop 0, .contentBlockStop 1]

/-- `json.loads` on a list of one digit. -/
def loadsDigit (text : String) : Loaded :=
  if text = "[1]" then .value (.arr [.int 1]) else .jsonDecodeError

theorem interleaved_arrives (index : Int) :
    ∃ blocks last, Arrives interleaved index blocks last := by
  by_cases zero : index = 0
  · subst zero
    exact ⟨[⟨.other "text", [.textDelta "Run"]⟩], none, rfl⟩
  · by_cases one : index = 1
    · subst one
      exact ⟨[⟨.toolUse "toolu_1" "bash", [.inputJsonDelta "[1", .inputJsonDelta "]"]⟩], none,
        rfl⟩
    · refine ⟨[], none, ?_⟩
      simp [Arrives, lane, interleaved, StreamEvent.index?, Ne.symm zero, Ne.symm one]

theorem interleaved_demultiplexed : ∃ st answers,
    (handleEvent loadsDigit).run .initial interleaved = .ok (st, answers) ∧
      Demultiplexed loadsDigit interleaved answers := by
  refine (stream_demultiplexed_iff loadsDigit interleaved interleaved_arrives).mpr fun b _ => ?_
  have answered (buffer : String) (e : PyError) : loadsDigit buffer ≠ .raises e := by
    unfold loadsDigit
    split <;> exact fun raised => nomatch raised
  unfold StreamedBlock.Parses
  split
  · exact fun _ => answered _
  · trivial

end Interleaved

section Overlong

/-- Whether a run of more than 4300 digits begins here, with some before it. -/
def overlongFrom : Nat → List Char → Bool
  | run, [] => 4300 < run
  | run, c :: rest =>
      if c.isDigit then overlongFrom (run + 1) rest
      else if 4300 < run then true else overlongFrom 0 rest

theorem overlongFrom_replicate (run n : Nat) (rest : List Char) :
    overlongFrom run (List.replicate n '9' ++ rest) = overlongFrom (run + n) rest := by
  induction n generalizing run with
  | zero => rfl
  | succ n ih =>
      rw [List.replicate_succ, List.cons_append, overlongFrom, if_pos (by decide), ih]
      congr 1
      omega

/-- `json.loads` as far as its numbers: it refuses those of more than 4300 digits. -/
def loadsNumber (text : String) : Loaded :=
  if overlongFrom 0 text.toList then
    .raises ⟨"ValueError", "Exceeds the limit (4300 digits) for integer string conversion"⟩
  else .jsonDecodeError

/-- A tool's input with a number of `n` digits. -/
def countInput (n : Nat) : String :=
  .ofList (['\x7b', '"', 'n', '"', ':'] ++ (List.replicate n '9' ++ ['\x7d']))

theorem overlong_countInput {n : Nat} (long : 4300 < n) :
    overlongFrom 0 (countInput n).toList = true := by
  rw [countInput, String.toList_ofList]
  change overlongFrom 0 (List.replicate n '9' ++ ['\x7d']) = true
  rw [overlongFrom_replicate, Nat.zero_add]
  exact if_pos long

theorem strip_countInput (n : Nat) : strip (countInput n) ≠ "" := by
  have mem : '\x7d' ∈ (countInput n).toList := by
    rw [countInput, String.toList_ofList]
    exact List.mem_append_right _ (List.mem_append_right _ List.mem_cons_self)
  exact strip_ne_empty mem (by decide)

/-- A block whose input has a number of 4301 digits. -/
def overlongBlock : StreamedBlock :=
  ⟨.toolUse "toolu_1" "count", [.inputJsonDelta (countInput 4301)]⟩

theorem overlong_parses : ¬ overlongBlock.Parses loadsNumber := by
  intro parses
  have buffer : overlongBlock.buffer = countInput 4301 := String.empty_append
  apply parses
  · rw [buffer]
    exact strip_countInput 4301
  · rw [buffer, loadsNumber, if_pos (overlong_countInput (by omega))]

theorem overlong_arrives (index : Int) :
    ∃ blocks last, Arrives (overlongBlock.events 0) index blocks last := by
  by_cases zero : index = 0
  · subst zero
    exact ⟨[overlongBlock], none, rfl⟩
  · refine ⟨[], none, ?_⟩
    simp [Arrives, lane, overlongBlock, StreamedBlock.events, StreamedBlock.opening,
      StreamEvent.index?, Ne.symm zero]

/-- The number is valid JSON. `json.loads` raises a `ValueError` for it, and so does the stream. -/
theorem overlong_number_raises :
    (∀ index, ∃ blocks last, Arrives (overlongBlock.events 0) index blocks last) ∧
    ∀ st answers, (handleEvent loadsNumber).run .initial (overlongBlock.events 0) ≠
      .ok (st, answers) := by
  refine ⟨overlong_arrives, fun st answers ran => ?_⟩
  obtain ⟨carried, answered, -⟩ :=
    (demultiplexed_of_run ran).blocks 0 [overlongBlock] none rfl
  cases answered with
  | cons first _ =>
      obtain ⟨last, finished, -⟩ := first
      exact overlong_parses (StreamedBlock.finish_ok_iff.mp ⟨last, finished⟩)

end Overlong

end Streams

end Tename
