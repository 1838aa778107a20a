import Mathlib.Algebra.Order.Field.Rat
import Tename.Router.Anthropic

/-!
# The request of a completion

The provider sends the messages with the model, the sampling and the tools of the profile,
and marks the last block of the system prompt for the cache. What it has been asked for can be
read off the request again: `readRequest?` takes nothing but what the API accepts, and is the
inverse of `buildRequest` on the messages that the runtime makes.
-/

namespace Tename

inductive CachingStrategy where
  | explicitBreakpoints
  | automaticPrefix
  | explicitApi
  | none
  deriving DecidableEq

/-- A `CachingBreakpoint`, by what it comes after. -/
inductive CachingBreakpoint where
  | systemPrompt
  | compactionSummary
  deriving DecidableEq

structure CachingConfig where
  providerStrategy : CachingStrategy
  breakpoints : List CachingBreakpoint

/-- Sampling parameters, within the bounds that the loader checks. -/
structure Sampling where
  temperature : ℚ
  topP : ℚ
  maxTokens : Int
  temperature_bounds : 0 ≤ temperature ∧ temperature ≤ 2
  topP_bounds : 0 ≤ topP ∧ topP ≤ 1
  maxTokens_pos : 0 < maxTokens

/-- What a request is built from of a `RouterProfile`. -/
structure RequestProfile where
  modelId : String
  caching : CachingConfig
  sampling : Sampling

section Source

/-- `_apply_system_cache_control`. -/
def applySystemCacheControl (systemBlocks : List Payload) (caching : CachingConfig) :
    List Payload :=
  if caching.providerStrategy ≠ .explicitBreakpoints then systemBlocks
  else if .systemPrompt ∉ caching.breakpoints then systemBlocks
  else
    match systemBlocks.getLast? with
    | none => systemBlocks
    | some last =>
        systemBlocks.dropLast ++ [last.set "cache_control" (.obj [("type", .str "ephemeral")])]

/-- `_tool_to_anthropic`. -/
def toolToAnthropic (tool : ToolDef) : Payload :=
  [("name", .str tool.name), ("description", .str tool.description),
    ("input_schema", .obj tool.inputSchema)]

variable (float : ℚ → String) (str : Json → String)

/-- `AnthropicProvider._build_request`; `float` is the text of a float. -/
def buildRequest (profile : RequestProfile) (messages : List Message)
    (tools : Option (List ToolDef)) : Payload :=
  let (systemBlocks, anthropicMessages) := splitSystem str messages
  let systemBlocks := applySystemCacheControl systemBlocks profile.caching
  let request : Payload := [("model", .str profile.modelId),
    ("messages", .arr (anthropicMessages.map .obj)),
    ("max_tokens", .int profile.sampling.maxTokens)]
  let request := request ++
    -- `temperature` gives way to a `top_p` that restricts anything.
    if profile.sampling.topP < 1 then [("top_p", .float (float profile.sampling.topP))]
    else [("temperature", .float (float profile.sampling.temperature))]
  let request :=
    if systemBlocks.isEmpty then request
    else request ++ [("system", .arr (systemBlocks.map .obj))]
  match tools with
  | some (tool :: tools) =>
      request ++ [("tools", .arr ((tool :: tools).map fun tool => .obj (toolToAnthropic tool)))]
  | _ => request

end Source

/-- The one sampling parameter of a request. -/
inductive Knob where
  | temperature (value : String)
  | topP (value : String)

/-- What a request asks for. -/
structure Request where
  modelId : String
  maxTokens : Int
  knob : Knob
  system : List String
  /-- The system prompt is marked for the cache. -/
  cached : Bool
  messages : List Message
  tools : List ToolDef

section Reading

def Json.obj? : Json → Option Payload
  | .obj fields => some fields
  | _ => none

/-- Every item is an object that can be read. -/
def readAll? {α : Type} (read : Payload → Option α) (items : List Json) : Option (List α) :=
  items.mapM fun item => item.obj?.bind read

/-- The content of a result as it is read. -/
def readResult? : Json → Option ResultContent
  | .str said => some (.text said)
  | .arr items => some (.blocks items)
  | _ => none

/-- A block of a message of the role. Results are told by users only, and nothing else is told
by a user in blocks. -/
def readBlock? (role : Role) (block : Payload) : Option ContentBlock :=
  match role, (block.get? "type").bind Json.str? with
  | .assistant, some "text" => ((block.get? "text").bind Json.str?).map .text
  | .assistant, some "tool_use" => do
      let id ← (block.get? "id").bind Json.str?
      let name ← (block.get? "name").bind Json.str?
      let input ← (block.get? "input").bind Json.obj?
      return .toolUse id name input
  | .user, some "tool_result" => do
      let id ← (block.get? "tool_use_id").bind Json.str?
      let content ← (block.get? "content").bind readResult?
      return .toolResult id content (some ((block.getD "is_error" .null).truthy))
  | _, _ => none

/-- A message; its blocks, if it has any, are not empty. -/
def readMessage? (m : Payload) : Option Message :=
  match (m.get? "role").bind Json.str?, m.get? "content" with
  | some "user", some (.str said) => some ⟨.user, .text said⟩
  | some "user", some (.arr (item :: items)) =>
      (readAll? (readBlock? .user) (item :: items)).map fun results => ⟨.tool, .blocks results⟩
  | some "assistant", some (.arr (item :: items)) =>
      (readAll? (readBlock? .assistant) (item :: items)).map fun blocks =>
        ⟨.assistant, .blocks blocks⟩
  | _, _ => none

def readTool? (tool : Payload) : Option ToolDef := do
  let name ← (tool.get? "name").bind Json.str?
  let description ← (tool.get? "description").bind Json.str?
  let inputSchema ← (tool.get? "input_schema").bind Json.obj?
  return ⟨name, description, inputSchema⟩

/-- A text block, and whether it is marked for the cache. -/
def readSystemBlock? (block : Payload) : Option (String × Bool) :=
  if (block.get? "type").bind Json.str? = some "text" then
    ((block.get? "text").bind Json.str?).map fun text =>
      (text, (block.get? "cache_control").isSome)
  else none

/-- The system prompt; only its last block may be marked. -/
def readSystem? (blocks : List (String × Bool)) : Option (List String × Bool) :=
  if blocks.dropLast.any (·.2) then none
  else some (blocks.map (·.1), blocks.getLast?.any (·.2))

/-- `temperature` or `top_p`, and not both. -/
def readKnob? (request : Payload) : Option Knob :=
  match request.get? "temperature", request.get? "top_p" with
  | some (.float value), none => some (.temperature value)
  | none, some (.float value) => some (.topP value)
  | _, _ => none

/-- The items of a list that is left out if it is empty. -/
def readItems? (request : Payload) (key : String) : Option (List Json) :=
  match request.get? key with
  | none => some []
  | some (.arr (item :: items)) => some (item :: items)
  | _ => none

/-- What a request asks for, if it is one that the API accepts. -/
def readRequest? (request : Payload) : Option Request := do
  let modelId ← (request.get? "model").bind Json.str?
  let maxTokens ← (request.get? "max_tokens").bind Json.int?
  let knob ← readKnob? request
  let systemItems ← readItems? request "system"
  let systemBlocks ← readAll? readSystemBlock? systemItems
  let (system, cached) ← readSystem? systemBlocks
  let items ← readItems? request "messages"
  let messages ← readAll? readMessage? items
  if messages.isEmpty then none
  let toolItems ← readItems? request "tools"
  let tools ← readAll? readTool? toolItems
  return ⟨modelId, maxTokens, knob, system, cached, messages, tools⟩

section RoundTrip

/-- A part of an assistant's message. -/
inductive ContentBlock.Spoken : ContentBlock → Prop
  | text (said : String) : Spoken (.text said)
  | toolUse (id name : String) (input : Payload) : Spoken (.toolUse id name input)

/-- A result whose content and flag are stored as such. -/
inductive ContentBlock.Reported : ContentBlock → Prop
  | text (id said : String) (isError : Bool) : Reported (.toolResult id (.text said) (some isError))
  | blocks (id : String) (items : List Json) (isError : Bool) :
      Reported (.toolResult id (.blocks items) (some isError))

/-- A message of the kinds that the runtime makes. -/
inductive Message.Readable : Message → Prop
  | system (said : String) : Readable ⟨.system, .text said⟩
  | user (said : String) : Readable ⟨.user, .text said⟩
  | assistant {blocks : List ContentBlock} (some' : blocks ≠ [])
      (spoken : ∀ block ∈ blocks, block.Spoken) : Readable ⟨.assistant, .blocks blocks⟩
  | tool {results : List ContentBlock} (some' : results ≠ [])
      (reported : ∀ result ∈ results, result.Reported) : Readable ⟨.tool, .blocks results⟩

variable {float : ℚ → String} {str : Json → String}

theorem readAll?_map {α β : Type} {read : Payload → Option α} {write : β → Payload} {f : β → α}
    {items : List β} (reads : ∀ item ∈ items, read (write item) = some (f item)) :
    readAll? read (items.map fun item => .obj (write item)) = some (items.map f) := by
  induction items with
  | nil => rfl
  | cons item items ih =>
      have rest := ih fun item mem => reads item (List.mem_cons_of_mem _ mem)
      rw [readAll?] at rest ⊢
      rw [List.map_cons, List.mapM_cons, Json.obj?, Option.bind_some,
        reads item List.mem_cons_self, rest]
      rfl

theorem readBlock?_spoken {block : ContentBlock} (spoken : block.Spoken) :
    readBlock? .assistant (block.toAnthropic str) = some block := by
  cases spoken <;> rfl

theorem readBlock?_reported {block : ContentBlock} (reported : block.Reported) :
    readBlock? .user (block.toAnthropic str) = some block := by
  cases reported with
  | text id said isError => cases isError <;> rfl
  | blocks id items isError => cases isError <;> rfl

theorem readMessage?_toAnthropic {m : Message} (readable : m.Readable) (other : m.role ≠ .system) :
    readMessage? (m.toAnthropic str) = some m := by
  cases readable with
  | system said => exact absurd rfl other
  | user said => rfl
  | @assistant blocks some' spoken =>
      have each : ∀ block ∈ blocks, readBlock? .assistant (block.toAnthropic str) = some block :=
        fun block mem => readBlock?_spoken (spoken block mem)
      have read := readAll?_map each
      obtain ⟨block, blocks, rfl⟩ := List.exists_cons_of_ne_nil some'
      change Option.map _ (readAll? _
        ((block :: blocks).map fun block => .obj (block.toAnthropic str))) = _
      rw [read, List.map_id', Option.map_some]
  | @tool results some' reported =>
      have each : ∀ result ∈ results, readBlock? .user (result.toAnthropic str) = some result :=
        fun result mem => readBlock?_reported (reported result mem)
      have read := readAll?_map each
      obtain ⟨result, results, rfl⟩ := List.exists_cons_of_ne_nil some'
      change Option.map _ (readAll? _
        ((result :: results).map fun block => .obj (block.toAnthropic str))) = _
      rw [read, List.map_id', Option.map_some]

theorem readTool?_toAnthropic (tool : ToolDef) : readTool? (toolToAnthropic tool) = some tool :=
  rfl

/-- The system prompts among the messages. -/
def prompts (messages : List Message) : List String :=
  messages.filterMap fun m =>
    match m.role, m.content with
    | .system, .text said => some said
    | _, _ => none

/-- The strategy asks for a mark after the system prompt. -/
def CachingConfig.marks (caching : CachingConfig) : Bool :=
  caching.providerStrategy = .explicitBreakpoints ∧ .systemPrompt ∈ caching.breakpoints

/-- A text block of the system prompt, marked or not. -/
def systemBlock (block : String × Bool) : Payload :=
  if block.2 then
    (textBlock block.1).set "cache_control" (.obj [("type", .str "ephemeral")])
  else textBlock block.1

theorem readSystemBlock?_systemBlock (block : String × Bool) :
    readSystemBlock? (systemBlock block) = some block := by
  obtain ⟨text, cached⟩ := block
  cases cached <;> rfl

/-- The blocks of the system prompt, the last one marked if the strategy asks for it. -/
theorem systemBlocks_eq {messages : List Message} (readable : ∀ m ∈ messages, m.Readable) :
    (messages.filter (·.role = .system)).flatMap (fun m => toTextBlocks m.content) =
      (prompts messages).map textBlock := by
  induction messages with
  | nil => rfl
  | cons m messages ih =>
      have rest := ih fun m mem => readable m (List.mem_cons_of_mem _ mem)
      have first := readable m List.mem_cons_self
      cases first with
      | system said =>
          rw [List.filter_cons_of_pos (by simp), List.flatMap_cons, rest]
          rfl
      | _ =>
          rw [List.filter_cons_of_neg (by simp), rest]
          rfl

theorem readSystem?_snoc (init : List String) (last : String) (cached : Bool) :
    readSystem? (init.map (·, false) ++ [(last, cached)]) = some (init ++ [last], cached) := by
  simp [readSystem?, Function.comp_def]

/-- A mark goes to the last block. -/
theorem applySystemCacheControl_snoc (init : List String) (last : String)
    (caching : CachingConfig) :
    applySystemCacheControl ((init ++ [last]).map textBlock) caching =
      (init.map (·, false) ++ [(last, caching.marks)]).map systemBlock := by
  by_cases marks : caching.marks = true
  · obtain ⟨strategy, breakpoint⟩ := by simpa [CachingConfig.marks] using marks
    rw [applySystemCacheControl, if_neg (not_not_intro strategy),
      if_neg (not_not_intro breakpoint)]
    simp [systemBlock, marks]
  · have unmarked : (init ++ [last]).map textBlock =
        (init.map (·, false) ++ [(last, caching.marks)]).map systemBlock := by
      simp [systemBlock, marks]
    rw [← unmarked, applySystemCacheControl]
    split
    · rfl
    · rename_i strategy
      rw [if_pos]
      simpa [CachingConfig.marks, not_not.mp strategy] using marks

/-- The blocks of the system prompt are read as they were written. -/
theorem readSystem?_written (texts : List String) (caching : CachingConfig) :
    ∃ blocks, applySystemCacheControl (texts.map textBlock) caching = blocks.map systemBlock ∧
      blocks.isEmpty = texts.isEmpty ∧
      readSystem? blocks = some (texts, caching.marks && !texts.isEmpty) := by
  rcases List.eq_nil_or_concat texts with rfl | ⟨init, last, rfl⟩
  · exact ⟨[], by simp [applySystemCacheControl], rfl, by simp [readSystem?]⟩
  · rw [List.concat_eq_append]
    refine ⟨init.map (·, false) ++ [(last, caching.marks)],
      applySystemCacheControl_snoc init last caching, ?_, ?_⟩
    · cases init <;> rfl
    · rw [readSystem?_snoc]
      simp

/-- A list that is left out if it is empty. -/
def itemsField (key : String) (items : List Json) : Payload :=
  if items.isEmpty then [] else [(key, .arr items)]

theorem get?_itemsField (key key' : String) (items : List Json) :
    (itemsField key items).get? key' =
      if key = key' ∧ items ≠ [] then some (.arr items) else none := by
  cases items with
  | nil => simp [itemsField, Payload.get?]
  | cons item items =>
      by_cases same : key = key'
      · simp [itemsField, Payload.get?_cons, same]
      · rw [if_neg fun h => same h.1]
        exact (Payload.get?_cons _ _ _).trans (if_neg same)

theorem readItems?_of_get? {request : Payload} {key : String} {items : List Json}
    (written : request.get? key = if items ≠ [] then some (.arr items) else none) :
    readItems? request key = some items := by
  rw [readItems?, written]
  cases items <;> rfl

/-- The sampling parameter that is sent. -/
def Sampling.knob (float : ℚ → String) (sampling : Sampling) : Knob :=
  if sampling.topP < 1 then .topP (float sampling.topP)
  else .temperature (float sampling.temperature)

def Knob.field : Knob → String × Json
  | .temperature value => ("temperature", .float value)
  | .topP value => ("top_p", .float value)

/-- A request by its parts. -/
def requestOf (modelId : String) (maxTokens : Int) (knob : Knob)
    (system messages tools : List Json) : Payload :=
  [("model", .str modelId), ("messages", .arr messages), ("max_tokens", .int maxTokens),
    knob.field] ++ itemsField "system" system ++ itemsField "tools" tools

theorem get?_requestOf {modelId : String} {maxTokens : Int} {knob : Knob}
    {system messages tools : List Json} (key : String) :
    (requestOf modelId maxTokens knob system messages tools).get? key =
      ((Payload.get? [("model", .str modelId), ("messages", .arr messages),
        ("max_tokens", .int maxTokens), knob.field] key).or
        (if "system" = key ∧ system ≠ [] then some (.arr system) else none)).or
        (if "tools" = key ∧ tools ≠ [] then some (.arr tools) else none) := by
  rw [requestOf, Payload.get?_append, Payload.get?_append, get?_itemsField, get?_itemsField]

theorem buildRequest_eq (profile : RequestProfile) (messages : List Message)
    (tools : Option (List ToolDef)) :
    buildRequest float str profile messages tools =
      requestOf profile.modelId profile.sampling.maxTokens (profile.sampling.knob float)
        ((applySystemCacheControl (splitSystem str messages).1 profile.caching).map .obj)
        ((splitSystem str messages).2.map .obj)
        ((tools.getD []).map fun tool => .obj (toolToAnthropic tool)) := by
  have knob : (if profile.sampling.topP < 1 then
      [("top_p", Json.float (float profile.sampling.topP))]
      else [("temperature", Json.float (float profile.sampling.temperature))]) =
      [(profile.sampling.knob float).field] := by
    unfold Sampling.knob
    split <;> rfl
  simp only [buildRequest, knob]
  generalize applySystemCacheControl (splitSystem str messages).1 profile.caching = blocks
  cases blocks with
  | nil =>
      cases tools with
      | none => simp [requestOf, itemsField]
      | some tools => cases tools <;> simp [requestOf, itemsField]
  | cons block blocks =>
      cases tools with
      | none => simp [requestOf, itemsField]
      | some tools => cases tools <;> simp [requestOf, itemsField]

/-- What the provider is asked for. -/
def requestFor (float : ℚ → String) (profile : RequestProfile) (messages : List Message)
    (tools : Option (List ToolDef)) : Request where
  modelId := profile.modelId
  maxTokens := profile.sampling.maxTokens
  knob := profile.sampling.knob float
  system := prompts messages
  cached := profile.caching.marks && !(prompts messages).isEmpty
  messages := messages.filter (·.role ≠ .system)
  tools := tools.getD []

theorem readKnob?_requestOf {modelId : String} {maxTokens : Int} {knob : Knob}
    {system messages tools : List Json} :
    readKnob? (requestOf modelId maxTokens knob system messages tools) = some knob := by
  rw [readKnob?, get?_requestOf, get?_requestOf]
  cases knob <;> rfl

/-- The parts of a request are read each on its own. -/
theorem readRequest?_requestOf {modelId : String} {maxTokens : Int} {knob : Knob}
    {system items tools : List Json} {blocks : List (String × Bool)} {texts : List String}
    {cached : Bool} {messages : List Message} {toolDefs : List ToolDef}
    (blocksRead : readAll? readSystemBlock? system = some blocks)
    (systemRead : readSystem? blocks = some (texts, cached))
    (messagesRead : readAll? readMessage? items = some messages) (spoken : messages ≠ [])
    (toolsRead : readAll? readTool? tools = some toolDefs) :
    readRequest? (requestOf modelId maxTokens knob system items tools) =
      some ⟨modelId, maxTokens, knob, texts, cached, messages, toolDefs⟩ := by
  let request := requestOf modelId maxTokens knob system items tools
  have unset (key : String) (other : Payload.get? [("model", .str modelId),
      ("messages", .arr items), ("max_tokens", .int maxTokens), knob.field] key = none) :
      request.get? key = (if "system" = key ∧ system ≠ [] then some (.arr system) else none).or
        (if "tools" = key ∧ tools ≠ [] then some (.arr tools) else none) := by
    rw [get?_requestOf, other, Option.none_or]
  have systemItems : readItems? request "system" = some system := by
    refine readItems?_of_get? ?_
    rw [unset _ (by cases knob <;> rfl)]
    simp
  have some' : items ≠ [] := by
    rintro rfl
    exact spoken (Option.some.inj messagesRead).symm
  have messageItems : readItems? request "messages" = some items := by
    refine readItems?_of_get? ?_
    rw [get?_requestOf, if_pos some']
    rfl
  have toolItems : readItems? request "tools" = some tools := by
    refine readItems?_of_get? ?_
    rw [unset _ (by cases knob <;> rfl)]
    simp
  have model : (request.get? "model").bind Json.str? = some modelId := by
    rw [get?_requestOf]
    rfl
  have tokens : (request.get? "max_tokens").bind Json.int? = some maxTokens := by
    rw [get?_requestOf]
    rfl
  have knobRead : readKnob? request = some knob := readKnob?_requestOf
  change readRequest? request = _
  simp [readRequest?, model, tokens, knobRead, systemItems, blocksRead, systemRead, messageItems,
    messagesRead, toolItems, toolsRead, spoken]

/-- A request is read as it was asked for. -/
theorem readRequest?_buildRequest {profile : RequestProfile} {messages : List Message}
    {tools : Option (List ToolDef)} (readable : ∀ m ∈ messages, m.Readable)
    (speaks : ∃ m ∈ messages, m.role ≠ .system) :
    readRequest? (buildRequest float str profile messages tools) =
      some (requestFor float profile messages tools) := by
  obtain ⟨blocks, marked, length, system⟩ :=
    readSystem?_written (prompts messages) profile.caching
  have parts : splitSystem str messages = ((prompts messages).map textBlock,
      (messages.filter (·.role ≠ .system)).map (Message.toAnthropic str)) := by
    rw [splitSystem, List.partition_eq_filter_filter, ← systemBlocks_eq readable]
    simp [Function.comp_def]
  have spoken : messages.filter (·.role ≠ .system) ≠ [] := by
    obtain ⟨m, mem, other⟩ := speaks
    exact List.ne_nil_of_mem (List.mem_filter.mpr ⟨mem, by simpa using other⟩)
  have messagesRead : readAll? readMessage? (((messages.filter (·.role ≠ .system)).map
      (Message.toAnthropic str)).map .obj) = some (messages.filter (·.role ≠ .system)) := by
    rw [List.map_map]
    refine (readAll?_map fun m mem => ?_).trans (congrArg some (List.map_id _))
    obtain ⟨mem, other⟩ := List.mem_filter.mp mem
    exact readMessage?_toAnthropic (readable m mem) (by simpa using other)
  have systemRead :
      readAll? readSystemBlock? ((blocks.map systemBlock).map .obj) = some blocks := by
    rw [List.map_map]
    exact (readAll?_map fun block _ => readSystemBlock?_systemBlock block).trans
      (congrArg some (List.map_id _))
  have toolsRead :
      readAll? readTool? ((tools.getD []).map fun tool => .obj (toolToAnthropic tool)) =
      some (tools.getD []) :=
    (readAll?_map fun tool _ => readTool?_toAnthropic tool).trans (congrArg some (List.map_id _))
  rw [buildRequest_eq, parts, marked]
  exact readRequest?_requestOf systemRead system messagesRead spoken toolsRead

end RoundTrip

end Reading

end Tename
