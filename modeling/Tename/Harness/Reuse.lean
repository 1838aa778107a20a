import Tename.Harness.ToolResults
import Tename.Program.Recording

/-!
# Which sandbox a tool call runs in

The runtime is stateless: between two tool calls it knows of a sandbox only what the
log tells it, in the one page of the log that it reads. The runtime is recorded here
with a memory that the code does not have, of the sandbox that the latest tool call
ran in and of what has been performed since. `Serves` says what is performed for a
call before its tool runs.
-/

namespace Tename

/-- The sandbox an operation is given. -/
def given (x : Performed) : Option String :=
  match x with
  | ⟨.sandboxProvision _, _, .ok id⟩ => some id
  | _ => none

/-- The sandbox an operation is given or runs a tool in. -/
def occupies (x : Performed) : Option String :=
  match x with
  | ⟨.sandboxExecute id _ _, _, _⟩ => some id
  | x => given x

theorem occupies_of_given {x : Performed} {id : String} (provisioned : given x = some id) :
    occupies x = some id := by
  obtain ⟨o, answer, r⟩ := x
  cases o <;> first | exact provisioned | cases provisioned

/-- The page an operation has read. -/
def pageOf (x : Performed) : Option (List Event) :=
  match x with
  | ⟨.getEvents, _, .ok page⟩ => some page
  | _ => none

/-- The operations that look for a sandbox or run a tool in it. -/
def Op.seeks : Op → Bool
  | .sandboxStatus _ | .sandboxProvision _ | .sandboxExecute .. => true
  | _ => false

/-- The append of an event, other than the record of a new sandbox. -/
def Op.closes : Op → Bool
  | .emitEvent (.sandboxProvisioned _ _) _ _ => false
  | .emitEvent .. => true
  | _ => false

structure CallMemory where
  /-- The sandbox of the latest tool call before those of `mine`. -/
  previous : Option String
  /-- What has been performed since the latest event. -/
  mine : List Performed

namespace CallMemory

/-- The sandbox that was used, or provisioned, last. -/
def latest (m : CallMemory) : Option String :=
  (m.mine.reverse.findSome? occupies).or m.previous

/-- The page that was read last. -/
def page (m : CallMemory) : Option (List Event) :=
  m.mine.reverse.findSome? pageOf

/-- The sandbox that is about to be recorded. -/
def provisioning (m : CallMemory) : Option String :=
  match m.mine.reverse with
  | [] => none
  | x :: before =>
      match x.op with
      | .addProvisioned _ => before.head?.bind given
      | _ => given x

def note (m : CallMemory) (x : Performed) : CallMemory :=
  if x.op.closes then ⟨m.latest, []⟩ else ⟨m.previous, m.mine ++ [x]⟩

/-- A new process goes on with the sandbox of the session's latest tool call. -/
def restart (m : CallMemory) : CallMemory := ⟨m.latest, []⟩

variable {m : CallMemory} {x : Performed}

theorem note_of_closes (closes : x.op.closes = true) : m.note x = ⟨m.latest, []⟩ := if_pos closes

theorem note_of_not_closes (goesOn : x.op.closes = false) :
    m.note x = ⟨m.previous, m.mine ++ [x]⟩ :=
  if_neg (Bool.eq_false_iff.mp goesOn)

theorem occupies_of_closes (closes : x.op.closes = true) : occupies x = none := by
  obtain ⟨o, answer, r⟩ := x
  cases o <;> first | rfl | cases closes

theorem latest_note (m : CallMemory) (x : Performed) :
    (m.note x).latest = (occupies x).or m.latest := by
  cases closes : x.op.closes with
  | true =>
      rw [note_of_closes closes, occupies_of_closes closes]
      rfl
  | false =>
      rw [note_of_not_closes closes]
      simp only [latest, List.reverse_append, List.reverse_singleton, List.singleton_append,
        List.findSome?_cons]
      cases occupies x <;> rfl

theorem provisioning_note (goesOn : x.op.closes = false) : (m.note x).provisioning =
    match x.op with
    | .addProvisioned _ => m.mine.getLast?.bind given
    | _ => given x := by
  rw [note_of_not_closes goesOn]
  simp only [provisioning, List.reverse_append, List.reverse_singleton, List.singleton_append,
    List.head?_reverse]

/-- The sandbox that is about to be recorded is the latest one. -/
theorem latest_of_provisioning {id : String} (waiting : m.provisioning = some id) :
    m.latest = some id := by
  unfold CallMemory.provisioning at waiting
  unfold CallMemory.latest
  split at waiting
  · cases waiting
  · rename_i x before reversed
    rw [reversed]
    split at waiting
    · rename_i added
      have unoccupied : occupies x = none := by
        obtain ⟨o, answer, r⟩ := x
        obtain rfl : o = _ := added
        rfl
      cases before with
      | nil => cases waiting
      | cons y before =>
          simp only [List.findSome?_cons, unoccupied, occupies_of_given waiting]
          rfl
    · simp only [List.findSome?_cons, occupies_of_given waiting]
      rfl

theorem page_note (goesOn : x.op.closes = false) : (m.note x).page = (pageOf x).or m.page := by
  rw [note_of_not_closes goesOn]
  simp only [page, List.reverse_append, List.reverse_singleton, List.singleton_append,
    List.findSome?_cons]
  cases pageOf x <;> rfl

/-- Nothing has been performed since the latest event. -/
def Idle (m : CallMemory) : Prop := m.mine = []

/-- No sandbox has been looked for since the latest event. -/
def Rests (m : CallMemory) : Prop := ∀ x ∈ m.mine, x.op.seeks = false

theorem Idle.rests (h : m.Idle) : m.Rests := by
  intro x mem
  rw [h] at mem
  cases mem

theorem idle_note (closes : x.op.closes = true) : (m.note x).Idle := by
  rw [note_of_closes closes]
  rfl

theorem given_of_not_seeks (other : x.op.seeks = false) : given x = none := by
  obtain ⟨o, answer, r⟩ := x
  cases o <;> first | rfl | cases other

theorem occupies_of_not_seeks (other : x.op.seeks = false) : occupies x = none := by
  obtain ⟨o, answer, r⟩ := x
  cases o <;> first | rfl | cases other

theorem Rests.note (h : m.Rests) (other : x.op.seeks = false) : (m.note x).Rests := by
  cases closes : x.op.closes with
  | true => exact (idle_note closes).rests
  | false =>
      rw [note_of_not_closes closes]
      intro y mem
      rcases List.mem_append.mp mem with old | new
      · exact h y old
      · rw [List.mem_singleton.mp new]
        exact other

theorem Rests.provisioning (h : m.Rests) : m.provisioning = none := by
  unfold CallMemory.provisioning
  split
  · rfl
  · rename_i x before reversed
    have unsought : ∀ y ∈ x :: before, given y = none := by
      intro y mem
      rw [← reversed] at mem
      exact given_of_not_seeks (h y (List.mem_reverse.mp mem))
    split
    · cases before with
      | nil => rfl
      | cons y before => exact unsought y (.tail _ (.head _))
    · exact unsought x (.head _)

theorem Rests.latest (h : m.Rests) : m.latest = m.previous := by
  have unoccupied : m.mine.reverse.findSome? occupies = none :=
    List.findSome?_eq_none_iff.mpr fun x mem =>
      occupies_of_not_seeks (h x (List.mem_reverse.mp mem))
  rw [CallMemory.latest, unoccupied]
  rfl

end CallMemory

/-- The runtime with a memory of its sandboxes. -/
def reuseProcess (rt : Runtime) (agents : AgentId → Option Agent) (sid : SessionId) :
    Process Op Op.Res Exn (World × CallMemory) Answer ClientAction :=
  (runtimeProcess rt agents sid).recording CallMemory.note CallMemory.restart

abbrev ReuseConfig := Process.Config Op Op.Res Exn (World × CallMemory)

/-- All histories of a new session, recorded. -/
def reuseSystem (rt : Runtime) (agents : AgentId → Option Agent) (sid : SessionId)
    (agentId : AgentId) : Transition.System ReuseConfig RunAction :=
  (reuseProcess rt agents sid).system fun s => s.1 = .create sid agentId ∧ s.2 = ⟨none, []⟩

/-- A page has been read and there is no sandbox to go on with: none was known, or the one
that was known is not alive. -/
inductive NoSandbox (page : List Event) : Option String → List Performed → Prop
  | nobody {a : Answer} : NoSandbox page none [⟨.getEvents, a, .ok page⟩]
  | gone {a a' : Answer} {old : String} {status : SandboxStatus} (gone : status.live = false) :
      NoSandbox page (some old) [⟨.getEvents, a, .ok page⟩, ⟨.sandboxStatus old, a', .ok status⟩]

/-- What is performed for a call that finds the sandbox `previous`, before its tool runs in
`id`: either that sandbox is reported alive, and nothing is provisioned; or one sandbox is
provisioned and recorded. -/
inductive Serves (sid : SessionId) (page : List Event) :
    Option String → List Performed → String → Prop
  | reused {a a' a'' : Answer} {id : String} {status : SandboxStatus} (live : status.live = true) :
      Serves sid page (some id) [⟨.getEvents, a, .ok page⟩, ⟨.sandboxStatus id, a', .ok status⟩,
        ⟨.addProvisioned id, a'', .ok ()⟩] id
  | renewed {previous : Option String} {found : List Performed} {recipe : SandboxRecipe}
      {a a' a'' : Answer} {id : String} {e : Event} (asked : NoSandbox page previous found) :
      Serves sid page previous (found ++ [⟨.sandboxProvision recipe, a, .ok id⟩,
        ⟨.addProvisioned id, a', .ok ()⟩, ⟨.emitEvent (.sandboxProvisioned sid id) .systemEvent
          (provisionedPayload id recipe.runtime), a'', .ok e⟩]) id

/-- The tool of the call has run. -/
def Ran (sid : SessionId) (page : List Event) (previous : Option String) (mine : List Performed) :
    Prop :=
  ∃ served x id r, mine = served ++ [x] ∧ executions x = some (id, r) ∧
    Serves sid page previous served id

/-- Nothing but a tool has raised. -/
def Undisturbed (mine : List Performed) : Prop :=
  ∀ x ∈ mine, raised x = none ∨ (executions x).isSome

/-- The result of a call of a sandbox tool. -/
def FromSandbox (rt : Runtime) (payload : Payload) : Prop :=
  rt.sandbox = true ∧ ∃ name ∈ builtinToolNames, payload.get? "tool_name" = some (.str name)

/-- The recipes of the agents are valid. -/
def ValidRecipes (rt : Runtime) (agents : AgentId → Option Agent) : Prop :=
  ∀ id agent, agents id = some agent → recipeError rt agent = none

section Latest

/-- The sandbox an event records. -/
def recordOf (type : EventType) (payload : Payload) : Option String :=
  if type = .systemEvent ∧ (payload.get? "type").bind Json.str? = some "sandbox_provisioned" then
    ((payload.get? "sandbox_id").bind Json.str?).filter (· ≠ "")
  else none

theorem latestSandboxId_append (events : List Event) (e : Event) :
    latestSandboxId (events ++ [e]) = (recordOf e.type e.payload).or (latestSandboxId events) := by
  simp only [latestSandboxId, List.reverse_append, List.reverse_singleton, List.singleton_append,
    List.findSome?_cons]
  cases recorded : recordOf e.type e.payload with
  | none =>
      have skipped : (if e.type = .systemEvent ∧
          (e.payload.get? "type").bind Json.str? = some "sandbox_provisioned" then
          ((e.payload.get? "sandbox_id").bind Json.str?).filter (· ≠ "") else none) = none :=
        recorded
      rw [skipped]
      rfl
  | some id =>
      have found : (if e.type = .systemEvent ∧
          (e.payload.get? "type").bind Json.str? = some "sandbox_provisioned" then
          ((e.payload.get? "sandbox_id").bind Json.str?).filter (· ≠ "") else none) = some id :=
        recorded
      rw [found]
      rfl

theorem recordOf_provisioned {id runtime : String} (named : id ≠ "") :
    recordOf .systemEvent (provisionedPayload id runtime) = some id := by
  have read : recordOf .systemEvent (provisionedPayload id runtime) =
      (some id).filter (· ≠ "") := rfl
  rw [read, Option.filter_some, if_pos (by simpa using named)]

theorem recordOf_of_ne {type : EventType} (payload : Payload) (other : type ≠ .systemEvent) :
    recordOf type payload = none :=
  if_neg fun both => other both.1

end Latest

section Watching

variable (rt : Runtime) (agents : AgentId → Option Agent) (sid : SessionId)

/-- What the program may ask for, by what it has performed since the latest event. -/
def Permits (m : CallMemory) : Op → Prop
  | .addProvisioned _ => m.provisioning = m.mine.getLast?.bind given
  | .getEvents => ∀ x ∈ m.mine, x.op.seeks = false
  | .sandboxStatus id => ∃ page a, m.mine = [⟨.getEvents, a, .ok page⟩] ∧
      latestSandboxId page = some id
  | .sandboxProvision _ => ∃ page, NoSandbox page (latestSandboxId page) m.mine
  | .sandboxExecute id _ _ => m.provisioning = none ∧
      ∃ page, Serves sid page (latestSandboxId page) m.mine id
  | .emitEvent (.sandboxProvisioned s id) type payload => m.provisioning = some id ∧ s = sid ∧
      type = .systemEvent ∧ ∃ runtime, payload = provisionedPayload id runtime
  | .emitEvent _ type payload => m.provisioning = none ∧ recordOf type payload = none ∧
      (type = .toolResult → ValidRecipes rt agents → FromSandbox rt payload →
        Undisturbed m.mine → ∃ page, Ran sid page (latestSandboxId page) m.mine)
  | _ => m.provisioning = none

def reuseMonitor : Monitor (reuseProcess rt agents sid) Unit where
  permits s _ o := Permits rt agents sid s.2 o
  moves _ _ _ _ _ _ := True
  begun := ()
  stopped := ()

/-- The program asks only for what is permitted. It returns in `A` and raises in `E`. -/
def Keeps {α : Type} (A : α → CallMemory → Prop) (E : CallMemory → Prop) (p : Harness α)
    (m : CallMemory) : Prop :=
  ∀ w, (reuseMonitor rt agents sid).Safe
    (Monitor.Ends (fun a s _ => A a s.2) fun s _ => E s.2) p (w, m) ()

variable {rt agents sid} {α β : Type} {A : α → CallMemory → Prop} {B : β → CallMemory → Prop}
variable {E : CallMemory → Prop} {m : CallMemory}

theorem Keeps.pure {a : α} (h : A a m) : Keeps rt agents sid A E (.pure a) m :=
  fun _ => h

theorem Keeps.throw {e : Exn} (h : E m) : Keeps rt agents sid A E (.throw e) m :=
  fun _ => h

theorem Keeps.seq {p : Harness α} {f : α → Harness β} (first : Keeps rt agents sid A E p m)
    (second : ∀ a m, A a m → Keeps rt agents sid B E (f a) m) :
    Keeps rt agents sid B E (p.bind f) m :=
  fun w => (first w).seq fun a s _ holds => second a s.2 holds s.1

theorem Keeps.mono {A' : α → CallMemory → Prop} {E' : CallMemory → Prop} {p : Harness α}
    (h : Keeps rt agents sid A E p m) (returns : ∀ a m, A a m → A' a m)
    (raises : ∀ m, E m → E' m) : Keeps rt agents sid A' E' p m := by
  intro w
  refine (h w).mono ?_
  rintro (e | a) s g holds
  · exact raises s.2 holds
  · exact returns a s.2 holds

theorem Keeps.settle {r : Except Exn α} (ok : ∀ a, r = .ok a → A a m)
    (error : ∀ e, r = .error e → E m) : Keeps rt agents sid A E (Program.settle r) m :=
  fun _ => Monitor.Safe.settle ok error

theorem Keeps.catch {F : CallMemory → Prop} {p : Harness α} (h : Keeps rt agents sid A E p m) :
    Keeps rt agents sid (fun r m => match r with
      | .ok a => A a m
      | .error _ => E m) F p.attempt m := by
  intro w
  refine (Monitor.Safe.catch (F := fun s _ => F s.2) (h w)).mono ?_
  rintro (e | e | a) s g holds <;> exact holds

theorem Keeps.perform {o : Op} {A : o.Res → CallMemory → Prop}
    (permitted : Permits rt agents sid m o)
    (next : ∀ w answer w' r, World.perform agents w o answer = some (w', r) →
      match r with
      | .ok a => A a (m.note ⟨o, answer, .ok a⟩)
      | .error e => E (m.note ⟨o, answer, .error e⟩)) :
    Keeps rt agents sid A E (Program.perform o) m := by
  intro w
  refine Monitor.Safe.perform ?_ ?_
  · intro s acts
    have kept := (Process.interferes_recording acts).2
    change Permits rt agents sid s.2 o
    rw [kept]
    exact permitted
  · intro s answer s' r acts performed
    have kept := (Process.interferes_recording acts).2
    obtain ⟨performed, noted⟩ := Process.recording_perform.mp performed
    refine ⟨(), trivial, ?_⟩
    have after := next s.1 answer s'.1 r performed
    cases r with
    | ok a =>
        change A a s'.2
        rw [noted, kept]
        exact after
    | error e =>
        change E s'.2
        rw [noted, kept]
        exact after

theorem Keeps.forEach {body : β → Harness Unit} {I : List β → CallMemory → Prop}
    (step : ∀ x xs m, I (x :: xs) m → Keeps rt agents sid (fun _ => I xs) E (body x) m)
    (xs : List β) (start : I xs m) :
    Keeps rt agents sid (fun _ => I []) E (Program.forEach xs body) m := by
  induction xs generalizing m with
  | nil => exact .pure start
  | cons x xs ih => exact .seq (step x xs m start) fun _ m holds => ih holds

/-- The cleanup keeps what holds on both ways out of the body. -/
theorem Keeps.tryFinally {body : Harness α} {cleanup : Harness Unit}
    (first : Keeps rt agents sid (fun _ => E) E body m)
    (cleaned : ∀ m, E m → Keeps rt agents sid (fun _ => E) E cleanup m) :
    Keeps rt agents sid (fun _ => E) E (body.tryFinally cleanup) m := by
  refine .seq (A := fun _ => E) ?_ fun outcome m holds => ?_
  · refine first.catch.mono ?_ fun _ holds => holds
    rintro (e | a) m holds <;> exact holds
  · refine .seq (cleaned m holds) fun _ m holds => ?_
    exact .settle (fun _ _ => holds) fun _ _ => holds

end Watching

section Functions

variable {rt : Runtime} {agents : AgentId → Option Agent} {sid : SessionId} {agent : Agent}
variable {m : CallMemory} {α : Type} {A : α → CallMemory → Prop}

/-- No new sandbox waits for its record: what holds wherever the program is left. -/
def Calm (m : CallMemory) : Prop := m.provisioning = none

/-- The operations that may be asked for between two tool calls. -/
def Op.plain : Op → Bool
  | .wake | .getAgent _ | .getEvents | .markComplete | .monotonic | .uuid4 | .complete ..
  | .sandboxDestroy _ | .proxyExecute .. | .provisionedIds => true
  | _ => false

theorem permits_plain {o : Op} (rests : m.Rests) (plain : o.plain = true) :
    Permits rt agents sid m o := by
  cases o with
  | getEvents => exact rests
  | emitEvent | sandboxStatus | sandboxProvision | sandboxExecute | addProvisioned => cases plain
  | _ => exact rests.provisioning

theorem seeks_of_plain {o : Op} (plain : o.plain = true) : o.seeks = false := by
  cases o <;> first | rfl | cases plain

theorem keeps_plain {o : Op} (rests : m.Rests) (plain : o.plain = true) :
    Keeps rt agents sid (fun _ => CallMemory.Rests) Calm (Program.perform o) m := by
  refine .perform (permits_plain rests plain) fun w answer w' r _ => ?_
  have after : ∀ r, (m.note ⟨o, answer, r⟩).Rests := fun r => rests.note (seeks_of_plain plain)
  cases r with
  | ok a => exact after _
  | error e => exact (after _).provisioning

/-- An event that is neither a record nor a result. -/
theorem keeps_emit {id : EventId} {type : EventType} {payload : Payload} (rests : m.Rests)
    (closes : (Op.emitEvent id type payload).closes = true)
    (unrelated : recordOf type payload = none) (other : type ≠ .toolResult) :
    Keeps rt agents sid (fun _ => CallMemory.Idle) Calm (Harness.emitEvent id type payload) m := by
  have permitted : Permits rt agents sid m (.emitEvent id type payload) := by
    have all : m.provisioning = none ∧ recordOf type payload = none ∧
        (type = .toolResult → ValidRecipes rt agents → FromSandbox rt payload →
          Undisturbed m.mine → ∃ page, Ran sid page (latestSandboxId page) m.mine) :=
      ⟨rests.provisioning, unrelated, fun same => absurd same other⟩
    cases id with
    | sandboxProvisioned s sandbox => cases closes
    | _ => exact all
  refine .perform permitted fun w answer w' r _ => ?_
  have after : ∀ r, (m.note ⟨.emitEvent id type payload, answer, r⟩).Idle :=
    fun r => CallMemory.idle_note closes
  cases r with
  | ok e => exact after _
  | error e => exact (after _).rests.provisioning

/-- An event under a drawn id. -/
theorem keeps_emitDrawn {E : CallMemory → Prop} {type : EventType} {k : EventId → Harness α}
    (payload : EventId → Payload) (rests : m.Rests) (other : type ≠ .systemEvent)
    (other' : type ≠ .toolResult) (calm : ∀ m, Calm m → E m)
    (rest : ∀ id m, m.Idle → Keeps rt agents sid A E (k id) m) :
    Keeps rt agents sid A E (Harness.uuid4.bind fun id =>
      (Harness.emitEvent id type (payload id)).bind fun _ => k id) m := by
  refine .seq (A := fun id m => (∃ n, id = .uuid4 n) ∧ m.Rests) ?_ ?_
  · refine .perform (permits_plain (o := .uuid4) rests rfl) fun w answer w' r performed => ?_
    cases answer <;> cases performed
    exact ⟨⟨_, rfl⟩, rests.note rfl⟩
  · rintro id m ⟨⟨n, rfl⟩, rests⟩
    refine .seq ((keeps_emit rests rfl (recordOf_of_ne _ other) other').mono
      (fun _ _ h => h) calm) ?_
    exact fun _ m idle => rest _ m idle

theorem seedSystemPromptIfNeeded_keeps (rests : m.Rests) :
    Keeps rt agents sid (fun _ => CallMemory.Rests) Calm
      (seedSystemPromptIfNeeded sid agent) m := by
  unfold seedSystemPromptIfNeeded
  split
  · exact .pure rests
  · split
    · exact .pure rests
    · refine .seq (keeps_emit rests rfl ?_ (by rintro ⟨⟩)) fun _ m idle => .pure idle.rests
      refine if_neg fun both => ?_
      have said : some "system_prompt" = some "sandbox_provisioned" := both.2
      exact absurd said (by decide)

theorem readEvents_keeps {profile : Profile} (rests : m.Rests) :
    Keeps rt agents sid (fun _ => CallMemory.Rests) Calm (readEvents sid profile) m := by
  unfold readEvents
  refine .seq (keeps_plain rests rfl) fun events m rests => ?_
  split
  · refine .seq (A := fun _ => CallMemory.Rests) ?_ fun _ m rests => keeps_plain rests rfl
    unfold emitCompaction
    split
    · exact .pure rests
    · refine .seq (keeps_emit rests rfl (recordOf_of_ne _ (by rintro ⟨⟩)) (by rintro ⟨⟩)) ?_
      exact fun _ m idle => .pure idle.rests
  · exact .pure rests

theorem overDuration_keeps {profile : Profile} {startedAt : ℚ} (rests : m.Rests) :
    Keeps rt agents sid (fun _ => CallMemory.Rests) Calm (overDuration profile startedAt) m := by
  unfold overDuration
  split
  · exact .pure rests
  · exact .seq (keeps_plain rests rfl) fun _ m rests => .pure rests

/-- In a turn: a call has been emitted since anything else was performed. -/
def Turning (st : TurnState) (m : CallMemory) : Prop :=
  m.Rests ∧ (st.toolCalls ≠ [] → m.Idle)

variable {adapter : FrameworkAdapter}

theorem streamChunks_keeps (standard : Standard adapter) (failure : Option Exn)
    (chunks : List ModelChunk) (st : TurnState) (turning : Turning st m) :
    Keeps rt agents sid Turning Calm (streamChunks adapter failure chunks st) m := by
  induction chunks generalizing st m with
  | nil =>
      cases failure with
      | none => exact .pure turning
      | some e => exact .throw turning.1.provisioning
  | cons chunk chunks ih =>
      cases chunk with
      | textDelta text =>
          simp only [streamChunks, standard.chunkToEvent, chunkEvent, Option.map_some]
          refine keeps_emitDrawn _ turning.1 (by rintro ⟨⟩) (by rintro ⟨⟩) (fun _ h => h) ?_
          intro id m idle
          rw [if_neg (by decide), if_neg (by decide)]
          exact ih _ ⟨idle.rests, fun _ => idle⟩
      | toolCallEnd toolId toolName input index =>
          simp only [streamChunks, standard.chunkToEvent, chunkEvent, Option.map_some]
          refine keeps_emitDrawn _ turning.1 (by rintro ⟨⟩) (by rintro ⟨⟩) (fun _ h => h) ?_
          intro id m idle
          rw [if_pos trivial]
          exact ih _ ⟨idle.rests, fun _ => idle⟩
      | error message retryable statusCode =>
          simp only [streamChunks, standard.chunkToEvent, chunkEvent, Option.map_some]
          refine keeps_emitDrawn _ turning.1 (by rintro ⟨⟩) (by rintro ⟨⟩) (fun _ h => h) ?_
          intro id m idle
          rw [if_neg (by decide), if_pos trivial]
          exact .pure ⟨idle.rests, fun _ => idle⟩
      | usage | toolCallStart | toolCallDelta | done =>
          simp only [streamChunks, standard.chunkToEvent, chunkEvent, Option.map_none]
          exact ih _ turning

theorem runTurn_keeps (standard : Standard adapter) {messages : List Message}
    {tools : List ToolDef} (rests : m.Rests) :
    Keeps rt agents sid Turning Calm (runTurn adapter messages tools) m := by
  unfold runTurn
  refine .seq (keeps_plain rests rfl) fun stream m rests => ?_
  refine .seq (streamChunks_keeps standard _ _ _ ⟨rests, fun some' => absurd rfl some'⟩) ?_
  intro st m turning
  split
  · refine keeps_emitDrawn _ turning.1 (by rintro ⟨⟩) (by rintro ⟨⟩) (fun _ h => h) ?_
    exact fun id m idle => .pure ⟨idle.rests, fun _ => idle⟩
  · exact .pure turning

/-- A part of a call's way to its sandbox has failed. -/
def Broken (rt : Runtime) (agent : Agent) (m : CallMemory) : Prop :=
  Calm m ∧ (recipeError rt agent = none → ¬ Undisturbed m.mine)

theorem broken_note {o : Op} {answer : Answer} {e : Exn} (goesOn : o.closes = false)
    (other : ∀ id, o ≠ .addProvisioned id) (untooled : executions ⟨o, answer, .error e⟩ = none) :
    Broken rt agent (m.note ⟨o, answer, .error e⟩) := by
  constructor
  · rw [Calm, CallMemory.provisioning_note goesOn]
    cases o with
    | addProvisioned id => exact absurd rfl (other id)
    | _ => rfl
  · intro _ undisturbed
    rw [CallMemory.note_of_not_closes goesOn] at undisturbed
    rcases undisturbed _ (List.mem_append.mpr (.inr (List.mem_singleton_self _))) with quiet | tool
    · cases quiet
    · rw [untooled] at tool
      cases tool

/-- A sandbox to run the tool in. -/
def Served (sid : SessionId) (id : String) (m : CallMemory) : Prop :=
  Calm m ∧ ∃ page, Serves sid page (latestSandboxId page) m.mine id

theorem NoSandbox.calm {page : List Event} {previous : Option String}
    (asked : NoSandbox page previous m.mine) : Calm m := by
  obtain ⟨before, mine⟩ := m
  cases asked <;> rfl

theorem provisionSandbox_keeps (page : List Event)
    (asked : NoSandbox page (latestSandboxId page) m.mine) :
    Keeps rt agents sid (Served sid) (Broken rt agent) (provisionSandbox rt sid agent) m := by
  unfold provisionSandbox
  refine .seq (A := fun _ m' => m = m') (.settle (fun _ _ => rfl) fun e wrong => ?_) ?_
  · refine ⟨asked.calm, fun valid => ?_⟩
    rw [recipeError, wrong] at valid
    cases valid
  rintro recipe _ rfl
  refine .seq (A := fun id m' => ∃ a, m'.mine = m.mine ++ [⟨.sandboxProvision recipe, a, .ok id⟩])
    (.perform (o := .sandboxProvision recipe) ⟨page, asked⟩ fun w answer w' r _ => ?_) ?_
  · cases r with
    | error e => exact broken_note rfl (by rintro id ⟨⟩) rfl
    | ok id => exact ⟨answer, rfl⟩
  rintro id m₁ ⟨a, provisioned⟩
  refine .seq (A := fun _ m' => ∃ a', m'.mine = m₁.mine ++ [⟨.addProvisioned id, a', .ok ()⟩])
    (.perform (o := .addProvisioned id) ?_ fun w answer w' r performed => ?_) ?_
  · change m₁.provisioning = _
    rw [CallMemory.provisioning, provisioned]
    simp only [List.reverse_append, List.reverse_singleton, List.singleton_append,
      List.getLast?_concat]
    rfl
  · cases answer <;> cases performed
    exact ⟨_, rfl⟩
  rintro _ m₂ ⟨a', added⟩
  have waiting : m₂.provisioning = some id := by
    rw [CallMemory.provisioning, added, provisioned]
    simp only [List.append_assoc, List.cons_append, List.nil_append, List.reverse_append,
      List.reverse_cons, List.reverse_nil]
    rfl
  refine .seq (A := fun _ => Served sid id)
    (.perform (o := .emitEvent (.sandboxProvisioned sid id) .systemEvent
      (provisionedPayload id recipe.runtime)) ⟨waiting, rfl, rfl, _, rfl⟩
      fun w answer w' r _ => ?_) fun _ m served => .pure served
  cases r with
  | error e => exact broken_note rfl (by rintro id ⟨⟩) rfl
  | ok e =>
      refine ⟨CallMemory.provisioning_note rfl, page, ?_⟩
      rw [CallMemory.note_of_not_closes rfl]
      change Serves sid page _ (m₂.mine ++ [_]) id
      rw [added, provisioned, List.append_assoc, List.append_assoc]
      exact .renewed asked

variable (agent) in
theorem getOrProvisionSandbox_keeps (idle : m.Idle) :
    Keeps rt agents sid (Served sid) (Broken rt agent) (getOrProvisionSandbox rt sid agent) m := by
  unfold getOrProvisionSandbox
  refine .seq (A := fun page m' => ∃ a, m'.mine = [⟨.getEvents, a, .ok page⟩])
    (.perform (o := .getEvents) idle.rests fun w answer w' r _ => ?_) ?_
  · cases r with
    | error e => exact broken_note rfl (by rintro id ⟨⟩) rfl
    | ok page =>
        refine ⟨answer, ?_⟩
        rw [CallMemory.note_of_not_closes rfl, idle]
        rfl
  rintro page m₁ ⟨a, read⟩
  split
  · rename_i unknown
    refine provisionSandbox_keeps page ?_
    rw [unknown, read]
    exact .nobody
  rename_i existing known
  refine .seq
    (A := fun status m' => ∃ a', m'.mine = m₁.mine ++ [⟨.sandboxStatus existing, a', .ok status⟩])
    (.perform (o := .sandboxStatus existing) ⟨page, a, read, known⟩ fun w answer w' r _ => ?_) ?_
  · cases r with
    | error e => exact broken_note rfl (by rintro id ⟨⟩) rfl
    | ok status => exact ⟨answer, rfl⟩
  rintro status m₂ ⟨a', asked⟩
  rw [read] at asked
  split
  · rename_i live
    refine .seq (A := fun _ => Served sid existing)
      (.perform (o := .addProvisioned existing) ?_ fun w answer w' r performed => ?_)
      fun _ m served => .pure served
    · change m₂.provisioning = _
      rw [CallMemory.provisioning, asked]
      rfl
    · cases answer <;> cases performed
      constructor
      · rw [Calm, CallMemory.provisioning_note rfl, asked]
        rfl
      · refine ⟨page, ?_⟩
        rw [CallMemory.note_of_not_closes rfl, known, asked]
        exact .reused live
  · rename_i gone
    refine provisionSandbox_keeps page ?_
    rw [known, asked]
    exact .gone (Bool.not_eq_true _ ▸ gone)

/-- The payload may be appended as the result of a call. -/
def Results (rt : Runtime) (agents : AgentId → Option Agent) (sid : SessionId) (payload : Payload)
    (m : CallMemory) : Prop :=
  Calm m ∧ (ValidRecipes rt agents → FromSandbox rt payload → Undisturbed m.mine →
    ∃ page, Ran sid page (latestSandboxId page) m.mine)

theorem Results.permits {payload : Payload} {id : EventId} (h : Results rt agents sid payload m) :
    Permits rt agents sid m (.emitEvent (.toolResult id) .toolResult payload) :=
  ⟨h.1, recordOf_of_ne _ (by rintro ⟨⟩), fun _ => h.2⟩

theorem Broken.results {payload : Payload} (h : Broken rt agent m)
    (owned : ∃ id, agents id = some agent) : Results rt agents sid payload m := by
  obtain ⟨id, known⟩ := owned
  exact ⟨h.1, fun valid _ undisturbed => absurd undisturbed (h.2 (valid id agent known))⟩

theorem results_of_elsewhere {payload : Payload} {name : String} (calm : Calm m)
    (named : payload.get? "tool_name" = some (.str name))
    (elsewhere : ¬(name ∈ builtinToolNames ∧ rt.sandbox)) : Results rt agents sid payload m := by
  refine ⟨calm, fun _ sandboxed _ => absurd ?_ elsewhere⟩
  obtain ⟨wired, name', builtin, same⟩ := sandboxed
  rw [named] at same
  cases same
  exact ⟨builtin, wired⟩

theorem runSandboxTool_keeps {call : PendingEvent} {toolName : String} {input : Payload}
    (owned : ∃ id, agents id = some agent) (idle : m.Idle) :
    Keeps rt agents sid (Results rt agents sid) Calm
      (runSandboxTool rt sid agent call toolName input) m := by
  unfold runSandboxTool
  refine .seq (getOrProvisionSandbox_keeps agent idle).catch ?_
  rintro (e | sandbox) m found
  · dsimp only
    split
    · exact .pure (found.results owned)
    · exact .throw found.1
  · obtain ⟨calm, page, served⟩ := found
    have ran : ∀ answer r payload, Results rt agents sid payload
        (m.note ⟨.sandboxExecute sandbox toolName input, answer, r⟩) := by
      intro answer r payload
      refine ⟨CallMemory.provisioning_note rfl, fun _ _ _ => ⟨page, ?_⟩⟩
      rw [CallMemory.note_of_not_closes rfl]
      exact ⟨m.mine, _, sandbox, r, rfl, rfl, served⟩
    refine .seq (Keeps.catch (A := fun _ m => ∀ payload, Results rt agents sid payload m)
      (E := fun m => ∀ payload, Results rt agents sid payload m)
      (.perform (o := .sandboxExecute sandbox toolName input) ⟨calm, page, served⟩
        fun w answer w' r _ => ?_)) ?_
    · cases r with
      | error e => exact ran answer _
      | ok r => exact ran answer _
    · rintro (e | r) m results
      · dsimp only
        split
        · exact .pure (results _)
        · exact .throw (results []).1
      · exact .pure (results _)

theorem toolPayload_keeps {call : PendingEvent} (owned : ∃ id, agents id = some agent)
    (idle : m.Idle) :
    Keeps rt agents sid (Results rt agents sid) Calm (toolPayload rt sid agent call) m := by
  unfold toolPayload
  dsimp only
  split
  · exact runSandboxTool_keeps owned idle
  · rename_i elsewhere
    split
    · refine .seq (keeps_plain idle.rests rfl) fun result m rests => .pure ?_
      exact results_of_elsewhere rests.provisioning rfl elsewhere
    · exact .pure (results_of_elsewhere idle.rests.provisioning rfl elsewhere)

theorem executeToolCalls_keeps {calls : List PendingEvent}
    (owned : ∃ id, agents id = some agent) (idle : m.Idle) :
    Keeps rt agents sid (fun _ => CallMemory.Idle) Calm
      (executeToolCalls rt sid agent calls) m := by
  unfold executeToolCalls
  refine .forEach (I := fun _ => CallMemory.Idle) (fun call _ m idle => ?_) calls idle
  refine .seq (toolPayload_keeps owned idle) fun payload m results => ?_
  refine .seq (A := fun _ => CallMemory.Idle)
    (.perform (o := .emitEvent (.toolResult call.id) .toolResult payload) results.permits
      fun w answer w' r _ => ?_) fun _ m idle => .pure idle
  have after : ∀ r,
      (m.note ⟨.emitEvent (.toolResult call.id) .toolResult payload, answer, r⟩).Idle :=
    fun r => CallMemory.idle_note rfl
  cases r with
  | ok e => exact after _
  | error e => exact (after _).rests.provisioning

/-- The operations that may follow an exception. -/
def Op.cleans : Op → Bool
  | .provisionedIds | .sandboxDestroy _ | .markComplete => true
  | _ => false

theorem keeps_calm {o : Op} (calm : Calm m) (cleans : o.cleans = true) :
    Keeps rt agents sid (fun _ => Calm) Calm (Program.perform o) m := by
  have permitted : Permits rt agents sid m o := by
    cases o <;> first | exact calm | cases cleans
  refine .perform permitted fun w answer w' r _ => ?_
  have after : ∀ r, Calm (m.note ⟨o, answer, r⟩) := by
    intro r
    have goesOn : o.closes = false := by
      cases o <;> first | rfl | cases cleans
    rw [Calm, CallMemory.provisioning_note goesOn]
    cases o <;> first | rfl | cases cleans
  cases r with
  | ok a => exact after _
  | error e => exact after _

theorem destroySandboxes_keeps (calm : Calm m) :
    Keeps rt agents sid (fun _ => Calm) Calm (destroySandboxes rt) m := by
  unfold destroySandboxes
  split
  · exact .pure calm
  refine .seq (keeps_calm calm rfl) fun ids m calm => ?_
  refine .forEach (I := fun _ => Calm) (fun id _ m calm => ?_) ids calm
  refine .seq (keeps_calm (o := .sandboxDestroy id) calm rfl).catch ?_
  rintro (e | a) m calm
  · dsimp only
    split
    · exact .pure calm
    · exact .throw calm
  · exact .pure calm

theorem runTurns_keeps {profile : Profile} (standard : Standard adapter)
    (owned : ∃ id, agents id = some agent) (startedAt : ℚ) (turns : Nat) (rests : m.Rests) :
    Keeps rt agents sid (fun _ => Calm) Calm
      (runTurns rt sid agent profile adapter startedAt turns) m := by
  induction turns generalizing m with
  | zero => exact .pure rests.provisioning
  | succ turns ih =>
      unfold runTurns
      refine .seq (overDuration_keeps rests) fun late m rests => ?_
      split
      · exact .pure rests.provisioning
      refine .seq (readEvents_keeps rests) fun events m rests => ?_
      dsimp only
      split
      · exact .pure rests.provisioning
      refine .seq (runTurn_keeps standard rests) fun st m turning => ?_
      split
      · exact .pure turning.1.provisioning
      split
      · exact .pure turning.1.provisioning
      · rename_i some'
        refine .seq (executeToolCalls_keeps owned (turning.2 (by simpa using some'))) ?_
        exact fun _ m idle => ih idle.rests

/-- From a new process on, the loop asks only for what is permitted. -/
theorem runSession_keeps (idle : m.Idle) :
    Keeps rt agents sid (fun _ => Calm) Calm (runSession rt sid) m := by
  unfold runSession
  refine .seq (keeps_plain idle.rests rfl) fun session m rests => ?_
  refine .seq (A := fun agent m => (∃ id, agents id = some agent) ∧ m.Rests)
    (.perform (permits_plain (o := .getAgent session.agentId) rests rfl)
      fun w answer w' r performed => ?_) ?_
  · cases r with
    | error e => exact (rests.note rfl).provisioning
    | ok agent => exact ⟨⟨_, World.perform_getAgent performed⟩, rests.note rfl⟩
  rintro agent m ⟨owned, rests⟩
  refine .seq (A := fun _ => CallMemory.Rests)
    (.settle (fun _ _ => rests) fun _ _ => rests.provisioning) fun profile m rests => ?_
  refine .seq (A := fun adapter m => Standard adapter ∧ m.Rests)
    (.settle (fun _ got => ⟨standard_of_getAdapter got, rests⟩) fun _ _ => rests.provisioning) ?_
  rintro adapter m ⟨standard, rests⟩
  refine .seq (seedSystemPromptIfNeeded_keeps rests) fun _ m rests => ?_
  refine .seq (keeps_plain rests rfl) fun startedAt m rests => ?_
  refine .seq (A := fun _ => Calm) ?_ fun _ m calm => ?_
  · exact .tryFinally (runTurns_keeps standard owned startedAt _ rests) fun _ calm =>
      destroySandboxes_keeps calm
  · exact .seq (keeps_calm calm rfl) fun _ m calm => .pure calm

end Functions

section Tracking

variable {rt : Runtime} {agents : AgentId → Option Agent} {sid : SessionId} {agentId : AgentId}
variable {w w' : World} {m : CallMemory}

/-- The page that was read last shows the latest record of the log. -/
def Shown (w : World) : Prop :=
  latestSandboxId w.lastRead.page = latestSandboxId w.lastRead.log

instance (w : World) : Decidable (Shown w) :=
  inferInstanceAs (Decidable (_ = _))

/-- The steps under which the log can stand in for a memory: what is read of it shows its
latest record where a sandbox is looked for; a new sandbox has a name that the log does not
have already; its record is appended; and no process is gone before that. -/
def remembers (sid : SessionId) (c : ReuseConfig) (a : RunAction) : Bool :=
  match c.program, a with
  | none, .start => c.state.2.provisioning.all fun id =>
      c.state.1.session.events.any fun e => e.id = .sandboxProvisioned sid id
  | some (.op (.sandboxStatus _) _), .respond _ => Shown c.state.1
  | some (.op (.sandboxProvision _) _), .respond (.provisions id) =>
      Shown c.state.1 ∧ id ≠ "" ∧
        ((∀ e ∈ c.state.1.session.events, e.id ≠ .sandboxProvisioned sid id) ∨
          latestSandboxId c.state.1.session.events = some id)
  | some (.op (.sandboxProvision _) _), .respond _ => Shown c.state.1
  | some (.op (.emitEvent (.sandboxProvisioned s id) type payload) _), .respond .done =>
      (c.state.1.emit (.sandboxProvisioned s id) type payload).2.toBool
  | some (.op (.emitEvent (.sandboxProvisioned _ _) _ _) _), .respond _ => false
  | _, _ => true

/-- A step that meets the condition. -/
abbrev Remembers (sid : SessionId) (c : ReuseConfig) (a : RunAction) : Prop :=
  remembers sid c a = true

/-- Requests about a sandbox that the log may know. -/
def Op.asks : Op → Bool
  | .sandboxStatus _ | .sandboxProvision _ => true
  | _ => false

theorem seeks_of_asks {o : Op} (asks : o.asks = true) : o.seeks = true := by
  cases o <;> first | rfl | cases asks

/-- Every sandbox since the latest event was provisioned for want of one to go on with. -/
def Sought (m : CallMemory) : Prop :=
  ∀ before x after, m.mine = before ++ x :: after → (given x).isSome →
    ∃ page, NoSandbox page m.previous before

theorem Sought.none (idle : m.Idle) : Sought m := by
  intro before x after split'
  rw [idle] at split'
  exact absurd split'.symm (by simp)

theorem Sought.note {x : Performed} (h : Sought m) (goesOn : x.op.closes = false)
    (asked : (given x).isSome → ∃ page, NoSandbox page m.previous m.mine) : Sought (m.note x) := by
  rw [CallMemory.note_of_not_closes goesOn]
  intro before y after split' provisioned
  have split' : m.mine ++ [x] = before ++ y :: after := split'
  rcases List.eq_nil_or_concat after with rfl | ⟨after, z, rfl⟩
  · obtain ⟨rfl, same⟩ := List.append_inj' split' rfl
    obtain rfl := List.singleton_inj.mp same
    exact asked provisioned
  · rw [List.concat_eq_append, ← List.cons_append, ← List.append_assoc] at split'
    exact h before y after (List.append_inj_left' split' rfl) provisioned

/-- The log says of the session's sandboxes what the memory says. -/
structure Tracks (sid : SessionId) (w : World) (m : CallMemory) : Prop where
  named : ∀ id, m.provisioning = some id → id ≠ ""
  /-- The latest record is that of the latest sandbox, unless that one is yet to be recorded. -/
  tracked : (∃ id, m.provisioning = some id ∧
      ∀ e ∈ w.session.events, e.id ≠ .sandboxProvisioned sid id) ∨
    latestSandboxId w.session.events = m.latest
  read : ∀ page, m.page = some page → w.lastRead.page = page ∧
    latestSandboxId w.lastRead.log = m.previous
  seen : ∀ x ∈ m.mine, x.op.asks = true → Shown w
  sought : Sought m

theorem Tracks.calm (h : Tracks sid w m) (calm : Calm m) :
    latestSandboxId w.session.events = m.latest := by
  rcases h.tracked with ⟨id, waiting, -⟩ | same
  · rw [calm] at waiting
    cases waiting
  · exact same

/-- The operation changes neither the log nor the latest read. -/
structure World.LeavesLog (w w' : World) : Prop where
  events : w'.session.events = w.session.events
  lastRead : w'.lastRead = w.lastRead

theorem World.perform_leavesLog {o : Op} {answer : Answer} {r : Except Exn o.Res}
    (performed : w.perform agents o answer = some (w', r)) (reads : o ≠ .getEvents)
    (emits : ∀ id type payload, o ≠ .emitEvent id type payload) : w.LeavesLog w' := by
  cases o with
  | emitEvent id type payload => exact absurd rfl (emits id type payload)
  | getEvents => exact absurd rfl reads
  | complete messages tools => cases answer <;> cases performed <;> exact ⟨rfl, rfl⟩
  | uuid4 => cases answer <;> cases performed; exact ⟨rfl, rfl⟩
  | markComplete =>
      have same := World.perform_sameLog performed (.inr rfl)
      exact ⟨same.events, same.lastRead⟩
  | _ =>
      have same := World.perform_sameLog performed (.inl rfl)
      exact ⟨same.events, same.lastRead⟩

/-- An operation within a call, by what it makes of the latest sandbox. -/
theorem Tracks.note {x : Performed} (h : Tracks sid w m) (kept : w.lastRead = w'.lastRead)
    (goesOn : x.op.closes = false) (unread : pageOf x = none)
    (named : ∀ id, (m.note x).provisioning = some id → id ≠ "")
    (tracked : (∃ id, (m.note x).provisioning = some id ∧
        ∀ e ∈ w'.session.events, e.id ≠ .sandboxProvisioned sid id) ∨
      latestSandboxId w'.session.events = (m.note x).latest)
    (seen : x.op.asks = true → Shown w)
    (sought : (given x).isSome → ∃ page, NoSandbox page m.previous m.mine) :
    Tracks sid w' (m.note x) where
  named := named
  tracked := tracked
  sought := h.sought.note goesOn sought
  read page read := by
    rw [CallMemory.page_note goesOn, unread] at read
    rw [← kept, CallMemory.note_of_not_closes goesOn]
    exact h.read page read
  seen y mem asks := by
    rw [Shown, ← kept]
    rw [CallMemory.note_of_not_closes goesOn] at mem
    rcases List.mem_append.mp mem with old | new
    · exact h.seen y old asks
    · rw [List.mem_singleton.mp new] at asks
      exact seen asks

/-- An operation that has nothing to do with sandboxes. -/
theorem Tracks.pass {x : Performed} (h : Tracks sid w m) (calm : Calm m) (kept : w.LeavesLog w')
    (goesOn : x.op.closes = false) (unread : pageOf x = none) (unoccupied : occupies x = none)
    (calm' : Calm (m.note x)) (seen : x.op.asks = true → Shown w) : Tracks sid w' (m.note x) := by
  have ungiven : given x = none := by
    cases provisioned : given x with
    | none => rfl
    | some id =>
        rw [occupies_of_given provisioned] at unoccupied
        cases unoccupied
  refine h.note kept.lastRead.symm goesOn unread (fun id waiting => ?_) (.inr ?_) seen ?_
  · rw [calm'] at waiting
    cases waiting
  · rw [kept.events, CallMemory.latest_note, unoccupied, Option.none_or]
    exact h.calm calm
  · rw [ungiven]
    rintro ⟨⟩

/-- A page has been read. -/
theorem Tracks.read_page {answer : Answer} {r : Except Exn (List Event)} (h : Tracks sid w m)
    (rests : m.Rests) (performed : w.perform agents .getEvents answer = some (w', r)) :
    Tracks sid w' (m.note ⟨.getEvents, answer, r⟩) := by
  cases answer with
  | done =>
      have performed : some w.read = some (w', r) := performed
      rw [World.read_eq] at performed
      cases performed
      have after : (m.note ⟨.getEvents, .done, .ok (w.session.events.take 1000)⟩).Rests :=
        rests.note rfl
      refine ⟨fun id waiting => ?_, .inr ?_, fun page read => ?_, fun x mem asks => ?_,
        h.sought.note rfl (by rintro ⟨⟩)⟩
      · rw [after.provisioning] at waiting
        cases waiting
      · rw [CallMemory.latest_note]
        exact h.calm rests.provisioning
      · rw [CallMemory.page_note rfl] at read
        refine ⟨Option.some.inj read, ?_⟩
        rw [CallMemory.note_of_not_closes rfl, ← rests.latest]
        exact h.calm rests.provisioning
      · have unsought := after x mem
        rw [seeks_of_asks asks] at unsought
        cases unsought
  | raises e =>
      cases performed
      exact h.pass rests.provisioning ⟨rfl, rfl⟩ rfl rfl rfl (rests.note rfl).provisioning
        (by rintro ⟨⟩)
  | _ => cases performed

/-- An event has been appended, or not, that is no record. -/
theorem Tracks.emitted {id : EventId} {type : EventType} {payload : Payload} {answer : Answer}
    {r : Except Exn Event} (h : Tracks sid w m) (calm : Calm m)
    (closes : (Op.emitEvent id type payload).closes = true)
    (unrelated : recordOf type payload = none)
    (performed : w.perform agents (.emitEvent id type payload) answer = some (w', r)) :
    Tracks sid w' (m.note ⟨.emitEvent id type payload, answer, r⟩) := by
  have same : latestSandboxId w'.session.events = latestSandboxId w.session.events := by
    cases answer with
    | done =>
        have emitted : w.emit id type payload = (w', r) := Option.some.inj performed
        rcases w.emit_cases id type payload with ⟨e, same⟩ | ⟨e, -, -, same⟩ | ⟨-, fresh, same⟩
        · rw [same] at emitted
          cases emitted
          rfl
        · rw [same] at emitted
          cases emitted
          rfl
        · rw [same] at emitted
          cases emitted
          refine (latestSandboxId_append _ _).trans ?_
          exact congrArg (Option.or · _) unrelated
    | raises e =>
        cases performed
        rfl
    | _ => cases performed
  rw [CallMemory.note_of_closes closes]
  refine ⟨by rintro id ⟨⟩, .inr ?_, by rintro page ⟨⟩, by rintro x ⟨⟩, .none rfl⟩
  exact same.trans (h.calm calm)

/-- The record of a new sandbox has been appended, or was there. -/
theorem Tracks.recorded {id runtime : String} {r : Except Exn Event} (h : Tracks sid w m)
    (waiting : m.provisioning = some id)
    (performed : w.emit (.sandboxProvisioned sid id) .systemEvent (provisionedPayload id runtime) =
      (w', r)) (appended : ∃ e, r = .ok e) {answer : Answer} :
    Tracks sid w' (m.note ⟨.emitEvent (.sandboxProvisioned sid id) .systemEvent
      (provisionedPayload id runtime), answer, r⟩) := by
  have latest := CallMemory.latest_of_provisioning waiting
  have kept : w.lastRead = w'.lastRead := congrArg (fun p => World.lastRead (Prod.fst p)) performed
  refine h.note kept rfl rfl (fun id' waiting' => ?_) (.inr ?_) (by rintro ⟨⟩) (by rintro ⟨⟩)
  · rw [CallMemory.provisioning_note rfl] at waiting'
    cases waiting'
  rw [CallMemory.latest_note]
  change latestSandboxId w'.session.events = m.latest
  rw [latest]
  obtain ⟨e, rfl⟩ := appended
  rcases w.emit_cases (.sandboxProvisioned sid id) .systemEvent (provisionedPayload id runtime) with
    ⟨e', same⟩ | ⟨e', mem, known, same⟩ | ⟨-, fresh, same⟩
  · rw [same] at performed
    cases performed
  · rw [same] at performed
    cases performed
    rcases h.tracked with ⟨id', waiting', unknown⟩ | tracked
    · rw [waiting] at waiting'
      cases waiting'
      exact absurd known (unknown _ mem)
    · exact tracked.trans latest
  · rw [same] at performed
    cases performed
    refine (latestSandboxId_append _ _).trans ?_
    exact congrArg (Option.or · _) (recordOf_provisioned (h.named id waiting))

/-- What others do records no sandbox. -/
theorem Tracks.disturbed {a : ClientAction} (h : Tracks sid w m) (acts : w.disturb a = some w') :
    Tracks sid w' m := by
  obtain ⟨kept, ids, same⟩ : w'.lastRead = w.lastRead ∧
      (∀ e ∈ w'.session.events, e ∈ w.session.events ∨ ∃ n, e.id = .uuid4 n) ∧
      latestSandboxId w'.session.events = latestSandboxId w.session.events := by
    cases a with
    | complete =>
        obtain rfl := Option.some.inj acts
        have same := w.markComplete_sameLog
        refine ⟨rfl, fun e mem => .inl ?_, congrArg latestSandboxId same.events⟩
        rwa [same.events] at mem
    | say content =>
        have acts : (w.draw.1.emit w.draw.2 .userMessage (userPayload content)).1 = w' :=
          Option.some.inj acts
        rcases w.draw.1.emit_cases w.draw.2 .userMessage (userPayload content) with
          ⟨e, emitted⟩ | ⟨e, -, -, emitted⟩ | ⟨-, fresh, emitted⟩
        · rw [emitted] at acts
          subst acts
          exact ⟨rfl, fun e mem => .inl mem, rfl⟩
        · rw [emitted] at acts
          subst acts
          exact ⟨rfl, fun e mem => .inl mem, rfl⟩
        · rw [emitted] at acts
          subst acts
          refine ⟨rfl, fun e mem => ?_, latestSandboxId_append _ _⟩
          rcases List.mem_append.mp mem with old | new
          · exact .inl old
          · rw [List.mem_singleton.mp new]
            exact .inr ⟨w.draws, rfl⟩
  refine ⟨h.named, ?_, fun page read => ?_, fun x mem asks => ?_, h.sought⟩
  · rw [same]
    refine h.tracked.imp_left ?_
    rintro ⟨id, waiting, unknown⟩
    refine ⟨id, waiting, fun e mem known => ?_⟩
    rcases ids e mem with old | ⟨n, random⟩
    · exact unknown e old known
    · rw [random] at known
      cases known
  · rw [kept]
    exact h.read page read
  · rw [Shown, kept]
    exact h.seen x mem asks

/-- A new process. -/
theorem Tracks.restarted (h : Tracks sid w m) (recorded : ∀ id, m.provisioning = some id →
    ∃ e ∈ w.session.events, e.id = .sandboxProvisioned sid id) : Tracks sid w.boot m.restart := by
  refine ⟨by rintro id ⟨⟩, .inr ?_, by rintro page ⟨⟩, by rintro x ⟨⟩, .none rfl⟩
  rcases h.tracked with ⟨id, waiting, unknown⟩ | same
  · obtain ⟨e, mem, known⟩ := recorded id waiting
    exact absurd known (unknown e mem)
  · exact same

section Serving

variable {page : List Event} {previous : Option String} {mine : List Performed} {id : String}

theorem NoSandbox.page_eq (h : NoSandbox page previous mine) (before : Option String) :
    (⟨before, mine⟩ : CallMemory).page = some page := by
  cases h <;> rfl

theorem Serves.page_eq (h : Serves sid page previous mine id) (before : Option String) :
    (⟨before, mine⟩ : CallMemory).page = some page := by
  cases h with
  | reused live => rfl
  | renewed asked =>
      have read := asked.page_eq before
      unfold CallMemory.page at read ⊢
      rw [List.reverse_append, List.findSome?_append, read]
      rfl

theorem Serves.asks (h : Serves sid page previous mine id) : ∃ x ∈ mine, x.op.asks = true := by
  cases h with
  | reused live => exact ⟨_, .tail _ (.head _), rfl⟩
  | renewed asked => exact ⟨_, List.mem_append_right _ (.head _), rfl⟩

theorem Serves.latest (h : Serves sid page previous mine id) :
    (⟨previous, mine⟩ : CallMemory).latest = some id := by
  cases h with
  | reused live => rfl
  | renewed asked =>
      rw [CallMemory.latest, List.reverse_append]
      rfl

/-- What the page knows of the session's sandboxes is what the memory knows. -/
theorem Tracks.knows (h : Tracks sid w m) (read : m.page = some page) (shown : Shown w) :
    latestSandboxId page = m.previous := by
  obtain ⟨same, known⟩ := h.read page read
  rw [← known, ← same]
  exact shown

theorem Tracks.serves (h : Tracks sid w m)
    (served : Serves sid page (latestSandboxId page) m.mine id) :
    Serves sid page m.previous m.mine id := by
  obtain ⟨x, mem, asks⟩ := served.asks
  rwa [h.knows (served.page_eq _) (h.seen x mem asks)] at served

end Serving

theorem Tracks.performed {o : Op} {answer : Answer} {r : Except Exn o.Res}
    {k : Except Exn o.Res → Harness Unit} (h : Tracks sid w m)
    (permitted : Permits rt agents sid m o)
    (remembers : Remembers sid ⟨(w, m), some (.op o k)⟩ (.respond answer))
    (performed : w.perform agents o answer = some (w', r)) :
      Tracks sid w' (m.note ⟨o, answer, r⟩) := by
  cases o with
  | getEvents => exact h.read_page permitted performed
  | emitEvent id type payload =>
      cases id with
      | sandboxProvisioned s id =>
          obtain ⟨waiting, rfl, rfl, runtime, rfl⟩ := permitted
          cases answer with
          | done =>
              have emitted : w.emit _ _ _ = (w', r) := Option.some.inj performed
              have appended : (w.emit _ _ _).2.toBool = true := remembers
              rw [emitted] at appended
              cases r with
              | ok e => exact h.recorded waiting emitted ⟨e, rfl⟩
              | error e => cases appended
          | _ => cases remembers
      | _ => exact h.emitted permitted.1 rfl permitted.2.1 performed
  | sandboxStatus id =>
      obtain ⟨page, a, read, -⟩ := permitted
      have calm : Calm m := by
        rw [Calm, CallMemory.provisioning, read]
        rfl
      have kept := World.perform_leavesLog performed (by rintro ⟨⟩) (by rintro _ _ _ ⟨⟩)
      exact h.pass calm kept rfl rfl rfl (CallMemory.provisioning_note rfl) fun _ =>
        of_decide_eq_true remembers
  | sandboxProvision recipe =>
      obtain ⟨page, asked⟩ := permitted
      have kept := World.perform_leavesLog performed (by rintro ⟨⟩) (by rintro _ _ _ ⟨⟩)
      cases r with
      | error e =>
          obtain rfl : answer = .raises e := by
            cases answer <;> cases performed
            rfl
          exact h.pass asked.calm kept rfl rfl rfl (CallMemory.provisioning_note rfl) fun _ =>
            of_decide_eq_true remembers
      | ok id =>
          obtain rfl : answer = .provisions id := by
            cases answer <;> cases performed
            rfl
          obtain ⟨shown, named, unknown⟩ := of_decide_eq_true remembers
          have waiting : (m.note ⟨.sandboxProvision recipe, .provisions id, .ok id⟩).provisioning =
              some id := CallMemory.provisioning_note rfl
          refine h.note kept.lastRead.symm rfl rfl (fun id' same => ?_) ?_ (fun _ => shown) ?_
          · rw [waiting] at same
            cases same
            exact named
          · rw [kept.events]
            exact unknown.imp (fun fresh => ⟨id, waiting, fresh⟩) fun same =>
              same.trans (CallMemory.latest_of_provisioning waiting).symm
          · intro _
            rw [h.knows (asked.page_eq _) shown] at asked
            exact ⟨page, asked⟩
  | addProvisioned id =>
      have kept := World.perform_leavesLog performed (by rintro ⟨⟩) (by rintro _ _ _ ⟨⟩)
      have same : (m.note ⟨.addProvisioned id, answer, r⟩).provisioning = m.provisioning :=
        (CallMemory.provisioning_note rfl).trans permitted.symm
      refine h.note kept.lastRead.symm rfl rfl ?_ ?_ (by rintro ⟨⟩) (by rintro ⟨⟩)
      · rw [same]
        exact h.named
      · rw [same, kept.events, CallMemory.latest_note]
        exact h.tracked
  | sandboxExecute id tool input =>
      obtain ⟨calm, page, served⟩ := permitted
      have kept := World.perform_leavesLog performed (by rintro ⟨⟩) (by rintro _ _ _ ⟨⟩)
      refine h.note kept.lastRead.symm rfl rfl (fun id' waiting => ?_) (.inr ?_) (by rintro ⟨⟩)
        (by rintro ⟨⟩)
      · rw [CallMemory.provisioning_note rfl] at waiting
        cases waiting
      · rw [kept.events, CallMemory.latest_note]
        exact (h.calm calm).trans (h.serves served).latest
  | _ =>
      have kept := World.perform_leavesLog performed (by rintro ⟨⟩) (by rintro _ _ _ ⟨⟩)
      exact h.pass permitted kept rfl rfl rfl (CallMemory.provisioning_note rfl) (by rintro ⟨⟩)

theorem tracks_invariant : (reuseMonitor rt agents sid).Invariant (Remembers sid)
    fun s _ => Tracks sid s.1 s.2 where
  begun s h started := by
    refine h.restarted fun id waiting => ?_
    have started : s.2.provisioning.all (fun id =>
      s.1.session.events.any fun e => e.id = .sandboxProvisioned sid id) = true := started
    rw [waiting] at started
    obtain ⟨e, mem, same⟩ := List.any_eq_true.mp started
    exact ⟨e, mem, of_decide_eq_true same⟩
  stopped s g h := h
  disturbed c g x s' h _ _ acts := by
    obtain ⟨acts, kept⟩ := Process.recording_disturb.mp acts
    rw [kept]
    exact h.disturbed acts
  performed s g o k answer s' r g' h permitted remembers performed _ := by
    obtain ⟨w', m'⟩ := s'
    obtain ⟨performed, rfl⟩ := Process.recording_perform.mp performed
    exact h.performed permitted remembers performed

theorem Tracks.ran {page : List Event} (h : Tracks sid w m)
    (ran : Ran sid page (latestSandboxId page) m.mine) : Ran sid page m.previous m.mine := by
  obtain ⟨served, x, id, r, mine, executed, serves⟩ := ran
  obtain ⟨y, mem, asks⟩ := serves.asks
  have unread : pageOf x = none := by
    obtain ⟨o, answer, outcome⟩ := x
    cases o <;> first | rfl | cases executed
  have read : m.page = some page := by
    have before := serves.page_eq m.previous
    unfold CallMemory.page at before ⊢
    rw [mine, List.reverse_append, List.findSome?_append, before]
    simp [unread]
  have known := h.knows read (h.seen y (mine ▸ List.mem_append_left _ mem) asks)
  rw [known] at serves
  exact ⟨served, x, id, r, mine, executed, serves⟩

/-- What the tool calls of a session do about their sandbox. -/
structure KeepsSandbox (rt : Runtime) (agents : AgentId → Option Agent) (sid : SessionId)
    (c : ReuseConfig) : Prop where
  /-- A tool runs in the sandbox of the previous call, if that one is reported alive, and
  otherwise in a new one. The log has it as the latest. -/
  runs : ∀ id tool input k, c.program = some (.op (.sandboxExecute id tool input) k) →
    (∃ page, Serves sid page c.state.2.previous c.state.2.mine id) ∧
      latestSandboxId c.state.1.session.events = some id
  /-- A sandbox is provisioned only for want of a live one. -/
  provisions : Sought c.state.2
  /-- A call is answered after its tool has run, unless something has raised before. -/
  answers : ∀ call payload k,
    c.program = some (.op (.emitEvent (.toolResult call) .toolResult payload) k) →
    ValidRecipes rt agents → FromSandbox rt payload → Undisturbed c.state.2.mine →
    ∃ page, Ran sid page c.state.2.previous c.state.2.mine

/-- In every run whose steps let the log stand in for a memory, the tool calls of the session
share a sandbox for as long as it is alive. -/
theorem keepsSandbox_of_remembers {c : ReuseConfig}
    (reachable : (reuseSystem rt agents sid agentId).ReachableIf (Remembers sid) c) :
    KeepsSandbox rt agents sid c := by
  obtain ⟨g, watched, tracks⟩ := tracks_invariant.reachable
    (fun s => (runSession_keeps (m := s.2.restart) rfl s.1.boot).mono fun _ _ _ _ => trivial)
    (fun s ⟨created, forgot⟩ => by
      rw [created, forgot]
      exact ⟨by rintro id ⟨⟩, .inr rfl, by rintro page ⟨⟩, by rintro x ⟨⟩, .none rfl⟩) reachable
  refine ⟨fun id tool input k running => ?_, tracks.sought, ?_⟩
  · obtain ⟨calm, page, served⟩ := watched.permits running
    have serves := tracks.serves served
    exact ⟨⟨page, serves⟩, (tracks.calm calm).trans serves.latest⟩
  · intro call payload k answering valid sandboxed undisturbed
    obtain ⟨-, -, results⟩ := watched.permits answering
    obtain ⟨page, ran⟩ := results rfl valid sandboxed undisturbed
    exact ⟨page, tracks.ran ran⟩

end Tracking

section TwoCalls

/-- The sandbox a tool is about to run in. -/
def running? (c : ReuseConfig) : Option String :=
  match c.program with
  | some (.op (.sandboxExecute id _ _) _) => some id
  | _ => none

theorem running?_eq_some {c : ReuseConfig} {id : String} (h : running? c = some id) :
    ∃ tool input k, c.program = some (.op (.sandboxExecute id tool input) k) := by
  unfold running? at h
  split at h
  · rename_i pending
    cases h
    exact ⟨_, _, _, pending⟩
  · cases h

/-- A turn with two calls of `bash`. -/
def twoCommands : ModelStream :=
  ⟨[.toolCallEnd "t1" "bash" [] 0, .toolCallEnd "t2" "bash" [] 1], none⟩

/-- Two calls, up to the second one's tool. -/
def twoCommandsRun : List RunAction :=
  [.disturb (.say "go"), .start, .respond .done, .respond .done, .respond (.reads 0),
    .respond .done, .respond .done, .respond (.streams twoCommands)] ++
    List.replicate 5 (.respond .done) ++
    [.respond (.provisions "c1"), .respond .done, .respond .done,
      .respond (.results (bashPrints "")), .respond .done, .respond .done,
      .respond (.reports .idle), .respond .done]

/-- The sandbox of the first call is still there for the second one. -/
theorem keepsSandbox_of_remembers_reused : ∃ (c : ReuseConfig) (page : List Event) (tool : String)
    (input : Payload) (k : Except Exn ToolResult → Harness Unit),
    c.program = some (.op (.sandboxExecute "c1" tool input) k) ∧
      Serves "s" page (some "c1") c.state.2.mine "c1" := by
  obtain ⟨c, ran, facts⟩ := Option.map_eq_some_iff.mp (show
    ((reuseSystem (.boxed .roomy) (fun _ => some (.plain none)) "s" "agent").runIf (remembers "s")
      ⟨(.create "s" "agent", ⟨none, []⟩), none⟩ twoCommandsRun).map
      (fun c => (running? c, c.state.2.previous)) = some (some "c1", some "c1")
    by decide +kernel)
  obtain ⟨running, before⟩ := Prod.mk.inj facts
  obtain ⟨tool, input, k, pending⟩ := running?_eq_some running
  have reachable : (reuseSystem (.boxed .roomy) (fun _ => some (.plain none)) "s"
      "agent").ReachableIf (Remembers "s") c :=
    ⟨_, ⟨rfl, rfl, rfl⟩, Transition.System.reaches_of_runIf ran⟩
  have keeps := keepsSandbox_of_remembers reachable
  obtain ⟨⟨page, serves⟩, -⟩ := keeps.runs "c1" tool input k pending
  rw [before] at serves
  exact ⟨c, page, tool, input, k, pending, serves⟩

end TwoCalls

section Forgotten

open Process (May Context)

variable {rt : Runtime} {agents : AgentId → Option Agent} {sid : SessionId} {agent : Agent}
variable {users : List Event} {w : World} {m : CallMemory} {α : Type}

/-- An active session whose log begins with `users`. -/
structure Crowded (users : List Event) (w : World) : Prop where
  active : w.session.row.status = .active
  early : users <+: w.session.events

theorem Crowded.emit (h : Crowded users w) (id : EventId) (type : EventType) {payload : Payload}
    (fits : payload.byteLength ≤ maxPayloadBytes) :
    ∃ w' e, w.emit id type payload = (w', .ok e) ∧ Crowded users w' := by
  obtain ⟨e, returned⟩ : ∃ e, (w.emit id type payload).2 = .ok e :=
    SessionState.emitEvent_returns h.active fits
  rcases w.emit_cases id type payload with ⟨e', refused⟩ | ⟨e', -, -, known⟩ | ⟨-, fresh, appended⟩
  · rw [refused] at returned
    cases returned
  · exact ⟨w, e', known, h⟩
  · exact ⟨_, _, appended, h.active, h.early.trans (List.prefix_append _ _)⟩

theorem may_perform {o : Op} {Q : o.Res → World × CallMemory → Prop} {w' : World} {a : o.Res}
    (answer : Answer) (performed : w.perform agents o answer = some (w', .ok a))
    (holds : Q a (w', m.note ⟨o, answer, .ok a⟩)) :
    (reuseProcess rt agents sid).May Q (Program.perform o) (w, m) := by
  have recorded : (reuseProcess rt agents sid).perform (w, m) o answer =
      some ((w', m.note ⟨o, answer, .ok a⟩), .ok a) :=
    Process.recording_perform.mpr ⟨performed, rfl⟩
  exact .perform answer recorded holds

theorem may_emit {Q : Event → World × CallMemory → Prop} {id : EventId} {type : EventType}
    {payload : Payload} (crowded : Crowded users w) (fits : payload.byteLength ≤ maxPayloadBytes)
    (holds : ∀ w' e, Crowded users w' →
      Q e (w', m.note ⟨.emitEvent id type payload, .done, .ok e⟩)) :
    (reuseProcess rt agents sid).May Q (Harness.emitEvent id type payload) (w, m) := by
  obtain ⟨w', e, emitted, crowded'⟩ := crowded.emit id type fits
  have performed : w.perform agents (.emitEvent id type payload) .done = some (w', .ok e) :=
    congrArg some emitted
  exact may_perform .done performed (holds w' e crowded')

theorem may_read {Q : List Event → World × CallMemory → Prop} (full : users.length = 1000)
    (crowded : Crowded users w)
    (holds : ∀ w', Crowded users w' → Q users (w', m.note ⟨.getEvents, .done, .ok users⟩)) :
    (reuseProcess rt agents sid).May Q Harness.readPage (w, m) := by
  have page : w.session.events.take 1000 = users := by
    rw [← full]
    exact (List.prefix_iff_eq_take.mp crowded.early).symm
  have performed : w.perform agents .getEvents .done =
      some ({ w with lastRead := ⟨w.session.events, users⟩ }, .ok users) := by
    rw [← page]
    exact congrArg some w.read_eq
  exact may_perform .done performed (holds _ ⟨crowded.active, crowded.early⟩)

/-- What is performed for a sandbox when the page shows none. -/
def anew (page : List Event) (id : String) (e : Event) : List Performed :=
  [⟨.getEvents, .done, .ok page⟩, ⟨.sandboxProvision .default, .provisions id, .ok id⟩,
    ⟨.addProvisioned id, .done, .ok ()⟩, ⟨.emitEvent (.sandboxProvisioned "s" id) .systemEvent
      (provisionedPayload id SandboxRecipe.default.runtime), .done, .ok e⟩]

/-- However many sandboxes the session has had, a page without a record leads to a new one. -/
theorem getOrProvisionSandbox_may {profile : Profile} (id : String) {before : Option String}
    (full : users.length = 1000) (recordless : latestSandboxId users = none)
    (short : (provisionedPayload id SandboxRecipe.default.runtime).byteLength ≤ maxPayloadBytes)
    (crowded : Crowded users w) :
    (reuseProcess (.boxed profile) agents "s").May
      (fun a s => id = a ∧ Crowded users s.1 ∧ ∃ e, s.2 = ⟨before, anew users id e⟩)
      (getOrProvisionSandbox (.boxed profile) "s" agent) (w, ⟨before, []⟩) := by
  refine May.bind (Q := fun page s => users = page ∧ Crowded users s.1 ∧
    s.2 = ⟨before, [⟨.getEvents, .done, .ok users⟩]⟩) ?_ ?_
  · exact may_read full crowded fun w' crowded' => ⟨rfl, crowded', rfl⟩
  rintro _ ⟨w₁, _⟩ ⟨rfl, crowded₁, rfl⟩
  rw [recordless]
  refine May.bind (f := fun newId => (Harness.addProvisioned newId).bind fun _ =>
    (Harness.emitEvent (.sandboxProvisioned "s" newId) .systemEvent
      (provisionedPayload newId SandboxRecipe.default.runtime)).bind fun _ => .pure newId)
    (may_perform (o := .sandboxProvision .default) (.provisions id) rfl
      (Q := fun a s => id = a ∧ s = (w₁, _)) ⟨rfl, rfl⟩) ?_
  rintro _ _ ⟨rfl, rfl⟩
  refine May.bind (may_perform (o := .addProvisioned id) .done rfl
    (Q := fun _ s => s = (w₁.addProvisioned id, _)) rfl) ?_
  rintro _ _ rfl
  refine May.bind (Q := fun _ s => Crowded users s.1 ∧ ∃ e, s.2 = ⟨before, anew users id e⟩) ?_
    fun _ s holds => .pure ⟨rfl, holds⟩
  exact may_emit (w := w₁.addProvisioned id) ⟨crowded₁.active, crowded₁.early⟩ short
    fun w' e crowded' => ⟨crowded', e, rfl⟩

/-- A call of `bash`. -/
def commandCall (id : EventId) (toolId : String) : PendingEvent :=
  ⟨id, .toolCall, toolCallPayload toolId "bash" []⟩

variable {builtin proxy : String → Option ToolDef}

theorem streamCall_may {Q : TurnState → World × CallMemory → Prop} {failure : Option Exn}
    {chunks : List ModelChunk} {st : TurnState} {toolId : String} {index : Nat}
    (short : (toolCallPayload toolId "bash" []).byteLength ≤ maxPayloadBytes)
    (crowded : Crowded users w)
    (rest : ∀ w' m' id, Crowded users w' → m'.Idle → (reuseProcess rt agents sid).May Q
      (streamChunks (vanillaAdapter builtin proxy) failure chunks
        { st with toolCalls := st.toolCalls ++ [commandCall id toolId] }) (w', m')) :
    (reuseProcess rt agents sid).May Q (streamChunks (vanillaAdapter builtin proxy) failure
      (.toolCallEnd toolId "bash" [] index :: chunks) st) (w, m) := by
  refine May.bind (may_perform (o := .uuid4) .done rfl
    (Q := fun id s => (∃ n, id = .uuid4 n) ∧ Crowded users s.1)
    ⟨⟨_, rfl⟩, crowded.active, crowded.early⟩) ?_
  rintro _ ⟨w₁, m₁⟩ ⟨⟨n, rfl⟩, crowded₁⟩
  refine May.bind (may_emit crowded₁ short (Q := fun _ s => Crowded users s.1 ∧ s.2.Idle) ?_) ?_
  · exact fun w' e crowded' => ⟨crowded', CallMemory.idle_note rfl⟩
  · rintro _ ⟨w₂, m₂⟩ ⟨crowded₂, idle⟩
    exact rest w₂ m₂ (.uuid4 n) crowded₂ idle

/-- The calls of the turn. -/
def commandCalls (i j : EventId) : List PendingEvent :=
  [commandCall i "t1", commandCall j "t2"]

theorem runTurn_may {messages : List Message} {tools : List ToolDef} (crowded : Crowded users w) :
    (reuseProcess rt agents sid).May
      (fun st s => Crowded users s.1 ∧ s.2.Idle ∧ ∃ i j, st = ⟨[], commandCalls i j, none, false⟩)
      (runTurn (vanillaAdapter builtin proxy) messages tools) (w, m) := by
  refine May.bind (may_perform (o := .complete messages _) (.streams twoCommands) rfl
    (Q := fun a s => twoCommands = a ∧ Crowded users s.1) ⟨rfl, crowded.active, crowded.early⟩) ?_
  rintro _ ⟨w₁, m₁⟩ ⟨rfl, crowded₁⟩
  refine May.bind (Q := fun st s => Crowded users s.1 ∧ s.2.Idle ∧
    ∃ i j, st = ⟨[], commandCalls i j, none, false⟩) ?_ ?_
  · refine streamCall_may (by decide) crowded₁ fun w₂ m₂ i crowded₂ _ => ?_
    refine streamCall_may (by decide) crowded₂ fun w₃ m₃ j crowded₃ idle => ?_
    exact .pure ⟨crowded₃, idle, i, j, rfl⟩
  · rintro _ ⟨w₂, m₂⟩ ⟨crowded₂, idle, i, j, rfl⟩
    exact .pure ⟨crowded₂, idle, i, j, rfl⟩

/-- The first call is answered from a new sandbox. -/
theorem answerCall_may {profile : Profile} {call : EventId} {toolId : String}
    (full : users.length = 1000) (recordless : latestSandboxId users = none)
    (idle : m.Idle) (crowded : Crowded users w) :
    (reuseProcess (.boxed profile) agents "s").May
      (fun _ s => Crowded users s.1 ∧ s.2 = ⟨some "c1", []⟩)
      ((toolPayload (.boxed profile) "s" agent (commandCall call toolId)).bind fun payload =>
        (Harness.emitEvent (.toolResult call) .toolResult payload).bind fun _ => .pure ())
          (w, m) := by
  obtain ⟨before, mine⟩ := m
  obtain rfl : mine = [] := idle
  refine May.bind (Q := fun payload s => Crowded users s.1 ∧ s.2.latest = some "c1" ∧
    payload.byteLength ≤ maxPayloadBytes) ?_ ?_
  · change (reuseProcess (.boxed profile) agents "s").May _
      (runSandboxTool (.boxed profile) "s" agent (commandCall call toolId) "bash" []) _
    refine May.bind (.attempt (getOrProvisionSandbox_may "c1" full recordless
      (by decide) crowded)) ?_
    rintro _ ⟨w₁, m₁⟩ ⟨_, rfl, rfl, crowded₁, e, rfl⟩
    refine May.bind (.attempt (may_perform (o := .sandboxExecute "c1" "bash" [])
      (.results (bashPrints "")) rfl (Q := fun r s => r = bashPrints "" ∧ Crowded users s.1 ∧
        s.2.latest = some "c1") ⟨rfl, crowded₁, rfl⟩)) ?_
    rintro _ ⟨w₂, m₂⟩ ⟨_, rfl, rfl, crowded₂, latest⟩
    refine .pure ⟨crowded₂, latest, ?_⟩
    have size : (sandboxResultPayload (commandCall call toolId) "bash" "c1"
        (bashPrints "")).byteLength = 190 := rfl
    rw [size]
    decide
  · rintro payload ⟨w₁, m₁⟩ ⟨crowded₁, latest, fits⟩
    refine May.bind (may_emit crowded₁ fits
      (Q := fun _ s => Crowded users s.1 ∧ s.2 = ⟨some "c1", []⟩) ?_) fun _ s holds => .pure holds
    intro w' e crowded'
    have closed : m₁.note ⟨.emitEvent (.toolResult call) .toolResult payload, .done, .ok e⟩ =
        ⟨m₁.latest, []⟩ := CallMemory.note_of_closes rfl
    rw [latest] at closed
    exact ⟨crowded', closed⟩

theorem readEvents_may (full : users.length = 1000) (crowded : Crowded users w) :
    (reuseProcess rt agents "s").May (fun events s => users = events ∧ Crowded users s.1)
      (readEvents "s" .roomy) (w, m) := by
  refine May.bind (may_read full crowded (Q := fun page s => users = page ∧ Crowded users s.1)
    fun w' crowded' => ⟨rfl, crowded'⟩) ?_
  rintro _ ⟨w₁, m₁⟩ ⟨rfl, crowded₁⟩
  rw [if_pos (shouldCompact_roomy _), emitCompaction_roomy full.le]
  exact may_read full crowded₁ fun w' crowded' => ⟨rfl, crowded'⟩

theorem latestSandboxId_of_users {contents : List String}
    (said : List.Forall₂ Event.utters users contents) : latestSandboxId users = none := by
  refine List.findSome?_eq_none_iff.mpr fun e mem => if_neg fun both => ?_
  obtain ⟨i, at'⟩ := List.mem_iff_get.mp (List.mem_reverse.mp mem)
  have message := (said.get i.2 (said.length_eq ▸ i.2)).1
  rw [← at'] at both
  exact absurd (message.symm.trans both.1) (by rintro ⟨⟩)

/-- The tool of the second call is about to run in a second sandbox. -/
def Renewing (users : List Event) (c : ReuseConfig) : Prop :=
  ∃ tool input k e, c.program = some (.op (.sandboxExecute "c2" tool input) k) ∧
    c.state.2 = ⟨some "c1", anew users "c2" e⟩

theorem runTurns_leads {K : Harness StopReason → Harness Unit} {start : World × CallMemory → Prop}
    {turns n : Nat} (context : Context K) (crowded : Crowded users w)
    (full : users.length = 1000)
    (said : List.Forall₂ Event.utters users (List.replicate (n + 1) "hello")) :
    ((reuseProcess (.boxed .roomy) agents "s").system start).Leads (Renewing users)
      ⟨(w, m), some (K (runTurns (.boxed .roomy) "s" (.plain none) .roomy
        (vanillaAdapter builtin proxy) 0 (turns + 1)))⟩ := by
  have recordless := latestSandboxId_of_users said
  change Transition.System.Leads _ _
    (⟨_, some (K ((readEvents "s" .roomy).bind _))⟩ : ReuseConfig)
  refine May.leads (K := fun p => K (p.bind _)) (context.bind _) (readEvents_may full crowded) ?_
  rintro _ ⟨w₁, m₁⟩ ⟨rfl, crowded₁⟩
  change Transition.System.Leads _ _ (⟨_, some (K (ite ((foldContext (applyCompactionView
    users)).any _ = false) _ _))⟩ : ReuseConfig)
  rw [if_neg]
  · refine May.leads (K := fun p => K (p.bind _)) (context.bind _) (runTurn_may crowded₁) ?_
    rintro _ ⟨w₂, m₂⟩ ⟨crowded₂, idle, i, j, rfl⟩
    change Transition.System.Leads _ _ (⟨_, some (K ((((Program.bind _ _)).bind fun _ =>
      Program.forEach [commandCall j "t2"] _).bind _))⟩ : ReuseConfig)
    refine May.leads (K := fun p => K ((p.bind _).bind _)) ((context.bind _).bind _)
      (answerCall_may full recordless idle crowded₂) ?_
    rintro _ ⟨w₃, _⟩ ⟨crowded₃, rfl⟩
    change Transition.System.Leads _ _ (⟨_, some (K ((((((getOrProvisionSandbox _ _ _).attempt.bind
      _).bind _).bind _)).bind _))⟩ : ReuseConfig)
    refine May.leads (K := fun p => K (((((p.attempt.bind _).bind _).bind _)).bind _))
      (((((context.bind _).bind _).bind _).bind _).attempt)
      (getOrProvisionSandbox_may "c2" full recordless (by decide) crowded₃) ?_
    rintro _ ⟨w₄, _⟩ ⟨rfl, crowded₄, e, rfl⟩
    exact .here ⟨"bash", [], _, e,
      congrArg some (context (.sandboxExecute "c2" "bash" []) _), rfl⟩
  · rw [applyCompactionView_of_users said, foldContext_users said]
    simp [List.replicate_succ]

theorem Serves.status_mem {page : List Event} {old id : String} {mine : List Performed}
    (h : Serves sid page (some old) mine id) : ∃ x ∈ mine, x.op = .sandboxStatus old := by
  cases h with
  | reused live => exact ⟨_, .tail _ (.head _), rfl⟩
  | renewed asked =>
      cases asked with
      | gone dead => exact ⟨_, .tail _ (.head _), rfl⟩

/-- A thousand messages into a session, its second tool call is not run in the sandbox of its
first one, which nobody has asked about. -/
theorem forgets_sandbox : ∃ c : ReuseConfig,
    (reuseSystem (.boxed .roomy) (fun _ => some (.plain none)) "s" "agent").Reachable c ∧
      ¬ KeepsSandbox (.boxed .roomy) (fun _ => some (.plain none)) "s" c := by
  obtain ⟨w, reachable, active, -, said⟩ := @crowd_reachable (.boxed .roomy)
    (fun _ => some (.plain none)) "s" "agent" "hello" 1000 (by decide)
  obtain ⟨⟨⟨w₁, m⟩, program⟩, same, reachable'⟩ := Process.reachable_recording_iff.mp
    (reachable.extend (later_plainTurns rfl active))
  cases same
  have crowded : Crowded w.session.events w.boot := ⟨active, List.prefix_rfl⟩
  obtain ⟨c, later, tool, input, k, e, running, memory⟩ := runTurns_leads
    (K := fun p => (p.tryFinally _).bind _) (fun _ _ => rfl) crowded
    (said.length_eq.trans (List.length_replicate ..)) said
  refine ⟨c, reachable'.extend later, fun keeps => ?_⟩
  obtain ⟨⟨page, serves⟩, -⟩ := keeps.runs "c2" tool input k running
  rw [memory] at serves
  obtain ⟨x, mem, asked⟩ := serves.status_mem
  simp only [anew, List.mem_cons, List.not_mem_nil, or_false] at mem
  rcases mem with rfl | rfl | rfl | rfl <;> cases asked

end Forgotten

end Tename
