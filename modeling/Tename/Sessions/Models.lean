import Mathlib.Data.List.Basic

/-!
# Domain models of the Session Service

The public types of `sessions/models.py` and the exceptions of
`sessions/exceptions.py`. A session is a row and an append-only list of
events; an event carries a client-supplied id, a sequence number, a kind and a
JSON payload.

Identifiers are symbolic. A random id is the number of its draw, and a
name-derived id (`uuid5`) is the name it is derived from, so equal ids have
equal origins. Session and agent ids are their canonical text. The tenant and
the timestamps of a row are left out: no modelled decision reads them.
-/

namespace Tename

/-- The canonical text of a session's UUID. -/
abbrev SessionId := String

/-- The canonical text of an agent's UUID. -/
abbrev AgentId := String

/-- Event ids by origin: `uuid4()` draws and the runtime's `uuid5` names. -/
inductive EventId where
  | uuid4 (draw : Nat)
  | systemPrompt (session : SessionId)
  | sandboxProvisioned (session : SessionId) (sandbox : String)
  | compaction (session : SessionId) (dropped : List Nat)
  | toolResult (call : EventId)
  deriving DecidableEq, Repr

/-- JSON values. A float is its shortest representation; `uuid` is the text of
an event id, which only `tool_call_id` fields hold. -/
inductive Json where
  | null
  | bool (value : Bool)
  | int (value : Int)
  | float (repr : String)
  | str (value : String)
  | uuid (id : EventId)
  | arr (items : List Json)
  | obj (fields : List (String × Json))

/-- A `dict[str, Any]` whose values are JSON. -/
abbrev Payload := List (String × Json)

namespace Payload

/-- `payload.get(key)`. -/
def get? (payload : Payload) (key : String) : Option Json :=
  payload.lookup key

/-- `payload.get(key, default)`. -/
def getD (payload : Payload) (key : String) (default : Json) : Json :=
  (payload.get? key).getD default

/-- `payload[key] = value`. -/
def set (payload : Payload) (key : String) (value : Json) : Payload :=
  if payload.any (·.1 = key) then
    payload.map fun field => if field.1 = key then (key, value) else field
  else payload ++ [(key, value)]

/-- `payload.setdefault(key, value)`. -/
def setDefault (payload : Payload) (key : String) (value : Json) : Payload :=
  if payload.any (·.1 = key) then payload else payload ++ [(key, value)]

theorem get?_cons (field : String × Json) (payload : Payload) (key : String) :
    get? (field :: payload) key = if field.1 = key then some field.2 else payload.get? key := by
  obtain ⟨k, v⟩ := field
  by_cases same : k = key
  · simp [get?, same]
  · have other : (key == k) = false := by simpa using fun h : key = k => same h.symm
    simp [get?, List.lookup_cons, other, same]

theorem get?_append (payload payload' : Payload) (key : String) :
    get? (payload ++ payload') key = (payload.get? key).or (payload'.get? key) := by
  induction payload with
  | nil => simp [get?]
  | cons field payload ih =>
      rw [List.cons_append, get?_cons, get?_cons, ih]
      split <;> simp

theorem get?_eq_none_iff {payload : Payload} {key : String} :
    payload.get? key = none ↔ payload.any (·.1 = key) = false := by
  induction payload with
  | nil => simp [get?]
  | cons field payload ih =>
      rw [get?_cons]
      by_cases same : field.1 = key
      · simp [same]
      · simpa [same] using ih

theorem get?_map_set (payload : Payload) (key key' : String) (value : Json) :
    Payload.get? (payload.map fun field => if field.1 = key then (key, value) else field) key' =
      if key' = key then (payload.get? key).map fun _ => value else payload.get? key' := by
  induction payload with
  | nil => simp [get?]
  | cons field payload ih =>
      rw [List.map_cons, get?_cons, get?_cons, get?_cons, ih]
      by_cases same : field.1 = key
      · by_cases here : key' = key
        · simp [same, here]
        · simp [same, here, Ne.symm here]
      · by_cases here : key' = key
        · simp [same, here]
        · simp [same, here]

/-- A field that has been set is read back, and the others are as they were. -/
theorem get?_set (payload : Payload) (key key' : String) (value : Json) :
    (payload.set key value).get? key' = if key' = key then some value else payload.get? key' := by
  unfold set
  split
  · rename_i present
    have some' : payload.get? key ≠ none := by
      rw [ne_eq, get?_eq_none_iff, present]
      decide
    obtain ⟨old, given⟩ := Option.ne_none_iff_exists'.mp some'
    rw [get?_map_set, given]
    rfl
  · rename_i absent
    have none' : payload.get? key = none := get?_eq_none_iff.mpr (Bool.not_eq_true _ ▸ absent)
    rw [get?_append, get?_cons]
    by_cases here : key' = key
    · simp [here, none']
    · simp [here, Ne.symm here, get?]

theorem mem_set {payload : Payload} {key : String} {value : Json} {field : String × Json}
    (h : field ∈ payload.set key value) : field = (key, value) ∨ field ∈ payload := by
  unfold set at h
  split at h
  · obtain ⟨field', mem, rfl⟩ := List.mem_map.mp h
    split
    · exact .inl rfl
    · exact .inr mem
  · rcases List.mem_append.mp h with mem | mem
    · exact .inr mem
    · exact .inl (List.mem_singleton.mp mem)

theorem mem_set_self (payload : Payload) (key : String) (value : Json) :
    (key, value) ∈ payload.set key value := by
  unfold set
  split
  · rename_i present
    obtain ⟨field, mem, same⟩ := List.any_eq_true.mp present
    exact List.mem_map.mpr ⟨field, mem, if_pos (of_decide_eq_true same)⟩
  · exact List.mem_append.mpr (.inr (.head _))

theorem mem_set_of_ne {payload : Payload} {key : String} {value : Json} {field : String × Json}
    (mem : field ∈ payload) (other : field.1 ≠ key) : field ∈ payload.set key value := by
  unfold set
  split
  · exact List.mem_map.mpr ⟨field, mem, if_neg other⟩
  · exact List.mem_append.mpr (.inl mem)

theorem get?_setDefault (payload : Payload) (key key' : String) (value : Json) :
    (payload.setDefault key value).get? key' =
      if key' = key then some ((payload.get? key).getD value) else payload.get? key' := by
  unfold setDefault
  split
  · rename_i present
    have some' : payload.get? key ≠ none := by
      rw [ne_eq, get?_eq_none_iff, present]
      decide
    obtain ⟨old, given⟩ := Option.ne_none_iff_exists'.mp some'
    by_cases here : key' = key
    · simp [here, given]
    · simp [here]
  · rename_i absent
    have none' : payload.get? key = none := get?_eq_none_iff.mpr (Bool.not_eq_true _ ▸ absent)
    rw [get?_append, get?_cons]
    by_cases here : key' = key
    · simp [here, none']
    · simp [here, Ne.symm here, get?]

end Payload

namespace Json

def isNull : Json → Bool
  | .null => true
  | _ => false

/-- `value if isinstance(value, str) else None`. -/
def str? : Json → Option String
  | .str s => some s
  | _ => none

/-- An integer, `True` and `False` included: a Boolean is an `int`. -/
def int? : Json → Option Int
  | .int n => some n
  | .bool b => some (if b then 1 else 0)
  | _ => none

/-- Python truth of a JSON value. -/
def truthy : Json → Bool
  | .null => false
  | .bool b => b
  | .int n => n != 0
  | .float r => r != "0.0" && r != "-0.0"
  | .str s => s != ""
  | .uuid _ => true
  | .arr xs => !xs.isEmpty
  | .obj fields => !fields.isEmpty

/-- Size of one character inside a JSON string that keeps non-ASCII text, for
the size `w` of a character written as itself. -/
def escapedSize (w : Char → Nat) (c : Char) : Nat :=
  if c = '"' ∨ c = '\\' ∨ c = '\n' ∨ c = '\r' ∨ c = '\t' ∨ c.val = 8 ∨ c.val = 12 then 2
  else if c.val < 32 then 6
  else w c

def strSize (w : Char → Nat) (s : String) : Nat :=
  s.toList.foldl (fun size c => size + escapedSize w c) 2

mutual

/-- Size of `json.dumps(value, ensure_ascii=False)`, each character counted by `w`. -/
def dumpsSize (w : Char → Nat) : Json → Nat
  | .null => 4
  | .bool true => 4
  | .bool false => 5
  | .int n => (toString n).length
  | .float r => r.length
  | .str s => strSize w s
  | .uuid _ => 38
  | .arr xs => 2 + itemsSize w xs
  | .obj fields => 2 + fieldsSize w fields

/-- Items of an array with the `", "` between them. -/
def itemsSize (w : Char → Nat) : List Json → Nat
  | [] => 0
  | [x] => dumpsSize w x
  | x :: xs => dumpsSize w x + 2 + itemsSize w xs

/-- Fields of an object with the `": "` in them and the `", "` between them. -/
def fieldsSize (w : Char → Nat) : List (String × Json) → Nat
  | [] => 0
  | [(k, x)] => strSize w k + 2 + dumpsSize w x
  | (k, x) :: fields => strSize w k + 2 + dumpsSize w x + 2 + fieldsSize w fields

end

/-- Text without U+0000. -/
def textStorable (s : String) : Bool :=
  s.toList.all (·.val ≠ 0)

mutual

/-- What the payload column takes: JSON proper, without U+0000. -/
def storable : Json → Bool
  | .float r => r ∉ ["NaN", "Infinity", "-Infinity"]
  | .str s => textStorable s
  | .arr xs => itemsStorable xs
  | .obj fields => fieldsStorable fields
  | _ => true

def itemsStorable : List Json → Bool
  | [] => true
  | x :: xs => storable x && itemsStorable xs

def fieldsStorable : List (String × Json) → Bool
  | [] => true
  | (k, x) :: fields => textStorable k && storable x && fieldsStorable fields

end

end Json

/-- The payload column takes the payload. -/
def Payload.storable (payload : Payload) : Bool :=
  Json.storable (.obj payload)

/-- `len(json.dumps(payload, ensure_ascii=False))`. -/
def Payload.length (payload : Payload) : Nat :=
  Json.dumpsSize (fun _ => 1) (.obj payload)

/-- `len(json.dumps(payload, ensure_ascii=False).encode("utf-8"))`. -/
def Payload.byteLength (payload : Payload) : Nat :=
  Json.dumpsSize Char.utf8Size (.obj payload)

inductive SessionStatus where
  | active
  | completed
  | failed
  | deleted
  deriving DecidableEq, Repr

def SessionStatus.value : SessionStatus → String
  | .active => "active"
  | .completed => "completed"
  | .failed => "failed"
  | .deleted => "deleted"

/-- `TERMINAL_STATUSES`: waking a session in one of these is an error. -/
def terminalStatuses : List SessionStatus :=
  [.completed, .failed, .deleted]

inductive EventType where
  | userMessage
  | assistantMessage
  | toolCall
  | toolResult
  | harnessEvent
  | systemEvent
  | error
  deriving DecidableEq, Repr

/-- Reusable agent configuration, as the runtime reads it. -/
structure Agent where
  id : AgentId
  model : String
  framework : String
  systemPrompt : Option String
  tools : List String
  sandboxRecipe : Option Payload

/-- A session row. -/
structure Session where
  id : SessionId
  agentId : AgentId
  status : SessionStatus
  lastSequence : Nat
  metadata : Payload

def Session.isTerminal (s : Session) : Bool :=
  s.status ∈ terminalStatuses

/-- Append-only record of one happening within a session. -/
structure Event where
  id : EventId
  sessionId : SessionId
  sequence : Nat
  type : EventType
  payload : Payload

/-- Exceptions by class. `cancelledError` is the one `except Exception` lets
pass, `timeoutError` the builtin one; `other` stands for the other exceptions of
services outside the repository. -/
inductive Exn where
  | validationError (message : String)
  | notFoundError (message : String)
  | failedPreconditionError (message : String)
  | runtimeError (message : String)
  | databaseError (message : String)
  | cancelledError
  | timeoutError (message : String)
  | other (message : String)
  deriving DecidableEq, Repr

namespace Exn

/-- `str(exc)`. -/
def message : Exn → String
  | .validationError m | .notFoundError m | .failedPreconditionError m | .runtimeError m
  | .databaseError m | .timeoutError m | .other m => m
  | .cancelledError => ""

/-- `isinstance(exc, Exception)`. -/
def isException (e : Exn) : Bool :=
  e != .cancelledError

/-- `isinstance(exc, TimeoutError)`. -/
def isTimeout : Exn → Bool
  | .timeoutError _ => true
  | _ => false

end Exn

@[simp] theorem mem_terminalStatuses {s : SessionStatus} :
    s ∈ terminalStatuses ↔ s ≠ .active := by
  cases s <;> decide

theorem Session.isTerminal_iff {s : Session} : s.isTerminal = true ↔ s.status ≠ .active := by
  simp [Session.isTerminal]

end Tename
