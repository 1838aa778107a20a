import Tename.Sessions.Idempotency
import Tename.Sessions.Service

/-!
# Readers beside concurrent emitters

A reader polls a session: it asks for the events after the last one it got, under
a type filter of its own and with whatever limit. `get_events` is one statement,
so it sees the rows committed at that moment. Because the events of a session are
committed in the order of their sequences, what was visible to a reader is always
the beginning of what is visible later, and the pages add up to a prefix of the
filtered log.
-/

namespace Tename

/-- The committed events of a session that pass a type filter; the empty filter is none. -/
def Database.filtered (db : Database) (sid : SessionId) (types : List EventType) : List Event :=
  (db.eventsOf sid).filter fun e => types.isEmpty || types.contains e.type

theorem Database.Dense.sorted {db : Database} {sid : SessionId} (h : db.Dense sid) :
    (db.eventsOf sid).Pairwise fun a b => a.sequence < b.sequence := by
  have sorted : ((db.eventsOf sid).map Event.sequence).Pairwise (· < ·) := by
    rw [h.sequences]
    exact List.pairwise_lt_range'
  exact List.pairwise_map.mp sorted

theorem Database.Dense.one_le {db : Database} {sid : SessionId} {e : Event} (h : db.Dense sid)
    (mem : e ∈ db.eventsOf sid) : 1 ≤ e.sequence := by
  have listed : e.sequence ∈ List.range' 1 (db.lastSequence sid) := by
    rw [← h.sequences]
    exact List.mem_map_of_mem mem
  exact (List.mem_range'_1.mp listed).1

/-- The sequence of the last event of a list; zero where there is none. -/
def lastOf (events : List Event) : Nat :=
  (events.getLast?.map Event.sequence).getD 0

/-- In ascending rows, the events past a prefix are the rest. -/
theorem filter_past_prefix {past rest : List Event}
    (sorted : (past ++ rest).Pairwise fun a b => a.sequence < b.sequence)
    (positive : ∀ e ∈ past ++ rest, 1 ≤ e.sequence) :
    (past ++ rest).filter (fun e => decide (lastOf past + 1 ≤ e.sequence)) = rest := by
  obtain ⟨sorted, _, apart⟩ := List.pairwise_append.mp sorted
  have before : ∀ e ∈ past, ¬ lastOf past + 1 ≤ e.sequence := by
    rcases List.eq_nil_or_concat past with rfl | ⟨init, last, rfl⟩
    · simp
    · rw [List.concat_eq_append] at sorted ⊢
      intro e mem
      have at' : lastOf (init ++ [last]) = last.sequence := by simp [lastOf]
      rcases List.mem_append.mp mem with old | new
      · have less := (List.pairwise_append.mp sorted).2.2 e old last (List.mem_singleton_self last)
        omega
      · rw [List.mem_singleton.mp new]
        omega
  have after : ∀ e ∈ rest, lastOf past + 1 ≤ e.sequence := by
    intro e mem
    rcases List.eq_nil_or_concat past with rfl | ⟨init, last, rfl⟩
    · exact positive e (List.mem_append_right _ mem)
    · rw [List.concat_eq_append] at apart ⊢
      have at' : lastOf (init ++ [last]) = last.sequence := by simp [lastOf]
      have less := apart last (List.mem_append_right _ (List.mem_singleton_self last)) e mem
      omega
  rw [List.filter_append, List.filter_eq_nil_iff.mpr (by simpa using before),
    List.filter_eq_self.mpr (by simpa using after), List.nil_append]

/-- A reader of one session, beside the service: the pages it got so far, concatenated. -/
structure Reader where
  store : Store
  returned : List Event

inductive ReaderAction where
  /-- A step of the service, for whichever caller. -/
  | service (a : StoreAction)
  /-- `get_events(session_id, start=last + 1, types=types, limit=limit)`. -/
  | getEvents (limit : Int)

namespace Reader

variable (hash : SessionId → Nat) (sid : SessionId) (types : List EventType)

/-- The next page. -/
def nextPage (r : Reader) (limit : Int) : Except Exn (List Event) :=
  getEvents (r.store.db.eventsOf sid) (some (lastOf r.returned + 1)) none types limit

def step (r : Reader) : ReaderAction → Option Reader
  | .service a => (r.store.step hash a).map fun s => { r with store := s }
  | .getEvents limit =>
      match r.nextPage sid types limit with
      | .ok page => some { r with returned := r.returned ++ page }
      | .error _ => some r

/-- All runs of the service with one reader beside it. -/
def system : Transition.System Reader ReaderAction where
  initial r := r = ⟨.empty, []⟩
  step := step hash sid types

/-- What the reader has got is a prefix of what is committed. -/
structure Reads (r : Reader) : Prop where
  serialized : r.store.Serialized hash
  prefix' : r.returned <+: r.store.db.filtered sid types

variable {hash sid types} {r r' : Reader}

/-- The next page is the next part of the filtered log. -/
theorem Reads.nextPage (h : r.Reads hash sid types) {limit : Int} (positive : 1 ≤ limit) :
    r.nextPage sid types limit =
      .ok (((r.store.db.filtered sid types).drop r.returned.length).take
        (min limit maxEventsLimit).toNat) := by
  obtain ⟨rest, split⟩ := h.prefix'
  have dense := h.serialized.dense sid
  have bound : ¬ limit < 1 := by omega
  have start : ¬ (lastOf r.returned : Int) + 1 < 1 := by omega
  have cursor : ((lastOf r.returned : Int) + 1).toNat = lastOf r.returned + 1 := by omega
  have past : (r.store.db.filtered sid types).filter
      (fun e => decide (lastOf r.returned + 1 ≤ e.sequence)) = rest := by
    rw [← split]
    refine filter_past_prefix ?_ fun e mem => ?_
    · rw [split]
      exact dense.sorted.filter _
    · rw [split] at mem
      exact dense.one_le (List.mem_of_mem_filter mem)
  simp only [Reader.nextPage, getEvents, bound, if_false, Option.getD_some, start, cursor]
  rw [SessionState.selectEvents_of_sorted dense.sorted, ← split, List.drop_left, ← past,
    Database.filtered, List.filter_filter]
  simp only [Option.all_none, Bool.and_true]

/-- A page extends the prefix. -/
theorem Reads.getEvents (h : r.Reads hash sid types) {limit : Int} {page : List Event}
    (got : r.nextPage sid types limit = .ok page) :
    Reads hash sid types { r with returned := r.returned ++ page } := by
  have positive : 1 ≤ limit := by
    by_contra small
    have small : limit < 1 := by omega
    simp [Reader.nextPage, Tename.getEvents, small] at got
  rw [h.nextPage positive] at got
  obtain rfl := Except.ok.inj got
  obtain ⟨rest, split⟩ := h.prefix'
  refine ⟨h.serialized, ?_⟩
  change r.returned ++ _ <+: _
  rw [← split, List.drop_left, List.prefix_append_right_inj]
  exact List.take_prefix _ _

/-- The visible events only grow at their end. -/
theorem filtered_of_service {s s' : Store} {a : StoreAction} (stepped : s.step hash a = some s') :
    s.db.filtered sid types <+: s'.db.filtered sid types :=
  ((Store.step_extends_events stepped).filter _).filter _

theorem Reads.step {a : ReaderAction} (h : r.Reads hash sid types)
    (stepped : r.step hash sid types a = some r') : r'.Reads hash sid types := by
  cases a with
  | service a =>
      obtain ⟨s, moved, rfl⟩ := Option.map_eq_some_iff.mp stepped
      exact ⟨h.serialized.step moved, h.prefix'.trans (filtered_of_service moved)⟩
  | getEvents limit =>
      simp only [Reader.step] at stepped
      split at stepped
      · rename_i page got
        obtain rfl := Option.some.inj stepped
        exact h.getEvents got
      · obtain rfl := Option.some.inj stepped
        exact h

theorem reads_of_reachable (reachable : (system hash sid types).Reachable r) :
    r.Reads hash sid types := by
  refine reachable.invariant (fun _ initial => ?_) fun _ _ _ holds _ stepped => holds.step stepped
  rw [initial]
  exact ⟨Store.serialized_empty, List.nil_prefix⟩

/-- The rows of the session only grow at their end. -/
theorem later_extends (later : (system hash sid types).Later r r') :
    r.store.db.events <+: r'.store.db.events := by
  refine later.relates (R := fun r r' => r.store.db.events <+: r'.store.db.events)
    (fun _ => List.prefix_refl _) (fun _ _ _ => List.IsPrefix.trans) fun u a u' _ stepped => ?_
  cases a with
  | service a =>
      obtain ⟨s, moved, rfl⟩ := Option.map_eq_some_iff.mp stepped
      exact Store.step_extends_events moved
  | getEvents limit =>
      have stepped : Reader.step hash sid types u (.getEvents limit) = some u' := stepped
      simp only [Reader.step] at stepped
      split at stepped <;> cases stepped <;> exact List.prefix_refl _

/-- The pages of a reader are a prefix of the filtered log at any later moment, in ascending
order, and no event appears behind one that was visible before it. -/
theorem pages_begin_log (reachable : (system hash sid types).Reachable r)
    (later : (system hash sid types).Later r r') :
    (∀ limit, 1 ≤ limit → ∃ page, r.nextPage sid types limit = .ok page) ∧
    r.returned <+: r'.store.db.filtered sid types ∧
    (r.returned.Pairwise fun a b => a.sequence < b.sequence) ∧
    ∀ e ∈ r.store.db.eventsOf sid, ∀ e' ∈ r'.store.db.eventsOf sid,
      e'.sequence < e.sequence → e' ∈ r.store.db.eventsOf sid := by
  have reads := reads_of_reachable reachable
  have reads' := reads_of_reachable (reachable.extend later)
  have grown := later_extends later
  refine ⟨fun limit positive => ⟨_, reads.nextPage positive⟩, ?_, ?_, ?_⟩
  · exact reads.prefix'.trans ((grown.filter _).filter _)
  · exact ((reads.serialized.dense sid).sorted.filter _).sublist reads.prefix'.sublist
  · intro e mem e' mem' before
    obtain ⟨tail, split⟩ := grown.filter (·.sessionId = sid)
    have split : r.store.db.eventsOf sid ++ tail = r'.store.db.eventsOf sid := split
    rw [← split] at mem'
    rcases List.mem_append.mp mem' with old | new
    · exact old
    · have sorted := (reads'.serialized.dense sid).sorted
      rw [← split] at sorted
      have past := (List.pairwise_append.mp sorted).2.2 e mem e' new
      omega

/-- Two emitters; the second one is at its commit. -/
def twoEmitters : List StoreAction :=
  [.createSession "s" "a" [],
    .emitEvent 0 ⟨"s", .uuid4 0, .userMessage, [("content", .str "hello")]⟩,
    .emitEvent 1 ⟨"s", .uuid4 1, .assistantMessage, [("content", .str "again")]⟩] ++
  List.replicate 6 (.statement 0) ++ List.replicate 5 (.statement 1)

/-- A reader of assistant messages polls before and after that commit. -/
def pollSchedule : List ReaderAction :=
  twoEmitters.map .service ++ [.getEvents 1, .service (.statement 1), .getEvents 2]

theorem pages_begin_log_poll : ∃ r : Reader,
    (system (fun _ => 0) "s" [.assistantMessage]).run ⟨.empty, []⟩ pollSchedule = some r ∧
    (r.returned.map Event.sequence) = [2] ∧
    r.returned <+: r.store.db.filtered "s" [.assistantMessage] := by
  obtain ⟨r, ran, got⟩ := Option.bind_eq_some_iff.mp (show
    ((system (fun _ => 0) "s" [.assistantMessage]).run ⟨.empty, []⟩ pollSchedule).bind
      (fun r => some (r.returned.map Event.sequence)) = some [2] by decide)
  have reachable : (system (fun _ => 0) "s" [.assistantMessage]).Reachable r :=
    ⟨_, rfl, Transition.System.later_of_run ran⟩
  exact ⟨r, ran, Option.some.inj got, (pages_begin_log reachable .refl).2.1⟩

end Reader

end Tename
