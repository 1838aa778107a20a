import Tename.Transition.Basic

/-!
# A queue between an iterator and its consumer

A driver asks an iterator for one value after the other and puts each into a queue, then the
exception that the iterator has ended in, if any, and last a sentinel. A consumer on another
thread takes the items out. It receives what the iterator hands out, in order, and ends as the
iterator does. It may also stop taking, which the driver does not notice.
-/

namespace Transition

/-- Where an iterator stands. -/
inductive IterationStatus (A E : Type) where
  | created
  | running
  /-- At a `yield`. -/
  | suspended (value : A)
  | ended (result : Except E Unit)

/-- An iterator that may be asked for a value, and the steps that it takes or that others take
around it. -/
structure Iteration (σ α A E : Type) where
  ask : σ → Option σ
  step : σ → α → Option σ
  status : σ → IterationStatus A E

inductive QueueItem (A E : Type) where
  | value (a : A)
  | exception (e : E)
  | sentinel

inductive DriverPhase where
  /-- It has not been submitted. -/
  | unsubmitted
  /-- About to ask for a value. -/
  | asking
  /-- Until the iterator hands one out or ends. -/
  | iterating
  /-- About to put the sentinel. -/
  | finishing
  | done
  deriving DecidableEq

inductive ConsumerPhase (E : Type) where
  /-- Nothing has been asked of it. -/
  | created
  /-- Waiting for an item. -/
  | taking
  /-- At a `yield`. -/
  | holding
  | returned
  | raised (e : E)
  /-- It takes no more. -/
  | closed

structure RelayState (σ A E : Type) where
  source : σ
  driver : DriverPhase
  queue : List (QueueItem A E)
  consumer : ConsumerPhase E
  received : List A

inductive RelayAction (α : Type) where
  /-- The consumer is asked for a value. -/
  | next
  /-- The consumer takes an item. -/
  | get
  | close
  | drive
  | source (a : α)

namespace RelayState

variable {σ α A E : Type} (it : Iteration σ α A E) (s : RelayState σ A E)

/-- One step of the driver. -/
def drive : Option (RelayState σ A E) :=
  match s.driver with
  | .asking => (it.ask s.source).map fun source => { s with source := source, driver := .iterating }
  | .iterating =>
      match it.status s.source with
      | .suspended a => some { s with driver := .asking, queue := s.queue ++ [.value a] }
      | .ended (.ok ()) => some { s with driver := .finishing }
      | .ended (.error e) =>
          some { s with driver := .finishing, queue := s.queue ++ [.exception e] }
      | _ => none
  | .finishing => some { s with driver := .done, queue := s.queue ++ [.sentinel] }
  | _ => none

/-- The consumer takes the first item. -/
def get : Option (RelayState σ A E) :=
  match s.consumer, s.queue with
  | .taking, .value a :: rest =>
      some { s with consumer := .holding, queue := rest, received := s.received ++ [a] }
  | .taking, .exception e :: rest => some { s with consumer := .raised e, queue := rest }
  | .taking, .sentinel :: rest => some { s with consumer := .returned, queue := rest }
  | _, _ => none

def step : RelayAction α → Option (RelayState σ A E)
  | .next =>
      match s.consumer with
      | .created => some { s with driver := .asking, consumer := .taking }
      | .holding => some { s with consumer := .taking }
      | _ => none
  | .get => s.get
  | .close =>
      match s.consumer with
      | .created => some { s with consumer := .closed }
      | .holding => some { s with consumer := .closed }
      | _ => none
  | .drive => s.drive it
  | .source a => (it.step s.source a).map fun source => { s with source := source }

end RelayState

/-- The runs of a relay. -/
def relaySystem {σ α A E : Type} (it : Iteration σ α A E) (initial : σ → Prop) :
    System (RelayState σ A E) (RelayAction α) where
  initial s := initial s.source ∧ s.driver = .unsubmitted ∧ s.queue = [] ∧
    s.consumer = .created ∧ s.received = []
  step := RelayState.step it

namespace Iteration

variable {σ α A E : Type} (it : Iteration σ α A E) (handed : σ → List A)

/-- A step of an iterator that is running hands out one value, or none. -/
def Moves (s s' : σ) : Prop :=
  match it.status s' with
  | .created => False
  | .running => handed s' = handed s
  | .suspended a => handed s' = handed s ++ [a]
  | .ended _ => handed s' = handed s

variable {it handed} {s s' : σ}

theorem Moves.of_running (is : it.status s' = .running) (same : handed s' = handed s) :
    it.Moves handed s s' := by
  rw [Moves, is]
  exact same

theorem Moves.of_suspended {a : A} (is : it.status s' = .suspended a)
    (more : handed s' = handed s ++ [a]) : it.Moves handed s s' := by
  rw [Moves, is]
  exact more

theorem Moves.of_ended {r : Except E Unit} (is : it.status s' = .ended r)
    (same : handed s' = handed s) : it.Moves handed s s' := by
  rw [Moves, is]
  exact same

variable (it handed)

/-- What an iterator with the invariant `I` does. -/
structure Lawful (I : σ → Prop) : Prop where
  ask : ∀ {s s'}, I s → it.ask s = some s' → I s' ∧ it.Moves handed s s'
  step : ∀ {s a s'}, I s → it.step s a = some s' → I s' ∧
    (it.status s = .running → it.Moves handed s s') ∧
    (it.status s ≠ .running → it.status s' = it.status s ∧ handed s' = handed s)

/-- Some steps bring the iterator to its end, if it is asked for its values. -/
inductive CanEnd : σ → Prop where
  | ended {s : σ} {r : Except E Unit} (status : it.status s = .ended r) : CanEnd s
  | step {s s' : σ} {a : α} (stepped : it.step s a = some s') (later : CanEnd s') : CanEnd s
  | first {s s' : σ} (status : it.status s = .created) (asked : it.ask s = some s')
      (later : CanEnd s') : CanEnd s
  | ask {s s' : σ} {a : A} (status : it.status s = .suspended a) (asked : it.ask s = some s')
      (later : CanEnd s') : CanEnd s

end Iteration

namespace RelayState

variable {σ α A E : Type}

/-- What is put for the end of the iterator, before the sentinel. -/
def failure : Except E Unit → List (QueueItem A E)
  | .ok () => []
  | .error e => [.exception e]

/-- What the consumer has taken for the end. -/
def taken : ConsumerPhase E → List (QueueItem A E)
  | .returned => [.sentinel]
  | .raised e => [.exception e]
  | _ => []

/-- The values that the driver has put, and what it has put after them. -/
inductive Standing (it : Iteration σ α A E) (handed : σ → List A) (source : σ) :
    DriverPhase → List A → List (QueueItem A E) → Prop where
  | unsubmitted (created : it.status source = .created) (nothing : handed source = []) :
      Standing it handed source .unsubmitted [] []
  | first (created : it.status source = .created) (nothing : handed source = []) :
      Standing it handed source .asking [] []
  | asking {a : A} (suspended : it.status source = .suspended a) :
      Standing it handed source .asking (handed source) []
  | running (running : it.status source = .running) :
      Standing it handed source .iterating (handed source) []
  | offered {a : A} {values : List A} (suspended : it.status source = .suspended a)
      (last : handed source = values ++ [a]) : Standing it handed source .iterating values []
  | ended {r : Except E Unit} (ended : it.status source = .ended r) :
      Standing it handed source .iterating (handed source) []
  | finishing {r : Except E Unit} (ended : it.status source = .ended r) :
      Standing it handed source .finishing (handed source) (failure r)
  | done {r : Except E Unit} (ended : it.status source = .ended r) :
      Standing it handed source .done (handed source) (failure r ++ [.sentinel])

/-- What has been taken and what is in the queue are what has been put. -/
structure Relayed (it : Iteration σ α A E) (handed : σ → List A) (I : σ → Prop)
    (s : RelayState σ A E) : Prop where
  kept : I s.source
  items : ∃ values closing, Standing it handed s.source s.driver values closing ∧
    s.received.map .value ++ (taken s.consumer ++ s.queue) = values.map .value ++ closing
  submits : s.consumer = .created → s.driver = .unsubmitted
  submitted : s.driver = .unsubmitted → s.consumer = .created ∨ s.consumer = .closed

variable {it : Iteration σ α A E} {handed : σ → List A} {I : σ → Prop}
variable {s s' : RelayState σ A E} {source source' : σ} {values : List A}
variable {closing : List (QueueItem A E)} {driver : DriverPhase}

/-- The driver has asked, and the iterator has moved. -/
theorem Standing.of_moves (moves : it.Moves handed source source') :
    Standing it handed source' .iterating (handed source) [] := by
  rw [Iteration.Moves] at moves
  split at moves
  · exact moves.elim
  · rename_i running
    rw [← moves]
    exact .running running
  · rename_i a suspended
    exact .offered suspended moves
  · rename_i r ended
    rw [← moves]
    exact .ended ended

/-- A step of the iterator or around it. -/
theorem Standing.step (standing : Standing it handed source driver values closing)
    (running : it.status source = .running → it.Moves handed source source')
    (still : it.status source ≠ .running →
      it.status source' = it.status source ∧ handed source' = handed source) :
    Standing it handed source' driver values closing := by
  have stays {status : IterationStatus A E} (is : it.status source = status)
      (other : status ≠ .running) :
        it.status source' = status ∧ handed source' = handed source := by
    rw [← is] at other
    obtain ⟨same, kept⟩ := still other
    exact ⟨same.trans is, kept⟩
  cases standing with
  | unsubmitted created nothing =>
      obtain ⟨same, kept⟩ := stays created (by simp)
      exact .unsubmitted same (kept.trans nothing)
  | first created nothing =>
      obtain ⟨same, kept⟩ := stays created (by simp)
      exact .first same (kept.trans nothing)
  | asking suspended =>
      obtain ⟨same, kept⟩ := stays suspended (by simp)
      rw [← kept]
      exact .asking same
  | running runs => exact .of_moves (running runs)
  | offered suspended last =>
      obtain ⟨same, kept⟩ := stays suspended (by simp)
      exact .offered same (kept.trans last)
  | ended ended =>
      obtain ⟨same, kept⟩ := stays ended (by simp)
      rw [← kept]
      exact .ended same
  | finishing ended =>
      obtain ⟨same, kept⟩ := stays ended (by simp)
      rw [← kept]
      exact .finishing same
  | done ended =>
      obtain ⟨same, kept⟩ := stays ended (by simp)
      rw [← kept]
      exact .done same

/-- A step of the driver puts what it adds to the queue. -/
theorem Standing.drive (standing : Standing it handed s.source s.driver values closing)
    (lawful : it.Lawful handed I) (kept : I s.source) (stepped : s.drive it = some s') :
    I s'.source ∧ s'.consumer = s.consumer ∧ s'.received = s.received ∧
      s.driver ≠ .unsubmitted ∧ s'.driver ≠ .unsubmitted ∧ ∃ values' closing' put,
        Standing it handed s'.source s'.driver values' closing' ∧ s'.queue = s.queue ++ put ∧
        values'.map .value ++ closing' = values.map .value ++ closing ++ put := by
  obtain ⟨source, driver, queue, consumer, received⟩ := s
  cases standing with
  | unsubmitted => cases stepped
  | first created nothing =>
      obtain ⟨source', asked, rfl⟩ := Option.map_eq_some_iff.mp stepped
      obtain ⟨kept', moves⟩ := lawful.ask kept asked
      refine ⟨kept', rfl, rfl, by simp, by simp, [], [], [], ?_, (List.append_nil _).symm, rfl⟩
      rw [← nothing]
      exact .of_moves moves
  | asking suspended =>
      obtain ⟨source', asked, rfl⟩ := Option.map_eq_some_iff.mp stepped
      obtain ⟨kept', moves⟩ := lawful.ask kept asked
      exact ⟨kept', rfl, rfl, by simp, by simp, _, [], [], .of_moves moves,
        (List.append_nil _).symm, (List.append_nil _).symm⟩
  | running running =>
      simp only [RelayState.drive, running] at stepped
      cases stepped
  | @offered a values suspended last =>
      simp only [RelayState.drive, suspended] at stepped
      cases stepped
      refine ⟨kept, rfl, rfl, by simp, by simp, values ++ [a], [], [.value a], ?_, rfl, by simp⟩
      rw [← last]
      exact .asking suspended
  | @ended r ended =>
      cases r with
      | ok u =>
          simp only [RelayState.drive, ended] at stepped
          cases stepped
          exact ⟨kept, rfl, rfl, by simp, by simp, _, _, [], .finishing ended,
            (List.append_nil _).symm, by simp [failure]⟩
      | error e =>
          simp only [RelayState.drive, ended] at stepped
          cases stepped
          exact ⟨kept, rfl, rfl, by simp, by simp, _, _, [.exception e], .finishing ended, rfl,
            by simp [failure]⟩
  | finishing ended =>
      simp only [RelayState.drive] at stepped
      cases stepped
      exact ⟨kept, rfl, rfl, by simp, by simp, _, _, [.sentinel], .done ended, rfl,
        (List.append_assoc _ _ _).symm⟩
  | done => cases stepped

/-- What the consumer takes is the first item of the queue. -/
theorem get_cases (stepped : s.get = some s') :
    s.consumer = .taking ∧ s'.source = s.source ∧ s'.driver = s.driver ∧
      s'.received.map .value ++ (taken s'.consumer ++ s'.queue) =
        s.received.map .value ++ s.queue ∧
      s'.consumer ≠ .created := by
  obtain ⟨source, driver, queue, consumer, received⟩ := s
  cases consumer with
  | taking =>
      cases queue with
      | nil => cases stepped
      | cons item rest =>
          cases item <;> cases stepped <;> simp [taken]
  | _ => cases stepped

theorem Relayed.step (lawful : it.Lawful handed I) (known : Relayed it handed I s)
    {a : RelayAction α} (stepped : s.step it a = some s') : Relayed it handed I s' := by
  obtain ⟨kept, ⟨values, closing, standing, items⟩, submits, submitted⟩ := known
  cases a with
  | next =>
      simp only [RelayState.step] at stepped
      split at stepped
      · rename_i created
        cases stepped
        rw [submits created] at standing
        rw [created] at items
        cases standing with
        | unsubmitted fresh nothing =>
            exact ⟨kept, ⟨[], [], .first fresh nothing, items⟩, by simp, by simp⟩
      · rename_i holding
        cases stepped
        rw [holding] at items
        refine ⟨kept, ⟨values, closing, standing, items⟩, by simp, fun idle => ?_⟩
        have impossible := submitted idle
        rw [holding] at impossible
        simp at impossible
      · cases stepped
  | get =>
      obtain ⟨taking, source, driver, same, other⟩ := get_cases stepped
      rw [taking] at items
      refine ⟨?_, ⟨values, closing, ?_, same.trans items⟩, fun created => absurd created other,
        fun idle => ?_⟩
      · rw [source]
        exact kept
      · rw [source, driver]
        exact standing
      · have impossible := submitted (driver ▸ idle)
        rw [taking] at impossible
        simp at impossible
  | close =>
      simp only [RelayState.step] at stepped
      split at stepped
      · rename_i created
        cases stepped
        rw [created] at items
        exact ⟨kept, ⟨values, closing, standing, items⟩, by simp, fun _ => .inr rfl⟩
      · rename_i holding
        cases stepped
        rw [holding] at items
        exact ⟨kept, ⟨values, closing, standing, items⟩, by simp, fun _ => .inr rfl⟩
      · cases stepped
  | drive =>
      obtain ⟨kept', consumer, received, before, after, values', closing', put, standing', queue,
        joined⟩ := standing.drive lawful kept stepped
      refine ⟨kept', ⟨values', closing', standing', ?_⟩, fun created => ?_,
        fun idle => absurd idle after⟩
      · rw [consumer, received, queue, joined, ← items]
        simp only [List.append_assoc]
      · rw [consumer] at created
        exact absurd (submits created) before
  | source a =>
      obtain ⟨source', moved, rfl⟩ := Option.map_eq_some_iff.mp stepped
      obtain ⟨kept', running, still⟩ := lawful.step kept moved
      exact ⟨kept', ⟨values, closing, standing.step running still, items⟩, submits, submitted⟩

/-- The invariant holds throughout every run of a relay. -/
theorem relayed_of_reachable {initial : σ → Prop} (lawful : it.Lawful handed I)
    (start : ∀ source, initial source → I source ∧ it.status source = .created ∧
      handed source = [])
    (reachable : (relaySystem it initial).Reachable s) : Relayed it handed I s := by
  refine reachable.invariant ?_ fun u a u' known _ stepped => known.step lawful stepped
  rintro ⟨source, driver, queue, consumer, received⟩ ⟨begins, rfl, rfl, rfl, rfl⟩
  obtain ⟨kept, created, nothing⟩ := start source begins
  exact ⟨kept, ⟨[], [], .unsubmitted created nothing, rfl⟩, fun _ => rfl, fun _ => .inl rfl⟩

section Received

/-- Items after which the consumer takes no more. -/
def Final (item : QueueItem A E) : Prop :=
  ∀ a, item ≠ .value a

theorem final_failure {r : Except E Unit} : ∀ item ∈ failure (A := A) r, Final item := by
  intro item mem a
  cases r with
  | ok u => cases mem
  | error e =>
      rw [List.mem_singleton.mp mem]
      simp

theorem Standing.final (standing : Standing it handed source driver values closing) :
    ∀ item ∈ closing, Final item := by
  intro item mem
  cases standing with
  | finishing => exact final_failure item mem
  | done =>
      rcases List.mem_append.mp mem with failed | last
      · exact final_failure item failed
      · intro a
        rw [List.mem_singleton.mp last]
        simp
  | _ => cases mem

/-- Values before a final item are all values. -/
theorem values_eq {item : QueueItem A E} {xs ys : List A} {rest closing : List (QueueItem A E)}
    (last : Final item) (final : ∀ item ∈ closing, Final item)
    (same : xs.map .value ++ item :: rest = ys.map .value ++ closing) :
    xs = ys ∧ item :: rest = closing := by
  induction xs generalizing ys with
  | nil =>
      cases ys with
      | nil => exact ⟨rfl, same⟩
      | cons y ys => exact absurd (List.cons.inj same).1 (last y)
  | cons x xs ih =>
      cases ys with
      | nil =>
          have mem : .value x ∈ closing := by
            rw [← List.nil_append closing, ← List.map_nil (f := QueueItem.value), ← same]
            exact List.mem_cons_self
          exact absurd rfl (final _ mem x)
      | cons y ys =>
          obtain ⟨first, rest⟩ := List.cons.inj same
          obtain ⟨tails, closes⟩ := ih rest
          exact ⟨by rw [QueueItem.value.inj first, tails], closes⟩

/-- Values of a list of items come first in it. -/
theorem values_begin {xs ys : List A} {rest closing : List (QueueItem A E)}
    (final : ∀ item ∈ closing, Final item)
    (same : xs.map .value ++ rest = ys.map .value ++ closing) : xs <+: ys := by
  induction xs generalizing ys with
  | nil => exact List.nil_prefix
  | cons x xs ih =>
      cases ys with
      | nil =>
          have mem : .value x ∈ closing := by
            rw [← List.nil_append closing, ← List.map_nil (f := QueueItem.value), ← same]
            exact List.mem_cons_self
          exact absurd rfl (final _ mem x)
      | cons y ys =>
          obtain ⟨first, rest⟩ := List.cons.inj same
          rw [QueueItem.value.inj first]
          exact List.prefix_cons_inj _ |>.mpr (ih rest)

theorem Standing.put (standing : Standing it handed source driver values closing) :
    values <+: handed source := by
  cases standing with
  | unsubmitted => exact List.nil_prefix
  | first => exact List.nil_prefix
  | offered suspended last =>
      rw [last]
      exact List.prefix_append _ _
  | _ => exact List.prefix_rfl

/-- The consumer has received the first of the values that have been handed out. -/
theorem Relayed.begins (known : Relayed it handed I s) : s.received <+: handed s.source := by
  obtain ⟨values, closing, standing, items⟩ := known.items
  exact (values_begin standing.final items).trans standing.put

/-- The items that end the taking are those of the end of the iterator. -/
theorem Standing.closes {item : QueueItem A E} {rest : List (QueueItem A E)}
    (standing : Standing it handed source driver values (item :: rest)) :
    values = handed source ∧ ∃ r, it.status source = .ended r ∧
      (item = .sentinel → r = .ok ()) ∧ ∀ e, item = .exception e → r = .error e := by
  generalize ends : item :: rest = closing at standing
  cases standing with
  | @finishing r ended =>
      refine ⟨rfl, r, ended, ?_⟩
      cases r with
      | ok u => cases ends
      | error e =>
          cases ends
          simp
  | @done r ended =>
      refine ⟨rfl, r, ended, ?_⟩
      cases r with
      | ok u =>
          cases ends
          simp
      | error e =>
          cases ends
          simp
  | _ => cases ends

/-- A consumer that has returned has received everything, and so has one that has raised. -/
theorem Relayed.ended (known : Relayed it handed I s) :
    (s.consumer = .returned →
      s.received = handed s.source ∧ it.status s.source = .ended (.ok ())) ∧
    ∀ e, s.consumer = .raised e →
      s.received = handed s.source ∧ it.status s.source = .ended (.error e) := by
  obtain ⟨values, closing, standing, items⟩ := known.items
  constructor
  · intro returned
    rw [returned] at items
    obtain ⟨same, rfl⟩ := values_eq (by simp [Final]) standing.final items
    obtain ⟨all, r, ended, ok, -⟩ := standing.closes
    exact ⟨same.trans all, by rw [ended, ok rfl]⟩
  · intro e raised
    rw [raised] at items
    obtain ⟨same, rfl⟩ := values_eq (by simp [Final]) standing.final items
    obtain ⟨all, r, ended, -, failed⟩ := standing.closes
    exact ⟨same.trans all, by rw [ended, failed e rfl]⟩

end Received

section Ending

variable {initial : σ → Prop}

theorem Relayed.after (lawful : it.Lawful handed I) (known : Relayed it handed I s)
    {a : RelayAction α} (stepped : (relaySystem it initial).step s a = some s') :
    Relayed it handed I s' :=
  known.step lawful stepped

/-- A driver that has been submitted is where the iterator lets it be. -/
theorem Standing.driver_of_status (standing : Standing it handed source driver values closing)
    (submitted : driver ≠ .unsubmitted) :
    match it.status source with
    | .created => driver = .asking
    | .running => driver = .iterating
    | .suspended _ => driver = .asking ∨ driver = .iterating
    | .ended _ => driver = .iterating ∨ driver = .finishing ∨ driver = .done := by
  cases standing with
  | unsubmitted => exact absurd rfl submitted
  | first created => simp [created]
  | asking suspended => simp [suspended]
  | running running => simp [running]
  | offered suspended => simp [suspended]
  | ended ended => simp [ended]
  | finishing ended => simp [ended]
  | done ended => simp [ended]

/-- The driver is done, and the consumer where it was. -/
def Driven (s t : RelayState σ A E) : Prop :=
  t.driver = .done ∧ t.consumer = s.consumer ∧ t.received = s.received

theorem leads_of_finishing (finishing : s.driver = .finishing) :
    (relaySystem it initial).Leads (Driven s) s := by
  obtain ⟨source, driver, queue, consumer, received⟩ := s
  obtain rfl : driver = .finishing := finishing
  exact .step (a := .drive) rfl (.here ⟨rfl, rfl, rfl⟩)

theorem leads_of_ended {r : Except E Unit} (ended : it.status s.source = .ended r)
    (iterating : s.driver = .iterating) : (relaySystem it initial).Leads (Driven s) s := by
  obtain ⟨source, driver, queue, consumer, received⟩ := s
  obtain rfl : driver = .iterating := iterating
  have finishes : ∃ queue',
      RelayState.drive it ⟨source, .iterating, queue, consumer, received⟩ =
        some ⟨source, .finishing, queue', consumer, received⟩ := by
    cases r with
    | ok u => exact ⟨queue, by simp only [RelayState.drive, ended]⟩
    | error e => exact ⟨queue ++ [.exception e], by simp only [RelayState.drive, ended]⟩
  obtain ⟨queue', stepped⟩ := finishes
  exact .step (a := .drive) stepped
    (@leads_of_finishing _ _ _ _ it ⟨source, .finishing, queue', consumer, received⟩ initial rfl)

/-- A driver that has been submitted can always come to its end, whatever the consumer does. -/
theorem Relayed.leads_done (lawful : it.Lawful handed I) (canEnd : it.CanEnd source)
    (known : Relayed it handed I s) (here : s.source = source)
    (submitted : s.driver ≠ .unsubmitted) : (relaySystem it initial).Leads (Driven s) s := by
  induction canEnd generalizing s with
  | @ended source r status =>
      obtain ⟨values, closing, standing, -⟩ := known.items
      have where' := standing.driver_of_status submitted
      rw [here, status] at where'
      rcases where' with iterating | finishing | done
      · rw [← here] at status
        exact leads_of_ended status iterating
      · exact leads_of_finishing finishing
      · exact .here ⟨done, rfl, rfl⟩
  | @step source source' a moved later ih =>
      subst here
      have stepped : (relaySystem it initial).step s (.source a) =
          some { s with source := source' } := by
        change Option.map _ _ = _
        rw [moved]
        rfl
      exact .step stepped (ih (known.after lawful stepped) rfl submitted)
  | @first source source' status asked later ih =>
      subst here
      obtain ⟨values, closing, standing, -⟩ := known.items
      have asking := standing.driver_of_status submitted
      simp only [status] at asking
      have stepped : (relaySystem it initial).step s .drive =
          some { s with source := source', driver := .iterating } := by
        change s.drive it = _
        simp only [RelayState.drive, asking, asked]
        rfl
      exact .step stepped (ih (known.after lawful stepped) rfl (by simp))
  | @ask source source' a status asked later ih =>
      subst here
      have asks {t : RelayState σ A E} (known : Relayed it handed I t) (asking : t.driver = .asking)
          (here : t.source = s.source) : (relaySystem it initial).Leads (Driven t) t := by
        have stepped : (relaySystem it initial).step t .drive =
            some { t with source := source', driver := .iterating } := by
          change t.drive it = _
          simp only [RelayState.drive, asking, here, asked]
          rfl
        exact .step stepped (ih (known.after lawful stepped) rfl (by simp))
      obtain ⟨values, closing, standing, -⟩ := known.items
      have where' := standing.driver_of_status submitted
      simp only [status] at where'
      rcases where' with asking | iterating
      · exact asks known asking rfl
      · have stepped : (relaySystem it initial).step s .drive =
            some { s with driver := .asking, queue := s.queue ++ [.value a] } := by
          change s.drive it = _
          simp only [RelayState.drive, iterating, status]
        exact .step stepped (asks (known.after lawful stepped) rfl rfl)

/-- The consumer has returned, or has raised. -/
def Ended (s : RelayState σ A E) : Prop :=
  s.consumer = .returned ∨ ∃ e, s.consumer = .raised e

/-- What the consumer has not taken is left in the queue. -/
theorem Relayed.left_of_done (known : Relayed it handed I s) (done : s.driver = .done)
    (untaken : taken (A := A) s.consumer = []) : ∃ r, it.status s.source = .ended r ∧
      s.queue = ((handed s.source).drop s.received.length).map .value ++
        (failure r ++ [.sentinel]) := by
  obtain ⟨more, all⟩ := known.begins
  obtain ⟨values, closing, standing, items⟩ := known.items
  rw [untaken, List.nil_append] at items
  rw [done] at standing
  cases standing with
  | @done r ended =>
      refine ⟨r, ended, ?_⟩
      rw [← all, List.map_append, List.append_assoc, List.append_cancel_left_eq] at items
      rw [items, ← all, List.drop_left]

/-- With the driver done, a consumer that waits finds an item. -/
theorem Relayed.queue_of_done (known : Relayed it handed I s) (done : s.driver = .done)
    (taking : s.consumer = .taking) : s.queue ≠ [] := by
  obtain ⟨r, -, left⟩ := known.left_of_done done (by rw [taking]; rfl)
  rw [left]
  simp

/-- With the driver done, a consumer that goes on taking comes to its end. -/
theorem Relayed.leads_ended (lawful : it.Lawful handed I) (known : Relayed it handed I s)
    (done : s.driver = .done) (takes : s.consumer = .taking ∨ s.consumer = .holding) :
    (relaySystem it initial).Leads Ended s := by
  have taking (n : Nat) : ∀ {s : RelayState σ A E}, s.queue.length = n →
      Relayed it handed I s → s.driver = .done → s.consumer = .taking →
      (relaySystem it initial).Leads Ended s := by
    induction n with
    | zero =>
        intro s length known done taking
        exact absurd (List.length_eq_zero_iff.mp length) (known.queue_of_done done taking)
    | succ n ih =>
        intro s length known done taking
        obtain ⟨source, driver, queue, consumer, received⟩ := s
        obtain rfl : consumer = .taking := taking
        cases queue with
        | nil => cases length
        | cons item rest =>
            cases item with
            | value a =>
                have got : (relaySystem it initial).step
                    ⟨source, driver, .value a :: rest, .taking, received⟩ .get =
                      some ⟨source, driver, rest, .holding, received ++ [a]⟩ := rfl
                have next : (relaySystem it initial).step
                    ⟨source, driver, rest, .holding, received ++ [a]⟩ .next =
                      some ⟨source, driver, rest, .taking, received ++ [a]⟩ := rfl
                exact .step got (.step next (ih (Nat.succ.inj length)
                  ((known.after lawful got).after lawful next) done rfl))
            | exception e => exact .step (a := .get) rfl (.here (.inr ⟨e, rfl⟩))
            | sentinel => exact .step (a := .get) rfl (.here (.inl rfl))
  rcases takes with waits | holds
  · exact taking _ rfl known done waits
  · have next : (relaySystem it initial).step s .next = some { s with consumer := .taking } := by
      change RelayState.step it s .next = _
      simp only [RelayState.step, holds]
    exact .step next (taking _ rfl (known.after lawful next) done rfl)

end Ending

end RelayState

end Transition
