import Mathlib.Data.List.Permutation
import Tename.Transition.Basic
import Tename.Vault.Service

/-!
# Concurrent calls on one vault file

Any number of instances on one path, in one process, and any number of threads that
call `store` and `revoke` on them. The lock of a call is its instance's own, so two
instances do not wait for each other. A call that replaces a file that another one
has replaced since it read it undoes the other's update; as long as that does not
happen, the file is what the calls produce one after another.
-/

namespace Tename

/-- A call that changes the file, with the values it draws. -/
inductive VaultCall where
  | store (name : String) (value : PyStr) (salt : List UInt8) (draw : Nat)
  | revoke (name : String)
  deriving DecidableEq

namespace VaultCall

variable (crypto : Crypto) (repr : Json → String) (v : Vault)

def name : VaultCall → String
  | .store name .. => name
  | .revoke name => name

/-- What the call writes over a file, if anything. -/
def next (file : VaultFile) : VaultCall → Except VaultExn (Option VaultState)
  | .store name value salt draw => (v.storeNext crypto repr name value salt draw file).map some
  | .revoke name => v.revokeNext repr name file

/-- The file after the call, if nothing else happens. -/
def run (file : VaultFile) (call : VaultCall) : VaultFile :=
  match call.next crypto repr v file with
  | .ok (some next) => some (.json (.obj (Vault.document next)))
  | _ => file

variable {crypto repr v} {file : VaultFile}

theorem run_store {name : String} {value : PyStr} {salt : List UInt8} {draw : Nat} :
    run crypto repr v file (.store name value salt draw) =
      (v.store crypto repr name value salt draw .whole file).1 := by
  simp only [run, next, Vault.store]
  cases v.storeNext crypto repr name value salt draw file <;> rfl

theorem run_revoke {name : String} :
    run crypto repr v file (.revoke name) = (v.revoke repr name .whole file).1 := by
  simp only [run, next, Vault.revoke]
  cases v.revokeNext repr name file with
  | error e => rfl
  | ok next => cases next <;> rfl

theorem run_of_next {call : VaultCall} {next : VaultState}
    (h : call.next crypto repr v file = .ok (some next)) :
    run crypto repr v file call = some (.json (.obj (Vault.document next))) := by
  simp only [run, h]

theorem run_of_none {call : VaultCall} (h : call.next crypto repr v file = .ok none) :
    run crypto repr v file call = file := by
  simp only [run, h]

end VaultCall

abbrev CallId := Nat

/-- Where a call stands. -/
inductive VaultPhase where
  | waiting
  | reading
  /-- What the call is about to write, and how often the file had been replaced at its read. -/
  | writing (seen : Nat) (next : VaultState)
  | returned
  | raised (error : VaultExn)

/-- Inside the `with` block. -/
def VaultPhase.holds : VaultPhase → Bool
  | .reading | .writing .. => true
  | _ => false

/-- A running call, on one of the instances. -/
structure VaultTask where
  on' : InstanceId
  call : VaultCall
  phase : VaultPhase

/-- The file, the instances' locks and the calls in progress. -/
structure VaultProcess where
  file : VaultFile
  locks : InstanceId → Option CallId
  tasks : CallId → Option VaultTask
  /-- How often the file has been replaced. -/
  replaced : Nat
  /-- The calls that have returned, in that order. -/
  completed : List VaultCall

inductive VaultStep where
  | call (c : CallId) (on' : InstanceId) (call : VaultCall)
  | acquire (c : CallId)
  | read (c : CallId)
  /-- `os.replace`, or the error the operating system reports before it. -/
  | replace (c : CallId) (failure : Option String)

namespace VaultProcess

variable (crypto : Crypto) (repr : Json → String) (v : Vault)

def goto (s : VaultProcess) (c : CallId) (task : VaultTask) (phase : VaultPhase) : VaultProcess :=
  { s with tasks := Function.update s.tasks c (some { task with phase := phase }) }

/-- The call leaves its `with` block. -/
def leave (s : VaultProcess) (c : CallId) (task : VaultTask) (phase : VaultPhase) : VaultProcess :=
  { s.goto c task phase with locks := Function.update s.locks task.on' none }

/-- The call returns normally. -/
def complete (s : VaultProcess) (c : CallId) (task : VaultTask) : VaultProcess :=
  { s.leave c task .returned with completed := s.completed ++ [task.call] }

def withFile (s : VaultProcess) (file : VaultFile) : VaultProcess :=
  { s with file := file, replaced := s.replaced + 1 }

/-- An atomic replacement, or the error that the operating system reports. -/
def atomically : Option String → WriteOutcome
  | none => .whole
  | some m => .refused (.vaultConfigurationError s!"failed to write vault file {v.path}: {m}")

/-- One label. A call id names one call for the whole run. -/
def step (s : VaultProcess) : VaultStep → Option VaultProcess
  | .call c on' call =>
      match s.tasks c with
      | some _ => none
      | none =>
          match Vault.validateName repr call.name with
          | .error e => some (s.goto c ⟨on', call, .waiting⟩ (.raised e))
          | .ok () => some (s.goto c ⟨on', call, .waiting⟩ .waiting)
  | .acquire c =>
      match s.tasks c with
      | some task =>
          match task.phase, s.locks task.on' with
          | .waiting, none =>
              some { s.goto c task .reading with
                locks := Function.update s.locks task.on' (some c) }
          | _, _ => none
      | none => none
  | .read c =>
      match s.tasks c with
      | some task =>
          match task.phase with
          | .reading =>
              match task.call.next crypto repr v s.file with
              | .ok (some next) => some (s.goto c task (.writing s.replaced next))
              | .ok none => some (s.complete c task)
              | .error e => some (s.leave c task (.raised e))
          | _ => none
      | none => none
  | .replace c failure =>
      match s.tasks c with
      | some task =>
          match task.phase with
          | .writing _ next =>
              match Vault.writeState s.file next (atomically v failure) with
              | (file, .ok ()) => some ((s.withFile file).complete c task)
              | (_, .error e) => some (s.leave c task (.raised e))
          | _ => none
      | none => none

/-- All runs of the process on a file. -/
def system (file : VaultFile) : Transition.System VaultProcess VaultStep where
  initial s := s = ⟨file, fun _ => none, fun _ => none, 0, []⟩
  step := step crypto repr v

/-- A call replaces the file only if nobody has since it has read it. -/
def upToDate (s : VaultProcess) : VaultStep → Bool
  | .replace c none =>
      match s.tasks c with
      | some ⟨_, _, .writing seen _⟩ => seen = s.replaced
      | _ => true
  | _ => true

/-- What one label can do to the file. -/
inductive Stepped (s : VaultProcess) : VaultStep → VaultProcess → Prop where
  | called {c : CallId} (task : VaultTask) {phase : VaultPhase} (fresh : s.tasks c = none)
      (quiet : phase.holds = false) :
      Stepped s (.call c task.on' task.call) (s.goto c task phase)
  | acquired {c : CallId} {task : VaultTask} (running : s.tasks c = some task)
      (free : s.locks task.on' = none) :
      Stepped s (.acquire c)
        { s.goto c task .reading with locks := Function.update s.locks task.on' (some c) }
  | read {c : CallId} {task : VaultTask} {next : VaultState} (running : s.tasks c = some task)
      (holds : task.phase.holds)
      (decided : task.call.next crypto repr v s.file = .ok (some next)) :
      Stepped s (.read c) (s.goto c task (.writing s.replaced next))
  | missed {c : CallId} {task : VaultTask} (running : s.tasks c = some task)
      (holds : task.phase.holds)
      (decided : task.call.next crypto repr v s.file = .ok none) :
      Stepped s (.read c) (s.complete c task)
  | refused {c : CallId} {task : VaultTask} {e : VaultExn} {a : VaultStep}
      (running : s.tasks c = some task) (holds : task.phase.holds) :
      Stepped s a (s.leave c task (.raised e))
  | replaced {c : CallId} {task : VaultTask} {seen : Nat} {next : VaultState}
      (running : s.tasks c = some task) (phase : task.phase = .writing seen next) :
      Stepped s (.replace c none)
        ((s.withFile (some (.json (.obj (Vault.document next))))).complete c task)

variable {crypto repr v} {s s' : VaultProcess} {start : VaultFile}

/-- Inversion of the step function. -/
theorem step_cases {a : VaultStep} (h : s.step crypto repr v a = some s') :
    Stepped crypto repr v s a s' := by
  cases a with
  | call c on' call =>
      simp only [step] at h
      split at h
      · cases h
      · rename_i fresh
        split at h <;> obtain rfl := Option.some.inj h
        · exact .called ⟨on', call, .waiting⟩ fresh rfl
        · exact .called ⟨on', call, .waiting⟩ fresh rfl
  | acquire c =>
      simp only [step] at h
      split at h
      · rename_i task running
        split at h
        · rename_i free
          obtain rfl := Option.some.inj h
          exact .acquired running free
        · cases h
      · cases h
  | read c =>
      simp only [step] at h
      split at h
      · rename_i task running
        split at h
        · rename_i phase
          have holds : task.phase.holds := by
            rw [phase]
            rfl
          split at h <;> obtain rfl := Option.some.inj h
          · exact .read running holds (by assumption)
          · exact .missed running holds (by assumption)
          · exact .refused running holds
        · cases h
      · cases h
  | replace c failure =>
      simp only [step] at h
      split at h
      · rename_i task running
        split at h
        · rename_i seen next phase
          cases failure with
          | none =>
              obtain rfl := Option.some.inj h
              exact .replaced running phase
          | some m =>
              obtain rfl := Option.some.inj h
              exact .refused running (by rw [phase]; rfl)
        · cases h
      · cases h

/-- The file is what the completed calls produce one after another, and a call about to
replace it replaces it by what it would write now, unless somebody has replaced it. -/
structure Sequential (crypto : Crypto) (repr : Json → String) (v : Vault) (start : VaultFile)
    (s : VaultProcess) : Prop where
  file : s.file = s.completed.foldl (VaultCall.run crypto repr v) start
  past : ∀ c task seen next, s.tasks c = some task → task.phase = .writing seen next →
    seen ≤ s.replaced
  decided : ∀ c task next, s.tasks c = some task → task.phase = .writing s.replaced next →
    task.call.next crypto repr v s.file = .ok (some next)

theorem Sequential.initial :
    Sequential crypto repr v start ⟨start, fun _ => none, fun _ => none, 0, []⟩ :=
  ⟨rfl, by rintro c task seen next ⟨⟩, by rintro c task next ⟨⟩⟩

/-- A step that leaves the file alone and does not get to writing. -/
theorem Sequential.move {c : CallId} (task : VaultTask)
    (h : s.Sequential crypto repr v start) (quiet : ∀ seen next, task.phase ≠ .writing seen next)
    (tasks : s'.tasks = Function.update s.tasks c (some task)) (replaced : s'.replaced = s.replaced)
    (file : s'.file = s.file)
    (completed : s'.completed.foldl (VaultCall.run crypto repr v) start = s.file) :
    s'.Sequential crypto repr v start where
  file := file.trans completed.symm
  past c' task' seen next running phase := by
    rw [tasks] at running
    by_cases same : c' = c
    · rw [same, Function.update_self] at running
      obtain rfl := Option.some.inj running
      exact absurd phase (quiet seen next)
    · rw [Function.update_of_ne same] at running
      rw [replaced]
      exact h.past c' task' seen next running phase
  decided c' task' next running phase := by
    rw [tasks] at running
    by_cases same : c' = c
    · rw [same, Function.update_self] at running
      obtain rfl := Option.some.inj running
      exact absurd phase (quiet _ next)
    · rw [Function.update_of_ne same] at running
      rw [replaced] at phase
      rw [file]
      exact h.decided c' task' next running phase

theorem Sequential.step {a : VaultStep} (h : s.Sequential crypto repr v start)
    (current : s.upToDate a = true) (stepped : s.step crypto repr v a = some s') :
    s'.Sequential crypto repr v start := by
  cases step_cases stepped with
  | @called c task phase fresh quiet =>
      refine h.move { task with phase := phase } ?_ rfl rfl rfl h.file.symm
      rintro seen next rfl
      cases quiet
  | @acquired c task running free =>
      exact h.move { task with phase := .reading } (by rintro seen next ⟨⟩) rfl rfl rfl
        h.file.symm
  | @read c task next running holds decided =>
      refine ⟨h.file, fun c' task' seen next' running' phase => ?_,
        fun c' task' next' running' phase => ?_⟩
      · by_cases same : c' = c
        · subst same
          obtain rfl : { task with phase := .writing s.replaced next } = task' := by
            simpa [goto] using running'
          obtain ⟨rfl, rfl⟩ := VaultPhase.writing.inj phase
          exact Nat.le_refl _
        · exact h.past c' task' seen next' (by simpa [goto, same] using running') phase
      · by_cases same : c' = c
        · subst same
          obtain rfl : { task with phase := .writing s.replaced next } = task' := by
            simpa [goto] using running'
          obtain ⟨_, rfl⟩ := VaultPhase.writing.inj phase
          exact decided
        · exact h.decided c' task' next' (by simpa [goto, same] using running') phase
  | @missed c task running holds decided =>
      refine h.move { task with phase := .returned } (by rintro seen next ⟨⟩) rfl rfl rfl ?_
      change (s.completed ++ [task.call]).foldl _ start = s.file
      rw [List.foldl_append, ← h.file]
      exact VaultCall.run_of_none decided
  | @refused c task e _ running holds =>
      exact h.move { task with phase := .raised e } (by rintro seen next ⟨⟩) rfl rfl rfl
        h.file.symm
  | @replaced c task seen next running phase =>
      obtain ⟨on', call, at'⟩ := task
      obtain rfl : at' = .writing seen next := phase
      have latest : seen = s.replaced := by simpa [upToDate, running] using current
      subst latest
      have decided := h.decided c _ next running rfl
      have others : ∀ c' task' seen' next', ((s.withFile (some (.json (.obj
          (Vault.document next))))).complete c ⟨on', call, .writing s.replaced next⟩).tasks c' =
            some task' → task'.phase = .writing seen' next' → seen' ≤ s.replaced := by
        intro c' task' seen' next' running' phase'
        by_cases same : c' = c
        · subst same
          obtain rfl : (⟨on', call, .returned⟩ : VaultTask) = task' := by
            simpa [complete, leave, goto] using running'
          cases phase'
        · exact h.past c' task' seen' next'
            (by simpa [complete, leave, goto, withFile, same] using running') phase'
      refine ⟨?_, fun c' task' seen' next' running' phase' => ?_,
        fun c' task' next' running' phase' => ?_⟩
      · change _ = (s.completed ++ [call]).foldl _ start
        rw [List.foldl_append, ← h.file]
        exact (VaultCall.run_of_next decided).symm
      · exact Nat.le_succ_of_le (others c' task' seen' next' running' phase')
      · exact absurd (others c' task' _ next' running' phase') (Nat.not_succ_le_self _)

/-- If no call replaces a file that was replaced since it read it, the file is what the
completed calls produce in the order of their completion. -/
theorem calls_serialize
    (reachable : (system crypto repr v start).ReachableIf (fun s a => s.upToDate a = true) s) :
    ∃ order : List VaultCall, order.Perm s.completed ∧
      s.file = order.foldl (VaultCall.run crypto repr v) start := by
  have sequential : s.Sequential crypto repr v start := by
    refine reachable.invariant (fun s initial => ?_) fun _ _ _ holds current stepped =>
      holds.step current stepped
    subst initial
    exact .initial
  exact ⟨s.completed, .refl _, sequential.file⟩

section TwoInstances

/-- The names the vault of a file lists, if it can be read. -/
def names (file : VaultFile) : Option (List String) :=
  ((⟨"vault.json.enc", some "x"⟩ : Vault).list (fun _ => "") file).toOption

def secrets (start : VaultFile) : Transition.System VaultProcess VaultStep :=
  system .transparent (fun _ => "") ⟨"vault.json.enc", some "x"⟩ start

def missing : VaultProcess := ⟨none, fun _ => none, fun _ => none, 0, []⟩

def storeA : VaultCall := .store "a" "1" [7] 0
def storeB : VaultCall := .store "b" "2" [8] 1

/-- Each of two instances stores a credential, and both read before either writes. -/
def storeRace : List VaultStep :=
  [.call 0 0 storeA, .call 1 1 storeB, .acquire 0, .acquire 1, .read 0, .read 1,
    .replace 0 none, .replace 1 none]

/-- Both calls return, and only one credential is there: no order of the calls gives that. -/
theorem store_lost : ∃ s, (secrets none).Reachable s ∧ s.completed = [storeA, storeB] ∧
    ∀ order : List VaultCall, order.Perm s.completed →
      s.file ≠ order.foldl (VaultCall.run .transparent (fun _ => "") ⟨"vault.json.enc", some "x"⟩)
        none := by
  obtain ⟨s, ran, both⟩ := Option.map_eq_some_iff.mp (show
    ((secrets none).run missing storeRace).map (fun s => (s.completed, names s.file)) =
      some ([storeA, storeB], some ["b"]) by decide)
  obtain ⟨completed, listed⟩ := Prod.mk.inj both
  refine ⟨s, ⟨missing, rfl, Transition.System.later_of_run ran⟩, completed, ?_⟩
  intro order perm same
  rw [completed, ← List.mem_permutations'] at perm
  rw [same] at listed
  have kept : ∀ order ∈ List.permutations' [storeA, storeB],
      names (order.foldl (VaultCall.run .transparent (fun _ => "") ⟨"vault.json.enc", some "x"⟩)
        none) = some ["a", "b"] := by
    decide
  rw [kept order perm] at listed
  exact absurd listed (by decide)

/-- The second instance reads what the first one has written. -/
theorem calls_serialize_turns : ∃ s, (secrets none).runIf upToDate missing
      [.call 0 0 storeA, .call 1 1 storeB, .acquire 0, .read 0, .acquire 1, .replace 0 none,
        .read 1, .replace 1 none] = some s ∧ names s.file = some ["a", "b"] ∧
    ∃ order : List VaultCall, order.Perm s.completed ∧
      s.file = order.foldl (VaultCall.run .transparent (fun _ => "") ⟨"vault.json.enc", some "x"⟩)
        none := by
  obtain ⟨s, ran, listed⟩ := Option.map_eq_some_iff.mp (show
    ((secrets none).runIf upToDate missing
      [.call 0 0 storeA, .call 1 1 storeB, .acquire 0, .read 0, .acquire 1, .replace 0 none,
        .read 1, .replace 1 none]).map (fun s => names s.file) = some (some ["a", "b"]) by
    decide)
  exact ⟨s, ran, listed, calls_serialize ⟨missing, rfl, Transition.System.reaches_of_runIf ran⟩⟩

end TwoInstances

section OneInstance

variable {i : InstanceId}

/-- All calls of the run are made on one instance. -/
def onInstance (i : InstanceId) : VaultStep → Bool
  | .call _ on' _ => on' = i
  | _ => true

/-- Only the call that holds the instance's lock is inside its block, so what it has read
is what the file still holds. -/
structure Exclusive (i : InstanceId) (s : VaultProcess) : Prop where
  on' : ∀ c task, s.tasks c = some task → task.on' = i
  held : ∀ c task, s.tasks c = some task → task.phase.holds → s.locks i = some c
  current : ∀ c task seen next, s.tasks c = some task → task.phase = .writing seen next →
    seen = s.replaced

theorem Exclusive.initial : Exclusive i ⟨start, fun _ => none, fun _ => none, 0, []⟩ :=
  ⟨by rintro c task ⟨⟩, by rintro c task ⟨⟩, by rintro c task seen next ⟨⟩⟩

/-- A call moves on outside its block, or enters it. -/
theorem Exclusive.move {c : CallId} (task : VaultTask) {phase : VaultPhase}
    (h : s.Exclusive i) (on' : task.on' = i)
    (tasks : s'.tasks = Function.update s.tasks c (some { task with phase := phase }))
    (locks : ∀ c', c' ≠ c → s.locks i = some c' → s'.locks i = some c')
    (own : phase.holds → s'.locks i = some c)
    (replaced : s'.replaced = s.replaced)
    (seen : ∀ seen next, phase = .writing seen next → seen = s.replaced) : s'.Exclusive i where
  on' c' task' running := by
    rw [tasks] at running
    by_cases same : c' = c
    · rw [same, Function.update_self] at running
      obtain rfl := Option.some.inj running
      exact on'
    · rw [Function.update_of_ne same] at running
      exact h.on' c' task' running
  held c' task' running holds := by
    rw [tasks] at running
    by_cases same : c' = c
    · rw [same, Function.update_self] at running
      obtain rfl := Option.some.inj running
      rw [same]
      exact own holds
    · rw [Function.update_of_ne same] at running
      exact locks c' same (h.held c' task' running holds)
  current c' task' seen' next running writing := by
    rw [tasks] at running
    rw [replaced]
    by_cases same : c' = c
    · rw [same, Function.update_self] at running
      obtain rfl := Option.some.inj running
      exact seen seen' next writing
    · rw [Function.update_of_ne same] at running
      exact h.current c' task' seen' next running writing

/-- The holder of the lock leaves its block: nobody is inside one. -/
theorem Exclusive.leave {c : CallId} {task : VaultTask} {phase : VaultPhase}
    (h : s.Exclusive i) (running : s.tasks c = some task) (holds : task.phase.holds)
    (tasks : s'.tasks = Function.update s.tasks c (some { task with phase := phase }))
    (outside : phase.holds = false) : s'.Exclusive i := by
  have nobody : ∀ c' task', s'.tasks c' = some task' → task'.phase.holds = false := by
    intro c' task' running'
    rw [tasks] at running'
    by_cases same : c' = c
    · rw [same, Function.update_self] at running'
      obtain rfl := Option.some.inj running'
      exact outside
    · rw [Function.update_of_ne same] at running'
      by_contra inside
      have owner := h.held c' task' running' (by simpa using inside)
      rw [h.held c task running holds] at owner
      exact same (Option.some.inj owner).symm
  refine ⟨fun c' task' running' => ?_, fun c' task' running' inside => ?_,
    fun c' task' seen next running' writing => ?_⟩
  · rw [tasks] at running'
    by_cases same : c' = c
    · rw [same, Function.update_self] at running'
      obtain rfl := Option.some.inj running'
      exact h.on' c task running
    · rw [Function.update_of_ne same] at running'
      exact h.on' c' task' running'
  · rw [nobody c' task' running'] at inside
    cases inside
  · have outside' := nobody c' task' running'
    rw [writing] at outside'
    cases outside'

theorem Exclusive.step {a : VaultStep} (h : s.Exclusive i) (on' : onInstance i a = true)
    (stepped : s.step crypto repr v a = some s') : s'.Exclusive i := by
  cases step_cases stepped with
  | @called c task phase fresh quiet =>
      refine h.move task (of_decide_eq_true on') rfl (fun _ _ => id) ?_ rfl ?_
      · intro holds
        rw [quiet] at holds
        cases holds
      · rintro seen next rfl
        cases quiet
  | @acquired c task running free =>
      have here := h.on' c task running
      subst here
      refine h.move task rfl rfl ?_ (fun _ => Function.update_self _ _ _) rfl ?_
      · intro c' _ owner
        rw [free] at owner
        cases owner
      · rintro seen next ⟨⟩
  | @read c task next running holds decided =>
      refine h.move task (h.on' c task running) rfl (fun _ _ => id)
        (fun _ => h.held c task running holds) rfl ?_
      intro seen next' writing
      exact (VaultPhase.writing.inj writing).1.symm
  | @missed c task running holds decided => exact h.leave running holds rfl rfl
  | @refused c task e _ running holds => exact h.leave running holds rfl rfl
  | @replaced c task seen next running phase =>
      exact h.leave running (by rw [phase]; rfl) rfl rfl

theorem Exclusive.upToDate (h : s.Exclusive i) (a : VaultStep) : s.upToDate a = true := by
  cases a with
  | replace c failure =>
      cases failure with
      | some m => rfl
      | none =>
          simp only [VaultProcess.upToDate]
          split
          · rename_i running
            exact decide_eq_true (h.current c _ _ _ running rfl)
          · rfl
  | _ => rfl

/-- The lock of an instance serializes the calls made on that instance. -/
theorem calls_on_instance_serialize
    (reachable : (system crypto repr v start).ReachableIf (fun _ a => onInstance i a = true) s) :
    ∃ order : List VaultCall, order.Perm s.completed ∧
      s.file = order.foldl (VaultCall.run crypto repr v) start := by
  have both : s.Exclusive i ∧ s.Sequential crypto repr v start := by
    refine reachable.invariant
      (P := fun s => s.Exclusive i ∧ s.Sequential crypto repr v start) (fun s initial => ?_)
      fun _ a _ holds on' stepped =>
        ⟨holds.1.step on' stepped, holds.2.step (holds.1.upToDate a) stepped⟩
    subst initial
    exact ⟨.initial, .initial⟩
  exact ⟨s.completed, .refl _, both.2.file⟩

end OneInstance

end VaultProcess

end Tename
