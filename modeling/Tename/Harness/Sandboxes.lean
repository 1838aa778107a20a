import Tename.Harness.Paging
import Tename.Program.Evaluation

/-!
# Sandboxes are destroyed

What one execution of the loop does to sandboxes. Up to the `finally`, every sandbox
that the loop is given or finds alive is put into the process's set before anything
else can fail, and none is destroyed. The `finally` goes through the set once, past
every exception of a destruction.
-/

namespace Tename

/-- An operation of the loop, as performed. -/
abbrev Performed := Process.Performed Op Op.Res Exn Answer

/-- The exception an operation ended in. -/
def raised (x : Performed) : Option Exn :=
  match x.outcome with
  | .ok _ => none
  | .error e => some e

/-- The sandbox that an operation gives to the run, new or reported alive. -/
def acquires : Performed → Option String
  | ⟨.sandboxProvision _, _, .ok id⟩ => some id
  | ⟨.sandboxStatus id, _, .ok status⟩ => if status.live then some id else none
  | _ => none

/-- The sandbox that an operation asks to destroy. -/
def destroys : Performed → Option String
  | ⟨.sandboxDestroy id, _, _⟩ => some id
  | _ => none

def acquired (h : List Performed) : List String := h.filterMap acquires
def destroyed (h : List Performed) : List String := h.filterMap destroys

@[simp] theorem acquired_append (h h' : List Performed) :
    acquired (h ++ h') = acquired h ++ acquired h' := List.filterMap_append

@[simp] theorem destroyed_append (h h' : List Performed) :
    destroyed (h ++ h') = destroyed h ++ destroyed h' := List.filterMap_append

/-- Operations on sandboxes, and on the set of their ids. -/
def Op.onSandboxes : Op → Bool
  | .sandboxStatus _ | .sandboxProvision _ | .sandboxDestroy _ | .addProvisioned _ => true
  | _ => false

section Operations

variable {agents : AgentId → Option Agent} {w w' : World} {o : Op} {answer : Answer}
variable {r : Except Exn o.Res}

theorem World.disturb_provisioned {a : ClientAction} (h : w.disturb a = some w') :
    w'.provisioned = w.provisioned := by
  cases a <;> obtain rfl := Option.some.inj h <;> rfl

theorem World.read_provisioned (w : World) : w.read.1.provisioned = w.provisioned := by
  rw [World.read_eq]

/-- Only the set's own operation changes it. -/
theorem World.perform_provisioned (h : w.perform agents o answer = some (w', r))
    (other : ∀ id, o ≠ .addProvisioned id) : w'.provisioned = w.provisioned := by
  cases o with
  | addProvisioned id => exact absurd rfl (other id)
  | getEvents =>
      cases answer with
      | done =>
          obtain rfl : w.read.1 = w' := congrArg Prod.fst (Option.some.inj h)
          exact w.read_provisioned
      | raises e => cases h; rfl
      | _ => cases h
  | _ => cases answer <;> cases h <;> rfl

theorem acquires_of_other (other : o.onSandboxes = false) :
    acquires ⟨o, answer, r⟩ = none := by
  cases o <;> first | rfl | cases other

theorem destroys_of_other (other : o.onSandboxes = false) :
    destroys ⟨o, answer, r⟩ = none := by
  cases o <;> first | rfl | cases other

end Operations

variable {rt : Runtime} {agents : AgentId → Option Agent} {sid : SessionId}

theorem interferes_provisioned {w w' : World}
    (h : Monitor.Interferes (runtimeProcess rt agents sid) w w') :
    w'.provisioned = w.provisioned := by
  refine h.relates (R := fun w w' : World => w'.provisioned = w.provisioned) (fun _ => rfl) ?_ ?_
  · intro a b c first second
    exact second.trans first
  · intro w a w' disturbed
    exact World.disturb_provisioned disturbed

/-- Nothing is destroyed, and what is acquired is in the set; without a sandbox service
nothing is acquired. -/
structure Collects (wired : Bool) (w : World) (h : List Performed) (w' : World) : Prop where
  destroyed : destroyed h = []
  kept : w.provisioned ⊆ w'.provisioned
  nodup : w.provisioned.Nodup → w'.provisioned.Nodup
  acquired : ∀ id ∈ acquired h, wired = true ∧ id ∈ w'.provisioned

variable {wired : Bool} {w w' : World}

theorem collects_composes : Process.Composes (Collects wired) where
  nil w := ⟨rfl, fun _ mem => mem, fun nodup => nodup, by rintro id ⟨⟩⟩
  append w h w₁ h' w' first second := by
    refine ⟨?_, List.Subset.trans first.kept second.kept, second.nodup ∘ first.nodup,
      fun id mem => ?_⟩
    · rw [destroyed_append, first.destroyed, second.destroyed, List.append_nil]
    · rw [acquired_append] at mem
      rcases List.mem_append.mp mem with before | after
      · obtain ⟨on', mem⟩ := first.acquired id before
        exact ⟨on', second.kept mem⟩
      · exact second.acquired id after

/-- A step that gives no sandbox and takes none. -/
theorem Collects.still {x : Performed} (gives : acquires x = none) (takes : destroys x = none)
    (same : w'.provisioned = w.provisioned) : Collects wired w [x] w' := by
  refine ⟨?_, ?_, ?_, fun id mem => ?_⟩
  · simp [Tename.destroyed, takes]
  · rw [same]
    exact fun _ mem => mem
  · rw [same]
    exact fun nodup => nodup
  · simp [Tename.acquired, gives] at mem

theorem other_collects {o : Op} (other : o.onSandboxes = false) :
    (runtimeProcess rt agents sid).Respects (Collects wired) (Program.perform o) := by
  refine .perform fun w w₁ answer w' r interferes performed => ?_
  refine .still (acquires_of_other other) (destroys_of_other other) ?_
  rw [World.perform_provisioned performed (by rintro id rfl; cases other),
    interferes_provisioned interferes]

theorem collects_add (wired : Bool) {id : String} {h : List Performed} {out : Except Exn Unit}
    (ran : (runtimeProcess rt agents sid).Evaluates (Harness.addProvisioned id) w h out w') :
    Collects wired w h w' ∧ id ∈ w'.provisioned := by
  obtain ⟨w₁, answer, interferes, performed, rfl⟩ := Process.evaluates_perform.mp ran
  have same := interferes_provisioned interferes
  cases answer with
  | done =>
      cases performed
      simp only [World.addProvisioned]
      split
      · rename_i mem
        refine ⟨⟨rfl, ?_, ?_, by rintro id ⟨⟩⟩, mem⟩
        · exact fun _ mem => same ▸ mem
        · exact fun nodup => same ▸ nodup
      · rename_i absent
        refine ⟨⟨rfl, ?_, ?_, by rintro id ⟨⟩⟩, List.mem_append_right _ (.head _)⟩
        · exact fun _ mem => List.mem_append_left _ (same ▸ mem)
        · intro nodup
          exact List.nodup_append_comm.mp (List.nodup_cons.mpr ⟨absent, same ▸ nodup⟩)
  | _ => cases performed

/-- An operation that gives a sandbox, followed by its entry in the set. -/
theorem collects_acquire {o : Op} {a : o.Res} {id : String} {h h' : List Performed}
    {out : Except Exn Unit} {w₁ : World} (notAdd : ∀ id, o ≠ .addProvisioned id)
    (keeps : ∀ answer, destroys ⟨o, answer, .ok a⟩ = none)
    (gives : ∀ answer id', acquires ⟨o, answer, .ok a⟩ = some id' → wired = true ∧ id' = id)
    (first : (runtimeProcess rt agents sid).Evaluates (Program.perform o) w h (.ok a) w₁)
    (added : (runtimeProcess rt agents sid).Evaluates (Harness.addProvisioned id) w₁ h' out w') :
    Collects wired w (h ++ h') w' := by
  obtain ⟨w₀, answer, interferes, performed, rfl⟩ := Process.evaluates_perform.mp first
  obtain ⟨collects, mem⟩ := collects_add wired added
  have same : w₁.provisioned = w.provisioned := by
    rw [World.perform_provisioned performed notAdd, interferes_provisioned interferes]
  refine ⟨?_, ?_, ?_, fun id' mem' => ?_⟩
  · simpa [Tename.destroyed, keeps] using collects.destroyed
  · exact same ▸ collects.kept
  · exact same ▸ collects.nodup
  · rw [acquired_append] at mem'
    rcases List.mem_append.mp mem' with here | later
    · obtain ⟨x, listed, gave⟩ := List.mem_filterMap.mp here
      obtain rfl := List.mem_singleton.mp listed
      obtain ⟨on', rfl⟩ := gives answer id' gave
      exact ⟨on', mem⟩
    · exact collects.acquired id' later

/-- An operation that gives a sandbox, up to its entry in the set and beyond. -/
theorem acquire_collects {α : Type} {o : Op} {next : o.Res → Harness α}
    (notAdd : ∀ id, o ≠ .addProvisioned id) (keeps : ∀ answer r, destroys ⟨o, answer, r⟩ = none)
    (fails : ∀ answer e, acquires ⟨o, answer, .error e⟩ = none)
    (goesOn : ∀ a w h₁ w₁ h₂ out w', (runtimeProcess rt agents sid).Evaluates (Program.perform o) w
      h₁ (.ok a) w₁ → (runtimeProcess rt agents sid).Evaluates (next a) w₁ h₂ out w' →
        Collects wired w (h₁ ++ h₂) w') :
    (runtimeProcess rt agents sid).Respects (Collects wired) ((Program.perform o).bind next) := by
  intro w h out w' ran
  rcases Process.evaluates_bind.mp ran with ⟨e, -, failed⟩ | ⟨a, h₁, h₂, w₁, rfl, first, rest⟩
  · obtain ⟨w₁, answer, interferes, performed, rfl⟩ := Process.evaluates_perform.mp failed
    refine .still (fails answer e) (keeps answer _) ?_
    rw [World.perform_provisioned performed notAdd, interferes_provisioned interferes]
  · exact goesOn a w h₁ w₁ h₂ out w' first rest

variable {agent : Agent}

theorem provisionSandbox_collects : (runtimeProcess rt agents sid).Respects (Collects true)
    (provisionSandbox rt sid agent) := by
  unfold provisionSandbox
  refine .bind collects_composes (.settle collects_composes _) fun recipe => ?_
  refine acquire_collects (by rintro id ⟨⟩) (fun _ _ => rfl) (fun _ _ => rfl) ?_
  intro newId w h₁ w₁ h₂ out w' first rest
  have gives : ∀ (answer : Answer) id',
      acquires ⟨.sandboxProvision recipe, answer, .ok newId⟩ = some id' →
        true = true ∧ id' = newId := by
    intro answer id' gave
    exact ⟨rfl, (Option.some.inj gave).symm⟩
  rcases Process.evaluates_bind.mp rest with ⟨e, rfl, failed⟩ | ⟨_, h₃, h₄, w₂, rfl, added, emits⟩
  · exact collects_acquire (by rintro id ⟨⟩) (fun _ => rfl) gives first failed
  · have emitted : (runtimeProcess rt agents sid).Respects (Collects true)
        ((Harness.emitEvent (.sandboxProvisioned sid newId) .systemEvent
          (provisionedPayload newId recipe.runtime)).bind fun _ => Program.pure newId) :=
      .bind collects_composes (other_collects rfl) fun _ => .pure collects_composes _
    rw [← List.append_assoc]
    exact collects_composes.append w _ w₂ _ w'
      (collects_acquire (by rintro id ⟨⟩) (fun _ => rfl) gives first added)
      (emitted _ _ _ _ emits)

theorem getOrProvisionSandbox_collects : (runtimeProcess rt agents sid).Respects (Collects true)
    (getOrProvisionSandbox rt sid agent) := by
  unfold getOrProvisionSandbox
  refine .bind collects_composes (other_collects rfl) fun events => ?_
  split
  · exact provisionSandbox_collects
  · rename_i existingId _
    refine acquire_collects (by rintro id ⟨⟩) (fun _ _ => rfl) (fun _ _ => rfl) ?_
    intro status w h₁ w₁ h₂ out w' first rest
    split at rest
    · rename_i alive
      have gives : ∀ (answer : Answer) id',
          acquires ⟨.sandboxStatus existingId, answer, .ok status⟩ = some id' →
            true = true ∧ id' = existingId := by
        intro answer id' gave
        change (if status.live then some existingId else none) = some id' at gave
        rw [if_pos alive] at gave
        exact ⟨rfl, (Option.some.inj gave).symm⟩
      rcases Process.evaluates_bind.mp rest with ⟨e, rfl, failed⟩ |
        ⟨_, h₃, h₄, w₂, rfl, added, done⟩
      · exact collects_acquire (by rintro id ⟨⟩) (fun _ => rfl) gives first failed
      · obtain ⟨rfl, -, rfl⟩ := Process.evaluates_pure.mp done
        rw [List.append_nil]
        exact collects_acquire (by rintro id ⟨⟩) (fun _ => rfl) gives first added
    · rename_i dead
      obtain ⟨w₀, answer, interferes, performed, rfl⟩ := Process.evaluates_perform.mp first
      refine collects_composes.append w _ w₁ h₂ w' (.still ?_ rfl ?_)
        (provisionSandbox_collects _ _ _ _ rest)
      · exact if_neg dead
      · rw [World.perform_provisioned performed (by rintro id ⟨⟩),
          interferes_provisioned interferes]

theorem runSandboxTool_collects {call : PendingEvent} {toolName : String} {input : Payload} :
    (runtimeProcess rt agents sid).Respects (Collects true)
      (runSandboxTool rt sid agent call toolName input) := by
  unfold runSandboxTool
  refine .bind collects_composes (.attempt getOrProvisionSandbox_collects) fun outcome => ?_
  split
  · split
    · exact .pure collects_composes _
    · exact .throw collects_composes _
  · refine .bind collects_composes (.attempt (other_collects rfl)) fun outcome => ?_
    split
    · split
      · exact .pure collects_composes _
      · exact .throw collects_composes _
    · exact .pure collects_composes _

theorem toolPayload_collects {call : PendingEvent} :
    (runtimeProcess rt agents sid).Respects (Collects rt.sandbox)
      (toolPayload rt sid agent call) := by
  unfold toolPayload
  dsimp only
  split
  · rename_i wired
    rw [wired.2]
    exact runSandboxTool_collects
  · split
    · exact .bind collects_composes (other_collects rfl) fun _ => .pure collects_composes _
    · exact .pure collects_composes _

theorem executeToolCalls_collects {calls : List PendingEvent} :
    (runtimeProcess rt agents sid).Respects (Collects rt.sandbox)
      (executeToolCalls rt sid agent calls) := by
  refine .forEach collects_composes (fun call => ?_) calls
  refine .bind collects_composes toolPayload_collects fun payload => ?_
  exact .bind collects_composes (other_collects rfl) fun _ => .pure collects_composes _

variable {adapter : FrameworkAdapter} {profile : Profile} {startedAt : ℚ}

theorem streamChunks_collects {failure : Option Exn} (chunks : List ModelChunk) (st : TurnState) :
    (runtimeProcess rt agents sid).Respects (Collects wired)
      (streamChunks adapter failure chunks st) := by
  induction chunks generalizing st with
  | nil =>
      cases failure with
      | none => exact .pure collects_composes _
      | some e => exact .throw collects_composes e
  | cons chunk chunks ih =>
      unfold streamChunks
      split
      · exact ih _
      · refine .bind collects_composes (other_collects rfl) fun id => ?_
        refine .bind collects_composes (other_collects rfl) fun _ => ?_
        split
        · exact ih _
        · split
          · exact .pure collects_composes _
          · exact ih _

theorem runTurn_collects {messages : List Message} {tools : List ToolDef} :
    (runtimeProcess rt agents sid).Respects (Collects wired)
      (runTurn adapter messages tools) := by
  unfold runTurn
  refine .bind collects_composes (other_collects rfl) fun stream => ?_
  refine .bind collects_composes (streamChunks_collects _ _) fun st => ?_
  split
  · refine .bind collects_composes (other_collects rfl) fun id => ?_
    exact .bind collects_composes (other_collects rfl) fun _ => .pure collects_composes _
  · exact .pure collects_composes _

theorem readEvents_collects : (runtimeProcess rt agents sid).Respects (Collects wired)
    (readEvents sid profile) := by
  unfold readEvents
  refine .bind collects_composes (other_collects rfl) fun events => ?_
  split
  · refine .bind collects_composes ?_ fun _ => other_collects rfl
    unfold emitCompaction
    split
    · exact .pure collects_composes _
    · exact .bind collects_composes (other_collects rfl) fun _ => .pure collects_composes _
  · exact .pure collects_composes _

/-- The body of the `try`. -/
theorem runTurns_collects (turns : Nat) :
    (runtimeProcess rt agents sid).Respects (Collects rt.sandbox)
      (runTurns rt sid agent profile adapter startedAt turns) := by
  induction turns with
  | zero => exact .pure collects_composes _
  | succ turns ih =>
      unfold runTurns
      refine .bind collects_composes ?_ fun late => ?_
      · unfold overDuration
        split
        · exact .pure collects_composes _
        · exact .bind collects_composes (other_collects rfl) fun _ => .pure collects_composes _
      split
      · exact .pure collects_composes _
      · refine .bind collects_composes readEvents_collects fun events => ?_
        dsimp only
        split
        · exact .pure collects_composes _
        · refine .bind collects_composes runTurn_collects fun result => ?_
          split
          · exact .pure collects_composes _
          · split
            · exact .pure collects_composes _
            · exact .bind collects_composes executeToolCalls_collects fun _ => ih

/-- Without a cancellation, every id of the list is asked to be destroyed, in order. -/
theorem forEach_destroys (ids : List String) {w w' : World} {h : List Performed}
    {out : Except Exn Unit} (uncancelled : ∀ x ∈ h, raised x ≠ some .cancelledError)
    (ran : (runtimeProcess rt agents sid).Evaluates (Program.forEach ids fun id => do
      match ← (Harness.sandboxDestroy id).attempt with
      | .ok () => pure ()
      | .error e => if e.isException then pure () else Program.throw e) w h out w') :
    destroyed h = ids ∧ acquired h = [] := by
  induction ids generalizing w h with
  | nil =>
      obtain ⟨rfl, -, -⟩ := Process.evaluates_pure.mp ran
      exact ⟨rfl, rfl⟩
  | cons id ids ih =>
      have body : ∀ h₁ out₁ w₁, (∀ x ∈ h₁, raised x ≠ some .cancelledError) →
          (runtimeProcess rt agents sid).Evaluates (do
            match ← (Harness.sandboxDestroy id).attempt with
            | .ok () => pure ()
            | .error e => if e.isException then pure () else Program.throw e) w h₁ out₁ w₁ →
          out₁ = .ok () ∧ destroyed h₁ = [id] ∧ acquired h₁ = [] := by
        intro h₁ out₁ w₁ uncancelled ran
        rcases Process.evaluates_bind.mp ran with ⟨e, -, failed⟩ | ⟨r, h₂, h₃, w₂, rfl, tried, rest⟩
        · obtain ⟨r, impossible, -⟩ := Process.evaluates_attempt.mp failed
          cases impossible
        · obtain ⟨_, ⟨⟩, tried⟩ := Process.evaluates_attempt.mp tried
          obtain ⟨w₃, answer, -, -, rfl⟩ := Process.evaluates_perform.mp tried
          cases r with
          | ok a =>
              obtain ⟨rfl, rfl, -⟩ := Process.evaluates_pure.mp rest
              exact ⟨rfl, rfl, rfl⟩
          | error e =>
              have caught : e.isException = true := by
                have other := uncancelled _ (List.mem_append_left _ (.head _))
                simpa [raised, Exn.isException] using other
              simp only [caught] at rest
              obtain ⟨rfl, rfl, -⟩ := Process.evaluates_pure.mp rest
              exact ⟨rfl, rfl, rfl⟩
      rcases Process.evaluates_bind.mp ran with ⟨e, -, failed⟩ | ⟨_, h₁, h₂, w₁, rfl, first, rest⟩
      · obtain ⟨impossible, -⟩ := body _ _ _ uncancelled failed
        cases impossible
      · obtain ⟨-, took, gave⟩ := body _ _ _
          (fun x mem => uncancelled x (List.mem_append_left _ mem)) first
        obtain ⟨took', gave'⟩ := ih (fun x mem => uncancelled x (List.mem_append_right _ mem)) rest
        rw [destroyed_append, acquired_append, took, took', gave, gave']
        exact ⟨rfl, rfl⟩

/-- The `finally` asks to destroy every id of the set. -/
theorem destroySandboxes_destroys {w w' : World} {h : List Performed} {out : Except Exn Unit}
    (wired : rt.sandbox = true) (uncancelled : ∀ x ∈ h, raised x ≠ some .cancelledError)
    (ran : (runtimeProcess rt agents sid).Evaluates (destroySandboxes rt) w h out w') :
    destroyed h = w.provisioned ∧ acquired h = [] := by
  unfold destroySandboxes at ran
  rw [if_neg (by rw [wired]; decide)] at ran
  rcases Process.evaluates_bind.mp ran with ⟨e, -, failed⟩ | ⟨ids, h₁, h₂, w₁, rfl, read, rest⟩
  · obtain ⟨w₁, answer, -, performed, -⟩ := Process.evaluates_perform.mp failed
    cases answer <;> cases performed
  · obtain ⟨w₀, answer, interferes, performed, rfl⟩ := Process.evaluates_perform.mp read
    have same : ids = w.provisioned := by
      rw [← interferes_provisioned interferes]
      cases answer <;> cases performed
      rfl
    obtain ⟨took, gave⟩ := forEach_destroys ids
      (fun x mem => uncancelled x (List.mem_append_right _ mem)) rest
    rw [destroyed_append, acquired_append, took, gave, same]
    exact ⟨rfl, rfl⟩

/-- Nothing is acquired or destroyed, and the set stays as it is. -/
structure Leaves (w : World) (h : List Performed) (w' : World) : Prop where
  acquired : acquired h = []
  destroyed : destroyed h = []
  same : w'.provisioned = w.provisioned

theorem leaves_composes : Process.Composes Leaves where
  nil w := ⟨rfl, rfl, rfl⟩
  append w h w₁ h' w' first second := by
    refine ⟨?_, ?_, second.same.trans first.same⟩
    · rw [acquired_append, first.acquired, second.acquired, List.append_nil]
    · rw [destroyed_append, first.destroyed, second.destroyed, List.append_nil]

theorem other_leaves {o : Op} (other : o.onSandboxes = false) :
    (runtimeProcess rt agents sid).Respects Leaves (Program.perform o) := by
  refine .perform fun w w₁ answer w' r interferes performed => ⟨?_, ?_, ?_⟩
  · simp [acquired, acquires_of_other other]
  · simp [destroyed, destroys_of_other other]
  · rw [World.perform_provisioned performed (by rintro id rfl; cases other),
      interferes_provisioned interferes]

/-- Begun without sandboxes and not cancelled, the part destroys each one it acquires, once. -/
def Releases (w : World) (h : List Performed) (_ : World) : Prop :=
  w.provisioned = [] → (∀ x ∈ h, raised x ≠ some .cancelledError) →
    ∀ id ∈ acquired h, (destroyed h).count id = 1

theorem Leaves.releases {h : List Performed} (leaves : Leaves w h w') : Releases w h w' := by
  intro _ _ id mem
  rw [leaves.acquired] at mem
  cases mem

theorem Releases.after {α β : Type} {p : Harness β} {f : β → Harness α}
    (first : (runtimeProcess rt agents sid).Respects Leaves p)
    (second : ∀ b, (runtimeProcess rt agents sid).Respects Releases (f b)) :
    (runtimeProcess rt agents sid).Respects Releases (p.bind f) := by
  intro w h out w' ran
  rcases Process.evaluates_bind.mp ran with ⟨e, -, failed⟩ | ⟨b, h₁, h₂, w₁, rfl, ran₁, ran₂⟩
  · exact (first _ _ _ _ failed).releases
  · intro unbegun uncancelled id mem
    have leaves := first _ _ _ _ ran₁
    rw [acquired_append, leaves.acquired, List.nil_append] at mem
    rw [destroyed_append, leaves.destroyed, List.nil_append]
    exact second b _ _ _ _ ran₂ (leaves.same.trans unbegun)
      (fun x mem => uncancelled x (List.mem_append_right _ mem)) id mem

theorem Releases.before {α β : Type} {p : Harness β} {f : β → Harness α}
    (first : (runtimeProcess rt agents sid).Respects Releases p)
    (second : ∀ b, (runtimeProcess rt agents sid).Respects Leaves (f b)) :
    (runtimeProcess rt agents sid).Respects Releases (p.bind f) := by
  intro w h out w' ran
  rcases Process.evaluates_bind.mp ran with ⟨e, -, failed⟩ | ⟨b, h₁, h₂, w₁, rfl, ran₁, ran₂⟩
  · exact first _ _ _ _ failed
  · intro unbegun uncancelled id mem
    have leaves := second b _ _ _ _ ran₂
    rw [acquired_append, leaves.acquired, List.append_nil] at mem
    rw [destroyed_append, leaves.destroyed, List.append_nil]
    exact first _ _ _ _ ran₁ unbegun
      (fun x mem => uncancelled x (List.mem_append_left _ mem)) id mem

/-- The `try … finally …`, for any body that collects what it acquires. -/
theorem Releases.tryFinally {α : Type} {body : Harness α}
    (collects : (runtimeProcess rt agents sid).Respects (Collects rt.sandbox) body) :
    (runtimeProcess rt agents sid).Respects Releases (body.tryFinally (destroySandboxes rt)) := by
  intro w h out w' ran unbegun uncancelled id mem
  obtain ⟨r, c, h₁, h₂, w₁, rfl, ran₁, ran₂, -⟩ := Process.evaluates_tryFinally.mp ran
  have collected := collects _ _ _ _ ran₁
  rw [acquired_append] at mem
  cases wired : rt.sandbox with
  | false =>
      rw [destroySandboxes, if_pos wired] at ran₂
      obtain ⟨rfl, -, -⟩ := Process.evaluates_pure.mp ran₂
      rw [show acquired [] = [] from rfl, List.append_nil] at mem
      have wired' := (collected.acquired id mem).1
      rw [wired] at wired'
      cases wired'
  | true =>
      obtain ⟨took, gave⟩ := destroySandboxes_destroys wired
        (fun x mem => uncancelled x (List.mem_append_right _ mem)) ran₂
      rw [gave, List.append_nil] at mem
      rw [destroyed_append, collected.destroyed, took, List.nil_append]
      refine List.count_eq_one_of_mem (collected.nodup ?_) (collected.acquired id mem).2
      rw [unbegun]
      exact List.nodup_nil

/-- However the run ends, unless it is cancelled, `Sandbox.destroy` has been called exactly
once on every sandbox that was provisioned for it or reused. -/
theorem destroyed_once {w w' : World} {h : List Performed} {out : Except Exn Unit}
    (ran : (runtimeProcess rt agents sid).Evaluates (runSession rt sid) w.boot h out w')
    (uncancelled : ∀ x ∈ h, raised x ≠ some .cancelledError) :
    ∀ id ∈ acquired h, (destroyed h).count id = 1 := by
  have releases : (runtimeProcess rt agents sid).Respects Releases (runSession rt sid) := by
    unfold runSession
    refine .after (other_leaves rfl) fun session => ?_
    refine .after (other_leaves rfl) fun agent => ?_
    refine .after (.settle leaves_composes _) fun profile => ?_
    refine .after (.settle leaves_composes _) fun adapter => ?_
    refine .after ?_ fun _ => ?_
    · unfold seedSystemPromptIfNeeded
      split
      · exact .pure leaves_composes _
      · split
        · exact .pure leaves_composes _
        · exact .bind leaves_composes (other_leaves rfl) fun _ => .pure leaves_composes _
    refine .after (other_leaves rfl) fun startedAt => ?_
    refine .before (.tryFinally (runTurns_collects _)) fun _ => ?_
    exact .bind leaves_composes (other_leaves rfl) fun _ => .pure leaves_composes _
  exact releases _ _ _ _ ran rfl uncancelled

section Reprovisioned

/-- A runtime with a sandbox service. -/
def Runtime.boxed (profile : Profile) : Runtime :=
  { Runtime.bare profile with sandbox := true, validateRecipe := fun _ => .ok .default }

/-- The first sandbox dies of its tool, a second one is provisioned, the model stream breaks
off, and the first destruction fails. -/
def brokenOff : List Answer :=
  [.done, .done, .reads 0, .done, .done, .streams ⟨[.toolCallEnd "t1" "bash" [] 0], none⟩,
    .done, .done, .done, .provisions "c1", .done, .done, .raises (.other "exec died"), .done,
    .done, .done, .streams ⟨[.toolCallEnd "t2" "bash" [] 0], none⟩, .done, .done, .done,
    .reports .error, .provisions "c2", .done, .done, .results ⟨false, "", "", "", some 0, none⟩,
    .done, .done, .done, .streams ⟨[], some (.other "model gone")⟩, .done,
    .raises (.other "daemon gone"), .done]

/-- A new session in which the user has said something. -/
def World.asked : World :=
  ((World.create "s" "agent").draw.1.emit (.uuid4 0) .userMessage [("content", .str "go")]).1

theorem destroyed_once_reprovisioned : ∃ (w' : World) (h : List Performed) (out : Except Exn Unit),
    (runtimeProcess (.boxed .roomy) (fun _ => some (.plain none)) "s").Evaluates
      (runSession (.boxed .roomy) "s") World.asked.boot h out w' ∧
    acquired h = ["c1", "c2"] ∧ out.toBool = false ∧
    ∀ id ∈ acquired h, (destroyed h).count id = 1 := by
  obtain ⟨⟨h, out, w'⟩, ran, facts⟩ := Option.map_eq_some_iff.mp (show
    ((runtimeProcess (.boxed .roomy) (fun _ => some (.plain none)) "s").evaluate
      (runSession (.boxed .roomy) "s") World.asked.boot brokenOff).map (fun x =>
        (acquired x.1, x.2.1.toBool, x.1.all fun x => raised x ≠ some .cancelledError)) =
      some (["c1", "c2"], false, true) by decide +kernel)
  obtain ⟨both, failed, uncancelled⟩ := by simpa only [Prod.mk.injEq] using facts
  have evaluates := Process.evaluates_of_evaluate ran
  refine ⟨w', h, out, evaluates, both, failed, destroyed_once evaluates fun x mem => ?_⟩
  exact of_decide_eq_true (List.all_eq_true.mp uncancelled x mem)

end Reprovisioned

end Tename
