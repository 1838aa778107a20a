import Tename.Harness.Sandboxes
import Tename.Sandbox.Teardown

/-!
# The containers of a run

The loop over a sandbox service over docker. A run begins without sandboxes, takes some from the
service or finds them alive, and gives back each: when it has ended, docker has been asked to stop
and to remove every container of the run, and neither the backend nor the service knows the
sandbox any more. Calls of other sessions on sandboxes of their own may come in between.
-/

namespace Tename

/-- The call of the service that an operation makes. -/
def Op.request? : Op → Option SandboxRequest
  | .sandboxProvision recipe => some (.provision recipe)
  | .sandboxStatus id => some (.status id)
  | .sandboxExecute id tool input => some (.execute id tool input)
  | .sandboxDestroy id => some (.destroy id)
  | _ => none

/-- What an operation gets from a call that has ended. -/
def SandboxPhase.outcome? : (o : Op) → SandboxPhase → Option (Except Exn o.Res)
  | .sandboxProvision _, .provisioned id => some (.ok id)
  | .sandboxStatus _, .reported status => some (.ok status)
  | .sandboxExecute .., .executed r => some (.ok r)
  | .sandboxDestroy _, .destroyed => some (.ok ())
  | _, .raised e => some (.error e)
  | _, _ => none

/-- What a call asks of docker, under the sandbox that it is about. -/
def SandboxRequest.label (q : SandboxRequest) (ops : List LifeOp) : List (SandboxId × LifeOp) :=
  match q.sandbox? with
  | some id => ops.map fun o => (id, o)
  | none => []

/-- What has been asked of docker about a sandbox. -/
def opsOn (id : SandboxId) (ops : List (SandboxId × LifeOp)) : List LifeOp :=
  ops.filterMap fun p => if p.1 = id then some p.2 else none

@[simp] theorem opsOn_append (id : SandboxId) (ops ops' : List (SandboxId × LifeOp)) :
    opsOn id (ops ++ ops') = opsOn id ops ++ opsOn id ops' :=
  List.filterMap_append

theorem opsOn_label (id : SandboxId) (q : SandboxRequest) (ops : List LifeOp) :
    opsOn id (q.label ops) = if q.sandbox? = some id then ops else [] := by
  unfold SandboxRequest.label
  cases q.sandbox? with
  | none => rfl
  | some id' =>
      by_cases here : id' = id
      · simp [opsOn, here, List.filterMap_map]
      · simp [opsOn, here, List.filterMap_map]

section Serving

variable {σ : Type} (repr : String → String) (docker : DockerHandler σ) (life : LifeHandler σ)
variable (leaves : SandboxId → SandboxStack σ → SandboxStack σ → Prop)

/-- The service answers the sandbox operations of a history, for a run that holds some sandboxes
already. Others leave the entries of these alone, and what `leaves` says. -/
inductive SandboxStack.Serves : List SandboxId → SandboxStack σ → List Performed →
    List (SandboxId × LifeOp) → SandboxStack σ → Prop
  | done {held : List SandboxId} {s : SandboxStack σ} : Serves held s [] [] s
  | other {held : List SandboxId} {s s₁ s' : SandboxStack σ} {h : List Performed}
      {ops : List (SandboxId × LifeOp)} (apart : ∀ id ∈ held, s.SameAt s₁ id ∧ leaves id s s₁)
      (rest : Serves held s₁ h ops s') : Serves held s h ops s'
  | quiet {held : List SandboxId} {s s' : SandboxStack σ} {x : Performed} {h : List Performed}
      {ops : List (SandboxId × LifeOp)} (silent : x.op.request? = none)
      (rest : Serves held s h ops s') : Serves held s (x :: h) ops s'
  | call {held : List SandboxId} {s s₁ s' : SandboxStack σ} {x : Performed} {h : List Performed}
      {q : SandboxRequest} {fate : CallFate} {asked : List LifeOp} {phase : SandboxPhase}
      {ops : List (SandboxId × LifeOp)} (request : x.op.request? = some q)
      (called : s.call repr docker life fate q = some (asked, phase, s₁))
      (outcome : phase.outcome? x.op = some x.outcome)
      (rest : Serves (held ++ (acquires x).toList) s₁ h ops s') :
      Serves held s (x :: h) (q.label asked ++ ops) s'

namespace SandboxStack

variable {repr docker life leaves} {held : List SandboxId} {s s₁ s' : SandboxStack σ}
variable {x : Performed} {h h' : List Performed} {ops : List (SandboxId × LifeOp)}
variable {fate : CallFate}

theorem SameAt.trans {id : SandboxId} (first : s.SameAt s₁ id) (second : s₁.SameAt s' id) :
    s.SameAt s' id :=
  ⟨second.tracker.trans first.tracker, second.container.trans first.container⟩

theorem acquires_of_silent (silent : x.op.request? = none) : acquires x = none := by
  obtain ⟨o, answer, r⟩ := x
  cases o <;> first | rfl | cases silent

theorem destroys_of_silent (silent : x.op.request? = none) : destroys x = none := by
  obtain ⟨o, answer, r⟩ := x
  cases o <;> first | rfl | cases silent

theorem acquires_of_destroys (takes : (destroys x).isSome) : acquires x = none := by
  obtain ⟨o, answer, r⟩ := x
  cases o <;> first | rfl | cases takes

theorem acquired_cons (x : Performed) (h : List Performed) :
    acquired (x :: h) = (acquires x).toList ++ acquired h := by
  cases gives : acquires x <;> simp [acquired, gives]

theorem destroyed_cons (x : Performed) (h : List Performed) :
    destroyed (x :: h) = (destroys x).toList ++ destroyed h := by
  cases takes : destroys x <;> simp [destroyed, takes]

/-- The parts of a history are served one after the other. -/
theorem Serves.split (served : Serves repr docker life leaves held s (h ++ h') ops s') :
    ∃ ops₁ ops₂ s₁, ops = ops₁ ++ ops₂ ∧ Serves repr docker life leaves held s h ops₁ s₁ ∧
      Serves repr docker life leaves (held ++ acquired h) s₁ h' ops₂ s' := by
  generalize whole : h ++ h' = hs at served
  induction served generalizing h with
  | @done held s =>
      obtain ⟨rfl, rfl⟩ := List.append_eq_nil_iff.mp whole
      exact ⟨[], [], s, rfl, .done, by simpa [acquired] using .done⟩
  | other apart rest ih =>
      obtain ⟨ops₁, ops₂, s₁, rfl, first, second⟩ := ih whole
      exact ⟨ops₁, ops₂, s₁, rfl, .other apart first, second⟩
  | @quiet held s s' x hs ops silent rest ih =>
      cases h with
      | nil =>
          obtain rfl : h' = x :: hs := whole
          exact ⟨[], ops, s, rfl, .done, by simpa [acquired] using .quiet silent rest⟩
      | cons y h =>
          rw [List.cons_append] at whole
          obtain ⟨rfl, tail⟩ := List.cons.inj whole
          obtain ⟨ops₁, ops₂, s₁, rfl, first, second⟩ := ih tail
          refine ⟨ops₁, ops₂, s₁, rfl, .quiet silent first, ?_⟩
          rwa [acquired_cons, acquires_of_silent silent]
  | @call held s s₁ s' x hs q fate asked phase ops request called outcome rest ih =>
      cases h with
      | nil =>
          obtain rfl : h' = x :: hs := whole
          exact ⟨[], _, s, rfl, .done, by simpa [acquired] using .call request called outcome rest⟩
      | cons y h =>
          rw [List.cons_append] at whole
          obtain ⟨rfl, tail⟩ := List.cons.inj whole
          obtain ⟨ops₁, ops₂, s₂, rfl, first, second⟩ := ih tail
          refine ⟨_, ops₂, s₂, (List.append_assoc ..).symm, .call request called outcome first, ?_⟩
          rwa [acquired_cons, ← List.append_assoc]

/-- A call that destroys nothing keeps the entries, makes one for what it gives, and no more
than looks at a container. -/
theorem keeps_of_call {q : SandboxRequest} {asked : List LifeOp} {phase : SandboxPhase}
    (request : x.op.request? = some q)
    (called : s.call repr docker life fate q = some (asked, phase, s₁))
    (outcome : phase.outcome? x.op = some x.outcome) (spares : destroys x = none) :
    (∀ id, (s.backend.containers id).isSome → (s₁.backend.containers id).isSome) ∧
      (∀ o ∈ asked, ∃ c, o = .reload c) ∧
      ∀ id, acquires x = some id → (s₁.backend.containers id).isSome := by
  obtain ⟨o, answer, r⟩ := x
  cases o with
  | sandboxProvision recipe =>
      obtain rfl := Option.some.inj request
      obtain ⟨rfl, kept, made⟩ := call_provision called
      refine ⟨kept, by simp, fun id gives => made id ?_⟩
      cases phase with
      | provisioned id' =>
          obtain rfl := Option.some.inj outcome
          obtain rfl := Option.some.inj gives
          rfl
      | raised e =>
          obtain rfl := Option.some.inj outcome
          cases gives
      | _ => cases outcome
  | sandboxStatus id =>
      obtain rfl := Option.some.inj request
      obtain ⟨same, looks, found⟩ := call_status called
      refine ⟨fun id there => by rwa [same], looks, fun id' gives => ?_⟩
      cases phase with
      | reported status =>
          obtain rfl := Option.some.inj outcome
          change (if status.live then some id else none) = some id' at gives
          split at gives
          · rename_i live
            obtain rfl := Option.some.inj gives
            rw [same]
            exact found status rfl (by rintro rfl; cases live)
          · cases gives
      | raised e =>
          obtain rfl := Option.some.inj outcome
          cases gives
      | _ => cases outcome
  | sandboxExecute id tool input =>
      obtain rfl := Option.some.inj request
      obtain ⟨rfl, same⟩ := call_execute called
      exact ⟨fun id there => by rwa [same], by simp, by rintro id ⟨⟩⟩
  | sandboxDestroy id => cases spares
  | _ => cases request

/-- While nothing is destroyed, what the run holds stays entered. -/
theorem Serves.keeps (served : Serves repr docker life leaves held s h ops s')
    (spares : destroyed h = [])
    (there : ∀ id ∈ held, (s.backend.containers id).isSome) :
    (∀ id ∈ held ++ acquired h, (s'.backend.containers id).isSome) ∧
      ∀ id, ∀ o ∈ opsOn id ops, ∃ c, o = .reload c := by
  induction served with
  | done => exact ⟨by simpa [acquired] using there, by rintro id o ⟨⟩⟩
  | other apart rest ih =>
      exact ih spares fun id mem => by rw [(apart id mem).1.container, there id mem]
  | quiet silent rest ih =>
      rw [destroyed_cons, destroys_of_silent silent] at spares
      rw [acquired_cons, acquires_of_silent silent]
      exact ih spares there
  | @call held s s₁ s' x h q fate asked phase ops request called outcome rest ih =>
      rw [destroyed_cons] at spares
      obtain ⟨spared, spares⟩ := List.append_eq_nil_iff.mp spares
      have spared : destroys x = none := by simpa using spared
      obtain ⟨kept, looks, made⟩ := keeps_of_call request called outcome spared
      obtain ⟨entered, looked⟩ := ih spares (by
        intro id mem
        rcases List.mem_append.mp mem with before | new
        · exact kept id (there id before)
        · exact made id (by simpa using new))
      refine ⟨by rwa [acquired_cons, ← List.append_assoc], fun id o mem => ?_⟩
      rw [opsOn_append, opsOn_label] at mem
      rcases List.mem_append.mp mem with here | later
      · split at here
        · exact looks o here
        · cases here
      · exact looked id o later

end SandboxStack

end Serving

section Parts

variable {rt : Runtime} {agents : AgentId → Option Agent} {sid : SessionId}
variable {w w' : World} {h : List Performed}

/-- The service is asked for nothing, and the set of the process stays as it is. -/
structure Aside (w : World) (h : List Performed) (w' : World) : Prop where
  silent : ∀ x ∈ h, x.op.request? = none
  same : w'.provisioned = w.provisioned

theorem Aside.acquired (aside : Aside w h w') : acquired h = [] :=
  List.filterMap_eq_nil_iff.mpr fun x mem => SandboxStack.acquires_of_silent (aside.silent x mem)

theorem Aside.destroyed (aside : Aside w h w') : destroyed h = [] :=
  List.filterMap_eq_nil_iff.mpr fun x mem => SandboxStack.destroys_of_silent (aside.silent x mem)

/-- A part that destroys nothing, and then one that does nothing but destroy, with what the first
has acquired. -/
def Parted (h : List Performed) : Prop :=
  ∃ h₁ h₂, h = h₁ ++ h₂ ∧ Tename.destroyed h₁ = [] ∧
    (∀ x ∈ h₂, x.op.request? = none ∨ (destroys x).isSome) ∧
    (Tename.destroyed h₂).Nodup ∧ Tename.acquired h ⊆ Tename.destroyed h₂

/-- Begun without sandboxes and not cancelled, the history is parted. -/
def Parts (w : World) (h : List Performed) (_ : World) : Prop :=
  w.provisioned = [] → (∀ x ∈ h, raised x ≠ some .cancelledError) → Parted h

theorem Aside.parts (aside : Aside w h w') : Parts w h w' := fun _ _ =>
  ⟨h, [], (List.append_nil h).symm, aside.destroyed, by rintro x ⟨⟩, List.nodup_nil,
    by rw [aside.acquired]; exact List.nil_subset _⟩

theorem Parts.after {α β : Type} {p : Harness β} {f : β → Harness α}
    (first : (runtimeProcess rt agents sid).Respects Aside p)
    (second : ∀ b, (runtimeProcess rt agents sid).Respects Parts (f b)) :
    (runtimeProcess rt agents sid).Respects Parts (p.bind f) := by
  intro w h out w' ran
  rcases Process.evaluates_bind.mp ran with ⟨e, -, failed⟩ | ⟨b, h₁, h₂, w₁, rfl, ran₁, ran₂⟩
  · exact (first _ _ _ _ failed).parts
  · intro unbegun uncancelled
    have aside := first _ _ _ _ ran₁
    obtain ⟨before, after, rfl, spares, only, once, collected⟩ := second b _ _ _ _ ran₂
      (aside.same.trans unbegun) fun x mem => uncancelled x (List.mem_append_right _ mem)
    refine ⟨h₁ ++ before, after, (List.append_assoc ..).symm, ?_, only, once, ?_⟩
    · rw [destroyed_append, aside.destroyed, spares]
      rfl
    · rwa [acquired_append, aside.acquired]

theorem Parts.before {α β : Type} {p : Harness β} {f : β → Harness α}
    (first : (runtimeProcess rt agents sid).Respects Parts p)
    (second : ∀ b, (runtimeProcess rt agents sid).Respects Aside (f b)) :
    (runtimeProcess rt agents sid).Respects Parts (p.bind f) := by
  intro w h out w' ran
  rcases Process.evaluates_bind.mp ran with ⟨e, -, failed⟩ | ⟨b, h₁, h₂, w₁, rfl, ran₁, ran₂⟩
  · exact first _ _ _ _ failed
  · intro unbegun uncancelled
    have aside := second b _ _ _ _ ran₂
    obtain ⟨before, after, rfl, spares, only, once, collected⟩ := first _ _ _ _ ran₁ unbegun
      fun x mem => uncancelled x (List.mem_append_left _ mem)
    refine ⟨before, after ++ h₂, List.append_assoc .., spares, fun x mem => ?_, ?_, ?_⟩
    · rcases List.mem_append.mp mem with cleaning | later
      · exact only x cleaning
      · exact .inl (aside.silent x later)
    · rwa [destroyed_append, aside.destroyed, List.append_nil]
    · rwa [acquired_append, aside.acquired, List.append_nil, destroyed_append, aside.destroyed,
        List.append_nil]

/-- The `finally` asks for nothing but destructions. -/
theorem destroySandboxes_only : (runtimeProcess rt agents sid).Respects
    (fun _ h _ => ∀ x ∈ h, x.op.request? = none ∨ (destroys x).isSome) (destroySandboxes rt) := by
  have composes : Process.Composes fun (_ : World) (h : List Performed) (_ : World) =>
      ∀ x ∈ h, x.op.request? = none ∨ (destroys x).isSome :=
    ⟨by rintro w x ⟨⟩, fun w h w₁ h' w' first second x mem =>
      (List.mem_append.mp mem).elim (first x) (second x)⟩
  unfold destroySandboxes
  split
  · exact .pure composes ()
  · refine .bind composes (.perform fun w w₁ answer w' r _ _ x mem => ?_) fun ids => ?_
    · rw [List.mem_singleton.mp mem]
      exact .inl rfl
    · refine .forEach composes (fun id => ?_) ids
      refine .bind composes (.attempt (.perform fun w w₁ answer w' r _ _ x mem => ?_)) fun r => ?_
      · rw [List.mem_singleton.mp mem]
        exact .inr rfl
      · split
        · exact .pure composes ()
        · split
          · exact .pure composes ()
          · exact .throw composes _

/-- The `try … finally …`, for any body that collects what it acquires. -/
theorem Parts.tryFinally {α : Type} {body : Harness α}
    (collects : (runtimeProcess rt agents sid).Respects (Collects rt.sandbox) body) :
    (runtimeProcess rt agents sid).Respects Parts (body.tryFinally (destroySandboxes rt)) := by
  intro w h out w' ran unbegun uncancelled
  obtain ⟨r, c, h₁, h₂, w₁, rfl, ran₁, ran₂, -⟩ := Process.evaluates_tryFinally.mp ran
  have collected := collects _ _ _ _ ran₁
  refine ⟨h₁, h₂, rfl, collected.destroyed, destroySandboxes_only _ _ _ _ ran₂, ?_⟩
  cases wired : rt.sandbox with
  | false =>
      rw [destroySandboxes, if_pos wired] at ran₂
      obtain ⟨rfl, -, -⟩ := Process.evaluates_pure.mp ran₂
      refine ⟨List.nodup_nil, fun id mem => ?_⟩
      rw [List.append_nil] at mem
      cases wired.symm.trans (collected.acquired id mem).1
  | true =>
      obtain ⟨took, gave⟩ := destroySandboxes_destroys wired
        (fun x mem => uncancelled x (List.mem_append_right _ mem)) ran₂
      rw [took, acquired_append, gave, List.append_nil]
      refine ⟨collected.nodup ?_, fun id mem => (collected.acquired id mem).2⟩
      rw [unbegun]
      exact List.nodup_nil

end Parts

section Served

variable {σ : Type} (repr : String → String) (docker : DockerHandler σ) (life : LifeHandler σ)

/-- The outcomes of a call on the service are the same. -/
def agree : (o : Op) → Except Exn o.Res → Except Exn o.Res → Bool
  | _, .error e, .error e' => e = e'
  | .sandboxProvision _, .ok id, .ok id' => id = id'
  | .sandboxStatus _, .ok status, .ok status' => status = status'
  | .sandboxExecute .., .ok r, .ok r' => r = r'
  | .sandboxDestroy _, .ok _, .ok _ => true
  | _, _, _ => false

/-- Serve a history without interference, with one fate for all calls. -/
def SandboxStack.serve? (fate : CallFate) (s : SandboxStack σ) :
    List Performed → Option (List (SandboxId × LifeOp) × SandboxStack σ)
  | [] => some ([], s)
  | x :: h =>
      match x.op.request? with
      | none => s.serve? fate h
      | some q =>
          (s.call repr docker life fate q).bind fun (asked, phase, s₁) =>
            (phase.outcome? x.op).bind fun outcome =>
              if agree x.op outcome x.outcome then
                (s₁.serve? fate h).map fun (ops, s') => (q.label asked ++ ops, s')
              else none

variable {repr docker life}

theorem eq_of_agree {o : Op} {r r' : Except Exn o.Res} (h : agree o r r' = true) : r = r' := by
  rcases r with e | a <;> rcases r' with e' | a'
  · rw [agree, decide_eq_true_eq] at h
    rw [h]
  · cases o <;> cases h
  · cases o <;> cases h
  · cases o with
    | sandboxProvision _ => exact congrArg Except.ok (of_decide_eq_true h)
    | sandboxStatus _ => exact congrArg Except.ok (of_decide_eq_true h)
    | sandboxExecute _ _ _ => exact congrArg Except.ok (of_decide_eq_true h)
    | sandboxDestroy _ => rfl
    | _ => cases h

theorem SandboxStack.serves_of_serve? {fate : CallFate} {h : List Performed}
    {s s' : SandboxStack σ} {ops : List (SandboxId × LifeOp)}
    (leaves : SandboxId → SandboxStack σ → SandboxStack σ → Prop) (held : List SandboxId)
    (served : s.serve? repr docker life fate h = some (ops, s')) :
    s.Serves repr docker life leaves held h ops s' := by
  induction h generalizing s held ops with
  | nil =>
      cases served
      exact .done
  | cons x h ih =>
      rw [serve?] at served
      split at served
      · rename_i silent
        exact .quiet silent (ih held served)
      · rename_i q request
        obtain ⟨⟨asked, phase, s₁⟩, called, served⟩ := Option.bind_eq_some_iff.mp served
        obtain ⟨outcome, ended, served⟩ := Option.bind_eq_some_iff.mp served
        split at served
        · rename_i same
          obtain ⟨⟨ops₁, s₂⟩, rest, joined⟩ := Option.map_eq_some_iff.mp served
          cases joined
          exact .call request called (by rw [ended, eq_of_agree same]) (ih _ rest)
        · cases served

end Served

end Tename
