import Mathlib.Data.List.Nodup
import Tename.Transition.Basic

/-!
# Calls that overlap, one after another

The calls of a system may overlap, and a call that has begun need not return. They are
linearized by an order of the calls if, at every moment of a run, those that have returned return
what a sequential object returns when it is called in that order, and leave what the system shows;
and if no call comes before one that had returned when it began.

An order is found step by step: a call is placed at the end of it, and may be dropped again as
long as it has not returned. `Continues` says that this is all that has happened to an order, and
`linearizes_of_effects` carries a plan that every step can follow over a whole run.
-/

namespace Transition

variable {ι κ ρ τ : Type*}

/-- The calls return what the ledger has for them, one after another. -/
inductive Replays (object : κ → τ → τ × ρ) (ledger : ι → Option (κ × ρ)) : τ → List ι → τ → Prop
  | done {t : τ} : Replays object ledger t [] t
  | call {t t' t'' : τ} {i : ι} {k : κ} {r : ρ} {rest : List ι} (known : ledger i = some (k, r))
      (returns : object k t = (t', r)) (more : Replays object ledger t' rest t'') :
      Replays object ledger t (i :: rest) t''

namespace Replays

variable {object : κ → τ → τ × ρ} {ledger ledger' : ι → Option (κ × ρ)}
variable {t t' t'' : τ} {order order' : List ι}

theorem append (first : Replays object ledger t order t')
    (second : Replays object ledger t' order' t'') :
    Replays object ledger t (order ++ order') t'' := by
  induction first with
  | done => exact second
  | call known returns _ ih => exact .call known returns (ih second)

theorem snoc {i : ι} {k : κ} {r : ρ} (first : Replays object ledger t order t')
    (known : ledger i = some (k, r)) (returns : object k t' = (t'', r)) :
    Replays object ledger t (order ++ [i]) t'' :=
  first.append (.call known returns .done)

theorem congr (replays : Replays object ledger t order t')
    (same : ∀ i ∈ order, ledger' i = ledger i) : Replays object ledger' t order t' := by
  induction replays with
  | done => exact .done
  | call known returns _ ih =>
      refine .call ?_ returns (ih fun i mem => same i (List.mem_cons_of_mem _ mem))
      rw [same _ List.mem_cons_self, known]

end Replays

/-- Calls that have not returned may have gone from an order, or have come at its end. -/
def Continues (returned : ι → Prop) (order order' : List ι) : Prop :=
  ∃ (keep : ι → Bool) (new : List ι), order' = order.filter keep ++ new ∧
    (∀ i, returned i → keep i = true) ∧ ∀ i ∈ new, ¬ returned i

namespace Continues

variable {returned returned' : ι → Prop} {order order' order'' : List ι} {i : ι}

theorem refl : Continues returned order order :=
  ⟨fun _ => true, [], by simp, fun _ _ => rfl, by simp⟩

theorem place (open' : ¬ returned i) : Continues returned order (order ++ [i]) :=
  ⟨fun _ => true, [i], by simp, fun _ _ => rfl, by simpa using open'⟩

theorem drop [DecidableEq ι] {front late : List ι} (nodup : (front ++ i :: late).Nodup)
    (open' : ¬ returned i) : Continues returned (front ++ i :: late) (front ++ late) := by
  have apart : i ∉ front ++ late := (List.nodup_middle.mp nodup).notMem
  refine ⟨fun j => j ≠ i, [], ?_, ?_, by simp⟩
  · have kept : (front ++ late).filter (fun j => decide (j ≠ i)) = front ++ late := by
      refine List.filter_eq_self.mpr fun j mem => decide_eq_true ?_
      rintro rfl
      exact apart mem
    simpa using kept.symm
  · intro j done
    refine decide_eq_true ?_
    rintro rfl
    exact open' done

theorem trans (first : Continues returned order order')
    (second : Continues returned' order' order'') (kept : ∀ i, returned i → returned' i) :
    Continues returned order order'' := by
  obtain ⟨keep, new, rfl, keeps, fresh⟩ := first
  obtain ⟨keep', new', rfl, keeps', fresh'⟩ := second
  refine ⟨fun i => keep i && keep' i, new.filter keep' ++ new', ?_, ?_, ?_⟩
  · rw [List.filter_append, List.filter_filter, List.append_assoc]
    congr 2
    exact funext fun i => Bool.and_comm _ _
  · intro i done
    exact Bool.and_eq_true_iff.mpr ⟨keeps i done, keeps' i (kept i done)⟩
  · intro i mem
    rcases List.mem_append.mp mem with mem | mem
    · exact fresh i (List.mem_filter.mp mem).1
    · exact fun done => fresh' i mem (kept i done)

/-- What is new comes after all that has returned. -/
theorem sublist {j : ι} (h : Continues returned order order') (placed : i ∈ order)
    (done : returned i) (fresh : j ∉ order) (mem : j ∈ order') : [i, j].Sublist order' := by
  obtain ⟨keep, new, rfl, keeps, -⟩ := h
  have first : i ∈ order.filter keep := List.mem_filter.mpr ⟨placed, keeps i done⟩
  have last : j ∈ new := by
    rcases List.mem_append.mp mem with mem | mem
    · exact absurd (List.mem_filter.mp mem).1 fresh
    · exact mem
  exact (List.singleton_sublist.mpr first).append (List.singleton_sublist.mpr last)

/-- The calls that have returned stand as they stood. -/
theorem filter_eq {done : ι → Bool} (h : Continues (fun i => done i = true) order order') :
    order'.filter done = order.filter done := by
  obtain ⟨keep, new, rfl, keeps, fresh⟩ := h
  have gone : new.filter done = [] := List.filter_eq_nil_iff.mpr fresh
  rw [List.filter_append, gone, List.append_nil, List.filter_filter]
  refine List.filter_congr fun i _ => ?_
  cases decided : done i with
  | false => rfl
  | true => exact Bool.and_eq_true_iff.mpr ⟨rfl, keeps i decided⟩

end Continues

/-- An order of the calls whose return is settled. The system shows what they leave, but for one
of them that may be waiting to show its effect; the calls behind it have not noticed it. -/
inductive Planned (object : κ → τ → τ × ρ) (ahead : κ → ρ → τ → τ → Prop)
    (ledger : ι → Option (κ × ρ)) (waits : ι → Prop) (shown : τ → Prop) (t₀ : τ) : List ι → Prop
  | settled {order : List ι} {t : τ} (quiet : ∀ i, ¬ waits i)
      (replays : Replays object ledger t₀ order t) (holds : shown t) :
      Planned object ahead ledger waits shown t₀ order
  | waiting {front late : List ι} {i : ι} {k : κ} {r : ρ} {u u' t w : τ}
      (alone : ∀ j, waits j ↔ j = i) (known : ledger i = some (k, r))
      (before : Replays object ledger t₀ front u) (returns : object k u = (u', r))
      (after : Replays object ledger u' late t) (without : Replays object ledger u late w)
      (leads : ahead k r t w) (holds : shown w) :
      Planned object ahead ledger waits shown t₀ (front ++ i :: late)

/-- What a step may do to the calls: nothing; settle a call that shows its effect at once, and
does not notice the one that waits; settle one that waits; show its effect; or give it up. -/
inductive Effect (object : κ → τ → τ × ρ) (ahead : κ → ρ → τ → τ → Prop) [DecidableEq ι]
    (ledger ledger' : ι → Option (κ × ρ)) (waits waits' : ι → Prop) (shown shown' : τ → Prop) : Prop
  | idle (same : ledger' = ledger) (still : ∀ i, waits' i ↔ waits i)
      (reveals : ∀ t, shown t → shown' t)
  | settles {i : ι} {k : κ} {r : ρ} (new : ledger i = none)
      (adds : ledger' = Function.update ledger i (some (k, r))) (still : ∀ i, waits' i ↔ waits i)
      (returns : ∀ t, shown t → ∃ t', object k t = (t', r) ∧ shown' t')
      (unnoticed : ∀ j k' r' t w w', waits j → ledger j = some (k', r') → ahead k' r' t w →
        object k w = (w', r) → ∃ t', object k t = (t', r) ∧ ahead k' r' t' w')
  | opens {i : ι} {k : κ} {r : ρ} (new : ledger i = none)
      (adds : ledger' = Function.update ledger i (some (k, r))) (quiet : ∀ j, ¬ waits j)
      (alone : ∀ j, waits' j ↔ j = i)
      (returns : ∀ t, shown t → ∃ t', object k t = (t', r) ∧ ahead k r t' t)
      (reveals : ∀ t, shown t → shown' t)
  | closes {i : ι} {k : κ} {r : ρ} (known : ledger i = some (k, r)) (alone : ∀ j, waits j ↔ j = i)
      (same : ledger' = ledger) (quiet : ∀ j, ¬ waits' j)
      (reveals : ∀ t w, ahead k r t w → shown w → shown' t)
  | drops {i : ι} (alone : ∀ j, waits j ↔ j = i) (gone : ledger' = Function.update ledger i none)
      (quiet : ∀ j, ¬ waits' j) (reveals : ∀ t, shown t → shown' t)

/-- An order of all calls whose return is settled, each once. -/
structure Plan (object : κ → τ → τ × ρ) (ahead : κ → ρ → τ → τ → Prop)
    (ledger : ι → Option (κ × ρ)) (waits : ι → Prop) (shown : τ → Prop) (t₀ : τ)
    (order : List ι) : Prop where
  nodup : order.Nodup
  placed : ∀ i, i ∈ order ↔ ledger i ≠ none
  planned : Planned object ahead ledger waits shown t₀ order

namespace Plan

variable {object : κ → τ → τ × ρ} {ahead : κ → ρ → τ → τ → Prop}
variable {ledger ledger' : ι → Option (κ × ρ)} {waits waits' : ι → Prop} {shown shown' : τ → Prop}
variable {t₀ : τ} {order : List ι}

theorem idle (plan : Plan object ahead ledger waits shown t₀ order)
    (still : ∀ i, waits' i ↔ waits i) (reveals : ∀ t, shown t → shown' t) :
    Plan object ahead ledger waits' shown' t₀ order where
  nodup := plan.nodup
  placed := plan.placed
  planned := by
    cases plan.planned with
    | settled quiet replays holds =>
        exact .settled (fun i waits => quiet i ((still i).mp waits)) replays (reveals _ holds)
    | waiting alone known before returns after without leads holds =>
        exact .waiting (fun j => (still j).trans (alone j)) known before returns after without
          leads (reveals _ holds)

variable {i : ι} {k : κ} {r : ρ}

theorem not_mem (plan : Plan object ahead ledger waits shown t₀ order) (new : ledger i = none) :
    i ∉ order := fun mem => (plan.placed i).mp mem new

theorem nodup_place (plan : Plan object ahead ledger waits shown t₀ order) (new : ledger i = none) :
    (order ++ [i]).Nodup := by
  refine List.nodup_append.mpr ⟨plan.nodup, List.nodup_singleton i, ?_⟩
  rintro j mem _ last rfl
  exact plan.not_mem new (List.mem_singleton.mp last ▸ mem)

theorem closes (plan : Plan object ahead ledger waits shown t₀ order)
    (known : ledger i = some (k, r)) (alone : ∀ j, waits j ↔ j = i) (quiet : ∀ j, ¬ waits' j)
    (reveals : ∀ t w, ahead k r t w → shown w → shown' t) :
    Plan object ahead ledger waits' shown' t₀ order where
  nodup := plan.nodup
  placed := plan.placed
  planned := by
    cases plan.planned with
    | settled quiet => exact absurd ((alone i).mpr rfl) (quiet i)
    | waiting alone' known' before answers after without leads holds =>
        obtain rfl := (alone _).mp ((alone' _).mpr rfl)
        obtain ⟨rfl, rfl⟩ : k = _ ∧ r = _ := by simpa using known.symm.trans known'
        exact .settled quiet (before.append (.call known answers after)) (reveals _ _ leads holds)

/-- What a plan says of the calls that have returned. -/
theorem moment (plan : Plan object ahead ledger waits shown t₀ order)
    {outcome : ι → Option (κ × ρ)} (hides : ∀ i, waits i → outcome i = none)
    (agrees : ∀ i, ¬ waits i → outcome i = ledger i) :
    ∃ t, Replays object outcome t₀ (order.filter fun i => (outcome i).isSome) t ∧ shown t := by
  obtain ⟨nodup, placed, planned⟩ := plan
  have here {i : ι} (mem : i ∈ order) (idle : ¬ waits i) : (outcome i).isSome = true := by
    rw [agrees i idle]
    exact Option.isSome_iff_ne_none.mpr ((placed i).mp mem)
  cases planned with
  | @settled _ t quiet replays holds =>
      refine ⟨t, ?_, holds⟩
      rw [List.filter_eq_self.mpr fun i mem => here mem (quiet i)]
      exact replays.congr fun i _ => agrees i (quiet i)
  | @waiting front late j k r u u' t w alone known before answers after without leads holds =>
      refine ⟨w, ?_, holds⟩
      have outside : j ∉ front ++ late := (List.nodup_middle.mp nodup).notMem
      have idle {i : ι} (mem : i ∈ front ++ late) : ¬ waits i := fun waits =>
        outside ((alone i).mp waits ▸ mem)
      have kept : (front ++ j :: late).filter (fun i => (outcome i).isSome) = front ++ late := by
        have gone : (outcome j).isSome = false := by rw [hides j ((alone j).mpr rfl)]; rfl
        rw [List.filter_append, List.filter_cons_of_neg (by simp [gone]), ← List.filter_append]
        refine List.filter_eq_self.mpr fun i mem => here ?_ (idle mem)
        rcases List.mem_append.mp mem with mem | mem
        · exact List.mem_append_left _ mem
        · exact List.mem_append_right _ (List.mem_cons_of_mem _ mem)
      rw [kept]
      exact (before.append without).congr fun i mem => agrees i (idle mem)

variable [DecidableEq ι]

theorem placed_place (plan : Plan object ahead ledger waits shown t₀ order) (j : ι) :
    j ∈ order ++ [i] ↔ Function.update ledger i (some (k, r)) j ≠ none := by
  by_cases same : j = i
  · subst same
    simp
  · simp [same, plan.placed j]

/-- A ledger with an entry for a call that is not in the order replays the order as before. -/
theorem replays_update {t t' : τ} (replays : Replays object ledger t order t') (apart : i ∉ order)
    (entry : Option (κ × ρ)) : Replays object (Function.update ledger i entry) t order t' := by
  refine replays.congr fun j mem => ?_
  rw [Function.update_of_ne]
  rintro rfl
  exact apart mem

theorem settles (plan : Plan object ahead ledger waits shown t₀ order) (new : ledger i = none)
    (still : ∀ i, waits' i ↔ waits i)
    (returns : ∀ t, shown t → ∃ t', object k t = (t', r) ∧ shown' t')
    (unnoticed : ∀ j k' r' t w w', waits j → ledger j = some (k', r') → ahead k' r' t w →
      object k w = (w', r) → ∃ t', object k t = (t', r) ∧ ahead k' r' t' w') :
    Plan object ahead (Function.update ledger i (some (k, r))) waits' shown' t₀ (order ++ [i]) where
  nodup := plan.nodup_place new
  placed := plan.placed_place
  planned := by
    have apart := plan.not_mem new
    have known : Function.update ledger i (some (k, r)) i = some (k, r) :=
      Function.update_self ..
    cases plan.planned with
    | settled quiet replays holds =>
        obtain ⟨t', answered, holds'⟩ := returns _ holds
        exact .settled (fun i waits => quiet i ((still i).mp waits))
          ((replays_update replays apart _).snoc known answered) holds'
    | @waiting front late j k' r' u u' t w alone known' before answers after without leads holds =>
        obtain ⟨outside, other, behind⟩ : i ∉ front ∧ ¬ i = j ∧ i ∉ late := by
          simpa [not_or] using apart
        obtain ⟨w', answered, holds'⟩ := returns _ holds
        obtain ⟨t', answered', leads'⟩ :=
          unnoticed _ _ _ _ _ _ ((alone j).mpr rfl) known' leads answered
        rw [List.append_assoc, List.cons_append]
        exact .waiting (fun j' => (still j').trans (alone j'))
          (by rw [Function.update_of_ne (Ne.symm other), known'])
          (replays_update before outside _) answers
          ((replays_update after behind _).snoc known answered')
          ((replays_update without behind _).snoc known answered) leads' holds'

theorem opens (plan : Plan object ahead ledger waits shown t₀ order) (new : ledger i = none)
    (quiet : ∀ j, ¬ waits j) (alone : ∀ j, waits' j ↔ j = i)
    (returns : ∀ t, shown t → ∃ t', object k t = (t', r) ∧ ahead k r t' t)
    (reveals : ∀ t, shown t → shown' t) :
    Plan object ahead (Function.update ledger i (some (k, r))) waits' shown' t₀ (order ++ [i]) where
  nodup := plan.nodup_place new
  placed := plan.placed_place
  planned := by
    cases plan.planned with
    | settled _ replays holds =>
        obtain ⟨t', answered, leads⟩ := returns _ holds
        exact .waiting alone (Function.update_self ..)
          (replays_update replays (plan.not_mem new) _) answered .done .done leads (reveals _ holds)
    | waiting alone' => exact absurd ((alone' _).mpr rfl) (quiet _)

theorem drops (plan : Plan object ahead ledger waits shown t₀ order)
    (alone : ∀ j, waits j ↔ j = i) (quiet : ∀ j, ¬ waits' j) (reveals : ∀ t, shown t → shown' t)
    {returned : ι → Prop} (open' : ¬ returned i) : ∃ order',
      Plan object ahead (Function.update ledger i none) waits' shown' t₀ order' ∧
        Continues returned order order' := by
  obtain ⟨nodup, placed, planned⟩ := plan
  cases planned with
  | settled quiet => exact absurd ((alone i).mpr rfl) (quiet i)
  | @waiting front late j k r u u' t w alone' known before answers after without leads holds =>
      obtain rfl := (alone j).mp ((alone' j).mpr rfl)
      have apart := List.nodup_middle.mp nodup
      have outside : j ∉ front ++ late := apart.notMem
      have kept : Replays object ledger t₀ (front ++ late) w := before.append without
      refine ⟨front ++ late, ⟨apart.of_cons, fun i => ?_, ?_⟩, .drop nodup open'⟩
      · by_cases same : i = j
        · subst same
          simpa using outside
        · rw [Function.update_of_ne same, ← placed i]
          simp [same]
      · exact .settled quiet (replays_update kept outside _) (reveals w holds)

/-- A plan can follow every step. -/
theorem follow (plan : Plan object ahead ledger waits shown t₀ order) {returned : ι → Prop}
    (closed : ∀ i, returned i → ledger i ≠ none ∧ ¬ waits i)
    (effect : Effect object ahead ledger ledger' waits waits' shown shown') : ∃ order',
      Plan object ahead ledger' waits' shown' t₀ order' ∧ Continues returned order order' := by
  cases effect with
  | idle same still reveals =>
      subst same
      exact ⟨order, plan.idle still reveals, .refl⟩
  | settles new adds still returns unnoticed =>
      subst adds
      exact ⟨_, plan.settles new still returns unnoticed, .place fun done => (closed _ done).1 new⟩
  | opens new adds quiet alone returns reveals =>
      subst adds
      exact ⟨_, plan.opens new quiet alone returns reveals,
        .place fun done => (closed _ done).1 new⟩
  | closes known alone same quiet reveals =>
      subst same
      exact ⟨order, plan.closes known alone quiet reveals, .refl⟩
  | drops alone gone quiet reveals =>
      subst gone
      exact plan.drops alone quiet reveals fun done => (closed _ done).2 ((alone _).mpr rfl)

end Plan

/-- The calls of a system: which have begun, and what has been asked and returned. -/
structure Calls (σ ι κ ρ : Type*) where
  begun : σ → ι → Prop
  outcome : σ → ι → Option (κ × ρ)

def Calls.returned {σ : Type*} (calls : Calls σ ι κ ρ) (s : σ) (i : ι) : Bool :=
  (calls.outcome s i).isSome

namespace System

variable {σ α : Type*} (S : System σ α) (calls : Calls σ ι κ ρ)
variable (object : κ → τ → τ × ρ) (shown : σ → τ → Prop) (t₀ : τ)

/-- The order linearizes the calls of a run. -/
structure Linearizes (s₀ : σ) (labels : List α) (order : List ι) : Prop where
  nodup : order.Nodup
  /-- At every moment, the calls that have returned do so in the order, and leave what is shown. -/
  moment : ∀ before after s, labels = before ++ after → S.run s₀ before = some s →
    (∀ i, calls.returned s i = true → i ∈ order) ∧
      ∃ t, Replays object (calls.outcome s) t₀ (order.filter (calls.returned s)) t ∧ shown s t
  /-- A call that had returned when another began comes first. -/
  realTime : ∀ before after s, labels = before ++ after → S.run s₀ before = some s →
    ∀ i j, calls.returned s i = true → ¬ calls.begun s j → j ∈ order → [i, j].Sublist order

section Rule

variable {S calls object shown} {t₀ : τ} {s t : σ} {labels : List α} {order : List ι}

/-- A plan that every step can follow is followed by a run, with one order at its end for all its
moments. -/
theorem exists_order (P : σ → List ι → Prop)
    (step : ∀ s a s' order, P s order → S.step s a = some s' →
      ∃ order', P s' order' ∧ Continues (fun i => calls.returned s i = true) order order')
    (stays : ∀ s a s' i, S.step s a = some s' → calls.returned s i = true →
      calls.returned s' i = true)
    (plan : P s order) (ran : S.run s labels = some t) :
    ∃ final, P t final ∧ Continues (fun i => calls.returned s i = true) order final ∧
      ∀ before after s₁, labels = before ++ after → S.run s before = some s₁ →
        ∃ order₁, P s₁ order₁ ∧ Continues (fun i => calls.returned s₁ i = true) order₁ final := by
  induction labels generalizing s order with
  | nil =>
      obtain rfl := Option.some.inj ran
      refine ⟨order, plan, .refl, fun before after s₁ split ran => ?_⟩
      obtain ⟨rfl, rfl⟩ := List.append_eq_nil_iff.mp split.symm
      obtain rfl := Option.some.inj ran
      exact ⟨order, plan, .refl⟩
  | cons a rest ih =>
      obtain ⟨s', stepped, ran⟩ := Option.bind_eq_some_iff.mp ran
      obtain ⟨order', plan', first⟩ := step s a s' order plan stepped
      obtain ⟨final, holds, second, moments⟩ := ih plan' ran
      have whole := first.trans second fun i => stays s a s' i stepped
      refine ⟨final, holds, whole, fun before after s₁ split ran => ?_⟩
      cases before with
      | nil =>
          obtain rfl := Option.some.inj ran
          exact ⟨order, plan, whole⟩
      | cons b before =>
          obtain ⟨rfl, tail⟩ := List.cons.inj split
          rw [run_cons stepped] at ran
          exact moments before after s₁ tail ran

/-- Calls whose return is settled in time, one at most of which waits to show its effect, and
does not wait where another would notice, can be linearized. -/
theorem linearizes_of_effects [DecidableEq ι] (ahead : κ → ρ → τ → τ → Prop)
    (ledger : σ → ι → Option (κ × ρ)) (waits : σ → ι → Prop) (Inv : σ → Prop)
    (start : Inv s) (fresh : ∀ i, ledger s i = none) (quiet : ∀ i, ¬ waits s i)
    (shown₀ : shown s t₀)
    (keeps : ∀ s a s', Inv s → S.step s a = some s' → Inv s')
    (effect : ∀ s a s', Inv s → S.step s a = some s' →
      Effect object ahead (ledger s) (ledger s') (waits s) (waits s') (shown s) (shown s'))
    (hides : ∀ s i, waits s i → calls.outcome s i = none)
    (agrees : ∀ s i, ¬ waits s i → calls.outcome s i = ledger s i)
    (begun : ∀ s i, ledger s i ≠ none → calls.begun s i)
    (stays : ∀ s a s' i, S.step s a = some s' → calls.returned s i = true →
      calls.returned s' i = true)
    (ran : S.run s labels = some t) :
    ∃ order, S.Linearizes calls object shown t₀ s labels order := by
  have closed (s : σ) (i : ι) (done : calls.returned s i = true) :
      ledger s i ≠ none ∧ ¬ waits s i := by
    have idle : ¬ waits s i := by
      intro waits
      rw [Calls.returned, hides s i waits] at done
      cases done
    exact ⟨agrees s i idle ▸ Option.isSome_iff_ne_none.mp done, idle⟩
  obtain ⟨final, ⟨-, holds⟩, -, moments⟩ := exists_order
    (fun s order => Inv s ∧ Plan object ahead (ledger s) (waits s) (shown s) t₀ order)
    (fun s a s' order plan stepped => by
      obtain ⟨order', followed, continues⟩ :=
        plan.2.follow (closed s) (effect s a s' plan.1 stepped)
      exact ⟨order', ⟨keeps s a s' plan.1 stepped, followed⟩, continues⟩)
    stays ⟨start, .nil, fun i => by simp [fresh i], .settled quiet .done shown₀⟩ ran
  refine ⟨final, holds.nodup, ?_, ?_⟩
  · intro before after s₁ split ran
    obtain ⟨order₁, ⟨-, plan⟩, continues⟩ := moments before after s₁ split ran
    refine ⟨fun i done => ?_, ?_⟩
    · have mem : i ∈ final.filter (calls.returned s₁) := by
        rw [continues.filter_eq]
        exact List.mem_filter.mpr ⟨(plan.placed i).mpr (closed s₁ i done).1, done⟩
      exact (List.mem_filter.mp mem).1
    · rw [continues.filter_eq]
      exact plan.moment (hides s₁) (agrees s₁)
  · intro before after s₁ split ran i j done fresh mem
    obtain ⟨order₁, ⟨-, plan⟩, continues⟩ := moments before after s₁ split ran
    exact continues.sublist ((plan.placed i).mpr (closed s₁ i done).1) done
      (fun mem => fresh (begun s₁ j ((plan.placed j).mp mem))) mem

end Rule

end System

end Transition
