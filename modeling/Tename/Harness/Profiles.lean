import Tename.Router.Types

/-!
# Profiles

The knobs of a validated `Profile` that the loop reads. The bounds that the
loader checks are fields, so every value of these types is one the loader
accepts. The router's part of a profile (model, caching, sampling, pricing) is
passed through by the loop and is left out.
-/

namespace Tename

structure ContextConfig where
  maxTokens : Nat
  effectiveBudget : Nat
  compactionThreshold : Option Nat
  keepLastNEvents : Nat
  maxTokens_pos : 0 < maxTokens
  effectiveBudget_pos : 0 < effectiveBudget
  compactionThreshold_pos : ∀ t, compactionThreshold = some t → 0 < t
  keepLastNEvents_pos : 0 < keepLastNEvents

/-- The compaction threshold with its default of 80% of the effective budget.
`int(effective_budget * 0.8)` is this quotient for budgets below `2 ^ 50`. -/
def ContextConfig.resolvedCompactionThreshold (c : ContextConfig) : Nat :=
  c.compactionThreshold.getD (c.effectiveBudget * 4 / 5)

structure StopConditions where
  noToolCallsFor : Nat
  maxTurns : Nat
  maxDurationSeconds : Option Nat
  noToolCallsFor_pos : 1 ≤ noToolCallsFor
  maxTurns_pos : 1 ≤ maxTurns
  maxDurationSeconds_pos : ∀ d, maxDurationSeconds = some d → 0 < d

/-- A validated profile, with the cross-field rules of the loader. -/
structure Profile where
  context : ContextConfig
  stopConditions : StopConditions
  budget_le : context.effectiveBudget ≤ context.maxTokens
  threshold_lt : context.resolvedCompactionThreshold < context.effectiveBudget

/-- An optional bound that is there is positive if its value is. -/
theorem pos_of_some {n m : Nat} (pos : 0 < n) (same : some n = some m) : 0 < m := by
  cases same
  exact pos

end Tename
