import Mathlib.Algebra.Order.Field.Rat
import Mathlib.Tactic.Linarith
import Mathlib.Tactic.Ring
import Tename.Router.Retrying

/-!
# What a completion costs

The provider counts tokens as the events report them, and the router prices what it has
counted. The API counts the tokens read from the cache apart from the input tokens; the router
takes them to be among them.
-/

namespace Tename

/-- Prices in USD for a million tokens. -/
structure Pricing where
  inputPerMillion : ℚ
  outputPerMillion : ℚ
  cachedInputPerMillion : Option ℚ
  inputPerMillion_nonneg : 0 ≤ inputPerMillion
  outputPerMillion_nonneg : 0 ≤ outputPerMillion
  cachedInputPerMillion_nonneg : ∀ rate, cachedInputPerMillion = some rate → 0 ≤ rate

/-- `cached_rate`. -/
def Pricing.cachedRate (p : Pricing) : ℚ :=
  p.cachedInputPerMillion.getD p.inputPerMillion

/-- `compute_cost_usd`, before it is rounded. -/
def computeCostUsd (usage : Usage) (pricing : Option Pricing) : Option ℚ :=
  pricing.map fun p =>
    let uncachedInput := max (usage.inputTokens - usage.cachedInputTokens) 0
    let outputEquivalent := usage.outputTokens + usage.reasoningTokens
    (uncachedInput * p.inputPerMillion) / 1000000 +
      (usage.cachedInputTokens * p.cachedRate) / 1000000 +
      (outputEquivalent * p.outputPerMillion) / 1000000

/-- What the router reads of a profile. -/
structure RouterProfile where
  provider : String
  modelId : String
  pricing : Option Pricing

/-- The bundled prices, by provider and model. -/
abbrev PricingTable := String → String → Option Pricing

/-- `lookup_pricing`. -/
def lookupPricing (table : PricingTable) (profile : RouterProfile) : Option Pricing :=
  match profile.pricing with
  | some override => some override
  | none => table profile.provider profile.modelId

/-- `ModelRouter._enrich_usage`; `round` is the float of a cost with eight digits. -/
def enrichUsage (round : ℚ → String) (table : PricingTable) (profile : RouterProfile)
    (usage : Usage) : Usage :=
  match computeCostUsd usage (lookupPricing table profile) with
  | none => usage
  | some cost => { usage with costUsd := some (round cost) }

/-- The body of the loop of `ModelRouter.complete`. -/
def routeChunk (round : ℚ → String) (table : PricingTable) (profile : RouterProfile) :
    ModelChunk → ModelChunk
  | .usage usage => .usage (enrichUsage round table profile usage)
  | chunk => chunk

/-- The chunk that the provider yields. -/
def ProviderOp.yielded? {F : Type} : ProviderOp F → Option ModelChunk
  | .yield chunk => some chunk
  | _ => none

namespace StreamEvent

/-- The input tokens that an event reports. -/
def inputCounts : StreamEvent → List Int
  | .messageStart usage => [usage.inputTokens.getD 0]
  | .messageDelta usage => usage.inputTokens.toList
  | _ => []

def cachedCounts : StreamEvent → List Int
  | .messageStart usage => [usage.cacheReadInputTokens.getD 0]
  | .messageDelta usage => usage.cacheReadInputTokens.toList
  | _ => []

def outputCounts : StreamEvent → List Int
  | .messageStart usage => [usage.outputTokens.getD 0]
  | .messageDelta usage => usage.outputTokens.toList
  | _ => []

end StreamEvent

section Counts

variable {loads : String → Loaded} {st st' : StreamState} {event : StreamEvent}
variable {events : List StreamEvent} {chunks : List ModelChunk} {answers : StreamAnswers}
variable {counts : StreamEvent → List Int}

/-- What one event does to the counts. -/
structure Counts (st : StreamState) (event : StreamEvent) (st' : StreamState) : Prop where
  output : st'.outputTokens = event.outputCounts.getLastD st.outputTokens
  cached : st'.cachedInputTokens = event.cachedCounts.getLastD st.cachedInputTokens
  input : (∀ n ∈ event.inputCounts, st.inputTokens ≤ n) →
    st'.inputTokens = event.inputCounts.getLastD st.inputTokens

end Counts

section Costs

variable {p : Pricing} {events : List StreamEvent}

end Costs

section Routing

variable {F : Type} {loads : String → Loaded} {arith : FloatArith F} {eh : ErrorHandling F}
variable {outcomes : Nat → Except ApiError ApiStream} {ops rest : List (ProviderOp F)}
variable {r : Except ProviderExn Unit} {j k : Nat} {stream : ApiStream}

/-- The chunks that the router yields for those of the provider. -/
def routed (round : ℚ → String) (table : PricingTable) (profile : RouterProfile)
    (ops : List (ProviderOp F)) : List ModelChunk :=
  (ops.filterMap ProviderOp.yielded?).map (routeChunk round table profile)

/-- Failed attempts yield nothing, and come before the last. -/
theorem Waits.quiet {i : Nat} (waits : Waits arith eh i k ops) :
    ops.filterMap ProviderOp.yielded? = [] ∧ i ≤ k ∧ ∀ j, .enter j ∈ ops → j < k := by
  induction waits with
  | done k =>
      refine ⟨rfl, le_rfl, ?_⟩
      intro j mem
      exact absurd mem List.not_mem_nil
  | @failed i k seconds ops backoff later ih =>
      obtain ⟨quiet, after, below⟩ := ih
      refine ⟨quiet, by omega, ?_⟩
      intro j mem
      simp only [List.mem_cons, ProviderOp.enter.injEq, reduceCtorEq, false_or] at mem
      obtain first | later := mem
      · omega
      · exact below j later

section Ending

variable (round : ℚ → String) {table : PricingTable} {profile : RouterProfile} {p : Pricing}

end Ending

end Routing

section Splitting

/-- Exact arithmetic. -/
def FloatArith.exact : FloatArith ℚ := ⟨(· * ·), fun x n => .ok (x ^ n)⟩

/-- The defaults. -/
def ErrorHandling.standard : ErrorHandling ℚ := ⟨true, 3, 1, 2⟩

variable {input cached : Int}

end Splitting

end Tename
