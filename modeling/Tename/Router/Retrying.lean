import Tename.Program.Running
import Tename.Router.Streaming

/-!
# Opening a stream, and reading it

The provider opens a stream, again after a transient failure, and reads the one it has
opened to its end or to its failure. What it does is a list of operations: managers
entered and exited, waits between attempts, and the chunks it yields.
-/

namespace Tename

/-- What the Anthropic client raises. -/
inductive ApiError where
  | apiStatusError (statusCode : Int) (message : String)
  | apiConnectionError (message : String)
  | apiTimeoutError (message : String)

namespace ApiError

/-- `str(exc)`. -/
def message : ApiError → String
  | apiStatusError _ m => m
  | apiConnectionError m => m
  | apiTimeoutError m => m

/-- `getattr(exc, "status_code", None)`. -/
def statusCode : ApiError → Option Int
  | apiStatusError code _ => some code
  | _ => none

end ApiError

/-- What the provider may raise. -/
inductive ProviderExn where
  | api (e : ApiError)
  | other (e : PyError)

/-- A stream: its events, and what it fails with at their end. -/
structure ApiStream where
  events : List StreamEvent
  failure : Option ApiError

/-- Arithmetic on Python floats. -/
structure FloatArith (F : Type) where
  mul : F → F → F
  /-- `x ** n`, which may overflow. -/
  pow : F → Nat → Except PyError F

/-- `ErrorHandling`. -/
structure ErrorHandling (F : Type) where
  retryOnTransient : Bool
  maxRetries : Nat
  backoffBaseSeconds : F
  backoffMultiplier : F

/-- What the provider does. Its managers are numbered by its attempts. -/
inductive ProviderOp (F : Type) where
  /-- `client.messages.stream(...)`, and `__aenter__` of the manager. -/
  | enter (attempt : Nat)
  | sleep (seconds : F)
  | yield (chunk : ModelChunk)
  /-- `__aexit__` of the manager. -/
  | exit (attempt : Nat)

abbrev ProviderRes (F : Type) : ProviderOp F → Type
  | .enter _ => ApiStream
  | _ => Unit

section Source

variable {F : Type} (loads : String → Loaded) (arith : FloatArith F) (eh : ErrorHandling F)

namespace ErrorHandling

/-- `max_attempts`. -/
def maxAttempts : Nat := if eh.retryOnTransient then eh.maxRetries + 1 else 1

/-- `backoff_base_seconds * (backoff_multiplier**attempt)`. -/
def backoff (attempt : Nat) : Except PyError F :=
  (arith.pow eh.backoffMultiplier attempt).map (arith.mul eh.backoffBaseSeconds)

end ErrorHandling

/-- The end of `_open_stream_with_retry`. -/
def startupFailed (exc : ApiError) : ModelChunk :=
  let said := exc.message
  .error s!"anthropic stream startup failed after retries: {said}" true exc.statusCode

/-- `mid_stream_error`. -/
def midStreamError : ApiError → ModelChunk
  | .apiStatusError code m => .error m (500 ≤ code) (some code)
  | exc => .error exc.message true none

/-- The usage of a stream that has ended. -/
def StreamState.usage (st : StreamState) : Usage :=
  ⟨st.inputTokens, st.outputTokens, st.cachedInputTokens, 0, none⟩

end Source

section Runs

variable {F : Type}

/-- The client: what each attempt comes to. -/
def client (outcomes : Nat → Except ApiError ApiStream) :
    Program.Handler (ProviderOp F) (ProviderRes F) ProviderExn Unit
  | .enter attempt, s => ((outcomes attempt).mapError ProviderExn.api, s)
  | .sleep _, s => (.ok (), s)
  | .yield _, s => (.ok (), s)
  | .exit _, s => (.ok (), s)

/-- Connection errors, timeouts and statuses from 500 on. -/
def ApiError.Transient : ApiError → Prop
  | .apiStatusError code _ => 500 ≤ code
  | _ => True

variable (loads : String → Loaded) (arith : FloatArith F) (eh : ErrorHandling F)

/-- The operations of failed attempts, from one to another: each is followed by its wait. -/
inductive Waits : Nat → Nat → List (ProviderOp F) → Prop where
  | done (k : Nat) : Waits k k []
  | failed {j k : Nat} {seconds : F} {ops : List (ProviderOp F)}
      (backoff : eh.backoff arith j = .ok seconds) (later : Waits (j + 1) k ops) :
      Waits j k (.enter j :: .sleep seconds :: ops)

/-- How the last attempt ends that is made, and what opening a stream comes to. -/
inductive Opens (k : Nat) : Except ApiError ApiStream →
    Except ProviderExn (ModelChunk ⊕ Nat × ApiStream) → Prop where
  | entered (stream : ApiStream) : Opens k (.ok stream) (.ok (.inr (k, stream)))
  | refused (code : Int) (m : String) (low : code < 500) :
      Opens k (.error (.apiStatusError code m)) (.ok (.inl (.error m false (some code))))
  | exhausted (exc : ApiError) (transient : exc.Transient) (last : k + 1 = eh.maxAttempts) :
      Opens k (.error exc) (.ok (.inl (startupFailed exc)))
  | overflows (exc : ApiError) (e : PyError) (transient : exc.Transient)
      (more : k + 1 < eh.maxAttempts) (raised : eh.backoff arith k = .error e) :
      Opens k (.error exc) (.error (.other e))

/-- The chunks of a stream. -/
def delivered (answers : StreamAnswers) : List ModelChunk := answers.flatMap Prod.snd

variable {loads arith eh} {outcomes : Nat → Except ApiError ApiStream}

/-- A run of attempts from one on: transient failures, each with its wait, up to an attempt that
ends them. -/
structure Attempted (arith : FloatArith F) (eh : ErrorHandling F)
    (outcomes : Nat → Except ApiError ApiStream) (j k : Nat) (ops : List (ProviderOp F))
    (r : Except ProviderExn (ModelChunk ⊕ Nat × ApiStream)) : Prop where
  after : j ≤ k
  within : k < eh.maxAttempts
  transient : ∀ i, j ≤ i → i < k → ∃ exc, outcomes i = .error exc ∧ exc.Transient
  waits : Waits arith eh j k ops
  opens : Opens arith eh k (outcomes k) r

/-- An attempt that ends them. -/
theorem Attempted.last {k : Nat} {r : Except ProviderExn (ModelChunk ⊕ Nat × ApiStream)}
    (within : k < eh.maxAttempts) (opens : Opens arith eh k (outcomes k) r) :
    Attempted arith eh outcomes k k [] r where
  after := le_rfl
  within := within
  transient _ low high := absurd high (Nat.not_lt.mpr low)
  waits := .done k
  opens := opens

/-- A transient failure, its wait, and the attempts from the next one on. -/
theorem Attempted.next {j k : Nat} {ops : List (ProviderOp F)} {exc : ApiError} {seconds : F}
    {r : Except ProviderExn (ModelChunk ⊕ Nat × ApiStream)} (failed : outcomes j = .error exc)
    (transient : exc.Transient) (backoff : eh.backoff arith j = .ok seconds)
    (later : Attempted arith eh outcomes (j + 1) k ops r) :
    Attempted arith eh outcomes j k (.enter j :: .sleep seconds :: ops) r where
  after := by
    have after := later.after
    omega
  within := later.within
  transient := by
    intro i low high
    by_cases first : i = j
    · subst first
      exact ⟨exc, failed, transient⟩
    · exact later.transient i (by omega) high
  waits := .failed backoff later.waits
  opens := later.opens

/-- How reading a stream ends. -/
inductive Reads (loads : String → Loaded) (stream : ApiStream) :
    List ModelChunk → Except ProviderExn (ModelChunk ⊕ StreamState) → Prop where
  | whole {answers : StreamAnswers} {st : StreamState}
      (read : (handleEvent loads).progress .initial stream.events = (answers, .ok st))
      (normal : stream.failure = none) : Reads loads stream (delivered answers) (.ok (.inr st))
  | failed {answers : StreamAnswers} {st : StreamState} {exc : ApiError}
      (read : (handleEvent loads).progress .initial stream.events = (answers, .ok st))
      (failure : stream.failure = some exc) :
      Reads loads stream (delivered answers) (.ok (.inl (midStreamError exc)))
  | raised {answers : StreamAnswers} {e : PyError}
      (read : (handleEvent loads).progress .initial stream.events = (answers, .error e)) :
      Reads loads stream (delivered answers) (.error (.other e))

/-- How a run goes on after its last attempt, the one numbered `k`. -/
inductive Ends (loads : String → Loaded) (arith : FloatArith F) (eh : ErrorHandling F) (k : Nat) :
    Except ApiError ApiStream → List (ProviderOp F) → Except ProviderExn Unit → Prop where
  /-- A status below 500: one error. -/
  | refused (code : Int) (m : String) (low : code < 500) :
      Ends loads arith eh k (.error (.apiStatusError code m))
        [.yield (.error m false (some code))] (.ok ())
  /-- No attempt is left: one error. -/
  | exhausted (exc : ApiError) (transient : exc.Transient) (last : k + 1 = eh.maxAttempts) :
      Ends loads arith eh k (.error exc) [.yield (startupFailed exc)] (.ok ())
  /-- The stream ends: its text and tool chunks, the exit, one usage and one done. -/
  | whole {stream : ApiStream} {answers : StreamAnswers} {st : StreamState}
      (read : (handleEvent loads).progress .initial stream.events = (answers, .ok st))
      (normal : stream.failure = none)
      (content : ∀ chunk ∈ delivered answers, chunk.IsContent) :
      Ends loads arith eh k (.ok stream)
        ((delivered answers).map .yield ++ [.exit k, .yield (.usage st.usage), .yield .done])
        (.ok ())
  /-- The stream fails: its text and tool chunks so far, the exit, and one error. -/
  | failed {stream : ApiStream} {answers : StreamAnswers} {st : StreamState} {exc : ApiError}
      (read : (handleEvent loads).progress .initial stream.events = (answers, .ok st))
      (failure : stream.failure = some exc)
      (content : ∀ chunk ∈ delivered answers, chunk.IsContent) :
      Ends loads arith eh k (.ok stream)
        ((delivered answers).map .yield ++ [.exit k, .yield (midStreamError exc)]) (.ok ())
  /-- Another exception: `**` overflows. -/
  | overflows (exc : ApiError) (e : PyError) (transient : exc.Transient)
      (more : k + 1 < eh.maxAttempts) (raised : eh.backoff arith k = .error e) :
      Ends loads arith eh k (.error exc) [] (.error (.other e))
  /-- Another exception: `json.loads` raises it. -/
  | raised {stream : ApiStream} {answers : StreamAnswers} {e : PyError}
      (read : (handleEvent loads).progress .initial stream.events = (answers, .error e))
      (content : ∀ chunk ∈ delivered answers, chunk.IsContent) :
      Ends loads arith eh k (.ok stream) ((delivered answers).map .yield ++ [.exit k])
        (.error (.other e))

end Runs

end Tename
