import Tename.Proxy.Service

/-!
# What `execute` guarantees

Its three guarantees, for any registry, any vault and any tool code. `execute` calls the
tool function with exactly its declared credentials or not at all. It raises, though,
where the vault does so with something other than a `VaultError`, where an exception has
no text and where `json.dumps` refuses what was returned. And it hands on what the tool's
outcome shows: nothing keeps a credential out of that.
-/

namespace Tename

namespace ToolProxy

variable (crypto : Crypto) (repr : Json → String)

/-- What the vault gives for a name. -/
def Source.value (source : Source) (name : String) : Option String :=
  source.bind fun (v, file) => (v.retrieve crypto repr name file).toOption

/-- Every declared credential is retrieved, and the map has these and no others. -/
structure Retrieves (source : Source) (tool : ProxyTool) (credentials : Credentials) : Prop where
  every : ∀ name ∈ tool.credentialNames, (source.value crypto repr name).isSome = true
  exact : ∀ name, credentials.lookup name =
    if name ∈ tool.credentialNames then source.value crypto repr name else none

/-- The first credential that is not retrieved fails with something other than a `VaultError`. -/
def Breaks (source : Source) (tool : ProxyTool) : Prop :=
  ∃ v file before name after m, source = some (v, file) ∧
    tool.credentialNames = before ++ name :: after ∧
    (∀ earlier ∈ before, (source.value crypto repr earlier).isSome = true) ∧
    v.retrieve crypto repr name file = .error (.other m)

variable {crypto repr} {tool : ProxyTool} {v : Vault} {file : VaultFile} {source : Source}
variable {credentials out : Credentials} {names : List String}

theorem value_some (name : String) : Source.value crypto repr (some (v, file)) name =
    (v.retrieve crypto repr name file).toOption := rfl

theorem fetch_ok : fetch crypto repr tool v file out names = .ok credentials ↔
    (∀ name ∈ names, (Source.value crypto repr (some (v, file)) name).isSome = true) ∧
    ∀ name, credentials.lookup name =
      if name ∈ names then Source.value crypto repr (some (v, file)) name else out.lookup name := by
  induction names generalizing out with
  | nil =>
      rw [fetch, Except.ok.injEq]
      constructor
      · rintro rfl
        exact ⟨by simp, by simp⟩
      · rintro ⟨-, same⟩
        exact (Finmap.ext_lookup fun name => (same name).trans (by simp)).symm
  | cons name names ih =>
      rw [fetch, List.forall_mem_cons]
      cases found : v.retrieve crypto repr name file with
      | error e => simp [value_some, found, Except.toOption]
      | ok value =>
          simp only [ih]
          have here : Source.value crypto repr (some (v, file)) name = some value := by
            rw [value_some, found]
            rfl
          have lookups (name' : String) : (if name' ∈ name :: names then
              Source.value crypto repr (some (v, file)) name' else out.lookup name') =
              if name' ∈ names then Source.value crypto repr (some (v, file)) name'
              else (out.insert name value).lookup name' := by
            by_cases later : name' ∈ names
            · simp [later]
            · by_cases same : name' = name
              · subst same
                simp [later, here, Finmap.lookup_insert]
              · simp [later, same, Finmap.lookup_insert_of_ne]
          simp only [lookups, here, Option.isSome_some, true_and]

theorem fetch_other : (∃ m, fetch crypto repr tool v file out names = .error (.other m)) ↔
    ∃ before name after m, names = before ++ name :: after ∧
      (∀ earlier ∈ before, (Source.value crypto repr (some (v, file)) earlier).isSome = true) ∧
      v.retrieve crypto repr name file = .error (.other m) := by
  induction names generalizing out with
  | nil => simp [fetch]
  | cons name names ih =>
      rw [fetch]
      cases found : v.retrieve crypto repr name file with
      | error e =>
          constructor
          · rintro ⟨m, failed⟩
            cases e with
            | other m => exact ⟨[], name, names, m, rfl, by simp, found⟩
            | _ => simp [lookupError] at failed
          · rintro ⟨before, name', after, m, split, earlier, failed⟩
            cases before with
            | nil =>
                obtain ⟨rfl, -⟩ := List.cons.inj split
                rw [found, Except.error.injEq] at failed
                subst failed
                exact ⟨m, rfl⟩
            | cons first before =>
                obtain ⟨rfl, -⟩ := List.cons.inj split
                have first := earlier name (.head _)
                simp [value_some, found, Except.toOption] at first
      | ok value =>
          simp only [ih]
          constructor
          · rintro ⟨before, name', after, m, rfl, earlier, failed⟩
            refine ⟨name :: before, name', after, m, rfl, ?_, failed⟩
            intro first mem
            rcases List.mem_cons.mp mem with rfl | mem
            · rw [value_some, found]
              rfl
            · exact earlier first mem
          · rintro ⟨before, name', after, m, split, earlier, failed⟩
            cases before with
            | nil =>
                obtain ⟨rfl, -⟩ := List.cons.inj split
                rw [found] at failed
                cases failed
            | cons first before =>
                obtain ⟨rfl, rfl⟩ := List.cons.inj split
                exact ⟨before, name', after, m, rfl, fun n mem => earlier n (.tail _ mem), failed⟩

theorem resolveCredentials_ok : resolveCredentials crypto repr tool source = .ok credentials ↔
    Retrieves crypto repr source tool credentials := by
  have fetched : Retrieves crypto repr source tool credentials ↔
      (∀ name ∈ tool.credentialNames, (source.value crypto repr name).isSome = true) ∧
      ∀ name, credentials.lookup name =
        if name ∈ tool.credentialNames then source.value crypto repr name
        else (∅ : Credentials).lookup name :=
    ⟨fun h => ⟨h.every, h.exact⟩, fun h => ⟨h.1, h.2⟩⟩
  rw [fetched]
  unfold resolveCredentials
  cases declared : tool.credentialNames with
  | nil =>
      rw [List.isEmpty_nil, if_pos rfl, Except.ok.injEq]
      constructor
      · rintro rfl
        exact ⟨by simp, by simp⟩
      · rintro ⟨-, same⟩
        exact (Finmap.ext_lookup fun name => (same name).trans (by simp)).symm
  | cons name names =>
      rw [List.isEmpty_cons, if_neg Bool.false_ne_true]
      cases source with
      | none =>
          refine iff_of_false (by rintro ⟨⟩) fun h => ?_
          have missing := h.1 name (.head _)
          cases missing
      | some opened => exact fetch_ok

theorem resolveCredentials_other :
    (∃ m, resolveCredentials crypto repr tool source = .error (.other m)) ↔
      Breaks crypto repr source tool := by
  unfold resolveCredentials Breaks
  cases declared : tool.credentialNames with
  | nil => simp
  | cons name names =>
      rw [List.isEmpty_cons, if_neg Bool.false_ne_true]
      cases source with
      | none => simp
      | some opened =>
          obtain ⟨v, file⟩ := opened
          simp only [fetch_other, Option.some.injEq, Prod.mk.injEq]
          constructor
          · rintro ⟨before, name', after, m, split, earlier, failed⟩
            exact ⟨v, file, before, name', after, m, ⟨rfl, rfl⟩, split, earlier, failed⟩
          · rintro ⟨_, _, before, name', after, m, ⟨rfl, rfl⟩, split, earlier, failed⟩
            exact ⟨before, name', after, m, split, earlier, failed⟩

end ToolProxy

namespace ProxyOutcome

/-- The tool raised, or returned what the proxy does not support or JSON does not take. -/
def failed (depth : Nat) : ProxyOutcome → Bool
  | .result _ => false
  | .value (.str _) => false
  | .value (.dict fields) => !(PyValue.dict fields).serialisable depth
  | .value _ => true
  | .raised _ => true
  | .interrupted _ => true

/-- The exception has a text; a dict's `is_error` has a truth value, and the dict is one that JSON
takes or that has its own text as content and is marked as an error. -/
def tame (depth : Nat) : ProxyOutcome → Bool
  | .result _ => true
  | .value (.dict fields) =>
      match PyValue.flag fields "is_error" with
      | .error _ => false
      | .ok isError => (PyValue.dict fields).serialisable depth ||
          isError && (PyValue.text? fields "content").isSome
  | .value _ => true
  | .raised exc => exc.str.isOk
  | .interrupted _ => false

end ProxyOutcome

namespace ToolProxy

variable {crypto : Crypto} {repr : Json → String} {depth : Nat} {toolName sessionId : String}
variable {outcome : ProxyOutcome}

/-- A dict becomes a result, marked as an error if JSON does not take it, exactly if it is tame. -/
theorem normalizeResult_tame (fields : List (PyKey × PyValue)) :
    (ProxyOutcome.value (.dict fields)).tame depth = true ↔
      ∃ r, normalizeResult depth (.dict fields) = .ok r ∧
        ((PyValue.dict fields).serialisable depth = false → r.isError = true) := by
  rw [ProxyOutcome.tame, normalizeResult, ← PyValue.dumps_isOk]
  cases PyValue.flag fields "is_error" with
  | error e => simp [bind, Except.bind]
  | ok isError =>
      cases PyValue.text? fields "content" with
      | some content =>
          cases PyValue.dumps depth (.dict fields) <;>
            simp [bind, Except.bind, pure, Except.pure, Except.isOk, Except.toBool]
      | none =>
          cases PyValue.dumps depth (.dict fields) <;>
            simp [bind, Except.bind, pure, Except.pure, Except.isOk, Except.toBool]

/-- A tame outcome becomes a result, marked as an error if the tool failed; no other one does. -/
theorem conclude_tame (repr : Json → String) (toolName sessionId : String) :
    outcome.tame depth = true ↔
      ∃ r, (conclude repr depth toolName sessionId outcome).1 = .ok r ∧
        (outcome.failed depth = true → r.isError = true) := by
  cases outcome with
  | result r => exact iff_of_true rfl ⟨r, rfl, by rintro ⟨⟩⟩
  | value raw =>
      cases raw with
      | dict fields =>
          rw [normalizeResult_tame]
          simp only [conclude, ProxyOutcome.failed, Bool.not_eq_true']
          cases normalizeResult depth (.dict fields) <;> simp
      | str text => exact iff_of_true rfl ⟨_, rfl, by rintro ⟨⟩⟩
      | _ => exact iff_of_true rfl ⟨_, rfl, fun _ => rfl⟩
  | raised exc =>
      obtain ⟨typeName, str, formatted⟩ := exc
      cases str with
      | ok text => exact iff_of_true rfl ⟨_, rfl, fun _ => rfl⟩
      | error e => exact iff_of_false (by rintro ⟨⟩) (by rintro ⟨r, ⟨⟩, -⟩)
  | interrupted typeName => exact iff_of_false (by rintro ⟨⟩) (by rintro ⟨r, ⟨⟩, -⟩)

/-- `execute` returns a result. It calls the tool function at most once, with the input and
exactly the declared credentials, all of them retrieved; where the tool failed, the result
says so. -/
structure Guarded (crypto : Crypto) (repr : Json → String) (depth : Nat)
    (registry : ProxyRegistry) (source : Source) (toolName : String) (input : Payload)
    (e : Execution) : Prop where
  returns : e.result.isOk = true
  once : e.invocations.length ≤ 1
  exact : ∀ call ∈ e.invocations, ∃ tool, registry.get? toolName = some tool ∧ call.1 = input ∧
    Retrieves crypto repr source tool call.2
  marked : ∀ tool, registry.get? toolName = some tool → ∀ call ∈ e.invocations,
    (tool.fn call.1 call.2).failed depth = true → ∃ r, e.result = .ok r ∧ r.isError = true

/-- `execute` keeps to this exactly if the vault raises nothing but a `VaultError` for the
declared credentials, and the tool's outcome on these credentials is tame. -/
theorem execute_guarded_iff (crypto : Crypto) (repr : Json → String) (depth : Nat)
    (registry : ProxyRegistry) (source : Source) (toolName : String) (input : Payload)
    (sessionId : String) :
    Guarded crypto repr depth registry source toolName input
        (execute crypto repr depth registry source toolName input sessionId) ↔
      ∀ tool, registry.get? toolName = some tool →
        ¬Breaks crypto repr source tool ∧
        ∀ credentials, Retrieves crypto repr source tool credentials →
          (tool.fn input credentials).tame depth = true := by
  unfold execute
  cases found : registry.get? toolName with
  | none =>
      refine iff_of_true ⟨rfl, Nat.zero_le _, by rintro _ ⟨⟩, ?_⟩ (by simp)
      rintro _ _ _ ⟨⟩
  | some tool =>
      simp only [Option.some.injEq, forall_eq', ← resolveCredentials_other, ← resolveCredentials_ok]
      cases resolved : resolveCredentials crypto repr tool source with
      | error e =>
          cases e with
          | lookup reason message =>
              refine iff_of_true ⟨rfl, Nat.zero_le _, by rintro _ ⟨⟩, ?_⟩ (by simp)
              rintro _ _ _ ⟨⟩
          | other m => exact iff_of_false (fun h => nomatch h.returns) (by simp)
      | ok credentials =>
          simp only [reduceCtorEq, exists_false, not_false_eq_true, true_and, Except.ok.injEq,
            forall_eq', conclude_tame repr toolName sessionId]
          constructor
          · intro h
            obtain ⟨r, returned⟩ : ∃ r, (conclude repr depth toolName sessionId
                (tool.fn input credentials)).1 = .ok r := by
              have returns := h.returns
              cases ended : (conclude repr depth toolName sessionId
                (tool.fn input credentials)).1 with
              | ok r => exact ⟨r, rfl⟩
              | error e => simp [ended, Except.isOk, Except.toBool] at returns
            refine ⟨r, returned, fun failed => ?_⟩
            obtain ⟨r', same, marked⟩ := h.marked tool found (input, credentials) (.head _) failed
            rw [returned] at same
            exact Except.ok.inj same ▸ marked
          · rintro ⟨r, returned, marked⟩
            refine ⟨by rw [returned]; rfl, le_refl 1, ?_, ?_⟩
            · intro call mem
              rw [List.mem_singleton.mp mem]
              exact ⟨tool, found, rfl, resolveCredentials_ok.mp resolved⟩
            · intro tool' found' call mem failed
              rw [List.mem_singleton.mp mem] at failed
              obtain rfl := Option.some.inj (found.symm.trans found')
              exact ⟨r, returned, marked failed⟩

/-- A table with positions for keys, which JSON does not take. -/
def tableTool : ProxyTool :=
  ⟨"table", [], "A table by position.", [],
    fun _ _ => .value (.dict [(.str "rows", .dict [(.other "tuple", .str "x")])])⟩

/-- The `TypeError` of `json.dumps` leaves `execute`. -/
theorem execute_raises : ¬Guarded .transparent (fun _ => "") 900 [tableTool] none "table" []
    (execute .transparent (fun _ => "") 900 [tableTool] none "table" [] "s") := by
  intro h
  exact absurd h.returns (by decide)

end ToolProxy

/-- `str(value)`. -/
def Json.pyStr (repr : Json → String) : Json → String
  | .str text => text
  | .bool b => if b then "True" else "False"
  | value => repr value

/-- The texts of the fields. -/
def ToolResult.texts (r : ToolResult) : List String :=
  [if r.isError then "True" else "False", r.content, r.stdout, r.stderr] ++
    (r.exitCode.map toString).toList ++ r.error.toList

/-- The message, the texts of the structured extras and the formatted exception. -/
def LogRecord.texts (repr : Json → String) (record : LogRecord) : List String :=
  record.message :: record.extra.map (fun field => field.2.pyStr repr) ++ record.exception.toList

/-- Everything that leaves `execute`: the fields of the result, and the log. -/
def Execution.texts (repr : Json → String) (e : Execution) : List String :=
  (match e.result with
    | .ok r => r.texts
    | .error _ => []) ++ e.records.flatMap (LogRecord.texts repr)

def Occurs (secret text : String) : Prop :=
  secret.toList <:+: text.toList

instance (secret text : String) : Decidable (Occurs secret text) :=
  inferInstanceAs (Decidable (secret.toList <:+: text.toList))

/-- None of the secrets occurs in any of the texts. -/
def Conceals (secrets texts : List String) : Prop :=
  ∀ secret ∈ secrets, ∀ text ∈ texts, ¬Occurs secret text

instance (secrets texts : List String) : Decidable (Conceals secrets texts) :=
  inferInstanceAs (Decidable (∀ secret ∈ secrets, ∀ text ∈ texts, ¬Occurs secret text))

section Strings

variable (secret : String)

mutual

/-- The secret occurs in a string of the value, at any depth. -/
def Json.holds : Json → Bool
  | .str text => decide (Occurs secret text)
  | .arr items => itemsHold items
  | .obj fields => fieldsHold fields
  | _ => false

def Json.itemsHold : List Json → Bool
  | [] => false
  | x :: xs => x.holds || itemsHold xs

def Json.fieldsHold : List (String × Json) → Bool
  | [] => false
  | (k, x) :: fields => decide (Occurs secret k) || x.holds || fieldsHold fields

end

end Strings

/-- The proxy's own words at the return of a tool, and what the tool adds to them. -/
def ProxyOutcome.told (isError : Bool) (texts : List String) : List String :=
  ["proxy.execute.ok", if isError then "True" else "False"] ++ texts

/-- What the tool shows by the way it ends: the fields of a `ToolResult`; a string; a dict's
content, or the JSON text of a dict without one, and its error; the type of anything else; an
exception's class and text, and its traceback. A dict whose flag has no truth value, or which JSON
does not take, and an exception without a text are not shown. -/
def ProxyOutcome.shown (repr : Json → String) (depth : Nat) (toolName : String) :
    ProxyOutcome → List String
  | .result r =>
      told r.isError ([r.content, r.stdout, r.stderr] ++ (r.exitCode.map toString).toList ++
        r.error.toList)
  | .value (.str text) => told false [text]
  | .value (.dict fields) =>
      match PyValue.flag fields "is_error", PyValue.text? fields "content",
        PyValue.dumps depth (.dict fields) with
      | .ok isError, some content, _ =>
          told isError (content :: (PyValue.text? fields "error").toList)
      | .ok isError, none, .ok text =>
          told isError (text :: (PyValue.text? fields "error").toList)
      | _, _, _ => []
  | .value raw =>
      told true [s!"proxy tool returned unsupported type {raw.typeName}; " ++
        "return a ToolResult, str, or dict"]
  | .raised exc =>
      let shownTool := repr (.str toolName)
      let typeName := exc.typeName
      ["proxy.execute.fail", exc.formatted] ++ match exc.str with
        | .ok text => ["True", s!"proxy tool {shownTool} raised {typeName}: {text}"]
        | .error _ => []
  | .interrupted _ => []

namespace ToolProxy

section Conditions

variable (crypto : Crypto) (repr : Json → String)

/-- The values that `execute` gets from the vault: the declared credentials up to the first that
it does not get. -/
def fetched (registry : ProxyRegistry) (source : Source) (toolName : String) : List String :=
  match registry.get? toolName with
  | none => []
  | some tool =>
      ((tool.credentialNames.map (source.value crypto repr)).takeWhile Option.isSome).filterMap id

/-- How the vault fails for a name, if it does. -/
def missing (v : Vault) (file : VaultFile) (name : String) : Option (String × VaultExn) :=
  match v.retrieve crypto repr name file with
  | .ok _ => none
  | .error e => some (name, e)

/-- The first declared credential that the vault does not give, and how it fails. -/
def missed (source : Source) (tool : ProxyTool) : Option (String × VaultExn) :=
  source.bind fun (v, file) => tool.credentialNames.findSome? (missing crypto repr v file)

/-- What the proxy says by itself when it calls the tool. -/
def opening (tool : ProxyTool) (sessionId : String) : List String :=
  ["proxy.execute.start", sessionId, repr (.arr (tool.credentialNames.map .str))]

/-- What the proxy says of a credential that the vault does not give: nothing, if the vault fails
with something other than a `VaultError`. -/
def refusal (tool : ProxyTool) (sessionId name : String) (e : VaultExn) : List String :=
  let shownTool := repr (.str tool.name)
  let shown := repr (.str name)
  let said (reason message : String) :=
    ["proxy.execute.credential_error", sessionId, reason, "True", message]
  match e with
  | .vaultCredentialNotFoundError _ =>
      said "credential_missing" (s!"proxy tool {shownTool} requires credential {shown} " ++
        "which is not stored in the vault")
  | .vaultConfigurationError m => said "vault_misconfigured" s!"vault is not usable: {m}"
  | .vaultLockedError _ =>
      said "vault_error" s!"vault failed for credential {shown}: VaultLockedError"
  | .vaultError _ => said "vault_error" s!"vault failed for credential {shown}: VaultError"
  | .other _ => []

/-- The fetched values are not empty, and do not occur in the tool's name, in its description or in
the input. -/
structure Secret (registry : ProxyRegistry) (source : Source) (toolName : String)
    (input : Payload) : Prop where
  nonempty : ∀ secret ∈ fetched crypto repr registry source toolName, secret ≠ ""
  name : Conceals (fetched crypto repr registry source toolName) [toolName]
  description : ∀ tool, registry.get? toolName = some tool →
    Conceals (fetched crypto repr registry source toolName) [tool.description]
  input : ∀ secret ∈ fetched crypto repr registry source toolName,
    (Json.obj input).holds secret = false

end Conditions

variable {crypto : Crypto} {repr : Json → String} {depth : Nat} {toolName sessionId : String}
variable {outcome : ProxyOutcome} {secret : String} {tool : ProxyTool} {source : Source}

theorem not_occurs_empty (nonempty : secret ≠ "") : ¬Occurs secret "" := by
  intro occurs
  have none : secret.toList = [] := List.infix_nil.mp occurs
  exact nonempty (String.toList_inj.mp none)

/-- What leaves `execute` once the tool has ended is what the tool shows and what is already known
not to matter: the name of the tool, the session and the empty text. -/
theorem conclude_texts (repr : Json → String) (depth : Nat) (toolName sessionId : String)
    (outcome : ProxyOutcome) (P : String → Prop) (empty : P "") (named : P toolName)
    (session : P sessionId) :
    (∀ text ∈ Execution.texts repr ⟨(conclude repr depth toolName sessionId outcome).1, [],
        (conclude repr depth toolName sessionId outcome).2⟩, P text) ↔
      ∀ text ∈ outcome.shown repr depth toolName, P text := by
  have okTexts (r : ToolResult) : (∀ text ∈ Execution.texts repr
      ⟨.ok r, [], [conclude.ok toolName sessionId r]⟩, P text) ↔
      ∀ text ∈ ProxyOutcome.told r.isError ([r.content, r.stdout, r.stderr] ++
        (r.exitCode.map toString).toList ++ r.error.toList), P text := by
    simp only [Execution.texts, conclude.ok, LogRecord.texts, logContext, Json.pyStr,
      ProxyOutcome.told, ToolResult.texts, List.forall_mem_append, List.flatMap_cons,
      List.flatMap_nil, List.map_append, List.map_cons, List.map_nil, List.forall_mem_cons,
      Option.toList_none, List.not_mem_nil, false_implies, implies_true, named, session, and_true,
      true_and]
    tauto
  cases outcome with
  | result r => exact okTexts r
  | value raw =>
      cases raw with
      | str text =>
          refine (okTexts _).trans ?_
          simp [ProxyOutcome.shown, ProxyOutcome.told, empty]
      | dict fields =>
          simp only [conclude, normalizeResult, ProxyOutcome.shown]
          cases PyValue.flag fields "is_error" with
          | error e => simp [bind, Except.bind, Execution.texts]
          | ok isError =>
              cases PyValue.text? fields "content" with
              | some content =>
                  refine (okTexts _).trans ?_
                  simp [ProxyOutcome.told, empty]
              | none =>
                  cases PyValue.dumps depth (.dict fields) with
                  | error e => simp [bind, Except.bind, Execution.texts]
                  | ok text =>
                      refine (okTexts _).trans ?_
                      simp [ProxyOutcome.told, empty]
      | _ =>
          refine (okTexts _).trans ?_
          simp [ProxyOutcome.shown, ProxyOutcome.told, errorResult, empty]
  | raised exc =>
      obtain ⟨typeName, str, formatted⟩ := exc
      simp only [conclude, ProxyOutcome.shown]
      cases str with
      | ok text =>
          simp only [Execution.texts, List.flatMap_cons, LogRecord.texts, logContext, Json.pyStr,
            ToolResult.texts, errorResult]
          simp [empty, named, session]
          tauto
      | error e =>
          simp [Execution.texts, LogRecord.texts, logContext, Json.pyStr, named, session]
  | interrupted typeName => simp [conclude, Execution.texts, ProxyOutcome.shown]

variable (crypto repr) in
/-- Every declared credential is retrieved, or one of them is the first that is not; without a
vault nothing is fetched. -/
theorem resolveCredentials_cases (tool : ProxyTool) (source : Source) :
    (∃ credentials, resolveCredentials crypto repr tool source = .ok credentials ∧
      missed crypto repr source tool = none) ∨
    (∃ reason message, source = none ∧
      resolveCredentials crypto repr tool source = .error (.lookup reason message)) ∨
    ∃ name e, resolveCredentials crypto repr tool source = .error (lookupError repr tool name e) ∧
      missed crypto repr source tool = some (name, e) := by
  have fetches (v : Vault) (file : VaultFile) (names : List String) (out : Credentials) :
      (∃ credentials, fetch crypto repr tool v file out names = .ok credentials ∧
        names.findSome? (missing crypto repr v file) = none) ∨
      ∃ name e, fetch crypto repr tool v file out names = .error (lookupError repr tool name e) ∧
        names.findSome? (missing crypto repr v file) = some (name, e) := by
    induction names generalizing out with
    | nil => exact .inl ⟨out, rfl, rfl⟩
    | cons name names ih =>
        rw [fetch, List.findSome?_cons, missing]
        cases v.retrieve crypto repr name file with
        | ok value => exact ih _
        | error e => exact .inr ⟨name, e, rfl, rfl⟩
  unfold resolveCredentials missed
  cases source with
  | none =>
      cases tool.credentialNames with
      | nil => exact .inl ⟨∅, rfl, rfl⟩
      | cons name names => exact .inr (.inl ⟨_, _, rfl, rfl⟩)
  | some opened =>
      obtain ⟨v, file⟩ := opened
      cases declared : tool.credentialNames with
      | nil => exact .inl ⟨∅, rfl, rfl⟩
      | cons name names =>
          rcases fetches v file (name :: names) ∅ with got | failed
          · exact .inl got
          · exact .inr (.inr failed)

/-- What leaves a call of the tool function: what the proxy says before it, and what the tool
shows. -/
theorem called_texts (repr : Json → String) (depth : Nat) (toolName sessionId : String)
    (tool : ProxyTool) (outcome : ProxyOutcome) (invocations : List (Payload × Credentials))
    (P : String → Prop) (empty : P "") (named : P toolName) :
    (∀ text ∈ Execution.texts repr ⟨(conclude repr depth toolName sessionId outcome).1, invocations,
        ⟨"proxy.execute.start", logContext toolName sessionId ++
            [("credential_names", .arr (tool.credentialNames.map .str))], none⟩ ::
          (conclude repr depth toolName sessionId outcome).2⟩, P text) ↔
      ∀ text ∈ opening repr tool sessionId ++ outcome.shown repr depth toolName, P text := by
  have parts (result : Except ProxyExn ToolResult) (records : List LogRecord) :
      (∀ text ∈ Execution.texts repr ⟨result, invocations,
        ⟨"proxy.execute.start", logContext toolName sessionId ++
            [("credential_names", .arr (tool.credentialNames.map .str))], none⟩ :: records⟩,
          P text) ↔
      (∀ text ∈ opening repr tool sessionId, P text) ∧
        ∀ text ∈ Execution.texts repr ⟨result, [], records⟩, P text := by
    simp only [Execution.texts, List.flatMap_cons, List.forall_mem_append, LogRecord.texts,
      logContext, Json.pyStr, opening, List.map_append, List.map_cons, List.map_nil,
      List.forall_mem_cons, Option.toList_none, List.not_mem_nil, false_implies, implies_true,
      named, true_and, and_true]
    tauto
  rw [parts, List.forall_mem_append]
  refine and_congr_right fun opened => ?_
  have session : P sessionId := opened sessionId (by simp [opening])
  exact conclude_texts repr depth toolName sessionId outcome P empty named session

/-- What leaves a call for which a credential is not given. -/
theorem declined_texts {reason message : String} (tool : ProxyTool) (name : String) (e : VaultExn)
    (declined : lookupError repr tool name e = .lookup reason message) (P : String → Prop)
    (empty : P "") (named : P toolName) :
    (∀ text ∈ Execution.texts repr ⟨.ok (errorResult message), [],
        [⟨"proxy.execute.credential_error",
          logContext toolName sessionId ++ [("reason", .str reason)], none⟩]⟩, P text) ↔
      ∀ text ∈ refusal repr tool sessionId name e, P text := by
  have said : (∀ text ∈ Execution.texts repr ⟨.ok (errorResult message), [],
      [⟨"proxy.execute.credential_error",
        logContext toolName sessionId ++ [("reason", .str reason)], none⟩]⟩, P text) ↔
      ∀ text ∈ ["proxy.execute.credential_error", sessionId, reason, "True", message], P text := by
    simp only [Execution.texts, List.flatMap_cons, LogRecord.texts, logContext, Json.pyStr,
      ToolResult.texts, errorResult]
    simp [empty, named]
    tauto
  rw [said]
  cases e <;> cases declined <;> rfl

theorem fetched_none (registry : ProxyRegistry) (toolName : String) :
    fetched crypto repr registry none toolName = [] := by
  unfold fetched
  split
  · rfl
  · rename_i tool _
    cases tool.credentialNames <;> rfl

/-- Of values that are not empty and do not occur in what names the tool and what it is called
with, `execute` lets none out exactly if none occurs in what the proxy says when it calls the tool
and in what the tool shows by the way it ends, or, where a credential is not given, in what the
proxy says of it. -/
theorem execute_conceals_iff (crypto : Crypto) (repr : Json → String) (depth : Nat)
    (registry : ProxyRegistry) (source : Source) (toolName : String) (input : Payload)
    (sessionId : String) (secret : Secret crypto repr registry source toolName input) :
    Conceals (fetched crypto repr registry source toolName)
        ((execute crypto repr depth registry source toolName input sessionId).texts repr) ↔
      ∀ tool, registry.get? toolName = some tool →
        (∀ credentials, Retrieves crypto repr source tool credentials →
          Conceals (fetched crypto repr registry source toolName) (opening repr tool sessionId ++
            (tool.fn input credentials).shown repr depth toolName)) ∧
        ∀ name e, missed crypto repr source tool = some (name, e) →
          Conceals (fetched crypto repr registry source toolName)
            (refusal repr tool sessionId name e) := by
  have empty : ∀ value ∈ fetched crypto repr registry source toolName, ¬Occurs value "" :=
    fun value mem => not_occurs_empty (secret.nonempty value mem)
  have named : ∀ value ∈ fetched crypto repr registry source toolName, ¬Occurs value toolName :=
    fun value mem => secret.name value mem toolName (.head _)
  unfold execute
  cases found : registry.get? toolName with
  | none => exact iff_of_true (by simp [Conceals, fetched, found]) (by rintro _ ⟨⟩)
  | some tool =>
      simp only [Option.some.injEq, forall_eq', ← resolveCredentials_ok]
      rcases resolveCredentials_cases crypto repr tool source with ⟨credentials, got, none'⟩ |
        ⟨reason, message, rfl, failed⟩ | ⟨name, e, failed, first⟩
      · simp only [got, none', Except.ok.injEq, forall_eq', reduceCtorEq, false_implies,
          implies_true, and_true]
        exact forall₂_congr fun value mem => called_texts repr depth toolName sessionId tool _ _
          (fun text => ¬Occurs value text) (empty value mem) (named value mem)
      · simp [fetched_none, Conceals]
      · have alone {X : String → VaultExn → Prop} :
            (∀ name' e', some (name, e) = some (name', e') → X name' e') ↔ X name e :=
          ⟨fun all => all name e rfl, by rintro h _ _ ⟨⟩; exact h⟩
        simp only [failed, first, reduceCtorEq, false_implies, implies_true, true_and, alone]
        cases declined : lookupError repr tool name e with
        | lookup reason message =>
            exact forall₂_congr fun value mem => declined_texts tool name e declined
              (fun text => ¬Occurs value text) (empty value mem) (named value mem)
        | other m =>
            cases e <;> cases declined
            exact iff_of_true (by simp [Conceals, Execution.texts]) (by simp [Conceals, refusal])

/-- `repr` of a string, and of a list of one. -/
def quoted : Json → String
  | .str text => "'" ++ text ++ "'"
  | .arr [.str text] => "['" ++ text ++ "']"
  | _ => ""

/-- One credential, under the passphrase of the vault. -/
def keyed : VaultFile :=
  some (.json (.obj (Vault.document
    (Vault.added .transparent "x" "api_key" "s3cr3t-token" 0 (Vault.initState [7])))))

def opened : Source := some (⟨"v", some "x"⟩, keyed)

/-- The weather, which does not tell of the key it was asked for with. -/
def weatherTool : ProxyTool :=
  ⟨"weather", ["api_key"], "Today's weather.", [], fun _ _ => .value (.str "sunny")⟩

theorem execute_conceals_iff_weather :
    fetched .transparent quoted [weatherTool] opened "weather" = ["s3cr3t-token"] ∧
      Conceals ["s3cr3t-token"]
        ((execute .transparent quoted 900 [weatherTool] opened "weather" [] "s").texts quoted) := by
  have got : fetched .transparent quoted [weatherTool] opened "weather" = ["s3cr3t-token"] := by
    decide +kernel
  have given : missed .transparent quoted opened weatherTool = none := by decide +kernel
  have secret : Secret .transparent quoted [weatherTool] opened "weather" [] := by
    refine ⟨?_, ?_, ?_, ?_⟩ <;> rw [got]
    · decide
    · decide +kernel
    · rintro _ ⟨⟩
      decide +kernel
    · decide
  refine ⟨got, ?_⟩
  rw [← got]
  refine (execute_conceals_iff .transparent quoted 900 _ _ _ _ "s" secret).mpr ?_
  rintro _ ⟨⟩
  rw [got]
  refine ⟨fun credentials _ => ?_, fun name e failed => ?_⟩
  · change Conceals _ (opening quoted weatherTool "s" ++ ProxyOutcome.told false ["sunny"])
    decide +kernel
  · rw [given] at failed
    cases failed

/-- A search whose failure is reported by the address that was called, as HTTP clients do. -/
def searchTool : ProxyTool :=
  ⟨"web_search", ["api_key"], "Search the web.", [], fun _ credentials =>
    let key := (credentials.lookup "api_key").getD ""
    .raised ⟨"HTTPStatusError", .ok s!"401 Unauthorized for url https://api.example/?key={key}",
      s!"Traceback (most recent call last): HTTPStatusError: 401 Unauthorized (key={key})"⟩⟩

/-- The credential that a tool's exception tells of is in the result and in the log. -/
theorem execute_leaks :
    let e := execute .transparent quoted 900 [searchTool] opened "web_search" [] "s"
    fetched .transparent quoted [searchTool] opened "web_search" = ["s3cr3t-token"] ∧
      Secret .transparent quoted [searchTool] opened "web_search" [] ∧
      ¬Conceals ["s3cr3t-token"] (e.texts quoted) ∧
      (e.result.toOption.map fun r => decide (Occurs "s3cr3t-token" r.content)) = some true := by
  intro e
  have got : fetched .transparent quoted [searchTool] opened "web_search" = ["s3cr3t-token"] := by
    decide +kernel
  have shown : (e.result.toOption.map fun r => decide (Occurs "s3cr3t-token" r.content)) =
      some true := by decide +kernel
  have secret : Secret .transparent quoted [searchTool] opened "web_search" [] := by
    refine ⟨?_, ?_, ?_, ?_⟩ <;> rw [got]
    · decide
    · decide +kernel
    · rintro _ ⟨⟩
      decide +kernel
    · decide
  refine ⟨got, secret, ?_, shown⟩
  intro conceals
  obtain ⟨r, returned, occurs⟩ := Option.map_eq_some_iff.mp shown
  refine conceals _ (.head _) r.content ?_ (of_decide_eq_true occurs)
  have ended : e.result = .ok r := by
    cases ended : e.result with
    | error error =>
        rw [ended] at returned
        cases returned
    | ok r' =>
        rw [ended] at returned
        exact congrArg Except.ok (Option.some.inj returned)
  simp [Execution.texts, ended, ToolResult.texts]

end ToolProxy

end Tename
