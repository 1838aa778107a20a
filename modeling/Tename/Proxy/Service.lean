import Tename.Proxy.Values
import Tename.Sandbox.Types
import Tename.Vault.Refinement

/-!
# The tool proxy

The only component that reads credentials from the vault and passes them to tool code.
A proxy tool is any async function of the model's input and its declared credentials;
what it returns or raises becomes a `ToolResult`, and the proxy writes log records as
it goes.
-/

namespace Tename

/-- An exception as the proxy sees it: its class, the outcome of its `__str__`, and its
traceback. -/
structure Raised where
  typeName : String
  str : Except PyError String
  formatted : String

/-- How a tool function ends. -/
inductive ProxyOutcome where
  | result (result : ToolResult)
  | value (raw : PyValue)
  | raised (exc : Raised)
  /-- An exception that is no `Exception`, such as a cancellation. -/
  | interrupted (typeName : String)

/-- Registration record for a single proxy tool. -/
structure ProxyTool where
  name : String
  credentialNames : List String
  description : String
  inputSchema : Payload
  fn : Payload → Credentials → ProxyOutcome

/-- The registry, by name. -/
abbrev ProxyRegistry := List ProxyTool

/-- `get_proxy_tool`. -/
def ProxyRegistry.get? (registry : ProxyRegistry) (name : String) : Option ProxyTool :=
  registry.find? (·.name = name)

structure LogRecord where
  message : String
  extra : Payload
  /-- The formatted exception. -/
  exception : Option String

/-- What leaves `execute` instead of a result. -/
inductive ProxyExn where
  /-- The vault's, where it is no `VaultError`. -/
  | vault (message : String)
  | value (error : PyError)
  | interrupted (typeName : String)

/-- One call of `execute`: how it ends, how it called the tool function, and what it logged. -/
structure Execution where
  result : Except ProxyExn ToolResult
  invocations : List (Payload × Credentials)
  records : List LogRecord

/-- What leaves `_resolve_credentials`. -/
inductive ResolveExn where
  | lookup (reason userMessage : String)
  | other (message : String)

/-- `_error_result`. -/
def errorResult (message : String) : ToolResult :=
  ⟨true, message, "", "", none, some message⟩

/-- `_normalize_result`. -/
def normalizeResult (depth : Nat) : PyValue → Except PyError ToolResult
  | .str text => .ok ⟨false, text, "", "", none, none⟩
  | .dict fields => do
      let isError ← PyValue.flag fields "is_error"
      let content ← match PyValue.text? fields "content" with
        | some text => pure text
        | none => PyValue.dumps depth (.dict fields)
      return ⟨isError, content, "", "", none, PyValue.text? fields "error"⟩
  | raw => .ok (errorResult (s!"proxy tool returned unsupported type {raw.typeName}; " ++
      "return a ToolResult, str, or dict"))

namespace ToolProxy

/-- The instance's vault, if it has one, and the file on its path. -/
abbrev Source := Option (Vault × VaultFile)

variable (crypto : Crypto) (repr : Json → String)

/-- `_CredentialLookupError` for what the vault raised. -/
def lookupError (tool : ProxyTool) (name : String) : VaultExn → ResolveExn
  | .vaultCredentialNotFoundError _ =>
      let shownTool := repr (.str tool.name)
      let shown := repr (.str name)
      .lookup "credential_missing" (s!"proxy tool {shownTool} requires credential {shown} " ++
        "which is not stored in the vault")
  | .vaultConfigurationError m => .lookup "vault_misconfigured" s!"vault is not usable: {m}"
  | .vaultLockedError _ =>
      let shown := repr (.str name)
      .lookup "vault_error" s!"vault failed for credential {shown}: VaultLockedError"
  | .vaultError _ =>
      let shown := repr (.str name)
      .lookup "vault_error" s!"vault failed for credential {shown}: VaultError"
  | .other m => .other m

/-- The loop of `_resolve_credentials`. -/
def fetch (tool : ProxyTool) (v : Vault) (file : VaultFile) :
    Credentials → List String → Except ResolveExn Credentials
  | out, [] => .ok out
  | out, name :: names =>
      match v.retrieve crypto repr name file with
      | .ok value => fetch tool v file (out.insert name value) names
      | .error e => .error (lookupError repr tool name e)

/-- `_resolve_credentials`. -/
def resolveCredentials (tool : ProxyTool) (source : Source) : Except ResolveExn Credentials :=
  if tool.credentialNames.isEmpty then .ok ∅
  else
    match source with
    | none =>
        let shown := repr (.str tool.name)
        let names := ", ".intercalate tool.credentialNames
        .error (.lookup "no_vault"
          s!"proxy tool {shown} needs credentials ({names}) but no vault is configured")
    | some (v, file) => fetch crypto repr tool v file ∅ tool.credentialNames

def logContext (toolName sessionId : String) : Payload :=
  [("tool_name", .str toolName), ("session_id", .str sessionId)]

/-- What `execute` makes of the end of the tool function. -/
def conclude (depth : Nat) (toolName sessionId : String) :
    ProxyOutcome → Except ProxyExn ToolResult × List LogRecord
  | .result r => (.ok r, [ok r])
  | .value raw =>
      match normalizeResult depth raw with
      | .ok r => (.ok r, [ok r])
      | .error e => (.error (.value e), [])
  | .raised exc =>
      let fail : LogRecord :=
        ⟨"proxy.execute.fail", logContext toolName sessionId, some exc.formatted⟩
      match exc.str with
      | .ok text =>
          let shown := repr (.str toolName)
          (.ok (errorResult s!"proxy tool {shown} raised {exc.typeName}: {text}"), [fail])
      | .error e => (.error (.value e), [fail])
  | .interrupted typeName => (.error (.interrupted typeName), [])
where
  ok (r : ToolResult) : LogRecord :=
    ⟨"proxy.execute.ok", logContext toolName sessionId ++ [("is_error", .bool r.isError)], none⟩

/-- `execute`. -/
def execute (depth : Nat) (registry : ProxyRegistry) (source : Source) (toolName : String)
    (input : Payload) (sessionId : String) : Execution :=
  let context := logContext toolName sessionId
  match registry.get? toolName with
  | none =>
      let shown := repr (.str toolName)
      ⟨.ok (errorResult s!"proxy tool {shown} is not registered"), [],
        [⟨"proxy.execute.unknown_tool", context, none⟩]⟩
  | some tool =>
      match resolveCredentials crypto repr tool source with
      | .error (.lookup reason message) =>
          ⟨.ok (errorResult message), [],
            [⟨"proxy.execute.credential_error", context ++ [("reason", .str reason)], none⟩]⟩
      | .error (.other m) => ⟨.error (.vault m), [], []⟩
      | .ok credentials =>
          let start : LogRecord := ⟨"proxy.execute.start",
            context ++ [("credential_names", .arr (tool.credentialNames.map .str))], none⟩
          let (result, records) :=
            conclude repr depth toolName sessionId (tool.fn input credentials)
          ⟨result, [(input, credentials)], start :: records⟩

end ToolProxy

end Tename
