import Mathlib.Data.List.Sort
import Tename.Codec.Base64
import Tename.Sessions.Models
import Tename.Vault.Crypto

/-!
# The vault

One JSON file of encrypted credentials. Every call reads the whole file, and a call
that changes it replaces it by a whole new one. The file carries the salt and the
iteration count of its key, and the passphrase is the instance's own: nothing in
the file says which passphrase its tokens were made with.
-/

namespace Tename

/-- What a path holds that exists. -/
inductive Disk where
  | unreadable (message : String)
  /-- Neither UTF-8 nor JSON. -/
  | undecodable
  /-- What Python raises before there is anything to check: the path may not be looked at, the
  JSON is nested too deep or holds a number of too many digits. -/
  | raising (message : String)
  | json (value : Json)

/-- The vault file, if there is one. -/
abbrev VaultFile := Option Disk

/-- A vault's state and the parameters of its key. -/
abbrev VaultState := Payload × KeyParameters

/-- A `Vault` instance. -/
structure Vault where
  path : String
  passphrase : Option PyStr

abbrev InstanceId := Nat

/-- `value`, if `isinstance(value, int)`. -/
def Json.pyInt? : Json → Option PyInt
  | .int n => some (.int n)
  | .bool b => some (.bool b)
  | _ => none

def PyInt.json : PyInt → Json
  | .int n => .int n
  | .bool b => .bool b

/-- `value == 1`. -/
def Json.isOne : Json → Bool
  | .int n => n = 1
  | .bool b => b
  | .float r => r = "1.0"
  | _ => false

/-- `str.isspace` of a character. -/
def Char.isSpace (c : Char) : Bool :=
  let n := c.toNat
  (9 ≤ n && n ≤ 13) || (28 ≤ n && n ≤ 32) || n = 0x85 || n = 0xA0 || n = 0x1680 ||
    (0x2000 ≤ n && n ≤ 0x200A) || n = 0x2028 || n = 0x2029 || n = 0x202F || n = 0x205F || n = 0x3000

/-- `_credentials_dict`. -/
def credentialsDict (state : Payload) : Payload :=
  match state.get? "credentials" with
  | some (.obj credentials) => credentials
  | _ => []

def withCredentials (state credentials : Payload) : Payload :=
  state.set "credentials" (.obj credentials)

/-- `del payload[key]`. -/
def Payload.del (payload : Payload) (key : String) : Payload :=
  payload.filter (·.1 ≠ key)

/-- How `_write_state` ends. -/
inductive WriteOutcome where
  /-- The file is replaced by all that was serialised. -/
  | whole
  /-- `os.write` takes a part of it only, which goes unnoticed and replaces the file. -/
  | short
  /-- It raises, and the file is as it was. -/
  | refused (e : VaultExn)
  deriving DecidableEq

def WriteOutcome.refuses : WriteOutcome → Bool
  | .refused _ => true
  | _ => false

namespace Vault

variable (crypto : Crypto) (repr : Json → String) (v : Vault)

/-- `_validate_name`. -/
def validateName (name : String) : Except VaultExn Unit :=
  if name = "" then .error (.vaultError "credential name must be a non-empty string")
  else if name.toList.any Char.isSpace then
    let shown := repr (.str name)
    .error (.vaultError s!"credential name {shown} must not contain whitespace")
  else .ok ()

/-- The checks of `_load_state_or_none` on a JSON object. -/
def loadObject (state : Payload) : Except VaultExn VaultState :=
  let version := state.getD "version" .null
  if !version.isOne then
    let shown := repr version
    .error (.vaultConfigurationError (s!"vault file {v.path} has unsupported version {shown} " ++
      "(this build handles version 1)"))
  else
    match (state.getD "salt" .null).str?, (state.getD "iterations" .null).pyInt? with
    | some salt, some iterations =>
        match Base64.decode salt.toList with
        | none => .error (.vaultConfigurationError
            s!"vault file {v.path} has a malformed salt field")
        | some salt =>
            let state := state.setDefault "credentials" (.obj [])
            match state.get? "credentials" with
            | some (.obj _) => .ok (state, ⟨salt, iterations⟩)
            | _ => .error (.vaultConfigurationError
                (s!"vault file {v.path} has a non-object " ++ "'credentials' field"))
    | _, _ => .error (.vaultConfigurationError
        (s!"vault file {v.path} is missing required " ++ "'salt' / 'iterations' fields"))

/-- `_load_state_or_none`. -/
def loadStateOrNone : VaultFile → Except VaultExn (Option VaultState)
  | none => .ok none
  | some (.unreadable m) =>
      .error (.vaultConfigurationError s!"vault file {v.path} is unreadable: {m}")
  | some (.raising m) => .error (.other m)
  | some .undecodable => .error (.vaultConfigurationError s!"vault file {v.path} is not valid JSON")
  | some (.json (.obj state)) => (v.loadObject repr state).map some
  | some (.json _) =>
      .error (.vaultConfigurationError s!"vault file {v.path} is not a JSON object")

/-- The state of a new vault, under a salt drawn for it. -/
def initState (salt : List UInt8) : VaultState :=
  ([("version", .int 1), ("salt", .str (.ofList (Base64.encode salt))),
    ("iterations", defaultIterations.json), ("credentials", .obj [])], ⟨salt, defaultIterations⟩)

/-- `_load_state_required`. -/
def required (loaded : Option VaultState) : Except VaultExn VaultState :=
  match loaded with
  | some state => .ok state
  | none => .error (.vaultCredentialNotFoundError
      s!"vault file {v.path} does not exist yet; nothing to retrieve")

/-- `_derive_key`. -/
def deriveKey (params : KeyParameters) : Except VaultExn crypto.Key :=
  match v.passphrase with
  | none => .error (.vaultConfigurationError
      "vault passphrase is not set (pass `passphrase=` or set TENAME_VAULT_PASSPHRASE)")
  | some passphrase => crypto.deriveKey passphrase params

/-- What `_write_state` serializes. -/
def document (next : VaultState) : Payload :=
  (((next.1.set "version" (.int 1)).set "salt" (.str (.ofList (Base64.encode next.2.salt)))).set
    "iterations" next.2.iterations.json).setDefault "credentials" (.obj [])

/-- `decrypt_value` on a value of the credentials. -/
def decryptToken (key : crypto.Key) : Json → Except VaultExn String
  | .str token => crypto.decryptValue key token
  | _ => .error (.other "token is not a string")

/-- `store` after its checks: what it writes. -/
def storeState (name : String) (value : PyStr) (salt : List UInt8) (draw : Nat)
    (loaded : Option VaultState) : Except VaultExn VaultState := do
  let (state, params) := loaded.getD (initState salt)
  let key ← v.deriveKey crypto params
  let token ← crypto.encryptValue key draw value
  return (withCredentials state ((credentialsDict state).set name (.str token)), params)

/-- `revoke` after its check: what it writes, if the credential is there. -/
def revokeState (name : String) (loaded : Option VaultState) : Option VaultState :=
  match loaded with
  | none => none
  | some (state, params) =>
      if ((credentialsDict state).get? name).isNone then none
      else some (withCredentials state ((credentialsDict state).del name), params)

/-- `retrieve`. -/
def retrieve (name : String) (file : VaultFile) : Except VaultExn String := do
  validateName repr name
  let (state, params) ← v.required (← v.loadStateOrNone repr file)
  match (credentialsDict state).getD name .null with
  | .null =>
      let shown := repr (.str name)
      .error (.vaultCredentialNotFoundError s!"no credential named {shown}")
  | token =>
      let key ← v.deriveKey crypto params
      decryptToken crypto key token

/-- `list`. -/
def list (file : VaultFile) : Except VaultExn (List String) :=
  (v.loadStateOrNone repr file).map fun loaded =>
    (((loaded.map fun state => credentialsDict state.1).getD []).map Prod.fst).insertionSort (· ≤ ·)

/-- The plaintexts of all credentials. -/
def plaintexts (key : crypto.Key) (credentials : Payload) :
    Except VaultExn (List (String × String)) :=
  credentials.mapM fun field => (decryptToken crypto key field.2).map fun plaintext =>
    (field.1, plaintext)

/-- The tokens of all credentials, each under a draw of its own. What has been decrypted has an
encoding. -/
def tokens (key : crypto.Key) (draw : Nat) : List (String × String) → Payload
  | [] => []
  | (name, plaintext) :: rest =>
      (name, .str (crypto.encrypt key draw plaintext)) :: tokens key (draw + 1) rest

/-- `change_passphrase` up to its assignment of the new passphrase: the state without its
credentials, and their plaintexts. -/
def openAll (loaded : Option VaultState) :
    Except VaultExn (Payload × List (String × String)) := do
  let (state, params) ← v.required loaded
  let oldKey ← v.deriveKey crypto params
  return (state, ← plaintexts crypto oldKey (credentialsDict state))

/-- What `change_passphrase` writes, once the instance has the new passphrase. -/
def rekeyed (salt : List UInt8) (draw : Nat) (opened : Payload × List (String × String)) :
    Except VaultExn VaultState := do
  let newParams : KeyParameters := ⟨salt, defaultIterations⟩
  let newKey ← v.deriveKey crypto newParams
  return (withCredentials opened.1 (tokens crypto newKey draw opened.2), newParams)

/-- The end of `_write_state`. -/
def writeState (file : VaultFile) (next : VaultState) :
    WriteOutcome → VaultFile × Except VaultExn Unit
  | .whole => (some (.json (.obj (document next))), .ok ())
  | .short => (some .undecodable, .ok ())
  | .refused e => (file, .error e)

/-- What `store` writes over a file. -/
def storeNext (name : String) (value : PyStr) (salt : List UInt8) (draw : Nat)
    (file : VaultFile) : Except VaultExn VaultState := do
  validateName repr name
  v.storeState crypto name value salt draw (← v.loadStateOrNone repr file)

/-- What `revoke` writes over a file, if the credential is there. -/
def revokeNext (name : String) (file : VaultFile) : Except VaultExn (Option VaultState) := do
  validateName repr name
  return revokeState name (← v.loadStateOrNone repr file)

/-- `store`. -/
def store (name : String) (value : PyStr) (salt : List UInt8) (draw : Nat) (write : WriteOutcome)
    (file : VaultFile) : VaultFile × Except VaultExn Unit :=
  match v.storeNext crypto repr name value salt draw file with
  | .ok next => writeState file next write
  | .error e => (file, .error e)

/-- `revoke`. -/
def revoke (name : String) (write : WriteOutcome) (file : VaultFile) :
    VaultFile × Except VaultExn Bool :=
  match v.revokeNext repr name file with
  | .ok (some next) =>
      ((writeState file next write).1, (writeState file next write).2.map fun _ => true)
  | .ok none => (file, .ok false)
  | .error e => (file, .error e)

/-- `change_passphrase`. The instance has the new passphrase before the file is written. -/
def changePassphrase (newPassphrase : PyStr) (salt : List UInt8) (draw : Nat)
    (write : WriteOutcome) (file : VaultFile) : Vault × VaultFile × Except VaultExn Unit :=
  if newPassphrase = .text "" then
    (v, file, .error (.vaultConfigurationError "new vault passphrase must be non-empty"))
  else
    match (v.loadStateOrNone repr file).bind (v.openAll crypto) with
    | .error e => (v, file, .error e)
    | .ok opened =>
        let v : Vault := { v with passphrase := some newPassphrase }
        match v.rekeyed crypto salt draw opened with
        | .error e => (v, file, .error e)
        | .ok next => (v, writeState file next write)

end Vault

section Format

variable {repr : Json → String} {v : Vault} {next : VaultState} {credentials : Payload}

theorem Payload.setDefault_of_some {payload : Payload} {key : String} {value given : Json}
    (h : payload.get? key = some given) : payload.setDefault key value = payload := by
  have present : payload.any (·.1 = key) = true := by
    rw [← Bool.not_eq_false, ← Payload.get?_eq_none_iff, h]
    simp
  rw [Payload.setDefault, if_pos present]

theorem document_get? (key : String) : (Vault.document next).get? key =
    if key = "credentials" then some ((next.1.get? "credentials").getD (.obj []))
    else if key = "iterations" then some next.2.iterations.json
    else if key = "salt" then some (.str (.ofList (Base64.encode next.2.salt)))
    else if key = "version" then some (.int 1)
    else next.1.get? key := by
  simp only [Vault.document, Payload.get?_setDefault, Payload.get?_set]
  rfl

theorem credentialsDict_withCredentials (state credentials : Payload) :
    credentialsDict (withCredentials state credentials) = credentials := by
  rw [credentialsDict, withCredentials, Payload.get?_set, if_pos rfl]

theorem pyInt?_json (n : PyInt) : n.json.pyInt? = some n := by
  cases n <;> rfl

/-- What has been written is read back: the parameters of the key, and the credentials. -/
theorem load_document (repr : Json → String) (v : Vault) (next : VaultState)
    (kept : next.1.get? "credentials" = some (.obj credentials)) :
    v.loadStateOrNone repr (some (.json (.obj (Vault.document next)))) =
        .ok (some (Vault.document next, next.2)) ∧
      credentialsDict (Vault.document next) = credentials := by
  have held : (Vault.document next).get? "credentials" = some (.obj credentials) := by
    rw [document_get?, if_pos rfl, kept]
    rfl
  have version : (Vault.document next).getD "version" .null = .int 1 := by
    rw [Payload.getD, document_get?]
    rfl
  have salt : (Vault.document next).getD "salt" .null =
      .str (.ofList (Base64.encode next.2.salt)) := by
    rw [Payload.getD, document_get?]
    rfl
  have iterations : (Vault.document next).getD "iterations" .null = next.2.iterations.json := by
    rw [Payload.getD, document_get?]
    rfl
  constructor
  · simp only [Vault.loadStateOrNone, Vault.loadObject, version, salt, iterations, Json.isOne,
      Json.str?, pyInt?_json, String.toList_ofList, Base64.decode_encode,
      Payload.setDefault_of_some held, held]
    rfl
  · rw [credentialsDict, held]

end Format

end Tename
