import Mathlib.Data.Finmap
import Mathlib.Data.Finset.Sort
import Mathlib.Data.String.Basic
import Tename.Vault.Passphrases

/-!
# The vault as a finite map

Calls made one after another through one instance, on a disk that does not fail. What
the vault is for is a finite map from names to values. The file holds it as a JSON
object of tokens, under a key that the instance's passphrase and the file's own salt
give, and every call that changes it writes the whole of it anew: the relation between
the two is about the file as the next call reads it.
-/

namespace Tename

/-- An argument of a call: a string, or a value of another type. -/
inductive Argument where
  | str (text : String)
  | other
  deriving DecidableEq

/-- A call, with the values it draws. -/
inductive VaultRequest where
  | store (name value : Argument) (salt : List UInt8) (draw : Nat)
  | retrieve (name : Argument)
  | revoke (name : Argument)
  | list
  | changePassphrase (newPassphrase : String) (salt : List UInt8) (draw : Nat)
  deriving DecidableEq

inductive VaultAnswer where
  | done
  | value (plaintext : String)
  | existed (b : Bool)
  | names (names : List String)
  deriving DecidableEq

/-- An instance and the file on its path. -/
structure OpenVault where
  vault : Vault
  file : VaultFile

namespace OpenVault

variable (crypto : Crypto) (repr : Json → String) (s : OpenVault)

def notAName : VaultExn := .vaultError "credential name must be a non-empty string"

def call : VaultRequest → OpenVault × Except VaultExn VaultAnswer
  | .store .other _ _ _ => (s, .error notAName)
  | .store (.str name) .other _ _ =>
      (s, (Vault.validateName repr name).bind fun _ =>
        .error (.vaultError "credential value must be a string"))
  | .store (.str name) (.str value) salt draw =>
      let (file, answer) := s.vault.store crypto repr name value salt draw .whole s.file
      ({ s with file := file }, answer.map fun _ => .done)
  | .retrieve .other => (s, .error notAName)
  | .retrieve (.str name) => (s, (s.vault.retrieve crypto repr name s.file).map .value)
  | .revoke .other => (s, .error notAName)
  | .revoke (.str name) =>
      let (file, answer) := s.vault.revoke repr name .whole s.file
      ({ s with file := file }, answer.map .existed)
  | .list => (s, (s.vault.list repr s.file).map .names)
  | .changePassphrase newPassphrase salt draw =>
      let (vault, file, answer) :=
        s.vault.changePassphrase crypto repr newPassphrase salt draw .whole s.file
      (⟨vault, file⟩, answer.map fun _ => .done)

/-- What is left after calls made one after another. -/
def calls (requests : List VaultRequest) : OpenVault :=
  requests.foldl (fun s request => (s.call crypto repr request).1) s

end OpenVault

/-- What a vault is for. -/
abbrev Credentials := Finmap fun _ : String => String

/-- Neither empty nor with whitespace. -/
def properName (name : String) : Bool :=
  name ≠ "" && !name.toList.any Char.isSpace

namespace VaultRequest

/-- The arguments are such as the call takes. -/
def accepted : VaultRequest → Bool
  | .store (.str name) (.str _) _ _ => properName name
  | .retrieve (.str name) => properName name
  | .revoke (.str name) => properName name
  | .list => true
  | .changePassphrase newPassphrase _ _ => newPassphrase ≠ ""
  | _ => false

end VaultRequest

/-- Names in the order of `sorted`. -/
def sortedNames (names : Finset String) : List String :=
  names.sort (· ≤ ·)

namespace Credentials

variable (held : Credentials)

/-- The map after a request. -/
def after (request : VaultRequest) : Credentials :=
  if request.accepted then
    match request with
    | .store (.str name) (.str value) _ _ => held.insert name value
    | .revoke (.str name) => held.erase name
    | _ => held
  else held

def afterAll (requests : List VaultRequest) : Credentials :=
  requests.foldl after held

/-- What a request may answer. -/
def Answers (request : VaultRequest) (answer : Except VaultExn VaultAnswer) : Prop :=
  if request.accepted then
    match request with
    | .store .. => answer = .ok .done
    | .retrieve (.str name) =>
        match held.lookup name with
        | some value => answer = .ok (.value value)
        | none => ∃ m, answer = .error (.vaultCredentialNotFoundError m)
    | .retrieve .other => False
    | .revoke (.str name) => answer = .ok (.existed (name ∈ held))
    | .revoke .other => False
    | .list => answer = .ok (.names (held.keys.sort (· ≤ ·)))
    | .changePassphrase .. =>
        answer = .ok .done ∨ held = ∅ ∧ ∃ m, answer = .error (.vaultCredentialNotFoundError m)
  else ∃ m, answer = .error (.vaultError m) ∨ answer = .error (.vaultConfigurationError m)

variable {held} {name value : String}

end Credentials

namespace Payload

variable {payload : Payload} {key : String}

theorem nodup_set (value : Json) (h : (payload.map Prod.fst).Nodup) :
    ((payload.set key value).map Prod.fst).Nodup := by
  unfold set
  split
  · rw [List.map_map]
    have names : (Prod.fst ∘ fun field : String × Json =>
        if field.1 = key then (key, value) else field) = Prod.fst := by
      funext field
      by_cases same : field.1 = key
      · simp [same]
      · simp [same]
    rw [names]
    exact h
  · rename_i absent
    rw [List.map_append, List.nodup_append]
    refine ⟨h, List.nodup_singleton _, ?_⟩
    intro name mem name' mem' same
    subst same
    obtain ⟨field, there, rfl⟩ := List.mem_map.mp mem
    exact absent (List.any_eq_true.mpr ⟨field, there, decide_eq_true (List.mem_singleton.mp mem')⟩)

theorem nodup_del (h : (payload.map Prod.fst).Nodup) : ((payload.del key).map Prod.fst).Nodup :=
  h.sublist (List.filter_sublist.map _)

theorem get?_del (payload : Payload) (key key' : String) :
    (payload.del key).get? key' = if key' = key then none else payload.get? key' := by
  induction payload with
  | nil => simp [del, get?]
  | cons field payload ih =>
      rw [get?_cons]
      by_cases gone : field.1 = key
      · have rest : del (field :: payload) key = del payload key :=
          List.filter_cons_of_neg (by simpa using gone)
        rw [rest, ih]
        by_cases here : key' = key
        · simp [here]
        · have other : field.1 ≠ key' := fun same => here (same.symm.trans gone)
          simp [here, other]
      · have rest : del (field :: payload) key = field :: del payload key :=
          List.filter_cons_of_pos (by simpa using gone)
        rw [rest, get?_cons, ih]
        by_cases here : key' = key
        · subst here
          simp [gone]
        · simp [here]

/-- A field is found under its key, if no other has it. -/
theorem get?_of_mem {value : Json} (h : (payload.map Prod.fst).Nodup)
    (mem : (key, value) ∈ payload) : payload.get? key = some value := by
  induction payload with
  | nil => cases mem
  | cons field payload ih =>
      rw [List.map_cons, List.nodup_cons] at h
      rw [get?_cons]
      rcases List.mem_cons.mp mem with rfl | mem
      · rw [if_pos rfl]
      · rw [if_neg, ih h.2 mem]
        intro same
        exact h.1 (same ▸ List.mem_map_of_mem (f := Prod.fst) mem)

theorem isSome_get? : (payload.get? key).isSome = true ↔ key ∈ payload.map Prod.fst := by
  rw [← Bool.not_eq_false, Option.isSome_eq_false_iff, Option.isNone_iff_eq_none, get?_eq_none_iff]
  simp

/-- The names of a payload in order are those of a map, if it has each of them once. -/
theorem sorted_names {α : Type} {held : Finmap fun _ : String => α}
    (distinct : (payload.map Prod.fst).Nodup)
    (same : ∀ name, name ∈ payload.map Prod.fst ↔ name ∈ held) :
    (payload.map Prod.fst).insertionSort (· ≤ ·) = sortedNames held.keys := by
  rw [sortedNames]
  refine List.Perm.eq_of_pairwise' ?_ (Finset.pairwise_sort _ _) ?_
  · exact List.pairwise_insertionSort _ _
  · refine (List.perm_insertionSort _ _).trans ?_
    refine (List.perm_ext_iff_of_nodup distinct (Finset.sort_nodup _ _)).mpr fun name => ?_
    rw [same, Finset.mem_sort, Finmap.mem_keys]

end Payload

namespace Vault

variable {crypto : Crypto} {repr : Json → String} {v : Vault} {file : VaultFile}
variable {passphrase : String} {state : VaultState} {held : Credentials}

variable (crypto) in
/-- The state holds the credentials of a map, each once, under the passphrase's key. -/
structure Holds (passphrase : String) (state : VaultState) (held : Credentials) : Prop where
  allowed : crypto.allows state.2.iterations = true
  distinct : ((credentialsDict state.1).map Prod.fst).Nodup
  values : ∀ name, ((credentialsDict state.1).get? name).map
    (decryptToken crypto (crypto.derive passphrase state.2)) = (held.lookup name).map .ok

theorem Holds.opened (h : Holds crypto passphrase state held) :
    Opened crypto passphrase state := by
  refine ⟨h.allowed, fun field mem => ?_⟩
  have value := h.values field.1
  rw [Payload.get?_of_mem h.distinct mem, Option.map_some] at value
  cases found : held.lookup field.1 with
  | none =>
      rw [found] at value
      cases value
  | some plaintext =>
      rw [found, Option.map_some, Option.some_inj] at value
      rw [value]
      rfl

theorem Holds.init (crypto : Crypto) (passphrase : String) (salt : List UInt8) :
    Holds crypto passphrase (initState salt) ∅ :=
  ⟨crypto.allows_default, List.nodup_nil, fun _ => rfl⟩

theorem Holds.eq_empty {salt : List UInt8} (h : Holds crypto passphrase (initState salt) held) :
    held = ∅ := by
  refine Finmap.ext_lookup fun name => ?_
  have value := h.values name
  cases found : held.lookup name with
  | none => rfl
  | some plaintext =>
      rw [found] at value
      cases value

/-- Under another salt a new vault has the same credentials, none. -/
theorem Holds.new {loaded : Option VaultState} (salt : List UInt8)
    (h : Holds crypto passphrase (loaded.getD (initState [])) held) :
    Holds crypto passphrase (loaded.getD (initState salt)) held := by
  cases loaded with
  | none =>
      rw [h.eq_empty]
      exact .init crypto passphrase salt
  | some state => exact h

theorem Holds.mem_iff {name : String} (h : Holds crypto passphrase state held) :
    name ∈ (credentialsDict state.1).map Prod.fst ↔ name ∈ held := by
  have value := congrArg Option.isSome (h.values name)
  rw [Option.isSome_map, Option.isSome_map] at value
  rw [← Payload.isSome_get?, value, Finmap.lookup_isSome]

theorem Holds.names (h : Holds crypto passphrase state held) :
    ((credentialsDict state.1).map Prod.fst).insertionSort (· ≤ ·) = held.keys.sort (· ≤ ·) :=
  Payload.sorted_names h.distinct fun _ => h.mem_iff

theorem Holds.added (name value : String) (draw : Nat) (h : Holds crypto passphrase state held) :
    Holds crypto passphrase (added crypto passphrase name value draw state)
      (held.insert name value) := by
  refine ⟨h.allowed, ?_, fun name' => ?_⟩
  · rw [Vault.added, credentialsDict_withCredentials]
    exact Payload.nodup_set _ h.distinct
  · rw [Vault.added, credentialsDict_withCredentials, Payload.get?_set]
    by_cases here : name' = name
    · subst here
      rw [if_pos rfl, Option.map_some, Finmap.lookup_insert, decryptToken_encrypt]
      rfl
    · rw [if_neg here, Finmap.lookup_insert_of_ne held here]
      exact h.values name'

theorem Holds.del (name : String) (h : Holds crypto passphrase state held) :
    Holds crypto passphrase
      (withCredentials state.1 ((credentialsDict state.1).del name), state.2)
      (held.erase name) := by
  refine ⟨h.allowed, ?_, fun name' => ?_⟩
  · rw [credentialsDict_withCredentials]
    exact Payload.nodup_del h.distinct
  · rw [credentialsDict_withCredentials, Payload.get?_del]
    by_cases here : name' = name
    · rw [if_pos here, here, Finmap.lookup_erase]
      rfl
    · rw [if_neg here, Finmap.lookup_erase_ne here]
      exact h.values name'

/-- Tokens of plaintexts under another key have the same names and decrypt to the same values. -/
theorem tokens_of_plaintexts {key : crypto.Key} {credentials : Payload}
    {plain : List (String × String)} (key' : crypto.Key) (draw : Nat)
    (h : plaintexts crypto key credentials = .ok plain) :
    (tokens crypto key' draw plain).map Prod.fst = credentials.map Prod.fst ∧
      ∀ name, (Payload.get? (tokens crypto key' draw plain) name).map (decryptToken crypto key') =
        (credentials.get? name).map (decryptToken crypto key) := by
  induction credentials generalizing plain draw with
  | nil =>
      obtain rfl := Except.ok.inj h
      exact ⟨rfl, fun _ => rfl⟩
  | cons field credentials ih =>
      unfold plaintexts at h
      rw [List.mapM_cons, bind_eq_ok] at h
      obtain ⟨first, decrypted, h⟩ := h
      obtain ⟨rest, opened, h⟩ := bind_eq_ok.mp h
      obtain rfl := Except.ok.inj h
      obtain ⟨names, values⟩ := ih (draw + 1) opened
      cases token : decryptToken crypto key field.2 with
      | error e =>
          rw [token] at decrypted
          cases decrypted
      | ok plaintext =>
          rw [token] at decrypted
          obtain rfl := Except.ok.inj decrypted
          refine ⟨congrArg (field.1 :: ·) names, fun name => ?_⟩
          rw [tokens, Payload.get?_cons, Payload.get?_cons]
          by_cases here : field.1 = name
          · simp [here, token, decryptToken_encrypt]
          · simp [here, values]

/-- Changing the passphrase leaves the credentials as they are. -/
theorem Holds.rekeyed {passphrase' : String} {plain : List (String × String)} (salt : List UInt8)
    (draw : Nat) (h : Holds crypto passphrase state held)
    (opened : plaintexts crypto (crypto.derive passphrase state.2) (credentialsDict state.1) =
      .ok plain) :
    Holds crypto passphrase' (withCredentials state.1 (tokens crypto
      (crypto.derive passphrase' ⟨salt, defaultIterations⟩) draw plain),
      ⟨salt, defaultIterations⟩) held := by
  obtain ⟨names, values⟩ := tokens_of_plaintexts
    (crypto.derive passphrase' ⟨salt, defaultIterations⟩) draw opened
  refine ⟨crypto.allows_default, ?_, fun name => ?_⟩
  · rw [credentialsDict_withCredentials, names]
    exact h.distinct
  · rw [credentialsDict_withCredentials, values]
    exact h.values name

end Vault

namespace OpenVault

variable {crypto : Crypto} {repr : Json → String} {s : OpenVault} {held : Credentials}

variable (crypto repr) in
/-- The file holds the credentials of a map under the instance's passphrase. A missing file
holds none. -/
def Represents (s : OpenVault) (held : Credentials) : Prop :=
  ∃ passphrase loaded, s.vault.passphrase = some (.text passphrase) ∧ passphrase ≠ "" ∧
    s.vault.loadStateOrNone repr s.file = .ok loaded ∧
    Vault.Holds crypto passphrase (loaded.getD (Vault.initState [])) held

theorem validateName_eq (repr : Json → String) (name : String) :
    Vault.validateName repr name = .ok () ∧ properName name = true ∨
      (∃ m, Vault.validateName repr name = .error (.vaultError m)) ∧ properName name = false := by
  unfold Vault.validateName properName
  by_cases empty : name = ""
  · exact .inr ⟨⟨_, if_pos empty⟩, by simp [empty]⟩
  · rw [if_neg empty]
    cases spaced : name.toList.any Char.isSpace with
    | true => exact .inr ⟨⟨_, rfl⟩, by simp⟩
    | false => exact .inl ⟨rfl, by simp [empty]⟩

/-- What has been written holds what its state holds. -/
theorem represents_document {passphrase : String} {next : VaultState}
    (given : s.vault.passphrase = some (.text passphrase)) (proper : passphrase ≠ "")
    (written : s.file = some (.json (.obj (Vault.document next))))
    (kept : ∃ credentials, next.1.get? "credentials" = some (.obj credentials))
    (holds : Vault.Holds crypto passphrase next held) : s.Represents crypto repr held := by
  obtain ⟨credentials, kept⟩ := kept
  obtain ⟨read, listed⟩ := load_document repr s.vault next kept
  refine ⟨passphrase, some (Vault.document next, next.2), given, proper, by rw [written, read], ?_⟩
  have same : credentialsDict (Vault.document next) = credentialsDict next.1 := by
    rw [listed, credentialsDict, kept]
  refine ⟨holds.allowed, ?_, ?_⟩
  · change ((credentialsDict (Vault.document next)).map Prod.fst).Nodup
    rw [same]
    exact holds.distinct
  · intro name
    change ((credentialsDict (Vault.document next)).get? name).map _ = _
    rw [same]
    exact holds.values name

theorem Represents.store {name : String} (value : String) (salt : List UInt8) (draw : Nat)
    (h : s.Represents crypto repr held) (proper : Vault.validateName repr name = .ok ()) :
    ∃ file, s.vault.store crypto repr name value salt draw .whole s.file = (file, .ok ()) ∧
      Represents crypto repr ⟨s.vault, file⟩ (held.insert name value) := by
  obtain ⟨passphrase, loaded, given, nonempty, read, holds⟩ := h
  refine ⟨_, Vault.store_eq passphrase value loaded proper read given nonempty
    (holds.new salt).allowed, ?_⟩
  exact represents_document given nonempty rfl (Vault.held_withCredentials _ _)
    ((holds.new salt).added name value draw)

theorem Represents.retrieve {name : String} (h : s.Represents crypto repr held)
    (proper : Vault.validateName repr name = .ok ()) :
    match held.lookup name with
    | some value => s.vault.retrieve crypto repr name s.file = .ok value
    | none => ∃ m, s.vault.retrieve crypto repr name s.file =
        .error (.vaultCredentialNotFoundError m) := by
  obtain ⟨passphrase, loaded, given, nonempty, read, holds⟩ := h
  simp only [Vault.retrieve, proper, read, bind, Except.bind]
  cases loaded with
  | none =>
      rw [holds.eq_empty, Finmap.lookup_empty]
      exact ⟨_, rfl⟩
  | some state =>
      have value := holds.values name
      simp only [Vault.required, Payload.getD]
      cases found : held.lookup name with
      | none =>
          rw [found, Option.map_none, Option.map_eq_none_iff] at value
          rw [show (credentialsDict state.1).get? name = none from value]
          exact ⟨_, rfl⟩
      | some plaintext =>
          rw [found, Option.map_some, Option.map_eq_some_iff] at value
          obtain ⟨token, there, decrypted⟩ := value
          rw [show (credentialsDict state.1).get? name = some token from there, Option.getD_some]
          have derived :
              s.vault.deriveKey crypto state.2 = .ok (crypto.derive passphrase state.2) :=
            Vault.deriveKey_eq_ok.mpr ⟨passphrase, given, nonempty, holds.allowed, rfl⟩
          cases token with
          | str token =>
              rw [derived]
              exact decrypted
          | _ => cases decrypted

theorem Represents.revoke {name : String} (h : s.Represents crypto repr held)
    (proper : Vault.validateName repr name = .ok ()) :
    ∃ file, s.vault.revoke repr name .whole s.file = (file, .ok (decide (name ∈ held))) ∧
      Represents crypto repr ⟨s.vault, file⟩ (held.erase name) := by
  obtain ⟨passphrase, loaded, given, nonempty, read, holds⟩ := h
  have next : s.vault.revokeNext repr name s.file = .ok (Vault.revokeState name loaded) := by
    simp only [Vault.revokeNext, proper, read, bind, Except.bind]
    rfl
  have present : name ∈ (credentialsDict (loaded.getD (Vault.initState [])).1).map Prod.fst ↔
      name ∈ held := holds.mem_iff
  by_cases there : name ∈ held
  · cases loaded with
    | none =>
        rw [holds.eq_empty] at there
        exact absurd there Finmap.notMem_empty
    | some state =>
        have found : ((credentialsDict state.1).get? name).isNone = false := by
          rw [← Bool.not_eq_true, Option.isNone_iff_eq_none, ← ne_eq, ← Option.isSome_iff_ne_none]
          exact Payload.isSome_get?.mpr (present.mpr there)
        have revoked : s.vault.revoke repr name .whole s.file =
            (some (.json (.obj (Vault.document (withCredentials state.1
              ((credentialsDict state.1).del name), state.2)))), .ok true) := by
          rw [Vault.revoke, next]
          simp only [Vault.revokeState, found, Bool.false_eq_true, if_false, Vault.writeState]
          rfl
        refine ⟨_, by rw [revoked, decide_eq_true there], ?_⟩
        exact represents_document given nonempty rfl (Vault.held_withCredentials _ _)
          (holds.del name)
  · have same : held.erase name = held := by
      refine Finmap.ext_lookup fun name' => ?_
      by_cases here : name' = name
      · rw [here, Finmap.lookup_erase, Finmap.lookup_eq_none.mpr there]
      · exact Finmap.lookup_erase_ne here
    refine ⟨s.file, ?_, ?_⟩
    · have gone : Vault.revokeState name loaded = none := by
        cases loaded with
        | none => rfl
        | some state =>
            have missing : ((credentialsDict state.1).get? name).isNone = true := by
              rw [← Bool.not_eq_false, Option.isNone_eq_false_iff]
              exact fun found => there (present.mp (Payload.isSome_get?.mp found))
            simp only [Vault.revokeState, missing, if_true]
      rw [Vault.revoke, next, gone]
      simp [there]
    · rw [same]
      exact ⟨passphrase, loaded, given, nonempty, read, holds⟩

theorem Represents.list (h : s.Represents crypto repr held) :
    s.vault.list repr s.file = .ok (held.keys.sort (· ≤ ·)) := by
  obtain ⟨passphrase, loaded, given, nonempty, read, holds⟩ := h
  rw [Vault.list, read, ← holds.names]
  cases loaded with
  | none => rfl
  | some state => rfl

theorem Represents.changePassphrase {newPassphrase : String} (salt : List UInt8) (draw : Nat)
    (h : s.Represents crypto repr held) (proper : newPassphrase ≠ "") :
    ∃ v file answer,
      s.vault.changePassphrase crypto repr newPassphrase salt draw .whole s.file =
        (v, file, answer) ∧
      Represents crypto repr ⟨v, file⟩ held ∧
      (answer = .ok () ∨ held = ∅ ∧ ∃ m, answer = .error (.vaultCredentialNotFoundError m)) := by
  obtain ⟨passphrase, loaded, given, nonempty, read, holds⟩ := h
  rw [Vault.changePassphrase, if_neg (mt PyStr.text.inj proper), read]
  cases loaded with
  | none =>
      exact ⟨_, _, _, rfl, ⟨passphrase, none, given, nonempty, read, holds⟩,
        .inr ⟨holds.eq_empty, _, rfl⟩⟩
  | some state =>
      obtain ⟨plain, decrypted⟩ := Vault.plaintexts_eq_ok.mpr holds.opened.decrypted
      have derived : s.vault.deriveKey crypto state.2 = .ok (crypto.derive passphrase state.2) :=
        Vault.deriveKey_eq_ok.mpr ⟨passphrase, given, nonempty, holds.allowed, rfl⟩
      have opens : s.vault.openAll crypto (some state) = .ok (state.1, plain) := by
        simp only [Vault.openAll, Vault.required, derived, bind, Except.bind]
        rw [show Vault.plaintexts crypto (crypto.derive passphrase state.2)
          (credentialsDict state.1) = .ok plain from decrypted]
        rfl
      simp only [Except.bind, opens,
        Vault.rekeyed_eq_ok (v := ⟨s.vault.path, some (.text newPassphrase)⟩) rfl proper]
      refine ⟨_, _, _, rfl, ?_, .inl rfl⟩
      exact represents_document rfl proper rfl (Vault.held_withCredentials _ _)
        (holds.rekeyed salt draw decrypted)

variable (crypto repr) in
/-- One call: it answers as the map does, and leaves what the map becomes. -/
structure Follows (s : OpenVault) (held : Credentials) (request : VaultRequest) : Prop where
  represents : Represents crypto repr (s.call crypto repr request).1 (held.after request)
  answers : held.Answers request (s.call crypto repr request).2
  rejected : request.accepted = false → (s.call crypto repr request).1 = s

theorem Represents.rejects {request : VaultRequest} {e : VaultExn}
    (h : s.Represents crypto repr held) (no : request.accepted = false)
    (answer : s.call crypto repr request = (s, .error e))
    (kind : ∃ m, e = .vaultError m ∨ e = .vaultConfigurationError m) :
    s.Follows crypto repr held request := by
  obtain ⟨m, kind⟩ := kind
  refine ⟨?_, ?_, fun _ => by rw [answer]⟩
  · unfold Credentials.after
    rw [answer, no]
    exact h
  · unfold Credentials.Answers
    rw [answer, no]
    exact ⟨m, kind.imp (congrArg Except.error) (congrArg Except.error)⟩

theorem Represents.follows_store {name : String} (value : Argument) (salt : List UInt8)
    (draw : Nat) (h : s.Represents crypto repr held) :
    s.Follows crypto repr held (.store (.str name) value salt draw) := by
  rcases validateName_eq repr name with ⟨valid, proper⟩ | ⟨⟨m, invalid⟩, improper⟩
  · cases value with
    | other =>
        have called : s.call crypto repr (.store (.str name) .other salt draw) =
            (s, .error (.vaultError "credential value must be a string")) := by
          rw [call, valid]
          rfl
        exact h.rejects rfl called ⟨_, .inl rfl⟩
    | str value =>
        obtain ⟨file, stored, represents⟩ := h.store value salt draw valid
        have called : s.call crypto repr (.store (.str name) (.str value) salt draw) =
            (⟨s.vault, file⟩, .ok .done) := by
          rw [call, stored]
          rfl
        refine ⟨?_, ?_, fun no => ?_⟩
        · rw [called, Credentials.after]
          exact (if_pos proper).symm ▸ represents
        · rw [called, Credentials.Answers]
          exact (if_pos proper).symm ▸ rfl
        · exact absurd (proper.symm.trans no) (by decide)
  · cases value with
    | other =>
        refine h.rejects rfl ?_ ⟨m, .inl rfl⟩
        rw [call, invalid]
        rfl
    | str value =>
        refine h.rejects improper ?_ ⟨m, .inl rfl⟩
        simp only [call, Vault.store, Vault.storeNext, invalid, bind, Except.bind]
        rfl

theorem Represents.follows_retrieve {name : String} (h : s.Represents crypto repr held) :
    s.Follows crypto repr held (.retrieve (.str name)) := by
  rcases validateName_eq repr name with ⟨valid, proper⟩ | ⟨⟨m, invalid⟩, improper⟩
  · have found := h.retrieve valid
    refine ⟨?_, ?_, fun no => absurd (proper.symm.trans no) (by decide)⟩
    · exact (show held.after (.retrieve (.str name)) = held from ite_self _).symm ▸ h
    · unfold Credentials.Answers
      rw [if_pos (show (VaultRequest.retrieve (.str name)).accepted = true from proper)]
      cases value : held.lookup name with
      | some plaintext =>
          rw [value] at found
          simp [value, call, found, Except.map]
      | none =>
          rw [value] at found
          obtain ⟨m, found⟩ := found
          simp [value, call, found, Except.map]
  · refine h.rejects improper ?_ ⟨m, .inl rfl⟩
    simp only [call, Vault.retrieve, invalid, bind, Except.bind]
    rfl

theorem Represents.follows_revoke {name : String} (h : s.Represents crypto repr held) :
    s.Follows crypto repr held (.revoke (.str name)) := by
  rcases validateName_eq repr name with ⟨valid, proper⟩ | ⟨⟨m, invalid⟩, improper⟩
  · obtain ⟨file, revoked, represents⟩ := h.revoke valid
    have called : s.call crypto repr (.revoke (.str name)) =
        (⟨s.vault, file⟩, .ok (.existed (name ∈ held))) := by
      rw [call, revoked]
      rfl
    refine ⟨?_, ?_, fun no => absurd (proper.symm.trans no) (by decide)⟩
    · rw [called, Credentials.after]
      exact (if_pos proper).symm ▸ represents
    · rw [called, Credentials.Answers]
      exact (if_pos proper).symm ▸ rfl
  · refine h.rejects improper ?_ ⟨m, .inl rfl⟩
    simp only [call, Vault.revoke, Vault.revokeNext, invalid, bind, Except.bind]
    rfl

theorem Represents.follows_changePassphrase (newPassphrase : String) (salt : List UInt8)
    (draw : Nat) (h : s.Represents crypto repr held) :
    s.Follows crypto repr held (.changePassphrase newPassphrase salt draw) := by
  by_cases empty : newPassphrase = ""
  · have called : s.call crypto repr (.changePassphrase newPassphrase salt draw) =
        (s, .error (.vaultConfigurationError "new vault passphrase must be non-empty")) := by
      simp only [call, Vault.changePassphrase, if_pos (congrArg PyStr.text empty)]
      rfl
    exact h.rejects (decide_eq_false (not_not_intro empty)) called ⟨_, .inr rfl⟩
  · have accepted : VaultRequest.accepted (.changePassphrase newPassphrase salt draw) = true :=
      decide_eq_true empty
    obtain ⟨v, file, answer, changed, represents, answers⟩ :=
      h.changePassphrase salt draw empty
    have called : s.call crypto repr (.changePassphrase newPassphrase salt draw) =
        (⟨v, file⟩, answer.map fun _ => .done) := by
      rw [call, changed]
    refine ⟨?_, ?_, fun no => absurd (accepted.symm.trans no) (by decide)⟩
    · rw [called]
      exact (show held.after (.changePassphrase newPassphrase salt draw) = held from
        ite_self _).symm ▸ represents
    · rw [called, Credentials.Answers, if_pos accepted]
      rcases answers with rfl | ⟨none, m, rfl⟩
      · exact .inl rfl
      · exact .inr ⟨none, m, rfl⟩

theorem Represents.follows (h : s.Represents crypto repr held) (request : VaultRequest) :
    s.Follows crypto repr held request := by
  cases request with
  | store name value salt draw =>
      cases name with
      | str name => exact h.follows_store value salt draw
      | other => exact h.rejects rfl rfl ⟨_, .inl rfl⟩
  | retrieve name =>
      cases name with
      | str name => exact h.follows_retrieve
      | other => exact h.rejects rfl rfl ⟨_, .inl rfl⟩
  | revoke name =>
      cases name with
      | str name => exact h.follows_revoke
      | other => exact h.rejects rfl rfl ⟨_, .inl rfl⟩
  | list =>
      refine ⟨h, ?_, by rintro ⟨⟩⟩
      change (s.vault.list repr s.file).map VaultAnswer.names = .ok (.names _)
      rw [h.list]
      rfl
  | changePassphrase newPassphrase salt draw =>
      exact h.follows_changePassphrase newPassphrase salt draw

theorem Represents.calls (h : s.Represents crypto repr held) (requests : List VaultRequest) :
    (s.calls crypto repr requests).Represents crypto repr (held.afterAll requests) := by
  induction requests generalizing s held with
  | nil => exact h
  | cons request requests ih => exact ih (h.follows request).represents

end OpenVault

end Tename
