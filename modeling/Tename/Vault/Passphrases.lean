import Tename.Transition.Basic
import Tename.Vault.Service

/-!
# Instances with passphrases of their own

Calls made one after another through instances on one path, each with the passphrase
it was opened with. `store` derives its key from the instance's passphrase without
trying it on the entries that are there, so an instance with another passphrase adds
an entry that the others cannot open. As long as no such store is made and no write is
cut short, one passphrase opens the file as a whole.
-/

namespace Tename

namespace Vault

variable (crypto : Crypto) (repr : Json → String) (v : Vault)

/-- The instance has a passphrase that keys are derived from. -/
def keyed : Bool := v.passphrase.any PyStr.proper

/-- The instance decrypts every credential of the file. A missing file has none. -/
def unlocks (file : VaultFile) : Bool :=
  match v.loadStateOrNone repr file with
  | .error _ => false
  | .ok loaded =>
      let (state, params) := loaded.getD (initState [])
      match v.deriveKey crypto params with
      | .error _ => false
      | .ok key => (credentialsDict state).all fun field => (decryptToken crypto key field.2).isOk

/-- A passphrase decrypts every credential of a state. -/
structure Opened (passphrase : String) (state : VaultState) : Prop where
  allowed : crypto.allows state.2.iterations = true
  decrypted : ∀ field ∈ credentialsDict state.1,
    (decryptToken crypto (crypto.derive passphrase state.2) field.2).isOk = true

/-- The state with one more credential, under a passphrase. -/
def added (passphrase name value : String) (draw : Nat) (state : VaultState) : VaultState :=
  (withCredentials state.1 ((credentialsDict state.1).set name
    (.str (crypto.encrypt (crypto.derive passphrase state.2) draw value))), state.2)

/-- Some passphrase opens the file as a whole. -/
def Whole (file : VaultFile) : Prop :=
  ∃ passphrase, ∀ path, (⟨path, some (.text passphrase)⟩ : Vault).unlocks crypto repr file = true

variable {crypto repr v} {file : VaultFile} {passphrase : String} {params : KeyParameters}
variable {state : VaultState} {credentials : Payload} {name : String}

theorem bind_eq_ok {ε α β : Type} {x : Except ε α} {f : α → Except ε β} {b : β} :
    (x >>= f) = .ok b ↔ ∃ a, x = .ok a ∧ f a = .ok b := by
  cases x with
  | error e => simp [bind, Except.bind]
  | ok a => simp [bind, Except.bind]

theorem keyed_iff :
    v.keyed = true ↔ ∃ passphrase, v.passphrase = some (.text passphrase) ∧ passphrase ≠ "" := by
  rw [keyed]
  cases v.passphrase with
  | none => simp
  | some passphrase => simp [PyStr.proper_iff]

theorem deriveKey_eq_ok {key : crypto.Key} : v.deriveKey crypto params = .ok key ↔
    ∃ passphrase, v.passphrase = some (.text passphrase) ∧ passphrase ≠ "" ∧
      crypto.allows params.iterations = true ∧ key = crypto.derive passphrase params := by
  rw [deriveKey]
  cases v.passphrase with
  | none => simp
  | some passphrase =>
      cases passphrase with
      | unencodable before surrogate after =>
          cases allowed : crypto.allows params.iterations <;>
            simp [Crypto.deriveKey, PyStr.encode, Except.map, allowed]
      | text passphrase =>
          simp only [Option.some.injEq, PyStr.text.injEq, exists_eq_left', Crypto.deriveKey,
            PyStr.encode]
          by_cases empty : passphrase = ""
          · simp [empty]
          · cases crypto.allows params.iterations with
            | false => simp [empty]
            | true => simp [empty, Except.map, eq_comm]

/-- The path is in the texts of the errors only. -/
theorem load_path (repr : Json → String) (v v' : Vault) (file : VaultFile) :
    (v.loadStateOrNone repr file).toOption = (v'.loadStateOrNone repr file).toOption := by
  unfold loadStateOrNone
  split
  · rfl
  · rfl
  · rfl
  · rfl
  · rename_i state
    unfold loadObject
    by_cases version : (!(Payload.getD state "version" .null).isOne) = true
    · simp only [if_pos version]
      rfl
    · simp only [if_neg version]
      split
      · split
        · rfl
        · split <;> rfl
      · rfl
  · rfl

theorem load_of_load (v' : Vault) {loaded : Option VaultState}
    (h : v.loadStateOrNone repr file = .ok loaded) : v'.loadStateOrNone repr file = .ok loaded := by
  have same := load_path repr v v' file
  rw [h] at same
  cases read : v'.loadStateOrNone repr file with
  | error e =>
      rw [read] at same
      cases same
  | ok loaded' =>
      rw [read] at same
      obtain rfl := Option.some.inj same
      rfl

theorem unlocks_iff : v.unlocks crypto repr file = true ↔ ∃ passphrase loaded,
    v.passphrase = some (.text passphrase) ∧ passphrase ≠ "" ∧
      v.loadStateOrNone repr file = .ok loaded ∧
      Opened crypto passphrase (loaded.getD (initState [])) := by
  simp only [unlocks]
  cases v.loadStateOrNone repr file with
  | error e => simp
  | ok loaded =>
      simp only [Except.ok.injEq, exists_eq_left', exists_and_left]
      cases derived : v.deriveKey crypto (loaded.getD (initState [])).2 with
      | error e =>
          simp only [Bool.false_eq_true, false_iff]
          rintro ⟨passphrase, given, proper, opened⟩
          rw [deriveKey_eq_ok.mpr ⟨passphrase, given, proper, opened.allowed, rfl⟩] at derived
          cases derived
      | ok key =>
          obtain ⟨passphrase, given, proper, allowed, rfl⟩ := deriveKey_eq_ok.mp derived
          rw [List.all_eq_true]
          constructor
          · intro all
            exact ⟨passphrase, given, proper, allowed, all⟩
          · rintro ⟨passphrase', given', -, opened⟩
            cases given.symm.trans given'
            exact opened.decrypted

theorem whole_of_unlocks (h : v.unlocks crypto repr file = true) : Whole crypto repr file := by
  obtain ⟨passphrase, loaded, -, proper, read, opened⟩ := unlocks_iff.mp h
  exact ⟨passphrase, fun _ => unlocks_iff.mpr
    ⟨passphrase, loaded, rfl, proper, load_of_load _ read, opened⟩⟩

/-- A file as the vault writes it, opened by the passphrase of its key. -/
structure Written (crypto : Crypto) (passphrase : String) (next : VaultState) (file : VaultFile) :
    Prop where
  document : file = some (.json (.obj (Vault.document next)))
  held : ∃ credentials, next.1.get? "credentials" = some (.obj credentials)
  opened : Opened crypto passphrase next

theorem Written.unlocks {next : VaultState} (h : Written crypto passphrase next file)
    (given : v.passphrase = some (.text passphrase)) (proper : passphrase ≠ "") :
    v.unlocks crypto repr file = true := by
  obtain ⟨credentials, held⟩ := h.held
  obtain ⟨read, same⟩ := load_document repr v next held
  refine unlocks_iff.mpr ⟨passphrase, _, given, proper, by rw [h.document, read], ?_⟩
  have listed : credentialsDict next.1 = credentials := by rw [credentialsDict, held]
  refine ⟨h.opened.allowed, ?_⟩
  change ∀ field ∈ credentialsDict (Vault.document next), _
  rw [same, ← listed]
  exact h.opened.decrypted

theorem whole_none : Whole crypto repr none :=
  ⟨"x", fun _ => unlocks_iff.mpr
    ⟨"x", none, rfl, by decide, rfl, crypto.allows_default, by rintro field ⟨⟩⟩⟩

theorem Written.whole {next : VaultState} (h : Written crypto passphrase next file)
    (proper : passphrase ≠ "") : Whole crypto repr file :=
  ⟨passphrase, fun _ => h.unlocks rfl proper⟩

section Operations

variable {value : PyStr} {salt : List UInt8} {draw : Nat} {write : WriteOutcome}
variable {loaded : Option VaultState} {next : VaultState}

theorem storeNext_eq_ok : v.storeNext crypto repr name value salt draw file = .ok next ↔
    validateName repr name = .ok () ∧ ∃ loaded, v.loadStateOrNone repr file = .ok loaded ∧
      v.storeState crypto name value salt draw loaded = .ok next := by
  simp only [storeNext, bind_eq_ok]
  constructor
  · rintro ⟨⟨⟩, valid, stored⟩
    exact ⟨valid, stored⟩
  · intro stored
    exact ⟨(), stored⟩

theorem encryptValue_eq_ok {key : crypto.Key} {token : String} :
    crypto.encryptValue key draw value = .ok token ↔
      ∃ text, value = .text text ∧ token = crypto.encrypt key draw text := by
  cases value <;> simp [Crypto.encryptValue, PyStr.encode, Except.map, eq_comm]

/-- `store` takes any passphrase that a key is derived from. -/
theorem storeState_eq_ok : v.storeState crypto name value salt draw loaded = .ok next ↔
    ∃ passphrase text, v.passphrase = some (.text passphrase) ∧ passphrase ≠ "" ∧
      crypto.allows (loaded.getD (initState salt)).2.iterations = true ∧ value = .text text ∧
      next = added crypto passphrase name text draw (loaded.getD (initState salt)) := by
  simp only [storeState, bind_eq_ok, deriveKey_eq_ok, encryptValue_eq_ok]
  constructor
  · rintro ⟨key, ⟨passphrase, given, proper, allowed, rfl⟩, token, ⟨text, encoded, rfl⟩, written⟩
    exact ⟨passphrase, text, given, proper, allowed, encoded, (Except.ok.inj written).symm⟩
  · rintro ⟨passphrase, text, given, proper, allowed, encoded, rfl⟩
    exact ⟨_, ⟨passphrase, given, proper, allowed, rfl⟩, _, ⟨text, encoded, rfl⟩, rfl⟩

/-- A store with any passphrase that a key is derived from gets as far as writing. -/
theorem stores (crypto : Crypto) (salt : List UInt8) (draw : Nat)
    (valid : (validateName repr name).isOk = true) (read : v.loadStateOrNone repr file = .ok loaded)
    (allowed : crypto.allows (loaded.getD (initState salt)).2.iterations = true)
    (keyed : v.keyed = true) (encodes : value.isText = true) :
    ∃ next, v.storeNext crypto repr name value salt draw file = .ok next := by
  obtain ⟨passphrase, given, proper⟩ := keyed_iff.mp keyed
  obtain ⟨text, encodes⟩ := PyStr.isText_iff.mp encodes
  refine ⟨_, storeNext_eq_ok.mpr ⟨?_, loaded, read, storeState_eq_ok.mpr
    ⟨passphrase, text, given, proper, allowed, encodes, rfl⟩⟩⟩
  cases checked : validateName repr name with
  | ok _ => rfl
  | error e =>
      rw [checked] at valid
      cases valid

/-- What a store leaves behind if all goes well. -/
theorem store_eq (passphrase text : String) (loaded : Option VaultState)
    (valid : validateName repr name = .ok ())
    (read : v.loadStateOrNone repr file = .ok loaded)
    (given : v.passphrase = some (.text passphrase)) (proper : passphrase ≠ "")
    (allowed : crypto.allows (loaded.getD (initState salt)).2.iterations = true) :
    v.store crypto repr name (.text text) salt draw .whole file =
      (some (.json (.obj (document
        (added crypto passphrase name text draw (loaded.getD (initState salt)))))), .ok ()) := by
  rw [store, storeNext_eq_ok.mpr ⟨valid, loaded, read, storeState_eq_ok.mpr
    ⟨passphrase, text, given, proper, allowed, rfl, rfl⟩⟩]
  rfl

theorem Opened.new (salt : List UInt8) (h : Opened crypto passphrase (loaded.getD (initState []))) :
    Opened crypto passphrase (loaded.getD (initState salt)) := by
  cases loaded with
  | none => exact ⟨crypto.allows_default, by rintro field ⟨⟩⟩
  | some state => exact h

theorem load_added (crypto : Crypto) (repr : Json → String) (v : Vault)
    (passphrase name value : String)
    (draw : Nat) (state : VaultState) : v.loadStateOrNone repr (some (.json (.obj (document
      (added crypto passphrase name value draw state))))) =
        .ok (some (document (added crypto passphrase name value draw state), state.2)) ∧
      credentialsDict (document (added crypto passphrase name value draw state)) =
        (credentialsDict state.1).set name
          (.str (crypto.encrypt (crypto.derive passphrase state.2) draw value)) := by
  refine load_document repr v (added crypto passphrase name value draw state) ?_
  rw [added, withCredentials, Payload.get?_set, if_pos rfl]

theorem decryptToken_encrypt (key : crypto.Key) (draw : Nat) (plaintext : String) :
    decryptToken crypto key (.str (crypto.encrypt key draw plaintext)) = .ok plaintext :=
  crypto.decryptValue_encrypt key draw plaintext

/-- One more credential under the passphrase that opens the others. -/
theorem Opened.added {text : String} (h : Opened crypto passphrase state) :
    Opened crypto passphrase (added crypto passphrase name text draw state) := by
  refine ⟨h.allowed, fun field mem => ?_⟩
  rw [Vault.added, credentialsDict_withCredentials] at mem
  rcases Payload.mem_set mem with rfl | mem
  · change (decryptToken crypto (crypto.derive passphrase state.2) _).isOk = true
    rw [decryptToken_encrypt]
    rfl
  · exact h.decrypted field mem

theorem Opened.del (h : Opened crypto passphrase state) : Opened crypto passphrase
    (withCredentials state.1 ((credentialsDict state.1).del name), state.2) := by
  refine ⟨h.allowed, fun field mem => ?_⟩
  rw [credentialsDict_withCredentials] at mem
  exact h.decrypted field (List.mem_of_mem_filter mem)

theorem held_withCredentials (state credentials : Payload) :
    ∃ held, (withCredentials state credentials).get? "credentials" = some (.obj held) :=
  ⟨credentials, by rw [withCredentials, Payload.get?_set, if_pos rfl]⟩

theorem plaintexts_eq_ok {key : crypto.Key} :
    (∃ plain, plaintexts crypto key credentials = .ok plain) ↔
      ∀ field ∈ credentials, (decryptToken crypto key field.2).isOk = true := by
  induction credentials with
  | nil => exact iff_of_true ⟨[], rfl⟩ (by rintro field ⟨⟩)
  | cons field credentials ih =>
      rw [List.forall_mem_cons, ← ih]
      unfold plaintexts
      rw [List.mapM_cons]
      cases decryptToken crypto key field.2 with
      | error e => simp [bind, Except.bind, Except.map, Except.isOk, Except.toBool]
      | ok plaintext => simp [bind_eq_ok, Except.map, Except.isOk, Except.toBool, pure, Except.pure]

theorem mem_tokens {key : crypto.Key} {opened : List (String × String)} {field : String × Json}
    (h : field ∈ tokens crypto key draw opened) :
    (decryptToken crypto key field.2).isOk = true := by
  induction opened generalizing draw with
  | nil => cases h
  | cons plaintext opened ih =>
      rcases List.mem_cons.mp h with rfl | mem
      · rw [decryptToken_encrypt]
        rfl
      · exact ih mem

/-- A passphrase that opens a state is the one each of its tokens was made with. -/
theorem Opened.eq_passphrase {passphrase' : String} (separates : crypto.Separates fun _ => True)
    (name text : String) (draw : Nat) (h : Opened crypto passphrase state)
    (mem : (name, .str (crypto.encrypt (crypto.derive passphrase' state.2) draw text)) ∈
      credentialsDict state.1) : passphrase = passphrase' := by
  by_contra other
  have decrypts := h.decrypted _ mem
  rw [decryptToken, separates.decryptValue state.2 draw text trivial trivial (Ne.symm other)]
    at decrypts
  cases decrypts

/-- A store with another passphrase than that of a credential which stays leaves a vault
that no passphrase opens. -/
theorem store_not_whole (separates : crypto.Separates fun _ => True)
    (passphrase' text name' text' : String) (draw' : Nat)
    (valid : validateName repr name = .ok ())
    (read : v.loadStateOrNone repr file = .ok (some state))
    (given : v.passphrase = some (.text passphrase)) (proper : passphrase ≠ "")
    (allowed : crypto.allows state.2.iterations = true)
    (mem : (name', .str (crypto.encrypt (crypto.derive passphrase' state.2) draw' text')) ∈
      credentialsDict state.1) (stays : name' ≠ name) (other : passphrase' ≠ passphrase) :
    ¬Whole crypto repr (v.store crypto repr name (.text text) salt draw .whole file).1 := by
  rw [store_eq passphrase text _ valid read given proper allowed]
  rintro ⟨p, unlocked⟩
  obtain ⟨p', loaded, given', -, read', opened⟩ := unlocks_iff.mp (unlocked "")
  cases given'
  obtain ⟨reread, listed⟩ := load_added crypto repr ⟨"", some (.text p)⟩ passphrase name text
    draw state
  obtain rfl := Except.ok.inj (reread.symm.trans read')
  have own : p = passphrase := by
    refine opened.eq_passphrase separates name text draw ?_
    change _ ∈ credentialsDict (document _)
    rw [listed]
    exact Payload.mem_set_self _ _ _
  have theirs : p = passphrase' := by
    refine opened.eq_passphrase separates name' text' draw' ?_
    change _ ∈ credentialsDict (document _)
    rw [listed]
    exact Payload.mem_set_of_ne mem stays
  exact other (theirs.symm.trans own)

/-- A written state replaces the file whole, or the write fails. -/
theorem writeState_file (file : VaultFile) (next : VaultState) (taken : write ≠ .short) :
    (writeState file next write).1 = file ∨
      (writeState file next write).1 = some (.json (.obj (document next))) := by
  cases write with
  | whole => exact .inr rfl
  | short => exact absurd rfl taken
  | refused e => exact .inl rfl

/-- A store by an instance that opens the file. -/
theorem store_whole (opens : v.unlocks crypto repr file = true) (taken : write ≠ .short)
    (whole : Whole crypto repr file) :
    Whole crypto repr (v.store crypto repr name value salt draw write file).1 := by
  rw [store]
  cases stored : v.storeNext crypto repr name value salt draw file with
  | error e => exact whole
  | ok next =>
      rcases writeState_file file next taken with kept | replaced
      · exact kept.symm ▸ whole
      · obtain ⟨passphrase, loaded, given, proper, read, opened⟩ := unlocks_iff.mp opens
        obtain ⟨-, loaded', read', written⟩ := storeNext_eq_ok.mp stored
        obtain rfl := Except.ok.inj (read.symm.trans read')
        obtain ⟨passphrase', text, given', -, -, -, rfl⟩ := storeState_eq_ok.mp written
        cases given.symm.trans given'
        have written : Written crypto passphrase _ _ :=
          ⟨replaced, held_withCredentials _ _, (opened.new salt).added⟩
        exact written.whole proper

theorem revoke_whole (taken : write ≠ .short) (whole : Whole crypto repr file) :
    Whole crypto repr (v.revoke repr name write file).1 := by
  rw [revoke]
  cases revoked : v.revokeNext repr name file with
  | error e => exact whole
  | ok next =>
      cases next with
      | none => exact whole
      | some next =>
          rcases writeState_file file next taken with kept | replaced
          · exact kept.symm ▸ whole
          · obtain ⟨passphrase, unlocked⟩ := whole
            obtain ⟨p, loaded, given, proper, read, opened⟩ := unlocks_iff.mp (unlocked "")
            cases given
            simp only [revokeNext, bind_eq_ok] at revoked
            obtain ⟨-, -, loaded', read', removed⟩ := revoked
            rw [load_of_load _ read] at read'
            obtain rfl := Except.ok.inj read'
            replace removed := Except.ok.inj removed
            cases loaded with
            | none => cases removed
            | some state =>
                simp only [revokeState] at removed
                split at removed
                · cases removed
                · obtain rfl := Option.some.inj removed
                  have written : Written crypto passphrase _ _ :=
                    ⟨replaced, held_withCredentials _ _, Opened.del opened⟩
                  exact written.whole proper

/-- What `change_passphrase` writes is opened by the new passphrase. -/
theorem rekeyed_eq_ok {opened : Payload × List (String × String)}
    (given : v.passphrase = some (.text passphrase)) (proper : passphrase ≠ "") :
    v.rekeyed crypto salt draw opened = .ok (withCredentials opened.1 (tokens crypto
      (crypto.derive passphrase ⟨salt, defaultIterations⟩) draw opened.2),
      ⟨salt, defaultIterations⟩) := by
  rw [rekeyed, bind_eq_ok]
  exact ⟨_, deriveKey_eq_ok.mpr ⟨passphrase, given, proper, crypto.allows_default, rfl⟩, rfl⟩

/-- A new passphrase without an encoding is found out too late. -/
theorem rekeyed_error (crypto : Crypto) (salt : List UInt8) (draw : Nat)
    (opened : Payload × List (String × String)) (unusable : v.keyed = false) :
    ∃ e, v.rekeyed crypto salt draw opened = .error e := by
  rw [rekeyed]
  cases derived : v.deriveKey crypto ⟨salt, defaultIterations⟩ with
  | error e => exact ⟨e, rfl⟩
  | ok key =>
      obtain ⟨passphrase, given, proper, -⟩ := deriveKey_eq_ok.mp derived
      rw [keyed_iff.mpr ⟨passphrase, given, proper⟩] at unusable
      cases unusable

theorem Opened.rekeyed (salt : List UInt8) (opened : Payload × List (String × String)) :
    Opened crypto passphrase (withCredentials opened.1
      (tokens crypto (crypto.derive passphrase ⟨salt, defaultIterations⟩) draw opened.2),
      ⟨salt, defaultIterations⟩) := by
  refine ⟨crypto.allows_default, fun field mem => ?_⟩
  rw [credentialsDict_withCredentials] at mem
  exact mem_tokens mem

theorem changePassphrase_whole {newPassphrase : PyStr} (taken : write ≠ .short)
    (whole : Whole crypto repr file) : Whole crypto repr
      (v.changePassphrase crypto repr newPassphrase salt draw write file).2.1 := by
  rw [changePassphrase]
  split
  · exact whole
  · split
    · exact whole
    · rename_i opened _
      cases rekeys : rekeyed crypto ⟨v.path, some newPassphrase⟩ salt draw opened with
      | error e => simpa only [rekeys] using whole
      | ok next =>
          simp only [rekeys]
          rcases writeState_file file next taken with kept | replaced
          · exact kept.symm ▸ whole
          · obtain ⟨key, derived, written⟩ := bind_eq_ok.mp rekeys
            obtain ⟨passphrase, given, proper, -, rfl⟩ := deriveKey_eq_ok.mp derived
            cases written
            have written : Written crypto passphrase _ _ :=
              ⟨replaced, held_withCredentials _ _, .rekeyed _ _⟩
            exact written.whole proper

theorem load_eq_none (h : v.loadStateOrNone repr file = .ok none) : file = none := by
  unfold loadStateOrNone at h
  split at h
  · rfl
  · cases h
  · cases h
  · cases h
  · rename_i state
    cases loaded : v.loadObject repr state with
    | error e => simp [loaded, Except.map] at h
    | ok state => simp [loaded, Except.map] at h
  · cases h

theorem openAll_eq_ok (v : Vault) (state : VaultState) :
    (∃ plain, v.openAll crypto (some state) = .ok plain) ↔
      ∃ passphrase, v.passphrase = some (.text passphrase) ∧ passphrase ≠ "" ∧
        Opened crypto passphrase state := by
  simp only [openAll, bind_eq_ok, deriveKey_eq_ok]
  constructor
  · rintro ⟨plain, _, ⟨⟩, key, ⟨passphrase, given, proper, allowed, rfl⟩, opened, decrypted, -⟩
    exact ⟨passphrase, given, proper, allowed, plaintexts_eq_ok.mp ⟨opened, decrypted⟩⟩
  · rintro ⟨passphrase, given, proper, opened⟩
    obtain ⟨plain, decrypted⟩ := plaintexts_eq_ok.mpr opened.decrypted
    exact ⟨_, state, rfl, _, ⟨passphrase, given, proper, opened.allowed, rfl⟩, plain, decrypted,
      rfl⟩

/-- `change_passphrase` succeeds with the vault's passphrase and no other, if its argument
is proper, there is a vault and the file can be written. -/
theorem changePassphrase_ok {newPassphrase : PyStr} :
    (v.changePassphrase crypto repr newPassphrase salt draw write file).2.2 = .ok () ↔
      v.unlocks crypto repr file = true ∧ newPassphrase.proper = true ∧ file ≠ none ∧
        write.refuses = false := by
  rw [changePassphrase, unlocks_iff]
  by_cases empty : newPassphrase = .text ""
  · simp [empty, PyStr.proper]
  · rw [if_neg empty]
    cases read : v.loadStateOrNone repr file with
    | error e => simp [Except.bind]
    | ok loaded =>
        cases loaded with
        | none =>
            rw [load_eq_none read]
            simp [Except.bind, openAll, required, bind]
        | some state =>
            have there : file ≠ none := by
              rintro rfl
              cases read
            cases opens : v.openAll crypto (some state) with
            | error e =>
                simp only [Except.bind, opens, reduceCtorEq, false_iff]
                rintro ⟨⟨passphrase, _, given, proper, ⟨⟩, opened⟩, -⟩
                obtain ⟨plain, done⟩ := (openAll_eq_ok v state).mpr
                  ⟨passphrase, given, proper, opened⟩
                rw [opens] at done
                cases done
            | ok plain =>
                have unlocked := (openAll_eq_ok v state).mp ⟨plain, opens⟩
                cases newPassphrase with
                | unencodable before surrogate after =>
                    obtain ⟨e, fails⟩ := rekeyed_error crypto salt draw plain
                      (v := ⟨v.path, some (.unencodable before surrogate after)⟩) rfl
                    simp [Except.bind, opens, fails, PyStr.proper]
                | text newPassphrase =>
                    have nonempty : newPassphrase ≠ "" := fun same => empty (by rw [same])
                    simp only [Except.bind, opens,
                      rekeyed_eq_ok (v := ⟨v.path, some (.text newPassphrase)⟩) rfl nonempty]
                    cases write <;>
                      simp [writeState, WriteOutcome.refuses, PyStr.proper, nonempty, there,
                        unlocked]

end Operations

end Vault

/-- The file and the instances on its path. -/
structure VaultClients where
  file : VaultFile
  instances : InstanceId → Vault

inductive VaultUse where
  | store (i : InstanceId) (name : String) (value : PyStr) (salt : List UInt8) (draw : Nat)
      (write : WriteOutcome)
  | revoke (i : InstanceId) (name : String) (write : WriteOutcome)
  | changePassphrase (i : InstanceId) (newPassphrase : PyStr) (salt : List UInt8) (draw : Nat)
      (write : WriteOutcome)

namespace VaultClients

variable (crypto : Crypto) (repr : Json → String)

def step (s : VaultClients) : VaultUse → Option VaultClients
  | .store i name value salt draw write =>
      let (file, _) := (s.instances i).store crypto repr name value salt draw write s.file
      some { s with file := file }
  | .revoke i name write =>
      let (file, _) := (s.instances i).revoke repr name write s.file
      some { s with file := file }
  | .changePassphrase i newPassphrase salt draw write =>
      let (v, file, _) :=
        (s.instances i).changePassphrase crypto repr newPassphrase salt draw write s.file
      some ⟨file, Function.update s.instances i v⟩

/-- Runs begin without a file, and with any instances. -/
def system : Transition.System VaultClients VaultUse where
  initial s := s.file = none
  step := step crypto repr

/-- The store does not get as far as encrypting: there is no passphrase to derive a key from, no
proper name, or no encoding of the value. -/
def rejected (s : VaultClients) (i : InstanceId) (name : String) (value : PyStr) : Bool :=
  !(s.instances i).keyed || !(Vault.validateName repr name).isOk || !value.isText

/-- The passphrase of a store is the vault's, or the store gets no further than its checks or a
write that is refused. Whatever is written is written whole. -/
def matched (s : VaultClients) : VaultUse → Bool
  | .store i name value _ _ write =>
      write.refuses || s.rejected repr i name value ||
        ((s.instances i).unlocks crypto repr s.file && write ≠ .short)
  | .revoke _ _ write | .changePassphrase _ _ _ _ write => write ≠ .short

variable {crypto repr} {s s' : VaultClients}

/-- A store that gets to its write is not rejected. -/
theorem goes_of_stored {i : InstanceId} {name : String} {value : PyStr} {salt : List UInt8}
    {draw : Nat} {next : VaultState}
    (stored : (s.instances i).storeNext crypto repr name value salt draw s.file = .ok next) :
    s.rejected repr i name value = false := by
  obtain ⟨valid, loaded, -, written⟩ := Vault.storeNext_eq_ok.mp stored
  obtain ⟨passphrase, text, given, proper, -, rfl, -⟩ := Vault.storeState_eq_ok.mp written
  rw [rejected, Vault.keyed_iff.mpr ⟨passphrase, given, proper⟩, valid]
  rfl

/-- A store that is rejected, or whose write is refused, leaves the file. -/
theorem store_fails (crypto : Crypto) {i : InstanceId} {name : String} {value : PyStr}
    (salt : List UInt8) (draw : Nat) {write : WriteOutcome}
    (fails : (write.refuses || s.rejected repr i name value) = true) :
    ∃ e, (s.instances i).store crypto repr name value salt draw write s.file =
      (s.file, .error e) := by
  rw [Vault.store]
  cases stored : (s.instances i).storeNext crypto repr name value salt draw s.file with
  | error e => exact ⟨e, rfl⟩
  | ok next =>
      rw [goes_of_stored stored, Bool.or_false] at fails
      cases write with
      | refused e => exact ⟨e, rfl⟩
      | _ => cases fails

/-- A store by an instance that does not open the file fails exactly if it is matched. -/
theorem matched_iff {i : InstanceId} {name : String} {value : PyStr} {salt : List UInt8}
    {draw : Nat} {write : WriteOutcome} (whole : Vault.Whole crypto repr s.file)
    (locked : (s.instances i).unlocks crypto repr s.file = false) :
    s.matched crypto repr (.store i name value salt draw write) = true ↔
      ∃ e, (s.instances i).store crypto repr name value salt draw write s.file =
        (s.file, .error e) := by
  rw [matched, locked, Bool.false_and, Bool.or_false]
  refine ⟨store_fails crypto salt draw, ?_⟩
  rintro ⟨e, failed⟩
  by_contra goes
  simp only [rejected, Bool.or_eq_true, Bool.not_eq_true', not_or, Bool.not_eq_true,
    Bool.not_eq_false] at goes
  obtain ⟨writes, ⟨keyed, valid⟩, encodes⟩ := goes
  obtain ⟨p, unlocked⟩ := whole
  obtain ⟨_, loaded, -, -, read, opened⟩ := Vault.unlocks_iff.mp (unlocked "")
  obtain ⟨next, stores⟩ := Vault.stores crypto salt draw valid
    (Vault.load_of_load (s.instances i) read) (opened.new salt).allowed keyed encodes
  rw [Vault.store, stores] at failed
  cases write with
  | refused e => cases writes
  | _ => cases congrArg Prod.snd failed

theorem step_whole {a : VaultUse} (whole : Vault.Whole crypto repr s.file)
    (fits : s.matched crypto repr a = true) (stepped : s.step crypto repr a = some s') :
    Vault.Whole crypto repr s'.file := by
  cases a with
  | store i name value salt draw write =>
      obtain rfl := Option.some.inj stepped
      rw [matched, Bool.or_eq_true, Bool.and_eq_true] at fits
      rcases fits with fails | ⟨opens, taken⟩
      · obtain ⟨e, failed⟩ := store_fails crypto salt draw fails
        change Vault.Whole crypto repr (Vault.store crypto repr _ name value salt draw write _).1
        rw [failed]
        exact whole
      · exact Vault.store_whole opens (of_decide_eq_true taken) whole
  | revoke i name write =>
      obtain rfl := Option.some.inj stepped
      exact Vault.revoke_whole (of_decide_eq_true fits) whole
  | changePassphrase i newPassphrase salt draw write =>
      obtain rfl := Option.some.inj stepped
      exact Vault.changePassphrase_whole (of_decide_eq_true fits) whole

/-- If every store that gets to the file is made with the vault's passphrase, and nothing is
written in part, the file can be decrypted as a whole. A store with another passphrase is then
one that fails, and the vault's passphrase can be changed. -/
theorem one_passphrase
    (reachable : (system crypto repr).ReachableIf (fun s a => s.matched crypto repr a = true) s) :
    Vault.Whole crypto repr s.file ∧
    (∀ i name value salt draw write, (s.instances i).unlocks crypto repr s.file = false →
      (s.matched crypto repr (.store i name value salt draw write) = true ↔
        ∃ e, (s.instances i).store crypto repr name value salt draw write s.file =
          (s.file, .error e))) ∧
    ∀ i newPassphrase salt draw write,
      ((s.instances i).changePassphrase crypto repr newPassphrase salt draw write
          s.file).2.2 = .ok () ↔
        (s.instances i).unlocks crypto repr s.file = true ∧ newPassphrase.proper = true ∧
          s.file ≠ none ∧ write.refuses = false := by
  have whole : Vault.Whole crypto repr s.file := by
    refine reachable.invariant (P := fun s => Vault.Whole crypto repr s.file) (fun s initial => ?_)
      fun _ _ _ whole fits stepped => step_whole whole fits stepped
    rw [show s.file = none from initial]
    exact Vault.whole_none
  refine ⟨whole, ?_, ?_⟩
  · intro i name value salt draw write locked
    exact matched_iff whole locked
  · intro i newPassphrase salt draw write
    exact Vault.changePassphrase_ok

section TwoPassphrases

def alphabet : Transition.System VaultClients VaultUse :=
  system .transparent fun _ => ""

/-- One instance has the passphrase `"x"`, the others `"y"`. -/
def strangers (file : VaultFile) : VaultClients :=
  ⟨file, fun i => ⟨"v", some (.text (if i = 0 then "x" else "y"))⟩⟩

/-- One credential, under `"x"`. -/
def onlyA : VaultState :=
  Vault.added .transparent "x" "a" "1" 0 (Vault.initState [7])

/-- A store with a passphrase that does not open the vault goes through. Nothing opens the
vault after it, and no instance can change its passphrase. -/
theorem store_locks_out : ∃ s s', alphabet.Reachable s ∧
    (s.instances 1).unlocks .transparent (fun _ => "") s.file = false ∧
    ((s.instances 1).store .transparent (fun _ => "") "b" "2" [8] 1 .whole s.file).2 = .ok () ∧
    alphabet.step s (.store 1 "b" "2" [8] 1 .whole) = some s' ∧
    ¬Vault.Whole .transparent (fun _ => "") s'.file ∧
    ∀ i newPassphrase salt draw write, ((s'.instances i).changePassphrase .transparent
      (fun _ => "") newPassphrase salt draw write s'.file).2.2 ≠ .ok () := by
  have begun : alphabet.step (strangers none) (.store 0 "a" "1" [7] 0 .whole) =
      some (strangers (some (.json (.obj (Vault.document onlyA))))) := by
    simp only [alphabet, system, step]
    rw [Vault.store_eq "x" "1" none (by decide) rfl rfl (by decide) rfl]
    rfl
  obtain ⟨read, listed⟩ := Vault.load_added .transparent (fun _ => "") ⟨"v", some "y"⟩ "x"
    "a" "1" 0 (Vault.initState [7])
  have locked : ¬Vault.Whole .transparent (fun _ => "") ((⟨"v", some "y"⟩ : Vault).store
      .transparent (fun _ => "") "b" "2" [8] 1 .whole
        (some (.json (.obj (Vault.document onlyA))))).1 := by
    refine Vault.store_not_whole (Crypto.transparent_separates _) "x" "2" "a" "1" 0 (by decide)
      read rfl (by decide) rfl ?_ (by decide) (by decide)
    rw [listed]
    exact Payload.mem_set_self _ _ _
  refine ⟨strangers _, _, ⟨strangers none, rfl, Transition.System.Later.step begun⟩,
    by decide, ?_, rfl, locked, ?_⟩
  · exact congrArg Prod.snd (Vault.store_eq "y" "2" _ (by decide) read rfl (by decide) rfl)
  · intro i newPassphrase salt draw write changed
    exact locked (Vault.whole_of_unlocks (Vault.changePassphrase_ok.mp changed).1)

/-- One passphrase, then another: what the first one's stores left is opened by the second. -/
theorem one_passphrase_changed : ∃ s, alphabet.runIf (matched .transparent fun _ => "")
      (strangers none) [.store 0 "a" "1" [7] 0 .whole, .store 0 "b" "2" [8] 1 .whole,
        .changePassphrase 0 "z" [9] 2 .whole, .store 0 "c" "3" [8] 4 .whole,
        .revoke 0 "a" .whole] = some s ∧
    Vault.Whole .transparent (fun _ => "") s.file ∧
    (∀ i name value salt draw write,
      (s.instances i).unlocks .transparent (fun _ => "") s.file = false →
      (s.matched .transparent (fun _ => "") (.store i name value salt draw write) = true ↔
        ∃ e, (s.instances i).store .transparent (fun _ => "") name value salt draw write s.file =
          (s.file, .error e))) ∧
    ∀ i newPassphrase salt draw write,
      ((s.instances i).changePassphrase .transparent (fun _ => "") newPassphrase salt draw write
          s.file).2.2 = .ok () ↔
        (s.instances i).unlocks .transparent (fun _ => "") s.file = true ∧
          newPassphrase.proper = true ∧ s.file ≠ none ∧ write.refuses = false := by
  have runs : (alphabet.runIf (matched .transparent fun _ => "") (strangers none)
      [.store 0 "a" "1" [7] 0 .whole, .store 0 "b" "2" [8] 1 .whole,
        .changePassphrase 0 "z" [9] 2 .whole, .store 0 "c" "3" [8] 4 .whole,
        .revoke 0 "a" .whole]).isSome = true := by
    decide
  obtain ⟨s, ran⟩ := Option.isSome_iff_exists.mp runs
  exact ⟨s, ran, one_passphrase ⟨strangers none, rfl, Transition.System.reaches_of_runIf ran⟩⟩

end TwoPassphrases

end VaultClients

end Tename
