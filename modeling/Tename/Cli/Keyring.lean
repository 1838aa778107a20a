import Tename.Cli.VaultCommands

/-!
# The keyring of many processes

What the vault file is to processes with passphrases of their own: a finite map from names to
values, each of which belongs to the passphrase it was stored with. The others list it and remove
it, and do not get it. Whoever has seen the exit codes knows what the next command prints and
returns.
-/

namespace Tename

/-- The credentials, each with the passphrase it was stored with, and its value. -/
abbrev Keyring := Finmap fun _ : String => String × String

namespace Keyring

section Answers

variable (repr : Json → String) (known : Option Keyring) (i : Invocation)

/-- The credentials that are known. Nothing is known of a file that was cut short. -/
def contents : Except VaultExn Keyring :=
  match known with
  | some held => .ok held
  | none => .error (.vaultConfigurationError s!"vault file {i.vaultPath} is not valid JSON")

/-- The passphrase of the process, if it can own a credential. -/
def secret : Except VaultExn String :=
  match i.passphrase with
  | none => .error (.vaultConfigurationError
      "vault passphrase is not set (pass `passphrase=` or set TENAME_VAULT_PASSPHRASE)")
  | some passphrase =>
      if passphrase = .text "" then .error (.vaultLockedError "vault passphrase is empty")
      else passphrase.encode

def writing : Except VaultExn Unit :=
  match i.write with
  | .refused e => .error e
  | _ => .ok ()

/-- A value is stored with any passphrase. -/
def storing (name : String) (value : PyStr) : Except VaultExn Unit := do
  Vault.validateName repr name
  let _ ← contents known i
  let _ ← secret i
  let _ ← value.encode
  writing i

/-- The names in order. -/
def listing : Except VaultExn (List String) :=
  (contents known i).map fun held => sortedNames held.keys

/-- A credential is removed without a passphrase. -/
def removing (name : String) : Except VaultExn Bool := do
  Vault.validateName repr name
  let held ← contents known i
  if name ∈ held then (writing i).map fun _ => true else return false

/-- A value is got with the passphrase it belongs to. -/
def getting (name : String) : Except VaultExn String := do
  Vault.validateName repr name
  let held ← contents known i
  match held.lookup name with
  | none => .error (.vaultCredentialNotFoundError "")
  | some (owner, value) =>
      let passphrase ← secret i
      if passphrase = owner then .ok value
      else .error (.vaultLockedError "vault credential failed authenticated decryption")

/-- What a process prints and returns. -/
def ends : CommandEnd :=
  match i.command with
  | .set _ .interrupted => .interrupted
  | .set name (.typed value) =>
      let shown := repr (.str name)
      if value = .text "" then ⟨"", s!"no value supplied for {shown}; nothing stored\n", .ok 2⟩
      else .stored shown (storing repr known i name value)
  | .list => .listed (listing known i)
  | .remove name yes reply =>
      if confirmed yes reply then .removed (repr (.str name)) (removing repr known i name)
      else
        match reply with
        | .interrupted => .interrupted
        | .typed _ => ⟨"cancelled\n", "", .ok 0⟩
  | .get name => .got (repr (.str name)) (getting repr known i name)

/-- What a command makes of the credentials, if it goes through. -/
def effect (held : Keyring) : Option Keyring :=
  match i.command, i.passphrase with
  | .set name (.typed (.text value)), some (.text passphrase) =>
      some (held.insert name (passphrase, value))
  | .remove name yes reply, _ => if confirmed yes reply then some (held.erase name) else none
  | _, _ => none

/-- What is known of the credentials after they have been written. -/
def leaves (held : Keyring) : Option Keyring :=
  if i.write = .short then none else some held

/-- What a process that has ended tells of the credentials. -/
def learned (ended : Invocation × CommandEnd) : Option Keyring :=
  known.bind fun held =>
    match effect ended.1 held, ended.2.code with
    | some held', .ok 0 => leaves ended.1 held'
    | _, _ => some held

/-- What the process encodes has an encoding. -/
def encodes : Bool :=
  i.passphrase.all PyStr.isText &&
    match i.command with
    | .set _ (.typed value) => value.isText
    | _ => true

/-- The process returns an exit code of the commands. -/
def Exits (e : CommandEnd) : Prop :=
  ∃ n ∈ [0, 1, 2, 130], e.code = .ok n

/-- The credential belongs to the passphrase of the process. -/
def gets (name value : String) : Prop :=
  ∃ held passphrase, known = some held ∧ held.lookup name = some (passphrase, value) ∧
    i.passphrase = some (.text passphrase)

end Answers

section Refinement

variable {crypto : Crypto} {among : String → Prop} {repr : Json → String} {i : Invocation}
variable {state : VaultState} {held : Keyring} {known : Option Keyring} {file : VaultFile}
variable {name : String}

/-- A token of a value, under the key of the passphrase it belongs to. -/
def TokenOf (crypto : Crypto) (among : String → Prop) (params : KeyParameters) (token : Json)
    (owned : String × String) : Prop :=
  owned.1 ≠ "" ∧ among owned.1 ∧
    ∃ draw, token = .str (crypto.encrypt (crypto.derive owned.1 params) draw owned.2)

/-- The state has a token for each credential, and no other. -/
structure Keeps (crypto : Crypto) (among : String → Prop) (state : VaultState) (held : Keyring) :
    Prop where
  allowed : crypto.allows state.2.iterations = true
  distinct : ((credentialsDict state.1).map Prod.fst).Nodup
  named : ∀ name ∈ held, properName name = true
  tokens : ∀ name, Option.Rel (TokenOf crypto among state.2)
    ((credentialsDict state.1).get? name) (held.lookup name)

namespace Keeps

theorem init (crypto : Crypto) (among : String → Prop) (salt : List UInt8) :
    Keeps crypto among (Vault.initState salt) ∅ where
  allowed := crypto.allows_default
  distinct := List.nodup_nil
  named _ mem := absurd mem Finmap.notMem_empty
  tokens _ := .none

theorem eq_empty {salt : List UInt8} (h : Keeps crypto among (Vault.initState salt) held) :
    held = ∅ := by
  refine Finmap.ext_lookup fun name => ?_
  have tokens := h.tokens name
  cases found : held.lookup name with
  | none => rfl
  | some owned =>
      rw [found] at tokens
      cases tokens

theorem new {loaded : Option VaultState} (salt : List UInt8)
    (h : Keeps crypto among (loaded.getD (Vault.initState [])) held) :
    Keeps crypto among (loaded.getD (Vault.initState salt)) held := by
  cases loaded with
  | none =>
      rw [h.eq_empty]
      exact .init crypto among salt
  | some state => exact h

theorem find (h : Keeps crypto among state held) (name : String) :
    (credentialsDict state.1).get? name = none ∧ held.lookup name = none ∨
      ∃ owner value draw, owner ≠ "" ∧ among owner ∧
        (credentialsDict state.1).get? name =
          some (.str (crypto.encrypt (crypto.derive owner state.2) draw value)) ∧
        held.lookup name = some (owner, value) := by
  have tokens := h.tokens name
  generalize (credentialsDict state.1).get? name = token at tokens ⊢
  generalize held.lookup name = owned at tokens ⊢
  cases tokens with
  | none => exact .inl ⟨rfl, rfl⟩
  | some token =>
      obtain ⟨nonempty, mem, draw, rfl⟩ := token
      exact .inr ⟨_, _, draw, nonempty, mem, rfl, rfl⟩

theorem mem_iff (h : Keeps crypto among state held) :
    name ∈ (credentialsDict state.1).map Prod.fst ↔ name ∈ held := by
  have tokens := h.tokens name
  rw [← Payload.isSome_get?, ← Finmap.lookup_isSome]
  generalize (credentialsDict state.1).get? name = token at tokens ⊢
  generalize held.lookup name = owned at tokens ⊢
  cases tokens <;> simp

theorem isNone_iff (h : Keeps crypto among state held) :
    ((credentialsDict state.1).get? name).isNone = true ↔ name ∉ held := by
  rw [← h.mem_iff, ← Payload.isSome_get?, Option.isNone_iff_eq_none, Option.not_isSome_iff_eq_none]

theorem names (h : Keeps crypto among state held) :
    ((credentialsDict state.1).map Prod.fst).insertionSort (· ≤ ·) = sortedNames held.keys :=
  Payload.sorted_names h.distinct fun _ => h.mem_iff

theorem added {passphrase : String} (value : String) (draw : Nat) (proper : properName name = true)
    (nonempty : passphrase ≠ "") (mem : among passphrase) (h : Keeps crypto among state held) :
    Keeps crypto among (Vault.added crypto passphrase name value draw state)
      (held.insert name (passphrase, value)) := by
  refine ⟨h.allowed, ?_, fun name' mem => ?_, fun name' => ?_⟩
  · rw [Vault.added, credentialsDict_withCredentials]
    exact Payload.nodup_set _ h.distinct
  · rcases Finmap.mem_insert.mp mem with rfl | before
    · exact proper
    · exact h.named name' before
  · rw [Vault.added, credentialsDict_withCredentials, Payload.get?_set]
    by_cases here : name' = name
    · rw [if_pos here, here, Finmap.lookup_insert]
      exact .some ⟨nonempty, mem, draw, rfl⟩
    · rw [if_neg here, Finmap.lookup_insert_of_ne held here]
      exact h.tokens name'

theorem del (name : String) (h : Keeps crypto among state held) :
    Keeps crypto among (withCredentials state.1 ((credentialsDict state.1).del name), state.2)
      (held.erase name) := by
  refine ⟨h.allowed, ?_, fun name' mem => h.named name' (Finmap.mem_erase.mp mem).2,
    fun name' => ?_⟩
  · rw [credentialsDict_withCredentials]
    exact Payload.nodup_del h.distinct
  · rw [credentialsDict_withCredentials, Payload.get?_del]
    by_cases here : name' = name
    · rw [if_pos here, here, Finmap.lookup_erase]
      exact .none
    · rw [if_neg here, Finmap.lookup_erase_ne here]
      exact h.tokens name'

end Keeps

/-- The file is as it is known: cut short, or with the credentials that are known. -/
def Represents (crypto : Crypto) (among : String → Prop) (repr : Json → String)
    (file : VaultFile) : Option Keyring → Prop
  | none => file = some .undecodable
  | some held => ∃ loaded, (∀ v : Vault, v.loadStateOrNone repr file = .ok loaded) ∧
      Keeps crypto among (loaded.getD (Vault.initState [])) held

/-- A document that is written whole has the credentials of its state. -/
theorem represents_document (repr : Json → String) {next : VaultState}
    (kept : ∃ credentials, next.1.get? "credentials" = some (.obj credentials))
    (keeps : Keeps crypto among next held) :
    Represents crypto among repr (some (.json (.obj (Vault.document next)))) (some held) := by
  obtain ⟨credentials, kept⟩ := kept
  obtain ⟨-, listed⟩ := load_document repr ⟨"", none⟩ next kept
  have same : credentialsDict (Vault.document next) = credentialsDict next.1 := by
    rw [listed, credentialsDict, kept]
  refine ⟨some (Vault.document next, next.2), fun v => (load_document repr v next kept).1,
    keeps.allowed, ?_, keeps.named, fun name => ?_⟩
  · change ((credentialsDict (Vault.document next)).map Prod.fst).Nodup
    rw [same]
    exact keeps.distinct
  · change Option.Rel _ ((credentialsDict (Vault.document next)).get? name) _
    rw [same]
    exact keeps.tokens name

/-- What is read of the file is what is known. -/
theorem load_eq (i : Invocation) (represents : Represents crypto among repr file known) :
    (∃ held loaded, known = some held ∧ contents known i = .ok held ∧
      i.vault.loadStateOrNone repr file = .ok loaded ∧
      Keeps crypto among (loaded.getD (Vault.initState [])) held) ∨
    ∃ e, contents known i = .error e ∧ i.vault.loadStateOrNone repr file = .error e := by
  cases known with
  | none =>
      obtain rfl : file = some .undecodable := represents
      exact .inr ⟨_, rfl, rfl⟩
  | some held =>
      obtain ⟨loaded, read, keeps⟩ := represents
      exact .inl ⟨held, loaded, rfl, rfl, read i.vault, keeps⟩

/-- The passphrase that owns is the one that keys are derived from. -/
theorem deriveKey_eq (i : Invocation) {params : KeyParameters}
    (allowed : crypto.allows params.iterations = true) : i.vault.deriveKey crypto params =
      (secret i).map fun passphrase => crypto.derive passphrase params := by
  rw [Vault.deriveKey, Invocation.vault, secret]
  cases i.passphrase with
  | none => rfl
  | some passphrase =>
      simp only [Crypto.deriveKey, allowed, if_true]
      split <;> rfl

theorem secret_eq_ok {passphrase : String} : secret i = .ok passphrase ↔
    i.passphrase = some (.text passphrase) ∧ passphrase ≠ "" := by
  rw [secret]
  cases i.passphrase with
  | none => simp
  | some given =>
      cases given with
      | unencodable before surrogate after => simp [PyStr.encode]
      | text text =>
          by_cases empty : text = ""
          · simp only [empty, if_true]
            simp +contextual [eq_comm]
          · simp [empty, PyStr.encode]
            rintro rfl
            exact empty

theorem writeState_follows (repr : Json → String) (i : Invocation) {next : VaultState}
    (file : VaultFile)
    (kept : ∃ credentials, next.1.get? "credentials" = some (.obj credentials))
    (keeps : Keeps crypto among next held) :
    (∃ e, writing i = .error e ∧ Vault.writeState file next i.write = (file, .error e)) ∨
      writing i = .ok () ∧ ∃ file', Vault.writeState file next i.write = (file', .ok ()) ∧
        Represents crypto among repr file' (leaves i held) := by
  unfold writing leaves
  cases i.write with
  | whole => exact .inr ⟨rfl, _, rfl, represents_document repr kept keeps⟩
  | short => exact .inr ⟨rfl, _, rfl, rfl⟩
  | refused e => exact .inl ⟨e, rfl, rfl⟩

/-- A store goes through with any passphrase that owns, and else leaves the file. -/
theorem store_follows (i : Invocation) (name : String) (value : PyStr)
    (mine : ∀ passphrase, i.passphrase = some (.text passphrase) → among passphrase)
    (represents : Represents crypto among repr file known) :
    (∃ e, storing repr known i name value = .error e ∧
      i.vault.store crypto repr name value i.salt i.draw i.write file = (file, .error e)) ∨
    ∃ held passphrase text file', storing repr known i name value = .ok () ∧ known = some held ∧
      i.passphrase = some (.text passphrase) ∧ value = .text text ∧
      i.vault.store crypto repr name value i.salt i.draw i.write file = (file', .ok ()) ∧
      Represents crypto among repr file' (leaves i (held.insert name (passphrase, text))) := by
  unfold storing Vault.store Vault.storeNext
  rcases OpenVault.validateName_eq repr name with ⟨valid, proper⟩ | ⟨⟨m, invalid⟩, -⟩
  swap
  · exact .inl ⟨_, by rw [invalid]; rfl, by rw [invalid]; rfl⟩
  rcases load_eq i represents with ⟨held, loaded, rfl, is, read, keeps⟩ | ⟨e, is, unread⟩
  swap
  · exact .inl ⟨e, by rw [valid, is]; rfl, by rw [valid, unread]; rfl⟩
  replace keeps := keeps.new i.salt
  have key := deriveKey_eq i keeps.allowed
  cases owner : secret i with
  | error e =>
      rw [owner] at key
      refine .inl ⟨e, by rw [valid, is]; rfl, ?_⟩
      simp only [valid, read, bind, Except.bind, Vault.storeState, key, Except.map]
  | ok passphrase =>
      obtain ⟨given, nonempty⟩ := secret_eq_ok.mp owner
      rw [owner] at key
      cases value with
      | unencodable before surrogate after =>
          refine .inl ⟨.other "surrogates not allowed", by rw [valid, is]; rfl, ?_⟩
          simp only [valid, read, bind, Except.bind, Vault.storeState, key, Except.map]
          rfl
      | text text =>
          have kept := keeps.added text i.draw proper nonempty (mine passphrase given)
          have next : i.vault.storeState crypto name (.text text) i.salt i.draw loaded = .ok _ :=
            Vault.storeState_eq_ok.mpr
              ⟨passphrase, text, given, nonempty, keeps.allowed, rfl, rfl⟩
          simp only [valid, is, read, bind, Except.bind, next, PyStr.encode]
          rcases writeState_follows repr i file (Vault.held_withCredentials _ _) kept with
            ⟨e, refused, left⟩ | ⟨goes, file', left, represents'⟩
          · exact .inl ⟨e, refused, left⟩
          · exact .inr ⟨held, passphrase, text, file', goes, rfl, given, rfl, left, represents'⟩

/-- A removal needs no passphrase. -/
theorem revoke_follows (i : Invocation) (name : String)
    (represents : Represents crypto among repr file known) :
    ((∃ e, removing repr known i name = .error e ∧
        i.vault.revoke repr name i.write file = (file, .error e)) ∨
      removing repr known i name = .ok false ∧
        i.vault.revoke repr name i.write file = (file, .ok false)) ∨
    ∃ held file', removing repr known i name = .ok true ∧ known = some held ∧
      i.vault.revoke repr name i.write file = (file', .ok true) ∧
      Represents crypto among repr file' (leaves i (held.erase name)) := by
  unfold removing Vault.revoke Vault.revokeNext
  rcases OpenVault.validateName_eq repr name with ⟨valid, proper⟩ | ⟨⟨m, invalid⟩, -⟩
  swap
  · exact .inl (.inl ⟨_, by rw [invalid]; rfl, by rw [invalid]; rfl⟩)
  rcases load_eq i represents with ⟨held, loaded, rfl, is, read, keeps⟩ | ⟨e, is, unread⟩
  swap
  · exact .inl (.inl ⟨e, by rw [valid, is]; rfl, by rw [valid, unread]; rfl⟩)
  simp only [valid, is, read, bind, Except.bind, pure, Except.pure]
  by_cases there : name ∈ held
  · cases loaded with
    | none =>
        rw [keeps.eq_empty] at there
        exact absurd there Finmap.notMem_empty
    | some state =>
        replace keeps : Keeps crypto among state held := keeps
        have found : ((credentialsDict state.1).get? name).isNone = false := by
          rw [← Bool.not_eq_true]
          exact fun gone => keeps.isNone_iff.mp gone there
        simp only [if_pos there, Vault.revokeState, found, Bool.false_eq_true, if_false]
        rcases writeState_follows repr i file (Vault.held_withCredentials _ _) (keeps.del name) with
          ⟨e, refused, left⟩ | ⟨goes, file', left, represents'⟩
        · exact .inl (.inl ⟨e, by rw [refused]; rfl, by rw [left]; rfl⟩)
        · exact .inr ⟨held, file', by rw [goes]; rfl, rfl, by rw [left]; rfl, represents'⟩
  · refine .inl (.inr ⟨by rw [if_neg there], ?_⟩)
    cases loaded with
    | none => rfl
    | some state =>
        have missing : ((credentialsDict state.1).get? name).isNone = true :=
          keeps.isNone_iff.mpr there
        simp only [Vault.revokeState, missing, if_true]

theorem list_follows (i : Invocation) (represents : Represents crypto among repr file known) :
    i.vault.list repr file = listing known i := by
  rw [Vault.list, listing]
  rcases load_eq i represents with ⟨held, loaded, rfl, is, read, keeps⟩ | ⟨e, is, unread⟩
  · rw [read, is]
    refine congrArg Except.ok (Eq.trans ?_ keeps.names)
    cases loaded <;> rfl
  · rw [unread, is]
    rfl

/-- A value is got with the passphrase it was stored with, and with no other. -/
theorem retrieve_follows (separates : crypto.Separates among) (i : Invocation) (name : String)
    (mine : ∀ passphrase, i.passphrase = some (.text passphrase) → among passphrase)
    (represents : Represents crypto among repr file known) :
    (∃ m m', getting repr known i name = .error (.vaultCredentialNotFoundError m) ∧
      i.vault.retrieve crypto repr name file = .error (.vaultCredentialNotFoundError m')) ∨
    i.vault.retrieve crypto repr name file = getting repr known i name := by
  unfold getting Vault.retrieve
  rcases OpenVault.validateName_eq repr name with ⟨valid, proper⟩ | ⟨⟨m, invalid⟩, -⟩
  swap
  · exact .inr (by rw [invalid]; rfl)
  rcases load_eq i represents with ⟨held, loaded, rfl, is, read, keeps⟩ | ⟨e, is, unread⟩
  swap
  · exact .inr (by rw [valid, is, unread]; rfl)
  simp only [valid, is, read, bind, Except.bind]
  cases loaded with
  | none =>
      rw [keeps.eq_empty, Finmap.lookup_empty]
      exact .inl ⟨_, _, rfl, rfl⟩
  | some state =>
      replace keeps : Keeps crypto among state held := keeps
      simp only [Vault.required, Payload.getD]
      rcases keeps.find name with
        ⟨token, found⟩ | ⟨owner, value, draw, nonempty, mem, token, found⟩
      · rw [token, found]
        exact .inl ⟨_, _, rfl, rfl⟩
      · rw [token, found, Option.getD_some, deriveKey_eq i keeps.allowed]
        refine .inr ?_
        cases owns : secret i with
        | error e => rfl
        | ok passphrase =>
            simp only [Except.map]
            by_cases same : passphrase = owner
            · rw [if_pos same, same]
              exact Vault.decryptToken_encrypt _ draw value
            · rw [if_neg same]
              exact separates.decryptValue state.2 draw value mem
                (mine passphrase (secret_eq_ok.mp owns).1) (Ne.symm same)

/-- A process ends as what is known of the file says, and what it tells is then known. -/
structure Follows (crypto : Crypto) (among : String → Prop) (repr : Json → String)
    (known : Option Keyring) (i : Invocation) (file : VaultFile) (ended : VaultFile × CommandEnd) :
    Prop where
  answers : ended.2 = ends repr known i
  kept : ended.2.code ≠ .ok 0 → ended.1 = file
  represents : Represents crypto among repr ended.1 (learned known (i, ended.2))

theorem failed_code {e : VaultExn} : (CommandEnd.failed e).code ≠ .ok 0 := by
  unfold CommandEnd.failed
  split <;> simp

theorem learned_of_refused {e : CommandEnd} (refused : e.code ≠ .ok 0) :
    learned known (i, e) = known := by
  cases known with
  | none => rfl
  | some held =>
      unfold learned
      rw [Option.bind_some]
      split
      · rename_i done
        exact absurd done refused
      · rfl

/-- A command that makes nothing of the credentials tells nothing of them. -/
theorem learned_of_idle {e : CommandEnd} (idle : ∀ held, effect i held = none) :
    learned known (i, e) = known := by
  cases known with
  | none => rfl
  | some held => simp only [learned, Option.bind_some, idle]

/-- A process that does not return 0 has changed nothing. -/
theorem follows_of_refused {e : CommandEnd} (represents : Represents crypto among repr file known)
    (answers : e = ends repr known i) (refused : e.code ≠ .ok 0) :
    Follows crypto among repr known i file (file, e) :=
  ⟨answers, fun _ => rfl, by rwa [learned_of_refused refused]⟩

theorem follows_of_idle {e : CommandEnd} (represents : Represents crypto among repr file known)
    (answers : e = ends repr known i) (idle : ∀ held, effect i held = none) :
    Follows crypto among repr known i file (file, e) :=
  ⟨answers, fun _ => rfl, by rwa [learned_of_idle idle]⟩

/-- A process that returns 0 leaves what its command makes of the credentials. -/
theorem follows_of_done {e : CommandEnd} {held' : Keyring} {file' : VaultFile}
    (answers : e = ends repr (some held) i) (code : e.code = .ok 0)
    (goes : effect i held = some held')
    (represents : Represents crypto among repr file' (leaves i held')) :
    Follows crypto among repr (some held) i file (file', e) := by
  refine ⟨answers, fun refused => absurd code refused, ?_⟩
  simp only [learned, Option.bind_some, goes, code]
  exact represents

section Ends

variable {value : PyStr}

theorem ends_set (command : i.command = .set name (.typed value)) (nonempty : value ≠ .text "") :
    ends repr known i = .stored (repr (.str name)) (storing repr known i name value) := by
  rw [ends, command]
  exact if_neg nonempty

theorem ends_list (command : i.command = .list) :
    ends repr known i = .listed (listing known i) := by
  rw [ends, command]

theorem ends_remove {yes : Bool} {reply : Reply} (command : i.command = .remove name yes reply)
    (goes : confirmed yes reply = true) :
    ends repr known i = .removed (repr (.str name)) (removing repr known i name) := by
  rw [ends, command]
  exact if_pos goes

theorem ends_get (command : i.command = .get name) :
    ends repr known i = .got (repr (.str name)) (getting repr known i name) := by
  rw [ends, command]

end Ends

theorem cmdSet_follows {reply : Reply} (command : i.command = .set name reply)
    (mine : ∀ passphrase, i.passphrase = some (.text passphrase) → among passphrase)
    (represents : Represents crypto among repr file known) :
    Follows crypto among repr known i file (i.cmdSet crypto repr name reply file) := by
  unfold Invocation.cmdSet
  cases reply with
  | interrupted =>
      refine follows_of_refused represents ?_ nofun
      rw [ends, command]
  | typed value =>
      dsimp only
      split
      · rename_i empty
        refine follows_of_refused represents ?_ nofun
        rw [ends, command]
        exact (if_pos empty).symm
      · rename_i nonempty
        have answers : ends repr known i =
            .stored (repr (.str name)) (Keyring.storing repr known i name value) :=
          ends_set command nonempty
        rcases store_follows i name value mine represents with
          ⟨e, storing, stored⟩ |
          ⟨held, passphrase, text, file', storing, rfl, given, rfl, stored, represents'⟩
        · rw [storing] at answers
          rw [stored]
          exact follows_of_refused represents answers.symm failed_code
        · rw [storing] at answers
          rw [stored]
          exact follows_of_done answers.symm rfl (by simp only [effect, command, given])
            represents'

theorem cmdList_follows (command : i.command = .list)
    (represents : Represents crypto among repr file known) :
    Follows crypto among repr known i file (file, i.cmdList repr file) := by
  refine follows_of_idle represents ?_ fun held => by simp only [effect, command]
  rw [Invocation.cmdList, list_follows i represents, ends_list command]

theorem cmdRemove_follows {yes : Bool} {reply : Reply}
    (command : i.command = .remove name yes reply)
    (represents : Represents crypto among repr file known) :
    Follows crypto among repr known i file (i.cmdRemove repr name yes reply file) := by
  unfold Invocation.cmdRemove
  dsimp only
  split
  · rename_i goes
    have answers : ends repr known i =
        .removed (repr (.str name)) (Keyring.removing repr known i name) :=
      ends_remove command goes
    rcases revoke_follows i name represents with
      (⟨e, removing, revoked⟩ | ⟨removing, revoked⟩) |
      ⟨held, file', removing, rfl, revoked, represents'⟩
    · rw [removing] at answers
      rw [revoked]
      exact follows_of_refused represents answers.symm failed_code
    · rw [removing] at answers
      rw [revoked]
      exact follows_of_refused represents answers.symm nofun
    · rw [removing] at answers
      rw [revoked]
      exact follows_of_done answers.symm rfl (by simp only [effect, command, if_pos goes])
        represents'
  · rename_i stays
    have idle (held : Keyring) : effect i held = none := by
      simp only [effect, command, if_neg stays]
    cases reply with
    | interrupted =>
        refine follows_of_idle represents ?_ idle
        rw [ends, command]
        exact (if_neg stays).symm
    | typed text =>
        refine follows_of_idle represents ?_ idle
        rw [ends, command]
        exact (if_neg stays).symm

theorem cmdGet_follows (separates : crypto.Separates among) (command : i.command = .get name)
    (mine : ∀ passphrase, i.passphrase = some (.text passphrase) → among passphrase)
    (represents : Represents crypto among repr file known) :
    Follows crypto among repr known i file (file, i.cmdGet crypto repr name file) := by
  refine follows_of_idle represents ?_ fun held => by simp only [effect, command]
  rw [Invocation.cmdGet, ends_get command]
  rcases retrieve_follows separates i name mine represents with
    ⟨m, m', missed, retrieved⟩ | same
  · rw [retrieved, missed]
    rfl
  · rw [same]

theorem run_follows (separates : crypto.Separates among)
    (mine : ∀ passphrase, i.passphrase = some (.text passphrase) → among passphrase)
    (represents : Represents crypto among repr file known) :
    Follows crypto among repr known i file (i.run crypto repr file) := by
  unfold Invocation.run
  split
  · rename_i command
    exact cmdSet_follows command mine represents
  · rename_i command
    exact cmdList_follows command represents
  · rename_i command
    exact cmdRemove_follows command represents
  · rename_i command
    exact cmdGet_follows separates command mine represents

theorem runAll_represents (separates : crypto.Separates among) (before : List Invocation)
    (theirs : ∀ j ∈ before, ∀ passphrase, j.passphrase = some (.text passphrase) →
      among passphrase)
    (represents : Represents crypto among repr file known) :
    Represents crypto among repr (Invocation.runAll crypto repr file before).1
      ((Invocation.runAll crypto repr file before).2.foldl learned known) := by
  induction before generalizing file known with
  | nil => exact represents
  | cons i before ih =>
      rw [List.forall_mem_cons] at theirs
      exact ih theirs.2 (run_follows separates theirs.1 represents).represents

theorem getting_eq_ok {value : String} (represents : Represents crypto among repr file known) :
    getting repr known i name = .ok value ↔ gets known i name value := by
  unfold getting gets
  simp only [Vault.bind_eq_ok]
  constructor
  · rintro ⟨-, -, held, is, got⟩
    cases known with
    | none => cases is
    | some known =>
        cases is
        cases found : held.lookup name with
        | none =>
            rw [found] at got
            cases got
        | some owned =>
            rw [found] at got
            obtain ⟨passphrase, owns, got⟩ := Vault.bind_eq_ok.mp got
            split at got
            · rename_i same
              cases got
              exact ⟨held, passphrase, rfl, by rw [found, same], (secret_eq_ok.mp owns).1⟩
            · cases got
  · rintro ⟨held, passphrase, rfl, found, given⟩
    obtain ⟨loaded, read, keeps⟩ := represents
    have mem : name ∈ held := Finmap.lookup_isSome.mp (by rw [found]; rfl)
    have nonempty : passphrase ≠ "" := by
      rcases keeps.find name with ⟨-, missing⟩ | ⟨owner, value', draw, nonempty, -, -, found'⟩
      · cases found.symm.trans missing
      · cases found.symm.trans found'
        exact nonempty
    rcases OpenVault.validateName_eq repr name with ⟨valid, -⟩ | ⟨-, improper⟩
    · refine ⟨(), valid, held, rfl, ?_⟩
      rw [found]
      exact Vault.bind_eq_ok.mpr ⟨passphrase, secret_eq_ok.mpr ⟨given, nonempty⟩, if_pos rfl⟩
    · cases (keeps.named name mem).symm.trans improper

theorem got_iff {shown value : String} {r : Except VaultExn String} :
    (CommandEnd.got shown r).code = .ok 0 ∧ (CommandEnd.got shown r).stdout = value ++ "\n" ↔
      r = .ok value := by
  cases r with
  | ok value' =>
      refine (and_iff_right rfl).trans ((String.append_left_inj "\n").trans ?_)
      rw [Except.ok.injEq]
  | error e =>
      refine iff_of_false (fun both => ?_) nofun
      cases e with
      | vaultCredentialNotFoundError m => cases both.1
      | _ => exact failed_code both.1

section Codes

variable {shown : String}

theorem exits_failed {e : VaultExn} (own : e.isVaultError = true) : Exits (.failed e) := by
  refine ⟨1, by decide, ?_⟩
  rw [CommandEnd.failed, if_pos own]

theorem exits_stored {r : Except VaultExn Unit} (proper : RaisesProperly r) :
    Exits (.stored shown r) := by
  cases r with
  | ok _ => exact ⟨0, by decide, rfl⟩
  | error e => exact exits_failed (proper e rfl)

theorem exits_listed {r : Except VaultExn (List String)} (proper : RaisesProperly r) :
    Exits (.listed r) := by
  cases r with
  | ok names => exact ⟨0, by decide, rfl⟩
  | error e => exact exits_failed (proper e rfl)

theorem exits_removed {r : Except VaultExn Bool} (proper : RaisesProperly r) :
    Exits (.removed shown r) := by
  cases r with
  | ok existed =>
      cases existed
      · exact ⟨1, by decide, rfl⟩
      · exact ⟨0, by decide, rfl⟩
  | error e => exact exits_failed (proper e rfl)

theorem exits_got {r : Except VaultExn String} (proper : RaisesProperly r) :
    Exits (.got shown r) := by
  cases r with
  | ok value => exact ⟨0, by decide, rfl⟩
  | error e =>
      cases e with
      | vaultCredentialNotFoundError m => exact ⟨1, by decide, rfl⟩
      | _ => exact exits_failed (proper _ rfl)

theorem proper_validateName (repr : Json → String) (name : String) :
    RaisesProperly (Vault.validateName repr name) := by
  rcases OpenVault.validateName_eq repr name with ⟨valid, -⟩ | ⟨⟨m, invalid⟩, -⟩
  · rw [valid]
    exact proper_ok ()
  · rw [invalid]
    exact proper_error_iff.mpr rfl

theorem proper_contents (known : Option Keyring) (i : Invocation) :
    RaisesProperly (contents known i) := by
  cases known with
  | none => exact proper_error_iff.mpr rfl
  | some held => exact proper_ok held

theorem proper_encode {s : PyStr} (text : s.isText = true) : RaisesProperly s.encode := by
  cases s with
  | text s => exact proper_ok s
  | unencodable before surrogate after => cases text

theorem proper_secret (encodable : i.passphrase.all PyStr.isText = true) :
    RaisesProperly (secret i) := by
  rw [secret]
  cases given : i.passphrase with
  | none => exact proper_error_iff.mpr rfl
  | some passphrase =>
      rw [given] at encodable
      dsimp only
      split
      · exact proper_error_iff.mpr rfl
      · exact proper_encode encodable

theorem proper_writing (goes : i.write.refuses = false) : RaisesProperly (writing i) := by
  rw [writing]
  cases write : i.write with
  | refused e =>
      rw [write] at goes
      cases goes
  | _ => exact proper_ok ()

end Codes

/-- Only what is encoded and what is written can raise another error than the vault's. -/
theorem ends_exits (repr : Json → String) (known : Option Keyring) (i : Invocation)
    (encodable : encodes i = true) (goes : i.write.refuses = false) :
    Exits (ends repr known i) := by
  rw [encodes, Bool.and_eq_true] at encodable
  obtain ⟨passphrase, typed⟩ := encodable
  have named := proper_validateName repr
  have known' := proper_contents known i
  cases command : i.command with
  | set name reply =>
      cases reply with
      | interrupted =>
          rw [ends, command]
          exact ⟨130, by decide, rfl⟩
      | typed value =>
          rw [command] at typed
          by_cases empty : value = .text ""
          · rw [ends, command]
            dsimp only
            rw [if_pos empty]
            exact ⟨2, by decide, rfl⟩
          · rw [ends_set command empty]
            refine exits_stored (proper_bind_iff.mpr ⟨named name, fun _ _ => ?_⟩)
            refine proper_bind_iff.mpr ⟨known', fun _ _ => ?_⟩
            refine proper_bind_iff.mpr ⟨proper_secret passphrase, fun _ _ => ?_⟩
            exact proper_bind_iff.mpr ⟨proper_encode typed, fun _ _ => proper_writing goes⟩
  | list =>
      rw [ends_list command]
      exact exits_listed (proper_map_iff.mpr known')
  | remove name yes reply =>
      by_cases confirms : confirmed yes reply = true
      · rw [ends_remove command confirms]
        refine exits_removed (proper_bind_iff.mpr ⟨named name, fun _ _ => ?_⟩)
        refine proper_bind_iff.mpr ⟨known', fun held _ => ?_⟩
        split
        · exact proper_map_iff.mpr (proper_writing goes)
        · exact proper_ok false
      · rw [ends, command]
        dsimp only
        rw [if_neg confirms]
        cases reply with
        | interrupted => exact ⟨130, by decide, rfl⟩
        | typed text => exact ⟨0, by decide, rfl⟩
  | get name =>
      rw [ends_get command]
      refine exits_got (proper_bind_iff.mpr ⟨named name, fun _ _ => ?_⟩)
      refine proper_bind_iff.mpr ⟨known', fun held _ => ?_⟩
      split
      · exact proper_error_iff.mpr rfl
      · refine proper_bind_iff.mpr ⟨proper_secret passphrase, fun _ _ => ?_⟩
        split
        · exact proper_ok _
        · exact proper_error_iff.mpr rfl

/-- However many processes have run, each with a passphrase of its own or none, whatever they were
answered: their exit codes tell what the next one prints and returns. A value is got with the
passphrase it was stored with only, unless another has been stored since or it has been removed; a
process that does not return 0 leaves the file as it is, and every process leaves one that was cut
short. Of the processes' passphrases it is assumed that none decrypts the tokens of another. -/
theorem vault_commands (repr : Json → String) (before : List Invocation) (i : Invocation)
    (separates : crypto.Separates fun passphrase =>
      ∃ j ∈ i :: before, j.passphrase = some (.text passphrase)) :
    let left := Invocation.runAll crypto repr none before
    let known := left.2.foldl learned (some ∅)
    let ended := i.run crypto repr left.1
    ended.2 = ends repr known i ∧
      (∀ name, i.command = .get name → ∀ value,
        ended.2.code = .ok 0 ∧ ended.2.stdout = value ++ "\n" ↔ gets known i name value) ∧
      (ended.2.code ≠ .ok 0 ∨ known = none → ended.1 = left.1) ∧
      (encodes i = true → i.write.refuses = false → Exits ended.2) := by
  intro left known ended
  have new : Represents crypto (fun passphrase =>
      ∃ j ∈ i :: before, j.passphrase = some (.text passphrase)) repr none (some ∅) :=
    ⟨none, fun _ => rfl, .init crypto _ []⟩
  have represents : Represents crypto _ repr left.1 known := runAll_represents separates before
    (fun j mem passphrase given => ⟨j, List.mem_cons_of_mem i mem, given⟩) new
  have follows : Follows crypto _ repr known i left.1 ended :=
    run_follows separates (fun passphrase given => ⟨i, List.mem_cons_self, given⟩) represents
  refine ⟨follows.answers, fun name command value => ?_, ?_, fun encodable goes => ?_⟩
  · rw [follows.answers, ends_get command]
    exact got_iff.trans (getting_eq_ok represents)
  · rintro (refused | cut)
    · exact follows.kept refused
    · have before : left.1 = some .undecodable := by
        rwa [cut] at represents
      have after := follows.represents
      rw [cut] at after
      exact Eq.trans after before.symm
  · rw [follows.answers]
    exact ends_exits repr known i encodable goes

end Refinement

section Shared

/-- A process of a command, whose file is written whole. -/
def process (passphrase : String) (command : VaultCommand) : Invocation :=
  ⟨command, "v", some (.text passphrase), [7], 0, .whole⟩

/-- Two passphrases, and a credential of each. -/
def sharedVault : List Invocation :=
  [process "x" (.set "a" (.typed "1")), process "y" (.set "b" (.typed "2")),
    process "x" (.set "c" .interrupted)]

/-- The credential of the other passphrase is not got. -/
theorem vault_commands_shared :
    let left := Invocation.runAll .transparent (fun _ => "") none sharedVault
    let ended := (process "x" (.get "b")).run .transparent (fun _ => "") left.1
    left.2.map (fun e => e.2.code.toOption) = [some 0, some 0, some 130] ∧
      ended.2.stderr = "error: vault credential failed authenticated decryption\n" ∧
      ended.2.code.toOption = some 1 ∧ ended.1 = left.1 := by
  refine ⟨by decide +kernel, by decide +kernel, by decide +kernel, ?_⟩
  refine (vault_commands (fun _ => "") sharedVault (process "x" (.get "b"))
    (Crypto.transparent_separates _)).2.2.1 (.inl fun returned => ?_)
  exact absurd (congrArg Except.toOption returned) (by decide +kernel)

end Shared

end Keyring

end Tename
