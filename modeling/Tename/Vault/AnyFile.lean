import Tename.Vault.Refinement
import Tename.Vault.Writing

/-!
# Calls on any file

What a vault file may hold is not up to the vault. A call reports an error of the vault for
whatever it cannot read, as far as its checks go; they do not look at the values of the
credentials, at the iteration count or at the nesting, nor does anything check that a passphrase
or a value has an encoding. Each function has one lemma that says exactly when it raises nothing
else.
-/

namespace Tename

/-- A subclass of `VaultError`. -/
def VaultExn.isVaultError : VaultExn → Bool
  | .other _ => false
  | _ => true

/-- A value, or an error of the vault. -/
def RaisesProperly {α : Type} (r : Except VaultExn α) : Prop :=
  ∀ e, r = .error e → e.isVaultError = true

section Rules

variable {α β : Type} {r : Except VaultExn α} {f : α → Except VaultExn β}

theorem proper_ok (a : α) : RaisesProperly (.ok a : Except VaultExn α) :=
  fun _ raised => by cases raised

theorem proper_error_iff {e : VaultExn} :
    RaisesProperly (.error e : Except VaultExn α) ↔ e.isVaultError = true :=
  ⟨fun reports => reports e rfl, fun proper _ raised => by cases raised; exact proper⟩

/-- Any other exception is no error of the vault. -/
theorem improper_other (m : String) : ¬ RaisesProperly (.error (.other m) : Except VaultExn α) :=
  fun reports => Bool.false_ne_true (proper_error_iff.mp reports)

theorem proper_bind_iff :
    RaisesProperly (r.bind f) ↔ RaisesProperly r ∧ ∀ a, r = .ok a → RaisesProperly (f a) := by
  cases r with
  | ok a =>
      constructor
      · intro reports
        refine ⟨proper_ok a, fun b same => ?_⟩
        cases same
        exact reports
      · exact fun both => both.2 a rfl
  | error e =>
      constructor
      · exact fun reports => ⟨proper_error_iff.mpr (reports e rfl), fun b same => by cases same⟩
      · exact fun both => proper_error_iff.mpr (both.1 e rfl)

theorem proper_map_iff {g : α → β} : RaisesProperly (r.map g) ↔ RaisesProperly r := by
  cases r with
  | ok a => exact iff_of_true (proper_ok _) (proper_ok _)
  | error e => exact proper_error_iff.trans proper_error_iff.symm

end Rules

/-- A call with any arguments, strings without an encoding among them. -/
inductive FileCall where
  /-- A value of another type is `none`. -/
  | store (name : Argument) (value : Option PyStr) (salt : List UInt8) (draw : Nat)
  | retrieve (name : Argument)
  | revoke (name : Argument)
  | list
  | changePassphrase (newPassphrase : PyStr) (salt : List UInt8) (draw : Nat)

/-- The arguments are such as the call takes, as far as it looks at them. -/
def FileCall.accepted : FileCall → Bool
  | .store (.str name) (some _) _ _ => properName name
  | .retrieve (.str name) => properName name
  | .revoke (.str name) => properName name
  | .list => true
  | .changePassphrase newPassphrase _ _ => newPassphrase ≠ .text ""
  | _ => false

def Argument.text? : Argument → Option PyStr
  | .str text => some (.text text)
  | .other => none

/-- A call of a vault that is a finite map. -/
def VaultRequest.onFile : VaultRequest → FileCall
  | .store name value salt draw => .store name value.text? salt draw
  | .retrieve name => .retrieve name
  | .revoke name => .revoke name
  | .list => .list
  | .changePassphrase newPassphrase salt draw => .changePassphrase newPassphrase salt draw

namespace Vault

variable {crypto : Crypto} {repr : Json → String} {v : Vault} {depth : Nat}

theorem proper_loadObject (repr : Json → String) (v : Vault) (state : Payload) :
    RaisesProperly (v.loadObject repr state) := by
  unfold loadObject
  simp only
  split
  · exact proper_error_iff.mpr rfl
  · split
    · split
      · exact proper_error_iff.mpr rfl
      · split
        · exact proper_ok _
        · exact proper_error_iff.mpr rfl
    · exact proper_error_iff.mpr rfl

/-- Loading a file checks whatever `json.loads` makes of it. -/
theorem proper_load_iff {disk : Disk} :
    RaisesProperly (v.loadStateOrNone repr (some disk)) ↔ ∀ m, disk ≠ .raising m := by
  cases disk with
  | unreadable m =>
      exact iff_of_true (proper_error_iff.mpr rfl) fun _ same => by cases same
  | undecodable => exact iff_of_true (proper_error_iff.mpr rfl) fun _ same => by cases same
  | raising m =>
      exact iff_of_false (improper_other _) fun none => none m rfl
  | json value =>
      refine iff_of_true ?_ fun _ same => by cases same
      cases value with
      | obj state => exact proper_map_iff.mpr (proper_loadObject repr v state)
      | _ => exact proper_error_iff.mpr rfl

/-- The passphrase has an encoding, of which something holds, where there is one. -/
def Unlocked (v : Vault) (holds : String → Prop) : Prop :=
  ∀ passphrase, v.passphrase = some passphrase → passphrase ≠ .text "" →
    ∃ text, passphrase = .text text ∧ holds text

theorem unlocked_congr {P Q : String → Prop} (same : ∀ text, P text ↔ Q text) :
    v.Unlocked P ↔ v.Unlocked Q :=
  forall₃_congr fun _ _ _ => exists_congr fun text => and_congr_right fun _ => same text

/-- PBKDF2 takes the iteration count, where there is a key to derive. -/
theorem proper_key_iff {α : Type} {params : KeyParameters} {f : crypto.Key → Except VaultExn α} :
    RaisesProperly ((v.deriveKey crypto params).bind f) ↔ v.Unlocked fun passphrase =>
      crypto.allows params.iterations = true ∧
        RaisesProperly (f (crypto.derive passphrase params)) := by
  unfold deriveKey Unlocked
  cases v.passphrase with
  | none => exact iff_of_true (proper_error_iff.mpr rfl) fun _ same => by cases same
  | some passphrase =>
      simp only [Crypto.deriveKey, Option.some.injEq, forall_eq']
      split
      · rename_i empty
        exact iff_of_true (proper_error_iff.mpr rfl) fun proper => absurd empty proper
      · rename_i proper
        rw [forall_prop_of_true proper]
        cases passphrase with
        | unencodable before surrogate after =>
            refine iff_of_false ?_ (by rintro ⟨text, ⟨⟩, -⟩)
            split <;> exact improper_other _
        | text passphrase =>
            simp only [PyStr.text.injEq, exists_eq_left']
            split
            · rename_i allowed
              exact (and_iff_right allowed).symm
            · rename_i refused
              exact iff_of_false (improper_other _) fun both => refused both.1

/-- A token that Fernet decrypts or refuses: ASCII text, and not made of bytes that are not
UTF-8. -/
def Readable (crypto : Crypto) (key : crypto.Key) (token : Json) : Prop :=
  ∃ text, token = .str text ∧ (text.toList.all fun c => c.val < 128) = true ∧
    (crypto.decrypt key text = none → crypto.garbled key text = false)

theorem proper_decryptToken_iff {key : crypto.Key} {token : Json} :
    RaisesProperly (decryptToken crypto key token) ↔ Readable crypto key token := by
  cases token with
  | str text =>
      simp only [decryptToken, Crypto.decryptValue, Readable, Json.str.injEq, exists_eq_left']
      split
      · rename_i ascii
        cases decrypted : crypto.decrypt key text with
        | some plaintext =>
            exact iff_of_true (proper_ok _) ⟨ascii, fun same => by cases same⟩
        | none =>
            cases garbled : crypto.garbled key text with
            | true =>
                refine iff_of_false (improper_other _) fun readable => ?_
                exact Bool.false_ne_true (readable.2 rfl).symm
            | false => exact iff_of_true (proper_error_iff.mpr rfl) ⟨ascii, fun _ => rfl⟩
      · rename_i other
        exact iff_of_false (improper_other _) fun readable => other readable.1
  | _ =>
      refine iff_of_false (improper_other _) ?_
      rintro ⟨text, same, -⟩
      cases same

/-- Every credential that is come to is readable: the first that does not decrypt ends the call. -/
def ReadableInTurn (crypto : Crypto) (key : crypto.Key) : Payload → Prop
  | [] => True
  | field :: fields => Readable crypto key field.2 ∧
      ((decryptToken crypto key field.2).isOk = true → ReadableInTurn crypto key fields)

theorem plaintexts_cons {key : crypto.Key} (field : String × Json) (fields : Payload) :
    plaintexts crypto key (field :: fields) =
      (decryptToken crypto key field.2).bind fun plaintext =>
        (plaintexts crypto key fields).map fun rest => (field.1, plaintext) :: rest := by
  unfold plaintexts
  rw [List.mapM_cons]
  cases decryptToken crypto key field.2 with
  | error e => rfl
  | ok plaintext => rfl

theorem proper_plaintexts_iff {key : crypto.Key} {credentials : Payload} :
    RaisesProperly (plaintexts crypto key credentials) ↔ ReadableInTurn crypto key credentials := by
  induction credentials with
  | nil => exact iff_of_true (proper_ok _) trivial
  | cons field fields ih =>
      rw [plaintexts_cons, proper_bind_iff, proper_decryptToken_iff, ReadableInTurn, ← ih]
      refine and_congr_right fun _ => ?_
      cases decryptToken crypto key field.2 with
      | error e =>
          refine iff_of_true (fun _ same => by cases same) fun ok => ?_
          cases ok
      | ok plaintext =>
          constructor
          · exact fun all _ => proper_map_iff.mp (all plaintext rfl)
          · exact fun rest _ _ => proper_map_iff.mpr (rest rfl)

/-- The system goes along with a write: the directory and the temporary file are made, and the
latter is removed if it is not needed. -/
def Obliges (os : SystemAnswers) : Prop :=
  os.mkdir = none ∧ os.mkstemp = none ∧ (os.fails = true → os.unlink = none)

theorem proper_writeFile_iff {α : Type} {os : OsAnswers} {written : Nat → α} {file : Option α} :
    RaisesProperly (v.writeFile os written file).2.2 ↔
      os.mkdir = none ∧ os.mkstemp = none ∧ (os.fails = true → os.unlink = none) := by
  obtain ⟨mkdir, mkstemp, write, close, replace, unlink⟩ := os
  unfold writeFile
  cases mkdir with
  | some m => exact iff_of_false (improper_other m) fun both => by cases both.1
  | none =>
      cases mkstemp with
      | some m => exact iff_of_false (improper_other m) fun both => by cases both.2.1
      | none =>
          -- Every path through the rest returns, cleans up, or fails to.
          cases write <;> cases close <;> cases replace <;> cases unlink <;>
            first
            | exact iff_of_true (proper_ok _) ⟨rfl, rfl, fun fails => (by cases fails)⟩
            | exact iff_of_true (proper_error_iff.mpr rfl) ⟨rfl, rfl, fun _ => rfl⟩
            | exact iff_of_false (improper_other _) fun both => by cases both.2.2 rfl

/-- The outcome of `_write_state` over a file with some content. -/
def writeAnswer (v : Vault) (depth : Nat) (os : SystemAnswers) (content : List UInt8)
    (next : VaultState) : Except VaultExn Unit :=
  ((v.writeStateCalls depth next).run os.handle ⟨some content, none⟩).1

theorem proper_writeAnswer_iff {os : SystemAnswers} {content : List UInt8} {next : VaultState} :
    RaisesProperly (v.writeAnswer depth os content next) ↔
      Obliges os ∧ Json.serialisable depth (.obj (document next)) = true := by
  rw [← serialize_isOk, writeAnswer]
  cases serialized : serialize depth next with
  | ok bytes =>
      rw [run_writeStateCalls v os (some content) serialized]
      exact proper_writeFile_iff.trans (and_iff_left rfl).symm
  | error e =>
      rw [run_unserialized v os (some content) serialized]
      exact iff_of_false (improper_other _) fun both => Bool.false_ne_true both.2

section Calls

variable (crypto repr v depth) (os : SystemAnswers) (parse : List UInt8 → Disk)
variable (content : List UInt8)

/-- What a call on a file with some content answers, where `parse` is the decoding of bytes and
`json.loads`. -/
def answer : FileCall → Except VaultExn VaultAnswer
  | .store .other _ _ _ => .error OpenVault.notAName
  | .store (.str name) none _ _ =>
      (validateName repr name).bind fun _ =>
        .error (.vaultError "credential value must be a string")
  | .store (.str name) (some value) salt draw =>
      (v.storeNext crypto repr name value salt draw (some (parse content))).bind fun next =>
        (v.writeAnswer depth os content next).map fun _ => .done
  | .retrieve .other => .error OpenVault.notAName
  | .retrieve (.str name) => (v.retrieve crypto repr name (some (parse content))).map .value
  | .revoke .other => .error OpenVault.notAName
  | .revoke (.str name) =>
      (v.revokeNext repr name (some (parse content))).bind fun
        | some next => (v.writeAnswer depth os content next).map fun _ => .existed true
        | none => .ok (.existed false)
  | .list => (v.list repr (some (parse content))).map .names
  | .changePassphrase newPassphrase salt draw =>
      if newPassphrase = .text "" then
        .error (.vaultConfigurationError "new vault passphrase must be non-empty")
      else
        ((v.loadStateOrNone repr (some (parse content))).bind (v.openAll crypto)).bind fun opened =>
          let v : Vault := { v with passphrase := some newPassphrase }
          (v.rekeyed crypto salt draw opened).bind fun next =>
            (v.writeAnswer depth os content next).map fun _ => .done

/-- The system goes along, and the state can be serialised. -/
def Writable (next : VaultState) : Prop :=
  Obliges os ∧ Json.serialisable depth (.obj (document next)) = true

/-- What the file's checks leave to each call: the tokens it reads are ASCII text of UTF-8 bytes,
the iteration count is one to derive a key with, what it encodes has an encoding, and what it
writes besides new tokens can be serialised. -/
def Regular (state : VaultState) : FileCall → Prop
  | .store (.str name) (some value) _ _ => v.Unlocked fun _ =>
      crypto.allows state.2.iterations = true ∧ value.isText = true ∧
        Writable depth os (withCredentials state.1 ((credentialsDict state.1).del name), state.2)
  | .retrieve (.str name) => ∀ token, (credentialsDict state.1).get? name = some token →
      token ≠ .null → v.Unlocked fun passphrase => crypto.allows state.2.iterations = true ∧
        Readable crypto (crypto.derive passphrase state.2) token
  | .revoke (.str name) => ((credentialsDict state.1).get? name).isSome = true →
      Writable depth os (withCredentials state.1 ((credentialsDict state.1).del name), state.2)
  | .changePassphrase newPassphrase salt _ => v.Unlocked fun passphrase =>
      crypto.allows state.2.iterations = true ∧
        ReadableInTurn crypto (crypto.derive passphrase state.2) (credentialsDict state.1) ∧
        ((∀ field ∈ credentialsDict state.1,
            (decryptToken crypto (crypto.derive passphrase state.2) field.2).isOk = true) →
          newPassphrase.isText = true ∧
            Writable depth os (withCredentials state.1 [], ⟨salt, defaultIterations⟩))
  | _ => True

/-- A call answers or reports an error of the vault, and a plaintext it answers with is one that
the credential's token was made from, under the key of the instance's passphrase. -/
structure AnswersProperly (request : FileCall) : Prop where
  reports : RaisesProperly (v.answer crypto repr depth os parse content request)
  genuine : ∀ name plaintext, request = .retrieve (.str name) →
    v.answer crypto repr depth os parse content request = .ok (.value plaintext) →
    ∃ state passphrase draw,
      v.loadStateOrNone repr (some (parse content)) = .ok (some state) ∧
      v.passphrase = some (.text passphrase) ∧
      (credentialsDict state.1).get? name =
        some (.str (crypto.encrypt (crypto.derive passphrase state.2) draw plaintext))

end Calls

section Conditions

variable {os : SystemAnswers} {parse : List UInt8 → Disk} {content : List UInt8}

theorem proper_named_iff {α : Type} {name : String} {f : Unit → Except VaultExn α} :
    RaisesProperly ((validateName repr name).bind f) ↔
      (properName name = true → RaisesProperly (f ())) := by
  rcases OpenVault.validateName_eq repr name with ⟨valid, proper⟩ | ⟨⟨m, invalid⟩, improper⟩
  · rw [valid]
    exact ⟨fun reports _ => reports, fun reports => reports proper⟩
  · rw [invalid]
    refine iff_of_true (proper_error_iff.mpr rfl) fun proper => ?_
    exact absurd (improper.symm.trans proper) Bool.false_ne_true

theorem exists_of_load {disk : Disk} {loaded : Option VaultState}
    (loads : v.loadStateOrNone repr (some disk) = .ok loaded) : ∃ state, loaded = some state := by
  cases disk with
  | json value =>
      cases value with
      | obj state =>
          rw [loadStateOrNone] at loads
          cases checked : v.loadObject repr state with
          | error e =>
              rw [checked] at loads
              cases loads
          | ok state =>
              rw [checked] at loads
              cases loads
              exact ⟨state, rfl⟩
      | _ => cases loads
  | _ => cases loads

theorem proper_loaded_iff {α : Type} {disk : Disk} {f : Option VaultState → Except VaultExn α} :
    RaisesProperly ((v.loadStateOrNone repr (some disk)).bind f) ↔ (∀ m, disk ≠ .raising m) ∧
      ∀ state, v.loadStateOrNone repr (some disk) = .ok (some state) →
        RaisesProperly (f (some state)) := by
  rw [proper_bind_iff, proper_load_iff]
  refine and_congr_right fun _ => ⟨fun all state loads => all _ loads, fun all loaded loads => ?_⟩
  obtain ⟨state, rfl⟩ := exists_of_load loads
  exact all state loads

theorem bind_bind {α β γ : Type} (x : Except VaultExn α) (f : α → Except VaultExn β)
    (g : β → Except VaultExn γ) : (x.bind f).bind g = x.bind fun a => (f a).bind g := by
  cases x <;> rfl

theorem proper_written_iff {α : Type} {v' : Vault} {next : VaultState} {f : Unit → α} :
    RaisesProperly ((v'.writeAnswer depth os content next).map f) ↔ Writable depth os next :=
  proper_map_iff.trans proper_writeAnswer_iff

theorem retrieve_eq {name : String} {disk : Disk} :
    v.retrieve crypto repr name (some disk) = (validateName repr name).bind fun _ =>
      (v.loadStateOrNone repr (some disk)).bind fun loaded => (v.required loaded).bind fun state =>
        match (credentialsDict state.1).getD name .null with
        | .null => .error (.vaultCredentialNotFoundError
            s!"no credential named {repr (.str name)}")
        | token => (v.deriveKey crypto state.2).bind fun key => decryptToken crypto key token :=
  rfl

theorem proper_retrieve_iff {name : String} {disk : Disk} :
    RaisesProperly (v.retrieve crypto repr name (some disk)) ↔ (properName name = true →
      (∀ m, disk ≠ .raising m) ∧ ∀ state,
        v.loadStateOrNone repr (some disk) = .ok (some state) →
          v.Regular crypto depth os state (.retrieve (.str name))) := by
  rw [retrieve_eq, proper_named_iff]
  refine forall_congr' fun _ => ?_
  rw [proper_loaded_iff]
  refine and_congr_right fun _ => forall₂_congr fun state _ => ?_
  simp only [required, Except.bind, Regular, Payload.getD]
  cases found : (credentialsDict state.1).get? name with
  | none => exact iff_of_true (proper_error_iff.mpr rfl) fun _ same => by cases same
  | some token =>
      simp only [Option.getD_some, Option.some.injEq, forall_eq']
      split
      · exact iff_of_true (proper_error_iff.mpr rfl) fun none => absurd rfl none
      · rename_i some
        refine Iff.trans ?_ (forall_prop_of_true some).symm
        exact proper_key_iff.trans (unlocked_congr fun _ =>
          and_congr_right fun _ => proper_decryptToken_iff)

theorem proper_list {disk : Disk} :
    RaisesProperly (v.list repr (some disk)) ↔ ∀ m, disk ≠ .raising m := by
  rw [list, proper_map_iff, proper_load_iff]

theorem proper_store_iff {name : String} {value : PyStr} {salt : List UInt8} {draw : Nat} :
    RaisesProperly (v.answer crypto repr depth os parse content
        (.store (.str name) (some value) salt draw)) ↔
      (properName name = true → (∀ m, parse content ≠ .raising m) ∧ ∀ state,
        v.loadStateOrNone repr (some (parse content)) = .ok (some state) →
          v.Regular crypto depth os state (.store (.str name) (some value) salt draw)) := by
  have steps : v.answer crypto repr depth os parse content
      (.store (.str name) (some value) salt draw) = (validateName repr name).bind fun _ =>
        (v.loadStateOrNone repr (some (parse content))).bind fun loaded =>
          (v.storeState crypto name value salt draw loaded).bind fun next =>
            (v.writeAnswer depth os content next).map fun _ => .done := by
    rw [answer, storeNext]
    exact (bind_bind _ _ _).trans (congrArg _ (funext fun _ => bind_bind _ _ _))
  rw [steps, proper_named_iff]
  refine forall_congr' fun _ => ?_
  rw [proper_loaded_iff]
  refine and_congr_right fun _ => forall₂_congr fun state _ => ?_
  have stores : v.storeState crypto name value salt draw (some state) =
      (v.deriveKey crypto state.2).bind fun key => (crypto.encryptValue key draw value).bind
        fun token => .ok (withCredentials state.1 ((credentialsDict state.1).set name
          (.str token)), state.2) := rfl
  rw [stores, bind_bind, proper_key_iff]
  refine unlocked_congr fun passphrase => and_congr_right fun _ => ?_
  cases value with
  | unencodable before surrogate after =>
      exact iff_of_false (improper_other _) fun both => Bool.false_ne_true both.1
  | text value =>
      refine proper_written_iff.trans ((and_congr_right fun _ => ?_).trans (and_iff_right rfl).symm)
      rw [serialisable_document_congr fun depth => all_set_token name _]

theorem revoke_eq {name : String} :
    v.answer crypto repr depth os parse content (.revoke (.str name)) =
      (validateName repr name).bind fun _ =>
        (v.loadStateOrNone repr (some (parse content))).bind fun loaded =>
          match revokeState name loaded with
          | some next => (v.writeAnswer depth os content next).map fun _ => .existed true
          | none => .ok (.existed false) := by
  rw [answer, revokeNext]
  exact (bind_bind _ _ _).trans (congrArg _ (funext fun _ => bind_bind _ _ _))

theorem proper_revoke_iff {name : String} :
    RaisesProperly (v.answer crypto repr depth os parse content (.revoke (.str name))) ↔
      (properName name = true → (∀ m, parse content ≠ .raising m) ∧ ∀ state,
        v.loadStateOrNone repr (some (parse content)) = .ok (some state) →
          v.Regular crypto depth os state (.revoke (.str name))) := by
  rw [revoke_eq, proper_named_iff]
  refine forall_congr' fun _ => ?_
  rw [proper_loaded_iff]
  refine and_congr_right fun _ => forall₂_congr fun state _ => ?_
  simp only [revokeState, Regular]
  cases found : (credentialsDict state.1).get? name with
  | none => exact iff_of_true (proper_ok _) fun found => absurd found Bool.false_ne_true
  | some token => exact proper_written_iff.trans ⟨fun writable _ => writable, fun all => all rfl⟩

theorem isOk_plaintexts {key : crypto.Key} {credentials : Payload} :
    (plaintexts crypto key credentials).isOk = true ↔
      ∀ field ∈ credentials, (decryptToken crypto key field.2).isOk = true := by
  rw [plaintexts, isOk_mapM, List.all_eq_true]
  simp only [isOk_map]

theorem proper_rekeyed_iff {newPassphrase : PyStr} {salt : List UInt8} {draw : Nat}
    (given : v.passphrase = some newPassphrase) (proper : newPassphrase ≠ .text "")
    (opened : Payload × List (String × String)) :
    RaisesProperly ((v.rekeyed crypto salt draw opened).bind fun next =>
        (v.writeAnswer depth os content next).map fun _ => VaultAnswer.done) ↔
      newPassphrase.isText = true ∧
        Writable depth os (withCredentials opened.1 [], ⟨salt, defaultIterations⟩) := by
  cases newPassphrase with
  | unencodable before surrogate after =>
      have fails : v.rekeyed crypto salt draw opened =
          .error (.other "surrogates not allowed") := by
        simp only [rekeyed, deriveKey, given, Crypto.deriveKey, if_neg proper,
          crypto.allows_default, if_true]
        rfl
      rw [fails]
      exact iff_of_false (improper_other _) fun both => Bool.false_ne_true both.1
  | text newPassphrase =>
      rw [rekeyed_eq_ok given (mt (congrArg PyStr.text) proper)]
      refine proper_written_iff.trans ((and_congr_right fun _ => ?_).trans (and_iff_right rfl).symm)
      have tokensOnly (depth : Nat) : (tokens crypto (crypto.derive newPassphrase
          ⟨salt, defaultIterations⟩) draw opened.2).all (fun field => field.2.serialisable depth) =
            ([] : Payload).all fun field => field.2.serialisable depth :=
        all_tokens _ draw opened.2
      rw [serialisable_document_congr tokensOnly]

theorem proper_changePassphrase_iff {newPassphrase : PyStr} {salt : List UInt8} {draw : Nat} :
    RaisesProperly (v.answer crypto repr depth os parse content
        (.changePassphrase newPassphrase salt draw)) ↔
      (newPassphrase ≠ .text "" → (∀ m, parse content ≠ .raising m) ∧ ∀ state,
        v.loadStateOrNone repr (some (parse content)) = .ok (some state) →
          v.Regular crypto depth os state (.changePassphrase newPassphrase salt draw)) := by
  rw [answer]
  split
  · rename_i empty
    exact iff_of_true (proper_error_iff.mpr rfl) fun proper => absurd empty proper
  · rename_i proper
    refine Iff.trans ?_ (forall_prop_of_true proper).symm
    rw [bind_bind, proper_loaded_iff]
    refine and_congr_right fun _ => forall₂_congr fun state _ => ?_
    have opens : v.openAll crypto (some state) = (v.deriveKey crypto state.2).bind fun key =>
        (plaintexts crypto key (credentialsDict state.1)).map fun plain => (state.1, plain) := by
      simp only [openAll, required, bind, Except.bind]
      cases v.deriveKey crypto state.2 with
      | error e => rfl
      | ok key => cases plaintexts crypto key (credentialsDict state.1) <;> rfl
    rw [opens, bind_bind, proper_key_iff]
    refine unlocked_congr fun passphrase => and_congr_right fun _ => ?_
    rw [proper_bind_iff, proper_map_iff, proper_plaintexts_iff]
    refine and_congr_right fun _ => ?_
    rw [← isOk_plaintexts]
    cases plaintexts crypto (crypto.derive passphrase state.2) (credentialsDict state.1) with
    | error e =>
        refine iff_of_true (fun _ same => by cases same) fun ok => ?_
        cases ok
    | ok plain =>
        refine Iff.trans ?_ ⟨fun writable _ => writable, fun all => all rfl⟩
        refine Iff.trans ⟨fun all => all _ rfl, fun reports opened same => ?_⟩
          (proper_rekeyed_iff rfl proper (state.1, plain))
        cases same
        exact reports

/-- What a call with proper arguments takes for granted of the file and the system. -/
theorem proper_answer_iff (request : FileCall) :
    RaisesProperly (v.answer crypto repr depth os parse content request) ↔
      (request.accepted = true → (∀ m, parse content ≠ .raising m) ∧ ∀ state,
        v.loadStateOrNone repr (some (parse content)) = .ok (some state) →
          v.Regular crypto depth os state request) := by
  cases request with
  | store name value salt draw =>
      cases name with
      | other =>
          refine iff_of_true (proper_error_iff.mpr rfl) fun accepted => ?_
          cases accepted
      | str name =>
          cases value with
          | none =>
              refine iff_of_true (proper_named_iff.mpr fun _ => proper_error_iff.mpr rfl) ?_
              exact fun accepted => absurd accepted Bool.false_ne_true
          | some value => exact proper_store_iff
  | retrieve name =>
      cases name with
      | other =>
          refine iff_of_true (proper_error_iff.mpr rfl) fun accepted => ?_
          cases accepted
      | str name => exact proper_map_iff.trans proper_retrieve_iff
  | revoke name =>
      cases name with
      | other =>
          refine iff_of_true (proper_error_iff.mpr rfl) fun accepted => ?_
          cases accepted
      | str name => exact proper_revoke_iff
  | list =>
      refine proper_map_iff.trans (proper_list.trans ?_)
      exact ⟨fun readable _ => ⟨readable, fun _ _ => trivial⟩, fun all => (all rfl).1⟩
  | changePassphrase newPassphrase salt draw =>
      refine proper_changePassphrase_iff.trans (imp_congr_left ?_)
      simp [FileCall.accepted]

theorem decrypt_of_ok {key : crypto.Key} {token plaintext : String}
    (decrypted : decryptToken crypto key (.str token) = .ok plaintext) :
    crypto.decrypt key token = some plaintext := by
  rw [decryptToken, Crypto.decryptValue] at decrypted
  split at decrypted
  · cases decrypts : crypto.decrypt key token with
    | some text =>
        rw [decrypts] at decrypted
        cases decrypted
        rfl
    | none =>
        cases garbled : crypto.garbled key token <;>
          · rw [decrypts, garbled] at decrypted
            cases decrypted
  · cases decrypted

/-- A plaintext comes from a token that decrypts to it, under the instance's key. -/
theorem exists_of_retrieve {name plaintext : String} {disk : Disk}
    (found : v.retrieve crypto repr name (some disk) = .ok plaintext) :
    ∃ state passphrase token, v.loadStateOrNone repr (some disk) = .ok (some state) ∧
      v.passphrase = some (.text passphrase) ∧
      (credentialsDict state.1).get? name = some (.str token) ∧
      crypto.decrypt (crypto.derive passphrase state.2) token = some plaintext := by
  simp only [retrieve, bind_eq_ok] at found
  obtain ⟨-, -, loaded, loads, state, required, fetched⟩ := found
  obtain ⟨state', rfl⟩ := exists_of_load loads
  obtain rfl : state' = state := Except.ok.inj required
  cases there : (credentialsDict state'.1).get? name with
  | none =>
      rw [Payload.getD, there] at fetched
      cases fetched
  | some token =>
      rw [Payload.getD, there] at fetched
      cases token with
      | null => cases fetched
      | str token =>
          obtain ⟨key, derived, decrypted⟩ := bind_eq_ok.mp fetched
          obtain ⟨passphrase, given, -, -, rfl⟩ := deriveKey_eq_ok.mp derived
          exact ⟨state', passphrase, token, loads, given, there, decrypt_of_ok decrypted⟩
      | _ =>
          obtain ⟨key, -, decrypted⟩ := bind_eq_ok.mp fetched
          cases decrypted

theorem writeAnswer_of_reports {next : VaultState} (fine : os.fails = false)
    (reports : RaisesProperly (v.writeAnswer depth os content next)) :
    v.writeAnswer depth os content next = .ok () := by
  obtain ⟨-, serial⟩ := proper_writeAnswer_iff.mp reports
  rw [← serialize_isOk] at serial
  cases serialized : serialize depth next with
  | error e =>
      rw [serialized] at serial
      cases serial
  | ok bytes =>
      rw [writeAnswer, run_writeStateCalls v os (some content) serialized]
      rcases writeFile_cases v os.toOsAnswers bytes.take (some content) with
        ⟨fails, -⟩ | ⟨-, n, -, ends⟩
      · exact absurd (fine.symm.trans fails) Bool.false_ne_true
      · rw [ends]

/-- On a system that does not fail, a call that reports no other error gives the answer of the
vault that is a finite map. -/
theorem answer_eq_call (fine : os.fails = false) (request : VaultRequest)
    (reports : RaisesProperly (v.answer crypto repr depth os parse content request.onFile)) :
    v.answer crypto repr depth os parse content request.onFile =
      (OpenVault.call crypto repr ⟨v, some (parse content)⟩ request).2 := by
  cases request with
  | store name value salt draw =>
      cases name with
      | other => rfl
      | str name =>
          cases value with
          | other => rfl
          | str value =>
              simp only [VaultRequest.onFile, Argument.text?, answer] at reports
              simp only [VaultRequest.onFile, Argument.text?, answer, OpenVault.call, store]
              cases next : v.storeNext crypto repr name value salt draw (some (parse content)) with
              | error e => rfl
              | ok next' =>
                  rw [next] at reports
                  simp only [Except.bind,
                    writeAnswer_of_reports fine (proper_map_iff.mp reports)]
                  rfl
  | retrieve name => cases name <;> rfl
  | revoke name =>
      cases name with
      | other => rfl
      | str name =>
          rw [VaultRequest.onFile, answer] at reports
          simp only [VaultRequest.onFile, answer, OpenVault.call, revoke]
          cases next : v.revokeNext repr name (some (parse content)) with
          | error e => rfl
          | ok removed =>
              cases removed with
              | none => rfl
              | some next' =>
                  rw [next] at reports
                  simp only [Except.bind,
                    writeAnswer_of_reports fine (proper_map_iff.mp reports)]
                  rfl
  | list => rfl
  | changePassphrase newPassphrase salt draw =>
      rw [VaultRequest.onFile, answer] at reports
      simp only [VaultRequest.onFile, answer, OpenVault.call, changePassphrase]
      split
      · rfl
      · rename_i proper
        rw [if_neg proper] at reports
        cases opens : (v.loadStateOrNone repr (some (parse content))).bind (v.openAll crypto) with
        | error e => rfl
        | ok opened =>
            rw [opens] at reports
            simp only [Except.bind] at reports ⊢
            cases next : Vault.rekeyed crypto ⟨v.path, some (.text newPassphrase)⟩ salt draw
                opened with
            | error e => rfl
            | ok next' =>
                rw [next] at reports
                simp only [writeAnswer_of_reports fine (proper_map_iff.mp reports)]
                rfl

end Conditions

/-- On every content of the file a call answers properly exactly if its arguments are refused, or
`json.loads` raises nothing else and the file is regular as far as the call goes. -/
theorem any_file_iff (crypto : Crypto) (repr : Json → String) (v : Vault) (depth : Nat)
    (os : SystemAnswers) (parse : List UInt8 → Disk) (content : List UInt8)
    (rejects : ∀ key token plaintext, crypto.decrypt key token = some plaintext →
      ∃ draw, token = crypto.encrypt key draw plaintext)
    (request : FileCall) :
    v.AnswersProperly crypto repr depth os parse content request ↔ (request.accepted = true →
      (∀ m, parse content ≠ .raising m) ∧ ∀ state,
        v.loadStateOrNone repr (some (parse content)) = .ok (some state) →
          v.Regular crypto depth os state request) := by
  rw [← proper_answer_iff]
  refine ⟨AnswersProperly.reports, fun reports => ⟨reports, ?_⟩⟩
  rintro name plaintext rfl answered
  have found : v.retrieve crypto repr name (some (parse content)) = .ok plaintext := by
    rw [answer] at answered
    cases retrieved : v.retrieve crypto repr name (some (parse content)) with
    | error e =>
        rw [retrieved] at answered
        cases answered
    | ok text =>
        rw [retrieved] at answered
        cases answered
        rfl
  obtain ⟨state, passphrase, token, loads, given, there, decrypted⟩ := exists_of_retrieve found
  obtain ⟨draw, rfl⟩ := rejects _ _ _ decrypted
  exact ⟨state, passphrase, draw, loads, given, there⟩

end Vault

section Strict

/-- Tokens in clear of which only those that were made decrypt. -/
def Crypto.strict : Crypto where
  Key := transparent.Key
  allows := transparent.allows
  derive := transparent.derive
  encrypt := transparent.encrypt
  decrypt key token := (transparent.decrypt key token).filter fun plaintext =>
    transparent.encrypt key 0 plaintext = token
  garbled := transparent.garbled
  allows_default := transparent.allows_default
  encrypt_ascii := transparent.encrypt_ascii
  decrypt_encrypt key draw plaintext := by
    refine (congrArg (Option.filter _) (transparent.decrypt_encrypt key draw plaintext)).trans ?_
    exact if_pos (decide_eq_true rfl)

theorem Crypto.strict_rejects (key : List Char) (token plaintext : String)
    (decrypts : strict.decrypt key token = some plaintext) :
    ∃ draw, token = strict.encrypt key draw plaintext := by
  obtain ⟨-, made⟩ := Option.filter_eq_some_iff.mp decrypts
  exact ⟨0, (of_decide_eq_true made).symm⟩

/-- A vault file with one credential. -/
def handEdited (token : Json) : Disk :=
  .json (.obj [("version", .int 1), ("salt", .str ""), ("iterations", .int 1000),
    ("credentials", .obj [("a", token)])])

def editedText (token : String) : List UInt8 :=
  Utf8.encode (s!"\x7b\"version\": 1, \"salt\": \"\", \"iterations\": 1000, " ++
    s!"\"credentials\": \x7b\"a\": {token}\x7d\x7d").toList

/-- A system without faults. -/
def compliant : SystemAnswers :=
  { OsAnswers.faultless 1000 with chmodParent := none, chmodFile := none }

theorem any_file_iff_refused :
    (⟨"/vault", some "pw"⟩ : Vault).AnswersProperly .strict (fun _ => "") 9 compliant
      (fun _ => handEdited (.str "x")) (editedText "\"x\"") (.retrieve (.str "a")) := by
  refine (Vault.any_file_iff .strict _ _ _ _ _ _ Crypto.strict_rejects _).mpr fun _ => ?_
  refine ⟨fun m raises => (by cases raises), fun state loads => ?_⟩
  have loaded : Vault.loadStateOrNone (fun _ => "") ⟨"/vault", some "pw"⟩
      (some (handEdited (.str "x"))) = .ok (some ([("version", .int 1), ("salt", .str ""),
        ("iterations", .int 1000), ("credentials", .obj [("a", .str "x")])],
          ⟨[], .int 1000⟩)) := rfl
  cases loaded.symm.trans loads
  rintro token found - passphrase given -
  obtain rfl : Json.str "x" = token := Option.some.inj found
  cases given
  exact ⟨"pw", rfl, rfl, "x", rfl, by decide, fun _ => rfl⟩

/-- A token that is a number has no `encode`. -/
theorem number_token_raises :
    ¬(⟨"/vault", some "pw"⟩ : Vault).AnswersProperly .strict (fun _ => "") 9 compliant
      (fun _ => handEdited (.int 7)) (editedText "7") (.retrieve (.str "a")) := by
  intro proper
  have raised : (⟨"/vault", some "pw"⟩ : Vault).answer .strict (fun _ => "") 9 compliant
      (fun _ => handEdited (.int 7)) (editedText "7") (.retrieve (.str "a")) =
        .error (.other "token is not a string") := by
    decide
  exact Bool.false_ne_true (proper.reports _ raised)

end Strict

end Tename
