import Tename.Vault.Refinement
import Tename.Vault.Writing

/-!
# Changing the passphrase when something fails

`change_passphrase` gives the instance its new passphrase before it has derived the new
key, serialised the new state or written the file. A failure after that leaves the old file
to an instance with the new passphrase. A write that the operating system cuts short is not
noticed at all, and what it wrote replaces the file.
-/

namespace Tename

namespace Vault

variable (crypto : Crypto) (repr : Json → String) (v : Vault)

/-- What can go wrong in `change_passphrase` besides what it reads. -/
structure RekeyFaults where
  oldKey : Option String
  newKey : Option String
  os : OsAnswers

/-- `change_passphrase` up to its assignment of the new passphrase, where the derivation of the
old key may fail. -/
def openOld (oldKey : Option String) (file : VaultFile) :
    Except VaultExn (Payload × List (String × String)) := do
  let loaded ← v.loadStateOrNone repr file
  let (_, params) ← v.required loaded
  let _ ← v.deriveKey crypto params
  match oldKey with
  | some m => .error (.other m)
  | none => v.openAll crypto loaded

/-- `change_passphrase`, with the interpreter's recursion depth and the answers it gets. -/
def changePassphraseOn (newPassphrase : PyStr) (salt : List UInt8) (draw depth : Nat)
    (faults : RekeyFaults) (file : VaultFile) : Vault × VaultFile × Except VaultExn Unit :=
  if newPassphrase = .text "" then
    (v, file, .error (.vaultConfigurationError "new vault passphrase must be non-empty"))
  else
    match v.openOld crypto repr faults.oldKey file with
    | .error e => (v, file, .error e)
    | .ok opened =>
        let v : Vault := { v with passphrase := some newPassphrase }
        match faults.newKey with
        | some m => (v, file, .error (.other m))
        | none =>
            match v.rekeyed crypto salt draw opened with
            | .error e => (v, file, .error e)
            | .ok next => (v, writeState file next (v.writeOutcome depth faults.os next))

/-- All credentials, decrypted. -/
def entries (file : VaultFile) : Except VaultExn (List (String × String)) :=
  (v.openOld crypto repr none file).map Prod.snd

/-- A call that raises changes nothing, and one that returns leaves the entries, now under the
new passphrase. -/
def Atomic (newPassphrase : PyStr) (file : VaultFile) :
    Vault × VaultFile × Except VaultExn Unit → Prop
  | (v', file', .error _) => v' = v ∧ file' = file
  | (v', file', .ok _) => v'.passphrase = some newPassphrase ∧
      ∃ plain, v.entries crypto repr file = .ok plain ∧ v'.entries crypto repr file' = .ok plain

/-- The file without its credentials can be serialised under new parameters. -/
def rewritable (depth : Nat) (salt : List UInt8) (file : VaultFile) : Bool :=
  match v.loadStateOrNone repr file with
  | .ok (some (state, _)) => Json.serialisable depth
      (.obj (document (withCredentials state [], ⟨salt, defaultIterations⟩)))
  | _ => false

/-- Nothing raises once the new passphrase is assigned. -/
def endures (newPassphrase : PyStr) (salt : List UInt8) (depth : Nat) (faults : RekeyFaults)
    (file : VaultFile) : Bool :=
  faults.newKey.isNone && newPassphrase.isText && v.rewritable repr depth salt file &&
    !faults.os.fails

/-- `os.write` takes the whole buffer. -/
def TakesAll (newPassphrase : PyStr) (salt : List UInt8) (draw depth : Nat) (os : OsAnswers)
    (file : VaultFile) : Prop :=
  ∀ opened next bytes n, v.openOld crypto repr none file = .ok opened →
    rekeyed crypto ⟨v.path, some newPassphrase⟩ salt draw opened = .ok next →
      serialize depth next = .ok bytes → os.write = .ok n → bytes.length ≤ n

variable {crypto repr v} {file : VaultFile}

theorem openOld_none (crypto : Crypto) (repr : Json → String) (v : Vault) (file : VaultFile) :
    v.openOld crypto repr none file = (v.loadStateOrNone repr file).bind (v.openAll crypto) := by
  unfold openOld
  cases v.loadStateOrNone repr file with
  | error e => rfl
  | ok loaded =>
      cases loaded with
      | none => rfl
      | some state =>
          simp only [bind, Except.bind, required, openAll]
          cases v.deriveKey crypto state.2 with
          | error e => rfl
          | ok key => rfl

/-- Without a failing derivation the call is the one with the outcome of its write. -/
theorem changePassphraseOn_eq (newPassphrase : PyStr) (salt : List UInt8) (draw depth : Nat)
    (os : OsAnswers) :
    ∃ write, v.changePassphraseOn crypto repr newPassphrase salt draw depth ⟨none, none, os⟩ file =
      v.changePassphrase crypto repr newPassphrase salt draw write file := by
  unfold changePassphraseOn changePassphrase
  by_cases empty : newPassphrase = .text ""
  · exact ⟨.whole, by rw [if_pos empty, if_pos empty]⟩
  · rw [if_neg empty, openOld_none]
    cases (v.loadStateOrNone repr file).bind (v.openAll crypto) with
    | error e => exact ⟨.whole, by rw [if_neg empty]⟩
    | ok opened =>
        cases rekeyed : Vault.rekeyed crypto ⟨v.path, some newPassphrase⟩ salt draw opened with
        | error e => exact ⟨.whole, by simp only [if_neg empty, rekeyed]⟩
        | ok next =>
            refine ⟨writeOutcome ⟨v.path, some newPassphrase⟩ depth os next, ?_⟩
            simp only [if_neg empty, rekeyed]

theorem plaintexts_tokens (key : crypto.Key) (draw : Nat) (plain : List (String × String)) :
    plaintexts crypto key (tokens crypto key draw plain) = .ok plain := by
  induction plain generalizing draw with
  | nil => rfl
  | cons field plain ih =>
      obtain ⟨name, value⟩ := field
      unfold plaintexts
      rw [tokens, List.mapM_cons, decryptToken_encrypt]
      have rest := ih (draw + 1)
      unfold plaintexts at rest
      rw [rest]
      rfl

/-- What has been written under the new passphrase has the old entries. -/
theorem entries_rekeyed {newPassphrase : String} (proper : newPassphrase ≠ "")
    (given : v.passphrase = some (.text newPassphrase)) (salt : List UInt8) (draw : Nat)
    (opened : Payload × List (String × String)) :
    v.entries crypto repr (some (.json (.obj (document (withCredentials opened.1 (tokens crypto
      (crypto.derive newPassphrase ⟨salt, defaultIterations⟩) draw opened.2),
      ⟨salt, defaultIterations⟩))))) = .ok opened.2 := by
  generalize written : (withCredentials opened.1 (tokens crypto
    (crypto.derive newPassphrase ⟨salt, defaultIterations⟩) draw opened.2),
    (⟨salt, defaultIterations⟩ : KeyParameters)) = next
  have kept : next.1.get? "credentials" = some (.obj (tokens crypto
      (crypto.derive newPassphrase ⟨salt, defaultIterations⟩) draw opened.2)) := by
    rw [← written, withCredentials, Payload.get?_set, if_pos rfl]
  obtain ⟨read, listed⟩ := load_document repr v next kept
  have derived : v.deriveKey crypto next.2 =
      .ok (crypto.derive newPassphrase ⟨salt, defaultIterations⟩) := by
    rw [← written]
    exact deriveKey_eq_ok.mpr ⟨newPassphrase, given, proper, crypto.allows_default, rfl⟩
  rw [entries, openOld_none, read]
  simp only [Except.bind, openAll, required, bind, derived, listed, plaintexts_tokens]
  rfl

theorem openOld_of_ok {oldKey : Option String} {opened : Payload × List (String × String)}
    (h : v.openOld crypto repr oldKey file = .ok opened) :
    v.openOld crypto repr none file = .ok opened := by
  unfold openOld at h ⊢
  obtain ⟨loaded, read, h⟩ := bind_eq_ok.mp h
  obtain ⟨state, there, h⟩ := bind_eq_ok.mp h
  obtain ⟨key, derived, h⟩ := bind_eq_ok.mp h
  cases oldKey with
  | some m => cases h
  | none =>
      refine bind_eq_ok.mpr ⟨loaded, read, bind_eq_ok.mpr ⟨state, there, ?_⟩⟩
      exact bind_eq_ok.mpr ⟨key, derived, h⟩

theorem mk_passphrase_iff {passphrase : PyStr} :
    (⟨v.path, some passphrase⟩ : Vault) = v ↔ v.passphrase = some passphrase := by
  obtain ⟨path, given⟩ := v
  simp [eq_comm]

/-- A failure after the assignment of the new passphrase is harmless only to an instance that
had it already. -/
theorem atomic_error_iff {newPassphrase : PyStr} {e : VaultExn} :
    v.Atomic crypto repr newPassphrase file
      (⟨v.path, some newPassphrase⟩, file, .error e) ↔ v.passphrase = some newPassphrase := by
  rw [Atomic, mk_passphrase_iff, and_iff_left rfl]

/-- A new state is under the key of a passphrase that has an encoding. -/
theorem rekeyed_cases {salt : List UInt8} {draw : Nat} {opened : Payload × List (String × String)}
    {next : VaultState} (rekeys : v.rekeyed crypto salt draw opened = .ok next) :
    ∃ passphrase, v.passphrase = some (.text passphrase) ∧ passphrase ≠ "" ∧
      next = (withCredentials opened.1 (tokens crypto
        (crypto.derive passphrase ⟨salt, defaultIterations⟩) draw opened.2),
        ⟨salt, defaultIterations⟩) := by
  obtain ⟨key, derived, written⟩ := bind_eq_ok.mp rekeys
  obtain ⟨passphrase, given, proper, -, rfl⟩ := deriveKey_eq_ok.mp derived
  exact ⟨passphrase, given, proper, (Except.ok.inj written).symm⟩

section Written

variable {newPassphrase : PyStr} {salt : List UInt8} {draw : Nat} {oldKey : Option String}
variable {opened : Payload × List (String × String)} {next : VaultState}

/-- The tokens of the new file make no difference to whether it can be serialised. -/
theorem rewritable_eq (depth : Nat) (opens : v.openOld crypto repr oldKey file = .ok opened)
    (rekeys : rekeyed crypto ⟨v.path, some newPassphrase⟩ salt draw opened = .ok next) :
    v.rewritable repr depth salt file = (serialize depth next).isOk := by
  have opens := openOld_of_ok opens
  rw [openOld_none] at opens
  obtain ⟨loaded, read, opens⟩ := bind_eq_ok.mp opens
  obtain ⟨⟨state, params⟩, there, opens⟩ := bind_eq_ok.mp opens
  obtain ⟨key, -, opens⟩ := bind_eq_ok.mp opens
  obtain ⟨plain, -, opens⟩ := bind_eq_ok.mp opens
  cases opens
  obtain ⟨passphrase, -, -, rfl⟩ := rekeyed_cases rekeys
  cases loaded with
  | none => cases there
  | some loaded =>
      cases there
      rw [rewritable, read, serialize_isOk]
      exact serialisable_document_congr fun depth => (all_tokens _ draw plain).symm

/-- A file that is written whole has the old entries, under the new passphrase. -/
theorem atomic_whole (opens : v.openOld crypto repr oldKey file = .ok opened)
    (rekeys : rekeyed crypto ⟨v.path, some newPassphrase⟩ salt draw opened = .ok next) :
    v.Atomic crypto repr newPassphrase file
      (⟨v.path, some newPassphrase⟩, some (.json (.obj (document next))), .ok ()) := by
  obtain ⟨passphrase, given, proper, rfl⟩ := rekeyed_cases rekeys
  refine ⟨rfl, opened.2, ?_, entries_rekeyed proper given salt draw opened⟩
  rw [entries, openOld_of_ok opens]
  rfl

/-- Nothing is left of the entries in a file that is cut short. -/
theorem not_atomic_short : ¬v.Atomic crypto repr newPassphrase file
    (⟨v.path, some newPassphrase⟩, some .undecodable, .ok ()) := by
  rintro ⟨-, plain, -, ⟨⟩⟩

theorem takesAll_iff {depth n : Nat} {os : OsAnswers} {bytes : List UInt8}
    (opens : v.openOld crypto repr oldKey file = .ok opened)
    (rekeys : rekeyed crypto ⟨v.path, some newPassphrase⟩ salt draw opened = .ok next)
    (serialized : serialize depth next = .ok bytes) (taken : os.write = .ok n) :
    v.TakesAll crypto repr newPassphrase salt draw depth os file ↔ bytes.length ≤ n := by
  constructor
  · exact fun takes => takes opened next bytes n (openOld_of_ok opens) rekeys serialized taken
  · intro whole opened' next' bytes' n' opens' rekeys' serialized' taken'
    cases (openOld_of_ok opens).symm.trans opens'
    cases rekeys.symm.trans rekeys'
    cases serialized.symm.trans serialized'
    cases taken.symm.trans taken'
    exact whole

/-- Once the old file is open, the call raises over the old file, or puts what was taken of the
new one in its place. -/
theorem changePassphraseOn_cases (salt : List UInt8) (draw depth : Nat) (faults : RekeyFaults)
    (nonempty : newPassphrase ≠ .text "")
    (opens : v.openOld crypto repr faults.oldKey file = .ok opened) :
    v.endures repr newPassphrase salt depth faults file = false ∧
      (∃ e, v.changePassphraseOn crypto repr newPassphrase salt draw depth faults file =
        (⟨v.path, some newPassphrase⟩, file, .error e)) ∨
    v.endures repr newPassphrase salt depth faults file = true ∧ ∃ next bytes n,
      rekeyed crypto ⟨v.path, some newPassphrase⟩ salt draw opened = .ok next ∧
      serialize depth next = .ok bytes ∧ faults.os.write = .ok n ∧
      v.changePassphraseOn crypto repr newPassphrase salt draw depth faults file =
        (⟨v.path, some newPassphrase⟩,
          some (if n < bytes.length then .undecodable else .json (.obj (document next))),
          .ok ()) := by
  unfold changePassphraseOn
  rw [if_neg nonempty, opens]
  cases derives : faults.newKey with
  | some m => exact .inl ⟨by simp [endures, derives], _, rfl⟩
  | none =>
      cases rekeys : rekeyed crypto ⟨v.path, some newPassphrase⟩ salt draw opened with
      | error e =>
          refine .inl ⟨?_, e, by simp only [rekeys]⟩
          cases newPassphrase with
          | unencodable before surrogate after => simp [endures, PyStr.isText]
          | text passphrase =>
              have keys : rekeyed crypto ⟨v.path, some (.text passphrase)⟩ salt draw opened =
                  .ok _ := rekeyed_eq_ok rfl (mt (congrArg PyStr.text) nonempty)
              cases rekeys.symm.trans keys
      | ok next =>
          have encodes : newPassphrase.isText = true := by
            obtain ⟨passphrase, given, -⟩ := rekeyed_cases rekeys
            cases given
            rfl
          have rewrites := rewritable_eq depth opens rekeys
          rcases writeOutcome_cases ⟨v.path, some newPassphrase⟩ depth faults.os next
            with ⟨fails, e, ended⟩ | ⟨goes, bytes, n, serialized, taken, ended⟩
          · refine .inl ⟨?_, e, by simp only [rekeys, ended, writeState]⟩
            rw [endures, rewrites]
            rcases (Bool.or_eq_true _ _).mp fails with fails | unserialized
            · simp [fails]
            · simp [(Bool.not_eq_true' _).mp unserialized]
          · refine .inr ⟨?_, next, bytes, n, rfl, serialized, taken, ?_⟩
            · rw [endures, derives, encodes, rewrites, serialized, goes]
              rfl
            · simp only [rekeys, ended]
              split <;> rfl

end Written

/-- `change_passphrase` is atomic exactly if it does not get as far as the new passphrase, or
nothing raises after it and the file is written whole. An error that leaves the instance as it
was, because the passphrase is not a new one, does no harm either. -/
theorem changePassphrase_atomic_iff (crypto : Crypto) (repr : Json → String) (v : Vault)
    (newPassphrase : PyStr) (salt : List UInt8) (draw depth : Nat) (faults : RekeyFaults)
    (file : VaultFile) :
    v.Atomic crypto repr newPassphrase file
        (v.changePassphraseOn crypto repr newPassphrase salt draw depth faults file) ↔
      newPassphrase = .text "" ∨ (v.openOld crypto repr faults.oldKey file).isOk = false ∨
        v.endures repr newPassphrase salt depth faults file = true ∧
          v.TakesAll crypto repr newPassphrase salt draw depth faults.os file ∨
        v.endures repr newPassphrase salt depth faults file = false ∧
          v.passphrase = some newPassphrase := by
  by_cases empty : newPassphrase = .text ""
  · rw [changePassphraseOn, if_pos empty]
    exact iff_of_true ⟨rfl, rfl⟩ (.inl empty)
  rw [or_iff_right empty]
  cases opens : v.openOld crypto repr faults.oldKey file with
  | error e =>
      rw [changePassphraseOn, if_neg empty, opens]
      exact iff_of_true ⟨rfl, rfl⟩ (.inl rfl)
  | ok opened =>
      rw [or_iff_right (show ¬(Except.ok opened : Except VaultExn _).isOk = false from nofun)]
      rcases changePassphraseOn_cases salt draw depth faults empty opens
        with ⟨fails, e, ended⟩ | ⟨lasts, next, bytes, n, rekeys, serialized, taken, ended⟩
      · -- The old file meets the new passphrase.
        rw [ended, fails, atomic_error_iff]
        simp
      · rw [ended, lasts, takesAll_iff opens rekeys serialized taken]
        by_cases short : n < bytes.length
        · rw [if_pos short]
          refine iff_of_false not_atomic_short ?_
          simp only [true_and, Bool.true_eq_false, false_and, or_false]
          exact Nat.not_le_of_lt short
        · rw [if_neg short]
          exact iff_of_true (atomic_whole opens rekeys) (.inl ⟨rfl, Nat.le_of_not_lt short⟩)

/-- The disk is full when the new file should take the old one's place. The instance has the new
passphrase and the file the old key: what it could retrieve it cannot retrieve any more. -/
theorem changePassphrase_not_atomic :
    let v : Vault := ⟨"v", some "x"⟩
    let file : VaultFile := some (.json (.obj (document VaultClients.onlyA)))
    let full : OsAnswers :=
      { OsAnswers.faultless 1000 with replace := some "No space left on device" }
    let r := v.changePassphraseOn .transparent (fun _ => "") "y" [9] 2 9 ⟨none, none, full⟩ file
    (v.retrieve .transparent (fun _ => "") "a" file).toOption = some "1" ∧
      r.2.2.isOk = false ∧
      (r.1.retrieve .transparent (fun _ => "") "a" r.2.1).toOption = none ∧
      ¬v.Atomic .transparent (fun _ => "") "y" file r := by
  intro v file full r
  have refused : ∃ e, r = (⟨"v", some "y"⟩, file, .error e) := by
    have opens : (v.openOld .transparent (fun _ => "") none file).isOk = true := by decide
    cases opened : v.openOld .transparent (fun _ => "") none file with
    | error e =>
        rw [opened] at opens
        cases opens
    | ok plain =>
        have nonempty : PyStr.text "y" ≠ .text "" := by decide
        rcases changePassphraseOn_cases [9] 2 9 ⟨none, none, full⟩ nonempty opened
          with ⟨-, raised⟩ | ⟨lasts, -⟩
        · exact raised
        · simp [endures, full, OsAnswers.fails] at lasts
  obtain ⟨e, ended⟩ := refused
  rw [ended]
  refine ⟨by decide, rfl, ?_, ?_⟩
  · change (retrieve .transparent (fun _ => "") ⟨"v", some "y"⟩ "a" file).toOption = none
    decide
  · exact mt atomic_error_iff.mp (by decide)

end Vault

end Tename
