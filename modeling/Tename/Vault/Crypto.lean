import Mathlib.Data.List.Basic

/-!
# Keys and tokens

PBKDF2 and Fernet are the `cryptography` package's. A token decrypts under the key that
made it; that it does so under no other, or that different passphrases give different
keys, is assumed where it is used. A Fernet token is ASCII text that also depends on a
random vector and the time, which are one draw here.
-/

namespace Tename

inductive VaultExn where
  | vaultError (message : String)
  | vaultLockedError (message : String)
  | vaultCredentialNotFoundError (message : String)
  | vaultConfigurationError (message : String)
  /-- What Python raises on a value of the wrong type. -/
  | other (message : String)
  deriving DecidableEq, Repr

/-- A Python string, for which it matters whether it has an encoding. -/
inductive PyStr where
  | text (text : String)
  /-- The text before a lone surrogate, its distance from U+D800, and the code points after it. -/
  | unencodable (before : String) (surrogate : Fin 0x800) (after : List (Fin 0x110000))
  deriving DecidableEq

instance : Coe String PyStr := ⟨.text⟩

def PyStr.isText : PyStr → Bool
  | .text _ => true
  | .unencodable .. => false

/-- `encode("utf-8")`, by the text that it encodes. -/
def PyStr.encode : PyStr → Except VaultExn String
  | .text s => .ok s
  | .unencodable .. => .error (.other "surrogates not allowed")

/-- A passphrase that keys are derived from: not empty, and with an encoding. -/
def PyStr.proper : PyStr → Bool
  | .text s => s ≠ ""
  | .unencodable .. => false

theorem PyStr.proper_iff {s : PyStr} : s.proper = true ↔ ∃ text, s = .text text ∧ text ≠ "" := by
  cases s <;> simp [proper]

theorem PyStr.isText_iff {s : PyStr} : s.isText = true ↔ ∃ text, s = .text text := by
  cases s <;> simp [isText]

/-- A Python `int`. `True` and `False` are two of them. -/
inductive PyInt where
  | int (n : Int)
  | bool (b : Bool)
  deriving DecidableEq

def PyInt.value : PyInt → Int
  | .int n => n
  | .bool b => if b then 1 else 0

/-- PBKDF2 iteration count. -/
def defaultIterations : PyInt := .int 600000

/-- Parameters needed to re-derive the key. -/
structure KeyParameters where
  salt : List UInt8
  iterations : PyInt
  deriving DecidableEq

/-- The `cryptography` package. -/
structure Crypto where
  Key : Type
  /-- The iteration counts that PBKDF2 takes. -/
  allows : PyInt → Bool
  derive : String → KeyParameters → Key
  encrypt : Key → Nat → String → String
  decrypt : Key → String → Option String
  /-- The token was made with the key, of bytes that are not UTF-8. -/
  garbled : Key → String → Bool
  allows_default : allows defaultIterations = true
  encrypt_ascii : ∀ key draw plaintext,
    ((encrypt key draw plaintext).toList.all fun c => c.val < 128) = true
  decrypt_encrypt : ∀ key draw plaintext, decrypt key (encrypt key draw plaintext) = some plaintext

namespace Crypto

variable (crypto : Crypto)

/-- `derive_key`. -/
def deriveKey (passphrase : PyStr) (params : KeyParameters) : Except VaultExn crypto.Key :=
  if passphrase = .text "" then .error (.vaultLockedError "vault passphrase is empty")
  else if crypto.allows params.iterations then
    passphrase.encode.map fun passphrase => crypto.derive passphrase params
  else .error (.other "invalid iteration count")

/-- `encrypt_value`. -/
def encryptValue (key : crypto.Key) (draw : Nat) (plaintext : PyStr) : Except VaultExn String :=
  plaintext.encode.map (crypto.encrypt key draw)

/-- `decrypt_value`. -/
def decryptValue (key : crypto.Key) (token : String) : Except VaultExn String :=
  if token.toList.all fun c => c.val < 128 then
    match crypto.decrypt key token with
    | some plaintext => .ok plaintext
    | none =>
        if crypto.garbled key token then .error (.other "invalid start byte")
        else .error (.vaultLockedError "vault credential failed authenticated decryption")
  else .error (.other "ordinal not in range(128)")

/-- What has been encrypted is decrypted with its key. -/
theorem decryptValue_encrypt (key : crypto.Key) (draw : Nat) (plaintext : String) :
    crypto.decryptValue key (crypto.encrypt key draw plaintext) = .ok plaintext := by
  rw [decryptValue, if_pos (crypto.encrypt_ascii key draw plaintext), crypto.decrypt_encrypt]

/-- Among some passphrases, a token made with one is refused with another. -/
def Separates (among : String → Prop) : Prop :=
  ∀ passphrase passphrase' params draw plaintext, among passphrase → among passphrase' →
    passphrase ≠ passphrase' →
      let key := crypto.derive passphrase' params
      let token := crypto.encrypt (crypto.derive passphrase params) draw plaintext
      crypto.decrypt key token = none ∧ crypto.garbled key token = false

variable {crypto} in
/-- Nobody can tell a wrong passphrase from a token that was tampered with. -/
theorem Separates.decryptValue {among : String → Prop} (separates : crypto.Separates among)
    {passphrase passphrase' : String} (params : KeyParameters) (draw : Nat) (plaintext : String)
    (mem : among passphrase) (mem' : among passphrase') (other : passphrase ≠ passphrase') :
    crypto.decryptValue (crypto.derive passphrase' params)
        (crypto.encrypt (crypto.derive passphrase params) draw plaintext) =
      .error (.vaultLockedError "vault credential failed authenticated decryption") := by
  obtain ⟨refused, genuine⟩ :=
    separates passphrase passphrase' params draw plaintext mem mem' other
  rw [Crypto.decryptValue, if_pos (crypto.encrypt_ascii _ draw plaintext), refused]
  simp [genuine]

section Transparent

/-- ASCII text, with every other character given by its number, in zeros. -/
def escape : List Char → List Char
  | [] => []
  | c :: text =>
      if c.val < 128 ∧ c ≠ '#' then c :: escape text
      else '#' :: (List.replicate c.toNat '0' ++ '1' :: escape text)

def unescape : Option Nat → List Char → List Char
  | _, [] => []
  | none, c :: rest => if c = '#' then unescape (some 0) rest else c :: unescape none rest
  | some zeros, c :: rest =>
      if c = '1' then .ofNat zeros :: unescape none rest else unescape (some (zeros + 1)) rest

theorem unescape_replicate (zeros n : Nat) (rest : List Char) :
    unescape (some zeros) (List.replicate n '0' ++ '1' :: rest) =
      .ofNat (zeros + n) :: unescape none rest := by
  induction n generalizing zeros with
  | zero => rfl
  | succ n ih =>
      rw [List.replicate_succ, Nat.add_comm n 1, ← Nat.add_assoc]
      exact ih (zeros + 1)

theorem unescape_escape (text : List Char) : unescape none (escape text) = text := by
  induction text with
  | nil => rfl
  | cons c text ih =>
      rw [escape]
      split
      · rename_i plain
        rw [unescape, if_neg plain.2, ih]
      · rw [unescape, if_pos rfl, unescape_replicate, ih, Nat.zero_add, Char.ofNat_toNat]

theorem escape_ascii (text : List Char) : ((escape text).all fun c => c.val < 128) = true := by
  induction text with
  | nil => rfl
  | cons c text ih =>
      rw [escape]
      split
      · rename_i plain
        rw [List.all_cons, ih, Bool.and_true]
        exact decide_eq_true plain.1
      · rw [List.all_cons, List.all_append, List.all_cons, ih, Bool.and_eq_true, Bool.and_eq_true]
        refine ⟨rfl, List.all_eq_true.mpr fun d mem => ?_, rfl⟩
        rw [List.eq_of_mem_replicate mem]
        rfl

/-- A token's header: the characters of its key, each marked, and an end mark. -/
def header : List Char → List Char
  | [] => ['.']
  | c :: key => '+' :: c :: header key

/-- What follows the header of a key, if the token has it. -/
def strip : List Char → List Char → Option (List Char)
  | [], '.' :: rest => some rest
  | k :: key, '+' :: c :: rest => if k = c then strip key rest else none
  | _, _ => none

theorem strip_header (key rest : List Char) : strip key (header key ++ rest) = some rest := by
  induction key with
  | nil => rfl
  | cons c key ih =>
      change (if c = c then strip key (header key ++ rest) else none) = some rest
      rw [if_pos rfl, ih]

theorem strip_other {key key' : List Char} (other : key ≠ key') (rest : List Char) :
    strip key' (header key ++ rest) = none := by
  induction key generalizing key' with
  | nil =>
      cases key' with
      | nil => exact absurd rfl other
      | cons c key' => rfl
  | cons c key ih =>
      cases key' with
      | nil => rfl
      | cons c' key' =>
          change (if c' = c then strip key' (header key ++ rest) else none) = none
          split
          · rename_i same
            subst same
            exact ih fun equal => other (by rw [equal])
          · rfl

/-- Tokens in clear that name their key: the laws hold, and no secret is kept. -/
def transparent : Crypto where
  Key := List Char
  derive passphrase params := passphrase.toList ++ params.salt.map fun b => Char.ofNat b.toNat
  allows n := 0 < n.value
  encrypt key _ plaintext := .ofList (escape (header key ++ plaintext.toList))
  decrypt key token := (strip key (unescape none token.toList)).map .ofList
  garbled _ _ := false
  allows_default := rfl
  encrypt_ascii _ _ _ := by
    rw [String.toList_ofList]
    exact escape_ascii _
  decrypt_encrypt key _ plaintext := by
    rw [String.toList_ofList, unescape_escape, strip_header, Option.map_some,
      String.ofList_toList]

theorem transparent_separates (among : String → Prop) : transparent.Separates among := by
  intro passphrase passphrase' params draw plaintext _ _ other
  have keys : transparent.derive passphrase params ≠ transparent.derive passphrase' params :=
    fun same => other (String.toList_injective (List.append_cancel_right same))
  refine ⟨?_, rfl⟩
  change (strip _ (unescape none (String.ofList _).toList)).map String.ofList = none
  rw [String.toList_ofList, unescape_escape, strip_other keys, Option.map_none]

end Transparent

end Crypto

end Tename
