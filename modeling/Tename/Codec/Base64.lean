import Mathlib.Data.List.Basic

/-!
# Base64

The standard alphabet with padding, three bytes to four characters. Decoding is
strict: it takes nothing but the alphabet and the padding of the last group. What
has been encoded decodes to the same bytes.
-/

namespace Base64

/-- `A`–`Z`, `a`–`z`, `0`–`9`, `+` and `/`. -/
def alphabet : List Char :=
  "ABCDEFGHIJKLMNOPQRSTUVWXYZabcdefghijklmnopqrstuvwxyz0123456789+/".toList

/-- The character of a six-bit value. -/
def digit (n : Nat) : Char :=
  alphabet.getD n 'A'

/-- The six-bit value of a character. -/
def value? (c : Char) : Option Nat :=
  alphabet.findIdx? (· = c)

def encode : List UInt8 → List Char
  | a :: b :: c :: rest =>
      digit (a.toNat / 4) :: digit (a.toNat % 4 * 16 + b.toNat / 16) ::
        digit (b.toNat % 16 * 4 + c.toNat / 64) :: digit (c.toNat % 64) :: encode rest
  | [a, b] =>
      [digit (a.toNat / 4), digit (a.toNat % 4 * 16 + b.toNat / 16), digit (b.toNat % 16 * 4), '=']
  | [a] => [digit (a.toNat / 4), digit (a.toNat % 4 * 16), '=', '=']
  | [] => []

/-- The bytes of a last group: two or three characters and their padding. -/
def decodeLast (w x y : Char) : Option (List UInt8) := do
  let w ← value? w
  let x ← value? x
  if y = '=' then return [.ofNat (w * 4 + x / 16)]
  let y ← value? y
  return [.ofNat (w * 4 + x / 16), .ofNat (x % 16 * 16 + y / 4)]

def decode : List Char → Option (List UInt8)
  | [] => some []
  | w :: x :: y :: z :: rest =>
      if z = '=' then
        if rest.isEmpty then decodeLast w x y else none
      else do
        let w ← value? w
        let x ← value? x
        let y ← value? y
        let z ← value? z
        let bytes ← decode rest
        return .ofNat (w * 4 + x / 16) :: .ofNat (x % 16 * 16 + y / 4) ::
          .ofNat (y % 4 * 64 + z) :: bytes
  | _ => none

theorem value?_digit_fin : ∀ n : Fin 64, value? (digit n) = some n.val := by
  decide

theorem digit_ne_pad_fin : ∀ n : Fin 64, digit n ≠ '=' := by
  decide +kernel

/-- Every character of the alphabet has its value. -/
theorem value?_digit {n : Nat} (fits : n < 64) : value? (digit n) = some n :=
  value?_digit_fin ⟨n, fits⟩

/-- The padding is no character of the alphabet. -/
theorem digit_ne_pad {n : Nat} (fits : n < 64) : digit n ≠ '=' :=
  digit_ne_pad_fin ⟨n, fits⟩

theorem ofNat_eq {n : Nat} {byte : UInt8} (same : n = byte.toNat) : UInt8.ofNat n = byte := by
  rw [same]
  exact UInt8.ofNat_toNat

/-- Decoding undoes encoding. -/
theorem decode_encode (bytes : List UInt8) : decode (encode bytes) = some bytes := by
  induction bytes using encode.induct with
  | case1 a b c rest ih =>
      have ha := a.toNat_lt
      have hb := b.toNat_lt
      have hc := c.toNat_lt
      have first : value? (digit (a.toNat / 4)) = some (a.toNat / 4) := value?_digit (by omega)
      have second : value? (digit (a.toNat % 4 * 16 + b.toNat / 16)) =
          some (a.toNat % 4 * 16 + b.toNat / 16) := value?_digit (by omega)
      have third : value? (digit (b.toNat % 16 * 4 + c.toNat / 64)) =
          some (b.toNat % 16 * 4 + c.toNat / 64) := value?_digit (by omega)
      have fourth : value? (digit (c.toNat % 64)) = some (c.toNat % 64) := value?_digit (by omega)
      have noPad : digit (c.toNat % 64) ≠ '=' := digit_ne_pad (by omega)
      simp only [encode, decode, if_neg noPad, first, second, third, fourth, ih]
      refine congrArg some (List.cons_eq_cons.mpr ⟨ofNat_eq (by omega),
        List.cons_eq_cons.mpr ⟨ofNat_eq (by omega),
          List.cons_eq_cons.mpr ⟨ofNat_eq (by omega), rfl⟩⟩⟩)
  | case2 a b =>
      have ha := a.toNat_lt
      have hb := b.toNat_lt
      have first : value? (digit (a.toNat / 4)) = some (a.toNat / 4) := value?_digit (by omega)
      have second : value? (digit (a.toNat % 4 * 16 + b.toNat / 16)) =
          some (a.toNat % 4 * 16 + b.toNat / 16) := value?_digit (by omega)
      have third : value? (digit (b.toNat % 16 * 4)) = some (b.toNat % 16 * 4) :=
        value?_digit (by omega)
      have noPad : digit (b.toNat % 16 * 4) ≠ '=' := digit_ne_pad (by omega)
      simp only [encode, decode, if_true, List.isEmpty_nil, decodeLast, if_neg noPad, first, second,
        third]
      refine congrArg some (List.cons_eq_cons.mpr ⟨ofNat_eq (by omega),
        List.cons_eq_cons.mpr ⟨ofNat_eq (by omega), rfl⟩⟩)
  | case3 a =>
      have ha := a.toNat_lt
      have first : value? (digit (a.toNat / 4)) = some (a.toNat / 4) := value?_digit (by omega)
      have second : value? (digit (a.toNat % 4 * 16)) = some (a.toNat % 4 * 16) :=
        value?_digit (by omega)
      simp only [encode, decode, if_true, List.isEmpty_nil, decodeLast, first, second]
      exact congrArg some (List.cons_eq_cons.mpr ⟨ofNat_eq (by omega), rfl⟩)
  | case4 => rfl

end Base64
