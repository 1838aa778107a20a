import Mathlib.Algebra.GroupWithZero.Nat
import Mathlib.Data.List.Basic

/-!
# UTF-8 and the replacement of what is not

Encoding is the concatenation of the characters' encodings. Decoding never fails: a
maximal part of an encoding that is not completed becomes one replacement character,
and so does a byte that begins none.

The weight of bytes is additive, an encoding keeps the weight of what it decodes to, and a
replaced part weighs less than the replacement. So bytes that are not UTF-8 gain weight
when they are decoded and encoded again, whatever else happens to them.
-/

namespace Utf8

def encode (text : List Char) : List UInt8 :=
  text.flatMap String.utf8EncodeChar

/-- The character whose encoding the bytes begin with. -/
def decodeChar? (bytes : List UInt8) : Option Char :=
  bytes.toByteArray.utf8DecodeChar? 0

/-- A byte that goes on with a character. -/
def continues (b : UInt8) : Bool :=
  0x80 ≤ b ∧ b ≤ 0xBF

/-- `b` may stand behind the first byte `lead` of a character of at least three bytes. -/
def follows (lead b : UInt8) : Bool :=
  (lead = 0xE0 ∧ 0xA0 ≤ b ∧ b ≤ 0xBF) ∨ (lead = 0xED ∧ 0x80 ≤ b ∧ b ≤ 0x9F) ∨
    (lead = 0xF0 ∧ 0x90 ≤ b ∧ b ≤ 0xBF) ∨ (lead = 0xF4 ∧ 0x80 ≤ b ∧ b ≤ 0x8F) ∨
    ((0xE1 ≤ lead ∧ lead ≤ 0xEC ∨ 0xEE ≤ lead ∧ lead ≤ 0xEF ∨ 0xF1 ≤ lead ∧ lead ≤ 0xF3) ∧
      continues b)

/-- The length of the part that one replacement stands for, where the bytes begin with no
character: as far as they are the beginning of one, and one byte at least. -/
def invalidWidth : List UInt8 → Nat
  | lead :: b :: bytes =>
      if follows lead b then
        if 0xF0 ≤ lead then
          match bytes with
          | b' :: _ => if continues b' then 3 else 2
          | [] => 2
        else 2
      else 1
  | _ => 1

def replacement : Char := '\uFFFD'

/-- The next character, and the number of bytes it stands for. -/
def decodeNext (bytes : List UInt8) : Char × Nat :=
  match decodeChar? bytes with
  | some c => (c, c.utf8Size)
  | none => (replacement, invalidWidth bytes)

/-- Decode behind the first `skip` bytes. -/
def decodeFrom : Nat → List UInt8 → List Char
  | _, [] => []
  | 0, b :: bytes =>
      (decodeNext (b :: bytes)).1 :: decodeFrom ((decodeNext (b :: bytes)).2 - 1) bytes
  | skip + 1, _ :: bytes => decodeFrom skip bytes

/-- `bytes.decode("utf-8", errors="replace")`. -/
def decodeReplace (bytes : List UInt8) : List Char :=
  decodeFrom 0 bytes

/-- The bytes are the encoding of a text. -/
def IsUtf8 (bytes : List UInt8) : Prop :=
  ∃ text, encode text = bytes

@[simp] theorem encode_nil : encode [] = [] := rfl

@[simp] theorem encode_cons (c : Char) (text : List Char) :
    encode (c :: text) = String.utf8EncodeChar c ++ encode text := rfl

@[simp] theorem encode_append (text text' : List Char) :
    encode (text ++ text') = encode text ++ encode text' :=
  List.flatMap_append

theorem encode_intercalate (sep : List Char) (texts : List (List Char)) :
    encode (sep.intercalate texts) = (encode sep).intercalate (texts.map encode) := by
  induction texts with
  | nil => rfl
  | cons text texts ih =>
      cases texts with
      | nil => simp
      | cons text' texts =>
          rw [List.intercalate_cons_cons, List.map_cons, List.map_cons,
            List.intercalate_cons_cons, encode_append, encode_append, ih, List.map_cons]

section Decoding

variable {bytes : List UInt8} {c : Char}

theorem decodeChar?_encode (c : Char) (rest : List UInt8) :
    decodeChar? (String.utf8EncodeChar c ++ rest) = some c := by
  rw [decodeChar?, List.toByteArray_append]
  exact ByteArray.utf8DecodeChar?_utf8EncodeChar_append

/-- A decoded character is encoded at the front. -/
theorem eq_append_of_decodeChar? (decoded : decodeChar? bytes = some c) :
    bytes = String.utf8EncodeChar c ++ bytes.drop c.utf8Size := by
  obtain ⟨rest, front⟩ := ByteArray.exists_of_utf8DecodeChar?_eq_some decoded
  have listed : bytes = String.utf8EncodeChar c ++ rest.data.toList := by
    have data := congrArg (fun b => b.data.toList) front
    simpa using data
  have length := String.length_utf8EncodeChar c
  rw [listed, List.drop_left' length]

theorem decodeFrom_eq (skip : Nat) (bytes : List UInt8) :
    decodeFrom skip bytes = decodeReplace (bytes.drop skip) := by
  induction bytes generalizing skip with
  | nil => simp [decodeReplace, decodeFrom]
  | cons b bytes ih =>
      cases skip with
      | zero => rfl
      | succ skip => exact ih skip

theorem invalidWidth_pos (bytes : List UInt8) : 0 < invalidWidth bytes := by
  unfold invalidWidth
  split
  · split
    · split
      · split
        · split <;> simp
        · simp
      · simp
    · simp
  · simp

theorem decodeNext_pos (bytes : List UInt8) : 0 < (decodeNext bytes).2 := by
  unfold decodeNext
  split
  · exact Char.utf8Size_pos _
  · exact invalidWidth_pos bytes

/-- Decoding goes on behind the next character. -/
theorem decodeReplace_eq_cons (some' : bytes ≠ []) :
    decodeReplace bytes =
      (decodeNext bytes).1 :: decodeReplace (bytes.drop (decodeNext bytes).2) := by
  cases bytes with
  | nil => exact absurd rfl some'
  | cons b bytes =>
      obtain ⟨n, width⟩ := Nat.exists_eq_succ_of_ne_zero
        (Nat.ne_of_gt (decodeNext_pos (b :: bytes)))
      rw [decodeReplace, decodeFrom, decodeFrom_eq, width]
      rfl

/-- What has been encoded decodes to the same text. -/
theorem decodeReplace_encode (text : List Char) : decodeReplace (encode text) = text := by
  induction text with
  | nil => rfl
  | cons c text ih =>
      have next : decodeNext (encode (c :: text)) = (c, c.utf8Size) := by
        rw [decodeNext, encode_cons, decodeChar?_encode]
      have some' : encode (c :: text) ≠ [] := by
        simp
      rw [decodeReplace_eq_cons some', next, encode_cons,
        List.drop_left' (String.length_utf8EncodeChar c), ih]

/-- A character cut off, a byte that begins none, and a form too long. -/
example : decodeReplace [0x41, 0xF0, 0x9F, 0x98, 0xFF, 0xC3, 0xA9, 0xE0, 0x80] =
    ['A', replacement, replacement, 'é', replacement, replacement] := by
  decide

end Decoding

section Weight

/-- Bytes that begin a character of four bytes weigh nothing, every other one. -/
def weight (bytes : List UInt8) : Nat :=
  bytes.countP (· < 0xF0)

@[simp] theorem weight_append (bytes bytes' : List UInt8) :
    weight (bytes ++ bytes') = weight bytes + weight bytes' :=
  List.countP_append

theorem weight_intercalate (sep : List UInt8) (parts : List (List UInt8)) :
    weight (sep.intercalate parts) = (parts.map weight).sum + (parts.length - 1) * weight sep := by
  induction parts with
  | nil => simp [weight]
  | cons part parts ih =>
      cases parts with
      | nil => simp
      | cons part' parts =>
          rw [List.intercalate_cons_cons, weight_append, weight_append, ih]
          simp only [List.map_cons, List.sum_cons, List.length_cons, Nat.add_sub_cancel]
          rw [Nat.add_mul, Nat.one_mul]
          omega

variable {bytes : List UInt8}

theorem weight_le_length (bytes : List UInt8) : weight bytes ≤ bytes.length :=
  List.countP_le_length

/-- A replaced part weighs less than the replacement. -/
theorem weight_take_invalidWidth (bytes : List UInt8) :
    weight (bytes.take (invalidWidth bytes)) ≤ 2 := by
  have short : ∀ n ≤ 2, weight (bytes.take n) ≤ 2 := by
    intro n le
    apply Nat.le_trans (weight_le_length _)
    rw [List.length_take]
    omega
  unfold invalidWidth
  split
  · rename_i lead b rest
    split
    · split
      · rename_i four
        have light : ¬ lead < 0xF0 := UInt8.not_lt.mpr four
        split
        · rename_i b' rest'
          split
          · have counted : weight [lead, b, b'] = weight [b, b'] := by
              simp [weight, List.countP_cons, light]
            change weight [lead, b, b'] ≤ 2
            rw [counted]
            exact weight_le_length _
          · exact short 2 (by omega)
        · exact short 2 (by omega)
      · exact short 2 (by omega)
    · exact short 1 (by omega)
  · exact short 1 (by omega)

theorem weight_replacement : weight (String.utf8EncodeChar replacement) = 3 := by decide

/-- Decoding and encoding again never loses weight, and keeps it for UTF-8 only. -/
theorem weight_le (bytes : List UInt8) :
    weight bytes ≤ weight (encode (decodeReplace bytes)) ∧
      (weight bytes = weight (encode (decodeReplace bytes)) →
        encode (decodeReplace bytes) = bytes) := by
  induction length : bytes.length using Nat.strongRecOn generalizing bytes with
  | _ n ih =>
      subst length
      by_cases some' : bytes = []
      · subst some'
        exact ⟨Nat.le_refl _, fun _ => rfl⟩
      · have shorter : (bytes.drop (decodeNext bytes).2).length < bytes.length := by
          have pos := decodeNext_pos bytes
          have long := List.length_pos_of_ne_nil some'
          rw [List.length_drop]
          omega
        obtain ⟨le, same⟩ := ih _ shorter _ rfl
        rw [decodeReplace_eq_cons some', encode_cons, weight_append]
        cases decoded : decodeChar? bytes with
        | some c =>
            have next : decodeNext bytes = (c, c.utf8Size) := by
              rw [decodeNext, decoded]
            rw [next] at le same ⊢
            dsimp only at le same ⊢
            have split := eq_append_of_decodeChar? decoded
            have whole := congrArg weight split
            rw [weight_append] at whole
            refine ⟨by omega, fun kept => ?_⟩
            rw [same (by omega)]
            exact split.symm
        | none =>
            have next : decodeNext bytes = (replacement, invalidWidth bytes) := by
              rw [decodeNext, decoded]
            rw [next] at le same ⊢
            dsimp only at le same ⊢
            have light := weight_take_invalidWidth bytes
            have whole := congrArg weight (List.take_append_drop (invalidWidth bytes) bytes)
            rw [weight_append] at whole
            have heavy := weight_replacement
            exact ⟨by omega, fun kept => by omega⟩

theorem isUtf8_iff : IsUtf8 bytes ↔ encode (decodeReplace bytes) = bytes := by
  constructor
  · rintro ⟨text, rfl⟩
    rw [decodeReplace_encode]
  · intro same
    exact ⟨_, same⟩

theorem isUtf8_iff_weight :
    IsUtf8 bytes ↔ weight bytes = weight (encode (decodeReplace bytes)) := by
  rw [isUtf8_iff]
  constructor
  · intro same
    rw [same]
  · exact (weight_le bytes).2

instance : DecidablePred IsUtf8 := fun _ => decidable_of_iff _ isUtf8_iff.symm

end Weight

end Utf8
