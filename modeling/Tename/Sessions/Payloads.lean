import Tename.Codec.JsonText
import Tename.Codec.Utf8
import Tename.Proxy.Values
import Tename.Sessions.Service

/-!
# What a caller may pass as a payload

A payload is any Python dict. It is serialised twice: by the check of its size, which keeps
non-ASCII text, and by the driver, which does not. Both take whatever Python can write as
something like JSON; the column takes JSON.
-/

namespace Tename

/-- A code point of a Python string: a character, or a surrogate. -/
inductive PyChar where
  | char (c : Char)
  | surrogate (offset : Fin 0x800)

abbrev PyText := List PyChar

/-- A float by its `repr`. That of a finite one is a number of JSON. -/
inductive PyFloat where
  | finite (repr : List Char) (number : JsonText.isNumber repr = true)
  | nan
  | infinity
  | negInfinity

inductive PyDataKey where
  | str (text : PyText)
  | int (n : Int)
  | float (f : PyFloat)
  | bool (b : Bool)
  | none
  | other (typeName : String)

/-- A value in a payload, as `json.dumps` sees it. -/
inductive PyData where
  | none
  | bool (b : Bool)
  | int (n : Int)
  | float (f : PyFloat)
  | str (text : PyText)
  | list (items : List PyData)
  | tuple (items : List PyData)
  | dict (fields : List (PyDataKey × PyData))
  /-- A container that the value is a part of. -/
  | enclosing
  /-- Anything else. -/
  | other (typeName : String)

/-- A payload, of type `dict[str, Any]`. Nothing checks its keys. -/
abbrev PyDict := List (PyDataKey × PyData)

/-- The name that `json.dumps` gives a float. -/
def PyFloat.text : PyFloat → List Char
  | .finite repr _ => repr
  | .nan => ['N', 'a', 'N']
  | .infinity => ['I', 'n', 'f', 'i', 'n', 'i', 't', 'y']
  | .negInfinity => ['-', 'I', 'n', 'f', 'i', 'n', 'i', 't', 'y']

/-- A character of a JSON string, without `ensure_ascii`. -/
def escapeRaw (c : Char) : List Char :=
  if c = '"' then ['\\', '"']
  else if c = '\\' then ['\\', '\\']
  else if c = '\n' then ['\\', 'n']
  else if c = '\r' then ['\\', 'r']
  else if c = '\t' then ['\\', 't']
  else if c.toNat = 8 then ['\\', 'b']
  else if c.toNat = 12 then ['\\', 'f']
  else if c.toNat < 32 then escapeUnit c.toNat
  else [c]

/-- The code unit of a surrogate. -/
def surrogateUnit (offset : Fin 0x800) : Nat :=
  0xD800 + offset

/-- How `json.dumps` writes the characters of a text, those of strings apart. -/
structure JsonStyle (γ : Type) where
  plain : Char → γ
  escape : PyChar → List γ

/-- `ensure_ascii=True`, the default. -/
def asciiStyle : JsonStyle Char where
  plain := id
  escape
    | .char c => escapeChar c
    | .surrogate offset => escapeUnit (surrogateUnit offset)

/-- `ensure_ascii=False`. -/
def rawStyle : JsonStyle PyChar where
  plain := .char
  escape
    | .char c => (escapeRaw c).map .char
    | .surrogate offset => [.surrogate offset]

namespace JsonStyle

variable {γ : Type} (style : JsonStyle γ)

def text (cs : List Char) : List γ :=
  cs.map style.plain

def quote (t : PyText) : List γ :=
  style.plain '"' :: (t.flatMap style.escape ++ [style.plain '"'])

def field (key : PyText) (value : List γ) : List γ :=
  style.quote key ++ style.text [':', ' '] ++ value

def bracketed (opening closing : Char) (parts : List (List γ)) : List γ :=
  style.plain opening ::
    (List.intercalate (style.text [',', ' ']) parts ++ [style.plain closing])

end JsonStyle

/-- A dict key as JSON has it. -/
def PyDataKey.text : PyDataKey → Except PyError PyText
  | .str t => .ok t
  | .int n => (intText n).map fun digits => digits.toList.map .char
  | .float f => .ok (f.text.map .char)
  | .bool true => .ok (['t', 'r', 'u', 'e'].map .char)
  | .bool false => .ok (['f', 'a', 'l', 's', 'e'].map .char)
  | .none => .ok (['n', 'u', 'l', 'l'].map .char)
  | .other typeName =>
      .error ⟨"TypeError", s!"keys must be str, int, float, bool or None, not {typeName}"⟩

/-- `json.dumps(value)` in a style, with the interpreter's remaining recursion depth. -/
def PyData.dumps {γ : Type} (style : JsonStyle γ) : Nat → PyData → Except PyError (List γ)
  | _, .none => .ok (style.text ['n', 'u', 'l', 'l'])
  | _, .bool true => .ok (style.text ['t', 'r', 'u', 'e'])
  | _, .bool false => .ok (style.text ['f', 'a', 'l', 's', 'e'])
  | _, .int n => (intText n).map fun digits => style.text digits.toList
  | _, .float f => .ok (style.text f.text)
  | _, .str t => .ok (style.quote t)
  | 0, _ => .error recursionError
  | _ + 1, .enclosing => .error ⟨"ValueError", "Circular reference detected"⟩
  | _ + 1, .other typeName =>
      .error ⟨"TypeError", s!"Object of type {typeName} is not JSON serializable"⟩
  | depth + 1, .list items => do
      let texts ← items.mapM (dumps style depth)
      return style.bracketed '[' ']' texts
  | depth + 1, .tuple items => do
      let texts ← items.mapM (dumps style depth)
      return style.bracketed '[' ']' texts
  | depth + 1, .dict fields => do
      let texts ← fields.mapM fun (key, value) => do
        let key ← key.text
        let value ← dumps style depth value
        return style.field key value
      return style.bracketed '\x7b' '\x7d' texts

section Dumps

variable {γ : Type} (style : JsonStyle γ) (depth : Nat)

namespace PyData

theorem dumps_int (n : Int) : (PyData.int n).dumps style depth =
    (intText n).map fun digits => style.text digits.toList := by
  cases depth with
  | zero => rfl
  | succ depth => rfl

theorem dumps_list (items : List PyData) : (PyData.list items).dumps style (depth + 1) =
    (items.mapM (dumps style depth)).map (style.bracketed '[' ']') := by
  change (items.mapM (dumps style depth) >>= fun texts => pure (style.bracketed '[' ']' texts)) = _
  cases items.mapM (dumps style depth) with
  | error e => rfl
  | ok texts => rfl

theorem dumps_tuple (items : List PyData) : (PyData.tuple items).dumps style (depth + 1) =
    (items.mapM (dumps style depth)).map (style.bracketed '[' ']') :=
  dumps_list style depth items

/-- A key and its value. -/
def dumpsField (field : PyDataKey × PyData) : Except PyError (List γ) := do
  let key ← field.1.text
  let value ← dumps style depth field.2
  return style.field key value

theorem dumpsField_ok {style : JsonStyle γ} {depth : Nat} {field : PyDataKey × PyData}
    {t : List γ} : dumpsField style depth field = .ok t ↔ ∃ key value, field.1.text = .ok key ∧
      field.2.dumps style depth = .ok value ∧ style.field key value = t := by
  unfold dumpsField
  constructor
  · intro dumped
    cases named : field.1.text with
    | error e =>
        rw [named] at dumped
        cases dumped
    | ok key =>
        cases valued : field.2.dumps style depth with
        | error e =>
            rw [named, valued] at dumped
            cases dumped
        | ok value =>
            rw [named, valued] at dumped
            exact ⟨key, value, rfl, rfl, Except.ok.inj dumped⟩
  · rintro ⟨key, value, named, valued, rfl⟩
    rw [named, valued]
    rfl

theorem dumps_dict (fields : PyDict) : (PyData.dict fields).dumps style (depth + 1) =
    (fields.mapM (dumpsField style depth)).map (style.bracketed '\x7b' '\x7d') := by
  change (fields.mapM (dumpsField style depth) >>= fun texts =>
    pure (style.bracketed '\x7b' '\x7d' texts)) = _
  cases fields.mapM (dumpsField style depth) with
  | error e => rfl
  | ok texts => rfl

end PyData

end Dumps

namespace PyText

def char? : PyChar → Option Char
  | .char c => some c
  | .surrogate _ => none

/-- Which code points `encode` cannot encode, in the words of its error. -/
def surrogates (t : PyText) : String :=
  let start := (t.takeWhile fun c => (char? c).isSome).length
  match (t.drop start).takeWhile fun c => (char? c).isNone with
  | [.surrogate offset] =>
      let shown := String.ofList (escapeUnit (surrogateUnit offset))
      s!"character '{shown}' in position {start}"
  | run =>
      let last := start + run.length - 1
      s!"characters in position {start}-{last}"

/-- `text.encode("utf-8")`. -/
def encode (t : PyText) : Except PyError (List UInt8) :=
  match t.mapM char? with
  | some cs => .ok (Utf8.encode cs)
  | none =>
      let shown := surrogates t
      .error ⟨"UnicodeEncodeError", s!"'utf-8' codec can't encode {shown}: surrogates not allowed"⟩

end PyText

/-- `except (TypeError, ValueError)`. A `UnicodeEncodeError` is a `ValueError`. -/
def PyError.refuses (e : PyError) : Bool :=
  e.typeName ∈ ["TypeError", "ValueError", "UnicodeEncodeError"]

section Escapes

open JsonText (text isHex text_unit text_escaped text_visible)

variable {cs : List Char}

/-- A code unit is escaped with four digits, and U+0000 alone with four zeros. -/
theorem escapeUnit_eq {n : Nat} (small : n < 0x10000) : ∃ h₁ h₂ h₃ h₄,
    escapeUnit n = ['\\', 'u', h₁, h₂, h₃, h₄] ∧ (∀ h ∈ [h₁, h₂, h₃, h₄], isHex h = true) ∧
      ([h₁, h₂, h₃, h₄] = ['0', '0', '0', '0'] ↔ n = 0) := by
  have digit : ∀ m < 16, isHex m.digitChar = true ∧ (m.digitChar = '0' ↔ m = 0) := by decide
  have hex {m : Nat} (below : m < 16) := (digit m below).1
  have zero {m : Nat} (below : m < 16) := (digit m below).2
  have one {m : Nat} (below : m < 16) : Nat.toDigits 16 m = [m.digitChar] :=
    Nat.toDigits_of_lt_base below
  have more {m : Nat} (above : 16 ≤ m) :
      Nat.toDigits 16 m = Nat.toDigits 16 (m / 16) ++ [(m % 16).digitChar] :=
    Nat.toDigits_of_base_le (by decide) above
  refine ⟨(n / 4096).digitChar, (n / 256 % 16).digitChar, (n / 16 % 16).digitChar,
    (n % 16).digitChar, ?_, ?_, ?_⟩
  · unfold escapeUnit
    dsimp only
    by_cases short : n < 16
    · have zeros : n / 4096 = 0 ∧ n / 256 % 16 = 0 ∧ n / 16 % 16 = 0 ∧ n % 16 = n := by omega
      rw [one short, zeros.1, zeros.2.1, zeros.2.2.1, zeros.2.2.2]
      rfl
    by_cases short₂ : n < 256
    · have zeros : n / 4096 = 0 ∧ n / 256 % 16 = 0 ∧ n / 16 % 16 = n / 16 := by omega
      rw [more (by omega), one (m := n / 16) (by omega), zeros.1, zeros.2.1, zeros.2.2]
      rfl
    by_cases short₃ : n < 4096
    · have zeros : n / 4096 = 0 ∧ n / 256 % 16 = n / 16 / 16 := by omega
      rw [more (by omega), more (m := n / 16) (by omega), one (m := n / 16 / 16) (by omega),
        zeros.1, zeros.2]
      rfl
    · have places : n / 4096 = n / 16 / 16 / 16 ∧ n / 256 % 16 = n / 16 / 16 % 16 := by omega
      rw [more (by omega), more (m := n / 16) (by omega), more (m := n / 16 / 16) (by omega),
        one (m := n / 16 / 16 / 16) (by omega), places.1, places.2]
      rfl
  · simp only [List.forall_mem_cons]
    exact ⟨hex (by omega), hex (by omega), hex (by omega), hex (by omega), by simp⟩
  · simp only [List.cons.injEq, and_true]
    rw [zero (by omega), zero (by omega), zero (by omega), zero (by omega)]
    omega

theorem text_escapeUnit {n : Nat} (small : n < 0x10000) :
    text (escapeUnit n ++ cs) = if n = 0 then none else text cs := by
  obtain ⟨h₁, h₂, h₃, h₄, same, hex, zero⟩ := escapeUnit_eq small
  rw [same]
  refine (text_unit hex).trans ?_
  simp only [zero]
  rfl

/-- The code point is U+0000. -/
def PyChar.isNul : PyChar → Bool
  | .char c => c.toNat = 0
  | .surrogate _ => false

theorem text_escapeChar (c : Char) :
    text (escapeChar c ++ cs) = if c.toNat = 0 then none else text cs := by
  have named {e c : Char} (known : c.toNat ≠ 0)
      (escapes : e ∈ ['"', '\\', '/', 'b', 'f', 'n', 'r', 't']) :
      text (['\\', e] ++ cs) = if c.toNat = 0 then none else text cs := by
    rw [if_neg known]
    exact text_escaped escapes
  unfold escapeChar
  dsimp only
  split
  · rename_i same
    exact named (by rw [same]; decide) (by decide)
  split
  · rename_i same
    exact named (by rw [same]; decide) (by decide)
  split
  · rename_i same
    exact named (by rw [same]; decide) (by decide)
  split
  · rename_i same
    exact named (by rw [same]; decide) (by decide)
  split
  · rename_i same
    exact named (by rw [same]; decide) (by decide)
  split
  · exact named (by omega) (by decide)
  split
  · exact named (by omega) (by decide)
  split
  · rename_i quote backslash _ _ _ _ _ visible
    rw [if_neg (by omega)]
    exact text_visible quote backslash visible.1
  split
  · rename_i small
    exact text_escapeUnit small
  · rename_i large
    have bounded : c.toNat < 0x110000 := by
      rcases c.valid with below | between
      · exact Nat.lt_trans below (by decide)
      · exact between.2
    rw [List.append_assoc, text_escapeUnit (by omega), if_neg (by omega),
      text_escapeUnit (by omega), if_neg (by omega), if_neg (by omega)]

theorem text_escape (c : PyChar) :
    text (asciiStyle.escape c ++ cs) = if c.isNul then none else text cs := by
  cases c with
  | char c => 
      refine (text_escapeChar c).trans ?_
      simp [PyChar.isNul]
  | surrogate offset =>
      have bounded := offset.isLt
      refine (text_escapeUnit (n := surrogateUnit offset) ?_).trans ?_
      · unfold surrogateUnit
        omega
      · rw [if_neg]
        · rfl
        · unfold surrogateUnit
          omega

end Escapes

section Storable

open JsonText (Reads ReadsText ReadsMember)

def PyDataKey.storable : PyDataKey → Bool
  | .str t => t.all fun c => !c.isNul
  | _ => true

mutual

/-- The value holds no NaN, no infinity and no U+0000. -/
def PyData.storable : PyData → Bool
  | .float (.finite ..) => true
  | .float _ => false
  | .str t => t.all fun c => !c.isNul
  | .list items => PyData.itemsStorable items
  | .tuple items => PyData.itemsStorable items
  | .dict fields => PyData.fieldsStorable fields
  | _ => true

def PyData.itemsStorable : List PyData → Bool
  | [] => true
  | item :: items => item.storable && PyData.itemsStorable items

def PyData.fieldsStorable : List (PyDataKey × PyData) → Bool
  | [] => true
  | (key, value) :: fields => (key.storable && value.storable) && PyData.fieldsStorable fields

end

theorem PyData.itemsStorable_eq (items : List PyData) :
    itemsStorable items = (items.map storable).all id := by
  induction items with
  | nil => rw [itemsStorable, List.map_nil, List.all_nil]
  | cons item items ih => rw [itemsStorable, List.map_cons, List.all_cons, ih, id]

theorem PyData.fieldsStorable_eq (fields : List (PyDataKey × PyData)) :
    fieldsStorable fields =
      (fields.map fun field => field.1.storable && field.2.storable).all id := by
  induction fields with
  | nil => rw [fieldsStorable, List.map_nil, List.all_nil]
  | cons field fields ih => rw [fieldsStorable, List.map_cons, List.all_cons, ih, id]

variable {α β ε : Type} {f : α → Except ε β}

theorem forall₂_of_mapM {as : List α} {bs : List β} (mapped : as.mapM f = .ok bs) :
    List.Forall₂ (fun a b => f a = .ok b) as bs := by
  induction as generalizing bs with
  | nil =>
      cases mapped
      exact .nil
  | cons a as ih =>
      rw [List.mapM_cons] at mapped
      cases first : f a with
      | error e =>
          rw [first] at mapped
          cases mapped
      | ok b =>
          cases later : as.mapM f with
          | error e =>
              rw [first, later] at mapped
              cases mapped
          | ok bs' =>
              rw [first, later] at mapped
              cases mapped
              exact .cons first (ih later)

theorem ok_of_mem_mapM {as : List α} {bs : List β} {a : α} (mapped : as.mapM f = .ok bs)
    (mem : a ∈ as) : ∃ b, f a = .ok b := by
  have all := isOk_mapM f as
  rw [mapped] at all
  have ok := List.all_eq_true.mp all.symm a mem
  cases same : f a with
  | error e =>
      rw [same] at ok
      cases ok
  | ok b => exact ⟨b, rfl⟩

theorem ok_of_map {g : β → α} {x : Except ε β} {a : α} (mapped : x.map g = .ok a) :
    ∃ b, x = .ok b ∧ g b = a := by
  cases x with
  | error e => cases mapped
  | ok b => exact ⟨b, rfl, Except.ok.inj mapped⟩

theorem error_of_mapM {as : List α} {e : ε} (raised : as.mapM f = .error e) :
    ∃ a ∈ as, f a = .error e := by
  induction as with
  | nil => cases raised
  | cons a as ih =>
      rw [List.mapM_cons] at raised
      cases first : f a with
      | error e' =>
          rw [first] at raised
          cases raised
          exact ⟨a, List.mem_cons_self, first⟩
      | ok b =>
          cases later : as.mapM f with
          | error e' =>
              rw [first, later] at raised
              cases raised
              obtain ⟨a', mem, same⟩ := ih later
              exact ⟨a', List.mem_cons_of_mem _ mem, same⟩
          | ok bs =>
              rw [first, later] at raised
              cases raised

theorem readsText_quoted (t : PyText) :
    ReadsText (t.flatMap asciiStyle.escape) (t.all fun c => !c.isNul) := by
  intro rest
  induction t with
  | nil =>
      rw [List.flatMap_nil, List.nil_append, JsonText.text.eq_def]
      rfl
  | cons c t ih =>
      rw [List.flatMap_cons, List.append_assoc, text_escape, ih, List.all_cons]
      cases c.isNul <;> rfl

theorem asciiStyle_text (cs : List Char) : asciiStyle.text cs = cs :=
  List.map_id cs

theorem known_of_numeric {c : Char} (numeric : JsonText.numeric c = true) : c.toNat ≠ 0 := by
  intro zero
  obtain rfl : c = '\x00' := Char.toNat_inj.mp zero
  exact absurd numeric (by decide)

theorem known_of_number {cs : List Char} (number : JsonText.isNumber cs = true) :
    ∀ c ∈ cs, c.toNat ≠ 0 := fun c mem =>
  known_of_numeric (List.all_eq_true.mp (JsonText.numeric_of_isNumber number) c mem)

theorem known_of_all {cs : List Char} (all : (cs.all fun c => c.toNat != 0) = true) :
    ∀ c ∈ cs, c.toNat ≠ 0 := by
  intro c mem
  exact bne_iff_ne.mp (List.all_eq_true.mp all c mem)

theorem PyFloat.text_known (f : PyFloat) : ∀ c ∈ f.text, c.toNat ≠ 0 := by
  cases f with
  | finite repr number => exact known_of_number number
  | _ => exact known_of_all rfl

theorem storable_chars {cs : List Char} (known : ∀ c ∈ cs, c.toNat ≠ 0) :
    ((cs.map PyChar.char).all fun c => !c.isNul) = true := by
  rw [List.all_map, List.all_eq_true]
  intro c mem
  simp [PyChar.isNul, known c mem]

theorem intText_number {n : Int} {digits : String} (shown : intText n = .ok digits) :
    JsonText.isNumber digits.toList = true := by
  unfold intText at shown
  split at shown
  · cases shown
    exact JsonText.isNumber_int n
  · cases shown

/-- Only a key that is a string can hold a U+0000. -/
theorem PyDataKey.text_storable {key : PyDataKey} {t : PyText} (shown : key.text = .ok t) :
    (t.all fun c => !c.isNul) = key.storable := by
  cases key with
  | str t' =>
      cases shown
      rfl
  | int n =>
      replace shown : (intText n).map (fun digits => digits.toList.map PyChar.char) = .ok t := shown
      obtain ⟨digits, printed, rfl⟩ := ok_of_map shown
      exact storable_chars (known_of_number (intText_number printed))
  | float f =>
      cases shown
      exact storable_chars f.text_known
  | bool b => cases b <;> cases shown <;> exact storable_chars (known_of_all rfl)
  | none =>
      cases shown
      exact storable_chars (known_of_all rfl)
  | other typeName => cases shown

theorem PyFloat.reads (f : PyFloat) : Reads (asciiStyle.text f.text) (PyData.float f).storable := by
  rw [asciiStyle_text]
  cases f with
  | finite repr number => exact .number number
  | nan => exact JsonText.reads_nan
  | infinity => exact JsonText.reads_infinity
  | negInfinity => exact JsonText.reads_negInfinity

/-- What is no container is a JSON text exactly if it is storable. -/
theorem PyData.scalar_reads {value : PyData} {t : List Char}
    (dumped : value.dumps asciiStyle 0 = .ok t) : Reads t value.storable := by
  cases value with
  | none =>
      cases dumped
      exact JsonText.reads_null
  | bool b =>
      cases b with
      | true =>
          cases dumped
          exact JsonText.reads_true
      | false =>
          cases dumped
          exact JsonText.reads_false
  | int n =>
      rw [dumps_int] at dumped
      obtain ⟨digits, shown, rfl⟩ := ok_of_map dumped
      rw [asciiStyle_text, storable]
      · exact .number (intText_number shown)
      all_goals exact nofun
  | float f =>
      cases dumped
      exact f.reads
  | str text =>
      cases dumped
      rw [storable]
      exact .string (readsText_quoted text)
  | _ => cases dumped

theorem PyData.array_reads {depth : Nat} {items : List PyData} {texts : List (List Char)}
    (ih : ∀ {value t}, dumps asciiStyle depth value = .ok t → Reads t value.storable)
    (mapped : items.mapM (dumps asciiStyle depth) = .ok texts) :
    Reads (asciiStyle.bracketed '[' ']' texts) (itemsStorable items) := by
  rw [itemsStorable_eq]
  refine Reads.array ?_
  rw [List.forall₂_map_right_iff]
  exact ((forall₂_of_mapM mapped).imp fun value t => ih).flip

theorem PyData.field_reads {depth : Nat} {field : PyDataKey × PyData} {t : List Char}
    (ih : ∀ {value t}, dumps asciiStyle depth value = .ok t → Reads t value.storable)
    (dumped : dumpsField asciiStyle depth field = .ok t) :
    ReadsMember t (field.1.storable && field.2.storable) := by
  obtain ⟨key, value, named, valued, rfl⟩ := dumpsField_ok.mp dumped
  refine ⟨key.flatMap asciiStyle.escape, value, field.1.storable, field.2.storable, ?_, ?_,
    ih valued, rfl⟩
  · simp [JsonStyle.field, JsonStyle.quote, JsonStyle.text, JsonText.field, asciiStyle]
  · rw [← PyDataKey.text_storable named]
    exact readsText_quoted key

/-- What the driver writes is a JSON text exactly if the value holds nothing that JSON has not. -/
theorem PyData.dumps_reads {depth : Nat} {value : PyData} {t : List Char}
    (dumped : value.dumps asciiStyle depth = .ok t) : Reads t value.storable := by
  induction depth generalizing value t with
  | zero => exact scalar_reads dumped
  | succ depth ih =>
      cases value with
      | list items =>
          rw [dumps_list] at dumped
          obtain ⟨texts, mapped, rfl⟩ := ok_of_map dumped
          rw [storable]
          exact array_reads ih mapped
      | tuple items =>
          rw [dumps_tuple] at dumped
          obtain ⟨texts, mapped, rfl⟩ := ok_of_map dumped
          rw [storable]
          exact array_reads ih mapped
      | dict fields =>
          rw [dumps_dict] at dumped
          obtain ⟨texts, mapped, rfl⟩ := ok_of_map dumped
          rw [storable, fieldsStorable_eq]
          refine Reads.object ?_
          rw [List.forall₂_map_right_iff]
          exact ((forall₂_of_mapM mapped).imp fun field t => field_reads ih).flip
      | enclosing => cases dumped
      | other typeName => cases dumped
      | bool b => cases b <;> exact scalar_reads dumped
      | _ => exact scalar_reads dumped

end Storable

section Depth

variable {γ δ : Type} {style : JsonStyle γ} {style' : JsonStyle δ} {value : PyData}
variable {depth depth' : Nat} {t : List γ} {e : PyError}

namespace PyData

/-- What is no container is written in every style or in none. -/
theorem scalar_dumps (style' : JsonStyle δ) (depth' : Nat) (dumped : value.dumps style 0 = .ok t) :
    ∃ t', value.dumps style' depth' = .ok t' := by
  cases value with
  | int n =>
      rw [dumps_int] at dumped
      obtain ⟨digits, printed, -⟩ := ok_of_map dumped
      rw [dumps_int, printed]
      exact ⟨_, rfl⟩
  | bool b => cases b <;> cases depth' <;> exact ⟨_, rfl⟩
  | none | float f | str text => cases depth' <;> exact ⟨_, rfl⟩
  | _ => cases dumped

/-- What one style writes, no other fails to write but for its depth. -/
theorem mapM_error {α : Type} {as : List α} {ts : List (List γ)} {f : α → Except PyError (List γ)}
    {f' : α → Except PyError (List δ)} (mapped : as.mapM f = .ok ts)
    (raised : as.mapM f' = .error e)
    (each : ∀ {a t e}, f a = .ok t → f' a = .error e → e = recursionError) :
    e = recursionError := by
  obtain ⟨a, mem, raised⟩ := error_of_mapM raised
  obtain ⟨t, dumped⟩ := ok_of_mem_mapM mapped mem
  exact each dumped raised

theorem error_of_map {α β ε : Type} {x : Except ε α} {g : α → β} {e : ε}
    (raised : x.map g = .error e) : x = .error e := by
  cases x with
  | error e' => exact congrArg Except.error (Except.error.inj raised)
  | ok a => cases raised

/-- Styles differ in their texts, but not in what they refuse. -/
theorem dumps_error (dumped : value.dumps style depth = .ok t)
    (raised : value.dumps style' depth' = .error e) : e = recursionError := by
  induction depth generalizing value t depth' e with
  | zero =>
      obtain ⟨t', same⟩ := scalar_dumps style' depth' dumped
      rw [same] at raised
      cases raised
  | succ depth ih =>
      have scalar (dumped : value.dumps style 0 = .ok t) : e = recursionError := by
        obtain ⟨t', same⟩ := scalar_dumps style' depth' dumped
        rw [same] at raised
        cases raised
      cases value with
      | list items =>
          cases depth' with
          | zero => exact (Except.error.inj raised).symm
          | succ depth' =>
              rw [dumps_list] at dumped raised
              obtain ⟨texts, mapped, -⟩ := ok_of_map dumped
              exact mapM_error mapped (error_of_map raised) ih
      | tuple items =>
          cases depth' with
          | zero => exact (Except.error.inj raised).symm
          | succ depth' =>
              rw [dumps_tuple] at dumped raised
              obtain ⟨texts, mapped, -⟩ := ok_of_map dumped
              exact mapM_error mapped (error_of_map raised) ih
      | dict fields =>
          cases depth' with
          | zero => exact (Except.error.inj raised).symm
          | succ depth' =>
              rw [dumps_dict] at dumped raised
              obtain ⟨texts, mapped, -⟩ := ok_of_map dumped
              refine mapM_error mapped (error_of_map raised) ?_
              intro field t e dumped raised
              obtain ⟨key, text, named, valued, rfl⟩ := dumpsField_ok.mp dumped
              refine @ih field.2 depth' text e valued ?_
              cases valued' : field.2.dumps style' depth' with
              | error e' =>
                  rw [dumpsField, named, valued'] at raised
                  exact raised
              | ok text' =>
                  have written := dumpsField_ok.mpr ⟨key, text', named, valued', rfl⟩
                  rw [written] at raised
                  cases raised
      | enclosing => cases dumped
      | other typeName => cases dumped
      | bool b => cases b <;> exact scalar dumped
      | _ => exact scalar dumped

theorem intText_refuses {n : Int} {e : PyError} (raised : intText n = .error e) :
    e.refuses = true := by
  unfold intText at raised
  split at raised
  · cases raised
  · cases raised
    rfl

theorem keyText_refuses {key : PyDataKey} (raised : key.text = .error e) :
    e.refuses = true := by
  cases key with
  | int n =>
      replace raised : (intText n).map (fun digits => digits.toList.map PyChar.char) = .error e :=
        raised
      exact intText_refuses (error_of_map raised)
  | other typeName =>
      cases raised
      rfl
  | bool b => cases b <;> cases raised
  | _ => cases raised

/-- What `json.dumps` raises is caught, a `RecursionError` apart. -/
theorem dumps_refuses (raised : value.dumps style depth = .error e) :
    e = recursionError ∨ e.refuses = true := by
  induction depth generalizing value e with
  | zero =>
      cases value with
      | int n =>
          rw [dumps_int] at raised
          exact .inr (intText_refuses (error_of_map raised))
      | bool b => cases b <;> cases raised
      | none | float f | str text => cases raised
      | _ => exact .inl (Except.error.inj raised).symm
  | succ depth ih =>
      cases value with
      | int n =>
          rw [dumps_int] at raised
          exact .inr (intText_refuses (error_of_map raised))
      | bool b => cases b <;> cases raised
      | none | float f | str text => cases raised
      | list items =>
          rw [dumps_list] at raised
          obtain ⟨item, -, raised⟩ := error_of_mapM (error_of_map raised)
          exact ih raised
      | tuple items =>
          rw [dumps_tuple] at raised
          obtain ⟨item, -, raised⟩ := error_of_mapM (error_of_map raised)
          exact ih raised
      | dict fields =>
          rw [dumps_dict] at raised
          obtain ⟨field, -, raised⟩ := error_of_mapM (error_of_map raised)
          cases named : field.1.text with
          | error e' =>
              rw [dumpsField, named] at raised
              obtain rfl := Except.error.inj raised
              exact .inr (keyText_refuses named)
          | ok key =>
              cases valued : field.2.dumps style depth with
              | error e' =>
                  rw [dumpsField, named, valued] at raised
                  obtain rfl := Except.error.inj raised
                  exact ih valued
              | ok text =>
                  rw [dumpsField_ok.mpr ⟨key, text, named, valued, rfl⟩] at raised
                  cases raised
      | enclosing =>
          cases raised
          exact .inr rfl
      | other typeName =>
          cases raised
          exact .inr rfl

end PyData

end Depth

end Tename
