import Mathlib.Data.List.Forall2
import Mathlib.Data.List.TakeWhile

/-!
# JSON texts

A recogniser of the texts of RFC 8259 whose strings hold no U+0000. Each part of it answers
with what stands behind the text it has recognised, so a container is recognised through its
parts: `Reads` says of a text that it is recognised as a whole, or that nothing is that begins
with it, and there is one rule for each way to write a value.
-/

namespace JsonText

def isSpace (c : Char) : Bool :=
  c = ' ' || c = '\t' || c = '\n' || c = '\r'

def skip (cs : List Char) : List Char :=
  cs.dropWhile isSpace

/-- Digits, one at least. -/
def digits (cs : List Char) : Bool :=
  !cs.isEmpty && cs.all Char.isDigit

def unsigned : List Char → List Char
  | c :: cs => if c = '+' ∨ c = '-' then cs else c :: cs
  | [] => []

/-- An exponent, or nothing. -/
def exponent : List Char → Bool
  | c :: cs => (c = 'e' || c = 'E') && digits (unsigned cs)
  | [] => true

/-- A fraction and an exponent, or one of the two, or nothing. -/
def fraction : List Char → Bool
  | c :: cs =>
      if c = '.' then
        !(cs.takeWhile Char.isDigit).isEmpty && exponent (cs.dropWhile Char.isDigit)
      else exponent (c :: cs)
  | [] => true

/-- A number without a sign. No other digit follows a leading zero. -/
def magnitude : List Char → Bool
  | c :: cs =>
      if c = '0' then fraction cs
      else c.isDigit && fraction (cs.dropWhile Char.isDigit)
  | [] => false

def isNumber : List Char → Bool
  | c :: cs => if c = '-' then magnitude cs else magnitude (c :: cs)
  | [] => false

def numeric (c : Char) : Bool :=
  c.isDigit || c = '-' || c = '+' || c = '.' || c = 'e' || c = 'E'

/-- No number goes on with what follows it in a JSON text. -/
def number (cs : List Char) : Option (List Char) :=
  if isNumber (cs.takeWhile numeric) then some (cs.dropWhile numeric) else none

def isHex (c : Char) : Bool :=
  c.isDigit || ('a' ≤ c && c ≤ 'f') || ('A' ≤ c && c ≤ 'F')

/-- The rest of a string. -/
def text : List Char → Option (List Char)
  | [] => none
  | c :: cs =>
      if c = '"' then some cs
      else if c = '\\' then
        match cs with
        | [] => none
        | e :: cs =>
            if e = 'u' then
              match cs with
              | h₁ :: h₂ :: h₃ :: h₄ :: cs =>
                  if isHex h₁ && isHex h₂ && isHex h₃ && isHex h₄ &&
                    [h₁, h₂, h₃, h₄] ≠ ['0', '0', '0', '0'] then text cs else none
              | _ => none
            else if e ∈ ['"', '\\', '/', 'b', 'f', 'n', 'r', 't'] then text cs
            else none
      else if c.toNat < 32 then none
      else text cs

def literal (word cs : List Char) : Option (List Char) :=
  if word.isPrefixOf cs then some (cs.drop word.length) else none

/-- Items with a comma between them, up to the bracket that closes them. -/
def sequence (item : List Char → Option (List Char)) (close : Char) :
    Nat → List Char → Option (List Char)
  | 0, _ => none
  | n + 1, cs => (item cs).bind fun cs =>
      match skip cs with
      | c :: cs => if c = ',' then sequence item close n cs else if c = close then some cs else none
      | [] => none

/-- The rest of a container. -/
def bracketed (item : List Char → Option (List Char)) (close : Char) (cs : List Char) :
    Option (List Char) :=
  match skip cs with
  | c :: rest => if c = close then some rest else sequence item close cs.length (c :: rest)
  | [] => none

/-- A name and its value. -/
def member (value : List Char → Option (List Char)) (cs : List Char) : Option (List Char) :=
  match skip cs with
  | c :: cs =>
      if c = '"' then (text cs).bind fun cs =>
        match skip cs with
        | c :: cs => if c = ':' then value cs else none
        | [] => none
      else none
  | [] => none

/-- A value, with the containers it may stand in nested `fuel` deep at most. -/
def value : Nat → List Char → Option (List Char)
  | 0, _ => none
  | fuel + 1, cs =>
      match skip cs with
      | [] => none
      | c :: cs =>
          if c = '"' then text cs
          else if c = '[' then bracketed (value fuel) ']' cs
          else if c = '{' then bracketed (member (value fuel)) '}' cs
          else if c = 't' then literal ['r', 'u', 'e'] cs
          else if c = 'f' then literal ['a', 'l', 's', 'e'] cs
          else if c = 'n' then literal ['u', 'l', 'l'] cs
          else number (c :: cs)

/-- A JSON text whose strings hold no U+0000. It is longer than it is nested. -/
def document (cs : List Char) : Bool :=
  match value cs.length cs with
  | some rest => (skip rest).isEmpty
  | none => false

example : document ['[', '1', 'e', '9', ',', ' ', '\x7b', '"', 'a', '"', ':', '0', '\x7d', ']'] =
    true := by decide

section Numbers

variable {cs rest : List Char} {c : Char}

theorem numeric_of_isDigit (digit : c.isDigit = true) : numeric c = true := by
  simp [numeric, digit]

theorem all_numeric_of_digits (all : cs.all Char.isDigit = true) : cs.all numeric = true :=
  List.all_eq_true.mpr fun c mem => numeric_of_isDigit (List.all_eq_true.mp all c mem)

theorem numeric_of_exponent (is : exponent cs = true) : cs.all numeric = true := by
  cases cs with
  | nil => rfl
  | cons c cs =>
      simp only [exponent, digits, Bool.and_eq_true, Bool.or_eq_true, decide_eq_true_eq] at is
      obtain ⟨first, -, all⟩ := is
      have rest : cs.all numeric = true := by
        cases cs with
        | nil => rfl
        | cons c cs =>
            rw [unsigned] at all
            split at all
            · rename_i sign
              rw [List.all_cons, all_numeric_of_digits all, Bool.and_true]
              rcases sign with rfl | rfl <;> decide
            · exact all_numeric_of_digits all
      rw [List.all_cons, rest, Bool.and_true]
      rcases first with rfl | rfl <;> decide

theorem numeric_of_rest (is : (cs.dropWhile Char.isDigit).all numeric = true) :
    cs.all numeric = true := by
  rw [← List.takeWhile_append_dropWhile (p := Char.isDigit) (l := cs), List.all_append, is,
    Bool.and_true]
  exact all_numeric_of_digits List.all_takeWhile

theorem numeric_of_fraction (is : fraction cs = true) : cs.all numeric = true := by
  cases cs with
  | nil => rfl
  | cons c cs =>
      rw [fraction] at is
      split at is
      · rename_i point
        rw [Bool.and_eq_true] at is
        rw [List.all_cons, numeric_of_rest (numeric_of_exponent is.2), point]
        decide
      · exact numeric_of_exponent is

theorem numeric_of_magnitude (is : magnitude cs = true) : cs.all numeric = true := by
  cases cs with
  | nil => cases is
  | cons c cs =>
      rw [magnitude] at is
      split at is
      · rename_i zero
        rw [List.all_cons, numeric_of_fraction is, zero]
        decide
      · rw [Bool.and_eq_true] at is
        rw [List.all_cons, numeric_of_isDigit is.1, numeric_of_rest (numeric_of_fraction is.2)]
        rfl

theorem numeric_of_isNumber (is : isNumber cs = true) : cs.all numeric = true := by
  cases cs with
  | nil => rfl
  | cons c cs =>
      rw [isNumber] at is
      split at is
      · rename_i minus
        rw [List.all_cons, numeric_of_magnitude is, minus]
        decide
      · exact numeric_of_magnitude is

/-- What may follow a value: nothing that a number could go on with. -/
def Delimited (rest : List Char) : Prop :=
  ∀ c ∈ rest.head?, numeric c = false

theorem delimited_nil : Delimited [] := by
  intro c mem
  cases mem

theorem delimited_cons (other : numeric c = false) : Delimited (c :: rest) := by
  intro c' mem
  rwa [← Option.some.inj (Option.mem_def.mp mem)]

/-- The number is as long as it can be. -/
theorem number_append (all : cs.all numeric = true) (delimited : Delimited rest) :
    number (cs ++ rest) = if isNumber cs then some rest else none := by
  have all := List.all_eq_true.mp all
  have none : rest.takeWhile numeric = [] ∧ rest.dropWhile numeric = rest := by
    cases rest with
    | nil => exact ⟨rfl, rfl⟩
    | cons c rest =>
        have other := delimited c rfl
        exact ⟨List.takeWhile_cons_of_neg (by simp [other]),
          List.dropWhile_cons_of_neg (by simp [other])⟩
  rw [number, List.takeWhile_append_of_pos all, List.dropWhile_append_of_pos all, none.1, none.2,
    List.append_nil]

/-- The decimal digits of a positive number do not begin with a zero. -/
theorem toDigits_head {n : Nat} (positive : 0 < n) :
    ∃ c cs, Nat.toDigits 10 n = c :: cs ∧ c ≠ '0' ∧ c.isDigit = true ∧
      cs.all Char.isDigit = true := by
  induction n using Nat.strongRecOn with
  | ind n ih =>
      by_cases small : n < 10
      · refine ⟨n.digitChar, [], Nat.toDigits_of_lt_base small, ?_, ?_, rfl⟩
        · have digit : ∀ m < 10, 0 < m → m.digitChar ≠ '0' := by decide
          exact digit n small positive
        · have digit : ∀ m < 10, m.digitChar.isDigit = true := by decide
          exact digit n small
      · obtain ⟨c, cs, same, first, digit, all⟩ := ih (n / 10) (by omega) (by omega)
        refine ⟨c, cs ++ [(n % 10).digitChar], ?_, first, digit, ?_⟩
        · rw [Nat.toDigits_of_base_le (by decide) (by omega), same]
          rfl
        · have last : ∀ m < 10, m.digitChar.isDigit = true := by decide
          rw [List.all_append, all]
          simp [last (n % 10) (by omega)]

theorem magnitude_toDigits (n : Nat) : magnitude (Nat.toDigits 10 n) = true := by
  rcases Nat.eq_zero_or_pos n with rfl | positive
  · decide
  · obtain ⟨c, cs, same, first, digit, all⟩ := toDigits_head positive
    rw [same, magnitude, if_neg first, digit,
      List.dropWhile_eq_nil_iff.mpr (List.all_eq_true.mp all)]
    rfl

/-- The decimal text of an integer is a number. -/
theorem isNumber_int (n : Int) : isNumber (toString n).toList = true := by
  cases n with
  | ofNat n =>
      change isNumber n.repr.toList = true
      rw [Nat.toList_repr]
      have is := magnitude_toDigits n
      cases same : Nat.toDigits 10 n with
      | nil => exact absurd same Nat.toDigits_ne_nil
      | cons c cs =>
          rw [isNumber, if_neg, ← same]
          · exact is
          · rintro rfl
            have digit := Nat.isDigit_of_mem_toDigits (b := 10) (by decide) (by decide) (n := n)
              (c := '-') (by rw [same]; exact List.mem_cons_self)
            exact absurd digit (by decide)
  | negSucc n =>
      change isNumber ("-" ++ (n + 1).repr).toList = true
      rw [String.toList_append, Nat.toList_repr]
      change isNumber ('-' :: Nat.toDigits 10 (n + 1)) = true
      rw [isNumber, if_pos rfl]
      exact magnitude_toDigits (n + 1)

end Numbers

section Strings

variable {c : Char} {cs : List Char}

theorem text_visible (quote : c ≠ '"') (backslash : c ≠ '\\') (visible : 32 ≤ c.toNat) :
    text (c :: cs) = text cs := by
  rw [text.eq_def]
  dsimp only
  rw [if_neg quote, if_neg backslash, if_neg (Nat.not_lt.mpr visible)]

theorem text_escaped (escapes : c ∈ ['"', '\\', '/', 'b', 'f', 'n', 'r', 't']) :
    text ('\\' :: c :: cs) = text cs := by
  have other : c ≠ 'u' := by
    rintro rfl
    exact absurd escapes (by decide)
  rw [text.eq_def]
  dsimp only
  rw [if_neg (by decide), if_pos rfl, if_neg other, if_pos escapes]

/-- A UTF-16 code unit, which is not that of U+0000. -/
theorem text_unit {h₁ h₂ h₃ h₄ : Char} (hex : ∀ h ∈ [h₁, h₂, h₃, h₄], isHex h = true) :
    text ('\\' :: 'u' :: h₁ :: h₂ :: h₃ :: h₄ :: cs) =
      if [h₁, h₂, h₃, h₄] = ['0', '0', '0', '0'] then none else text cs := by
  simp only [List.forall_mem_cons, List.not_mem_nil, false_implies, implies_true, and_true] at hex
  obtain ⟨hex₁, hex₂, hex₃, hex₄⟩ := hex
  rw [text.eq_def]
  dsimp only
  rw [if_neg (by decide), if_pos rfl, if_pos rfl, hex₁, hex₂, hex₃, hex₄]
  simp only [Bool.and_self, Bool.true_and, decide_eq_true_eq, ne_eq, ite_not]

end Strings

section Containers

variable {fuel : Nat} {t rest cs : List Char} {taken : Bool} {c close : Char}
variable {item : List Char → Option (List Char)} {ts : List (List Char)} {bs : List Bool}

/-- The text is taken as a whole, or nothing is that begins with it. -/
def Takes (p : List Char → Option (List Char)) (t : List Char) (taken : Bool) : Prop :=
  ∀ rest, Delimited rest → p (t ++ rest) = if taken then some rest else none

/-- The text begins with what neither is skipped nor closes a container. -/
def Opens (t : List Char) : Prop :=
  ∃ c cs, t = c :: cs ∧ isSpace c = false ∧ c ≠ ']' ∧ c ≠ '\x7d'

theorem skip_cons (visible : isSpace c = false) : skip (c :: cs) = c :: cs :=
  List.dropWhile_cons_of_neg (by simp [visible])

theorem skip_space : skip (' ' :: cs) = skip cs :=
  List.dropWhile_cons_of_pos (by decide)

theorem Opens.skip (opens : Opens t) : JsonText.skip (t ++ rest) = t ++ rest := by
  obtain ⟨c, cs, rfl, visible, -⟩ := opens
  exact skip_cons visible

/-- The texts with a comma and a space between them. -/
def separated : List (List Char) → List Char :=
  List.intercalate [',', ' ']

theorem separated_singleton (t : List Char) : separated [t] = t := by
  simp [separated]

theorem separated_cons_cons (t t' : List Char) :
    separated (t :: t' :: ts) = t ++ ',' :: ' ' :: separated (t' :: ts) := rfl

theorem length_le_separated (mem : t ∈ ts) : t.length ≤ (separated ts).length := by
  induction ts with
  | nil => cases mem
  | cons t₁ ts ih =>
      cases ts with
      | nil =>
          obtain rfl := List.mem_singleton.mp mem
          simp [separated]
      | cons t₂ ts =>
          rw [separated_cons_cons, List.length_append, List.length_cons, List.length_cons]
          rcases List.mem_cons.mp mem with rfl | mem
          · omega
          · have := ih mem
            omega

theorem count_le_separated (opens : ∀ t ∈ ts, Opens t) : ts.length ≤ (separated ts).length := by
  induction ts with
  | nil => exact Nat.zero_le _
  | cons t₁ ts ih =>
      obtain ⟨c, cs, rfl, -⟩ := opens t₁ List.mem_cons_self
      cases ts with
      | nil => simp [separated]
      | cons t₂ ts =>
          have later := ih fun t mem => opens t (List.mem_cons_of_mem _ mem)
          rw [separated_cons_cons, List.length_append]
          simp only [List.length_cons] at later ⊢
          omega

/-- The brackets that close a container. -/
def Closes (close : Char) : Prop :=
  numeric close = false ∧ isSpace close = false ∧ close ≠ ','

theorem sequence_space (spaces : ∀ cs, item (' ' :: cs) = item cs) (n : Nat) (cs : List Char) :
    sequence item close n (' ' :: cs) = sequence item close n cs := by
  cases n with
  | zero => rfl
  | succ n => rw [sequence, spaces, sequence]

/-- One item after the other, as far as they are taken. -/
theorem sequence_separated (spaces : ∀ cs, item (' ' :: cs) = item cs) (closes : Closes close)
    (taken : List.Forall₂ (Takes item) ts bs) (some' : ts ≠ []) {n : Nat} (fits : ts.length ≤ n) :
    sequence item close n (separated ts ++ close :: rest) =
      if bs.all id then some rest else none := by
  induction taken generalizing n with
  | nil => exact absurd rfl some'
  | @cons t b ts bs first later ih =>
      obtain ⟨n, rfl⟩ := Nat.exists_eq_succ_of_ne_zero (Nat.ne_zero_of_lt fits)
      cases later with
      | nil =>
          rw [separated_singleton, sequence, first _ (delimited_cons closes.1)]
          cases b with
          | false => rfl
          | true =>
              simp only [if_true, Option.bind_some, skip_cons closes.2.1, if_neg closes.2.2]
              rfl
      | @cons t' b' ts bs next later =>
          rw [separated_cons_cons, List.append_assoc, sequence, List.cons_append,
            first _ (delimited_cons (by decide))]
          cases b with
          | false => rfl
          | true =>
              have rest := ih (List.cons_ne_nil _ _) (Nat.le_of_succ_le_succ fits)
              have comma : isSpace ',' = false := by decide
              simp only [if_true, Option.bind_some, skip_cons comma, List.cons_append]
              rw [sequence_space spaces, rest]
              rfl

/-- A container is taken if its items are. -/
theorem bracketed_separated (spaces : ∀ cs, item (' ' :: cs) = item cs) (closes : Closes close)
    (opens : ∀ t ∈ ts, Opens t) (taken : List.Forall₂ (Takes item) ts bs)
    (other : close = ']' ∨ close = '\x7d') :
    bracketed item close (separated ts ++ close :: rest) =
      if bs.all id then some rest else none := by
  cases taken with
  | nil =>
      change bracketed item close (close :: rest) = some rest
      rw [bracketed, skip_cons closes.2.1]
      exact if_pos rfl
  | @cons t b ts bs first later =>
      have fits : (t :: ts).length ≤ (separated (t :: ts) ++ close :: rest).length := by
        have count := count_le_separated opens
        rw [List.length_append]
        omega
      have whole := @sequence_separated rest close item (t :: ts) (b :: bs) spaces closes
        (.cons first later) (List.cons_ne_nil _ _) _ fits
      obtain ⟨c, cs, rfl, visible, inner⟩ := opens t List.mem_cons_self
      have head : ∃ cs', separated ((c :: cs) :: ts) ++ close :: rest = c :: cs' := by
        cases ts with
        | nil => exact ⟨cs ++ close :: rest, by rw [separated_singleton]; rfl⟩
        | cons t ts => exact ⟨_, rfl⟩
      obtain ⟨cs', same⟩ := head
      rw [same] at whole ⊢
      rw [bracketed, skip_cons visible]
      dsimp only
      rw [if_neg, whole]
      rintro rfl
      rcases other with rfl | rfl
      · exact inner.1 rfl
      · exact inner.2 rfl

end Containers

section Values

variable {t k : List Char} {taken : Bool} {ts : List (List Char)} {bs : List Bool}

/-- The text of a value: it is taken as a whole, or nothing is that begins with it. -/
structure Reads (t : List Char) (taken : Bool) : Prop where
  opens : Opens t
  takes : ∀ fuel, t.length ≤ fuel → Takes (value fuel) t taken

/-- The text between the quotes of a string. -/
def ReadsText (k : List Char) (taken : Bool) : Prop :=
  ∀ rest, text (k ++ '"' :: rest) = if taken then some rest else none

theorem value_space (fuel : Nat) (cs : List Char) : value fuel (' ' :: cs) = value fuel cs := by
  cases fuel with
  | zero => rfl
  | succ fuel => rw [value, skip_space, value]

theorem member_space (p : List Char → Option (List Char)) (cs : List Char) :
    member p (' ' :: cs) = member p cs := by
  rw [member, skip_space, member]

theorem closes_bracket : Closes ']' := by
  unfold Closes
  decide

theorem closes_brace : Closes '\x7d' := by
  unfold Closes
  decide

theorem all_of_forall₂ {R : List Char → Bool → Prop} {P : List Char → Prop}
    (imp : ∀ t b, R t b → P t) (all : List.Forall₂ R ts bs) : ∀ t ∈ ts, P t := by
  induction all with
  | nil => simp
  | cons first later ih => exact List.forall_mem_cons.mpr ⟨imp _ _ first, ih⟩

theorem Reads.array (items : List.Forall₂ Reads ts bs) :
    Reads ('[' :: (separated ts ++ [']'])) (bs.all id) := by
  have opens := all_of_forall₂ (fun t b reads => reads.opens) items
  refine ⟨⟨'[', _, rfl, by decide, by decide, by decide⟩, fun fuel fits rest _ => ?_⟩
  obtain ⟨fuel, rfl⟩ := Nat.exists_eq_succ_of_ne_zero (Nat.ne_zero_of_lt fits)
  have short : ∀ t ∈ ts, t.length ≤ fuel := by
    intro t mem
    have part := length_le_separated mem
    rw [List.length_cons, List.length_append] at fits
    omega
  have taken : List.Forall₂ (Takes (value fuel)) ts bs :=
    ((List.forall₂_and_left _ _).mpr ⟨short, items⟩).imp fun t b reads => reads.2.takes fuel reads.1
  have bracket : isSpace '[' = false := by decide
  rw [List.cons_append, value, skip_cons bracket, List.append_assoc]
  exact bracketed_separated (value_space fuel) closes_bracket opens taken (.inl rfl)

/-- The text of a name and its value. -/
def field (k t : List Char) : List Char :=
  '"' :: (k ++ '"' :: ':' :: ' ' :: t)

/-- A member of an object. -/
def ReadsMember (m : List Char) (taken : Bool) : Prop :=
  ∃ k t named valued, m = field k t ∧ ReadsText k named ∧ Reads t valued ∧
    taken = (named && valued)

theorem ReadsMember.takes {m : List Char} {fuel : Nat} (reads : ReadsMember m taken)
    (fits : m.length ≤ fuel) : Takes (member (value fuel)) m taken := by
  obtain ⟨k, t, named, valued, rfl, name, reads, rfl⟩ := reads
  intro rest delimited
  have short : t.length ≤ fuel := by
    simp only [field, List.length_cons, List.length_append] at fits
    omega
  have quote : isSpace '"' = false := by decide
  have colon : isSpace ':' = false := by decide
  have taken := name (':' :: ' ' :: (t ++ rest))
  rw [field, List.cons_append, List.append_assoc, member, skip_cons quote]
  simp only [if_true, List.cons_append, taken]
  cases named with
  | false => rfl
  | true =>
      simp only [if_true, Option.bind_some, skip_cons colon, value_space, Bool.true_and]
      exact reads.takes fuel short rest delimited

theorem Reads.object (members : List.Forall₂ ReadsMember ts bs) :
    Reads ('\x7b' :: (separated ts ++ ['\x7d'])) (bs.all id) := by
  have opens : ∀ m ∈ ts, Opens m := by
    refine all_of_forall₂ ?_ members
    rintro m b ⟨k, t, named, valued, rfl, -⟩
    exact ⟨'"', _, rfl, by decide, by decide, by decide⟩
  refine ⟨⟨'\x7b', _, rfl, by decide, by decide, by decide⟩, fun fuel fits rest _ => ?_⟩
  obtain ⟨fuel, rfl⟩ := Nat.exists_eq_succ_of_ne_zero (Nat.ne_zero_of_lt fits)
  have short : ∀ t ∈ ts, t.length ≤ fuel := by
    intro t mem
    have part := length_le_separated mem
    rw [List.length_cons, List.length_append] at fits
    omega
  have taken : List.Forall₂ (Takes (member (value fuel))) ts bs :=
    ((List.forall₂_and_left _ _).mpr ⟨short, members⟩).imp fun m b reads => reads.2.takes reads.1
  have brace : isSpace '\x7b' = false := by decide
  rw [List.cons_append, value, skip_cons brace, List.append_assoc]
  exact bracketed_separated (member_space _) closes_brace opens taken (.inr rfl)

theorem Reads.string (name : ReadsText k taken) : Reads ('"' :: (k ++ ['"'])) taken := by
  refine ⟨⟨'"', _, rfl, by decide, by decide, by decide⟩, fun fuel fits rest _ => ?_⟩
  obtain ⟨fuel, rfl⟩ := Nat.exists_eq_succ_of_ne_zero (Nat.ne_zero_of_lt fits)
  have quote : isSpace '"' = false := by decide
  rw [List.cons_append, value, skip_cons quote, List.append_assoc]
  exact name rest

theorem Reads.literal {c : Char} {word : List Char}
    (reads : ∀ fuel cs, value (fuel + 1) (c :: cs) = JsonText.literal word cs)
    (opens : isSpace c = false ∧ c ≠ ']' ∧ c ≠ '\x7d') : Reads (c :: word) true := by
  refine ⟨⟨c, word, rfl, opens⟩, fun fuel fits rest _ => ?_⟩
  obtain ⟨fuel, rfl⟩ := Nat.exists_eq_succ_of_ne_zero (Nat.ne_zero_of_lt fits)
  rw [List.cons_append, reads, JsonText.literal, if_pos, List.drop_left]
  · rfl
  · exact List.isPrefixOf_iff_prefix.mpr (List.prefix_append word rest)

theorem reads_null : Reads ['n', 'u', 'l', 'l'] true :=
  .literal (fun _ _ => rfl) (by decide)

theorem reads_true : Reads ['t', 'r', 'u', 'e'] true :=
  .literal (fun _ _ => rfl) (by decide)

theorem reads_false : Reads ['f', 'a', 'l', 's', 'e'] true :=
  .literal (fun _ _ => rfl) (by decide)

/-- What neither is a string nor a container nor a literal is taken for a number. -/
theorem value_number {c : Char} {cs : List Char} (fuel : Nat) (visible : isSpace c = false)
    (other : c ∉ ['"', '[', '\x7b', 't', 'f', 'n']) :
    value (fuel + 1) (c :: cs) = number (c :: cs) := by
  simp only [List.mem_cons, List.not_mem_nil, or_false, not_or] at other
  obtain ⟨quote, bracket, brace, t, f, n⟩ := other
  rw [value, skip_cons visible]
  simp only [if_neg quote, if_neg bracket, if_neg brace, if_neg t, if_neg f, if_neg n]

theorem Reads.number (is : isNumber t = true) : Reads t true := by
  have all := numeric_of_isNumber is
  cases t with
  | nil => cases is
  | cons c cs =>
      have first : numeric c = true := List.all_eq_true.mp all c List.mem_cons_self
      have other {d : Char} (mute : numeric d = false) : c ≠ d := by
        rintro rfl
        rw [first] at mute
        cases mute
      have visible : isSpace c = false := by
        simp [isSpace, other (d := ' ') (by decide), other (d := '\t') (by decide),
          other (d := '\n') (by decide), other (d := '\r') (by decide)]
      refine ⟨⟨c, cs, rfl, visible, other (by decide), other (by decide)⟩, ?_⟩
      intro fuel fits rest delimited
      obtain ⟨fuel, rfl⟩ := Nat.exists_eq_succ_of_ne_zero (Nat.ne_zero_of_lt fits)
      rw [List.cons_append, value_number fuel visible, ← List.cons_append,
        number_append all delimited, is]
      simp [other (d := '"') (by decide), other (d := '[') (by decide),
        other (d := '\x7b') (by decide), other (d := 't') (by decide),
        other (d := 'f') (by decide), other (d := 'n') (by decide)]

/-- The names of the numbers that are none. -/
theorem reads_no_number {c : Char} {cs : List Char} (visible : isSpace c = false)
    (other : c ∉ ['"', '[', '\x7b', 't', 'f', 'n', ']', '\x7d'])
    (none : ∀ rest, JsonText.number (c :: (cs ++ rest)) = none) : Reads (c :: cs) false := by
  simp only [List.mem_cons, List.not_mem_nil, or_false, not_or] at other
  obtain ⟨quote, bracket, brace, t, f, n, bracket', brace'⟩ := other
  refine ⟨⟨c, cs, rfl, visible, bracket', brace'⟩, fun fuel fits rest _ => ?_⟩
  obtain ⟨fuel, rfl⟩ := Nat.exists_eq_succ_of_ne_zero (Nat.ne_zero_of_lt fits)
  rw [List.cons_append, value_number fuel visible, none]
  · rfl
  · simp [quote, bracket, brace, t, f, n]

theorem reads_nan : Reads ['N', 'a', 'N'] false :=
  reads_no_number (by decide) (by decide) fun _ => rfl

theorem reads_infinity : Reads ['I', 'n', 'f', 'i', 'n', 'i', 't', 'y'] false :=
  reads_no_number (by decide) (by decide) fun _ => rfl

theorem reads_negInfinity : Reads ['-', 'I', 'n', 'f', 'i', 'n', 'i', 't', 'y'] false :=
  reads_no_number (by decide) (by decide) fun _ => rfl

/-- The rules of `Reads` decide which texts are JSON texts. -/
theorem Reads.document (reads : Reads t taken) : JsonText.document t = taken := by
  have whole := reads.takes t.length (Nat.le_refl _) [] delimited_nil
  rw [List.append_nil] at whole
  rw [JsonText.document, whole]
  cases taken <;> rfl

end Values

end JsonText
