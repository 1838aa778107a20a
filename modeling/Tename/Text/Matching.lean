import Mathlib.Data.List.Basic
import Mathlib.Data.List.Infix
import Mathlib.Data.List.Perm.Subperm

/-!
# Counting and replacing matches

The matches of a pattern are scanned from left to right, each behind the one before it, as
the string methods of most languages do. A pattern may occur at more positions than the
scan counts: it passes over an occurrence that begins inside a match. The scan finds none
exactly where the pattern does not occur, and two or more exactly where two of the
positions are at least the pattern's length apart.

The empty pattern matches before, between and behind the elements.
-/

namespace Matching

variable {α : Type}

/-- Put an element in front of the first gap. -/
def onFirst (x : α) : List (List α) → List (List α)
  | [] => [[x]]
  | gap :: gaps => (x :: gap) :: gaps

/-- Put the gaps together again, with `new` at the first `n` joints and `old` at the rest. -/
def join (old new : List α) : Nat → List (List α) → List α
  | _, [] => []
  | _, [gap] => gap
  | 0, gap :: gaps => gap ++ old ++ join old new 0 gaps
  | n + 1, gap :: gaps => gap ++ new ++ join old new n gaps

/-- `old` occurs in `text` at `i`. -/
def OccursAt (old text : List α) (i : Nat) : Prop :=
  i ≤ text.length ∧ old <+: text.drop i

/-- `after` is `before` with `new` for `old` at `n` places, and everything else as it was. -/
def Replaced (old new : List α) (n : Nat) (before after : List α) : Prop :=
  ∃ gaps : List (List α), gaps.length = n + 1 ∧
    before = old.intercalate gaps ∧ after = new.intercalate gaps

section Infixes

variable {pattern before after : List α} {x : α}

/-- What does not hold `x` occurs on one of its sides. -/
theorem infix_append_cons_iff (other : x ∉ pattern) :
    pattern <:+: before ++ x :: after ↔ pattern <:+: before ∨ pattern <:+: after := by
  constructor
  · rintro ⟨s, t, whole⟩
    rw [List.append_assoc] at whole
    rcases List.append_eq_append_iff.mp whole with ⟨u, front, rest⟩ | ⟨u, front, rest⟩
    · rcases List.append_eq_append_iff.mp rest with ⟨v, inside, tail⟩ | ⟨v, inside, tail⟩
      · exact .inl ⟨s, v, by rw [front, inside, List.append_assoc]⟩
      · cases v with
        | nil => exact .inl ⟨s, [], by simpa [inside] using front.symm⟩
        | cons y v =>
            obtain ⟨rfl, _⟩ := List.cons.inj tail
            exact absurd (by simp [inside]) other
    · cases u with
      | nil =>
          cases pattern with
          | nil => exact .inl List.nil_infix
          | cons y pattern =>
              obtain ⟨rfl, _⟩ := List.cons.inj rest
              exact absurd List.mem_cons_self other
      | cons y u =>
          obtain ⟨_, tail⟩ := List.cons.inj rest
          exact .inr ⟨u, t, by rw [tail, List.append_assoc]; rfl⟩
  · rintro (left | right)
    · exact left.trans (List.prefix_append _ _).isInfix
    · exact right.trans ((List.suffix_cons x after).trans (List.suffix_append _ _)).isInfix

variable {wall : List α}

/-- A wall that ends in what the pattern does not hold keeps it from what follows. -/
theorem infix_front_iff (ends : ∃ x, x ∈ wall.getLast? ∧ x ∉ pattern)
    (free : ¬ pattern <:+: wall) : pattern <:+: wall ++ after ↔ pattern <:+: after := by
  obtain ⟨x, last, other⟩ := ends
  obtain ⟨front, rfl⟩ := List.getLast?_eq_some_iff.mp last
  rw [List.append_assoc, List.singleton_append, infix_append_cons_iff other]
  have free' : ¬ pattern <:+: front := fun occurs =>
    free (occurs.trans (List.prefix_append front [x]).isInfix)
  exact or_iff_right free'

/-- A wall that begins with what the pattern does not hold keeps it from what is before. -/
theorem infix_back_iff (starts : ∃ x, x ∈ wall.head? ∧ x ∉ pattern)
    (free : ¬ pattern <:+: wall) : pattern <:+: before ++ wall ↔ pattern <:+: before := by
  obtain ⟨x, first, other⟩ := starts
  obtain ⟨back, rfl⟩ := List.head?_eq_some_iff.mp first
  rw [infix_append_cons_iff other]
  have free' : ¬ pattern <:+: back := fun occurs =>
    free (occurs.trans (List.suffix_cons x back).isInfix)
  exact or_iff_left free'

/-- What the pattern does not hold can be left out at the front. -/
theorem infix_skip_front (some' : pattern ≠ []) (other : ∀ x ∈ wall, x ∉ pattern) :
    pattern <:+: wall ++ after ↔ pattern <:+: after := by
  rcases List.eq_nil_or_concat wall with rfl | ⟨front, x, rfl⟩
  · rfl
  · refine infix_front_iff ⟨x, by simp, other x (by simp)⟩ fun occurs => ?_
    obtain ⟨y, mem⟩ := List.exists_mem_of_ne_nil pattern some'
    exact other y (occurs.subset mem) mem

/-- What the pattern does not hold can be left out at the back. -/
theorem infix_skip_back (some' : pattern ≠ []) (other : ∀ x ∈ wall, x ∉ pattern) :
    pattern <:+: before ++ wall ↔ pattern <:+: before := by
  cases wall with
  | nil => rw [List.append_nil]
  | cons x back =>
      refine infix_back_iff ⟨x, rfl, other x List.mem_cons_self⟩ fun occurs => ?_
      obtain ⟨y, mem⟩ := List.exists_mem_of_ne_nil pattern some'
      exact other y (occurs.subset mem) mem

/-- What occurs in two texts with a wall between them occurs in one of the two. -/
theorem infix_wall_iff (starts : ∃ x, x ∈ wall.head? ∧ x ∉ pattern)
    (ends : ∃ x, x ∈ wall.getLast? ∧ x ∉ pattern) (free : ¬ pattern <:+: wall) :
    pattern <:+: before ++ wall ++ after ↔ pattern <:+: before ∨ pattern <:+: after := by
  obtain ⟨x, first, other⟩ := starts
  obtain ⟨back, rfl⟩ := List.head?_eq_some_iff.mp first
  rw [List.append_assoc, List.cons_append, infix_append_cons_iff other]
  cases back with
  | nil => rfl
  | cons y back =>
      have free' : ¬ pattern <:+: y :: back := fun occurs =>
        free (occurs.trans (List.suffix_cons x (y :: back)).isInfix)
      rw [infix_front_iff (by simpa using ends) free']

end Infixes

section Gaps

variable {old new : List α}

theorem length_onFirst {x : α} {gaps : List (List α)} (some' : gaps ≠ []) :
    (onFirst x gaps).length = gaps.length := by
  cases gaps with
  | nil => exact absurd rfl some'
  | cons gap gaps => rfl

theorem intercalate_onFirst (x : α) (gaps : List (List α)) :
    old.intercalate (onFirst x gaps) = x :: old.intercalate gaps := by
  cases gaps with
  | nil => rfl
  | cons gap gaps =>
      cases gaps with
      | nil => rfl
      | cons gap' gaps => simp [onFirst, List.intercalate]

theorem join_eq_intercalate {n : Nat} {gaps : List (List α)} (enough : gaps.length ≤ n + 1) :
    join old new n gaps = new.intercalate gaps := by
  induction gaps generalizing n with
  | nil => simp [join]
  | cons gap gaps ih =>
      cases gaps with
      | nil => simp [join]
      | cons gap' gaps =>
          cases n with
          | zero => simp at enough
          | succ n =>
              rw [join, ih (by simpa using enough)]
              · simp [List.intercalate]
              · simp

theorem occursAt_iff (some' : old ≠ []) {text : List α} {i : Nat} :
    OccursAt old text i ↔ old <+: text.drop i := by
  constructor
  · exact fun h => h.2
  · intro front
    refine ⟨?_, front⟩
    by_contra past
    rw [List.drop_eq_nil_of_le (by omega)] at front
    exact some' (List.prefix_nil.mp front)

theorem occursAt_nil {text : List α} {i : Nat} : OccursAt [] text i ↔ i ≤ text.length := by
  simp [OccursAt]

end Gaps

variable [DecidableEq α]

/-- The gaps between the matches of `old`, behind the first `skip` elements. -/
def scan (old : List α) : Nat → List α → List (List α)
  | _, [] => [[]]
  | 0, x :: xs =>
      if old.isPrefixOf (x :: xs) then [] :: scan old (old.length - 1) xs
      else onFirst x (scan old 0 xs)
  | skip + 1, _ :: xs => scan old skip xs

/-- The gaps before, between and behind the matches of `old`. -/
def gaps (old text : List α) : List (List α) :=
  if old = [] then [] :: text.map ([·]) ++ [[]] else scan old 0 text

/-- `text.count(old)`. -/
def count (old text : List α) : Nat :=
  (gaps old text).length - 1

/-- `text.replace(old, new)`. -/
def replace (old new text : List α) : List α :=
  join old new (count old text) (gaps old text)

/-- `text.replace(old, new, 1)`. -/
def replaceFirst (old new text : List α) : List α :=
  join old new 1 (gaps old text)

instance (old text : List α) (i : Nat) : Decidable (OccursAt old text i) :=
  inferInstanceAs (Decidable (_ ∧ _))

/-- The positions at which `old` occurs, overlapping or not. -/
def positions (old text : List α) : List Nat :=
  (List.range (text.length + 1)).filter fun i => OccursAt old text i

/-- One match is counted, and two positions overlap. -/
example : count "aa".toList "aaa".toList = 1 ∧ positions "aa".toList "aaa".toList = [0, 1] := by
  decide

theorem mem_positions {old text : List α} {i : Nat} :
    i ∈ positions old text ↔ OccursAt old text i := by
  simp only [positions, List.mem_filter, List.mem_range, decide_eq_true_eq]
  constructor
  · exact fun h => h.2
  · intro h
    exact ⟨Nat.lt_succ_of_le h.1, h⟩

section Scan

variable {old : List α}

theorem scan_eq (skip : Nat) (text : List α) :
    scan old skip text = scan old 0 (text.drop skip) := by
  induction text generalizing skip with
  | nil => simp [scan]
  | cons x text ih =>
      cases skip with
      | zero => rfl
      | succ skip => exact ih skip

/-- At a match the scan goes on behind it. -/
theorem scan_of_front {text : List α} (some' : old ≠ []) (front : old <+: text) :
    scan old 0 text = [] :: scan old 0 (text.drop old.length) := by
  cases text with
  | nil => exact absurd (List.prefix_nil.mp front) some'
  | cons x text =>
      have long : old.length ≠ 0 := Nat.ne_of_gt (List.length_pos_of_ne_nil some')
      obtain ⟨n, length⟩ := Nat.exists_eq_succ_of_ne_zero long
      rw [scan, if_pos (List.isPrefixOf_iff_prefix.mpr front), scan_eq, length]
      rfl

theorem scan_of_not_front {x : α} {text : List α} (other : ¬ old <+: x :: text) :
    scan old 0 (x :: text) = onFirst x (scan old 0 text) := by
  rw [scan, if_neg]
  intro front
  exact other (List.isPrefixOf_iff_prefix.mp front)

theorem scan_ne_nil (text : List α) (skip : Nat) : scan old skip text ≠ [] := by
  induction text generalizing skip with
  | nil => simp [scan]
  | cons x text ih =>
      cases skip with
      | zero =>
          unfold scan
          split
          · simp
          · cases scan old 0 text <;> simp [onFirst]
      | succ skip => exact ih skip

/-- The scan takes nothing from the text. -/
theorem intercalate_scan (some' : old ≠ []) (text : List α) :
    old.intercalate (scan old 0 text) = text := by
  induction length : text.length using Nat.strongRecOn generalizing text with
  | _ n ih =>
      subst length
      cases text with
      | nil => rfl
      | cons x text =>
          by_cases front : old <+: x :: text
          · have pos := List.length_pos_of_ne_nil some'
            have shorter : ((x :: text).drop old.length).length < (x :: text).length := by
              rw [List.length_drop, List.length_cons]
              omega
            have rest := ih _ shorter _ rfl
            rw [scan_of_front some' front]
            cases scanned : scan old 0 ((x :: text).drop old.length) with
            | nil => exact absurd scanned (scan_ne_nil _ _)
            | cons gap gaps =>
                rw [scanned] at rest
                calc old.intercalate ([] :: gap :: gaps)
                    = old ++ old.intercalate (gap :: gaps) := by simp [List.intercalate]
                  _ = old ++ (x :: text).drop old.length := by rw [rest]
                  _ = x :: text := List.prefix_iff_eq_append.mp front
          · rw [scan_of_not_front front, intercalate_onFirst, ih _ (by simp) text rfl]

/-- The scan finds a match just in case there is an occurrence. -/
theorem one_lt_scan_iff (some' : old ≠ []) (text : List α) :
    1 < (scan old 0 text).length ↔ ∃ i, old <+: text.drop i := by
  induction text with
  | nil =>
      refine iff_of_false (by simp [scan]) ?_
      rintro ⟨i, front⟩
      exact some' (List.prefix_nil.mp (by simpa using front))
  | cons x text ih =>
      by_cases front : old <+: x :: text
      · refine iff_of_true ?_ ⟨0, front⟩
        have rest := List.length_pos_of_ne_nil
          (show scan old 0 ((x :: text).drop old.length) ≠ [] from scan_ne_nil _ 0)
        rw [scan_of_front some' front, List.length_cons]
        omega
      · rw [scan_of_not_front front, length_onFirst (scan_ne_nil _ _), ih]
        constructor
        · rintro ⟨i, later⟩
          exact ⟨i + 1, later⟩
        · rintro ⟨i, later⟩
          cases i with
          | zero => exact absurd later front
          | succ i => exact ⟨i, later⟩

/-- The scan finds two matches just in case two occurrences do not overlap. -/
theorem two_lt_scan_iff (some' : old ≠ []) (text : List α) :
    2 < (scan old 0 text).length ↔
      ∃ i j, old <+: text.drop i ∧ old <+: text.drop j ∧ i + old.length ≤ j := by
  induction text with
  | nil =>
      refine iff_of_false (by simp [scan]) ?_
      rintro ⟨i, j, front, _⟩
      exact some' (List.prefix_nil.mp (by simpa using front))
  | cons x text ih =>
      by_cases front : old <+: x :: text
      · have counted : 2 < (scan old 0 (x :: text)).length ↔
            1 < (scan old 0 ((x :: text).drop old.length)).length := by
          rw [scan_of_front some' front, List.length_cons]
          omega
        rw [counted, one_lt_scan_iff some']
        constructor
        · rintro ⟨i, later⟩
          rw [List.drop_drop] at later
          exact ⟨0, _, front, later, by omega⟩
        · rintro ⟨i, j, _, later, apart⟩
          refine ⟨j - old.length, ?_⟩
          rw [List.drop_drop, show old.length + (j - old.length) = j by omega]
          exact later
      · rw [scan_of_not_front front, length_onFirst (scan_ne_nil _ _), ih]
        constructor
        · rintro ⟨i, j, first, second, apart⟩
          exact ⟨i + 1, j + 1, first, second, by omega⟩
        · rintro ⟨i, j, first, second, apart⟩
          cases i with
          | zero => exact absurd first front
          | succ i =>
              cases j with
              | zero => omega
              | succ j => exact ⟨i, j, first, second, by omega⟩

end Scan

section Joints

variable (old new text : List α)

theorem gaps_ne_nil : gaps old text ≠ [] := by
  unfold gaps
  split
  · simp
  · exact scan_ne_nil _ _

theorem length_gaps : (gaps old text).length = count old text + 1 := by
  have pos := List.length_pos_of_ne_nil (gaps_ne_nil old text)
  rw [count]
  omega

theorem intercalate_gaps : old.intercalate (gaps old text) = text := by
  unfold gaps
  split
  · rename_i empty
    subst empty
    have flat : ∀ gaps : List (List α), ([] : List α).intercalate gaps = gaps.flatten := by
      intro gaps
      induction gaps with
      | nil => rfl
      | cons gap gaps ih =>
          cases gaps with
          | nil => rfl
          | cons gap' gaps => simpa [List.intercalate] using ih
    rw [flat]
    induction text with
    | nil => rfl
    | cons x text ih => simpa using ih
  · rename_i some'
    exact intercalate_scan some' text

variable {old new text}

theorem replace_eq (old new text : List α) :
    replace old new text = new.intercalate (gaps old text) :=
  join_eq_intercalate (Nat.le_of_eq (length_gaps old text))

theorem replaceFirst_eq (one : count old text = 1) (new : List α) :
    replaceFirst old new text = new.intercalate (gaps old text) :=
  join_eq_intercalate (by rw [length_gaps, one])

/-- Replacing all matches changes the places of the matches and nothing else. -/
theorem replaced_replace (old new text : List α) :
    Replaced old new (count old text) text (replace old new text) :=
  ⟨gaps old text, length_gaps old text, (intercalate_gaps old text).symm, replace_eq old new text⟩

/-- So does replacing the only one. -/
theorem replaced_replaceFirst (one : count old text = 1) (new : List α) :
    Replaced old new 1 text (replaceFirst old new text) :=
  ⟨gaps old text, by rw [length_gaps, one], (intercalate_gaps old text).symm,
    replaceFirst_eq one new⟩

end Joints

section Positions

variable {old text : List α}

theorem count_of_ne_nil (some' : old ≠ []) : count old text = (scan old 0 text).length - 1 := by
  rw [count, gaps, if_neg some']

theorem count_nil (text : List α) : count [] text = text.length + 1 := by
  simp [count, gaps]

theorem count_pos_iff : 0 < count old text ↔ ∃ i, OccursAt old text i := by
  by_cases some' : old = []
  · subst some'
    rw [count_nil]
    exact iff_of_true (by omega) ⟨0, occursAt_nil.mpr (Nat.zero_le _)⟩
  · have scanned := one_lt_scan_iff some' text
    rw [count_of_ne_nil some']
    simp only [occursAt_iff some']
    rw [← scanned]
    omega

/-- Two matches are counted just in case two occurrences do not overlap. -/
theorem one_lt_count_iff : 1 < count old text ↔
    ∃ i j, OccursAt old text i ∧ OccursAt old text j ∧ i < j ∧ i + old.length ≤ j := by
  by_cases some' : old = []
  · subst some'
    rw [count_nil]
    constructor
    · intro long
      exact ⟨0, 1, occursAt_nil.mpr (by omega), occursAt_nil.mpr (by omega), by omega, by simp⟩
    · rintro ⟨i, j, _, fits, apart, _⟩
      have fits := occursAt_nil.mp fits
      omega
  · have scanned := two_lt_scan_iff some' text
    have pos := List.length_pos_of_ne_nil some'
    rw [count_of_ne_nil some']
    simp only [occursAt_iff some']
    constructor
    · intro two
      obtain ⟨i, j, first, second, apart⟩ := scanned.mp (by omega)
      exact ⟨i, j, first, second, by omega, apart⟩
    · rintro ⟨i, j, first, second, _, apart⟩
      have two := scanned.mpr ⟨i, j, first, second, apart⟩
      omega

theorem scan_of_one {old text : List α} (some' : old ≠ []) (one : (scan old 0 text).length = 1) :
    scan old 0 text = [text] := by
  obtain ⟨gap, scanned⟩ := List.length_eq_one_iff.mp one
  have whole := intercalate_scan some' text
  rw [scanned] at whole ⊢
  rw [← whole]
  simp [List.intercalate]

/-- The gaps of a single match. -/
theorem gaps_of_one (one : count old text = 1) :
    ∃ i, OccursAt old text i ∧ gaps old text = [text.take i, text.drop (i + old.length)] := by
  by_cases some' : old = []
  · subst some'
    rw [count_nil] at one
    obtain rfl : text = [] := List.eq_nil_of_length_eq_zero (by omega)
    exact ⟨0, occursAt_nil.mpr (Nat.le_refl _), rfl⟩
  · have two := length_gaps old text
    rw [one] at two
    rw [gaps, if_neg some'] at two ⊢
    clear one
    simp only [occursAt_iff some']
    induction text with
    | nil => simp [scan] at two
    | cons x text ih =>
        by_cases front : old <+: x :: text
        · rw [scan_of_front some' front] at two ⊢
          rw [scan_of_one some' (by simpa using two)]
          exact ⟨0, front, by simp⟩
        · rw [scan_of_not_front front] at two ⊢
          rw [length_onFirst (scan_ne_nil _ _)] at two
          obtain ⟨i, occurs, split⟩ := ih two
          refine ⟨i + 1, occurs, ?_⟩
          rw [split, show i + 1 + old.length = i + old.length + 1 by omega]
          rfl

/-- A single match is replaced where it is. -/
theorem replaceFirst_of_one (one : count old text = 1) : ∃ i, OccursAt old text i ∧
    ∀ new, replaceFirst old new text = text.take i ++ new ++ text.drop (i + old.length) := by
  obtain ⟨i, occurs, split⟩ := gaps_of_one one
  refine ⟨i, occurs, fun new => ?_⟩
  rw [replaceFirst, split]
  rfl

theorem positions_eq_nil_iff : positions old text = [] ↔ count old text = 0 := by
  have found : 0 < count old text ↔ ∃ i, OccursAt old text i := count_pos_iff
  constructor
  · intro none'
    by_contra some'
    obtain ⟨i, occurs⟩ := found.mp (Nat.pos_of_ne_zero some')
    have mem := mem_positions.mpr occurs
    rw [none'] at mem
    cases mem
  · intro none'
    refine List.eq_nil_iff_forall_not_mem.mpr fun i mem => ?_
    have some' := found.mpr ⟨i, mem_positions.mp mem⟩
    omega

theorem one_lt_positions_iff : 1 < (positions old text).length ↔
    ∃ i j, OccursAt old text i ∧ OccursAt old text j ∧ i < j := by
  constructor
  · intro two
    have sorted : (positions old text).Pairwise (· < ·) := List.pairwise_lt_range.filter _
    match found : positions old text, two with
    | i :: j :: rest, _ =>
        rw [found] at sorted
        refine ⟨i, j, mem_positions.mp ?_, mem_positions.mp ?_, ?_⟩
        · simp [found]
        · simp [found]
        · exact List.rel_of_pairwise_cons sorted List.mem_cons_self
  · rintro ⟨i, j, first, second, apart⟩
    have sub : [i, j] ⊆ positions old text := by
      intro k mem
      rcases List.mem_pair.mp mem with rfl | rfl
      · exact mem_positions.mpr first
      · exact mem_positions.mpr second
    have nodup : [i, j].Nodup := by simp; omega
    exact (nodup.subperm sub).length_le

end Positions

end Matching
