import Mathlib.Data.List.TakeWhile

/-!
# White space

The characters that Python takes for white space, and texts without those around them.
-/

namespace Tename

/-- `str.isspace` of one character. -/
def isSpace (c : Char) : Bool :=
  (0x09 ≤ c.toNat ∧ c.toNat ≤ 0x0D) ∨ (0x1C ≤ c.toNat ∧ c.toNat ≤ 0x20) ∨
    c.toNat ∈ [0x85, 0xA0, 0x1680, 0x2028, 0x2029, 0x202F, 0x205F, 0x3000] ∨
    (0x2000 ≤ c.toNat ∧ c.toNat ≤ 0x200A)

/-- `text.strip()`. -/
def strip (text : String) : String :=
  .ofList ((text.toList.dropWhile isSpace).reverse.dropWhile isSpace).reverse

theorem isSpace_far {x : Char} (space : isSpace x = true) : x.toNat ≤ 0x20 ∨ 0x85 ≤ x.toNat := by
  simp only [isSpace, decide_eq_true_eq, List.mem_cons, List.not_mem_nil, or_false] at space
  omega

/-- A text with a character that is no white space is not blank. -/
theorem strip_ne_empty {text : String} {x : Char} (mem : x ∈ text.toList)
    (solid : isSpace x = false) : strip text ≠ "" := by
  intro blank
  have none : ((text.toList.dropWhile isSpace).reverse.dropWhile isSpace).reverse = [] := by
    have same := congrArg String.toList blank
    rwa [strip, String.toList_ofList] at same
  have all := List.dropWhile_eq_nil_iff.mp (List.reverse_eq_nil_iff.mp none)
  have held : x ∈ (text.toList.dropWhile isSpace).reverse := by
    rw [List.mem_reverse]
    rw [← List.takeWhile_append_dropWhile (p := isSpace) (l := text.toList), List.mem_append] at mem
    apply mem.resolve_left
    intro front
    have space := List.all_eq_true.mp List.all_takeWhile x front
    rw [solid] at space
    cases space
  have space := all x held
  rw [solid] at space
  cases space

end Tename
