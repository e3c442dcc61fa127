/-!
# Blank characters

The characters that separate words: those with the Unicode property `White_Space`, listed as
ascending inclusive ranges of code points.
-/

namespace StackLang.Text

/-- The code points with the property `White_Space`, as inclusive ranges. -/
def blankRanges : List (Nat × Nat) :=
  [(0x0009, 0x000D), (0x0020, 0x0020), (0x0085, 0x0085), (0x00A0, 0x00A0), (0x1680, 0x1680),
    (0x2000, 0x200A), (0x2028, 0x2029), (0x202F, 0x202F), (0x205F, 0x205F), (0x3000, 0x3000)]

/-- A character is blank when its code point lies in one of `blankRanges`. -/
def isBlank (c : Char) : Bool :=
  blankRanges.any fun range => range.1 ≤ c.toNat && c.toNat ≤ range.2

/-- The ranges of blank characters hold twenty-five code points. -/
example : (blankRanges.map fun range => range.2 - range.1 + 1).sum = 25 := by decide

/-- A character is a blank when its code lies in one of the ranges. -/
theorem isBlank_iff {c : Char} :
    isBlank c = true ↔ ∃ range ∈ blankRanges, range.1 ≤ c.toNat ∧ c.toNat ≤ range.2 := by
  simp [isBlank]

/-- Of the characters below `0x7F` only those up to the space are blank. -/
theorem isBlank_eq_false_of_visible {c : Char} (hlow : 0x20 < c.toNat) (hhigh : c.toNat < 0x7F) :
    isBlank c = false := by
  rw [← Bool.not_eq_true, isBlank_iff]
  rintro ⟨range, hmem, hfrom, hto⟩
  simp only [blankRanges, List.mem_cons, List.not_mem_nil, or_false] at hmem
  rcases hmem with rfl | rfl | rfl | rfl | rfl | rfl | rfl | rfl | rfl | rfl
  all_goals omega

/-- The space character is blank, so words joined by single spaces stay apart. -/
@[simp] theorem isBlank_space : isBlank ' ' = true := by decide

end StackLang.Text
