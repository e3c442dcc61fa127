/-!
# Decimal numerals

Integers are written in base ten with a minus sign in front of the negative ones and no other
ornament.  Reading is more generous: it takes either sign and any number of leading zeros, so
`readInt?_write` holds while `write` of a read number may be shorter than the text read.
-/

namespace StackLang.Decimal

/-- The number written by a non-empty run of the digits `0` to `9`. -/
def readNat? (digits : List Char) : Option Nat :=
  if digits ≠ [] ∧ digits.all Char.isDigit then some (Nat.ofDigitChars 10 digits 0) else none

/-- The integer written by at most one sign followed by a non-empty run of digits. -/
def readInt? : List Char → Option Int
  | '-' :: digits => (readNat? digits).map fun n => -(n : Int)
  | '+' :: digits => (readNat? digits).map fun n => (n : Int)
  | digits => (readNat? digits).map fun n => (n : Int)

/-- The decimal text of an integer. -/
def write : Int → String
  | .ofNat n => n.repr
  | .negSucc n => "-" ++ (n + 1).repr

/-- A sign in front is read as the sign of the number behind it. -/
@[simp] theorem readInt?_minus (digits : List Char) :
    readInt? ('-' :: digits) = (readNat? digits).map fun n => -(n : Int) := rfl

/-- A plus sign in front changes nothing. -/
@[simp] theorem readInt?_plus (digits : List Char) :
    readInt? ('+' :: digits) = (readNat? digits).map fun n => (n : Int) := rfl

/-- A text that starts with no sign is read as its digits. -/
theorem readInt?_of_head_ne {digits : List Char} (hminus : digits.head? ≠ some '-')
    (hplus : digits.head? ≠ some '+') :
    readInt? digits = (readNat? digits).map fun n => (n : Int) := by
  unfold readInt?
  split <;> simp_all

/-- The digits of a number read back as that number. -/
theorem readNat?_toDigits (n : Nat) : readNat? (Nat.toDigits 10 n) = some n := by
  have hdigits : ∀ c ∈ Nat.toDigits 10 n, c.isDigit = true := fun c hc =>
    Nat.isDigit_of_mem_toDigits (by decide) (by decide) hc
  simp only [readNat?, List.all_eq_true, Nat.ofDigitChars_ten_toDigits]
  rw [if_pos ⟨Nat.toDigits_ne_nil, hdigits⟩]

/-- The digits of a number do not start with a sign. -/
theorem head?_toDigits_ne {n : Nat} {c : Char} (hc : c.isDigit = false) :
    (Nat.toDigits 10 n).head? ≠ some c := by
  intro h
  have hmem := List.mem_of_head? h
  have := Nat.isDigit_of_mem_toDigits (by decide) (by decide) hmem
  simp [hc] at this

/-- What is written reads back as the number that was written. -/
theorem readInt?_write (n : Int) : readInt? (write n).toList = some n := by
  cases n with
  | ofNat n =>
    rw [write, Nat.toList_repr,
      readInt?_of_head_ne (head?_toDigits_ne (by decide)) (head?_toDigits_ne (by decide)),
      readNat?_toDigits]
    rfl
  | negSucc n =>
    rw [write, String.toList_append, Nat.toList_repr]
    show readInt? ('-' :: Nat.toDigits 10 (n + 1)) = _
    rw [readInt?_minus, readNat?_toDigits]
    rfl

/-- Different integers are written differently. -/
theorem write_inj {m n : Int} : write m = write n ↔ m = n := by
  refine ⟨fun h => ?_, fun h => h ▸ rfl⟩
  have hread := readInt?_write m
  rw [h, readInt?_write] at hread
  exact (Option.some.inj hread).symm

end StackLang.Decimal
