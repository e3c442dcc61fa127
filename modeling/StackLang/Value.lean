import StackLang.Text.Decimal

/-!
# Values

Every value on the stack is an exact rational number in lowest terms with a positive denominator.
An integer is printed without its denominator.
-/

namespace StackLang

/-- An exact rational number. -/
abbrev Value := Rat

namespace Value

/-- The value of the fraction `numerator / denominator`, reduced and with the sign on the
numerator. -/
def ofRatio (numerator denominator : Int) : Value := Rat.divInt numerator denominator

/-- The value of an integer. -/
def ofInt (n : Int) : Value := Rat.ofInt n

/-- Whether a value is a whole number. -/
def isInteger (v : Value) : Bool := v.den == 1

/-- The printed form of a value: `n` for an integer and `n/d` for every other fraction. -/
def text (v : Value) : String :=
  if v.isInteger then Decimal.write v.num
  else Decimal.write v.num ++ "/" ++ v.den.repr

/-- The numerator of an integer is the integer. -/
@[simp] theorem num_ofInt (n : Int) : (ofInt n).num = n := rfl

/-- The denominator of an integer is one. -/
@[simp] theorem den_ofInt (n : Int) : (ofInt n).den = 1 := rfl

/-- An integer is an integer as a value. -/
@[simp] theorem isInteger_ofInt (n : Int) : (ofInt n).isInteger = true := rfl

/-- An integer prints as its numeral. -/
@[simp] theorem text_ofInt (n : Int) : (ofInt n).text = Decimal.write n := rfl

/-- A whole number is the value of its numerator. -/
theorem eq_ofInt_of_isInteger {v : Value} (h : v.isInteger = true) : v = ofInt v.num :=
  Rat.ext rfl (by simpa [isInteger] using h)

end Value

end StackLang
