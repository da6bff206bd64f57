/-
  This file defines decimal numerals of natural numbers.

  Key definitions include:
    * `Decimal.digit`
    * `Decimal.digits`
    * `Decimal.text`
    * `Decimal.ofDigits`
-/

namespace DottedRef

namespace Decimal

/- The character of a digit below ten. -/
def digit
    (value : Nat) : Char :=
  Char.ofNat (48 + value)

/-
  The digits of a number, most significant first. Zero has one
  digit and no other number starts with it.
-/
def digits
    (value : Nat) : List Char :=
  if value < 10 then
    [digit value]
  else
    digits (value / 10) ++ [digit (value % 10)]

/- The numeral of a number. -/
def text
    (value : Nat) : String :=
  String.ofList (digits value)

/- The number that a list of digit values writes. -/
def ofDigits
    (values : List Nat) : Nat :=
  values.foldl (fun total value => total * 10 + value) 0

end Decimal

end DottedRef
