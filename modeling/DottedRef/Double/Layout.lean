import DottedRef.Double.Shortest

/-
  This file defines how the digits of a double are laid out:
  written out in full for ordinary magnitudes, and with an
  exponent for others.

  Key definitions include:
    * `Double.Layout`
    * `Double.positional`
    * `Double.scientific`
    * `Double.Layout.write`
-/

namespace DottedRef

namespace Double

/-
  The range of decimal exponents, of the first digit, that are
  written out in full. Outside it an exponent follows.
-/
structure Layout where
  least : Int
  greatest : Int

/- Zeros to fill places between the digits and the point. -/
def zeros
    (count : Nat) : List Char :=
  List.replicate count '0'

/-
  Write digits in full. There is always at least one digit on
  either side of the point.
-/
def positional
    (digits : List Char)
    (exponent : Int) : List Char :=
  if exponent < 0 then
    '0' :: '.' :: zeros (-exponent - 1).toNat ++ digits
  else
    let whole := exponent.toNat + 1
    if digits.length ≤ whole then
      digits ++ zeros (whole - digits.length) ++ ['.', '0']
    else
      digits.take whole ++ '.' :: digits.drop whole

/-
  Write one digit before the point and then an exponent, which
  always has a sign. A single digit has no point.
-/
def scientific
    (digits : List Char)
    (exponent : Int) : List Char :=
  let fraction :=
    match digits.drop 1 with
    | [] => []
    | rest => '.' :: rest
  let sign := if exponent < 0 then '-' else '+'
  digits.take 1 ++ fraction ++
    'e' :: sign :: Decimal.digits exponent.natAbs

/-
  Write a double with the fewest digits that read back as it.
  The sign of zero is kept, and a number that is not finite
  has no text of its own.
-/
def Layout.write
    (layout : Layout)
    (value : Float) : List Char :=
  let bits := value.toBits
  let sign := if bits.toNat / 1 <<< 63 = 1 then ['-'] else []
  let number := Binary.ofBits bits
  if bits.toNat / 1 <<< 52 % 1 <<< 11 = 2047 then
    ['n', 'u', 'l', 'l']
  else if number.significand = 0 then
    sign ++ ['0', '.', '0']
  else
    let shortest := number.shortest
    let digits := Decimal.digits shortest.digits
    let exponent := shortest.exponent + digits.length - 1
    let kept := (digits.reverse.dropWhile (· = '0')).reverse
    if layout.least ≤ exponent ∧ exponent ≤ layout.greatest then
      sign ++ positional kept exponent
    else
      sign ++ scientific kept exponent

end Double

end DottedRef
