import DottedRef.Decimal

/-
  This file finds the shortest decimal that reads back as a
  given binary number. A binary number stands for every real
  closer to it than to its neighbours; of the decimals with
  the fewest digits among those reals the nearest is taken,
  and of two equally near the one with an even last digit.

  Key definitions include:
    * `Double.Binary`
    * `Double.Binary.ofBits`
    * `Double.Scale`
    * `Double.Binary.lowerMargin`
    * `Double.Binary.candidate?`
    * `Double.Shortest`
    * `Double.Binary.shortest`
-/

namespace DottedRef

namespace Double

------------------------------------------------------------
-- Binary Numbers
------------------------------------------------------------

/- The number `significand * 2 ^ exponent`. -/
structure Binary where
  significand : Nat
  exponent : Int

namespace Binary

/-
  The magnitude that the bits of a finite double stand for.
  Subnormal numbers have no hidden bit.
-/
def ofBits
    (bits : UInt64) : Binary :=
  let fraction : Nat := bits.toNat % 1 <<< 52
  let biased : Nat := bits.toNat / 1 <<< 52 % 1 <<< 11
  if biased = 0 then
    ⟨fraction, -1074⟩
  else
    ⟨1 <<< 52 + fraction, (biased : Int) - 1075⟩

/-
  How far the reals that round to a number reach below it, in
  quarters of its last place. Just above a power of two the
  neighbour below is nearer, unless it is subnormal.
-/
def lowerMargin
    (number : Binary) : Nat :=
  if number.significand = 1 <<< 52 ∧ -1074 < number.exponent then
    1
  else
    2

end Binary

------------------------------------------------------------
-- Decimal Grids
------------------------------------------------------------

/-
  Two whole numbers whose quotient is the ratio of a quarter
  of a number's last place to a power of ten, so that both are
  compared without fractions.
-/
structure Scale where
  quarter : Nat
  grid : Nat

/- The scale for the power of ten with a given exponent. -/
def Binary.scale
    (number : Binary)
    (power : Int) : Scale :=
  let twos := number.exponent - 2
  ⟨1 <<< twos.toNat * Nat.pow 10 (-power).toNat,
    1 <<< (-twos).toNat * Nat.pow 10 power.toNat⟩

/-
  The multiple of a power of ten that is nearest to a number,
  among those that round to the number. A bound belongs to the
  number only if its significand is even.
-/
def Binary.candidate?
    (number : Binary)
    (power : Int) : Option Nat :=
  let scale := number.scale power
  let value := number.significand * 4 * scale.quarter
  let low :=
    (number.significand * 4 - number.lowerMargin) * scale.quarter
  let high := (number.significand * 4 + 2) * scale.quarter
  let even := number.significand % 2 = 0
  let down := value / scale.grid
  let up := down + 1
  let fits (multiple : Nat) : Bool :=
    0 < multiple &&
      (low < multiple * scale.grid ||
        even && low = multiple * scale.grid) &&
      (multiple * scale.grid < high ||
        even && multiple * scale.grid = high)
  let below := value - down * scale.grid
  let above := up * scale.grid - value
  if fits down && fits up then
    if below < above || below = above && down % 2 = 0 then
      some down
    else
      some up
  else if fits down then
    some down
  else if fits up then
    some up
  else
    none

/-
  The exponent of the power of ten at or below a positive
  number.
-/
def Binary.magnitude
    (number : Binary) : Int :=
  let one := number.scale 0
  let value := number.significand * 4 * one.quarter
  let guess : Int :=
    (Decimal.digits value).length - (Decimal.digits one.grid).length
  let scale := number.scale guess
  if scale.grid ≤ number.significand * 4 * scale.quarter then
    guess
  else
    guess - 1

------------------------------------------------------------
-- Shortest Decimals
------------------------------------------------------------

/- The number `digits * 10 ^ exponent`. -/
structure Shortest where
  digits : Nat
  exponent : Int

/-
  The shortest decimal of a positive number. Seventeen digits
  always suffice for a double.
-/
def Binary.shortest
    (number : Binary) : Shortest :=
  let magnitude := number.magnitude
  let attempt (count : Nat) : Option Shortest :=
    let power := magnitude - count + 1
    (number.candidate? power).map fun digits => ⟨digits, power⟩
  ((List.range' 1 17).findSome? attempt).getD ⟨0, 0⟩

end Double

end DottedRef
