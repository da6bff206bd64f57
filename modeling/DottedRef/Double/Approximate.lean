/-
  This file defines the double that a decimal is read as. It
  is a product or quotient of two doubles and so not always
  the nearest double to the decimal.

  Key definitions include:
    * `Double.powerOfTen`
    * `Double.scale?`
    * `Double.approximate?`
-/

namespace DottedRef

namespace Double

/- The greatest exponent of a finite power of ten. -/
def greatestPower : Nat :=
  308

/- The double nearest to a power of ten. -/
def powerOfTen
    (exponent : Nat) : Float :=
  Float.ofScientific 1 false exponent

/-
  Multiply a double by a power of ten. Powers that are not
  finite are reached in steps from below, and a number too
  great to be finite has no result.
-/
def scale?
    (value : Float)
    (exponent : Int) : Option Float :=
  if exponent.natAbs ≤ greatestPower then
    if 0 ≤ exponent then
      let product := value * powerOfTen exponent.natAbs
      if product.isInf then none else some product
    else
      some (value / powerOfTen exponent.natAbs)
  else if value == 0 then
    some value
  else if 0 ≤ exponent then
    none
  else
    scale? (value / powerOfTen greatestPower)
      (exponent + greatestPower)
termination_by exponent.natAbs
decreasing_by
  simp only [greatestPower] at *
  omega

/- The double for `significand * 10 ^ exponent` and a sign. -/
def approximate?
    (negative : Bool)
    (significand : Nat)
    (exponent : Int) : Option Float :=
  (scale? (UInt64.ofNat significand).toFloat exponent).map
    fun value => if negative then -value else value

end Double

end DottedRef
