import DottedRef.Double.Approximate
import DottedRef.Json.Node
import DottedRef.Json.Read

/-
  This file defines JSON numerals and the numbers they stand
  for. Digits are gathered into a significand of 64 bits; the
  digits that do not fit only scale it.

  Key definitions include:
    * `Json.Exponent`
    * `Json.Numeral`
    * `Json.readNumeral`
    * `Json.absorb`
    * `Json.Numeral.number?`
    * `Json.readNumber`
-/

namespace DottedRef

namespace Json

------------------------------------------------------------
-- Numerals
------------------------------------------------------------

/- The part of a numeral after its `e`. -/
structure Exponent where
  negative : Bool
  digits : List Nat

/-
  A numeral taken apart. A numeral without a point has no
  fraction digits, and one with a point has at least one.
-/
structure Numeral where
  negative : Bool
  whole : List Nat
  fraction : List Nat
  exponent : Option Exponent

/-
  Read the digits before the point. A zero stands there only
  by itself.
-/
def readWhole
    (source : List UInt8) :
    Except Fault (Read source.length (List Nat)) :=
  match source with
  | [] => .error (.here .endInValue [])
  | byte :: rest =>
      match digit? byte with
      | none => .error (.here .invalidNumber rest)
      | some value =>
          if value = 0 then
            if (spanDigits rest).1 = [] then
              .ok ⟨[0], rest, length_lt_cons byte rest⟩
            else
              .error (.next .invalidNumber rest)
          else
            .ok ⟨value :: (spanDigits rest).1,
              (spanDigits rest).2,
              Nat.lt_succ_of_le (length_spanDigits rest)⟩

/- Read a point and the digits after it, if there is one. -/
def readFraction
    (source : List UInt8) :
    Except Fault (Read (source.length + 1) (List Nat)) :=
  match source with
  | [] => .ok ⟨[], [], Nat.lt_succ_self _⟩
  | byte :: rest =>
      if byte = Utf8.ascii '.' then
        match (spanDigits rest).1 with
        | [] =>
            if rest = [] then
              .error (.next .endInValue rest)
            else
              .error (.next .invalidNumber rest)
        | digits =>
            .ok ⟨digits, (spanDigits rest).2,
              Nat.lt_succ_of_lt
                (Nat.lt_succ_of_le (length_spanDigits rest))⟩
      else
        .ok ⟨[], byte :: rest, Nat.lt_succ_self _⟩

/- Read the sign of an exponent, if there is one. -/
def readSign
    (source : List UInt8) :
    Read (source.length + 1) Bool :=
  match source with
  | [] => ⟨false, [], Nat.lt_succ_self _⟩
  | byte :: rest =>
      if byte = Utf8.ascii '+' then
        ⟨false, rest, Nat.lt_succ_of_lt (Nat.lt_succ_self _)⟩
      else if byte = Utf8.ascii '-' then
        ⟨true, rest, Nat.lt_succ_of_lt (Nat.lt_succ_self _)⟩
      else
        ⟨false, byte :: rest, Nat.lt_succ_self _⟩

/- Read an exponent, if there is one. -/
def readExponent
    (source : List UInt8) :
    Except Fault (Read (source.length + 1) (Option Exponent)) :=
  match source with
  | [] => .ok ⟨none, [], Nat.lt_succ_self _⟩
  | byte :: rest =>
      if byte = Utf8.ascii 'e' ∨ byte = Utf8.ascii 'E' then
        let sign := readSign rest
        match hRest : sign.rest with
        | [] => .error (.here .endInValue [])
        | first :: after =>
            match digit? first with
            | none => .error (.here .invalidNumber after)
            | some value =>
                .ok ⟨some ⟨sign.value, value :: (spanDigits after).1⟩,
                  (spanDigits after).2, by
                    have hSign := sign.within
                    have hSpan := length_spanDigits after
                    rw [hRest] at hSign
                    simp only [List.length_cons] at *
                    omega⟩
      else
        .ok ⟨none, byte :: rest, Nat.lt_succ_self _⟩

/- Read a numeral after its sign. -/
def readNumeral
    (negative : Bool)
    (source : List UInt8) :
    Except Fault (Read source.length Numeral) := do
  let whole ← readWhole source
  let fraction ← readFraction whole.rest
  let exponent ← readExponent fraction.rest
  return ⟨⟨negative, whole.value, fraction.value, exponent.value⟩,
    exponent.rest, by
      have hWhole := whole.within
      have hFraction := fraction.within
      have hExponent := exponent.within
      omega⟩

------------------------------------------------------------
-- Numbers
------------------------------------------------------------

/-
  Extend a significand by digits as long as it stays below
  2^64, and return the digits that are left.
-/
def absorb
    (significand : Nat) :
    List Nat → Nat × List Nat
  | [] => (significand, [])
  | value :: digits =>
      if significand * 10 + value < 1 <<< 64 then
        absorb (significand * 10 + value) digits
      else
        (significand, value :: digits)

/-
  The digits that follow the first one with which an exponent
  leaves 31 bits.
-/
def afterOverflow?
    (total : Nat) :
    List Nat → Option (List Nat)
  | [] => none
  | value :: digits =>
      if total * 10 + value < 1 <<< 31 then
        afterOverflow? (total * 10 + value) digits
      else
        some digits

namespace Numeral

/- The significand and the power of ten that scales it. -/
def parts
    (numeral : Numeral) : Nat × Int :=
  let whole := absorb 0 numeral.whole
  let fraction := absorb whole.1 numeral.fraction
  (fraction.1,
    (whole.2.length : Int) -
      (numeral.fraction.length - fraction.2.length : Nat))

/-
  A number with neither point nor exponent. It is whole if it
  fits, except that minus zero is a double.
-/
def wholeNumber
    (negative : Bool)
    (significand : Nat) : Number :=
  if negative then
    if h : significand ≠ 0 ∧ significand ≤ 1 <<< 63 then
      .integer (-(significand : Int)) (by omega)
    else
      .double (-(UInt64.ofNat significand).toFloat)
  else if h : significand < 1 <<< 64 then
    .integer significand (by omega)
  else
    .double (UInt64.ofNat significand).toFloat

/- Zero with a sign, as a double. -/
def signedZero
    (negative : Bool) : Float :=
  if negative then -0.0 else 0.0

/-
  The number that a numeral stands for, unless it is too great
  for a double.
-/
def number?
    (numeral : Numeral) : Option Number :=
  let (significand, power) := numeral.parts
  match numeral.exponent with
  | none =>
      if numeral.fraction = [] ∧ power = 0 then
        some (wholeNumber numeral.negative significand)
      else
        (Double.approximate? numeral.negative significand power).map
          .double
  | some exponent =>
      match afterOverflow? 0 exponent.digits with
      | none =>
          let shift : Int := Decimal.ofDigits exponent.digits
          (Double.approximate? numeral.negative significand
            (if exponent.negative then power - shift
              else power + shift)).map .double
      | some _ =>
          if exponent.negative ∨ significand = 0 then
            some (.double (signedZero numeral.negative))
          else
            none

/-
  The number of digits of a numeral after the place where it
  is found to be too great.
-/
def unread
    (numeral : Numeral) : Nat :=
  match numeral.exponent with
  | none => 0
  | some exponent =>
      match afterOverflow? 0 exponent.digits with
      | none => 0
      | some digits => digits.length

end Numeral

/- Read a number after its sign. -/
def readNumber
    (negative : Bool)
    (source : List UInt8) :
    Except Fault (Read source.length Number) := do
  let numeral ← readNumeral negative source
  match numeral.value.number? with
  | some number =>
      return ⟨number, numeral.rest, numeral.within⟩
  | none =>
      throw ⟨.numberOutOfRange,
        numeral.rest.length + numeral.value.unread, 0⟩

end Json

end DottedRef
