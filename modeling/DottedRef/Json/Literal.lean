import DottedRef.Json.Read
import DottedRef.Utf8

/-
  This file reads JSON strings. The bytes of a string are
  gathered first, with its escapes replaced, and have to be
  well-formed UTF-8 as a whole.

  Key definitions include:
    * `Json.hexDigit?`
    * `Json.readHex`
    * `Json.readCodePoint`
    * `Json.readEscape`
    * `Json.readContents`
    * `Json.readString`
-/

namespace DottedRef

namespace Json

------------------------------------------------------------
-- Escapes
------------------------------------------------------------

/- The value of a hexadecimal digit of either case. -/
def hexDigit?
    (byte : UInt8) : Option Nat :=
  let b := byte.toNat
  if 0x30 ≤ b ∧ b ≤ 0x39 then some (b - 0x30)
  else if 0x41 ≤ b ∧ b ≤ 0x46 then some (b - 0x37)
  else if 0x61 ≤ b ∧ b ≤ 0x66 then some (b - 0x57)
  else none

/- The value of four hexadecimal digits. -/
def hex?
    (a b c d : UInt8) : Option Nat := do
  let a ← hexDigit? a
  let b ← hexDigit? b
  let c ← hexDigit? c
  let d ← hexDigit? d
  return ((a * 16 + b) * 16 + c) * 16 + d

/- Read four hexadecimal digits. -/
def readHex
    (source : List UInt8) :
    Except Fault (Read source.length Nat) :=
  match source with
  | a :: b :: c :: d :: rest =>
      match hex? a b c d with
      | some value =>
          .ok ⟨value, rest, by simp only [List.length_cons]; omega⟩
      | none => .error (.here .invalidEscape rest)
  | _ => .error (.here .endInString [])

/- Read one given byte of a pair of surrogate escapes. -/
def readPairByte
    (expected : UInt8)
    (source : List UInt8) :
    Except Fault (Read source.length Unit) :=
  match source with
  | [] => .error (.here .endInString [])
  | byte :: rest =>
      if byte = expected then
        .ok ⟨(), rest, length_lt_cons byte rest⟩
      else
        .error (.here .brokenSurrogatePair rest)

/- Whether a value is the first of a surrogate pair. -/
def isLeading
    (value : Nat) : Bool :=
  0xD800 ≤ value && value ≤ 0xDBFF

/- Whether a value is the second of a surrogate pair. -/
def isTrailing
    (value : Nat) : Bool :=
  0xDC00 ≤ value && value ≤ 0xDFFF

/-
  Read a code point after `\u`. Surrogates stand for a code
  point only as a pair of two escapes.
-/
def readCodePoint
    (source : List UInt8) :
    Except Fault (Read source.length Nat) := do
  let first ← readHex source
  if isTrailing first.value then
    throw (.here .loneSurrogate first.rest)
  else if isLeading first.value then
    let slash ← readPairByte (Utf8.ascii '\\') first.rest
    let letter ← readPairByte (Utf8.ascii 'u') slash.rest
    let second ← readHex letter.rest
    if isTrailing second.value then
      return ⟨0x10000 + (first.value - 0xD800) * 0x400 +
          (second.value - 0xDC00),
        second.rest, by
          have hFirst := first.within
          have hSlash := slash.within
          have hLetter := letter.within
          have hSecond := second.within
          omega⟩
    else
      throw (.here .loneSurrogate second.rest)
  else
    return first

/- The byte that a one-letter escape stands for. -/
def escapeByte?
    (letter : UInt8) : Option UInt8 :=
  if letter = Utf8.ascii '"' then some (Utf8.ascii '"')
  else if letter = Utf8.ascii '\\' then some (Utf8.ascii '\\')
  else if letter = Utf8.ascii '/' then some (Utf8.ascii '/')
  else if letter = Utf8.ascii 'b' then some 0x08
  else if letter = Utf8.ascii 'f' then some 0x0C
  else if letter = Utf8.ascii 'n' then some (Utf8.ascii '\n')
  else if letter = Utf8.ascii 'r' then some (Utf8.ascii '\r')
  else if letter = Utf8.ascii 't' then some (Utf8.ascii '\t')
  else none

/- Read an escape after its backslash, as bytes. -/
def readEscape
    (source : List UInt8) :
    Except Fault (Read source.length (List UInt8)) :=
  match source with
  | [] => .error (.here .endInString [])
  | letter :: rest =>
      match escapeByte? letter with
      | some byte => .ok ⟨[byte], rest, length_lt_cons letter rest⟩
      | none =>
          if letter = Utf8.ascii 'u' then
            match readCodePoint rest with
            | .ok point =>
                .ok ⟨String.utf8EncodeChar (Char.ofNat point.value),
                  point.rest, Nat.lt_succ_of_lt point.within⟩
            | .error fault => .error fault
          else
            .error (.here .invalidEscape rest)

------------------------------------------------------------
-- Strings
------------------------------------------------------------

/-
  Read the bytes of a string through the quotation mark that
  ends it.
-/
def readContents
    (source : List UInt8) :
    Except Fault (Read source.length (List UInt8)) :=
  match source with
  | [] => .error (.here .endInString [])
  | byte :: rest =>
      if byte = Utf8.ascii '"' then
        .ok ⟨[], rest, length_lt_cons byte rest⟩
      else if byte = Utf8.ascii '\\' then
        match readEscape rest with
        | .error fault => .error fault
        | .ok escape =>
            match readContents escape.rest with
            | .error fault => .error fault
            | .ok contents =>
                .ok ⟨escape.value ++ contents.value, contents.rest,
                  Nat.lt_succ_of_lt
                    (Nat.lt_trans contents.within escape.within)⟩
      else if byte.toNat < 0x20 then
        .error (.here .controlCharacter rest)
      else
        match readContents rest with
        | .error fault => .error fault
        | .ok contents =>
            .ok ⟨byte :: contents.value, contents.rest,
              Nat.lt_succ_of_lt contents.within⟩
termination_by source.length
decreasing_by
  · have hEscape := escape.within
    simp only [List.length_cons]
    omega
  · simp

/-
  Read a string after its opening quotation mark. Ill-formed
  contents are reported as many columns before the end as
  there are bytes from the first ill-formed one on.
-/
def readString
    (source : List UInt8) :
    Except Fault (Read source.length String) := do
  let contents ← readContents source
  match Utf8.decode? contents.value with
  | some text =>
      return ⟨String.ofList text, contents.rest, contents.within⟩
  | none =>
      throw ⟨.invalidCodePoint, contents.rest.length,
        contents.value.length - Utf8.validSize contents.value⟩

end Json

end DottedRef
