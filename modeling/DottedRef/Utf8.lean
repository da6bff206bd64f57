/-
  This file defines the UTF-8 encoding of text and three ways
  to read bytes back: strictly, lossily, and up to the first
  fault. All three are built on one step that reads either a
  character or one maximal ill-formed run of bytes.

  Key definitions include:
    * `Utf8.ascii`
    * `Utf8.encode`
    * `Utf8.Lead`
    * `Utf8.lead?`
    * `Utf8.follow`
    * `Utf8.next?`
    * `Utf8.decode?`
    * `Utf8.decodeLossy`
    * `Utf8.validSize`
-/

namespace DottedRef

namespace Utf8

/- The only byte of a character below U+0080. -/
abbrev ascii
    (c : Char) : UInt8 :=
  UInt8.ofNat c.toNat

/- The bytes of a text. -/
def encode
    (text : List Char) : List UInt8 :=
  text.flatMap String.utf8EncodeChar

------------------------------------------------------------
-- One Step
------------------------------------------------------------

/-
  What the first byte of a character promises: the number of
  bytes that follow, the range of the first of them, and the
  bits already known.
-/
structure Lead where
  trailing : Nat
  low : Nat
  high : Nat
  bits : Nat

/-
  Read a first byte. The ranges for the byte after it leave
  out overlong forms, surrogates and values past U+10FFFF.
-/
def lead?
    (byte : UInt8) : Option Lead :=
  let b := byte.toNat
  if b < 0x80 then some ⟨0, 0x80, 0xBF, b⟩
  else if b < 0xC2 then none
  else if b < 0xE0 then some ⟨1, 0x80, 0xBF, b - 0xC0⟩
  else if b = 0xE0 then some ⟨2, 0xA0, 0xBF, 0⟩
  else if b = 0xED then some ⟨2, 0x80, 0x9F, 0xD⟩
  else if b < 0xF0 then some ⟨2, 0x80, 0xBF, b - 0xE0⟩
  else if b = 0xF0 then some ⟨3, 0x90, 0xBF, 0⟩
  else if b < 0xF4 then some ⟨3, 0x80, 0xBF, b - 0xF0⟩
  else if b = 0xF4 then some ⟨3, 0x80, 0x8F, 4⟩
  else none

/-
  Read the trailing bytes of a character. The first byte out
  of range is left unread.
-/
def follow
    (trailing low high bits : Nat)
    (bytes : List UInt8) :
    Option Char × List UInt8 :=
  match trailing, bytes with
  | 0, bytes => (some (Char.ofNat bits), bytes)
  | _ + 1, [] => (none, [])
  | trailing + 1, byte :: bytes =>
      if low ≤ byte.toNat ∧ byte.toNat ≤ high then
        follow trailing 0x80 0xBF
          (bits * 64 + (byte.toNat - 0x80)) bytes
      else
        (none, byte :: bytes)

/- Reading trailing bytes never adds any. -/
theorem length_follow
    (trailing low high bits : Nat)
    (bytes : List UInt8) :
    (follow trailing low high bits bytes).2.length ≤
      bytes.length := by
  induction trailing generalizing low high bits bytes with
  | zero => simp [follow]
  | succ trailing ih =>
      cases bytes with
      | nil => simp [follow]
      | cons byte bytes =>
          rw [follow]
          split
          · have hRest := ih 0x80 0xBF
              (bits * 64 + (byte.toNat - 0x80)) bytes
            simp only [List.length_cons]
            omega
          · simp

/-
  Read one character, or pass over one maximal ill-formed run
  of bytes, in which case there is no character.
-/
def next?
    (byte : UInt8)
    (bytes : List UInt8) :
    Option Char × List UInt8 :=
  match lead? byte with
  | none => (none, bytes)
  | some lead =>
      follow lead.trailing lead.low lead.high lead.bits bytes

/- A step reads at least its first byte. -/
theorem length_next?
    (byte : UInt8)
    (bytes : List UInt8) :
    (next? byte bytes).2.length ≤ bytes.length := by
  unfold next?
  cases lead? byte with
  | none => simp
  | some lead => exact length_follow ..

------------------------------------------------------------
-- Whole Texts
------------------------------------------------------------

/- The text of well-formed bytes. -/
def decode? : List UInt8 → Option (List Char)
  | [] => some []
  | byte :: bytes =>
      match (next? byte bytes).1 with
      | none => none
      | some c => (decode? (next? byte bytes).2).map (c :: ·)
termination_by bytes => bytes.length
decreasing_by
  have hRest := length_next? byte bytes
  simp only [List.length_cons]
  omega

/-
  The text of any bytes: each maximal ill-formed run becomes
  one replacement character.
-/
def decodeLossy : List UInt8 → List Char
  | [] => []
  | byte :: bytes =>
      (next? byte bytes).1.getD '\uFFFD' ::
        decodeLossy (next? byte bytes).2
termination_by bytes => bytes.length
decreasing_by
  have hRest := length_next? byte bytes
  simp only [List.length_cons]
  omega

/-
  The number of bytes before the first ill-formed run, or of
  all bytes if there is none.
-/
def validSize : List UInt8 → Nat
  | [] => 0
  | byte :: bytes =>
      match (next? byte bytes).1 with
      | none => 0
      | some c => c.utf8Size + validSize (next? byte bytes).2
termination_by bytes => bytes.length
decreasing_by
  have hRest := length_next? byte bytes
  simp only [List.length_cons]
  omega

end Utf8

end DottedRef
