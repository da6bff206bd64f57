import DottedRef.Proofs.Text.Encoding
import DottedRef.Text

/-
  This file proves where a decoder that replaces ill-formed
  runs can be started anew: in front of a byte below U+0080,
  since no run goes on through one, and behind the bytes of a
  text. It also proves what is left of a character whose bytes
  are cut short: a single replacement character.

  Key definitions include:
    * `Utf8.replacement`

  Key theorems include:
    * `Utf8.decodeLossy_append_ascii`
    * `Utf8.decodeLossy_encode_append`
    * `Utf8.decodeLossy_cut`
    * `Utf8.length_encode`
-/

namespace DottedRef

namespace Utf8

/- The character that stands for an ill-formed run. -/
abbrev replacement : Char :=
  '\uFFFD'

------------------------------------------------------------
-- Runs End at Bytes Below U+0080
------------------------------------------------------------

/- Every range of trailing bytes lies above U+007F. -/
theorem Lead.le_low_of_lead?
    {byte : UInt8}
    {lead : Lead}
    (h : lead? byte = some lead) :
    0x80 ≤ lead.low := by
  unfold lead? at h
  grind

/-
  Trailing bytes are read alike whether a byte below U+0080
  comes after them or nothing does.
-/
theorem follow_append_ascii
    {trailing low high bits : Nat}
    {bytes rest : List UInt8}
    {byte : UInt8}
    (hByte : byte.toNat < 0x80)
    (hLow : 0x80 ≤ low) :
    follow trailing low high bits (bytes ++ byte :: rest) =
      ((follow trailing low high bits bytes).1,
        (follow trailing low high bits bytes).2 ++
          byte :: rest) := by
  induction trailing generalizing low high bits bytes with
  | zero => simp [follow]
  | succ trailing ih =>
      cases bytes with
      | nil =>
          rw [List.nil_append, follow, follow,
            if_neg (by omega)]
          rfl
      | cons first bytes =>
          rw [List.cons_append, follow, follow]
          split
          · exact ih (Nat.le_refl _)
          · rfl

/- A step is the same in front of a byte below U+0080. -/
theorem next?_append_ascii
    {first byte : UInt8}
    {bytes rest : List UInt8}
    (hByte : byte.toNat < 0x80) :
    next? first (bytes ++ byte :: rest) =
      ((next? first bytes).1,
        (next? first bytes).2 ++ byte :: rest) := by
  unfold next?
  cases hLead : lead? first with
  | none => rfl
  | some lead =>
      exact
        follow_append_ascii hByte (Lead.le_low_of_lead? hLead)

/- A byte below U+0080 is a character of its own. -/
theorem next?_of_ascii
    {byte : UInt8}
    {rest : List UInt8}
    (hByte : byte.toNat < 0x80) :
    next? byte rest = (some (Char.ofNat byte.toNat), rest) := by
  have hLead :
      lead? byte = some ⟨0, 0x80, 0xBF, byte.toNat⟩ :=
    if_pos hByte
  rw [next?, hLead]
  rfl

/- The character of a byte below U+0080 has that byte only. -/
theorem utf8Size_of_ascii
    {byte : UInt8}
    (hByte : byte.toNat < 0x80) :
    (Char.ofNat byte.toNat).utf8Size = 1 := by
  have hValid : byte.toNat.isValidChar :=
    Or.inl (by omega)
  have hNumber : (Char.ofNat byte.toNat).toNat < 0x80 := by
    rw [Char.ofNat, dif_pos hValid]
    exact hByte
  rw [← String.length_utf8EncodeChar, encode_of_ascii hNumber]
  rfl

/-
  A byte below U+0080 stands in the decoded text between what
  comes before it and what comes after it, each decoded by
  itself.
-/
theorem decodeLossy_append_ascii
    {byte : UInt8}
    (hByte : byte.toNat < 0x80)
    (bytes rest : List UInt8) :
    decodeLossy (bytes ++ byte :: rest) =
      decodeLossy bytes ++
        Char.ofNat byte.toNat :: decodeLossy rest := by
  -- A step may read several bytes, so that the induction is on
  -- their number.
  induction hLength : bytes.length using Nat.strongRecOn
    generalizing bytes with
  | ind length ih =>
      cases bytes with
      | nil =>
          rw [List.nil_append, decodeLossy, decodeLossy,
            next?_of_ascii hByte]
          rfl
      | cons first bytes =>
          have hShorter := length_next? first bytes
          rw [List.length_cons] at hLength
          rw [List.cons_append, decodeLossy, decodeLossy,
            next?_append_ascii hByte, List.cons_append]
          rw [ih _ (by omega) _ rfl]

------------------------------------------------------------
-- Texts
------------------------------------------------------------

/- The bytes of a text are as many as its size. -/
theorem length_encode
    (text : List Char) :
    (encode text).length = Text.size text := by
  induction text with
  | nil => rfl
  | cons c text ih =>
      rw [encode_cons, List.length_append, ih, Text.size,
        String.length_utf8EncodeChar]

/-
  The bytes of a text are decoded to the text, and what comes
  after them is decoded by itself.
-/
theorem decodeLossy_encode_append
    (text : List Char)
    (bytes : List UInt8) :
    decodeLossy (encode text ++ bytes) =
      text ++ decodeLossy bytes := by
  induction text with
  | nil => rfl
  | cons c text ih =>
      rcases next?_encode c with ⟨byte, more, hBytes, hNext⟩
      rw [encode_cons, hBytes, List.cons_append,
        List.cons_append, decodeLossy, List.append_assoc,
        hNext, ih]
      rfl

/- The bytes of a text are decoded to the text. -/
theorem decodeLossy_encode
    (text : List Char) :
    decodeLossy (encode text) = text := by
  have h := decodeLossy_encode_append text []
  rwa [List.append_nil, decodeLossy, List.append_nil] at h

------------------------------------------------------------
-- Characters Cut Short
------------------------------------------------------------

/-
  Trailing bytes that make a character together make none if
  the last of them are missing, and none of the others is left
  unread.
-/
theorem follow_cut
    {trailing low high bits : Nat}
    {bytes missing : List UInt8}
    {c : Char}
    (hMissing : missing ≠ [])
    (h : follow trailing low high bits (bytes ++ missing) =
      (some c, [])) :
    follow trailing low high bits bytes = (none, []) := by
  induction trailing generalizing low high bits bytes with
  | zero =>
      rw [follow, Prod.mk.injEq] at h
      exact
        absurd (List.append_eq_nil_iff.mp h.2).2 hMissing
  | succ trailing ih =>
      cases bytes with
      | nil => rfl
      | cons byte bytes =>
          rw [List.cons_append, follow] at h
          rw [follow]
          split at h
          · rename_i hRange
            rw [if_pos hRange]
            exact ih h
          · simp at h

/-
  The first bytes of a character, but not all of them, are one
  ill-formed run.
-/
theorem decodeLossy_cut
    {c : Char}
    {bytes missing : List UInt8}
    (hParts : bytes ++ missing = String.utf8EncodeChar c)
    (hBytes : bytes ≠ [])
    (hMissing : missing ≠ []) :
    decodeLossy bytes = [replacement] := by
  rcases next?_encode c with ⟨first, more, hEncode, hNext⟩
  cases bytes with
  | nil => exact absurd rfl hBytes
  | cons byte bytes =>
      rw [hEncode, List.cons_append, List.cons.injEq] at hParts
      rcases hParts with ⟨rfl, rfl⟩
      have hWhole := hNext []
      rw [List.append_nil] at hWhole
      have hCut : next? byte bytes = (none, []) := by
        unfold next? at hWhole ⊢
        cases hLead : lead? byte with
        | none => simp [hLead] at hWhole
        | some lead =>
            rw [hLead] at hWhole
            exact follow_cut hMissing hWhole
      rw [decodeLossy, hCut, decodeLossy]
      rfl

------------------------------------------------------------
-- First Parts of a Text's Bytes
------------------------------------------------------------

/- Bytes up to a usable offset are decoded to the part before. -/
theorem decodeLossy_take_encode
    (before after : List Char) :
    decodeLossy
        ((encode (before ++ after)).take (Text.size before)) =
      before := by
  rw [encode_append, ← length_encode, List.take_left]
  exact decodeLossy_encode before

/-
  Bytes up to one within a character are decoded to the part
  before the character and a replacement character.
-/
theorem decodeLossy_take_encode_cut
    {before after : List Char}
    {c : Char}
    {index : Nat}
    (hLow : Text.size before < index)
    (hHigh : index < Text.size before + c.utf8Size) :
    decodeLossy ((encode (before ++ c :: after)).take index) =
      before ++ [replacement] := by
  have hTake :
      (encode (before ++ c :: after)).take index =
        encode before ++
          (String.utf8EncodeChar c).take
            (index - Text.size before) := by
    rw [encode_append, encode_cons, List.take_append,
      length_encode,
      List.take_of_length_le
        (by rw [length_encode]; omega),
      List.take_append_of_le_length
        (by rw [String.length_utf8EncodeChar]; omega)]
  rw [hTake, decodeLossy_encode_append]
  congr 1
  have hLength := String.length_utf8EncodeChar c
  apply decodeLossy_cut (List.take_append_drop ..)
  · rw [Ne, List.take_eq_nil_iff, ← List.length_eq_zero_iff]
    omega
  · rw [Ne, List.drop_eq_nil_iff]
    omega

end Utf8

end DottedRef
