import DottedRef.Utf8

/-
  This file proves that the bytes of a text are read back as
  the text, and tells apart the bytes of characters below
  U+0080 from those of all others.

  Key definitions include:
    * `Utf8.Lead.Admits`

  Key theorems include:
    * `Utf8.next?_encode`
    * `Utf8.decode?_encode`
    * `Utf8.encode_of_all_ascii`
    * `Utf8.le_of_mem_encode`
-/

namespace DottedRef

namespace Utf8

------------------------------------------------------------
-- Characters
------------------------------------------------------------

/-
  The first byte of a character promises as many bytes, with
  the bits and the second byte, as the character has.
-/
structure Lead.Admits
    (lead : Lead)
    (trailing bits second : Nat) : Prop where
  trailing : lead.trailing = trailing
  bits : lead.bits = bits
  low : lead.low ≤ second
  high : second ≤ lead.high

/- The bits of a byte that is not the first are read. -/
theorem follow_cons
    {trailing low high bits value : Nat}
    {bytes : List UInt8}
    (hLow : low ≤ value % 64 + 128)
    (hHigh : value % 64 + 128 ≤ high) :
    follow (trailing + 1) low high bits
        (UInt8.ofNat (value % 64 + 128) :: bytes) =
      follow trailing 0x80 0xBF (bits * 64 + value % 64)
        bytes := by
  have hByte :
      (UInt8.ofNat (value % 64 + 128)).toNat =
        value % 64 + 128 :=
    UInt8.toNat_ofNat_of_lt' (by unfold UInt8.size; omega)
  rw [follow, hByte, if_pos ⟨hLow, hHigh⟩,
    Nat.add_sub_cancel]

/- After a first byte that promises one, a second is read. -/
theorem next?_cons
    {byte : UInt8}
    {lead : Lead}
    {trailing bits value : Nat}
    (hLead : lead? byte = some lead)
    (hAdmits :
      lead.Admits (trailing + 1) bits (value % 64 + 128))
    (bytes : List UInt8) :
    next? byte (UInt8.ofNat (value % 64 + 128) :: bytes) =
      follow trailing 0x80 0xBF (bits * 64 + value % 64)
        bytes := by
  unfold next?
  rw [hLead]
  dsimp only
  rw [hAdmits.trailing, hAdmits.bits]
  exact follow_cons hAdmits.low hAdmits.high

/- The only byte of a character. -/
theorem lead?_one
    (value : Nat)
    (h : value < 0x80) :
    lead? (UInt8.ofNat value) =
      some ⟨0, 0x80, 0xBF, value⟩ := by
  unfold lead?
  rw [UInt8.toNat_ofNat_of_lt' (by unfold UInt8.size; omega)]
  exact if_pos h

/- The first of two bytes. -/
theorem lead?_two
    (value : Nat)
    (hLow : 0x80 ≤ value)
    (hHigh : value < 0x800) :
    ∃ lead,
      lead? (UInt8.ofNat (value / 64 % 32 + 192)) =
          some lead ∧
        lead.Admits 1 (value / 64) (value % 64 + 128) := by
  unfold lead?
  rw [UInt8.toNat_ofNat_of_lt' (by unfold UInt8.size; omega)]
  dsimp only
  rw [if_neg (by omega), if_neg (by omega),
    if_pos (by omega)]
  refine ⟨_, rfl, rfl, ?_, ?_, ?_⟩ <;> dsimp only <;> omega

/- The first of three bytes. -/
theorem lead?_three
    (value : Nat)
    (hLow : 0x800 ≤ value)
    (hHigh : value < 0x10000)
    (hSurrogate : value < 0xD800 ∨ 0xDFFF < value) :
    ∃ lead,
      lead? (UInt8.ofNat (value / 4096 % 16 + 224)) =
          some lead ∧
        lead.Admits 2 (value / 4096)
          (value / 64 % 64 + 128) := by
  unfold lead?
  rw [UInt8.toNat_ofNat_of_lt' (by unfold UInt8.size; omega)]
  dsimp only
  rw [if_neg (by omega), if_neg (by omega),
    if_neg (by omega)]
  split
  · refine ⟨_, rfl, rfl, ?_, ?_, ?_⟩ <;> dsimp only <;> omega
  split
  · refine ⟨_, rfl, rfl, ?_, ?_, ?_⟩ <;> dsimp only <;> omega
  rw [if_pos (by omega)]
  refine ⟨_, rfl, rfl, ?_, ?_, ?_⟩ <;> dsimp only <;> omega

/- The first of four bytes. -/
theorem lead?_four
    (value : Nat)
    (hLow : 0x10000 ≤ value)
    (hHigh : value < 0x110000) :
    ∃ lead,
      lead? (UInt8.ofNat (value / 262144 % 8 + 240)) =
          some lead ∧
        lead.Admits 3 (value / 262144)
          (value / 4096 % 64 + 128) := by
  unfold lead?
  rw [UInt8.toNat_ofNat_of_lt' (by unfold UInt8.size; omega)]
  dsimp only
  rw [if_neg (by omega), if_neg (by omega),
    if_neg (by omega), if_neg (by omega),
    if_neg (by omega), if_neg (by omega)]
  split
  · refine ⟨_, rfl, rfl, ?_, ?_, ?_⟩ <;> dsimp only <;> omega
  split
  · refine ⟨_, rfl, rfl, ?_, ?_, ?_⟩ <;> dsimp only <;> omega
  rw [if_pos (by omega)]
  refine ⟨_, rfl, rfl, ?_, ?_, ?_⟩ <;> dsimp only <;> omega

/-
  A character is read from its bytes, whatever comes after
  them.
-/
theorem next?_encode
    (c : Char) :
    ∃ byte bytes,
      String.utf8EncodeChar c = byte :: bytes ∧
        ∀ rest,
          next? byte (bytes ++ rest) = (some c, rest) := by
  have hValid :
      c.toNat < 0xD800 ∨
        0xDFFF < c.toNat ∧ c.toNat < 0x110000 :=
    c.valid
  have hRead :
      ∀ {value : Nat} (low high : Nat) (rest : List UInt8),
        value = c.toNat →
          follow 0 low high value rest = (some c, rest) := by
    intro value low high rest hValue
    rw [follow, hValue, Char.ofNat_toNat]
  unfold String.utf8EncodeChar
  rw [show c.val.toNat = c.toNat from rfl]
  generalize c.toNat = value at hValid hRead
  dsimp only
  split
  · have hLead := lead?_one value (by omega)
    refine ⟨_, _, rfl, ?_⟩
    intro rest
    unfold next?
    rw [hLead]
    exact hRead _ _ _ rfl
  split
  · rcases lead?_two value (by omega) (by omega) with
      ⟨lead, hLead, hAdmits⟩
    refine ⟨_, _, rfl, ?_⟩
    intro rest
    rw [List.cons_append, next?_cons hLead hAdmits]
    exact hRead _ _ _ (by omega)
  split
  · rcases lead?_three value (by omega) (by omega)
        (by omega) with
      ⟨lead, hLead, hAdmits⟩
    refine ⟨_, _, rfl, ?_⟩
    intro rest
    rw [List.cons_append, next?_cons hLead hAdmits,
      List.cons_append, follow_cons (by omega) (by omega)]
    exact hRead _ _ _ (by omega)
  · rcases lead?_four value (by omega) (by omega) with
      ⟨lead, hLead, hAdmits⟩
    refine ⟨_, _, rfl, ?_⟩
    intro rest
    rw [List.cons_append, next?_cons hLead hAdmits,
      List.cons_append, follow_cons (by omega) (by omega),
      List.cons_append, follow_cons (by omega) (by omega)]
    exact hRead _ _ _ (by omega)

------------------------------------------------------------
-- Texts
------------------------------------------------------------

/- The bytes of a character come first. -/
theorem encode_cons
    (c : Char)
    (text : List Char) :
    encode (c :: text) =
      String.utf8EncodeChar c ++ encode text :=
  List.flatMap_cons

/- The bytes of two texts come one after the other. -/
theorem encode_append
    (first second : List Char) :
    encode (first ++ second) =
      encode first ++ encode second :=
  List.flatMap_append

/- The bytes of a text are read back as the text. -/
theorem decode?_encode
    (text : List Char) :
    decode? (encode text) = some text := by
  induction text with
  | nil =>
      rw [encode, List.flatMap_nil, decode?]
  | cons c text ih =>
      rcases next?_encode c with ⟨byte, bytes, hBytes, hNext⟩
      rw [encode_cons, hBytes, List.cons_append, decode?,
        hNext, ih]
      rfl

------------------------------------------------------------
-- Characters Below U+0080
------------------------------------------------------------

/- A character below U+0080 has one byte. -/
theorem encode_of_ascii
    {c : Char}
    (h : c.toNat < 0x80) :
    String.utf8EncodeChar c = [ascii c] := by
  unfold String.utf8EncodeChar
  dsimp only
  exact if_pos (Nat.le_of_lt_succ h)

/- A character below U+0080 comes first with its byte. -/
theorem encode_cons_of_ascii
    {c : Char}
    (h : c.toNat < 0x80)
    (text : List Char) :
    encode (c :: text) = ascii c :: encode text := by
  rw [encode_cons, encode_of_ascii h]
  rfl

/- Characters below U+0080 have a byte each. -/
theorem encode_of_all_ascii
    {text : List Char}
    (h : ∀ c ∈ text, c.toNat < 0x80) :
    encode text = text.map ascii := by
  induction text with
  | nil => rfl
  | cons c text ih =>
      rw [List.forall_mem_cons] at h
      rw [encode_cons_of_ascii h.1, ih h.2]
      rfl

/- The byte of a character below U+0080 is its number. -/
theorem toNat_ascii
    {c : Char}
    (h : c.toNat < 0x80) :
    (ascii c).toNat = c.toNat :=
  UInt8.toNat_ofNat_of_lt' (by unfold UInt8.size; omega)

/- Every other character has only bytes above those. -/
theorem le_of_mem_encode
    {c : Char}
    {byte : UInt8}
    (h : 0x80 ≤ c.toNat)
    (hMem : byte ∈ String.utf8EncodeChar c) :
    0x80 ≤ byte.toNat := by
  have hByte :
      ∀ {value : Nat}, 0x80 ≤ value → value < 256 →
        0x80 ≤ (UInt8.ofNat value).toNat := by
    intro value hLow hHigh
    rw [UInt8.toNat_ofNat_of_lt' hHigh]
    exact hLow
  unfold String.utf8EncodeChar at hMem
  rw [show c.val.toNat = c.toNat from rfl] at hMem
  dsimp only at hMem
  rw [if_neg (by omega)] at hMem
  split at hMem
  · simp only [List.mem_cons, List.not_mem_nil, or_false]
      at hMem
    rcases hMem with rfl | rfl <;>
      exact hByte (by omega) (by omega)
  split at hMem
  · simp only [List.mem_cons, List.not_mem_nil, or_false]
      at hMem
    rcases hMem with rfl | rfl | rfl <;>
      exact hByte (by omega) (by omega)
  · simp only [List.mem_cons, List.not_mem_nil, or_false]
      at hMem
    rcases hMem with rfl | rfl | rfl | rfl <;>
      exact hByte (by omega) (by omega)

end Utf8

end DottedRef
