import DottedRef.Json.Parser
import DottedRef.Json.Printer
import DottedRef.Proofs.Text.Encoding

/-
  This file proves that a string that is written between
  quotation marks is read back, whatever comes after it. Every
  character is written as an escape that stands for it or as
  itself.

  Key definitions include:
    * `Json.Gives`
    * `Json.IsPlain`

  Key theorems include:
    * `Json.Gives.bind`
    * `Json.readContents_escape`
    * `Json.readString_quote`
    * `Json.readKey_quote`
-/

namespace DottedRef

namespace Json

------------------------------------------------------------
-- Readers
------------------------------------------------------------

/- A reader gives a value and leaves a rest unread. -/
def Gives
    {limit : Nat}
    (result : Except Fault (Read limit α))
    (value : α)
    (rest : List UInt8) : Prop :=
  ∃ within, result = .ok ⟨value, rest, within⟩

/- A reader gives what it has read. -/
theorem gives_ok
    {limit : Nat}
    {read : Read limit α}
    {value : α}
    {rest : List UInt8}
    (hValue : read.value = value)
    (hRest : read.rest = rest) :
    Gives (.ok read) value rest := by
  subst hValue hRest
  exact ⟨read.within, rfl⟩

/- A reader of two parts gives what the second one does. -/
theorem Gives.bind
    {limit lastLimit : Nat}
    {first : Except Fault (Read limit α)}
    {next :
      Read limit α → Except Fault (Read lastLimit β)}
    {value : α}
    {last : β}
    {rest lastRest : List UInt8}
    (h : Gives first value rest)
    (hNext :
      ∀ within,
        Gives (next ⟨value, rest, within⟩) last lastRest) :
    Gives (first >>= next) last lastRest := by
  rcases h with ⟨within, rfl⟩
  exact hNext within

/- A word is read from its bytes. -/
theorem readWord_append
    (word rest : List UInt8) :
    Gives (readWord word (word ++ rest)) () rest := by
  induction word with
  | nil => exact ⟨_, rfl⟩
  | cons byte word ih =>
      rcases ih with ⟨within, hRead⟩
      rw [List.cons_append, readWord, if_pos rfl, hRead]
      exact ⟨_, rfl⟩

section Blanks

variable {byte first : UInt8}
variable {rest after : List UInt8}

/- A byte that is no blank is not skipped. -/
theorem skipBlanks_of_not_blank
    (h : isBlank byte = false) :
    skipBlanks (byte :: rest) = byte :: rest := by
  unfold skipBlanks
  rw [List.dropWhile_cons, h]
  rfl

/- So something is left. -/
theorem skipBlanks_ne_nil
    (h : isBlank byte = false) :
    skipBlanks (byte :: rest) ≠ [] := by
  rw [skipBlanks_of_not_blank h]
  exact List.cons_ne_nil byte rest

/- And the byte is the first of what is left. -/
theorem skipBlanks_cons_inj
    (h : isBlank byte = false)
    (hSkip : skipBlanks (byte :: rest) = first :: after) :
    byte = first ∧ rest = after := by
  rw [skipBlanks_of_not_blank h] at hSkip
  exact List.cons.inj hSkip

end Blanks

------------------------------------------------------------
-- Characters
------------------------------------------------------------

/- A byte that stands for itself inside a string. -/
def IsPlain
    (byte : UInt8) : Prop :=
  byte ≠ Utf8.ascii '"' ∧ byte ≠ Utf8.ascii '\\' ∧
    0x20 ≤ byte.toNat

/- Most characters stand for themselves byte by byte. -/
theorem isPlain_of_mem
    {c : Char}
    {byte : UInt8}
    (hQuote : c ≠ '"')
    (hSlash : c ≠ '\\')
    (hControl : 0x20 ≤ c.toNat)
    (hMem : byte ∈ String.utf8EncodeChar c) :
    IsPlain byte := by
  by_cases hAscii : c.toNat < 0x80
  · rw [Utf8.encode_of_ascii hAscii, List.mem_singleton] at hMem
    have hNe :
        ∀ other : Char, other.toNat < 0x80 → c ≠ other →
          Utf8.ascii c ≠ Utf8.ascii other := by
      intro other hOther hNe hSame
      have hNat := congrArg UInt8.toNat hSame
      rw [Utf8.toNat_ascii hAscii, Utf8.toNat_ascii hOther]
        at hNat
      exact hNe (Char.toNat_inj.mp hNat)
    rw [hMem]
    refine
      ⟨hNe _ (by decide) hQuote, hNe _ (by decide) hSlash, ?_⟩
    rw [Utf8.toNat_ascii hAscii]
    exact hControl
  · have hByte :=
      Utf8.le_of_mem_encode (Nat.not_lt.mp hAscii) hMem
    refine ⟨?_, ?_, by omega⟩
    · rintro rfl
      exact absurd hByte (by decide)
    · rintro rfl
      exact absurd hByte (by decide)

/-
  What a character is written as: a letter that stands for it
  after a backslash, four digits, or itself.
-/
theorem escape_cases
    (c : Char) :
    (∃ letter,
      escape c = ['\\', letter] ∧
        escapeByte? (Utf8.ascii letter) = some (Utf8.ascii c) ∧
        letter.toNat < 0x80 ∧ c.toNat < 0x80) ∨
      (escape c =
          ['\\', 'u', '0', '0', hexDigit (c.toNat / 16),
            hexDigit (c.toNat % 16)] ∧
        c.toNat < 32) ∨
      (escape c = [c] ∧
        ∀ byte ∈ String.utf8EncodeChar c, IsPlain byte) := by
  have hNumber :
      ∀ value, c.toNat = value → c = Char.ofNat value := by
    intro value hValue
    rw [← hValue, Char.ofNat_toNat]
  unfold escape
  split
  · rename_i hQuote
    rw [hQuote]
    exact .inl ⟨'"', rfl, by decide, by decide, by decide⟩
  split
  · rename_i hSlash
    rw [hSlash]
    exact .inl ⟨'\\', rfl, by decide, by decide, by decide⟩
  split
  · rename_i hLine
    rw [hLine]
    exact .inl ⟨'n', rfl, by decide, by decide, by decide⟩
  split
  · rename_i hReturn
    rw [hReturn]
    exact .inl ⟨'r', rfl, by decide, by decide, by decide⟩
  split
  · rename_i hTab
    rw [hTab]
    exact .inl ⟨'t', rfl, by decide, by decide, by decide⟩
  split
  · rename_i hBack
    rw [hNumber 8 hBack]
    exact .inl ⟨'b', rfl, by decide, by decide, by decide⟩
  split
  · rename_i hForm
    rw [hNumber 12 hForm]
    exact .inl ⟨'f', rfl, by decide, by decide, by decide⟩
  split
  · rename_i hControl
    exact .inr (.inl ⟨rfl, hControl⟩)
  · rename_i hQuote hSlash _ _ _ _ _ hControl
    exact
      .inr (.inr
        ⟨rfl, fun byte hMem =>
          isPlain_of_mem hQuote hSlash (by omega) hMem⟩)

section Contents

variable {source contents rest : List UInt8}

/- Bytes that stand for themselves are read as they are. -/
theorem readContents_plain
    {bytes : List UInt8}
    (hPlain : ∀ byte ∈ bytes, IsPlain byte)
    (h : Gives (readContents source) contents rest) :
    Gives (readContents (bytes ++ source)) (bytes ++ contents)
      rest := by
  induction bytes with
  | nil => exact h
  | cons byte bytes ih =>
      rw [List.forall_mem_cons] at hPlain
      rcases hPlain with
        ⟨⟨hQuote, hSlash, hControl⟩, hBytes⟩
      rcases ih hBytes with ⟨within, hRead⟩
      rw [List.cons_append, readContents, if_neg hQuote,
        if_neg hSlash, if_neg (Nat.not_lt.mpr hControl), hRead]
      exact ⟨_, rfl⟩

/- An escape is read as the bytes that it stands for. -/
theorem readContents_slash
    {escaped value : List UInt8}
    (hEscape :
      Gives (readEscape (escaped ++ source)) value source)
    (h : Gives (readContents source) contents rest) :
    Gives
      (readContents (Utf8.ascii '\\' :: (escaped ++ source)))
      (value ++ contents) rest := by
  rcases hEscape with ⟨escapeWithin, hEscape⟩
  rcases h with ⟨within, hRead⟩
  rw [readContents, if_neg (by decide), if_pos rfl, hEscape]
  dsimp only
  rw [hRead]
  exact ⟨_, rfl⟩

/- A one-letter escape stands for its byte. -/
theorem readEscape_letter
    {letter byte : UInt8}
    (h : escapeByte? letter = some byte)
    (source : List UInt8) :
    Gives (readEscape ([letter] ++ source)) [byte] source := by
  rw [List.singleton_append, readEscape, h]
  exact ⟨_, rfl⟩

/- The four digits of a control. -/
theorem hex?_control :
    ∀ value < 32,
      hex? (Utf8.ascii '0') (Utf8.ascii '0')
          (Utf8.ascii (hexDigit (value / 16)))
          (Utf8.ascii (hexDigit (value % 16))) =
        some value := by
  decide

/- Four digits are read as their value. -/
theorem readHex_of_hex?
    {a b c d : UInt8}
    {value : Nat}
    (h : hex? a b c d = some value)
    (source : List UInt8) :
    Gives (readHex (a :: b :: c :: d :: source)) value
      source := by
  unfold readHex
  dsimp only
  rw [h]
  exact ⟨_, rfl⟩

/- The digits of a control stand for it. -/
theorem readEscape_control
    {c : Char}
    (h : c.toNat < 32)
    (source : List UInt8) :
    Gives
      (readEscape
        ([Utf8.ascii 'u', Utf8.ascii '0', Utf8.ascii '0',
            Utf8.ascii (hexDigit (c.toNat / 16)),
            Utf8.ascii (hexDigit (c.toNat % 16))] ++ source))
      (String.utf8EncodeChar c) source := by
  have hTrailing : isTrailing c.toNat = false := by
    simp [isTrailing]
    omega
  have hLeading : isLeading c.toNat = false := by
    simp [isLeading]
    omega
  have hLetter : escapeByte? (Utf8.ascii 'u') = none := by
    decide
  have hPoint :
      Gives
        (readCodePoint
          (Utf8.ascii '0' :: Utf8.ascii '0' ::
            Utf8.ascii (hexDigit (c.toNat / 16)) ::
            Utf8.ascii (hexDigit (c.toNat % 16)) :: source))
        c.toNat source := by
    unfold readCodePoint
    apply (readHex_of_hex? (hex?_control _ h) source).bind
    intro within
    simp only [hTrailing, hLeading, Bool.false_eq_true, if_false]
    exact ⟨_, rfl⟩
  rcases hPoint with ⟨within, hPoint⟩
  simp only [List.cons_append, List.nil_append]
  rw [readEscape, hLetter]
  dsimp only
  rw [if_pos rfl, hPoint]
  dsimp only
  rw [Char.ofNat_toNat]
  exact ⟨_, rfl⟩

/- Every character is read back from its escape. -/
theorem readContents_escape
    (c : Char)
    (h : Gives (readContents source) contents rest) :
    Gives
      (readContents (Utf8.encode (escape c) ++ source))
      (String.utf8EncodeChar c ++ contents) rest := by
  rcases escape_cases c with
    ⟨letter, hEscape, hByte, hLetter, hAscii⟩ |
    ⟨hEscape, hControl⟩ | ⟨hEscape, hPlain⟩
  · rw [hEscape, Utf8.encode_of_all_ascii (by simp [hLetter]),
      Utf8.encode_of_ascii hAscii]
    exact readContents_slash (readEscape_letter hByte source) h
  · have hDigit :
        ∀ value < 16, (hexDigit value).toNat < 0x80 := by
      decide
    have hHigh := hDigit (c.toNat / 16) (by omega)
    have hLow := hDigit (c.toNat % 16) (by omega)
    rw [hEscape,
      Utf8.encode_of_all_ascii (by simp [hHigh, hLow])]
    exact
      readContents_slash (readEscape_control hControl source) h
  · rw [hEscape, Utf8.encode_cons, Utf8.encode,
      List.flatMap_nil, List.append_nil]
    exact readContents_plain hPlain h

end Contents

------------------------------------------------------------
-- Strings
------------------------------------------------------------

/- The contents of a string are read through its end. -/
theorem readContents_text
    (text : List Char)
    (rest : List UInt8) :
    Gives
      (readContents
        (Utf8.encode (text.flatMap escape) ++
          Utf8.ascii '"' :: rest))
      (Utf8.encode text) rest := by
  induction text with
  | nil =>
      rw [List.flatMap_nil, Utf8.encode, List.flatMap_nil,
        List.nil_append, readContents, if_pos rfl]
      exact ⟨_, rfl⟩
  | cons c text ih =>
      rw [List.flatMap_cons, Utf8.encode_append,
        List.append_assoc, Utf8.encode_cons]
      exact readContents_escape c ih

/- The bytes of a string between quotation marks. -/
theorem encode_quote
    (text : String) :
    Utf8.encode (quote text) =
      Utf8.ascii '"' ::
        (Utf8.encode (text.toList.flatMap escape) ++
          [Utf8.ascii '"']) := by
  unfold quote
  rw [Utf8.encode_append, Utf8.encode_cons]
  rfl

/- A string is read back, whatever comes after it. -/
theorem readString_quote
    (text : String)
    (rest : List UInt8) :
    ∃ source,
      Utf8.encode (quote text) ++ rest =
          Utf8.ascii '"' :: source ∧
        Gives (readString source) text rest := by
  refine ⟨_, by rw [encode_quote, List.cons_append], ?_⟩
  rw [List.append_assoc, List.singleton_append]
  unfold readString
  apply (readContents_text text.toList rest).bind
  intro within
  dsimp only
  rw [Utf8.decode?_encode]
  dsimp only
  rw [String.ofList_toList]
  exact ⟨_, rfl⟩

/- A key is read back with the colon after it. -/
theorem readKey_quote
    (key : String)
    (rest : List UInt8) :
    ∃ source,
      Utf8.encode (quote key) ++ Utf8.ascii ':' :: rest =
          Utf8.ascii '"' :: source ∧
        Gives (readKey source) key rest := by
  rcases readString_quote key (Utf8.ascii ':' :: rest) with
    ⟨source, hSource, hRead⟩
  refine ⟨source, hSource, ?_⟩
  have hColon : isBlank (Utf8.ascii ':') = false := by decide
  unfold readKey
  apply hRead.bind
  intro within
  dsimp only
  split
  · rename_i hNil
    exact absurd hNil (skipBlanks_ne_nil hColon)
  · rename_i byte after hCons
    rcases skipBlanks_cons_inj hColon hCons with ⟨rfl, rfl⟩
    rw [if_pos rfl]
    exact ⟨_, rfl⟩

end Json

end DottedRef
