import DottedRef.Json.Printer
import DottedRef.Resolution

/-
  This file tells what the text of a value looks like from
  what is said of a missing key: the text of a value never
  starts with a letter other than those of `null`, `true` and
  `false`.

  Key definitions include:
    * `Json.numeralCharacters`

  Key theorems include:
    * `Json.Number.write_subset`
    * `Json.Node.head?_write_ne`
    * `Json.Node.render_ne_missingKeyMessage`
-/

namespace DottedRef

------------------------------------------------------------
-- Numerals
------------------------------------------------------------

namespace Json

/-
  The characters that numbers are written with, and those of
  `null`, which stands for a double that is not finite.
-/
def numeralCharacters : List Char :=
  "0123456789-+.enul".toList

end Json

open Json

/- A digit is a character of numerals. -/
theorem Decimal.digit_mem
    {value : Nat}
    (h : value < 10) :
    digit value ∈ numeralCharacters := by
  have hAll :
      ∀ value < 10, digit value ∈ numeralCharacters := by
    decide
  exact hAll value h

/- Natural numbers are written with digits. -/
theorem Decimal.digits_subset
    (value : Nat) :
    digits value ⊆ numeralCharacters := by
  fun_induction digits value with
  | case1 value hSmall =>
      apply List.cons_subset.mpr
      exact ⟨digit_mem hSmall, List.nil_subset _⟩
  | case2 value hLarge ih =>
      apply List.append_subset.mpr
      refine ⟨ih, ?_⟩
      apply List.cons_subset.mpr
      refine ⟨digit_mem ?_, List.nil_subset _⟩
      omega

namespace Double

/- Zeros are characters of numerals. -/
theorem zeros_subset
    (count : Nat) :
    zeros count ⊆ numeralCharacters := by
  intro c hMem
  rw [(List.mem_replicate.mp hMem).2]
  decide

/- Digits written in full are characters of numerals. -/
theorem positional_subset
    {digits : List Char}
    (exponent : Int)
    (h : digits ⊆ numeralCharacters) :
    positional digits exponent ⊆ numeralCharacters := by
  have hZero : '0' ∈ numeralCharacters := by decide
  have hPoint : '.' ∈ numeralCharacters := by decide
  have hTake :
      ∀ count, digits.take count ⊆ numeralCharacters := by
    intro count
    exact List.Subset.trans (List.take_subset count digits) h
  have hDrop :
      ∀ count, digits.drop count ⊆ numeralCharacters := by
    intro count
    exact List.Subset.trans (List.drop_subset count digits) h
  unfold positional
  split
  · simp [hZero, hPoint, h, zeros_subset]
  · dsimp only
    split
    · simp [hZero, hPoint, h, zeros_subset]
    · simp [hPoint, hTake, hDrop]

/- Digits and an exponent are characters of numerals. -/
theorem scientific_subset
    {digits : List Char}
    (exponent : Int)
    (h : digits ⊆ numeralCharacters) :
    scientific digits exponent ⊆ numeralCharacters := by
  have hPoint : '.' ∈ numeralCharacters := by decide
  have hExponent : 'e' ∈ numeralCharacters := by decide
  have hSign :
      (if exponent < 0 then '-' else '+') ∈
        numeralCharacters := by
    split <;> decide
  have hFirst : digits.take 1 ⊆ numeralCharacters :=
    List.Subset.trans (List.take_subset 1 digits) h
  have hRest : digits.drop 1 ⊆ numeralCharacters :=
    List.Subset.trans (List.drop_subset 1 digits) h
  unfold scientific
  apply List.append_subset.mpr
  constructor
  · apply List.append_subset.mpr
    refine ⟨hFirst, ?_⟩
    split
    · exact List.nil_subset _
    · exact List.cons_subset.mpr ⟨hPoint, hRest⟩
  · apply List.cons_subset.mpr
    refine ⟨hExponent, ?_⟩
    exact
      List.cons_subset.mpr ⟨hSign, Decimal.digits_subset _⟩

/- A double is written with the characters of numerals. -/
theorem Layout.write_subset
    (layout : Layout)
    (value : Float) :
    layout.write value ⊆ numeralCharacters := by
  have hSign :
      (if value.toBits.toNat / 1 <<< 63 = 1 then ['-']
        else []) ⊆ numeralCharacters := by
    split <;> decide
  have hKept :
      ∀ number,
        ((Decimal.digits number).reverse.dropWhile
          (· = '0')).reverse ⊆ numeralCharacters := by
    intro number c hMem
    rw [List.mem_reverse] at hMem
    have hDigits := List.dropWhile_subset _ hMem
    rw [List.mem_reverse] at hDigits
    exact Decimal.digits_subset number hDigits
  unfold Layout.write
  dsimp only
  split
  · decide
  · split
    · exact List.append_subset.mpr ⟨hSign, by decide⟩
    · split
      · exact
          List.append_subset.mpr
            ⟨hSign, positional_subset _ (hKept _)⟩
      · exact
          List.append_subset.mpr
            ⟨hSign, scientific_subset _ (hKept _)⟩

end Double

namespace Json

/- A number is written with the characters of numerals. -/
theorem Number.write_subset
    (value : Number) :
    value.write ⊆ numeralCharacters := by
  have hMinus : '-' ∈ numeralCharacters := by decide
  cases value with
  | double value =>
      exact Double.Layout.write_subset doubleLayout value
  | integer value fits =>
      rw [Number.write]
      split
      · exact
          List.cons_subset.mpr
            ⟨hMinus, Decimal.digits_subset _⟩
      · exact Decimal.digits_subset _

------------------------------------------------------------
-- Values
------------------------------------------------------------

/- The text of a value does not start as a message does. -/
theorem Node.head?_write_ne
    (node : Node) :
    node.write.head? ≠ some 'k' := by
  intro h
  cases node with
  | null => simp [Node.write] at h
  | boolean value =>
      cases value <;> simp [Node.write] at h
  | number value =>
      have hMem := List.mem_of_head? h
      rw [Node.write] at hMem
      exact
        absurd (value.write_subset hMem) (by decide)
  | string value => simp [Node.write, quote] at h
  | array items => simp [Node.write] at h
  | object pairs => simp [Node.write] at h

/- No value reads like the message for a missing key. -/
theorem Node.render_ne_missingKeyMessage
    (node : Node)
    (segment : String) :
    node.render ≠ missingKeyMessage segment := by
  intro h
  apply node.head?_write_ne
  have hChars := congrArg String.toList h
  rw [Node.render, String.toList_ofList] at hChars
  rw [hChars]
  simp [missingKeyMessage]

end Json

end DottedRef
