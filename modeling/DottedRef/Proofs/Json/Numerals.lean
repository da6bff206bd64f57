import DottedRef.Proofs.Json.Strings

/-
  This file proves that a whole number is read back from its
  digits, as long as no part of a numeral comes after them.

  Key definitions include:
    * `Decimal.values`
    * `Json.EndsNumber`

  Key theorems include:
    * `Decimal.digits_eq_map_values`
    * `Decimal.ofDigits_values`
    * `Json.spanDigits_values`
    * `Json.absorb_of_lt`
    * `Json.readNumber_digits`
    * `Json.wholeNumber_natAbs`
-/

namespace DottedRef

------------------------------------------------------------
-- Digits
------------------------------------------------------------

namespace Decimal

/- The values of the digits of a number. -/
def values
    (value : Nat) : List Nat :=
  if value < 10 then
    [value]
  else
    values (value / 10) ++ [value % 10]

/- A number is written with its digits. -/
theorem digits_eq_map_values
    (value : Nat) :
    digits value = (values value).map digit := by
  fun_induction values value with
  | case1 value hSmall =>
      rw [digits, if_pos hSmall]
      rfl
  | case2 value hLarge ih =>
      rw [digits, if_neg hLarge, ih, List.map_append]
      rfl

/- The digits of a number are below ten. -/
theorem lt_of_mem_values
    {value digit : Nat}
    (h : digit ∈ values value) :
    digit < 10 := by
  fun_induction values value with
  | case1 value hSmall =>
      rw [List.mem_singleton.mp h]
      exact hSmall
  | case2 value hLarge ih =>
      rcases List.mem_append.mp h with hMem | hMem
      · exact ih hMem
      · rw [List.mem_singleton.mp hMem]
        exact Nat.mod_lt _ (by decide)

/- The digits of a number stand for it. -/
theorem ofDigits_values
    (value : Nat) :
    ofDigits (values value) = value := by
  fun_induction values value with
  | case1 value hSmall => simp [ofDigits]
  | case2 value hLarge ih =>
      unfold ofDigits at ih ⊢
      rw [List.foldl_append, ih]
      simp only [List.foldl_cons, List.foldl_nil]
      omega

/- A number has a first digit, which only for zero is one. -/
theorem values_eq_cons
    (value : Nat) :
    ∃ first rest,
      values value = first :: rest ∧
        (value ≠ 0 → first ≠ 0) := by
  fun_induction values value with
  | case1 value hSmall => exact ⟨value, [], rfl, id⟩
  | case2 value hLarge ih =>
      rcases ih with ⟨first, rest, hValues, hFirst⟩
      rw [hValues]
      exact
        ⟨first, rest ++ [value % 10], rfl,
          fun _ => hFirst (by omega)⟩

end Decimal

namespace Json

/- The byte of a digit. -/
def digitByte
    (value : Nat) : UInt8 :=
  Utf8.ascii (Decimal.digit value)

/- A digit is read from its byte. -/
theorem digit?_digitByte :
    ∀ value < 10, digit? (digitByte value) = some value := by
  decide

/- So the byte of a digit is one. -/
theorem isSome_digit?_digitByte
    {value : Nat}
    (h : value < 10) :
    (digit? (digitByte value)).isSome = true := by
  rw [digit?_digitByte value h]
  rfl

/- Digits are none of the bytes that start other values. -/
theorem digitByte_ne :
    ∀ value < 10,
      digitByte value ≠ Utf8.ascii 'n' ∧
        digitByte value ≠ Utf8.ascii 't' ∧
        digitByte value ≠ Utf8.ascii 'f' ∧
        digitByte value ≠ Utf8.ascii '-' := by
  decide

/- The bytes of a number are those of its digits. -/
theorem encode_digits
    (value : Nat) :
    Utf8.encode (Decimal.digits value) =
      (Decimal.values value).map digitByte := by
  have hAscii :
      ∀ digit < 10, (Decimal.digit digit).toNat < 0x80 := by
    decide
  rw [Decimal.digits_eq_map_values,
    Utf8.encode_of_all_ascii, List.map_map]
  · rfl
  · intro c hMem
    rcases List.mem_map.mp hMem with ⟨digit, hDigit, rfl⟩
    exact hAscii digit (Decimal.lt_of_mem_values hDigit)

------------------------------------------------------------
-- Numerals
------------------------------------------------------------

/- What may come after a number and is no part of it. -/
def EndsNumber
    (rest : List UInt8) : Prop :=
  ∀ byte ∈ rest.head?,
    digit? byte = none ∧ byte ≠ Utf8.ascii '.' ∧
      byte ≠ Utf8.ascii 'e' ∧ byte ≠ Utf8.ascii 'E'

/- A number may be the last thing in a text. -/
theorem endsNumber_nil :
    EndsNumber [] := by
  intro byte hMem
  simp at hMem

/- Other bytes of numerals end none. -/
theorem endsNumber_cons
    {byte : UInt8}
    (hDigit : digit? byte = none)
    (hOther :
      byte ≠ Utf8.ascii '.' ∧ byte ≠ Utf8.ascii 'e' ∧
        byte ≠ Utf8.ascii 'E')
    (rest : List UInt8) :
    EndsNumber (byte :: rest) := by
  intro first hMem
  rw [List.head?_cons, Option.mem_some_iff] at hMem
  rw [← hMem]
  exact ⟨hDigit, hOther⟩

section Numerals

variable {rest : List UInt8}

/- Digits are read up to what ends the number. -/
theorem spanDigits_values
    (values : List Nat)
    (hValues : ∀ value ∈ values, value < 10)
    (hRest : EndsNumber rest) :
    spanDigits (values.map digitByte ++ rest) =
      (values, rest) := by
  induction values with
  | nil =>
      cases rest with
      | nil => rfl
      | cons byte rest =>
          have hByte := hRest byte rfl
          rw [List.map_nil, List.nil_append, spanDigits, hByte.1]
  | cons value values ih =>
      rw [List.forall_mem_cons] at hValues
      rw [List.map_cons, List.cons_append, spanDigits,
        digit?_digitByte value hValues.1, ih hValues.2]

/- The digits of a number are read before the point. -/
theorem readWhole_values
    (value : Nat)
    (hRest : EndsNumber rest) :
    Gives
      (readWhole
        ((Decimal.values value).map digitByte ++ rest))
      (Decimal.values value) rest := by
  by_cases hZero : value = 0
  · have hSpan := spanDigits_values [] (by simp) hRest
    rw [List.map_nil, List.nil_append] at hSpan
    have hValues : Decimal.values value = [0] := by
      rw [hZero, Decimal.values]
      rfl
    rw [hValues, List.map_cons, List.map_nil,
      List.singleton_append, readWhole,
      digit?_digitByte 0 (by decide)]
    dsimp only
    rw [if_pos rfl, hSpan, if_pos rfl]
    exact ⟨_, rfl⟩
  · rcases Decimal.values_eq_cons value with
      ⟨first, digits, hValues, hFirst⟩
    have hAll :
        ∀ digit ∈ Decimal.values value, digit < 10 := by
      intro digit hMem
      exact Decimal.lt_of_mem_values hMem
    rw [hValues, List.forall_mem_cons] at hAll
    have hSpan := spanDigits_values digits hAll.2 hRest
    rw [hValues, List.map_cons, List.cons_append, readWhole,
      digit?_digitByte first hAll.1]
    dsimp only
    rw [if_neg (hFirst hZero)]
    exact
      gives_ok (congrArg (first :: ·.1) hSpan)
        (congrArg Prod.snd hSpan)

/- There is no fraction where a number ends. -/
theorem readFraction_of_ends
    (hRest : EndsNumber rest) :
    Gives (readFraction rest) [] rest := by
  cases rest with
  | nil => exact ⟨_, rfl⟩
  | cons byte rest =>
      have hByte := hRest byte rfl
      rw [readFraction, if_neg hByte.2.1]
      exact ⟨_, rfl⟩

/- There is no exponent where a number ends. -/
theorem readExponent_of_ends
    (hRest : EndsNumber rest) :
    Gives (readExponent rest) none rest := by
  cases rest with
  | nil => exact ⟨_, rfl⟩
  | cons byte rest =>
      have hByte := hRest byte rfl
      have hExponent :
          ¬(byte = Utf8.ascii 'e' ∨
            byte = Utf8.ascii 'E') := by
        rintro (hLower | hUpper)
        · exact hByte.2.2.1 hLower
        · exact hByte.2.2.2 hUpper
      rw [readExponent, if_neg hExponent]
      exact ⟨_, rfl⟩

------------------------------------------------------------
-- Numbers
------------------------------------------------------------

/- Further digits make a number no smaller. -/
theorem le_foldl_digits
    (total : Nat)
    (values : List Nat) :
    total ≤
      values.foldl (fun total value => total * 10 + value)
        total := by
  induction values generalizing total with
  | nil => exact Nat.le_refl total
  | cons value values ih =>
      have hRest := ih (total * 10 + value)
      rw [List.foldl_cons]
      omega

/- Digits that fit are all gathered. -/
theorem absorb_of_lt
    {significand : Nat}
    {values : List Nat}
    (h :
      values.foldl (fun total value => total * 10 + value)
        significand < 1 <<< 64) :
    absorb significand values =
      (values.foldl (fun total value => total * 10 + value)
        significand, []) := by
  induction values generalizing significand with
  | nil => rfl
  | cons value values ih =>
      rw [List.foldl_cons] at h ⊢
      have hFits :=
        Nat.lt_of_le_of_lt (le_foldl_digits _ values) h
      rw [absorb, if_pos hFits]
      exact ih h

/- A number of at most 64 bits is read from its digits. -/
theorem readNumber_digits
    {value : Nat}
    (negative : Bool)
    (hFits : value < 1 <<< 64)
    (hRest : EndsNumber rest) :
    Gives
      (readNumber negative
        (Utf8.encode (Decimal.digits value) ++ rest))
      (Numeral.wholeNumber negative value) rest := by
  have hNumeral :
      Gives
        (readNumeral negative
          (Utf8.encode (Decimal.digits value) ++ rest))
        ⟨negative, Decimal.values value, [], none⟩ rest := by
    rw [encode_digits]
    unfold readNumeral
    apply (readWhole_values value hRest).bind
    intro _
    apply (readFraction_of_ends hRest).bind
    intro _
    apply (readExponent_of_ends hRest).bind
    intro _
    exact ⟨_, rfl⟩
  have hDigits := Decimal.ofDigits_values value
  unfold Decimal.ofDigits at hDigits
  have hAbsorb :
      absorb 0 (Decimal.values value) = (value, []) := by
    rw [absorb_of_lt (by rw [hDigits]; exact hFits), hDigits]
  have hNumber :
      Numeral.number?
          ⟨negative, Decimal.values value, [], none⟩ =
        some (Numeral.wholeNumber negative value) := by
    simp [Numeral.number?, Numeral.parts, hAbsorb, absorb]
  unfold readNumber
  apply hNumeral.bind
  intro _
  dsimp only
  rw [hNumber]
  exact ⟨_, rfl⟩

/- A whole number is the one that its numeral stands for. -/
theorem wholeNumber_natAbs
    {value : Int}
    (fits : -1 <<< 63 ≤ value ∧ value < 1 <<< 64) :
    Numeral.wholeNumber (decide (value < 0)) value.natAbs =
      .integer value fits := by
  unfold Numeral.wholeNumber
  by_cases hNegative : value < 0
  · have hFits :
        value.natAbs ≠ 0 ∧ value.natAbs ≤ 1 <<< 63 := by
      omega
    rw [decide_eq_true hNegative, if_pos rfl, dif_pos hFits]
    congr 1
    omega
  · have hFits : value.natAbs < 1 <<< 64 := by
      omega
    rw [decide_eq_false hNegative, if_neg (by decide),
      dif_pos hFits]
    congr 1
    omega

end Numerals

end Json

end DottedRef
