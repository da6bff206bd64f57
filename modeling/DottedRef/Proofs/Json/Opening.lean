import DottedRef.Proofs.Json.Numerals

/-
  This file tells what the readers of values do at the first
  byte of a value: which bytes open a value, what is read
  after each, and how items and entries follow one another.

  Key definitions include:
    * `Json.Opens`

  Key theorems include:
    * `Json.Opens.gives`
    * `Json.readItems_first`
    * `Json.readItems_next`
    * `Json.readEntries_first`
    * `Json.readEntries_next`
-/

namespace DottedRef

namespace Json

------------------------------------------------------------
-- Values
------------------------------------------------------------

/-
  A value that starts with a byte is read from what follows,
  and leaves a rest.
-/
inductive Opens :
    Nat → UInt8 → List UInt8 → Node → List UInt8 → Prop
  | null
      {depth : Nat}
      {source rest : List UInt8}
      (h :
        Gives (readWord (Utf8.encode "ull".toList) source) ()
          rest) :
      Opens depth (Utf8.ascii 'n') source .null rest
  | yes
      {depth : Nat}
      {source rest : List UInt8}
      (h :
        Gives (readWord (Utf8.encode "rue".toList) source) ()
          rest) :
      Opens depth (Utf8.ascii 't') source (.boolean true) rest
  | no
      {depth : Nat}
      {source rest : List UInt8}
      (h :
        Gives (readWord (Utf8.encode "alse".toList) source) ()
          rest) :
      Opens depth (Utf8.ascii 'f') source (.boolean false) rest
  | minus
      {depth : Nat}
      {source rest : List UInt8}
      {value : Number}
      (h : Gives (readNumber true source) value rest) :
      Opens depth (Utf8.ascii '-') source (.number value) rest
  | digit
      {depth digit : Nat}
      {source rest : List UInt8}
      {value : Number}
      (hDigit : digit < 10)
      (h :
        Gives (readNumber false (digitByte digit :: source))
          value rest) :
      Opens depth (digitByte digit) source (.number value) rest
  | string
      {depth : Nat}
      {source rest : List UInt8}
      {value : String}
      (h : Gives (readString source) value rest) :
      Opens depth (Utf8.ascii '"') source (.string value) rest
  | array
      {depth : Nat}
      {source rest : List UInt8}
      {items : List Node}
      (h : Gives (readItems depth true source) items rest) :
      Opens (depth + 1) (Utf8.ascii '[') source (.array items)
        rest
  | object
      {depth : Nat}
      {source rest : List UInt8}
      {entries : List (String × Node)}
      (h : Gives (readEntries depth true source) entries rest) :
      Opens (depth + 1) (Utf8.ascii '\x7b') source
        (.ofEntries entries) rest

namespace Opens

variable {depth : Nat}
variable {byte : UInt8}
variable {source rest : List UInt8}
variable {node : Node}

/- Neither a blank nor a bracket starts a value. -/
theorem starts
    (h : Opens depth byte source node rest) :
    isBlank byte = false ∧ byte ≠ Utf8.ascii ']' := by
  have hDigit :
      ∀ digit < 10,
        isBlank (digitByte digit) = false ∧
          digitByte digit ≠ Utf8.ascii ']' := by
    decide
  cases h with
  | digit hSmall h => exact hDigit _ hSmall
  | _ => decide

/- The reader of values reads what a byte opens. -/
theorem gives
    (h : Opens depth byte source node rest) :
    Gives (readNode depth (byte :: source)) node rest := by
  have hBlank := h.starts.1
  rw [readNode]
  split
  · rename_i hNil
    exact absurd hNil (skipBlanks_ne_nil hBlank)
  · rename_i first after hCons
    rcases skipBlanks_cons_inj hBlank hCons with ⟨rfl, rfl⟩
    dsimp only
    -- For a known byte the choice of a reader computes.
    cases h with
    | digit hSmall h =>
        have hNe := digitByte_ne _ hSmall
        rw [if_neg hNe.1, if_neg hNe.2.1, if_neg hNe.2.2.1,
          if_neg hNe.2.2.2,
          if_pos (isSome_digit?_digitByte hSmall)]
        exact h.bind fun within => ⟨_, rfl⟩
    | null h => exact h.bind fun within => ⟨_, rfl⟩
    | yes h => exact h.bind fun within => ⟨_, rfl⟩
    | no h => exact h.bind fun within => ⟨_, rfl⟩
    | minus h => exact h.bind fun within => ⟨_, rfl⟩
    | string h => exact h.bind fun within => ⟨_, rfl⟩
    | array h => exact h.bind fun within => ⟨_, rfl⟩
    | object h => exact h.bind fun within => ⟨_, rfl⟩

end Opens

------------------------------------------------------------
-- Arrays and Objects
------------------------------------------------------------

section Lists

variable {depth : Nat}
variable {byte : UInt8}
variable {source middle rest : List UInt8}

/- An array may end wherever an item may start. -/
theorem readItems_end
    (depth : Nat)
    (opening : Bool)
    (rest : List UInt8) :
    Gives
      (readItems depth opening (Utf8.ascii ']' :: rest)) []
      rest := by
  have hBlank : isBlank (Utf8.ascii ']') = false := by decide
  rw [readItems]
  split
  · rename_i hNil
    exact absurd hNil (skipBlanks_ne_nil hBlank)
  · rename_i first after hCons
    rcases skipBlanks_cons_inj hBlank hCons with ⟨rfl, rfl⟩
    rw [if_pos rfl]
    exact ⟨_, rfl⟩

/- The first item of an array is read with those after it. -/
theorem readItems_first
    {item : Node}
    {items : List Node}
    (hItem : Opens depth byte source item middle)
    (hItems : Gives (readItems depth false middle) items rest) :
    Gives (readItems depth true (byte :: source))
      (item :: items) rest := by
  have hBlank := hItem.starts.1
  rw [readItems]
  split
  · rename_i hNil
    exact absurd hNil (skipBlanks_ne_nil hBlank)
  · rename_i first after hCons
    rcases skipBlanks_cons_inj hBlank hCons with ⟨rfl, rfl⟩
    dsimp only
    rw [if_neg hItem.starts.2, if_pos rfl]
    apply hItem.gives.bind
    intro within
    exact hItems.bind fun within => ⟨_, rfl⟩

/- Every further item is read after a comma. -/
theorem readItems_next
    {item : Node}
    {items : List Node}
    (hItem : Opens depth byte source item middle)
    (hItems : Gives (readItems depth false middle) items rest) :
    Gives
      (readItems depth false
        (Utf8.ascii ',' :: byte :: source))
      (item :: items) rest := by
  have hComma : isBlank (Utf8.ascii ',') = false := by decide
  have hBlank := hItem.starts.1
  rw [readItems]
  split
  · rename_i hNil
    exact absurd hNil (skipBlanks_ne_nil hComma)
  · rename_i first after hCons
    rcases skipBlanks_cons_inj hComma hCons with ⟨rfl, rfl⟩
    dsimp only
    rw [if_neg (by decide), if_neg (by decide), if_pos rfl]
    split
    · rename_i hNil
      exact absurd hNil (skipBlanks_ne_nil hBlank)
    · rename_i next after hNext
      rcases skipBlanks_cons_inj hBlank hNext with ⟨rfl, rfl⟩
      rw [if_neg hItem.starts.2]
      apply hItem.gives.bind
      intro within
      exact hItems.bind fun within => ⟨_, rfl⟩

/- An object may end wherever a key may start. -/
theorem readEntries_end
    (depth : Nat)
    (opening : Bool)
    (rest : List UInt8) :
    Gives
      (readEntries depth opening (Utf8.ascii '\x7d' :: rest))
      [] rest := by
  have hBlank : isBlank (Utf8.ascii '\x7d') = false := by decide
  rw [readEntries]
  split
  · rename_i hNil
    exact absurd hNil (skipBlanks_ne_nil hBlank)
  · rename_i first after hCons
    rcases skipBlanks_cons_inj hBlank hCons with ⟨rfl, rfl⟩
    rw [if_pos rfl]
    exact ⟨_, rfl⟩

section Entries

variable {key : String}
variable {keySource : List UInt8}
variable {value : Node}
variable {entries : List (String × Node)}

/- The first entry of an object is read with those after it. -/
theorem readEntries_first
    (hKey : Gives (readKey keySource) key (byte :: source))
    (hValue : Opens depth byte source value middle)
    (hEntries :
      Gives (readEntries depth false middle) entries rest) :
    Gives
      (readEntries depth true (Utf8.ascii '"' :: keySource))
      ((key, value) :: entries) rest := by
  have hBlank : isBlank (Utf8.ascii '"') = false := by decide
  rw [readEntries]
  split
  · rename_i hNil
    exact absurd hNil (skipBlanks_ne_nil hBlank)
  · rename_i first after hCons
    rcases skipBlanks_cons_inj hBlank hCons with ⟨rfl, rfl⟩
    dsimp only
    rw [if_neg (by decide), if_pos rfl, if_pos rfl]
    apply hKey.bind
    intro within
    apply hValue.gives.bind
    intro within
    exact hEntries.bind fun within => ⟨_, rfl⟩

/- Every further entry is read after a comma. -/
theorem readEntries_next
    (hKey : Gives (readKey keySource) key (byte :: source))
    (hValue : Opens depth byte source value middle)
    (hEntries :
      Gives (readEntries depth false middle) entries rest) :
    Gives
      (readEntries depth false
        (Utf8.ascii ',' :: Utf8.ascii '"' :: keySource))
      ((key, value) :: entries) rest := by
  have hComma : isBlank (Utf8.ascii ',') = false := by decide
  have hBlank : isBlank (Utf8.ascii '"') = false := by decide
  rw [readEntries]
  split
  · rename_i hNil
    exact absurd hNil (skipBlanks_ne_nil hComma)
  · rename_i first after hCons
    rcases skipBlanks_cons_inj hComma hCons with ⟨rfl, rfl⟩
    dsimp only
    rw [if_neg (by decide), if_neg (by decide), if_pos rfl]
    split
    · rename_i hNil
      exact absurd hNil (skipBlanks_ne_nil hBlank)
    · rename_i next after hNext
      rcases skipBlanks_cons_inj hBlank hNext with ⟨rfl, rfl⟩
      rw [if_pos rfl]
      apply hKey.bind
      intro within
      apply hValue.gives.bind
      intro within
      exact hEntries.bind fun within => ⟨_, rfl⟩

end Entries

end Lists

end Json

end DottedRef
