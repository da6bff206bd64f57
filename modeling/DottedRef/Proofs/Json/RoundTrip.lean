import DottedRef.LoadError
import DottedRef.Proofs.Json.Keys
import DottedRef.Proofs.Json.Opening

/-
  This file proves that a value without doubles is read back
  from its text, if no object in it has a key twice and it is
  not nested too deeply. So no two such values have the same
  text, and a document without doubles is reproduced from the
  text of its root.

  Key definitions include:
    * `Json.Node.FloatFree`
    * `Json.Node.depth`
    * `Json.Node.Printable`
    * `Document.sourceOf`

  Key theorems include:
    * `Json.opens_write`
    * `Json.Node.parse_write`
    * `Json.depth_readClosed`
    * `Document.rendering_round_trips`
-/

namespace DottedRef

namespace Json

------------------------------------------------------------
-- Values That Can Be Read Back
------------------------------------------------------------

/- In no place within a value is there a double. -/
inductive Node.FloatFree : Node → Prop
  | null : FloatFree .null
  | boolean
      (value : Bool) :
      FloatFree (.boolean value)
  | integer
      (value : Int)
      (fits : -1 <<< 63 ≤ value ∧ value < 1 <<< 64) :
      FloatFree (.number (.integer value fits))
  | string
      (value : String) :
      FloatFree (.string value)
  | array
      {items : List Node}
      (hItems : ∀ item ∈ items, FloatFree item) :
      FloatFree (.array items)
  | object
      {pairs : List (String × Node)}
      (hValues : ∀ pair ∈ pairs, FloatFree pair.2) :
      FloatFree (.object pairs)

mutual

/- The greatest number of arrays and objects in each other. -/
def Node.depth : Node → Nat
  | .array items => depthOfItems items + 1
  | .object pairs => depthOfPairs pairs + 1
  | _ => 0

/- The depth of the deepest item. -/
def depthOfItems : List Node → Nat
  | [] => 0
  | item :: items => max item.depth (depthOfItems items)

/- The depth of the deepest value. -/
def depthOfPairs : List (String × Node) → Nat
  | [] => 0
  | (_, value) :: pairs =>
      max value.depth (depthOfPairs pairs)

end

/- Items are no deeper than each of them. -/
theorem depthOfItems_le_iff
    (items : List Node)
    (limit : Nat) :
    depthOfItems items ≤ limit ↔
      ∀ item ∈ items, item.depth ≤ limit := by
  induction items with
  | nil => simp [depthOfItems]
  | cons item items ih =>
      rw [depthOfItems, Nat.max_le, ih, List.forall_mem_cons]

/- Pairs are no deeper than the value of each. -/
theorem depthOfPairs_le_iff
    (pairs : List (String × Node))
    (limit : Nat) :
    depthOfPairs pairs ≤ limit ↔
      ∀ pair ∈ pairs, pair.2.depth ≤ limit := by
  induction pairs with
  | nil => simp [depthOfPairs]
  | cons pair pairs ih =>
      rw [depthOfPairs, Nat.max_le, ih, List.forall_mem_cons]

/- A value that is read back where there is room for it. -/
structure Node.Printable
    (limit : Nat)
    (node : Node) : Prop where
  keysUnique : node.KeysUnique
  floatFree : node.FloatFree
  depth_le : node.depth ≤ limit

namespace Node.Printable

/- There is room for an array and each of its items. -/
theorem array
    {limit : Nat}
    {items : List Node}
    (h : Printable limit (.array items)) :
    ∃ inner, limit = inner + 1 ∧
      ∀ item ∈ items, item.Printable inner := by
  rcases h with ⟨hKeys, hFloat, hDepth⟩
  rw [Node.depth] at hDepth
  cases hKeys with
  | array hKeys =>
      cases hFloat with
      | array hFloat =>
          cases limit with
          | zero => omega
          | succ inner =>
              have hItems :=
                (depthOfItems_le_iff items inner).mp (by omega)
              refine ⟨inner, rfl, ?_⟩
              intro item hMem
              exact
                ⟨hKeys item hMem, hFloat item hMem,
                  hItems item hMem⟩

/- There is room for an object and each of its values. -/
theorem object
    {limit : Nat}
    {pairs : List (String × Node)}
    (h : Printable limit (.object pairs)) :
    ∃ inner, limit = inner + 1 ∧
      (pairs.map Prod.fst).Nodup ∧
      ∀ pair ∈ pairs, pair.2.Printable inner := by
  rcases h with ⟨hKeys, hFloat, hDepth⟩
  rw [Node.depth] at hDepth
  cases hKeys with
  | object hNodup hKeys =>
      cases hFloat with
      | object hFloat =>
          cases limit with
          | zero => omega
          | succ inner =>
              have hValues :=
                (depthOfPairs_le_iff pairs inner).mp (by omega)
              refine ⟨inner, rfl, hNodup, ?_⟩
              intro pair hMem
              exact
                ⟨hKeys pair hMem, hFloat pair hMem,
                  hValues pair hMem⟩

end Node.Printable

------------------------------------------------------------
-- Writers
------------------------------------------------------------

/- Parts after a first one, with the mark that ends them. -/
def writeAfter
    (write : α → List Char)
    (mark : Char)
    (parts : List α) : List Char :=
  parts.flatMap (fun part => ',' :: write part) ++ [mark]

/- The text of an entry of an object. -/
def writeEntry
    (entry : String × Node) : List Char :=
  quote entry.1 ++ ':' :: entry.2.write

/- An array starts with its first item. -/
theorem writeItems_cons
    (item : Node)
    (items : List Node) :
    writeItems (item :: items) =
      item.write ++ writeAfter Node.write ']' items := by
  induction items generalizing item with
  | nil => rw [writeItems, writeAfter, List.flatMap_nil,
      List.nil_append]
  | cons next items ih =>
      rw [writeItems, ih, writeAfter, writeAfter,
        List.flatMap_cons]
      simp only [List.cons_append, List.append_assoc]

/- An object starts with its first entry. -/
theorem writePairs_cons
    (pair : String × Node)
    (pairs : List (String × Node)) :
    writePairs (pair :: pairs) =
      writeEntry pair ++ writeAfter writeEntry '\x7d' pairs := by
  induction pairs generalizing pair with
  | nil =>
      rw [writePairs, writeAfter, List.flatMap_nil,
        List.nil_append, writeEntry]
  | cons next pairs ih =>
      rw [writePairs, ih, writeAfter, writeAfter,
        List.flatMap_cons]
      simp only [writeEntry, List.cons_append,
        List.append_assoc]

section Parts

variable {write : α → List Char}
variable {mark : Char}

/- Every further part comes after a comma. -/
theorem encode_writeAfter_cons
    (part : α)
    (parts : List α)
    (rest : List UInt8) :
    Utf8.encode (writeAfter write mark (part :: parts)) ++
        rest =
      Utf8.ascii ',' ::
        (Utf8.encode (write part) ++
          (Utf8.encode (writeAfter write mark parts) ++
            rest)) := by
  unfold writeAfter
  rw [List.flatMap_cons, List.cons_append, List.cons_append,
    Utf8.encode_cons_of_ascii (by decide), List.append_assoc,
    Utf8.encode_append, List.cons_append, List.append_assoc]

/- No number goes on with what comes after a part. -/
theorem endsNumber_writeAfter
    (hMark : mark = ']' ∨ mark = '\x7d')
    (parts : List α)
    (rest : List UInt8) :
    EndsNumber
      (Utf8.encode (writeAfter write mark parts) ++ rest) := by
  cases parts with
  | nil =>
      rcases hMark with rfl | rfl
      · exact endsNumber_cons (by decide) (by decide) rest
      · exact endsNumber_cons (by decide) (by decide) rest
  | cons part parts =>
      rw [encode_writeAfter_cons]
      exact endsNumber_cons (by decide) (by decide) _

end Parts

/- The key of an entry is read back, up to its value. -/
theorem readKey_writeEntry
    (pair : String × Node)
    {rest valueSource : List UInt8}
    (hValue :
      Utf8.encode pair.2.write ++ rest = valueSource) :
    ∃ source,
      Utf8.encode (writeEntry pair) ++ rest =
          Utf8.ascii '"' :: source ∧
        Gives (readKey source) pair.1 valueSource := by
  rcases readKey_quote pair.1 valueSource with
    ⟨source, hSource, hRead⟩
  refine ⟨source, ?_, hRead⟩
  unfold writeEntry
  rw [Utf8.encode_append,
    Utf8.encode_cons_of_ascii (by decide), List.append_assoc,
    List.cons_append, hValue, hSource]

/- The text of a number is read back. -/
theorem opens_integer
    {depth : Nat}
    {rest : List UInt8}
    {value : Int}
    (fits : -1 <<< 63 ≤ value ∧ value < 1 <<< 64)
    (hRest : EndsNumber rest) :
    ∃ byte source,
      Utf8.encode (Number.integer value fits).write ++ rest =
          byte :: source ∧
        Opens depth byte source
          (.number (.integer value fits)) rest := by
  have hWhole := wholeNumber_natAbs fits
  have hFits : value.natAbs < 1 <<< 64 := by omega
  rw [Number.write]
  by_cases hNegative : value < 0
  · rw [decide_eq_true hNegative] at hWhole
    have hRead := readNumber_digits true hFits hRest
    rw [hWhole] at hRead
    rw [if_pos hNegative,
      Utf8.encode_cons_of_ascii (by decide), List.cons_append]
    exact ⟨_, _, rfl, .minus hRead⟩
  · rw [decide_eq_false hNegative] at hWhole
    have hRead := readNumber_digits false hFits hRest
    rcases Decimal.values_eq_cons value.natAbs with
      ⟨first, digits, hValues, -⟩
    have hMem : first ∈ Decimal.values value.natAbs := by
      rw [hValues]
      exact List.mem_cons_self
    have hSmall := Decimal.lt_of_mem_values hMem
    rw [hWhole, encode_digits, hValues] at hRead
    rw [if_neg hNegative, encode_digits, hValues]
    exact ⟨_, _, rfl, .digit hSmall hRead⟩

mutual

/- The text of a value is read back, whatever ends it. -/
theorem opens_write :
    ∀ (node : Node) {limit : Nat} {rest : List UInt8},
      node.Printable limit → EndsNumber rest →
        ∃ byte source,
          Utf8.encode node.write ++ rest = byte :: source ∧
            Opens limit byte source node rest
  | .null, limit, rest, h, hRest => by
      rw [Node.write]
      exact ⟨_, _, rfl, .null (readWord_append _ rest)⟩
  | .boolean true, limit, rest, h, hRest => by
      rw [Node.write]
      exact ⟨_, _, rfl, .yes (readWord_append _ rest)⟩
  | .boolean false, limit, rest, h, hRest => by
      rw [Node.write]
      exact ⟨_, _, rfl, .no (readWord_append _ rest)⟩
  | .number value, limit, rest, h, hRest => by
      rw [Node.write]
      cases h.floatFree with
      | integer value fits => exact opens_integer fits hRest
  | .string value, limit, rest, h, hRest => by
      rcases readString_quote value rest with
        ⟨source, hSource, hRead⟩
      rw [Node.write, hSource]
      exact ⟨_, _, rfl, .string hRead⟩
  | .array [], limit, rest, h, hRest => by
      rcases h.array with ⟨inner, rfl, -⟩
      rw [Node.write, writeItems]
      exact
        ⟨_, _, rfl, .array (readItems_end inner true rest)⟩
  | .array (item :: items), limit, rest, h, hRest => by
      rcases h.array with ⟨inner, rfl, hItems⟩
      rw [List.forall_mem_cons] at hItems
      -- The first item ends where a comma or bracket starts.
      rcases opens_write item hItems.1
          (endsNumber_writeAfter (.inl rfl) items rest) with
        ⟨byte, source, hSource, hItem⟩
      have hAfter := gives_items items hItems.2 rest
      rw [Node.write, writeItems_cons,
        Utf8.encode_cons_of_ascii (by decide),
        Utf8.encode_append, List.cons_append,
        List.append_assoc, hSource]
      exact ⟨_, _, rfl, .array (readItems_first hItem hAfter)⟩
  | .object [], limit, rest, h, hRest => by
      rcases h.object with ⟨inner, rfl, -⟩
      rw [Node.write, writePairs]
      exact
        ⟨_, _, rfl, .object (readEntries_end inner true rest)⟩
  | .object ((key, value) :: pairs), limit, rest, h, hRest => by
      rcases h.object with ⟨inner, rfl, hKeys, hPairs⟩
      rw [List.forall_mem_cons] at hPairs
      rcases opens_write value hPairs.1
          (endsNumber_writeAfter (.inr rfl) pairs rest) with
        ⟨byte, source, hSource, hValue⟩
      rcases readKey_writeEntry (key, value) hSource with
        ⟨keySource, hKeySource, hKey⟩
      have hAfter := gives_entries pairs hPairs.2 rest
      have hOpens :=
        Opens.object (readEntries_first hKey hValue hAfter)
      rw [ofEntries_of_nodup hKeys] at hOpens
      rw [Node.write, writePairs_cons,
        Utf8.encode_cons_of_ascii (by decide),
        Utf8.encode_append, List.cons_append,
        List.append_assoc, hKeySource]
      exact ⟨_, _, rfl, hOpens⟩

/- Items after a first one are read back. -/
theorem gives_items :
    ∀ (items : List Node) {limit : Nat},
      (∀ item ∈ items, item.Printable limit) →
        ∀ rest,
          Gives
            (readItems limit false
              (Utf8.encode (writeAfter Node.write ']' items) ++
                rest))
            items rest
  | [], limit, h, rest => readItems_end limit false rest
  | item :: items, limit, h, rest => by
      rw [List.forall_mem_cons] at h
      rcases opens_write item h.1
          (endsNumber_writeAfter (.inl rfl) items rest) with
        ⟨byte, source, hSource, hItem⟩
      have hAfter := gives_items items h.2 rest
      rw [encode_writeAfter_cons, hSource]
      exact readItems_next hItem hAfter

/- Pairs after a first one are read back. -/
theorem gives_entries :
    ∀ (pairs : List (String × Node)) {limit : Nat},
      (∀ pair ∈ pairs, pair.2.Printable limit) →
        ∀ rest,
          Gives
            (readEntries limit false
              (Utf8.encode
                  (writeAfter writeEntry '\x7d' pairs) ++
                rest))
            pairs rest
  | [], limit, h, rest => readEntries_end limit false rest
  | (key, value) :: pairs, limit, h, rest => by
      rw [List.forall_mem_cons] at h
      rcases opens_write value h.1
          (endsNumber_writeAfter (.inr rfl) pairs rest) with
        ⟨byte, source, hSource, hValue⟩
      rcases readKey_writeEntry (key, value) hSource with
        ⟨keySource, hKeySource, hKey⟩
      have hAfter := gives_entries pairs h.2 rest
      rw [encode_writeAfter_cons, hKeySource]
      exact readEntries_next hKey hValue hAfter

end

------------------------------------------------------------
-- Whole Texts
------------------------------------------------------------

/- The text of a value that can be read back is. -/
theorem Node.parse_write
    {node : Node}
    (h : node.Printable depthLimit) :
    Node.parse (Utf8.encode node.write) = .ok node := by
  rcases opens_write node h endsNumber_nil with
    ⟨byte, source, hSource, hOpens⟩
  rw [List.append_nil] at hSource
  rcases hOpens.gives with ⟨within, hRead⟩
  have hText :
      readText (byte :: source) = .ok node := by
    unfold readText
    rw [hRead]
    rfl
  unfold Node.parse
  rw [hSource, hText]

/- What is read is no deeper than there is room for. -/
theorem depth_readClosed :
    ReadClosed (fun limit node => node.depth ≤ limit) where
  null limit := Nat.zero_le limit
  boolean limit value := Nat.zero_le limit
  number limit value := Nat.zero_le limit
  string limit value := Nat.zero_le limit
  array limit items hItems := by
    rw [Node.depth]
    exact
      Nat.succ_le_succ
        ((depthOfItems_le_iff items limit).mpr hItems)
  ofEntries limit entries hEntries := by
    rcases exists_ofEntries entries with
      ⟨pairs, hPairs, -, hMem⟩
    rw [hPairs, Node.depth]
    apply Nat.succ_le_succ
    rw [depthOfPairs_le_iff]
    intro pair hPair
    exact hEntries pair (hMem pair hPair)

/- What is read without doubles can be read back. -/
theorem Node.printable_of_parse
    {source : List UInt8}
    {node : Node}
    (h : Node.parse source = .ok node)
    (hFloat : node.FloatFree) :
    node.Printable depthLimit :=
  ⟨keysUnique_readClosed.parse h, hFloat,
    depth_readClosed.parse h⟩

end Json

namespace Document

open Json

/- The bytes of the text of a value. -/
def sourceOf
    (node : Node) : List UInt8 :=
  Utf8.encode node.render.toList

/- The text of a value that can be read back is a document. -/
theorem parse_sourceOf
    {node : Node}
    (h : node.Printable depthLimit)
    (name : String) :
    parse name (sourceOf node) = .ok ⟨node⟩ := by
  unfold parse sourceOf Node.render
  rw [String.toList_ofList, Node.parse_write h]

/- What is parsed without doubles can be read back. -/
theorem printable_of_parse
    {name : String}
    {source : List UInt8}
    {document : Document}
    (h : parse name source = .ok document)
    (hFloat : document.root.FloatFree) :
    document.root.Printable depthLimit := by
  unfold parse at h
  split at h
  · rename_i root hRoot
    rw [← Except.ok.inj h] at hFloat ⊢
    exact Node.printable_of_parse hRoot hFloat
  · simp at h

/-
  Rendering a value and parsing the text gives the value, if
  no object in it has a key twice, all its numbers are whole
  and it is nested no deeper than the parser goes. So no two
  such values have the same text, and rendering the root of a
  document without doubles reproduces the document.
-/
theorem rendering_round_trips :
    (∀ (name : String) (node : Node),
      node.Printable depthLimit →
        parse name (sourceOf node) = .ok ⟨node⟩) ∧
      (∀ first second : Node,
        first.Printable depthLimit →
          second.Printable depthLimit →
            first.render = second.render →
              first = second) ∧
      ∀ (name other : String) (source : List UInt8)
          (document : Document),
        parse name source = .ok document →
          document.root.FloatFree →
            parse other (sourceOf document.root) =
              .ok document := by
  refine ⟨?_, ?_, ?_⟩
  · intro name node hPrintable
    exact parse_sourceOf hPrintable name
  · intro first second hFirst hSecond hRender
    have hParsed := parse_sourceOf hFirst ""
    unfold sourceOf at hParsed
    rw [hRender] at hParsed
    have hSame := hParsed.symm.trans (parse_sourceOf hSecond "")
    exact congrArg root (Except.ok.inj hSame)
  · intro name other source document hParse hFloat
    exact parse_sourceOf (printable_of_parse hParse hFloat) other

/-
  The least and the greatest whole number, a control and a
  character of four bytes come back from their text.
-/
theorem rendering_round_trips_of_limits :
    let least := Number.integer (-1 <<< 63) (by decide)
    let greatest := Number.integer (1 <<< 64 - 1) (by decide)
    let node :=
      Node.object
        [("\x01\n/", .array [.number least, .number greatest]),
          ("\"", .string "\\😀")]
    node.render =
        "\x7b\"\\u0001\\n/\":[-9223372036854775808," ++
          "18446744073709551615],\"\\\"\":\"\\\\😀\"\x7d" ∧
      node.Printable depthLimit ∧
      parse "p.json" (sourceOf node) = .ok ⟨node⟩ := by
  intro least greatest node
  have hPrintable : node.Printable depthLimit := by
    constructor
    · apply Node.KeysUnique.object (by decide)
      simp only [List.forall_mem_cons]
      refine ⟨.array ?_, .string _, by simp⟩
      simp only [List.forall_mem_cons]
      exact ⟨.number _, .number _, by simp⟩
    · apply Node.FloatFree.object
      simp only [List.forall_mem_cons]
      refine ⟨.array ?_, .string _, by simp⟩
      simp only [List.forall_mem_cons]
      exact ⟨.integer _ _, .integer _ _, by simp⟩
    · decide
  exact
    ⟨by decide +kernel, hPrintable,
      rendering_round_trips.1 "p.json" node hPrintable⟩

end Document

end DottedRef
