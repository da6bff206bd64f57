import DottedRef.Double.Layout
import DottedRef.Json.Node

/-
  This file writes JSON values as compact text.

  Key definitions include:
    * `Json.doubleLayout`
    * `Json.Number.write`
    * `Json.escape`
    * `Json.quote`
    * `Json.Node.write`
    * `Json.Node.render`
-/

namespace DottedRef

------------------------------------------------------------
-- Compact Text
------------------------------------------------------------

namespace Json

/-
  Doubles from a hundred-thousandth up to below ten
  quadrillion are written in full.
-/
def doubleLayout : Double.Layout :=
  ⟨-5, 15⟩

/- The text of a number. -/
def Number.write : Number → List Char
  | integer value _ =>
      if value < 0 then
        '-' :: Decimal.digits value.natAbs
      else
        Decimal.digits value.natAbs
  | double value => doubleLayout.write value

/- The lowercase hexadecimal character of a digit. -/
def hexDigit
    (value : Nat) : Char :=
  if value < 10 then
    Char.ofNat (48 + value)
  else
    Char.ofNat (87 + value)

/-
  A character inside a string. Quotation marks, backslashes
  and controls are escaped, and nothing else is.
-/
def escape
    (c : Char) : List Char :=
  if c = '"' then ['\\', '"']
  else if c = '\\' then ['\\', '\\']
  else if c = '\n' then ['\\', 'n']
  else if c = '\r' then ['\\', 'r']
  else if c = '\t' then ['\\', 't']
  else if c.toNat = 8 then ['\\', 'b']
  else if c.toNat = 12 then ['\\', 'f']
  else if c.toNat < 32 then
    ['\\', 'u', '0', '0', hexDigit (c.toNat / 16),
      hexDigit (c.toNat % 16)]
  else [c]

/- A string between quotation marks. -/
def quote
    (text : String) : List Char :=
  '"' :: text.toList.flatMap escape ++ ['"']

mutual

/- The text of a value. -/
def Node.write : Node → List Char
  | .null => ['n', 'u', 'l', 'l']
  | .boolean true => ['t', 'r', 'u', 'e']
  | .boolean false => ['f', 'a', 'l', 's', 'e']
  | .number value => value.write
  | .string value => quote value
  | .array items => '[' :: writeItems items
  | .object pairs => '\x7b' :: writePairs pairs

/- The items of an array, with the bracket that ends them. -/
def writeItems : List Node → List Char
  | [] => [']']
  | [item] => item.write ++ [']']
  | item :: next :: items =>
      item.write ++ ',' :: writeItems (next :: items)

/- The pairs of an object, with the brace that ends them. -/
def writePairs : List (String × Node) → List Char
  | [] => ['\x7d']
  | [(key, value)] => quote key ++ ':' :: value.write ++ ['\x7d']
  | (key, value) :: next :: pairs =>
      quote key ++ ':' :: value.write ++
        ',' :: writePairs (next :: pairs)

end

/- The compact text of a value. -/
def Node.render
    (node : Node) : String :=
  String.ofList node.write

end Json

end DottedRef
