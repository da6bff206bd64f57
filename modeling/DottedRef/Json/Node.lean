/-
  This file defines the tree that a configuration document
  holds: JSON values with object keys in document order.

  Key definitions include:
    * `Json.Number`
    * `Json.Number.same`
    * `Json.Node`
    * `Json.Node.get?`
    * `Json.Node.keys`
    * `Json.Node.isFalsy`
    * `Json.Node.text?`
    * `Json.Node.kind`
    * `Json.Node.same`
-/

namespace DottedRef

namespace Json

------------------------------------------------------------
-- Numbers
------------------------------------------------------------

/-
  A whole number of at most 64 bits, with or without a sign,
  or a double. Every other number is a double.
-/
inductive Number where
  | integer
      (value : Int)
      (fits : -1 <<< 63 ≤ value ∧ value < 1 <<< 64)
  | double (value : Float)

/-
  Whole numbers are the same if they are equal, doubles if
  they compare equal, and one of each never is.
-/
def Number.same : Number → Number → Bool
  | integer first _, integer second _ => first == second
  | double first, double second => first == second
  | _, _ => false

------------------------------------------------------------
-- Nodes
------------------------------------------------------------

/- A JSON value. An object lists its pairs in order. -/
inductive Node where
  | null
  | boolean (value : Bool)
  | number (value : Number)
  | string (value : String)
  | array (items : List Node)
  | object (pairs : List (String × Node))

namespace Node

/- The value of the first pair with a key. -/
def get?
    (key : String) :
    Node → Option Node
  | object pairs => pairs.lookup key
  | _ => none

/- The keys of an object, and none for any other value. -/
def keys : Node → List String
  | object pairs => pairs.map Prod.fst
  | _ => []

/- Null and false count as missing in a lookup. -/
def isFalsy : Node → Bool
  | null => true
  | boolean value => !value
  | _ => false

/- The contents of a string. -/
def text? : Node → Option String
  | string value => some value
  | _ => none

/- The six kinds of value. -/
inductive Kind where
  | null
  | boolean
  | number
  | string
  | object
  | array
deriving DecidableEq

/- The kind of a value. -/
def kind : Node → Kind
  | null => .null
  | boolean _ => .boolean
  | number _ => .number
  | string _ => .string
  | array _ => .array
  | object _ => .object

/- The name of a kind. -/
def Kind.name : Kind → String
  | null => "null"
  | boolean => "boolean"
  | number => "number"
  | string => "string"
  | object => "object"
  | array => "array"

end Node

------------------------------------------------------------
-- Structural Equality
------------------------------------------------------------

mutual

/-
  Values are the same if they are of one kind with the same
  contents, items and pairs in the same order.
-/
def Node.same : Node → Node → Bool
  | .null, .null => true
  | .boolean first, .boolean second => first == second
  | .number first, .number second => first.same second
  | .string first, .string second => first == second
  | .array first, .array second => sameItems first second
  | .object first, .object second => samePairs first second
  | _, _ => false

/- Item by item. -/
def sameItems : List Node → List Node → Bool
  | [], [] => true
  | first :: firsts, second :: seconds =>
      first.same second && sameItems firsts seconds
  | _, _ => false

/- Pair by pair. -/
def samePairs :
    List (String × Node) → List (String × Node) → Bool
  | [], [] => true
  | (key, first) :: firsts, (other, second) :: seconds =>
      key == other && first.same second &&
        samePairs firsts seconds
  | _, _ => false

end

end Json

end DottedRef
