import DottedRef.Json.Literal
import DottedRef.Json.Numeral

/-
  This file reads JSON values and whole JSON texts.

  Key definitions include:
    * `Json.put`
    * `Json.Node.ofEntries`
    * `Json.depthLimit`
    * `Json.readNode`
    * `Json.readItems`
    * `Json.readEntries`
    * `Json.Node.parse`
-/

namespace DottedRef

namespace Json

------------------------------------------------------------
-- Objects
------------------------------------------------------------

/-
  Set the value of a key. A key that is already there keeps
  its place.
-/
def put
    (key : String)
    (value : Node) :
    List (String × Node) → List (String × Node)
  | [] => [(key, value)]
  | (other, old) :: pairs =>
      if other = key then
        (other, value) :: pairs
      else
        (other, old) :: put key value pairs

/-
  The object with the given entries. Of entries with one key
  the first has the place and the last the value.
-/
def Node.ofEntries
    (entries : List (String × Node)) : Node :=
  .object (entries.foldl
    (fun pairs entry => put entry.1 entry.2 pairs) [])

------------------------------------------------------------
-- Values
------------------------------------------------------------

/- The greatest number of arrays and objects around a value. -/
def depthLimit : Nat :=
  127

/- Read a key and the colon after it. -/
def readKey
    (source : List UInt8) :
    Except Fault (Read source.length String) := do
  let key ← readString source
  match hRest : skipBlanks key.rest with
  | [] => throw (.next .endInObject [])
  | byte :: rest =>
      if byte = Utf8.ascii ':' then
        return ⟨key.value, rest,
          Nat.lt_trans (length_lt_of_skipBlanks hRest) key.within⟩
      else
        throw (.next .expectedColon (byte :: rest))

mutual

/-
  Read a value, with at most the given number of further
  arrays and objects around its parts.
-/
def readNode
    (depth : Nat)
    (source : List UInt8) :
    Except Fault (Read source.length Node) :=
  match hSource : skipBlanks source with
  | [] => .error (.next .endInValue [])
  | byte :: rest =>
      have hRest : rest.length < source.length :=
        length_lt_of_skipBlanks hSource
      if byte = Utf8.ascii 'n' then do
        let read ← readWord (Utf8.encode "ull".toList) rest
        return ⟨.null, read.rest,
          Nat.lt_of_lt_of_le read.within hRest⟩
      else if byte = Utf8.ascii 't' then do
        let read ← readWord (Utf8.encode "rue".toList) rest
        return ⟨.boolean true, read.rest,
          Nat.lt_of_lt_of_le read.within hRest⟩
      else if byte = Utf8.ascii 'f' then do
        let read ← readWord (Utf8.encode "alse".toList) rest
        return ⟨.boolean false, read.rest,
          Nat.lt_of_lt_of_le read.within hRest⟩
      else if byte = Utf8.ascii '-' then do
        let read ← readNumber true rest
        return ⟨.number read.value, read.rest,
          Nat.lt_trans read.within hRest⟩
      else if (digit? byte).isSome then do
        let read ← readNumber false (byte :: rest)
        return ⟨.number read.value, read.rest,
          Nat.lt_of_lt_of_le read.within hRest⟩
      else if byte = Utf8.ascii '"' then do
        let read ← readString rest
        return ⟨.string read.value, read.rest,
          Nat.lt_trans read.within hRest⟩
      else if byte = Utf8.ascii '[' then
        match depth with
        | 0 => .error (.next .tooDeep (byte :: rest))
        | depth + 1 => do
            let read ← readItems depth true rest
            return ⟨.array read.value, read.rest,
              Nat.lt_trans read.within hRest⟩
      else if byte = Utf8.ascii '\x7b' then
        match depth with
        | 0 => .error (.next .tooDeep (byte :: rest))
        | depth + 1 => do
            let read ← readEntries depth true rest
            return ⟨.ofEntries read.value, read.rest,
              Nat.lt_trans read.within hRest⟩
      else
        .error (.next .expectedValue (byte :: rest))
termination_by 2 * source.length
decreasing_by
  all_goals omega

/-
  Read the items of an array through its closing bracket,
  either all of them or those after a first one.
-/
def readItems
    (depth : Nat)
    (opening : Bool)
    (source : List UInt8) :
    Except Fault (Read source.length (List Node)) :=
  match hSource : skipBlanks source with
  | [] => .error (.next .endInList [])
  | byte :: rest =>
      have hRest : rest.length < source.length :=
        length_lt_of_skipBlanks hSource
      if byte = Utf8.ascii ']' then
        .ok ⟨[], rest, hRest⟩
      else if opening then do
        let item ← readNode depth (byte :: rest)
        have hItem : item.rest.length < source.length :=
          Nat.lt_of_lt_of_le item.within hRest
        let items ← readItems depth false item.rest
        return ⟨item.value :: items.value, items.rest,
          Nat.lt_trans items.within hItem⟩
      else if byte = Utf8.ascii ',' then
        match skipBlanks rest with
        | [] => .error (.next .endInValue [])
        | next :: after =>
            if next = Utf8.ascii ']' then
              .error (.next .trailingComma (next :: after))
            else do
              let item ← readNode depth rest
              have hItem : item.rest.length < source.length :=
                Nat.lt_trans item.within hRest
              let items ← readItems depth false item.rest
              return ⟨item.value :: items.value, items.rest,
                Nat.lt_trans items.within hItem⟩
      else
        .error (.next .expectedListEnd (byte :: rest))
termination_by 2 * source.length + 1
decreasing_by
  · simp only [List.length_cons]
    omega
  · omega
  · omega
  · omega

/-
  Read the entries of an object through its closing brace,
  either all of them or those after a first one.
-/
def readEntries
    (depth : Nat)
    (opening : Bool)
    (source : List UInt8) :
    Except Fault (Read source.length (List (String × Node))) :=
  match hSource : skipBlanks source with
  | [] => .error (.next .endInObject [])
  | byte :: rest =>
      have hRest : rest.length < source.length :=
        length_lt_of_skipBlanks hSource
      if byte = Utf8.ascii '\x7d' then
        .ok ⟨[], rest, hRest⟩
      else if opening then
        if byte = Utf8.ascii '"' then do
          let key ← readKey rest
          let value ← readNode depth key.rest
          have hValue : value.rest.length < source.length :=
            Nat.lt_trans value.within
              (Nat.lt_trans key.within hRest)
          let entries ← readEntries depth false value.rest
          return ⟨(key.value, value.value) :: entries.value,
            entries.rest, Nat.lt_trans entries.within hValue⟩
        else
          .error (.next .keyNotString (byte :: rest))
      else if byte = Utf8.ascii ',' then
        match hNext : skipBlanks rest with
        | [] => .error (.next .endInValue [])
        | next :: after =>
            if next = Utf8.ascii '"' then do
              have hAfter : after.length < source.length :=
                Nat.lt_trans (length_lt_of_skipBlanks hNext) hRest
              let key ← readKey after
              let value ← readNode depth key.rest
              have hValue : value.rest.length < source.length :=
                Nat.lt_trans value.within
                  (Nat.lt_trans key.within hAfter)
              let entries ← readEntries depth false value.rest
              return ⟨(key.value, value.value) :: entries.value,
                entries.rest, Nat.lt_trans entries.within hValue⟩
            else if next = Utf8.ascii '\x7d' then
              .error (.next .trailingComma (next :: after))
            else
              .error (.next .keyNotString (next :: after))
      else
        .error (.next .expectedObjectEnd (byte :: rest))
termination_by 2 * source.length + 1
decreasing_by
  · have hKey := key.within
    omega
  · omega
  · have hKey := key.within
    omega
  · omega

end

------------------------------------------------------------
-- Whole Texts
------------------------------------------------------------

/- Read a text that is one value between blanks. -/
def readText
    (source : List UInt8) : Except Fault Node := do
  let read ← readNode depthLimit source
  match skipBlanks read.rest with
  | [] => return read.value
  | byte :: rest =>
      throw (.next .trailingCharacters (byte :: rest))

/- The value of a JSON text. -/
def Node.parse
    (source : List UInt8) : Except SyntaxError Node :=
  match readText source with
  | .ok node => .ok node
  | .error fault => .error (fault.locate source)

end Json

end DottedRef
