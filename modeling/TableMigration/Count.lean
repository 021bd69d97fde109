/-
**Row counts as engines report them.**

* An engine reports a count as text. `Count.scan` reads a number from the front of some characters:
  decimal digits, with one minus sign in front or none. The digits go into a word of 64 bits one by
  one (`Count.accumulate`), and with the sign into a signed one. It stops at the first character
  that cannot belong to the number, and tells what is wrong if there is no number, or one that is
  too large.
* `Count.read?` takes a text for a count if nothing is wrong and nothing is left. Leading zeros are
  welcome; a plus sign, a blank or anything else in the text is not.
* `RowCounts.agree`: two reports agree on a key if both have a count under it that can be read, and
  the two are the same number.
-/

import TableMigration.Keyed

namespace TableMigration

namespace Count

/-- What is wrong with a number. -/
inductive Fault
  | absent
  | outOfRange
  deriving DecidableEq, Repr

/-- A number that was looked for in front of some characters. -/
structure Scan where
  word : Int64
  fault : Option Fault
  /-- The characters behind the number. -/
  rest : List Char
  deriving DecidableEq, Repr

/-- A scan at the end of some digits, with the word for their number if there is one. -/
def Scan.fill (word : Int64) (rest : List Char) : Option Int64 → Scan
  | some number => ⟨number, none, rest⟩
  | none => ⟨word, some .outOfRange, rest⟩

/-- Whether a minus sign stands in front, and what stands behind it. -/
def splitSign : List Char → Bool × List Char
  | '-' :: chars => (true, chars)
  | chars => (false, chars)

/-- The number that a decimal digit stands for. -/
def digit (char : Char) : UInt64 :=
  .ofNat (char.toNat - '0'.toNat)

/-- A word with one more digit at its end, unless that is too large for a word. -/
def push? (word digit : UInt64) : Option UInt64 :=
  -- The test must not overflow itself.
  if word ≤ (.ofNat (UInt64.size - 1) - digit) / 10 then some (10 * word + digit) else none

/-- Read the digits in front into a word that has the digits before them already. Digits that no
longer fit are passed over. -/
def accumulate (word : UInt64) : List Char → Option UInt64 × List Char
  | [] => (some word, [])
  | char :: chars =>
    if char.isDigit then
      match push? word (digit char) with
      | some longer => accumulate longer chars
      | none => (none, chars.dropWhile Char.isDigit)
    else (some word, char :: chars)

/-- A size with its sign, unless that is too large for a signed word. There is one more number
below zero than above it. -/
def signed? (negative : Bool) (size : UInt64) : Option Int64 :=
  if negative then
    if size ≤ .ofNat (UInt64.size / 2) then some (-size.toInt64) else none
  else
    if size < .ofNat (UInt64.size / 2) then some size.toInt64 else none

/-- Read a number from the front of some characters into a word, which keeps its value if there is
none. -/
def scan (chars : List Char) (word : Int64) : Scan :=
  let (negative, digits) := splitSign chars
  if digits.head?.any Char.isDigit then
    let (size, rest) := accumulate 0 digits
    .fill word rest (size.bind (signed? negative))
  else ⟨word, some .absent, chars⟩

/-- Read a count. -/
def read? (text : String) : Option Int :=
  let found := scan text.toList 0
  if found.fault.isSome || !found.rest.isEmpty || text.toList.isEmpty then none
  else some found.word.toInt

end Count

/-- Counts under the keys of partitions, or under the empty key for a whole table. -/
abbrev RowCounts := Keyed String

/-- Whether both reports have the same number under a key. -/
def RowCounts.agree (source destination : RowCounts) (key : String) : Bool :=
  match (source.get? key).bind Count.read?, (destination.get? key).bind Count.read? with
  | some first, some second => first == second
  | _, _ => false

end TableMigration
