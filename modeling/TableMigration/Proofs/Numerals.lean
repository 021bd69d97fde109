/-
**What the text of a count denotes.**

* `Count.Spells` — a text is one or more decimal digits, with one minus sign in front or none, and
  these denote a number of any size. `Count.Denotes` — the number is one of 64 bits with a sign.
* `Count.accumulate_append` — digits that go into a word one by one leave the number that they
  denote in it, or no word if that number is too large, however many they are.
* `Count.Scans` — what there is to tell of a number in front of some characters, apart from how it
  is found; a scan tells it (`Count.scans_iff`).
* `Count.decodes` — a text is taken for a count just if it denotes a number, and for that number.
-/

import Mathlib.Data.List.Induction
import Mathlib.Data.Nat.Digits.Defs
import TableMigration.Count

namespace TableMigration

namespace Count

variable {text : String} {chars digits front rest : List Char} {char : Char}
  {negative : Bool} {number : Int}

/-- The number that decimal digits denote, by the places at which they stand. -/
def value (digits : List Char) : Nat :=
  Nat.ofDigits 10 (digits.reverse.map fun digit => digit.toNat - '0'.toNat)

/-- Whether a text is a number in decimal digits. -/
inductive Spells : String → Int → Prop
  | plain (digits : List Char) (filled : digits ≠ [])
      (decimal : ∀ digit ∈ digits, '0' ≤ digit ∧ digit ≤ '9') :
      Spells (String.ofList digits) (value digits)
  | minus (digits : List Char) (filled : digits ≠ [])
      (decimal : ∀ digit ∈ digits, '0' ≤ digit ∧ digit ≤ '9') :
      Spells (String.ofList ('-' :: digits)) (-value digits)

/-- Whether a text is a number of 64 bits, one of them for the sign. -/
structure Denotes (text : String) (number : Int) : Prop where
  spelled : Spells text number
  least : -2 ^ 63 ≤ number
  most : number ≤ 2 ^ 63 - 1

/-- The sign in front of digits. -/
def sign (negative : Bool) : List Char :=
  if negative then ['-'] else []

/-- A size with its sign. -/
def withSign (negative : Bool) (size : Nat) : Int :=
  if negative then -size else size

/-- The number of some digits behind the digits of another one. -/
def extend (number : Nat) (digits : List Char) : Nat :=
  digits.foldl (fun number digit => 10 * number + (digit.toNat - '0'.toNat)) number

/-- The word for a number, if there is one. -/
def word? (number : Nat) : Option UInt64 :=
  if number < 2 ^ 64 then some (.ofNat number) else none

/-- The signed word for a number, if there is one. -/
def int? (number : Int) : Option Int64 :=
  if -2 ^ 63 ≤ number ∧ number ≤ 2 ^ 63 - 1 then some (.ofInt number) else none

/-! ### Digits -/

theorem isDigit_iff : char.isDigit = true ↔ '0' ≤ char ∧ char ≤ '9' := by
  unfold Char.isDigit
  rw [Bool.and_eq_true, decide_eq_true_iff, decide_eq_true_iff]
  exact Iff.rfl

theorem toNat_digit (decimal : char.isDigit = true) :
    (digit char).toNat = char.toNat - '0'.toNat ∧ (digit char).toNat ≤ 9 := by
  have most : char.toNat ≤ '9'.toNat := (isDigit_iff.mp decimal).2
  have small : char.toNat - '0'.toNat ≤ 9 := Nat.sub_le_of_le_add most
  have same : (digit char).toNat = char.toNat - '0'.toNat :=
    UInt64.toNat_ofNat_of_lt' (small.trans_lt (by decide))
  exact ⟨same, same ▸ small⟩

theorem extend_eq_value (digits : List Char) : extend 0 digits = value digits := by
  unfold extend value
  induction digits using List.reverseRecOn with
  | nil => rfl
  | append_singleton digits digit hyp =>
    rw [List.foldl_append, List.foldl_cons, List.foldl_nil, hyp, List.reverse_append,
      List.reverse_singleton, List.singleton_append, List.map_cons, Nat.ofDigits_cons,
      Nat.add_comm]

theorem extend_cons (number : Nat) (char : Char) (digits : List Char) :
    extend number (char :: digits) = extend (10 * number + (char.toNat - '0'.toNat)) digits := by
  unfold extend
  rw [List.foldl_cons]

/-- Digits that follow make no number smaller. -/
theorem le_extend (number : Nat) (digits : List Char) : number ≤ extend number digits := by
  induction digits generalizing number with
  | nil => exact le_rfl
  | cons digit digits hyp =>
    rw [extend_cons]
    calc number ≤ 10 * number + (digit.toNat - '0'.toNat) := by omega
      _ ≤ extend (10 * number + (digit.toNat - '0'.toNat)) digits := hyp _

theorem value_zeros (count : Nat) (digits : List Char) :
    value (List.replicate count '0' ++ digits) = value digits := by
  unfold value
  rw [List.reverse_append, List.map_append, List.reverse_replicate, List.map_replicate]
  exact Nat.ofDigits_append_replicate_zero _

/-! ### Words -/

theorem word?_toNat (word : UInt64) : word? word.toNat = some word := by
  unfold word?
  rw [if_pos word.toNat_lt, UInt64.ofNat_toNat]

theorem word?_eq_none_iff {number : Nat} : word? number = none ↔ 2 ^ 64 ≤ number := by
  unfold word?
  rw [ite_eq_right_iff, ← not_lt]
  exact imp_congr_right fun _ => ⟨nofun, False.elim⟩

/-- The test of a word says whether the longer number has one. -/
theorem push?_eq (word : UInt64) {digit : UInt64} (small : digit.toNat ≤ 9) :
    push? word digit = word? (10 * word.toNat + digit.toNat) := by
  have below : digit ≤ .ofNat (UInt64.size - 1) :=
    UInt64.le_iff_toNat_le.mpr (small.trans (by decide))
  have bound : ((.ofNat (UInt64.size - 1) - digit) / 10).toNat =
      (2 ^ 64 - 1 - digit.toNat) / 10 := by
    rw [UInt64.toNat_div, UInt64.toNat_sub_of_le _ _ below]
    rfl
  have fits : word ≤ (.ofNat (UInt64.size - 1) - digit) / 10 ↔
      10 * word.toNat + digit.toNat < 2 ^ 64 := by
    rw [UInt64.le_iff_toNat_le, bound]
    omega
  have longer : UInt64.ofNat (10 * word.toNat + digit.toNat) = 10 * word + digit := by
    rw [UInt64.ofNat_add, UInt64.ofNat_mul, UInt64.ofNat_toNat, UInt64.ofNat_toNat]
    rfl
  unfold push? word?
  rw [longer]
  simp only [fits]

theorem dropWhile_digits (decimal : ∀ digit ∈ digits, digit.isDigit = true)
    (longest : rest.head?.any Char.isDigit = false) :
    (digits ++ rest).dropWhile Char.isDigit = rest := by
  rw [List.dropWhile_append_of_pos decimal]
  cases rest with
  | nil => rfl
  | cons char rest => exact List.dropWhile_cons_of_neg (Bool.eq_false_iff.mp longest)

/-- **Digits that are read one by one leave the word for the number that they denote.** Once the
number is too large it stays so, whatever digits follow. -/
theorem accumulate_append (word : UInt64) (decimal : ∀ digit ∈ digits, digit.isDigit = true)
    (longest : rest.head?.any Char.isDigit = false) :
    accumulate word (digits ++ rest) = (word? (extend word.toNat digits), rest) := by
  induction digits generalizing word with
  | nil =>
    show accumulate word rest = (word? word.toNat, rest)
    rw [word?_toNat]
    cases rest with
    | nil => rfl
    | cons char rest => exact if_neg (Bool.eq_false_iff.mp longest)
  | cons char digits hyp =>
    obtain ⟨here, behind⟩ := List.forall_mem_cons.mp decimal
    obtain ⟨same, small⟩ := toNat_digit here
    have pushed := push?_eq word small
    rw [same] at pushed
    rw [List.cons_append, extend_cons]
    unfold accumulate
    rw [if_pos here, pushed]
    generalize 10 * word.toNat + (char.toNat - '0'.toNat) = number
    by_cases fits : number < 2 ^ 64
    · have found : word? number = some (.ofNat number) := if_pos fits
      have kept : (UInt64.ofNat number).toNat = number := UInt64.toNat_ofNat_of_lt' fits
      rw [found]
      exact (hyp _ behind).trans (by rw [kept])
    · have large : 2 ^ 64 ≤ number := not_lt.mp fits
      rw [word?_eq_none_iff.mpr large,
        word?_eq_none_iff.mpr (large.trans (le_extend number digits))]
      exact congrArg (Prod.mk none) (dropWhile_digits behind longest)

theorem int?_eq_some_iff {word : Int64} : int? number = some word ↔ word.toInt = number := by
  unfold int?
  rw [Option.ite_none_right_eq_some, Option.some.injEq]
  constructor
  · rintro ⟨⟨least, most⟩, rfl⟩
    exact Int64.toInt_ofInt_of_le least (Int.lt_of_le_sub_one most)
  · rintro rfl
    exact ⟨⟨word.le_toInt, Int.le_sub_one_of_lt word.toInt_lt⟩, Int64.ofInt_toInt word⟩

theorem int?_eq_none_iff : int? number = none ↔ number < -2 ^ 63 ∨ 2 ^ 63 ≤ number := by
  unfold int?
  rw [ite_eq_right_iff]
  simp only [reduceCtorEq, imp_false]
  omega

/-- Both limits of a signed word, from the size alone. -/
theorem signed?_eq (negative : Bool) (size : UInt64) :
    signed? negative size = int? (withSign negative size.toNat) := by
  have limit : (UInt64.ofNat (UInt64.size / 2)).toNat = 2 ^ 63 := by decide
  have word : size.toInt64 = .ofInt size.toNat := by
    rw [Int64.ofInt_eq_ofNat, ← UInt64.toInt64_ofNat', UInt64.ofNat_toNat]
  cases negative with
  | false =>
    have fits : size < .ofNat (UInt64.size / 2) ↔
        -2 ^ 63 ≤ (size.toNat : Int) ∧ (size.toNat : Int) ≤ 2 ^ 63 - 1 := by
      rw [UInt64.lt_iff_toNat_lt, limit]
      omega
    show (if size < _ then some size.toInt64 else none) =
      if _ then some (.ofInt size.toNat) else none
    exact if_congr fits (congrArg some word) rfl
  | true =>
    have fits : size ≤ .ofNat (UInt64.size / 2) ↔
        -2 ^ 63 ≤ -(size.toNat : Int) ∧ -(size.toNat : Int) ≤ 2 ^ 63 - 1 := by
      rw [UInt64.le_iff_toNat_le, limit]
      omega
    have least : -size.toInt64 = .ofInt (-size.toNat) := by rw [word, Int64.ofInt_neg]
    show (if size ≤ _ then some (-size.toInt64) else none) =
      if _ then some (.ofInt (-size.toNat)) else none
    exact if_congr fits (congrArg some least) rfl

/-- A size without a word has no signed one either. -/
theorem word?_bind_signed? (negative : Bool) (size : Nat) :
    (word? size).bind (signed? negative) = int? (withSign negative size) := by
  by_cases fits : size < 2 ^ 64
  · have found : word? size = some (.ofNat size) := if_pos fits
    rw [found, Option.bind_some, signed?_eq, UInt64.toNat_ofNat_of_lt' fits]
  · have large : 2 ^ 64 ≤ size := not_lt.mp fits
    have outside : withSign negative size < -2 ^ 63 ∨ 2 ^ 63 ≤ withSign negative size := by
      unfold withSign
      split <;> omega
    rw [word?_eq_none_iff.mpr large, int?_eq_none_iff.mpr outside, Option.bind_none]

/-! ### Characters -/

theorem sign_append_splitSign (chars : List Char) :
    sign (splitSign chars).1 ++ (splitSign chars).2 = chars := by
  unfold splitSign
  split <;> rfl

/-- Behind a sign stands what is split off it, if that begins with a digit. -/
theorem splitSign_sign (negative : Bool) (first : chars.head?.any Char.isDigit = true) :
    splitSign (sign negative ++ chars) = (negative, chars) := by
  cases negative with
  | true => rfl
  | false =>
    show splitSign chars = (false, chars)
    unfold splitSign
    split
    · cases first
    · rfl

theorem head?_digits (nonempty : digits ≠ []) (decimal : ∀ digit ∈ digits, digit.isDigit = true) :
    (digits ++ rest).head?.any Char.isDigit = true := by
  obtain ⟨digit, others, rfl⟩ := List.exists_cons_of_ne_nil nonempty
  exact decimal digit List.mem_cons_self

theorem scan_of_absent (word : Int64)
    (absent : (splitSign chars).2.head?.any Char.isDigit = false) :
    scan chars word = ⟨word, some .absent, chars⟩ :=
  if_neg (Bool.eq_false_iff.mp absent)

theorem scan_of_digits (word : Int64) (nonempty : digits ≠ [])
    (decimal : ∀ digit ∈ digits, digit.isDigit = true)
    (longest : rest.head?.any Char.isDigit = false) :
    scan (sign negative ++ (digits ++ rest)) word =
      .fill word rest (int? (withSign negative (value digits))) := by
  have first : (digits ++ rest).head?.any Char.isDigit = true := head?_digits nonempty decimal
  have size : accumulate 0 (digits ++ rest) = (word? (value digits), rest) :=
    (accumulate_append 0 decimal longest).trans (by rw [← extend_eq_value]; rfl)
  unfold scan
  simp only [splitSign_sign negative first, first, size, word?_bind_signed?, if_true]

/-! ### Texts -/

theorem spells_iff : Spells text number ↔ ∃ negative digits, digits ≠ [] ∧
    (∀ digit ∈ digits, digit.isDigit = true) ∧
    text = String.ofList (sign negative ++ digits) ∧ number = withSign negative (value digits) := by
  simp only [isDigit_iff]
  constructor
  · rintro (⟨digits, nonempty, decimal⟩ | ⟨digits, nonempty, decimal⟩)
    · exact ⟨false, digits, nonempty, decimal, rfl, rfl⟩
    · exact ⟨true, digits, nonempty, decimal, rfl, rfl⟩
  · rintro ⟨negative, digits, nonempty, decimal, rfl, rfl⟩
    cases negative with
    | false => exact .plain digits nonempty decimal
    | true => exact .minus digits nonempty decimal

theorem spells_digits_iff (nonempty : digits ≠ [])
    (decimal : ∀ digit ∈ digits, digit.isDigit = true) :
    Spells (String.ofList (sign negative ++ digits)) number ↔
      number = withSign negative (value digits) := by
  constructor
  · intro spelled
    obtain ⟨other, others, nonempty', decimal', same, rfl⟩ := spells_iff.mp spelled
    have parts : (negative, digits ++ []) = (other, others ++ []) := by
      rw [← splitSign_sign negative (head?_digits nonempty decimal),
        ← splitSign_sign other (head?_digits nonempty' decimal'), List.append_nil, List.append_nil,
        String.ofList_injective same]
    rw [List.append_nil, List.append_nil] at parts
    cases parts
    rfl
  · exact fun same => spells_iff.mpr ⟨negative, digits, nonempty, decimal, rfl, same⟩

/-- A text spells one number at most. -/
theorem Spells.unique {first second : Int} (one : Spells text first) (two : Spells text second) :
    first = second := by
  obtain ⟨negative, digits, nonempty, decimal, rfl, rfl⟩ := spells_iff.mp one
  exact ((spells_digits_iff nonempty decimal).mp two).symm

/-- Nothing stands in the text of a number but digits, and a minus sign in front. -/
theorem Spells.decimal (spelled : Spells text number)
    (whole : text.toList = front ++ char :: rest) :
    char.isDigit = true ∨ char = '-' ∧ front = [] := by
  obtain ⟨negative, digits, -, decimal, rfl, -⟩ := spells_iff.mp spelled
  rw [String.toList_ofList] at whole
  cases negative with
  | false =>
    have within : digits = front ++ char :: rest := whole
    exact .inl (decimal char (within ▸ List.mem_append_right _ List.mem_cons_self))
  | true =>
    cases front with
    | nil => exact .inr ⟨(List.cons.inj whole).1.symm, rfl⟩
    | cons minus front =>
      have behind : digits = front ++ char :: rest := (List.cons.inj whole).2
      exact .inl (decimal char (behind ▸ List.mem_append_right _ List.mem_cons_self))

/-- What there is to tell of a number in front of some characters: there is none, or there is one as
long as can be, which is too large or not. In the first two cases the word is as it was before. -/
inductive Scans (chars : List Char) (word : Int64) : Scan → Prop
  | absent (never : ∀ front rest number, chars = front ++ rest →
      ¬ Spells (String.ofList front) number) : Scans chars word ⟨word, some .absent, chars⟩
  | outOfRange (front rest : List Char) (number : Int) (whole : chars = front ++ rest)
      (spelled : Spells (String.ofList front) number)
      (longest : rest.head?.any Char.isDigit = false)
      (large : number < -2 ^ 63 ∨ 2 ^ 63 ≤ number) :
      Scans chars word ⟨word, some .outOfRange, rest⟩
  | found (front rest : List Char) (number : Int64) (whole : chars = front ++ rest)
      (spelled : Spells (String.ofList front) number.toInt)
      (longest : rest.head?.any Char.isDigit = false) : Scans chars word ⟨number, none, rest⟩

theorem scan_of_spelled (word : Int64) (whole : chars = front ++ rest)
    (spelled : Spells (String.ofList front) number)
    (longest : rest.head?.any Char.isDigit = false) :
    scan chars word = .fill word rest (int? number) := by
  obtain ⟨negative, digits, nonempty, decimal, same, rfl⟩ := spells_iff.mp spelled
  rw [whole, String.ofList_injective same, List.append_assoc,
    scan_of_digits word nonempty decimal longest]

/-- In front of characters with no digit where the digits of a number would be, there is none. -/
theorem not_spells_of_absent (absent : (splitSign chars).2.head?.any Char.isDigit = false)
    (whole : chars = front ++ rest) : ¬ Spells (String.ofList front) number := by
  intro spelled
  obtain ⟨negative, digits, nonempty, decimal, same, -⟩ := spells_iff.mp spelled
  have first : (digits ++ rest).head?.any Char.isDigit = true := head?_digits nonempty decimal
  rw [whole, String.ofList_injective same, List.append_assoc, splitSign_sign negative first,
    first] at absent
  cases absent

/-- In front of other characters there is one, as far as the digits go. -/
theorem exists_spelled (first : (splitSign chars).2.head?.any Char.isDigit = true) :
    ∃ front rest number, chars = front ++ rest ∧ Spells (String.ofList front) number ∧
      rest.head?.any Char.isDigit = false := by
  obtain ⟨negative, body, parts⟩ : ∃ negative body, splitSign chars = (negative, body) :=
    ⟨_, _, rfl⟩
  have whole := sign_append_splitSign chars
  rw [parts] at whole first
  have decimal : ∀ digit ∈ body.takeWhile Char.isDigit, digit.isDigit = true :=
    List.all_eq_true.mp List.all_takeWhile
  have longest : (body.dropWhile Char.isDigit).head?.any Char.isDigit = false := by
    have stops := List.head?_dropWhile_not Char.isDigit body
    cases next : (body.dropWhile Char.isDigit).head? with
    | none => rfl
    | some char =>
      rw [next] at stops
      exact stops
  have nonempty : body.takeWhile Char.isDigit ≠ [] := by
    cases body with
    | nil => cases first
    | cons char body =>
      have digit : char.isDigit = true := first
      rw [List.takeWhile_cons_of_pos digit]
      exact List.cons_ne_nil _ _
  refine ⟨sign negative ++ body.takeWhile Char.isDigit, body.dropWhile Char.isDigit, _, ?_,
    (spells_digits_iff nonempty decimal).mpr rfl, longest⟩
  rw [List.append_assoc, List.takeWhile_append_dropWhile, whole]

/-- **A scan tells what stands in front of the characters**, and nothing else is to be told. -/
theorem scans_iff {word : Int64} {found : Scan} :
    Scans chars word found ↔ scan chars word = found := by
  constructor
  · rintro (never | ⟨front, rest, number, whole, spelled, longest, large⟩ |
      ⟨front, rest, number, whole, spelled, longest⟩)
    · refine scan_of_absent word (Bool.eq_false_iff.mpr fun first => ?_)
      obtain ⟨front, rest, number, whole, spelled, -⟩ := exists_spelled first
      exact never front rest number whole spelled
    · rw [scan_of_spelled word whole spelled longest, int?_eq_none_iff.mpr large]
      rfl
    · rw [scan_of_spelled word whole spelled longest, int?_eq_some_iff.mpr rfl]
      rfl
  · rintro rfl
    cases first : (splitSign chars).2.head?.any Char.isDigit with
    | false =>
      rw [scan_of_absent word first]
      exact .absent fun front rest number => not_spells_of_absent first
    | true =>
      obtain ⟨front, rest, number, whole, spelled, longest⟩ := exists_spelled first
      rw [scan_of_spelled word whole spelled longest]
      cases fits : int? number with
      | none => exact .outOfRange front rest number whole spelled longest (int?_eq_none_iff.mp fits)
      | some small =>
        rw [← int?_eq_some_iff.mp fits] at spelled
        exact .found front rest small whole spelled longest

/-! ### Counts -/

/-- A count is what a scan finds if nothing is wrong and nothing is left. -/
theorem read?_eq_some : read? text = some number ↔
    ∃ word, scan text.toList 0 = ⟨word, none, []⟩ ∧ text.toList ≠ [] ∧ word.toInt = number := by
  unfold read?
  generalize scan text.toList 0 = found
  obtain ⟨word, fault, rest⟩ := found
  cases fault <;> cases rest <;> cases text.toList <;> simp

theorem read?_digits (nonempty : digits ≠ []) (decimal : ∀ digit ∈ digits, digit.isDigit = true) :
    read? (String.ofList (sign negative ++ digits)) =
      (int? (withSign negative (value digits))).map Int64.toInt := by
  have scanned : scan (sign negative ++ (digits ++ [])) 0 = _ :=
    scan_of_digits 0 nonempty decimal rfl
  rw [List.append_nil] at scanned
  unfold read?
  rw [String.toList_ofList, scanned]
  cases int? (withSign negative (value digits)) <;> simp [Scan.fill, nonempty]

/-- **A count is read just if its text denotes a number, and as that number.** -/
theorem read?_eq_some_iff : read? text = some number ↔ Denotes text number := by
  constructor
  · intro read
    obtain ⟨word, scanned, -, rfl⟩ := read?_eq_some.mp read
    cases scans_iff.mpr scanned with
    | found front rest number whole spelled longest =>
      rw [List.append_nil] at whole
      rw [← whole, String.ofList_toList] at spelled
      exact ⟨spelled, word.le_toInt, Int.le_sub_one_of_lt word.toInt_lt⟩
  · rintro ⟨spelled, least, most⟩
    obtain ⟨negative, digits, nonempty, decimal, rfl, rfl⟩ := spells_iff.mp spelled
    have fits : int? (withSign negative (value digits)) = some _ := if_pos ⟨least, most⟩
    rw [read?_digits nonempty decimal, fits, Option.map_some, int?_eq_some_iff.mp fits]

example : read? "-009223372036854775808" = some (-9223372036854775808) ∧
    read? "9223372036854775808" = none := by decide +kernel

/-- How a text is taken for a count. -/
structure Decodes (text : String) : Prop where
  /-- Just the texts that denote a number are, and for that number. -/
  number : ∀ number, read? text = some number ↔ Denotes text number
  /-- The others spell no number, or one that is too large on either side. -/
  refused : read? text = none ↔ (∀ number, ¬ Spells text number) ∨
    ∃ number, Spells text number ∧ (number < -2 ^ 63 ∨ 2 ^ 63 ≤ number)
  /-- A text without a digit is refused, be it empty. -/
  blank : (∀ char ∈ text.toList, ¬ ('0' ≤ char ∧ char ≤ '9')) → read? text = none
  /-- So is a text with anything in it but digits and a minus sign in front. -/
  foreign : ∀ front char rest, text.toList = front ++ char :: rest →
    ¬ ('0' ≤ char ∧ char ≤ '9') → (char = '-' → front ≠ []) → read? text = none
  /-- Zeros in front of the digits make no difference, however many they are. -/
  zeros : ∀ negative digits count, text = String.ofList (sign negative ++ digits) →
    digits ≠ [] → (∀ digit ∈ digits, '0' ≤ digit ∧ digit ≤ '9') →
    read? (String.ofList (sign negative ++ (List.replicate count '0' ++ digits))) = read? text

theorem read?_eq_none_iff : read? text = none ↔ (∀ number, ¬ Spells text number) ∨
    ∃ number, Spells text number ∧ (number < -2 ^ 63 ∨ 2 ^ 63 ≤ number) := by
  rw [Option.eq_none_iff_forall_ne_some]
  constructor
  · intro unread
    by_cases spelled : ∃ number, Spells text number
    · obtain ⟨number, spelled⟩ := spelled
      refine .inr ⟨number, spelled, ?_⟩
      by_contra within
      have fits : -2 ^ 63 ≤ number ∧ number ≤ 2 ^ 63 - 1 := by omega
      exact unread number (read?_eq_some_iff.mpr ⟨spelled, fits.1, fits.2⟩)
    · exact .inl (not_exists.mp spelled)
  · rintro refused number read
    obtain ⟨spelled, least, most⟩ := read?_eq_some_iff.mp read
    rcases refused with unspelled | ⟨other, spelled', large⟩
    · exact unspelled number spelled
    · cases spelled.unique spelled'
      omega

/-- **The texts that are taken for a count are the decimal numbers of 64 bits**, and no others. -/
theorem decodes (text : String) : Decodes text where
  number _ := read?_eq_some_iff
  refused := read?_eq_none_iff
  blank bare := by
    refine read?_eq_none_iff.mpr (.inl fun number spelled => ?_)
    obtain ⟨negative, digits, nonempty, decimal, rfl, -⟩ := spells_iff.mp spelled
    obtain ⟨digit, others, rfl⟩ := List.exists_cons_of_ne_nil nonempty
    have within : digit ∈ (String.ofList (sign negative ++ digit :: others)).toList := by
      rw [String.toList_ofList]
      exact List.mem_append_right _ List.mem_cons_self
    exact bare digit within (isDigit_iff.mp (decimal digit List.mem_cons_self))
  foreign front char rest whole other apart := by
    refine read?_eq_none_iff.mpr (.inl fun number spelled => ?_)
    rcases spelled.decimal whole with digit | ⟨minus, bare⟩
    · exact other (isDigit_iff.mp digit)
    · exact apart minus bare
  zeros negative digits count same nonempty decimal := by
    have behind : ∀ digit ∈ digits, digit.isDigit = true := fun digit within =>
      isDigit_iff.mpr (decimal digit within)
    have padded : ∀ digit ∈ List.replicate count '0' ++ digits, digit.isDigit = true := by
      intro digit within
      rcases List.mem_append.mp within with zero | within
      · rw [List.eq_of_mem_replicate zero]
        rfl
      · exact behind digit within
    rw [same, read?_digits (List.append_ne_nil_of_right_ne_nil _ nonempty) padded,
      read?_digits nonempty behind, value_zeros]

end Count

end TableMigration
