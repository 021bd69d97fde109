/-
**What a key tells about its partition.**

* `Partition.split` — reads a key back: a comma ends a value, a backslash takes the character behind
  it as it is.
* `Partition.split_escape` — an escaped value is read as itself, whatever stands behind it; so joined
  values are read back one by one (`Partition.split_join`).
* `Partition.key_eq_iff` — two partitions have the same key iff they are the same, apart from the
  partition without values and the one whose only value is empty.

Only commas and backslashes are told from other characters here, so it does not matter what one
character of a value stands for, a letter or a single byte.
-/

import TableMigration.Table

namespace TableMigration

namespace Partition

/-! ### Reading a key -/

/-- The values that a key is made of. A backslash at the very end stands for itself. -/
def split : List Char → List (List Char)
  | [] => [[]]
  | '\\' :: char :: rest => (split rest).modifyHead (char :: ·)
  | ',' :: rest => [] :: split rest
  | char :: rest => (split rest).modifyHead (char :: ·)

/-- The partition that is read off a key. -/
def ofKey (key : String) : Partition :=
  ⟨(split key.toList).map String.ofList⟩

variable {char : Char}

theorem split_backslash (char : Char) (rest : List Char) :
    split ('\\' :: char :: rest) = (split rest).modifyHead (char :: ·) := by
  rw [split]

theorem split_comma (rest : List Char) : split (',' :: rest) = [] :: split rest := by
  rw [split]

theorem split_plain (plain : ¬ (char = ',' ∨ char = '\\')) (rest : List Char) :
    split (char :: rest) = (split rest).modifyHead (char :: ·) := by
  obtain ⟨comma, backslash⟩ := not_or.mp plain
  rw [split]
  · exact fun _ _ same => absurd same backslash
  · exact comma

/-! ### Escaped values -/

/-- **An escaped value is read as itself, in front of the first value of what stands behind it.** The
induction is on the value, so that its escapes are read in the pairs in which they were written. -/
theorem split_escape (value rest : List Char) :
    split (escape value ++ rest) = (split rest).modifyHead (value ++ ·) := by
  induction value with
  | nil =>
    rw [escape, List.nil_append]
    cases split rest <;> rfl
  | cons char value hyp =>
    have behind : (split (escape value ++ rest)).modifyHead (char :: ·) =
        (split rest).modifyHead (char :: value ++ ·) := by
      rw [hyp, List.modifyHead_modifyHead]
      rfl
    unfold escape
    split
    · rw [List.cons_append, List.cons_append, split_backslash, behind]
    case isFalse plain =>
      rw [List.cons_append, split_plain plain, behind]

/-- A single value is read up to the end of the key. -/
theorem split_escape_end (value : List Char) : split (escape value) = [value] := by
  simpa [split] using split_escape value []

/-- **Joined values are read back.** No value at all reads as one empty value. -/
theorem split_join (values : List (List Char)) :
    split (join values) = if values = [] then [[]] else values := by
  induction values with
  | nil => rfl
  | cons value rest hyp =>
    rw [if_neg (List.cons_ne_nil value rest)]
    cases rest with
    | nil => exact split_escape_end value
    | cons next rest =>
      rw [if_neg (List.cons_ne_nil next rest)] at hyp
      rw [join, split_escape, split_comma, hyp, List.modifyHead_cons, List.append_nil]

/-! ### Keys of partitions -/

variable {first second : Partition}

theorem map_ofList_toList (values : List String) :
    (values.map String.toList).map String.ofList = values := by
  rw [List.map_map, show String.ofList ∘ String.toList = id from funext fun _ => String.ofList_toList,
    List.map_id]

/-- A partition is read off its key, unless it has no values. -/
theorem ofKey_key (partition : Partition) :
    ofKey partition.key = if partition.values = [] then ⟨[""]⟩ else partition := by
  unfold ofKey key
  rw [String.toList_ofList, split_join]
  split
  case isTrue empty =>
    rw [if_pos (List.map_eq_nil_iff.mp empty)]
    rfl
  case isFalse some =>
    rw [if_neg (mt List.map_eq_nil_iff.mpr some), map_ofList_toList]

/-- The partition without values has the key of the one whose only value is empty. -/
theorem key_nil : (⟨[]⟩ : Partition).key = (⟨[""]⟩ : Partition).key := by decide

theorem eq_of_key_eq (same : first.key = second.key) (firstSome : first.values ≠ [])
    (secondSome : second.values ≠ []) : first = second := by
  have read := congrArg ofKey same
  rwa [ofKey_key, ofKey_key, if_neg firstSome, if_neg secondSome] at read

/-- What has the key of the partition without values has no values, or a single empty one. -/
theorem key_eq_nil (same : first.key = (⟨[]⟩ : Partition).key) :
    first.values = [] ∨ first.values = [""] := by
  by_cases bare : first.values = []
  · exact .inl bare
  · exact .inr (congrArg values (eq_of_key_eq (same.trans key_nil) bare (List.cons_ne_nil _ _)))

/-- **Keys tell partitions apart.** Two partitions, with any values whatever, have the same key iff
they are the same or one of them has no values and the other one a single empty value; and a
function of the key alone gives the partition back, unless it has no values. -/
theorem key_eq_iff :
    (∀ first second : Partition, first.key = second.key ↔ first = second ∨
      (first.values = [] ∧ second.values = [""]) ∨ (first.values = [""] ∧ second.values = [])) ∧
    ∀ partition : Partition,
      ofKey partition.key = if partition.values = [] then ⟨[""]⟩ else partition := by
  refine ⟨fun first second => ⟨fun same => ?_, ?_⟩, ofKey_key⟩
  · by_cases firstNone : first.values = []
    · obtain rfl : first = ⟨[]⟩ := congrArg mk firstNone
      rcases key_eq_nil same.symm with bare | single
      · exact .inl (congrArg mk bare).symm
      · exact .inr (.inl ⟨rfl, single⟩)
    · by_cases secondNone : second.values = []
      · obtain rfl : second = ⟨[]⟩ := congrArg mk secondNone
        exact .inr (.inr ⟨(key_eq_nil same).resolve_left firstNone, rfl⟩)
      · exact .inl (eq_of_key_eq same firstNone secondNone)
  · obtain ⟨first⟩ := first
    obtain ⟨second⟩ := second
    rintro (same | ⟨rfl, rfl⟩ | ⟨rfl, rfl⟩)
    · exact congrArg key same
    · exact key_nil
    · exact key_nil.symm

/-- Commas and backslashes in a value do not take part in the joining. -/
example : ofKey "a\\,b,\\\\," = ⟨["a,b", "\\", ""]⟩ := by decide

end Partition

end TableMigration
