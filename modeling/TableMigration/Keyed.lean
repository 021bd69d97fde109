/-
**Values kept under texts.**

* A `Keyed` is a list of pairs that `Keyed.put` keeps in the order of the keys.
* `Keyed.get?_put_self` and `Keyed.get?_put_of_ne`: what was put is found under its key, and
  nothing else is disturbed.
-/

namespace TableMigration

/-- Values under texts, one value a text. -/
abbrev Keyed (α : Type) := List (String × α)

namespace Keyed

variable {α : Type}

/-- The value under a key. -/
def get? : Keyed α → String → Option α
  | [], _ => none
  | (name, value) :: rest, key => if name = key then some value else get? rest key

/-- Put a value under a key, in place of the one that is there. -/
def put : Keyed α → String → α → Keyed α
  | [], key, value => [(key, value)]
  | (name, old) :: rest, key, value =>
    if name = key then (key, value) :: rest
    else if key < name then (key, value) :: (name, old) :: rest
    else (name, old) :: put rest key value

/-- Whether there is a value under a key. -/
def contains (entries : Keyed α) (key : String) : Bool :=
  (entries.get? key).isSome

/-- Put the pairs of a list one after the other. -/
def ofList (pairs : List (String × α)) : Keyed α :=
  pairs.foldl (fun entries pair => put entries pair.1 pair.2) []

theorem get?_put_self (entries : Keyed α) (key : String) (value : α) :
    (entries.put key value).get? key = some value := by
  induction entries with
  | nil => simp [put, get?]
  | cons entry rest hyp =>
    obtain ⟨name, old⟩ := entry
    by_cases same : name = key
    · simp [put, get?, same]
    · by_cases below : key < name
      · simp [put, get?, same, below]
      · simp [put, get?, same, below, hyp]

theorem get?_put_of_ne (entries : Keyed α) {key other : String} (value : α) (apart : key ≠ other) :
    (entries.put key value).get? other = entries.get? other := by
  induction entries with
  | nil => simp [put, get?, apart]
  | cons entry rest hyp =>
    obtain ⟨name, old⟩ := entry
    by_cases same : name = key
    · subst same
      simp [put, get?, apart]
    · by_cases below : key < name
      · simp [put, get?, same, below, apart]
      · simp [put, get?, same, below, hyp]

end Keyed

end TableMigration
