/-
**Which group sizes a memory holds.**

* `TableConfig.IsValid` — a size that is set is positive. A table is registered with a valid
  configuration only (`Memory.isValid_of_addTable`), but what is set for it later is not looked at.
* `Memory.mem_granted` — a request of the chronicle was granted by the memory that the requests
  before it had made.
* `Memory.sizes_valid_iff` — so all sizes in all memories along some requests are valid iff no
  request that sets another one is granted; `Memory.size_zero_held` is the smallest case in which
  one is.
-/

import TableMigration.Proofs.Isolation

namespace TableMigration

/-- Whether a group size is positive if it is set. -/
def TableConfig.IsValid (config : TableConfig) : Prop :=
  ∀ size, config.groupSize = some size → 0 < size

namespace Memory

/-- Whether all sizes that a memory holds are valid. -/
def SizesValid (memory : Memory) : Prop :=
  ∀ name entry, memory.tables.get? name = some entry → entry.config.IsValid

/-- Whether all sizes that a memory hands out are valid. -/
def HandsValid (memory : Memory) : Prop :=
  ∀ database name config, memory.config database name = .ok config → config.IsValid

/-- Whether a request sets a valid size, if it sets one for a table that is registered already. -/
def Request.SetsValid : Request → Prop
  | .setConfig _ _ config => config.IsValid
  | .addTable .. | .write _ => True

variable {retryLimit : Int} {chronicle : Chronicle} {memory changed : Memory} {request : Request}
  {requests : List Request} {table : Table} {config : TableConfig} {name : String}

/-! ### Requests and what became of them -/

theorem granted_append (memory : Memory) (first second : List Request) :
    memory.granted (first ++ second) =
      memory.granted first ++ (memory.servedAll first).granted second := by
  induction first generalizing memory with
  | nil => rfl
  | cons request rest hyp =>
    unfold servedAll
    rw [List.cons_append, List.foldl_cons]
    cases answer : memory.serve request with
    | ok changed =>
      simp only [granted, answer, served_of_ok answer, List.cons_append]
      exact congrArg (request :: ·) (hyp changed)
    | error error =>
      simp only [granted, answer, served_of_error answer]
      exact hyp memory

theorem granted_append_of_ok (grants : (memory.servedAll requests).serve request = .ok changed) :
    memory.granted (requests ++ [request]) = memory.granted requests ++ [request] := by
  rw [granted_append]
  simp only [granted, grants]

/-- **A granted request was granted when it was made.** -/
theorem mem_granted (member : request ∈ memory.granted requests) :
    ∃ early changed, early ++ [request] <+: requests ∧
      (memory.servedAll early).serve request = .ok changed := by
  induction requests using List.reverseRecOn with
  | nil => cases member
  | append_singleton requests last hyp =>
    rw [granted_append, List.mem_append] at member
    rcases member with early | now
    · obtain ⟨early, changed, within, grants⟩ := hyp early
      exact ⟨early, changed, within.trans (List.prefix_append _ _), grants⟩
    · cases answer : (memory.servedAll requests).serve last with
      | error error =>
        simp only [granted, answer] at now
        cases now
      | ok changed =>
        simp only [granted, answer, List.mem_singleton] at now
        subst now
        exact ⟨requests, changed, List.prefix_refl _, answer⟩

/-- A table is registered with a valid configuration only. -/
theorem isValid_of_addTable (added : memory.addTable table config = .ok changed) :
    config.IsValid := by
  intro size set
  rw [addTable_eq, set] at added
  by_contra invalid
  simp only [Option.filter_some, Int.not_lt.mp invalid, decide_true, if_true] at added
  cases added

/-! ### What was set -/

/-- What is set for a table was set by a request of the chronicle. -/
theorem exists_of_config? (set : chronicle.config? name = some config) :
    ∃ request ∈ chronicle, request.config? name = some config :=
  List.mem_filterMap.mp (List.mem_of_getLast? set)

theorem recounts_servedAll (retryLimit : Int) (requests : List Request) :
    ((empty retryLimit).servedAll requests).Recounts retryLimit
      ((empty retryLimit).granted requests) :=
  (recounts_empty retryLimit).servedAll requests

/-- Something is set for tables that are registered, and for no others. -/
theorem table?_of_config?
    (set : Chronicle.config? ((empty retryLimit).granted requests) name = some config) :
    ∃ table, Chronicle.table? ((empty retryLimit).granted requests) name = some table := by
  obtain ⟨request, member, sets⟩ := exists_of_config? set
  refine Option.ne_none_iff_exists'.mp fun unknown => ?_
  have silent := List.findSome?_eq_none_iff.mp unknown
  cases request with
  | write => cases sets
  | addTable table config =>
    obtain ⟨same, _⟩ := Option.ite_none_right_eq_some.mp sets
    cases (if_pos same).symm.trans (silent _ member)
  | setConfig database title config =>
    obtain ⟨same, _⟩ := Option.ite_none_right_eq_some.mp sets
    obtain ⟨early, changed, ⟨late, rfl⟩, grants⟩ := mem_granted member
    have unknown : Chronicle.table? ((empty retryLimit).granted early) name = none := by
      refine List.findSome?_eq_none_iff.mpr fun request member => silent request ?_
      rw [List.append_assoc, granted_append]
      exact List.mem_append_left _ member
    have told := ((recounts_servedAll retryLimit early).serves_iff _).mp ⟨changed, grants⟩
    rw [Chronicle.refusal?, same, unknown] at told
    cases told

/-- **The sizes that a memory holds are those that its chronicle says were set last.** -/
theorem sizesValid_iff (retryLimit : Int) (requests : List Request) :
    ((empty retryLimit).servedAll requests).SizesValid ↔ ∀ name config,
      Chronicle.config? ((empty retryLimit).granted requests) name = some config →
        config.IsValid := by
  have recounts := recounts_servedAll retryLimit requests
  constructor
  · intro valid name config set
    obtain ⟨table, known⟩ := table?_of_config? set
    rcases recounts.known name with ⟨_, unknown⟩ | ⟨entry, registered, found, _, named, tells⟩
    · cases unknown.symm.trans known
    · have same := tells.config
      rw [named, set] at same
      exact Option.some.inj same ▸ valid name entry found
  · intro valid name entry found
    rcases recounts.known name with ⟨absent, _⟩ | ⟨_, table, also, _, named, tells⟩
    · cases absent.symm.trans found
    · cases also.symm.trans found
      exact valid table.fullName entry.config tells.config

/-- What is held is handed out, under the names with which the table was registered. -/
theorem Recounts.handsValid_iff (recounts : memory.Recounts retryLimit chronicle) :
    memory.HandsValid ↔ memory.SizesValid := by
  constructor
  · intro hands name entry found
    rcases recounts.known name with ⟨absent, _⟩ | ⟨_, table, _, _, named, _⟩
    · cases absent.symm.trans found
    · subst named
      refine hands table.database table.name entry.config ?_
      unfold Memory.config find
      rw [show memory.tables.get? (Table.joinNames table.database table.name) = _ from found]
      rfl
  · intro valid database name config read
    unfold Memory.config find at read
    cases found : memory.tables.get? (Table.joinNames database name) with
    | none =>
      rw [found] at read
      cases read
    | some entry =>
      rw [found] at read
      cases read
      exact valid _ entry found

/-! ### Along some requests -/

/-- **All sizes stay valid as long as only valid ones are set.** -/
theorem sizesValid_of_setsValid
    (valid : ∀ request ∈ (empty retryLimit).granted requests, request.SetsValid) :
    ((empty retryLimit).servedAll requests).SizesValid := by
  refine (sizesValid_iff retryLimit requests).mpr fun name config set => ?_
  obtain ⟨request, member, sets⟩ := exists_of_config? set
  cases request with
  | write => cases sets
  | setConfig database title other =>
    obtain ⟨_, same⟩ := Option.ite_none_right_eq_some.mp sets
    exact Option.some.inj same ▸ valid _ member
  | addTable table other =>
    obtain ⟨_, same⟩ := Option.ite_none_right_eq_some.mp sets
    obtain ⟨early, changed, _, grants⟩ := mem_granted member
    exact Option.some.inj same ▸ isValid_of_addTable grants

/-- An invalid size is held as soon as it is set for a table that is registered. -/
theorem setsValid_of_sizesValid
    (valid : ((empty retryLimit).servedAll (requests ++ [request])).SizesValid)
    (grants : ((empty retryLimit).servedAll requests).serve request = .ok changed) :
    request.SetsValid := by
  cases request with
  | addTable | write => exact trivial
  | setConfig database name config =>
    refine (sizesValid_iff retryLimit _).mp valid (Table.joinNames database name) config ?_
    have sets : Request.config? (Table.joinNames database name) (.setConfig database name config) =
      some config := if_pos rfl
    rw [granted_append_of_ok grants, Chronicle.config?_append, sets, Option.some_or]

/-- **All group sizes are valid iff only valid ones are set later.** Whatever is asked of a memory, it
holds the sizes that were set last, and hands them out; in all states on the way these sizes are
positive, or not set, iff no request is granted that sets another one for a table that is registered
already. -/
theorem sizes_valid_iff (retryLimit : Int) (requests : List Request) :
    let memory := (empty retryLimit).servedAll requests
    let chronicle : Chronicle := (empty retryLimit).granted requests
    (memory.HandsValid ↔ memory.SizesValid) ∧
    (memory.SizesValid ↔
      ∀ name config, chronicle.config? name = some config → config.IsValid) ∧
    ((∀ early, early <+: requests → ((empty retryLimit).servedAll early).SizesValid) ↔
      ∀ request ∈ chronicle, request.SetsValid) := by
  intro memory chronicle
  refine ⟨(recounts_servedAll retryLimit requests).handsValid_iff, sizesValid_iff .., ?_⟩
  constructor
  · intro valid request member
    obtain ⟨early, changed, within, grants⟩ := mem_granted member
    exact setsValid_of_sizesValid (valid _ within) grants
  · rintro valid early ⟨late, rfl⟩
    refine sizesValid_of_setsValid fun request member => valid request ?_
    show request ∈ (empty retryLimit).granted (early ++ late)
    rw [granted_append]
    exact List.mem_append_left _ member

/-- A size that is refused with a new table can be set for it afterwards, and is handed out. -/
theorem size_zero_held :
    let table : Table := ⟨"d", "t", [], []⟩
    let requests : List Request := [.addTable table ⟨none⟩, .setConfig "d" "t" ⟨some 0⟩]
    let memory := (empty 1).servedAll requests
    (empty 1).addTable table ⟨some 0⟩ = .error (.invalidGroupSize 0) ∧
    memory.config "d" "t" = .ok ⟨some 0⟩ ∧ ¬ memory.HandsValid ∧ ¬ memory.SizesValid := by
  intro table requests memory
  have facts : (empty 1).addTable table ⟨some 0⟩ = .error (.invalidGroupSize 0) ∧
      memory.config "d" "t" = .ok ⟨some 0⟩ := by decide +kernel
  obtain ⟨refused, handed⟩ := facts
  have hands : ¬ memory.HandsValid := fun valid =>
    Int.lt_irrefl 0 (valid "d" "t" ⟨some 0⟩ handed 0 rfl)
  refine ⟨refused, handed, hands, ?_⟩
  rwa [← (recounts_servedAll 1 requests).handsValid_iff]

end Memory

end TableMigration
