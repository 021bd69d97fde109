/-
**What a run uses up.**

* While no job is left, every duty that is done uses something up: an action that is new, the need
  for another pass, the way to the end of the pass, or the agenda itself (`Ledger.Descends`).
* `Ledger.Step.descends` — so does every step that changes the agenda when no job is left. No step
  makes an action new (`Ledger.Step.newActions_le`).
-/

import Mathlib.Algebra.GroupWithZero.Nat
import TableMigration.Proofs.Coverage

namespace TableMigration

/-! ### New actions -/

theorem countP_lt_countP {α : Type} {first second : α → Bool} {items : List α} {item : α}
    (below : ∀ item, first item = true → second item = true) (member : item ∈ items)
    (left : first item = false) (right : second item = true) :
    items.countP first < items.countP second := by
  induction items with
  | nil => cases member
  | cons head rest hyp =>
    have weak : rest.countP first ≤ rest.countP second :=
      List.countP_mono_left fun item _ => below item
    rw [List.countP_cons, List.countP_cons]
    rcases List.mem_cons.mp member with rfl | behind
    · rw [left, right]
      simp only [Bool.false_eq_true, if_false, if_true]
      omega
    · have strict := hyp behind
      by_cases counts : first head = true
      · rw [counts, below head counts]
        omega
      · rw [if_neg counts]
        omega

namespace Task

variable {task : Task} {action : Action} {reported : Progress}

/-- How many actions of a task are new. -/
def newActions (task : Task) : Nat :=
  Action.all.countP fun action => task.actionProgress action = some .new

theorem newActions_congr {after : Task}
    (same : ∀ action, after.actionProgress action = task.actionProgress action) :
    after.newActions = task.newActions := by
  unfold newActions
  simp only [same]

theorem newActions_update_le (forward : reported ≠ .new) :
    (task.update action reported).task.newActions ≤ task.newActions := by
  refine List.countP_mono_left fun other _ new => ?_
  rw [decide_eq_true_iff] at new ⊢
  by_contra old
  by_cases taken : task.Takes action reported
  · rw [actionProgress_update taken] at new
    split at new
    · exact forward (Option.some.inj new)
    · exact old new
  · rw [update_of_not_takes taken] at new
    exact old new

/-- An action that begins is new no more. -/
theorem newActions_update_lt (new : task.actionProgress action = some .new) :
    (task.update action .running).task.newActions < task.newActions := by
  have taken : task.Takes action .running := ⟨.new, new, nofun, rfl⟩
  refine countP_lt_countP (fun other still => ?_) (Action.mem_all action) ?_ (decide_eq_true new)
  · rw [decide_eq_true_iff, actionProgress_update taken] at still
    split at still
    · cases still
    · exact decide_eq_true still
  · rw [decide_eq_false_iff_not, actionProgress_update taken, if_pos rfl]
    nofun

/-- A report calls for two deliveries at most. -/
theorem deliveries_update_le (task : Task) (action : Action) (reported : Progress) :
    (task.update action reported).deliveries.length ≤ 2 := by
  have failure : ∀ task : Task, task.failureDeliveries.length ≤ 1 := by
    intro task
    unfold failureDeliveries
    split
    · split <;> exact Nat.le_refl 1
    · exact Nat.zero_le 1
  have checkpoint : ∀ task : Task, task.checkpointDeliveries.length ≤ 1 := by
    intro task
    unfold checkpointDeliveries
    split
    · split
      · exact Nat.zero_le 1
      · exact Nat.le_refl 1
    · exact Nat.zero_le 1
  unfold update
  split
  · exact Nat.zero_le 2
  · split
    · exact Nat.zero_le 2
    · dsimp only
      split
      · exact Nat.zero_le 2
      · rw [List.length_append]
        exact Nat.add_le_add (failure _) (checkpoint _)

end Task

theorem sum_set {α : Type} (count : α → Nat) {items : List α} {place : Nat} {old : α} (new : α)
    (found : items[place]? = some old) :
    ((items.set place new).map count).sum + count old = (items.map count).sum + count new := by
  induction items generalizing place with
  | nil => cases found
  | cons head rest hyp =>
    cases place with
    | zero =>
      cases found
      simp only [List.set_cons_zero, List.map_cons, List.sum_cons]
      omega
    | succ place =>
      have below := hyp found
      simp only [List.set_cons_succ, List.map_cons, List.sum_cons]
      omega

namespace Ledger

variable {ledger next : Ledger} {answers : Nat → Task → Action → Execution → Prop}
  {acts : List Act} {duty : Duty} {rest duties : List Duty}

/-- How many actions are new, of all tasks. -/
def newActions (ledger : Ledger) : Nat :=
  (ledger.tasks.map Task.newActions).sum

theorem newActions_unlisten (tasks : List Task) (listed : List Nat) :
    ((listed.foldl Task.unlistenTo tasks).map Task.newActions).sum =
      (tasks.map Task.newActions).sum := by
  induction listed generalizing tasks with
  | nil => rfl
  | cons number rest hyp =>
    rw [List.foldl_cons, hyp]
    congr 1
    refine List.ext_getElem? fun place => ?_
    rw [List.getElem?_map, List.getElem?_map, Task.unlistenTo, List.getElem?_modify]
    cases tasks[place]? with
    | none => rfl
    | some task =>
      show some (Task.newActions (if number = place then _ else task)) = _
      split <;> rfl

/-- **No step makes an action new.** -/
theorem Step.newActions_le (step : ledger.Step answers acts next)
    (sound : ledger.custody.Sound) : next.newActions ≤ ledger.newActions := by
  have set : ∀ {number task changed}, ledger.tasks[number]? = some task →
      changed.newActions ≤ task.newActions →
      ((ledger.tasks.set number changed).map Task.newActions).sum ≤ ledger.newActions := by
    intro number task changed found less
    have sum := sum_set Task.newActions changed found
    unfold newActions
    omega
  cases step with
  | dispatch head found => exact set found (Task.newActions_update_le nofun)
  | refuse head found => exact set found (Task.newActions_update_le nofun)
  | unlisten head listed => exact (newActions_unlisten _ _).le
  | keepCounts job found =>
    exact set found (Task.newActions_congr fun _ => Task.actionProgress_withCounts ..).le
  | keepValidation job found =>
    exact set found (Task.newActions_congr fun _ => Task.actionProgress_withValidation ..).le
  | @report jobs number action task execution job found =>
    have member : ⟨number, action, .reporting execution⟩ ∈ ledger.custody.items :=
      mem_items.mpr (.inr ⟨_, job ▸ Multiset.mem_cons_self _ _, rfl⟩)
    have final := sound.final _ member execution rfl
    exact set found (Task.newActions_update_le (Custody.ne_new_of_isTerminal final))
  | _ => exact Nat.le_refl _

/-- Handing out an action leaves fewer that are new. -/
theorem newActions_dispatch (sound : ledger.custody.Sound) {number : Nat} {action : Action}
    {task : Task} (planned : .dispatch number action ∈ ledger.agenda)
    (found : ledger.tasks[number]? = some task) :
    ((ledger.tasks.set number (task.update action .running).task).map Task.newActions).sum <
      ledger.newActions := by
  have member : ⟨number, action, .due⟩ ∈ ledger.custody.items :=
    mem_items.mpr (.inl ⟨_, planned, rfl⟩)
  obtain ⟨heard, known, new, _⟩ := sound.placed _ member
  cases (custody_of_found found).symm.trans known
  have sum := sum_set Task.newActions (task.update action .running).task found
  have strict : (task.update action .running).task.newActions < task.newActions :=
    Task.newActions_update_lt new
  unfold newActions
  omega

/-! ### What a duty uses up -/

instance (ledger : Ledger) : Decidable ledger.Quiet :=
  inferInstanceAs (Decidable (_ ∧ _ ∧ _))

/-- Whether another pass is needed. -/
def unrest (ledger : Ledger) : Nat :=
  if ledger.Quiet then 0 else 1

/-- How far the end of the pass is away. A pass that is not quiet is followed by another one. -/
def phase (ledger : Ledger) : Nat :=
  if .wait ∈ ledger.agenda then 3
  else if .beginPass ∈ ledger.agenda then 2
  else if .test ∈ ledger.agenda then (if ledger.Quiet then 1 else 4)
  else 0

end Ledger

/-- How much a duty can lead to within its pass. -/
def Duty.weight : Duty → Nat
  | .look _ => 9
  | .collect _ => 8
  | .submit .. => 6
  | .refuse .. => 4
  | _ => 1

namespace Ledger

variable {ledger next : Ledger} {answers : Nat → Task → Action → Execution → Prop}
  {acts : List Act} {duty : Duty} {rest duties : List Duty}

/-- How much is left to do in the pass. -/
def weight (ledger : Ledger) : Nat :=
  (ledger.agenda.map Duty.weight).sum

/-- Whether something is used up, the weightiest thing first. -/
def Descends (ledger next : Ledger) : Prop :=
  next.newActions < ledger.newActions ∨ next.newActions = ledger.newActions ∧
    (next.unrest < ledger.unrest ∨ next.unrest = ledger.unrest ∧
      (next.phase < ledger.phase ∨ next.phase = ledger.phase ∧ next.weight < ledger.weight))

/-- With the tasks and counters as they were, only the agenda matters. -/
theorem descends_of_agenda (duties : List Duty) (fewer : next.newActions ≤ ledger.newActions)
    (quiet : next.Quiet ↔ ledger.Quiet) (head : ledger.agenda = duty :: rest)
    (after : next.agenda = duties ++ rest) (early : duty.rank ≠ 3)
    (early' : ∀ other ∈ duties, other.rank ≠ 3)
    (lighter : (duties.map Duty.weight).sum < duty.weight) : ledger.Descends next := by
  rcases Nat.lt_or_eq_of_le fewer with less | same
  · exact .inl less
  have unrest : next.unrest = ledger.unrest := by
    unfold Ledger.unrest
    simp only [quiet]
  have members : ∀ other : Duty, other.rank = 3 →
      (other ∈ next.agenda ↔ other ∈ ledger.agenda) := by
    intro other three
    rw [after, head, List.mem_append, List.mem_cons]
    constructor
    · exact fun member => .inr (member.resolve_left fun new => early' other new three)
    · exact fun member => .inr (member.resolve_left fun same => early (same ▸ three))
  have phase : next.phase = ledger.phase := by
    unfold Ledger.phase
    simp only [members .wait rfl, members .beginPass rfl, members .test rfl, quiet]
  refine .inr ⟨same, .inr ⟨unrest, .inr ⟨phase, ?_⟩⟩⟩
  unfold weight
  rw [after, head, List.map_append, List.sum_append, List.map_cons, List.sum_cons]
  omega

/-- Duties that stand behind all passes do not count as a phase. -/
theorem phase_of_closing (closing : ∀ duty ∈ ledger.agenda, duty.rank = 4) : ledger.phase = 0 := by
  have absent : ∀ duty : Duty, duty.rank = 3 → duty ∉ ledger.agenda := by
    intro duty three member
    rw [closing duty member] at three
    cases three
  unfold phase
  rw [if_neg (absent .wait rfl), if_neg (absent .beginPass rfl), if_neg (absent .test rfl)]

theorem phase_of_test (head : ledger.agenda = [.test]) : 0 < ledger.phase := by
  unfold phase
  rw [head]
  simp only [List.mem_singleton, reduceCtorEq, if_false, if_true]
  split <;> decide

theorem weight_light (light : ∀ duty ∈ duties, duty.weight = 1) :
    (duties.map Duty.weight).sum = duties.length := by
  induction duties with
  | nil => rfl
  | cons head rest hyp =>
    rw [List.map_cons, List.sum_cons, light head List.mem_cons_self,
      hyp fun duty member => light duty (List.mem_cons_of_mem _ member), List.length_cons]
    omega

theorem weight_follow (task : Task) (number : Nat) (action : Action) (reported : Progress) :
    ((Duty.follow number (task.update action reported).changed
      (task.update action reported).deliveries).map Duty.weight).sum ≤ 3 := by
  have light : ∀ duty ∈ Duty.follow number (task.update action reported).changed
      (task.update action reported).deliveries, duty.weight = 1 := by
    intro duty member
    rcases Duty.mem_follow_cases member with ⟨_, _, rfl⟩ | ⟨_, _, rfl⟩ <;> rfl
  rw [weight_light light, Duty.follow, List.length_append, List.length_map, List.length_map]
  have deliveries := task.deliveries_update_le action reported
  have changed : (task.update action reported).changed.toList.length ≤ 1 := by
    cases (task.update action reported).changed <;> simp
  omega

theorem weight_dispatches (task : Task) (number : Nat) :
    ((task.readyActions.map (Duty.dispatch number)).map Duty.weight).sum ≤ 7 := by
  have light : ∀ duty ∈ task.readyActions.map (Duty.dispatch number), duty.weight = 1 := by
    intro duty member
    obtain ⟨_, _, rfl⟩ := List.mem_map.mp member
    rfl
  rw [weight_light light, List.length_map]
  have fewer : task.readyActions.length ≤ Action.all.length :=
    ((List.filter_sublist.trans (List.takeWhile_sublist _)).trans List.filter_sublist).length_le
  exact fewer

theorem phase_pass (head : ledger.agenda = Duty.pass ledger.tables) (quiet : ledger.Quiet) :
    ledger.phase = 1 := by
  have absent : ∀ duty : Duty, duty.rank = 3 → duty ≠ .test → duty ∉ ledger.agenda := by
    intro duty three apart member
    rw [head] at member
    rcases Duty.mem_pass_cases member with looks | test
    · cases looks.symm.trans three
    · exact apart test
  unfold phase
  rw [if_neg (absent .wait rfl nofun), if_neg (absent .beginPass rfl nofun),
    if_pos (head ▸ Duty.test_mem_pass _), if_pos quiet]

theorem phase_beginPass (head : ledger.agenda = [.beginPass]) : ledger.phase = 2 := by
  unfold phase
  rw [head, if_neg (by simp), if_pos (List.mem_singleton.mpr rfl)]

theorem phase_wait (head : ledger.agenda = [.wait]) : ledger.phase = 3 := by
  unfold phase
  rw [head, if_pos (List.mem_singleton.mpr rfl)]

theorem phase_restless (head : ledger.agenda = [.test]) (restless : ¬ ledger.Quiet) :
    ledger.phase = 4 := by
  unfold phase
  rw [head, if_neg (by simp), if_neg (by simp), if_pos (List.mem_singleton.mpr rfl),
    if_neg restless]

/-- A pass that begins while nothing is in flight is quiet so far. Either none was needed before,
and its end has come closer, or one was. -/
theorem descends_beginPass (balanced : ledger.Balanced) (drained : ledger.jobs = 0)
    (head : ledger.agenda = [.beginPass])
    (after : next = { ledger with
      agenda := Duty.pass ledger.tables, seen := ledger.completions, dispatched := 0 }) :
    ledger.Descends next := by
  subst after
  have quiet : Quiet { ledger with
      agenda := Duty.pass ledger.tables, seen := ledger.completions, dispatched := 0 } := by
    refine ⟨rfl, ?_, rfl⟩
    have flight := balanced.flight
    rw [head, drained] at flight
    exact flight
  refine .inr ⟨rfl, ?_⟩
  by_cases calm : ledger.Quiet
  · refine .inr ⟨?_, .inl ?_⟩
    · unfold unrest
      rw [if_pos quiet, if_pos calm]
    · rw [phase_pass rfl quiet, phase_beginPass head]
      decide
  · left
    unfold unrest
    rw [if_pos quiet, if_neg calm]
    decide

/-- **While no job is left, whatever changes the agenda uses something up.** -/
theorem Step.descends (step : ledger.Step answers acts next) (sound : ledger.custody.Sound)
    (balanced : ledger.Balanced) (drained : ledger.jobs = 0)
    (single : ∀ duty rest, ledger.agenda = duty :: rest → duty.rank = 3 → rest = [])
    (changes : next.agenda ≠ ledger.agenda) : ledger.Descends next := by
  have fewer := step.newActions_le sound
  have jobless : ∀ {job : Job} {jobs}, ledger.jobs ≠ job ::ₘ jobs := by
    intro job jobs held
    rw [drained] at held
    exact absurd held.symm (Multiset.cons_ne_zero)
  have popped : ∀ {duty rest}, ledger.agenda = duty :: rest → duty.rank ≠ 3 →
      next.agenda = rest → (next.Quiet ↔ ledger.Quiet) → ledger.Descends next := by
    intro duty rest head early after quiet
    have light : (([] : List Duty).map Duty.weight).sum < duty.weight := by
      cases duty <;> simp [Duty.weight]
    exact descends_of_agenda [] fewer quiet head after early (List.forall_mem_nil _) light
  -- What is handed out makes a pass restless, before and after.
  have restless : ∀ {duty rest}, ledger.agenda = duty :: rest → duty.isHanding = true →
      next.dispatched = ledger.dispatched → (next.Quiet ↔ ledger.Quiet) := by
    intro duty rest head hands same
    have busy := balanced.handed head hands
    exact ⟨fun quiet => absurd (same ▸ quiet.1) busy, fun quiet => absurd quiet.1 busy⟩
  -- The duty that decides about the pass stands alone.
  have phased : ∀ {duty rest}, ledger.agenda = duty :: rest → duty.rank = 3 →
      next.newActions = ledger.newActions → next.unrest = ledger.unrest →
      (rest = [] → next.phase < ledger.phase) → ledger.Descends next :=
    fun head decides new unrest phase =>
      .inr ⟨new, .inr ⟨unrest, .inl (phase (single _ _ head decides))⟩⟩
  cases step with
  | beginPass head =>
    cases single _ _ head rfl
    exact descends_beginPass balanced drained head (by rw [List.append_nil])
  | testDone head =>
    refine phased head rfl rfl rfl fun last => ?_
    subst last
    rw [phase_of_closing fun duty member =>
      Duty.rank_closing ((List.mem_append.mp member).resolve_right List.not_mem_nil)]
    exact phase_of_test head
  | testStuck head =>
    refine phased head rfl rfl rfl fun last => ?_
    subst last
    rw [phase_of_closing fun duty member =>
      Duty.rank_stuck ((List.mem_append.mp member).resolve_right List.not_mem_nil)]
    exact phase_of_test head
  | testOn head busy =>
    refine phased head rfl rfl rfl fun last => ?_
    subst last
    rw [phase_wait rfl, phase_restless head busy]
    decide
  | wait head =>
    refine phased head rfl rfl rfl fun last => ?_
    subst last
    rw [phase_beginPass rfl, phase_wait head]
    decide
  | dispatch head found =>
    exact .inl (newActions_dispatch sound (head ▸ List.mem_cons_self) found)
  | lookOn head =>
    exact descends_of_agenda [_] fewer .rfl head rfl nofun (List.forall_mem_singleton.mpr nofun)
      (by simp [Duty.weight])
  | @collect rest number task head found =>
    have early : ∀ duty ∈ task.readyActions.map (Duty.dispatch number), duty.rank ≠ 3 := by
      intro duty member
      rw [Duty.rank_dispatches member]
      nofun
    exact descends_of_agenda _ fewer .rfl head rfl nofun early
      (Nat.lt_of_le_of_lt (weight_dispatches task number) (by simp [Duty.weight]))
  | turnAway head found =>
    refine descends_of_agenda [_, _] fewer .rfl head rfl nofun (fun duty member => ?_)
      (by simp [Duty.weight])
    rw [Duty.rank_refusing member]
    nofun
  | @refuse rest number action task head found =>
    have early : ∀ duty ∈ Duty.follow number (task.update action .failed).changed
        (task.update action .failed).deliveries, duty.rank ≠ 3 := by
      intro duty member
      rw [Duty.rank_follow member]
      nofun
    exact descends_of_agenda _ fewer .rfl head rfl nofun early
      (Nat.lt_of_le_of_lt (weight_follow task number action .failed) (by simp [Duty.weight]))
  | countIn head => exact popped head nofun rfl (restless head rfl rfl)
  | countOut head => exact popped head nofun rfl (restless head rfl rfl)
  | lookEnded head => exact popped head nofun rfl .rfl
  | absent head about => exact popped head (Duty.rank_of_subject about) rfl .rfl
  | submit head found => exact popped head nofun rfl .rfl
  | judgeNothing head => exact popped head nofun rfl .rfl
  | judge head => exact popped head nofun rfl .rfl
  | aside head isAside => exact popped head (Duty.rank_of_isAside isAside) rfl .rfl
  | unlisten head => exact popped head nofun rfl .rfl
  | take => exact absurd rfl changes
  | execute job | keepCounts job | keepValidation job | report job | follow job | complete job
  | leave job => exact absurd job jobless

end Ledger

end TableMigration
