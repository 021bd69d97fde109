/-
**How many passes a run makes, and how many actions it hands out.**

* `Custody.newIn` — how many actions of some tasks are new. Whatever is handed out was new and is
  never new again (`Custody.Step.spends`), so that a run hands out no more actions than were new in
  the tasks that are listed (`Run.Faithful.handed_le`).
* `Ledger.Spent` — a pass has begun with nothing in flight, and nothing was handed out since. As long
  as this is so, no other pass begins (`Ledger.Step.spent`).
* `Run.passes` lists what was in flight when the passes of a run began. There is one more pass at
  most that begins with nothing in flight than actions are handed out (`Run.Healthy.passes_le`).
-/

import Mathlib.Algebra.Order.BigOperators.Group.List
import Mathlib.Algebra.Order.Group.Nat
import TableMigration.Proofs.Counters
import TableMigration.Proofs.Verdicts

namespace TableMigration

/-! ### New actions are spent -/

namespace Task

variable {before after : Task} {action : Action}

/-- What is new was new before. -/
theorem MovesOn.new (on : MovesOn before after) (new : after.actionProgress action = some .new) :
    before.actionProgress action = some .new := by
  have present : before.has action = true := by
    rw [← on.kind.has, has_eq, new]
    rfl
  rw [has_eq] at present
  obtain ⟨progress, found⟩ := Option.isSome_iff_exists.mp present
  by_contra old
  have begun : progress ≠ .new := fun same => old (same ▸ found)
  exact on.begun action progress found begun new

theorem MovesOn.newActions_le (on : MovesOn before after) :
    after.newActions ≤ before.newActions := by
  refine List.countP_mono_left fun action _ new => ?_
  rw [decide_eq_true_iff] at new ⊢
  exact on.new new

end Task

namespace Custody

variable {custody next : Custody} {answers : Nat → Task → Action → Execution → Prop}
  {acts : List Act} {number : Nat} {action : Action}

/-- How many actions of a task are new. -/
def newOf (custody : Custody) (number : Nat) : Nat :=
  ((custody.tasks number).map Task.newActions).getD 0

/-- How many actions of some tasks are new. -/
def newIn (custody : Custody) (numbers : List Nat) : Nat :=
  (numbers.map custody.newOf).sum

theorem newOf_eq {task : Task} (found : custody.tasks number = some task) :
    custody.newOf number = task.newActions := by
  unfold newOf
  rw [found]
  rfl

/-- No step makes an action of a task new. -/
theorem Step.newOf_le (step : custody.Step answers acts next) (sound : custody.Sound)
    (number : Nat) : next.newOf number ≤ custody.newOf number := by
  cases found : next.tasks number with
  | none =>
    unfold newOf
    rw [found]
    exact Nat.zero_le _
  | some after =>
    obtain ⟨task, known, on⟩ := step.origin sound found
    rw [newOf_eq found, newOf_eq known]
    exact on.newActions_le

/-- What is handed out was new, and is new no more. -/
theorem Step.spends (step : custody.Step answers acts next) (sound : custody.Sound)
    (done : .dispatched number action ∈ acts) :
    acts = [.dispatched number action] ∧ ∃ task after, custody.tasks number = some task ∧
      next.tasks number = some after ∧ task.actionProgress action = some .new ∧
      after.actionProgress action = some .running ∧ after.newActions < task.newActions := by
  obtain ⟨only, task, _, held, found, rfl⟩ := step.of_dispatched done
  have new := (sound.held held found).1
  have takes := sound.takes held found (by decide : Station.due.progress ≠ .running)
  refine ⟨only, task, _, found, if_pos rfl, new, ?_, Task.newActions_update_lt new⟩
  rw [Task.actionProgress_update takes, if_pos rfl]

/-- **What is handed out is paid for with actions that are new.** -/
theorem Step.newIn_le (step : custody.Step answers acts next) (sound : custody.Sound)
    (numbers : List Nat)
    (listed : ∀ number action, .dispatched number action ∈ acts → number ∈ numbers) :
    next.newIn numbers + (Act.handed acts).length ≤ custody.newIn numbers := by
  have fewer : ∀ number ∈ numbers, next.newOf number ≤ custody.newOf number :=
    fun number _ => step.newOf_le sound number
  cases hands : Act.handed acts with
  | nil => exact List.sum_le_sum fewer
  | cons key others =>
    have done : .dispatched key.1 key.2 ∈ acts :=
      Act.dispatched_of_handed (hands ▸ List.mem_cons_self)
    obtain ⟨only, task, after, known, found, _, _, less⟩ := step.spends sound done
    rw [only] at hands
    cases hands
    rw [← newOf_eq found, ← newOf_eq known] at less
    exact List.sum_lt_sum _ _ fewer ⟨_, listed _ _ done, less⟩

end Custody

/-! ### The duty that hands out -/

namespace Ledger

variable {ledger next : Ledger} {answers : Nat → Task → Action → Execution → Prop}
  {acts : List Act} {number : Nat} {action : Action}

theorem Step.head_of_dispatched (step : ledger.Step answers acts next)
    (done : .dispatched number action ∈ acts) : .dispatch number action ∈ ledger.agenda := by
  cases step with
  | dispatch head found =>
    cases List.mem_singleton.mp done
    exact head ▸ List.mem_cons_self
  | judge =>
    obtain ⟨_, _, same⟩ := List.mem_map.mp done
    cases same
  | lookEnded | turnAway | execute => cases List.mem_singleton.mp done
  | _ => cases done

/-! ### Passes that begin with nothing in flight -/

/-- Whether a pass goes on that began with nothing in flight, and that has handed out nothing yet, or
whether such a pass was the last one. -/
def Spent (ledger : Ledger) : Prop :=
  ledger.Quiet ∧ ∀ duty ∈ ledger.agenda, duty.rank = 3 → duty = .test

/-- **Only handing out an action brings about another pass.** -/
theorem Step.spent (step : ledger.Step answers acts next) (balanced : ledger.Balanced)
    (spent : ledger.Spent) (silent : Act.handed acts = []) : next.Spent := by
  obtain ⟨quiet, tested⟩ := spent
  obtain ⟨_, handsOut⟩ := balanced.quiet quiet
  have goesOn : ∀ {duty : Duty} {rest duties}, ledger.agenda = duty :: rest →
      (∀ other ∈ duties, other.rank ≠ 3) →
      ∀ other ∈ duties ++ rest, other.rank = 3 → other = .test := by
    intro duty rest duties head new other planned three
    rcases List.mem_append.mp planned with fresh | old
    · exact absurd three (new other fresh)
    · exact tested other (head ▸ List.mem_cons_of_mem _ old) three
  have idle : ∀ {duty : Duty} {rest}, ledger.agenda = duty :: rest → duty.isHanding ≠ true := by
    intro duty rest head hands
    rw [handsOut duty (head ▸ List.mem_cons_self)] at hands
    cases hands
  cases step with
  | beginPass head | wait head => cases tested _ (head ▸ List.mem_cons_self) rfl
  | testOn head busy => exact absurd quiet busy
  | dispatch => cases silent
  | countIn head | countOut head | submit head | turnAway head | refuse head =>
    exact absurd rfl (idle head)
  | complete job => cases balanced.not_open quiet job
  | lookOn head =>
    exact ⟨quiet, goesOn head (List.forall_mem_singleton.mpr (by simp [Duty.rank]))⟩
  | collect head =>
    refine ⟨quiet, goesOn head fun other planned => ?_⟩
    rw [Duty.rank_dispatches planned]
    decide
  | testDone head =>
    refine ⟨quiet, goesOn head fun other planned => ?_⟩
    rw [Duty.rank_closing planned]
    decide
  | testStuck head =>
    refine ⟨quiet, goesOn head fun other planned => ?_⟩
    rw [Duty.rank_stuck planned]
    decide
  | lookEnded head | absent head | judgeNothing head | judge head | aside head | unlisten head =>
    exact ⟨quiet, goesOn head (List.forall_mem_nil _)⟩
  | take | execute | keepCounts | keepValidation | report | follow | leave =>
    exact ⟨quiet, tested⟩

end Ledger

namespace Run

variable {σ : Type} {engines : Engines σ} {run next last : Run σ} {moves : List Move}
  {move : Move} {tasks : List Task} {listed : List Nat} {acts : List Act} {number : Nat}
  {action : Action}

theorem trace_cons (moved : run.step engines move = some next) (rest : List Move) :
    run.trace engines (move :: rest) = run.acts engines move ++ next.trace engines rest := by
  simp only [Run.trace, moved]

/-- Only actions of listed tasks are handed out. -/
theorem Faithful.listed_of_dispatched (faithful : run.Faithful tasks listed acts)
    (moved : run.step engines move = some next)
    (done : .dispatched number action ∈ run.acts engines move) : number ∈ listed := by
  have planned := (Campaign.step_finishes moved).head_of_dispatched done
  exact (faithful.listed_of_has (faithful.heeded.within.duties _ planned number rfl)).1

/-- **A run hands out no more actions than are new in the listed tasks.** -/
theorem Faithful.handed_le (faithful : run.Faithful tasks listed acts)
    (reached : run.steps engines moves = some last) :
    last.ledger.custody.newIn listed.dedup + (Act.handed (run.trace engines moves)).length ≤
      run.ledger.custody.newIn listed.dedup := by
  induction moves generalizing run acts with
  | nil =>
    cases reached
    exact Nat.le_refl _
  | cons move rest hyp =>
    obtain ⟨next, moved, reached⟩ := Option.bind_eq_some_iff.mp reached
    have later := hyp (faithful.step moved) reached
    have goes := faithful.healthy.goes moved
    have now := goes.newIn_le faithful.healthy.sound listed.dedup fun number action done =>
      List.mem_dedup.mpr (faithful.listed_of_dispatched moved done)
    rw [trace_cons moved, Act.handed_append, List.length_append]
    omega

/-- No move makes an action new. -/
theorem Healthy.new (healthy : run.Healthy) (moved : run.step engines move = some next)
    {after : Task} (found : next.tasks[number]? = some after)
    (new : after.actionProgress action = some .new) :
    ∃ task, run.tasks[number]? = some task ∧ task.actionProgress action = some .new := by
  have found : next.ledger.custody.tasks number = some after.deaf := custody_of_found found
  obtain ⟨deaf, known, on⟩ := (healthy.goes moved).origin healthy.sound found
  obtain ⟨task, known', rfl⟩ := Option.map_eq_some_iff.mp known
  exact ⟨task, known', on.new new⟩

theorem Healthy.new_steps (healthy : run.Healthy) (reached : run.steps engines moves = some last)
    {after : Task} (found : last.tasks[number]? = some after)
    (new : after.actionProgress action = some .new) :
    ∃ task, run.tasks[number]? = some task ∧ task.actionProgress action = some .new := by
  induction moves generalizing run with
  | nil =>
    cases reached
    exact ⟨after, found, new⟩
  | cons move rest hyp =>
    obtain ⟨next, moved, reached⟩ := Option.bind_eq_some_iff.mp reached
    obtain ⟨task, found, new⟩ := hyp (healthy.step moved) reached
    exact healthy.new moved found new

/-- **What is handed out was new, and is never new again.** -/
theorem Healthy.spends (healthy : run.Healthy) (moved : run.step engines move = some next)
    (done : .dispatched number action ∈ run.acts engines move) :
    (∃ task, run.tasks[number]? = some task ∧ task.actionProgress action = some .new) ∧
      ∀ moves last, next.steps engines moves = some last →
        ∀ task, last.tasks[number]? = some task → task.actionProgress action ≠ some .new := by
  obtain ⟨_, deaf, after, known, found, new, running, _⟩ :=
    (healthy.goes moved).spends healthy.sound done
  obtain ⟨task, known', rfl⟩ := Option.map_eq_some_iff.mp known
  obtain ⟨heard, found', rfl⟩ := Option.map_eq_some_iff.mp found
  refine ⟨⟨task, known', new⟩, fun moves last reached final present still => ?_⟩
  obtain ⟨other, present, still⟩ := (healthy.step moved).new_steps reached present still
  cases found'.symm.trans present
  cases running.symm.trans still

/-! ### Passes -/

/-- What is in flight, if a move begins a pass. -/
def passBegun? (run : Run σ) : Move → Option Nat
  | .advance => if run.agenda.head? = some .beginPass then some run.scheduler.inFlight else none
  | .take _ | .work .. => none

/-- What was in flight at the beginning of each pass, in the course of some moves. -/
def passes (engines : Engines σ) (run : Run σ) : List Move → List Nat
  | [] => []
  | move :: rest =>
    match run.step engines move with
    | none => []
    | some next => (run.passBegun? move).toList ++ next.passes engines rest

theorem passes_cons (moved : run.step engines move = some next) (rest : List Move) :
    run.passes engines (move :: rest) =
      (run.passBegun? move).toList ++ next.passes engines rest := by
  simp only [passes, moved]

/-- A pass that begins with nothing in flight has handed out nothing yet. -/
theorem Healthy.spent_of_begun (healthy : run.Healthy) (begun : run.passBegun? move = some 0)
    (moved : run.step engines move = some next) : next.ledger.Spent := by
  cases move with
  | take | work => cases begun
  | advance =>
    unfold passBegun? at begun
    dsimp only at begun
    split at begun
    · rename_i head
      obtain ⟨rest, agenda⟩ := List.head?_eq_some_iff.mp head
      have last : rest = [] := healthy.heading.single agenda rfl
      have performed : { run with agenda := rest }.perform engines .beginPass = some next :=
        (advance_eq agenda).symm.trans moved
      cases performed
      refine ⟨⟨rfl, Option.some.inj begun, rfl⟩, fun duty planned three => ?_⟩
      have planned : duty ∈ Duty.pass run.tables ++ rest := planned
      rw [last, List.append_nil] at planned
      rcases Duty.mem_pass_cases planned with looks | test
      · cases looks.symm.trans three
      · exact test
    · cases begun

/-- While nothing is handed out no other pass begins. -/
theorem not_begun_of_spent (spent : run.ledger.Spent) : run.passBegun? move = none := by
  cases move with
  | take | work => rfl
  | advance =>
    refine if_neg fun head => ?_
    obtain ⟨rest, agenda⟩ := List.head?_eq_some_iff.mp head
    have agenda : run.ledger.agenda = .beginPass :: rest := agenda
    cases spent.2 _ (agenda ▸ List.mem_cons_self) rfl

/-- **If nothing is handed out, the pass is the last one.** -/
theorem Healthy.spent_steps (healthy : run.Healthy) (spent : run.ledger.Spent)
    (reached : run.steps engines moves = some last)
    (silent : Act.handed (run.trace engines moves) = []) : last.ledger.Spent := by
  induction moves generalizing run with
  | nil =>
    cases reached
    exact spent
  | cons move rest hyp =>
    obtain ⟨next, moved, reached⟩ := Option.bind_eq_some_iff.mp reached
    rw [trace_cons moved, Act.handed_append] at silent
    obtain ⟨here, later⟩ := List.append_eq_nil_iff.mp silent
    have spent := (Campaign.step_finishes moved).spent healthy.balanced spent here
    exact hyp (healthy.step moved) spent reached later

/-- **Before each pass but one that begins with nothing in flight, an action is handed out.** The
exception is a pass that begins before any other such pass. -/
theorem Healthy.passes_le (healthy : run.Healthy)
    (reached : run.steps engines moves = some last) :
    (run.passes engines moves).count 0 ≤ (Act.handed (run.trace engines moves)).length + 1 ∧
      (run.ledger.Spent →
        (run.passes engines moves).count 0 ≤ (Act.handed (run.trace engines moves)).length) := by
  induction moves generalizing run with
  | nil => exact ⟨Nat.zero_le _, fun _ => Nat.zero_le _⟩
  | cons move rest hyp =>
    obtain ⟨next, moved, reached⟩ := Option.bind_eq_some_iff.mp reached
    obtain ⟨most, fewer⟩ := hyp (healthy.step moved) reached
    rw [trace_cons moved, passes_cons moved, Act.handed_append, List.length_append,
      List.count_append]
    refine ⟨?_, fun spent => ?_⟩
    · by_cases begun : run.passBegun? move = some 0
      · have fewer := fewer (healthy.spent_of_begun begun moved)
        rw [begun]
        simp only [Option.toList_some, List.count_singleton_self]
        omega
      · have other : (run.passBegun? move).toList.count 0 = 0 := by
          refine List.count_eq_zero.mpr fun member => begun ?_
          exact Option.mem_toList.mp member
        omega
    · rw [not_begun_of_spent spent]
      simp only [Option.toList_none, List.count_nil, Nat.zero_add]
      cases hands : Act.handed (run.acts engines move) with
      | nil =>
        have spent := (Campaign.step_finishes moved).spent healthy.balanced spent hands
        have fewer := fewer spent
        omega
      | cons key others =>
        rw [List.length_cons]
        omega

end Run

end TableMigration
