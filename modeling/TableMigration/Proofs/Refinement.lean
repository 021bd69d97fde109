/-
**Every run leaves its tasks as the reference says.**

* `Scheduler.Begins.healthy`, `Scheduler.Begins.certain` — how a run of fresh tasks begins.
* `Run.Steady` — with engines whose answers are allowed by the briefs, all of this holds wherever the
  run has come (`Run.Steady.steps`).
* `Run.refines_reference` — so a run that is over has left every task as the reference says, whatever the
  order of its moves, and a run that is not over can be brought to its end.
-/

import TableMigration.Proofs.Deliveries
import TableMigration.Proofs.Determinacy
import TableMigration.Proofs.Writes

namespace TableMigration

/-! ### Tasks of one kind -/

namespace Task

variable {first second : Task}

/-- Who listens to a task has nothing to do with its kind. -/
theorem sameKind_deaf (task : Task) : task.SameKind task.deaf ∧ task.deaf.SameKind task :=
  ⟨⟨rfl, rfl, rfl, rfl, rfl, fun _ => rfl⟩, ⟨rfl, rfl, rfl, rfl, rfl, fun _ => rfl⟩⟩

theorem SameKind.actions (kind : SameKind first second) : first.actions = second.actions := by
  unfold Task.actions
  congr 1
  funext action
  exact kind.has action

theorem SameKind.briefOf (kind : SameKind first second) : first.briefOf = second.briefOf := by
  funext counts action
  unfold Task.briefOf
  rw [kind.name, kind.table, kind.config, kind.store, kind.failureStatus, kind.actions]

theorem SameKind.handleTier (kind : SameKind first second) (answer : Brief → Execution)
    (accepts : Action → Bool) :
    first.handleTier answer accepts = second.handleTier answer accepts := by
  have handle : first.handle answer accepts = second.handle answer accepts := by
    unfold Task.handle
    rw [kind.briefOf]
  unfold Task.handleTier Task.tier
  rw [kind.actions, handle]

/-- The reference is about how a task was planned. -/
theorem SameKind.reference (kind : SameKind first second) (answer : Brief → Execution)
    (accepts : Action → Bool) : first.reference answer accepts = second.reference answer accepts := by
  have follow : ∀ priorities course, first.follow answer accepts priorities course =
      second.follow answer accepts priorities course := by
    intro priorities
    induction priorities with
    | nil => exact fun _ => rfl
    | cons priority rest hyp =>
      intro course
      rw [Task.follow, Task.follow, kind.handleTier]
      unfold Task.tier
      rw [kind.actions]
      simp only [hyp]
  unfold Task.reference Task.priorities
  rw [follow, kind.actions]

end Task

/-! ### The beginning -/

theorem Grouping.isEmpty_ofTasks {tasks : List Task} {listed : List Nat} {number : Nat}
    (empty : (Grouping.ofTasks tasks listed).isEmpty = true) :
    ¬ (Grouping.ofTasks tasks listed).Has number := by
  rintro ⟨entry, member, _⟩
  rw [List.isEmpty_iff.mp empty] at member
  cases member

namespace Scheduler.Begins

variable {σ : Type} {scheduler : Scheduler} {tasks : List Task} {listed : List Nat} {state : σ}
  {run : Run σ}

/-- The agenda of a run that begins hands out nothing. -/
theorem agenda_late (begins : Begins scheduler tasks listed state run) :
    ∀ duty ∈ run.agenda, 3 ≤ duty.rank := by
  intro duty planned
  rw [begins.agenda] at planned
  split at planned
  · rw [Duty.rank_closing planned]
    exact Nat.le_succ 3
  · rw [List.mem_singleton.mp planned]
    exact Nat.le_refl 3

/-- There is nothing to deliver. -/
theorem not_pending (begins : Begins scheduler tasks listed state run) {number : Nat}
    {delivery : Delivery} : ¬ run.ledger.Pending number delivery := by
  rintro (planned | ⟨job, member, _⟩)
  · have late := begins.agenda_late _ planned
    exact absurd late (by simp [Duty.rank])
  · rw [show run.ledger.jobs = 0 from begins.jobs] at member
    cases member

theorem balanced (begins : Begins scheduler tasks listed state run) : run.ledger.Balanced := by
  obtain ⟨inFlight, completions, seen, dispatched⟩ := begins.counters
  have idle : ∀ duty ∈ run.agenda, duty.isHanding = false := by
    intro duty planned
    have late := begins.agenda_late duty planned
    exact Duty.not_handing_of_rank (by omega)
  obtain ⟨noIn, noSubmit, noOut⟩ := Duty.countP_of_not_handing idle
  have jobs : Ledger.openJobs run.ledger.jobs = 0 := by
    rw [show run.ledger.jobs = 0 from begins.jobs]
    rfl
  refine ⟨?_, fun front back split => ?_, fun duty planned hands => ?_, ?_⟩
  · show run.scheduler.inFlight + run.agenda.countP _ = run.agenda.countP _ + run.agenda.countP _ + _
    rw [inFlight, noIn, noSubmit, noOut, jobs]
  · have split : run.agenda = front ++ back := split
    have idle' : ∀ duty ∈ back, duty.isHanding = false :=
      fun duty member => idle duty (split ▸ List.mem_append_right _ member)
    rw [(Duty.countP_of_not_handing idle').1]
    exact Nat.zero_le _
  · rw [idle duty planned] at hands
    cases hands
  · show run.seen ≤ run.scheduler.completions
    rw [seen]
    exact Nat.zero_le _

theorem covered (begins : Begins scheduler tasks listed state run) : run.ledger.Covered := by
  have agenda : run.ledger.agenda = _ := begins.agenda
  have grouped : run.ledger.tables = _ := begins.grouped
  refine ⟨fun early => ?_, fun entry member done => ?_, fun testing => ?_, fun closing => ?_⟩
  · obtain ⟨duty, planned, low⟩ := early
    have late := begins.agenda_late duty planned
    exact ⟨duty, planned, by omega⟩
  · rw [grouped] at member
    rw [Grouping.unfinished_ofTasks tasks listed entry member] at done
    cases done
  · rw [agenda] at testing
    split at testing
    · cases Duty.rank_closing testing
    · cases List.mem_singleton.mp testing
  · intro number has
    rw [agenda] at closing
    rw [grouped] at has
    split at closing
    · rename_i empty
      exact absurd has (Grouping.isEmpty_ofTasks empty)
    · cases closing .beginPass List.mem_cons_self

theorem heading (begins : Begins scheduler tasks listed state run) : run.Heading := by
  have opened : ∀ engine, run.phase engine = .open := fun engine => (begins.pools engine).1
  have agenda := begins.agenda
  split at agenda
  · refine .leaving Duty.closing ⟨List.suffix_refl _, [], agenda⟩ fun engine => ?_
    rw [opened]
    cases engine <;> rfl
  · exact .passing ⟨[], .beginPass, agenda, rfl, List.forall_mem_nil _⟩ opened

/-- A run of tasks that nobody runs yet begins at rest. -/
theorem resting (begins : Begins scheduler tasks listed state run)
    (kept : ∀ task ∈ tasks, task.WellKept) : run.ledger.custody.Resting := by
  rw [Campaign.custody_begins begins]
  refine ⟨rfl, rfl, fun number task found => ?_⟩
  obtain ⟨heard, known, rfl⟩ := Option.map_eq_some_iff.mp found
  exact kept heard (List.mem_of_getElem? known)

/-- **A run begins in good health.** -/
theorem healthy (begins : Begins scheduler tasks listed state run) : run.Healthy where
  orderly := begins.orderly
  sound := Custody.sound_of_items (by rw [Campaign.custody_begins begins])
  balanced := begins.balanced
  covered := begins.covered
  known job member := by
    rw [show run.ledger.jobs = 0 from begins.jobs] at member
    cases member
  joining := begins.joining
  heading := begins.heading

/-- A run of fresh tasks begins with what is certain about them. -/
theorem certain (begins : Begins scheduler tasks listed state run)
    (fresh : ∀ task ∈ tasks, task.Fresh) (allows : Brief → Execution → Prop) :
    Custody.Certain allows run.ledger.custody [] run.ledger.custody := by
  refine (begins.resting fun task member => (fresh task member).wellKept).certain
    fun number task found => ?_
  rw [Campaign.custody_begins begins] at found
  obtain ⟨heard, known, rfl⟩ := Option.map_eq_some_iff.mp found
  have fresh := fresh heard (List.mem_of_getElem? known)
  exact ⟨fresh.progress, fresh.records⟩

end Scheduler.Begins

/-! ### Wherever a run has come -/

namespace Run

variable {σ : Type} {engines : Engines σ} {origin run next last : Run σ}
  {acts : List Act} {allows : Brief → Execution → Prop} {verifiesItself : Bool}

/-- What holds of a run that began with fresh tasks, with engines whose answers are allowed by the
briefs. -/
structure Steady (run : Run σ) (allows : Brief → Execution → Prop) (verifiesItself : Bool)
    (origin : Run σ) (acts : List Act) : Prop where
  healthy : run.Healthy
  certain : Custody.Certain allows origin.ledger.custody acts run.ledger.custody
  present : ∀ number task, origin.ledger.custody.tasks number = some task →
    ∃ after, run.ledger.custody.tasks number = some after ∧ after.SameKind task
  grouped : ∀ number, origin.tables.Has number → run.tables.Has number
  verifies : run.scheduler.verifiesItself = verifiesItself

/-- Whether engines keep to what the briefs allow, and leave nothing open. -/
structure Keeps (engines : Engines σ) (verifiesItself : Bool) (allows : Brief → Execution → Prop) :
    Prop where
  answers : ∀ (run : Run σ) number task action, run.scheduler.verifiesItself = verifiesItself →
    allows (task.brief action) (run.callEngine engines number task action).1
  finishing : ∀ brief execution, allows brief execution → execution.progress.isTerminal = true

/-- **A move keeps a run steady.** -/
theorem Steady.step {move : Move} (steady : run.Steady allows verifiesItself origin acts)
    (keeps : Keeps engines verifiesItself allows) (moved : run.step engines move = some next) :
    next.Steady allows verifiesItself origin (acts ++ run.acts engines move) := by
  have answered : run.ledger.Step (Custody.AnswersBy allows) (run.acts engines move) next.ledger :=
    step_ledger moved fun number task action =>
      keeps.answers run number task action steady.verifies
  have step : run.ledger.custody.Step (Custody.AnswersBy allows) (run.acts engines move)
      next.ledger.custody :=
    answered.custody (fun _ _ _ _ => id) steady.healthy.orderly
  refine ⟨steady.healthy.step moved, ?_, fun number task began => ?_, fun number has => ?_, ?_⟩
  · exact steady.certain.step step keeps.finishing
  · obtain ⟨before, found, kind⟩ := steady.present number task began
    obtain ⟨after, found', on⟩ := step.movesOn steady.healthy.sound found
    exact ⟨after, found', on.kind.trans kind⟩
  · exact answered.has (steady.grouped number has)
  · exact (step_frame moved).verifies.trans steady.verifies

/-- What every move keeps, some moves keep one after the other. -/
theorem steps_keep {holds : List Act → Run σ → Prop}
    (keeps : ∀ acts run move next, holds acts run → run.step engines move = some next →
      holds (acts ++ run.acts engines move) next)
    {moves : List Move} (now : holds acts run) (moved : run.steps engines moves = some last) :
    holds (acts ++ run.trace engines moves) last := by
  have keep : ∀ acts (_ : List (StoreRef × Write)) (run : Run σ) move next, holds acts run →
      run.step engines move = some next → holds (acts ++ run.acts engines move) next :=
    fun acts _ run move next now moved => keeps acts run move next now moved
  exact @steps_hold σ engines run last (fun acts _ run => holds acts run) keep acts [] moves now moved

/-- **So do some moves, one after the other.** -/
theorem Steady.steps {moves : List Move} (steady : run.Steady allows verifiesItself origin acts)
    (keeps : Keeps engines verifiesItself allows) (moved : run.steps engines moves = some last) :
    last.Steady allows verifiesItself origin (acts ++ run.trace engines moves) := by
  have keep : ∀ acts (run : Run σ) move next, run.Steady allows verifiesItself origin acts →
      run.step engines move = some next →
      next.Steady allows verifiesItself origin (acts ++ run.acts engines move) :=
    fun _ _ _ _ steady moved => steady.step keeps moved
  exact steps_keep keep steady moved

/-- A run of fresh tasks begins steadily. -/
theorem steady_begins {scheduler : Scheduler} {tasks : List Task} {listed : List Nat} {state : σ}
    (begins : scheduler.Begins tasks listed state run) (fresh : ∀ task ∈ tasks, task.Fresh)
    (allows : Brief → Execution → Prop) :
    run.Steady allows scheduler.verifiesItself run [] where
  healthy := begins.healthy
  certain := begins.certain fresh _
  present _ task found := ⟨task, found, .refl task⟩
  grouped _ has := has
  verifies := begins.verifies

/-! ### Engines that answer from the briefs -/

variable {answer : Brief → Execution} {behaviour : Brief → EngineReply}

/-- An answer leaves nothing open. -/
theorem finishes_answer (behaviour : Brief → EngineReply) (verifiesItself : Bool) (brief : Brief) :
    (brief.answer behaviour verifiesItself).progress.isTerminal = true := by
  unfold Brief.answer
  split
  · exact brief.finishes_verification
  · exact Campaign.finishes_result _

theorem keeps_answer (follow : engines.Follow behaviour) (verifiesItself : Bool) :
    Keeps engines verifiesItself fun brief execution =>
      execution = brief.answer behaviour verifiesItself where
  answers run number task action verifies := by
    rw [callEngine_answer follow, verifies]
  finishing brief execution same := same ▸ finishes_answer behaviour verifiesItself brief

/-- Where a run that is over leaves a task, by the reference for its task. -/
structure Leaves (answer : Brief → Execution) (accepts : Action → Bool) (task after : Task) :
    Prop where
  kind : after.SameKind task
  agrees : ∀ action, after.Agrees (task.reference answer accepts) action
  outcome : after.progress = (task.reference answer accepts).outcome task.actions
  stopped : after.progress = .failed ↔
    ∃ action ∈ task.actions, (task.reference answer accepts).progress action = .failed

theorem Leaves.of_sameKind {accepts : Action → Bool} {task other after : Task}
    (leaves : Leaves answer accepts task after)
    (kind : task.SameKind other) : Leaves answer accepts other after := by
  obtain ⟨kind', agrees, outcome, stopped⟩ := leaves
  rw [kind.reference] at agrees outcome stopped
  rw [kind.actions] at outcome stopped
  exact ⟨kind'.trans kind, agrees, outcome, stopped⟩

/-- A task has failed iff the reference stopped at an action that did. -/
theorem failed_iff {accepts : Action → Bool} {after : Task}
    (concluded : after.Concluded answer accepts) (summed : after.Summed) :
    after.progress = .failed ↔ ∃ action ∈ after.actions,
      (after.reference answer accepts).progress action = .failed := by
  rw [summed.failed]
  constructor
  · rintro ⟨action, failed⟩
    have present : action ∈ after.actions := by
      rw [Task.mem_actions, Task.has_eq, failed]
      rfl
    have agrees := (concluded.reference action).1 present
    exact ⟨action, present, Option.some.inj (agrees.symm.trans failed)⟩
  · rintro ⟨action, present, failed⟩
    exact ⟨action, failed ▸ (concluded.reference action).1 present⟩

/-- Nothing will happen any more to the tasks of a run that is over. -/
theorem Steady.left (steady : run.Steady allows verifiesItself origin acts)
    (past : run.isOver = true) {number : Nat} (listed : origin.tables.Has number) :
    run.ledger.custody.items = 0 ∧ run.ledger.custody.Left number := by
  have agenda : run.agenda = [] := List.isEmpty_iff.mp past
  constructor
  · rw [Campaign.custody_over steady.healthy.joining past]
  · refine steady.healthy.covered.left (fun duty planned => ?_) number (steady.grouped number listed)
    have planned : duty ∈ run.agenda := planned
    rw [agenda] at planned
    cases planned

/-- **A steady run that is over leaves every task as the reference says.** -/
theorem Steady.leaves
    (steady : run.Steady (fun brief execution => execution = answer brief) verifiesItself origin
      acts) (past : run.isOver = true) {number : Nat} (listed : origin.tables.Has number) {task : Task}
    (began : origin.ledger.custody.tasks number = some task) :
    ∃ after, run.tasks[number]? = some after ∧
      Leaves answer (Custody.accepts acts number) task after := by
  obtain ⟨after, found, kind⟩ := steady.present number task began
  obtain ⟨away, left⟩ := steady.left past listed
  have concluded := steady.certain.concluded away left found
  have summed := steady.certain.summed number after found
  have leaves : Leaves answer (Custody.accepts acts number) after after :=
    ⟨.refl after, concluded.reference, concluded.outcome summed, failed_iff concluded summed⟩
  obtain ⟨heard, known, rfl⟩ := Option.map_eq_some_iff.mp found
  obtain ⟨kind', agrees, outcome, stopped⟩ := leaves.of_sameKind kind
  exact ⟨heard, known, heard.sameKind_deaf.1.trans kind', agrees, outcome, stopped⟩

/-- **A run leaves every task as the reference says.** With engines that answer from the briefs
alone, it matters only which actions the pools have refused. A run that is not over can be brought
to its end. -/
theorem refines_reference {scheduler : Scheduler} {tasks : List Task} {listed : List Nat} {state : σ}
    {moves : List Move} (resting : scheduler.AtRest) (fresh : ∀ task ∈ tasks, task.Fresh)
    (follow : engines.Follow behaviour)
    (launched : scheduler.launch tasks listed state = .started run)
    (reached : run.steps engines moves = some last) :
    (last.isOver = true → ∀ number ∈ listed, ∀ task, tasks[number]? = some task →
      ∃ after, last.tasks[number]? = some after ∧
        Leaves (Brief.answer behaviour scheduler.verifiesItself)
          (Custody.accepts (run.trace engines moves) number) task after) ∧
    ∃ more final, last.steps engines more = some final ∧ final.isOver = true := by
  have begins := resting.begins launched
  have steady := (steady_begins begins fresh _).steps (keeps_answer follow _) reached
  refine ⟨fun past number member task found => ?_, steady.healthy.completes engines⟩
  have has : run.tables.Has number := begins.grouped ▸ Grouping.has_ofTasks member found
  have began : run.ledger.custody.tasks number = some task.deaf := by
    rw [Campaign.custody_begins begins]
    show (tasks[number]?).map Task.deaf = _
    rw [found]
    rfl
  obtain ⟨after, known, leaves⟩ := steady.leaves past has began
  exact ⟨after, known, leaves.of_sameKind task.sameKind_deaf.2⟩

end Run

/-! ### A small run -/

/-- Whether a run begins, and some moves bring it to where a test succeeds. -/
def Launch.leads {σ : Type} (engines : Engines σ) (moves : List Run.Move)
    (test : Run σ → Run σ → Bool) : Launch σ → Bool
  | .started run => (run.steps engines moves).any (test run)
  | .refused .. => false

theorem Launch.of_leads {σ : Type} {engines : Engines σ} {moves : List Run.Move}
    {test : Run σ → Run σ → Bool} {launch : Launch σ}
    (leads : launch.leads engines moves test = true) : ∃ run last, launch = .started run ∧
      run.steps engines moves = some last ∧ test run last = true := by
  cases launch with
  | started run =>
    obtain ⟨last, reached, passes⟩ := (Option.any_eq_true _ _).mp leads
    exact ⟨run, last, rfl, reached, passes⟩
  | refused => cases leads

/-- Engines that behave in some way, beside stores that accept everything. -/
def Engines.following (behaviour : Brief → EngineReply) : Engines Unit :=
  { Campaign.easyEngines 0 with
    call := fun _ _ task action _ => (behaviour (task.brief action), ()) }

theorem Engines.follow_following (behaviour : Brief → EngineReply) :
    (following behaviour).Follow behaviour :=
  fun _ _ _ _ => rfl

namespace Run

/-- A scheduler whose pools have one worker each. -/
def smallScheduler : Scheduler :=
  .create none true true true fun _ => ⟨1, 1⟩

/-- A task with two actions of different priorities. -/
def smallTask : Task :=
  (Task.create "t" ⟨"d", "t", [], []⟩ ⟨none⟩ none .succeeded).addActions [.createTable, .load]

/-- Three tasks of one table. -/
def troubledTasks : List Task :=
  [[.createTable, .load], [.load], [.load]].map
    (Task.create "t" ⟨"d", "t", [], []⟩ ⟨none⟩ none .succeeded).addActions

theorem fresh_troubled : ∀ task ∈ troubledTasks, task.Fresh :=
  List.forall_mem_map.mpr fun actions _ => (Task.fresh_create _ _ _ _ _).addActions actions

/-- No table can be created, and everything else succeeds. -/
def createFails (brief : Brief) : EngineReply :=
  if brief.action = .createTable then .threw "no such database" else .returned .succeed

/-- Engines that cannot create a table. -/
def troubledEngines : Engines Unit :=
  .following createFails

/-- The only worker has the first action and the only place has the second one when the third one is
submitted, which is refused. After another pass the scheduling thread waits. -/
def troubledPasses : List Move :=
  List.replicate 7 .advance ++ .take .destination :: List.replicate 27 .advance

/-- Then the first action fails and the second one succeeds, and the run comes to its end. -/
def troubledMoves : List Move :=
  troubledPasses ++ List.replicate 9 (.work .destination 0) ++ jobMoves .destination ++
    List.replicate 15 .advance

/-- One task stops at its first action, one succeeds, and the action of the last one is refused. The
reference says so of each of them. -/
theorem refines_reference_small : ∃ run last,
    smallScheduler.launch troubledTasks [0, 1, 2] () = .started run ∧
    run.steps troubledEngines troubledMoves = some last ∧ last.isOver = true ∧
    last.tasks.map (fun task => (task.progress, task.actionProgress .load)) =
      [(.failed, some .new), (.succeeded, some .succeeded), (.failed, some .failed)] ∧
    Custody.accepts (run.trace troubledEngines troubledMoves) 2 .load = false ∧
    ∀ number ∈ [0, 1, 2], ∀ task, troubledTasks[number]? = some task →
      ∃ after, last.tasks[number]? = some after ∧ Leaves (Brief.answer createFails true)
        (Custody.accepts (run.trace troubledEngines troubledMoves) number) task after := by
  have goes : (smallScheduler.launch troubledTasks [0, 1, 2] ()).leads troubledEngines troubledMoves
      (fun run last => last.isOver ∧
        last.tasks.map (fun task => (task.progress, task.actionProgress .load)) =
          [(.failed, some .new), (.succeeded, some .succeeded), (.failed, some .failed)] ∧
        Custody.accepts (run.trace troubledEngines troubledMoves) 2 .load = false) = true := by
    decide +kernel
  obtain ⟨run, last, launched, reached, ends⟩ := Launch.of_leads goes
  obtain ⟨past, progress, refused⟩ := of_decide_eq_true ends
  obtain ⟨leaves, _⟩ := refines_reference (Scheduler.atRest_create none true true true _)
    fresh_troubled (Engines.follow_following createFails) launched reached
  exact ⟨run, last, launched, reached, past, progress, refused, leaves past⟩

end Run

end TableMigration
