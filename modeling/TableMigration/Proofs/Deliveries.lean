/-
**Deliveries of a run.**

* `Ledger.Pending` — the deliveries that the scheduling thread or a worker is yet to make.
  `Ledger.Step.pending`: only the report of an action calls for any.
* `Ledger.Heeded` — everything that goes on is about listed tasks, and the scheduler listens to these
  until nothing is left to do. So what is pending are signals of failed tasks to the scheduler, and
  statuses of some partitions.
* `Ledger.Step.heeded` — every step keeps this.
-/

import TableMigration.Proofs.Liveness

namespace TableMigration

/-! ### Deliveries that are yet to be made -/

/-- The deliveries that a job is yet to make. -/
def Stage.deliveries : Stage → List Delivery
  | .deliver _ _ deliveries => deliveries
  | _ => []

/-- The task that a duty is about. -/
def Duty.task? : Duty → Option Nat
  | .look number | .collect number | .dispatch number _ | .submit number _ | .refuse number _
  | .deliver number _ | .announce number _ => some number
  | _ => none

namespace Ledger

variable {ledger next : Ledger} {answers : Nat → Task → Action → Execution → Prop}
  {acts new : List Act} {number : Nat} {delivery : Delivery}

/-- Whether something goes on about a task. -/
def Occupied (ledger : Ledger) (number : Nat) : Prop :=
  (∃ duty ∈ ledger.agenda, duty.task? = some number) ∨ ∃ job ∈ ledger.jobs, job.task = number

/-- Whether a delivery of a task is yet to be made. -/
def Pending (ledger : Ledger) (number : Nat) (delivery : Delivery) : Prop :=
  .deliver number delivery ∈ ledger.agenda ∨
    ∃ job ∈ ledger.jobs, job.task = number ∧ delivery ∈ job.stage.deliveries

/-- Whether a step has called for a delivery. -/
def Called (ledger next : Ledger) (number : Nat) (delivery : Delivery) : Prop :=
  ledger.Occupied number ∧ ∃ task action reported, ledger.tasks[number]? = some task ∧
    next.tasks[number]? = some (task.update action reported).task ∧
    delivery ∈ (task.update action reported).deliveries

theorem mem_follow {other : Nat} {changed : Option Progress} {deliveries : List Delivery}
    (member : .deliver number delivery ∈ Duty.follow other changed deliveries) :
    other = number ∧ delivery ∈ deliveries := by
  rcases Duty.mem_follow_cases member with ⟨_, called, same⟩ | ⟨_, _, same⟩ <;> cases same
  exact ⟨rfl, called⟩

theorem occupied_of_head {duty : Duty} {rest : List Duty} (head : ledger.agenda = duty :: rest)
    (about : duty.task? = some number) : ledger.Occupied number :=
  .inl ⟨duty, head ▸ List.mem_cons_self, about⟩

theorem called_of_update {task : Task} {action : Action} {reported : Progress}
    (occupied : ledger.Occupied number) (found : ledger.tasks[number]? = some task)
    (after : next.tasks = ledger.tasks.set number (task.update action reported).task)
    (member : delivery ∈ (task.update action reported).deliveries) :
    ledger.Called next number delivery := by
  refine ⟨occupied, task, action, reported, found, ?_, member⟩
  rw [after, List.getElem?_set_self (List.getElem?_eq_some_iff.mp found).1]

/-- What the scheduling thread is to deliver is in its agenda already, or was called for. -/
theorem Step.pending_duty (step : ledger.Step answers acts next)
    (member : .deliver number delivery ∈ next.agenda) :
    .deliver number delivery ∈ ledger.agenda ∨ ledger.Called next number delivery := by
  have behind : ∀ {duty : Duty} {rest duties}, ledger.agenda = duty :: rest →
      (∀ other ∈ duties, 1 ≤ other.rank) → .deliver number delivery ∈ duties ++ rest →
      .deliver number delivery ∈ ledger.agenda := by
    intro duty rest duties head late member
    rcases List.mem_append.mp member with new | old
    · exact absurd (late _ new) (Nat.not_succ_le_zero 0)
    · exact head ▸ List.mem_cons_of_mem _ old
  have popped : ∀ {duty : Duty} {rest}, ledger.agenda = duty :: rest →
      .deliver number delivery ∈ rest → .deliver number delivery ∈ ledger.agenda :=
    fun head => behind head (List.forall_mem_nil _)
  have one : ∀ {duty other : Duty} {rest}, ledger.agenda = duty :: rest → 1 ≤ other.rank →
      .deliver number delivery ∈ other :: rest → .deliver number delivery ∈ ledger.agenda :=
    fun head late => behind head (List.forall_mem_singleton.mpr late)
  cases step with
  | beginPass head =>
    exact .inl (behind head (fun _ planned => Nat.le_of_succ_le (Duty.le_rank_pass planned)) member)
  | lookOn head => exact .inl (one head (by simp [Duty.rank]) member)
  | @collect rest other task head found =>
    rcases List.mem_append.mp member with new | old
    · obtain ⟨_, _, same⟩ := List.mem_map.mp new
      cases same
    · exact .inl (popped head old)
  | @dispatch rest other action task head found =>
    rcases List.mem_append.mp member with new | old
    · rcases List.mem_append.mp new with following | handing
      · obtain ⟨rfl, called⟩ := mem_follow following
        exact .inr (called_of_update (occupied_of_head head rfl) found rfl called)
      · simp at handing
    · exact .inl (popped head old)
  | turnAway head =>
    rcases List.mem_cons.mp member with same | rest
    · cases same
    · rcases List.mem_cons.mp rest with same | old
      · cases same
      · exact .inl (popped head old)
  | @refuse rest other action task head found =>
    rcases List.mem_append.mp member with following | old
    · obtain ⟨rfl, called⟩ := mem_follow following
      exact .inr (called_of_update (occupied_of_head head rfl) found rfl called)
    · exact .inl (popped head old)
  | testDone head =>
    exact .inl (behind head (fun other closing => by rw [Duty.rank_closing closing]; decide) member)
  | testStuck head =>
    exact .inl (behind head (fun other stuck => by rw [Duty.rank_stuck stuck]; decide) member)
  | testOn head | wait head => exact .inl (one head (by simp [Duty.rank]) member)
  | lookEnded head | absent head | countIn head | submit head | countOut head | judgeNothing head
  | judge head | aside head | unlisten head => exact .inl (popped head member)
  | _ => exact .inl member

/-- What a worker is to deliver is in its job already, or was called for. -/
theorem Step.pending_job (step : ledger.Step answers acts next) {job : Job}
    (member : job ∈ next.jobs) (mine : job.task = number) (delivers : delivery ∈ job.stage.deliveries) :
    (∃ job ∈ ledger.jobs, job.task = number ∧ delivery ∈ job.stage.deliveries) ∨
      ledger.Called next number delivery := by
  have idle : ∀ {other : Nat} {action stage jobs}, next.jobs = ⟨other, action, stage⟩ ::ₘ jobs →
      stage.deliveries = [] → (∀ job ∈ jobs, job ∈ ledger.jobs) →
      ∃ job ∈ ledger.jobs, job.task = number ∧ delivery ∈ job.stage.deliveries := by
    intro other action stage jobs after none kept
    rw [after] at member
    rcases Multiset.mem_cons.mp member with rfl | old
    · rw [show (⟨other, action, stage⟩ : Job).stage.deliveries = [] from none] at delivers
      cases delivers
    · exact ⟨job, kept job old, mine, delivers⟩
  have behind : ∀ {held : Job} {jobs}, ledger.jobs = held ::ₘ jobs →
      ∀ job ∈ jobs, job ∈ ledger.jobs :=
    fun held _ => held ▸ Multiset.mem_cons_of_mem
  cases step with
  | submit head found => exact .inl (idle rfl rfl fun _ => id)
  | execute held | keepCounts held | keepValidation held | complete held =>
    exact .inl (idle rfl rfl (behind held))
  | @report jobs other action task execution held found =>
    rcases Multiset.mem_cons.mp member with rfl | old
    · obtain rfl : other = number := mine
      have occupied : ledger.Occupied other :=
        .inr ⟨_, held ▸ Multiset.mem_cons_self _ _, rfl⟩
      exact .inr (called_of_update occupied found rfl delivers)
    · exact .inl ⟨job, behind held job old, mine, delivers⟩
  | @follow jobs other action stage later held follows =>
    rcases Multiset.mem_cons.mp member with rfl | old
    · refine .inl ⟨⟨other, action, stage⟩, held ▸ Multiset.mem_cons_self _ _, mine, ?_⟩
      cases follows with
      | deliver => exact List.mem_cons_of_mem _ delivers
      | delivered | announce => cases delivers
    · exact .inl ⟨job, behind held job old, mine, delivers⟩
  | leave held => exact .inl ⟨job, behind held job member, mine, delivers⟩
  | _ => exact .inl ⟨job, member, mine, delivers⟩

/-- **Only a report calls for deliveries.** -/
theorem Step.pending (step : ledger.Step answers acts next) (pending : next.Pending number delivery) :
    ledger.Pending number delivery ∨ ledger.Called next number delivery := by
  rcases pending with planned | ⟨job, member, mine, delivers⟩
  · exact (step.pending_duty planned).imp .inl id
  · exact (step.pending_job member mine delivers).imp .inr id

end Ledger

/-- A report calls for the status of the partitions that the end of the task settles. -/
theorem Task.checkpoint_of_mem_deliveries {task : Task} {action : Action} {reported : Progress}
    {database name : String} {partitions : List Partition} {status : Status}
    (member : .write (.status database name partitions status) ∈
      (task.update action reported).deliveries) :
    (task.update action reported).task.checkpoint = some (status, partitions) ∧
      database = task.table.database ∧ name = task.table.name ∧ partitions ≠ [] := by
  rcases task.update_answers action reported with ⟨-, -, unchanged⟩ | ⟨-, -, calls⟩
  · rw [unchanged] at member
    cases member
  rw [calls] at member
  have kind := task.update_sameKind action reported
  rcases List.mem_append.mp member with failing | settling
  · unfold failureDeliveries at failing
    split at failing
    · split at failing <;> cases List.mem_singleton.mp failing
    · cases failing
  · unfold checkpointDeliveries at settling
    split at settling
    · rename_i settles
      split at settling
      · cases settling
      · rename_i filled
        cases List.mem_singleton.mp settling
        exact ⟨settles, by rw [kind.table], by rw [kind.table], fun empty => filled (empty ▸ rfl)⟩
    · cases settling

/-- A task that the scheduler listens to calls for a signal when it has failed, and for the status of
some partitions. -/
theorem Task.heeded_deliveries {task : Task} {action : Action} {reported : Progress}
    {delivery : Delivery} (heard : task.listener = some .scheduler)
    (member : delivery ∈ (task.update action reported).deliveries) :
    delivery = .signal .scheduler ∧ (task.update action reported).task.progress = .failed ∨
      ∃ partitions status, partitions ≠ [] ∧
        delivery = .write (.status task.table.database task.table.name partitions status) := by
  have found := member
  rcases task.update_answers action reported with ⟨-, -, unchanged⟩ | ⟨-, -, calls⟩
  · rw [unchanged] at member
    cases member
  rw [calls] at member
  rcases List.mem_append.mp member with failing | settling
  · unfold failureDeliveries at failing
    rw [listener_update, heard] at failing
    split at failing
    · exact .inl ⟨List.mem_singleton.mp failing, ‹_›⟩
    · cases failing
  · unfold checkpointDeliveries at settling
    split at settling
    · split at settling
      · cases settling
      · cases List.mem_singleton.mp settling
        obtain ⟨-, database, name, filled⟩ := checkpoint_of_mem_deliveries found
        exact .inr ⟨_, _, filled, by rw [database, name]⟩
    · cases settling

/-! ### Tasks of a run -/

theorem Duty.task_of_mem_follow {number : Nat} {changed : Option Progress}
    {deliveries : List Delivery} {duty : Duty} (member : duty ∈ follow number changed deliveries) :
    duty.task? = some number := by
  rcases mem_follow_cases member with ⟨_, _, rfl⟩ | ⟨_, _, rfl⟩ <;> rfl

namespace Ledger

variable {ledger next : Ledger} {answers : Nat → Task → Action → Execution → Prop}
  {acts : List Act} {number : Nat} {delivery : Delivery}

/-- Whether everything that goes on is about listed tasks. -/
structure Within (ledger : Ledger) : Prop where
  duties : ∀ duty ∈ ledger.agenda, ∀ number, duty.task? = some number → ledger.tables.Has number
  jobs : ∀ job ∈ ledger.jobs, ledger.tables.Has job.task

theorem Step.within_duties (step : ledger.Step answers acts next) (within : ledger.Within) :
    ∀ duty ∈ next.agenda, ∀ number, duty.task? = some number → ledger.tables.Has number := by
  -- what a step plans is about the task of the duty that it does
  have goesOn : ∀ {duty : Duty} {rest duties}, ledger.agenda = duty :: rest →
      (∀ other ∈ duties, ∀ number, other.task? = some number → ledger.tables.Has number) →
      ∀ other ∈ duties ++ rest, ∀ number, other.task? = some number →
        ledger.tables.Has number := by
    intro duty rest duties head new other member
    rcases List.mem_append.mp member with fresh | old
    · exact new other fresh
    · exact within.duties other (head ▸ List.mem_cons_of_mem _ old)
  have mine : ∀ {duty : Duty} {rest number}, ledger.agenda = duty :: rest →
      duty.task? = some number → ledger.tables.Has number :=
    fun head about => within.duties _ (head ▸ List.mem_cons_self) _ about
  have same : ∀ {duty : Duty} {rest number} {duties : List Duty}, ledger.agenda = duty :: rest →
      duty.task? = some number →
      (∀ other ∈ duties, other.task? = none ∨ other.task? = some number) →
      ∀ other ∈ duties, ∀ number', other.task? = some number' → ledger.tables.Has number' := by
    intro duty rest number duties head about all other member number' about'
    rcases all other member with apart | equal
    · rw [apart] at about'
      cases about'
    · rw [about'] at equal
      exact Option.some.inj equal ▸ mine head about
  cases step with
  | beginPass head =>
    refine goesOn head fun other planned number about => ?_
    rcases List.mem_append.mp planned with looks | test
    · obtain ⟨entry, open_, planned⟩ := List.mem_flatMap.mp looks
      rcases List.mem_append.mp planned with looks | judges
      · obtain ⟨among, member, rfl⟩ := List.mem_map.mp looks
        cases about
        exact ⟨entry, (List.mem_filter.mp open_).1, member⟩
      · rw [List.mem_singleton.mp judges] at about
        cases about
    · rw [List.mem_singleton.mp test] at about
      cases about
  | lookOn head =>
    exact goesOn head (same head rfl (List.forall_mem_singleton.mpr (.inr rfl)))
  | collect head =>
    refine goesOn head (same head rfl fun other planned => .inr ?_)
    obtain ⟨_, _, rfl⟩ := List.mem_map.mp planned
    rfl
  | dispatch head =>
    refine goesOn head (same head rfl fun other planned => ?_)
    rcases List.mem_append.mp planned with following | handing
    · exact .inr (Duty.task_of_mem_follow following)
    · simp only [List.mem_cons, List.not_mem_nil, or_false] at handing
      rcases handing with rfl | rfl
      · exact .inl rfl
      · exact .inr rfl
  | turnAway head =>
    refine goesOn head (same head rfl
      (List.forall_mem_cons.mpr ⟨.inr rfl, List.forall_mem_singleton.mpr (.inl rfl)⟩))
  | refuse head =>
    exact goesOn head (same head rfl fun other planned => .inr (Duty.task_of_mem_follow planned))
  | testDone head =>
    refine goesOn head fun other planned number about => ?_
    have apart : ∀ other ∈ Duty.closing, other.task? = none := by decide
    rw [apart other planned] at about
    cases about
  | testStuck head =>
    refine goesOn head fun other planned number about => ?_
    have apart : ∀ other ∈ Duty.closing, other.task? = none := by decide
    rcases List.mem_append.mp planned with giving | closing
    · obtain ⟨_, _, rfl⟩ := List.mem_map.mp giving
      cases about
    · rw [apart other closing] at about
      cases about
  | testOn head | wait head =>
    refine goesOn head (List.forall_mem_singleton.mpr fun number about => ?_)
    cases about
  | lookEnded head | absent head | countIn head | submit head | countOut head | judgeNothing head
  | judge head | aside head | unlisten head =>
    exact goesOn head (List.forall_mem_nil _)
  | _ => exact within.duties

theorem Step.within_jobs (step : ledger.Step answers acts next) (within : ledger.Within) :
    ∀ job ∈ next.jobs, ledger.tables.Has job.task := by
  have goesOn : ∀ {held later : Job} {jobs}, ledger.jobs = held ::ₘ jobs →
      later.task = held.task → ∀ job ∈ later ::ₘ jobs, ledger.tables.Has job.task := by
    intro held later jobs split same job member
    rcases Multiset.mem_cons.mp member with rfl | old
    · exact same ▸ within.jobs held (split ▸ Multiset.mem_cons_self _ _)
    · exact within.jobs job (split ▸ Multiset.mem_cons_of_mem old)
  cases step with
  | submit head =>
    intro job member
    rcases Multiset.mem_cons.mp member with rfl | old
    · exact within.duties _ (head ▸ List.mem_cons_self) _ rfl
    · exact within.jobs job old
  | execute held | keepCounts held | keepValidation held | report held | follow held
  | complete held => exact goesOn held rfl
  | leave held => exact fun job member => within.jobs job (held ▸ Multiset.mem_cons_of_mem member)
  | _ => exact within.jobs

/-- **Everything stays about listed tasks.** -/
theorem Step.within (step : ledger.Step answers acts next) (within : ledger.Within) :
    next.Within where
  duties duty planned number about := step.has (step.within_duties within duty planned number about)
  jobs job member := step.has (step.within_jobs within job member)

end Ledger

/-! ### Who listens -/

namespace Task

theorem listener_withCounts (task : Task) (action : Action) (execution : Execution) :
    (task.withCounts action execution).listener = task.listener := by
  rcases task.withCounts_cases action execution with same | ⟨_, _, _, _, _, after⟩
  · rw [same]
  · rw [after]
    rfl

theorem listener_withValidation (task : Task) (execution : Execution) :
    (task.withValidation execution).listener = task.listener := by
  rcases task.withValidation_cases execution with same | ⟨_, _, _, _, _, after⟩
  · rw [same]
  · rw [after]
    rfl

end Task

namespace Custody

variable {custody next : Custody} {answers : Nat → Task → Action → Execution → Prop}
  {acts : List Act} {number : Nat}

/-- Whether a task has this progress. -/
def Shows (custody : Custody) (number : Nat) (progress : Progress) : Prop :=
  (custody.tasks number).map Task.progress = some progress

instance (custody : Custody) (number : Nat) (progress : Progress) :
    Decidable (custody.Shows number progress) :=
  inferInstanceAs (Decidable (_ = _))

/-- A task at its end stays there. -/
theorem Shows.step {progress : Progress} (shows : custody.Shows number progress)
    (final : progress.isTerminal = true) (step : custody.Step answers acts next)
    (sound : custody.Sound) : next.Shows number progress := by
  obtain ⟨task, found, rfl⟩ := Option.map_eq_some_iff.mp shows
  obtain ⟨after, found', on⟩ := step.movesOn sound found
  exact Option.map_eq_some_iff.mpr ⟨after, found', on.ended final⟩

end Custody

namespace Ledger

variable {ledger next : Ledger} {answers answers' : Nat → Task → Action → Execution → Prop}
  {acts : List Act} {number : Nat} {delivery : Delivery}

/-- Whether the scheduler listens to the listed tasks, unless there is nothing left to do but to tell
the end. -/
def Listening (ledger : Ledger) : Prop :=
  (∀ duty ∈ ledger.agenda, duty = .conclude) ∨
    ∀ number task, ledger.tables.Has number → ledger.tasks[number]? = some task →
      task.listener = some .scheduler

/-- Whether a delivery is a signal of a failed task to the scheduler, or a status for some
partitions. -/
def Heeds (ledger : Ledger) (number : Nat) : Delivery → Prop
  | .signal listener => listener = .scheduler ∧ ledger.custody.Shows number .failed
  | .write (.status _ _ partitions _) => partitions ≠ []
  | .write (.failure ..) => False

/-- Whether everything that goes on is about listed tasks, and the scheduler listens to them. -/
structure Heeded (ledger : Ledger) : Prop where
  within : ledger.Within
  listening : ledger.Listening
  pending : ∀ number delivery, ledger.Pending number delivery → ledger.Heeds number delivery

theorem Step.listening (step : ledger.Step answers acts next) (listening : ledger.Listening)
    (idle : (∀ duty ∈ ledger.agenda, duty = .conclude) → ledger.jobs = 0)
    (last : ∀ rest, ledger.agenda = .unlisten :: rest → rest = [.conclude]) :
    next.Listening := by
  rcases listening with done | heard
  · have stays : ∀ {duty rest}, ledger.agenda = duty :: rest →
        duty = .conclude ∧ ∀ duty ∈ rest, duty = .conclude := by
      intro duty rest head
      rw [head] at done
      exact ⟨done duty List.mem_cons_self, fun other member =>
        done other (List.mem_cons_of_mem _ member)⟩
    have busy : ∀ {job jobs}, ledger.jobs = job ::ₘ jobs → False := by
      intro job jobs held
      rw [idle done] at held
      exact Multiset.zero_ne_cons held
    cases step with
    | beginPass head | lookEnded head | lookOn head | collect head | dispatch head | countIn head
    | submit head | turnAway head | refuse head | countOut head | judgeNothing head | judge head
    | testDone head | testStuck head | testOn head | wait head | unlisten head =>
      cases (stays head).1
    | absent head about =>
      rw [(stays head).1] at about
      cases about
    | aside head => exact .inl (stays head).2
    | take => exact .inl done
    | execute held | keepCounts held | keepValidation held | report held | follow held
    | complete held | leave held => exact (busy held).elim
  · have set : ∀ {number task changed}, ledger.tasks[number]? = some task →
        changed.listener = task.listener →
        ∀ other after, ledger.tables.Has other →
          (ledger.tasks.set number changed)[other]? = some after →
          after.listener = some .scheduler := by
      intro number task changed found same other after has found'
      by_cases equal : number = other
      · subst equal
        rw [List.getElem?_set_self (List.getElem?_eq_some_iff.mp found).1] at found'
        cases found'
        exact same.trans (heard number task has found)
      · rw [List.getElem?_set_ne equal] at found'
        exact heard other after has found'
    have has : ∀ number, next.tables.Has number → ledger.tables.Has number :=
      fun _ has => step.grouped has
    cases step with
    | dispatch head found | refuse head found | report job found =>
      exact .inr fun other after has => set found (Task.listener_update ..) other after has
    | keepCounts job found =>
      exact .inr fun other after has => set found (Task.listener_withCounts ..) other after has
    | keepValidation job found =>
      exact .inr fun other after has => set found (Task.listener_withValidation ..) other after has
    | unlisten head =>
      rw [last _ head]
      exact .inl (List.forall_mem_singleton.mpr rfl)
    | judge => exact .inr fun number task member => heard number task (has number member)
    | _ => exact .inr heard

/-- A task about which something goes on is listed, and the scheduler listens to it. -/
theorem Heeded.heard {task : Task} (heeded : ledger.Heeded)
    (idle : (∀ duty ∈ ledger.agenda, duty = .conclude) → ledger.jobs = 0)
    (occupied : ledger.Occupied number) (found : ledger.tasks[number]? = some task) :
    task.listener = some .scheduler := by
  have has : ledger.tables.Has number := by
    rcases occupied with ⟨duty, planned, about⟩ | ⟨job, held, rfl⟩
    · exact heeded.within.duties duty planned number about
    · exact heeded.within.jobs job held
  refine heeded.listening.elim (fun done => ?_) fun heard => heard number task has found
  rcases occupied with ⟨duty, planned, about⟩ | ⟨job, held, -⟩
  · rw [done duty planned] at about
    cases about
  · rw [idle done] at held
    exact absurd held (Multiset.notMem_zero job)

/-- So whatever it calls for heeds the scheduler. -/
theorem Heeded.called (heeded : ledger.Heeded)
    (idle : (∀ duty ∈ ledger.agenda, duty = .conclude) → ledger.jobs = 0)
    (called : ledger.Called next number delivery) : next.Heeds number delivery := by
  obtain ⟨occupied, task, action, reported, found, found', member⟩ := called
  rcases Task.heeded_deliveries (heeded.heard idle occupied found) member with
    ⟨rfl, failed⟩ | ⟨partitions, status, some, rfl⟩
  · have known : next.custody.tasks number = some (task.update action reported).task.deaf :=
      custody_of_found found'
    exact ⟨rfl, Option.map_eq_some_iff.mpr ⟨_, known, failed⟩⟩
  · exact some

/-- **Every step keeps the scheduler listening.** -/
theorem Step.heeded (step : ledger.Step answers acts next) (sound : ledger.custody.Sound)
    (goes : ledger.custody.Step answers' acts next.custody) (heeded : ledger.Heeded)
    (idle : (∀ duty ∈ ledger.agenda, duty = .conclude) → ledger.jobs = 0)
    (last : ∀ rest, ledger.agenda = .unlisten :: rest → rest = [.conclude]) : next.Heeded where
  within := step.within heeded.within
  listening := step.listening heeded.listening idle last
  pending number delivery pending := by
    rcases step.pending pending with before | called
    · have heeds := heeded.pending number delivery before
      cases delivery with
      | signal listener => exact ⟨heeds.1, heeds.2.step rfl goes sound⟩
      | write write => cases write <;> exact heeds
    · exact heeded.called idle called

end Ledger

namespace Run

variable {σ : Type} {run : Run σ}

/-- When the end is all that is left to tell, no job is left. -/
theorem Healthy.idle (healthy : run.Healthy) (done : ∀ duty ∈ run.agenda, duty = .conclude) :
    run.ledger.jobs = 0 := by
  cases healthy.heading with
  | passing pass =>
    obtain ⟨front, decide, split, three, _⟩ := pass
    rw [done decide (split ▸ List.mem_append_right _ (List.mem_singleton.mpr rfl))] at three
    cases three
  | leaving tail leave phases =>
    obtain ⟨_, stuck, split⟩ := leave
    have only : ∀ duty ∈ tail, duty = .conclude :=
      fun duty member => done duty (split ▸ List.mem_append_right _ member)
    refine jobs_of_empty fun engine => (healthy.joining.fit engine).closed ?_
    have closes : .close engine ∉ tail := fun member => nomatch only (.close engine) member
    have joins : .join engine ∉ tail := fun member => nomatch only (.join engine) member
    refine (phases engine).trans ?_
    unfold Duty.phaseBefore
    rw [if_neg closes, if_neg joins]

/-- The scheduler stops listening when only the end is left to tell. -/
theorem Heading.unlisten (heading : run.Heading) {rest : List Duty}
    (head : run.agenda = .unlisten :: rest) : rest = [.conclude] := by
  cases heading with
  | passing pass =>
    have low := pass.rank_le (head ▸ List.mem_cons_self)
    exact absurd low (Nat.not_succ_le_self 3)
  | leaving tail leave =>
    obtain ⟨suffix, stuck, split⟩ := leave
    rw [head] at split
    cases stuck with
    | cons key stuck => cases (List.cons.inj split).1
    | nil =>
      have all : ∀ tail ∈ Duty.closing.tails, tail.head? = some .unlisten →
          tail.tail = [.conclude] := by decide
      have split : .unlisten :: rest = tail := split
      exact all _ ((List.mem_tails _ _).mpr (split ▸ suffix)) rfl

end Run

end TableMigration
