/-
**What is counted in and out.**

* `Ledger.Balanced` — what is in flight is what was counted in and not yet out: the jobs that have
  still to be counted out, what is to be submitted and was counted in already, and what was refused
  and is to be counted out.
* `Ledger.Step.balanced` — every step keeps the balance.
* `Ledger.Balanced.quiet` — when nothing was handed out in a pass, nothing is in flight and nothing
  has completed since, then no job is left that could do anything.
-/

import TableMigration.Proofs.Sound

namespace TableMigration

/-! ### Duties that count -/

namespace Duty

/-- Whether a duty belongs to handing out an action. -/
def isHanding : Duty → Bool
  | .countIn | .submit .. | .refuse .. | .countOut => true
  | _ => false

/-- Whether a duty counts an action in. -/
def isCountIn : Duty → Bool
  | .countIn => true
  | _ => false

/-- Whether a duty gives an action to its pool. -/
def isSubmit : Duty → Bool
  | .submit .. => true
  | _ => false

/-- Whether a duty counts an action out. -/
def isCountOut : Duty → Bool
  | .countOut => true
  | _ => false

variable {duties : List Duty}

/-- Duties that hand out nothing count nothing. -/
theorem countP_of_not_handing (idle : ∀ duty ∈ duties, duty.isHanding = false) :
    duties.countP isCountIn = 0 ∧ duties.countP isSubmit = 0 ∧ duties.countP isCountOut = 0 := by
  have never : ∀ {counted : Duty → Bool}, (∀ duty, counted duty = true → duty.isHanding = true) →
      duties.countP counted = 0 := by
    intro counted hands
    refine List.countP_eq_zero.mpr fun duty member counts => ?_
    have hands := hands duty counts
    rw [idle duty member] at hands
    cases hands
  refine ⟨never fun duty => ?_, never fun duty => ?_, never fun duty => ?_⟩ <;>
    cases duty <;> simp [isCountIn, isSubmit, isCountOut, isHanding]

theorem not_handing_of_rank {duty : Duty} (late : 1 ≤ duty.rank) : duty.isHanding = false := by
  cases duty <;> first | rfl | exact absurd late (Nat.not_succ_le_zero 0)

theorem not_handing_follow {task : Nat} {changed : Option Progress} {deliveries : List Delivery}
    {duty : Duty} (member : duty ∈ follow task changed deliveries) : duty.isHanding = false := by
  rcases mem_follow_cases member with ⟨_, _, rfl⟩ | ⟨_, _, rfl⟩ <;> rfl

theorem not_handing_dispatches {task : Nat} {actions : List Action} {duty : Duty}
    (member : duty ∈ actions.map (dispatch task)) : duty.isHanding = false := by
  obtain ⟨_, _, rfl⟩ := List.mem_map.mp member
  rfl

end Duty

/-- Whether a job has still to be counted out. -/
def Job.isOpen (job : Job) : Bool :=
  match job.stage with
  | .leave _ => false
  | _ => true

namespace Ledger

/-- How many jobs have still to be counted out. -/
def openJobs (jobs : Multiset Job) : Nat :=
  jobs.countP fun job => job.isOpen = true

/-- Whether no more is submitted than was, or will be, counted in before. -/
def Paired (agenda : List Duty) : Prop :=
  ∀ front back, agenda = front ++ back → back.countP Duty.isCountIn ≤ back.countP Duty.isSubmit

/-- Whether the books balance. -/
structure Balanced (ledger : Ledger) : Prop where
  flight : ledger.inFlight + ledger.agenda.countP Duty.isCountIn =
    ledger.agenda.countP Duty.isSubmit + ledger.agenda.countP Duty.isCountOut +
      openJobs ledger.jobs
  paired : Paired ledger.agenda
  handing : ∀ duty ∈ ledger.agenda, duty.isHanding = true → ledger.dispatched ≠ 0
  seen : ledger.seen ≤ ledger.completions

variable {ledger next : Ledger} {answers : Nat → Task → Action → Execution → Prop}
  {acts : List Act} {duty : Duty} {rest duties : List Duty}

theorem openJobs_cons (job : Job) (jobs : Multiset Job) :
    openJobs (job ::ₘ jobs) = openJobs jobs + if job.isOpen then 1 else 0 :=
  Multiset.countP_cons _ _ _

theorem Paired.tail (paired : Paired (duty :: rest)) : Paired rest :=
  fun front back split => paired (duty :: front) back (by rw [split]; rfl)

/-- Duties in front that count nothing do no harm. -/
theorem Paired.plan (paired : Paired rest) (idle : ∀ duty ∈ duties, duty.isHanding = false) :
    Paired (duties ++ rest) := by
  induction duties with
  | nil => exact paired
  | cons duty duties hyp =>
    have paired' := hyp fun other member => idle other (List.mem_cons_of_mem _ member)
    intro front back split
    cases front with
    | cons first front =>
      exact paired' front back (List.cons.inj split).2
    | nil =>
      have whole := paired' [] (duties ++ rest) rfl
      have not := idle duty List.mem_cons_self
      rw [List.nil_append] at split
      rw [← split, List.cons_append, List.countP_cons, List.countP_cons]
      cases duty <;> first | (cases not; done) | exact whole

theorem paired_cons_of_not (paired : Paired rest) (not : duty.isCountIn = false) :
    Paired (duty :: rest) := by
  intro front back split
  cases front with
  | cons first front => exact paired front back (List.cons.inj split).2
  | nil =>
    have whole := paired [] rest rfl
    rw [List.nil_append] at split
    rw [← split, List.countP_cons, List.countP_cons, not]
    exact Nat.le_trans whole (Nat.le_add_right _ _)

/-- What is planned anew was counted in, or is. -/
theorem paired_handing {number : Nat} {action : Action} (paired : Paired rest) :
    Paired (.countIn :: .submit number action :: rest) := by
  have paired' : Paired (.submit number action :: rest) := paired_cons_of_not paired rfl
  intro front back split
  cases front with
  | cons first front => exact paired' front back (List.cons.inj split).2
  | nil =>
    have whole := paired [] rest rfl
    rw [List.nil_append] at split
    rw [← split]
    simp only [List.countP_cons, Duty.isCountIn, Duty.isSubmit, if_true, Bool.false_eq_true,
      if_false]
    omega

/-! ### Steps -/

/-- Duties that count nothing may come and go. -/
theorem Balanced.replan (balanced : ledger.Balanced) (duties : List Duty)
    (head : ledger.agenda = duty :: rest) (counts : duty.isHanding = false)
    (idle : ∀ duty ∈ duties, duty.isHanding = false) :
    Balanced { ledger with agenda := duties ++ rest } := by
  obtain ⟨flight, paired, handing, seen⟩ := balanced
  rw [head] at flight paired handing
  obtain ⟨noIn, noSubmit, noOut⟩ := Duty.countP_of_not_handing idle
  have single : ∀ other ∈ [duty], other.isHanding = false := List.forall_mem_singleton.mpr counts
  obtain ⟨noIn', noSubmit', noOut'⟩ := Duty.countP_of_not_handing single
  refine ⟨?_, paired.tail.plan idle, fun other member hands => ?_, seen⟩
  · simp only [List.countP_append, List.countP_cons, List.countP_nil] at *
    omega
  · rcases List.mem_append.mp member with new | old
    · rw [idle other new] at hands
      cases hands
    · exact handing other (List.mem_cons_of_mem _ old) hands

/-- Jobs that go on and are not counted out change nothing. -/
theorem Balanced.goOn (balanced : ledger.Balanced) {before after : Job} {jobs : Multiset Job}
    (held : ledger.jobs = before ::ₘ jobs) (same : after.isOpen = before.isOpen)
    (tasks : List Task) : Balanced { ledger with tasks := tasks, jobs := after ::ₘ jobs } := by
  refine ⟨?_, balanced.paired, balanced.handing, balanced.seen⟩
  have flight := balanced.flight
  rw [held, openJobs_cons] at flight
  show _ = _ + openJobs (after ::ₘ jobs)
  rw [openJobs_cons, same]
  exact flight

/-- The tasks and tables do not count. -/
theorem Balanced.still (balanced : ledger.Balanced) (tasks : List Task) (tables : Grouping) :
    Balanced { ledger with tasks := tasks, tables := tables } :=
  ⟨balanced.flight, balanced.paired, balanced.handing, balanced.seen⟩

/-- Whoever counts something out finds something in flight. -/
theorem Balanced.inFlight_pos (balanced : ledger.Balanced)
    (owed : 0 < ledger.agenda.countP Duty.isCountOut + openJobs ledger.jobs) :
    0 < ledger.inFlight := by
  have whole := balanced.paired [] ledger.agenda rfl
  have flight := balanced.flight
  omega

theorem Balanced.inFlight_pos_of_head (balanced : ledger.Balanced)
    (head : ledger.agenda = .countOut :: rest) : 0 < ledger.inFlight := by
  refine balanced.inFlight_pos (Nat.lt_of_lt_of_le ?_ (Nat.le_add_right _ _))
  exact List.countP_pos_iff.mpr ⟨.countOut, head ▸ List.mem_cons_self, rfl⟩

theorem Balanced.inFlight_pos_of_job (balanced : ledger.Balanced) {job : Job}
    (held : job ∈ ledger.jobs) (opened : job.isOpen = true) : 0 < ledger.inFlight := by
  refine balanced.inFlight_pos (Nat.lt_of_lt_of_le ?_ (Nat.le_add_left _ _))
  exact Multiset.countP_pos.mpr ⟨job, held, opened⟩

/-- Whoever hands something out goes on with what takes the place of the first duty, as long as the
books, the agenda and the jobs count the same. -/
theorem Balanced.handOn (balanced : ledger.Balanced) (duties : List Duty)
    (head : ledger.agenda = duty :: rest) (agenda : next.agenda = duties ++ rest)
    (counts : next.inFlight + duties.countP Duty.isCountIn +
        ([duty].countP Duty.isSubmit + [duty].countP Duty.isCountOut + openJobs ledger.jobs) =
      ledger.inFlight + [duty].countP Duty.isCountIn +
        (duties.countP Duty.isSubmit + duties.countP Duty.isCountOut + openJobs next.jobs))
    (paired : Paired rest → Paired (duties ++ rest)) (handed : next.dispatched ≠ 0)
    (seen : next.seen ≤ next.completions) : next.Balanced := by
  have flight := balanced.flight
  have paired' := balanced.paired
  rw [head] at flight paired'
  refine ⟨?_, ?_, fun _ _ _ => handed, seen⟩
  · rw [agenda]
    simp only [List.countP_append, List.countP_cons, List.countP_nil] at flight counts ⊢
    omega
  · rw [agenda]
    exact paired paired'.tail

/-- Who counts in, submits, refuses or counts out has handed something out in this pass. -/
theorem Balanced.handed (balanced : ledger.Balanced) (head : ledger.agenda = duty :: rest)
    (hands : duty.isHanding = true) : ledger.dispatched ≠ 0 :=
  balanced.handing duty (head ▸ List.mem_cons_self) hands

/-- A new pass forgets what was handed out before. Nothing of that is left to be done. -/
theorem Balanced.beginPass (balanced : ledger.Balanced) (head : ledger.agenda = .beginPass :: rest)
    (idle : ∀ duty ∈ rest, duty.isHanding = false) :
    Balanced { ledger with
      agenda := Duty.pass ledger.tables ++ rest, seen := ledger.completions, dispatched := 0 } := by
  have looks : ∀ duty ∈ Duty.pass ledger.tables, duty.isHanding = false :=
    fun duty member => Duty.not_handing_of_rank (Nat.le_of_succ_le (Duty.le_rank_pass member))
  have planned := balanced.replan _ head rfl looks
  refine ⟨planned.flight, planned.paired, fun duty member hands => ?_, Nat.le_refl _⟩
  rcases List.mem_append.mp member with new | old
  · rw [looks duty new] at hands
    cases hands
  · rw [idle duty old] at hands
    cases hands

/-- An action that is offered belongs to a task. -/
theorem not_isSubmit_of_absent (sound : ledger.custody.Sound)
    (head : ledger.agenda = duty :: rest) {number : Nat} (about : duty.subject? = some number)
    (absent : ledger.tasks[number]? = none) : duty.isHanding = false := by
  have brought : ∀ item, duty.item? = some item → item.task ≠ number := by
    intro item bring same
    have member : item ∈ ledger.custody.items :=
      mem_items.mpr (.inl ⟨duty, head ▸ List.mem_cons_self, bring⟩)
    obtain ⟨task, found, _⟩ := sound.placed item member
    rw [same] at found
    cases (custody_of_absent absent).symm.trans found
  cases duty with
  | submit task action =>
    cases about
    exact absurd rfl (brought _ rfl)
  | refuse task action =>
    cases about
    exact absurd rfl (brought _ rfl)
  | collect | dispatch => rfl
  | _ => cases about

/-- A job that is counted out leaves the same behind in the books as one that is still open. -/
theorem Balanced.complete (balanced : ledger.Balanced) {jobs : Multiset Job} {number : Nat}
    {action : Action} {execution : Execution}
    (job : ledger.jobs = ⟨number, action, .countOut execution⟩ ::ₘ jobs) :
    Balanced { ledger with
      jobs := ⟨number, action, .leave execution⟩ ::ₘ jobs
      inFlight := ledger.inFlight - 1
      completions := ledger.completions + 1 } := by
  have opened : openJobs ledger.jobs = openJobs jobs + 1 := by
    rw [job, openJobs_cons]
    rfl
  have left : openJobs (⟨number, action, .leave execution⟩ ::ₘ jobs) = openJobs jobs :=
    openJobs_cons _ jobs
  have positive := balanced.inFlight_pos_of_job (job ▸ Multiset.mem_cons_self _ _) rfl
  have flight := balanced.flight
  refine ⟨?_, balanced.paired, balanced.handing, Nat.le_succ_of_le balanced.seen⟩
  show ledger.inFlight - 1 + ledger.agenda.countP _ =
    ledger.agenda.countP _ + ledger.agenda.countP _ + openJobs (_ ::ₘ jobs)
  omega

/-- A job that was counted out may leave. -/
theorem Balanced.leave (balanced : ledger.Balanced) {jobs : Multiset Job} {number : Nat}
    {action : Action} {execution : Execution}
    (job : ledger.jobs = ⟨number, action, .leave execution⟩ ::ₘ jobs) :
    Balanced { ledger with jobs := jobs } := by
  have left : openJobs ledger.jobs = openJobs jobs := by
    rw [job]
    exact openJobs_cons _ jobs
  exact ⟨left ▸ balanced.flight, balanced.paired, balanced.handing, balanced.seen⟩

/-- **Every step keeps the balance.** -/
theorem Step.balanced (step : ledger.Step answers acts next) (sound : ledger.custody.Sound)
    (orderly : Duty.Orderly ledger.agenda) (balanced : ledger.Balanced) : next.Balanced := by
  have drop : ∀ {rest duty}, ledger.agenda = duty :: rest → duty.isHanding = false →
      Balanced { ledger with agenda := rest } :=
    fun head counts => balanced.replan [] head counts (List.forall_mem_nil _)
  have swap : ∀ {rest duty other}, ledger.agenda = duty :: rest → duty.isHanding = false →
      other.isHanding = false → Balanced { ledger with agenda := other :: rest } :=
    fun head counts none => balanced.replan [_] head counts
      (List.forall_mem_singleton.mpr none)
  cases step with
  | beginPass head =>
    rw [head] at orderly
    exact balanced.beginPass head fun duty behind =>
      Duty.not_handing_of_rank (Nat.le_trans (by decide) (orderly.behind behind))
  | dispatch head =>
    obtain ⟨noIn, noSubmit, noOut⟩ := Duty.countP_of_not_handing fun _ => Duty.not_handing_follow
    refine balanced.handOn _ head rfl ?_ (fun paired => ?_) (Nat.succ_ne_zero _) balanced.seen
    · rw [List.countP_append, List.countP_append, List.countP_append, noIn, noSubmit, noOut]
      show ledger.inFlight + (0 + 1) + (0 + 0 + openJobs ledger.jobs) =
        ledger.inFlight + 0 + (0 + 1 + (0 + 0) + openJobs ledger.jobs)
      omega
    · rw [List.append_assoc]
      exact (paired_handing paired).plan fun _ => Duty.not_handing_follow
  | countIn head =>
    exact balanced.handOn [] head rfl rfl id (balanced.handed head rfl) balanced.seen
  | submit head =>
    refine balanced.handOn [] head rfl ?_ id (balanced.handed head rfl) balanced.seen
    rw [openJobs_cons]
    show ledger.inFlight + 0 + (1 + 0 + openJobs ledger.jobs) =
      ledger.inFlight + 0 + (0 + 0 + (openJobs ledger.jobs + 1))
    omega
  | turnAway head =>
    refine balanced.handOn [_, _] head rfl ?_ (fun paired => ?_) (balanced.handed head rfl)
      balanced.seen
    · rfl
    · exact paired_cons_of_not (paired_cons_of_not paired rfl) rfl
  | refuse head =>
    obtain ⟨noIn, noSubmit, noOut⟩ := Duty.countP_of_not_handing fun _ => Duty.not_handing_follow
    refine balanced.handOn _ head rfl ?_ (fun paired => paired.plan fun _ =>
      Duty.not_handing_follow) (balanced.handed head rfl) balanced.seen
    rw [noIn, noSubmit, noOut]
    rfl
  | countOut head =>
    have positive := balanced.inFlight_pos_of_head head
    refine balanced.handOn [] head rfl ?_ id (balanced.handed head rfl)
      (Nat.le_succ_of_le balanced.seen)
    show ledger.inFlight - 1 + 0 + (0 + 1 + openJobs ledger.jobs) =
      ledger.inFlight + 0 + (0 + 0 + openJobs ledger.jobs)
    omega
  | complete job => exact balanced.complete job
  | leave job => exact balanced.leave job
  | lookEnded head => exact drop head rfl
  | lookOn head => exact swap head rfl rfl
  | absent head about absent => exact drop head (not_isSubmit_of_absent sound head about absent)
  | collect head => exact balanced.replan _ head rfl fun _ => Duty.not_handing_dispatches
  | judgeNothing head => exact drop head rfl
  | judge head => exact (drop head rfl).still ledger.tasks _
  | testDone head => exact balanced.replan _ head rfl fun duty member =>
      Duty.not_handing_of_rank (by rw [Duty.rank_closing member]; decide)
  | testStuck head => exact balanced.replan _ head rfl fun duty member =>
      Duty.not_handing_of_rank (by rw [Duty.rank_stuck member]; decide)
  | testOn head => exact swap head rfl rfl
  | wait head => exact swap head rfl rfl
  | @aside rest duty head isAside =>
    refine drop head ?_
    cases duty <;> first | rfl | cases isAside
  | unlisten head => exact (drop head rfl).still _ ledger.tables
  | take => exact balanced
  | execute job | keepCounts job | keepValidation job | report job =>
    refine balanced.goOn job ?_ _
    rfl
  | follow job follows =>
    refine balanced.goOn job ?_ ledger.tasks
    cases follows <;> rfl

/-- Whether nothing was handed out in the pass, nothing is in flight and nothing has completed. -/
def Quiet (ledger : Ledger) : Prop :=
  ledger.dispatched = 0 ∧ ledger.inFlight = 0 ∧ ledger.completions = ledger.seen

/-- **When all is quiet, every job was counted out and nothing is being handed out.** -/
theorem Balanced.quiet (balanced : ledger.Balanced) (quiet : ledger.Quiet) :
    openJobs ledger.jobs = 0 ∧ ∀ duty ∈ ledger.agenda, duty.isHanding = false := by
  have idle : ∀ duty ∈ ledger.agenda, duty.isHanding = false := by
    intro duty member
    by_contra hands
    exact balanced.handing duty member (by simpa using hands) quiet.1
  obtain ⟨noIn, noSubmit, noOut⟩ := Duty.countP_of_not_handing idle
  have flight := balanced.flight
  rw [quiet.2.1, noIn, noSubmit, noOut] at flight
  exact ⟨by omega, idle⟩

/-- Only a new pass makes all quiet. -/
theorem Step.quiet (step : ledger.Step answers acts next) (balanced : ledger.Balanced)
    (quiet : next.Quiet) :
    ledger.Quiet ∨ ∃ rest, next.agenda = Duty.pass ledger.tables ++ rest := by
  have seen := balanced.seen
  cases step with
  | beginPass => exact .inr ⟨_, rfl⟩
  | dispatch => exact absurd quiet.1 (Nat.succ_ne_zero _)
  | countIn => exact absurd quiet.2.1 (Nat.succ_ne_zero _)
  | countOut =>
    have completed : ledger.completions + 1 = ledger.seen := quiet.2.2
    omega
  | complete =>
    have completed : ledger.completions + 1 = ledger.seen := quiet.2.2
    omega
  | _ => exact .inl quiet

end Ledger

end TableMigration
