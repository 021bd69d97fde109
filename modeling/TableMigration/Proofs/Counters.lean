/-
**What the counters of a run count.**

* `Act.inHand` — the scheduling thread has the action in hand that it has handed out last, until it
  has given it to a pool or counted it out again.
* `Ledger.Tallied` — what was counted in and not yet out is what is on its way: in the hands of the
  scheduling thread, or in a job that has still to be counted out. Every step keeps the tally
  (`Ledger.Step.tallied`, `Ledger.Tallied.work`, `Ledger.Tallied.leave`).
* `Ledger.Sustained` — what was handed out in a pass is in flight or has completed since the pass
  began, so that there is something to wait for whenever the scheduling thread waits
  (`Ledger.Step.sustained`).
-/

import Mathlib.Tactic.Abel
import TableMigration.Proofs.Refinement

namespace TableMigration

/-! ### The action in hand -/

namespace Act

/-- The action that an act hands out. -/
def handed? : Act → Option (Nat × Action)
  | .dispatched number action => some (number, action)
  | _ => none

/-- The actions that were handed out, in order. -/
def handed (acts : List Act) : List (Nat × Action) :=
  acts.filterMap handed?

/-- The action that was handed out last. The scheduling thread has it in hand until it hands out the
next one. -/
def inHand (acts : List Act) : Option (Nat × Action) :=
  (handed acts).getLast?

variable {acts new : List Act} {number : Nat} {action : Action}

theorem handed_append (acts new : List Act) : handed (acts ++ new) = handed acts ++ handed new :=
  List.filterMap_append ..

theorem inHand_of_silent (acts : List Act) (silent : handed new = []) :
    inHand (acts ++ new) = inHand acts := by
  unfold inHand
  rw [handed_append, silent, List.append_nil]

theorem handed_foundEnded (numbers : List Nat) : handed (numbers.map .foundEnded) = [] := by
  refine List.filterMap_eq_nil_iff.mpr fun act member => ?_
  obtain ⟨_, _, rfl⟩ := List.mem_map.mp member
  rfl

theorem dispatched_of_handed {key : Nat × Action} (member : key ∈ handed acts) :
    .dispatched key.1 key.2 ∈ acts := by
  obtain ⟨act, done, hands⟩ := List.mem_filterMap.mp member
  cases act <;> cases hands
  exact done

/-- An action is handed out once at most. -/
theorem handed_nodup {custody : Custody} (tells : custody.Tells acts) : (handed acts).Nodup := by
  refine List.nodup_iff_count_le_one.mpr fun ⟨number, action⟩ => ?_
  obtain ⟨_, story, _⟩ := tells number action
  have same : (handed acts).count (number, action) =
      (about number action acts).countP fun act => act.handed? == some (number, action) := by
    unfold handed about
    rw [List.count_filterMap, List.countP_filter]
    refine List.countP_congr fun act _ => ?_
    rw [Bool.and_eq_true, beq_iff_eq]
    refine ⟨fun hands => ⟨hands, ?_⟩, And.left⟩
    cases act <;> cases hands
    exact (concerns_self number action).1
  rw [same]
  generalize about number action acts = told at story
  cases story <;> simp [handed?]

end Act

/-! ### What is on its way -/

namespace Duty

/-- Whether a duty hands out an action. -/
def isDispatch : Duty → Bool
  | .dispatch .. => true
  | _ => false

/-- Whether a duty goes with the action in hand, if it belongs to handing out an action. -/
def Fits (held : Option (Nat × Action)) : Duty → Prop
  | .submit number action | .refuse number action => held = some (number, action)
  | .countIn | .countOut => held.isSome = true
  | _ => True

variable {held : Option (Nat × Action)} {duty : Duty}

theorem fits_of_not_handing (idle : duty.isHanding = false) : duty.Fits held := by
  cases duty <;> trivial

theorem not_dispatch_follow {task : Nat} {changed : Option Progress} {deliveries : List Delivery}
    (member : duty ∈ follow task changed deliveries) : duty.isDispatch = false := by
  rcases mem_follow_cases member with ⟨_, _, rfl⟩ | ⟨_, _, rfl⟩ <;> rfl

/-- A job that a pool turns away is counted out by the scheduling thread. -/
theorem countP_refusing (number : Nat) (action : Action) (rest : List Duty) :
    rest.countP isSubmit + (refuse number action :: countOut :: rest).countP isCountOut =
      (submit number action :: rest).countP isSubmit + rest.countP isCountOut := by
  have out : (refuse number action :: countOut :: rest).countP isCountOut =
      rest.countP isCountOut + 1 :=
    (List.countP_cons_of_neg Bool.false_ne_true).trans (List.countP_cons_of_pos rfl)
  have submitted : (submit number action :: rest).countP isSubmit = rest.countP isSubmit + 1 :=
    List.countP_cons_of_pos rfl
  omega

/-- Whether a duty that belongs to handing out an action does not stand behind one that hands out
another. -/
def Apart (first second : Duty) : Prop :=
  first.isDispatch = true → second.isHanding = false

end Duty

/-- Which action of which task a job is about. -/
def Job.key (job : Job) : Nat × Action :=
  (job.task, job.action)

namespace Ledger

/-- The actions of the jobs that have still to be counted out. -/
def openKeys (jobs : Multiset Job) : Multiset (Nat × Action) :=
  (jobs.filter fun job => job.isOpen = true).map Job.key

/-- Whether the actions that were counted in are those that were counted out and those that are on
their way. -/
structure Tallied (ledger : Ledger) (acts : List Act) (entered left : List (Nat × Action)) :
    Prop where
  apart : ledger.agenda.Pairwise Duty.Apart
  fits : ∀ duty ∈ ledger.agenda, duty.Fits (Act.inHand acts)
  handed : (entered : Multiset (Nat × Action)) +
      ledger.agenda.countP Duty.isCountIn • ((Act.inHand acts).toList : Multiset (Nat × Action)) =
    Act.handed acts
  flight : (entered : Multiset (Nat × Action)) +
      ledger.agenda.countP Duty.isCountIn • ((Act.inHand acts).toList : Multiset (Nat × Action)) =
    left + (ledger.agenda.countP Duty.isSubmit + ledger.agenda.countP Duty.isCountOut) •
      ((Act.inHand acts).toList : Multiset (Nat × Action)) + openKeys ledger.jobs

variable {ledger next : Ledger} {answers : Nat → Task → Action → Execution → Prop}
  {acts new : List Act} {entered left : List (Nat × Action)} {duty : Duty} {rest duties : List Duty}

theorem openKeys_cons (job : Job) (jobs : Multiset Job) :
    openKeys (job ::ₘ jobs) = if job.isOpen then job.key ::ₘ openKeys jobs else openKeys jobs := by
  unfold openKeys
  rw [Multiset.filter_cons]
  split <;> simp

/-- The counters of a ledger that is tallied. -/
theorem Tallied.away (tallied : ledger.Tallied acts entered left) (balanced : ledger.Balanced) :
    ∃ away : Multiset (Nat × Action), (entered : Multiset (Nat × Action)) = left + away ∧
      ledger.inFlight = away.card := by
  have whole := balanced.paired [] ledger.agenda rfl
  have flight := balanced.flight
  have card : (openKeys ledger.jobs).card = openJobs ledger.jobs := by
    unfold openKeys openJobs
    rw [Multiset.card_map, Multiset.countP_eq_card_filter]
  cases held : Act.inHand acts with
  | none =>
    have idle : ∀ duty ∈ ledger.agenda, duty.isHanding = false := by
      intro duty planned
      have fits := tallied.fits duty planned
      rw [held] at fits
      cases duty <;> first | rfl | cases fits
    obtain ⟨noIn, noSubmit, noOut⟩ := Duty.countP_of_not_handing idle
    have tally := tallied.flight
    rw [noIn, noSubmit, noOut, Nat.add_zero, zero_nsmul, add_zero, add_zero] at tally
    exact ⟨_, tally, by omega⟩
  | some key =>
    have tally := tallied.flight
    rw [held] at tally
    obtain ⟨more, split⟩ := Nat.exists_eq_add_of_le whole
    refine ⟨(more + ledger.agenda.countP Duty.isCountOut) • ([key] : Multiset (Nat × Action)) +
      openKeys ledger.jobs, ?_, ?_⟩
    · rw [split] at tally
      simp only [add_nsmul, Option.toList_some] at tally ⊢
      refine add_right_cancel (b := ledger.agenda.countP Duty.isCountIn •
        ([key] : Multiset (Nat × Action))) (tally.trans ?_)
      abel
    · rw [Multiset.card_add, Multiset.card_nsmul, card, Multiset.coe_card, List.length_singleton]
      omega

/-! ### Steps of the scheduling thread -/

/-- What the scheduling thread counts in next, with the acts so far. -/
def countsIn (ledger : Ledger) (acts : List Act) : List (Nat × Action) :=
  if ledger.agenda.head? = some .countIn then (Act.inHand acts).toList else []

/-- What the scheduling thread counts out next, with the acts so far. -/
def countsOut (ledger : Ledger) (acts : List Act) : List (Nat × Action) :=
  if ledger.agenda.head? = some .countOut then (Act.inHand acts).toList else []

theorem counts_of_head (head : ledger.agenda = duty :: rest) (acts : List Act) :
    ledger.countsIn acts = (if duty = .countIn then (Act.inHand acts).toList else []) ∧
      ledger.countsOut acts = if duty = .countOut then (Act.inHand acts).toList else [] := by
  unfold countsIn countsOut
  simp only [head, List.head?_cons, Option.some.injEq, and_self]

/-- Duties that belong to handing out nothing may take the place of such a duty. Those that hand out
actions only do so where no action is in hand. -/
theorem Tallied.replan (tallied : ledger.Tallied acts entered left) (duties : List Duty)
    (head : ledger.agenda = duty :: rest) (counts : duty.isHanding = false)
    (idle : ∀ duty ∈ duties, duty.isHanding = false) (silent : Act.handed new = [])
    (free : (∃ duty ∈ duties, duty.isDispatch = true) → ∀ duty ∈ rest, duty.isHanding = false)
    (after : next.agenda = duties ++ rest) (jobs : next.jobs = ledger.jobs) :
    next.Tallied (acts ++ new) (entered ++ ledger.countsIn acts)
      (left ++ ledger.countsOut acts) := by
  obtain ⟨apart, fits, handed, flight⟩ := tallied
  obtain ⟨into, out⟩ := counts_of_head head acts
  have notIn : duty ≠ .countIn := by
    rintro rfl
    cases counts
  have notOut : duty ≠ .countOut := by
    rintro rfl
    cases counts
  rw [into, if_neg notIn, out, if_neg notOut, List.append_nil, List.append_nil]
  have single : ∀ other ∈ [duty], other.isHanding = false := List.forall_mem_singleton.mpr counts
  obtain ⟨noIn, noSubmit, noOut⟩ := Duty.countP_of_not_handing idle
  obtain ⟨noIn', noSubmit', noOut'⟩ := Duty.countP_of_not_handing single
  have same : next.agenda.countP Duty.isCountIn = ledger.agenda.countP Duty.isCountIn ∧
      next.agenda.countP Duty.isSubmit = ledger.agenda.countP Duty.isSubmit ∧
      next.agenda.countP Duty.isCountOut = ledger.agenda.countP Duty.isCountOut := by
    rw [after, head]
    simp only [List.countP_append, List.countP_cons, List.countP_nil] at *
    omega
  rw [head] at apart fits
  refine ⟨?_, fun other planned => ?_, ?_, ?_⟩
  · rw [after]
    refine List.pairwise_append.mpr ⟨?_, apart.of_cons, fun first new second old hands => ?_⟩
    · exact List.Pairwise.imp_of_mem (fun {_ second} _ member _ _ => idle second member)
        (List.pairwise_of_forall (R := fun _ _ => True) fun _ _ => trivial)
    · exact free ⟨first, new, hands⟩ second old
  · rw [Act.inHand_of_silent acts silent]
    rw [after] at planned
    rcases List.mem_append.mp planned with new | old
    · exact Duty.fits_of_not_handing (idle other new)
    · exact fits other (List.mem_cons_of_mem _ old)
  · rw [same.1, Act.inHand_of_silent acts silent, Act.handed_append, silent, List.append_nil]
    exact handed
  · rw [same.1, same.2.1, same.2.2, Act.inHand_of_silent acts silent, jobs]
    exact flight

/-- What is handed out is taken in hand. -/
theorem Tallied.dispatch {number : Nat} {action : Action} {task : Task}
    (tallied : ledger.Tallied acts entered left)
    (head : ledger.agenda = .dispatch number action :: rest)
    (after : next = { ledger with
      tasks := ledger.tasks.set number (task.update action .running).task
      agenda := Duty.follow number (task.update action .running).changed
        (task.update action .running).deliveries ++ [.countIn, .submit number action] ++ rest
      dispatched := ledger.dispatched + 1 }) :
    next.Tallied (acts ++ [.dispatched number action]) (entered ++ ledger.countsIn acts)
      (left ++ ledger.countsOut acts) := by
  obtain ⟨apart, fits, handed, flight⟩ := tallied
  obtain ⟨into, out⟩ := counts_of_head head acts
  rw [into, if_neg nofun, out, if_neg nofun, List.append_nil, List.append_nil, after]
  rw [head] at apart fits handed flight
  have behind : ∀ duty ∈ rest, duty.isHanding = false :=
    fun duty behind => List.rel_of_pairwise_cons apart behind rfl
  have free : ∀ duty ∈ Duty.dispatch number action :: rest, duty.isHanding = false :=
    List.forall_mem_cons.mpr ⟨rfl, behind⟩
  have follows : ∀ duty ∈ Duty.follow number (task.update action .running).changed
      (task.update action .running).deliveries, duty.isHanding = false :=
    fun duty => Duty.not_handing_follow
  have held : Act.inHand (acts ++ [.dispatched number action]) = some (number, action) := by
    unfold Act.inHand
    rw [Act.handed_append]
    exact List.getLast?_concat
  obtain ⟨noIn, noSubmit, noOut⟩ := Duty.countP_of_not_handing free
  obtain ⟨noIn', noSubmit', noOut'⟩ := Duty.countP_of_not_handing behind
  obtain ⟨noIn'', noSubmit'', noOut''⟩ := Duty.countP_of_not_handing follows
  have counts : ∀ duties : List Duty, duties = Duty.follow number
        (task.update action .running).changed (task.update action .running).deliveries ++
          [.countIn, .submit number action] ++ rest →
      duties.countP Duty.isCountIn = 1 ∧
        duties.countP Duty.isSubmit + duties.countP Duty.isCountOut = 1 := by
    rintro _ rfl
    simp only [List.countP_append, List.countP_cons, List.countP_nil, Duty.isCountIn,
      Duty.isSubmit, Duty.isCountOut, if_true, Bool.false_eq_true, if_false, noIn', noIn'',
      noSubmit', noSubmit'', noOut', noOut'', Nat.add_zero, Nat.zero_add, and_self]
  obtain ⟨one, one'⟩ := counts _ rfl
  rw [noIn, zero_nsmul, add_zero] at handed flight
  rw [noSubmit, noOut, zero_nsmul, add_zero] at flight
  refine ⟨?_, fun other planned => ?_, ?_, ?_⟩
  · refine List.pairwise_append.mpr ⟨?_, apart.of_cons, fun first new second old _ =>
      behind second old⟩
    refine List.Pairwise.imp_of_mem (fun {first _} member _ _ hands => ?_)
      (List.pairwise_of_forall (R := fun _ _ => True) fun _ _ => trivial)
    rcases List.mem_append.mp member with following | handing
    · rw [Duty.not_dispatch_follow following] at hands
      cases hands
    · simp only [List.mem_cons, List.not_mem_nil, or_false] at handing
      rcases handing with rfl | rfl <;> cases hands
  · rw [held]
    rcases List.mem_append.mp planned with new | old
    · rcases List.mem_append.mp new with following | handing
      · exact Duty.fits_of_not_handing (follows other following)
      · simp only [List.mem_cons, List.not_mem_nil, or_false] at handing
        rcases handing with rfl | rfl <;> rfl
    · exact Duty.fits_of_not_handing (behind other old)
  · rw [one, one_nsmul, held, Act.handed_append, ← Multiset.coe_add, handed]
    rfl
  · rw [one, one', one_nsmul, flight, add_right_comm]

/-- The action in hand goes on: what it is counted in and out by is exchanged for what follows. -/
theorem Tallied.hand {entered' left' : List (Nat × Action)}
    (tallied : ledger.Tallied acts entered left) (duties : List Duty)
    (head : ledger.agenda = duty :: rest) (idle : ∀ duty ∈ duties, duty.isDispatch = false)
    (fit : ∀ duty ∈ duties, duty.Fits (Act.inHand acts)) (silent : Act.handed new = [])
    (after : next.agenda = duties ++ rest)
    (into : (entered' : Multiset (Nat × Action)) +
        next.agenda.countP Duty.isCountIn • ((Act.inHand acts).toList : Multiset (Nat × Action)) =
      entered + ledger.agenda.countP Duty.isCountIn •
        ((Act.inHand acts).toList : Multiset (Nat × Action)))
    (out : (left' : Multiset (Nat × Action)) +
        (next.agenda.countP Duty.isSubmit + next.agenda.countP Duty.isCountOut) •
          ((Act.inHand acts).toList : Multiset (Nat × Action)) + openKeys next.jobs =
      left + (ledger.agenda.countP Duty.isSubmit + ledger.agenda.countP Duty.isCountOut) •
        ((Act.inHand acts).toList : Multiset (Nat × Action)) + openKeys ledger.jobs) :
    next.Tallied (acts ++ new) entered' left' := by
  obtain ⟨apart, fits, handed, flight⟩ := tallied
  rw [head] at apart fits
  refine ⟨?_, fun other planned => ?_, ?_, ?_⟩
  · rw [after]
    refine List.pairwise_append.mpr ⟨?_, apart.of_cons, fun first new _ _ hands => ?_⟩
    · exact List.Pairwise.imp_of_mem (fun {first _} member _ _ hands =>
        absurd (idle first member ▸ hands) Bool.false_ne_true)
        (List.pairwise_of_forall (R := fun _ _ => True) fun _ _ => trivial)
    · exact absurd (idle first new ▸ hands) Bool.false_ne_true
  · rw [Act.inHand_of_silent acts silent]
    rw [after] at planned
    rcases List.mem_append.mp planned with new | old
    · exact fit other new
    · exact fits other (List.mem_cons_of_mem _ old)
  · rw [Act.inHand_of_silent acts silent, Act.handed_append, silent, List.append_nil, into]
    exact handed
  · rw [Act.inHand_of_silent acts silent, into, out]
    exact flight

/-- Duties that have nothing to do with handing out are planned where such a duty was. -/
theorem Tallied.plan (tallied : ledger.Tallied acts entered left) (duties : List Duty)
    (head : ledger.agenda = duty :: rest) (counts : duty.isHanding = false)
    (late : ∀ duty ∈ duties, 1 ≤ duty.rank) (silent : Act.handed new = [])
    (after : next.agenda = duties ++ rest) (jobs : next.jobs = ledger.jobs) :
    next.Tallied (acts ++ new) (entered ++ ledger.countsIn acts)
      (left ++ ledger.countsOut acts) := by
  refine tallied.replan duties head counts (fun _ member => Duty.not_handing_of_rank
    (late _ member)) silent (fun ⟨other, member, hands⟩ => ?_) after jobs
  have low := late other member
  cases other <;> first | (cases hands; done) | exact absurd low (Nat.not_succ_le_zero 0)

theorem Tallied.drop (tallied : ledger.Tallied acts entered left)
    (head : ledger.agenda = duty :: rest) (counts : duty.isHanding = false)
    (silent : Act.handed new = []) (after : next.agenda = rest) (jobs : next.jobs = ledger.jobs) :
    next.Tallied (acts ++ new) (entered ++ ledger.countsIn acts) (left ++ ledger.countsOut acts) :=
  tallied.plan [] head counts (List.forall_mem_nil _) silent after jobs

theorem Tallied.countIn (tallied : ledger.Tallied acts entered left)
    (head : ledger.agenda = .countIn :: rest) (silent : Act.handed new = [])
    (after : next.agenda = rest) (jobs : next.jobs = ledger.jobs) :
    next.Tallied (acts ++ new) (entered ++ ledger.countsIn acts)
      (left ++ ledger.countsOut acts) := by
  obtain ⟨into, out⟩ := counts_of_head head acts
  rw [into, if_pos rfl, out, if_neg nofun, List.append_nil]
  refine tallied.hand [] head (List.forall_mem_nil _) (List.forall_mem_nil _) silent after ?_ ?_
  · rw [head, after, List.countP_cons_of_pos rfl, add_nsmul, one_nsmul, ← Multiset.coe_add]
    abel
  · rw [head, after, jobs]
    rfl

/-- A job that a pool accepts is on its way instead of its duty. -/
theorem Tallied.submit {number : Nat} {action : Action} {stage : Stage}
    (tallied : ledger.Tallied acts entered left)
    (head : ledger.agenda = .submit number action :: rest) (silent : Act.handed new = [])
    (after : next.agenda = rest) (opens : Job.isOpen ⟨number, action, stage⟩ = true)
    (jobs : next.jobs = ⟨number, action, stage⟩ ::ₘ ledger.jobs) :
    next.Tallied (acts ++ new) (entered ++ ledger.countsIn acts)
      (left ++ ledger.countsOut acts) := by
  obtain ⟨into, out⟩ := counts_of_head head acts
  rw [into, if_neg nofun, out, if_neg nofun, List.append_nil, List.append_nil]
  have held : Act.inHand acts = some (number, action) :=
    tallied.fits (.submit number action) (head ▸ List.mem_cons_self)
  refine tallied.hand [] head (List.forall_mem_nil _) (List.forall_mem_nil _) silent after ?_ ?_
  · rw [head, after]
    rfl
  · rw [head, after, jobs, openKeys_cons, if_pos opens, held, List.countP_cons_of_pos rfl]
    show _ + (rest.countP Duty.isSubmit + rest.countP Duty.isCountOut) •
        ({(number, action)} : Multiset (Nat × Action)) + (number, action) ::ₘ openKeys ledger.jobs =
      _ + (rest.countP Duty.isSubmit + 1 + rest.countP Duty.isCountOut) •
        ({(number, action)} : Multiset (Nat × Action)) + _
    rw [Nat.add_right_comm, add_nsmul _ _ 1, one_nsmul, ← Multiset.singleton_add]
    abel

/-- A job that a pool turns away is counted out by the scheduling thread itself. -/
theorem Tallied.turnAway {number : Nat} {action : Action}
    (tallied : ledger.Tallied acts entered left)
    (head : ledger.agenda = .submit number action :: rest) (silent : Act.handed new = [])
    (after : next.agenda = [.refuse number action, .countOut] ++ rest)
    (jobs : next.jobs = ledger.jobs) :
    next.Tallied (acts ++ new) (entered ++ ledger.countsIn acts)
      (left ++ ledger.countsOut acts) := by
  obtain ⟨into, out⟩ := counts_of_head head acts
  rw [into, if_neg nofun, out, if_neg nofun, List.append_nil, List.append_nil]
  have held : Act.inHand acts = some (number, action) :=
    tallied.fits (.submit number action) (head ▸ List.mem_cons_self)
  refine tallied.hand [.refuse number action, .countOut] head ?_ ?_ silent after ?_ ?_
  · exact List.forall_mem_cons.mpr ⟨rfl, List.forall_mem_singleton.mpr rfl⟩
  · have busy : (Act.inHand acts).isSome = true := held ▸ rfl
    exact List.forall_mem_cons.mpr ⟨held, List.forall_mem_singleton.mpr busy⟩
  · rw [head, after]
    rfl
  · rw [head, after, jobs]
    exact congrArg (fun count => left + count •
      ((Act.inHand acts).toList : Multiset (Nat × Action)) + openKeys ledger.jobs)
      (Duty.countP_refusing number action rest)

/-- What follows from the report of a refusal has nothing to do with counting. -/
theorem Tallied.refuse {number : Nat} {action : Action} {changed : Option Progress}
    {deliveries : List Delivery} (tallied : ledger.Tallied acts entered left)
    (head : ledger.agenda = .refuse number action :: rest) (silent : Act.handed new = [])
    (after : next.agenda = Duty.follow number changed deliveries ++ rest)
    (jobs : next.jobs = ledger.jobs) :
    next.Tallied (acts ++ new) (entered ++ ledger.countsIn acts)
      (left ++ ledger.countsOut acts) := by
  obtain ⟨into, out⟩ := counts_of_head head acts
  rw [into, if_neg nofun, out, if_neg nofun, List.append_nil, List.append_nil]
  have follows : ∀ duty ∈ Duty.follow number changed deliveries, duty.isHanding = false :=
    fun duty => Duty.not_handing_follow
  obtain ⟨noIn, noSubmit, noOut⟩ := Duty.countP_of_not_handing follows
  refine tallied.hand _ head (fun duty member => Duty.not_dispatch_follow member)
    (fun duty member => Duty.fits_of_not_handing (follows duty member)) silent after ?_ ?_
  · rw [head, after, List.countP_append, noIn, Nat.zero_add]
    rfl
  · rw [head, after, jobs, List.countP_append, List.countP_append, noSubmit, noOut, Nat.zero_add,
      Nat.zero_add]
    rfl

theorem Tallied.countOut (tallied : ledger.Tallied acts entered left)
    (head : ledger.agenda = .countOut :: rest) (silent : Act.handed new = [])
    (after : next.agenda = rest) (jobs : next.jobs = ledger.jobs) :
    next.Tallied (acts ++ new) (entered ++ ledger.countsIn acts)
      (left ++ ledger.countsOut acts) := by
  obtain ⟨into, out⟩ := counts_of_head head acts
  rw [into, if_neg nofun, out, if_pos rfl, List.append_nil]
  refine tallied.hand [] head (List.forall_mem_nil _) (List.forall_mem_nil _) silent after ?_ ?_
  · rw [head, after]
    rfl
  · have more : (Duty.countOut :: rest).countP Duty.isCountOut =
        rest.countP Duty.isCountOut + 1 := List.countP_cons_of_pos rfl
    rw [head, after, jobs, ← Multiset.coe_add, more, ← Nat.add_assoc, add_nsmul _ _ 1, one_nsmul]
    show _ + (rest.countP Duty.isSubmit + rest.countP Duty.isCountOut) • _ + openKeys ledger.jobs =
      _ + ((rest.countP Duty.isSubmit + rest.countP Duty.isCountOut) • _ + _) + openKeys ledger.jobs
    abel

/-- **What the scheduling thread does keeps the tally.** -/
theorem Step.tallied (step : ledger.Step answers new next) (turns : next.agenda ≠ ledger.agenda)
    (sound : ledger.custody.Sound) (orderly : Duty.Orderly ledger.agenda)
    (tallied : ledger.Tallied acts entered left) :
    next.Tallied (acts ++ new) (entered ++ ledger.countsIn acts)
      (left ++ ledger.countsOut acts) := by
  cases step with
  | beginPass head =>
    exact tallied.plan _ head rfl (fun _ member => Nat.le_of_succ_le (Duty.le_rank_pass member))
      rfl rfl rfl
  | @lookOn rest number head going =>
    exact tallied.plan [.collect number] head rfl (List.forall_mem_singleton.mpr (Nat.le_refl 1))
      rfl rfl rfl
  | testDone head done =>
    exact tallied.plan _ head rfl (fun _ member => Duty.rank_closing member ▸ Nat.le_add_left 1 3)
      rfl rfl rfl
  | testStuck head stuck =>
    exact tallied.plan _ head rfl (fun _ member => Duty.rank_stuck member ▸ Nat.le_add_left 1 3)
      rfl rfl rfl
  | testOn head busy =>
    exact tallied.plan [.wait] head rfl (List.forall_mem_singleton.mpr (Nat.le_add_left 1 2)) rfl
      rfl rfl
  | wait head =>
    exact tallied.plan [.beginPass] head rfl (List.forall_mem_singleton.mpr (Nat.le_add_left 1 2))
      rfl rfl rfl
  | collect head found =>
    have late := orderly
    rw [head] at late
    exact tallied.replan _ head rfl (fun _ => Duty.not_handing_dispatches) rfl
      (fun _ _ behind => Duty.not_handing_of_rank (late.behind behind)) rfl rfl
  | lookEnded head ended => exact tallied.drop head rfl rfl rfl rfl
  | judgeNothing head missing => exact tallied.drop head rfl rfl rfl rfl
  | judge head found => exact tallied.drop head rfl (Act.handed_foundEnded _) rfl rfl
  | unlisten head listed => exact tallied.drop head rfl rfl rfl rfl
  | absent head about absent =>
    exact tallied.drop head (not_isSubmit_of_absent sound head about absent) rfl rfl rfl
  | aside head isAside =>
    refine tallied.drop head ?_ rfl rfl rfl
    rename_i duty
    cases duty <;> first | rfl | cases isAside
  | dispatch head found => exact tallied.dispatch head rfl
  | countIn head => exact tallied.countIn head rfl rfl rfl
  | submit head found => exact tallied.submit head rfl rfl rfl rfl
  | turnAway head found => exact tallied.turnAway head rfl rfl rfl
  | refuse head found => exact tallied.refuse head rfl rfl rfl
  | countOut head => exact tallied.countOut head rfl rfl rfl
  | take | execute | keepCounts | keepValidation | report | follow | complete | leave =>
    exact absurd rfl turns

/-- What is counted out has completed. -/
theorem Step.completed (step : ledger.Step answers new next) (turns : next.agenda ≠ ledger.agenda)
    (fits : ∀ duty ∈ ledger.agenda, duty.Fits (Act.inHand acts)) :
    next.completions = ledger.completions + (ledger.countsOut acts).length := by
  have silent : ∀ {duty rest}, ledger.agenda = duty :: rest → duty ≠ .countOut →
      ledger.completions = ledger.completions + (ledger.countsOut acts).length := by
    intro duty rest head other
    rw [(counts_of_head head acts).2, if_neg other]
    rfl
  cases step with
  | countOut head =>
    have held : (Act.inHand acts).isSome = true := fits .countOut (head ▸ List.mem_cons_self)
    rw [(counts_of_head head acts).2, if_pos rfl, Option.length_toList, held]
    rfl
  | @absent rest duty number head about =>
    exact silent head fun same => by cases same ▸ about
  | @aside rest duty head isAside =>
    exact silent head fun same => by cases same ▸ isAside
  | beginPass head | lookEnded head | lookOn head | collect head | dispatch head | countIn head
  | submit head | turnAway head | refuse head | judgeNothing head | judge head | testDone head
  | testStuck head | testOn head | wait head | unlisten head => exact silent head nofun
  | take | execute | keepCounts | keepValidation | report | follow | complete | leave =>
    exact absurd rfl turns

/-! ### Steps of the workers -/

/-- A job that goes on and is not counted out changes nothing, and one that is counted out is on its
way no more. -/
theorem Tallied.work {job later : Job} {others : Multiset Job}
    (tallied : ledger.Tallied acts entered left) (held : ledger.jobs = job ::ₘ others)
    (silent : Act.handed new = []) (agenda : next.agenda = ledger.agenda)
    (jobs : next.jobs = later ::ₘ others) (key : later.key = job.key)
    (closes : later.isOpen = true → job.isOpen = true) :
    next.Tallied (acts ++ new) entered
      (left ++ if job.isOpen = true ∧ later.isOpen = false then [job.key] else []) := by
  obtain ⟨apart, fits, handed, flight⟩ := tallied
  refine ⟨agenda ▸ apart, fun other planned => ?_, ?_, ?_⟩
  · rw [Act.inHand_of_silent acts silent]
    exact fits other (agenda ▸ planned)
  · rw [agenda, Act.inHand_of_silent acts silent, Act.handed_append, silent, List.append_nil]
    exact handed
  · rw [agenda, Act.inHand_of_silent acts silent, flight, held, jobs, openKeys_cons, openKeys_cons,
      key, ← Multiset.coe_add]
    cases opened : job.isOpen with
    | false =>
      have closed : later.isOpen = false := by
        refine Bool.eq_false_iff.mpr fun open_ => ?_
        rw [closes open_] at opened
        cases opened
      simp [closed]
    | true =>
      cases later.isOpen with
      | true => simp
      | false =>
        simp only [and_self, if_true, Bool.false_eq_true, if_false, ← Multiset.singleton_add]
        show _ + _ + ({job.key} + openKeys others) = _ + {job.key} + _ + _
        abel

/-- A job that has left was counted out before. -/
theorem Tallied.leave {job : Job} (tallied : ledger.Tallied acts entered left)
    (held : ledger.jobs = job ::ₘ next.jobs) (closed : job.isOpen = false)
    (agenda : next.agenda = ledger.agenda) : next.Tallied acts entered left := by
  obtain ⟨apart, fits, handed, flight⟩ := tallied
  rw [held, openKeys_cons, closed] at flight
  rw [← agenda] at apart fits handed flight
  exact ⟨apart, fits, handed, flight⟩

/-! ### What there is to wait for -/

/-- Whether what was handed out in a pass is in flight or has completed since the pass began, so
that there is something to wait for whenever the scheduling thread waits. Once tables are given up,
nothing is left to happen. -/
structure Sustained (ledger : Ledger) : Prop where
  sustained : ledger.seen + ledger.dispatched ≤
    ledger.completions + ledger.inFlight + ledger.agenda.countP Duty.isCountIn
  awaits : .wait ∈ ledger.agenda → ¬ ledger.Quiet
  stuck : (∃ key, .giveUp key ∈ ledger.agenda) →
    (∀ duty ∈ ledger.agenda, duty.rank = 4) ∧ ledger.Quiet

/-- What was handed out in a pass stays in flight until it has completed. -/
theorem Step.counted (step : ledger.Step answers new next) (balanced : ledger.Balanced)
    (sustained : ledger.seen + ledger.dispatched ≤
      ledger.completions + ledger.inFlight + ledger.agenda.countP Duty.isCountIn) :
    next.seen + next.dispatched ≤
      next.completions + next.inFlight + next.agenda.countP Duty.isCountIn := by
  have keep : ∀ {duty rest} (duties : List Duty), ledger.agenda = duty :: rest →
      duty.isCountIn = false → (∀ duty ∈ duties, duty.isHanding = false) →
      (duties ++ rest).countP Duty.isCountIn = ledger.agenda.countP Duty.isCountIn := by
    intro duty rest duties head counts none
    rw [head, List.countP_append, (Duty.countP_of_not_handing none).1, Nat.zero_add,
      List.countP_cons_of_neg (by rw [counts]; exact Bool.false_ne_true)]
  have drop : ∀ {duty rest}, ledger.agenda = duty :: rest → duty.isCountIn = false →
      ledger.seen + ledger.dispatched ≤
        ledger.completions + ledger.inFlight + rest.countP Duty.isCountIn :=
    fun head counts => by
      rw [← keep [] head counts (List.forall_mem_nil _)] at sustained
      exact sustained
  have plan : ∀ {duty rest} (duties : List Duty), ledger.agenda = duty :: rest →
      duty.isCountIn = false → (∀ duty ∈ duties, duty.isHanding = false) →
      ledger.seen + ledger.dispatched ≤
        ledger.completions + ledger.inFlight + (duties ++ rest).countP Duty.isCountIn :=
    fun duties head counts none => by
      rw [← keep duties head counts none] at sustained
      exact sustained
  cases step with
  | beginPass => exact Nat.le_trans (Nat.le_add_right _ _) (Nat.le_add_right _ _)
  | @dispatch rest number action task head found =>
    have follows : ∀ duty ∈ Duty.follow number (task.update action .running).changed
        (task.update action .running).deliveries, duty.isHanding = false :=
      fun duty => Duty.not_handing_follow
    have now := drop head rfl
    show ledger.seen + (ledger.dispatched + 1) ≤ _ + _
    rw [List.countP_append, List.countP_append, (Duty.countP_of_not_handing follows).1]
    show _ ≤ ledger.completions + ledger.inFlight + (0 + 1 + _)
    omega
  | @countIn rest head =>
    have one : (Duty.countIn :: rest).countP Duty.isCountIn = rest.countP Duty.isCountIn + 1 :=
      List.countP_cons_of_pos rfl
    rw [head, one] at sustained
    show ledger.seen + ledger.dispatched ≤
      ledger.completions + (ledger.inFlight + 1) + rest.countP Duty.isCountIn
    omega
  | @countOut rest head =>
    have positive := balanced.inFlight_pos_of_head head
    have now := drop head rfl
    show ledger.seen + ledger.dispatched ≤
      ledger.completions + 1 + (ledger.inFlight - 1) + rest.countP Duty.isCountIn
    omega
  | @complete jobs number action execution job =>
    have positive := balanced.inFlight_pos_of_job (job ▸ Multiset.mem_cons_self _ _) rfl
    show ledger.seen + ledger.dispatched ≤
      ledger.completions + 1 + (ledger.inFlight - 1) + ledger.agenda.countP Duty.isCountIn
    omega
  | @refuse rest number action task head found =>
    exact plan _ head rfl fun _ => Duty.not_handing_follow
  | collect head found => exact plan _ head rfl fun _ => Duty.not_handing_dispatches
  | testDone head done =>
    exact plan _ head rfl fun _ member =>
      Duty.not_handing_of_rank (Duty.rank_closing member ▸ Nat.le_add_left 1 3)
  | testStuck head stuck =>
    exact plan _ head rfl fun _ member =>
      Duty.not_handing_of_rank (Duty.rank_stuck member ▸ Nat.le_add_left 1 3)
  | @lookOn rest number head going =>
    exact plan [.collect number] head rfl (List.forall_mem_singleton.mpr rfl)
  | testOn head busy => exact plan [.wait] head rfl (List.forall_mem_singleton.mpr rfl)
  | wait head => exact plan [.beginPass] head rfl (List.forall_mem_singleton.mpr rfl)
  | turnAway head found =>
    have now := drop head rfl
    exact now
  | lookEnded head | submit head | judgeNothing head | judge head | unlisten head =>
    exact drop head rfl
  | @absent rest duty number head about absent =>
    refine drop head ?_
    cases duty <;> first | rfl | cases about
  | @aside rest duty head isAside =>
    refine drop head ?_
    cases duty <;> first | rfl | cases isAside
  | take | execute | keepCounts | keepValidation | report | follow | leave => exact sustained

/-- A duty that decides about a pass, or is left after the last one, was planned before, if the step
has planned nothing but what belongs to a pass. -/
theorem mem_of_late {planned : Duty} (head : ledger.agenda = duty :: rest)
    (low : ∀ other ∈ duties, other.rank ≤ 2) (late : 3 ≤ planned.rank)
    (member : planned ∈ duties ++ rest) : planned ∈ ledger.agenda := by
  rcases List.mem_append.mp member with new | old
  · have := low planned new
    omega
  · exact head ▸ List.mem_cons_of_mem _ old

/-- How the scheduling thread comes to wait, and to give up tables. -/
theorem Step.planned {planned : Duty} (step : ledger.Step answers new next)
    (orderly : Duty.Orderly ledger.agenda) (late : 3 ≤ planned.rank)
    (member : planned ∈ next.agenda) :
    planned ∈ ledger.agenda ∨ (planned = .wait → ¬ ledger.Quiet) ∧
      ∀ key, planned = .giveUp key → (∀ duty ∈ next.agenda, duty.rank = 4) ∧ next.Quiet := by
  have zero : ∀ {duties : List Duty}, (∀ duty ∈ duties, duty.rank = 0) →
      ∀ duty ∈ duties, duty.rank ≤ 2 :=
    fun all duty member => all duty member ▸ Nat.zero_le 2
  -- what stood behind the duty that decides about the pass was planned before
  have decides : ∀ {duty rest} duties, ledger.agenda = duty :: rest →
      next.agenda = duties ++ rest →
      (planned ∈ duties → (planned = .wait → ¬ ledger.Quiet) ∧ ∀ key, planned = .giveUp key →
        (∀ duty ∈ next.agenda, duty.rank = 4) ∧ next.Quiet) →
      planned ∈ ledger.agenda ∨ (planned = .wait → ¬ ledger.Quiet) ∧
        ∀ key, planned = .giveUp key → (∀ duty ∈ next.agenda, duty.rank = 4) ∧ next.Quiet := by
    intro duty rest duties head after anew
    rcases List.mem_append.mp (after ▸ member) with new | old
    · exact .inr (anew new)
    · exact .inl (head ▸ List.mem_cons_of_mem _ old)
  cases step with
  | beginPass head =>
    refine decides _ head rfl fun new => ?_
    rcases Duty.mem_pass_cases new with looks | rfl
    · omega
    · exact ⟨nofun, nofun⟩
  | testDone head =>
    refine decides _ head rfl fun closing => ⟨?_, ?_⟩
    · rintro rfl
      cases Duty.rank_closing closing
    · rintro key rfl
      exact absurd closing Duty.giveUp_not_mem_closing
  | testStuck head stuck =>
    refine decides _ head rfl fun giving => ⟨?_, fun key _ => ⟨fun duty planned => ?_, stuck⟩⟩
    · rintro rfl
      cases Duty.rank_stuck giving
    · rcases List.mem_append.mp planned with new | old
      · exact Duty.rank_stuck new
      · rw [head] at orderly
        obtain ⟨behind, single⟩ := List.rel_of_pairwise_cons orderly old
        exact Nat.le_antisymm duty.rank_le (Nat.lt_of_le_of_ne behind (single rfl).symm)
  | testOn head busy =>
    refine decides [.wait] head rfl fun waits => ?_
    rw [List.mem_singleton.mp waits]
    exact ⟨fun _ => busy, nofun⟩
  | wait head =>
    refine decides [.beginPass] head rfl fun begins => ?_
    rw [List.mem_singleton.mp begins]
    exact ⟨nofun, nofun⟩
  | @lookOn rest number head =>
    have low : ∀ duty ∈ [Duty.collect number], duty.rank ≤ 2 :=
      List.forall_mem_singleton.mpr (Nat.le_succ 1)
    exact .inl (mem_of_late head low late member)
  | collect head => exact .inl (mem_of_late head (zero fun _ => Duty.rank_dispatches) late member)
  | dispatch head => exact .inl (mem_of_late head (zero fun _ => Duty.rank_handing) late member)
  | turnAway head => exact .inl (mem_of_late head (zero fun _ => Duty.rank_refusing) late member)
  | refuse head => exact .inl (mem_of_late head (zero fun _ => Duty.rank_follow) late member)
  | lookEnded head | absent head | countIn head | submit head | countOut head | judgeNothing head
  | judge head | aside head | unlisten head =>
    exact .inl (head ▸ List.mem_cons_of_mem _ member)
  | take | execute | keepCounts | keepValidation | report | follow | complete | leave =>
    exact .inl member

/-- Nothing happens any more once tables are given up. -/
theorem Step.rests (step : ledger.Step answers new next) (balanced : ledger.Balanced)
    (closing : ∀ duty ∈ ledger.agenda, duty.rank = 4) (quiet : ledger.Quiet) :
    (∀ duty ∈ next.agenda, duty.rank = 4) ∧ next.Quiet := by
  have early : ∀ {duty rest}, ledger.agenda = duty :: rest → duty.rank ≠ 4 → False :=
    fun head apart => apart (closing _ (head ▸ List.mem_cons_self))
  have behind : ∀ {duty rest}, ledger.agenda = duty :: rest → ∀ duty ∈ rest, duty.rank = 4 :=
    fun head duty old => closing duty (head ▸ List.mem_cons_of_mem _ old)
  cases step with
  | aside head | unlisten head => exact ⟨behind head, quiet⟩
  | complete held =>
    have closed := balanced.not_open quiet held
    cases closed
  | take | execute | keepCounts | keepValidation | report | follow | leave => exact ⟨closing, quiet⟩
  | @absent rest duty _ head about =>
    refine (early head ?_).elim
    cases duty <;> first | (cases about; done) | simp [Duty.rank]
  | beginPass head | lookEnded head | lookOn head | collect head | dispatch head | countIn head
  | submit head | turnAway head | refuse head | countOut head | judgeNothing head | judge head
  | testDone head | testStuck head | testOn head | wait head =>
    exact (early head (by simp [Duty.rank])).elim

/-- **There stays something to wait for.** -/
theorem Step.sustained (step : ledger.Step answers new next) (orderly : Duty.Orderly ledger.agenda)
    (balanced : ledger.Balanced) (sustained : ledger.Sustained) : next.Sustained where
  sustained := step.counted balanced sustained.sustained
  awaits waits quiet := by
    have after := step.orderly orderly
    rcases step.quiet balanced quiet with calm | ⟨rest, begins⟩
    · have late : 3 ≤ Duty.rank .wait := Nat.le_refl 3
      rcases step.planned orderly late waits with old | ⟨anew, _⟩
      · exact sustained.awaits old calm
      · exact anew rfl calm
    · -- the test of the pass that begins is the only duty that decides about it
      rw [begins] at waits after
      rcases List.mem_append.mp waits with new | old
      · rcases Duty.mem_pass_cases new with looks | test
        · cases looks
        · cases test
      · have apart := (List.pairwise_append.mp after).2.2 .test (Duty.test_mem_pass _) .wait old
        exact apart.2 rfl rfl
  stuck := by
    rintro ⟨key, giving⟩
    have late : 3 ≤ (Duty.giveUp key).rank := Nat.le_succ 3
    rcases step.planned orderly late giving with old | ⟨_, anew⟩
    · obtain ⟨closing, quiet⟩ := sustained.stuck ⟨key, old⟩
      exact step.rests balanced closing quiet
    · exact anew key rfl

end Ledger

end TableMigration
