/-
**The order of the agenda.**

* `Duty.rank` sorts the duties: what follows from handing out an action comes before handing out
  more, this before the next look at a task, this before the test that ends a pass, and nothing
  stands behind the closing duties.
* `Ledger.Step.orderly` — an agenda that is in this order stays so. So no action waits to be handed
  out when a task is looked at or a pass is tested.
-/

import TableMigration.Proofs.Ledger

namespace TableMigration

/-! ### Ranks -/

/-- How early a duty stands in the agenda. -/
def Duty.rank : Duty → Nat
  | .dispatch .. | .countIn | .submit .. | .refuse .. | .deliver .. | .announce .. | .countOut => 0
  | .collect _ => 1
  | .look _ | .judge _ => 2
  | .beginPass | .test | .wait => 3
  | .giveUp _ | .close _ | .join _ | .unlisten | .conclude => 4

theorem Duty.rank_le (duty : Duty) : duty.rank ≤ 4 := by
  unfold rank
  split <;> decide

theorem Duty.rank_of_subject {duty : Duty} {number : Nat} (about : duty.subject? = some number) :
    duty.rank ≠ 3 := by
  cases duty <;> first | (cases about; done) | exact nofun

theorem Duty.rank_of_isAside {duty : Duty} (isAside : duty.isAside = true) : duty.rank ≠ 3 := by
  cases duty <;> first | (cases isAside; done) | exact nofun

/-- Whether a duty may stand before another. Only one duty decides how the pass goes on. -/
def Duty.Precedes (first second : Duty) : Prop :=
  first.rank ≤ second.rank ∧ (first.rank = 3 → second.rank ≠ 3)

/-- Whether an agenda is in order. -/
def Duty.Orderly (agenda : List Duty) : Prop :=
  agenda.Pairwise Duty.Precedes

namespace Duty

variable {head : Duty} {rest duties : List Duty}

/-- Duties of one rank are in order, unless they are the ones of which there is only one. -/
theorem orderly_of_rank {rank : Nat} (apart : rank ≠ 3) (all : ∀ duty ∈ duties, duty.rank = rank) :
    Orderly duties := by
  refine List.Pairwise.imp_of_mem (fun {first second} one other _ => ?_)
    (List.pairwise_of_forall (R := fun _ _ => True) fun _ _ => trivial)
  refine ⟨?_, fun three => ?_⟩
  · rw [all first one, all second other]
  · exact absurd ((all first one).symm.trans three) apart

/-- The duties that take the place of the first one may have its rank or a lower one. What the duty
that decides about the pass leaves behind may have any. -/
theorem Orderly.replace (orderly : Orderly (head :: rest)) (inner : Orderly duties)
    (low : ∀ duty ∈ duties, duty.rank ≤ head.rank ∨ head.rank = 3) : Orderly (duties ++ rest) := by
  refine List.pairwise_append.mpr ⟨inner, orderly.of_cons, fun duty new other behind => ?_⟩
  obtain ⟨below, single⟩ := List.rel_of_pairwise_cons orderly behind
  have bound := duty.rank_le
  have bound' := other.rank_le
  refine ⟨?_, fun three equal => ?_⟩
  · rcases low duty new with under | three
    · exact Nat.le_trans under below
    · have := single three
      omega
  · rcases low duty new with under | three'
    · exact single (by omega) equal
    · exact single three' equal

/-- Duties that follow from handing out an action may take the place of any other. -/
theorem Orderly.hand (orderly : Orderly (head :: rest)) (hands : ∀ duty ∈ duties, duty.rank = 0) :
    Orderly (duties ++ rest) :=
  orderly.replace (orderly_of_rank (by decide) hands) fun duty new =>
    .inl (by rw [hands duty new]; exact Nat.zero_le _)

theorem Orderly.tail (orderly : Orderly (head :: rest)) : Orderly rest :=
  orderly.of_cons

/-- Nothing of a lower rank stands behind the head. -/
theorem Orderly.behind (orderly : Orderly (head :: rest)) {duty : Duty} (behind : duty ∈ rest) :
    head.rank ≤ duty.rank :=
  (List.rel_of_pairwise_cons orderly behind).1

/-! ### The duties that are planned -/

/-- A report is followed by the deliveries that it calls for, and by the news of a change. -/
theorem mem_follow_cases {task : Nat} {changed : Option Progress} {deliveries : List Delivery}
    {duty : Duty} (member : duty ∈ follow task changed deliveries) :
    (∃ delivery ∈ deliveries, duty = .deliver task delivery) ∨
      ∃ progress, changed = some progress ∧ duty = .announce task progress := by
  unfold follow at member
  rcases List.mem_append.mp member with delivering | announcing
  · obtain ⟨delivery, called, rfl⟩ := List.mem_map.mp delivering
    exact .inl ⟨delivery, called, rfl⟩
  · obtain ⟨progress, told, rfl⟩ := List.mem_map.mp announcing
    exact .inr ⟨progress, Option.mem_toList.mp told, rfl⟩

theorem rank_follow {task : Nat} {changed : Option Progress} {deliveries : List Delivery}
    {duty : Duty} (member : duty ∈ follow task changed deliveries) : duty.rank = 0 := by
  rcases mem_follow_cases member with ⟨_, _, rfl⟩ | ⟨_, _, rfl⟩ <;> rfl

theorem rank_dispatches {task : Nat} {actions : List Action} {duty : Duty}
    (member : duty ∈ actions.map (dispatch task)) : duty.rank = 0 := by
  obtain ⟨_, _, rfl⟩ := List.mem_map.mp member
  rfl

theorem rank_handing {task : Nat} {action : Action} {changed : Option Progress}
    {deliveries : List Delivery} {duty : Duty}
    (member : duty ∈ follow task changed deliveries ++ [countIn, submit task action]) :
    duty.rank = 0 := by
  rcases List.mem_append.mp member with following | handing
  · exact rank_follow following
  · simp only [List.mem_cons, List.not_mem_nil, or_false] at handing
    rcases handing with rfl | rfl <;> rfl

theorem rank_refusing {task : Nat} {action : Action} {duty : Duty}
    (member : duty ∈ [refuse task action, countOut]) : duty.rank = 0 := by
  simp only [List.mem_cons, List.not_mem_nil, or_false] at member
  rcases member with rfl | rfl <;> rfl

theorem rank_closing {duty : Duty} (member : duty ∈ closing) : duty.rank = 4 := by
  simp only [closing, Engine.all, List.flatMap_cons, List.flatMap_nil, List.cons_append,
    List.nil_append, List.mem_cons, List.not_mem_nil, or_false] at member
  rcases member with rfl | rfl | rfl | rfl | rfl | rfl | rfl | rfl <;> rfl

theorem giveUp_not_mem_closing {key : String} : .giveUp key ∉ closing := by
  simp [closing, Engine.all]

theorem rank_looks {tables : Grouping} {duty : Duty}
    (member : duty ∈ tables.unfinished.flatMap fun entry =>
      entry.2.tasks.map Duty.look ++ [Duty.judge entry.1]) : duty.rank = 2 := by
  obtain ⟨entry, _, member⟩ := List.mem_flatMap.mp member
  rcases List.mem_append.mp member with looking | judging
  · obtain ⟨_, _, rfl⟩ := List.mem_map.mp looking
    rfl
  · rw [List.mem_singleton.mp judging]
    rfl

theorem orderly_pass (tables : Grouping) : Orderly (pass tables) := by
  refine List.pairwise_append.mpr ⟨orderly_of_rank (by decide) fun _ => rank_looks,
    List.pairwise_singleton _ _, fun duty looks other test => ?_⟩
  rw [List.mem_singleton.mp test]
  have rank := rank_looks looks
  exact ⟨by rw [rank]; decide, fun three => by omega⟩

/-- A pass looks at the tasks and judges the tables, and then there is the test. -/
theorem mem_pass_cases {tables : Grouping} {duty : Duty} (member : duty ∈ pass tables) :
    duty.rank = 2 ∨ duty = .test :=
  (List.mem_append.mp member).imp rank_looks List.mem_singleton.mp

theorem rank_pass_le {tables : Grouping} {duty : Duty} (member : duty ∈ pass tables) :
    duty.rank ≤ 3 := by
  rcases mem_pass_cases member with looks | rfl
  · omega
  · exact Nat.le_refl 3

theorem le_rank_pass {tables : Grouping} {duty : Duty} (member : duty ∈ pass tables) :
    2 ≤ duty.rank := by
  rcases mem_pass_cases member with looks | rfl
  · omega
  · exact Nat.le_succ 2

theorem test_mem_pass (tables : Grouping) : test ∈ pass tables :=
  List.mem_append_right _ (List.mem_singleton.mpr rfl)

theorem rank_stuck {tables : Grouping} {duty : Duty}
    (member : duty ∈ tables.unfinished.map (fun entry => giveUp entry.1) ++ closing) :
    duty.rank = 4 := by
  rcases List.mem_append.mp member with giving | closing
  · obtain ⟨_, _, rfl⟩ := List.mem_map.mp giving
    rfl
  · exact rank_closing closing

theorem orderly_closing : Orderly closing :=
  orderly_of_rank (by decide) fun _ => rank_closing

end Duty

/-! ### Steps -/

variable {answers : Nat → Task → Action → Execution → Prop} {ledger next : Ledger} {acts : List Act}

/-- **The agenda stays in order.** -/
theorem Ledger.Step.orderly (step : ledger.Step answers acts next)
    (orderly : Duty.Orderly ledger.agenda) : Duty.Orderly next.agenda := by
  have single : ∀ duty : Duty, Duty.Orderly [duty] := fun _ => List.pairwise_singleton _ _
  cases step with
  | beginPass head =>
    rw [head] at orderly
    exact orderly.replace (Duty.orderly_pass _) fun _ member => .inl (Duty.rank_pass_le member)
  | lookOn head _ =>
    rw [head] at orderly
    refine orderly.replace (single _) fun duty member => .inl ?_
    rw [List.mem_singleton.mp member]
    exact Nat.le_succ 1
  | collect head _ => exact (head ▸ orderly).hand fun _ => Duty.rank_dispatches
  | dispatch head _ => exact (head ▸ orderly).hand fun _ => Duty.rank_handing
  | turnAway head _ => exact (head ▸ orderly).hand fun _ => Duty.rank_refusing
  | refuse head _ => exact (head ▸ orderly).hand fun _ => Duty.rank_follow
  | testDone head _ =>
    rw [head] at orderly
    exact orderly.replace Duty.orderly_closing fun _ _ => .inr rfl
  | testStuck head _ =>
    rw [head] at orderly
    exact orderly.replace (Duty.orderly_of_rank (by decide) fun _ => Duty.rank_stuck)
      fun _ _ => .inr rfl
  | testOn head _ =>
    rw [head] at orderly
    exact orderly.replace (single _) fun duty member => .inr rfl
  | wait head =>
    rw [head] at orderly
    exact orderly.replace (single _) fun duty member => .inr rfl
  | lookEnded head _ => exact (head ▸ orderly).tail
  | absent head _ _ => exact (head ▸ orderly).tail
  | countIn head => exact (head ▸ orderly).tail
  | submit head _ => exact (head ▸ orderly).tail
  | countOut head => exact (head ▸ orderly).tail
  | judgeNothing head _ => exact (head ▸ orderly).tail
  | judge head _ => exact (head ▸ orderly).tail
  | aside head _ => exact (head ▸ orderly).tail
  | unlisten head _ => exact (head ▸ orderly).tail
  | take => exact orderly
  | execute _ _ _ => exact orderly
  | keepCounts _ _ => exact orderly
  | keepValidation _ _ => exact orderly
  | report _ _ => exact orderly
  | follow _ _ => exact orderly
  | complete _ => exact orderly
  | leave _ => exact orderly

/-- What a step puts in the place of the head of the agenda. Only in the place of the duty that
decides about a pass there can be something of a higher rank: what decides again, or the waiting for
every pool. -/
structure Duty.Replaces (head : Duty) (duties : List Duty) : Prop where
  low : ∀ duty ∈ duties, duty.rank ≤ head.rank ∨ head.rank = 3
  last : head.rank = 4 → ∀ duty ∈ duties, duty.rank = 4
  decides : head.rank = 3 → (∃ duty ∈ duties, duty.rank = 3) ∨
    ((∀ duty ∈ duties, duty.rank = 4) ∧ ∀ engine, .join engine ∈ duties)

theorem Duty.replaces_nil {head : Duty} (apart : head.rank ≠ 3) : head.Replaces [] :=
  ⟨List.forall_mem_nil _, fun _ => List.forall_mem_nil _, fun three => absurd three apart⟩

theorem Duty.replaces_hand {head : Duty} {duties : List Duty} (early : head.rank < 3)
    (hands : ∀ duty ∈ duties, duty.rank = 0) : head.Replaces duties :=
  ⟨fun duty member => .inl (hands duty member ▸ Nat.zero_le _), fun four => by omega,
    fun three => by omega⟩

theorem Duty.replaces_decide {head duty : Duty} (three : head.rank = 3) (three' : duty.rank = 3) :
    head.Replaces [duty] :=
  ⟨fun _ _ => .inr three, fun four => by omega,
    fun _ => .inl ⟨duty, List.mem_singleton.mpr rfl, three'⟩⟩

theorem Duty.join_mem_closing (engine : Engine) : .join engine ∈ Duty.closing := by
  cases engine <;> decide

theorem Ledger.Step.agenda (step : ledger.Step answers acts next) {duty : Duty} {rest : List Duty}
    (head : ledger.agenda = duty :: rest) :
    ∃ duties, next.agenda = duties ++ rest ∧ duty.Replaces duties := by
  have pops : ∀ {duty' rest'}, ledger.agenda = duty' :: rest' → rest = rest' ∧ duty = duty' := by
    intro duty' rest' head'
    rw [head] at head'
    cases head'
    exact ⟨rfl, rfl⟩
  have stays : next.agenda = ledger.agenda → ∃ duties, next.agenda = duties ++ rest ∧
      duty.Replaces duties := by
    intro same
    refine ⟨[duty], same.trans head, fun other member => .inl ?_, fun four other member => ?_,
      fun three => .inl ?_⟩
    · rw [List.mem_singleton.mp member]
    · rw [List.mem_singleton.mp member, four]
    · exact ⟨duty, List.mem_singleton.mpr rfl, three⟩
  cases step with
  | beginPass head' =>
    obtain ⟨rfl, rfl⟩ := pops head'
    exact ⟨_, rfl, fun _ _ => .inr rfl, nofun, fun _ =>
      .inl ⟨.test, Duty.test_mem_pass _, rfl⟩⟩
  | lookOn head' _ =>
    obtain ⟨rfl, rfl⟩ := pops head'
    refine ⟨[_], rfl, fun duty member => .inl ?_, nofun, nofun⟩
    rw [List.mem_singleton.mp member]
    exact Nat.le_succ 1
  | collect head' _ =>
    obtain ⟨rfl, rfl⟩ := pops head'
    exact ⟨_, rfl, Duty.replaces_hand (by simp [Duty.rank]) fun _ => Duty.rank_dispatches⟩
  | dispatch head' _ =>
    obtain ⟨rfl, rfl⟩ := pops head'
    exact ⟨_, rfl, Duty.replaces_hand (by simp [Duty.rank]) fun _ => Duty.rank_handing⟩
  | turnAway head' _ =>
    obtain ⟨rfl, rfl⟩ := pops head'
    exact ⟨[_, _], rfl, Duty.replaces_hand (by simp [Duty.rank]) fun _ => Duty.rank_refusing⟩
  | refuse head' _ =>
    obtain ⟨rfl, rfl⟩ := pops head'
    exact ⟨_, rfl, Duty.replaces_hand (by simp [Duty.rank]) fun _ => Duty.rank_follow⟩
  | testDone head' _ =>
    obtain ⟨rfl, rfl⟩ := pops head'
    exact ⟨_, rfl, fun _ _ => .inr rfl, nofun, fun _ =>
      .inr ⟨fun _ => Duty.rank_closing, Duty.join_mem_closing⟩⟩
  | testStuck head' _ =>
    obtain ⟨rfl, rfl⟩ := pops head'
    exact ⟨_, rfl, fun _ _ => .inr rfl, nofun, fun _ => .inr ⟨fun _ => Duty.rank_stuck,
      fun engine => List.mem_append_right _ (Duty.join_mem_closing engine)⟩⟩
  | testOn head' _ =>
    obtain ⟨rfl, rfl⟩ := pops head'
    exact ⟨[_], rfl, Duty.replaces_decide rfl rfl⟩
  | wait head' =>
    obtain ⟨rfl, rfl⟩ := pops head'
    exact ⟨[_], rfl, Duty.replaces_decide rfl rfl⟩
  | lookEnded head' _ | countIn head' | submit head' _ | countOut head' | judgeNothing head' _
  | judge head' _ | unlisten head' _ =>
    obtain ⟨rfl, rfl⟩ := pops head'
    exact ⟨[], rfl, Duty.replaces_nil nofun⟩
  | absent head' about _ =>
    obtain ⟨rfl, rfl⟩ := pops head'
    exact ⟨[], rfl, Duty.replaces_nil (Duty.rank_of_subject about)⟩
  | aside head' isAside =>
    obtain ⟨rfl, rfl⟩ := pops head'
    exact ⟨[], rfl, Duty.replaces_nil (Duty.rank_of_isAside isAside)⟩
  | _ => exact stays rfl

/-- Nothing is added to an agenda that is done. -/
theorem Ledger.Step.agenda_nil (step : ledger.Step answers acts next) (past : ledger.agenda = []) :
    next.agenda = [] := by
  cases step with
  | take | execute | keepCounts | keepValidation | report | follow | complete | leave => exact past
  | beginPass head | lookEnded head | lookOn head | absent head | collect head | dispatch head
  | countIn head | submit head | turnAway head | refuse head | countOut head | judgeNothing head
  | judge head | testDone head | testStuck head | testOn head | wait head | aside head
  | unlisten head =>
    rw [past] at head
    cases head

end TableMigration
