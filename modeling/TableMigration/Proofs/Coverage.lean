/-
**No task is left behind.**

* `Ledger.Covered` — while a pass goes on in which nothing happens, every task of an unfinished
  table is yet to be looked at or has nothing to hand out; the tasks of finished tables have come to
  their end; and once no pass is to come, no task can go on.
* `Ledger.Step.covered` — every step keeps this. So a run that is over has left every listed task at
  its end, or with nothing that could still be handed out.
-/

import TableMigration.Proofs.Balance
import TableMigration.Proofs.Groups
import TableMigration.Proofs.History

namespace TableMigration

/-! ### Tasks that cannot go on -/

namespace Custody

variable {custody next : Custody} {answers : Nat → Task → Action → Execution → Prop}
  {acts : List Act} {number : Nat}

/-- Whether a task has come to its end or has nothing to hand out. -/
def Settled (custody : Custody) (number : Nat) : Prop :=
  ∀ task, custody.tasks number = some task →
    task.progress.isTerminal = true ∨ task.readyActions = []

/-- Whether a task has come to its end, or has nothing to hand out and nothing on its way. -/
def Left (custody : Custody) (number : Nat) : Prop :=
  custody.Ended number ∨ (custody.Settled number ∧ number ∉ custody.looked ∧
    ∀ item ∈ custody.items, item.task ≠ number)

theorem Ended.settled (ended : custody.Ended number) : custody.Settled number :=
  fun task found => .inl (ended task found)

/-- No task changes but one that has an action on its way. -/
theorem Step.unmoved (step : custody.Step answers acts next)
    (apart : ∀ item ∈ custody.items, item.task ≠ number) :
    next.tasks number = custody.tasks number := by
  have other : ∀ {item others changed}, custody.items = item ::ₘ others →
      (custody.setTask item.task changed).tasks number = custody.tasks number := by
    intro item others changed held
    exact if_neg (apart item (held ▸ Multiset.mem_cons_self _ _)).symm
  cases step with
  | dispatch held | keepCounts held | keepValidation held | settle held => exact other held
  | _ => rfl

/-- A task that cannot go on does not, unless it is looked at again. -/
theorem Left.step (left : custody.Left number) (step : custody.Step answers acts next)
    (sound : custody.Sound) (unlooked : next.looked = []) : next.Left number := by
  rcases left with ended | ⟨settled, away, apart⟩
  · exact .inl (ended.step step sound)
  refine .inr ⟨fun task found => settled task ((step.unmoved apart).symm.trans found),
    by rw [unlooked]; exact List.not_mem_nil, ?_⟩
  · have kept : ∀ {item others}, custody.items = item ::ₘ others → ∀ later ∈ others,
        later.task ≠ number :=
      fun held later behind => apart later (held ▸ Multiset.mem_cons_of_mem behind)
    have goesOn : ∀ {item later others}, custody.items = item ::ₘ others →
        later.task = item.task → ∀ other ∈ later ::ₘ others, other.task ≠ number := by
      intro item later others held same other member
      rcases Multiset.mem_cons.mp member with rfl | behind
      · exact same ▸ apart item (held ▸ Multiset.mem_cons_self _ _)
      · exact kept held other behind
    cases step with
    | look => cases unlooked
    | @collect looked rest task head found idle =>
      intro item member
      rcases Multiset.mem_add.mp member with new | old
      · obtain ⟨_, _, rfl⟩ := List.mem_map.mp (Multiset.mem_coe.mp new)
        rintro rfl
        exact away (head ▸ List.mem_cons_self)
      · exact apart item old
    | lose held | settle held => exact kept held
    | dispatch held | pass held | keepCounts held | keepValidation held => exact goesOn held rfl
    | _ => exact apart

end Custody

/-! ### Covered ledgers -/

/-- Whether a duty is to look at a task or to hand out its actions. -/
def Duty.seeks (number : Nat) : Duty → Bool
  | .look task | .collect task | .dispatch task _ => task == number
  | _ => false

theorem Duty.rank_of_seeks {number : Nat} {duty : Duty} (seeks : duty.seeks number = true) :
    duty.rank ≤ 2 := by
  cases duty <;> first | cases seeks | simp [Duty.rank]

namespace Ledger

/-- Whether a task is yet to be looked at. -/
def Sought (agenda : List Duty) (number : Nat) : Prop :=
  ∃ duty ∈ agenda, duty.seeks number = true

/-- Whether a task is yet to be looked at, or cannot go on. -/
def Minded (ledger : Ledger) (number : Nat) : Prop :=
  Sought ledger.agenda number ∨ ledger.custody.Settled number

/-- Whether no task is left behind. -/
structure Covered (ledger : Ledger) : Prop where
  led : (∃ duty ∈ ledger.agenda, duty.rank < 4) → ∃ duty ∈ ledger.agenda, duty.rank = 3
  finished : ∀ entry ∈ ledger.tables, entry.2.finished = true →
    ∀ number ∈ entry.2.tasks, ledger.custody.Ended number
  swept : .test ∈ ledger.agenda → ledger.Quiet → ∀ entry ∈ ledger.tables,
    entry.2.finished = false → ∀ number ∈ entry.2.tasks, ledger.Minded number
  left : (∀ duty ∈ ledger.agenda, duty.rank = 4) → ∀ number, ledger.tables.Has number →
    ledger.custody.Left number

variable {ledger next : Ledger} {answers answers' : Nat → Task → Action → Execution → Prop}
  {acts : List Act} {duty : Duty} {rest duties : List Duty}

/-- A pass that has begun will be tested. -/
theorem Step.led (step : ledger.Step answers acts next) (orderly : Duty.Orderly ledger.agenda)
    (led : (∃ duty ∈ ledger.agenda, duty.rank < 4) → ∃ duty ∈ ledger.agenda, duty.rank = 3) :
    (∃ duty ∈ next.agenda, duty.rank < 4) → ∃ duty ∈ next.agenda, duty.rank = 3 := by
  rintro ⟨early, planned, low⟩
  cases agenda : ledger.agenda with
  | nil =>
    rw [step.agenda_nil agenda] at planned
    cases planned
  | cons head rest =>
    obtain ⟨duties, after, replaces⟩ := step.agenda agenda
    rw [agenda] at orderly led
    rw [after] at planned ⊢
    have behind : early ∈ rest → head.rank ≤ early.rank ∧ (head.rank = 3 → early.rank ≠ 3) :=
      List.rel_of_pairwise_cons orderly
    by_cases three : head.rank = 3
    · rcases replaces.decides three with ⟨again, new, three'⟩ | ⟨four, _⟩
      · exact ⟨again, List.mem_append_left _ new, three'⟩
      · rcases List.mem_append.mp planned with new | old
        · have := four early new
          omega
        · have := behind old
          omega
    · have headLow : head.rank < 4 := by
        have bound := head.rank_le
        rcases List.mem_append.mp planned with new | old
        · by_contra four
          have := replaces.last (by omega) early new
          omega
        · have := behind old
          omega
      obtain ⟨deciding, there, three'⟩ := led ⟨head, List.mem_cons_self, headLow⟩
      rcases List.mem_cons.mp there with rfl | there
      · exact absurd three' three
      · exact ⟨deciding, List.mem_append_right _ there, three'⟩

theorem Step.finished (step : ledger.Step answers acts next) (sound : ledger.custody.Sound)
    (goes : ledger.custody.Step answers' acts next.custody)
    (finished : ∀ entry ∈ ledger.tables, entry.2.finished = true →
      ∀ number ∈ entry.2.tasks, ledger.custody.Ended number) :
    ∀ entry ∈ next.tables, entry.2.finished = true →
      ∀ number ∈ entry.2.tasks, next.custody.Ended number := by
  intro entry member done number among
  refine Custody.Ended.step ?_ goes sound
  cases step with
  | @judge rest key group head found =>
    simp only at member
    split at member
    · rename_i all
      rcases Keyed.eq_or_mem_of_mem_put member with rfl | old
      · exact ended_custody.mpr (List.all_eq_true.mp all number among)
      · exact finished entry old done number among
    · exact finished entry member done number among
  | _ => exact finished entry member done number among

theorem seeks_subject {number other : Nat} (about : duty.subject? = some other)
    (seeks : duty.seeks number = true) : other = number := by
  cases duty with
  | collect | dispatch =>
    cases about
    exact beq_iff_eq.mp seeks
  | submit | refuse => cases seeks
  | _ => cases about

theorem settled_of_absent {number : Nat} (absent : ledger.tasks[number]? = none) :
    ledger.custody.Settled number := by
  intro task found
  cases (custody_of_absent absent).symm.trans found

/-- The head of the agenda was the only thing that could look at a task, or others still can. -/
theorem sought_tail {number : Nat} (sought : Sought (duty :: rest) number) :
    duty.seeks number = true ∨ ∀ duties, Sought (duties ++ rest) number := by
  obtain ⟨other, planned, seeks⟩ := sought
  rcases List.mem_cons.mp planned with rfl | behind
  · exact .inl seeks
  · exact .inr fun duties => ⟨other, List.mem_append_right _ behind, seeks⟩

/-- When all is quiet, no job is open. -/
theorem Balanced.not_open (balanced : ledger.Balanced) (quiet : ledger.Quiet) {job : Job}
    {jobs : Multiset Job} (held : ledger.jobs = job ::ₘ jobs) : job.isOpen = false := by
  have idle := (balanced.quiet quiet).1
  by_contra opened
  refine Multiset.countP_eq_zero.mp idle job (held ▸ Multiset.mem_cons_self _ _) ?_
  simpa using opened

/-- A task that is minded stays so as long as nothing happens. -/
theorem Step.minded {number : Nat} (step : ledger.Step answers acts next)
    (balanced : ledger.Balanced) (calm : ledger.Quiet) (quiet : next.Quiet)
    (minded : ledger.Minded number) : next.Minded number := by
  have popped : ∀ {duty rest} (duties : List Duty), ledger.agenda = duty :: rest →
      duty.seeks number = true ∨ Sought (duties ++ rest) number ∨
        ledger.custody.Settled number := by
    intro duty rest duties head
    rcases minded with sought | settled
    · rw [head] at sought
      exact (sought_tail sought).imp id fun still => .inl (still duties)
    · exact .inr (.inr settled)
  have blind : ∀ {duty rest} (duties : List Duty), ledger.agenda = duty :: rest →
      duty.seeks number = false →
      Sought (duties ++ rest) number ∨ ledger.custody.Settled number := by
    intro duty rest duties head never
    refine (popped duties head).resolve_left fun seeks => ?_
    rw [never] at seeks
    cases seeks
  have handed : ∀ {duty rest}, ledger.agenda = duty :: rest → duty.isHanding = true → False := by
    intro duty rest head handing
    have idle := (balanced.quiet calm).2 duty (head ▸ List.mem_cons_self)
    rw [handing] at idle
    cases idle
  have opened : ∀ {job jobs}, ledger.jobs = job ::ₘ jobs → job.isOpen = true → False := by
    intro job jobs held opened
    have closed := balanced.not_open calm held
    rw [opened] at closed
    cases closed
  cases step with
  | lookEnded head ended =>
    rcases popped [] head with seeks | still
    · rw [beq_iff_eq.mp seeks] at ended
      exact .inr (Custody.Ended.settled (ended_custody.mpr ended))
    · exact still
  | lookOn head going =>
    rcases popped [.collect _] head with seeks | still
    · exact .inl ⟨_, List.mem_cons_self, seeks⟩
    · exact still
  | absent head about absent =>
    rcases popped [] head with seeks | still
    · exact .inr (settled_of_absent (seeks_subject about seeks ▸ absent))
    · exact still
  | @collect rest other task head found =>
    rcases popped (task.readyActions.map (.dispatch other)) head with seeks | still
    · cases ready : task.readyActions with
      | nil =>
        refine .inr fun heard found' => .inr ?_
        rw [← beq_iff_eq.mp seeks] at found'
        cases (custody_of_found found).symm.trans found'
        exact ready
      | cons action others => exact .inl ⟨_, List.mem_cons_self, seeks⟩
    · exact still
  | dispatch => exact absurd quiet.1 (Nat.succ_ne_zero _)
  | countIn head | submit head | turnAway head | refuse head | countOut head =>
    exact (handed head rfl).elim
  | judgeNothing head | judge head => exact blind [] head rfl
  | aside head isAside =>
    refine blind [] head ?_
    rename_i duty
    cases duty <;> first | rfl | cases isAside
  | unlisten head listed =>
    refine (blind [] head rfl).imp id fun settled task found => settled task ?_
    rw [← found]
    exact (Task.deaf_unlisten listed ledger.tasks number).symm
  | beginPass head | testDone head | testStuck head => exact blind _ head rfl
  | testOn head | wait head => exact blind [_] head rfl
  | take => exact minded
  | execute job | keepCounts job | keepValidation job | report job | complete job =>
    exact (opened job rfl).elim
  | follow job follows =>
    refine (opened job ?_).elim
    cases follows <;> rfl
  | leave job => exact minded

/-- The test of a pass is planned when the pass begins. -/
theorem Step.testing (step : ledger.Step answers acts next) (testing : .test ∈ next.agenda) :
    .test ∈ ledger.agenda ∨ ∃ rest, next.agenda = Duty.pass ledger.tables ++ rest := by
  have later : ∀ {duty rest duties}, ledger.agenda = duty :: rest →
      (∀ other ∈ duties, other.rank ≠ 3) → .test ∈ duties ++ rest → .test ∈ ledger.agenda := by
    intro duty rest duties head none testing
    rcases List.mem_append.mp testing with new | old
    · exact absurd rfl (none _ new)
    · exact head ▸ List.mem_cons_of_mem _ old
  have low : ∀ {duties : List Duty}, (∀ duty ∈ duties, duty.rank = 0) →
      ∀ duty ∈ duties, duty.rank ≠ 3 := fun all duty member three => by
    rw [all duty member] at three
    cases three
  cases step with
  | beginPass => exact .inr ⟨_, rfl⟩
  | lookOn head =>
    have two : ∀ {number}, (Duty.collect number).rank ≠ 3 := nofun
    exact .inl (later head (List.forall_mem_singleton.mpr two) testing)
  | collect head => exact .inl (later head (low fun _ => Duty.rank_dispatches) testing)
  | dispatch head => exact .inl (later head (low fun _ => Duty.rank_handing) testing)
  | turnAway head => exact .inl (later head (low fun _ => Duty.rank_refusing) testing)
  | refuse head => exact .inl (later head (low fun _ => Duty.rank_follow) testing)
  | testDone head | testStuck head | testOn head => exact .inl (head ▸ List.mem_cons_self)
  | wait head =>
    rcases List.mem_cons.mp testing with same | behind
    · cases same
    · exact .inl (head ▸ List.mem_cons_of_mem _ behind)
  | lookEnded head | absent head | countIn head | submit head | countOut head | judgeNothing head
  | judge head | aside head | unlisten head =>
    exact .inl (head ▸ List.mem_cons_of_mem _ testing)
  | take | execute | keepCounts | keepValidation | report | follow | complete | leave =>
    exact .inl testing

/-- An unfinished group was there before. -/
theorem Step.unfinished {entry : String × TableGroup} (step : ledger.Step answers acts next)
    (member : entry ∈ next.tables) (going : entry.2.finished = false) : entry ∈ ledger.tables := by
  cases step with
  | judge head found =>
    simp only at member
    split at member
    · rcases Keyed.eq_or_mem_of_mem_put member with rfl | old
      · cases going
      · exact old
    · exact member
  | _ => exact member

/-- No task is forgotten in a pass in which nothing happens. -/
theorem Step.swept (step : ledger.Step answers acts next) (balanced : ledger.Balanced)
    (swept : .test ∈ ledger.agenda → ledger.Quiet → ∀ entry ∈ ledger.tables,
      entry.2.finished = false → ∀ number ∈ entry.2.tasks, ledger.Minded number)
    (testing : .test ∈ next.agenda) (quiet : next.Quiet) : ∀ entry ∈ next.tables,
      entry.2.finished = false → ∀ number ∈ entry.2.tasks, next.Minded number := by
  intro entry member going number among
  have old := step.unfinished member going
  have looks : (∃ rest, next.agenda = Duty.pass ledger.tables ++ rest) → next.Minded number := by
    rintro ⟨rest, after⟩
    refine .inl ⟨.look number, ?_, beq_self_eq_true number⟩
    rw [after]
    refine List.mem_append_left _ (List.mem_append_left _ (List.mem_flatMap.mpr ⟨entry, ?_, ?_⟩))
    · exact List.mem_filter.mpr ⟨old, by rw [going]; rfl⟩
    · exact List.mem_append_left _ (List.mem_map_of_mem among)
  rcases step.quiet balanced quiet with calm | begins
  · rcases step.testing testing with tested | begins
    · exact step.minded balanced calm quiet (swept tested calm entry old going number among)
    · exact looks begins
  · exact looks begins

/-- Nothing is on its way when all is quiet and only a test is to be made. -/
theorem items_of_quiet (balanced : ledger.Balanced) (quiet : ledger.Quiet)
    (late : ∀ duty ∈ ledger.agenda, 1 ≤ duty.rank) : ledger.custody.items = 0 := by
  refine Multiset.eq_zero_of_forall_notMem fun item member => ?_
  rcases mem_items.mp member with ⟨duty, planned, bring⟩ | ⟨job, held, bring⟩
  · rw [Duty.item?_of_rank (late duty planned)] at bring
    cases bring
  · obtain ⟨jobs, split⟩ := Multiset.exists_cons_of_mem held
    have closed := balanced.not_open quiet split
    obtain ⟨_, _, stage⟩ := job
    cases stage <;> first | (cases closed; done) | cases bring

/-- What belongs to a group did so before. -/
theorem Step.grouped {number : Nat} (step : ledger.Step answers acts next)
    (has : next.tables.Has number) : ledger.tables.Has number := by
  cases step with
  | judge head found =>
    obtain ⟨entry, member, among⟩ := has
    simp only at member
    split at member
    · rcases Keyed.eq_or_mem_of_mem_put member with rfl | old
      · exact ⟨_, Keyed.mem_of_get? found, among⟩
      · exact ⟨entry, old, among⟩
    · exact ⟨entry, member, among⟩
  | _ => exact has

/-- Tables are judged, and never dropped. -/
theorem Step.has {number : Nat} (step : ledger.Step answers acts next)
    (has : ledger.tables.Has number) : next.tables.Has number := by
  cases step with
  | judge head found =>
    obtain ⟨entry, member, among⟩ := has
    simp only
    split
    · rcases Keyed.mem_put_or _ _ member with kept | same
      · exact ⟨entry, kept, among⟩
      · cases found.symm.trans same
        exact ⟨_, Keyed.mem_put_self _ _ _, among⟩
    · exact ⟨entry, member, among⟩
  | _ => exact has

theorem unlooked_of_closing (closing : ∀ duty ∈ ledger.agenda, duty.rank = 4) :
    ledger.custody.looked = [] := by
  refine List.filterMap_eq_nil_iff.mpr fun duty planned => ?_
  exact (Duty.plain_of_rank (by rw [closing duty planned]; decide)).2

/-- When the last pass was tested, no task can go on. -/
theorem Covered.left_of_test (covered : ledger.Covered) (balanced : ledger.Balanced)
    (orderly : Duty.Orderly ledger.agenda) (head : ledger.agenda = .test :: rest)
    (ends : ledger.tables.unfinished = [] ∨ ledger.Quiet) {number : Nat}
    (has : ledger.tables.Has number) : ledger.custody.Left number := by
  have late : ∀ duty ∈ ledger.agenda, 3 ≤ duty.rank := by
    rw [head] at orderly ⊢
    intro duty planned
    rcases List.mem_cons.mp planned with rfl | behind
    · exact Nat.le_refl 3
    · exact orderly.behind behind
  obtain ⟨entry, member, among⟩ := has
  by_cases done : entry.2.finished = true
  · exact .inl (covered.finished entry member done number among)
  rw [Bool.not_eq_true] at done
  rcases ends with empty | quiet
  · have open_ : entry ∈ ledger.tables.unfinished := List.mem_filter.mpr ⟨member, by rw [done]; rfl⟩
    rw [empty] at open_
    cases open_
  · rcases covered.swept (head ▸ List.mem_cons_self) quiet entry member done number among with
      ⟨duty, planned, seeks⟩ | settled
    · have early := Duty.rank_of_seeks seeks
      have := late duty planned
      omega
    · have away : ledger.custody.items = 0 := items_of_quiet balanced quiet fun duty planned =>
        Nat.le_trans (by decide) (late duty planned)
      have unlooked : ledger.custody.looked = [] := unlooked_of_orderly head orderly (by decide)
      refine .inr ⟨settled, by rw [unlooked]; exact List.not_mem_nil, fun item present => ?_⟩
      rw [away] at present
      exact absurd present (Multiset.notMem_zero item)

/-- The last pass ends with a test. -/
theorem Step.closes (step : ledger.Step answers acts next)
    (led : (∃ duty ∈ ledger.agenda, duty.rank < 4) → ∃ duty ∈ ledger.agenda, duty.rank = 3)
    (closing : ∀ duty ∈ next.agenda, duty.rank = 4) : (∀ duty ∈ ledger.agenda, duty.rank = 4) ∨
      ∃ rest, ledger.agenda = .test :: rest ∧ next.tasks = ledger.tasks ∧
        (ledger.tables.unfinished = [] ∨ ledger.Quiet) := by
  by_cases all : ∀ duty ∈ ledger.agenda, duty.rank = 4
  · exact .inl all
  have early : ∃ duty ∈ ledger.agenda, duty.rank < 4 := by
    by_contra none
    refine all fun duty planned => ?_
    have bound := duty.rank_le
    by_contra apart
    exact none ⟨duty, planned, by omega⟩
  obtain ⟨deciding, planned, three⟩ := led early
  -- the duty that decides about the pass was still there, so it was the test that ended the pass
  have kept : deciding ∉ next.agenda := fun still => by
    rw [closing deciding still] at three
    cases three
  have popped : ∀ {duty rest} (duties : List Duty), ledger.agenda = duty :: rest →
      duty.rank ≠ 3 → next.agenda ≠ duties ++ rest := by
    intro duty rest duties head apart after
    rw [head] at planned
    rcases List.mem_cons.mp planned with rfl | behind
    · exact absurd three apart
    · exact absurd (after ▸ List.mem_append_right _ behind) kept
  cases step with
  | testDone head done => exact .inr ⟨_, head, rfl, .inl done⟩
  | testStuck head stuck => exact .inr ⟨_, head, rfl, .inr stuck⟩
  | beginPass =>
    cases closing .test (List.mem_append_left _ (Duty.test_mem_pass ledger.tables))
  | testOn | wait => cases closing _ List.mem_cons_self
  | lookEnded head | countIn head | submit head | countOut head | judgeNothing head | judge head
  | unlisten head => exact absurd rfl (popped [] head nofun)
  | lookOn head => exact absurd rfl (popped [_] head nofun)
  | turnAway head => exact absurd rfl (popped [_, _] head nofun)
  | collect head => exact absurd rfl (popped _ head (Nat.ne_of_lt (by simp [Duty.rank])))
  | refuse head => exact absurd rfl (popped _ head (Nat.ne_of_lt (by simp [Duty.rank])))
  | dispatch head => exact absurd rfl (popped _ head (Nat.ne_of_lt (by simp [Duty.rank])))
  | absent head about => exact absurd rfl (popped [] head (Duty.rank_of_subject about))
  | aside head isAside => exact absurd rfl (popped [] head (Duty.rank_of_isAside isAside))
  | take | execute | keepCounts | keepValidation | report | follow | complete | leave =>
    exact absurd planned kept

/-- Once no pass is to come, no task can go on. -/
theorem Step.left (step : ledger.Step answers acts next) (orderly : Duty.Orderly ledger.agenda)
    (balanced : ledger.Balanced) (sound : ledger.custody.Sound)
    (goes : ledger.custody.Step answers' acts next.custody) (covered : ledger.Covered)
    (closing : ∀ duty ∈ next.agenda, duty.rank = 4) {number : Nat}
    (has : next.tables.Has number) : next.custody.Left number := by
  refine Custody.Left.step ?_ goes sound (unlooked_of_closing closing)
  have has := step.grouped has
  rcases step.closes covered.led closing with all | ⟨rest, head, _, ends⟩
  · exact covered.left all number has
  · exact covered.left_of_test balanced orderly head ends has

/-- **No task is left behind by a step.** -/
theorem Step.covered (step : ledger.Step answers acts next) (orderly : Duty.Orderly ledger.agenda)
    (balanced : ledger.Balanced) (sound : ledger.custody.Sound)
    (goes : ledger.custody.Step answers' acts next.custody) (covered : ledger.Covered) :
    next.Covered where
  led := step.led orderly covered.led
  finished := step.finished sound goes covered.finished
  swept := step.swept balanced covered.swept
  left closing _ := step.left orderly balanced sound goes covered closing

end Ledger

end TableMigration
