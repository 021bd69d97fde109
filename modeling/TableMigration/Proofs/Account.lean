/-
**Where the actions of fresh tasks stand.**

* `Task.Summed` — the progress of a task is what its actions make of it: it has failed iff one of
  them has, succeeded iff it has actions and all have succeeded, and is new iff all are.
* `Custody.Accounted` — an action that runs is on its way, and one that has ended was executed with
  this result, or was refused. `Custody.Tiered` — actions of one priority are handed out together.
  Both may be asked of some actions only.
* `Custody.Step.accounted`, `Custody.Step.tiered`, `Custody.Step.summed` — every step keeps to it.
-/

import TableMigration.Proofs.Conduct

namespace TableMigration

/-! ### The progress of a task -/

namespace Task

variable {task : Task} {action other : Action} {reported : Progress}

/-- Whether the progress of a task is what its actions make of it. -/
structure Summed (task : Task) : Prop where
  failed : task.progress = .failed ↔ ∃ action, task.actionProgress action = some .failed
  succeeded : task.progress = .succeeded ↔ (∃ action, task.has action = true) ∧
    ∀ action progress, task.actionProgress action = some progress → progress = .succeeded
  new : task.progress = .new ↔
    ∀ action progress, task.actionProgress action = some progress → progress = .new

theorem Summed.not_new (summed : task.Summed) {progress : Progress}
    (found : task.actionProgress action = some progress) (begun : progress ≠ .new) :
    task.progress ≠ .new :=
  fun new => begun (summed.new.mp new action progress found)

theorem Summed.judged (summed : task.Summed) : task.Judged :=
  ⟨summed.failed, summed.succeeded⟩

/-- The progress of a task follows when an action is reported on that has begun or begins. -/
theorem Summed.update (summed : task.Summed) (taken : task.Takes action reported)
    (begun : reported ≠ .new)
    (running : reported = .succeeded → task.actionProgress action = some .running) :
    (task.update action reported).task.Summed := by
  have judged := summed.judged.update action reported
  have found : (task.update action reported).task.actionProgress action = some reported := by
    rw [actionProgress_update taken, if_pos rfl]
  suffices old : (task.update action reported).task.progress ≠ .new from
    ⟨judged.failed, judged.succeeded, fun new => absurd new old,
      fun all => absurd (all action reported found) begun⟩
  by_cases past : task.progress = .failed
  · rw [progress_update_of_ended (by rw [past]; rfl), past]
    nofun
  have going := summed.judged.going taken past
  cases reported with
  | new => exact absurd rfl begun
  | failed => rw [progress_update_failed taken going]; nofun
  | running => rw [progress_update_running taken going]; nofun
  | succeeded =>
    rw [progress_update_succeeded taken going]
    split
    · nofun
    · exact summed.not_new (running rfl) nofun

theorem Summed.of_same {after : Task} (summed : task.Summed)
    (same : after.progress = task.progress)
    (actions : ∀ action, after.actionProgress action = task.actionProgress action) :
    after.Summed := by
  have judged := summed.judged.of_same same actions
  refine ⟨judged.failed, judged.succeeded, ?_⟩
  simp only [same, actions]
  exact summed.new

theorem Summed.withCounts (summed : task.Summed) (action : Action) (execution : Execution) :
    (task.withCounts action execution).Summed :=
  summed.of_same (progress_withCounts task action execution)
    fun other => actionProgress_withCounts task action other execution

theorem Summed.withValidation (summed : task.Summed) (execution : Execution) :
    (task.withValidation execution).Summed :=
  summed.of_same (progress_withValidation task execution)
    fun other => actionProgress_withValidation task other execution

end Task

/-! ### Accounts of actions -/

namespace Custody

variable {custody next : Custody} {answers : Nat → Task → Action → Execution → Prop}
  {acts new : List Act} {others : Multiset Item} {among : Nat → Action → Prop}

/-- What explains the progress of an action. -/
def Explains (custody : Custody) (acts : List Act) (number : Nat) (action : Action) :
    Progress → Prop
  | .new => True
  | .running => ∃ station, station ≠ .due ∧ ⟨number, action, station⟩ ∈ custody.items
  | .succeeded => ∃ execution, .executed number action execution ∈ acts ∧
    execution.progress = .succeeded
  | .failed => .refused number action ∈ acts ∨
    ∃ execution, .executed number action execution ∈ acts ∧ execution.progress = .failed

/-- Whether the progress of every action of some sort is explained. -/
def Accounted (among : Nat → Action → Prop) (custody : Custody) (acts : List Act) : Prop :=
  ∀ number action task progress, among number action → custody.tasks number = some task →
    task.actionProgress action = some progress → custody.Explains acts number action progress

theorem Explains.step {number : Nat} {action : Action} {progress : Progress}
    (explains : custody.Explains acts number action progress)
    (items : ∀ station, station ≠ .due → ⟨number, action, station⟩ ∈ custody.items →
      ⟨number, action, station⟩ ∈ next.items) :
    next.Explains (acts ++ new) number action progress := by
  cases progress with
  | new => trivial
  | running =>
    obtain ⟨station, out, member⟩ := explains
    exact ⟨station, out, items station out member⟩
  | succeeded =>
    obtain ⟨execution, executed, result⟩ := explains
    exact ⟨execution, List.mem_append_left _ executed, result⟩
  | failed =>
    rcases explains with refused | ⟨execution, executed, result⟩
    · exact .inl (List.mem_append_left _ refused)
    · exact .inr ⟨execution, List.mem_append_left _ executed, result⟩

/-- Where no task changes, everything stays explained. -/
theorem Accounted.still (accounted : custody.Accounted among acts)
    (same : next.tasks = custody.tasks) (items : ∀ item ∈ custody.items, item ∈ next.items) :
    next.Accounted among (acts ++ new) := by
  intro number action task progress mine found now
  rw [same] at found
  exact (accounted number action task progress mine found now).step fun _ _ => items _

/-- When one action goes on, it is left to explain this one. -/
theorem Accounted.move {number : Nat} {action : Action} {station : Station} {task changed : Task}
    {items : Multiset Item} (accounted : custody.Accounted among acts)
    (held : custody.items = ⟨number, action, station⟩ ::ₘ others)
    (kept : ∀ item ∈ others, item ∈ items) (found : custody.tasks number = some task)
    (alone : ∀ other, other ≠ action → changed.actionProgress other = task.actionProgress other)
    (mine : ∀ progress, changed.actionProgress action = some progress →
      Explains { custody.setTask number changed with items := items } (acts ++ new) number action
        progress) :
    Accounted among { custody.setTask number changed with items := items } (acts ++ new) := by
  intro other act after progress sort found' now
  have persists : (other, act) ≠ (number, action) → ∀ station', station' ≠ .due →
      (⟨other, act, station'⟩ : Item) ∈ custody.items → ⟨other, act, station'⟩ ∈ items := by
    intro apart station' _ member
    rw [held] at member
    rcases Multiset.mem_cons.mp member with same | behind
    · exact absurd (congrArg Item.key same) apart
    · exact kept _ behind
  by_cases equal : other = number
  · subst equal
    cases (if_pos rfl).symm.trans found'
    by_cases same : act = action
    · subst same
      exact mine progress now
    · rw [alone act same] at now
      exact (accounted other act task progress sort found now).step
        (persists fun key => same (congrArg Prod.snd key))
  · have found' : custody.tasks other = some after := (if_neg equal).symm.trans found'
    exact (accounted other act after progress sort found' now).step
      (persists fun key => equal (congrArg Prod.fst key))

/-- An action that is running is explained by where it is. -/
theorem explains_running {number : Nat} {action : Action} {station : Station} {progress : Progress}
    (member : ⟨number, action, station⟩ ∈ custody.items) (out : station ≠ .due)
    (running : some Progress.running = some progress) :
    custody.Explains acts number action progress := by
  cases running
  exact ⟨station, out, member⟩

/-- What was told about an action explains its result. -/
theorem Tells.explains {number : Nat} {action : Action} {station : Station} {result : Progress}
    (tells : custody.Tells acts) (sound : custody.Sound)
    (member : ⟨number, action, station⟩ ∈ custody.items)
    (reported : station.result? = some result) : next.Explains acts number action result := by
  obtain ⟨allowed, story, fits, _⟩ := tells number action
  have fits := fits station member
  have told : ∀ {act}, act ∈ Act.about number action acts → act ∈ acts :=
    fun told => (Act.mem_about.mp told).1
  cases station <;> cases reported
  · have about := story.of_refused fits
    exact .inl (told (about ▸ List.mem_cons_of_mem _ List.mem_cons_self))
  · rename_i execution
    have about := story.of_execution fits rfl
    have executed : .executed number action execution ∈ acts :=
      told (about ▸ List.mem_cons_of_mem _ List.mem_cons_self)
    have final := sound.final _ member execution rfl
    cases result : execution.progress with
    | succeeded => exact ⟨execution, executed, result⟩
    | failed => exact .inr ⟨execution, executed, result⟩
    | new | running =>
      rw [result] at final
      cases final

/-- An action whose result is known runs and takes it. -/
theorem Sound.takes_result {number : Nat} {action : Action} {station : Station} {result : Progress}
    {task : Task} (sound : custody.Sound)
    (held : custody.items = ⟨number, action, station⟩ ::ₘ others)
    (found : custody.tasks number = some task) (reported : station.result? = some result) :
    task.Takes action result := by
  have final := forward_of_result (sound.final _ (held ▸ Multiset.mem_cons_self _ _)) reported
  refine sound.takes held found ?_
  rw [progress_of_result reported]
  rintro rfl
  cases final

/-- **Every step keeps the accounts.** -/
theorem Step.accounted (step : custody.Step answers new next) (sound : custody.Sound)
    (tells : custody.Tells acts) (accounted : custody.Accounted among acts) :
    next.Accounted among (acts ++ new) := by
  have goesOn : ∀ {number action station later others task changed new},
      custody.items = ⟨number, action, station⟩ ::ₘ others →
      custody.tasks number = some task → later ≠ .due →
      (∀ other, other ≠ action → changed.actionProgress other = task.actionProgress other) →
      changed.actionProgress action = some .running →
      Accounted among
        { custody.setTask number changed with items := ⟨number, action, later⟩ ::ₘ others }
        (acts ++ new) := by
    intro number action station later others task changed new held found out alone running
    refine accounted.move held (fun _ => Multiset.mem_cons_of_mem) found alone
      fun progress now => ?_
    rw [running] at now
    exact explains_running (Multiset.mem_cons_self _ _) out now
  cases step with
  | quiet | findEnded | look | miss => exact accounted.still rfl fun _ => id
  | collect => exact accounted.still rfl fun _ member => Multiset.mem_add.mpr (.inr member)
  | lose held absent => exact absurd absent (sound.not_lost held)
  | dispatch held found =>
    have taken : Task.Takes _ _ .running := sound.takes held found nofun
    refine goesOn held found nofun alone_update ?_
    rw [Task.actionProgress_update taken, if_pos rfl]
  | @pass number action station _ later task others held found passes =>
    have stays : Accounted among { custody.setTask number task with
        items := ⟨number, action, later⟩ ::ₘ others } (acts ++ new) := by
      refine goesOn held found (by cases passes <;> exact nofun) (fun _ _ => rfl) ?_
      rw [(sound.held held found).1]
      cases passes <;> rfl
    rwa [setTask_self found] at stays
  | keepCounts held found =>
    refine goesOn held found nofun (fun _ _ => Task.actionProgress_withCounts ..) ?_
    rw [Task.actionProgress_withCounts, (sound.held held found).1]
    rfl
  | keepValidation held found =>
    refine goesOn held found nofun (fun _ _ => Task.actionProgress_withValidation ..) ?_
    rw [Task.actionProgress_withValidation, (sound.held held found).1]
    rfl
  | @settle number action station result task others held found reported =>
    have member : ⟨number, action, station⟩ ∈ custody.items := held ▸ Multiset.mem_cons_self _ _
    refine accounted.move held (fun _ => id) found alone_update fun progress now => ?_
    have taken := sound.takes_result held found reported
    rw [Task.actionProgress_update taken, if_pos rfl] at now
    cases now
    rw [List.append_nil]
    exact tells.explains sound member reported

/-! ### Tiers -/

/-- Whether actions of some sort and one priority are handed out together. -/
def Tiered (among : Nat → Action → Prop) (custody : Custody) : Prop :=
  ∀ number task action other, among number action → among number other →
    custody.tasks number = some task → action.priority = other.priority →
    task.actionProgress action = some .new →
    (⟨number, other, .due⟩ ∈ custody.items ∨
      ∃ progress, task.actionProgress other = some progress ∧ progress ≠ .new) →
    ⟨number, action, .due⟩ ∈ custody.items

/-- When one action that was not due goes on, the tiers stay. -/
theorem Tiered.move {number : Nat} {action : Action} {station : Station} {task changed : Task}
    {items : Multiset Item} (tiered : custody.Tiered among)
    (held : custody.items = ⟨number, action, station⟩ ::ₘ others) (out : station ≠ .due)
    (running : ∃ progress, task.actionProgress action = some progress ∧ progress ≠ .new)
    (due : ∀ number action, ⟨number, action, .due⟩ ∈ items ↔ ⟨number, action, .due⟩ ∈ others)
    (found : custody.tasks number = some task)
    (alone : ∀ other, other ≠ action → changed.actionProgress other = task.actionProgress other)
    (begun : changed.actionProgress action ≠ some .new) :
    Tiered among { custody.setTask number changed with items := items } := by
  intro place after act other mine its found' tier new beside
  have old : ∀ number action, ⟨number, action, .due⟩ ∈ items ↔
      ⟨number, action, .due⟩ ∈ custody.items := by
    intro number' action'
    rw [due, held, Multiset.mem_cons]
    refine ⟨.inr, fun member => member.resolve_left fun same => ?_⟩
    exact out (congrArg Item.station same).symm
  refine (old place act).mpr ?_
  by_cases equal : place = number
  · subst equal
    cases (if_pos rfl).symm.trans found'
    have apart : act ≠ action := by
      rintro rfl
      exact begun new
    rw [alone act apart] at new
    refine tiered place task act other mine its found tier new (beside.imp (old place other).mp ?_)
    rintro ⟨progress, now, past⟩
    by_cases same : other = action
    · exact same ▸ running
    · exact ⟨progress, alone other same ▸ now, past⟩
  · have found' : custody.tasks place = some after := (if_neg equal).symm.trans found'
    exact tiered place after act other mine its found' tier new (beside.imp (old place other).mp id)

/-- Handing out one action leaves the others of its tier due. -/
theorem Tiered.dispatch {number : Nat} {action : Action} {task : Task}
    (tiered : custody.Tiered among) (sound : custody.Sound)
    (held : custody.items = ⟨number, action, .due⟩ ::ₘ others)
    (found : custody.tasks number = some task) :
    Tiered among { custody.setTask number (task.update action .running).task with
      items := ⟨number, action, .offered⟩ ::ₘ others } := by
  intro place after act other mine its found' tier new beside
  have member : ⟨number, action, .due⟩ ∈ custody.items := held ▸ Multiset.mem_cons_self _ _
  have old : ∀ {act}, (⟨place, act, .due⟩ : Item) ∈ (⟨number, action, .offered⟩ ::ₘ others :
      Multiset Item) → ⟨place, act, .due⟩ ∈ custody.items := by
    intro act there
    rcases Multiset.mem_cons.mp there with same | behind
    · cases congrArg Item.station same
    · exact held ▸ Multiset.mem_cons_of_mem behind
  by_cases equal : place = number
  · subst equal
    cases (if_pos rfl).symm.trans found'
    have taken : task.Takes action .running := sound.takes held found nofun
    have apart : act ≠ action := by
      rintro rfl
      rw [Task.actionProgress_update taken, if_pos rfl] at new
      cases new
    rw [alone_update act apart] at new
    have due : ⟨place, act, .due⟩ ∈ custody.items := by
      refine tiered place task act other mine its found tier new ?_
      rcases beside with there | ⟨progress, now, past⟩
      · exact .inl (old there)
      · by_cases same : other = action
        · exact .inl (same ▸ member)
        · exact .inr ⟨progress, alone_update other same ▸ now, past⟩
    rw [held] at due
    rcases Multiset.mem_cons.mp due with same | behind
    · exact absurd (congrArg Item.action same) apart
    · exact Multiset.mem_cons_of_mem behind
  · have found' : custody.tasks place = some after := (if_neg equal).symm.trans found'
    have due := tiered place after act other mine its found' tier new (beside.imp old id)
    rw [held] at due
    rcases Multiset.mem_cons.mp due with same | behind
    · exact absurd (congrArg Item.task same) equal
    · exact Multiset.mem_cons_of_mem behind

/-- A tier is collected as a whole. -/
theorem Tiered.collect {number : Nat} {task : Task} {rest : List Nat}
    (tiered : custody.Tiered among) (idle : custody.Idle)
    (found : custody.tasks number = some task) :
    Tiered among { custody with
      looked := rest
      items := (task.readyActions.map (Item.mk number · .due) : List Item) + custody.items } := by
  intro place other act beside mine its found' tier new also
  have undue : ∀ {action}, ⟨place, action, .due⟩ ∉ custody.items :=
    fun member => idle _ member rfl
  rcases also with there | begun
  · rcases Multiset.mem_add.mp there with ready | old
    · obtain ⟨action, ready, same⟩ := List.mem_map.mp (Multiset.mem_coe.mp ready)
      cases same
      have found' : custody.tasks number = some other := found'
      rw [found] at found'
      cases found'
      have cleared := (Task.isReady_iff.mp (Task.mem_readyActions.mp ready)).2
      have ready' : act ∈ task.readyActions := Task.mem_readyActions.mpr
        (Task.isReady_iff.mpr ⟨new, fun lower under => cleared lower (tier ▸ under)⟩)
      exact Multiset.mem_add.mpr (.inl (Multiset.mem_coe.mpr (List.mem_map_of_mem ready')))
    · exact absurd old undue
  · exact absurd (tiered place other act beside mine its found' tier new (.inr begun)) undue

/-- **Every step keeps the tiers.** -/
theorem Step.tiered (step : custody.Step answers new next) (sound : custody.Sound)
    (tiered : custody.Tiered among) : next.Tiered among := by
  have due_cons : ∀ {number action later} {others : Multiset Item}, later ≠ .due →
      ∀ place act, (⟨place, act, .due⟩ : Item) ∈ (⟨number, action, later⟩ ::ₘ others :
        Multiset Item) ↔ ⟨place, act, .due⟩ ∈ others := by
    intro number action later others out place act
    rw [Multiset.mem_cons]
    refine ⟨fun member => member.resolve_left fun same => ?_, .inr⟩
    exact out (congrArg Item.station same).symm
  have running : ∀ {number action station others task},
      custody.items = ⟨number, action, station⟩ ::ₘ others → custody.tasks number = some task →
      station.progress = .running →
      ∃ progress, task.actionProgress action = some progress ∧ progress ≠ .new :=
    fun held found goes => ⟨_, (sound.held held found).1, by rw [goes]; exact nofun⟩
  have same : ∀ {number action station others} {task changed : Task},
      custody.items = ⟨number, action, station⟩ ::ₘ others → custody.tasks number = some task →
      station.progress = .running →
      changed.actionProgress action = task.actionProgress action →
      changed.actionProgress action ≠ some .new := by
    intro number action station others task changed held found goes equal new
    rw [equal, (sound.held held found).1] at new
    rw [show station.progress = .new from Option.some.inj new] at goes
    cases goes
  cases step with
  | quiet | findEnded | look | miss => exact tiered
  | collect head found idle => exact tiered.collect idle found
  | lose held absent => exact absurd absent (sound.not_lost held)
  | dispatch held found => exact tiered.dispatch sound held found
  | @pass number action station _ later task others held found passes =>
    have goes : station.progress = .running := by cases passes <;> rfl
    have stays : Tiered among { custody.setTask number task with
        items := ⟨number, action, later⟩ ::ₘ others } :=
      tiered.move held (by cases passes <;> exact nofun) (running held found goes)
        (due_cons (by cases passes <;> exact nofun)) found (fun _ _ => rfl)
        (same held found goes rfl)
    rwa [setTask_self found] at stays
  | keepCounts held found =>
    exact tiered.move held nofun (running held found rfl) (due_cons nofun) found
      (fun _ _ => Task.actionProgress_withCounts ..)
      (same held found rfl (Task.actionProgress_withCounts ..))
  | keepValidation held found =>
    exact tiered.move held nofun (running held found rfl) (due_cons nofun) found
      (fun _ _ => Task.actionProgress_withValidation ..)
      (same held found rfl (Task.actionProgress_withValidation ..))
  | @settle number action station result task others held found reported =>
    have goes := progress_of_result reported
    have taken := sound.takes_result held found reported
    refine tiered.move held ?_ (running held found goes) (fun _ _ => .rfl) found alone_update ?_
    · rintro rfl
      cases reported
    · rw [Task.actionProgress_update taken, if_pos rfl]
      have final := forward_of_result (sound.final _ (held ▸ Multiset.mem_cons_self _ _)) reported
      exact fun new => ne_new_of_isTerminal final (Option.some.inj new)

/-! ### Sums -/

/-- **Every step keeps the progress of the tasks in line with their actions.** -/
theorem Step.summed (step : custody.Step answers new next) (sound : custody.Sound)
    (summed : ∀ number task, custody.tasks number = some task → task.Summed) :
    ∀ number task, next.tasks number = some task → task.Summed := by
  have set : ∀ {number task}, Task.Summed task → ∀ other after,
      (custody.setTask number task).tasks other = some after → after.Summed := by
    intro number task new other after found
    by_cases equal : other = number
    · cases (if_pos equal).symm.trans found
      exact new
    · exact summed other after ((if_neg equal).symm.trans found)
  cases step with
  | quiet | findEnded | look | miss | collect | lose | pass => exact summed
  | dispatch held found =>
    have taken : Task.Takes _ _ .running := sound.takes held found nofun
    exact set ((summed _ _ found).update taken nofun nofun)
  | keepCounts held found => exact set ((summed _ _ found).withCounts _ _)
  | keepValidation held found => exact set ((summed _ _ found).withValidation _)
  | settle held found reported =>
    have final := forward_of_result (sound.final _ (held ▸ Multiset.mem_cons_self _ _)) reported
    refine set ((summed _ _ found).update (sound.takes_result held found reported)
      (ne_new_of_isTerminal final) fun _ => ?_)
    rw [(sound.held held found).1, progress_of_result reported]

end Custody

end TableMigration
