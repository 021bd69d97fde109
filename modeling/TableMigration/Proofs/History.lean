/-
**What the acts so far say.**

* `Act.Story` — the acts about one action of one task come in one order only: it is dispatched, and
  then refused or executed, once. `Custody.Step.tells` shows that every step keeps to it.
* `Custody.Shut` — no action of a task is handed out once a pass has found the task ended.
-/

import Mathlib.Tactic.ByContra
import TableMigration.Proofs.Sound

namespace TableMigration

/-! ### Acts about an action -/

namespace Act

/-- Whether an act is about an action of a task. -/
def concerns (number : Nat) (action : Action) : Act → Bool
  | .foundEnded _ => false
  | .dispatched other act | .refused other act | .executed other act _ =>
    decide (other = number ∧ act = action)

/-- The acts about an action of a task. -/
def about (number : Nat) (action : Action) (acts : List Act) : List Act :=
  acts.filter (concerns number action)

/-- What the acts about an action can be, and where it is on its way then, if it is. -/
inductive Story (number : Nat) (action : Action) : List Act → (Station → Prop) → Prop
  | untold : Story number action [] fun station => station = .due
  | dispatched :
    Story number action [.dispatched number action]
      fun station => station = .offered ∨ station = .queued
  | refused :
    Story number action [.dispatched number action, .refused number action]
      fun station => station = .refused
  | executed (execution : Execution) :
    Story number action [.dispatched number action, .executed number action execution]
      fun station => station.execution? = some execution

theorem about_append (number : Nat) (action : Action) (acts later : List Act) :
    about number action (acts ++ later) = about number action acts ++ about number action later :=
  List.filter_append ..

theorem about_of_ne {number other : Nat} {action act : Action}
    (apart : (other, act) ≠ (number, action)) :
    concerns number action (.dispatched other act) = false ∧
      concerns number action (.refused other act) = false ∧
      ∀ execution, concerns number action (.executed other act execution) = false := by
  have different : ¬ (other = number ∧ act = action) := fun same => apart (Prod.ext same.1 same.2)
  exact ⟨decide_eq_false different, decide_eq_false different, fun _ => decide_eq_false different⟩

theorem about_foundEnded (number : Nat) (action : Action) (numbers : List Nat) :
    about number action (numbers.map .foundEnded) = [] := by
  refine List.filter_eq_nil_iff.mpr fun act member => ?_
  obtain ⟨_, _, rfl⟩ := List.mem_map.mp member
  exact Bool.false_ne_true

theorem about_singleton_self {number : Nat} {action : Action} {act : Act}
    (concerned : act.concerns number action = true) : about number action [act] = [act] :=
  List.filter_cons_of_pos concerned

theorem about_singleton_of_not {number : Nat} {action : Action} {act : Act}
    (unconcerned : act.concerns number action = false) : about number action [act] = [] :=
  List.filter_cons_of_neg (by rw [unconcerned]; exact Bool.false_ne_true)

theorem concerns_self (number : Nat) (action : Action) :
    concerns number action (.dispatched number action) = true ∧
      concerns number action (.refused number action) = true ∧
      ∀ execution, concerns number action (.executed number action execution) = true :=
  ⟨decide_eq_true ⟨rfl, rfl⟩, decide_eq_true ⟨rfl, rfl⟩, fun _ => decide_eq_true ⟨rfl, rfl⟩⟩

namespace Story

variable {number : Nat} {action : Action} {told : List Act} {allowed : Station → Prop}
  {station : Station} {execution : Execution}

theorem of_nil (story : Story number action [] allowed) : allowed .due := by
  cases story
  rfl

theorem of_due (story : Story number action told allowed) (fits : allowed .due) : told = [] := by
  cases story with
  | untold => rfl
  | dispatched => rcases fits with fits | fits <;> cases fits
  | refused => cases fits
  | executed => cases fits

theorem of_out (story : Story number action told allowed) (fits : allowed station)
    (out : station = .offered ∨ station = .queued) : told = [.dispatched number action] := by
  cases story with
  | dispatched => rfl
  | untold =>
    cases fits
    rcases out with out | out <;> cases out
  | refused =>
    cases fits
    rcases out with out | out <;> cases out
  | executed => rcases out with rfl | rfl <;> cases fits

theorem of_refused (story : Story number action told allowed) (fits : allowed .refused) :
    told = [.dispatched number action, .refused number action] := by
  cases story with
  | refused => rfl
  | untold => cases fits
  | dispatched => rcases fits with fits | fits <;> cases fits
  | executed => cases fits

theorem of_execution (story : Story number action told allowed) (fits : allowed station)
    (result : station.execution? = some execution) :
    told = [.dispatched number action, .executed number action execution] := by
  cases story with
  | executed =>
    rw [show _ = some execution from result] at fits
    cases fits
    rfl
  | untold =>
    cases fits
    cases result
  | dispatched => rcases fits with rfl | rfl <;> cases result
  | refused =>
    cases fits
    cases result

end Story

/-- Whether an act is an execution of an action of a task. -/
def executes (number : Nat) (action : Action) : Act → Bool
  | .executed other act _ => decide (other = number ∧ act = action)
  | _ => false

theorem concerns_of_executes {number : Nat} {action : Action} {act : Act}
    (executes : act.executes number action = true) : act.concerns number action = true := by
  cases act <;> first | exact executes | cases executes

theorem mem_about {number : Nat} {action : Action} {acts : List Act} {act : Act} :
    act ∈ about number action acts ↔ act ∈ acts ∧ act.concerns number action = true :=
  List.mem_filter

/-- What is told about an action tells of every execution. -/
theorem countP_about (number : Nat) (action : Action) (acts : List Act) :
    (about number action acts).countP (executes number action) =
      acts.countP (executes number action) := by
  unfold about
  rw [List.countP_filter]
  refine List.countP_congr fun act _ => ?_
  rw [Bool.and_eq_true]
  exact ⟨And.left, fun executes => ⟨executes, concerns_of_executes executes⟩⟩

namespace Story

variable {number : Nat} {action : Action} {acts : List Act} {allowed : Station → Prop}
  {execution : Execution}

/-- All that is told about an action that was refused. -/
theorem about_of_refused (story : Story number action (about number action acts) allowed)
    (refused : .refused number action ∈ acts) :
    about number action acts = [.dispatched number action, .refused number action] := by
  have told := mem_about.mpr ⟨refused, (concerns_self number action).2.1⟩
  generalize about number action acts = tale at story told
  cases story with
  | refused => rfl
  | _ => simp at told

/-- All that is told about an action that was executed. -/
theorem about_of_executed (story : Story number action (about number action acts) allowed)
    (executed : .executed number action execution ∈ acts) :
    about number action acts = [.dispatched number action, .executed number action execution] := by
  have told := mem_about.mpr ⟨executed, (concerns_self number action).2.2 execution⟩
  generalize about number action acts = tale at story told
  cases story with
  | executed => simp_all
  | _ => simp at told

/-- An action is executed once at most. -/
theorem executed_once (story : Story number action (about number action acts) allowed) :
    acts.countP (executes number action) ≤ 1 := by
  rw [← countP_about]
  generalize about number action acts = told at story
  cases story <;> simp [executes]

/-- What was refused is not executed. -/
theorem not_executed_of_refused (story : Story number action (about number action acts) allowed)
    (refused : .refused number action ∈ acts) : .executed number action execution ∉ acts := by
  intro executed
  have same := story.about_of_refused refused
  rw [story.about_of_executed executed] at same
  cases same

end Story

end Act

/-! ### The story of an action -/

namespace Custody

variable {custody next : Custody} {answers : Nat → Task → Action → Execution → Prop}
  {acts new : List Act} {others : Multiset Item}

/-- Whether an action is new no more, with all actions of a lower priority done. -/
def Begun (custody : Custody) (number : Nat) (action : Action) : Prop :=
  ∃ task, custody.tasks number = some task ∧
    (∃ progress, task.actionProgress action = some progress ∧ progress ≠ .new) ∧
    task.Cleared action

/-- Whether the acts about an action fit where it is on its way. -/
def TellsOf (custody : Custody) (acts : List Act) (number : Nat) (action : Action) : Prop :=
  ∃ allowed, Act.Story number action (Act.about number action acts) allowed ∧
    (∀ station, ⟨number, action, station⟩ ∈ custody.items → allowed station) ∧
    (Act.about number action acts ≠ [] → custody.Begun number action)

/-- Whether the acts so far fit the actions on their way. -/
def Tells (custody : Custody) (acts : List Act) : Prop :=
  ∀ number action, custody.TellsOf acts number action

theorem Begun.step {number : Nat} {action : Action} (begun : custody.Begun number action)
    (step : custody.Step answers new next) (sound : custody.Sound) : next.Begun number action := by
  obtain ⟨task, found, ⟨progress, now, old⟩, cleared⟩ := begun
  obtain ⟨after, found', on⟩ := step.movesOn sound found
  obtain ⟨progress', now'⟩ := on.found now
  refine ⟨after, found', ⟨progress', now', fun new => ?_⟩, on.cleared cleared⟩
  exact on.begun action progress now old (new ▸ now')

/-- An action on its way that was handed out has begun. -/
theorem Sound.begun {number : Nat} {action : Action} {station : Station} (sound : custody.Sound)
    (member : ⟨number, action, station⟩ ∈ custody.items) (out : station ≠ .due) :
    custody.Begun number action := by
  obtain ⟨task, found, progress, cleared⟩ := sound.placed _ member
  refine ⟨task, found, ⟨_, progress, ?_⟩, cleared⟩
  cases station <;> first | exact absurd rfl out | exact nofun

/-- What is on its way after one action went on: this action, or another as before. -/
theorem Sound.mem_exchange {number other : Nat} {action act : Action}
    {station later station' : Station} (sound : custody.Sound)
    (held : custody.items = ⟨number, action, station⟩ ::ₘ others)
    (member : ⟨other, act, station'⟩ ∈ (⟨number, action, later⟩ ::ₘ others : Multiset Item)) :
    ((other, act) = (number, action) ∧ station' = later) ∨
      ((other, act) ≠ (number, action) ∧ ⟨other, act, station'⟩ ∈ custody.items) := by
  rcases Multiset.mem_cons.mp member with same | behind
  · cases same
    exact .inl ⟨rfl, rfl⟩
  · exact .inr ⟨sound.apart held behind, held ▸ Multiset.mem_cons_of_mem behind⟩

/-- An action that a step neither moves nor speaks of has the story it had. -/
theorem TellsOf.still {number : Nat} {action : Action} (tells : custody.TellsOf acts number action)
    (step : custody.Step answers new next) (sound : custody.Sound)
    (silent : Act.about number action new = [])
    (items : ∀ station, ⟨number, action, station⟩ ∈ next.items →
      ⟨number, action, station⟩ ∈ custody.items) : next.TellsOf (acts ++ new) number action := by
  obtain ⟨allowed, story, fits, begun⟩ := tells
  unfold TellsOf
  rw [Act.about_append, silent, List.append_nil]
  exact ⟨allowed, story, fun station member => fits station (items station member),
    fun told => (begun told).step step sound⟩

/-- When one action goes on, only its own story does. -/
theorem Tells.exchange {number : Nat} {action : Action} {station later : Station}
    (tells : custody.Tells acts) (step : custody.Step answers new next) (sound : custody.Sound)
    (sound' : next.Sound) (held : custody.items = ⟨number, action, station⟩ ::ₘ others)
    (after : next.items = ⟨number, action, later⟩ ::ₘ others) (out : later ≠ .due)
    (silent : ∀ other act, (other, act) ≠ (number, action) → Act.about other act new = [])
    (goesOn : ∀ allowed, Act.Story number action (Act.about number action acts) allowed →
      allowed station → ∃ allowed', Act.Story number action
        (Act.about number action acts ++ Act.about number action new) allowed' ∧ allowed' later) :
    next.Tells (acts ++ new) := by
  intro other act
  by_cases same : (other, act) = (number, action)
  · cases same
    obtain ⟨allowed, story, fits, _⟩ := tells number action
    obtain ⟨allowed', story', fits'⟩ :=
      goesOn allowed story (fits station (held ▸ Multiset.mem_cons_self _ _))
    refine ⟨allowed', by rwa [Act.about_append], fun station' member => ?_, fun _ => ?_⟩
    · rw [after] at member
      rcases sound.mem_exchange held member with ⟨_, rfl⟩ | ⟨apart, _⟩
      · exact fits'
      · exact absurd rfl apart
    · exact sound'.begun (after ▸ Multiset.mem_cons_self _ _) out
  · refine (tells other act).still step sound (silent other act same) fun station' member => ?_
    rw [after] at member
    rcases sound.mem_exchange held member with ⟨equal, _⟩ | ⟨_, there⟩
    · exact absurd equal same
    · exact there

/-- A result that is passed on is the same result. -/
theorem Tells.passOn {number : Nat} {action : Action} {station later : Station}
    {execution : Execution} (tells : custody.Tells acts) (step : custody.Step answers [] next)
    (sound : custody.Sound) (sound' : next.Sound)
    (held : custody.items = ⟨number, action, station⟩ ::ₘ others)
    (after : next.items = ⟨number, action, later⟩ ::ₘ others)
    (result : station.execution? = some execution) (result' : later.execution? = some execution) :
    next.Tells acts := by
  have out : later ≠ .due := by
    rintro rfl
    cases result'
  rw [← List.append_nil acts]
  refine tells.exchange step sound sound' held after out (fun _ _ _ => rfl) ?_
  intro allowed story fits
  rw [story.of_execution fits result]
  exact ⟨_, .executed execution, result'⟩

/-- **Every step keeps to the story.** -/
theorem Step.tells (step : custody.Step answers new next) (sound : custody.Sound)
    (sound' : next.Sound) (tells : custody.Tells acts) : next.Tells (acts ++ new) := by
  have taken := step
  cases step with
  | quiet => exact fun other act => (tells other act).still taken sound rfl fun _ => id
  | findEnded numbers _ _ _ =>
    exact fun other act => (tells other act).still taken sound
      (Act.about_foundEnded other act numbers) fun _ => id
  | look _ _ _ => exact fun other act => (tells other act).still taken sound rfl fun _ => id
  | miss _ _ => exact fun other act => (tells other act).still taken sound rfl fun _ => id
  | @collect number _ _ head found idle =>
    intro other act
    obtain ⟨allowed, story, fits, begun⟩ := tells other act
    rw [List.append_nil]
    refine ⟨allowed, story, fun station member => ?_, begun⟩
    rcases Multiset.mem_add.mp member with new | old
    · obtain ⟨action, ready, same⟩ := List.mem_map.mp (Multiset.mem_coe.mp new)
      cases same
      have untold : Act.about number act acts = [] := by
        by_contra told
        obtain ⟨task, found', ⟨progress, now, old⟩, _⟩ := begun told
        rw [found] at found'
        cases found'
        rw [(Task.isReady_iff.mp (Task.mem_readyActions.mp ready)).1] at now
        exact old (Option.some.inj now).symm
      rw [untold] at story
      exact story.of_nil
    · exact fits station old
  | lose held absent =>
    exact fun other act => (tells other act).still taken sound rfl fun _ member =>
      held ▸ Multiset.mem_cons_of_mem member
  | @dispatch number action _ _ held found =>
    refine tells.exchange taken sound sound' held rfl nofun (fun other act apart => ?_) ?_
    · exact Act.about_singleton_of_not (Act.about_of_ne fun same => apart same.symm).1
    · intro allowed story fits
      rw [story.of_due fits, Act.about_singleton_self (Act.concerns_self number action).1]
      exact ⟨_, .dispatched, .inl rfl⟩
  | @pass number action _ _ _ _ _ held found passes =>
    have silent : ∀ other act, (other, act) ≠ (number, action) → (number, action) ≠ (other, act) :=
      fun _ _ apart same => apart same.symm
    cases passes with
    | accept =>
      refine tells.exchange taken sound sound' held rfl nofun (fun _ _ _ => rfl) ?_
      intro allowed story fits
      rw [story.of_out fits (.inl rfl)]
      exact ⟨_, .dispatched, .inr rfl⟩
    | turnAway =>
      refine tells.exchange taken sound sound' held rfl nofun (fun other act apart => ?_) ?_
      · exact Act.about_singleton_of_not (Act.about_of_ne (silent other act apart)).2.1
      · intro allowed story fits
        rw [story.of_out fits (.inl rfl),
          Act.about_singleton_self (Act.concerns_self number action).2.1]
        exact ⟨_, .refused, rfl⟩
    | @execute execution answer =>
      refine tells.exchange taken sound sound' held rfl nofun (fun other act apart => ?_) ?_
      · exact Act.about_singleton_of_not ((Act.about_of_ne (silent other act apart)).2.2 _)
      · intro allowed story fits
        rw [story.of_out fits (.inr rfl),
          Act.about_singleton_self ((Act.concerns_self number action).2.2 _)]
        exact ⟨_, .executed execution, rfl⟩
  | keepCounts held found =>
    rw [List.append_nil]
    exact tells.passOn taken sound sound' held rfl rfl rfl
  | keepValidation held found =>
    rw [List.append_nil]
    exact tells.passOn taken sound sound' held rfl rfl rfl
  | settle held found reported =>
    exact fun other act => (tells other act).still taken sound rfl fun _ member =>
      held ▸ Multiset.mem_cons_of_mem member

/-! ### Tasks that were found ended -/

/-- Whether nothing more is handed out of the tasks that were found ended. -/
def Shut (custody : Custody) (acts : List Act) : Prop :=
  ∀ number, .foundEnded number ∈ acts → custody.Ended number ∧ number ∉ custody.looked ∧
    ∀ action, ⟨number, action, .due⟩ ∉ custody.items

theorem Ended.step {number : Nat} (ended : custody.Ended number)
    (step : custody.Step answers new next) (sound : custody.Sound) : next.Ended number := by
  intro after found
  obtain ⟨task, found', on⟩ := step.origin sound found
  rw [on.ended (ended task found')]
  exact ended task found'

/-- An action that goes on is not handed out anew. -/
theorem due_of_exchange {number other : Nat} {action act : Action} {station later : Station}
    (held : custody.items = ⟨number, action, station⟩ ::ₘ others)
    (member : ⟨other, act, .due⟩ ∈ next.items)
    (after : next.items = ⟨number, action, later⟩ ::ₘ others) (out : later ≠ .due) :
    ⟨other, act, .due⟩ ∈ custody.items := by
  rw [after] at member
  rcases Multiset.mem_cons.mp member with same | behind
  · exact absurd (congrArg Item.station same).symm out
  · exact held ▸ Multiset.mem_cons_of_mem behind

/-- **What was found ended stays shut.** -/
theorem Step.shut (step : custody.Step answers new next) (sound : custody.Sound)
    (shut : custody.Shut acts) : next.Shut (acts ++ new) := by
  intro other told
  have still : .foundEnded other ∈ acts → next.looked = custody.looked →
      (∀ action, ⟨other, action, .due⟩ ∈ next.items → ⟨other, action, .due⟩ ∈ custody.items) →
      next.Ended other ∧ other ∉ next.looked ∧ ∀ action, ⟨other, action, .due⟩ ∉ next.items := by
    intro old looked items
    obtain ⟨ended, unlooked, undue⟩ := shut other old
    exact ⟨ended.step step sound, looked ▸ unlooked, fun action member =>
      undue action (items action member)⟩
  cases step with
  | quiet => exact still (by rwa [List.append_nil] at told) rfl fun _ => id
  | findEnded numbers finds idle unlooked =>
    rcases List.mem_append.mp told with old | new
    · exact still old rfl fun _ => id
    · obtain ⟨_, member, same⟩ := List.mem_map.mp new
      cases same
      refine ⟨finds other member, fun looked => ?_, fun action member => idle _ member rfl⟩
      rw [unlooked] at looked
      cases looked
  | look going idle unlooked =>
    rw [List.append_nil] at told
    obtain ⟨ended, _, undue⟩ := shut other told
    refine ⟨ended, fun looked => ?_, undue⟩
    exact going (List.mem_singleton.mp looked ▸ ended)
  | miss head absent =>
    rw [List.append_nil] at told
    obtain ⟨ended, unlooked, undue⟩ := shut other told
    rw [head, List.mem_cons, not_or] at unlooked
    exact ⟨ended, unlooked.2, undue⟩
  | collect head found idle =>
    rw [List.append_nil] at told
    obtain ⟨ended, unlooked, undue⟩ := shut other told
    rw [head, List.mem_cons, not_or] at unlooked
    refine ⟨ended, unlooked.2, fun action member => ?_⟩
    rcases Multiset.mem_add.mp member with new | old
    · obtain ⟨_, _, same⟩ := List.mem_map.mp (Multiset.mem_coe.mp new)
      exact unlooked.1 (congrArg Item.task same).symm
    · exact undue action old
  | lose held absent =>
    rw [List.append_nil] at told
    exact still told rfl fun _ member => held ▸ Multiset.mem_cons_of_mem member
  | dispatch held found =>
    rcases List.mem_append.mp told with old | new
    · exact still old rfl fun _ member => due_of_exchange held member rfl nofun
    · cases List.mem_singleton.mp new
  | pass held found passes =>
    have old : .foundEnded other ∈ acts := by
      rcases List.mem_append.mp told with old | new
      · exact old
      · cases passes with
        | accept => cases new
        | turnAway => cases List.mem_singleton.mp new
        | execute => cases List.mem_singleton.mp new
    refine still old rfl fun _ member => due_of_exchange held member rfl ?_
    cases passes <;> exact nofun
  | keepCounts held found =>
    rw [List.append_nil] at told
    exact still told rfl fun _ member => due_of_exchange held member rfl nofun
  | keepValidation held found =>
    rw [List.append_nil] at told
    exact still told rfl fun _ member => due_of_exchange held member rfl nofun
  | settle held found reported =>
    rw [List.append_nil] at told
    exact still told rfl fun _ member => held ▸ Multiset.mem_cons_of_mem member

end Custody

end TableMigration
