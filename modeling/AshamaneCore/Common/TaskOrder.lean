import AshamaneCore.Common.TaskDispatch

/-!
# The order of the tasks

Delaying and rescheduling change tasks where they stand in the queue, out of
order until they are erased, and insert them again after the loop. The record
keeps the ends of the tasks that the current Dispatch has invoked.
-/

namespace AshamaneCore

open Library.OrderedQueue Library.Transition

variable {H : Type}

namespace TaskQueue

/-! ## Changes in place -/

structure Modifying (H : Type) where
  container : List (Task H)
  itr : Nat
  cache : List (Task H)

/-- An accepted task is changed in the container, and only then it is erased from there. -/
def modifyRound (filter : Task H → Option (Task H)) (m : Modifying H) : Modifying H :=
  match m.container[m.itr]? with
  | none => m
  | some t =>
    match filter t with
    | none => { m with itr := m.itr + 1 }
    | some changed =>
      { m with
        container := (m.container.set m.itr changed).eraseIdx m.itr
        cache := m.cache ++ [changed] }

def modifyLoop (filter : Task H → Option (Task H)) (container : List (Task H)) : Modifying H :=
  (modifyRound filter)^[container.length] ⟨container, 0, []⟩

def modifyInPlace (filter : Task H → Option (Task H)) (container : List (Task H)) : List (Task H) :=
  let m := modifyLoop filter container
  insertAll Task.taskEnd m.container m.cache

end TaskQueue

namespace TaskScheduler

/-- The tasks of the group with another end, and all other tasks. -/
def withEnds (tasks : List (Task H)) (group : UInt32) (taskEnd : Task H → Int) : List (Task H) :=
  tasks.map fun t => if t.isInGroup group then { t with taskEnd := taskEnd t } else t

/-- The queue is in order, whatever is changed in place, and a change of a group is one of its tasks. -/
structure Exact (s : TaskScheduler H) : Prop where
  ordered : Ordered Task.taskEnd s.taskHolder.container
  modified : ∀ filter, Ordered Task.taskEnd (TaskQueue.modifyInPlace filter s.taskHolder.container)
  delayed : ∀ group duration, (s.delayGroup group duration).taskHolder.container.Perm
    (withEnds s.taskHolder.container group fun t => t.taskEnd + duration)
  rescheduled : ∀ group duration, (s.rescheduleGroup group duration).taskHolder.container.Perm
    (withEnds s.taskHolder.container group fun _ => s.now + duration)

end TaskScheduler

/-! ## Dispatch with its record -/

namespace TaskDispatch

open TaskScheduler

structure Recorded (H : Type) where
  dispatcher : Dispatcher H
  ends : List Int

def invoked (s : Dispatcher H) (label : Label H) : Option (Task H) :=
  match s.crash, s.control, label with
  | none, .taskLoop, .advance _ _ => s.scheduler.popDue.map Prod.fst
  | _, _, _ => none

def callsBack (s : Dispatcher H) (label : Label H) : Bool :=
  match s.crash, s.control, label with
  | none, .taskLoop, .advance _ _ => s.scheduler.popDue.isNone
  | _, _, _ => false

def starts (s : Dispatcher H) (label : Label H) : Bool :=
  match s.crash, s.control, label with
  | none, .idle, .update _ _ => true
  | _, _, _ => false

def record (r : Recorded H) (label : Label H) : Recorded H :=
  ⟨step r.dispatcher label,
    if starts r.dispatcher label then []
    else r.ends ++ (invoked r.dispatcher label).toList.map Task.taskEnd⟩

/-- The tasks of one Dispatch are invoked in the order of their ends, none before it is due,
and the success callback finds no task that is due. -/
structure InOrder (r : Recorded H) : Prop where
  ends : r.ends.Pairwise (· ≤ ·)
  due : ∀ e ∈ r.ends, e ≤ r.dispatcher.scheduler.now
  finished : ∀ label, callsBack r.dispatcher label = true →
    ∀ t ∈ r.dispatcher.scheduler.taskHolder.container, r.dispatcher.scheduler.now < t.taskEnd

/-! ## Durations that are not negative -/

def Action.NonNegative : Action H → Prop
  | .schedule time _ _ => 0 ≤ time
  | .delayAll duration => 0 ≤ duration
  | .delayGroup _ duration => 0 ≤ duration
  | .rescheduleAll duration => 0 ≤ duration
  | .rescheduleGroup _ duration => 0 ≤ duration
  | _ => True

def ContextAction.NonNegative : ContextAction H → Prop
  | .repeatFor duration => 0 ≤ duration
  | .schedule time _ _ => 0 ≤ time
  | _ => True

def HandlerAction.NonNegative : HandlerAction H → Prop
  | .context action => ContextAction.NonNegative action
  | .owner action => Action.NonNegative action

def Label.NonNegative : Label H → Prop
  | .update _ _ => True
  | .advance script _ => ∀ action ∈ script, HandlerAction.NonNegative action
  | .call action => Action.NonNegative action

/-- A task that ends after all that were invoked, and stays so when it is repeated. -/
def Later (ends : List Int) (t : Task H) : Prop := 0 ≤ t.duration ∧ ∀ e ∈ ends, e ≤ t.taskEnd

def Ahead (ends : List Int) (s : TaskScheduler H) : Prop := ∀ t ∈ s.taskHolder.container, Later ends t

section

variable {ends : List Int} {s : TaskScheduler H}

theorem Ahead.nil (h : Ahead ends s) : Ahead [] s := fun t ht => ⟨(h t ht).1, fun _ he => nomatch he⟩

variable {t : Task H}

theorem Later.moved (h : Later ends t) {taskEnd : Int} (hEnd : ∀ e ∈ ends, e ≤ taskEnd) :
    Later ends { t with taskEnd := taskEnd } :=
  ⟨h.1, hEnd⟩

theorem Later.delayed (h : Later ends t) {duration : Int} (hDuration : 0 ≤ duration) :
    Later ends { t with taskEnd := t.taskEnd + duration } := by
  apply h.moved
  intro e he
  have hBefore := h.2 e he
  omega

theorem Ahead.push (h : Ahead ends s) (hTask : Later ends t) : Ahead ends (s.insertTask t) := by
  intro t' ht'
  rcases mem_insertUpper.mp ht' with rfl | hOld
  · exact hTask
  · exact h t' hOld

theorem Ahead.scheduleAt (h : Ahead ends s) {taskEnd time : Int} (hEnd : ∀ e ∈ ends, e ≤ taskEnd) (hTime : 0 ≤ time)
    (group : Option UInt32) (task : H) : Ahead ends (s.scheduleAt taskEnd time group task) := by
  apply h.push
  constructor
  · exact hTime
  · intro e he
    have hBefore := hEnd e he
    change e ≤ taskEnd + time
    omega

theorem Ahead.modifyIf (h : Ahead ends s) {filter : Task H → Option (Task H)}
    (hFilter : ∀ t changed, filter t = some changed → Later ends t → Later ends changed) :
    Ahead ends { s with taskHolder := s.taskHolder.modifyIf filter } := by
  intro t ht
  rcases mem_insertAll.mp ht with hKept | hChanged
  · exact h t (List.mem_of_mem_filter hKept)
  · obtain ⟨old, hOld, hFilters⟩ := List.mem_filterMap.mp hChanged
    exact hFilter old t hFilters (h old hOld)

theorem Ahead.modifyGroup (h : Ahead ends s) (group : UInt32) {taskEnd : Task H → Int}
    (hEnd : ∀ t, Later ends t → Later ends { t with taskEnd := taskEnd t }) :
    Ahead ends { s with
      taskHolder := s.taskHolder.modifyIf fun t =>
        if t.isInGroup group then some { t with taskEnd := taskEnd t } else none } := by
  apply h.modifyIf
  intro t changed hChanged hLater
  split at hChanged
  · obtain rfl := Option.some.inj hChanged
    exact hEnd t hLater
  · cases hChanged

theorem Ahead.cancelGroup (h : Ahead ends s) (group : UInt32) : Ahead ends (s.cancelGroup group) :=
  fun t ht => h t (List.mem_of_mem_filter ht)

theorem Ahead.cancelGroupsOf (h : Ahead ends s) (groups : List UInt32) : Ahead ends (s.cancelGroupsOf groups) := by
  rw [TaskScheduler.cancelGroupsOf]
  induction groups generalizing s with
  | nil => exact h
  | cons group groups ih => exact ih (h.cancelGroup group)

theorem cancelGroupsOf_now (s : TaskScheduler H) (groups : List UInt32) : (s.cancelGroupsOf groups).now = s.now := by
  rw [cancelGroupsOf]
  induction groups generalizing s with
  | nil => rfl
  | cons group groups ih => exact ih (s.cancelGroup group)

theorem perform_now (s : TaskScheduler H) (action : Action H) : (s.perform action).now = s.now := by
  cases action with
  | cancelGroupsOf groups => exact cancelGroupsOf_now s groups
  | _ => rfl

theorem Ahead.perform (h : Ahead ends s) (hNow : ∀ e ∈ ends, e ≤ s.now) {action : Action H}
    (hAction : Action.NonNegative action) : Ahead ends (s.perform action) := by
  have hLater : ∀ duration, 0 ≤ duration → ∀ e ∈ ends, e ≤ s.now + duration := by
    intro duration hDuration e he
    have hBefore := hNow e he
    omega
  cases action with
  | async => exact h
  | schedule time group task => exact h.scheduleAt hNow hAction group task
  | cancelAll => exact fun t ht => nomatch ht
  | cancelGroup group => exact h.cancelGroup group
  | cancelGroupsOf groups => exact h.cancelGroupsOf groups
  | delayAll duration =>
    apply h.modifyIf
    rintro t _ hChanged hTask
    obtain rfl := Option.some.inj hChanged
    exact hTask.delayed hAction
  | delayGroup group duration =>
    apply h.modifyGroup
    exact fun t hTask => hTask.delayed hAction
  | rescheduleAll duration =>
    apply h.modifyIf
    rintro t _ hChanged hTask
    obtain rfl := Option.some.inj hChanged
    exact hTask.moved (hLater duration hAction)
  | rescheduleGroup group duration =>
    apply h.modifyGroup
    exact fun t hTask => hTask.moved (hLater duration hAction)

variable {c : TaskContext H}

theorem Ahead.contextPerform (h : Ahead ends s) {c' : TaskContext H} {s' : TaskScheduler H} {action : ContextAction H}
    (hPerform : c.perform s action = some (c', s')) (hTask : Later ends c.task)
    (hAction : ContextAction.NonNegative action) : Ahead ends s' ∧ Later ends c'.task ∧ s'.now = s.now := by
  have hRepeat : ∀ duration, 0 ≤ duration → c.repeatFor s duration = some (c', s') →
      Ahead ends s' ∧ Later ends c'.task ∧ s'.now = s.now := by
    intro duration hDuration hRepeated
    obtain ⟨-, -, rfl, hNew⟩ := TaskContext.repeatFor_eq_some hRepeated
    have hLater : Later ends c'.task := by
      rw [hNew]
      exact ⟨hDuration, (hTask.delayed hDuration).2⟩
    exact ⟨h.push hLater, hLater, rfl⟩
  have hGroup : ∀ group, c.setGroup s group = (c', s') → Ahead ends s' ∧ Later ends c'.task ∧ s'.now = s.now := by
    intro group hSet
    obtain ⟨rfl, rfl⟩ := Prod.mk.inj hSet
    refine ⟨fun t ht => ?_, hTask, rfl⟩
    obtain ⟨old, hOld, rfl⟩ := List.mem_map.mp ht
    split
    · exact h old hOld
    · exact h old hOld
  cases action with
  | repeatFor duration => exact hRepeat duration hAction hPerform
  | repeatSame => exact hRepeat c.task.duration hTask.1 hPerform
  | schedule time group task =>
    obtain ⟨rfl, rfl⟩ := Prod.mk.inj (Option.some.inj hPerform)
    exact ⟨h.scheduleAt hTask.2 hAction group task, hTask, rfl⟩
  | setGroup group => exact hGroup (some group) (Option.some.inj hPerform)
  | clearGroup => exact hGroup none (Option.some.inj hPerform)

theorem Later.shared (h : Ahead ends s) (hTask : Later ends c.task) :
    Later ends (shared c s).task := by
  rw [TaskDispatch.shared]
  split
  · cases hFind : s.taskHolder.container.find? fun t => t.id = c.task.id with
    | none => exact hTask
    | some t => exact h t (List.mem_of_find?_eq_some hFind)
  · exact hTask

theorem Ahead.runHandler {script : List (HandlerAction H)} {s next : Dispatcher H}
    (hRun : runHandler c s script = some next) (h : Ahead ends s.scheduler) (hTask : Later ends c.task)
    (hNow : ∀ e ∈ ends, e ≤ s.scheduler.now) (hScript : ∀ action ∈ script, HandlerAction.NonNegative action) :
    Ahead ends next.scheduler ∧ next.scheduler.now = s.scheduler.now := by
  induction script generalizing c s with
  | nil =>
    obtain rfl := Option.some.inj hRun
    exact ⟨h, rfl⟩
  | cons action script ih =>
    have hFirst := hScript action List.mem_cons_self
    have hRest := fun other hOther => hScript other (List.mem_cons_of_mem action hOther)
    cases action with
    | owner action =>
      have hSame := perform_now s.scheduler action
      have hAhead := h.perform hNow hFirst
      obtain ⟨hEnd, hEndNow⟩ := ih hRun hAhead (hTask.shared hAhead) (fun e he => hSame ▸ hNow e he) hRest
      exact ⟨hEnd, hEndNow.trans hSame⟩
    | context action =>
      obtain ⟨⟨c₁, scheduler⟩, hPerform, hLater⟩ := Option.bind_eq_some_iff.mp hRun
      obtain ⟨hAhead, hTask₁, hSame⟩ := h.contextPerform hPerform hTask hFirst
      obtain ⟨hEnd, hEndNow⟩ := ih hLater hAhead hTask₁ (fun e he => hSame ▸ hNow e he) hRest
      exact ⟨hEnd, hEndNow.trans hSame⟩

end

/-! ## Rounds -/

/-- While the loop of the tasks runs, all tasks end after those that were invoked. -/
structure Kept (r : Recorded H) : Prop where
  ends : r.ends.Pairwise (· ≤ ·)
  due : ∀ e ∈ r.ends, e ≤ r.dispatcher.scheduler.now
  ahead : Ahead (if r.dispatcher.control = .taskLoop then r.ends else []) r.dispatcher.scheduler
  began : r.dispatcher.control = .asyncLoop → r.ends = []

variable {r : Recorded H}

theorem Kept.inOrder (h : Kept r) : InOrder r := by
  refine ⟨h.ends, h.due, fun label hCalls => ?_⟩
  unfold callsBack at hCalls
  split at hCalls
  · exact popDue_eq_none.mp (Option.isNone_iff_eq_none.mp hCalls)
  · cases hCalls

variable {script : List (HandlerAction H)}

end TaskDispatch

end AshamaneCore
