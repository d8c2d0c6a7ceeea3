import AshamaneCore.Library.OrderedQueue

/-!
# The task scheduler

Tasks wait in a multiset ordered by their end, asynchronous callables in a
queue. Time points and durations are ticks of the clock. A callable is known by
the number of its call of Async, a task by the number of its creation; what it
does on the scheduler when it runs is a script of actions.
-/

namespace AshamaneCore

open Library.OrderedQueue

variable {H : Type}

structure Task (H : Type) where
  id : Nat
  taskEnd : Int
  duration : Int
  group : Option UInt32
  repeated : UInt32
  task : H
  deriving DecidableEq

def Task.isInGroup (t : Task H) (group : UInt32) : Bool := t.group = some group

@[ext] structure TaskQueue (H : Type) where
  container : List (Task H)
  ordered : Ordered Task.taskEnd container

namespace TaskQueue

def empty : TaskQueue H := ⟨[], List.Pairwise.nil⟩

def push (q : TaskQueue H) (t : Task H) : TaskQueue H :=
  ⟨insertUpper Task.taskEnd t q.container, insertUpper_ordered q.ordered⟩

/-- The first task and the rest; there is none to pop from an empty queue. -/
def pop (q : TaskQueue H) : Option (Task H × TaskQueue H) :=
  match h : q.container with
  | [] => none
  | t :: rest => some (t, ⟨rest, (h ▸ q.ordered).of_cons⟩)

def first (q : TaskQueue H) : Option (Task H) := q.container.head?

def isEmpty (q : TaskQueue H) : Bool := q.container.isEmpty

def removeIf (q : TaskQueue H) (filter : Task H → Bool) : TaskQueue H :=
  ⟨q.container.filter fun t => !filter t, q.ordered.filter _⟩

/-- The filter changes the tasks it accepts, which are taken out and inserted again. -/
def modifyIf (q : TaskQueue H) (filter : Task H → Option (Task H)) : TaskQueue H :=
  ⟨insertAll Task.taskEnd (q.container.filter fun t => (filter t).isNone)
      (q.container.filterMap filter),
    insertAll_ordered (q.ordered.filter _) _⟩

/-- A change of the group of one task, wherever it is in the queue. -/
def setGroup (q : TaskQueue H) (id : Nat) (group : Option UInt32) : TaskQueue H :=
  ⟨q.container.map fun t => if t.id = id then { t with group := group } else t, by
    refine List.pairwise_map.mpr (q.ordered.imp ?_)
    intro a b h
    split <;> split <;> exact h⟩

end TaskQueue

structure TaskScheduler (H : Type) where
  now : Int
  taskHolder : TaskQueue H
  asyncHolder : List Nat
  nextTask : Nat
  nextAsync : Nat

namespace TaskScheduler

def async (s : TaskScheduler H) : TaskScheduler H :=
  { s with asyncHolder := s.asyncHolder ++ [s.nextAsync], nextAsync := s.nextAsync + 1 }

def insertTask (s : TaskScheduler H) (t : Task H) : TaskScheduler H :=
  { s with taskHolder := s.taskHolder.push t }

def scheduleAt (s : TaskScheduler H) (taskEnd time : Int) (group : Option UInt32) (task : H) :
    TaskScheduler H :=
  let s' := s.insertTask ⟨s.nextTask, taskEnd + time, time, group, 0, task⟩
  { s' with nextTask := s.nextTask + 1 }

def schedule (s : TaskScheduler H) (time : Int) (group : Option UInt32) (task : H) :
    TaskScheduler H := s.scheduleAt s.now time group task

def cancelAll (s : TaskScheduler H) : TaskScheduler H :=
  { s with taskHolder := .empty, asyncHolder := [] }

def cancelGroup (s : TaskScheduler H) (group : UInt32) : TaskScheduler H :=
  { s with taskHolder := s.taskHolder.removeIf fun t => t.isInGroup group }

def cancelGroupsOf (s : TaskScheduler H) (groups : List UInt32) : TaskScheduler H :=
  groups.foldl cancelGroup s

def delayAll (s : TaskScheduler H) (duration : Int) : TaskScheduler H :=
  { s with
    taskHolder := s.taskHolder.modifyIf fun t => some { t with taskEnd := t.taskEnd + duration } }

def delayGroup (s : TaskScheduler H) (group : UInt32) (duration : Int) : TaskScheduler H :=
  { s with
    taskHolder := s.taskHolder.modifyIf fun t =>
      if t.isInGroup group then some { t with taskEnd := t.taskEnd + duration } else none }

def rescheduleAll (s : TaskScheduler H) (duration : Int) : TaskScheduler H :=
  { s with taskHolder := s.taskHolder.modifyIf fun t => some { t with taskEnd := s.now + duration } }

def rescheduleGroup (s : TaskScheduler H) (group : UInt32) (duration : Int) : TaskScheduler H :=
  { s with
    taskHolder := s.taskHolder.modifyIf fun t =>
      if t.isInGroup group then some { t with taskEnd := s.now + duration } else none }

inductive Action (H : Type)
  | async
  | schedule (time : Int) (group : Option UInt32) (task : H)
  | cancelAll
  | cancelGroup (group : UInt32)
  | cancelGroupsOf (groups : List UInt32)
  | delayAll (duration : Int)
  | delayGroup (group : UInt32) (duration : Int)
  | rescheduleAll (duration : Int)
  | rescheduleGroup (group : UInt32) (duration : Int)
  deriving DecidableEq

def perform (s : TaskScheduler H) : Action H → TaskScheduler H
  | .async => s.async
  | .schedule time group task => s.schedule time group task
  | .cancelAll => s.cancelAll
  | .cancelGroup group => s.cancelGroup group
  | .cancelGroupsOf groups => s.cancelGroupsOf groups
  | .delayAll duration => s.delayAll duration
  | .delayGroup group duration => s.delayGroup group duration
  | .rescheduleAll duration => s.rescheduleAll duration
  | .rescheduleGroup group duration => s.rescheduleGroup group duration

/-- The head of the second loop: the first task is popped if it is due. -/
def popDue (s : TaskScheduler H) : Option (Task H × TaskQueue H) :=
  match s.taskHolder.first with
  | none => none
  | some t => if s.now < t.taskEnd then none else s.taskHolder.pop

end TaskScheduler

structure TaskContext (H : Type) where
  task : Task H
  consumed : Bool

inductive ContextAction (H : Type)
  | repeatFor (duration : Int)
  | repeatSame
  | schedule (time : Int) (group : Option UInt32) (task : H)
  | setGroup (group : UInt32)
  | clearGroup
  deriving DecidableEq

def ContextAction.isRepeat : ContextAction H → Bool
  | .repeatFor _ => true
  | .repeatSame => true
  | _ => false

namespace TaskContext

/-- The repeated task goes back into the queue; a second time meets the assertion. -/
def repeatFor (c : TaskContext H) (s : TaskScheduler H) (duration : Int) :
    Option (TaskContext H × TaskScheduler H) :=
  if c.consumed then none
  else
    let task := { c.task with
      duration := duration
      taskEnd := c.task.taskEnd + duration
      repeated := c.task.repeated + 1 }
    some (⟨task, true⟩, s.insertTask task)

theorem repeatFor_eq_some {c c' : TaskContext H} {s s' : TaskScheduler H} {duration : Int}
    (h : c.repeatFor s duration = some (c', s')) :
    c.consumed = false ∧ c'.consumed = true ∧ s' = s.insertTask c'.task ∧
      c'.task = { c.task with
        duration := duration
        taskEnd := c.task.taskEnd + duration
        repeated := c.task.repeated + 1 } := by
  rw [repeatFor] at h
  split at h
  · cases h
  · rename_i hFresh
    obtain ⟨rfl, rfl⟩ := Prod.mk.inj (Option.some.inj h)
    exact ⟨Bool.eq_false_iff.mpr hFresh, rfl, rfl, rfl⟩

/-- The task is shared with the queue, once it has been repeated. -/
def setGroup (c : TaskContext H) (s : TaskScheduler H) (group : Option UInt32) :
    TaskContext H × TaskScheduler H :=
  (⟨{ c.task with group := group }, c.consumed⟩,
    { s with taskHolder := s.taskHolder.setGroup c.task.id group })

def perform (c : TaskContext H) (s : TaskScheduler H) :
    ContextAction H → Option (TaskContext H × TaskScheduler H)
  | .repeatFor duration => c.repeatFor s duration
  | .repeatSame => c.repeatFor s c.task.duration
  | .schedule time group task => some (c, s.scheduleAt c.task.taskEnd time group task)
  | .setGroup group => some (c.setGroup s (some group))
  | .clearGroup => some (c.setGroup s none)

def invoke (c : TaskContext H) (s : TaskScheduler H) :
    List (ContextAction H) → Option (TaskContext H × TaskScheduler H)
  | [] => some (c, s)
  | action :: script => do
    let (c, s) ← c.perform s action
    c.invoke s script

end TaskContext

/-! ## The head of the queue -/

namespace TaskScheduler

theorem pop_eq_some {q : TaskQueue H} {t : Task H} {rest : TaskQueue H} :
    q.pop = some (t, rest) ↔ q.container = t :: rest.container := by
  obtain ⟨container, ordered⟩ := q
  obtain ⟨later, hLater⟩ := rest
  cases container with
  | nil => simp [TaskQueue.pop]
  | cons head tail => simp [TaskQueue.pop]

theorem popDue_eq_some {s : TaskScheduler H} {t : Task H} {rest : TaskQueue H} :
    s.popDue = some (t, rest) ↔
      s.taskHolder.container = t :: rest.container ∧ t.taskEnd ≤ s.now := by
  rw [popDue, TaskQueue.first]
  cases hContainer : s.taskHolder.container with
  | nil => simp
  | cons head tail =>
    simp only [List.head?_cons]
    split
    · rename_i hLate
      constructor
      · rintro ⟨⟩
      · rintro ⟨hEq, hDue⟩
        obtain ⟨rfl, -⟩ := List.cons.inj hEq
        omega
    · rename_i hDue
      rw [pop_eq_some, hContainer]
      constructor
      · intro hEq
        obtain ⟨rfl, -⟩ := List.cons.inj hEq
        exact ⟨hEq, not_lt.mp hDue⟩
      · exact fun h => h.1

theorem popDue_eq_none {s : TaskScheduler H} :
    s.popDue = none ↔ ∀ t ∈ s.taskHolder.container, s.now < t.taskEnd := by
  rw [popDue, TaskQueue.first]
  cases hContainer : s.taskHolder.container with
  | nil => simp
  | cons head tail =>
    have hOrdered := s.taskHolder.ordered
    rw [hContainer] at hOrdered
    simp only [List.head?_cons]
    split
    · rename_i hLate
      simp only [true_iff]
      intro t ht
      rcases List.mem_cons.mp ht with rfl | ht
      · exact hLate
      · exact hLate.trans_le ((List.pairwise_cons.mp hOrdered).1 t ht)
    · rename_i hDue
      constructor
      · intro hNone
        have hSome : s.taskHolder.pop =
            some (head, ⟨tail, hOrdered.of_cons⟩) := pop_eq_some.mpr hContainer
        rw [hSome] at hNone
        cases hNone
      · exact fun h => absurd (h head List.mem_cons_self) hDue

end TaskScheduler

end AshamaneCore
