import AshamaneCore.Common.TaskScheduler
import Mathlib.Logic.Hydra

/-!
# Cutting the time of a task scheduler into updates

Handlers that only use their context never read the current time, and an update
goes on with the queue as the last one left it. So how the time is cut does not
matter, even where an update never ends. A periodic task runs once for each of its
due times, unless tasks reschedule themselves at the same time for ever.
-/

namespace AshamaneCore.TaskGranularity

open TaskScheduler Library.OrderedQueue

variable {H ω : Type}

/-- A handler sees its group, its repeat counter and what its captures reach. -/
abbrev Handlers (H ω : Type) : Type :=
  H → Option UInt32 → UInt32 → ω → List (ContextAction H) × ω

/-- A scheduler with the world of its handlers and the record of executed tasks. -/
structure Simulation (H ω : Type) where
  scheduler : TaskScheduler H
  world : ω
  trace : List (Nat × UInt32 × Int)
  aborted : Bool

def invoke (behave : Handlers H ω) (s : Simulation H ω) (t : Task H) (rest : TaskQueue H) :
    Simulation H ω :=
  let outcome := behave t.task t.group t.repeated s.world
  let trace := s.trace ++ [(t.id, t.repeated, t.taskEnd)]
  match TaskContext.invoke ⟨t, false⟩ { s.scheduler with taskHolder := rest } outcome.1 with
  | some (_, scheduler) => ⟨scheduler, outcome.2, trace, false⟩
  | none => ⟨s.scheduler, outcome.2, trace, true⟩

/-- The task loop of Dispatch with an always-true validator, stopped once it has invoked
as many tasks as the budget allows; the rest of the budget is returned. -/
def dispatchLoop (behave : Handlers H ω) : Nat → Simulation H ω → Simulation H ω × Nat
  | 0, s => (s, 0)
  | budget + 1, s =>
    if s.aborted then (s, budget + 1)
    else match s.scheduler.popDue with
      | none => (s, budget + 1)
      | some (t, rest) => dispatchLoop behave budget (invoke behave s t rest)

def advance (time : Int) (s : Simulation H ω) : Simulation H ω :=
  { s with scheduler := { s.scheduler with now := s.scheduler.now + time } }

def ticksPerMillisecond : Int := 1000000

def update (behave : Handlers H ω) (budget : Nat) (s : Simulation H ω) (milliseconds : Nat) :
    Simulation H ω × Nat :=
  dispatchLoop behave budget (advance (milliseconds * ticksPerMillisecond) s)

def updateAll (behave : Handlers H ω) (budget : Nat) (s : Simulation H ω) :
    List Nat → Simulation H ω × Nat
  | [] => (s, budget)
  | milliseconds :: rest =>
    let result := update behave budget s milliseconds
    updateAll behave result.2 result.1 rest

/-! ## One update after another -/

@[simp] theorem advance_advance (first second : Int) (s : Simulation H ω) :
    advance second (advance first s) = advance (first + second) s := by
  simp only [advance, Int.add_assoc]

theorem perform_advance (c : TaskContext H) (s : TaskScheduler H) (action : ContextAction H)
    (time : Int) : c.perform { s with now := s.now + time } action =
      (c.perform s action).map fun r => (r.1, { r.2 with now := r.2.now + time }) := by
  cases action with
  | repeatFor duration | repeatSame =>
    simp only [TaskContext.perform, TaskContext.repeatFor]
    split <;> rfl
  | schedule | setGroup | clearGroup => rfl

theorem invokeContext_advance (c : TaskContext H) (s : TaskScheduler H)
    (script : List (ContextAction H)) (time : Int) :
    c.invoke { s with now := s.now + time } script =
      (c.invoke s script).map fun r => (r.1, { r.2 with now := r.2.now + time }) := by
  induction script generalizing c s with
  | nil => rfl
  | cons action script ih =>
    rw [TaskContext.invoke, TaskContext.invoke, perform_advance]
    cases c.perform s action with
    | none => rfl
    | some r => exact ih r.1 r.2

theorem perform_now {c c' : TaskContext H} {s s' : TaskScheduler H} {action : ContextAction H}
    (h : c.perform s action = some (c', s')) : s'.now = s.now := by
  cases action with
  | repeatFor duration | repeatSame =>
    obtain ⟨-, -, rfl, -⟩ := TaskContext.repeatFor_eq_some h
    rfl
  | schedule | setGroup | clearGroup =>
    obtain ⟨-, rfl⟩ := Prod.mk.inj (Option.some.inj h)
    rfl

theorem invokeContext_now {script : List (ContextAction H)} :
    ∀ {c c' : TaskContext H} {s s' : TaskScheduler H}, c.invoke s script = some (c', s') →
      s'.now = s.now := by
  induction script with
  | nil =>
    rintro c c' s s' h
    obtain ⟨-, rfl⟩ := Prod.mk.inj (Option.some.inj h)
    rfl
  | cons action script ih =>
    intro c c' s s' h
    obtain ⟨⟨c₁, s₁⟩, hFirst, hRest⟩ := Option.bind_eq_some_iff.mp h
    exact (ih hRest).trans (perform_now hFirst)

theorem invoke_now (behave : Handlers H ω) (s : Simulation H ω) (t : Task H) (rest : TaskQueue H) :
    (invoke behave s t rest).scheduler.now = s.scheduler.now := by
  rw [invoke]
  dsimp only
  split
  · rename_i c' scheduler hInvoke
    have hNow := invokeContext_now hInvoke
    exact hNow
  · rfl

theorem dispatchLoop_now (behave : Handlers H ω) (budget : Nat) :
    ∀ s : Simulation H ω, (dispatchLoop behave budget s).1.scheduler.now = s.scheduler.now := by
  induction budget with
  | zero => exact fun s => rfl
  | succ budget ih =>
    intro s
    rw [dispatchLoop]
    split
    · rfl
    · split
      · rfl
      · rename_i t rest _
        exact (ih _).trans (invoke_now behave s t rest)

theorem invoke_advance (behave : Handlers H ω) (s : Simulation H ω) (t : Task H)
    (rest : TaskQueue H) (time : Int) :
    invoke behave (advance time s) t rest = advance time (invoke behave s t rest) := by
  have hContext := invokeContext_advance ⟨t, false⟩ { s.scheduler with taskHolder := rest }
    (behave t.task t.group t.repeated s.world).1 time
  rw [invoke, invoke]
  simp only [advance] at hContext ⊢
  rw [hContext]
  cases TaskContext.invoke ⟨t, false⟩ { s.scheduler with taskHolder := rest }
    (behave t.task t.group t.repeated s.world).1 <;> rfl

theorem dispatchLoop_advance (behave : Handlers H ω) (budget : Nat) {time : Int} (h : 0 ≤ time) :
    ∀ s : Simulation H ω,
      dispatchLoop behave (dispatchLoop behave budget s).2
        (advance time (dispatchLoop behave budget s).1) =
      dispatchLoop behave budget (advance time s) := by
  induction budget with
  | zero => exact fun s => rfl
  | succ budget ih =>
    intro s
    rcases Bool.eq_false_or_eq_true s.aborted with hAborted | hAborted
    · simp only [dispatchLoop, hAborted, if_true, advance]
    · rw [dispatchLoop, if_neg (by simp [hAborted])]
      cases hDue : s.scheduler.popDue with
      | none => rfl
      | some popped =>
        obtain ⟨t, rest⟩ := popped
        obtain ⟨hContainer, hEnd⟩ := popDue_eq_some.mp hDue
        have hLater : (advance time s).scheduler.popDue = some (t, rest) :=
          popDue_eq_some.mpr ⟨hContainer, hEnd.trans (Int.le_add_of_nonneg_right h)⟩
        rw [dispatchLoop, if_neg (by simp [advance, hAborted]), hLater]
        simp only [invoke_advance]
        exact ih (invoke behave s t rest)

theorem update_update (behave : Handlers H ω) (budget : Nat) (s : Simulation H ω)
    (first second : Nat) :
    update behave (update behave budget s first).2 (update behave budget s first).1 second =
      update behave budget s (first + second) := by
  have hTicks : 0 ≤ (second : Int) * ticksPerMillisecond :=
    Int.mul_nonneg (Int.natCast_nonneg _) (by decide)
  simp only [update]
  rw [dispatchLoop_advance behave budget hTicks, advance_advance, Nat.cast_add, Int.add_mul]

theorem updateAll_eq_update (behave : Handlers H ω) (rest : List Nat) :
    ∀ (budget : Nat) (s : Simulation H ω) (first : Nat),
      updateAll behave budget s (first :: rest) = update behave budget s (first + rest.sum) := by
  induction rest with
  | nil => exact fun budget s first => rfl
  | cons second rest ih =>
    intro budget s first
    rw [updateAll, ih, update_update, List.sum_cons]

/-! ## A periodic task -/

/-- Every invocation of the handler repeats its task once, for this period; a task with
this duration may leave it out. -/
def Periodic (behave : Handlers H ω) (d duration : Int) (task : H) : Prop :=
  ∀ group repeated world,
    (behave task group repeated world).1.filter ContextAction.isRepeat = [.repeatFor d] ∨
    duration = d ∧
      (behave task group repeated world).1.filter ContextAction.isRepeat = [.repeatSame]

def sightings (id : Nat) (q : TaskQueue H) : List (Int × Int × H) :=
  (q.container.filter fun t => t.id = id).map fun t => (t.taskEnd, t.duration, t.task)

theorem sightings_push_other {id : Nat} {t : Task H} (h : t.id ≠ id) (q : TaskQueue H) :
    sightings id (q.push t) = sightings id q := by
  rw [sightings, TaskQueue.push, insertUpper_filter_of_not (by simpa using h), sightings]

theorem sightings_push_self {t : Task H} {q : TaskQueue H} (h : sightings t.id q = []) :
    sightings t.id (q.push t) = [(t.taskEnd, t.duration, t.task)] := by
  rw [sightings, TaskQueue.push,
    insertUpper_filter_of_none (by simp) (List.map_eq_nil_iff.mp h), List.map_singleton]

theorem sightings_setGroup (id other : Nat) (group : Option UInt32) (q : TaskQueue H) :
    sightings id (q.setGroup other group) = sightings id q := by
  simp only [sightings, TaskQueue.setGroup, List.filter_map, List.map_map]
  have hSame : (fun t : Task H => decide (t.id = id)) ∘
      (fun t => if t.id = other then { t with group := group } else t) =
        fun t => decide (t.id = id) := by
    funext t
    simp only [Function.comp]
    split <;> rfl
  rw [hSame]
  apply List.map_congr_left
  intro t _
  simp only [Function.comp]
  split <;> rfl

/-- The scheduler has kept its tasks of one number, up to their groups. -/
structure Keeps (id : Nat) (s s' : TaskScheduler H) : Prop where
  sightings : sightings id s'.taskHolder = sightings id s.taskHolder
  nextTask : s.nextTask ≤ s'.nextTask

theorem perform_keeps {id : Nat} {c c' : TaskContext H} {s s' : TaskScheduler H}
    {action : ContextAction H} (h : c.perform s action = some (c', s')) (hId : id < s.nextTask)
    (hOther : c.task.id ≠ id) : Keeps id s s' ∧ c'.task.id = c.task.id := by
  cases action with
  | repeatFor duration | repeatSame =>
    obtain ⟨-, -, rfl, hTask⟩ := TaskContext.repeatFor_eq_some h
    have hSame : c'.task.id = c.task.id := by rw [hTask]
    exact ⟨⟨sightings_push_other (hSame.trans_ne hOther) _, Nat.le_refl _⟩, hSame⟩
  | schedule time group task =>
    obtain ⟨rfl, rfl⟩ := Prod.mk.inj (Option.some.inj h)
    exact ⟨⟨sightings_push_other hId.ne' _, Nat.le_succ _⟩, rfl⟩
  | setGroup | clearGroup =>
    obtain ⟨rfl, rfl⟩ := Prod.mk.inj (Option.some.inj h)
    exact ⟨⟨sightings_setGroup _ _ _ _, Nat.le_refl _⟩, rfl⟩

theorem invokeContext_keeps {id : Nat} {script : List (ContextAction H)} :
    ∀ {c c' : TaskContext H} {s s' : TaskScheduler H}, c.invoke s script = some (c', s') →
      id < s.nextTask → c.task.id ≠ id → Keeps id s s' := by
  induction script with
  | nil =>
    rintro c c' s s' h hId hOther
    obtain ⟨rfl, rfl⟩ := Prod.mk.inj (Option.some.inj h)
    exact ⟨rfl, Nat.le_refl _⟩
  | cons action script ih =>
    intro c c' s s' h hId hOther
    obtain ⟨⟨c₁, s₁⟩, hFirst, hRest⟩ := Option.bind_eq_some_iff.mp h
    obtain ⟨hKeeps, hSame⟩ := perform_keeps hFirst hId hOther
    have hLater := ih hRest (hId.trans_le hKeeps.nextTask) (hSame ▸ hOther)
    exact ⟨hLater.sightings.trans hKeeps.sightings, hKeeps.nextTask.trans hLater.nextTask⟩

/-- The task of a context is in the queue once it has been repeated, and never before. -/
structure Owned (c : TaskContext H) (s : TaskScheduler H) : Prop where
  waiting : c.consumed = false → sightings c.task.id s.taskHolder = []
  queued : c.consumed = true →
    sightings c.task.id s.taskHolder = [(c.task.taskEnd, c.task.duration, c.task.task)]
  numbered : c.task.id < s.nextTask

/-- What an action makes of the due time and the duration of its own task. -/
structure Moved (c c' : TaskContext H) (d : Option Int) : Prop where
  id : c'.task.id = c.task.id
  task : c'.task.task = c.task.task
  consumed : c'.consumed = (c.consumed || d.isSome)
  taskEnd : c'.task.taskEnd = c.task.taskEnd + d.getD 0
  duration : c'.task.duration = d.getD c.task.duration

/-- The duration that an action repeats the task of this context for. -/
def period (c : TaskContext H) : ContextAction H → Option Int
  | .repeatFor duration => some duration
  | .repeatSame => some c.task.duration
  | _ => none

theorem perform_owned {c c' : TaskContext H} {s s' : TaskScheduler H} {action : ContextAction H}
    (h : c.perform s action = some (c', s')) (hOwned : Owned c s) :
    Owned c' s' ∧ Moved c c' (period c action) := by
  cases action with
  | repeatFor duration | repeatSame =>
    obtain ⟨hFresh, hConsumed, rfl, hTask⟩ := TaskContext.repeatFor_eq_some h
    have hSame : c'.task.id = c.task.id := by rw [hTask]
    have hNone : sightings c'.task.id s.taskHolder = [] := hSame ▸ hOwned.waiting hFresh
    refine ⟨⟨fun hNot => ?_, fun _ => sightings_push_self hNone, hSame ▸ hOwned.numbered⟩, ?_⟩
    · rw [hConsumed] at hNot
      cases hNot
    · refine ⟨hSame, ?_, ?_, ?_, ?_⟩
      · rw [hTask]
      · rw [hConsumed]
        exact (Bool.or_true _).symm
      · rw [hTask]
        rfl
      · rw [hTask]
        rfl
  | schedule time group task =>
    obtain ⟨rfl, rfl⟩ := Prod.mk.inj (Option.some.inj h)
    have hSame := sightings_push_other (t := ⟨s.nextTask, c.task.taskEnd + time, time, group, 0, task⟩)
      hOwned.numbered.ne' s.taskHolder
    refine ⟨⟨fun hConsumed => hSame.trans (hOwned.waiting hConsumed),
      fun hConsumed => hSame.trans (hOwned.queued hConsumed),
      hOwned.numbered.trans (Nat.lt_succ_self _)⟩, ⟨rfl, rfl, ?_, ?_, rfl⟩⟩
    · simp [period]
    · simp [period]
  | setGroup | clearGroup =>
    obtain ⟨rfl, rfl⟩ := Prod.mk.inj (Option.some.inj h)
    refine ⟨⟨fun hConsumed => (sightings_setGroup _ _ _ _).trans (hOwned.waiting hConsumed),
      fun hConsumed => (sightings_setGroup _ _ _ _).trans (hOwned.queued hConsumed),
      hOwned.numbered⟩, ⟨rfl, rfl, ?_, ?_, rfl⟩⟩
    · simp [period]
    · simp [period]

theorem invokeContext_still {script : List (ContextAction H)}
    (hNone : script.filter ContextAction.isRepeat = []) :
    ∀ {c c' : TaskContext H} {s s' : TaskScheduler H}, c.invoke s script = some (c', s') →
      Owned c s → Owned c' s' ∧ Moved c c' none := by
  induction script with
  | nil =>
    rintro c c' s s' h hOwned
    obtain ⟨rfl, rfl⟩ := Prod.mk.inj (Option.some.inj h)
    exact ⟨hOwned, ⟨rfl, rfl, by simp, by simp, rfl⟩⟩
  | cons action script ih =>
    intro c c' s s' h hOwned
    obtain ⟨⟨c₁, s₁⟩, hFirst, hRest⟩ := Option.bind_eq_some_iff.mp h
    obtain ⟨hHead, hTail⟩ : action.isRepeat = false ∧ script.filter ContextAction.isRepeat = [] := by
      rw [List.filter_cons] at hNone
      split at hNone
      · cases hNone
      · rename_i hHead
        exact ⟨Bool.eq_false_iff.mpr hHead, hNone⟩
    have hPeriod : period c action = none := by
      cases action <;> first | rfl | cases hHead
    obtain ⟨hOwned₁, hMoved₁⟩ := perform_owned hFirst hOwned
    obtain ⟨hOwned', hMoved⟩ := ih hTail hRest hOwned₁
    rw [hPeriod] at hMoved₁
    refine ⟨hOwned', ⟨hMoved.id.trans hMoved₁.id, hMoved.task.trans hMoved₁.task, ?_, ?_, ?_⟩⟩
    · rw [hMoved.consumed, hMoved₁.consumed]
      simp
    · rw [hMoved.taskEnd, hMoved₁.taskEnd]
      simp
    · rw [hMoved.duration, hMoved₁.duration]
      rfl

theorem invokeContext_repeats {script : List (ContextAction H)} {d : Int} :
    ∀ {c c' : TaskContext H} {s s' : TaskScheduler H}, c.invoke s script = some (c', s') →
      Owned c s → (script.filter ContextAction.isRepeat = [.repeatFor d] ∨
        c.task.duration = d ∧ script.filter ContextAction.isRepeat = [.repeatSame]) →
      Owned c' s' ∧ Moved c c' (some d) := by
  induction script with
  | nil =>
    rintro c c' s s' - - (hOnce | ⟨-, hOnce⟩) <;> cases hOnce
  | cons action script ih =>
    intro c c' s s' h hOwned hOnce
    obtain ⟨⟨c₁, s₁⟩, hFirst, hRest⟩ := Option.bind_eq_some_iff.mp h
    obtain ⟨hOwned₁, hMoved₁⟩ := perform_owned hFirst hOwned
    cases hHead : action.isRepeat with
    | true =>
      have hPeriod : period c action = some d ∧ script.filter ContextAction.isRepeat = [] := by
        rw [List.filter_cons_of_pos hHead] at hOnce
        rcases hOnce with hOnce | ⟨rfl, hOnce⟩
        · obtain ⟨rfl, hTail⟩ := List.cons.inj hOnce
          exact ⟨rfl, hTail⟩
        · obtain ⟨rfl, hTail⟩ := List.cons.inj hOnce
          exact ⟨rfl, hTail⟩
      obtain ⟨hOwned', hMoved⟩ := invokeContext_still hPeriod.2 hRest hOwned₁
      rw [hPeriod.1] at hMoved₁
      refine ⟨hOwned', ⟨hMoved.id.trans hMoved₁.id, hMoved.task.trans hMoved₁.task, ?_, ?_, ?_⟩⟩
      · rw [hMoved.consumed, hMoved₁.consumed]
        simp
      · rw [hMoved.taskEnd, hMoved₁.taskEnd]
        simp
      · rw [hMoved.duration, hMoved₁.duration]
        rfl
    | false =>
      have hPeriod : period c action = none := by
        cases action <;> first | rfl | cases hHead
      rw [hPeriod] at hMoved₁
      rw [List.filter_cons_of_neg (by simp [hHead])] at hOnce
      have hDuration : c₁.task.duration = c.task.duration := hMoved₁.duration
      obtain ⟨hOwned', hMoved⟩ := ih hRest hOwned₁ (by rwa [hDuration])
      refine ⟨hOwned', ⟨hMoved.id.trans hMoved₁.id, hMoved.task.trans hMoved₁.task, ?_, ?_, ?_⟩⟩
      · rw [hMoved.consumed, hMoved₁.consumed]
        simp
      · rw [hMoved.taskEnd, hMoved₁.taskEnd]
        simp
      · rw [hMoved.duration]
        rfl

def runs (id : Nat) (s : Simulation H ω) : Nat := (s.trace.filter fun run => run.1 = id).length

/-- The periodic task has run so often, and waits for its next due time. -/
structure Clockwork (behave : Handlers H ω) (id : Nat) (task : H) (t₀ d : Int)
    (s : Simulation H ω) : Prop where
  numbered : id < s.scheduler.nextTask
  queued : ∃ duration, Periodic behave d duration task ∧
    sightings id s.scheduler.taskHolder = [(t₀ + runs id s * d, duration, task)]
  reached : 0 < runs id s → t₀ + (runs id s - 1 : Int) * d ≤ s.scheduler.now

theorem runs_invoke (behave : Handlers H ω) (id : Nat) (s : Simulation H ω) (t : Task H)
    (rest : TaskQueue H) :
    runs id (invoke behave s t rest) = runs id s + if t.id = id then 1 else 0 := by
  have hTrace : (invoke behave s t rest).trace = s.trace ++ [(t.id, t.repeated, t.taskEnd)] := by
    rw [invoke]
    dsimp only
    split <;> rfl
  rw [runs, hTrace, List.filter_append, List.length_append, runs, List.filter_singleton]
  split
  · rename_i hId
    simp [hId]
  · rename_i hId
    simp [hId]

theorem sightings_of_container {id : Nat} {q rest : TaskQueue H} {t : Task H}
    (h : q.container = t :: rest.container) :
    sightings id q =
      (if t.id = id then [(t.taskEnd, t.duration, t.task)] else []) ++ sightings id rest := by
  rw [sightings, h, List.filter_cons]
  split
  · rename_i hId
    rw [if_pos (by simpa using hId)]
    rfl
  · rename_i hId
    rw [if_neg (by simpa using hId)]
    rfl

theorem invoke_eq {behave : Handlers H ω} {s : Simulation H ω} {t : Task H} {rest : TaskQueue H}
    (hOk : (invoke behave s t rest).aborted = false) :
    ∃ c', TaskContext.invoke ⟨t, false⟩ { s.scheduler with taskHolder := rest }
      (behave t.task t.group t.repeated s.world).1 =
        some (c', (invoke behave s t rest).scheduler) := by
  rw [invoke] at hOk ⊢
  dsimp only at hOk ⊢
  split at hOk
  · rename_i c' s' hInvoke
    rw [hInvoke]
    exact ⟨c', rfl⟩
  · cases hOk

theorem invoke_clockwork {behave : Handlers H ω} {id : Nat} {task : H} {t₀ d : Int}
    {s : Simulation H ω} {t : Task H} {rest : TaskQueue H}
    (hDue : s.scheduler.popDue = some (t, rest)) (h : Clockwork behave id task t₀ d s)
    (hOk : (invoke behave s t rest).aborted = false) :
    Clockwork behave id task t₀ d (invoke behave s t rest) := by
  obtain ⟨hContainer, hEnd⟩ := popDue_eq_some.mp hDue
  obtain ⟨c', hInvoke⟩ := invoke_eq hOk
  obtain ⟨duration, hPeriodic, hQueued⟩ := h.queued
  have hRuns := runs_invoke behave id s t rest
  have hNow := invoke_now behave s t rest
  rw [sightings_of_container hContainer] at hQueued
  generalize invoke behave s t rest = next at hInvoke hRuns hNow ⊢
  by_cases hId : t.id = id
  · subst hId
    rw [if_pos rfl] at hQueued hRuns
    obtain ⟨hHead, hNone⟩ := List.cons.inj hQueued
    obtain ⟨hStart, hRest⟩ := Prod.mk.inj hHead
    obtain ⟨hDuration, hTask⟩ := Prod.mk.inj hRest
    have hOwned : Owned ⟨t, false⟩ { s.scheduler with taskHolder := rest } :=
      ⟨fun _ => hNone, fun hConsumed => (by cases hConsumed), h.numbered⟩
    have hOnce := hPeriodic t.group t.repeated s.world
    rw [← hTask, ← hDuration] at hOnce
    obtain ⟨hOwned', hMoved⟩ := invokeContext_repeats hInvoke hOwned hOnce
    have hSeen := hOwned'.queued (by rw [hMoved.consumed]; rfl)
    have hSame : c'.task.id = t.id := hMoved.id
    rw [hSame] at hSeen
    have hNumbered := hOwned'.numbered
    rw [hSame] at hNumbered
    refine ⟨hNumbered, ⟨d, fun group repeated world => ?_, ?_⟩, fun _ => ?_⟩
    · rcases hPeriodic group repeated world with hFor | ⟨-, hSame⟩
      · exact Or.inl hFor
      · exact Or.inr ⟨rfl, hSame⟩
    · have hTaskEnd : c'.task.taskEnd = t.taskEnd + d := hMoved.taskEnd
      have hDuration' : c'.task.duration = d := hMoved.duration
      have hTask' : c'.task.task = task := hMoved.task.trans hTask
      rw [hSeen, hTaskEnd, hDuration', hTask', hStart, hRuns, Nat.cast_add, Int.add_mul,
        Nat.cast_one, Int.one_mul, Int.add_assoc]
    · rw [hRuns, hNow, Nat.cast_add, Nat.cast_one, Int.add_sub_cancel, ← hStart]
      exact hEnd
  · rw [if_neg hId] at hQueued hRuns
    have hKeeps := invokeContext_keeps hInvoke h.numbered hId
    refine ⟨h.numbered.trans_le hKeeps.nextTask, ⟨duration, hPeriodic, ?_⟩, fun hSome => ?_⟩
    · rw [hKeeps.sightings, hRuns]
      exact hQueued
    · rw [hRuns] at hSome ⊢
      rw [hNow]
      exact h.reached hSome

theorem dispatchLoop_aborted (behave : Handlers H ω) (budget : Nat) {s : Simulation H ω}
    (h : s.aborted = true) : dispatchLoop behave budget s = (s, budget) := by
  cases budget with
  | zero => rfl
  | succ budget => rw [dispatchLoop, if_pos h]

theorem dispatchLoop_clockwork {behave : Handlers H ω} {id : Nat} {task : H} {t₀ d : Int}
    (budget : Nat) : ∀ s : Simulation H ω, Clockwork behave id task t₀ d s →
      (dispatchLoop behave budget s).1.aborted = false →
      Clockwork behave id task t₀ d (dispatchLoop behave budget s).1 := by
  induction budget with
  | zero => exact fun s h _ => h
  | succ budget ih =>
    intro s h hOk
    rw [dispatchLoop] at hOk ⊢
    split at hOk
    · rename_i hAborted
      rw [if_pos hAborted]
      exact h
    · rename_i hRunning
      rw [if_neg hRunning]
      cases hDue : s.scheduler.popDue with
      | none => exact h
      | some popped =>
        obtain ⟨t, rest⟩ := popped
        rw [hDue] at hOk
        have hStill : (invoke behave s t rest).aborted = false := by
          rcases Bool.eq_false_or_eq_true (invoke behave s t rest).aborted with hAborted | hStill
          · simp only [dispatchLoop_aborted behave budget hAborted, hAborted] at hOk
            cases hOk
          · exact hStill
        exact ih _ (invoke_clockwork hDue h hStill) hOk

theorem dispatchLoop_finished (behave : Handlers H ω) (budget : Nat) :
    ∀ s : Simulation H ω, 0 < (dispatchLoop behave budget s).2 →
      (dispatchLoop behave budget s).1.aborted = true ∨
        (dispatchLoop behave budget s).1.scheduler.popDue = none := by
  induction budget with
  | zero => exact fun s h => absurd h (Nat.lt_irrefl 0)
  | succ budget ih =>
    intro s h
    rw [dispatchLoop] at h ⊢
    split
    · rename_i hAborted
      exact Or.inl hAborted
    · rename_i hRunning
      rw [if_neg hRunning] at h
      cases hDue : s.scheduler.popDue with
      | none => exact Or.inr hDue
      | some popped =>
        rw [hDue] at h
        exact ih _ h

/-- The updates ended before the budget did, and met no assertion. -/
def Returned (result : Simulation H ω × Nat) : Prop := 0 < result.2 ∧ result.1.aborted = false

theorem dispatchLoop_runs {behave : Handlers H ω} {id : Nat} {task : H} {t₀ d : Int} (hPos : 0 < d)
    {s : Simulation H ω} (h : Clockwork behave id task t₀ d s) (hReached : t₀ ≤ s.scheduler.now)
    {budget : Nat} (hReturned : Returned (dispatchLoop behave budget s)) :
    (runs id (dispatchLoop behave budget s).1 : Int) = (s.scheduler.now - t₀) / d + 1 := by
  obtain ⟨hBudget, hOk⟩ := hReturned
  have hEnd := dispatchLoop_clockwork budget s h hOk
  have hNow := dispatchLoop_now behave budget s
  have hDone := (dispatchLoop_finished behave budget s hBudget).resolve_left (by simp [hOk])
  have hLater := popDue_eq_none.mp hDone
  generalize (dispatchLoop behave budget s).1 = last at hEnd hNow hLater
  obtain ⟨duration, -, hQueued⟩ := hEnd.queued
  have hWaits : s.scheduler.now < t₀ + runs id last * d := by
    have hMem : (t₀ + runs id last * d, duration, task) ∈ sightings id last.scheduler.taskHolder := by
      rw [hQueued]
      exact List.mem_singleton_self _
    obtain ⟨t, ht, hEq⟩ := List.mem_map.mp hMem
    rw [← (Prod.mk.inj hEq).1, ← hNow]
    exact hLater t (List.mem_of_mem_filter ht)
  have hSome : 0 < runs id last := by
    rcases Nat.eq_zero_or_pos (runs id last) with hZero | hSome
    · rw [hZero] at hWaits
      simp only [Nat.cast_zero, Int.zero_mul] at hWaits
      omega
    · exact hSome
  have hLast := hEnd.reached hSome
  rw [hNow] at hLast
  have hFloor : (s.scheduler.now - t₀) / d = (runs id last : Int) - 1 := by
    apply le_antisymm
    · apply Int.lt_add_one_iff.mp
      rw [Int.sub_add_cancel]
      exact Int.ediv_lt_of_lt_mul hPos (by omega)
    · exact Int.le_ediv_of_mul_le hPos (by omega)
  rw [hFloor, Int.sub_add_cancel]

/-! ## Updates that return -/

def Positive : ContextAction H → Prop
  | .repeatFor duration => 0 < duration
  | .schedule time _ _ => 0 < time
  | _ => True

/-- The handlers use positive durations only and repeat a context at most once. -/
def Steady (behave : Handlers H ω) : Prop :=
  ∀ task group repeated world,
    (∀ action ∈ (behave task group repeated world).1, Positive action) ∧
      ((behave task group repeated world).1.filter ContextAction.isRepeat).length ≤ 1

def ends (s : TaskScheduler H) : List Int := s.taskHolder.container.map Task.taskEnd

/-- The scheduler has got more tasks, all of them later than some bound. -/
structure Grows (bound : Int) (s s' : TaskScheduler H) : Prop where
  later : ∃ new, (ends s').Perm (ends s ++ new) ∧ ∀ e ∈ new, bound < e
  positive : (∀ t ∈ s.taskHolder.container, 0 < t.duration) →
    ∀ t ∈ s'.taskHolder.container, 0 < t.duration

theorem Grows.refl (bound : Int) (s : TaskScheduler H) : Grows bound s s :=
  ⟨⟨[], by rw [List.append_nil], fun _ h => (List.not_mem_nil h).elim⟩, fun h => h⟩

theorem Grows.trans {bound : Int} {s₁ s₂ s₃ : TaskScheduler H} (h₁ : Grows bound s₁ s₂)
    (h₂ : Grows bound s₂ s₃) : Grows bound s₁ s₃ := by
  obtain ⟨first, hFirst, hLater₁⟩ := h₁.later
  obtain ⟨second, hSecond, hLater₂⟩ := h₂.later
  refine ⟨⟨first ++ second, ?_, ?_⟩, h₂.positive ∘ h₁.positive⟩
  · rw [← List.append_assoc]
    exact hSecond.trans (hFirst.append_right second)
  · intro e he
    rcases List.mem_append.mp he with he | he
    · exact hLater₁ e he
    · exact hLater₂ e he

theorem insertTask_grows {bound : Int} (s : TaskScheduler H) {t : Task H} (hEnd : bound < t.taskEnd)
    (hDuration : 0 < t.duration) : Grows bound s (s.insertTask t) := by
  refine ⟨⟨[t.taskEnd], ?_, ?_⟩, ?_⟩
  · have hPerm : (ends (s.insertTask t)).Perm (t.taskEnd :: ends s) :=
      (insertUpper_perm t s.taskHolder.container).map Task.taskEnd
    exact hPerm.trans (List.perm_append_singleton _ _).symm
  · intro e he
    rw [List.mem_singleton.mp he]
    exact hEnd
  · intro h x hx
    rcases mem_insertUpper.mp hx with rfl | hx
    · exact hDuration
    · exact h x hx

theorem setGroup_grows (bound : Int) (s : TaskScheduler H) (id : Nat) (group : Option UInt32) :
    Grows bound s { s with taskHolder := s.taskHolder.setGroup id group } := by
  refine ⟨⟨[], ?_, fun _ h => (List.not_mem_nil h).elim⟩, ?_⟩
  · rw [List.append_nil, ends, ends, TaskQueue.setGroup, List.map_map]
    apply List.Perm.of_eq
    apply List.map_congr_left
    intro t _
    simp only [Function.comp]
    split <;> rfl
  · intro h x hx
    obtain ⟨t, ht, rfl⟩ := List.mem_map.mp hx
    have hDuration := h t ht
    split <;> exact hDuration

theorem perform_grows {bound : Int} {c : TaskContext H} (s : TaskScheduler H)
    {action : ContextAction H} (hPositive : Positive action) (hBound : bound ≤ c.task.taskEnd)
    (hDuration : 0 < c.task.duration) (hFresh : action.isRepeat = true → c.consumed = false) :
    ∃ c' s', c.perform s action = some (c', s') ∧ Grows bound s s' ∧ bound ≤ c'.task.taskEnd ∧
      0 < c'.task.duration ∧ c'.consumed = (c.consumed || action.isRepeat) := by
  cases action with
  | repeatFor duration =>
    have hLater : bound < c.task.taskEnd + duration := by
      have hPos : 0 < duration := hPositive
      omega
    refine ⟨_, _, if_neg (by simp [hFresh rfl]), insertTask_grows s hLater hPositive, hLater.le,
      hPositive, ?_⟩
    simp [ContextAction.isRepeat]
  | repeatSame =>
    have hLater : bound < c.task.taskEnd + c.task.duration := by omega
    refine ⟨_, _, if_neg (by simp [hFresh rfl]), insertTask_grows s hLater hDuration, hLater.le,
      hDuration, ?_⟩
    simp [ContextAction.isRepeat]
  | schedule time group task =>
    have hLater : bound < c.task.taskEnd + time := by
      have hPos : 0 < time := hPositive
      omega
    have hGrows := insertTask_grows s (t := ⟨s.nextTask, c.task.taskEnd + time, time, group, 0, task⟩)
      hLater hPositive
    exact ⟨_, _, rfl, ⟨hGrows.later, hGrows.positive⟩, hBound, hDuration,
      by simp [ContextAction.isRepeat]⟩
  | setGroup | clearGroup =>
    exact ⟨_, _, rfl, setGroup_grows bound s _ _, hBound, hDuration,
      by simp [ContextAction.isRepeat]⟩

theorem invokeContext_grows {bound : Int} {script : List (ContextAction H)} :
    ∀ (c : TaskContext H) (s : TaskScheduler H), (∀ action ∈ script, Positive action) →
      bound ≤ c.task.taskEnd → 0 < c.task.duration →
      (script.filter ContextAction.isRepeat).length + c.consumed.toNat ≤ 1 →
      ∃ c' s', c.invoke s script = some (c', s') ∧ Grows bound s s' := by
  induction script with
  | nil => exact fun c s _ _ _ _ => ⟨c, s, rfl, Grows.refl bound s⟩
  | cons action script ih =>
    intro c s hPositive hBound hDuration hOnce
    have hFresh : action.isRepeat = true → c.consumed = false := by
      intro hRepeat
      rw [List.filter_cons_of_pos hRepeat, List.length_cons] at hOnce
      cases hConsumed : c.consumed with
      | false => rfl
      | true =>
        rw [hConsumed, Bool.toNat_true] at hOnce
        omega
    obtain ⟨c₁, s₁, hFirst, hGrows, hBound₁, hDuration₁, hConsumed⟩ :=
      perform_grows s (hPositive action List.mem_cons_self) hBound hDuration hFresh
    have hOnce₁ : (script.filter ContextAction.isRepeat).length + c₁.consumed.toNat ≤ 1 := by
      rw [hConsumed]
      cases hRepeat : action.isRepeat with
      | true =>
        rw [List.filter_cons_of_pos hRepeat, List.length_cons, hFresh hRepeat] at hOnce
        simpa [hFresh hRepeat] using hOnce
      | false =>
        rw [List.filter_cons_of_neg (by simp [hRepeat])] at hOnce
        simpa using hOnce
    obtain ⟨c', s', hRest, hGrows'⟩ := ih c₁ s₁
      (fun a ha => hPositive a (List.mem_cons_of_mem _ ha)) hBound₁ hDuration₁ hOnce₁
    refine ⟨c', s', ?_, hGrows.trans hGrows'⟩
    rw [TaskContext.invoke, hFirst]
    exact hRest

def delays (s : TaskScheduler H) : Multiset Nat :=
  ((ends s).filter fun e => e ≤ s.now).map fun e => (s.now - e).toNat

theorem delays_cutExpand {s s' : TaskScheduler H} {t : Task H} {rest : TaskQueue H}
    (hContainer : s.taskHolder.container = t :: rest.container) (hEnd : t.taskEnd ≤ s.now)
    (hGrows : Grows t.taskEnd { s with taskHolder := rest } s') (hNow : s'.now = s.now) :
    Relation.CutExpand (· < ·) (delays s') (delays s) := by
  obtain ⟨new, hPerm, hLater⟩ := hGrows.later
  refine ⟨(new.filter fun e => e ≤ s.now).map fun e => (s.now - e).toNat,
    (s.now - t.taskEnd).toNat, ?_, ?_⟩
  · intro x hx
    obtain ⟨e, he, rfl⟩ := List.mem_map.mp (Multiset.mem_coe.mp hx)
    have hDue := List.of_mem_filter he
    have hMore := hLater e (List.mem_of_mem_filter he)
    simp only [decide_eq_true_eq] at hDue
    omega
  · have hOld : ends s = t.taskEnd :: rest.container.map Task.taskEnd := by
      rw [ends, hContainer, List.map_cons]
    have hNew : (delays s') = ((((rest.container.map Task.taskEnd ++ new).filter
        fun e => e ≤ s.now).map fun e => (s.now - e).toNat : List Nat) : Multiset Nat) := by
      rw [delays, hNow]
      exact Multiset.coe_eq_coe.mpr ((hPerm.filter _).map _)
    rw [hNew, delays, hOld, List.filter_cons_of_pos (by simpa using hEnd), List.filter_append,
      List.map_append, List.map_cons, ← Multiset.coe_add, ← Multiset.cons_coe, Multiset.cons_add,
      ← Multiset.singleton_add]
    exact add_comm _ _

theorem dispatchLoop_returns {behave : Handlers H ω} (hSteady : Steady behave) :
    ∀ (m : Multiset Nat) (s : Simulation H ω), delays s.scheduler = m → s.aborted = false →
      (∀ t ∈ s.scheduler.taskHolder.container, 0 < t.duration) →
      ∃ budget, 0 < (dispatchLoop behave budget s).2 ∧
        (dispatchLoop behave budget s).1.aborted = false := by
  intro m
  induction m using (wellFounded_lt (α := Nat)).cutExpand.induction with
  | h m ih =>
    intro s hDelays hRunning hDurations
    cases hDue : s.scheduler.popDue with
    | none =>
      refine ⟨1, ?_⟩
      rw [dispatchLoop, if_neg (by simp [hRunning]), hDue]
      exact ⟨Nat.one_pos, hRunning⟩
    | some popped =>
      obtain ⟨t, rest⟩ := popped
      obtain ⟨hContainer, hEnd⟩ := popDue_eq_some.mp hDue
      obtain ⟨hPositive, hOnce⟩ := hSteady t.task t.group t.repeated s.world
      have hDuration : 0 < t.duration := hDurations t (by rw [hContainer]; exact List.mem_cons_self)
      obtain ⟨c', scheduler, hInvoke, hGrows⟩ := invokeContext_grows ⟨t, false⟩
        { s.scheduler with taskHolder := rest } hPositive (Int.le_refl _) hDuration
        (by simpa using hOnce)
      have hNext : ∃ world trace, invoke behave s t rest = ⟨scheduler, world, trace, false⟩ := by
        simp only [invoke, hInvoke]
        exact ⟨_, _, rfl⟩
      obtain ⟨world, trace, hNext⟩ := hNext
      have hNow := invokeContext_now hInvoke
      have hShrinks : Relation.CutExpand (· < ·) (delays scheduler) m := by
        rw [← hDelays]
        exact delays_cutExpand hContainer hEnd hGrows hNow
      have hRest : ∀ x ∈ rest.container, 0 < x.duration :=
        fun x hx => hDurations x (by rw [hContainer]; exact List.mem_cons_of_mem _ hx)
      obtain ⟨budget, hReturns⟩ := ih _ hShrinks (invoke behave s t rest) (by rw [hNext])
        (by rw [hNext]) (by rw [hNext]; exact hGrows.positive hRest)
      refine ⟨budget + 1, ?_⟩
      rw [dispatchLoop, if_neg (by simp [hRunning]), hDue]
      exact hReturns

/-! ## All updates -/

def start (scheduler : TaskScheduler H) (world : ω) : Simulation H ω := ⟨scheduler, world, [], false⟩

structure Numbered (s : TaskScheduler H) : Prop where
  nodup : (s.taskHolder.container.map Task.id).Nodup
  bound : ∀ t ∈ s.taskHolder.container, t.id < s.nextTask

theorem sightings_of_mem {s : TaskScheduler H} (h : Numbered s) {t : Task H}
    (ht : t ∈ s.taskHolder.container) :
    sightings t.id s.taskHolder = [(t.taskEnd, t.duration, t.task)] := by
  have hNodup := h.nodup
  rw [sightings]
  generalize s.taskHolder.container = container at ht hNodup
  induction container with
  | nil => cases ht
  | cons x rest ih =>
    obtain ⟨hFresh, hRest⟩ := List.nodup_cons.mp hNodup
    rcases List.mem_cons.mp ht with rfl | ht
    · have hNone : rest.filter (fun x => x.id = t.id) = [] := by
        apply List.filter_eq_nil_iff.mpr
        intro x hx hSame
        exact hFresh (List.mem_map.mpr ⟨x, hx, by simpa using hSame⟩)
      rw [List.filter_cons_of_pos (by simp), hNone]
      rfl
    · have hOther : x.id ≠ t.id := fun hSame => hFresh (List.mem_map.mpr ⟨t, ht, hSame.symm⟩)
      rw [List.filter_cons_of_neg (by simpa using hOther)]
      exact ih ht hRest

/-- All ways of cutting the same time into updates execute the same tasks in the same order. A
periodic task runs once for each of its due times in updates that return, and they return
whenever all durations are positive. -/
theorem updates_agree (behave : Handlers H ω) (scheduler : TaskScheduler H) (world : ω)
    (first second : List Nat) (hFirst : first ≠ []) (hSecond : second ≠ [])
    (hSum : first.sum = second.sum) :
    (∀ budget, updateAll behave budget (start scheduler world) first =
      updateAll behave budget (start scheduler world) second) ∧
    (∀ budget t d, Numbered scheduler → t ∈ scheduler.taskHolder.container → 0 < d →
      Periodic behave d t.duration t.task →
      t.taskEnd ≤ scheduler.now + first.sum * ticksPerMillisecond →
      Returned (updateAll behave budget (start scheduler world) first) →
      (runs t.id (updateAll behave budget (start scheduler world) first).1 : Int) =
        (scheduler.now + first.sum * ticksPerMillisecond - t.taskEnd) / d + 1) ∧
    (Steady behave → (∀ t ∈ scheduler.taskHolder.container, 0 < t.duration) →
      ∃ budget, Returned (updateAll behave budget (start scheduler world) first)) := by
  obtain ⟨head₁, rest₁, rfl⟩ := List.exists_cons_of_ne_nil hFirst
  obtain ⟨head₂, rest₂, rfl⟩ := List.exists_cons_of_ne_nil hSecond
  rw [List.sum_cons, List.sum_cons] at hSum
  simp only [updateAll_eq_update, List.sum_cons]
  refine ⟨fun budget => by rw [hSum], ?_, ?_⟩
  · intro budget t d hNumbered ht hPos hPeriodic hReached hReturned
    have hStart : Clockwork behave t.id t.task t.taskEnd d
        (advance ((head₁ + rest₁.sum : Nat) * ticksPerMillisecond) (start scheduler world)) := by
      refine ⟨hNumbered.bound t ht, ⟨t.duration, hPeriodic, ?_⟩, fun hSome => ?_⟩
      · rw [show runs t.id (advance _ (start scheduler world)) = 0 from rfl, Nat.cast_zero,
          Int.zero_mul, Int.add_zero]
        exact sightings_of_mem hNumbered ht
      · exact absurd hSome (Nat.lt_irrefl 0)
    exact dispatchLoop_runs hPos hStart hReached hReturned
  · intro hSteady hDurations
    exact dispatchLoop_returns hSteady _ (advance _ (start scheduler world)) rfl rfl hDurations

/-- A task of two fifths of a millisecond, updated twice for one or once for two. -/
theorem updates_agree_periodic :
    let behave : Handlers Unit Unit := fun _ _ _ _ => ([.repeatFor 400000], ())
    let scheduler : TaskScheduler Unit :=
      ⟨0, TaskQueue.empty.push ⟨0, 0, 400000, none, 0, ()⟩, [], 1, 0⟩
    updateAll behave 10 (start scheduler ()) [1, 1] = updateAll behave 10 (start scheduler ()) [2] ∧
      runs 0 (updateAll behave 10 (start scheduler ()) [1, 1]).1 = 6 := by
  intro behave scheduler
  obtain ⟨hSame, hRuns, -⟩ :=
    updates_agree behave scheduler () [1, 1] [2] (by decide) (by decide) rfl
  refine ⟨hSame 10, ?_⟩
  have hCount := hRuns 10 ⟨0, 0, 400000, none, 0, ()⟩ 400000
    ⟨by decide, by decide⟩ (by decide) (by decide) (fun _ _ _ => Or.inl rfl) (by decide)
    ⟨by decide, by decide⟩
  exact Int.ofNat_inj.mp hCount

/-- Durations that a handler may use: to repeat positive ones, to schedule also zero. -/
def Allowed : ContextAction H → Prop
  | .repeatFor duration => 0 < duration
  | .schedule time _ _ => 0 ≤ time
  | _ => True

/-- One handler repeats its task at every tick, the other schedules itself at once. -/
def tickOrSpin : Handlers Bool Unit := fun ticking _ _ _ =>
  if ticking then ([.repeatFor 1], ()) else ([.schedule 0 none false], ())

/-- The spinning task stands before the ticking one, which has never run. -/
def Spinning (s : Simulation Bool Unit) : Prop :=
  runs 1 s = 0 ∧ 0 ≤ s.scheduler.now ∧ 1 < s.scheduler.nextTask ∧ ∃ id, id ≠ 1 ∧
    s.scheduler.taskHolder.container = [⟨id, 0, 0, none, 0, false⟩, ⟨1, 1, 1, none, 0, true⟩]

theorem dispatchLoop_spinning (budget : Nat) :
    ∀ s : Simulation Bool Unit, Spinning s → Spinning (dispatchLoop tickOrSpin budget s).1 := by
  induction budget with
  | zero => exact fun s h => h
  | succ budget ih =>
    intro s h
    rw [dispatchLoop]
    split
    · exact h
    · split
      · exact h
      · rename_i t rest hDue
        apply ih
        obtain ⟨hRuns, hNow, hNext, id, hId, hContainer⟩ := h
        obtain ⟨hHead, hEnd⟩ := popDue_eq_some.mp hDue
        rw [hContainer] at hHead
        obtain ⟨rfl, hRest⟩ := List.cons.inj hHead
        refine ⟨?_, ?_, ?_, s.scheduler.nextTask, hNext.ne', ?_⟩
        · rw [runs_invoke, hRuns, if_neg hId]
        · rw [invoke_now]
          exact hNow
        · exact hNext.trans (Nat.lt_succ_self _)
        · change insertUpper Task.taskEnd _ rest.container = _
          rw [← hRest]
          rfl

/-- A task that schedules itself at once keeps the periodic one from ever running. -/
theorem updates_agree_fails :
    ¬ ∀ (behave : Handlers Bool Unit) (scheduler : TaskScheduler Bool) (updates : List Nat)
      (t : Task Bool) (d : Int),
      (∀ task group repeated world, ∀ action ∈ (behave task group repeated world).1,
        Allowed action) →
      updates ≠ [] → Numbered scheduler → t ∈ scheduler.taskHolder.container → 0 < d →
      Periodic behave d t.duration t.task →
      t.taskEnd ≤ scheduler.now + updates.sum * ticksPerMillisecond →
      ∃ budget, (runs t.id (updateAll behave budget (start scheduler ()) updates).1 : Int) =
        (scheduler.now + updates.sum * ticksPerMillisecond - t.taskEnd) / d + 1 := by
  intro h
  let scheduler : TaskScheduler Bool :=
    ⟨0, (TaskQueue.empty.push ⟨0, 0, 0, none, 0, false⟩).push ⟨1, 1, 1, none, 0, true⟩, [], 2, 0⟩
  have hAllowed : ∀ task group repeated world,
      ∀ action ∈ (tickOrSpin task group repeated world).1, Allowed action := by
    intro task group repeated world action hAction
    cases task <;> rw [List.mem_singleton.mp hAction]
    · exact Int.le_refl 0
    · exact Int.one_pos
  obtain ⟨budget, hRuns⟩ := h tickOrSpin scheduler [1] ⟨1, 1, 1, none, 0, true⟩ 1 hAllowed
    (by decide) ⟨by decide, by decide⟩ (by decide) (by decide) (fun _ _ _ => Or.inl rfl) (by decide)
  have hSpins : Spinning (advance (1 * ticksPerMillisecond) (start scheduler ())) :=
    ⟨rfl, by decide, by decide, 0, by decide, rfl⟩
  have hNever : runs 1 (updateAll tickOrSpin budget (start scheduler ()) [1]).1 = 0 :=
    (dispatchLoop_spinning budget _ hSpins).1
  rw [hNever] at hRuns
  revert hRuns
  decide

end AshamaneCore.TaskGranularity
