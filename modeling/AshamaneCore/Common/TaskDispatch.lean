import AshamaneCore.Common.TaskGranularity
import AshamaneCore.Library.Transition

/-!
# Dispatch and what its callables do to it

Dispatch is a machine of two loops. Each step runs one callable, whose script
may be anything that callables can do, and asks the validator. The record keeps
the callables executed and those cancelled while they waited; the ones enqueued
are all numbers given out so far.
-/

namespace AshamaneCore.TaskDispatch

open TaskScheduler Library.Transition

variable {H : Type}

inductive Control
  | idle
  | asyncLoop
  | taskLoop
  deriving DecidableEq

inductive Crash
  | popEmptyAsync
  | popEmptyTask
  | assertion
  deriving DecidableEq

/-- What a task handler can do. Other callables have no context to act on. -/
inductive HandlerAction (H : Type)
  | context (action : ContextAction H)
  | owner (action : Action H)
  deriving DecidableEq

structure Dispatcher (H : Type) where
  scheduler : TaskScheduler H
  control : Control
  crash : Option Crash
  executed : List Nat
  cancelled : List Nat

def perform (s : Dispatcher H) (action : Action H) : Dispatcher H :=
  let cancelled := match action with
    | .cancelAll => s.cancelled ++ s.scheduler.asyncHolder.filter fun a => a ∉ s.executed
    | _ => s.cancelled
  { s with scheduler := s.scheduler.perform action, cancelled := cancelled }

def owners (script : List (HandlerAction H)) : List (Action H) :=
  script.filterMap fun
    | .owner action => some action
    | .context _ => none

/-- The context and the queue share the task, once it has been repeated. -/
def shared (c : TaskContext H) (s : TaskScheduler H) : TaskContext H :=
  if c.consumed then
    { c with task := (s.taskHolder.container.find? fun t => t.id = c.task.id).getD c.task }
  else c

def runHandler : TaskContext H → Dispatcher H → List (HandlerAction H) → Option (Dispatcher H)
  | _, s, [] => some s
  | c, s, .owner action :: script => runHandler (shared c (perform s action).scheduler) (perform s action) script
  | c, s, .context action :: script => do
    let (c, scheduler) ← c.perform s.scheduler action
    runHandler c { s with scheduler := scheduler } script

def continueIf (valid : Bool) (control : Control) : Control := if valid then control else .idle

def asyncRound (s : Dispatcher H) (script : List (HandlerAction H)) (valid : Bool) : Dispatcher H :=
  match s.scheduler.asyncHolder with
  | [] => { s with control := .taskLoop }
  | front :: _ =>
    let s := (owners script).foldl perform { s with executed := s.executed ++ [front] }
    match s.scheduler.asyncHolder with
    | [] => { s with crash := some .popEmptyAsync }
    | _ :: rest =>
      { s with
        scheduler := { s.scheduler with asyncHolder := rest }
        control := continueIf valid .asyncLoop }

def finish (s : Dispatcher H) (script : List (HandlerAction H)) : Dispatcher H :=
  { (owners script).foldl perform s with control := .idle }

def taskRound (s : Dispatcher H) (script : List (HandlerAction H)) (valid : Bool) : Dispatcher H :=
  match s.scheduler.taskHolder.first with
  | none => finish s script
  | some t =>
    if s.scheduler.now < t.taskEnd then finish s script
    else match s.scheduler.taskHolder.pop with
      | none => { s with crash := some .popEmptyTask }
      | some (t, rest) =>
        let popped := { s with scheduler := { s.scheduler with taskHolder := rest } }
        match runHandler ⟨t, false⟩ popped script with
        | none => { s with crash := some .assertion }
        | some next => { next with control := continueIf valid .taskLoop }

inductive Label (H : Type)
  | update (time : Int) (valid : Bool)
  | advance (script : List (HandlerAction H)) (valid : Bool)
  | call (action : Action H)
  deriving DecidableEq

def step (s : Dispatcher H) (label : Label H) : Dispatcher H :=
  match s.crash, s.control, label with
  | none, .idle, .update time valid =>
    { s with
      scheduler := { s.scheduler with now := s.scheduler.now + time }
      control := continueIf valid .asyncLoop }
  | none, .idle, .call action => perform s action
  | none, .asyncLoop, .advance script valid => asyncRound s script valid
  | none, .taskLoop, .advance script valid => taskRound s script valid
  | _, _, _ => s

def fresh (now : Int) : Dispatcher H := ⟨⟨now, .empty, [], 0, 0⟩, .idle, none, [], []⟩

/-- Nothing was popped from an empty queue, and the callables enqueued and not cancelled
are those executed, in this order, and then those that wait. -/
structure Safe (s : Dispatcher H) : Prop where
  async : s.crash ≠ some .popEmptyAsync
  task : s.crash ≠ some .popEmptyTask
  accounted : ((List.range s.scheduler.nextAsync).filter fun a => a ∉ s.cancelled) =
    s.executed ++ s.scheduler.asyncHolder

/-- No asynchronous callable cancels all, its own queue included, while it runs. -/
def KeepsQueue (s : Dispatcher H) : Label H → Prop
  | .advance script _ => s.crash = none → s.control = .asyncLoop →
    s.scheduler.asyncHolder ≠ [] → .owner .cancelAll ∉ script
  | _ => True

/-! ## Scripts that leave the running queue alone -/

/-- Behind its front, the queue holds what is enqueued, not cancelled and not executed. -/
structure Accounts (front : List Nat) (s : Dispatcher H) (pending : List Nat) : Prop where
  queued : s.scheduler.asyncHolder = front ++ pending
  accounted : ((List.range s.scheduler.nextAsync).filter fun a => a ∉ s.cancelled) =
    s.executed ++ pending
  bound : ∀ a ∈ s.cancelled, a < s.scheduler.nextAsync

variable {front pending : List Nat} {s : Dispatcher H}

theorem Accounts.disjoint (h : Accounts front s pending) : ∀ a ∈ pending, a ∉ s.executed := by
  have hNodup : (s.executed ++ pending).Nodup := h.accounted ▸ List.nodup_range.filter _
  intro a ha hExecuted
  exact (List.nodup_append.mp hNodup).2.2 a hExecuted a ha rfl

theorem cancelGroupsOf_queue (s : TaskScheduler H) (groups : List UInt32) :
    (s.cancelGroupsOf groups).asyncHolder = s.asyncHolder ∧
      (s.cancelGroupsOf groups).nextAsync = s.nextAsync := by
  rw [cancelGroupsOf]
  induction groups generalizing s with
  | nil => exact ⟨rfl, rfl⟩
  | cons group groups ih => exact ih (s.cancelGroup group)

theorem perform_accounts (h : Accounts front s pending) (action : Action H) (hKept : front = [] ∨ action ≠ .cancelAll) :
    ∃ pending', Accounts front (perform s action) pending' := by
  cases action with
  | async =>
    refine ⟨pending ++ [s.scheduler.nextAsync], ?_, ?_, ?_⟩
    · simp only [perform, TaskScheduler.perform, TaskScheduler.async, h.queued, List.append_assoc]
    · have hNew : s.scheduler.nextAsync ∉ s.cancelled :=
        fun hOld => Nat.lt_irrefl _ (h.bound _ hOld)
      change ((List.range (s.scheduler.nextAsync + 1)).filter fun a => a ∉ s.cancelled) =
        s.executed ++ (pending ++ [s.scheduler.nextAsync])
      rw [List.range_succ, List.filter_append, h.accounted,
        List.filter_singleton, List.append_assoc]
      simp [hNew]
    · exact fun a ha => Nat.lt_succ_of_lt (h.bound a ha)
  | cancelAll =>
    obtain rfl := hKept.resolve_right (fun hOther => hOther rfl)
    have hPending : (s.scheduler.asyncHolder.filter fun a => a ∉ s.executed) = pending := by
      rw [h.queued, List.nil_append]
      exact List.filter_eq_self.mpr fun a ha => by simpa using h.disjoint a ha
    refine ⟨[], rfl, ?_, ?_⟩
    · have hBoth : (fun a => decide (a ∉ s.cancelled ++ pending)) =
          fun a => decide (a ∉ pending) && decide (a ∉ s.cancelled) := by
        funext a
        simp [List.mem_append, not_or, Bool.and_comm]
      simp only [perform, TaskScheduler.perform, TaskScheduler.cancelAll, hPending]
      rw [hBoth, ← List.filter_filter, h.accounted, List.filter_append, List.append_nil]
      have hExecuted : (s.executed.filter fun a => a ∉ pending) = s.executed :=
        List.filter_eq_self.mpr fun a ha => by simpa using fun hLater => h.disjoint a hLater ha
      have hWaiting : (pending.filter fun a => a ∉ pending) = [] :=
        List.filter_eq_nil_iff.mpr fun a ha => by simpa using ha
      rw [hExecuted, hWaiting, List.append_nil]
    · intro a ha
      simp only [perform, hPending, List.mem_append] at ha
      rcases ha with ha | ha
      · exact h.bound a ha
      · have hMem : a ∈ (List.range s.scheduler.nextAsync).filter fun a => a ∉ s.cancelled := by
          rw [h.accounted]
          exact List.mem_append_right _ ha
        exact List.mem_range.mp (List.mem_of_mem_filter hMem)
  | cancelGroupsOf groups =>
    obtain ⟨hQueue, hNext⟩ := cancelGroupsOf_queue s.scheduler groups
    refine ⟨pending, hQueue.trans h.queued, ?_, ?_⟩
    · simp only [perform, TaskScheduler.perform, hNext]
      exact h.accounted
    · simp only [perform, TaskScheduler.perform, hNext]
      exact h.bound
  | schedule | cancelGroup | delayAll | delayGroup | rescheduleAll | rescheduleGroup =>
    exact ⟨pending, h.queued, h.accounted, h.bound⟩

theorem foldl_accounts (actions : List (Action H))
    (hKept : front = [] ∨ .cancelAll ∉ actions) :
    ∀ {s : Dispatcher H} {pending : List Nat}, Accounts front s pending →
      ∃ pending', Accounts front (actions.foldl perform s) pending' := by
  induction actions with
  | nil => exact fun h => ⟨_, h⟩
  | cons action actions ih =>
    intro s pending h
    have hFirst : front = [] ∨ action ≠ .cancelAll :=
      hKept.imp_right fun hNone hEq => hNone (hEq ▸ List.mem_cons_self)
    obtain ⟨pending₁, h₁⟩ := perform_accounts h action hFirst
    exact ih (hKept.imp_right fun hNone hMem => hNone (List.mem_cons_of_mem _ hMem)) h₁

theorem perform_crash (s : Dispatcher H) (action : Action H) : (perform s action).crash = s.crash :=
  rfl

theorem foldl_crash (actions : List (Action H)) (s : Dispatcher H) :
    (actions.foldl perform s).crash = s.crash := by
  induction actions generalizing s with
  | nil => rfl
  | cons action actions ih => exact (ih _).trans (perform_crash s action)

theorem contextPerform_queue {c c' : TaskContext H} {s s' : TaskScheduler H}
    {action : ContextAction H} (h : c.perform s action = some (c', s')) :
    s'.asyncHolder = s.asyncHolder ∧ s'.nextAsync = s.nextAsync := by
  cases action with
  | repeatFor duration | repeatSame =>
    obtain ⟨-, -, rfl, -⟩ := TaskContext.repeatFor_eq_some h
    exact ⟨rfl, rfl⟩
  | schedule | setGroup | clearGroup =>
    obtain ⟨-, rfl⟩ := Prod.mk.inj (Option.some.inj h)
    exact ⟨rfl, rfl⟩

variable {script : List (HandlerAction H)}

theorem runHandler_accounts :
    ∀ {c : TaskContext H} {s next : Dispatcher H} {pending : List Nat},
      runHandler c s script = some next → Accounts [] s pending →
      next.crash = s.crash ∧ ∃ pending', Accounts [] next pending' := by
  induction script with
  | nil =>
    intro c s next pending hRun h
    obtain rfl := Option.some.inj hRun
    exact ⟨rfl, pending, h⟩
  | cons action script ih =>
    intro c s next pending hRun h
    cases action with
    | owner action =>
      obtain ⟨pending₁, h₁⟩ := perform_accounts h action (Or.inl rfl)
      exact ih (s := perform s action) hRun h₁
    | context action =>
      obtain ⟨⟨c₁, scheduler⟩, hFirst, hRest⟩ := Option.bind_eq_some_iff.mp hRun
      obtain ⟨hQueue, hNext⟩ := contextPerform_queue hFirst
      refine ih (s := { s with scheduler := scheduler }) hRest ⟨hQueue.trans h.queued, ?_, ?_⟩
      · simp only [hNext]
        exact h.accounted
      · simp only [hNext]
        exact h.bound

/-! ## Good steps -/

structure Sound (s : Dispatcher H) : Prop where
  async : s.crash ≠ some .popEmptyAsync
  task : s.crash ≠ some .popEmptyTask
  accounts : Accounts [] s s.scheduler.asyncHolder

theorem Sound.safe (h : Sound s) : Safe s :=
  ⟨h.async, h.task, h.accounts.accounted⟩

theorem sound_of_accounts (hAsync : s.crash ≠ some .popEmptyAsync)
    (hTask : s.crash ≠ some .popEmptyTask) (h : Accounts [] s pending) : Sound s := by
  obtain rfl : s.scheduler.asyncHolder = pending := h.queued
  exact ⟨hAsync, hTask, h⟩

theorem mem_owners {action : Action H} :
    action ∈ owners script ↔ .owner action ∈ script := by
  rw [owners, List.mem_filterMap]
  constructor
  · rintro ⟨x, hx, hEq⟩
    cases x with
    | context => cases hEq
    | owner other =>
      obtain rfl := Option.some.inj hEq
      exact hx
  · exact fun h => ⟨_, h, rfl⟩

theorem asyncRound_sound (h : Sound s)
    (valid : Bool) (hKept : s.scheduler.asyncHolder ≠ [] → .owner .cancelAll ∉ script) :
    Sound (asyncRound s script valid) := by
  rw [asyncRound]
  split
  · exact ⟨h.async, h.task, h.accounts.queued, h.accounts.accounted, h.accounts.bound⟩
  · rename_i front waiting hQueue
    have hScript : .cancelAll ∉ owners script :=
      fun hMem => hKept (by simp [hQueue]) (mem_owners.mp hMem)
    have hRunning : Accounts [front] { s with executed := s.executed ++ [front] } waiting := by
      refine ⟨hQueue, ?_, h.accounts.bound⟩
      rw [List.append_assoc, List.singleton_append, ← hQueue]
      exact h.accounts.accounted
    obtain ⟨pending, hAfter⟩ := foldl_accounts (owners script) (Or.inr hScript) hRunning
    have hCrash : ((owners script).foldl perform { s with executed := s.executed ++ [front] }).crash =
        s.crash := foldl_crash _ _
    generalize (owners script).foldl perform { s with executed := s.executed ++ [front] } = after
      at hAfter hCrash
    have hFront : after.scheduler.asyncHolder = front :: pending := hAfter.queued
    simp only [hFront]
    refine ⟨?_, ?_, rfl, hAfter.accounted, hAfter.bound⟩
    · exact hCrash ▸ h.async
    · exact hCrash ▸ h.task

theorem finish_sound (h : Sound s) (script : List (HandlerAction H)) :
    Sound (finish s script) := by
  obtain ⟨pending, hAfter⟩ := foldl_accounts (owners script) (Or.inl rfl) h.accounts
  have hCrash : ((owners script).foldl perform s).crash = s.crash := foldl_crash _ _
  exact sound_of_accounts (hCrash ▸ h.async) (hCrash ▸ h.task)
    (⟨hAfter.queued, hAfter.accounted, hAfter.bound⟩ : Accounts [] (finish s script) pending)

theorem pop_of_first {q : TaskQueue H} {t : Task H} (h : q.first = some t) : q.pop ≠ none := by
  obtain ⟨container, ordered⟩ := q
  cases container with
  | nil => cases h
  | cons head tail => simp [TaskQueue.pop]

theorem taskRound_sound (h : Sound s) (script : List (HandlerAction H))
    (valid : Bool) : Sound (taskRound s script valid) := by
  rw [taskRound]
  split
  · exact finish_sound h script
  · rename_i t hFirst
    split
    · exact finish_sound h script
    · split
      · rename_i hPop
        exact absurd hPop (pop_of_first hFirst)
      · rename_i popped rest hPop
        dsimp only
        split
        · exact ⟨by simp, by simp, h.accounts.queued, h.accounts.accounted, h.accounts.bound⟩
        · rename_i next hRun
          obtain ⟨hCrash, pending, hAfter⟩ := runHandler_accounts hRun
            (⟨h.accounts.queued, h.accounts.accounted, h.accounts.bound⟩ :
              Accounts [] { s with scheduler := { s.scheduler with taskHolder := rest } } _)
          have hNext : Accounts [] { next with control := continueIf valid .taskLoop } pending :=
            ⟨hAfter.queued, hAfter.accounted, hAfter.bound⟩
          exact sound_of_accounts (hCrash ▸ h.async) (hCrash ▸ h.task) hNext

theorem step_sound (s : Dispatcher H) (label : Label H) (h : Sound s) (hKept : KeepsQueue s label) :
    Sound (step s label) := by
  unfold step
  split
  · exact ⟨h.async, h.task, h.accounts.queued, h.accounts.accounted, h.accounts.bound⟩
  · rename_i action hCrash hControl
    obtain ⟨pending, hAfter⟩ := perform_accounts h.accounts action (Or.inl rfl)
    exact sound_of_accounts h.async h.task hAfter
  · rename_i script valid hCrash hControl
    exact asyncRound_sound h valid (hKept hCrash hControl)
  · rename_i script valid hCrash hControl
    exact taskRound_sound h script valid
  · exact h

/-! ## Scripts that replace the running queue -/

def Bounded (s : Dispatcher H) : Prop :=
  ∀ a, a ∈ s.executed ∨ a ∈ s.cancelled ∨ a ∈ s.scheduler.asyncHolder → a < s.scheduler.nextAsync

/-- The queue holds only callables that came after its replacement. -/
structure Replaced (s : Dispatcher H) : Prop where
  bounded : Bounded s
  nodup : s.scheduler.asyncHolder.Nodup
  fresh : ∀ a ∈ s.scheduler.asyncHolder, a ∉ s.executed ∧ a ∉ s.cancelled

theorem perform_bounded (h : Bounded s) (action : Action H) :
    Bounded (perform s action) := by
  cases action with
  | async =>
    rintro a (ha | ha | ha)
    · exact Nat.lt_succ_of_lt (h a (Or.inl ha))
    · exact Nat.lt_succ_of_lt (h a (Or.inr (Or.inl ha)))
    · rcases List.mem_append.mp ha with ha | ha
      · exact Nat.lt_succ_of_lt (h a (Or.inr (Or.inr ha)))
      · rw [List.mem_singleton.mp ha]
        exact Nat.lt_succ_self _
  | cancelAll =>
    rintro a (ha | ha | ha)
    · exact h a (Or.inl ha)
    · rcases List.mem_append.mp ha with ha | ha
      · exact h a (Or.inr (Or.inl ha))
      · exact h a (Or.inr (Or.inr (List.mem_of_mem_filter ha)))
    · cases ha
  | cancelGroupsOf groups =>
    obtain ⟨hQueue, hNext⟩ := cancelGroupsOf_queue s.scheduler groups
    intro a ha
    simp only [perform, TaskScheduler.perform, hQueue, hNext] at ha ⊢
    exact h a ha
  | schedule | cancelGroup | delayAll | delayGroup | rescheduleAll | rescheduleGroup => exact h

theorem perform_replaced (h : Replaced s) (action : Action H) :
    Replaced (perform s action) := by
  have hBounded := perform_bounded h.bounded action
  cases action with
  | async =>
    have hNew : ∀ a, a ∈ s.executed ∨ a ∈ s.cancelled ∨ a ∈ s.scheduler.asyncHolder →
        a ≠ s.scheduler.nextAsync := fun a ha => (h.bounded a ha).ne
    refine ⟨hBounded, ?_, ?_⟩
    · apply List.nodup_append.mpr
      refine ⟨h.nodup, List.nodup_singleton _, ?_⟩
      intro a ha b hb
      rw [List.mem_singleton.mp hb]
      exact hNew a (Or.inr (Or.inr ha))
    · intro a ha
      rcases List.mem_append.mp ha with ha | ha
      · exact h.fresh a ha
      · rw [List.mem_singleton.mp ha]
        exact ⟨fun hOld => hNew _ (Or.inl hOld) rfl, fun hOld => hNew _ (Or.inr (Or.inl hOld)) rfl⟩
  | cancelAll => exact ⟨hBounded, List.nodup_nil, fun _ ha => (List.not_mem_nil ha).elim⟩
  | cancelGroupsOf groups =>
    obtain ⟨hQueue, -⟩ := cancelGroupsOf_queue s.scheduler groups
    refine ⟨hBounded, ?_, ?_⟩
    · simp only [perform, TaskScheduler.perform, hQueue]
      exact h.nodup
    · simp only [perform, TaskScheduler.perform, hQueue]
      exact h.fresh
  | schedule | cancelGroup | delayAll | delayGroup | rescheduleAll | rescheduleGroup =>
    exact ⟨hBounded, h.nodup, h.fresh⟩

theorem foldl_replaced (actions : List (Action H)) :
    ∀ s : Dispatcher H, (Replaced s ∨ Bounded s ∧ .cancelAll ∈ actions) →
      Replaced (actions.foldl perform s) := by
  induction actions with
  | nil =>
    rintro s (h | ⟨-, hMem⟩)
    · exact h
    · cases hMem
  | cons action actions ih =>
    rintro s (h | ⟨h, hMem⟩)
    · exact ih _ (Or.inl (perform_replaced h action))
    · rcases List.mem_cons.mp hMem with rfl | hMem
      · exact ih _ (Or.inl ⟨perform_bounded h .cancelAll, List.nodup_nil,
          fun _ ha => (List.not_mem_nil ha).elim⟩)
      · exact ih _ (Or.inr ⟨perform_bounded h action, hMem⟩)

theorem asyncRound_unsafe (h : Sound s)
    (valid : Bool) (hQueue : s.scheduler.asyncHolder ≠ []) (hMem : .owner .cancelAll ∈ script) :
    ¬ Safe (asyncRound s script valid) := by
  obtain ⟨front, waiting, hSome⟩ := List.exists_cons_of_ne_nil hQueue
  have hBounded : Bounded { s with executed := s.executed ++ [front] } := by
    have hRange : ∀ a ∈ s.executed ++ s.scheduler.asyncHolder, a < s.scheduler.nextAsync := by
      intro a ha
      rw [← h.accounts.accounted] at ha
      exact List.mem_range.mp (List.mem_of_mem_filter ha)
    rintro a (ha | ha | ha)
    · apply hRange
      rw [hSome]
      rcases List.mem_append.mp ha with ha | ha
      · exact List.mem_append_left _ ha
      · rw [List.mem_singleton.mp ha]
        exact List.mem_append_right _ List.mem_cons_self
    · exact h.accounts.bound a ha
    · exact hRange a (List.mem_append_right _ ha)
  have hAfter := foldl_replaced (owners script) _ (Or.inr ⟨hBounded, mem_owners.mpr hMem⟩)
  intro hSafe
  rw [asyncRound, hSome] at hSafe
  dsimp only at hSafe
  generalize (owners script).foldl perform { s with executed := s.executed ++ [front] } = after
    at hAfter hSafe
  cases hHolder : after.scheduler.asyncHolder with
  | nil =>
    simp only [hHolder] at hSafe
    exact hSafe.async rfl
  | cons lost rest =>
    simp only [hHolder] at hSafe
    have hHead : lost ∈ after.scheduler.asyncHolder := by
      rw [hHolder]
      exact List.mem_cons_self
    obtain ⟨hNever, hKept⟩ := hAfter.fresh lost hHead
    have hOwed : lost ∈ after.executed ++ rest := by
      have hAccounted := hSafe.accounted
      simp only at hAccounted
      rw [← hAccounted]
      exact List.mem_filter.mpr ⟨List.mem_range.mpr (hAfter.bounded lost (Or.inr (Or.inr hHead))),
        by simpa using hKept⟩
    have hNodup := hAfter.nodup
    rw [hHolder] at hNodup
    rcases List.mem_append.mp hOwed with hOld | hWaits
    · exact hNever hOld
    · exact (List.nodup_cons.mp hNodup).1 hWaits

theorem keepsQueue_of_safe (s : Dispatcher H) (label : Label H) (h : Sound s)
    (hSafe : Safe (step s label)) : KeepsQueue s label := by
  cases label with
  | advance script valid =>
    intro hCrash hControl hQueue hMem
    simp only [step, hCrash, hControl] at hSafe
    exact asyncRound_unsafe h valid hQueue hMem hSafe
  | update | call => trivial

theorem fresh_sound (now : Int) : Sound (fresh now : Dispatcher H) :=
  ⟨fun h => (by cases h), fun h => (by cases h), rfl, rfl, fun _ ha => (List.not_mem_nil ha).elim⟩

/-- Dispatch is safe in all states of a run exactly if no asynchronous callable of the run
cancels all. -/
theorem safe_iff_keepsQueue (now : Int) (labels : List (Label H)) :
    (∀ first, first <+: labels → Safe (run step (fresh now) first)) ↔
      Along step KeepsQueue (fresh now) labels :=
  reached_iff_along step_sound (fun _ => Sound.safe) keepsQueue_of_safe (fresh_sound now) labels

/-- The only callable of the queue cancels all, and an empty queue is popped. -/
theorem safe_fails : ¬ ∀ (now : Int) (labels : List (Label Unit)), Safe (run step (fresh now) labels) := by
  intro h
  have hSafe := h 0 [.call .async, .update 0 true, .advance [.owner .cancelAll] true]
  exact hSafe.async rfl

end AshamaneCore.TaskDispatch
