import AshamaneCore.Common.EventProcessor
import AshamaneCore.Library.Transition
import Mathlib.Data.List.Count

/-!
# The lifecycle of events

Owners add, abort and kill at any time, during the Execute of an event included.
An event is in the hands of the processor from its addition until it is
destroyed or handed back, and then it waits in the queue exactly once, unless it
is the one that executes.
-/

namespace AshamaneCore.EventLifecycle

open EventProcessor Library.OrderedQueue Library.Transition

inductive Label
  | addEvent (event : Nat) (eTime : UInt64) (setAddtime : Bool)
  | scheduleAbort (event : Nat)
  | killAllEvents (force : Bool) (deletable : Nat → Bool)
  | update (pTime : UInt32)
  | round (deletable : Bool)
  | readd (eTime : UInt64) (setAddtime : Bool)
  | answer (done : Bool)

/-- A label is refused where its caller breaks the rules of events, which are to be added
once, to be added again by their own Execute only, before it answers that it is not
done, and to be used no more once destroyed, or where an ASSERT fails. -/
def step (s : EventProcessor) : Label → Option EventProcessor
  | .addEvent e eTime setAddtime =>
    if .added e ∉ s.log then some ((s.addEvent e eTime setAddtime).record (.added e)) else none
  | .scheduleAbort e => if .destroyed e ∉ s.log then s.scheduleAbort e else none
  | .killAllEvents force deletable => s.killAllEvents force deletable
  | .update pTime => if s.control = .idle then some (s.update pTime) else none
  | .round deletable => if s.control = .updating then s.updateRound deletable else none
  | .readd eTime setAddtime =>
    match s.control with
    | .executing e false =>
      some { s.addEvent e eTime setAddtime with control := .executing e true }
    | _ => none
  | .answer done =>
    match s.control with
    | .executing e readded => if readded ∧ done then none else some (s.executed e readded done)
    | _ => none

def queued (s : EventProcessor) : List Nat := s.events.entries.map QueuedEvent.event

def Live (s : EventProcessor) (e : Nat) : Prop := .added e ∈ s.log ∧ .destroyed e ∉ s.log

structure Lifecycle (s : EventProcessor) : Prop where
  destroyedOnce : ∀ e, s.log.count (.destroyed e) ≤ 1
  queuedOnce : ∀ e, Live s e → .handedBack e ∉ s.log → s.control ≠ .executing e false →
    (queued s).count e = 1
  executedDue : ∀ e eTime execTime, .executed e eTime execTime ∈ s.log → execTime ≤ eTime
  notExecutedAborted : s.log.Pairwise fun before after =>
    ∀ e eTime execTime, before = .abortScheduled e → after ≠ .executed e eTime execTime
  abortedOnce : ∀ e, s.log.count (.aborted e) ≤ 1

/-! ## Custody: where each event is -/

/-- The happenings that move an event into or out of the hands of the processor. -/
def Moves : Happening → Prop
  | .added _ | .handedBack _ | .destroyed _ => True
  | .abortScheduled _ | .executed _ _ _ | .aborted _ => False

def Held (s : EventProcessor) (e : Nat) : Prop :=
  .added e ∈ s.log ∧ .destroyed e ∉ s.log ∧ .handedBack e ∉ s.log

structure Custody (waiting : List Nat) (s : EventProcessor) : Prop where
  nodup : waiting.Nodup
  waits : ∀ e, e ∈ waiting ↔ Held s e ∧ s.control ≠ .executing e false
  executing : ∀ e, s.control = .executing e false → Held s e
  known : ∀ e, .destroyed e ∈ s.log ∨ .handedBack e ∈ s.log → .added e ∈ s.log
  destroyedOnce : ∀ e, s.log.count (.destroyed e) ≤ 1

namespace Custody

variable {waiting waiting' : List Nat} {s s' : EventProcessor} {e : Nat}

theorem perm (h : Custody waiting s) (hPerm : waiting.Perm waiting') : Custody waiting' s :=
  { h with
    nodup := hPerm.nodup h.nodup
    waits := fun e => hPerm.mem_iff.symm.trans (h.waits e) }

theorem congr (h : Custody waiting s) (hLog : s'.log = s.log)
    (hControl : ∀ e, s'.control = .executing e false ↔ s.control = .executing e false) :
    Custody waiting s' := by
  have hHeld : ∀ e, Held s' e ↔ Held s e := fun e => by rw [Held, Held, hLog]
  refine ⟨h.nodup, ?_, ?_, ?_, ?_⟩
  · intro e
    rw [hHeld, Ne, hControl]
    exact h.waits e
  · intro e he
    exact (hHeld e).mpr (h.executing e ((hControl e).mp he))
  · rw [hLog]
    exact h.known
  · rw [hLog]
    exact h.destroyedOnce

variable {happening : Happening}

theorem record (h : Custody waiting s) (hMoves : ¬ Moves happening) :
    Custody waiting (s.record happening) := by
  have hAdded : ∀ e, .added e ≠ happening := by
    rintro e rfl
    exact hMoves trivial
  have hBack : ∀ e, .handedBack e ≠ happening := by
    rintro e rfl
    exact hMoves trivial
  have hDestroyed : ∀ e, .destroyed e ≠ happening := by
    rintro e rfl
    exact hMoves trivial
  have hHeld : ∀ e, Held (s.record happening) e ↔ Held s e := fun e => by
    simp [Held, hAdded, hBack, hDestroyed]
  refine ⟨h.nodup, ?_, ?_, ?_, ?_⟩
  · intro e
    rw [hHeld]
    exact h.waits e
  · intro e he
    exact (hHeld e).mpr (h.executing e he)
  · simpa [hAdded, hBack, hDestroyed] using h.known
  · intro e
    rw [record_log, List.count_append, List.count_singleton, if_neg (by simpa using (hDestroyed e).symm)]
    exact h.destroyedOnce e

theorem held_of_waiting (h : Custody waiting s) (he : e ∈ waiting) : Held s e :=
  ((h.waits e).mp he).1

theorem not_waiting (h : Custody waiting s) (he : s.control = .executing e false) : e ∉ waiting :=
  fun hMem => ((h.waits e).mp hMem).2 he

theorem add (h : Custody waiting s) (he : .added e ∉ s.log) :
    Custody (e :: waiting) (s.record (.added e)) := by
  have hDestroyed : .destroyed e ∉ s.log := fun hMem => he (h.known e (Or.inl hMem))
  have hBack : .handedBack e ∉ s.log := fun hMem => he (h.known e (Or.inr hMem))
  have hNot : e ∉ waiting := fun hMem => he (h.held_of_waiting hMem).1
  have hControl : s.control ≠ .executing e false := fun hEq => he (h.executing e hEq).1
  have hHeld : ∀ e', Held (s.record (.added e)) e' ↔ e' = e ∨ Held s e' := by
    intro e'
    rcases eq_or_ne e' e with rfl | hNe
    · simp [Held, hDestroyed, hBack]
    · simp [Held, hNe]
  refine ⟨List.nodup_cons.mpr ⟨hNot, h.nodup⟩, ?_, ?_, ?_, ?_⟩
  · intro e'
    rw [hHeld, List.mem_cons, h.waits, record_control]
    constructor
    · rintro (rfl | ⟨hOld, hOther⟩)
      · exact ⟨Or.inl rfl, hControl⟩
      · exact ⟨Or.inr hOld, hOther⟩
    · rintro ⟨rfl | hOld, hOther⟩
      · exact Or.inl rfl
      · exact Or.inr ⟨hOld, hOther⟩
  · intro e' he'
    exact (hHeld e').mpr (Or.inr (h.executing e' he'))
  · intro e' he'
    have hOld := h.known e' (by simpa using he')
    exact List.mem_append_left _ hOld
  · intro e'
    simpa using h.destroyedOnce e'

theorem readd (h : Custody waiting s) (he : s.control = .executing e false) :
    Custody (e :: waiting) { s with control := .executing e true } := by
  refine ⟨List.nodup_cons.mpr ⟨h.not_waiting he, h.nodup⟩, ?_, ?_, h.known, h.destroyedOnce⟩
  · intro e'
    rw [List.mem_cons, h.waits, he]
    constructor
    · rintro (rfl | ⟨hOld, -⟩)
      · exact ⟨h.executing e' he, by simp⟩
      · exact ⟨hOld, by simp⟩
    · rintro ⟨hOld, -⟩
      rcases eq_or_ne e' e with rfl | hNe
      · exact Or.inl rfl
      · exact Or.inr ⟨hOld, by simpa using hNe.symm⟩
  · intro e' he'
    simp at he'

theorem take (h : Custody (e :: waiting) s) (hControl : s.control = .updating) :
    Custody waiting { s with control := .executing e false } := by
  obtain ⟨hNot, hNodup⟩ := List.nodup_cons.mp h.nodup
  have hWaits : ∀ e', e' = e ∨ e' ∈ waiting ↔ Held s e' := by
    intro e'
    rw [← List.mem_cons, h.waits, hControl]
    simp
  refine ⟨hNodup, ?_, ?_, h.known, h.destroyedOnce⟩
  · intro e'
    constructor
    · intro hMem
      refine ⟨(hWaits e').mp (Or.inr hMem), ?_⟩
      intro hEq
      obtain rfl : e = e' := by simpa using hEq
      exact hNot hMem
    · rintro ⟨hHeld, hOther⟩
      rcases (hWaits e').mpr hHeld with rfl | hMem
      · exact absurd rfl hOther
      · exact hMem
  · intro e' hEq
    obtain rfl : e = e' := by simpa using hEq
    exact (hWaits e).mp (Or.inl rfl)

theorem held_leave (hLeave : happening = .destroyed e ∨ happening = .handedBack e) (e' : Nat) :
    Held (s.record happening) e' ↔ e' ≠ e ∧ Held s e' := by
  rcases hLeave with rfl | rfl
  · simp only [Held, record_log, List.mem_append, List.mem_singleton, reduceCtorEq, or_false,
      Happening.destroyed.injEq]
    tauto
  · simp only [Held, record_log, List.mem_append, List.mem_singleton, reduceCtorEq, or_false,
      Happening.handedBack.injEq]
    tauto

theorem known_leave (h : Custody waiting s) (he : Held s e)
    (hLeave : happening = .destroyed e ∨ happening = .handedBack e) (e' : Nat)
    (he' : .destroyed e' ∈ (s.record happening).log ∨ .handedBack e' ∈ (s.record happening).log) :
    .added e' ∈ (s.record happening).log := by
  rw [record_log, List.mem_append]
  rcases eq_or_ne e' e with rfl | hNe
  · exact Or.inl he.1
  · refine Or.inl (h.known e' ?_)
    rcases hLeave with rfl | rfl
    · simpa [hNe] using he'
    · simpa [hNe] using he'

theorem destroyedOnce_leave (h : Custody waiting s) (he : Held s e)
    (hLeave : happening = .destroyed e ∨ happening = .handedBack e) (e' : Nat) :
    (s.record happening).log.count (.destroyed e') ≤ 1 := by
  rw [record_log, List.count_append]
  rcases hLeave with rfl | rfl
  · rcases eq_or_ne e' e with rfl | hNe
    · have hZero : s.log.count (.destroyed e') = 0 := List.count_eq_zero_of_not_mem he.2.1
      simp [hZero]
    · simpa [hNe.symm] using h.destroyedOnce e'
  · simpa using h.destroyedOnce e'

theorem destroy (h : Custody (e :: waiting) s) : Custody waiting (s.destroy e) := by
  obtain ⟨hNot, hNodup⟩ := List.nodup_cons.mp h.nodup
  have hHeld : Held s e := h.held_of_waiting List.mem_cons_self
  have hLeave : Happening.destroyed e = .destroyed e ∨ Happening.destroyed e = .handedBack e :=
    Or.inl rfl
  refine ⟨hNodup, ?_, ?_, h.known_leave hHeld hLeave, h.destroyedOnce_leave hHeld hLeave⟩
  · intro e'
    have hWaits := h.waits e'
    rw [List.mem_cons] at hWaits
    rw [EventProcessor.destroy, held_leave hLeave, record_control]
    constructor
    · intro hMem
      obtain ⟨hOld, hOther⟩ := hWaits.mp (Or.inr hMem)
      exact ⟨⟨fun hEq => hNot (hEq ▸ hMem), hOld⟩, hOther⟩
    · rintro ⟨⟨hNe, hOld⟩, hOther⟩
      exact (hWaits.mpr ⟨hOld, hOther⟩).resolve_left hNe
  · intro e' he'
    refine (held_leave hLeave e').mpr ⟨?_, h.executing e' he'⟩
    rintro rfl
    exact ((h.waits e').mp List.mem_cons_self).2 he'

theorem leave (h : Custody waiting s) (he : s.control = .executing e false)
    (hLeave : happening = .destroyed e ∨ happening = .handedBack e) :
    Custody waiting ({ s with control := .updating }.record happening) := by
  have hHeld : Held s e := h.executing e he
  refine ⟨h.nodup, ?_, ?_, h.known_leave hHeld hLeave, h.destroyedOnce_leave hHeld hLeave⟩
  · intro e'
    rw [h.waits, held_leave hLeave, record_control, he]
    constructor
    · rintro ⟨hOld, hOther⟩
      refine ⟨⟨?_, hOld⟩, by simp⟩
      rintro rfl
      exact hOther rfl
    · rintro ⟨⟨hNe, hOld⟩, -⟩
      exact ⟨hOld, by simpa using hNe.symm⟩
  · intro e' he'
    cases he'

end Custody

/-! ## Aborts -/

structure AbortOrder (s : EventProcessor) : Prop where
  abortedOnce : ∀ e, s.log.count (.aborted e) ≤ 1
  aborted : ∀ e, .aborted e ∈ s.log → s.abortState e = .aborted
  scheduled : ∀ e, .abortScheduled e ∈ s.log → s.abortState e ≠ .running
  executedDue : ∀ e eTime execTime, .executed e eTime execTime ∈ s.log → execTime ≤ eTime
  notExecutedAborted : s.log.Pairwise fun before after =>
    ∀ e eTime execTime, before = .abortScheduled e → after ≠ .executed e eTime execTime

namespace AbortOrder

variable {s s' : EventProcessor} {e : Nat}

theorem congr (h : AbortOrder s) (hLog : s'.log = s.log)
    (hAbort : ∀ e, s'.abortState e = s.abortState e) : AbortOrder s' := by
  refine ⟨hLog ▸ h.abortedOnce, ?_, ?_, hLog ▸ h.executedDue, hLog ▸ h.notExecutedAborted⟩
  · intro e he
    rw [hAbort]
    exact h.aborted e (hLog ▸ he)
  · intro e he
    rw [hAbort]
    exact h.scheduled e (hLog ▸ he)

theorem pairwise_record {R : Happening → Happening → Prop} {log : List Happening}
    {happening : Happening} (h : log.Pairwise R) (hNew : ∀ before ∈ log, R before happening) :
    (log ++ [happening]).Pairwise R := by
  refine List.pairwise_append.mpr ⟨h, List.pairwise_singleton _ _, ?_⟩
  intro before hBefore after hAfter
  rw [List.mem_singleton.mp hAfter]
  exact hNew before hBefore

theorem record (h : AbortOrder s) {happening : Happening} (hMoves : Moves happening) :
    AbortOrder (s.record happening) := by
  have hAborted : ∀ e, happening ≠ .aborted e := by
    rintro e rfl
    exact hMoves
  have hScheduled : ∀ e, .abortScheduled e ≠ happening := by
    rintro e rfl
    exact hMoves
  have hExecuted : ∀ e eTime execTime, .executed e eTime execTime ≠ happening := by
    rintro e eTime execTime rfl
    exact hMoves
  refine ⟨?_, ?_, ?_, ?_, ?_⟩
  · intro e
    rw [record_log, List.count_append, List.count_singleton, if_neg (by simpa using hAborted e)]
    exact h.abortedOnce e
  · simpa [(hAborted _).symm] using h.aborted
  · simpa [hScheduled] using h.scheduled
  · simpa [hExecuted] using h.executedDue
  · exact pairwise_record h.notExecutedAborted fun _ _ e eTime execTime _ =>
      (hExecuted e eTime execTime).symm

theorem scheduleAbort (h : AbortOrder s) (hStep : s.scheduleAbort e = some s') :
    AbortOrder s' := by
  rw [EventProcessor.scheduleAbort] at hStep
  split at hStep
  · rename_i hRunning
    obtain rfl := Option.some.inj hStep
    refine ⟨by simpa using h.abortedOnce, ?_, ?_, ?_, ?_⟩
    · intro e' he'
      have hOld := h.aborted e' (by simpa using he')
      rcases eq_or_ne e' e with rfl | hNe
      · rw [hRunning] at hOld
        cases hOld
      · simpa [abortState, modifyEvent_of_ne hNe] using hOld
    · intro e' he'
      rcases eq_or_ne e' e with rfl | hNe
      · simp [abortState]
      · have hOld : .abortScheduled e' ∈ s.log := by simpa [hNe] using he'
        simpa [abortState, modifyEvent_of_ne hNe] using h.scheduled e' hOld
    · simpa using h.executedDue
    · exact pairwise_record h.notExecutedAborted fun _ _ _ _ _ _ => by simp
  · cases hStep

theorem abort (h : AbortOrder s) (hState : s.abortState e ≠ .aborted) :
    AbortOrder ((s.modifyEvent e fun event => { event with abortState := .aborted }).abort e) := by
  refine ⟨?_, ?_, ?_, ?_, ?_⟩
  · intro e'
    rcases eq_or_ne e' e with rfl | hNe
    · have hZero : s.log.count (.aborted e') = 0 :=
        List.count_eq_zero_of_not_mem fun hMem => hState (h.aborted e' hMem)
      simp [EventProcessor.abort, hZero]
    · simpa [EventProcessor.abort, hNe.symm] using h.abortedOnce e'
  · intro e' he'
    rcases eq_or_ne e' e with rfl | hNe
    · simp [EventProcessor.abort, abortState]
    · have hOld : .aborted e' ∈ s.log := by simpa [EventProcessor.abort, hNe] using he'
      simpa [EventProcessor.abort, abortState, modifyEvent_of_ne hNe] using h.aborted e' hOld
  · intro e' he'
    rcases eq_or_ne e' e with rfl | hNe
    · simp [EventProcessor.abort, abortState]
    · have hOld : .abortScheduled e' ∈ s.log := by simpa [EventProcessor.abort] using he'
      simpa [EventProcessor.abort, abortState, modifyEvent_of_ne hNe] using h.scheduled e' hOld
  · simpa [EventProcessor.abort] using h.executedDue
  · exact pairwise_record h.notExecutedAborted fun _ _ _ _ _ _ => by simp

theorem execute (h : AbortOrder s) (hRunning : s.abortState e = .running) {eTime execTime : UInt64}
    (hDue : execTime ≤ eTime) : AbortOrder (s.record (.executed e eTime execTime)) := by
  refine ⟨by simpa using h.abortedOnce, by simpa using h.aborted, by simpa using h.scheduled, ?_, ?_⟩
  · intro e' eTime' execTime' he'
    rcases List.mem_append.mp he' with hOld | hNew
    · exact h.executedDue e' eTime' execTime' hOld
    · obtain ⟨rfl, rfl, rfl⟩ : e' = e ∧ eTime' = eTime ∧ execTime' = execTime := by
        simpa using hNew
      exact hDue
  · refine pairwise_record h.notExecutedAborted ?_
    rintro - hMem e' eTime' execTime' rfl hEq
    obtain ⟨rfl, -, -⟩ : e = e' ∧ eTime = eTime' ∧ execTime = execTime' := by simpa using hEq
    exact h.scheduled e hMem hRunning

end AbortOrder

/-! ## The steps of the processor -/

def Keyed (s : EventProcessor) : Prop :=
  ∀ entry ∈ s.events.entries, (s.event entry.event).execTime = entry.time

structure Invariant (s : EventProcessor) : Prop where
  custody : Custody (queued s) s
  aborts : AbortOrder s
  keyed : Keyed s

variable {s : EventProcessor}

theorem Invariant.lives (h : Invariant s) : Lifecycle s := by
  refine ⟨h.custody.destroyedOnce, ?_, h.aborts.executedDue, h.aborts.notExecutedAborted,
    h.aborts.abortedOnce⟩
  intro e hLive hBack hControl
  have hMem : e ∈ queued s := (h.custody.waits e).mpr ⟨⟨hLive.1, hLive.2, hBack⟩, hControl⟩
  exact List.count_eq_one_of_mem h.custody.nodup hMem

theorem Invariant.move_on (h : Invariant s) (time : UInt64)
    {control : ProcessorControl}
    (hControl : ∀ e, control = .executing e false ↔ s.control = .executing e false) :
    Invariant { s with time := time, control := control } :=
  ⟨h.custody.congr rfl hControl, h.aborts.congr rfl fun _ => rfl, h.keyed⟩

section AddEvent

variable (s : EventProcessor) (e : Nat) (eTime : UInt64) (setAddtime : Bool)

theorem addEvent_queued : (queued (s.addEvent e eTime setAddtime)).Perm (e :: queued s) :=
  (insertUpper_perm _ _).map _

theorem addEvent_abortState (e' : Nat) :
    (s.addEvent e eTime setAddtime).abortState e' = s.abortState e' := by
  rcases eq_or_ne e' e with rfl | hNe
  · simp [addEvent, abortState]
  · simp [addEvent, abortState, modifyEvent_of_ne hNe]

variable {s e}

theorem addEvent_keyed (h : Keyed s) (he : e ∉ queued s) : Keyed (s.addEvent e eTime setAddtime) := by
  intro entry hEntry
  rcases mem_insertUpper.mp hEntry with rfl | hOld
  · simp [addEvent]
  · have hNe : entry.event ≠ e := by
      rintro rfl
      exact he (List.mem_map_of_mem hOld)
    simpa [addEvent, modifyEvent_of_ne hNe] using h entry hOld

theorem addEvent_invariant {after result : EventProcessor} (hKeyed : Keyed s)
    (hCustody : Custody (e :: queued s) after) (hAborts : AbortOrder after)
    (hAbort : after.abortState = s.abortState)
    (hEvents : result.events = (s.addEvent e eTime setAddtime).events)
    (hEvent : result.event = (s.addEvent e eTime setAddtime).event)
    (hControl : result.control = after.control) (hLog : result.log = after.log) :
    Invariant result := by
  have hNot : e ∉ queued s := (List.nodup_cons.mp hCustody.nodup).1
  refine ⟨?_, ?_, ?_⟩
  · rw [queued, hEvents]
    have hMoved := hCustody.perm (addEvent_queued s e eTime setAddtime).symm
    exact hMoved.congr hLog fun _ => by rw [hControl]
  · apply hAborts.congr hLog
    intro e'
    rw [hAbort, ← addEvent_abortState s e eTime setAddtime e', abortState, hEvent]
    rfl
  · rw [Keyed, hEvents, hEvent]
    exact addEvent_keyed eTime setAddtime hKeyed hNot

end AddEvent

variable {e : Nat}

theorem dispose_invariant (hCustody : Custody (e :: queued s) s)
    (hAborts : AbortOrder s) (hKeyed : Keyed s) (deletable : Bool) :
    Invariant (s.dispose e deletable) := by
  rw [dispose]
  split
  · exact ⟨hCustody.destroy, hAborts.record trivial, hKeyed⟩
  · exact addEvent_invariant (s.calculateTime 1) false hKeyed hCustody hAborts rfl rfl rfl rfl rfl

theorem setAborted_keyed (h : Keyed s) (e : Nat) :
    Keyed (s.modifyEvent e fun event => { event with abortState := .aborted }) := by
  intro entry hEntry
  rcases eq_or_ne entry.event e with rfl | hNe
  · simpa using h entry hEntry
  · simpa [modifyEvent_of_ne hNe] using h entry hEntry

variable {s' : EventProcessor}

theorem updateRound_invariant (h : Invariant s) {deletable : Bool}
    (hControl : s.control = .updating) (hStep : s.updateRound deletable = some s') :
    Invariant s' := by
  rw [updateRound] at hStep
  split at hStep
  · obtain rfl := Option.some.inj hStep
    exact h.move_on s.time (by simp [hControl])
  · rename_i entry rest hEntries
    have hQueued : queued s = entry.event ::
        queued { s with events := s.events.eraseFirst } := by
      simp only [queued, EventQueue.eraseFirst, hEntries, List.map_cons, List.tail_cons]
    have hCustody : Custody (entry.event :: queued { s with events := s.events.eraseFirst })
        { s with events := s.events.eraseFirst } :=
      (hQueued ▸ h.custody).congr rfl fun _ => Iff.rfl
    have hAborts : AbortOrder { s with events := s.events.eraseFirst } :=
      h.aborts.congr rfl fun _ => rfl
    have hKeyed : Keyed { s with events := s.events.eraseFirst } :=
      fun other hOther => h.keyed other (List.mem_of_mem_tail hOther)
    have hExecTime : (s.event entry.event).execTime = entry.time :=
      h.keyed entry (hEntries ▸ List.mem_cons_self)
    split at hStep
    · rename_i hDue
      rw [← hExecTime] at hDue
      dsimp only at hStep
      split at hStep
      · rename_i hRunning
        obtain rfl := Option.some.inj hStep
        refine ⟨?_, (hAborts.execute hRunning hDue).congr rfl fun _ => rfl, hKeyed⟩
        exact ((hCustody.take hControl).record id).congr rfl fun _ => Iff.rfl
      · rename_i hScheduled
        obtain ⟨aborted, hAborted, hRest⟩ := Option.bind_eq_some_iff.mp hStep
        have hState : abortState { s with events := s.events.eraseFirst } entry.event ≠ .aborted := by
          rw [hScheduled]
          exact AbortState.noConfusion
        rw [setAborted] at hAborted
        split at hAborted
        · obtain rfl := Option.some.inj hAborted
          obtain rfl := Option.some.inj hRest
          refine dispose_invariant ?_ ?_ ?_ deletable
          · exact (hCustody.record id).congr rfl fun _ => Iff.rfl
          · exact (hAborts.abort hState).congr rfl fun _ => rfl
          · exact setAborted_keyed hKeyed entry.event
        · cases hAborted
      · obtain rfl := Option.some.inj hStep
        exact dispose_invariant hCustody hAborts hKeyed deletable
    · obtain rfl := Option.some.inj hStep
      exact h.move_on s.time (by simp [hControl])

structure SameQueue (s s' : EventProcessor) : Prop where
  events : s'.events = s.events
  execTime : ∀ e, (s'.event e).execTime = (s.event e).execTime

theorem SameQueue.trans {s₁ s₂ s₃ : EventProcessor} (h₁ : SameQueue s₁ s₂) (h₂ : SameQueue s₂ s₃) :
    SameQueue s₁ s₃ :=
  ⟨h₂.events.trans h₁.events, fun e => (h₂.execTime e).trans (h₁.execTime e)⟩

theorem abort_sameQueue (s : EventProcessor) (e : Nat) :
    SameQueue s ((s.modifyEvent e fun event => { event with abortState := .aborted }).abort e) := by
  refine ⟨rfl, ?_⟩
  intro e'
  rcases eq_or_ne e' e with rfl | hNe
  · simp [abort]
  · simp [abort, modifyEvent_of_ne hNe]

theorem killEvent_spec {kill : Nat → Bool} {waiting : List Nat}
    (hCustody : Custody (e :: waiting) s) (hAborts : AbortOrder s)
    (hStep : killEvent kill s e = some s') :
    Custody (if kill e then waiting else e :: waiting) s' ∧ AbortOrder s' ∧ SameQueue s s' := by
  have hDrop : ∀ aborted : EventProcessor, Custody (e :: waiting) aborted → AbortOrder aborted →
      SameQueue s aborted → (if kill e then aborted.destroy e else aborted) = s' →
      Custody (if kill e then waiting else e :: waiting) s' ∧ AbortOrder s' ∧ SameQueue s s' := by
    rintro aborted hCustody hAborts hSame rfl
    split
    · exact ⟨hCustody.destroy, hAborts.record trivial, hSame.trans ⟨rfl, fun _ => rfl⟩⟩
    · exact ⟨hCustody, hAborts, hSame⟩
  rw [killEvent] at hStep
  split at hStep
  · rename_i hState
    rw [setAborted, if_pos hState] at hStep
    refine hDrop _ ?_ (hAborts.abort hState) (abort_sameQueue s e) (Option.some.inj hStep)
    exact (hCustody.record id).congr rfl fun _ => Iff.rfl
  · exact hDrop s hCustody hAborts ⟨rfl, fun _ => rfl⟩ (Option.some.inj hStep)

theorem foldlM_killEvent_spec {kill : Nat → Bool} {events : List Nat} :
    ∀ {s : EventProcessor} {kept : List Nat}, Custody (events ++ kept) s → AbortOrder s →
      events.foldlM (killEvent kill) s = some s' →
      Custody (events.filter (fun e => !kill e) ++ kept) s' ∧ AbortOrder s' ∧ SameQueue s s' := by
  induction events with
  | nil =>
    intro s kept hCustody hAborts hFold
    obtain rfl := Option.some.inj hFold
    exact ⟨hCustody, hAborts, rfl, fun _ => rfl⟩
  | cons e events ih =>
    intro s kept hCustody hAborts hFold
    rw [List.foldlM_cons] at hFold
    obtain ⟨next, hNext, hRest⟩ := Option.bind_eq_some_iff.mp hFold
    obtain ⟨hFirst, hFirstAborts, hFirstSame⟩ := killEvent_spec hCustody hAborts hNext
    cases hKill : kill e with
    | true =>
      rw [if_pos hKill] at hFirst
      obtain ⟨hLast, hLastAborts, hLastSame⟩ := ih hFirst hFirstAborts hRest
      rw [List.filter_cons_of_neg (by simp [hKill])]
      exact ⟨hLast, hLastAborts, hFirstSame.trans hLastSame⟩
    | false =>
      rw [if_neg (by simp [hKill])] at hFirst
      have hMoved : Custody (events ++ e :: kept) next := hFirst.perm List.perm_middle.symm
      obtain ⟨hLast, hLastAborts, hLastSame⟩ := ih hMoved hFirstAborts hRest
      rw [List.filter_cons_of_pos (by simp [hKill])]
      exact ⟨hLast.perm List.perm_middle, hLastAborts, hFirstSame.trans hLastSame⟩

theorem killAllEvents_spec (h : Invariant s) {force : Bool}
    {deletable : Nat → Bool} (hStep : s.killAllEvents force deletable = some s') :
    Invariant s' ∧ s'.events = s.events.retain fun e => !(force || deletable e) := by
  obtain ⟨killed, hKilled, hRest⟩ := Option.bind_eq_some_iff.mp hStep
  obtain rfl := Option.some.inj hRest
  have hCustody : Custody (queued s ++ []) s := (List.append_nil _).symm ▸ h.custody
  obtain ⟨hAfter, hAborts, hSame⟩ := foldlM_killEvent_spec hCustody h.aborts hKilled
  have hEvents : killed.events = s.events := hSame.events
  refine ⟨⟨?_, hAborts.congr rfl fun _ => rfl, ?_⟩, by rw [hEvents]⟩
  · rw [List.append_nil] at hAfter
    have hQueued : queued { killed with events := killed.events.retain fun e => !(force || deletable e) } =
        (queued s).filter fun e => !(force || deletable e) := by
      rw [queued, queued, List.filter_map, EventQueue.retain, hEvents]
      rfl
    exact (hQueued ▸ hAfter).congr rfl fun _ => Iff.rfl
  · intro entry hEntry
    have hOld : entry ∈ s.events.entries := hEvents ▸ List.mem_of_mem_filter hEntry
    exact (hSame.execTime entry.event).trans (h.keyed entry hOld)

theorem executed_invariant (h : Invariant s) {readded done : Bool}
    (hControl : s.control = .executing e readded) (hAnswer : ¬ (readded ∧ done)) :
    Invariant (s.executed e readded done) := by
  rw [executed]
  cases readded with
  | true =>
    obtain rfl : done = false := by simpa using hAnswer
    exact h.move_on s.time (by simp [hControl])
  | false =>
    cases done with
    | true =>
      have hAborts : AbortOrder (s.record (.destroyed e)) := h.aborts.record trivial
      exact ⟨h.custody.leave hControl (Or.inl rfl), hAborts.congr rfl fun _ => rfl, h.keyed⟩
    | false =>
      have hAborts : AbortOrder (s.record (.handedBack e)) := h.aborts.record trivial
      exact ⟨h.custody.leave hControl (Or.inr rfl), hAborts.congr rfl fun _ => rfl, h.keyed⟩

theorem step_invariant (s : EventProcessor) (label : Label) (s' : EventProcessor) (h : Invariant s)
    (hStep : step s label = some s') : Invariant s' := by
  cases label with
  | addEvent e eTime setAddtime =>
    rw [step] at hStep
    split at hStep
    · rename_i hNew
      obtain rfl := Option.some.inj hStep
      exact addEvent_invariant eTime setAddtime h.keyed (h.custody.add hNew) (h.aborts.record trivial)
        rfl rfl rfl rfl rfl
    · cases hStep
  | scheduleAbort e =>
    rw [step] at hStep
    split at hStep
    · have hAborts := h.aborts.scheduleAbort hStep
      rw [scheduleAbort] at hStep
      split at hStep
      · obtain rfl := Option.some.inj hStep
        refine ⟨(h.custody.record id).congr rfl fun _ => Iff.rfl, hAborts, ?_⟩
        intro entry hEntry
        rcases eq_or_ne entry.event e with rfl | hNe
        · simpa using h.keyed entry hEntry
        · simpa [modifyEvent_of_ne hNe] using h.keyed entry hEntry
      · cases hStep
    · cases hStep
  | killAllEvents force deletable => exact (killAllEvents_spec h hStep).1
  | update pTime =>
    rw [step] at hStep
    split at hStep
    · rename_i hIdle
      obtain rfl := Option.some.inj hStep
      exact h.move_on (s.time + pTime.toUInt64) (by simp [hIdle])
    · cases hStep
  | round deletable =>
    rw [step] at hStep
    split at hStep
    · rename_i hControl
      exact updateRound_invariant h hControl hStep
    · cases hStep
  | readd eTime setAddtime =>
    rw [step] at hStep
    split at hStep
    · rename_i e hControl
      obtain rfl := Option.some.inj hStep
      exact addEvent_invariant eTime setAddtime h.keyed (h.custody.readd hControl)
        (h.aborts.congr rfl fun _ => rfl) rfl rfl rfl rfl rfl
    · cases hStep
  | answer done =>
    rw [step] at hStep
    split at hStep
    · rename_i e readded hControl
      split at hStep
      · cases hStep
      · rename_i hAnswer
        obtain rfl := Option.some.inj hStep
        exact executed_invariant h hControl hAnswer
    · cases hStep

theorem fresh_invariant : Invariant fresh := by
  refine ⟨⟨List.nodup_nil, ?_, ?_, ?_, ?_⟩, ⟨?_, ?_, ?_, ?_, List.Pairwise.nil⟩, ?_⟩ <;>
    simp [fresh, Held, Keyed, queued, EventQueue.empty]

theorem exists_killEvent (kill : Nat → Bool) (s : EventProcessor) (e : Nat) :
    ∃ s', killEvent kill s e = some s' := by
  rw [killEvent]
  split
  · rename_i hState
    rw [setAborted, if_pos hState]
    exact ⟨_, rfl⟩
  · exact ⟨_, rfl⟩

theorem exists_foldlM_killEvent (kill : Nat → Bool) (events : List Nat) (s : EventProcessor) :
    ∃ s', events.foldlM (killEvent kill) s = some s' := by
  induction events generalizing s with
  | nil => exact ⟨s, rfl⟩
  | cons e events ih =>
    obtain ⟨next, hNext⟩ := exists_killEvent kill s e
    obtain ⟨s', hRest⟩ := ih next
    exact ⟨s', by rw [List.foldlM_cons, hNext]; exact hRest⟩

theorem exists_killAllEvents (s : EventProcessor) (force : Bool) (deletable : Nat → Bool) :
    ∃ s', s.killAllEvents force deletable = some s' := by
  obtain ⟨killed, hKilled⟩ := exists_foldlM_killEvent (fun e => force || deletable e) (queued s) s
  exact ⟨_, Option.bind_eq_some_iff.mpr ⟨killed, hKilled, rfl⟩⟩

/-- An event lives as it should in every run, and a forced kill succeeds in every state and
leaves nothing in the queue. -/
theorem lifecycle {labels : List Label} {s : EventProcessor} (h : Leads step fresh labels s) :
    Lifecycle s ∧ ∀ deletable, ∃ s', step s (.killAllEvents true deletable) = some s' ∧
      s'.events.entries = [] := by
  have hInvariant : Invariant s := h.invariant step_invariant fresh_invariant
  refine ⟨hInvariant.lives, ?_⟩
  intro deletable
  obtain ⟨s', hKill⟩ := exists_killAllEvents s true deletable
  refine ⟨s', hKill, ?_⟩
  rw [(killAllEvents_spec hInvariant hKill).2]
  simp [EventQueue.retain]

/-- Of two events due at once the first adds itself again and the other, whose abort was
scheduled, is not deletable. -/
def rescheduled : List Label :=
  [.addEvent 1 4 true, .addEvent 0 5 true, .scheduleAbort 0, .update 5, .round true, .readd 9 false,
    .answer false, .round false, .round true]

theorem lifecycle_rescheduled : ∃ s, Leads step fresh rescheduled s ∧
    s.control = .idle ∧ s.events.entries = [⟨6, 0⟩, ⟨9, 1⟩] ∧ Lifecycle s := by
  obtain ⟨s, hRun, hControl, hEntries⟩ : ∃ s, Leads step fresh rescheduled s ∧
      s.control = .idle ∧ s.events.entries = [⟨6, 0⟩, ⟨9, 1⟩] :=
    ⟨_, ⟨_, rfl, _, rfl, _, rfl, _, rfl, _, rfl, _, rfl, _, rfl, _, rfl, _, rfl, rfl⟩, rfl, rfl⟩
  exact ⟨s, hRun, hControl, hEntries, (lifecycle hRun).1⟩

end AshamaneCore.EventLifecycle
