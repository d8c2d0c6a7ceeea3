import AshamaneCore.Library.PeriodicWindow
import Mathlib.Algebra.Order.Ring.Int
import Mathlib.Data.Rat.Defs

/-!
# The game event manager

Times are in seconds, periods and lengths in minutes of 32 bits. The seconds of
a period may wrap to zero, and a division by it leaves no result.
-/

namespace AshamaneCore.GameEvents

inductive GameEventState
  | normal
  | worldInactive
  | worldConditions
  | worldNextphase
  | worldFinished
  | internal
deriving DecidableEq

structure GameEventFinishCondition where
  reqNum : Rat
  done : Rat

structure GameEventData where
  start : Int := 1
  endTime : Int := 0
  nextstart : Int := 0
  occurence : UInt32 := 0
  length : UInt32 := 0
  state : GameEventState := .normal
  conditions : List GameEventFinishCondition := []
  prerequisiteEvents : List Nat := []

structure GameEventMgr where
  mGameEvent : List GameEventData
  activeEvents : List Nat

def maxGeCheckDelay : Nat := 86400

/-! ## Loading -/

structure GameEventRow where
  startTime : UInt64
  endTime : UInt64
  occurence : UInt64
  length : UInt64
  worldEvent : GameEventState

/-- An event without length that is not a world event is skipped. -/
def loadRow (row : GameEventRow) : Option GameEventData :=
  if row.length.toUInt32 = 0 ∧ row.worldEvent = .normal then none
  else some {
    start := row.startTime.toInt64.toInt
    endTime := row.endTime.toInt64.toInt
    occurence := row.occurence.toUInt32
    length := row.length.toUInt32
    state := row.worldEvent }

/-! ## What is active, and until when -/

namespace GameEventData

variable (e : GameEventData)

def period : Nat := (e.occurence * 60).toNat

def duration : Nat := (e.length * 60).toNat

/-- The event is between its start and its end, and in its window. -/
def isOn (now : Int) : Option Bool :=
  if e.start < now ∧ now < e.endTime then
    if e.period = 0 then none else some (decide ((now - e.start) % e.period < e.duration))
  else some false

/-- The delay of a started event to the end of its window or to the next window. -/
def windowDelay (now : Int) : Nat :=
  if (now - e.start) % e.period < e.duration then ((e.duration - (now - e.start) % e.period) % 2 ^ 32).toNat
  else ((e.period - (now - e.start) % e.period) % 2 ^ 32).toNat

/-- The delay to the next change of an event that is not a world event. -/
def scheduleDelay (now : Int) : Option Nat :=
  if e.endTime < now then some maxGeCheckDelay
  else if now < e.start then some ((e.start - now) % 2 ^ 32).toNat
  else if e.period = 0 then none
  else if e.endTime < now + e.windowDelay now then some ((e.endTime - now) % 2 ^ 32).toNat
  else some (e.windowDelay now)

def conditionsMet : Bool := e.conditions.all fun c => ¬ c.done < c.reqNum

def nextphase (now : Int) : GameEventData :=
  { e with
    state := .worldNextphase
    nextstart := if e.nextstart = 0 then now + e.duration else e.nextstart }

def finished : GameEventData := { e with state := .worldFinished, nextstart := 0 }

/-- The event starts now; an end that is not later is set by the length. -/
def startedAt (now : Int) : GameEventData :=
  { e with start := now, endTime := if e.endTime ≤ now then now + e.length.toNat else e.endTime }

def stoppedAt (now : Int) : GameEventData :=
  { e with
    start := now - e.duration
    endTime := if e.endTime ≤ now - e.duration then now - e.duration + e.length.toNat else e.endTime }

def reset : GameEventData :=
  { e with
    nextstart := 0
    state := .worldInactive
    conditions := e.conditions.map fun c => { c with done := 0 } }

end GameEventData

namespace GameEventMgr

variable (m : GameEventMgr)

def event (entry : Nat) : GameEventData := m.mGameEvent.getD entry {}

def alter (entry : Nat) (e : GameEventData) : GameEventMgr := { m with mGameEvent := m.mGameEvent.set entry e }

def prerequisitesMet (entry : Nat) (now : Int) : Bool :=
  (m.event entry).prerequisiteEvents.all fun p =>
    ((m.event p).state = .worldNextphase ∨ (m.event p).state = .worldFinished) ∧ (m.event p).nextstart ≤ now

def checkOneGameEvent (entry : Nat) (now : Int) : Option Bool :=
  match (m.event entry).state with
  | .normal => (m.event entry).isOn now
  | .worldConditions => some true
  | .worldNextphase => some true
  | .worldFinished => some false
  | .internal => some false
  | .worldInactive => some (m.prerequisitesMet entry now && !(m.event entry).prerequisiteEvents.isEmpty)

def nextCheck (entry : Nat) (now : Int) : Option Nat :=
  if ((m.event entry).state = .worldNextphase ∨ (m.event entry).state = .worldFinished) ∧
      now ≤ (m.event entry).nextstart then some (((m.event entry).nextstart - now) % 2 ^ 32).toNat
  else if (m.event entry).state = .worldConditions then
    some (if (m.event entry).length ≠ 0 then (m.event entry).duration else maxGeCheckDelay)
  else (m.event entry).scheduleDelay now

/-! ## Starting and stopping -/

def checkOneGameEventConditions (entry : Nat) (now : Int) : Bool × GameEventMgr :=
  if (m.event entry).conditionsMet then (true, m.alter entry ((m.event entry).nextphase now)) else (false, m)

def addActiveEvent (entry : Nat) : GameEventMgr := { m with activeEvents := m.activeEvents.insert entry }

def removeActiveEvent (entry : Nat) : GameEventMgr := { m with activeEvents := m.activeEvents.erase entry }

def isServerwide (entry : Nat) : Bool := (m.event entry).state ≠ .normal ∧ (m.event entry).state ≠ .internal

/-- The conditions of an inactive world event are looked at from now on. -/
def awaken (entry : Nat) : GameEventMgr :=
  if (m.event entry).state = .worldInactive then m.alter entry { m.event entry with state := .worldConditions } else m

def startEvent (entry : Nat) (overwrite : Bool) (now : Int) : Bool × GameEventMgr :=
  if m.isServerwide entry then ((m.awaken entry).addActiveEvent entry).checkOneGameEventConditions entry now
  else if overwrite then (false, (m.addActiveEvent entry).alter entry ((m.event entry).startedAt now))
  else (false, m.addActiveEvent entry)

def stopEvent (entry : Nat) (overwrite : Bool) (now : Int) : GameEventMgr :=
  if m.isServerwide entry then
    if overwrite ∨ (m.event entry).state ≠ .worldFinished then
      (m.removeActiveEvent entry).alter entry (m.event entry).reset
    else m.removeActiveEvent entry
  else if overwrite then (m.removeActiveEvent entry).alter entry ((m.event entry).stoppedAt now)
  else m.removeActiveEvent entry

end GameEventMgr

/-! ## Update -/

structure Round where
  mgr : GameEventMgr
  activate : List Nat
  deactivate : List Nat
  nextEventDelay : Nat

namespace Round

variable (r : Round)

def queueStart (entry : Nat) : Round :=
  if entry ∈ r.mgr.activeEvents then r else { r with activate := r.activate ++ [entry] }

def queueStop (entry : Nat) : Round :=
  if entry ∈ r.mgr.activeEvents then { r with deactivate := r.deactivate ++ [entry] } else r

def lookAtConditions (entry : Nat) (now : Int) : Round :=
  if (r.mgr.event entry).state = .worldConditions then
    { r with mgr := (r.mgr.checkOneGameEventConditions entry now).2 }
  else r

def await (entry : Nat) (now : Int) : Option Round :=
  (r.mgr.nextCheck entry now).map fun calcDelay =>
    if calcDelay < r.nextEventDelay then { r with nextEventDelay := calcDelay } else r

def visit (now : Int) (entry : Nat) : Option Round :=
  match r.mgr.checkOneGameEvent entry now with
  | none => none
  | some true =>
    if (r.mgr.event entry).state = .worldNextphase ∧ (r.mgr.event entry).nextstart ≤ now then
      some ({ r with mgr := r.mgr.alter entry (r.mgr.event entry).finished }.queueStop entry)
    else ((r.lookAtConditions entry now).queueStart entry).await entry now
  | some false => (r.queueStop entry).await entry now

/-- A started event whose conditions are met asks for an update at once. -/
def start (now : Int) (entry : Nat) : Round :=
  { r with
    mgr := (r.mgr.startEvent entry false now).2
    nextEventDelay := if (r.mgr.startEvent entry false now).1 then 0 else r.nextEventDelay }

def stop (now : Int) (entry : Nat) : Round := { r with mgr := r.mgr.stopEvent entry false now }

end Round

namespace GameEventMgr

def entries (m : GameEventMgr) : List Nat := List.range' 1 (m.mGameEvent.length - 1)

/-- The round with everything started and stopped that it queued. -/
def carryOut (now : Int) (r : Round) : Round :=
  r.deactivate.foldl (fun r entry => r.stop now entry) (r.activate.foldl (fun r entry => r.start now entry) r)

def update (m : GameEventMgr) (now : Int) : Option Round :=
  (m.entries.foldlM (fun (r : Round) entry => r.visit now entry) ⟨m, [], [], maxGeCheckDelay⟩).map (carryOut now)

end GameEventMgr

/-!
## What the schedule of the game events misses

An event is active from the second after its start, but at its start the delay
to its next check is already that to its end. An event that is started anew
ends as many seconds later as its length has minutes.
-/

open Library.PeriodicWindow

namespace GameEventMgr

def Loaded (m : GameEventMgr) (entry : Nat) : Prop :=
  ∃ row, loadRow row = some (m.event entry) ∧ row.worldEvent = .normal

def Normal (m : GameEventMgr) : Prop := ∀ entry, m.event entry = {} ∨ m.Loaded entry

/-- Between two updates no event becomes active or inactive, and a started event whose end was
over is active for its length. -/
structure MissesNothing (m : GameEventMgr) (now : Int) (started : Nat) : Prop where
  updates : ∃ r, m.update now = some r ∧ ∀ entry ∈ m.entries, ∀ s, now ≤ s → s < now + r.nextEventDelay →
    r.mgr.checkOneGameEvent entry s = m.checkOneGameEvent entry now
  starts : (m.event started).endTime ≤ now → ∀ s, now < s → s < now + (m.event started).length.toNat * 60 →
    (m.startEvent started true now).2.checkOneGameEvent started s = some true

end GameEventMgr

namespace GameEventData

variable {e : GameEventData} {now : Int}

/-- The event starts this very second, and is active in the next one. -/
def Starting (e : GameEventData) (now : Int) : Prop := e.start = now ∧ now + 1 < e.endTime ∧ e.duration ≠ 0

/-- The event starts, ends, or comes to the end of its window or of its period, within a second. -/
def Due (e : GameEventData) (now : Int) : Prop :=
  now ≤ e.endTime ∧
    if now < e.start then (e.start - now) % 2 ^ 32 ≤ 1
    else e.endTime ≤ now + 1 ∨ untilChange e.period e.duration (now - e.start) ≤ 1

theorem minutes_dvd (minutes : UInt32) : 4 ∣ (minutes * 60).toNat := by
  have hSixty : (60 : UInt32).toNat = 60 := rfl
  rw [UInt32.toNat_mul, hSixty]
  omega

theorem windowDelay_eq (now : Int) (hPeriod : e.period ≠ 0) :
    (e.windowDelay now : Int) = untilChange e.period e.duration (now - e.start) := by
  have hPositive : (0 : Int) < e.period := by omega
  have hPassed := Int.emod_nonneg (now - e.start) hPositive.ne'
  have hBelow := Int.emod_lt_of_pos (now - e.start) hPositive
  have hWord : e.period < 2 ^ 32 := UInt32.toNat_lt _
  have hWord' : e.duration < 2 ^ 32 := UInt32.toNat_lt _
  rw [windowDelay, untilChange]
  split
  · rw [Int.emod_eq_of_lt (by omega) (by omega), Int.toNat_of_nonneg (by omega)]
  · rw [Int.emod_eq_of_lt (by omega) (by omega), Int.toNat_of_nonneg (by omega)]

theorem scheduleDelay_eq_none : e.scheduleDelay now = none ↔ e.start ≤ now ∧ now ≤ e.endTime ∧ e.period = 0 := by
  rw [scheduleDelay]
  split
  · exact ⟨(fun h => nomatch h), fun h => by omega⟩
  · split
    · exact ⟨(fun h => nomatch h), fun h => by omega⟩
    · split
      · exact ⟨fun _ => ⟨by omega, by omega, by assumption⟩, fun _ => rfl⟩
      · split
        · exact ⟨(fun h => nomatch h), fun h => absurd h.2.2 (by assumption)⟩
        · exact ⟨(fun h => nomatch h), fun h => absurd h.2.2 (by assumption)⟩

theorem scheduleDelay_of_isOn (h : e.isOn now = none) : e.scheduleDelay now = none := by
  rw [isOn] at h
  split at h
  · split at h
    · exact scheduleDelay_eq_none.mpr ⟨by omega, by omega, by assumption⟩
    · cases h
  · cases h

variable {delay : Nat}

theorem started_delay (hDelay : e.scheduleDelay now = some delay) (hStart : e.start ≤ now)
    (hEnd : now ≤ e.endTime) : e.period ≠ 0 ∧
      (delay : Int) = min (untilChange e.period e.duration (now - e.start)) (e.endTime - now) := by
  rw [scheduleDelay, if_neg (by omega), if_neg (by omega)] at hDelay
  split at hDelay
  · cases hDelay
  · rename_i hPeriod
    have hWindow := windowDelay_eq now hPeriod
    have hWord : e.windowDelay now < 2 ^ 32 := by
      rw [windowDelay]
      split <;> omega
    refine ⟨hPeriod, ?_⟩
    rw [← hWindow]
    split at hDelay
    · obtain rfl := Option.some.inj hDelay
      rw [Int.emod_eq_of_lt (by omega) (by omega), Int.toNat_of_nonneg (by omega)]
      omega
    · obtain rfl := Option.some.inj hDelay
      omega

variable {s : Int}

theorem isOn_between (hStart : e.start < s) (hEnd : s < e.endTime) (hPeriod : e.period ≠ 0) :
    e.isOn s = some (decide (InWindow e.period e.duration (s - e.start))) := by
  rw [isOn, if_pos ⟨hStart, hEnd⟩, if_neg hPeriod]
  rfl

theorem isOn_outside (h : s ≤ e.start ∨ e.endTime ≤ s) : e.isOn s = some false := by
  rw [isOn, if_neg (by omega)]

theorem isOn_later (hDelay : e.scheduleDelay now = some delay) (hStarting : ¬ e.Starting now)
    (hLater : now ≤ s) (h : s < now + delay) : e.isOn s = e.isOn now := by
  by_cases hOver : e.endTime < now
  · rw [isOn_outside (by omega), isOn_outside (by omega)]
  by_cases hBefore : now < e.start
  · rw [scheduleDelay, if_neg hOver, if_pos hBefore] at hDelay
    obtain rfl := Option.some.inj hDelay
    rw [isOn_outside (by omega), isOn_outside (by omega)]
  obtain ⟨hPeriod, hMin⟩ := started_delay hDelay (by omega) (by omega)
  rcases Int.lt_or_eq_of_le (Int.le_of_not_gt hBefore) with hStart | hStart
  · have hPositive : (0 : Int) < e.period := by omega
    rw [isOn_between (by omega) (by omega) hPeriod, isOn_between hStart (by omega) hPeriod]
    have hSoon : s - now < untilChange e.period e.duration (now - e.start) := by omega
    have hSame := inWindow_later hPositive (by omega) hSoon
    rw [show now - e.start + (s - now) = s - e.start by omega] at hSame
    rw [decide_eq_decide.mpr hSame]
  · rcases Int.lt_or_eq_of_le hLater with hAfter | rfl
    · have hNone : e.duration = 0 := by
        by_contra hSome
        exact hStarting ⟨hStart, by omega, hSome⟩
      have hPassed := Int.emod_nonneg (s - e.start) (show (e.period : Int) ≠ 0 by omega)
      have hOut : ¬ InWindow e.period e.duration (s - e.start) := by
        rw [InWindow, hNone]
        omega
      rw [isOn_between (by omega) (by omega) hPeriod, isOn_outside (Or.inl hStart.ge), decide_eq_false hOut]
    · rfl

theorem delay_le_one (hDelay : e.scheduleDelay now = some delay) : delay ≤ 1 ↔ e.Due now := by
  rw [Due]
  by_cases hOver : e.endTime < now
  · rw [scheduleDelay, if_pos hOver] at hDelay
    obtain rfl := Option.some.inj hDelay
    exact ⟨fun h => absurd h (by decide), fun h => absurd h.1 (by omega)⟩
  rw [and_iff_right (by omega)]
  by_cases hBefore : now < e.start
  · rw [scheduleDelay, if_neg hOver, if_pos hBefore] at hDelay
    obtain rfl := Option.some.inj hDelay
    rw [if_pos hBefore]
    omega
  · obtain ⟨-, hMin⟩ := started_delay hDelay (by omega) (by omega)
    rw [if_neg hBefore]
    omega

theorem Starting.isOn_next (h : e.Starting now) (hPeriod : e.period ≠ 0) :
    e.isOn (now + 1) = some true ∧ e.isOn now = some false := by
  obtain ⟨hStart, hEnd, hDuration⟩ := h
  have hQuarter := minutes_dvd e.occurence
  have hQuarter' := minutes_dvd e.length
  have hFour : 4 ≤ e.period := Nat.le_of_dvd (by omega) hQuarter
  have hFour' : 4 ≤ e.duration := Nat.le_of_dvd (by omega) hQuarter'
  refine ⟨?_, isOn_outside (Or.inl hStart.ge)⟩
  have hIn : InWindow e.period e.duration (now + 1 - e.start) := by
    rw [InWindow, hStart, add_sub_cancel_left, Int.emod_eq_of_lt (by omega) (by omega)]
    omega
  rw [isOn_between (by omega) hEnd hPeriod, decide_eq_true hIn]

end GameEventData

/-! ## One update -/

namespace GameEventMgr

/-- When an update misses nothing: no period is zero, no event starts this second unless another
one is due within the next, and the started event is not over. -/
structure Attended (m : GameEventMgr) (now : Int) (started : Nat) : Prop where
  periods : ∀ entry ∈ m.entries, (m.event entry).start ≤ now → now ≤ (m.event entry).endTime → (m.event entry).period ≠ 0
  startings : ∀ entry ∈ m.entries, (m.event entry).Starting now → ∃ other ∈ m.entries, (m.event other).Due now
  ends : now < (m.event started).endTime

variable {m : GameEventMgr} {now : Int}

variable {entry : Nat}

theorem Loaded.length_ne_zero (h : m.Loaded entry) : (m.event entry).length ≠ 0 := by
  obtain ⟨row, hRow, hState⟩ := h
  rw [loadRow] at hRow
  split at hRow
  · cases hRow
  · rename_i hKept
    rw [← Option.some.inj hRow]
    exact fun hNone => hKept ⟨hNone, hState⟩

theorem Normal.state (h : m.Normal) (entry : Nat) : (m.event entry).state = .normal := by
  rcases h entry with hNone | ⟨row, hRow, hState⟩
  · rw [hNone]
  · rw [loadRow] at hRow
    split at hRow
    · cases hRow
    · rw [← Option.some.inj hRow]
      exact hState

theorem check_normal (h : (m.event entry).state = .normal) :
    m.checkOneGameEvent entry now = (m.event entry).isOn now := by
  rw [checkOneGameEvent, h]

theorem nextCheck_normal (h : (m.event entry).state = .normal) :
    m.nextCheck entry now = (m.event entry).scheduleDelay now := by
  rw [nextCheck, h, if_neg (by simp), if_neg (by simp)]

end GameEventMgr

namespace Round

variable {r r' : Round} {now : Int}

theorem queueStart_mgr (entry : Nat) :
    (r.queueStart entry).mgr = r.mgr ∧ (r.queueStart entry).nextEventDelay = r.nextEventDelay := by
  rw [queueStart]
  split <;> exact ⟨rfl, rfl⟩

theorem queueStop_mgr (entry : Nat) :
    (r.queueStop entry).mgr = r.mgr ∧ (r.queueStop entry).nextEventDelay = r.nextEventDelay := by
  rw [queueStop]
  split <;> exact ⟨rfl, rfl⟩

variable {entry : Nat}

theorem await_normal (h : (r.mgr.event entry).state = .normal) {delay : Nat}
    (hDelay : (r.mgr.event entry).scheduleDelay now = some delay) :
    ∃ r', r.await entry now = some r' ∧ r'.mgr = r.mgr ∧ r'.nextEventDelay = min delay r.nextEventDelay := by
  rw [Round.await, GameEventMgr.nextCheck_normal h, hDelay, Option.map_some]
  split
  · exact ⟨_, rfl, rfl, by simp only; omega⟩
  · exact ⟨_, rfl, rfl, by omega⟩

theorem visit_await (h : (r.mgr.event entry).state = .normal) {on : Bool}
    (hOn : (r.mgr.event entry).isOn now = some on) :
    ∃ q : Round, r.visit now entry = q.await entry now ∧ q.mgr = r.mgr ∧ q.nextEventDelay = r.nextEventDelay := by
  rw [visit, GameEventMgr.check_normal h, hOn]
  cases on with
  | false => exact ⟨_, rfl, queueStop_mgr entry⟩
  | true =>
    have hLook : r.lookAtConditions entry now = r := by
      rw [lookAtConditions, h, if_neg (by simp)]
    have hNotEnded : ¬ ((r.mgr.event entry).state = .worldNextphase ∧ (r.mgr.event entry).nextstart ≤ now) := by
      rw [h]
      simp
    simp only [if_neg hNotEnded, hLook]
    exact ⟨_, rfl, queueStart_mgr entry⟩

theorem visit_normal (h : (r.mgr.event entry).state = .normal) {delay : Nat}
    (hDelay : (r.mgr.event entry).scheduleDelay now = some delay) :
    ∃ r', r.visit now entry = some r' ∧ r'.mgr = r.mgr ∧ r'.nextEventDelay = min delay r.nextEventDelay := by
  cases hOn : (r.mgr.event entry).isOn now with
  | none => cases hDelay.symm.trans (GameEventData.scheduleDelay_of_isOn hOn)
  | some on =>
    obtain ⟨q, hVisit, hMgr, hKept⟩ := visit_await h hOn
    rw [← hMgr] at h hDelay ⊢
    rw [hVisit, ← hKept]
    exact await_normal h hDelay

theorem visit_zero (h : (r.mgr.event entry).state = .normal)
    (hDelay : (r.mgr.event entry).scheduleDelay now = none) : r.visit now entry = none := by
  cases hOn : (r.mgr.event entry).isOn now with
  | none => rw [visit, GameEventMgr.check_normal h, hOn]
  | some on =>
    obtain ⟨q, hVisit, hMgr, -⟩ := visit_await h hOn
    rw [hVisit, Round.await, hMgr, GameEventMgr.nextCheck_normal h, hDelay]
    rfl

/-- All events visited: none has a period of zero, and the delay is the least of theirs. -/
structure Visited (entries : List Nat) (now : Int) (r r' : Round) : Prop where
  mgr : r'.mgr = r.mgr
  below : r'.nextEventDelay ≤ r.nextEventDelay
  delays : ∀ entry ∈ entries, ∃ delay, (r.mgr.event entry).scheduleDelay now = some delay ∧ r'.nextEventDelay ≤ delay
  least : ∀ k ≤ r.nextEventDelay, (∀ entry ∈ entries, ∀ delay, (r.mgr.event entry).scheduleDelay now = some delay →
    k ≤ delay) → k ≤ r'.nextEventDelay

theorem visits {entries : List Nat} (h : ∀ entry, (r.mgr.event entry).state = .normal)
    (hDelays : ∀ entry ∈ entries, (r.mgr.event entry).scheduleDelay now ≠ none) :
    ∃ r', entries.foldlM (fun (r : Round) entry => r.visit now entry) r = some r' ∧ Visited entries now r r' := by
  induction entries generalizing r with
  | nil => exact ⟨r, rfl, rfl, le_rfl, (fun _ hMem => nomatch hMem), fun _ hk _ => hk⟩
  | cons entry entries ih =>
    obtain ⟨hFirst, hRest⟩ := List.forall_mem_cons.mp hDelays
    obtain ⟨delay, hDelay⟩ := Option.ne_none_iff_exists'.mp hFirst
    obtain ⟨q, hVisit, hMgr, hMin⟩ := visit_normal (h entry) hDelay
    obtain ⟨r', hOk, hSame, hBelow, hAll, hLeast⟩ := ih (r := q) (by rwa [hMgr]) (by rwa [hMgr])
    rw [hMgr] at hSame hAll hLeast
    refine ⟨r', ?_, hSame, by omega, List.forall_mem_cons.mpr ⟨⟨delay, hDelay, by omega⟩, hAll⟩, fun k hk hEvery => ?_⟩
    · rw [List.foldlM_cons, hVisit]
      exact hOk
    · obtain ⟨hHead, hTail⟩ := List.forall_mem_cons.mp hEvery
      have hSmall := hHead delay hDelay
      exact hLeast k (by omega) hTail

theorem visits_zero {entries : List Nat} (h : ∀ entry, (r.mgr.event entry).state = .normal)
    (hMem : entry ∈ entries) (hDelay : (r.mgr.event entry).scheduleDelay now = none) :
    entries.foldlM (fun (r : Round) entry => r.visit now entry) r = none := by
  induction entries generalizing r with
  | nil => nomatch hMem
  | cons first entries ih =>
    rw [List.foldlM_cons]
    cases hFirst : (r.mgr.event first).scheduleDelay now with
    | none =>
      rw [visit_zero (h first) hFirst]
      rfl
    | some delay =>
      obtain ⟨q, hVisit, hMgr, -⟩ := visit_normal (h first) hFirst
      rw [hVisit]
      rcases List.mem_cons.mp hMem with rfl | hLater
      · cases hFirst.symm.trans hDelay
      · exact ih (by rwa [hMgr]) hLater (by rwa [hMgr])

theorem start_normal (h : ∀ entry, (r.mgr.event entry).state = .normal) (entry : Nat) :
    (r.start now entry).mgr.mGameEvent = r.mgr.mGameEvent ∧ (r.start now entry).nextEventDelay = r.nextEventDelay := by
  have hPlain : r.mgr.isServerwide entry = false := by
    rw [GameEventMgr.isServerwide, h]
    rfl
  rw [start, GameEventMgr.startEvent, hPlain]
  exact ⟨rfl, rfl⟩

theorem stop_normal (h : ∀ entry, (r.mgr.event entry).state = .normal) (entry : Nat) :
    (r.stop now entry).mgr.mGameEvent = r.mgr.mGameEvent ∧ (r.stop now entry).nextEventDelay = r.nextEventDelay := by
  have hPlain : r.mgr.isServerwide entry = false := by
    rw [GameEventMgr.isServerwide, h]
    rfl
  rw [stop, GameEventMgr.stopEvent, hPlain]
  exact ⟨rfl, rfl⟩

theorem foldl_kept {f : Round → Nat → Round}
    (hStep : ∀ r : Round, (∀ entry, (r.mgr.event entry).state = .normal) → ∀ entry,
      (f r entry).mgr.mGameEvent = r.mgr.mGameEvent ∧ (f r entry).nextEventDelay = r.nextEventDelay)
    (queue : List Nat) (h : ∀ entry, (r.mgr.event entry).state = .normal) :
    (queue.foldl f r).mgr.mGameEvent = r.mgr.mGameEvent ∧ (queue.foldl f r).nextEventDelay = r.nextEventDelay := by
  induction queue generalizing r with
  | nil => exact ⟨rfl, rfl⟩
  | cons entry queue ih =>
    obtain ⟨hEvents, hDelay⟩ := hStep r h entry
    have hNext : ∀ other, ((f r entry).mgr.event other).state = .normal := by
      intro other
      rw [GameEventMgr.event, hEvents]
      exact h other
    obtain ⟨hEvents', hDelay'⟩ := ih hNext
    exact ⟨hEvents'.trans hEvents, hDelay'.trans hDelay⟩

end Round

namespace GameEventMgr

theorem carryOut_kept (now : Int) {r : Round} (h : ∀ entry, (r.mgr.event entry).state = .normal) :
    (carryOut now r).mgr.mGameEvent = r.mgr.mGameEvent ∧ (carryOut now r).nextEventDelay = r.nextEventDelay := by
  have hStart : ∀ r : Round, (∀ entry, (r.mgr.event entry).state = .normal) → ∀ entry,
      (r.start now entry).mgr.mGameEvent = r.mgr.mGameEvent ∧ (r.start now entry).nextEventDelay = r.nextEventDelay :=
    fun r h entry => Round.start_normal h entry
  have hStop : ∀ r : Round, (∀ entry, (r.mgr.event entry).state = .normal) → ∀ entry,
      (r.stop now entry).mgr.mGameEvent = r.mgr.mGameEvent ∧ (r.stop now entry).nextEventDelay = r.nextEventDelay :=
    fun r h entry => Round.stop_normal h entry
  obtain ⟨hEvents, hDelay⟩ := Round.foldl_kept hStart r.activate h
  have hNext : ∀ other, ((r.activate.foldl (fun r entry => r.start now entry) r).mgr.event other).state = .normal := by
    intro other
    rw [event, hEvents]
    exact h other
  obtain ⟨hEvents', hDelay'⟩ := Round.foldl_kept hStop r.deactivate hNext
  exact ⟨hEvents'.trans hEvents, hDelay'.trans hDelay⟩

variable {m : GameEventMgr} {now : Int}

theorem update_normal (h : m.Normal) (hDelays : ∀ entry ∈ m.entries, (m.event entry).scheduleDelay now ≠ none) :
    ∃ r, m.update now = some r ∧ r.mgr.mGameEvent = m.mGameEvent ∧
      (∀ entry ∈ m.entries, ∃ delay, (m.event entry).scheduleDelay now = some delay ∧ r.nextEventDelay ≤ delay) ∧
      ∀ k ≤ maxGeCheckDelay, (∀ entry ∈ m.entries, ∀ delay, (m.event entry).scheduleDelay now = some delay → k ≤ delay) →
        k ≤ r.nextEventDelay := by
  obtain ⟨q, hOk, hMgr, -, hAll, hLeast⟩ := Round.visits (r := ⟨m, [], [], maxGeCheckDelay⟩) h.state hDelays
  obtain ⟨hEvents, hDelay⟩ := carryOut_kept now (r := q) (by rw [hMgr]; exact h.state)
  refine ⟨carryOut now q, by rw [update, hOk]; rfl, hEvents.trans (congrArg mGameEvent hMgr), ?_, ?_⟩
  · rw [hDelay]
    exact hAll
  · rw [hDelay]
    exact hLeast

theorem started_over (h : m.Normal) {started : Nat} (hMem : started ∈ m.entries) (hLoaded : m.Loaded started)
    (hOver : (m.event started).endTime ≤ now) : ¬ ∀ s, now < s → s < now + (m.event started).length.toNat * 60 →
      (m.startEvent started true now).2.checkOneGameEvent started s = some true := by
  intro hOn
  have hLength : (m.event started).length.toNat ≠ 0 := fun hNone => hLoaded.length_ne_zero (UInt32.toNat_inj.mp hNone)
  have hPlain : m.isServerwide started = false := by
    rw [isServerwide, h.state]
    rfl
  have hInside : started < m.mGameEvent.length := by
    rw [entries, List.mem_range'] at hMem
    omega
  have hEvent : (m.startEvent started true now).2.event started = (m.event started).startedAt now := by
    rw [startEvent, hPlain]
    change (m.mGameEvent.set started _).getD started {} = _
    rw [List.getD_eq_getElem?_getD, List.getElem?_set_self hInside, Option.getD_some]
  have hState : ((m.startEvent started true now).2.event started).state = .normal := by
    rw [hEvent]
    exact h.state started
  have hLate := hOn (now + (m.event started).length.toNat) (by omega) (by omega)
  rw [check_normal hState, hEvent, GameEventData.isOn_outside] at hLate
  · cases hLate
  · right
    rw [GameEventData.startedAt, if_pos hOver]

/-- The schedule misses nothing exactly when an update is attended. -/
theorem missesNothing_iff (h : m.Normal) (now : Int) {started : Nat} (hMem : started ∈ m.entries)
    (hLoaded : m.Loaded started) : m.MissesNothing now started ↔ m.Attended now started := by
  constructor
  · rintro ⟨⟨r, hUpdate, hSame⟩, hStarts⟩
    have hDelays : ∀ entry ∈ m.entries, (m.event entry).scheduleDelay now ≠ none := by
      intro entry hEntry hNone
      rw [update, Round.visits_zero (r := ⟨m, [], [], maxGeCheckDelay⟩) h.state hEntry hNone] at hUpdate
      cases hUpdate
    obtain ⟨r', hOk, hEvents, hAll, hLeast⟩ := update_normal h hDelays
    obtain rfl := Option.some.inj (hUpdate.symm.trans hOk)
    have hPeriods : ∀ entry ∈ m.entries, (m.event entry).start ≤ now → now ≤ (m.event entry).endTime →
        (m.event entry).period ≠ 0 :=
      fun entry hEntry hStart hEnd hZero =>
        hDelays entry hEntry (GameEventData.scheduleDelay_eq_none.mpr ⟨hStart, hEnd, hZero⟩)
    refine ⟨hPeriods, fun entry hEntry hStarting => ?_, ?_⟩
    · by_contra hNoneDue
      simp only [not_exists, not_and] at hNoneDue
      have hTwo : 2 ≤ r.nextEventDelay := by
        refine hLeast 2 (by decide) fun other hOther delay hDelay => ?_
        have hNot := (GameEventData.delay_le_one hDelay).not.mpr (hNoneDue other hOther)
        omega
      have hPeriod := hPeriods entry hEntry hStarting.1.le (by have := hStarting.2.1; omega)
      obtain ⟨hNext, hNow⟩ := hStarting.isOn_next hPeriod
      have hLater := hSame entry hEntry (now + 1) (by omega) (by omega)
      have hState : (r.mgr.event entry).state = .normal := by
        rw [event, hEvents]
        exact h.state entry
      rw [check_normal hState, check_normal (h.state entry), event, hEvents, ← event, hNext, hNow] at hLater
      cases hLater
    · by_contra hOver
      exact started_over h hMem hLoaded (by omega) (hStarts (by omega))
  · rintro ⟨hPeriods, hStartings, hEnds⟩
    refine ⟨?_, fun hOver => absurd hEnds (by omega)⟩
    have hDelays : ∀ entry ∈ m.entries, (m.event entry).scheduleDelay now ≠ none := by
      intro entry hEntry hNone
      obtain ⟨hStart, hEnd, hZero⟩ := GameEventData.scheduleDelay_eq_none.mp hNone
      exact hPeriods entry hEntry hStart hEnd hZero
    obtain ⟨r, hOk, hEvents, hAll, hLeast⟩ := update_normal h hDelays
    refine ⟨r, hOk, fun entry hEntry s hLater hSoon => ?_⟩
    have hState : (r.mgr.event entry).state = .normal := by
      rw [event, hEvents]
      exact h.state entry
    rw [check_normal hState, check_normal (h.state entry), event, hEvents, ← event]
    obtain ⟨delay, hDelay, hBelow⟩ := hAll entry hEntry
    by_cases hStarting : (m.event entry).Starting now
    · obtain ⟨other, hOther, hDue⟩ := hStartings entry hEntry hStarting
      obtain ⟨delay', hDelay', hBelow'⟩ := hAll other hOther
      have hOne := (GameEventData.delay_le_one hDelay').mpr hDue
      obtain rfl : s = now := by omega
      rfl
    · exact GameEventData.isOn_later hDelay hStarting hLater (by omega)

/-! ## One event -/

def hourly : GameEventRow := ⟨100, 1000000, 60, 10, .normal⟩

def oneEvent : GameEventMgr := ⟨[{}, (loadRow hourly).getD {}], []⟩

theorem oneEvent_normal : oneEvent.Normal
  | 0 => .inl rfl
  | 1 => .inr ⟨hourly, rfl, rfl⟩
  | _ + 2 => .inl rfl

theorem oneEvent_attended : oneEvent.MissesNothing 200 1 :=
  (missesNothing_iff oneEvent_normal 200 (by decide) ⟨hourly, rfl, rfl⟩).mpr
    ⟨by decide, fun entry hEntry hStarting => by
      obtain rfl : entry = 1 := by simpa [entries, oneEvent] using hEntry
      exact absurd hStarting.1 (by decide), by decide⟩

/-- At its start the event is not active, and the next check is when it is over. -/
theorem oneEvent_missed : oneEvent.Normal ∧ ¬ oneEvent.MissesNothing 100 1 := by
  refine ⟨oneEvent_normal, ?_⟩
  rintro ⟨⟨r, hUpdate, hSame⟩, -⟩
  obtain rfl := Option.some.inj hUpdate
  exact absurd (hSame 1 (by decide) 101 (by decide) (by decide)) (by decide)

end GameEventMgr

end AshamaneCore.GameEvents
