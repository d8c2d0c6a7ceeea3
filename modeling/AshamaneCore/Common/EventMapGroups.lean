import AshamaneCore.Common.EventMap
import Mathlib.Data.List.Perm.Basic

/-!
# Groups of the event map

ScheduleEvent sets the group bit in a 32-bit event id, where it is lost, so the
functions that work on a group find none of its events. Only the carry out of
the id in ScheduleNextEvent can ever set a group bit.
-/

namespace AshamaneCore.EventMapGroups

open EventMap Library.Bits Library.OrderedQueue Library.Transition

def Grouped (group : UInt16) : Prop := 1 ≤ group ∧ group ≤ 16

instance (group : UInt16) : Decidable (Grouped group) := inferInstanceAs (Decidable (_ ∧ _))

def content (e : Entry) : UInt32 × UInt64 × UInt16 × UInt16 := (e.time, e.data, e.group, e.phase)

def postponed (group : UInt16) (delay : UInt32) (e : Entry) : Entry :=
  if e.group = group then { e with time := e.time + delay } else e

/-- Cancelling or delaying a group is about exactly the events scheduled with it. -/
structure GroupLaw (s : EventMap) : Prop where
  cancels : ∀ group, Grouped group →
    (s.cancelEventGroup group).eventMap = s.eventMap.filter fun e => e.group ≠ group
  delays : ∀ group delay, Grouped group →
    ((s.delayEventsGroup delay group).eventMap.map content).Perm
      ((s.eventMap.map (postponed group delay)).map content)

/-- The step schedules without a group, and no carry runs into the group bits. -/
def Ungrouped (s : EventMap) : Operation → Prop
  | .scheduleEvent _ _ group _ => ¬ Grouped group
  | .rescheduleEvent _ _ group _ => ¬ Grouped group
  | .scheduleNextEvent _ => s.lastEvent ≠ 0xFFFFFFFF
  | _ => True

def Plain (data : UInt64) (group _phase : UInt16) : Prop := data.toNat < 2 ^ 32 ∧ ¬ Grouped group

variable {group : UInt16}

theorem plain_of_eventId (eventId : UInt32) (h : ¬ Grouped group)
    (phase : UInt16) : Plain eventId.toUInt64 group phase := by
  refine ⟨?_, h⟩
  rw [UInt32.toNat_toUInt64]
  exact eventId.toNat_lt

theorem inGroup_eq_testBit (h : Grouped group) (e : Entry) :
    inGroup group e = e.data.toNat.testBit (group.toNat + 31) := by
  have hBound : group.toNat ≤ 16 := UInt16.le_iff_toNat_le.mp h.2
  have hShift : (group.toUInt64 + 31).toNat = group.toNat + 31 := shift_toNat group (by decide)
  rw [inGroup, Bool.eq_iff_iff, decide_eq_true_eq, ← hShift]
  exact and_one_shiftLeft_ne_zero e.data (by omega)

theorem inGroup_of_small (h : Grouped group) {e : Entry}
    (hSmall : e.data.toNat < 2 ^ 32) : inGroup group e = false := by
  have hPos : 1 ≤ group.toNat := UInt16.le_iff_toNat_le.mp h.1
  rw [inGroup_eq_testBit h]
  apply Nat.testBit_lt_two_pow
  exact Nat.lt_of_lt_of_le hSmall (Nat.pow_le_pow_right (by decide) (by omega))

variable {s : EventMap}

theorem mem_cancelEventGroup (h : Grouped group) (e : Entry) :
    e ∈ (s.cancelEventGroup group).eventMap ↔ e ∈ s.eventMap ∧ inGroup group e = false := by
  have hZero : group ≠ 0 := by
    rintro rfl
    exact absurd h (by decide)
  rw [cancelEventGroup]
  split
  · rename_i hNone
    rcases hNone with hNone | hNone | hNone
    · exact absurd hNone hZero
    · exact absurd hNone (UInt16.not_lt.mpr h.2)
    · simp [hNone]
  · simp

/-! ## States without group bits -/

theorem groupLaw_of_plain (h : Words Plain s) : GroupLaw s := by
  have hNone : ∀ group, Grouped group → ∀ e ∈ s.eventMap, inGroup group e = false :=
    fun group hGroup e he => inGroup_of_small hGroup (h.all e he).1
  have hOther : ∀ group, Grouped group → ∀ e ∈ s.eventMap, e.group ≠ group := by
    rintro group hGroup e he rfl
    exact (h.all e he).2 hGroup
  constructor
  · intro group hGroup
    have hKept : (s.eventMap.filter fun e => !inGroup group e) = s.eventMap :=
      List.filter_eq_self.mpr fun e he => by rw [hNone group hGroup e he]; rfl
    have hSame : (s.eventMap.filter fun e => e.group ≠ group) = s.eventMap :=
      List.filter_eq_self.mpr fun e he => by simpa using hOther group hGroup e he
    rw [cancelEventGroup, hSame]
    split
    · rfl
    · exact hKept
  · intro group delay hGroup
    have hHit : s.eventMap.filter (inGroup group) = [] :=
      List.filter_eq_nil_iff.mpr fun e he => by rw [hNone group hGroup e he]; decide
    have hKept : (s.eventMap.filter fun e => !inGroup group e) = s.eventMap :=
      List.filter_eq_self.mpr fun e he => by rw [hNone group hGroup e he]; rfl
    have hSame : s.eventMap.map (postponed group delay) = s.eventMap :=
      (List.map_congr_left fun e he => if_neg (hOther group hGroup e he)).trans (List.map_id _)
    rw [delayEventsGroup, hSame]
    split
    · exact List.Perm.refl _
    · simp only [hHit, hKept]
      exact List.Perm.refl _

theorem ungrouped_plain (s : EventMap) (operation : Operation) (h : Words Plain s)
    (hStep : Ungrouped s operation) : Words Plain (step s operation) := by
  apply h.step
  cases operation with
  | scheduleEvent eventId time group phase => exact plain_of_eventId eventId hStep phase
  | rescheduleEvent eventId time group phase => exact plain_of_eventId eventId hStep phase
  | scheduleNextEvent time =>
    have hLast := h.last.1
    have hCarry : s.lastEvent.toNat ≠ 0xFFFFFFFF := fun hEq => hStep (UInt64.toNat_inj.mp hEq)
    refine ⟨?_, h.last.2⟩
    rw [UInt64.toNat_add, UInt64.toNat_one]
    omega
  | _ => trivial

theorem not_groupLaw_of_scheduled {e : Entry} (he : e ∈ s.eventMap)
    (hSmall : e.data.toNat < 2 ^ 32) (hGroup : Grouped e.group) : ¬ GroupLaw s := by
  intro h
  have hStays := (mem_cancelEventGroup hGroup e).mpr ⟨he, inGroup_of_small hGroup hSmall⟩
  rw [h.cancels e.group hGroup] at hStays
  simpa using List.of_mem_filter hStays

theorem ungrouped_of_groupLaw (s : EventMap) (operation : Operation) (h : Words Plain s)
    (hLaw : GroupLaw (step s operation)) : Ungrouped s operation := by
  cases operation with
  | scheduleEvent eventId time group phase =>
    intro hGroup
    rw [step, scheduleEvent_eq] at hLaw
    exact not_groupLaw_of_scheduled (mem_insertUpper.mpr (Or.inl rfl))
      (by simpa using eventId.toNat_lt) hGroup hLaw
  | rescheduleEvent eventId time group phase =>
    intro hGroup
    rw [step, rescheduleEvent, scheduleEvent_eq] at hLaw
    exact not_groupLaw_of_scheduled (mem_insertUpper.mpr (Or.inl rfl))
      (by simpa using eventId.toNat_lt) hGroup hLaw
  | scheduleNextEvent time =>
    intro hCarry
    have hFirst : Grouped 1 := by decide
    let e : Entry := ⟨s.time + time, s.lastEvent + 1, s.lastGroup, s.lastPhase, s.nextStamp⟩
    have he : e ∈ (s.scheduleNextEvent time).eventMap := mem_insertUpper.mpr (Or.inl rfl)
    have hBit : inGroup 1 e = true := by
      rw [inGroup_eq_testBit hFirst]
      simp only [e, hCarry]
      decide
    have hOther : e.group ≠ 1 := by
      intro hEq
      apply h.last.2
      rw [show s.lastGroup = 1 from hEq]
      exact hFirst
    have hStays : e ∈ ((s.scheduleNextEvent time).cancelEventGroup 1).eventMap := by
      rw [show s.scheduleNextEvent time = step s (.scheduleNextEvent time) from rfl,
        hLaw.cancels 1 hFirst]
      exact List.mem_filter.mpr ⟨he, by simpa using hOther⟩
    rw [((mem_cancelEventGroup hFirst e).mp hStays).2] at hBit
    cases hBit
  | _ => trivial

/-- The laws of the groups hold throughout a run exactly if nothing is ever scheduled
with a group and no next event follows the greatest event id. -/
theorem groupLaw_iff_ungrouped (operations : List Operation) :
    (∀ first, first <+: operations → GroupLaw (run step fresh first)) ↔
      Along step Ungrouped fresh operations := by
  apply reached_iff_along ungrouped_plain (fun _ => groupLaw_of_plain) ungrouped_of_groupLaw
  exact ⟨⟨by decide, by decide⟩, fun _ he => (List.not_mem_nil he).elim⟩

/-- An event scheduled with group 1 outlives the cancellation of group 1. -/
theorem groupLaw_fails : ¬ ∀ operations : List Operation, GroupLaw (run step fresh operations) := by
  intro h
  have hCancel := (h [.scheduleEvent 7 0 1 0]).cancels 1 (by decide)
  revert hCancel
  decide

end AshamaneCore.EventMapGroups

/-!
## Events by id

CancelEvent and the lookups compare the lowest sixteen bits of an entry with an
event id of 32 bits: a longer id is never found, and an entry is taken for the
event that it has these bits of.
-/

namespace AshamaneCore.EventMap

open Library.Bits Library.OrderedQueue

def Entry.eventId (e : Entry) : UInt32 := (e.data &&& 0x00000000FFFFFFFF).toUInt32

def lookup (s : EventMap) (eventId : UInt32) : Option Entry :=
  s.eventMap.find? fun e => eventId.toUInt64 = e.data &&& 0x0000FFFF

def getNextEventTime (s : EventMap) (eventId : UInt32) : UInt32 :=
  match s.lookup eventId with
  | some e => e.time
  | none => 0

def getTimeUntilEvent (s : EventMap) (eventId : UInt32) : UInt32 :=
  match s.lookup eventId with
  | some e => e.time - s.time
  | none => 0xFFFFFFFF

def occurrences (s : EventMap) (eventId : UInt32) : List Entry := s.eventMap.filter fun e => e.eventId = eventId

/-- Cancelling, rescheduling and asking for an event are about the entries with its id. -/
structure IdLaw (s : EventMap) (eventId time : UInt32) (group phase : UInt16) : Prop where
  cancels : (s.cancelEvent eventId).eventMap = s.eventMap.filter fun e => e.eventId ≠ eventId
  reschedules : ((s.rescheduleEvent eventId time group phase).occurrences eventId).length = 1
  reports : s.getTimeUntilEvent eventId = 0xFFFFFFFF ↔ s.occurrences eventId = []

/-- The id is told by its lowest sixteen bits among the entries, and its first entry is not
overdue by one millisecond. -/
structure Distinguished (s : EventMap) (eventId : UInt32) : Prop where
  low : ∀ e ∈ s.eventMap, e.eventId.toNat % 2 ^ 16 = eventId.toNat ↔ e.eventId = eventId
  due : ∀ e, (s.occurrences eventId).head? = some e → e.time + 1 ≠ s.time

/-! ## Ids in their words -/

theorem eventId_toNat (e : Entry) : e.eventId.toNat = e.data.toNat % 2 ^ 32 := by
  have hMask : (0x00000000FFFFFFFF : UInt64).toNat = 2 ^ 32 - 1 := rfl
  rw [Entry.eventId, UInt64.toNat_toUInt32, UInt64.toNat_and, hMask, Nat.and_two_pow_sub_one_eq_mod, Nat.mod_mod]

theorem taken_iff (eventId : UInt32) (e : Entry) :
    eventId.toUInt64 = e.data &&& 0x0000FFFF ↔ e.eventId.toNat % 2 ^ 16 = eventId.toNat := by
  have hMask : (0x0000FFFF : UInt64).toNat = 2 ^ 16 - 1 := rfl
  rw [← UInt64.toNat_inj, UInt64.toNat_and, hMask, Nat.and_two_pow_sub_one_eq_mod, UInt32.toNat_toUInt64,
    eventId_toNat]
  omega

theorem eventId_scheduled (eventId time : UInt32) (group phase : UInt16) (stamp : Nat) :
    (⟨time, eventId.toUInt64, group, phase, stamp⟩ : Entry).eventId = eventId := by
  apply UInt32.toNat_inj.mp
  rw [eventId_toNat, UInt32.toNat_toUInt64, Nat.mod_eq_of_lt eventId.toNat_lt]

/-! ## The three functions -/

section

variable {s : EventMap} {eventId : UInt32}

theorem cancels_iff : (s.cancelEvent eventId).eventMap = s.eventMap.filter (fun e => e.eventId ≠ eventId) ↔
    ∀ e ∈ s.eventMap, e.eventId.toNat % 2 ^ 16 = eventId.toNat ↔ e.eventId = eventId := by
  constructor
  · intro h e hMem
    have hKept : e ∈ (s.cancelEvent eventId).eventMap ↔ e ∈ s.eventMap.filter fun e => e.eventId ≠ eventId := by
      rw [h]
    rw [cancelEvent, List.mem_filter, List.mem_filter, decide_eq_true_iff, decide_eq_true_iff] at hKept
    rw [← taken_iff, ← not_iff_not]
    exact ⟨fun hOther => (hKept.mp ⟨hMem, hOther⟩).2, fun hOther => (hKept.mpr ⟨hMem, hOther⟩).2⟩
  · intro h
    refine List.filter_congr fun e hMem => ?_
    rw [decide_eq_decide, ne_eq, ne_eq, not_iff_not, taken_iff]
    exact h e hMem

theorem occurrences_reschedule (h : ∀ e ∈ s.eventMap, e.eventId.toNat % 2 ^ 16 = eventId.toNat ↔ e.eventId = eventId)
    (time : UInt32) (group phase : UInt16) :
    ((s.rescheduleEvent eventId time group phase).occurrences eventId).length = 1 := by
  have hCancelled : (s.cancelEvent eventId).occurrences eventId = [] := by
    rw [occurrences, cancels_iff.mpr h, List.filter_filter, List.filter_eq_nil_iff]
    intro e _
    simp
  have hPerm : (insertUpper Entry.key ⟨(s.cancelEvent eventId).time + time, eventId.toUInt64, group, phase,
      (s.cancelEvent eventId).nextStamp⟩ (s.cancelEvent eventId).eventMap).Perm _ := insertUpper_perm _ _
  rw [rescheduleEvent, scheduleEvent_eq, occurrences, insert, (hPerm.filter _).length_eq,
    List.filter_cons_of_pos (by rw [eventId_scheduled, decide_eq_true_iff]), List.length_cons, Nat.succ_inj,
    List.length_eq_zero_iff]
  exact hCancelled

theorem lookup_eq_head (h : ∀ e ∈ s.eventMap, e.eventId.toNat % 2 ^ 16 = eventId.toNat ↔ e.eventId = eventId) :
    s.lookup eventId = (s.occurrences eventId).head? := by
  have hSame : s.eventMap.filter (fun e => eventId.toUInt64 = e.data &&& 0x0000FFFF) = s.occurrences eventId := by
    refine List.filter_congr fun e hMem => ?_
    rw [decide_eq_decide, taken_iff]
    exact h e hMem
  rw [lookup, ← hSame, List.head?_filter]

theorem sub_eq_last_iff (a b : UInt32) : a - b = 0xFFFFFFFF ↔ a + 1 = b := by
  rw [UInt32.sub_eq_iff_eq_add, UInt32.add_comm, ← UInt32.sub_eq_iff_eq_add]
  have hLast : a - 0xFFFFFFFF = a + 1 := by
    rw [UInt32.sub_eq_add_neg]
    rfl
  rw [hLast]

theorem reports_iff (h : ∀ e ∈ s.eventMap, e.eventId.toNat % 2 ^ 16 = eventId.toNat ↔ e.eventId = eventId) :
    (s.getTimeUntilEvent eventId = 0xFFFFFFFF ↔ s.occurrences eventId = []) ↔
      ∀ e, (s.occurrences eventId).head? = some e → e.time + 1 ≠ s.time := by
  rw [getTimeUntilEvent, lookup_eq_head h]
  cases s.occurrences eventId with
  | nil => simp
  | cons e rest => simp [sub_eq_last_iff]

end

/-- Events are managed by their ids exactly while sixteen bits tell the id. -/
theorem idLaw_iff (s : EventMap) (eventId time : UInt32) (group phase : UInt16) :
    IdLaw s eventId time group phase ↔ Distinguished s eventId := by
  constructor
  · intro h
    have hLow := cancels_iff.mp h.cancels
    exact ⟨hLow, (reports_iff hLow).mp h.reports⟩
  · intro h
    exact ⟨cancels_iff.mpr h.low, occurrences_reschedule h.low time group phase, (reports_iff h.low).mpr h.due⟩

/-- An event whose id needs seventeen bits is not cancelled. -/
theorem long_id_not_cancelled : ¬ IdLaw (fresh.scheduleEvent 0x10001 100 0 0) 0x10001 200 0 0 := by
  intro h
  exact absurd h.reschedules (by decide)

/-!
## The two families of overloads

Scripts give times as milliseconds of the clock or as plain counters. An
overload for milliseconds narrows their count and calls an integer overload,
and the overloads with a least and a greatest time draw the time between them.
What the generator draws is given.
-/

open Library.OrderedQueue Library.Transition

structure Milliseconds where
  count : Int64
  deriving DecidableEq

def Milliseconds.narrow (t : Milliseconds) : UInt32 := t.count.toUInt64.toUInt32

section

variable (draw : UInt32 → UInt32 → UInt32)

/-- The assertion of the range fails when it is empty. -/
def urand (least greatest : UInt32) : Option UInt32 :=
  if least ≤ greatest then some (draw least greatest) else none

/-! ## Integers -/

def scheduleNextEventBetween (s : EventMap) (minTime maxTime : UInt32) : Option EventMap :=
  (urand draw minTime maxTime).map s.scheduleNextEvent

def repeatEventBetween (s : EventMap) (minTime maxTime : UInt32) : Option EventMap :=
  (urand draw minTime maxTime).map s.repeatEvent

/-! ## Milliseconds -/

def scheduleEventMs (s : EventMap) (eventId : UInt32) (time : Milliseconds) (group phase : UInt16) : EventMap :=
  s.scheduleEvent eventId time.narrow group phase

def scheduleEventBetweenMs (s : EventMap) (eventId : UInt32) (minTime maxTime : Milliseconds) (group phase : UInt16) :
    Option EventMap :=
  (urand draw minTime.narrow maxTime.narrow).map fun time => s.scheduleEvent eventId time group phase

def rescheduleEventMs (s : EventMap) (eventId : UInt32) (time : Milliseconds) (group phase : UInt16) : EventMap :=
  s.rescheduleEvent eventId time.narrow group phase

def rescheduleEventBetweenMs (s : EventMap) (eventId : UInt32) (minTime maxTime : Milliseconds)
    (group phase : UInt16) : Option EventMap :=
  (urand draw minTime.narrow maxTime.narrow).map fun time => s.rescheduleEvent eventId time group phase

/-- The delegate is Repeat, here and in the overload with two times. -/
def scheduleNextEventMs (s : EventMap) (time : Milliseconds) : EventMap := s.repeatEvent time.narrow

def scheduleNextEventBetweenMs (s : EventMap) (minTime maxTime : Milliseconds) : Option EventMap :=
  repeatEventBetween draw s minTime.narrow maxTime.narrow

def repeatEventMs (s : EventMap) (time : Milliseconds) : EventMap := s.repeatEvent time.narrow

def repeatEventBetweenMs (s : EventMap) (minTime maxTime : Milliseconds) : Option EventMap :=
  repeatEventBetween draw s minTime.narrow maxTime.narrow

def delayEventsMs (s : EventMap) (delay : Milliseconds) : EventMap := s.delayEvents delay.narrow

def delayEventsGroupMs (s : EventMap) (delay : Milliseconds) (group : UInt16) : EventMap :=
  s.delayEventsGroup delay.narrow group

/-! ## Calls -/

inductive Overload
  | scheduleEvent (eventId : UInt32) (time : Milliseconds) (group phase : UInt16)
  | scheduleEventBetween (eventId : UInt32) (minTime maxTime : Milliseconds) (group phase : UInt16)
  | rescheduleEvent (eventId : UInt32) (time : Milliseconds) (group phase : UInt16)
  | rescheduleEventBetween (eventId : UInt32) (minTime maxTime : Milliseconds) (group phase : UInt16)
  | scheduleNextEvent (time : Milliseconds)
  | scheduleNextEventBetween (minTime maxTime : Milliseconds)
  | repeatEvent (time : Milliseconds)
  | repeatEventBetween (minTime maxTime : Milliseconds)
  | delayEvents (delay : Milliseconds)
  | delayEventsGroup (delay : Milliseconds) (group : UInt16)
  deriving DecidableEq

def callMs (s : EventMap) : Overload → Option EventMap
  | .scheduleEvent eventId time group phase => some (s.scheduleEventMs eventId time group phase)
  | .scheduleEventBetween eventId minTime maxTime group phase =>
    scheduleEventBetweenMs draw s eventId minTime maxTime group phase
  | .rescheduleEvent eventId time group phase => some (s.rescheduleEventMs eventId time group phase)
  | .rescheduleEventBetween eventId minTime maxTime group phase =>
    rescheduleEventBetweenMs draw s eventId minTime maxTime group phase
  | .scheduleNextEvent time => some (s.scheduleNextEventMs time)
  | .scheduleNextEventBetween minTime maxTime => scheduleNextEventBetweenMs draw s minTime maxTime
  | .repeatEvent time => some (s.repeatEventMs time)
  | .repeatEventBetween minTime maxTime => repeatEventBetweenMs draw s minTime maxTime
  | .delayEvents delay => some (s.delayEventsMs delay)
  | .delayEventsGroup delay group => some (s.delayEventsGroupMs delay group)

/-- The same call with the integers of the same times. Where there is no integer overload for
two times, the time is drawn before the call. -/
def callInteger (s : EventMap) : Overload → Option EventMap
  | .scheduleEvent eventId time group phase => some (s.scheduleEvent eventId time.narrow group phase)
  | .scheduleEventBetween eventId minTime maxTime group phase =>
    (urand draw minTime.narrow maxTime.narrow).map fun time => s.scheduleEvent eventId time group phase
  | .rescheduleEvent eventId time group phase => some (s.rescheduleEvent eventId time.narrow group phase)
  | .rescheduleEventBetween eventId minTime maxTime group phase =>
    (urand draw minTime.narrow maxTime.narrow).map fun time => s.rescheduleEvent eventId time group phase
  | .scheduleNextEvent time => some (s.scheduleNextEvent time.narrow)
  | .scheduleNextEventBetween minTime maxTime => scheduleNextEventBetween draw s minTime.narrow maxTime.narrow
  | .repeatEvent time => some (s.repeatEvent time.narrow)
  | .repeatEventBetween minTime maxTime => repeatEventBetween draw s minTime.narrow maxTime.narrow
  | .delayEvents delay => some (s.delayEvents delay.narrow)
  | .delayEventsGroup delay group => some (s.delayEventsGroup delay.narrow group)

def Overload.isNext : Overload → Bool
  | .scheduleNextEvent _ => true
  | .scheduleNextEventBetween _ _ => true
  | _ => false

/-- Both families do the same, and the next event is the successor of the last executed one. -/
structure OverloadLaw (s : EventMap) (o : Overload) : Prop where
  same : callMs draw s o = callInteger draw s o
  next : o.isNext = true → ∀ s', callMs draw s o = some s' →
    ∃ time, s' = s.insert time (s.lastEvent + 1) s.lastGroup s.lastPhase

end

/-- The call does not schedule a next event, unless the range of its times is empty. -/
def Overload.Faithful : Overload → Prop
  | .scheduleNextEvent _ => False
  | .scheduleNextEventBetween minTime maxTime => maxTime.narrow < minTime.narrow
  | _ => True

/-! ## The last event and its successor -/

theorem insert_inj {s : EventMap} {time time' : UInt32} {data data' : UInt64} {group phase : UInt16}
    (h : s.insert time data group phase = s.insert time' data' group phase) : data = data' := by
  have hMaps : insertUpper Entry.key ⟨time, data, group, phase, s.nextStamp⟩ s.eventMap =
      insertUpper Entry.key ⟨time', data', group, phase, s.nextStamp⟩ s.eventMap := congrArg eventMap h
  have hPerm : (⟨time, data, group, phase, s.nextStamp⟩ :: s.eventMap).Perm
      (⟨time', data', group, phase, s.nextStamp⟩ :: s.eventMap) := by
    apply (@insertUpper_perm _ _ _ Entry.key _ _).symm.trans
    rw [hMaps]
    apply insertUpper_perm
  have hCount := hPerm.count_eq ⟨time, data, group, phase, s.nextStamp⟩
  rw [List.count_cons_self, List.count_cons] at hCount
  have hSame : (⟨time', data', group, phase, s.nextStamp⟩ : Entry) = ⟨time, data, group, phase, s.nextStamp⟩ := by
    by_contra hNe
    rw [if_neg (by simpa using hNe)] at hCount
    omega
  exact (congrArg Entry.data hSame).symm

theorem repeatEvent_ne_scheduleNextEvent (s : EventMap) (time time' : UInt32) :
    s.repeatEvent time ≠ s.scheduleNextEvent time' := by
  intro h
  have hWords : s.lastEvent = s.lastEvent + 1 := insert_inj h
  simp at hWords

/-- The families agree exactly on the calls that do not schedule a next event. -/
theorem overloadLaw_iff (draw : UInt32 → UInt32 → UInt32) (s : EventMap) (o : Overload) :
    OverloadLaw draw s o ↔ o.Faithful := by
  constructor
  · intro h
    cases o with
    | scheduleNextEvent time => exact repeatEvent_ne_scheduleNextEvent s _ _ (Option.some.inj h.same)
    | scheduleNextEventBetween minTime maxTime =>
      apply UInt32.not_le.mp
      intro hRange
      have hBoth := h.same
      simp only [callMs, callInteger, scheduleNextEventBetweenMs, repeatEventBetween, scheduleNextEventBetween, urand,
        if_pos hRange, Option.map_some, Option.some.injEq] at hBoth
      exact repeatEvent_ne_scheduleNextEvent s _ _ hBoth
    | _ => trivial
  · intro h
    cases o with
    | scheduleNextEvent time => exact h.elim
    | scheduleNextEventBetween minTime maxTime =>
      have hEmpty : ¬ minTime.narrow ≤ maxTime.narrow := UInt32.not_le.mpr h
      constructor
      · simp [callMs, callInteger, scheduleNextEventBetweenMs, repeatEventBetween, scheduleNextEventBetween, urand, hEmpty]
      · simp [callMs, scheduleNextEventBetweenMs, repeatEventBetween, urand, hEmpty]
    | _ =>
      constructor
      · rfl
      · intro hNext
        cases hNext

/-- After event 5 was executed, its successor is asked for, and it is scheduled again itself. -/
theorem scheduleNextEventMs_repeats :
    ¬ OverloadLaw (fun least _ => least) (run step fresh [.scheduleEvent 5 0 0 0, .executeEvent])
      (.scheduleNextEvent ⟨1000⟩) := by
  intro h
  exact absurd (congrArg (Option.map fun s => s.eventMap.map Entry.data) h.same) (by decide)

end AshamaneCore.EventMap
