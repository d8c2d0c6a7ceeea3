import AshamaneCore.Library.Bits
import AshamaneCore.Library.OrderedQueue
import AshamaneCore.Library.Transition

/-!
# The event map of the scripts

Timers are 32-bit counters that wrap around. Besides its time and its packed
word, an entry records the group and the phase that its ScheduleEvent asked
for, which a repeated or next event takes over from the last executed one, and
the number of its insertion. No operation reads these three.
-/

namespace AshamaneCore

open Library.Bits Library.OrderedQueue

namespace EventMap

structure Entry where
  time : UInt32
  data : UInt64
  group : UInt16
  phase : UInt16
  stamp : Nat
  deriving DecidableEq

end EventMap

structure EventMap where
  time : UInt32
  phase : UInt16
  lastEvent : UInt64
  eventMap : List EventMap.Entry
  lastGroup : UInt16
  lastPhase : UInt16
  nextStamp : Nat
  deriving DecidableEq

namespace EventMap

def Entry.key (e : Entry) : Nat := e.time.toNat

def fresh : EventMap := ⟨0, 0, 0, [], 0, 0, 0⟩

def reset (s : EventMap) : EventMap := { s with eventMap := [], time := 0, phase := 0 }

def update (s : EventMap) (time : UInt32) : EventMap := { s with time := s.time + time }

def setPhase (s : EventMap) (phase : UInt16) : EventMap :=
  if phase = 0 then { s with phase := 0 }
  else if phase ≤ 16 then { s with phase := 1 <<< (phase - 1) }
  else s

def addPhase (s : EventMap) (phase : UInt16) : EventMap :=
  if phase ≠ 0 ∧ phase ≤ 16 then { s with phase := s.phase ||| 1 <<< (phase - 1) } else s

def removePhase (s : EventMap) (phase : UInt16) : EventMap :=
  if phase ≠ 0 ∧ phase ≤ 16 then { s with phase := s.phase &&& ~~~(1 <<< (phase - 1)) } else s

def insert (s : EventMap) (time : UInt32) (data : UInt64) (group phase : UInt16) : EventMap :=
  { s with
    eventMap := insertUpper Entry.key ⟨time, data, group, phase, s.nextStamp⟩ s.eventMap
    nextStamp := s.nextStamp + 1 }

/-- The event id stays a 32-bit variable while the group and phase bits are set in it. -/
def scheduleEvent (s : EventMap) (eventId time : UInt32) (group phase : UInt16) : EventMap :=
  let eventId := if group ≠ 0 ∧ group < 16 then
    (eventId.toUInt64 ||| 1 <<< (group.toUInt64 + 31)).toUInt32 else eventId
  let eventId := if phase ≠ 0 ∧ phase < 16 then
    (eventId.toUInt64 ||| 1 <<< (phase.toUInt64 + 47)).toUInt32 else eventId
  s.insert (s.time + time) eventId.toUInt64 group phase

def cancelEvent (s : EventMap) (eventId : UInt32) : EventMap :=
  { s with eventMap := s.eventMap.filter fun e => eventId.toUInt64 ≠ e.data &&& 0x0000FFFF }

def rescheduleEvent (s : EventMap) (eventId time : UInt32) (group phase : UInt16) : EventMap :=
  (s.cancelEvent eventId).scheduleEvent eventId time group phase

def scheduleNextEvent (s : EventMap) (time : UInt32) : EventMap :=
  s.insert (s.time + time) (s.lastEvent + 1) s.lastGroup s.lastPhase

def repeatEvent (s : EventMap) (time : UInt32) : EventMap :=
  s.insert (s.time + time) s.lastEvent s.lastGroup s.lastPhase

/-- The entry that is executed, if any, and what stays in the map. -/
def executeFrom (time : UInt32) (phase : UInt16) : List Entry → Option Entry × List Entry
  | [] => (none, [])
  | e :: rest =>
    if time < e.time then (none, e :: rest)
    else if phase ≠ 0 ∧ e.data &&& 0xFFFF000000000000 ≠ 0 ∧
        (e.data >>> 48) &&& phase.toUInt64 = 0 then executeFrom time phase rest
    else (some e, rest)

def executed (s : EventMap) : Option Entry := (executeFrom s.time s.phase s.eventMap).1

def executeEvent (s : EventMap) : UInt32 × EventMap :=
  match executeFrom s.time s.phase s.eventMap with
  | (none, rest) => (0, { s with eventMap := rest })
  | (some e, rest) => ((e.data &&& 0x00000000FFFFFFFF).toUInt32,
    { s with eventMap := rest, lastEvent := e.data, lastGroup := e.group, lastPhase := e.phase })

def delayEvents (s : EventMap) (delay : UInt32) : EventMap :=
  { s with time := if delay < s.time then s.time - delay else 0 }

def inGroup (group : UInt16) (e : Entry) : Bool := e.data &&& (1 <<< (group.toUInt64 + 31)) ≠ 0

/-- The delayed entries are inserted anew, in the order of their new times. -/
def delayEventsGroup (s : EventMap) (delay : UInt32) (group : UInt16) : EventMap :=
  if group = 0 ∨ 16 < group ∨ s.eventMap = [] then s
  else
    let hit := s.eventMap.filter (inGroup group)
    let delayed := insertAll Entry.key []
      (hit.mapIdx fun i e => { e with time := e.time + delay, stamp := s.nextStamp + i })
    { s with
      eventMap := insertAll Entry.key (s.eventMap.filter fun e => !inGroup group e) delayed
      nextStamp := s.nextStamp + hit.length }

def cancelEventGroup (s : EventMap) (group : UInt16) : EventMap :=
  if group = 0 ∨ 16 < group ∨ s.eventMap = [] then s
  else { s with eventMap := s.eventMap.filter fun e => !inGroup group e }

/-- The overloads with a least and a greatest time draw the time that is given here. -/
inductive Operation
  | reset
  | update (time : UInt32)
  | setPhase (phase : UInt16)
  | addPhase (phase : UInt16)
  | removePhase (phase : UInt16)
  | scheduleEvent (eventId time : UInt32) (group phase : UInt16)
  | rescheduleEvent (eventId time : UInt32) (group phase : UInt16)
  | scheduleNextEvent (time : UInt32)
  | repeatEvent (time : UInt32)
  | executeEvent
  | delayEvents (delay : UInt32)
  | delayEventsGroup (delay : UInt32) (group : UInt16)
  | cancelEvent (eventId : UInt32)
  | cancelEventGroup (group : UInt16)
  deriving DecidableEq

def step (s : EventMap) : Operation → EventMap
  | .reset => s.reset
  | .update time => s.update time
  | .setPhase phase => s.setPhase phase
  | .addPhase phase => s.addPhase phase
  | .removePhase phase => s.removePhase phase
  | .scheduleEvent eventId time group phase => s.scheduleEvent eventId time group phase
  | .rescheduleEvent eventId time group phase => s.rescheduleEvent eventId time group phase
  | .scheduleNextEvent time => s.scheduleNextEvent time
  | .repeatEvent time => s.repeatEvent time
  | .executeEvent => s.executeEvent.2
  | .delayEvents delay => s.delayEvents delay
  | .delayEventsGroup delay group => s.delayEventsGroup delay group
  | .cancelEvent eventId => s.cancelEvent eventId
  | .cancelEventGroup group => s.cancelEventGroup group

/-! ## What the packed words say -/

theorem narrowed_shift (eventId : UInt32) {k : UInt64} (hLow : 32 ≤ k.toNat) (hHigh : k.toNat < 64) :
    (eventId.toUInt64 ||| 1 <<< k).toUInt32 = eventId := by
  apply UInt32.toNat_inj.mp
  have hZero : 2 ^ k.toNat % 2 ^ 32 = 0 := Nat.mod_eq_zero_of_dvd (Nat.pow_dvd_pow 2 hLow)
  rw [UInt64.toNat_toUInt32, UInt64.toNat_or, one_shiftLeft_toNat64 hHigh, Nat.or_mod_two_pow, hZero, Nat.or_zero,
    UInt32.toNat_toUInt64, Nat.mod_eq_of_lt eventId.toNat_lt]

theorem shift_toNat (selector : UInt16) {offset : UInt64} (h : offset.toNat < 64) :
    (selector.toUInt64 + offset).toNat = selector.toNat + offset.toNat := by
  have hSelector := selector.toNat_lt
  rw [UInt64.toNat_add, UInt16.toNat_toUInt64]
  exact Nat.mod_eq_of_lt (by omega)

theorem scheduleEvent_eq (s : EventMap) (eventId time : UInt32) (group phase : UInt16) :
    s.scheduleEvent eventId time group phase =
      s.insert (s.time + time) eventId.toUInt64 group phase := by
  have hGroup : (if group ≠ 0 ∧ group < 16 then
      (eventId.toUInt64 ||| 1 <<< (group.toUInt64 + 31)).toUInt32 else eventId) = eventId := by
    split
    · rename_i h
      have hPos : group.toNat ≠ 0 := fun hZero => h.1 (UInt16.toNat_inj.mp hZero)
      have hLess : group.toNat < 16 := UInt16.lt_iff_toNat_lt.mp h.2
      have hShift : (group.toUInt64 + 31).toNat = group.toNat + 31 := shift_toNat group (by decide)
      exact narrowed_shift eventId (by omega) (by omega)
    · rfl
  have hPhase : (if phase ≠ 0 ∧ phase < 16 then
      (eventId.toUInt64 ||| 1 <<< (phase.toUInt64 + 47)).toUInt32 else eventId) = eventId := by
    split
    · rename_i h
      have hLess : phase.toNat < 16 := UInt16.lt_iff_toNat_lt.mp h.2
      have hShift : (phase.toUInt64 + 47).toNat = phase.toNat + 47 := shift_toNat phase (by decide)
      exact narrowed_shift eventId (by omega) (by omega)
    · rfl
  simp only [scheduleEvent, hGroup, hPhase]

theorem executeFrom_split (time : UInt32) (phase : UInt16) (entries : List Entry) :
    ∃ skipped, entries = skipped ++ (executeFrom time phase entries).1.toList ++
        (executeFrom time phase entries).2 ∧
      ∀ e ∈ skipped, e.data &&& 0xFFFF000000000000 ≠ 0 := by
  induction entries with
  | nil => exact ⟨[], rfl, fun _ h => (List.not_mem_nil h).elim⟩
  | cons e rest ih =>
    rw [executeFrom]
    split
    · exact ⟨[], rfl, fun _ h => (List.not_mem_nil h).elim⟩
    · split
      · rename_i hSkip
        obtain ⟨skipped, hSplit, hPhased⟩ := ih
        refine ⟨e :: skipped, ?_, ?_⟩
        · rw [List.cons_append, List.cons_append, ← hSplit]
        · intro x hx
          rcases List.mem_cons.mp hx with rfl | hx
          · exact hSkip.2.1
          · exact hPhased x hx
      · exact ⟨[], rfl, fun _ h => (List.not_mem_nil h).elim⟩

theorem executeEvent_eventMap (s : EventMap) :
    s.executeEvent.2.eventMap = (executeFrom s.time s.phase s.eventMap).2 := by
  rw [executeEvent]
  split <;> rename_i h <;> rw [h]

@[simp] theorem executeEvent_time (s : EventMap) : s.executeEvent.2.time = s.time := by
  rw [executeEvent]
  split <;> rfl

@[simp] theorem executeEvent_nextStamp (s : EventMap) :
    s.executeEvent.2.nextStamp = s.nextStamp := by
  rw [executeEvent]
  split <;> rfl

theorem executeEvent_sublist (s : EventMap) :
    s.executeEvent.2.eventMap.Sublist s.eventMap := by
  obtain ⟨skipped, hSplit, -⟩ := executeFrom_split s.time s.phase s.eventMap
  rw [executeEvent_eventMap]
  have hSuffix : (executeFrom s.time s.phase s.eventMap).2 <:+ s.eventMap := ⟨_, hSplit.symm⟩
  exact hSuffix.sublist

/-- Whatever holds of all words and of the last executed one is kept by a step that
schedules only such words. -/
structure Words (Q : UInt64 → UInt16 → UInt16 → Prop) (s : EventMap) : Prop where
  last : Q s.lastEvent s.lastGroup s.lastPhase
  all : ∀ e ∈ s.eventMap, Q e.data e.group e.phase

section Words

variable {Q : UInt64 → UInt16 → UInt16 → Prop} {s : EventMap}

theorem Words.insert (h : Words Q s) (time : UInt32) {data : UInt64} {group phase : UInt16}
    (hNew : Q data group phase) : Words Q (s.insert time data group phase) := by
  refine ⟨h.last, ?_⟩
  intro e he
  rcases mem_insertUpper.mp he with rfl | he
  · exact hNew
  · exact h.all e he

theorem Words.cancelEvent (h : Words Q s) (eventId : UInt32) : Words Q (s.cancelEvent eventId) :=
  ⟨h.last, fun e he => h.all e (List.mem_of_mem_filter he)⟩

theorem Words.executeEvent (h : Words Q s) : Words Q s.executeEvent.2 := by
  have hAll : ∀ e ∈ s.executeEvent.2.eventMap, Q e.data e.group e.phase :=
    fun e he => h.all e (s.executeEvent_sublist.subset he)
  obtain ⟨skipped, hSplit, -⟩ := executeFrom_split s.time s.phase s.eventMap
  refine ⟨?_, hAll⟩
  rw [EventMap.executeEvent]
  split
  · exact h.last
  · rename_i e rest hResult
    apply h.all e
    rw [hSplit, hResult]
    simp

theorem mem_delayEventsGroup {delay : UInt32} {group : UInt16} {e : Entry}
    (h : e ∈ (s.delayEventsGroup delay group).eventMap) :
    e ∈ s.eventMap ∨ ∃ old ∈ s.eventMap, ∃ stamp,
      e = { old with time := old.time + delay, stamp := stamp } := by
  rw [delayEventsGroup] at h
  split at h
  · exact Or.inl h
  · rcases mem_insertAll.mp h with h | h
    · exact Or.inl (List.mem_of_mem_filter h)
    · rcases mem_insertAll.mp h with h | h
      · exact (List.not_mem_nil h).elim
      · obtain ⟨i, hi, rfl⟩ := List.mem_mapIdx.mp h
        exact Or.inr ⟨_, List.mem_of_mem_filter (List.getElem_mem hi), _, rfl⟩

theorem Words.delayEventsGroup (h : Words Q s) (delay : UInt32) (group : UInt16) :
    Words Q (s.delayEventsGroup delay group) := by
  constructor
  · rw [EventMap.delayEventsGroup]
    split <;> exact h.last
  · intro e he
    rcases mem_delayEventsGroup he with he | ⟨old, hOld, stamp, rfl⟩
    · exact h.all e he
    · exact h.all old hOld

theorem Words.cancelEventGroup (h : Words Q s) (group : UInt16) :
    Words Q (s.cancelEventGroup group) := by
  rw [EventMap.cancelEventGroup]
  split
  · exact h
  · exact ⟨h.last, fun e he => h.all e (List.mem_of_mem_filter he)⟩

def Admits (Q : UInt64 → UInt16 → UInt16 → Prop) (s : EventMap) : Operation → Prop
  | .scheduleEvent eventId _ group phase => Q eventId.toUInt64 group phase
  | .rescheduleEvent eventId _ group phase => Q eventId.toUInt64 group phase
  | .scheduleNextEvent _ => Q (s.lastEvent + 1) s.lastGroup s.lastPhase
  | _ => True

theorem Words.step (h : Words Q s) {operation : Operation} (hNew : Admits Q s operation) :
    Words Q (step s operation) := by
  cases operation with
  | reset => exact ⟨h.last, fun _ he => (List.not_mem_nil he).elim⟩
  | update | delayEvents => exact ⟨h.last, h.all⟩
  | setPhase phase =>
    simp only [EventMap.step, EventMap.setPhase]
    split
    · exact ⟨h.last, h.all⟩
    · split <;> exact ⟨h.last, h.all⟩
  | addPhase phase =>
    simp only [EventMap.step, EventMap.addPhase]
    split <;> exact ⟨h.last, h.all⟩
  | removePhase phase =>
    simp only [EventMap.step, EventMap.removePhase]
    split <;> exact ⟨h.last, h.all⟩
  | scheduleEvent eventId time group phase =>
    rw [EventMap.step, scheduleEvent_eq]
    exact h.insert _ hNew
  | rescheduleEvent eventId time group phase =>
    rw [EventMap.step, rescheduleEvent, scheduleEvent_eq]
    exact (h.cancelEvent eventId).insert _ hNew
  | scheduleNextEvent time => exact h.insert _ hNew
  | repeatEvent time => exact h.insert _ h.last
  | executeEvent => exact h.executeEvent
  | delayEventsGroup delay group => exact h.delayEventsGroup delay group
  | cancelEvent eventId => exact h.cancelEvent eventId
  | cancelEventGroup group => exact h.cancelEventGroup group

end Words

end EventMap

end AshamaneCore
