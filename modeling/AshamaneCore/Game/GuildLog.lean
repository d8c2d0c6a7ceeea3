import AshamaneCore.Library.KeyedSet
import Mathlib.Data.List.Induction
import Mathlib.Data.List.Sort

/-!
# Guild event logs

A holder keeps the last events of one kind and gives out guids that wrap at its
capacity. Every event replaces the row of its guid in the log table. After a
restart the rows are read back latest first, and the guid to continue from is
the one of the first row.
-/

namespace AshamaneCore.Guilds

open Library

universe u

variable {α : Type u}

def guildEventLogGuidUndefined : UInt32 := 0xFFFFFFFF

/-- An entry of either log; the event is what the kind of log records of it. -/
structure LogEntry (α : Type u) where
  guid : UInt32
  timestamp : UInt32
  event : α
  deriving DecidableEq

@[ext] structure LogHolder (α : Type u) where
  maxRecords : UInt32
  nextGUID : UInt32
  log : List (LogEntry α)
  deriving DecidableEq

def LogEntry.key (entry : LogEntry α) : Nat := entry.guid.toNat

/-- The rows of one holder in its table, where the guid is the key. -/
abbrev LogTable (α : Type u) : Type u := KeyedSet (LogEntry.key (α := α))

namespace LogHolder

def create (maxRecords : UInt32) : LogHolder α := ⟨maxRecords, guildEventLogGuidUndefined, []⟩

def canInsert (holder : LogHolder α) : Bool := holder.log.length < holder.maxRecords.toNat

def loadEvent (holder : LogHolder α) (entry : LogEntry α) : LogHolder α :=
  { holder with
    nextGUID := if holder.nextGUID = guildEventLogGuidUndefined then entry.guid else holder.nextGUID
    log := entry :: holder.log }

def getNextGUID (holder : LogHolder α) : LogHolder α :=
  { holder with
    nextGUID :=
      if holder.nextGUID = guildEventLogGuidUndefined then 0
      else (holder.nextGUID + 1) % holder.maxRecords }

def addEvent (holder : LogHolder α) (entry : LogEntry α) : LogHolder α :=
  { holder with
    log :=
      (if holder.maxRecords.toNat ≤ holder.log.length then holder.log.tail else holder.log) ++
        [entry] }

end LogHolder

structure EventLog (α : Type u) where
  holder : LogHolder α
  table : LogTable α

namespace EventLog

def create (maxRecords : UInt32) : EventLog α := ⟨LogHolder.create maxRecords, KeyedSet.empty⟩

def logEvent (state : EventLog α) (happened : UInt32 × α) : EventLog α :=
  let holder := state.holder.getNextGUID
  let entry : LogEntry α := ⟨holder.nextGUID, happened.1, happened.2⟩
  ⟨holder.addEvent entry, state.table.assign entry⟩

/-- The order in which the rows are read: later seconds first, in one second the greater guid. -/
def LatestFirst (a b : LogEntry α) : Prop :=
  b.timestamp < a.timestamp ∨ b.timestamp = a.timestamp ∧ b.guid ≤ a.guid

instance LatestFirst.decidable : DecidableRel (LatestFirst (α := α)) := fun a b =>
  inferInstanceAs (Decidable (b.timestamp < a.timestamp ∨ b.timestamp = a.timestamp ∧ b.guid ≤ a.guid))

def loadEventLogFromDB (holder : LogHolder α) (row : LogEntry α) : LogHolder α :=
  if holder.canInsert then holder.loadEvent row else holder

/-- Rows beyond the capacity are deleted, the rest is read in order into a new holder. -/
def restart (state : EventLog α) : EventLog α :=
  let maxRecords := state.holder.maxRecords
  let table := state.table.filter fun row => row.guid ≤ maxRecords
  ⟨(table.entries.insertionSort LatestFirst).foldl loadEventLogFromDB (LogHolder.create maxRecords),
    table⟩

/-! ## The window of kept events -/

def numbered (capacity : Nat) (events : List (UInt32 × α)) : List (LogEntry α) :=
  events.mapIdx fun i happened => ⟨UInt32.ofNat (i % capacity), happened.1, happened.2⟩

def window (capacity : Nat) (events : List (UInt32 × α)) : List (LogEntry α) :=
  (numbered capacity events).drop (events.length - capacity)

def lastGuid (capacity : Nat) (events : List (UInt32 × α)) : UInt32 :=
  if events.length = 0 then guildEventLogGuidUndefined
  else UInt32.ofNat ((events.length - 1) % capacity)

/-- What a run over these events leaves: the last entries, as rows and in memory. -/
structure Holds (capacity : UInt32) (events : List (UInt32 × α)) (state : EventLog α) : Prop where
  maxRecords : state.holder.maxRecords = capacity
  nextGUID : state.holder.nextGUID = lastGuid capacity.toNat events
  log : state.holder.log = window capacity.toNat events
  rows : state.table.entries.Perm (window capacity.toNat events)

theorem length_numbered (capacity : Nat) (events : List (UInt32 × α)) :
    (numbered capacity events).length = events.length := List.length_mapIdx

theorem length_window (capacity : Nat) (events : List (UInt32 × α)) :
    (window capacity events).length = min events.length capacity := by
  rw [window, List.length_drop, length_numbered]
  omega

theorem toNat_slot (capacity : UInt32) (hPos : 0 < capacity.toNat) (i : Nat) :
    (UInt32.ofNat (i % capacity.toNat)).toNat = i % capacity.toNat := by
  have hSmall : i % capacity.toNat < capacity.toNat := Nat.mod_lt i hPos
  have hSize : capacity.toNat < 2 ^ 32 := capacity.toNat_lt
  have hFits : i % capacity.toNat < UInt32.size := by
    rw [UInt32.size]
    omega
  exact UInt32.toNat_ofNat_of_lt' hFits

theorem getElem_window (capacity : Nat) (events : List (UInt32 × α)) (i : Nat)
    (h : i < (window capacity events).length)
    (hAt : events.length - capacity + i < events.length) :
    (window capacity events)[i] =
      ⟨UInt32.ofNat ((events.length - capacity + i) % capacity),
        (events[events.length - capacity + i]).1, (events[events.length - capacity + i]).2⟩ := by
  simp only [window, numbered, List.getElem_drop, List.getElem_mapIdx]

theorem window_append (capacity : Nat) (hPos : 0 < capacity) (events : List (UInt32 × α))
    (happened : UInt32 × α) :
    window capacity (events ++ [happened]) =
      (if capacity ≤ events.length then (window capacity events).tail else window capacity events) ++
        [⟨UInt32.ofNat (events.length % capacity), happened.1, happened.2⟩] := by
  rw [window, numbered, List.mapIdx_concat, List.length_append, List.length_singleton,
    List.drop_append_of_le_length (by rw [List.length_mapIdx]; omega)]
  congr 1
  split
  · rename_i hFull
    rw [window, List.tail_drop, numbered, show events.length + 1 - capacity =
      events.length - capacity + 1 from by omega]
  · rename_i hFree
    rw [window, numbered, show events.length + 1 - capacity = events.length - capacity from by omega]

theorem getNextGUID_lastGuid (capacity : UInt32) (hPos : 0 < capacity.toNat)
    (events : List (UInt32 × α)) :
    (if lastGuid capacity.toNat events = guildEventLogGuidUndefined then 0
      else (lastGuid capacity.toNat events + 1) % capacity) =
      UInt32.ofNat (events.length % capacity.toNat) := by
  by_cases hNone : events.length = 0
  · rw [lastGuid, if_pos hNone, if_pos rfl, hNone, Nat.zero_mod]
    rfl
  · have hSize : capacity.toNat < 2 ^ 32 := capacity.toNat_lt
    have hSmall : (events.length - 1) % capacity.toNat < capacity.toNat := Nat.mod_lt _ hPos
    have hGuid := toNat_slot capacity hPos (events.length - 1)
    have hUsed : UInt32.ofNat ((events.length - 1) % capacity.toNat) ≠ guildEventLogGuidUndefined := by
      intro hEq
      rw [hEq] at hGuid
      have hMax : guildEventLogGuidUndefined.toNat = 2 ^ 32 - 1 := rfl
      omega
    rw [lastGuid, if_neg hNone, if_neg hUsed]
    apply UInt32.toNat.inj
    rw [toNat_slot capacity hPos, UInt32.toNat_mod, UInt32.toNat_add, hGuid, UInt32.toNat_one,
      Nat.mod_eq_of_lt (by omega : (events.length - 1) % capacity.toNat + 1 < 2 ^ 32),
      Nat.mod_add_mod, Nat.sub_add_cancel (by omega)]

theorem holds_create (capacity : UInt32) : Holds (α := α) capacity [] (create capacity) := by
  refine ⟨rfl, rfl, ?_, ?_⟩
  · exact List.drop_nil.symm
  · exact List.Perm.of_eq List.drop_nil.symm

variable {capacity : UInt32} {events : List (UInt32 × α)} {state : EventLog α}

theorem Holds.find_next (hPos : 0 < capacity.toNat) (h : Holds capacity events state) :
    state.table.find? (events.length % capacity.toNat) =
      if capacity.toNat ≤ events.length then (window capacity.toNat events).head? else none := by
  have hLength := length_window capacity.toNat events
  split
  · rename_i hFull
    have hFirst : 0 < (window capacity.toNat events).length := by omega
    rw [List.head?_eq_getElem?, List.getElem?_eq_getElem hFirst]
    apply KeyedSet.find?_eq_some_iff.mpr
    constructor
    · exact h.rows.mem_iff.mpr (List.getElem_mem hFirst)
    · rw [getElem_window capacity.toNat events 0 hFirst (by omega), LogEntry.key,
        toNat_slot capacity hPos, Nat.add_zero, Nat.mod_eq_sub_mod hFull]
  · rename_i hFree
    apply KeyedSet.find?_eq_none_iff.mpr
    intro row hRow hKey
    obtain ⟨i, hi, rfl⟩ := List.getElem_of_mem (h.rows.mem_iff.mp hRow)
    have hAt : events.length - capacity.toNat + i < events.length := by omega
    rw [getElem_window capacity.toNat events i hi hAt, LogEntry.key, toNat_slot capacity hPos,
      Nat.mod_eq_of_lt (by omega), Nat.mod_eq_of_lt (by omega)] at hKey
    omega

theorem Holds.erase_next (hPos : 0 < capacity.toNat) (h : Holds capacity events state) :
    (state.table.erase (events.length % capacity.toNat)).entries.Perm
      (if capacity.toNat ≤ events.length then (window capacity.toNat events).tail
        else window capacity.toNat events) := by
  have hFind := h.find_next hPos
  split at hFind
  · rename_i hFull
    rw [if_pos hFull]
    have hLength := length_window capacity.toNat events
    obtain ⟨oldest, rest, hWindow⟩ :=
      List.exists_cons_of_length_pos (l := window capacity.toNat events) (by omega)
    rw [hWindow, List.head?_cons] at hFind
    obtain ⟨hIn, hKey⟩ := KeyedSet.find?_eq_some_iff.mp hFind
    have hRows := h.rows
    rw [hWindow] at hRows ⊢
    rw [← hKey]
    exact ((KeyedSet.erase_perm hIn).symm.trans hRows).cons_inv
  · rename_i hFree
    rw [if_neg hFree, KeyedSet.erase_of_absent hFind]
    exact h.rows

theorem Holds.logEvent (hPos : 0 < capacity.toNat) (h : Holds capacity events state) (happened : UInt32 × α) :
    Holds capacity (events ++ [happened]) (state.logEvent happened) := by
  have hGuid : state.holder.getNextGUID.nextGUID = UInt32.ofNat (events.length % capacity.toNat) := by
    rw [← getNextGUID_lastGuid capacity hPos events, ← h.nextGUID, ← h.maxRecords]
    rfl
  have hLength := length_window capacity.toNat events
  refine ⟨h.maxRecords, ?_, ?_, ?_⟩
  · rw [lastGuid, List.length_append, List.length_singleton, if_neg (Nat.succ_ne_zero _),
      Nat.add_sub_cancel]
    exact hGuid
  · have hFull : (capacity.toNat ≤ (window capacity.toNat events).length) ↔
        capacity.toNat ≤ events.length := by omega
    rw [window_append capacity.toNat hPos, ← hGuid, ← h.log, ← if_congr hFull rfl rfl, ← h.log,
      ← h.maxRecords]
    rfl
  · rw [window_append capacity.toNat hPos, ← hGuid]
    have hErase := h.erase_next hPos
    rw [← toNat_slot capacity hPos, ← hGuid] at hErase
    apply (KeyedSet.assign_perm_erase state.table _).trans
    exact (hErase.cons _).trans (List.perm_append_singleton _ _).symm

theorem holds_run (capacity : UInt32) (hPos : 0 < capacity.toNat) (events : List (UInt32 × α)) :
    Holds capacity events (events.foldl logEvent (create capacity)) := by
  induction events using List.reverseRecOn with
  | nil => exact holds_create capacity
  | append_singleton events happened ih =>
    rw [List.foldl_append]
    exact ih.logEvent hPos happened

/-! ## Reading the rows back -/

variable {rows : List (LogEntry α)}

theorem foldl_load_log {holder : LogHolder α}
    (h : holder.log.length + rows.length ≤ holder.maxRecords.toNat) :
    (rows.foldl loadEventLogFromDB holder).log = rows.reverse ++ holder.log ∧
      (rows.foldl loadEventLogFromDB holder).maxRecords = holder.maxRecords := by
  induction rows generalizing holder with
  | nil => exact ⟨rfl, rfl⟩
  | cons row rows ih =>
    rw [List.length_cons] at h
    have hRoom : holder.canInsert = true := by
      rw [LogHolder.canInsert, decide_eq_true_iff]
      omega
    have hRest : holder.log.length + 1 + rows.length ≤ holder.maxRecords.toNat := by omega
    rw [List.foldl_cons, loadEventLogFromDB, if_pos hRoom, List.reverse_cons, List.append_assoc]
    exact ih hRest

theorem foldl_load_next {holder : LogHolder α}
    (h : holder.nextGUID ≠ guildEventLogGuidUndefined) :
    (rows.foldl loadEventLogFromDB holder).nextGUID = holder.nextGUID := by
  induction rows generalizing holder with
  | nil => rfl
  | cons row rows ih =>
    have hStep : (loadEventLogFromDB holder row).nextGUID = holder.nextGUID := by
      rw [loadEventLogFromDB]
      split
      · exact if_neg h
      · rfl
    rw [List.foldl_cons, ih (hStep ▸ h), hStep]

theorem load_create (hLength : rows.length ≤ capacity.toNat)
    (hGuid : ∀ row ∈ rows, row.guid ≠ guildEventLogGuidUndefined) :
    rows.foldl loadEventLogFromDB (LogHolder.create capacity) =
      ⟨capacity, (rows.head?.map LogEntry.guid).getD guildEventLogGuidUndefined, rows.reverse⟩ := by
  have hRoom : (LogHolder.create (α := α) capacity).log.length + rows.length ≤ capacity.toNat := by
    rwa [LogHolder.create, List.length_nil, Nat.zero_add]
  obtain ⟨hLog, hMax⟩ := foldl_load_log hRoom
  have hNext : (rows.foldl loadEventLogFromDB (LogHolder.create capacity)).nextGUID =
      (rows.head?.map LogEntry.guid).getD guildEventLogGuidUndefined := by
    cases rows with
    | nil => rfl
    | cons row rows =>
      rw [List.length_cons] at hLength
      have hRoom : (LogHolder.create (α := α) capacity).canInsert = true := by
        rw [LogHolder.canInsert, decide_eq_true_iff]
        exact Nat.lt_of_lt_of_le (Nat.succ_pos _) hLength
      have hFirst : (loadEventLogFromDB (LogHolder.create capacity) row).nextGUID = row.guid := by
        rw [loadEventLogFromDB, if_pos hRoom]
        rfl
      rw [List.foldl_cons, foldl_load_next, hFirst]
      · rfl
      · rw [hFirst]
        exact hGuid row List.mem_cons_self
  exact LogHolder.ext hMax hNext (hLog.trans (List.append_nil _))

instance latestFirst_total : Std.Total (LatestFirst (α := α)) where
  total a b := by
    simp only [LatestFirst, UInt32.lt_iff_toNat_lt, UInt32.le_iff_toNat_le, ← UInt32.toNat_inj]
    omega

instance latestFirst_trans : IsTrans (LogEntry α) LatestFirst where
  trans a b c hab hbc := by
    simp only [LatestFirst, UInt32.lt_iff_toNat_lt, UInt32.le_iff_toNat_le, ← UInt32.toNat_inj] at *
    omega

theorem latestFirst_guid {a b : LogEntry α} (hab : LatestFirst a b) (hba : LatestFirst b a) :
    a.key = b.key := by
  simp only [LatestFirst, UInt32.lt_iff_toNat_lt, UInt32.le_iff_toNat_le, ← UInt32.toNat_inj] at *
  rw [LogEntry.key, LogEntry.key]
  omega

theorem sorted_rows_eq_iff {table : LogTable α} {l : List (LogEntry α)} (hRows : table.entries.Perm l) :
    table.entries.insertionSort LatestFirst = l ↔ l.Pairwise LatestFirst := by
  constructor
  · intro hEq
    rw [← hEq]
    exact List.pairwise_insertionSort LatestFirst table.entries
  · intro hSorted
    have hPerm := (List.perm_insertionSort LatestFirst table.entries).trans hRows
    refine List.Perm.eq_of_pairwise (fun a b ha hb hab hba => ?_)
      (List.pairwise_insertionSort LatestFirst table.entries) hSorted hPerm
    apply table.key_injective
    · exact hRows.mem_iff.mpr (hPerm.mem_iff.mp ha)
    · exact hRows.mem_iff.mpr hb
    · exact latestFirst_guid hab hba

/-! ## Events around the wrap -/

/-- Where the guids start again between two kept events, the second has moved on. -/
def WrapsApart (capacity : Nat) (events : List (UInt32 × α)) : Prop :=
  ∀ i, ∀ h : i + 1 < events.length, events.length ≤ i + capacity → (i + 1) % capacity = 0 →
    events[i].1 < events[i + 1].1

theorem wrap_between {capacity i j : Nat} (hOrder : i < j) (hNear : j < i + capacity)
    (hGuid : j % capacity < i % capacity) :
    ∃ k, i ≤ k ∧ k + 1 ≤ j ∧ (k + 1) % capacity = 0 := by
  have hSplit := Nat.div_add_mod j capacity
  have hMultiple : i < capacity * (j / capacity) := by
    by_contra hAfter
    have hShift : i = capacity * (j / capacity) + (i - capacity * (j / capacity)) := by omega
    have hSame : i % capacity = i - capacity * (j / capacity) := by
      rw [hShift, Nat.mul_add_mod, Nat.add_sub_cancel_left]
      apply Nat.mod_eq_of_lt
      have hSmall := Nat.mod_lt j (show 0 < capacity by omega)
      omega
    omega
  refine ⟨capacity * (j / capacity) - 1, by omega, by omega, ?_⟩
  rw [Nat.sub_add_cancel (by omega), Nat.mul_mod_right]

theorem latestFirst_iff (hPos : 0 < capacity.toNat) {i j : Nat} {s t : UInt32}
    {a b : α} :
    LatestFirst ⟨UInt32.ofNat (j % capacity.toNat), t, b⟩ ⟨UInt32.ofNat (i % capacity.toNat), s, a⟩ ↔
      s < t ∨ s = t ∧ i % capacity.toNat ≤ j % capacity.toNat := by
  rw [LatestFirst, UInt32.le_iff_toNat_le, toNat_slot capacity hPos, toNat_slot capacity hPos]

theorem window_latestFirst_iff (capacity : UInt32) (hPos : 0 < capacity.toNat)
    (hTime : events.Pairwise fun a b => a.1 ≤ b.1) :
    (window capacity.toNat events).reverse.Pairwise LatestFirst ↔
      WrapsApart capacity.toNat events := by
  have hLength := length_window capacity.toNat events
  rw [List.pairwise_reverse, List.pairwise_iff_getElem]
  constructor
  · intro hSorted i h hKept hWrap
    obtain ⟨d, rfl⟩ := Nat.exists_eq_add_of_le (show events.length - capacity.toNat ≤ i by omega)
    have hPair := hSorted d (d + 1) (by omega) (by omega) (Nat.lt_succ_self d)
    rw [getElem_window _ _ d _ (by omega), getElem_window _ _ (d + 1) _ h, latestFirst_iff hPos] at hPair
    obtain hLater | ⟨-, hGuid⟩ := hPair
    · exact hLater
    · -- two neighbours carry the guid 0 only in a log of one entry
      replace hGuid := Nat.eq_zero_of_le_zero (hGuid.trans_eq hWrap)
      have hOne : capacity.toNat ∣ 1 :=
        (Nat.dvd_add_right (Nat.dvd_of_mod_eq_zero hGuid)).mp (Nat.dvd_of_mod_eq_zero hWrap)
      have hSize := Nat.le_of_dvd Nat.one_pos hOne
      omega
  · intro hApart i j hi hj hij
    have hMonotone := List.pairwise_iff_getElem.mp hTime
    have hLe : ∀ k l, ∀ hl : l < events.length, ∀ hkl : k ≤ l, events[k].1 ≤ events[l].1 := by
      intro k l hl hkl
      obtain rfl | hLess := Nat.eq_or_lt_of_le hkl
      · exact UInt32.le_refl _
      · exact hMonotone k l (by omega) hl hLess
    rw [getElem_window _ _ i _ (by omega), getElem_window _ _ j _ (by omega), latestFirst_iff hPos]
    have hTimes := hLe (events.length - capacity.toNat + i) (events.length - capacity.toNat + j)
      (by omega) (by omega)
    obtain hLess | hSame := UInt32.lt_or_eq_of_le hTimes
    · exact Or.inl hLess
    refine Or.inr ⟨hSame, ?_⟩
    by_contra hGuid
    obtain ⟨k, hFrom, hTo, hWrap⟩ := @wrap_between capacity.toNat
      (events.length - capacity.toNat + i) (events.length - capacity.toNat + j)
      (by omega) (by omega) (by omega)
    have hLater := hApart k (by omega) (by omega) hWrap
    have hBefore := hLe (events.length - capacity.toNat + i) k (by omega) hFrom
    have hAfter := hLe (k + 1) (events.length - capacity.toNat + j) (by omega) hTo
    rw [← hSame] at hAfter
    exact absurd (UInt32.lt_of_lt_of_le hLater (UInt32.le_trans hAfter hBefore)) (UInt32.lt_irrefl _)

/-! ## The restart -/

/-- The rows are the entries, a restart reads them back as they were, and the next event
after it takes the row of the oldest entry of a full log and no other. -/
structure Survives (state : EventLog α) : Prop where
  rows : state.table.entries.Perm state.holder.log
  reload : state.restart.holder = state.holder
  kept : state.restart.table = state.table
  overwrites : ∀ happened, (state.restart.logEvent happened).table.entries.Perm
    ((if state.holder.canInsert then state.holder.log else state.holder.log.tail) ++
      [⟨state.holder.getNextGUID.nextGUID, happened.1, happened.2⟩])

theorem Holds.restart_table (hPos : 0 < capacity.toNat) (h : Holds capacity events state) :
    state.restart.table = state.table := by
  apply KeyedSet.ext
  apply List.filter_eq_self.mpr
  intro row hRow
  obtain ⟨i, hi, rfl⟩ := List.getElem_of_mem (h.rows.mem_iff.mp hRow)
  have hLength := length_window capacity.toNat events
  rw [getElem_window capacity.toNat events i hi (by omega), decide_eq_true_iff, h.maxRecords,
    UInt32.le_iff_toNat_le, toNat_slot capacity hPos]
  exact (Nat.mod_lt _ hPos).le

theorem Holds.slot_defined (hPos : 0 < capacity.toNat) (h : Holds capacity events state) {row : LogEntry α}
    (hRow : row ∈ state.table.entries) : row.guid ≠ guildEventLogGuidUndefined := by
  obtain ⟨i, hi, rfl⟩ := List.getElem_of_mem (h.rows.mem_iff.mp hRow)
  have hLength := length_window capacity.toNat events
  rw [getElem_window capacity.toNat events i hi (by omega)]
  intro hEq
  have hGuid := toNat_slot capacity hPos (events.length - capacity.toNat + i)
  have hSmall := Nat.mod_lt (events.length - capacity.toNat + i) hPos
  have hMax : guildEventLogGuidUndefined.toNat = 2 ^ 32 - 1 := rfl
  have hSize : capacity.toNat < 2 ^ 32 := capacity.toNat_lt
  change UInt32.ofNat _ = _ at hEq
  rw [hEq] at hGuid
  omega

theorem getLast_window (capacity : UInt32) (hPos : 0 < capacity.toNat) (events : List (UInt32 × α)) :
    ((window capacity.toNat events).getLast?.map LogEntry.guid).getD guildEventLogGuidUndefined =
      lastGuid capacity.toNat events := by
  induction events using List.reverseRecOn with
  | nil => rw [window, numbered, List.mapIdx_nil, List.drop_nil]; rfl
  | append_singleton events happened ih =>
    rw [window_append capacity.toNat hPos, List.getLast?_concat, lastGuid, List.length_append,
      List.length_singleton, if_neg (Nat.succ_ne_zero _), Nat.add_sub_cancel]
    rfl

theorem Holds.reload_iff (hPos : 0 < capacity.toNat) (h : Holds capacity events state) :
    state.restart.holder = state.holder ↔
      (window capacity.toNat events).reverse.Pairwise LatestFirst := by
  have hRows := h.rows.trans (window capacity.toNat events).reverse_perm.symm
  have hRead : state.restart.holder =
      (state.table.entries.insertionSort LatestFirst).foldl loadEventLogFromDB
        (LogHolder.create capacity) := by
    rw [← h.restart_table hPos, ← h.maxRecords]
    rfl
  have hPerm := List.perm_insertionSort LatestFirst state.table.entries
  have hLength : (state.table.entries.insertionSort LatestFirst).length ≤ capacity.toNat := by
    rw [hPerm.length_eq, h.rows.length_eq, length_window]
    exact Nat.min_le_right _ _
  have hLoad := load_create hLength fun row hRow => h.slot_defined hPos (hPerm.mem_iff.mp hRow)
  rw [← sorted_rows_eq_iff hRows, hRead, hLoad]
  constructor
  · intro hEq
    have hLog := (congrArg LogHolder.log hEq).trans h.log
    rw [← hLog, List.reverse_reverse]
  · intro hEq
    apply LogHolder.ext
    · exact h.maxRecords.symm
    · rw [hEq, List.head?_reverse, getLast_window capacity hPos, h.nextGUID]
    · rw [hEq, List.reverse_reverse, h.log]

theorem addEvent_log (state : EventLog α) (happened : UInt32 × α) :
    (state.logEvent happened).holder.log =
      (if state.holder.canInsert then state.holder.log else state.holder.log.tail) ++
        [⟨state.holder.getNextGUID.nextGUID, happened.1, happened.2⟩] := by
  by_cases hRoom : state.holder.log.length < state.holder.maxRecords.toNat
  · rw [LogHolder.canInsert, if_pos (decide_eq_true hRoom)]
    exact congrArg (· ++ [_]) (if_neg (Nat.not_le.mpr hRoom))
  · rw [LogHolder.canInsert, if_neg fun hIn => hRoom (decide_eq_true_iff.mp hIn)]
    exact congrArg (· ++ [_]) (if_pos (Nat.not_lt.mp hRoom))

theorem restart_eq (hHolder : state.restart.holder = state.holder)
    (hTable : state.restart.table = state.table) : state.restart = state := by
  calc state.restart = ⟨state.restart.holder, state.restart.table⟩ := rfl
    _ = ⟨state.holder, state.table⟩ := by rw [hHolder, hTable]
    _ = state := rfl

/-- The last events of a log survive a restart exactly when those around the wrap of the
guids were not logged in one second. -/
theorem survives_iff (capacity : UInt32) (hPos : 0 < capacity.toNat) (events : List (UInt32 × α))
    (hTime : events.Pairwise fun a b => a.1 ≤ b.1) :
    Survives (events.foldl logEvent (create capacity)) ↔ WrapsApart capacity.toNat events := by
  have hRun := holds_run capacity hPos events
  rw [← window_latestFirst_iff capacity hPos hTime, ← hRun.reload_iff hPos]
  constructor
  · exact Survives.reload
  · intro hReload
    have hTable := hRun.restart_table hPos
    refine ⟨hRun.log ▸ hRun.rows, hReload, hTable, fun happened => ?_⟩
    rw [restart_eq hReload hTable]
    have hNext := hRun.logEvent hPos happened
    apply hNext.rows.trans
    rw [← hNext.log]
    exact List.Perm.of_eq (addEvent_log _ _)

theorem survives_quiet :
    Survives ([(5, 0), (5, 1), (6, 2)].foldl logEvent (create (α := Nat) 2)) ↔
      WrapsApart 2 [((5 : UInt32), 0), (5, 1), (6, 2)] :=
  survives_iff (α := Nat) 2 (by decide) [(5, 0), (5, 1), (6, 2)] (by decide)

/-- Three events of one second in a log of two: the second of them is read back as the last. -/
theorem wrap_in_one_second :
    ([(5, 0), (5, 1), (5, 2)] : List (UInt32 × Nat)).Pairwise (fun a b => a.1 ≤ b.1) ∧
      ¬ Survives ([(5, 0), (5, 1), (5, 2)].foldl logEvent (create (α := Nat) 2)) := by
  constructor
  · decide
  · intro h
    exact absurd h.reload (by decide)

end EventLog

end AshamaneCore.Guilds
