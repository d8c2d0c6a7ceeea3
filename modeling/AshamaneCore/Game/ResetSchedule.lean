import AshamaneCore.Library.OrderedQueue
import AshamaneCore.Library.Transition
import Mathlib.Logic.Function.Basic

/-!
# The schedule of instance resets

One queue holds the warnings and resets of whole maps, which are told by the instance id
zero, and the resets of single instances. Events are equal when their instance ids are.
-/

namespace AshamaneCore.Resets

open Library Library.Transition Library.OrderedQueue

abbrev MapDifficulty := Nat × Nat

def minute : Nat := 60
def hour : Nat := 3600
def day : Nat := 86400

def resetTimeDelay : Nat → Nat
  | 1 => 3600
  | 2 => 900
  | 3 => 300
  | _ => 60

structure InstResetEvent where
  type : Nat
  mapId : Nat
  difficulty : Nat
  instanceId : Nat
deriving DecidableEq

def InstResetEvent.same (e f : InstResetEvent) : Bool := f.instanceId = e.instanceId

def InstResetEvent.mapDifficulty (e : InstResetEvent) : MapDifficulty := (e.mapId, e.difficulty)

structure Scheduled where
  time : Int
  event : InstResetEvent
deriving DecidableEq

/-- The map data and the configuration that the schedule reads. The rate multiplies a raid
duration in floating point, and what remains of the product is given. -/
structure Config where
  raidDurations : List (MapDifficulty × Nat)
  distinct : (raidDurations.map Prod.fst).Nodup
  scaled : Nat → Nat
  resetTimeHour : Nat
  instanceable : Nat → Bool
  isRaid : Nat → Bool
  downscaled : MapDifficulty → Option Nat

/-- The resets are those that were carried out, with the time they were due at. -/
structure Schedule where
  queue : List Scheduled
  resetTimes : MapDifficulty → Option Nat
  resets : List (MapDifficulty × Nat)

namespace Config

variable (cfg : Config)

def raidDuration (p : MapDifficulty) : Nat :=
  ((cfg.raidDurations.find? fun entry => entry.1 = p).map Prod.snd).getD 0

/-- The maps and difficulties that are reset as a whole, in the order of the data. -/
def raids : List MapDifficulty := (cfg.raidDurations.filter fun entry => entry.2 ≠ 0).map Prod.fst

def period (p : MapDifficulty) : Nat :=
  if cfg.scaled (cfg.raidDuration p) < day then day else cfg.scaled (cfg.raidDuration p)

def diff : Nat := cfg.resetTimeHour * hour

/-- GetSubsequentResetTime: zero for what is not reset as a whole. -/
def subsequentResetTime (p : MapDifficulty) (resetTime : Nat) : Nat :=
  if cfg.raidDuration p = 0 then 0 else (resetTime + minute) / day * day + cfg.period p + cfg.diff

end Config

def schedule (s : Schedule) (time : Int) (event : InstResetEvent) : Schedule :=
  { s with queue := insertUpper Scheduled.time ⟨time, event⟩ s.queue }

/-- The first equal event of that time is erased, or else the first one of the queue. -/
def cancel (s : Schedule) (time : Int) (event : InstResetEvent) : Schedule :=
  if s.queue.any fun e => decide (e.time = time) && e.event.same event then
    { s with queue := s.queue.eraseP fun e => decide (e.time = time) && e.event.same event }
  else { s with queue := s.queue.eraseP fun e => e.event.same event }

def resetOrWarnAll (cfg : Config) (s : Schedule) (p : MapDifficulty) (warn : Bool) (resetTime : Nat) :
    Schedule :=
  if cfg.instanceable p.1 = false ∨ warn = true ∨ cfg.subsequentResetTime p resetTime = 0 then s
  else
    schedule
      { s with
        resetTimes := Function.update s.resetTimes p (some (cfg.subsequentResetTime p resetTime))
        resets := s.resets ++ [(p, resetTime)] }
      (cfg.subsequentResetTime p resetTime - 3600) ⟨1, p.1, p.2, 0⟩

def forceGlobalReset (cfg : Config) (s : Schedule) (mapId difficulty now : Nat) : Schedule :=
  match cfg.downscaled (mapId, difficulty) with
  | none => s
  | some actual =>
    resetOrWarnAll cfg (cancel (cancel s 0 ⟨1, mapId, actual, 0⟩) 0 ⟨4, mapId, actual, 0⟩) (mapId, actual)
      false now

def eraseFront (s : Schedule) : Schedule := { s with queue := s.queue.tail }

/-- A warning is changed in place to the next one, which is scheduled as a copy. -/
def warnRound (cfg : Config) (s : Schedule) (front : Scheduled) (rest : List Scheduled) (resetTime : Nat) :
    Schedule :=
  eraseFront (schedule
    { resetOrWarnAll cfg s front.event.mapDifficulty true resetTime with
      queue := ⟨front.time, { front.event with type := front.event.type + 1 }⟩ :: rest }
    (resetTime - resetTimeDelay (front.event.type + 1)) { front.event with type := front.event.type + 1 })

def updateRound (cfg : Config) (s : Schedule) (now : Nat) : Schedule :=
  match s.queue with
  | [] => s
  | front :: rest =>
    if (now : Int) ≤ front.time then s
    else if front.event.type = 0 then eraseFront s
    else if front.event.type ≠ 4 then
      warnRound cfg s front rest ((s.resetTimes front.event.mapDifficulty).getD 0)
    else
      eraseFront (resetOrWarnAll cfg s front.event.mapDifficulty false
        ((s.resetTimes front.event.mapDifficulty).getD 0))

def difficultyNormal : Nat := 1

/-- AddInstanceSave as far as the schedule is concerned; whether the save is known already
and the map, the instance and the difficulty fit each other is decided elsewhere. -/
def addInstanceSave (cfg : Config) (s : Schedule) (accepted : Bool)
    (mapId instanceId difficulty resetTime now : Nat) : Schedule :=
  if accepted = false ∨ instanceId = 0 ∨ resetTime ≠ 0 ∨ cfg.isRaid mapId = true ∨
      difficultyNormal < difficulty then s
  else schedule s (now + 2 * hour) ⟨0, mapId, difficulty, instanceId⟩

/-! ## Loading -/

structure Row where
  instanceId : Nat
  positive : 0 < instanceId
  mapDifficulty : MapDifficulty
  resetTime : Nat

def initialTime (cfg : Config) (now : Nat) (stored : Option Nat) (p : MapDifficulty) : Nat :=
  if stored.getD 0 = 0 then now / day * day + cfg.period p + cfg.diff else stored.getD 0

def renewedTime (cfg : Config) (now : Nat) (p : MapDifficulty) (t : Nat) : Nat :=
  if t < now then
    t / day * day + ((now / day * day - t / day * day) / cfg.period p + 1) * cfg.period p + cfg.diff
  else t

def startTime (cfg : Config) (now : Nat) (stored : Option Nat) (p : MapDifficulty) : Nat :=
  renewedTime cfg now p (initialTime cfg now stored p)

def startType (now t : Nat) : Nat :=
  if now + resetTimeDelay 1 < t then 1
  else if now + resetTimeDelay 2 < t then 2
  else if now + resetTimeDelay 3 < t then 3
  else 4

def loadRow (now : Nat) (s : Schedule) (row : Row) : Schedule :=
  if now < row.resetTime then
    schedule s row.resetTime ⟨0, row.mapDifficulty.1, row.mapDifficulty.2, row.instanceId⟩
  else s

/-- The global event of a map, and one for each of its instances with a reset time. -/
def loadRaidAt (now : Nat) (rows : List Row) (s : Schedule) (p : MapDifficulty) (t : Nat) : Schedule :=
  (rows.filter fun row => row.mapDifficulty = p).foldl
    (fun s row =>
      schedule s (t - resetTimeDelay (startType now t)) ⟨startType now t, p.1, p.2, row.instanceId⟩)
    (schedule { s with resetTimes := Function.update s.resetTimes p (some t) }
      (t - resetTimeDelay (startType now t)) ⟨startType now t, p.1, p.2, 0⟩)

def loadRaid (cfg : Config) (now : Nat) (rows : List Row) (s : Schedule) (p : MapDifficulty) : Schedule :=
  loadRaidAt now rows s p (startTime cfg now (s.resetTimes p) p)

/-- The stored reset times are moved to the hour of the configuration. -/
def storedTimes (cfg : Config) (stored : MapDifficulty → Option Nat) (p : MapDifficulty) : Option Nat :=
  (stored p).map fun old => old / day * day + cfg.diff

def loadResetTimes (cfg : Config) (now : Nat) (rows : List Row) (stored : MapDifficulty → Option Nat) :
    Schedule :=
  cfg.raids.foldl (loadRaid cfg now rows) (rows.foldl (loadRow now) ⟨[], storedTimes cfg stored, []⟩)

/-! ## Requests -/

/-- What is asked of the manager after loading. Update is asked round by round, and single
instances have ids other than zero. -/
inductive Request where
  | update (now : Nat)
  | force (mapId difficulty now : Nat)
  | add (accepted : Bool) (mapId instanceId difficulty resetTime now : Nat)
  | cancelInstance (time : Int) (mapId difficulty instanceId : Nat) (positive : 0 < instanceId)

def step (cfg : Config) (s : Schedule) (r : Request) : Schedule :=
  match r with
  | .update now => updateRound cfg s now
  | .force mapId difficulty now => forceGlobalReset cfg s mapId difficulty now
  | .add accepted mapId instanceId difficulty resetTime now =>
    addInstanceSave cfg s accepted mapId instanceId difficulty resetTime now
  | .cancelInstance time mapId difficulty instanceId _ => cancel s time ⟨0, mapId, difficulty, instanceId⟩

/-!
## The clock of a map that is reset as a whole

The schedule shows for such a map a single pending event, which is what remains of the
warnings and the reset of the current period. Rounds of Update turn the clock of the event
at the front and leave the others alone.
-/

variable {cfg : Config} {s : Schedule} {p q : MapDifficulty}

/-! ## What the data says -/

theorem mem_nonzero_iff {entries : List (MapDifficulty × Nat)} (hNodup : (entries.map Prod.fst).Nodup) :
    p ∈ (entries.filter fun entry => entry.2 ≠ 0).map Prod.fst ↔
      ((entries.find? fun entry => entry.1 = p).map Prod.snd).getD 0 ≠ 0 := by
  induction entries with
  | nil => simp
  | cons entry entries ih =>
    rw [List.map_cons, List.nodup_cons] at hNodup
    obtain ⟨hFresh, hRest⟩ := hNodup
    by_cases hp : entry.1 = p
    · subst hp
      have hNot : entry.1 ∉ (entries.filter fun later => later.2 ≠ 0).map Prod.fst := by
        intro hMem
        obtain ⟨later, hLater, hSame⟩ := List.mem_map.mp hMem
        exact hFresh (List.mem_map.mpr ⟨later, (List.mem_filter.mp hLater).1, hSame⟩)
      rw [List.find?_cons_of_pos (by simp)]
      by_cases hZero : entry.2 = 0
      · rw [List.filter_cons_of_neg (by simp [hZero])]
        simp only [Option.map_some, Option.getD_some, hZero, ne_eq, not_true_eq_false, iff_false]
        exact hNot
      · rw [List.filter_cons_of_pos (by simp [hZero])]
        simp [hZero]
    · rw [List.find?_cons_of_neg (by simp [hp]), ← ih hRest]
      by_cases hZero : entry.2 = 0
      · rw [List.filter_cons_of_neg (by simp [hZero])]
      · rw [List.filter_cons_of_pos (by simp [hZero]), List.map_cons, List.mem_cons]
        exact or_iff_right (Ne.symm hp)

theorem Config.mem_raids : p ∈ cfg.raids ↔ cfg.raidDuration p ≠ 0 := mem_nonzero_iff cfg.distinct

theorem Config.raids_nodup : cfg.raids.Nodup :=
  (List.filter_sublist.map Prod.fst).nodup cfg.distinct

theorem Config.day_le_period (p : MapDifficulty) : day ≤ cfg.period p := by
  rw [Config.period]
  split
  · exact le_refl _
  · omega

theorem Config.subsequentResetTime_ne_zero (h : p ∈ cfg.raids) (resetTime : Nat) :
    cfg.subsequentResetTime p resetTime ≠ 0 := by
  have hPeriod := cfg.day_le_period p
  rw [Config.subsequentResetTime, if_neg (Config.mem_raids.mp h)]
  simp only [day] at hPeriod ⊢
  omega

/-! ## Cancelling -/

theorem cancel_queue (s : Schedule) (time : Int) (event : InstResetEvent) :
    ∃ P : Scheduled → Bool, (∀ e, P e = true → e.event.same event = true) ∧
      ((∃ e ∈ s.queue, e.event.same event = true) → ∃ e ∈ s.queue, P e = true) ∧
      (cancel s time event).queue = s.queue.eraseP P := by
  rw [cancel]
  split
  · rename_i hAny
    refine ⟨fun e => decide (e.time = time) && e.event.same event, ?_, ?_, rfl⟩
    · exact fun e he => (Bool.and_eq_true_iff.mp he).2
    · exact fun _ => List.any_eq_true.mp hAny
  · exact ⟨fun e => e.event.same event, fun _ he => he, fun h => h, rfl⟩

@[simp] theorem cancel_resetTimes (s : Schedule) (time : Int) (event : InstResetEvent) :
    (cancel s time event).resetTimes = s.resetTimes := by
  rw [cancel]
  split <;> rfl

@[simp] theorem cancel_resets (s : Schedule) (time : Int) (event : InstResetEvent) :
    (cancel s time event).resets = s.resets := by
  rw [cancel]
  split <;> rfl

theorem mem_of_mem_cancel {time : Int} {event : InstResetEvent} {e : Scheduled}
    (h : e ∈ (cancel s time event).queue) : e ∈ s.queue := by
  obtain ⟨P, -, -, hQueue⟩ := cancel_queue s time event
  rw [hQueue] at h
  exact List.mem_of_mem_eraseP h

theorem cancel_filter {kept : Scheduled → Bool} {event : InstResetEvent}
    (h : ∀ e, e.event.same event = true → kept e = false) (time : Int) :
    (cancel s time event).queue.filter kept = s.queue.filter kept := by
  obtain ⟨P, hSame, -, hQueue⟩ := cancel_queue s time event
  rw [hQueue]
  exact filter_eraseP_of_disjoint (fun e he => h e (hSame e he)) s.queue

theorem cancel_clears {event : InstResetEvent}
    (h : (s.queue.filter fun e => e.event.same event).length ≤ 1) (time : Int) :
    (cancel s time event).queue.filter (fun e => e.event.same event) = [] := by
  obtain ⟨P, hSame, hHit, hQueue⟩ := cancel_queue s time event
  rw [hQueue, filter_eraseP_of_imp hSame]
  cases hFilter : s.queue.filter fun e => e.event.same event with
  | nil => rfl
  | cons e rest =>
    rw [hFilter, List.length_cons] at h
    have hRest : rest = [] := List.eq_nil_of_length_eq_zero (by omega)
    have hMem : e ∈ s.queue.filter fun e => e.event.same event := by
      rw [hFilter]
      exact List.mem_cons_self
    obtain ⟨f, hf, hPf⟩ := hHit ⟨e, List.mem_filter.mp hMem⟩
    have hf' : f ∈ s.queue.filter fun e => e.event.same event := List.mem_filter.mpr ⟨hf, hSame f hPf⟩
    rw [hFilter, hRest] at hf'
    rw [← List.mem_singleton.mp hf', List.eraseP_cons_of_pos hPf, hRest]

/-! ## Clocks -/

def Scheduled.isGlobal (p : MapDifficulty) (e : Scheduled) : Bool :=
  decide (e.event.instanceId = 0) && decide (e.event.mapDifficulty = p)

theorem Scheduled.isGlobal_iff {e : Scheduled} :
    e.isGlobal p = true ↔ e.event.instanceId = 0 ∧ e.event.mapDifficulty = p := by
  rw [Scheduled.isGlobal, Bool.and_eq_true, decide_eq_true_iff, decide_eq_true_iff]

/-- The reset time of the current period, and the type of the next warning or reset of it. -/
structure Clock where
  resetTime : Nat
  type : Nat
deriving DecidableEq

namespace Clock

def due (c : Clock) : Int := c.resetTime - resetTimeDelay c.type

def event (c : Clock) (p : MapDifficulty) : Scheduled := ⟨c.due, ⟨c.type, p.1, p.2, 0⟩⟩

/-- The next warning, or after the reset the first warning of the next period. -/
def next (cfg : Config) (p : MapDifficulty) (c : Clock) : Clock :=
  if c.type = 4 then ⟨cfg.subsequentResetTime p c.resetTime, 1⟩ else ⟨c.resetTime, c.type + 1⟩

def Valid (c : Clock) : Prop := 1 ≤ c.type ∧ c.type ≤ 4

variable {c : Clock}

@[simp] theorem isGlobal_event : (c.event p).isGlobal q = true ↔ p = q := by
  rw [Scheduled.isGlobal_iff]
  exact and_iff_right rfl

theorem Valid.next (h : c.Valid) : (c.next cfg p).Valid := by
  obtain ⟨hLow, hHigh⟩ := h
  rw [Clock.next]
  split
  · exact ⟨le_refl 1, by simp⟩
  · exact ⟨by simp, by simp only; omega⟩

theorem due_le_warning (h : c.Valid) (hWarn : c.type ≠ 4) : c.due ≤ (c.next cfg p).due := by
  obtain ⟨resetTime, type⟩ := c
  obtain ⟨hLow, hHigh⟩ := h
  rw [Clock.next, if_neg hWarn]
  simp only [due] at hLow hHigh hWarn ⊢
  have hCases : type = 1 ∨ type = 2 ∨ type = 3 := by omega
  obtain rfl | rfl | rfl := hCases
  · simp only [resetTimeDelay]
    omega
  · simp only [resetTimeDelay]
    omega
  · simp only [resetTimeDelay]
    omega

end Clock

/-- The reset time is the one of the clock, and its event is the only one pending. -/
structure Shows (s : Schedule) (p : MapDifficulty) (c : Clock) : Prop where
  resetTime : s.resetTimes p = some c.resetTime
  pending : s.queue.filter (Scheduled.isGlobal p) = [c.event p]
  valid : c.Valid

theorem Shows.unique {c d : Clock} (hc : Shows s p c) (hd : Shows s p d) : c = d := by
  have hEvents := hc.pending.symm.trans hd.pending
  obtain ⟨resetTime, type⟩ := c
  obtain ⟨resetTime', type'⟩ := d
  have hTimes := Option.some.inj (hc.resetTime.symm.trans hd.resetTime)
  simp only [Clock.event, List.cons.injEq, Scheduled.mk.injEq, InstResetEvent.mk.injEq] at hEvents hTimes
  rw [hTimes, hEvents.1.2.1]

/-- The maps of a collection have their clocks, and no other map has a pending event. -/
structure Ruled (maps : List MapDifficulty) (s : Schedule) : Prop where
  shows : ∀ p ∈ maps, ∃ c, Shows s p c
  globals : ∀ e ∈ s.queue, e.event.instanceId = 0 → e.event.mapDifficulty ∈ maps
  singles : ∀ e ∈ s.queue, e.event.instanceId ≠ 0 → e.event.type = 0

theorem Ruled.none_of_not_mem {maps : List MapDifficulty} (h : Ruled maps s) (hp : p ∉ maps) :
    s.queue.filter (Scheduled.isGlobal p) = [] := by
  rw [List.filter_eq_nil_iff]
  intro e he hGlobal
  obtain ⟨hZero, rfl⟩ := Scheduled.isGlobal_iff.mp hGlobal
  exact hp (h.globals e he hZero)

theorem Ruled.clock_of_event {maps : List MapDifficulty} (h : Ruled maps s) {e : Scheduled}
    (he : e ∈ s.queue) (hZero : e.event.instanceId = 0) :
    ∃ p c, p ∈ maps ∧ Shows s p c ∧ e = c.event p := by
  have hMap := h.globals e he hZero
  obtain ⟨c, hc⟩ := h.shows _ hMap
  refine ⟨_, c, hMap, hc, ?_⟩
  have hMem : e ∈ s.queue.filter (Scheduled.isGlobal e.event.mapDifficulty) :=
    List.mem_filter.mpr ⟨he, Scheduled.isGlobal_iff.mpr ⟨hZero, rfl⟩⟩
  rw [hc.pending] at hMem
  exact List.mem_singleton.mp hMem

theorem Ruled.type_eq_zero_iff {maps : List MapDifficulty} (h : Ruled maps s) {e : Scheduled}
    (he : e ∈ s.queue) : e.event.type = 0 ↔ e.event.instanceId ≠ 0 := by
  constructor
  · intro hType hZero
    obtain ⟨p, c, -, hc, rfl⟩ := h.clock_of_event he hZero
    have hLow := hc.valid.1
    simp only [Clock.event] at hType
    omega
  · exact h.singles e he

end AshamaneCore.Resets
