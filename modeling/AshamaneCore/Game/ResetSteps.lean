import AshamaneCore.Game.ResetSchedule

/-!
# Steps of the reset schedule

A round of Update turns the clock of the event at the front. A forced reset starts a clock
anew; it takes two events out of the queue by an equality that does not see their maps.
-/

namespace AshamaneCore.Resets

open Library Library.Transition Library.OrderedQueue

variable {cfg : Config} {s : Schedule} {p q : MapDifficulty} {c d : Clock}

/-! ## What a step is to do -/

/-- The event of the map is at the front and its time has passed. -/
def dueAtFront (s : Schedule) (p : MapDifficulty) (now : Nat) : Bool :=
  s.queue.head?.any fun front => front.isGlobal p && decide (front.time < (now : Int))

def forced (cfg : Config) (p : MapDifficulty) (mapId difficulty : Nat) : Bool :=
  decide (p.1 = mapId) && decide (cfg.downscaled (mapId, difficulty) = some p.2)

def clockAfter (cfg : Config) (s : Schedule) (r : Request) (p : MapDifficulty) (c : Clock) : Clock :=
  match r with
  | .update now => if dueAtFront s p now = true then c.next cfg p else c
  | .force mapId difficulty now =>
    if forced cfg p mapId difficulty = true then ⟨cfg.subsequentResetTime p now, 1⟩ else c
  | _ => c

def resetsDue (cfg : Config) (s : Schedule) (r : Request) (p : MapDifficulty) (c : Clock) : List Nat :=
  match r with
  | .update now => if dueAtFront s p now = true ∧ c.type = 4 then [c.resetTime] else []
  | .force mapId difficulty now => if forced cfg p mapId difficulty = true then [now] else []
  | _ => []

def resetsOf (s : Schedule) (p : MapDifficulty) : List Nat :=
  (s.resets.filter fun entry => entry.1 = p).map Prod.snd

/-- Clocks turn when their event is due or their reset is forced, and a map is reset when
its clock leaves a period. -/
def OnSchedule (cfg : Config) (s : Schedule) (r : Request) : Prop :=
  ∀ p ∈ cfg.raids, ∀ c, Shows s p c →
    Shows (step cfg s r) p (clockAfter cfg s r p c) ∧
      resetsOf (step cfg s r) p = resetsOf s p ++ resetsDue cfg s r p c

/-- Forcing and cancelling leave the events of all others in place. -/
def Untouched (cfg : Config) (s : Schedule) (r : Request) : Prop :=
  match r with
  | .force mapId difficulty _ =>
    match cfg.downscaled (mapId, difficulty) with
    | none => step cfg s r = s
    | some actual =>
      (step cfg s r).queue.filter (fun e => !e.isGlobal (mapId, actual)) =
        s.queue.filter fun e => !e.isGlobal (mapId, actual)
  | .cancelInstance _ _ _ instanceId _ =>
    (step cfg s r).queue.filter (fun e => decide (e.event.instanceId ≠ instanceId)) =
      s.queue.filter fun e => decide (e.event.instanceId ≠ instanceId)
  | _ => True

/-- A map is reset when it has instances and the first warning of the next period is not
behind; a reset is forced when no other map has a pending event. -/
def Proper (cfg : Config) (s : Schedule) (r : Request) : Prop :=
  match r with
  | .update now =>
    ∀ front ∈ s.queue.head?, front.time < now → front.event.type = 4 →
      cfg.instanceable front.event.mapId = true ∧
        front.time ≤ (cfg.subsequentResetTime front.event.mapDifficulty
          ((s.resetTimes front.event.mapDifficulty).getD 0) : Int) - 3600
  | .force mapId difficulty _ =>
    ∀ actual, cfg.downscaled (mapId, difficulty) = some actual →
      (∀ e ∈ s.queue, e.event.instanceId = 0 → e.event.mapDifficulty = (mapId, actual)) ∧
        ((mapId, actual) ∈ cfg.raids → cfg.instanceable mapId = true)
  | _ => True

/-! ## Frames -/

theorem Shows.of_frame {t : Schedule} (h : Shows s p c) (hTime : t.resetTimes p = s.resetTimes p)
    (hQueue : t.queue.filter (Scheduled.isGlobal p) = s.queue.filter (Scheduled.isGlobal p)) :
    Shows t p c :=
  ⟨hTime.trans h.resetTime, hQueue.trans h.pending, h.valid⟩

theorem isGlobal_of_single {e : Scheduled} (h : e.event.instanceId ≠ 0) (p : MapDifficulty) :
    e.isGlobal p = false :=
  Bool.eq_false_iff.mpr fun hGlobal => h (Scheduled.isGlobal_iff.mp hGlobal).1

theorem isGlobal_event_of_ne (h : p ≠ q) (c : Clock) : (c.event p).isGlobal q = false :=
  Bool.eq_false_iff.mpr fun hGlobal => h (Clock.isGlobal_event.mp hGlobal)

theorem resetsOf_append (resets : List (MapDifficulty × Nat)) (queue : List Scheduled)
    (times : MapDifficulty → Option Nat) (p : MapDifficulty) :
    resetsOf ⟨queue, times, s.resets ++ resets⟩ p =
      resetsOf s p ++ (resets.filter fun entry => entry.1 = p).map Prod.snd := by
  simp only [resetsOf, List.filter_append, List.map_append]

/-! ## Turning one clock -/

/-- The schedule with the clock of a map moved on, the other pending events being given. -/
def turned (s : Schedule) (p : MapDifficulty) (c : Clock) (resets : List (MapDifficulty × Nat))
    (rest : List Scheduled) : Schedule :=
  ⟨insertUpper Scheduled.time (c.event p) rest, Function.update s.resetTimes p (some c.resetTime),
    s.resets ++ resets⟩

section Turned

variable {resets : List (MapDifficulty × Nat)} {rest : List Scheduled}

theorem turned_shows (hValid : c.Valid) (hNone : rest.filter (Scheduled.isGlobal p) = []) :
    Shows (turned s p c resets rest) p c := by
  refine ⟨?_, insertUpper_filter_of_none (Clock.isGlobal_event.mpr rfl) hNone, hValid⟩
  simp only [turned, Function.update_self]

theorem turned_shows_other (hNe : p ≠ q) (h : Shows s q d)
    (hRest : rest.filter (Scheduled.isGlobal q) = s.queue.filter (Scheduled.isGlobal q)) :
    Shows (turned s p c resets rest) q d := by
  apply h.of_frame
  · simp only [turned, Function.update_of_ne hNe.symm]
  · rw [turned, insertUpper_filter_of_not (isGlobal_event_of_ne hNe c)]
    exact hRest

theorem Ruled.turned {maps : List MapDifficulty} (h : Ruled maps s) (hp : p ∈ maps) (hValid : c.Valid)
    (hSub : ∀ e ∈ rest, e ∈ s.queue) (hNone : rest.filter (Scheduled.isGlobal p) = [])
    (hOthers : ∀ q, p ≠ q → rest.filter (Scheduled.isGlobal q) = s.queue.filter (Scheduled.isGlobal q)) :
    Ruled maps (turned s p c resets rest) where
  shows q hq := by
    by_cases hNe : p = q
    · subst hNe
      exact ⟨c, turned_shows hValid hNone⟩
    · obtain ⟨d, hd⟩ := h.shows q hq
      exact ⟨d, turned_shows_other hNe hd (hOthers q hNe)⟩
  globals e he hZero := by
    rcases mem_insertUpper.mp he with rfl | he
    · exact hp
    · exact h.globals e (hSub e he) hZero
  singles e he hSingle := by
    rcases mem_insertUpper.mp he with rfl | he
    · exact absurd rfl hSingle
    · exact h.singles e (hSub e he) hSingle

end Turned

/-! ## Rounds of Update -/

theorem resetOrWarnAll_warn (p : MapDifficulty) (resetTime : Nat) :
    resetOrWarnAll cfg s p true resetTime = s := by
  rw [resetOrWarnAll, if_pos (Or.inr (Or.inl rfl))]

theorem resetOrWarnAll_reset (hRaid : p ∈ cfg.raids) (hMap : cfg.instanceable p.1 = true) (resetTime : Nat) :
    resetOrWarnAll cfg s p false resetTime =
      turned s p ⟨cfg.subsequentResetTime p resetTime, 1⟩ [(p, resetTime)] s.queue := by
  have hNot : ¬ (cfg.instanceable p.1 = false ∨ false = true ∨ cfg.subsequentResetTime p resetTime = 0) := by
    rintro (h | h | h)
    · rw [hMap] at h
      cases h
    · cases h
    · exact Config.subsequentResetTime_ne_zero hRaid resetTime h
  rw [resetOrWarnAll, if_neg hNot]
  rfl

def resetEntries (p : MapDifficulty) (c : Clock) : List (MapDifficulty × Nat) :=
  if c.type = 4 then [(p, c.resetTime)] else []

variable {now : Nat}

theorem updateRound_cases (h : Ruled cfg.raids s) (hProper : Proper cfg s (.update now)) :
    (updateRound cfg s now = s ∧ ∀ front ∈ s.queue.head?, (now : Int) ≤ front.time) ∨
    (∃ front rest, s.queue = front :: rest ∧ front.event.instanceId ≠ 0 ∧
      updateRound cfg s now = ⟨rest, s.resetTimes, s.resets⟩) ∨
    ∃ p c rest, p ∈ cfg.raids ∧ Shows s p c ∧ s.queue = c.event p :: rest ∧ c.due < now ∧
      updateRound cfg s now = turned s p (c.next cfg p) (resetEntries p c) rest := by
  cases hQueue : s.queue with
  | nil =>
    left
    rw [updateRound, hQueue]
    exact ⟨rfl, by simp⟩
  | cons front rest =>
    have hFront : front ∈ s.queue := by
      rw [hQueue]
      exact List.mem_cons_self
    have hHead : front ∈ s.queue.head? := by
      rw [hQueue]
      rfl
    rw [updateRound, hQueue]
    simp only
    by_cases hTime : (now : Int) ≤ front.time
    · left
      rw [if_pos hTime]
      refine ⟨rfl, fun first hFirst => ?_⟩
      rw [List.head?_cons, Option.mem_some_iff] at hFirst
      rw [← hFirst]
      exact hTime
    · right
      rw [if_neg hTime]
      by_cases hType : front.event.type = 0
      · left
        rw [if_pos hType, eraseFront, hQueue]
        exact ⟨front, rest, rfl, (h.type_eq_zero_iff hFront).mp hType, rfl⟩
      · right
        rw [if_neg hType]
        have hZero : front.event.instanceId = 0 := by
          by_contra hSingle
          exact hType (h.singles front hFront hSingle)
        obtain ⟨p, c, hp, hc, rfl⟩ := h.clock_of_event hFront hZero
        refine ⟨p, c, rest, hp, hc, rfl, not_le.mp hTime, ?_⟩
        have hStored : (s.resetTimes p).getD 0 = c.resetTime := by
          rw [hc.resetTime]
          rfl
        by_cases hReset : c.type = 4
        · obtain ⟨hMap, hLater⟩ := hProper _ hHead (not_le.mp hTime) hReset
          have hNext : c.next cfg p = ⟨cfg.subsequentResetTime p c.resetTime, 1⟩ := if_pos hReset
          have hBehind : ¬ (Clock.event ⟨cfg.subsequentResetTime p c.resetTime, 1⟩ p).time <
              (c.event p).time := by
            have hLater' : (c.event p).time ≤
                (cfg.subsequentResetTime p ((s.resetTimes p).getD 0) : Int) - 3600 :=
              hLater
            rw [hStored] at hLater'
            exact not_lt.mpr hLater'
          have hNotWarn : ¬ (c.event p).event.type ≠ 4 := fun hNe => hNe hReset
          rw [if_neg hNotWarn]
          change eraseFront (resetOrWarnAll cfg s p false ((s.resetTimes p).getD 0)) = _
          rw [hStored, resetOrWarnAll_reset hp hMap, hNext, resetEntries, if_pos hReset, eraseFront,
            turned, hQueue]
          simp only [tail_insertUpper, if_neg hBehind]
          rfl
        · have hNext : c.next cfg p = ⟨c.resetTime, c.type + 1⟩ := if_neg hReset
          have hBehind : ¬ ((c.resetTime : Int) - resetTimeDelay (c.type + 1)) < c.due := by
            have hLe := @Clock.due_le_warning cfg p c hc.valid hReset
            rw [hNext] at hLe
            exact not_lt.mpr hLe
          have hWarn : (c.event p).event.type ≠ 4 := hReset
          rw [if_pos hWarn]
          change warnRound cfg s (c.event p) rest ((s.resetTimes p).getD 0) = _
          rw [hStored, warnRound, resetOrWarnAll_warn, hNext, resetEntries, if_neg hReset, eraseFront,
            schedule, turned]
          simp only [Clock.event, tail_insertUpper, if_neg hBehind, List.append_nil, Schedule.mk.injEq]
          refine ⟨rfl, ?_, trivial⟩
          rw [← hc.resetTime, Function.update_eq_self]

/-! ## Steps that move no clock -/

/-- The clocks stand as before, and what is new in the queue is of single instances. -/
structure Unmoved (s t : Schedule) : Prop where
  resetTimes : t.resetTimes = s.resetTimes
  resets : t.resets = s.resets
  queue : ∀ p, t.queue.filter (Scheduled.isGlobal p) = s.queue.filter (Scheduled.isGlobal p)
  members : ∀ e ∈ t.queue, e ∈ s.queue ∨ e.event.instanceId ≠ 0 ∧ e.event.type = 0

namespace Unmoved

variable {t : Schedule}

theorem refl (s : Schedule) : Unmoved s s := ⟨rfl, rfl, fun _ => rfl, fun _ he => Or.inl he⟩

theorem shows (h : Unmoved s t) (hShows : Shows s p c) : Shows t p c :=
  hShows.of_frame (congrFun h.resetTimes p) (h.queue p)

theorem resetsOf (h : Unmoved s t) (p : MapDifficulty) : resetsOf t p = resetsOf s p ++ [] := by
  rw [Resets.resetsOf, Resets.resetsOf, h.resets, List.append_nil]

theorem ruled {maps : List MapDifficulty} (h : Unmoved s t) (hRuled : Ruled maps s) : Ruled maps t where
  shows p hp := by
    obtain ⟨c, hc⟩ := hRuled.shows p hp
    exact ⟨c, h.shows hc⟩
  globals e he hZero := by
    rcases h.members e he with hOld | ⟨hSingle, -⟩
    · exact hRuled.globals e hOld hZero
    · exact absurd hZero hSingle
  singles e he hSingle := by
    rcases h.members e he with hOld | ⟨-, hType⟩
    · exact hRuled.singles e hOld hSingle
    · exact hType

theorem pop {front : Scheduled} {rest : List Scheduled} (hQueue : s.queue = front :: rest)
    (hSingle : front.event.instanceId ≠ 0) : Unmoved s ⟨rest, s.resetTimes, s.resets⟩ where
  resetTimes := rfl
  resets := rfl
  queue p := by
    rw [hQueue, List.filter_cons_of_neg (by simp [isGlobal_of_single hSingle p])]
  members e he := by
    left
    rw [hQueue]
    exact List.mem_cons_of_mem front he

theorem add {time : Int} {event : InstResetEvent} (hSingle : event.instanceId ≠ 0) (hType : event.type = 0) :
    Unmoved s (schedule s time event) where
  resetTimes := rfl
  resets := rfl
  queue p := insertUpper_filter_of_not (isGlobal_of_single hSingle p) s.queue
  members e he := by
    rcases mem_insertUpper.mp he with rfl | hOld
    · exact Or.inr ⟨hSingle, hType⟩
    · exact Or.inl hOld

theorem cancel {event : InstResetEvent} (hSingle : event.instanceId ≠ 0) (time : Int) :
    Unmoved s (cancel s time event) where
  resetTimes := cancel_resetTimes s time event
  resets := cancel_resets s time event
  queue p := by
    apply cancel_filter
    intro e he
    have hSame : event.instanceId = e.event.instanceId := of_decide_eq_true he
    exact isGlobal_of_single (hSame ▸ hSingle) p
  members e he := Or.inl (mem_of_mem_cancel he)

end Unmoved

theorem OnSchedule.of_unmoved {r : Request} (h : Unmoved s (step cfg s r))
    (hClock : ∀ p ∈ cfg.raids, ∀ c, Shows s p c → clockAfter cfg s r p c = c ∧ resetsDue cfg s r p c = []) :
    OnSchedule cfg s r := by
  intro p hp c hc
  obtain ⟨hSame, hNone⟩ := hClock p hp c hc
  rw [hSame, hNone]
  exact ⟨h.shows hc, h.resetsOf p⟩

/-! ## Forced resets -/

variable {mapId difficulty : Nat}

theorem forced_iff :
    forced cfg p mapId difficulty = true ↔ p.1 = mapId ∧ cfg.downscaled (mapId, difficulty) = some p.2 := by
  rw [forced, Bool.and_eq_true, decide_eq_true_iff, decide_eq_true_iff]

def cleared (s : Schedule) (p : MapDifficulty) : Schedule :=
  cancel (cancel s 0 ⟨1, p.1, p.2, 0⟩) 0 ⟨4, p.1, p.2, 0⟩

theorem mem_of_mem_cleared {e : Scheduled} (h : e ∈ (cleared s p).queue) : e ∈ s.queue :=
  mem_of_mem_cancel (mem_of_mem_cancel h)

theorem turned_cleared (resets : List (MapDifficulty × Nat)) (rest : List Scheduled) :
    turned (cleared s p) q c resets rest = turned s q c resets rest := by
  rw [turned, turned, cleared, cancel_resetTimes, cancel_resetTimes, cancel_resets, cancel_resets]

theorem cleared_filter_single :
    (cleared s p).queue.filter (fun e => decide (e.event.instanceId ≠ 0)) =
      s.queue.filter fun e => decide (e.event.instanceId ≠ 0) := by
  have hZero : ∀ (type : Nat) (e : Scheduled), e.event.same ⟨type, p.1, p.2, 0⟩ = true →
      decide (e.event.instanceId ≠ 0) = false := by
    intro type e he
    have hSame : 0 = e.event.instanceId := of_decide_eq_true he
    exact decide_eq_false fun hNe => hNe hSame.symm
  rw [cleared, cancel_filter (hZero 4), cancel_filter (hZero 1)]

section Alone

variable (h : Ruled cfg.raids s)
  (hAlone : ∀ e ∈ s.queue, e.event.instanceId = 0 → e.event.mapDifficulty = p)

include h hAlone

theorem zeros_length_le : (s.queue.filter fun e => decide (0 = e.event.instanceId)).length ≤ 1 := by
  have hKind : (s.queue.filter fun e => decide (0 = e.event.instanceId)) =
      s.queue.filter (Scheduled.isGlobal p) := by
    apply List.filter_congr
    intro e he
    rw [Bool.eq_iff_iff, decide_eq_true_iff, Scheduled.isGlobal_iff]
    exact ⟨fun hZero => ⟨hZero.symm, hAlone e he hZero.symm⟩, fun hGlobal => hGlobal.1.symm⟩
  rw [hKind]
  by_cases hp : p ∈ cfg.raids
  · obtain ⟨c, hc⟩ := h.shows p hp
    rw [hc.pending, List.length_singleton]
  · rw [h.none_of_not_mem hp]
    exact Nat.zero_le 1

theorem single_of_mem_cleared {e : Scheduled} (he : e ∈ (cleared s p).queue) : e.event.instanceId ≠ 0 := by
  intro hZero
  have hFirst : e ∈ (cancel s 0 ⟨1, p.1, p.2, 0⟩).queue := mem_of_mem_cancel he
  have hFew : (s.queue.filter fun e => e.event.same ⟨1, p.1, p.2, 0⟩).length ≤ 1 := zeros_length_le h hAlone
  have hNone := cancel_clears hFew 0
  exact List.filter_eq_nil_iff.mp hNone e hFirst (decide_eq_true hZero.symm)

theorem cleared_filter_global (q : MapDifficulty) :
    (cleared s p).queue.filter (Scheduled.isGlobal q) = [] := by
  rw [List.filter_eq_nil_iff]
  intro e he hGlobal
  exact single_of_mem_cleared h hAlone he (Scheduled.isGlobal_iff.mp hGlobal).1

omit h in
theorem filter_global_of_alone (hNe : p ≠ q) : s.queue.filter (Scheduled.isGlobal q) = [] := by
  rw [List.filter_eq_nil_iff]
  intro e he hGlobal
  obtain ⟨hZero, rfl⟩ := Scheduled.isGlobal_iff.mp hGlobal
  exact hNe (hAlone e he hZero).symm

theorem eq_of_raid (hq : q ∈ cfg.raids) : p = q := by
  by_contra hNe
  obtain ⟨d, hd⟩ := h.shows q hq
  have hNone := hd.pending.symm.trans (filter_global_of_alone hAlone hNe)
  cases hNone

omit h in
theorem cleared_filter_others :
    (cleared s p).queue.filter (fun e => !e.isGlobal p) = s.queue.filter fun e => !e.isGlobal p := by
  have hKind : ∀ e ∈ s.queue, (!e.isGlobal p) = decide (e.event.instanceId ≠ 0) := by
    intro e he
    rw [Bool.eq_iff_iff, decide_eq_true_iff, Bool.not_eq_true', ← Bool.not_eq_true,
      Scheduled.isGlobal_iff, not_and]
    exact ⟨fun hNot hZero => hNot hZero (hAlone e he hZero), fun hSingle hZero => absurd hZero hSingle⟩
  rw [List.filter_congr hKind, List.filter_congr fun e he => hKind e (mem_of_mem_cleared he)]
  exact cleared_filter_single

end Alone

/-! ## Steps -/

theorem resetsOf_turned_self (c : Clock) (resetTime : Nat) (rest : List Scheduled) :
    resetsOf (turned s p c [(p, resetTime)] rest) p = resetsOf s p ++ [resetTime] := by
  rw [turned, resetsOf_append, List.filter_cons_of_pos (by simp)]
  rfl

theorem resetsOf_turned_none (c : Clock) (rest : List Scheduled) (q : MapDifficulty) :
    resetsOf (turned s p c [] rest) q = resetsOf s q ++ [] := resetsOf_append [] _ _ q

theorem resetsOf_turned_other (hNe : p ≠ q) (c : Clock) (resetTime : Nat) (rest : List Scheduled) :
    resetsOf (turned s p c [(p, resetTime)] rest) q = resetsOf s q ++ [] := by
  rw [turned, resetsOf_append, List.filter_cons_of_neg (by simp [hNe])]
  rfl

theorem resetsOf_turned_entries_other (hNe : p ≠ q) (rest : List Scheduled) :
    resetsOf (turned s p (c.next cfg p) (resetEntries p c) rest) q = resetsOf s q ++ [] := by
  rw [resetEntries]
  split
  · exact resetsOf_turned_other hNe _ _ _
  · exact resetsOf_turned_none _ _ _

theorem dueAtFront_iff {front : Scheduled} {rest : List Scheduled} (hQueue : s.queue = front :: rest)
    (now : Nat) :
    dueAtFront s p now = true ↔ front.isGlobal p = true ∧ front.time < now := by
  rw [dueAtFront, hQueue, List.head?_cons, Option.any_some, Bool.and_eq_true, decide_eq_true_iff]

theorem dueAtFront_of_later (h : ∀ front ∈ s.queue.head?, (now : Int) ≤ front.time) :
    dueAtFront s p now = false := by
  cases hQueue : s.queue with
  | nil =>
    rw [dueAtFront, hQueue]
    rfl
  | cons front rest =>
    apply Bool.eq_false_iff.mpr
    rw [Ne, dueAtFront_iff hQueue]
    rintro ⟨-, hTime⟩
    rw [hQueue] at h
    exact absurd (h front rfl) (not_le.mpr hTime)

theorem clock_of_not_due {now : Nat} (h : dueAtFront s p now = false) :
    clockAfter cfg s (.update now) p c = c ∧ resetsDue cfg s (.update now) p c = [] := by
  simp only [clockAfter, resetsDue, h, Bool.false_eq_true, if_false, false_and]
  exact ⟨trivial, trivial⟩

theorem clock_of_not_forced (h : forced cfg p mapId difficulty = false) :
    clockAfter cfg s (.force mapId difficulty now) p c = c ∧
      resetsDue cfg s (.force mapId difficulty now) p c = [] := by
  simp only [clockAfter, resetsDue, h, Bool.false_eq_true, if_false]
  exact ⟨trivial, trivial⟩

def Good (cfg : Config) (s : Schedule) (r : Request) : Prop :=
  (OnSchedule cfg s r ∧ Untouched cfg s r) ∧ Ruled cfg.raids (step cfg s r)

theorem update_good (h : Ruled cfg.raids s) (hProper : Proper cfg s (.update now)) :
    Good cfg s (.update now) := by
  obtain ⟨hSame, hLater⟩ | ⟨front, rest, hQueue, hSingle, hRest⟩ |
      ⟨p, c, rest, hp, hc, hQueue, hDue, hTurned⟩ :=
    updateRound_cases h hProper
  · have hUnmoved : Unmoved s (step cfg s (.update now)) := by
      rw [step, hSame]
      exact Unmoved.refl s
    refine ⟨⟨?_, trivial⟩, hUnmoved.ruled h⟩
    exact .of_unmoved hUnmoved fun _ _ _ _ => clock_of_not_due (dueAtFront_of_later hLater)
  · have hUnmoved : Unmoved s (step cfg s (.update now)) := by
      rw [step, hRest]
      exact Unmoved.pop hQueue hSingle
    refine ⟨⟨?_, trivial⟩, hUnmoved.ruled h⟩
    refine .of_unmoved hUnmoved fun p _ _ _ => clock_of_not_due (Bool.eq_false_iff.mpr fun hDue => ?_)
    have hGlobal := ((dueAtFront_iff hQueue now).mp hDue).1
    rw [isGlobal_of_single hSingle] at hGlobal
    cases hGlobal
  · have hSelf : (c.event p).isGlobal p = true := Clock.isGlobal_event.mpr rfl
    have hNone : rest.filter (Scheduled.isGlobal p) = [] := by
      have hPending := hc.pending
      rw [hQueue, List.filter_cons_of_pos hSelf] at hPending
      exact (List.cons.inj hPending).2
    have hOthers : ∀ q, p ≠ q →
        rest.filter (Scheduled.isGlobal q) = s.queue.filter (Scheduled.isGlobal q) := by
      intro q hNe
      rw [hQueue, List.filter_cons_of_neg (by simp [isGlobal_event_of_ne hNe])]
    have hSub : ∀ e ∈ rest, e ∈ s.queue := by
      intro e he
      rw [hQueue]
      exact List.mem_cons_of_mem _ he
    rw [Good, OnSchedule, step, hTurned]
    refine ⟨⟨?_, trivial⟩, h.turned hp hc.valid.next hSub hNone hOthers⟩
    intro q hq d hd
    by_cases hNe : p = q
    · subst hNe
      obtain rfl := hc.unique hd
      have hFront : dueAtFront s p now = true := (dueAtFront_iff hQueue now).mpr ⟨hSelf, hDue⟩
      simp only [clockAfter, resetsDue, hFront, if_true, true_and]
      refine ⟨turned_shows hc.valid.next hNone, ?_⟩
      rw [resetEntries]
      split
      · exact resetsOf_turned_self _ _ _
      · exact resetsOf_turned_none _ _ _
    · have hNotFront : dueAtFront s q now = false := by
        apply Bool.eq_false_iff.mpr
        rw [Ne, dueAtFront_iff hQueue, isGlobal_event_of_ne hNe]
        simp
      obtain ⟨hClock, hResets⟩ := @clock_of_not_due cfg s q d now hNotFront
      rw [hClock, hResets]
      exact ⟨turned_shows_other hNe hd (hOthers q hNe), resetsOf_turned_entries_other hNe rest⟩

theorem force_good (h : Ruled cfg.raids s)
    (hProper : Proper cfg s (.force mapId difficulty now)) : Good cfg s (.force mapId difficulty now) := by
  cases hScaled : cfg.downscaled (mapId, difficulty) with
  | none =>
    have hSame : step cfg s (.force mapId difficulty now) = s := by
      rw [step, forceGlobalReset, hScaled]
    have hUnmoved : Unmoved s (step cfg s (.force mapId difficulty now)) := by
      rw [hSame]
      exact Unmoved.refl s
    refine ⟨⟨?_, ?_⟩, hUnmoved.ruled h⟩
    · refine .of_unmoved hUnmoved fun p _ _ _ => clock_of_not_forced (Bool.eq_false_iff.mpr fun hForced => ?_)
      rw [forced_iff, hScaled] at hForced
      cases hForced.2
    · simp only [Untouched, hScaled]
      exact hSame
  | some actual =>
    obtain ⟨hAlone, hMap⟩ := hProper actual hScaled
    have hStep : step cfg s (.force mapId difficulty now) =
        resetOrWarnAll cfg (cleared s (mapId, actual)) (mapId, actual) false now := by
      rw [step, forceGlobalReset, hScaled]
      rfl
    by_cases hp : (mapId, actual) ∈ cfg.raids
    · have hTurned : step cfg s (.force mapId difficulty now) =
          turned s (mapId, actual) ⟨cfg.subsequentResetTime (mapId, actual) now, 1⟩ [((mapId, actual), now)]
            (cleared s (mapId, actual)).queue := by
        rw [hStep, resetOrWarnAll_reset hp (hMap hp), turned_cleared]
      have hValid : Clock.Valid ⟨cfg.subsequentResetTime (mapId, actual) now, 1⟩ := ⟨le_refl 1, by simp⟩
      have hNone := cleared_filter_global h hAlone
      refine ⟨⟨?_, ?_⟩, ?_⟩
      · intro q hq d hd
        obtain rfl := eq_of_raid h hAlone hq
        have hForced : forced cfg (mapId, actual) mapId difficulty = true := forced_iff.mpr ⟨rfl, hScaled⟩
        simp only [clockAfter, resetsDue, hForced, if_true]
        rw [hTurned]
        exact ⟨turned_shows hValid (hNone _), resetsOf_turned_self _ _ _⟩
      · simp only [Untouched, hScaled]
        rw [hTurned, turned, insertUpper_filter_of_not]
        · exact cleared_filter_others hAlone
        · rw [Clock.isGlobal_event.mpr rfl]
          rfl
      · rw [hTurned]
        refine h.turned hp hValid (fun e => mem_of_mem_cleared) (hNone _) fun q hNe => ?_
        rw [hNone q, filter_global_of_alone hAlone hNe]
    · have hZero : cfg.subsequentResetTime (mapId, actual) now = 0 := by
        rw [Config.subsequentResetTime, if_pos (not_not.mp fun hNe => hp (Config.mem_raids.mpr hNe))]
      have hCleared : step cfg s (.force mapId difficulty now) = cleared s (mapId, actual) := by
        rw [hStep, resetOrWarnAll, if_pos (Or.inr (Or.inr hZero))]
      have hNoRaid : ∀ q, q ∉ cfg.raids := by
        intro q hq
        obtain rfl := eq_of_raid h hAlone hq
        exact hp hq
      refine ⟨⟨fun q hq => absurd hq (hNoRaid q), ?_⟩, ?_⟩
      · simp only [Untouched, hScaled]
        rw [hCleared]
        exact cleared_filter_others hAlone
      · rw [hCleared]
        exact ⟨fun q hq => absurd hq (hNoRaid q), fun e he => h.globals e (mem_of_mem_cleared he),
          fun e he => h.singles e (mem_of_mem_cleared he)⟩

theorem step_good (h : Ruled cfg.raids s) {r : Request} (hProper : Proper cfg s r) : Good cfg s r := by
  cases r with
  | update now => exact update_good h hProper
  | force mapId difficulty now => exact force_good h hProper
  | add accepted mapId instanceId difficulty resetTime now =>
    have hUnmoved : Unmoved s (step cfg s (.add accepted mapId instanceId difficulty resetTime now)) := by
      rw [step, addInstanceSave]
      split
      · exact Unmoved.refl s
      · rename_i hAdded
        exact Unmoved.add (fun hZero => hAdded (Or.inr (Or.inl hZero))) rfl
    exact ⟨⟨.of_unmoved hUnmoved fun _ _ _ _ => ⟨rfl, rfl⟩, trivial⟩, hUnmoved.ruled h⟩
  | cancelInstance time mapId difficulty instanceId positive =>
    have hUnmoved : Unmoved s (step cfg s (.cancelInstance time mapId difficulty instanceId positive)) :=
      Unmoved.cancel positive.ne' time
    refine ⟨⟨.of_unmoved hUnmoved fun _ _ _ _ => ⟨rfl, rfl⟩, ?_⟩, hUnmoved.ruled h⟩
    refine cancel_filter (fun e he => decide_eq_false fun hNe => hNe ?_) time
    exact (of_decide_eq_true he).symm

end AshamaneCore.Resets

/-!
## Runs of the reset schedule

After loading, the clock of every map that is reset as a whole goes through its warnings and
resets one by one, as long as no reset is forced while another map has a pending event.
-/

namespace AshamaneCore.Resets

open Library Library.Transition Library.OrderedQueue

variable {cfg : Config} {s : Schedule} {p : MapDifficulty}

/-! ## Loading -/

theorem startType_valid (now t : Nat) : Clock.Valid ⟨t, startType now t⟩ := by
  rw [Clock.Valid, startType]
  split
  · exact ⟨le_refl 1, by simp⟩
  · split
    · simp
    · split
      · simp
      · simp

variable {now : Nat}

theorem loadRow_ruled {row : Row} (h : Ruled [] s) : Ruled [] (loadRow now s row) := by
  rw [loadRow]
  split
  · exact (Unmoved.add row.positive.ne' rfl).ruled h
  · exact h

variable {rows : List Row}

theorem loadRaid_ruled {maps : List MapDifficulty} (h : Ruled maps s)
    (hp : p ∉ maps) (hRows : ∀ row ∈ rows, row.mapDifficulty ≠ p) :
    Ruled (maps ++ [p]) (loadRaid cfg now rows s p) := by
  have hEmpty : (rows.filter fun row => row.mapDifficulty = p) = [] := by
    rw [List.filter_eq_nil_iff]
    intro row hRow
    rw [decide_eq_true_iff]
    exact hRows row hRow
  have hTurned : loadRaid cfg now rows s p =
      turned s p
        ⟨startTime cfg now (s.resetTimes p) p, startType now (startTime cfg now (s.resetTimes p) p)⟩ [] s.queue := by
    rw [loadRaid, loadRaidAt, hEmpty, turned, List.append_nil]
    rfl
  have hNone := h.none_of_not_mem hp
  rw [hTurned]
  refine ⟨?_, ?_, ?_⟩
  · intro q hq
    rcases List.mem_append.mp hq with hOld | hNew
    · obtain ⟨d, hd⟩ := h.shows q hOld
      have hNe : p ≠ q := by
        rintro rfl
        exact hp hOld
      exact ⟨d, turned_shows_other hNe hd rfl⟩
    · obtain rfl := List.mem_singleton.mp hNew
      exact ⟨_, turned_shows (startType_valid now _) hNone⟩
  · intro e he hZero
    rcases mem_insertUpper.mp he with rfl | he
    · exact List.mem_append_right maps List.mem_cons_self
    · exact List.mem_append_left [p] (h.globals e he hZero)
  · intro e he hSingle
    rcases mem_insertUpper.mp he with rfl | he
    · exact absurd rfl hSingle
    · exact h.singles e he hSingle

theorem loadRaids_ruled {maps later : List MapDifficulty} (h : Ruled maps s)
    (hNodup : (maps ++ later).Nodup) (hRows : ∀ row ∈ rows, row.mapDifficulty ∉ later) :
    Ruled (maps ++ later) (later.foldl (loadRaid cfg now rows) s) := by
  induction later generalizing maps s with
  | nil =>
    rw [List.append_nil]
    exact h
  | cons p later ih =>
    have hFresh : p ∉ maps := fun hp => (List.nodup_append.mp hNodup).2.2 p hp p List.mem_cons_self rfl
    have hFirst : Ruled (maps ++ [p]) (loadRaid cfg now rows s p) := loadRaid_ruled h hFresh
      fun row hRow hSame => hRows row hRow (hSame ▸ List.mem_cons_self)
    rw [List.append_cons, List.foldl_cons]
    apply ih hFirst
    · rw [List.append_assoc]
      exact hNodup
    · exact fun row hRow hMem => hRows row hRow (List.mem_cons_of_mem p hMem)

theorem loadResetTimes_ruled (hRows : ∀ row ∈ rows, row.mapDifficulty ∉ cfg.raids)
    (now : Nat) (stored : MapDifficulty → Option Nat) :
    Ruled cfg.raids (loadResetTimes cfg now rows stored) := by
  have hStart : Ruled [] (rows.foldl (loadRow now) ⟨[], storedTimes cfg stored, []⟩) := by
    apply List.foldlRecOn rows (loadRow now)
    · exact ⟨by simp, by simp, by simp⟩
    · exact fun s hs row _ => loadRow_ruled hs
  exact loadRaids_ruled hStart Config.raids_nodup hRows

/-! ## Runs -/

/-- Every map that is reset as a whole has one pending event, the steps turn its clock and
nothing else, and leave the events of others alone. -/
def ScheduleKept (cfg : Config) (s : Schedule) (requests : List Request) : Prop :=
  (∀ first, first <+: requests → ∀ p ∈ cfg.raids, ∃ c, Shows (run (step cfg) s first) p c) ∧
    Along (step cfg) (fun s r => OnSchedule cfg s r ∧ Untouched cfg s r) s requests

theorem schedule_kept (cfg : Config) (now : Nat) (rows : List Row) (stored : MapDifficulty → Option Nat)
    (requests : List Request) (hRows : ∀ row ∈ rows, row.mapDifficulty ∉ cfg.raids)
    (h : Along (step cfg) (Proper cfg) (loadResetTimes cfg now rows stored) requests) :
    ScheduleKept cfg (loadResetTimes cfg now rows stored) requests := by
  have hLoaded := loadResetTimes_ruled hRows now stored
  constructor
  · intro first hPrefix
    have hRuled := invariant_along (fun s r (hs : Ruled cfg.raids s) hr => (step_good hs hr).2) hLoaded
      (Along.of_prefix hPrefix h)
    exact hRuled.shows
  · exact Along.judge (fun s r (hs : Ruled cfg.raids s) hr => step_good hs hr) hLoaded h

/-- Weekly resets at eight of some maps in one difficulty, at the rate one. -/
def weekly (maps : List Nat) (hNodup : ((maps.map fun mapId => ((mapId, 3), 7 * day)).map Prod.fst).Nodup) :
    Config where
  raidDurations := maps.map fun mapId => ((mapId, 3), 7 * day)
  distinct := hNodup
  scaled duration := duration
  resetTimeHour := 8
  instanceable _ := true
  isRaid mapId := decide (mapId ∈ maps)
  downscaled p := if p.1 ∈ maps then some 3 else none

/-- A single raid is warned of, reset and forced; an instance of another map comes and goes. -/
theorem schedule_kept_single_raid :
    ScheduleKept (weekly [631] (List.nodup_singleton (631, 3)))
      (loadResetTimes (weekly [631] (List.nodup_singleton (631, 3))) 0
        [⟨7, Nat.succ_pos 6, (36, 2), 9000⟩] fun _ => none)
      [.update 7000, .add true 33 8 1 0 7000, .update 632000, .update 640000, .update 640000, .update 640000,
        .update 640000, .update 640000, .force 631 4 640100, .cancelInstance 7300 33 1 8 (Nat.succ_pos 7)] := by
  apply schedule_kept
  · intro row hRow hMem
    rw [List.mem_singleton.mp hRow] at hMem
    revert hMem
    decide
  · refine ⟨?_, trivial, ?_, ?_, ?_, ?_, ?_, ?_, ?_, trivial, trivial⟩
    on_goal 8 =>
      intro actual hActual
      obtain rfl : 3 = actual := Option.some.inj hActual
      decide +kernel
    all_goals
      simp only [Proper]
      decide +kernel

/-- Forcing the reset of one raid takes the pending event of the other out of the schedule. -/
theorem forced_reset_stops_other :
    ¬ ScheduleKept (weekly [631, 533] (by simp))
        (loadResetTimes (weekly [631, 533] (by simp)) 0 [] fun _ => none) [.force 631 3 100] := by
  intro h
  obtain ⟨c, hc⟩ := h.1 [.force 631 3 100] List.prefix_rfl (533, 3) (by decide)
  have hNone : (run (step (weekly [631, 533] (by simp)))
      (loadResetTimes (weekly [631, 533] (by simp)) 0 [] fun _ => none) [.force 631 3 100]).queue.filter
        (Scheduled.isGlobal (533, 3)) = [] := by decide +kernel
  rw [hc.pending] at hNone
  cases hNone

end AshamaneCore.Resets
