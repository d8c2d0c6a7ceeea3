import AshamaneCore.Game.ResetSchedule

/-!
# Reset times after loading

A stored time that is over is moved by whole periods, from its day past the
current one. It comes at the hour of the configuration when these periods make
whole days.
-/

namespace AshamaneCore.Resets

open Library Library.OrderedQueue

variable {cfg : Config} {s : Schedule} {p q : MapDifficulty} {now t : Nat} {rows : List Row}

/-! ## What loading leaves -/

theorem loadRow_resetTimes (row : Row) : (loadRow now s row).resetTimes = s.resetTimes := by
  rw [loadRow]
  split
  · rfl
  · rfl

theorem loadRows_resetTimes : (rows.foldl (loadRow now) s).resetTimes = s.resetTimes := by
  induction rows generalizing s with
  | nil => rfl
  | cons row rows ih => rw [List.foldl_cons, ih, loadRow_resetTimes]

theorem foldl_schedule (rows : List Row) (s : Schedule) (time : Int) (event : Row → InstResetEvent) :
    (rows.foldl (fun s row => schedule s time (event row)) s).resetTimes = s.resetTimes ∧
      ∀ e ∈ s.queue, e ∈ (rows.foldl (fun s row => schedule s time (event row)) s).queue := by
  induction rows generalizing s with
  | nil => exact ⟨rfl, fun _ he => he⟩
  | cons row rows ih =>
    obtain ⟨hTimes, hQueue⟩ := ih (schedule s time (event row))
    exact ⟨hTimes, fun e he => hQueue e (mem_insertUpper.mpr (Or.inr he))⟩

structure Started (s : Schedule) (p : MapDifficulty) (c : Clock) : Prop where
  resetTime : s.resetTimes p = some c.resetTime
  pending : c.event p ∈ s.queue

def startClock (cfg : Config) (now : Nat) (stored : Option Nat) (p : MapDifficulty) : Clock :=
  ⟨startTime cfg now stored p, startType now (startTime cfg now stored p)⟩

theorem loadRaid_spec (cfg : Config) (now : Nat) (rows : List Row) (s : Schedule) (p : MapDifficulty) :
    (loadRaid cfg now rows s p).resetTimes =
      Function.update s.resetTimes p (some (startClock cfg now (s.resetTimes p) p).resetTime) ∧
    ∀ e, e = (startClock cfg now (s.resetTimes p) p).event p ∨ e ∈ s.queue → e ∈ (loadRaid cfg now rows s p).queue := by
  obtain ⟨hTimes, hQueue⟩ := foldl_schedule (rows.filter fun row => row.mapDifficulty = p)
    (schedule { s with resetTimes := Function.update s.resetTimes p (some (startTime cfg now (s.resetTimes p) p)) }
      ((startClock cfg now (s.resetTimes p) p).due) ⟨startType now (startTime cfg now (s.resetTimes p) p), p.1, p.2, 0⟩)
    ((startClock cfg now (s.resetTimes p) p).due)
    fun row => ⟨startType now (startTime cfg now (s.resetTimes p) p), p.1, p.2, row.instanceId⟩
  exact ⟨hTimes, fun e he => hQueue e (mem_insertUpper.mpr he)⟩

theorem loadRaid_started : Started (loadRaid cfg now rows s p) p (startClock cfg now (s.resetTimes p) p) := by
  obtain ⟨hTimes, hQueue⟩ := loadRaid_spec cfg now rows s p
  exact ⟨(congrFun hTimes p).trans (Function.update_self ..), hQueue _ (Or.inl rfl)⟩

theorem loadRaid_resetTimes_of_ne (cfg : Config) (now : Nat) (rows : List Row) (s : Schedule) (hNe : q ≠ p) :
    (loadRaid cfg now rows s p).resetTimes q = s.resetTimes q :=
  (congrFun (loadRaid_spec cfg now rows s p).1 q).trans (Function.update_of_ne hNe ..)

theorem Started.loadRaids {c : Clock} {maps : List MapDifficulty} (h : Started s q c) (hq : q ∉ maps) :
    Started (maps.foldl (loadRaid cfg now rows) s) q c := by
  induction maps generalizing s with
  | nil => exact h
  | cons p maps ih =>
    obtain ⟨hNe, hRest⟩ := not_or.mp (List.mem_cons.not.mp hq)
    refine ih ⟨(loadRaid_resetTimes_of_ne cfg now rows s hNe).trans h.resetTime, ?_⟩ hRest
    exact (loadRaid_spec cfg now rows s p).2 _ (Or.inr h.pending)

theorem loadRaids_started (cfg : Config) (now : Nat) (rows : List Row) (s : Schedule) {maps : List MapDifficulty}
    (hNodup : maps.Nodup) (hp : p ∈ maps) :
    Started (maps.foldl (loadRaid cfg now rows) s) p (startClock cfg now (s.resetTimes p) p) := by
  induction maps generalizing s with
  | nil => cases hp
  | cons q maps ih =>
    obtain ⟨hFresh, hRest⟩ := List.nodup_cons.mp hNodup
    rw [List.foldl_cons]
    rcases List.mem_cons.mp hp with rfl | hLater
    · exact loadRaid_started.loadRaids hFresh
    · have hNe : p ≠ q := fun hSame => hFresh (hSame ▸ hLater)
      rw [← loadRaid_resetTimes_of_ne cfg now rows s hNe]
      exact ih _ hRest hLater

theorem loadResetTimes_started (now : Nat) (rows : List Row) (hp : p ∈ cfg.raids)
    (stored : MapDifficulty → Option Nat) :
    Started (loadResetTimes cfg now rows stored) p (startClock cfg now (storedTimes cfg stored p) p) := by
  have hStarted := loadRaids_started cfg now rows (rows.foldl (loadRow now) ⟨[], storedTimes cfg stored, []⟩)
    Config.raids_nodup hp
  rwa [loadRows_resetTimes] at hStarted

/-! ## Whole days -/

def Config.aligned (cfg : Config) (old : Nat) : Nat := old / day * day + cfg.diff

/-- The number of periods that leads from the day of a time past the current day. -/
def Config.periodsPast (cfg : Config) (p : MapDifficulty) (now t : Nat) : Nat :=
  (now / day * day - t / day * day) / cfg.period p + 1

/-- A time that is not over is kept. One that is over is moved by periods that make whole days. Where there is no
time, which a stored time of zero says as well, one period of whole days is counted from the current day. -/
structure WholeDays (cfg : Config) (now : Nat) (stored : Option Nat) (p : MapDifficulty) : Prop where
  missing : stored = none → day ∣ cfg.period p
  zero : ∀ old, stored = some old → cfg.aligned old = 0 → day ∣ cfg.period p ∧ cfg.period p ∣ now / day * day
  expired : ∀ old, stored = some old → cfg.aligned old ≠ 0 → cfg.aligned old < now →
    day ∣ cfg.periodsPast p now (cfg.aligned old) * cfg.period p

structure FirstAhead (now t type : Nat) : Prop where
  one_le : 1 ≤ type
  le_four : type ≤ 4
  ahead : type < 4 → (now : Int) < t - resetTimeDelay type
  before : ∀ earlier, 1 ≤ earlier → earlier < type → (t : Int) - resetTimeDelay earlier ≤ now

structure OnTime (cfg : Config) (now : Nat) (stored : Option Nat) (p : MapDifficulty) (c : Clock) : Prop where
  not_past : now ≤ c.resetTime
  on_hour : c.resetTime % day = cfg.resetTimeHour * hour
  day_le : day ≤ cfg.period p
  periods : ∀ old, stored = some old → ∃ n, c.resetTime = cfg.aligned old + n * cfg.period p
  first : FirstAhead now c.resetTime c.type
  subsequent : cfg.subsequentResetTime p c.resetTime = c.resetTime + cfg.period p

theorem startType_first (now t : Nat) : FirstAhead now t (startType now t) := by
  have hDelays : resetTimeDelay 1 = 3600 ∧ resetTimeDelay 2 = 900 ∧ resetTimeDelay 3 = 300 := ⟨rfl, rfl, rfl⟩
  obtain ⟨hOne, hTwo, hThree⟩ := hDelays
  rw [startType]
  split
  · exact ⟨by decide, by decide, fun _ => by omega, fun earlier hLow hHigh => by omega⟩
  · split
    · refine ⟨by decide, by decide, fun _ => by omega, fun earlier hLow hHigh => ?_⟩
      obtain rfl : earlier = 1 := by omega
      omega
    · split
      · refine ⟨by decide, by decide, fun _ => by omega, fun earlier hLow hHigh => ?_⟩
        obtain rfl | rfl : earlier = 1 ∨ earlier = 2 := by omega
        · omega
        · omega
      · refine ⟨by decide, by decide, fun hFour => absurd hFour (by decide), fun earlier hLow hHigh => ?_⟩
        obtain rfl | rfl | rfl : earlier = 1 ∨ earlier = 2 ∨ earlier = 3 := by omega
        · omega
        · omega
        · omega

theorem FirstAhead.unique {type other : Nat} (h : FirstAhead now t type) (h' : FirstAhead now t other) :
    type = other := by
  rcases Nat.lt_trichotomy type other with hLess | hSame | hMore
  · have hAhead := h.ahead (Nat.lt_of_lt_of_le hLess h'.le_four)
    have hBefore := h'.before type h.one_le hLess
    omega
  · exact hSame
  · have hAhead := h'.ahead (Nat.lt_of_lt_of_le hMore h.le_four)
    have hBefore := h.before other h'.one_le hMore
    omega

theorem diff_lt (hHour : cfg.resetTimeHour ≤ 23) : cfg.diff + minute < day := by
  rw [Config.diff]
  simp only [hour, minute, day]
  omega

theorem on_hour_iff (hHour : cfg.resetTimeHour ≤ 23) (n : Nat) :
    (n + cfg.diff) % day = cfg.resetTimeHour * hour ↔ day ∣ n := by
  have hDiff := diff_lt hHour
  rw [← Config.diff]
  simp only [minute, day] at hDiff ⊢
  omega

theorem subsequent_eq (hHour : cfg.resetTimeHour ≤ 23) (hp : p ∈ cfg.raids)
    (hOn : t % day = cfg.resetTimeHour * hour) : cfg.subsequentResetTime p t = t + cfg.period p := by
  have hDiff := diff_lt hHour
  rw [← Config.diff] at hOn
  rw [Config.subsequentResetTime, if_neg (Config.mem_raids.mp hp)]
  simp only [minute, day] at hDiff hOn ⊢
  omega

theorem onTime_of (hHour : cfg.resetTimeHour ≤ 23) (hp : p ∈ cfg.raids) {stored : Option Nat} (hNow : now ≤ t)
    (hOn : t % day = cfg.resetTimeHour * hour)
    (hPeriods : ∀ old, stored = some old → ∃ n, t = cfg.aligned old + n * cfg.period p) :
    OnTime cfg now stored p ⟨t, startType now t⟩ where
  not_past := hNow
  on_hour := hOn
  day_le := cfg.day_le_period p
  periods := hPeriods
  first := startType_first now t
  subsequent := subsequent_eq hHour hp hOn

/-! ## The three ways to start -/

theorem day_dvd_today (now : Nat) : day ∣ now / day * day := Nat.dvd_mul_left _ _

theorem lt_today_add_day (now : Nat) : now < now / day * day + day := by
  simp only [day]
  omega

theorem startTime_of_zero (cfg : Config) (now : Nat) (p : MapDifficulty) {stored : Option Nat}
    (hZero : stored.getD 0 = 0) :
    startTime cfg now stored p = now / day * day + cfg.period p + cfg.diff := by
  have hPeriod := cfg.day_le_period p
  have hToday := lt_today_add_day now
  rw [startTime, initialTime, if_pos hZero, renewedTime, if_neg (by omega)]

theorem startTime_of_ahead (hSome : t ≠ 0) (hAhead : now ≤ t) : startTime cfg now (some t) p = t := by
  rw [startTime, initialTime, Option.getD_some, if_neg hSome, renewedTime, if_neg (Nat.not_lt.mpr hAhead)]

theorem startTime_of_expired (hSome : t ≠ 0) (hOver : t < now) :
    startTime cfg now (some t) p = t / day * day + cfg.periodsPast p now t * cfg.period p + cfg.diff := by
  rw [startTime, initialTime, Option.getD_some, if_neg hSome, renewedTime, if_pos hOver]
  rfl

theorem aligned_day (hHour : cfg.resetTimeHour ≤ 23) (old : Nat) :
    cfg.aligned old / day * day + cfg.diff = cfg.aligned old := by
  have hDiff := diff_lt hHour
  rw [Config.aligned]
  simp only [minute, day] at hDiff ⊢
  omega

theorem aligned_on_hour (hHour : cfg.resetTimeHour ≤ 23) (old : Nat) :
    cfg.aligned old % day = cfg.resetTimeHour * hour := (on_hour_iff hHour _).mpr (day_dvd_today old)

theorem lt_periodsPast (cfg : Config) (p : MapDifficulty) (now t : Nat) :
    now / day * day - t / day * day < cfg.periodsPast p now t * cfg.period p := by
  have hPeriod := cfg.day_le_period p
  have hPositive : 0 < cfg.period p := Nat.lt_of_lt_of_le (by decide) hPeriod
  rw [Config.periodsPast]
  generalize now / day * day - t / day * day = passed
  have hDivided := Nat.div_add_mod passed (cfg.period p)
  have hRest := Nat.mod_lt passed hPositive
  rw [Nat.add_mul, Nat.one_mul, Nat.mul_comm (passed / cfg.period p)]
  omega

theorem now_le_of_periodsPast (hDays : day ∣ cfg.periodsPast p now t * cfg.period p) :
    now ≤ t / day * day + cfg.periodsPast p now t * cfg.period p := by
  have hLater := lt_periodsPast cfg p now t
  have hToday := lt_today_add_day now
  obtain ⟨days, hPeriods⟩ := hDays
  rw [hPeriods] at hLater ⊢
  simp only [day] at hLater hToday ⊢
  omega

theorem startClock_onTime_iff (hHour : cfg.resetTimeHour ≤ 23) (hp : p ∈ cfg.raids) (stored : Option Nat) :
    OnTime cfg now stored p (startClock cfg now (stored.map cfg.aligned) p) ↔ WholeDays cfg now stored p := by
  have hPeriod := cfg.day_le_period p
  have hToday := lt_today_add_day now
  have hCounted : day ∣ now / day * day + cfg.period p ↔ day ∣ cfg.period p := Nat.dvd_add_right (day_dvd_today now)
  cases stored with
  | none =>
    have hStart : startTime cfg now none p = now / day * day + cfg.period p + cfg.diff := startTime_of_zero cfg now p rfl
    rw [startClock, Option.map_none, hStart]
    constructor
    · intro h
      refine ⟨fun _ => hCounted.mp ((on_hour_iff hHour _).mp h.on_hour), ?_, ?_⟩
      · intro old hOld
        cases hOld
      · intro old hOld
        cases hOld
    · intro h
      refine onTime_of hHour hp (by omega) ((on_hour_iff hHour _).mpr (hCounted.mpr (h.missing rfl))) ?_
      intro old hOld
      cases hOld
  | some old =>
    rw [startClock, Option.map_some]
    by_cases hZero : cfg.aligned old = 0
    · have hStart : startTime cfg now (some (cfg.aligned old)) p = now / day * day + cfg.period p + cfg.diff :=
        startTime_of_zero cfg now p hZero
      have hDiff : cfg.diff = 0 := by
        rw [Config.aligned] at hZero
        omega
      rw [hStart]
      constructor
      · intro h
        refine ⟨fun hNone => (nomatch hNone), ?_, ?_⟩
        · intro old' hOld _
          obtain ⟨n, hn⟩ := h.periods old' hOld
          cases hOld
          simp only [hZero, hDiff, Nat.add_zero, Nat.zero_add] at hn
          have hMultiple : cfg.period p ∣ now / day * day + cfg.period p := ⟨n, by rw [hn, Nat.mul_comm]⟩
          exact ⟨hCounted.mp ((on_hour_iff hHour _).mp h.on_hour), (Nat.dvd_add_left (Nat.dvd_refl _)).mp hMultiple⟩
        · intro old' hOld hNe
          cases hOld
          exact absurd hZero hNe
      · intro h
        obtain ⟨hDays, n, hn⟩ := h.zero old rfl hZero
        refine onTime_of hHour hp (by omega) ((on_hour_iff hHour _).mpr (hCounted.mpr hDays)) ?_
        intro old' hOld
        cases hOld
        refine ⟨n + 1, ?_⟩
        rw [hZero, hDiff, hn, Nat.add_mul, Nat.mul_comm n]
        omega
    · by_cases hAhead : now ≤ cfg.aligned old
      · rw [startTime_of_ahead hZero hAhead]
        constructor
        · intro _
          refine ⟨fun hNone => (nomatch hNone), fun old' hOld hZero' => ?_, fun old' hOld _ hOver => ?_⟩
          · cases hOld
            exact absurd hZero' hZero
          · cases hOld
            exact absurd hAhead (Nat.not_le.mpr hOver)
        · intro _
          refine onTime_of hHour hp hAhead (aligned_on_hour hHour old) ?_
          intro old' hOld
          cases hOld
          exact ⟨0, by omega⟩
      · have hOver := Nat.lt_of_not_le hAhead
        have hDay := aligned_day hHour old
        have hWhole : day ∣ cfg.aligned old / day * day +
            cfg.periodsPast p now (cfg.aligned old) * cfg.period p ↔
            day ∣ cfg.periodsPast p now (cfg.aligned old) * cfg.period p := Nat.dvd_add_right (day_dvd_today _)
        rw [startTime_of_expired hZero hOver]
        constructor
        · intro h
          refine ⟨fun hNone => (nomatch hNone), fun old' hOld hZero' => ?_, fun old' hOld _ _ => ?_⟩
          · cases hOld
            exact absurd hZero' hZero
          · cases hOld
            exact hWhole.mp ((on_hour_iff hHour _).mp h.on_hour)
        · intro h
          have hDays := h.expired old rfl hZero hOver
          have hNow := now_le_of_periodsPast hDays
          refine onTime_of hHour hp (by omega) ((on_hour_iff hHour _).mpr (hWhole.mpr hDays)) ?_
          intro old' hOld
          cases hOld
          exact ⟨cfg.periodsPast p now (cfg.aligned old), by omega⟩

/-! ## After loading -/

/-- The map and difficulty has a reset time that is on time, with its first event pending. -/
def LoadedOnTime (cfg : Config) (now : Nat) (rows : List Row) (stored : MapDifficulty → Option Nat)
    (p : MapDifficulty) : Prop :=
  ∃ c, Started (loadResetTimes cfg now rows stored) p c ∧ OnTime cfg now (stored p) p c

theorem loadedOnTime_iff (cfg : Config) (now : Nat) (rows : List Row) (stored : MapDifficulty → Option Nat)
    (p : MapDifficulty) (hHour : cfg.resetTimeHour ≤ 23) (hp : p ∈ cfg.raids) :
    LoadedOnTime cfg now rows stored p ↔ WholeDays cfg now (stored p) p := by
  have hStarted := loadResetTimes_started now rows hp stored
  rw [← startClock_onTime_iff hHour hp]
  constructor
  · rintro ⟨c, hc, hTime⟩
    have hSame : c = startClock cfg now ((stored p).map cfg.aligned) p := by
      obtain ⟨t, type⟩ := c
      have hReset := Option.some.inj (hc.resetTime.symm.trans hStarted.resetTime)
      simp only at hReset
      subst hReset
      have hType : type = startType now _ := hTime.first.unique (startType_first now _)
      rw [hType]
      rfl
    rwa [← hSame]
  · exact fun hTime => ⟨_, hStarted, hTime⟩

/-! ## A week at half the rate -/

/-- A raid of one week that is reset at four. The rate gives the exact product with a duration, in whole seconds. -/
def raidWeek (rate : Nat → Nat) : Config where
  raidDurations := [((631, 3), 604800)]
  distinct := List.nodup_singleton _
  scaled := rate
  resetTimeHour := 4
  instanceable _ := true
  isRaid _ := true
  downscaled _ := none

/-- At the rate one the stored time comes back a week later. -/
theorem loadedOnTime_week : LoadedOnTime (raidWeek id) 1000000 [] (fun _ => some 900000) (631, 3) := by
  refine (loadedOnTime_iff (raidWeek id) 1000000 [] (fun _ => some 900000) (631, 3) (by decide) (by decide)).mpr
    ⟨fun hNone => (nomatch hNone), fun old hOld hZero => ?_, fun old hOld _ _ => ?_⟩
  · cases hOld
    exact absurd hZero (by decide)
  · cases hOld
    decide

/-- At half the rate the period is three and a half days, and the reset comes at four in the afternoon. -/
theorem half_week_off_hour : (loadResetTimes (raidWeek (· / 2)) 1000000 [] fun _ => some 900000).resetTimes (631, 3) =
      some 1180800 ∧ 1180800 % day = 16 * hour ∧
    ¬ LoadedOnTime (raidWeek (· / 2)) 1000000 [] (fun _ => some 900000) (631, 3) := by
  have hRaid : ((631, 3) : MapDifficulty) ∈ (raidWeek (· / 2)).raids := by decide
  have hStarted := loadResetTimes_started 1000000 [] hRaid fun _ => some 900000
  have hTime : (loadResetTimes (raidWeek (· / 2)) 1000000 [] fun _ => some 900000).resetTimes (631, 3) = some 1180800 := by
    rw [hStarted.resetTime]
    decide
  refine ⟨hTime, by decide, ?_⟩
  rintro ⟨c, hc, hOnTime⟩
  have hReset : c.resetTime = 1180800 := Option.some.inj (hc.resetTime.symm.trans hTime)
  have hHour := hOnTime.on_hour
  rw [hReset] at hHour
  exact absurd hHour (by decide)

end AshamaneCore.Resets
