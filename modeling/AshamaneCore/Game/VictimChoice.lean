import AshamaneCore.Game.ThreatOrder

/-!
# The choice of the next victim

The loop goes through the sorted list, past second choices and past those not far enough
above the current victim. A current victim that is a second choice is forgotten there. At
the end, behind a second choice, it starts over and takes any kind. What it takes is right
as long as nothing it goes past is missed in the end.
-/

namespace AshamaneCore.ThreatManager

variable (s : ThreatManager) (w : Surroundings)

def second (r : Nat) : Bool := w.secondChoice (s.unitOf r)

def attackable (r : Nat) : Bool := w.canCreatureAttack (s.unitOf r)

def level (victim r : Nat) : Bool := s.getThreat r ≤ s.getThreat victim * (11 / 10)

/-- The reference is above the victim by enough for where it stands. -/
def above (victim r : Nat) : Bool :=
  s.getThreat victim * (13 / 10) < s.getThreat r ||
    s.getThreat victim * (11 / 10) < s.getThreat r && w.withinMeleeRange (s.unitOf r)

def passed (currentVictim : Option Nat) (r : Nat) : Bool :=
  currentVictim.any fun victim => victim ≠ r && !s.level victim r && !s.above w victim r

def pick (currentVictim : Option Nat) (r : Nat) : Nat :=
  match currentVictim with
  | some victim => if s.level victim r && s.attackable w victim then victim else r
  | none => r

def stop (noPriorityTargetFound : Bool) (currentVictim : Option Nat) (l : List Nat) : Option Nat :=
  l.find? fun r =>
    (noPriorityTargetFound || !s.second w r) && (s.attackable w r && !s.passed w currentVictim r)

def endsSecond (l : List Nat) : Bool := l.getLast?.any (s.second w)

structure Preferred (r : Nat) : Prop where
  mem : r ∈ s.iThreatContainer
  attackable : s.attackable w r = true
  second : s.second w r = false

structure WellChosen (result : Option Nat) : Prop where
  someone : (∃ r ∈ s.iThreatContainer, s.attackable w r = true) →
    ∃ r ∈ s.iThreatContainer, result = some r ∧ s.attackable w r = true
  preferred : (∃ r, s.Preferred w r) → ∃ r, result = some r ∧ s.Preferred w r
  kept : ∀ victim, s.iCurrentVictim = some victim → s.attackable w victim = true →
    s.second w victim = false → ∃ r, result = some r ∧ (r = victim ∨ s.above w victim r = true)
  nobody : result = none → ∀ r ∈ s.iThreatContainer, s.attackable w r = false

/-- The current victim is a second choice, with these before and behind it. -/
structure SecondVictim (before : List Nat) (victim : Nat) (behind : List Nat) : Prop where
  current : s.iCurrentVictim = some victim
  second : s.second w victim = true
  split : s.iThreatContainer = before ++ victim :: behind
  first : victim ∉ before

inductive Suitable : Prop
  | nobody (hNobody : ∀ r ∈ s.iThreatContainer, s.attackable w r = false)
  | preferred (r : Nat) (hPreferred : s.Preferred w r) (hPassed : s.passed w s.iCurrentVictim r = false)
    (hVictim : ∀ victim, s.iCurrentVictim = some victim → s.second w victim = true →
      s.attackable w victim = true → s.level victim r = false)
  | behind (r : Nat) (hPreferred : s.Preferred w r) (before : List Nat) (victim : Nat) (behind : List Nat)
    (hVictim : s.SecondVictim w before victim behind) (hBehind : r ∈ behind)
    (hBefore : ∀ x ∈ before, s.Preferred w x → s.passed w s.iCurrentVictim x = true)
  | secondChoice (r : Nat) (hMem : r ∈ s.iThreatContainer) (hAttackable : s.attackable w r = true)
    (hEnd : s.endsSecond w s.iThreatContainer = true) (hSecond : ∀ x, ¬s.Preferred w x)
    (hReached : s.passed w s.iCurrentVictim r = true → ∃ before victim behind,
      s.SecondVictim w before victim behind ∧ behind ≠ [])
  | startedOver (before : List Nat) (victim : Nat) (behind : List Nat)
    (hVictim : s.SecondVictim w before victim behind) (hBehind : behind ≠ [])
    (hEnd : s.endsSecond w s.iThreatContainer = true)
    (hPassed : ∀ x, s.Preferred w x → s.passed w s.iCurrentVictim x = true)
    (r : Nat) (hPreferred : s.Preferred w r)
    (hFirst : s.iThreatContainer.find? (s.attackable w) = some r)

/-! ## The loop -/

/-- The loop as it is, with what is left of the list: none when the rounds are used up. -/
def victimLoop (l : List Nat) : Nat → List Nat → Bool → Option Nat → Option (Option Nat)
  | 0, _, _, _ => none
  | n + 1, rest, noPriorityTargetFound, currentVictim =>
    match rest with
    | [] => some none
    | r :: rest =>
      if !noPriorityTargetFound && s.second w r then
        if rest.isEmpty then victimLoop l n l true currentVictim
        else
          victimLoop l n rest noPriorityTargetFound
            (if currentVictim = some r then none else currentVictim)
      else if s.attackable w r then
        match currentVictim with
        | none => some (some r)
        | some victim =>
          if victim = r || s.level victim r then
            if victim ≠ r && s.attackable w victim then some (some victim) else some (some r)
          else if s.above w victim r then some (some r)
          else victimLoop l n rest noPriorityTargetFound currentVictim
      else victimLoop l n rest noPriorityTargetFound currentVictim

variable {s w}

theorem tests_eq {α : Type} (found : Nat → α) (next : α) (currentVictim : Option Nat) (r : Nat) :
    (if s.attackable w r then
      match currentVictim with
      | none => found r
      | some victim =>
        if victim = r || s.level victim r then
          if victim ≠ r && s.attackable w victim then found victim else found r
        else if s.above w victim r then found r
        else next
    else next) =
      if s.attackable w r && !s.passed w currentVictim r then found (s.pick w currentVictim r) else next := by
  cases hAttackable : s.attackable w r with
  | false => rfl
  | true =>
    cases currentVictim with
    | none => rfl
    | some victim =>
      simp only [passed, pick, Option.any_some, if_true, Bool.true_and]
      obtain rfl | hOther := eq_or_ne victim r
      · simp [hAttackable]
      · cases hLevel : s.level victim r <;> cases hAbove : s.above w victim r <;>
          cases hVictim : s.attackable w victim <;> simp [hOther]

theorem scan_cons (noPriorityTargetFound : Bool) (r : Nat) (rest : List Nat) (currentVictim : Option Nat) :
    s.scan w noPriorityTargetFound (r :: rest) currentVictim =
      if !noPriorityTargetFound && s.second w r then
        if rest.isEmpty then .onlySecondChoices currentVictim
        else s.scan w noPriorityTargetFound rest (if currentVictim = some r then none else currentVictim)
      else if s.attackable w r && !s.passed w currentVictim r then .found (s.pick w currentVictim r)
      else s.scan w noPriorityTargetFound rest currentVictim := by
  rw [← tests_eq]
  exact scan.eq_def ..

theorem victimLoop_cons (l : List Nat) (n : Nat) (noPriorityTargetFound : Bool) (r : Nat)
    (rest : List Nat) (currentVictim : Option Nat) :
    s.victimLoop w l (n + 1) (r :: rest) noPriorityTargetFound currentVictim =
      if !noPriorityTargetFound && s.second w r then
        if rest.isEmpty then s.victimLoop w l n l true currentVictim
        else
          s.victimLoop w l n rest noPriorityTargetFound (if currentVictim = some r then none else currentVictim)
      else if s.attackable w r && !s.passed w currentVictim r then some (some (s.pick w currentVictim r))
      else s.victimLoop w l n rest noPriorityTargetFound currentVictim := by
  rw [← tests_eq fun x => some (some x)]
  exact victimLoop.eq_def ..

variable {n : Nat} {rest : List Nat}

theorem victimLoop_again (l : List Nat) (h : rest.length < n)
    (currentVictim : Option Nat) : s.victimLoop w l n rest true currentVictim =
      some (match s.scan w true rest currentVictim with
        | .found r => some r
        | _ => none) := by
  induction rest generalizing n with
  | nil =>
    cases n with
    | zero => omega
    | succ n => rfl
  | cons r rest ih =>
    cases n with
    | zero => omega
    | succ n =>
      rw [victimLoop_cons, scan_cons, ih (Nat.lt_of_succ_lt_succ h)]
      simp only [Bool.not_true, Bool.false_and, if_neg Bool.false_ne_true]
      split
      · rfl
      · rfl

theorem victimLoop_eq (l : List Nat) (h : rest.length + l.length < n)
    (currentVictim : Option Nat) : s.victimLoop w l n rest false currentVictim =
      some (match s.scan w false rest currentVictim with
        | .nothing => none
        | .found r => some r
        | .onlySecondChoices currentVictim =>
          match s.scan w true l currentVictim with
          | .found r => some r
          | _ => none) := by
  induction rest generalizing n currentVictim with
  | nil =>
    cases n with
    | zero => omega
    | succ n => rfl
  | cons r rest ih =>
    cases n with
    | zero => omega
    | succ n =>
      rw [List.length_cons] at h
      have hRest := fun v => ih (n := n) (by omega) v
      rw [victimLoop_cons, scan_cons]
      split
      · split
        · exact victimLoop_again l (by omega) currentVictim
        · exact hRest _
      · split
        · rfl
        · exact hRest _

theorem victimLoop_ends (h : 2 * s.iThreatContainer.length < n) :
    s.victimLoop w s.iThreatContainer n s.iThreatContainer false s.iCurrentVictim =
      some (s.selectNextVictim w) := by
  rw [victimLoop_eq s.iThreatContainer (by omega)]
  rfl

/-! ## Where it stops -/

theorem stop_cons (noPriorityTargetFound : Bool) (currentVictim : Option Nat) (r : Nat) (rest : List Nat) :
    s.stop w noPriorityTargetFound currentVictim (r :: rest) =
      if (noPriorityTargetFound || !s.second w r) && (s.attackable w r && !s.passed w currentVictim r) then
        some r
      else s.stop w noPriorityTargetFound currentVictim rest := by
  unfold stop
  rw [List.find?_cons]
  split
  · rename_i hStop
    rw [if_pos hStop]
  · rename_i hGo
    rw [if_neg (Bool.not_eq_true _ ▸ hGo)]

theorem scan_again (l : List Nat) (currentVictim : Option Nat) :
    s.scan w true l currentVictim = match s.stop w true currentVictim l with
      | some r => .found (s.pick w currentVictim r)
      | none => .nothing := by
  induction l with
  | nil => rfl
  | cons r rest ih =>
    rw [scan_cons, stop_cons, ih]
    cases s.attackable w r && !s.passed w currentVictim r with
    | true => rfl
    | false => rfl

variable {r : Nat}

theorem endsSecond_cons (h : rest ≠ []) :
    s.endsSecond w (r :: rest) = s.endsSecond w rest := by
  unfold endsSecond
  rw [List.getLast?_cons_of_ne_nil h]

variable {l : List Nat} {currentVictim : Option Nat}

theorem scan_first (h : ∀ r ∈ l, currentVictim = some r → s.second w r = false) :
    s.scan w false l currentVictim = match s.stop w false currentVictim l with
      | some r => .found (s.pick w currentVictim r)
      | none => if s.endsSecond w l then .onlySecondChoices currentVictim else .nothing := by
  induction l with
  | nil => rfl
  | cons r rest ih =>
    have hRest := ih fun x hx => h x (List.mem_cons_of_mem _ hx)
    rw [scan_cons, stop_cons]
    cases hSecond : s.second w r with
    | true =>
      have hOther : currentVictim ≠ some r := fun hEq =>
        Bool.noConfusion ((h r List.mem_cons_self hEq).symm.trans hSecond)
      cases rest with
      | nil => simp [endsSecond, hSecond, stop]
      | cons y rest =>
        rw [if_neg hOther, hRest, endsSecond_cons (List.cons_ne_nil y rest)]
        rfl
    | false =>
      cases hStop : s.attackable w r && !s.passed w currentVictim r with
      | true => rfl
      | false =>
        cases rest with
        | nil => simp [endsSecond, hSecond, stop, scan]
        | cons y rest =>
          rw [hRest, endsSecond_cons (List.cons_ne_nil y rest)]
          rfl

variable {victim : Nat} {before behind : List Nat}

theorem scan_forgets (hSecond : s.second w victim = true)
    (hBefore : victim ∉ before) :
    s.scan w false (before ++ victim :: behind) (some victim) =
      match s.stop w false (some victim) before with
      | some r => .found (s.pick w (some victim) r)
      | none => if behind.isEmpty then .onlySecondChoices (some victim) else s.scan w false behind none := by
  induction before with
  | nil =>
    rw [List.nil_append, scan_cons, hSecond]
    simp [stop]
  | cons r rest ih =>
    obtain ⟨hOther, hRest⟩ := not_or.mp (List.mem_cons.not.mp hBefore)
    rw [List.cons_append, scan_cons, stop_cons, ih hRest]
    cases hKind : s.second w r with
    | true =>
      have hMore : (rest ++ victim :: behind).isEmpty = false := by simp
      rw [hMore, if_neg fun hEq => hOther (Option.some.inj hEq), ih hRest]
      rfl
    | false =>
      cases s.attackable w r && !s.passed w (some victim) r with
      | true => rfl
      | false => rfl

variable {noPriorityTargetFound : Bool}

theorem stop_some (h : s.stop w noPriorityTargetFound currentVictim l = some r) :
    r ∈ l ∧ (noPriorityTargetFound = false → s.second w r = false) ∧ s.attackable w r = true ∧
      s.passed w currentVictim r = false := by
  have hStop := List.find?_some h
  simp only [Bool.and_eq_true, Bool.or_eq_true, Bool.not_eq_true'] at hStop
  obtain ⟨hKind, hAttackable, hPassed⟩ := hStop
  refine ⟨List.mem_of_find?_eq_some h, ?_, hAttackable, hPassed⟩
  rintro rfl
  exact hKind.resolve_left Bool.false_ne_true

theorem stop_none (h : s.stop w noPriorityTargetFound currentVictim l = none) (hr : r ∈ l)
    (hKind : noPriorityTargetFound = false → s.second w r = false) (hAttackable : s.attackable w r = true) :
    s.passed w currentVictim r = true := by
  have hGo := List.find?_eq_none.mp h r hr
  cases hPassed : s.passed w currentVictim r with
  | true => rfl
  | false =>
    refine absurd ?_ hGo
    cases noPriorityTargetFound with
    | true => simp [hAttackable, hPassed]
    | false => simp [hAttackable, hPassed, hKind rfl]

theorem exists_stop (hr : r ∈ l) (hKind : noPriorityTargetFound = false → s.second w r = false)
    (hAttackable : s.attackable w r = true) (hPassed : s.passed w currentVictim r = false) :
    ∃ x, s.stop w noPriorityTargetFound currentVictim l = some x := by
  cases hStop : s.stop w noPriorityTargetFound currentVictim l with
  | some x => exact ⟨x, rfl⟩
  | none => exact Bool.noConfusion (hPassed.symm.trans (stop_none hStop hr hKind hAttackable))

theorem pick_cases (currentVictim : Option Nat) (r : Nat) :
    s.pick w currentVictim r = r ∧ (∀ victim, currentVictim = some victim →
        s.attackable w victim = true → s.level victim r = false) ∨
      ∃ victim, currentVictim = some victim ∧ s.pick w currentVictim r = victim ∧
        s.level victim r = true ∧ s.attackable w victim = true := by
  cases currentVictim with
  | none => exact Or.inl ⟨rfl, fun victim hVictim => absurd hVictim (Option.some_ne_none victim).symm⟩
  | some victim =>
    rw [pick]
    cases hTest : s.level victim r && s.attackable w victim with
    | true =>
      obtain ⟨hLevel, hAttackable⟩ := Bool.and_eq_true_iff.mp hTest
      exact Or.inr ⟨victim, rfl, rfl, hLevel, hAttackable⟩
    | false =>
      refine Or.inl ⟨rfl, fun other hOther hAttackable => ?_⟩
      obtain rfl := Option.some.inj hOther
      rwa [hAttackable, Bool.and_true] at hTest

/-! ## What is chosen -/

theorem passed_self (victim : Nat) : s.passed w (some victim) victim = false := by
  simp [passed]

def Steady (s : ThreatManager) (w : Surroundings) : Prop :=
  ∀ victim, s.iCurrentVictim = some victim → s.second w victim = false

theorem again_eq (l : List Nat) (currentVictim : Option Nat) :
    (match s.scan w true l currentVictim with
      | .found r => some r
      | _ => none) = (s.stop w true currentVictim l).map (s.pick w currentVictim) := by
  rw [scan_again]
  cases s.stop w true currentVictim l with
  | some r => rfl
  | none => rfl

theorem select_steady (h : s.Steady w) : s.selectNextVictim w =
    match s.stop w false s.iCurrentVictim s.iThreatContainer with
    | some r => some (s.pick w s.iCurrentVictim r)
    | none =>
      if s.endsSecond w s.iThreatContainer then
        (s.stop w true s.iCurrentVictim s.iThreatContainer).map (s.pick w s.iCurrentVictim)
      else none := by
  unfold selectNextVictim
  rw [scan_first fun r _ hCurrent => h r hCurrent]
  cases s.stop w false s.iCurrentVictim s.iThreatContainer with
  | some r => rfl
  | none =>
    cases s.endsSecond w s.iThreatContainer with
    | false => rfl
    | true => exact again_eq s.iThreatContainer s.iCurrentVictim

theorem SecondVictim.endsSecond (h : s.SecondVictim w before victim behind) (hBehind : behind ≠ []) :
    s.endsSecond w s.iThreatContainer = s.endsSecond w behind := by
  rw [h.split]
  unfold ThreatManager.endsSecond
  rw [List.getLast?_append_cons, List.getLast?_cons_of_ne_nil hBehind]

theorem SecondVictim.endsSecond_last (h : s.SecondVictim w before victim []) :
    s.endsSecond w s.iThreatContainer = true := by
  rw [h.split]
  unfold ThreatManager.endsSecond
  rw [List.getLast?_append_cons]
  exact h.second

theorem select_last (h : s.SecondVictim w before victim []) :
    s.selectNextVictim w = match s.stop w false s.iCurrentVictim before with
    | some r => some (s.pick w s.iCurrentVictim r)
    | none => (s.stop w true s.iCurrentVictim s.iThreatContainer).map (s.pick w s.iCurrentVictim) := by
  unfold selectNextVictim
  rw [h.current, h.split, scan_forgets h.second h.first]
  cases s.stop w false (some victim) before with
  | some r => rfl
  | none => exact again_eq (before ++ [victim]) (some victim)

theorem select_forgets (h : s.SecondVictim w before victim behind)
    (hBehind : behind ≠ []) : s.selectNextVictim w = match s.stop w false s.iCurrentVictim before with
    | some r => some (s.pick w s.iCurrentVictim r)
    | none =>
      match s.stop w false none behind with
      | some r => some r
      | none =>
        if s.endsSecond w s.iThreatContainer then s.iThreatContainer.find? (s.attackable w) else none := by
  have hAny : s.iThreatContainer.find? (s.attackable w) =
      (s.stop w true none s.iThreatContainer).map (s.pick w none) := by
    have hId : s.pick w none = id := rfl
    rw [hId, Option.map_id, stop]
    exact congrArg (List.find? · s.iThreatContainer) (funext fun r => (Bool.and_true _).symm)
  rw [h.endsSecond hBehind, hAny]
  unfold selectNextVictim
  rw [h.current, h.split, scan_forgets h.second h.first]
  cases s.stop w false (some victim) before with
  | some r => rfl
  | none =>
    have hMore : behind.isEmpty = false := List.isEmpty_eq_false_iff.mpr hBehind
    rw [hMore, scan_first fun r _ hNone => absurd hNone (Option.some_ne_none r).symm]
    cases s.stop w false none behind with
    | some r => rfl
    | none =>
      cases s.endsSecond w behind with
      | false => rfl
      | true => exact again_eq (before ++ victim :: behind) none

theorem exists_select_of_stop {result : Option Nat}
    (h : s.stop w false s.iCurrentVictim l = some r)
    (hResult : result = some (s.pick w s.iCurrentVictim r))
    (hKeep : ∀ victim, s.iCurrentVictim = some victim → s.attackable w victim = true →
      s.level victim r = true → s.second w victim = false) :
    ∃ x, result = some x ∧ s.second w x = false := by
  obtain ⟨-, hSecond, -, -⟩ := stop_some h
  refine ⟨_, hResult, ?_⟩
  obtain ⟨hPick, -⟩ | ⟨victim, hCurrent, hPick, hLevel, hAttackable⟩ :=
    s.pick_cases (w := w) s.iCurrentVictim r
  · rw [hPick]
    exact hSecond rfl
  · rw [hPick]
    exact hKeep victim hCurrent hAttackable hLevel

theorem exists_select_of_behind (h : s.SecondVictim w before victim behind) (hr : r ∈ behind)
    (hPreferred : s.Preferred w r)
    (hNone : s.stop w false s.iCurrentVictim before = none) :
    ∃ x, s.selectNextVictim w = some x ∧ s.second w x = false := by
  have hFound : ∃ x, s.stop w false none behind = some x :=
    exists_stop hr (fun _ => hPreferred.second) hPreferred.attackable rfl
  obtain ⟨x, hStop⟩ := hFound
  obtain ⟨-, hSecond, -, -⟩ := stop_some hStop
  refine ⟨x, ?_, hSecond rfl⟩
  rw [select_forgets h (List.ne_nil_of_mem hr), hNone, hStop]

theorem stop_before (hSorted : Sorted s) {g : Nat}
    (hSplit : s.iThreatContainer = before ++ rest)
    (h : s.stop w false s.iCurrentVictim before = some g) (hPreferred : s.Preferred w r)
    (hPassed : s.passed w s.iCurrentVictim r = false) : s.getThreat r ≤ s.getThreat g := by
  obtain ⟨-, front, back, hBefore, hFront⟩ := List.find?_eq_some_iff_append.mp h
  have hOut : r ∉ front := fun hIn => by
    have hGo := hFront r hIn
    simp [hPreferred.second, hPreferred.attackable, hPassed] at hGo
  have hList : s.iThreatContainer = front ++ g :: (back ++ rest) := by
    rw [hSplit, hBefore, List.append_assoc, List.cons_append]
  have hMem := hPreferred.mem
  unfold Sorted at hSorted
  rw [hList] at hSorted hMem
  obtain hTail := (List.mem_append.mp hMem).resolve_left hOut
  obtain rfl | hBehind := List.mem_cons.mp hTail
  · exact le_refl _
  · exact (List.pairwise_cons.mp (List.pairwise_append.mp hSorted).2.1).1 r hBehind

theorem level_of_le {g : Nat} (h : s.getThreat r ≤ s.getThreat g) (hLevel : s.level victim g = true) :
    s.level victim r = true :=
  decide_eq_true (h.trans (of_decide_eq_true hLevel))

theorem suitable_of_second (h : s.SecondVictim w before victim behind) {x : Nat}
    (hResult : s.selectNextVictim w = some x)
    (hSecond : s.second w x = false) : s.Suitable w := by
  have hBefore : ∀ y ∈ before, y ∈ s.iThreatContainer := fun y hy =>
    h.split ▸ List.mem_append_left _ hy
  have hNot : victim ≠ x := by
    rintro rfl
    cases h.second.symm.trans hSecond
  have hFirst : ∀ g, s.stop w false s.iCurrentVictim before = some g →
      s.pick w s.iCurrentVictim g = x → s.Suitable w := by
    intro g hStop hPick
    obtain ⟨hMem, hKind, hAttackable, hPassed⟩ := stop_some hStop
    refine .preferred g ⟨hBefore g hMem, hAttackable, hKind rfl⟩ hPassed fun other hOther _ hCan => ?_
    obtain ⟨-, hLevel⟩ | ⟨other, hCurrent, hSame, -⟩ := s.pick_cases (w := w) s.iCurrentVictim g
    · exact hLevel other hOther hCan
    · obtain rfl := Option.some.inj (h.current.symm.trans hCurrent)
      exact absurd (hSame.symm.trans hPick) hNot
  have hPassed : ∀ y ∈ before, s.stop w false s.iCurrentVictim before = none → s.Preferred w y →
      s.passed w s.iCurrentVictim y = true := fun y hy hNone hy' =>
    stop_none hNone hy (fun _ => hy'.second) hy'.attackable
  obtain rfl | hBehind := eq_or_ne behind []
  · rw [select_last h] at hResult
    split at hResult
    · rename_i g hStop
      exact hFirst g hStop (Option.some.inj hResult)
    · rename_i hNone
      obtain ⟨g, hStop, hPick⟩ := Option.map_eq_some_iff.mp hResult
      obtain ⟨hMem, -, hAttackable, hGo⟩ := stop_some hStop
      obtain ⟨hSame, -⟩ | ⟨other, hCurrent, hSame, -⟩ := s.pick_cases (w := w) s.iCurrentVictim g
      · obtain rfl : g = x := hSame.symm.trans hPick
        have hIn : g ∈ before := by
          rw [h.split] at hMem
          obtain hIn | hEnd := List.mem_append.mp hMem
          · exact hIn
          · exact absurd (List.mem_singleton.mp hEnd).symm hNot
        cases hGo.symm.trans (stop_none hNone hIn (fun _ => hSecond) hAttackable)
      · obtain rfl := Option.some.inj (h.current.symm.trans hCurrent)
        exact absurd (hSame.symm.trans hPick) hNot
  · rw [select_forgets h hBehind] at hResult
    split at hResult
    · rename_i g hStop
      exact hFirst g hStop (Option.some.inj hResult)
    · rename_i hNone
      split at hResult
      · rename_i g hStop
        obtain ⟨hMem, hKind, hAttackable, -⟩ := stop_some hStop
        have hIn : g ∈ s.iThreatContainer :=
          h.split ▸ List.mem_append_right _ (List.mem_cons_of_mem _ hMem)
        exact .behind g ⟨hIn, hAttackable, hKind rfl⟩ before victim behind h hMem fun y hy hy' =>
          hPassed y hy hNone hy'
      · rename_i hBehindNone
        split at hResult
        · rename_i hEnd
          refine .startedOver before victim behind h hBehind hEnd (fun y hy => ?_) x
            ⟨List.mem_of_find?_eq_some hResult, List.find?_some hResult, hSecond⟩ hResult
          have hMem := hy.mem
          rw [h.split] at hMem
          obtain hIn | hTail := List.mem_append.mp hMem
          · exact hPassed y hIn hNone hy
          · obtain rfl | hIn := List.mem_cons.mp hTail
            · cases h.second.symm.trans hy.second
            · cases stop_none hBehindNone hIn (fun _ => hy.second) hy.attackable
        · cases hResult

theorem stop_eq_none (hSub : ∀ x ∈ l, x ∈ s.iThreatContainer)
    (hPassed : ∀ x ∈ l, s.Preferred w x → s.passed w currentVictim x = true) :
    s.stop w false currentVictim l = none := by
  cases hStop : s.stop w false currentVictim l with
  | none => rfl
  | some r =>
    obtain ⟨hMem, hKind, hAttackable, hGo⟩ := stop_some hStop
    cases hGo.symm.trans (hPassed r hMem ⟨hSub r hMem, hAttackable, hKind rfl⟩)

theorem select_startedOver (h : s.SecondVictim w before victim behind) (hBehind : behind ≠ [])
    (hEnd : s.endsSecond w s.iThreatContainer = true)
    (hPassed : ∀ x, s.Preferred w x → s.passed w s.iCurrentVictim x = true)
    (hPreferred : s.Preferred w r) (hFirst : s.iThreatContainer.find? (s.attackable w) = some r) :
    ∃ x, s.selectNextVictim w = some x ∧ s.second w x = false := by
  have hBefore : ∀ x ∈ before, x ∈ s.iThreatContainer := fun x hx => h.split ▸ List.mem_append_left _ hx
  have hStop := stop_eq_none hBefore fun x _ hx => hPassed x hx
  cases hNext : s.stop w false none behind with
  | some g =>
    obtain ⟨-, hKind, -, -⟩ := stop_some hNext
    refine ⟨g, ?_, hKind rfl⟩
    rw [select_forgets h hBehind, hStop, hNext]
  | none =>
    refine ⟨r, ?_, hPreferred.second⟩
    rw [select_forgets h hBehind, hStop, hNext]
    exact (if_pos hEnd).trans hFirst

section Victim

variable (hVictim : ∀ victim, s.iCurrentVictim = some victim → victim ∈ s.iThreatContainer)

include hVictim

theorem steady_or_second :
    s.Steady w ∨ ∃ before victim behind, s.SecondVictim w before victim behind := by
  obtain hSteady | hSecond := Classical.em (s.Steady w)
  · exact Or.inl hSteady
  · obtain ⟨victim, hRest⟩ := not_forall.mp hSecond
    obtain ⟨hCurrent, hKind⟩ := Classical.not_imp.mp hRest
    obtain ⟨before, behind, hSplit, hFirst⟩ := List.eq_append_cons_of_mem (hVictim victim hCurrent)
    exact Or.inr ⟨before, victim, behind, hCurrent, Bool.not_eq_false _ ▸ hKind, hSplit, hFirst⟩

variable {r : Nat}

theorem pick_attackable (hr : r ∈ s.iThreatContainer) (hAttackable : s.attackable w r = true) :
    s.pick w s.iCurrentVictim r ∈ s.iThreatContainer ∧
      s.attackable w (s.pick w s.iCurrentVictim r) = true := by
  obtain ⟨hPick, -⟩ | ⟨victim, hCurrent, hPick, -, hOther⟩ := s.pick_cases (w := w) s.iCurrentVictim r
  · rw [hPick]
    exact ⟨hr, hAttackable⟩
  · rw [hPick]
    exact ⟨hVictim victim hCurrent, hOther⟩

theorem stop_attackable {noPriorityTargetFound : Bool} {l : List Nat}
    (hSub : ∀ x ∈ l, x ∈ s.iThreatContainer)
    (h : s.stop w noPriorityTargetFound s.iCurrentVictim l = some r) :
    s.pick w s.iCurrentVictim r ∈ s.iThreatContainer ∧
      s.attackable w (s.pick w s.iCurrentVictim r) = true := by
  obtain ⟨hr, -, hAttackable, -⟩ := stop_some h
  exact pick_attackable hVictim (hSub r hr) hAttackable

theorem select_attackable (h : s.selectNextVictim w = some r) :
    r ∈ s.iThreatContainer ∧ s.attackable w r = true := by
  have hAll : ∀ x ∈ s.iThreatContainer, x ∈ s.iThreatContainer := fun _ hx => hx
  have hAgain : ∀ x, (s.stop w true s.iCurrentVictim s.iThreatContainer).map
      (s.pick w s.iCurrentVictim) = some x → x ∈ s.iThreatContainer ∧ s.attackable w x = true := by
    intro x hx
    obtain ⟨y, hStop, rfl⟩ := Option.map_eq_some_iff.mp hx
    exact stop_attackable hVictim hAll hStop
  obtain hSteady | ⟨before, victim, behind, hSecond⟩ := steady_or_second hVictim (w := w)
  · rw [select_steady hSteady] at h
    split at h
    · rename_i x hStop
      obtain rfl := Option.some.inj h
      exact stop_attackable hVictim hAll hStop
    · split at h
      · exact hAgain r h
      · cases h
  · have hBefore : ∀ x ∈ before, x ∈ s.iThreatContainer := fun x hx =>
      hSecond.split ▸ List.mem_append_left _ hx
    obtain rfl | hBehind := eq_or_ne behind []
    · rw [select_last hSecond] at h
      split at h
      · rename_i x hStop
        obtain rfl := Option.some.inj h
        exact stop_attackable hVictim hBefore hStop
      · exact hAgain r h
    · rw [select_forgets hSecond hBehind] at h
      split at h
      · rename_i x hStop
        obtain rfl := Option.some.inj h
        exact stop_attackable hVictim hBefore hStop
      · split at h
        · rename_i x hStop
          obtain rfl := Option.some.inj h
          obtain ⟨hIn, -, hAttackable, -⟩ := stop_some hStop
          have hMem : x ∈ before ++ victim :: behind :=
            List.mem_append_right _ (List.mem_cons_of_mem _ hIn)
          exact ⟨hSecond.split ▸ hMem, hAttackable⟩
        · split at h
          · exact ⟨List.mem_of_find?_eq_some h, List.find?_some h⟩
          · cases h

theorem select_keeps {victim : Nat} (hCurrent : s.iCurrentVictim = some victim)
    (hAttackable : s.attackable w victim = true) (hSecond : s.second w victim = false) :
    ∃ r, s.selectNextVictim w = some r ∧ (r = victim ∨ s.above w victim r = true) := by
  have hSteady : s.Steady w := by
    intro other hOther
    obtain rfl := Option.some.inj (hCurrent.symm.trans hOther)
    exact hSecond
  have hPassed : s.passed w s.iCurrentVictim victim = false := by rw [hCurrent, passed_self]
  have hFound : ∃ r, s.stop w false s.iCurrentVictim s.iThreatContainer = some r :=
    exists_stop (hVictim victim hCurrent) (fun _ => hSecond) hAttackable hPassed
  obtain ⟨r, hStop⟩ := hFound
  refine ⟨s.pick w s.iCurrentVictim r, ?_, ?_⟩
  · rw [select_steady hSteady, hStop]
  · obtain ⟨-, -, -, hPassed⟩ := stop_some hStop
    obtain ⟨hPick, hLevel⟩ | ⟨other, hOther, hPick, -⟩ := s.pick_cases (w := w) s.iCurrentVictim r
    · rw [hPick]
      rw [hCurrent, passed, Option.any_some, hLevel victim hCurrent hAttackable] at hPassed
      obtain hSame | hDifferent := eq_or_ne r victim
      · exact Or.inl hSame
      · simpa [hDifferent, hDifferent.symm] using hPassed
    · rw [hPick]
      exact Or.inl (Option.some.inj (hOther.symm.trans hCurrent))

theorem wellChosen_iff : s.WellChosen w (s.selectNextVictim w) ↔
    ((∃ r ∈ s.iThreatContainer, s.attackable w r = true) → s.selectNextVictim w ≠ none) ∧
      ((∃ r, s.Preferred w r) → ∃ r, s.selectNextVictim w = some r ∧ s.second w r = false) := by
  constructor
  · intro h
    refine ⟨fun hSome hNone => ?_, fun hSome => ?_⟩
    · obtain ⟨r, -, hResult, -⟩ := h.someone hSome
      cases hNone.symm.trans hResult
    · obtain ⟨r, hResult, hPreferred⟩ := h.preferred hSome
      exact ⟨r, hResult, hPreferred.second⟩
  · rintro ⟨hSome, hKind⟩
    refine ⟨fun h => ?_, fun h => ?_, fun victim hCurrent hAttackable hSecond => ?_, fun hNone r hr => ?_⟩
    · obtain ⟨r, hResult⟩ := Option.ne_none_iff_exists'.mp (hSome h)
      obtain ⟨hMem, hAttackable⟩ := select_attackable hVictim hResult
      exact ⟨r, hMem, hResult, hAttackable⟩
    · obtain ⟨r, hResult, hSecond⟩ := hKind h
      obtain ⟨hMem, hAttackable⟩ := select_attackable hVictim hResult
      exact ⟨r, hResult, hMem, hAttackable, hSecond⟩
    · exact select_keeps hVictim hCurrent hAttackable hSecond
    · cases hAttackable : s.attackable w r with
      | false => rfl
      | true => exact absurd hNone (hSome ⟨r, hr, hAttackable⟩)

theorem suitable_of_steady (h : s.Steady w) {x : Nat} (hResult : s.selectNextVictim w = some x)
    (hSecond : s.second w x = false) : s.Suitable w := by
  rw [select_steady h] at hResult
  split at hResult
  · rename_i g hStop
    obtain ⟨hMem, hKind, hAttackable, hPassed⟩ := stop_some hStop
    refine .preferred g ⟨hMem, hAttackable, hKind rfl⟩ hPassed fun victim hCurrent hOther _ => ?_
    exact Bool.noConfusion ((h victim hCurrent).symm.trans hOther)
  · rename_i hNone
    exfalso
    split at hResult
    · obtain ⟨g, hStop, hPick⟩ := Option.map_eq_some_iff.mp hResult
      obtain ⟨hMem, -, hAttackable, hPassed⟩ := stop_some hStop
      obtain ⟨hSame, -⟩ | ⟨victim, hCurrent, hOther, -, hVictimAttackable⟩ :=
        s.pick_cases (w := w) s.iCurrentVictim g
      · obtain rfl : g = x := hSame.symm.trans hPick
        cases hPassed.symm.trans (stop_none hNone hMem (fun _ => hSecond) hAttackable)
      · have hGo := stop_none hNone (hVictim victim hCurrent) (fun _ => h victim hCurrent) hVictimAttackable
        rw [hCurrent, passed_self] at hGo
        cases hGo
    · cases hResult

theorem select_preferred (hSorted : Sorted s) (hPreferred : s.Preferred w r)
    (hPassed : s.passed w s.iCurrentVictim r = false)
    (hLevel : ∀ victim, s.iCurrentVictim = some victim → s.second w victim = true →
      s.attackable w victim = true → s.level victim r = false) :
    ∃ x, s.selectNextVictim w = some x ∧ s.second w x = false := by
  obtain hSteady | ⟨before, victim, behind, hSecond⟩ := steady_or_second hVictim (w := w)
  · have hFound : ∃ g, s.stop w false s.iCurrentVictim s.iThreatContainer = some g :=
      exists_stop hPreferred.mem (fun _ => hPreferred.second) hPreferred.attackable hPassed
    obtain ⟨g, hStop⟩ := hFound
    apply exists_select_of_stop hStop
    · rw [select_steady hSteady, hStop]
    · exact fun other hCurrent _ _ => hSteady other hCurrent
  · cases hStop : s.stop w false s.iCurrentVictim before with
    | some g =>
      apply exists_select_of_stop hStop
      · obtain rfl | hBehind := eq_or_ne behind []
        · rw [select_last hSecond, hStop]
        · rw [select_forgets hSecond hBehind, hStop]
      · intro other hCurrent hCan hNear
        obtain rfl := Option.some.inj (hSecond.current.symm.trans hCurrent)
        have hLe := stop_before hSorted hSecond.split hStop hPreferred hPassed
        cases (hLevel _ hCurrent hSecond.second hCan).symm.trans (level_of_le hLe hNear)
    | none =>
      have hMem := hPreferred.mem
      rw [hSecond.split] at hMem
      obtain hIn | hTail := List.mem_append.mp hMem
      · cases hPassed.symm.trans (stop_none hStop hIn (fun _ => hPreferred.second) hPreferred.attackable)
      · obtain rfl | hIn := List.mem_cons.mp hTail
        · cases hSecond.second.symm.trans hPreferred.second
        · exact exists_select_of_behind hSecond hIn hPreferred hStop

theorem select_secondChoice (hNone : ∀ x, ¬s.Preferred w x) : s.selectNextVictim w ≠ none ↔
    s.endsSecond w s.iThreatContainer = true ∧ ∃ r ∈ s.iThreatContainer, s.attackable w r = true ∧
      (s.passed w s.iCurrentVictim r = true → ∃ before victim behind,
        s.SecondVictim w before victim behind ∧ behind ≠ []) := by
  have hAgain : (s.stop w true s.iCurrentVictim s.iThreatContainer).map (s.pick w s.iCurrentVictim) ≠ none ↔
      ∃ r ∈ s.iThreatContainer, s.attackable w r = true ∧ s.passed w s.iCurrentVictim r = false := by
    rw [Ne, Option.map_eq_none_iff]
    constructor
    · intro hSome
      obtain ⟨r, hStop⟩ := Option.ne_none_iff_exists'.mp hSome
      obtain ⟨hMem, -, hAttackable, hPassed⟩ := stop_some hStop
      exact ⟨r, hMem, hAttackable, hPassed⟩
    · rintro ⟨r, hMem, hAttackable, hPassed⟩ hStop
      cases hPassed.symm.trans (stop_none hStop hMem (fun hFalse => Bool.noConfusion hFalse) hAttackable)
  have hStop : ∀ {currentVictim : Option Nat} {l : List Nat}, (∀ x ∈ l, x ∈ s.iThreatContainer) →
      s.stop w false currentVictim l = none := fun hSub =>
    stop_eq_none hSub fun x _ hx => absurd hx (hNone x)
  have hForgets : ∀ before victim behind, s.SecondVictim w before victim behind → behind ≠ [] →
      (s.selectNextVictim w ≠ none ↔ s.endsSecond w s.iThreatContainer = true ∧
        ∃ r ∈ s.iThreatContainer, s.attackable w r = true) := by
    intro before victim behind h hBehind
    have hBefore : ∀ x ∈ before, x ∈ s.iThreatContainer := fun x hx =>
      h.split ▸ List.mem_append_left _ hx
    have hTail : ∀ x ∈ behind, x ∈ s.iThreatContainer := fun x hx =>
      h.split ▸ List.mem_append_right _ (List.mem_cons_of_mem _ hx)
    rw [select_forgets h hBehind, hStop hBefore, hStop hTail]
    cases s.endsSecond w s.iThreatContainer with
    | false => simp
    | true => simp
  constructor
  · intro hSome
    obtain hSteady | ⟨before, victim, behind, hSecond⟩ := steady_or_second hVictim (w := w)
    · rw [select_steady hSteady, hStop fun _ hx => hx] at hSome
      cases hEnd : s.endsSecond w s.iThreatContainer with
      | false =>
        rw [hEnd] at hSome
        exact absurd rfl hSome
      | true =>
        rw [hEnd] at hSome
        obtain ⟨r, hMem, hAttackable, hPassed⟩ := hAgain.mp hSome
        exact ⟨rfl, r, hMem, hAttackable, fun hGo => Bool.noConfusion (hPassed.symm.trans hGo)⟩
    · obtain rfl | hBehind := eq_or_ne behind []
      · have hBefore : ∀ x ∈ before, x ∈ s.iThreatContainer := fun x hx =>
          hSecond.split ▸ List.mem_append_left _ hx
        rw [select_last hSecond, hStop hBefore] at hSome
        obtain ⟨r, hMem, hAttackable, hPassed⟩ := hAgain.mp hSome
        exact ⟨hSecond.endsSecond_last, r, hMem, hAttackable,
          fun hGo => Bool.noConfusion (hPassed.symm.trans hGo)⟩
      · obtain ⟨hEnd, r, hMem, hAttackable⟩ := (hForgets before victim behind hSecond hBehind).mp hSome
        exact ⟨hEnd, r, hMem, hAttackable, fun _ => ⟨before, victim, behind, hSecond, hBehind⟩⟩
  · rintro ⟨hEnd, r, hMem, hAttackable, hReached⟩
    cases hPassed : s.passed w s.iCurrentVictim r with
    | true =>
      obtain ⟨before, victim, behind, hSecond, hBehind⟩ := hReached hPassed
      exact (hForgets before victim behind hSecond hBehind).mpr ⟨hEnd, r, hMem, hAttackable⟩
    | false =>
      have hOver := hAgain.mpr ⟨r, hMem, hAttackable, hPassed⟩
      obtain hSteady | ⟨before, victim, behind, hSecond⟩ := steady_or_second hVictim (w := w)
      · rwa [select_steady hSteady, hStop fun _ hx => hx, hEnd]
      · obtain rfl | hBehind := eq_or_ne behind []
        · have hBefore : ∀ x ∈ before, x ∈ s.iThreatContainer := fun x hx =>
            hSecond.split ▸ List.mem_append_left _ hx
          rwa [select_last hSecond, hStop hBefore]
        · exact (hForgets before victim behind hSecond hBehind).mpr ⟨hEnd, r, hMem, hAttackable⟩

theorem wellChosen_iff_suitable (hSorted : Sorted s) :
    s.WellChosen w (s.selectNextVictim w) ↔ s.Suitable w := by
  rw [wellChosen_iff hVictim]
  constructor
  · rintro ⟨hSome, hKind⟩
    obtain hPreferred | hNone := Classical.em (∃ r, s.Preferred w r)
    · obtain ⟨x, hResult, hSecond⟩ := hKind hPreferred
      obtain hSteady | ⟨before, victim, behind, hVictimSecond⟩ := steady_or_second hVictim (w := w)
      · exact suitable_of_steady hVictim hSteady hResult hSecond
      · exact suitable_of_second hVictimSecond hResult hSecond
    · have hNone := not_exists.mp hNone
      obtain hAny | hNobody := Classical.em (∃ r ∈ s.iThreatContainer, s.attackable w r = true)
      · obtain ⟨hEnd, r, hMem, hAttackable, hReached⟩ :=
          (select_secondChoice hVictim hNone).mp (hSome hAny)
        exact .secondChoice r hMem hAttackable hEnd hNone hReached
      · refine .nobody fun r hr => ?_
        cases hAttackable : s.attackable w r with
        | false => rfl
        | true => exact absurd ⟨r, hr, hAttackable⟩ hNobody
  · intro h
    have hOf : (∃ x, s.selectNextVictim w = some x ∧ s.second w x = false) →
        ((∃ r ∈ s.iThreatContainer, s.attackable w r = true) → s.selectNextVictim w ≠ none) ∧
          ((∃ r, s.Preferred w r) → ∃ r, s.selectNextVictim w = some r ∧ s.second w r = false) := by
      rintro ⟨x, hResult, hSecond⟩
      exact ⟨fun _ hNone => Option.some_ne_none x (hResult.symm.trans hNone), fun _ => ⟨x, hResult, hSecond⟩⟩
    cases h with
    | nobody hNobody =>
      have hNot : ∀ {r}, r ∈ s.iThreatContainer → s.attackable w r ≠ true := fun hr hAttackable =>
        Bool.noConfusion ((hNobody _ hr).symm.trans hAttackable)
      constructor
      · rintro ⟨r, hr, hAttackable⟩
        exact absurd hAttackable (hNot hr)
      · rintro ⟨r, hPreferred⟩
        exact absurd hPreferred.attackable (hNot hPreferred.mem)
    | preferred r hPreferred hPassed hLevel =>
      exact hOf (select_preferred hVictim hSorted hPreferred hPassed hLevel)
    | behind r hPreferred before victim behind hSecond hBehind hBefore =>
      have hSub : ∀ x ∈ before, x ∈ s.iThreatContainer := fun x hx =>
        hSecond.split ▸ List.mem_append_left _ hx
      exact hOf (exists_select_of_behind hSecond hBehind hPreferred (stop_eq_none hSub hBefore))
    | secondChoice r hMem hAttackable hEnd hSecond hReached =>
      have hSome := (select_secondChoice hVictim hSecond).mpr ⟨hEnd, r, hMem, hAttackable, hReached⟩
      exact ⟨fun _ => hSome, fun ⟨x, hx⟩ => absurd hx (hSecond x)⟩
    | startedOver before victim behind hSecond hBehind hEnd hPassed r hPreferred hFirst =>
      exact hOf (select_startedOver hSecond hBehind hEnd hPassed hPreferred hFirst)

end Victim

/-! ## The choice as a whole -/

/-- The loop comes to an end, and what it returns is what is expected. -/
def RightVictim (s : ThreatManager) (w : Surroundings) : Prop :=
  ∃ result, (∀ n, 2 * s.iThreatContainer.length < n →
    s.victimLoop w s.iThreatContainer n s.iThreatContainer false s.iCurrentVictim = some result) ∧
    s.WellChosen w result

theorem rightVictim_iff (hSorted : Sorted s)
    (hVictim : ∀ victim, s.iCurrentVictim = some victim → victim ∈ s.iThreatContainer) :
    s.RightVictim w ↔ s.Suitable w := by
  rw [← wellChosen_iff_suitable hVictim hSorted]
  constructor
  · rintro ⟨result, hEnds, hChosen⟩
    obtain rfl := Option.some.inj ((hEnds _ (Nat.lt_succ_self _)).symm.trans
      (victimLoop_ends (Nat.lt_succ_self _)))
    exact hChosen
  · exact fun hChosen => ⟨s.selectNextVictim w, fun n => victimLoop_ends, hChosen⟩

/-- The second of two is the victim, the first one is a quarter above it. -/
def quarterAbove : ThreatManager where
  refs r := if r = 0 then ⟨⟨1, 0⟩, 125, 0, true, true, true⟩ else ⟨⟨2, 0⟩, 100, 0, true, true, true⟩
  next := 2
  iThreatContainer := [0, 1]
  iThreatOfflineContainer := []
  iCurrentVictim := some 1
  iDirty := false

theorem rightVictim_quarterAbove : quarterAbove.RightVictim openField := by
  refine (rightVictim_iff (by unfold Sorted; decide +kernel) fun victim hVictim => ?_).mpr
    (.preferred 0 ⟨by decide, rfl, rfl⟩ (by decide +kernel) fun victim _ hSecond => ?_)
  · obtain rfl := Option.some.inj hVictim
    decide
  · cases hSecond

def farAway : Surroundings where
  __ := openField
  canCreatureAttack unit := unit = ⟨1, 0⟩
  withinMeleeRange _ := false

/-- The victim cannot be attacked any more, and the other one is not above it by enough. -/
theorem misses_other : ¬ ∀ (s : ThreatManager) (w : Surroundings), s.iThreatContainer ≠ [] → Sorted s →
    (∀ victim, s.iCurrentVictim = some victim → victim ∈ s.iThreatContainer) → s.RightVictim w := by
  intro h
  have hSorted : Sorted quarterAbove := by
    unfold Sorted
    decide +kernel
  obtain ⟨result, hEnds, hChosen⟩ := h quarterAbove farAway (by decide) hSorted (by
    intro victim hVictim
    obtain rfl := Option.some.inj hVictim
    decide)
  obtain ⟨r, -, rfl, -⟩ := hChosen.someone ⟨0, by decide, by decide⟩
  have hNothing : quarterAbove.victimLoop farAway [0, 1] 5 [0, 1] false (some 1) = some none := by
    decide +kernel
  cases (hEnds 5 (by decide)).symm.trans hNothing

end AshamaneCore.ThreatManager
