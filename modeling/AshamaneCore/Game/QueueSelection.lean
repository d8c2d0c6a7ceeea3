import AshamaneCore.Game.QueueMatches
import Mathlib.Algebra.Ring.Nat

/-!
# The selection of groups

The pools take groups of a list in its order, and what they have taken stands before what
is left of the list. A normal match goes on with the iterator of the side with fewer players
behind the group at which the first loop has stopped.
-/

namespace AshamaneCore.Battlegrounds

open Library

namespace BattlegroundQueue

def playersOf (q : BattlegroundQueue) (id : Nat) : Nat :=
  (q.group id).elim 0 fun ginfo => ginfo.players.entries.length

structure Selected (q : BattlegroundQueue) (ids left : List Nat) (bound : Nat) (pool : SelectionPool) :
    Prop where
  ahead : (pool.selectedGroups ++ left).Sublist ids
  uninvited : ∀ id ∈ pool.selectedGroups, q.uninvited id = true
  count : pool.playerCount = (pool.selectedGroups.map q.playersOf).sum
  bounded : pool.playerCount ≤ bound

variable {q : BattlegroundQueue} {ids left rest : List Nat} {bound desiredCount : Nat} {pool : SelectionPool}

theorem selected_init (q : BattlegroundQueue) (ids : List Nat) (bound : Nat) :
    q.Selected ids ids bound .init :=
  ⟨List.Sublist.refl ids, fun _ h => absurd h List.not_mem_nil, rfl, Nat.zero_le bound⟩

theorem Selected.skip {id : Nat} (h : q.Selected ids (id :: rest) bound pool) :
    q.Selected ids rest bound pool :=
  ⟨((List.sublist_cons_self id rest).append_left pool.selectedGroups).trans h.ahead, h.uninvited, h.count,
    h.bounded⟩

theorem Selected.mono (h : q.Selected ids left bound pool) {other : Nat} (hBound : bound ≤ other) :
    q.Selected ids left other pool :=
  ⟨h.ahead, h.uninvited, h.count, h.bounded.trans hBound⟩

theorem Selected.done (h : q.Selected ids left bound pool) : q.Selected ids [] bound pool := by
  refine ⟨?_, h.uninvited, h.count, h.bounded⟩
  rw [List.append_nil]
  exact (List.sublist_append_left _ _).trans h.ahead

theorem Selected.nodup (h : q.Selected ids left bound pool) (hNodup : ids.Nodup) :
    pool.selectedGroups.Nodup :=
  hNodup.sublist ((List.sublist_append_left _ _).trans h.ahead)

theorem addGroup_cases (pool : SelectionPool) (ginfo : GroupQueueInfo) (desiredCount : Nat) :
    ginfo.isInvitedToBGInstanceGUID = 0 ∧ pool.playerCount + ginfo.players.entries.length ≤ desiredCount ∧
        pool.addGroup ginfo desiredCount =
          (true, ⟨pool.selectedGroups ++ [ginfo.id], pool.playerCount + ginfo.players.entries.length⟩) ∨
      pool.addGroup ginfo desiredCount = (decide (pool.playerCount < desiredCount), pool) := by
  unfold SelectionPool.addGroup
  split
  · rename_i hFits
    exact Or.inl ⟨hFits.1, hFits.2, rfl⟩
  · exact Or.inr rfl

theorem Selected.addGroup {id : Nat} (h : q.Selected ids (id :: rest) bound pool) {ginfo : GroupQueueInfo}
    (hGroup : q.group id = some ginfo) (hDesired : desiredCount ≤ bound) :
    q.Selected ids rest bound (pool.addGroup ginfo desiredCount).2 := by
  obtain ⟨hFree, hFits, hAdd⟩ | hKeep := addGroup_cases pool ginfo desiredCount
  · have hId : ginfo.id = id := id_of_group hGroup
    have hPlayers : q.playersOf id = ginfo.players.entries.length := by
      unfold playersOf
      rw [hGroup, Option.elim_some]
    rw [hAdd, hId]
    constructor
    · have hAhead := h.ahead
      rwa [← List.append_cons] at *
    · intro other hOther
      obtain hOld | hNew := List.mem_append.mp hOther
      · exact h.uninvited other hOld
      · rw [List.mem_singleton.mp hNew, BattlegroundQueue.uninvited, hGroup]
        exact decide_eq_true hFree
    · rw [List.map_append, List.sum_append, ← h.count, List.map_singleton, List.sum_singleton, hPlayers]
    · exact hFits.trans hDesired
  · rw [hKeep]
    exact h.skip

theorem addGroup_full {ginfo : GroupQueueInfo} (h : (pool.addGroup ginfo desiredCount).1 = false) :
    (pool.addGroup ginfo desiredCount).2 = pool := by
  obtain ⟨-, -, hAdd⟩ | hKeep := addGroup_cases pool ginfo desiredCount
  · rw [hAdd] at h
    cases h
  · rw [hKeep]

theorem Selected.fill (h : q.Selected ids left bound pool) (hDesired : desiredCount ≤ bound) :
    q.Selected ids [] bound (q.fill desiredCount pool left) := by
  induction left generalizing pool with
  | nil => exact h
  | cons id rest ih =>
    rw [BattlegroundQueue.fill]
    split
    · exact ih h.skip
    · rename_i ginfo hFound
      split
      · exact ih (h.addGroup (Option.filter_eq_some_iff.mp hFound).1 hDesired)
      · exact h.done

theorem playerCount_fill (q : BattlegroundQueue) (desiredCount : Nat) (pool : SelectionPool)
    (ids : List Nat) : pool.playerCount ≤ (q.fill desiredCount pool ids).playerCount := by
  induction ids generalizing pool with
  | nil => exact le_refl _
  | cons id rest ih =>
    rw [BattlegroundQueue.fill]
    split
    · exact ih pool
    · rename_i ginfo hFound
      split
      · refine le_trans ?_ (ih _)
        obtain ⟨-, -, hAdd⟩ | hKeep := addGroup_cases pool ginfo desiredCount
        · rw [hAdd]
          exact Nat.le_add_right _ _
        · rw [hKeep]
      · exact le_refl _

/-! ## Normal matches -/

def selectUntil (q : BattlegroundQueue) (minPlayers maxPlayers : Nat) :
    SelectionPool → List Nat → SelectionPool × List Nat
  | pool, [] => (pool, [])
  | pool, id :: rest =>
    match (q.group id).filter fun ginfo => ginfo.isInvitedToBGInstanceGUID = 0 with
    | none => selectUntil q minPlayers maxPlayers pool rest
    | some ginfo =>
      if (pool.addGroup ginfo maxPlayers).2.playerCount ≥ minPlayers then
        ((pool.addGroup ginfo maxPlayers).2, id :: rest)
      else selectUntil q minPlayers maxPlayers (pool.addGroup ginfo maxPlayers).2 rest

/-- The check with the iterators as they are: none where one is advanced from the end. -/
def checkNormalMatchInPlace (q : BattlegroundQueue) (bracket : BracketId) (minPlayers maxPlayers : Nat)
    (balance testing : Bool) : Option (Bool × SelectionPools) :=
  let (alliancePool, allianceItr) :=
    q.selectUntil minPlayers maxPlayers .init (q.queuedGroups (normal bracket .alliance))
  let (hordePool, hordeItr) :=
    q.selectUntil minPlayers maxPlayers .init (q.queuedGroups (normal bracket .horde))
  if balance && (hordePool.playerCount ≥ minPlayers && alliancePool.playerCount ≥ minPlayers) then
    let pools : Option SelectionPools :=
      if hordePool.playerCount < alliancePool.playerCount then
        match hordeItr with
        | [] => none
        | _ :: rest => some ⟨alliancePool, q.fill alliancePool.playerCount hordePool rest⟩
      else
        match allianceItr with
        | [] => none
        | _ :: rest => some ⟨q.fill hordePool.playerCount alliancePool rest, hordePool⟩
    pools.map fun pools =>
      if pools.horde.playerCount > pools.alliance.playerCount + 2 ||
          pools.alliance.playerCount > pools.horde.playerCount + 2 then (false, pools)
      else
        (testing && (pools.alliance.playerCount > 0 || pools.horde.playerCount > 0) ||
          (pools.alliance.playerCount ≥ minPlayers && pools.horde.playerCount ≥ minPlayers), pools)
  else
    some (testing && (alliancePool.playerCount > 0 || hordePool.playerCount > 0) ||
      (alliancePool.playerCount ≥ minPlayers && hordePool.playerCount ≥ minPlayers),
      ⟨alliancePool, hordePool⟩)

theorem selectUntil_eq (q : BattlegroundQueue) (minPlayers maxPlayers : Nat) (pool : SelectionPool)
    (ids : List Nat) : q.fillUntil minPlayers maxPlayers pool ids =
      ((q.selectUntil minPlayers maxPlayers pool ids).1, (q.selectUntil minPlayers maxPlayers pool ids).2.tail) := by
  induction ids generalizing pool with
  | nil => rfl
  | cons id rest ih =>
    rw [fillUntil, selectUntil]
    cases (q.group id).filter fun ginfo => ginfo.isInvitedToBGInstanceGUID = 0 with
    | none => exact ih pool
    | some ginfo =>
      dsimp only
      split
      · rfl
      · exact ih _

variable {minPlayers : Nat}

theorem selectUntil_ne_nil {maxPlayers : Nat} (hFew : pool.playerCount < minPlayers)
    (h : minPlayers ≤ (q.selectUntil minPlayers maxPlayers pool ids).1.playerCount) :
    (q.selectUntil minPlayers maxPlayers pool ids).2 ≠ [] := by
  induction ids generalizing pool with
  | nil => exact absurd h (Nat.not_le.mpr hFew)
  | cons id rest ih =>
    rw [selectUntil] at h ⊢
    cases hFound : (q.group id).filter fun ginfo => ginfo.isInvitedToBGInstanceGUID = 0 with
    | none =>
      rw [hFound] at h
      exact ih hFew h
    | some ginfo =>
      rw [hFound] at h
      dsimp only at h ⊢
      split at h
      · rename_i hEnough
        rw [if_pos hEnough]
        exact List.cons_ne_nil id rest
      · rename_i hStill
        rw [if_neg hStill]
        exact ih (Nat.not_le.mp hStill) h

theorem Selected.selectUntil (h : q.Selected ids left bound pool) (minPlayers : Nat) :
    q.Selected ids (q.fillUntil minPlayers bound pool left).2 bound (q.fillUntil minPlayers bound pool left).1 := by
  induction left generalizing pool with
  | nil => exact h
  | cons id rest ih =>
    rw [fillUntil]
    split
    · exact ih h.skip
    · rename_i ginfo hFound
      have hNext := h.addGroup (Option.filter_eq_some_iff.mp hFound).1 (le_refl bound)
      split
      · exact hNext
      · exact ih hNext

theorem checkNormalMatchInPlace_eq (q : BattlegroundQueue) (bracket : BracketId)
    (hMin : 0 < minPlayers) (maxPlayers : Nat) (balance testing : Bool) :
    q.checkNormalMatchInPlace bracket minPlayers maxPlayers balance testing =
      some (q.checkNormalMatch bracket minPlayers maxPlayers balance testing) := by
  unfold checkNormalMatchInPlace checkNormalMatch
  rw [selectUntil_eq, selectUntil_eq]
  have hReached : ∀ team, minPlayers ≤ (q.selectUntil minPlayers maxPlayers .init
      (q.queuedGroups (normal bracket team))).1.playerCount → (q.selectUntil minPlayers maxPlayers .init
      (q.queuedGroups (normal bracket team))).2 ≠ [] := fun team h => selectUntil_ne_nil hMin h
  have hAlliance := hReached .alliance
  have hHorde := hReached .horde
  generalize q.selectUntil minPlayers maxPlayers .init (q.queuedGroups (normal bracket .alliance)) = alliance
    at hAlliance ⊢
  generalize q.selectUntil minPlayers maxPlayers .init (q.queuedGroups (normal bracket .horde)) = horde
    at hHorde ⊢
  obtain ⟨alliancePool, allianceItr⟩ := alliance
  obtain ⟨hordePool, hordeItr⟩ := horde
  dsimp only at hAlliance hHorde ⊢
  cases hBoth : balance && (hordePool.playerCount ≥ minPlayers && alliancePool.playerCount ≥ minPlayers) with
  | false => rfl
  | true =>
    obtain ⟨-, hPlayers⟩ := Bool.and_eq_true_iff.mp hBoth
    obtain ⟨hHordePlayers, hAlliancePlayers⟩ := Bool.and_eq_true_iff.mp hPlayers
    cases allianceItr with
    | nil => exact absurd rfl (hAlliance (of_decide_eq_true hAlliancePlayers))
    | cons a allianceRest =>
      cases hordeItr with
      | nil => exact absurd rfl (hHorde (of_decide_eq_true hHordePlayers))
      | cons b hordeRest =>
        simp only [if_true, List.tail_cons, Bool.true_and]
        split
        · rfl
        · rfl

theorem checked_iff {pools : SelectionPools} {balanced : Bool}
    (hBalanced : balanced = true →
      minPlayers ≤ pools.alliance.playerCount ∧ minPlayers ≤ pools.horde.playerCount) :
    (if balanced && (pools.horde.playerCount > pools.alliance.playerCount + 2 ||
        pools.alliance.playerCount > pools.horde.playerCount + 2) then (false, pools)
      else
        (false && (pools.alliance.playerCount > 0 || pools.horde.playerCount > 0) ||
          (pools.alliance.playerCount ≥ minPlayers && pools.horde.playerCount ≥ minPlayers), pools)).1 = true ↔
      minPlayers ≤ pools.alliance.playerCount ∧ minPlayers ≤ pools.horde.playerCount ∧
        (balanced = true → pools.horde.playerCount ≤ pools.alliance.playerCount + 2 ∧
          pools.alliance.playerCount ≤ pools.horde.playerCount + 2) := by
  cases balanced with
  | false => simp
  | true =>
    obtain ⟨hAlliance, hHorde⟩ := hBalanced rfl
    simp only [Bool.true_and]
    split
    · rename_i hApart
      simp only [Bool.or_eq_true, decide_eq_true_iff] at hApart
      constructor
      · exact fun hFalse => absurd hFalse Bool.false_ne_true
      · rintro ⟨-, -, hClose⟩
        obtain ⟨hLeft, hRight⟩ := hClose trivial
        omega
    · rename_i hClose
      simp only [Bool.or_eq_true, decide_eq_true_iff, not_or, not_lt] at hClose
      simp [hAlliance, hHorde, hClose]

theorem checkNormalMatch_iff (q : BattlegroundQueue) (bracket : BracketId) (minPlayers maxPlayers : Nat)
    (balance : Bool) {pools : SelectionPools} {found : Bool}
    (h : q.checkNormalMatch bracket minPlayers maxPlayers balance false = (found, pools)) :
    found = true ↔ minPlayers ≤ pools.alliance.playerCount ∧ minPlayers ≤ pools.horde.playerCount ∧
      (balance = true → pools.horde.playerCount ≤ pools.alliance.playerCount + 2 ∧
        pools.alliance.playerCount ≤ pools.horde.playerCount + 2) := by
  unfold checkNormalMatch at h
  generalize q.fillUntil minPlayers maxPlayers .init (q.queuedGroups (normal bracket .alliance)) = alliance at h
  generalize q.fillUntil minPlayers maxPlayers .init (q.queuedGroups (normal bracket .horde)) = horde at h
  obtain ⟨alliancePool, allianceRest⟩ := alliance
  obtain ⟨hordePool, hordeRest⟩ := horde
  dsimp only at h
  generalize hBoth : (balance && (decide (hordePool.playerCount ≥ minPlayers) &&
    decide (alliancePool.playerCount ≥ minPlayers))) = balanced at h
  generalize hPools : (if balanced = true then
    if hordePool.playerCount < alliancePool.playerCount then
      (⟨alliancePool, q.fill alliancePool.playerCount hordePool hordeRest⟩ : SelectionPools)
    else ⟨q.fill hordePool.playerCount alliancePool allianceRest, hordePool⟩
    else ⟨alliancePool, hordePool⟩) = last at h
  have hLast : last = pools := by
    have hSnd := congrArg Prod.snd h
    rwa [apply_ite Prod.snd, ite_self] at hSnd
  subst hLast
  have hEnough : balanced = true →
      minPlayers ≤ last.alliance.playerCount ∧ minPlayers ≤ last.horde.playerCount := by
    intro hBalanced
    rw [hBalanced, Bool.and_eq_true, Bool.and_eq_true, decide_eq_true_iff, decide_eq_true_iff] at hBoth
    obtain ⟨-, hHorde, hAlliance⟩ := hBoth
    rw [if_pos hBalanced] at hPools
    rw [← hPools]
    split
    · exact ⟨hAlliance, hHorde.trans (q.playerCount_fill _ _ _)⟩
    · exact ⟨hAlliance.trans (q.playerCount_fill _ _ _), hHorde⟩
  have hFound := checked_iff hEnough
  rw [h] at hFound
  rw [hFound]
  refine and_congr_right fun hAlliance => and_congr_right fun hHorde => ?_
  cases balanced with
  | true =>
    rw [(Bool.and_eq_true_iff.mp hBoth).1]
  | false =>
    rw [← hPools] at hAlliance hHorde
    have hNot : balance = false := by
      rcases Bool.and_eq_false_iff.mp hBoth with hNo | hFew
      · exact hNo
      · rcases Bool.and_eq_false_iff.mp hFew with hFew | hFew
        · exact absurd hHorde (of_decide_eq_false hFew)
        · exact absurd hAlliance (of_decide_eq_false hFew)
    rw [hNot]

theorem selected_checkNormalMatch (q : BattlegroundQueue) (bracket : BracketId) (minPlayers maxPlayers : Nat)
    (balance testing : Bool) (team : Team) :
    q.Selected (q.queuedGroups (normal bracket team)) [] maxPlayers
      ((q.checkNormalMatch bracket minPlayers maxPlayers balance testing).2.get team) := by
  have hFirst : ∀ team, q.Selected (q.queuedGroups (normal bracket team))
      (q.fillUntil minPlayers maxPlayers .init (q.queuedGroups (normal bracket team))).2 maxPlayers
      (q.fillUntil minPlayers maxPlayers .init (q.queuedGroups (normal bracket team))).1 := fun team =>
    (q.selected_init _ _).selectUntil minPlayers
  have hAlliance := hFirst .alliance
  have hHorde := hFirst .horde
  unfold checkNormalMatch
  generalize q.fillUntil minPlayers maxPlayers .init (q.queuedGroups (normal bracket .alliance)) = alliance
    at hAlliance ⊢
  generalize q.fillUntil minPlayers maxPlayers .init (q.queuedGroups (normal bracket .horde)) = horde
    at hHorde ⊢
  obtain ⟨alliancePool, allianceRest⟩ := alliance
  obtain ⟨hordePool, hordeRest⟩ := horde
  dsimp only at hAlliance hHorde ⊢
  have hPools : ∀ pools : SelectionPools, q.Selected (q.queuedGroups (normal bracket .alliance)) [] maxPlayers
      pools.alliance → q.Selected (q.queuedGroups (normal bracket .horde)) [] maxPlayers pools.horde →
      q.Selected (q.queuedGroups (normal bracket team)) [] maxPlayers (pools.get team) := by
    intro pools hLeft hRight
    cases team with
    | alliance => exact hLeft
    | horde => exact hRight
  simp only [apply_ite Prod.snd, ite_self]
  split
  · split
    · exact hPools _ hAlliance.done (hHorde.fill hAlliance.bounded)
    · exact hPools _ (hAlliance.fill hHorde.bounded) hHorde.done
  · exact hPools _ hAlliance.done hHorde.done

/-- Whatever is queued, the pools take what they may, and the match starts where they suffice. -/
theorem checkNormalMatch_fair (q : BattlegroundQueue) (bracket : BracketId) {minPlayers : Nat}
    (hMin : 0 < minPlayers) (maxPlayers : Nat) (balance : Bool) :
    ∃ found pools, q.checkNormalMatchInPlace bracket minPlayers maxPlayers balance false = some (found, pools) ∧
      (∀ team, q.Selected (q.queuedGroups (normal bracket team)) [] maxPlayers (pools.get team)) ∧
      (found = true ↔ minPlayers ≤ pools.alliance.playerCount ∧ minPlayers ≤ pools.horde.playerCount ∧
        (balance = true → pools.horde.playerCount ≤ pools.alliance.playerCount + 2 ∧
          pools.alliance.playerCount ≤ pools.horde.playerCount + 2)) := by
  refine ⟨_, _, q.checkNormalMatchInPlace_eq bracket hMin maxPlayers balance false, ?_, ?_⟩
  · exact fun team => q.selected_checkNormalMatch bracket minPlayers maxPlayers balance false team
  · exact q.checkNormalMatch_iff bracket minPlayers maxPlayers balance rfl

def lowest : BracketId := ⟨0, by decide⟩

def normalGroup (team : Team) : GroupSpec := ⟨lowest, team, 0, false, false, 0, 0, 0, 0⟩

/-- A group of two and a single player on one side, a single player on the other one. -/
def threeGroups : BattlegroundQueue :=
  ((empty.addGroup (normalGroup .alliance) [⟨1, 0⟩, ⟨2, 0⟩]).addGroup (normalGroup .alliance) [⟨3, 0⟩]).addGroup
    (normalGroup .horde) [⟨4, 0⟩]

theorem checkNormalMatch_threeGroups :
    ∃ found pools, threeGroups.checkNormalMatchInPlace lowest 1 2 true false = some (found, pools) ∧
      (∀ team, threeGroups.Selected (threeGroups.queuedGroups (normal lowest team)) [] 2 (pools.get team)) ∧
      (found = true ↔ 1 ≤ pools.alliance.playerCount ∧ 1 ≤ pools.horde.playerCount ∧
        (true = true → pools.horde.playerCount ≤ pools.alliance.playerCount + 2 ∧
          pools.alliance.playerCount ≤ pools.horde.playerCount + 2)) :=
  checkNormalMatch_fair threeGroups lowest (by decide) 2 true

end BattlegroundQueue

end AshamaneCore.Battlegrounds
