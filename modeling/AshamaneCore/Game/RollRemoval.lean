import AshamaneCore.Game.RollTotals

/-!
# Rolls without a removed member

The loop over the rolls starts over behind the front roll whenever it has counted one. The
front roll has been seen by then, unless it is the counted one: then the next one becomes
the front roll and is stepped over.
-/

namespace AshamaneCore.Groups

open Library

namespace Roll

def without (guid : ObjectGuid) (roll : Roll) : Option Roll :=
  (roll.playerVote.find? guid.toNat).map fun entry => roll.withdraw guid entry.2

def completes (guid : ObjectGuid) (roll : Roll) : Bool := (roll.without guid).any complete

def counts (guid : ObjectGuid) (roll : Roll) : Option Roll := (roll.without guid).filter complete

def stays (guid : ObjectGuid) (roll : Roll) : Option Roll :=
  if roll.completes guid then none else some ((roll.without guid).getD roll)

variable {guid : ObjectGuid} {roll : Roll}

theorem without_eq_none_iff : roll.without guid = none ↔ roll.playerVote.find? guid.toNat = none :=
  Option.map_eq_none_iff

theorem without_withdraw (guid : ObjectGuid) (roll : Roll) (vote : RollVote) :
    (roll.withdraw guid vote).without guid = none := by
  rw [without_eq_none_iff, withdraw_playerVote, KeyedSet.find?_erase_eq, if_pos rfl]

theorem counts_of_absent (h : roll.without guid = none) : roll.counts guid = none := by
  rw [counts, h, Option.filter_none]

theorem stays_of_absent (h : roll.without guid = none) : roll.stays guid = some roll := by
  rw [stays, completes, h]
  rfl

variable {entry : ObjectGuid × RollVote}

theorem completes_eq (h : roll.playerVote.find? guid.toNat = some entry) :
    roll.completes guid = (roll.withdraw guid entry.2).complete := by
  rw [completes, without, h, Option.map_some, Option.any_some]

theorem counts_of_complete (h : roll.playerVote.find? guid.toNat = some entry)
    (hComplete : (roll.withdraw guid entry.2).complete = true) :
    roll.counts guid = some (roll.withdraw guid entry.2) ∧ roll.stays guid = none := by
  have hWithout : roll.without guid = some (roll.withdraw guid entry.2) := by
    rw [without, h, Option.map_some]
  constructor
  · rw [counts, hWithout, Option.filter_some, if_pos hComplete]
  · rw [stays, completes, hWithout, Option.any_some, if_pos hComplete]

theorem stays_of_open (h : roll.playerVote.find? guid.toNat = some entry)
    (hOpen : ¬ (roll.withdraw guid entry.2).complete = true) :
    roll.counts guid = none ∧ roll.stays guid = some (roll.withdraw guid entry.2) := by
  have hWithout : roll.without guid = some (roll.withdraw guid entry.2) := by
    rw [without, h, Option.map_some]
  constructor
  · rw [counts, hWithout, Option.filter_some, if_neg hOpen]
  · rw [stays, completes, hWithout, Option.any_some, if_neg hOpen, Option.getD_some]

theorem absent_of_stays {left : Roll} (h : roll.stays guid = some left) : left.without guid = none := by
  cases hEntry : roll.playerVote.find? guid.toNat with
  | none =>
    have hNone : roll.without guid = none := without_eq_none_iff.mpr hEntry
    rw [stays_of_absent hNone] at h
    exact Option.some.inj h ▸ hNone
  | some entry =>
    obtain hComplete | hOpen := Classical.em ((roll.withdraw guid entry.2).complete = true)
    · cases (counts_of_complete hEntry hComplete).2.symm.trans h
    · obtain rfl := Option.some.inj ((stays_of_open hEntry hOpen).2.symm.trans h)
      exact without_withdraw guid roll entry.2

end Roll

namespace RollTable

/-- Everything is done that the removal of a member asks of the rolls. -/
structure Cleaned (guid : ObjectGuid) (t : RollTable) (turn : Turn) : Prop where
  absent : ∀ roll ∈ turn.table.rollId, roll.playerVote.find? guid.toNat = none
  counted : turn.counted.map Counted.roll = t.rollId.filterMap (Roll.counts guid)
  kept : turn.table.rollId = t.rollId.filterMap (Roll.stays guid)

variable {answers : Answers} {guid : ObjectGuid} {t : RollTable} {i : Nat}

theorem counted_countTheRoll (answers : Answers) (t : RollTable) (i : Fin t.rollId.length) :
    (t.countTheRoll answers i).counted.map Counted.roll = [t.rollId.get i] := by
  unfold countTheRoll
  dsimp only
  split
  · rfl
  · rfl

theorem counted_countChanged (answers : Answers) (t : RollTable) (i : Fin t.rollId.length) (roll : Roll) :
    (t.countChanged answers i roll).counted.map Counted.roll = [roll] := by
  rw [countChanged, counted_countTheRoll]
  simp [setRoll]

variable {l : List Roll} {f : Roll → Option Roll}

theorem filterMap_set {i : Nat} (h : i < l.length) {roll : Roll}
    (hSame : f roll = f l[i]) : (l.set i roll).filterMap f = l.filterMap f := by
  induction l generalizing i with
  | nil => rfl
  | cons a l ih =>
    cases i with
    | zero => simp only [List.set_cons_zero, List.filterMap_cons, hSame, List.getElem_cons_zero]
    | succ i =>
      have hRest := ih (Nat.lt_of_succ_lt_succ h) hSame
      simp only [List.set_cons_succ, List.filterMap_cons, hRest]

theorem filterMap_eraseIdx {i : Nat} (h : i < l.length)
    (hNone : f l[i] = none) : (l.eraseIdx i).filterMap f = l.filterMap f := by
  induction l generalizing i with
  | nil => rfl
  | cons a l ih =>
    cases i with
    | zero => simp only [List.eraseIdx_cons_zero, List.filterMap_cons, show f a = none from hNone]
    | succ i =>
      have hRest := ih (Nat.lt_of_succ_lt_succ h) hNone
      simp only [List.eraseIdx_cons_succ, List.filterMap_cons, hRest]

theorem filterMap_of_seen {i : Nat} (h : i < l.length) {roll : Roll}
    (hSeen : ∀ x ∈ l.take i, f x = none) (hHere : f l[i] = some roll) :
    l.filterMap f = roll :: (l.eraseIdx i).filterMap f := by
  induction l generalizing i with
  | nil => cases h
  | cons a l ih =>
    cases i with
    | zero => simp only [List.eraseIdx_cons_zero, List.filterMap_cons, show f a = some roll from hHere]
    | succ i =>
      have hFirst : f a = none := hSeen a List.mem_cons_self
      have hRest := ih (Nat.lt_of_succ_lt_succ h) (fun x hx => hSeen x (List.mem_cons_of_mem a hx)) hHere
      simp only [List.eraseIdx_cons_succ, List.filterMap_cons, hFirst, hRest]

theorem cleaned_of_kept {turn : Turn}
    (hCounted : turn.counted.map Counted.roll = t.rollId.filterMap (Roll.counts guid))
    (hKept : turn.table.rollId = t.rollId.filterMap (Roll.stays guid)) : Cleaned guid t turn := by
  refine ⟨fun roll hRoll => ?_, hCounted, hKept⟩
  rw [hKept] at hRoll
  obtain ⟨old, -, hStays⟩ := List.mem_filterMap.mp hRoll
  exact Roll.without_eq_none_iff.mp (Roll.absent_of_stays hStays)

theorem countWithdrawn_rollId (answers : Answers) (t : RollTable) (hLt : i < t.rollId.length)
    (guid : ObjectGuid) (vote : RollVote) :
    (t.countWithdrawn answers ⟨i, hLt⟩ guid vote).table.rollId = t.rollId.eraseIdx i :=
  countChanged_rollId answers t ⟨i, hLt⟩ _

section Step

variable {hLt : i < t.rollId.length} {entry : ObjectGuid × RollVote} {turn : Turn}
  (hEntry : (t.rollId.get ⟨i, hLt⟩).playerVote.find? guid.toNat = some entry)

include hEntry

theorem Cleaned.of_open (hOpen : ¬ ((t.rollId.get ⟨i, hLt⟩).withdraw guid entry.2).complete = true)
    (h : Cleaned guid (t.setRoll ⟨i, hLt⟩ ((t.rollId.get ⟨i, hLt⟩).withdraw guid entry.2)) turn) :
    Cleaned guid t turn := by
  obtain ⟨hCounts, hStays⟩ := Roll.stays_of_open hEntry hOpen
  have hGone := Roll.without_withdraw guid (t.rollId.get ⟨i, hLt⟩) entry.2
  apply cleaned_of_kept (h.counted.trans ?_) (h.kept.trans ?_)
  · exact filterMap_set hLt ((Roll.counts_of_absent hGone).trans hCounts.symm)
  · exact filterMap_set hLt ((Roll.stays_of_absent hGone).trans hStays.symm)

theorem Cleaned.of_complete (hSeen : ∀ roll ∈ t.rollId.take i, roll.without guid = none)
    (hComplete : ((t.rollId.get ⟨i, hLt⟩).withdraw guid entry.2).complete = true)
    (h : Cleaned guid (t.countWithdrawn answers ⟨i, hLt⟩ guid entry.2).table turn) :
    Cleaned guid t ((t.countWithdrawn answers ⟨i, hLt⟩ guid entry.2).followedBy turn) := by
  have hErased := countWithdrawn_rollId answers t hLt guid entry.2
  obtain ⟨hCounts, hStays⟩ := Roll.counts_of_complete hEntry hComplete
  apply cleaned_of_kept
  · have hHere := filterMap_of_seen hLt (fun x hx => Roll.counts_of_absent (hSeen x hx)) hCounts
    rw [hHere, ← hErased, ← h.counted]
    exact List.map_append.trans (congrArg (· ++ _) (counted_countChanged answers t ⟨i, hLt⟩ _))
  · have hKept := h.kept
    rw [hErased, filterMap_eraseIdx hLt hStays] at hKept
    exact hKept

end Step

theorem seen_succ (hLt : i < t.rollId.length) (hSeen : ∀ roll ∈ t.rollId.take i, roll.without guid = none)
    (hHere : t.rollId[i].without guid = none) : ∀ roll ∈ t.rollId.take (i + 1), roll.without guid = none := by
  intro roll hRoll
  rw [List.take_succ_eq_append_getElem hLt] at hRoll
  obtain hOld | hLast := List.mem_append.mp hRoll
  · exact hSeen roll hOld
  · rw [List.mem_singleton.mp hLast]
    exact hHere

theorem seen_setRoll (hLt : i < t.rollId.length) (hSeen : ∀ roll ∈ t.rollId.take i, roll.without guid = none)
    (vote : RollVote) :
    ∀ roll ∈ (t.setRoll ⟨i, hLt⟩ ((t.rollId.get ⟨i, hLt⟩).withdraw guid vote)).rollId.take (i + 1),
      roll.without guid = none := by
  apply seen_succ
  · rwa [setRoll_rollId, List.take_set_of_le (le_refl i)]
  · simp only [setRoll_rollId, List.getElem_set_self]
    exact Roll.without_withdraw guid _ vote
  · rwa [setRoll_rollId, List.length_set]

theorem removeVotes_cleaned (hi : 0 < i) (hSeen : ∀ roll ∈ t.rollId.take i, roll.without guid = none) :
    ∃ turn, removeVotes answers guid t i = some turn ∧ Cleaned guid t turn := by
  induction t, i using removeVotes.induct answers guid with
  | case1 t i hLt hNone ih =>
    rw [removeVotes_absent hLt hNone]
    exact ih (Nat.succ_pos i) (seen_succ hLt hSeen (Roll.without_eq_none_iff.mpr hNone))
  | case2 t i hLt entry hEntry hComplete hEmpty =>
    have hLength := congrArg List.length hEmpty
    rw [List.length_eraseIdx_of_lt hLt, List.length_nil] at hLength
    omega
  | case3 t i hLt entry hEntry hComplete hMore ih =>
    have hFront : ∀ roll ∈ (t.countWithdrawn answers ⟨i, hLt⟩ guid entry.2).table.rollId.take 1,
        roll.without guid = none := by
      intro roll hRoll
      apply hSeen roll
      have hFirst : 1 ≤ (t.rollId.take i).length := by
        rw [List.length_take]
        omega
      rw [countWithdrawn_rollId, List.eraseIdx_eq_take_drop_succ, List.take_append_of_le_length hFirst,
        List.take_take, Nat.min_eq_left hi] at hRoll
      exact List.take_subset_take_left _ hi hRoll
    obtain ⟨rest, hRest, hCleaned⟩ := ih Nat.one_pos hFront
    rw [removeVotes_present hLt hEntry, if_pos hComplete, if_neg hMore, hRest, Option.map_some]
    exact ⟨_, rfl, hCleaned.of_complete hEntry hSeen hComplete⟩
  | case4 t i hLt entry hEntry hOpen ih =>
    rw [removeVotes_present hLt hEntry, if_neg hOpen]
    obtain ⟨turn, hTurn, hCleaned⟩ := ih (Nat.succ_pos i) (seen_setRoll hLt hSeen entry.2)
    exact ⟨turn, hTurn, hCleaned.of_open hEntry hOpen⟩
  | case5 t i hLt =>
    have hAll : ∀ roll ∈ t.rollId, roll.without guid = none := by
      rwa [List.take_of_length_le (Nat.not_lt.mp hLt)] at hSeen
    rw [removeVotes_past hLt]
    refine ⟨_, rfl, cleaned_of_kept ?_ ?_⟩
    · exact (List.filterMap_eq_nil_iff.mpr fun roll hRoll => Roll.counts_of_absent (hAll roll hRoll)).symm
    · rw [List.filterMap_congr fun roll hRoll => Roll.stays_of_absent (hAll roll hRoll)]
      exact List.filterMap_some.symm

theorem front_removeVotes {turn : Turn} (hi : 0 < i) (h : removeVotes answers guid t i = some turn) :
    turn.table.rollId.head? = t.rollId.head? := by
  induction t, i using removeVotes.induct answers guid generalizing turn with
  | case1 t i hLt hNone ih =>
    rw [removeVotes_absent hLt hNone] at h
    exact ih (Nat.succ_pos i) h
  | case2 t i hLt entry hEntry hComplete hEmpty =>
    rw [removeVotes_present hLt hEntry, if_pos hComplete, if_pos hEmpty] at h
    cases h
  | case3 t i hLt entry hEntry hComplete hMore ih =>
    rw [removeVotes_present hLt hEntry, if_pos hComplete, if_neg hMore] at h
    obtain ⟨rest, hRest, rfl⟩ := Option.map_eq_some_iff.mp h
    apply (ih Nat.one_pos hRest).trans
    rw [countWithdrawn_rollId, List.head?_eq_getElem?, List.head?_eq_getElem?,
      List.getElem?_eraseIdx_of_lt hi]
  | case4 t i hLt entry hEntry hOpen ih =>
    rw [removeVotes_present hLt hEntry, if_neg hOpen] at h
    apply (ih (Nat.succ_pos i) h).trans
    rw [setRoll_rollId, List.head?_eq_getElem?, List.head?_eq_getElem?, List.getElem?_set_ne (Nat.ne_of_gt hi)]
  | case5 t i hLt =>
    rw [removeVotes_past hLt] at h
    obtain rfl := Option.some.inj h
    rfl

/-- The front roll stays, or the member has no part in the one behind it. -/
def FrontSeen (guid : ObjectGuid) (t : RollTable) : Prop :=
  ∀ first rest, t.rollId = first :: rest → first.completes guid = true →
    ∃ second, rest.head? = some second ∧ second.playerVote.find? guid.toNat = none

theorem frontSeen_of_stays (hLt : 0 < t.rollId.length) (h : (t.rollId.get ⟨0, hLt⟩).completes guid = false) :
    FrontSeen guid t := by
  intro first rest hRolls hComplete
  have hFirst : t.rollId.get ⟨0, hLt⟩ = first := by simp [hRolls]
  rw [hFirst, hComplete] at h
  cases h

theorem removeVotes_counted {entry : ObjectGuid × RollVote} {first : Roll} {rest : List Roll}
    (hRolls : t.rollId = first :: rest) (hEntry : first.playerVote.find? guid.toNat = some entry)
    (hComplete : (first.withdraw guid entry.2).complete = true) :
    (∃ turn, removeVotes answers guid t 0 = some turn ∧ Cleaned guid t turn) ↔
      ∃ second, rest.head? = some second ∧ second.playerVote.find? guid.toNat = none := by
  have hLt : 0 < t.rollId.length := by
    rw [hRolls]
    exact Nat.succ_pos _
  have hFirst : t.rollId.get ⟨0, hLt⟩ = first := by simp [hRolls]
  rw [← hFirst] at hEntry hComplete
  have hErased : (t.countWithdrawn answers ⟨0, hLt⟩ guid entry.2).table.rollId = rest := by
    rw [countWithdrawn_rollId, hRolls, List.eraseIdx_cons_zero]
  rw [removeVotes_present hLt hEntry, if_pos hComplete]
  cases rest with
  | nil =>
    rw [if_pos (by rw [hRolls, List.eraseIdx_cons_zero])]
    constructor
    · rintro ⟨turn, hTurn, -⟩
      cases hTurn
    · rintro ⟨second, hSecond, -⟩
      cases hSecond
  | cons second rest =>
    rw [if_neg (by rw [hRolls, List.eraseIdx_cons_zero]; exact List.cons_ne_nil second rest)]
    constructor
    · rintro ⟨turn, hTurn, hCleaned⟩
      obtain ⟨last, hLast, rfl⟩ := Option.map_eq_some_iff.mp hTurn
      have hFront := front_removeVotes Nat.one_pos hLast
      rw [hErased, List.head?_cons] at hFront
      exact ⟨second, rfl, hCleaned.absent second (List.mem_of_head? hFront)⟩
    · rintro ⟨other, hOther, hAbsent⟩
      obtain rfl := Option.some.inj hOther
      have hSeen : ∀ roll ∈ (t.countWithdrawn answers ⟨0, hLt⟩ guid entry.2).table.rollId.take 1,
          roll.without guid = none := by
        intro roll hRoll
        rw [hErased] at hRoll
        rw [List.mem_singleton.mp hRoll]
        exact Roll.without_eq_none_iff.mpr hAbsent
      obtain ⟨last, hLast, hCleaned⟩ := @removeVotes_cleaned answers guid _ 1 Nat.one_pos hSeen
      rw [hLast, Option.map_some]
      exact ⟨_, rfl, hCleaned.of_complete hEntry (fun _ hRoll => absurd hRoll List.not_mem_nil) hComplete⟩

theorem removeVotes_cleaned_iff (answers : Answers) (guid : ObjectGuid) (t : RollTable) :
    (∃ turn, removeVotes answers guid t 0 = some turn ∧ Cleaned guid t turn) ↔ FrontSeen guid t := by
  cases hRolls : t.rollId with
  | nil =>
    have hLt : ¬ 0 < t.rollId.length := by
      rw [hRolls]
      exact Nat.lt_irrefl 0
    refine ⟨fun _ first rest hCons => ?_, fun _ => ⟨_, removeVotes_past hLt, cleaned_of_kept ?_ ?_⟩⟩
    · rw [hRolls] at hCons
      cases hCons
    · rw [hRolls]
      rfl
    · rw [hRolls]
      rfl
  | cons first rest =>
    have hLt : 0 < t.rollId.length := by
      rw [hRolls]
      exact Nat.succ_pos _
    have hFirst : t.rollId.get ⟨0, hLt⟩ = first := by simp [hRolls]
    have hSeen : ∀ roll ∈ t.rollId.take 0, roll.without guid = none := fun _ hRoll =>
      absurd hRoll List.not_mem_nil
    cases hEntry : (t.rollId.get ⟨0, hLt⟩).playerVote.find? guid.toNat with
    | none =>
      have hNone := Roll.without_eq_none_iff.mpr hEntry
      have hStays : FrontSeen guid t := by
        apply frontSeen_of_stays hLt
        rw [Roll.completes, hNone, Option.any_none]
      rw [removeVotes_absent hLt hEntry]
      exact ⟨fun _ => hStays, fun _ => removeVotes_cleaned Nat.one_pos (seen_succ hLt hSeen hNone)⟩
    | some entry =>
      obtain hComplete | hOpen := Classical.em
        (((t.rollId.get ⟨0, hLt⟩).withdraw guid entry.2).complete = true)
      · rw [hFirst] at hEntry hComplete
        rw [removeVotes_counted hRolls hEntry hComplete]
        constructor
        · intro hSecond other others hCons _
          obtain ⟨rfl, rfl⟩ := List.cons.inj (hRolls.symm.trans hCons)
          exact hSecond
        · exact fun hFront => hFront first rest hRolls (Roll.completes_eq hEntry ▸ hComplete)
      · have hStays : FrontSeen guid t := by
          apply frontSeen_of_stays hLt
          rw [Roll.completes_eq hEntry]
          exact Bool.not_eq_true _ ▸ hOpen
        rw [removeVotes_present hLt hEntry, if_neg hOpen]
        refine ⟨fun _ => hStays, fun _ => ?_⟩
        obtain ⟨turn, hTurn, hCleaned⟩ := removeVotes_cleaned Nat.one_pos (seen_setRoll hLt hSeen entry.2)
        exact ⟨turn, hTurn, hCleaned.of_open hEntry hOpen⟩

def waitingRoll (itemSlot : Nat) : Roll where
  itemid := 19019
  loot := some corpse
  itemSlot := itemSlot
  playerVote := (KeyedSet.empty.assign (hunter, .notEmitedYet)).assign (mage, .need)
  totalPlayersRolling := 2
  totalNeed := 1
  totalGreed := 0
  totalPass := 0

def twoRolls : RollTable := ⟨[waitingRoll 0, waitingRoll 1], fun _ => ⟨[sword, sword], [], by decide⟩, false⟩

/-- The hunter leaves, and the second roll still waits for the vote. -/
theorem second_roll_stays :
    ¬ ∀ (answers : Answers) (guid : ObjectGuid) (t : RollTable),
      ∃ turn, removeVotes answers guid t 0 = some turn ∧ Cleaned guid t turn := by
  intro h
  have hRolls : twoRolls.rollId = waitingRoll 0 :: [waitingRoll 1] := rfl
  have hEntry : (waitingRoll 0).playerVote.find? hunter.toNat = some (hunter, .notEmitedYet) := by decide
  have hComplete : ((waitingRoll 0).withdraw hunter .notEmitedYet).complete = true := by decide
  obtain ⟨second, hSecond, hAbsent⟩ :=
    (removeVotes_counted hRolls hEntry hComplete).mp (h online hunter twoRolls)
  obtain rfl := Option.some.inj hSecond
  revert hAbsent
  decide

end RollTable

end AshamaneCore.Groups
