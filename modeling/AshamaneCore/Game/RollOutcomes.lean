import AshamaneCore.Game.RollTotals

/-!
# Items blocked by a roll

Counting a roll takes it out of the group whatever happens. The item is given away or
unblocked, except when the winner is not connected; and a group that is disbanded drops
its rolls without looking at the items.
-/

namespace AshamaneCore.Groups

open Library

/-! ## Slots -/

namespace Loot

theorem slot_alterSlot (loot : Loot) (i j : Nat) (f : LootItem → LootItem) :
    (loot.alterSlot i f).slot j = if j = i then (loot.slot i).map f else loot.slot j := by
  unfold alterSlot
  split
  · rename_i hQuest
    unfold slot
    obtain rfl | hNe := eq_or_ne j i
    · simp [hQuest]
    · rw [if_neg hNe]
      split
      · rename_i hj
        have hIndex : i - loot.items.length ≠ j - loot.items.length := by
          dsimp only at hj
          omega
        rw [List.getElem?_modify]
        simp [hIndex]
      · rfl
  · rename_i hItem
    unfold slot
    obtain rfl | hNe := eq_or_ne j i
    · simp [hItem]
    · simp [hNe, hNe.symm]

end Loot

namespace LootItem

def Waits (item : LootItem) : Prop := item.isBlocked = true ∧ item.isLooted = false

end LootItem

/-! ## Winners -/

namespace Roll

/-- The winner has voted for the most preferred class that anyone has voted for. -/
def Preferred (roll : Roll) (winner : ObjectGuid) : Prop :=
  ∃ vote, (winner, vote) ∈ roll.playerVote.entries ∧
    if ∃ entry ∈ roll.playerVote.entries, entry.2 = .need then vote = .need else vote.isGreed

theorem highest_spec (wanted : RollVote → Bool) (urand : ObjectGuid → Fin 100) (first : ObjectGuid)
    {votes : List (ObjectGuid × RollVote)} (h : ∃ entry ∈ votes, wanted entry.2) :
    ((highest wanted urand first votes).winner, (highest wanted urand first votes).vote) ∈ votes ∧
      wanted (highest wanted urand first votes).vote := by
  have hAll : ∀ (todo : List (ObjectGuid × RollVote)) (best : Won), todo ⊆ votes →
      (best.number = 0 ∨ (best.winner, best.vote) ∈ votes ∧ wanted best.vote) →
      (0 < best.number ∨ ∃ entry ∈ todo, wanted entry.2) →
      let last := todo.foldl (fun best entry =>
        if wanted entry.2 && best.number < (urand entry.1).val + 1 then
          ⟨entry.1, (urand entry.1).val + 1, entry.2⟩
        else best) best
      (last.winner, last.vote) ∈ votes ∧ wanted last.vote := by
    intro todo
    induction todo with
    | nil =>
      intro best _ hBest hSome
      obtain hPos | ⟨entry, hEntry, -⟩ := hSome
      · exact hBest.resolve_left (Nat.ne_of_gt hPos)
      · cases hEntry
    | cons entry todo ih =>
      intro best hSub hBest hSome
      rw [List.foldl_cons]
      have hRest := List.subset_of_cons_subset hSub
      split
      · rename_i hTaken
        obtain ⟨hWanted, -⟩ := Bool.and_eq_true_iff.mp hTaken
        exact ih _ hRest (Or.inr ⟨hSub List.mem_cons_self, hWanted⟩) (Or.inl (Nat.succ_pos _))
      · rename_i hKept
        apply ih _ hRest hBest
        by_cases hPos : 0 < best.number
        · exact Or.inl hPos
        · obtain hPos' | ⟨other, hOther, hWanted⟩ := hSome
          · exact absurd hPos' hPos
          · obtain rfl | hTail := List.mem_cons.mp hOther
            · refine absurd ?_ hKept
              rw [hWanted, Bool.true_and, decide_eq_true_iff]
              omega
            · exact Or.inr ⟨other, hTail, hWanted⟩
  exact hAll votes ⟨first, 0, .notValid⟩ (List.Subset.refl _) (Or.inl rfl) (Or.inr h)

variable {roll : Roll}

theorem exists_of_number {p : RollVote → Bool} (h : 0 < roll.number p) :
    ∃ entry ∈ roll.playerVote.entries, p entry.2 := List.countP_pos_iff.mp h

structure Decided (roll : Roll) : Prop where
  need : roll.totalNeed.toNat = roll.number (· = .need)
  greed : roll.totalGreed.toNat = roll.number RollVote.isGreed

theorem Sound.decided (h : roll.Sound) : roll.Decided := ⟨h.need, h.greed⟩

theorem settle_spec (h : roll.Decided) (answers : Answers) (left : Nat) :
    (∀ won, (roll.settle answers left).1 = some won → roll.Preferred won.winner) ∧
      ((∀ won, (roll.settle answers left).1 = some won → answers.connected won.winner) →
        ∀ item, ¬ ((roll.settle answers left).2 item).Waits) := by
  have hAward : ∀ stores item, ¬ (award stores item).Waits := by
    rintro (_ | _) item ⟨hBlocked, hLooted⟩
    · cases hBlocked
    · cases hLooted
  unfold settle
  split
  · rename_i hNeed
    obtain ⟨entry, hEntry, hIsNeed⟩ := exists_of_number (p := (· = .need)) (h.need ▸ UInt8.lt_iff_toNat_lt.mp hNeed)
    split
    · rename_i hNil
      rw [hNil] at hEntry
      cases hEntry
    · rename_i first rest hCons
      obtain ⟨hMem, hWanted⟩ := highest_spec (· = .need) (answers.urand left)
        first.1 ⟨entry, hEntry, hIsNeed⟩
      refine ⟨fun won hWon => ?_, fun hConnected item => ?_⟩
      · obtain rfl := Option.some.inj hWon
        refine ⟨_, hMem, ?_⟩
        rw [if_pos ⟨entry, hEntry, of_decide_eq_true hIsNeed⟩]
        exact of_decide_eq_true hWanted
      · dsimp only
        rw [if_pos (hConnected _ rfl)]
        exact hAward _ _
  · rename_i hNeed
    have hNoNeed : ¬ ∃ entry ∈ roll.playerVote.entries, entry.2 = .need := by
      rintro ⟨entry, hEntry, hIsNeed⟩
      have hPos : 0 < roll.number (· = .need) := List.countP_pos_iff.mpr ⟨entry, hEntry, decide_eq_true hIsNeed⟩
      exact hNeed (UInt8.lt_iff_toNat_lt.mpr (h.need ▸ hPos))
    split
    · rename_i hGreed
      obtain ⟨entry, hEntry, hIsGreed⟩ := exists_of_number (p := RollVote.isGreed)
        (h.greed ▸ UInt8.lt_iff_toNat_lt.mp hGreed)
      split
      · rename_i hNil
        rw [hNil] at hEntry
        cases hEntry
      · rename_i first rest hCons
        obtain ⟨hMem, hWanted⟩ := highest_spec RollVote.isGreed (answers.urand left)
          first.1 ⟨entry, hEntry, hIsGreed⟩
        refine ⟨fun won hWon => ?_, fun hConnected item => ?_⟩
        · obtain rfl := Option.some.inj hWon
          refine ⟨_, hMem, ?_⟩
          rw [if_neg hNoNeed]
          exact hWanted
        · dsimp only
          rw [if_pos (hConnected _ rfl)]
          split
          · exact hAward _ _
          · rename_i hNotGreed
            have hRest := (Bool.or_eq_true_iff.mp hWanted).resolve_left fun hIs => hNotGreed (of_decide_eq_true hIs)
            rw [if_pos (of_decide_eq_true hRest)]
            exact hAward _ _
    · refine ⟨fun won hWon => ?_, fun _ item hWaits => ?_⟩
      · cases hWon
      · cases hWaits.1

end Roll

/-! ## Blocked items -/

def Turn.WinnersConnected (turn : Turn) (answers : Answers) : Prop :=
  ∀ counted ∈ turn.counted, ∀ won, counted.won = some won → answers.connected won.winner

def Turn.WinnersPreferred (turn : Turn) : Prop :=
  ∀ counted ∈ turn.counted, ∀ won, counted.won = some won → counted.roll.Preferred won.winner

theorem Turn.winnersPreferred_nil (t : RollTable) : Turn.WinnersPreferred ⟨t, []⟩ :=
  fun _ hCounted => absurd hCounted List.not_mem_nil

theorem Turn.WinnersPreferred.followedBy {turn rest : Turn} (h : turn.WinnersPreferred)
    (hRest : rest.WinnersPreferred) : (turn.followedBy rest).WinnersPreferred := by
  intro counted hCounted
  obtain hFirst | hLater := List.mem_append.mp hCounted
  · exact h counted hFirst
  · exact hRest counted hLater

namespace RollTable

def Released (rolled : List (ObjectGuid × Nat)) (t : RollTable) : Prop :=
  ∀ guid slot, (guid, slot) ∈ rolled → ∀ item, (t.loots guid).slot slot = some item → item.Waits →
    ∃ roll ∈ t.rollId, roll.loot = some guid ∧ roll.itemSlot = slot

variable {t : RollTable} {answers : Answers} {rolled : List (ObjectGuid × Nat)}

theorem countTheRoll_winners (i : Fin t.rollId.length) (h : (t.rollId.get i).Decided) :
    (t.countTheRoll answers i).WinnersPreferred := by
  have hSettle := (Roll.settle_spec h answers t.rollId.length).1
  unfold countTheRoll
  dsimp only
  split
  · intro counted hCounted won hWon
    obtain rfl := List.mem_singleton.mp hCounted
    cases hWon
  · intro counted hCounted won hWon
    obtain rfl := List.mem_singleton.mp hCounted
    exact hSettle won hWon

theorem Released.countTheRoll (h : t.Released rolled) (i : Fin t.rollId.length)
    (hDecided : (t.rollId.get i).Decided) (hConnected : (t.countTheRoll answers i).WinnersConnected answers) :
    (t.countTheRoll answers i).table.Released rolled := by
  have hOther : ∀ roll ∈ t.rollId, roll ≠ t.rollId.get i → roll ∈ t.rollId.eraseIdx i := by
    intro roll hRoll hNe
    have hPerm := List.getElem_cons_eraseIdx_perm i.isLt
    exact (List.mem_cons.mp (hPerm.mem_iff.mpr hRoll)).resolve_left hNe
  have hSettle := (Roll.settle_spec hDecided answers t.rollId.length).2
  intro guid slot hRolled item hItem hWaits
  rw [countTheRoll_rollId]
  unfold RollTable.countTheRoll at hConnected hItem
  dsimp only at hConnected hItem
  split at hConnected
  · rename_i hNone
    rw [hNone] at hItem
    obtain ⟨roll, hRoll, hLoot, hSlot⟩ := h guid slot hRolled item hItem hWaits
    refine ⟨roll, hOther roll hRoll ?_, hLoot, hSlot⟩
    rintro rfl
    rw [hNone] at hLoot
    cases hLoot
  · rename_i loot hSome
    rw [hSome] at hItem
    dsimp only at hItem
    have hDone := hSettle fun won hWon => hConnected _ (List.mem_singleton_self _) won hWon
    have hKept : (t.loots guid).slot slot = some item ∧ ¬ (loot = guid ∧ (t.rollId.get i).itemSlot = slot) := by
      obtain rfl | hNe := eq_or_ne guid loot
      · rw [Function.update_self, Loot.slot_alterSlot] at hItem
        split at hItem
        · obtain ⟨old, -, rfl⟩ := Option.map_eq_some_iff.mp hItem
          exact absurd hWaits (hDone old)
        · rename_i hNe
          exact ⟨hItem, fun hSame => hNe hSame.2.symm⟩
      · rw [Function.update_of_ne hNe] at hItem
        exact ⟨hItem, fun hSame => hNe hSame.1.symm⟩
    obtain ⟨roll, hRoll, hLoot, hSlot⟩ := h guid slot hRolled item hKept.1 hWaits
    refine ⟨roll, hOther roll hRoll ?_, hLoot, hSlot⟩
    rintro rfl
    exact hKept.2 ⟨Option.some.inj (hSome.symm.trans hLoot), hSlot⟩

variable {roll : Roll}

theorem Released.setRoll (h : t.Released rolled) (i : Fin t.rollId.length)
    (hLoot : roll.loot = (t.rollId.get i).loot) (hSlot : roll.itemSlot = (t.rollId.get i).itemSlot) :
    (t.setRoll i roll).Released rolled := by
  intro guid slot hRolled item hItem hWaits
  obtain ⟨old, hOld, hOldLoot, hOldSlot⟩ := h guid slot hRolled item hItem hWaits
  obtain rfl | hNe := eq_or_ne old (t.rollId.get i)
  · exact ⟨roll, List.mem_set i.isLt _, hLoot.trans hOldLoot, hSlot.trans hOldSlot⟩
  · obtain ⟨j, hj, rfl⟩ := List.getElem_of_mem hOld
    refine ⟨t.rollId[j], ?_, hOldLoot, hOldSlot⟩
    have hIndex : (i : Nat) ≠ j := by
      rintro rfl
      exact hNe rfl
    exact List.mem_iff_getElem.mpr ⟨j, by simpa using hj, List.getElem_set_ne hIndex _⟩

theorem get_setRoll (i : Fin t.rollId.length) (roll : Roll) :
    (t.setRoll i roll).rollId.get ⟨i, i.isLt.trans_eq List.length_set.symm⟩ = roll := by
  simp [RollTable.setRoll]

theorem Released.countChanged (h : t.Released rolled) (i : Fin t.rollId.length)
    (hDecided : roll.Decided) (hLoot : roll.loot = (t.rollId.get i).loot)
    (hSlot : roll.itemSlot = (t.rollId.get i).itemSlot)
    (hConnected : (t.countChanged answers i roll).WinnersConnected answers) :
    (t.countChanged answers i roll).table.Released rolled :=
  (h.setRoll i hLoot hSlot).countTheRoll _ ((get_setRoll i roll).symm ▸ hDecided) hConnected

theorem countChanged_winners (i : Fin t.rollId.length) (h : roll.Decided) :
    (t.countChanged answers i roll).WinnersPreferred :=
  countTheRoll_winners _ ((get_setRoll i roll).symm ▸ h)

theorem Released.mark (h : t.Released rolled) :
    t.Released (rolled ++ t.rollId.filterMap fun roll => roll.loot.map fun guid => (guid, roll.itemSlot)) := by
  intro guid slot hRolled item hItem hWaits
  obtain hOld | hNow := List.mem_append.mp hRolled
  · exact h guid slot hOld item hItem hWaits
  · obtain ⟨roll, hRoll, hPlace⟩ := List.mem_filterMap.mp hNow
    obtain ⟨loot, hLoot, hEq⟩ := Option.map_eq_some_iff.mp hPlace
    obtain ⟨rfl, rfl⟩ := Prod.mk.inj hEq
    exact ⟨roll, hRoll, hLoot, rfl⟩

end RollTable

namespace Roll

theorem voted_place (roll : Roll) (guid : ObjectGuid) (choice : UInt8) :
    (roll.voted guid choice).loot = roll.loot ∧ (roll.voted guid choice).itemSlot = roll.itemSlot := by
  unfold voted
  split
  · rename_i vote _
    cases vote <;> exact ⟨rfl, rfl⟩
  · exact ⟨rfl, rfl⟩

theorem withdraw_place (roll : Roll) (guid : ObjectGuid) (vote : RollVote) :
    (roll.withdraw guid vote).loot = roll.loot ∧ (roll.withdraw guid vote).itemSlot = roll.itemSlot := by
  cases vote <;> exact ⟨rfl, rfl⟩

end Roll

namespace RollTable

variable {t : RollTable} {answers : Answers} {rolled : List (ObjectGuid × Nat)}

/-! ### New rolls -/

/-- An item that waits afterwards waited before or has got its roll. -/
def Starts (guid : ObjectGuid) (slot : Nat) (old : LootItem) (made : LootItem × Option Roll) : Prop :=
  made.1.Waits → old.Waits ∨ ∃ roll, made.2 = some roll ∧ roll.loot = some guid ∧ roll.itemSlot = slot

theorem startRoll_starts (guid : ObjectGuid) (slot : Nat) (item : LootItem) (roll : Roll) :
    Starts guid slot item (startRoll guid slot item roll) := by
  unfold startRoll
  split
  · exact fun _ => Or.inr ⟨_, rfl, rfl, rfl⟩
  · exact Or.inl

theorem rollForItem_starts (members : LinkedMembers) (rules : LootRules) (guid : ObjectGuid) (slot : Nat)
    (item : LootItem) : Starts guid slot item (rollForItem members rules guid slot item) := by
  unfold rollForItem
  split
  · exact Or.inl
  · split
    · exact startRoll_starts _ _ _ _
    · exact Or.inl

theorem rollForQuestItem_starts (members : LinkedMembers) (rules : LootRules) (guid : ObjectGuid)
    (slot : Nat) (item : LootItem) : Starts guid slot item (rollForQuestItem members rules guid slot item) := by
  unfold rollForQuestItem
  split
  · exact startRoll_starts _ _ _ _
  · exact Or.inl

variable {guid : ObjectGuid}

theorem slot_groupLoot {members : LinkedMembers} {rules : LootRules} {slot : Nat}
    {item : LootItem} (h : ((t.groupLoot members rules guid).loots guid).slot slot = some item) :
    ∃ old made, (t.loots guid).slot slot = some old ∧ made.1 = item ∧ Starts guid slot old made ∧
      ∀ roll, made.2 = some roll → roll ∈ (t.groupLoot members rules guid).rollId := by
  unfold groupLoot at h ⊢
  dsimp only at h ⊢
  rw [Function.update_self] at h
  unfold Loot.slot at h ⊢
  simp only [List.length_map, List.length_mapIdx, List.getElem?_map, List.getElem?_mapIdx] at h
  split at h
  · rename_i hQuest
    obtain ⟨made, hMade, rfl⟩ := Option.map_eq_some_iff.mp h
    obtain ⟨old, hOld, rfl⟩ := Option.map_eq_some_iff.mp hMade
    have hSlot : (t.loots guid).items.length + (slot - (t.loots guid).items.length) = slot := by omega
    refine ⟨old, _, (if_pos hQuest).trans hOld, rfl, ?_, fun roll hRoll => ?_⟩
    · rw [hSlot]
      exact rollForQuestItem_starts members rules guid slot old
    · refine List.mem_append_right _ (List.mem_filterMap.mpr ⟨_, List.mem_append_right _ ?_, hRoll⟩)
      exact List.mem_of_getElem? (List.getElem?_mapIdx.trans hMade)
  · rename_i hItem
    obtain ⟨made, hMade, rfl⟩ := Option.map_eq_some_iff.mp h
    obtain ⟨old, hOld, rfl⟩ := Option.map_eq_some_iff.mp hMade
    refine ⟨old, _, (if_neg hItem).trans hOld, rfl, rollForItem_starts members rules guid slot old, ?_⟩
    intro roll hRoll
    refine List.mem_append_right _ (List.mem_filterMap.mpr ⟨_, List.mem_append_left _ ?_, hRoll⟩)
    exact List.mem_of_getElem? (List.getElem?_mapIdx.trans hMade)

theorem Released.groupLoot (h : t.Released rolled) (members : LinkedMembers) (rules : LootRules)
    (loot : ObjectGuid) : (t.groupLoot members rules loot).Released rolled := by
  intro guid slot hRolled item hItem hWaits
  have hOld : ∀ old, (t.loots guid).slot slot = some old → old.Waits →
      ∃ roll ∈ (t.groupLoot members rules loot).rollId, roll.loot = some guid ∧ roll.itemSlot = slot := by
    intro old hSome hOldWaits
    obtain ⟨roll, hRoll, hPlace⟩ := h guid slot hRolled old hSome hOldWaits
    exact ⟨roll, List.mem_append_left _ hRoll, hPlace⟩
  obtain rfl | hNe := eq_or_ne guid loot
  · obtain ⟨old, made, hSome, rfl, hStarts, hIn⟩ := slot_groupLoot hItem
    obtain hOldWaits | ⟨roll, hRoll, hPlace⟩ := hStarts hWaits
    · exact hOld old hSome hOldWaits
    · exact ⟨roll, hIn roll hRoll, hPlace⟩
  · apply hOld item _ hWaits
    exact (congrArg (fun l => Loot.slot l slot) (Function.update_of_ne hNe ..)).symm.trans hItem

theorem Released.replaceLoot (h : t.Released rolled) (guid : ObjectGuid) (loot : Loot) :
    (t.replaceLoot guid loot).Released (rolled.filter fun place => place.1 ≠ guid) := by
  intro other slot hRolled item hItem hWaits
  obtain ⟨hIn, hOther⟩ := List.mem_filter.mp hRolled
  have hNe : other ≠ guid := of_decide_eq_true hOther
  have hSame : (t.loots other).slot slot = some item :=
    (congrArg (fun l => Loot.slot l slot) (Function.update_of_ne hNe ..)).symm.trans hItem
  obtain ⟨roll, hRoll, hLoot, hSlot⟩ := h other slot hIn item hSame hWaits
  refine ⟨roll, List.mem_map.mpr ⟨roll, hRoll, if_neg ?_⟩, hLoot, hSlot⟩
  rw [hLoot]
  exact fun hEq => hNe (Option.some.inj hEq)

/-! ### Votes, time and removal -/

/-- A complete roll that is still there is one that everyone passes on beforehand. -/
def AllOpen (t : RollTable) : Prop :=
  ∀ roll ∈ t.rollId, roll.Emitted → ∀ entry ∈ roll.playerVote.entries, entry.2 = .pass

variable {roll : Roll}

theorem voted_decided (h : roll.Sound) {entry : ObjectGuid × RollVote}
    (hEntry : roll.playerVote.find? guid.toNat = some entry)
    (hOld : entry.2 = .pass ∨ entry.2 = .notEmitedYet) (choice : UInt8) :
    (roll.voted guid choice).Decided := by
  unfold Roll.voted
  cases hChoice : RollVote.ofChoice choice with
  | none => exact h.decided
  | some vote =>
    obtain ⟨-, hNeed, hGreed⟩ := h.total_lt
    have hIsNeed := @Roll.number_setVote roll _ _ hEntry vote (· = .need)
    have hIsGreed := @Roll.number_setVote roll _ _ hEntry vote RollVote.isGreed
    have hNotNeed : decide (entry.2 = RollVote.need) = false := by
      obtain hOld | hOld := hOld <;> rw [hOld] <;> rfl
    have hNotGreed : entry.2.isGreed = false := by
      obtain hOld | hOld := hOld <;> rw [hOld] <;> rfl
    rw [hNotNeed] at hIsNeed
    rw [hNotGreed] at hIsGreed
    have hNeedSucc := toNat_succ hNeed
    have hGreedSucc := toNat_succ hGreed
    rw [h.need] at hNeedSucc
    rw [h.greed] at hGreedSucc
    obtain rfl | rfl | rfl | rfl := RollVote.ofChoice_eq_some hChoice
    · exact ⟨h.need.trans hIsNeed.symm, h.greed.trans hIsGreed.symm⟩
    · exact ⟨hNeedSucc.trans hIsNeed.symm, h.greed.trans hIsGreed.symm⟩
    · exact ⟨h.need.trans hIsNeed.symm, hGreedSucc.trans hIsGreed.symm⟩
    · exact ⟨h.need.trans hIsNeed.symm, hGreedSucc.trans hIsGreed.symm⟩

theorem rollFor_votes (members : LinkedMembers) (rules : LootRules) (passes : ObjectGuid → Bool)
    (item : LootItem) : ∀ entry ∈ (rollFor members rules passes item).playerVote.entries,
      entry.2 = .pass ∨ entry.2 = .notEmitedYet := by
  have hStep : ∀ (roll : Roll) (guid : ObjectGuid),
      (∀ entry ∈ roll.playerVote.entries, entry.2 = RollVote.pass ∨ entry.2 = .notEmitedYet) →
      ∀ entry ∈ (if rules.allowed item guid then roll.addPlayer guid (passes guid) else roll).playerVote.entries,
        entry.2 = RollVote.pass ∨ entry.2 = .notEmitedYet := by
    intro roll guid h entry hEntry
    split at hEntry
    · unfold Roll.addPlayer at hEntry
      dsimp only at hEntry
      split at hEntry
      · obtain rfl | ⟨hOld, -⟩ := KeyedSet.mem_assign.mp hEntry
        · exact Or.inl rfl
        · exact h entry hOld
      · obtain rfl | ⟨hOld, -⟩ := KeyedSet.mem_assign.mp hEntry
        · exact Or.inr rfl
        · exact h entry hOld
    · exact h entry hEntry
  exact Transition.invariant hStep (fun _ hEntry => absurd hEntry List.not_mem_nil) members.guids

theorem startRoll_playerVote {loot : ObjectGuid} {slot : Nat} {item : LootItem} {started : Roll}
    (h : (startRoll loot slot item roll).2 = some started) : started.playerVote = roll.playerVote := by
  unfold startRoll at h
  split at h
  · obtain rfl := Option.some.inj h
    rfl
  · cases h

theorem AllOpen.groupLoot (h : t.AllOpen) (members : LinkedMembers) (rules : LootRules) (loot : ObjectGuid) :
    (t.groupLoot members rules loot).AllOpen := by
  intro roll hRoll
  obtain hOld | ⟨slot, item, passes, hStarted⟩ := mem_groupLoot hRoll
  · exact h roll hOld
  · intro hEmitted entry hEntry
    have hVote := hEmitted entry hEntry
    rw [startRoll_playerVote hStarted] at hEntry
    exact (rollFor_votes members rules passes item entry hEntry).resolve_right hVote

theorem AllOpen.replaceLoot (h : t.AllOpen) (guid : ObjectGuid) (loot : Loot) :
    (t.replaceLoot guid loot).AllOpen := by
  intro roll hRoll
  obtain ⟨old, hOld, rfl⟩ := List.mem_map.mp hRoll
  have hOpen := h old hOld
  split
  · exact hOpen
  · exact hOpen

theorem AllOpen.countTheRoll (h : t.AllOpen) (i : Fin t.rollId.length) :
    (t.countTheRoll answers i).table.AllOpen := by
  intro roll hRoll
  rw [countTheRoll_rollId] at hRoll
  exact h roll (List.mem_of_mem_eraseIdx hRoll)

theorem AllOpen.countChanged (h : t.AllOpen) (i : Fin t.rollId.length) (roll : Roll) :
    (t.countChanged answers i roll).table.AllOpen := by
  intro other hOther
  rw [countChanged_rollId] at hOther
  exact h other (List.mem_of_mem_eraseIdx hOther)

theorem AllOpen.setRoll (h : t.AllOpen) (i : Fin t.rollId.length) (hSound : roll.Sound)
    (hOpen : ¬ roll.complete) : (t.setRoll i roll).AllOpen := by
  intro other hOther hEmitted
  obtain hOld | rfl := List.mem_or_eq_of_mem_set hOther
  · exact h other hOld hEmitted
  · exact absurd (hSound.complete_iff.mpr hEmitted) hOpen

/-! ### Turns -/

structure Held (t : RollTable) (rolled : List (ObjectGuid × Nat)) : Prop where
  sound : t.AllSound
  opened : t.AllOpen
  released : t.Released rolled

theorem Held.countRollVote (h : t.Held rolled) {player loot : ObjectGuid} {lootListId choice : UInt8}
    (hGood : t.FirstVote player loot lootListId choice)
    (hConnected : (t.countRollVote answers player loot lootListId choice).WinnersConnected answers) :
    (t.countRollVote answers player loot lootListId choice).table.Held rolled ∧
      (t.countRollVote answers player loot lootListId choice).WinnersPreferred := by
  have hSoundNext := @RollTable.AllSound.countRollVote t answers h.sound _ _ _ _ hGood
  obtain ⟨hTurn, -⟩ | ⟨i, entry, hEntry, hFirst, hTurn⟩ :=
    countRollVote_cases answers t player loot lootListId choice
  · rw [hTurn]
    exact ⟨h, Turn.winnersPreferred_nil t⟩
  · have hRoll : (t.rollId.get i).Sound := h.sound _ (List.get_mem ..)
    obtain ⟨hLoot, hSlot⟩ := (t.rollId.get i).voted_place player choice
    have hDecided : ((t.rollId.get i).voted player choice).Decided := by
      cases hChoice : RollVote.ofChoice choice with
      | none =>
        unfold Roll.voted
        rw [hChoice]
        exact hRoll.decided
      | some vote =>
        refine voted_decided hRoll hEntry ?_ choice
        obtain hPending | hEmitted := hFirst.mp hGood (hChoice ▸ rfl)
        · exact Or.inr hPending
        · exact Or.inl (h.opened _ (List.get_mem ..) hEmitted entry (KeyedSet.find?_eq_some_iff.mp hEntry).1)
    rw [hTurn] at hConnected hSoundNext ⊢
    split
    · rename_i hComplete
      rw [if_pos hComplete] at hConnected hSoundNext
      exact ⟨⟨hSoundNext, h.opened.countChanged i _, h.released.countChanged i hDecided hLoot hSlot hConnected⟩,
        countChanged_winners i hDecided⟩
    · rename_i hOpen
      rw [if_neg hOpen] at hSoundNext
      have hVoted := hSoundNext _ (List.mem_set i.isLt _)
      exact ⟨⟨hSoundNext, h.opened.setRoll i hVoted hOpen, h.released.setRoll i hLoot hSlot⟩,
        Turn.winnersPreferred_nil _⟩

theorem WinnersConnected.split {turn rest : Turn} (h : (turn.followedBy rest).WinnersConnected answers) :
    turn.WinnersConnected answers ∧ rest.WinnersConnected answers :=
  ⟨fun counted hCounted => h counted (List.mem_append_left _ hCounted),
    fun counted hCounted => h counted (List.mem_append_right _ hCounted)⟩

theorem Held.endRollFrom (h : t.Held rolled) {loot : ObjectGuid} {fuel : Nat}
    (hConnected : (endRollFrom answers loot fuel t).WinnersConnected answers) :
    (endRollFrom answers loot fuel t).table.Held rolled ∧
      (endRollFrom answers loot fuel t).WinnersPreferred := by
  induction fuel generalizing t with
  | zero => exact ⟨h, Turn.winnersPreferred_nil t⟩
  | succ fuel ih =>
    rw [RollTable.endRollFrom] at hConnected ⊢
    split
    · exact ⟨h, Turn.winnersPreferred_nil t⟩
    · rename_i i hFound
      rw [hFound] at hConnected
      obtain ⟨hFirst, hRest⟩ := WinnersConnected.split hConnected
      have hDecided := (h.sound _ (List.get_mem t.rollId i)).decided
      obtain ⟨hHeld, hPreferred⟩ := ih ⟨h.sound.countTheRoll i, h.opened.countTheRoll i,
        h.released.countTheRoll i hDecided hFirst⟩ hRest
      exact ⟨hHeld, (countTheRoll_winners i hDecided).followedBy hPreferred⟩

theorem Held.removeVotes {i : Nat} {turn : Turn} (h : t.Held rolled)
    (hTurn : removeVotes answers guid t i = some turn) (hConnected : turn.WinnersConnected answers) :
    turn.table.Held rolled ∧ turn.WinnersPreferred := by
  induction t, i using removeVotes.induct answers guid generalizing turn with
  | case1 t i hi hNone ih =>
    rw [removeVotes_absent hi hNone] at hTurn
    exact ih h hTurn hConnected
  | case2 t i hi entry hEntry hComplete hEmpty =>
    rw [removeVotes_present hi hEntry, if_pos hComplete, if_pos hEmpty] at hTurn
    cases hTurn
  | case3 t i hi entry hEntry hComplete hMore ih =>
    rw [removeVotes_present hi hEntry, if_pos hComplete, if_neg hMore] at hTurn
    obtain ⟨rest, hRest, rfl⟩ := Option.map_eq_some_iff.mp hTurn
    obtain ⟨hFirst, hLater⟩ := WinnersConnected.split hConnected
    have hDecided := ((h.sound _ (List.get_mem ..)).withdraw hEntry).decided
    obtain ⟨hLoot, hSlot⟩ := (t.rollId.get ⟨i, hi⟩).withdraw_place guid entry.2
    obtain ⟨hHeld, hPreferred⟩ := ih ⟨h.sound.countChanged ⟨i, hi⟩ _, h.opened.countChanged ⟨i, hi⟩ _,
      h.released.countChanged ⟨i, hi⟩ hDecided hLoot hSlot hFirst⟩ hRest hLater
    exact ⟨hHeld, (countChanged_winners ⟨i, hi⟩ hDecided).followedBy hPreferred⟩
  | case4 t i hi entry hEntry hOpen ih =>
    rw [removeVotes_present hi hEntry, if_neg hOpen] at hTurn
    have hSound := (h.sound _ (List.get_mem ..)).withdraw hEntry
    obtain ⟨hLoot, hSlot⟩ := (t.rollId.get ⟨i, hi⟩).withdraw_place guid entry.2
    exact ih ⟨h.sound.setRoll ⟨i, hi⟩ hSound, h.opened.setRoll ⟨i, hi⟩ hSound hOpen,
      h.released.setRoll ⟨i, hi⟩ hLoot hSlot⟩ hTurn hConnected
  | case5 t i hi =>
    rw [removeVotes_past hi] at hTurn
    obtain rfl := Option.some.inj hTurn
    exact ⟨h, Turn.winnersPreferred_nil t⟩

def NoneWaits (t : RollTable) : Prop :=
  ∀ roll ∈ t.rollId, ∀ guid, roll.loot = some guid →
    ∀ item, (t.loots guid).slot roll.itemSlot = some item → ¬ item.Waits

theorem Held.disband (h : t.Held rolled) (hNone : t.NoneWaits) : t.disband.Held rolled := by
  refine ⟨AllSound.disband t, fun _ hRoll => absurd hRoll List.not_mem_nil, ?_⟩
  intro guid slot hRolled item hItem hWaits
  obtain ⟨roll, hRoll, hLoot, rfl⟩ := h.released guid slot hRolled item hItem hWaits
  exact absurd hWaits (hNone roll hRoll guid hLoot item hItem)

theorem Held.mark (h : t.Held rolled) :
    t.Held (rolled ++ t.rollId.filterMap fun roll => roll.loot.map fun guid => (guid, roll.itemSlot)) :=
  ⟨h.sound, h.opened, h.released.mark⟩

end RollTable

/-! ## Every run -/

/-- The rolls of a group, and the slots that have had one since their loot was filled. -/
structure Session where
  table : RollTable
  rolled : List (ObjectGuid × Nat)

/-- The slots that had a roll before, without those of a loot that is filled anew. -/
def LootAction.keptSlots (rolled : List (ObjectGuid × Nat)) : LootAction → List (ObjectGuid × Nat)
  | .replaceLoot guid _ => rolled.filter fun place => place.1 ≠ guid
  | _ => rolled

def Session.after (session : Session) (action : LootAction) (turn : Turn) : Session where
  table := turn.table
  rolled := action.keptSlots session.rolled ++
    turn.table.rollId.filterMap fun roll => roll.loot.map fun guid => (guid, roll.itemSlot)

def play (state : Option Session) (action : LootAction) : Option Session :=
  state.bind fun session => (act session.table action).map (session.after action)

/-- Every item that was blocked for a roll is looted, unblocked or still has its roll, and
the announced winners have voted for the most preferred class. -/
def KeepsLoot (state : Option Session) (action : LootAction) : Prop :=
  ∃ session turn, state = some session ∧ act session.table action = some turn ∧
    turn.table.Released (session.after action turn).rolled ∧ turn.WinnersPreferred

def dropped (t : RollTable) : LootAction → Option RollTable
  | .disband | .removeMember _ .disbanded _ => some t
  | .removeMember answers (.dropped true) guid => (RollTable.removeVotes answers guid t 0).map Turn.table
  | _ => none

def LootAction.Connected (turn : Turn) : LootAction → Prop
  | .countRollVote answers .. | .endRoll answers _ | .removeMember answers .. => turn.WinnersConnected answers
  | _ => True

/-- Votes are counted once, winners are connected when their roll is counted, and a group is
not disbanded while an item waits for one of its rolls. -/
structure Orderly (state : Option Session) (action : LootAction) : Prop where
  once : CountsOnce (state.map Session.table) action
  connected : ∀ session turn, state = some session → act session.table action = some turn →
    action.Connected turn
  released : ∀ session last, state = some session → session.table.disbanded = false →
    dropped session.table action = some last → last.NoneWaits

open RollTable in
theorem act_held {session : Session} (h : session.table.Held session.rolled) {action : LootAction}
    (hGood : Orderly (some session) action) : ∃ turn, act session.table action = some turn ∧
      turn.table.Held (action.keptSlots session.rolled) ∧ turn.WinnersPreferred := by
  obtain ⟨t, rolled⟩ := session
  have hConnected := fun turn => hGood.connected ⟨t, rolled⟩ turn rfl
  have hNothing := Turn.winnersPreferred_nil
  cases hOff : t.disbanded with
  | true =>
    cases action with
    | replaceLoot guid loot =>
      exact ⟨_, rfl, ⟨h.sound.replaceLoot guid loot, h.opened.replaceLoot guid loot,
        h.released.replaceLoot guid loot⟩, hNothing _⟩
    | groupLoot | countRollVote | endRoll | removeMember | disband =>
      exact ⟨⟨t, []⟩, if_pos hOff, h, hNothing _⟩
  | false =>
    have hOn : ¬ t.disbanded = true := by rw [hOff]; decide
    have hOnce := hGood.once t rfl hOff
    have hReleased := fun last => hGood.released ⟨t, rolled⟩ last rfl hOff
    cases action with
    | replaceLoot guid loot =>
      exact ⟨_, rfl, ⟨h.sound.replaceLoot guid loot, h.opened.replaceLoot guid loot,
        h.released.replaceLoot guid loot⟩, hNothing _⟩
    | groupLoot members rules loot =>
      exact ⟨_, if_neg hOn, ⟨h.sound.groupLoot members rules loot, h.opened.groupLoot members rules loot,
        h.released.groupLoot members rules loot⟩, hNothing _⟩
    | countRollVote answers player loot lootListId choice =>
      have hAct : act t (.countRollVote answers player loot lootListId choice) = _ := if_neg hOn
      exact ⟨_, hAct, h.countRollVote hOnce (hConnected _ hAct)⟩
    | endRoll answers loot =>
      have hAct : act t (.endRoll answers loot) = _ := if_neg hOn
      exact ⟨_, hAct, h.endRollFrom (hConnected _ hAct)⟩
    | disband => exact ⟨_, if_neg hOn, h.disband (hReleased t rfl), hNothing _⟩
    | removeMember answers removal guid =>
      cases removal with
      | refused => exact ⟨_, if_neg hOn, h, hNothing _⟩
      | disbanded => exact ⟨_, if_neg hOn, h.disband (hReleased t rfl), hNothing _⟩
      | dropped disbands =>
        cases hRemoved : removeVotes answers guid t 0 with
        | none => exact absurd ((removeVotes_eq_none_iff h.sound).mp hRemoved) hOnce
        | some turn =>
          have hAct : act t (.removeMember answers (.dropped disbands) guid) =
              some (if disbands then ⟨turn.table.disband, turn.counted⟩ else turn) :=
            (if_neg hOn).trans (congrArg (Option.map _) hRemoved)
          have hWinners := hConnected _ hAct
          refine ⟨_, hAct, ?_⟩
          cases disbands
          · exact h.removeVotes hRemoved hWinners
          · obtain ⟨hHeld, hPreferred⟩ := h.removeVotes hRemoved hWinners
            exact ⟨hHeld.disband (hReleased turn.table (congrArg (Option.map Turn.table) hRemoved)), hPreferred⟩

def noLoot (loots : ObjectGuid → Loot) : Option Session := some ⟨⟨[], loots, false⟩, []⟩

/-- Along orderly runs no item stays blocked without a roll, and winners are preferred. -/
theorem loot_kept (loots : ObjectGuid → Loot) (actions : List LootAction)
    (h : Transition.Along play Orderly (noLoot loots) actions) :
    Transition.Along play KeepsLoot (noLoot loots) actions := by
  refine h.judge (I := fun state => ∃ session, state = some session ∧
    session.table.Held session.rolled) ?_ ⟨_, rfl, ?_⟩
  · rintro state action ⟨session, rfl, hHeld⟩ hGood
    obtain ⟨turn, hTurn, hNext, hPreferred⟩ := act_held hHeld hGood
    exact ⟨⟨session, turn, rfl, hTurn, hNext.mark.released, hPreferred⟩,
      session.after action turn, congrArg (Option.map _) hTurn, hNext.mark⟩
  · exact ⟨fun _ hRoll => absurd hRoll List.not_mem_nil, fun _ hRoll => absurd hRoll List.not_mem_nil,
      fun _ _ hRolled => absurd hRolled List.not_mem_nil⟩

theorem loot_kept_timer : Transition.Along play KeepsLoot (noLoot swordLoot)
    [.groupLoot ⟨[hunter, mage], by decide, by decide⟩ everyone corpse, .endRoll online corpse] := by
  refine loot_kept swordLoot _ ⟨⟨fun _ _ _ => trivial, fun _ _ _ _ => trivial, ?_⟩,
    ⟨fun _ _ _ => trivial, fun _ _ _ _ _ _ _ _ => rfl, ?_⟩, trivial⟩
  · rintro session last - - hLast
    cases hLast
  · rintro session last - - hLast
    cases hLast

/-! The hunter asks for the item and is gone when the mage's vote ends the roll. -/

def mageOnline : Answers := { online with connected := fun guid => guid = mage }

def winnerGone : List LootAction :=
  [.groupLoot hunterAndMage everyone corpse,
    .countRollVote online hunter corpse 0 1, .countRollVote mageOnline mage corpse 0 0]

/-- What is left of a session in view of one slot: whether it had a roll, whether no roll is
left at all, and the flags of its item. -/
def Session.view (session : Session) (guid : ObjectGuid) (slot : Nat) : Bool × Bool × Option (Bool × Bool) :=
  (session.rolled.contains (guid, slot), session.table.rollId.isEmpty,
    ((session.table.loots guid).slot slot).map fun item => (item.isBlocked, item.isLooted))

theorem not_released_of_view {session : Session} {guid : ObjectGuid} {slot : Nat}
    (h : session.view guid slot = (true, true, some (true, false))) :
    ¬ session.table.Released session.rolled := by
  obtain ⟨hRolled, hRest⟩ := Prod.mk.inj h
  obtain ⟨hEmpty, hItem⟩ := Prod.mk.inj hRest
  obtain ⟨item, hSlot, hFlags⟩ := Option.map_eq_some_iff.mp hItem
  obtain ⟨hBlocked, hLooted⟩ := Prod.mk.inj hFlags
  intro hReleased
  obtain ⟨roll, hRoll, -⟩ := hReleased guid slot (List.contains_iff_mem.mp hRolled) item hSlot ⟨hBlocked, hLooted⟩
  rw [List.isEmpty_iff.mp hEmpty] at hRoll
  cases hRoll

theorem offline_winner_blocks_item : ¬ Transition.Along play KeepsLoot (noLoot swordLoot) winnerGone := by
  rintro ⟨-, -, ⟨session, turn, hSession, hTurn, hReleased, -⟩, -⟩
  have hNext : Transition.run play (noLoot swordLoot) winnerGone =
      some (session.after (.countRollVote mageOnline mage corpse 0 0) turn) :=
    (congrArg (fun s => play s (.countRollVote mageOnline mage corpse 0 0)) hSession).trans
      (congrArg (Option.map _) hTurn)
  have hView : (Transition.run play (noLoot swordLoot) winnerGone).map (·.view corpse 0) =
      some (true, true, some (true, false)) := by
    decide
  rw [hNext] at hView
  exact not_released_of_view (Option.some.inj hView) hReleased

end AshamaneCore.Groups
