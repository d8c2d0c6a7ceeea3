import AshamaneCore.Game.GroupRolls
import AshamaneCore.Library.Tally
import AshamaneCore.Library.Transition

/-!
# Totals of a roll

The totals of a roll count its votes as long as nobody votes twice while others still have
to vote. A second vote is added to the totals and the first is not taken out again, so the
roll is counted early or its totals are wrong from then on.
-/

namespace AshamaneCore.Groups

open Library

theorem toNat_succ {a : UInt8} (h : a.toNat < 255) : (a + 1).toNat = a.toNat + 1 := by
  rw [UInt8.toNat_add]
  exact Nat.mod_eq_of_lt (Nat.succ_lt_succ h)

theorem toNat_pred {a : UInt8} (h : 0 < a.toNat) : (a - 1).toNat + 1 = a.toNat := by
  have hLe : (1 : UInt8) ≤ a := UInt8.le_iff_toNat_le.mpr h
  rw [UInt8.toNat_sub_of_le a 1 hLe]
  exact Nat.sub_add_cancel h

namespace RollVote

theorem ofChoice_eq_some {choice : UInt8} {vote : RollVote} (h : ofChoice choice = some vote) :
    vote = .pass ∨ vote = .need ∨ vote = .greed ∨ vote = .disenchant := by
  unfold ofChoice at h
  split at h
  · exact Or.inl (Option.some.inj h).symm
  · split at h
    · exact Or.inr (Or.inl (Option.some.inj h).symm)
    · split at h
      · exact Or.inr (Or.inr (Or.inl (Option.some.inj h).symm))
      · split at h
        · exact Or.inr (Or.inr (Or.inr (Option.some.inj h).symm))
        · cases h

end RollVote

namespace Roll

def number (roll : Roll) (p : RollVote → Bool) : Nat := roll.playerVote.entries.countP fun entry => p entry.2

structure Exact (roll : Roll) : Prop where
  pass : roll.totalPass.toNat = roll.number (· = .pass)
  need : roll.totalNeed.toNat = roll.number (· = .need)
  greed : roll.totalGreed.toNat = roll.number RollVote.isGreed
  rolling : roll.totalPlayersRolling.toNat = roll.number (· ≠ .notValid)

def Emitted (roll : Roll) : Prop := ∀ entry ∈ roll.playerVote.entries, entry.2 ≠ .notEmitedYet

/-- A vote is never made invalid, and no more players roll than a raid has. -/
structure WellFormed (roll : Roll) : Prop where
  valid : ∀ entry ∈ roll.playerVote.entries, entry.2 ≠ .notValid
  size : roll.playerVote.entries.length ≤ maxRaidSize

structure Sound (roll : Roll) : Prop extends Exact roll, WellFormed roll

variable {roll next : Roll}

theorem Sound.rolling_eq (h : roll.Sound) : roll.totalPlayersRolling.toNat = roll.playerVote.entries.length :=
  h.rolling.trans (List.countP_eq_length.mpr fun entry hEntry => by simpa using h.valid entry hEntry)

theorem Sound.sum (h : roll.Sound) :
    roll.totalPass.toNat + roll.totalNeed.toNat + roll.totalGreed.toNat + roll.number (· = .notEmitedYet) =
      roll.playerVote.entries.length := by
  rw [h.pass, h.need, h.greed]
  have hAll : ∀ entries : List (ObjectGuid × RollVote), (∀ entry ∈ entries, entry.2 ≠ .notValid) →
      (entries.countP fun e => e.2 = .pass) + (entries.countP fun e => e.2 = .need) +
        (entries.countP fun e => e.2.isGreed) + (entries.countP fun e => e.2 = .notEmitedYet) =
      entries.length := by
    intro entries
    induction entries with
    | nil => exact fun _ => rfl
    | cons entry entries ih =>
      intro hValid
      have hRest := ih fun e he => hValid e (List.mem_cons_of_mem _ he)
      have hHead := hValid entry List.mem_cons_self
      obtain ⟨guid, vote⟩ := entry
      simp only [List.countP_cons, List.length_cons]
      cases vote <;> simp [RollVote.isGreed] at hHead hRest ⊢ <;> omega
  exact hAll _ h.valid

theorem emitted_iff : roll.Emitted ↔ roll.number (· = .notEmitedYet) = 0 := by
  unfold Emitted number
  rw [List.countP_eq_zero]
  simp

theorem Sound.complete_iff (h : roll.Sound) : roll.complete = true ↔ roll.Emitted := by
  have hSum := h.sum
  rw [emitted_iff, complete, decide_eq_true_iff, h.rolling_eq]
  omega

/-! ## Changes of a roll -/

theorem Sound.of_same (h : roll.Sound) (hVotes : next.playerVote = roll.playerVote)
    (hPass : next.totalPass = roll.totalPass) (hNeed : next.totalNeed = roll.totalNeed)
    (hGreed : next.totalGreed = roll.totalGreed)
    (hRolling : next.totalPlayersRolling = roll.totalPlayersRolling) : next.Sound := by
  have hNumber : next.number = roll.number := by
    unfold number
    rw [hVotes]
  refine ⟨⟨?_, ?_, ?_, ?_⟩, hVotes ▸ h.valid, hVotes ▸ h.size⟩
  · rw [hPass, hNumber, h.pass]
  · rw [hNeed, hNumber, h.need]
  · rw [hGreed, hNumber, h.greed]
  · rw [hRolling, hNumber, h.rolling]

theorem number_setVote {guid : ObjectGuid} {entry : ObjectGuid × RollVote}
    (h : roll.playerVote.find? guid.toNat = some entry) (vote : RollVote) (p : RollVote → Bool) :
    (roll.setVote guid vote).number p + (if p entry.2 then 1 else 0) =
      roll.number p + if p vote then 1 else 0 :=
  Tally.countP_keyed_alter (fun e : ObjectGuid × RollVote => p e.2) h (fun e => (e.1, vote)) fun _ => rfl

theorem withdraw_playerVote (roll : Roll) (guid : ObjectGuid) (vote : RollVote) :
    (roll.withdraw guid vote).playerVote = roll.playerVote.erase guid.toNat := by
  cases vote <;> rfl

theorem number_withdraw {guid : ObjectGuid} {entry : ObjectGuid × RollVote}
    (h : roll.playerVote.find? guid.toNat = some entry) (p : RollVote → Bool) :
    (roll.withdraw guid entry.2).number p + (if p entry.2 then 1 else 0) = roll.number p := by
  unfold number
  rw [withdraw_playerVote]
  exact Tally.countP_keyed_erase (fun e : ObjectGuid × RollVote => p e.2) h

variable {guid : ObjectGuid} {vote : RollVote}

theorem setVote_valid (h : ∀ entry ∈ roll.playerVote.entries, entry.2 ≠ .notValid) (hVote : vote ≠ .notValid) :
    ∀ entry ∈ (roll.setVote guid vote).playerVote.entries, entry.2 ≠ .notValid := by
  intro entry hEntry
  obtain ⟨old, hOld, rfl⟩ := List.mem_map.mp hEntry
  split
  · exact hVote
  · exact h old hOld

theorem length_setVote (roll : Roll) (guid : ObjectGuid) (vote : RollVote) :
    (roll.setVote guid vote).playerVote.entries.length = roll.playerVote.entries.length :=
  List.length_map _

theorem Sound.total_lt (h : roll.Sound) : roll.totalPass.toNat < 255 ∧ roll.totalNeed.toNat < 255 ∧
    roll.totalGreed.toNat < 255 := by
  have hSum := h.sum
  have hSize := h.size
  unfold maxRaidSize at hSize
  omega

variable {entry : ObjectGuid × RollVote} {choice : UInt8}

theorem Sound.countVote (h : roll.Sound)
    (hEntry : roll.playerVote.find? guid.toNat = some entry) (hFirst : entry.2 = .notEmitedYet)
    (hVote : RollVote.ofChoice choice = some vote) :
    (roll.countVote guid vote).Sound := by
  obtain ⟨hPass, hNeed, hGreed⟩ := h.total_lt
  have hSet := @number_setVote roll _ _ hEntry
  have hRolling := hSet vote (· ≠ .notValid)
  have hIsPass := hSet vote (· = .pass)
  have hIsNeed := hSet vote (· = .need)
  have hIsGreed := hSet vote RollVote.isGreed
  rw [hFirst] at hRolling hIsPass hIsNeed hIsGreed
  have hReal := RollVote.ofChoice_eq_some hVote
  have hNotValid : vote ≠ .notValid := by
    rintro rfl
    simp at hReal
  have hSize : (roll.setVote guid vote).playerVote.entries.length ≤ maxRaidSize :=
    (length_setVote roll guid vote).trans_le h.size
  obtain rfl | rfl | rfl | rfl := hReal
  all_goals
    simp only [RollVote.isGreed, reduceCtorEq, decide_false, decide_true, Bool.or_self, Bool.or_true,
      Bool.or_false, Bool.false_eq_true, if_false, if_true, Nat.add_zero, ne_eq, not_false_eq_true]
      at hRolling hIsPass hIsNeed hIsGreed
    refine ⟨⟨?_, ?_, ?_, h.rolling.trans (Nat.succ.inj hRolling).symm⟩, setVote_valid h.valid hNotValid, hSize⟩
  · exact (toNat_succ hPass).trans ((congrArg (· + 1) h.pass).trans hIsPass.symm)
  · exact h.need.trans hIsNeed.symm
  · exact h.greed.trans hIsGreed.symm
  · exact h.pass.trans hIsPass.symm
  · exact (toNat_succ hNeed).trans ((congrArg (· + 1) h.need).trans hIsNeed.symm)
  · exact h.greed.trans hIsGreed.symm
  · exact h.pass.trans hIsPass.symm
  · exact h.need.trans hIsNeed.symm
  · exact (toNat_succ hGreed).trans ((congrArg (· + 1) h.greed).trans hIsGreed.symm)
  · exact h.pass.trans hIsPass.symm
  · exact h.need.trans hIsNeed.symm
  · exact (toNat_succ hGreed).trans ((congrArg (· + 1) h.greed).trans hIsGreed.symm)

theorem toNat_pred_of_add {a : UInt8} {n m : Nat} (h : a.toNat = n) (hLess : m + 1 = n) :
    (a - 1).toNat = m := by
  have hPred := toNat_pred (a := a) (by omega)
  omega

theorem Sound.withdraw (h : roll.Sound)
    (hEntry : roll.playerVote.find? guid.toNat = some entry) : (roll.withdraw guid entry.2).Sound := by
  have hNumber := @number_withdraw roll _ _ hEntry
  have hRolling := hNumber (· ≠ .notValid)
  have hIsPass := hNumber (· = .pass)
  have hIsNeed := hNumber (· = .need)
  have hIsGreed := hNumber RollVote.isGreed
  have hMem := (KeyedSet.find?_eq_some_iff.mp hEntry).1
  have hSublist : (roll.withdraw guid entry.2).playerVote.entries.Sublist roll.playerVote.entries := by
    rw [withdraw_playerVote]
    exact List.filter_sublist
  have hValid : ∀ e ∈ (roll.withdraw guid entry.2).playerVote.entries, e.2 ≠ .notValid :=
    fun e he => h.valid e (hSublist.subset he)
  have hSize := hSublist.length_le.trans h.size
  have hNotValid := h.valid entry hMem
  obtain ⟨owner, vote⟩ := entry
  cases vote
  case notValid => exact absurd rfl hNotValid
  all_goals
    simp only [RollVote.isGreed, reduceCtorEq, decide_false, decide_true, Bool.or_self, Bool.or_true,
      Bool.or_false, Bool.false_eq_true, if_false, if_true, Nat.add_zero, ne_eq, not_false_eq_true]
      at hRolling hIsPass hIsNeed hIsGreed
    refine ⟨⟨?_, ?_, ?_, toNat_pred_of_add h.rolling hRolling⟩, hValid, hSize⟩
  · exact toNat_pred_of_add h.pass hIsPass
  · exact h.need.trans hIsNeed.symm
  · exact h.greed.trans hIsGreed.symm
  · exact h.pass.trans hIsPass.symm
  · exact toNat_pred_of_add h.need hIsNeed
  · exact h.greed.trans hIsGreed.symm
  · exact h.pass.trans hIsPass.symm
  · exact h.need.trans hIsNeed.symm
  · exact toNat_pred_of_add h.greed hIsGreed
  · exact h.pass.trans hIsPass.symm
  · exact h.need.trans hIsNeed.symm
  · exact toNat_pred_of_add h.greed hIsGreed
  · exact h.pass.trans hIsPass.symm
  · exact h.need.trans hIsNeed.symm
  · exact h.greed.trans hIsGreed.symm

theorem Sound.countVote_total (h : roll.Sound) (guid : ObjectGuid)
    (hVote : RollVote.ofChoice choice = some vote) :
    (roll.countVote guid vote).totalPass.toNat + (roll.countVote guid vote).totalNeed.toNat +
        (roll.countVote guid vote).totalGreed.toNat =
      roll.totalPass.toNat + roll.totalNeed.toNat + roll.totalGreed.toNat + 1 := by
  obtain ⟨hPass, hNeed, hGreed⟩ := h.total_lt
  have hPassSucc := toNat_succ hPass
  have hNeedSucc := toNat_succ hNeed
  have hGreedSucc := toNat_succ hGreed
  obtain rfl | rfl | rfl | rfl := RollVote.ofChoice_eq_some hVote <;>
    simp only [Roll.countVote, Roll.setVote] <;> omega

theorem countVote_playerVote (roll : Roll) (guid : ObjectGuid)
    (hVote : RollVote.ofChoice choice = some vote) :
    (roll.countVote guid vote).playerVote = (roll.setVote guid vote).playerVote := by
  obtain rfl | rfl | rfl | rfl := RollVote.ofChoice_eq_some hVote <;> rfl

theorem countVote_rolling (roll : Roll) (guid : ObjectGuid) (vote : RollVote) :
    (roll.countVote guid vote).totalPlayersRolling = roll.totalPlayersRolling := by
  cases vote <;> rfl

theorem Emitted.countVote (h : roll.Emitted) (guid : ObjectGuid)
    (hVote : RollVote.ofChoice choice = some vote) : (roll.countVote guid vote).Emitted := by
  intro entry hEntry
  rw [countVote_playerVote roll guid hVote] at hEntry
  obtain ⟨old, hOld, rfl⟩ := List.mem_map.mp hEntry
  split
  · obtain rfl | rfl | rfl | rfl := RollVote.ofChoice_eq_some hVote <;> simp
  · exact h old hOld

theorem emitted_of_countVote (hEntry : roll.playerVote.find? guid.toNat = some entry)
    (hSecond : entry.2 ≠ .notEmitedYet) (hVote : RollVote.ofChoice choice = some vote)
    (h : (roll.countVote guid vote).Emitted) : roll.Emitted := by
  intro other hOther
  obtain hSame | hDiffers := eq_or_ne other.1.toNat guid.toNat
  · have hEq := roll.playerVote.key_injective hOther (KeyedSet.find?_eq_some_iff.mp hEntry).1
      (hSame.trans (KeyedSet.find?_eq_some_iff.mp hEntry).2.symm)
    exact hEq ▸ hSecond
  · apply h other
    rw [countVote_playerVote roll guid hVote]
    exact List.mem_map.mpr ⟨other, hOther, if_neg hDiffers⟩

theorem WellFormed.countVote (h : roll.WellFormed) (guid : ObjectGuid)
    (hVote : RollVote.ofChoice choice = some vote) : (roll.countVote guid vote).WellFormed := by
  have hVotes := countVote_playerVote roll guid hVote
  have hNotValid : vote ≠ .notValid := by
    rintro rfl
    simpa using RollVote.ofChoice_eq_some hVote
  constructor
  · rw [hVotes]
    exact setVote_valid h.valid hNotValid
  · rw [hVotes, length_setVote]
    exact h.size

theorem Sound.not_exact_countVote (h : roll.Sound)
    (hEntry : roll.playerVote.find? guid.toNat = some entry) (hSecond : entry.2 ≠ .notEmitedYet)
    (hVote : RollVote.ofChoice choice = some vote) :
    ¬ (roll.countVote guid vote).Exact := by
  intro hExact
  have hVotes := countVote_playerVote roll guid hVote
  have hReal := RollVote.ofChoice_eq_some hVote
  have hSound : (roll.countVote guid vote).Sound := ⟨hExact, h.toWellFormed.countVote guid hVote⟩
  have hPending := @number_setVote roll _ _ hEntry vote (· = .notEmitedYet)
  have hOld : (decide (entry.2 = RollVote.notEmitedYet)) = false := decide_eq_false hSecond
  have hNew : (decide (vote = RollVote.notEmitedYet)) = false := by
    obtain rfl | rfl | rfl | rfl := hReal <;> rfl
  have hSame : (roll.countVote guid vote).number (· = .notEmitedYet) = roll.number (· = .notEmitedYet) := by
    unfold number at hPending ⊢
    rw [hVotes]
    simpa [hOld, hNew] using hPending
  have hTotal := h.countVote_total guid hVote
  have hSum := h.sum
  have hAfter := hSound.sum
  rw [hVotes, length_setVote, hSame] at hAfter
  omega

/-! ## New rolls -/

theorem sound_new (item : LootItem) : (new item).Sound :=
  ⟨⟨rfl, rfl, rfl, rfl⟩, fun _ h => absurd h List.not_mem_nil, Nat.zero_le _⟩

theorem Sound.addPlayer (h : roll.Sound) (passes : Bool)
    (hFresh : roll.playerVote.contains guid.toNat = false)
    (hRoom : roll.playerVote.entries.length < maxRaidSize) : (roll.addPlayer guid passes).Sound := by
  obtain ⟨hPass, -, -⟩ := h.total_lt
  have hRolling : roll.totalPlayersRolling.toNat < 255 := by
    rw [h.rolling_eq]
    unfold maxRaidSize at hRoom
    omega
  have hNumber : ∀ (vote : RollVote) (p : RollVote → Bool),
      ((roll.playerVote.assign (guid, vote)).entries.countP fun entry => p entry.2) =
        roll.number p + if p vote then 1 else 0 :=
    fun vote p => Tally.countP_keyed_assign (fun e : ObjectGuid × RollVote => p e.2)
      (x := (guid, vote)) hFresh
  have hPerm : ∀ vote, (roll.playerVote.assign (guid, vote)).entries.Perm
      ((guid, vote) :: roll.playerVote.entries) := fun vote => KeyedSet.assign_perm hFresh
  have hValid : ∀ vote ≠ RollVote.notValid,
      ∀ entry ∈ (roll.playerVote.assign (guid, vote)).entries, entry.2 ≠ .notValid := by
    intro vote hVote entry hEntry
    obtain rfl | hOld := List.mem_cons.mp ((hPerm vote).mem_iff.mp hEntry)
    · exact hVote
    · exact h.valid entry hOld
  have hSize : ∀ vote, (roll.playerVote.assign (guid, vote)).entries.length ≤ maxRaidSize :=
    fun vote => (hPerm vote).length_eq.trans_le hRoom
  have hCount : ∀ {a : UInt8} {n m : Nat}, a.toNat < 255 → a.toNat = n → m = n + 1 → (a + 1).toNat = m :=
    fun hLess hEq hSucc => (toNat_succ hLess).trans ((congrArg (· + 1) hEq).trans hSucc.symm)
  unfold Roll.addPlayer
  dsimp only
  split
  · refine ⟨⟨?_, ?_, ?_, ?_⟩, hValid .pass (by decide), hSize .pass⟩
    · exact hCount hPass h.pass (hNumber .pass (· = .pass))
    · exact h.need.trans (hNumber .pass (· = .need)).symm
    · exact h.greed.trans (hNumber .pass RollVote.isGreed).symm
    · exact hCount hRolling h.rolling (hNumber .pass (· ≠ .notValid))
  · refine ⟨⟨?_, ?_, ?_, ?_⟩, hValid .notEmitedYet (by decide), hSize .notEmitedYet⟩
    · exact h.pass.trans (hNumber .notEmitedYet (· = .pass)).symm
    · exact h.need.trans (hNumber .notEmitedYet (· = .need)).symm
    · exact h.greed.trans (hNumber .notEmitedYet RollVote.isGreed).symm
    · exact hCount hRolling h.rolling (hNumber .notEmitedYet (· ≠ .notValid))

theorem addPlayer_playerVote (roll : Roll) (guid : ObjectGuid) (passes : Bool) :
    ∃ vote, (roll.addPlayer guid passes).playerVote = roll.playerVote.assign (guid, vote) := by
  cases passes
  · exact ⟨.notEmitedYet, rfl⟩
  · exact ⟨.pass, rfl⟩

end Roll

namespace RollTable

theorem rollFor_sound (members : LinkedMembers) (rules : LootRules) (passes : ObjectGuid → Bool)
    (item : LootItem) : (rollFor members rules passes item).Sound := by
  have hAll : ∀ (guids : List ObjectGuid) (roll : Roll), guids.Nodup → roll.Sound →
      (∀ guid ∈ guids, roll.playerVote.contains guid.toNat = false) →
      roll.playerVote.entries.length + guids.length ≤ maxRaidSize →
      (guids.foldl (fun roll guid =>
        if rules.allowed item guid then roll.addPlayer guid (passes guid) else roll) roll).Sound := by
    intro guids
    induction guids with
    | nil => exact fun roll _ h _ _ => h
    | cons guid guids ih =>
      intro roll hNodup h hFresh hRoom
      obtain ⟨hNotIn, hRest⟩ := List.nodup_cons.mp hNodup
      rw [List.length_cons] at hRoom
      rw [List.foldl_cons]
      split
      · obtain ⟨vote, hVotes⟩ := roll.addPlayer_playerVote guid (passes guid)
        have hPerm := KeyedSet.assign_perm (x := (guid, vote)) (hFresh guid List.mem_cons_self)
        apply ih _ hRest
        · exact h.addPlayer _ (hFresh guid List.mem_cons_self) (by omega)
        · intro other hOther
          rw [hVotes, Bool.eq_false_iff, Ne, KeyedSet.contains_iff]
          rintro ⟨entry, hEntry, hKey⟩
          obtain rfl | hOld := List.mem_cons.mp (hPerm.mem_iff.mp hEntry)
          · have hSame : guid = other := ObjectGuid.toNat_injective hKey
            exact hNotIn (hSame ▸ hOther)
          · exact Bool.eq_false_iff.mp (hFresh other (List.mem_cons_of_mem _ hOther))
              (KeyedSet.contains_iff.mpr ⟨entry, hOld, hKey⟩)
        · rw [hVotes, hPerm.length_eq, List.length_cons]
          omega
      · exact ih roll hRest h (fun other hOther => hFresh other (List.mem_cons_of_mem _ hOther)) (by omega)
  exact hAll members.guids (Roll.new item) members.nodup (Roll.sound_new item) (fun _ _ => rfl)
    ((Nat.zero_add _).trans_le members.size)

/-! ## All rolls of a group -/

def AllSound (t : RollTable) : Prop := ∀ roll ∈ t.rollId, roll.Sound

variable {t : RollTable} {answers : Answers}

variable {roll : Roll}

theorem startRoll_sound {loot : ObjectGuid} {slot : Nat} {item : LootItem} {started : Roll}
    (h : roll.Sound) (hStarted : (startRoll loot slot item roll).2 = some started) : started.Sound := by
  unfold startRoll at hStarted
  split at hStarted
  · obtain rfl := Option.some.inj hStarted
    exact h.of_same rfl rfl rfl rfl rfl
  · cases hStarted

theorem mem_groupLoot {members : LinkedMembers} {rules : LootRules} {guid : ObjectGuid}
    (h : roll ∈ (t.groupLoot members rules guid).rollId) : roll ∈ t.rollId ∨ ∃ slot item passes,
      (startRoll guid slot item (rollFor members rules passes item)).2 = some roll := by
  obtain hOld | hNew := List.mem_append.mp h
  · exact Or.inl hOld
  · obtain ⟨made, hMade, hSome⟩ := List.mem_filterMap.mp hNew
    refine Or.inr ?_
    obtain hItem | hQuest := List.mem_append.mp hMade
    · obtain ⟨i, hi, rfl⟩ := List.mem_mapIdx.mp hItem
      unfold rollForItem at hSome
      split at hSome
      · cases hSome
      · split at hSome
        · exact ⟨_, _, _, hSome⟩
        · cases hSome
    · obtain ⟨i, hi, rfl⟩ := List.mem_mapIdx.mp hQuest
      unfold rollForQuestItem at hSome
      split at hSome
      · exact ⟨_, _, _, hSome⟩
      · cases hSome

theorem AllSound.groupLoot (h : t.AllSound) (members : LinkedMembers) (rules : LootRules)
    (guid : ObjectGuid) : (t.groupLoot members rules guid).AllSound := by
  intro roll hRoll
  obtain hOld | ⟨slot, item, passes, hStarted⟩ := mem_groupLoot hRoll
  · exact h roll hOld
  · exact startRoll_sound (rollFor_sound ..) hStarted

theorem AllSound.replaceLoot (h : t.AllSound) (guid : ObjectGuid) (loot : Loot) :
    (t.replaceLoot guid loot).AllSound := by
  intro roll hRoll
  obtain ⟨old, hOld, rfl⟩ := List.mem_map.mp hRoll
  have hSound := h old hOld
  split
  · exact hSound.of_same rfl rfl rfl rfl rfl
  · exact hSound

theorem AllSound.disband (t : RollTable) : t.disband.AllSound :=
  fun _ hRoll => absurd hRoll List.not_mem_nil

theorem AllSound.countTheRoll (h : t.AllSound) (i : Fin t.rollId.length) :
    (t.countTheRoll answers i).table.AllSound := by
  intro roll hRoll
  rw [countTheRoll_rollId] at hRoll
  exact h roll (List.mem_of_mem_eraseIdx hRoll)

theorem AllSound.setRoll (h : t.AllSound) (i : Fin t.rollId.length) (hRoll : roll.Sound) :
    (t.setRoll i roll).AllSound := by
  intro other hOther
  obtain hOld | rfl := List.mem_or_eq_of_mem_set hOther
  · exact h other hOld
  · exact hRoll

/-! ### Votes -/

/-- The vote is the first of its player, or nobody has yet to vote. -/
def FirstVote (t : RollTable) (player loot : ObjectGuid) (lootListId choice : UInt8) : Prop :=
  ∀ i, t.getRoll loot lootListId = some i → (t.loots loot).items ≠ [] →
    (RollVote.ofChoice choice).isSome →
    ∀ entry, (t.rollId.get i).playerVote.find? player.toNat = some entry →
      entry.2 = .notEmitedYet ∨ (t.rollId.get i).Emitted

def AllEmitted (turn : Turn) : Prop := ∀ counted ∈ turn.counted, counted.roll.Emitted

theorem exists_entry_of_contains {votes : PlayerVote} {k : Nat} (h : votes.contains k = true) :
    ∃ entry, votes.find? k = some entry := by
  obtain ⟨entry, hMem, hKey⟩ := KeyedSet.contains_iff.mp h
  exact ⟨entry, KeyedSet.find?_eq_some_iff.mpr ⟨hMem, hKey⟩⟩

theorem AllSound.countChanged (h : t.AllSound) (i : Fin t.rollId.length) (roll : Roll) :
    (t.countChanged answers i roll).table.AllSound := by
  intro other hOther
  rw [countChanged_rollId] at hOther
  exact h other (List.mem_of_mem_eraseIdx hOther)

theorem countChanged_counted (answers : Answers) (t : RollTable) (i : Fin t.rollId.length) (roll : Roll) :
    ∃ won, (t.countChanged answers i roll).counted = [⟨roll, won⟩] := by
  have hGet : (t.setRoll i roll).rollId.get ⟨i, i.isLt.trans_eq List.length_set.symm⟩ = roll := by
    simp [setRoll]
  unfold RollTable.countChanged countTheRoll
  dsimp only
  rw [hGet]
  split
  · exact ⟨_, rfl⟩
  · exact ⟨_, rfl⟩

/-- What a turn has to keep: exact totals, and no roll counted while someone has yet to vote. -/
def Keeps (turn : Turn) : Prop := (∀ roll ∈ turn.table.rollId, roll.Exact) ∧ AllEmitted turn

theorem keeps_unchanged (h : t.AllSound) : Keeps ⟨t, []⟩ :=
  ⟨fun roll hRoll => (h roll hRoll).toExact, fun _ hCounted => absurd hCounted List.not_mem_nil⟩

theorem keeps_setRoll (h : t.AllSound) (i : Fin t.rollId.length) (hRoll : roll.Sound) :
    Keeps ⟨t.setRoll i roll, []⟩ := keeps_unchanged (h.setRoll i hRoll)

theorem keeps_countChanged (h : t.AllSound) (i : Fin t.rollId.length) {roll : Roll} :
    Keeps (t.countChanged answers i roll) ↔ roll.Emitted := by
  obtain ⟨won, hCounted⟩ := countChanged_counted answers t i roll
  constructor
  · intro hKeeps
    exact hKeeps.2 ⟨roll, won⟩ (hCounted ▸ List.mem_singleton_self _)
  · intro hEmitted
    refine ⟨fun other hOther => (h.countChanged i roll other hOther).toExact, fun counted hMem => ?_⟩
    rw [hCounted] at hMem
    obtain rfl := List.mem_singleton.mp hMem
    exact hEmitted

theorem countRollVote_cases (answers : Answers) (t : RollTable) (player loot : ObjectGuid)
    (lootListId choice : UInt8) :
    (t.countRollVote answers player loot lootListId choice = ⟨t, []⟩ ∧
      t.FirstVote player loot lootListId choice) ∨
    ∃ i entry, (t.rollId.get i).playerVote.find? player.toNat = some entry ∧
      (t.FirstVote player loot lootListId choice ↔
        ((RollVote.ofChoice choice).isSome → entry.2 = .notEmitedYet ∨ (t.rollId.get i).Emitted)) ∧
      t.countRollVote answers player loot lootListId choice =
        if ((t.rollId.get i).voted player choice).complete then
          t.countChanged answers i ((t.rollId.get i).voted player choice)
        else ⟨t.setRoll i ((t.rollId.get i).voted player choice), []⟩ := by
  unfold RollTable.countRollVote FirstVote
  split
  · rename_i hNone
    refine Or.inl ⟨rfl, fun i hi => ?_⟩
    rw [hNone] at hi
    cases hi
  · rename_i i hSome
    dsimp only
    split
    · rename_i hAbsent
      refine Or.inl ⟨rfl, fun j hj _ _ entry hEntry => ?_⟩
      obtain rfl := Option.some.inj (hSome.symm.trans hj)
      have hContains := KeyedSet.contains_iff.mpr ⟨entry, KeyedSet.find?_eq_some_iff.mp hEntry⟩
      rw [hContains] at hAbsent
      cases hAbsent
    · rename_i hPresent
      split
      · rename_i hItems
        exact Or.inl ⟨rfl, fun j _ hNonempty => absurd hItems hNonempty⟩
      · rename_i hItems
        obtain ⟨entry, hEntry⟩ := exists_entry_of_contains (by simpa using hPresent)
        refine Or.inr ⟨i, entry, hEntry, ⟨fun hAll hChoice => ?_, fun hGood j hj _ hChoice other hOther => ?_⟩, rfl⟩
        · exact hAll i hSome hItems hChoice entry hEntry
        · obtain rfl := Option.some.inj (hSome.symm.trans hj)
          obtain rfl := Option.some.inj (hEntry.symm.trans hOther)
          exact hGood hChoice

variable {entry : ObjectGuid × RollVote}

theorem voted_sound (roll : Roll) (h : roll.Sound) {guid : ObjectGuid}
    (hEntry : roll.playerVote.find? guid.toNat = some entry) {choice : UInt8}
    (hGood : (RollVote.ofChoice choice).isSome → entry.2 = .notEmitedYet ∨ roll.Emitted) :
    (roll.voted guid choice).Sound ∨
      (roll.voted guid choice).Emitted ∧ (roll.voted guid choice).complete := by
  unfold Roll.voted
  cases hChoice : RollVote.ofChoice choice with
  | none => exact Or.inl h
  | some vote =>
    dsimp only
    obtain hFirst | hEmitted := hGood (hChoice ▸ rfl)
    · exact Or.inl (h.countVote hEntry hFirst hChoice)
    · refine Or.inr ⟨hEmitted.countVote guid hChoice, ?_⟩
      have hComplete := h.complete_iff.mpr hEmitted
      have hTotal := h.countVote_total guid hChoice
      rw [Roll.complete, decide_eq_true_iff] at hComplete ⊢
      rw [Roll.countVote_rolling]
      omega

theorem good_of_voted (roll : Roll) (h : roll.Sound) {guid : ObjectGuid}
    (hEntry : roll.playerVote.find? guid.toNat = some entry) {choice : UInt8}
    (hKept : (roll.voted guid choice).Emitted ∨ (roll.voted guid choice).Exact)
    (hChoice : (RollVote.ofChoice choice).isSome) : entry.2 = .notEmitedYet ∨ roll.Emitted := by
  obtain ⟨vote, hVote⟩ := Option.isSome_iff_exists.mp hChoice
  rw [or_iff_not_imp_left]
  intro hSecond
  unfold Roll.voted at hKept
  rw [hVote] at hKept
  obtain hEmitted | hExact := hKept
  · exact Roll.emitted_of_countVote hEntry hSecond hVote hEmitted
  · exact absurd hExact (h.not_exact_countVote hEntry hSecond hVote)

theorem keeps_countRollVote_iff (h : t.AllSound) (player loot : ObjectGuid) (lootListId choice : UInt8) :
    Keeps (t.countRollVote answers player loot lootListId choice) ↔
      t.FirstVote player loot lootListId choice := by
  obtain ⟨hTurn, hFirst⟩ | ⟨i, entry, hEntry, hFirst, hTurn⟩ :=
    countRollVote_cases answers t player loot lootListId choice
  · rw [hTurn]
    exact iff_of_true (keeps_unchanged h) hFirst
  · have hSound : (t.rollId.get i).Sound := h _ (List.get_mem ..)
    rw [hTurn, hFirst]
    split
    · rename_i hComplete
      rw [keeps_countChanged h i]
      refine ⟨fun hEmitted => good_of_voted _ hSound hEntry (Or.inl hEmitted), fun hGood => ?_⟩
      obtain hVoted | ⟨hEmitted, -⟩ := voted_sound _ hSound hEntry hGood
      · exact hVoted.complete_iff.mp hComplete
      · exact hEmitted
    · rename_i hOpen
      refine ⟨fun hKeeps => ?_, fun hGood => ?_⟩
      · exact good_of_voted _ hSound hEntry (Or.inr (hKeeps.1 _ (List.mem_set i.isLt _)))
      · obtain hVoted | ⟨-, hComplete⟩ := voted_sound _ hSound hEntry hGood
        · exact keeps_setRoll h i hVoted
        · exact absurd hComplete hOpen

theorem AllSound.countRollVote (h : t.AllSound) {player loot : ObjectGuid} {lootListId choice : UInt8}
    (hGood : t.FirstVote player loot lootListId choice) :
    (t.countRollVote answers player loot lootListId choice).table.AllSound := by
  obtain ⟨hTurn, -⟩ | ⟨i, entry, hEntry, hFirst, hTurn⟩ :=
    countRollVote_cases answers t player loot lootListId choice
  · rw [hTurn]
    exact h
  · rw [hTurn]
    split
    · exact h.countChanged i _
    · rename_i hOpen
      obtain hVoted | ⟨-, hComplete⟩ := voted_sound _ (h _ (List.get_mem ..)) hEntry (hFirst.mp hGood)
      · exact h.setRoll i hVoted
      · exact absurd hComplete hOpen

/-! ### The timer -/

theorem AllSound.endRollFrom {loot : ObjectGuid} {fuel : Nat} (h : t.AllSound) :
    (endRollFrom answers loot fuel t).table.AllSound := by
  induction fuel generalizing t with
  | zero => exact h
  | succ fuel ih =>
    rw [RollTable.endRollFrom]
    split
    · exact h
    · rename_i i hFound
      exact ih (h.countTheRoll i)

/-! ### Removal -/

variable {guid : ObjectGuid} {i : Nat}

theorem removeVotes_past (hi : ¬ i < t.rollId.length) : removeVotes answers guid t i = some ⟨t, []⟩ := by
  rw [removeVotes, dif_neg hi]

theorem removeVotes_absent (hi : i < t.rollId.length)
    (hNone : (t.rollId.get ⟨i, hi⟩).playerVote.find? guid.toNat = none) :
    removeVotes answers guid t i = removeVotes answers guid t (i + 1) := by
  rw [removeVotes, dif_pos hi, hNone]

theorem removeVotes_present (hi : i < t.rollId.length)
    (hEntry : (t.rollId.get ⟨i, hi⟩).playerVote.find? guid.toNat = some entry) :
    removeVotes answers guid t i =
      if ((t.rollId.get ⟨i, hi⟩).withdraw guid entry.2).complete then
        if t.rollId.eraseIdx i = [] then none
        else (removeVotes answers guid (t.countWithdrawn answers ⟨i, hi⟩ guid entry.2).table 1).map
          (t.countWithdrawn answers ⟨i, hi⟩ guid entry.2).followedBy
      else removeVotes answers guid
        (t.setRoll ⟨i, hi⟩ ((t.rollId.get ⟨i, hi⟩).withdraw guid entry.2)) (i + 1) := by
  rw [removeVotes, dif_pos hi, hEntry]

theorem removeVotes_kept {turn : Turn} (h : t.AllSound)
    (hTurn : removeVotes answers guid t i = some turn) : turn.table.AllSound ∧ AllEmitted turn := by
  induction t, i using removeVotes.induct answers guid generalizing turn with
  | case1 t i hi hNone ih =>
    rw [removeVotes_absent hi hNone] at hTurn
    exact ih h hTurn
  | case2 t i hi entry hEntry hComplete hEmpty =>
    rw [removeVotes_present hi hEntry, if_pos hComplete, if_pos hEmpty] at hTurn
    cases hTurn
  | case3 t i hi entry hEntry hComplete hMore ih =>
    rw [removeVotes_present hi hEntry, if_pos hComplete, if_neg hMore] at hTurn
    obtain ⟨rest, hRest, rfl⟩ := Option.map_eq_some_iff.mp hTurn
    obtain ⟨hSound, hEmitted⟩ := ih (h.countChanged ⟨i, hi⟩ _) hRest
    have hLeft := ((h _ (List.get_mem ..)).withdraw hEntry).complete_iff.mp hComplete
    obtain ⟨-, hCounted⟩ := (@keeps_countChanged _ answers h ⟨i, hi⟩ _).mpr hLeft
    refine ⟨hSound, fun counted hMem => ?_⟩
    obtain hFirst | hLater := List.mem_append.mp hMem
    · exact hCounted counted hFirst
    · exact hEmitted counted hLater
  | case4 t i hi entry hEntry hOpen ih =>
    rw [removeVotes_present hi hEntry, if_neg hOpen] at hTurn
    exact ih (h.setRoll ⟨i, hi⟩ ((h _ (List.get_mem ..)).withdraw hEntry)) hTurn
  | case5 t i hi =>
    rw [removeVotes_past hi] at hTurn
    obtain rfl := Option.some.inj hTurn
    exact ⟨h, fun _ hCounted => absurd hCounted List.not_mem_nil⟩

theorem removeVotes_isSome (h : 0 < i ∨ 1 < t.rollId.length) : (removeVotes answers guid t i).isSome := by
  induction t, i using removeVotes.induct answers guid with
  | case1 t i hi hNone ih =>
    rw [removeVotes_absent hi hNone]
    exact ih (Or.inl (Nat.succ_pos i))
  | case2 t i hi entry hEntry hComplete hEmpty =>
    have hLength := congrArg List.length hEmpty
    rw [List.length_eraseIdx_of_lt hi, List.length_nil] at hLength
    omega
  | case3 t i hi entry hEntry hComplete hMore ih =>
    rw [removeVotes_present hi hEntry, if_pos hComplete, if_neg hMore, Option.isSome_map]
    exact ih (Or.inl Nat.one_pos)
  | case4 t i hi entry hEntry hOpen ih =>
    rw [removeVotes_present hi hEntry, if_neg hOpen]
    exact ih (Or.inl (Nat.succ_pos i))
  | case5 t i hi =>
    rw [removeVotes_past hi]
    rfl

/-- Only the vote of the member is missing in the only roll of the group. -/
def EndsLastRoll (t : RollTable) (guid : ObjectGuid) : Prop :=
  ∃ roll entry, t.rollId = [roll] ∧ roll.playerVote.find? guid.toNat = some entry ∧
    (roll.withdraw guid entry.2).Emitted

theorem removeVotes_eq_none_iff (h : t.AllSound) :
    removeVotes answers guid t 0 = none ↔ t.EndsLastRoll guid := by
  constructor
  · intro hNone
    have hShort : ¬ 1 < t.rollId.length := by
      intro hMany
      have hSome := @removeVotes_isSome t answers guid 0 (Or.inr hMany)
      rw [hNone] at hSome
      cases hSome
    by_cases hi : 0 < t.rollId.length
    · obtain ⟨roll, hRolls⟩ := List.length_eq_one_iff.mp (show t.rollId.length = 1 by omega)
      have hGet : t.rollId.get ⟨0, hi⟩ = roll := by simp [hRolls]
      cases hEntry : (t.rollId.get ⟨0, hi⟩).playerVote.find? guid.toNat with
      | none =>
        have hSome := @removeVotes_isSome t answers guid 1 (Or.inl Nat.one_pos)
        rw [removeVotes_absent hi hEntry] at hNone
        rw [hNone] at hSome
        cases hSome
      | some entry =>
        rw [removeVotes_present hi hEntry] at hNone
        have hSound := (h _ (List.get_mem t.rollId ⟨0, hi⟩)).withdraw hEntry
        split at hNone
        · rename_i hComplete
          exact ⟨roll, entry, hRolls, hGet ▸ hEntry, hGet ▸ hSound.complete_iff.mp hComplete⟩
        · have hSome := @removeVotes_isSome
            (t.setRoll ⟨0, hi⟩ ((t.rollId.get ⟨0, hi⟩).withdraw guid entry.2)) answers guid 1
            (Or.inl Nat.one_pos)
          rw [hNone] at hSome
          cases hSome
    · rw [removeVotes_past hi] at hNone
      cases hNone
  · rintro ⟨roll, entry, hRolls, hEntry, hEmitted⟩
    have hi : 0 < t.rollId.length := by simp [hRolls]
    have hGet : t.rollId.get ⟨0, hi⟩ = roll := by simp [hRolls]
    rw [← hGet] at hEntry hEmitted
    have hComplete := ((h _ (List.get_mem t.rollId ⟨0, hi⟩)).withdraw hEntry).complete_iff.mpr hEmitted
    rw [removeVotes_present hi hEntry, if_pos hComplete, if_pos (by simp [hRolls])]

end RollTable

/-! ## Every run -/

def proceed (state : Option RollTable) (action : LootAction) : Option RollTable :=
  state.bind fun t => (act t action).map Turn.table

namespace LootAction

/-- Rolls are counted for a member who votes or leaves, and not because time is up. -/
def byMember : LootAction → Bool
  | countRollVote .. | removeMember .. => true
  | _ => false

end LootAction

/-- The totals of all rolls are exact afterwards, and a vote or a removal has counted a roll
only when everyone in it had voted. -/
def KeepsTotals (state : Option RollTable) (action : LootAction) : Prop :=
  ∃ turn, (state.bind fun t => act t action) = some turn ∧ (∀ roll ∈ turn.table.rollId, roll.Exact) ∧
    (action.byMember → RollTable.AllEmitted turn)

/-- The action is no second vote before everyone has voted, and it does not remove the
member that the only roll waits for. -/
def CountsOnce (state : Option RollTable) (action : LootAction) : Prop :=
  ∀ t, state = some t → t.disbanded = false →
    match action with
    | .countRollVote _ player loot lootListId choice => t.FirstVote player loot lootListId choice
    | .removeMember _ (.dropped _) guid => ¬ t.EndsLastRoll guid
    | _ => True

def noRolls (loots : ObjectGuid → Loot) : Option RollTable := some ⟨[], loots, false⟩

variable {t : RollTable} {action : LootAction}

theorem keepsTotals_of_act {turn : Turn}
    (hTurn : act t action = some turn) : KeepsTotals (some t) action ↔
      (∀ roll ∈ turn.table.rollId, roll.Exact) ∧ (action.byMember → RollTable.AllEmitted turn) := by
  constructor
  · rintro ⟨other, hOther, hKeeps⟩
    obtain rfl := Option.some.inj (hTurn.symm.trans hOther)
    exact hKeeps
  · exact fun hKeeps => ⟨turn, hTurn, hKeeps⟩

theorem keepsTotals_of_sound {turn : Turn}
    (hTurn : act t action = some turn) (hSound : turn.table.AllSound)
    (hEmitted : action.byMember → RollTable.AllEmitted turn) : KeepsTotals (some t) action :=
  (keepsTotals_of_act hTurn).mpr ⟨fun roll hRoll => (hSound roll hRoll).toExact, hEmitted⟩

open RollTable in
theorem act_sound (h : t.AllSound)
    (hGood : CountsOnce (some t) action) : ∃ turn, act t action = some turn ∧ turn.table.AllSound ∧
      (action.byMember → AllEmitted turn) := by
  have hNothing : AllEmitted ⟨t, []⟩ := fun _ hCounted => absurd hCounted List.not_mem_nil
  cases hOff : t.disbanded with
  | true =>
    cases action with
    | replaceLoot guid loot => exact ⟨_, rfl, h.replaceLoot guid loot, fun hBy => by cases hBy⟩
    | groupLoot | countRollVote | endRoll | removeMember | disband =>
      exact ⟨⟨t, []⟩, if_pos hOff, h, fun _ => hNothing⟩
  | false =>
    have hOn : ¬ t.disbanded = true := by rw [hOff]; decide
    have hGoodNow := hGood t rfl hOff
    cases action with
    | replaceLoot guid loot => exact ⟨_, rfl, h.replaceLoot guid loot, fun hBy => by cases hBy⟩
    | groupLoot members rules loot =>
      exact ⟨_, if_neg hOn, h.groupLoot members rules loot, fun hBy => by cases hBy⟩
    | countRollVote answers player loot lootListId choice =>
      exact ⟨_, if_neg hOn, h.countRollVote hGoodNow,
        fun _ => ((keeps_countRollVote_iff h player loot lootListId choice).mpr hGoodNow).2⟩
    | endRoll answers loot => exact ⟨_, if_neg hOn, h.endRollFrom, fun hBy => by cases hBy⟩
    | disband => exact ⟨_, if_neg hOn, AllSound.disband t, fun hBy => by cases hBy⟩
    | removeMember answers removal guid =>
      cases removal with
      | refused => exact ⟨_, if_neg hOn, h, fun _ => hNothing⟩
      | disbanded =>
        exact ⟨_, if_neg hOn, AllSound.disband t, fun _ _ hCounted => absurd hCounted List.not_mem_nil⟩
      | dropped disbands =>
        cases hRemoved : removeVotes answers guid t 0 with
        | none => exact absurd ((removeVotes_eq_none_iff h).mp hRemoved) hGoodNow
        | some turn =>
          obtain ⟨hSound, hEmitted⟩ := removeVotes_kept h hRemoved
          refine ⟨_, (if_neg hOn).trans (congrArg (Option.map _) hRemoved), ?_⟩
          cases disbands
          · exact ⟨hSound, fun _ => hEmitted⟩
          · exact ⟨AllSound.disband _, fun _ => hEmitted⟩

open RollTable in
theorem keepsTotals_iff (h : t.AllSound) (action : LootAction) :
    KeepsTotals (some t) action ↔ CountsOnce (some t) action := by
  constructor
  · rintro hKeeps s hs hOff
    obtain rfl := Option.some.inj hs
    have hOn : ¬ t.disbanded = true := by rw [hOff]; decide
    cases action with
    | countRollVote answers player loot lootListId choice =>
      have hAct : act t (.countRollVote answers player loot lootListId choice) =
          some (t.countRollVote answers player loot lootListId choice) := if_neg hOn
      obtain ⟨hExact, hEmitted⟩ := (keepsTotals_of_act hAct).mp hKeeps
      exact (keeps_countRollVote_iff h player loot lootListId choice).mp ⟨hExact, hEmitted rfl⟩
    | removeMember answers removal guid =>
      cases removal with
      | dropped disbands =>
        intro hEnds
        obtain ⟨turn, hTurn, -⟩ := hKeeps
        have hNone : act t (.removeMember answers (.dropped disbands) guid) = none :=
          (if_neg hOn).trans (congrArg (Option.map _) ((removeVotes_eq_none_iff h).mpr hEnds))
        cases hNone.symm.trans hTurn
      | refused | disbanded => trivial
    | groupLoot | endRoll | disband | replaceLoot => trivial
  · intro hGood
    obtain ⟨turn, hTurn, hSound, hEmitted⟩ := act_sound h hGood
    exact keepsTotals_of_sound hTurn hSound hEmitted

/-- Along a run the totals stay exact, and rolls are counted by votes and removals only when
everyone has voted, if and only if no player votes again while others have yet to vote and
no removed member is the last one that the only roll waits for. -/
theorem totals_exact_iff (loots : ObjectGuid → Loot) (actions : List LootAction) :
    Transition.Along proceed KeepsTotals (noRolls loots) actions ↔
      Transition.Along proceed CountsOnce (noRolls loots) actions := by
  refine Transition.along_congr (I := fun state => ∃ t, state = some t ∧ t.AllSound) ?_ ?_ ?_ actions
  · rintro state action ⟨t, rfl, hSound⟩
    exact keepsTotals_iff hSound action
  · rintro state action ⟨t, rfl, hSound⟩ hGood
    obtain ⟨turn, hTurn, hNext, -⟩ := act_sound hSound hGood
    exact ⟨turn.table, congrArg (Option.map Turn.table) hTurn, hNext⟩
  · exact ⟨_, rfl, fun _ hRoll => absurd hRoll List.not_mem_nil⟩

/-! A player of two passes after asking for the item, and the roll ends without the other. -/

def hunter : ObjectGuid := ⟨1, 0x0800000000000000⟩

def mage : ObjectGuid := ⟨2, 0x0800000000000000⟩

def corpse : ObjectGuid := ⟨3, 0x4C00000000000000⟩

def sword : LootItem := ⟨19019, false, false, false, false, true⟩

def swordLoot (_ : ObjectGuid) : Loot := ⟨[sword], [], by decide⟩

def everyone : LootRules := ⟨fun _ => true, fun _ _ => true, fun _ => false⟩

def online : Answers := ⟨fun _ => true, fun _ _ => 0, fun _ _ => true⟩

def hunterAndMage : LinkedMembers := ⟨[hunter, mage], by decide, by decide⟩

def secondThoughts : List LootAction :=
  [.groupLoot hunterAndMage everyone corpse,
    .countRollVote online hunter corpse 0 1, .countRollVote online hunter corpse 0 0]

theorem second_vote_ends_roll :
    ¬ Transition.Along proceed KeepsTotals (noRolls swordLoot) secondThoughts := by
  rintro ⟨-, -, ⟨turn, hTurn, -, hEmitted⟩, -⟩
  have hPending : ((Transition.run proceed (noRolls swordLoot) (secondThoughts.take 2)).bind fun t =>
      act t (.countRollVote online hunter corpse 0 0)).map (fun turn => turn.counted.all fun counted =>
        counted.roll.playerVote.entries.all fun entry => entry.2 ≠ .notEmitedYet) = some false := by
    decide
  have hMap := (congrArg (Option.map _) hTurn).symm.trans hPending
  have hAll := Option.some.inj hMap
  rw [Bool.eq_false_iff] at hAll
  apply hAll
  rw [List.all_eq_true]
  intro counted hCounted
  rw [List.all_eq_true]
  exact fun entry hEntry => decide_eq_true (hEmitted rfl counted hCounted entry hEntry)

end AshamaneCore.Groups
