import AshamaneCore.Game.Group
import AshamaneCore.Game.Loot
import AshamaneCore.Library.RoundRobin

/-!
# Round-robin looting

The looter of a group passes the turn to the next member in the list that is near the
looted object. Players are found by their guid, and no player has the empty one.
-/

namespace AshamaneCore.Groups

open Library

universe u

structure LootingGroup extends Group where
  lootMethod : Looting.LootMethod
  looterGuid : ObjectGuid

/-- The players in the world, and who of them is near the looted object. -/
structure Nearby (Player : Type u) where
  findPlayer : ObjectGuid → Option Player
  getGUID : Player → ObjectGuid
  isAtGroupRewardDistance : Player → Bool
  getGUID_found : ∀ {guid player}, findPlayer guid = some player → getGUID player = guid
  findPlayer_empty : findPlayer .empty = none

namespace Group

def getMemberCSlot (g : Group) (guid : ObjectGuid) : Nat := g.memberSlots.findIdx fun slot => slot.guid = guid

def guids (g : Group) : List ObjectGuid := g.memberSlots.map MemberSlot.guid

theorem getMemberCSlot_eq (g : Group) (guid : ObjectGuid) : g.getMemberCSlot guid = g.guids.idxOf guid := by
  rw [getMemberCSlot, guids, List.idxOf, List.findIdx_map]
  rfl

theorem length_guids (g : Group) : g.guids.length = g.memberSlots.length := List.length_map _

end Group

namespace Nearby

variable {Player : Type u} (near : Nearby Player)

def reachable (guid : ObjectGuid) : Option Player := (near.findPlayer guid).filter near.isAtGroupRewardDistance

def eligible (guid : ObjectGuid) : Bool := (near.reachable guid).isSome

def search (slots : List MemberSlot) : Option Player := slots.findSome? fun slot => near.reachable slot.guid

variable {near}

theorem getGUID_reachable {guid : ObjectGuid} {player : Player} (h : near.reachable guid = some player) :
    near.getGUID player = guid :=
  near.getGUID_found (Option.filter_eq_some_iff.mp h).1

theorem ne_empty {guid : ObjectGuid} (h : near.eligible guid = true) : guid ≠ .empty := by
  rintro rfl
  rw [eligible, reachable, near.findPlayer_empty] at h
  cases h

variable (near)

theorem search_guid (slots : List MemberSlot) :
    (near.search slots).map near.getGUID = (slots.map MemberSlot.guid).find? near.eligible := by
  induction slots with
  | nil => rfl
  | cons slot slots ih =>
    rw [search, List.findSome?_cons, List.map_cons, List.find?_cons, eligible]
    cases hReach : near.reachable slot.guid with
    | none => exact ih
    | some player => exact congrArg some (getGUID_reachable hReach)

end Nearby

namespace LootingGroup

variable {Player : Type u} (near : Nearby Player) (g : LootingGroup)

/-- The search starts at the position and goes on from the start of the list. -/
def newLooter (position : Nat) : Option Player :=
  (near.search (g.memberSlots.drop position)).or (near.search (g.memberSlots.take position))

def passTurn (position : Nat) : LootingGroup :=
  match g.newLooter near position with
  | some player => if g.looterGuid ≠ near.getGUID player then { g with looterGuid := near.getGUID player } else g
  | none => { g with looterGuid := .empty }

def updateLooterGuid (ifneed : Bool) : LootingGroup :=
  if g.lootMethod = .freeForAll then g
  else
    let slot := g.getMemberCSlot g.looterGuid
    if slot < g.memberSlots.length then
      if ifneed = true ∧ near.eligible g.looterGuid = true then g else g.passTurn near (slot + 1)
    else g.passTurn near slot

def updates (n : Nat) : LootingGroup := (fun g => g.updateLooterGuid near false)^[n] g

def eligibleMembers : List ObjectGuid := g.guids.filter near.eligible

theorem updates_succ (n : Nat) : g.updates near (n + 1) = (g.updates near n).updateLooterGuid near false :=
  Function.iterate_succ_apply' _ n g

theorem newLooter_guid (position : Nat) :
    (g.newLooter near position).map near.getGUID = RoundRobin.turn near.eligible g.guids position := by
  rw [newLooter, RoundRobin.turn, Group.guids, ← List.map_drop, ← List.map_take, ← near.search_guid, ← near.search_guid]
  cases near.search (g.memberSlots.drop position) <;> rfl

theorem looterGuid_passTurn (position : Nat) :
    (g.passTurn near position).looterGuid = (RoundRobin.turn near.eligible g.guids position).getD .empty := by
  rw [← newLooter_guid, passTurn]
  cases g.newLooter near position with
  | none => rfl
  | some player =>
    simp only [Option.map_some, Option.getD_some]
    split
    · rfl
    · rename_i hSame
      exact not_not.mp hSame

theorem passTurn_frame (position : Nat) :
    (g.passTurn near position).toGroup = g.toGroup ∧ (g.passTurn near position).lootMethod = g.lootMethod := by
  rw [passTurn]
  split
  · split <;> exact ⟨rfl, rfl⟩
  · exact ⟨rfl, rfl⟩

theorem updateLooterGuid_frame (ifneed : Bool) :
    (g.updateLooterGuid near ifneed).toGroup = g.toGroup ∧
      (g.updateLooterGuid near ifneed).lootMethod = g.lootMethod := by
  simp only [updateLooterGuid]
  split
  · exact ⟨rfl, rfl⟩
  · split
    · split
      · exact ⟨rfl, rfl⟩
      · exact g.passTurn_frame near _
    · exact g.passTurn_frame near _

theorem updates_frame (n : Nat) :
    (g.updates near n).toGroup = g.toGroup ∧ (g.updates near n).lootMethod = g.lootMethod := by
  induction n with
  | zero => exact ⟨rfl, rfl⟩
  | succ n ih =>
    obtain ⟨hGroup, hMethod⟩ := (g.updates near n).updateLooterGuid_frame near false
    rw [updates_succ]
    exact ⟨hGroup.trans ih.1, hMethod.trans ih.2⟩

variable {near g}

theorem updateLooterGuid_cases (near : Nearby Player) (hMethod : g.lootMethod ≠ .freeForAll) (ifneed : Bool) :
    (g.looterGuid ∈ g.guids ∧ ifneed = true ∧ near.eligible g.looterGuid = true ∧ g.updateLooterGuid near ifneed = g) ∨
    (g.looterGuid ∈ g.guids ∧ ¬ (ifneed = true ∧ near.eligible g.looterGuid = true) ∧
      (g.updateLooterGuid near ifneed).looterGuid =
        (RoundRobin.turn near.eligible g.guids (g.guids.idxOf g.looterGuid + 1)).getD .empty) ∨
    (g.looterGuid ∉ g.guids ∧
      (g.updateLooterGuid near ifneed).looterGuid =
        (RoundRobin.turn near.eligible g.guids g.guids.length).getD .empty) := by
  simp only [updateLooterGuid, if_neg hMethod]
  rw [g.getMemberCSlot_eq, ← g.length_guids]
  by_cases hMem : g.looterGuid ∈ g.guids
  · rw [if_pos (List.idxOf_lt_length_iff.mpr hMem)]
    split
    · rename_i hNeed
      exact Or.inl ⟨hMem, hNeed.1, hNeed.2, rfl⟩
    · rename_i hPass
      exact Or.inr (Or.inl ⟨hMem, hPass, looterGuid_passTurn near g _⟩)
  · rw [if_neg (mt List.idxOf_lt_length_iff.mp hMem), List.idxOf_of_notMem hMem]
    exact Or.inr (Or.inr ⟨hMem, looterGuid_passTurn near g _⟩)

variable (near g)

structure Fair : Prop where
  /-- From the first call on, as many calls as there are eligible members name all of them in their order. -/
  cycle : ∃ first, ∀ n, (List.range (g.eligibleMembers near).length).map
    (fun k => (g.updates near (n + k + 1)).looterGuid) = (g.eligibleMembers near).rotate (first + n)
  next : ∀ before behind, g.guids = before ++ g.looterGuid :: behind →
    (g.updateLooterGuid near false).looterGuid =
      ((behind ++ before ++ [g.looterGuid]).filter near.eligible).head?.getD .empty
  kept : (g.updateLooterGuid near true).looterGuid = g.looterGuid ∧ g.looterGuid ≠ .empty ↔
    g.looterGuid ∈ g.guids ∧ near.eligible g.looterGuid = true
  cleared : ∀ ifneed, (g.updateLooterGuid near ifneed).looterGuid = .empty ↔
    ∀ guid ∈ g.guids, near.eligible guid = false
  restarted : g.looterGuid ∉ g.guids → ∀ ifneed,
    (g.updateLooterGuid near ifneed).looterGuid = (g.eligibleMembers near).head?.getD .empty

variable {near g}

theorem getD_turn_eq_empty {members : List ObjectGuid} {position : Nat} (h : position ≤ members.length) :
    (RoundRobin.turn near.eligible members position).getD .empty = .empty ↔
      ∀ guid ∈ members, near.eligible guid = false := by
  have hSome := RoundRobin.turn_isSome (p := near.eligible) h
  cases hTurn : RoundRobin.turn near.eligible members position with
  | none =>
    rw [hTurn, Option.isSome_none] at hSome
    refine iff_of_true rfl fun guid hMem => Bool.eq_false_iff.mpr fun hEligible => ?_
    exact Bool.false_ne_true (hSome.mpr ⟨guid, hMem, hEligible⟩)
  | some guid =>
    obtain ⟨hMem, hEligible⟩ := RoundRobin.turn_suitable hTurn
    refine iff_of_false (Nearby.ne_empty hEligible) fun hNone => ?_
    exact Bool.false_ne_true ((hNone guid hMem).symm.trans hEligible)

theorem cleared_iff (hMethod : g.lootMethod ≠ .freeForAll) (ifneed : Bool) :
    (g.updateLooterGuid near ifneed).looterGuid = .empty ↔ ∀ guid ∈ g.guids, near.eligible guid = false := by
  rcases updateLooterGuid_cases near hMethod ifneed with
    ⟨hMem, -, hEligible, hSame⟩ | ⟨hMem, -, hTurn⟩ | ⟨-, hTurn⟩
  · rw [hSame]
    refine iff_of_false (Nearby.ne_empty hEligible) fun hNone => ?_
    exact Bool.false_ne_true ((hNone _ hMem).symm.trans hEligible)
  · rw [hTurn]
    exact getD_turn_eq_empty (List.idxOf_lt_length_iff.mpr hMem)
  · rw [hTurn]
    exact getD_turn_eq_empty le_rfl

theorem looterGuid_next (hMethod : g.lootMethod ≠ .freeForAll) (hNodup : g.guids.Nodup) {i : Nat}
    (h : (g.eligibleMembers near)[i]? = some g.looterGuid) :
    (g.eligibleMembers near)[(i + 1) % (g.eligibleMembers near).length]? =
      some (g.updateLooterGuid near false).looterGuid := by
  have hMem : g.looterGuid ∈ g.guids := List.mem_of_mem_filter (List.mem_of_getElem? h)
  have hSome : i < (g.eligibleMembers near).length := (List.getElem?_eq_some_iff.mp h).1
  have hLt : (i + 1) % (g.eligibleMembers near).length < (g.eligibleMembers near).length :=
    Nat.mod_lt _ (Nat.zero_lt_of_lt hSome)
  rcases updateLooterGuid_cases near hMethod false with ⟨-, hNeed, -⟩ | ⟨-, -, hTurn⟩ | ⟨hOut, -⟩
  · cases hNeed
  · rw [hTurn, RoundRobin.turn_after hNodup h]
    change _ = some ((g.eligibleMembers near)[(i + 1) % (g.eligibleMembers near).length]?.getD .empty)
    rw [List.getElem?_eq_getElem hLt]
    rfl
  · exact absurd hMem hOut

theorem eligibleMembers_updates (n : Nat) : (g.updates near n).eligibleMembers near = g.eligibleMembers near := by
  rw [eligibleMembers, (g.updates_frame near n).1, eligibleMembers]

theorem looterGuid_mem (hMethod : g.lootMethod ≠ .freeForAll) (ifneed : Bool) (hSome : g.eligibleMembers near ≠ []) :
    (g.updateLooterGuid near ifneed).looterGuid ∈ g.eligibleMembers near := by
  have hTaken : ∀ position, position ≤ g.guids.length →
      (RoundRobin.turn near.eligible g.guids position).getD .empty ∈ g.eligibleMembers near := by
    intro position hPosition
    obtain ⟨guid, hMem⟩ := List.exists_mem_of_ne_nil _ hSome
    obtain ⟨looter, hTurn⟩ :=
      Option.isSome_iff_exists.mp ((RoundRobin.turn_isSome hPosition).mpr ⟨guid, List.mem_filter.mp hMem⟩)
    rw [hTurn]
    exact List.mem_filter.mpr (RoundRobin.turn_suitable hTurn)
  rcases updateLooterGuid_cases near hMethod ifneed with
    ⟨hMem, -, hEligible, hSame⟩ | ⟨hMem, -, hTurn⟩ | ⟨-, hTurn⟩
  · rw [hSame]
    exact List.mem_filter.mpr ⟨hMem, hEligible⟩
  · rw [hTurn]
    exact hTaken _ (List.idxOf_lt_length_iff.mpr hMem)
  · rw [hTurn]
    exact hTaken _ le_rfl

theorem looterGuid_updates (hMethod : g.lootMethod ≠ .freeForAll) (hNodup : g.guids.Nodup) {first : Nat}
    (h : (g.eligibleMembers near)[first]? = some (g.updates near 1).looterGuid) (k : Nat) :
    (g.eligibleMembers near)[(first + k) % (g.eligibleMembers near).length]? =
      some (g.updates near (k + 1)).looterGuid := by
  induction k with
  | zero =>
    rw [Nat.add_zero, Nat.mod_eq_of_lt (List.getElem?_eq_some_iff.mp h).1]
    exact h
  | succ k ih =>
    obtain ⟨hGroup, hSame⟩ := g.updates_frame near (k + 1)
    have hMethod' : (g.updates near (k + 1)).lootMethod ≠ .freeForAll := hSame ▸ hMethod
    have hNodup' : (g.updates near (k + 1)).guids.Nodup := hGroup ▸ hNodup
    rw [← eligibleMembers_updates (g := g) (k + 1)] at ih
    have hNext := looterGuid_next hMethod' hNodup' ih
    rw [eligibleMembers_updates, Nat.mod_add_mod] at hNext
    rw [updates_succ]
    exact hNext

theorem kept_iff (hMethod : g.lootMethod ≠ .freeForAll) :
    (g.updateLooterGuid near true).looterGuid = g.looterGuid ∧ g.looterGuid ≠ .empty ↔
      g.looterGuid ∈ g.guids ∧ near.eligible g.looterGuid = true := by
  constructor
  · rintro ⟨hSame, hFilled⟩
    have hSome : g.eligibleMembers near ≠ [] := by
      intro hNone
      apply hFilled
      rw [← hSame]
      exact (cleared_iff hMethod true).mpr fun guid hMem =>
        Bool.eq_false_iff.mpr fun hEligible => List.filter_eq_nil_iff.mp hNone guid hMem hEligible
    have hMem := looterGuid_mem hMethod true hSome
    rw [hSame] at hMem
    exact List.mem_filter.mp hMem
  · rintro ⟨hMem, hEligible⟩
    refine ⟨?_, Nearby.ne_empty hEligible⟩
    rcases updateLooterGuid_cases near hMethod true with ⟨-, -, -, hSame⟩ | ⟨-, hPass, -⟩ | ⟨hOut, -⟩
    · rw [hSame]
    · exact absurd ⟨rfl, hEligible⟩ hPass
    · exact absurd hMem hOut

theorem looterGuid_behind (hMethod : g.lootMethod ≠ .freeForAll) (hNodup : g.guids.Nodup)
    {before behind : List ObjectGuid} (hSplit : g.guids = before ++ g.looterGuid :: behind) :
    (g.updateLooterGuid near false).looterGuid =
      ((behind ++ before ++ [g.looterGuid]).filter near.eligible).head?.getD .empty := by
  have hMem : g.looterGuid ∈ g.guids := hSplit ▸ List.mem_append_right _ List.mem_cons_self
  have hBefore : g.looterGuid ∉ before := by
    intro hTwice
    rw [hSplit] at hNodup
    exact (List.nodup_append.mp hNodup).2.2 _ hTwice _ List.mem_cons_self rfl
  have hSlot : g.guids.idxOf g.looterGuid + 1 = (before ++ [g.looterGuid]).length := by
    conv_lhs => rw [hSplit]
    rw [List.idxOf_append_of_notMem hBefore, List.idxOf_cons_self, List.length_append]
    rfl
  have hRotate : g.guids.rotate (g.guids.idxOf g.looterGuid + 1) = behind ++ before ++ [g.looterGuid] :=
    calc g.guids.rotate (g.guids.idxOf g.looterGuid + 1)
      _ = (before ++ [g.looterGuid] ++ behind).rotate (before ++ [g.looterGuid]).length := by
        rw [hSlot, List.append_assoc]
        exact congrArg (fun guids => guids.rotate (before ++ [g.looterGuid]).length) hSplit
      _ = behind ++ (before ++ [g.looterGuid]) := List.rotate_append_length_eq _ _
      _ = behind ++ before ++ [g.looterGuid] := (List.append_assoc _ _ _).symm
  rcases updateLooterGuid_cases near hMethod false with ⟨-, hNeed, -⟩ | ⟨-, -, hTurn⟩ | ⟨hOut, -⟩
  · cases hNeed
  · rw [hTurn, RoundRobin.turn_eq_head (List.idxOf_lt_length_iff.mpr hMem), hRotate]
  · exact absurd hMem hOut

theorem updateLooterGuid_fair (near : Nearby Player) (g : LootingGroup) (hNodup : g.guids.Nodup)
    (hMethod : g.lootMethod ≠ .freeForAll) : g.Fair near where
  cycle := by
    by_cases hNone : g.eligibleMembers near = []
    · refine ⟨0, fun n => ?_⟩
      rw [hNone, List.rotate_nil]
      rfl
    · obtain ⟨first, hFirst⟩ := List.mem_iff_getElem?.mp (looterGuid_mem hMethod false hNone)
      exact ⟨first, RoundRobin.cycle_eq_rotate (looterGuid_updates hMethod hNodup hFirst)⟩
  next _ _ hSplit := looterGuid_behind hMethod hNodup hSplit
  kept := kept_iff hMethod
  cleared := cleared_iff hMethod
  restarted hOut ifneed := by
    rcases updateLooterGuid_cases near hMethod ifneed with ⟨hMem, -⟩ | ⟨hMem, -⟩ | ⟨-, hTurn⟩
    · exact absurd hMem hOut
    · exact absurd hMem hOut
    · rw [hTurn, RoundRobin.turn_eq_head le_rfl, List.rotate_length]
      rfl

theorem maxRaidSubGroups_pos : 0 < maxRaidSubGroups := by decide

def awayGroup : LootingGroup where
  memberSlots := [⟨⟨1, 2⟩, ⟨0, maxRaidSubGroups_pos⟩⟩, ⟨⟨2, 2⟩, ⟨0, maxRaidSubGroups_pos⟩⟩,
    ⟨⟨3, 2⟩, ⟨0, maxRaidSubGroups_pos⟩⟩]
  subGroupsCounts := none
  groupFlags := ∅
  leaderGuid := ⟨1, 2⟩
  bgGroup := false
  bfGroup := false
  memberMgr := [⟨3, 2⟩, ⟨2, 2⟩, ⟨1, 2⟩]
  lootMethod := .groupLoot
  looterGuid := ⟨3, 2⟩

def nearbyAway : Nearby UInt64 where
  findPlayer guid := if guid.high = 2 ∧ guid.low ≠ 0 then some guid.low else none
  getGUID low := ⟨low, 2⟩
  isAtGroupRewardDistance low := low ≠ 2
  getGUID_found := by
    intro guid player h
    split at h
    · rename_i hPlayer
      obtain rfl := Option.some.inj h
      rw [← hPlayer.1]
    · cases h
  findPlayer_empty := rfl

theorem awayGroup_fair : awayGroup.Fair nearbyAway := updateLooterGuid_fair nearbyAway awayGroup (by decide) (by decide)

end LootingGroup

end AshamaneCore.Groups
