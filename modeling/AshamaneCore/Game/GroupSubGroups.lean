import AshamaneCore.Game.Group
import AshamaneCore.Library.Tally
import AshamaneCore.Library.Transition

/-!
# Sub-groups of a raid

The counters of a raid are kept by hand next to its member slots. They stay equal to the
slots of each sub-group, because a member is only ever added or moved to a sub-group with
a free slot, and a party that is made a raid has no more members than one sub-group holds.
-/

namespace AshamaneCore.Groups

open Library

namespace Group

def inSubGroup (g : Group) (k : SubGroup) : Nat := g.memberSlots.countP fun slot => slot.group = k

/-! ## Requests -/

/-- Whoever adds a member to a party makes sure that it is not full. A raid looks for a
place itself. -/
def handleAddMember (g : Group) (guid : ObjectGuid) : Group :=
  if !g.isRaidGroup && g.isFull then g else (g.addMember guid).getD g

def handleChangeSubGroup (g : Group) (target : ObjectGuid) (newSubGroup : UInt8) : Group :=
  if h : newSubGroup.toNat < maxRaidSubGroups then
    if g.hasFreeSlotSubGroup ⟨newSubGroup.toNat, h⟩ then
      g.changeMembersGroup target ⟨newSubGroup.toNat, h⟩
    else g
  else g

end Group

inductive Request
  | addMember (guid : ObjectGuid)
  | removeMember (around : Surroundings) (guid : ObjectGuid) (method : RemoveMethod)
  | changeSubGroup (target : ObjectGuid) (newSubGroup : UInt8)
  | swapSubGroups (first second : ObjectGuid)
  | convertToRaid
  | convertToGroup
  | login (guid : ObjectGuid)
  | logout (guid : ObjectGuid)

def handle : Option Group → Request → Option Group
  | none, _ => none
  | some g, .addMember guid => some (g.handleAddMember guid)
  | some g, .removeMember around guid method => g.removeMember around guid method
  | some g, .changeSubGroup target newSubGroup => some (g.handleChangeSubGroup target newSubGroup)
  | some g, .swapSubGroups first second => some (g.swapMembersGroups first second)
  | some g, .convertToRaid => some g.convertToRaid
  | some g, .convertToGroup => some g.convertToGroup
  | some g, .login guid => some { g with memberMgr := guid :: g.memberMgr }
  | some g, .logout guid => some { g with memberMgr := g.memberMgr.erase guid }

/-- A group as it was saved: no sub-group over its size, and a party no larger than one. -/
structure SavedGroup where
  leader : ObjectGuid
  flags : Finset GroupFlag
  rows : List MemberSlot
  fits : ∀ k : SubGroup, (rows.countP fun row => row.group = k) ≤ maxGroupSize
  party : GroupFlag.raid ∉ flags → rows.length ≤ maxGroupSize

inductive Origin
  | created (kind : GroupKind) (leader : ObjectGuid)
  | loaded (saved : SavedGroup) (found : ObjectGuid → Bool)

def Origin.group : Origin → Option Group
  | created kind leader => (Group.ofKind kind).create leader
  | loaded saved found => some (saved.rows.foldl (Group.loadMemberFromDB found)
      (Group.loadGroupFromDB saved.leader saved.flags))

/-! ## Counters -/

def Shows (counts : SubGroup → UInt8) (f : SubGroup → Nat) : Prop := ∀ k, counts k = UInt8.ofNat (f k)

section Shows

variable {counts : SubGroup → UInt8} {f g : SubGroup → Nat} {subGroup : SubGroup}

theorem Shows.increase (h : Shows counts f)
    (hAdd : ∀ k, g k = f k + if subGroup = k then 1 else 0) :
    Shows (Function.update counts subGroup (counts subGroup + 1)) g := by
  intro k
  rw [hAdd]
  obtain rfl | hNe := eq_or_ne subGroup k
  · rw [Function.update_self, h, if_pos rfl, UInt8.ofNat_add]
    rfl
  · rw [Function.update_of_ne hNe.symm, h, if_neg hNe, Nat.add_zero]

theorem Shows.decrease (h : Shows counts f)
    (hSub : ∀ k, g k + (if subGroup = k then 1 else 0) = f k) :
    Shows (Function.update counts subGroup (counts subGroup - 1)) g := by
  intro k
  have hk := hSub k
  obtain rfl | hNe := eq_or_ne subGroup k
  · rw [if_pos rfl] at hk
    rw [Function.update_self, h, ← hk, UInt8.ofNat_add]
    exact UInt8.add_sub_cancel ..
  · rw [if_neg hNe, Nat.add_zero] at hk
    rw [Function.update_of_ne hNe.symm, h, hk]

theorem Shows.toNat (h : Shows counts f) (hSmall : ∀ k, f k ≤ maxGroupSize) (k : SubGroup) :
    (counts k).toNat = f k := by
  have hk := hSmall k
  unfold maxGroupSize at hk
  rw [h k, UInt8.toNat_ofNat', Nat.mod_eq_of_lt (by omega)]

theorem iterate_ofNat (n : Nat) : (fun a : UInt8 => a + 1)^[n] 0 = UInt8.ofNat n := by
  induction n with
  | zero => rfl
  | succ n ih =>
    rw [Function.iterate_succ_apply', ih, UInt8.ofNat_add]
    rfl

end Shows

/-! ## What every request keeps -/

namespace Group

structure Counted (g : Group) : Prop where
  raid : g.isRaidGroup = g.subGroupsCounts.isSome
  counts : ∀ counts ∈ g.subGroupsCounts, Shows counts g.inSubGroup
  full : ∀ k, g.inSubGroup k ≤ maxGroupSize
  party : g.isRaidGroup = false → g.memberSlots.length ≤ maxGroupSize

theorem inSubGroup_concat {g next : Group} {slot : MemberSlot}
    (h : next.memberSlots = g.memberSlots ++ [slot]) (k : SubGroup) :
    next.inSubGroup k = g.inSubGroup k + if slot.group = k then 1 else 0 := by
  unfold inSubGroup
  rw [h, Tally.countP_concat]
  simp [Tally.weight]

theorem inSubGroup_le (g : Group) (k : SubGroup) : g.inSubGroup k ≤ g.memberSlots.length :=
  List.countP_le_length

variable {counts : SubGroup → UInt8}

theorem firstNotFull_eq_some {g : Group} {k : SubGroup} (h : g.firstNotFull = some k)
    (hCounts : g.subGroupsCounts = some counts) :
    (counts k).toNat < maxGroupSize ∧ ∀ j < k, maxGroupSize ≤ (counts j).toNat := by
  unfold firstNotFull at h
  rw [hCounts] at h
  dsimp only at h
  refine ⟨of_decide_eq_true (List.find?_some (p := fun k => decide ((counts k).toNat < maxGroupSize)) h),
    fun j hj => ?_⟩
  obtain ⟨-, i, hi, hEq, hBefore⟩ := List.find?_eq_some_iff_getElem.mp h
  have hVal : i = k := by
    have := congrArg Fin.val hEq
    simpa using this
  have hLess : (j : Nat) < i := hVal ▸ hj
  have hNot := hBefore j hLess
  simpa using hNot

theorem firstNotFull_isSome_iff {g : Group}
    (hCounts : g.subGroupsCounts = some counts) :
    g.firstNotFull.isSome ↔ ∃ k, (counts k).toNat < maxGroupSize := by
  unfold firstNotFull
  rw [hCounts]
  simp

variable {guid : ObjectGuid}

theorem addMember_eq_some {g next : Group} (h : g.addMember guid = some next) :
    ∃ k, g.firstNotFull = some k ∧ next.memberSlots = g.memberSlots ++ [⟨guid, k⟩] ∧
      next.groupFlags = g.groupFlags ∧
      next.subGroupsCounts = (g.subGroupCounterIncrease k).subGroupsCounts := by
  obtain ⟨k, hk, hNext⟩ := Option.bind_eq_some_iff.mp h
  obtain rfl := Option.some.inj hNext
  exact ⟨k, hk, rfl, rfl, rfl⟩

variable {g next : Group}

theorem Counted.of_counts (h : Counted g) (hCounts : next.subGroupsCounts = g.subGroupsCounts)
    (hSame : ∀ k, next.inSubGroup k = g.inSubGroup k)
    (hLength : next.memberSlots.length = g.memberSlots.length)
    (hFlags : next.groupFlags = g.groupFlags) : Counted next := by
  have hRaid : next.isRaidGroup = g.isRaidGroup := by
    unfold isRaidGroup
    rw [hFlags]
  refine ⟨by rw [hRaid, hCounts, h.raid], ?_, fun k => hSame k ▸ h.full k, ?_⟩
  · rw [hCounts, funext hSame]
    exact h.counts
  · rw [hRaid, hLength]
    exact h.party

theorem Counted.addMember (h : Counted g)
    (hRoom : g.isRaidGroup = false → g.isFull = false) (hNext : g.addMember guid = some next) : Counted next := by
  obtain ⟨k, hk, hSlots, hFlags, hCounts⟩ := addMember_eq_some hNext
  have hRaid : next.isRaidGroup = g.isRaidGroup := by
    unfold isRaidGroup
    rw [hFlags]
  have hParty : g.isRaidGroup = false → next.memberSlots.length ≤ maxGroupSize := by
    intro hOff
    have hNotFull := hRoom hOff
    have hLess : g.memberSlots.length < maxGroupSize := by simpa [isFull, hOff] using hNotFull
    rw [hSlots, List.length_append]
    exact hLess
  refine ⟨?_, ?_, fun j => ?_, fun hOff => hParty (hRaid ▸ hOff)⟩
  · rw [hRaid, hCounts, h.raid]
    exact Option.isSome_map.symm
  · intro counts hMem
    rw [hCounts] at hMem
    obtain ⟨old, hOld, rfl⟩ := Option.map_eq_some_iff.mp hMem
    exact (h.counts old hOld).increase (inSubGroup_concat hSlots)
  · cases hRaidG : g.isRaidGroup with
    | false => exact (inSubGroup_le next j).trans (hParty hRaidG)
    | true =>
      obtain ⟨counts, hSome⟩ := Option.isSome_iff_exists.mp (h.raid.symm.trans hRaidG)
      have hFree := (firstNotFull_eq_some hk hSome).1
      rw [(h.counts counts hSome).toNat h.full] at hFree
      rw [inSubGroup_concat hSlots]
      have hFull := h.full j
      split
      · rename_i hEq
        subst hEq
        exact hFree
      · exact hFull

theorem Counted.handleAddMember (h : Counted g) (guid : ObjectGuid) :
    Counted (g.handleAddMember guid) := by
  unfold Group.handleAddMember
  split
  · exact h
  · rename_i hRoom
    cases hNext : g.addMember guid with
    | none => exact h
    | some next => exact h.addMember (by simpa using hRoom) hNext

theorem Counted.changeMembersGroup (h : Counted g) {group : SubGroup}
    (hFree : g.hasFreeSlotSubGroup group) : Counted (g.changeMembersGroup guid group) := by
  unfold Group.changeMembersGroup
  split
  · exact h
  · rename_i hRaid
    split
    · exact h
    · rename_i slot hSlot
      dsimp only
      split
      · exact h
      · have hRaidG : g.isRaidGroup := by simpa using hRaid
        obtain ⟨counts, hSome⟩ := Option.isSome_iff_exists.mp (h.raid.symm.trans hRaidG)
        have hShows := h.counts counts hSome
        have hMoved : ∀ k, (g.setSlotGroup slot group).inSubGroup k +
            (if (g.memberSlots.get slot).group = k then 1 else 0) =
            g.inSubGroup k + if group = k then 1 else 0 := by
          intro k
          have hSet := Tally.countP_set (fun s : MemberSlot => s.group = k) g.memberSlots slot
            { g.memberSlots.get slot with group }
          simpa [Tally.weight, Group.inSubGroup, setSlotGroup] using hSet
        refine ⟨?_, ?_, fun k => ?_, fun hOff => absurd hRaidG (Bool.eq_false_iff.mp hOff)⟩
        · exact h.raid.trans (by simp [subGroupCounterDecrease, subGroupCounterIncrease, setSlotGroup])
        · intro after hAfter
          simp only [subGroupCounterDecrease, subGroupCounterIncrease, setSlotGroup, hSome,
            Option.map_some, Option.mem_def, Option.some.injEq] at hAfter
          subst hAfter
          exact (hShows.increase fun k => rfl).decrease hMoved
        · have hk := hMoved k
          have hFull := h.full k
          unfold hasFreeSlotSubGroup at hFree
          rw [hSome] at hFree
          have hLess : (counts group).toNat < maxGroupSize := of_decide_eq_true hFree
          rw [hShows.toNat h.full] at hLess
          change (g.setSlotGroup slot group).inSubGroup k ≤ maxGroupSize
          obtain rfl | hNe := eq_or_ne group k
          · rw [if_pos rfl] at hk
            omega
          · rw [if_neg hNe] at hk
            omega

theorem Counted.swapMembersGroups (h : Counted g) (firstGuid secondGuid : ObjectGuid) :
    Counted (g.swapMembersGroups firstGuid secondGuid) := by
  unfold Group.swapMembersGroups
  split
  · exact h
  · split
    · rename_i first second hFirst hSecond
      dsimp only
      split
      · exact h
      · rename_i hNe
        have hIndex : first ≠ second := by
          rintro rfl
          exact hNe rfl
        refine h.of_counts rfl (fun k => ?_) (List.length_set.trans List.length_set) rfl
        refine Tally.countP_exchange _ _ hIndex ?_ ?_ <;> rfl
    · exact h

theorem initRaidSubGroupsCounter_shows (h : g.initRaidSubGroupsCounter.subGroupsCounts = some counts) :
    Shows counts g.inSubGroup := by
  obtain rfl := Option.some.inj h
  intro k
  exact (Tally.foldl_update (· + 1) MemberSlot.group g.memberSlots (fun _ => 0) k).trans (iterate_ofNat _)

theorem Counted.convertToRaid (h : Counted g) : Counted g.convertToRaid := by
  have hRaid : g.convertToRaid.isRaidGroup = true := by
    simp [Group.convertToRaid, initRaidSubGroupsCounter, isRaidGroup]
  refine ⟨hRaid, ?_, h.full, fun hOff => absurd hRaid (Bool.eq_false_iff.mp hOff)⟩
  intro counts hCounts
  exact initRaidSubGroupsCounter_shows hCounts

theorem Counted.convertToGroup (h : Counted g) : Counted g.convertToGroup := by
  unfold Group.convertToGroup
  split
  · exact h
  · rename_i hSmall
    refine ⟨rfl, ?_, h.full, fun _ => Nat.le_of_not_lt hSmall⟩
    intro counts hCounts
    cases hCounts

/-! ## Leaving -/

theorem Counted.unlinkMember (h : Counted g) (around : Surroundings) (guid : ObjectGuid) :
    Counted (g.unlinkMember around guid) := h.of_counts rfl (fun _ => rfl) rfl rfl

theorem Counted.eraseSlot (h : Counted g) (guid : ObjectGuid) : Counted (g.eraseSlot guid) := by
  unfold Group.eraseSlot
  split
  · exact h
  · rename_i slot hSlot
    have hErased : ∀ k : SubGroup,
        ((g.memberSlots.eraseIdx slot).countP fun s => s.group = k) +
          (if (g.memberSlots.get slot).group = k then 1 else 0) = g.inSubGroup k := by
      intro k
      have hErase := Tally.countP_eraseIdx (fun s : MemberSlot => s.group = k) g.memberSlots slot
      simpa [Tally.weight, Group.inSubGroup] using hErase
    refine ⟨?_, ?_, fun k => ?_, fun hOff => ?_⟩
    · exact h.raid.trans Option.isSome_map.symm
    · intro after hAfter
      obtain ⟨counts, hCounts, rfl⟩ := Option.map_eq_some_iff.mp hAfter
      exact (h.counts counts hCounts).decrease hErased
    · have hk := hErased k
      have hFull := h.full k
      change (g.memberSlots.eraseIdx slot).countP _ ≤ maxGroupSize
      omega
    · exact (List.eraseIdx_sublist ..).length_le.trans (h.party hOff)

theorem Counted.pickLeader (h : Counted g) (around : Surroundings) (guid : ObjectGuid) :
    Counted (g.pickLeader around guid) := by
  unfold Group.pickLeader
  split
  · split
    · exact h.of_counts rfl (fun _ => rfl) rfl rfl
    · exact h
  · exact h

theorem Counted.dropMember (h : Counted g) {around : Surroundings}
    (hNext : g.dropMember around guid = some next) : Counted next := by
  unfold Group.dropMember at hNext
  dsimp only at hNext
  rw [Option.ite_none_left_eq_some, Option.ite_none_left_eq_some] at hNext
  obtain ⟨-, -, hEq⟩ := hNext
  obtain rfl := Option.some.inj hEq
  exact ((h.unlinkMember around guid).eraseSlot guid).pickLeader around guid

theorem Counted.removeMember (h : Counted g) {around : Surroundings}
    {method : RemoveMethod} (hNext : g.removeMember around guid method = some next) :
    Counted next := by
  unfold Group.removeMember at hNext
  split at hNext
  · exact Option.some.inj hNext ▸ h
  · split at hNext
    · exact h.dropMember hNext
    · cases hNext

/-! ## Where groups start -/

theorem counted_start (hEmpty : g.memberSlots = []) (hCounts : g.subGroupsCounts = none) :
    Counted (if g.isRaidGroup then g.initRaidSubGroupsCounter else g) := by
  have hNone : ∀ k, g.inSubGroup k = 0 := by
    intro k
    unfold inSubGroup
    rw [hEmpty]
    rfl
  split
  · rename_i hRaid
    refine ⟨hRaid, ?_, fun k => (hNone k).trans_le (Nat.zero_le _), fun _ => hEmpty ▸ Nat.zero_le _⟩
    exact fun counts hSome => initRaidSubGroupsCounter_shows hSome
  · rename_i hRaid
    refine ⟨?_, fun counts hSome => ?_, fun k => (hNone k).trans_le (Nat.zero_le _),
      fun _ => hEmpty ▸ Nat.zero_le _⟩
    · rw [hCounts]
      exact Bool.eq_false_iff.mpr hRaid
    · rw [hCounts] at hSome
      cases hSome

theorem counted_created {kind : GroupKind} {leader : ObjectGuid}
    (h : (ofKind kind).create leader = some g) : g.Counted := by
  unfold create at h
  dsimp only at h
  refine (counted_start ?_ ?_).addMember (fun _ => ?_) h
  all_goals cases kind <;> rfl

theorem Counted.loadMember (h : Counted g) {found : ObjectGuid → Bool} {row : MemberSlot}
    (hFits : g.inSubGroup row.group < maxGroupSize)
    (hParty : g.isRaidGroup = false → g.memberSlots.length < maxGroupSize) :
    Counted (loadMemberFromDB found g row) := by
  unfold loadMemberFromDB
  split
  · refine ⟨h.raid.trans Option.isSome_map.symm, ?_, fun k => ?_, fun hOff => ?_⟩
    · intro after hAfter
      obtain ⟨counts, hCounts, rfl⟩ := Option.map_eq_some_iff.mp hAfter
      exact (h.counts counts hCounts).increase (inSubGroup_concat rfl)
    · refine (@inSubGroup_concat g _ row rfl k).trans_le ?_
      have hFull := h.full k
      split
      · rename_i hEq
        exact hEq ▸ hFits
      · exact hFull
    · exact (List.length_append ..).trans_le (hParty hOff)
  · exact h

theorem inSubGroup_loadMemberFromDB_le (found : ObjectGuid → Bool) (g : Group) (row : MemberSlot)
    (k : SubGroup) : (loadMemberFromDB found g row).inSubGroup k ≤
      g.inSubGroup k + if row.group = k then 1 else 0 := by
  unfold loadMemberFromDB
  split
  · exact (@inSubGroup_concat g _ row rfl k).le
  · exact Nat.le_add_right ..

theorem length_loadMemberFromDB_le (found : ObjectGuid → Bool) (g : Group) (row : MemberSlot) :
    (loadMemberFromDB found g row).memberSlots.length ≤ g.memberSlots.length + 1 := by
  unfold loadMemberFromDB
  split
  · exact (List.length_append ..).le
  · exact Nat.le_succ _

theorem isRaidGroup_loadMemberFromDB (found : ObjectGuid → Bool) (g : Group) (row : MemberSlot) :
    (loadMemberFromDB found g row).isRaidGroup = g.isRaidGroup := by
  unfold loadMemberFromDB
  split <;> rfl

theorem Counted.loadMembers {found : ObjectGuid → Bool} {rows : List MemberSlot} (h : Counted g)
    (hFits : ∀ k, g.inSubGroup k + (rows.countP fun row => row.group = k) ≤ maxGroupSize)
    (hParty : g.isRaidGroup = false → g.memberSlots.length + rows.length ≤ maxGroupSize) :
    Counted (rows.foldl (loadMemberFromDB found) g) := by
  induction rows generalizing g with
  | nil => exact h
  | cons row rows ih =>
    apply ih
    · apply h.loadMember
      · have hRow := hFits row.group
        rw [List.countP_cons, decide_eq_true rfl, if_pos rfl] at hRow
        omega
      · intro hOff
        have hLength := hParty hOff
        rw [List.length_cons] at hLength
        omega
    · intro k
      have hRow := hFits k
      have hLe := inSubGroup_loadMemberFromDB_le found g row k
      rw [List.countP_cons] at hRow
      simp only [decide_eq_true_eq] at hRow
      omega
    · intro hOff
      rw [isRaidGroup_loadMemberFromDB] at hOff
      have hLength := hParty hOff
      have hLe := length_loadMemberFromDB_le found g row
      rw [List.length_cons] at hLength
      omega

theorem counted_loaded (saved : SavedGroup) (found : ObjectGuid → Bool) :
    (saved.rows.foldl (loadMemberFromDB found) (loadGroupFromDB saved.leader saved.flags)).Counted := by
  apply (counted_start rfl rfl).loadMembers
  · intro k
    refine Nat.le_trans (Nat.le_of_eq ?_) (saved.fits k)
    unfold inSubGroup
    split <;> exact Nat.zero_add _
  · intro hOff
    refine Nat.le_trans (Nat.le_of_eq ?_) (saved.party ?_)
    · split <;> exact Nat.zero_add _
    · have hRaid : (loadGroupFromDB saved.leader saved.flags).isRaidGroup =
          decide (GroupFlag.raid ∈ saved.flags) := by
        unfold loadGroupFromDB
        dsimp only
        split <;> rfl
      exact of_decide_eq_false (hRaid.symm.trans hOff)

end Group

open AshamaneCore.Groups.Group

variable {g : Group}

theorem counted_origin {origin : Origin} (h : origin.group = some g) : g.Counted := by
  cases origin with
  | created kind leader => exact counted_created h
  | loaded saved found => exact Option.some.inj h ▸ counted_loaded saved found

/-! ## Every run -/

theorem handle_counted {next : Group} (request : Request) (h : g.Counted)
    (hNext : handle (some g) request = some next) : next.Counted := by
  cases request with
  | addMember guid => exact Option.some.inj hNext ▸ h.handleAddMember guid
  | removeMember around guid method => exact h.removeMember hNext
  | changeSubGroup target newSubGroup =>
    obtain rfl := Option.some.inj hNext
    unfold handleChangeSubGroup
    split
    · split
      · rename_i hFree
        exact h.changeMembersGroup hFree
      · exact h
    · exact h
  | swapSubGroups first second => exact Option.some.inj hNext ▸ h.swapMembersGroups first second
  | convertToRaid => exact Option.some.inj hNext ▸ h.convertToRaid
  | convertToGroup => exact Option.some.inj hNext ▸ h.convertToGroup
  | login guid | logout guid =>
    exact Option.some.inj hNext ▸ h.of_counts rfl (fun _ => rfl) rfl rfl

theorem run_counted {origin : Origin} {requests : List Request}
    (h : Transition.run handle origin.group requests = some g) : g.Counted := by
  have hKept : ∀ state request, (∀ g, state = some g → g.Counted) →
      ∀ next, handle state request = some next → next.Counted := by
    intro state request hState next hNext
    cases state with
    | none => cases hNext
    | some g => exact handle_counted request (hState g rfl) hNext
  exact Transition.invariant hKept (fun g hg => counted_origin hg) requests g h

/-- In every raid the counters are the sizes of the sub-groups, and a member is taken in
exactly when some sub-group has a free slot, into the first of these. -/
theorem subGroups_exact (origin : Origin) (requests : List Request) (g : Group)
    (h : Transition.run handle origin.group requests = some g) (hRaid : g.isRaidGroup) :
    (∃ counts, g.subGroupsCounts = some counts ∧ ∀ k, (counts k).toNat = g.inSubGroup k) ∧
    (∀ k, g.inSubGroup k ≤ maxGroupSize) ∧
    ∀ guid, ((g.addMember guid).isSome ↔ ∃ k, g.inSubGroup k < maxGroupSize) ∧
      ∀ next, g.addMember guid = some next →
        ∃ k, g.inSubGroup k < maxGroupSize ∧ (∀ j < k, g.inSubGroup j = maxGroupSize) ∧
          next.memberSlots = g.memberSlots ++ [⟨guid, k⟩] := by
  have hCounted := run_counted h
  obtain ⟨counts, hCounts⟩ := Option.isSome_iff_exists.mp (hCounted.raid.symm.trans hRaid)
  have hExact := (hCounted.counts counts hCounts).toNat hCounted.full
  refine ⟨⟨counts, hCounts, hExact⟩, hCounted.full, fun guid => ⟨?_, fun next hNext => ?_⟩⟩
  · have hPlace := firstNotFull_isSome_iff hCounts
    simp only [hExact] at hPlace
    rw [← hPlace]
    unfold addMember
    cases g.firstNotFull <;> simp
  · obtain ⟨k, hk, hSlots, -, -⟩ := addMember_eq_some hNext
    obtain ⟨hFree, hBefore⟩ := firstNotFull_eq_some hk hCounts
    rw [hExact] at hFree
    refine ⟨k, hFree, fun j hj => ?_, hSlots⟩
    have hFull := hBefore j hj
    rw [hExact] at hFull
    exact Nat.le_antisymm (hCounted.full j) hFull

def pairRequests : List Request := [.addMember ⟨2, 0x0800000000000000⟩, .convertToRaid]

def pairOrigin : Origin := .created .party ⟨1, 0x0800000000000000⟩

def pairRaid : Group := (Transition.run handle pairOrigin.group pairRequests).getD .new

theorem subGroups_exact_pair :
    (pairRaid.addMember ⟨3, 0x0800000000000000⟩).isSome ↔ ∃ k, pairRaid.inSubGroup k < maxGroupSize :=
  ((subGroups_exact pairOrigin pairRequests pairRaid rfl rfl).2.2 _).1

end AshamaneCore.Groups
