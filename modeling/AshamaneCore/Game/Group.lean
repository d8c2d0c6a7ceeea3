import AshamaneCore.Game.ObjectGuid
import Mathlib.Data.Finset.Insert
import Mathlib.Data.Fintype.Pi

/-!
# Groups of players

The member slots of a group, the counters of a raid's sub-groups and the links of the
members that are connected. A disbanded group is deleted, so it is no value here.
-/

namespace AshamaneCore.Groups

def maxGroupSize : Nat := 5
def maxRaidSize : Nat := 40
def maxRaidSubGroups : Nat := maxRaidSize / maxGroupSize

abbrev SubGroup := Fin maxRaidSubGroups

inductive GroupFlag
  | fakeRaid
  | raid
  | lfgRestricted
  | lfg
  | destroyed
  | onePersonParty
  | everyoneAssistant
  | guildGroup
  deriving DecidableEq

inductive RemoveMethod
  | default
  | kick
  | leave
  | kickLfg
  deriving DecidableEq

structure MemberSlot where
  guid : ObjectGuid
  group : SubGroup
  deriving DecidableEq

structure Group where
  memberSlots : List MemberSlot
  subGroupsCounts : Option (SubGroup → UInt8)
  groupFlags : Finset GroupFlag
  leaderGuid : ObjectGuid
  bgGroup : Bool
  bfGroup : Bool
  /-- The references of connected members, the last one linked first. -/
  memberMgr : List ObjectGuid
  deriving DecidableEq

/-- What the rest of the world answers while a member is being removed. -/
structure Surroundings where
  connected : ObjectGuid → Bool
  /-- The dungeon of the finder is unknown, or the last member has left it. -/
  dungeonLeft : Bool

namespace Group

def isRaidGroup (g : Group) : Bool := GroupFlag.raid ∈ g.groupFlags

def isLFGGroup (g : Group) : Bool := GroupFlag.lfg ∈ g.groupFlags

def isFull (g : Group) : Bool :=
  if g.isRaidGroup then g.memberSlots.length ≥ maxRaidSize else g.memberSlots.length ≥ maxGroupSize

def getMembersCount (g : Group) : Nat := g.memberSlots.length

def getMemberWSlot (g : Group) (guid : ObjectGuid) : Option (Fin g.memberSlots.length) :=
  g.memberSlots.findFinIdx? fun slot => slot.guid = guid

def subGroupCounterIncrease (g : Group) (subGroup : SubGroup) : Group :=
  { g with subGroupsCounts := g.subGroupsCounts.map fun counts =>
      Function.update counts subGroup (counts subGroup + 1) }

def subGroupCounterDecrease (g : Group) (subGroup : SubGroup) : Group :=
  { g with subGroupsCounts := g.subGroupsCounts.map fun counts =>
      Function.update counts subGroup (counts subGroup - 1) }

def initRaidSubGroupsCounter (g : Group) : Group :=
  { g with subGroupsCounts := some (g.memberSlots.foldl
      (fun counts slot => Function.update counts slot.group (counts slot.group + 1)) fun _ => 0) }

def hasFreeSlotSubGroup (g : Group) (subGroup : SubGroup) : Bool :=
  match g.subGroupsCounts with
  | some counts => (counts subGroup).toNat < maxGroupSize
  | none => false

/-- The first sub-group that is not full; the first of all where there are no counters. -/
def firstNotFull (g : Group) : Option SubGroup :=
  match g.subGroupsCounts with
  | some counts => (List.finRange maxRaidSubGroups).find? fun k => (counts k).toNat < maxGroupSize
  | none => some ⟨0, by decide⟩

def addMember (g : Group) (guid : ObjectGuid) : Option Group := do
  let subGroup ← g.firstNotFull
  let g := { g with memberSlots := g.memberSlots ++ [MemberSlot.mk guid subGroup] }
  let g := g.subGroupCounterIncrease subGroup
  return { g with memberMgr := guid :: g.memberMgr }

def convertToRaid (g : Group) : Group :=
  { g with groupFlags := insert GroupFlag.raid g.groupFlags }.initRaidSubGroupsCounter

def convertToGroup (g : Group) : Group :=
  if g.memberSlots.length > 5 then g
  else { g with groupFlags := ∅, subGroupsCounts := none }

def setSlotGroup (g : Group) (i : Fin g.memberSlots.length) (group : SubGroup) : Group :=
  { g with memberSlots := g.memberSlots.set i { g.memberSlots.get i with group } }

def changeMembersGroup (g : Group) (guid : ObjectGuid) (group : SubGroup) : Group :=
  if !g.isRaidGroup then g
  else match g.getMemberWSlot guid with
    | none => g
    | some slot =>
      let prevSubGroup := (g.memberSlots.get slot).group
      if prevSubGroup = group then g
      else ((g.setSlotGroup slot group).subGroupCounterIncrease group).subGroupCounterDecrease
        prevSubGroup

def swapMembersGroups (g : Group) (firstGuid secondGuid : ObjectGuid) : Group :=
  if !g.isRaidGroup then g
  else match g.getMemberWSlot firstGuid, g.getMemberWSlot secondGuid with
    | some first, some second =>
      let firstGroup := (g.memberSlots.get first).group
      let secondGroup := (g.memberSlots.get second).group
      if firstGroup = secondGroup then g
      else
        let memberSlots := g.memberSlots.set first { g.memberSlots.get first with group := secondGroup }
        { g with memberSlots :=
            memberSlots.set second { g.memberSlots.get second with group := firstGroup } }
    | _, _ => g

/-! ## Leaving -/

/-- The player drops its own reference, and the group the one it still finds. -/
def unlinkMember (g : Group) (around : Surroundings) (guid : ObjectGuid) : Group :=
  let memberMgr := if around.connected guid then g.memberMgr.erase guid else g.memberMgr
  { g with memberMgr := if g.bgGroup || g.bfGroup then memberMgr else memberMgr.erase guid }

def eraseSlot (g : Group) (guid : ObjectGuid) : Group :=
  match g.getMemberWSlot guid with
  | none => g
  | some slot =>
    let g' := g.subGroupCounterDecrease (g.memberSlots.get slot).group
    { g' with memberSlots := g.memberSlots.eraseIdx slot }

/-- The leader that is removed hands over to the first connected member. -/
def pickLeader (g : Group) (around : Surroundings) (guid : ObjectGuid) : Group :=
  if g.leaderGuid = guid then
    match g.memberSlots.find? fun slot => around.connected slot.guid with
    | some slot => { g with leaderGuid := slot.guid }
    | none => g
  else g

def survivesRemoval (g : Group) : Bool :=
  g.getMembersCount > if g.bgGroup || g.isLFGGroup || g.bfGroup then 1 else 2

def dropMember (g : Group) (around : Surroundings) (guid : ObjectGuid) : Option Group :=
  let g := ((g.unlinkMember around guid).eraseSlot guid).pickLeader around guid
  if g.isLFGGroup && g.getMembersCount = 1 && around.dungeonLeft then none
  else if g.memberMgr.length < (if g.isLFGGroup || g.bgGroup then 1 else 2) then none
  else some g

def removeMember (g : Group) (around : Surroundings) (guid : ObjectGuid) (method : RemoveMethod) :
    Option Group :=
  if g.isLFGGroup && method = .kick then some g
  else if g.survivesRemoval then g.dropMember around guid
  else none

end Group

/-! ## Where groups come from -/

/-- What a group is made for, which is known before it is created. -/
inductive GroupKind
  | party
  | dungeonFinder
  | battleground
  | battlefield
  deriving DecidableEq

namespace Group

def convertToLFG (g : Group) : Group :=
  { g with groupFlags := g.groupFlags ∪ {GroupFlag.lfg, GroupFlag.lfgRestricted} }

def new : Group where
  memberSlots := []
  subGroupsCounts := none
  groupFlags := ∅
  leaderGuid := .empty
  bgGroup := false
  bfGroup := false
  memberMgr := []

def ofKind : GroupKind → Group
  | .party => new
  | .dungeonFinder => new.convertToLFG
  | .battleground => { new with bgGroup := true }
  | .battlefield => { new with bfGroup := true }

def create (g : Group) (leader : ObjectGuid) : Option Group :=
  let g := { g with leaderGuid := leader }
  let g := if g.bgGroup || g.bfGroup then { g with groupFlags := {.fakeRaid, .raid} } else g
  let g := if g.isRaidGroup then g.initRaidSubGroupsCounter else g
  g.addMember leader

def loadGroupFromDB (leader : ObjectGuid) (flags : Finset GroupFlag) : Group :=
  let g := { new with leaderGuid := leader, groupFlags := flags }
  if g.isRaidGroup then g.initRaidSubGroupsCounter else g

def loadMemberFromDB (found : ObjectGuid → Bool) (g : Group) (row : MemberSlot) : Group :=
  if found row.guid then
    { g with memberSlots := g.memberSlots ++ [row] }.subGroupCounterIncrease row.group
  else g

end Group

end AshamaneCore.Groups
