import AshamaneCore.Library.KeyedSet
import AshamaneCore.Game.ObjectGuid
import Mathlib.Data.Fintype.Pi

/-!
# Guilds

The ranks and members of a guild, the tabs of its bank and the rows of its ranks in the
database. Rank ids are positions in the rank table as well as values stored in the ranks,
in the members and in the rows.
-/

namespace AshamaneCore.Guilds

open Library

def guildBankMaxTabs : Nat := 8
def guildBankMaxSlots : Nat := 98
def guildRanksMinCount : UInt8 := 2
def guildRanksMaxCount : UInt8 := 10
def guildRankNone : UInt8 := 0xFF
def guildWithdrawMoneyUnlimited : UInt32 := 0xFFFFFFFF
def guildWithdrawSlotUnlimited : UInt32 := 0xFFFFFFFF
def tabUndefined : UInt8 := 0xFF

def grGuildmaster : UInt8 := 0
def grOfficer : UInt8 := 1
def grInitiate : UInt8 := 4

def grRightNone : UInt32 := 0
def grRightGchatlisten : UInt32 := 0x00000001
def grRightGchatspeak : UInt32 := 0x00000002
def grRightRemove : UInt32 := 0x00000020
def grRightPromote : UInt32 := 0x00000080
def grRightDemote : UInt32 := 0x00000100
def grRightWithdrawRepair : UInt32 := 0x00040000
def grRightWithdrawGold : UInt32 := 0x00080000
def grRightAll : UInt32 := 0x00DDFFBF

def guildBankRightViewTab : Int8 := 0x01
def guildBankRightPutItem : Int8 := 0x02
def guildBankRightDepositItem : Int8 := guildBankRightViewTab ||| guildBankRightPutItem
def guildBankRightFull : Int8 := -1

abbrev BankTabId := Fin guildBankMaxTabs
abbrev BankSlotId := Fin guildBankMaxSlots

structure GuildBankRightsAndSlots where
  tabId : UInt8
  rights : Int8
  slots : Int32
  deriving DecidableEq

namespace GuildBankRightsAndSlots

def undefined : GuildBankRightsAndSlots := ⟨tabUndefined, 0, 0⟩

def setGuildMasterValues (entry : GuildBankRightsAndSlots) : GuildBankRightsAndSlots :=
  { entry with rights := guildBankRightFull, slots := guildWithdrawSlotUnlimited.toInt32 }

end GuildBankRightsAndSlots

/-- A row of the rank table, which is also what a rank is known by. -/
structure RankRow where
  rankId : UInt8
  name : String
  rights : UInt32
  bankMoneyPerDay : UInt32
  deriving DecidableEq

structure RankInfo extends RankRow where
  bankTabRightsAndSlots : BankTabId → GuildBankRightsAndSlots
  deriving DecidableEq

structure Member where
  guid : ObjectGuid
  rankId : UInt8
  bankWithdraw : BankTabId → UInt32
  bankWithdrawMoney : UInt64
  deriving DecidableEq

/-- A stack of items. The guid is the identity of the object, which a clone does not share. -/
structure Item where
  guid : Nat
  entry : UInt32
  count : UInt32
  soulBound : Bool
  deriving DecidableEq

abbrev BankPos := BankTabId × BankSlotId

/-- The bank: how many tabs are purchased, and what lies in their slots. -/
structure BankTabs where
  purchased : Nat
  bound : purchased ≤ guildBankMaxTabs
  items : BankPos → Option Item

def BankTabs.empty : BankTabs := ⟨0, Nat.zero_le _, fun _ => none⟩

def Member.key (member : Member) : Nat := member.guid.toNat

def Member.changeRank (member : Member) (newRank : UInt8) : Member := { member with rankId := newRank }

theorem Member.key_changeRank (newRank : UInt8) (member : Member) :
    (member.changeRank newRank).key = member.key := rfl

def RankRow.key (row : RankRow) : Nat := row.rankId.toNat

abbrev Members := KeyedSet Member.key

structure Guild where
  leaderGuid : ObjectGuid
  members : Members
  ranks : List RankInfo
  bankTabs : BankTabs
  bankMoney : UInt64

/-- The rows of a guild's ranks, and those of their bank rights by rank and tab. -/
structure RankTables where
  ranks : KeyedSet RankRow.key
  bankRights : UInt8 → BankTabId → Option (Int8 × Int32)

namespace RankInfo

def getBankMoneyPerDay (info : RankInfo) : UInt32 :=
  if info.rankId ≠ grGuildmaster then info.bankMoneyPerDay else guildWithdrawMoneyUnlimited

def getBankTabRights (info : RankInfo) (tabId : UInt8) : Int8 :=
  if h : tabId.toNat < guildBankMaxTabs then (info.bankTabRightsAndSlots ⟨tabId.toNat, h⟩).rights
  else 0

def getBankTabSlotsPerDay (info : RankInfo) (tabId : UInt8) : Int32 :=
  if h : tabId.toNat < guildBankMaxTabs then (info.bankTabRightsAndSlots ⟨tabId.toNat, h⟩).slots
  else 0

def missesTab (info : RankInfo) (tabs : UInt8) (i : BankTabId) : Bool :=
  i.val < tabs.toNat && (info.bankTabRightsAndSlots i).tabId ≠ UInt8.ofNat i.val

def createMissingTab (info : RankInfo) (i : BankTabId) : GuildBankRightsAndSlots :=
  let entry := { info.bankTabRightsAndSlots i with tabId := UInt8.ofNat i.val }
  if info.rankId = grGuildmaster then entry.setGuildMasterValues else entry

def createMissingTabsIfNeeded (info : RankInfo) (tabs : UInt8) : RankInfo :=
  { info with
    bankTabRightsAndSlots := fun i =>
      if info.missesTab tabs i then info.createMissingTab i else info.bankTabRightsAndSlots i }

end RankInfo

namespace RankTables

/-- The rows that the creation of missing tabs inserts or overwrites. -/
def insertMissingTabs (tables : RankTables) (info : RankInfo) (tabs : UInt8) : RankTables :=
  { tables with
    bankRights := fun rid i =>
      if rid = info.rankId && info.missesTab tabs i then
        some ((info.createMissingTab i).rights, (info.createMissingTab i).slots)
      else tables.bankRights rid i }

/-- A rank whose row exists already fails to be inserted, and its transaction with it. -/
def insertRank (tables : RankTables) (info : RankInfo) (tabs : UInt8) : RankTables :=
  if tables.ranks.contains info.rankId.toNat then tables
  else { tables.insertMissingTabs info tabs with ranks := tables.ranks.emplace info.toRankRow }

def deleteRank (tables : RankTables) (rid : UInt8) : RankTables where
  ranks := tables.ranks.erase rid.toNat
  bankRights := fun r i => if r = rid then none else tables.bankRights r i

def empty : RankTables := ⟨KeyedSet.empty, fun _ _ => none⟩

end RankTables

namespace Guild

def getRanksSize (g : Guild) : UInt8 := UInt8.ofNat g.ranks.length

def getRankInfo (g : Guild) (rankId : UInt8) : Option RankInfo :=
  if rankId < g.getRanksSize then g.ranks[rankId.toNat]? else none

def getLowestRankId (g : Guild) : UInt8 := UInt8.ofNat g.ranks.length - 1

def getPurchasedTabsSize (g : Guild) : UInt8 := UInt8.ofNat g.bankTabs.purchased

def getMember (g : Guild) (guid : ObjectGuid) : Option Member := g.members.find? guid.toNat

def getRankRights (g : Guild) (rankId : UInt8) : UInt32 :=
  ((g.getRankInfo rankId).map fun info => info.rights).getD 0

def hasRankRight (g : Guild) (player : ObjectGuid) (right : UInt32) : Bool :=
  match g.getMember player with
  | some member => g.getRankRights member.rankId &&& right ≠ grRightNone
  | none => false

/-- The guild master by guid, or by rank where there are several. -/
def isLeader (g : Guild) (player : ObjectGuid) : Bool :=
  player = g.leaderGuid ||
    match g.getMember player with
    | some member => member.rankId = grGuildmaster
    | none => false

def changeRank (g : Guild) (guid : ObjectGuid) (newRank : UInt8) : Guild :=
  { g with
    members := g.members.alter guid.toNat (·.changeRank newRank) (Member.key_changeRank newRank) }

def setLeaderGUID (g : Guild) (leader : ObjectGuid) : Guild :=
  { g with leaderGuid := leader }.changeRank leader grGuildmaster

end Guild

theorem getMember_alter (g : Guild) (guid other : ObjectGuid) {f : Member → Member}
    (hKey : ∀ member, (f member).key = member.key) :
    ({ g with members := g.members.alter guid.toNat f hKey } : Guild).getMember other =
      if other = guid then (g.getMember other).map f else g.getMember other := by
  have hGuid : other.toNat = guid.toNat ↔ other = guid := ObjectGuid.toNat_injective.eq_iff
  rw [Guild.getMember, KeyedSet.find?_alter_eq]
  simp only [hGuid, Guild.getMember]

end AshamaneCore.Guilds
