import AshamaneCore.Game.Guild
import AshamaneCore.Library.Transition

/-!
# Guild ranks and membership

The requests of players that change ranks and members, the commands behind them, and
the loading and repair of a guild after a restart. A disbanded guild is no value.
-/

namespace AshamaneCore.Guilds

open Library

structure GuildState where
  guild : Guild
  tables : RankTables

structure Walk where
  order : List Member → List Member
  perm : ∀ members, (order members).Perm members

/-- The texts of the default ranks in one locale. -/
structure DefaultRankNames where
  master : String
  officer : String
  veteran : String
  member : String
  initiate : String

namespace Guild

/-- The heir after one more member of the walk: the first of the highest rank. -/
def heir (guid : ObjectGuid) (newLeader : Option Member) (member : Member) : Option Member :=
  if member.guid = guid then newLeader
  else some (newLeader.elim member fun best => if best.rankId > member.rankId then member else best)

def newLeader (g : Guild) (walk : Walk) (guid : ObjectGuid) : Option Member :=
  (walk.order g.members.entries).foldl (heir guid) none

def pushRank (g : Guild) (info : RankInfo) : Guild := { g with ranks := g.ranks ++ [info] }

def eraseMember (g : Guild) (guid : ObjectGuid) : Guild :=
  { g with members := g.members.erase guid.toNat }

end Guild

namespace GuildState

def createRank (s : GuildState) (name : String) (rights : UInt32) : Option GuildState :=
  let newRankId := s.guild.getRanksSize
  if newRankId ≥ guildRanksMaxCount then none
  else
    let info : RankInfo := ⟨⟨newRankId, name, rights, 0⟩, fun _ => .undefined⟩
    some ⟨s.guild.pushRank info, s.tables.insertRank info s.guild.getPurchasedTabsSize⟩

/-- The rows are deleted before; that the ranks are cleared is left to the caller. -/
def createDefaultGuildRanks (s : GuildState) (names : DefaultRankNames) : GuildState :=
  let chat := grRightGchatlisten ||| grRightGchatspeak
  [(names.master, grRightAll), (names.officer, grRightAll), (names.veteran, chat),
    (names.member, chat), (names.initiate, chat)].foldl
      (fun s rank => (s.createRank rank.1 rank.2).getD s) { s with tables := .empty }

/-- The player has no guild if the caller says so and is not a member of this one. -/
def addMember (s : GuildState) (guid : ObjectGuid) (noGuild : Bool) (rankId : UInt8) : GuildState :=
  if !noGuild || (s.guild.getMember guid).isSome then s
  else
    let rank := if rankId = guildRankNone then s.guild.getLowestRankId else rankId
    { s with guild := { s.guild with members := s.guild.members.assign ⟨guid, rank, fun _ => 0, 0⟩ } }

def deleteMember (s : GuildState) (walk : Walk) (guid : ObjectGuid) : Option GuildState :=
  if s.guild.leaderGuid = guid then
    (s.guild.newLeader walk guid).map fun newLeader =>
      { s with guild := (s.guild.setLeaderGUID newLeader.guid).eraseMember guid }
  else some { s with guild := s.guild.eraseMember guid }

def changeMemberRank (s : GuildState) (guid : ObjectGuid) (newRank : UInt8) : GuildState :=
  if newRank ≤ s.guild.getLowestRankId then { s with guild := s.guild.changeRank guid newRank } else s

def handleAddNewRank (s : GuildState) (player : ObjectGuid) (name : String) : GuildState :=
  if s.guild.getRanksSize ≥ guildRanksMaxCount then s
  else if s.guild.isLeader player then
    (s.createRank name (grRightGchatlisten ||| grRightGchatspeak)).getD s
  else s

def handleRemoveRank (s : GuildState) (player : ObjectGuid) (rankId : UInt8) : GuildState :=
  if s.guild.getRanksSize ≤ guildRanksMinCount || rankId ≥ s.guild.getRanksSize ||
      !s.guild.isLeader player then s
  else
    { guild := { s.guild with ranks := s.guild.ranks.eraseIdx rankId.toNat }
      tables := s.tables.deleteRank rankId }

def handleUpdateMemberRank (s : GuildState) (player guid : ObjectGuid) (demote : Bool) : GuildState :=
  if !s.guild.hasRankRight player (if demote then grRightDemote else grRightPromote) then s
  else
    match s.guild.getMember guid, s.guild.getMember player with
    | some member, some memberMe =>
      if member.guid = player then s
      else if demote then
        if member.rankId ≤ memberMe.rankId then s
        else if member.rankId ≥ s.guild.getLowestRankId then s
        else { s with guild := s.guild.changeRank guid (member.rankId + 1) }
      else if member.rankId ≤ memberMe.rankId + 1 then s
      else { s with guild := s.guild.changeRank guid (member.rankId - 1) }
    | _, _ => s

def rightToSet (rank : UInt32) (member : Member) : UInt32 :=
  if rank > member.rankId.toUInt32 then grRightDemote else grRightPromote

/-- The rank is what the client sent; only its last byte becomes the member's rank. -/
def handleSetMemberRank (s : GuildState) (player target : ObjectGuid) (rank : UInt32) : GuildState :=
  match s.guild.getMember target with
  | none => s
  | some member =>
    if !s.guild.hasRankRight player (rightToSet rank member) then s
    else if member.guid = player then s
    else { s with guild := s.guild.changeRank target rank.toUInt8 }

/-- The new master is the member of the name the client sent. -/
def handleSetNewGuildMaster (s : GuildState) (player newMaster : ObjectGuid) : GuildState :=
  if !s.guild.isLeader player then s
  else
    match s.guild.getMember player, s.guild.getMember newMaster with
    | some _, some _ =>
      { s with guild := (s.guild.setLeaderGUID newMaster).changeRank player grInitiate }
    | _, _ => s

def handleRemoveMember (s : GuildState) (walk : Walk) (player guid : ObjectGuid) : Option GuildState :=
  if !s.guild.hasRankRight player grRightRemove then some s
  else
    match s.guild.getMember guid, s.guild.getMember player with
    | some member, some memberMe =>
      if member.rankId = grGuildmaster then some s
      else if member.rankId ≤ memberMe.rankId then some s
      else s.deleteMember walk guid
    | _, _ => some s

end GuildState

inductive RankAction
  | addNewRank (player : ObjectGuid) (name : String)
  | removeRank (player : ObjectGuid) (rankId : UInt8)
  | updateMemberRank (player guid : ObjectGuid) (demote : Bool)
  | setMemberRank (player target : ObjectGuid) (rank : UInt32)
  | setNewGuildMaster (player newMaster : ObjectGuid)
  | removeMember (walk : Walk) (player guid : ObjectGuid)
  | changeMemberRank (guid : ObjectGuid) (newRank : UInt8)
  | addMember (guid : ObjectGuid) (noGuild : Bool)
  | deleteMember (walk : Walk) (guid : ObjectGuid)

def GuildState.act (s : GuildState) : RankAction → Option GuildState
  | .addNewRank player name => some (s.handleAddNewRank player name)
  | .removeRank player rankId => some (s.handleRemoveRank player rankId)
  | .updateMemberRank player guid demote => some (s.handleUpdateMemberRank player guid demote)
  | .setMemberRank player target rank => some (s.handleSetMemberRank player target rank)
  | .setNewGuildMaster player newMaster => some (s.handleSetNewGuildMaster player newMaster)
  | .removeMember walk player guid => s.handleRemoveMember walk player guid
  | .changeMemberRank guid newRank => some (s.changeMemberRank guid newRank)
  | .addMember guid noGuild => some (s.addMember guid noGuild guildRankNone)
  | .deleteMember walk guid => s.deleteMember walk guid

def rankStep (s : Option GuildState) (action : RankAction) : Option GuildState := s.bind (·.act action)

/-! ## Creation, loading and repair -/

def create (leader : ObjectGuid) (names : DefaultRankNames) (tables : RankTables) : GuildState :=
  let g : Guild := ⟨leader, KeyedSet.empty, [], .empty, 0⟩
  ((GuildState.mk g tables).createDefaultGuildRanks names).addMember leader true grGuildmaster

def RankRow.loadFromDB (row : RankRow) : RankInfo where
  rankId := row.rankId
  name := row.name
  rights := if row.rankId = grGuildmaster then row.rights ||| grRightAll else row.rights
  bankMoneyPerDay := row.bankMoneyPerDay
  bankTabRightsAndSlots := fun _ => .undefined

/-- The rows of bank rights name the rank by its position in the table. -/
def RankTables.loadBankRights (tables : RankTables) (tabs : UInt8) (position : Nat) (info : RankInfo) :
    RankInfo :=
  { info with
    bankTabRightsAndSlots := fun i =>
      match tables.bankRights (UInt8.ofNat position) i with
      | some (rights, slots) =>
        if tabs.toNat ≤ i.val then info.bankTabRightsAndSlots i
        else if info.rankId = grGuildmaster then
          (GuildBankRightsAndSlots.mk (UInt8.ofNat i.val) rights slots).setGuildMasterValues
        else ⟨UInt8.ofNat i.val, rights, slots⟩
      | none => info.bankTabRightsAndSlots i }

/-- The rows of ranks are read in the order of their ids, each to the end of the table. -/
def loadRanks (tables : RankTables) (tabs : UInt8) : List RankInfo :=
  (tables.ranks.entries.map RankRow.loadFromDB).mapIdx (tables.loadBankRights tabs)

namespace GuildState

def load (leader : ObjectGuid) (members : Members) (bankTabs : BankTabs) (bankMoney : UInt64)
    (tables : RankTables) : GuildState where
  guild := ⟨leader, members, loadRanks tables (UInt8.ofNat bankTabs.purchased), bankTabs, bankMoney⟩
  tables := tables

def ranksBroken (g : Guild) : Bool :=
  g.getRanksSize < guildRanksMinCount || g.getRanksSize > guildRanksMaxCount ||
    (List.range g.getRanksSize.toNat).any fun rankId =>
      (g.ranks[rankId]?.map fun info => info.rankId) ≠ some (UInt8.ofNat rankId)

def validateRanks (s : GuildState) (names : DefaultRankNames) : GuildState :=
  if ranksBroken s.guild then
    { s with guild := { s.guild with ranks := [] } }.createDefaultGuildRanks names
  else
    let tabs := s.guild.getPurchasedTabsSize
    { guild := { s.guild with ranks := s.guild.ranks.map (·.createMissingTabsIfNeeded tabs) }
      tables := s.guild.ranks.foldl (fun tables info => tables.insertMissingTabs info tabs) s.tables }

def repairRank (g : Guild) (member : Member) : Member :=
  if member.rankId > g.getRanksSize then member.changeRank g.getLowestRankId else member

theorem key_repairRank (g : Guild) (member : Member) : (repairRank g member).key = member.key := by
  rw [repairRank]
  split <;> rfl

def validateMembers (s : GuildState) : GuildState :=
  { s with
    guild := { s.guild with
      members := s.guild.members.map (repairRank s.guild) (key_repairRank s.guild) } }

def validateLeader (s : GuildState) (walk : Walk) : Option GuildState :=
  match s.guild.getMember s.guild.leaderGuid with
  | none => s.deleteMember walk s.guild.leaderGuid
  | some leader =>
    if leader.rankId = grGuildmaster then some s
    else some { s with guild := s.guild.setLeaderGUID leader.guid }

def demoteSecondMaster (g : Guild) (member : Member) : Member :=
  if member.rankId = grGuildmaster && member.guid ≠ g.leaderGuid then member.changeRank grOfficer
  else member

theorem key_demoteSecondMaster (g : Guild) (member : Member) :
    (demoteSecondMaster g member).key = member.key := by
  rw [demoteSecondMaster]
  split <;> rfl

def validateMasters (s : GuildState) (allowMultipleGuildMaster : Bool) : GuildState :=
  if allowMultipleGuildMaster then s
  else
    { s with
      guild := { s.guild with
        members := s.guild.members.map (demoteSecondMaster s.guild)
          (key_demoteSecondMaster s.guild) } }

def validate (s : GuildState) (names : DefaultRankNames) (walk : Walk)
    (allowMultipleGuildMaster : Bool) : Option GuildState :=
  ((s.validateRanks names).validateMembers.validateLeader walk).map fun s =>
    s.validateMasters allowMultipleGuildMaster

end GuildState

end AshamaneCore.Guilds
