import AshamaneCore.Library.KeyedSet
import AshamaneCore.Game.ObjectGuid
import Mathlib.Logic.Function.Basic

/-!
# The battleground queue

Groups wait in lists, by level bracket, by faction and by whether they are premade or
rated. Groups are known by ids, which stand for the pointers to them.
-/

namespace AshamaneCore.Battlegrounds

open Library

def maxBattlegroundBrackets : Nat := 12

abbrev BracketId := Fin maxBattlegroundBrackets

inductive Team
  | alliance
  | horde
  deriving DecidableEq

def Team.other : Team → Team
  | alliance => horde
  | horde => alliance

structure GroupQueueInfo where
  id : Nat
  players : KeyedSet ObjectGuid.toNat
  team : Team
  isRated : Bool
  arenaType : UInt8
  arenaTeamId : UInt32
  joinTime : UInt32
  removeInviteTime : UInt32
  isInvitedToBGInstanceGUID : UInt32
  arenaTeamRating : UInt32
  arenaMatchmakerRating : UInt32
  opponentsTeamRating : UInt32
  opponentsMatchmakerRating : UInt32

/-- Premade groups and rated teams are kept apart from normal groups. -/
structure ListId where
  bracket : BracketId
  normal : Bool
  team : Team
  deriving DecidableEq

abbrev QueuedPlayer := ObjectGuid × Nat

def QueuedPlayer.key (entry : QueuedPlayer) : Nat := entry.1.toNat

structure BattlegroundQueue where
  groups : KeyedSet GroupQueueInfo.id
  nextGroup : Nat
  queuedPlayers : KeyedSet QueuedPlayer.key
  queuedGroups : ListId → List Nat

/-- The groups selected for a side, and how many players they have. -/
structure SelectionPool where
  selectedGroups : List Nat
  playerCount : Nat

def SelectionPool.init : SelectionPool := ⟨[], 0⟩

/-- False where the pool is full; a group too large for it is left out. -/
def SelectionPool.addGroup (pool : SelectionPool) (ginfo : GroupQueueInfo) (desiredCount : Nat) :
    Bool × SelectionPool :=
  if ginfo.isInvitedToBGInstanceGUID = 0 ∧ pool.playerCount + ginfo.players.entries.length ≤ desiredCount then
    (true, ⟨pool.selectedGroups ++ [ginfo.id], pool.playerCount + ginfo.players.entries.length⟩)
  else (pool.playerCount < desiredCount, pool)

structure SelectionPools where
  alliance : SelectionPool
  horde : SelectionPool

namespace SelectionPools

def init : SelectionPools := ⟨.init, .init⟩

def get (pools : SelectionPools) : Team → SelectionPool
  | .alliance => pools.alliance
  | .horde => pools.horde

def set (pools : SelectionPools) (team : Team) (pool : SelectionPool) : SelectionPools :=
  match team with
  | .alliance => { pools with alliance := pool }
  | .horde => { pools with horde := pool }

end SelectionPools

structure GroupSpec where
  bracket : BracketId
  team : Team
  arenaType : UInt8
  isRated : Bool
  isPremade : Bool
  arenaTeamId : UInt32
  arenaRating : UInt32
  matchmakerRating : UInt32
  now : UInt32

def GroupSpec.listId (spec : GroupSpec) : ListId :=
  ⟨spec.bracket, !spec.isRated && !spec.isPremade, spec.team⟩

def GroupSpec.ginfo (spec : GroupSpec) (id : Nat) (members : List ObjectGuid) : GroupQueueInfo where
  id
  players := members.foldl KeyedSet.emplace KeyedSet.empty
  team := spec.team
  isRated := spec.isRated
  arenaType := spec.arenaType
  arenaTeamId := spec.arenaTeamId
  joinTime := spec.now
  removeInviteTime := 0
  isInvitedToBGInstanceGUID := 0
  arenaTeamRating := spec.arenaRating
  arenaMatchmakerRating := spec.matchmakerRating
  opponentsTeamRating := 0
  opponentsMatchmakerRating := 0

namespace GroupQueueInfo

def setTeam (team : Team) (ginfo : GroupQueueInfo) : GroupQueueInfo := { ginfo with team }

def erasePlayer (guid : ObjectGuid) (ginfo : GroupQueueInfo) : GroupQueueInfo :=
  { ginfo with players := ginfo.players.erase guid.toNat }

def inviteAcceptWaitTime : UInt32 := 90000

/-- An invited group keeps its invitation; the side is set in any case. -/
def invite (instanceId now : UInt32) (side : Team) (ginfo : GroupQueueInfo) : GroupQueueInfo :=
  if ginfo.isInvitedToBGInstanceGUID = 0 then
    { ginfo with
      team := side
      isInvitedToBGInstanceGUID := instanceId
      removeInviteTime := now + inviteAcceptWaitTime }
  else { ginfo with team := side }

def setOpponents (opponents : GroupQueueInfo) (ginfo : GroupQueueInfo) : GroupQueueInfo :=
  { ginfo with
    opponentsTeamRating := opponents.arenaTeamRating
    opponentsMatchmakerRating := opponents.arenaMatchmakerRating }

theorem id_setTeam (team : Team) (ginfo : GroupQueueInfo) : (ginfo.setTeam team).id = ginfo.id := rfl

theorem id_erasePlayer (guid : ObjectGuid) (ginfo : GroupQueueInfo) :
    (ginfo.erasePlayer guid).id = ginfo.id := rfl

theorem id_setOpponents (opponents ginfo : GroupQueueInfo) : (setOpponents opponents ginfo).id = ginfo.id := rfl

theorem id_invite (instanceId now : UInt32) (side : Team) (ginfo : GroupQueueInfo) :
    (ginfo.invite instanceId now side).id = ginfo.id := by
  rw [invite]
  split <;> rfl

end GroupQueueInfo

namespace BattlegroundQueue

def empty : BattlegroundQueue := ⟨.empty, 0, .empty, fun _ => []⟩

def group (q : BattlegroundQueue) (id : Nat) : Option GroupQueueInfo := q.groups.find? id

def uninvited (q : BattlegroundQueue) (id : Nat) : Bool :=
  (q.group id).any fun ginfo => ginfo.isInvitedToBGInstanceGUID = 0

def setList (q : BattlegroundQueue) (list : ListId) (ids : List Nat) : BattlegroundQueue :=
  { q with queuedGroups := Function.update q.queuedGroups list ids }

/-- An entry of the players' map is overwritten where the player has one. -/
def addGroup (q : BattlegroundQueue) (spec : GroupSpec) (members : List ObjectGuid) : BattlegroundQueue where
  groups := q.groups.emplace (spec.ginfo q.nextGroup members)
  nextGroup := q.nextGroup + 1
  queuedPlayers := members.foldl (fun entries guid => entries.assign (guid, q.nextGroup)) q.queuedPlayers
  queuedGroups := Function.update q.queuedGroups spec.listId (q.queuedGroups spec.listId ++ [q.nextGroup])

/-! ## Leaving -/

/-- The list of a group is looked for among those of its faction, the highest brackets first. -/
def findList (q : BattlegroundQueue) (ginfo : GroupQueueInfo) : Option ListId :=
  (List.finRange maxBattlegroundBrackets).reverse.findSome? fun bracket =>
    if ginfo.id ∈ q.queuedGroups ⟨bracket, true, ginfo.team⟩ then some ⟨bracket, true, ginfo.team⟩
    else if ginfo.id ∈ q.queuedGroups ⟨bracket, false, ginfo.team⟩ then some ⟨bracket, false, ginfo.team⟩
    else none

def dropGroup (q : BattlegroundQueue) (list : ListId) (id : Nat) : BattlegroundQueue :=
  { q with
    groups := q.groups.erase id
    queuedGroups := Function.update q.queuedGroups list ((q.queuedGroups list).erase id) }

def takePlayer (q : BattlegroundQueue) (guid : ObjectGuid) (id : Nat) : BattlegroundQueue :=
  { q with
    groups := q.groups.alter id (GroupQueueInfo.erasePlayer guid) (GroupQueueInfo.id_erasePlayer guid)
    queuedPlayers := q.queuedPlayers.erase guid.toNat }

/-- One player is removed. None where nothing is found to remove; otherwise also who of a
rated group that is not yet invited has to follow. -/
def removeOne (q : BattlegroundQueue) (guid : ObjectGuid) : Option (BattlegroundQueue × Option ObjectGuid) :=
  (q.queuedPlayers.find? guid.toNat).bind fun entry =>
    (q.group entry.2).bind fun ginfo =>
      (q.findList ginfo).map fun list =>
        match (ginfo.erasePlayer guid).players.entries with
        | [] => ((q.takePlayer guid ginfo.id).dropGroup list ginfo.id, none)
        | next :: _ =>
          (q.takePlayer guid ginfo.id,
            if ginfo.isInvitedToBGInstanceGUID = 0 ∧ ginfo.isRated then some next else none)

def removePlayers : Nat → BattlegroundQueue → ObjectGuid → BattlegroundQueue
  | 0, q, _ => q
  | fuel + 1, q, guid =>
    match q.removeOne guid with
    | none => q
    | some (left, none) => left
    | some (left, some next) => removePlayers fuel left next

def removePlayer (q : BattlegroundQueue) (guid : ObjectGuid) : BattlegroundQueue :=
  removePlayers (q.queuedPlayers.entries.length + 1) q guid

/-! ## Invitations -/

def inviteGroupToBG (q : BattlegroundQueue) (instanceId now : UInt32) (side : Team) (id : Nat) :
    BattlegroundQueue :=
  { q with
    groups := q.groups.alter id (GroupQueueInfo.invite instanceId now side)
      (GroupQueueInfo.id_invite instanceId now side) }

def inviteSelected (q : BattlegroundQueue) (instanceId now : UInt32) (ids : List Nat) : BattlegroundQueue :=
  ids.foldl (fun q id =>
    match q.group id with
    | some ginfo => q.inviteGroupToBG instanceId now ginfo.team id
    | none => q) q

/-! ## Selection -/

def fill (q : BattlegroundQueue) (desiredCount : Nat) : SelectionPool → List Nat → SelectionPool
  | pool, [] => pool
  | pool, id :: rest =>
    match (q.group id).filter fun ginfo => ginfo.isInvitedToBGInstanceGUID = 0 with
    | none => fill q desiredCount pool rest
    | some ginfo =>
      if (pool.addGroup ginfo desiredCount).1 then
        fill q desiredCount (pool.addGroup ginfo desiredCount).2 rest
      else pool

/-- Groups of a list are selected until there are enough players; the others are left over. -/
def fillUntil (q : BattlegroundQueue) (minPlayers maxPlayers : Nat) :
    SelectionPool → List Nat → SelectionPool × List Nat
  | pool, [] => (pool, [])
  | pool, id :: rest =>
    match (q.group id).filter fun ginfo => ginfo.isInvitedToBGInstanceGUID = 0 with
    | none => fillUntil q minPlayers maxPlayers pool rest
    | some ginfo =>
      if (pool.addGroup ginfo maxPlayers).2.playerCount ≥ minPlayers then
        ((pool.addGroup ginfo maxPlayers).2, rest)
      else fillUntil q minPlayers maxPlayers (pool.addGroup ginfo maxPlayers).2 rest

def premade (bracket : BracketId) (team : Team) : ListId := ⟨bracket, false, team⟩

def normal (bracket : BracketId) (team : Team) : ListId := ⟨bracket, true, team⟩

/-- The first group has waited too long for a match, or has become too small. -/
def outdated (q : BattlegroundQueue) (timeBefore : UInt32) (minPlayersPerTeam : Nat) (id : Nat) : Bool :=
  (q.group id).any fun ginfo =>
    ginfo.isInvitedToBGInstanceGUID = 0 &&
      (ginfo.joinTime < timeBefore || ginfo.players.entries.length < minPlayersPerTeam)

def moveOutdated (q : BattlegroundQueue) (bracket : BracketId) (timeBefore : UInt32)
    (minPlayersPerTeam : Nat) (team : Team) : BattlegroundQueue :=
  match q.queuedGroups (premade bracket team) with
  | [] => q
  | first :: rest =>
    if q.outdated timeBefore minPlayersPerTeam first then
      (q.setList (normal bracket team) (first :: q.queuedGroups (normal bracket team))).setList
        (premade bracket team) rest
    else q

/-- The pools of a premade match are returned where there is one. -/
def checkPremadeMatch (q : BattlegroundQueue) (bracket : BracketId) (timeBefore : UInt32)
    (minPlayersPerTeam maxPlayersPerTeam : Nat) : Option SelectionPools × BattlegroundQueue :=
  match ((q.queuedGroups (premade bracket .alliance)).find? q.uninvited).bind q.group,
    ((q.queuedGroups (premade bracket .horde)).find? q.uninvited).bind q.group with
  | some ali, some horde =>
    let alliancePool := (SelectionPool.init.addGroup ali maxPlayersPerTeam).2
    let hordePool := (SelectionPool.init.addGroup horde maxPlayersPerTeam).2
    let maxPlayers := min alliancePool.playerCount hordePool.playerCount
    (some ⟨q.fill maxPlayers alliancePool (q.queuedGroups (normal bracket .alliance)),
      q.fill maxPlayers hordePool (q.queuedGroups (normal bracket .horde))⟩, q)
  | _, _ =>
    (none, (q.moveOutdated bracket timeBefore minPlayersPerTeam .alliance).moveOutdated bracket
      timeBefore minPlayersPerTeam .horde)

/-- The side with fewer players is filled up where the teams have to be balanced. -/
def checkNormalMatch (q : BattlegroundQueue) (bracket : BracketId) (minPlayers maxPlayers : Nat)
    (balance testing : Bool) : Bool × SelectionPools :=
  let (alliancePool, allianceRest) :=
    q.fillUntil minPlayers maxPlayers .init (q.queuedGroups (normal bracket .alliance))
  let (hordePool, hordeRest) :=
    q.fillUntil minPlayers maxPlayers .init (q.queuedGroups (normal bracket .horde))
  let both := hordePool.playerCount ≥ minPlayers && alliancePool.playerCount ≥ minPlayers
  let pools : SelectionPools :=
    if balance && both then
      if hordePool.playerCount < alliancePool.playerCount then
        ⟨alliancePool, q.fill alliancePool.playerCount hordePool hordeRest⟩
      else ⟨q.fill hordePool.playerCount alliancePool allianceRest, hordePool⟩
    else ⟨alliancePool, hordePool⟩
  if balance && both &&
      (pools.horde.playerCount > pools.alliance.playerCount + 2 ||
        pools.alliance.playerCount > pools.horde.playerCount + 2) then (false, pools)
  else
    (testing && (pools.alliance.playerCount > 0 || pools.horde.playerCount > 0) ||
      (pools.alliance.playerCount ≥ minPlayers && pools.horde.playerCount ≥ minPlayers), pools)

/-- A selected group changes its faction; it is looked for behind the last group of the pool. -/
def changeFaction (bracket : BracketId) (team : Team) (last : Nat) (q : BattlegroundQueue) (id : Nat) :
    BattlegroundQueue :=
  let moved : BattlegroundQueue :=
    { q with groups := q.groups.alter id (GroupQueueInfo.setTeam team.other) (GroupQueueInfo.id_setTeam _) }
  let old := q.queuedGroups (normal bracket team)
  (moved.setList (normal bracket team.other) (id :: q.queuedGroups (normal bracket team.other))).setList
    (normal bracket team)
    (old.takeWhile (· ≠ last) ++ last :: ((old.dropWhile (· ≠ last)).tail.erase id))

/-- Two teams of one faction: the groups behind those of the first team make up the second. -/
def checkSkirmishForSameFaction (q : BattlegroundQueue) (bracket : BracketId) (minPlayersPerTeam : Nat)
    (pools : SelectionPools) : Bool × SelectionPools × BattlegroundQueue :=
  if pools.alliance.playerCount < minPlayersPerTeam ∧ pools.horde.playerCount < minPlayersPerTeam then
    (false, pools, q)
  else
    let team := if pools.horde.playerCount = minPlayersPerTeam then Team.horde else Team.alliance
    match (pools.get team).selectedGroups.getLast? with
    | none => (false, pools.set team.other .init, q)
    | some last =>
      if last ∈ q.queuedGroups (normal bracket team) then
        let rest := ((q.queuedGroups (normal bracket team)).dropWhile (· ≠ last)).tail
        let pool := q.fill minPlayersPerTeam .init rest
        if pool.playerCount = minPlayersPerTeam then
          (true, pools.set team.other pool, pool.selectedGroups.foldl (changeFaction bracket team last) q)
        else (false, pools.set team.other pool, q)
      else (false, pools.set team.other .init, q)

/-! ## Rated matches -/

structure RatingRange where
  arenaMinRating : UInt32
  arenaMaxRating : UInt32
  discardTime : Int32

def RatingRange.mayPlay (range : RatingRange) (ginfo : GroupQueueInfo) : Bool :=
  ginfo.isInvitedToBGInstanceGUID = 0 &&
    (range.arenaMinRating ≤ ginfo.arenaMatchmakerRating &&
        ginfo.arenaMatchmakerRating ≤ range.arenaMaxRating ||
      ginfo.joinTime.toInt32 < range.discardTime)

def ratingRange (arenaRating maxRatingDifference : UInt32) (discardTime : Int32) : RatingRange where
  arenaMinRating := if arenaRating ≤ maxRatingDifference then 0 else arenaRating - maxRatingDifference
  arenaMaxRating := arenaRating + maxRatingDifference
  discardTime

def front (q : BattlegroundQueue) (list : ListId) : Option GroupQueueInfo :=
  (q.queuedGroups list).head?.bind q.group

/-- Without a rating of its own an update takes that of the team that waits longest. -/
def ratingOfUpdate (q : BattlegroundQueue) (bracket : BracketId) (arenaRating : UInt32) : Option UInt32 :=
  if arenaRating ≠ 0 then some arenaRating
  else
    match q.front (premade bracket .alliance), q.front (premade bracket .horde) with
    | some front1, some front2 =>
      some (if front1.joinTime < front2.joinTime then front1.arenaMatchmakerRating
        else front2.arenaMatchmakerRating)
    | some front1, none => some front1.arenaMatchmakerRating
    | none, some front2 => some front2.arenaMatchmakerRating
    | none, none => none

def findTeam (q : BattlegroundQueue) (range : RatingRange) (ids : List Nat) : Option Nat :=
  ids.find? fun id => (q.group id).any range.mayPlay

/-- A second team from the list of the first, which must be another arena team. -/
def findOpponent (q : BattlegroundQueue) (range : RatingRange) (list : ListId) (first : Nat) : Option Nat :=
  ((q.queuedGroups list).dropWhile (· ≠ first)).find? fun id =>
    (q.group id).any fun ginfo =>
      range.mayPlay ginfo && (q.group first).any fun other => other.arenaTeamId ≠ ginfo.arenaTeamId

/-- The two teams of a match, the first of which will play for the alliance. -/
def findTeams (q : BattlegroundQueue) (range : RatingRange) (bracket : BracketId) : Option (Nat × Nat) :=
  match q.findTeam range (q.queuedGroups (premade bracket .alliance)),
    q.findTeam range (q.queuedGroups (premade bracket .horde)) with
  | some ali, some horde => some (ali, horde)
  | some first, none => (q.findOpponent range (premade bracket .alliance) first).map fun other => (first, other)
  | none, some first => (q.findOpponent range (premade bracket .horde) first).map fun other => (first, other)
  | none, none => none

/-- A team that is to play for the other faction moves to the front of its list. -/
def moveTeam (q : BattlegroundQueue) (bracket : BracketId) (side : Team) (id : Nat) : BattlegroundQueue :=
  if (q.group id).any fun ginfo => ginfo.team ≠ side then
    (q.setList (premade bracket side) (id :: q.queuedGroups (premade bracket side))).setList
      (premade bracket side.other) ((q.queuedGroups (premade bracket side.other)).erase id)
  else q

def setOpponents (q : BattlegroundQueue) (id opponents : Nat) : BattlegroundQueue :=
  match q.group opponents with
  | some other =>
    { q with
      groups := q.groups.alter id (GroupQueueInfo.setOpponents other) (GroupQueueInfo.id_setOpponents other) }
  | none => q

def startRatedMatch (q : BattlegroundQueue) (bracket : BracketId) (instanceId now : UInt32)
    (aTeam hTeam : Nat) : BattlegroundQueue :=
  let q := (q.setOpponents aTeam hTeam).setOpponents hTeam aTeam
  let q := (q.moveTeam bracket .alliance aTeam).moveTeam bracket .horde hTeam
  (q.inviteGroupToBG instanceId now .alliance aTeam).inviteGroupToBG instanceId now .horde hTeam

/-! ## Updates -/

/-- What an update finds in the world: the settings, the groups selected for the running
battlegrounds, and the instances that are created, if they are. -/
structure UpdateSettings where
  now : UInt32
  hasTemplate : Bool
  timeBefore : UInt32
  isBattleground : Bool
  isArena : Bool
  minPlayersPerTeam : Nat
  maxPlayersPerTeam : Nat
  balance : Bool
  testing : Bool
  maxRatingDifference : UInt32
  discardTime : Int32
  filled : List (UInt32 × List Nat)
  premadeInstance : Option UInt32
  newInstance : Option UInt32

def invitePools (q : BattlegroundQueue) (instanceId now : UInt32) (pools : SelectionPools) :
    BattlegroundQueue :=
  (q.inviteSelected instanceId now pools.alliance.selectedGroups).inviteSelected instanceId now
    pools.horde.selectedGroups

def updateNormal (q : BattlegroundQueue) (bracket : BracketId) (settings : UpdateSettings) :
    BattlegroundQueue :=
  let (found, pools) := q.checkNormalMatch bracket settings.minPlayersPerTeam settings.maxPlayersPerTeam
    settings.balance settings.testing
  let (found, pools, q) :=
    if !found && settings.isArena then
      q.checkSkirmishForSameFaction bracket settings.minPlayersPerTeam pools
    else (found, pools, q)
  match found, settings.newInstance with
  | true, some instanceId => q.invitePools instanceId settings.now pools
  | _, _ => q

def updateRated (q : BattlegroundQueue) (bracket : BracketId) (arenaRating : UInt32)
    (settings : UpdateSettings) : BattlegroundQueue :=
  match (q.ratingOfUpdate bracket arenaRating).bind fun rating =>
      q.findTeams (ratingRange rating settings.maxRatingDifference settings.discardTime) bracket,
    settings.newInstance with
  | some (aTeam, hTeam), some instanceId => q.startRatedMatch bracket instanceId settings.now aTeam hTeam
  | _, _ => q

/-- Whether the update goes on, which it does not after a premade match that cannot be created. -/
def updatePremade (q : BattlegroundQueue) (bracket : BracketId) (settings : UpdateSettings) :
    Bool × BattlegroundQueue :=
  if settings.isBattleground then
    match q.checkPremadeMatch bracket settings.timeBefore settings.minPlayersPerTeam
      settings.maxPlayersPerTeam, settings.premadeInstance with
    | (some pools, q), some instanceId => (true, q.invitePools instanceId settings.now pools)
    | (some _, q), none => (false, q)
    | (none, q), _ => (true, q)
  else (true, q)

def noGroups (q : BattlegroundQueue) (bracket : BracketId) : Bool :=
  (q.queuedGroups (premade bracket .alliance)).isEmpty && (q.queuedGroups (premade bracket .horde)).isEmpty &&
    (q.queuedGroups (normal bracket .alliance)).isEmpty && (q.queuedGroups (normal bracket .horde)).isEmpty

def fillPlayers (q : BattlegroundQueue) (settings : UpdateSettings) : BattlegroundQueue :=
  settings.filled.foldl (fun q bg => q.inviteSelected bg.1 settings.now bg.2) q

def battlegroundQueueUpdate (q : BattlegroundQueue) (bracket : BracketId) (isRated : Bool)
    (arenaRating : UInt32) (settings : UpdateSettings) : BattlegroundQueue :=
  if q.noGroups bracket then q
  else if !settings.hasTemplate then q.fillPlayers settings
  else
    match (q.fillPlayers settings).updatePremade bracket settings with
    | (false, q) => q
    | (true, q) =>
      if !isRated then q.updateNormal bracket settings
      else if settings.isArena then q.updateRated bracket arenaRating settings
      else q

end BattlegroundQueue

/-! ## Requests -/

structure Candidate where
  guid : ObjectGuid
  inQueue : Bool
  fits : Bool

/-- A group that is too large is admitted before its members are looked at. -/
def canJoinBattlegroundQueue (isLFGGroup : Bool) (membersCount maxGroupSize : Nat) (arenaType : UInt8)
    (members : List Candidate) : Bool :=
  !isLFGGroup &&
    (membersCount > maxGroupSize ||
      (members.all fun member => member.fits && !member.inQueue) &&
        (arenaType = 0 || members.length = arenaType.toNat))

inductive QueueAction
  | joinAlone (player : Candidate) (spec : GroupSpec)
  | joinAsGroup (isLFGGroup : Bool) (membersCount maxGroupSize : Nat) (leader : Candidate)
    (others : List Candidate) (spec : GroupSpec)
  | removePlayer (guid : ObjectGuid)
  | update (bracket : BracketId) (isRated : Bool) (arenaRating : UInt32)
    (settings : BattlegroundQueue.UpdateSettings)

namespace QueueAction

/-- The players that an action adds to the queue, if it is admitted. -/
def admitted : QueueAction → List ObjectGuid
  | joinAlone player _ => if player.fits && !player.inQueue then [player.guid] else []
  | joinAsGroup isLFGGroup membersCount maxGroupSize leader others spec =>
    if canJoinBattlegroundQueue isLFGGroup membersCount maxGroupSize spec.arenaType (leader :: others) then
      (leader :: others).map Candidate.guid
    else []
  | _ => []

def step (q : BattlegroundQueue) : QueueAction → BattlegroundQueue
  | joinAlone player spec => if player.fits && !player.inQueue then q.addGroup spec [player.guid] else q
  | joinAsGroup isLFGGroup membersCount maxGroupSize leader others spec =>
    if canJoinBattlegroundQueue isLFGGroup membersCount maxGroupSize spec.arenaType (leader :: others) then
      q.addGroup spec ((leader :: others).map Candidate.guid)
    else q
  | removePlayer guid => q.removePlayer guid
  | update bracket isRated arenaRating settings =>
    q.battlegroundQueueUpdate bracket isRated arenaRating settings

end QueueAction

end AshamaneCore.Battlegrounds
