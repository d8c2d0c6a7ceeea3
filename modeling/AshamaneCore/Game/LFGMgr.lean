import AshamaneCore.Game.LFGQueue

/-!
# The dungeon finder manager

Players and groups answer role checks and proposals, and leave. The manager keeps their
states, a queue for each team, the role checks and the proposals that wait for answers.
A proposal everybody agrees to becomes a group. The stores of the manager stand for the
groups themselves, whose hooks keep them in step. Whether the last one of a group is
away from its dungeon is given.
-/

namespace AshamaneCore.Lfg

open Library

inductive LfgRoleCheckState
  | default
  | finished
  | initialiting
  | missingRole
  | wrongRoles
  | aborted
  | noRole
  deriving DecidableEq

structure LfgRoleCheck where
  guid : ObjectGuid
  cancelTime : Nat
  roles : RolesMap
  state : LfgRoleCheckState
  dungeons : LfgDungeonSet
  leader : ObjectGuid

abbrev RoleChecksStore := KeyedSet fun r : LfgRoleCheck => r.guid.toNat

structure LFGMgr where
  stores : LfgStores
  queuesStore : UInt8 → LFGQueue
  roleChecksStore : RoleChecksStore
  proposals : LfgProposals
  lfgGroups : ObjectGuid → Bool
  nextGroupId : UInt64
  drawn : Nat
  sent : List (ObjectGuid × Nat)

/-- The group a player of a proposal is queued as, or the player. -/
def LfgProposalPlayer.entry (p : LfgProposalPlayer) : ObjectGuid :=
  if p.group ≠ .empty then p.group else p.guid

def LfgRoleCheck.answer (r : LfgRoleCheck) (guid : ObjectGuid) (roles : UInt8) : LfgRoleCheck :=
  if guid = .empty then { r with state := .aborted }
  else if roles < playerRoleTank then { r with state := .noRole }
  else
    let rolesMap := r.roles.assign ⟨guid, roles⟩
    if rolesMap.entries.all fun p => p.roles ≠ 0 then
      { r with
        roles := rolesMap
        state := if (checkGroupRoles rolesMap).isSome then .finished else .wrongRoles }
    else { r with roles := rolesMap }

namespace LFGMgr

def getState (s : LFGMgr) (guid : ObjectGuid) : LfgState := s.stores.getState guid

def getGroup (s : LFGMgr) (guid : ObjectGuid) : ObjectGuid := s.stores.getGroup guid

def getPlayers (s : LFGMgr) (guid : ObjectGuid) : GuidSet := (s.stores.groupsStore guid).players

def connected (s : LFGMgr) (guid : ObjectGuid) : Bool := (s.stores.social guid).isSome

def setState (s : LFGMgr) (guid : ObjectGuid) (state : LfgState) : LFGMgr :=
  { s with stores := s.stores.setState guid state }

def restoreState (s : LFGMgr) (guid : ObjectGuid) : LFGMgr :=
  { s with stores := s.stores.restoreState guid }

def setGroup (s : LFGMgr) (guid group : ObjectGuid) : LFGMgr :=
  { s with stores := s.stores.alterPlayer guid fun data => { data with group := group } }

def setLeader (s : LFGMgr) (guid leader : ObjectGuid) : LFGMgr :=
  { s with stores := s.stores.alterGroup guid fun data => { data with leader := leader } }

def addPlayerToGroup (s : LFGMgr) (guid player : ObjectGuid) : LFGMgr :=
  { s with stores := s.stores.alterGroup guid fun data =>
      { data with players := data.players.emplace player } }

def removePlayerFromGroup (s : LFGMgr) (guid player : ObjectGuid) : LFGMgr :=
  { s with stores := s.stores.alterGroup guid fun data =>
      { data with players := data.players.erase player.toNat } }

def setStates (s : LFGMgr) (guids : List ObjectGuid) (state : LfgState) : LFGMgr :=
  guids.foldl (fun s guid => s.setState guid state) s

def restoreStates (s : LFGMgr) (guids : List ObjectGuid) : LFGMgr := guids.foldl restoreState s

def sendLfgUpdateProposal (s : LFGMgr) (guid : ObjectGuid) (proposal : LfgProposal) : LFGMgr :=
  { s with sent := s.sent ++ [(guid, proposal.id)] }

def getQueueId (s : LFGMgr) (guid : ObjectGuid) : UInt8 :=
  let first := if guid.isParty then (s.getPlayers guid).entries.headD .empty else .empty
  (s.stores.playersStore (if first ≠ .empty then first else guid)).team

def alterQueue (s : LFGMgr) (queueId : UInt8) (f : LFGQueue → LFGQueue) : LFGMgr :=
  { s with queuesStore := Function.update s.queuesStore queueId (f (s.queuesStore queueId)) }

def removeFromQueue (s : LFGMgr) (guid : ObjectGuid) : LFGMgr :=
  s.alterQueue (s.getQueueId guid) (·.removeFromQueue guid)

def eraseProposal (s : LFGMgr) (id : Nat) : LFGMgr :=
  { s with proposals := { s.proposals with proposalsStore := s.proposals.proposalsStore.erase id } }

def assignProposal (s : LFGMgr) (proposal : LfgProposal) : LFGMgr :=
  { s with proposals := { s.proposals with
      proposalsStore := s.proposals.proposalsStore.assign proposal } }

/-! ## Role checks -/

def updateRoleCheck (s : LFGMgr) (gguid guid : ObjectGuid) (roles : UInt8) : LFGMgr :=
  match if gguid = .empty then none else s.roleChecksStore.find? gguid.toNat with
  | none => s
  | some r =>
    let r := r.answer guid roles
    let guids := r.roles.entries.map (·.guid)
    match r.state with
    | .initialiting => { s with roleChecksStore := s.roleChecksStore.assign r }
    | .finished =>
      let s := (s.setStates guids .queued).setState gguid .queued
      let s := s.alterQueue (s.getQueueId gguid) (·.addQueueData ⟨gguid, r.dungeons, r.roles⟩)
      { s with roleChecksStore := s.roleChecksStore.erase gguid.toNat }
    | _ =>
      let s := (s.restoreStates guids).restoreState gguid
      { s with roleChecksStore := s.roleChecksStore.erase gguid.toNat }

def roleCheckTimeout (s : LFGMgr) (r : LfgRoleCheck) : LFGMgr :=
  let s := (s.restoreStates (r.roles.entries.map (·.guid))).restoreState r.guid
  { s with roleChecksStore := s.roleChecksStore.erase r.guid.toNat }

/-! ## Proposals that fail -/

/-- Players without an answer are counted out once the time is up. -/
def refuses (failed : Bool) (p : LfgProposalPlayer) : Bool :=
  p.accept = .deny || failed && p.accept = .pending

def dismiss (toRemove : List ObjectGuid) (proposal : LfgProposal) (s : LFGMgr)
    (p : LfgProposalPlayer) : LFGMgr :=
  let s := s.sendLfgUpdateProposal p.guid proposal
  if p.entry ∈ toRemove then
    let s := s.restoreState p.guid
    if p.entry ≠ p.guid then s.restoreState p.group else s
  else
    let s := s.setState p.guid .queued
    if p.entry ≠ p.guid then s.setState p.entry .queued else s

def removeProposal (s : LFGMgr) (proposal : LfgProposal) (failed : Bool) : LFGMgr :=
  let players := proposal.players.entries
  let toRemove := (players.filter (refuses failed)).map (·.entry)
  let s := players.foldl (dismiss toRemove proposal) s
  let queueId := s.getQueueId ((players.map (·.guid)).headD .empty)
  let s := s.alterQueue queueId fun q => toRemove.foldl LFGQueue.removeFromQueue q
  let s := s.alterQueue queueId fun q =>
    (proposal.queues.filter (· ∉ toRemove)).foldl (fun q guid => q.addToQueue guid true) q
  s.eraseProposal proposal.id

/-! ## Leaving -/

def leaveQueue (s : LFGMgr) (guid : ObjectGuid) : LFGMgr :=
  let gguid := if guid.isParty then guid else s.getGroup guid
  if gguid ≠ .empty then
    let s := (s.removeFromQueue gguid).setState gguid .none
    s.setStates (s.getPlayers gguid).entries .none
  else (s.removeFromQueue guid).setState guid .none

/-- The player, or the leader of the group, has left the first proposal that has him. -/
def leaveProposal (s : LFGMgr) (guid : ObjectGuid) : LFGMgr :=
  let pguid := if guid.isParty then (s.stores.groupsStore guid).leader else guid
  match s.proposals.proposalsStore.entries.find? fun proposal => proposal.players.contains pguid.toNat with
  | none => s
  | some proposal =>
    let players := proposal.players.alter pguid.toNat (fun p => { p with accept := .deny }) fun _ => rfl
    s.removeProposal { proposal with players := players } false

def leaveLfg (s : LFGMgr) (guid : ObjectGuid) (disconnected : Bool) : LFGMgr :=
  let gguid := if guid.isParty then guid else s.getGroup guid
  match s.getState guid with
  | .queued => s.leaveQueue guid
  | .rolecheck => s.updateRoleCheck gguid .empty 0
  | .proposal => s.leaveProposal guid
  | .dungeon | .finishedDungeon =>
    if guid ≠ gguid && !disconnected then s.setState guid .none else s
  | .none | .raidbrowser => s

/-! ## Groups tell about their members -/

def onAddMember (s : LFGMgr) (gguid leader guid : ObjectGuid) : LFGMgr :=
  let s :=
    if leader = guid then s.setLeader gguid guid
    else
      let gstate := s.getState gguid
      let s := if s.getState guid = .queued then s.leaveLfg guid false else s
      if gstate = .queued then s.leaveLfg gguid false else s
  (s.setGroup guid gguid).addPlayerToGroup gguid guid

/-- A group that is being formed after a proposal does not make its players leave. -/
def onRemoveMember (s : LFGMgr) (gguid guid : ObjectGuid) : LFGMgr :=
  let s := if s.getState gguid = .proposal then s else s.leaveLfg guid false
  (s.setGroup guid .empty).removePlayerFromGroup gguid guid

def removeGroupData (s : LFGMgr) (gguid : ObjectGuid) : LFGMgr :=
  let state := s.getState gguid
  let s := (s.getPlayers gguid).entries.foldl (fun s guid =>
    let s := s.setGroup guid .empty
    if state ≠ .proposal then s.setState guid .none else s) s
  { s with stores := s.stores.alterGroup gguid fun _ => .initial }

def changeLeader (s : LFGMgr) (gguid : ObjectGuid) : LFGMgr :=
  match (s.getPlayers gguid).entries.find? s.connected with
  | none => s
  | some leader => s.setLeader gguid leader

section Groups

variable (away : ObjectGuid → Bool)

/-- A group disbands when fewer than two are left that are connected; the last one of a
dungeon group may stay. -/
def disbands (s : LFGMgr) (gguid : ObjectGuid) : Bool :=
  let left := (s.getPlayers gguid).entries
  if s.lfgGroups gguid then left.countP s.connected = 0 || left.length = 1 && away gguid
  else left.countP s.connected < 2

def removeMember (s : LFGMgr) (gguid guid : ObjectGuid) : LFGMgr :=
  let leader := (s.stores.groupsStore gguid).leader
  let s := s.onRemoveMember gguid guid
  let s := if leader = guid then s.changeLeader gguid else s
  if s.disbands away gguid then s.removeGroupData gguid else s

def create (s : LFGMgr) (guid : ObjectGuid) : LFGMgr × ObjectGuid :=
  let gguid := ObjectGuid.party s.nextGroupId
  let s := { s with
    nextGroupId := s.nextGroupId + 1
    lfgGroups := Function.update s.lfgGroups gguid true }
  ((s.onAddMember gguid guid guid).setState gguid .proposal, gguid)

/-- The group there is takes the player; the first player makes one if there is none. -/
def gather (formed : LFGMgr × Option ObjectGuid) (guid : ObjectGuid) : LFGMgr × Option ObjectGuid :=
  let (s, grp) := formed
  if !s.connected guid then (s, grp)
  else
    let group := s.getGroup guid
    let s := if group ≠ .empty && some group ≠ grp then s.removeMember away group guid else s
    match grp with
    | none =>
      let (s, gguid) := s.create guid
      (s, some gguid)
    | some gguid =>
      if group ≠ gguid then (s.onAddMember gguid (s.stores.groupsStore gguid).leader guid, grp)
      else (s, grp)

def makeNewGroup (s : LFGMgr) (proposal : LfgProposal) : LFGMgr :=
  let guids := proposal.players.entries.map (·.guid)
  let players := guids.filter (· = proposal.leader) ++ guids.filter (· ≠ proposal.leader)
  let grp :=
    if proposal.group ≠ .empty && !(s.getPlayers proposal.group).entries.isEmpty then some proposal.group
    else none
  match players.foldl (gather away) (s, grp) with
  | (s, none) => s
  | (s, some gguid) => s.setState gguid .dungeon

/-! ## Proposals that succeed -/

def updateProposal (s : LFGMgr) (proposalId : Nat) (guid : ObjectGuid) (accept : Bool) : LFGMgr :=
  match s.proposals.proposalsStore.find? proposalId with
  | none => s
  | some proposal =>
    if !proposal.players.contains guid.toNat then s
    else
      let answer : LfgAnswer := if accept then .agree else .deny
      let players := proposal.players.alter guid.toNat (fun p => { p with accept := answer }) fun _ => rfl
      let proposal := { proposal with players := players }
      let s := s.assignProposal proposal
      let guids := players.entries.map (·.guid)
      if !accept then s.removeProposal proposal false
      else if players.entries.any fun p => p.accept ≠ .agree then
        guids.foldl (fun s guid => s.sendLfgUpdateProposal guid proposal) s
      else
        let s :=
          if proposal.state ≠ .success then
            guids.foldl (fun s guid => s.sendLfgUpdateProposal guid proposal) s
          else s
        let proposal := { proposal with state := .success }
        let s := (s.assignProposal proposal).setStates guids .dungeon
        let s := s.alterQueue (s.getQueueId guid) fun q => proposal.queues.foldl LFGQueue.removeFromQueue q
        (s.makeNewGroup away proposal).eraseProposal proposal.id

/-! ## Updates -/

variable (picks : Nat → Nat)

def search (s : LFGMgr) (queueId : UInt8) : LfgSearch := ⟨s.queuesStore queueId, s.proposals, s.drawn⟩

def searched (s : LFGMgr) (queueId : UInt8) (t : LfgSearch) : LFGMgr :=
  { s with
    queuesStore := Function.update s.queuesStore queueId t.queue
    proposals := t.proposals
    drawn := t.drawn }

def findGroups (s : LFGMgr) (now : Nat) (queueId : UInt8) : LFGMgr :=
  s.searched queueId ((s.search queueId).findGroups s.stores now picks)

def announcePlayer (proposal : LfgProposal) (s : LFGMgr) (guid : ObjectGuid) : LFGMgr :=
  let s := s.setState guid .proposal
  let gguid := s.getGroup guid
  let s := if gguid ≠ .empty then s.setState gguid .proposal else s
  s.sendLfgUpdateProposal guid proposal

def announceProposal (s : LFGMgr) (proposal : LfgProposal) : LFGMgr :=
  let guids := proposal.players.entries.map (·.guid)
  let s := guids.foldl (announcePlayer proposal) s
  if proposal.state = .success then s.updateProposal away proposal.id (guids.getLastD .empty) true else s

def announce (s : LFGMgr) (lastProposalId : Nat) : LFGMgr :=
  if lastProposalId = s.proposals.lfgProposalId then s
  else
    (s.proposals.proposalsStore.entries.dropWhile
      fun proposal => proposal.id ≠ s.proposals.lfgProposalId).foldl (announceProposal away) s

def expire (s : LFGMgr) (now : Nat) : LFGMgr :=
  let s := (s.roleChecksStore.entries.filter (·.cancelTime ≤ now)).foldl roleCheckTimeout s
  (s.proposals.proposalsStore.entries.filter (·.cancelTime < now)).foldl
    (fun s proposal => s.removeProposal proposal true) s

def queueIds : List UInt8 := (List.range 256).map UInt8.ofNat

def formGroups (s : LFGMgr) (now : Nat) : LFGMgr :=
  queueIds.foldl (fun s queueId => s.findGroups picks now queueId) s

def update (s : LFGMgr) (now : Nat) : LFGMgr :=
  let s := s.expire now
  (s.formGroups picks now).announce away s.proposals.lfgProposalId

end Groups

end LFGMgr

end AshamaneCore.Lfg
