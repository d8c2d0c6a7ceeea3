import AshamaneCore.Common.Containers
import AshamaneCore.Game.LfgRoles
import Mathlib.Data.Finset.Dedup

/-!
# States of players and groups

The manager keeps a state for every player and for every group. A state can be
restored to the last one outside of queueing. Looking a guid up makes its entry,
so the stores are total.
-/

namespace AshamaneCore.Lfg

open Library

inductive LfgState
  | none
  | rolecheck
  | queued
  | proposal
  | dungeon
  | finishedDungeon
  | raidbrowser
  deriving DecidableEq

abbrev GuidSet := KeyedSet ObjectGuid.toNat

structure LfgPlayerData where
  state : LfgState
  oldState : LfgState
  team : UInt8
  group : ObjectGuid

structure LfgGroupData where
  state : LfgState
  oldState : LfgState
  leader : ObjectGuid
  players : GuidSet

def LfgPlayerData.initial : LfgPlayerData := ⟨.none, .none, 0, .empty⟩

def LfgGroupData.initial : LfgGroupData := ⟨.none, .none, .empty, KeyedSet.empty⟩

def LfgPlayerData.setState (data : LfgPlayerData) (state : LfgState) : LfgPlayerData :=
  match state with
  | .none | .finishedDungeon | .dungeon => { data with oldState := state, state := state }
  | state => { data with state := state }

def LfgPlayerData.restoreState (data : LfgPlayerData) : LfgPlayerData :=
  { data with state := data.oldState }

def LfgGroupData.setState (data : LfgGroupData) (state : LfgState) : LfgGroupData :=
  match state with
  | .none | .finishedDungeon | .dungeon => { data with oldState := state, state := state }
  | state => { data with state := state }

def LfgGroupData.restoreState (data : LfgGroupData) : LfgGroupData :=
  { data with state := data.oldState }

def LfgGroupData.isLfgGroup (data : LfgGroupData) : Bool := data.oldState ≠ .none

/-- Players that are not connected have no list of ignored players. -/
structure LfgStores where
  playersStore : ObjectGuid → LfgPlayerData
  groupsStore : ObjectGuid → LfgGroupData
  social : ObjectGuid → Option (List ObjectGuid)

namespace LfgStores

def alterPlayer (m : LfgStores) (guid : ObjectGuid) (f : LfgPlayerData → LfgPlayerData) : LfgStores :=
  { m with playersStore := Function.update m.playersStore guid (f (m.playersStore guid)) }

def alterGroup (m : LfgStores) (guid : ObjectGuid) (f : LfgGroupData → LfgGroupData) : LfgStores :=
  { m with groupsStore := Function.update m.groupsStore guid (f (m.groupsStore guid)) }

def getState (m : LfgStores) (guid : ObjectGuid) : LfgState :=
  if guid.isParty then (m.groupsStore guid).state else (m.playersStore guid).state

def getOldState (m : LfgStores) (guid : ObjectGuid) : LfgState :=
  if guid.isParty then (m.groupsStore guid).oldState else (m.playersStore guid).oldState

def setState (m : LfgStores) (guid : ObjectGuid) (state : LfgState) : LfgStores :=
  if guid.isParty then m.alterGroup guid (·.setState state) else m.alterPlayer guid (·.setState state)

def restoreState (m : LfgStores) (guid : ObjectGuid) : LfgStores :=
  if guid.isParty then m.alterGroup guid (·.restoreState) else m.alterPlayer guid (·.restoreState)

def getGroup (m : LfgStores) (guid : ObjectGuid) : ObjectGuid := (m.playersStore guid).group

def isLfgGroup (m : LfgStores) (guid : ObjectGuid) : Bool :=
  guid ≠ .empty && guid.isParty && (m.groupsStore guid).isLfgGroup

def allQueued (m : LfgStores) (check : List ObjectGuid) : Bool :=
  !check.isEmpty && check.all fun guid => m.getState guid = .queued

def hasIgnore (m : LfgStores) (guid1 guid2 : ObjectGuid) : Bool :=
  match m.social guid1, m.social guid2 with
  | some ignored1, some ignored2 => ignored1.contains guid2 || ignored2.contains guid1
  | _, _ => false

theorem hasIgnore_comm (m : LfgStores) (guid1 guid2 : ObjectGuid) :
    m.hasIgnore guid1 guid2 = m.hasIgnore guid2 guid1 := by
  unfold hasIgnore
  cases m.social guid1 <;> cases m.social guid2 <;> simp [Bool.or_comm]

end LfgStores

/-!
## The dungeon finder queue

A queue holds the data of the players and groups that joined, and lists those that are
still looking. The search checks lists of them: combinations known not to go together
are cached, and a full party becomes a proposal. What the random numbers come out as
is given.
-/

open Library Containers

def maxGroupSize : Nat := 5
def lfgTimeProposal : Nat := 45

inductive LfgCompatibility
  | pending
  | wrongGroupSize
  | tooMuchPlayers
  | multipleLfgGroups
  | hasIgnores
  | noRoles
  | noDungeons
  | withLessPlayers
  | badStates
  | compatiblesMatch
  deriving DecidableEq

def LfgCompatibility.notCompatible (c : LfgCompatibility) : Bool :=
  c.ctorIdx < LfgCompatibility.withLessPlayers.ctorIdx

abbrev LfgDungeonSet := KeyedSet UInt32.toNat

structure LfgQueueData where
  guid : ObjectGuid
  dungeons : LfgDungeonSet
  roles : RolesMap

inductive LfgAnswer
  | pending
  | deny
  | agree
  deriving DecidableEq

inductive LfgProposalState
  | initiating
  | failed
  | success
  deriving DecidableEq

structure LfgProposalPlayer where
  guid : ObjectGuid
  role : UInt8
  accept : LfgAnswer
  group : ObjectGuid
  deriving DecidableEq

abbrev LfgProposalPlayers := KeyedSet fun p : LfgProposalPlayer => p.guid.toNat

structure LfgProposal where
  id : Nat
  dungeonId : UInt32
  state : LfgProposalState
  group : ObjectGuid
  leader : ObjectGuid
  cancelTime : Nat
  isNew : Bool
  queues : List ObjectGuid
  players : LfgProposalPlayers

structure LfgProposals where
  lfgProposalId : Nat
  proposalsStore : KeyedSet LfgProposal.id

def LfgProposals.addProposal (s : LfgProposals) (proposal : LfgProposal) : LfgProposals :=
  let id := s.lfgProposalId + 1
  ⟨id, s.proposalsStore.assign { proposal with id := id }⟩

abbrev QueueDataStore := KeyedSet fun data : LfgQueueData => data.guid.toNat

structure LFGQueue where
  queueDataStore : QueueDataStore
  compatibleMapStore : Finset ObjectGuid → LfgCompatibility
  currentQueueStore : List ObjectGuid
  newToQueueStore : List ObjectGuid

namespace LFGQueue

def initial : LFGQueue := ⟨KeyedSet.empty, fun _ => .pending, [], []⟩

def getCompatibles (q : LFGQueue) (check : List ObjectGuid) : LfgCompatibility :=
  q.compatibleMapStore check.toFinset

def setCompatibles (q : LFGQueue) (check : List ObjectGuid) (c : LfgCompatibility) : LFGQueue :=
  { q with compatibleMapStore := Function.update q.compatibleMapStore check.toFinset c }

def removeFromNewQueue (q : LFGQueue) (guid : ObjectGuid) : LFGQueue :=
  { q with newToQueueStore := q.newToQueueStore.filter (· ≠ guid) }

def removeFromCurrentQueue (q : LFGQueue) (guid : ObjectGuid) : LFGQueue :=
  { q with currentQueueStore := q.currentQueueStore.filter (· ≠ guid) }

def removeFromCompatibles (q : LFGQueue) (guid : ObjectGuid) : LFGQueue :=
  { q with compatibleMapStore := fun key => if guid ∈ key then .pending else q.compatibleMapStore key }

def removeFromQueue (q : LFGQueue) (guid : ObjectGuid) : LFGQueue :=
  let q := ((q.removeFromNewQueue guid).removeFromCurrentQueue guid).removeFromCompatibles guid
  { q with queueDataStore := q.queueDataStore.erase guid.toNat }

def addToQueue (q : LFGQueue) (guid : ObjectGuid) (reAdd : Bool) : LFGQueue :=
  if q.queueDataStore.contains guid.toNat then
    if reAdd then { q with currentQueueStore := guid :: q.currentQueueStore }
    else { q with newToQueueStore := q.newToQueueStore ++ [guid] }
  else q

def addQueueData (q : LFGQueue) (data : LfgQueueData) : LFGQueue :=
  { q with queueDataStore := q.queueDataStore.assign data }.addToQueue data.guid false

end LFGQueue

/-! ## What a check finds -/

structure Count where
  numPlayers : Nat
  numLfgGroups : Nat
  group : ObjectGuid
  proposalGroups : ObjectGuid → ObjectGuid

def Count.zero : Count := ⟨0, 0, .empty, fun _ => .empty⟩

def Count.add (m : LfgStores) (c : Count) (data : LfgQueueData) : Count where
  numPlayers := c.numPlayers + data.roles.entries.length
  numLfgGroups := if m.isLfgGroup data.guid then c.numLfgGroups + 1 else c.numLfgGroups
  group := if m.isLfgGroup data.guid && c.numLfgGroups = 0 then data.guid else c.group
  proposalGroups guid :=
    if data.roles.contains guid.toNat then (if data.guid.isParty then data.guid else .empty)
    else c.proposalGroups guid

section Judge

variable (m : LfgStores) (store : QueueDataStore)

/-- The loop ends early once there are too many; it fails at a guid without data. -/
def countUp : List ObjectGuid → Count → Except ObjectGuid Count
  | [], c => .ok c
  | guid :: rest, c =>
    if 2 ≤ c.numLfgGroups ∨ maxGroupSize < c.numPlayers then .ok c
    else
      match store.find? guid.toNat with
      | none => .error guid
      | some data => countUp rest (c.add m data)

def addRole (merged : RolesMap) (p : PlayerRole) : RolesMap :=
  if merged.entries.any fun q => q.guid ≠ p.guid && m.hasIgnore p.guid q.guid then merged
  else merged.assign p

def mergeRoles (entries : List LfgQueueData) : RolesMap :=
  entries.foldl (fun merged data => data.roles.entries.foldl (addRole m) merged) KeyedSet.empty

def commonDungeons : List LfgQueueData → LfgDungeonSet
  | [] => KeyedSet.empty
  | data :: rest =>
    rest.foldl (fun common data => common.filter fun d => data.dungeons.contains d.toNat) data.dungeons

def entriesOf (check : List ObjectGuid) : List LfgQueueData :=
  check.filterMap fun guid => store.find? guid.toNat

structure Draft where
  count : Count
  roles : RolesMap
  dungeons : LfgDungeonSet

inductive Verdict
  | missing (guid : ObjectGuid)
  | incompatible (c : LfgCompatibility)
  | lessPlayers
  | full (draft : Draft)

def Draft.verdict (draft : Draft) : Verdict :=
  if draft.count.numPlayers ≠ maxGroupSize then .lessPlayers else .full draft

def judgeEntries (count : Count) : List LfgQueueData → Verdict
  | [data] => Draft.verdict ⟨count, (checkGroupRoles data.roles).getD data.roles, data.dungeons⟩
  | entries =>
    let merged := mergeRoles m entries
    if count.numPlayers ≠ merged.entries.length then .incompatible .hasIgnores
    else
      match checkGroupRoles merged with
      | none => .incompatible .noRoles
      | some roles =>
        let dungeons := commonDungeons entries
        if dungeons.entries.isEmpty then .incompatible .noDungeons
        else Draft.verdict ⟨count, roles, dungeons⟩

def judge (check : List ObjectGuid) : Verdict :=
  match countUp m store check .zero with
  | .error guid => .missing guid
  | .ok count =>
    if check.length = 1 ∧ count.numPlayers ≠ maxGroupSize then .lessPlayers
    else if 1 < count.numLfgGroups then .incompatible .multipleLfgGroups
    else if maxGroupSize < count.numPlayers then .incompatible .tooMuchPlayers
    else judgeEntries m count (entriesOf store check)

end Judge

/-! ## Proposals -/

structure LfgSearch where
  queue : LFGQueue
  proposals : LfgProposals
  drawn : Nat

structure Leading where
  leader : ObjectGuid
  chosen : Bool
  drawn : Nat

section Search

variable (m : LfgStores) (now : Nat) (picks : Nat → Nat)

def Leading.coin (l : Leading) : Bool := picks l.drawn % 2 = 1

def Leading.consider (l : Leading) (p : PlayerRole) : Leading :=
  if p.roles &&& playerRoleLeader ≠ 0 then
    if !l.chosen || l.leader = .empty then ⟨p.guid, true, l.drawn⟩
    else ⟨if l.coin picks then p.guid else l.leader, true, l.drawn + 1⟩
  else if l.chosen then l
  else if l.leader = .empty then { l with leader := p.guid }
  else ⟨if l.coin picks then p.guid else l.leader, false, l.drawn + 1⟩

def proposalPlayer (isNew : Bool) (count : Count) (p : PlayerRole) : LfgProposalPlayer :=
  let group := count.proposalGroups p.guid
  ⟨p.guid, p.roles, if !isNew && group ≠ .empty && group = count.group then .agree else .pending, group⟩

def makeProposal (check : List ObjectGuid) (draft : Draft) (drawn : Nat) : LfgProposal × Nat :=
  let dungeonId := (selectRandomContainerElement draft.dungeons.entries (picks drawn)).getD 0
  let leading := draft.roles.entries.foldl (Leading.consider picks) ⟨.empty, false, drawn + 1⟩
  let isNew := draft.count.numLfgGroups ≠ 1 || m.getOldState (check.headD .empty) ≠ .dungeon
  (⟨0, dungeonId, .initiating, draft.count.group, leading.leader, now + lfgTimeProposal, isNew, check,
    draft.roles.map (proposalPlayer isNew draft.count) fun _ => rfl⟩, leading.drawn)

namespace LfgSearch

def setCompatibles (s : LfgSearch) (check : List ObjectGuid) (c : LfgCompatibility) : LfgSearch :=
  { s with queue := s.queue.setCompatibles check c }

/-- Members of a proposal are no longer listed, but their data stays. -/
def createProposal (s : LfgSearch) (check : List ObjectGuid) (draft : Draft) : LfgSearch :=
  let (proposal, drawn) := makeProposal m now picks check draft s.drawn
  let queue := check.foldl (fun q guid => (q.removeFromNewQueue guid).removeFromCurrentQueue guid) s.queue
  ⟨queue, s.proposals.addProposal proposal, drawn⟩

def settle (s : LfgSearch) (check : List ObjectGuid) : Verdict → LfgCompatibility × LfgSearch
  | .missing guid => (.pending, { s with queue := s.queue.removeFromQueue guid })
  | .incompatible c => (c, s.setCompatibles check c)
  | .lessPlayers => (.withLessPlayers, s.setCompatibles check .withLessPlayers)
  | .full draft =>
    if m.allQueued check then
      (.compatiblesMatch,
        (s.createProposal m now picks check draft).setCompatibles check .compatiblesMatch)
    else (.badStates, s.setCompatibles check .badStates)

def checkCompatibility (s : LfgSearch) : List ObjectGuid → LfgCompatibility × LfgSearch
  | [] => (.wrongGroupSize, s)
  | guid :: rest =>
    if maxGroupSize < (guid :: rest).length then (.wrongGroupSize, s)
    else if (guid :: rest).length ≤ 2 then
      s.settle m now picks (guid :: rest) (judge m s.queue.queueDataStore (guid :: rest))
    else
      let (child, s) := s.checkCompatibility rest
      if child.notCompatible then (child, s.setCompatibles (guid :: rest) child)
      else s.settle m now picks (guid :: rest) (judge m s.queue.queueDataStore (guid :: rest))

/-- A search hands back what it has left of the groups to match with. -/
structure Found where
  compatibles : LfgCompatibility
  all : List ObjectGuid
  search : LfgSearch

def findCompatibles (s : LfgSearch) (check : List ObjectGuid) : LfgCompatibility × LfgSearch :=
  let cached := s.queue.getCompatibles check
  let (compatibles, s) :=
    if cached = .pending then s.checkCompatibility m now picks check else (cached, s)
  if compatibles = .badStates ∧ m.allQueued check then
    (.compatiblesMatch, s.setCompatibles check .compatiblesMatch)
  else (compatibles, s)

/-- Groups are tried in turn; what a search takes of them is gone for the ones around it. -/
def matchQueued (find : LfgSearch → List ObjectGuid → List ObjectGuid → Found)
    (check : List ObjectGuid) : Nat → LfgSearch → List ObjectGuid → Found
  | n + 1, s, guid :: all =>
    let found := find s (check ++ [guid]) all
    if found.compatibles = .compatiblesMatch then found
    else matchQueued find check n found.search found.all
  | _, s, all => ⟨.withLessPlayers, all, s⟩

def findNewGroupsIn : Nat → LfgSearch → List ObjectGuid → List ObjectGuid → Found
  | 0, s, _, all => ⟨.withLessPlayers, all, s⟩
  | n + 1, s, check, all =>
    let (compatibles, s) := s.findCompatibles m now picks check
    if compatibles ≠ .withLessPlayers then ⟨compatibles, all, s⟩
    else matchQueued (findNewGroupsIn n) check all.length s all

def findNewGroups (s : LfgSearch) (check all : List ObjectGuid) : Found :=
  findNewGroupsIn m now picks (all.length + 1) s check all

def findNew (s : LfgSearch) (front : ObjectGuid) : LfgSearch :=
  let s := { s with queue := s.queue.removeFromNewQueue front }
  let found := s.findNewGroups m now picks [front] s.queue.currentQueueStore
  if found.compatibles = .compatiblesMatch then found.search
  else { found.search with
    queue := { found.search.queue with
      currentQueueStore := found.search.queue.currentQueueStore ++ [front] } }

def findGroupsIn : Nat → LfgSearch → LfgSearch
  | n + 1, s =>
    match s.queue.newToQueueStore with
    | [] => s
    | front :: _ => findGroupsIn n (s.findNew m now picks front)
  | 0, s => s

def findGroups (s : LfgSearch) : LfgSearch :=
  findGroupsIn m now picks s.queue.newToQueueStore.length s

end LfgSearch

end Search

end AshamaneCore.Lfg
