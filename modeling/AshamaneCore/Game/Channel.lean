import AshamaneCore.Library.KeyedSet
import AshamaneCore.Library.Transition
import Mathlib.Data.Finset.Erase
import Mathlib.Data.Finset.Insert

/-!
# Chat channels

The members of a channel stand in the order of their guids. A channel remembers its
owner by guid and marks his record too; the mark of an invisible owner lets the next
player who joins take the channel over. The manager opens a custom channel for its first
member and closes it when a member leaves it empty.
-/

namespace AshamaneCore.Channels

open Library Library.Transition

/-- What the channel code reads of a connected player. The permissions are those to change
a channel without being its moderator and to act across the two sides. -/
structure Player (Guid : Type) where
  guid : Guid
  name : String
  team : Nat
  isGMVisible : Bool
  changeNotModerator : Bool
  twoSideInteraction : Bool
  lfgRestricted : Bool
deriving DecidableEq

structure PlayerInfo where
  isOwner : Bool := false
  isModerator : Bool := false
  isMuted : Bool := false
  isInvisible : Bool := false
deriving DecidableEq

namespace PlayerInfo

def setOwner (state : Bool) (info : PlayerInfo) : PlayerInfo := { info with isOwner := state }

def setModerator (state : Bool) (info : PlayerInfo) : PlayerInfo := { info with isModerator := state }

def setMuted (state : Bool) (info : PlayerInfo) : PlayerInfo := { info with isMuted := state }

def setInvisible (state : Bool) (info : PlayerInfo) : PlayerInfo := { info with isInvisible := state }

end PlayerInfo

structure Online (Guid : Type) where
  players : List (Player Guid)
  guids : (players.map Player.guid).Nodup

variable {Guid : Type}

def findConnectedPlayerByName (online : Online Guid) (name : String) : Option (Player Guid) :=
  online.players.find? fun player => player.name = name

theorem findConnectedPlayerByName_self {online : Online Guid} {player found : Player Guid} {name : String}
    (hHere : player ∈ online.players) (h : findConnectedPlayerByName online name = some found)
    (hGuid : found.guid = player.guid) : found = player ∧ name = player.name := by
  have hFound := List.mem_of_find?_eq_some h
  have hSame := List.inj_on_of_nodup_map online.guids hFound hHere hGuid
  have hName : found.name = name := by simpa using List.find?_some h
  subst hSame
  exact ⟨rfl, hName.symm⟩

/-- The erased mark is set where the code writes to a member record that it has erased. -/
structure Channel (Guid : Type) [LinearOrder Guid] where
  channelId : Nat
  lfg : Bool
  ownershipEnabled : Bool
  isOwnerInvisible : Bool
  ownerGuid : Option Guid
  channelPassword : String
  playersStore : KeyedSet (Prod.fst : Guid × PlayerInfo → Guid)
  bannedStore : Finset Guid
  usedErased : Bool

variable [LinearOrder Guid]

structure Row (Guid : Type) where
  ownershipEnabled : Bool
  channelPassword : String
  bannedStore : Finset Guid

def newChannel (row : Row Guid) : Channel Guid :=
  ⟨0, false, row.ownershipEnabled, false, none, row.channelPassword, KeyedSet.empty, row.bannedStore, false⟩

namespace Channel

def isConstant (c : Channel Guid) : Bool := c.channelId ≠ 0

def info? (c : Channel Guid) (guid : Guid) : Option PlayerInfo := (c.playersStore.find? guid).map Prod.snd

def isOn (c : Channel Guid) (who : Guid) : Bool := (c.info? who).isSome

def isBanned (c : Channel Guid) (guid : Guid) : Bool := guid ∈ c.bannedStore

def isEmpty (c : Channel Guid) : Bool := c.playersStore.entries.isEmpty

def update (c : Channel Guid) (guid : Guid) (f : PlayerInfo → PlayerInfo) : Channel Guid :=
  { c with playersStore := c.playersStore.alter guid (fun entry => (entry.1, f entry.2)) fun _ => rfl }

def insert (c : Channel Guid) (guid : Guid) (info : PlayerInfo) : Channel Guid :=
  { c with playersStore := c.playersStore.emplace (guid, info) }

def erase (c : Channel Guid) (guid : Guid) : Channel Guid :=
  { c with playersStore := c.playersStore.erase guid }

/-- SetOwner of a guid: the old owner's record loses its mark if it is still there. -/
def appoint (c : Channel Guid) (guid : Guid) : Channel Guid :=
  match c.ownerGuid with
  | none =>
    { c.update guid fun info => (info.setModerator true).setOwner true with ownerGuid := some guid }
  | some old =>
    { (c.update old (PlayerInfo.setOwner false)).update guid fun info => (info.setModerator true).setOwner true
      with ownerGuid := some guid }

/-! ## Joining -/

def takesOver (c : Channel Guid) (player : Player Guid) : Bool :=
  !c.isConstant && c.ownershipEnabled && (c.isEmpty || player.isGMVisible) &&
    (c.ownerGuid.isNone || c.isOwnerInvisible)

def enter (c : Channel Guid) (player : Player Guid) : Channel Guid :=
  c.insert player.guid (PlayerInfo.setInvisible (!player.isGMVisible) {})

/-- The player is not on the channel yet and JoinChannel refuses him nothing. -/
def admits (c : Channel Guid) (player : Player Guid) (pass : String) : Bool :=
  !c.isOn player.guid && !c.isBanned player.guid &&
    (c.channelPassword = "" || pass = c.channelPassword) && !(c.lfg && player.lfgRestricted)

def joinChannel (c : Channel Guid) (player : Player Guid) (pass : String) : Channel Guid :=
  if c.admits player pass then
    if c.takesOver player then
      ({ c.enter player with isOwnerInvisible := !player.isGMVisible }.appoint player.guid).update player.guid
        (PlayerInfo.setModerator true)
    else c.enter player
  else c

/-! ## Leaving -/

/-- The first member that is not invisible, or else the first member. -/
def successor (c : Channel Guid) : Option (Guid × PlayerInfo) :=
  (c.playersStore.entries.find? fun entry => !entry.2.isInvisible).or c.playersStore.entries.head?

/-- The mark of an invisible owner is set here and never cleared. -/
def passOn (c : Channel Guid) (newOwner : Guid × PlayerInfo) : Channel Guid :=
  { (c.update newOwner.1 (PlayerInfo.setModerator true)).appoint newOwner.1
    with isOwnerInvisible := c.isOwnerInvisible || newOwner.2.isInvisible }

def leaveChannel (c : Channel Guid) (player : Player Guid) : Channel Guid :=
  match c.info? player.guid with
  | none => c
  | some info =>
    if !c.isConstant && info.isOwner && c.ownershipEnabled then
      match (c.erase player.guid).successor with
      | none => c.erase player.guid
      | some newOwner => (c.erase player.guid).passOn newOwner
    else c.erase player.guid

/-! ## Commands of members -/

/-- The checks that most commands share: the player is on the channel, and he is its
moderator or may do without. -/
def mayModerate (c : Channel Guid) (player : Player Guid) : Bool :=
  match c.info? player.guid with
  | none => false
  | some info => info.isModerator || player.changeNotModerator

/-- The record of the player who expels was looked up before the erasure, and it is
written to after it. -/
def crown (c : Channel Guid) (good : Guid) : Channel Guid :=
  match c.info? good with
  | none => { c with usedErased := true }.appoint good
  | some _ => (c.update good (PlayerInfo.setModerator true)).appoint good

def expelled (c : Channel Guid) (victim : Guid) (ban : Bool) : Channel Guid :=
  { c.erase victim with bannedStore := if ban then Insert.insert victim c.bannedStore else c.bannedStore }

def expel (c : Channel Guid) (good victim : Guid) (ban : Bool) : Channel Guid :=
  if c.ownerGuid = some victim ∧ c.ownershipEnabled = true ∧ (c.expelled victim ban).isEmpty = false then
    (c.expelled victim ban).crown good
  else c.expelled victim ban

def kickOrBan (c : Channel Guid) (player : Player Guid) (bad : Option (Player Guid)) (ban : Bool) : Channel Guid :=
  if c.mayModerate player then
    match bad with
    | none => c
    | some bad =>
      if c.isOn bad.guid then
        if player.changeNotModerator = false ∧ c.ownerGuid = some bad.guid ∧ c.ownerGuid ≠ some player.guid then c
        else c.expel player.guid bad.guid ban
      else c
  else c

def unBan (c : Channel Guid) (player : Player Guid) (bad : Option (Player Guid)) : Channel Guid :=
  if c.mayModerate player then
    match bad with
    | none => c
    | some bad => if c.isBanned bad.guid then { c with bannedStore := c.bannedStore.erase bad.guid } else c
  else c

def password (c : Channel Guid) (player : Player Guid) (pass : String) : Channel Guid :=
  if c.mayModerate player then { c with channelPassword := pass } else c

/-- The player named is on the channel, and the two sides may deal with each other. -/
def reaches (c : Channel Guid) (player newp : Player Guid) : Bool :=
  c.isOn newp.guid && (player.team = newp.team || (player.twoSideInteraction && newp.twoSideInteraction))

def setMode (c : Channel Guid) (player : Player Guid) (p2n : String) (newp : Option (Player Guid))
    (mod set : Bool) : Channel Guid :=
  if c.mayModerate player then
    if c.ownerGuid = some player.guid ∧ p2n = player.name ∧ mod = true then c
    else
      match newp with
      | none => c
      | some newp =>
        if c.reaches player newp then
          if c.ownerGuid = some newp.guid ∧ c.ownerGuid ≠ some player.guid then c
          else if mod then c.update newp.guid (PlayerInfo.setModerator set)
          else c.update newp.guid (PlayerInfo.setMuted set)
        else c
  else c

def setInvisible (c : Channel Guid) (player : Player Guid) (on : Bool) : Channel Guid :=
  match c.info? player.guid with
  | none => c
  | some _ =>
    { c.update player.guid (PlayerInfo.setInvisible on)
      with isOwnerInvisible := if c.ownerGuid = some player.guid then on else c.isOwnerInvisible }

def setOwner (c : Channel Guid) (player : Player Guid) (newp : Option (Player Guid)) : Channel Guid :=
  if c.isOn player.guid ∧ (player.changeNotModerator = true ∨ c.ownerGuid = some player.guid) then
    match newp with
    | none => c
    | some newp =>
      if c.reaches player newp then (c.update newp.guid (PlayerInfo.setModerator true)).appoint newp.guid
      else c
  else c

end Channel

/-! ## The manager -/

inductive Command (Guid : Type) where
  | join (pass : String) (stored : Row Guid)
  | leave
  | kickOrBan (badname : String) (ban : Bool)
  | unBan (badname : String)
  | password (pass : String)
  | setMode (p2n : String) (mod set : Bool)
  | setInvisible (on : Bool)
  | setOwner (newname : String)

/-- A request of a connected player, with the players that can be found at its time. -/
structure Request (Guid : Type) where
  online : Online Guid
  player : Player Guid
  connected : player ∈ online.players
  command : Command Guid

def Channel.handle (c : Channel Guid) (r : Request Guid) : Channel Guid :=
  match r.command with
  | .join pass _ => c.joinChannel r.player pass
  | .leave => c.leaveChannel r.player
  | .kickOrBan badname ban => c.kickOrBan r.player (findConnectedPlayerByName r.online badname) ban
  | .unBan badname => c.unBan r.player (findConnectedPlayerByName r.online badname)
  | .password pass => c.password r.player pass
  | .setMode p2n mod set => c.setMode r.player p2n (findConnectedPlayerByName r.online p2n) mod set
  | .setInvisible on => c.setInvisible r.player on
  | .setOwner newname => c.setOwner r.player (findConnectedPlayerByName r.online newname)

def leftChannel (c : Channel Guid) : Option (Channel Guid) := if c.isEmpty then none else some c

/-- The custom channel of a name. A player who joins opens it from what is stored then. -/
def step (s : Option (Channel Guid)) (r : Request Guid) : Option (Channel Guid) :=
  match r.command with
  | .join _ stored => some ((s.getD (newChannel stored)).handle r)
  | .leave => s.bind fun c => leftChannel (c.handle r)
  | _ => s.map fun c => c.handle r

/-! ## Records -/

namespace Channel

variable (c : Channel Guid)

theorem info?_update (guid : Guid) (f : PlayerInfo → PlayerInfo) (g : Guid) :
    (c.update guid f).info? g = if g = guid then (c.info? g).map f else c.info? g := by
  rw [info?, update, KeyedSet.find?_alter_eq]
  split
  · rw [info?, Option.map_map, Option.map_map]
    rfl
  · rfl

theorem info?_erase (guid g : Guid) : (c.erase guid).info? g = if g = guid then none else c.info? g := by
  rw [info?, erase, KeyedSet.find?_erase_eq]
  split
  · rfl
  · rfl

theorem info?_insert (guid : Guid) (info : PlayerInfo) (g : Guid) :
    (c.insert guid info).info? g = if g = guid then some ((c.info? g).getD info) else c.info? g := by
  rw [info?, insert, KeyedSet.find?_emplace_eq]
  split
  · rw [info?]
    cases c.playersStore.find? g <;> rfl
  · rfl

theorem isEmpty_iff : c.isEmpty = true ↔ ∀ g, c.info? g = none := by
  rw [isEmpty, List.isEmpty_iff, List.eq_nil_iff_forall_not_mem]
  simp only [info?, Option.map_eq_none_iff, KeyedSet.find?_eq_none_iff]
  constructor
  · exact fun h g entry hEntry => absurd hEntry (h entry)
  · exact fun h entry hEntry => h entry.1 entry hEntry rfl

theorem info?_appoint (guid g : Guid) :
    (c.appoint guid).info? g =
      if g = guid then (c.info? g).map fun info => (info.setModerator true).setOwner true
      else if c.ownerGuid = some g then (c.info? g).map (PlayerInfo.setOwner false) else c.info? g := by
  rw [appoint]
  split
  · rename_i hOwner
    refine (info?_update c guid (fun info => (info.setModerator true).setOwner true) g).trans ?_
    rw [hOwner]
    simp only [reduceCtorEq, if_false]
  · rename_i old hOwner
    refine (info?_update (c.update old (PlayerInfo.setOwner false)) guid
      (fun info => (info.setModerator true).setOwner true) g).trans ?_
    rw [info?_update, hOwner]
    simp only [Option.some_inj, eq_comm (a := old)]
    split
    · split
      · cases c.info? g <;> rfl
      · rfl
    · rfl

theorem appoint_frame (guid : Guid) :
    (c.appoint guid).ownerGuid = some guid ∧ (c.appoint guid).channelId = c.channelId ∧
    (c.appoint guid).ownershipEnabled = c.ownershipEnabled ∧
    (c.appoint guid).isOwnerInvisible = c.isOwnerInvisible ∧
    (c.appoint guid).bannedStore = c.bannedStore ∧ (c.appoint guid).usedErased = c.usedErased := by
  rw [appoint]
  split
  · exact ⟨rfl, rfl, rfl, rfl, rfl, rfl⟩
  · exact ⟨rfl, rfl, rfl, rfl, rfl, rfl⟩

theorem successor_spec : (c.successor = none ∧ c.isEmpty = true) ∨
    ∃ newOwner, c.successor = some newOwner ∧ c.info? newOwner.1 = some newOwner.2 := by
  have hMember : ∀ entry ∈ c.playersStore.entries, c.info? entry.1 = some entry.2 := by
    intro entry hEntry
    rw [info?, KeyedSet.find?_eq_some_iff.mpr ⟨hEntry, rfl⟩]
    rfl
  cases hFind : c.playersStore.entries.find? fun entry => !entry.2.isInvisible with
  | some entry =>
    refine Or.inr ⟨entry, ?_, hMember entry (List.mem_of_find?_eq_some hFind)⟩
    rw [successor, hFind]
    rfl
  | none =>
    cases hHead : c.playersStore.entries.head? with
    | some entry =>
      refine Or.inr ⟨entry, ?_, hMember entry (List.mem_of_head? hHead)⟩
      rw [successor, hFind, hHead]
      rfl
    | none =>
      refine Or.inl ⟨?_, List.isEmpty_iff.mpr (List.head?_eq_none_iff.mp hHead)⟩
      rw [successor, hFind, hHead]
      rfl

end Channel

end AshamaneCore.Channels
