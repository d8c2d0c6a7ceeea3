import AshamaneCore.Library.Transition
import Mathlib.Logic.Function.Basic

/-!
# Instance saves and their binds

A save lists the players and the groups that are bound to it, and each of them points back to
the save from its bind for the map and the difficulty. Saves are told by their addresses;
the manager finds those in use by their instance ids.
-/

namespace AshamaneCore.InstanceBinds

open Library Library.Transition

abbrev MapDifficulty := Nat × Nat

abbrev Handle := Nat

inductive BindExtensionState
  | expired
  | normal
  | extended
  | keep
deriving DecidableEq

inductive Side
  | player
  | group
deriving DecidableEq

/-- The bind of a player, or of a group, which knows no extension. -/
structure InstanceBind where
  save : Handle
  perm : Bool
  extendState : BindExtensionState
deriving DecidableEq

structure InstanceSave (Guid : Type) where
  mapId : Nat
  instanceId : Nat
  difficulty : Nat
  list : Side → List Guid
  toDelete : Bool

/-- The saves that exist, those that the manager knows, and the binds of all players and
groups. -/
structure InstanceSaveManager (Guid : Type) where
  saves : Handle → Option (InstanceSave Guid)
  next : Handle
  byId : Nat → Option Handle
  lockInstLists : Bool
  binds : Side → Guid → MapDifficulty → Option InstanceBind

def mapInstance : Nat := 1
def mapRaid : Nat := 2
def mapBattleground : Nat := 3
def mapArena : Nat := 4
def mapScenario : Nat := 5

/-- The instance types of maps and difficulties, and the difficulty that a map has in place
of a given one. -/
structure MapData where
  mapType : Nat → Option Nat
  difficultyType : Nat → Option Nat
  downscaled : MapDifficulty → Option Nat

def MapData.instanceable (data : MapData) (mapId : Nat) : Bool :=
  (data.mapType mapId).any fun type =>
    decide (type = mapInstance ∨ type = mapRaid ∨ type = mapBattleground ∨ type = mapArena ∨
      type = mapScenario)

abbrev Presence := Nat → Nat → Bool

variable {Guid : Type} [DecidableEq Guid]

namespace InstanceSave

def key (save : InstanceSave Guid) : MapDifficulty := (save.mapId, save.difficulty)

def isEmpty (save : InstanceSave Guid) : Bool := (save.list .player).isEmpty && (save.list .group).isEmpty

def insert (save : InstanceSave Guid) (side : Side) (x : Guid) : InstanceSave Guid :=
  { save with list := Function.update save.list side (save.list side ++ [x]) }

def remove (save : InstanceSave Guid) (side : Side) (x : Guid) : InstanceSave Guid :=
  { save with list := Function.update save.list side ((save.list side).filter fun y => y ≠ x) }

def setToDelete (save : InstanceSave Guid) : InstanceSave Guid := { save with toDelete := true }

end InstanceSave

namespace InstanceSaveManager

def setSave (m : InstanceSaveManager Guid) (h : Handle) (save : Option (InstanceSave Guid)) :
    InstanceSaveManager Guid :=
  { m with saves := Function.update m.saves h save }

def setId (m : InstanceSaveManager Guid) (instanceId : Nat) (h : Option Handle) : InstanceSaveManager Guid :=
  { m with byId := Function.update m.byId instanceId h }

def setBind (m : InstanceSaveManager Guid) (side : Side) (x : Guid) (key : MapDifficulty)
    (bind : Option InstanceBind) : InstanceSaveManager Guid :=
  { m with
    binds := fun side' x' key' => if side' = side ∧ x' = x ∧ key' = key then bind else m.binds side' x' key' }

def setLock (m : InstanceSaveManager Guid) (lock : Bool) : InstanceSaveManager Guid :=
  { m with lockInstLists := lock }

/-! ## Saves -/

def createSave (m : InstanceSaveManager Guid) (mapId instanceId difficulty : Nat) :
    InstanceSaveManager Guid :=
  { (m.setSave m.next (some ⟨mapId, instanceId, difficulty, fun _ => [], false⟩)).setId instanceId
      (some m.next) with
    next := m.next + 1 }

def addInstanceSave (data : MapData) (m : InstanceSaveManager Guid) (mapId instanceId difficulty : Nat) :
    InstanceSaveManager Guid :=
  if (m.byId instanceId).isSome then m
  else
    match data.mapType mapId with
    | none => m
    | some type =>
      if instanceId = 0 then m
      else if data.difficultyType difficulty ≠ some type then m
      else m.createSave mapId instanceId difficulty

def removeInstanceSave (m : InstanceSaveManager Guid) (instanceId : Nat) : InstanceSaveManager Guid :=
  match m.byId instanceId with
  | none => m
  | some h => (m.setSave h ((m.saves h).map InstanceSave.setToDelete)).setId instanceId none

def unloadIfEmpty (havePlayers : Presence) (m : InstanceSaveManager Guid) (h : Handle) :
    InstanceSaveManager Guid :=
  match m.saves h with
  | none => m
  | some save =>
    if save.isEmpty = false then m
    else if havePlayers save.mapId save.instanceId = true then m
    else if m.lockInstLists = true then m
    else m.removeInstanceSave save.instanceId

def unloadInstanceSave (havePlayers : Presence) (m : InstanceSaveManager Guid) (instanceId : Nat) :
    InstanceSaveManager Guid :=
  match m.byId instanceId with
  | none => m
  | some h => m.unloadIfEmpty havePlayers h

def addTo (m : InstanceSaveManager Guid) (h : Handle) (side : Side) (x : Guid) : InstanceSaveManager Guid :=
  m.setSave h ((m.saves h).map fun save => save.insert side x)

def deleteIfMarked (m : InstanceSaveManager Guid) (h : Handle) : InstanceSaveManager Guid :=
  if (m.saves h).any InstanceSave.toDelete = true then m.setSave h none else m

def removeFrom (havePlayers : Presence) (m : InstanceSaveManager Guid) (h : Handle) (side : Side) (x : Guid) :
    InstanceSaveManager Guid :=
  ((m.setSave h ((m.saves h).map fun save => save.remove side x)).unloadIfEmpty havePlayers h).deleteIfMarked
    h

/-! ## Binds -/

def unbindInstance (havePlayers : Presence) (m : InstanceSaveManager Guid) (side : Side) (x : Guid)
    (key : MapDifficulty) : InstanceSaveManager Guid :=
  match m.binds side x key with
  | none => m
  | some bind => (m.removeFrom havePlayers bind.save side x).setBind side x key none

def keptState (old : Option InstanceBind) (h : Handle) (extendState : BindExtensionState) :
    BindExtensionState :=
  if extendState = .keep then
    match old with
    | none => .normal
    | some bind => if bind.save = h then bind.extendState else .normal
  else extendState

def relink (havePlayers : Presence) (m : InstanceSaveManager Guid) (side : Side) (x : Guid) (h : Handle)
    (old : Option InstanceBind) : InstanceSaveManager Guid :=
  match old with
  | none => m.addTo h side x
  | some bind => if bind.save = h then m else (m.removeFrom havePlayers bind.save side x).addTo h side x

def bindTo (havePlayers : Presence) (m : InstanceSaveManager Guid) (side : Side) (x : Guid) (h : Handle)
    (key : MapDifficulty) (permanent : Bool) (extendState : BindExtensionState) : InstanceSaveManager Guid :=
  (m.relink havePlayers side x h (m.binds side x key)).setBind side x key
    (some ⟨h, permanent, keptState (m.binds side x key) h extendState⟩)

/-- BindToInstance, with the save that the manager has for the id. -/
def bindToInstance (havePlayers : Presence) (m : InstanceSaveManager Guid) (side : Side) (x : Guid)
    (instanceId : Nat) (permanent : Bool) (extendState : BindExtensionState) : InstanceSaveManager Guid :=
  match m.byId instanceId with
  | none => m
  | some h =>
    match m.saves h with
    | none => m
    | some save => m.bindTo havePlayers side x h save.key permanent extendState

def getBoundInstance (data : MapData) (m : InstanceSaveManager Guid) (x : Guid) (key : MapDifficulty) :
    Option (MapDifficulty × InstanceBind) :=
  match data.downscaled key with
  | none => none
  | some difficulty =>
    match m.binds .player x (key.1, difficulty) with
    | none => none
    | some bind => if bind.extendState ≠ .expired then some ((key.1, difficulty), bind) else none

end InstanceSaveManager

/-! ## Resets -/

def BindExtensionState.promoted (state : BindExtensionState) : BindExtensionState :=
  if state = .extended then .normal else .expired

structure Review (Guid : Type) where
  manager : InstanceSaveManager Guid
  temp : List Guid
  shouldDelete : Bool

def InstanceBind.lasts (bind : InstanceBind) : Bool := bind.perm && decide (bind.extendState ≠ .expired)

/-- One player of the list. A bind to another save fails an assertion. -/
def Review.next (data : MapData) (h : Handle) (key : MapDifficulty) (r : Review Guid) (x : Guid) :
    Option (Review Guid) :=
  match r.manager.getBoundInstance data x key with
  | none => some ⟨r.manager, r.temp ++ [x], r.shouldDelete⟩
  | some (place, bind) =>
    if bind.save ≠ h then none
    else if bind.lasts = true then
      some ⟨r.manager.setBind .player x place (some { bind with extendState := bind.extendState.promoted }),
        r.temp, false⟩
    else some ⟨r.manager, r.temp ++ [x], r.shouldDelete⟩

namespace InstanceSaveManager

/-- The first group of the list is unbound until none is left. The list shrinks each time,
so that its length is enough fuel. -/
def unbindGroups (havePlayers : Presence) (h : Handle) (key : MapDifficulty) :
    Nat → InstanceSaveManager Guid → InstanceSaveManager Guid
  | 0, m => m
  | fuel + 1, m =>
    match (m.saves h).bind fun save => (save.list .group).head? with
    | none => m
    | some x => unbindGroups havePlayers h key fuel (m.unbindInstance havePlayers .group x key)

def unbindAll (havePlayers : Presence) (h : Handle) (save : InstanceSave Guid) (r : Review Guid) :
    InstanceSaveManager Guid :=
  unbindGroups havePlayers h save.key (save.list .group).length
    (r.temp.foldl (fun m x => m.unbindInstance havePlayers .player x save.key) r.manager)

def finishReset (m : InstanceSaveManager Guid) (h : Handle) (instanceId : Nat) (shouldDelete : Bool) :
    InstanceSaveManager Guid :=
  if shouldDelete = true then ((m.setSave h none).setId instanceId none).setLock false else m.setLock false

/-- None when an assertion fails. -/
def resetSave (data : MapData) (havePlayers : Presence) (m : InstanceSaveManager Guid) (instanceId : Nat) :
    Option (InstanceSaveManager Guid) :=
  match m.byId instanceId with
  | none => some m
  | some h =>
    match m.saves h with
    | none => none
    | some save =>
      ((save.list .player).foldlM (Review.next data h save.key) ⟨m.setLock true, [], true⟩).map fun r =>
        finishReset (unbindAll havePlayers h save r) h instanceId r.shouldDelete

/-- The reset of a single instance, and the id that is free for reuse then. -/
def resetInstance (data : MapData) (havePlayers : Presence) (m : InstanceSaveManager Guid)
    (mapId instanceId : Nat) : Option (InstanceSaveManager Guid × Option Nat) :=
  if data.instanceable mapId = false then some (m, none)
  else (m.resetSave data havePlayers instanceId).map fun m => (m, some instanceId)

def resetIfOf (data : MapData) (havePlayers : Presence) (key : MapDifficulty) (m : InstanceSaveManager Guid)
    (instanceId : Nat) : Option (InstanceSaveManager Guid) :=
  if ((m.byId instanceId).bind m.saves).any (fun save => decide (save.key = key)) = true then
    m.resetSave data havePlayers instanceId
  else some m

/-- The global reset of a map, over the ids as the hash map lists them. The next reset time
is zero for what is not reset as a whole. -/
def resetOrWarnAll (data : MapData) (havePlayers : Presence) (m : InstanceSaveManager Guid)
    (key : MapDifficulty) (warn : Bool) (nextReset : Nat) (ids : List Nat) : Option (InstanceSaveManager Guid) :=
  if data.instanceable key.1 = false then some m
  else if warn = true then some m
  else if nextReset = 0 then some m
  else ids.foldlM (resetIfOf data havePlayers key) m

end InstanceSaveManager

/-! ## Requests -/

inductive Command (Guid : Type) where
  | add (mapId instanceId difficulty : Nat)
  | bindPlayer (player : Guid) (instanceId : Nat) (permanent : Bool) (extendState : BindExtensionState)
  | bindGroup (group : Guid) (instanceId : Nat) (permanent : Bool)
  | unbindPlayer (player : Guid) (key : MapDifficulty)
  | unbindGroup (group : Guid) (key : MapDifficulty)
  | unload (instanceId : Nat)
  | resetOrWarnAll (key : MapDifficulty) (warn : Bool) (nextReset : Nat) (ids : List Nat)
  | resetInstance (mapId instanceId : Nat)

structure Request (Guid : Type) where
  havePlayers : Presence
  command : Command Guid

namespace InstanceSaveManager

/-- The state after a request and the id it has released, unless an assertion fails. -/
def perform (data : MapData) (m : InstanceSaveManager Guid) (r : Request Guid) :
    Option (InstanceSaveManager Guid × Option Nat) :=
  match r.command with
  | .add mapId instanceId difficulty => some (m.addInstanceSave data mapId instanceId difficulty, none)
  | .bindPlayer player instanceId permanent extendState =>
    some (m.bindToInstance r.havePlayers .player player instanceId permanent extendState, none)
  | .bindGroup group instanceId permanent =>
    some (m.bindToInstance r.havePlayers .group group instanceId permanent .normal, none)
  | .unbindPlayer player key => some (m.unbindInstance r.havePlayers .player player key, none)
  | .unbindGroup group key => some (m.unbindInstance r.havePlayers .group group key, none)
  | .unload instanceId => some (m.unloadInstanceSave r.havePlayers instanceId, none)
  | .resetOrWarnAll key warn nextReset ids =>
    (m.resetOrWarnAll data r.havePlayers key warn nextReset ids).map fun m => (m, none)
  | .resetInstance mapId instanceId => m.resetInstance data r.havePlayers mapId instanceId

/-- A failed assertion ends the process; nothing else happens after it, so going on from the
state before it only adds runs. -/
def step (data : MapData) (m : InstanceSaveManager Guid) (r : Request Guid) : InstanceSaveManager Guid :=
  ((m.perform data r).map Prod.fst).getD m

def freedId (data : MapData) (m : InstanceSaveManager Guid) (r : Request Guid) : Option Nat :=
  (m.perform data r).bind Prod.snd

def empty : InstanceSaveManager Guid := ⟨fun _ => none, 0, fun _ => none, false, fun _ _ _ => none⟩

end InstanceSaveManager

end AshamaneCore.InstanceBinds
