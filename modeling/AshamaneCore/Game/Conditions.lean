import AshamaneCore.Library.GroupedMeets
import Mathlib.Data.Rat.Defs
import Mathlib.Algebra.Order.Ring.Rat

/-!
# Conditions

A list of conditions is met when all conditions of one of its else groups are.
The type mask of the list says which grid objects are worth asking. A failed
ASSERT is none, and so is a list of references nested deeper than allowed for.
-/

namespace AshamaneCore.Conditions

open Library Library.GroupedMeets

/-! ## Objects -/

inductive GridType
  | corpse
  | creature
  | dynamicObject
  | gameObject
  | player
  | areaTrigger
  | sceneObject
  | conversation
  deriving DecidableEq

namespace GridType

def typeId : GridType → UInt32
  | .creature => 3
  | .player => 4
  | .gameObject => 5
  | .dynamicObject => 6
  | .corpse => 7
  | .areaTrigger => 8
  | .sceneObject => 9
  | .conversation => 10

end GridType

def typemaskObject : UInt32 := 0x0001
def typemaskUnit : UInt32 := 0x0008
def typemaskPlayer : UInt32 := 0x0010
def typemaskGameObject : UInt32 := 0x0020
def typemaskDynamicObject : UInt32 := 0x0040
def typemaskCorpse : UInt32 := 0x0080
def typemaskAreaTrigger : UInt32 := 0x0100
def typemaskSceneObject : UInt32 := 0x0200
def typemaskConversation : UInt32 := 0x0400

def GridType.objectType : GridType → UInt32
  | .creature => typemaskObject ||| typemaskUnit
  | .player => typemaskObject ||| typemaskUnit ||| typemaskPlayer
  | .gameObject => typemaskObject ||| typemaskGameObject
  | .dynamicObject => typemaskObject ||| typemaskDynamicObject
  | .corpse => typemaskObject ||| typemaskCorpse
  | .areaTrigger => typemaskObject ||| typemaskAreaTrigger
  | .sceneObject => typemaskObject ||| typemaskSceneObject
  | .conversation => typemaskObject ||| typemaskConversation

inductive QuestStatus
  | none
  | complete
  | incomplete
  | failed
  | rewarded
  deriving DecidableEq

/-- What conditions ask a unit. Other units are known by their guids. -/
structure UnitData where
  hasAuraEffect : UInt32 → UInt32 → Bool := fun _ _ => false
  classMask : UInt32 := 0
  raceMask : UInt32 := 0
  level : Nat := 1
  isAlive : Bool := true
  health : Nat := 1
  healthPct : Rat := 100
  hasUnitState : UInt32 → Bool := fun _ => false
  isInWater : Bool := false
  standState : UInt32 := 0
  isStandState : Bool := true
  isSitState : Bool := false
  isCharmed : Bool := false
  isInPartyWith : Nat → Bool := fun _ => false
  isInRaidWith : Nat → Bool := fun _ => false
  isOnVehicle : Nat → Bool := fun _ => false
  ownerGuid : Nat := 0
  creatorGuid : Nat := 0
  reactionTo : Nat → Nat := fun _ => 0

structure PlayerData where
  hasItemCount : UInt32 → UInt32 → Bool → Bool := fun _ _ _ => false
  hasItemOrGemWithIdEquipped : UInt32 → Bool := fun _ => false
  reputationRank : UInt32 → Nat := fun _ => 0
  hasAchieved : UInt32 → Bool := fun _ => false
  team : UInt32 := 0
  gender : UInt32 := 0
  hasSkill : UInt32 → Bool := fun _ => false
  baseSkillValue : UInt32 → Nat := fun _ => 0
  questStatus : UInt32 → QuestStatus := fun _ => .none
  questRewardStatus : UInt32 → Bool := fun _ => false
  hasSpell : UInt32 → Bool := fun _ => false
  drunkenState : Nat := 0
  hasTitle : UInt32 → Bool := fun _ => false
  isDailyQuestDone : UInt32 → Bool := fun _ => false
  petType : Option Nat := none
  isInFlight : Bool := false
  isQuestObjectiveComplete : UInt32 → Bool := fun _ => false

structure InstanceScript where
  getData : UInt32 → UInt32
  getBossState : UInt32 → UInt32
  getData64 : UInt32 → Nat

structure MapData where
  isDungeon : Bool := false
  instanceScript : Option InstanceScript := none
  spawnMode : Nat := 0

/-- The data of a unit, a player or a creature is only asked of such an object. -/
structure WorldObject where
  gridType : GridType
  guid : Nat
  entry : UInt32 := 0
  spawnId : UInt32 := 0
  zoneId : UInt32 := 0
  areaId : UInt32 := 0
  mapId : UInt32 := 0
  map : MapData := {}
  hasPhase : UInt32 → Bool := fun _ => false
  hasVisibleMapId : UInt32 → Bool := fun _ => false
  findNearestCreature : UInt32 → UInt32 → Bool → Bool := fun _ _ _ => false
  findNearestGameObject : UInt32 → UInt32 → Bool := fun _ _ => false
  distanceTo : Nat → Rat := fun _ => 0
  unitData : UnitData := {}
  playerData : PlayerData := {}
  creatureType : UInt32 := 0

namespace WorldObject

variable (object : WorldObject)

def isType (mask : UInt32) : Bool := mask &&& object.gridType.objectType ≠ 0

def toUnit : Option UnitData := if object.isType typemaskUnit then some object.unitData else none

def toPlayer : Option PlayerData := if object.gridType = .player then some object.playerData else none

def toCreature : Option WorldObject := if object.gridType = .creature then some object else none

end WorldObject

/-! ## Conditions -/

inductive ConditionType
  | none
  | aura
  | item
  | itemEquipped
  | zoneid
  | reputationRank
  | team
  | skill
  | questrewarded
  | questtaken
  | drunkenstate
  | worldState
  | activeEvent
  | instanceInfo
  | questNone
  | unitClass
  | race
  | achievement
  | title
  | spawnmask
  | gender
  | unitState
  | mapid
  | areaid
  | creatureType
  | spell
  | phaseid
  | level
  | questComplete
  | nearCreature
  | nearGameobject
  | objectEntryGuid
  | typeMask
  | relationTo
  | reactionTo
  | distanceTo
  | alive
  | hpVal
  | hpPct
  | realmAchievement
  | inWater
  | terrainSwap
  | standState
  | dailyQuestDone
  | charmed
  | petType
  | taxi
  | queststate
  | questObjectiveComplete
  deriving DecidableEq

structure Condition where
  elseGroup : UInt32 := 0
  conditionType : ConditionType := .none
  conditionValue1 : UInt32 := 0
  conditionValue2 : UInt32 := 0
  conditionValue3 : UInt32 := 0
  referenceId : UInt32 := 0
  conditionTarget : Nat := 0
  negativeCondition : Bool := false
  deriving DecidableEq

structure Game where
  isFaction : UInt32 → Bool := fun _ => false
  isActiveEvent : UInt32 → Bool := fun _ => false
  worldState : UInt32 → UInt32 := fun _ => 0
  isAchievement : UInt32 → Bool := fun _ => false
  isRealmCompleted : UInt32 → Bool := fun _ => false
  questObjective : UInt32 → Option UInt32 := fun _ => none
  onConditionCheck : Condition → (Nat → Option WorldObject) → Bool := fun _ _ => true

def conditionSourceInfo (target0 target1 : Option WorldObject) : Nat → Option WorldObject
  | 0 => target0
  | 1 => target1
  | _ => none

def maxConditionTargets : Nat := 3

def compareValues {α : Type} [LinearOrder α] (type : UInt32) (val1 val2 : α) : Option Bool :=
  if type = 0 then some (decide (val1 = val2))
  else if type = 1 then some (decide (val2 < val1))
  else if type = 2 then some (decide (val1 < val2))
  else if type = 3 then some (decide (val2 ≤ val1))
  else if type = 4 then some (decide (val1 ≤ val2))
  else none

namespace Condition

variable (c : Condition)

def isLoaded : Bool := c.conditionType ≠ .none ∨ c.referenceId ≠ 0

def instanceInfo (script : InstanceScript) : Bool :=
  if c.conditionValue3 = 0 then script.getData c.conditionValue1 = c.conditionValue2
  else if c.conditionValue3 = 2 then script.getBossState c.conditionValue1 = c.conditionValue2
  else if c.conditionValue3 = 3 then script.getData64 c.conditionValue1 = c.conditionValue2.toNat
  else false

def objectEntryGuid (object : WorldObject) : Bool :=
  object.gridType.typeId = c.conditionValue1 ∧ (c.conditionValue2 = 0 ∨ object.entry = c.conditionValue2) ∧
    (c.conditionValue3 = 0 ∨ object.gridType ≠ .creature ∧ object.gridType ≠ .gameObject ∨
      object.spawnId = c.conditionValue3)

def relationTo (object toObject : WorldObject) (unit : UnitData) : Bool :=
  if c.conditionValue2 = 0 then object.guid = toObject.guid
  else if c.conditionValue2 = 1 then unit.isInPartyWith toObject.guid
  else if c.conditionValue2 = 2 then unit.isInRaidWith toObject.guid
  else if c.conditionValue2 = 3 then unit.ownerGuid = toObject.guid
  else if c.conditionValue2 = 4 then unit.isOnVehicle toObject.guid
  else if c.conditionValue2 = 5 then unit.creatorGuid = toObject.guid
  else false

def standState (unit : UnitData) : Bool :=
  if c.conditionValue1 = 0 then unit.standState = c.conditionValue2
  else if c.conditionValue2 = 0 then unit.isStandState
  else if c.conditionValue2 = 1 then unit.isSitState
  else false

def queststate (player : PlayerData) : Bool :=
  c.conditionValue2.toNat.testBit 0 && player.questStatus c.conditionValue1 = .none ||
  c.conditionValue2.toNat.testBit 1 && player.questStatus c.conditionValue1 = .complete ||
  c.conditionValue2.toNat.testBit 3 && player.questStatus c.conditionValue1 = .incomplete ||
  c.conditionValue2.toNat.testBit 5 && player.questStatus c.conditionValue1 = .failed ||
  c.conditionValue2.toNat.testBit 6 && player.questRewardStatus c.conditionValue1

def ofUnit (object : WorldObject) (ask : UnitData → Option Bool) : Option Bool :=
  match object.toUnit with
  | some unit => ask unit
  | none => some false

def ofPlayer (object : WorldObject) (ask : PlayerData → Option Bool) : Option Bool :=
  match object.toPlayer with
  | some player => ask player
  | none => some false

def ofUnits (object : WorldObject) (toObject : Option WorldObject) (ask : WorldObject → UnitData → Bool) : Option Bool :=
  match toObject with
  | some toObject => if toObject.toUnit.isSome then ofUnit object fun unit => some (ask toObject unit) else some false
  | none => some false

def check (game : Game) (targets : Nat → Option WorldObject) (object : WorldObject) : Option Bool :=
  match c.conditionType with
  | .none => some true
  | .aura => ofUnit object fun unit => some (unit.hasAuraEffect c.conditionValue1 c.conditionValue2)
  | .item => ofPlayer object fun player =>
      if c.conditionValue2 = 0 then none
      else some (player.hasItemCount c.conditionValue1 c.conditionValue2 (c.conditionValue3 ≠ 0))
  | .itemEquipped => ofPlayer object fun player => some (player.hasItemOrGemWithIdEquipped c.conditionValue1)
  | .zoneid => some (object.zoneId = c.conditionValue1)
  | .reputationRank => ofPlayer object fun player => some (game.isFaction c.conditionValue1 &&
      c.conditionValue2.toNat.testBit (player.reputationRank c.conditionValue1))
  | .achievement => ofPlayer object fun player => some (player.hasAchieved c.conditionValue1)
  | .team => ofPlayer object fun player => some (player.team = c.conditionValue1)
  | .unitClass => ofUnit object fun unit => some (unit.classMask &&& c.conditionValue1 ≠ 0)
  | .race => ofUnit object fun unit => some (unit.raceMask &&& c.conditionValue1 ≠ 0)
  | .gender => ofPlayer object fun player => some (player.gender = c.conditionValue1)
  | .skill => ofPlayer object fun player => some (player.hasSkill c.conditionValue1 &&
      c.conditionValue2.toNat ≤ player.baseSkillValue c.conditionValue1)
  | .questrewarded => ofPlayer object fun player => some (player.questRewardStatus c.conditionValue1)
  | .questtaken => ofPlayer object fun player => some (player.questStatus c.conditionValue1 = .incomplete)
  | .questComplete => ofPlayer object fun player => some (player.questStatus c.conditionValue1 = .complete &&
      !player.questRewardStatus c.conditionValue1)
  | .questNone => ofPlayer object fun player => some (player.questStatus c.conditionValue1 = .none)
  | .activeEvent => some (game.isActiveEvent c.conditionValue1)
  | .instanceInfo => some (object.map.isDungeon && object.map.instanceScript.any c.instanceInfo)
  | .mapid => some (object.mapId = c.conditionValue1)
  | .areaid => some (object.areaId = c.conditionValue1)
  | .spell => ofPlayer object fun player => some (player.hasSpell c.conditionValue1)
  | .level => ofUnit object fun unit => compareValues c.conditionValue2 unit.level c.conditionValue1.toNat
  | .drunkenstate => ofPlayer object fun player => some (c.conditionValue1.toNat ≤ player.drunkenState)
  | .nearCreature => some (object.findNearestCreature c.conditionValue1 c.conditionValue2 (c.conditionValue3 = 0))
  | .nearGameobject => some (object.findNearestGameObject c.conditionValue1 c.conditionValue2)
  | .objectEntryGuid => some (c.objectEntryGuid object)
  | .typeMask => some (object.isType c.conditionValue1)
  | .relationTo => ofUnits object (targets c.conditionValue1.toNat) fun toObject unit =>
      c.relationTo object toObject unit
  | .reactionTo => ofUnits object (targets c.conditionValue1.toNat) fun toObject unit =>
      c.conditionValue2.toNat.testBit (unit.reactionTo toObject.guid)
  | .distanceTo =>
      match targets c.conditionValue1.toNat with
      | some toObject =>
        compareValues c.conditionValue3 (object.distanceTo toObject.guid) (c.conditionValue2.toNat : Rat)
      | none => some false
  | .alive => ofUnit object fun unit => some unit.isAlive
  | .hpVal => ofUnit object fun unit => compareValues c.conditionValue2 unit.health c.conditionValue1.toNat
  | .hpPct => ofUnit object fun unit =>
      compareValues c.conditionValue2 unit.healthPct (c.conditionValue1.toNat : Rat)
  | .worldState => some (c.conditionValue2 = game.worldState c.conditionValue1)
  | .phaseid => some (object.hasPhase c.conditionValue1)
  | .title => ofPlayer object fun player => some (player.hasTitle c.conditionValue1)
  | .spawnmask => some (c.conditionValue1.toNat.testBit object.map.spawnMode)
  | .unitState => ofUnit object fun unit => some (unit.hasUnitState c.conditionValue1)
  | .creatureType => some (object.toCreature.any fun creature => creature.creatureType = c.conditionValue1)
  | .realmAchievement => some (game.isAchievement c.conditionValue1 && game.isRealmCompleted c.conditionValue1)
  | .inWater => ofUnit object fun unit => some unit.isInWater
  | .terrainSwap => some (object.hasVisibleMapId c.conditionValue1)
  | .standState => ofUnit object fun unit => some (c.standState unit)
  | .dailyQuestDone => ofPlayer object fun player => some (player.isDailyQuestDone c.conditionValue1)
  | .charmed => ofUnit object fun unit => some unit.isCharmed
  | .petType => ofPlayer object fun player => some (player.petType.any fun pet => c.conditionValue1.toNat.testBit pet)
  | .taxi => ofPlayer object fun player => some player.isInFlight
  | .queststate => ofPlayer object fun player => some (c.queststate player)
  | .questObjectiveComplete => ofPlayer object fun player => some ((game.questObjective c.conditionValue1).any
      fun questId => !player.questRewardStatus questId && player.isQuestObjectiveComplete c.conditionValue1)

def meets (game : Game) (targets : Nat → Option WorldObject) : Option Bool :=
  if c.conditionTarget < maxConditionTargets then
    match targets c.conditionTarget with
    | some object => (c.check game targets object).map fun condMeets =>
        (if c.negativeCondition then !condMeets else condMeets) && game.onConditionCheck c targets
    | none => some false
  else none

/-! ## Type masks -/

end Condition

/-! ## Lists of conditions -/

abbrev ConditionReferenceStore : Type := UInt32 → Option (List Condition)

def checkPassed : Combine Bool := ⟨true, and, not⟩

def elseGroup (c : Condition) : Nat := c.elseGroup.toNat

section

variable (store : ConditionReferenceStore)

/-- References may be nested to the given depth. A reference that is not found is skipped. -/
def isObjectMeetToConditionList (game : Game) (targets : Nat → Option WorldObject) :
    Nat → List Condition → Option Bool
  | 0, _ => none
  | depth + 1, conditions =>
    (collect checkPassed elseGroup (fun c =>
      if c.referenceId ≠ 0 then
        match store c.referenceId with
        | some reference => isObjectMeetToConditionList game targets depth reference
        | none => some true
      else c.meets game targets) (conditions.filter Condition.isLoaded)).map
        fun groups => groups.entries.any Group.value

def isObjectMeetToConditions (game : Game) (targets : Nat → Option WorldObject) (depth : Nat)
    (conditions : List Condition) : Option Bool :=
  if conditions.isEmpty then some true else isObjectMeetToConditionList store game targets depth conditions

end

end AshamaneCore.Conditions
