import AshamaneCore.Game.Conditions
import AshamaneCore.Library.Bits

/-!
# Type masks of conditions

The mask of one condition names the types of objects that can meet it when the
condition looks at them. The mask of a list takes every condition so, also one
that looks at another target.
-/

namespace AshamaneCore.Conditions

open Library Library.GroupedMeets

/-! ## Bits of a mask -/

def GridType.bit : GridType → Nat
  | .corpse => 0
  | .creature => 1
  | .dynamicObject => 2
  | .gameObject => 3
  | .player => 4
  | .areaTrigger => 5
  | .sceneObject => 6
  | .conversation => 7

inductive Audience
  | everyone
  | units
  | players
  | creatures
  | ofTypeId (typeId : UInt32)
  | ofTypeMask (mask : UInt32)
  deriving DecidableEq

def Audience.includes (k : GridType) : Audience → Bool
  | .everyone => true
  | .units => k = .creature ∨ k = .player
  | .players => k = .player
  | .creatures => k = .creature
  | .ofTypeId typeId => k.typeId = typeId
  | .ofTypeMask mask => mask &&& k.objectType ≠ 0

namespace Condition

variable (c : Condition)

def audience : Audience :=
  match c.conditionType with
  | .none => .everyone
  | .aura => .units
  | .item => .players
  | .itemEquipped => .players
  | .zoneid => .everyone
  | .reputationRank => .players
  | .team => .players
  | .skill => .players
  | .questrewarded => .players
  | .questtaken => .players
  | .drunkenstate => .players
  | .worldState => .everyone
  | .activeEvent => .everyone
  | .instanceInfo => .everyone
  | .questNone => .players
  | .unitClass => .units
  | .race => .units
  | .achievement => .players
  | .title => .players
  | .spawnmask => .everyone
  | .gender => .players
  | .unitState => .units
  | .mapid => .everyone
  | .areaid => .everyone
  | .creatureType => .creatures
  | .spell => .players
  | .phaseid => .everyone
  | .level => .units
  | .questComplete => .players
  | .nearCreature => .everyone
  | .nearGameobject => .everyone
  | .objectEntryGuid => .ofTypeId c.conditionValue1
  | .typeMask => .ofTypeMask c.conditionValue1
  | .relationTo => .units
  | .reactionTo => .units
  | .distanceTo => .everyone
  | .alive => .units
  | .hpVal => .units
  | .hpPct => .units
  | .realmAchievement => .everyone
  | .inWater => .units
  | .terrainSwap => .everyone
  | .standState => .units
  | .dailyQuestDone => .players
  | .charmed => .units
  | .petType => .players
  | .taxi => .players
  | .queststate => .players
  | .questObjectiveComplete => .players

/-- Types and entries are asked of units, players, game objects and corpses only. -/
structure Restricted : Prop where
  typeMask : c.conditionType = .typeMask →
    c.conditionValue1 &&& ~~~(typemaskUnit ||| typemaskPlayer ||| typemaskGameObject ||| typemaskCorpse) = 0
  objectEntryGuid : c.conditionType = .objectEntryGuid → c.conditionValue1 = GridType.creature.typeId ∨
    c.conditionValue1 = GridType.player.typeId ∨ c.conditionValue1 = GridType.gameObject.typeId ∨
    c.conditionValue1 = GridType.corpse.typeId

/-- The condition is negated, or an object of that type may meet it. -/
def Admits (k : GridType) : Bool := c.negativeCondition || c.audience.includes k

end Condition

/-! ## Masks of single conditions -/

namespace Condition

variable {c : Condition} {game : Game} {targets : Nat → Option WorldObject} {object : WorldObject}

/-! ## The mask and the audience -/

end Condition

/-! ## Masks of lists -/

def passedTest : Test checkPassed where
  test passed := passed
  top := rfl
  meet _ _ := rfl
  exhausted passed h := by
    cases passed with
    | false => rfl
    | true => cases h

/-- A list admits a type when all conditions of one else group do. -/
inductive Admits (store : ConditionReferenceStore) (k : GridType) : List Condition → Prop
  | empty : Admits store k []
  | group {conditions : List Condition} (g : Nat) (used : ∃ c ∈ conditions, elseGroup c = g)
      (own : ∀ c ∈ conditions, elseGroup c = g → c.referenceId = 0 → c.Admits k = true)
      (references : ∀ c ∈ conditions, elseGroup c = g → c.referenceId ≠ 0 →
        ∀ reference, store c.referenceId = some reference → Admits store k reference) : Admits store k conditions

structure Condition.Loaded (c : Condition) (store : ConditionReferenceStore) : Prop where
  isLoaded : c.isLoaded = true
  restricted : c.Restricted
  reference : c.referenceId ≠ 0 → (store c.referenceId).isSome

structure LoadedReferences where
  store : ConditionReferenceStore
  rank : UInt32 → Nat
  loaded : ∀ id conditions, store id = some conditions → ∀ c ∈ conditions, c.Loaded store
  acyclic : ∀ id conditions, store id = some conditions → ∀ c ∈ conditions, c.referenceId ≠ 0 →
    rank c.referenceId < rank id

theorem exists_rank (references : LoadedReferences) (conditions : List Condition) :
    ∃ n, ∀ c ∈ conditions, c.referenceId ≠ 0 → references.rank c.referenceId < n := by
  induction conditions with
  | nil => exact ⟨0, fun _ hc => absurd hc List.not_mem_nil⟩
  | cons first conditions ih =>
    obtain ⟨n, hn⟩ := ih
    refine ⟨max n (references.rank first.referenceId + 1), fun c hc hNe => ?_⟩
    rcases List.mem_cons.mp hc with rfl | hc
    · omega
    · have hLess := hn c hc hNe
      omega

/-! ## Accepted objects -/

def Accepts (store : ConditionReferenceStore) (game : Game) (object : WorldObject) (other : Option WorldObject)
    (conditions : List Condition) : Prop :=
  ∃ depth, isObjectMeetToConditions store game (conditionSourceInfo (some object) other) depth conditions = some true

end AshamaneCore.Conditions
