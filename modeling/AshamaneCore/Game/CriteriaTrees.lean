import Mathlib.Algebra.Ring.Nat
import Mathlib.Data.Int.Order.Basic
import Mathlib.Logic.Function.Basic

/-!
# Trees of criteria

A tree of criteria is completed by the counters of its criteria: operators take one
criterion, all children, any children, or sums over the whole sub-tree. Amounts are signed
and are widened to the unsigned 64 bits of the counters, in which the sums wrap.
-/

namespace AshamaneCore.CriteriaTrees

/-! ## Criteria -/

/-- The types that completion tells apart; all others are never completed. -/
inductive CriteriaType
  | winBg
  | killCreature
  | reachLevel
  | reachGuildLevel
  | reachSkillLevel
  | completeQuestCount
  | completeDailyQuestDaily
  | completeQuestsInZone
  | damageDone
  | healingDone
  | completeDailyQuest
  | fallWithoutDying
  | beSpellTarget
  | beSpellTarget2
  | castSpell
  | castSpell2
  | bgObjectiveCapture
  | honorableKillAtArea
  | honorableKill
  | earnHonorableKill
  | ownItem
  | winRatedArena
  | highestPersonalRating
  | useItem
  | lootItem
  | buyBankSlot
  | gainReputation
  | gainExaltedReputation
  | visitBarberShop
  | equipEpicItem
  | rollNeedOnLoot
  | rollGreedOnLoot
  | hkClass
  | hkRace
  | doEmote
  | equipItem
  | moneyFromQuestReward
  | lootMoney
  | useGameobject
  | specialPvpKill
  | fishInGameobject
  | learnSkilllineSpells
  | winDuel
  | lootType
  | learnSkillLine
  | useLfdToGroupWithPlayers
  | getKillingBlows
  | currency
  | placeGarrisonBuilding
  | ownBattlePetCount
  | appearanceUnlockedBySlot
  | gainParagonReputation
  | earnHonorXp
  | relicTalentUnlocked
  | completeAchievement
  | completeQuest
  | learnSpell
  | exploreArea
  | recruitGarrisonFollower
  | ownBattlePet
  | honorLevelReached
  | prestigeReached
  | transmogSetUnlocked
  | learnSkillLevel
  | earnAchievementPoints
  | winArena
  | onLogin
  | other
  deriving DecidableEq

inductive CompletionRule
  | reachesAmount
  | once
  | skillSteps
  | achievementPoints
  | reachesSomeAmount
  | always
  | never

def CriteriaType.completionRule : CriteriaType → CompletionRule
  | .completeAchievement => .once
  | .completeQuest => .once
  | .learnSpell => .once
  | .exploreArea => .once
  | .recruitGarrisonFollower => .once
  | .ownBattlePet => .once
  | .honorLevelReached => .once
  | .prestigeReached => .once
  | .transmogSetUnlocked => .once
  | .learnSkillLevel => .skillSteps
  | .earnAchievementPoints => .achievementPoints
  | .winArena => .reachesSomeAmount
  | .onLogin => .always
  | .other => .never
  | _ => .reachesAmount

structure Criteria where
  id : Nat
  type : CriteriaType
  startTimer : Nat
  deriving DecidableEq

def Criteria.isTimed (criteria : Criteria) : Bool := criteria.startTimer ≠ 0

def CompletionRule.holds (requiredAmount counter : UInt64) : CompletionRule → Bool
  | .reachesAmount => requiredAmount ≤ counter
  | .once => 1 ≤ counter
  | .skillSteps => requiredAmount * 75 ≤ counter
  | .achievementPoints => 9000 ≤ counter
  | .reachesSomeAmount => requiredAmount ≠ 0 && requiredAmount ≤ counter
  | .always => true
  | .never => false

/-! ## Trees -/

inductive CriteriaTreeOperator
  | single
  | singleNotCompleted
  | all
  | sumChildren
  | maxChild
  | countDirectChildren
  | any
  | sumChildrenWeight
  | unused
  deriving DecidableEq

structure CriteriaTreeEntry where
  id : Nat
  amount : Int32
  operator : CriteriaTreeOperator

/-- The amount in the type of the counters; a negative one becomes a large one. -/
def CriteriaTreeEntry.requiredCount (entry : CriteriaTreeEntry) : UInt64 := entry.amount.toInt64.toUInt64

inductive CriteriaTree where
  | node (entry : CriteriaTreeEntry) (criteria : Option Criteria) (children : List CriteriaTree)

namespace CriteriaTree

def entry : CriteriaTree → CriteriaTreeEntry
  | node entry _ _ => entry

def criteria : CriteriaTree → Option Criteria
  | node _ criteria _ => criteria

end CriteriaTree

mutual

def walkCriteriaTree : CriteriaTree → List CriteriaTree
  | .node entry criteria children => walkChildren children ++ [.node entry criteria children]

def walkChildren : List CriteriaTree → List CriteriaTree
  | [] => []
  | node :: rest => walkCriteriaTree node ++ walkChildren rest

end

/-! ## Completion -/

structure CriteriaProgress where
  counter : UInt64
  date : Int
  playerGuid : Nat
  changed : Bool

structure CriteriaHandler where
  criteriaProgress : Nat → Option CriteriaProgress
  timeCriteriaTrees : Nat → Option Nat

/-- What a handler is told: which trees its own rules let complete, and the trees of a criterion. -/
structure CriteriaMgr where
  canCompleteCriteriaTree : CriteriaTree → Bool
  criteriaTreesByCriteria : Nat → Option (List CriteriaTree)

namespace CriteriaHandler

variable (mgr : CriteriaMgr) (h : CriteriaHandler)

/-- The counter of a node, if it has a criterion and that has progress. -/
def counterOf (tree : CriteriaTree) : Option UInt64 :=
  tree.criteria.bind fun criteria => (h.criteriaProgress criteria.id).map CriteriaProgress.counter

def isCompletedCriteria (criteria : Criteria) (requiredAmount : UInt64) : Bool :=
  match h.criteriaProgress criteria.id with
  | none => false
  | some progress => criteria.type.completionRule.holds requiredAmount progress.counter

def sumCounters (nodes : List CriteriaTree) : UInt64 :=
  nodes.foldl (fun progress node => progress + (h.counterOf node).getD 0) 0

def maxCounter (nodes : List CriteriaTree) : UInt64 :=
  nodes.foldl (fun progress node => if progress < (h.counterOf node).getD 0 then (h.counterOf node).getD 0
    else progress) 0

def sumWeightedCounters (nodes : List CriteriaTree) : UInt64 :=
  nodes.foldl (fun progress node => progress + (h.counterOf node).getD 0 * node.entry.requiredCount) 0

def countDirectChildren (requiredCount : UInt64) : UInt64 → List CriteriaTree → Bool
  | _, [] => false
  | progress, node :: rest =>
    if 1 ≤ (h.counterOf node).getD 0 then
      requiredCount ≤ progress + 1 || countDirectChildren requiredCount (progress + 1) rest
    else countDirectChildren requiredCount progress rest

mutual

def isCompletedCriteriaTree : CriteriaTree → Bool
  | .node entry criteria children =>
    mgr.canCompleteCriteriaTree (.node entry criteria children) &&
    match entry.operator with
    | .single => criteria.any fun criteria => h.isCompletedCriteria criteria entry.requiredCount
    | .singleNotCompleted => criteria.all fun criteria => !h.isCompletedCriteria criteria entry.requiredCount
    | .all => allCompleted children
    | .sumChildren => entry.requiredCount ≤ h.sumCounters (walkCriteriaTree (.node entry criteria children))
    | .maxChild => entry.requiredCount ≤ h.maxCounter (walkCriteriaTree (.node entry criteria children))
    | .countDirectChildren => h.countDirectChildren entry.requiredCount 0 children
    | .any => anyCompleted entry.requiredCount 0 children
    | .sumChildrenWeight =>
      entry.requiredCount ≤ h.sumWeightedCounters (walkCriteriaTree (.node entry criteria children))
    | .unused => false

def allCompleted : List CriteriaTree → Bool
  | [] => true
  | node :: rest => isCompletedCriteriaTree node && allCompleted rest

def anyCompleted (requiredCount : UInt64) : UInt64 → List CriteriaTree → Bool
  | _, [] => false
  | progress, node :: rest =>
    if isCompletedCriteriaTree node then
      requiredCount ≤ progress + 1 || anyCompleted requiredCount (progress + 1) rest
    else anyCompleted requiredCount progress rest

end

end CriteriaHandler

/-! ## Progress -/

inductive ProgressType
  | set
  | accumulate
  | highest
  deriving DecidableEq

structure ProgressUpdate where
  criteria : Criteria
  changeValue : UInt64
  referencePlayer : Nat
  progressType : ProgressType
  time : Int

def ProgressUpdate.newValue (update : ProgressUpdate) (counter : UInt64) : UInt64 :=
  match update.progressType with
  | .set => update.changeValue
  | .accumulate =>
    if update.changeValue < 0xFFFFFFFFFFFFFFFF - counter then counter + update.changeValue
    else 0xFFFFFFFFFFFFFFFF
  | .highest => if counter < update.changeValue then update.changeValue else counter

namespace CriteriaHandler

variable (mgr : CriteriaMgr) (h : CriteriaHandler)

def writeProgress (update : ProgressUpdate) (counter : UInt64) : CriteriaHandler :=
  ⟨Function.update h.criteriaProgress update.criteria.id
    (some ⟨counter, update.time, update.referencePlayer, true⟩), h.timeCriteriaTrees⟩

def stopTimer (tree : CriteriaTree) : CriteriaHandler :=
  if (h.timeCriteriaTrees tree.entry.id).isSome ∧ h.isCompletedCriteriaTree mgr tree = true then
    { h with timeCriteriaTrees := Function.update h.timeCriteriaTrees tree.entry.id none }
  else h

def recordProgress (update : ProgressUpdate) (counter : UInt64) : CriteriaHandler :=
  if update.criteria.isTimed then
    ((mgr.criteriaTreesByCriteria update.criteria.id).getD []).foldl (stopTimer mgr)
      (h.writeProgress update counter)
  else h.writeProgress update counter

def hasTreeForTimed (criteria : Criteria) : Bool :=
  ((mgr.criteriaTreesByCriteria criteria.id).getD []).any fun tree => (h.timeCriteriaTrees tree.entry.id).isSome

/-- Timed criteria need a running timer, and a counter that stays the same is not written. -/
def setCriteriaProgress (update : ProgressUpdate) : CriteriaHandler :=
  if update.criteria.isTimed && !h.hasTreeForTimed mgr update.criteria then h
  else
    match h.criteriaProgress update.criteria.id with
    | none =>
      if update.changeValue = 0 && !update.criteria.isTimed then h
      else h.recordProgress mgr update update.changeValue
    | some progress =>
      if progress.counter = update.newValue progress.counter && !update.criteria.isTimed then h
      else h.recordProgress mgr update (update.newValue progress.counter)

end CriteriaHandler

end AshamaneCore.CriteriaTrees
