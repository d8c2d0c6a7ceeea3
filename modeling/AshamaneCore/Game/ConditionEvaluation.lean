import AshamaneCore.Game.ConditionMasks
import AshamaneCore.Library.BoundedRecursion
import Mathlib.Data.Set.Finite.Range

/-!
# Rows of conditions

The rows of the table are accepted one by one. A row whose type is a negative number
refers to a template, and one whose source type is a negative number belongs to a template.
-/

namespace AshamaneCore.Conditions

open Library

/-! ## Values -/

structure ConditionStores where
  isSpell : UInt32 → Bool := fun _ => true
  isItem : UInt32 → Bool := fun _ => true
  parentAreaId : UInt32 → Option UInt32 := fun _ => some 0
  isFaction : UInt32 → Bool := fun _ => true
  isSkill : UInt32 → Bool := fun _ => true
  maxSkillValue : UInt32 := 800
  isQuest : UInt32 → Bool := fun _ => true
  isValidEvent : UInt32 → Bool := fun _ => true
  isAchievement : UInt32 → Bool := fun _ => true
  isMap : UInt32 → Bool := fun _ => true
  isCreature : UInt32 → Bool := fun _ => true
  isGameObject : UInt32 → Bool := fun _ => true
  creatureData : UInt32 → Option UInt32 := fun _ => none
  gameObjectData : UInt32 → Option UInt32 := fun _ => none
  worldState : UInt32 → UInt32 := fun _ => 0
  isPhase : UInt32 → Bool := fun _ => true
  isTitle : UInt32 → Bool := fun _ => true
  isQuestObjective : UInt32 → Bool := fun _ => true

def alliance : UInt32 := 469
def horde : UInt32 := 67
def classmaskAllPlayable : UInt32 := 0xFFF
def racemaskAllPlayable : UInt32 := 0x27A007FF
def unitStateAllStateSupported : UInt32 := 0x1FF7FFBB
def compTypeMax : UInt32 := 5
def relationMax : UInt32 := 6

namespace Condition

variable (stores : ConditionStores) (maxTargets : Nat) (c : Condition)

def isSpawnValid (data : UInt32 → Option UInt32) : Bool :=
  c.conditionValue3 = 0 || (data c.conditionValue3).any fun id => c.conditionValue2 = 0 || id = c.conditionValue2

def isObjectEntryGuidValid : Bool :=
  if c.conditionValue1 = GridType.creature.typeId then
    (c.conditionValue2 = 0 || stores.isCreature c.conditionValue2) && c.isSpawnValid stores.creatureData
  else if c.conditionValue1 = GridType.gameObject.typeId then
    (c.conditionValue2 = 0 || stores.isGameObject c.conditionValue2) && c.isSpawnValid stores.gameObjectData
  else c.conditionValue1 = GridType.player.typeId || c.conditionValue1 = GridType.corpse.typeId

def isOtherTargetValid : Bool :=
  c.conditionValue1.toNat < maxTargets && c.conditionValue1.toNat ≠ c.conditionTarget

def isStandStateValid : Bool :=
  if c.conditionValue1 = 0 then c.conditionValue2 ≤ 9
  else if c.conditionValue1 = 1 then c.conditionValue2 ≤ 1
  else false

def areValuesValid : Bool :=
  match c.conditionType with
  | .none => false
  | .aura => stores.isSpell c.conditionValue1 && c.conditionValue2 ≤ 2
  | .item => stores.isItem c.conditionValue1 && c.conditionValue2 ≠ 0
  | .itemEquipped => stores.isItem c.conditionValue1
  | .zoneid => stores.parentAreaId c.conditionValue1 = some 0
  | .reputationRank => stores.isFaction c.conditionValue1
  | .team => c.conditionValue1 = alliance || c.conditionValue1 = horde
  | .skill => stores.isSkill c.conditionValue1 && 1 ≤ c.conditionValue2 && c.conditionValue2 ≤ stores.maxSkillValue
  | .queststate => c.conditionValue2 < 128 && stores.isQuest c.conditionValue1
  | .questrewarded => stores.isQuest c.conditionValue1
  | .questtaken => stores.isQuest c.conditionValue1
  | .questNone => stores.isQuest c.conditionValue1
  | .questComplete => stores.isQuest c.conditionValue1
  | .dailyQuestDone => stores.isQuest c.conditionValue1
  | .activeEvent => stores.isValidEvent c.conditionValue1
  | .achievement => stores.isAchievement c.conditionValue1
  | .unitClass => c.conditionValue1 &&& classmaskAllPlayable ≠ 0
  | .race => c.conditionValue1 &&& racemaskAllPlayable ≠ 0
  | .gender => c.conditionValue1.toUInt8 ≤ 1
  | .mapid => stores.isMap c.conditionValue1
  | .spell => stores.isSpell c.conditionValue1
  | .level => c.conditionValue2 < compTypeMax
  | .drunkenstate => c.conditionValue1 ≤ 3
  | .nearCreature => stores.isCreature c.conditionValue1
  | .nearGameobject => stores.isGameObject c.conditionValue1
  | .objectEntryGuid => c.isObjectEntryGuidValid stores
  | .typeMask => c.conditionValue1 ≠ 0 && c.conditionValue1 &&&
      ~~~(typemaskUnit ||| typemaskPlayer ||| typemaskGameObject ||| typemaskCorpse) = 0
  | .relationTo => c.isOtherTargetValid maxTargets && c.conditionValue2 < relationMax
  | .reactionTo => c.isOtherTargetValid maxTargets && c.conditionValue2 ≠ 0
  | .distanceTo => c.isOtherTargetValid maxTargets && c.conditionValue3 < compTypeMax
  | .hpVal => c.conditionValue2 < compTypeMax
  | .hpPct => c.conditionValue1 ≤ 100 && c.conditionValue2 < compTypeMax
  | .worldState => stores.worldState c.conditionValue1 ≠ 0
  | .phaseid => stores.isPhase c.conditionValue1
  | .title => stores.isTitle c.conditionValue1
  | .spawnmask => c.conditionValue1.toNat < 2 ^ 35
  | .unitState => c.conditionValue1 &&& unitStateAllStateSupported ≠ 0
  | .creatureType => c.conditionValue1 ≠ 0 && c.conditionValue1 ≤ 13
  | .realmAchievement => stores.isAchievement c.conditionValue1
  | .standState => c.isStandStateValid
  | .questObjectiveComplete => stores.isQuestObjective c.conditionValue1
  | .petType => c.conditionValue1 < 16
  | .instanceInfo => true
  | .areaid => true
  | .alive => true
  | .inWater => true
  | .terrainSwap => true
  | .charmed => true
  | .taxi => true

def isConditionTypeValid : Bool := c.areValuesValid stores maxTargets && c.conditionTarget < maxTargets

end Condition

/-! ## Rows -/

def conditionTypes : List ConditionType :=
  [.none, .aura, .item, .itemEquipped, .zoneid, .reputationRank, .team, .skill, .questrewarded, .questtaken,
    .drunkenstate, .worldState, .activeEvent, .instanceInfo, .questNone, .unitClass, .race, .achievement, .title,
    .spawnmask, .gender, .unitState, .mapid, .areaid, .creatureType, .spell, .phaseid, .level, .questComplete,
    .nearCreature, .nearGameobject, .objectEntryGuid, .typeMask, .relationTo, .reactionTo, .distanceTo, .alive,
    .hpVal, .hpPct, .realmAchievement, .inWater, .terrainSwap, .standState, .dailyQuestDone, .charmed, .petType,
    .taxi, .queststate, .questObjectiveComplete]

structure ConditionRow where
  sourceTypeOrReferenceId : Int32
  elseGroup : UInt32
  conditionTypeOrReference : Int32
  conditionTarget : Nat
  conditionValue1 : UInt32
  conditionValue2 : UInt32
  conditionValue3 : UInt32
  negativeCondition : Bool
  deriving DecidableEq

/-- Spells, vehicles, gossip menus, smart events and vendors have a second target. -/
def sourceTypesOfTwoTargets : List Int32 := [17, 13, 16, 21, 18, 14, 15, 22, 23, 24]

namespace ConditionRow

variable (row : ConditionRow)

def maxAvailableConditionTargets : Nat := if row.sourceTypeOrReferenceId ∈ sourceTypesOfTwoTargets then 2 else 1

def isTemplate : Bool := row.sourceTypeOrReferenceId.toInt < 0

def templateId : UInt32 := UInt32.ofNat row.sourceTypeOrReferenceId.toInt.natAbs

def isReference : Bool := row.conditionTypeOrReference.toInt < 0

def toCondition (type : ConditionType) (referenceId : UInt32) : Condition :=
  ⟨row.elseGroup, type, row.conditionValue1, row.conditionValue2, row.conditionValue3, referenceId,
    row.conditionTarget, row.negativeCondition⟩

/-- The condition of a row, unless the row is skipped: a reference must not be to the
template of the row itself, and everything else must have a valid type. -/
def accept (stores : ConditionStores) : Option Condition :=
  if row.isReference then
    if row.conditionTypeOrReference = row.sourceTypeOrReferenceId then none
    else some (row.toCondition .none (UInt32.ofNat row.conditionTypeOrReference.toInt.natAbs))
  else
    match conditionTypes[row.conditionTypeOrReference.toInt.toNat]? with
    | none => none
    | some type =>
      if (row.toCondition type 0).isConditionTypeValid stores row.maxAvailableConditionTargets then
        some (row.toCondition type 0)
      else none

end ConditionRow

def conditionsOf (stores : ConditionStores) (rows : List ConditionRow) : List Condition :=
  rows.filterMap fun row => row.accept stores

def templateRows (rows : List ConditionRow) (id : UInt32) : List ConditionRow :=
  rows.filter fun row => row.isTemplate && row.templateId = id

def conditionReferenceStore (stores : ConditionStores) (rows : List ConditionRow) : ConditionReferenceStore :=
  fun id =>
    if conditionsOf stores (templateRows rows id) = [] then none
    else some (conditionsOf stores (templateRows rows id))

/-!
## Evaluation of conditions

Accepted conditions have an answer each, so a list has one when the templates it refers to
do. That fails exactly when these templates refer to each other in a cycle: the rows are
read in any order, and in some order each list of the cycle begins with its reference.
-/

open Library Library.GroupedMeets Library.BoundedRecursion

variable {stores : ConditionStores} {rows picked : List ConditionRow} {row : ConditionRow} {c : Condition}
  {game : Game} {targets : Nat → Option WorldObject} {store : ConditionReferenceStore}

/-! ## Accepted conditions -/

theorem compareValues_isSome {α : Type} [LinearOrder α] {type : UInt32} (h : type < compTypeMax) (val1 val2 : α) :
    (compareValues type val1 val2).isSome = true := by
  have hLt : type.toNat < 5 := UInt32.lt_iff_toNat_lt.mp h
  rw [compareValues]
  repeat' split
  · rfl
  · rfl
  · rfl
  · rfl
  · rfl
  · rename_i h0 h1 h2 h3 h4
    rw [← UInt32.toNat_inj] at h0 h1 h2 h3 h4
    simp only [UInt32.toNat_zero, UInt32.toNat_one, UInt32.reduceToNat] at h0 h1 h2 h3 h4
    omega

namespace Condition

variable {object : WorldObject}

theorem ofUnit_isSome {ask : UnitData → Option Bool} (h : ∀ unit, (ask unit).isSome = true) :
    (ofUnit object ask).isSome = true := by
  rw [ofUnit]
  split
  · exact h _
  · rfl

theorem ofPlayer_isSome {ask : PlayerData → Option Bool} (h : ∀ player, (ask player).isSome = true) :
    (ofPlayer object ask).isSome = true := by
  rw [ofPlayer]
  split
  · exact h _
  · rfl

theorem ofUnits_isSome {toObject : Option WorldObject} {ask : WorldObject → UnitData → Bool} :
    (ofUnits object toObject ask).isSome = true := by
  cases toObject with
  | none => rfl
  | some toObject =>
    rw [ofUnits]
    split
    · exact ofUnit_isSome fun _ => rfl
    · rfl

theorem check_isSome {maxTargets : Nat} (h : c.areValuesValid stores maxTargets = true) :
    (c.check game targets object).isSome = true := by
  rw [areValuesValid] at h
  rw [check]
  cases hType : c.conditionType <;> rw [hType] at h <;>
    simp only [Bool.and_eq_true, decide_eq_true_eq] at h ⊢
  case item =>
    refine ofPlayer_isSome fun player => ?_
    rw [if_neg h.2]
    rfl
  case level => exact ofUnit_isSome fun unit => compareValues_isSome h _ _
  case hpVal => exact ofUnit_isSome fun unit => compareValues_isSome h _ _
  case hpPct => exact ofUnit_isSome fun unit => compareValues_isSome h.2 _ _
  case distanceTo =>
    split
    · exact compareValues_isSome h.2 _ _
    · rfl
  all_goals first
    | rfl
    | exact ofUnit_isSome fun _ => rfl
    | exact ofPlayer_isSome fun _ => rfl
    | exact ofUnits_isSome

theorem meets_isSome {maxTargets : Nat} (hTargets : maxTargets ≤ 2)
    (h : c.isConditionTypeValid stores maxTargets = true) : (c.meets game targets).isSome = true := by
  obtain ⟨hValues, hTarget⟩ := Bool.and_eq_true_iff.mp h
  have hLt : c.conditionTarget < maxConditionTargets :=
    ((of_decide_eq_true hTarget).trans_le hTargets).trans (by decide)
  rw [meets, if_pos hLt]
  split
  · rw [Option.isSome_map]
    exact check_isSome hValues
  · rfl

end Condition

/-- A condition is loaded and answers, unless it refers to a template. -/
structure Usable (c : Condition) : Prop where
  isLoaded : c.isLoaded = true
  meets : c.referenceId = 0 → ∀ game targets, (c.meets game targets).isSome = true

theorem maxTargets_le (row : ConditionRow) : row.maxAvailableConditionTargets ≤ 2 := by
  rw [ConditionRow.maxAvailableConditionTargets]
  split <;> decide

theorem referenceId_ne_zero (h : row.isReference = true) :
    UInt32.ofNat row.conditionTypeOrReference.toInt.natAbs ≠ 0 := by
  have hNegative := of_decide_eq_true h
  have hLower := row.conditionTypeOrReference.le_toInt
  rw [ne_eq, ← UInt32.toNat_inj, UInt32.toNat_ofNat_of_lt' (by rw [UInt32.size]; omega), UInt32.toNat_zero]
  omega

theorem usable_of_accept (h : row.accept stores = some c) : Usable c := by
  rw [ConditionRow.accept] at h
  split at h
  · rename_i hReference
    split at h
    · cases h
    · obtain rfl := Option.some.inj h
      have hNe := referenceId_ne_zero hReference
      exact ⟨decide_eq_true (Or.inr hNe), fun hZero => absurd hZero hNe⟩
  · split at h
    · cases h
    · rename_i type hType
      split at h
      · rename_i hValid
        obtain rfl := Option.some.inj h
        refine ⟨decide_eq_true (Or.inl fun hNone => ?_), fun _ game targets => ?_⟩
        · have hValues := (Bool.and_eq_true_iff.mp hValid).1
          rw [Condition.areValuesValid, hNone] at hValues
          cases hValues
        · exact Condition.meets_isSome (maxTargets_le row) hValid
      · cases h

theorem usable_of_mem (h : c ∈ conditionsOf stores rows) : Usable c := by
  obtain ⟨row, -, hAccept⟩ := List.mem_filterMap.mp h
  exact usable_of_accept hAccept

/-! ## The meaning of a list -/

/-- Some else group of the list has all its conditions met, where a reference is met
when its template is, and one without a template is. -/
inductive Met (store : ConditionReferenceStore) (game : Game) (targets : Nat → Option WorldObject) :
    List Condition → Prop
  | group {conditions : List Condition} (g : Nat) (used : ∃ c ∈ conditions, elseGroup c = g)
      (own : ∀ c ∈ conditions, elseGroup c = g → c.referenceId = 0 → c.meets game targets = some true)
      (references : ∀ c ∈ conditions, elseGroup c = g → c.referenceId ≠ 0 →
        ∀ reference, store c.referenceId = some reference → Met store game targets reference) :
      Met store game targets conditions

variable {conditions : List Condition}

theorem Met.perm {other : ConditionReferenceStore}
    (hStore : ∀ id list, other id = some list → ∃ list', store id = some list' ∧ list'.Perm list)
    {conditions' : List Condition} (h : Met store game targets conditions)
    (hPerm : conditions.Perm conditions') : Met other game targets conditions' := by
  induction h generalizing conditions' with
  | group g used own references ih =>
    obtain ⟨c, hMem, hKey⟩ := used
    refine .group g ⟨c, hPerm.mem_iff.mp hMem, hKey⟩ ?_ ?_
    · exact fun c hc => own c (hPerm.mem_iff.mpr hc)
    · intro c hc hKey hNe list hList
      obtain ⟨list', hList', hSame⟩ := hStore c.referenceId list hList
      exact ih c (hPerm.mem_iff.mpr hc) hKey hNe list' hList' hSame

def Refers (store : ConditionReferenceStore) (conditions reference : List Condition) : Prop :=
  ∃ c ∈ conditions, c.referenceId ≠ 0 ∧ store c.referenceId = some reference

/-- What a condition contributes, given the value of the templates. -/
def valueWith (store : ConditionReferenceStore) (game : Game) (targets : Nat → Option WorldObject)
    (below : List Condition → Option Bool) (c : Condition) : Option Bool :=
  if c.referenceId ≠ 0 then
    match store c.referenceId with
    | some reference => below reference
    | none => some true
  else c.meets game targets

def evaluation (store : ConditionReferenceStore) (game : Game) (targets : Nat → Option WorldObject)
    (below : List Condition → Unit → Option Bool) (conditions : List Condition) (_ : Unit) : Option Bool :=
  (collect checkPassed elseGroup (valueWith store game targets fun reference => below reference ())
    (conditions.filter Condition.isLoaded)).map fun groups => groups.entries.any Group.value

theorem isObjectMeetToConditionList_eq (n : Nat) (conditions : List Condition) :
    isObjectMeetToConditionList store game targets n conditions =
      unfolded (evaluation store game targets) n conditions () := by
  induction n generalizing conditions with
  | zero => rfl
  | succ n ih =>
    rw [isObjectMeetToConditionList, unfolded, evaluation]
    simp only [ih]
    rfl

theorem evaluation_answers {below : List Condition → Unit → Option Bool}
    (hUsable : ∀ c ∈ conditions, Usable c)
    (hBelow : ∀ reference, Refers store conditions reference → ∃ v, below reference () = some v ∧
      (v = true ↔ Met store game targets reference)) :
    ∃ v, evaluation store game targets below conditions () = some v ∧
      (v = true ↔ Met store game targets conditions) := by
  have hLoaded : conditions.filter Condition.isLoaded = conditions :=
    List.filter_eq_self.mpr fun c hc => (hUsable c hc).isLoaded
  have hValue : ∀ c ∈ conditions, ∃ v, valueWith store game targets (fun reference => below reference ()) c = some v ∧
      (v = true ↔ (c.referenceId = 0 → c.meets game targets = some true) ∧
        (c.referenceId ≠ 0 → ∀ reference, store c.referenceId = some reference → Met store game targets reference)) := by
    intro c hc
    rw [valueWith]
    by_cases hZero : c.referenceId = 0
    · rw [if_neg fun hNe => hNe hZero]
      obtain ⟨v, hMeets⟩ := Option.isSome_iff_exists.mp ((hUsable c hc).meets hZero game targets)
      refine ⟨v, hMeets, fun hTrue => ⟨fun _ => hTrue ▸ hMeets, fun hNe => absurd hZero hNe⟩, fun h => ?_⟩
      exact Option.some.inj (hMeets.symm.trans (h.1 hZero))
    · rw [if_pos hZero]
      cases hStore : store c.referenceId with
      | none => exact ⟨true, rfl, fun _ => ⟨fun h => absurd h hZero, fun _ _ h => nomatch h⟩, fun _ => rfl⟩
      | some reference =>
        obtain ⟨v, hv, hMet⟩ := hBelow reference ⟨c, hc, hZero, hStore⟩
        refine ⟨v, hv, fun hTrue => ⟨fun h => absurd h hZero, fun _ other hOther => ?_⟩, fun h => ?_⟩
        · obtain rfl := Option.some.inj hOther
          exact hMet.mp hTrue
        · exact hMet.mpr (h.2 hZero reference rfl)
  have hSome : (collect checkPassed elseGroup (valueWith store game targets fun reference => below reference ())
      conditions).isSome :=
    foldlM_isSome checkPassed elseGroup (fun c hc => by
      obtain ⟨v, hv, -⟩ := hValue c hc
      rw [hv]
      rfl) _
  obtain ⟨groups, hGroups⟩ := Option.isSome_iff_exists.mp hSome
  refine ⟨groups.entries.any Group.value, ?_, ?_⟩
  · rw [evaluation, hLoaded, hGroups]
    rfl
  · refine (collect_spec passedTest hGroups).trans ?_
    have hPasses : ∀ c ∈ conditions, Passes passedTest (valueWith store game targets
        fun reference => below reference ()) c ↔ (c.referenceId = 0 → c.meets game targets = some true) ∧
        (c.referenceId ≠ 0 → ∀ reference, store c.referenceId = some reference →
          Met store game targets reference) := by
      intro c hc
      obtain ⟨v, hv, hMeans⟩ := hValue c hc
      rw [← hMeans]
      constructor
      · rintro ⟨b, hb, hTrue⟩
        obtain rfl := Option.some.inj (hv.symm.trans hb)
        exact hTrue
      · exact fun hTrue => ⟨v, hv, hTrue⟩
    constructor
    · rintro ⟨g, hUsed, hAll⟩
      refine .group g hUsed (fun c hc hKey => ((hPasses c hc).mp (hAll c hc hKey)).1) ?_
      exact fun c hc hKey => ((hPasses c hc).mp (hAll c hc hKey)).2
    · rintro ⟨g, hUsed, hOwn, hReferences⟩
      exact ⟨g, hUsed, fun c hc hKey => (hPasses c hc).mpr ⟨hOwn c hc hKey, hReferences c hc hKey⟩⟩

/-! ## References between templates -/

def Names (conditions : List Condition) (id : UInt32) : Prop :=
  ∃ c ∈ conditions, c.referenceId ≠ 0 ∧ c.referenceId = id

def RefersTo (stores : ConditionStores) (rows : List ConditionRow) (id other : UInt32) : Prop :=
  Names (conditionsOf stores (templateRows rows id)) other

def Circular (stores : ConditionStores) (rows : List ConditionRow) (conditions : List Condition) : Prop :=
  ∃ id, Names conditions id ∧ Endless (RefersTo stores rows) id

variable {id : UInt32} {list : List Condition}

theorem store_eq_some (h : conditionReferenceStore stores rows id = some list) :
    conditionsOf stores (templateRows rows id) = list := by
  rw [conditionReferenceStore] at h
  split at h
  · cases h
  · exact Option.some.inj h

theorem store_of_mem (hMem : c ∈ conditionsOf stores (templateRows rows id)) :
    conditionReferenceStore stores rows id = some (conditionsOf stores (templateRows rows id)) :=
  if_neg (List.ne_nil_of_mem hMem)

theorem exists_id_of_reached (h : Relation.TransGen (Refers (conditionReferenceStore stores rows)) conditions list) :
    ∃ first id, Names conditions first ∧ Relation.ReflTransGen (RefersTo stores rows) first id ∧
      conditionReferenceStore stores rows id = some list := by
  induction h with
  | single hCall =>
    obtain ⟨c, hc, hNe, hStore⟩ := hCall
    exact ⟨c.referenceId, c.referenceId, ⟨c, hc, hNe, rfl⟩, .refl, hStore⟩
  | tail _ hCall ih =>
    obtain ⟨first, id, hFirst, hReach, hList⟩ := ih
    obtain ⟨c, hc, hNe, hStore⟩ := hCall
    refine ⟨first, c.referenceId, hFirst, hReach.tail ⟨c, ?_, hNe, rfl⟩, hStore⟩
    rwa [store_eq_some hList]

theorem circular_of_endless (h : Endless (Refers (conditionReferenceStore stores rows)) conditions) :
    Circular stores rows conditions := by
  obtain ⟨list, hReach, hCycle⟩ := h
  have hFrom : ∀ list', Relation.ReflTransGen (Refers (conditionReferenceStore stores rows)) list' list →
      Relation.TransGen (Refers (conditionReferenceStore stores rows)) list' list :=
    fun list' hTo => Relation.TransGen.trans_right hTo hCycle
  obtain ⟨first, id, hFirst, hTo, hStore⟩ := exists_id_of_reached (hFrom conditions hReach)
  obtain ⟨next, last, hNext, hBack, hLast⟩ := exists_id_of_reached hCycle
  -- The list is that of both templates, so the last one refers to what the first one refers to.
  have hAgain : RefersTo stores rows last next := by
    rw [RefersTo, store_eq_some hLast]
    exact hNext
  have hOnce : RefersTo stores rows id next := by
    rw [RefersTo, store_eq_some hStore]
    exact hNext
  refine ⟨first, hFirst, last, (hTo.tail hOnce).trans hBack, ?_⟩
  exact Relation.TransGen.head' hAgain hBack

theorem finite_references : {list | ∃ conditions, Refers store conditions list}.Finite := by
  have hIds : (Set.range fun id : Fin UInt32.size => (store (UInt32.ofFin id)).getD []).Finite := Set.finite_range _
  refine hIds.subset ?_
  rintro list ⟨conditions, c, -, -, hStore⟩
  refine ⟨c.referenceId.toFin, ?_⟩
  have hId : UInt32.ofFin c.referenceId.toFin = c.referenceId := rfl
  simp only [hId, hStore, Option.getD_some]

variable {rows' : List ConditionRow}

theorem conditionsOf_perm (h : rows.Perm rows') :
    (conditionsOf stores rows).Perm (conditionsOf stores rows') := h.filterMap _

theorem store_perm (h : rows.Perm rows')
    (hStore : conditionReferenceStore stores rows' id = some list) :
    ∃ list', conditionReferenceStore stores rows id = some list' ∧ list'.Perm list := by
  have hPerm : (conditionsOf stores (templateRows rows id)).Perm list :=
    store_eq_some hStore ▸ conditionsOf_perm (h.filter _)
  refine ⟨_, if_neg fun hEmpty => ?_, hPerm⟩
  rw [hEmpty] at hPerm
  rw [List.nil_perm.mp hPerm, conditionReferenceStore] at hStore
  split at hStore
  · cases hStore
  · rename_i hNe
    exact hNe (Option.some.inj hStore)

theorem names_perm {conditions' : List Condition} (h : conditions.Perm conditions') (id : UInt32) :
    Names conditions id ↔ Names conditions' id :=
  exists_congr fun _ => and_congr_left' h.mem_iff

theorem refersTo_perm (h : rows.Perm rows') :
    RefersTo stores rows = RefersTo stores rows' := by
  funext id other
  exact propext (names_perm (conditionsOf_perm (h.filter _)) other)

/-! ## Answers -/

theorem answers (game : Game) (targets : Nat → Option WorldObject)
    (hStore : ∀ id list, store id = some list → ∀ c ∈ list, Usable c)
    (hUsable : ∀ c ∈ conditions, Usable c) (h : ¬ Endless (Refers store) conditions) :
    ∃ depth, ∀ n, depth ≤ n → ∃ v, isObjectMeetToConditionList store game targets n conditions = some v ∧
      (v = true ↔ Met store game targets conditions) := by
  obtain ⟨depth, hDepth⟩ := answers_of_not_endless (evaluation store game targets)
    (I := fun list => ∀ c ∈ list, Usable c) (P := fun list _ v => v = true ↔ Met store game targets list)
    finite_references (fun _ list _ ⟨c, _, _, hList⟩ => hStore c.referenceId list hList)
    (fun below list hList hBelow _ => evaluation_answers hList fun reference hRefers => hBelow reference hRefers ())
    hUsable h
  refine ⟨depth, fun n hn => ?_⟩
  rw [isObjectMeetToConditionList_eq]
  exact hDepth n hn ()

theorem stuck {rest : List Condition} {n : Nat} (hLoaded : c.isLoaded = true) (hNe : c.referenceId ≠ 0)
    {reference : List Condition} (hReference : store c.referenceId = some reference)
    (hNone : isObjectMeetToConditionList store game targets n reference = none) :
    isObjectMeetToConditionList store game targets (n + 1) (c :: rest) = none := by
  rw [isObjectMeetToConditionList, List.filter_cons_of_pos hLoaded, collect, List.foldlM_cons, step]
  have hEmpty : (KeyedSet.empty : Groups Nat Bool).find? (elseGroup c) = none := rfl
  rw [hEmpty, Option.any_none, if_neg Bool.false_ne_true, if_pos hNe]
  simp only [hReference, hNone]
  rfl

/-! ## Orders of the rows -/

section Orders

variable (stores rows)

def LeadsOn (row : ConditionRow) : Prop :=
  ∃ c, row.accept stores = some c ∧ c.referenceId ≠ 0 ∧ Endless (RefersTo stores rows) c.referenceId

open Classical in
noncomputable def leadingFirst (list : List ConditionRow) : List ConditionRow :=
  list.filter (fun row => LeadsOn stores rows row) ++ list.filter fun row => !decide (LeadsOn stores rows row)

theorem leadingFirst_perm (list : List ConditionRow) : (leadingFirst stores rows list).Perm list := by
  rw [leadingFirst]
  exact List.filter_append_perm _ list

variable {stores rows}

theorem templateRows_leadingFirst (list : List ConditionRow) (id : UInt32) :
    templateRows (leadingFirst stores rows list) id = leadingFirst stores rows (templateRows list id) := by
  have hComm : ∀ p : ConditionRow → Bool, templateRows (list.filter p) id = (templateRows list id).filter p :=
    fun p => List.filter_comm _ _ list
  rw [templateRows, leadingFirst, leadingFirst, List.filter_append]
  exact congrArg₂ _ (hComm _) (hComm _)

theorem leadingFirst_head {list : List ConditionRow} {id : UInt32} (hNames : Names (conditionsOf stores list) id)
    (hEndless : Endless (RefersTo stores rows) id) :
    ∃ c rest, conditionsOf stores (leadingFirst stores rows list) = c :: rest ∧ c.isLoaded = true ∧
      c.referenceId ≠ 0 ∧ Endless (RefersTo stores rows) c.referenceId := by
  classical
  obtain ⟨c, hc, hNe, rfl⟩ := hNames
  obtain ⟨row, hRow, hAccept⟩ := List.mem_filterMap.mp hc
  have hMem : row ∈ list.filter fun row => decide (LeadsOn stores rows row) :=
    List.mem_filter.mpr ⟨hRow, decide_eq_true ⟨c, hAccept, hNe, hEndless⟩⟩
  obtain ⟨first, others, hSplit⟩ := List.exists_cons_of_ne_nil (List.ne_nil_of_mem hMem)
  have hFirst : first ∈ list.filter fun row => decide (LeadsOn stores rows row) :=
    hSplit ▸ List.mem_cons_self
  obtain ⟨c', hAccept', hNe', hEndless'⟩ := of_decide_eq_true (List.mem_filter.mp hFirst).2
  have hHead : ∃ rest, leadingFirst stores rows list = first :: rest := by
    rw [leadingFirst, hSplit, List.cons_append]
    exact ⟨_, rfl⟩
  obtain ⟨rest, hHead⟩ := hHead
  refine ⟨c', conditionsOf stores rest, ?_, (usable_of_accept hAccept').isLoaded, hNe', hEndless'⟩
  rw [hHead]
  exact List.filterMap_cons_some (f := fun row : ConditionRow => row.accept stores) hAccept'

theorem endless_stuck (n : Nat) : ∀ id, Endless (RefersTo stores rows) id → ∀ list,
    conditionReferenceStore stores (leadingFirst stores rows rows) id = some list →
    isObjectMeetToConditionList (conditionReferenceStore stores (leadingFirst stores rows rows)) game targets n
      list = none := by
  induction n with
  | zero => exact fun _ _ _ _ => rfl
  | succ n ih =>
    intro id hEndless list hList
    obtain ⟨next, hCall, hNext⟩ := hEndless.exists_call
    obtain ⟨c, rest, hHead, hLoaded, hNe, hLeads⟩ := leadingFirst_head hCall hNext
    rw [← templateRows_leadingFirst, store_eq_some hList] at hHead
    obtain ⟨third, ⟨c', hc', -, -⟩, -⟩ := hLeads.exists_call
    obtain ⟨reference, hReference, -⟩ := store_perm (leadingFirst_perm stores rows rows) (store_of_mem hc')
    rw [hHead]
    exact stuck hLoaded hNe hReference (ih _ hLeads reference hReference)

end Orders

/-! ## The meaning of the table -/

/-- In whatever order the rows are read, the list has one value, the documented one. -/
def Settled (stores : ConditionStores) (rows picked : List ConditionRow) (game : Game)
    (targets : Nat → Option WorldObject) : Prop :=
  ∀ rows' picked' : List ConditionRow, rows'.Perm rows → picked'.Perm picked → ∃ v,
    (∃ depth, ∀ n, depth ≤ n → isObjectMeetToConditions (conditionReferenceStore stores rows') game targets n
      (conditionsOf stores picked') = some v) ∧
    (v = true ↔ conditionsOf stores picked = [] ∨
      Met (conditionReferenceStore stores rows) game targets (conditionsOf stores picked))

theorem unsettled_of_endless (hNames : Names (conditionsOf stores picked) id)
    (hEndless : Endless (RefersTo stores rows) id) (depth : Nat) :
    isObjectMeetToConditions (conditionReferenceStore stores (leadingFirst stores rows rows)) game targets (depth + 1)
      (conditionsOf stores (leadingFirst stores rows picked)) = none := by
  obtain ⟨c, rest, hHead, hLoaded, hNe, hLeads⟩ := leadingFirst_head hNames hEndless
  obtain ⟨next, ⟨c', hc', -, -⟩, -⟩ := hLeads.exists_call
  obtain ⟨reference, hReference, -⟩ := store_perm (leadingFirst_perm stores rows rows) (store_of_mem hc')
  rw [isObjectMeetToConditions, hHead, List.isEmpty_cons, if_neg Bool.false_ne_true]
  exact stuck hLoaded hNe hReference (endless_stuck depth _ hLeads reference hReference)

theorem value_of_not_circular (rows picked : List ConditionRow) (game : Game) (targets : Nat → Option WorldObject)
    (hAcyclic : ¬ Circular stores rows (conditionsOf stores picked)) : ∃ v,
    (∃ depth, ∀ n, depth ≤ n → isObjectMeetToConditions (conditionReferenceStore stores rows) game targets n
      (conditionsOf stores picked) = some v) ∧
    (v = true ↔ conditionsOf stores picked = [] ∨
      Met (conditionReferenceStore stores rows) game targets (conditionsOf stores picked)) := by
  cases hEmpty : (conditionsOf stores picked).isEmpty with
  | true =>
    refine ⟨true, ⟨0, fun n _ => ?_⟩, iff_of_true rfl (Or.inl (List.isEmpty_iff.mp hEmpty))⟩
    rw [isObjectMeetToConditions, hEmpty, if_pos rfl]
  | false =>
    have hNotEmpty : conditionsOf stores picked ≠ [] := List.isEmpty_eq_false_iff.mp hEmpty
    obtain ⟨depth, hDepth⟩ := answers game targets
      (fun id list hList c hc => usable_of_mem (store_eq_some hList ▸ hc)) (fun c hc => usable_of_mem hc)
      fun hEndless => hAcyclic (circular_of_endless hEndless)
    obtain ⟨v, hv, hMeans⟩ := hDepth depth le_rfl
    refine ⟨v, ⟨depth, fun n hn => ?_⟩, hMeans.trans (or_iff_right hNotEmpty).symm⟩
    obtain ⟨w, hw, hSame⟩ := hDepth n hn
    rw [isObjectMeetToConditions, hEmpty, if_neg Bool.false_ne_true, hw]
    exact congrArg some (Bool.eq_iff_iff.mpr (hSame.trans hMeans.symm))

/-- A list of accepted conditions has its value in every order exactly if it leads to no
cycle of templates. -/
theorem settled_iff (stores : ConditionStores) (rows picked : List ConditionRow) (game : Game)
    (targets : Nat → Option WorldObject) :
    Settled stores rows picked game targets ↔ ¬ Circular stores rows (conditionsOf stores picked) := by
  constructor
  · rintro hSettled ⟨id, hNames, hEndless⟩
    obtain ⟨v, ⟨depth, hDepth⟩, -⟩ :=
      hSettled _ _ (leadingFirst_perm stores rows rows) (leadingFirst_perm stores rows picked)
    cases (unsettled_of_endless hNames hEndless depth).symm.trans (hDepth (depth + 1) (Nat.le_succ depth))
  · intro hAcyclic rows' picked' hRows hPicked
    have hConditions : (conditionsOf stores picked').Perm (conditionsOf stores picked) := conditionsOf_perm hPicked
    have hMet : Met (conditionReferenceStore stores rows') game targets (conditionsOf stores picked') ↔
        Met (conditionReferenceStore stores rows) game targets (conditionsOf stores picked) :=
      ⟨fun h => h.perm (fun _ _ hList => store_perm hRows hList) hConditions,
        fun h => h.perm (fun _ _ hList => store_perm hRows.symm hList) hConditions.symm⟩
    have hTemplates : RefersTo stores rows' = RefersTo stores rows := refersTo_perm hRows
    obtain ⟨v, hValue, hMeans⟩ := value_of_not_circular rows' picked' game targets
      fun ⟨id, hNames, hCycle⟩ => hAcyclic ⟨id, (names_perm hConditions id).mp hNames, hTemplates ▸ hCycle⟩
    refine ⟨v, hValue, hMeans.trans (or_congr ?_ hMet)⟩
    exact ⟨fun hNil => List.nil_perm.mp (hNil ▸ hConditions), fun hNil => List.perm_nil.mp (hNil ▸ hConditions)⟩

def mutualRows : List ConditionRow := [⟨-1, 0, -2, 0, 0, 0, 0, false⟩, ⟨-2, 0, -1, 0, 0, 0, 0, false⟩]

def gossipRows : List ConditionRow := [⟨14, 0, -1, 0, 0, 0, 0, false⟩]

theorem mutual_stuck (n : Nat) (target : Condition) (hTarget : target.referenceId = 1 ∨ target.referenceId = 2) :
    isObjectMeetToConditionList (conditionReferenceStore {} mutualRows) {} (fun _ => none) n [target] = none := by
  have hFirst : conditionReferenceStore {} mutualRows 1 = some [⟨0, .none, 0, 0, 0, 2, 0, false⟩] := by rfl
  have hSecond : conditionReferenceStore {} mutualRows 2 = some [⟨0, .none, 0, 0, 0, 1, 0, false⟩] := by rfl
  induction n generalizing target with
  | zero => rfl
  | succ n ih =>
    rcases hTarget with hOne | hTwo
    · have hNe : target.referenceId ≠ 0 := by
        rw [hOne]
        decide
      exact stuck (decide_eq_true (Or.inr hNe)) hNe (hOne ▸ hFirst) (ih _ (Or.inr rfl))
    · have hNe : target.referenceId ≠ 0 := by
        rw [hTwo]
        decide
      exact stuck (decide_eq_true (Or.inr hNe)) hNe (hTwo ▸ hSecond) (ih _ (Or.inl rfl))

/-- All rows are accepted, and the evaluation never ends. -/
theorem gossip_never_settled :
    (∀ row ∈ mutualRows ++ gossipRows, (row.accept {}).isSome = true) ∧
    (∀ n, isObjectMeetToConditions (conditionReferenceStore {} mutualRows) {} (fun _ => none) n
      (conditionsOf {} gossipRows) = none) ∧
    ¬ Settled {} mutualRows gossipRows {} fun _ => none := by
  have hList : conditionsOf {} gossipRows = [⟨0, .none, 0, 0, 0, 1, 0, false⟩] := by rfl
  have hNever : ∀ n, isObjectMeetToConditions (conditionReferenceStore {} mutualRows) {} (fun _ => none) n
      (conditionsOf {} gossipRows) = none := by
    intro n
    rw [hList, isObjectMeetToConditions, List.isEmpty_cons, if_neg Bool.false_ne_true]
    exact mutual_stuck n _ (Or.inl rfl)
  refine ⟨by decide, hNever, fun hSettled => ?_⟩
  obtain ⟨v, ⟨depth, hDepth⟩, -⟩ := hSettled _ _ (List.Perm.refl _) (List.Perm.refl _)
  exact nomatch (hNever depth).symm.trans (hDepth depth le_rfl)

end AshamaneCore.Conditions
