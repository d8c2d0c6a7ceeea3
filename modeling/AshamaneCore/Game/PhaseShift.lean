import AshamaneCore.Common.Containers
import AshamaneCore.Common.EnumClassFlag
import AshamaneCore.Game.ObjectGuid
import AshamaneCore.Library.KeyedSet

/-!
# Phase shifts

The phases of an object are a flat set ordered by their identifiers, its visible
maps and its world map swaps are maps, and all of them count references. The
counters are exact integers, because overflow of a signed counter is undefined.
Area conditions are known by numbers.
-/

namespace AshamaneCore

open Library EnumClassFlag

structure TerrainSwapInfo where
  id : UInt32
  uiWorldMapAreaIDSwaps : List UInt32
  deriving DecidableEq

namespace PhaseShiftFlags

def none : EnumClassFlag 32 := 0x00
def alwaysVisible : EnumClassFlag 32 := 0x01
def inverse : EnumClassFlag 32 := 0x02
def inverseUnphased : EnumClassFlag 32 := 0x04
def unphased : EnumClassFlag 32 := 0x08
def noCosmetic : EnumClassFlag 32 := 0x10

end PhaseShiftFlags

namespace PhaseFlags

def none : EnumClassFlag 16 := 0x0
def cosmetic : EnumClassFlag 16 := 0x1
def personal : EnumClassFlag 16 := 0x2

end PhaseFlags

def DEFAULT_PHASE : UInt16 := 169

structure PhaseRef where
  id : UInt16
  flags : EnumClassFlag 16
  references : Int
  areaConditions : Option Nat
  deriving DecidableEq

namespace PhaseRef

def new (id : UInt32) (flags : EnumClassFlag 16) (conditions : Option Nat) : PhaseRef :=
  ⟨id.toUInt16, flags, 0, conditions⟩

def key (p : PhaseRef) : Nat := p.id.toNat

def addReferences (references : Int) (p : PhaseRef) : PhaseRef :=
  { p with references := p.references + references }

def setConditions (conditions : Option Nat) (p : PhaseRef) : PhaseRef :=
  { p with areaConditions := conditions }

theorem key_addReferences (references : Int) (p : PhaseRef) :
    (p.addReferences references).key = p.key := rfl

theorem key_setConditions (conditions : Option Nat) (p : PhaseRef) :
    (p.setConditions conditions).key = p.key := rfl

end PhaseRef

structure VisibleMapIdRef where
  id : UInt32
  references : Int
  visibleMapInfo : Option TerrainSwapInfo
  deriving DecidableEq

def VisibleMapIdRef.key (m : VisibleMapIdRef) : Nat := m.id.toNat

def VisibleMapIdRef.addReferences (references : Int) (m : VisibleMapIdRef) : VisibleMapIdRef :=
  { m with references := m.references + references }

theorem VisibleMapIdRef.key_addReferences (references : Int) (m : VisibleMapIdRef) :
    (m.addReferences references).key = m.key := rfl

structure UiWorldMapAreaIdSwapRef where
  id : UInt32
  references : Int
  deriving DecidableEq

def UiWorldMapAreaIdSwapRef.key (m : UiWorldMapAreaIdSwapRef) : Nat := m.id.toNat

def UiWorldMapAreaIdSwapRef.addReferences (references : Int) (m : UiWorldMapAreaIdSwapRef) :
    UiWorldMapAreaIdSwapRef :=
  { m with references := m.references + references }

theorem UiWorldMapAreaIdSwapRef.key_addReferences (references : Int) (m : UiWorldMapAreaIdSwapRef) :
    (m.addReferences references).key = m.key := rfl

/-- The element an iterator points to, none at the end, and whether one was erased. -/
structure EraseResult (α : Type) where
  iterator : Option α
  erased : Bool
  deriving DecidableEq

structure PhaseShift where
  flags : EnumClassFlag 32
  personalGuid : ObjectGuid
  phases : KeyedSet PhaseRef.key
  visibleMapIds : KeyedSet VisibleMapIdRef.key
  uiWorldMapAreaIdSwaps : KeyedSet UiWorldMapAreaIdSwapRef.key
  nonCosmeticReferences : Int
  cosmeticReferences : Int
  defaultReferences : Int
  isDbPhaseShift : Bool

namespace PhaseShift

def new : PhaseShift := ⟨PhaseShiftFlags.unphased, ⟨0, 0⟩, .empty, .empty, .empty, 0, 0, 0, false⟩

def updateUnphasedFlag (s : PhaseShift) : PhaseShift :=
  let inverse := hasFlag s.flags PhaseShiftFlags.inverse
  let unphasedFlag := if !inverse then PhaseShiftFlags.unphased else PhaseShiftFlags.inverseUnphased
  let flags := s.flags &&&
    ~~~(if !inverse then PhaseShiftFlags.inverseUnphased else PhaseShiftFlags.unphased)
  { s with
    flags :=
      if s.nonCosmeticReferences ≠ 0 ∧ s.defaultReferences = 0 then flags &&& ~~~unphasedFlag
      else flags ||| unphasedFlag }

def countReferences (s : PhaseShift) (p : PhaseRef) (references : Int) : PhaseShift :=
  if hasFlag p.flags PhaseFlags.cosmetic then
    { s with cosmeticReferences := s.cosmeticReferences + references }
  else if p.id ≠ DEFAULT_PHASE then
    { s with nonCosmeticReferences := s.nonCosmeticReferences + references }
  else { s with defaultReferences := s.defaultReferences + references }

def updateNoCosmeticFlag (s : PhaseShift) : PhaseShift :=
  { s with
    flags :=
      if s.cosmeticReferences ≠ 0 then s.flags ||| PhaseShiftFlags.noCosmetic
      else s.flags &&& ~~~PhaseShiftFlags.noCosmetic }

/-- The references of a stored phase. The shifts of the database do not count. -/
def modifyPhasesReferences (s : PhaseShift) (p : PhaseRef) (references : Int) : PhaseShift :=
  let s := { s with
    phases := s.phases.alter p.key (.addReferences references) (PhaseRef.key_addReferences _) }
  if !s.isDbPhaseShift then
    (s.countReferences p references).updateNoCosmeticFlag.updateUnphasedFlag
  else s

def addPhase (s : PhaseShift) (phaseId : UInt32) (flags : EnumClassFlag 16)
    (areaConditions : Option Nat) (references : Int) : PhaseShift × Bool :=
  let p := (s.phases.find? (PhaseRef.new phaseId flags none).key).getD (.new phaseId flags none)
  let inserted := !s.phases.contains p.key
  let s := { s with phases := s.phases.emplace p }
  let s := s.modifyPhasesReferences p references
  if areaConditions.isSome then
    ({ s with
      phases := s.phases.alter p.key (.setConditions areaConditions) (PhaseRef.key_setConditions _) },
      inserted)
  else (s, inserted)

def removePhase (s : PhaseShift) (phaseId : UInt32) : PhaseShift × EraseResult PhaseRef :=
  match s.phases.find? (PhaseRef.new phaseId PhaseFlags.none none).key with
  | some p =>
    let s := s.modifyPhasesReferences p (-1)
    let q := p.addReferences (-1)
    if q.references = 0 then
      ({ s with phases := s.phases.erase p.key }, ⟨s.phases.next p.key, true⟩)
    else (s, ⟨some q, false⟩)
  | none => (s, ⟨none, false⟩)

def hasPhase (s : PhaseShift) (phaseId : UInt32) : Bool :=
  s.phases.contains (PhaseRef.new phaseId PhaseFlags.none none).key

def addVisibleMapId (s : PhaseShift) (visibleMapId : UInt32)
    (visibleMapInfo : Option TerrainSwapInfo) (references : Int) : PhaseShift × Bool :=
  let k := visibleMapId.toNat
  let visibleMapIds := s.visibleMapIds.emplace ⟨visibleMapId, 0, visibleMapInfo⟩
  ({ s with
    visibleMapIds :=
      visibleMapIds.alter k (.addReferences references) (VisibleMapIdRef.key_addReferences _) },
    !s.visibleMapIds.contains k)

def removeVisibleMapId (s : PhaseShift) (visibleMapId : UInt32) :
    PhaseShift × EraseResult VisibleMapIdRef :=
  match s.visibleMapIds.find? visibleMapId.toNat with
  | some m =>
    let k := m.key
    let s := { s with
      visibleMapIds :=
        s.visibleMapIds.alter k (.addReferences (-1)) (VisibleMapIdRef.key_addReferences _) }
    let m := m.addReferences (-1)
    if m.references = 0 then
      ({ s with visibleMapIds := s.visibleMapIds.erase k }, ⟨s.visibleMapIds.next k, true⟩)
    else (s, ⟨some m, false⟩)
  | none => (s, ⟨none, false⟩)

def addUiWorldMapAreaIdSwap (s : PhaseShift) (uiWorldMapAreaId : UInt32) (references : Int) :
    PhaseShift × Bool :=
  let k := uiWorldMapAreaId.toNat
  let swaps := s.uiWorldMapAreaIdSwaps.emplace ⟨uiWorldMapAreaId, 0⟩
  ({ s with
    uiWorldMapAreaIdSwaps :=
      swaps.alter k (.addReferences references) (UiWorldMapAreaIdSwapRef.key_addReferences _) },
    !s.uiWorldMapAreaIdSwaps.contains k)

def removeUiWorldMapAreaIdSwap (s : PhaseShift) (uiWorldMapAreaId : UInt32) :
    PhaseShift × EraseResult UiWorldMapAreaIdSwapRef :=
  match s.uiWorldMapAreaIdSwaps.find? uiWorldMapAreaId.toNat with
  | some m =>
    let k := m.key
    let s := { s with
      uiWorldMapAreaIdSwaps :=
        s.uiWorldMapAreaIdSwaps.alter k (.addReferences (-1))
          (UiWorldMapAreaIdSwapRef.key_addReferences _) }
    let m := m.addReferences (-1)
    if m.references = 0 then
      ({ s with uiWorldMapAreaIdSwaps := s.uiWorldMapAreaIdSwaps.erase k },
        ⟨s.uiWorldMapAreaIdSwaps.next k, true⟩)
    else (s, ⟨some m, false⟩)
  | none => (s, ⟨none, false⟩)

def clearPhases (s : PhaseShift) : PhaseShift :=
  let s := { s with
    flags := s.flags &&& (PhaseShiftFlags.alwaysVisible ||| PhaseShiftFlags.inverse)
    phases := .empty
    nonCosmeticReferences := 0
    cosmeticReferences := 0
    defaultReferences := 0 }
  s.updateUnphasedFlag

def clear (s : PhaseShift) : PhaseShift :=
  { s.clearPhases with
    personalGuid := ⟨0, 0⟩
    visibleMapIds := .empty
    uiWorldMapAreaIdSwaps := .empty }

def checkInversePhaseShift (excludePhasesWithFlag : EnumClassFlag 16)
    (phaseShift excludedPhaseShift : PhaseShift) : Bool :=
  if hasFlag phaseShift.flags PhaseShiftFlags.unphased &&
      !hasFlag excludedPhaseShift.flags PhaseShiftFlags.inverseUnphased then true
  else phaseShift.phases.entries.any fun p =>
    if hasFlag p.flags excludePhasesWithFlag then false
    else match excludedPhaseShift.phases.entries.find? fun q => q.id = p.id with
      | none => true
      | some q => hasFlag q.flags excludePhasesWithFlag

def canSee (s other : PhaseShift) : Bool :=
  if hasFlag s.flags PhaseShiftFlags.unphased && hasFlag other.flags PhaseShiftFlags.unphased then true
  else if hasFlag s.flags PhaseShiftFlags.alwaysVisible ||
      hasFlag other.flags PhaseShiftFlags.alwaysVisible then true
  else if hasFlag s.flags PhaseShiftFlags.inverse && hasFlag other.flags PhaseShiftFlags.inverse then true
  else
    let excludePhasesWithFlag :=
      if hasFlag s.flags PhaseShiftFlags.noCosmetic &&
          hasFlag other.flags PhaseShiftFlags.noCosmetic then PhaseFlags.cosmetic
      else PhaseFlags.none
    if !hasFlag s.flags PhaseShiftFlags.inverse && !hasFlag other.flags PhaseShiftFlags.inverse then
      Containers.intersects PhaseRef.key s.phases.entries other.phases.entries fun myPhase _ =>
        !hasFlag myPhase.flags excludePhasesWithFlag &&
          (!hasFlag myPhase.flags PhaseFlags.personal || s.personalGuid = other.personalGuid)
    else if hasFlag other.flags PhaseShiftFlags.inverse then
      checkInversePhaseShift excludePhasesWithFlag s other
    else checkInversePhaseShift excludePhasesWithFlag other s

end PhaseShift

end AshamaneCore

/-!
## Visibility between phase shifts

The merge of two phase shifts meets the phases they share, and a shared phase
has the same flags on both sides, so the predicate on the phase of one side can
be asked of the other.
-/

namespace AshamaneCore.PhaseVisibility

open Library EnumClassFlag PhaseShift

/-- Phases of equal identifiers have equal flags, as they have by a function of the identifier. -/
def AgreeingFlags (a b : PhaseShift) : Prop :=
  ∀ p ∈ a.phases.entries, ∀ q ∈ b.phases.entries, p.id = q.id → p.flags = q.flags

variable {a b : PhaseShift}

theorem AgreeingFlags.symm (h : AgreeingFlags a b) : AgreeingFlags b a :=
  fun q hq p hp hId => (h p hp q hq hId.symm).symm

theorem agreeingFlags_of_function (flagsOf : UInt16 → EnumClassFlag 16)
    (ha : ∀ p ∈ a.phases.entries, p.flags = flagsOf p.id)
    (hb : ∀ q ∈ b.phases.entries, q.flags = flagsOf q.id) : AgreeingFlags a b := by
  intro p hp q hq hId
  rw [ha p hp, hb q hq, hId]

def shows (excludePhasesWithFlag : EnumClassFlag 16) (samePerson : Bool) (p : PhaseRef) : Bool :=
  !hasFlag p.flags excludePhasesWithFlag && (!hasFlag p.flags PhaseFlags.personal || samePerson)

theorem intersects_of_agreeing (h : AgreeingFlags a b)
    (excludePhasesWithFlag : EnumClassFlag 16) (samePerson : Bool)
    (hShared : Containers.intersects PhaseRef.key a.phases.entries b.phases.entries
      (fun p _ => shows excludePhasesWithFlag samePerson p) = true) :
    Containers.intersects PhaseRef.key b.phases.entries a.phases.entries
      (fun q _ => shows excludePhasesWithFlag samePerson q) = true := by
  obtain ⟨p, hp, q, hq, hKey, hShows⟩ :=
    (Containers.intersects_iff a.phases.sorted b.phases.sorted).mp hShared
  apply (Containers.intersects_iff b.phases.sorted a.phases.sorted).mpr
  refine ⟨q, hq, p, hp, hKey.symm, ?_⟩
  have hFlags : p.flags = q.flags := h p hp q hq (UInt16.toNat_inj.mp hKey)
  have hSame : shows excludePhasesWithFlag samePerson q = shows excludePhasesWithFlag samePerson p := by
    rw [shows, shows, hFlags]
  exact hSame.trans hShows

theorem intersects_comm (h : AgreeingFlags a b)
    (excludePhasesWithFlag : EnumClassFlag 16) (samePerson : Bool) :
    Containers.intersects PhaseRef.key a.phases.entries b.phases.entries
        (fun p _ => shows excludePhasesWithFlag samePerson p) =
      Containers.intersects PhaseRef.key b.phases.entries a.phases.entries
        (fun q _ => shows excludePhasesWithFlag samePerson q) := by
  apply Bool.eq_iff_iff.mpr
  constructor
  · exact intersects_of_agreeing h excludePhasesWithFlag samePerson
  · exact intersects_of_agreeing h.symm excludePhasesWithFlag samePerson

/-- The flag that excludes shared phases, which both sides have to ask for. -/
def excluded (a b : PhaseShift) : EnumClassFlag 16 :=
  if hasFlag a.flags PhaseShiftFlags.noCosmetic && hasFlag b.flags PhaseShiftFlags.noCosmetic then
    PhaseFlags.cosmetic
  else PhaseFlags.none

theorem excluded_comm (a b : PhaseShift) : excluded a b = excluded b a := by
  rw [excluded, excluded, Bool.and_comm]

def sharesPhase (a b : PhaseShift) : Bool :=
  if !hasFlag a.flags PhaseShiftFlags.inverse && !hasFlag b.flags PhaseShiftFlags.inverse then
    Containers.intersects PhaseRef.key a.phases.entries b.phases.entries fun p _ =>
      shows (excluded a b) (a.personalGuid = b.personalGuid) p
  else if hasFlag b.flags PhaseShiftFlags.inverse then checkInversePhaseShift (excluded a b) a b
  else checkInversePhaseShift (excluded a b) b a

theorem canSee_eq (a b : PhaseShift) :
    a.canSee b =
      (hasFlag a.flags PhaseShiftFlags.unphased && hasFlag b.flags PhaseShiftFlags.unphased ||
        (hasFlag a.flags PhaseShiftFlags.alwaysVisible ||
          hasFlag b.flags PhaseShiftFlags.alwaysVisible) ||
        hasFlag a.flags PhaseShiftFlags.inverse && hasFlag b.flags PhaseShiftFlags.inverse ||
        sharesPhase a b) := by
  rw [canSee]
  split
  · rename_i hUnphased
    rw [hUnphased, Bool.true_or, Bool.true_or, Bool.true_or]
  · rename_i hUnphased
    rw [Bool.eq_false_iff.mpr hUnphased, Bool.false_or]
    split
    · rename_i hVisible
      rw [hVisible, Bool.true_or, Bool.true_or]
    · rename_i hVisible
      rw [Bool.eq_false_iff.mpr hVisible, Bool.false_or]
      split
      · rename_i hInverse
        rw [hInverse, Bool.true_or]
      · rename_i hInverse
        rw [Bool.eq_false_iff.mpr hInverse, Bool.false_or]
        rfl

theorem sharesPhase_comm (h : AgreeingFlags a b)
    (hInverse : (hasFlag a.flags PhaseShiftFlags.inverse &&
      hasFlag b.flags PhaseShiftFlags.inverse) = false) : sharesPhase a b = sharesPhase b a := by
  have hGuid : decide (a.personalGuid = b.personalGuid) = decide (b.personalGuid = a.personalGuid) :=
    decide_eq_decide.mpr eq_comm
  rw [sharesPhase, sharesPhase, excluded_comm b a]
  cases ha : hasFlag a.flags PhaseShiftFlags.inverse with
  | false =>
    cases hb : hasFlag b.flags PhaseShiftFlags.inverse with
    | false =>
      rw [hGuid]
      exact intersects_comm h _ _
    | true => rfl
  | true =>
    cases hb : hasFlag b.flags PhaseShiftFlags.inverse with
    | false => rfl
    | true =>
      rw [ha, hb] at hInverse
      cases hInverse

/-- Two objects either both see each other or neither does. -/
theorem canSee_comm {a b : PhaseShift} (flagsOf : UInt16 → EnumClassFlag 16)
    (ha : ∀ p ∈ a.phases.entries, p.flags = flagsOf p.id)
    (hb : ∀ q ∈ b.phases.entries, q.flags = flagsOf q.id) : a.canSee b = b.canSee a := by
  have hFlags : AgreeingFlags a b := agreeingFlags_of_function flagsOf ha hb
  rw [canSee_eq, canSee_eq, Bool.and_comm (hasFlag b.flags PhaseShiftFlags.unphased),
    Bool.or_comm (hasFlag b.flags PhaseShiftFlags.alwaysVisible),
    Bool.and_comm (hasFlag b.flags PhaseShiftFlags.inverse)]
  cases hInverse : (hasFlag a.flags PhaseShiftFlags.inverse &&
      hasFlag b.flags PhaseShiftFlags.inverse) with
  | true => rw [Bool.or_true, Bool.true_or, Bool.true_or]
  | false => rw [sharesPhase_comm hFlags hInverse]

/-- A cosmetic phase is shared, and both sides have another phase that the other lacks. -/
theorem canSee_comm_cosmetic :
    ((new.addPhase 5 PhaseFlags.cosmetic none 1).1.addPhase 7 PhaseFlags.none none 1).1.canSee
        ((new.addPhase 5 PhaseFlags.cosmetic none 1).1.addPhase 9 PhaseFlags.none none 1).1 =
      ((new.addPhase 5 PhaseFlags.cosmetic none 1).1.addPhase 9 PhaseFlags.none none 1).1.canSee
        ((new.addPhase 5 PhaseFlags.cosmetic none 1).1.addPhase 7 PhaseFlags.none none 1).1 :=
  canSee_comm (fun id => if id = 5 then PhaseFlags.cosmetic else PhaseFlags.none) (by decide)
    (by decide)

end AshamaneCore.PhaseVisibility
