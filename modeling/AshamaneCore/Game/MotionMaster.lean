import AshamaneCore.Library.Transition
import Mathlib.Logic.Function.Basic

/-!
# The motion master

A unit has three slots for movement generators. The top one is updated, and may
call back into the motion master from its update; what it removes there goes to
a list that is cleared when the update is over.
-/

namespace AshamaneCore.Motion

open Library.Transition

/-- The idle generator is static and shared; every other one is made once and known by its number. -/
inductive Generator
  | idleMovement
  | made (id : Nat)
  deriving DecidableEq

def Generator.isStatic : Generator → Bool
  | .idleMovement => true
  | .made _ => false

structure Occupant where
  generator : Generator
  initialized : Bool
  deriving DecidableEq

def maxMotionSlot : Nat := 3

def motionSlotActive : Fin maxMotionSlot := ⟨1, Nat.one_lt_succ_succ 1⟩

def motionSlotControlled : Fin maxMotionSlot := ⟨2, Nat.lt_add_one 2⟩

/-- The field size is the number of the top slot and one. The last fields tell what happened: which
generator is being updated, which ones were finalized and deleted and during whose update, and
which one was expired after whose update. -/
structure MotionMaster where
  slot : Nat → Option Occupant := fun _ => none
  size : Nat := 0
  initFlag : Nat → Bool := fun _ => true
  expireList : Option (List Generator) := none
  updateFlag : Bool := false
  resetFlag : Bool := false
  idleByDefault : Bool
  nextId : Nat := 0
  running : Option Generator := none
  deletions : List (Generator × Option Generator) := []
  expirations : List (Option Generator × Option Generator) := []
  resets : List (Option Generator) := []

namespace MotionMaster

variable (m : MotionMaster)

def empty : Bool := m.size = 0

def top : Option Occupant := m.slot (m.size - 1)

def topGenerator : Option Generator := m.top.map Occupant.generator

/-- The number of slots up to the highest one that is filled, among the first ones. -/
def filledUpTo (slot : Nat → Option Occupant) : Nat → Nat
  | 0 => 0
  | n + 1 => if (slot n).isNone then filledUpTo slot n else n + 1

def settleTop : MotionMaster := { m with size := filledUpTo m.slot m.size }

def pop : MotionMaster :=
  if m.empty then m else { m with slot := Function.update m.slot (m.size - 1) none }.settleTop

def needInitTop : Bool := !m.empty && m.initFlag (m.size - 1)

def initTop : MotionMaster :=
  { m with
    slot := Function.update m.slot (m.size - 1) (m.top.map fun occupant => { occupant with initialized := true })
    initFlag := Function.update m.initFlag (m.size - 1) false }

def resetTop : MotionMaster := { m with resets := m.resets ++ [m.topGenerator] }

/-! ## Deleting -/

def directDelete (curr : Generator) : MotionMaster :=
  if curr.isStatic then m else { m with deletions := m.deletions ++ [(curr, m.running)] }

def delayedDelete (curr : Generator) : MotionMaster :=
  if curr.isStatic then m else { m with expireList := some (m.expireList.getD [] ++ [curr]) }

/-! ## Placing -/

/-- The slot is emptied for a new generator, or the top is raised to it. -/
def vacate (slot : Nat) : MotionMaster :=
  match m.slot slot with
  | some curr =>
    if m.size = slot + 1 ∧ m.updateFlag then
      { m with slot := Function.update m.slot slot none }.delayedDelete curr.generator
    else { m with slot := Function.update m.slot slot none }.directDelete curr.generator
  | none => if m.size < slot + 1 then { m with size := slot + 1 } else m

def place (generator : Generator) (slot : Nat) : MotionMaster :=
  { m with
    slot := Function.update m.slot slot (some ⟨generator, decide (m.size ≤ slot + 1)⟩)
    initFlag := Function.update m.initFlag slot (decide (slot + 1 < m.size)) }

def mutate (generator : Generator) (slot : Nat) : MotionMaster := (m.vacate slot).place generator slot

def mutateMade (slot : Nat) : MotionMaster := { m with nextId := m.nextId + 1 }.mutate (.made m.nextId) slot

def initDefault : MotionMaster := if m.idleByDefault then m.mutate .idleMovement 0 else m.mutateMade 0

/-! ## Cleaning and expiring -/

def popDelete (delete : MotionMaster → Generator → MotionMaster) : MotionMaster :=
  match m.top with
  | some curr => delete m.pop curr.generator
  | none => m.pop

/-- Generators are taken from the top while more than so many slots are left; each round lowers
the top. -/
def popWhile (delete : MotionMaster → Generator → MotionMaster) (left : Nat) : Nat → MotionMaster → MotionMaster
  | 0, m => m
  | rounds + 1, m => if left < m.size then popWhile delete left rounds (m.popDelete delete) else m

def initializeAll : MotionMaster := (popWhile directDelete 0 m.size m).initDefault

/-- What is left at the top is initialised when it was not yet, or else reset. -/
def freshenTop (reset : Bool) : MotionMaster :=
  if m.needInitTop then m.initTop else if reset then m.resetTop else m

def directClean (reset : Bool) : MotionMaster :=
  if (popWhile directDelete 1 m.size m).empty then popWhile directDelete 1 m.size m
  else (popWhile directDelete 1 m.size m).freshenTop reset

def delayedClean : MotionMaster := popWhile delayedDelete 1 m.size m

def expireTop (delete : MotionMaster → Generator → MotionMaster) : MotionMaster :=
  (if 1 < m.size then m.popDelete delete else m).settleTop

def directExpire (reset : Bool) : MotionMaster :=
  if (m.expireTop directDelete).empty then (m.expireTop directDelete).initializeAll
  else (m.expireTop directDelete).freshenTop reset

def delayedExpire : MotionMaster := m.expireTop delayedDelete

def clear (reset : Bool) : MotionMaster :=
  if m.updateFlag then { m with resetFlag := reset }.delayedClean else m.directClean reset

def movementExpired (reset : Bool) : MotionMaster :=
  if m.updateFlag then { m with resetFlag := reset }.delayedExpire else m.directExpire reset

def deleteExpired : MotionMaster :=
  { (m.expireList.getD []).foldl directDelete m with expireList := none }

def clearExpireList : MotionMaster :=
  { (if m.deleteExpired.empty then m.deleteExpired.initializeAll else m.deleteExpired.freshenTop m.resetFlag) with
    resetFlag := false }

end MotionMaster

/-! ## Calls and updates -/

inductive Call
  | mutate (slot : Fin maxMotionSlot)
  | mutateIdle
  | clear (reset : Bool)
  | movementExpired (reset : Bool)
  deriving DecidableEq

namespace MotionMaster

variable (m : MotionMaster)

def call : Call → MotionMaster
  | .mutate slot => m.mutateMade slot
  | .mutateIdle => m.mutate .idleMovement 0
  | .clear reset => m.clear reset
  | .movementExpired reset => m.movementExpired reset

def beginUpdate : MotionMaster := { m with updateFlag := true, running := m.topGenerator }

def endUpdate : MotionMaster := { m with updateFlag := false, running := none }

def afterCalls (calls : List Call) : MotionMaster := (run call m.beginUpdate calls).endUpdate

/-- What the next expiration takes is noted, with the generator whose update failed. -/
def noteExpired (updated : Option Generator) : MotionMaster :=
  if 1 < m.size then { m with expirations := m.expirations ++ [(m.topGenerator, updated)] } else m

def flushExpired : MotionMaster := if m.expireList.isSome then m.clearExpireList else m

def updateMotion (held : Bool) (calls : List Call) (result : Bool) : MotionMaster :=
  if held then m
  else if result then (m.afterCalls calls).flushExpired
  else (((m.afterCalls calls).noteExpired m.topGenerator).movementExpired true).flushExpired

end MotionMaster

inductive Label
  | call (c : Call)
  | updateMotion (held : Bool) (calls : List Call) (result : Bool)

def step (m : MotionMaster) : Label → MotionMaster
  | .call c => m.call c
  | .updateMotion held calls result => m.updateMotion held calls result

/-- The motion master of a unit whose default generator is the idle one, or one of its own. -/
def start (idleByDefault : Bool) : MotionMaster := ({ idleByDefault := idleByDefault } : MotionMaster).initializeAll

/-!
## What the motion master keeps

The slots are filled up to the top, the bottom one always, and every generator
that was made is in one slot, in the list of the expired ones, or deleted.
-/

namespace MotionMaster

structure Stacked (m : MotionMaster) : Prop where
  bottom : (m.slot 0).isSome
  filled : 0 < m.size
  few : m.size ≤ maxMotionSlot
  top : m.top.isSome
  above : ∀ i, m.size ≤ i → m.slot i = none
  statics : ∀ i occupant, m.slot i = some occupant → occupant.generator.isStatic → i = 0
  flags : ∀ i occupant, m.slot i = some occupant → occupant.initialized = !m.initFlag i

def TopReady (m : MotionMaster) : Prop := ∀ occupant, m.top = some occupant → occupant.initialized = true

/-! ## Where a generator is -/

def weigh (g : Generator) (id : Nat) : Nat := if g = .made id then 1 else 0

def weighSlot (occupant : Option Occupant) (id : Nat) : Nat :=
  match occupant with
  | some occupant => weigh occupant.generator id
  | none => 0

def held (slot : Nat → Option Occupant) (id : Nat) : Nat :=
  weighSlot (slot 0) id + weighSlot (slot 1) id + weighSlot (slot 2) id

def pending (m : MotionMaster) (id : Nat) : Nat := (m.expireList.getD []).count (.made id)

def deleted (m : MotionMaster) (id : Nat) : Nat := (m.deletions.map Prod.fst).count (.made id)

def total (m : MotionMaster) (id : Nat) : Nat := held m.slot id + m.pending id + m.deleted id

theorem weigh_static {g : Generator} (h : g.isStatic) (id : Nat) : weigh g id = 0 := by
  cases g with
  | idleMovement => rfl
  | made j => cases h

theorem held_update (slot : Nat → Option Occupant) {i : Nat} (hi : i < maxMotionSlot) (occupant : Option Occupant)
    (id : Nat) : held (Function.update slot i occupant) id + weighSlot (slot i) id =
      held slot id + weighSlot occupant id := by
  have hCases : i = 0 ∨ i = 1 ∨ i = 2 := by
    rw [maxMotionSlot] at hi
    omega
  rcases hCases with rfl | rfl | rfl
  · simp only [held, Function.update_self, Function.update_of_ne (show (1 : Nat) ≠ 0 by decide),
      Function.update_of_ne (show (2 : Nat) ≠ 0 by decide)]
    omega
  · simp only [held, Function.update_self, Function.update_of_ne (show (0 : Nat) ≠ 1 by decide),
      Function.update_of_ne (show (2 : Nat) ≠ 1 by decide)]
    omega
  · simp only [held, Function.update_self, Function.update_of_ne (show (0 : Nat) ≠ 2 by decide),
      Function.update_of_ne (show (1 : Nat) ≠ 2 by decide)]
    omega

/-! ## The top -/

section

variable {slot : Nat → Option Occupant}

theorem filledUpTo_le (n : Nat) : filledUpTo slot n ≤ n := by
  induction n with
  | zero => exact le_rfl
  | succ n ih =>
    rw [filledUpTo]
    split
    · exact Nat.le_succ_of_le ih
    · exact le_rfl

variable {n : Nat}

theorem filledUpTo_above {i : Nat} (hLow : filledUpTo slot n ≤ i) (hi : i < n) : slot i = none := by
  induction n with
  | zero => exact absurd hi (Nat.not_lt_zero i)
  | succ n ih =>
    rw [filledUpTo] at hLow
    split at hLow
    · rename_i hNone
      rcases Nat.lt_succ_iff_lt_or_eq.mp hi with hLess | rfl
      · exact ih hLow hLess
      · exact Option.isNone_iff_eq_none.mp hNone
    · exact absurd hi (Nat.not_lt.mpr hLow)

theorem filledUpTo_top (h : 0 < filledUpTo slot n) : (slot (filledUpTo slot n - 1)).isSome := by
  induction n with
  | zero => exact absurd h (Nat.lt_irrefl 0)
  | succ n ih =>
    rw [filledUpTo] at h ⊢
    split
    · rename_i hNone
      rw [if_pos hNone] at h
      exact ih h
    · rename_i hSome
      rw [Nat.add_sub_cancel]
      rwa [Bool.not_eq_true, Option.isNone_eq_false_iff] at hSome

theorem filledUpTo_pos (hBottom : (slot 0).isSome) (hn : 0 < n) : 0 < filledUpTo slot n := by
  by_contra hZero
  have hNone := filledUpTo_above (i := 0) (Nat.le_of_not_lt hZero) hn
  rw [hNone] at hBottom
  cases hBottom

theorem filledUpTo_of_some (h : (slot n).isSome) : filledUpTo slot (n + 1) = n + 1 := by
  rw [filledUpTo, if_neg (by rwa [Bool.not_eq_true, Option.isNone_eq_false_iff])]

theorem filledUpTo_of_none (h : slot n = none) : filledUpTo slot (n + 1) ≤ n := by
  rw [filledUpTo, if_pos (by rw [h]; rfl)]
  exact filledUpTo_le n

end

theorem Stacked.settleTop_eq {m : MotionMaster} (h : m.Stacked) : m.settleTop = m := by
  have hSize : m.size = m.size - 1 + 1 := (Nat.sub_add_cancel h.filled).symm
  have hFilled : filledUpTo m.slot m.size = m.size := by
    rw [hSize]
    exact filledUpTo_of_some h.top
  rw [settleTop, hFilled]

structure Frame (m m' : MotionMaster) : Prop where
  nextId : m'.nextId = m.nextId
  updateFlag : m'.updateFlag = m.updateFlag
  running : m'.running = m.running
  expirations : m'.expirations = m.expirations

theorem Frame.refl (m : MotionMaster) : Frame m m := ⟨rfl, rfl, rfl, rfl⟩

theorem Frame.trans {m₁ m₂ m₃ : MotionMaster} (h : Frame m₁ m₂) (h' : Frame m₂ m₃) : Frame m₁ m₃ :=
  ⟨h'.nextId.trans h.nextId, h'.updateFlag.trans h.updateFlag, h'.running.trans h.running,
    h'.expirations.trans h.expirations⟩

section

variable {m : MotionMaster}

theorem Stacked.pop_eq (h : m.Stacked) :
    m.pop = { m with slot := Function.update m.slot (m.size - 1) none }.settleTop := by
  have hSome : m.empty = false := decide_eq_false h.filled.ne'
  rw [pop, hSome]
  rfl

theorem Stacked.pop (h : m.Stacked) (hMore : 1 < m.size) : m.pop.Stacked ∧ m.pop.size < m.size := by
  rw [h.pop_eq]
  have hBottom : (Function.update m.slot (m.size - 1) none 0).isSome := by
    rw [Function.update_of_ne (by omega)]
    exact h.bottom
  have hSize : m.size = m.size - 1 + 1 := (Nat.sub_add_cancel h.filled).symm
  have hLess : filledUpTo (Function.update m.slot (m.size - 1) none) m.size ≤ m.size - 1 := by
    conv_lhs => rw [hSize]
    exact filledUpTo_of_none (Function.update_self ..)
  have hOld : ∀ i occupant, Function.update m.slot (m.size - 1) none i = some occupant → m.slot i = some occupant := by
    intro i occupant hSlot
    by_cases hTop : i = m.size - 1
    · rw [hTop, Function.update_self] at hSlot
      cases hSlot
    · rwa [Function.update_of_ne hTop] at hSlot
  have hPos := filledUpTo_pos hBottom h.filled
  refine ⟨⟨hBottom, hPos, ?_, filledUpTo_top hPos, fun i hi => ?_, ?_, ?_⟩, ?_⟩
  · exact le_trans (filledUpTo_le _) h.few
  · by_cases hInside : i < m.size
    · exact filledUpTo_above hi hInside
    · simp only [settleTop]
      rw [Function.update_of_ne (by omega)]
      exact h.above i (Nat.le_of_not_lt hInside)
  · exact fun i occupant hSlot => h.statics i occupant (hOld i occupant hSlot)
  · exact fun i occupant hSlot => h.flags i occupant (hOld i occupant hSlot)
  · simp only [settleTop]
    omega

theorem Stacked.pop_total (h : m.Stacked) (id : Nat) : m.pop.total id + weighSlot m.top id = m.total id := by
  rw [h.pop_eq]
  have hSome := h.filled
  have hFew := h.few
  have hHeld := held_update m.slot (show m.size - 1 < maxMotionSlot by omega) none id
  change held (Function.update m.slot (m.size - 1) none) id + m.pending id + m.deleted id + _ =
    held m.slot id + m.pending id + m.deleted id
  change _ + weighSlot m.top id = _ + 0 at hHeld
  omega

theorem pop_frame (m : MotionMaster) : Frame m m.pop ∧ m.pop.expireList = m.expireList ∧
    m.pop.deletions = m.deletions := by
  rw [MotionMaster.pop]
  split
  · exact ⟨Frame.refl m, rfl, rfl⟩
  · exact ⟨⟨rfl, rfl, rfl, rfl⟩, rfl, rfl⟩

end

/-! ## Deleting -/

/-- A way of deleting takes a generator over, and touches no slot. -/
structure Deletes (delete : MotionMaster → Generator → MotionMaster) : Prop where
  slot : ∀ m g, (delete m g).slot = m.slot
  size : ∀ m g, (delete m g).size = m.size
  initFlag : ∀ m g, (delete m g).initFlag = m.initFlag
  frame : ∀ m g, Frame m (delete m g)
  total : ∀ m g id, (delete m g).total id = m.total id + weigh g id

theorem count_weigh (g : Generator) (id : Nat) : [g].count (.made id) = weigh g id := by
  rw [List.count_singleton, weigh]
  simp only [beq_iff_eq]

theorem directDelete_deletes : Deletes directDelete := by
  refine ⟨fun m g => ?_, fun m g => ?_, fun m g => ?_, fun m g => ?_, fun m g id => ?_⟩
  · rw [directDelete]
    split <;> rfl
  · rw [directDelete]
    split <;> rfl
  · rw [directDelete]
    split <;> rfl
  · rw [directDelete]
    split <;> exact ⟨rfl, rfl, rfl, rfl⟩
  · rw [directDelete]
    split
    · rename_i hStatic
      rw [weigh_static hStatic, Nat.add_zero]
    · simp only [total, pending, deleted, List.map_append, List.map_cons, List.map_nil, List.count_append, count_weigh]
      omega

theorem delayedDelete_deletes : Deletes delayedDelete := by
  refine ⟨fun m g => ?_, fun m g => ?_, fun m g => ?_, fun m g => ?_, fun m g id => ?_⟩
  · rw [delayedDelete]
    split <;> rfl
  · rw [delayedDelete]
    split <;> rfl
  · rw [delayedDelete]
    split <;> rfl
  · rw [delayedDelete]
    split <;> exact ⟨rfl, rfl, rfl, rfl⟩
  · rw [delayedDelete]
    split
    · rename_i hStatic
      rw [weigh_static hStatic, Nat.add_zero]
    · simp only [total, pending, deleted, Option.getD_some, List.count_append, count_weigh]
      omega

section

variable {m : MotionMaster} {delete : MotionMaster → Generator → MotionMaster}

theorem Stacked.congr (h : m.Stacked) {m' : MotionMaster} (hSlot : m'.slot = m.slot) (hSize : m'.size = m.size)
    (hFlag : m'.initFlag = m.initFlag) : m'.Stacked := by
  obtain ⟨hBottom, hSome, hFew, hTop, hAbove, hStatics, hFlags⟩ := h
  refine ⟨by rwa [hSlot], by rwa [hSize], by rwa [hSize], ?_, ?_, ?_, ?_⟩
  · rwa [MotionMaster.top, hSlot, hSize]
  · rwa [hSlot, hSize]
  · rwa [hSlot]
  · rwa [hSlot, hFlag]

theorem Deletes.stacked (hDelete : Deletes delete) (h : m.Stacked) (g : Generator) : (delete m g).Stacked :=
  h.congr (hDelete.slot m g) (hDelete.size m g) (hDelete.initFlag m g)

theorem Stacked.exists_top (h : m.Stacked) : ∃ occupant, m.top = some occupant :=
  Option.isSome_iff_exists.mp h.top

theorem Stacked.popDelete (h : m.Stacked) (hDelete : Deletes delete) (hMore : 1 < m.size) :
    (m.popDelete delete).Stacked ∧ (m.popDelete delete).size < m.size ∧ Frame m (m.popDelete delete) ∧
      ∀ id, (m.popDelete delete).total id = m.total id := by
  obtain ⟨occupant, hTop⟩ := h.exists_top
  obtain ⟨hPop, hLess⟩ := h.pop hMore
  rw [MotionMaster.popDelete, hTop]
  refine ⟨hDelete.stacked hPop _, ?_, (pop_frame m).1.trans (hDelete.frame _ _), fun id => ?_⟩
  · rwa [hDelete.size]
  · rw [hDelete.total, ← h.pop_total id, hTop]
    rfl

theorem popWhile_stacked (hDelete : Deletes delete) {rounds : Nat} (h : m.Stacked) (hRounds : m.size ≤ rounds) :
    (popWhile delete 1 rounds m).Stacked ∧ (popWhile delete 1 rounds m).size = 1 ∧
      Frame m (popWhile delete 1 rounds m) ∧ ∀ id, (popWhile delete 1 rounds m).total id = m.total id := by
  induction rounds generalizing m with
  | zero => exact absurd h.filled (Nat.not_lt.mpr hRounds)
  | succ rounds ih =>
    rw [popWhile]
    split
    · rename_i hMore
      obtain ⟨hStacked, hLess, hFrame, hTotal⟩ := h.popDelete hDelete hMore
      obtain ⟨hAll, hOne, hLater, hSame⟩ := ih hStacked (by omega)
      exact ⟨hAll, hOne, hFrame.trans hLater, fun id => (hSame id).trans (hTotal id)⟩
    · have hSome := h.filled
      exact ⟨h, by omega, Frame.refl m, fun _ => rfl⟩

end

/-! ## Initialising the top -/

section

variable {m : MotionMaster}

theorem Stacked.initTop (h : m.Stacked) :
    m.initTop.Stacked ∧ m.initTop.TopReady ∧ ∀ id, m.initTop.total id = m.total id := by
  obtain ⟨occupant, hTop⟩ := h.exists_top
  have hFilled := h.filled
  have hFew := h.few
  have hSlot : m.initTop.slot = Function.update m.slot (m.size - 1) (some ⟨occupant.generator, true⟩) := by
    rw [MotionMaster.initTop, hTop]
    rfl
  have hNew : m.initTop.top = some ⟨occupant.generator, true⟩ := by
    rw [MotionMaster.top, hSlot]
    exact Function.update_self ..
  refine ⟨⟨?_, h.filled, h.few, by rw [hNew]; rfl, fun i hi => ?_, fun i other hOther => ?_, fun i other hOther => ?_⟩,
    fun other hOther => ?_, fun id => ?_⟩
  · rw [hSlot]
    by_cases hBottom : 0 = m.size - 1
    · rw [← hBottom, Function.update_self]
      rfl
    · rw [Function.update_of_ne hBottom]
      exact h.bottom
  · change m.size ≤ i at hi
    rw [hSlot, Function.update_of_ne (by omega)]
    exact h.above i hi
  · rw [hSlot] at hOther
    by_cases hHere : i = m.size - 1
    · rw [hHere, Function.update_self] at hOther
      obtain rfl := Option.some.inj hOther
      exact fun hStatic => h.statics i occupant (hHere ▸ hTop) hStatic
    · rw [Function.update_of_ne hHere] at hOther
      exact h.statics i other hOther
  · change other.initialized = !Function.update m.initFlag (m.size - 1) false i
    rw [hSlot] at hOther
    by_cases hHere : i = m.size - 1
    · rw [hHere, Function.update_self] at hOther ⊢
      obtain rfl := Option.some.inj hOther
      rfl
    · rw [Function.update_of_ne hHere] at hOther ⊢
      exact h.flags i other hOther
  · rw [hNew] at hOther
    obtain rfl := Option.some.inj hOther
    rfl
  · have hHeld := held_update m.slot (show m.size - 1 < maxMotionSlot by omega) (some ⟨occupant.generator, true⟩) id
    change _ + weighSlot m.top id = _ at hHeld
    rw [hTop] at hHeld
    change held m.initTop.slot id + m.pending id + m.deleted id = held m.slot id + m.pending id + m.deleted id
    rw [hSlot]
    change _ + weigh occupant.generator id = _ + weigh occupant.generator id at hHeld
    omega

theorem Stacked.freshenTop (h : m.Stacked) (reset : Bool) :
    (m.freshenTop reset).Stacked ∧ (m.freshenTop reset).TopReady ∧
    ∀ id, (m.freshenTop reset).total id = m.total id := by
  rw [MotionMaster.freshenTop]
  split
  · exact h.initTop
  · rename_i hDone
    have hReady : m.TopReady := by
      intro occupant hTop
      have hSome : m.empty = false := decide_eq_false h.filled.ne'
      rw [needInitTop, hSome, Bool.not_false, Bool.true_and, Bool.not_eq_true] at hDone
      rw [h.flags (m.size - 1) occupant hTop, hDone]
      rfl
    split
    · exact ⟨h.congr rfl rfl rfl, hReady, fun _ => rfl⟩
    · exact ⟨h, hReady, fun _ => rfl⟩

theorem freshenTop_frame (m : MotionMaster) (reset : Bool) : Frame m (m.freshenTop reset) ∧
    (m.freshenTop reset).expireList = m.expireList ∧ (m.freshenTop reset).deletions = m.deletions := by
  rw [MotionMaster.freshenTop]
  split
  · exact ⟨⟨rfl, rfl, rfl, rfl⟩, rfl, rfl⟩
  · split <;> exact ⟨⟨rfl, rfl, rfl, rfl⟩, rfl, rfl⟩

end

/-! ## Placing -/

section

variable {m : MotionMaster}

theorem Stacked.vacate (h : m.Stacked) {slot : Nat} (hSlot : slot < maxMotionSlot) :
    (m.vacate slot).slot = Function.update m.slot slot none ∧ (m.vacate slot).size = max m.size (slot + 1) ∧
      (m.vacate slot).initFlag = m.initFlag ∧ Frame m (m.vacate slot) ∧ ∀ id, (m.vacate slot).total id = m.total id := by
  rw [MotionMaster.vacate]
  split
  · rename_i curr hCurr
    have hInside : slot + 1 ≤ m.size := by
      by_contra hOutside
      rw [h.above slot (by omega)] at hCurr
      cases hCurr
    have hKept : ∀ delete, Deletes delete →
        (delete { m with slot := Function.update m.slot slot none } curr.generator).slot = Function.update m.slot slot none ∧
        (delete { m with slot := Function.update m.slot slot none } curr.generator).size = max m.size (slot + 1) ∧
        (delete { m with slot := Function.update m.slot slot none } curr.generator).initFlag = m.initFlag ∧
        Frame m (delete { m with slot := Function.update m.slot slot none } curr.generator) ∧
        ∀ id, (delete { m with slot := Function.update m.slot slot none } curr.generator).total id = m.total id := by
      intro delete hDelete
      obtain ⟨hNextId, hUpdate, hRunning, hExpirations⟩ :=
        hDelete.frame { m with slot := Function.update m.slot slot none } curr.generator
      refine ⟨hDelete.slot _ _, ?_, hDelete.initFlag _ _, ⟨hNextId, hUpdate, hRunning, hExpirations⟩, fun id => ?_⟩
      · rw [hDelete.size]
        exact (max_eq_left hInside).symm
      · rw [hDelete.total]
        have hHeld := held_update m.slot hSlot none id
        rw [hCurr] at hHeld
        change _ + weigh curr.generator id = _ + 0 at hHeld
        change held (Function.update m.slot slot none) id + m.pending id + m.deleted id + _ =
          held m.slot id + m.pending id + m.deleted id
        omega
    split
    · exact hKept _ delayedDelete_deletes
    · exact hKept _ directDelete_deletes
  · rename_i hNone
    have hSame : Function.update m.slot slot none = m.slot := by
      rw [← hNone, Function.update_eq_self]
    rw [hSame]
    split
    · rename_i hLow
      exact ⟨rfl, (max_eq_right (le_of_lt hLow)).symm, rfl, ⟨rfl, rfl, rfl, rfl⟩, fun _ => rfl⟩
    · rename_i hHigh
      exact ⟨rfl, (max_eq_left (Nat.le_of_not_lt hHigh)).symm, rfl, Frame.refl m, fun _ => rfl⟩

theorem Stacked.mutate (h : m.Stacked) {slot : Nat} (hSlot : slot < maxMotionSlot) {generator : Generator}
    (hStatic : generator.isStatic → slot = 0) :
    (m.mutate generator slot).Stacked ∧ (m.TopReady → (m.mutate generator slot).TopReady) ∧
      Frame m (m.mutate generator slot) ∧ ∀ id, (m.mutate generator slot).total id = m.total id + weigh generator id := by
  obtain ⟨hVacant, hSize, hFlag, hFrame, hTotal⟩ := h.vacate hSlot
  have hFilled := h.filled
  have hFew := h.few
  have hNew : (m.mutate generator slot).slot =
      Function.update m.slot slot (some ⟨generator, decide (max m.size (slot + 1) ≤ slot + 1)⟩) := by
    rw [MotionMaster.mutate, place, hVacant, hSize, Function.update_idem]
  have hNewSize : (m.mutate generator slot).size = max m.size (slot + 1) := hSize
  have hNewFlag : (m.mutate generator slot).initFlag =
      Function.update m.initFlag slot (decide (slot + 1 < max m.size (slot + 1))) := by
    rw [MotionMaster.mutate, place, hFlag, hSize]
  have hOther : ∀ i occupant, i ≠ slot → (m.mutate generator slot).slot i = some occupant → m.slot i = some occupant := by
    intro i occupant hNe hSome
    rwa [hNew, Function.update_of_ne hNe] at hSome
  have hHere : (m.mutate generator slot).slot slot =
      some ⟨generator, decide (max m.size (slot + 1) ≤ slot + 1)⟩ := by
    rw [hNew, Function.update_self]
  have hTop : (m.mutate generator slot).top =
      if m.size ≤ slot + 1 then some ⟨generator, true⟩ else m.top := by
    rw [MotionMaster.top, hNewSize]
    split
    · rename_i hHigh
      rw [max_eq_right hHigh, Nat.add_sub_cancel, hHere, max_eq_right hHigh, decide_eq_true le_rfl]
    · rename_i hLow
      rw [max_eq_left (by omega), hNew, Function.update_of_ne (by omega)]
      rfl
  refine ⟨⟨?_, by omega, by omega, ?_, fun i hi => ?_, fun i occupant hSome => ?_, fun i occupant hSome => ?_⟩,
    fun hReady occupant hSome => ?_, hFrame.trans ⟨rfl, rfl, rfl, rfl⟩, fun id => ?_⟩
  · by_cases hBottom : 0 = slot
    · rw [hBottom, hHere]
      rfl
    · rw [hNew, Function.update_of_ne hBottom]
      exact h.bottom
  · rw [hTop]
    split
    · rfl
    · exact h.top
  · rw [hNewSize] at hi
    rw [hNew, Function.update_of_ne (by omega)]
    exact h.above i (by omega)
  · intro hIdle
    by_cases hSame : i = slot
    · rw [hSame, hHere] at hSome
      obtain rfl := Option.some.inj hSome
      rw [hSame]
      exact hStatic hIdle
    · exact h.statics i occupant (hOther i occupant hSame hSome) hIdle
  · rw [hNewFlag]
    by_cases hSame : i = slot
    · rw [hSame, hHere] at hSome
      obtain rfl := Option.some.inj hSome
      rw [hSame, Function.update_self, ← decide_not, decide_eq_decide]
      omega
    · rw [Function.update_of_ne hSame]
      exact h.flags i occupant (hOther i occupant hSame hSome)
  · rw [hTop] at hSome
    split at hSome
    · obtain rfl := Option.some.inj hSome
      rfl
    · exact hReady occupant hSome
  · have hHeld := held_update (m.vacate slot).slot hSlot
      (some ⟨generator, decide ((m.vacate slot).size ≤ slot + 1)⟩) id
    rw [hVacant, Function.update_self] at hHeld
    rw [← hTotal id]
    change held (Function.update (m.vacate slot).slot slot _) id + (m.vacate slot).pending id + (m.vacate slot).deleted id =
      held (m.vacate slot).slot id + (m.vacate slot).pending id + (m.vacate slot).deleted id + _
    rw [hVacant]
    change _ + 0 = _ + weigh generator id at hHeld
    omega

end

end MotionMaster

end AshamaneCore.Motion
