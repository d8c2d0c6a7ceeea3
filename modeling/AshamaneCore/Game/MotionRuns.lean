import AshamaneCore.Game.MotionMaster

/-!
# Runs of the motion master

The updated generator is deleted during its own update when its slot is used
again while another one is on top, and another one is expired in its place when
it is not on top at the end of a failed update.
-/

namespace AshamaneCore.Motion

open Library.Transition

namespace MotionMaster

def Clean (m : MotionMaster) : Prop := ∀ d ∈ m.deletions, d.2 ≠ some d.1

/-- After a failed update that generator was expired whose update failed. -/
def ExpiresOwn (m : MotionMaster) : Prop := ∀ e ∈ m.expirations, e.1 = e.2

/-- The slots are filled up to an initialised top, and every generator is in a slot, or was
finalized and deleted once and not during its own update. -/
structure Sound (m : MotionMaster) : Prop where
  bottom : (m.slot 0).isSome
  filled : 0 < m.size
  top : ∃ occupant, m.slot (m.size - 1) = some occupant ∧ occupant.initialized = true
  above : ∀ i, m.size ≤ i → m.slot i = none
  once : ∀ id < m.nextId,
    (∃ i occupant, m.slot i = some occupant ∧ occupant.generator = .made id) ∧ m.deleted id = 0 ∨
    (∀ i occupant, m.slot i = some occupant → occupant.generator ≠ .made id) ∧ m.deleted id = 1
  clean : m.Clean
  expiresOwn : m.ExpiresOwn

/-- The slot may be used again: the generator in it is not the updated one, or is on top. -/
def Safe (m : MotionMaster) (slot : Nat) : Prop :=
  ∀ occupant, m.slot slot = some occupant → occupant.generator.isStatic = false →
    m.running = some occupant.generator → m.size = slot + 1

def ReplacesSafely (m : MotionMaster) : Call → Prop
  | .mutate slot => m.Safe slot
  | .mutateIdle => m.Safe 0
  | .clear _ => True
  | .movementExpired _ => True

/-- Along the calls of an update the updated generator is replaced on top only, and when the
update fails it is still the top one, or only the bottom slot is left. -/
def Proper (m : MotionMaster) : Label → Prop
  | .call _ => True
  | .updateMotion held calls result => held = true ∨
      Along call ReplacesSafely m.beginUpdate calls ∧
        (result = false → (m.afterCalls calls).size ≤ 1 ∨ (m.afterCalls calls).topGenerator = m.topGenerator)

structure Formed (m : MotionMaster) : Prop extends Stacked m where
  account : ∀ id, m.total id = if id < m.nextId then 1 else 0
  ready : m.expireList = none → m.TopReady
  owned : m.updateFlag = false → m.running = none

structure Quiet (m : MotionMaster) : Prop extends Formed m where
  outside : m.updateFlag = false
  none : m.expireList = none

/-! ## Which deletions are made -/

section

variable {m : MotionMaster}

theorem directDelete_clean {g : Generator} :
    (m.directDelete g).Clean ↔ m.Clean ∧ (g.isStatic = false → m.running ≠ some g) := by
  rw [directDelete]
  split
  · rename_i hStatic
    rw [hStatic]
    exact ⟨fun h => ⟨h, fun hMade => Bool.noConfusion hMade⟩, And.left⟩
  · rename_i hMade
    rw [Bool.not_eq_true] at hMade
    simp only [Clean, List.mem_append, List.mem_singleton, or_imp, forall_and, forall_eq, hMade, true_implies]

theorem delayedDelete_kept (m : MotionMaster) (g : Generator) : (m.delayedDelete g).deletions = m.deletions ∧
    (m.expireList.isSome → (m.delayedDelete g).expireList.isSome) ∧
    (g.isStatic = false → (m.delayedDelete g).expireList.isSome) := by
  rw [delayedDelete]
  split
  · rename_i hStatic
    rw [hStatic]
    exact ⟨rfl, id, fun hMade => Bool.noConfusion hMade⟩
  · exact ⟨rfl, fun _ => rfl, fun _ => rfl⟩

theorem directDelete_expireList (m : MotionMaster) (g : Generator) : (m.directDelete g).expireList = m.expireList := by
  rw [directDelete]
  split <;> rfl

theorem popDelete_delayed (m : MotionMaster) : (m.popDelete delayedDelete).deletions = m.deletions ∧
    (m.expireList.isSome → (m.popDelete delayedDelete).expireList.isSome) := by
  obtain ⟨-, hList, hDeletions⟩ := pop_frame m
  rw [popDelete]
  split
  · rename_i curr _
    obtain ⟨hKept, hSome, -⟩ := delayedDelete_kept m.pop curr.generator
    exact ⟨hKept.trans hDeletions, fun h => hSome (hList ▸ h)⟩
  · exact ⟨hDeletions, fun h => hList ▸ h⟩

theorem popDelete_direct (m : MotionMaster) (hOutside : m.running = none) :
    ((m.popDelete directDelete).Clean ↔ m.Clean) ∧ (m.popDelete directDelete).expireList = m.expireList ∧
      (m.popDelete directDelete).running = none := by
  obtain ⟨hFrame, hList, hDeletions⟩ := pop_frame m
  have hRunning : m.pop.running = none := hFrame.running.trans hOutside
  have hSame : m.pop.Clean ↔ m.Clean := by
    rw [Clean, Clean, hDeletions]
  rw [popDelete]
  split
  · rename_i curr _
    refine ⟨?_, (directDelete_expireList _ _).trans hList, ((directDelete_deletes.frame _ _).running).trans hRunning⟩
    rw [directDelete_clean, hSame, hRunning]
    exact ⟨And.left, fun h => ⟨h, fun _ hNone => absurd hNone.symm (Option.some_ne_none _)⟩⟩
  · exact ⟨hSame, hList, hRunning⟩

theorem popWhile_delayed (left rounds : Nat) (m : MotionMaster) :
    (popWhile delayedDelete left rounds m).deletions = m.deletions ∧
      (m.expireList.isSome → (popWhile delayedDelete left rounds m).expireList.isSome) := by
  induction rounds generalizing m with
  | zero => exact ⟨rfl, id⟩
  | succ rounds ih =>
    rw [popWhile]
    split
    · obtain ⟨hKept, hSome⟩ := popDelete_delayed m
      obtain ⟨hLater, hStill⟩ := ih (m.popDelete delayedDelete)
      exact ⟨hLater.trans hKept, fun h => hStill (hSome h)⟩
    · exact ⟨rfl, id⟩

theorem popWhile_direct (left rounds : Nat) (m : MotionMaster) (hOutside : m.running = none) :
    ((popWhile directDelete left rounds m).Clean ↔ m.Clean) ∧
      (popWhile directDelete left rounds m).expireList = m.expireList := by
  induction rounds generalizing m with
  | zero => exact ⟨Iff.rfl, rfl⟩
  | succ rounds ih =>
    rw [popWhile]
    split
    · obtain ⟨hClean, hList, hRunning⟩ := popDelete_direct m hOutside
      obtain ⟨hLater, hSame⟩ := ih _ hRunning
      exact ⟨hLater.trans hClean, hSame.trans hList⟩
    · exact ⟨Iff.rfl, rfl⟩

theorem Stacked.popDelete_listed (h : m.Stacked) (hMore : 1 < m.size) :
    (m.popDelete delayedDelete).expireList.isSome := by
  obtain ⟨occupant, hTop⟩ := h.exists_top
  rw [MotionMaster.popDelete, hTop]
  have hMade : occupant.generator.isStatic = false := by
    by_contra hStatic
    rw [Bool.not_eq_false] at hStatic
    have hZero := h.statics (m.size - 1) occupant hTop hStatic
    omega
  exact (delayedDelete_kept _ _).2.2 hMade

theorem Stacked.popWhile_unlisted (h : m.Stacked) {rounds : Nat}
    (hNone : (popWhile delayedDelete 1 rounds m).expireList = .none) : popWhile delayedDelete 1 rounds m = m := by
  cases rounds with
  | zero => rfl
  | succ rounds =>
    rw [popWhile] at hNone ⊢
    split
    · rename_i hMore
      rw [if_pos hMore] at hNone
      have hListed := (popWhile_delayed 1 rounds _).2 (h.popDelete_listed hMore)
      rw [hNone] at hListed
      cases hListed
    · rfl

theorem vacate_clean (hOwned : m.updateFlag = false → m.running = none) (slot : Nat) :
    ((m.vacate slot).Clean ↔ m.Clean ∧ m.Safe slot) ∧
      (m.expireList.isSome → (m.vacate slot).expireList.isSome) ∧
      (m.updateFlag = false → (m.vacate slot).expireList = m.expireList) := by
  rw [vacate]
  split
  · rename_i curr hCurr
    split
    · rename_i hDelayed
      obtain ⟨hKept, hSome, -⟩ := delayedDelete_kept { m with slot := Function.update m.slot slot none } curr.generator
      refine ⟨?_, hSome, fun hFlag => ?_⟩
      · rw [Clean, hKept]
        exact ⟨fun h => ⟨h, fun _ _ _ _ => hDelayed.1⟩, And.left⟩
      · rw [hFlag] at hDelayed
        exact Bool.noConfusion hDelayed.2
    · rename_i hDirect
      have hList := directDelete_expireList { m with slot := Function.update m.slot slot none } curr.generator
      refine ⟨?_, (fun h => by rw [hList]; exact h), fun _ => hList⟩
      rw [directDelete_clean]
      refine and_congr Iff.rfl ⟨fun h occupant hSlot hMade hRunning => ?_, fun h hMade hRunning => ?_⟩
      · obtain rfl := Option.some.inj (hSlot.symm.trans hCurr)
        exact absurd hRunning (h hMade)
      · have hTop := h curr hCurr hMade hRunning
        refine hDirect ⟨hTop, ?_⟩
        by_contra hFlag
        have hNone := hOwned ((Bool.not_eq_true _).mp hFlag)
        exact absurd (hNone.symm.trans hRunning) (by simp)
  · rename_i hNone
    have hSafe : m.Safe slot := fun occupant hSlot =>
      absurd (hSlot.symm.trans hNone) (Option.some_ne_none occupant)
    split
    · exact ⟨⟨fun h => ⟨h, hSafe⟩, And.left⟩, id, fun _ => rfl⟩
    · exact ⟨⟨fun h => ⟨h, hSafe⟩, And.left⟩, id, fun _ => rfl⟩

end

/-! ## Calls -/

/-- What a call leads to: the motion master is formed again, and clean when the call was safe. -/
structure Called (m m' : MotionMaster) (safe : Prop) : Prop where
  formed : m'.Formed
  updateFlag : m'.updateFlag = m.updateFlag
  running : m'.running = m.running
  expirations : m'.expirations = m.expirations
  clean : m'.Clean ↔ m.Clean ∧ safe
  unlisted : m.updateFlag = false → m'.expireList = m.expireList

section

variable {m : MotionMaster}

theorem Formed.mutate (h : m.Formed) {slot : Nat} (hSlot : slot < maxMotionSlot) {generator : Generator}
    (hStatic : generator.isStatic → slot = 0) (nextId : Nat)
    (hAccount : ∀ id, m.total id + weigh generator id = if id < nextId then 1 else 0) :
    Called m ({ m with nextId := nextId }.mutate generator slot) (m.Safe slot) := by
  have hStacked : ({ m with nextId := nextId } : MotionMaster).Stacked := h.toStacked.congr rfl rfl rfl
  obtain ⟨hAfter, hReady, hFrame, hTotal⟩ := hStacked.mutate hSlot hStatic
  have hOwned : ({ m with nextId := nextId } : MotionMaster).updateFlag = false →
      ({ m with nextId := nextId } : MotionMaster).running = .none := h.owned
  obtain ⟨hClean, hListed, hKept⟩ := vacate_clean hOwned slot
  refine ⟨⟨hAfter, fun id => ?_, fun hNone => hReady (h.ready ?_), fun hFlag => ?_⟩, hFrame.updateFlag, hFrame.running,
    hFrame.expirations, hClean, hKept⟩
  · rw [hTotal, hFrame.nextId]
    exact hAccount id
  · by_contra hSome
    have hStill := hListed (Option.isSome_iff_ne_none.mpr hSome)
    change (vacate _ slot).expireList = .none at hNone
    rw [hNone] at hStill
    cases hStill
  · rw [hFrame.updateFlag] at hFlag
    exact hFrame.running.trans (h.owned hFlag)

theorem Formed.mutateMade (h : m.Formed) {slot : Nat} (hSlot : slot < maxMotionSlot) :
    Called m (m.mutateMade slot) (m.Safe slot) := by
  have hStatic : (Generator.made m.nextId).isStatic → slot = 0 := fun hMade => nomatch hMade
  refine h.mutate hSlot hStatic (m.nextId + 1) fun id => ?_
  rw [h.account, weigh]
  by_cases hSame : m.nextId = id
  · rw [hSame, if_neg (Nat.lt_irrefl id), if_pos rfl, if_pos (Nat.lt_succ_self id)]
  · have hNe : Generator.made m.nextId ≠ .made id := fun hEq => hSame (Generator.made.inj hEq)
    rw [if_neg hNe, Nat.add_zero]
    by_cases hLess : id < m.nextId
    · rw [if_pos hLess, if_pos (Nat.lt_succ_of_lt hLess)]
    · rw [if_neg hLess, if_neg (by omega)]

theorem Formed.mutateIdle (h : m.Formed) : Called m (m.mutate .idleMovement 0) (m.Safe 0) :=
  h.mutate (by decide) (fun _ => rfl) m.nextId fun id => h.account id

theorem Formed.removed (h : m.Formed) {m' : MotionMaster} (hStacked : m'.Stacked) (hFrame : Frame m m')
    (hTotal : ∀ id, m'.total id = m.total id) (hReady : m'.expireList = .none → m'.TopReady) : m'.Formed := by
  refine ⟨hStacked, fun id => ?_, hReady, fun hFlag => ?_⟩
  · rw [hTotal, hFrame.nextId]
    exact h.account id
  · rw [hFrame.updateFlag] at hFlag
    exact hFrame.running.trans (h.owned hFlag)

theorem not_empty_of_filled (h : 0 < m.size) : m.empty = false := decide_eq_false h.ne'

theorem Formed.directClean (h : m.Formed) (hOutside : m.updateFlag = false) (reset : Bool) :
    Called m (m.directClean reset) True := by
  obtain ⟨hStacked, hOne, hFrame, hTotal⟩ := popWhile_stacked directDelete_deletes h.toStacked le_rfl
  obtain ⟨hClean, hList⟩ := popWhile_direct 1 m.size m (h.owned hOutside)
  obtain ⟨hFresh, hReady, hSame⟩ := hStacked.freshenTop reset
  obtain ⟨hFrame', hList', hDeletions⟩ := freshenTop_frame (popWhile directDelete 1 m.size m) reset
  have hEq : m.directClean reset = (popWhile directDelete 1 m.size m).freshenTop reset := by
    rw [MotionMaster.directClean, not_empty_of_filled hStacked.filled]
    rfl
  have hBoth := hFrame.trans hFrame'
  rw [hEq]
  refine ⟨h.removed hFresh hBoth (fun id => (hSame id).trans (hTotal id)) fun _ => hReady, hBoth.updateFlag,
    hBoth.running, hBoth.expirations, ?_, fun _ => hList'.trans hList⟩
  rw [and_true, ← hClean, Clean, Clean, hDeletions]

theorem Formed.delayedClean (h : m.Formed) : m.delayedClean.Formed ∧ Frame m m.delayedClean ∧
    m.delayedClean.deletions = m.deletions := by
  obtain ⟨hStacked, hOne, hFrame, hTotal⟩ := popWhile_stacked delayedDelete_deletes h.toStacked le_rfl
  refine ⟨h.removed hStacked hFrame hTotal fun hNone => ?_, hFrame, (popWhile_delayed 1 m.size m).1⟩
  have hSame : m.delayedClean = m := h.popWhile_unlisted hNone
  rw [hSame] at hNone
  change m.delayedClean.TopReady
  rw [hSame]
  exact h.ready hNone

theorem Formed.withReset (h : m.Formed) (reset : Bool) : ({ m with resetFlag := reset } : MotionMaster).Formed :=
  ⟨h.toStacked.congr rfl rfl rfl, h.account, h.ready, h.owned⟩

theorem Formed.clear (h : m.Formed) (reset : Bool) : Called m (m.clear reset) True := by
  rw [MotionMaster.clear]
  split
  · rename_i hUpdating
    obtain ⟨hFormed, hFrame, hDeletions⟩ := (h.withReset reset).delayedClean
    refine ⟨hFormed, hFrame.updateFlag, hFrame.running, hFrame.expirations, ?_, fun hFlag => ?_⟩
    · rw [and_true, Clean, Clean, hDeletions]
    · rw [hFlag] at hUpdating
      cases hUpdating
  · rename_i hOutside
    exact h.directClean ((Bool.not_eq_true _).mp hOutside) reset

theorem Stacked.expireTop (h : m.Stacked) {delete : MotionMaster → Generator → MotionMaster}
    (hDelete : Deletes delete) :
    m.expireTop delete = (if 1 < m.size then m.popDelete delete else m) ∧ (m.expireTop delete).Stacked ∧
      Frame m (m.expireTop delete) ∧ ∀ id, (m.expireTop delete).total id = m.total id := by
  rw [MotionMaster.expireTop]
  split
  · rename_i hMore
    obtain ⟨hStacked, -, hFrame, hTotal⟩ := h.popDelete hDelete hMore
    rw [hStacked.settleTop_eq]
    exact ⟨rfl, hStacked, hFrame, hTotal⟩
  · rw [h.settleTop_eq]
    exact ⟨rfl, h, Frame.refl m, fun _ => rfl⟩

theorem Formed.directExpire (h : m.Formed) (hOutside : m.updateFlag = false) (reset : Bool) :
    Called m (m.directExpire reset) True := by
  obtain ⟨hEq, hStacked, hFrame, hTotal⟩ := h.toStacked.expireTop directDelete_deletes
  have hOut : ((m.expireTop directDelete).Clean ↔ m.Clean) ∧ (m.expireTop directDelete).expireList = m.expireList := by
    rw [hEq]
    split
    · obtain ⟨hClean, hList, -⟩ := popDelete_direct m (h.owned hOutside)
      exact ⟨hClean, hList⟩
    · exact ⟨Iff.rfl, rfl⟩
  obtain ⟨hFresh, hReady, hSame⟩ := hStacked.freshenTop reset
  obtain ⟨hFrame', hList', hDeletions⟩ := freshenTop_frame (m.expireTop directDelete) reset
  have hBoth := hFrame.trans hFrame'
  rw [MotionMaster.directExpire, not_empty_of_filled hStacked.filled, if_neg Bool.false_ne_true]
  refine ⟨h.removed hFresh hBoth (fun id => (hSame id).trans (hTotal id)) fun _ => hReady, hBoth.updateFlag,
    hBoth.running, hBoth.expirations, ?_, fun _ => hList'.trans hOut.2⟩
  rw [and_true, ← hOut.1, Clean, Clean, hDeletions]

theorem Formed.delayedExpire (h : m.Formed) : m.delayedExpire.Formed ∧ Frame m m.delayedExpire ∧
    m.delayedExpire.deletions = m.deletions := by
  obtain ⟨hEq, hStacked, hFrame, hTotal⟩ := h.toStacked.expireTop delayedDelete_deletes
  have hOut : (m.delayedExpire.expireList = .none → m.delayedExpire.TopReady) ∧
      m.delayedExpire.deletions = m.deletions := by
    rw [MotionMaster.delayedExpire, hEq]
    split
    · rename_i hMore
      refine ⟨fun hNone => ?_, (popDelete_delayed m).1⟩
      have hListed := h.toStacked.popDelete_listed hMore
      rw [hNone] at hListed
      cases hListed
    · exact ⟨h.ready, rfl⟩
  exact ⟨h.removed hStacked hFrame hTotal hOut.1, hFrame, hOut.2⟩

theorem Formed.movementExpired (h : m.Formed) (reset : Bool) : Called m (m.movementExpired reset) True := by
  rw [MotionMaster.movementExpired]
  split
  · rename_i hUpdating
    obtain ⟨hFormed, hFrame, hDeletions⟩ := (h.withReset reset).delayedExpire
    refine ⟨hFormed, hFrame.updateFlag, hFrame.running, hFrame.expirations, ?_, fun hFlag => ?_⟩
    · rw [and_true, Clean, Clean, hDeletions]
    · rw [hFlag] at hUpdating
      cases hUpdating
  · rename_i hOutside
    exact h.directExpire ((Bool.not_eq_true _).mp hOutside) reset

theorem Formed.call (h : m.Formed) (c : Call) : Called m (m.call c) (m.ReplacesSafely c) := by
  cases c with
  | mutate slot => exact h.mutateMade slot.isLt
  | mutateIdle => exact h.mutateIdle
  | clear reset => exact h.clear reset
  | movementExpired reset => exact h.movementExpired reset

theorem Formed.calls (h : m.Formed) (calls : List Call) :
    Called m (run MotionMaster.call m calls) (Along MotionMaster.call ReplacesSafely m calls) := by
  induction calls generalizing m with
  | nil => exact ⟨h, rfl, rfl, rfl, (iff_of_eq (and_true _)).symm, fun _ => rfl⟩
  | cons c calls ih =>
    obtain ⟨hFormed, hFlag, hRunning, hExpirations, hClean, hUnlisted⟩ := h.call c
    obtain ⟨hLater, hFlag', hRunning', hExpirations', hClean', hUnlisted'⟩ := ih hFormed
    refine ⟨hLater, hFlag'.trans hFlag, hRunning'.trans hRunning, hExpirations'.trans hExpirations, ?_, fun hOutside => ?_⟩
    · rw [run_cons, hClean', hClean, Along, and_assoc]
    · exact (hUnlisted' (hFlag.trans hOutside)).trans (hUnlisted hOutside)

end

/-! ## Updates -/

section

variable {m : MotionMaster}

theorem Quiet.beginUpdate (h : m.Quiet) : m.beginUpdate.Formed :=
  ⟨h.toStacked.congr rfl rfl rfl, h.account, h.ready, fun hFlag => nomatch hFlag⟩

theorem Quiet.afterCalls (h : m.Quiet) (calls : List Call) :
    (m.afterCalls calls).Formed ∧ (m.afterCalls calls).updateFlag = false ∧
      (m.afterCalls calls).expirations = m.expirations ∧
      ((m.afterCalls calls).Clean ↔ m.Clean ∧ Along MotionMaster.call ReplacesSafely m.beginUpdate calls) := by
  obtain ⟨hFormed, -, -, hExpirations, hClean, -⟩ := h.beginUpdate.calls calls
  exact ⟨⟨hFormed.toStacked.congr rfl rfl rfl, hFormed.account, hFormed.ready, fun _ => rfl⟩, rfl, hExpirations, hClean⟩

theorem noteExpired_fields (m : MotionMaster) (updated : Option Generator) :
    (m.noteExpired updated).deletions = m.deletions ∧ (m.noteExpired updated).updateFlag = m.updateFlag ∧
      (m.noteExpired updated).expireList = m.expireList := by
  rw [noteExpired]
  split <;> exact ⟨rfl, rfl, rfl⟩

theorem Formed.noteExpired (h : m.Formed) (updated : Option Generator) : (m.noteExpired updated).Formed := by
  rw [MotionMaster.noteExpired]
  split
  · exact ⟨h.toStacked.congr rfl rfl rfl, h.account, h.ready, h.owned⟩
  · exact h

theorem noteExpired_own (updated : Option Generator) :
    (m.noteExpired updated).ExpiresOwn ↔ m.ExpiresOwn ∧ (m.size ≤ 1 ∨ m.topGenerator = updated) := by
  rw [noteExpired]
  split
  · rename_i hMore
    rw [or_iff_right (by omega)]
    simp only [ExpiresOwn, List.mem_append, List.mem_singleton, or_imp, forall_and, forall_eq]
  · rename_i hLast
    exact ⟨fun h => ⟨h, Or.inl (by omega)⟩, And.left⟩

theorem foldl_directDelete (list : List Generator) (h : m.Stacked) :
    (list.foldl directDelete m).Stacked ∧ Frame m (list.foldl directDelete m) ∧
      (∀ id, held (list.foldl directDelete m).slot id = held m.slot id) ∧
      (∀ id, (list.foldl directDelete m).deleted id = m.deleted id + list.count (.made id)) ∧
      (m.running = none → ((list.foldl directDelete m).Clean ↔ m.Clean)) := by
  induction list generalizing m with
  | nil => exact ⟨h, Frame.refl m, fun _ => rfl, fun _ => rfl, fun _ => Iff.rfl⟩
  | cons g list ih =>
    obtain ⟨hStacked, hFrame, hHeld, hDeleted, hClean⟩ := ih (directDelete_deletes.stacked h g)
    have hOne := directDelete_deletes.frame m g
    have hSlot := directDelete_deletes.slot m g
    have hList := directDelete_expireList m g
    refine ⟨hStacked, hOne.trans hFrame, fun id => ?_, fun id => ?_, fun hOutside => ?_⟩
    · rw [List.foldl_cons, hHeld, hSlot]
    · have hTotal := directDelete_deletes.total m g id
      simp only [total, pending, hSlot, hList] at hTotal
      have hWeigh : (g :: list).count (.made id) = list.count (.made id) + weigh g id := by
        rw [List.count_cons, weigh]
        simp only [beq_iff_eq]
      rw [List.foldl_cons, hDeleted, hWeigh]
      omega
    · rw [List.foldl_cons, hClean (hOne.running.trans hOutside), directDelete_clean, hOutside]
      exact ⟨And.left, fun h => ⟨h, fun _ hNone => absurd hNone.symm (Option.some_ne_none _)⟩⟩

theorem Formed.flushExpired (h : m.Formed) (hOutside : m.updateFlag = false) :
    m.flushExpired.Quiet ∧ m.flushExpired.expirations = m.expirations ∧ (m.flushExpired.Clean ↔ m.Clean) := by
  rw [MotionMaster.flushExpired]
  split
  · obtain ⟨hStacked, hFrame, hHeld, hDeleted, hClean⟩ := foldl_directDelete (m.expireList.getD []) h.toStacked
    have hDone : m.deleteExpired.Stacked := hStacked.congr rfl rfl rfl
    obtain ⟨hFresh, hReady, hSame⟩ := hDone.freshenTop m.resetFlag
    obtain ⟨hFrame', hList', hDeletions⟩ := freshenTop_frame m.deleteExpired m.resetFlag
    have hEq : m.clearExpireList = { m.deleteExpired.freshenTop m.resetFlag with resetFlag := false } := by
      rw [clearExpireList, not_empty_of_filled hDone.filled, if_neg Bool.false_ne_true]
    have hFlag : (m.deleteExpired.freshenTop m.resetFlag).updateFlag = false :=
      hFrame'.updateFlag.trans (hFrame.updateFlag.trans hOutside)
    have hRunning : (m.deleteExpired.freshenTop m.resetFlag).running = .none :=
      hFrame'.running.trans (hFrame.running.trans (h.owned hOutside))
    rw [hEq]
    refine ⟨⟨⟨hFresh.congr rfl rfl rfl, fun id => ?_, fun _ => hReady, fun _ => hRunning⟩, hFlag, hList'⟩,
      hFrame'.expirations.trans hFrame.expirations, ?_⟩
    · have hBefore := h.account id
      have hCount : m.deleteExpired.total id = m.total id := by
        change held ((m.expireList.getD []).foldl directDelete m).slot id + 0 +
          ((m.expireList.getD []).foldl directDelete m).deleted id = held m.slot id + m.pending id + m.deleted id
        rw [hHeld, hDeleted, pending]
        omega
      have hId : (m.deleteExpired.freshenTop m.resetFlag).nextId = m.nextId := hFrame'.nextId.trans hFrame.nextId
      change (m.deleteExpired.freshenTop m.resetFlag).total id = if id < _ then 1 else 0
      rw [hSame, hCount, hBefore, hId]
    · rw [← hClean (h.owned hOutside), Clean, Clean]
      change (∀ d ∈ (m.deleteExpired.freshenTop m.resetFlag).deletions, _) ↔ _
      rw [hDeletions]
      rfl
  · rename_i hNone
    rw [Bool.not_eq_true, Option.isSome_eq_false_iff, Option.isNone_iff_eq_none] at hNone
    exact ⟨⟨h, hOutside, hNone⟩, rfl, Iff.rfl⟩

theorem Quiet.step (h : m.Quiet) (a : Label) : (step m a).Quiet ∧
    ((Motion.step m a).Clean ∧ (Motion.step m a).ExpiresOwn ↔ (m.Clean ∧ m.ExpiresOwn) ∧ m.Proper a) := by
  cases a with
  | call c =>
    obtain ⟨hFormed, hFlag, -, hExpirations, hClean, hUnlisted⟩ := h.toFormed.call c
    refine ⟨⟨hFormed, hFlag.trans h.outside, (hUnlisted h.outside).trans h.none⟩, ?_⟩
    have hSafe : m.ReplacesSafely c := by
      have hSlots : ∀ slot, m.Safe slot := fun slot occupant _ _ hRunning =>
        nomatch (h.owned h.outside).symm.trans hRunning
      cases c with
      | mutate slot => exact hSlots slot
      | mutateIdle => exact hSlots 0
      | clear reset => trivial
      | movementExpired reset => trivial
    have hOwn : (m.call c).ExpiresOwn ↔ m.ExpiresOwn := by
      rw [ExpiresOwn, ExpiresOwn, hExpirations]
    change (m.call c).Clean ∧ (m.call c).ExpiresOwn ↔ _ ∧ True
    rw [hClean, hOwn, and_iff_left hSafe, and_true]
  | updateMotion held calls result =>
    change (m.updateMotion held calls result).Quiet ∧ ((m.updateMotion held calls result).Clean ∧
      (m.updateMotion held calls result).ExpiresOwn ↔ _ ∧ (held = true ∨ _))
    rw [updateMotion]
    cases held with
    | true => exact ⟨h, (and_iff_left (Or.inl rfl)).symm⟩
    | false =>
      obtain ⟨hFormed, hOutside, hExpirations, hClean⟩ := h.afterCalls calls
      rw [if_neg Bool.false_ne_true, or_iff_right Bool.false_ne_true]
      cases result with
      | true =>
        obtain ⟨hQuiet, hSame, hFlushed⟩ := hFormed.flushExpired hOutside
        refine ⟨hQuiet, ?_⟩
        have hOwn : (m.afterCalls calls).flushExpired.ExpiresOwn ↔ m.ExpiresOwn := by
          rw [ExpiresOwn, ExpiresOwn, hSame, hExpirations]
        rw [if_pos rfl, hFlushed, hClean, hOwn, and_iff_left (fun hFalse => nomatch hFalse), and_right_comm]
      | false =>
        have hNoted := hFormed.noteExpired m.topGenerator
        obtain ⟨hKept, hFlag, hList⟩ := noteExpired_fields (m.afterCalls calls) m.topGenerator
        obtain ⟨hExpired, hFlag', -, hSame', hClean', -⟩ := hNoted.movementExpired true
        obtain ⟨hQuiet, hSame, hFlushed⟩ := hExpired.flushExpired (hFlag'.trans (hFlag.trans hOutside))
        refine ⟨hQuiet, ?_⟩
        have hNotedClean : ((m.afterCalls calls).noteExpired m.topGenerator).Clean ↔ (m.afterCalls calls).Clean := by
          rw [Clean, Clean, hKept]
        have hOwn : (((m.afterCalls calls).noteExpired m.topGenerator).movementExpired true).flushExpired.ExpiresOwn ↔
            m.ExpiresOwn ∧ ((m.afterCalls calls).size ≤ 1 ∨ (m.afterCalls calls).topGenerator = m.topGenerator) := by
          have hBefore : (m.afterCalls calls).ExpiresOwn ↔ m.ExpiresOwn := by
            rw [ExpiresOwn, ExpiresOwn, hExpirations]
          rw [← hBefore, ← noteExpired_own, ExpiresOwn, ExpiresOwn, hSame, hSame']
        rw [if_neg Bool.false_ne_true, hFlushed, hClean', hNotedClean, hClean, hOwn, and_true]
        exact ⟨fun hAll => ⟨⟨hAll.1.1, hAll.2.1⟩, hAll.1.2, fun _ => hAll.2.2⟩,
          fun hAll => ⟨⟨hAll.1.1, hAll.2.1⟩, hAll.1.2, hAll.2.2 rfl⟩⟩

/-! ## Whole runs -/

theorem start_fields (idleByDefault : Bool) : ∃ (g : Generator) (nextId : Nat),
    (∀ id, weigh g id = if id < nextId then 1 else 0) ∧ (start idleByDefault).nextId = nextId ∧
    (start idleByDefault).slot = Function.update (fun _ : Nat => Option.none) 0 (some ⟨g, true⟩) ∧
    (start idleByDefault).initFlag = Function.update (fun _ : Nat => true) 0 false ∧
    (start idleByDefault).size = 1 := by
  cases idleByDefault with
  | true => exact ⟨.idleMovement, 0, fun _ => rfl, rfl, rfl, rfl, rfl⟩
  | false =>
    refine ⟨.made 0, 1, fun id => ?_, rfl, rfl, rfl, rfl⟩
    cases id with
    | zero => rfl
    | succ id => rfl

theorem start_nothing (idleByDefault : Bool) : (start idleByDefault).deletions = [] ∧
    (start idleByDefault).expirations = [] ∧ (start idleByDefault).expireList = .none ∧
    (start idleByDefault).updateFlag = false ∧ (start idleByDefault).running = .none := by
  cases idleByDefault with
  | true => exact ⟨rfl, rfl, rfl, rfl, rfl⟩
  | false => exact ⟨rfl, rfl, rfl, rfl, rfl⟩

theorem start_quiet (idleByDefault : Bool) : (start idleByDefault).Quiet ∧ (start idleByDefault).Clean ∧
    (start idleByDefault).ExpiresOwn := by
  obtain ⟨g, nextId, hWeigh, hId, hSlots, hFlags, hSize⟩ := start_fields idleByDefault
  obtain ⟨hDeletions, hExpirations, hList, hFlag, hRunning⟩ := start_nothing idleByDefault
  have hZero : (start idleByDefault).slot 0 = some ⟨g, true⟩ := by
    rw [hSlots]
    exact Function.update_self _ _ _
  have hNone : ∀ i, i ≠ 0 → (start idleByDefault).slot i = .none := by
    intro i hi
    rw [hSlots]
    exact Function.update_of_ne hi _ _
  have hOnly : ∀ i occupant, (start idleByDefault).slot i = some occupant → i = 0 ∧ occupant = ⟨g, true⟩ := by
    intro i occupant hSlot
    have hi : i = 0 := by
      by_contra hi
      rw [hNone i hi] at hSlot
      cases hSlot
    rw [hi, hZero] at hSlot
    exact ⟨hi, (Option.some.inj hSlot).symm⟩
  have hTop : (start idleByDefault).top = some ⟨g, true⟩ := by
    rw [top, hSize]
    exact hZero
  have hStacked : (start idleByDefault).Stacked := by
    refine ⟨?_, ?_, ?_, ?_, ?_, ?_, ?_⟩
    · rw [hZero]
      rfl
    · rw [hSize]
      exact Nat.one_pos
    · rw [hSize]
      decide
    · rw [hTop]
      rfl
    · intro i hi
      rw [hSize] at hi
      exact hNone i (by omega)
    · exact fun i occupant hSlot _ => (hOnly i occupant hSlot).1
    · intro i occupant hSlot
      obtain ⟨rfl, rfl⟩ := hOnly i occupant hSlot
      rw [hFlags, Function.update_self]
      rfl
  refine ⟨⟨⟨hStacked, fun id => ?_, fun _ => ?_, fun _ => hRunning⟩, hFlag, hList⟩, ?_, ?_⟩
  · have hHeld : held (start idleByDefault).slot id = weigh g id := by
      rw [held, hZero, hNone 1 (by decide), hNone 2 (by decide)]
      rfl
    have hPending : (start idleByDefault).pending id = 0 := by
      rw [pending, hList]
      rfl
    have hDeleted : (start idleByDefault).deleted id = 0 := by
      rw [deleted, hDeletions]
      rfl
    rw [total, hHeld, hPending, hDeleted, hId]
    exact hWeigh id
  · intro occupant hOccupant
    rw [hTop] at hOccupant
    rw [← Option.some.inj hOccupant]
  · rw [Clean, hDeletions]
    exact List.forall_mem_nil _
  · rw [ExpiresOwn, hExpirations]
    exact List.forall_mem_nil _

theorem Stacked.held_pos (h : m.Stacked) (id : Nat) : 0 < held m.slot id ↔
    ∃ i occupant, m.slot i = some occupant ∧ occupant.generator = .made id := by
  have hWeigh : ∀ i, 0 < weighSlot (m.slot i) id ↔
      ∃ occupant, m.slot i = some occupant ∧ occupant.generator = .made id := by
    intro i
    cases hSlot : m.slot i with
    | none =>
      constructor
      · exact fun hPos => absurd hPos (Nat.lt_irrefl 0)
      · rintro ⟨_, hSome, -⟩
        cases hSome
    | some occupant =>
      rw [weighSlot, weigh]
      split
      · rename_i hSame
        exact ⟨fun _ => ⟨occupant, rfl, hSame⟩, fun _ => Nat.one_pos⟩
      · rename_i hOther
        constructor
        · exact fun hPos => absurd hPos (Nat.lt_irrefl 0)
        · rintro ⟨other, hSome, hSame⟩
          rw [← Option.some.inj hSome] at hSame
          exact absurd hSame hOther
  constructor
  · intro hPos
    rw [held] at hPos
    have hOne : ∃ i, 0 < weighSlot (m.slot i) id := by
      by_contra hNone
      simp only [not_exists, Nat.not_lt, Nat.le_zero] at hNone
      rw [hNone 0, hNone 1, hNone 2] at hPos
      omega
    obtain ⟨i, hi⟩ := hOne
    exact ⟨i, (hWeigh i).mp hi⟩
  · rintro ⟨i, hi⟩
    have hPos := (hWeigh i).mpr hi
    have hFew : i < 3 := by
      by_contra hAbove
      obtain ⟨occupant, hSlot, -⟩ := hi
      rw [h.above i (h.few.trans (Nat.le_of_not_lt hAbove))] at hSlot
      cases hSlot
    rw [held]
    have hCases : i = 0 ∨ i = 1 ∨ i = 2 := by omega
    rcases hCases with rfl | rfl | rfl
    · omega
    · omega
    · omega

theorem Quiet.sound_iff (h : m.Quiet) : m.Sound ↔ m.Clean ∧ m.ExpiresOwn := by
  refine ⟨fun hSound => ⟨hSound.clean, hSound.expiresOwn⟩, fun ⟨hClean, hOwn⟩ => ?_⟩
  refine ⟨h.bottom, h.filled, ?_, h.above, fun id hId => ?_, hClean, hOwn⟩
  · obtain ⟨occupant, hTop⟩ := h.exists_top
    exact ⟨occupant, hTop, h.ready h.none occupant hTop⟩
  · have hTotal := h.account id
    have hPending : m.pending id = 0 := by
      rw [pending, h.none]
      rfl
    rw [total, hPending, if_pos hId] at hTotal
    rcases Nat.eq_zero_or_pos (held m.slot id) with hZero | hPos
    · refine Or.inr ⟨fun i occupant hSlot hSame => ?_, by omega⟩
      have hPos := (h.held_pos id).mpr ⟨i, occupant, hSlot, hSame⟩
      omega
    · exact Or.inl ⟨(h.held_pos id).mp hPos, by omega⟩

/-- In every run the motion master is sound after each call exactly when every update is proper. -/
theorem lifecycle_iff (idleByDefault : Bool) (labels : List Label) :
    (∀ first, first <+: labels → (run Motion.step (start idleByDefault) first).Sound) ↔
      Along Motion.step Proper (start idleByDefault) labels := by
  apply reached_iff_along (I := fun m => m.Quiet ∧ m.Clean ∧ m.ExpiresOwn)
  · intro m a hm hProper
    obtain ⟨hQuiet, hHarm⟩ := hm.1.step a
    exact ⟨hQuiet, hHarm.mpr ⟨hm.2, hProper⟩⟩
  · exact fun m hm => hm.1.sound_iff.mpr hm.2
  · intro m a hm hSound
    obtain ⟨hQuiet, hHarm⟩ := hm.1.step a
    exact (hHarm.mp (hQuiet.sound_iff.mp hSound)).2
  · exact start_quiet idleByDefault

end

def activeStarted : List Label := [.call (.mutate motionSlotActive)]

/-- During its update the active generator starts a controlled movement and an active one. -/
def startsActiveAgain : Label := .updateMotion false [.mutate motionSlotControlled, .mutate motionSlotActive] true

/-- During its update the active generator starts a controlled movement, and then it fails. -/
def startsControlledAndFails : Label := .updateMotion false [.mutate motionSlotControlled] false

theorem update_unsound : ¬ (run Motion.step (start true) (activeStarted ++ [startsActiveAgain])).Sound ∧
    ¬ (run Motion.step (start true) (activeStarted ++ [startsControlledAndFails])).Sound := by
  constructor
  · intro hSound
    have hDeleted : (Generator.made 0, some (Generator.made 0)) ∈
        (run Motion.step (start true) (activeStarted ++ [startsActiveAgain])).deletions := by decide
    exact hSound.clean _ hDeleted rfl
  · intro hSound
    have hExpired : (some (Generator.made 1), some (Generator.made 0)) ∈
        (run Motion.step (start true) (activeStarted ++ [startsControlledAndFails])).expirations := by decide
    exact absurd (hSound.expiresOwn _ hExpired) (by decide)

end MotionMaster

end AshamaneCore.Motion
