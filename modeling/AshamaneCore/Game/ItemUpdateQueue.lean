import AshamaneCore.Library.Transition
import Mathlib.Algebra.Ring.Int.Defs
import Mathlib.Algebra.Ring.Nat
import Mathlib.Data.Finset.Basic
import Mathlib.Logic.Function.Basic
import Mathlib.Order.Basic

/-!
# The queue of items to save

An item stores its index in the queue of a player, as a signed number of 16 bits with -1 for
none. The owner and a block of the queue decide whether it is put there or taken out, and an
item that was never saved is deleted as soon as it is removed.
-/

namespace AshamaneCore.ItemUpdateQueue

inductive ItemUpdateState
  | unchanged
  | changed
  | new
  | removed
  deriving DecidableEq

structure Item where
  updateState : ItemUpdateState
  queuePos : Int16
  ownerGuid : Nat

/-- The queue holds guids of items, or null where one was taken out. -/
structure Player where
  itemUpdateQueue : List (Option Nat)
  itemUpdateQueueBlocked : Bool
  refundableItems : Finset Nat

/-- The items and players by their guids; a deleted item is none. -/
structure State where
  items : Nat → Option Item
  players : Nat → Player

def Item.isInUpdateQueue (item : Item) : Bool := item.queuePos ≠ -1

/-- The stored index as an index of the vector, into which a negative number is widened. -/
def Item.queueIndex (item : Item) : Nat := (item.queuePos.toInt % 2 ^ 64).toNat

def Item.withState (item : Item) (state : ItemUpdateState) : Item :=
  if item.updateState ≠ .new then { item with updateState := state } else item

namespace State

variable (s : State)

def putItem (guid : Nat) (item : Option Item) : State := { s with items := Function.update s.items guid item }

def putPlayer (guid : Nat) (player : Player) : State := { s with players := Function.update s.players guid player }

def addItemToUpdateQueueOf (guid : Nat) (item : Item) (player : Nat) : State :=
  if item.isInUpdateQueue then s
  else if player ≠ item.ownerGuid then s
  else if (s.players player).itemUpdateQueueBlocked then s
  else
    (s.putPlayer player { s.players player with
      itemUpdateQueue := (s.players player).itemUpdateQueue ++ [some guid] }).putItem guid
      (some { item with queuePos := Int16.ofNat (s.players player).itemUpdateQueue.length })

/-- Outside of the vector the write is undefined, and nothing is written here. -/
def removeItemFromUpdateQueueOf (guid : Nat) (item : Item) (player : Nat) : State :=
  if !item.isInUpdateQueue then s
  else if player ≠ item.ownerGuid then s
  else if (s.players player).itemUpdateQueueBlocked then s
  else
    (s.putPlayer player { s.players player with
      itemUpdateQueue := (s.players player).itemUpdateQueue.set item.queueIndex none }).putItem guid
      (some { item with queuePos := -1 })

def deleteRefundReference (player guid : Nat) : State :=
  s.putPlayer player { s.players player with refundableItems := (s.players player).refundableItems.erase guid }

def setStateOf (guid : Nat) (item : Item) (state : ItemUpdateState) (forPlayer : Option Nat) : State :=
  if item.updateState = .new ∧ state = .removed then
    (forPlayer.elim s fun player =>
      (s.removeItemFromUpdateQueueOf guid item player).deleteRefundReference player guid).putItem guid none
  else if state ≠ .unchanged then
    forPlayer.elim (s.putItem guid (some (item.withState state))) fun player =>
      (s.putItem guid (some (item.withState state))).addItemToUpdateQueueOf guid (item.withState state) player
  else s.putItem guid (some { item with queuePos := -1, updateState := .unchanged })

end State

/-! ## Calls -/

inductive Call
  | setState (guid : Nat) (state : ItemUpdateState) (forPlayer : Option Nat)
  | setOwnerGUID (guid owner : Nat)
  | setBlocked (player : Nat) (blocked : Bool)

def State.step (s : State) : Call → State
  | .setState guid state forPlayer => (s.items guid).elim s fun item => s.setStateOf guid item state forPlayer
  | .setOwnerGUID guid owner => (s.items guid).elim s fun item => s.putItem guid (some { item with ownerGuid := owner })
  | .setBlocked player blocked => s.putPlayer player { s.players player with itemUpdateQueueBlocked := blocked }

/-!
## Runs of item updates

The stored indices agree with the queues as long as nothing is queued twice and no item is
deleted that a queue still holds. Both conditions see the state before the call.
-/

open Library

namespace State

def Queued (s : State) (player i guid : Nat) : Prop := (s.players player).itemUpdateQueue[i]? = some (some guid)

structure Integrity (s : State) : Prop where
  placed : ∀ guid item, s.items guid = some item → item.isInUpdateQueue = true →
    ∃ player, s.Queued player item.queueIndex guid
  once : ∀ player i j guid, s.Queued player i guid → s.Queued player j guid → i = j
  live : ∀ player i guid, s.Queued player i guid → ∃ item, s.items guid = some item

/-- All indices of the queues fit into a signed number of 16 bits. -/
def Short (s : State) : Prop := ∀ player, (s.players player).itemUpdateQueue.length ≤ 2 ^ 15

/-- The removal for this player takes the item out of this place. -/
structure TakenOut (s : State) (item : Item) (forPlayer : Option Nat) (player i : Nat) : Prop where
  player_eq : forPlayer = some player
  queued : item.isInUpdateQueue = true
  owner : player = item.ownerGuid
  unblocked : (s.players player).itemUpdateQueueBlocked = false
  index : i = item.queueIndex

/-- The queue of the player has room for the item and does not hold it. -/
structure Addable (s : State) (guid player : Nat) : Prop where
  room : (s.players player).itemUpdateQueue.length < 2 ^ 15
  absent : ∀ i, ¬ s.Queued player i guid

structure Adds (s : State) (item : Item) (state : ItemUpdateState) (player : Nat) : Prop where
  changes : state ≠ .unchanged
  unqueued : item.isInUpdateQueue = false
  owner : player = item.ownerGuid
  unblocked : (s.players player).itemUpdateQueueBlocked = false

/-- An item that is deleted is taken out wherever it is queued, and an item that is queued is
not in that queue yet. -/
def Allowed (s : State) : Call → Prop
  | .setState guid state forPlayer => ∀ item, s.items guid = some item →
      if item.updateState = .new ∧ state = .removed then
        ∀ player i, s.Queued player i guid → s.TakenOut item forPlayer player i
      else ∀ player, forPlayer = some player → s.Adds item state player → s.Addable guid player
  | .setOwnerGUID _ _ => True
  | .setBlocked _ _ => True

variable {s s' : State} {guid player : Nat} {item : Item}

/-! ## Frames -/

variable {i : Nat}

theorem Queued.lt (h : s.Queued player i guid) : i < (s.players player).itemUpdateQueue.length :=
  (List.getElem?_eq_some_iff.mp h).1

theorem putItem_items (s : State) (guid : Nat) (new : Option Item) : (s.putItem guid new).items guid = new :=
  Function.update_self ..

variable {other : Nat}

theorem putItem_items_of_ne (hNe : other ≠ guid) (new : Option Item) :
    (s.putItem guid new).items other = s.items other := Function.update_of_ne hNe ..

theorem putItem_players (s : State) (guid : Nat) (new : Option Item) : (s.putItem guid new).players = s.players := rfl

theorem putPlayer_players (s : State) (guid : Nat) (new : Player) : (s.putPlayer guid new).players guid = new :=
  Function.update_self ..

theorem putPlayer_players_of_ne (hNe : player ≠ guid) (new : Player) :
    (s.putPlayer guid new).players player = s.players player := Function.update_of_ne hNe ..

theorem Integrity.putItem (h : s.Integrity) (hItem : s.items guid = some item) {new : Item}
    (hPlace : new.isInUpdateQueue = true → new.queuePos = item.queuePos) :
    (s.putItem guid (some new)).Integrity := by
  constructor
  · intro other found hFound hQueued
    obtain rfl | hNe := eq_or_ne other guid
    · obtain rfl := Option.some.inj ((putItem_items s other _).symm.trans hFound)
      have hSame := hPlace hQueued
      rw [Item.isInUpdateQueue, hSame] at hQueued
      rw [Item.queueIndex, hSame]
      exact h.placed other item hItem hQueued
    · exact h.placed other found ((putItem_items_of_ne hNe _).symm.trans hFound) hQueued
  · exact h.once
  · intro player i other hOther
    obtain rfl | hNe := eq_or_ne other guid
    · exact ⟨new, putItem_items s other _⟩
    · exact (h.live player i other hOther).imp fun _ hFound => (putItem_items_of_ne hNe _).trans hFound

theorem Integrity.of_queues (h : s.Integrity) (hItems : s'.items = s.items)
    (hQueues : ∀ player, (s'.players player).itemUpdateQueue = (s.players player).itemUpdateQueue) : s'.Integrity := by
  have hSame : ∀ player i guid, s'.Queued player i guid ↔ s.Queued player i guid := by
    intro player i guid
    rw [Queued, Queued, hQueues]
  constructor
  · intro guid item hItem hQueued
    rw [hItems] at hItem
    exact (h.placed guid item hItem hQueued).imp fun player hPlace => (hSame _ _ _).mpr hPlace
  · exact fun player i j guid hi hj => h.once player i j guid ((hSame _ _ _).mp hi) ((hSame _ _ _).mp hj)
  · intro player i guid hQueued
    rw [hItems]
    exact h.live player i guid ((hSame _ _ _).mp hQueued)

/-! ## Removal -/

variable {owner : Nat}

theorem queued_removeItem_iff (guid : Nat) :
    (s.removeItemFromUpdateQueueOf guid item owner).Queued player i other ↔
    s.Queued player i other ∧ ¬ s.TakenOut item (some owner) player i := by
  rw [removeItemFromUpdateQueueOf]
  split
  · rename_i hNot
    refine (and_iff_left fun h => ?_).symm
    rw [h.queued] at hNot
    cases hNot
  · rename_i hQueued
    split
    · rename_i hOwner
      refine (and_iff_left fun h => hOwner ?_).symm
      exact (Option.some.inj h.player_eq).trans h.owner
    · rename_i hOwner
      split
      · rename_i hBlocked
        refine (and_iff_left fun h => ?_).symm
        obtain rfl := Option.some.inj h.player_eq
        exact Bool.false_ne_true (h.unblocked.symm.trans hBlocked)
      · rename_i hFree
        obtain rfl | hNe := eq_or_ne player owner
        · have hTaken : s.TakenOut item (some player) player i ↔ item.queueIndex = i :=
            ⟨fun h => h.index.symm, fun hIndex => ⟨rfl, by simpa using hQueued, not_not.mp hOwner,
              Bool.not_eq_true _ ▸ hFree, hIndex.symm⟩⟩
          rw [hTaken, Queued, Queued, putItem_players, putPlayer_players, List.getElem?_set]
          split
          · rename_i hSame
            refine iff_of_false ?_ fun h => h.2 hSame
            split
            · nofun
            · nofun
          · rename_i hOther
            exact (and_iff_left hOther).symm
        · have hTaken : ¬ s.TakenOut item (some owner) player i := fun h => hNe (Option.some.inj h.player_eq).symm
          rw [Queued, Queued, putItem_players, putPlayer_players_of_ne hNe]
          exact (and_iff_left hTaken).symm

theorem removeItem_items_of_ne (hNe : other ≠ guid) :
    (s.removeItemFromUpdateQueueOf guid item owner).items other = s.items other := by
  rw [removeItemFromUpdateQueueOf]
  split
  · rfl
  · split
    · rfl
    · split
      · rfl
      · exact putItem_items_of_ne hNe _

theorem removeItem_length (player : Nat) :
    ((s.removeItemFromUpdateQueueOf guid item owner).players player).itemUpdateQueue.length =
      (s.players player).itemUpdateQueue.length := by
  rw [removeItemFromUpdateQueueOf]
  split
  · rfl
  · split
    · rfl
    · split
      · rfl
      · rw [putItem_players]
        obtain rfl | hNe := eq_or_ne player owner
        · rw [putPlayer_players]
          exact List.length_set ..
        · rw [putPlayer_players_of_ne hNe]

/-- What a deletion leaves: the other items, and all places but those that were cleared. -/
structure Deleted (s : State) (guid : Nat) (item : Item) (forPlayer : Option Nat) (s' : State) : Prop where
  gone : s'.items guid = none
  others : ∀ other, other ≠ guid → s'.items other = s.items other
  queued : ∀ player i other, s'.Queued player i other ↔ s.Queued player i other ∧ ¬ s.TakenOut item forPlayer player i
  lengths : ∀ player, (s'.players player).itemUpdateQueue.length = (s.players player).itemUpdateQueue.length

variable {state : ItemUpdateState}

theorem setStateOf_deleted (s : State) (guid : Nat)
    (hDelete : item.updateState = .new ∧ state = .removed)
    (forPlayer : Option Nat) : s.Deleted guid item forPlayer (s.setStateOf guid item state forPlayer) := by
  rw [setStateOf, if_pos hDelete]
  cases forPlayer with
  | none =>
    refine ⟨putItem_items _ _ _, fun other hNe => putItem_items_of_ne hNe _, fun player i other => ?_, fun _ => rfl⟩
    exact (and_iff_left fun h => nomatch h.player_eq).symm
  | some owner =>
    refine ⟨putItem_items _ _ _, fun other hNe => ?_, fun player i other => ?_, fun player => ?_⟩
    · exact (putItem_items_of_ne hNe _).trans (removeItem_items_of_ne hNe)
    · refine Iff.trans ?_ (queued_removeItem_iff guid)
      rw [Queued, Queued, Option.elim_some, putItem_players, deleteRefundReference]
      obtain rfl | hNe := eq_or_ne player owner
      · rw [putPlayer_players]
      · rw [putPlayer_players_of_ne hNe]
    · rw [Option.elim_some, putItem_players, deleteRefundReference]
      obtain rfl | hNe := eq_or_ne player owner
      · rw [putPlayer_players]
        exact removeItem_length _
      · rw [putPlayer_players_of_ne hNe]
        exact removeItem_length _

theorem Integrity.deleted_iff (h : s.Integrity) (hItem : s.items guid = some item) {forPlayer : Option Nat}
    (hDeleted : s.Deleted guid item forPlayer s') :
    s'.Integrity ↔ ∀ player i, s.Queued player i guid → s.TakenOut item forPlayer player i := by
  constructor
  · intro h' player i hQueued
    by_contra hNot
    obtain ⟨found, hFound⟩ := h'.live player i guid ((hDeleted.queued player i guid).mpr ⟨hQueued, hNot⟩)
    cases hDeleted.gone.symm.trans hFound
  · intro hCleared
    have hOther : ∀ player i other, s'.Queued player i other → s.Queued player i other ∧ other ≠ guid := by
      intro player i other hQueued
      obtain ⟨hOld, hKept⟩ := (hDeleted.queued player i other).mp hQueued
      refine ⟨hOld, ?_⟩
      rintro rfl
      exact hKept (hCleared player i hOld)
    constructor
    · intro other found hFound hQueued
      have hNe : other ≠ guid := by
        rintro rfl
        cases hDeleted.gone.symm.trans hFound
      obtain ⟨player, hPlace⟩ := h.placed other found ((hDeleted.others other hNe).symm.trans hFound) hQueued
      refine ⟨player, (hDeleted.queued _ _ _).mpr ⟨hPlace, fun hTaken => hNe ?_⟩⟩
      -- the cleared place is that of the deleted item, which is not here
      obtain ⟨owner, hOwn⟩ := h.placed guid item hItem hTaken.queued
      obtain rfl := Option.some.inj ((hCleared owner _ hOwn).player_eq.symm.trans hTaken.player_eq)
      rw [hTaken.index] at hPlace
      exact Option.some.inj (Option.some.inj (hPlace.symm.trans hOwn))
    · exact fun player i j other hi hj => h.once player i j other (hOther _ _ _ hi).1 (hOther _ _ _ hj).1
    · intro player i other hQueued
      obtain ⟨hOld, hNe⟩ := hOther player i other hQueued
      rw [hDeleted.others other hNe]
      exact h.live player i other hOld

/-! ## Insertion -/

def pushed (s : State) (guid : Nat) (item : Item) (player : Nat) : State :=
  (s.putPlayer player { s.players player with
    itemUpdateQueue := (s.players player).itemUpdateQueue ++ [some guid] }).putItem guid
    (some { item with queuePos := Int16.ofNat (s.players player).itemUpdateQueue.length })

theorem queued_pushed_iff : (s.pushed guid item owner).Queued player i other ↔
    s.Queued player i other ∨ player = owner ∧ i = (s.players owner).itemUpdateQueue.length ∧ other = guid := by
  rw [Queued, Queued, pushed, putItem_players]
  obtain rfl | hNe := eq_or_ne player owner
  · rw [putPlayer_players, List.getElem?_append]
    split
    · rename_i hLt
      exact (or_iff_left fun h => absurd h.2.1 hLt.ne).symm
    · rename_i hLe
      rw [List.getElem?_eq_none (Nat.not_lt.mp hLe), List.getElem?_singleton]
      split
      · rename_i hFirst
        have hIndex : i = (s.players player).itemUpdateQueue.length := by omega
        simp [hIndex, eq_comm]
      · rename_i hFirst
        have hIndex : i ≠ (s.players player).itemUpdateQueue.length := by omega
        simp [hIndex]
  · rw [putPlayer_players_of_ne hNe]
    exact (or_iff_left fun h => hNe h.1).symm

theorem queueIndex_ofNat {n : Nat} (hn : n < 2 ^ 15) : { item with queuePos := Int16.ofNat n }.queueIndex = n := by
  rw [Item.queueIndex, Int16.toInt_ofNat_of_lt hn]
  omega

theorem Integrity.pushed (h : s.Integrity) (hAdd : s.Addable guid player) : (s.pushed guid item player).Integrity := by
  constructor
  · intro other found hFound hIn
    obtain rfl | hNe := eq_or_ne other guid
    · obtain rfl := Option.some.inj ((putItem_items _ other _).symm.trans hFound)
      exact ⟨player, queued_pushed_iff.mpr (Or.inr ⟨rfl, queueIndex_ofNat hAdd.room, rfl⟩)⟩
    · obtain ⟨owner, hPlace⟩ := h.placed other found ((putItem_items_of_ne hNe _).symm.trans hFound) hIn
      exact ⟨owner, queued_pushed_iff.mpr (Or.inl hPlace)⟩
  · intro owner i j other hi hj
    rcases queued_pushed_iff.mp hi with hi | ⟨rfl, rfl, rfl⟩ <;> rcases queued_pushed_iff.mp hj with hj | ⟨hOwner, hj, hSame⟩
    · exact h.once owner i j other hi hj
    · rw [hOwner, hSame] at hi
      exact absurd hi (hAdd.absent i)
    · exact absurd hj (hAdd.absent j)
    · exact hj.symm
  · intro owner i other hIn
    obtain rfl | hNe := eq_or_ne other guid
    · exact ⟨_, putItem_items _ other _⟩
    · rcases queued_pushed_iff.mp hIn with hOld | ⟨-, -, hSame⟩
      · exact (h.live owner i other hOld).imp fun _ hFound => (putItem_items_of_ne hNe _).trans hFound
      · exact absurd hSame hNe

theorem addable_of_pushed (h : (s.pushed guid item player).Integrity) (hShort : (s.pushed guid item player).Short) :
    s.Addable guid player := by
  constructor
  · have hLength := hShort player
    rw [State.pushed, putItem_players, putPlayer_players, List.length_append] at hLength
    exact hLength
  · intro i hQueued
    have hTwice := h.once player i _ guid (queued_pushed_iff.mpr (Or.inl hQueued))
      (queued_pushed_iff.mpr (Or.inr ⟨rfl, rfl, rfl⟩))
    exact absurd hTwice hQueued.lt.ne

theorem addItem_of_adds (h : s.Adds item state player) :
    s.addItemToUpdateQueueOf guid item player = s.pushed guid item player := by
  rw [addItemToUpdateQueueOf, if_neg (by rw [h.unqueued]; exact Bool.false_ne_true), if_neg (not_not.mpr h.owner),
    if_neg (by rw [h.unblocked]; exact Bool.false_ne_true)]
  rfl

theorem addItem_of_not_adds (hState : state ≠ .unchanged) (h : ¬ s.Adds item state player) :
    s.addItemToUpdateQueueOf guid item player = s := by
  rw [addItemToUpdateQueueOf]
  split
  · rfl
  · rename_i hUnqueued
    split
    · rfl
    · rename_i hOwner
      split
      · rfl
      · rename_i hFree
        exact absurd ⟨hState, Bool.not_eq_true _ ▸ hUnqueued, not_not.mp hOwner, Bool.not_eq_true _ ▸ hFree⟩ h

theorem withState_kept (item : Item) (state : ItemUpdateState) : (item.withState state).queuePos = item.queuePos ∧
    (item.withState state).ownerGuid = item.ownerGuid := by
  rw [Item.withState]
  split
  · exact ⟨rfl, rfl⟩
  · exact ⟨rfl, rfl⟩

theorem adds_withState_iff : (s.putItem guid (some (item.withState state))).Adds
    (item.withState state) state player ↔ s.Adds item state player := by
  obtain ⟨hPos, hOwner⟩ := withState_kept item state
  have hIn : (item.withState state).isInUpdateQueue = item.isInUpdateQueue := by
    rw [Item.isInUpdateQueue, Item.isInUpdateQueue, hPos]
  constructor
  · exact fun h => ⟨h.changes, hIn ▸ h.unqueued, hOwner ▸ h.owner, h.unblocked⟩
  · exact fun h => ⟨h.changes, hIn ▸ h.unqueued, hOwner ▸ h.owner, h.unblocked⟩

/-! ## Calls -/

theorem Short.pushed (h : s.Short) (hAdd : s.Addable guid player) : (s.pushed guid item player).Short := by
  intro owner
  rw [State.pushed, putItem_players]
  obtain rfl | hNe := eq_or_ne owner player
  · rw [putPlayer_players, List.length_append]
    exact hAdd.room
  · rw [putPlayer_players_of_ne hNe]
    exact h owner

theorem setStateOf_iff (h : s.Integrity) (hShort : s.Short) (hItem : s.items guid = some item)
    (state : ItemUpdateState) (forPlayer : Option Nat) :
    (s.setStateOf guid item state forPlayer).Integrity ∧ (s.setStateOf guid item state forPlayer).Short ↔
      if item.updateState = .new ∧ state = .removed then
        ∀ player i, s.Queued player i guid → s.TakenOut item forPlayer player i
      else ∀ player, forPlayer = some player → s.Adds item state player → s.Addable guid player := by
  split
  · rename_i hDelete
    have hDeleted := setStateOf_deleted s guid hDelete forPlayer
    rw [h.deleted_iff hItem hDeleted, and_iff_left]
    exact fun player => (hDeleted.lengths player).trans_le (hShort player)
  · rename_i hKeep
    rw [setStateOf, if_neg hKeep]
    split
    · rename_i hChanges
      have hPut : (s.putItem guid (some (item.withState state))).Integrity :=
        h.putItem hItem fun _ => (withState_kept item state).1
      cases forPlayer with
      | none => exact iff_of_true ⟨hPut, hShort⟩ nofun
      | some player =>
        rw [Option.elim_some]
        by_cases hAdds : s.Adds item state player
        · rw [addItem_of_adds (adds_withState_iff.mpr hAdds)]
          constructor
          · rintro ⟨hNext, hNextShort⟩ owner hOwner -
            obtain rfl := Option.some.inj hOwner
            obtain ⟨hRoom, hAbsent⟩ := addable_of_pushed hNext hNextShort
            exact ⟨hRoom, hAbsent⟩
          · intro hAll
            obtain ⟨hRoom, hAbsent⟩ := hAll player rfl hAdds
            exact ⟨hPut.pushed ⟨hRoom, hAbsent⟩, Short.pushed hShort ⟨hRoom, hAbsent⟩⟩
        · rw [addItem_of_not_adds hChanges (adds_withState_iff.not.mpr hAdds)]
          refine iff_of_true ⟨hPut, hShort⟩ fun owner hOwner hOther => ?_
          obtain rfl := Option.some.inj hOwner
          exact absurd hOther hAdds
    · rename_i hSame
      refine iff_of_true ⟨h.putItem hItem fun hIn => ?_, hShort⟩ fun _ _ hAdds => absurd hAdds.changes hSame
      exact absurd hIn Bool.false_ne_true

theorem step_iff (h : s.Integrity) (hShort : s.Short) (call : Call) :
    (s.step call).Integrity ∧ (s.step call).Short ↔ s.Allowed call := by
  cases call with
  | setState guid state forPlayer =>
    rw [step, Allowed]
    cases hItem : s.items guid with
    | none => exact iff_of_true ⟨h, hShort⟩ nofun
    | some item =>
      rw [Option.elim_some, setStateOf_iff h hShort hItem]
      exact ⟨fun hAll other hOther => Option.some.inj hOther ▸ hAll, fun hAll => hAll item rfl⟩
  | setOwnerGUID guid owner =>
    rw [step]
    cases hItem : s.items guid with
    | none => exact iff_of_true ⟨h, hShort⟩ trivial
    | some item => exact iff_of_true ⟨h.putItem hItem fun _ => rfl, hShort⟩ trivial
  | setBlocked player blocked =>
    have hQueues : ∀ other, ((s.step (.setBlocked player blocked)).players other).itemUpdateQueue =
        (s.players other).itemUpdateQueue := by
      intro other
      rw [step]
      obtain rfl | hNe := eq_or_ne other player
      · rw [putPlayer_players]
      · rw [putPlayer_players_of_ne hNe]
    exact iff_of_true ⟨h.of_queues rfl hQueues, fun other => (congrArg List.length (hQueues other)).trans_le (hShort other)⟩
      trivial

/-- Along a run the queues stay sound and short exactly if every call is allowed. -/
theorem integrity_iff (s : State) (h : s.Integrity) (hShort : s.Short) (calls : List Call) :
    (∀ first, first <+: calls → (Transition.run step s first).Integrity ∧ (Transition.run step s first).Short) ↔
      Transition.Along step Allowed s calls :=
  Transition.reached_iff_along (I := fun s : State => s.Integrity ∧ s.Short)
    (fun _ call hGood => (step_iff hGood.1 hGood.2 call).mpr)
    (fun _ hGood => hGood) (fun _ call hGood => (step_iff hGood.1 hGood.2 call).mp) ⟨h, hShort⟩ calls

/-! ## A new item -/

/-- The queues are empty, and there is one item, which was never saved. -/
def oneNewItem : State :=
  ⟨fun guid => if guid = 7 then some ⟨.new, -1, 1⟩ else none, fun _ => ⟨[], false, ∅⟩⟩

theorem oneNewItem_integrity : oneNewItem.Integrity := by
  constructor
  · intro guid item hItem hQueued
    change (if guid = 7 then some _ else none) = some item at hItem
    split at hItem
    · cases hItem
      exact absurd hQueued (by decide)
    · cases hItem
  · exact fun _ _ _ _ hi => nomatch hi
  · exact fun _ _ _ hi => nomatch hi

/-- It is queued for its owner and then removed for its owner. -/
theorem oneNewItem_integrity_iff :
    (∀ first, first <+: [Call.setState 7 .changed (some 1), .setState 7 .removed (some 1)] →
      (Transition.run step oneNewItem first).Integrity ∧ (Transition.run step oneNewItem first).Short) ↔
      Transition.Along step Allowed oneNewItem [.setState 7 .changed (some 1), .setState 7 .removed (some 1)] :=
  integrity_iff oneNewItem oneNewItem_integrity (fun _ => Nat.zero_le _) _

/-- Its owner changes before it is removed, or it is saved and changed again while it is queued. -/
theorem oneNewItem_unsound : oneNewItem.Integrity ∧
    ¬ (Transition.run step oneNewItem
      [.setState 7 .changed (some 1), .setOwnerGUID 7 2, .setState 7 .removed (some 1)]).Integrity ∧
    ¬ (Transition.run step oneNewItem
      [.setState 7 .changed (some 1), .setState 7 .unchanged none, .setState 7 .changed (some 1)]).Integrity := by
  refine ⟨oneNewItem_integrity, fun h => ?_, fun h => ?_⟩
  · obtain ⟨item, hItem⟩ := h.live 1 0 7 rfl
    cases hItem
  · exact absurd (h.once 1 0 1 7 rfl rfl) (by decide)

end State

end AshamaneCore.ItemUpdateQueue
