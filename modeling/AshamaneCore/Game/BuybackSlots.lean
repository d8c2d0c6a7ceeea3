import AshamaneCore.Library.Transition
import Mathlib.Algebra.Ring.Int.Defs
import Mathlib.Algebra.Ring.Nat
import Mathlib.Data.List.Nodup
import Mathlib.Data.List.Range
import Mathlib.Logic.Function.Basic
import Mathlib.Order.Basic

/-!
# The slots of items to buy back

Sold items lie in twelve slots. A cursor finds the next free one, and where it stands on an
item, a search looks for a free slot or else for the oldest time in seconds.
-/

namespace AshamaneCore.Buyback

def buybackSlotStart : Nat := 82

def buybackSlotEnd : Nat := 94

structure Item where
  guid : Nat
  sellPrice : Option UInt32
  count : UInt32
  deriving DecidableEq

/-- The fields of a slot are given by the slot; a head of zero is the empty guid. -/
structure Player where
  items : Nat → Option Item
  invSlotHead : Nat → Nat
  buybackPrice : Nat → UInt32
  buybackTimestamp : Nat → UInt32
  currentBuybackSlot : Nat
  loginTime : Int
  removed : List Item

def isBuybackSlot (slot : Nat) : Prop := buybackSlotStart ≤ slot ∧ slot < buybackSlotEnd

instance (slot : Nat) : Decidable (isBuybackSlot slot) := inferInstanceAs (Decidable (_ ∧ _))

namespace Player

variable (p : Player)

def setSlot (slot : Nat) (item : Option Item) (head : Nat) (price time : UInt32) : Player :=
  { p with
    items := Function.update p.items slot item
    invSlotHead := Function.update p.invSlotHead slot head
    buybackPrice := Function.update p.buybackPrice slot price
    buybackTimestamp := Function.update p.buybackTimestamp slot time }

def setRemoved (item : Option Item) : Player := { p with removed := p.removed ++ item.toList }

/-- The cursor goes to the slot that is free now, unless its own is. -/
def releaseCursor (slot : Nat) : Player :=
  if (p.items p.currentBuybackSlot).isSome then { p with currentBuybackSlot := slot } else p

def removeItemFromBuyBackSlot (slot : Nat) (del : Bool) : Player :=
  if isBuybackSlot slot then
    ((if del then p.setRemoved (p.items slot) else p).setSlot slot none 0 0 0).releaseCursor slot
  else p

/-- The first free slot of the list, or else the first of the oldest. -/
def oldestSlot : UInt32 → Nat → List Nat → Nat
  | _, oldest, [] => oldest
  | time, oldest, i :: rest =>
    if (p.items i).isNone then i
    else if p.buybackTimestamp i < time then oldestSlot (p.buybackTimestamp i) i rest
    else oldestSlot time oldest rest

def chosenSlot : Nat :=
  if (p.items p.currentBuybackSlot).isSome then
    p.oldestSlot (p.buybackTimestamp buybackSlotStart) buybackSlotStart
      (List.range' (buybackSlotStart + 1) (buybackSlotEnd - (buybackSlotStart + 1)))
  else p.currentBuybackSlot

def etime (now : Int) : UInt32 := UInt32.ofInt (now - p.loginTime + 30 * 3600)

def advanceCursor : Player :=
  if p.currentBuybackSlot < buybackSlotEnd - 1 then { p with currentBuybackSlot := p.currentBuybackSlot + 1 } else p

def addItemToBuyBackSlot (item : Item) (now : Int) : Player :=
  ((p.removeItemFromBuyBackSlot p.chosenSlot true).setSlot p.chosenSlot (some item) item.guid
    (item.sellPrice.elim 0 fun price => price * item.count) (p.etime now)).advanceCursor

end Player

/-! ## Calls -/

inductive Call
  | add (item : Item) (now : Int)
  | remove (slot : Nat) (del : Bool)

def Player.step (p : Player) : Call → Player
  | .add item now => p.addItemToBuyBackSlot item now
  | .remove slot del => p.removeItemFromBuyBackSlot slot del

/-!
## Runs of sales and purchases

The slots in the order in which their items were added go beside the player. Times in whole
seconds keep that order up to ties, and a tie is what makes the victim another item.
-/

open Library

/-! ## The search -/

namespace Player

variable {p : Player} {item : Item} {slot : Nat} {now : Int}

def Full (p : Player) : Prop := ∀ slot, isBuybackSlot slot → (p.items slot).isSome = true

structure FirstOldest (p : Player) (slots : List Nat) (slot : Nat) : Prop where
  mem : slot ∈ slots
  le : ∀ i ∈ slots, p.buybackTimestamp slot ≤ p.buybackTimestamp i
  lt : ∀ i ∈ slots, i < slot → p.buybackTimestamp slot < p.buybackTimestamp i

theorem oldestSlot_spec {rest : List Nat} (hSorted : (slot :: rest).Pairwise (· < ·)) :
    (p.oldestSlot (p.buybackTimestamp slot) slot rest ∈ rest ∧
      p.items (p.oldestSlot (p.buybackTimestamp slot) slot rest) = none) ∨
    ((∀ i ∈ rest, (p.items i).isSome = true) ∧
      p.FirstOldest (slot :: rest) (p.oldestSlot (p.buybackTimestamp slot) slot rest)) := by
  induction rest generalizing slot with
  | nil =>
    rw [oldestSlot]
    refine Or.inr ⟨nofun, List.mem_singleton_self _, fun i hi => ?_, fun i hi hLt => ?_⟩
    · rw [List.mem_singleton.mp hi]
      exact UInt32.le_refl _
    · exact absurd hLt (List.mem_singleton.mp hi).not_lt
  | cons next rest ih =>
    obtain ⟨hFirst, hRest⟩ := List.pairwise_cons.mp hSorted
    obtain ⟨hNext, hLater⟩ := List.pairwise_cons.mp hRest
    rw [oldestSlot]
    split
    · rename_i hFree
      exact Or.inl ⟨List.mem_cons_self, Option.isNone_iff_eq_none.mp hFree⟩
    · rename_i hTaken
      have hSome : (p.items next).isSome = true := by
        rwa [Option.isNone_iff_eq_none, ← ne_eq, Option.ne_none_iff_isSome] at hTaken
      split
      · rename_i hOlder
        refine (ih hRest).imp (fun h => ⟨List.mem_cons_of_mem _ h.1, h.2⟩) fun ⟨hAll, h⟩ => ?_
        have hLe := h.le next List.mem_cons_self
        have hSlot := UInt32.lt_of_le_of_lt hLe hOlder
        refine ⟨List.forall_mem_cons.mpr ⟨hSome, hAll⟩, List.mem_cons_of_mem _ h.mem, ?_, ?_⟩
        · exact List.forall_mem_cons.mpr ⟨UInt32.le_of_lt hSlot, h.le⟩
        · exact List.forall_mem_cons.mpr ⟨fun _ => hSlot, h.lt⟩
      · rename_i hNotOlder
        have hSkip : (slot :: rest).Pairwise (· < ·) :=
          List.pairwise_cons.mpr ⟨fun i hi => hFirst i (List.mem_cons_of_mem _ hi), hLater⟩
        refine (ih hSkip).imp (fun h => ⟨List.mem_cons_of_mem _ h.1, h.2⟩) fun ⟨hAll, h⟩ => ?_
        have hSlot := h.le slot List.mem_cons_self
        refine ⟨List.forall_mem_cons.mpr ⟨hSome, hAll⟩, ?_, ?_, ?_⟩
        · rcases List.mem_cons.mp h.mem with hEq | hMem
          · rw [hEq]
            exact List.mem_cons_self
          · exact List.mem_cons_of_mem _ (List.mem_cons_of_mem _ hMem)
        · refine List.forall_mem_cons.mpr ⟨hSlot, List.forall_mem_cons.mpr ⟨?_, fun i hi => h.le i (List.mem_cons_of_mem _ hi)⟩⟩
          exact UInt32.le_trans hSlot (UInt32.not_lt.mp hNotOlder)
        · refine List.forall_mem_cons.mpr ⟨h.lt slot List.mem_cons_self,
            List.forall_mem_cons.mpr ⟨fun hLt => ?_, fun i hi => h.lt i (List.mem_cons_of_mem _ hi)⟩⟩
          -- what is found behind the next slot is not the slot that the search came with
          have hBehind : slot < p.oldestSlot (p.buybackTimestamp slot) slot rest :=
            (hFirst next List.mem_cons_self).trans hLt
          exact UInt32.lt_of_lt_of_le (h.lt slot List.mem_cons_self hBehind) (UInt32.not_lt.mp hNotOlder)

theorem mem_slots_iff {i : Nat} : i ∈ buybackSlotStart :: List.range' (buybackSlotStart + 1)
    (buybackSlotEnd - (buybackSlotStart + 1)) ↔ isBuybackSlot i := by
  rw [← List.range'_succ, List.mem_range'_1]
  rfl

/-- The cursor is in the range, and a free first slot has the time zero. -/
structure Searchable (p : Player) : Prop where
  cursor : isBuybackSlot p.currentBuybackSlot
  free : ∀ slot, isBuybackSlot slot → p.items slot = none → p.buybackTimestamp slot = 0

theorem Searchable.chosen (h : p.Searchable) : isBuybackSlot p.chosenSlot ∧ (p.items p.chosenSlot = none ∨
    p.Full ∧ (∀ i, isBuybackSlot i → p.buybackTimestamp p.chosenSlot ≤ p.buybackTimestamp i) ∧
      ∀ i, isBuybackSlot i → i < p.chosenSlot → p.buybackTimestamp p.chosenSlot < p.buybackTimestamp i) := by
  rw [chosenSlot]
  split
  · have hSorted : (buybackSlotStart :: List.range' (buybackSlotStart + 1)
        (buybackSlotEnd - (buybackSlotStart + 1))).Pairwise (· < ·) := by
      rw [← List.range'_succ]
      exact List.pairwise_lt_range'
    rcases oldestSlot_spec (p := p) hSorted with ⟨hMem, hFree⟩ | ⟨hAll, hOldest⟩
    · exact ⟨mem_slots_iff.mp (List.mem_cons_of_mem _ hMem), Or.inl hFree⟩
    · refine ⟨mem_slots_iff.mp hOldest.mem, ?_⟩
      cases hStart : p.items buybackSlotStart with
      | none =>
        rcases List.mem_cons.mp hOldest.mem with hEq | hMem
        · rw [hEq]
          exact Or.inl hStart
        · have hLt := hOldest.lt _ List.mem_cons_self (List.pairwise_cons.mp hSorted |>.1 _ hMem)
          rw [h.free _ (mem_slots_iff.mp List.mem_cons_self) hStart] at hLt
          exact absurd hLt (UInt32.not_lt_zero)
      | some first =>
        refine Or.inr ⟨fun i hi => ?_, fun i hi => hOldest.le i (mem_slots_iff.mpr hi),
          fun i hi => hOldest.lt i (mem_slots_iff.mpr hi)⟩
        rcases List.mem_cons.mp (mem_slots_iff.mpr hi) with rfl | hMem
        · rw [hStart]
          rfl
        · exact hAll i hMem
  · rename_i hFree
    exact ⟨h.cursor, Or.inl (Option.not_isSome_iff_eq_none.mp hFree)⟩

/-! ## What the calls change -/

theorem releaseCursor_kept (p : Player) (slot : Nat) : (p.releaseCursor slot).items = p.items ∧
    (p.releaseCursor slot).buybackTimestamp = p.buybackTimestamp ∧ (p.releaseCursor slot).loginTime = p.loginTime ∧
    (p.releaseCursor slot).removed = p.removed := by
  rw [releaseCursor]
  split
  · exact ⟨rfl, rfl, rfl, rfl⟩
  · exact ⟨rfl, rfl, rfl, rfl⟩

theorem releaseCursor_cursor (h : isBuybackSlot p.currentBuybackSlot) (hSlot : isBuybackSlot slot) :
    isBuybackSlot (p.releaseCursor slot).currentBuybackSlot := by
  rw [releaseCursor]
  split
  · exact hSlot
  · exact h

theorem advanceCursor_kept (p : Player) : p.advanceCursor.items = p.items ∧
    p.advanceCursor.buybackTimestamp = p.buybackTimestamp ∧ p.advanceCursor.loginTime = p.loginTime ∧
    p.advanceCursor.removed = p.removed := by
  rw [advanceCursor]
  split
  · exact ⟨rfl, rfl, rfl, rfl⟩
  · exact ⟨rfl, rfl, rfl, rfl⟩

theorem advanceCursor_cursor (h : isBuybackSlot p.currentBuybackSlot) :
    isBuybackSlot p.advanceCursor.currentBuybackSlot := by
  rw [advanceCursor]
  split
  · rename_i hLt
    exact ⟨Nat.le_succ_of_le h.1, Nat.add_lt_of_lt_sub hLt⟩
  · exact h

structure Sets (p : Player) (slot : Nat) (item : Option Item) (time : UInt32) (p' : Player) : Prop where
  items : p'.items = Function.update p.items slot item
  times : p'.buybackTimestamp = Function.update p.buybackTimestamp slot time
  login : p'.loginTime = p.loginTime
  cursor : isBuybackSlot p'.currentBuybackSlot

theorem remove_sets (hCursor : isBuybackSlot p.currentBuybackSlot) (hSlot : isBuybackSlot slot) (del : Bool) :
    p.Sets slot none 0 (p.removeItemFromBuyBackSlot slot del) := by
  rw [removeItemFromBuyBackSlot, if_pos hSlot]
  cases del with
  | true =>
    obtain ⟨hItems, hTimes, hLogin, -⟩ := releaseCursor_kept ((p.setRemoved (p.items slot)).setSlot slot none 0 0 0) slot
    exact ⟨hItems, hTimes, hLogin, releaseCursor_cursor hCursor hSlot⟩
  | false =>
    obtain ⟨hItems, hTimes, hLogin, -⟩ := releaseCursor_kept (p.setSlot slot none 0 0 0) slot
    exact ⟨hItems, hTimes, hLogin, releaseCursor_cursor hCursor hSlot⟩

theorem remove_removed (hSlot : isBuybackSlot slot) :
    (p.removeItemFromBuyBackSlot slot true).removed = p.removed ++ (p.items slot).toList := by
  rw [removeItemFromBuyBackSlot, if_pos hSlot]
  exact (releaseCursor_kept _ _).2.2.2

theorem add_sets (h : p.Searchable) (item : Item) (now : Int) :
    p.Sets p.chosenSlot (some item) (p.etime now) (p.addItemToBuyBackSlot item now) := by
  have hRemove := remove_sets h.cursor h.chosen.1 true
  obtain ⟨hItems, hTimes, hLogin, -⟩ := advanceCursor_kept (((p.removeItemFromBuyBackSlot p.chosenSlot true).setSlot
    p.chosenSlot (some item) item.guid (item.sellPrice.elim 0 fun price => price * item.count) (p.etime now)))
  refine ⟨hItems.trans ?_, hTimes.trans ?_, hLogin.trans hRemove.login, advanceCursor_cursor hRemove.cursor⟩
  · rw [setSlot, hRemove.items, Function.update_idem]
  · rw [setSlot, hRemove.times, Function.update_idem]

theorem add_removed (h : p.Searchable) (item : Item) (now : Int) :
    (p.addItemToBuyBackSlot item now).removed = p.removed ++ (p.items p.chosenSlot).toList :=
  (advanceCursor_kept _).2.2.2.trans (remove_removed h.chosen.1)

def Deletes (p : Player) (item : Item) (now : Int) (victim : Item) : Prop :=
  (p.addItemToBuyBackSlot item now).removed = p.removed ++ [victim]

theorem deletes_iff (h : p.Searchable) {victim : Item} :
    p.Deletes item now victim ↔ p.items p.chosenSlot = some victim := by
  rw [Deletes, add_removed h, List.append_cancel_left_eq]
  cases p.items p.chosenSlot with
  | none => exact iff_of_false nofun nofun
  | some other => rw [Option.toList_some, List.singleton_inj, Option.some_inj]

theorem Searchable.sets {p' : Player} {new : Option Item} {time : UInt32} (h : p.Searchable)
    (hSets : p.Sets slot new time p') (hFree : new = none → time = 0) : p'.Searchable := by
  refine ⟨hSets.cursor, fun other hOther hNone => ?_⟩
  rw [hSets.times]
  rw [hSets.items] at hNone
  obtain rfl | hNe := eq_or_ne other slot
  · rw [Function.update_self] at hNone ⊢
    exact hFree hNone
  · rw [Function.update_of_ne hNe] at hNone ⊢
    exact h.free other hOther hNone

def Single (p : Player) : Prop :=
  ∀ a b item, isBuybackSlot a → isBuybackSlot b → p.items a = some item → p.items b = some item → a = b

theorem Single.sets {p' : Player} {new : Option Item} {time : UInt32} (h : p.Single) (hSets : p.Sets slot new time p')
    (hNew : ∀ item, new = some item → ∀ other, isBuybackSlot other → p.items other ≠ some item) : p'.Single := by
  intro a b item ha hb hItem hOther
  rw [hSets.items] at hItem hOther
  obtain rfl | hA := eq_or_ne a slot
  · obtain rfl | hB := eq_or_ne b a
    · rfl
    · rw [Function.update_self] at hItem
      rw [Function.update_of_ne hB] at hOther
      exact absurd hOther (hNew item hItem b hb)
  · rw [Function.update_of_ne hA] at hItem
    obtain rfl | hB := eq_or_ne b slot
    · rw [Function.update_self] at hOther
      exact absurd hItem (hNew item hOther a ha)
    · rw [Function.update_of_ne hB] at hOther
      exact h a b item ha hb hItem hOther

end Player

/-! ## The order of addition -/

/-- The slots in the order in which their items were added, and the time of the latest addition. -/
structure Tracked where
  player : Player
  order : List Nat
  clock : Int

namespace Tracked

def step (t : Tracked) : Call → Tracked
  | .add item now =>
    ⟨t.player.step (.add item now), t.order.erase t.player.chosenSlot ++ [t.player.chosenSlot], now⟩
  | .remove slot del => ⟨t.player.step (.remove slot del), t.order.erase slot, t.clock⟩

def Sold (t : Tracked) : Call → Prop
  | .add item _ => ∀ slot, isBuybackSlot slot → t.player.items slot ≠ some item
  | .remove _ _ => True

def OnTime (t : Tracked) : Call → Prop
  | .add _ now => t.clock ≤ now
  | .remove _ _ => True

/-- The seconds since the login, and the thirty hours that are added, fit into 32 bits. -/
def Fits (t : Tracked) : Call → Prop
  | .add _ now => now - t.player.loginTime + 30 * 3600 < 2 ^ 32
  | .remove _ _ => True

/-- Where all slots are taken, no slot before that of the earliest item has the same time. -/
def Untied (t : Tracked) : Call → Prop
  | .add _ _ => t.player.Full → ∀ first, t.order.head? = some first → ∀ slot, isBuybackSlot slot → slot < first →
      t.player.buybackTimestamp slot ≠ t.player.buybackTimestamp first
  | .remove _ _ => True

/-- Only where all slots are taken an item is deleted, and then the earliest. -/
def DeletesEarliest (t : Tracked) : Call → Prop
  | .add item now => ∀ victim, t.player.Deletes item now victim →
      t.player.Full ∧ ∃ first, t.order.head? = some first ∧ t.player.items first = some victim
  | .remove _ _ => True

structure Sound (t : Tracked) : Prop where
  searchable : t.player.Searchable
  single : t.player.Single
  nodup : t.order.Nodup
  mem_order : ∀ slot, slot ∈ t.order ↔ isBuybackSlot slot ∧ (t.player.items slot).isSome = true
  ordered : t.order.Pairwise fun a b => t.player.buybackTimestamp a ≤ t.player.buybackTimestamp b
  latest : ∀ slot ∈ t.order, ((t.player.buybackTimestamp slot).toNat : Int) ≤ t.clock - t.player.loginTime + 30 * 3600
  since : t.player.loginTime ≤ t.clock

variable {t : Tracked} {slot : Nat} {item : Item} {now : Int} {p' : Player} {new : Option Item} {time : UInt32}

theorem etime_toNat (h : t.Sound) (hLater : t.clock ≤ now) (hFits : now - t.player.loginTime + 30 * 3600 < 2 ^ 32) :
    ((t.player.etime now).toNat : Int) = now - t.player.loginTime + 30 * 3600 := by
  have hSince := h.since
  rw [Player.etime, UInt32.ofInt, UInt32.toNat_ofNat']
  omega

theorem Sound.erase (h : t.Sound) (hSets : t.player.Sets slot new time p') :
    (t.order.erase slot).Pairwise (fun a b => p'.buybackTimestamp a ≤ p'.buybackTimestamp b) ∧
      ∀ a ∈ t.order.erase slot, p'.buybackTimestamp a = t.player.buybackTimestamp a := by
  have hSame : ∀ a ∈ t.order.erase slot, p'.buybackTimestamp a = t.player.buybackTimestamp a := by
    intro a ha
    rw [hSets.times, Function.update_of_ne (h.nodup.mem_erase_iff.mp ha).1]
  refine ⟨?_, hSame⟩
  refine (h.ordered.sublist List.erase_sublist).imp_of_mem fun ha hb hLe => ?_
  rwa [hSame _ ha, hSame _ hb]

theorem Sound.removed (h : t.Sound) (hSets : t.player.Sets slot none 0 p') :
    (Tracked.mk p' (t.order.erase slot) t.clock).Sound := by
  obtain ⟨hOrdered, hSame⟩ := h.erase hSets
  refine ⟨h.searchable.sets hSets fun _ => rfl, h.single.sets hSets nofun, h.nodup.erase slot, fun other => ?_, hOrdered,
    fun other hOther => ?_, ?_⟩
  · rw [h.nodup.mem_erase_iff, h.mem_order, hSets.items]
    obtain rfl | hNe := eq_or_ne other slot
    · rw [Function.update_self]
      exact iff_of_false (fun h => h.1 rfl) fun h => Bool.false_ne_true h.2
    · rw [Function.update_of_ne hNe]
      exact and_iff_right hNe
  · rw [hSame other hOther, hSets.login]
    exact h.latest other (List.mem_of_mem_erase hOther)
  · rw [hSets.login]
    exact h.since

theorem Sound.added (h : t.Sound) (hSets : t.player.Sets slot (some item) time p') (hSlot : isBuybackSlot slot)
    (hSold : ∀ other, isBuybackSlot other → t.player.items other ≠ some item) (hLater : t.clock ≤ now)
    (hTime : (time.toNat : Int) = now - t.player.loginTime + 30 * 3600) :
    (Tracked.mk p' (t.order.erase slot ++ [slot]) now).Sound := by
  obtain ⟨hOrdered, hSame⟩ := h.erase hSets
  have hNew : p'.buybackTimestamp slot = time := by
    rw [hSets.times, Function.update_self]
  refine ⟨h.searchable.sets hSets nofun, h.single.sets hSets fun other hOther => Option.some.inj hOther ▸ hSold, ?_,
    fun other => ?_, ?_, fun other hOther => ?_, ?_⟩
  · refine List.Nodup.append (h.nodup.erase _) (List.nodup_singleton _) fun other hOld hLast => ?_
    exact (h.nodup.mem_erase_iff.mp hOld).1 (List.mem_singleton.mp hLast)
  · rw [List.mem_append, List.mem_singleton, h.nodup.mem_erase_iff, h.mem_order, hSets.items]
    obtain rfl | hNe := eq_or_ne other slot
    · rw [Function.update_self]
      exact iff_of_true (Or.inr rfl) ⟨hSlot, rfl⟩
    · rw [Function.update_of_ne hNe, or_iff_left hNe]
      exact and_iff_right hNe
  · refine List.pairwise_append.mpr ⟨hOrdered, List.pairwise_singleton .., fun a ha b hb => ?_⟩
    rw [List.mem_singleton.mp hb, hNew, hSame a ha, UInt32.le_iff_toNat_le]
    have hOld := h.latest a (List.mem_of_mem_erase ha)
    omega
  · rw [hSets.login]
    rcases List.mem_append.mp hOther with hOld | hLast
    · rw [hSame other hOld]
      have hOlder := h.latest other (List.mem_of_mem_erase hOld)
      show _ ≤ now - t.player.loginTime + 30 * 3600
      omega
    · rw [List.mem_singleton.mp hLast, hNew]
      exact Int.le_of_eq hTime
  · rw [hSets.login]
    exact Int.le_trans h.since hLater

theorem Sound.step (h : t.Sound) {call : Call} (hSold : t.Sold call) (hTime : t.OnTime call) (hFits : t.Fits call) :
    (t.step call).Sound := by
  cases call with
  | add item now =>
    exact h.added (Player.add_sets h.searchable item now) h.searchable.chosen.1 hSold hTime (etime_toNat h hTime hFits)
  | remove slot del =>
    by_cases hSlot : isBuybackSlot slot
    · exact h.removed (Player.remove_sets h.searchable.cursor hSlot del)
    · have hPlayer : t.player.step (.remove slot del) = t.player := if_neg hSlot
      have hOrder : t.order.erase slot = t.order :=
        List.erase_of_not_mem fun hMem => hSlot ((h.mem_order slot).mp hMem).1
      rw [Tracked.step, hPlayer, hOrder]
      exact h

/-! ## The victim -/

theorem deletesEarliest_iff (h : t.Sound) (call : Call) : t.DeletesEarliest call ↔ t.Untied call := by
  cases call with
  | remove slot del => exact Iff.rfl
  | add item now =>
    obtain ⟨hChosen, hVictim⟩ := h.searchable.chosen
    have hDeletes : ∀ victim, t.player.Deletes item now victim ↔ t.player.items t.player.chosenSlot = some victim :=
      fun victim => Player.deletes_iff h.searchable
    have hHead : ∀ first, t.order.head? = some first → first ∈ t.order ∧
        ∀ slot ∈ t.order, t.player.buybackTimestamp first ≤ t.player.buybackTimestamp slot := by
      intro first hFirst
      obtain ⟨rest, hRest⟩ := List.head?_eq_some_iff.mp hFirst
      have hOrdered := h.ordered
      rw [hRest] at hOrdered ⊢
      exact ⟨List.mem_cons_self, List.forall_mem_cons.mpr ⟨UInt32.le_refl _, (List.pairwise_cons.mp hOrdered).1⟩⟩
    constructor
    · intro hEarliest hFull first hFirst slot hSlot hBefore hTie
      obtain ⟨victim, hItem⟩ := Option.isSome_iff_exists.mp (hFull _ hChosen)
      obtain ⟨-, first', hFirst', hSame⟩ := hEarliest victim ((hDeletes victim).mpr hItem)
      obtain rfl := Option.some.inj (hFirst.symm.trans hFirst')
      have hRange := ((h.mem_order first).mp (hHead first hFirst).1).1
      obtain rfl := h.single _ _ victim hChosen hRange hItem hSame
      rcases hVictim with hNone | ⟨-, -, hStrict⟩
      · cases hNone.symm.trans hItem
      · exact UInt32.ne_of_lt (hStrict slot hSlot hBefore) hTie.symm
    · intro hUntied victim hDeleted
      rcases hVictim with hNone | ⟨hFull, hLe, hStrict⟩
      · cases hNone.symm.trans ((hDeletes victim).mp hDeleted)
      · have hMem := (h.mem_order t.player.chosenSlot).mpr ⟨hChosen, hFull _ hChosen⟩
        obtain ⟨first, hFirst⟩ := Option.isSome_iff_exists.mp (List.isSome_head?.mpr (List.ne_nil_of_mem hMem))
        obtain ⟨hIn, hOldest⟩ := hHead first hFirst
        have hRange := ((h.mem_order first).mp hIn).1
        refine ⟨hFull, first, hFirst, ?_⟩
        -- the two times are the same, so neither slot is before the other
        rcases Nat.lt_trichotomy t.player.chosenSlot first with hLt | hEq | hGt
        · exact absurd (UInt32.le_antisymm (hLe first hRange) (hOldest _ hMem)) (hUntied hFull first hFirst _ hChosen hLt)
        · rw [← hEq]
          exact (hDeletes victim).mp hDeleted
        · exact absurd (hOldest _ hMem) (UInt32.not_le.mpr (hStrict first hRange hGt))

/-! ## Runs -/

/-- What is promised of a call: the item is in no slot yet, and the times do not decrease and fit into 32 bits. -/
def Promised (t : Tracked) (call : Call) : Prop := t.Sold call ∧ t.OnTime call ∧ t.Fits call

/-- A call is first in, first out, and leaves every item in one slot and the cursor in the range. -/
structure Fifo (t : Tracked) (call : Call) : Prop where
  earliest : t.DeletesEarliest call
  single : (t.step call).player.Single
  cursor : isBuybackSlot (t.step call).player.currentBuybackSlot

theorem fifo_iff {call : Call} (h : t.Sound) (hPromised : t.Promised call) :
    t.Fifo call ↔ t.Untied call := by
  have hNext := h.step hPromised.1 hPromised.2.1 hPromised.2.2
  rw [← deletesEarliest_iff h]
  exact ⟨Fifo.earliest, fun hEarliest => ⟨hEarliest, hNext.single, hNext.searchable.cursor⟩⟩

/-- Every call of a run is first in, first out exactly if every addition to full slots is untied. -/
theorem along_fifo_iff (t : Tracked) (h : t.Sound) (calls : List Call)
    (hPromised : Transition.Along Tracked.step Promised t calls) :
    Transition.Along Tracked.step Fifo t calls ↔ Transition.Along Tracked.step Untied t calls := by
  induction calls generalizing t with
  | nil => exact Iff.rfl
  | cons call calls ih =>
    obtain ⟨hFirst, hRest⟩ := hPromised
    exact and_congr (fifo_iff h hFirst) (ih _ (h.step hFirst.1 hFirst.2.1 hFirst.2.2) hRest)

def loggedIn : Tracked :=
  ⟨⟨fun _ => none, fun _ => 0, fun _ => 0, fun _ => 0, buybackSlotStart, 1000000, []⟩, [], 1000000⟩

theorem loggedIn_sound : loggedIn.Sound := by
  refine ⟨⟨by decide, fun _ _ _ => rfl⟩, nofun, List.nodup_nil, fun slot => ?_, List.Pairwise.nil, nofun, Int.le_refl _⟩
  exact iff_of_false List.not_mem_nil fun h => Bool.false_ne_true h.2

instance (t : Tracked) : (call : Call) → Decidable (t.Promised call)
  | .add item now =>
    decidable_of_iff ((∀ slot ∈ List.range' buybackSlotStart (buybackSlotEnd - buybackSlotStart),
        t.player.items slot ≠ some item) ∧ t.clock ≤ now ∧ now - t.player.loginTime + 30 * 3600 < 2 ^ 32)
      (and_congr_left fun _ => forall_congr' fun _ => imp_congr_left List.mem_range'_1)
  | .remove _ _ => isTrue ⟨trivial, trivial, trivial⟩

/-- Two sales in one second, of which the first is bought back. -/
theorem along_fifo_loggedIn :
    Transition.Along Tracked.step Fifo loggedIn
        [.add ⟨1, some 5, 1⟩ 1000060, .add ⟨2, none, 3⟩ 1000060, .remove 82 false] ↔
      Transition.Along Tracked.step Untied loggedIn
        [.add ⟨1, some 5, 1⟩ 1000060, .add ⟨2, none, 3⟩ 1000060, .remove 82 false] :=
  along_fifo_iff loggedIn loggedIn_sound _ (by decide)

/-- Thirteen sales in one second, the last of which takes the place of the first. -/
def thirteenSales : List Call := (List.range 13).map fun i => .add ⟨i + 1, none, 1⟩ 1000060

/-- The next sale in that second deletes the item of the sale before, not that of the second one. -/
theorem thirteenSales_not_fifo : loggedIn.Sound ∧
    Transition.Along Tracked.step Promised loggedIn (thirteenSales ++ [.add ⟨14, none, 1⟩ 1000060]) ∧
    (Transition.run Tracked.step loggedIn thirteenSales).player.Deletes ⟨14, none, 1⟩ 1000060 ⟨13, none, 1⟩ ∧
    ¬ Transition.Along Tracked.step Fifo loggedIn (thirteenSales ++ [.add ⟨14, none, 1⟩ 1000060]) := by
  have hDeletes : (Transition.run Tracked.step loggedIn thirteenSales).player.Deletes ⟨14, none, 1⟩ 1000060
      ⟨13, none, 1⟩ := by
    rw [Player.Deletes]
    decide +kernel
  refine ⟨loggedIn_sound, by decide +kernel, hDeletes, fun hFifo => ?_⟩
  obtain ⟨-, first, hFirst, hItem⟩ := (Transition.along_append.mp hFifo).2.1.earliest ⟨13, none, 1⟩ hDeletes
  have hEarliest : (Transition.run Tracked.step loggedIn thirteenSales).order.head? = some 83 := by decide +kernel
  obtain rfl := Option.some.inj (hEarliest.symm.trans hFirst)
  exact absurd hItem (by decide +kernel)

end Tracked

end AshamaneCore.Buyback
