import AshamaneCore.Library.Withdrawal
import Mathlib.Data.List.Nodup
import Mathlib.Data.List.Range
import Mathlib.Logic.Function.Basic

/-!
# Items that are destroyed by number

`DestroyItemCount` goes through the places of a player in seven loops, with one
count of what was removed. It passes the slots of the bank bags themselves, and
the count is unsigned.
-/

namespace AshamaneCore.PlayerItems

open Library

/-! ## Items and places -/

def equipmentSlotStart : Nat := 0

def inventorySlotBagStart : Nat := 19

def inventorySlotBagEnd : Nat := 23

def inventorySlotItemStart : Nat := 23

def inventorySlotItemEnd : Nat := 47

def bankSlotItemStart : Nat := 47

def bankSlotItemEnd : Nat := 75

def bankSlotBagStart : Nat := 75

def bankSlotBagEnd : Nat := 82

def reagentSlotStart : Nat := 94

def reagentSlotEnd : Nat := 192

def childEquipmentSlotStart : Nat := 192

def childEquipmentSlotEnd : Nat := 195

def maxBagSize : Nat := 36

structure Stack where
  entry : Nat
  count : UInt32
  inTrade : Bool
  deriving DecidableEq

/-- A bag has slots, and other items have none. A bag that lies in a bag is empty. -/
structure Item extends Stack where
  slots : List (Option Stack)
  slots_le : slots.length ≤ maxBagSize

structure Inventory where
  items : Nat → Option Item
  slotCount : Nat
  slotCount_le : slotCount ≤ inventorySlotItemEnd - inventorySlotItemStart

inductive Place
  | main (slot : Nat)
  | inBag (bag slot : Nat)
  deriving DecidableEq

def Stack.isOf (s : Stack) (entry : Nat) : Bool := s.entry = entry && !s.inTrade

def Item.setSlot (item : Item) (slot : Nat) (s : Option Stack) : Item :=
  { item with slots := item.slots.set slot s, slots_le := (List.length_set ..).trans_le item.slots_le }

namespace Inventory

variable (inv : Inventory)

def setItem (slot : Nat) (item : Option Item) : Inventory := { inv with items := Function.update inv.items slot item }

def getItemByPos : Place → Option Stack
  | .main slot => (inv.items slot).map Item.toStack
  | .inBag bag slot => (inv.items bag).bind fun item => item.slots[slot]?.join

def bagSize (bag : Nat) : Nat := (inv.items bag).elim 0 fun item => item.slots.length

def destroyItem : Place → Inventory
  | .main slot => inv.setItem slot none
  | .inBag bag slot => inv.setItem bag ((inv.items bag).map fun item => item.setSlot slot none)

def setCount (count : UInt32) : Place → Inventory
  | .main slot => inv.setItem slot ((inv.items slot).map fun item => { item with count := count })
  | .inBag bag slot =>
    inv.setItem bag ((inv.items bag).map fun item =>
      item.setSlot slot (item.slots[slot]?.join.map fun s => { s with count := count }))

end Inventory

/-! ## The seven loops -/

structure Run where
  inv : Inventory
  remcount : UInt32
  done : Bool

section Loops

variable (entry : Nat) (count : UInt32)

/-- The body of the loops; only one of them looks whether the item may be taken off. -/
def consume (may : Bool) (r : Run) (p : Place) : Run :=
  if r.done then r
  else match r.inv.getItemByPos p with
  | none => r
  | some s =>
    if s.isOf entry then
      if s.count + r.remcount ≤ count then
        if may then ⟨r.inv.destroyItem p, r.remcount + s.count, count ≤ r.remcount + s.count⟩ else r
      else ⟨r.inv.setCount (s.count - count + r.remcount) p, r.remcount, true⟩
    else r

def slotLoop (may : Nat → Bool) (first last : Nat) (r : Run) : Run :=
  (List.range' first (last - first)).foldl (fun r slot => consume entry count (may slot) r (.main slot)) r

def bagLoop (first last : Nat) (r : Run) : Run :=
  (List.range' first (last - first)).foldl (fun r bag =>
    (List.range (r.inv.bagSize bag)).foldl (fun r slot => consume entry count true r (.inBag bag slot)) r) r

def destroyItemCount (unequipCheck : Bool) (canUnequip : Nat → Bool) (inv : Inventory) : Inventory :=
  let always : Nat → Bool := fun _ => true
  let backpack := slotLoop entry count always inventorySlotItemStart (inventorySlotItemStart + inv.slotCount)
    ⟨inv, 0, false⟩
  let bags := bagLoop entry count inventorySlotBagStart inventorySlotBagEnd backpack
  let equipment := slotLoop entry count (fun slot => !unequipCheck || canUnequip slot) equipmentSlotStart
    inventorySlotBagEnd bags
  let bank := slotLoop entry count always bankSlotItemStart bankSlotItemEnd equipment
  let bankBags := bagLoop entry count bankSlotBagStart bankSlotBagEnd bank
  let reagents := slotLoop entry count always reagentSlotStart reagentSlotEnd bankBags
  (slotLoop entry count always childEquipmentSlotStart childEquipmentSlotEnd reagents).inv

end Loops

/-! ## What should be removed -/

def mainPlaces (first last : Nat) : List Place := (List.range' first (last - first)).map Place.main

def bagPlaces (first last : Nat) : List Place :=
  (List.range' first (last - first)).flatMap fun bag => (List.range maxBagSize).map (Place.inBag bag)

def searched (slotCount : Nat) : List Place :=
  mainPlaces inventorySlotItemStart (inventorySlotItemStart + slotCount) ++
    bagPlaces inventorySlotBagStart inventorySlotBagEnd ++ mainPlaces equipmentSlotStart inventorySlotBagEnd ++
    mainPlaces bankSlotItemStart bankSlotItemEnd ++ bagPlaces bankSlotBagStart bankSlotBagEnd ++
    mainPlaces reagentSlotStart reagentSlotEnd ++ mainPlaces childEquipmentSlotStart childEquipmentSlotEnd

namespace Inventory

variable (inv : Inventory) (entry : Nat)

/-- The number of items of an entry that lie in a place and are not in a trade. -/
def held (p : Place) : Nat := ((inv.getItemByPos p).filter fun s => s.isOf entry).elim 0 fun s => s.count.toNat

/-- The number in the places that the loops come to, and in those they pass by. -/
def found : List Nat := (searched inv.slotCount).map (inv.held entry)

def passed : List Nat := (mainPlaces bankSlotBagStart bankSlotBagEnd).map (inv.held entry)

def total : Nat := (inv.found entry).sum + (inv.passed entry).sum

def BagsEmpty : Prop :=
  ∀ slot item, inv.items slot = some item → item.entry = entry → ∀ s ∈ item.slots, s = none

end Inventory

/-- Items of the entry that are not in a trade are gone, or there are fewer of them; all else is as it was. -/
def Less (entry : Nat) (inv after : Inventory) : Prop :=
  ∀ p, after.getItemByPos p = inv.getItemByPos p ∨ ∃ s, inv.getItemByPos p = some s ∧ s.isOf entry = true ∧
    (after.getItemByPos p = none ∨ ∃ c ≤ s.count, after.getItemByPos p = some { s with count := c })

/-- Only items of the entry are removed, and so many of them as asked for, or all. -/
structure RemovesExactly (entry : Nat) (count : UInt32) (inv after : Inventory) : Prop where
  less : Less entry inv after
  amount : after.total entry + min count.toNat (inv.total entry) = inv.total entry

def KeepsEquipped (entry : Nat) (count : UInt32) (inv : Inventory) : Prop :=
  ∀ canUnequip slot, slot < inventorySlotBagEnd → canUnequip slot = false → inv.items slot ≠ none →
    (destroyItemCount entry count true canUnequip inv).items slot ≠ none

/-! ## What a change leaves in the places -/

section Places

variable {inv : Inventory} {entry : Nat}

theorem join_set {α : Type} (l : List (Option α)) (i j : Nat) (x : Option α) (h : i < l.length ∨ x = none) :
    (l.set i x)[j]?.join = if j = i then x else l[j]?.join := by
  rw [List.getElem?_set]
  split
  · rename_i hSame
    subst hSame
    rw [if_pos rfl]
    split
    · rfl
    · rename_i hOutside
      exact (h.resolve_left hOutside).symm ▸ rfl
  · rename_i hOther
    rw [if_neg (Ne.symm hOther)]

theorem items_setItem (inv : Inventory) (slot : Nat) (item : Option Item) (other : Nat) :
    (inv.setItem slot item).items other = if other = slot then item else inv.items other :=
  Function.update_apply ..

theorem getItemByPos_setItem (inv : Inventory) (slot : Nat) (item : Option Item) (q : Place) :
    (inv.setItem slot item).getItemByPos q =
      match q with
      | .main other => if other = slot then item.map Item.toStack else inv.getItemByPos (.main other)
      | .inBag bag j =>
        if bag = slot then item.bind fun item => item.slots[j]?.join else inv.getItemByPos (.inBag bag j) := by
  cases q with
  | main other =>
    rw [Inventory.getItemByPos, items_setItem]
    dsimp only
    split <;> rfl
  | inBag bag j =>
    rw [Inventory.getItemByPos, items_setItem]
    dsimp only
    split <;> rfl

/-- A slot of a bag that is set anew. -/
theorem getItemByPos_setSlot {bag slot : Nat} {item : Item} (hAt : inv.items bag = some item) (x : Option Stack)
    (hOk : slot < item.slots.length ∨ x = none) (q : Place) :
    (inv.setItem bag (some (item.setSlot slot x))).getItemByPos q =
      if q = .inBag bag slot then x else inv.getItemByPos q := by
  rw [getItemByPos_setItem]
  cases q with
  | main other =>
    dsimp only
    rw [if_neg (c := Place.main other = Place.inBag bag slot) Place.noConfusion]
    split
    · rename_i hSame
      rw [hSame, Inventory.getItemByPos, hAt]
      rfl
    · rfl
  | inBag other j =>
    dsimp only
    split
    · rename_i hSame
      subst hSame
      rw [Option.bind_some, Item.setSlot, join_set _ _ _ _ hOk, Inventory.getItemByPos, hAt, Option.bind_some]
      simp
    · rename_i hOther
      rw [if_neg]
      rintro ⟨⟩
      exact hOther rfl

theorem getItemByPos_destroyItem {p : Place} {s : Stack} (hItem : inv.getItemByPos p = some s)
    (hEntry : s.entry = entry) (hBags : inv.BagsEmpty entry) (q : Place) :
    (inv.destroyItem p).getItemByPos q = if q = p then none else inv.getItemByPos q := by
  cases p with
  | main slot =>
    obtain ⟨item, hAt, rfl⟩ := Option.map_eq_some_iff.mp hItem
    rw [Inventory.destroyItem, getItemByPos_setItem]
    cases q with
    | main other => simp
    | inBag bag j =>
      dsimp only
      rw [if_neg (c := Place.inBag bag j = Place.main slot) Place.noConfusion]
      split
      · rename_i hSame
        rw [hSame, Inventory.getItemByPos, hAt, Option.bind_none, Option.bind_some]
        cases hSlot : item.slots[j]? with
        | none => rfl
        | some inside => rw [hBags slot item hAt hEntry inside (List.mem_of_getElem? hSlot), Option.join_some]
      · rfl
  | inBag bag slot =>
    obtain ⟨item, hAt, hSlot⟩ := Option.bind_eq_some_iff.mp hItem
    rw [Inventory.destroyItem, hAt, Option.map_some]
    exact getItemByPos_setSlot hAt none (Or.inr rfl) q

theorem getItemByPos_setCount {p : Place} {s : Stack} (hItem : inv.getItemByPos p = some s) (c : UInt32) (q : Place) :
    (inv.setCount c p).getItemByPos q = if q = p then some { s with count := c } else inv.getItemByPos q := by
  cases p with
  | main slot =>
    obtain ⟨item, hAt, rfl⟩ := Option.map_eq_some_iff.mp hItem
    rw [Inventory.setCount, getItemByPos_setItem, hAt]
    cases q with
    | main other => simp
    | inBag bag j =>
      dsimp only
      rw [if_neg (c := Place.inBag bag j = Place.main slot) Place.noConfusion]
      split
      · rename_i hSame
        rw [hSame, Inventory.getItemByPos, hAt]
        rfl
      · rfl
  | inBag bag slot =>
    obtain ⟨item, hAt, hSlot⟩ := Option.bind_eq_some_iff.mp hItem
    have hLt : slot < item.slots.length := by
      by_contra hOutside
      rw [List.getElem?_eq_none (Nat.le_of_not_lt hOutside)] at hSlot
      cases hSlot
    rw [Inventory.setCount, hAt, Option.map_some, hSlot]
    exact getItemByPos_setSlot hAt _ (Or.inl hLt) q

end Places

/-! ## One place -/

section Step

variable {entry : Nat} {count : UInt32} {may : Bool} {r : Run} {p : Place}

theorem entry_of_isOf {s : Stack} (h : s.isOf entry = true) : s.entry = entry := by
  rw [Stack.isOf, Bool.and_eq_true] at h
  exact of_decide_eq_true h.1

theorem consume_cases (entry : Nat) (count : UInt32) (may : Bool) (r : Run) (p : Place) :
    consume entry count may r p = r ∨
    (∃ s, r.inv.getItemByPos p = some s ∧ s.isOf entry = true ∧ may = true ∧ consume entry count may r p =
      ⟨r.inv.destroyItem p, r.remcount + s.count, count ≤ r.remcount + s.count⟩) ∨
    ∃ s, r.inv.getItemByPos p = some s ∧ s.isOf entry = true ∧ r.done = false ∧
      ¬ s.count + r.remcount ≤ count ∧ consume entry count may r p = ⟨r.inv.setCount (s.count - count + r.remcount) p, r.remcount, true⟩ := by
  rw [consume]
  cases hDone : r.done with
  | true => exact Or.inl rfl
  | false =>
    cases hItem : r.inv.getItemByPos p with
    | none => exact Or.inl rfl
    | some s =>
      rw [if_neg Bool.false_ne_true]
      dsimp only
      split
      · rename_i hOf
        split
        · split
          · rename_i hMay
            exact Or.inr (Or.inl ⟨s, rfl, hOf, hMay, rfl⟩)
          · exact Or.inl rfl
        · rename_i hPart
          exact Or.inr (Or.inr ⟨s, rfl, hOf, rfl, hPart, rfl⟩)
      · exact Or.inl rfl

variable {inv : Inventory}

theorem bagsEmpty_setItem (h : inv.BagsEmpty entry) (slot : Nat) {item : Option Item}
    (hItem : ∀ i, item = some i → i.entry = entry → ∀ s ∈ i.slots, s = none) :
    (inv.setItem slot item).BagsEmpty entry := by
  intro other i hAt
  rw [items_setItem] at hAt
  split at hAt
  · exact hItem i hAt
  · exact h other i hAt

theorem bagsEmpty_destroyItem (h : inv.BagsEmpty entry) (p : Place) :
    (inv.destroyItem p).BagsEmpty entry := by
  cases p with
  | main slot => exact bagsEmpty_setItem h slot fun i hNone => by cases hNone
  | inBag bag slot =>
    refine bagsEmpty_setItem h bag fun i hAt hEntry s hMem => ?_
    obtain ⟨item, hItem, rfl⟩ := Option.map_eq_some_iff.mp hAt
    rcases List.mem_or_eq_of_mem_set hMem with hOld | rfl
    · exact h bag item hItem hEntry s hOld
    · rfl

theorem bagsEmpty_setCount (h : inv.BagsEmpty entry) (c : UInt32) (p : Place) :
    (inv.setCount c p).BagsEmpty entry := by
  cases p with
  | main slot =>
    refine bagsEmpty_setItem h slot fun i hAt hEntry s hMem => ?_
    obtain ⟨item, hItem, rfl⟩ := Option.map_eq_some_iff.mp hAt
    exact h slot item hItem hEntry s hMem
  | inBag bag slot =>
    refine bagsEmpty_setItem h bag fun i hAt hEntry s hMem => ?_
    obtain ⟨item, hItem, rfl⟩ := Option.map_eq_some_iff.mp hAt
    have hEmpty := h bag item hItem hEntry
    rcases List.mem_or_eq_of_mem_set hMem with hOld | rfl
    · exact hEmpty s hOld
    · cases hSlot : item.slots[slot]? with
      | none => rfl
      | some inside => rw [hEmpty inside (List.mem_of_getElem? hSlot)]; rfl

theorem consume_bagsEmpty (h : r.inv.BagsEmpty entry) : (consume entry count may r p).inv.BagsEmpty entry := by
  rcases consume_cases entry count may r p with hSame | ⟨s, -, -, -, hGone⟩ | ⟨s, -, -, -, -, hPart⟩
  · rwa [hSame]
  · rw [hGone]
    exact bagsEmpty_destroyItem h p
  · rw [hPart]
    exact bagsEmpty_setCount h _ p

theorem consume_other (h : r.inv.BagsEmpty entry) {q : Place} (hOther : q ≠ p) :
    (consume entry count may r p).inv.getItemByPos q = r.inv.getItemByPos q := by
  rcases consume_cases entry count may r p with hSame | ⟨s, hItem, hOf, -, hGone⟩ | ⟨s, hItem, -, -, -, hPart⟩
  · rw [hSame]
  · rw [hGone, getItemByPos_destroyItem hItem (entry_of_isOf hOf) h, if_neg hOther]
  · rw [hPart, getItemByPos_setCount hItem, if_neg hOther]

def Going (count : UInt32) (r : Run) : Prop := r.done = false → r.remcount < count

theorem consume_going (h : Going count r) : Going count (consume entry count may r p) := by
  rcases consume_cases entry count may r p with hSame | ⟨s, -, -, -, hGone⟩ | ⟨s, -, -, -, -, hPart⟩
  · rwa [hSame]
  · rw [hGone]
    exact fun hMore => UInt32.not_le.mp (of_decide_eq_false hMore)
  · rw [hPart]
    exact fun hDone => by cases hDone

theorem part_le {c rem : UInt32} (hRem : rem < count) (hPart : ¬ c + rem ≤ count) : c - count + rem ≤ c := by
  rw [UInt32.le_iff_toNat_le, UInt32.toNat_add] at hPart
  rw [UInt32.lt_iff_toNat_lt] at hRem
  rw [UInt32.le_iff_toNat_le, UInt32.toNat_add, UInt32.toNat_sub]
  have hC := c.toNat_lt
  have hCount := count.toNat_lt
  omega

theorem consume_less (h : r.inv.BagsEmpty entry) (hGoing : Going count r) :
    Less entry r.inv (consume entry count may r p).inv := by
  intro q
  rcases eq_or_ne q p with rfl | hOther
  · rcases consume_cases entry count may r q with
      hSame | ⟨s, hItem, hOf, -, hGone⟩ | ⟨s, hItem, hOf, hDone, hMore, hPart⟩
    · exact Or.inl (by rw [hSame])
    · refine Or.inr ⟨s, hItem, hOf, Or.inl ?_⟩
      rw [hGone, getItemByPos_destroyItem hItem (entry_of_isOf hOf) h, if_pos rfl]
    · refine Or.inr ⟨s, hItem, hOf, Or.inr ⟨s.count - count + r.remcount, part_le (hGoing hDone) hMore, ?_⟩⟩
      rw [hPart, getItemByPos_setCount hItem, if_pos rfl]
  · exact Or.inl (consume_other h hOther)

theorem Less.trans {first second third : Inventory} (h : Less entry first second) (hNext : Less entry second third) :
    Less entry first third := by
  intro p
  rcases h p with hSame | ⟨s, hItem, hOf, hLess⟩
  · rcases hNext p with hAgain | ⟨s, hItem, hOf, hLess⟩
    · exact Or.inl (hAgain.trans hSame)
    · exact Or.inr ⟨s, hSame.symm.trans hItem, hOf, hLess⟩
  · refine Or.inr ⟨s, hItem, hOf, ?_⟩
    rcases hNext p with hAgain | ⟨other, hOther, -, hMore⟩
    · exact hLess.imp (fun hNone => hAgain.trans hNone) fun ⟨c, hc, hPart⟩ => ⟨c, hc, hAgain.trans hPart⟩
    · refine hMore.imp_right fun ⟨c, hc, hPart⟩ => ?_
      rcases hLess with hNone | ⟨d, hd, hFirst⟩
      · cases hNone.symm.trans hOther
      · obtain rfl := Option.some.inj (hFirst.symm.trans hOther)
        exact ⟨c, UInt32.le_trans hc hd, hPart⟩

end Step

/-! ## A run over places -/

section Run

variable {entry : Nat} {count : UInt32} {r : Run}

variable {inv : Inventory} {p : Place}

theorem held_of_some {s : Stack} (hItem : inv.getItemByPos p = some s) :
    inv.held entry p = if s.isOf entry then s.count.toNat else 0 := by
  rw [Inventory.held, hItem, Option.filter_some]
  split <;> rfl

theorem held_of_none (hItem : inv.getItemByPos p = none) : inv.held entry p = 0 := by
  rw [Inventory.held, hItem]
  rfl

theorem held_congr {after : Inventory} (h : after.getItemByPos p = inv.getItemByPos p) :
    after.held entry p = inv.held entry p := by rw [Inventory.held, h, Inventory.held]

theorem held_lt (inv : Inventory) (entry : Nat) (p : Place) : inv.held entry p < 2 ^ 32 := by
  cases hItem : inv.getItemByPos p with
  | none =>
    rw [held_of_none hItem]
    decide
  | some s =>
    rw [held_of_some hItem]
    split
    · exact s.count.toNat_lt
    · decide

theorem consume_held (hBags : r.inv.BagsEmpty entry) (hDone : r.done = false) (hRem : r.remcount < count) (p : Place) :
    let sum := (r.inv.held entry p + r.remcount.toNat) % 2 ^ 32
    let after := consume entry count true r p
    if sum ≤ count.toNat then
      after.inv.held entry p = 0 ∧
        if count.toNat ≤ sum then after.done = true else after.done = false ∧ after.remcount.toNat = sum
    else after.inv.held entry p = sum - count.toNat ∧ after.done = true := by
  have hStay : ∀ {n : Nat}, n = 0 → (n + r.remcount.toNat) % 2 ^ 32 = r.remcount.toNat := fun hNone => by
    rw [hNone, Nat.zero_add, Nat.mod_eq_of_lt r.remcount.toNat_lt]
  have hBelow : r.remcount.toNat < count.toNat := UInt32.lt_iff_toNat_lt.mp hRem
  have hPass : r.inv.held entry p = 0 → consume entry count true r p = r →
      let sum := (r.inv.held entry p + r.remcount.toNat) % 2 ^ 32
      let after := consume entry count true r p
      if sum ≤ count.toNat then
        after.inv.held entry p = 0 ∧
          if count.toNat ≤ sum then after.done = true else after.done = false ∧ after.remcount.toNat = sum
      else after.inv.held entry p = sum - count.toNat ∧ after.done = true := by
    intro hNone hSame
    dsimp only
    rw [hStay hNone, hSame, if_pos hBelow.le, if_neg (Nat.not_le.mpr hBelow)]
    exact ⟨hNone, hDone, rfl⟩
  cases hItem : r.inv.getItemByPos p with
  | none =>
    refine hPass (held_of_none hItem) ?_
    rw [consume, hDone, hItem]
    rfl
  | some s =>
    cases hOf : s.isOf entry with
    | false =>
      refine hPass ?_ ?_
      · rw [held_of_some hItem, hOf]
        rfl
      · rw [consume, hDone, hItem, if_neg Bool.false_ne_true]
        dsimp only
        rw [hOf, if_neg Bool.false_ne_true]
    | true =>
      have hHeld : r.inv.held entry p = s.count.toNat := by
        rw [held_of_some hItem, hOf]
        rfl
      have hSum : (s.count.toNat + r.remcount.toNat) % 2 ^ 32 = (s.count + r.remcount).toNat :=
        (UInt32.toNat_add ..).symm
      have hStep : consume entry count true r p =
          if s.count + r.remcount ≤ count then
            ⟨r.inv.destroyItem p, r.remcount + s.count, count ≤ r.remcount + s.count⟩
          else ⟨r.inv.setCount (s.count - count + r.remcount) p, r.remcount, true⟩ := by
        rw [consume, hDone, hItem, if_neg Bool.false_ne_true]
        dsimp only
        rw [hOf, if_pos rfl, if_pos rfl]
      dsimp only
      rw [hHeld, hSum, hStep]
      simp only [← UInt32.le_iff_toNat_le]
      split
      · refine ⟨held_of_none ?_, ?_⟩
        · rw [getItemByPos_destroyItem hItem (entry_of_isOf hOf) hBags, if_pos rfl]
        · rw [UInt32.add_comm s.count]
          split
          · rename_i hReached
            exact decide_eq_true hReached
          · rename_i hMore
            exact ⟨decide_eq_false hMore, rfl⟩
      · rename_i hPart
        refine ⟨?_, rfl⟩
        have hNow : (r.inv.setCount (s.count - count + r.remcount) p).getItemByPos p =
            some { s with count := s.count - count + r.remcount } := by
          rw [getItemByPos_setCount hItem, if_pos rfl]
        have hSame : Stack.isOf { s with count := s.count - count + r.remcount } entry = true := hOf
        rw [held_of_some hNow, hSame, if_pos rfl, UInt32.toNat_add, UInt32.toNat_sub, UInt32.toNat_add]
        rw [UInt32.le_iff_toNat_le, UInt32.toNat_add] at hPart
        have hCount := s.count.toNat_lt
        have hAsked := count.toNat_lt
        omega

theorem consume_done (hDone : r.done = true) (p : Place) : consume entry count true r p = r := by
  rw [consume, if_pos hDone]

theorem foldl_consume_done (hDone : r.done = true) (places : List Place) :
    places.foldl (consume entry count true) r = r := by
  induction places with
  | nil => rfl
  | cons p places ih => rw [List.foldl_cons, consume_done hDone, ih]

theorem foldl_consume {places : List Place} (hNodup : places.Nodup) (hBags : r.inv.BagsEmpty entry)
    (hGoing : Going count r) :
    let after := places.foldl (consume entry count true) r
    after.inv.BagsEmpty entry ∧ Less entry r.inv after.inv ∧
      (∀ q, q ∉ places → after.inv.getItemByPos q = r.inv.getItemByPos q) ∧
      (r.done = false → places.map (after.inv.held entry) =
        Withdrawal.remains (2 ^ 32) count.toNat r.remcount.toNat (places.map (r.inv.held entry))) := by
  induction places generalizing r with
  | nil => exact ⟨hBags, fun p => Or.inl rfl, fun q _ => rfl, fun _ => rfl⟩
  | cons p places ih =>
    obtain ⟨hFresh, hRest⟩ := List.nodup_cons.mp hNodup
    have hNext : (consume entry count true r p).inv.BagsEmpty entry := consume_bagsEmpty hBags
    obtain ⟨hEmpty, hLess, hOther, hHeld⟩ := ih hRest hNext (consume_going hGoing)
    refine ⟨hEmpty, (consume_less hBags hGoing).trans hLess, fun q hNot => ?_, fun hDone => ?_⟩
    · obtain ⟨hNe, hNotIn⟩ := not_or.mp (List.mem_cons.not.mp hNot)
      exact (hOther q hNotIn).trans (consume_other hBags hNe)
    · have hHere : ((p :: places).foldl (consume entry count true) r).inv.held entry p =
          (consume entry count true r p).inv.held entry p := held_congr (hOther p hFresh)
      have hBehind : places.map ((consume entry count true r p).inv.held entry) = places.map (r.inv.held entry) :=
        List.map_congr_left fun q hMem => held_congr (consume_other hBags fun hSame => hFresh (hSame ▸ hMem))
      have hFinish : (consume entry count true r p).done = true →
          places.map (((p :: places).foldl (consume entry count true) r).inv.held entry) =
            places.map (r.inv.held entry) := fun hStop => by
        rw [List.foldl_cons, foldl_consume_done hStop, hBehind]
      have hStep := consume_held hBags hDone (hGoing hDone) p
      dsimp only at hStep
      rw [List.map_cons, List.map_cons, Withdrawal.remains, hHere]
      split at hStep
      · rename_i hWhole
        rw [if_pos hWhole, hStep.1]
        split
        · rename_i hReached
          have hStop := hStep.2
          rw [if_pos hReached] at hStop
          rw [hFinish hStop]
        · rename_i hMore
          have hGo := hStep.2
          rw [if_neg hMore] at hGo
          rw [← hGo.2, ← hBehind]
          exact congrArg (0 :: ·) (hHeld hGo.1)
      · rename_i hPart
        rw [if_neg hPart, hStep.1, hFinish hStep.2]

end Run

end AshamaneCore.PlayerItems
