import AshamaneCore.Game.DestroyItemCount

/-!
# Exactly so many items

The seven loops are one run over places that are all different. It removes what
a withdrawal from their stacks takes, and the bags in the bank are passed by.
-/

namespace AshamaneCore.PlayerItems

open Library

/-! ## The loops as one run -/

section Flat

variable {entry : Nat} {count : UInt32} {r : Run}

structure Good (entry : Nat) (count : UInt32) (r : Run) : Prop where
  bags : r.inv.BagsEmpty entry
  going : Going count r

theorem Good.foldl (h : Good entry count r) (places : List Place) :
    Good entry count (places.foldl (consume entry count true) r) := by
  induction places generalizing r with
  | nil => exact h
  | cons p places ih =>
    have hNext : Good entry count (consume entry count true r p) :=
      ⟨consume_bagsEmpty h.bags, consume_going h.going⟩
    exact ih hNext

theorem mem_mainPlaces {first last : Nat} {p : Place} :
    p ∈ mainPlaces first last ↔ ∃ slot, p = .main slot ∧ first ≤ slot ∧ slot < last := by
  rw [mainPlaces, List.mem_map]
  constructor
  · rintro ⟨slot, hMem, rfl⟩
    rw [List.mem_range'_1] at hMem
    exact ⟨slot, rfl, by omega⟩
  · rintro ⟨slot, rfl, hFirst, hLast⟩
    exact ⟨slot, List.mem_range'_1.mpr (by omega), rfl⟩

theorem mem_bagPlaces {first last : Nat} {p : Place} :
    p ∈ bagPlaces first last ↔
      ∃ bag slot, p = .inBag bag slot ∧ first ≤ bag ∧ bag < last ∧ slot < maxBagSize := by
  rw [bagPlaces, List.mem_flatMap]
  constructor
  · rintro ⟨bag, hBag, hMem⟩
    obtain ⟨slot, hSlot, rfl⟩ := List.mem_map.mp hMem
    rw [List.mem_range'_1] at hBag
    exact ⟨bag, slot, rfl, by omega, by omega, List.mem_range.mp hSlot⟩
  · rintro ⟨bag, slot, rfl, hFirst, hLast, hSlot⟩
    exact ⟨bag, List.mem_range'_1.mpr (by omega), List.mem_map.mpr ⟨slot, List.mem_range.mpr hSlot, rfl⟩⟩

theorem nodup_mainPlaces (first last : Nat) : (mainPlaces first last).Nodup :=
  List.Nodup.map (fun _ _ => Place.main.inj) List.nodup_range'

theorem nodup_inBag (bag n : Nat) : ((List.range n).map (Place.inBag bag)).Nodup :=
  List.Nodup.map (fun _ _ hSame => (Place.inBag.inj hSame).2) List.nodup_range

theorem nodup_bagPlaces (first last : Nat) : (bagPlaces first last).Nodup := by
  refine List.nodup_flatMap.mpr ⟨fun bag _ => nodup_inBag bag _, ?_⟩
  refine List.Pairwise.imp (fun {bag other} hNe => ?_) (List.nodup_range' (n := last - first))
  rw [Function.onFun_apply, List.disjoint_iff_ne]
  rintro p hHere q hThere rfl
  obtain ⟨slot, -, rfl⟩ := List.mem_map.mp hHere
  obtain ⟨position, -, hSame⟩ := List.mem_map.mp hThere
  exact hNe (Place.inBag.inj hSame).1.symm

theorem slotLoop_eq (first last : Nat) (may : Nat → Bool) (hMay : ∀ slot, may slot = true) (r : Run) :
    slotLoop entry count may first last r = (mainPlaces first last).foldl (consume entry count true) r := by
  rw [slotLoop, mainPlaces, List.foldl_map]
  simp only [hMay]

theorem foldl_consume_none {places : List Place} (h : ∀ p ∈ places, r.inv.getItemByPos p = none) :
    places.foldl (consume entry count true) r = r := by
  induction places with
  | nil => rfl
  | cons p places ih =>
    obtain ⟨hHere, hRest⟩ := List.forall_mem_cons.mp h
    have hSame : consume entry count true r p = r := by
      rw [consume, hHere]
      split <;> rfl
    rw [List.foldl_cons, hSame, ih hRest]

theorem bagSize_le (inv : Inventory) (bag : Nat) : inv.bagSize bag ≤ maxBagSize := by
  rw [Inventory.bagSize]
  cases inv.items bag with
  | none => exact Nat.zero_le _
  | some item => exact item.slots_le

theorem getItemByPos_outside (inv : Inventory) {bag slot : Nat} (h : inv.bagSize bag ≤ slot) :
    inv.getItemByPos (.inBag bag slot) = none := by
  rw [Inventory.bagSize] at h
  rw [Inventory.getItemByPos]
  cases hItem : inv.items bag with
  | none => rfl
  | some item =>
    rw [hItem] at h
    rw [Option.bind_some, List.getElem?_eq_none h]
    rfl

theorem foldl_bag (h : Good entry count r) (bag : Nat) :
    (List.range (r.inv.bagSize bag)).foldl (fun r slot => consume entry count true r (.inBag bag slot)) r =
      ((List.range maxBagSize).map (Place.inBag bag)).foldl (consume entry count true) r := by
  obtain ⟨more, hMore⟩ := Nat.exists_eq_add_of_le (bagSize_le r.inv bag)
  obtain ⟨-, -, hOther, -⟩ := foldl_consume (nodup_inBag bag (r.inv.bagSize bag)) h.bags h.going
  rw [hMore, List.range_add, List.map_append, List.foldl_append, ← List.foldl_map]
  refine (foldl_consume_none fun p hMem => ?_).symm
  obtain ⟨slot, hSlot, rfl⟩ := List.mem_map.mp hMem
  obtain ⟨beyond, -, rfl⟩ := List.mem_map.mp hSlot
  rw [hOther, getItemByPos_outside _ (Nat.le_add_right _ _)]
  intro hInside
  obtain ⟨position, hRange, hSame⟩ := List.mem_map.mp hInside
  rw [List.mem_range, (Place.inBag.inj hSame).2] at hRange
  omega

theorem bagLoop_eq (h : Good entry count r) (first last : Nat) :
    bagLoop entry count first last r = (bagPlaces first last).foldl (consume entry count true) r := by
  rw [bagLoop, bagPlaces]
  generalize List.range' first (last - first) = bags
  induction bags generalizing r with
  | nil => rfl
  | cons bag bags ih =>
    rw [List.foldl_cons, foldl_bag h, ih (h.foldl _), List.flatMap_cons, List.foldl_append]

theorem destroyItemCount_eq {inv : Inventory} (hBags : inv.BagsEmpty entry) (hCount : 0 < count)
    (canUnequip : Nat → Bool) : destroyItemCount entry count false canUnequip inv =
      ((searched inv.slotCount).foldl (consume entry count true) ⟨inv, 0, false⟩).inv := by
  have hStart : Good entry count ⟨inv, 0, false⟩ := ⟨hBags, fun _ => hCount⟩
  have hAlways : ∀ slot : Nat, (!false || canUnequip slot) = true := fun _ => rfl
  have hBackpack := hStart.foldl (mainPlaces inventorySlotItemStart (inventorySlotItemStart + inv.slotCount))
  have hEquipment := (hBackpack.foldl (bagPlaces inventorySlotBagStart inventorySlotBagEnd)).foldl
    (mainPlaces equipmentSlotStart inventorySlotBagEnd)
  have hBank := hEquipment.foldl (mainPlaces bankSlotItemStart bankSlotItemEnd)
  rw [destroyItemCount]
  simp only [slotLoop_eq _ _ (fun _ => true) (fun _ => rfl), slotLoop_eq _ _ _ hAlways]
  rw [bagLoop_eq hBackpack, bagLoop_eq hBank]
  simp only [searched, List.foldl_append]

end Flat

/-! ## What is removed -/

section Exact

variable {entry : Nat} {count : UInt32} {inv : Inventory}

/-- The number of the loop that comes to a place; none of them comes to the bags in the bank. -/
def loopOf : Place → Nat
  | .main slot =>
    if slot < 23 then 2 else if slot < 47 then 0 else if slot < 75 then 3 else if slot < 82 then 7
    else if slot < 192 then 5 else 6
  | .inBag bag _ => if bag < 23 then 1 else 4

variable {k : Nat}

theorem loopOf_main {first last : Nat} (h : ∀ slot, first ≤ slot → slot < last → loopOf (.main slot) = k) :
    ∀ p ∈ mainPlaces first last, loopOf p = k := by
  intro p hMem
  obtain ⟨slot, rfl, hFirst, hLast⟩ := mem_mainPlaces.mp hMem
  exact h slot hFirst hLast

theorem loopOf_bag {first last : Nat}
    (h : ∀ bag slot, first ≤ bag → bag < last → loopOf (.inBag bag slot) = k) :
    ∀ p ∈ bagPlaces first last, loopOf p = k := by
  intro p hMem
  obtain ⟨bag, slot, rfl, hFirst, hLast, -⟩ := mem_bagPlaces.mp hMem
  exact h bag slot hFirst hLast

def Before (k : Nat) (places : List Place) : Prop := places.Nodup ∧ ∀ p ∈ places, loopOf p < k

theorem Before.append {first second : List Place} (h : Before k first) (hNodup : second.Nodup)
    (hLoop : ∀ p ∈ second, loopOf p = k) : Before (k + 1) (first ++ second) := by
  refine ⟨List.nodup_append.mpr ⟨h.1, hNodup, fun p hFirst q hSecond hSame => ?_⟩, fun p hMem => ?_⟩
  · have hLess := h.2 p hFirst
    rw [hSame, hLoop q hSecond] at hLess
    exact Nat.lt_irrefl k hLess
  · rcases List.mem_append.mp hMem with hFirst | hSecond
    · exact Nat.lt_succ_of_lt (h.2 p hFirst)
    · rw [hLoop p hSecond]
      exact Nat.lt_succ_self k

theorem searched_before (slotCount : Nat) (h : slotCount ≤ inventorySlotItemEnd - inventorySlotItemStart) :
    Before 7 (searched slotCount) := by
  simp only [inventorySlotItemEnd, inventorySlotItemStart] at h
  have hNone : Before 0 [] := ⟨List.nodup_nil, fun p hMem => absurd hMem List.not_mem_nil⟩
  have hBackpack := hNone.append (nodup_mainPlaces inventorySlotItemStart (inventorySlotItemStart + slotCount))
    (loopOf_main fun slot hFirst hLast => by
      simp only [inventorySlotItemStart] at hFirst hLast
      rw [loopOf]
      split_ifs <;> omega)
  have hBags := hBackpack.append (nodup_bagPlaces inventorySlotBagStart inventorySlotBagEnd)
    (loopOf_bag fun bag slot _ hLast => if_pos hLast)
  have hEquipment := hBags.append (nodup_mainPlaces equipmentSlotStart inventorySlotBagEnd)
    (loopOf_main fun slot _ hLast => if_pos hLast)
  have hBank := hEquipment.append (nodup_mainPlaces bankSlotItemStart bankSlotItemEnd)
    (loopOf_main fun slot hFirst hLast => by
      simp only [bankSlotItemStart, bankSlotItemEnd] at hFirst hLast
      rw [loopOf]
      split_ifs <;> omega)
  have hBankBags := hBank.append (nodup_bagPlaces bankSlotBagStart bankSlotBagEnd)
    (loopOf_bag fun bag slot hFirst _ => by
      simp only [bankSlotBagStart] at hFirst
      exact if_neg (by omega))
  have hReagents := hBankBags.append (nodup_mainPlaces reagentSlotStart reagentSlotEnd)
    (loopOf_main fun slot hFirst hLast => by
      simp only [reagentSlotStart, reagentSlotEnd] at hFirst hLast
      rw [loopOf]
      split_ifs <;> omega)
  exact hReagents.append (nodup_mainPlaces childEquipmentSlotStart childEquipmentSlotEnd)
    (loopOf_main fun slot hFirst hLast => by
      simp only [childEquipmentSlotStart, childEquipmentSlotEnd] at hFirst hLast
      rw [loopOf]
      split_ifs <;> omega)

theorem bankBag_not_searched {slotCount : Nat} (h : slotCount ≤ inventorySlotItemEnd - inventorySlotItemStart)
    {p : Place} (hMem : p ∈ mainPlaces bankSlotBagStart bankSlotBagEnd) : p ∉ searched slotCount := by
  intro hSearched
  have hLess := (searched_before slotCount h).2 p hSearched
  obtain ⟨slot, rfl, hFirst, hLast⟩ := mem_mainPlaces.mp hMem
  simp only [bankSlotBagStart, bankSlotBagEnd] at hFirst hLast
  rw [loopOf] at hLess
  split_ifs at hLess <;> omega

theorem consume_slotCount (may : Bool) (r : Run) (p : Place) :
    (consume entry count may r p).inv.slotCount = r.inv.slotCount := by
  rcases consume_cases entry count may r p with hSame | ⟨s, -, -, -, hGone⟩ | ⟨s, -, -, -, -, hPart⟩
  · rw [hSame]
  · rw [hGone]
    cases p <;> rfl
  · rw [hPart]
    cases p <;> rfl

theorem foldl_slotCount (entry : Nat) (count : UInt32) (places : List Place) (r : Run) :
    (places.foldl (consume entry count true) r).inv.slotCount = r.inv.slotCount := by
  induction places generalizing r with
  | nil => rfl
  | cons p places ih => exact (ih _).trans (consume_slotCount true r p)

theorem destroyItemCount_spec (hBags : inv.BagsEmpty entry) (hCount : 0 < count) (canUnequip : Nat → Bool) :
    Less entry inv (destroyItemCount entry count false canUnequip inv) ∧
      (destroyItemCount entry count false canUnequip inv).found entry =
        Withdrawal.remains (2 ^ 32) count.toNat 0 (inv.found entry) ∧
      (destroyItemCount entry count false canUnequip inv).passed entry = inv.passed entry := by
  have hNodup := (searched_before inv.slotCount inv.slotCount_le).1
  obtain ⟨-, hLess, hOther, hHeld⟩ := foldl_consume (r := ⟨inv, 0, false⟩) hNodup hBags fun _ => hCount
  have hSlots := foldl_slotCount entry count (searched inv.slotCount) ⟨inv, 0, false⟩
  rw [destroyItemCount_eq hBags hCount]
  refine ⟨hLess, ?_, ?_⟩
  · rw [Inventory.found, hSlots]
    exact hHeld rfl
  · refine List.map_congr_left fun p hMem => held_congr (hOther p ?_)
    exact bankBag_not_searched inv.slotCount_le hMem

theorem removesExactly_iff (hBags : inv.BagsEmpty entry) (hCount : 0 < count) (canUnequip : Nat → Bool) :
    RemovesExactly entry count inv (destroyItemCount entry count false canUnequip inv) ↔
      Withdrawal.Bounded (2 ^ 32) count.toNat 0 (inv.found entry) ∧
        (count.toNat ≤ (inv.found entry).sum ∨ (inv.passed entry).sum = 0) := by
  obtain ⟨hLess, hFound, hPassed⟩ := destroyItemCount_spec hBags hCount canUnequip
  have hPiles : ∀ pile ∈ inv.found entry, pile < 2 ^ 32 := by
    intro pile hMem
    obtain ⟨p, -, rfl⟩ := List.mem_map.mp hMem
    exact held_lt inv entry p
  have hAmount : (destroyItemCount entry count false canUnequip inv).total entry =
      (Withdrawal.remains (2 ^ 32) count.toNat 0 (inv.found entry)).sum + (inv.passed entry).sum := by
    rw [Inventory.total, hFound, hPassed]
  have hExact := Withdrawal.exact_iff count.toNat_lt (UInt32.lt_iff_toNat_lt.mp hCount) hPiles (inv.passed entry).sum
  constructor
  · intro h
    have hTaken := h.amount
    rw [hAmount] at hTaken
    exact hExact.mp hTaken
  · intro h
    refine ⟨hLess, ?_⟩
    rw [hAmount]
    exact hExact.mpr h

end Exact

/-! ## What may not be taken off -/

section Equipped

variable {entry : Nat} {count : UInt32} {slot : Nat}

theorem setItem_ne_none {inv : Inventory} (h : inv.items slot ≠ none) {other : Nat} {item : Option Item}
    (hItem : other = slot → item ≠ none) : (inv.setItem other item).items slot ≠ none := by
  rw [items_setItem]
  split
  · rename_i hSame
    exact hItem hSame.symm
  · exact h

theorem map_ne_none {inv : Inventory} (h : inv.items slot ≠ none) (f : Item → Item) :
    (inv.items slot).map f ≠ none := fun hNone => h (Option.map_eq_none_iff.mp hNone)

variable {r : Run}

theorem consume_keeps {may : Bool} {p : Place} (h : r.inv.items slot ≠ none)
    (hMay : p = .main slot → may = false) : (consume entry count may r p).inv.items slot ≠ none := by
  rcases consume_cases entry count may r p with hSame | ⟨s, -, -, hTrue, hGone⟩ | ⟨s, -, -, -, -, hPart⟩
  · rwa [hSame]
  · rw [hGone]
    cases p with
    | main other =>
      refine setItem_ne_none h fun hSame => ?_
      rw [hMay (congrArg Place.main hSame)] at hTrue
      cases hTrue
    | inBag bag j =>
      refine setItem_ne_none h fun hSame => ?_
      subst hSame
      exact map_ne_none h _
  · rw [hPart]
    cases p with
    | main other =>
      refine setItem_ne_none h fun hSame => ?_
      subst hSame
      exact map_ne_none h _
    | inBag bag j =>
      refine setItem_ne_none h fun hSame => ?_
      subst hSame
      exact map_ne_none h _

theorem slotLoop_keeps {may : Nat → Bool} {first last : Nat} (h : r.inv.items slot ≠ none)
    (hMay : first ≤ slot → slot < last → may slot = false) :
    (slotLoop entry count may first last r).inv.items slot ≠ none := by
  have hAll : ∀ (slots : List Nat) r, r.inv.items slot ≠ none → (slot ∈ slots → may slot = false) →
      (slots.foldl (fun r i => consume entry count (may i) r (.main i)) r).inv.items slot ≠ none := by
    intro slots
    induction slots with
    | nil => exact fun r hr _ => hr
    | cons i slots ih =>
      intro r hr hSlots
      refine ih _ (consume_keeps hr fun hSame => ?_) fun hMem => hSlots (List.mem_cons_of_mem i hMem)
      obtain rfl := Place.main.inj hSame
      exact hSlots List.mem_cons_self
  refine hAll _ r h fun hMem => ?_
  rw [List.mem_range'_1] at hMem
  exact hMay (by omega) (by omega)

theorem bagLoop_keeps {first last : Nat} (h : r.inv.items slot ≠ none) :
    (bagLoop entry count first last r).inv.items slot ≠ none := by
  have hBag : ∀ bag (places : List Nat) r, r.inv.items slot ≠ none →
      (places.foldl (fun r j => consume entry count true r (.inBag bag j)) r).inv.items slot ≠ none := by
    intro bag places
    induction places with
    | nil => exact fun r hr => hr
    | cons j places ih => exact fun r hr => ih _ (consume_keeps hr fun hSame => by cases hSame)
  rw [bagLoop]
  generalize List.range' first (last - first) = bags
  induction bags generalizing r with
  | nil => exact h
  | cons bag bags ih => exact ih (hBag bag _ r h)

theorem keepsEquipped (entry : Nat) (count : UInt32) (inv : Inventory) : KeepsEquipped entry count inv := by
  intro canUnequip slot hSlot hRefused hItem
  have hBelow : ∀ first last, inventorySlotBagEnd ≤ first → first ≤ slot → slot < last → true = false :=
    fun first last hFirst hMem _ => absurd (hFirst.trans hMem) (Nat.not_le.mpr hSlot)
  rw [destroyItemCount]
  refine slotLoop_keeps (slotLoop_keeps (bagLoop_keeps (slotLoop_keeps (slotLoop_keeps (bagLoop_keeps
    (slotLoop_keeps hItem ?_)) ?_) ?_)) ?_) ?_
  · exact hBelow _ _ (by decide)
  · intro _ _
    rw [hRefused]
    rfl
  · exact hBelow _ _ (by decide)
  · exact hBelow _ _ (by decide)
  · exact hBelow _ _ (by decide)

end Equipped

/-- For every inventory without a full bag of the entry: both halves hold exactly when the sum of the stacks that
are taken fits, and no bag in the bank is asked for. -/
theorem destroyItemCount_iff (entry : Nat) (count : UInt32) (hCount : 1 ≤ count) (inv : Inventory)
    (hBags : inv.BagsEmpty entry) (canUnequip : Nat → Bool) :
    (RemovesExactly entry count inv (destroyItemCount entry count false canUnequip inv) ∧
        KeepsEquipped entry count inv) ↔
      Withdrawal.Bounded (2 ^ 32) count.toNat 0 (inv.found entry) ∧
        (count.toNat ≤ (inv.found entry).sum ∨ (inv.passed entry).sum = 0) := by
  have hPos : 0 < count := UInt32.lt_iff_toNat_lt.mpr (UInt32.le_iff_toNat_le.mp hCount)
  rw [and_iff_left (keepsEquipped entry count inv)]
  exact removesExactly_iff hBags hPos canUnequip

theorem sixteen_le : 16 ≤ inventorySlotItemEnd - inventorySlotItemStart := by decide

def oneStack (slot : Nat) (item : Item) : Inventory :=
  ⟨fun other => if other = slot then some item else none, 16, sixteen_le⟩

def threePieces : Inventory := oneStack 23 ⟨⟨5, 3, false⟩, [], Nat.zero_le _⟩

theorem threePieces_bags : threePieces.BagsEmpty 5 := by
  intro slot item hAt _ s hMem
  dsimp only [threePieces, oneStack] at hAt
  split at hAt
  · obtain rfl := Option.some.inj hAt
    exact absurd hMem List.not_mem_nil
  · cases hAt

theorem two_of_three : RemovesExactly 5 2 threePieces (destroyItemCount 5 2 false (fun _ => true) threePieces) ∧
    KeepsEquipped 5 2 threePieces := by
  refine (destroyItemCount_iff 5 2 (by decide) threePieces threePieces_bags fun _ => true).mpr ?_
  have hFound : threePieces.found 5 = 3 :: (searched 16).tail.map (threePieces.held 5) := rfl
  rw [hFound]
  refine ⟨⟨by decide, fun hLess => absurd hLess (by decide)⟩, Or.inl ?_⟩
  rw [List.sum_cons]
  exact Nat.le_add_right_of_le (by decide)

theorem four_le : [(none : Option Stack), none, none, none].length ≤ maxBagSize := by decide

def bankBag : Inventory := oneStack 75 ⟨⟨5, 1, false⟩, [none, none, none, none], four_le⟩

theorem bankBag_bags : bankBag.BagsEmpty 5 := by
  intro slot item hAt _ s hMem
  dsimp only [bankBag, oneStack] at hAt
  split at hAt
  · obtain rfl := Option.some.inj hAt
    exact List.eq_of_mem_replicate (n := 4) hMem
  · cases hAt

theorem bankBag_found : (bankBag.found 5).sum = 0 := by
  refine List.sum_eq_zero fun n hMem => ?_
  obtain ⟨p, hSearched, rfl⟩ := List.mem_map.mp hMem
  refine held_of_none ?_
  cases p with
  | main slot =>
    have hOther : slot ≠ 75 := by
      rintro rfl
      exact bankBag_not_searched bankBag.slotCount_le (mem_mainPlaces.mpr ⟨75, rfl, by decide, by decide⟩) hSearched
    exact congrArg (Option.map Item.toStack) (if_neg hOther)
  | inBag bag slot =>
    rw [Inventory.getItemByPos, Option.bind_eq_none_iff]
    intro item hAt
    dsimp only [bankBag, oneStack] at hAt
    split at hAt
    · obtain rfl := Option.some.inj hAt
      cases hSlot : [(none : Option Stack), none, none, none][slot]? with
      | none => rfl
      | some inside => rw [bankBag_bags 75 _ rfl rfl inside (List.mem_of_getElem? hSlot), Option.join_some]
    · cases hAt

theorem bankBag_passed : (bankBag.passed 5).sum = 1 := by decide

/-- The bag is not removed, although it is the only one. -/
theorem bankBag_stays : bankBag.BagsEmpty 5 ∧ bankBag.total 5 = 1 ∧
    ¬ (RemovesExactly 5 1 bankBag (destroyItemCount 5 1 false (fun _ => true) bankBag) ∧
      KeepsEquipped 5 1 bankBag) := by
  refine ⟨bankBag_bags, ?_, fun h => ?_⟩
  · rw [Inventory.total, bankBag_found, bankBag_passed]
  · have hWhen := ((removesExactly_iff bankBag_bags (by decide) fun _ => true).mp h.1).2
    rw [bankBag_found, bankBag_passed] at hWhen
    exact absurd hWhen (by decide)

end AshamaneCore.PlayerItems
