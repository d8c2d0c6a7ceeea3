import AshamaneCore.Game.LootLimits

/-!
# Loot that is stored at once

`AutoStoreLoot` fills a loot for one player and walks over its slots. Some
tokens are stored while the loot is filled, and then their slots are empty.
-/

namespace AshamaneCore.Looting

def nullBag : Nat := 0

def nullSlot : Nat := 255

/-- What the inventory answers, and how many items it found places for, which stay in the list. -/
structure Placing where
  ok : Bool
  added : Nat

/-- A second attempt, with the places that the first one has left in the list. -/
def Placing.retry (first : Placing) (elsewhere : Bool) (second : Placing) : Placing :=
  if !first.ok && elsewhere then ⟨second.ok, first.added + second.added⟩ else first

/-- The bag and the slot that are asked for, and what the inventory answers for the items of a loot. -/
structure Storage where
  bag : Nat
  slot : Nat
  canStoreNewItem : (bag slot : Nat) → (quest : Bool) → (index : Nat) → Placing

namespace Storage

variable (s : Storage) (quest : Bool) (index : Nat)

def placing : Placing :=
  ((s.canStoreNewItem s.bag s.slot quest index).retry (s.slot ≠ nullSlot)
    (s.canStoreNewItem s.bag nullSlot quest index)).retry (s.bag ≠ nullBag)
      (s.canStoreNewItem nullBag nullSlot quest index)

def fits : Bool := (s.placing quest index).ok

end Storage

structure Receipt where
  quest : Bool
  index : Nat
  itemid : Nat
  count : Nat
  asCurrency : Bool
  deriving DecidableEq

def Handout.receipt (h : Handout) : Receipt := ⟨h.quest, h.index, h.item.itemid, h.item.count, h.asCurrency⟩

def storeNewItem (s : Storage) (quest : Bool) (index : Nat) (item : LootItem) : Option Receipt :=
  if s.fits quest index then some ⟨quest, index, item.itemid, (s.placing quest index).added, false⟩ else none

/-- The loop over the slots; it goes through the pointer of a slot without a test. -/
def storeSlots (s : Storage) (loot : Loot) (guid : Nat) : List Nat → Option (List Receipt)
  | [] => some []
  | slot :: slots =>
    (loot.lootItemInSlot slot guid).bind fun found =>
      (storeSlots s loot guid slots).map fun rest => (storeNewItem s found.quest found.index found.item).toList ++ rest

def autoStoreLoot (w : World) (group : Option LootGroup) (content : List Drop) (player : Member) (s : Storage) :
    Option (List Receipt) :=
  (fillLoot w group 0 content player true).bind fun loot =>
    (storeSlots s loot player.guid (List.range (loot.getMaxSlotInLootFor player.guid))).map fun stored =>
      loot.history.map Handout.receipt ++ stored

/-! ## What the player should get -/

def Member.attending (player : Member) : Member := { player with present := true }

def receiptsOf (receipts : List Receipt) (quest : Bool) (index : Nat) : List Receipt :=
  receipts.filter fun r => r.quest = quest ∧ r.index = index

/-- Each item once with its count when it is allowed and fits, each currency as currency, and nothing else. -/
structure GivesExactly (loot : Loot) (player : Member) (s : Storage) (receipts : List Receipt) : Prop where
  items : ∀ quest i item, loot.item? quest i = some item → item.currency = false →
    receiptsOf receipts quest i =
      if player.allowed item = true ∧ s.fits quest i = true then [⟨quest, i, item.itemid, item.count, false⟩]
      else []
  currencies : ∀ quest i item, loot.item? quest i = some item → item.currency = true →
    receiptsOf receipts quest i = [⟨quest, i, item.itemid, item.count, true⟩]
  rolled : ∀ r ∈ receipts, ∃ item, loot.item? r.quest r.index = some item

/-- The player gets the generated loot, and no missing slot is met on the way. -/
def Delivers (w : World) (group : Option LootGroup) (content : List Drop) (player : Member) (s : Storage) : Prop :=
  ∃ receipts, autoStoreLoot w group content player s = some receipts ∧
    GivesExactly (generate w 0 content) player s receipts

/-- No currency is rolled, no token is stored while the loot is filled, and what fits is placed in full and
listed for the player exactly when it is allowed for him. -/
structure Deliverable (w : World) (group : Option LootGroup) (content : List Drop) (player : Member)
    (s : Storage) : Prop where
  currencies : ∀ drop ∈ content, drop.item.currency = false
  tokens : ∀ slot < (generate w 0 content).items.length + (questSlots (generate w 0 content) player group).length,
    storesToken (generate w 0 content) player w slot = true → (player.autoStore slot).allowed = true →
      (player.autoStore slot).canStore = false
  items : ∀ i item, (generate w 0 content).item? false i = some item → s.fits false i = true →
    player.allowed item = true
  quest : ∀ i item, (generate w 0 content).item? true i = some item → s.fits true i = true →
    (player.allowed item = true ↔ i ∈ questSlots (generate w 0 content) player group)
  counts : ∀ quest i item, (generate w 0 content).item? quest i = some item → player.allowed item = true →
    s.fits quest i = true → (s.placing quest i).added = item.count

/-! ## The loop over the slots -/

section Slots

variable {s : Storage} {loot : Loot} {guid : Nat}

theorem storeNewItem_some {quest : Bool} {i : Nat} {item : LootItem} {r : Receipt}
    (h : storeNewItem s quest i item = some r) :
    s.fits quest i = true ∧ r = ⟨quest, i, item.itemid, (s.placing quest i).added, false⟩ := by
  rw [storeNewItem] at h
  split at h
  · rename_i hFits
    exact ⟨hFits, (Option.some.inj h).symm⟩
  · cases h

variable {slots : List Nat}

theorem found_of_storeSlots {receipts : List Receipt}
    (h : storeSlots s loot guid slots = some receipts) :
    (∀ slot ∈ slots, loot.lootItemInSlot slot guid ≠ none) ∧ ∀ r ∈ receipts, r.asCurrency = false := by
  induction slots generalizing receipts with
  | nil =>
    obtain rfl := Option.some.inj h
    exact ⟨fun slot hMem => absurd hMem List.not_mem_nil, fun r hMem => absurd hMem List.not_mem_nil⟩
  | cons slot slots ih =>
    rw [storeSlots] at h
    obtain ⟨found, hFound, hMore⟩ := Option.bind_eq_some_iff.mp h
    obtain ⟨rest, hRest, rfl⟩ := Option.map_eq_some_iff.mp hMore
    obtain ⟨hSlots, hReceipts⟩ := ih hRest
    refine ⟨List.forall_mem_cons.mpr ⟨?_, hSlots⟩, fun r hMem => ?_⟩
    · rw [hFound]
      exact Option.some_ne_none found
    · rcases List.mem_append.mp hMem with hHere | hBehind
      · obtain ⟨-, rfl⟩ := storeNewItem_some (Option.mem_toList.mp hHere)
        rfl
      · exact hReceipts r hBehind

def given (s : Storage) (loot : Loot) (quest : Bool) (i : Nat) : Option Receipt :=
  (loot.item? quest i).bind (storeNewItem s quest i)

theorem given_place {quest : Bool} {i : Nat} {r : Receipt} (h : given s loot quest i = some r) :
    r.quest = quest ∧ r.index = i := by
  obtain ⟨item, -, hItem⟩ := Option.bind_eq_some_iff.mp h
  obtain ⟨-, rfl⟩ := storeNewItem_some hItem
  exact ⟨rfl, rfl⟩

theorem storeSlots_eq {places : List Nat} {give : Nat → Option Receipt}
    (h : List.Forall₂ (fun slot i => ∃ found, loot.lootItemInSlot slot guid = some found ∧
      storeNewItem s found.quest found.index found.item = give i) slots places) :
    storeSlots s loot guid slots = some (places.filterMap give) := by
  induction h with
  | nil => rfl
  | @cons slot i slots places hHead _ ih =>
    obtain ⟨found, hFound, hGive⟩ := hHead
    rw [storeSlots, hFound, Option.bind_some, ih, Option.map_some, hGive, List.filterMap_cons]
    cases give i <;> rfl

theorem storeSlots_append {first second : List Nat} {before behind : List Receipt}
    (hFirst : storeSlots s loot guid first = some before) (hSecond : storeSlots s loot guid second = some behind) :
    storeSlots s loot guid (first ++ second) = some (before ++ behind) := by
  induction first generalizing before with
  | nil =>
    obtain rfl := Option.some.inj hFirst
    exact hSecond
  | cons slot first ih =>
    rw [storeSlots] at hFirst
    obtain ⟨found, hFound, hMore⟩ := Option.bind_eq_some_iff.mp hFirst
    obtain ⟨rest, hRest, rfl⟩ := Option.map_eq_some_iff.mp hMore
    rw [List.cons_append, storeSlots, hFound, Option.bind_some, ih hRest, Option.map_some, List.append_assoc]

theorem receiptsOf_append (first second : List Receipt) (quest : Bool) (i : Nat) :
    receiptsOf (first ++ second) quest i = receiptsOf first quest i ++ receiptsOf second quest i :=
  List.filter_append ..

theorem receiptsOf_filterMap (hNodup : slots.Nodup) {place : Bool} {give : Nat → Option Receipt}
    (hGive : ∀ i r, give i = some r → r.quest = place ∧ r.index = i) (quest : Bool) (i : Nat) :
    receiptsOf (slots.filterMap give) quest i = if quest = place ∧ i ∈ slots then (give i).toList else [] := by
  induction slots with
  | nil => simp [receiptsOf]
  | cons slot slots ih =>
    obtain ⟨hFresh, hRest⟩ := List.nodup_cons.mp hNodup
    have hSplit : (slot :: slots).filterMap give = (give slot).toList ++ slots.filterMap give := by
      rw [List.filterMap_cons]
      cases give slot <;> rfl
    have hFirst : receiptsOf (give slot).toList quest i =
        if quest = place ∧ i = slot then (give i).toList else [] := by
      cases hHere : give slot with
      | none =>
        split
        · rename_i hSame
          rw [hSame.2, hHere]
          rfl
        · rfl
      | some r =>
        obtain ⟨rfl, rfl⟩ := hGive slot r hHere
        rw [receiptsOf, Option.toList_some]
        split
        · rename_i hSame
          obtain ⟨rfl, rfl⟩ := hSame
          rw [hHere, Option.toList_some]
          exact List.filter_eq_self.mpr fun other hMem => by simp [List.mem_singleton.mp hMem]
        · rename_i hOther
          refine List.filter_eq_nil_iff.mpr fun other hMem hSame => hOther ?_
          obtain ⟨rfl, rfl⟩ := of_decide_eq_true hSame
          rw [List.mem_singleton.mp hMem]
          exact ⟨rfl, rfl⟩
    rw [hSplit, receiptsOf_append, hFirst, ih hRest]
    rcases eq_or_ne i slot with rfl | hNe
    · simp [hFresh]
    · simp [hNe]

end Slots

/-! ## Slots of filled entries -/

section Filled

variable {s : Storage} {loot : Loot} {m : Member} {group : Option LootGroup}

variable {i : Nat} {item : LootItem}

theorem storeNewItem_congr {quest : Bool} {other : LootItem} (h : other.static = item.static) :
    storeNewItem s quest i other = storeNewItem s quest i item := by
  have hId : other.static.itemid = item.static.itemid := by rw [h]
  have hSame : other.itemid = item.itemid := hId
  rw [storeNewItem, storeNewItem, hSame]

theorem filled_item (m : Member) (group : Option LootGroup) (h : Generated loot) {quest : Bool}
    (hItem : loot.item? quest i = some item) : ∃ other, (fillEntries loot m group).item? quest i = some other ∧
      other.static = item.static ∧ other.isLooted = false := by
  have hSteps := fillSteps group (h.unvisited m.guid)
  have hStatic : (fillEntries loot m group).static? quest i = some item.static := by
    rw [hSteps.static, loot.static?_eq_some hItem]
  obtain ⟨other, hOther, hSame⟩ := Option.map_eq_some_iff.mp hStatic
  refine ⟨other, hOther, hSame, Bool.eq_false_iff.mpr fun hLooted => ?_⟩
  have hBefore := (hSteps.looted quest i).mp ((Loot.looted_iff _ hOther).mpr hLooted)
  rw [loot.looted_iff hItem, (h.plain quest i item hItem).1] at hBefore
  exact Bool.false_ne_true hBefore

theorem entries_unlooted (h : Generated loot) (kind : EntryKind) {position : Nat} {entry : NotNormalLootItem}
    (hEntry : ((fillEntries loot m group).entries kind m.guid)[position]? = some entry) : entry.isLooted = false := by
  rw [(fillSteps group (h.unvisited m.guid)).entries] at hEntry
  obtain ⟨i, -, rfl⟩ := List.mem_map.mp (List.mem_of_getElem? hEntry)
  rfl

theorem found_item (m : Member) (group : Option LootGroup) (h : Generated loot)
    (hItem : loot.item? false i = some item) :
    ∃ found, (fillEntries loot m group).lootItemInSlot i m.guid = some found ∧ found.quest = false ∧
      found.index = i ∧ found.item.static = item.static := by
  obtain ⟨other, hOther, hSame, hUnlooted⟩ := filled_item m group h hItem
  have hAt : (fillEntries loot m group).items[i]? = some other := hOther
  have hLt := (List.getElem?_eq_some_iff.mp hAt).1
  have hFlag : (fillEntries loot m group).isLootedFor m.guid other
      ((fillEntries loot m group).entryInSlot m.guid i other) = false := by
    rw [Loot.isLootedFor]
    split
    · rename_i entry hEntry
      obtain ⟨position, -, hPosition⟩ := Option.bind_eq_some_iff.mp hEntry
      exact entries_unlooted h _ hPosition
    · exact hUnlooted
  refine ⟨⟨false, i, other, (fillEntries loot m group).entryInSlot m.guid i other⟩, ?_, rfl, rfl, hSame⟩
  rw [Loot.lootItemInSlot, if_neg (Nat.not_le.mpr hLt), hAt, Option.bind_some, hFlag, if_neg Bool.false_ne_true]

theorem found_quest (h : Generated loot) (hSize : (fillEntries loot m group).items.length = loot.items.length)
    {k : Nat} (hSlot : (questSlots loot m group)[k]? = some i) :
    ∃ found, (fillEntries loot m group).lootItemInSlot (loot.items.length + k) m.guid = some found ∧
      found.quest = true ∧ found.index = i ∧ ∃ item, loot.item? true i = some item ∧
        found.item.static = item.static := by
  obtain ⟨item, hItem⟩ := questSlots_item (List.mem_of_getElem? hSlot)
  obtain ⟨other, hOther, hSame, -⟩ := filled_item m group h hItem
  have hAt : (fillEntries loot m group).questItems[i]? = some other := hOther
  have hEntry : ((fillEntries loot m group).entries .quest m.guid)[k]? = some ⟨i, false⟩ := by
    rw [(fillSteps group (h.unvisited m.guid)).entries, memberSlots, newEntries, List.getElem?_map, hSlot,
      Option.map_some]
  refine ⟨⟨true, i, other, some k⟩, ?_, rfl, rfl, item, hItem, hSame⟩
  rw [Loot.lootItemInSlot, hSize, if_pos (Nat.le_add_right _ _), Nat.add_sub_cancel_left, hEntry, Option.bind_some, hAt,
    Option.bind_some, if_neg Bool.false_ne_true]

theorem maxSlot_fillEntries (h : Generated loot) (hSize : (fillEntries loot m group).items.length = loot.items.length) :
    (fillEntries loot m group).getMaxSlotInLootFor m.guid = loot.items.length + (questSlots loot m group).length := by
  rw [Loot.getMaxSlotInLootFor, hSize, (fillSteps group (h.unvisited m.guid)).entries, memberSlots, newEntries,
    List.length_map]

theorem storeSlots_fillEntries (h : Generated loot)
    (hSize : (fillEntries loot m group).items.length = loot.items.length) :
    storeSlots s (fillEntries loot m group) m.guid
        (List.range ((fillEntries loot m group).getMaxSlotInLootFor m.guid)) =
      some ((List.range loot.items.length).filterMap (given s loot false) ++
        (questSlots loot m group).filterMap (given s loot true)) := by
  rw [maxSlot_fillEntries h hSize, List.range_add]
  refine storeSlots_append (storeSlots_eq (List.forall₂_same.mpr fun i hMem => ?_)) (storeSlots_eq ?_)
  · have hItem : loot.item? false i = some (loot.items.get ⟨i, List.mem_range.mp hMem⟩) :=
      List.getElem?_eq_getElem (List.mem_range.mp hMem)
    obtain ⟨found, hFound, hQuest, hIndex, hSame⟩ := found_item m group h hItem
    refine ⟨found, hFound, ?_⟩
    rw [hQuest, hIndex, storeNewItem_congr hSame, given, hItem, Option.bind_some]
  · rw [List.forall₂_iff_get]
    refine ⟨by rw [List.length_map, List.length_range], fun k hLeft hRight => ?_⟩
    have hSlot : (questSlots loot m group)[k]? = some ((questSlots loot m group).get ⟨k, hRight⟩) :=
      List.getElem?_eq_getElem hRight
    obtain ⟨found, hFound, hQuest, hIndex, item, hItem, hSame⟩ := found_quest h hSize hSlot
    refine ⟨found, ?_, ?_⟩
    · rwa [List.get_eq_getElem, List.getElem_map, List.getElem_range]
    · rw [hQuest, hIndex, storeNewItem_congr hSame, given, hItem, Option.bind_some]

end Filled

/-! ## Currencies of a generated loot -/

section Currency

variable {w : World} {loot : Loot}

def Loot.HasCurrency (loot : Loot) : Prop := ∃ quest i item, loot.item? quest i = some item ∧ item.currency = true

theorem hasCurrency_pushItem (loot : Loot) (q : Bool) (item : LootItem) :
    (pushItem loot q item).HasCurrency ↔ loot.HasCurrency ∨ item.currency = true := by
  constructor
  · rintro ⟨quest, i, other, hOther, hCurrency⟩
    rw [item?_pushItem] at hOther
    split at hOther
    · exact Or.inr (Option.some.inj hOther ▸ hCurrency)
    · exact Or.inl ⟨quest, i, other, hOther, hCurrency⟩
  · rintro (⟨quest, i, other, hOther, hCurrency⟩ | hCurrency)
    · exact ⟨quest, i, other, pushItem_old loot q item hOther, hCurrency⟩
    · exact ⟨q, loot.size q, item, (item?_pushItem ..).trans (if_pos ⟨rfl, rfl⟩), hCurrency⟩

theorem hasCurrency_countOrdinary (li : LootStoreItem) (proto : ItemTemplate) (loot : Loot) :
    (countOrdinary li proto loot).HasCurrency ↔ loot.HasCurrency := by
  rw [countOrdinary]
  split <;> exact Iff.rfl

theorem hasCurrency_addStacks {li : LootStoreItem} {proto : ItemTemplate} (hItem : li.currency = false)
    (n count : Nat) (loot : Loot) : (addStacks w li proto n count loot).HasCurrency ↔ loot.HasCurrency := by
  induction n generalizing count loot with
  | zero => exact Iff.rfl
  | succ n ih =>
    rw [addStacks]
    split
    · rw [ih, hasCurrency_countOrdinary, hasCurrency_pushItem]
      exact or_iff_left fun hCurrency => Bool.false_ne_true (hItem.symm.trans hCurrency)
    · exact Iff.rfl

theorem hasCurrency_addItem (loot : Loot) (drop : Drop) :
    (addItem w loot drop).HasCurrency ↔ loot.HasCurrency ∨ drop.item.currency = true := by
  rw [addItem]
  split
  · rw [hasCurrency_pushItem]
    exact Iff.rfl
  · rename_i hItem
    have hNot : drop.item.currency = false := Bool.not_eq_true _ ▸ hItem
    rw [or_iff_left hItem]
    split
    · exact Iff.rfl
    · split
      · exact hasCurrency_addStacks hNot _ _ loot
      · exact Iff.rfl

theorem hasCurrency_generate (w : World) (gold : Nat) (content : List Drop) :
    (generate w gold content).HasCurrency ↔ ∃ drop ∈ content, drop.item.currency = true := by
  have hAll : ∀ l : Loot, (content.foldl (addItem w) l).HasCurrency ↔
      l.HasCurrency ∨ ∃ drop ∈ content, drop.item.currency = true := by
    induction content with
    | nil => simp
    | cons drop content ih =>
      intro l
      rw [List.foldl_cons, ih, hasCurrency_addItem, or_assoc]
      simp
  have hEmpty : ¬ (Loot.empty gold).HasCurrency := by
    rintro ⟨quest, i, item, hItem, -⟩
    cases quest <;> cases hItem
  exact (hAll (Loot.empty gold)).trans (or_iff_right hEmpty)

theorem late_of_no_currency {content : List Drop} (h : ∀ drop ∈ content, drop.item.currency = false) (quest : Bool)
    (before : Nat) : lateCurrencies w quest before content = 0 := by
  induction content generalizing before with
  | nil => rfl
  | cons drop content ih =>
    obtain ⟨hDrop, hRest⟩ := List.forall_mem_cons.mp h
    rw [lateCurrencies, hDrop, ih hRest, if_neg fun hLate => Bool.noConfusion hLate.2.1]

end Currency

end AshamaneCore.Looting
