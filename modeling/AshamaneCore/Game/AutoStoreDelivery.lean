import AshamaneCore.Game.AutoStoreLoot

/-!
# The delivery of loot that is stored at once

Whatever is handed out while the loot is filled leaves its slot empty, unless
the player has no entry for it. So the loop comes to its end only when nothing
was handed out, and then the receipts are those of the loop.
-/

namespace AshamaneCore.Looting

/-! ## What is handed out while the loot is filled -/

/-- The place was given to the player: his entry is marked, or he has none and the item is marked. -/
def Emptied (loot : Loot) (guid : Nat) (quest : Bool) (index : Nat) (item : LootItem) : Prop :=
  (loot.ListedFor (item.kind quest) guid index ∧ ¬ loot.LeftFor (item.kind quest) guid index ∧
    (quest = false → (item.currency || item.freeforall || !item.conditions.isEmpty) = true)) ∨
  (quest = false ∧ ¬ loot.ListedFor (item.kind false) guid index ∧ loot.Looted false index)

/-- An item for everybody was given to a player without an entry, and nothing is marked. -/
def Unmarked (loot : Loot) (guid : Nat) (quest : Bool) (index : Nat) (item : LootItem) (asCurrency : Bool) : Prop :=
  asCurrency = false ∧ quest = false ∧ item.freeforall = true ∧ ¬ loot.ListedFor .ffa guid index

section HandedOut

variable {loot : Loot} {guid : Nat} {found : Found}

variable {item : LootItem}

theorem Emptied.slot {quest : Bool} {index : Nat} (h : Emptied loot guid quest index item)
    (hItem : loot.static? quest index = some item.static) :
    ∃ slot < loot.getMaxSlotInLootFor guid, loot.lootItemInSlot slot guid = none := by
  obtain ⟨here, hHere, hSame⟩ := Option.map_eq_some_iff.mp hItem
  have hKind : here.kind quest = item.kind quest := by
    rw [← LootItem.static_kind, hSame, LootItem.static_kind]
  cases quest with
  | true =>
    obtain ⟨⟨entry, hMem, hIndex⟩, hGone, -⟩ := h.resolve_right fun hBelow => Bool.noConfusion hBelow.1
    obtain ⟨position, hPosition⟩ := List.getElem?_of_mem hMem
    have hLt := (List.getElem?_eq_some_iff.mp hPosition).1
    refine ⟨loot.items.length + position, Nat.add_lt_add_left hLt _, ?_⟩
    have hEntry : (loot.entries .quest guid)[position]? = some entry := hPosition
    rw [Loot.lootItemInSlot, if_pos (Nat.le_add_right _ _), Nat.add_sub_cancel_left, hEntry, Option.bind_some]
    refine Option.bind_eq_none_iff.mpr fun other _ => if_pos ?_
    exact Bool.not_eq_false _ ▸ fun hUnlooted => hGone ⟨entry, hMem, hIndex, hUnlooted⟩
  | false =>
    have hAt : loot.items[index]? = some here := hHere
    have hLt := (List.getElem?_eq_some_iff.mp hAt).1
    refine ⟨index, Nat.lt_add_right _ hLt, ?_⟩
    rw [Option.eq_none_iff_forall_not_mem]
    intro found hFound
    have hMet := lootItemInSlot_met hFound
    obtain rfl := found_below hHere hFound
    rcases h with ⟨hListed, hGone, hSpecial⟩ | ⟨-, hNot, hLooted⟩
    · have hEntry := isSome_entryInSlot (hKind ▸ hListed) ?_
      · obtain ⟨position, hPosition⟩ := Option.isSome_iff_exists.mp hEntry
        obtain ⟨entry, hAtEntry, hIndex, hUnlooted⟩ := hMet.entry position hPosition
        exact hGone ⟨entry, hKind ▸ List.mem_of_getElem? hAtEntry, hIndex, hUnlooted⟩
      · have hStatic : (here.static.currency || here.static.freeforall || !here.static.conditions.isEmpty) = true := by
          rw [hSame]
          exact hSpecial rfl
        exact hStatic
    · cases hEntry : loot.entryInSlot guid index here with
      | none =>
        have hUnlooted : here.isLooted = false := (hMet.none hEntry).2
        rw [Loot.looted_iff loot hHere, hUnlooted] at hLooted
        exact Bool.false_ne_true hLooted
      | some position =>
        obtain ⟨entry, hAtEntry, hIndex, -⟩ := hMet.entry position hEntry
        exact hNot ⟨entry, hKind ▸ List.mem_of_getElem? hAtEntry, hIndex⟩

theorem leftFor_grant (h : Filed loot) (hMet : Met loot guid found) (kind : EntryKind) (p index : Nat) :
    (grant loot guid found).LeftFor kind p index ↔ loot.LeftFor kind p index ∧ ¬ found.at guid kind p index := by
  rw [Loot.LeftFor, grant_entries]
  exact leftFor_markEntry h hMet kind p index

theorem Emptied.grant {quest : Bool} {index : Nat} (h : Emptied loot guid quest index item)
    (hFiled : Filed loot) (hMet : Met loot guid found) : Emptied (grant loot guid found) guid quest index item := by
  rw [Emptied, grant_listedFor, grant_listedFor, leftFor_grant hFiled hMet, grant_looted hMet]
  rcases h with ⟨hListed, hGone, hSpecial⟩ | ⟨hQuest, hNot, hLooted⟩
  · exact Or.inl ⟨hListed, fun hLeft => hGone hLeft.1, hSpecial⟩
  · exact Or.inr ⟨hQuest, hNot, Or.inl hLooted⟩

variable {slot : Nat}

theorem entry_below (h : loot.lootItemInSlot slot guid = some found) (hQuest : found.quest = false) :
    found.index = slot ∧ found.entry = loot.entryInSlot guid slot found.item := by
  rw [Loot.lootItemInSlot] at h
  split at h
  · obtain ⟨entry, -, hRest⟩ := Option.bind_eq_some_iff.mp h
    obtain ⟨item, -, hItem⟩ := Option.bind_eq_some_iff.mp hRest
    split at hItem
    · cases hItem
    · obtain rfl := Option.some.inj hItem
      cases hQuest
  · obtain ⟨item, -, hItem⟩ := Option.bind_eq_some_iff.mp h
    split at hItem
    · cases hItem
    · obtain rfl := Option.some.inj hItem
      exact ⟨rfl, rfl⟩

theorem special_of_entry {position : Nat}
    (h : loot.entryInSlot guid slot item = some position) :
    (item.currency || item.freeforall || !item.conditions.isEmpty) = true := by
  rw [Loot.entryInSlot] at h
  split at h
  · assumption
  · cases h

theorem not_listed_of_entry (h : Filed loot) (hItem : loot.item? false slot = some item)
    (hNone : loot.entryInSlot guid slot item = none) : ¬ loot.ListedFor (item.kind false) guid slot := by
  intro hListed
  rw [Loot.entryInSlot] at hNone
  split at hNone
  · rename_i hSpecial
    have hSome := isSome_entryInSlot hListed hSpecial
    rw [Loot.entryInSlot, if_pos hSpecial, hNone] at hSome
    cases hSome
  · rename_i hOrdinary
    simp only [Bool.or_eq_true, Bool.not_eq_true', not_or, Bool.not_eq_true, Bool.not_eq_false] at hOrdinary
    obtain ⟨⟨hCurrency, hFfa⟩, hConditions⟩ := hOrdinary
    have hKind : item.kind false = .conditional := by
      rw [LootItem.kind, hCurrency, hFfa]
      rfl
    rw [hKind] at hListed
    obtain ⟨other, hOther, hSuits⟩ := h.suits .conditional guid slot hListed
    obtain rfl := Option.some.inj ((loot.static?_eq_some hItem).symm.trans hOther)
    rw [Suits, if_pos rfl] at hSuits
    exact hSuits.2.1 (List.isEmpty_iff.mp hConditions)

theorem grant_emptied (h : Filed loot) (hFound : loot.lootItemInSlot slot guid = some found) :
    Emptied (grant loot guid found) guid found.quest found.index found.item ∨
      Unmarked loot guid found.quest found.index found.item found.asCurrency := by
  have hMet := lootItemInSlot_met hFound
  cases hEntry : found.entry with
  | some position =>
    obtain ⟨entry, hAt, hIndex, -⟩ := hMet.entry position hEntry
    refine Or.inl (Or.inl ⟨?_, ?_, fun hQuest => ?_⟩)
    · rw [grant_listedFor]
      exact ⟨entry, List.mem_of_getElem? hAt, hIndex⟩
    · rw [leftFor_grant h hMet]
      exact fun hLeft => hLeft.2 ⟨hEntry ▸ rfl, rfl, rfl, rfl⟩
    · exact special_of_entry ((entry_below hFound hQuest).2.symm.trans hEntry)
  | none =>
    obtain ⟨hQuest, -⟩ := hMet.none hEntry
    obtain ⟨hIndex, hLookup⟩ := entry_below hFound hQuest
    have hItem : loot.item? false found.index = some found.item := hQuest ▸ hMet.item
    have hNot := not_listed_of_entry h hItem (hIndex ▸ hLookup.symm.trans hEntry)
    have hCoin : found.asCurrency = false := by
      rw [Found.asCurrency, hEntry]
      exact Bool.and_false _
    cases hFfa : found.item.freeforall with
    | false =>
      refine Or.inl (Or.inr ⟨hQuest, ?_, ?_⟩)
      · rw [grant_listedFor]
        exact hNot
      · rw [grant_looted hMet, Found.marksItem, hCoin, hFfa]
        exact Or.inr ⟨rfl, hQuest.symm, rfl⟩
    | true =>
      refine Or.inr ⟨hCoin, hQuest, hFfa, ?_⟩
      have hCurrency : found.item.currency = false := Bool.eq_false_iff.mpr fun hCurrency => by
        have hSingle := h.single false found.index _ (loot.static?_eq_some hItem) hCurrency
        exact Bool.false_ne_true (hSingle.symm.trans hFfa)
      have hKind : found.item.kind false = .ffa := by
        rw [LootItem.kind, hCurrency, hFfa]
        rfl
      exact hKind ▸ hNot

/-- What a player who is visited was handed out, in terms of the loot at the start of the visit. -/
structure HandedOut (start loot : Loot) (guid : Nat) : Prop where
  filed : Filed loot
  static : loot.static? = start.static?
  listed : ∀ kind p i, loot.ListedFor kind p i ↔ start.ListedFor kind p i
  items : ∀ h ∈ loot.history, start.static? h.quest h.index = some h.item.static
  places : ∀ h ∈ loot.history, Emptied loot guid h.quest h.index h.item ∨
    Unmarked start guid h.quest h.index h.item h.asCurrency

theorem HandedOut.start (hFiled : Filed loot) (hHistory : loot.history = []) : HandedOut loot loot guid where
  filed := hFiled
  static := rfl
  listed _ _ _ := Iff.rfl
  items _ hMem := absurd (hHistory ▸ hMem) List.not_mem_nil
  places _ hMem := absurd (hHistory ▸ hMem) List.not_mem_nil

theorem HandedOut.grant {start : Loot} (h : HandedOut start loot guid)
    (hFound : loot.lootItemInSlot slot guid = some found) : HandedOut start (grant loot guid found) guid := by
  have hMet := lootItemInSlot_met hFound
  refine ⟨grant_filed guid found h.filed, (grant_static? ..).trans h.static,
    fun kind p i => (grant_listedFor ..).trans (h.listed kind p i), fun o hMem => ?_, fun o hMem => ?_⟩
  · rw [grant_history] at hMem
    rcases List.mem_append.mp hMem with hOld | hNew
    · exact h.items o hOld
    · obtain rfl := List.mem_singleton.mp hNew
      rw [← h.static]
      exact loot.static?_eq_some hMet.item
  · rw [grant_history] at hMem
    rcases List.mem_append.mp hMem with hOld | hNew
    · exact (h.places o hOld).imp_left fun hEmptied => hEmptied.grant h.filed hMet
    · obtain rfl := List.mem_singleton.mp hNew
      refine (grant_emptied h.filed hFound).imp_right fun hUnmarked => ?_
      exact ⟨hUnmarked.1, hUnmarked.2.1, hUnmarked.2.2.1, (h.listed _ _ _).not.mp hUnmarked.2.2.2⟩

theorem autoStore_cases (w : World) (loot : Loot) (m : Member) (slot : Nat) :
    (autoStore m w loot slot = loot ∧
      (storesToken loot m w slot = true → checkStore loot (autoRequest m slot) = none)) ∨
    ∃ found, loot.lootItemInSlot (autoRequest m slot).slot m.guid = some found ∧
      autoStore m w loot slot = grant loot m.guid found := by
  rw [autoStore]
  split
  · rw [storeLootItem]
    cases hCheck : checkStore loot (autoRequest m slot) with
    | none => exact Or.inl ⟨rfl, fun _ => rfl⟩
    | some found => exact Or.inr ⟨found, checkStore_found hCheck, rfl⟩
  · rename_i hOther
    exact Or.inl ⟨rfl, fun hStores => absurd hStores hOther⟩

variable {m : Member}

theorem HandedOut.autoStores {start : Loot} (w : World) (slots : List Nat) (h : HandedOut start loot m.guid) :
    HandedOut start (slots.foldl (autoStore m w) loot) m.guid := by
  induction slots generalizing loot with
  | nil => exact h
  | cons slot slots ih =>
    rcases autoStore_cases w loot m slot with ⟨hSame, -⟩ | ⟨found, hFound, hGrant⟩
    · rw [List.foldl_cons, hSame]
      exact ih h
    · rw [List.foldl_cons, hGrant]
      exact ih (h.grant hFound)

theorem autoStores_history (w : World) (m : Member) (slots : List Nat) (loot : Loot) :
    ∃ more, (slots.foldl (autoStore m w) loot).history = loot.history ++ more := by
  induction slots generalizing loot with
  | nil => exact ⟨[], (List.append_nil _).symm⟩
  | cons slot slots ih =>
    obtain ⟨more, hMore⟩ := ih (autoStore m w loot slot)
    rcases autoStore_cases w loot m slot with ⟨hSame, -⟩ | ⟨found, -, hGrant⟩
    · exact ⟨more, hMore.trans (congrArg (Loot.history · ++ more) hSame)⟩
    · rw [hGrant, grant_history, List.append_assoc] at hMore
      rw [List.foldl_cons, hGrant]
      exact ⟨_, hMore⟩

theorem autoStores_nil {w : World} {slots : List Nat}
    (hNone : (slots.foldl (autoStore m w) loot).history = []) :
    slots.foldl (autoStore m w) loot = loot ∧
      ∀ slot ∈ slots, storesToken loot m w slot = true → checkStore loot (autoRequest m slot) = none := by
  induction slots with
  | nil => exact ⟨rfl, fun slot hMem => absurd hMem List.not_mem_nil⟩
  | cons slot slots ih =>
    rw [List.foldl_cons] at hNone ⊢
    rcases autoStore_cases w loot m slot with ⟨hSame, hHere⟩ | ⟨found, -, hGrant⟩
    · rw [hSame] at hNone ⊢
      obtain ⟨hRest, hSlots⟩ := ih hNone
      exact ⟨hRest, List.forall_mem_cons.mpr ⟨hHere, hSlots⟩⟩
    · obtain ⟨more, hMore⟩ := autoStores_history w m slots (autoStore m w loot slot)
      rw [hGrant, grant_history] at hMore
      rw [hGrant, hMore] at hNone
      exact absurd hNone (by simp)

theorem autoStores_eq {w : World} {slots : List Nat}
    (h : ∀ slot ∈ slots, storesToken loot m w slot = true → checkStore loot (autoRequest m slot) = none) :
    slots.foldl (autoStore m w) loot = loot := by
  induction slots with
  | nil => rfl
  | cons slot slots ih =>
    obtain ⟨hHere, hSlots⟩ := List.forall_mem_cons.mp h
    have hSame : autoStore m w loot slot = loot := by
      rw [autoStore]
      split
      · rename_i hStores
        rw [storeLootItem, hHere hStores]
      · rfl
    rw [List.foldl_cons, hSame]
    exact ih hSlots

end HandedOut

/-! ## What the player gets -/

section Deliver

variable {w : World} {group : Option LootGroup} {loot : Loot} {m : Member} {s : Storage}

theorem fillAll_single (w : World) (group : Option LootGroup) (loot : Loot) (m : Member) :
    fillAll w group loot [m] = if loopsEnd group loot m then some (fillNotNormalLootFor w group loot m) else none := by
  rw [fillAll, List.foldlM_cons]
  cases loopsEnd group loot m <;> rfl

theorem fillLoot_personal (w : World) (group : Option LootGroup) (gold : Nat) (content : List Drop) (player : Member) :
    fillLoot w group gold content player true = fillAll w group (generate w gold content) [player.attending] := by
  have hLooters : looters group player true = [player.attending] := by cases group <;> rfl
  rw [fillLoot, hLooters, processed, Bool.true_or, if_pos rfl]
  exact Option.map_id'

theorem given_eq {quest : Bool} {i : Nat} {item : LootItem} (hItem : loot.item? quest i = some item) :
    given s loot quest i =
      if s.fits quest i then some ⟨quest, i, item.itemid, (s.placing quest i).added, false⟩ else none := by
  rw [given, hItem, Option.bind_some, storeNewItem]

def loopReceipts (s : Storage) (group : Option LootGroup) (loot : Loot) (m : Member) : List Receipt :=
  (List.range loot.items.length).filterMap (given s loot false) ++
    (questSlots loot m group).filterMap (given s loot true)

theorem receiptsOf_loop {quest : Bool} {i : Nat} {item : LootItem} (hItem : loot.item? quest i = some item) :
    receiptsOf (loopReceipts s group loot m) quest i =
      if (quest = true → i ∈ questSlots loot m group) ∧ s.fits quest i = true then
        [⟨quest, i, item.itemid, (s.placing quest i).added, false⟩] else [] := by
  have hOrder : (questSlots loot m group).Nodup :=
    ((indices_order ..).sublist (questSlots_sublist ..)).imp fun hLt => ne_of_lt hLt
  have hGiven : (given s loot quest i).toList =
      if s.fits quest i then [⟨quest, i, item.itemid, (s.placing quest i).added, false⟩] else [] := by
    rw [given_eq hItem]
    split <;> rfl
  rw [loopReceipts, receiptsOf_append, receiptsOf_filterMap List.nodup_range (fun _ _ => given_place),
    receiptsOf_filterMap hOrder fun _ _ => given_place]
  cases quest with
  | false =>
    have hLt : i < loot.items.length := (List.getElem?_eq_some_iff.mp hItem).1
    rw [if_pos ⟨rfl, List.mem_range.mpr hLt⟩, if_neg (c := false = true ∧ _) fun h => Bool.false_ne_true h.1,
      List.append_nil, hGiven]
    simp
  | true =>
    rw [if_neg (c := true = false ∧ _) fun h => Bool.noConfusion h.1, List.nil_append]
    split
    · rename_i hListed
      simp [hGiven, hListed.2]
    · rename_i hNot
      rw [if_neg]
      exact fun h => hNot ⟨rfl, h.1 rfl⟩

theorem givesExactly_iff (hNone : ¬ loot.HasCurrency) :
    GivesExactly loot m s (loopReceipts s group loot m) ↔
      ∀ quest i item, loot.item? quest i = some item → s.fits quest i = true →
        (m.allowed item = true ↔ (quest = true → i ∈ questSlots loot m group)) ∧
          (m.allowed item = true → (s.placing quest i).added = item.count) := by
  have hPlain : ∀ quest i item, loot.item? quest i = some item → item.currency = false :=
    fun quest i item hItem => Bool.eq_false_iff.mpr fun hCurrency => hNone ⟨quest, i, item, hItem, hCurrency⟩
  constructor
  · intro h quest i item hItem hFits
    have hReceipts := h.items quest i item hItem (hPlain quest i item hItem)
    rw [receiptsOf_loop hItem, hFits] at hReceipts
    simp only [and_true] at hReceipts
    split at hReceipts
    · rename_i hListed
      split at hReceipts
      · rename_i hAllowed
        have hCount := (List.cons.inj hReceipts).1
        exact ⟨iff_of_true hAllowed hListed, fun _ => congrArg Receipt.count hCount⟩
      · cases hReceipts
    · rename_i hUnlisted
      split at hReceipts
      · cases hReceipts
      · rename_i hRefused
        exact ⟨iff_of_false hRefused hUnlisted, fun hAllowed => absurd hAllowed hRefused⟩
  · intro h
    refine ⟨fun quest i item hItem _ => ?_, fun quest i item hItem hCurrency => ?_, fun r hMem => ?_⟩
    · rw [receiptsOf_loop hItem]
      cases hFits : s.fits quest i with
      | false => simp
      | true =>
        obtain ⟨hListed, hCount⟩ := h quest i item hItem hFits
        simp only [and_true]
        split
        · rename_i hHere
          have hAllowed := hListed.mpr hHere
          rw [if_pos hAllowed, hCount hAllowed]
        · rename_i hNot
          rw [if_neg fun hAllowed => hNot (hListed.mp hAllowed)]
    · exact absurd ⟨quest, i, item, hItem, hCurrency⟩ hNone
    · have hPlace : ∀ q i, given s loot q i = some r → ∃ item, loot.item? r.quest r.index = some item := by
        intro q i hGiven
        obtain ⟨item, hItem, -⟩ := Option.bind_eq_some_iff.mp hGiven
        obtain ⟨rfl, rfl⟩ := given_place hGiven
        exact ⟨item, hItem⟩
      rcases List.mem_append.mp hMem with hLeft | hRight
      · obtain ⟨i, -, hGiven⟩ := List.mem_filterMap.mp hLeft
        exact hPlace false i hGiven
      · obtain ⟨i, -, hGiven⟩ := List.mem_filterMap.mp hRight
        exact hPlace true i hGiven

end Deliver

/-! ## Tokens that are stored while the loot is filled -/

section Tokens

variable {w : World} {group : Option LootGroup} {loot : Loot} {m : Member}

theorem filled_unblocked (h : Generated loot) {i : Nat} {item : LootItem}
    (hItem : (fillEntries loot m group).item? false i = some item) : item.isBlocked = false := by
  have hAll := (fillSteps group (h.unvisited m.guid)).all
  rw [hAll, fillNonQuestNonFFAConditionalLoot] at hItem
  let ffa := fillFFALoot (fillQuestLoot (fillCurrencyLoot loot m) m group) m
  have hMapped := ((ffa.setEntries .conditional m.guid (newEntries (conditionalSlots ffa m))).item?_mapItems false
    (fun j other => countConditional ffa m j (allowLooter ffa m j other)) false i).symm.trans hItem
  rw [if_pos rfl] at hMapped
  obtain ⟨old, hOld, rfl⟩ := Option.map_eq_some_iff.mp hMapped
  have hBefore : loot.item? false i = some old := hOld
  rw [countConditional, allowLooter]
  have hFlag := (h.plain false i old hBefore).2.1
  split <;> split <;> exact hFlag

theorem storesToken_fillEntries (h : Generated loot)
    (hSize : (fillEntries loot m group).items.length = loot.items.length) (slot : Nat) :
    storesToken (fillEntries loot m group) m w slot = storesToken loot m w slot := by
  have hPlace : ∀ quest i, ((fillEntries loot m group).item? quest i).any (fun item => !item.isLooted &&
      item.freeforall && (m.autoStore slot).seen && (w.itemTemplate item.itemid).any ItemTemplate.currencyToken) =
      (loot.item? quest i).any fun item => !item.isLooted && item.freeforall && (m.autoStore slot).seen &&
        (w.itemTemplate item.itemid).any ItemTemplate.currencyToken := by
    intro quest i
    cases hItem : loot.item? quest i with
    | none =>
      have hStatic : (fillEntries loot m group).static? quest i = none := by
        rw [(fillSteps group (h.unvisited m.guid)).static, Loot.static?, hItem, Option.map_none]
      rw [Option.map_eq_none_iff.mp hStatic]
    | some item =>
      obtain ⟨other, hOther, hSame, hUnlooted⟩ := filled_item m group h hItem
      have hFfa : other.static.freeforall = item.static.freeforall := by rw [hSame]
      have hId : other.static.itemid = item.static.itemid := by rw [hSame]
      have hFfaItem : other.freeforall = item.freeforall := hFfa
      have hIdItem : other.itemid = item.itemid := hId
      rw [hOther, Option.any_some, Option.any_some, hUnlooted, (h.plain quest i item hItem).1, hFfaItem, hIdItem]
  rw [storesToken, storesToken, hSize]
  split
  · exact hPlace false slot
  · exact hPlace true (slot - loot.items.length)

theorem found_slot (h : Generated loot) (hNone : ¬ loot.HasCurrency)
    (hSize : (fillEntries loot m group).items.length = loot.items.length) {slot : Nat}
    (hSlot : slot < loot.items.length + (questSlots loot m group).length) :
    ∃ found, (fillEntries loot m group).lootItemInSlot slot m.guid = some found ∧
      (found.quest || !found.item.isBlocked) = true ∧ found.asCurrency = false := by
  rcases Nat.lt_or_ge slot loot.items.length with hBelow | hAbove
  · have hItem : loot.item? false slot = some (loot.items.get ⟨slot, hBelow⟩) := List.getElem?_eq_getElem hBelow
    obtain ⟨found, hFound, hQuest, hIndex, hSame⟩ := found_item m group h hItem
    have hMet := (lootItemInSlot_met hFound).item
    rw [hQuest] at hMet
    have hCurrency : found.item.static.currency = false := by
      rw [hSame]
      exact Bool.eq_false_iff.mpr fun hCurrency => hNone ⟨false, slot, _, hItem, hCurrency⟩
    have hItemCurrency : found.item.currency = false := hCurrency
    refine ⟨found, hFound, ?_, ?_⟩
    · rw [filled_unblocked h hMet]
      exact Bool.or_true _
    · rw [Found.asCurrency, hItemCurrency, Bool.and_false, Bool.false_and]
  · obtain ⟨k, rfl⟩ := Nat.exists_eq_add_of_le hAbove
    have hLt : k < (questSlots loot m group).length := Nat.lt_of_add_lt_add_left hSlot
    have hAt : (questSlots loot m group)[k]? = some ((questSlots loot m group).get ⟨k, hLt⟩) :=
      List.getElem?_eq_getElem hLt
    obtain ⟨found, hFound, hQuest, -⟩ := found_quest h hSize hAt
    refine ⟨found, hFound, ?_, ?_⟩
    · rw [hQuest, Bool.true_or]
    · rw [Found.asCurrency, hQuest, Bool.not_true, Bool.false_and, Bool.false_and]

theorem checkStore_fillEntries (h : Generated loot) (hNone : ¬ loot.HasCurrency)
    (hSize : (fillEntries loot m group).items.length = loot.items.length)
    (hItems : loot.items.length ≤ maxNrLootItems)
    {slot : Nat} (hSlot : slot < loot.items.length + (questSlots loot m group).length) :
    checkStore (fillEntries loot m group) (autoRequest m slot) = none ↔
      ((m.autoStore slot).allowed = true → (m.autoStore slot).canStore = false) := by
  obtain ⟨found, hFound, hFree, hItem⟩ := found_slot h hNone hSize hSlot
  have hByte : slot % 256 = slot :=
    Nat.mod_eq_of_lt ((hSlot.trans_le (length_questSlots hItems)).trans (by decide))
  have hRequest : (fillEntries loot m group).lootItemInSlot (autoRequest m slot).slot (autoRequest m slot).player =
      some found := (congrArg (Loot.lootItemInSlot _ · m.guid) hByte).trans hFound
  rw [checkStore, hRequest, Option.filter_some, hFree, hItem]
  simp only [autoRequest, Bool.and_true, Bool.false_or]
  cases (m.autoStore slot).allowed <;> cases (m.autoStore slot).canStore <;> simp

end Tokens

/-! ## When the loot is delivered -/

section Exact

variable {w : World} {group : Option LootGroup} {content : List Drop} {player : Member} {s : Storage}

theorem hasCurrency_of_deliverable (h : Deliverable w group content player s) :
    ¬ (generate w 0 content).HasCurrency := by
  rw [hasCurrency_generate]
  rintro ⟨drop, hMem, hCurrency⟩
  exact Bool.false_ne_true ((h.currencies drop hMem).symm.trans hCurrency)

theorem shortEnough_of_no_currency (h : ¬ (generate w 0 content).HasCurrency) :
    ShortEnough (generate w 0 content) := by
  rw [hasCurrency_generate] at h
  have hPlain : ∀ drop ∈ content, drop.item.currency = false :=
    fun drop hMem => Bool.eq_false_iff.mpr fun hCurrency => h ⟨drop, hMem, hCurrency⟩
  refine shortEnough_iff.mpr ⟨late_of_no_currency hPlain false 0, Or.inr ?_⟩
  rw [late_of_no_currency hPlain true 0]
  decide

theorem length_fillEntries (m : Member) (group : Option LootGroup) (h : ShortEnough (generate w 0 content)) :
    (fillEntries (generate w 0 content) m group).items.length = (generate w 0 content).items.length := by
  have hStart : Fits (generate w 0 content) (generate w 0 content) := by
    refine ⟨fun _ => rfl, fun p => ?_⟩
    rw [(generate_generated w 0 content).entries]
    exact h.1
  exact hStart.fillEntries.size false

theorem storeSlots_generate (hNone : ¬ (generate w 0 content).HasCurrency) :
    storeSlots s (fillEntries (generate w 0 content) player.attending group) player.guid
        (List.range ((fillEntries (generate w 0 content) player.attending group).getMaxSlotInLootFor player.guid)) =
      some (loopReceipts s group (generate w 0 content) player) :=
  storeSlots_fillEntries (m := player.attending) (generate_generated w 0 content)
    (length_fillEntries _ _ (shortEnough_of_no_currency hNone))

theorem Deliverable.delivers (h : Deliverable w group content player s) : Delivers w group content player s := by
  have hNone := hasCurrency_of_deliverable h
  have hShort := shortEnough_of_no_currency hNone
  have hGenerated := generate_generated w 0 content
  have hSize := length_fillEntries player.attending group hShort
  have hKept : fillNotNormalLootFor w group (generate w 0 content) player.attending =
      fillEntries (generate w 0 content) player.attending group := by
    refine autoStores_eq fun slot hMem hStores => ?_
    rw [storesToken_fillEntries hGenerated hSize] at hStores
    have hSlot : slot < (generate w 0 content).items.length +
        (questSlots (generate w 0 content) player.attending group).length := by
      rw [← maxSlot_fillEntries hGenerated hSize]
      exact List.mem_range.mp hMem
    exact (checkStore_fillEntries hGenerated hNone hSize hShort.1 hSlot).mpr (h.tokens slot hSlot hStores)
  have hHistory : (fillEntries (generate w 0 content) player.attending group).history = [] :=
    (fillEntries_filling group hGenerated.filling hGenerated.ticketed (hGenerated.unvisited _)).2.2.2.history.trans
      hGenerated.history
  refine ⟨loopReceipts s group (generate w 0 content) player, ?_, (givesExactly_iff hNone).mpr ?_⟩
  · rw [autoStoreLoot, fillLoot_personal, fillAll_single, if_pos hShort.loopsEnd, hKept, Option.bind_some,
      storeSlots_generate hNone, hHistory, Option.map_some]
    rfl
  · intro quest i item hItem hFits
    refine ⟨?_, fun hAllowed => h.counts quest i item hItem hAllowed hFits⟩
    cases quest with
    | false => exact iff_of_true (h.items i item hItem hFits) fun hQuest => absurd hQuest Bool.false_ne_true
    | true => exact (h.quest i item hItem hFits).trans ⟨fun hMem _ => hMem, fun hMem => hMem rfl⟩

/-- A run that came to its end: what the loot was after it was filled, and what the loop stored. -/
structure Finished (w : World) (group : Option LootGroup) (content : List Drop) (player : Member) (s : Storage)
    (filled : Loot) (stored : List Receipt) : Prop where
  short : (generate w 0 content).items.length < 256
  fill : filled = fillNotNormalLootFor w group (generate w 0 content) player.attending
  stored : storeSlots s filled player.guid (List.range (filled.getMaxSlotInLootFor player.guid)) = some stored

theorem finished_of_autoStoreLoot {receipts : List Receipt}
    (h : autoStoreLoot w group content player s = some receipts) :
    ∃ filled stored, Finished w group content player s filled stored ∧
      receipts = filled.history.map Handout.receipt ++ stored := by
  rw [autoStoreLoot, fillLoot_personal, fillAll_single] at h
  obtain ⟨filled, hFill, hMore⟩ := Option.bind_eq_some_iff.mp h
  obtain ⟨stored, hStored, rfl⟩ := Option.map_eq_some_iff.mp hMore
  obtain ⟨hEnds, hFilled⟩ := Option.ite_none_right_eq_some.mp hFill
  rw [loopsEnd, Bool.and_eq_true] at hEnds
  exact ⟨filled, stored, ⟨of_decide_eq_true hEnds.1, (Option.some.inj hFilled).symm, hStored⟩, rfl⟩

section

variable {filled : Loot} {stored : List Receipt}

theorem Finished.unmarked (h : Finished w group content player s filled stored) {o : Handout}
    (hMem : o ∈ filled.history) :
    (generate w 0 content).static? o.quest o.index = some o.item.static ∧
      Unmarked (fillEntries (generate w 0 content) player.attending group) player.guid o.quest o.index o.item
        o.asCurrency := by
  have hGenerated := generate_generated w 0 content
  obtain ⟨hFilling, -, -, hGrows⟩ := fillEntries_filling group hGenerated.filling hGenerated.ticketed
    (hGenerated.unvisited player.attending.guid)
  have hHanded : HandedOut (fillEntries (generate w 0 content) player.attending group) filled player.attending.guid := by
    rw [h.fill]
    exact (HandedOut.start hFilling.filed (hGrows.history.trans hGenerated.history)).autoStores w _
  have hStatic := hHanded.items o hMem
  refine ⟨?_, (hHanded.places o hMem).resolve_left fun hEmptied => ?_⟩
  · rwa [(fillSteps group (hGenerated.unvisited _)).static] at hStatic
  · obtain ⟨slot, hSlot, hNull⟩ := hEmptied.slot (hHanded.static ▸ hStatic)
    exact (found_of_storeSlots h.stored).1 slot (List.mem_range.mpr hSlot) hNull

theorem Finished.no_currency (h : Finished w group content player s filled stored)
    (hGives : GivesExactly (generate w 0 content) player s (filled.history.map Handout.receipt ++ stored)) :
    ¬ (generate w 0 content).HasCurrency := by
  rintro ⟨quest, i, item, hItem, hCurrency⟩
  have hCredited := hGives.currencies quest i item hItem hCurrency
  have hMem : ⟨quest, i, item.itemid, item.count, true⟩ ∈ filled.history.map Handout.receipt ++ stored :=
    (List.mem_filter.mp (hCredited ▸ List.mem_singleton_self _)).1
  rcases List.mem_append.mp hMem with hBefore | hLoop
  · obtain ⟨o, hHandout, hSame⟩ := List.mem_map.mp hBefore
    have hCoin : o.asCurrency = true := congrArg Receipt.asCurrency hSame
    exact Bool.false_ne_true ((h.unmarked hHandout).2.1.symm.trans hCoin)
  · exact Bool.noConfusion ((found_of_storeSlots h.stored).2 _ hLoop)

theorem Finished.history_nil (h : Finished w group content player s filled stored)
    (hGives : GivesExactly (generate w 0 content) player s (filled.history.map Handout.receipt ++ stored)) :
    filled.history = [] := by
  have hGenerated := generate_generated w 0 content
  refine List.eq_nil_iff_forall_not_mem.mpr fun o hMem => ?_
  obtain ⟨hStatic, hCoin, hQuest, hFfa, hUnlisted⟩ := h.unmarked hMem
  obtain ⟨item, hItem, hSame⟩ := Option.map_eq_some_iff.mp hStatic
  rw [hQuest] at hItem
  have hFfaStatic : item.static.freeforall = true := by
    rw [hSame]
    exact hFfa
  have hItemFfa : item.freeforall = true := hFfaStatic
  have hCurrency : item.currency = false :=
    Bool.eq_false_iff.mpr fun hCurrency => h.no_currency hGives ⟨false, o.index, item, hItem, hCurrency⟩
  have hHere : o.receipt ∈ receiptsOf (filled.history.map Handout.receipt ++ stored) false o.index :=
    List.mem_filter.mpr ⟨List.mem_append_left _ (List.mem_map_of_mem hMem), decide_eq_true ⟨hQuest, rfl⟩⟩
  rw [hGives.items false o.index item hItem hCurrency] at hHere
  split at hHere
  · rename_i hAllowed
    refine hUnlisted ?_
    rw [Loot.ListedFor, ← show player.attending.guid = player.guid from rfl,
      (fillSteps group (hGenerated.unvisited _)).entries, listed_newEntries, memberSlots, ffaSlots]
    have hLt : o.index < (generate w 0 content).items.length := (List.getElem?_eq_some_iff.mp hItem).1
    refine List.mem_filter.mpr ⟨List.mem_range.mpr (lt_min hLt (hLt.trans h.short)), ?_⟩
    rw [hItem, Option.any_some, (hGenerated.plain false o.index item hItem).1, hItemFfa]
    exact hAllowed.1
  · exact List.not_mem_nil hHere

end

theorem Delivers.deliverable (h : Delivers w group content player s) : Deliverable w group content player s := by
  obtain ⟨receipts, hRun, hGives⟩ := h
  obtain ⟨filled, stored, hFinished, rfl⟩ := finished_of_autoStoreLoot hRun
  have hGenerated := generate_generated w 0 content
  have hNone := hFinished.no_currency hGives
  have hShort := shortEnough_of_no_currency hNone
  have hSize := length_fillEntries player.attending group hShort
  have hHistory := hFinished.history_nil hGives
  rw [hFinished.fill] at hHistory
  obtain ⟨hKept, hSlots⟩ := autoStores_nil hHistory
  have hLoop : stored = loopReceipts s group (generate w 0 content) player := by
    have hStored := hFinished.stored
    rw [hFinished.fill.trans hKept, storeSlots_generate hNone] at hStored
    exact (Option.some.inj hStored).symm
  rw [hFinished.fill, hHistory, hLoop] at hGives
  have hExact := (givesExactly_iff hNone).mp hGives
  refine ⟨fun drop hMem => ?_, fun slot hSlot hStores => ?_, fun i item hItem hFits => ?_,
    fun i item hItem hFits => ?_, fun quest i item hItem hAllowed hFits => (hExact quest i item hItem hFits).2 hAllowed⟩
  · rw [hasCurrency_generate] at hNone
    exact Bool.eq_false_iff.mpr fun hCurrency => hNone ⟨drop, hMem, hCurrency⟩
  · have hRange : slot ∈ autoSlots group (generate w 0 content) player.attending := by
      refine List.mem_range.mpr ?_
      rw [maxSlot_fillEntries hGenerated hSize]
      exact hSlot
    have hCheck := hSlots slot hRange ((storesToken_fillEntries hGenerated hSize slot).trans hStores)
    exact (checkStore_fillEntries hGenerated hNone hSize hShort.1 hSlot).mp hCheck
  · exact (hExact false i item hItem hFits).1.mpr fun hQuest => absurd hQuest Bool.false_ne_true
  · exact (hExact true i item hItem hFits).1.trans ⟨fun hMem => hMem rfl, fun hMem _ => hMem⟩

end Exact

end AshamaneCore.Looting

namespace AshamaneCore.LootTemplates

open LootTemplate

/-- For every loaded template and every outcome of its rolls, the player gets exactly what was generated when no
currency is rolled, no token is stored while the loot is filled, and the inventory takes what is listed. -/
theorem autoStoreLoot_delivers_iff {c : Config} {dice : Dice} {rows referenceRows : List Row} {lootId : Nat}
    {t : LootTemplate} (ht : (LootStore.loadLootTable c rows).getLootFor lootId = some t) {rate : Bool}
    {lootMode depth : Nat} {usable : Nat → Bool} {run : Run}
    (hRun : process c dice (LootStore.loadLootTable c referenceRows) rate lootMode depth t 0 usable
      ⟨Looting.Loot.empty 0, [], 0⟩ = some run) (group : Option Looting.LootGroup) (player : Looting.Member)
    (s : Looting.Storage) :
    run.loot = Looting.generate c.world 0 run.rolled ∧
      (Looting.Delivers c.world group run.rolled player s ↔ Looting.Deliverable c.world group run.rolled player s) :=
  ⟨(process_made ht hRun).loot, Looting.Delivers.deliverable, Looting.Deliverable.delivers⟩

/-- A world with one item, which may be a token that everybody gets. -/
def pieceConfig (token : Bool) : Config where
  world := ⟨fun itemid => if itemid = 7 then some ⟨token, false, 1, token, 200, Nat.succ_pos 199⟩ else none⟩
  hasCurrency _ := true
  qualityRate _ := 1
  rateDropItemReferenced := 1
  rateDropItemReferencedAmount := 1
  maxDuplicates := 1

def pieceRow : Row :=
  { entry := 1, item := 7, reference := 0, chance := 100, needsQuest := false, lootmode := 1, groupid := 0,
    mincount := 1, maxcount := 1, conditions := [] }

def pieceTemplate : LootTemplate := ⟨[pieceRow.storeItem], []⟩

def pieceRun (token : Bool) : Option Run :=
  process (pieceConfig token) lowest (LootStore.loadLootTable (pieceConfig token) []) false 1 1 pieceTemplate 0
    (fun _ => true) ⟨Looting.Loot.empty 0, [], 0⟩

def welcome : Looting.Member := ⟨1, fun _ => true, true, fun _ => ⟨true, true, true⟩⟩

def roomy : Looting.Storage := ⟨Looting.nullBag, Looting.nullSlot, fun _ _ _ _ => ⟨true, 1⟩⟩

theorem piece_loaded (token : Bool) :
    (LootStore.loadLootTable (pieceConfig token) [pieceRow]).getLootFor 1 = some pieceTemplate := by
  cases token <;> rfl

theorem piece_rolled : (pieceRun false).map (fun run =>
    (run.rolled.all fun drop => !drop.item.currency,
      (Looting.generate (pieceConfig false).world 0 run.rolled).items.map Looting.LootItem.count,
      (Looting.generate (pieceConfig false).world 0 run.rolled).questItems)) = some (true, [1], []) := by
  decide

theorem piece_no_token (itemid : Nat) :
    ((pieceConfig false).world.itemTemplate itemid).any Looting.ItemTemplate.currencyToken = false := by
  dsimp only [pieceConfig]
  split <;> rfl

/-- An item that is no token. -/
theorem piece_delivered : ∃ run, pieceRun false = some run ∧
    Looting.Delivers (pieceConfig false).world none run.rolled welcome roomy := by
  obtain ⟨run, hRun, hRolled⟩ := Option.map_eq_some_iff.mp piece_rolled
  obtain ⟨hCurrencies, hRest⟩ := Prod.mk.inj hRolled
  obtain ⟨hItems, hQuest⟩ := Prod.mk.inj hRest
  refine ⟨run, hRun, (autoStoreLoot_delivers_iff (piece_loaded false) hRun none welcome roomy).2.mpr ?_⟩
  have hNoQuest : ∀ i item, (Looting.generate (pieceConfig false).world 0 run.rolled).item? true i ≠ some item := by
    intro i item hItem
    rw [Looting.Loot.item?, if_pos rfl, hQuest] at hItem
    cases hItem
  refine ⟨fun drop hMem => ?_, fun slot _ hStores => ?_, fun _ _ _ _ => rfl,
    fun i item hItem _ => absurd hItem (hNoQuest i item), fun quest i item hItem _ _ => ?_⟩
  · simpa using List.all_eq_true.mp hCurrencies drop hMem
  · obtain ⟨item, -, hGood⟩ := (Option.any_eq_true _ _).mp hStores
    rw [piece_no_token, Bool.and_false] at hGood
    cases hGood
  · cases quest with
    | true => exact absurd hItem (hNoQuest i item)
    | false =>
      have hCount : ((Looting.generate (pieceConfig false).world 0 run.rolled).items.map Looting.LootItem.count)[i]? =
          some item.count := by
        have hAt : (Looting.generate (pieceConfig false).world 0 run.rolled).items[i]? = some item := hItem
        rw [List.getElem?_map, hAt, Option.map_some]
      rw [hItems] at hCount
      exact (List.mem_singleton.mp (List.mem_of_getElem? hCount)).symm

theorem token_gap : (pieceRun true).map (fun run =>
    Looting.autoStoreLoot (pieceConfig true).world none run.rolled welcome roomy) = some none := by
  decide

/-- A token is stored while the loot is filled, and the loop goes through the missing slot. -/
theorem token_missing :
    (LootStore.loadLootTable (pieceConfig true) [pieceRow]).getLootFor 1 = some pieceTemplate ∧
    ∃ run, pieceRun true = some run ∧
      Looting.autoStoreLoot (pieceConfig true).world none run.rolled welcome roomy = none ∧
      ¬ Looting.Delivers (pieceConfig true).world none run.rolled welcome roomy := by
  obtain ⟨run, hRun, hGap⟩ := Option.map_eq_some_iff.mp token_gap
  refine ⟨piece_loaded true, run, hRun, hGap, ?_⟩
  rintro ⟨receipts, hReceipts, -⟩
  cases hGap.symm.trans hReceipts

example : (currencyRun 1).map (fun run => Looting.autoStoreLoot currencyConfig.world none run.rolled welcome roomy) =
    some (some [⟨false, 0, 1, 1, false⟩]) := by
  decide

end AshamaneCore.LootTemplates
