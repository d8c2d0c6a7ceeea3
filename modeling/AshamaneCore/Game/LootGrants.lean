import AshamaneCore.Game.LootTakes

/-!
# Requests that are granted

A request that is granted for what is left takes exactly that, whatever stands
in the slot. A slot that is shown to a player holds nothing else.
-/

namespace AshamaneCore.Looting

open Library

def Found.take (found : Found) (player : Nat) : Take := found.item.takeOf player found.quest found.index

variable {loot : Loot} {player : Nat} {found : Found}

/-! ## What a grant changes -/

section

variable (loot player found)

theorem markEntry_item? : (loot.markEntry player found).item? = loot.item? := by
  rw [Loot.markEntry]
  split <;> rfl

theorem listedFor_markEntry (kind : EntryKind) (p index : Nat) :
    (loot.markEntry player found).ListedFor kind p index ↔ loot.ListedFor kind p index := by
  rw [Loot.markEntry]
  split
  · rw [Loot.ListedFor, Loot.entries_setEntries, Loot.ListedFor]
    split
    · rename_i hSame
      obtain ⟨rfl, rfl⟩ := hSame
      exact listed_markAt index
    · exact Iff.rfl
  · exact Iff.rfl

theorem inOrder_markEntry (h : Filed loot) (kind : EntryKind) (p : Nat) :
    InOrder ((loot.markEntry player found).entries kind p) := by
  rw [Loot.markEntry]
  split
  · rw [Loot.entries_setEntries]
    split
    · exact (h.order _ _).markAt _
    · exact h.order _ _
  · exact h.order _ _

def Found.at (kind : EntryKind) (p index : Nat) : Prop :=
  found.entry.isSome = true ∧ kind = found.item.kind found.quest ∧ p = player ∧ index = found.index

end

theorem leftFor_markEntry (h : Filed loot) (hMet : Met loot player found) (kind : EntryKind) (p index : Nat) :
    (loot.markEntry player found).LeftFor kind p index ↔
      loot.LeftFor kind p index ∧ ¬ found.at player kind p index := by
  rw [Loot.markEntry, Found.at]
  cases hEntry : found.entry with
  | none => simp
  | some position =>
    obtain ⟨entry, hAt, hIndex, -⟩ := hMet.entry position hEntry
    dsimp only
    rw [Loot.LeftFor, Loot.entries_setEntries, Loot.LeftFor]
    split
    · rename_i hSame
      obtain ⟨rfl, rfl⟩ := hSame
      refine (left_markAt (h.order _ _) hAt index).trans ?_
      simp [hIndex]
    · rename_i hOther
      refine ⟨fun hLeft => ⟨hLeft, fun hHere => hOther ⟨hHere.2.1, hHere.2.2.1⟩⟩, fun hLeft => hLeft.1⟩

section

variable (loot player found)

theorem item?_handOut (asCurrency : Bool) : (loot.handOut player found asCurrency).item? = loot.item? := rfl

theorem entries_handOut (asCurrency : Bool) : (loot.handOut player found asCurrency).entries = loot.entries := rfl

theorem static?_handOut (asCurrency : Bool) : (loot.handOut player found asCurrency).static? = loot.static? := by
  funext q i
  rw [Loot.static?, item?_handOut, Loot.static?]

end

def Found.marksItem (found : Found) : Bool := !found.asCurrency && !found.item.freeforall

theorem grant_eq (loot : Loot) (player : Nat) (found : Found) :
    grant loot player found =
      (if found.marksItem then (loot.markEntry player found).markItem found.quest found.index
        else loot.markEntry player found).handOut player found found.asCurrency := by
  rw [grant, Found.marksItem]
  split
  · rename_i hCurrency
    simp [hCurrency]
  · rename_i hItem
    split
    · rename_i hAll
      simp [hItem, hAll]
    · rename_i hOne
      simp [hItem, hOne]

section

variable (loot player found)

theorem grant_static? : (grant loot player found).static? = loot.static? := by
  have hMarked : ∀ l : Loot, (l.markItem found.quest found.index).static? = l.static? := fun l => by
    refine l.static?_mapItems found.quest fun i item => ?_
    split <;> rfl
  have hSame : (loot.markEntry player found).static? = loot.static? := by
    funext q i
    rw [Loot.static?, markEntry_item?, Loot.static?]
  rw [grant_eq, static?_handOut]
  split
  · exact (hMarked _).trans hSame
  · exact hSame

theorem grant_entries : (grant loot player found).entries = (loot.markEntry player found).entries := by
  rw [grant_eq, entries_handOut]
  split
  · exact Loot.entries_mapItems _ found.quest _
  · rfl

theorem grant_listedFor (kind : EntryKind) (p index : Nat) :
    (grant loot player found).ListedFor kind p index ↔ loot.ListedFor kind p index := by
  rw [Loot.ListedFor, grant_entries]
  exact listedFor_markEntry loot player found kind p index

theorem grant_offered : (grant loot player found).offered = loot.offered :=
  Loot.offered_congr (grant_static? loot player found) (grant_listedFor loot player found)

end

theorem grant_looted (hMet : Met loot player found) (quest : Bool) (index : Nat) :
    (grant loot player found).Looted quest index ↔
      loot.Looted quest index ∨ found.marksItem = true ∧ quest = found.quest ∧ index = found.index := by
  have hItems : (grant loot player found).item? quest index =
      (if found.marksItem then (loot.markEntry player found).markItem found.quest found.index
        else loot.markEntry player found).item? quest index := by
    rw [grant_eq, item?_handOut]
  rw [Loot.Looted, hItems]
  cases hMarks : found.marksItem with
  | false => simp [markEntry_item?, Loot.Looted]
  | true =>
    rw [if_pos rfl, Loot.markItem, Loot.item?_mapItems, markEntry_item?]
    rcases Decidable.em (quest = found.quest ∧ index = found.index) with ⟨rfl, rfl⟩ | hOther
    · rw [if_pos rfl, hMet.item]
      simp
    · simp only [Loot.Looted, true_and, or_iff_left hOther]
      split
      · rename_i hQuest
        have hIndex : index ≠ found.index := fun hIndex => hOther ⟨hQuest, hIndex⟩
        simp [hIndex]
      · exact Iff.rfl

theorem grant_filed (player : Nat) (found : Found) (h : Filed loot) : Filed (grant loot player found) := by
  refine h.congr (grant_static? loot player found) (grant_listedFor loot player found) fun kind p => ?_
  rw [grant_entries]
  exact inOrder_markEntry loot player found h kind p

/-! ## What a grant takes -/

variable {item : LootItem} {quest : Bool}

theorem takeOf_personal (h : item.personal quest = true) (p index : Nat) :
    item.takeOf p quest index = ⟨some p, quest, index⟩ := by rw [LootItem.takeOf, if_pos h]

theorem takeOf_shared (h : item.personal quest = false) (p index : Nat) :
    item.takeOf p quest index = ⟨none, quest, index⟩ := by rw [LootItem.takeOf, if_neg (Bool.not_eq_true _ ▸ h)]

section

variable {quest : Bool} {index : Nat} {item : LootItem}

theorem personal_mem_left (hItem : loot.item? quest index = some item) (h : item.personal quest = true) (p : Nat) :
    item.takeOf p quest index ∈ loot.left ↔ loot.LeftFor (item.kind quest) p index := by
  rw [takeOf_personal h]
  constructor
  · rintro ⟨other, hOther, -, hLeft⟩
    obtain rfl := Option.some.inj ((loot.static?_eq_some hItem).symm.trans hOther)
    exact hLeft
  · intro hLeft
    exact ⟨item.static, loot.static?_eq_some hItem, h, hLeft⟩

theorem shared_mem_left (hItem : loot.item? quest index = some item) (h : item.personal quest = false) (p : Nat) :
    item.takeOf p quest index ∈ loot.left ↔ item.isLooted = false ∧
      (item.ordinary quest = true ∨ ∃ player, loot.ListedFor (item.kind quest) player index) := by
  rw [takeOf_shared h]
  constructor
  · rintro ⟨other, hOther, -, hUnlooted, hOffer⟩
    obtain rfl := Option.some.inj ((loot.static?_eq_some hItem).symm.trans hOther)
    rw [loot.looted_iff hItem, Bool.not_eq_true] at hUnlooted
    exact ⟨hUnlooted, hOffer⟩
  · rintro ⟨hUnlooted, hOffer⟩
    refine ⟨item.static, loot.static?_eq_some hItem, h, ?_, hOffer⟩
    rw [loot.looted_iff hItem, Bool.not_eq_true]
    exact hUnlooted

end

variable {slot : Nat}

theorem isSome_entryInSlot (hListed : loot.ListedFor (item.kind false) player slot)
    (hSpecial : (item.currency || item.freeforall || !item.conditions.isEmpty) = true) :
    (loot.entryInSlot player slot item).isSome = true := by
  obtain ⟨entry, hMem, hIndex⟩ := hListed
  rw [Loot.entryInSlot, if_pos hSpecial, List.findIdx?_isSome]
  exact List.any_eq_true.mpr ⟨entry, hMem, decide_eq_true hIndex⟩

theorem entry_of_listed (hFound : loot.lootItemInSlot slot player = some found)
    (hListed : loot.ListedFor (found.item.kind found.quest) player found.index)
    (hSpecial : found.quest = false →
      (found.item.currency || found.item.freeforall || !found.item.conditions.isEmpty) = true) :
    found.entry.isSome = true := by
  rw [Loot.lootItemInSlot] at hFound
  split at hFound
  · obtain ⟨entry, -, hRest⟩ := Option.bind_eq_some_iff.mp hFound
    obtain ⟨item, -, hItem⟩ := Option.bind_eq_some_iff.mp hRest
    split at hItem
    · cases hItem
    · exact Option.some.inj hItem ▸ rfl
  · obtain ⟨item, -, hItem⟩ := Option.bind_eq_some_iff.mp hFound
    split at hItem
    · cases hItem
    · obtain rfl := Option.some.inj hItem
      exact isSome_entryInSlot hListed (hSpecial rfl)

theorem entry_of_personal (hFound : loot.lootItemInSlot slot player = some found)
    (hLeft : found.take player ∈ loot.left) (hPersonal : found.item.personal found.quest = true) :
    found.entry.isSome = true := by
  have hMet := lootItemInSlot_met hFound
  have hFor := ((personal_mem_left hMet.item hPersonal player).mp hLeft).listed
  refine entry_of_listed hFound hFor fun hBelow => ?_
  rw [LootItem.personal, hBelow, Bool.not_false, Bool.true_and, Bool.or_comm] at hPersonal
  rw [hPersonal, Bool.true_or]

theorem asCurrency_shared (h : found.item.personal found.quest = false) : found.marksItem = true := by
  rw [LootItem.personal, Bool.or_eq_false_iff] at h
  rw [Found.marksItem, Found.asCurrency, h.1, h.2]
  rfl

theorem grant_left (h : Filed loot) (hMet : Met loot player found)
    (hEntry : found.item.personal found.quest = true → found.entry.isSome = true) :
    (grant loot player found).left = loot.left \ {found.take player} := by
  have hPlace : ∀ item, loot.static? found.quest found.index = some item → item = found.item.static :=
    fun item hItem => Option.some.inj (hItem.symm.trans (loot.static?_eq_some hMet.item))
  ext ⟨taker, quest, index⟩
  rw [Set.mem_sdiff, Set.mem_singleton_iff]
  cases taker with
  | some p =>
    have hLeft : ∀ kind, (grant loot player found).LeftFor kind p index ↔
        loot.LeftFor kind p index ∧ ¬ found.at player kind p index := fun kind => by
      rw [Loot.LeftFor, grant_entries]
      exact leftFor_markEntry h hMet kind p index
    simp only [Loot.left, Loot.Leaves, Set.mem_ofPred_eq, grant_static?, hLeft]
    constructor
    · rintro ⟨item, hItem, hPersonal, hFor, hNot⟩
      refine ⟨⟨item, hItem, hPersonal, hFor⟩, fun hSame => hNot ?_⟩
      have hTake := hSame
      rw [Found.take, LootItem.takeOf, Take.mk.injEq] at hTake
      obtain ⟨hPlayer, rfl, rfl⟩ := hTake
      obtain rfl := hPlace item hItem
      rw [LootItem.static_personal] at hPersonal
      rw [if_pos hPersonal] at hPlayer
      exact ⟨hEntry hPersonal, rfl, Option.some.inj hPlayer, rfl⟩
    · rintro ⟨⟨item, hItem, hPersonal, hFor⟩, hOther⟩
      refine ⟨item, hItem, hPersonal, hFor, ?_⟩
      rintro ⟨-, hKind, rfl, rfl⟩
      obtain rfl : quest = found.quest := by
        rw [← item.isQuest_kind quest, hKind, LootItem.isQuest_kind]
      obtain rfl := hPlace item hItem
      rw [LootItem.static_personal] at hPersonal
      exact hOther (takeOf_personal hPersonal p found.index).symm
  | none =>
    simp only [Loot.left, Loot.Leaves, Set.mem_ofPred_eq, grant_static?, grant_looted hMet, grant_listedFor]
    constructor
    · rintro ⟨item, hItem, hShared, hUnlooted, hOffer⟩
      refine ⟨⟨item, hItem, hShared, fun hLooted => hUnlooted (Or.inl hLooted), hOffer⟩, fun hSame => hUnlooted ?_⟩
      have hTake := hSame
      rw [Found.take, LootItem.takeOf, Take.mk.injEq] at hTake
      obtain ⟨-, rfl, rfl⟩ := hTake
      obtain rfl := hPlace item hItem
      exact Or.inr ⟨asCurrency_shared hShared, rfl, rfl⟩
    · rintro ⟨⟨item, hItem, hShared, hUnlooted, hOffer⟩, hOther⟩
      refine ⟨item, hItem, hShared, ?_, hOffer⟩
      rintro (hLooted | ⟨-, rfl, rfl⟩)
      · exact hUnlooted hLooted
      · obtain rfl := hPlace item hItem
        exact hOther (takeOf_shared hShared player found.index).symm

/-- The tickets of a loot, with what its counter counted too often. -/
def Ticketed (loot : Loot) (excess : Nat) : Prop :=
  Tickets loot.offered loot.left (loot.history.map Handout.take) excess loot.unlootedCount

theorem grant_history (loot : Loot) (player : Nat) (found : Found) :
    (grant loot player found).history = loot.history ++
      [⟨player, found.quest, found.index, found.item, found.asCurrency, loot.unlootedCount⟩] := by
  have hMark : (loot.markEntry player found).history = loot.history ∧
      (loot.markEntry player found).unlootedCount = loot.unlootedCount := by
    rw [Loot.markEntry]
    split <;> exact ⟨rfl, rfl⟩
  rw [grant_eq, Loot.handOut]
  split
  · rw [Loot.markItem, Loot.mapItems]
    split <;> rw [hMark.1, hMark.2]
  · rw [hMark.1, hMark.2]

theorem grant_unlootedCount (loot : Loot) (player : Nat) (found : Found) :
    (grant loot player found).unlootedCount = decrement loot.unlootedCount := by
  have hMark : (loot.markEntry player found).unlootedCount = loot.unlootedCount := by
    rw [Loot.markEntry]
    split <;> rfl
  rw [grant_eq, Loot.handOut]
  split
  · rw [Loot.markItem, Loot.mapItems]
    split <;> rw [hMark]
  · rw [hMark]

theorem grant_ticketed {excess : Nat} (h : Filed loot) (hTickets : Ticketed loot excess) (hMet : Met loot player found)
    (hEntry : found.item.personal found.quest = true → found.entry.isSome = true)
    (hLeft : found.take player ∈ loot.left) : Ticketed (grant loot player found) excess := by
  have hPos := hTickets.counter_pos hLeft
  have hCount : decrement loot.unlootedCount = loot.unlootedCount - 1 := if_neg hPos.ne'
  rw [Ticketed, grant_offered, grant_left h hMet hEntry, grant_history, grant_unlootedCount, hCount, List.map_append]
  exact hTickets.take hLeft

/-! ## What is shown -/

/-- The slot stands in the response that is sent to the player under some permission. -/
def Shown (loot : Loot) (player slot : Nat) : Prop :=
  ∃ viewer permission, viewer.guid = player ∧ ∃ data ∈ buildLootResponse loot viewer permission, data.slot = slot

theorem found_below (hItem : loot.item? false slot = some item)
    (hFound : loot.lootItemInSlot slot player = some found) :
    found = ⟨false, slot, item, loot.entryInSlot player slot item⟩ := by
  have hLt : slot < loot.items.length := (List.getElem?_eq_some_iff.mp hItem).1
  have hAt : loot.items[slot]? = some item := hItem
  rw [Loot.lootItemInSlot, if_neg (Nat.not_le.mpr hLt), hAt, Option.bind_some] at hFound
  split at hFound
  · cases hFound
  · exact (Option.some.inj hFound).symm

variable {entry : NotNormalLootItem}

theorem found_above {position : Nat}
    (hEntry : (loot.entries .quest player)[position]? = some entry)
    (hItem : loot.item? true entry.index = some item)
    (hFound : loot.lootItemInSlot (loot.items.length + position) player = some found) :
    found = ⟨true, entry.index, item, some position⟩ := by
  have hAt : loot.questItems[entry.index]? = some item := hItem
  rw [Loot.lootItemInSlot, if_pos (Nat.le_add_right ..), Nat.add_sub_cancel_left, hEntry, Option.bind_some, hAt,
    Option.bind_some] at hFound
  split at hFound
  · cases hFound
  · exact (Option.some.inj hFound).symm

theorem entryData_some {uiType : LootItem → LootSlotType}
    {data : LootItemData} (h : entryData loot quest slot entry uiType = some data) :
    data.slot = slot ∧ ∃ item, loot.item? quest entry.index = some item ∧ entry.isLooted = false ∧
      item.isLooted = false := by
  rw [entryData] at h
  obtain ⟨item, hItem, rfl⟩ := Option.map_eq_some_iff.mp h
  obtain ⟨hAt, hShown⟩ := Option.filter_eq_some_iff.mp hItem
  rw [Bool.and_eq_true, Bool.not_eq_true', Bool.not_eq_true'] at hShown
  exact ⟨rfl, item, hAt, hShown⟩

theorem kind_currency_iff (item : LootItem) : item.kind false = .currency ↔ item.currency = true := by
  rw [LootItem.kind, if_neg Bool.false_ne_true]
  split
  · simp_all
  · split <;> simp_all

theorem entry_left (hItem : loot.item? quest entry.index = some item)
    (hMem : entry ∈ loot.entries (item.kind quest) player) (hEntry : entry.isLooted = false)
    (hUnlooted : item.isLooted = false) : item.takeOf player quest entry.index ∈ loot.left := by
  cases hPersonal : item.personal quest with
  | true => exact (personal_mem_left hItem hPersonal player).mpr ⟨entry, hMem, rfl, hEntry⟩
  | false => exact (shared_mem_left hItem hPersonal player).mpr ⟨hUnlooted, Or.inr ⟨player, entry, hMem, rfl⟩⟩

theorem left_of_conditional (h : Filed loot)
    (hMem : entry ∈ loot.entries .conditional player) (hItem : loot.item? false entry.index = some item)
    (hEntry : entry.isLooted = false) (hUnlooted : item.isLooted = false)
    (hFound : loot.lootItemInSlot entry.index player = some found) : found.take player ∈ loot.left := by
  have hMet := lootItemInSlot_met hFound
  obtain rfl := found_below hItem hFound
  obtain ⟨other, hOther, hSuits⟩ := h.suits .conditional player entry.index ⟨entry, hMem, rfl⟩
  obtain rfl : other = item.static := Option.some.inj (hOther.symm.trans (loot.static?_eq_some hItem))
  obtain ⟨hFfa, -, hListed⟩ : item.freeforall = false ∧ item.conditions ≠ [] ∧
      (item.currency = true → loot.ListedFor .currency player entry.index) := hSuits
  cases hCurrency : item.currency with
  | false =>
    refine entry_left hItem ?_ hEntry hUnlooted
    rw [LootItem.kind, if_neg Bool.false_ne_true, hCurrency, if_neg Bool.false_ne_true, hFfa,
      if_neg Bool.false_ne_true]
    exact hMem
  | true =>
    have hKind := (kind_currency_iff item).mpr hCurrency
    have hPersonal : item.personal false = true := by rw [LootItem.personal, hCurrency, hFfa]; rfl
    have hSome : (loot.entryInSlot player entry.index item).isSome = true :=
      isSome_entryInSlot (hKind ▸ hListed hCurrency) (by rw [hCurrency]; rfl)
    obtain ⟨position, hPosition⟩ := Option.isSome_iff_exists.mp hSome
    obtain ⟨met, hAt, hIndex, hLeft⟩ := hMet.entry position hPosition
    exact (personal_mem_left hItem hPersonal player).mpr ⟨met, List.mem_of_getElem? hAt, hIndex, hLeft⟩

theorem left_of_entry (h : Filed loot) {kind : EntryKind}
    (hKind : kind ≠ .conditional) (hMem : entry ∈ loot.entries kind player)
    (hItem : loot.item? kind.isQuest entry.index = some item) (hEntry : entry.isLooted = false)
    (hUnlooted : item.isLooted = false) : item.takeOf player kind.isQuest entry.index ∈ loot.left := by
  obtain ⟨other, hOther, hSuits⟩ := h.suits kind player entry.index ⟨entry, hMem, rfl⟩
  obtain rfl : other = item.static := Option.some.inj (hOther.symm.trans (loot.static?_eq_some hItem))
  rw [Suits, if_neg hKind, LootItem.static_kind] at hSuits
  refine entry_left hItem ?_ hEntry hUnlooted
  rwa [hSuits]

theorem left_of_ordinary {viewer : Viewer} {permission : PermissionTypes} {i : Nat} {data : LootItemData}
    (hShows : ordinaryData loot viewer permission i = some data)
    (hFound : loot.lootItemInSlot data.slot viewer.guid = some found) : found.take viewer.guid ∈ loot.left := by
  rw [ordinaryData] at hShows
  obtain ⟨item, hFilter, hType⟩ := Option.bind_eq_some_iff.mp hShows
  obtain ⟨uiType, -, rfl⟩ := Option.map_eq_some_iff.mp hType
  obtain ⟨hAt, hOrdinary⟩ := Option.filter_eq_some_iff.mp hFilter
  have hItem : loot.item? false i = some item := hAt
  obtain rfl := found_below hItem hFound
  simp only [Bool.and_eq_true, Bool.not_eq_true'] at hOrdinary
  obtain ⟨⟨⟨⟨hUnlooted, hCurrency⟩, hFfa⟩, hConditions⟩, -⟩ := hOrdinary
  have hShared : item.personal false = false := by rw [LootItem.personal, hFfa, hCurrency]; rfl
  exact (shared_mem_left hItem hShared _).mpr ⟨hUnlooted, Or.inl hConditions⟩

theorem currency_ne : EntryKind.currency ≠ .conditional := by decide

theorem quest_ne : EntryKind.quest ≠ .conditional := by decide

theorem ffa_ne : EntryKind.ffa ≠ .conditional := by decide

theorem left_of_shown (h : Filed loot) (hShown : Shown loot player slot)
    (hFound : loot.lootItemInSlot slot player = some found) : found.take player ∈ loot.left := by
  obtain ⟨viewer, permission, rfl, data, hData, rfl⟩ := hShown
  rw [buildLootResponse] at hData
  split at hData
  · exact (List.not_mem_nil hData).elim
  · simp only [List.mem_append, List.mem_filterMap] at hData
    rcases hData with (((⟨i, -, hOrdinary⟩ | ⟨entry, hMem, hShows⟩) | ⟨⟨entry, i⟩, hMem, hShows⟩) |
      ⟨entry, hMem, hShows⟩) | ⟨entry, hMem, hShows⟩
    · exact left_of_ordinary hOrdinary hFound
    · obtain ⟨hSlot, item, hItem, hEntry, hUnlooted⟩ := entryData_some hShows
      obtain rfl := found_below hItem (hSlot ▸ hFound)
      exact left_of_entry h currency_ne hMem hItem hEntry hUnlooted
    · obtain ⟨hSlot, item, hItem, hEntry, hUnlooted⟩ := entryData_some hShows
      have hAt := List.mem_zipIdx_iff_getElem?.mp hMem
      obtain rfl := found_above hAt hItem (hSlot ▸ hFound)
      exact left_of_entry h quest_ne (List.mem_of_getElem? hAt) hItem hEntry hUnlooted
    · obtain ⟨hSlot, item, hItem, hEntry, hUnlooted⟩ := entryData_some hShows
      obtain rfl := found_below hItem (hSlot ▸ hFound)
      exact left_of_entry h ffa_ne hMem hItem hEntry hUnlooted
    · obtain ⟨hSlot, item, hItem, hEntry, hUnlooted⟩ := entryData_some hShows
      exact left_of_conditional h hMem hItem hEntry hUnlooted (hSlot ▸ hFound)

end AshamaneCore.Looting
