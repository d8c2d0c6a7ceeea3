import AshamaneCore.Game.LootVisits

/-!
# What is shown

The response lists slots from the items and from the entries of the viewer; a
request finds the item of a slot and lets the entry of the player speak for it.
Both come to the same while no entry outlives its item.
-/

namespace AshamaneCore.Looting

variable {loot : Loot} {viewer : Viewer} {permission : PermissionTypes}

/-- The identifier of a slot in the response is an unsigned byte. -/
def LootItemData.lootListID (data : LootItemData) : Nat := (data.slot + 1) % 2 ^ 8

def shownAt (loot : Loot) (viewer : Viewer) (permission : PermissionTypes) (slot : Nat) : List LootItemData :=
  (buildLootResponse loot viewer permission).filter fun data => data.lootListID = (slot + 1) % 2 ^ 8

/-- What a request of the viewer for a slot finds, if it is allowed for him. -/
def takeable (loot : Loot) (viewer : Viewer) (slot : Nat) : Option Found :=
  (loot.lootItemInSlot slot viewer.guid).filter fun found => viewer.allowed found.item

structure ShownAsTaken (loot : Loot) (viewer : Viewer) (permission : PermissionTypes) (slot : Nat) : Prop where
  once : (shownAt loot viewer permission slot).length = 1 ↔ (takeable loot viewer slot).isSome = true
  same : ∀ found, takeable loot viewer slot = some found → ∀ data ∈ shownAt loot viewer permission slot,
    data.itemid = found.item.itemid ∧ data.quantity = found.item.count

def LootItem.special (item : LootItem) : Bool := item.currency || item.freeforall || !item.conditions.isEmpty

/-! ## The parts of a response -/

inductive Part
  | ordinary
  | entries (kind : EntryKind)
  deriving DecidableEq

def typeIn (permission : PermissionTypes) (kind : EntryKind) (item : LootItem) : LootSlotType :=
  if kind = .ffa then ownType permission else typeOf permission item

def questData (loot : Loot) (permission : PermissionTypes) (entry : NotNormalLootItem) (i : Nat) : Option LootItemData :=
  entryData loot true (loot.items.length + i) entry fun item =>
    if item.followLootRules then typeOf permission item else ownType permission

def part (loot : Loot) (viewer : Viewer) (permission : PermissionTypes) : Part → List LootItemData
  | .ordinary => (List.range (min loot.items.length 256)).filterMap (ordinaryData loot viewer permission)
  | .entries .quest => (loot.entries .quest viewer.guid).zipIdx.filterMap fun (entry, i) =>
      questData loot permission entry i
  | .entries kind => (loot.entries kind viewer.guid).filterMap fun entry =>
      entryData loot false entry.index entry (typeIn permission kind)

def parts : List Part :=
  [.ordinary, .entries .currency, .entries .quest, .entries .ffa, .entries .conditional]

def partAt (loot : Loot) (slot : Nat) : Part :=
  match loot.item? false slot with
  | some item => if item.special then .entries (item.kind false) else .ordinary
  | none => .entries .quest

theorem mem_parts (p : Part) : p ∈ parts := by
  rcases p with _ | _ | _ | _ | _ <;> decide

theorem buildLootResponse_eq (h : permission ≠ .none) :
    buildLootResponse loot viewer permission = parts.flatMap (part loot viewer permission) := by
  rw [buildLootResponse, if_neg h]
  simp only [parts, List.flatMap_cons, List.flatMap_nil, List.append_nil, List.append_assoc]
  rfl

theorem mem_buildLootResponse {data : LootItemData} (h : permission ≠ .none) :
    data ∈ buildLootResponse loot viewer permission ↔ ∃ p, data ∈ part loot viewer permission p := by
  rw [buildLootResponse_eq h, List.mem_flatMap]
  constructor
  · rintro ⟨p, -, hMem⟩
    exact ⟨p, hMem⟩
  · rintro ⟨p, hMem⟩
    exact ⟨p, mem_parts p, hMem⟩

theorem mem_part_entries {kind : EntryKind} (hKind : kind ≠ .quest) {data : LootItemData} :
    data ∈ part loot viewer permission (.entries kind) ↔ ∃ entry ∈ loot.entries kind viewer.guid,
      entryData loot false entry.index entry (typeIn permission kind) = some data := by
  cases kind with
  | quest => exact absurd rfl hKind
  | currency => exact List.mem_filterMap
  | ffa => exact List.mem_filterMap
  | conditional => exact List.mem_filterMap

theorem mem_part_quest {data : LootItemData} :
    data ∈ part loot viewer permission (.entries .quest) ↔ ∃ i entry,
      (loot.entries .quest viewer.guid)[i]? = some entry ∧ questData loot permission entry i = some data := by
  rw [part, List.mem_filterMap]
  constructor
  · rintro ⟨⟨entry, i⟩, hMem, hData⟩
    exact ⟨i, entry, List.mem_zipIdx_iff_getElem?.mp hMem, hData⟩
  · rintro ⟨i, entry, hAt, hData⟩
    exact ⟨(entry, i), List.mem_zipIdx_iff_getElem?.mpr hAt, hData⟩

/-! ## Entries and their items -/

/-- No entry outlives its item, and conditional entries are not for currencies. -/
structure Coherent (loot : Loot) : Prop where
  filed : Filed loot
  standing : ∀ kind p i, loot.LeftFor kind p i → ¬ loot.Looted kind.isQuest i
  conditional : ∀ p i item, loot.ListedFor .conditional p i → loot.item? false i = some item → item.currency = false

/-- What a viewer has entries of is allowed for him, and of all that is allowed he has entries. -/
structure Sight (loot : Loot) (viewer : Viewer) : Prop where
  allowed : ∀ kind i item, loot.ListedFor kind viewer.guid i → loot.item? kind.isQuest i = some item →
    item.isLooted = false → viewer.allowed item = true
  complete : ∀ i item, loot.item? false i = some item → item.special = true → item.isLooted = false →
    viewer.allowed item = true → loot.ListedFor (item.kind false) viewer.guid i
  short : ∀ kind, loot.entries kind viewer.guid ≠ [] →
    loot.items.length + (loot.entries .quest viewer.guid).length ≤ 256

theorem kind_ffa {item : LootItem} (hCurrency : item.currency = false) (hFfa : item.freeforall = true) :
    item.kind false = .ffa := by
  rw [LootItem.kind, if_neg Bool.false_ne_true, hCurrency, if_neg Bool.false_ne_true, hFfa, if_pos rfl]

theorem kind_conditional {item : LootItem} (hCurrency : item.currency = false) (hFfa : item.freeforall = false) :
    item.kind false = .conditional := by
  rw [LootItem.kind, if_neg Bool.false_ne_true, hCurrency, if_neg Bool.false_ne_true, hFfa, if_neg Bool.false_ne_true]

theorem special_of_kind {item : LootItem} (h : item.kind false ≠ .conditional) : item.special = true := by
  rw [LootItem.special]
  cases hCurrency : item.currency with
  | true => rfl
  | false =>
    cases hFfa : item.freeforall with
    | true => rfl
    | false => exact absurd (kind_conditional hCurrency hFfa) h

theorem Coherent.item (h : Coherent loot) {kind : EntryKind} {player i : Nat} (hListed : loot.ListedFor kind player i) :
    ∃ item, loot.item? kind.isQuest i = some item ∧ item.kind kind.isQuest = kind ∧
      (kind ≠ .quest → item.special = true) := by
  obtain ⟨other, hOther, hSuits⟩ := h.filed.suits kind player i hListed
  obtain ⟨item, hItem, rfl⟩ := Option.map_eq_some_iff.mp hOther
  refine ⟨item, hItem, ?_⟩
  rw [Suits] at hSuits
  split at hSuits
  · rename_i hKind
    subst hKind
    obtain ⟨hFfa, hConditions, -⟩ : item.freeforall = false ∧ item.conditions ≠ [] ∧ _ := hSuits
    have hCurrency := h.conditional player i item hListed hItem
    refine ⟨kind_conditional hCurrency hFfa, fun _ => ?_⟩
    rw [LootItem.special, List.isEmpty_eq_false_iff.mpr hConditions, Bool.not_false, Bool.or_true]
  · rename_i hKind
    refine ⟨hSuits, fun hQuest => special_of_kind ?_⟩
    have hFalse : kind.isQuest = false := decide_eq_false hQuest
    rw [hFalse] at hSuits
    change item.kind false = kind at hSuits
    rwa [hSuits]

theorem Filed.entry_unique (h : Filed loot) {kind : EntryKind} {player : Nat} {first second : NotNormalLootItem}
    (hFirst : first ∈ loot.entries kind player) (hSecond : second ∈ loot.entries kind player)
    (hIndex : first.index = second.index) : first = second := by
  have hNodup : ((loot.entries kind player).map NotNormalLootItem.index).Nodup :=
    (inOrder_iff.mp (h.order kind player)).imp ne_of_lt
  exact List.inj_on_of_nodup_map hNodup hFirst hSecond hIndex

/-! ## Slots that are found -/

theorem lootItemInSlot_below {slot player : Nat} {item : LootItem} (hItem : loot.item? false slot = some item) :
    loot.lootItemInSlot slot player =
      if loot.isLootedFor player item (loot.entryInSlot player slot item) then none
      else some ⟨false, slot, item, loot.entryInSlot player slot item⟩ := by
  have hLt : slot < loot.items.length := (List.getElem?_eq_some_iff.mp hItem).1
  have hAt : loot.items[slot]? = some item := hItem
  rw [Loot.lootItemInSlot, if_neg (Nat.not_le.mpr hLt), hAt, Option.bind_some]

theorem lootItemInSlot_above {player i : Nat} {entry : NotNormalLootItem} {item : LootItem}
    (hEntry : (loot.entries .quest player)[i]? = some entry) (hItem : loot.item? true entry.index = some item) :
    loot.lootItemInSlot (loot.items.length + i) player =
      if entry.isLooted then none else some ⟨true, entry.index, item, some i⟩ := by
  have hAt : loot.questItems[entry.index]? = some item := hItem
  rw [Loot.lootItemInSlot, if_pos (Nat.le_add_right ..), Nat.add_sub_cancel_left, hEntry, Option.bind_some, hAt,
    Option.bind_some]

theorem entryInSlot_ordinary {slot player : Nat} {item : LootItem} (h : item.special = false) :
    loot.entryInSlot player slot item = none := by
  rw [Loot.entryInSlot]
  exact if_neg (Bool.eq_false_iff.mp h)

theorem isLootedFor_entry (h : Filed loot) {player : Nat} {item : LootItem} {entry : NotNormalLootItem}
    (hMem : entry ∈ loot.entries (item.kind false) player) (hSpecial : item.special = true) :
    loot.isLootedFor player item (loot.entryInSlot player entry.index item) = entry.isLooted := by
  obtain ⟨position, hPosition⟩ := Option.isSome_iff_exists.mp
    (isSome_entryInSlot ⟨entry, hMem, rfl⟩ hSpecial : (loot.entryInSlot player entry.index item).isSome = true)
  obtain ⟨met, hMet, hIndex⟩ := entryInSlot_some hPosition
  obtain rfl := h.entry_unique (List.mem_of_getElem? hMet) hMem hIndex
  rw [Loot.isLootedFor, hPosition, Option.bind_some, hMet]

theorem isLootedFor_none {player slot : Nat} {item : LootItem} (h : loot.entryInSlot player slot item = none) :
    loot.isLootedFor player item (loot.entryInSlot player slot item) = item.isLooted := by
  rw [Loot.isLootedFor, h, Option.bind_none]

/-! ## Every slot once -/

theorem ordinaryData_some {i : Nat} {data : LootItemData} (h : ordinaryData loot viewer permission i = some data) :
    ∃ item uiType, loot.item? false i = some item ∧ item.isLooted = false ∧ item.special = false ∧
      viewer.allowed item = true ∧ data = slotData i item uiType := by
  rw [ordinaryData] at h
  obtain ⟨item, hFilter, hType⟩ := Option.bind_eq_some_iff.mp h
  obtain ⟨uiType, -, rfl⟩ := Option.map_eq_some_iff.mp hType
  obtain ⟨hAt, hOrdinary⟩ := Option.filter_eq_some_iff.mp hFilter
  simp only [Bool.and_eq_true, Bool.not_eq_true'] at hOrdinary
  obtain ⟨⟨⟨⟨hUnlooted, hCurrency⟩, hFfa⟩, hConditions⟩, hAllowed⟩ := hOrdinary
  refine ⟨item, uiType, hAt, hUnlooted, ?_, hAllowed, rfl⟩
  rw [LootItem.special, hCurrency, hFfa, hConditions]
  rfl

theorem entryData_eq_some {quest : Bool} {slot : Nat} {entry : NotNormalLootItem} {uiType : LootItem → LootSlotType}
    {data : LootItemData} (h : entryData loot quest slot entry uiType = some data) :
    ∃ item, loot.item? quest entry.index = some item ∧ entry.isLooted = false ∧ item.isLooted = false ∧
      data = slotData slot item (uiType item) := by
  rw [entryData] at h
  obtain ⟨item, hItem, rfl⟩ := Option.map_eq_some_iff.mp h
  obtain ⟨hAt, hShown⟩ := Option.filter_eq_some_iff.mp hItem
  rw [Bool.and_eq_true, Bool.not_eq_true', Bool.not_eq_true'] at hShown
  exact ⟨item, hAt, hShown.1, hShown.2, rfl⟩

theorem entryData_unlooted {quest : Bool} {slot : Nat} {entry : NotNormalLootItem} {item : LootItem}
    (uiType : LootItem → LootSlotType) (hItem : loot.item? quest entry.index = some item)
    (hEntry : entry.isLooted = false) (hUnlooted : item.isLooted = false) :
    entryData loot quest slot entry uiType = some (slotData slot item (uiType item)) := by
  rw [entryData, hItem, Option.filter_some, hEntry, hUnlooted]
  rfl

theorem item?_above {i : Nat} (h : loot.items.length ≤ i) : loot.item? false i = none := List.getElem?_eq_none h

theorem partAt_of_mem (h : Coherent loot) {p : Part} {data : LootItemData}
    (hMem : data ∈ part loot viewer permission p) : partAt loot data.slot = p := by
  rw [partAt]
  cases p with
  | ordinary =>
    obtain ⟨i, -, hData⟩ := List.mem_filterMap.mp hMem
    obtain ⟨item, uiType, hItem, -, hSpecial, -, rfl⟩ := ordinaryData_some hData
    simp only [slotData, hItem]
    exact if_neg (Bool.eq_false_iff.mp hSpecial)
  | entries kind =>
    rcases eq_or_ne kind .quest with rfl | hKind
    · obtain ⟨i, entry, -, hData⟩ := mem_part_quest.mp hMem
      obtain ⟨item, -, -, -, rfl⟩ := entryData_eq_some hData
      simp only [slotData, item?_above (Nat.le_add_right loot.items.length i)]
    · obtain ⟨entry, hEntry, hData⟩ := (mem_part_entries hKind).mp hMem
      obtain ⟨item, hItem, -, -, rfl⟩ := entryData_eq_some hData
      obtain ⟨other, hOther, hSame, hSpecial⟩ := h.item ⟨entry, hEntry, rfl⟩
      have hFalse : kind.isQuest = false := decide_eq_false hKind
      rw [hFalse] at hOther hSame
      obtain rfl := Option.some.inj (hItem.symm.trans hOther)
      simp only [slotData, hItem, if_pos (hSpecial hKind), hSame]

theorem nodup_filterMap_of_key {α β κ : Type*} {f : α → Option β} (key : α → κ) {slot : β → κ} {l : List α}
    (hNodup : (l.map key).Nodup) (hKey : ∀ a b, f a = some b → slot b = key a) :
    ((l.filterMap f).map slot).Nodup := by
  induction l with
  | nil => exact List.nodup_nil
  | cons a l ih =>
    obtain ⟨hNew, hRest⟩ := List.nodup_cons.mp hNodup
    rw [List.filterMap_cons]
    split
    · exact ih hRest
    · rename_i b hHead
      refine List.nodup_cons.mpr ⟨fun hMem => hNew ?_, ih hRest⟩
      obtain ⟨c, hFiltered, hSame⟩ := List.mem_map.mp hMem
      obtain ⟨other, hOther, hLater⟩ := List.mem_filterMap.mp hFiltered
      rw [← hKey a b hHead, ← hSame, hKey other c hLater]
      exact List.mem_map_of_mem hOther

theorem part_nodup (h : Filed loot) (p : Part) :
    ((part loot viewer permission p).map LootItemData.slot).Nodup := by
  have hEntries : ∀ kind, ((loot.entries kind viewer.guid).map NotNormalLootItem.index).Nodup := fun kind =>
    (inOrder_iff.mp (h.order kind viewer.guid)).imp ne_of_lt
  have hKind : ∀ kind, (((loot.entries kind viewer.guid).filterMap fun entry =>
      entryData loot false entry.index entry (typeIn permission kind)).map LootItemData.slot).Nodup := fun kind => by
    refine nodup_filterMap_of_key NotNormalLootItem.index (hEntries kind) fun entry data hData => ?_
    exact (entryData_some hData).1
  cases p with
  | ordinary =>
    refine nodup_filterMap_of_key id ?_ fun i data hData => ?_
    · rw [List.map_id]
      exact List.nodup_range
    · obtain ⟨item, uiType, -, -, -, -, rfl⟩ := ordinaryData_some hData
      rfl
  | entries kind =>
    cases kind with
    | quest =>
      refine nodup_filterMap_of_key (fun p : NotNormalLootItem × Nat => loot.items.length + p.2) ?_
        fun p data hData => (entryData_some hData).1
      have hPositions : ((loot.entries .quest viewer.guid).zipIdx.map Prod.snd).Nodup := by
        rw [List.zipIdx_map_snd]
        exact List.nodup_range'
      rw [← Function.comp_def (fun i => loot.items.length + i) Prod.snd, ← List.map_map]
      exact hPositions.map fun _ _ hSame => Nat.add_left_cancel hSame
    | currency => exact hKind .currency
    | ffa => exact hKind .ffa
    | conditional => exact hKind .conditional

theorem buildLootResponse_nodup (h : Coherent loot) (hPermission : permission ≠ .none) :
    ((buildLootResponse loot viewer permission).map LootItemData.slot).Nodup := by
  rw [buildLootResponse_eq hPermission, List.map_flatMap, List.nodup_flatMap]
  refine ⟨fun p _ => part_nodup h.filed p, ?_⟩
  have hParts : parts.Nodup := by decide
  refine hParts.imp fun {p q} hNe slot hFirst hSecond => hNe ?_
  obtain ⟨first, hInFirst, rfl⟩ := List.mem_map.mp hFirst
  obtain ⟨second, hInSecond, hSame⟩ := List.mem_map.mp hSecond
  rw [← partAt_of_mem h hInFirst, ← partAt_of_mem h hInSecond, hSame]

/-! ## What is shown is what is found -/

theorem lt_of_item {i : Nat} {item : LootItem} (h : loot.item? false i = some item) : i < loot.items.length :=
  (List.getElem?_eq_some_iff.mp h).1

theorem takeable_some {slot : Nat} {found : Found} (hFound : loot.lootItemInSlot slot viewer.guid = some found)
    (hAllowed : viewer.allowed found.item = true) : takeable loot viewer slot = some found :=
  Option.filter_eq_some_iff.mpr ⟨hFound, hAllowed⟩

theorem takeable_of_part (h : Coherent loot) (hSight : Sight loot viewer) {p : Part} {data : LootItemData}
    (hMem : data ∈ part loot viewer permission p) : data.slot < 256 ∧ ∃ found,
      takeable loot viewer data.slot = some found ∧ data.itemid = found.item.itemid ∧
        data.quantity = found.item.count := by
  cases p with
  | ordinary =>
    obtain ⟨i, hRange, hData⟩ := List.mem_filterMap.mp hMem
    obtain ⟨item, uiType, hItem, hUnlooted, hSpecial, hAllowed, rfl⟩ := ordinaryData_some hData
    refine ⟨lt_of_lt_of_le (List.mem_range.mp hRange) (Nat.min_le_right ..), ⟨false, i, item, none⟩, ?_, rfl, rfl⟩
    refine takeable_some ?_ hAllowed
    have hNone : loot.entryInSlot viewer.guid i item = none := entryInSlot_ordinary hSpecial
    simp only [slotData]
    rw [lootItemInSlot_below hItem, isLootedFor_none hNone, hUnlooted, hNone, if_neg Bool.false_ne_true]
  | entries kind =>
    rcases eq_or_ne kind .quest with rfl | hKind
    · obtain ⟨i, entry, hEntry, hData⟩ := mem_part_quest.mp hMem
      obtain ⟨item, hItem, hUnlooted, hLeft, rfl⟩ := entryData_eq_some hData
      have hShort := hSight.short .quest (List.ne_nil_of_mem (List.mem_of_getElem? hEntry))
      have hLt := (List.getElem?_eq_some_iff.mp hEntry).1
      refine ⟨?_, ⟨true, entry.index, item, some i⟩, takeable_some ?_ ?_, rfl, rfl⟩
      · simp only [slotData]
        omega
      · simp only [slotData]
        rw [lootItemInSlot_above hEntry hItem, hUnlooted, if_neg Bool.false_ne_true]
      · exact hSight.allowed .quest entry.index item ⟨entry, List.mem_of_getElem? hEntry, rfl⟩ hItem hLeft
    · obtain ⟨entry, hEntry, hData⟩ := (mem_part_entries hKind).mp hMem
      obtain ⟨item, hItem, hUnlooted, hLeft, rfl⟩ := entryData_eq_some hData
      have hListed : loot.ListedFor kind viewer.guid entry.index := ⟨entry, hEntry, rfl⟩
      obtain ⟨other, hOther, hSame, hSpecial⟩ := h.item hListed
      have hFalse : kind.isQuest = false := decide_eq_false hKind
      have hAllowed := hSight.allowed kind entry.index
      rw [hFalse] at hOther hSame hAllowed
      obtain rfl := Option.some.inj (hItem.symm.trans hOther)
      have hShort := hSight.short kind (List.ne_nil_of_mem hEntry)
      have hLt := lt_of_item hItem
      refine ⟨?_, ⟨false, entry.index, item, loot.entryInSlot viewer.guid entry.index item⟩,
        takeable_some ?_ (hAllowed item hListed hItem hLeft), rfl, rfl⟩
      · simp only [slotData]
        omega
      · simp only [slotData]
        rw [lootItemInSlot_below hItem, isLootedFor_entry h.filed (hSame.symm ▸ hEntry) (hSpecial hKind), hUnlooted,
          if_neg Bool.false_ne_true]

theorem part_of_ordinary (hPermission : permission = .all ∨ permission = .owner) {slot : Nat} (hSlot : slot < 256)
    {item : LootItem} (hItem : loot.item? false slot = some item) (hUnlooted : item.isLooted = false)
    (hSpecial : item.special = false) (hAllowed : viewer.allowed item = true) :
    ∃ data ∈ part loot viewer permission .ordinary, data.slot = slot := by
  have hType : ∃ uiType, ordinaryType loot viewer permission item = some uiType := by
    rcases hPermission with rfl | rfl
    · exact ⟨.allowLoot, rfl⟩
    · exact ⟨.owner, rfl⟩
  obtain ⟨uiType, hType⟩ := hType
  refine ⟨slotData slot item uiType, List.mem_filterMap.mpr ⟨slot, ?_, ?_⟩, rfl⟩
  · exact List.mem_range.mpr (Nat.lt_min.mpr ⟨lt_of_item hItem, hSlot⟩)
  · have hAt : loot.items[slot]? = some item := hItem
    rw [LootItem.special, Bool.or_eq_false_iff, Bool.or_eq_false_iff, Bool.not_eq_false'] at hSpecial
    obtain ⟨⟨hCurrency, hFfa⟩, hConditions⟩ := hSpecial
    rw [ordinaryData, hAt, Option.filter_some, hUnlooted, hCurrency, hFfa, hConditions, hAllowed]
    simp [hType]

theorem Coherent.part_of_entry (h : Coherent loot) {entry : NotNormalLootItem} {item : LootItem}
    (hItem : loot.item? false entry.index = some item) (hMem : entry ∈ loot.entries (item.kind false) viewer.guid)
    (hUnlooted : entry.isLooted = false) :
    ∃ data ∈ part loot viewer permission (.entries (item.kind false)), data.slot = entry.index := by
  have hKind : item.kind false ≠ .quest := fun hQuest => Bool.false_ne_true ((item.kind_quest_iff false).mp hQuest)
  have hStanding := h.standing _ _ _ ⟨entry, hMem, rfl, hUnlooted⟩
  rw [item.isQuest_kind, loot.looted_iff hItem, Bool.not_eq_true] at hStanding
  exact ⟨_, (mem_part_entries hKind).mpr ⟨entry, hMem, entryData_unlooted _ hItem hUnlooted hStanding⟩, rfl⟩

theorem Coherent.part_of_quest (h : Coherent loot) {i : Nat} {entry : NotNormalLootItem} {item : LootItem}
    (hEntry : (loot.entries .quest viewer.guid)[i]? = some entry) (hItem : loot.item? true entry.index = some item)
    (hUnlooted : entry.isLooted = false) :
    ∃ data ∈ part loot viewer permission (.entries .quest), data.slot = loot.items.length + i := by
  have hStanding : ¬ loot.Looted true entry.index :=
    h.standing .quest _ _ ⟨entry, List.mem_of_getElem? hEntry, rfl, hUnlooted⟩
  rw [loot.looted_iff hItem, Bool.not_eq_true] at hStanding
  exact ⟨_, mem_part_quest.mpr ⟨i, entry, hEntry, entryData_unlooted _ hItem hUnlooted hStanding⟩, rfl⟩

theorem part_of_takeable (h : Coherent loot) (hSight : Sight loot viewer)
    (hPermission : permission = .all ∨ permission = .owner) {slot : Nat} (hSlot : slot < 256) {found : Found}
    (hTakes : takeable loot viewer slot = some found) :
    ∃ p, ∃ data ∈ part loot viewer permission p, data.slot = slot := by
  obtain ⟨hFound, hAllowed⟩ := Option.filter_eq_some_iff.mp hTakes
  rcases Nat.lt_or_ge slot loot.items.length with hLt | hGe
  · obtain ⟨item, hItem⟩ : ∃ item, loot.item? false slot = some item := ⟨_, List.getElem?_eq_getElem hLt⟩
    obtain rfl := found_below hItem hFound
    rw [lootItemInSlot_below hItem] at hFound
    split at hFound
    · cases hFound
    rename_i hUnlooted
    rw [Bool.not_eq_true] at hUnlooted
    cases hSpecial : item.special with
    | false =>
      rw [isLootedFor_none (entryInSlot_ordinary hSpecial)] at hUnlooted
      exact ⟨.ordinary, part_of_ordinary hPermission hSlot hItem hUnlooted hSpecial hAllowed⟩
    | true =>
      have hListed : loot.ListedFor (item.kind false) viewer.guid slot := by
        cases hEntry : loot.entryInSlot viewer.guid slot item with
        | none =>
          rw [isLootedFor_none hEntry] at hUnlooted
          exact hSight.complete slot item hItem hSpecial hUnlooted hAllowed
        | some position =>
          obtain ⟨entry, hAt, hIndex⟩ := entryInSlot_some hEntry
          exact ⟨entry, List.mem_of_getElem? hAt, hIndex⟩
      obtain ⟨entry, hMem, rfl⟩ := hListed
      rw [isLootedFor_entry h.filed hMem hSpecial] at hUnlooted
      exact ⟨_, h.part_of_entry hItem hMem hUnlooted⟩
  · obtain ⟨i, rfl⟩ := Nat.exists_eq_add_of_le hGe
    have hSearch := hFound
    rw [Loot.lootItemInSlot, if_pos hGe, Nat.add_sub_cancel_left] at hSearch
    obtain ⟨entry, hEntry, hRest⟩ := Option.bind_eq_some_iff.mp hSearch
    obtain ⟨item, hItem, -⟩ := Option.bind_eq_some_iff.mp hRest
    rw [lootItemInSlot_above hEntry hItem] at hFound
    split at hFound
    · cases hFound
    rename_i hUnlooted
    exact ⟨_, h.part_of_quest hEntry hItem ((Bool.not_eq_true _).mp hUnlooted)⟩

theorem Coherent.shownAsTaken (h : Coherent loot) (hSight : Sight loot viewer)
    (hPermission : permission = .all ∨ permission = .owner) {slot : Nat} (hSlot : slot < 256) :
    ShownAsTaken loot viewer permission slot := by
  have hSome : permission ≠ .none := by
    rcases hPermission with rfl | rfl <;> decide
  have hShown : ∀ data, data ∈ shownAt loot viewer permission slot ↔
      data ∈ buildLootResponse loot viewer permission ∧ data.slot = slot := fun data => by
    rw [shownAt, List.mem_filter, decide_eq_true_iff, LootItemData.lootListID]
    refine and_congr_right fun hMem => ?_
    obtain ⟨p, hPart⟩ := (mem_buildLootResponse hSome).mp hMem
    have hLt := (takeable_of_part h hSight hPart).1
    omega
  have hOnce : (shownAt loot viewer permission slot).length ≤ 1 := by
    have hNodup : ((buildLootResponse loot viewer permission).map LootItemData.slot).Nodup :=
      buildLootResponse_nodup h hSome
    have hSlots : ((shownAt loot viewer permission slot).map LootItemData.slot).Nodup :=
      hNodup.sublist (List.filter_sublist.map _)
    rcases hList : shownAt loot viewer permission slot with _ | ⟨first, _ | ⟨second, rest⟩⟩
    · exact Nat.zero_le 1
    · exact le_rfl
    · have hFirst := (hShown first).mp (hList ▸ List.mem_cons_self)
      have hSecond := (hShown second).mp (hList ▸ List.mem_cons_of_mem _ List.mem_cons_self)
      rw [hList, List.map_cons, List.map_cons, hFirst.2, hSecond.2] at hSlots
      exact absurd List.mem_cons_self (List.nodup_cons.mp hSlots).1
  constructor
  · constructor
    · intro hLength
      obtain ⟨data, hData⟩ := List.exists_mem_of_length_pos (hLength ▸ Nat.one_pos)
      obtain ⟨hMem, rfl⟩ := (hShown data).mp hData
      obtain ⟨p, hPart⟩ := (mem_buildLootResponse hSome).mp hMem
      obtain ⟨-, found, hTakes, -⟩ := takeable_of_part h hSight hPart
      rw [hTakes]
      rfl
    · intro hTakes
      obtain ⟨found, hFound⟩ := Option.isSome_iff_exists.mp hTakes
      obtain ⟨p, data, hPart, hAt⟩ := part_of_takeable h hSight hPermission hSlot hFound
      have hPos := List.length_pos_of_mem ((hShown data).mpr ⟨(mem_buildLootResponse hSome).mpr ⟨p, hPart⟩, hAt⟩)
      omega
  · intro found hTakes data hData
    obtain ⟨hMem, rfl⟩ := (hShown data).mp hData
    obtain ⟨p, hPart⟩ := (mem_buildLootResponse hSome).mp hMem
    obtain ⟨-, other, hOther, hSame⟩ := takeable_of_part h hSight hPart
    obtain rfl := Option.some.inj (hTakes.symm.trans hOther)
    exact hSame

end AshamaneCore.Looting
