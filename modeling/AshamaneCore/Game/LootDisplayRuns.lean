import AshamaneCore.Game.LootDisplay
import AshamaneCore.Game.LootRuns

/-!
# Shown in every run

The visits of the fill list for every player what he is allowed to take. After
that the display and the requests agree as long as an item that is given to one
player leaves no entries of others behind.
-/

namespace AshamaneCore.Looting

open Library Library.Transition

variable {loot : Loot}

/-! ## Items over time -/

/-- An item changes its kind never, and what it is only when it is looted. -/
structure Ages (old item : LootItem) : Prop where
  currency : item.currency = old.currency
  freeforall : item.freeforall = old.freeforall
  conditions : item.conditions = old.conditions
  unlooted : item.isLooted = false → old.isLooted = false ∧ item.static = old.static

namespace Ages

variable {old item : LootItem}

theorem kind (h : Ages old item) (quest : Bool) : item.kind quest = old.kind quest := by
  rw [LootItem.kind, LootItem.kind, h.currency, h.freeforall]

theorem special (h : Ages old item) : item.special = old.special := by
  rw [LootItem.special, LootItem.special, h.currency, h.freeforall, h.conditions]

theorem of_static (hStatic : item.static = old.static) (hLooted : old.isLooted = true → item.isLooted = true) :
    Ages old item := by
  have hCurrency : item.static.currency = old.static.currency := by rw [hStatic]
  have hFfa : item.static.freeforall = old.static.freeforall := by rw [hStatic]
  have hConditions : item.static.conditions = old.static.conditions := by rw [hStatic]
  refine ⟨hCurrency, hFfa, hConditions, fun hItem => ⟨?_, hStatic⟩⟩
  rw [← Bool.not_eq_true]
  exact fun hOld => Bool.false_ne_true (hItem.symm.trans (hLooted hOld))

end Ages

section

variable {next : Loot}

def Older (loot next : Loot) : Prop := ∀ quest i, Option.Rel Ages (loot.item? quest i) (next.item? quest i)

theorem Older.forward (h : Older loot next) {quest : Bool} {i : Nat} {old : LootItem}
    (hOld : loot.item? quest i = some old) : ∃ item, next.item? quest i = some item ∧ Ages old item := by
  have hAt := h quest i
  rw [hOld] at hAt
  cases hNext : next.item? quest i with
  | none => rw [hNext] at hAt; cases hAt
  | some item =>
    rw [hNext] at hAt
    cases hAt with
    | some hAges => exact ⟨item, rfl, hAges⟩

theorem Older.back (h : Older loot next) {quest : Bool} {i : Nat} {item : LootItem}
    (hItem : next.item? quest i = some item) : ∃ old, loot.item? quest i = some old ∧ Ages old item := by
  have hAt := h quest i
  rw [hItem] at hAt
  cases hOld : loot.item? quest i with
  | none => rw [hOld] at hAt; cases hAt
  | some old =>
    rw [hOld] at hAt
    cases hAt with
    | some hAges => exact ⟨old, rfl, hAges⟩

theorem Older.items_length (h : Older loot next) : next.items.length = loot.items.length := by
  have hNone : ∀ i, next.items.length ≤ i ↔ loot.items.length ≤ i := fun i => by
    rw [← List.getElem?_eq_none_iff, ← List.getElem?_eq_none_iff]
    have hAt := h false i
    change Option.Rel Ages loot.items[i]? next.items[i]? at hAt
    constructor
    · intro hNext
      rw [hNext] at hAt
      cases hOld : loot.items[i]? with
      | none => rfl
      | some old => rw [hOld] at hAt; cases hAt
    · intro hOld
      rw [hOld] at hAt
      cases hNext : next.items[i]? with
      | none => rfl
      | some item => rw [hNext] at hAt; cases hAt
  exact Nat.le_antisymm ((hNone _).mpr le_rfl) ((hNone _).mp le_rfl)

theorem older_of_static (hStatic : next.static? = loot.static?)
    (hLooted : ∀ quest i, loot.Looted quest i → next.Looted quest i) : Older loot next := by
  intro quest i
  have hAt := congrFun (congrFun hStatic quest) i
  rw [Loot.static?, Loot.static?] at hAt
  cases hOld : loot.item? quest i with
  | none =>
    rw [hOld, Option.map_none, Option.map_eq_none_iff] at hAt
    rw [hAt]
    exact .none
  | some old =>
    rw [hOld, Option.map_some] at hAt
    obtain ⟨item, hItem, hSame⟩ := Option.map_eq_some_iff.mp hAt
    rw [hItem]
    refine .some (Ages.of_static hSame fun hBefore => ?_)
    exact (next.looted_iff hItem).mp (hLooted quest i ((loot.looted_iff hOld).mpr hBefore))

theorem older_mapItems (loot : Loot) (quest : Bool) {f : Nat → LootItem → LootItem}
    (h : ∀ i item, Ages item (f i item)) : Older loot (loot.mapItems quest f) := by
  intro q i
  rw [Loot.item?_mapItems]
  cases hItem : loot.item? q i with
  | none => split <;> exact .none
  | some item =>
    split
    · exact .some (h i item)
    · exact .some (Ages.of_static rfl id)

def SameIndexes (loot next : Loot) (player : Nat) : Prop :=
  ∀ kind, (next.entries kind player).map NotNormalLootItem.index = (loot.entries kind player).map NotNormalLootItem.index

namespace SameIndexes

variable {player : Nat}

theorem of_entries (h : ∀ kind, next.entries kind player = loot.entries kind player) :
    SameIndexes loot next player := fun kind => by rw [h kind]

theorem listedFor (h : SameIndexes loot next player) (kind : EntryKind) (i : Nat) :
    next.ListedFor kind player i ↔ loot.ListedFor kind player i := by
  rw [Loot.ListedFor, Loot.ListedFor, listed_iff_mem, listed_iff_mem, h kind]

theorem length (h : SameIndexes loot next player) (kind : EntryKind) :
    (next.entries kind player).length = (loot.entries kind player).length := by
  have hLength := congrArg List.length (h kind)
  rwa [List.length_map, List.length_map] at hLength

theorem unvisited (h : SameIndexes loot next player) (hEmpty : Unvisited loot player) : Unvisited next player := by
  intro kind
  have hLength := h.length kind
  rw [hEmpty kind, List.length_nil] at hLength
  exact List.length_eq_zero_iff.mp hLength

end SameIndexes

theorem Coherent.step (h : Coherent loot) (hOlder : Older loot next) (hIndexes : ∀ player, SameIndexes loot next player)
    (hStanding : ∀ kind player i, next.LeftFor kind player i → ¬ next.Looted kind.isQuest i) : Coherent next := by
  refine ⟨⟨fun kind player => ?_, fun kind player i hListed => ?_, fun quest i item hItem hCurrency => ?_⟩,
    hStanding, fun player i item hListed hItem => ?_⟩
  · rw [inOrder_iff, hIndexes player kind]
    exact inOrder_iff.mp (h.filed.order kind player)
  · obtain ⟨other, hOther, hSuits⟩ := h.filed.suits kind player i (((hIndexes player).listedFor kind i).mp hListed)
    obtain ⟨old, hOld, rfl⟩ := Option.map_eq_some_iff.mp hOther
    obtain ⟨item, hItem, hAges⟩ := hOlder.forward hOld
    refine ⟨item.static, next.static?_eq_some hItem, ?_⟩
    rw [Suits] at hSuits ⊢
    split
    · rename_i hKind
      rw [if_pos hKind] at hSuits
      refine ⟨hAges.freeforall.trans hSuits.1, fun hEmpty => hSuits.2.1 (hAges.conditions.symm.trans hEmpty),
        fun hCurrency => ?_⟩
      rw [(hIndexes player).listedFor]
      exact hSuits.2.2 (hAges.currency.symm.trans hCurrency)
    · rename_i hKind
      rw [if_neg hKind, LootItem.static_kind] at hSuits
      rw [LootItem.static_kind, hAges.kind, hSuits]
  · obtain ⟨found, hFound, rfl⟩ := Option.map_eq_some_iff.mp hItem
    obtain ⟨old, hOld, hAges⟩ := hOlder.back hFound
    exact hAges.freeforall.trans (h.filed.single quest i old.static (loot.static?_eq_some hOld)
      (hAges.currency.symm.trans hCurrency))
  · obtain ⟨old, hOld, hAges⟩ := hOlder.back hItem
    exact hAges.currency.trans (h.conditional player i old (((hIndexes player).listedFor _ i).mp hListed) hOld)

/-! ## Visited players -/

/-- What the entries of a player who was visited say about the items that are not looted. -/
structure Served (loot : Loot) (m : Member) : Prop where
  allowed : ∀ kind i item, loot.ListedFor kind m.guid i → loot.item? kind.isQuest i = some item →
    item.isLooted = false → ∃ old, old.static = item.static ∧ m.allowed old = true
  complete : ∀ i item, loot.item? false i = some item → item.special = true → item.isLooted = false →
    loot.ListedFor (item.kind false) m.guid i ∨ ∃ old, old.static = item.static ∧ m.allowed old = false
  short : loot.items.length + (loot.entries .quest m.guid).length ≤ 256

theorem Served.step {m : Member} (h : Served loot m) (hOlder : Older loot next)
    (hIndexes : SameIndexes loot next m.guid) : Served next m := by
  refine ⟨fun kind i item hListed hItem hUnlooted => ?_, fun i item hItem hSpecial hUnlooted => ?_, ?_⟩
  · obtain ⟨old, hOld, hAges⟩ := hOlder.back hItem
    obtain ⟨hBefore, hStatic⟩ := hAges.unlooted hUnlooted
    rw [hStatic]
    exact h.allowed kind i old ((hIndexes.listedFor kind i).mp hListed) hOld hBefore
  · obtain ⟨old, hOld, hAges⟩ := hOlder.back hItem
    obtain ⟨hBefore, hStatic⟩ := hAges.unlooted hUnlooted
    rw [hStatic, hAges.kind, hIndexes.listedFor]
    exact h.complete i old hOld (hAges.special.symm.trans hSpecial) hBefore
  · rw [hOlder.items_length, hIndexes.length]
    exact h.short

/-- The players who were visited have their entries, and the others have none. -/
structure Between (done : List Member) (loot : Loot) : Prop where
  coherent : Coherent loot
  served : ∀ m ∈ done, Served loot m
  unvisited : ∀ guid, guid ∉ done.map Member.guid → Unvisited loot guid

theorem Between.step {done : List Member} (h : Between done loot) (hOlder : Older loot next)
    (hIndexes : ∀ player, SameIndexes loot next player)
    (hStanding : ∀ kind player i, next.LeftFor kind player i → ¬ next.Looted kind.isQuest i) : Between done next :=
  ⟨h.coherent.step hOlder hIndexes hStanding, fun m hMem => (h.served m hMem).step hOlder (hIndexes m.guid),
    fun guid hOther => (hIndexes guid).unvisited (h.unvisited guid hOther)⟩

end

/-! ## Visits -/

section

variable {group : Option LootGroup} {m : Member} {done : List Member} {w : World}

/-- A visit lists no currency as a conditional item and only quest items that are allowed, and its slots
are numbered by a byte. -/
structure ClearFill (group : Option LootGroup) (loot : Loot) (m : Member) : Prop where
  conditionals : ∀ i ∈ conditionalSlots loot m, ∀ item, loot.item? false i = some item → item.currency = false
  quests : ∀ i ∈ questSlots loot m group, ∀ item, loot.item? true i = some item → m.allowed item = true
  short : loot.items.length + (questSlots loot m group).length ≤ 256

variable {i : Nat}

theorem mem_indices_of {quest : Bool} {p : LootItem → Bool} {item : LootItem} (hLt : i < 256)
    (hItem : loot.item? quest i = some item) (hGood : p item = true) : i ∈ indices loot quest p := by
  have hSize : i < loot.size quest := by
    cases quest <;> exact (List.getElem?_eq_some_iff.mp hItem).1
  refine List.mem_filter.mpr ⟨List.mem_range.mpr (Nat.lt_min.mpr ⟨hSize, hLt⟩), ?_⟩
  rw [hItem, Option.any_some, hGood]

theorem memberSlots_item (hFiled : Filed loot) (hFill : ClearFill group loot m) {kind : EntryKind}
    (h : i ∈ memberSlots group loot m kind) : ∃ item, loot.item? kind.isQuest i = some item ∧
      item.isLooted = false ∧ item.kind kind.isQuest = kind ∧ m.allowed item = true ∧
        (kind = .conditional → item.freeforall = false ∧ item.conditions ≠ []) := by
  cases kind with
  | currency =>
    obtain ⟨item, hItem, hGood⟩ := mem_indices h
    simp only [Bool.and_eq_true, Bool.not_eq_true'] at hGood
    exact ⟨item, hItem, hGood.1.1, (kind_currency_iff item).mpr hGood.1.2, hGood.2, nofun⟩
  | quest =>
    obtain ⟨item, hItem, hGood⟩ := mem_indices ((questSlots_sublist ..).subset h)
    simp only [Bool.and_eq_true, Bool.not_eq_true'] at hGood
    exact ⟨item, hItem, hGood.1, kind_quest item, hFill.quests i h item hItem, nofun⟩
  | ffa =>
    obtain ⟨item, hItem, hGood⟩ := mem_indices h
    obtain ⟨other, hOther, -, hKind⟩ := ffaSlots_item hFiled h
    obtain rfl := Option.some.inj (hItem.symm.trans hOther)
    simp only [Bool.and_eq_true, Bool.not_eq_true'] at hGood
    exact ⟨item, hItem, hGood.1.1, hKind, hGood.2, nofun⟩
  | conditional =>
    obtain ⟨item, hItem, hGood⟩ := mem_indices (List.mem_filter.mp h).1
    obtain ⟨other, hOther, hFfa, hConditions⟩ := conditionalSlots_item h
    obtain rfl := Option.some.inj (hItem.symm.trans hOther)
    simp only [Bool.and_eq_true, Bool.not_eq_true'] at hGood
    exact ⟨item, hItem, hGood.1.1, kind_conditional (hFill.conditionals i h item hItem) hFfa, hGood.2,
      fun _ => ⟨hFfa, hConditions⟩⟩

theorem mem_memberSlots {item : LootItem} (hLt : i < 256) (hItem : loot.item? false i = some item)
    (hSpecial : item.special = true) (hUnlooted : item.isLooted = false) (hAllowed : m.allowed item = true) :
    i ∈ memberSlots group loot m (item.kind false) := by
  cases hCurrency : item.currency with
  | true =>
    rw [(kind_currency_iff item).mpr hCurrency]
    exact mem_indices_of hLt hItem (by rw [hUnlooted, hCurrency, hAllowed]; rfl)
  | false =>
    cases hFfa : item.freeforall with
    | true =>
      rw [kind_ffa hCurrency hFfa]
      exact mem_indices_of hLt hItem (by rw [hUnlooted, hFfa, hAllowed]; rfl)
    | false =>
      rw [LootItem.special, hCurrency, hFfa, Bool.false_or, Bool.false_or] at hSpecial
      rw [kind_conditional hCurrency hFfa]
      refine List.mem_filter.mpr ⟨mem_indices_of hLt hItem (by rw [hUnlooted, hFfa, hAllowed]; rfl), ?_⟩
      rw [hItem, Option.any_some, hSpecial]

theorem memberSlots_order (kind : EntryKind) : (memberSlots group loot m kind).Pairwise (· < ·) := by
  cases kind with
  | currency => exact indices_order ..
  | quest => exact (indices_order ..).sublist (questSlots_sublist ..)
  | ffa => exact indices_order ..
  | conditional => exact (indices_order ..).filter _

namespace FillSteps

theorem older (h : FillSteps group loot m) : Older loot (fillEntries loot m group) :=
  older_of_static h.static fun quest i => (h.looted quest i).mpr

theorem listedFor (h : FillSteps group loot m) (kind : EntryKind) (i : Nat) :
    (fillEntries loot m group).ListedFor kind m.guid i ↔ i ∈ memberSlots group loot m kind := by
  rw [Loot.ListedFor, h.entries, listed_newEntries]

theorem leftFor (h : FillSteps group loot m) (kind : EntryKind) (i : Nat) :
    (fillEntries loot m group).LeftFor kind m.guid i ↔ i ∈ memberSlots group loot m kind := by
  rw [Loot.LeftFor, h.entries, left_newEntries]

theorem listedFor_other (h : FillSteps group loot m) (kind : EntryKind) {p : Nat} (hOther : p ≠ m.guid) (i : Nat) :
    (fillEntries loot m group).ListedFor kind p i ↔ loot.ListedFor kind p i := by
  rw [Loot.ListedFor, h.entries_other kind hOther]
  exact Iff.rfl

theorem filed (h : FillSteps group loot m) (hFiled : Filed loot) (hFill : ClearFill group loot m) :
    Filed (fillEntries loot m group) := by
  refine ⟨fun kind p => ?_, fun kind p i hListed => ?_, fun quest i item hItem => ?_⟩
  · rcases eq_or_ne p m.guid with rfl | hOther
    · rw [h.entries, inOrder_iff, newEntries, List.map_map]
      exact (List.map_id' (memberSlots group loot m kind)).symm ▸ memberSlots_order kind
    · rw [h.entries_other kind hOther]
      exact hFiled.order kind p
  · rw [h.static]
    rcases eq_or_ne p m.guid with rfl | hOther
    · obtain ⟨item, hItem, -, hKind, -, hSpecial⟩ := memberSlots_item hFiled hFill ((h.listedFor kind i).mp hListed)
      refine ⟨item.static, loot.static?_eq_some hItem, ?_⟩
      rw [Suits]
      split
      · rename_i hConditional
        obtain ⟨hFfa, hConditions⟩ := hSpecial hConditional
        subst hConditional
        refine ⟨hFfa, hConditions, fun hCurrency => ?_⟩
        cases ((kind_currency_iff item).mpr hCurrency).symm.trans hKind
      · exact hKind
    · obtain ⟨item, hItem, hSuits⟩ := hFiled.suits kind p i ((h.listedFor_other kind hOther i).mp hListed)
      refine ⟨item, hItem, ?_⟩
      rwa [Suits, h.listedFor_other .currency hOther]
  · rw [h.static] at hItem
    exact hFiled.single quest i item hItem

theorem coherent (h : FillSteps group loot m) (hCoherent : Coherent loot) (hFill : ClearFill group loot m) :
    Coherent (fillEntries loot m group) := by
  refine ⟨h.filed hCoherent.filed hFill, fun kind p i hLeft => ?_, fun p i item hListed hItem => ?_⟩
  · rw [h.looted]
    rcases eq_or_ne p m.guid with rfl | hOther
    · obtain ⟨item, hItem, hUnlooted, -⟩ := memberSlots_item hCoherent.filed hFill ((h.leftFor kind i).mp hLeft)
      rw [loot.looted_iff hItem, hUnlooted]
      exact Bool.false_ne_true
    · rw [Loot.LeftFor, h.entries_other kind hOther] at hLeft
      exact hCoherent.standing kind p i hLeft
  · obtain ⟨old, hOld, hAges⟩ := h.older.back hItem
    rw [hAges.currency]
    rcases eq_or_ne p m.guid with rfl | hOther
    · exact hFill.conditionals i ((h.listedFor .conditional i).mp hListed) old hOld
    · exact hCoherent.conditional p i old ((h.listedFor_other .conditional hOther i).mp hListed) hOld

theorem served (h : FillSteps group loot m) (hFiled : Filed loot) (hFill : ClearFill group loot m) :
    Served (fillEntries loot m group) m := by
  refine ⟨fun kind i item hListed hItem hUnlooted => ?_, fun i item hItem hSpecial hUnlooted => ?_, ?_⟩
  · obtain ⟨old, hOld, hAges⟩ := h.older.back hItem
    obtain ⟨found, hFound, -, -, hAllowed, -⟩ := memberSlots_item hFiled hFill ((h.listedFor kind i).mp hListed)
    obtain rfl := Option.some.inj (hOld.symm.trans hFound)
    exact ⟨old, (hAges.unlooted hUnlooted).2.symm, hAllowed⟩
  · obtain ⟨old, hOld, hAges⟩ := h.older.back hItem
    obtain ⟨hBefore, hStatic⟩ := hAges.unlooted hUnlooted
    cases hAllowed : m.allowed old with
    | false => exact Or.inr ⟨old, hStatic.symm, hAllowed⟩
    | true =>
      have hShort := hFill.short
      have hLt := lt_of_item hOld
      rw [hAges.kind, h.listedFor]
      exact Or.inl (mem_memberSlots (by omega) hOld (hAges.special.symm.trans hSpecial) hBefore hAllowed)
  · rw [h.older.items_length, h.entries, newEntries, List.length_map]
    exact hFill.short

end FillSteps

theorem Between.fillEntries (h : Between done loot) (hNew : m.guid ∉ done.map Member.guid)
    (hFill : ClearFill group loot m) : Between (m :: done) (fillEntries loot m group) := by
  have hSteps := fillSteps group (h.unvisited m.guid hNew)
  refine ⟨hSteps.coherent h.coherent hFill, fun other hMem => ?_, fun guid hOther kind => ?_⟩
  · rcases List.mem_cons.mp hMem with rfl | hOld
    · exact hSteps.served h.coherent.filed hFill
    · have hNe : other.guid ≠ m.guid := fun hSame => hNew (hSame ▸ List.mem_map_of_mem hOld)
      exact (h.served other hOld).step hSteps.older (.of_entries fun kind => hSteps.entries_other kind hNe)
  · rw [List.map_cons, List.mem_cons, not_or] at hOther
    rw [hSteps.entries_other kind hOther.1]
    exact h.unvisited guid hOther.2 kind

end

/-! ## Requests -/

/-- Of an item that is taken for all, nobody else has an entry left. -/
def Undisputed (loot : Loot) (request : StoreRequest) : Prop :=
  ∀ found, checkStore loot request = some found → found.marksItem = true →
    ∀ p, p ≠ request.player → ¬ loot.LeftFor (found.item.kind found.quest) p found.index

section

variable {done : List Member} {w : World} {group : Option LootGroup}

theorem sameIndexes_grant (loot : Loot) (player : Nat) (found : Found) (p : Nat) :
    SameIndexes loot (grant loot player found) p := by
  intro kind
  rw [grant_entries, Loot.markEntry]
  split
  · rw [Loot.entries_setEntries]
    split
    · rename_i hSame
      rw [hSame.1, hSame.2]
      exact map_index_markAt ..
    · rfl
  · rfl

theorem Between.grant (h : Between done loot) {player slot : Nat} {found : Found}
    (hFound : loot.lootItemInSlot slot player = some found)
    (hOthers : found.marksItem = true → ∀ p, p ≠ player → ¬ loot.LeftFor (found.item.kind found.quest) p found.index) :
    Between done (grant loot player found) := by
  have hMet := lootItemInSlot_met hFound
  refine h.step (older_of_static (grant_static? loot player found) fun quest i hLooted => ?_)
    (sameIndexes_grant loot player found) fun kind p i hLeft hLooted => ?_
  · exact (grant_looted hMet quest i).mpr (Or.inl hLooted)
  · rw [Loot.LeftFor, grant_entries] at hLeft
    obtain ⟨hBefore, hNotMet⟩ := (leftFor_markEntry h.coherent.filed hMet kind p i).mp hLeft
    rcases (grant_looted hMet _ _).mp hLooted with hOld | ⟨hMarks, hQuest, rfl⟩
    · exact h.coherent.standing kind p i hBefore hOld
    · obtain ⟨item, hItem, hKind, hSpecial⟩ := h.coherent.item hBefore.listed
      rw [hQuest] at hItem hKind
      obtain rfl := Option.some.inj (hMet.item.symm.trans hItem)
      rw [← hKind] at hBefore hNotMet
      have hPlayer : p = player := by
        by_contra hOther
        exact hOthers hMarks p hOther hBefore
      subst hPlayer
      refine hNotMet ⟨entry_of_listed hFound hBefore.listed fun hBelow => hSpecial ?_, rfl, rfl, rfl⟩
      rintro rfl
      exact Bool.false_ne_true (hBelow.symm.trans hQuest.symm)

theorem Between.store (h : Between done loot) {request : StoreRequest} (hUndisputed : Undisputed loot request) :
    Between done (storeLootItem loot request) := by
  rw [storeLootItem]
  cases hCheck : checkStore loot request with
  | none => exact h
  | some found => exact h.grant (checkStore_found hCheck) (hUndisputed found hCheck)

/-- A visit that lists only what can be taken, and whose automatic stores leave no entry behind. -/
structure ClearVisit (w : World) (group : Option LootGroup) (loot : Loot) (m : Member) : Prop
    extends ClearFill group loot m where
  autoStores : AutoStores Undisputed w group loot m

theorem Between.visit {m : Member} (h : Between done loot) (hNew : m.guid ∉ done.map Member.guid)
    (hVisit : ClearVisit w group loot m) : Between (m :: done) (fillNotNormalLootFor w group loot m) := by
  refine invariant_along (fun l slot hBetween hRequest => ?_) (h.fillEntries hNew hVisit.toClearFill) hVisit.autoStores
  rw [autoStore]
  split
  · rename_i hToken
    exact hBetween.store (hRequest hToken)
  · exact hBetween

theorem Between.visits (members : List Member) (hDistinct : ((members.map Member.guid) ++ done.map Member.guid).Nodup)
    (h : Between done loot) (hVisits : Along (fillNotNormalLootFor w group) (ClearVisit w group) loot members) :
    Between (members.reverse ++ done) (run (fillNotNormalLootFor w group) loot members) := by
  induction members generalizing loot done with
  | nil => exact h
  | cons m members ih =>
    obtain ⟨hNew, hRest⟩ := List.nodup_cons.mp hDistinct
    have hFirst : m.guid ∉ done.map Member.guid := fun hMem => hNew (List.mem_append_right _ hMem)
    have hPlaces : (members.map Member.guid ++ (m :: done).map Member.guid).Nodup := List.nodup_middle.mpr hDistinct
    have hNext := ih hPlaces (h.visit hFirst hVisits.1) hVisits.2
    rw [List.reverse_cons, List.append_assoc]
    exact hNext

theorem Generated.between (h : Generated loot) : Between [] loot where
  coherent := ⟨h.filling.filed, fun kind p i hLeft => absurd hLeft.listed (h.not_listed kind p i),
    fun p i _ hListed => absurd hListed (h.not_listed .conditional p i)⟩
  served _ hMem := (List.not_mem_nil hMem).elim
  unvisited guid _ := h.unvisited guid

theorem Between.mapItems (h : Between done loot) (quest : Bool) {f : Nat → LootItem → LootItem}
    (hStatic : ∀ i item, (f i item).static = item.static) (hLooted : ∀ i item, (f i item).isLooted = item.isLooted) :
    Between done (loot.mapItems quest f) := by
  have hSame : ∀ q i, (loot.mapItems quest f).Looted q i ↔ loot.Looted q i :=
    exists_mapItems loot quest fun i item => by rw [hLooted]
  refine h.step (older_of_static (loot.static?_mapItems quest hStatic) fun q i => (hSame q i).mpr)
    (fun p => .of_entries fun kind => by rw [Loot.entries_mapItems]) fun kind p i hLeft => ?_
  rw [Loot.LeftFor, Loot.entries_mapItems] at hLeft
  rw [hSame]
  exact h.coherent.standing kind p i hLeft

theorem Between.markThreshold (h : Between done loot) : Between done (markThreshold w group loot) := by
  cases group with
  | none => exact h
  | some g =>
    refine h.mapItems false (fun i item => ?_) fun i item => ?_
    · split <;> rfl
    · split <;> rfl

theorem fillLoot_between {gold : Nat} {content : List Drop} {owner : Member} {personal : Bool}
    (hVisits : Along (fillNotNormalLootFor w group) (ClearVisit w group)
      (processed w group gold content owner personal) (looters group owner personal))
    (hFill : fillLoot w group gold content owner personal = some loot) :
    Between (looters group owner personal).reverse loot := by
  have hDistinct : ((looters group owner personal).map Member.guid ++ ([] : List Member).map Member.guid).Nodup := by
    rw [List.map_nil, List.append_nil]
    exact looters_distinct owner personal
  have hBetween := (processed_generated w group gold content owner personal).between.visits _ hDistinct hVisits
  rw [List.append_nil] at hBetween
  obtain ⟨filled, hAll, rfl⟩ := Option.map_eq_some_iff.mp hFill
  obtain rfl := fillAll_eq hAll
  split
  · exact hBetween
  · exact hBetween.markThreshold

end

/-! ## Everything that happens to a filled loot -/

inductive LootEvent
  | operation (operation : Operation)
  | unblock (quest : Bool) (index : Nat)
  /-- A roll or the master looter gives an item away; the master looter leaves nothing of its count. -/
  | award (quest : Bool) (index : Nat) (emptied : Bool)
  | takeGold
  | passTurn

def awardItem (index : Nat) (emptied : Bool) (i : Nat) (item : LootItem) : LootItem :=
  if i = index then { item with isLooted := true, count := if emptied then 0 else item.count } else item

def after (loot : Loot) : LootEvent → Loot
  | .operation operation => next loot operation
  | .unblock quest index =>
    loot.mapItems quest fun i item => if i = index then { item with isBlocked := false } else item
  | .award quest index emptied =>
    { loot.mapItems quest (awardItem index emptied) with unlootedCount := decrement loot.unlootedCount }
  | .takeGold => { loot with gold := 0 }
  | .passTurn => { loot with roundRobinPlayer := 0 }

def Settled (loot : Loot) : LootEvent → Prop
  | .operation operation => Requests Undisputed loot operation
  | .award quest index _ => ∀ item, loot.item? quest index = some item →
      ∀ p, ¬ loot.LeftFor (item.kind quest) p index
  | _ => True

section

variable {done : List Member}

theorem awardItem_ages (index : Nat) (emptied : Bool) (i : Nat) (item : LootItem) :
    Ages item (awardItem index emptied i item) := by
  rw [awardItem]
  split
  · exact ⟨rfl, rfl, rfl, nofun⟩
  · exact Ages.of_static rfl id

theorem Between.award (h : Between done loot) {quest : Bool} {index : Nat} (emptied : Bool)
    (hSettled : ∀ item, loot.item? quest index = some item → ∀ p, ¬ loot.LeftFor (item.kind quest) p index) :
    Between done (after loot (.award quest index emptied)) := by
  have hOlder : Older loot (after loot (.award quest index emptied)) :=
    older_mapItems loot quest (awardItem_ages index emptied)
  have hEntries : (after loot (.award quest index emptied)).entries = loot.entries := Loot.entries_mapItems ..
  refine h.step hOlder (fun p => .of_entries fun kind => by rw [hEntries]) fun kind p i hLeft hLooted => ?_
  rw [Loot.LeftFor, hEntries] at hLeft
  have hBefore : ¬ loot.Looted kind.isQuest i := h.coherent.standing kind p i hLeft
  obtain ⟨item, hItem, hKind, -⟩ := h.coherent.item hLeft.listed
  rw [loot.looted_iff hItem] at hBefore
  obtain ⟨given, hGiven, hFlag⟩ := hLooted
  have hAt : (loot.mapItems quest (awardItem index emptied)).item? kind.isQuest i = some given := hGiven
  rw [Loot.item?_mapItems, hItem] at hAt
  split at hAt
  · rename_i hQuest
    obtain rfl := Option.some.inj hAt
    rw [awardItem] at hFlag
    split at hFlag
    · rename_i hIndex
      subst hIndex hQuest
      rw [← hKind] at hLeft
      exact hSettled item hItem p hLeft
    · exact hBefore hFlag
  · exact hBefore (Option.some.inj hAt ▸ hFlag)

theorem Between.after (h : Between done loot) {event : LootEvent} (hSettled : Settled loot event) :
    Between done (after loot event) := by
  cases event with
  | operation operation =>
    cases operation with
    | store request => exact h.store hSettled
    | block quest index =>
      refine h.mapItems quest (fun i item => ?_) fun i item => ?_
      · split <;> rfl
      · split <;> rfl
  | unblock quest index =>
    refine h.mapItems quest (fun i item => ?_) fun i item => ?_
    · split <;> rfl
    · split <;> rfl
  | award quest index emptied => exact h.award emptied hSettled
  | takeGold =>
    exact h.step (older_of_static rfl fun _ _ => id) (fun p => .of_entries fun _ => rfl) h.coherent.standing
  | passTurn =>
    exact h.step (older_of_static rfl fun _ _ => id) (fun p => .of_entries fun _ => rfl) h.coherent.standing

end

/-! ## What is shown can be taken -/

/-- A viewer for whom the loot was filled is allowed what he was allowed then; any other viewer is allowed
for nothing that needs an entry. -/
def Steady (members : List Member) (loot : Loot) (viewer : Viewer) : Prop :=
  (∃ m ∈ members, viewer.guid = m.guid ∧
    ∀ item old, old.static = item.static → viewer.allowed item = m.allowed old) ∨
  viewer.guid ∉ members.map Member.guid ∧
    ∀ i item, loot.item? false i = some item → item.special = true → item.isLooted = false →
      viewer.allowed item = false

variable {viewer : Viewer}

theorem Served.sight {m : Member} (h : Served loot m) (hGuid : viewer.guid = m.guid)
    (hAllowed : ∀ item old, old.static = item.static → viewer.allowed item = m.allowed old) : Sight loot viewer := by
  refine ⟨fun kind i item hListed hItem hUnlooted => ?_, fun i item hItem hSpecial hUnlooted hViewer => ?_,
    fun _ _ => ?_⟩
  · obtain ⟨old, hStatic, hMember⟩ := h.allowed kind i item (hGuid ▸ hListed) hItem hUnlooted
    exact (hAllowed item old hStatic).trans hMember
  · rw [hGuid]
    refine (h.complete i item hItem hSpecial hUnlooted).resolve_right ?_
    rintro ⟨old, hStatic, hRefused⟩
    rw [hAllowed item old hStatic, hRefused] at hViewer
    exact Bool.false_ne_true hViewer
  · rw [hGuid]
    exact h.short

theorem Unvisited.sight (h : Unvisited loot viewer.guid)
    (hRefused : ∀ i item, loot.item? false i = some item → item.special = true → item.isLooted = false →
      viewer.allowed item = false) : Sight loot viewer := by
  refine ⟨fun kind i item hListed => ?_, fun i item hItem hSpecial hUnlooted hViewer => ?_, fun kind hSome => ?_⟩
  · rw [Loot.ListedFor, h kind] at hListed
    obtain ⟨entry, hMem, -⟩ := hListed
    exact (List.not_mem_nil hMem).elim
  · rw [hRefused i item hItem hSpecial hUnlooted] at hViewer
    cases hViewer
  · exact absurd (h kind) hSome

theorem Between.sight {members : List Member} (h : Between members.reverse loot)
    (hViewer : Steady members loot viewer) : Sight loot viewer := by
  rcases hViewer with ⟨m, hMem, hGuid, hAllowed⟩ | ⟨hOther, hRefused⟩
  · exact (h.served m (List.mem_reverse.mpr hMem)).sight hGuid hAllowed
  · refine (h.unvisited viewer.guid ?_).sight hRefused
    rwa [List.map_reverse, List.mem_reverse]

/-- While visits list what can be taken and nothing that is given away leaves an entry behind, every viewer
is shown in every slot what he can take there. -/
theorem shown_as_taken (w : World) (group : Option LootGroup) (gold : Nat) (content : List Drop) (owner : Member)
    (personal : Bool) {loot : Loot} (hFill : fillLoot w group gold content owner personal = some loot)
    (hVisits : Along (fillNotNormalLootFor w group) (ClearVisit w group)
      (processed w group gold content owner personal) (looters group owner personal))
    (events : List LootEvent) (hSettled : Along after Settled loot events) (viewer : Viewer)
    (hViewer : Steady (looters group owner personal) (run after loot events) viewer) (permission : PermissionTypes)
    (hPermission : permission = .all ∨ permission = .owner) (slot : Fin 256) :
    ShownAsTaken (run after loot events) viewer permission slot := by
  have hBetween : Between (looters group owner personal).reverse (run after loot events) :=
    invariant_along (fun _ _ h hEvent => h.after hEvent) (fillLoot_between hVisits hFill) hSettled
  exact hBetween.coherent.shownAsTaken (hBetween.sight hViewer) hPermission slot.isLt

theorem clearFill_nil {group : Option LootGroup} {loot : Loot} {m : Member}
    (hConditional : conditionalSlots loot m = []) (hQuest : questSlots loot m group = [])
    (hShort : loot.items.length ≤ 256) : ClearFill group loot m := by
  refine ⟨fun i hSlot => ?_, fun i hSlot => ?_, ?_⟩
  · exact (List.not_mem_nil (hConditional ▸ hSlot)).elim
  · exact (List.not_mem_nil (hQuest ▸ hSlot)).elim
  · rw [hQuest]
    exact hShort

def onlooker (guid : Nat) : Viewer := ⟨guid, fun _ => true, false⟩

theorem sword_shown : ShownAsTaken (run after (swordLoot .freeForAll false []) [.operation (take 1)]) (onlooker 2)
    .all (0 : Fin 256) := by
  have hFill := swordFill_eq (show (swordFill .freeForAll false []).isSome = true by decide +kernel)
  have hVisits : Along (fillNotNormalLootFor swordWorld (some (party .freeForAll)))
      (ClearVisit swordWorld (some (party .freeForAll)))
      (processed swordWorld (some (party .freeForAll)) 0 [sword false []] (looter 1) false)
      (looters (some (party .freeForAll)) (looter 1) false) :=
    ⟨⟨clearFill_nil (by decide +kernel) (by decide +kernel) (by decide +kernel), trivial⟩,
      ⟨clearFill_nil (by decide +kernel) (by decide +kernel) (by decide +kernel), trivial⟩, trivial⟩
  have hSettled : Along after Settled (swordLoot .freeForAll false []) [.operation (take 1)] := by
    refine ⟨fun found hCheck _ p _ hLeft => ?_, trivial⟩
    obtain ⟨item, hItem, -, hSpecial⟩ := (fillLoot_between hVisits hFill).coherent.item hLeft.listed
    let sword : LootItem := ⟨1, 1, [], false, false, false, false, [], false, false, true, false⟩
    have hFound : checkStore (swordLoot .freeForAll false []) ⟨1, 0, true, true⟩ = some ⟨false, 0, sword, none⟩ := by
      decide +kernel
    obtain rfl := Option.some.inj (hFound.symm.trans hCheck)
    have hSword : (swordLoot .freeForAll false []).item? false 0 = some sword := by decide +kernel
    obtain rfl := Option.some.inj (hSword.symm.trans hItem)
    exact Bool.false_ne_true (hSpecial (by decide))
  have hMember : looter 2 ∈ looters (some (party .freeForAll)) (looter 1) false :=
    List.mem_cons_of_mem _ List.mem_cons_self
  exact shown_as_taken _ _ _ _ _ _ hFill hVisits _ hSettled _ (Or.inl ⟨looter 2, hMember, rfl, fun _ _ _ => rfl⟩) _
    (Or.inl rfl) 0

/-- A player's entry of a conditional item that somebody else took is found and not shown. -/
theorem taken_item_found :
    swordFill .freeForAll false [5] = some (swordLoot .freeForAll false [5]) ∧
      Steady (looters (some (party .freeForAll)) (looter 1) false)
        (run after (swordLoot .freeForAll false [5]) [.operation (take 1)]) (onlooker 2) ∧
      ¬ ShownAsTaken (run after (swordLoot .freeForAll false [5]) [.operation (take 1)]) (onlooker 2) .all
        (0 : Fin 256) := by
  refine ⟨swordFill_eq (by decide +kernel), Or.inl ?_, fun hShown => ?_⟩
  · exact ⟨looter 2, List.mem_cons_of_mem _ List.mem_cons_self, rfl, fun _ _ _ => rfl⟩
  · have hNone : (shownAt (run after (swordLoot .freeForAll false [5]) [.operation (take 1)]) (onlooker 2) .all
        (0 : Fin 256)).length = 0 := by decide +kernel
    have hOne := hShown.once.mpr (by decide +kernel)
    rw [hNone] at hOne
    exact Nat.zero_ne_one hOne

end AshamaneCore.Looting
