import AshamaneCore.Game.LootFill

/-!
# Visits of a loot

Each of the four fills keeps the flags in step with the entries. The counter is
exact after a visit when every quest item that is counted is seen for the first
time and no currency is counted as a conditional item.
-/

namespace AshamaneCore.Looting

open Library

variable {loot : Loot} {m : Member} {excess : Nat}

def QuestsCountedOnce (group : Option LootGroup) (loot : Loot) (m : Member) : Prop :=
  ∀ i ∈ questSlots loot m group, ∀ item, loot.item? true i = some item → item.freeforall = false →
    item.isBlocked = false → ¬ ∃ p, loot.ListedFor .quest p i

def ConditionalsCounted (loot : Loot) (m : Member) : Prop :=
  ∀ i ∈ conditionalSlots loot m, ∀ item, loot.item? false i = some item → item.isCounted = false →
    item.currency = false

/-! ## Single fills -/

section

variable {kind : EntryKind} {guid : Nat} {slots : List Nat} {next : Loot}

theorem Lists.listedFor_other (h : Lists kind guid slots loot next) {k : EntryKind} (hKind : k ≠ kind) (p i : Nat) :
    next.ListedFor k p i ↔ loot.ListedFor k p i := by
  rw [h.listedFor]
  exact or_iff_left fun hSame => hKind hSame.1

theorem Lists.listedFor_same (h : Lists kind guid slots loot next) (i : Nat) :
    (∃ p, next.ListedFor kind p i) ↔ (∃ p, loot.ListedFor kind p i) ∨ i ∈ slots := by
  constructor
  · rintro ⟨p, hListed⟩
    rcases (h.listedFor _ _ _).mp hListed with hOld | ⟨-, -, hSlot⟩
    · exact Or.inl ⟨p, hOld⟩
    · exact Or.inr hSlot
  · rintro (⟨p, hOld⟩ | hSlot)
    · exact ⟨p, (h.listedFor _ _ _).mpr (Or.inl hOld)⟩
    · exact ⟨guid, (h.listedFor _ _ _).mpr (Or.inr ⟨rfl, rfl, hSlot⟩)⟩

theorem Filling.lists (hFilling : Filling loot) (h : Lists kind guid slots loot next)
    (hItems : next.item? = loot.item?) (hQuest : .quest ≠ kind) (hConditional : .conditional ≠ kind)
    (hFiled : Filed next) : Filling next := by
  refine ⟨hFiled, fun i item hItem hBlocked => ?_, fun i item hItem => ?_⟩
  · simp only [h.listedFor_other hQuest]
    exact hFilling.blocked i item (hItems ▸ hItem) hBlocked
  · simp only [h.listedFor_other hConditional]
    exact hFilling.counted i item (hItems ▸ hItem)

theorem Lists.ticketed_fresh (h : Lists kind guid slots loot next) (hTickets : Ticketed loot excess)
    (hFresh : ∀ i ∈ slots, Fresh loot kind guid i)
    (hCounter : next.unlootedCount = loot.unlootedCount + slots.length) : Ticketed next excess := by
  rw [← List.countP_true] at hCounter
  obtain ⟨more, hNext, hZero⟩ := h.ticketed hTickets (fun _ _ _ => rfl) hCounter
  rwa [hZero.mpr fun i hSlot _ => hFresh i hSlot] at hNext

end

variable {i : Nat}

theorem currencySlots_item (h : i ∈ currencySlots loot m) :
    ∃ item, loot.item? false i = some item ∧ item.currency = true := by
  obtain ⟨item, hItem, hGood⟩ := mem_indices h
  simp only [Bool.and_eq_true] at hGood
  exact ⟨item, hItem, hGood.1.2⟩

theorem fillCurrencyLoot_filling (h : Filling loot) (hTickets : Ticketed loot excess)
    (hEmpty : loot.entries .currency m.guid = []) :
    Filling (fillCurrencyLoot loot m) ∧ Ticketed (fillCurrencyLoot loot m) excess := by
  have hLists : Lists .currency m.guid (currencySlots loot m) loot (fillCurrencyLoot loot m) :=
    lists_fillCurrencyLoot hEmpty
  refine ⟨h.lists hLists rfl (by decide) (by decide) (hLists.filed h.filed fun i hSlot other hOther => ?_),
    hLists.ticketed_fresh hTickets (fun i hSlot => ?_) rfl⟩
  · obtain ⟨item, hItem, hCurrency⟩ := currencySlots_item hSlot
    obtain rfl := Option.some.inj ((loot.static?_eq_some hItem).symm.trans hOther)
    exact (kind_currency_iff item).mpr hCurrency
  · obtain ⟨item, hItem, hCurrency⟩ := currencySlots_item hSlot
    refine fresh_personal hItem ((kind_currency_iff item).mpr hCurrency) ?_ (hLists.none_before i)
    exact (congrArg _ hCurrency).trans (Bool.or_true _)

theorem ffaSlots_item (h : Filed loot) (hSlot : i ∈ ffaSlots loot m) :
    ∃ item, loot.item? false i = some item ∧ item.freeforall = true ∧ item.kind false = .ffa := by
  obtain ⟨item, hItem, hGood⟩ := mem_indices hSlot
  simp only [Bool.and_eq_true] at hGood
  refine ⟨item, hItem, hGood.1.2, ?_⟩
  have hSingle := h.single false i item.static (loot.static?_eq_some hItem)
  rw [LootItem.kind, if_neg Bool.false_ne_true, if_neg, if_pos hGood.1.2]
  intro hCurrency
  exact Bool.false_ne_true ((hSingle hCurrency).symm.trans hGood.1.2)

theorem fillFFALoot_filling (h : Filling loot) (hTickets : Ticketed loot excess)
    (hEmpty : loot.entries .ffa m.guid = []) :
    Filling (fillFFALoot loot m) ∧ Ticketed (fillFFALoot loot m) excess := by
  have hLists : Lists .ffa m.guid (ffaSlots loot m) loot (fillFFALoot loot m) := lists_fillFFALoot hEmpty
  refine ⟨h.lists hLists rfl (by decide) (by decide) (hLists.filed h.filed fun i hSlot other hOther => ?_),
    hLists.ticketed_fresh hTickets (fun i hSlot => ?_) rfl⟩
  · obtain ⟨item, hItem, -, hKind⟩ := ffaSlots_item h.filed hSlot
    obtain rfl := Option.some.inj ((loot.static?_eq_some hItem).symm.trans hOther)
    exact hKind
  · obtain ⟨item, hItem, hFfa, hKind⟩ := ffaSlots_item h.filed hSlot
    refine fresh_personal hItem hKind ?_ (hLists.none_before i)
    rw [LootItem.personal, hFfa, Bool.true_or]

/-! ## Quest items -/

theorem questSlots_item {group : Option LootGroup} (h : i ∈ questSlots loot m group) :
    ∃ item, loot.item? true i = some item := by
  obtain ⟨item, hItem, -⟩ := mem_indices ((questSlots_sublist ..).subset h)
  exact ⟨item, hItem⟩

theorem personal_quest (item : LootItem) : item.personal true = item.freeforall := Bool.or_false _

theorem kind_quest (item : LootItem) : item.kind true = .quest := rfl

variable {item : LootItem}

theorem countsQuestItem_iff (hItem : loot.item? true i = some item) :
    countsQuestItem loot i = true ↔ item.freeforall = true ∨ item.isBlocked = false := by
  rw [countsQuestItem, hItem, Option.any_some, Bool.or_eq_true, Bool.not_eq_true']

variable {guid : Nat}

theorem fresh_quest_iff (hItem : loot.item? true i = some item)
    (hNone : ¬ loot.ListedFor .quest guid i) :
    Fresh loot .quest guid i ↔ item.freeforall = true ∨ ¬ ∃ p, loot.ListedFor .quest p i := by
  cases hFfa : item.freeforall with
  | true =>
    refine iff_of_true ?_ (Or.inl rfl)
    exact fresh_personal hItem (kind_quest item) ((personal_quest item).trans hFfa) hNone
  | false =>
    have hShared : item.personal EntryKind.quest.isQuest = false := (personal_quest item).trans hFfa
    rw [fresh_shared_iff hItem hShared rfl]
    simp [kind_quest, EntryKind.isQuest]

theorem fillQuestLoot_filling (group : Option LootGroup) (h : Filling loot) (hTickets : Ticketed loot excess)
    (hEmpty : loot.entries .quest m.guid = []) :
    Filling (fillQuestLoot loot m group) ∧ ∃ more, Ticketed (fillQuestLoot loot m group) (excess + more) ∧
      (more = 0 ↔ QuestsCountedOnce group loot m) := by
  have hLists : Lists .quest m.guid (questSlots loot m group) loot (fillQuestLoot loot m group) :=
    lists_fillQuestLoot group hEmpty
  have hItems : ∀ q i, (fillQuestLoot loot m group).item? q i =
      if q = true then (loot.item? q i).map (blockQuestItem group (questSlots loot m group) i) else loot.item? q i :=
    fun q i => (loot.setEntries .quest m.guid _).item?_mapItems true _ q i
  have hFresh : ∀ i ∈ questSlots loot m group, Fresh loot .quest m.guid i → countsQuestItem loot i = true := by
    intro i hSlot hFresh
    obtain ⟨item, hItem⟩ := questSlots_item hSlot
    rw [countsQuestItem_iff hItem]
    refine ((fresh_quest_iff hItem (hLists.none_before i)).mp hFresh).imp_right fun hUnseen => ?_
    rw [← Bool.not_eq_true]
    exact fun hBlocked => hUnseen (h.blocked i item hItem hBlocked)
  obtain ⟨more, hNext, hZero⟩ := hLists.ticketed hTickets hFresh rfl
  refine ⟨⟨hLists.filed h.filed fun i _ item _ => kind_quest item, fun i item hItem hBlocked => ?_,
    fun i item hItem => ?_⟩, more, hNext, hZero.trans ?_⟩
  · rw [hLists.listedFor_same]
    rw [hItems, if_pos rfl] at hItem
    obtain ⟨old, hOld, rfl⟩ := Option.map_eq_some_iff.mp hItem
    rw [blockQuestItem] at hBlocked
    split at hBlocked
    · rename_i hListed
      rw [Bool.and_eq_true] at hListed
      exact Or.inr (List.contains_iff_mem.mp hListed.2)
    · exact Or.inl (h.blocked i old hOld hBlocked)
  · simp only [hLists.listedFor_other (show EntryKind.conditional ≠ .quest by decide)]
    rw [hItems, if_neg Bool.false_ne_true] at hItem
    exact h.counted i item hItem
  · refine forall₂_congr fun i hSlot => ?_
    obtain ⟨item, hItem⟩ := questSlots_item hSlot
    rw [countsQuestItem_iff hItem, fresh_quest_iff hItem (hLists.none_before i)]
    constructor
    · intro hOnce other hOther hFfa hBlocked
      obtain rfl := Option.some.inj (hItem.symm.trans hOther)
      exact (hOnce (Or.inr hBlocked)).resolve_left (Bool.eq_false_iff.mp hFfa)
    · intro hOnce hCounts
      cases hFfa : item.freeforall with
      | true => exact Or.inl rfl
      | false =>
        exact Or.inr (hOnce item hItem hFfa (hCounts.resolve_left (Bool.eq_false_iff.mp hFfa)))

/-! ## Conditional items -/

theorem conditionalSlots_item (h : i ∈ conditionalSlots loot m) :
    ∃ item, loot.item? false i = some item ∧ item.freeforall = false ∧ item.conditions ≠ [] := by
  obtain ⟨hShared, hConditions⟩ := List.mem_filter.mp h
  obtain ⟨item, hItem, hGood⟩ := mem_indices hShared
  rw [hItem, Option.any_some] at hConditions
  simp only [Bool.and_eq_true, Bool.not_eq_true'] at hGood
  exact ⟨item, hItem, hGood.1.2, by simpa using hConditions⟩

theorem fresh_conditional_iff (hItem : loot.item? false i = some item)
    (hFfa : item.freeforall = false) (hConditions : item.conditions ≠ []) :
    Fresh loot .conditional guid i ↔ item.currency = false ∧ ¬ ∃ p, loot.ListedFor .conditional p i := by
  cases hCurrency : item.currency with
  | true =>
    refine iff_of_false ?_ fun hFalse => absurd hFalse.1 (by decide)
    rintro ⟨other, hOther, hKind, -⟩
    obtain rfl := Option.some.inj ((loot.static?_eq_some hItem).symm.trans hOther)
    rw [LootItem.static_kind, show EntryKind.conditional.isQuest = false from rfl,
      (kind_currency_iff item).mpr hCurrency] at hKind
    cases hKind
  | false =>
    have hShared : item.personal EntryKind.conditional.isQuest = false := by
      rw [LootItem.personal, hFfa, hCurrency]
      rfl
    have hOrdinary : item.ordinary EntryKind.conditional.isQuest = false := by
      rw [LootItem.ordinary, List.isEmpty_eq_false_iff.mpr hConditions, Bool.and_false]
    rw [fresh_shared_iff hItem hShared hOrdinary]
    refine and_congr_left fun _ => iff_of_true ?_ rfl
    rw [show EntryKind.conditional.isQuest = false from rfl, LootItem.kind, if_neg Bool.false_ne_true, hCurrency,
      if_neg Bool.false_ne_true, hFfa, if_neg Bool.false_ne_true]

theorem countsConditional_iff (hItem : loot.item? false i = some item) :
    countsConditional loot i = true ↔ item.isCounted = false := by
  rw [countsConditional, hItem, Option.any_some, Bool.not_eq_true']

theorem flagConditional_isCounted (loot : Loot) (m : Member) (i : Nat) (item : LootItem) :
    (countConditional loot m i (allowLooter loot m i item)).isCounted = true ↔
      item.isCounted = true ∨ i ∈ conditionalSlots loot m := by
  have hLooter : (allowLooter loot m i item).isCounted = item.isCounted := by
    rw [allowLooter]
    split <;> rfl
  rw [countConditional]
  split
  · rename_i hSlot
    exact iff_of_true rfl (Or.inr (List.contains_iff_mem.mp hSlot))
  · rename_i hSlot
    rw [hLooter]
    exact (or_iff_left fun hMem => hSlot (List.contains_iff_mem.mpr hMem)).symm

theorem fillConditional_filling (h : Filling loot) (hTickets : Ticketed loot excess)
    (hEmpty : loot.entries .conditional m.guid = [])
    (hCurrencies : ∀ i ∈ conditionalSlots loot m, ∀ item, loot.item? false i = some item →
      item.currency = true → loot.ListedFor .currency m.guid i) :
    Filling (fillNonQuestNonFFAConditionalLoot loot m) ∧
      ∃ more, Ticketed (fillNonQuestNonFFAConditionalLoot loot m) (excess + more) ∧
        (more = 0 ↔ ConditionalsCounted loot m) := by
  have hLists : Lists .conditional m.guid (conditionalSlots loot m) loot (fillNonQuestNonFFAConditionalLoot loot m) :=
    lists_fillConditional hEmpty
  have hItems : ∀ q i, (fillNonQuestNonFFAConditionalLoot loot m).item? q i = if q = false then
      (loot.item? q i).map (fun item => countConditional loot m i (allowLooter loot m i item)) else loot.item? q i :=
    fun q i => (loot.setEntries .conditional m.guid _).item?_mapItems false _ q i
  have hFresh : ∀ i ∈ conditionalSlots loot m,
      Fresh loot .conditional m.guid i → countsConditional loot i = true := by
    intro i hSlot hFresh
    obtain ⟨item, hItem, hFfa, hConditions⟩ := conditionalSlots_item hSlot
    rw [countsConditional_iff hItem, ← Bool.not_eq_true, h.counted i item hItem]
    exact ((fresh_conditional_iff hItem hFfa hConditions).mp hFresh).2
  obtain ⟨more, hNext, hZero⟩ := hLists.ticketed hTickets hFresh rfl
  refine ⟨⟨hLists.filed h.filed fun i hSlot other hOther => ?_, fun i item hItem hBlocked => ?_,
    fun i item hItem => ?_⟩, more, hNext, hZero.trans ?_⟩
  · obtain ⟨item, hItem, hFfa, hConditions⟩ := conditionalSlots_item hSlot
    obtain rfl := Option.some.inj ((loot.static?_eq_some hItem).symm.trans hOther)
    exact ⟨hFfa, hConditions, hCurrencies i hSlot item hItem⟩
  · simp only [hLists.listedFor_other (show EntryKind.quest ≠ .conditional by decide)]
    rw [hItems, if_neg (by decide)] at hItem
    exact h.blocked i item hItem hBlocked
  · rw [hItems, if_pos rfl] at hItem
    obtain ⟨old, hOld, rfl⟩ := Option.map_eq_some_iff.mp hItem
    rw [hLists.listedFor_same, flagConditional_isCounted, h.counted i old hOld]
  · refine forall₂_congr fun i hSlot => ?_
    obtain ⟨item, hItem, hFfa, hConditions⟩ := conditionalSlots_item hSlot
    rw [countsConditional_iff hItem, fresh_conditional_iff hItem hFfa hConditions, ← h.counted i item hItem]
    constructor
    · intro hOnce other hOther hUncounted
      obtain rfl := Option.some.inj (hItem.symm.trans hOther)
      exact (hOnce hUncounted).1
    · intro hOnce hUncounted
      exact ⟨hOnce item hItem hUncounted, Bool.eq_false_iff.mp hUncounted⟩

/-! ## All four fills -/

/-- A visit counts nothing that was counted before, and no currency as a conditional item. -/
def CountedOnce (group : Option LootGroup) (loot : Loot) (m : Member) : Prop :=
  QuestsCountedOnce group loot m ∧ ConditionalsCounted loot m

def Unvisited (loot : Loot) (guid : Nat) : Prop := ∀ kind, loot.entries kind guid = []

variable {kind : EntryKind} {next : Loot}

theorem Lists.entries_other {slots : List Nat}
    (h : Lists kind guid slots loot next) {k : EntryKind} {p : Nat} (hOther : k ≠ kind ∨ p ≠ guid) :
    next.entries k p = loot.entries k p := by
  rw [h.entries, Loot.entries_setEntries]
  exact if_neg fun hSame => hOther.elim (fun hKind => hKind hSame.1) fun hGuid => hGuid hSame.2

theorem unlessFilled_empty (fill : Loot → Loot) (h : loot.entries kind m.guid = []) :
    unlessFilled loot m kind fill = fill loot := if_pos h

theorem currencySlots_of_conditional (h : i ∈ conditionalSlots loot m)
    (hItem : loot.item? false i = some item) (hCurrency : item.currency = true) : i ∈ currencySlots loot m := by
  obtain ⟨hShared, -⟩ := List.mem_filter.mp h
  obtain ⟨hRange, hGood⟩ := List.mem_filter.mp hShared
  rw [hItem, Option.any_some] at hGood
  simp only [Bool.and_eq_true] at hGood
  refine List.mem_filter.mpr ⟨hRange, ?_⟩
  rw [hItem, Option.any_some, hGood.1.1, hCurrency, hGood.2]
  rfl

theorem conditionalSlots_congr (h : next.items = loot.items) :
    conditionalSlots next m = conditionalSlots loot m := by
  simp only [conditionalSlots, sharedSlots, indices, Loot.size, Loot.item?, h, Bool.false_eq_true, if_false]

structure Grows (loot next : Loot) : Prop where
  listed : ∀ kind p i, loot.ListedFor kind p i → next.ListedFor kind p i
  history : next.history = loot.history

theorem Lists.grows {slots : List Nat}
    (h : Lists kind guid slots loot next) : Grows loot next :=
  ⟨fun _ _ _ hListed => (h.listedFor _ _ _).mpr (Or.inl hListed), h.history⟩

theorem Grows.trans {first second third : Loot} (h : Grows first second) (hNext : Grows second third) :
    Grows first third :=
  ⟨fun kind p i hListed => hNext.listed kind p i (h.listed kind p i hListed), hNext.history.trans h.history⟩

/-- The four fills of a visit, each with the slots that the loot before the visit shows. -/
structure FillSteps (group : Option LootGroup) (loot : Loot) (m : Member) : Prop where
  currency : Lists .currency m.guid (currencySlots loot m) loot (fillCurrencyLoot loot m)
  quest : Lists .quest m.guid (questSlots loot m group) (fillCurrencyLoot loot m)
    (fillQuestLoot (fillCurrencyLoot loot m) m group)
  ffa : Lists .ffa m.guid (ffaSlots loot m) (fillQuestLoot (fillCurrencyLoot loot m) m group)
    (fillFFALoot (fillQuestLoot (fillCurrencyLoot loot m) m group) m)
  conditional : Lists .conditional m.guid (conditionalSlots loot m)
    (fillFFALoot (fillQuestLoot (fillCurrencyLoot loot m) m group) m) (fillEntries loot m group)
  all : fillEntries loot m group = fillNonQuestNonFFAConditionalLoot
    (fillFFALoot (fillQuestLoot (fillCurrencyLoot loot m) m group) m) m

theorem fillSteps (group : Option LootGroup) (hNew : Unvisited loot m.guid) : FillSteps group loot m := by
  let currencies := fillCurrencyLoot loot m
  let quests := fillQuestLoot currencies m group
  let ffa := fillFFALoot quests m
  have hFirst : Lists .currency m.guid (currencySlots loot m) loot currencies := lists_fillCurrencyLoot (hNew _)
  have hNoQuests : currencies.entries .quest m.guid = [] := (hFirst.entries_other (Or.inl (by decide))).trans (hNew _)
  have hSecond : Lists .quest m.guid (questSlots currencies m group) currencies quests :=
    lists_fillQuestLoot group hNoQuests
  have hNoFfa : quests.entries .ffa m.guid = [] := (hSecond.entries_other (Or.inl (by decide))).trans
    ((hFirst.entries_other (Or.inl (by decide))).trans (hNew _))
  have hThird : Lists .ffa m.guid (ffaSlots quests m) quests ffa := lists_fillFFALoot hNoFfa
  have hNoConditional : ffa.entries .conditional m.guid = [] := (hThird.entries_other (Or.inl (by decide))).trans
    ((hSecond.entries_other (Or.inl (by decide))).trans ((hFirst.entries_other (Or.inl (by decide))).trans (hNew _)))
  have hFourth : Lists .conditional m.guid (conditionalSlots ffa m) ffa (fillNonQuestNonFFAConditionalLoot ffa m) :=
    lists_fillConditional hNoConditional
  have hItems : ffa.items = loot.items := rfl
  have hAll : fillEntries loot m group = fillNonQuestNonFFAConditionalLoot ffa m := by
    rw [fillEntries, unlessFilled_empty _ (hNew .currency), unlessFilled_empty _ hNoQuests,
      unlessFilled_empty _ hNoFfa, unlessFilled_empty _ hNoConditional]
  rw [conditionalSlots_congr hItems, ← hAll] at hFourth
  exact ⟨hFirst, hSecond, hThird, hFourth, hAll⟩

def memberSlots (group : Option LootGroup) (loot : Loot) (m : Member) : EntryKind → List Nat
  | .currency => currencySlots loot m
  | .quest => questSlots loot m group
  | .ffa => ffaSlots loot m
  | .conditional => conditionalSlots loot m

namespace FillSteps

variable {group : Option LootGroup}

theorem entries (h : FillSteps group loot m) (kind : EntryKind) :
    (fillEntries loot m group).entries kind m.guid = newEntries (memberSlots group loot m kind) := by
  have hSet : ∀ {k slots} {first next : Loot}, Lists k m.guid slots first next →
      next.entries k m.guid = newEntries slots := fun hLists => by
    rw [hLists.entries, Loot.entries_setEntries, if_pos ⟨rfl, rfl⟩]
  cases kind with
  | currency =>
    rw [h.conditional.entries_other (Or.inl (by decide)), h.ffa.entries_other (Or.inl (by decide)),
      h.quest.entries_other (Or.inl (by decide)), hSet h.currency, memberSlots]
  | quest =>
    rw [h.conditional.entries_other (Or.inl (by decide)), h.ffa.entries_other (Or.inl (by decide)),
      hSet h.quest, memberSlots]
  | ffa => rw [h.conditional.entries_other (Or.inl (by decide)), hSet h.ffa, memberSlots]
  | conditional => rw [hSet h.conditional, memberSlots]

theorem entries_other (h : FillSteps group loot m) (kind : EntryKind) {p : Nat} (hOther : p ≠ m.guid) :
    (fillEntries loot m group).entries kind p = loot.entries kind p := by
  rw [h.conditional.entries_other (Or.inr hOther), h.ffa.entries_other (Or.inr hOther),
    h.quest.entries_other (Or.inr hOther), h.currency.entries_other (Or.inr hOther)]

theorem static (h : FillSteps group loot m) : (fillEntries loot m group).static? = loot.static? :=
  h.conditional.static.trans (h.ffa.static.trans (h.quest.static.trans h.currency.static))

theorem looted (h : FillSteps group loot m) (quest : Bool) (i : Nat) :
    (fillEntries loot m group).Looted quest i ↔ loot.Looted quest i :=
  (h.conditional.looted quest i).trans ((h.ffa.looted quest i).trans
    ((h.quest.looted quest i).trans (h.currency.looted quest i)))

end FillSteps

theorem fillEntries_filling (group : Option LootGroup) (h : Filling loot) (hTickets : Ticketed loot excess)
    (hNew : Unvisited loot m.guid) :
    Filling (fillEntries loot m group) ∧ (∃ more, Ticketed (fillEntries loot m group) (excess + more) ∧
      (more = 0 ↔ CountedOnce group loot m)) ∧
      (∀ guid, guid ≠ m.guid → Unvisited loot guid → Unvisited (fillEntries loot m group) guid) ∧
      Grows loot (fillEntries loot m group) := by
  obtain ⟨hFirst, hSecond, hThird, hFourth, hAll⟩ := fillSteps group hNew
  let currencies := fillCurrencyLoot loot m
  let ffa := fillFFALoot (fillQuestLoot currencies m group) m
  have hItems : ffa.items = loot.items := rfl
  have hSlots : conditionalSlots ffa m = conditionalSlots loot m := conditionalSlots_congr hItems
  obtain ⟨hFilling, hTicketed⟩ := fillCurrencyLoot_filling h hTickets (hNew _)
  obtain ⟨hFilling, more, hTicketed, hZero⟩ := fillQuestLoot_filling group hFilling hTicketed hSecond.empty
  obtain ⟨hFilling, hTicketed⟩ := fillFFALoot_filling hFilling hTicketed hThird.empty
  have hCurrencies : ∀ i ∈ conditionalSlots ffa m, ∀ item, ffa.item? false i = some item →
      item.currency = true → ffa.ListedFor .currency m.guid i := fun i hSlot item hItem hCurrency => by
    rw [hThird.listedFor_other (by decide), hSecond.listedFor_other (by decide), hFirst.listedFor]
    exact Or.inr ⟨rfl, rfl, currencySlots_of_conditional (hSlots ▸ hSlot) hItem hCurrency⟩
  obtain ⟨hFilling, again, hTicketed, hAgain⟩ :=
    fillConditional_filling hFilling hTicketed hFourth.empty hCurrencies
  rw [← hAll] at hFilling hTicketed
  refine ⟨hFilling, ⟨more + again, by rwa [← Nat.add_assoc], ?_⟩, fun guid hNe hEmpty kind => ?_,
    hFirst.grows.trans (hSecond.grows.trans (hThird.grows.trans hFourth.grows))⟩
  · have hQuests : QuestsCountedOnce group currencies m ↔ QuestsCountedOnce group loot m := by
      simp only [QuestsCountedOnce, currencies, hFirst.listedFor_other (show EntryKind.quest ≠ .currency by decide)]
      exact Iff.rfl
    have hConditionals : ConditionalsCounted ffa m ↔ ConditionalsCounted loot m := by
      simp only [ConditionalsCounted, hSlots]
      exact Iff.rfl
    rw [Nat.add_eq_zero_iff, hZero, hAgain, hQuests, hConditionals, CountedOnce]
  · rw [(fillSteps group hNew).entries_other kind hNe]
    exact hEmpty kind

/-! ## Stores -/

def Entitled (loot : Loot) (request : StoreRequest) : Prop :=
  ∀ found, checkStore loot request = some found → found.take request.player ∈ loot.left

theorem checkStore_found {request : StoreRequest} {found : Found} (h : checkStore loot request = some found) :
    loot.lootItemInSlot request.slot request.player = some found := (Option.filter_eq_some_iff.mp h).1

theorem grant_flags {player : Nat} {found : Found} {quest : Bool}
    (h : (grant loot player found).item? quest i = some item) :
    ∃ old, loot.item? quest i = some old ∧ item.isBlocked = old.isBlocked ∧ item.isCounted = old.isCounted := by
  rw [grant_eq, item?_handOut] at h
  split at h
  · rw [Loot.markItem, Loot.item?_mapItems, markEntry_item?] at h
    split at h
    · obtain ⟨old, hOld, rfl⟩ := Option.map_eq_some_iff.mp h
      refine ⟨old, hOld, ?_⟩
      split <;> exact ⟨rfl, rfl⟩
    · exact ⟨item, h, rfl, rfl⟩
  · rw [markEntry_item?] at h
    exact ⟨item, h, rfl, rfl⟩

theorem Filling.grant (h : Filling loot) (player : Nat) (found : Found) : Filling (grant loot player found) := by
  refine ⟨grant_filed player found h.filed, fun i item hItem hBlocked => ?_, fun i item hItem => ?_⟩
  · obtain ⟨old, hOld, hSame, -⟩ := grant_flags hItem
    simp only [grant_listedFor]
    exact h.blocked i old hOld (hSame ▸ hBlocked)
  · obtain ⟨old, hOld, -, hSame⟩ := grant_flags hItem
    simp only [grant_listedFor]
    rw [hSame]
    exact h.counted i old hOld

theorem Unvisited.grant (h : Unvisited loot guid) (player : Nat) (found : Found) :
    Unvisited (grant loot player found) guid := by
  intro kind
  rw [grant_entries, Loot.markEntry]
  split
  · rw [Loot.entries_setEntries]
    split
    · rename_i hSame
      rw [← hSame.1, ← hSame.2, h kind, List.modify_nil]
    · exact h kind
  · exact h kind

theorem storeLootItem_ticketed {request : StoreRequest} (h : Filed loot) (hTickets : Ticketed loot excess)
    (hEntitled : Entitled loot request) :
    Filed (storeLootItem loot request) ∧ Ticketed (storeLootItem loot request) excess := by
  rw [storeLootItem]
  cases hCheck : checkStore loot request with
  | none => exact ⟨h, hTickets⟩
  | some found =>
    have hFound := checkStore_found hCheck
    have hLeft := hEntitled found hCheck
    exact ⟨grant_filed request.player found h,
      grant_ticketed h hTickets (lootItemInSlot_met hFound) (entry_of_personal hFound hLeft) hLeft⟩

end AshamaneCore.Looting
