import AshamaneCore.Game.LootGrants

/-!
# Filling a loot

The entries that a player gets offer new tickets, and the counter counts every
new ticket. It counts more for a quest item that is not blocked although it was
shown before, and for a currency with conditions.
-/

namespace AshamaneCore.Looting

open Library

variable {loot : Loot}

/-! ## New entries -/

def Fresh (loot : Loot) (kind : EntryKind) (guid slot : Nat) : Prop :=
  ∃ item, loot.static? kind.isQuest slot = some item ∧ item.kind kind.isQuest = kind ∧
    item.takeOf guid kind.isQuest slot ∉ loot.offered

/-- A player without entries of a kind gets some; the items change in flags that do not matter. -/
structure Lists (kind : EntryKind) (guid : Nat) (slots : List Nat) (loot next : Loot) : Prop where
  static : next.static? = loot.static?
  looted : ∀ quest index, next.Looted quest index ↔ loot.Looted quest index
  entries : next.entries = (loot.setEntries kind guid (newEntries slots)).entries
  history : next.history = loot.history
  empty : loot.entries kind guid = []
  order : slots.Pairwise (· < ·)
  slots : ∀ i ∈ slots, ∃ item, loot.item? kind.isQuest i = some item ∧ item.isLooted = false

section

variable {next : Loot} {kind : EntryKind} {guid : Nat} {slots : List Nat}

theorem Lists.none_before (h : Lists kind guid slots loot next) (index : Nat) : ¬ loot.ListedFor kind guid index := by
  rw [Loot.ListedFor, h.empty]
  rintro ⟨entry, hMem, -⟩
  exact List.not_mem_nil hMem

theorem Lists.listedFor (h : Lists kind guid slots loot next) (k : EntryKind) (p index : Nat) :
    next.ListedFor k p index ↔ loot.ListedFor k p index ∨ k = kind ∧ p = guid ∧ index ∈ slots := by
  rw [Loot.ListedFor, h.entries, Loot.entries_setEntries, Loot.ListedFor]
  split
  · rename_i hSame
    obtain ⟨rfl, rfl⟩ := hSame
    have hNone := h.none_before index
    rw [Loot.ListedFor] at hNone
    simp [listed_newEntries, hNone]
  · rename_i hOther
    refine ⟨Or.inl, ?_⟩
    rintro (hListed | ⟨hKind, hPlayer, -⟩)
    · exact hListed
    · exact absurd ⟨hKind, hPlayer⟩ hOther

theorem Lists.leftFor (h : Lists kind guid slots loot next) (k : EntryKind) (p index : Nat) :
    next.LeftFor k p index ↔ loot.LeftFor k p index ∨ k = kind ∧ p = guid ∧ index ∈ slots := by
  rw [Loot.LeftFor, h.entries, Loot.entries_setEntries, Loot.LeftFor]
  split
  · rename_i hSame
    obtain ⟨rfl, rfl⟩ := hSame
    have hNone : ¬ Left (loot.entries k p) index := fun hLeft => h.none_before index hLeft.listed
    simp [left_newEntries, hNone]
  · rename_i hOther
    refine ⟨Or.inl, ?_⟩
    rintro (hLeft | ⟨hKind, hPlayer, -⟩)
    · exact hLeft
    · exact absurd ⟨hKind, hPlayer⟩ hOther

theorem Lists.order_next (h : Lists kind guid slots loot next) (hFiled : Filed loot) (k : EntryKind) (p : Nat) :
    InOrder (next.entries k p) := by
  rw [h.entries, Loot.entries_setEntries]
  split
  · rw [inOrder_iff, newEntries, List.map_map]
    exact (List.map_id' slots).symm ▸ h.order
  · exact hFiled.order k p

def newTakes (loot : Loot) (kind : EntryKind) (guid : Nat) (slots : List Nat) : Set Take :=
  { t | ∃ i ∈ slots, ∃ item, loot.static? kind.isQuest i = some item ∧ item.kind kind.isQuest = kind ∧
    item.takeOf guid kind.isQuest i ∉ loot.offered ∧ t = item.takeOf guid kind.isQuest i }

theorem Lists.offered (h : Lists kind guid slots loot next) :
    next.offered = loot.offered ∪ newTakes loot kind guid slots := by
  ext ⟨taker, quest, index⟩
  rw [Set.mem_union]
  constructor
  · rintro ⟨item, hItem, hOffers⟩
    rw [h.static] at hItem
    by_contra hNew
    rw [not_or] at hNew
    obtain ⟨hOld, hNew⟩ := hNew
    have hFresh : item.kind quest = kind → index ∈ slots → item.takeOf guid quest index ≠ ⟨taker, quest, index⟩ := by
      rintro rfl hSlot hSame
      rw [newTakes, LootItem.isQuest_kind] at hNew
      exact hNew ⟨index, hSlot, item, hItem, rfl, hSame ▸ hOld, hSame.symm⟩
    cases taker with
    | some p =>
      obtain ⟨hPersonal, hListed⟩ := hOffers
      rcases (h.listedFor _ _ _).mp hListed with hBefore | ⟨hKind, rfl, hSlot⟩
      · exact hOld ⟨item, hItem, hPersonal, hBefore⟩
      · exact hFresh hKind hSlot (takeOf_personal hPersonal p index)
    | none =>
      obtain ⟨hShared, hOrdinary | ⟨p, hListed⟩⟩ := hOffers
      · exact hOld ⟨item, hItem, hShared, Or.inl hOrdinary⟩
      · rcases (h.listedFor _ _ _).mp hListed with hBefore | ⟨hKind, rfl, hSlot⟩
        · exact hOld ⟨item, hItem, hShared, Or.inr ⟨p, hBefore⟩⟩
        · exact hFresh hKind hSlot (takeOf_shared hShared p index)
  · rintro (⟨item, hItem, hOffers⟩ | ⟨i, hSlot, item, hItem, hKind, -, hTake⟩)
    · refine ⟨item, h.static ▸ hItem, ?_⟩
      cases taker with
      | some p => exact ⟨hOffers.1, (h.listedFor _ _ _).mpr (Or.inl hOffers.2)⟩
      | none => exact ⟨hOffers.1, hOffers.2.imp_right fun ⟨p, hListed⟩ => ⟨p, (h.listedFor _ _ _).mpr (Or.inl hListed)⟩⟩
    · rw [LootItem.takeOf, Take.mk.injEq] at hTake
      obtain ⟨hTaker, rfl, rfl⟩ := hTake
      have hListed : next.ListedFor (item.kind kind.isQuest) guid index := (h.listedFor _ _ _).mpr (Or.inr ⟨hKind, rfl, hSlot⟩)
      refine ⟨item, h.static ▸ hItem, ?_⟩
      split at hTaker
      · rename_i hPersonal
        obtain rfl := hTaker
        exact ⟨hPersonal, hListed⟩
      · rename_i hShared
        obtain rfl := hTaker
        exact ⟨Bool.not_eq_true _ ▸ hShared, Or.inr ⟨guid, hListed⟩⟩

theorem left_subset (loot : Loot) : loot.left ⊆ loot.offered := by
  rintro ⟨taker, quest, index⟩ ⟨item, hItem, hLeaves⟩
  refine ⟨item, hItem, ?_⟩
  cases taker with
  | some p => exact ⟨hLeaves.1, hLeaves.2.listed⟩
  | none => exact ⟨hLeaves.1, hLeaves.2.2⟩

theorem Lists.left_before (h : Lists kind guid slots loot next) {t : Take} (hLeft : t ∈ next.left)
    (hOffered : t ∈ loot.offered) : t ∈ loot.left := by
  obtain ⟨taker, quest, index⟩ := t
  obtain ⟨item, hItem, hLeaves⟩ := hLeft
  obtain ⟨other, hOther, hOffers⟩ := hOffered
  rw [h.static] at hItem
  obtain rfl := Option.some.inj (hOther.symm.trans hItem)
  refine ⟨other, hItem, ?_⟩
  cases taker with
  | some p =>
    refine ⟨hLeaves.1, ((h.leftFor _ _ _).mp hLeaves.2).resolve_right ?_⟩
    rintro ⟨hKind, rfl, -⟩
    exact h.none_before index (hKind ▸ hOffers.2)
  | none => exact ⟨hLeaves.1, fun hLooted => hLeaves.2.1 ((h.looted _ _).mpr hLooted), hOffers.2⟩

theorem Lists.left (h : Lists kind guid slots loot next) :
    next.left = loot.left ∪ newTakes loot kind guid slots := by
  ext t
  rw [Set.mem_union]
  constructor
  · intro hLeft
    have hOffered := left_subset next hLeft
    rw [h.offered] at hOffered
    exact hOffered.imp_left (h.left_before hLeft)
  · obtain ⟨taker, quest, index⟩ := t
    rintro (⟨item, hItem, hLeaves⟩ | ⟨i, hSlot, item, hItem, hKind, -, hTake⟩)
    · refine ⟨item, h.static ▸ hItem, ?_⟩
      cases taker with
      | some p => exact ⟨hLeaves.1, (h.leftFor _ _ _).mpr (Or.inl hLeaves.2)⟩
      | none =>
        exact ⟨hLeaves.1, fun hLooted => hLeaves.2.1 ((h.looted _ _).mp hLooted),
          hLeaves.2.2.imp_right fun ⟨p, hListed⟩ => ⟨p, (h.listedFor _ _ _).mpr (Or.inl hListed)⟩⟩
    · rw [LootItem.takeOf, Take.mk.injEq] at hTake
      obtain ⟨hTaker, rfl, rfl⟩ := hTake
      obtain ⟨found, hFound, hUnlooted⟩ := h.slots index hSlot
      refine ⟨item, h.static ▸ hItem, ?_⟩
      split at hTaker
      · rename_i hPersonal
        obtain rfl := hTaker
        exact ⟨hPersonal, (h.leftFor _ _ _).mpr (Or.inr ⟨hKind, rfl, hSlot⟩)⟩
      · rename_i hShared
        obtain rfl := hTaker
        refine ⟨Bool.not_eq_true _ ▸ hShared, ?_, Or.inr ⟨guid, (h.listedFor _ _ _).mpr (Or.inr ⟨hKind, rfl, hSlot⟩)⟩⟩
        rw [h.looted, loot.looted_iff hFound, hUnlooted]
        exact Bool.false_ne_true

open Classical in
theorem exists_newTakes (loot : Loot) (kind : EntryKind) (guid : Nat) {slots : List Nat}
    (hOrder : slots.Pairwise (· < ·)) : ∃ new : Finset Take, (new : Set Take) = newTakes loot kind guid slots ∧
      (∀ t ∈ new, t ∉ loot.offered) ∧ new.card = slots.countP fun i => Fresh loot kind guid i := by
  let takeAt : Nat → Take := fun i =>
    ((loot.static? kind.isQuest i).map fun item => item.takeOf guid kind.isQuest i).getD ⟨none, kind.isQuest, i⟩
  have hAt : ∀ i item, loot.static? kind.isQuest i = some item → takeAt i = item.takeOf guid kind.isQuest i :=
    fun i item hItem => by simp [takeAt, hItem]
  have hIndex : ∀ i, (takeAt i).index = i := fun i => by
    cases hItem : loot.static? kind.isQuest i with
    | none => simp [takeAt, hItem]
    | some item => simp [takeAt, hItem, LootItem.takeOf]
  have hNodup : ((slots.filter fun i => Fresh loot kind guid i).map takeAt).Nodup := by
    refine List.Nodup.map ?_ ((hOrder.imp ne_of_lt).filter _)
    exact Function.LeftInverse.injective hIndex
  have hNew : ∀ t, t ∈ ((slots.filter fun i => Fresh loot kind guid i).map takeAt).toFinset ↔
      t ∈ newTakes loot kind guid slots := fun t => by
    rw [List.mem_toFinset, List.mem_map]
    constructor
    · rintro ⟨i, hSlot, rfl⟩
      obtain ⟨hMem, hFresh⟩ := List.mem_filter.mp hSlot
      obtain ⟨item, hItem, hKind, hBefore⟩ := of_decide_eq_true hFresh
      exact ⟨i, hMem, item, hItem, hKind, hBefore, hAt i item hItem⟩
    · rintro ⟨i, hSlot, item, hItem, hKind, hBefore, rfl⟩
      exact ⟨i, List.mem_filter.mpr ⟨hSlot, decide_eq_true ⟨item, hItem, hKind, hBefore⟩⟩, hAt i item hItem⟩
  refine ⟨_, Set.ext hNew, fun t hMem => ?_, ?_⟩
  · obtain ⟨i, -, item, -, -, hBefore, rfl⟩ := (hNew t).mp hMem
    exact hBefore
  · rw [List.toFinset_card_of_nodup hNodup, List.length_map, List.countP_eq_length_filter]

theorem countP_split {α : Type*} {p q : α → Bool} (l : List α) (h : ∀ a ∈ l, q a = true → p a = true) :
    l.countP p = l.countP q + l.countP fun a => p a && !q a := by
  induction l with
  | nil => rfl
  | cons a l ih =>
    obtain ⟨hFirst, hRest⟩ := List.forall_mem_cons.mp h
    rw [List.countP_cons, List.countP_cons, List.countP_cons, ih hRest]
    cases hq : q a with
    | true => simp [hFirst hq, Nat.add_right_comm]
    | false => simp [Nat.add_assoc]

open Classical in
theorem Lists.ticketed (h : Lists kind guid slots loot next) {excess : Nat} (hTickets : Ticketed loot excess)
    {counts : Nat → Bool} (hCounts : ∀ i ∈ slots, Fresh loot kind guid i → counts i = true)
    (hCounter : next.unlootedCount = loot.unlootedCount + slots.countP counts) :
    ∃ more, Ticketed next (excess + more) ∧
      (more = 0 ↔ ∀ i ∈ slots, counts i = true → Fresh loot kind guid i) := by
  obtain ⟨new, hNew, hBefore, hCard⟩ := exists_newTakes loot kind guid h.order
  refine ⟨slots.countP fun i => counts i && !decide (Fresh loot kind guid i), ?_, ?_⟩
  · have hSplit := countP_split slots fun i hSlot hFresh => hCounts i hSlot (of_decide_eq_true hFresh)
    rw [Ticketed, h.offered, h.left, h.history, hCounter, hSplit, ← hCard, ← hNew]
    exact hTickets.offerNew hBefore _
  · rw [List.countP_eq_zero]
    refine forall₂_congr fun i _ => ?_
    simp

end

/-! ## Slots -/

theorem indices_order (loot : Loot) (quest : Bool) (p : LootItem → Bool) : (indices loot quest p).Pairwise (· < ·) :=
  List.pairwise_lt_range.filter _

theorem mem_indices {quest : Bool} {p : LootItem → Bool} {i : Nat} (h : i ∈ indices loot quest p) :
    ∃ item, loot.item? quest i = some item ∧ p item = true := by
  obtain ⟨-, hAny⟩ := List.mem_filter.mp h
  cases hItem : loot.item? quest i with
  | none => rw [hItem] at hAny; cases hAny
  | some item => exact ⟨item, rfl, by rwa [hItem] at hAny⟩

theorem exists_mapItems (loot : Loot) (quest : Bool) {f : Nat → LootItem → LootItem} {P : LootItem → Prop}
    (h : ∀ i item, P (f i item) ↔ P item) (q : Bool) (i : Nat) :
    (∃ item, (loot.mapItems quest f).item? q i = some item ∧ P item) ↔ ∃ item, loot.item? q i = some item ∧ P item := by
  rw [Loot.item?_mapItems]
  split
  · simp [h]
  · exact Iff.rfl

section

variable {kind : EntryKind} {guid i : Nat} {item : LootItem}

theorem fresh_personal (hItem : loot.item? kind.isQuest i = some item) (hKind : item.kind kind.isQuest = kind)
    (hPersonal : item.personal kind.isQuest = true) (hNone : ¬ loot.ListedFor kind guid i) :
    Fresh loot kind guid i := by
  refine ⟨item.static, loot.static?_eq_some hItem, hKind, ?_⟩
  have hTake : item.static.takeOf guid kind.isQuest i = ⟨some guid, kind.isQuest, i⟩ := takeOf_personal hPersonal guid i
  rw [hTake]
  rintro ⟨other, hOther, -, hListed⟩
  obtain rfl := Option.some.inj ((loot.static?_eq_some hItem).symm.trans hOther)
  rw [LootItem.static_kind, hKind] at hListed
  exact hNone hListed

theorem fresh_shared_iff (hItem : loot.item? kind.isQuest i = some item) (hShared : item.personal kind.isQuest = false)
    (hOrdinary : item.ordinary kind.isQuest = false) :
    Fresh loot kind guid i ↔ item.kind kind.isQuest = kind ∧ ¬ ∃ p, loot.ListedFor kind p i := by
  have hStatic := loot.static?_eq_some hItem
  have hTake : item.static.takeOf guid kind.isQuest i = ⟨none, kind.isQuest, i⟩ := takeOf_shared hShared guid i
  constructor
  · rintro ⟨other, hOther, hKind, hBefore⟩
    obtain rfl := Option.some.inj (hStatic.symm.trans hOther)
    rw [hTake] at hBefore
    refine ⟨hKind, fun ⟨p, hListed⟩ => hBefore ⟨item.static, hStatic, hShared, Or.inr ⟨p, ?_⟩⟩⟩
    rwa [hKind]
  · rintro ⟨hKind, hUnseen⟩
    refine ⟨item.static, hStatic, hKind, ?_⟩
    rw [hTake]
    rintro ⟨other, hOther, -, hOffer⟩
    obtain rfl := Option.some.inj (hStatic.symm.trans hOther)
    rcases hOffer with hFree | ⟨p, hListed⟩
    · rw [LootItem.static_ordinary, hOrdinary] at hFree
      cases hFree
    · rw [LootItem.static_kind, hKind] at hListed
      exact hUnseen ⟨p, hListed⟩

end

/-! ## The four fills -/

/-- While a loot is filled, quest items are blocked and conditional items counted when players have
entries of them. -/
structure Filling (loot : Loot) : Prop where
  filed : Filed loot
  blocked : ∀ i item, loot.item? true i = some item → item.isBlocked = true → ∃ p, loot.ListedFor .quest p i
  counted : ∀ i item, loot.item? false i = some item →
    (item.isCounted = true ↔ ∃ p, loot.ListedFor .conditional p i)

theorem Suits.mono {next : Loot} {kind : EntryKind} {player index : Nat} {item : LootItem}
    (h : Suits loot kind player index item)
    (hListed : loot.ListedFor .currency player index → next.ListedFor .currency player index) :
    Suits next kind player index item := by
  rw [Suits] at h ⊢
  split
  · rename_i hKind
    rw [if_pos hKind] at h
    exact ⟨h.1, h.2.1, fun hCurrency => hListed (h.2.2 hCurrency)⟩
  · rename_i hKind
    rwa [if_neg hKind] at h

theorem Lists.filed {kind : EntryKind} {guid : Nat} {slots : List Nat} {next : Loot}
    (h : Lists kind guid slots loot next) (hFiled : Filed loot)
    (hSuits : ∀ i ∈ slots, ∀ item, loot.static? kind.isQuest i = some item → Suits loot kind guid i item) :
    Filed next := by
  have hMono : ∀ p i, loot.ListedFor .currency p i → next.ListedFor .currency p i :=
    fun p i hListed => (h.listedFor _ _ _).mpr (Or.inl hListed)
  refine ⟨h.order_next hFiled, fun k p i hListed => ?_, fun q i item hItem => ?_⟩
  · rw [h.static]
    rcases (h.listedFor _ _ _).mp hListed with hOld | ⟨rfl, rfl, hSlot⟩
    · obtain ⟨item, hItem, hFits⟩ := hFiled.suits k p i hOld
      exact ⟨item, hItem, hFits.mono (hMono p i)⟩
    · obtain ⟨item, hItem, -⟩ := h.slots i hSlot
      have hStatic := loot.static?_eq_some hItem
      exact ⟨item.static, hStatic, (hSuits i hSlot _ hStatic).mono (hMono p i)⟩
  · rw [h.static] at hItem
    exact hFiled.single q i item hItem

variable {m : Member}

theorem lists_fillCurrencyLoot (hEmpty : loot.entries .currency m.guid = []) :
    Lists .currency m.guid (currencySlots loot m) loot (fillCurrencyLoot loot m) where
  static := rfl
  looted _ _ := Iff.rfl
  entries := rfl
  history := rfl
  empty := hEmpty
  order := indices_order ..
  slots i hSlot := by
    obtain ⟨item, hItem, hGood⟩ := mem_indices hSlot
    simp only [Bool.and_eq_true, Bool.not_eq_true'] at hGood
    exact ⟨item, hItem, hGood.1.1⟩

theorem lists_fillFFALoot (hEmpty : loot.entries .ffa m.guid = []) :
    Lists .ffa m.guid (ffaSlots loot m) loot (fillFFALoot loot m) where
  static := rfl
  looted _ _ := Iff.rfl
  entries := rfl
  history := rfl
  empty := hEmpty
  order := indices_order ..
  slots i hSlot := by
    obtain ⟨item, hItem, hGood⟩ := mem_indices hSlot
    simp only [Bool.and_eq_true, Bool.not_eq_true'] at hGood
    exact ⟨item, hItem, hGood.1.1⟩

theorem history_mapItems (loot : Loot) (quest : Bool) (f : Nat → LootItem → LootItem) :
    (loot.mapItems quest f).history = loot.history := by
  rw [Loot.mapItems]
  split <;> rfl

theorem blockQuestItem_static (group : Option LootGroup) (slots : List Nat) (i : Nat) (item : LootItem) :
    (blockQuestItem group slots i item).static = item.static := by
  rw [blockQuestItem]
  split <;> rfl

theorem blockQuestItem_isLooted (group : Option LootGroup) (slots : List Nat) (i : Nat) (item : LootItem) :
    (blockQuestItem group slots i item).isLooted = item.isLooted := by
  rw [blockQuestItem]
  split <;> rfl

theorem questSlots_sublist (loot : Loot) (m : Member) (group : Option LootGroup) :
    (questSlots loot m group).Sublist (seenQuestSlots loot m group) := by
  rw [questSlots]
  split
  · exact List.nil_sublist _
  · split
    · exact List.take_sublist ..
    · exact List.Sublist.refl _

theorem lists_fillQuestLoot (group : Option LootGroup) (hEmpty : loot.entries .quest m.guid = []) :
    Lists .quest m.guid (questSlots loot m group) loot (fillQuestLoot loot m group) where
  static := Loot.static?_mapItems (loot.setEntries .quest m.guid _) true (blockQuestItem_static group _)
  looted q i := exists_mapItems (loot.setEntries .quest m.guid _) true
    (fun j item => by rw [blockQuestItem_isLooted]) q i
  entries := Loot.entries_mapItems ..
  history := history_mapItems ..
  empty := hEmpty
  order := (indices_order ..).sublist (questSlots_sublist ..)
  slots i hSlot := by
    obtain ⟨item, hItem, hGood⟩ := mem_indices ((questSlots_sublist ..).subset hSlot)
    simp only [Bool.and_eq_true, Bool.not_eq_true'] at hGood
    exact ⟨item, hItem, hGood.1⟩

theorem flagConditional_static (loot : Loot) (m : Member) (i : Nat) (item : LootItem) :
    (countConditional loot m i (allowLooter loot m i item)).static = item.static := by
  rw [countConditional, allowLooter]
  split <;> split <;> rfl

theorem flagConditional_isLooted (loot : Loot) (m : Member) (i : Nat) (item : LootItem) :
    (countConditional loot m i (allowLooter loot m i item)).isLooted = item.isLooted := by
  rw [countConditional, allowLooter]
  split <;> split <;> rfl

theorem lists_fillConditional (hEmpty : loot.entries .conditional m.guid = []) :
    Lists .conditional m.guid (conditionalSlots loot m) loot (fillNonQuestNonFFAConditionalLoot loot m) where
  static := Loot.static?_mapItems (loot.setEntries .conditional m.guid _) false (flagConditional_static loot m)
  looted q i := exists_mapItems (loot.setEntries .conditional m.guid _) false
    (fun j item => by rw [flagConditional_isLooted]) q i
  entries := Loot.entries_mapItems ..
  history := history_mapItems ..
  empty := hEmpty
  order := (indices_order ..).filter _
  slots i hSlot := by
    obtain ⟨item, hItem, hGood⟩ := mem_indices (List.mem_filter.mp hSlot).1
    simp only [Bool.and_eq_true, Bool.not_eq_true'] at hGood
    exact ⟨item, hItem, hGood.1.1⟩

end AshamaneCore.Looting
