import AshamaneCore.Game.LootVisits

/-!
# Generated loot

What a template drops is counted as it is pushed when nobody needs an entry of
it, so the counter of a generated loot is exact.
-/

namespace AshamaneCore.Looting

open Library

/-- Nobody has entries yet, nothing is marked, and the counter is exact. -/
structure Generated (loot : Loot) : Prop where
  entries : loot.entries = fun _ _ => []
  plain : ∀ quest i item, loot.item? quest i = some item →
    item.isLooted = false ∧ item.isBlocked = false ∧ item.isCounted = false
  single : ∀ quest i item, loot.item? quest i = some item → item.currency = true → item.freeforall = false
  history : loot.history = []
  ticketed : Ticketed loot 0

variable {loot : Loot}

theorem Generated.not_listed (h : Generated loot) (kind : EntryKind) (p i : Nat) : ¬ loot.ListedFor kind p i := by
  rw [Loot.ListedFor, h.entries]
  rintro ⟨entry, hMem, -⟩
  exact List.not_mem_nil hMem

theorem Generated.unvisited (h : Generated loot) (guid : Nat) : Unvisited loot guid := fun kind => by rw [h.entries]

theorem Generated.filling (h : Generated loot) : Filling loot where
  filed :=
    { order := fun kind p => by
        rw [h.entries]
        exact List.Pairwise.nil
      suits := fun kind p i hListed => absurd hListed (h.not_listed kind p i)
      single := fun quest i item hItem hCurrency => by
        obtain ⟨old, hOld, rfl⟩ := Option.map_eq_some_iff.mp hItem
        exact h.single quest i old hOld hCurrency }
  blocked i item hItem hBlocked := absurd hBlocked (Bool.eq_false_iff.mp (h.plain true i item hItem).2.1)
  counted i item hItem := by
    refine iff_of_false (Bool.eq_false_iff.mp (h.plain false i item hItem).2.2) ?_
    rintro ⟨p, hListed⟩
    exact h.not_listed .conditional p i hListed

/-! ## Pushed items -/

section

variable (loot) (quest : Bool) (item : LootItem)

theorem item?_pushItem (q : Bool) (i : Nat) :
    (pushItem loot quest item).item? q i =
      if q = quest ∧ i = loot.size quest then some item else loot.item? q i := by
  have hPush : ∀ l : List LootItem, (l ++ [item])[i]? = if i = l.length then some item else l[i]? := fun l => by
    rcases lt_trichotomy i l.length with hLt | rfl | hGt
    · rw [List.getElem?_append_left hLt, if_neg hLt.ne]
    · rw [List.getElem?_concat_length, if_pos rfl]
    · rw [if_neg hGt.ne', List.getElem?_eq_none (by simp; omega), List.getElem?_eq_none hGt.le]
  cases quest <;> cases q <;> simp [pushItem, Loot.item?, Loot.size, hPush]

theorem pushItem_old {i : Nat} {old : LootItem} {q : Bool} (h : loot.item? q i = some old) :
    (pushItem loot quest item).item? q i = some old := by
  rw [item?_pushItem, if_neg, h]
  rintro ⟨rfl, rfl⟩
  have hNone : loot.item? q (loot.size q) = none := by
    cases q <;> exact List.getElem?_eq_none (Nat.le_refl _)
  rw [hNone] at h
  cases h

theorem entries_pushItem : (pushItem loot quest item).entries = loot.entries := by
  rw [pushItem]
  split <;> rfl

theorem history_pushItem : (pushItem loot quest item).history = loot.history := by
  rw [pushItem]
  split <;> rfl

def pushTakes : Finset Take :=
  if item.personal quest = false ∧ item.ordinary quest = true then {⟨none, quest, loot.size quest⟩} else ∅

end

theorem offered_iff (hEntries : loot.entries = fun _ _ => []) (t : Take) :
    t ∈ loot.offered ↔ t.player = none ∧ ∃ item, loot.item? t.quest t.index = some item ∧
      item.personal t.quest = false ∧ item.ordinary t.quest = true := by
  have hNone : ∀ kind p i, ¬ loot.ListedFor kind p i := by
    rintro kind p i ⟨entry, hMem, -⟩
    rw [hEntries] at hMem
    exact List.not_mem_nil hMem
  obtain ⟨taker, quest, index⟩ := t
  constructor
  · rintro ⟨item, hItem, hOffers⟩
    obtain ⟨old, hOld, rfl⟩ := Option.map_eq_some_iff.mp hItem
    cases taker with
    | some p => exact absurd hOffers.2 (hNone _ _ _)
    | none => exact ⟨rfl, old, hOld, hOffers.1, hOffers.2.resolve_right fun ⟨p, hListed⟩ => hNone _ _ _ hListed⟩
  · rintro ⟨rfl, item, hItem, hShared, hOrdinary⟩
    exact ⟨item.static, loot.static?_eq_some hItem, hShared, Or.inl hOrdinary⟩

theorem left_eq_offered (hEntries : loot.entries = fun _ _ => [])
    (hPlain : ∀ quest i item, loot.item? quest i = some item → item.isLooted = false) : loot.left = loot.offered := by
  refine Set.Subset.antisymm (left_subset loot) fun t hOffered => ?_
  obtain ⟨hTaker, item, hItem, hShared, hOrdinary⟩ := (offered_iff hEntries t).mp hOffered
  obtain ⟨taker, quest, index⟩ := t
  obtain rfl : taker = none := hTaker
  refine ⟨item.static, loot.static?_eq_some hItem, hShared, ?_, Or.inl hOrdinary⟩
  rw [loot.looted_iff hItem, hPlain quest index item hItem]
  exact Bool.false_ne_true

theorem pushItem_offered (hEntries : loot.entries = fun _ _ => []) (quest : Bool) (item : LootItem) :
    (pushItem loot quest item).offered = loot.offered ∪ pushTakes loot quest item ∧
      ∀ t ∈ pushTakes loot quest item, t ∉ loot.offered := by
  have hPushed := (entries_pushItem loot quest item).trans hEntries
  constructor
  · ext ⟨taker, q, i⟩
    rw [Set.mem_union, offered_iff hPushed, offered_iff hEntries, Finset.mem_coe, pushTakes]
    constructor
    · rintro ⟨hTaker, other, hOther, hGood⟩
      obtain rfl : taker = none := hTaker
      rw [item?_pushItem] at hOther
      split at hOther
      · rename_i hHere
        obtain ⟨hQuest, hIndex⟩ := hHere
        dsimp only at hQuest hIndex hGood
        obtain rfl := Option.some.inj hOther
        subst hQuest hIndex
        rw [if_pos hGood]
        exact Or.inr (Finset.mem_singleton_self _)
      · exact Or.inl ⟨rfl, other, hOther, hGood⟩
    · rintro (⟨hTaker, other, hOther, hGood⟩ | hNew)
      · exact ⟨hTaker, other, pushItem_old loot quest item hOther, hGood⟩
      · split at hNew
        · rename_i hGood
          obtain ⟨rfl, rfl, rfl⟩ := Take.mk.inj (Finset.mem_singleton.mp hNew)
          exact ⟨rfl, item, (item?_pushItem ..).trans (if_pos ⟨rfl, rfl⟩), hGood⟩
        · exact (Finset.notMem_empty _ hNew).elim
  · intro t hNew hOffered
    rw [pushTakes] at hNew
    split at hNew
    · obtain rfl := Finset.mem_singleton.mp hNew
      obtain ⟨-, old, hOld, -⟩ := (offered_iff hEntries _).mp hOffered
      have hNone : loot.item? quest (loot.size quest) = none := by
        cases quest <;> exact List.getElem?_eq_none (Nat.le_refl _)
      rw [hNone] at hOld
      cases hOld
    · exact Finset.notMem_empty _ hNew

theorem Generated.push (h : Generated loot) (quest : Bool) {item : LootItem} {next : Loot}
    (hPlain : item.isLooted = false ∧ item.isBlocked = false ∧ item.isCounted = false)
    (hSingle : item.currency = true → item.freeforall = false)
    (hNext : next = { pushItem loot quest item with
      unlootedCount := loot.unlootedCount + (pushTakes loot quest item).card }) : Generated next := by
  have hItems : next.item? = (pushItem loot quest item).item? := by rw [hNext]; rfl
  have hEntries : next.entries = fun _ _ => [] := by
    rw [hNext]
    exact (entries_pushItem loot quest item).trans h.entries
  have hHistory : next.history = [] := by
    rw [hNext]
    exact (history_pushItem loot quest item).trans h.history
  have hAll : ∀ q i other, next.item? q i = some other →
      other.isLooted = false ∧ other.isBlocked = false ∧ other.isCounted = false := fun q i other hOther => by
    rw [hItems, item?_pushItem] at hOther
    split at hOther
    · exact Option.some.inj hOther ▸ hPlain
    · exact h.plain q i other hOther
  refine ⟨hEntries, hAll, fun q i other hOther => ?_, hHistory, ?_⟩
  · rw [hItems, item?_pushItem] at hOther
    split at hOther
    · exact Option.some.inj hOther ▸ hSingle
    · exact h.single q i other hOther
  · obtain ⟨hOffered, hNew⟩ := pushItem_offered h.entries quest item
    have hSame : next.offered = (pushItem loot quest item).offered := by rw [hNext]; rfl
    have hLeft := left_eq_offered hEntries fun q i other hOther => (hAll q i other hOther).1
    have hBefore := left_eq_offered h.entries fun q i other hOther => (h.plain q i other hOther).1
    have hTickets := h.ticketed.offerNew hNew 0
    have hCount : next.unlootedCount = loot.unlootedCount + (pushTakes loot quest item).card := by rw [hNext]
    rw [hBefore] at hTickets
    rwa [Ticketed, hLeft, hSame, hOffered, hHistory, hCount, ← h.history]

/-! ## Templates -/

section

variable (w : World)

theorem ofStore_single (li : LootStoreItem) (count : Nat) (h : (LootItem.ofStore w li count).currency = true) :
    (LootItem.ofStore w li count).freeforall = false := by
  have hCurrency : li.currency = true := h
  rw [LootItem.ofStore, hCurrency]
  rfl

variable {li : LootStoreItem}

theorem push_currency (h : Generated loot) (hCurrency : li.currency = true) (count : Nat) :
    Generated (pushItem loot li.needsQuest (LootItem.ofStore w li count)) := by
  refine h.push li.needsQuest ⟨rfl, rfl, rfl⟩ (ofStore_single w li count) ?_
  have hNone : pushTakes loot li.needsQuest (LootItem.ofStore w li count) = ∅ := by
    rw [pushTakes, if_neg]
    rintro ⟨hShared, hOrdinary⟩
    rw [LootItem.personal, LootItem.ofStore, hCurrency] at hShared
    rw [LootItem.ordinary] at hOrdinary
    cases hQuest : li.needsQuest <;> simp_all
  rw [hNone, pushItem]
  split <;> rfl

theorem push_stack (h : Generated loot) {proto : ItemTemplate} (hCurrency : li.currency = false)
    (hProto : w.itemTemplate li.itemid = some proto) (count : Nat) :
    Generated (countOrdinary li proto (pushItem loot li.needsQuest (LootItem.ofStore w li count))) := by
  refine h.push li.needsQuest ⟨rfl, rfl, rfl⟩ (ofStore_single w li count) ?_
  have hFfa : (LootItem.ofStore w li count).freeforall = proto.multiDrop := by
    rw [LootItem.ofStore, hCurrency, hProto]
    rfl
  have hNot : (LootItem.ofStore w li count).currency = false := hCurrency
  have hConditions : (LootItem.ofStore w li count).conditions = li.conditions := rfl
  have hCount : (pushItem loot li.needsQuest (LootItem.ofStore w li count)).unlootedCount = loot.unlootedCount := by
    rw [pushItem]
    split <;> rfl
  rw [countOrdinary, pushTakes, LootItem.personal, LootItem.ordinary, hFfa, hNot, hConditions, ← hCount]
  cases li.needsQuest <;> cases li.conditions.isEmpty <;> cases proto.multiDrop <;> rfl

theorem addStacks_generated {proto : ItemTemplate} (hCurrency : li.currency = false)
    (hProto : w.itemTemplate li.itemid = some proto) (n count : Nat) (h : Generated loot) :
    Generated (addStacks w li proto n count loot) := by
  induction n generalizing count loot with
  | zero => exact h
  | succ n ih =>
    rw [addStacks]
    split
    · exact ih _ (push_stack w h hCurrency hProto _)
    · exact h

theorem addItem_generated (h : Generated loot) (drop : Drop) : Generated (addItem w loot drop) := by
  rw [addItem]
  cases hCurrency : drop.item.currency with
  | true =>
    rw [if_pos rfl]
    exact push_currency w h hCurrency drop.count
  | false =>
    rw [if_neg Bool.false_ne_true]
    split
    · exact h
    · rename_i proto hProto
      split
      · exact addStacks_generated w hCurrency hProto _ _ h
      · exact h

theorem empty_generated (gold : Nat) : Generated (Loot.empty gold) where
  entries := rfl
  plain quest i item hItem := by cases quest <;> cases hItem
  single quest i item hItem := by cases quest <;> cases hItem
  history := rfl
  ticketed := by
    have hNone : (Loot.empty gold).offered = ∅ := by
      refine Set.eq_empty_iff_forall_notMem.mpr fun t hOffered => ?_
      obtain ⟨-, item, hItem, -⟩ := (offered_iff rfl t).mp hOffered
      cases hQuest : t.quest <;> rw [hQuest] at hItem <;> cases hItem
    have hLeft : (Loot.empty gold).left = ∅ := Set.subset_empty_iff.mp (hNone ▸ left_subset _)
    rw [Ticketed, hNone, hLeft]
    exact Tickets.empty

theorem generate_generated (gold : Nat) (content : List Drop) : Generated (generate w gold content) := by
  have hAll : ∀ l, Generated l → Generated (content.foldl (addItem w) l) := by
    induction content with
    | nil => exact fun _ h => h
    | cons drop content ih => exact fun l h => ih _ (addItem_generated w h drop)
  exact hAll _ (empty_generated gold)

theorem Generated.roundRobin (h : Generated loot) (guid : Nat) :
    Generated { loot with roundRobinPlayer := guid } :=
  ⟨h.entries, h.plain, h.single, h.history, h.ticketed⟩

theorem processed_generated (group : Option LootGroup) (gold : Nat) (content : List Drop) (owner : Member)
    (personal : Bool) : Generated (processed w group gold content owner personal) := by
  rw [processed]
  split
  · exact generate_generated w gold content
  · exact (generate_generated w gold content).roundRobin owner.guid

end

end AshamaneCore.Looting
