import AshamaneCore.Game.Loot
import AshamaneCore.Library.Tickets

/-!
# What is left to take

An item is taken once for all, or once by every player who has an entry. The
tickets that a loot offers and those that are left follow from the items and
the entries, whatever the other flags say.
-/

namespace AshamaneCore.Looting

open Library

/-- An item for all players together, or for one player who has an entry of it. -/
structure Take where
  player : Option Nat
  quest : Bool
  index : Nat
  deriving DecidableEq

namespace LootItem

variable (item : LootItem)

def personal (quest : Bool) : Bool := item.freeforall || (!quest && item.currency)

def ordinary (quest : Bool) : Bool := !quest && item.conditions.isEmpty

def takeOf (player : Nat) (quest : Bool) (index : Nat) : Take :=
  ⟨if item.personal quest then some player else none, quest, index⟩

def static : LootItem :=
  { item with
    allowedGuids := []
    isLooted := false
    isBlocked := false
    isUnderthreshold := false
    isCounted := false }

@[simp] theorem static_personal (quest : Bool) : item.static.personal quest = item.personal quest := rfl

@[simp] theorem static_ordinary (quest : Bool) : item.static.ordinary quest = item.ordinary quest := rfl

@[simp] theorem static_kind (quest : Bool) : item.static.kind quest = item.kind quest := rfl

theorem kind_quest_iff (quest : Bool) : item.kind quest = .quest ↔ quest = true := by
  rw [kind]
  split
  · simp_all
  · split
    · simp_all
    · split <;> simp_all

end LootItem

def EntryKind.isQuest (kind : EntryKind) : Bool := kind = .quest

theorem LootItem.isQuest_kind (item : LootItem) (quest : Bool) : (item.kind quest).isQuest = quest := by
  rw [EntryKind.isQuest, Bool.eq_iff_iff, decide_eq_true_iff, item.kind_quest_iff]

def Handout.take (h : Handout) : Take := h.item.takeOf h.player h.quest h.index

/-! ## Entries -/

def Listed (list : List NotNormalLootItem) (index : Nat) : Prop := ∃ entry ∈ list, entry.index = index

def Left (list : List NotNormalLootItem) (index : Nat) : Prop :=
  ∃ entry ∈ list, entry.index = index ∧ entry.isLooted = false

theorem Left.listed {list : List NotNormalLootItem} {index : Nat} (h : Left list index) : Listed list index :=
  let ⟨entry, hMem, hIndex, _⟩ := h
  ⟨entry, hMem, hIndex⟩

theorem listed_newEntries (slots : List Nat) (index : Nat) : Listed (newEntries slots) index ↔ index ∈ slots := by
  simp [Listed, newEntries]

theorem left_newEntries (slots : List Nat) (index : Nat) : Left (newEntries slots) index ↔ index ∈ slots := by
  simp [Left, newEntries]

def InOrder (list : List NotNormalLootItem) : Prop := list.Pairwise fun a b => a.index < b.index

section

variable {list : List NotNormalLootItem} {position : Nat} {entry : NotNormalLootItem}

def markAt (position : Nat) (list : List NotNormalLootItem) : List NotNormalLootItem :=
  list.modify position fun entry => { entry with isLooted := true }

theorem map_index_markAt (position : Nat) (list : List NotNormalLootItem) :
    (markAt position list).map NotNormalLootItem.index = list.map NotNormalLootItem.index := by
  induction list generalizing position with
  | nil => cases position <;> rfl
  | cons entry list ih =>
    cases position with
    | zero => rfl
    | succ position => exact congrArg (entry.index :: ·) (ih position)

theorem listed_iff_mem (index : Nat) : Listed list index ↔ index ∈ list.map NotNormalLootItem.index :=
  List.mem_map.symm

theorem listed_markAt (index : Nat) : Listed (markAt position list) index ↔ Listed list index := by
  rw [listed_iff_mem, map_index_markAt, ← listed_iff_mem]

theorem inOrder_iff : InOrder list ↔ (list.map NotNormalLootItem.index).Pairwise (· < ·) :=
  List.pairwise_map.symm

theorem InOrder.markAt (h : InOrder list) (position : Nat) : InOrder (markAt position list) := by
  rw [inOrder_iff, map_index_markAt]
  exact inOrder_iff.mp h

theorem left_markAt (h : InOrder list) (hAt : list[position]? = some entry) (index : Nat) :
    Left (markAt position list) index ↔ Left list index ∧ index ≠ entry.index := by
  induction list generalizing position with
  | nil => simp at hAt
  | cons first list ih =>
    obtain ⟨hFirst, hRest⟩ := List.pairwise_cons.mp h
    have hSplit : ∀ l : List NotNormalLootItem, ∀ e, Left (e :: l) index ↔
        (e.index = index ∧ e.isLooted = false) ∨ Left l index := fun l e => by simp [Left]
    cases position with
    | zero =>
      obtain rfl := Option.some.inj hAt
      have hBehind : Left list index → index ≠ first.index := by
        rintro ⟨e, hMem, rfl, -⟩
        exact (hFirst e hMem).ne'
      rw [Looting.markAt, List.modify_zero_cons, hSplit, hSplit]
      simp only [Bool.true_eq_false, and_false, false_or]
      constructor
      · intro hLeft
        exact ⟨Or.inr hLeft, hBehind hLeft⟩
      · rintro ⟨⟨rfl, -⟩ | hLeft, hNe⟩
        · exact absurd rfl hNe
        · exact hLeft
    | succ position =>
      have hEntry : entry ∈ list := List.mem_of_getElem? hAt
      have hMarked : markAt (position + 1) (first :: list) = first :: markAt position list := rfl
      rw [hMarked, hSplit, hSplit, ih hRest hAt]
      constructor
      · rintro (⟨rfl, hUnlooted⟩ | ⟨hLeft, hNe⟩)
        · exact ⟨Or.inl ⟨rfl, hUnlooted⟩, (hFirst entry hEntry).ne⟩
        · exact ⟨Or.inr hLeft, hNe⟩
      · rintro ⟨hHere | hLeft, hNe⟩
        · exact Or.inl hHere
        · exact Or.inr ⟨hLeft, hNe⟩

end

/-! ## Tickets of a loot -/

namespace Loot

variable (loot : Loot)

def static? (quest : Bool) (index : Nat) : Option LootItem := (loot.item? quest index).map LootItem.static

def Looted (quest : Bool) (index : Nat) : Prop := ∃ item, loot.item? quest index = some item ∧ item.isLooted = true

def ListedFor (kind : EntryKind) (player index : Nat) : Prop := Listed (loot.entries kind player) index

def LeftFor (kind : EntryKind) (player index : Nat) : Prop := Left (loot.entries kind player) index

def Offers (item : LootItem) (t : Take) : Prop :=
  match t.player with
  | some player => item.personal t.quest = true ∧ loot.ListedFor (item.kind t.quest) player t.index
  | none => item.personal t.quest = false ∧
    (item.ordinary t.quest = true ∨ ∃ player, loot.ListedFor (item.kind t.quest) player t.index)

def offered : Set Take := { t | ∃ item, loot.static? t.quest t.index = some item ∧ loot.Offers item t }

def Leaves (item : LootItem) (t : Take) : Prop :=
  match t.player with
  | some player => item.personal t.quest = true ∧ loot.LeftFor (item.kind t.quest) player t.index
  | none => item.personal t.quest = false ∧ ¬ loot.Looted t.quest t.index ∧
    (item.ordinary t.quest = true ∨ ∃ player, loot.ListedFor (item.kind t.quest) player t.index)

def left : Set Take := { t | ∃ item, loot.static? t.quest t.index = some item ∧ loot.Leaves item t }

end Loot

/-! ## Views of a changed loot -/

namespace Loot

variable (loot : Loot)

theorem item?_mapItems (quest : Bool) (f : Nat → LootItem → LootItem) (q : Bool) (i : Nat) :
    (loot.mapItems quest f).item? q i = if q = quest then (loot.item? q i).map (f i) else loot.item? q i := by
  cases quest <;> cases q <;> simp [mapItems, item?]

theorem static?_mapItems (quest : Bool) {f : Nat → LootItem → LootItem}
    (h : ∀ i item, (f i item).static = item.static) :
    (loot.mapItems quest f).static? = loot.static? := by
  funext q i
  rw [static?, static?, item?_mapItems]
  split
  · rw [Option.map_map]
    exact Option.map_congr fun item _ => h i item
  · rfl

theorem entries_mapItems (quest : Bool) (f : Nat → LootItem → LootItem) :
    (loot.mapItems quest f).entries = loot.entries := by
  rw [mapItems]
  split <;> rfl

theorem entries_setEntries (kind : EntryKind) (player : Nat) (list : List NotNormalLootItem) (k : EntryKind) (p : Nat) :
    (loot.setEntries kind player list).entries k p = if k = kind ∧ p = player then list else loot.entries k p := by
  rw [setEntries]
  dsimp only
  rcases eq_or_ne k kind with rfl | hKind
  · rw [Function.update_self]
    rcases eq_or_ne p player with rfl | hPlayer
    · rw [Function.update_self, if_pos ⟨rfl, rfl⟩]
    · rw [Function.update_of_ne hPlayer, if_neg fun h => hPlayer h.2]
  · rw [Function.update_of_ne hKind, if_neg fun h => hKind h.1]

theorem static?_eq_some {quest : Bool} {index : Nat} {item : LootItem} (h : loot.item? quest index = some item) :
    loot.static? quest index = some item.static := by rw [static?, h, Option.map_some]

theorem looted_iff {quest : Bool} {index : Nat} {item : LootItem} (h : loot.item? quest index = some item) :
    loot.Looted quest index ↔ item.isLooted = true := by
  constructor
  · rintro ⟨other, hOther, hLooted⟩
    obtain rfl := Option.some.inj (h.symm.trans hOther)
    exact hLooted
  · intro hLooted
    exact ⟨item, h, hLooted⟩

theorem offered_congr {first second : Loot} (hStatic : second.static? = first.static?)
    (hListed : ∀ kind player index, second.ListedFor kind player index ↔ first.ListedFor kind player index) :
    second.offered = first.offered := by
  have hFor : second.ListedFor = first.ListedFor := by
    funext kind player index
    exact propext (hListed kind player index)
  simp only [offered, Offers, hStatic, hFor]

theorem left_congr {first second : Loot} (hStatic : second.static? = first.static?)
    (hLooted : ∀ quest index, second.Looted quest index ↔ first.Looted quest index)
    (hListed : ∀ kind player index, second.ListedFor kind player index ↔ first.ListedFor kind player index)
    (hLeft : ∀ kind player index, second.LeftFor kind player index ↔ first.LeftFor kind player index) :
    second.left = first.left := by
  have hLootedEq : second.Looted = first.Looted := by
    funext quest index
    exact propext (hLooted quest index)
  have hListedEq : second.ListedFor = first.ListedFor := by
    funext kind player index
    exact propext (hListed kind player index)
  have hLeftEq : second.LeftFor = first.LeftFor := by
    funext kind player index
    exact propext (hLeft kind player index)
  simp only [left, Leaves, hStatic, hLootedEq, hListedEq, hLeftEq]

end Loot

/-! ## Entries and items that fit -/

/-- An entry of a kind points to an item of that kind; conditional entries of currencies stand beside
entries of the currency itself. -/
def Suits (loot : Loot) (kind : EntryKind) (player index : Nat) (item : LootItem) : Prop :=
  if kind = .conditional then
    item.freeforall = false ∧ item.conditions ≠ [] ∧
      (item.currency = true → loot.ListedFor .currency player index)
  else item.kind kind.isQuest = kind

structure Filed (loot : Loot) : Prop where
  order : ∀ kind player, InOrder (loot.entries kind player)
  suits : ∀ kind player index, loot.ListedFor kind player index →
    ∃ item, loot.static? kind.isQuest index = some item ∧ Suits loot kind player index item
  single : ∀ quest index item, loot.static? quest index = some item → item.currency = true →
    item.freeforall = false

theorem Filed.congr {first second : Loot} (h : Filed first) (hStatic : second.static? = first.static?)
    (hListed : ∀ kind player index, second.ListedFor kind player index ↔ first.ListedFor kind player index)
    (hOrder : ∀ kind player, InOrder (second.entries kind player)) : Filed second := by
  refine ⟨hOrder, fun kind player index hFor => ?_, fun quest index item hItem => ?_⟩
  · obtain ⟨item, hItem, hSuits⟩ := h.suits kind player index ((hListed ..).mp hFor)
    refine ⟨item, hStatic ▸ hItem, ?_⟩
    rwa [Suits, hListed]
  · exact h.single quest index item (hStatic ▸ hItem)

/-! ## Slots -/

/-- What is found in a slot: the item stands there, and its entry is not looted. -/
structure Met (loot : Loot) (player : Nat) (found : Found) : Prop where
  item : loot.item? found.quest found.index = some found.item
  entry : ∀ position, found.entry = some position → ∃ entry,
    (loot.entries (found.item.kind found.quest) player)[position]? = some entry ∧
      entry.index = found.index ∧ entry.isLooted = false
  none : found.entry = none → found.quest = false ∧ found.item.isLooted = false

theorem entryInSlot_some {loot : Loot} {player slot position : Nat} {item : LootItem}
    (h : loot.entryInSlot player slot item = some position) : ∃ entry,
      (loot.entries (item.kind false) player)[position]? = some entry ∧ entry.index = slot := by
  rw [Loot.entryInSlot] at h
  split at h
  · obtain ⟨hLt, hIndex, -⟩ := List.findIdx?_eq_some_iff_getElem.mp h
    exact ⟨_, List.getElem?_eq_getElem hLt, by simpa using hIndex⟩
  · cases h

theorem lootItemInSlot_met {loot : Loot} {slot player : Nat} {found : Found}
    (h : loot.lootItemInSlot slot player = some found) : Met loot player found := by
  rw [Loot.lootItemInSlot] at h
  split at h
  · obtain ⟨entry, hEntry, hRest⟩ := Option.bind_eq_some_iff.mp h
    obtain ⟨item, hItem, hFound⟩ := Option.bind_eq_some_iff.mp hRest
    split at hFound
    · cases hFound
    · rename_i hUnlooted
      obtain rfl := Option.some.inj hFound
      refine ⟨hItem, fun position hPosition => ?_, fun hNone => by cases hNone⟩
      obtain rfl := Option.some.inj hPosition
      exact ⟨entry, hEntry, rfl, by simpa using hUnlooted⟩
  · obtain ⟨item, hItem, hFound⟩ := Option.bind_eq_some_iff.mp h
    split at hFound
    · cases hFound
    · rename_i hUnlooted
      obtain rfl := Option.some.inj hFound
      refine ⟨hItem, fun position hPosition => ?_, fun hNone => ⟨rfl, ?_⟩⟩
      · obtain ⟨entry, hEntry, hIndex⟩ := entryInSlot_some hPosition
        refine ⟨entry, hEntry, hIndex, ?_⟩
        dsimp only at hPosition
        rw [Loot.isLootedFor, hPosition, Option.bind_some, hEntry] at hUnlooted
        simpa using hUnlooted
      · dsimp only at hNone
        rw [Loot.isLootedFor, hNone, Option.bind_none] at hUnlooted
        simpa using hUnlooted

end AshamaneCore.Looting
