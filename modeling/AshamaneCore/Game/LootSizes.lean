import AshamaneCore.Game.LootGeneration
import AshamaneCore.Game.LootMgr
import Mathlib.Algebra.Order.Ring.Int

/-!
# The size of a generated loot

Items stop at the limit of their list, currencies do not. How long a list gets
is therefore the number of stacks up to the limit, and one more for each currency
that is rolled behind it.
-/

namespace AshamaneCore.Looting

section Sizes

variable (w : World) (quest : Bool)

def stacksIn (drop : Drop) : Nat :=
  if drop.item.needsQuest = quest then
    if drop.item.currency then 1
    else if drop.usable then (w.itemTemplate drop.item.itemid).elim 0 (stacksOf drop.count) else 0
  else 0

def lateCurrencies : Nat → List Drop → Nat
  | _, [] => 0
  | before, drop :: drops =>
    (if drop.item.needsQuest = quest ∧ drop.item.currency = true ∧ limit quest ≤ before then 1 else 0) +
      lateCurrencies (before + stacksIn w quest drop) drops

def totalStacks (drops : List Drop) : Nat := (drops.map (stacksIn w quest)).sum

variable {w quest}

theorem size_pushItem (loot : Loot) (q : Bool) (item : LootItem) :
    (pushItem loot q item).size quest = loot.size quest + if q = quest then 1 else 0 := by
  cases q <;> cases quest <;> simp [pushItem, Loot.size]

theorem size_countOrdinary (li : LootStoreItem) (proto : ItemTemplate) (loot : Loot) :
    (countOrdinary li proto loot).size quest = loot.size quest := by
  rw [countOrdinary]
  split <;> rfl

theorem size_addStacks {li : LootStoreItem} {proto : ItemTemplate} (n count : Nat) (loot : Loot) :
    (addStacks w li proto n count loot).size quest =
      if li.needsQuest = quest then max (loot.size quest) (min (limit quest) (loot.size quest + n))
      else loot.size quest := by
  induction n generalizing count loot with
  | zero =>
    rw [addStacks]
    split
    · omega
    · rfl
  | succ n ih =>
    rw [addStacks]
    split
    · rename_i hRoom
      rw [ih, size_countOrdinary, size_pushItem]
      split
      · rename_i hQuest
        rw [hQuest] at hRoom
        omega
      · rfl
    · rename_i hFull
      split
      · rename_i hQuest
        rw [hQuest] at hFull
        omega
      · rfl

theorem size_addItem (loot : Loot) (drop : Drop) :
    (addItem w loot drop).size quest =
      if drop.item.needsQuest = quest ∧ drop.item.currency = true then loot.size quest + 1
      else max (loot.size quest) (min (limit quest) (loot.size quest + stacksIn w quest drop)) := by
  rw [addItem, stacksIn]
  cases hCurrency : drop.item.currency with
  | true =>
    rw [if_pos rfl, size_pushItem]
    split
    · rename_i hQuest
      rw [if_pos ⟨hQuest, rfl⟩]
    · rename_i hQuest
      rw [if_neg fun h => hQuest h.1]
      omega
  | false =>
    rw [if_neg Bool.false_ne_true, if_neg (c := drop.item.needsQuest = quest ∧ false = true)
      fun h => Bool.false_ne_true h.2]
    cases hProto : w.itemTemplate drop.item.itemid with
    | none => simp
    | some proto =>
      cases hUsable : drop.usable with
      | false => simp
      | true =>
        simp only [if_true, size_addStacks, Option.elim_some, Bool.false_eq_true, if_false]
        split
        · rfl
        · omega

theorem size_foldl_addItem {drops : List Drop} {loot : Loot} {before late : Nat}
    (hSize : loot.size quest = min (limit quest) before + late) (hLate : 0 < late → limit quest ≤ before) :
    (drops.foldl (addItem w) loot).size quest =
      min (limit quest) (before + totalStacks w quest drops) + (late + lateCurrencies w quest before drops) := by
  induction drops generalizing loot before late with
  | nil => exact hSize
  | cons drop drops ih =>
    have hStep : (addItem w loot drop).size quest = _ := size_addItem loot drop
    have hRest : ∀ next more, (addItem w loot drop).size quest = min (limit quest) next + more →
        (0 < more → limit quest ≤ next) → (drops.foldl (addItem w) (addItem w loot drop)).size quest =
          min (limit quest) (next + totalStacks w quest drops) + (more + lateCurrencies w quest next drops) :=
      fun _ _ => ih
    rw [List.foldl_cons, totalStacks, List.map_cons, List.sum_cons, lateCurrencies]
    split at hStep
    · rename_i hCurrency
      have hOne : stacksIn w quest drop = 1 := by rw [stacksIn, if_pos hCurrency.1, if_pos hCurrency.2]
      rcases Nat.lt_or_ge before (limit quest) with hRoom | hFull
      · have hNone : ¬ (drop.item.needsQuest = quest ∧ drop.item.currency = true ∧ limit quest ≤ before) :=
          fun h => absurd h.2.2 (by omega)
        rw [hRest (before + 1) late (by omega) (by omega), if_neg hNone, hOne, totalStacks]
        omega
      · rw [hRest (before + 1) (late + 1) (by omega) (by omega), if_pos ⟨hCurrency.1, hCurrency.2, hFull⟩, hOne,
          totalStacks]
        omega
    · rename_i hItem
      have hNone : ¬ (drop.item.needsQuest = quest ∧ drop.item.currency = true ∧ limit quest ≤ before) :=
        fun h => hItem ⟨h.1, h.2.1⟩
      rw [hRest (before + stacksIn w quest drop) late (by omega) (by omega), if_neg hNone, totalStacks]
      omega

theorem size_generate (gold : Nat) (drops : List Drop) :
    (generate w gold drops).size quest =
      min (limit quest) (totalStacks w quest drops) + lateCurrencies w quest 0 drops := by
  have hEmpty : (Loot.empty gold).size quest = min (limit quest) 0 + 0 := by cases quest <;> rfl
  rw [generate, size_foldl_addItem hEmpty (fun h => absurd h (Nat.lt_irrefl 0)), Nat.zero_add, Nat.zero_add]

end Sizes

/-! ## Stacks -/

section Stacks

variable {w : World} {loot : Loot}

/-- Nothing has a count of zero, and no stack more than its template allows. -/
def StackCounts (w : World) (loot : Loot) : Prop :=
  ∀ quest i item, loot.item? quest i = some item → 0 < item.count ∧
    (item.currency = false → ∀ proto, w.itemTemplate item.itemid = some proto → item.count ≤ proto.maxStackSize)

theorem stacksOf_mul_lt (count : Nat) (proto : ItemTemplate) :
    stacksOf count proto * proto.maxStackSize < count + proto.maxStackSize := by
  have hPositive := proto.positive
  have hParts := Nat.div_add_mod count proto.maxStackSize
  rw [Nat.mul_comm] at hParts
  rw [stacksOf, Nat.add_mul]
  split
  · rename_i hRest
    have hPart := Nat.pos_of_ne_zero hRest
    omega
  · omega

theorem StackCounts.push (h : StackCounts w loot) (q : Bool) {item : LootItem}
    (hItem : 0 < item.count ∧
      (item.currency = false → ∀ proto, w.itemTemplate item.itemid = some proto → item.count ≤ proto.maxStackSize)) :
    StackCounts w (pushItem loot q item) := by
  intro quest i other hOther
  rw [item?_pushItem] at hOther
  split at hOther
  · obtain rfl := Option.some.inj hOther
    exact hItem
  · exact h quest i other hOther

theorem StackCounts.countOrdinary (h : StackCounts w loot) (li : LootStoreItem) (proto : ItemTemplate) :
    StackCounts w (countOrdinary li proto loot) := by
  rw [Looting.countOrdinary]
  split
  · exact h
  · exact h

theorem StackCounts.addStacks {li : LootStoreItem} {proto : ItemTemplate}
    (hProto : w.itemTemplate li.itemid = some proto) {n count : Nat}
    (hCount : n * proto.maxStackSize < count + proto.maxStackSize) (h : StackCounts w loot) :
    StackCounts w (addStacks w li proto n count loot) := by
  induction n generalizing count loot with
  | zero => exact h
  | succ n ih =>
    have hPositive := proto.positive
    have hLast : n * proto.maxStackSize < count := by
      rw [Nat.add_mul] at hCount
      omega
    rw [Looting.addStacks]
    split
    · refine ih (by omega) (StackCounts.countOrdinary (h.push _ ⟨?_, ?_⟩) li proto)
      · exact Nat.lt_min.mpr ⟨Nat.zero_lt_of_lt hLast, hPositive⟩
      · intro _ other hOther
        obtain rfl := Option.some.inj (hProto.symm.trans hOther)
        exact Nat.min_le_right _ _
    · exact h

theorem StackCounts.addItem (h : StackCounts w loot) {drop : Drop} (hCount : 0 < drop.count) :
    StackCounts w (addItem w loot drop) := by
  rw [Looting.addItem]
  split
  · rename_i hCurrency
    exact h.push _ ⟨hCount, fun hItem => absurd (hCurrency.symm.trans hItem) Bool.false_ne_true.symm⟩
  · split
    · exact h
    · rename_i proto hProto
      split
      · exact StackCounts.addStacks hProto (stacksOf_mul_lt drop.count proto) h
      · exact h

theorem generate_stackCounts (gold : Nat) {drops : List Drop} (hCounts : ∀ drop ∈ drops, 0 < drop.count) :
    StackCounts w (generate w gold drops) := by
  have hAll : ∀ l, StackCounts w l → StackCounts w (drops.foldl (Looting.addItem w) l) := by
    induction drops with
    | nil => exact fun _ h => h
    | cons drop drops ih =>
      obtain ⟨hFirst, hRest⟩ := List.forall_mem_cons.mp hCounts
      exact fun l h => ih hRest _ (h.addItem hFirst)
  refine hAll _ fun quest i item hItem => ?_
  cases quest <;> cases hItem

end Stacks

end AshamaneCore.Looting

namespace AshamaneCore.LootTemplates

open Library Library.BoundedRecursion

/-! ## Loaded templates -/

namespace LootTemplate

/-- The entries have passed their checks, and references are in no group. -/
structure Valid (c : Config) (t : LootTemplate) : Prop where
  entries : ∀ item ∈ t.entries, item.isValid c = true
  groups : ∀ group, some group ∈ t.groups → ∀ item ∈ group.explicitlyChanced ++ group.equalChanced,
    item.isValid c = true ∧ item.reference = 0

end LootTemplate

variable {c : Config}

variable {item : LootStoreItem}

theorem LootTemplate.Valid.addEntry {t : LootTemplate} (h : t.Valid c)
    (hItem : item.isValid c = true) : (t.addEntry item).Valid c := by
  rw [LootTemplate.addEntry]
  split
  · rename_i hGrouped
    refine ⟨h.entries, fun group hGroup other hOther => ?_⟩
    obtain ⟨i, hi⟩ := List.mem_iff_getElem?.mp hGroup
    rw [List.getElem?_modify] at hi
    obtain ⟨old, hOld, hNew⟩ := Option.map_eq_some_iff.mp hi
    have hKept : ∀ g, old = some g → ∀ o ∈ g.explicitlyChanced ++ g.equalChanced,
        o.isValid c = true ∧ o.reference = 0 := by
      intro g hg o ho
      rcases List.mem_append.mp (List.mem_of_getElem? hOld) with hIn | hPadded
      · exact h.groups g (hg ▸ hIn) o ho
      · rw [hg] at hPadded
        cases List.eq_of_mem_replicate hPadded
    split at hNew
    · have hMem : other ∈ (old.getD ⟨[], []⟩).explicitlyChanced ++ (old.getD ⟨[], []⟩).equalChanced ∨ other = item := by
        obtain rfl := Option.some.inj hNew
        rw [LootGroup.addEntry] at hOther
        split at hOther
        · simp only [List.mem_append, List.mem_singleton] at hOther ⊢
          tauto
        · simp only [List.mem_append, List.mem_singleton] at hOther ⊢
          tauto
      rcases hMem with hBefore | rfl
      · cases hGiven : old with
        | none =>
          rw [hGiven] at hBefore
          exact absurd hBefore List.not_mem_nil
        | some g =>
          rw [hGiven] at hBefore
          exact hKept g hGiven other hBefore
      · exact ⟨hItem, hGrouped.2⟩
    · exact hKept group hNew other hOther
  · refine ⟨fun other hOther => ?_, h.groups⟩
    rcases List.mem_append.mp hOther with hIn | hLast
    · exact h.entries other hIn
    · exact List.mem_singleton.mp hLast ▸ hItem

namespace LootStore

theorem loadRows_valid {rows : List Row} {store : LootStore} (h : ∀ node ∈ store.entries, node.2.Valid c) :
    ∀ node ∈ (loadRows c rows store).entries, node.2.Valid c := by
  induction rows generalizing store with
  | nil => exact h
  | cons row rows ih =>
    rw [loadRows]
    split
    · exact h
    · split
      · rename_i hRow
        refine ih fun node hNode => ?_
        have hNew : ∀ node ∈ (store.emplace (row.entry, ⟨[], []⟩)).entries, node.2.Valid c := by
          intro node hNode
          rcases KeyedSet.mem_emplace.mp hNode with hIn | ⟨rfl, -⟩
          · exact h node hIn
          · exact ⟨fun item hItem => absurd hItem List.not_mem_nil, fun group hGroup => absurd hGroup List.not_mem_nil⟩
        rw [addRow, KeyedSet.mem_alter] at hNode
        rcases hNode with ⟨old, hOld, -, rfl⟩ | ⟨hIn, -⟩
        · exact (hNew old hOld).addEntry hRow
        · exact hNew node hIn
      · exact ih h

theorem getLootFor_valid {rows : List Row} {lootId : Nat} {t : LootTemplate}
    (h : (loadLootTable c rows).getLootFor lootId = some t) : t.Valid c := by
  obtain ⟨node, hNode, rfl⟩ := Option.map_eq_some_iff.mp h
  exact loadRows_valid (fun node hIn => absurd hIn List.not_mem_nil) node (KeyedSet.find?_eq_some_iff.mp hNode).1

end LootStore

/-! ## What processing adds -/

theorem LootStoreItem.counts_of_isValid (h : item.isValid c = true) (hItem : item.reference = 0) :
    0 < item.mincount ∧ item.mincount ≤ item.maxcount := by
  rw [LootStoreItem.isValid] at h
  grind

/-- The loot is made of what was rolled, and everything rolled has a count. -/
structure Made (c : Config) (gold : Nat) (s : Run) : Prop where
  loot : s.loot = Looting.generate c.world gold s.rolled
  counts : ∀ drop ∈ s.rolled, 0 < drop.count

namespace Made

variable {dice : Dice} {gold : Nat} {s : Run}

theorem addItem (h : Made c gold s) (usable : Nat → Bool) {item : LootStoreItem} (hItem : item.isValid c = true)
    (hPlain : item.reference = 0) : Made c gold (s.addItem c dice usable item) := by
  rw [Run.addItem]
  split
  · refine ⟨?_, fun drop hDrop => ?_⟩
    · dsimp only
      rw [Looting.generate, List.foldl_append, ← Looting.generate, ← h.loot]
      rfl
    · rcases List.mem_append.mp hDrop with hIn | hLast
      · exact h.counts drop hIn
      · obtain rfl := List.mem_singleton.mp hLast
        obtain ⟨hPositive, hOrder⟩ := LootStoreItem.counts_of_isValid hItem hPlain
        exact hPositive.trans_le (dice.urand_mem s.drawn _ _ hOrder).1
  · exact h

theorem drawn (h : Made c gold s) (n : Nat) : Made c gold { s with drawn := n } := ⟨h.loot, h.counts⟩

theorem roll (h : Made c gold s) (rate : Bool) (item : LootStoreItem) : Made c gold (s.roll c dice rate item).2 := by
  rw [Run.roll]
  split
  · exact h
  · split
    · exact h.drawn _
    · exact h.drawn _

end Made

theorem explicitly_mem {items : List LootStoreItem} {number : ℚ}
    (h : Run.explicitly items number = some item) : item ∈ items := by
  induction items generalizing number with
  | nil => cases h
  | cons first rest ih =>
    rw [Run.explicitly] at h
    split at h
    · exact Option.some.inj h ▸ List.mem_cons_self
    · split at h
      · exact Option.some.inj h ▸ List.mem_cons_self
      · exact List.mem_cons_of_mem _ (ih h)

theorem rollGroup_mem {dice : Dice} {lootMode : Nat} {group : LootTemplate.LootGroup} {s : Run}
    (h : (s.rollGroup c dice lootMode group).1 = some item) :
    item ∈ group.explicitlyChanced ++ group.equalChanced := by
  rw [Run.rollGroup] at h
  dsimp only at h
  split at h
  · rename_i first hFirst
    obtain rfl := Option.some.inj h
    split at hFirst
    · cases hFirst
    · exact List.mem_append_left _ (List.mem_of_mem_filter (explicitly_mem hFirst))
  · split at h
    · cases h
    · exact List.mem_append_right _ (List.mem_of_mem_filter (List.mem_of_getElem? h))

namespace Made

variable {dice : Dice} {gold lootMode : Nat} {s : Run}

theorem rollGroup (h : Made c gold s) (group : LootTemplate.LootGroup) :
    Made c gold (s.rollGroup c dice lootMode group).2 := by
  have hFirst : ∀ explicit : List LootStoreItem, Made c gold (if explicit.isEmpty = true then
      ((none : Option LootStoreItem), s)
      else (Run.explicitly explicit (dice.chance s.drawn), { s with drawn := s.drawn + 1 })).2 := by
    intro explicit
    split
    · exact h
    · exact h.drawn _
  rw [Run.rollGroup]
  dsimp only
  split
  · exact hFirst _
  · split
    · exact hFirst _
    · exact (hFirst _).drawn _

theorem processGroup (h : Made c gold s) {group : Option LootTemplate.LootGroup}
    (hValid : ∀ g, group = some g → ∀ item ∈ g.explicitlyChanced ++ g.equalChanced,
      item.isValid c = true ∧ item.reference = 0) : Made c gold (s.processGroup c dice lootMode group) := by
  rw [Run.processGroup.eq_def]
  split
  · exact h
  · rename_i g
    dsimp only
    split
    · exact h.rollGroup g
    · rename_i item hItem
      obtain ⟨hGood, hPlain⟩ := hValid g rfl item (rollGroup_mem hItem)
      exact (h.rollGroup g).addItem _ hGood hPlain

end Made

namespace LootTemplate

variable {dice : Dice} {reference : LootStore} {rate : Bool} {gold lootMode : Nat}
  {whole : LootTemplate → (Nat → Bool) × Run → Option Run}

/-- Processing a valid template keeps the loot made of what was rolled. -/
def KeepsMade (c : Config) (gold : Nat) (t : LootTemplate) (arg : (Nat → Bool) × Run) (next : Run) : Prop :=
  t.Valid c → Made c gold arg.2 → Made c gold next

theorem Valid.group? {t : LootTemplate} (h : t.Valid c) {groupId : Nat} {g : LootGroup}
    (hGroup : t.group? groupId = some g) :
    ∀ item ∈ g.explicitlyChanced ++ g.equalChanced, item.isValid c = true ∧ item.reference = 0 := by
  rw [LootTemplate.group?, Option.join_eq_some_iff] at hGroup
  exact h.groups g (List.mem_of_getElem? hGroup)

theorem repeated_made {f : Run → Option Run} (hf : ∀ s t, Made c gold s → f s = some t → Made c gold t) {n : Nat}
    {s t : Run} (h : Made c gold s) (hRun : repeated f n s = some t) : Made c gold t := by
  induction n generalizing s with
  | zero =>
    obtain rfl := Option.some.inj hRun
    exact h
  | succ n ih =>
    obtain ⟨next, hNext, hRest⟩ := Option.bind_eq_some_iff.mp hRun
    exact ih (hf s next h hNext) hRest

theorem processEntry_made (hReference : ∀ lootId u, reference.getLootFor lootId = some u → u.Valid c)
    (hWhole : Good (KeepsMade c gold) whole) {usable : Nat → Bool} {s t : Run} {item : LootStoreItem}
    (hItem : item.isValid c = true) (h : Made c gold s)
    (hRun : processEntry c dice reference rate lootMode whole usable s item = some t) : Made c gold t := by
  rw [processEntry] at hRun
  split at hRun
  · obtain rfl := Option.some.inj hRun
    exact h
  · dsimp only at hRun
    split at hRun
    · obtain rfl := Option.some.inj hRun
      exact h.roll rate item
    · split at hRun
      · split at hRun
        · obtain rfl := Option.some.inj hRun
          exact h.roll rate item
        · rename_i referenced hFound
          have hValid := hReference _ referenced hFound
          refine repeated_made (fun s next hs hNext => ?_) (h.roll rate item) hRun
          rw [dispatch] at hNext
          split at hNext
          · obtain rfl := Option.some.inj hNext
            exact hs.processGroup fun g hGroup => hValid.group? hGroup
          · exact hWhole referenced (_, s) next hNext hValid hs
      · rename_i hPlain
        obtain rfl := Option.some.inj hRun
        exact (h.roll rate item).addItem usable hItem (Nat.eq_zero_of_not_pos hPlain)

theorem processWhole_good (hReference : ∀ lootId u, reference.getLootFor lootId = some u → u.Valid c)
    (hWhole : Good (KeepsMade c gold) whole) :
    Good (KeepsMade c gold) (processWhole c dice reference rate lootMode whole) := by
  intro t arg next hRun hValid h
  obtain ⟨s, hEntries, hGroups⟩ := Option.bind_eq_some_iff.mp hRun
  have hs := foldlM_preserves (fun item hItem s t hs hNext =>
    processEntry_made hReference hWhole (hValid.entries item hItem) hs hNext) h hEntries
  obtain rfl := Option.some.inj hGroups
  have hAll : ∀ groups : List (Option LootGroup), groups ⊆ t.groups → ∀ s, Made c gold s →
      Made c gold (groups.foldl (Run.processGroup c dice lootMode) s) := by
    intro groups hSub
    induction groups with
    | nil => exact fun s hs => hs
    | cons group groups ih =>
      obtain ⟨hGroup, hRest⟩ := List.cons_subset.mp hSub
      exact fun s hs => ih hRest _ (hs.processGroup fun g hg => hValid.groups g (hg ▸ hGroup))
  exact hAll t.groups (List.Subset.refl _) s hs

theorem process_made {rows referenceRows : List Row} {lootId depth : Nat} {t : LootTemplate} {usable : Nat → Bool}
    {run : Run} (ht : (LootStore.loadLootTable c rows).getLootFor lootId = some t)
    (hRun : process c dice (LootStore.loadLootTable c referenceRows) rate lootMode depth t 0 usable
      ⟨Looting.Loot.empty gold, [], 0⟩ = some run) : Made c gold run := by
  have hReference : ∀ lootId u, (LootStore.loadLootTable c referenceRows).getLootFor lootId = some u → u.Valid c :=
    fun lootId u hu => LootStore.getLootFor_valid hu
  have hBody : ∀ f, Good (KeepsMade c gold) f →
      Good (KeepsMade c gold) (processWhole c dice (LootStore.loadLootTable c referenceRows) rate lootMode f) :=
    fun f hf => processWhole_good hReference hf
  rw [process, dispatch, if_neg (not_not.mpr rfl)] at hRun
  exact unfolded_good hBody depth t _ run hRun (LootStore.getLootFor_valid ht)
    ⟨rfl, fun drop hDrop => absurd hDrop List.not_mem_nil⟩

end LootTemplate

end AshamaneCore.LootTemplates
