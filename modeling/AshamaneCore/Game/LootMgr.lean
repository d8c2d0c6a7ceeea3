import AshamaneCore.Game.Loot
import AshamaneCore.Library.BoundedRecursion
import AshamaneCore.Library.KeyedSet
import Mathlib.Algebra.Order.Ring.Rat
import Mathlib.Data.Rat.Floor
import Mathlib.Tactic.NormNum

/-!
# Loot templates

The rows of a loot table are checked one by one and make up templates. Processing
a template rolls its entries one after another, and an entry with a reference
processes the template of the reference table in its place. Chances and rates are
exact numbers here, and the dice give any numbers in their ranges.
-/

namespace AshamaneCore.LootTemplates

open Library

structure LootStoreItem extends Looting.LootStoreItem where
  reference : Nat
  chance : ℚ
  lootmode : Nat
  groupid : Nat
  mincount : Nat
  maxcount : Nat

structure Config where
  world : Looting.World
  hasCurrency : Nat → Bool
  qualityRate : Nat → ℚ
  rateDropItemReferenced : ℚ
  rateDropItemReferencedAmount : ℚ
  maxDuplicates : Nat

/-- The numbers that are drawn, each under how many were drawn before it. -/
structure Dice where
  chance : Nat → ℚ
  urand : Nat → Nat → Nat → Nat
  chance_nonneg : ∀ i, 0 ≤ chance i
  chance_lt : ∀ i, chance i < 100
  urand_mem : ∀ i low high, low ≤ high → low ≤ urand i low high ∧ urand i low high ≤ high

def lowest : Dice where
  chance _ := 0
  urand _ low _ := low
  chance_nonneg _ := le_refl 0
  chance_lt _ := by norm_num
  urand_mem _ _ _ h := ⟨le_refl _, h⟩

/-- A loot that is being generated, with the entries that were added so far. -/
structure Run where
  loot : Looting.Loot
  rolled : List Looting.Drop
  drawn : Nat

/-! ## Loading -/

structure LootTemplate.LootGroup where
  explicitlyChanced : List LootStoreItem
  equalChanced : List LootStoreItem

structure LootTemplate where
  entries : List LootStoreItem
  groups : List (Option LootTemplate.LootGroup)

structure Row where
  entry : Nat
  item : Int
  reference : Nat
  chance : ℚ
  needsQuest : Bool
  lootmode : Nat
  groupid : Nat
  mincount : Nat
  maxcount : Nat
  conditions : List Nat

def Row.storeItem (row : Row) : LootStoreItem :=
  { itemid := row.item.natAbs, currency := row.item < 0, needsQuest := row.needsQuest, conditions := row.conditions,
    reference := row.reference, chance := row.chance, lootmode := row.lootmode, groupid := row.groupid,
    mincount := row.mincount, maxcount := row.maxcount }

def lowChance : ℚ := ⟨1, 1000000, by decide, by decide⟩

def LootStoreItem.isValid (c : Config) (item : LootStoreItem) : Bool :=
  if item.mincount = 0 then false
  else if item.reference = 0 then
    if !(if item.currency then c.hasCurrency item.itemid else (c.world.itemTemplate item.itemid).isSome) then false
    else if item.chance = 0 ∧ item.groupid = 0 then false
    else if item.chance ≠ 0 ∧ item.chance < lowChance then false
    else decide (item.mincount ≤ item.maxcount)
  else item.needsQuest || decide (item.chance ≠ 0)

namespace LootTemplate

def LootGroup.addEntry (group : LootGroup) (item : LootStoreItem) : LootGroup :=
  if item.chance ≠ 0 then { group with explicitlyChanced := group.explicitlyChanced ++ [item] }
  else { group with equalChanced := group.equalChanced ++ [item] }

def addEntry (t : LootTemplate) (item : LootStoreItem) : LootTemplate :=
  if 0 < item.groupid ∧ item.reference = 0 then
    let groups := t.groups ++ List.replicate (item.groupid - t.groups.length) none
    { t with groups := groups.modify (item.groupid - 1) fun group => some ((group.getD ⟨[], []⟩).addEntry item) }
  else { t with entries := t.entries ++ [item] }

end LootTemplate

abbrev LootStore := KeyedSet (Prod.fst : Nat × LootTemplate → Nat)

namespace LootStore

def getLootFor (store : LootStore) (lootId : Nat) : Option LootTemplate := (store.find? lootId).map Prod.snd

def addRow (store : LootStore) (row : Row) : LootStore :=
  (store.emplace (row.entry, ⟨[], []⟩)).alter row.entry (fun node => (node.1, node.2.addEntry row.storeItem))
    fun _ => rfl

def loadRows (c : Config) : List Row → LootStore → LootStore
  | [], store => store
  | row :: rows, store =>
    if 1 <<< 7 ≤ row.groupid then store
    else if row.storeItem.isValid c then loadRows c rows (store.addRow row)
    else loadRows c rows store

def loadLootTable (c : Config) (rows : List Row) : LootStore := loadRows c rows KeyedSet.empty

end LootStore

/-! ## Rolls -/

namespace Config

variable (c : Config)

def qualityModifier (rate : Bool) (itemid : Nat) : ℚ :=
  match c.world.itemTemplate itemid with
  | some proto => if rate then c.qualityRate proto.quality else 1
  | none => 1

def referenceModifier (rate : Bool) : ℚ := if rate then c.rateDropItemReferenced else 1

def referenceCount (item : LootStoreItem) : Nat := (item.maxcount * c.rateDropItemReferencedAmount).floor.toNat

end Config

namespace Run

variable (c : Config) (dice : Dice)

def rollChance (chance : ℚ) (s : Run) : Bool × Run := (dice.chance s.drawn < chance, { s with drawn := s.drawn + 1 })

def roll (rate : Bool) (item : LootStoreItem) (s : Run) : Bool × Run :=
  if 100 ≤ item.chance then (true, s)
  else if 0 < item.reference then rollChance dice (item.chance * c.referenceModifier rate) s
  else rollChance dice (item.chance * c.qualityModifier rate item.itemid) s

/-- `usable` is what the loot specialization of the player says to an item. -/
def addItem (usable : Nat → Bool) (item : LootStoreItem) (s : Run) : Run :=
  if item.currency || ((c.world.itemTemplate item.itemid).isSome && usable item.itemid) then
    let drop : Looting.Drop := ⟨item.toLootStoreItem, dice.urand s.drawn item.mincount item.maxcount, true⟩
    { loot := Looting.addItem c.world s.loot drop, rolled := s.rolled ++ [drop], drawn := s.drawn + 1 }
  else s

def possible (lootMode : Nat) (s : Run) (item : LootStoreItem) : Bool :=
  item.lootmode &&& lootMode ≠ 0 &&
    s.loot.items.countP (fun loot => loot.itemid = item.itemid) < c.maxDuplicates

def explicitly : List LootStoreItem → ℚ → Option LootStoreItem
  | [], _ => none
  | item :: rest, number =>
    if 100 ≤ item.chance then some item
    else if number - item.chance < 0 then some item
    else explicitly rest (number - item.chance)

def rollGroup (lootMode : Nat) (group : LootTemplate.LootGroup) (s : Run) : Option LootStoreItem × Run :=
  let explicit := group.explicitlyChanced.filter (possible c lootMode s)
  let equal := group.equalChanced.filter (possible c lootMode s)
  let rolled : Option LootStoreItem × Run :=
    if explicit.isEmpty then (none, s)
    else (explicitly explicit (dice.chance s.drawn), { s with drawn := s.drawn + 1 })
  match rolled.1 with
  | some item => (some item, rolled.2)
  | none =>
    if equal.isEmpty then (none, rolled.2)
    else (equal[dice.urand rolled.2.drawn 0 (equal.length - 1)]?, { rolled.2 with drawn := rolled.2.drawn + 1 })

def processGroup (lootMode : Nat) (s : Run) (group : Option LootTemplate.LootGroup) : Run :=
  match group with
  | none => s
  | some group =>
    let rolled := rollGroup c dice lootMode group s
    match rolled.1 with
    | none => rolled.2
    | some item => rolled.2.addItem c dice (fun _ => true) item

end Run

/-! ## Processing -/

namespace LootTemplate

def group? (t : LootTemplate) (groupId : Nat) : Option LootGroup := (t.groups[groupId - 1]?).join

section

variable (c : Config) (dice : Dice) (reference : LootStore) (rate : Bool) (lootMode : Nat)

def dispatch (whole : LootTemplate → (Nat → Bool) × Run → Option Run) (t : LootTemplate) (groupId : Nat)
    (usable : Nat → Bool) (s : Run) : Option Run :=
  if groupId ≠ 0 then some (s.processGroup c dice lootMode (t.group? groupId)) else whole t (usable, s)

def repeated (f : Run → Option Run) : Nat → Run → Option Run
  | 0, s => some s
  | n + 1, s => (f s).bind (repeated f n)

def processEntry (whole : LootTemplate → (Nat → Bool) × Run → Option Run) (usable : Nat → Bool) (s : Run)
    (item : LootStoreItem) : Option Run :=
  if item.lootmode &&& lootMode = 0 then some s
  else
    let rolled := s.roll c dice rate item
    if rolled.1 = false then some rolled.2
    else if 0 < item.reference then
      match reference.getLootFor item.reference with
      | none => some rolled.2
      | some referenced =>
        repeated (dispatch c dice lootMode whole referenced item.groupid fun _ => true) (c.referenceCount item) rolled.2
    else some (rolled.2.addItem c dice usable item)

def processWhole (whole : LootTemplate → (Nat → Bool) × Run → Option Run) (t : LootTemplate)
    (arg : (Nat → Bool) × Run) : Option Run := do
  let s ← t.entries.foldlM (processEntry c dice reference rate lootMode whole arg.1) arg.2
  return t.groups.foldl (Run.processGroup c dice lootMode) s

def process (depth : Nat) (t : LootTemplate) (groupId : Nat) (usable : Nat → Bool) (s : Run) : Option Run :=
  dispatch c dice lootMode (BoundedRecursion.unfolded (processWhole c dice reference rate lootMode) depth)
    t groupId usable s

end

/-! ## Quest drops -/

def LootGroup.hasQuestDrop (group : LootGroup) : Bool :=
  group.explicitlyChanced.any (fun item => item.needsQuest) || group.equalChanced.any fun item => item.needsQuest

section

variable (store : LootStore)

def dispatchQuest (whole : LootTemplate → Unit → Option Bool) (t : LootTemplate) (groupId : Nat) : Option Bool :=
  if groupId ≠ 0 then some ((t.group? groupId).any LootGroup.hasQuestDrop) else whole t ()

def hasQuestEntry (whole : LootTemplate → Unit → Option Bool) (item : LootStoreItem) : Option Bool :=
  if 0 < item.reference then
    match store.getLootFor item.reference with
    | none => some false
    | some referenced => dispatchQuest whole referenced item.groupid
  else some item.needsQuest

def hasQuestDropWhole (whole : LootTemplate → Unit → Option Bool) (t : LootTemplate) (_ : Unit) : Option Bool := do
  if ← t.entries.anyM (hasQuestEntry store whole) then return true
  return t.groups.any fun group => group.any LootGroup.hasQuestDrop

def hasQuestDrop (depth : Nat) (t : LootTemplate) (groupId : Nat) : Option Bool :=
  dispatchQuest (BoundedRecursion.unfolded (hasQuestDropWhole store) depth) t groupId

end

end LootTemplate

end AshamaneCore.LootTemplates
