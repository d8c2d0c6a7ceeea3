import AshamaneCore.Game.GuildBank
import AshamaneCore.Library.Tally

/-!
# Moves within the guild bank

A move between two slots of the bank keeps the number of items of every entry, never puts
one item into two slots or overfills one, and leaves everything as it was when it is
refused.
-/

namespace AshamaneCore.Guilds

open Library

section Moves

variable (getMaxStackCount : UInt32 → UInt32)

/-- What lies in the slots: stacks within their size, each item in one slot, no guid used
beyond the generator's. -/
structure WellStocked (items : BankPos → Option Item) (nextItemGuid : Nat) : Prop where
  counts : ∀ pos item, items pos = some item →
    1 ≤ item.count.toNat ∧ item.count.toNat ≤ (getMaxStackCount item.entry).toNat
  once : ∀ pos other a b, items pos = some a → items other = some b → a.guid = b.guid → pos = other
  known : ∀ pos item, items pos = some item → item.guid < nextItemGuid

def entryCount (entry : UInt32) (slot : Option Item) : Nat :=
  slot.elim 0 fun item => if item.entry = entry then item.count.toNat else 0

def totalCount (items : BankPos → Option Item) (entry : UInt32) : Nat :=
  ∑ pos, entryCount entry (items pos)

theorem totalCount_update (items : BankPos → Option Item) (pos : BankPos) (slot : Option Item)
    (entry : UInt32) :
    totalCount (Function.update items pos slot) entry + entryCount entry (items pos) =
      totalCount items entry + entryCount entry slot :=
  Tally.sum_update items (entryCount entry) pos slot

variable {getMaxStackCount} {items : BankPos → Option Item} {nextItemGuid : Nat}

variable {next : Nat}

theorem WellStocked.mono (h : WellStocked getMaxStackCount items nextItemGuid)
    (hNext : nextItemGuid ≤ next) : WellStocked getMaxStackCount items next :=
  ⟨h.counts, h.once, fun pos item hItem => (h.known pos item hItem).trans_le hNext⟩

theorem WellStocked.clear (h : WellStocked getMaxStackCount items nextItemGuid) (pos : BankPos) :
    WellStocked getMaxStackCount (Function.update items pos none) nextItemGuid := by
  have hOld : ∀ other item, Function.update items pos none other = some item →
      items other = some item := by
    intro other item hItem
    by_cases hSame : other = pos
    · rw [hSame, Function.update_self] at hItem
      cases hItem
    · rwa [Function.update_of_ne hSame] at hItem
  exact ⟨fun other item hItem => h.counts other item (hOld other item hItem),
    fun first second a b ha hb => h.once first second a b (hOld first a ha) (hOld second b hb),
    fun other item hItem => h.known other item (hOld other item hItem)⟩

variable {pos : BankPos} {item : Item}

theorem WellStocked.place (h : WellStocked getMaxStackCount items nextItemGuid)
    (hElsewhere : ∀ other old, other ≠ pos → items other = some old → old.guid ≠ item.guid)
    (hKnown : item.guid < nextItemGuid) (hPos : 1 ≤ item.count.toNat)
    (hMax : item.count.toNat ≤ (getMaxStackCount item.entry).toNat) :
    WellStocked getMaxStackCount (Function.update items pos (some item)) nextItemGuid := by
  have hCases : ∀ other found, Function.update items pos (some item) other = some found →
      other = pos ∧ found = item ∨ other ≠ pos ∧ items other = some found := by
    intro other found hFound
    by_cases hSame : other = pos
    · rw [hSame, Function.update_self, Option.some_inj] at hFound
      exact Or.inl ⟨hSame, hFound.symm⟩
    · rw [Function.update_of_ne hSame] at hFound
      exact Or.inr ⟨hSame, hFound⟩
  refine ⟨?_, ?_, ?_⟩
  · intro other found hFound
    obtain ⟨-, rfl⟩ | ⟨-, hOld⟩ := hCases other found hFound
    · exact ⟨hPos, hMax⟩
    · exact h.counts other found hOld
  · intro first second a b ha hb hGuid
    obtain ⟨hFirst, rfl⟩ | ⟨hFirst, hOldA⟩ := hCases first a ha
    · obtain ⟨hSecond, -⟩ | ⟨hSecond, hOldB⟩ := hCases second b hb
      · exact hFirst.trans hSecond.symm
      · exact absurd hGuid.symm (hElsewhere second b hSecond hOldB)
    · obtain ⟨-, rfl⟩ | ⟨-, hOldB⟩ := hCases second b hb
      · exact absurd hGuid (hElsewhere first a hFirst hOldA)
      · exact h.once first second a b hOldA hOldB hGuid
  · intro other found hFound
    obtain ⟨-, rfl⟩ | ⟨-, hOld⟩ := hCases other found hFound
    · exact hKnown
    · exact h.known other found hOld

/-! ## Reservation -/

/-- Places for an item among the slots of a tab: each once, with room for what it takes. -/
structure Fits (getMaxStackCount : UInt32 → UInt32) (item : Item) (slots : BankSlotId → Option Item)
    (vec : List (BankSlotId × UInt32)) : Prop where
  nodup : (vec.map Prod.fst).Nodup
  some_of : ∀ pos ∈ vec, 1 ≤ pos.2.toNat
  room : ∀ pos ∈ vec, (slots pos.1).elim 0 (fun dest => dest.count.toNat) + pos.2.toNat ≤
    (getMaxStackCount item.entry).toNat
  same : ∀ pos ∈ vec, ∀ dest, slots pos.1 = some dest → dest.entry = item.entry

def reservedCount : List (BankSlotId × UInt32) → Nat
  | [] => 0
  | pos :: rest => pos.2.toNat + reservedCount rest

theorem reservedCount_concat (vec : List (BankSlotId × UInt32)) (pos : BankSlotId × UInt32) :
    reservedCount (vec ++ [pos]) = reservedCount vec + pos.2.toNat := by
  induction vec with
  | nil => exact Nat.add_comm ..
  | cons first rest ih =>
    rw [List.cons_append, reservedCount, reservedCount, ih, Nat.add_assoc]

/-- Places that fit, and a count that makes up the item with what is reserved. -/
structure Reserves (getMaxStackCount : UInt32 → UInt32) (item : Item) (slots : BankSlotId → Option Item)
    (r : Reserving) : Prop where
  fits : Fits getMaxStackCount item slots r.vec
  count : reservedCount r.vec + r.count.toNat = item.count.toNat

theorem requiredSpace_spec {dest : Option Item} {space : UInt32}
    (hMax : 1 ≤ (getMaxStackCount item.entry).toNat)
    (h : requiredSpace getMaxStackCount item dest = some space) :
    1 ≤ space.toNat ∧
      dest.elim 0 (fun dest => dest.count.toNat) + space.toNat = (getMaxStackCount item.entry).toNat ∧
      ∀ old, dest = some old → old.entry = item.entry := by
  cases dest with
  | none =>
    obtain rfl := Option.some.inj h
    exact ⟨hMax, Nat.zero_add _, fun old hOld => by cases hOld⟩
  | some old =>
    rw [requiredSpace] at h
    split at h
    · cases h
    · rename_i hUsable
      obtain rfl := Option.some.inj h
      rw [Bool.or_eq_true, decide_eq_true_iff, decide_eq_true_iff, not_or, not_not, UInt32.not_le] at hUsable
      obtain ⟨hEntry, hLess⟩ := hUsable
      have hLt := UInt32.lt_iff_toNat_lt.mp hLess
      rw [Option.elim_some, UInt32.toNat_sub_of_le _ _ (UInt32.le_of_lt hLess)]
      refine ⟨by omega, by omega, fun other hOther => ?_⟩
      rw [← Option.some.inj hOther]
      exact hEntry

variable {slots : BankSlotId → Option Item} {vec : List (BankSlotId × UInt32)}

theorem Fits.append (h : Fits getMaxStackCount item slots vec) {pos : BankSlotId × UInt32}
    (hFresh : pos.1 ∉ vec.map Prod.fst) (hSome : 1 ≤ pos.2.toNat)
    (hRoom : (slots pos.1).elim 0 (fun dest => dest.count.toNat) + pos.2.toNat ≤
      (getMaxStackCount item.entry).toNat)
    (hEntry : ∀ dest, slots pos.1 = some dest → dest.entry = item.entry) :
    Fits getMaxStackCount item slots (vec ++ [pos]) := by
  have hCases : ∀ other ∈ vec ++ [pos], other ∈ vec ∨ other = pos := by
    intro other hOther
    rwa [List.mem_append, List.mem_singleton] at hOther
  refine ⟨?_, ?_, ?_, ?_⟩
  · rw [List.map_append, List.nodup_append]
    refine ⟨h.nodup, List.nodup_singleton _, fun a ha b hb => ?_⟩
    obtain rfl := List.mem_singleton.mp hb
    exact fun hSame => hFresh (hSame ▸ ha)
  · intro other hOther
    obtain hOld | rfl := hCases other hOther
    · exact h.some_of other hOld
    · exact hSome
  · intro other hOther
    obtain hOld | rfl := hCases other hOther
    · exact h.room other hOld
    · exact hRoom
  · intro other hOther
    obtain hOld | rfl := hCases other hOther
    · exact h.same other hOld
    · exact hEntry

theorem toNat_min (a b : UInt32) : (min a b).toNat = min a.toNat b.toNat := by
  change (if a ≤ b then a else b).toNat = _
  split
  · rename_i h
    rw [Nat.min_eq_left (UInt32.le_iff_toNat_le.mp h)]
  · rename_i h
    rw [Nat.min_eq_right (Nat.le_of_not_le (mt UInt32.le_iff_toNat_le.mpr h))]

variable {r : Reserving} {slot : BankSlotId}

theorem Reserves.reserveSpace {next : Reserving} (h : Reserves getMaxStackCount item slots r) (hLeft : r.count ≠ 0)
    (hMax : 1 ≤ (getMaxStackCount item.entry).toNat)
    (hNext : r.reserveSpace getMaxStackCount slot item (slots slot) = some next) :
    Reserves getMaxStackCount item slots next := by
  rw [Reserving.reserveSpace] at hNext
  obtain ⟨space, hSpace, rfl⟩ := Option.map_eq_some_iff.mp hNext
  obtain ⟨hSome, hRoom, hEntry⟩ := requiredSpace_spec hMax hSpace
  split
  · exact h
  · rename_i hNew
    have hLeftNat : r.count.toNat ≠ 0 := fun hZero => hLeft (UInt32.toNat.inj hZero)
    have hMin := toNat_min space r.count
    have hLe : min space r.count ≤ r.count := by
      rw [UInt32.le_iff_toNat_le, hMin]
      exact Nat.min_le_right _ _
    have hFresh : slot ∉ r.vec.map Prod.fst := by
      intro hIn
      obtain ⟨pos, hPos, rfl⟩ := List.mem_map.mp hIn
      exact hNew (List.any_eq_true.mpr ⟨pos, hPos, decide_eq_true rfl⟩)
    have hTaken : 1 ≤ (min space r.count).toNat := by
      rw [hMin]
      exact Nat.le_min.mpr ⟨hSome, Nat.one_le_iff_ne_zero.mpr hLeftNat⟩
    have hBelow : (min space r.count).toNat ≤ space.toNat := by
      rw [hMin]
      exact Nat.min_le_left _ _
    constructor
    · apply h.fits.append hFresh hTaken _ hEntry
      exact (Nat.add_le_add_left hBelow _).trans hRoom.le
    · have hCount := h.count
      have hLessNat := UInt32.le_iff_toNat_le.mp hLe
      rw [reservedCount_concat, UInt32.toNat_sub_of_le _ _ hLe, Nat.add_assoc, Nat.add_sub_cancel' hLessNat]
      exact hCount

variable {g : Guild} {container : BankTabId}

theorem Reserves.canStoreItemInTab {skipSlotId : Option BankSlotId} {merge : Bool}
    (h : Reserves getMaxStackCount item slots r) (hMax : 1 ≤ (getMaxStackCount item.entry).toNat)
    (hSlots : ∀ slot, skipSlotId ≠ some slot → slots slot = seenBy item (g.getItem container slot)) :
    Reserves getMaxStackCount item slots
      (r.canStoreItemInTab getMaxStackCount g container item skipSlotId merge) := by
  rw [Reserving.canStoreItemInTab]
  apply List.foldlRecOn (motive := Reserves getMaxStackCount item slots) _ _ h
  intro r hr slot _
  rw [Reserving.searchSlot]
  split
  · exact hr
  · rename_i hSearch
    rw [Bool.or_eq_true, Bool.or_eq_true, not_or, not_or, decide_eq_true_iff, decide_eq_true_iff] at hSearch
    rw [← hSlots slot hSearch.1.2]
    cases hNext : r.reserveSpace getMaxStackCount slot item (slots slot) with
    | none => exact hr
    | some next => exact hr.reserveSpace hSearch.1.1 hMax hNext

/-- The slots of a tab where a move puts its item: those of the moved items are free. -/
def freedSlots (g : Guild) (container : BankTabId) (slotId : Option BankSlotId) (item : Item)
    (swap : Bool) (slot : BankSlotId) : Option Item :=
  if swap && slotId = some slot then none else seenBy item (g.getItem container slot)

theorem Reserves.start (item : Item) (slots : BankSlotId → Option Item) :
    Reserves getMaxStackCount item slots ⟨[], item.count⟩ := by
  refine ⟨⟨List.nodup_nil, ?_, ?_, ?_⟩, Nat.zero_add _⟩ <;>
    exact fun pos hIn => absurd hIn List.not_mem_nil

variable {slotId : Option BankSlotId} {swap : Bool}

theorem reserves_named (hPos : 1 ≤ item.count.toNat)
    (hMax : 1 ≤ (getMaxStackCount item.entry).toNat)
    (h : reserveNamed getMaxStackCount g container slotId item swap = some r) :
    Reserves getMaxStackCount item (freedSlots g container slotId item swap) r := by
  have hStart : Reserves getMaxStackCount item (freedSlots g container slotId item swap) ⟨[], item.count⟩ :=
    Reserves.start item _
  cases slotId with
  | none =>
    obtain rfl := Option.some.inj h
    exact hStart
  | some slot =>
    have hLeft : item.count ≠ 0 := by
      rintro hZero
      rw [hZero] at hPos
      exact absurd hPos (by decide)
    apply hStart.reserveSpace hLeft hMax
    rw [← h, freedSlots, decide_eq_true rfl, Bool.and_true]
    rfl

theorem Reserves.searchTab (hMax : 1 ≤ (getMaxStackCount item.entry).toNat)
    (h : Reserves getMaxStackCount item (freedSlots g container slotId item swap) r) :
    Reserves getMaxStackCount item (freedSlots g container slotId item swap)
      (searchTab getMaxStackCount g container slotId item r) := by
  have hSlots : ∀ slot, slotId ≠ some slot →
      freedSlots g container slotId item swap slot = seenBy item (g.getItem container slot) := by
    intro slot hSlot
    rw [freedSlots, decide_eq_false hSlot, Bool.and_false]
    rfl
  rw [Guilds.searchTab]
  apply Reserves.canStoreItemInTab _ hMax hSlots
  split
  · exact h.canStoreItemInTab hMax hSlots
  · exact h

theorem canStoreInBank_ok (h : canStoreInBank getMaxStackCount g container slotId item swap = .ok vec) :
    container.val < g.bankTabs.purchased ∧
      ∃ r, reserveNamed getMaxStackCount g container slotId item swap = some r ∧
        (searchTab getMaxStackCount g container slotId item r).count = 0 ∧
        vec = (searchTab getMaxStackCount g container slotId item r).vec := by
  rw [canStoreInBank] at h
  split at h
  · cases h
  split at h
  · cases h
  rename_i hTab
  split at h
  · cases h
  rename_i r hNamed
  rw [Reserving.places] at h
  split at h
  · rename_i hDone
    exact ⟨Nat.lt_of_not_le hTab, r, hNamed, hDone, (Except.ok.inj h).symm⟩
  · cases h

theorem canStoreInBank_fits (hPos : 1 ≤ item.count.toNat)
    (hMax : item.count.toNat ≤ (getMaxStackCount item.entry).toNat)
    (h : canStoreInBank getMaxStackCount g container slotId item swap = .ok vec) :
    Fits getMaxStackCount item (freedSlots g container slotId item swap) vec ∧
      reservedCount vec = item.count.toNat := by
  have hOne := hPos.trans hMax
  obtain ⟨-, r, hNamed, hDone, hVec⟩ := canStoreInBank_ok h
  have hStart : Reserves getMaxStackCount item (freedSlots g container slotId item swap) r :=
    reserves_named hPos hOne hNamed
  have hReserves := hStart.searchTab hOne
  have hCount := hReserves.count
  rw [hDone, UInt32.toNat_zero, Nat.add_zero] at hCount
  rw [hVec]
  exact ⟨hReserves.fits, hCount⟩

theorem Fits.mono {less : BankSlotId → Option Item} (h : Fits getMaxStackCount item slots vec)
    (hLess : ∀ pos ∈ vec, ∀ dest, less pos.1 = some dest →
      ∃ old, slots pos.1 = some old ∧ old.entry = dest.entry ∧ dest.count.toNat ≤ old.count.toNat) :
    Fits getMaxStackCount item less vec := by
  refine ⟨h.nodup, h.some_of, ?_, ?_⟩
  · intro pos hPos
    have hRoom := h.room pos hPos
    cases hSlot : less pos.1 with
    | none =>
      rw [Option.elim_none, Nat.zero_add]
      exact (Nat.le_add_left _ _).trans hRoom
    | some dest =>
      obtain ⟨old, hOld, -, hCount⟩ := hLess pos hPos dest hSlot
      rw [hOld, Option.elim_some] at hRoom
      rw [Option.elim_some]
      exact (Nat.add_le_add_right hCount _).trans hRoom
  · intro pos hPos dest hSlot
    obtain ⟨old, hOld, hEntry, -⟩ := hLess pos hPos dest hSlot
    rw [← hEntry]
    exact h.same pos hPos old hOld

theorem Fits.tail {pos : BankSlotId × UInt32}
    {rest : List (BankSlotId × UInt32)} (h : Fits getMaxStackCount item slots (pos :: rest)) :
    Fits getMaxStackCount item slots rest :=
  ⟨(List.nodup_cons.mp h.nodup).2, fun other hOther => h.some_of other (List.mem_cons_of_mem _ hOther),
    fun other hOther => h.room other (List.mem_cons_of_mem _ hOther),
    fun other hOther => h.same other (List.mem_cons_of_mem _ hOther)⟩

theorem getItem_of_lt (h : container.val < g.bankTabs.purchased)
    (slot : BankSlotId) : g.getItem container slot = g.bankTabs.items (container, slot) := if_pos h

theorem getItem_some (h : g.getItem container slot = some item) :
    container.val < g.bankTabs.purchased ∧ g.bankTabs.items (container, slot) = some item := by
  rw [Guild.getItem] at h
  split at h
  · rename_i hTab
    exact ⟨hTab, h⟩
  · cases h

/-! ## Storing -/

variable {ι : Type}

/-- One world follows another after some items of an entry were put into the bank. -/
structure Gains (getMaxStackCount : UInt32 → UInt32) (w next : BankWorld ι) (entry : UInt32)
    (count : Nat) : Prop where
  stocked : WellStocked getMaxStackCount next.guild.bankTabs.items next.nextItemGuid
  total : ∀ e, totalCount next.guild.bankTabs.items e =
    totalCount w.guild.bankTabs.items e + if entry = e then count else 0
  purchased : next.guild.bankTabs.purchased = w.guild.bankTabs.purchased
  generator : w.nextItemGuid ≤ next.nextItemGuid

structure Loose (w : BankWorld ι) (item : Item) : Prop where
  nowhere : ∀ pos old, w.guild.bankTabs.items pos = some old → old.guid ≠ item.guid
  known : item.guid < w.nextItemGuid

def slotCount (slot : Option Item) : Nat := slot.elim 0 fun item => item.count.toNat

theorem entryCount_some (entry : UInt32) (item : Item) :
    entryCount entry (some item) = if item.entry = entry then item.count.toNat else 0 := rfl

theorem entryCount_of_same {entry : UInt32} {slot : Option Item}
    (h : ∀ old, slot = some old → old.entry = entry) (e : UInt32) :
    entryCount e slot = if entry = e then slotCount slot else 0 := by
  cases slot with
  | none =>
    rw [slotCount, Option.elim_none, ite_self]
    rfl
  | some old =>
    rw [entryCount_some, h old rfl]
    rfl

variable {w : BankWorld ι}

theorem Gains.place {placed : Item} {entry : UInt32} {count : Nat}
    (h : WellStocked getMaxStackCount w.guild.bankTabs.items w.nextItemGuid) (hNext : w.nextItemGuid ≤ next)
    (hEntry : placed.entry = entry)
    (hElsewhere : ∀ other old, other ≠ pos → w.guild.bankTabs.items other = some old →
      old.guid ≠ placed.guid)
    (hKnown : placed.guid < next)
    (hSame : ∀ old, w.guild.bankTabs.items pos = some old → old.entry = entry)
    (hCount : placed.count.toNat = slotCount (w.guild.bankTabs.items pos) + count) (hSome : 1 ≤ count)
    (hMax : placed.count.toNat ≤ (getMaxStackCount entry).toNat) :
    Gains getMaxStackCount w { w with guild := w.guild.setItem pos (some placed), nextItemGuid := next }
      entry count := by
  subst hEntry
  refine ⟨(h.mono hNext).place hElsewhere hKnown ?_ hMax, ?_, rfl, hNext⟩
  · exact hSome.trans (hCount ▸ Nat.le_add_left _ _)
  · intro e
    have hTotal := totalCount_update w.guild.bankTabs.items pos (some placed) e
    rw [entryCount_of_same hSame, entryCount_some, hCount] at hTotal
    simp only [Guild.setItem]
    by_cases hEntry : placed.entry = e
    · rw [if_pos hEntry, if_pos hEntry] at hTotal
      rw [if_pos hEntry]
      omega
    · rw [if_neg hEntry, if_neg hEntry] at hTotal
      rw [if_neg hEntry]
      omega

theorem Loose.place {placed : Item} (h : Loose w item)
    (hNext : w.nextItemGuid ≤ next) (hOther : placed.guid ≠ item.guid) :
    Loose { w with guild := w.guild.setItem pos (some placed), nextItemGuid := next } item := by
  refine ⟨fun other old hOld => ?_, h.known.trans_le hNext⟩
  simp only [Guild.setItem] at hOld
  by_cases hPos : other = pos
  · rw [hPos, Function.update_self, Option.some_inj] at hOld
    rw [← hOld]
    exact hOther
  · rw [Function.update_of_ne hPos] at hOld
    exact h.nowhere other old hOld

structure StoresAt (getMaxStackCount : UInt32 → UInt32) (w next : BankWorld ι) (item : Item) (pos : BankPos)
    (count : Nat) (clone : Bool) : Prop where
  gains : Gains getMaxStackCount w next item.entry count
  loose : clone = true → Loose next item
  frame : ∀ other, other ≠ pos → next.guild.bankTabs.items other = w.guild.bankTabs.items other

theorem storesAt_storeAt {pos : BankSlotId × UInt32} (clone : Bool)
    (h : WellStocked getMaxStackCount w.guild.bankTabs.items w.nextItemGuid)
    (hTab : container.val < w.guild.bankTabs.purchased) (hLoose : Loose w item)
    (hSome : 1 ≤ pos.2.toNat)
    (hRoom : slotCount (w.guild.bankTabs.items (container, pos.1)) + pos.2.toNat ≤
      (getMaxStackCount item.entry).toNat)
    (hSame : ∀ dest, w.guild.bankTabs.items (container, pos.1) = some dest → dest.entry = item.entry) :
    StoresAt getMaxStackCount w (w.storeAt container item pos clone) item (container, pos.1)
      pos.2.toNat clone := by
  have hFrame : ∀ placed next other, other ≠ (container, pos.1) →
      ({ w with guild := w.guild.setItem (container, pos.1) placed, nextItemGuid := next } :
        BankWorld ι).guild.bankTabs.items other = w.guild.bankTabs.items other :=
    fun placed next other hOther => Function.update_of_ne hOther _ _
  rw [BankWorld.storeAt, getItem_of_lt hTab]
  cases hSlot : w.guild.bankTabs.items (container, pos.1) with
  | some dest =>
    rw [hSlot] at hRoom
    have hEntry : ({ dest with count := dest.count + pos.2 } : Item).entry = item.entry := hSame dest hSlot
    have hCount : (dest.count + pos.2).toNat = dest.count.toNat + pos.2.toNat := by
      have hBelow := UInt32.toNat_lt (getMaxStackCount item.entry)
      rw [UInt32.toNat_add, Nat.mod_eq_of_lt]
      exact hRoom.trans_lt hBelow
    have hKnown := h.known _ _ hSlot
    have hGuid : dest.guid ≠ item.guid := hLoose.nowhere _ _ hSlot
    have hElsewhere : ∀ other old, other ≠ (container, pos.1) → w.guild.bankTabs.items other = some old →
        old.guid ≠ dest.guid :=
      fun other old hOther hOld hEq => hOther (h.once _ _ _ _ hOld hSlot hEq)
    refine ⟨?_, fun _ => hLoose.place le_rfl hGuid, hFrame _ _⟩
    apply Gains.place h le_rfl hEntry hElsewhere hKnown hSame _ hSome (hCount.trans_le hRoom)
    rw [hSlot]
    exact hCount
  | none =>
    rw [hSlot] at hRoom
    have hNone : ∀ old, w.guild.bankTabs.items (container, pos.1) = some old → old.entry = item.entry := by
      intro old hOld
      rw [hSlot] at hOld
      cases hOld
    have hMax : pos.2.toNat ≤ (getMaxStackCount item.entry).toNat := (Nat.le_add_left _ _).trans hRoom
    have hCount : pos.2.toNat = slotCount (w.guild.bankTabs.items (container, pos.1)) + pos.2.toNat := by
      rw [hSlot]
      exact (Nat.zero_add _).symm
    cases clone with
    | true =>
      refine ⟨?_, fun _ => hLoose.place (Nat.le_succ _) (Nat.ne_of_gt hLoose.known), hFrame _ _⟩
      exact Gains.place h (Nat.le_succ _) rfl (fun other old _ hOld => Nat.ne_of_lt (h.known other old hOld))
        (Nat.lt_succ_self _) hNone hCount hSome hMax
    | false =>
      refine ⟨?_, fun hClone => absurd hClone Bool.false_ne_true, hFrame _ _⟩
      exact Gains.place h le_rfl rfl (fun other old _ hOld => hLoose.nowhere other old hOld)
        hLoose.known hNone hCount hSome hMax

theorem gains_storeInBank (h : WellStocked getMaxStackCount w.guild.bankTabs.items w.nextItemGuid)
    (hTab : container.val < w.guild.bankTabs.purchased) (hLoose : Loose w item)
    (hFits : Fits getMaxStackCount item (fun slot => w.guild.bankTabs.items (container, slot)) vec) (hSome : vec ≠ []) :
    Gains getMaxStackCount w (BankWorld.storeInBank container item w vec) item.entry (reservedCount vec) := by
  induction vec generalizing w with
  | nil => exact absurd rfl hSome
  | cons pos rest ih =>
    have hStep := storesAt_storeAt (!rest.isEmpty) h hTab hLoose (hFits.some_of pos List.mem_cons_self)
      (hFits.room pos List.mem_cons_self) (hFits.same pos List.mem_cons_self)
    obtain ⟨hGains, hLooseNext, hFrame⟩ := hStep
    rw [BankWorld.storeInBank]
    cases rest with
    | nil => exact hGains
    | cons next rest =>
      have hTabNext := hTab.trans_eq hGains.purchased.symm
      have hFitsNext : Fits getMaxStackCount item (fun slot =>
          (w.storeAt container item pos true).guild.bankTabs.items (container, slot)) (next :: rest) := by
        apply hFits.tail.mono
        intro other hOther dest hDest
        have hSlot : (container, other.1) ≠ (container, pos.1) := by
          intro hSame
          have hNotIn := (List.nodup_cons.mp hFits.nodup).1
          rw [← (Prod.mk.inj hSame).2] at hNotIn
          exact hNotIn (List.mem_map.mpr ⟨other, hOther, rfl⟩)
        exact ⟨dest, (hFrame _ hSlot).symm.trans hDest, rfl, le_rfl⟩
      have hRest := ih hGains.stocked hTabNext (hLooseNext rfl) hFitsNext (List.cons_ne_nil _ _)
      refine ⟨hRest.stocked, fun e => ?_, hRest.purchased.trans hGains.purchased,
        hGains.generator.trans hRest.generator⟩
      have hSum : reservedCount (pos :: next :: rest) = pos.2.toNat + reservedCount (next :: rest) := rfl
      have hTotalNext := hRest.total e
      rw [hGains.total e] at hTotalNext
      rw [hSum, hTotalNext]
      split <;> omega

/-! ## Whole and split moves -/

variable (inv : Inventory ι)

theorem removeItem_bank (w : BankWorld ι) (player : ObjectGuid) (item : Item) (other : MoveItemData)
    (splitedAmount : UInt32) (tab : BankTabId) (slot : BankSlotId) :
    let next := w.removeItem inv player item other splitedAmount (.bank tab (some slot))
    next.guild.bankTabs = (w.guild.setItem (tab, slot)
      (if splitedAmount ≠ 0 then some { item with count := item.count - splitedAmount } else none)).bankTabs ∧
      next.nextItemGuid = w.nextItemGuid := by
  dsimp only [BankWorld.removeItem]
  by_cases hTab : (MoveItemData.bank tab (some slot)).sameTab other = true
  · rw [if_pos hTab]
    exact ⟨rfl, rfl⟩
  · rw [if_neg hTab]
    exact ⟨rfl, rfl⟩

/-- A world with the same items in the bank, in slots that can hold them. -/
structure Conserves (getMaxStackCount : UInt32 → UInt32) (w next : BankWorld ι) : Prop where
  stocked : WellStocked getMaxStackCount next.guild.bankTabs.items next.nextItemGuid
  total : ∀ e, totalCount next.guild.bankTabs.items e = totalCount w.guild.bankTabs.items e

theorem Conserves.refl (h : WellStocked getMaxStackCount w.guild.bankTabs.items w.nextItemGuid) :
    Conserves getMaxStackCount w w := ⟨h, fun _ => rfl⟩

theorem seenBy_other {old : Item} (h : old.guid ≠ item.guid) : seenBy item (some old) = some old := by
  rw [seenBy, Option.filter_some, decide_eq_true h]
  rfl

theorem conserves_store {removed : BankWorld ι}
    {stored : Item}
    (hStock : WellStocked getMaxStackCount removed.guild.bankTabs.items removed.nextItemGuid)
    (hLoose : Loose removed stored)
    (hPurchased : removed.guild.bankTabs.purchased = w.guild.bankTabs.purchased)
    (hPos : 1 ≤ stored.count.toNat)
    (hMax : stored.count.toNat ≤ (getMaxStackCount stored.entry).toNat)
    (hCan : canStoreInBank getMaxStackCount w.guild container slotId stored false = .ok vec)
    (hSlots : ∀ pos dest, removed.guild.bankTabs.items pos = some dest →
      ∃ old, w.guild.bankTabs.items pos = some old ∧ old.entry = dest.entry ∧ old.guid = dest.guid ∧
        dest.count.toNat ≤ old.count.toNat)
    (hTotal : ∀ e, totalCount removed.guild.bankTabs.items e + entryCount e (some stored) =
      totalCount w.guild.bankTabs.items e) :
    Conserves getMaxStackCount w (BankWorld.storeInBank container stored removed vec) := by
  obtain ⟨hTab, -⟩ := canStoreInBank_ok hCan
  obtain ⟨hFits, hCount⟩ := canStoreInBank_fits hPos hMax hCan
  have hSome : vec ≠ [] := by
    rintro rfl
    rw [← hCount] at hPos
    exact absurd hPos (by decide)
  have hFitsNow : Fits getMaxStackCount stored
      (fun slot => removed.guild.bankTabs.items (container, slot)) vec := by
    apply hFits.mono
    intro pos _ dest hDest
    obtain ⟨old, hOld, hEntry, hGuid, hLess⟩ := hSlots _ _ hDest
    refine ⟨old, ?_, hEntry, hLess⟩
    rw [freedSlots, Bool.false_and, getItem_of_lt hTab, hOld]
    exact seenBy_other (hGuid.trans_ne (hLoose.nowhere _ _ hDest))
  have hGains := gains_storeInBank hStock (hTab.trans_eq hPurchased.symm) hLoose hFitsNow hSome
  refine ⟨hGains.stocked, fun e => ?_⟩
  rw [hGains.total e, hCount, ← hTotal e]
  rfl

variable {inv}

variable {player : ObjectGuid} {tab destTab : BankTabId} {destSlot : Option BankSlotId}

theorem conserves_whole {next : BankWorld ι}
    (h : WellStocked getMaxStackCount w.guild.bankTabs.items w.nextItemGuid)
    (hItem : w.guild.getItem tab slot = some item)
    (hMove : w.doItemsMove inv getMaxStackCount player (.bank tab (some slot)) (.bank destTab destSlot)
      item item none 0 = .ok next) :
    Conserves getMaxStackCount w next := by
  obtain ⟨-, hItems⟩ := getItem_some hItem
  obtain ⟨hPos, hMax⟩ := h.counts _ _ hItems
  obtain ⟨hTabs, hGenerator⟩ := removeItem_bank inv w player item (.bank destTab destSlot) 0 tab slot
  rw [BankWorld.doItemsMove] at hMove
  split at hMove
  · cases hMove
  rename_i vec hCan
  obtain rfl := Except.ok.inj hMove
  have hRemoved : (w.removeItem inv player item (.bank destTab destSlot) 0 (.bank tab (some slot))).guild.bankTabs.items =
      Function.update w.guild.bankTabs.items (tab, slot) none := congrArg BankTabs.items hTabs
  have hOld : ∀ pos dest, Function.update w.guild.bankTabs.items (tab, slot) none pos = some dest →
      pos ≠ (tab, slot) ∧ w.guild.bankTabs.items pos = some dest := by
    intro pos dest hDest
    by_cases hSame : pos = (tab, slot)
    · rw [hSame, Function.update_self] at hDest
      cases hDest
    · rw [Function.update_of_ne hSame] at hDest
      exact ⟨hSame, hDest⟩
  have hPurchased := congrArg BankTabs.purchased hTabs
  have hCanBank : canStoreInBank getMaxStackCount w.guild destTab destSlot item false = .ok vec := hCan
  apply conserves_store _ _ hPurchased hPos hMax hCanBank
  · rw [hRemoved]
    intro pos dest hDest
    exact ⟨dest, (hOld pos dest hDest).2, rfl, rfl, le_rfl⟩
  · intro e
    have hTotal := totalCount_update w.guild.bankTabs.items (tab, slot) none e
    rw [hItems] at hTotal
    rw [hRemoved, hTotal]
    exact Nat.add_zero _
  · rw [hRemoved, hGenerator]
    exact h.clear _
  · refine ⟨fun pos old hDest => ?_, (h.known _ _ hItems).trans_eq hGenerator.symm⟩
    rw [hRemoved] at hDest
    obtain ⟨hOther, hFound⟩ := hOld pos old hDest
    exact fun hGuid => hOther (h.once _ _ _ _ hFound hItems hGuid)

variable {splitedAmount : UInt32}

theorem update_split_old {items : BankPos → Option Item} {stack : BankPos}
    (hItems : items stack = some item) (hLess : splitedAmount < item.count) {dest : Item}
    (hDest : Function.update items stack (some { item with count := item.count - splitedAmount }) pos = some dest) :
    ∃ old, items pos = some old ∧ old.entry = dest.entry ∧ old.guid = dest.guid ∧
      dest.count.toNat ≤ old.count.toNat := by
  by_cases hSame : pos = stack
  · rw [hSame, Function.update_self, Option.some_inj] at hDest
    refine ⟨item, by rw [hSame, hItems], ?_⟩
    rw [← hDest]
    exact ⟨rfl, rfl, (UInt32.toNat_sub_of_le _ _ (UInt32.le_of_lt hLess)).trans_le (Nat.sub_le _ _)⟩
  · rw [Function.update_of_ne hSame] at hDest
    exact ⟨dest, hDest, rfl, rfl, le_rfl⟩

theorem totalCount_split {items : BankPos → Option Item} {stack : BankPos}
    (hItems : items stack = some item) (hLess : splitedAmount < item.count) (e : UInt32) :
    totalCount (Function.update items stack (some { item with count := item.count - splitedAmount })) e +
      (if item.entry = e then splitedAmount.toNat else 0) = totalCount items e := by
  have hTotal := totalCount_update items stack (some { item with count := item.count - splitedAmount }) e
  have hLt := UInt32.lt_iff_toNat_lt.mp hLess
  rw [hItems, entryCount_some, entryCount_some, UInt32.toNat_sub_of_le _ _ (UInt32.le_of_lt hLess)] at hTotal
  by_cases hEntry : item.entry = e
  · rw [if_pos hEntry, if_pos hEntry] at hTotal
    rw [if_pos hEntry]
    omega
  · rw [if_neg hEntry, if_neg hEntry] at hTotal
    rw [if_neg hEntry]
    omega

theorem conserves_split {next : BankWorld ι}
    (h : WellStocked getMaxStackCount w.guild.bankTabs.items w.nextItemGuid)
    (hItem : w.guild.getItem tab slot = some item) (hSplit : splitedAmount ≠ 0)
    (hLess : splitedAmount < item.count)
    (hMove : (w.cloneItem item splitedAmount).2.doItemsMove inv getMaxStackCount player
      (.bank tab (some slot)) (.bank destTab destSlot) item (w.cloneItem item splitedAmount).1 none
      splitedAmount = .ok next) :
    Conserves getMaxStackCount w next := by
  obtain ⟨-, hItems⟩ := getItem_some hItem
  obtain ⟨hPos, hMax⟩ := h.counts _ _ hItems
  obtain ⟨hTabs, hGenerator⟩ := removeItem_bank inv (w.cloneItem item splitedAmount).2 player item
    (.bank destTab destSlot) splitedAmount tab slot
  have hLt := UInt32.lt_iff_toNat_lt.mp hLess
  have hRest := UInt32.toNat_sub_of_le _ _ (UInt32.le_of_lt hLess)
  have hSome : splitedAmount.toNat ≠ 0 := fun hZero => hSplit (UInt32.toNat.inj hZero)
  rw [BankWorld.doItemsMove] at hMove
  split at hMove
  · cases hMove
  rename_i vec hCan
  obtain rfl := Except.ok.inj hMove
  rw [if_pos hSplit] at hTabs
  have hRemoved := congrArg BankTabs.items hTabs
  have hPurchased := congrArg BankTabs.purchased hTabs
  have hCanBank : canStoreInBank getMaxStackCount w.guild destTab destSlot
    (w.cloneItem item splitedAmount).1 false = .ok vec := hCan
  suffices hConserves : Conserves getMaxStackCount (w.cloneItem item splitedAmount).2 _ from
    ⟨hConserves.stocked, hConserves.total⟩
  apply conserves_store _ _ hPurchased (Nat.one_le_iff_ne_zero.mpr hSome) (hLt.le.trans hMax) hCanBank
  · rw [hRemoved]
    exact fun pos dest hDest => update_split_old hItems hLess hDest
  · intro e
    rw [hRemoved]
    exact totalCount_split hItems hLess e
  · rw [hRemoved, hGenerator]
    apply (h.mono (Nat.le_succ _)).place
    · exact fun other old hOther hFound hGuid => hOther (h.once _ _ _ _ hFound hItems hGuid)
    · exact (h.known _ _ hItems).trans (Nat.lt_succ_self _)
    · rw [hRest]
      omega
    · exact hRest.trans_le ((Nat.sub_le _ _).trans hMax)
  · refine ⟨fun pos old hDest => ?_, (Nat.lt_succ_self _).trans_eq hGenerator.symm⟩
    rw [hRemoved] at hDest
    obtain ⟨found, hFound, -, hGuid, -⟩ := update_split_old hItems hLess hDest
    rw [← hGuid]
    exact Nat.ne_of_lt (h.known pos found hFound)

/-! ## Swaps -/

theorem canStoreItemInTab_done {skipSlotId : Option BankSlotId} {merge : Bool} (h : r.count = 0) :
    r.canStoreItemInTab getMaxStackCount g container item skipSlotId merge = r := by
  rw [Reserving.canStoreItemInTab]
  apply List.foldlRecOn (motive := fun reserving => reserving = r) _ _ rfl
  rintro _ rfl slot _
  rw [Reserving.searchSlot, decide_eq_true h]
  rfl

theorem canStoreInBank_swap (hMax : item.count.toNat ≤ (getMaxStackCount item.entry).toNat)
    (h : canStoreInBank getMaxStackCount g container (some slot) item true = .ok vec) :
    vec = [(slot, item.count)] := by
  obtain ⟨-, r, hNamed, -, hVec⟩ := canStoreInBank_ok h
  have hMin : min (getMaxStackCount item.entry) item.count = item.count := by
    apply UInt32.toNat.inj
    rw [toNat_min, Nat.min_eq_right hMax]
  have hWhole : r = ⟨[(slot, item.count)], 0⟩ := by
    have hReserved : ⟨[(slot, min (getMaxStackCount item.entry) item.count)],
        item.count - min (getMaxStackCount item.entry) item.count⟩ = r := Option.some.inj hNamed
    rw [hMin, UInt32.sub_self] at hReserved
    exact hReserved.symm
  have hDone : r.count = 0 := congrArg Reserving.count hWhole
  rw [hVec, searchTab, canStoreItemInTab_done hDone, ite_self, canStoreItemInTab_done hDone, hWhole]

theorem storeInBank_free {w : BankWorld ι} {container : BankTabId} {slot : BankSlotId} {item : Item}
    (h : w.guild.bankTabs.items (container, slot) = none) :
    let next := BankWorld.storeInBank container item w [(slot, item.count)]
    next.guild.bankTabs = (w.guild.setItem (container, slot) (some item)).bankTabs ∧
      next.nextItemGuid = w.nextItemGuid := by
  have hFree : w.guild.getItem container slot = none := by
    rw [Guild.getItem, h, ite_self]
  dsimp only [BankWorld.storeInBank, BankWorld.storeAt]
  rw [hFree]
  exact ⟨rfl, rfl⟩

theorem WellStocked.comp (h : WellStocked getMaxStackCount items nextItemGuid) (e : Equiv.Perm BankPos) :
    WellStocked getMaxStackCount (items ∘ e) nextItemGuid :=
  ⟨fun pos => h.counts (e pos),
    fun pos other a b ha hb hGuid => e.injective (h.once (e pos) (e other) a b ha hb hGuid),
    fun pos => h.known (e pos)⟩

theorem totalCount_comp (items : BankPos → Option Item) (e : Equiv.Perm BankPos) (entry : UInt32) :
    totalCount (items ∘ e) entry = totalCount items entry :=
  Equiv.sum_comp e fun pos => entryCount entry (items pos)

theorem swapped_items (items : BankPos → Option Item) (pos other : BankPos) :
    Function.update (Function.update (Function.update (Function.update items pos none) other none)
      other (items pos)) pos (items other) = items ∘ Equiv.swap pos other := by
  funext third
  rw [Function.comp_apply]
  by_cases hPos : third = pos
  · rw [hPos, Function.update_self, Equiv.swap_apply_left]
  · rw [Function.update_of_ne hPos]
    by_cases hThird : third = other
    · rw [hThird, Function.update_self, Equiv.swap_apply_right]
    · rw [Function.update_of_ne hThird, Function.update_of_ne hThird, Function.update_of_ne hPos,
        Equiv.swap_apply_of_ne_of_ne hPos hThird]

theorem conserves_swap {next : BankWorld ι}
    (h : WellStocked getMaxStackCount w.guild.bankTabs.items w.nextItemGuid) {destSlot : BankSlotId} {destItem : Item}
    (hOther : (tab, slot) ≠ (destTab, destSlot)) (hItem : w.guild.getItem tab slot = some item)
    (hDest : w.guild.getItem destTab destSlot = some destItem)
    (hMove : w.doItemsMove inv getMaxStackCount player (.bank tab (some slot))
      (.bank destTab (some destSlot)) item item (some destItem) 0 = .ok next) :
    Conserves getMaxStackCount w next := by
  obtain ⟨-, hItems⟩ := getItem_some hItem
  obtain ⟨-, hDestItems⟩ := getItem_some hDest
  rw [BankWorld.doItemsMove] at hMove
  split at hMove
  · cases hMove
  rename_i vec hCan
  dsimp only at hMove
  split at hMove
  · cases hMove
  rename_i back hCanBack
  have hVec : vec = [(destSlot, item.count)] := canStoreInBank_swap (h.counts _ _ hItems).2 hCan
  have hBack : back = [(slot, destItem.count)] := canStoreInBank_swap (h.counts _ _ hDestItems).2 hCanBack
  have hNext := Except.ok.inj hMove
  obtain ⟨hTabs, hGenerator⟩ := removeItem_bank inv w player item (.bank destTab (some destSlot)) 0 tab slot
  generalize w.removeItem inv player item (.bank destTab (some destSlot)) 0 (.bank tab (some slot)) =
    removed at hNext hTabs hGenerator
  obtain ⟨hTabsBoth, hGeneratorBoth⟩ :=
    removeItem_bank inv removed player destItem (.bank tab (some slot)) 0 destTab destSlot
  generalize removed.removeItem inv player destItem (.bank tab (some slot)) 0
    (.bank destTab (some destSlot)) = both at hNext hTabsBoth hGeneratorBoth
  have hRemoved : removed.guild.bankTabs.items =
    Function.update w.guild.bankTabs.items (tab, slot) none := congrArg BankTabs.items hTabs
  have hBoth : both.guild.bankTabs.items =
    Function.update removed.guild.bankTabs.items (destTab, destSlot) none :=
    congrArg BankTabs.items hTabsBoth
  have hFree : both.guild.bankTabs.items (destTab, destSlot) = none := by
    rw [hBoth, Function.update_self]
  obtain ⟨hTabsStored, hGeneratorStored⟩ := @storeInBank_free ι both destTab destSlot item hFree
  rw [← hVec] at hTabsStored hGeneratorStored
  generalize hStore : BankWorld.storeInBank destTab item both vec = stored at hTabsStored hGeneratorStored
  have hStored : stored.guild.bankTabs.items =
    Function.update both.guild.bankTabs.items (destTab, destSlot) (some item) :=
    congrArg BankTabs.items hTabsStored
  have hFreeBack : stored.guild.bankTabs.items (tab, slot) = none := by
    rw [hStored, Function.update_of_ne hOther, hBoth, Function.update_of_ne hOther, hRemoved,
      Function.update_self]
  obtain ⟨hTabsLast, hGeneratorLast⟩ := @storeInBank_free ι stored tab slot destItem hFreeBack
  rw [← hBack] at hTabsLast hGeneratorLast
  have hLast : next = BankWorld.storeInBank tab destItem stored back := by
    rw [← hNext, ← hStore]
    rfl
  rw [← hLast] at hTabsLast hGeneratorLast
  have hSwapped : next.guild.bankTabs.items =
      w.guild.bankTabs.items ∘ Equiv.swap (tab, slot) (destTab, destSlot) := by
    rw [← swapped_items, hItems, hDestItems, ← hRemoved, ← hBoth, ← hStored]
    exact congrArg BankTabs.items hTabsLast
  have hGuids : next.nextItemGuid = w.nextItemGuid := by
    rw [hGeneratorLast, hGeneratorStored, hGeneratorBoth, hGenerator]
  refine ⟨?_, fun e => ?_⟩
  · rw [hSwapped, hGuids]
    exact h.comp _
  · rw [hSwapped, totalCount_comp]

/-! ## Requests -/

/-- What a request to move items within the bank may do, whatever the rights are. -/
structure MovesWell (getMaxStackCount : UInt32 → UInt32) (w : BankWorld ι)
    (result : MoveOutcome × BankWorld ι) : Prop where
  conserves : Conserves getMaxStackCount w result.2
  unmoved : result.1 = .refused → result.2.guild = w.guild

theorem movesWell_refused (h : WellStocked getMaxStackCount w.guild.bankTabs.items w.nextItemGuid) :
    MovesWell getMaxStackCount w (.refused, w) := ⟨Conserves.refl h, fun _ => rfl⟩

theorem checkItem_some {amount : UInt32}
    (h : item.checkItem amount = some splitedAmount) : splitedAmount = 0 ∨ splitedAmount < item.count := by
  rw [Item.checkItem] at h
  split at h
  · cases h
  rename_i hEnough
  obtain rfl := Option.some.inj h
  split
  · exact Or.inl rfl
  · rename_i hPart
    exact Or.inr (UInt32.lt_of_le_of_ne (UInt32.not_lt.mp hEnough) hPart)

theorem movesWell_split (h : WellStocked getMaxStackCount w.guild.bankTabs.items w.nextItemGuid) (player : ObjectGuid)
    (hItem : w.guild.getItem tab slot = some item) (hSplit : splitedAmount ≠ 0)
    (hLess : splitedAmount < item.count) :
    MovesWell getMaxStackCount w (w.moveSplit inv getMaxStackCount player (.bank tab (some slot))
      (.bank destTab destSlot) item splitedAmount) := by
  dsimp only [BankWorld.moveSplit]
  split
  · rename_i moved hMove
    refine ⟨conserves_split h hItem hSplit hLess hMove, fun hRefused => ?_⟩
    cases hRefused
  · exact ⟨⟨h.mono (Nat.le_succ _), fun _ => rfl⟩, fun _ => rfl⟩

theorem movesWell_swap (h : WellStocked getMaxStackCount w.guild.bankTabs.items w.nextItemGuid) (player : ObjectGuid)
    {destSlot : BankSlotId}
    (hOther : (tab, slot) ≠ (destTab, destSlot)) (hItem : w.guild.getItem tab slot = some item) :
    MovesWell getMaxStackCount w (w.swapItemsOf inv getMaxStackCount player (.bank tab (some slot))
      (.bank destTab (some destSlot)) item) := by
  rw [BankWorld.swapItemsOf]
  split
  · exact movesWell_refused h
  rename_i destItem hDest
  split
  · exact movesWell_refused h
  split
  · rename_i swapped hMove
    refine ⟨conserves_swap h hOther hItem hDest hMove, fun hRefused => ?_⟩
    cases hRefused
  · exact movesWell_refused h

theorem movesWell_moveItems (h : WellStocked getMaxStackCount w.guild.bankTabs.items w.nextItemGuid)
    (player : ObjectGuid) {destSlot : BankSlotId} (splitedAmount : UInt32)
    (hOther : (tab, slot) ≠ (destTab, destSlot)) :
    MovesWell getMaxStackCount w (w.moveItems inv getMaxStackCount player (.bank tab (some slot))
      (.bank destTab (some destSlot)) splitedAmount) := by
  rw [BankWorld.moveItems]
  split
  · exact movesWell_refused h
  rename_i item hItem
  split
  · exact movesWell_refused h
  rename_i part hCheck
  split
  · exact movesWell_refused h
  split
  · rename_i hSplit
    obtain hWhole | hLess := checkItem_some hCheck
    · exact absurd hWhole hSplit
    · exact movesWell_split h player hItem hSplit hLess
  split
  · rename_i moved hMove
    refine ⟨conserves_whole h hItem hMove, fun hRefused => ?_⟩
    cases hRefused
  · exact movesWell_swap h player hOther hItem

/-- Whatever is asked of two slots of the bank and whatever the rights are, every entry keeps
its count, the slots stay well stocked, and a refusal leaves the guild as it was. -/
theorem swapItems_conserves (inv : Inventory ι) {w : BankWorld ι}
    (h : WellStocked getMaxStackCount w.guild.bankTabs.items w.nextItemGuid) (player : ObjectGuid)
    (tabId slotId destTabId destSlotId : UInt8) (splitedAmount : UInt32) :
    MovesWell getMaxStackCount w (w.swapItems inv getMaxStackCount player tabId slotId destTabId
      destSlotId splitedAmount) := by
  rw [BankWorld.swapItems]
  split
  · split
    · exact movesWell_refused h
    · rename_i tab slot destTab destSlot _ _ _ _ hSame
      apply movesWell_moveItems h
      rintro hPos
      rw [(Prod.mk.inj hPos).1, (Prod.mk.inj hPos).2, decide_eq_true rfl, decide_eq_true rfl] at hSame
      exact hSame rfl
  · exact movesWell_refused h

theorem WellStocked.empty : WellStocked getMaxStackCount (fun _ => none) nextItemGuid := by
  refine ⟨?_, ?_, ?_⟩ <;> simp only [reduceCtorEq, false_imp_iff, implies_true]

end Moves

def firstSlot : BankPos := (⟨0, by decide⟩, ⟨0, by decide⟩)

def secondSlot : BankPos := (⟨0, by decide⟩, ⟨1, by decide⟩)

def twoStacks : BankWorld Unit where
  guild :=
    { leaderGuid := ⟨1, 0⟩
      members := KeyedSet.empty.emplace ⟨⟨1, 0⟩, grGuildmaster, fun _ => 0, 0⟩
      ranks := []
      bankTabs := ⟨1, one_le_maxTabs, Function.update (Function.update (fun _ => none) firstSlot
        (some ⟨1, 100, 5, false⟩)) secondSlot (some ⟨2, 100, 18, false⟩)⟩
      bankMoney := 0 }
  inventory := ()
  nextItemGuid := 3

def noInventory : Inventory Unit where
  getItemByPos := fun _ _ _ => none
  isNotEmptyBag := fun _ _ => false
  canBeTraded := fun _ _ => false
  canStoreItem := fun _ _ _ _ _ => .error (.inventory 0)
  setCount := fun _ _ _ _ => ()
  moveItemFromInventory := fun _ _ _ => ()
  moveItemToInventory := fun _ _ _ => ()

example : (twoStacks.swapItems noInventory (fun _ => 20) ⟨1, 0⟩ 0 0 0 1 4).1 = .moved := by
  decide +kernel

theorem swapItems_conserves_twoStacks :
    MovesWell (fun _ => 20) twoStacks
      (twoStacks.swapItems noInventory (fun _ => 20) ⟨1, 0⟩ 0 0 0 1 4) := by
  apply swapItems_conserves
  have hFirst : WellStocked (fun _ => 20) (Function.update (fun _ => none) firstSlot
      (some ⟨1, 100, 5, false⟩)) 3 :=
    WellStocked.empty.place (fun _ _ _ hNone => absurd hNone.symm (Option.some_ne_none _)) (by decide)
      (by decide) (by decide)
  apply hFirst.place
  · intro other old _ hOld
    by_cases hSame : other = firstSlot
    · rw [hSame, Function.update_self, Option.some_inj] at hOld
      rw [← hOld]
      decide
    · rw [Function.update_of_ne hSame] at hOld
      cases hOld
  all_goals decide

end AshamaneCore.Guilds
