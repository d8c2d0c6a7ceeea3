import AshamaneCore.Library.SignedWords
import Mathlib.Logic.Function.Basic
import Mathlib.Order.Lattice

/-!
# Currencies and their caps

`ModifyCurrency` adds a signed count to three unsigned amounts. The count is cut to the caps
first, and the new amounts are cut to the caps one after the other. Multipliers are ignored.
-/

namespace AshamaneCore.Currencies

open Library.SignedWords

inductive PlayerCurrencyState
  | unchanged
  | changed
  | new
  | removed
  deriving DecidableEq

structure PlayerCurrency where
  state : PlayerCurrencyState
  quantity : UInt32
  weeklyQuantity : UInt32
  trackedQuantity : UInt32
  flags : UInt8
  deriving DecidableEq

structure CurrencyTypesEntry where
  id : Nat
  maxQty : UInt32
  maxEarnablePerWeek : UInt32

def currencyTypeJusticePoints : Nat := 395

def currencyTypeApexisCrystals : Nat := 823

/-- The store of currencies, and caps of the configuration that stand above it. -/
structure World where
  currencyTypesStore : Nat → Option CurrencyTypesEntry
  currencyMaxApexisCrystals : UInt32
  currencyMaxJusticePoints : UInt32

def getCurrencyWeekCap (currency : CurrencyTypesEntry) : UInt32 := currency.maxEarnablePerWeek

def World.getCurrencyTotalCap (w : World) (currency : CurrencyTypesEntry) : UInt32 :=
  if currency.id = currencyTypeApexisCrystals then
    if 0 < w.currencyMaxApexisCrystals then w.currencyMaxApexisCrystals else currency.maxQty
  else if currency.id = currencyTypeJusticePoints then
    if 0 < w.currencyMaxJusticePoints then w.currencyMaxJusticePoints else currency.maxQty
  else currency.maxQty

/-! ## Amounts -/

def cutCount (cap : UInt32) (count : Int) : Int := if cap ≠ 0 ∧ int32 cap < count then int32 cap else count

def notNegative (count : Int) : Int := if count < 0 then 0 else count

structure Counts where
  total : Int
  week : Int

namespace PlayerCurrency

variable (cur : PlayerCurrency)

def cutToWeekCap (weekCap : UInt32) (counts : Counts) : Counts :=
  if weekCap ≠ 0 ∧ int32 weekCap < counts.week then
    ⟨int32 (cur.quantity + (weekCap - cur.weeklyQuantity)), int32 weekCap⟩
  else counts

end PlayerCurrency

/-- Above the total cap the weekly count is that of the weekly cap. -/
def Counts.cutToTotalCap (counts : Counts) (weekCap totalCap : UInt32) : Counts :=
  if totalCap ≠ 0 ∧ int32 totalCap < counts.total then ⟨int32 totalCap, int32 weekCap⟩ else counts

namespace PlayerCurrency

variable (cur : PlayerCurrency)

def store (counts : Counts) (tracked : Int) : PlayerCurrency :=
  if uint32 counts.total ≠ cur.quantity then
    { cur with
      state := if cur.state ≠ .new then .changed else cur.state
      quantity := uint32 counts.total
      weeklyQuantity := uint32 counts.week
      trackedQuantity := uint32 tracked }
  else cur

/-- The count that was cut is added; none is an overflow of a signed addition. -/
def add (weekCap totalCap : UInt32) (count : Int) : Option PlayerCurrency :=
  (addInt32 (int32 cur.trackedQuantity) (if 0 < count then count else 0)).bind fun tracked =>
  (addInt32 (int32 cur.quantity) count).bind fun total =>
  (addInt32 (int32 cur.weeklyQuantity) (if 0 < count then count else 0)).map fun week =>
    cur.store ((cur.cutToWeekCap weekCap ⟨notNegative total, notNegative week⟩).cutToTotalCap weekCap totalCap)
      (notNegative tracked)

end PlayerCurrency

/-! ## Calls -/

structure Player where
  currencyStorage : Nat → Option PlayerCurrency

/-- What stands for a currency that was never stored. -/
def newCurrency : PlayerCurrency := ⟨.new, 0, 0, 0, 0⟩

namespace Player

variable (w : World) (p : Player)

def currency (id : Nat) : PlayerCurrency := (p.currencyStorage id).getD newCurrency

/-- None is a failed assertion or an overflow. -/
def modifyCurrency (id : Nat) (count : Int32) : Option Player :=
  if count = 0 then some p
  else
    (w.currencyTypesStore id).bind fun entry =>
      ((p.currency id).add (getCurrencyWeekCap entry) (w.getCurrencyTotalCap entry)
        (cutCount (w.getCurrencyTotalCap entry) (cutCount (getCurrencyWeekCap entry) count.toInt))).map fun cur =>
          ⟨Function.update p.currencyStorage id (some cur)⟩

def resetCurrencyWeekCap : Player :=
  ⟨fun id => (p.currencyStorage id).map fun cur => { cur with weeklyQuantity := 0, state := .changed }⟩

end Player

inductive Call
  | modify (id : Nat) (count : Int32)
  | resetWeekCap

/-- Behind a failure there is no state, and none is made up. -/
def Player.step (w : World) (p : Player) : Call → Player
  | .modify id count => (p.modifyCurrency w id count).getD p
  | .resetWeekCap => p.resetCurrencyWeekCap

/-!
## Amounts under caps

For one currency: a gain is right exactly if no sum overflows and the total cap does not cut
what the weekly cap leaves, and a loss is right exactly if the amounts are signed numbers.
-/

structure PlayerCurrency.WithinCaps (cur : PlayerCurrency) (weekCap totalCap : UInt32) : Prop where
  total : totalCap ≠ 0 → cur.quantity.toNat ≤ totalCap.toNat
  week : weekCap ≠ 0 → cur.weeklyQuantity.toNat ≤ weekCap.toNat

/-- The weekly amount rises as much as the total, which does not fall. -/
structure Gained (cur cur' : PlayerCurrency) : Prop where
  le : cur.quantity.toNat ≤ cur'.quantity.toNat
  week : cur'.weeklyQuantity.toNat = cur.weeklyQuantity.toNat + (cur'.quantity.toNat - cur.quantity.toNat)

/-- The total falls as far as it can, and the other amounts stay. -/
structure Lost (cur : PlayerCurrency) (count : Int) (cur' : PlayerCurrency) : Prop where
  total : (cur'.quantity.toNat : Int) = cur.quantity.toNat - min (-count) cur.quantity.toNat
  week : cur'.weeklyQuantity = cur.weeklyQuantity
  tracked : cur'.trackedQuantity = cur.trackedQuantity

variable {cur : PlayerCurrency} {weekCap totalCap : UInt32} {count : Int} {counts : Counts} {tracked : Int}

/-! ## Storing -/

theorem store_quantity : (cur.store counts tracked).quantity = uint32 counts.total := by
  rw [PlayerCurrency.store]
  split
  · rfl
  · rename_i hSame
    exact (not_not.mp hSame).symm

theorem store_weeklyQuantity : (cur.store counts tracked).weeklyQuantity =
    if uint32 counts.total = cur.quantity then cur.weeklyQuantity else uint32 counts.week := by
  rw [PlayerCurrency.store, ite_not]
  split
  · rfl
  · rfl

theorem store_trackedQuantity : (cur.store counts tracked).trackedQuantity =
    if uint32 counts.total = cur.quantity then cur.trackedQuantity else uint32 tracked := by
  rw [PlayerCurrency.store, ite_not]
  split
  · rfl
  · rfl

theorem notNegative_of_le {z : Int} (h : 0 ≤ z) : notNegative z = z := if_neg (Int.not_lt.mpr h)

theorem notNegative_of_neg {z : Int} (h : z < 0) : notNegative z = 0 := if_pos h

theorem uint32_notNegative_iff (x : UInt32) : uint32 (notNegative (int32 x)) = x ↔ x.toNat < 2 ^ 31 := by
  have hLt := x.toNat_lt
  by_cases hSmall : x.toNat < 2 ^ 31
  · rw [notNegative_of_le (by rw [int32_of_lt hSmall]; omega), uint32_int32]
    exact iff_of_true rfl hSmall
  · have hNeg : int32 x < 0 := by
      rw [int32_of_le (Nat.not_lt.mp hSmall)]
      omega
    rw [notNegative_of_neg hNeg]
    refine iff_of_false (fun hZero => hSmall ?_) hSmall
    rw [← hZero]
    decide

/-- The counts that are stored, if no addition overflows. -/
def PlayerCurrency.capped (cur : PlayerCurrency) (weekCap totalCap : UInt32) (count : Int) : Counts :=
  (cur.cutToWeekCap weekCap ⟨notNegative (int32 cur.quantity + count),
    notNegative (int32 cur.weeklyQuantity + if 0 < count then count else 0)⟩).cutToTotalCap weekCap totalCap

theorem add_eq_some {cur' : PlayerCurrency} : cur.add weekCap totalCap count = some cur' ↔
    (InInt32 (int32 cur.trackedQuantity + if 0 < count then count else 0) ∧ InInt32 (int32 cur.quantity + count) ∧
      InInt32 (int32 cur.weeklyQuantity + if 0 < count then count else 0)) ∧
    cur' = cur.store (cur.capped weekCap totalCap count)
      (notNegative (int32 cur.trackedQuantity + if 0 < count then count else 0)) := by
  rw [PlayerCurrency.add, Option.bind_eq_some_iff]
  constructor
  · rintro ⟨tracked, hTracked, h⟩
    obtain ⟨total, hTotal, h⟩ := Option.bind_eq_some_iff.mp h
    obtain ⟨week, hWeek, rfl⟩ := Option.map_eq_some_iff.mp h
    obtain ⟨hTrackedIn, rfl⟩ := addInt32_eq_some.mp hTracked
    obtain ⟨hTotalIn, rfl⟩ := addInt32_eq_some.mp hTotal
    obtain ⟨hWeekIn, rfl⟩ := addInt32_eq_some.mp hWeek
    exact ⟨⟨hTrackedIn, hTotalIn, hWeekIn⟩, rfl⟩
  · rintro ⟨⟨hTracked, hTotal, hWeek⟩, rfl⟩
    refine ⟨_, addInt32_eq_some.mpr ⟨hTracked, rfl⟩, Option.bind_eq_some_iff.mpr ⟨_, addInt32_eq_some.mpr ⟨hTotal, rfl⟩, ?_⟩⟩
    exact Option.map_eq_some_iff.mpr ⟨_, addInt32_eq_some.mpr ⟨hWeek, rfl⟩, rfl⟩

/-! ## Losses -/

section Loss

variable (hWithin : cur.WithinCaps weekCap totalCap) (hWeekCap : weekCap.toNat < 2 ^ 31) (hTotalCap : totalCap.toNat < 2 ^ 31)

include hWithin hWeekCap hTotalCap

theorem capped_of_neg (hNeg : count < 0) : cur.capped weekCap totalCap count =
    ⟨notNegative (int32 cur.quantity + count), notNegative (int32 cur.weeklyQuantity)⟩ := by
  have hWeek : ¬ (weekCap ≠ 0 ∧ int32 weekCap < notNegative (int32 cur.weeklyQuantity)) := by
    rintro ⟨hCap, hLt⟩
    have hLe := hWithin.week hCap
    rw [int32_of_lt hWeekCap, int32_of_lt (hLe.trans_lt hWeekCap), notNegative] at hLt
    omega
  have hTotal : ¬ (totalCap ≠ 0 ∧ int32 totalCap < notNegative (int32 cur.quantity + count)) := by
    rintro ⟨hCap, hLt⟩
    have hLe := hWithin.total hCap
    rw [int32_of_lt hTotalCap, int32_of_lt (hLe.trans_lt hTotalCap), notNegative] at hLt
    omega
  rw [PlayerCurrency.capped, if_neg (Int.not_lt.mpr (Int.le_of_lt hNeg)), Int.add_zero, PlayerCurrency.cutToWeekCap,
    if_neg hWeek, Counts.cutToTotalCap, if_neg hTotal]

theorem lost_iff (hNeg : count < 0) (hMin : -2 ^ 31 ≤ count) :
    (∃ cur', cur.add weekCap totalCap count = some cur' ∧ Lost cur count cur' ∧ cur'.WithinCaps weekCap totalCap) ↔
      cur.quantity = 0 ∨ (cur.quantity.toNat < 2 ^ 31 ∧ cur.weeklyQuantity.toNat < 2 ^ 31 ∧
        cur.trackedQuantity.toNat < 2 ^ 31) := by
  have hNotPos : ¬ 0 < count := Int.not_lt.mpr (Int.le_of_lt hNeg)
  have hQuantity := cur.quantity.toNat_lt
  simp only [add_eq_some, capped_of_neg hWithin hWeekCap hTotalCap hNeg, if_neg hNotPos, Int.add_zero, inInt32_int32,
    true_and, and_true]
  constructor
  · rintro ⟨cur', ⟨⟨hMinimum, -⟩, rfl⟩, hLost, -⟩
    have hTotal := hLost.total
    rw [store_quantity, uint32_toNat] at hTotal
    dsimp only at hTotal
    by_cases hSmall : cur.quantity.toNat < 2 ^ 31
    · rw [int32_of_lt hSmall] at hTotal
      refine or_iff_not_imp_left.mpr fun hSome => ?_
      have hStored : uint32 (notNegative (int32 cur.quantity + count)) ≠ cur.quantity := by
        intro hSame
        have hNat := congrArg (fun x : UInt32 => (x.toNat : Int)) hSame
        rw [int32_of_lt hSmall, uint32_toNat, notNegative] at hNat
        have hPos : cur.quantity.toNat ≠ 0 := fun hZero => hSome (UInt32.toNat_inj.mp hZero)
        omega
      have hWeek := hLost.week
      have hTracked := hLost.tracked
      rw [store_weeklyQuantity, if_neg hStored] at hWeek
      rw [store_trackedQuantity, if_neg hStored] at hTracked
      exact ⟨hSmall, (uint32_notNegative_iff _).mp hWeek, (uint32_notNegative_iff _).mp hTracked⟩
    · rw [int32_of_le (Nat.not_lt.mp hSmall)] at hTotal hMinimum
      rw [notNegative_of_neg (by omega)] at hTotal
      omega
  · rintro (hZero | ⟨hSmall, hWeekSmall, hTrackedSmall⟩)
    · have hInt : int32 cur.quantity = 0 := by
        rw [hZero]
        rfl
      have hSame : cur.store ⟨notNegative (int32 cur.quantity + count), notNegative (int32 cur.weeklyQuantity)⟩
          (notNegative (int32 cur.trackedQuantity)) = cur := by
        refine if_neg (not_not.mpr ?_)
        rw [hInt, Int.zero_add, notNegative_of_neg hNeg, hZero]
        rfl
      rw [hSame, hInt]
      refine ⟨cur, ⟨⟨by omega, by omega⟩, rfl⟩, ⟨?_, rfl, rfl⟩, hWithin⟩
      rw [hZero, UInt32.toNat_zero]
      omega
    · rw [int32_of_lt hSmall]
      refine ⟨_, ⟨⟨by omega, by omega⟩, rfl⟩, ⟨?_, ?_, ?_⟩, ⟨fun hCap => ?_, fun hCap => ?_⟩⟩
      · rw [store_quantity, uint32_toNat, notNegative]
        dsimp only
        omega
      · rw [store_weeklyQuantity, (uint32_notNegative_iff _).mpr hWeekSmall, ite_self]
      · rw [store_trackedQuantity, (uint32_notNegative_iff _).mpr hTrackedSmall, ite_self]
      · have hLe := hWithin.total hCap
        have hNew := uint32_toNat (notNegative (cur.quantity.toNat + count))
        rw [store_quantity]
        dsimp only
        rw [notNegative] at hNew ⊢
        omega
      · rw [store_weeklyQuantity, (uint32_notNegative_iff _).mpr hWeekSmall, ite_self]
        exact hWithin.week hCap

end Loss

/-! ## Gains -/

def PlayerCurrency.leftThisWeek (cur : PlayerCurrency) (weekCap : UInt32) (count : Int) : Int :=
  if weekCap = 0 then count else min count (weekCap.toNat - cur.weeklyQuantity.toNat)

/-- No sum overflows, and the total cap does not cut what the weekly cap leaves, unless it is reached already.
Amounts that are no signed numbers gain rightly only where the weekly cap gives the total, or where it stays. -/
structure PlayerCurrency.Gainable (cur : PlayerCurrency) (weekCap totalCap : UInt32) (count : Int) : Prop where
  tracked : cur.trackedQuantity.toNat < 2 ^ 31 → cur.trackedQuantity.toNat + count < 2 ^ 31
  quantity : cur.quantity.toNat < 2 ^ 31 → cur.quantity.toNat + count < 2 ^ 31
  weekly : cur.weeklyQuantity.toNat < 2 ^ 31 → cur.weeklyQuantity.toNat + count < 2 ^ 31
  total : totalCap ≠ 0 → cur.quantity ≠ totalCap → cur.quantity.toNat + cur.leftThisWeek weekCap count ≤ totalCap.toNat
  largeQuantity : 2 ^ 31 ≤ cur.quantity.toNat → weekCap ≠ 0 ∧ weekCap.toNat < cur.weeklyQuantity.toNat + count ∧
    cur.quantity.toNat + (weekCap.toNat - cur.weeklyQuantity.toNat) < 2 ^ 32
  largeWeekly : 2 ^ 31 ≤ cur.weeklyQuantity.toNat → totalCap ≠ 0 ∧ cur.quantity = totalCap

theorem inInt32_add_iff (x : UInt32) (hPos : 0 < count) (hMax : count < 2 ^ 31) :
    InInt32 (int32 x + count) ↔ (x.toNat < 2 ^ 31 → x.toNat + count < 2 ^ 31) := by
  have hLt := x.toNat_lt
  rw [InInt32, int32]
  split
  · omega
  · omega

theorem toNat_upToWeekCap (hWithin : cur.WithinCaps weekCap totalCap) (hCap : weekCap ≠ 0) :
    (cur.quantity + (weekCap - cur.weeklyQuantity)).toNat =
      (cur.quantity.toNat + (weekCap.toNat - cur.weeklyQuantity.toNat)) % 2 ^ 32 := by
  rw [UInt32.toNat_add, UInt32.toNat_sub_of_le _ _ (UInt32.le_iff_toNat_le.mpr (hWithin.week hCap))]

theorem leftThisWeek_range (hWithin : cur.WithinCaps weekCap totalCap) (hPos : 0 < count) :
    0 ≤ cur.leftThisWeek weekCap count ∧ cur.leftThisWeek weekCap count ≤ count ∧
      (weekCap ≠ 0 → cur.weeklyQuantity.toNat + cur.leftThisWeek weekCap count ≤ weekCap.toNat) := by
  rw [PlayerCurrency.leftThisWeek]
  split
  · rename_i hZero
    exact ⟨Int.le_of_lt hPos, Int.le_refl _, fun hCap => absurd hZero hCap⟩
  · rename_i hCap
    have hLe := hWithin.week hCap
    omega

section Gain

variable (hWithin : cur.WithinCaps weekCap totalCap) (hWeekCap : weekCap.toNat < 2 ^ 31) (hTotalCap : totalCap.toNat < 2 ^ 31)
  (hPos : 0 < count)

include hWithin hWeekCap hTotalCap hPos

theorem capped_of_small (hQuantity : cur.quantity.toNat + count < 2 ^ 31)
    (hWeekly : cur.weeklyQuantity.toNat < 2 ^ 31) :
    cur.capped weekCap totalCap count =
      if totalCap ≠ 0 ∧ totalCap.toNat < cur.quantity.toNat + cur.leftThisWeek weekCap count then
        ⟨totalCap.toNat, weekCap.toNat⟩
      else ⟨cur.quantity.toNat + cur.leftThisWeek weekCap count,
        cur.weeklyQuantity.toNat + cur.leftThisWeek weekCap count⟩ := by
  have hCut : cur.cutToWeekCap weekCap ⟨notNegative (int32 cur.quantity + count),
      notNegative (int32 cur.weeklyQuantity + count)⟩ = ⟨cur.quantity.toNat + cur.leftThisWeek weekCap count,
        cur.weeklyQuantity.toNat + cur.leftThisWeek weekCap count⟩ := by
    rw [int32_of_lt (by omega), int32_of_lt hWeekly, notNegative_of_le (by omega), notNegative_of_le (by omega),
      PlayerCurrency.cutToWeekCap, int32_of_lt hWeekCap, PlayerCurrency.leftThisWeek]
    by_cases hCap : weekCap = 0
    · rw [if_neg fun h => h.1 hCap, if_pos hCap]
    · rw [if_neg hCap]
      have hLe := hWithin.week hCap
      split
      · rename_i hOver
        have hUp := hOver.2
        dsimp only at hUp
        have hNat := toNat_upToWeekCap hWithin hCap
        rw [Nat.mod_eq_of_lt (by omega)] at hNat
        rw [int32_of_lt (by omega), hNat, min_eq_right (by omega)]
        congr 1 <;> omega
      · rename_i hUnder
        have hUp : ¬ (weekCap.toNat : Int) < cur.weeklyQuantity.toNat + count := fun h => hUnder ⟨hCap, h⟩
        rw [min_eq_left (by omega)]
  rw [PlayerCurrency.capped, if_pos hPos, hCut, Counts.cutToTotalCap, int32_of_lt hTotalCap, int32_of_lt hWeekCap]

def PlayerCurrency.StoresGain (cur : PlayerCurrency) (weekCap totalCap : UInt32) (count tracked : Int) : Prop :=
  Gained cur (cur.store (cur.capped weekCap totalCap count) tracked) ∧
    (cur.store (cur.capped weekCap totalCap count) tracked).WithinCaps weekCap totalCap

theorem storesGain_iff_of_small (hQuantity : cur.quantity.toNat + count < 2 ^ 31)
    (hWeekly : cur.weeklyQuantity.toNat + count < 2 ^ 31) : cur.StoresGain weekCap totalCap count tracked ↔
      (totalCap ≠ 0 → cur.quantity ≠ totalCap →
        cur.quantity.toNat + cur.leftThisWeek weekCap count ≤ totalCap.toNat) := by
  obtain ⟨hLeft, hLeftLe, hWeekLe⟩ := leftThisWeek_range hWithin hPos
  rw [PlayerCurrency.StoresGain, capped_of_small hWithin hWeekCap hTotalCap hPos hQuantity (by omega)]
  split
  · rename_i hOver
    obtain ⟨hCap, hMore⟩ := hOver
    have hTotalWord : uint32 (totalCap.toNat : Int) = totalCap := by
      rw [← int32_of_lt hTotalCap, uint32_int32]
    have hWeekWord : uint32 (weekCap.toNat : Int) = weekCap := by
      rw [← int32_of_lt hWeekCap, uint32_int32]
    obtain hAt | hBelow := eq_or_ne cur.quantity totalCap
    · have hKept : cur.store ⟨totalCap.toNat, weekCap.toNat⟩ tracked = cur :=
        if_neg (not_not.mpr (hTotalWord.trans hAt.symm))
      rw [hKept]
      exact iff_of_true ⟨⟨Nat.le_refl _, by omega⟩, hWithin⟩ fun _ hNe => absurd hAt hNe
    · refine iff_of_false (fun h => ?_) fun h => absurd (h hCap hBelow) (Int.not_le.mpr hMore)
      have hWeek := h.1.week
      have hLe := hWithin.total hCap
      have hStrict : cur.quantity.toNat ≠ totalCap.toNat := fun hSame => hBelow (UInt32.toNat_inj.mp hSame)
      rw [store_weeklyQuantity, store_quantity, hTotalWord, if_neg hBelow.symm, hWeekWord] at hWeek
      by_cases hNone : weekCap = 0
      · rw [hNone, UInt32.toNat_zero] at hWeek
        omega
      · have hWeekLe := hWeekLe hNone
        omega
  · rename_i hUnder
    have hQuantityNat := uint32_toNat_of_range (z := cur.quantity.toNat + cur.leftThisWeek weekCap count)
      (by omega) (by omega)
    have hWeekNat := uint32_toNat_of_range (z := cur.weeklyQuantity.toNat + cur.leftThisWeek weekCap count)
      (by omega) (by omega)
    have hStoredWeek : ((cur.store ⟨cur.quantity.toNat + cur.leftThisWeek weekCap count,
        cur.weeklyQuantity.toNat + cur.leftThisWeek weekCap count⟩ tracked).weeklyQuantity.toNat : Int) =
        cur.weeklyQuantity.toNat + cur.leftThisWeek weekCap count := by
      rw [store_weeklyQuantity]
      split
      · rename_i hSame
        rw [hSame] at hQuantityNat
        omega
      · exact hWeekNat
    refine iff_of_true ⟨⟨?_, ?_⟩, ⟨fun hCap => ?_, fun hCap => ?_⟩⟩ fun hCap _ => ?_
    · rw [store_quantity]
      dsimp only
      omega
    · rw [store_quantity]
      dsimp only
      omega
    · have hNotMore := Int.not_lt.mp fun hMore => hUnder ⟨hCap, hMore⟩
      rw [store_quantity]
      dsimp only
      omega
    · have hWeekLe := hWeekLe hCap
      omega
    · exact Int.not_lt.mp fun hMore => hUnder ⟨hCap, hMore⟩

theorem storesGain_iff_of_large (hLarge : 2 ^ 31 ≤ cur.quantity.toNat) (hMax : count < 2 ^ 31)
    (hWeekly : cur.weeklyQuantity.toNat < 2 ^ 31 → cur.weeklyQuantity.toNat + count < 2 ^ 31) :
    cur.StoresGain weekCap totalCap count tracked ↔
      weekCap ≠ 0 ∧ weekCap.toNat < cur.weeklyQuantity.toNat + count ∧
        cur.quantity.toNat + (weekCap.toNat - cur.weeklyQuantity.toNat) < 2 ^ 32 := by
  have hLt := cur.quantity.toNat_lt
  have hNoTotal : ¬ totalCap ≠ 0 := fun hCap => by
    have hLe := hWithin.total hCap
    omega
  have hCapped : cur.capped weekCap totalCap count = cur.cutToWeekCap weekCap
      ⟨notNegative (int32 cur.quantity + count), notNegative (int32 cur.weeklyQuantity + count)⟩ := by
    rw [PlayerCurrency.capped, if_pos hPos]
    exact if_neg fun h => hNoTotal h.1
  rw [PlayerCurrency.StoresGain, hCapped, PlayerCurrency.cutToWeekCap]
  split
  · rename_i hOver
    obtain ⟨hCap, hMore⟩ := hOver
    have hLe := hWithin.week hCap
    have hSum := hWeekly (by omega)
    dsimp only at hMore
    rw [int32_of_lt hWeekCap, int32_of_lt (hLe.trans_lt hWeekCap), notNegative_of_le (by omega)] at hMore
    have hWord := toNat_upToWeekCap hWithin hCap
    have hWeekWord : uint32 (int32 weekCap) = weekCap := uint32_int32 weekCap
    constructor
    · rintro ⟨hGained, -⟩
      have hRise := hGained.le
      rw [store_quantity, uint32_int32, hWord] at hRise
      exact ⟨hCap, hMore, by omega⟩
    · rintro ⟨-, -, hRoom⟩
      rw [Nat.mod_eq_of_lt hRoom] at hWord
      have hWeek : (cur.store ⟨int32 (cur.quantity + (weekCap - cur.weeklyQuantity)), int32 weekCap⟩
          tracked).weeklyQuantity.toNat = weekCap.toNat := by
        rw [store_weeklyQuantity, uint32_int32, hWeekWord]
        split
        · rename_i hSame
          rw [hSame] at hWord
          omega
        · rfl
      refine ⟨⟨?_, ?_⟩, ⟨fun hTotal => absurd hTotal hNoTotal, fun _ => hWeek.le⟩⟩
      · rw [store_quantity, uint32_int32, hWord]
        omega
      · rw [hWeek, store_quantity, uint32_int32, hWord]
        omega
  · rename_i hUnder
    refine iff_of_false (fun h => ?_) fun h => hUnder ⟨h.1, ?_⟩
    · have hRise := h.1.le
      have hNat := uint32_toNat (notNegative (int32 cur.quantity + count))
      rw [store_quantity] at hRise
      dsimp only at hRise
      rw [int32_of_le hLarge, notNegative] at hNat hRise
      omega
    · have hLe := hWithin.week h.1
      have hSum := hWeekly (by omega)
      dsimp only
      rw [int32_of_lt hWeekCap, int32_of_lt (hLe.trans_lt hWeekCap), notNegative_of_le (by omega)]
      exact h.2.1

theorem storesGain_iff_of_largeWeekly (hQuantity : cur.quantity.toNat + count < 2 ^ 31)
    (hLarge : 2 ^ 31 ≤ cur.weeklyQuantity.toNat) (hMax : count < 2 ^ 31) :
    cur.StoresGain weekCap totalCap count tracked ↔ totalCap ≠ 0 ∧ cur.quantity = totalCap := by
  have hLt := cur.weeklyQuantity.toNat_lt
  have hNoWeek : weekCap = 0 := by
    by_contra hCap
    have hLe := hWithin.week hCap
    omega
  have hCapped : cur.capped weekCap totalCap count =
      Counts.cutToTotalCap ⟨cur.quantity.toNat + count, notNegative (int32 cur.weeklyQuantity + count)⟩ weekCap
        totalCap := by
    rw [PlayerCurrency.capped, if_pos hPos, int32_of_lt (by omega), notNegative_of_le (by omega)]
    exact congrArg (Counts.cutToTotalCap · weekCap totalCap) (if_neg fun h => h.1 hNoWeek)
  rw [PlayerCurrency.StoresGain, hCapped, Counts.cutToTotalCap]
  split
  · rename_i hOver
    obtain ⟨hCap, hMore⟩ := hOver
    obtain hAt | hBelow := eq_or_ne cur.quantity totalCap
    · have hKept : cur.store ⟨int32 totalCap, int32 weekCap⟩ tracked = cur :=
        if_neg (not_not.mpr ((uint32_int32 totalCap).trans hAt.symm))
      rw [hKept]
      exact iff_of_true ⟨⟨Nat.le_refl _, by omega⟩, hWithin⟩ ⟨hCap, hAt⟩
    · refine iff_of_false (fun h => ?_) fun h => hBelow h.2
      have hWeek := h.1.week
      rw [store_weeklyQuantity, store_quantity, uint32_int32, uint32_int32, if_neg hBelow.symm, hNoWeek,
        UInt32.toNat_zero] at hWeek
      omega
  · rename_i hUnder
    refine iff_of_false (fun h => ?_) fun h => hUnder ⟨h.1, ?_⟩
    · have hWeek := h.1.week
      have hNat := uint32_toNat_of_range (z := cur.quantity.toNat + count) (by omega) (by omega)
      have hMoved : uint32 (cur.quantity.toNat + count) ≠ cur.quantity := by
        intro hSame
        rw [hSame] at hNat
        omega
      have hWeekNat := uint32_toNat (notNegative (int32 cur.weeklyQuantity + count))
      rw [store_weeklyQuantity, store_quantity, if_neg hMoved] at hWeek
      dsimp only at hWeek
      rw [int32_of_le hLarge, notNegative] at hWeekNat hWeek
      omega
    · rw [int32_of_lt hTotalCap, ← h.2]
      dsimp only
      omega

theorem gained_iff (hMax : count < 2 ^ 31) :
    (∃ cur', cur.add weekCap totalCap count = some cur' ∧ Gained cur cur' ∧ cur'.WithinCaps weekCap totalCap) ↔
      cur.Gainable weekCap totalCap count := by
  have hStores : (∃ cur', cur.add weekCap totalCap count = some cur' ∧ Gained cur cur' ∧
      cur'.WithinCaps weekCap totalCap) ↔
      ((cur.trackedQuantity.toNat < 2 ^ 31 → cur.trackedQuantity.toNat + count < 2 ^ 31) ∧
        (cur.quantity.toNat < 2 ^ 31 → cur.quantity.toNat + count < 2 ^ 31) ∧
        (cur.weeklyQuantity.toNat < 2 ^ 31 → cur.weeklyQuantity.toNat + count < 2 ^ 31)) ∧
      cur.StoresGain weekCap totalCap count (notNegative (int32 cur.trackedQuantity + count)) := by
    simp only [add_eq_some, if_pos hPos, inInt32_add_iff _ hPos hMax]
    constructor
    · rintro ⟨cur', ⟨hRanges, rfl⟩, hStored⟩
      exact ⟨hRanges, hStored⟩
    · exact fun h => ⟨_, ⟨h.1, rfl⟩, h.2⟩
  rw [hStores]
  constructor
  · rintro ⟨⟨hTracked, hQuantity, hWeekly⟩, hStored⟩
    by_cases hSmall : cur.quantity.toNat < 2 ^ 31
    · by_cases hWeekSmall : cur.weeklyQuantity.toNat < 2 ^ 31
      · exact ⟨hTracked, hQuantity, hWeekly, (storesGain_iff_of_small hWithin hWeekCap hTotalCap hPos (hQuantity hSmall)
          (hWeekly hWeekSmall)).mp hStored, fun h => absurd hSmall (Nat.not_lt.mpr h),
          fun h => absurd hWeekSmall (Nat.not_lt.mpr h)⟩
      · have hAt := (storesGain_iff_of_largeWeekly hWithin hWeekCap hTotalCap hPos (hQuantity hSmall)
          (Nat.not_lt.mp hWeekSmall) hMax).mp hStored
        exact ⟨hTracked, hQuantity, hWeekly, fun _ hNe => absurd hAt.2 hNe, fun h => absurd hSmall (Nat.not_lt.mpr h),
          fun _ => hAt⟩
    · have hUp := (storesGain_iff_of_large hWithin hWeekCap hTotalCap hPos (Nat.not_lt.mp hSmall) hMax hWeekly).mp hStored
      refine ⟨hTracked, hQuantity, hWeekly, fun hCap => ?_, fun _ => hUp, fun hLarge => ?_⟩
      · have hLe := hWithin.total hCap
        omega
      · have hLe := hWithin.week hUp.1
        omega
  · rintro ⟨hTracked, hQuantity, hWeekly, hTotal, hLarge, hLargeWeekly⟩
    refine ⟨⟨hTracked, hQuantity, hWeekly⟩, ?_⟩
    by_cases hSmall : cur.quantity.toNat < 2 ^ 31
    · by_cases hWeekSmall : cur.weeklyQuantity.toNat < 2 ^ 31
      · exact (storesGain_iff_of_small hWithin hWeekCap hTotalCap hPos (hQuantity hSmall) (hWeekly hWeekSmall)).mpr hTotal
      · exact (storesGain_iff_of_largeWeekly hWithin hWeekCap hTotalCap hPos (hQuantity hSmall)
          (Nat.not_lt.mp hWeekSmall) hMax).mpr (hLargeWeekly (Nat.not_lt.mp hWeekSmall))
    · exact (storesGain_iff_of_large hWithin hWeekCap hTotalCap hPos (Nat.not_lt.mp hSmall) hMax hWeekly).mpr
        (hLarge (Nat.not_lt.mp hSmall))

end Gain

end AshamaneCore.Currencies
