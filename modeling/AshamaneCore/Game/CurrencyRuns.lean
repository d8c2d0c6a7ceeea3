import AshamaneCore.Game.CurrencyAmounts
import AshamaneCore.Library.Transition

/-!
# Runs of currency changes

The condition on one call is carried along a run. Other currencies stay as they are, and a
reset clears the weekly amounts of all.
-/

namespace AshamaneCore.Currencies

open Library Library.SignedWords

/-! ## Counts -/

variable {cap : UInt32} {count : Int}

theorem cutCount_of_neg (hCap : cap.toNat < 2 ^ 31) (hNeg : count < 0) : cutCount cap count = count := by
  refine if_neg fun h => ?_
  have hLt := h.2
  rw [int32_of_lt hCap] at hLt
  omega

theorem cutCount_pos (hCap : cap.toNat < 2 ^ 31) (hPos : 0 < count) :
    0 < cutCount cap count ∧ cutCount cap count ≤ count := by
  rw [cutCount]
  split
  · rename_i h
    obtain ⟨hSome, hLt⟩ := h
    have hNe : cap.toNat ≠ 0 := fun hZero => hSome (UInt32.toNat_inj.mp hZero)
    rw [int32_of_lt hCap] at hLt ⊢
    omega
  · exact ⟨hPos, Int.le_refl _⟩

/-! ## Calls -/

/-- Caps are signed numbers, as the code compares them. -/
def World.SignedCaps (w : World) : Prop :=
  ∀ id entry, w.currencyTypesStore id = some entry →
    (getCurrencyWeekCap entry).toNat < 2 ^ 31 ∧ (w.getCurrencyTotalCap entry).toNat < 2 ^ 31

namespace Player

def cutCounts (w : World) (entry : CurrencyTypesEntry) (count : Int32) : Int :=
  cutCount (w.getCurrencyTotalCap entry) (cutCount (getCurrencyWeekCap entry) count.toInt)

def WithinCaps (w : World) (p : Player) : Prop :=
  ∀ id entry, w.currencyTypesStore id = some entry →
    (p.currency id).WithinCaps (getCurrencyWeekCap entry) (w.getCurrencyTotalCap entry)

structure Changed (w : World) (p : Player) (id : Nat) (count : Int) (p' : Player) : Prop where
  gain : 0 < count → Gained (p.currency id) (p'.currency id)
  loss : count < 0 → Lost (p.currency id) count (p'.currency id)
  others : ∀ other, other ≠ id → p'.currency other = p.currency other
  caps : p'.WithinCaps w

/-- No call of a currency that exists fails, and each does what is asked. -/
def Right (w : World) (p : Player) : Call → Prop
  | .modify id count => ∀ entry, w.currencyTypesStore id = some entry →
      ∃ p', p.modifyCurrency w id count = some p' ∧ p.Changed w id count.toInt p'
  | .resetWeekCap => p.resetCurrencyWeekCap.WithinCaps w

/-- A gain is gainable, and a loss finds nothing or signed numbers. -/
def Fair (w : World) (p : Player) : Call → Prop
  | .modify id count => ∀ entry, w.currencyTypesStore id = some entry →
      (0 < count.toInt → (p.currency id).Gainable (getCurrencyWeekCap entry) (w.getCurrencyTotalCap entry)
        (cutCounts w entry count)) ∧
      (count.toInt < 0 → (p.currency id).quantity = 0 ∨ ((p.currency id).quantity.toNat < 2 ^ 31 ∧
        (p.currency id).weeklyQuantity.toNat < 2 ^ 31 ∧ (p.currency id).trackedQuantity.toNat < 2 ^ 31))
  | .resetWeekCap => True

variable {w : World} {p p' : Player} {id : Nat} {entry : CurrencyTypesEntry}

theorem currency_update (p : Player) (id : Nat) (cur : PlayerCurrency) :
    Player.currency ⟨Function.update p.currencyStorage id (some cur)⟩ id = cur := by
  have hSelf : Function.update p.currencyStorage id (some cur) id = some cur := Function.update_self ..
  rw [currency]
  exact congrArg (Option.getD · newCurrency) hSelf

theorem currency_update_of_ne {other : Nat} (hNe : other ≠ id) (p : Player) (cur : PlayerCurrency) :
    Player.currency ⟨Function.update p.currencyStorage id (some cur)⟩ other = p.currency other := by
  have hOther : Function.update p.currencyStorage id (some cur) other = p.currencyStorage other :=
    Function.update_of_ne hNe ..
  exact congrArg (Option.getD · newCurrency) hOther

theorem WithinCaps.update (h : p.WithinCaps w) (hEntry : w.currencyTypesStore id = some entry) {cur : PlayerCurrency}
    (hCur : cur.WithinCaps (getCurrencyWeekCap entry) (w.getCurrencyTotalCap entry)) :
    Player.WithinCaps w ⟨Function.update p.currencyStorage id (some cur)⟩ := by
  intro other found hFound
  obtain rfl | hNe := eq_or_ne other id
  · obtain rfl := Option.some.inj (hEntry.symm.trans hFound)
    rwa [currency_update]
  · rw [currency_update_of_ne hNe]
    exact h other found hFound

theorem reset_amounts (p : Player) (id : Nat) :
    (p.resetCurrencyWeekCap.currency id).quantity = (p.currency id).quantity ∧
    (p.resetCurrencyWeekCap.currency id).weeklyQuantity = 0 := by
  rw [currency, currency]
  change ((p.currencyStorage id).map _ |>.getD newCurrency).quantity = _ ∧ _ = _
  cases hCur : p.currencyStorage id with
  | none => exact ⟨rfl, by rw [resetCurrencyWeekCap]; simp [hCur, newCurrency]⟩
  | some cur => exact ⟨rfl, by rw [resetCurrencyWeekCap]; simp [hCur]⟩

theorem WithinCaps.reset (h : p.WithinCaps w) : p.resetCurrencyWeekCap.WithinCaps w := by
  intro id entry hEntry
  obtain ⟨hQuantity, hWeekly⟩ := reset_amounts p id
  refine ⟨fun hCap => ?_, fun _ => ?_⟩
  · rw [hQuantity]
    exact (h id entry hEntry).total hCap
  · rw [hWeekly]
    exact Nat.zero_le _

theorem right_modify_iff (hEntry : w.currencyTypesStore id = some entry) (h : p.WithinCaps w) {count : Int32}
    (hCount : count ≠ 0) {P : PlayerCurrency → Prop}
    (hP : ∀ p', p.Changed w id count.toInt p' ↔ (∀ other, other ≠ id → p'.currency other = p.currency other) ∧
      p'.WithinCaps w ∧ P (p'.currency id)) :
    (∃ p', p.modifyCurrency w id count = some p' ∧ p.Changed w id count.toInt p') ↔
      ∃ cur', (p.currency id).add (getCurrencyWeekCap entry) (w.getCurrencyTotalCap entry) (cutCounts w entry count) =
        some cur' ∧ P cur' ∧ cur'.WithinCaps (getCurrencyWeekCap entry) (w.getCurrencyTotalCap entry) := by
  rw [modifyCurrency, if_neg hCount, hEntry, Option.bind_some]
  constructor
  · rintro ⟨p', hRun, hChanged⟩
    obtain ⟨cur', hAdd, rfl⟩ := Option.map_eq_some_iff.mp hRun
    obtain ⟨-, hCaps, hGood⟩ := (hP _).mp hChanged
    have hWithin := hCaps id entry hEntry
    rw [currency_update] at hGood hWithin
    exact ⟨cur', hAdd, hGood, hWithin⟩
  · rintro ⟨cur', hAdd, hGood, hWithin⟩
    refine ⟨_, Option.map_eq_some_iff.mpr ⟨cur', hAdd, rfl⟩, (hP _).mpr ⟨?_, h.update hEntry hWithin, ?_⟩⟩
    · exact fun other hNe => currency_update_of_ne hNe p cur'
    · rwa [currency_update]

theorem right_iff (hSigned : w.SignedCaps) (h : p.WithinCaps w) (call : Call) : p.Right w call ↔ p.Fair w call := by
  cases call with
  | resetWeekCap => exact iff_of_true h.reset trivial
  | modify id count =>
    refine forall₂_congr fun entry hEntry => ?_
    obtain ⟨hWeekCap, hTotalCap⟩ := hSigned id entry hEntry
    have hWithin := h id entry hEntry
    have hMin := count.le_toInt
    have hMax := count.toInt_lt
    rcases lt_trichotomy count.toInt 0 with hNeg | hZero | hPos
    · have hNotPos : ¬ 0 < count.toInt := Int.not_lt.mpr (Int.le_of_lt hNeg)
      have hCount : count ≠ 0 := by
        rintro rfl
        exact absurd hNeg (by decide)
      have hCut : cutCounts w entry count = count.toInt := by
        rw [cutCounts, cutCount_of_neg hWeekCap hNeg, cutCount_of_neg hTotalCap hNeg]
      rw [right_modify_iff hEntry h hCount (P := fun cur' => Lost (p.currency id) count.toInt cur'), hCut,
        lost_iff hWithin hWeekCap hTotalCap hNeg hMin]
      · exact ⟨fun hFair => ⟨fun hPos => absurd hPos hNotPos, fun _ => hFair⟩, fun hFair => hFair.2 hNeg⟩
      · exact fun p' => ⟨fun hChanged => ⟨hChanged.others, hChanged.caps, hChanged.loss hNeg⟩,
          fun hAll => ⟨fun hPos => absurd hPos hNotPos, fun _ => hAll.2.2, hAll.1, hAll.2.1⟩⟩
    · have hCount : count = 0 := Int32.toInt_inj.mp hZero
      have hRun : p.modifyCurrency w id count = some p := if_pos hCount
      rw [hZero]
      refine iff_of_true ⟨p, hRun, ⟨fun hPos => absurd hPos (by decide), fun hNeg => absurd hNeg (by decide), fun _ _ => rfl,
        h⟩⟩ ⟨fun hPos => absurd hPos (by decide), fun hNeg => absurd hNeg (by decide)⟩
    · have hNotNeg : ¬ count.toInt < 0 := Int.not_lt.mpr (Int.le_of_lt hPos)
      have hCount : count ≠ 0 := by
        rintro rfl
        exact absurd hPos (by decide)
      obtain ⟨hFirst, hFirstLe⟩ := cutCount_pos hWeekCap hPos
      obtain ⟨hCut, hCutLe⟩ := cutCount_pos hTotalCap hFirst
      rw [right_modify_iff hEntry h hCount (P := fun cur' => Gained (p.currency id) cur'), cutCounts,
        gained_iff hWithin hWeekCap hTotalCap hCut (by omega)]
      · exact ⟨fun hFair => ⟨fun _ => hFair, fun hNeg => absurd hNeg hNotNeg⟩, fun hFair => hFair.1 hPos⟩
      · exact fun p' => ⟨fun hChanged => ⟨hChanged.others, hChanged.caps, hChanged.gain hPos⟩,
          fun hAll => ⟨fun _ => hAll.2.2, fun hNeg => absurd hNeg hNotNeg, hAll.1, hAll.2.1⟩⟩

theorem WithinCaps.step (h : p.WithinCaps w) {call : Call} (hRight : p.Right w call) :
    (p.step w call).WithinCaps w := by
  cases call with
  | resetWeekCap => exact hRight
  | modify id count =>
    rw [Player.step]
    cases hRun : p.modifyCurrency w id count with
    | none => exact h
    | some p' =>
      cases hEntry : w.currencyTypesStore id with
      | some entry =>
        obtain ⟨found, hFound, hChanged⟩ := hRight entry hEntry
        obtain rfl := Option.some.inj (hRun.symm.trans hFound)
        exact hChanged.caps
      | none =>
        rw [modifyCurrency, hEntry, Option.bind_none] at hRun
        split at hRun
        · cases hRun
          exact h
        · cases hRun

/-- Along a run every call is right exactly if every call is fair. -/
theorem along_right_iff (w : World) (hSigned : w.SignedCaps) (p : Player) (h : p.WithinCaps w) (calls : List Call) :
    Transition.Along (Player.step w) (fun p => p.Right w) p calls ↔
      Transition.Along (Player.step w) (fun p => p.Fair w) p calls :=
  Transition.along_congr (I := fun p : Player => p.WithinCaps w) (fun _ call hWithin => right_iff hSigned hWithin call)
    (fun _ call hWithin hFair => hWithin.step ((right_iff hSigned hWithin call).mpr hFair)) h calls

/-! ## Near the total cap -/

/-- One currency with a weekly cap of fifty below a total cap of a hundred, and one without caps. -/
def twoCurrencies : World :=
  ⟨fun id => if id = 390 then some ⟨390, 100, 50⟩ else if id = 391 then some ⟨391, 0, 0⟩ else none, 0, 0⟩

/-- Ten below the total cap, and as much as is signed of the other currency. -/
def nearCaps : Player :=
  ⟨fun id => if id = 390 then some ⟨.unchanged, 90, 0, 90, 0⟩
    else if id = 391 then some ⟨.unchanged, 2147483647, 0, 0, 0⟩ else none⟩

theorem twoCurrencies_entry (hEntry : twoCurrencies.currencyTypesStore id = some entry) :
    id = 390 ∧ entry = ⟨390, 100, 50⟩ ∨ id = 391 ∧ entry = ⟨391, 0, 0⟩ := by
  change (if id = 390 then _ else if id = 391 then _ else none) = some entry at hEntry
  split at hEntry
  · rename_i hId
    exact Or.inl ⟨hId, (Option.some.inj hEntry).symm⟩
  · split at hEntry
    · rename_i hId
      exact Or.inr ⟨hId, (Option.some.inj hEntry).symm⟩
    · cases hEntry

theorem twoCurrencies_signedCaps : twoCurrencies.SignedCaps := by
  intro id entry hEntry
  rcases twoCurrencies_entry hEntry with ⟨-, rfl⟩ | ⟨-, rfl⟩
  · decide
  · decide

theorem nearCaps_withinCaps : nearCaps.WithinCaps twoCurrencies := by
  intro id entry hEntry
  rcases twoCurrencies_entry hEntry with ⟨rfl, rfl⟩ | ⟨rfl, rfl⟩
  · exact ⟨by decide, by decide⟩
  · exact ⟨by decide, by decide⟩

/-- A gain below the caps, a loss of more than there is, and a reset. -/
theorem along_right_nearCaps :
    Transition.Along (Player.step twoCurrencies) (fun p => p.Right twoCurrencies) nearCaps
        [.modify 390 5, .modify 390 (-200), .resetWeekCap] ↔
      Transition.Along (Player.step twoCurrencies) (fun p => p.Fair twoCurrencies) nearCaps
        [.modify 390 5, .modify 390 (-200), .resetWeekCap] :=
  along_right_iff twoCurrencies twoCurrencies_signedCaps nearCaps nearCaps_withinCaps _

/-- A gain of twenty raises the total by ten and the weekly amount by fifty, and where no cap bounds the
sum it overflows. -/
theorem nearCaps_not_right : twoCurrencies.SignedCaps ∧ nearCaps.WithinCaps twoCurrencies ∧
    (nearCaps.step twoCurrencies (.modify 390 20)).currency 390 = ⟨.changed, 100, 50, 110, 0⟩ ∧
    ¬ nearCaps.Right twoCurrencies (.modify 390 20) ∧ nearCaps.modifyCurrency twoCurrencies 391 1 = none := by
  have hAfter : (nearCaps.step twoCurrencies (.modify 390 20)).currency 390 = ⟨.changed, 100, 50, 110, 0⟩ := by decide
  refine ⟨twoCurrencies_signedCaps, nearCaps_withinCaps, hAfter, fun hRight => ?_, ?_⟩
  · obtain ⟨p', hRun, hChanged⟩ := hRight ⟨390, 100, 50⟩ rfl
    have hWeek := (hChanged.gain (by decide)).week
    rw [step, hRun, Option.getD_some] at hAfter
    rw [hAfter] at hWeek
    exact absurd hWeek (by decide)
  · rw [modifyCurrency, if_neg (by decide)]
    decide

end Player

end AshamaneCore.Currencies
