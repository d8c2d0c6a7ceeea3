import AshamaneCore.Game.CurrencyAmounts
import AshamaneCore.Library.Transition

/-!
# Stored currencies

The state of a currency decides whether a save replaces its row, updates a row that is
there, or does nothing. The rows of one character are known by 16-bit identifiers.
-/

namespace AshamaneCore.Currencies

open Library

structure CurrencyRow where
  quantity : UInt32
  weeklyQuantity : UInt32
  trackedQuantity : UInt32
  flags : UInt8
  deriving DecidableEq

def PlayerCurrency.row (cur : PlayerCurrency) : CurrencyRow :=
  ⟨cur.quantity, cur.weeklyQuantity, cur.trackedQuantity, cur.flags⟩

/-- The identifiers of currencies fit the column of the rows. -/
structure StoredWorld extends World where
  fits : ∀ id, (currencyTypesStore id).isSome → id < 2 ^ 16

structure Stored where
  player : Player
  rows : UInt16 → Option CurrencyRow

namespace Player

variable (w : World) (p : Player)

/-- The count with its multipliers is what comes of the floating-point product. None is a failed assertion or an
overflow. -/
def modifyMultiplied (id : Nat) (count multiplied : Int32) : Option Player :=
  if count = 0 then some p
  else
    (w.currencyTypesStore id).bind fun entry =>
      ((p.currency id).add (getCurrencyWeekCap entry) (w.getCurrencyTotalCap entry)
        (cutCount (w.getCurrencyTotalCap entry) (cutCount (getCurrencyWeekCap entry) multiplied.toInt))).map fun cur =>
          ⟨Function.update p.currencyStorage id (some cur)⟩

def setCurrency (id : Nat) (count : UInt32) : Player :=
  match p.currencyStorage id with
  | some _ => p
  | none => ⟨Function.update p.currencyStorage id (some ⟨.new, count, 0, 0, 0⟩)⟩

end Player

namespace StoredWorld

variable (w : StoredWorld)

def Exists (id : Nat) : Prop := (w.currencyTypesStore id).isSome = true

instance (id : Nat) : Decidable (w.Exists id) := inferInstanceAs (Decidable (_ = true))

def loadCurrency (rows : UInt16 → Option CurrencyRow) : Player :=
  ⟨fun id => if w.Exists id then (rows (UInt16.ofNat id)).map fun row =>
    ⟨.unchanged, row.quantity, row.weeklyQuantity, row.trackedQuantity, row.flags⟩ else none⟩

/-- What the statement for a currency makes of its row. -/
def saved (row : Option CurrencyRow) (cur : PlayerCurrency) : Option CurrencyRow :=
  match cur.state with
  | .new => some cur.row
  | .changed => row.map fun _ => cur.row
  | .unchanged => row
  | .removed => row

def saveCurrency (s : Stored) : Stored where
  player := ⟨fun id => (s.player.currencyStorage id).map fun cur =>
    if w.Exists id then { cur with state := .unchanged } else cur⟩
  rows key :=
    if w.Exists key.toNat then (s.player.currencyStorage key.toNat).elim (s.rows key) (saved (s.rows key))
    else s.rows key

end StoredWorld

inductive StoredCall
  | modify (id : Nat) (count multiplied : Int32)
  | set (id : Nat) (count : UInt32)
  | resetWeekCap
  | save
  deriving DecidableEq

namespace Stored

variable (w : StoredWorld) (s : Stored)

/-- A call that fails ends the program, and leaves no state behind. -/
def step : StoredCall → Stored
  | .modify id count multiplied =>
    { s with player := (s.player.modifyMultiplied w.toWorld id count multiplied).getD s.player }
  | .set id count => { s with player := s.player.setCurrency id count }
  | .resetWeekCap => { s with player := s.player.resetCurrencyWeekCap }
  | .save => w.saveCurrency s

def loaded (rows : UInt16 → Option CurrencyRow) : Stored := ⟨w.loadCurrency rows, rows⟩

/-- The rows are the currencies of the player, and loading them gives the currencies again. -/
structure Persisted : Prop where
  rows : ∀ id, w.Exists id → s.rows (UInt16.ofNat id) = (s.player.currencyStorage id).map PlayerCurrency.row
  reloaded : ∀ id, w.Exists id → (w.loadCurrency s.rows).currencyStorage id = s.player.currencyStorage id

def Right (call : StoredCall) : Prop := call = .save → (s.step w call).Persisted w

/-- No week is reset while a currency waits for its first save. -/
def Kept (call : StoredCall) : Prop :=
  call = .resetWeekCap → ∀ id cur, w.Exists id → s.player.currencyStorage id = some cur → cur.state ≠ .new

/-! ## Rows and states -/

/-- A new currency has no row, a changed one has some row, and an unchanged one has its own. -/
def Agrees (row : Option CurrencyRow) : Option PlayerCurrency → Prop
  | none => row = none
  | some cur =>
    match cur.state with
    | .new => row = none
    | .changed => row.isSome = true
    | .unchanged => row = some cur.row
    | .removed => False

def Synced : Prop := ∀ id, w.Exists id → Agrees (s.rows (UInt16.ofNat id)) (s.player.currencyStorage id)

/-- A currency that is taken for a stored one has no row. -/
def Lost (id : Nat) : Prop :=
  s.rows (UInt16.ofNat id) = none ∧ ∃ cur, s.player.currencyStorage id = some cur ∧ cur.state ≠ .new

/-- What a call other than a reset or a save makes of a currency. -/
inductive Altered : Option PlayerCurrency → Option PlayerCurrency → Prop
  | same (found : Option PlayerCurrency) : Altered found found
  | created {cur : PlayerCurrency} (hNew : cur.state = .new) : Altered none (some cur)
  | changed {cur cur' : PlayerCurrency} (hState : cur'.state = if cur.state ≠ .new then .changed else cur.state) :
    Altered (some cur) (some cur')

variable {w s} {id : Nat} {cur cur' : PlayerCurrency} {row : Option CurrencyRow}

theorem toNat_ofNat (hExists : w.Exists id) : (UInt16.ofNat id).toNat = id :=
  Nat.mod_eq_of_lt (w.fits id hExists)

theorem add_state {weekCap totalCap : UInt32} {count : Int} (h : cur.add weekCap totalCap count = some cur') :
    cur' = cur ∨ cur'.state = if cur.state ≠ .new then .changed else cur.state := by
  obtain ⟨-, rfl⟩ := add_eq_some.mp h
  rw [PlayerCurrency.store]
  split
  · exact Or.inr rfl
  · exact Or.inl rfl

theorem Altered.agrees {found found' : Option PlayerCurrency} (h : Altered found found') (hAgrees : Agrees row found) :
    Agrees row found' := by
  cases h with
  | same => exact hAgrees
  | created hNew =>
    rw [Agrees, hNew]
    exact hAgrees
  | @changed cur cur' hState =>
    rw [Agrees] at hAgrees ⊢
    cases hOld : cur.state <;> simp_all

theorem Altered.kept {found : Option PlayerCurrency} (h : Altered (some cur) found) (hState : cur.state ≠ .new) :
    ∃ cur', found = some cur' ∧ cur'.state ≠ .new := by
  cases h with
  | same => exact ⟨cur, rfl, hState⟩
  | @changed _ cur' hNext =>
    refine ⟨cur', rfl, ?_⟩
    rw [hNext, if_pos hState]
    decide

theorem altered_modify {w : World} {p p' : Player} {count multiplied : Int32}
    (h : p.modifyMultiplied w id count multiplied = some p') (other : Nat) :
    Altered (p.currencyStorage other) (p'.currencyStorage other) := by
  rw [Player.modifyMultiplied] at h
  split at h
  · cases h
    exact .same _
  · obtain ⟨entry, -, hAdd⟩ := Option.bind_eq_some_iff.mp h
    obtain ⟨cur', hCur, rfl⟩ := Option.map_eq_some_iff.mp hAdd
    dsimp only
    by_cases hOther : other = id
    · subst hOther
      rw [Function.update_self]
      rw [Player.currency] at hCur
      cases hFound : p.currencyStorage other with
      | none =>
        rw [hFound] at hCur
        refine .created ?_
        rcases add_state hCur with rfl | hState
        · rfl
        · exact hState
      | some cur =>
        rw [hFound] at hCur
        rcases add_state hCur with rfl | hState
        · exact .same _
        · exact .changed hState
    · rw [Function.update_of_ne hOther]
      exact .same _

theorem altered_set (p : Player) (count : UInt32) (other : Nat) :
    Altered (p.currencyStorage other) ((p.setCurrency id count).currencyStorage other) := by
  rw [Player.setCurrency]
  split
  · exact .same _
  · rename_i hNone
    dsimp only
    by_cases hOther : other = id
    · rw [hOther, hNone, Function.update_self]
      exact .created rfl
    · rw [Function.update_of_ne hOther]
      exact .same _

/-- Calls other than a reset or a save leave the rows and alter currencies. -/
theorem step_altered {call : StoredCall} (hReset : call ≠ .resetWeekCap) (hSave : call ≠ .save) :
    (s.step w call).rows = s.rows ∧
      ∀ id, Altered (s.player.currencyStorage id) ((s.step w call).player.currencyStorage id) := by
  cases call with
  | modify id count multiplied =>
    refine ⟨rfl, fun other => ?_⟩
    rw [step]
    cases hRun : s.player.modifyMultiplied w.toWorld id count multiplied with
    | none => exact .same _
    | some p' => exact altered_modify hRun other
  | set id count => exact ⟨rfl, fun other => altered_set s.player count other⟩
  | resetWeekCap => exact absurd rfl hReset
  | save => exact absurd rfl hSave

/-! ## Saves and resets -/

theorem rows_save (hExists : w.Exists id) : (w.saveCurrency s).rows (UInt16.ofNat id) =
    (s.player.currencyStorage id).elim (s.rows (UInt16.ofNat id)) (StoredWorld.saved (s.rows (UInt16.ofNat id))) := by
  rw [StoredWorld.saveCurrency]
  dsimp only
  rw [toNat_ofNat hExists, if_pos hExists]

theorem player_save (hExists : w.Exists id) : (w.saveCurrency s).player.currencyStorage id =
    (s.player.currencyStorage id).map fun cur => { cur with state := .unchanged } := by
  rw [StoredWorld.saveCurrency]
  simp only [if_pos hExists]

theorem Synced.persisted (h : s.Synced w) : (w.saveCurrency s).Persisted w := by
  have hRows : ∀ id, w.Exists id → (w.saveCurrency s).rows (UInt16.ofNat id) =
      ((w.saveCurrency s).player.currencyStorage id).map PlayerCurrency.row := by
    intro id hExists
    have hAgrees := h id hExists
    rw [rows_save hExists, player_save hExists]
    cases hFound : s.player.currencyStorage id with
    | none =>
      rw [hFound] at hAgrees
      exact hAgrees
    | some cur =>
      rw [hFound, Agrees] at hAgrees
      rw [Option.elim_some, StoredWorld.saved]
      cases hState : cur.state with
      | new => rfl
      | changed =>
        rw [hState] at hAgrees
        obtain ⟨old, hOld⟩ := Option.isSome_iff_exists.mp hAgrees
        rw [hOld]
        rfl
      | unchanged =>
        rw [hState] at hAgrees
        exact hAgrees
      | removed =>
        rw [hState] at hAgrees
        exact hAgrees.elim
  refine ⟨hRows, fun id hExists => ?_⟩
  rw [StoredWorld.loadCurrency]
  dsimp only
  rw [if_pos hExists, hRows id hExists, player_save hExists, Option.map_map, Option.map_map]
  rfl

theorem Persisted.synced (h : (w.saveCurrency s).Persisted w) : (w.saveCurrency s).Synced w := by
  intro id hExists
  rw [h.rows id hExists, player_save hExists]
  cases s.player.currencyStorage id with
  | none => rfl
  | some cur => rfl

theorem Synced.reset (h : s.Synced w) (hKept : s.Kept w .resetWeekCap) : (s.step w .resetWeekCap).Synced w := by
  intro id hExists
  have hAgrees := h id hExists
  change Agrees _ ((s.player.currencyStorage id).map fun cur => { cur with weeklyQuantity := 0, state := .changed })
  cases hFound : s.player.currencyStorage id with
  | none =>
    rw [hFound] at hAgrees
    exact hAgrees
  | some cur =>
    have hOld := hKept rfl id cur hExists hFound
    rw [hFound, Agrees] at hAgrees
    change (s.rows (UInt16.ofNat id)).isSome = true
    cases hState : cur.state with
    | new => exact absurd hState hOld
    | changed =>
      rw [hState] at hAgrees
      exact hAgrees
    | unchanged =>
      rw [hState] at hAgrees
      rw [hAgrees]
      rfl
    | removed =>
      rw [hState] at hAgrees
      exact hAgrees.elim

theorem Synced.step (h : s.Synced w) {call : StoredCall} (hKept : s.Kept w call) : (s.step w call).Synced w := by
  by_cases hReset : call = .resetWeekCap
  · subst hReset
    exact h.reset hKept
  by_cases hSave : call = .save
  · subst hSave
    exact h.persisted.synced
  obtain ⟨hRows, hAltered⟩ := step_altered (w := w) (s := s) hReset hSave
  intro id hExists
  rw [hRows]
  exact (hAltered id).agrees (h id hExists)

/-- A reset takes every currency without a row for a stored one. -/
theorem lost_reset (hNone : s.rows (UInt16.ofNat id) = none) (hFound : s.player.currencyStorage id = some cur) :
    (s.step w .resetWeekCap).Lost id := by
  refine ⟨hNone, { cur with weeklyQuantity := 0, state := .changed }, ?_, nofun⟩
  change (s.player.currencyStorage id).map _ = _
  rw [hFound]
  rfl

theorem Lost.step (hExists : w.Exists id) (h : s.Lost id) (call : StoredCall) : (s.step w call).Lost id := by
  obtain ⟨hNone, cur, hFound, hState⟩ := h
  by_cases hReset : call = .resetWeekCap
  · subst hReset
    exact lost_reset hNone hFound
  by_cases hSave : call = .save
  · subst hSave
    refine ⟨?_, { cur with state := .unchanged }, ?_, nofun⟩
    · change (w.saveCurrency s).rows _ = none
      rw [rows_save hExists, hFound, hNone, Option.elim_some, StoredWorld.saved]
      cases hCur : cur.state with
      | new => exact absurd hCur hState
      | changed => rfl
      | unchanged => rfl
      | removed => rfl
    · change (w.saveCurrency s).player.currencyStorage id = _
      rw [player_save hExists, hFound]
      rfl
  obtain ⟨hRows, hAltered⟩ := step_altered (w := w) (s := s) hReset hSave
  refine ⟨hRows ▸ hNone, ?_⟩
  have hKept := hAltered id
  rw [hFound] at hKept
  exact hKept.kept hState

theorem Lost.not_right (hExists : w.Exists id) (h : s.Lost id) : ¬ s.Right w .save := by
  intro hRight
  obtain ⟨hNone, cur, hFound, -⟩ := h.step hExists .save
  have hSame := (hRight rfl).rows id hExists
  rw [hNone, hFound] at hSame
  cases hSame

theorem loaded_synced (w : StoredWorld) (rows : UInt16 → Option CurrencyRow) : (loaded w rows).Synced w := by
  intro id hExists
  change Agrees (rows (UInt16.ofNat id)) (if w.Exists id then _ else none)
  rw [if_pos hExists]
  cases hRow : rows (UInt16.ofNat id) with
  | none => rfl
  | some row => rfl

/-! ## Runs -/

/-- All saves of a run and one at its end keep every currency exactly if no week is reset while a currency waits for its
first save. -/
theorem along_kept_iff (w : StoredWorld) (rows : UInt16 → Option CurrencyRow) (calls : List StoredCall) :
    Transition.Along (step w) (Right w) (loaded w rows) (calls ++ [.save]) ↔
      Transition.Along (step w) (Kept w) (loaded w rows) calls := by
  have hLoaded := loaded_synced w rows
  generalize loaded w rows = s at hLoaded
  constructor
  · induction calls generalizing s with
    | nil => exact fun _ => trivial
    | cons call calls ih =>
      rintro ⟨hFirst, hRest⟩
      have hKept : s.Kept w call := by
        rintro rfl id cur hExists hFound hNew
        have hNone := hLoaded id hExists
        rw [hFound, Agrees, hNew] at hNone
        -- the reset makes a changed currency of it that has no row
        have hLost := lost_reset (w := w) hNone hFound
        have hLast := Transition.invariant (P := fun s : Stored => s.Lost id)
          (fun _ call hLost => hLost.step hExists call) hLost calls
        exact hLast.not_right hExists (Transition.along_append.mp hRest).2.1
      exact ⟨hKept, ih _ (hLoaded.step hKept) hRest⟩
  · intro h
    refine Transition.along_append.mpr ⟨h.judge (I := fun s => s.Synced w) (fun s call hSynced hKept =>
      ⟨?_, hSynced.step hKept⟩) hLoaded, ?_, trivial⟩
    · rintro rfl
      exact hSynced.persisted
    · have hLast := Transition.invariant_along (P := fun s : Stored => s.Synced w) (fun _ _ hSynced => hSynced.step) hLoaded h
      exact fun _ => hLast.persisted

/-- One currency without caps. -/
def oneCurrency : StoredWorld where
  currencyTypesStore id := if id = 390 then some ⟨390, 0, 0⟩ else none
  currencyMaxApexisCrystals := 0
  currencyMaxJusticePoints := 0
  fits id h := by
    by_contra hLarge
    rw [if_neg (by omega)] at h
    cases h

/-- The first gain of a currency is followed by a new week, and no row is ever written. -/
theorem gain_reset_lost :
    ((loaded oneCurrency fun _ => none).step oneCurrency (.modify 390 5 5)).player.currencyStorage 390 =
      some ⟨.new, 5, 5, 5, 0⟩ ∧
    (Transition.run (step oneCurrency) (loaded oneCurrency fun _ => none)
      [.modify 390 5 5, .resetWeekCap, .save]).rows 390 = none ∧
    ¬ Transition.Along (step oneCurrency) (Right oneCurrency) (loaded oneCurrency fun _ => none)
      [.modify 390 5 5, .resetWeekCap, .save] := by
  have hRows : (Transition.run (step oneCurrency) (loaded oneCurrency fun _ => none)
      [.modify 390 5 5, .resetWeekCap, .save]).rows 390 = none := by decide
  refine ⟨by decide, hRows, fun hRight => ?_⟩
  have hSame := (hRight.2.2.1 rfl).rows 390 rfl
  rw [show (UInt16.ofNat 390) = 390 from rfl] at hSame
  exact absurd (hRows.symm.trans hSame) (by decide)

end Stored

end AshamaneCore.Currencies
