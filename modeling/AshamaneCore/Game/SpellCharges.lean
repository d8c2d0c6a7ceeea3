import AshamaneCore.Library.Transition
import Mathlib.Algebra.Group.Nat.Defs
import Mathlib.Data.List.Chain
import Mathlib.Logic.Function.Basic

/-!
# Charges of spells

A category of spells has charges, and every consumed one stands in a queue until it is
recharged, which starts when the one before it is done. The number of charges and their
time depend on the auras of the owner, so both are what each call reads. Points in time
are ticks of the system clock, and they do not overflow.
-/

namespace AshamaneCore

open Library.Transition

structure SpellCategoryEntry where
  chargeRecoveryTime : Int32
  maxCharges : Int8
  deriving DecidableEq

/-- What a call reads: the store of categories and the auras of the owner. -/
structure ChargeRules where
  lookupEntry : UInt32 → Option SpellCategoryEntry
  maxChargesModifier : UInt32 → Int32
  /-- The recovery time of a category of the store, after all modifiers. -/
  recoveryTime : UInt32 → Int32

structure ChargeEntry where
  rechargeStart : Int
  rechargeEnd : Int
  deriving DecidableEq

def ChargeEntry.shift (ticks : Int) (e : ChargeEntry) : ChargeEntry :=
  ⟨e.rechargeStart - ticks, e.rechargeEnd - ticks⟩

/-- The queues of the categories, and none for a category that is not in the map. -/
structure SpellCharges where
  categoryCharges : UInt32 → Option (List ChargeEntry)

namespace SpellCharges

def empty : SpellCharges := ⟨fun _ => none⟩

def ticksPerMillisecond : Int := 1000000

def getMaxCharges (rules : ChargeRules) (categoryId : UInt32) : Int32 :=
  match rules.lookupEntry categoryId with
  | none => 0
  | some entry => entry.maxCharges.toInt32 + rules.maxChargesModifier categoryId

def getChargeRecoveryTime (rules : ChargeRules) (categoryId : UInt32) : Int32 :=
  match rules.lookupEntry categoryId with
  | none => 0
  | some _ => rules.recoveryTime categoryId

/-- The queue of a category, as the subscript of the map gives it. -/
def charges (s : SpellCharges) (categoryId : UInt32) : List ChargeEntry :=
  (s.categoryCharges categoryId).getD []

def assign (s : SpellCharges) (categoryId : UInt32) (l : List ChargeEntry) : SpellCharges :=
  ⟨Function.update s.categoryCharges categoryId (some l)⟩

def consumeCharge (rules : ChargeRules) (categoryId : UInt32) (now : Int) (s : SpellCharges) :
    Bool × SpellCharges :=
  if (rules.lookupEntry categoryId).isNone then (false, s)
  else
    let chargeRecovery := getChargeRecoveryTime rules categoryId
    if 0 < chargeRecovery ∧ 0 < getMaxCharges rules categoryId then
      let l := s.charges categoryId
      let recoveryStart := (l.getLast?.map (·.rechargeEnd)).getD now
      (true, s.assign categoryId
        (l ++ [⟨recoveryStart, recoveryStart + chargeRecovery.toInt * ticksPerMillisecond⟩]))
    else (false, s)

def popRecharged (now : Int) (l : List ChargeEntry) : List ChargeEntry :=
  l.dropWhile fun e => e.rechargeEnd ≤ now

def updateCharge (categoryId : UInt32) (now : Int) (s : SpellCharges) : SpellCharges :=
  s.assign categoryId (popRecharged now (s.charges categoryId))

def reduceChargeCooldown (categoryId : UInt32) (reductionTime : UInt32) (now : Int)
    (s : SpellCharges) : SpellCharges :=
  let ticks := (reductionTime.toNat : Int) * ticksPerMillisecond
  updateCharge categoryId now (s.assign categoryId ((s.charges categoryId).map (ChargeEntry.shift ticks)))

def restoreCharge (categoryId : UInt32) (s : SpellCharges) : SpellCharges :=
  match s.categoryCharges categoryId with
  | none => s
  | some l => if l.isEmpty then s else s.assign categoryId l.dropLast

def resetCharges (categoryId : UInt32) (s : SpellCharges) : SpellCharges :=
  ⟨Function.update s.categoryCharges categoryId none⟩

def update (now : Int) (s : SpellCharges) : SpellCharges :=
  ⟨fun c => (s.categoryCharges c).map (popRecharged now)⟩

/-- A size as a signed number of 32 bits. -/
def int32 (size : Nat) : Int := (size : Int).bmod (2 ^ 32)

def hasCharge (rules : ChargeRules) (s : SpellCharges) (categoryId : UInt32) : Bool :=
  if (rules.lookupEntry categoryId).isNone then true
  else
    let maxCharges := getMaxCharges rules categoryId
    if maxCharges ≤ 0 then true
    else
      match s.categoryCharges categoryId with
      | none => true
      | some l => int32 l.length < maxCharges.toInt

def getChargeCount (rules : ChargeRules) (s : SpellCharges) (categoryId : UInt32) : Int :=
  if (rules.lookupEntry categoryId).isNone then 0
  else
    let maxCharges := getMaxCharges rules categoryId
    if maxCharges ≤ 0 then 0
    else
      match s.categoryCharges categoryId with
      | none => maxCharges.toInt
      | some l => max (maxCharges.toInt - int32 l.length) 0

inductive Operation
  | consumeCharge (rules : ChargeRules) (categoryId : UInt32) (now : Int)
  | restoreCharge (categoryId : UInt32)
  | reduceChargeCooldown (categoryId : UInt32) (reductionTime : UInt32) (now : Int)
  | updateCharge (categoryId : UInt32) (now : Int)
  | resetCharges (categoryId : UInt32)
  | resetAllCharges
  | update (now : Int)

def step (s : SpellCharges) : Operation → SpellCharges
  | .consumeCharge rules categoryId now => (s.consumeCharge rules categoryId now).2
  | .restoreCharge categoryId => s.restoreCharge categoryId
  | .reduceChargeCooldown categoryId reductionTime now => s.reduceChargeCooldown categoryId reductionTime now
  | .updateCharge categoryId now => s.updateCharge categoryId now
  | .resetCharges categoryId => s.resetCharges categoryId
  | .resetAllCharges => empty
  | .update now => s.update now

/-! ## Queues -/

/-- Every charge starts to recharge when the one before it is done, or later. -/
structure Chained (l : List ChargeEntry) : Prop where
  chain : l.IsChain fun a b => a.rechargeEnd ≤ b.rechargeStart
  positive : ∀ e ∈ l, e.rechargeStart < e.rechargeEnd

theorem chained_nil : Chained [] := ⟨List.isChain_nil, fun _ h => absurd h List.not_mem_nil⟩

variable {l : List ChargeEntry}

theorem Chained.of_segment {l' : List ChargeEntry} (h : Chained l) (hInfix : l' <:+: l) : Chained l' :=
  ⟨ List.IsChain.infix h.chain hInfix, fun e he => h.positive e (hInfix.subset he)⟩

theorem Chained.popRecharged (h : Chained l) (now : Int) :
    Chained (popRecharged now l) := h.of_segment (List.dropWhile_suffix _).isInfix

theorem Chained.shift (h : Chained l) (ticks : Int) :
    Chained (l.map (ChargeEntry.shift ticks)) := by
  constructor
  · rw [List.isChain_map]
    apply h.chain.imp
    intro a b hLe
    simp only [ChargeEntry.shift]
    omega
  · intro e he
    obtain ⟨f, hf, rfl⟩ := List.mem_map.mp he
    have hPositive := h.positive f hf
    simp only [ChargeEntry.shift]
    omega

theorem Chained.append (h : Chained l) {now length : Int} (hPositive : 0 < length) :
    let start := (l.getLast?.map (·.rechargeEnd)).getD now
    Chained (l ++ [⟨start, start + length⟩]) := by
  intro start
  constructor
  · rw [List.isChain_append]
    refine ⟨h.chain, List.isChain_singleton _, ?_⟩
    intro a ha b hb
    obtain rfl := Option.some.inj hb
    have hStart : start = a.rechargeEnd := by
      simp [start, Option.mem_def.mp ha]
    exact Int.le_of_eq hStart.symm
  · rw [List.forall_mem_append, List.forall_mem_singleton]
    refine ⟨h.positive, ?_⟩
    dsimp only
    omega

theorem Chained.pairwise (h : Chained l) :
    l.Pairwise fun a b => a.rechargeEnd < b.rechargeEnd := by
  induction l with
  | nil => exact List.Pairwise.nil
  | cons a l ih =>
    have hTail := ih (h.of_segment (List.suffix_cons a l).isInfix)
    apply List.Pairwise.cons _ hTail
    cases l with
    | nil => exact fun _ hb => absurd hb List.not_mem_nil
    | cons b l =>
      have hNext := (List.isChain_cons_cons.mp h.chain).1
      have hPositive := h.positive b (List.mem_cons_of_mem _ List.mem_cons_self)
      intro c hc
      rcases List.mem_cons.mp hc with rfl | hc
      · omega
      · have hLater := List.rel_of_pairwise_cons hTail hc
        omega

theorem Chained.popRecharged_eq (h : Chained l) (now : Int) :
    SpellCharges.popRecharged now l = l.filter fun e => now < e.rechargeEnd := by
  have hPairwise := h.pairwise
  clear h
  induction l with
  | nil => rfl
  | cons a l ih =>
    rw [SpellCharges.popRecharged]
    rcases Int.lt_or_le now a.rechargeEnd with hOpen | hDone
    · have hAll : ∀ b ∈ a :: l, now < b.rechargeEnd := by
        rintro b hb
        rcases List.mem_cons.mp hb with rfl | hb
        · exact hOpen
        · exact Int.lt_trans hOpen (List.rel_of_pairwise_cons hPairwise hb)
      rw [List.dropWhile_cons_of_neg (by simpa using hOpen)]
      exact (List.filter_eq_self.mpr fun b hb => decide_eq_true (hAll b hb)).symm
    · rw [List.dropWhile_cons_of_pos (by simpa using hDone),
        List.filter_cons_of_neg (by simpa using hDone)]
      exact ih hPairwise.of_cons

/-! ## Runs -/

def Formed (s : SpellCharges) : Prop := ∀ c l, s.categoryCharges c = some l → Chained l

theorem formed_empty : Formed empty := by
  intro c l hFind
  cases hFind

variable {s : SpellCharges}

theorem Formed.charges (h : Formed s) (c : UInt32) : Chained (s.charges c) := by
  rw [SpellCharges.charges]
  cases hFind : s.categoryCharges c with
  | none => exact chained_nil
  | some l => exact h c l hFind

theorem Formed.assign (h : Formed s) {c : UInt32}
    (hl : Chained l) : Formed (s.assign c l) := by
  intro d m hFind
  simp only [SpellCharges.assign, Function.update_apply] at hFind
  split at hFind
  · obtain rfl := Option.some.inj hFind
    exact hl
  · exact h d m hFind

theorem Formed.updateCharge (h : Formed s) (c : UInt32) (now : Int) :
    Formed (s.updateCharge c now) := h.assign ((h.charges c).popRecharged now)

theorem Formed.consumeCharge (h : Formed s) (rules : ChargeRules) (c : UInt32)
    (now : Int) : Formed (s.consumeCharge rules c now).2 := by
  rw [SpellCharges.consumeCharge]
  split
  · exact h
  · dsimp only
    split
    · rename_i hRules
      have hLength : 0 < (getChargeRecoveryTime rules c).toInt * ticksPerMillisecond := by
        have hRecovery := Int32.lt_iff_toInt_lt.mp hRules.1
        rw [Int32.toInt_zero] at hRecovery
        rw [ticksPerMillisecond]
        omega
      exact h.assign ((h.charges c).append hLength)
    · exact h

theorem Formed.step {s : SpellCharges} (h : Formed s) (o : Operation) : Formed (s.step o) := by
  cases o with
  | consumeCharge rules c now => exact h.consumeCharge rules c now
  | restoreCharge c =>
    rw [SpellCharges.step, restoreCharge]
    split
    · exact h
    · rename_i l hFind
      split
      · exact h
      · exact h.assign ((h c l hFind).of_segment (List.dropLast_prefix l).isInfix)
  | reduceChargeCooldown c reductionTime now =>
    apply Formed.updateCharge
    exact h.assign ((h.charges c).shift _)
  | updateCharge c now => exact h.updateCharge c now
  | resetCharges c =>
    intro d l hFind
    simp only [SpellCharges.step, resetCharges, Function.update_apply] at hFind
    split at hFind
    · cases hFind
    · exact h d l hFind
  | resetAllCharges => exact formed_empty
  | update now =>
    intro d l hFind
    obtain ⟨m, hFound, rfl⟩ := Option.map_eq_some_iff.mp hFind
    exact (h d m hFound).popRecharged now

theorem charges_update (s : SpellCharges) (now : Int) (c : UInt32) :
    (s.update now).charges c = popRecharged now (s.charges c) := by
  simp only [charges, update]
  cases s.categoryCharges c with
  | none => rfl
  | some l => rfl

/-! ## Counts -/

section Counts

variable {rules : ChargeRules} {c : UInt32} (h : 0 < getMaxCharges rules c)

include h

theorem lookupEntry_of_maxCharges : (rules.lookupEntry c).isNone = false := by
  cases hFind : rules.lookupEntry c with
  | none =>
    rw [getMaxCharges, hFind] at h
    exact absurd h Int32.lt_irrefl
  | some entry => rfl

theorem maxCharges_toInt : 0 < (getMaxCharges rules c).toInt := by
  have hLt := Int32.lt_iff_toInt_lt.mp h
  rwa [Int32.toInt_zero] at hLt

theorem hasCharge_iff (s : SpellCharges) :
    hasCharge rules s c = true ↔ 0 < getChargeCount rules s c := by
  have hMax := maxCharges_toInt h
  rw [hasCharge, getChargeCount, lookupEntry_of_maxCharges h]
  simp only [Bool.false_eq_true, if_false, Int32.not_le.mpr h]
  cases s.categoryCharges c with
  | none => simpa using hMax
  | some l =>
    rw [decide_eq_true_iff]
    dsimp only
    omega

omit h in
theorem int32_eq {n : Nat} (hFits : n < 2 ^ 31) : int32 n = n := by
  apply Int.bmod_eq_of_le
  · omega
  · omega

theorem getChargeCount_eq {s : SpellCharges} (hFits : (s.charges c).length < 2 ^ 31) :
    getChargeCount rules s c = max ((getMaxCharges rules c).toInt - (s.charges c).length) 0 := by
  have hMax := maxCharges_toInt h
  rw [getChargeCount, lookupEntry_of_maxCharges h]
  simp only [Bool.false_eq_true, if_false, Int32.not_le.mpr h]
  rw [charges] at hFits ⊢
  cases hFind : s.categoryCharges c with
  | none =>
    rw [Option.getD_none, List.length_nil]
    dsimp only
    omega
  | some l =>
    rw [hFind, Option.getD_some] at hFits
    rw [Option.getD_some]
    dsimp only
    rw [int32_eq hFits]

end Counts

/-- In every run the queues are chains, an update leaves the charges that are not yet recharged,
and a spell can be cast as long as there is a charge left. -/
theorem charges_accounted (operations : List Operation) :
    let s := run step empty operations
    (∀ c, ((s.charges c).IsChain fun a b => a.rechargeEnd ≤ b.rechargeStart) ∧
      (s.charges c).Pairwise fun a b => a.rechargeEnd < b.rechargeEnd) ∧
    (∀ now c, (s.update now).charges c = (s.charges c).filter (fun e => now < e.rechargeEnd) ∧
      ((s.update now).charges c).length = (s.charges c).countP fun e => now < e.rechargeEnd) ∧
    (∀ now rules c, 0 < getMaxCharges rules c →
      ((s.charges c).countP fun e => now < e.rechargeEnd) < 2 ^ 31 →
        getChargeCount rules (s.update now) c = max ((getMaxCharges rules c).toInt -
          (s.charges c).countP fun e => now < e.rechargeEnd) 0) ∧
    ∀ rules c, 0 < getMaxCharges rules c →
      (hasCharge rules s c = true ↔ 0 < getChargeCount rules s c) := by
  intro s
  have hFormed : Formed s :=
    invariant (P := Formed) (fun _ o h => Formed.step h o) formed_empty operations
  have hUpdate : ∀ now c,
      (s.update now).charges c = (s.charges c).filter fun e => now < e.rechargeEnd :=
    fun now c => (charges_update s now c).trans ((hFormed.charges c).popRecharged_eq now)
  have hCount : ∀ now c, ((s.update now).charges c).length =
      (s.charges c).countP fun e => now < e.rechargeEnd := by
    intro now c
    rw [hUpdate, List.countP_eq_length_filter]
  refine ⟨fun c => ⟨(hFormed.charges c).chain, (hFormed.charges c).pairwise⟩,
    fun now c => ⟨hUpdate now c, hCount now c⟩, fun now rules c hMax hFits => ?_,
    fun rules c hMax => hasCharge_iff hMax s⟩
  rw [← hCount] at hFits ⊢
  exact getChargeCount_eq hMax hFits

/-- Two charges of ten seconds are consumed, and one is left of three after the first is recharged. -/
theorem charges_accounted_two :
    let rules : ChargeRules := ⟨fun _ => some ⟨10000, 3⟩, fun _ => 0, fun _ => 10000⟩
    let s := run step empty [.consumeCharge rules 5 0, .consumeCharge rules 5 1000]
    getChargeCount rules (s.update 10000000000) 5 = 2 ∧ hasCharge rules s 5 = true := by
  intro rules s
  have hAll := charges_accounted [.consumeCharge rules 5 0, .consumeCharge rules 5 1000]
  constructor
  · exact (hAll.2.2.1 10000000000 rules 5 (by decide) (by decide)).trans (by decide)
  · exact (hAll.2.2.2 rules 5 (by decide)).mpr (by decide)

end SpellCharges

end AshamaneCore
