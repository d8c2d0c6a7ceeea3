import AshamaneCore.Game.CriteriaTrees
import AshamaneCore.Library.Transition
import AshamaneCore.Library.Tally
import Mathlib.Algebra.Order.BigOperators.Group.List
import Mathlib.Algebra.Order.Ring.Nat

/-!
# Exact sums of criteria

The meaning of a tree takes its sums and counts in natural numbers. The code agrees with it
where no sum wraps to less than what is required, and what means completed stays so while
counters grow.
-/

namespace AshamaneCore.CriteriaTrees

open Library

theorem CriteriaTree.induction {P : CriteriaTree → Prop}
    (node : ∀ entry criteria children, (∀ child ∈ children, P child) → P (.node entry criteria children))
    (tree : CriteriaTree) : P tree :=
  @CriteriaTree.rec P (fun children => ∀ child ∈ children, P child) node (fun _ h => absurd h List.not_mem_nil)
    (fun _ _ hHead hTail => List.forall_mem_cons.mpr ⟨hHead, hTail⟩) tree

/-! ## The meaning of a tree -/

namespace CriteriaHandler

variable (mgr : CriteriaMgr) (h : CriteriaHandler)

/-- The counter of a node as a number; without progress it is zero. -/
def count (node : CriteriaTree) : Nat := ((h.counterOf node).getD 0).toNat

def total (nodes : List CriteriaTree) : Nat := (nodes.map h.count).sum

def weightedTotal (nodes : List CriteriaTree) : Nat :=
  (nodes.map fun node => h.count node * node.entry.requiredCount.toNat).sum

mutual

def meansCompleted : CriteriaTree → Bool
  | .node entry criteria children =>
    mgr.canCompleteCriteriaTree (.node entry criteria children) &&
    match entry.operator with
    | .single => criteria.any fun criteria => h.isCompletedCriteria criteria entry.requiredCount
    | .singleNotCompleted => criteria.all fun criteria => !h.isCompletedCriteria criteria entry.requiredCount
    | .all => allMean children
    | .sumChildren => entry.requiredCount.toNat ≤ h.total (walkCriteriaTree (.node entry criteria children))
    | .maxChild => entry.requiredCount.toNat ≤
        ((walkCriteriaTree (.node entry criteria children)).map h.count).foldr max 0
    | .countDirectChildren =>
      max 1 entry.requiredCount.toNat ≤ children.countP fun node => 1 ≤ h.count node
    | .any => max 1 entry.requiredCount.toNat ≤ countMean children
    | .sumChildrenWeight =>
      entry.requiredCount.toNat ≤ h.weightedTotal (walkCriteriaTree (.node entry criteria children))
    | .unused => false

def allMean : List CriteriaTree → Bool
  | [] => true
  | node :: rest => meansCompleted node && allMean rest

def countMean : List CriteriaTree → Nat
  | [] => 0
  | node :: rest => countMean rest + if meansCompleted node then 1 else 0

end

/-- A sum is below what is required, or it is not once it is taken in 64 bits. -/
def fits (required sum : Nat) : Bool := sum < required || required ≤ sum % 2 ^ 64

mutual

/-- Nowhere in the tree does it count that a sum wraps. -/
def unwrapped : CriteriaTree → Bool
  | .node entry criteria children =>
    !mgr.canCompleteCriteriaTree (.node entry criteria children) ||
    match entry.operator with
    | .single => true
    | .singleNotCompleted => true
    | .all => !h.allMean mgr children || allUnwrapped children
    | .sumChildren => fits entry.requiredCount.toNat (h.total (walkCriteriaTree (.node entry criteria children)))
    | .maxChild => true
    | .countDirectChildren => true
    | .any => h.countMean mgr children < max 1 entry.requiredCount.toNat ||
        max 1 entry.requiredCount.toNat ≤ countUnwrapped children
    | .sumChildrenWeight =>
      fits entry.requiredCount.toNat (h.weightedTotal (walkCriteriaTree (.node entry criteria children)))
    | .unused => true

def allUnwrapped : List CriteriaTree → Bool
  | [] => true
  | node :: rest => unwrapped node && allUnwrapped rest

/-- The children that mean completed and do not wrap. -/
def countUnwrapped : List CriteriaTree → Nat
  | [] => 0
  | node :: rest => countUnwrapped rest + if h.meansCompleted mgr node && unwrapped node then 1 else 0

end

/-! ## Children -/

variable {mgr h} {children : List CriteriaTree}

theorem allCompleted_eq : h.allCompleted mgr children = children.all (h.isCompletedCriteriaTree mgr) := by
  induction children with
  | nil => rfl
  | cons node rest ih => rw [allCompleted, List.all_cons, ih]

theorem allMean_eq : h.allMean mgr children = children.all (h.meansCompleted mgr) := by
  induction children with
  | nil => rfl
  | cons node rest ih => rw [allMean, List.all_cons, ih]

theorem allUnwrapped_eq : h.allUnwrapped mgr children = children.all (h.unwrapped mgr) := by
  induction children with
  | nil => rfl
  | cons node rest ih => rw [allUnwrapped, List.all_cons, ih]

theorem countMean_eq : h.countMean mgr children = children.countP (h.meansCompleted mgr) := by
  induction children with
  | nil => rfl
  | cons node rest ih => rw [countMean, List.countP_cons, ih]

theorem countUnwrapped_eq : h.countUnwrapped mgr children =
    children.countP fun node => h.meansCompleted mgr node && h.unwrapped mgr node := by
  induction children with
  | nil => rfl
  | cons node rest ih => rw [countUnwrapped, List.countP_cons, ih]

theorem anyCompleted_eq (required progress : UInt64) : h.anyCompleted mgr required progress children =
    WordTallies.enough (h.isCompletedCriteriaTree mgr) required progress children := by
  induction children generalizing progress with
  | nil => rfl
  | cons node rest ih => rw [anyCompleted, WordTallies.enough, ih, ih]

theorem countDirectChildren_eq (required progress : UInt64) : h.countDirectChildren required progress children =
    WordTallies.enough (fun node => 1 ≤ (h.counterOf node).getD 0) required progress children := by
  induction children generalizing progress with
  | nil => rfl
  | cons node rest ih =>
    rw [countDirectChildren, WordTallies.enough, ih, ih]
    simp only [decide_eq_true_eq]

/-! ## The code and the meaning -/

theorem sumCounters_toNat (nodes : List CriteriaTree) : (h.sumCounters nodes).toNat = h.total nodes % 2 ^ 64 := by
  have hSum := WordTallies.foldl_add_toNat (f := fun node => (h.counterOf node).getD 0) (n := h.count)
    (fun _ => rfl) nodes 0
  rwa [UInt64.toNat_zero, Nat.zero_add] at hSum

theorem sumWeightedCounters_toNat (nodes : List CriteriaTree) :
    (h.sumWeightedCounters nodes).toNat = h.weightedTotal nodes % 2 ^ 64 := by
  have hSum := WordTallies.foldl_add_toNat
    (f := fun node => (h.counterOf node).getD 0 * node.entry.requiredCount)
    (n := fun node => h.count node * node.entry.requiredCount.toNat)
    (fun node => by rw [UInt64.toNat_mul, Nat.mod_mod]; rfl) nodes 0
  rwa [UInt64.toNat_zero, Nat.zero_add] at hSum

theorem le_maxCounter_iff {required : UInt64} {nodes : List CriteriaTree} :
    required ≤ h.maxCounter nodes ↔ required.toNat ≤ (nodes.map h.count).foldr max 0 := by
  rw [maxCounter, WordTallies.le_foldl_max_iff (f := fun node => (h.counterOf node).getD 0)]
  induction nodes with
  | nil =>
    rw [List.map_nil, List.foldr_nil, UInt64.le_iff_toNat_le]
    simp
  | cons node rest ih =>
    rw [List.map_cons, List.foldr_cons, le_max_iff, ← ih, List.exists_mem_cons_iff, or_left_comm,
      UInt64.le_iff_toNat_le (b := (h.counterOf node).getD 0)]
    rfl

theorem le_mod_iff (required sum : Nat) : required ≤ sum % 2 ^ 64 ↔ required ≤ sum ∧ fits required sum = true := by
  have hMod := Nat.mod_le sum (2 ^ 64)
  rw [fits, Bool.or_eq_true, decide_eq_true_eq, decide_eq_true_eq]
  omega

section Children

variable (hChildren : ∀ child ∈ children, h.isCompletedCriteriaTree mgr child =
  (h.meansCompleted mgr child && h.unwrapped mgr child))

include hChildren

theorem allCompleted_of_children : h.allCompleted mgr children =
    (h.allMean mgr children && (!h.allMean mgr children || h.allUnwrapped mgr children)) := by
  have hAll : children.all (h.isCompletedCriteriaTree mgr) =
      (children.all (h.meansCompleted mgr) && children.all (h.unwrapped mgr)) := by
    rw [Bool.eq_iff_iff, Bool.and_eq_true, List.all_eq_true, List.all_eq_true, List.all_eq_true, ← forall₂_and]
    refine forall₂_congr fun child hChild => ?_
    rw [hChildren child hChild, Bool.and_eq_true]
  rw [allCompleted_eq, allMean_eq, allUnwrapped_eq, hAll]
  cases children.all (h.meansCompleted mgr) <;> rfl

theorem anyCompleted_of_children (required : UInt64) : h.anyCompleted mgr required 0 children =
    (decide (max 1 required.toNat ≤ h.countMean mgr children) &&
      (decide (h.countMean mgr children < max 1 required.toNat) ||
        decide (max 1 required.toNat ≤ h.countUnwrapped mgr children))) := by
  have hCode : children.countP (h.isCompletedCriteriaTree mgr) =
      children.countP fun node => h.meansCompleted mgr node && h.unwrapped mgr node :=
    List.countP_congr fun child hChild => by rw [hChildren child hChild]
  have hFewer : (children.countP fun node => h.meansCompleted mgr node && h.unwrapped mgr node) ≤
      children.countP (h.meansCompleted mgr) :=
    List.countP_mono_left fun child _ hBoth => (Bool.and_eq_true_iff.mp hBoth).1
  rw [anyCompleted_eq, countMean_eq, countUnwrapped_eq, Bool.eq_iff_iff,
    WordTallies.enough_iff (by rw [UInt64.toNat_zero]; omega), UInt64.toNat_zero, Nat.zero_add, hCode]
  simp only [Bool.and_eq_true, Bool.or_eq_true, decide_eq_true_eq]
  omega

end Children

theorem countDirectChildren_exact (required : UInt64) : h.countDirectChildren required 0 children =
    decide (max 1 required.toNat ≤ children.countP fun node => 1 ≤ h.count node) := by
  have hSame : (fun node => decide (1 ≤ (h.counterOf node).getD 0)) = fun node => decide (1 ≤ h.count node) := by
    funext node
    rw [count, decide_eq_decide, UInt64.le_iff_toNat_le, UInt64.toNat_one]
  rw [countDirectChildren_eq, Bool.eq_iff_iff, WordTallies.enough_iff (by rw [UInt64.toNat_zero]; omega),
    UInt64.toNat_zero, Nat.zero_add, hSame, decide_eq_true_eq]

theorem isCompletedCriteriaTree_eq (tree : CriteriaTree) :
    h.isCompletedCriteriaTree mgr tree = (h.meansCompleted mgr tree && h.unwrapped mgr tree) := by
  induction tree using CriteriaTree.induction with
  | node entry criteria children ih =>
    rw [isCompletedCriteriaTree, meansCompleted, unwrapped]
    cases mgr.canCompleteCriteriaTree (.node entry criteria children) with
    | false => rfl
    | true =>
      rw [Bool.true_and, Bool.true_and, Bool.not_true, Bool.false_or]
      cases hOperator : entry.operator with
      | single => exact (Bool.and_true _).symm
      | singleNotCompleted => exact (Bool.and_true _).symm
      | unused => rfl
      | all => exact allCompleted_of_children ih
      | any => exact anyCompleted_of_children ih entry.requiredCount
      | sumChildren =>
        refine Bool.eq_iff_iff.mpr ?_
        rw [Bool.and_eq_true, decide_eq_true_eq, decide_eq_true_eq, UInt64.le_iff_toNat_le, sumCounters_toNat]
        exact le_mod_iff _ _
      | sumChildrenWeight =>
        refine Bool.eq_iff_iff.mpr ?_
        rw [Bool.and_eq_true, decide_eq_true_eq, decide_eq_true_eq, UInt64.le_iff_toNat_le,
          sumWeightedCounters_toNat]
        exact le_mod_iff _ _
      | maxChild => exact (decide_eq_decide.mpr le_maxCounter_iff).trans (Bool.and_true _).symm
      | countDirectChildren => exact (countDirectChildren_exact _).trans (Bool.and_true _).symm

theorem unwrapped_of_not_means {tree : CriteriaTree} (hNot : h.meansCompleted mgr tree = false) :
    h.unwrapped mgr tree = true := by
  obtain ⟨entry, criteria, children⟩ := tree
  rw [meansCompleted] at hNot
  rw [unwrapped]
  cases hCan : mgr.canCompleteCriteriaTree (.node entry criteria children) with
  | false => rfl
  | true =>
    rw [hCan, Bool.true_and] at hNot
    rw [Bool.not_true, Bool.false_or]
    cases hOperator : entry.operator with
    | single => rfl
    | singleNotCompleted => rfl
    | unused => rfl
    | maxChild => rfl
    | countDirectChildren => rfl
    | all =>
      simp only [hOperator] at hNot
      simp only [hNot, Bool.not_false, Bool.true_or]
    | any =>
      simp only [hOperator, decide_eq_false_iff_not, Nat.not_le] at hNot
      simp only [decide_eq_true hNot, Bool.true_or]
    | sumChildren =>
      simp only [hOperator, decide_eq_false_iff_not, Nat.not_le] at hNot
      simp only [fits, decide_eq_true hNot, Bool.true_or]
    | sumChildrenWeight =>
      simp only [hOperator, decide_eq_false_iff_not, Nat.not_le] at hNot
      simp only [fits, decide_eq_true hNot, Bool.true_or]

/-! ## Growing counters -/

def Below (h h' : CriteriaHandler) : Prop :=
  ∀ id progress, h.criteriaProgress id = some progress →
    ∃ progress', h'.criteriaProgress id = some progress' ∧ progress.counter ≤ progress'.counter

variable {h' : CriteriaHandler}

theorem Below.refl (h : CriteriaHandler) : Below h h := fun _ progress hp => ⟨progress, hp, UInt64.le_refl _⟩

theorem Below.trans {h'' : CriteriaHandler} (hFirst : Below h h') (hSecond : Below h' h'') : Below h h'' := by
  intro id progress hp
  obtain ⟨progress', hp', hLe⟩ := hFirst id progress hp
  obtain ⟨progress'', hp'', hLe'⟩ := hSecond id progress' hp'
  exact ⟨progress'', hp'', UInt64.le_trans hLe hLe'⟩

theorem CompletionRule.holds_mono {requiredAmount counter counter' : UInt64} (hLe : counter ≤ counter')
    (rule : CompletionRule) (hHolds : rule.holds requiredAmount counter = true) :
    rule.holds requiredAmount counter' = true := by
  have hReaches : ∀ bound : UInt64, decide (bound ≤ counter) = true → decide (bound ≤ counter') = true :=
    fun bound hBound => decide_eq_true (UInt64.le_trans (of_decide_eq_true hBound) hLe)
  cases rule with
  | reachesAmount => exact hReaches _ hHolds
  | once => exact hReaches _ hHolds
  | skillSteps => exact hReaches _ hHolds
  | achievementPoints => exact hReaches _ hHolds
  | reachesSomeAmount =>
    obtain ⟨hSome, hReached⟩ := Bool.and_eq_true_iff.mp hHolds
    exact Bool.and_eq_true_iff.mpr ⟨hSome, hReaches _ hReached⟩
  | always => rfl
  | never => exact hHolds

section Below

variable (hBelow : Below h h')

include hBelow

theorem Below.isCompletedCriteria {criteria : Criteria} {required : UInt64}
    (hCompleted : h.isCompletedCriteria criteria required = true) :
    h'.isCompletedCriteria criteria required = true := by
  rw [CriteriaHandler.isCompletedCriteria] at hCompleted ⊢
  cases hProgress : h.criteriaProgress criteria.id with
  | none =>
    rw [hProgress] at hCompleted
    cases hCompleted
  | some progress =>
    obtain ⟨progress', hProgress', hLe⟩ := hBelow _ progress hProgress
    rw [hProgress] at hCompleted
    rw [hProgress']
    exact CompletionRule.holds_mono hLe _ hCompleted

theorem Below.count (node : CriteriaTree) : h.count node ≤ h'.count node := by
  rw [CriteriaHandler.count, CriteriaHandler.count, counterOf, counterOf]
  cases node.criteria with
  | none => exact le_rfl
  | some criteria =>
    cases hProgress : h.criteriaProgress criteria.id with
    | none => simp [hProgress]
    | some progress =>
      obtain ⟨progress', hProgress', hLe⟩ := hBelow _ progress hProgress
      simpa [hProgress, hProgress'] using UInt64.le_iff_toNat_le.mp hLe

theorem Below.total (nodes : List CriteriaTree) : h.total nodes ≤ h'.total nodes :=
  List.sum_le_sum fun node _ => hBelow.count node

theorem Below.weightedTotal (nodes : List CriteriaTree) : h.weightedTotal nodes ≤ h'.weightedTotal nodes :=
  List.sum_le_sum fun node _ => Nat.mul_le_mul_right _ (hBelow.count node)

theorem Below.maximum (nodes : List CriteriaTree) :
    (nodes.map h.count).foldr max 0 ≤ (nodes.map h'.count).foldr max 0 := by
  induction nodes with
  | nil => exact le_rfl
  | cons node rest ih => exact max_le_max (hBelow.count node) ih

end Below

end CriteriaHandler

def CriteriaTree.Positive (tree : CriteriaTree) : Prop :=
  ∀ node ∈ walkCriteriaTree tree, node.entry.operator ≠ .singleNotCompleted

variable {children : List CriteriaTree}

theorem mem_walkChildren {child node : CriteriaTree} (hChild : child ∈ children)
    (hNode : node ∈ walkCriteriaTree child) : node ∈ walkChildren children := by
  induction children with
  | nil => cases hChild
  | cons first rest ih =>
    rw [walkChildren, List.mem_append]
    rcases List.mem_cons.mp hChild with rfl | hRest
    · exact Or.inl hNode
    · exact Or.inr (ih hRest)

theorem CriteriaTree.Positive.child {entry : CriteriaTreeEntry} {criteria : Option Criteria}
    (hTree : (CriteriaTree.node entry criteria children).Positive)
    {child : CriteriaTree} (hChild : child ∈ children) : child.Positive := by
  intro node hNode
  refine hTree node ?_
  rw [walkCriteriaTree]
  exact List.mem_append_left _ (mem_walkChildren hChild hNode)

theorem CriteriaTree.Positive.operator {entry : CriteriaTreeEntry} {criteria : Option Criteria}
    (hTree : (CriteriaTree.node entry criteria children).Positive) :
    entry.operator ≠ .singleNotCompleted := by
  refine hTree (.node entry criteria children) ?_
  rw [walkCriteriaTree]
  exact List.mem_append_right _ (List.mem_singleton_self _)

namespace CriteriaHandler

variable {mgr : CriteriaMgr} {h h' : CriteriaHandler}

theorem Below.meansCompleted (hBelow : Below h h') {tree : CriteriaTree} (hTree : tree.Positive)
    (hMeans : h.meansCompleted mgr tree = true) : h'.meansCompleted mgr tree = true := by
  induction tree using CriteriaTree.induction with
  | node entry criteria children ih =>
    rw [CriteriaHandler.meansCompleted, Bool.and_eq_true] at hMeans ⊢
    refine ⟨hMeans.1, ?_⟩
    have hRest := hMeans.2
    have hChildren : ∀ child ∈ children, h.meansCompleted mgr child = true → h'.meansCompleted mgr child = true :=
      fun child hChild => ih child hChild (hTree.child hChild)
    cases hOperator : entry.operator with
    | single =>
      simp only [hOperator] at hRest ⊢
      obtain ⟨own, hOwn, hCompleted⟩ := (Option.any_eq_true _ _).mp hRest
      exact (Option.any_eq_true _ _).mpr ⟨own, hOwn, hBelow.isCompletedCriteria hCompleted⟩
    | singleNotCompleted => exact absurd hOperator hTree.operator
    | unused =>
      simp only [hOperator] at hRest
      cases hRest
    | all =>
      simp only [hOperator, allMean_eq, List.all_eq_true] at hRest ⊢
      exact fun child hChild => hChildren child hChild (hRest child hChild)
    | any =>
      simp only [hOperator, countMean_eq, decide_eq_true_eq] at hRest ⊢
      exact hRest.trans (List.countP_mono_left hChildren)
    | sumChildren =>
      simp only [hOperator, decide_eq_true_eq] at hRest ⊢
      exact hRest.trans (hBelow.total _)
    | sumChildrenWeight =>
      simp only [hOperator, decide_eq_true_eq] at hRest ⊢
      exact hRest.trans (hBelow.weightedTotal _)
    | maxChild =>
      simp only [hOperator, decide_eq_true_eq] at hRest ⊢
      exact hRest.trans (hBelow.maximum _)
    | countDirectChildren =>
      simp only [hOperator, decide_eq_true_eq] at hRest ⊢
      refine hRest.trans (List.countP_mono_left fun child _ hOne => ?_)
      exact decide_eq_true ((of_decide_eq_true hOne).trans (hBelow.count child))

end CriteriaHandler

/-! ## Updates -/

/-- An update that only raises a counter, and no timer decides about it. -/
structure ProgressUpdate.Raises (update : ProgressUpdate) : Prop where
  untimed : update.criteria.isTimed = false
  type : update.progressType = .accumulate ∨ update.progressType = .highest

theorem le_max (counter : UInt64) : counter ≤ 0xFFFFFFFFFFFFFFFF := by
  have hSize : (0xFFFFFFFFFFFFFFFF : UInt64).toNat = 18446744073709551615 := by decide
  have hLt := counter.toNat_lt
  rw [UInt64.le_iff_toNat_le, hSize]
  omega

theorem ProgressUpdate.Raises.le_newValue {update : ProgressUpdate} (hRaises : update.Raises) (counter : UInt64) :
    counter ≤ update.newValue counter := by
  rw [newValue]
  rcases hRaises.type with hType | hType
  · simp only [hType]
    split
    · rename_i hRoom
      have hSize : (0xFFFFFFFFFFFFFFFF : UInt64).toNat = 18446744073709551615 := by decide
      rw [UInt64.lt_iff_toNat_lt, UInt64.toNat_sub_of_le _ _ (le_max counter), hSize] at hRoom
      rw [UInt64.le_iff_toNat_le, UInt64.toNat_add, Nat.mod_eq_of_lt (by omega)]
      exact Nat.le_add_right _ _
    · exact le_max counter
  · simp only [hType]
    split
    · rename_i hLess
      exact UInt64.le_of_lt hLess
    · exact UInt64.le_refl _

namespace CriteriaHandler

variable {mgr : CriteriaMgr} {h : CriteriaHandler}

theorem below_writeProgress {update : ProgressUpdate} {counter : UInt64}
    (hOld : ∀ progress, h.criteriaProgress update.criteria.id = some progress → progress.counter ≤ counter) :
    Below h (h.writeProgress update counter) := by
  intro id progress hp
  rw [writeProgress]
  obtain rfl | hNe := eq_or_ne id update.criteria.id
  · exact ⟨_, Function.update_self _ _ _, hOld progress hp⟩
  · exact ⟨progress, (Function.update_of_ne hNe _ _).trans hp, UInt64.le_refl _⟩

theorem below_setCriteriaProgress {update : ProgressUpdate} (hRaises : update.Raises) :
    Below h (h.setCriteriaProgress mgr update) := by
  have hRecord : ∀ counter, h.recordProgress mgr update counter = h.writeProgress update counter := by
    intro counter
    rw [recordProgress, hRaises.untimed, if_neg Bool.false_ne_true]
  rw [setCriteriaProgress, hRaises.untimed, Bool.false_and, if_neg Bool.false_ne_true]
  cases hProgress : h.criteriaProgress update.criteria.id with
  | none =>
    simp only [hRecord]
    split
    · exact Below.refl h
    · exact below_writeProgress fun progress hp => nomatch hProgress.symm.trans hp
  | some progress =>
    simp only [hRecord]
    split
    · exact Below.refl h
    · refine below_writeProgress fun other hOther => ?_
      obtain rfl := Option.some.inj (hProgress.symm.trans hOther)
      exact hRaises.le_newValue _

theorem below_run (mgr : CriteriaMgr) {updates : List ProgressUpdate} (hRaises : ∀ update ∈ updates, update.Raises)
    (h : CriteriaHandler) : Below h (Transition.run (setCriteriaProgress mgr) h updates) := by
  induction updates generalizing h with
  | nil => exact Below.refl h
  | cons update updates ih =>
    obtain ⟨hFirst, hRest⟩ := List.forall_mem_cons.mp hRaises
    exact (below_setCriteriaProgress hFirst).trans (ih hRest _)

/-- The code gives the meaning of a tree exactly if nothing wraps where it counts, and a
completed tree stays completed through updates exactly if that is so afterwards. -/
theorem criteriaTree_exact (mgr : CriteriaMgr) (h : CriteriaHandler) (tree : CriteriaTree) (hTree : tree.Positive) :
    (h.isCompletedCriteriaTree mgr tree = h.meansCompleted mgr tree ↔ h.unwrapped mgr tree = true) ∧
    ∀ updates : List ProgressUpdate, (∀ update ∈ updates, update.Raises) →
      h.isCompletedCriteriaTree mgr tree = true →
        ((Transition.run (setCriteriaProgress mgr) h updates).isCompletedCriteriaTree mgr tree = true ↔
          (Transition.run (setCriteriaProgress mgr) h updates).unwrapped mgr tree = true) := by
  constructor
  · rw [isCompletedCriteriaTree_eq]
    cases hMeans : h.meansCompleted mgr tree with
    | false => exact iff_of_true (Bool.false_and _) (unwrapped_of_not_means hMeans)
    | true => rw [Bool.true_and]
  · intro updates hRaises hCompleted
    rw [isCompletedCriteriaTree_eq, Bool.and_eq_true] at hCompleted
    have hMeans := (below_run mgr hRaises h).meansCompleted hTree hCompleted.1
    rw [isCompletedCriteriaTree_eq, hMeans, Bool.true_and]

/-- Two counters of gold in one sum, of which one piece is required. -/
def goldTree : CriteriaTree :=
  .node ⟨1, 1, .sumChildren⟩ none
    [.node ⟨2, 1, .single⟩ (some ⟨1, .lootMoney, 0⟩) [], .node ⟨3, 1, .single⟩ (some ⟨2, .lootMoney, 0⟩) []]

def anyTree : CriteriaMgr := ⟨fun _ => true, fun _ => none⟩

def halfFull : CriteriaHandler :=
  ⟨fun id => if id = 1 then some ⟨0x8000000000000000, 0, 0, true⟩ else none, fun _ => none⟩

def otherHalf : ProgressUpdate := ⟨⟨2, .lootMoney, 0⟩, 0x8000000000000000, 0, .accumulate, 0⟩

theorem otherHalf_raises : otherHalf.Raises := ⟨rfl, Or.inl rfl⟩

theorem goldTree_positive : goldTree.Positive := by
  intro node hNode
  simp only [goldTree, walkCriteriaTree, walkChildren, List.nil_append, List.append_nil, List.cons_append,
    List.mem_cons, List.not_mem_nil, or_false] at hNode
  rcases hNode with rfl | rfl | rfl <;> decide

theorem goldTree_exact : (halfFull.isCompletedCriteriaTree anyTree goldTree = true) ∧
    (halfFull.isCompletedCriteriaTree anyTree goldTree = halfFull.meansCompleted anyTree goldTree ↔
      halfFull.unwrapped anyTree goldTree = true) ∧
    ((Transition.run (setCriteriaProgress anyTree) halfFull [otherHalf]).isCompletedCriteriaTree anyTree goldTree =
      true ↔ (Transition.run (setCriteriaProgress anyTree) halfFull [otherHalf]).unwrapped anyTree goldTree = true) := by
  have hCompleted : halfFull.isCompletedCriteriaTree anyTree goldTree = true := by decide +kernel
  have hExact := criteriaTree_exact anyTree halfFull goldTree goldTree_positive
  exact ⟨hCompleted, hExact.1, hExact.2 [otherHalf] (List.forall_mem_singleton.mpr otherHalf_raises) hCompleted⟩

/-- The tree is completed, the second counter rises, and it is not completed any more. -/
theorem goldTree_revoked : halfFull.isCompletedCriteriaTree anyTree goldTree = true ∧ otherHalf.Raises ∧
    (halfFull.setCriteriaProgress anyTree otherHalf).isCompletedCriteriaTree anyTree goldTree = false ∧
    (halfFull.setCriteriaProgress anyTree otherHalf).meansCompleted anyTree goldTree = true :=
  ⟨by decide +kernel, otherHalf_raises, by decide +kernel, by decide +kernel⟩

end CriteriaHandler

end AshamaneCore.CriteriaTrees
