import AshamaneCore.Library.KeyedSet
import Mathlib.Algebra.BigOperators.Group.Finset.Basic
import Mathlib.Algebra.BigOperators.Group.List.Basic
import Mathlib.Algebra.Ring.Nat
import Mathlib.Data.List.Basic
import Mathlib.Logic.Function.Iterate

/-!
# Tallies

Counters kept beside a list: how the number of entries of a class changes when an entry
is replaced, erased or exchanged, in the form without subtraction.
-/

namespace Library.Tally

universe u v

variable {α : Type u}

section Count

variable (p : α → Bool)

def weight (a : α) : Nat := if p a then 1 else 0

theorem countP_cons (a : α) (l : List α) : (a :: l).countP p = l.countP p + weight p a :=
  List.countP_cons

theorem countP_concat (l : List α) (a : α) : (l ++ [a]).countP p = l.countP p + weight p a := by
  rw [List.countP_append, countP_cons, List.countP_nil, Nat.zero_add]

theorem countP_set (l : List α) (i : Fin l.length) (a : α) :
    (l.set i a).countP p + weight p (l.get i) = l.countP p + weight p a := by
  induction l with
  | nil => exact i.elim0
  | cons b l ih =>
    obtain ⟨i, hi⟩ := i
    cases i with
    | zero =>
      simp only [List.set_cons_zero, countP_cons, List.get_eq_getElem, List.getElem_cons_zero]
      omega
    | succ i =>
      have hTail := ih ⟨i, Nat.lt_of_succ_lt_succ hi⟩
      simp only [List.set_cons_succ, countP_cons, List.get_eq_getElem, List.getElem_cons_succ] at hTail ⊢
      omega

theorem countP_eraseIdx (l : List α) (i : Fin l.length) :
    (l.eraseIdx i).countP p + weight p (l.get i) = l.countP p := by
  induction l with
  | nil => exact i.elim0
  | cons b l ih =>
    obtain ⟨i, hi⟩ := i
    cases i with
    | zero =>
      simp only [List.eraseIdx_cons_zero, countP_cons, List.get_eq_getElem, List.getElem_cons_zero]
    | succ i =>
      have hTail := ih ⟨i, Nat.lt_of_succ_lt_succ hi⟩
      simp only [List.eraseIdx_cons_succ, countP_cons, List.get_eq_getElem,
        List.getElem_cons_succ] at hTail ⊢
      omega

/-- A class that changes at one entry only changes the tally by that entry. -/
theorem countP_change {p q : α → Bool} {l : List α} (hNodup : l.Nodup) {a : α} (ha : a ∈ l)
    (hOther : ∀ b ∈ l, b ≠ a → q b = p b) : l.countP q + weight p a = l.countP p + weight q a := by
  obtain ⟨before, after, rfl⟩ := List.append_of_mem ha
  have hSplit := List.nodup_middle.mp hNodup
  rw [List.nodup_cons] at hSplit
  have hNe : ∀ b ∈ before ++ after, q b = p b := by
    intro b hb
    refine hOther b ?_ fun hEq => hSplit.1 (hEq ▸ hb)
    rw [List.mem_append, List.mem_cons]
    rcases List.mem_append.mp hb with hBefore | hAfter
    · exact Or.inl hBefore
    · exact Or.inr (Or.inr hAfter)
  have hSame : (before ++ after).countP q = (before ++ after).countP p :=
    List.countP_congr fun b hb => by rw [hNe b hb]
  rw [List.perm_middle.countP_eq, List.perm_middle.countP_eq, countP_cons, countP_cons, hSame]
  omega

/-- A counter of eight bits follows a tally that loses one number and gains another. -/
theorem wrapped_move {c c' old new : Nat} (h : c' + old = c + new) :
    UInt8.ofNat c - UInt8.ofNat old + UInt8.ofNat new = UInt8.ofNat c' := by
  have hWrapped := congrArg UInt8.ofNat h
  rw [UInt8.ofNat_add, UInt8.ofNat_add] at hWrapped
  grind

/-- Two entries that exchange what the class looks at leave every tally as it was. -/
theorem countP_exchange (l : List α) {i j : Fin l.length} (hNe : i ≠ j) {a b : α}
    (hA : weight p a = weight p (l.get j)) (hB : weight p b = weight p (l.get i)) :
    ((l.set i a).set j b).countP p = l.countP p := by
  have hFirst := countP_set p l i a
  have hSecond := countP_set p (l.set i a) ⟨j, by simp⟩ b
  have hKept : (l.set i a).get ⟨j, by simp⟩ = l.get j := by
    have hVal : (i : Nat) ≠ j := fun h => hNe (Fin.ext h)
    simp [List.getElem_set_of_ne hVal]
  rw [hKept] at hSecond
  simp only at hSecond
  omega

section KeyedSets

variable {κ : Type v} [LinearOrder κ] {key : α → κ} {s : KeyedSet key} {k : κ} {a : α}

theorem countP_keyed_erase (h : s.find? k = some a) :
    (s.erase k).entries.countP p + weight p a = s.entries.countP p := by
  obtain ⟨hMem, rfl⟩ := KeyedSet.find?_eq_some_iff.mp h
  rw [(KeyedSet.erase_perm hMem).countP_eq, countP_cons]

theorem countP_keyed_assign {x : α} (h : s.contains (key x) = false) :
    (s.assign x).entries.countP p = s.entries.countP p + weight p x := by
  rw [(KeyedSet.assign_perm h).countP_eq, countP_cons]

theorem countP_keyed_alter (h : s.find? k = some a) (f : α → α) (hKey : ∀ a, key (f a) = key a) :
    (s.alter k f hKey).entries.countP p + weight p a = s.entries.countP p + weight p (f a) := by
  have hSum := @KeyedSet.total_alter _ _ _ _ (fun b => (weight p b : Int)) s k a f hKey h
  have hTotal : ∀ s : KeyedSet key, s.total (fun b => (weight p b : Int)) = s.entries.countP p := by
    intro s
    unfold KeyedSet.total
    induction s.entries with
    | nil => rfl
    | cons b l ih =>
      rw [List.map_cons, List.sum_cons, ih, countP_cons, Nat.cast_add, add_comm]
  rw [hTotal, hTotal] at hSum
  omega

end KeyedSets

end Count

section Keyed

variable {κ : Type v} [DecidableEq κ] {β : Type u} (inc : β → β)

/-- Counting entry by entry moves the counter of a class on once for each of its entries. -/
theorem foldl_update (key : α → κ) (l : List α) (start : κ → β) (k : κ) :
    l.foldl (fun counts a => Function.update counts (key a) (inc (counts (key a)))) start k =
      inc^[l.countP fun a => key a = k] (start k) := by
  induction l generalizing start with
  | nil => rfl
  | cons a l ih =>
    rw [List.foldl_cons, ih, List.countP_cons]
    obtain hEq | hNe := eq_or_ne (key a) k
    · subst hEq
      rw [Function.update_self, if_pos (decide_eq_true rfl), Function.iterate_add_apply]
      rfl
    · rw [Function.update_of_ne hNe.symm, if_neg (by simpa using hNe), Nat.add_zero]

end Keyed

/-- One value replaced in a family changes a sum over it by what the two values add. -/
theorem sum_update {ι : Type*} [Fintype ι] [DecidableEq ι] {β : Type*} (f : ι → β) (w : β → Nat) (i : ι)
    (b : β) : ∑ j, w (Function.update f i b j) + w (f i) = ∑ j, w (f j) + w b := by
  have hOthers : ∑ j ∈ Finset.univ.erase i, w (Function.update f i b j) =
      ∑ j ∈ Finset.univ.erase i, w (f j) := by
    apply Finset.sum_congr rfl
    intro j hj
    rw [Function.update_of_ne (Finset.ne_of_mem_erase hj)]
  rw [← Finset.add_sum_erase _ _ (Finset.mem_univ i), ← Finset.add_sum_erase _ _ (Finset.mem_univ i),
    hOthers, Function.update_self]
  omega

end Library.Tally

/-!
## Tallies in machine words

Sums of 64 bits are sums of natural numbers up to a multiple of their modulus. A count that
is compared with its limit before each further step never wraps.
-/

namespace Library.WordTallies

universe u

variable {α : Type u}

theorem foldl_add_toNat {f : α → UInt64} {n : α → Nat} (h : ∀ a, (f a).toNat % 2 ^ 64 = n a % 2 ^ 64) (l : List α)
    (s : UInt64) : (l.foldl (fun s a => s + f a) s).toNat = (s.toNat + (l.map n).sum) % 2 ^ 64 := by
  induction l generalizing s with
  | nil =>
    rw [List.foldl_nil, List.map_nil, List.sum_nil, Nat.add_zero, Nat.mod_eq_of_lt s.toNat_lt]
  | cons a l ih =>
    rw [List.foldl_cons, ih, List.map_cons, List.sum_cons, UInt64.toNat_add, ← Nat.add_assoc, Nat.mod_add_mod,
      Nat.add_mod (s.toNat + (f a).toNat), Nat.add_mod s.toNat, h a, ← Nat.add_mod s.toNat, ← Nat.add_mod]

theorem le_foldl_max_iff {f : α → UInt64} {l : List α} {bound s : UInt64} :
    bound ≤ l.foldl (fun s a => if s < f a then f a else s) s ↔ bound ≤ s ∨ ∃ a ∈ l, bound ≤ f a := by
  induction l generalizing s with
  | nil => simp
  | cons a l ih =>
    rw [List.foldl_cons, ih, List.exists_mem_cons_iff, ← or_assoc]
    refine or_congr_left ?_
    split
    · rename_i hLess
      exact ⟨Or.inr, fun h => h.elim (fun hs => UInt64.le_trans hs (UInt64.le_of_lt hLess)) id⟩
    · rename_i hNot
      exact ⟨Or.inl, fun h => h.elim id fun ha => UInt64.le_trans ha (UInt64.not_lt.mp hNot)⟩

def enough (test : α → Bool) (limit : UInt64) : UInt64 → List α → Bool
  | _, [] => false
  | count, a :: l =>
    if test a then limit ≤ count + 1 || enough test limit (count + 1) l else enough test limit count l

theorem enough_iff {test : α → Bool} {limit count : UInt64} (h : count.toNat < max 1 limit.toNat) (l : List α) :
    enough test limit count l = true ↔ max 1 limit.toNat ≤ count.toNat + l.countP test := by
  induction l generalizing count with
  | nil =>
    rw [enough, List.countP_nil, Nat.add_zero]
    exact iff_of_false Bool.false_ne_true (Nat.not_le.mpr h)
  | cons a l ih =>
    rw [enough, Tally.countP_cons, Tally.weight]
    cases hTest : test a with
    | false => rw [if_neg Bool.false_ne_true, if_neg Bool.false_ne_true, ih h, Nat.add_zero]
    | true =>
      have hLimit := limit.toNat_lt
      have hNext : (count + 1).toNat = count.toNat + 1 := by
        rw [UInt64.toNat_add, UInt64.toNat_one, Nat.mod_eq_of_lt (by omega)]
      rw [if_pos rfl, if_pos rfl, Bool.or_eq_true, decide_eq_true_eq, UInt64.le_iff_toNat_le, hNext]
      by_cases hReached : limit.toNat ≤ count.toNat + 1
      · exact iff_of_true (Or.inl hReached) (by omega)
      · rw [ih (by omega), hNext, or_iff_right hReached]
        omega

end Library.WordTallies
