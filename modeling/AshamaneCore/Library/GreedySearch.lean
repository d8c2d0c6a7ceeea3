import Mathlib.Data.List.Nodup
import Mathlib.Data.List.Infix

/-!
# Greedy completion

A list is completed from a queue. Each element of the queue completes what has been
chosen, or can be added to it, or is passed over; there is no way back. The search
succeeds exactly where some choice completes the list and everything the queue holds
between its members is passed over.
-/

namespace Library.GreedySearch

universe u

variable {α : Type u} (fits partly : List α → Bool)

def completes (check : List α) : List α → Bool
  | [] => false
  | x :: queue =>
    if fits (check ++ [x]) then true
    else if partly (check ++ [x]) then completes (check ++ [x]) queue
    else completes check queue

variable [DecidableEq α]

/-- Nothing that stands before the last of the chosen could have been added instead. -/
structure Unhindered (check queue chosen : List α) : Prop where
  sublist : chosen.Sublist queue
  whole : fits (check ++ chosen) = true
  begun : ∀ first, first <+: chosen → first ≠ chosen → partly (check ++ first) = true
  clear : ∀ before x after, queue = before ++ x :: after → x ∉ chosen →
    (∃ y ∈ after, y ∈ chosen) →
      fits (check ++ before.filter (· ∈ chosen) ++ [x]) = false ∧
      partly (check ++ before.filter (· ∈ chosen) ++ [x]) = false

variable {x : α} {chosen : List α}

theorem filter_chosen_cons {before : List α} (h : x ∉ before) :
    (x :: before).filter (· ∈ x :: chosen) = x :: before.filter (· ∈ chosen) := by
  rw [List.filter_cons, if_pos (by simp)]
  refine congrArg _ (List.filter_congr fun y hy => ?_)
  have hNe : y ≠ x := by
    rintro rfl
    exact h hy
  simp only [List.mem_cons, hNe, false_or]

theorem filter_chosen_of_notMem {before : List α} (h : x ∉ chosen) :
    (x :: before).filter (· ∈ chosen) = before.filter (· ∈ chosen) := by
  rw [List.filter_cons, if_neg (by simpa using h)]

variable {fits partly}

variable {check queue : List α}

theorem Unhindered.last (hFits : fits (check ++ [x]) = true)
    (hPartly : partly check = true) (hNodup : (x :: queue).Nodup) :
    Unhindered fits partly check (x :: queue) [x] := by
  refine ⟨List.singleton_sublist.mpr List.mem_cons_self, hFits, ?_, ?_⟩
  · intro first hFirst hNe
    obtain ⟨rest, hRest⟩ := hFirst
    cases first with
    | nil => rwa [List.append_nil]
    | cons y first =>
      obtain ⟨rfl, hNil⟩ := List.cons_eq_cons.mp hRest
      obtain ⟨rfl, -⟩ := List.append_eq_nil_iff.mp hNil
      exact absurd rfl hNe
  · rintro before y after hQueue hOther ⟨z, hz, hChosen⟩
    obtain rfl := List.mem_singleton.mp hChosen
    cases before with
    | nil =>
      obtain ⟨rfl, -⟩ := List.cons_eq_cons.mp hQueue
      exact absurd List.mem_cons_self hOther
    | cons w before =>
      obtain ⟨rfl, rfl⟩ := List.cons_eq_cons.mp hQueue
      exact absurd (List.mem_append_right _ (List.mem_cons_of_mem _ hz)) (List.nodup_cons.mp hNodup).1

theorem Unhindered.take (hPartly : partly check = true) (hNodup : (x :: queue).Nodup)
    (h : Unhindered fits partly (check ++ [x]) queue chosen) :
    Unhindered fits partly check (x :: queue) (x :: chosen) := by
  have hAppend : ∀ l : List α, check ++ x :: l = check ++ [x] ++ l := by simp
  have hNew : x ∉ queue := (List.nodup_cons.mp hNodup).1
  refine ⟨h.sublist.cons_cons x, ?_, ?_, ?_⟩
  · rw [hAppend]
    exact h.whole
  · intro first hFirst hNe
    cases first with
    | nil => rwa [List.append_nil]
    | cons y first =>
      obtain ⟨rfl, hRest⟩ := List.cons_prefix_cons.mp hFirst
      rw [hAppend]
      exact h.begun first hRest fun hEq => hNe (congrArg _ hEq)
  · intro before y after hQueue hOther hLater
    cases before with
    | nil =>
      obtain ⟨rfl, -⟩ := List.cons_eq_cons.mp hQueue
      exact absurd List.mem_cons_self hOther
    | cons w before =>
      obtain ⟨rfl, rfl⟩ := List.cons_eq_cons.mp hQueue
      rw [filter_chosen_cons fun hIn => hNew (List.mem_append_left _ hIn), hAppend]
      refine h.clear before y after rfl (fun hIn => hOther (List.mem_cons_of_mem _ hIn)) ?_
      obtain ⟨z, hz, hChosen⟩ := hLater
      obtain rfl | hChosen := List.mem_cons.mp hChosen
      · exact absurd (List.mem_append_right _ (List.mem_cons_of_mem _ hz)) hNew
      · exact ⟨z, hz, hChosen⟩

theorem Unhindered.pass (hFits : fits (check ++ [x]) = false)
    (hPartly : partly (check ++ [x]) = false) (hNodup : (x :: queue).Nodup)
    (h : Unhindered fits partly check queue chosen) :
    Unhindered fits partly check (x :: queue) chosen := by
  have hOut : x ∉ chosen := fun hIn => (List.nodup_cons.mp hNodup).1 (h.sublist.subset hIn)
  refine ⟨h.sublist.cons x, h.whole, h.begun, ?_⟩
  intro before y after hQueue hOther hLater
  cases before with
  | nil =>
    obtain ⟨rfl, rfl⟩ := List.cons_eq_cons.mp hQueue
    simpa using ⟨hFits, hPartly⟩
  | cons w before =>
    obtain ⟨rfl, rfl⟩ := List.cons_eq_cons.mp hQueue
    rw [filter_chosen_of_notMem hOut]
    exact h.clear before y after rfl hOther hLater

theorem Unhindered.of_take (hNew : x ∉ queue)
    (h : Unhindered fits partly check (x :: queue) (x :: chosen)) :
    Unhindered fits partly (check ++ [x]) queue chosen := by
  refine ⟨List.cons_sublist_cons.mp h.sublist, by simpa using h.whole, ?_, ?_⟩
  · intro first hPrefix hNe
    have hLonger := h.begun (x :: first) (List.cons_prefix_cons.mpr ⟨rfl, hPrefix⟩)
      fun hEq => hNe (List.cons_eq_cons.mp hEq).2
    simpa using hLonger
  · rintro before y after rfl hOther ⟨z, hz, hChosen⟩
    have hy : y ∉ x :: chosen := by
      intro hy
      obtain rfl | hy := List.mem_cons.mp hy
      · exact hNew (List.mem_append_right _ List.mem_cons_self)
      · exact hOther hy
    have hClear := h.clear (x :: before) y after rfl hy ⟨z, hz, List.mem_cons_of_mem _ hChosen⟩
    rw [filter_chosen_cons fun hIn => hNew (List.mem_append_left _ hIn)] at hClear
    simpa using hClear

theorem Unhindered.of_pass (hOut : x ∉ chosen)
    (h : Unhindered fits partly check (x :: queue) chosen) :
    Unhindered fits partly check queue chosen := by
  refine ⟨?_, h.whole, h.begun, ?_⟩
  · obtain hLater | ⟨rest, rfl, -⟩ := List.sublist_cons_iff.mp h.sublist
    · exact hLater
    · exact absurd List.mem_cons_self hOut
  · intro before y after hQueue hOther hLater
    have hClear := h.clear (x :: before) y after (congrArg _ hQueue) hOther hLater
    rwa [filter_chosen_of_notMem hOut] at hClear

theorem completes_of_unhindered (hNodup : queue.Nodup)
    (hExcl : ∀ l, partly l = true → fits l = false) (hPartly : partly check = true)
    (h : Unhindered fits partly check queue chosen) : completes fits partly check queue = true := by
  have hSome : chosen ≠ [] := by
    rintro rfl
    have hFits := h.whole
    rw [List.append_nil, hExcl check hPartly] at hFits
    cases hFits
  induction queue generalizing check chosen with
  | nil => exact absurd (List.sublist_nil.mp h.sublist) hSome
  | cons x queue ih =>
    obtain ⟨hNew, hRest⟩ := List.nodup_cons.mp hNodup
    rw [completes]
    split
    · rfl
    · rename_i hNotFits
      by_cases hIn : x ∈ chosen
      · obtain hLater | ⟨rest, rfl, -⟩ := List.sublist_cons_iff.mp h.sublist
        · exact absurd (hLater.subset hIn) hNew
        · have hMore : rest ≠ [] := by
            rintro rfl
            exact hNotFits h.whole
          have hFirst : partly (check ++ [x]) = true :=
            h.begun [x] (List.prefix_append [x] rest) fun hEq => hMore (List.cons_eq_cons.mp hEq).2.symm
          rw [if_pos hFirst]
          exact ih hRest hFirst (h.of_take hNew) hMore
      · have hAfter := h.of_pass hIn
        obtain ⟨y, hy⟩ := List.exists_mem_of_ne_nil chosen hSome
        have hPassed := h.clear [] x queue rfl hIn ⟨y, hAfter.sublist.subset hy, hy⟩
        rw [List.filter_nil, List.append_nil] at hPassed
        rw [if_neg (by simp [hPassed.2])]
        exact ih hRest hPartly hAfter hSome

theorem unhindered_of_completes (hNodup : queue.Nodup)
    (hPartly : partly check = true) (h : completes fits partly check queue = true) :
    ∃ chosen, Unhindered fits partly check queue chosen := by
  induction queue generalizing check with
  | nil => cases h
  | cons x queue ih =>
    have hRest : queue.Nodup := (List.nodup_cons.mp hNodup).2
    rw [completes] at h
    split at h
    · rename_i hFits
      exact ⟨[x], Unhindered.last hFits hPartly hNodup⟩
    · rename_i hNotFits
      split at h
      · rename_i hMore
        obtain ⟨chosen, hChosen⟩ := ih hRest hMore h
        exact ⟨x :: chosen, hChosen.take hPartly hNodup⟩
      · rename_i hNotPartly
        obtain ⟨chosen, hChosen⟩ := ih hRest hPartly h
        exact ⟨chosen, hChosen.pass (by simpa using hNotFits) (by simpa using hNotPartly) hNodup⟩

theorem completes_iff (hNodup : queue.Nodup)
    (hExcl : ∀ l, partly l = true → fits l = false) (hPartly : partly check = true) :
    completes fits partly check queue = true ↔
      ∃ chosen, Unhindered fits partly check queue chosen := by
  constructor
  · exact unhindered_of_completes hNodup hPartly
  · rintro ⟨chosen, h⟩
    exact completes_of_unhindered hNodup hExcl hPartly h

end Library.GreedySearch
