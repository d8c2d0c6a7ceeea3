import AshamaneCore.Library.LinkedChains

/-!
# References

A reference of a source to a target is an element of the list of the target. The lists are
threaded through the references and end at two sentinels, whose outer pointers are null.
-/

namespace AshamaneCore.References

open Library.LinkedChains

section LinkedListElement

variable {α : Type} (links : Links α) (e : α)

def hasNext : Bool := ((links.next e).bind links.next).isSome

def hasPrev : Bool := ((links.prev e).bind links.prev).isSome

def isInList : Bool := (links.next e).isSome && (links.prev e).isSome

def next : Option α := if hasNext links e then links.next e else none

def prev : Option α := if hasPrev links e then links.prev e else none

variable [DecidableEq α]

def delink : Links α :=
  match links.next e, links.prev e with
  | some iNext, some iPrev => links.cut iPrev e iNext
  | _, _ => links

def insertBefore (pElem : α) : Option (Links α) := (links.prev e).map fun iPrev => links.join iPrev pElem e

def insertAfter (pElem : α) : Option (Links α) := (links.next e).map fun iNext => links.join e pElem iNext

end LinkedListElement

inductive Node (T R : Type)
  | iFirst (t : T)
  | iLast (t : T)
  | ref (r : R)
  deriving DecidableEq

/-- The caller breaks a rule, an assertion fails, or the code goes wrong: it follows a null pointer, takes a sentinel
for a reference, or does not end. -/
inductive Failure
  | misuse
  | assertion
  | fault
  deriving DecidableEq

def deref {α : Type} : Option α → Except Failure α
  | none => .error .fault
  | some a => .ok a

/-- Where the hook of a target puts a reference in its list. -/
inductive Place (R : Type)
  | first
  | last
  | before (q : R)
  | after (q : R)

inductive Call (T R S : Type)
  | construct (r : R)
  | link (r : R) (toObj : Option T) (fromObj : Option S) (place : Place R)
  | unlink (r : R)
  | invalidate (r : R)
  | destroy (r : R)
  | clearReferences (t : T)

section Nodes

variable {T R : Type} (t : T)

def nodes (refs : List R) : List (Node T R) := .iFirst t :: (refs.map .ref ++ [.iLast t])

/-- The node at the end of a first part of a list. -/
def before (refs : List R) : Node T R := refs.getLast?.elim (.iFirst t) .ref

/-- The node at the start of a second part of a list. -/
def behind (refs : List R) : Node T R := refs.head?.elim (.iLast t) .ref

variable {t} {r : R} {n : Node T R} {refs : List R}

theorem mem_nodes : n ∈ nodes t refs ↔ n = .iFirst t ∨ (∃ r ∈ refs, .ref r = n) ∨ n = .iLast t := by
  rw [nodes, List.mem_cons, List.mem_append, List.mem_map, List.mem_singleton]

theorem ref_mem_nodes : .ref r ∈ nodes t refs ↔ r ∈ refs := by
  simp [mem_nodes]

theorem nodup_nodes (h : refs.Nodup) : (nodes t refs).Nodup := by
  have hRefs : (refs.map (Node.ref (T := T))).Nodup := h.map fun _ _ hEq => Node.ref.inj hEq
  simpa [nodes, List.nodup_append] using hRefs

/-- The nodes of a list that is parted, and with a reference between the parts. -/
theorem nodes_parts (t : T) (first second : List R) :
    ∃ l m, nodes t (first ++ second) = l ++ before t first :: behind t second :: m ∧
      ∀ r, nodes t (first ++ r :: second) = l ++ before t first :: .ref r :: behind t second :: m := by
  obtain ⟨l, hFirst⟩ : ∃ l, (.iFirst t :: first.map .ref : List (Node T R)) = l ++ [before t first] := by
    rcases List.eq_nil_or_concat first with rfl | ⟨first, q, rfl⟩
    · exact ⟨[], rfl⟩
    · exact ⟨.iFirst t :: first.map .ref, by simp [before]⟩
  obtain ⟨m, hSecond⟩ : ∃ m, (second.map .ref ++ [.iLast t] : List (Node T R)) = behind t second :: m := by
    cases second with
    | nil => exact ⟨[], rfl⟩
    | cons q second => exact ⟨_, rfl⟩
  refine ⟨l, m, ?_, fun r => ?_⟩
  · rw [nodes, List.map_append, List.append_assoc, hSecond, ← List.cons_append, hFirst, List.append_assoc]
    rfl
  · rw [nodes, List.map_append, List.append_assoc, List.map_cons, List.cons_append, hSecond, ← List.cons_append, hFirst,
      List.append_assoc]
    rfl

end Nodes

structure Heap (T R S : Type) where
  links : Links (Node T R)
  iRefTo : R → Option T
  iRefFrom : R → Option S
  live : List R

namespace Heap

variable {T R S : Type} [DecidableEq T] [DecidableEq R] (s : Heap T R S) (r : R) (t : T)

/-- Every target has an empty list, and there are no references. -/
def start : Heap T R S where
  links.next
    | .iFirst t => some (.iLast t)
    | _ => none
  links.prev
    | .iLast t => some (.iFirst t)
    | _ => none
  iRefTo _ := none
  iRefFrom _ := none
  live := []

/-! ## LinkedListHead -/

def isEmpty : Except Failure Bool := do return !isInList s.links (← deref (s.links.next (.iFirst t)))

def getFirst : Except Failure (Option (Node T R)) := do
  return if ← s.isEmpty t then none else s.links.next (.iFirst t)

def getLast : Except Failure (Option (Node T R)) := do
  return if ← s.isEmpty t then none else s.links.prev (.iLast t)

def forward : Except Failure (List (Node T R)) := do deref (walk (next s.links) s.live.length (← s.getFirst t))

def backward : Except Failure (List (Node T R)) := do deref (walk (prev s.links) s.live.length (← s.getLast t))

/-! ## Reference -/

def construct : Heap T R S where
  links := ⟨Function.update s.links.next (.ref r) none, Function.update s.links.prev (.ref r) none⟩
  iRefTo := Function.update s.iRefTo r none
  iRefFrom := Function.update s.iRefFrom r none
  live := r :: s.live

def isValid : Bool := (s.iRefTo r).isSome

def unlink : Heap T R S :=
  { s with
    links := delink s.links (.ref r)
    iRefTo := Function.update s.iRefTo r none
    iRefFrom := Function.update s.iRefFrom r none }

def invalidate : Heap T R S :=
  { s with
    links := delink s.links (.ref r)
    iRefTo := Function.update s.iRefTo r none }

def destroy : Heap T R S := { s with links := delink s.links (.ref r), live := s.live.filter (· ≠ r) }

/-- The hook puts the reference into the list of its target, at either end or next to a reference of the list. -/
def targetObjectBuildLink (place : Place R) : Except Failure (Links (Node T R)) :=
  match place with
  | .first => deref (insertAfter s.links (.iFirst t) (.ref r))
  | .last => deref (insertBefore s.links (.iLast t) (.ref r))
  | .before q =>
    if q ≠ r ∧ q ∈ s.live ∧ s.iRefTo q = some t then deref (insertBefore s.links (.ref q) (.ref r)) else .error .misuse
  | .after q =>
    if q ≠ r ∧ q ∈ s.live ∧ s.iRefTo q = some t then deref (insertAfter s.links (.ref q) (.ref r)) else .error .misuse

def link (toObj : Option T) (fromObj : Option S) (place : Place R) : Except Failure (Heap T R S) := do
  if fromObj.isNone then throw .assertion
  let s := if s.isValid r then s.unlink r else s
  match toObj with
  | none => return s
  | some t =>
    let s := { s with iRefTo := Function.update s.iRefTo r (some t), iRefFrom := Function.update s.iRefFrom r fromObj }
    return { s with links := ← s.targetObjectBuildLink r t place }

/-! ## RefManager -/

def clearFrom : Nat → Heap T R S → Except Failure (Heap T R S)
  | 0, s => do
    if (← s.getFirst t).isSome then throw .fault
    return s
  | fuel + 1, s => do
    match ← s.getFirst t with
    | none => return s
    | some (.ref r) => clearFrom fuel (s.invalidate r)
    | some _ => throw .fault

/-- A loop with more turns than there are references does not end. -/
def clearReferences : Except Failure (Heap T R S) := s.clearFrom t s.live.length

def step : Call T R S → Except Failure (Heap T R S)
  | .construct r => if r ∈ s.live then .error .misuse else .ok (s.construct r)
  | .link r toObj fromObj place => if r ∈ s.live then s.link r toObj fromObj place else .error .misuse
  | .unlink r => if r ∈ s.live then .ok (s.unlink r) else .error .misuse
  | .invalidate r => if r ∈ s.live then .ok (s.invalidate r) else .error .misuse
  | .destroy r => if r ∈ s.live then .ok (s.destroy r) else .error .misuse
  | .clearReferences t => s.clearReferences t

/-! ## The lists -/

/-- Every list is threaded through the live references to its target, and the others are in no list. -/
structure Threads (lists : T → List R) : Prop where
  segment : ∀ t, Segment s.links none (nodes t (lists t)) none
  nodup : ∀ t, (lists t).Nodup
  mem : ∀ t r, r ∈ lists t ↔ r ∈ s.live ∧ s.iRefTo r = some t
  free : ∀ r ∈ s.live, s.iRefTo r = none → s.links.next (.ref r) = none ∧ s.links.prev (.ref r) = none

variable {s r t} {q : R} {t' : T} {n : Node T R} {first second : List R} {lists : T → List R}

namespace Threads

omit [DecidableEq T] [DecidableEq R] in
theorem not_mem (h : s.Threads lists) (hNone : s.iRefTo r = none) (t : T) : r ∉ lists t := by
  intro hr
  have hSome := ((h.mem t r).mp hr).2
  rw [hNone] at hSome
  cases hSome

omit [DecidableEq T] [DecidableEq R] in
theorem ref_not_mem (h : s.Threads lists) (hNone : s.iRefTo r = none) (t : T) : .ref r ∉ nodes t (lists t) :=
  fun hn => h.not_mem hNone t (ref_mem_nodes.mp hn)

omit [DecidableEq T] [DecidableEq R] in
/-- Two lists have no node in common. -/
theorem disjoint (h : s.Threads lists) (hNe : t' ≠ t) (hn : n ∈ nodes t' (lists t')) : n ∉ nodes t (lists t) := by
  intro hOther
  cases n with
  | iFirst t => simp_all [mem_nodes]
  | iLast t => simp_all [mem_nodes]
  | ref r =>
    have hTarget := ((h.mem t' r).mp (ref_mem_nodes.mp hn)).2
    exact hNe (Option.some.inj (hTarget.symm.trans ((h.mem t r).mp (ref_mem_nodes.mp hOther)).2))

omit [DecidableEq T] [DecidableEq R] in
theorem neighbours (h : s.Threads lists) (hList : lists t = first ++ r :: second) :
    s.links.next (.ref r) = some (behind t second) ∧ s.links.prev (.ref r) = some (before t first) := by
  obtain ⟨l, m, -, hNodes⟩ := nodes_parts t first second
  have hSegment := h.segment t
  rw [hList, hNodes, List.append_cons] at hSegment
  obtain ⟨hPrev, hNext⟩ := hSegment.neighbours
  rw [List.getLast?_concat, Option.some_or] at hPrev
  exact ⟨hNext, hPrev⟩

/-! ## Insertion -/

omit [DecidableEq T] [DecidableEq R] in
/-- Pointers that change only at the nodes of one list, and at a reference that is in no other. -/
theorem segment_elsewhere (h : s.Threads lists) (hT : t' ≠ t) (hAbsent : .ref r ∉ nodes t' (lists t'))
    {links : Links (Node T R)} (hSame : ∀ n, n ∉ nodes t (lists t) → n ≠ .ref r →
      links.next n = s.links.next n ∧ links.prev n = s.links.prev n) :
    Segment links none (nodes t' (lists t')) none := by
  have hKept := fun n hn => hSame n (h.disjoint hT hn) (ne_of_mem_of_not_mem hn hAbsent)
  exact (h.segment t').congr (fun n hn => (hKept n hn).1) fun n hn => (hKept n hn).2

theorem join_same (links : Links (Node T R)) (hList : lists t = first ++ second) (hn : n ∉ nodes t (lists t))
    (hr : n ≠ .ref r) :
    (links.join (before t first) (.ref r) (behind t second)).next n = links.next n ∧
      (links.join (before t first) (.ref r) (behind t second)).prev n = links.prev n := by
  obtain ⟨l, m, hNodes, -⟩ := nodes_parts t first second
  rw [hList, hNodes] at hn
  simp only [List.mem_append, List.mem_cons, not_or] at hn
  exact ⟨Links.join_next_of_ne hn.2.1 hr, Links.join_prev_of_ne hn.2.2.1 hr⟩

theorem segment_join (h : s.Threads lists) (hNone : s.iRefTo r = none) (hList : lists t = first ++ second) (t' : T) :
    Segment (s.links.join (before t first) (.ref r) (behind t second)) none
      (nodes t' (Function.update lists t (first ++ r :: second) t')) none := by
  have hAbsent := h.ref_not_mem hNone
  by_cases hT : t' = t
  · subst hT
    obtain ⟨l, m, hNodes, hNew⟩ := nodes_parts t' first second
    have hSegment := h.segment t'
    have hDistinct := nodup_nodes (t := t') (h.nodup t')
    have hOut := hAbsent t'
    rw [hList, hNodes] at hSegment hDistinct hOut
    rw [Function.update_self, hNew]
    exact hSegment.join hDistinct hOut
  · rw [Function.update_of_ne hT]
    exact h.segment_elsewhere hT (hAbsent t') fun n hn hr => join_same s.links hList hn hr

/-- A live reference without a target is put into the list of one. -/
theorem insert (h : s.Threads lists) (hLive : r ∈ s.live) (hNone : s.iRefTo r = none)
    (hList : lists t = first ++ second) (iRefFrom : R → Option S) :
    Threads ⟨s.links.join (before t first) (.ref r) (behind t second), Function.update s.iRefTo r (some t), iRefFrom,
      s.live⟩ (Function.update lists t (first ++ r :: second)) := by
  refine ⟨h.segment_join hNone hList, fun t' => ?_, fun t' q => ?_, fun q hq hTo => ?_⟩
  · by_cases hT : t' = t
    · subst hT
      rw [Function.update_self, List.nodup_middle, ← hList]
      exact List.nodup_cons.mpr ⟨h.not_mem hNone t', h.nodup t'⟩
    · rw [Function.update_of_ne hT]
      exact h.nodup t'
  · have hMem := h.mem t' q
    by_cases hT : t' = t
    · subst hT
      rw [hList] at hMem
      by_cases hQ : q = r
      · simp [hQ, hLive]
      · simp [hQ, ← hMem]
    · rw [Function.update_of_ne hT, hMem]
      by_cases hQ : q = r
      · simp [hQ, hNone, Ne.symm hT]
      · simp [hQ]
  · have hQ : q ≠ r := by
      rintro rfl
      simp at hTo
    dsimp only at hTo hq ⊢
    rw [Function.update_of_ne hQ] at hTo
    obtain ⟨hNext, hPrev⟩ := join_same s.links hList (h.ref_not_mem hTo t) fun hEq => hQ (Node.ref.inj hEq)
    rw [hNext, hPrev]
    exact h.free q hq hTo

/-! ## Removal -/

theorem delink_eq (h : s.Threads lists) (hList : lists t = first ++ r :: second) :
    delink s.links (.ref r) = s.links.cut (before t first) (.ref r) (behind t second) := by
  rw [References.delink, (h.neighbours hList).1, (h.neighbours hList).2]

theorem cut_same (links : Links (Node T R)) (hList : lists t = first ++ r :: second) (hn : n ∉ nodes t (lists t))
    (hr : n ≠ .ref r) :
    (links.cut (before t first) (.ref r) (behind t second)).next n = links.next n ∧
      (links.cut (before t first) (.ref r) (behind t second)).prev n = links.prev n := by
  obtain ⟨l, m, -, hNodes⟩ := nodes_parts t first second
  rw [hList, hNodes] at hn
  simp only [List.mem_append, List.mem_cons, not_or] at hn
  exact ⟨Links.cut_next_of_ne hn.2.1 hr, Links.cut_prev_of_ne hn.2.2.2.1 hr⟩

theorem segment_cut (h : s.Threads lists) (hList : lists t = first ++ r :: second) (t' : T) :
    Segment (s.links.cut (before t first) (.ref r) (behind t second)) none (nodes t' ((lists t').erase r)) none := by
  by_cases hT : t' = t
  · subst hT
    obtain ⟨l, m, hNew, hNodes⟩ := nodes_parts t' first second
    have hDistinct := nodup_nodes (t := t') (h.nodup t')
    have hSegment := h.segment t'
    have hTwice := h.nodup t'
    rw [hList] at hTwice
    have hFirst : r ∉ first := fun hr => (List.nodup_append.mp hTwice).2.2 r hr r List.mem_cons_self rfl
    rw [hList, hNodes] at hDistinct hSegment
    rw [hList, List.erase_append_right _ hFirst, List.erase_cons_head, hNew]
    exact hSegment.cut hDistinct
  · have hRef : .ref r ∈ nodes t (lists t) := ref_mem_nodes.mpr (by simp [hList])
    have hAbsent : .ref r ∉ nodes t' (lists t') := h.disjoint (Ne.symm hT) hRef
    rw [List.erase_of_not_mem fun hr => hAbsent (ref_mem_nodes.mpr hr)]
    exact h.segment_elsewhere hT hAbsent fun n hn hr => cut_same s.links hList hn hr

/-- What becomes of the pointers when a reference leaves its list, if it is in one. -/
theorem segment_delink (h : s.Threads lists) (hLive : r ∈ s.live) :
    (∀ t, Segment (delink s.links (.ref r)) none (nodes t ((lists t).erase r)) none) ∧
      ∀ q ∈ s.live, q = r ∨ s.iRefTo q = none →
        (delink s.links (.ref r)).next (.ref q) = none ∧ (delink s.links (.ref r)).prev (.ref q) = none := by
  cases hTarget : s.iRefTo r with
  | none =>
    have hKept : delink s.links (.ref r) = s.links := by
      rw [References.delink, (h.free r hLive hTarget).1]
    refine ⟨fun t => ?_, fun q hq hNone => ?_⟩
    · rw [List.erase_of_not_mem (h.not_mem hTarget t), hKept]
      exact h.segment t
    · rw [hKept]
      refine h.free q hq (hNone.elim ?_ id)
      rintro rfl
      exact hTarget
  | some t =>
    obtain ⟨first, second, hList⟩ := List.append_of_mem ((h.mem t r).mpr ⟨hLive, hTarget⟩)
    rw [h.delink_eq hList]
    refine ⟨h.segment_cut hList, fun q hq hNone => ?_⟩
    by_cases hQ : q = r
    · rw [hQ]
      exact ⟨Function.update_self .., Function.update_self ..⟩
    · have hOld := hNone.resolve_left hQ
      obtain ⟨hNext, hPrev⟩ := cut_same s.links hList (h.ref_not_mem hOld t) fun hEq => hQ (Node.ref.inj hEq)
      rw [hNext, hPrev]
      exact h.free q hq hOld

/-- A step that takes one reference out of its list, and its target or its life with it. -/
theorem delink (h : s.Threads lists) {s' : Heap T R S} (hLive : r ∈ s.live)
    (hLinks : s'.links = delink s.links (.ref r)) (hTo : ∀ q, q ≠ r → s'.iRefTo q = s.iRefTo q)
    (hSame : ∀ q, q ≠ r → (q ∈ s'.live ↔ q ∈ s.live)) (hGone : r ∈ s'.live → s'.iRefTo r = none) :
    s'.Threads fun t => (lists t).erase r := by
  obtain ⟨hSegment, hFree⟩ := h.segment_delink hLive
  refine ⟨fun t => ?_, fun t => (h.nodup t).erase r, fun t q => ?_, fun q hq hNone => ?_⟩
  · rw [hLinks]
    exact hSegment t
  · rw [(h.nodup t).mem_erase_iff, h.mem]
    by_cases hQ : q = r
    · subst hQ
      refine ⟨fun hFalse => absurd rfl hFalse.1, fun ⟨hIn, hSome⟩ => ?_⟩
      rw [hGone hIn] at hSome
      cases hSome
    · rw [hTo q hQ, hSame q hQ]
      exact and_iff_right hQ
  · rw [hLinks]
    by_cases hQ : q = r
    · exact hFree q (hQ ▸ hLive) (.inl hQ)
    · exact hFree q ((hSame q hQ).mp hq) (.inr ((hTo q hQ).symm.trans hNone))

/-! ## Traversals -/

omit [DecidableEq T] [DecidableEq R] in
theorem next_iFirst (h : s.Threads lists) (t : T) :
    s.links.next (.iFirst t) = some (behind t (lists t)) := by
  have hNext := (h.segment t).2.1
  rw [hNext]
  cases lists t <;> rfl

omit [DecidableEq T] [DecidableEq R] in
theorem prev_iLast (h : s.Threads lists) (t : T) :
    s.links.prev (.iLast t) = some (before t (lists t)) := by
  have hSegment := h.segment t
  rw [nodes, ← List.cons_append] at hSegment
  have hPrev := hSegment.neighbours.1
  rw [hPrev, List.getLast?_cons, List.getLast?_map, before]
  cases (lists t).getLast? <;> rfl

omit [DecidableEq T] [DecidableEq R] in
theorem isEmpty_eq (h : s.Threads lists) (t : T) : s.isEmpty t = .ok (lists t).isEmpty := by
  have hRest := (h.segment t).2.2
  rw [isEmpty, h.next_iFirst t]
  change Except.ok (!isInList s.links (behind t (lists t))) = _
  cases hList : lists t with
  | nil =>
    rw [hList] at hRest
    have hNext : s.links.next (.iLast t) = none := hRest.2.1
    rw [isInList, behind, List.head?_nil, Option.elim_none, hNext]
    rfl
  | cons r refs =>
    rw [hList] at hRest
    have hPrev : s.links.prev (.ref r) = some (.iFirst t) := hRest.1
    have hNext : s.links.next (.ref r) = (refs.map Node.ref ++ [Node.iLast t]).head?.or none := hRest.2.1
    rw [isInList, behind, List.head?_cons, Option.elim_some, hPrev, hNext]
    cases refs <;> rfl

omit [DecidableEq T] [DecidableEq R] in
theorem getFirst_eq (h : s.Threads lists) (t : T) : s.getFirst t = .ok ((lists t).map .ref).head? := by
  rw [getFirst, h.isEmpty_eq t, h.next_iFirst t]
  cases lists t <;> rfl

omit [DecidableEq T] [DecidableEq R] in
theorem getLast_eq (h : s.Threads lists) (t : T) : s.getLast t = .ok ((lists t).reverse.map .ref).head? := by
  rw [getLast, h.isEmpty_eq t, h.prev_iLast t, List.head?_map, List.head?_reverse]
  rcases List.eq_nil_or_concat (lists t) with hList | ⟨refs, r, hList⟩
  · rw [hList]
    rfl
  · rw [hList, List.concat_eq_append, before, List.getLast?_concat]
    cases refs <;> rfl

omit [DecidableEq T] [DecidableEq R] in
theorem length_le (h : s.Threads lists) (t : T) : (lists t).length ≤ s.live.length :=
  (h.nodup t).length_le_of_subset fun r hr => ((h.mem t r).mp hr).1

omit [DecidableEq T] [DecidableEq R] in
theorem forward_eq (h : s.Threads lists) (t : T) : s.forward t = .ok ((lists t).map .ref) := by
  rw [forward, h.getFirst_eq t]
  have hFuel : ((lists t).map (Node.ref (T := T))).length ≤ s.live.length := by
    rw [List.length_map]
    exact h.length_le t
  have hWalk : walk (next s.links) s.live.length ((lists t).map .ref).head? = some ((lists t).map .ref) :=
    walk_segment (fun _ => rfl) hFuel (h.segment t).2.2
  exact congrArg deref hWalk

omit [DecidableEq T] [DecidableEq R] in
theorem backward_eq (h : s.Threads lists) (t : T) : s.backward t = .ok ((lists t).reverse.map .ref) := by
  rw [backward, h.getLast_eq t]
  have hReverse := (h.segment t).reverse
  rw [nodes, List.reverse_cons, List.reverse_append, List.reverse_singleton, List.singleton_append, List.cons_append,
    ← List.map_reverse] at hReverse
  have hFuel : ((lists t).reverse.map (Node.ref (T := T))).length ≤ s.live.length := by
    rw [List.length_map, List.length_reverse]
    exact h.length_le t
  have hWalk : walk (prev s.links) s.live.length ((lists t).reverse.map .ref).head? = some ((lists t).reverse.map .ref) :=
    walk_segment (fun _ => rfl) hFuel hReverse.2.2
  exact congrArg deref hWalk

/-! ## Calls -/

theorem unlink (h : s.Threads lists) (hLive : r ∈ s.live) : (s.unlink r).Threads fun t => (lists t).erase r :=
  h.delink hLive rfl (fun _ hQ => Function.update_of_ne hQ _ _) (fun _ _ => Iff.rfl) fun _ => Function.update_self ..

theorem invalidate (h : s.Threads lists) (hLive : r ∈ s.live) : (s.invalidate r).Threads fun t => (lists t).erase r :=
  h.delink hLive rfl (fun _ hQ => Function.update_of_ne hQ _ _) (fun _ _ => Iff.rfl) fun _ => Function.update_self ..

theorem destroy (h : s.Threads lists) (hLive : r ∈ s.live) : (s.destroy r).Threads fun t => (lists t).erase r :=
  h.delink hLive rfl (fun _ _ => rfl) (fun q hQ => by simp [Heap.destroy, hQ]) fun hIn => by simp [Heap.destroy] at hIn

theorem construct (h : s.Threads lists) (hDead : r ∉ s.live) : (s.construct r).Threads lists := by
  have hOut : ∀ t, r ∉ lists t := fun t hr => hDead ((h.mem t r).mp hr).1
  refine ⟨fun t => ?_, h.nodup, fun t q => ?_, fun q hq hNone => ?_⟩
  · have hRef : .ref r ∉ nodes t (lists t) := fun hn => hOut t (ref_mem_nodes.mp hn)
    exact (h.segment t).congr (fun n hn => Function.update_of_ne (ne_of_mem_of_not_mem hn hRef) _ _)
      fun n hn => Function.update_of_ne (ne_of_mem_of_not_mem hn hRef) _ _
  · by_cases hQ : q = r
    · simp [hQ, hOut, Heap.construct]
    · simp [hQ, h.mem, Heap.construct]
  · by_cases hQ : q = r
    · rw [hQ]
      exact ⟨Function.update_self .., Function.update_self ..⟩
    · have hNode : (.ref q : Node T R) ≠ .ref r := by simpa using hQ
      simp only [Heap.construct, Function.update_of_ne hNode, Function.update_of_ne hQ, List.mem_cons, hQ,
        false_or] at hq hNone ⊢
      exact h.free q hq hNone

/-- Every turn of the loop takes the first reference out of the list. -/
theorem clearFrom {fuel : Nat} (h : s.Threads lists) (hFuel : (lists t).length ≤ fuel) :
    ∃ s' lists', s.clearFrom t fuel = .ok s' ∧ s'.Threads lists' ∧ lists' t = [] := by
  induction fuel generalizing s lists with
  | zero =>
    have hList := List.length_eq_zero_iff.mp (Nat.le_zero.mp hFuel)
    refine ⟨s, lists, ?_, h, hList⟩
    rw [Heap.clearFrom, h.getFirst_eq t, hList]
    rfl
  | succ fuel ih =>
    cases hList : lists t with
    | nil =>
      refine ⟨s, lists, ?_, h, hList⟩
      rw [Heap.clearFrom, h.getFirst_eq t, hList]
      rfl
    | cons r refs =>
      have hLive := ((h.mem t r).mp (hList ▸ List.mem_cons_self)).1
      have hRest : ((lists t).erase r).length ≤ fuel := by
        rw [hList, List.erase_cons_head]
        rw [hList, List.length_cons] at hFuel
        omega
      obtain ⟨s', lists', hClear, hRest⟩ := ih (h.invalidate hLive) hRest
      refine ⟨s', lists', ?_, hRest⟩
      rw [Heap.clearFrom, h.getFirst_eq t, hList]
      exact hClear

/-- The hook finds its place in the list of the target, which a reference that comes in has already been given. -/
theorem targetObjectBuildLink (h : s.Threads lists) (t : T) (iRefFrom : R → Option S) (place : Place R) :
    let s' := { s with iRefTo := Function.update s.iRefTo r (some t), iRefFrom := iRefFrom }
    s'.targetObjectBuildLink r t place = .error .misuse ∨
      ∃ first second, lists t = first ++ second ∧
        s'.targetObjectBuildLink r t place = .ok (s.links.join (before t first) (.ref r) (behind t second)) := by
  have hSplit : ∀ q, q ≠ r ∧ q ∈ s.live ∧ Function.update s.iRefTo r (some t) q = some t →
      ∃ first second, lists t = first ++ q :: second := by
    rintro q ⟨hQ, hIn, hTo⟩
    rw [Function.update_of_ne hQ] at hTo
    exact List.append_of_mem ((h.mem t q).mpr ⟨hIn, hTo⟩)
  dsimp only
  cases place with
  | first =>
    refine .inr ⟨[], lists t, rfl, ?_⟩
    rw [Heap.targetObjectBuildLink, insertAfter, h.next_iFirst t]
    rfl
  | last =>
    refine .inr ⟨lists t, [], (List.append_nil _).symm, ?_⟩
    rw [Heap.targetObjectBuildLink, insertBefore, h.prev_iLast t]
    rfl
  | before q =>
    rw [Heap.targetObjectBuildLink]
    split
    · obtain ⟨first, second, hList⟩ := hSplit q ‹_›
      refine .inr ⟨first, q :: second, hList, ?_⟩
      rw [insertBefore, (h.neighbours hList).2]
      rfl
    · exact .inl rfl
  | after q =>
    rw [Heap.targetObjectBuildLink]
    split
    · obtain ⟨first, second, hList⟩ := hSplit q ‹_›
      refine .inr ⟨first ++ [q], second, by rw [hList, List.append_cons], ?_⟩
      rw [insertAfter, (h.neighbours hList).1, References.before, List.getLast?_concat]
      rfl
    · exact .inl rfl

end Threads

/-- The result is no fault, and a state has the property. -/
def Yields (P : Heap T R S → Prop) : Except Failure (Heap T R S) → Prop
  | .ok s => P s
  | .error e => e ≠ .fault

def Sound (s : Heap T R S) : Prop := ∃ lists, s.Threads lists

theorem Sound.link (h : s.Sound) (hLive : r ∈ s.live) (toObj : Option T) (fromObj : Option S) (place : Place R) :
    Yields Sound (s.link r toObj fromObj place) := by
  rw [Heap.link]
  cases fromObj with
  | none => exact nofun
  | some fromObj =>
    -- an old link is cut first, so that the reference has no target when it comes in
    have hFree : ∃ lists, Threads (if s.isValid r then s.unlink r else s) lists ∧
        (if s.isValid r then s.unlink r else s).iRefTo r = none ∧ r ∈ (if s.isValid r then s.unlink r else s).live := by
      obtain ⟨lists, h⟩ := h
      split
      · exact ⟨_, h.unlink hLive, Function.update_self .., hLive⟩
      · rename_i hInvalid
        exact ⟨lists, h, Option.not_isSome_iff_eq_none.mp hInvalid, hLive⟩
    generalize (if s.isValid r then s.unlink r else s) = s₁ at hFree
    obtain ⟨lists, h, hNone, hLive⟩ := hFree
    cases toObj with
    | none => exact ⟨lists, h⟩
    | some t =>
      change Yields Sound ((Heap.targetObjectBuildLink ⟨s₁.links, Function.update s₁.iRefTo r (some t),
        Function.update s₁.iRefFrom r (some fromObj), s₁.live⟩ r t place).bind fun links =>
          .ok ⟨links, Function.update s₁.iRefTo r (some t), Function.update s₁.iRefFrom r (some fromObj), s₁.live⟩)
      rcases h.targetObjectBuildLink t (Function.update s₁.iRefFrom r (some fromObj)) place with
        hBuild | ⟨first, second, hList, hBuild⟩
      · rw [hBuild]
        exact nofun
      · rw [hBuild]
        exact ⟨_, h.insert hLive hNone hList _⟩

theorem Sound.step (h : s.Sound) (call : Call T R S) : Yields Sound (s.step call) := by
  cases call with
  | construct r =>
    rw [Heap.step]
    split
    · exact nofun
    · exact h.imp fun _ h => h.construct ‹_›
  | link r toObj fromObj place =>
    rw [Heap.step]
    split
    · exact h.link ‹_› toObj fromObj place
    · exact nofun
  | unlink r =>
    rw [Heap.step]
    split
    · exact h.elim fun _ h => ⟨_, h.unlink ‹_›⟩
    · exact nofun
  | invalidate r =>
    rw [Heap.step]
    split
    · exact h.elim fun _ h => ⟨_, h.invalidate ‹_›⟩
    · exact nofun
  | destroy r =>
    rw [Heap.step]
    split
    · exact h.elim fun _ h => ⟨_, h.destroy ‹_›⟩
    · exact nofun
  | clearReferences t =>
    obtain ⟨lists, h⟩ := h
    obtain ⟨s', lists', hClear, h', -⟩ := h.clearFrom (h.length_le t)
    rw [Heap.step, clearReferences, hClear]
    exact ⟨lists', h'⟩

omit [DecidableEq T] [DecidableEq R] in
theorem sound_start : (start : Heap T R S).Sound :=
  ⟨fun _ => [], fun _ => ⟨rfl, rfl, rfl, rfl, trivial⟩, fun _ => List.nodup_nil, by simp [start], by simp [start]⟩

theorem Sound.run (h : s.Sound) (calls : List (Call T R S)) : Yields Sound (calls.foldlM Heap.step s) := by
  induction calls generalizing s with
  | nil => exact h
  | cons call calls ih =>
    rw [List.foldlM_cons]
    have hStep := h.step call
    cases hResult : s.step call with
    | error e =>
      rw [hResult] at hStep
      exact hStep
    | ok s' =>
      rw [hResult] at hStep
      exact ih hStep

/-- Both traversals of a list visit the live references to its target, each once, and clearing ends with no
reference left. -/
structure Consistent (s : Heap T R S) : Prop where
  lists : ∀ t, ∃ refs : List R, s.forward t = .ok (refs.map .ref) ∧ s.backward t = .ok (refs.reverse.map .ref) ∧
    refs.Nodup ∧ ∀ r, r ∈ refs ↔ r ∈ s.live ∧ s.iRefTo r = some t
  clears : ∀ t, ∃ s', s.clearReferences t = .ok s' ∧ s'.isEmpty t = .ok true ∧ s'.forward t = .ok []

theorem Sound.consistent (h : s.Sound) : s.Consistent := by
  obtain ⟨lists, h⟩ := h
  refine ⟨fun t => ⟨lists t, h.forward_eq t, h.backward_eq t, h.nodup t, h.mem t⟩, fun t => ?_⟩
  obtain ⟨s', lists', hClear, h', hList⟩ := h.clearFrom (h.length_le t)
  refine ⟨s', hClear, ?_, ?_⟩
  · rw [h'.isEmpty_eq t, hList]
    rfl
  · rw [h'.forward_eq t, hList]
    rfl

/-- No run of calls goes wrong, and every state that one reaches is consistent. -/
theorem consistent_run (calls : List (Call T R S)) : Yields Consistent (calls.foldlM step (start : Heap T R S)) := by
  have hRun := sound_start.run calls
  cases hResult : calls.foldlM step (start : Heap T R S) with
  | error e =>
    rw [hResult] at hRun
    exact hRun
  | ok s =>
    rw [hResult] at hRun
    exact hRun.consistent

/-- Two references come into a list at either end, and the destruction of the first leaves the other. -/
example : (([.construct 1, .construct 2, .link 1 (some 7) (some 0) .first, .link 2 (some 7) (some 0) .last, .destroy 1] :
    List (Call Nat Nat Nat)).foldlM step start).bind (forward · 7) = .ok [.ref 2] := by rfl

end Heap

end AshamaneCore.References
