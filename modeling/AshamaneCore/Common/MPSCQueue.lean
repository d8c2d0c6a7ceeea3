import AshamaneCore.Library.Transition
import Mathlib.Logic.Function.Basic

/-!
# The lock-free queue with many producers

An enqueue exchanges the head and links its node in a second access, so that other
threads may come between. No pointer is ever compared, so that a node is told by its
place in the order of the exchanges; an access to a freed node gives none. The last
two fields record history.
-/

namespace AshamaneCore

structure MPSCNode (T : Type*) where
  Data : Option T
  Next : Option Nat

structure MPSCQueue (T : Type*) where
  heap : Nat → Option (MPSCNode T)
  head : Nat
  tail : Nat
  /-- What a thread got from its exchange, and its own node, until it has linked the two. -/
  prevHead : Nat → Option (Nat × Nat)
  enqueued : List T
  dequeued : List (Option T)

namespace MPSCQueue

open Function Library.Transition

inductive Access (T : Type*)
  | exchange (thread : Nat) (input : T)
  | store (thread : Nat)
  | dequeue

variable {T : Type*}

def create : MPSCQueue T where
  heap := update (fun _ => none) 0 (some ⟨none, none⟩)
  head := 0
  tail := 0
  prevHead := fun _ => none
  enqueued := []
  dequeued := []

def exchange (s : MPSCQueue T) (thread : Nat) (input : T) : MPSCQueue T :=
  let node := s.enqueued.length + 1
  { s with
    heap := update s.heap node (some ⟨some input, none⟩)
    head := node
    prevHead := update s.prevHead thread (some (s.head, node))
    enqueued := s.enqueued ++ [input] }

def store (s : MPSCQueue T) (thread : Nat) : Option (MPSCQueue T) :=
  match s.prevHead thread with
  | none => some s
  | some (prevHead, node) =>
    (s.heap prevHead).map fun previous => { s with
      heap := update s.heap prevHead (some { previous with Next := some node })
      prevHead := update s.prevHead thread none }

def dequeue (s : MPSCQueue T) : Option (MPSCQueue T) :=
  (s.heap s.tail).bind fun tail =>
    match tail.Next with
    | none => some s
    | some next => (s.heap next).map fun node => { s with
        heap := update s.heap s.tail none
        tail := next
        dequeued := s.dequeued ++ [node.Data] }

/-- A thread starts its next enqueue only when it has linked its last node. -/
def step (s : MPSCQueue T) : Access T → Option (MPSCQueue T)
  | .exchange thread input => some (if (s.prevHead thread).isSome then s else s.exchange thread input)
  | .store thread => s.store thread
  | .dequeue => s.dequeue

/-- A node between the tail and the head is linked to the next one, or a thread will link it. -/
structure Sound (s : MPSCQueue T) : Prop where
  le : s.dequeued.length ≤ s.enqueued.length
  order : s.dequeued = (s.enqueued.take s.dequeued.length).map some
  head : s.head = s.enqueued.length
  tail : s.tail = s.dequeued.length
  node : ∀ {k}, s.tail ≤ k → k ≤ s.head → ∃ node, s.heap k = some node ∧
    (s.tail < k → node.Data = s.enqueued[k - 1]?) ∧
    (node.Next = some (k + 1) ∧ k < s.head ∨
      node.Next = none ∧ (k < s.head → ∃ thread, s.prevHead thread = some (k, k + 1)))
  pending : ∀ {thread k node}, s.prevHead thread = some (k, node) →
    s.tail ≤ k ∧ k < s.head ∧ node = k + 1 ∧ ∀ previous, s.heap k = some previous → previous.Next = none
  apart : ∀ {first second k node other}, s.prevHead first = some (k, node) →
    s.prevHead second = some (k, other) → first = second
  freed : ∀ {k}, k < s.tail ∨ s.head < k → s.heap k = none

theorem sound_create : (create : MPSCQueue T).Sound where
  le := Nat.le_refl _
  order := rfl
  head := rfl
  tail := rfl
  node := fun _ hk => ⟨⟨none, none⟩, by rw [Nat.le_zero.mp hk]; rfl,
    fun h => (Nat.not_lt_of_le hk h).elim, .inr ⟨rfl, fun h => (Nat.not_lt_zero _ h).elim⟩⟩
  pending := nofun
  apart := nofun
  freed := fun hk => by
    simp only [create] at hk ⊢
    exact update_of_ne (by omega) ..

variable {s t : MPSCQueue T} {thread : Nat}

theorem Sound.exchange (h : s.Sound) (input : T) (hThread : s.prevHead thread = none) :
    (s.exchange thread input).Sound := by
  have hHead := h.head
  have hTail := h.tail
  have hLe := h.le
  simp only [MPSCQueue.exchange]
  constructor
  · grind
  · rw [List.take_append_of_le_length h.le]
    exact h.order
  · grind
  · exact hTail
  · intro k hLow hHigh
    simp only [update_apply]
    rcases Nat.lt_or_eq_of_le hHigh with hOld | rfl
    · obtain ⟨node, hNode, hData, hNext⟩ := h.node hLow (by grind)
      refine ⟨node, by grind, by grind, ?_⟩
      rcases hNext with hNext | ⟨hNext, hThreads⟩
      · grind
      · refine .inr ⟨hNext, fun _ => ?_⟩
        by_cases hLast : k = s.head
        · exact ⟨thread, by grind⟩
        · grind
    · exact ⟨⟨some input, none⟩, by grind, by grind, by grind⟩
  · intro other k node hOther
    have hNode := @Sound.node _ _ h k
    have hPending := @Sound.pending _ _ h other k node
    simp only [update_apply] at *
    grind
  · intro first second k node other hFirst hSecond
    have hPending := @Sound.pending _ _ h
    have hApart := @Sound.apart _ _ h
    simp only [update_apply] at *
    grind
  · intro k hk
    have hFreed := @Sound.freed _ _ h k
    simp only [update_apply] at *
    grind

theorem Sound.store (h : s.Sound) (thread : Nat) : ∃ t, s.store thread = some t ∧ t.Sound := by
  cases hThread : s.prevHead thread with
  | none => exact ⟨s, by simp only [MPSCQueue.store, hThread], h⟩
  | some prev =>
    obtain ⟨k, node⟩ := prev
    obtain ⟨hLow, hHigh, rfl, hNone⟩ := h.pending hThread
    obtain ⟨previous, hPrevious, hData, -⟩ := h.node hLow (Nat.le_of_lt hHigh)
    refine ⟨{ s with
      heap := update s.heap k (some { previous with Next := some (k + 1) })
      prevHead := update s.prevHead thread none }, ?_, ?_⟩
    · simp only [MPSCQueue.store, hThread, hPrevious, Option.map_some]
    constructor
    · exact h.le
    · exact h.order
    · exact h.head
    · exact h.tail
    · intro j hj hj'
      have hNode := @Sound.node _ _ h j
      simp only [update_apply]
      grind
    · intro other j node hOther
      have hPending := @Sound.pending _ _ h other j node
      have hApart := @Sound.apart _ _ h other thread
      simp only [update_apply] at *
      grind
    · intro first second j node other hFirst hSecond
      have hApart := @Sound.apart _ _ h first second
      simp only [update_apply] at *
      grind
    · intro j hj
      have hFreed := @Sound.freed _ _ h j
      simp only [update_apply] at *
      grind

/-- A dequeue that gives nothing finds all delivered, or the next node still to be linked. -/
theorem Sound.dequeue (h : s.Sound) :
    ∃ t, s.dequeue = some t ∧ t.Sound ∧ t.enqueued = s.enqueued ∧ t.prevHead = s.prevHead ∧
      (t = s ∧ (s.tail < s.head → ∃ thread, s.prevHead thread = some (s.tail, s.tail + 1)) ∨
        t.tail = s.tail + 1 ∧ s.tail < s.head) := by
  have hHead := h.head
  have hTail := h.tail
  have hLe := h.le
  obtain ⟨tail, hNode, -, ⟨hNext, hLess⟩ | ⟨hNext, hThreads⟩⟩ := h.node (Nat.le_refl s.tail) (by omega)
  · obtain ⟨node, hSecond, hData, -⟩ := h.node (Nat.le_succ s.tail) hLess
    refine ⟨{ s with
      heap := update s.heap s.tail none
      tail := s.tail + 1
      dequeued := s.dequeued ++ [node.Data] }, ?_, ?_, rfl, rfl, .inr ⟨rfl, hLess⟩⟩
    · simp only [MPSCQueue.dequeue, hNode, hNext, hSecond, Option.bind_some, Option.map_some]
    constructor
    · simp only [List.length_append, List.length_singleton]
      omega
    · have hValue : node.Data = s.enqueued[s.tail]? := hData (Nat.lt_succ_self _)
      have hInside : s.dequeued.length < s.enqueued.length := by omega
      rw [hTail, List.getElem?_eq_getElem hInside] at hValue
      rw [List.length_append, List.length_singleton, List.take_succ_eq_append_getElem hInside,
        List.map_append, ← h.order, hValue]
      rfl
    · exact hHead
    · simp [hTail]
    · intro k hk hk'
      have hOther := @Sound.node _ _ h k
      simp only [update_apply] at *
      grind
    · intro thread k other hThread
      have hPending := @Sound.pending _ _ h thread k other
      simp only [update_apply] at *
      grind
    · exact h.apart
    · intro k hk
      have hFreed := @Sound.freed _ _ h k
      simp only [update_apply] at *
      grind
  · refine ⟨s, ?_, h, rfl, rfl, .inl ⟨rfl, hThreads⟩⟩
    simp only [MPSCQueue.dequeue, hNode, hNext, Option.bind_some]

theorem Sound.step (h : s.Sound) (access : Access T) : ∃ t, s.step access = some t ∧ t.Sound := by
  cases access with
  | exchange thread input =>
    refine ⟨_, rfl, ?_⟩
    split
    · exact h
    · rename_i hThread
      exact h.exchange input (by simpa using hThread)
  | store thread => exact h.store thread
  | dequeue =>
    obtain ⟨t, hNext, hSound, -⟩ := h.dequeue
    exact ⟨t, hNext, hSound⟩

theorem Sound.drain (h : s.Sound) (hIdle : ∀ thread, s.prevHead thread = none) :
    ∃ t, (List.replicate (s.head - s.tail) .dequeue).foldlM MPSCQueue.step s = some t ∧ t.Sound ∧
      t.enqueued = s.enqueued ∧ t.tail = t.head := by
  generalize hCount : s.head - s.tail = count
  induction count generalizing s with
  | zero =>
    have hHead := h.head
    have hTail := h.tail
    have hLe := h.le
    exact ⟨s, rfl, h, rfl, by omega⟩
  | succ count ih =>
    obtain ⟨next, hNext, hSound, hSame, hPrev, ⟨-, hThreads⟩ | ⟨hTail, -⟩⟩ := h.dequeue
    · obtain ⟨thread, hThread⟩ := hThreads (by omega)
      rw [hIdle] at hThread
      cases hThread
    · have hHead : next.head = s.head := by rw [hSound.head, hSame, h.head]
      obtain ⟨t, hRun, hLast, hAll, hEnd⟩ := ih hSound (by rwa [hPrev]) (by omega)
      refine ⟨t, ?_, hLast, hAll.trans hSame, hEnd⟩
      rw [List.replicate_succ, List.foldlM_cons, MPSCQueue.step, hNext]
      exact hRun

/-- In whatever order the accesses come, none touches a freed node and the consumer gets
what was enqueued, in the order of the exchanges, each once. Once no thread is between
its two accesses, it gets all that is left, and only the last node stays. -/
theorem run_delivers (accesses : List (Access T)) :
    ∃ s, accesses.foldlM step create = some s ∧
      s.dequeued = (s.enqueued.take s.dequeued.length).map some ∧
      ((∀ thread, s.prevHead thread = none) →
        ∃ t, (List.replicate (s.head - s.tail) .dequeue).foldlM step s = some t ∧
          t.dequeued = s.enqueued.map some ∧ ∀ node, node ≠ t.head → t.heap node = none) := by
  obtain ⟨s, hRun, hSound⟩ := foldlM_kept (fun s access h => Sound.step h access) sound_create accesses
  refine ⟨s, hRun, hSound.order, fun hIdle => ?_⟩
  obtain ⟨t, hDrain, hEnd, hSame, hLast⟩ := hSound.drain hIdle
  refine ⟨t, hDrain, ?_, fun node hNode => hEnd.freed (by omega)⟩
  have hLength : t.dequeued.length = s.enqueued.length := by
    rw [← hEnd.tail, hLast, hEnd.head, hSame]
  rw [hEnd.order, hLength, hSame, List.take_length]

end MPSCQueue

end AshamaneCore
