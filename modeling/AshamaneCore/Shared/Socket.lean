import AshamaneCore.Common.MessageBuffer
import AshamaneCore.Library.Transition

/-!
# The sending side of the socket without completion ports

The outcomes of all write_some calls are one given sequence, met in order; a
call never sends more than it was offered. The last four fields only record
history: the bytes on the wire, the bytes ever queued, whether unsent bytes
were thrown away, and whether bytes were sent after that.
-/

namespace AshamaneCore

inductive WriteOutcome
  | would_block
  | try_again
  | error
  | sent (bytes : Nat)
  deriving DecidableEq

structure Socket where
  writeQueue : List MessageBuffer
  closed : Bool
  closing : Bool
  isWritingAsync : Bool
  calls : Nat
  wire : List UInt8
  queued : List UInt8
  lost : Bool
  strayed : Bool
  deriving DecidableEq

namespace Socket

def fresh : Socket := ⟨[], false, false, false, 0, [], [], false, false⟩

def queuePacket (s : Socket) (buffer : MessageBuffer) : Socket :=
  { s with writeQueue := s.writeQueue ++ [buffer], queued := s.queued ++ buffer.activeBytes }

def closeSocket (s : Socket) : Socket := { s with closed := true }

def delayedCloseSocket (s : Socket) : Socket := { s with closing := true }

def asyncProcessQueue (s : Socket) : Bool × Socket :=
  if s.isWritingAsync then (false, s) else (false, { s with isWritingAsync := true })

/-- Removal of the front message, and the delayed close behind the last one. -/
def pop (s : Socket) (rest : List MessageBuffer) : Socket :=
  let s := { s with writeQueue := rest }
  if s.closing && rest.isEmpty then s.closeSocket else s

def drop (s : Socket) (queuedMessage : MessageBuffer) (rest : List MessageBuffer) : Socket :=
  { s.pop rest with lost := s.lost || 0 < queuedMessage.getActiveSize }

def transmit (s : Socket) (bytes : List UInt8) : Socket :=
  { s with wire := s.wire ++ bytes, strayed := s.strayed || s.lost }

def handleQueue (net : Nat → WriteOutcome) (s : Socket) : Bool × Socket :=
  match s.writeQueue with
  | [] => (false, s)
  | queuedMessage :: rest =>
    let bytesToSend := queuedMessage.getActiveSize
    let called := { s with calls := s.calls + 1 }
    match net s.calls with
    | .would_block => called.asyncProcessQueue
    | .try_again => called.asyncProcessQueue
    | .error => (false, called.drop queuedMessage rest)
    | .sent bytes =>
      let bytesSent := min bytes bytesToSend
      if bytesSent = 0 then (false, called.drop queuedMessage rest)
      else
        let moved := called.transmit (queuedMessage.peek bytesSent)
        if bytesSent < bytesToSend then
          { moved with writeQueue := queuedMessage.readCompleted bytesSent :: rest }.asyncProcessQueue
        else (!rest.isEmpty, moved.pop rest)

/-- A round that asks for another one has removed a message, so the queue bounds the rounds. -/
def updateLoop (net : Nat → WriteOutcome) : Nat → Socket → Socket
  | 0, s => s
  | rounds + 1, s =>
    match s.handleQueue net with
    | (true, next) => updateLoop net rounds next
    | (false, next) => next

def update (net : Nat → WriteOutcome) (s : Socket) : Socket :=
  if s.closed then s
  else if s.isWritingAsync || (s.writeQueue.isEmpty && !s.closing) then s
  else updateLoop net s.writeQueue.length s

def writeHandlerWrapper (net : Nat → WriteOutcome) (s : Socket) : Socket :=
  (handleQueue net { s with isWritingAsync := false }).2

/-- A buffer as its class leaves it, with its positions in order. -/
abbrev Packet : Type := { buffer : MessageBuffer // buffer.WellFormed }

inductive Event
  | queuePacket (packet : Packet)
  | update
  | writeHandlerWrapper
  | closeSocket
  | delayedCloseSocket

def step (net : Nat → WriteOutcome) (s : Socket) : Event → Socket
  | .queuePacket packet => s.queuePacket packet.1
  | .update => s.update net
  | .writeHandlerWrapper => s.writeHandlerWrapper net
  | .closeSocket => s.closeSocket
  | .delayedCloseSocket => s.delayedCloseSocket

def pending (s : Socket) : List UInt8 := s.writeQueue.flatMap MessageBuffer.activeBytes

/-! ## One call of the queue handler -/

section Fields

variable (s : Socket) (rest : List MessageBuffer)

@[simp] theorem pop_writeQueue : (s.pop rest).writeQueue = rest := by rw [pop]; split <;> rfl
@[simp] theorem pop_wire : (s.pop rest).wire = s.wire := by rw [pop]; split <;> rfl
@[simp] theorem pop_queued : (s.pop rest).queued = s.queued := by rw [pop]; split <;> rfl
@[simp] theorem pop_lost : (s.pop rest).lost = s.lost := by rw [pop]; split <;> rfl
@[simp] theorem pop_strayed : (s.pop rest).strayed = s.strayed := by rw [pop]; split <;> rfl

@[simp] theorem asyncProcessQueue_again : s.asyncProcessQueue.1 = false := by
  rw [asyncProcessQueue]; split <;> rfl
@[simp] theorem asyncProcessQueue_writeQueue : s.asyncProcessQueue.2.writeQueue = s.writeQueue := by
  rw [asyncProcessQueue]; split <;> rfl
@[simp] theorem asyncProcessQueue_wire : s.asyncProcessQueue.2.wire = s.wire := by
  rw [asyncProcessQueue]; split <;> rfl
@[simp] theorem asyncProcessQueue_queued : s.asyncProcessQueue.2.queued = s.queued := by
  rw [asyncProcessQueue]; split <;> rfl
@[simp] theorem asyncProcessQueue_lost : s.asyncProcessQueue.2.lost = s.lost := by
  rw [asyncProcessQueue]; split <;> rfl
@[simp] theorem asyncProcessQueue_strayed : s.asyncProcessQueue.2.strayed = s.strayed := by
  rw [asyncProcessQueue]; split <;> rfl

end Fields

/-- The next call of the queue handler offers bytes and the outcome takes some of them. -/
def sendsBytes (net : Nat → WriteOutcome) (s : Socket) : Bool :=
  match s.writeQueue, net s.calls with
  | queuedMessage :: _, .sent bytes => 0 < min bytes queuedMessage.getActiveSize
  | _, _ => false

/-- What a call does to the queue, the wire and the history; the index is its answer. -/
inductive Handled (sends : Bool) (s : Socket) (queuedMessage : MessageBuffer)
    (rest : List MessageBuffer) (next : Socket) : Bool → Prop
  | blocked (hSends : sends = false) (hQueue : next.writeQueue = queuedMessage :: rest)
      (hWire : next.wire = s.wire) (hLost : next.lost = s.lost)
      (hStrayed : next.strayed = s.strayed) : Handled sends s queuedMessage rest next false
  | dropped (hSends : sends = false) (hQueue : next.writeQueue = rest)
      (hWire : next.wire = s.wire) (hLost : next.lost = (s.lost || 0 < queuedMessage.getActiveSize))
      (hStrayed : next.strayed = s.strayed) : Handled sends s queuedMessage rest next false
  | partially (hSends : sends = true) (count : Nat) (hLess : count < queuedMessage.getActiveSize)
      (hQueue : next.writeQueue = queuedMessage.readCompleted count :: rest)
      (hWire : next.wire = s.wire ++ queuedMessage.peek count) (hLost : next.lost = s.lost)
      (hStrayed : next.strayed = (s.strayed || s.lost)) :
      Handled sends s queuedMessage rest next false
  | completely (hSends : sends = true) (again : Bool) (hAgain : again = !rest.isEmpty)
      (hQueue : next.writeQueue = rest) (hWire : next.wire = s.wire ++ queuedMessage.activeBytes)
      (hLost : next.lost = s.lost) (hStrayed : next.strayed = (s.strayed || s.lost)) :
      Handled sends s queuedMessage rest next again

theorem handleQueue_cases (net : Nat → WriteOutcome) (s : Socket) {queuedMessage : MessageBuffer}
    {rest : List MessageBuffer} (hQueue : s.writeQueue = queuedMessage :: rest) :
    (s.handleQueue net).2.queued = s.queued ∧
      Handled (s.sendsBytes net) s queuedMessage rest (s.handleQueue net).2
        (s.handleQueue net).1 := by
  simp only [handleQueue, sendsBytes, hQueue]
  cases hNet : net s.calls with
  | would_block =>
    simp only [asyncProcessQueue_again]
    exact ⟨by simp, .blocked rfl (by simp) (by simp) (by simp) (by simp)⟩
  | try_again =>
    simp only [asyncProcessQueue_again]
    exact ⟨by simp, .blocked rfl (by simp) (by simp) (by simp) (by simp)⟩
  | error =>
    exact ⟨by simp [drop], .dropped rfl (by simp [drop]) (by simp [drop]) rfl (by simp [drop])⟩
  | sent bytes =>
    dsimp only
    split
    · rename_i hNone
      rw [hNone]
      exact ⟨by simp [drop], .dropped rfl (by simp [drop]) (by simp [drop]) rfl (by simp [drop])⟩
    · rename_i hSome
      rw [decide_eq_true (Nat.pos_of_ne_zero hSome)]
      split
      · rename_i hLess
        simp only [asyncProcessQueue_again]
        exact ⟨by simp [transmit], .partially rfl _ hLess (by simp) (by simp [transmit])
          (by simp [transmit]) (by simp [transmit])⟩
      · rename_i hAll
        have hCount : min bytes queuedMessage.getActiveSize = queuedMessage.getActiveSize := by omega
        refine ⟨by simp [transmit], .completely rfl _ rfl (by simp) ?_ (by simp [transmit])
          (by simp [transmit])⟩
        rw [hCount]
        simp [transmit, MessageBuffer.activeBytes]

theorem handleQueue_empty (net : Nat → WriteOutcome) {s : Socket} (h : s.writeQueue = []) :
    s.handleQueue net = (false, s) := by
  simp only [handleQueue, h]

end Socket

end AshamaneCore

/-!
## What reaches the wire

While nothing has been thrown away, the wire followed by the queue is all that
was ever queued. A failed or empty write throws the rest of a message away and
leaves the socket open, so that the stream stays intact exactly as long as no
later call sends anything.
-/

namespace AshamaneCore.WireIntegrity

open Socket Library.Transition

/-- The bytes on the wire begin the queued ones, and none followed a loss. -/
def Intact (s : Socket) : Prop := s.wire <+: s.queued ∧ s.strayed = false

instance (s : Socket) : Decidable (Intact s) := inferInstanceAs (Decidable (_ ∧ _))

structure Consistent (s : Socket) : Prop where
  wellFormed : ∀ m ∈ s.writeQueue, m.WellFormed
  wirePrefix : s.wire <+: s.queued
  exact_of_kept : s.lost = false → s.wire ++ s.pending = s.queued
  quiet : s.strayed = false

/-- The event reaches the queue handler with a message in the queue. -/
def reachesQueue (s : Socket) : Event → Bool
  | .update => !s.closed && !s.isWritingAsync && !s.writeQueue.isEmpty
  | .writeHandlerWrapper => !s.writeQueue.isEmpty
  | _ => false

/-- Once unsent bytes have been thrown away, no call sends anything any more. -/
def SilentAfterLoss (net : Nat → WriteOutcome) (s : Socket) (event : Event) : Prop :=
  s.lost = true → reachesQueue s event = true → s.sendsBytes net = false

variable {m : MessageBuffer}

theorem readCompleted_wellFormed (h : m.WellFormed) {count : Nat}
    (hCount : count ≤ m.getActiveSize) : (m.readCompleted count).WellFormed := by
  obtain ⟨hRead, hWrite⟩ := h
  simp only [MessageBuffer.getActiveSize] at hCount
  exact ⟨by simp only [MessageBuffer.readCompleted]; omega, hWrite⟩

theorem activeBytes_split (h : m.WellFormed) {count : Nat}
    (hCount : count ≤ m.getActiveSize) :
    m.peek count ++ (m.readCompleted count).activeBytes = m.activeBytes := by
  have hActive := h.active
  have hLength := hActive.getActiveSize
  rw [hActive.peek (by omega), (hActive.readCompleted (by omega)).activeBytes,
    List.take_append_drop]

theorem activeBytes_eq_nil (h : m.getActiveSize = 0) : m.activeBytes = [] := by
  rw [MessageBuffer.activeBytes, h, MessageBuffer.peek, List.take_zero]

/-! ## One call -/

variable {s : Socket}

theorem handleQueue_kept (net : Nat → WriteOutcome) (h : Consistent s)
    (hLost : s.lost = false) :
    Consistent (s.handleQueue net).2 ∧
      ((s.handleQueue net).1 = true → (s.handleQueue net).2.lost = false) := by
  cases hQueue : s.writeQueue with
  | nil =>
    rw [handleQueue_empty net hQueue]
    exact ⟨h, fun _ => hLost⟩
  | cons m rest =>
    have hWell : m.WellFormed := h.wellFormed m (by rw [hQueue]; exact List.mem_cons_self)
    have hRest : ∀ m ∈ rest, m.WellFormed :=
      fun m hm => h.wellFormed m (by rw [hQueue]; exact List.mem_cons_of_mem _ hm)
    have hExact : s.wire ++ (m.activeBytes ++ rest.flatMap MessageBuffer.activeBytes) = s.queued := by
      rw [← h.exact_of_kept hLost, pending, hQueue, List.flatMap_cons]
    obtain ⟨hQueued, hHandled⟩ := handleQueue_cases net s hQueue
    generalize (s.handleQueue net).2 = next at *
    generalize (s.handleQueue net).1 = again at *
    cases hHandled with
    | blocked _ hNext hWire hL hS =>
      refine ⟨⟨?_, ?_, fun _ => ?_, hS.trans h.quiet⟩, fun hAgain => by cases hAgain⟩
      · rw [hNext, ← hQueue]
        exact h.wellFormed
      · rw [hWire, hQueued]
        exact h.wirePrefix
      · rw [hWire, hQueued, pending, hNext, List.flatMap_cons]
        exact hExact
    | dropped _ hNext hWire hL hS =>
      refine ⟨⟨by rwa [hNext], ?_, fun hKept => ?_, hS.trans h.quiet⟩, fun hAgain => by cases hAgain⟩
      · rw [hWire, hQueued]
        exact h.wirePrefix
      · rw [hL, hLost, Bool.false_or, decide_eq_false_iff_not, Nat.not_lt] at hKept
        rw [activeBytes_eq_nil (Nat.le_zero.mp hKept), List.nil_append] at hExact
        rw [hWire, hQueued, pending, hNext]
        exact hExact
    | partially _ count hLess hNext hWire hL hS =>
      rw [← activeBytes_split hWell hLess.le, List.append_assoc, ← List.append_assoc] at hExact
      refine ⟨⟨?_, ?_, fun _ => ?_, ?_⟩, fun hAgain => by cases hAgain⟩
      · rw [hNext]
        intro m' hm'
        rcases List.mem_cons.mp hm' with rfl | hm'
        · exact readCompleted_wellFormed hWell hLess.le
        · exact hRest m' hm'
      · rw [hWire, hQueued, ← hExact]
        exact List.prefix_append _ _
      · rw [hWire, hQueued, pending, hNext, List.flatMap_cons]
        exact hExact
      · rw [hS, h.quiet, hLost]
        rfl
    | completely _ again hAgain hNext hWire hL hS =>
      rw [← List.append_assoc] at hExact
      refine ⟨⟨by rwa [hNext], ?_, fun _ => ?_, ?_⟩, fun _ => hL.trans hLost⟩
      · rw [hWire, hQueued, ← hExact]
        exact List.prefix_append _ _
      · rw [hWire, hQueued, pending, hNext]
        exact hExact
      · rw [hS, h.quiet, hLost]
        rfl

theorem handleQueue_silent {net : Nat → WriteOutcome} (h : Consistent s)
    (hLost : s.lost = true) (hSilent : s.sendsBytes net = false) :
    Consistent (s.handleQueue net).2 ∧ (s.handleQueue net).1 = false := by
  cases hQueue : s.writeQueue with
  | nil =>
    rw [handleQueue_empty net hQueue]
    exact ⟨h, rfl⟩
  | cons m rest =>
    obtain ⟨hQueued, hHandled⟩ := handleQueue_cases net s hQueue
    generalize (s.handleQueue net).2 = next at *
    generalize (s.handleQueue net).1 = again at *
    cases hHandled with
    | blocked _ hNext hWire hL hS =>
      refine ⟨⟨?_, ?_, fun hKept => ?_, hS.trans h.quiet⟩, rfl⟩
      · rw [hNext, ← hQueue]
        exact h.wellFormed
      · rw [hWire, hQueued]
        exact h.wirePrefix
      · rw [hL, hLost] at hKept
        cases hKept
    | dropped _ hNext hWire hL hS =>
      refine ⟨⟨?_, ?_, fun hKept => ?_, hS.trans h.quiet⟩, rfl⟩
      · rw [hNext]
        exact fun m hm => h.wellFormed m (by rw [hQueue]; exact List.mem_cons_of_mem _ hm)
      · rw [hWire, hQueued]
        exact h.wirePrefix
      · rw [hL, hLost] at hKept
        cases hKept
    | partially hSends => rw [hSilent] at hSends; cases hSends
    | completely hSends => rw [hSilent] at hSends; cases hSends

theorem updateLoop_kept (net : Nat → WriteOutcome) (rounds : Nat) :
    ∀ s : Socket, Consistent s → s.lost = false → Consistent (updateLoop net rounds s) := by
  induction rounds with
  | zero => exact fun s h _ => h
  | succ rounds ih =>
    intro s h hLost
    obtain ⟨hNext, hKept⟩ := handleQueue_kept net h hLost
    rw [updateLoop]
    split
    · rename_i next hCall
      rw [hCall] at hNext hKept
      exact ih next hNext (hKept rfl)
    · rename_i next hCall
      rw [hCall] at hNext
      exact hNext

theorem updateLoop_silent {net : Nat → WriteOutcome} (h : Consistent s)
    (hLost : s.lost = true) (hSilent : s.sendsBytes net = false) (rounds : Nat) :
    Consistent (updateLoop net rounds s) := by
  cases rounds with
  | zero => exact h
  | succ rounds =>
    obtain ⟨hNext, hAnswer⟩ := handleQueue_silent h hLost hSilent
    rw [updateLoop]
    split
    · rename_i next hCall
      rw [hCall] at hAnswer
      cases hAnswer
    · rename_i next hCall
      rw [hCall] at hNext
      exact hNext

theorem Consistent.of_fields {t : Socket} (h : Consistent s) (hQueue : t.writeQueue = s.writeQueue)
    (hWire : t.wire = s.wire) (hQueued : t.queued = s.queued) (hLost : t.lost = s.lost)
    (hStrayed : t.strayed = s.strayed) : Consistent t := by
  refine ⟨hQueue ▸ h.wellFormed, by rw [hWire, hQueued]; exact h.wirePrefix, fun hKept => ?_,
    hStrayed.trans h.quiet⟩
  rw [hWire, hQueued, pending, hQueue]
  exact h.exact_of_kept (hLost.symm.trans hKept)

theorem queuePacket_consistent (h : Consistent s) (packet : Packet) :
    Consistent (s.queuePacket packet.1) := by
  refine ⟨?_, h.wirePrefix.trans (List.prefix_append _ _), fun hKept => ?_, h.quiet⟩
  · intro m hm
    rcases List.mem_append.mp hm with hm | hm
    · exact h.wellFormed m hm
    · rw [List.mem_singleton.mp hm]
      exact packet.2
  · simp only [queuePacket, pending, List.flatMap_append, List.flatMap_cons, List.flatMap_nil,
      List.append_nil]
    rw [← List.append_assoc]
    exact congrArg (· ++ packet.1.activeBytes) (h.exact_of_kept hKept)

theorem step_consistent (net : Nat → WriteOutcome) (s : Socket) (event : Event)
    (h : Consistent s) (hSilent : SilentAfterLoss net s event) : Consistent (step net s event) := by
  cases event with
  | queuePacket packet => exact queuePacket_consistent h packet
  | closeSocket => exact h.of_fields rfl rfl rfl rfl rfl
  | delayedCloseSocket => exact h.of_fields rfl rfl rfl rfl rfl
  | update =>
    rw [step, update]
    split
    · exact h
    · rename_i hOpen
      split
      · exact h
      · rename_i hReady
        cases hLost : s.lost with
        | false => exact updateLoop_kept net _ s h hLost
        | true =>
          cases hQueue : s.writeQueue with
          | nil => exact h
          | cons m rest =>
            have hReach : reachesQueue s .update = true := by
              simp only [Bool.not_eq_true, Bool.or_eq_false_iff] at hOpen hReady
              simp [reachesQueue, hOpen, hReady.1, hQueue]
            exact updateLoop_silent h hLost (hSilent hLost hReach) _
  | writeHandlerWrapper =>
    have hReset : Consistent { s with isWritingAsync := false } := h.of_fields rfl rfl rfl rfl rfl
    rw [step, writeHandlerWrapper]
    rcases Bool.eq_false_or_eq_true s.lost with hLost | hLost
    · by_cases hQueue : s.writeQueue = []
      · rw [handleQueue_empty net (s := { s with isWritingAsync := false }) hQueue]
        exact hReset
      · have hReach : reachesQueue s .writeHandlerWrapper = true := by simp [reachesQueue, hQueue]
        exact (handleQueue_silent hReset hLost (hSilent hLost hReach)).1
    · exact (handleQueue_kept net hReset hLost).1

theorem fresh_consistent : Consistent fresh :=
  ⟨fun _ hm => (List.not_mem_nil hm).elim, List.prefix_rfl, fun _ => rfl, rfl⟩

end AshamaneCore.WireIntegrity
