import AshamaneCore.Library.Transition
import Mathlib.Data.List.Perm.Basic

/-!
# The packet queue of a session

Packets arrive at any time. An update takes them from the front as long as its filter lets
the front one through, and puts back to the front at its end those that came for a player who
was not there. Whether a packet is deleted is a flag the loop carries from packet to packet.
-/

namespace AshamaneCore.Sessions

open Library Library.Transition

namespace LockedQueue

variable {α : Type}

def add (queue : List α) (item : α) : List α := queue ++ [item]

def readd (queue items : List α) : List α := items ++ queue

def next (queue : List α) (check : α → Bool) : Option (α × List α) :=
  match queue with
  | [] => none
  | item :: rest => if check item then some (item, rest) else none

end LockedQueue

inductive SessionStatus where
  | authed
  | loggedIn
  | transfer
  | loggedInOrRecentlyLogout
  | never
  | unhandled
deriving DecidableEq

inductive PacketProcessing where
  | inPlace
  | threadUnsafe
  | threadSafe
deriving DecidableEq

structure ClientOpcodeHandler where
  status : SessionStatus
  processingPlace : PacketProcessing

/-- A packet is told from others by its place in the order of reception. -/
structure WorldPacket where
  serial : Nat
  opcode : Nat
deriving DecidableEq

inductive PlayerState where
  | null
  | notInWorld
  | inWorld
deriving DecidableEq

/-- What one round of the loop finds: the realm socket, the player, the marks of a logout
and of the login queue, the verdict on floods, and whether the handler throws one of the
exceptions that the loop catches. -/
structure Session where
  socket : Bool
  player : PlayerState
  playerRecentlyLogout : Bool
  playerLogout : Bool
  inQueue : Bool
  evaluateOpcode : Bool
  throws : Bool

inductive PacketFilter where
  | mapSession
  | worldSession

/-- Handled packets were passed to their handler, refused ones were logged as unexpected,
unknown or not allowed, and the rest was dropped without a word or while parsed. -/
inductive Fate where
  | handled
  | refused
  | discarded
deriving DecidableEq

structure Loop where
  updater : PacketFilter
  requeuePackets : List WorldPacket
  deletePacket : Bool
  processedPackets : Nat

/-- The queue and the update that is under way, with the packets that have been received,
consumed and freed so far. -/
structure State where
  received : List WorldPacket
  recvQueue : List WorldPacket
  loop : Option Loop
  consumed : List (WorldPacket × Fate)
  freed : List WorldPacket

def maxProcessedPackets : Nat := 100

section

variable (opcodeTable : Nat → Option ClientOpcodeHandler)

def mapSessionProcess (session : Session) (packet : WorldPacket) : Bool :=
  match opcodeTable packet.opcode with
  | none => false
  | some opHandle =>
    match opHandle.processingPlace with
    | .inPlace => true
    | .threadUnsafe => false
    | .threadSafe => session.player = .inWorld

def worldSessionProcess (session : Session) (packet : WorldPacket) : Bool :=
  match opcodeTable packet.opcode with
  | none => true
  | some opHandle =>
    match opHandle.processingPlace with
    | .inPlace => true
    | .threadUnsafe => true
    | .threadSafe => session.player ≠ .inWorld

def process (updater : PacketFilter) (session : Session) (packet : WorldPacket) : Bool :=
  match updater with
  | .mapSession => mapSessionProcess opcodeTable session packet
  | .worldSession => worldSessionProcess opcodeTable session packet

end

/-- The handler is called if the flood check lets the packet pass. -/
def call (session : Session) : Fate :=
  if session.evaluateOpcode then if session.throws then .discarded else .handled else .discarded

/-- The switch over the status of a handler: the fate of the packet, or none if it is put back. -/
def dispatch (session : Session) (status : SessionStatus) : Option Fate :=
  match status with
  | .loggedIn =>
    match session.player with
    | .null => if session.playerRecentlyLogout then some .discarded else none
    | .notInWorld => some .discarded
    | .inWorld => some (call session)
  | .loggedInOrRecentlyLogout =>
    if session.player = .null ∧ session.playerRecentlyLogout = false ∧ session.playerLogout = false then some .refused
    else some (call session)
  | .transfer =>
    match session.player with
    | .null => some .refused
    | .inWorld => some .refused
    | .notInWorld => some (call session)
  | .authed => if session.inQueue then some .refused else some (call session)
  | .never => some .refused
  | .unhandled => some .refused

namespace State

/-- The packet leaves the loop; it is deleted if the flag says so. -/
def delete (s : State) (deletePacket : Bool) (packet : WorldPacket) : State :=
  if deletePacket then { s with freed := s.freed ++ [packet] } else s

def consume (s : State) (packet : WorldPacket) (fate : Fate) : State :=
  { s with consumed := s.consumed ++ [(packet, fate)] }

def leave (s : State) (loop : Loop) : State :=
  { s with recvQueue := LockedQueue.readd s.recvQueue loop.requeuePackets, loop := none }

/-- The end of a round: the flag is raised again, and the packets of an update are counted. -/
def nextRound (s : State) (loop : Loop) (requeuePackets : List WorldPacket) : State :=
  if maxProcessedPackets < loop.processedPackets + 1 then
    s.leave ⟨loop.updater, requeuePackets, true, loop.processedPackets + 1⟩
  else { s with loop := some ⟨loop.updater, requeuePackets, true, loop.processedPackets + 1⟩ }

def round (opcodeTable : Nat → Option ClientOpcodeHandler) (s : State) (loop : Loop) (session : Session)
    (packet : WorldPacket) : State :=
  match opcodeTable packet.opcode with
  | none =>
    { (s.consume packet .refused).delete loop.deletePacket packet with loop := some { loop with deletePacket := true } }
  | some opHandle =>
    match dispatch session opHandle.status with
    | none => (s.delete false packet).nextRound loop (loop.requeuePackets ++ [packet])
    | some fate => ((s.consume packet fate).delete loop.deletePacket packet).nextRound loop loop.requeuePackets

end State

inductive Event where
  | queuePacket (opcode : Nat)
  | update (updater : PacketFilter)
  | round (session : Session)

/-- A packet arrives, an update begins, or the loop of the update under way goes on. -/
def step (opcodeTable : Nat → Option ClientOpcodeHandler) (s : State) (event : Event) : State :=
  match event with
  | .queuePacket opcode =>
    { s with
      received := s.received ++ [⟨s.received.length, opcode⟩]
      recvQueue := LockedQueue.add s.recvQueue ⟨s.received.length, opcode⟩ }
  | .update updater =>
    match s.loop with
    | some _ => s
    | none => { s with loop := some ⟨updater, [], true, 0⟩ }
  | .round session =>
    match s.loop with
    | none => s
    | some loop =>
      if session.socket then
        match LockedQueue.next s.recvQueue (process opcodeTable loop.updater session) with
        | none => s.leave loop
        | some (packet, rest) => { s with recvQueue := rest }.round opcodeTable loop session packet
      else s.leave loop

def start : State := ⟨[], [], none, [], []⟩

/-!
## What becomes of received packets

At every moment the packets that are put aside, followed by those in the queue, stand in the
order of their reception; with the consumed ones they are all that was received. A packet is
consumed before an older one only if that one was put aside because no player was there.
-/

namespace State

def setAside (s : State) : List WorldPacket := (s.loop.map Loop.requeuePackets).getD []

/-- The packets that will be consumed later, in the order in which they will stand. -/
def pending (s : State) : List WorldPacket := s.setAside ++ s.recvQueue

def consumedPackets (s : State) : List WorldPacket := s.consumed.map Prod.fst

end State

/-- Every received packet is pending or was consumed, once; it was freed if and when it was
consumed; and what is pending keeps the order of reception. -/
structure Accounted (s : State) : Prop where
  serials : s.received.map WorldPacket.serial = List.range s.received.length
  once : (s.consumedPackets ++ s.pending).Perm s.received
  freed : s.freed = s.consumedPackets
  order : s.pending.Pairwise fun p q => p.serial < q.serial

def FlagRaised (s : State) : Prop := ∀ loop ∈ s.loop, loop.deletePacket = true

/-- A step consumes at most one packet, and none before an older one that was not put aside;
and it puts a packet aside only for want of a player. -/
structure InOrder (opcodeTable : Nat → Option ClientOpcodeHandler) (s : State) (event : Event) : Prop where
  consumption : (step opcodeTable s event).consumed = s.consumed ∨
    ∃ packet fate, (step opcodeTable s event).consumed = s.consumed ++ [(packet, fate)] ∧
      ∀ older ∈ s.received, older.serial < packet.serial → older ∈ s.consumedPackets ∨ older ∈ s.setAside
  putBack : ∀ packet ∈ (step opcodeTable s event).setAside, packet ∈ s.setAside ∨
    ∃ session opHandle, event = .round session ∧ opcodeTable packet.opcode = some opHandle ∧
      opHandle.status = .loggedIn ∧ session.player = .null

/-! ## What a step does -/

inductive Change (opcodeTable : Nat → Option ClientOpcodeHandler) (s s' : State) : Event → Prop where
  | arrives (opcode : Nat) (hReceived : s'.received = s.received ++ [⟨s.received.length, opcode⟩])
      (hConsumed : s'.consumed = s.consumed) (hFreed : s'.freed = s.freed)
      (hPending : s'.pending = s.pending ++ [⟨s.received.length, opcode⟩])
      (hAside : s'.setAside ⊆ s.setAside) : Change opcodeTable s s' (.queuePacket opcode)
  | rests (event : Event) (hReceived : s'.received = s.received) (hConsumed : s'.consumed = s.consumed)
      (hFreed : s'.freed = s.freed) (hPending : s'.pending = s.pending) (hAside : s'.setAside ⊆ s.setAside) :
      Change opcodeTable s s' event
  | consumes (session : Session) (packet : WorldPacket) (rest : List WorldPacket) (fate : Fate)
      (hQueue : s.recvQueue = packet :: rest) (hReceived : s'.received = s.received)
      (hConsumed : s'.consumed = s.consumed ++ [(packet, fate)]) (hFreed : s'.freed = s.freed ++ [packet])
      (hPending : s'.pending = s.setAside ++ rest) (hAside : s'.setAside ⊆ s.setAside) :
      Change opcodeTable s s' (.round session)
  | putsBack (session : Session) (packet : WorldPacket) (opHandle : ClientOpcodeHandler)
      (hHandle : opcodeTable packet.opcode = some opHandle) (hStatus : opHandle.status = .loggedIn)
      (hPlayer : session.player = .null) (hReceived : s'.received = s.received)
      (hConsumed : s'.consumed = s.consumed) (hFreed : s'.freed = s.freed) (hPending : s'.pending = s.pending)
      (hAside : s'.setAside ⊆ s.setAside ++ [packet]) : Change opcodeTable s s' (.round session)

namespace State

theorem leave_frame (s : State) (loop : Loop) : (s.leave loop).received = s.received ∧
    (s.leave loop).consumed = s.consumed ∧ (s.leave loop).freed = s.freed ∧
    (s.leave loop).pending = loop.requeuePackets ++ s.recvQueue ∧ (s.leave loop).setAside = [] ∧
    FlagRaised (s.leave loop) :=
  ⟨rfl, rfl, rfl, rfl, rfl, fun other hOther => absurd hOther (Option.not_mem_none other)⟩

theorem nextRound_frame (s : State) (loop : Loop) (requeuePackets : List WorldPacket) :
    (s.nextRound loop requeuePackets).received = s.received ∧
    (s.nextRound loop requeuePackets).consumed = s.consumed ∧
    (s.nextRound loop requeuePackets).freed = s.freed ∧
    (s.nextRound loop requeuePackets).pending = requeuePackets ++ s.recvQueue ∧
    (s.nextRound loop requeuePackets).setAside ⊆ requeuePackets ∧
    FlagRaised (s.nextRound loop requeuePackets) := by
  rw [nextRound]
  split
  · obtain ⟨hReceived, hConsumed, hFreed, hPending, hAside, hFlag⟩ :=
      s.leave_frame ⟨loop.updater, requeuePackets, true, loop.processedPackets + 1⟩
    exact ⟨hReceived, hConsumed, hFreed, hPending, hAside ▸ List.nil_subset _, hFlag⟩
  · refine ⟨rfl, rfl, rfl, rfl, List.Subset.refl _, ?_⟩
    intro next hNext
    obtain rfl := Option.some.inj hNext
    rfl

theorem setAside_of_loop {s : State} {loop : Loop} (h : s.loop = some loop) :
    s.setAside = loop.requeuePackets := by
  rw [setAside, h]
  rfl

end State

theorem next_eq_some {α : Type} {queue rest : List α} {check : α → Bool} {item : α}
    (h : LockedQueue.next queue check = some (item, rest)) : queue = item :: rest := by
  rw [LockedQueue.next.eq_def] at h
  split at h
  · cases h
  · split at h
    · cases h
      rfl
    · cases h

theorem dispatch_eq_none {session : Session} {status : SessionStatus} (h : dispatch session status = none) :
    status = .loggedIn ∧ session.player = .null := by
  cases status with
  | loggedIn =>
    cases hPlayer : session.player with
    | null => exact ⟨rfl, rfl⟩
    | notInWorld =>
      rw [dispatch, hPlayer] at h
      cases h
    | inWorld =>
      rw [dispatch, hPlayer] at h
      cases h
  | loggedInOrRecentlyLogout =>
    rw [dispatch] at h
    split at h <;> cases h
  | transfer =>
    rw [dispatch] at h
    split at h <;> cases h
  | authed =>
    rw [dispatch] at h
    split at h <;> cases h
  | never => cases h
  | unhandled => cases h

section

variable {opcodeTable : Nat → Option ClientOpcodeHandler} {s : State}

theorem change_of_leave {loop : Loop} (hLoop : s.loop = some loop) (event : Event) :
    Change opcodeTable s (s.leave loop) event ∧ FlagRaised (s.leave loop) := by
  obtain ⟨hReceived, hConsumed, hFreed, hPending, hAside, hFlag⟩ := s.leave_frame loop
  refine ⟨.rests event hReceived hConsumed hFreed ?_ (hAside ▸ List.nil_subset _), hFlag⟩
  rw [hPending, State.pending, State.setAside_of_loop hLoop]

theorem change_of_round (hFlag : FlagRaised s) {loop : Loop} (hLoop : s.loop = some loop) (session : Session)
    {packet : WorldPacket} {rest : List WorldPacket} (hQueue : s.recvQueue = packet :: rest) :
    Change opcodeTable s ({ s with recvQueue := rest }.round opcodeTable loop session packet) (.round session) ∧
      FlagRaised ({ s with recvQueue := rest }.round opcodeTable loop session packet) := by
  have hDelete : loop.deletePacket = true := hFlag loop hLoop
  have hAsideLoop := State.setAside_of_loop hLoop
  rw [State.round]
  split
  · rw [State.delete, hDelete, if_pos rfl]
    refine ⟨.consumes session packet rest .refused hQueue rfl rfl rfl ?_ ?_, ?_⟩
    · rw [hAsideLoop]
      rfl
    · rw [hAsideLoop]
      exact List.Subset.refl _
    · intro next hNext
      obtain rfl := Option.some.inj hNext
      rfl
  · rename_i opHandle hHandle
    split
    · rename_i hNone
      obtain ⟨hStatus, hPlayer⟩ := dispatch_eq_none hNone
      rw [State.delete, if_neg Bool.false_ne_true]
      obtain ⟨hReceived, hConsumed, hFreed, hPending, hAside, hRaised⟩ :=
        State.nextRound_frame { s with recvQueue := rest } loop (loop.requeuePackets ++ [packet])
      refine ⟨.putsBack session packet opHandle hHandle hStatus hPlayer hReceived hConsumed hFreed ?_ ?_, hRaised⟩
      · rw [hPending, State.pending, hAsideLoop, hQueue, List.append_assoc]
        rfl
      · rw [hAsideLoop]
        exact hAside
    · rename_i fate hFate
      rw [State.delete, hDelete, if_pos rfl]
      obtain ⟨hReceived, hConsumed, hFreed, hPending, hAside, hRaised⟩ :=
        State.nextRound_frame
          { ({ s with recvQueue := rest } : State).consume packet fate with freed := s.freed ++ [packet] }
          loop loop.requeuePackets
      refine ⟨.consumes session packet rest fate hQueue hReceived hConsumed hFreed ?_ ?_, hRaised⟩
      · rw [hAsideLoop]
        exact hPending
      · rw [hAsideLoop]
        exact hAside

theorem change_of_step (hFlag : FlagRaised s) (event : Event) :
    Change opcodeTable s (step opcodeTable s event) event ∧ FlagRaised (step opcodeTable s event) := by
  have hSame : Change opcodeTable s s event ∧ FlagRaised s :=
    ⟨.rests event rfl rfl rfl rfl (List.Subset.refl _), hFlag⟩
  cases event with
  | queuePacket opcode =>
    refine ⟨.arrives opcode rfl rfl rfl ?_ (List.Subset.refl _), hFlag⟩
    exact (List.append_assoc _ _ _).symm
  | update updater =>
    cases hLoop : s.loop with
    | some loop =>
      simp only [step, hLoop]
      exact hSame
    | none =>
      simp only [step, hLoop]
      refine ⟨.rests _ rfl rfl rfl ?_ (List.nil_subset _), ?_⟩
      · rw [State.pending, State.pending, State.setAside, State.setAside, hLoop]
        rfl
      · intro loop hNew
        obtain rfl := Option.some.inj hNew
        rfl
  | round session =>
    cases hLoop : s.loop with
    | none =>
      simp only [step, hLoop]
      exact hSame
    | some loop =>
      simp only [step, hLoop]
      split
      · split
        · exact change_of_leave hLoop _
        · rename_i packet rest hNext
          have hRound := @change_of_round opcodeTable s hFlag loop hLoop session packet rest (next_eq_some hNext)
          simpa only [hLoop] using hRound
      · exact change_of_leave hLoop _

/-! ## Accounts -/

theorem Accounted.serial_lt (h : Accounted s) {packet : WorldPacket} (hPacket : packet ∈ s.received) :
    packet.serial < s.received.length := by
  have hSerial := List.mem_map_of_mem (f := WorldPacket.serial) hPacket
  rw [h.serials] at hSerial
  exact List.mem_range.mp hSerial

theorem Accounted.change (h : Accounted s) {s' : State} {event : Event} (hChange : Change opcodeTable s s' event) :
    Accounted s' := by
  cases hChange with
  | arrives opcode hReceived hConsumed hFreed hPending hAside =>
    have hPackets : s'.consumedPackets = s.consumedPackets := congrArg (List.map Prod.fst) hConsumed
    constructor
    · rw [hReceived, List.map_append, h.serials, List.length_append, List.length_singleton, List.range_succ]
      rfl
    · rw [hPackets, hPending, hReceived, ← List.append_assoc]
      exact h.once.append_right _
    · rw [hFreed, hPackets]
      exact h.freed
    · rw [hPending]
      refine List.pairwise_append.mpr ⟨h.order, List.pairwise_singleton _ _, ?_⟩
      intro packet hPacket new hNew
      rw [List.mem_singleton.mp hNew]
      exact h.serial_lt (h.once.mem_iff.mp (List.mem_append_right _ hPacket))
  | rests _ hReceived hConsumed hFreed hPending hAside =>
    have hPackets : s'.consumedPackets = s.consumedPackets := congrArg (List.map Prod.fst) hConsumed
    exact ⟨by rw [hReceived, h.serials], by rw [hPackets, hPending, hReceived]; exact h.once,
      by rw [hFreed, hPackets, h.freed], by rw [hPending]; exact h.order⟩
  | consumes session packet rest fate hQueue hReceived hConsumed hFreed hPending hAside =>
    have hPackets : s'.consumedPackets = s.consumedPackets ++ [packet] := by
      rw [State.consumedPackets, hConsumed, List.map_append]
      rfl
    have hBefore : s.pending = s.setAside ++ packet :: rest := by rw [State.pending, hQueue]
    constructor
    · rw [hReceived, h.serials]
    · rw [hReceived, hPackets, hPending, List.append_assoc, List.singleton_append]
      refine List.Perm.trans ?_ h.once
      rw [hBefore]
      exact List.perm_middle.symm.append_left _
    · rw [hFreed, hPackets, h.freed]
    · rw [hPending]
      refine h.order.sublist ?_
      rw [hBefore]
      exact (List.sublist_cons_self packet rest).append_left _
  | putsBack session packet opHandle hHandle hStatus hPlayer hReceived hConsumed hFreed hPending hAside =>
    have hPackets : s'.consumedPackets = s.consumedPackets := congrArg (List.map Prod.fst) hConsumed
    exact ⟨by rw [hReceived, h.serials], by rw [hPackets, hPending, hReceived]; exact h.once,
      by rw [hFreed, hPackets, h.freed], by rw [hPending]; exact h.order⟩

theorem inOrder_of_accounted (h : Accounted s) (hFlag : FlagRaised s) (event : Event) :
    InOrder opcodeTable s event := by
  obtain ⟨hChange, -⟩ := @change_of_step opcodeTable s hFlag event
  cases hChange with
  | arrives opcode hReceived hConsumed hFreed hPending hAside =>
    exact ⟨Or.inl hConsumed, fun packet hPacket => Or.inl (hAside hPacket)⟩
  | rests _ hReceived hConsumed hFreed hPending hAside =>
    exact ⟨Or.inl hConsumed, fun packet hPacket => Or.inl (hAside hPacket)⟩
  | consumes session packet rest fate hQueue hReceived hConsumed hFreed hPending hAside =>
    refine ⟨Or.inr ⟨packet, fate, hConsumed, ?_⟩, fun other hOther => Or.inl (hAside hOther)⟩
    intro older hOlder hLess
    rcases List.mem_append.mp (h.once.mem_iff.mpr hOlder) with hDone | hPending
    · exact Or.inl hDone
    · rw [State.pending, hQueue] at hPending
      rcases List.mem_append.mp hPending with hSet | hLater
      · exact Or.inr hSet
      · have hSorted := h.order
        rw [State.pending, hQueue] at hSorted
        have hTail := (List.pairwise_append.mp hSorted).2.1
        rcases List.mem_cons.mp hLater with rfl | hRest
        · omega
        · have hGreater := List.rel_of_pairwise_cons hTail hRest
          omega
  | putsBack session packet opHandle hHandle hStatus hPlayer hReceived hConsumed hFreed hPending hAside =>
    refine ⟨Or.inl hConsumed, fun other hOther => ?_⟩
    rcases List.mem_append.mp (hAside hOther) with hOld | hNew
    · exact Or.inl hOld
    · rw [List.mem_singleton.mp hNew]
      exact Or.inr ⟨session, opHandle, rfl, hHandle, hStatus, hPlayer⟩

end

theorem accounted_start : Accounted start ∧ FlagRaised start := by
  refine ⟨⟨rfl, List.Perm.refl _, rfl, List.Pairwise.nil⟩, ?_⟩
  exact fun loop hLoop => absurd hLoop (Option.not_mem_none loop)

/-- Whatever arrives and however updates go on, every received packet is pending or was
consumed and freed once, and packets are consumed in the order of their reception but for
those that are put aside for want of a player. -/
theorem packets_accounted (opcodeTable : Nat → Option ClientOpcodeHandler) (events : List Event) :
    (∀ first, first <+: events → Accounted (run (step opcodeTable) start first)) ∧
      Along (step opcodeTable) (InOrder opcodeTable) start events := by
  have hStep : ∀ s event, Accounted s ∧ FlagRaised s →
      Accounted (step opcodeTable s event) ∧ FlagRaised (step opcodeTable s event) := by
    intro s event hs
    obtain ⟨hChange, hFlag⟩ := @change_of_step opcodeTable s hs.2 event
    exact ⟨hs.1.change hChange, hFlag⟩
  constructor
  · intro first _
    exact (invariant hStep accounted_start first).1
  · refine Along.judge (I := fun s => Accounted s ∧ FlagRaised s) (C := fun _ _ => True) ?_ accounted_start
      (along_all (fun _ _ => trivial) start events)
    exact fun s event hs _ => ⟨inOrder_of_accounted hs.1 hs.2 event, hStep s event hs⟩

end AshamaneCore.Sessions
