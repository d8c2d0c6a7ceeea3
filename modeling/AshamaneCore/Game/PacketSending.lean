import AshamaneCore.Game.WorldSocket
import AshamaneCore.Shared.Socket

/-!
# The sending side of the world socket

Packets wait in a queue until an update writes them into buffers, several to a
buffer. The checksum and the compressor are parameters: a call of the compressor
writes no more than the room it was given.
-/

namespace AshamaneCore

open Library.Bytes

def SizeOfServerHeader : Nat := 6

def MinSizeForCompression : Nat := 0x400

def SMSG_COMPRESSED_PACKET : UInt16 := 0x3052

def sizeofCompressedWorldPacket : Nat := 12

def compressBound (sourceLen : Nat) : Nat :=
  sourceLen + (sourceLen >>> 12) + (sourceLen >>> 14) + (sourceLen >>> 25) + 13

/-- For a raw stream of the default window and memory. -/
def deflateBound (sourceLen : Nat) : Nat := compressBound sourceLen - 6

theorem deflateBound_le (size : Nat) : deflateBound (size + 2) ≤ compressBound size := by
  simp only [deflateBound, compressBound, Nat.shiftRight_eq_div_pow]
  omega

inductive FlushMode
  | Z_NO_FLUSH
  | Z_SYNC_FLUSH

structure Zlib where
  Stream : Type
  adler32 : UInt32 → List UInt8 → UInt32
  /-- The stream after a call and the bytes it wrote; none when it fails. -/
  deflate : Stream → FlushMode → Nat → List UInt8 → Stream × Option (List UInt8)
  deflate_room : ∀ {stream flush room input out},
    (deflate stream flush room input).2 = some out → out.length ≤ room

structure EncryptablePacket where
  opcode : UInt16
  contents : List UInt8
  encrypt : Bool
  size_lt : contents.length < 2 ^ 31

namespace EncryptablePacket

def compressed (p : EncryptablePacket) : Bool :=
  MinSizeForCompression < p.contents.length && p.encrypt

def opcodeBytes (p : EncryptablePacket) : List UInt8 := leBytes 2 p.opcode.toNat

/-- The space an update sets aside for the packet behind its header. -/
def reserved (p : EncryptablePacket) : Nat :=
  if p.compressed then compressBound p.contents.length + sizeofCompressedWorldPacket
  else p.contents.length

end EncryptablePacket

def PacketCrypt.encryptSend (c : PacketCrypt) (data : List UInt8) : PacketCrypt × List UInt8 :=
  if !c.initialized then (c, data)
  else
    let (serverEncrypt, cipher) := c.serverEncrypt.updateData data
    ({ c with serverEncrypt }, cipher)

namespace Zlib

variable (z : Zlib)

def adlerSeed : UInt32 := 0x9827D8F1

def compressPacket (stream : z.Stream) (p : EncryptablePacket) : z.Stream × List UInt8 :=
  let bufferSize := deflateBound (p.contents.length + 2)
  let opcode := z.deflate stream .Z_NO_FLUSH bufferSize p.opcodeBytes
  match opcode.2 with
  | none => (opcode.1, [])
  | some first =>
    let contents := z.deflate opcode.1 .Z_SYNC_FLUSH (bufferSize - first.length) p.contents
    (contents.1, (contents.2.map (first ++ ·)).getD [])

/-- The sizes and checksums in front of the compressed bytes. -/
def compressionInfo (p : EncryptablePacket) (out : List UInt8) : List UInt8 :=
  leBytes 4 (p.contents.length + 2) ++
    leBytes 4 (z.adler32 (z.adler32 adlerSeed p.opcodeBytes) p.contents).toNat ++
    leBytes 4 (z.adler32 adlerSeed out).toNat

abbrev Outgoing : Type := PacketCrypt × z.Stream

/-- What a packet becomes: its payload, under the opcode the client will see. -/
def payload (stream : z.Stream) (p : EncryptablePacket) : z.Stream × UInt16 × List UInt8 :=
  if p.compressed then
    let (stream, out) := z.compressPacket stream p
    (stream, SMSG_COMPRESSED_PACKET, z.compressionInfo p out ++ out)
  else (stream, p.opcode, p.contents)

def packetBytes (o : z.Outgoing) (p : EncryptablePacket) : z.Outgoing × List UInt8 :=
  let body := z.payload o.2 p
  let size := o.1.encryptSend (leBytes 4 (body.2.2.length + 2))
  ((size.1, body.1), size.2 ++ leBytes 2 body.2.1.toNat ++ body.2.2)

def allBytes : z.Outgoing → List EncryptablePacket → z.Outgoing × List UInt8
  | o, [] => (o, [])
  | o, p :: packets =>
    let (next, bytes) := z.packetBytes o p
    let (last, rest) := allBytes next packets
    (last, bytes ++ rest)

end Zlib

structure Sender (z : Zlib) where
  socket : Socket
  bufferQueue : List EncryptablePacket
  outgoing : z.Outgoing
  accepted : List EncryptablePacket
  written : List EncryptablePacket

namespace Sender

variable {z : Zlib}

/-- Nothing has been accepted yet; the socket holds only what earlier steps queued. -/
def fresh (socket : Socket) (outgoing : z.Outgoing) : Sender z := ⟨socket, [], outgoing, [], []⟩

def sendPacket (s : Sender z) (packet : EncryptablePacket) : Sender z :=
  if s.socket.closed || s.socket.closing then s
  else
    let p := { packet with encrypt := s.outgoing.1.initialized }
    { s with bufferQueue := s.bufferQueue ++ [p], accepted := s.accepted ++ [p] }

/-- The space reserved for the header is filled before the end, so all is written in one piece. -/
def writePacketToBuffer (s : Sender z) (p : EncryptablePacket) (buffer : MessageBuffer) :
    Option (Sender z × MessageBuffer) :=
  let out := z.packetBytes s.outgoing p
  (buffer.write out.2).map fun next => ({ s with outgoing := out.1, written := s.written ++ [p] }, next)

def queuePacket (s : Sender z) (buffer : MessageBuffer) : Sender z :=
  { s with socket := s.socket.queuePacket buffer }

/-- A packet larger than the empty buffer gets one of its own. -/
def place (s : Sender z) (p : EncryptablePacket) (buffer : MessageBuffer) :
    Option (Sender z × MessageBuffer) :=
  let needed := p.reserved + SizeOfServerHeader
  if needed ≤ buffer.getRemainingSpace then s.writePacketToBuffer p buffer
  else
    (s.writePacketToBuffer p (.ofSize needed)).map fun state => (state.1.queuePacket state.2, buffer)

def dequeue (sendBufferSize : Nat) (state : Sender z × MessageBuffer) (p : EncryptablePacket) :
    Option (Sender z × MessageBuffer) :=
  if state.2.getRemainingSpace < p.reserved + SizeOfServerHeader then
    (state.1.queuePacket state.2).place p (state.2.move.2.resize sendBufferSize)
  else state.1.place p state.2

def update (net : Nat → WriteOutcome) (sendBufferSize : Nat) (s : Sender z) : Option (Sender z) :=
  (s.bufferQueue.foldlM (dequeue sendBufferSize) (s, .ofSize sendBufferSize)).map fun state =>
    let s := if 0 < state.2.getActiveSize then state.1.queuePacket state.2 else state.1
    { s with bufferQueue := [], socket := s.socket.update net }

/-- What else happens to the socket: a write that is done, or closing it. -/
abbrev NetworkEvent : Type := { event : Socket.Event // ∀ packet, event ≠ .queuePacket packet }

inductive Event
  | sendPacket (packet : EncryptablePacket)
  | update
  | network (event : NetworkEvent)

def step (net : Nat → WriteOutcome) (sendBufferSize : Nat) (s : Sender z) : Event → Option (Sender z)
  | .sendPacket packet => some (s.sendPacket packet)
  | .update => s.update net sendBufferSize
  | .network event => some { s with socket := s.socket.step net event.1 }

end Sender

/-! ## The bytes of a packet -/

namespace PacketSending

open Zlib

variable {z : Zlib}

@[simp] theorem encryptSend_length (c : PacketCrypt) (data : List UInt8) :
    (c.encryptSend data).2.length = data.length := by
  rw [PacketCrypt.encryptSend]
  split
  · rfl
  · exact ARC4.updateData_length _ _

theorem allBytes_append (o : z.Outgoing) (first second : List EncryptablePacket) :
    z.allBytes o (first ++ second) =
      ((z.allBytes (z.allBytes o first).1 second).1,
        (z.allBytes o first).2 ++ (z.allBytes (z.allBytes o first).1 second).2) := by
  induction first generalizing o with
  | nil => rfl
  | cons p first ih => simp only [List.cons_append, allBytes, ih, List.append_assoc]

theorem compressPacket_length (stream : z.Stream) (p : EncryptablePacket) :
    (z.compressPacket stream p).2.length ≤ deflateBound (p.contents.length + 2) := by
  simp only [compressPacket]
  split
  · exact Nat.zero_le _
  · rename_i first hFirst
    have hRoom := z.deflate_room hFirst
    cases hSecond : (z.deflate _ .Z_SYNC_FLUSH (_ - first.length) p.contents).2 with
    | none => exact Nat.zero_le _
    | some second =>
      have hRest := z.deflate_room hSecond
      simp only [Option.map_some, Option.getD_some, List.length_append]
      omega

theorem payload_length (stream : z.Stream) (p : EncryptablePacket) :
    (z.payload stream p).2.2.length ≤ p.reserved := by
  rw [payload, EncryptablePacket.reserved]
  split
  · have hOut := (compressPacket_length stream p).trans (deflateBound_le _)
    simp only [compressionInfo, List.length_append, leBytes_length, sizeofCompressedWorldPacket]
    omega
  · exact Nat.le_refl _

theorem packetBytes_length (o : z.Outgoing) (p : EncryptablePacket) :
    (z.packetBytes o p).2.length ≤ p.reserved + SizeOfServerHeader := by
  have hBody := payload_length o.2 p
  simp only [packetBytes, List.length_append, encryptSend_length, leBytes_length, SizeOfServerHeader]
  omega

/-! ## One update -/

open Sender Library.Transition

variable {sendBufferSize : Nat}

/-- All that was queued, and these bytes of the buffer, is what became of the packets, in
order; these packets of the queue wait. -/
structure Faithful (start s : Sender z) (waiting : List EncryptablePacket) (bytes : List UInt8) : Prop where
  outgoing : s.outgoing = (z.allBytes start.outgoing s.written).1
  queued : s.socket.queued ++ bytes = start.socket.queued ++ (z.allBytes start.outgoing s.written).2
  accepted : s.written ++ waiting = s.accepted
  consistent : s.socket.lost = false → WireIntegrity.Consistent s.socket

variable {start s : Sender z} {waiting : List EncryptablePacket} {bytes : List UInt8}
  {buffer : MessageBuffer}

theorem active_wellFormed (h : buffer.Active bytes) : buffer.WellFormed := by
  obtain ⟨before, after, hStorage, hRead, hWrite⟩ := h
  refine ⟨by omega, ?_⟩
  rw [hWrite, hStorage, List.length_append, List.length_append]
  omega

theorem active_ofSize (size : Nat) : (MessageBuffer.ofSize size).Active [] :=
  ⟨[], List.replicate size 0, rfl, rfl, rfl⟩

theorem Faithful.queuePacket (h : Faithful start s waiting bytes) (hBuffer : buffer.Active bytes) :
    Faithful start (s.queuePacket buffer) waiting [] where
  outgoing := h.outgoing
  queued := by
    rw [List.append_nil]
    exact (congrArg (s.socket.queued ++ ·) hBuffer.activeBytes).trans h.queued
  accepted := h.accepted
  consistent := fun hKept =>
    WireIntegrity.queuePacket_consistent (h.consistent hKept) ⟨buffer, active_wellFormed hBuffer⟩

theorem writePacketToBuffer_spec {p : EncryptablePacket} (h : Faithful start s (p :: waiting) bytes)
    (hBuffer : buffer.Active bytes) (hSpace : p.reserved + SizeOfServerHeader ≤ buffer.getRemainingSpace) :
    ∃ next filled rest, s.writePacketToBuffer p buffer = some (next, filled) ∧
      Faithful start next waiting rest ∧ filled.Active rest := by
  obtain ⟨filled, hWrite, hActive, -⟩ := hBuffer.write (z.packetBytes s.outgoing p).2
    ((packetBytes_length _ _).trans hSpace)
  refine ⟨_, filled, _, congrArg (Option.map _) hWrite, ?_, hActive⟩
  constructor
  · rw [allBytes_append, ← h.outgoing]
    rfl
  · rw [allBytes_append, ← h.outgoing, ← List.append_assoc, ← List.append_assoc, h.queued]
    simp only [allBytes, List.append_nil]
  · rw [List.append_assoc]
    exact h.accepted
  · exact h.consistent

theorem place_spec {p : EncryptablePacket} (h : Faithful start s (p :: waiting) bytes)
    (hBuffer : buffer.Active bytes)
    (hEmpty : buffer.getRemainingSpace < p.reserved + SizeOfServerHeader → bytes = []) :
    ∃ next filled rest, s.place p buffer = some (next, filled) ∧
      Faithful start next waiting rest ∧ filled.Active rest := by
  simp only [place]
  split
  · rename_i hFits
    exact writePacketToBuffer_spec h hBuffer hFits
  · rename_i hLarge
    obtain rfl := hEmpty (Nat.lt_of_not_le hLarge)
    have hOwn : p.reserved + SizeOfServerHeader ≤
        (MessageBuffer.ofSize (p.reserved + SizeOfServerHeader)).getRemainingSpace := by
      simp [MessageBuffer.ofSize, MessageBuffer.getRemainingSpace]
    obtain ⟨next, filled, rest, hNext, hFaithful, hFilled⟩ :=
      writePacketToBuffer_spec h (active_ofSize _) hOwn
    rw [hNext]
    exact ⟨_, buffer, [], rfl, hFaithful.queuePacket hFilled, hBuffer⟩

theorem drain_spec (queue : List EncryptablePacket) (h : Faithful start s queue bytes)
    (hBuffer : buffer.Active bytes) :
    ∃ next filled rest, queue.foldlM (dequeue sendBufferSize) (s, buffer) = some (next, filled) ∧
      Faithful start next [] rest ∧ filled.Active rest := by
  induction queue generalizing s buffer bytes with
  | nil => exact ⟨s, buffer, bytes, rfl, h, hBuffer⟩
  | cons p queue ih =>
    have hOne : ∃ next filled rest, dequeue sendBufferSize (s, buffer) p = some (next, filled) ∧
        Faithful start next queue rest ∧ filled.Active rest := by
      simp only [dequeue]
      split
      · exact place_spec (h.queuePacket hBuffer) ⟨[], _, rfl, rfl, rfl⟩ fun _ => rfl
      · rename_i hFits
        exact place_spec h hBuffer fun hLarge => (hFits hLarge).elim
    obtain ⟨next, filled, rest, hNext, hFaithful, hFilled⟩ := hOne
    rw [List.foldlM_cons, hNext]
    exact ih hFaithful hFilled

/-! ## Runs -/

theorem handleQueue_history (net : Nat → WriteOutcome) (s : Socket) :
    (s.handleQueue net).2.queued = s.queued ∧ ((s.handleQueue net).2.lost = false → s.lost = false) := by
  cases hQueue : s.writeQueue with
  | nil =>
    rw [Socket.handleQueue_empty net hQueue]
    exact ⟨rfl, id⟩
  | cons m rest =>
    obtain ⟨hQueued, hHandled⟩ := Socket.handleQueue_cases net s hQueue
    generalize (s.handleQueue net).2 = next at *
    generalize (s.handleQueue net).1 = again at *
    refine ⟨hQueued, fun h => ?_⟩
    cases hHandled with
    | blocked _ _ _ hL | partially _ _ _ _ _ hL | completely _ _ _ _ _ hL => exact hL.symm.trans h
    | dropped _ _ _ hL => exact (Bool.or_eq_false_iff.mp (hL.symm.trans h)).1

theorem updateLoop_history (net : Nat → WriteOutcome) (rounds : Nat) (s : Socket) :
    (Socket.updateLoop net rounds s).queued = s.queued ∧
      ((Socket.updateLoop net rounds s).lost = false → s.lost = false) := by
  induction rounds generalizing s with
  | zero => exact ⟨rfl, id⟩
  | succ rounds ih =>
    obtain ⟨hQueued, hLost⟩ := handleQueue_history net s
    rw [Socket.updateLoop]
    split
    · rename_i next hCall
      rw [hCall] at hQueued hLost
      exact ⟨(ih next).1.trans hQueued, fun h => hLost ((ih next).2 h)⟩
    · rename_i next hCall
      rw [hCall] at hQueued hLost
      exact ⟨hQueued, hLost⟩

/-- The events of a run that reach the socket behind the packets. -/
theorem socketStep_history (net : Nat → WriteOutcome) (s : Socket) {event : Socket.Event}
    (hEvent : ∀ packet, event ≠ .queuePacket packet) :
    (s.step net event).queued = s.queued ∧ ((s.step net event).lost = false → s.lost = false) := by
  cases event with
  | queuePacket packet => exact (hEvent packet rfl).elim
  | update =>
    rw [Socket.step, Socket.update]
    split
    · exact ⟨rfl, id⟩
    · split
      · exact ⟨rfl, id⟩
      · exact updateLoop_history net _ s
  | writeHandlerWrapper => exact handleQueue_history net { s with isWritingAsync := false }
  | closeSocket | delayedCloseSocket => exact ⟨rfl, id⟩

theorem Faithful.socketStep (h : Faithful start s waiting []) (net : Nat → WriteOutcome)
    (event : Socket.Event) (hEvent : ∀ packet, event ≠ .queuePacket packet) :
    Faithful start { s with socket := s.socket.step net event } waiting [] := by
  obtain ⟨hQueued, hLost⟩ := socketStep_history net s.socket hEvent
  refine ⟨h.outgoing, (congrArg (· ++ []) hQueued).trans h.queued, h.accepted, fun hKept => ?_⟩
  have hBefore := hLost hKept
  exact WireIntegrity.step_consistent net s.socket event (h.consistent hBefore) fun hGone =>
    (Bool.false_ne_true (hBefore.symm.trans hGone)).elim

theorem update_spec (h : Faithful start s s.bufferQueue []) (net : Nat → WriteOutcome) :
    ∃ t, s.update net sendBufferSize = some t ∧ Faithful start t t.bufferQueue [] := by
  obtain ⟨next, filled, rest, hDrain, hFaithful, hFilled⟩ :=
    drain_spec s.bufferQueue h (active_ofSize sendBufferSize)
  refine ⟨_, congrArg (Option.map _) hDrain, ?_⟩
  have hAll : Faithful start (if 0 < filled.getActiveSize then next.queuePacket filled else next) [] [] := by
    split
    · exact hFaithful.queuePacket hFilled
    · rename_i hEmpty
      rw [hFilled.getActiveSize, Nat.not_lt, Nat.le_zero, List.length_eq_zero_iff] at hEmpty
      rwa [hEmpty] at hFaithful
  have hSent := hAll.socketStep net .update nofun
  exact ⟨hSent.outgoing, hSent.queued, hSent.accepted, hSent.consistent⟩

theorem step_spec (h : Faithful start s s.bufferQueue []) (net : Nat → WriteOutcome) (event : Event) :
    ∃ t, s.step net sendBufferSize event = some t ∧ Faithful start t t.bufferQueue [] := by
  cases event with
  | sendPacket packet =>
    refine ⟨_, rfl, ?_⟩
    rw [sendPacket]
    split
    · exact h
    · exact ⟨h.outgoing, h.queued, by rw [← List.append_assoc, h.accepted], h.consistent⟩
  | update => exact update_spec h net
  | network event => exact ⟨_, rfl, h.socketStep net event.1 event.2⟩

/-- What was queued before the first packet, such as the greeting, is in order. -/
abbrev StartSocket : Type := { socket : Socket // WireIntegrity.Consistent socket }

variable {socket : StartSocket} {outgoing : z.Outgoing}

theorem run_faithful (net : Nat → WriteOutcome) (events : List Event) :
    ∃ s, events.foldlM (Sender.step net sendBufferSize) (fresh socket.1 outgoing) = some s ∧
      Faithful (fresh socket.1 outgoing) s s.bufferQueue [] :=
  foldlM_kept (fun _ event h => step_spec h net event) (⟨rfl, rfl, rfl, fun _ => socket.2⟩) events

/-- No run writes past a buffer. Each accepted packet waits or was written once, in order,
and while nothing is lost the wire shows a beginning of what was written. -/
theorem run_written (net : Nat → WriteOutcome) (sendBufferSize : Nat) (socket : StartSocket)
    (outgoing : z.Outgoing) (events : List Event) :
    ∃ s, events.foldlM (Sender.step net sendBufferSize) (fresh socket.1 outgoing) = some s ∧
      s.written ++ s.bufferQueue = s.accepted ∧
      s.socket.queued = socket.1.queued ++ (z.allBytes outgoing s.written).2 ∧
      (s.socket.lost = false → s.socket.wire ++ s.socket.pending = s.socket.queued) := by
  obtain ⟨s, hRun, hFaithful⟩ := run_faithful net events
  exact ⟨s, hRun, hFaithful.accepted, (List.append_nil _).symm.trans hFaithful.queued,
    fun hKept => (hFaithful.consistent hKept).exact_of_kept hKept⟩

/-! ## The client -/

theorem updateData_twice (a : ARC4) (data : List UInt8) :
    a.updateData (a.updateData data).2 = ((a.updateData data).1, data) := by
  induction data generalizing a with
  | nil => rfl
  | cons byte data ih =>
    have hByte : ∀ key : UInt8, byte ^^^ key ^^^ key = byte := fun key => by
      rw [UInt8.xor_assoc, UInt8.xor_self, UInt8.xor_zero]
    simp only [ARC4.updateData, ARC4.updateByte, ih, hByte]

theorem encryptSend_twice (c : PacketCrypt) (data : List UInt8) :
    c.encryptSend (c.encryptSend data).2 = ((c.encryptSend data).1, data) := by
  cases hInitialized : c.initialized <;>
    simp only [PacketCrypt.encryptSend, hInitialized, Bool.not_true, Bool.not_false, if_true,
      Bool.false_eq_true, if_false, updateData_twice]

end PacketSending

/-- What the client uses to undo the compression. A piece that was flushed with room to
spare gives back all that went into it. -/
structure Inflater (z : Zlib) where
  State : Type
  inflate : State → List UInt8 → Option (State × List UInt8)
  Synced : z.Stream → State → Prop
  inflate_flushed : ∀ {stream state room head tail first second}, Synced stream state →
    (z.deflate stream .Z_NO_FLUSH room head).2 = some first →
    let last := z.deflate (z.deflate stream .Z_NO_FLUSH room head).1 .Z_SYNC_FLUSH (room - first.length) tail
    last.2 = some second → first.length + second.length < room →
    ∃ next, inflate state (first ++ second) = some (next, head ++ tail) ∧ Synced last.1 next

namespace Inflater

variable {z : Zlib} (client : Inflater z)

def take? (count : Nat) (bytes : List UInt8) : Option (List UInt8 × List UInt8) :=
  if count ≤ bytes.length then some (bytes.take count, bytes.drop count) else none

theorem take?_append {count : Nat} {first second : List UInt8} (h : first.length = count) :
    take? count (first ++ second) = some (first, second) := by
  simp [take?, ← h]

theorem take?_more {count : Nat} {bytes first rest : List UInt8} (h : take? count bytes = some (first, rest))
    (more : List UInt8) : take? count (bytes ++ more) = some (first, rest ++ more) := by
  rw [take?] at h
  split at h
  · rename_i hCount
    cases h
    rw [← take?_append (List.length_take_of_le hCount), ← List.append_assoc, List.take_append_drop]
  · cases h

abbrev Incoming : Type := PacketCrypt × client.State

def unpack (state : client.State) (body : List UInt8) : Option (client.State × UInt16 × List UInt8) := do
  let (size, body) ← take? 4 body
  let (checksum, body) ← take? 4 body
  let (packedChecksum, out) ← take? 4 body
  let (next, plain) ← client.inflate state out
  let (command, contents) ← take? 2 plain
  if leNat size = plain.length ∧
      leNat checksum = (z.adler32 (z.adler32 Zlib.adlerSeed command) contents).toNat ∧
      leNat packedChecksum = (z.adler32 Zlib.adlerSeed out).toNat then
    some (next, UInt16.ofNat (leNat command), contents)
  else none

/-- The cipher is its own inverse, so that the client runs the server's. -/
def receive (c : client.Incoming) (bytes : List UInt8) :
    Option (client.Incoming × (UInt16 × List UInt8) × List UInt8) := do
  let (size, bytes) ← take? 4 bytes
  let header := c.1.encryptSend size
  let (command, bytes) ← take? 2 bytes
  let (body, rest) ← take? (leNat header.2 - 2) bytes
  if UInt16.ofNat (leNat command) = SMSG_COMPRESSED_PACKET then
    let (state, packet) ← client.unpack c.2 body
    some ((header.1, state), packet, rest)
  else some ((header.1, c.2), (UInt16.ofNat (leNat command), body), rest)

def receiveAll : Nat → client.Incoming → List UInt8 → List (UInt16 × List UInt8)
  | 0, _, _ => []
  | count + 1, c, bytes =>
    match client.receive c bytes with
    | none => []
    | some (next, packet, rest) => packet :: receiveAll count next rest

end Inflater

namespace PacketSending

open Zlib Sender Inflater Library.Transition

variable {z : Zlib} (client : Inflater z)

/-- The compressor took the whole packet and left room behind it. -/
def Flushed (o : z.Outgoing) (p : EncryptablePacket) : Prop :=
  p.compressed = true → 0 < (z.compressPacket o.2 p).2.length ∧
    (z.compressPacket o.2 p).2.length < deflateBound (p.contents.length + 2)

def next (o : z.Outgoing) (p : EncryptablePacket) : z.Outgoing := (z.packetBytes o p).1

variable {client} {c : client.Incoming} {o : z.Outgoing} {p : EncryptablePacket}

theorem inflate_compressPacket (hSynced : client.Synced o.2 c.2) (hFlushed : Flushed o p)
    (hCompressed : p.compressed = true) :
    ∃ state, client.inflate c.2 (z.compressPacket o.2 p).2 = some (state, p.opcodeBytes ++ p.contents) ∧
      client.Synced (z.compressPacket o.2 p).1 state := by
  obtain ⟨hSome, hRoom⟩ := hFlushed hCompressed
  simp only [compressPacket] at hSome hRoom ⊢
  split at hSome
  · cases hSome
  · rename_i first hFirst
    simp only [hFirst] at hRoom ⊢
    cases hSecond : (z.deflate _ .Z_SYNC_FLUSH (_ - first.length) p.contents).2 with
    | none =>
      rw [hSecond] at hSome
      cases hSome
    | some second =>
      simp only [hSecond, Option.map_some, Option.getD_some, List.length_append] at hRoom ⊢
      exact client.inflate_flushed hSynced hFirst hSecond hRoom

theorem leNat_leBytes_of_lt {width value : Nat} (h : value < 256 ^ width) :
    leNat (leBytes width value) = value := by
  rw [leNat_leBytes, Nat.mod_eq_of_lt h]

theorem leBytes_opcode (opcode : UInt16) : UInt16.ofNat (leNat (leBytes 2 opcode.toNat)) = opcode := by
  rw [leNat_leBytes_of_lt opcode.toNat_lt, UInt16.ofNat_toNat]

theorem unpack_payload (hSynced : client.Synced o.2 c.2) (hFlushed : Flushed o p)
    (hCompressed : p.compressed = true) :
    ∃ state, client.unpack c.2 (z.payload o.2 p).2.2 = some (state, p.opcode, p.contents) ∧
      client.Synced (z.payload o.2 p).1 state := by
  obtain ⟨state, hInflate, hNext⟩ := inflate_compressPacket hSynced hFlushed hCompressed
  simp only [payload, if_pos hCompressed]
  refine ⟨state, ?_, hNext⟩
  have hSize := p.size_lt
  have hOpcode : p.opcodeBytes.length = 2 := leBytes_length _ _
  have hCommand : UInt16.ofNat (leNat p.opcodeBytes) = p.opcode := leBytes_opcode p.opcode
  have hAdler : ∀ sum : UInt32, leNat (leBytes 4 sum.toNat) = sum.toNat :=
    fun sum => leNat_leBytes_of_lt sum.toNat_lt
  have hLength : leNat (leBytes 4 (p.contents.length + 2)) = (p.opcodeBytes ++ p.contents).length := by
    rw [leNat_leBytes_of_lt (by omega), List.length_append, hOpcode, Nat.add_comm]
  simp only [Inflater.unpack, compressionInfo, List.append_assoc, take?_append (leBytes_length 4 _),
    hInflate, take?_append hOpcode, Option.bind_eq_bind, Option.bind_some, hLength, hAdler, hCommand,
    and_self, if_true]

def plain (p : EncryptablePacket) : UInt16 × List UInt8 := (p.opcode, p.contents)

theorem payload_lt (o : z.Outgoing) (p : EncryptablePacket) :
    (z.payload o.2 p).2.2.length + 2 < 256 ^ 4 := by
  have hBody := payload_length o.2 p
  have hSize := p.size_lt
  rw [EncryptablePacket.reserved] at hBody
  split at hBody
  · simp only [compressBound, Nat.shiftRight_eq_div_pow, sizeofCompressedWorldPacket] at hBody
    omega
  · omega

theorem receive_packetBytes (hCipher : c.1 = o.1) (hSynced : client.Synced o.2 c.2)
    (hFlushed : Flushed o p) (hOpcode : p.opcode ≠ SMSG_COMPRESSED_PACKET) (rest : List UInt8) :
    ∃ state, client.receive c ((z.packetBytes o p).2 ++ rest) =
        some (((next o p).1, state), plain p, rest) ∧ client.Synced (next o p).2 state := by
  have hSize := leNat_leBytes_of_lt (payload_lt o p)
  have hHeader := (encryptSend_length o.1 _).trans (leBytes_length 4 ((z.payload o.2 p).2.2.length + 2))
  simp only [next, packetBytes, Inflater.receive, List.append_assoc, take?_append hHeader, hCipher,
    encryptSend_twice, hSize, take?_append (leBytes_length 2 _), leBytes_opcode, Nat.add_sub_cancel,
    take?_append rfl, Option.bind_eq_bind, Option.bind_some]
  by_cases hCompressed : p.compressed = true
  · obtain ⟨state, hUnpack, hNext⟩ := unpack_payload hSynced hFlushed hCompressed
    refine ⟨state, ?_, hNext⟩
    rw [if_pos (by simp only [payload, if_pos hCompressed]), hUnpack]
    rfl
  · simp only [payload, if_neg hCompressed, if_neg hOpcode]
    exact ⟨c.2, rfl, hSynced⟩

theorem receive_more {c' : client.Incoming} {bytes rest : List UInt8} {packet : UInt16 × List UInt8}
    (h : client.receive c bytes = some (c', packet, rest)) (more : List UInt8) :
    client.receive c (bytes ++ more) = some (c', packet, rest ++ more) := by
  simp only [Inflater.receive, Option.bind_eq_bind, Option.bind_eq_some_iff] at h ⊢
  obtain ⟨⟨size, first⟩, hSize, ⟨command, second⟩, hCommand, ⟨body, last⟩, hBody, hPacket⟩ := h
  refine ⟨_, take?_more hSize more, _, take?_more hCommand more, _, take?_more hBody more, ?_⟩
  split at hPacket
  · rename_i hCompressed
    obtain ⟨unpacked, hUnpack, hPacket⟩ := Option.bind_eq_some_iff.mp hPacket
    cases hPacket
    rw [if_pos hCompressed, hUnpack]
    rfl
  · rename_i hPlain
    cases hPacket
    rw [if_neg hPlain]

theorem receiveAll_more (count : Nat) (c : client.Incoming) (bytes more : List UInt8) :
    client.receiveAll count c bytes <+: client.receiveAll count c (bytes ++ more) := by
  induction count generalizing c bytes with
  | zero => exact List.prefix_rfl
  | succ count ih =>
    rw [Inflater.receiveAll]
    split
    · exact List.nil_prefix
    · rename_i next packet rest hReceive
      rw [Inflater.receiveAll, receive_more hReceive more]
      exact List.cons_prefix_cons.mpr ⟨rfl, ih next rest⟩

theorem receiveAll_allBytes {packets : List EncryptablePacket} (hCipher : c.1 = o.1)
    (hSynced : client.Synced o.2 c.2) (hFlushed : Along next Flushed o packets)
    (hOpcode : ∀ p ∈ packets, p.opcode ≠ SMSG_COMPRESSED_PACKET) (count : Nat) :
    client.receiveAll count c (z.allBytes o packets).2 = (packets.take count).map plain := by
  induction packets generalizing count c o with
  | nil => cases count <;> rfl
  | cons p packets ih =>
    cases count with
    | zero => rfl
    | succ count =>
      obtain ⟨state, hReceive, hNext⟩ := receive_packetBytes hCipher hSynced hFlushed.1
        (hOpcode p List.mem_cons_self) (z.allBytes (next o p) packets).2
      have hBytes : (z.allBytes o (p :: packets)).2 =
          (z.packetBytes o p).2 ++ (z.allBytes (next o p) packets).2 := rfl
      rw [hBytes, Inflater.receiveAll, hReceive, List.take_succ_cons, List.map_cons]
      exact congrArg (plain p :: ·)
        (ih rfl hNext hFlushed.2 (fun p hp => hOpcode p (List.mem_cons_of_mem _ hp)) count)

/-- Whatever the order of the events and the outcomes of the writes, the client reads the
packets that were written, in order and none other, and all of them once nothing is pending. -/
theorem client_receives (client : Inflater z) (net : Nat → WriteOutcome) (sendBufferSize : Nat)
    (socket : StartSocket) {outgoing : z.Outgoing} {state : client.State}
    (hSynced : client.Synced outgoing.2 state) {events : List Event} {s : Sender z}
    (hRun : events.foldlM (Sender.step net sendBufferSize) (fresh socket.1 outgoing) = some s)
    (hFlushed : Along next Flushed outgoing s.written)
    (hOpcode : ∀ p ∈ s.written, p.opcode ≠ SMSG_COMPRESSED_PACKET) (hKept : s.socket.lost = false)
    (count : Nat) :
    let stream := s.socket.wire.drop socket.1.queued.length
    client.receiveAll count (outgoing.1, state) stream <+: s.written.map plain ∧
      (s.socket.pending = [] → s.written.length ≤ count →
        client.receiveAll count (outgoing.1, state) stream = s.written.map plain) := by
  obtain ⟨t, hSame, hFaithful⟩ := run_faithful net events
  obtain rfl := Option.some.inj (hRun.symm.trans hSame)
  have hQueued := (List.append_nil _).symm.trans hFaithful.queued
  have hExact := (hFaithful.consistent hKept).exact_of_kept hKept
  rw [hQueued] at hExact
  obtain ⟨missing, hStream⟩ := List.IsPrefix.drop ⟨_, hExact⟩ socket.1.queued.length
  rw [fresh, List.drop_left] at hStream
  have hWhole := receiveAll_allBytes (c := (outgoing.1, state)) rfl hSynced hFlushed hOpcode count
  refine ⟨?_, fun hIdle hCount => ?_⟩
  · apply (receiveAll_more count (outgoing.1, state) _ missing).trans
    rw [hStream, hWhole]
    exact (List.take_prefix count s.written).map plain
  · rw [hIdle, List.append_nil] at hExact
    rw [hExact, fresh, List.drop_left, hWhole, List.take_of_length_le hCount]

/-- Small packets never reach the compressor. -/
def unusedZlib : Zlib := ⟨Unit, fun sum _ => sum, fun stream _ _ _ => (stream, none), nofun⟩

def unusedInflater : Inflater unusedZlib := ⟨Unit, fun _ _ => none, fun _ _ => True, nofun⟩

/-- The first packets of a connection are sent before its cipher starts. -/
def noCipher : PacketCrypt := ⟨⟨Vector.replicate 256 0, 0, 0⟩, ⟨Vector.replicate 256 0, 0, 0⟩, false⟩

def firstSender : Sender unusedZlib := fresh .fresh (noCipher, ())

def twoPackets : List Event :=
  [.sendPacket ⟨0x304E, [1, 2, 3], true, by decide⟩, .sendPacket ⟨0x2598, [], true, by decide⟩, .update]

theorem client_receives_two : ∃ s,
    twoPackets.foldlM (Sender.step (fun _ => .sent 64) 16) firstSender = some s ∧
      unusedInflater.receiveAll 2 (noCipher, ()) s.socket.wire = [(0x304E, [1, 2, 3]), (0x2598, [])] := by
  refine ⟨_, rfl, ?_⟩
  have hRun : twoPackets.foldlM (Sender.step (fun _ => .sent 64) 16) firstSender = some _ := rfl
  exact (client_receives unusedInflater (fun _ => .sent 64) 16 ⟨_, WireIntegrity.fresh_consistent⟩
    trivial hRun ⟨nofun, nofun, trivial⟩ (by decide) rfl 2).2 rfl (by decide)

end PacketSending

end AshamaneCore
