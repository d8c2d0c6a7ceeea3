import AshamaneCore.Game.WorldSocket

/-!
# Framing of the received stream

The frames of a stream are read off the stream alone. The socket makes the same
frames however the stream is cut: after any chunks its buffers hold exactly the
bytes of the frame that is still incomplete.
-/

namespace AshamaneCore.PacketFraming

open Library.Bytes WorldSocket

variable {σ : Type}

def sizeField (c : PacketCrypt) (stream : List UInt8) : Nat :=
  leNat (c.decryptRecv (stream.take 4)).2

def opcodeField (stream : List UInt8) : Nat := leNat ((stream.drop 4).take 2)

/-- The wrapped sizes 0 and 1, the sizes from 0x10002 on and the unknown opcodes. -/
def Malformed (c : PacketCrypt) (stream : List UInt8) : Prop :=
  sizeField c stream < 2 ∨ 0x10000 ≤ sizeField c stream - 2 ∨ NUM_OPCODE_HANDLERS ≤ opcodeField stream

instance (c : PacketCrypt) (stream : List UInt8) : Decidable (Malformed c stream) :=
  inferInstanceAs (Decidable (_ ∨ _ ∨ _))

variable {handler : PacketHandler σ} {c c' : PacketCrypt} {x x' : σ} {stream payload rest : List UInt8}
  {opcode : UInt16} {result : ReadDataHandlerResult}

inductive Ending (σ : Type)
  | incomplete (authCrypt : PacketCrypt) (session : σ) (rest : List UInt8)
  | malformed
  | refused

structure Parsed (σ : Type) where
  frames : List (UInt16 × List UInt8)
  ending : Ending σ

variable {first : List UInt8}

theorem fields_append (h : SizeOfClientHeader ≤ first.length) (second : List UInt8) :
    sizeField c (first ++ second) = sizeField c first ∧
      opcodeField (first ++ second) = opcodeField first ∧
      (first ++ second).take 4 = first.take 4 := by
  simp only [SizeOfClientHeader] at h
  have hSize : (first ++ second).take 4 = first.take 4 := List.take_append_of_le_length (by omega)
  refine ⟨by rw [sizeField, sizeField, hSize], ?_, hSize⟩
  rw [opcodeField, opcodeField, List.drop_append_of_le_length (by omega),
    List.take_append_of_le_length (by simp only [List.length_drop]; omega)]

theorem malformed_append (h : SizeOfClientHeader ≤ first.length) (second : List UInt8) :
    Malformed c (first ++ second) ↔ Malformed c first := by
  obtain ⟨hSize, hOpcode, _⟩ := fields_append (c := c) h second
  rw [Malformed, Malformed, hSize, hOpcode]

end AshamaneCore.PacketFraming

/-!
## The socket receives exactly the frames of the stream

The state between two chunks is described by the bytes of the incomplete frame
alone. One round of the loop either absorbs all unread bytes into that frame,
or finishes the frame and starts afresh with the bytes behind it.
-/

namespace AshamaneCore.PacketReception

open Library.Bytes WorldSocket PacketFraming

variable {σ : Type}

/-- The unread bytes of the read buffer, whose storage keeps its size. -/
structure Receiving (unread : List UInt8) (s : WorldSocket σ) : Prop where
  active : s.readBuffer.Active unread
  block : s.readBuffer.storage.length = READ_BLOCK_SIZE

/-- The socket holds these bytes, short of a header, and waits for more. -/
structure InHeader (c : PacketCrypt) (x : σ) (held : List UInt8) (s : WorldSocket σ) : Prop where
  short : held.length < SizeOfClientHeader
  header : s.headerBuffer.Active held
  headerStart : s.headerBuffer.rpos = 0
  headerSize : s.headerBuffer.storage.length = SizeOfClientHeader
  packet : s.packetBuffer = ⟨0, 0, []⟩
  authCrypt : s.authCrypt = c
  session : s.session = x
  isOpen : s.closed = false ∧ s.closing = false

/-- The socket holds an accepted header and these bytes of the frame, all of them at most. -/
structure InPayload (c : PacketCrypt) (x : σ) (held : List UInt8) (s : WorldSocket σ) : Prop where
  long : SizeOfClientHeader ≤ held.length
  wellFormed : ¬ Malformed c held
  header : ∃ bytes, s.headerBuffer.Active bytes ∧ bytes.length = SizeOfClientHeader ∧
    (PacketHeader.ofBytes bytes).Command = UInt16.ofNat (opcodeField held)
  headerStart : s.headerBuffer.rpos = 0
  headerSize : s.headerBuffer.storage.length = SizeOfClientHeader
  packet : s.packetBuffer.Active (held.drop SizeOfClientHeader)
  packetStart : s.packetBuffer.rpos = 0
  packetSize : s.packetBuffer.storage.length = sizeField c held - 2
  authCrypt : s.authCrypt = (c.decryptRecv (held.take 4)).1
  session : s.session = x
  isOpen : s.closed = false ∧ s.closing = false

/-- Between chunks: a partial header, or a full header with a partial payload. -/
def Pending (c : PacketCrypt) (x : σ) (held : List UInt8) (s : WorldSocket σ) : Prop :=
  InHeader c x held s ∨
    InPayload c x held s ∧ held.length < SizeOfClientHeader + (sizeField c held - 2)

variable {c : PacketCrypt} {x : σ} {held : List UInt8} {s : WorldSocket σ}

theorem Pending.isOpen (h : Pending c x held s) : s.closed = false ∧ s.closing = false := by
  rcases h with h | ⟨h, _⟩
  · exact h.isOpen
  · exact h.isOpen

variable {bytes : List UInt8}

/-- The header bytes once the size has been decrypted and reduced by the opcode bytes. -/
def rewritten (c : PacketCrypt) (bytes : List UInt8) : List UInt8 :=
  let plain := (c.decryptRecv (bytes.take 4)).2
  let shown := plain ++ bytes.drop plain.length
  let patch := leBytes 4 ((PacketHeader.ofBytes shown).Size - 2).toNat
  patch ++ shown.drop patch.length

variable {unread : List UInt8} {count : Nat}

theorem Receiving.taken (h : Receiving unread s) (hCount : count ≤ unread.length) :
    (s.readBuffer.readCompleted count).Active (unread.drop count) ∧
      (s.readBuffer.readCompleted count).storage.length = READ_BLOCK_SIZE :=
  ⟨h.active.readCompleted hCount, h.block⟩

theorem InPayload.extend {data : List UInt8}
    (h : InPayload c x held s) {packet : MessageBuffer}
    (hPacket : packet.Active (held.drop SizeOfClientHeader ++ data))
    (hStart : packet.rpos = s.packetBuffer.rpos)
    (hSize : packet.storage.length = s.packetBuffer.storage.length) (read : MessageBuffer) :
    InPayload c x (held ++ data) { s with packetBuffer := packet, readBuffer := read } := by
  obtain ⟨hField, hOpcode, hTake⟩ := fields_append (c := c) h.long data
  obtain ⟨bytes, hHeader, hLength, hCommand⟩ := h.header
  exact
    { long := by
        rw [List.length_append]
        exact Nat.le_add_right_of_le h.long
      wellFormed := fun hMalformed => h.wellFormed ((malformed_append h.long data).mp hMalformed)
      header := ⟨bytes, hHeader, hLength, by rw [hOpcode, hCommand]⟩
      headerStart := h.headerStart
      headerSize := h.headerSize
      packet := by rwa [List.drop_append_of_le_length h.long]
      packetStart := hStart.trans h.packetStart
      packetSize := by rw [hSize, h.packetSize, hField]
      authCrypt := by rw [hTake]; exact h.authCrypt
      session := h.session
      isOpen := h.isOpen }

end AshamaneCore.PacketReception
