import AshamaneCore.Common.MessageBuffer
import AshamaneCore.Library.Bytes

/-!
# The stream cipher of the packet headers

The state of the native RC4 implementation and its in-place update. Decryption
is the identity until the cipher has been initialised.
-/

namespace AshamaneCore

structure ARC4 where
  S : Vector UInt8 256
  i : UInt8
  j : UInt8
  deriving DecidableEq

namespace ARC4

def at' (a : ARC4) (index : UInt8) : UInt8 := a.S.get ⟨index.toNat, index.toNat_lt⟩

def put (a : ARC4) (index value : UInt8) : ARC4 :=
  { a with S := a.S.set index.toNat value index.toNat_lt }

def updateByte (a : ARC4) (byte : UInt8) : ARC4 × UInt8 :=
  let i := a.i + 1
  let j := a.j + a.at' i
  let swapped := ((a.put i (a.at' j)).put j (a.at' i))
  ({ swapped with i := i, j := j }, byte ^^^ swapped.at' (swapped.at' i + swapped.at' j))

def updateData : ARC4 → List UInt8 → ARC4 × List UInt8
  | a, [] => (a, [])
  | a, byte :: data =>
    let (next, out) := a.updateByte byte
    let (last, rest) := next.updateData data
    (last, out :: rest)

@[simp] theorem updateData_length (a : ARC4) (data : List UInt8) :
    (a.updateData data).2.length = data.length := by
  induction data generalizing a with
  | nil => rfl
  | cons byte data ih => simp [updateData, ih]

end ARC4

structure PacketCrypt where
  clientDecrypt : ARC4
  serverEncrypt : ARC4
  initialized : Bool
  deriving DecidableEq

namespace PacketCrypt

def decryptRecv (c : PacketCrypt) (data : List UInt8) : PacketCrypt × List UInt8 :=
  if !c.initialized then (c, data)
  else
    let (clientDecrypt, plain) := c.clientDecrypt.updateData data
    ({ c with clientDecrypt }, plain)

end PacketCrypt

/-!
## The receiving side of the world socket

Received bytes pass from the read buffer through the header and the packet
buffer to the packet handler. The handler is a parameter: it sees the opcode and
the payload, and may change the cipher and the session. None of its successful
branches closes the socket. A failed assertion and a write past a buffer give none.
-/

open Library.Bytes

def READ_BLOCK_SIZE : Nat := 4096

def SizeOfClientHeader : Nat := 6

def NUM_OPCODE_HANDLERS : Nat := 0x3FFF + 1

structure PacketHeader where
  Size : UInt32
  Command : UInt16
  deriving DecidableEq

namespace PacketHeader

def isValidSize (h : PacketHeader) : Bool := h.Size < 0x10000

def isValidOpcode (h : PacketHeader) : Bool := h.Command.toNat < NUM_OPCODE_HANDLERS

def ofBytes (bytes : List UInt8) : PacketHeader where
  Size := UInt32.ofNat (leNat (bytes.take 4))
  Command := UInt16.ofNat (leNat ((bytes.drop 4).take 2))

end PacketHeader

inductive ReadDataHandlerResult
  | Ok
  | Error
  | WaitingForQuery
  deriving DecidableEq

/-- What handling one packet does to the cipher and to the session, and its result. -/
abbrev PacketHandler (σ : Type) : Type :=
  PacketCrypt → σ → UInt16 → List UInt8 → PacketCrypt × σ × ReadDataHandlerResult

structure WorldSocket (σ : Type) where
  readBuffer : MessageBuffer
  headerBuffer : MessageBuffer
  packetBuffer : MessageBuffer
  authCrypt : PacketCrypt
  session : σ
  closed : Bool
  closing : Bool
  handled : List (UInt16 × List UInt8)

inductive Flow
  | proceed
  | leave
  | quit
  deriving DecidableEq

namespace WorldSocket

variable {σ : Type}

/-- The socket once the connection string has been read; all packets are still to come. -/
def initialized (authCrypt : PacketCrypt) (session : σ) : WorldSocket σ where
  readBuffer := .ofSize READ_BLOCK_SIZE
  headerBuffer := .ofSize SizeOfClientHeader
  packetBuffer := .ofSize 0
  authCrypt := authCrypt
  session := session
  closed := false
  closing := false
  handled := []

def isOpen (s : WorldSocket σ) : Bool := !s.closed && !s.closing

def closeSocket (s : WorldSocket σ) : WorldSocket σ := { s with closed := true }

def asyncRead (s : WorldSocket σ) : WorldSocket σ :=
  if !s.isOpen then s else { s with readBuffer := s.readBuffer.normalize.ensureFreeSpace }

def readHeaderHandler (s : WorldSocket σ) : Option (Bool × WorldSocket σ) :=
  if s.headerBuffer.getActiveSize = SizeOfClientHeader then
    let (authCrypt, plain) := s.authCrypt.decryptRecv (s.headerBuffer.peek 4)
    let decrypted := s.headerBuffer.poke plain
    let size := (PacketHeader.ofBytes (decrypted.peek SizeOfClientHeader)).Size - 2
    let headerBuffer := decrypted.poke (leBytes 4 size.toNat)
    let header := PacketHeader.ofBytes (headerBuffer.peek SizeOfClientHeader)
    let s := { s with authCrypt := authCrypt, headerBuffer := headerBuffer }
    if !header.isValidSize || !header.isValidOpcode then some (false, s)
    else some (true, { s with packetBuffer := s.packetBuffer.resize header.Size.toNat })
  else none

def readDataHandler (handler : PacketHandler σ) (s : WorldSocket σ) :
    ReadDataHandlerResult × WorldSocket σ :=
  let header := PacketHeader.ofBytes (s.headerBuffer.peek SizeOfClientHeader)
  let (payload, packetBuffer) := s.packetBuffer.move
  let (authCrypt, session, result) := handler s.authCrypt s.session header.Command payload
  (result, { s with
    packetBuffer := packetBuffer
    authCrypt := authCrypt
    session := session
    handled := s.handled ++ [(header.Command, payload)] })

def receiveHeader (s : WorldSocket σ) : Option (Flow × WorldSocket σ) :=
  if 0 < s.headerBuffer.getRemainingSpace then do
    let readHeaderSize := min s.readBuffer.getActiveSize s.headerBuffer.getRemainingSpace
    let headerBuffer ← s.headerBuffer.write (s.readBuffer.peek readHeaderSize)
    let s := { s with
      headerBuffer := headerBuffer, readBuffer := s.readBuffer.readCompleted readHeaderSize }
    if 0 < s.headerBuffer.getRemainingSpace then
      if s.readBuffer.getActiveSize = 0 then some (.leave, s) else none
    else do
      let (accepted, s) ← s.readHeaderHandler
      if accepted then some (.proceed, s) else some (.quit, s.closeSocket)
  else some (.proceed, s)

def receivePayload (s : WorldSocket σ) : Option (Flow × WorldSocket σ) :=
  if 0 < s.packetBuffer.getRemainingSpace then do
    let readDataSize := min s.readBuffer.getActiveSize s.packetBuffer.getRemainingSpace
    let packetBuffer ← s.packetBuffer.write (s.readBuffer.peek readDataSize)
    let s := { s with
      packetBuffer := packetBuffer, readBuffer := s.readBuffer.readCompleted readDataSize }
    if 0 < s.packetBuffer.getRemainingSpace then
      if s.readBuffer.getActiveSize = 0 then some (.leave, s) else none
    else some (.proceed, s)
  else some (.proceed, s)

def dispatchPacket (handler : PacketHandler σ) (s : WorldSocket σ) : Flow × WorldSocket σ :=
  let (result, s) := s.readDataHandler handler
  let s := { s with headerBuffer := s.headerBuffer.reset }
  match result with
  | .Ok => (.proceed, s)
  | .WaitingForQuery => (.quit, s)
  | .Error => (.quit, s.closeSocket)

def readIteration (handler : PacketHandler σ) (s : WorldSocket σ) :
    Option (Flow × WorldSocket σ) := do
  let (flow, s) ← s.receiveHeader
  if flow ≠ .proceed then return (flow, s)
  let (flow, s) ← s.receivePayload
  if flow ≠ .proceed then return (flow, s)
  return s.dispatchPacket handler

/-- The loop with a bound on its rounds; running out of rounds gives none. -/
def readLoop (handler : PacketHandler σ) : Nat → WorldSocket σ → Option (WorldSocket σ)
  | 0, s => if s.readBuffer.getActiveSize = 0 then some s.asyncRead else none
  | rounds + 1, s =>
    if 0 < s.readBuffer.getActiveSize then
      match s.readIteration handler with
      | none => none
      | some (.proceed, next) => readLoop handler rounds next
      | some (.leave, next) => some next.asyncRead
      | some (.quit, next) => some next
    else some s.asyncRead

/-- Every round takes at least one byte, so the unread bytes bound the rounds. -/
def readHandler (handler : PacketHandler σ) (s : WorldSocket σ) : Option (WorldSocket σ) :=
  if !s.isOpen then some s else readLoop handler s.readBuffer.getActiveSize s

/-- A completed asynchronous read. A closed socket has none outstanding. -/
def readHandlerInternal (handler : PacketHandler σ) (s : WorldSocket σ) (chunk : List UInt8) :
    Option (WorldSocket σ) :=
  if s.closed then some s
  else do
    let readBuffer ← s.readBuffer.write chunk
    readHandler handler { s with readBuffer := readBuffer }

def receiveAll (handler : PacketHandler σ) (s : WorldSocket σ) (chunks : List (List UInt8)) :
    Option (WorldSocket σ) :=
  chunks.foldlM (readHandlerInternal handler) s

end WorldSocket

end AshamaneCore
