import AshamaneCore.Library.Bytes

/-!
# The byte buffer of the packets

Bits and bytes share one bit position and one current byte: byte writes flush
the bits that are pending, byte reads drop what is left of the current byte.
A failed operation leaves no buffer, only its error.
-/

namespace AshamaneCore

open Library.Bytes

inductive ByteBufferError
  | assertion
  | position (pos size valueSize : Nat)
  | undefinedShift
  deriving DecidableEq

structure ByteBuffer where
  rpos : Nat
  wpos : Nat
  bitpos : Nat
  curbitval : UInt8
  storage : List UInt8
  deriving DecidableEq

inductive IntWidth
  | w8
  | w16
  | w32
  | w64
  deriving DecidableEq

def IntWidth.bytes : IntWidth → Nat
  | .w8 => 1
  | .w16 => 2
  | .w32 => 4
  | .w64 => 8

namespace ByteBuffer

def InitialBitPos : Nat := 8

def sizeLimit : Nat := 10000000

def empty : ByteBuffer := ⟨0, 0, InitialBitPos, 0, []⟩

def ofStorage (bytes : List UInt8) : ByteBuffer := ⟨0, 0, InitialBitPos, 0, bytes⟩

def size (b : ByteBuffer) : Nat := b.storage.length

/-! ## Writing -/

def insert (b : ByteBuffer) (src : List UInt8) : ByteBuffer :=
  { b with
    storage := b.storage.take b.wpos ++ src ++ b.storage.drop b.wpos
    wpos := b.wpos + src.length }

variable {b : ByteBuffer}

theorem insert_end (h : b.wpos = b.storage.length) (src : List UInt8) :
    b.insert src =
      { b with storage := b.storage ++ src, wpos := b.storage.length + src.length } := by
  rw [ByteBuffer.insert, h, List.take_length, List.drop_length, List.append_nil]

/-- The assertions at the head of append. -/
def checkAppend (b : ByteBuffer) (src : List UInt8) : Except ByteBufferError Unit :=
  if src = [] then .error .assertion
  else if b.size < sizeLimit then .ok () else .error .assertion

theorem checkAppend_ok {src : List UInt8} (hSome : src ≠ [])
    (h : b.storage.length < sizeLimit) : b.checkAppend src = .ok () := by
  rw [checkAppend, if_neg hSome]
  exact if_pos h

theorem checkAppend_error (src : List UInt8)
    (h : ¬ b.storage.length < sizeLimit) : b.checkAppend src = .error .assertion := by
  rw [checkAppend]
  split
  · rfl
  · exact if_neg h

/-- The current byte goes through append, which has no bits to flush any more. -/
def appendCurrent (b : ByteBuffer) : Except ByteBufferError ByteBuffer := do
  let b := { b with bitpos := 8 }
  b.checkAppend [b.curbitval]
  return { b.insert [b.curbitval] with curbitval := 0 }

theorem appendCurrent_end (h : b.wpos = b.storage.length) :
    b.appendCurrent = if b.storage.length < sizeLimit then
        .ok { b with
          wpos := b.storage.length + 1
          bitpos := 8
          curbitval := 0
          storage := b.storage ++ [b.curbitval] }
      else .error .assertion := by
  by_cases hRoom : b.storage.length < sizeLimit
  · have hCheck : ({ b with bitpos := 8 } : ByteBuffer).checkAppend [b.curbitval] = .ok () :=
      checkAppend_ok (List.cons_ne_nil _ _) hRoom
    have hInsert := insert_end (b := { b with bitpos := 8 }) h [b.curbitval]
    rw [if_pos hRoom]
    simp only [appendCurrent, hCheck, hInsert]
    rfl
  · have hCheck : ({ b with bitpos := 8 } : ByteBuffer).checkAppend [b.curbitval] =
        .error .assertion := checkAppend_error _ hRoom
    rw [if_neg hRoom]
    simp only [appendCurrent, hCheck]
    rfl

def flushBits (b : ByteBuffer) : Except ByteBufferError ByteBuffer :=
  if b.bitpos = 8 then .ok b else b.appendCurrent

def append (b : ByteBuffer) (src : List UInt8) : Except ByteBufferError ByteBuffer := do
  b.checkAppend src
  let b ← b.flushBits
  return b.insert src

def writeBit (b : ByteBuffer) (bit : Bool) : Except ByteBufferError ByteBuffer :=
  if b.bitpos = 0 then .error .undefinedShift
  else
    let bitpos := b.bitpos - 1
    let curbitval := if bit then b.curbitval ||| UInt8.ofNat (1 <<< bitpos) else b.curbitval
    let b := { b with bitpos := bitpos, curbitval := curbitval }
    if bitpos = 0 then b.appendCurrent else .ok b

def writeBits (b : ByteBuffer) (value : UInt64) : Nat → Except ByteBufferError ByteBuffer
  | 0 => .ok b
  | i + 1 => do
    if 64 ≤ i then throw .undefinedShift
    let b ← b.writeBit ((value >>> UInt64.ofNat i) &&& 1 != 0)
    b.writeBits value i

/-- An integer of either signedness is given by its two's complement. -/
def writeInt (b : ByteBuffer) (width : IntWidth) (value : BitVec (8 * width.bytes)) :
    Except ByteBufferError ByteBuffer :=
  b.append (leBytes width.bytes value.toNat)

def writeCString (b : ByteBuffer) (value : List UInt8) : Except ByteBufferError ByteBuffer := do
  let b ← if value = [] then pure b else b.append value
  b.append [0]

/-! ## Reading -/

def resetBitPos (b : ByteBuffer) : ByteBuffer :=
  if 7 < b.bitpos then b else { b with bitpos := 8, curbitval := 0 }

def readAt (b : ByteBuffer) (pos count : Nat) : Except ByteBufferError (List UInt8) :=
  if b.size < pos + count then .error (.position pos count b.size)
  else .ok ((b.storage.drop pos).take count)

def read (b : ByteBuffer) (count : Nat) : Except ByteBufferError (List UInt8 × ByteBuffer) := do
  let b := b.resetBitPos
  let bytes ← b.readAt b.rpos count
  return (bytes, { b with rpos := b.rpos + count })

def readUInt8 (b : ByteBuffer) : Except ByteBufferError (UInt8 × ByteBuffer) := do
  let (bytes, b) ← b.read 1
  return (UInt8.ofNat (leNat bytes), b)

def readBit (b : ByteBuffer) : Except ByteBufferError (Bool × ByteBuffer) := do
  let b := { b with bitpos := b.bitpos + 1 }
  let b ← if 7 < b.bitpos then do
      let (byte, b) ← b.readUInt8
      pure { b with curbitval := byte, bitpos := 0 }
    else pure b
  return ((b.curbitval >>> UInt8.ofNat (7 - b.bitpos)) &&& 1 != 0, b)

def readBitsFrom (value : UInt32) (b : ByteBuffer) :
    Nat → Except ByteBufferError (UInt32 × ByteBuffer)
  | 0 => .ok (value, b)
  | i + 1 => do
    let (bit, b) ← b.readBit
    if bit && 32 ≤ i then throw .undefinedShift
    readBitsFrom (if bit then value ||| UInt32.ofNat (1 <<< i) else value) b i

def readBits (b : ByteBuffer) (bits : Nat) : Except ByteBufferError (UInt32 × ByteBuffer) :=
  readBitsFrom 0 b bits

def readInt (b : ByteBuffer) (width : IntWidth) :
    Except ByteBufferError (BitVec (8 * width.bytes) × ByteBuffer) := do
  let (bytes, b) ← b.read width.bytes
  return (BitVec.ofNat _ (leNat bytes), b)

/-- Each round reads one byte, so the bytes behind the read position bound the rounds. -/
def readCStringFrom (value : List UInt8) (b : ByteBuffer) :
    Nat → Except ByteBufferError (List UInt8 × ByteBuffer)
  | 0 => .ok (value, b)
  | rounds + 1 =>
    if b.rpos < b.size then do
      let (c, b) ← b.readUInt8
      if c = 0 then return (value, b)
      readCStringFrom (value ++ [c]) b rounds
    else .ok (value, b)

def readCString (b : ByteBuffer) : Except ByteBufferError (List UInt8 × ByteBuffer) :=
  readCStringFrom [] b (b.size - b.rpos)

/-! ## Sequences of operations -/

inductive WriteOp
  | bit (value : Bool)
  | bits (value : UInt64) (count : Nat)
  | int (width : IntWidth) (value : BitVec (8 * width.bytes))
  | cstring (value : List UInt8)
  deriving DecidableEq

inductive ReadOp
  | bit
  | bits (count : Nat)
  | int (width : IntWidth)
  | cstring
  deriving DecidableEq

inductive Value
  | bit (value : Bool)
  | number (value : Nat)
  | int (width : IntWidth) (value : BitVec (8 * width.bytes))
  | cstring (value : List UInt8)
  deriving DecidableEq

def WriteOp.Valid : WriteOp → Prop
  | .bits value count => count ≤ 32 ∧ value.toNat < 2 ^ count
  | .cstring value => 0 ∉ value
  | _ => True

instance : (op : WriteOp) → Decidable op.Valid
  | .bit _ => inferInstanceAs (Decidable True)
  | .bits _ _ => inferInstanceAs (Decidable (_ ∧ _))
  | .int _ _ => inferInstanceAs (Decidable True)
  | .cstring _ => inferInstanceAs (Decidable (¬ _))

def WriteOp.matching : WriteOp → ReadOp
  | .bit _ => .bit
  | .bits _ count => .bits count
  | .int width _ => .int width
  | .cstring _ => .cstring

def WriteOp.value : WriteOp → Value
  | .bit value => .bit value
  | .bits value _ => .number value.toNat
  | .int width value => .int width value
  | .cstring value => .cstring value

def write (b : ByteBuffer) : WriteOp → Except ByteBufferError ByteBuffer
  | .bit value => b.writeBit value
  | .bits value count => b.writeBits value count
  | .int width value => b.writeInt width value
  | .cstring value => b.writeCString value

def readValue (b : ByteBuffer) : ReadOp → Except ByteBufferError (Value × ByteBuffer)
  | .bit => return (← b.readBit).map .bit id
  | .bits count => return (← b.readBits count).map (fun value => .number value.toNat) id
  | .int width => return (← b.readInt width).map (.int width) id
  | .cstring => return (← b.readCString).map .cstring id

def writeAll (b : ByteBuffer) : List WriteOp → Except ByteBufferError ByteBuffer
  | [] => b.flushBits
  | op :: ops => do
    let b ← b.write op
    b.writeAll ops

def readAll (b : ByteBuffer) : List ReadOp → Except ByteBufferError (List Value × ByteBuffer)
  | [] => .ok ([], b)
  | op :: ops => do
    let (value, b) ← b.readValue op
    let (values, b) ← b.readAll ops
    return (value :: values, b)

def flushedSize (bytes bits : Nat) : Nat := if bits = 0 then bytes else bytes + 1

def WriteOp.sizeAfter (bytes bits : Nat) : WriteOp → Nat × Nat
  | .bit _ => (bytes + (bits + 1) / 8, (bits + 1) % 8)
  | .bits _ count => (bytes + (bits + count) / 8, (bits + count) % 8)
  | .int width _ => (flushedSize bytes bits + width.bytes, 0)
  | .cstring value => (flushedSize bytes bits + (value.length + 1), 0)

def encodedSizeFrom (bytes bits : Nat) : List WriteOp → Nat
  | [] => flushedSize bytes bits
  | op :: ops => encodedSizeFrom (op.sizeAfter bytes bits).1 (op.sizeAfter bytes bits).2 ops

def encodedSize (ops : List WriteOp) : Nat := encodedSizeFrom 0 0 ops

end ByteBuffer

end AshamaneCore
