import AshamaneCore.Shared.ByteBufferRoundtrip

/-!
# Further calls of the byte buffer

Packed integers, strings whose length is sent apart, and bytes and bits that
are put over others. What is written in other ways (floats, times, whole
buffers) goes through append.
-/

namespace AshamaneCore.ByteBuffer

open ByteBufferRoundtrip Library.Bits Library.Bytes

/-! ## Over what was written -/

def put (b : ByteBuffer) (pos : Nat) (src : List UInt8) : Except ByteBufferError ByteBuffer :=
  if pos + src.length ≤ b.size ∧ src ≠ [] then
    .ok { b with storage := b.storage.take pos ++ src ++ b.storage.drop (pos + src.length) }
  else .error .assertion

def putBit (storage : List UInt8) (pos : Nat) (bit : Bool) : List UInt8 :=
  storage.modify (pos / 8) fun byte =>
    if bit then byte ||| UInt8.ofNat (1 <<< (7 - pos % 8)) else byte &&& ~~~UInt8.ofNat (1 <<< (7 - pos % 8))

def putBitsFrom (storage : List UInt8) (pos : Nat) (value : UInt64) : Nat → Except ByteBufferError (List UInt8)
  | 0 => .ok storage
  | i + 1 =>
    if 64 ≤ i then .error .undefinedShift
    else putBitsFrom (putBit storage pos ((value >>> UInt64.ofNat i) &&& 1 != 0)) (pos + 1) value i

def putBits (b : ByteBuffer) (pos : Nat) (value : UInt64) (bitCount : Nat) : Except ByteBufferError ByteBuffer :=
  if pos + bitCount ≤ b.size * 8 ∧ bitCount ≠ 0 then
    (putBitsFrom b.storage pos value bitCount).map fun storage => { b with storage := storage }
  else .error .assertion

def bitwpos (b : ByteBuffer) : Nat := b.wpos * 8 + 8 - b.bitpos

/-! ## Packed integers -/

def packFrom (mask : UInt8) (result : List UInt8) (value : UInt64) (i : Nat) : Nat → UInt8 × List UInt8
  | 0 => (mask, result)
  | rounds + 1 =>
    if value = 0 then (mask, result)
    else if value &&& 0xFF ≠ 0 then
      packFrom (mask ||| UInt8.ofNat (1 <<< i)) (result ++ [(value &&& 0xFF).toUInt8]) (value >>> 8) (i + 1) rounds
    else packFrom mask result (value >>> 8) (i + 1) rounds

def packUInt64 (value : UInt64) : UInt8 × List UInt8 := packFrom 0 [] value 0 8

def appendPacked (b : ByteBuffer) (packed : List UInt8) : Except ByteBufferError ByteBuffer :=
  if packed = [] then .ok b else b.append packed

def appendPackedUInt64 (b : ByteBuffer) (guid : UInt64) : Except ByteBufferError ByteBuffer := do
  let appended ← b.append [0]
  let packed ← appended.appendPacked (packUInt64 guid).2
  packed.put b.wpos [(packUInt64 guid).1]

/-- The bytes of the mask, from byte i on, over what the value has. -/
def readPackedFrom (mask : UInt8) (value : UInt64) (b : ByteBuffer) (i : Nat) :
    Nat → Except ByteBufferError (UInt64 × ByteBuffer)
  | 0 => .ok (value, b)
  | rounds + 1 =>
    if mask &&& UInt8.ofNat (1 <<< i) ≠ 0 then do
      let (byte, b) ← b.readUInt8
      readPackedFrom mask (value ||| byte.toUInt64 <<< UInt64.ofNat (i * 8)) b (i + 1) rounds
    else readPackedFrom mask value b (i + 1) rounds

def readPackedMasked (b : ByteBuffer) (mask : UInt8) (value : UInt64) : Except ByteBufferError (UInt64 × ByteBuffer) :=
  readPackedFrom mask value b 0 8

def readPackedUInt64 (b : ByteBuffer) : Except ByteBufferError (UInt64 × ByteBuffer) := do
  let (mask, b) ← b.readUInt8
  b.readPackedMasked mask 0

/-! ## Strings without an end -/

def writeString (b : ByteBuffer) (str : List UInt8) : Except ByteBufferError ByteBuffer :=
  if str = [] then .ok b else b.append str

def readString (b : ByteBuffer) (length : Nat) : Except ByteBufferError (List UInt8 × ByteBuffer) := do
  let str ← b.readAt b.rpos length
  if length = 0 then return ([], b.resetBitPos)
  return (str, { b.resetBitPos with rpos := b.rpos + length })

/-! ## Reachable buffers -/

def resize (b : ByteBuffer) (newsize : Nat) : ByteBuffer :=
  { b with storage := b.storage.take newsize ++ List.replicate (newsize - b.size) 0, rpos := 0, wpos := newsize }

inductive WriteCall
  | bit (value : Bool)
  | bits (value : UInt64) (count : Nat)
  | append (src : List UInt8)
  | string (str : List UInt8)
  | packed (value : UInt64)
  | flush
  | put (pos : Nat) (src : List UInt8)
  | putBits (pos : Nat) (value : UInt64) (bitCount : Nat)
  | resize (newsize : Nat)
  | clear
  deriving DecidableEq

def call (b : ByteBuffer) : WriteCall → Except ByteBufferError ByteBuffer
  | .bit value => b.writeBit value
  | .bits value count => b.writeBits value count
  | .append src => b.append src
  | .string str => b.writeString str
  | .packed value => b.appendPackedUInt64 value
  | .flush => b.flushBits
  | .put pos src => b.put pos src
  | .putBits pos value bitCount => b.putBits pos value bitCount
  | .resize newsize => .ok (b.resize newsize)
  | .clear => .ok empty

def callAll (b : ByteBuffer) (calls : List WriteCall) : Except ByteBufferError ByteBuffer := calls.foldlM call b

def Reachable (b : ByteBuffer) : Prop := ∃ calls, empty.callAll calls = .ok b

/-! ## What every reachable buffer keeps -/

/-- The writer is at the end of the storage, with fewer than eight bits pending. -/
structure Writing (b : ByteBuffer) : Prop where
  wpos : b.wpos = b.storage.length
  some : 0 < b.bitpos
  few : b.bitpos ≤ 8
  behind : ∀ i < 8, 8 ≤ b.bitpos + i → bitAt b.curbitval i = false

theorem empty_writing : Writing empty := ⟨rfl, by decide, le_rfl, fun i hi _ => packs_nil i hi⟩

/-- The bytes up to the end, with the pending bits as a byte of their own. -/
def flushed (b : ByteBuffer) : List UInt8 := if b.bitpos = 8 then b.storage else b.storage ++ [b.curbitval]

def aligned (rpos : Nat) (storage : List UInt8) : ByteBuffer := ⟨rpos, storage.length, 8, 0, storage⟩

theorem aligned_writing (rpos : Nat) (storage : List UInt8) : Writing (aligned rpos storage) :=
  ⟨rfl, Nat.succ_pos 7, le_rfl, fun i hi _ => packs_nil i hi⟩

section

variable {b : ByteBuffer}

theorem Writing.eq_aligned (h : Writing b) (hBits : b.bitpos = 8) : b = aligned b.rpos b.storage := by
  have hZero : b.curbitval = 0 := bitAt_ext fun i hi => by
    rw [h.behind i hi (by omega), packs_nil i hi]
    rfl
  obtain ⟨rpos, wpos, bitpos, curbitval, storage⟩ := b
  obtain rfl : wpos = storage.length := h.wpos
  obtain rfl : bitpos = 8 := hBits
  obtain rfl : curbitval = 0 := hZero
  rfl

theorem Writing.flushBits_eq (h : Writing b) : b.flushBits =
    if b.bitpos = 8 ∨ b.storage.length < sizeLimit then .ok (aligned b.rpos b.flushed) else .error .assertion := by
  rw [flushBits, flushed]
  by_cases hBits : b.bitpos = 8
  · rw [if_pos hBits, if_pos (Or.inl hBits), if_pos hBits, ← h.eq_aligned hBits]
  · rw [if_neg hBits, if_neg hBits, appendCurrent_end h.wpos]
    split
    · rename_i hRoom
      rw [if_pos (Or.inr hRoom), aligned, List.length_append, List.length_singleton]
    · rename_i hFull
      rw [if_neg (not_or.mpr ⟨hBits, hFull⟩)]

variable {src : List UInt8}

theorem Writing.append_eq (h : Writing b) (hSome : src ≠ []) : b.append src =
    if b.storage.length < sizeLimit then .ok (aligned b.rpos (b.flushed ++ src)) else .error .assertion := by
  by_cases hRoom : b.storage.length < sizeLimit
  · rw [if_pos hRoom, ByteBuffer.append, checkAppend_ok hSome hRoom, h.flushBits_eq, if_pos (Or.inr hRoom)]
    change Except.ok ((aligned b.rpos b.flushed).insert src) = _
    rw [insert_end (aligned_writing b.rpos b.flushed).wpos, aligned, aligned, List.length_append]
  · rw [if_neg hRoom, ByteBuffer.append, checkAppend_error _ hRoom]
    rfl

def withBit (b : ByteBuffer) (bit : Bool) : UInt8 :=
  if bit then b.curbitval ||| UInt8.ofNat (1 <<< (b.bitpos - 1)) else b.curbitval

theorem Writing.bitAt_withBit (h : Writing b) (bit : Bool) {i : Nat} (hi : i < 8) :
    bitAt (b.withBit bit) i = if i + b.bitpos = 8 then bit else bitAt b.curbitval i := by
  have hSome := h.some
  have hFew := h.few
  by_cases hPlace : i + b.bitpos = 8
  · have hClear := h.behind i hi (by omega)
    rw [if_pos hPlace, withBit]
    cases bit with
    | false => exact hClear
    | true => rw [if_pos rfl, bitAt_set (by omega), decide_eq_true (by omega), Bool.or_true]
  · rw [if_neg hPlace, withBit]
    split
    · rw [bitAt_set (by omega), decide_eq_false (by omega), Bool.or_false]
    · rfl

theorem Writing.writeBit_eq (h : Writing b) (bit : Bool) : b.writeBit bit =
    if b.bitpos = 1 then
      if b.storage.length < sizeLimit then .ok (aligned b.rpos (b.storage ++ [b.withBit bit])) else .error .assertion
    else .ok { b with bitpos := b.bitpos - 1, curbitval := b.withBit bit } := by
  have hSome := h.some
  have hAppend := appendCurrent_end (b := { b with bitpos := b.bitpos - 1, curbitval := b.withBit bit }) h.wpos
  rw [ByteBuffer.writeBit, if_neg hSome.ne']
  change (if b.bitpos - 1 = 0 then appendCurrent _ else _) = _
  by_cases hLast : b.bitpos = 1
  · rw [if_pos (by omega), if_pos hLast]
    refine hAppend.trans ?_
    rw [aligned, List.length_append, List.length_singleton]
  · rw [if_neg (by omega), if_neg hLast]
    rfl

variable {b' : ByteBuffer}

theorem Writing.writeBit (h : Writing b) {bit : Bool} (hOk : b.writeBit bit = .ok b') :
    Writing b' := by
  have hSome := h.some
  have hFew := h.few
  rw [h.writeBit_eq] at hOk
  split at hOk
  · split at hOk
    · obtain rfl := Except.ok.inj hOk
      exact aligned_writing ..
    · cases hOk
  · obtain rfl := Except.ok.inj hOk
    refine ⟨h.wpos, by simp only; omega, by simp only; omega, fun i hi hBehind => ?_⟩
    simp only at hBehind ⊢
    rw [h.bitAt_withBit bit hi, if_neg (by omega)]
    exact h.behind i hi (by omega)

theorem except_bind_ok {α β : Type} {x : Except ByteBufferError α} {f : α → Except ByteBufferError β} {y : β}
    (h : (x >>= f) = .ok y) : ∃ a, x = .ok a ∧ f a = .ok y := by
  cases x with
  | error e => cases h
  | ok a => exact ⟨a, rfl, h⟩

variable {value : UInt64}

theorem Writing.writeBits (h : Writing b) {count : Nat}
    (hOk : b.writeBits value count = .ok b') : Writing b' := by
  induction count generalizing b with
  | zero =>
    obtain rfl := Except.ok.inj hOk
    exact h
  | succ i ih =>
    rw [ByteBuffer.writeBits] at hOk
    split at hOk
    · cases hOk
    · obtain ⟨b₁, hBit, hRest⟩ := except_bind_ok hOk
      exact ih (h.writeBit hBit) hRest

theorem Writing.append (h : Writing b) (hOk : b.append src = .ok b') :
    Writing b' := by
  by_cases hSome : src = []
  · rw [ByteBuffer.append, checkAppend, if_pos hSome] at hOk
    cases hOk
  · rw [h.append_eq hSome] at hOk
    split at hOk
    · obtain rfl := Except.ok.inj hOk
      exact aligned_writing ..
    · cases hOk

variable {pos : Nat}

theorem Writing.put (h : Writing b) (hOk : b.put pos src = .ok b') :
    Writing b' := by
  rw [ByteBuffer.put] at hOk
  split at hOk
  · rename_i hInside
    obtain rfl := Except.ok.inj hOk
    refine ⟨h.wpos.trans ?_, h.some, h.few, h.behind⟩
    have hRoom : pos + src.length ≤ b.storage.length := hInside.1
    simp only [List.length_append, List.length_take, List.length_drop]
    omega
  · cases hOk

theorem putBitsFrom_length {storage : List UInt8} {count : Nat} {storage' : List UInt8}
    (h : putBitsFrom storage pos value count = .ok storage') : storage'.length = storage.length := by
  induction count generalizing storage pos with
  | zero =>
    obtain rfl := Except.ok.inj h
    rfl
  | succ i ih =>
    rw [putBitsFrom] at h
    split at h
    · cases h
    · rw [ih h, putBit, List.length_modify]

theorem Writing.putBits (h : Writing b) {bitCount : Nat}
    (hOk : b.putBits pos value bitCount = .ok b') : Writing b' := by
  rw [ByteBuffer.putBits] at hOk
  split at hOk
  · cases hPut : putBitsFrom b.storage pos value bitCount with
    | error e =>
      rw [hPut] at hOk
      cases hOk
    | ok storage =>
      rw [hPut] at hOk
      obtain rfl := Except.ok.inj hOk
      exact ⟨h.wpos.trans (putBitsFrom_length hPut).symm, h.some, h.few, h.behind⟩
  · cases hOk

theorem Writing.flushBits (h : Writing b) (hOk : b.flushBits = .ok b') : Writing b' := by
  rw [h.flushBits_eq] at hOk
  split at hOk
  · obtain rfl := Except.ok.inj hOk
    exact aligned_writing ..
  · cases hOk

theorem Writing.appendPacked (h : Writing b) {packed : List UInt8}
    (hOk : b.appendPacked packed = .ok b') : Writing b' := by
  rw [ByteBuffer.appendPacked] at hOk
  split at hOk
  · obtain rfl := Except.ok.inj hOk
    exact h
  · exact h.append hOk

theorem Writing.call (h : Writing b) {c : WriteCall} (hOk : b.call c = .ok b') : Writing b' := by
  cases c with
  | bit value => exact h.writeBit hOk
  | bits value count => exact h.writeBits hOk
  | append src => exact h.append hOk
  | string str => exact h.appendPacked hOk
  | packed value =>
    obtain ⟨b₁, hFirst, hRest⟩ := except_bind_ok hOk
    obtain ⟨b₂, hSecond, hPut⟩ := except_bind_ok hRest
    exact ((h.append hFirst).appendPacked hSecond).put hPut
  | flush => exact h.flushBits hOk
  | put pos src => exact h.put hOk
  | putBits pos value bitCount => exact h.putBits hOk
  | resize newsize =>
    obtain rfl := Except.ok.inj hOk
    refine ⟨?_, h.some, h.few, h.behind⟩
    simp only [ByteBuffer.resize, List.length_append, List.length_take, List.length_replicate, size]
    omega
  | clear =>
    obtain rfl := Except.ok.inj hOk
    exact empty_writing

theorem callAll_cons {c : WriteCall} {calls : List WriteCall} :
    b.callAll (c :: calls) = .ok b' ↔ ∃ next, b.call c = .ok next ∧ next.callAll calls = .ok b' := by
  rw [callAll, List.foldlM_cons]
  constructor
  · exact except_bind_ok
  · rintro ⟨next, hCall, hRest⟩
    rw [hCall]
    exact hRest

theorem Writing.callAll (h : Writing b) {calls : List WriteCall} (hOk : b.callAll calls = .ok b') :
    Writing b' := by
  induction calls generalizing b with
  | nil =>
    obtain rfl := Except.ok.inj hOk
    exact h
  | cons c calls ih =>
    obtain ⟨next, hCall, hRest⟩ := callAll_cons.mp hOk
    exact ih (h.call hCall) hRest

theorem Reachable.writing (h : Reachable b) : Writing b := by
  obtain ⟨calls, hOk⟩ := h
  exact empty_writing.callAll hOk

end

end AshamaneCore.ByteBuffer
