import AshamaneCore.Shared.PackedIntegers

/-!
# Fields that are put over later

Every write does the same to all buffers of one shape: it fails, or it lays the
same bits over them. So a field that is reserved and put over later differs
from one that is written at once only when a write in between lays bits over
the field.
-/

namespace AshamaneCore.ByteBuffer

open ByteBufferRoundtrip Library.Bits Library.Bytes

/-! ## The bits of a buffer -/

def bitOf (b : ByteBuffer) (j : Nat) : Bool := bitAt ((b.storage ++ [b.curbitval]).getD (j / 8) 0) (j % 8)

structure Shape where
  rpos : Nat
  length : Nat
  bitpos : Nat
  deriving DecidableEq

def shape (b : ByteBuffer) : Shape := ⟨b.rpos, b.storage.length, b.bitpos⟩

namespace Shape

def bitEnd (s : Shape) : Nat := s.length * 8 + 8 - s.bitpos

def flushedLength (s : Shape) : Nat := if s.bitpos = 8 then s.length else s.length + 1

end Shape

abbrev Overlay := Nat → Option Bool

def Overlay.onto (second first : Overlay) : Overlay := fun j => (second j).or (first j)

def overBytes (start : Nat) (src : List UInt8) : Overlay := fun j =>
  if start ≤ j / 8 ∧ j / 8 < start + src.length then some (bitAt (src.getD (j / 8 - start) 0) (j % 8)) else none

def overBits (start : Nat) (value : UInt64) (count : Nat) : Overlay := fun j =>
  if start ≤ j ∧ j < start + count then some (value.toNat.testBit (start + count - 1 - j)) else none

/-- The result has the bits of the overlay, and those of the buffer where it has none. -/
structure Lays (s : Shape) (laid : Overlay) (b b' : ByteBuffer) : Prop where
  writing : Writing b'
  shape : b'.shape = s
  bits : ∀ j, b'.bitOf j = (laid j).getD (b.bitOf j)

variable {b : ByteBuffer}

theorem Writing.bitwpos_eq (h : Writing b) : b.bitwpos = b.shape.bitEnd := by
  rw [bitwpos, h.wpos]
  rfl

theorem eq_of_bits {b' : ByteBuffer} (h : Writing b) (h' : Writing b') (hShape : b.shape = b'.shape)
    (hBits : ∀ j, b.bitOf j = b'.bitOf j) : b = b' := by
  have hBytes : ∀ k, (b.storage ++ [b.curbitval]).getD k 0 = (b'.storage ++ [b'.curbitval]).getD k 0 := by
    intro k
    refine bitAt_ext fun i hi => ?_
    have hBit := hBits (8 * k + i)
    rw [bitOf, bitOf, Nat.mul_add_div (by decide), Nat.div_eq_of_lt hi, Nat.add_zero, Nat.mul_add_mod,
      Nat.mod_eq_of_lt hi] at hBit
    exact hBit
  obtain ⟨rpos, wpos, bitpos, curbitval, storage⟩ := b
  obtain ⟨rpos', wpos', bitpos', curbitval', storage'⟩ := b'
  obtain ⟨hRpos, hLength, hBitpos⟩ := Shape.mk.inj hShape
  obtain rfl : rpos = rpos' := hRpos
  obtain rfl : bitpos = bitpos' := hBitpos
  have hAll : storage ++ [curbitval] = storage' ++ [curbitval'] := by
    refine List.ext_getElem? fun k => ?_
    have hByte := hBytes k
    simp only at hLength hByte
    by_cases hk : k < storage.length + 1
    · have hk' : k < storage'.length + 1 := hLength ▸ hk
      rw [List.getD_eq_getElem _ _ (by simpa using hk), List.getD_eq_getElem _ _ (by simpa using hk')] at hByte
      rw [List.getElem?_eq_getElem (by simpa using hk), List.getElem?_eq_getElem (by simpa using hk'), hByte]
    · rw [List.getElem?_eq_none (by simpa using Nat.le_of_not_lt hk),
        List.getElem?_eq_none (by simpa using hLength ▸ Nat.le_of_not_lt hk)]
  obtain ⟨rfl, hLast⟩ := List.append_inj hAll hLength
  obtain rfl : curbitval = curbitval' := List.singleton_inj.mp hLast
  have hWpos : wpos = wpos' := h.wpos.trans h'.wpos.symm
  rw [hWpos]

theorem bitOf_aligned (rpos : Nat) (storage : List UInt8) (j : Nat) :
    (aligned rpos storage).bitOf j = bitAt (storage.getD (j / 8) 0) (j % 8) := by
  have hZero : (storage ++ [0]).getD (j / 8) 0 = storage.getD (j / 8) 0 := by
    rw [List.getD_eq_getElem?_getD, List.getD_eq_getElem?_getD, List.getElem?_append]
    split
    · rfl
    · rename_i hBehind
      rw [List.getElem?_eq_none (Nat.le_of_not_lt hBehind)]
      cases j / 8 - storage.length <;> rfl
  rw [bitOf, aligned, hZero]

theorem Writing.bitOf_eq (h : Writing b) (j : Nat) :
    b.bitOf j = bitAt (b.flushed.getD (j / 8) 0) (j % 8) := by
  by_cases hBits : b.bitpos = 8
  · conv_lhs => rw [h.eq_aligned hBits]
    rw [bitOf_aligned, flushed, if_pos hBits]
  · rw [bitOf, flushed, if_neg hBits]

theorem flushed_length (b : ByteBuffer) : b.flushed.length = b.shape.flushedLength := by
  rw [flushed, Shape.flushedLength]
  change _ = if b.bitpos = 8 then _ else _
  split
  · rfl
  · exact List.length_append

theorem shape_aligned (rpos : Nat) (storage : List UInt8) : (aligned rpos storage).shape = ⟨rpos, storage.length, 8⟩ :=
  rfl

/-! ## What one write does to all buffers of a shape -/

/-- The operation fails alike on all buffers of the shape, or lays the same bits over them. -/
def Uniform (op : ByteBuffer → Except ByteBufferError ByteBuffer) (s : Shape) (Q : Shape → Overlay → Prop) : Prop :=
  (∃ e, ∀ b, Writing b → b.shape = s → op b = .error e) ∨
  ∃ s' laid, Q s' laid ∧ ∀ b, Writing b → b.shape = s → ∃ b', op b = .ok b' ∧ Lays s' laid b b'

variable {op : ByteBuffer → Except ByteBufferError ByteBuffer} {s : Shape} {Q : Shape → Overlay → Prop}

theorem Uniform.mono {Q' : Shape → Overlay → Prop}
    (h : Uniform op s Q) (hQ : ∀ s' laid, Q s' laid → Q' s' laid) : Uniform op s Q' := by
  rcases h with hError | ⟨s', laid, hLaid, hLays⟩
  · exact Or.inl hError
  · exact Or.inr ⟨s', laid, hQ s' laid hLaid, hLays⟩

theorem Uniform.congr {op' : ByteBuffer → Except ByteBufferError ByteBuffer}
    (h : Uniform op s Q) (hSame : ∀ b, Writing b → b.shape = s → op' b = op b) : Uniform op' s Q := by
  rcases h with ⟨e, hError⟩ | ⟨s', laid, hLaid, hLays⟩
  · exact Or.inl ⟨e, fun b hb hShape => (hSame b hb hShape).trans (hError b hb hShape)⟩
  · refine Or.inr ⟨s', laid, hLaid, fun b hb hShape => ?_⟩
    rw [hSame b hb hShape]
    exact hLays b hb hShape

theorem Uniform.bind {next : ByteBuffer → Except ByteBufferError ByteBuffer} {Q' : Shape → Overlay → Prop}
    (h : Uniform op s Q)
    (hNext : ∀ s' laid, Q s' laid → Uniform next s' (fun s'' laid' => Q' s'' (laid'.onto laid))) :
    Uniform (fun b => op b >>= next) s Q' := by
  rcases h with ⟨e, hError⟩ | ⟨s', laid, hLaid, hLays⟩
  · refine Or.inl ⟨e, fun b hb hShape => ?_⟩
    simp only [hError b hb hShape]
    rfl
  · rcases hNext s' laid hLaid with ⟨e, hError⟩ | ⟨s'', laid', hLaid', hLays'⟩
    · refine Or.inl ⟨e, fun b hb hShape => ?_⟩
      obtain ⟨b₁, hOk, hFirst⟩ := hLays b hb hShape
      simp only [hOk]
      exact hError b₁ hFirst.writing hFirst.shape
    · refine Or.inr ⟨s'', laid'.onto laid, hLaid', fun b hb hShape => ?_⟩
      obtain ⟨b₁, hOk, hFirst⟩ := hLays b hb hShape
      obtain ⟨b₂, hOk', hSecond⟩ := hLays' b₁ hFirst.writing hFirst.shape
      refine ⟨b₂, ?_, hSecond.writing, hSecond.shape, fun j => ?_⟩
      · simp only [hOk]
        exact hOk'
      · rw [hSecond.bits, hFirst.bits, Overlay.onto]
        cases laid' j <;> rfl

theorem uniform_pure (h : Q s (fun _ => none)) :
    Uniform (fun b => .ok b) s Q :=
  Or.inr ⟨s, _, h, fun b hb hShape => ⟨b, rfl, hb, hShape, fun _ => rfl⟩⟩

theorem flushBits_uniform (s : Shape) : Uniform flushBits s (fun s' laid =>
    s' = ⟨s.rpos, s.flushedLength, 8⟩ ∧ laid = fun _ => none) := by
  by_cases hRoom : s.bitpos = 8 ∨ s.length < sizeLimit
  · refine Or.inr ⟨_, _, ⟨rfl, rfl⟩, ?_⟩
    rintro b hb rfl
    refine ⟨_, hb.flushBits_eq.trans (if_pos hRoom), aligned_writing .., ?_, fun j => ?_⟩
    · rw [shape_aligned, flushed_length]
      rfl
    · rw [bitOf_aligned, hb.bitOf_eq]
      rfl
  · refine Or.inl ⟨.assertion, ?_⟩
    rintro b hb rfl
    exact hb.flushBits_eq.trans (if_neg hRoom)

theorem getD_behind (before src : List UInt8) (k : Nat) : (before ++ src).getD k 0 =
    if before.length ≤ k ∧ k < before.length + src.length then src.getD (k - before.length) 0 else before.getD k 0 := by
  simp only [List.getD_eq_getElem?_getD, List.getElem?_append]
  by_cases hFirst : k < before.length
  · rw [if_pos hFirst, if_neg (by omega)]
  · rw [if_neg hFirst]
    by_cases hSecond : k < before.length + src.length
    · rw [if_pos ⟨by omega, hSecond⟩]
    · rw [if_neg (by omega), List.getElem?_eq_none (by omega), List.getElem?_eq_none (by omega)]

variable {pos : Nat}

theorem getD_splice (bytes src : List UInt8) (h : pos + src.length ≤ bytes.length) (last : UInt8) (k : Nat) :
    (bytes.take pos ++ src ++ bytes.drop (pos + src.length) ++ [last]).getD k 0 =
      if pos ≤ k ∧ k < pos + src.length then src.getD (k - pos) 0 else (bytes ++ [last]).getD k 0 := by
  have hTake : (bytes.take pos).length = pos := by
    rw [List.length_take]
    omega
  simp only [List.getD_eq_getElem?_getD, List.append_assoc, List.getElem?_append, hTake, List.length_drop,
    List.getElem?_drop, List.getElem?_take]
  by_cases hFirst : k < pos
  · rw [if_pos hFirst, if_pos hFirst, if_neg (by omega), if_pos (by omega)]
  · rw [if_neg hFirst]
    by_cases hSecond : k < pos + src.length
    · rw [if_pos (by omega), if_pos ⟨by omega, hSecond⟩]
    · rw [if_neg (show ¬ k - pos < src.length by omega), if_neg (show ¬ (pos ≤ k ∧ k < pos + src.length) by omega),
        show pos + src.length + (k - pos - src.length) = k by omega,
        show k - pos - src.length - (bytes.length - (pos + src.length)) = k - bytes.length by omega]
      by_cases hThird : k < bytes.length
      · rw [if_pos (by omega), if_pos hThird]
      · rw [if_neg (by omega), if_neg hThird]

theorem append_uniform (s : Shape) (src : List UInt8) : Uniform (fun b => b.append src) s (fun s' laid =>
    s' = ⟨s.rpos, s.flushedLength + src.length, 8⟩ ∧ laid = overBytes s.flushedLength src) := by
  by_cases hSome : src = []
  · refine Or.inl ⟨.assertion, fun b _ _ => ?_⟩
    simp only [ByteBuffer.append, checkAppend, if_pos hSome]
    rfl
  by_cases hRoom : s.length < sizeLimit
  · refine Or.inr ⟨_, _, ⟨rfl, rfl⟩, ?_⟩
    rintro b hb rfl
    refine ⟨_, (hb.append_eq hSome).trans (if_pos hRoom), aligned_writing .., ?_, fun j => ?_⟩
    · rw [shape_aligned, List.length_append, flushed_length]
      rfl
    · rw [bitOf_aligned, hb.bitOf_eq, getD_behind, overBytes, ← flushed_length]
      split <;> rfl
  · refine Or.inl ⟨.assertion, ?_⟩
    rintro b hb rfl
    exact (hb.append_eq hSome).trans (if_neg hRoom)

theorem put_uniform (s : Shape) (pos : Nat) (src : List UInt8) : Uniform (fun b => b.put pos src) s (fun s' laid =>
    s' = s ∧ laid = overBytes pos src) := by
  by_cases hInside : pos + src.length ≤ s.length ∧ src ≠ []
  · refine Or.inr ⟨_, _, ⟨rfl, rfl⟩, ?_⟩
    rintro b hb rfl
    have hPut : b.put pos src = .ok _ := if_pos hInside
    refine ⟨_, hPut, hb.put hPut, ?_, fun j => ?_⟩
    · rw [shape, shape]
      congr 1
      simp only [List.length_append, List.length_take, List.length_drop]
      have hRoom : pos + src.length ≤ b.storage.length := hInside.1
      omega
    · rw [bitOf, bitOf, getD_splice _ _ hInside.1, overBytes]
      split <;> rfl
  · refine Or.inl ⟨.assertion, ?_⟩
    rintro b hb rfl
    exact if_neg hInside

/-! ## Bits that are put over others -/

def overBit (pos : Nat) (bit : Bool) : Overlay := fun j => if j = pos then some bit else none

theorem overBits_zero (pos : Nat) (value : UInt64) : overBits pos value 0 = fun _ => none := by
  funext j
  rw [overBits, if_neg (by omega)]

theorem overBits_succ (pos : Nat) (value : UInt64) (i : Nat) :
    (overBits (pos + 1) value i).onto (overBit pos (value.toNat.testBit i)) = overBits pos value (i + 1) := by
  funext j
  rw [Overlay.onto, overBits, overBits, overBit]
  by_cases hFirst : j = pos
  · rw [if_neg (by omega), if_pos hFirst, if_pos (by omega), hFirst, Option.none_or]
    congr 2
    omega
  · rw [if_neg hFirst, Option.or_none]
    by_cases hLater : pos + 1 ≤ j ∧ j < pos + 1 + i
    · rw [if_pos hLater, if_pos (by omega)]
      congr 2
      omega
    · rw [if_neg hLater, if_neg (by omega)]

theorem Lays.trans {s' : Shape} {laid laid' : Overlay} {b₁ b₂ : ByteBuffer} (h : Lays s laid b b₁)
    (h' : Lays s' laid' b₁ b₂) : Lays s' (laid'.onto laid) b b₂ := by
  refine ⟨h'.writing, h'.shape, fun j => ?_⟩
  rw [h'.bits, h.bits, Overlay.onto]
  cases laid' j <;> rfl

theorem putBit_lays (h : Writing b) (hInside : pos < b.storage.length * 8) (bit : Bool) :
    Lays b.shape (overBit pos bit) b { b with storage := putBit b.storage pos bit } := by
  have hLength : (putBit b.storage pos bit).length = b.storage.length := List.length_modify ..
  refine ⟨⟨h.wpos.trans hLength.symm, h.some, h.few, h.behind⟩, by rw [shape, shape, hLength], fun j => ?_⟩
  have hPlace : pos / 8 < b.storage.length := by omega
  rw [bitOf, bitOf, overBit]
  simp only [List.getD_eq_getElem?_getD, List.getElem?_append, hLength]
  by_cases hByte : j / 8 < b.storage.length
  · rw [if_pos hByte, if_pos hByte, putBit, List.getElem?_modify, List.getElem?_eq_getElem hByte]
    simp only [Option.map_eq_map, Option.map_some, Option.getD_some]
    by_cases hSame : pos / 8 = j / 8
    · rw [if_pos hSame]
      have hBit : 7 - pos % 8 < 8 := by omega
      cases bit with
      | true =>
        rw [if_pos rfl, bitAt_set hBit]
        split
        · rw [decide_eq_true (by omega), Bool.or_true]
          rfl
        · rw [decide_eq_false (by omega), Bool.or_false]
          rfl
      | false =>
        rw [if_neg Bool.false_ne_true, bitAt_clear hBit _ (by omega)]
        split
        · rw [decide_eq_true (by omega), Bool.not_true, Bool.and_false]
          rfl
        · rw [decide_eq_false (by omega), Bool.not_false, Bool.and_true]
          rfl
    · rw [if_neg hSame, if_neg (by omega)]
      rfl
  · rw [if_neg hByte, if_neg hByte, if_neg (by omega)]
    rfl

variable {count : Nat}

theorem putBitsFrom_lays (h : Writing b) (hCount : count ≤ 64)
    (hInside : pos + count ≤ b.storage.length * 8) (value : UInt64) :
    ∃ storage, putBitsFrom b.storage pos value count = .ok storage ∧
      Lays b.shape (overBits pos value count) b { b with storage := storage } := by
  induction count generalizing pos b with
  | zero =>
    refine ⟨b.storage, rfl, h, rfl, fun j => ?_⟩
    rw [overBits_zero]
    rfl
  | succ i ih =>
    have hBit := putBit_lays h (show pos < b.storage.length * 8 by omega) ((value >>> UInt64.ofNat i) &&& 1 != 0)
    have hLength : (putBit b.storage pos ((value >>> UInt64.ofNat i) &&& 1 != 0)).length = b.storage.length :=
      List.length_modify ..
    obtain ⟨storage, hOk, hLays⟩ := ih hBit.writing (by omega) (show pos + 1 + i ≤ _ by simp only [hLength]; omega)
    refine ⟨storage, ?_, ?_⟩
    · rw [putBitsFrom, if_neg (by omega)]
      exact hOk
    · rw [← overBits_succ, ← test_word value (by omega)]
      rw [hBit.shape] at hLays
      exact hBit.trans hLays

theorem putBits_uniform (s : Shape) (pos : Nat) (value : UInt64) (count : Nat) :
    Uniform (fun b => b.putBits pos value count) s (fun s' laid => s' = s ∧ laid = overBits pos value count) := by
  by_cases hInside : pos + count ≤ s.length * 8 ∧ count ≠ 0
  · by_cases hCount : count ≤ 64
    · refine Or.inr ⟨_, _, ⟨rfl, rfl⟩, ?_⟩
      rintro b hb rfl
      obtain ⟨storage, hOk, hLays⟩ := putBitsFrom_lays hb hCount hInside.1 value
      refine ⟨_, ?_, hLays⟩
      refine (if_pos hInside).trans ?_
      rw [hOk]
      rfl
    · refine Or.inl ⟨.undefinedShift, ?_⟩
      rintro b hb rfl
      obtain ⟨i, rfl⟩ := Nat.exists_eq_succ_of_ne_zero hInside.2
      refine (if_pos hInside).trans ?_
      rw [putBitsFrom, if_pos (by omega)]
      rfl
  · refine Or.inl ⟨.assertion, ?_⟩
    rintro b hb rfl
    exact if_neg hInside

/-! ## Bits behind what was written -/

namespace Shape

def bit (s : Shape) : Option Shape :=
  if s.bitpos = 1 then if s.length < sizeLimit then some ⟨s.rpos, s.length + 1, 8⟩ else none
  else some ⟨s.rpos, s.length, s.bitpos - 1⟩

def bits (s : Shape) : Nat → Option Shape
  | 0 => some s
  | i + 1 => s.bit.bind fun next => next.bits i

theorem bit_end {s s' : Shape} (hSome : 0 < s.bitpos) (hFew : s.bitpos ≤ 8) (h : s.bit = some s') :
    s'.bitEnd = s.bitEnd + 1 ∧ s.length ≤ s'.length := by
  rw [bit] at h
  split at h
  · split at h
    · obtain rfl := Option.some.inj h
      simp only [bitEnd]
      omega
    · cases h
  · obtain rfl := Option.some.inj h
    simp only [bitEnd]
    omega

end Shape

theorem writeBit_lays (h : Writing b) (bit : Bool) (hNext : b.shape.bit = some s) :
    ∃ b', b.writeBit bit = .ok b' ∧ Lays s (overBit b.shape.bitEnd bit) b b' := by
  have hSome := h.some
  have hFew := h.few
  have hEnd : b.shape.bitEnd = 8 * b.storage.length + (8 - b.bitpos) := by
    simp only [Shape.bitEnd, shape]
    omega
  have hBits : ∀ j, bitAt ((b.storage ++ [b.withBit bit]).getD (j / 8) 0) (j % 8) =
      (overBit b.shape.bitEnd bit j).getD (b.bitOf j) := by
    intro j
    rw [bitOf, overBit, hEnd]
    rcases Nat.lt_trichotomy (j / 8) b.storage.length with hLess | hEq | hMore
    · rw [if_neg (by omega), List.getD_append _ _ _ _ hLess, List.getD_append _ _ _ _ hLess]
      rfl
    · rw [List.getD_append_right _ _ _ _ (by omega), List.getD_append_right _ _ _ _ (by omega), hEq, Nat.sub_self]
      change bitAt (b.withBit bit) (j % 8) = Option.getD _ (bitAt b.curbitval (j % 8))
      rw [h.bitAt_withBit bit (Nat.mod_lt _ (by decide))]
      split
      · rw [if_pos (by omega)]
        rfl
      · rw [if_neg (by omega)]
        rfl
    · rw [if_neg (by omega), List.getD_eq_default _ _ (by simp; omega), List.getD_eq_default _ _ (by simp; omega)]
      rfl
  rw [Shape.bit] at hNext
  have hWrite := h.writeBit_eq bit
  split at hNext
  · rename_i hLast
    split at hNext
    · rename_i hRoom
      obtain rfl := Option.some.inj hNext
      refine ⟨_, hWrite.trans ((if_pos hLast).trans (if_pos hRoom)), aligned_writing .., ?_, fun j => ?_⟩
      · rw [shape_aligned, List.length_append]
        rfl
      · rw [bitOf_aligned]
        exact hBits j
    · cases hNext
  · rename_i hLast
    obtain rfl := Option.some.inj hNext
    have hOk := hWrite.trans (if_neg hLast)
    exact ⟨_, hOk, h.writeBit hOk, rfl, hBits⟩

theorem writeBit_fails (h : Writing b) (bit : Bool) (hNext : b.shape.bit = none) :
    b.writeBit bit = .error .assertion := by
  rw [Shape.bit] at hNext
  split at hNext
  · rename_i hLast
    split at hNext
    · cases hNext
    · rename_i hFull
      exact (h.writeBit_eq bit).trans ((if_pos hLast).trans (if_neg hFull))
  · cases hNext

theorem writeBits_lays (h : Writing b) (hCount : count ≤ 64) (value : UInt64)
    (hNext : b.shape.bits count = some s) :
    (∃ b', b.writeBits value count = .ok b' ∧ Lays s (overBits b.shape.bitEnd value count) b b') ∧
      s.bitEnd = b.shape.bitEnd + count ∧ b.shape.length ≤ s.length := by
  induction count generalizing b with
  | zero =>
    obtain rfl := Option.some.inj hNext
    refine ⟨⟨b, rfl, h, rfl, fun j => ?_⟩, rfl, le_rfl⟩
    rw [overBits_zero]
    rfl
  | succ i ih =>
    obtain ⟨s₁, hBit, hRest⟩ := Option.bind_eq_some_iff.mp hNext
    obtain ⟨hEnd, hLength⟩ := Shape.bit_end h.some h.few hBit
    obtain ⟨b₁, hOk, hLays⟩ := writeBit_lays h ((value >>> UInt64.ofNat i) &&& 1 != 0) hBit
    obtain ⟨⟨b', hOk', hLays'⟩, hEnd', hLength'⟩ := ih hLays.writing (by omega) (by rwa [hLays.shape])
    rw [hLays.shape] at hLays' hEnd' hLength'
    refine ⟨⟨b', ?_, ?_⟩, by omega, by omega⟩
    · rw [ByteBuffer.writeBits, if_neg (by omega), hOk]
      exact hOk'
    · rw [← overBits_succ, ← test_word value (by omega), ← hEnd]
      exact hLays.trans hLays'

theorem writeBits_fails (h : Writing b) (hCount : count ≤ 64) (value : UInt64)
    (hNext : b.shape.bits count = none) : b.writeBits value count = .error .assertion := by
  induction count generalizing b with
  | zero => cases hNext
  | succ i ih =>
    rw [ByteBuffer.writeBits, if_neg (by omega)]
    cases hBit : b.shape.bit with
    | none =>
      rw [writeBit_fails h _ hBit]
      rfl
    | some s =>
      obtain ⟨b₁, hOk, hLays⟩ := writeBit_lays h ((value >>> UInt64.ofNat i) &&& 1 != 0) hBit
      rw [Shape.bits, hBit, ← hLays.shape] at hNext
      rw [hOk]
      exact ih hLays.writing (by omega) hNext

/-- An operation that fails where there is no next shape, and lays the same bits otherwise. -/
theorem uniform_of_next {next : Option Shape} {laid : Overlay}
    (hFails : next = none → ∀ b, Writing b → b.shape = s → op b = .error .assertion)
    (hLays : ∀ s', next = some s' → ∀ b, Writing b → b.shape = s → (∃ b', op b = .ok b' ∧ Lays s' laid b b') ∧ Q s' laid) :
    Uniform op s Q := by
  cases next with
  | none => exact Or.inl ⟨.assertion, hFails rfl⟩
  | some s' =>
    by_cases hSome : ∃ b, Writing b ∧ b.shape = s
    · obtain ⟨b, hb, hShape⟩ := hSome
      exact Or.inr ⟨s', laid, (hLays s' rfl b hb hShape).2, fun b' hb' hShape' => (hLays s' rfl b' hb' hShape').1⟩
    · exact Or.inl ⟨.assertion, fun b hb hShape => absurd ⟨b, hb, hShape⟩ hSome⟩

theorem writeBits_uniform (s : Shape) (value : UInt64) (count : Nat) : Uniform (fun b => b.writeBits value count) s
    (fun s' laid => s'.bitEnd = s.bitEnd + count ∧ s.length ≤ s'.length ∧ laid = overBits s.bitEnd value count) := by
  by_cases hCount : count ≤ 64
  · refine @uniform_of_next _ _ _ (s.bits count) (overBits s.bitEnd value count) ?_ ?_
    · rintro hNext b hb rfl
      exact writeBits_fails hb hCount value hNext
    · rintro s' hNext b hb rfl
      obtain ⟨hLays, hEnd, hLength⟩ := writeBits_lays hb hCount value hNext
      exact ⟨hLays, hEnd, hLength, rfl⟩
  · refine Or.inl ⟨.undefinedShift, fun b _ _ => ?_⟩
    obtain ⟨i, rfl⟩ := Nat.exists_eq_succ_of_ne_zero (show count ≠ 0 by omega)
    simp only [ByteBuffer.writeBits, if_pos (show 64 ≤ i by omega)]
    rfl

theorem writeBit_uniform (s : Shape) (bit : Bool) : Uniform (fun b => b.writeBit bit) s
    (fun s' laid => s'.bitEnd = s.bitEnd + 1 ∧ s.length ≤ s'.length ∧ laid = overBit s.bitEnd bit) := by
  refine @uniform_of_next _ _ _ s.bit (overBit s.bitEnd bit) ?_ ?_
  · rintro hNext b hb rfl
    exact writeBit_fails hb bit hNext
  · rintro s' hNext b hb rfl
    obtain ⟨hEnd, hLength⟩ := Shape.bit_end hb.some hb.few hNext
    exact ⟨writeBit_lays hb bit hNext, hEnd, hLength, rfl⟩

/-! ## What a call does to a field -/

/-- Data that is written behind the buffer, or put over bits outside of the field. -/
def WriteCall.Outside (p n : Nat) : WriteCall → Prop
  | .put pos src => (pos + src.length) * 8 ≤ p ∨ p + n ≤ pos * 8
  | .putBits pos _ count => pos + count ≤ p ∨ p + n ≤ pos
  | .resize _ => False
  | .clear => False
  | _ => True

/-- The mask of a packed integer goes over the byte behind the complete ones. -/
def overField (s : Shape) : WriteCall → Overlay
  | .packed value => fun j => if j / 8 = s.length then some (bitAt (packUInt64 value).1 (j % 8)) else none
  | _ => fun _ => none

theorem overField_packed (s : Shape) (guid : UInt64) (j : Nat) : overField s (.packed guid) j =
    if j / 8 = s.length then some (bitAt (packUInt64 guid).1 (j % 8)) else none := rfl

def WriteCall.IsPacked : WriteCall → Prop
  | .packed _ => True
  | _ => False

structure Spares (p n : Nat) (c : WriteCall) (s s' : Shape) (laid : Overlay) : Prop where
  behind : p + n ≤ s'.bitEnd
  settled : c.IsPacked ∨ p + n ≤ s.length * 8 → p + n ≤ s'.length * 8
  field : ∀ j, p ≤ j → j < p + n → laid j = overField s c j

theorem Shape.bitEnd_le (s : Shape) : s.bitEnd ≤ s.flushedLength * 8 := by
  rw [bitEnd, flushedLength]
  split <;> omega

theorem Shape.length_le (s : Shape) : s.length ≤ s.flushedLength := by
  rw [flushedLength]
  split <;> omega

theorem overBytes_none {start : Nat} {src : List UInt8} {j : Nat}
    (h : j < start * 8 ∨ (start + src.length) * 8 ≤ j) : overBytes start src j = none := by
  rw [overBytes, if_neg (by omega)]

variable {value : UInt64}

theorem overBits_none {start : Nat} {j : Nat} (h : j < start ∨ start + count ≤ j) :
    overBits start value count j = none := by
  rw [overBits, if_neg (by omega)]

structure Passes (p n : Nat) (s : Shape) (laid : Overlay) : Prop where
  settled : p + n ≤ s.length * 8
  aligned : s.bitEnd = s.length * 8
  field : ∀ j, p ≤ j → j < p + n → laid j = none

variable {p n : Nat}

theorem append_passes (hEnd : p + n ≤ s.bitEnd) (src : List UInt8) :
    Uniform (fun b => b.append src) s (Passes p n) := by
  refine (append_uniform s src).mono ?_
  rintro s' laid ⟨rfl, rfl⟩
  have hBehind := s.bitEnd_le
  refine ⟨by simp only; omega, by simp only [Shape.bitEnd]; omega, fun j _ hj => ?_⟩
  exact overBytes_none (Or.inl (by omega))

theorem appendPacked_passes (hSettled : p + n ≤ s.length * 8) (hAligned : s.bitEnd = s.length * 8)
    (packed : List UInt8) : Uniform (fun b => b.appendPacked packed) s (Passes p n) := by
  by_cases hNone : packed = []
  · subst hNone
    exact uniform_pure ⟨hSettled, hAligned, fun _ _ _ => rfl⟩
  · simp only [appendPacked, if_neg hNone]
    exact append_passes (by omega) packed

theorem packed_spares (hEnd : p + n ≤ s.bitEnd) (value : UInt64) :
    Uniform (fun b => b.call (.packed value)) s (Spares p n (.packed value) s) := by
  have hBytes : Uniform (fun b => b.append [0] >>= fun appended =>
      appended.appendPacked (packUInt64 value).2 >>= fun packed => packed.put s.length [(packUInt64 value).1]) s
      (Spares p n (.packed value) s) := by
    refine (append_passes hEnd [0]).bind fun s₁ laid₁ hFirst => ?_
    refine (appendPacked_passes hFirst.settled hFirst.aligned _).bind fun s₂ laid₂ hSecond => ?_
    refine (put_uniform s₂ s.length _).mono ?_
    rintro s' laid ⟨rfl, rfl⟩
    refine ⟨?_, fun _ => hSecond.settled, fun j hp hj => ?_⟩
    · rw [hSecond.aligned]
      exact hSecond.settled
    · rw [Overlay.onto, Overlay.onto, hFirst.field j hp hj, hSecond.field j hp hj, Option.or_none, Option.or_none,
        overBytes, overField_packed]
      by_cases hByte : j / 8 = s.length
      · rw [if_pos ⟨hByte.ge, by simp only [List.length_singleton]; omega⟩, if_pos hByte, hByte, Nat.sub_self]
        rfl
      · rw [if_neg (by simp only [List.length_singleton]; omega), if_neg hByte]
  refine hBytes.congr ?_
  rintro b hb rfl
  change b.appendPackedUInt64 value = _
  rw [appendPackedUInt64, hb.wpos]
  rfl

theorem call_spares (hEnd : p + n ≤ s.bitEnd) {c : WriteCall} (hOutside : c.Outside p n) :
    Uniform (fun b => b.call c) s (Spares p n c s) := by
  have hBehind := s.bitEnd_le
  have hLength := s.length_le
  cases c with
  | bit value =>
    refine (writeBit_uniform s value).mono ?_
    rintro s' laid ⟨hNext, hLonger, rfl⟩
    exact ⟨by omega, fun h => by have := h.resolve_left id; omega, fun j _ hj => if_neg (by omega)⟩
  | bits value count =>
    refine (writeBits_uniform s value count).mono ?_
    rintro s' laid ⟨hNext, hLonger, rfl⟩
    exact ⟨by omega, fun h => by have := h.resolve_left id; omega, fun j _ hj => overBits_none (Or.inl (by omega))⟩
  | append src =>
    exact (append_passes hEnd src).mono fun s' laid h => ⟨h.aligned.symm ▸ h.settled, fun _ => h.settled, h.field⟩
  | string str =>
    by_cases hNone : str = []
    · subst hNone
      exact uniform_pure ⟨hEnd, fun h => h.resolve_left id, fun _ _ _ => rfl⟩
    · have hAppend : ∀ b : ByteBuffer, b.call (.string str) = b.append str := fun b => if_neg hNone
      simp only [hAppend]
      exact (append_passes hEnd str).mono fun s' laid h => ⟨h.aligned.symm ▸ h.settled, fun _ => h.settled, h.field⟩
  | packed value => exact packed_spares hEnd value
  | flush =>
    refine (flushBits_uniform s).mono ?_
    rintro s' laid ⟨rfl, rfl⟩
    exact ⟨by simp only [Shape.bitEnd]; omega, fun _ => by simp only; omega, fun _ _ _ => rfl⟩
  | put pos src =>
    refine (put_uniform s pos src).mono ?_
    rintro s' laid ⟨rfl, rfl⟩
    have hApart : (pos + src.length) * 8 ≤ p ∨ p + n ≤ pos * 8 := hOutside
    exact ⟨hEnd, fun h => h.resolve_left id, fun j _ _ => overBytes_none (by omega)⟩
  | putBits pos value count =>
    refine (putBits_uniform s pos value count).mono ?_
    rintro s' laid ⟨rfl, rfl⟩
    have hApart : pos + count ≤ p ∨ p + n ≤ pos := hOutside
    exact ⟨hEnd, fun h => h.resolve_left id, fun j _ _ => overBits_none (by omega)⟩
  | resize newsize => exact hOutside.elim
  | clear => exact hOutside.elim

/-! ## Two buffers that differ in a field -/

/-- The buffers have one shape and the same bits outside of the field. -/
structure Alike (p n : Nat) (b d : ByteBuffer) : Prop where
  left : Writing b
  right : Writing d
  shape : b.shape = d.shape
  behind : p + n ≤ d.shape.bitEnd
  outside : ∀ j, j < p ∨ p + n ≤ j → b.bitOf j = d.bitOf j

/-- Both fail alike, or the buffers still differ in the field at most. -/
def BothAlike (p n : Nat) (x y : Except ByteBufferError ByteBuffer) : Prop :=
  (∃ e, x = .error e ∧ y = .error e) ∨ ∃ b d, x = .ok b ∧ y = .ok d ∧ Alike p n b d

theorem BothAlike.bind {x y : Except ByteBufferError ByteBuffer}
    {f : ByteBuffer → Except ByteBufferError ByteBuffer} (h : BothAlike p n x y)
    (hNext : ∀ b d, Alike p n b d → BothAlike p n (f b) (f d)) : BothAlike p n (x >>= f) (y >>= f) := by
  rcases h with ⟨e, rfl, rfl⟩ | ⟨b, d, rfl, rfl, hAlike⟩
  · exact Or.inl ⟨e, rfl, rfl⟩
  · exact hNext b d hAlike

variable {d : ByteBuffer}

theorem call_alike (h : Alike p n b d) {c : WriteCall} (hOutside : c.Outside p n) :
    BothAlike p n (b.call c) (d.call c) := by
  rcases call_spares h.behind hOutside with ⟨e, hError⟩ | ⟨s', laid, hSpares, hLays⟩
  · exact Or.inl ⟨e, hError b h.left h.shape, hError d h.right rfl⟩
  · obtain ⟨b', hOk, hLaysB⟩ := hLays b h.left h.shape
    obtain ⟨d', hOk', hLaysD⟩ := hLays d h.right rfl
    refine Or.inr ⟨b', d', hOk, hOk', hLaysB.writing, hLaysD.writing, hLaysB.shape.trans hLaysD.shape.symm, ?_, ?_⟩
    · rw [hLaysD.shape]
      exact hSpares.behind
    · intro j hj
      rw [hLaysB.bits, hLaysD.bits, h.outside j hj]

theorem callAll_alike {calls : List WriteCall} (hOutside : ∀ c ∈ calls, c.Outside p n)
    (h : Alike p n b d) : BothAlike p n (b.callAll calls) (d.callAll calls) := by
  induction calls generalizing b d with
  | nil => exact Or.inr ⟨b, d, rfl, rfl, h⟩
  | cons c calls ih =>
    obtain ⟨hFirst, hRest⟩ := List.forall_mem_cons.mp hOutside
    rw [callAll, callAll, List.foldlM_cons, List.foldlM_cons]
    exact (call_alike h hFirst).bind fun b' d' hAlike => ih hRest hAlike

/-! ## A field that is written at once -/

def Intact (p n : Nat) (value : UInt64) (b : ByteBuffer) : Prop :=
  ∀ i < n, b.bitOf (p + i) = value.toNat.testBit (n - 1 - i)

/-- The mask of a packed integer has the bits of the field where it goes over them. -/
def MaskAgrees (p n : Nat) (value : UInt64) (b : ByteBuffer) : WriteCall → Prop
  | .packed guid => ∀ i < n, (p + i) / 8 = b.storage.length →
      bitAt (packUInt64 guid).1 ((p + i) % 8) = value.toNat.testBit (n - 1 - i)
  | _ => True

instance (p n : Nat) (value : UInt64) (b : ByteBuffer) : (c : WriteCall) → Decidable (MaskAgrees p n value b c)
  | .packed _ => inferInstanceAs (Decidable (∀ i < n, _ → _ = _))
  | .bit _ | .bits _ _ | .append _ | .string _ | .flush | .put _ _ | .putBits _ _ _ | .resize _ | .clear =>
    inferInstanceAs (Decidable True)

def MasksAgree (p n : Nat) (value : UInt64) : ByteBuffer → List WriteCall → Prop
  | _, [] => True
  | b, c :: calls => MaskAgrees p n value b c ∧ ∀ b', b.call c = .ok b' → MasksAgree p n value b' calls

section

variable {p n : Nat} {value : UInt64} {d : ByteBuffer}

variable {d' : ByteBuffer}

theorem call_bits (h : Writing d) (hEnd : p + n ≤ d.shape.bitEnd) {c : WriteCall} (hOutside : c.Outside p n)
    (hOk : d.call c = .ok d') :
    Writing d' ∧ p + n ≤ d'.shape.bitEnd ∧ (c.IsPacked ∨ p + n ≤ d.storage.length * 8 → p + n ≤ d'.storage.length * 8) ∧
      ∀ i < n, d'.bitOf (p + i) = (overField d.shape c (p + i)).getD (d.bitOf (p + i)) := by
  rcases call_spares hEnd hOutside with ⟨e, hError⟩ | ⟨s', laid, hSpares, hLays⟩
  · cases (hError d h rfl).symm.trans hOk
  · obtain ⟨d₁, hOk', hLaysD⟩ := hLays d h rfl
    obtain rfl := Except.ok.inj (hOk'.symm.trans hOk)
    have hShape := hLaysD.shape
    refine ⟨hLaysD.writing, hShape ▸ hSpares.behind, fun hSettled => ?_, fun i hi => ?_⟩
    · have hAfter := hSpares.settled hSettled
      rwa [← hShape] at hAfter
    · rw [hLaysD.bits, hSpares.field _ (by omega) (by omega)]

theorem settled_stays (value : UInt64) {calls : List WriteCall} (h : Writing d) (hEnd : p + n ≤ d.shape.bitEnd)
    (hSettled : p + n ≤ d.storage.length * 8) (hOutside : ∀ c ∈ calls, c.Outside p n)
    (hOk : d.callAll calls = .ok d') :
    (Intact p n value d' ↔ Intact p n value d) ∧ MasksAgree p n value d calls := by
  induction calls generalizing d with
  | nil =>
    obtain rfl := Except.ok.inj hOk
    exact ⟨Iff.rfl, trivial⟩
  | cons c calls ih =>
    obtain ⟨hFirst, hRest⟩ := List.forall_mem_cons.mp hOutside
    obtain ⟨d₁, hCall, hCalls⟩ := callAll_cons.mp hOk
    obtain ⟨hWriting, hBehind, hStill, hBits⟩ := call_bits h hEnd hFirst hCall
    obtain ⟨hIntact, hAgree⟩ := ih hWriting hBehind (hStill (Or.inr hSettled)) hRest hCalls
    have hSame : ∀ i < n, d₁.bitOf (p + i) = d.bitOf (p + i) := by
      intro i hi
      have hByte : (p + i) / 8 ≠ d.shape.length := by
        change (p + i) / 8 ≠ d.storage.length
        omega
      have hNone : overField d.shape c (p + i) = none := by
        cases c <;> first | rfl | exact if_neg hByte
      rw [hBits i hi, hNone, Option.getD_none]
    refine ⟨hIntact.trans (forall₂_congr fun i hi => by rw [hSame i hi]), ?_, fun b' hOk' => ?_⟩
    · cases c with
      | packed guid => exact fun i hi hByte => absurd hByte (by omega)
      | _ => trivial
    · rw [hCall] at hOk'
      obtain rfl := Except.ok.inj hOk'
      exact hAgree

theorem intact_iff {calls : List WriteCall} (h : Writing d) (hEnd : p + n ≤ d.shape.bitEnd)
    (hIntact : Intact p n value d) (hOutside : ∀ c ∈ calls, c.Outside p n)
    (hOk : d.callAll calls = .ok d') : Intact p n value d' ↔ MasksAgree p n value d calls := by
  induction calls generalizing d with
  | nil =>
    obtain rfl := Except.ok.inj hOk
    exact ⟨fun _ => trivial, fun _ => hIntact⟩
  | cons c calls ih =>
    obtain ⟨hFirst, hRest⟩ := List.forall_mem_cons.mp hOutside
    obtain ⟨d₁, hCall, hCalls⟩ := callAll_cons.mp hOk
    obtain ⟨hWriting, hBehind, hStill, hBits⟩ := call_bits h hEnd hFirst hCall
    have hNext : ∀ P : ByteBuffer → Prop, (∀ b', d.call c = .ok b' → P b') ↔ P d₁ := by
      intro P
      rw [hCall]
      exact ⟨fun hAll => hAll _ rfl, fun hP b' hOk' => Except.ok.inj hOk' ▸ hP⟩
    rw [MasksAgree, hNext]
    by_cases hPacked : c.IsPacked
    · have hSettled := settled_stays value hWriting hBehind (hStill (Or.inl hPacked)) hRest hCalls
      rw [hSettled.1, and_iff_left hSettled.2]
      cases c with
      | packed guid =>
        refine forall₂_congr fun i hi => ?_
        rw [hBits i hi, overField_packed]
        by_cases hByte : (p + i) / 8 = d.shape.length
        · rw [if_pos hByte, Option.getD_some]
          exact ⟨fun hBit _ => hBit, fun hBit => hBit hByte⟩
        · rw [if_neg hByte, Option.getD_none]
          exact ⟨fun _ hSame => absurd hSame hByte, fun _ => hIntact i hi⟩
      | _ => exact hPacked.elim
    · have hNone : overField d.shape c = fun _ => none := by
        cases c <;> first | rfl | exact absurd trivial hPacked
      have hAgrees : MaskAgrees p n value d c := by
        cases c with
        | packed guid => exact absurd trivial hPacked
        | _ => trivial
      rw [and_iff_right hAgrees]
      refine ih hWriting hBehind (fun i hi => ?_) hRest hCalls
      rw [hBits i hi, hNone]
      exact hIntact i hi

end

/-! ## Patching later and writing at once -/

/-- Zeros are written for the field, and its value is put over them at the end. -/
def backPatched (b : ByteBuffer) (value : UInt64) (n : Nat) (further : List WriteCall) :
    Except ByteBufferError ByteBuffer := do
  let reserved ← b.writeBits 0 n
  let written ← reserved.callAll further
  let complete ← written.flushBits
  complete.putBits b.bitwpos value n

def writtenAtOnce (b : ByteBuffer) (value : UInt64) (n : Nat) (further : List WriteCall) :
    Except ByteBufferError ByteBuffer := do
  let direct ← b.writeBits value n
  let written ← direct.callAll further
  written.flushBits

/-- Both ways give one buffer, or fail alike, and putting the field changes no bit outside of it. -/
def BackPatches (b : ByteBuffer) (value : UInt64) (n : Nat) (further : List WriteCall) : Prop :=
  b.backPatched value n further = b.writtenAtOnce value n further ∧
    ∀ w w' : ByteBuffer, Reachable w → w.putBits b.bitwpos value n = .ok w' →
      w'.storage.length = w.storage.length ∧ ∀ j, j < b.bitwpos ∨ b.bitwpos + n ≤ j → w'.bitOf j = w.bitOf j

/-- When the writes meet their assertions, no mask of a packed integer changes the field. -/
def FieldSpared (b : ByteBuffer) (value : UInt64) (n : Nat) (further : List WriteCall) : Prop :=
  (b.writtenAtOnce value n further).isOk →
    ∀ direct, b.writeBits value n = .ok direct → MasksAgree b.bitwpos n value direct further

theorem putBits_lays {b' : ByteBuffer} (h : Writing b)
    (hOk : b.putBits pos value count = .ok b') : Lays b.shape (overBits pos value count) b b' := by
  rcases putBits_uniform b.shape pos value count with ⟨e, hError⟩ | ⟨s', laid, ⟨rfl, rfl⟩, hLays⟩
  · cases (hError b h rfl).symm.trans hOk
  · obtain ⟨b₁, hOk', hLays⟩ := hLays b h rfl
    obtain rfl := Except.ok.inj (hOk'.symm.trans hOk)
    exact hLays

theorem putBits_outside {w w' : ByteBuffer} (h : Writing w)
    (hOk : w.putBits pos value count = .ok w') :
    w'.storage.length = w.storage.length ∧ ∀ j, j < pos ∨ pos + count ≤ j → w'.bitOf j = w.bitOf j := by
  have hLays := putBits_lays h hOk
  refine ⟨congrArg Shape.length hLays.shape, fun j hj => ?_⟩
  rw [hLays.bits, overBits_none hj, Option.getD_none]

theorem flushed_alike (h : Alike p n b d) (value : UInt64) :
    (∃ e, b.flushBits = .error e ∧ d.flushBits = .error e) ∨
    ∃ b' d', b.flushBits = .ok b' ∧ d.flushBits = .ok d' ∧ Alike p n b' d' ∧ p + n ≤ d'.storage.length * 8 ∧
      (Intact p n value d' ↔ Intact p n value d) := by
  rcases call_alike h (c := .flush) trivial with hError | ⟨b', d', hOk, hOk', hAlike⟩
  · exact Or.inl hError
  · have hFlush : d.flushBits = .ok d' := hOk'
    rw [h.right.flushBits_eq] at hFlush
    split at hFlush
    · obtain rfl := Except.ok.inj hFlush
      refine Or.inr ⟨b', _, hOk, hOk', hAlike, ?_, ?_⟩
      · have hEnd := hAlike.behind
        simp only [Shape.bitEnd, shape_aligned] at hEnd
        change p + n ≤ d.flushed.length * 8
        omega
      · refine forall₂_congr fun i _ => ?_
        rw [bitOf_aligned, h.right.bitOf_eq]
    · cases hFlush

theorem patched_iff (h : Alike p n b d) (hCount : 0 < n ∧ n ≤ 64)
    (hSettled : p + n ≤ d.storage.length * 8) (value : UInt64) :
    b.putBits p value n = .ok d ↔ Intact p n value d := by
  have hLength : b.storage.length = d.storage.length := congrArg Shape.length h.shape
  have hInside : p + n ≤ b.size * 8 ∧ n ≠ 0 := ⟨by rw [size, hLength]; exact hSettled, hCount.1.ne'⟩
  obtain ⟨storage, hPut, hLays⟩ := putBitsFrom_lays h.left hCount.2 hInside.1 value
  have hOk : b.putBits p value n = .ok { b with storage := storage } := by
    refine (if_pos hInside).trans ?_
    rw [hPut]
    rfl
  have hField : ∀ i < n, ({ b with storage := storage } : ByteBuffer).bitOf (p + i) = value.toNat.testBit (n - 1 - i) := by
    intro i hi
    rw [hLays.bits, overBits, if_pos ⟨by omega, by omega⟩, Option.getD_some]
    congr 1
    omega
  rw [hOk]
  constructor
  · intro hEq
    obtain rfl := Except.ok.inj hEq
    exact hField
  · intro hIntact
    refine congrArg Except.ok (eq_of_bits hLays.writing h.right (hLays.shape.trans h.shape) fun j => ?_)
    by_cases hj : j < p ∨ p + n ≤ j
    · rw [hLays.bits, overBits_none hj, Option.getD_none, h.outside j hj]
    · obtain ⟨i, rfl⟩ := Nat.exists_eq_add_of_le (show p ≤ j by omega)
      rw [hField i (by omega), hIntact i (by omega)]

/-- A field that is patched later is as if it had been written at once exactly when no mask of a
packed integer changes it. -/
theorem backPatches_iff {b : ByteBuffer} (h : Reachable b) (value : UInt64) {n : Nat} (hCount : 0 < n ∧ n ≤ 64)
    {further : List WriteCall} (hOutside : ∀ c ∈ further, c.Outside b.bitwpos n) :
    BackPatches b value n further ↔ FieldSpared b value n further := by
  have hWriting := h.writing
  have hFrame : ∀ w w' : ByteBuffer, Reachable w → w.putBits b.bitwpos value n = .ok w' →
      w'.storage.length = w.storage.length ∧ ∀ j, j < b.bitwpos ∨ b.bitwpos + n ≤ j → w'.bitOf j = w.bitOf j :=
    fun w w' hw hOk => putBits_outside hw.writing hOk
  rw [BackPatches, and_iff_left hFrame, FieldSpared, backPatched, writtenAtOnce]
  cases hNext : b.shape.bits n with
  | none =>
    rw [writeBits_fails hWriting hCount.2 _ hNext, writeBits_fails hWriting hCount.2 _ hNext]
    exact ⟨(fun _ hOk => nomatch hOk), fun _ => rfl⟩
  | some s =>
    obtain ⟨⟨reserved, hReserved, hLaysR⟩, hEnd, -⟩ := writeBits_lays hWriting hCount.2 0 hNext
    obtain ⟨⟨direct, hDirect, hLaysD⟩, -, -⟩ := writeBits_lays hWriting hCount.2 value hNext
    rw [← hWriting.bitwpos_eq] at hLaysR hLaysD hEnd
    have hAlike : Alike b.bitwpos n reserved direct := by
      refine ⟨hLaysR.writing, hLaysD.writing, hLaysR.shape.trans hLaysD.shape.symm, ?_, fun j hj => ?_⟩
      · rw [hLaysD.shape]
        exact hEnd.ge
      · rw [hLaysR.bits, hLaysD.bits, overBits_none hj, overBits_none hj]
    have hIntact : Intact b.bitwpos n value direct := by
      intro i hi
      rw [hLaysD.bits, overBits, if_pos ⟨by omega, by omega⟩, Option.getD_some]
      congr 1
      omega
    rw [hReserved, hDirect]
    change (reserved.callAll further >>= _) = (direct.callAll further >>= _) ↔ ((direct.callAll further >>= _).isOk → _)
    rcases callAll_alike hOutside hAlike with ⟨e, hError, hError'⟩ | ⟨b₁, d₁, hOk, hOk', hAlike'⟩
    · rw [hError, hError']
      exact ⟨(fun _ hOk => nomatch hOk), fun _ => rfl⟩
    · rw [hOk, hOk']
      have hAgree := intact_iff hAlike.right hAlike.behind hIntact hOutside hOk'
      change (b₁.flushBits >>= _) = d₁.flushBits ↔ (d₁.flushBits.isOk → _)
      rcases flushed_alike hAlike' value with ⟨e, hError, hError'⟩ | ⟨b₂, d₂, hFlush, hFlush', hSame, hSettled, hKept⟩
      · rw [hError, hError']
        exact ⟨(fun _ hOk => nomatch hOk), fun _ => rfl⟩
      · rw [hFlush, hFlush']
        change b₂.putBits b.bitwpos value n = .ok d₂ ↔ _
        rw [patched_iff hSame hCount hSettled, hKept, hAgree]
        exact ⟨fun hMasks _ d hEq => Except.ok.inj hEq ▸ hMasks, fun hAll => hAll rfl direct rfl⟩

theorem length_patched_later : BackPatches oneBit 5 11 [.append [1, 2], .packed 7] :=
  (backPatches_iff ⟨[.bit true], rfl⟩ 5 (by decide) (by simp [WriteCall.Outside])).mpr fun _ direct hDirect => by
    obtain rfl := Except.ok.inj hDirect
    refine ⟨trivial, fun next hNext => ?_⟩
    obtain rfl := Except.ok.inj hNext
    exact ⟨of_decide_eq_true rfl, fun _ _ => trivial⟩

/-- A packed integer behind three reserved bits. -/
theorem packed_behind_field : Reachable empty ∧ ¬ BackPatches empty 5 3 [.packed 1] := by
  refine ⟨⟨[], rfl⟩, ?_⟩
  rintro ⟨hEq, -⟩
  exact absurd hEq (by decide)

end AshamaneCore.ByteBuffer
