import AshamaneCore.Library.PackedBytes
import AshamaneCore.Shared.ByteBufferCalls

/-!
# Packed integers

A packed integer is a mask with the bytes that are not zero behind it. The mask
is put where the writer stood before the pending bits were flushed, so it lands
on their byte when there are any.
-/

namespace AshamaneCore.ByteBuffer

open ByteBufferRoundtrip Library.Bits Library.Bytes Library.PackedBytes

def wordBytes (value : UInt64) : List UInt8 := leBytes 8 value.toNat

theorem leNat_wordBytes (value : UInt64) : leNat (wordBytes value) = value.toNat := by
  rw [wordBytes, leNat_leBytes]
  exact Nat.mod_eq_of_lt value.toNat_lt

/-! ## Packing -/

theorem low_byte_toNat (value : UInt64) : (value &&& 0xFF).toNat = value.toNat % 256 := by
  have hMask : (0xFF : UInt64).toNat = 2 ^ 8 - 1 := rfl
  rw [UInt64.toNat_and, hMask, Nat.and_two_pow_sub_one_eq_mod]

theorem low_byte (value : UInt64) : (value &&& 0xFF).toUInt8 = UInt8.ofNat value.toNat := by
  apply UInt8.toNat_inj.mp
  rw [UInt64.toNat_toUInt8, low_byte_toNat, UInt8.toNat_ofNat']
  omega

theorem low_byte_ne_zero (value : UInt64) : value &&& 0xFF ≠ 0 ↔ UInt8.ofNat value.toNat ≠ 0 := by
  rw [ne_eq, ne_eq, ← UInt64.toNat_inj, ← UInt8.toNat_inj, low_byte_toNat, UInt8.toNat_ofNat']
  rfl

theorem shift_byte (value : UInt64) : (value >>> 8).toNat = value.toNat / 256 := by
  rw [UInt64.toNat_shiftRight, Nat.shiftRight_eq_div_pow]
  rfl

theorem leBytes_zero (rounds : Nat) : mask (leBytes rounds 0) = 0 ∧ nonzero (leBytes rounds 0) = [] := by
  have hZero : leNat (leBytes rounds 0) = 0 := by
    rw [leNat_leBytes, Nat.zero_mod]
  exact ⟨mask_eq_zero.mpr hZero, nonzero_eq_nil.mpr hZero⟩

theorem packFrom_eq (rounds : Nat) (found : UInt8) (result : List UInt8) (value : UInt64) (i : Nat)
    (hRounds : i + rounds ≤ 8) (hFound : found.toNat < 2 ^ i) :
    packFrom found result value i rounds =
      (UInt8.ofNat (found.toNat + mask (leBytes rounds value.toNat) * 2 ^ i),
        result ++ nonzero (leBytes rounds value.toNat)) := by
  induction rounds generalizing found result value i with
  | zero =>
    rw [packFrom, leBytes, mask, nonzero_nil, Nat.zero_mul, Nat.add_zero, List.append_nil, UInt8.ofNat_toNat]
  | succ rounds ih =>
    rw [packFrom]
    split
    · rename_i hZero
      obtain ⟨hMask, hBytes⟩ := leBytes_zero (rounds + 1)
      rw [hZero, UInt64.toNat_zero, hMask, hBytes, Nat.zero_mul, Nat.add_zero, List.append_nil, UInt8.ofNat_toNat]
    · rw [leBytes, ← shift_byte]
      split
      · rename_i hByte
        have hSet : (found ||| UInt8.ofNat (1 <<< i)).toNat = found.toNat + 2 ^ i := by
          have hOr := or_byte 1 hFound
          rw [Nat.one_mul] at hOr
          rw [UInt8.toNat_or, one_shiftLeft_toNat8 (by omega), hOr]
        have hNext : (found ||| UInt8.ofNat (1 <<< i)).toNat < 2 ^ (i + 1) := by
          rw [hSet, Nat.pow_succ]
          omega
        rw [ih _ _ _ _ (by omega) hNext, hSet, low_byte, mask_cons ((low_byte_ne_zero value).mp hByte),
          nonzero_cons ((low_byte_ne_zero value).mp hByte), List.append_assoc, List.singleton_append]
        congr 2
        rw [Nat.pow_succ]
        ring
      · rename_i hByte
        have hZero : UInt8.ofNat value.toNat = 0 := by
          by_contra hSome
          exact hByte ((low_byte_ne_zero value).mpr hSome)
        have hNext : found.toNat < 2 ^ (i + 1) := by
          rw [Nat.pow_succ]
          omega
        rw [ih _ _ _ _ (by omega) hNext, hZero, mask_cons_zero, nonzero_zero]
        congr 2
        rw [Nat.pow_succ]
        ring

theorem packUInt64_eq (value : UInt64) :
    packUInt64 value = (UInt8.ofNat (mask (wordBytes value)), nonzero (wordBytes value)) := by
  rw [packUInt64, packFrom_eq 8 0 [] value 0 (by decide) (by decide)]
  simp only [UInt8.toNat_zero, Nat.pow_zero, Nat.mul_one, Nat.zero_add, List.nil_append, wordBytes]

theorem mask_toNat (value : UInt64) : (UInt8.ofNat (mask (wordBytes value))).toNat = mask (wordBytes value) := by
  have hLt := mask_lt (wordBytes value)
  rw [wordBytes, leBytes_length] at hLt
  exact UInt8.toNat_ofNat_of_lt' hLt

/-! ## Unpacking -/

theorem readUInt8_next (before rest : List UInt8) {R : ByteBuffer} {byte : UInt8}
    (hStorage : R.storage = before ++ byte :: rest) (hStart : R.rpos = before.length) :
    ∃ R', R.readUInt8 = .ok (byte, R') ∧ R'.storage = R.storage ∧ R'.rpos = (before ++ [byte]).length := by
  have hByte : R.storage[R.rpos]? = some byte := by
    rw [hStorage, hStart]
    simp
  refine ⟨_, readUInt8_ok hByte, reset_storage R, ?_⟩
  rw [List.length_append, List.length_singleton, hStart]

theorem readPackedFrom_ok (found : UInt8) (bytes : List UInt8) (before rest : List UInt8) (value : UInt64)
    (R : ByteBuffer) (i : Nat) (hRounds : i + bytes.length ≤ 8)
    (hMask : ∀ j < bytes.length, found.toNat.testBit (i + j) = (mask bytes).testBit j)
    (hStorage : R.storage = before ++ nonzero bytes ++ rest) (hStart : R.rpos = before.length) :
    ∃ R', readPackedFrom found value R i bytes.length =
        .ok (UInt64.ofNat (value.toNat ||| leNat bytes * 2 ^ (8 * i)), R') ∧
      R'.storage = R.storage ∧ R'.rpos = before.length + (nonzero bytes).length := by
  induction bytes generalizing before value R i with
  | nil =>
    refine ⟨R, ?_, rfl, hStart⟩
    rw [List.length_nil, readPackedFrom, leNat, Nat.zero_mul, Nat.or_zero, UInt64.ofNat_toNat]
  | cons b bytes ih =>
    rw [List.length_cons] at hRounds
    have hHead := hMask 0 (Nat.succ_pos _)
    have hTail : ∀ j < bytes.length, found.toNat.testBit (i + 1 + j) = (mask bytes).testBit j := by
      intro j hj
      have hBit := hMask (j + 1) (Nat.succ_lt_succ hj)
      rw [testBit_mask, List.getD_cons_succ, ← testBit_mask] at hBit
      rw [← hBit]
      congr 1
      omega
    rw [testBit_mask, List.getD_cons_zero, Nat.add_zero] at hHead
    have hTest : found &&& UInt8.ofNat (1 <<< i) ≠ 0 ↔ found.toNat.testBit i = true := by
      rw [ne_eq, ← UInt8.toNat_inj, UInt8.toNat_and, one_shiftLeft_toNat8 (by omega), Nat.and_two_pow,
        UInt8.toNat_zero, Nat.mul_eq_zero]
      cases found.toNat.testBit i <;> simp
    rw [List.length_cons, readPackedFrom]
    by_cases hZero : b = 0
    · subst hZero
      rw [if_neg (by rw [hTest, hHead]; simp)]
      obtain ⟨R', hRead, hKept, hEnd⟩ := ih before value R (i + 1) (by omega) hTail hStorage hStart
      refine ⟨R', ?_, hKept, hEnd⟩
      rw [hRead, leNat_cons_shift, UInt8.toNat_zero, Nat.zero_mul, Nat.zero_or]
    · rw [if_pos (by rw [hTest, hHead]; simpa using hZero)]
      rw [nonzero_cons hZero] at hStorage
      obtain ⟨R₁, hByte, hKept₁, hStart₁⟩ := readUInt8_next before (nonzero bytes ++ rest)
        (show R.storage = before ++ b :: (nonzero bytes ++ rest) by rw [hStorage]; simp) hStart
      have hNext : R₁.storage = (before ++ [b]) ++ nonzero bytes ++ rest := by
        rw [hKept₁, hStorage]
        simp
      obtain ⟨R', hRead, hKept, hEnd⟩ := ih (before ++ [b]) (value ||| b.toUInt64 <<< UInt64.ofNat (i * 8)) R₁ (i + 1)
        (by omega) hTail hNext hStart₁
      refine ⟨R', ?_, hKept.trans hKept₁, ?_⟩
      · rw [hByte]
        refine hRead.trans ?_
        have hShift : (b.toUInt64 <<< UInt64.ofNat (i * 8)).toNat = b.toNat * 2 ^ (8 * i) := by
          have hSmall : i * 8 < 64 := by omega
          have hWord : i * 8 < UInt64.size := lt_trans hSmall (by decide)
          have hFits : b.toNat * 2 ^ (8 * i) < 2 ^ 64 := by
            have hUp : b.toNat * 2 ^ (8 * i) < 2 ^ 8 * 2 ^ (8 * i) :=
              Nat.mul_lt_mul_of_pos_right b.toNat_lt (Nat.two_pow_pos _)
            rw [← Nat.pow_add] at hUp
            exact lt_of_lt_of_le hUp (Nat.pow_le_pow_right (by decide) (by omega))
          rw [UInt64.toNat_shiftLeft, UInt8.toNat_toUInt64, UInt64.toNat_ofNat_of_lt' hWord,
            Nat.mod_eq_of_lt hSmall, Nat.shiftLeft_eq, Nat.mul_comm i 8, Nat.mod_eq_of_lt hFits]
        rw [UInt64.toNat_or, hShift, leNat_cons_shift, Nat.or_assoc]
      · rw [hEnd, nonzero_cons hZero, List.length_append, List.length_singleton, List.length_cons]
        omega

theorem readPackedMasked_ok (value old : UInt64) (before rest : List UInt8) {R : ByteBuffer}
    (hStorage : R.storage = before ++ nonzero (wordBytes value) ++ rest) (hStart : R.rpos = before.length) :
    ∃ R', R.readPackedMasked (UInt8.ofNat (mask (wordBytes value))) old = .ok (old ||| value, R') ∧
      R'.storage = R.storage ∧ R'.rpos = before.length + (nonzero (wordBytes value)).length := by
  have hLength : (wordBytes value).length = 8 := leBytes_length ..
  obtain ⟨R', hRead, hKept, hEnd⟩ := readPackedFrom_ok (UInt8.ofNat (mask (wordBytes value))) (wordBytes value)
    before rest old R 0 (by omega) (fun j _ => by rw [mask_toNat, Nat.zero_add]) hStorage hStart
  refine ⟨R', ?_, hKept, hEnd⟩
  rw [hLength] at hRead
  refine hRead.trans ?_
  rw [leNat_wordBytes, Nat.mul_zero, Nat.pow_zero, Nat.mul_one, ← UInt64.toNat_or, UInt64.ofNat_toNat]

theorem readPackedUInt64_ok (value : UInt64) (before rest : List UInt8) {R : ByteBuffer}
    (hStorage : R.storage = before ++ (UInt8.ofNat (mask (wordBytes value)) :: nonzero (wordBytes value)) ++ rest)
    (hStart : R.rpos = before.length) :
    ∃ R', R.readPackedUInt64 = .ok (value, R') ∧ R'.storage = R.storage ∧
      R'.rpos = before.length + 1 + (nonzero (wordBytes value)).length := by
  obtain ⟨R₁, hByte, hKept₁, hStart₁⟩ := readUInt8_next before (nonzero (wordBytes value) ++ rest)
    (hStorage.trans (List.append_assoc ..)) hStart
  have hNext : R₁.storage =
      (before ++ [UInt8.ofNat (mask (wordBytes value))]) ++ nonzero (wordBytes value) ++ rest := by
    rw [hKept₁, hStorage]
    simp
  obtain ⟨R', hRead, hKept, hEnd⟩ := readPackedMasked_ok value 0 _ _ hNext hStart₁
  refine ⟨R', ?_, hKept.trans hKept₁, ?_⟩
  · rw [readPackedUInt64, hByte]
    refine hRead.trans ?_
    rw [UInt64.zero_or]
  · rw [hEnd, List.length_append, List.length_singleton]

/-! ## A packed integer in a buffer -/

/-- After the flushed bits stand a mask of the bytes that are not zero and these bytes, and the
value is read back from there. -/
def AppendsPacked (b : ByteBuffer) (value : UInt64) : Prop :=
  ∃ b' found, b.appendPackedUInt64 value = .ok b' ∧
    (∀ i < 8, found.toNat.testBit i = decide ((wordBytes value).getD i 0 ≠ 0)) ∧
    b'.storage = b.flushed ++ found :: (wordBytes value).filter (fun byte => byte ≠ 0) ∧
    ∀ R : ByteBuffer, R.storage = b'.storage → R.rpos = b.flushed.length →
      ∃ R', R.readPackedUInt64 = .ok (value, R') ∧ R'.rpos = b'.storage.length

/-- Nothing but zeros is pending where the mask is put, and every append is under its limit. -/
structure PackedFits (b : ByteBuffer) (value : UInt64) : Prop where
  room : b.storage.length < sizeLimit
  bytes : value ≠ 0 → b.flushed.length + 1 < sizeLimit
  pending : b.bitpos = 8 ∨ b.curbitval = 0 ∧ value = 0

theorem nonzero_wordBytes (value : UInt64) : nonzero (wordBytes value) = [] ↔ value = 0 := by
  rw [nonzero_eq_nil, leNat_wordBytes, ← UInt64.toNat_inj]
  rfl

theorem put_aligned (rpos : Nat) (before after : List UInt8) (old new : UInt8) :
    (aligned rpos (before ++ old :: after)).put before.length [new] =
      .ok (aligned rpos (before ++ new :: after)) := by
  have hRoom : before.length + [new].length ≤ (aligned rpos (before ++ old :: after)).size := by
    simp [size, aligned]
  rw [ByteBuffer.put, if_pos ⟨hRoom, List.cons_ne_nil _ _⟩]
  simp [aligned]

theorem append_ok (rpos : Nat) {storage src : List UInt8} (hSome : src ≠ []) (h : storage.length < sizeLimit) :
    (aligned rpos storage).append src = .ok (aligned rpos (storage ++ src)) :=
  ((aligned_writing rpos storage).append_eq hSome).trans (if_pos h)

theorem append_error (rpos : Nat) {storage src : List UInt8} (hSome : src ≠ [])
    (h : ¬ storage.length < sizeLimit) : (aligned rpos storage).append src = .error .assertion :=
  ((aligned_writing rpos storage).append_eq hSome).trans (if_neg h)

theorem appendPacked_ok (rpos : Nat) {storage packed : List UInt8} (h : packed ≠ [] → storage.length < sizeLimit) :
    (aligned rpos storage).appendPacked packed = .ok (aligned rpos (storage ++ packed)) := by
  rw [appendPacked]
  by_cases hNone : packed = []
  · rw [if_pos hNone, hNone, List.append_nil]
  · rw [if_neg hNone, append_ok rpos hNone (h hNone)]

theorem appendPacked_error (rpos : Nat) {storage packed : List UInt8} (hSome : packed ≠ [])
    (h : ¬ storage.length < sizeLimit) : (aligned rpos storage).appendPacked packed = .error .assertion := by
  rw [appendPacked, if_neg hSome, append_error rpos hSome h]

theorem append_room {rpos : Nat} {storage src : List UInt8} (hSome : src ≠ []) {b' : ByteBuffer}
    (hOk : (aligned rpos storage).append src = .ok b') :
    storage.length < sizeLimit ∧ b' = aligned rpos (storage ++ src) := by
  by_cases hRoom : storage.length < sizeLimit
  · rw [append_ok rpos hSome hRoom] at hOk
    exact ⟨hRoom, (Except.ok.inj hOk).symm⟩
  · rw [append_error rpos hSome hRoom] at hOk
    cases hOk

theorem appendPacked_room {rpos : Nat} {storage packed : List UInt8} {b' : ByteBuffer}
    (hOk : (aligned rpos storage).appendPacked packed = .ok b') :
    (packed ≠ [] → storage.length < sizeLimit) ∧ b' = aligned rpos (storage ++ packed) := by
  by_cases hRoom : packed ≠ [] → storage.length < sizeLimit
  · rw [appendPacked_ok rpos hRoom] at hOk
    exact ⟨hRoom, (Except.ok.inj hOk).symm⟩
  · obtain ⟨hSome, hFull⟩ := Classical.not_imp.mp hRoom
    rw [appendPacked_error rpos hSome hFull] at hOk
    cases hOk

theorem Writing.appendPackedUInt64_eq {b : ByteBuffer} (h : Writing b) (value : UInt64) :
    b.appendPackedUInt64 value =
      if b.storage.length < sizeLimit ∧ (value ≠ 0 → b.flushed.length + 1 < sizeLimit) then
        (aligned b.rpos (b.flushed ++ 0 :: nonzero (wordBytes value))).put b.storage.length
          [UInt8.ofNat (mask (wordBytes value))]
      else .error .assertion := by
  have hLength : (b.flushed ++ [0]).length = b.flushed.length + 1 := List.length_append
  rw [ByteBuffer.appendPackedUInt64, h.append_eq (List.cons_ne_nil 0 []), packUInt64_eq, h.wpos]
  by_cases hRoom : b.storage.length < sizeLimit
  · rw [if_pos hRoom]
    change ((aligned b.rpos (b.flushed ++ [0])).appendPacked _ >>= _) = _
    by_cases hMore : value ≠ 0 → b.flushed.length + 1 < sizeLimit
    · rw [if_pos ⟨hRoom, hMore⟩, appendPacked_ok, List.append_assoc, List.singleton_append]
      · rfl
      · intro hSome
        rw [hLength]
        exact hMore fun hZero => hSome ((nonzero_wordBytes value).mpr hZero)
    · obtain ⟨hValue, hFull⟩ := Classical.not_imp.mp hMore
      rw [if_neg fun hBoth => hMore hBoth.2, appendPacked_error]
      · rfl
      · exact fun hNone => hValue ((nonzero_wordBytes value).mp hNone)
      · rw [hLength]
        exact hFull
  · rw [if_neg hRoom, if_neg fun hBoth => hRoom hBoth.1]
    rfl

theorem packedFits_of_appends {b : ByteBuffer} (h : Writing b) {value : UInt64} (hAppends : AppendsPacked b value) :
    PackedFits b value := by
  obtain ⟨b', found, hOk, hFound, hStorage, -⟩ := hAppends
  rw [h.appendPackedUInt64_eq] at hOk
  split at hOk
  · rename_i hRoom
    refine ⟨hRoom.1, hRoom.2, ?_⟩
    by_cases hBits : b.bitpos = 8
    · exact Or.inl hBits
    · rw [flushed, if_neg hBits, List.append_assoc, List.singleton_append, put_aligned] at hOk
      obtain rfl := Except.ok.inj hOk
      rw [flushed, if_neg hBits, aligned, List.append_assoc, List.singleton_append] at hStorage
      obtain ⟨hCurrent, hMask⟩ := List.cons.inj (List.append_cancel_left hStorage)
      obtain ⟨rfl, -⟩ := List.cons.inj hMask
      have hEmpty : mask (wordBytes value) = 0 := by
        refine Nat.eq_of_testBit_eq fun i => ?_
        rw [testBit_mask, Nat.zero_testBit, decide_eq_false_iff_not, not_not]
        by_cases hi : i < 8
        · have hBit := hFound i hi
          rw [UInt8.toNat_zero, Nat.zero_testBit] at hBit
          exact of_not_not (of_decide_eq_false hBit.symm)
        · rw [List.getD_eq_default]
          rw [wordBytes, leBytes_length]
          omega
      refine Or.inr ⟨?_, ?_⟩
      · rw [← hCurrent, hEmpty]
        rfl
      · rw [← nonzero_wordBytes, nonzero_eq_nil, ← mask_eq_zero]
        exact hEmpty
  · cases hOk

theorem appends_of_packedFits {b : ByteBuffer} (h : Writing b) {value : UInt64} (hFits : PackedFits b value) :
    AppendsPacked b value := by
  have hOk := h.appendPackedUInt64_eq value
  have hPut : (aligned b.rpos (b.flushed ++ 0 :: nonzero (wordBytes value))).put b.storage.length
      [UInt8.ofNat (mask (wordBytes value))] =
      .ok (aligned b.rpos (b.flushed ++ UInt8.ofNat (mask (wordBytes value)) :: nonzero (wordBytes value))) := by
    rcases hFits.pending with hBits | ⟨hCurrent, hZero⟩
    · rw [flushed, if_pos hBits, put_aligned]
    · by_cases hBits : b.bitpos = 8
      · rw [flushed, if_pos hBits, put_aligned]
      · have hMask : mask (wordBytes value) = 0 := by
          rw [mask_eq_zero, leNat_wordBytes, hZero]
          rfl
        rw [flushed, if_neg hBits, List.append_assoc, List.singleton_append, put_aligned, hMask, hCurrent]
        simp
  rw [if_pos ⟨hFits.room, hFits.bytes⟩, hPut] at hOk
  refine ⟨_, _, hOk, fun i _ => ?_, rfl, fun R hStorage hStart => ?_⟩
  · rw [mask_toNat, testBit_mask]
  · obtain ⟨R', hRead, -, hEnd⟩ := readPackedUInt64_ok value b.flushed []
      (by rw [hStorage, List.append_nil]; rfl) hStart
    refine ⟨R', hRead, ?_⟩
    rw [hEnd, aligned, List.length_append, List.length_cons]
    omega

/-- A packed integer is appended behind the pending bits exactly when these and the integer are
nothing but zeros, or no bits are pending. -/
theorem appendsPacked_iff {b : ByteBuffer} (h : Reachable b) (value : UInt64) :
    AppendsPacked b value ↔ PackedFits b value :=
  ⟨packedFits_of_appends h.writing, appends_of_packedFits h.writing⟩

theorem packed_at_start : AppendsPacked empty 0x1200 :=
  (appendsPacked_iff ⟨[], rfl⟩ 0x1200).mpr ⟨by decide, fun _ => by decide, Or.inl rfl⟩

def oneBit : ByteBuffer := ⟨0, 0, 7, 0x80, []⟩

example : (oneBit.appendPackedUInt64 1).toOption.map storage = some [1, 0, 1] := by decide

/-- The mask of one overwrites the flushed bit. -/
theorem packed_over_pending_bit : Reachable oneBit ∧ ¬ AppendsPacked oneBit 1 := by
  refine ⟨⟨[.bit true], rfl⟩, fun h => ?_⟩
  have hWriting : Writing oneBit := Writing.call empty_writing (show empty.call (.bit true) = .ok oneBit from rfl)
  rcases (packedFits_of_appends hWriting h).pending with hBits | ⟨hZero, -⟩
  · exact absurd hBits (by decide)
  · exact absurd hZero (by decide)

end AshamaneCore.ByteBuffer
