import AshamaneCore.Game.ObjectGuid
import AshamaneCore.Shared.PackedIntegers

/-!
# Guids in packets

A guid is written as two masks with the bytes that are not zero behind them.
It is read over what the variable already has.
-/

namespace AshamaneCore.ByteBuffer

open Library.Bits Library.Bytes Library.PackedBytes

def writeGuid (b : ByteBuffer) (guid : ObjectGuid) : Except ByteBufferError ByteBuffer := do
  let flushed ← b.flushBits
  let first ← flushed.append [0]
  let second ← first.append [0]
  let low ← second.appendPacked (packUInt64 guid.low).2
  let high ← low.appendPacked (packUInt64 guid.high).2
  let marked ← high.put flushed.wpos [(packUInt64 guid.low).1]
  marked.put (flushed.wpos + 1) [(packUInt64 guid.high).1]

def readGuid (b : ByteBuffer) (guid : ObjectGuid) : Except ByteBufferError (ObjectGuid × ByteBuffer) := do
  let (lowMask, b) ← b.readUInt8
  let (highMask, b) ← b.readUInt8
  let (low, b) ← b.readPackedMasked lowMask guid.low
  let (high, b) ← b.readPackedMasked highMask guid.high
  return (⟨low, high⟩, b)

/-- A guid that is written can be read from there into a variable. -/
def RoundTrips (b : ByteBuffer) (guid old : ObjectGuid) : Prop :=
  ∃ b', b.writeGuid guid = .ok b' ∧
    ∀ R : ByteBuffer, R.storage = b'.storage → R.rpos = b.flushed.length → ∃ R', R.readGuid old = .ok (guid, R')

def guidLead (guid : ObjectGuid) : Nat := 2 + ((wordBytes guid.low).filter fun byte => byte ≠ 0).length

def Within (old new : UInt64) : Prop := ∀ i, old.toNat.testBit i = true → new.toNat.testBit i = true

structure GuidRoom (b : ByteBuffer) (guid : ObjectGuid) : Prop where
  masks : b.flushed.length + 1 < sizeLimit
  low : guid.low ≠ 0 → b.flushed.length + 2 < sizeLimit
  high : guid.high ≠ 0 → b.flushed.length + guidLead guid < sizeLimit

def guidBytes (guid : ObjectGuid) : List UInt8 :=
  UInt8.ofNat (mask (wordBytes guid.low)) :: UInt8.ofNat (mask (wordBytes guid.high)) ::
    (nonzero (wordBytes guid.low) ++ nonzero (wordBytes guid.high))

theorem or_eq_right_iff (old new : UInt64) : old ||| new = new ↔ Within old new := by
  constructor
  · intro h i hBit
    rw [← h, UInt64.toNat_or, Nat.testBit_or, hBit, Bool.true_or]
  · intro h
    apply UInt64.toNat_inj.mp
    rw [UInt64.toNat_or]
    refine Nat.eq_of_testBit_eq fun i => ?_
    rw [Nat.testBit_or]
    cases hBit : old.toNat.testBit i with
    | false => exact Bool.false_or _
    | true => rw [h i hBit, Bool.true_or]

/-! ## Reading -/

theorem readGuid_ok (guid old : ObjectGuid) (before rest : List UInt8) {R : ByteBuffer}
    (hStorage : R.storage = before ++ guidBytes guid ++ rest) (hStart : R.rpos = before.length) :
    ∃ R', R.readGuid old = .ok (⟨old.low ||| guid.low, old.high ||| guid.high⟩, R') := by
  obtain ⟨R₁, hLowMask, hKept₁, hStart₁⟩ := readUInt8_next _ _ (hStorage.trans (List.append_assoc ..)) hStart
  have hSecond : R₁.storage = before ++ [UInt8.ofNat (mask (wordBytes guid.low))] ++
      UInt8.ofNat (mask (wordBytes guid.high)) ::
        (nonzero (wordBytes guid.low) ++ nonzero (wordBytes guid.high) ++ rest) := by
    rw [hKept₁, hStorage, guidBytes]
    simp
  obtain ⟨R₂, hHighMask, hKept₂, hStart₂⟩ := readUInt8_next _ _ hSecond hStart₁
  obtain ⟨R₃, hLow, hKept₃, hStart₃⟩ := readPackedMasked_ok guid.low old.low _
    (nonzero (wordBytes guid.high) ++ rest) (by rw [hKept₂, hSecond]; simp) hStart₂
  rw [← List.length_append] at hStart₃
  obtain ⟨R₄, hHigh, -, -⟩ := readPackedMasked_ok guid.high old.high _ rest
    (by rw [hKept₃, hKept₂, hSecond]; simp) hStart₃
  refine ⟨R₄, ?_⟩
  rw [readGuid, hLowMask]
  change (R₁.readUInt8 >>= _) = _
  rw [hHighMask]
  change (R₂.readPackedMasked _ _ >>= _) = _
  rw [hLow]
  change (R₃.readPackedMasked _ _ >>= _) = _
  rw [hHigh]
  rfl

/-! ## Writing -/

section

variable {b : ByteBuffer} {guid : ObjectGuid}

theorem writeGuid_ok (h : Writing b) (hRoom : GuidRoom b guid) :
    b.writeGuid guid = .ok (aligned b.rpos (b.flushed ++ guidBytes guid)) := by
  have hFlush : b.flushBits = .ok (aligned b.rpos b.flushed) := by
    rw [h.flushBits_eq, if_pos]
    refine Classical.or_iff_not_imp_left.mpr fun hBits => ?_
    have hMasks := hRoom.masks
    rw [flushed, if_neg hBits, List.length_append] at hMasks
    omega
  have hFirst := append_ok b.rpos (List.cons_ne_nil 0 []) (lt_trans (Nat.lt_succ_self _) hRoom.masks)
  have hSecond : (aligned b.rpos (b.flushed ++ [0])).append [0] = .ok (aligned b.rpos (b.flushed ++ [0] ++ [0])) :=
    append_ok b.rpos (List.cons_ne_nil 0 []) (by rw [List.length_append]; exact hRoom.masks)
  have hLow : (aligned b.rpos (b.flushed ++ [0] ++ [0])).appendPacked (nonzero (wordBytes guid.low)) =
      .ok (aligned b.rpos (b.flushed ++ [0] ++ [0] ++ nonzero (wordBytes guid.low))) := by
    refine appendPacked_ok b.rpos fun hSome => ?_
    have hBytes := hRoom.low fun hZero => hSome ((nonzero_wordBytes guid.low).mpr hZero)
    simpa using hBytes
  have hHigh : (aligned b.rpos (b.flushed ++ [0] ++ [0] ++ nonzero (wordBytes guid.low))).appendPacked
      (nonzero (wordBytes guid.high)) =
      .ok (aligned b.rpos (b.flushed ++ [0] ++ [0] ++ nonzero (wordBytes guid.low) ++ nonzero (wordBytes guid.high))) := by
    refine appendPacked_ok b.rpos fun hSome => ?_
    have hBytes := hRoom.high fun hZero => hSome ((nonzero_wordBytes guid.high).mpr hZero)
    simpa [guidLead, nonzero, Nat.add_assoc, Nat.add_comm 2] using hBytes
  have hPutLow := put_aligned b.rpos b.flushed (0 :: (nonzero (wordBytes guid.low) ++ nonzero (wordBytes guid.high))) 0
    (UInt8.ofNat (mask (wordBytes guid.low)))
  have hPutHigh := put_aligned b.rpos (b.flushed ++ [UInt8.ofNat (mask (wordBytes guid.low))])
    (nonzero (wordBytes guid.low) ++ nonzero (wordBytes guid.high)) 0 (UInt8.ofNat (mask (wordBytes guid.high)))
  rw [List.length_append, List.length_singleton] at hPutHigh
  rw [writeGuid, hFlush, packUInt64_eq, packUInt64_eq]
  change ((aligned b.rpos b.flushed).append [0] >>= _) = _
  rw [hFirst]
  change ((aligned b.rpos (b.flushed ++ [0])).append [0] >>= _) = _
  rw [hSecond]
  change ((aligned b.rpos (b.flushed ++ [0] ++ [0])).appendPacked _ >>= _) = _
  rw [hLow]
  change ((aligned b.rpos (b.flushed ++ [0] ++ [0] ++ nonzero (wordBytes guid.low))).appendPacked _ >>= _) = _
  rw [hHigh]
  simp only [List.append_assoc, List.cons_append, List.nil_append] at hPutLow hPutHigh ⊢
  change ((aligned b.rpos _).put b.flushed.length _ >>= fun marked => marked.put (b.flushed.length + 1) _) = _
  rw [hPutLow]
  exact hPutHigh

theorem writeGuid_room (h : Writing b) {b' : ByteBuffer} (hOk : b.writeGuid guid = .ok b') : GuidRoom b guid := by
  obtain ⟨b₁, hFlush, hRest⟩ := except_bind_ok hOk
  obtain ⟨b₂, hFirst, hRest⟩ := except_bind_ok hRest
  obtain ⟨b₃, hSecond, hRest⟩ := except_bind_ok hRest
  obtain ⟨b₄, hLow, hRest⟩ := except_bind_ok hRest
  obtain ⟨b₅, hHigh, -⟩ := except_bind_ok hRest
  rw [packUInt64_eq] at hLow hHigh
  rw [h.flushBits_eq] at hFlush
  split at hFlush
  · obtain rfl := Except.ok.inj hFlush
    obtain ⟨-, rfl⟩ := append_room (List.cons_ne_nil 0 []) hFirst
    obtain ⟨hMasks, rfl⟩ := append_room (List.cons_ne_nil 0 []) hSecond
    obtain ⟨hLowRoom, rfl⟩ := appendPacked_room hLow
    obtain ⟨hHighRoom, -⟩ := appendPacked_room hHigh
    constructor
    · rwa [List.length_append] at hMasks
    · intro hSome
      have hBytes := hLowRoom fun hNone => hSome ((nonzero_wordBytes guid.low).mp hNone)
      simpa using hBytes
    · intro hSome
      have hBytes := hHighRoom fun hNone => hSome ((nonzero_wordBytes guid.high).mp hNone)
      simpa [guidLead, nonzero, Nat.add_assoc, Nat.add_comm 2] using hBytes
  · cases hFlush

end

/-- A guid is read back exactly into a variable without bits that the guid lacks, from a buffer
with room for it. -/
theorem guid_roundTrips_iff {b : ByteBuffer} (h : Reachable b) (guid old : ObjectGuid) :
    RoundTrips b guid old ↔ GuidRoom b guid ∧ Within old.low guid.low ∧ Within old.high guid.high := by
  rw [← or_eq_right_iff, ← or_eq_right_iff]
  constructor
  · rintro ⟨b', hOk, hRead⟩
    have hRoom := writeGuid_room h.writing hOk
    rw [writeGuid_ok h.writing hRoom] at hOk
    obtain rfl := Except.ok.inj hOk
    have hStorage : (aligned b.flushed.length (b.flushed ++ guidBytes guid)).storage =
        b.flushed ++ guidBytes guid ++ [] := (List.append_nil _).symm
    obtain ⟨R', hValue⟩ := hRead (aligned b.flushed.length (b.flushed ++ guidBytes guid)) rfl rfl
    obtain ⟨R'', hOver⟩ := readGuid_ok guid old _ _ hStorage rfl
    rw [hOver] at hValue
    obtain ⟨hSame, -⟩ := Prod.mk.inj (Except.ok.inj hValue)
    exact ⟨hRoom, congrArg ObjectGuid.low hSame, congrArg ObjectGuid.high hSame⟩
  · rintro ⟨hRoom, hLow, hHigh⟩
    refine ⟨_, writeGuid_ok h.writing hRoom, fun R hStorage hStart => ?_⟩
    obtain ⟨R', hValue⟩ := readGuid_ok guid old _ [] (hStorage.trans (List.append_nil _).symm) hStart
    rw [hLow, hHigh] at hValue
    exact ⟨R', hValue⟩

theorem guid_roundTrips_empty : RoundTrips empty ⟨5, 0x0800000000000000⟩ ObjectGuid.empty := by
  refine (guid_roundTrips_iff ⟨[], rfl⟩ _ _).mpr ⟨⟨by decide, fun _ => by decide, fun _ => by decide⟩, ?_, ?_⟩
  · exact fun i hBit => absurd hBit (by rw [ObjectGuid.empty]; simp)
  · exact fun i hBit => absurd hBit (by rw [ObjectGuid.empty]; simp)

/-- The variable keeps a bit that the guid does not have. -/
theorem guid_over_other : Reachable empty ∧ ¬ RoundTrips empty ⟨4, 0⟩ ⟨1, 0⟩ := by
  refine ⟨⟨[], rfl⟩, ?_⟩
  rintro ⟨b', hOk, hRead⟩
  rw [writeGuid_ok empty_writing (writeGuid_room empty_writing hOk)] at hOk
  obtain rfl := Except.ok.inj hOk
  obtain ⟨R', hValue⟩ := hRead (aligned 0 (guidBytes ⟨4, 0⟩)) rfl rfl
  obtain ⟨R'', hOver⟩ := readGuid_ok ⟨4, 0⟩ ⟨1, 0⟩ [] []
    (show (aligned 0 (guidBytes ⟨4, 0⟩)).storage = _ from (List.append_nil _).symm) rfl
  rw [hOver] at hValue
  obtain ⟨hSame, -⟩ := Prod.mk.inj (Except.ok.inj hValue)
  exact absurd (congrArg ObjectGuid.low hSame) (by decide)

end AshamaneCore.ByteBuffer
