import AshamaneCore.Library.Bits
import AshamaneCore.Shared.ByteBuffer

/-!
# Reading back what was written

A position is what a writer has produced so far: complete bytes and bits held
back. One operation moves writer and reader from position to position alike,
whatever follows, so that sequences are composed from single operations.
-/

namespace AshamaneCore.ByteBufferRoundtrip

open ByteBuffer Library.Bits Library.Bytes

structure Position where
  out : List UInt8
  pending : List Bool

/-- The writer has produced these bytes and holds these bits back. -/
structure Holds (b : ByteBuffer) (W : Position) : Prop where
  storage : b.storage = W.out
  wpos : b.wpos = W.out.length
  bitpos : b.bitpos + W.pending.length = 8
  few : W.pending.length < 8
  packed : Packs b.curbitval W.pending

structure Begins (W : Position) (S : List UInt8) : Prop where
  out : W.out <+: S
  pending : ∀ i < W.pending.length, ∃ byte, S[W.out.length]? = some byte ∧
    bitAt byte i = W.pending.getD i false

/-- The reader of the bytes has read everything up to the position. -/
structure Sync (S : List UInt8) (W : Position) (R : ByteBuffer) : Prop where
  storage : R.storage = S
  aligned : W.pending = [] → R.rpos = W.out.length ∧ 7 ≤ R.bitpos
  inside : W.pending ≠ [] → R.rpos = W.out.length + 1 ∧ R.bitpos + 1 = W.pending.length ∧
    S[W.out.length]? = some R.curbitval

def Tracks {α : Type} (W W' : Position) (value : α)
    (read : ByteBuffer → Except ByteBufferError (α × ByteBuffer)) : Prop :=
  ∀ S, Begins W' S → Begins W S ∧
    ∀ R, Sync S W R → ∃ R', read R = .ok (value, R') ∧ Sync S W' R'

/-- The operation ends at a position of this size with the value readable, or
its encoding exceeds the limit of append. -/
def Written {α : Type} (W : Position) (value : α)
    (read : ByteBuffer → Except ByteBufferError (α × ByteBuffer)) (size : Nat × Nat) :
    Except ByteBufferError ByteBuffer → Prop
  | .ok b => ∃ W', Holds b W' ∧ Tracks W W' value read ∧ (W'.out.length, W'.pending.length) = size
  | .error e => e = .assertion ∧ sizeLimit < size.1

variable {W : Position}

theorem Tracks.bind {α β : Type} {W₁ W₂ : Position} {a : α} {value : β}
    {read : ByteBuffer → Except ByteBufferError (α × ByteBuffer)}
    {f : α × ByteBuffer → Except ByteBufferError (β × ByteBuffer)}
    (h : Tracks W W₁ a read) (hNext : Tracks W₁ W₂ value (fun R => f (a, R))) :
    Tracks W W₂ value (fun R => read R >>= f) := by
  intro S hS
  obtain ⟨hMiddle, hRest⟩ := hNext S hS
  obtain ⟨hFirst, hRead⟩ := h S hMiddle
  refine ⟨hFirst, fun R hR => ?_⟩
  obtain ⟨R₁, hOk, hSync⟩ := hRead R hR
  obtain ⟨R₂, hLater, hEnd⟩ := hRest R₁ hSync
  refine ⟨R₂, ?_, hEnd⟩
  simp only [hOk]
  exact hLater

theorem Written.bind {α β : Type} {a : α} {value : β}
    {read : ByteBuffer → Except ByteBufferError (α × ByteBuffer)}
    {f : α × ByteBuffer → Except ByteBufferError (β × ByteBuffer)}
    {size₁ size₂ : Nat × Nat} {result : Except ByteBufferError ByteBuffer}
    {k : ByteBuffer → Except ByteBufferError ByteBuffer}
    (h : Written W a read size₁ result) (hSize : size₁.1 ≤ size₂.1)
    (hRest : ∀ b W₁, Holds b W₁ → (W₁.out.length, W₁.pending.length) = size₁ →
      Written W₁ value (fun R => f (a, R)) size₂ (k b)) :
    Written W value (fun R => read R >>= f) size₂ (result >>= k) := by
  cases result with
  | error e => exact ⟨h.1, Nat.lt_of_lt_of_le h.2 hSize⟩
  | ok b =>
    obtain ⟨W₁, hHolds, hTracks, hReached⟩ := h
    have hLater := hRest b W₁ hHolds hReached
    change Written W value _ size₂ (k b)
    cases hResult : k b with
    | error e =>
      rw [hResult] at hLater
      exact hLater
    | ok b₂ =>
      rw [hResult] at hLater
      obtain ⟨W₂, hHolds₂, hTracks₂, hReached₂⟩ := hLater
      exact ⟨W₂, hHolds₂, hTracks.bind hTracks₂, hReached₂⟩

theorem Written.map {α β : Type} {a : α} {f : α → β}
    {read : ByteBuffer → Except ByteBufferError (α × ByteBuffer)} {size : Nat × Nat}
    {result : Except ByteBufferError ByteBuffer} (h : Written W a read size result) :
    Written W (f a) (fun R => return (← read R).map f id) size result := by
  cases result with
  | error e => exact h
  | ok b =>
    obtain ⟨W', hHolds, hTracks, hReached⟩ := h
    refine ⟨W', hHolds, fun S hS => ?_, hReached⟩
    obtain ⟨hFirst, hRead⟩ := hTracks S hS
    refine ⟨hFirst, fun R hR => ?_⟩
    obtain ⟨R', hOk, hSync⟩ := hRead R hR
    exact ⟨R', by simp only [hOk]; rfl, hSync⟩

/-! ## Bits -/

variable {R : ByteBuffer}

theorem read_ok {before src rest : List UInt8}
    (hStorage : R.storage = before ++ src ++ rest) (hStart : R.rpos = before.length) :
    R.read src.length =
      .ok (src, { R.resetBitPos with rpos := before.length + src.length }) := by
  have hReset : R.resetBitPos.storage = R.storage ∧ R.resetBitPos.rpos = R.rpos := by
    rw [resetBitPos]
    split <;> exact ⟨rfl, rfl⟩
  have hRoom : ¬ R.resetBitPos.size < R.resetBitPos.rpos + src.length := by
    rw [size, hReset.1, hReset.2, hStorage, hStart]
    simp only [List.length_append]
    omega
  have hBytes : (R.resetBitPos.storage.drop R.resetBitPos.rpos).take src.length = src := by
    rw [hReset.1, hReset.2, hStorage, hStart, List.append_assoc, List.drop_left, List.take_left]
  simp only [ByteBuffer.read, readAt, if_neg hRoom, hBytes]
  rw [← hStart, ← hReset.2]
  rfl

theorem reset_bitpos (R : ByteBuffer) : 7 ≤ R.resetBitPos.bitpos := by
  rw [resetBitPos]
  split
  · omega
  · exact Nat.le_succ 7

theorem reset_storage (R : ByteBuffer) : R.resetBitPos.storage = R.storage := by
  rw [resetBitPos]
  split <;> rfl

variable {S : List UInt8} {byte : UInt8}

theorem split_at_byte {pos : Nat} (h : S[pos]? = some byte) :
    S = S.take pos ++ [byte] ++ S.drop (pos + 1) ∧ (S.take pos).length = pos := by
  obtain ⟨hLess, hByte⟩ := List.getElem?_eq_some_iff.mp h
  constructor
  · rw [List.append_assoc, List.singleton_append, ← hByte, ← List.drop_eq_getElem_cons hLess,
      List.take_append_drop]
  · rw [List.length_take]
    omega

theorem readUInt8_ok (h : R.storage[R.rpos]? = some byte) :
    R.readUInt8 = .ok (byte, { R.resetBitPos with rpos := R.rpos + 1 }) := by
  obtain ⟨hStorage, hStart⟩ := split_at_byte h
  have hRead := read_ok hStorage hStart.symm
  rw [hStart] at hRead
  have hByte : UInt8.ofNat (leNat [byte]) = byte := by simp [leNat]
  rw [readUInt8]
  change (R.read [byte].length >>= _) = _
  rw [hRead]
  change Except.ok (UInt8.ofNat (leNat [byte]), _) = _
  rw [hByte]
  rfl

theorem readBit_ok (h : Sync S W R)
    (hFew : W.pending.length < 8) (hByte : S[W.out.length]? = some byte) :
    ∃ R', R.readBit = .ok (bitAt byte W.pending.length, R') ∧ R'.storage = S ∧
      R'.rpos = W.out.length + 1 ∧ R'.bitpos = W.pending.length ∧ R'.curbitval = byte := by
  by_cases hEmpty : W.pending = []
  · obtain ⟨hStart, hBits⟩ := h.aligned hEmpty
    have hRead := readUInt8_ok (R := { R with bitpos := R.bitpos + 1 }) (by simp only [h.storage, hStart]; exact hByte)
    refine ⟨{ R with rpos := W.out.length + 1, bitpos := 0, curbitval := byte }, ?_, h.storage,
      rfl, by rw [hEmpty]; rfl, rfl⟩
    have hReset : ({ R with bitpos := R.bitpos + 1 } : ByteBuffer).resetBitPos =
        { R with bitpos := R.bitpos + 1 } := by
      rw [resetBitPos, if_pos (by simp only; omega)]
    rw [hReset] at hRead
    simp only [readBit, if_pos (show 7 < R.bitpos + 1 by omega), hRead]
    have hTest := test_byte byte (k := 7) (by decide)
    rw [hEmpty, ← hStart]
    change Except.ok (byte >>> UInt8.ofNat 7 &&& 1 != 0, _) = _
    rw [hTest]
    rfl
  · obtain ⟨hStart, hBits, hLoaded⟩ := h.inside hEmpty
    have hCurrent : R.curbitval = byte := Option.some.inj (hLoaded.symm.trans hByte)
    refine ⟨{ R with bitpos := R.bitpos + 1 }, ?_, h.storage, hStart, hBits, hCurrent⟩
    have hTest := test_byte R.curbitval (k := 7 - (R.bitpos + 1)) (by omega)
    simp only [readBit, if_neg (show ¬ 7 < R.bitpos + 1 by omega)]
    change Except.ok (R.curbitval >>> UInt8.ofNat (7 - (R.bitpos + 1)) &&& 1 != 0, _) = _
    rw [hTest, hCurrent, hBits]
    rfl

variable {out : List UInt8}

theorem tracks_bit {p : List Bool} {bit : Bool} (hFew : p.length < 7) :
    Tracks ⟨out, p⟩ ⟨out, p ++ [bit]⟩ bit readBit := by
  intro S hS
  have hPending := hS.pending
  simp only [List.length_append, List.length_singleton] at hPending
  refine ⟨⟨hS.out, fun i hi => ?_⟩, fun R hR => ?_⟩
  · obtain ⟨byte, hByte, hBit⟩ := hPending i (Nat.lt_succ_of_lt hi)
    refine ⟨byte, hByte, hBit.trans ?_⟩
    rw [List.getD_eq_getElem?_getD, List.getElem?_append_left hi, List.getD_eq_getElem?_getD]
  · obtain ⟨byte, hByte, hBit⟩ := hPending p.length (Nat.lt_succ_self _)
    obtain ⟨R', hRead, hStorage, hStart, hBits, hCurrent⟩ :=
      readBit_ok hR (Nat.lt_succ_of_lt hFew) hByte
    have hLast : (p ++ [bit]).getD p.length false = bit := by simp [List.getD_eq_getElem?_getD]
    refine ⟨R', by rw [hRead, hBit, hLast], hStorage, fun hNone => ?_, fun _ => ⟨hStart, ?_, ?_⟩⟩
    · exact absurd hNone (by simp)
    · rw [hBits, List.length_append, List.length_singleton]
    · rw [hByte, hCurrent]

theorem tracks_last_bit {p : List Bool} {bit : Bool}
    (hFull : p.length = 7) (hPacked : Packs byte (p ++ [bit])) :
    Tracks ⟨out, p⟩ ⟨out ++ [byte], []⟩ bit readBit := by
  intro S hS
  obtain ⟨rest, hRest⟩ := hS.out
  have hByte : S[out.length]? = some byte := by
    rw [← hRest]
    simp
  refine ⟨⟨⟨byte :: rest, by rw [← hRest]; simp⟩, fun i hi => ⟨byte, hByte, ?_⟩⟩, fun R hR => ?_⟩
  · rw [hPacked i (by simp only at hi; omega), List.getD_eq_getElem?_getD,
      List.getElem?_append_left hi, List.getD_eq_getElem?_getD]
  · obtain ⟨R', hRead, hStorage, hStart, hBits, hCurrent⟩ :=
      readBit_ok hR (by simp only; omega) hByte
    have hLast : (p ++ [bit]).getD p.length false = bit := by simp [List.getD_eq_getElem?_getD]
    refine ⟨R', ?_, hStorage, fun _ => ⟨?_, ?_⟩, fun hSome => absurd rfl hSome⟩
    · rw [hRead]
      simp only
      rw [hPacked p.length (by omega), hLast]
    · rw [hStart, List.length_append, List.length_singleton]
    · rw [hBits]
      exact Nat.le_of_eq hFull.symm

variable {b : ByteBuffer}

theorem writeBit_written (h : Holds b W) (bit : Bool) :
    Written W bit readBit
      (W.out.length + (W.pending.length + 1) / 8, (W.pending.length + 1) % 8) (b.writeBit bit) := by
  obtain ⟨out, p⟩ := W
  obtain ⟨hStorage, hStart, hBits, hFew, hPacked⟩ := h
  simp only at hStorage hStart hBits hFew hPacked
  subst hStorage
  have hPosition : b.bitpos - 1 = 7 - p.length := by omega
  have hSnoc := hPacked.snoc hFew bit
  simp only [writeBit, if_neg (show b.bitpos ≠ 0 by omega), hPosition]
  generalize (if bit then b.curbitval ||| UInt8.ofNat (1 <<< (7 - p.length)) else b.curbitval) =
    byte at hSnoc ⊢
  by_cases hFull : p.length = 7
  · have hAppend :=
      appendCurrent_end (b := { b with bitpos := 7 - p.length, curbitval := byte }) hStart
    rw [if_pos (by omega), hAppend]
    split
    · refine ⟨⟨b.storage ++ [byte], []⟩, ⟨rfl, ?_, rfl, by simp, packs_nil⟩,
        tracks_last_bit hFull hSnoc, ?_⟩
      · simp
      · simp [hFull]
    · rename_i hLimit
      refine ⟨rfl, ?_⟩
      simp only [hFull]
      simp only at hLimit
      omega
  · have hLess : p.length < 7 := by omega
    rw [if_neg (by omega)]
    refine ⟨⟨b.storage, p ++ [bit]⟩, ⟨rfl, hStart, ?_, ?_, hSnoc⟩, tracks_bit hLess, ?_⟩
    · simp only [List.length_append, List.length_singleton]
      omega
    · simp only [List.length_append, List.length_singleton]
      omega
    · simp only [List.length_append, List.length_singleton, Prod.mk.injEq]
      omega

/-! ## Bytes -/

/-- The bytes after the pending bits have become a byte of their own. -/
inductive Flushes : Position → List UInt8 → Prop
  | aligned (out : List UInt8) : Flushes ⟨out, []⟩ out
  | padded (out : List UInt8) (p : List Bool) (byte : UInt8) (hSome : p ≠ [])
    (hPacked : Packs byte p) : Flushes ⟨out, p⟩ (out ++ [byte])

theorem Flushes.length (h : Flushes W out) :
    out.length = flushedSize W.out.length W.pending.length := by
  cases h with
  | aligned => rfl
  | padded out p byte hSome hPacked =>
    have hLength : p.length ≠ 0 := fun hZero => hSome (List.eq_nil_of_length_eq_zero hZero)
    simp [flushedSize, hLength]

theorem Flushes.begins (h : Flushes W out)
    (hFew : W.pending.length < 8) (hS : out <+: S) : Begins W S := by
  cases h with
  | aligned => exact ⟨hS, fun i hi => absurd hi (Nat.not_lt_zero i)⟩
  | padded first p byte hSome hPacked =>
    obtain ⟨rest, hRest⟩ := hS
    refine ⟨⟨byte :: rest, by rw [← hRest]; simp⟩, fun i hi => ⟨byte, ?_, ?_⟩⟩
    · rw [← hRest]
      simp
    · exact hPacked i (Nat.lt_trans hi hFew)

theorem Flushes.rpos (h : Flushes W out) (hR : Sync S W R) : R.rpos = out.length := by
  cases h with
  | aligned => exact (hR.aligned rfl).1
  | padded first p byte hSome hPacked =>
    rw [(hR.inside hSome).1, List.length_append, List.length_singleton]

theorem flushBits_holds (h : Holds b W) :
    match b.flushBits with
    | .ok b' => Flushes W b'.storage ∧ Holds b' ⟨b'.storage, []⟩
    | .error e => e = .assertion ∧ W.pending ≠ [] ∧ sizeLimit ≤ W.out.length := by
  obtain ⟨out, p⟩ := W
  obtain ⟨hStorage, hStart, hBits, hFew, hPacked⟩ := h
  simp only at hStorage hStart hBits hFew hPacked
  subst hStorage
  by_cases hEmpty : p = []
  · subst hEmpty
    rw [flushBits, if_pos (show b.bitpos = 8 from hBits)]
    exact ⟨.aligned b.storage, rfl, hStart, hBits, hFew, hPacked⟩
  · have hLength : 0 < p.length := List.length_pos_iff.mpr hEmpty
    rw [flushBits, if_neg (by omega), appendCurrent_end hStart]
    by_cases hRoom : b.storage.length < sizeLimit
    · rw [if_pos hRoom]
      exact ⟨.padded b.storage p b.curbitval hEmpty hPacked, rfl, by simp, rfl, by simp, packs_nil⟩
    · rw [if_neg hRoom]
      exact ⟨rfl, hEmpty, Nat.le_of_not_lt hRoom⟩

theorem append_holds (h : Holds b W) {src : List UInt8}
    (hSome : src ≠ []) :
    match b.append src with
    | .ok b' => ∃ out, Flushes W out ∧ Holds b' ⟨out ++ src, []⟩
    | .error e => e = .assertion ∧ sizeLimit ≤ W.out.length := by
  have hFlush := flushBits_holds h
  by_cases hRoom : b.storage.length < sizeLimit
  · rw [ByteBuffer.append, checkAppend_ok hSome hRoom]
    rw [h.storage] at hRoom
    cases hResult : b.flushBits with
    | error e =>
      rw [hResult] at hFlush
      exact absurd hFlush.2.2 (Nat.not_le.mpr hRoom)
    | ok flushed =>
      rw [hResult] at hFlush
      obtain ⟨hFlushes, hHolds⟩ := hFlush
      change ∃ out, Flushes W out ∧ Holds (flushed.insert src) ⟨out ++ src, []⟩
      rw [insert_end hHolds.wpos]
      exact ⟨flushed.storage, hFlushes, rfl, by simp, hHolds.bitpos, hHolds.few, hHolds.packed⟩
  · rw [ByteBuffer.append, checkAppend_error _ hRoom]
    exact ⟨rfl, h.storage ▸ Nat.le_of_not_lt hRoom⟩

theorem tracks_read (h : Flushes W out)
    (hFew : W.pending.length < 8) (src : List UInt8) :
    Tracks W ⟨out ++ src, []⟩ src (fun R => R.read src.length) := by
  intro S hS
  obtain ⟨rest, hRest⟩ := hS.out
  refine ⟨h.begins hFew ((List.prefix_append out src).trans hS.out), fun R hR => ?_⟩
  have hStart := h.rpos hR
  refine ⟨_, read_ok (hR.storage.trans hRest.symm) hStart, ?_⟩
  refine ⟨(reset_storage R).trans hR.storage, fun _ => ⟨?_, reset_bitpos R⟩,
    fun hSome => absurd rfl hSome⟩
  rw [List.length_append]

theorem readCStringFrom_ok (value : List UInt8) (hText : 0 ∉ value) :
    ∀ (rounds : Nat) (read before rest : List UInt8) (R : ByteBuffer),
      R.storage = before ++ (value ++ [0]) ++ rest → R.rpos = before.length → value.length < rounds →
      ∃ R', readCStringFrom read R rounds = .ok (read ++ value, R') ∧ R'.storage = R.storage ∧
        R'.rpos = before.length + (value.length + 1) ∧ 7 ≤ R'.bitpos := by
  induction value with
  | nil =>
    intro rounds read before rest R hStorage hStart hRounds
    obtain ⟨rounds, rfl⟩ : ∃ n, rounds = n + 1 := ⟨rounds - 1, by simp at hRounds; omega⟩
    have hByte : R.storage[R.rpos]? = some 0 := by
      rw [hStorage, hStart]
      simp
    have hMore : R.rpos < R.size := (List.getElem?_eq_some_iff.mp hByte).1
    refine ⟨{ R.resetBitPos with rpos := R.rpos + 1 }, ?_, reset_storage R, ?_, reset_bitpos R⟩
    · rw [readCStringFrom, if_pos hMore, readUInt8_ok hByte, List.append_nil]
      rfl
    · simp [hStart]
  | cons c value ih =>
    intro rounds read before rest R hStorage hStart hRounds
    obtain ⟨rounds, rfl⟩ : ∃ n, rounds = n + 1 := ⟨rounds - 1, by simp at hRounds; omega⟩
    have hByte : R.storage[R.rpos]? = some c := by
      rw [hStorage, hStart]
      simp
    have hMore : R.rpos < R.size := (List.getElem?_eq_some_iff.mp hByte).1
    have hSplit : ({ R.resetBitPos with rpos := R.rpos + 1 } : ByteBuffer).storage =
        (before ++ [c]) ++ (value ++ [0]) ++ rest := by
      rw [show ({ R.resetBitPos with rpos := R.rpos + 1 } : ByteBuffer).storage = R.storage from
        reset_storage R, hStorage]
      simp
    obtain ⟨R', hLater, hKept, hEnd, hBits⟩ := ih (fun hMem => hText (List.mem_cons_of_mem _ hMem))
      rounds (read ++ [c]) (before ++ [c]) rest _ hSplit (by simp [hStart])
      (Nat.lt_of_succ_lt_succ hRounds)
    have hNonzero : c ≠ 0 := fun hZero => hText (by rw [hZero]; exact List.mem_cons_self)
    refine ⟨R', ?_, hKept.trans (reset_storage R), ?_, hBits⟩
    · rw [readCStringFrom, if_pos hMore, readUInt8_ok hByte]
      change (if c = 0 then _ else _) = _
      rw [if_neg hNonzero, hLater, List.append_assoc, List.singleton_append]
    · rw [hEnd]
      simp only [List.length_append, List.length_cons, List.length_nil]
      omega

variable {value : List UInt8}

theorem tracks_cstring (h : Flushes W out)
    (hFew : W.pending.length < 8) (hText : 0 ∉ value) :
    Tracks W ⟨out ++ (value ++ [0]), []⟩ value readCString := by
  intro S hS
  obtain ⟨rest, hRest⟩ := hS.out
  refine ⟨h.begins hFew ((List.prefix_append out _).trans hS.out), fun R hR => ?_⟩
  have hStart := h.rpos hR
  have hRounds : value.length < R.size - R.rpos := by
    rw [size, hR.storage, ← hRest, hStart]
    simp only [List.length_append, List.length_singleton]
    omega
  obtain ⟨R', hRead, hKept, hEnd, hBits⟩ := readCStringFrom_ok value hText _ [] out rest R
    (hR.storage.trans hRest.symm) hStart hRounds
  refine ⟨R', hRead, hKept.trans hR.storage, fun _ => ⟨?_, hBits⟩, fun hSome => absurd rfl hSome⟩
  rw [hEnd]
  simp

/-! ## Operations -/

theorem readBitsFrom_succ {i : Nat} (h : i < 32) (read : UInt32) (R : ByteBuffer) :
    readBitsFrom read R (i + 1) = (do
      let (bit, R) ← R.readBit
      readBitsFrom (if bit then read ||| UInt32.ofNat (1 <<< i) else read) R i) := by
  have hShift : ∀ bit : Bool, (bit && decide (32 ≤ i)) = false := by
    intro bit
    rw [decide_eq_false (Nat.not_le.mpr h), Bool.and_false]
  simp only [readBitsFrom, hShift]
  rfl

/-- The bits read so far are those of the value from some bit up. -/
def HighBits (value read i : Nat) : Prop :=
  ∀ j, read.testBit j = (decide (i ≤ j) && value.testBit j)

theorem HighBits.step {value i : Nat} {read : UInt32} (h : HighBits value read.toNat (i + 1))
    (hShift : i < 32) :
    HighBits value (if value.testBit i then read ||| UInt32.ofNat (1 <<< i) else read).toNat i := by
  intro j
  have hSplit : decide (i ≤ j) = (decide (i + 1 ≤ j) || decide (i = j)) := by
    rw [← Bool.decide_or, decide_eq_decide]
    omega
  have hSame : (value.testBit i && decide (i = j)) = (decide (i = j) && value.testBit j) := by
    by_cases hEq : i = j
    · simp [hEq]
    · simp [hEq]
  rw [hSplit, Bool.and_or_distrib_right, ← hSame, ← h j]
  split
  · rename_i hBit
    rw [UInt32.toNat_or, one_shiftLeft_toNat32 hShift, testBit_setBit, hBit, Bool.true_and]
  · rename_i hBit
    rw [Bool.not_eq_true] at hBit
    rw [hBit, Bool.false_and, Bool.or_false]

theorem HighBits.all {value : Nat} {read : UInt32} (h : HighBits value read.toNat 0)
    (hSmall : value < 2 ^ 32) : read = UInt32.ofNat value := by
  apply UInt32.toNat_inj.mp
  rw [UInt32.toNat_ofNat_of_lt' hSmall]
  exact Nat.eq_of_testBit_eq fun j => by simpa using h j

theorem writeBitsFrom_written (value : UInt64) (hSmall : value.toNat < 2 ^ 32) (i : Nat)
    (hCount : i ≤ 32) :
    ∀ (b : ByteBuffer) (W : Position) (read : UInt32), Holds b W →
      HighBits value.toNat read.toNat i →
      Written W (UInt32.ofNat value.toNat) (fun R => readBitsFrom read R i)
        (W.out.length + (W.pending.length + i) / 8, (W.pending.length + i) % 8)
        (b.writeBits value i) := by
  induction i with
  | zero =>
    intro b W read h hRead
    have hFew := h.few
    rw [← hRead.all hSmall]
    refine ⟨W, h, fun S hS => ⟨hS, fun R hR => ⟨R, rfl, hR⟩⟩, ?_⟩
    simp only [Prod.mk.injEq]
    omega
  | succ i ih =>
    intro b W read h hRead
    have hFew := h.few
    have hBit : ((value >>> UInt64.ofNat i) &&& 1 != 0) = value.toNat.testBit i :=
      test_word value (by omega)
    simp only [readBitsFrom_succ (show i < 32 by omega), writeBits,
      if_neg (show ¬ 64 ≤ i by omega), hBit]
    refine Written.bind (writeBit_written h (value.toNat.testBit i)) ?_ ?_
    · simp only
      omega
    · intro b₁ W₁ h₁ hSize
      obtain ⟨hOut, hPending⟩ := Prod.mk.inj hSize
      have hLater := ih (by omega) b₁ W₁ _ h₁ (hRead.step (by omega))
      convert hLater using 2 <;> omega

theorem writeBits_written (h : Holds b W) {value : UInt64}
    {count : Nat} (hCount : count ≤ 32) (hSmall : value.toNat < 2 ^ count) :
    Written W (UInt32.ofNat value.toNat) (fun R => R.readBits count)
      (W.out.length + (W.pending.length + count) / 8, (W.pending.length + count) % 8)
      (b.writeBits value count) := by
  have hWord : 2 ^ count ≤ 2 ^ 32 := Nat.pow_le_pow_right (by decide) hCount
  refine writeBitsFrom_written value (Nat.lt_of_lt_of_le hSmall hWord) count hCount b W 0 h ?_
  intro j
  rw [UInt32.toNat_zero, Nat.zero_testBit]
  by_cases hHigh : count ≤ j
  · rw [Nat.testBit_lt_two_pow (Nat.lt_of_lt_of_le hSmall (Nat.pow_le_pow_right (by decide) hHigh)),
      Bool.and_false]
  · rw [decide_eq_false hHigh, Bool.false_and]

theorem le_flushedSize (bytes bits : Nat) : bytes ≤ flushedSize bytes bits := by
  rw [flushedSize]
  split <;> omega

theorem writeInt_written (h : Holds b W) (width : IntWidth)
    (value : BitVec (8 * width.bytes)) :
    Written W value (fun R => R.readInt width)
      (flushedSize W.out.length W.pending.length + width.bytes, 0) (b.writeInt width value) := by
  have hLength : (leBytes width.bytes value.toNat).length = width.bytes := leBytes_length _ _
  have hSome : leBytes width.bytes value.toNat ≠ [] := by
    intro hNone
    rw [hNone] at hLength
    cases width <;> cases hLength
  have hValue : BitVec.ofNat (8 * width.bytes) (leNat (leBytes width.bytes value.toNat)) = value := by
    have hBound : value.toNat < 256 ^ width.bytes := by
      have hPow : 256 ^ width.bytes = 2 ^ (8 * width.bytes) := by rw [Nat.pow_mul]
      rw [hPow]
      exact value.isLt
    rw [leNat_leBytes, Nat.mod_eq_of_lt hBound, BitVec.ofNat_toNat, BitVec.setWidth_eq]
  have hAppend := append_holds h hSome
  rw [writeInt]
  cases hResult : b.append (leBytes width.bytes value.toNat) with
  | error e =>
    rw [hResult] at hAppend
    refine ⟨hAppend.1, ?_⟩
    have hFlushed := le_flushedSize W.out.length W.pending.length
    have hPos : 0 < width.bytes := by cases width <;> decide
    simp only
    omega
  | ok b' =>
    rw [hResult] at hAppend
    obtain ⟨out, hFlushes, hHolds⟩ := hAppend
    refine ⟨_, hHolds, fun S hS => ?_, ?_⟩
    · obtain ⟨hBegins, hRead⟩ := tracks_read hFlushes h.few _ S hS
      refine ⟨hBegins, fun R hR => ?_⟩
      obtain ⟨R', hOk, hSync⟩ := hRead R hR
      refine ⟨R', ?_, hSync⟩
      simp only [hLength] at hOk
      simp only [readInt, hOk]
      change Except.ok (BitVec.ofNat _ (leNat (leBytes width.bytes value.toNat)), R') = _
      rw [hValue]
    · simp only [List.length_append, hLength, hFlushes.length, List.length_nil]

theorem Flushes.cstring (h : Flushes W out)
    (hFew : W.pending.length < 8) (hText : 0 ∉ value)
    (hHolds : Holds b ⟨out ++ (value ++ [0]), []⟩) :
    Written W value readCString
      (flushedSize W.out.length W.pending.length + (value.length + 1), 0) (.ok b) := by
  refine ⟨_, hHolds, tracks_cstring h hFew hText, ?_⟩
  simp only [List.length_append, List.length_singleton, h.length, List.length_nil]

theorem writeCString_written (h : Holds b W)
    (hText : 0 ∉ value) :
    Written W value readCString
      (flushedSize W.out.length W.pending.length + (value.length + 1), 0)
      (b.writeCString value) := by
  have hFlushed := le_flushedSize W.out.length W.pending.length
  rw [writeCString]
  by_cases hEmpty : value = []
  · subst hEmpty
    have hEnd := append_holds h (List.cons_ne_nil 0 [])
    change Written W [] _ _ (b.append [0])
    cases hResult : b.append [0] with
    | error e =>
      rw [hResult] at hEnd
      exact ⟨hEnd.1, by simp only; omega⟩
    | ok b' =>
      rw [hResult] at hEnd
      obtain ⟨out, hFlushes, hHolds⟩ := hEnd
      exact hFlushes.cstring h.few hText hHolds
  · have hBytes := append_holds h hEmpty
    rw [if_neg hEmpty]
    cases hResult : b.append value with
    | error e =>
      rw [hResult] at hBytes
      exact ⟨hBytes.1, by simp only; omega⟩
    | ok b₁ =>
      rw [hResult] at hBytes
      obtain ⟨out, hFlushes, hHolds⟩ := hBytes
      have hEnd := append_holds hHolds (List.cons_ne_nil 0 [])
      change Written W value _ _ (b₁.append [0])
      cases hLast : b₁.append [0] with
      | error e =>
        rw [hLast] at hEnd
        refine ⟨hEnd.1, ?_⟩
        have hLimit := hEnd.2
        simp only [List.length_append, hFlushes.length] at hLimit ⊢
        omega
      | ok b' =>
        rw [hLast] at hEnd
        obtain ⟨out', hAligned, hHolds'⟩ := hEnd
        cases hAligned with
        | aligned =>
          rw [List.append_assoc] at hHolds'
          exact hFlushes.cstring h.few hText hHolds'
        | padded out p byte hSome => exact absurd rfl hSome

theorem write_written (h : Holds b W) {op : WriteOp}
    (hValid : op.Valid) :
    Written W op.value (fun R => R.readValue op.matching)
      (op.sizeAfter W.out.length W.pending.length) (b.write op) := by
  cases op with
  | bit value => exact (writeBit_written h value).map
  | bits value count =>
    have hWord : value.toNat < 2 ^ 32 :=
      Nat.lt_of_lt_of_le hValid.2 (Nat.pow_le_pow_right (by decide) hValid.1)
    have hBits := (writeBits_written h hValid.1 hValid.2).map (f := fun word => Value.number word.toNat)
    rw [UInt32.toNat_ofNat_of_lt' hWord] at hBits
    exact hBits
  | int width value => exact (writeInt_written h width value).map
  | cstring value => exact (writeCString_written h hValid).map

/-! ## Whole sequences -/

theorem sizeAfter_le (op : WriteOp) (bytes bits : Nat) : bytes ≤ (op.sizeAfter bytes bits).1 := by
  have hFlushed := le_flushedSize bytes bits
  cases op <;> simp only [WriteOp.sizeAfter] <;> omega

theorem le_encodedSizeFrom (ops : List WriteOp) (bytes bits : Nat) :
    bytes ≤ encodedSizeFrom bytes bits ops := by
  induction ops generalizing bytes bits with
  | nil => exact le_flushedSize bytes bits
  | cons op ops ih => exact Nat.le_trans (sizeAfter_le op bytes bits) (ih _ _)

/-- A finished sequence reads back from its position on, to the last byte. -/
def Finished (W : Position) (ops : List WriteOp) (size : Nat) :
    Except ByteBufferError ByteBuffer → Prop
  | .ok b => b.storage.length = size ∧ Begins W b.storage ∧
      ∀ R, Sync b.storage W R → ∃ R', R.readAll (ops.map WriteOp.matching) =
        .ok (ops.map WriteOp.value, R') ∧ R'.storage = b.storage ∧ R'.rpos = b.storage.length
  | .error e => e = .assertion ∧ sizeLimit < size

theorem writeAll_finished (ops : List WriteOp) :
    ∀ (b : ByteBuffer) (W : Position), Holds b W → (∀ op ∈ ops, op.Valid) →
      Finished W ops (encodedSizeFrom W.out.length W.pending.length ops) (b.writeAll ops) := by
  induction ops with
  | nil =>
    intro b W h _
    have hFlush := flushBits_holds h
    rw [writeAll, encodedSizeFrom]
    cases hResult : b.flushBits with
    | error e =>
      rw [hResult] at hFlush
      obtain ⟨hKind, hSome, hLimit⟩ := hFlush
      have hPending : W.pending.length ≠ 0 := fun hZero => hSome (List.eq_nil_of_length_eq_zero hZero)
      refine ⟨hKind, ?_⟩
      rw [flushedSize, if_neg hPending]
      omega
    | ok b' =>
      rw [hResult] at hFlush
      obtain ⟨hFlushes, hHolds⟩ := hFlush
      exact ⟨hFlushes.length, hFlushes.begins h.few List.prefix_rfl,
        fun R hR => ⟨R, rfl, hR.storage, hFlushes.rpos hR⟩⟩
  | cons op ops ih =>
    intro b W h hValid
    have hFirst := write_written h (hValid op List.mem_cons_self)
    rw [writeAll, encodedSizeFrom]
    cases hResult : b.write op with
    | error e =>
      rw [hResult] at hFirst
      exact ⟨hFirst.1, Nat.lt_of_lt_of_le hFirst.2 (le_encodedSizeFrom ops _ _)⟩
    | ok b₁ =>
      rw [hResult] at hFirst
      obtain ⟨W₁, hHolds, hTracks, hSize⟩ := hFirst
      have hLater := ih b₁ W₁ hHolds (fun op hOp => hValid op (List.mem_cons_of_mem _ hOp))
      rw [← hSize]
      change Finished W (op :: ops) _ (b₁.writeAll ops)
      cases hRest : b₁.writeAll ops with
      | error e =>
        rw [hRest] at hLater
        exact hLater
      | ok b' =>
        rw [hRest] at hLater
        obtain ⟨hLength, hBegins, hReads⟩ := hLater
        obtain ⟨hStart, hRead⟩ := hTracks b'.storage hBegins
        refine ⟨hLength, hStart, fun R hR => ?_⟩
        obtain ⟨R₁, hOk, hSync⟩ := hRead R hR
        obtain ⟨R', hAll, hStorage, hEnd⟩ := hReads R₁ hSync
        refine ⟨R', ?_, hStorage, hEnd⟩
        simp only at hOk
        rw [List.map_cons, List.map_cons, readAll, hOk]
        change (R₁.readAll (ops.map WriteOp.matching) >>= _) = _
        rw [hAll]
        rfl

theorem empty_holds : Holds empty ⟨[], []⟩ := ⟨rfl, rfl, rfl, by decide, packs_nil⟩

/-- Every sequence whose encoding has at most as many bytes as append allows is written,
and every sequence that is written reads back as it was, to the last byte. -/
theorem written_reads_back (ops : List WriteOp) (hValid : ∀ op ∈ ops, op.Valid) :
    (encodedSize ops ≤ sizeLimit → ∃ b, empty.writeAll ops = .ok b) ∧
      ∀ b, empty.writeAll ops = .ok b → b.size = encodedSize ops ∧
        ∃ R, (ofStorage b.storage).readAll (ops.map WriteOp.matching) =
          .ok (ops.map WriteOp.value, R) ∧ R.storage = b.storage ∧ R.rpos = R.size := by
  have h := writeAll_finished ops empty _ empty_holds hValid
  cases hResult : empty.writeAll ops with
  | error e =>
    rw [hResult] at h
    exact ⟨fun hSmall => absurd hSmall (Nat.not_le.mpr h.2), fun b hOk => by cases hOk⟩
  | ok b =>
    rw [hResult] at h
    refine ⟨fun _ => ⟨b, rfl⟩, fun b' hOk => ?_⟩
    obtain rfl := Except.ok.inj hOk
    obtain ⟨hLength, _, hReads⟩ := h
    have hStart : Sync b.storage ⟨[], []⟩ (ofStorage b.storage) :=
      ⟨rfl, fun _ => ⟨rfl, Nat.le_succ 7⟩, fun hSome => absurd rfl hSome⟩
    obtain ⟨R, hAll, hStorage, hEnd⟩ := hReads _ hStart
    exact ⟨hLength, R, hAll, hStorage, by rw [hEnd, size, hStorage]⟩

/-- Three bits, a padded integer, bits again and a string, all read back. -/
theorem written_reads_back_mixed :
    let ops : List WriteOp := [.bits 5 3, .int .w16 0x1234, .bit true, .cstring [65, 66]]
    ∃ b, empty.writeAll ops = .ok b ∧ ∃ R, (ofStorage b.storage).readAll
      [.bits 3, .int .w16, .bit, .cstring] =
      .ok ([.number 5, .int .w16 0x1234, .bit true, .cstring [65, 66]], R) ∧ R.rpos = R.size := by
  intro ops
  obtain ⟨hWrites, hReads⟩ := written_reads_back ops (by decide)
  obtain ⟨b, hOk⟩ := hWrites (by decide)
  obtain ⟨_, R, hAll, _, hEnd⟩ := hReads b hOk
  exact ⟨b, hOk, R, hAll, hEnd⟩

/-- The terminator of a string as long as the limit meets the assertion of append. -/
theorem written_reads_back_fails :
    ¬ ∀ ops : List WriteOp, (∀ op ∈ ops, op.Valid) → ∃ b, empty.writeAll ops = .ok b ∧
      ∃ R, (ofStorage b.storage).readAll (ops.map WriteOp.matching) =
        .ok (ops.map WriteOp.value, R) ∧ R.rpos = R.size := by
  intro h
  let text : List UInt8 := List.replicate sizeLimit 65
  have hLength : text.length = sizeLimit := List.length_replicate
  have hSome : text ≠ [] := by
    intro hNone
    rw [hNone] at hLength
    cases hLength
  have hValid : ∀ op ∈ [WriteOp.cstring text], op.Valid := by
    intro op hOp
    rw [List.mem_singleton.mp hOp]
    intro hZero
    cases List.eq_of_mem_replicate hZero
  obtain ⟨b, hOk, _⟩ := h _ hValid
  have hAppend := append_holds empty_holds hSome
  rw [writeAll, ByteBuffer.write, writeCString, if_neg hSome] at hOk
  cases hResult : empty.append text with
  | error e =>
    rw [hResult] at hOk
    cases hOk
  | ok b₁ =>
    rw [hResult] at hOk hAppend
    obtain ⟨out, _, hHolds⟩ := hAppend
    have hFull : ¬ b₁.storage.length < sizeLimit := by
      rw [hHolds.storage, List.length_append, hLength]
      omega
    change ((b₁.append [0]) >>= _) = _ at hOk
    rw [ByteBuffer.append, checkAppend_error _ hFull] at hOk
    cases hOk

end AshamaneCore.ByteBufferRoundtrip
