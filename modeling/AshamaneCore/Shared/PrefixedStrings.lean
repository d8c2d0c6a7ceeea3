import AshamaneCore.Library.Transition
import AshamaneCore.Shared.ByteBufferCalls

/-!
# Strings whose length was written before

The reader of a string drops the rest of its byte even when the string is
empty; the writer flushes its bits only for a string that has characters. After
an empty string the reader may be in front, until the writer flushes.
-/

namespace AshamaneCore.PrefixedStrings

open ByteBuffer ByteBufferRoundtrip Library.Bits Library.Bytes Library.Transition

/-! ## Sequences of fields -/

inductive Field
  | bit (value : Bool)
  | bits (value : UInt64) (count : Nat)
  /-- The length is the number that was written as the field of the given index. -/
  | string (length : Nat) (text : List UInt8)
  deriving DecidableEq

inductive FieldValue
  | bit (value : Bool)
  | number (value : Nat)
  | text (text : List UInt8)
  deriving DecidableEq

inductive Layout
  | bit
  | bits (count : Nat)
  | string (length size : Nat)
  deriving DecidableEq

def Field.value : Field → FieldValue
  | .bit value => .bit value
  | .bits value _ => .number value.toNat
  | .string _ text => .text text

def Field.layout : Field → Layout
  | .bit _ => .bit
  | .bits _ count => .bits count
  | .string length text => .string length text.length

def Field.bitCount : Field → Nat
  | .bit _ => 1
  | .bits _ count => count
  | .string _ _ => 0

/-- Numbers fit into their bits, and the length of a string is an earlier number. -/
def Field.Valid (before : List Field) : Field → Prop
  | .bit _ => True
  | .bits value count => count ≤ 32 ∧ value.toNat < 2 ^ count
  | .string length text => ∃ value count, before[length]? = some (.bits value count) ∧ value.toNat = text.length

def WellFormed : (before : List Field) → List Field → Prop
  | _, [] => True
  | before, field :: fields => field.Valid before ∧ WellFormed (before ++ [field]) fields

def writeField (b : ByteBuffer) : Field → Except ByteBufferError ByteBuffer
  | .bit value => b.writeBit value
  | .bits value count => b.writeBits value count
  | .string _ text => b.writeString text

def writeFields (b : ByteBuffer) (fields : List Field) : Except ByteBufferError ByteBuffer := fields.foldlM writeField b

def readField (seen : List FieldValue) (b : ByteBuffer) : Field → Except ByteBufferError (FieldValue × ByteBuffer)
  | .bit _ => return (← b.readBit).map .bit id
  | .bits _ count => return (← b.readBits count).map (fun value => .number value.toNat) id
  | .string length _ =>
    match seen[length]? with
    | some (.number size) => return (← b.readString size).map .text id
    | _ => throw .assertion

def readFields (seen : List FieldValue) (b : ByteBuffer) :
    List Field → Except ByteBufferError (List FieldValue × ByteBuffer)
  | [] => .ok (seen, b)
  | field :: fields => do
    let (value, b) ← readField seen b field
    readFields (seen ++ [value]) b fields

/-- The fields are written, and the flushed bytes read back as they were. -/
def RoundTrips (fields : List Field) : Prop :=
  ∃ b flushed, writeFields empty fields = .ok b ∧ b.flushBits = .ok flushed ∧
    ∃ R, readFields [] (ofStorage flushed.storage) fields = .ok (fields.map Field.value, R)

/-! ## Where the writer and the reader stand -/

/-- Whole bytes and pending bits, and whether the reader has already dropped these. -/
structure Cursor where
  bytes : Nat
  bits : Nat
  settled : Bool
  deriving DecidableEq

namespace Cursor

def start : Cursor := ⟨0, 0, false⟩

def push (c : Cursor) (count : Nat) : Cursor :=
  if count = 0 then c else ⟨c.bytes + (c.bits + count) / 8, (c.bits + count) % 8, false⟩

def after (c : Cursor) : Layout → Cursor
  | .bit => c.push 1
  | .bits count => c.push count
  | .string _ size =>
    if size = 0 then ⟨c.bytes, c.bits, decide (c.bits ≠ 0)⟩ else ⟨flushedSize c.bytes c.bits + size, 0, false⟩

/-- No bit is written while the reader is in front, and every append is under its limit, as that
of a flush would be. -/
def Allows (c : Cursor) : Layout → Prop
  | .bit => c.settled = false ∧ (c.push 1).bytes ≤ sizeLimit ∧ ((c.push 1).bits ≠ 0 → (c.push 1).bytes < sizeLimit)
  | .bits count => count ≠ 0 → c.settled = false ∧ (c.push count).bytes ≤ sizeLimit ∧
      ((c.push count).bits ≠ 0 → (c.push count).bytes < sizeLimit)
  | .string _ size => size ≠ 0 → c.bytes < sizeLimit

end Cursor

instance (c : Cursor) : (l : Layout) → Decidable (c.Allows l)
  | .bit => inferInstanceAs (Decidable (_ ∧ _))
  | .bits _ => inferInstanceAs (Decidable (_ → _))
  | .string _ _ => inferInstanceAs (Decidable (_ → _))

/-- The reader has read everything up to the position, or has dropped the pending bits as well. -/
def InSync (settled : Bool) (S : List UInt8) (W : Position) (R : ByteBuffer) : Prop :=
  match settled with
  | false => Sync S W R
  | true => R.storage = S ∧ R.rpos = W.out.length + 1 ∧ 7 ≤ R.bitpos

structure At (c : Cursor) (b : ByteBuffer) (W : Position) : Prop where
  holds : Holds b W
  bytes : W.out.length = c.bytes
  bits : W.pending.length = c.bits
  settled : c.settled = true → c.bits ≠ 0
  room : c.bits ≠ 0 → c.bytes < sizeLimit

/-- Reading leads from one position to the other, whatever follows. -/
def Leads {α : Type} (c c' : Cursor) (W W' : Position) (value : α)
    (read : ByteBuffer → Except ByteBufferError (α × ByteBuffer)) : Prop :=
  ∀ S, Begins W' S → Begins W S ∧
    ∀ R, InSync c.settled S W R → ∃ R', read R = .ok (value, R') ∧ InSync c'.settled S W' R'

def readKnown (R : ByteBuffer) : Field → Except ByteBufferError (FieldValue × ByteBuffer)
  | .bit _ => return (← R.readBit).map .bit id
  | .bits _ count => return (← R.readBits count).map (fun value => .number value.toNat) id
  | .string _ text => return (← R.readString text.length).map .text id

variable {before : List Field} {field : Field}

theorem readField_known (h : field.Valid before) (R : ByteBuffer) :
    readField (before.map Field.value) R field = readKnown R field := by
  cases field with
  | bit value => rfl
  | bits value count => rfl
  | string length text =>
    obtain ⟨value, count, hBefore, hSize⟩ := h
    have hSeen : (before.map Field.value)[length]? = some (.number text.length) := by
      rw [List.getElem?_map, hBefore, ← hSize]
      rfl
    rw [readField, hSeen]
    rfl

/-! ## One field -/

variable {S : List UInt8} {W : Position} {R : ByteBuffer}

theorem InSync.storage {settled : Bool} (h : InSync settled S W R) :
    R.storage = S := by
  cases settled with
  | false => exact Sync.storage h
  | true => exact h.1

theorem InSync.rpos {settled : Bool} (h : InSync settled S W R)
    (hSome : settled = true → W.pending ≠ []) {out : List UInt8} (hFlush : Flushes W out) : R.rpos = out.length := by
  cases settled with
  | false => exact hFlush.rpos h
  | true =>
    cases hFlush with
    | aligned out => exact absurd rfl (hSome rfl)
    | padded out p byte _ _ => rw [h.2.1, List.length_append, List.length_singleton]

variable {text : List UInt8}

theorem readString_ok {before rest : List UInt8}
    (hStorage : R.storage = before ++ text ++ rest) (hStart : R.rpos = before.length) :
    ∃ R', R.readString text.length = .ok (text, R') ∧ R'.storage = R.storage ∧
      R'.rpos = before.length + text.length ∧ 7 ≤ R'.bitpos := by
  have hRoom : ¬ R.size < R.rpos + text.length := by
    rw [size, hStorage, hStart, List.length_append, List.length_append]
    omega
  have hText : (R.storage.drop R.rpos).take text.length = text := by
    rw [hStorage, hStart, List.append_assoc, List.drop_left, List.take_left]
  have hReset : R.resetBitPos.rpos = R.rpos := by
    rw [resetBitPos]
    split <;> rfl
  by_cases hEmpty : text.length = 0
  · refine ⟨R.resetBitPos, ?_, reset_storage R, by rw [hReset, hStart, hEmpty, Nat.add_zero], reset_bitpos R⟩
    rw [readString, readAt, if_neg hRoom]
    change (if text.length = 0 then _ else _) = _
    rw [if_pos hEmpty, List.eq_nil_of_length_eq_zero hEmpty]
    rfl
  · refine ⟨{ R.resetBitPos with rpos := R.rpos + text.length }, ?_, reset_storage R, by rw [hStart], reset_bitpos R⟩
    rw [readString, readAt, if_neg hRoom, hText]
    change (if text.length = 0 then _ else _) = _
    rw [if_neg hEmpty]
    rfl

variable {result : Except ByteBufferError ByteBuffer}

theorem written_ok {α : Type} {value : α}
    {read : ByteBuffer → Except ByteBufferError (α × ByteBuffer)} {size : Nat × Nat}
    (h : Written W value read size result) (hRoom : size.1 ≤ sizeLimit) :
    ∃ b W', result = .ok b ∧ Holds b W' ∧ Tracks W W' value read ∧ (W'.out.length, W'.pending.length) = size := by
  cases result with
  | error e => exact absurd h.2 (Nat.not_lt.mpr hRoom)
  | ok b =>
    obtain ⟨W', hHolds, hTracks, hSize⟩ := h
    exact ⟨b, W', rfl, hHolds, hTracks, hSize⟩

variable {c : Cursor} {b : ByteBuffer}

theorem push_leads (h : At c b W) {count : Nat} (hSome : count ≠ 0)
    {value : FieldValue} {read : ByteBuffer → Except ByteBufferError (FieldValue × ByteBuffer)}
    (hWritten : Written W value read
      (W.out.length + (W.pending.length + count) / 8, (W.pending.length + count) % 8) result)
    (hSync : c.settled = false) (hLimit : (c.push count).bytes ≤ sizeLimit)
    (hRoom : (c.push count).bits ≠ 0 → (c.push count).bytes < sizeLimit) :
    ∃ b' W', result = .ok b' ∧ At (c.push count) b' W' ∧ Leads c (c.push count) W W' value read := by
  have hPush : c.push count = ⟨c.bytes + (c.bits + count) / 8, (c.bits + count) % 8, false⟩ := by
    rw [Cursor.push, if_neg hSome]
  rw [hPush] at hLimit hRoom ⊢
  rw [h.bytes, h.bits] at hWritten
  obtain ⟨b', W', hOk, hHolds, hTracks, hSize⟩ := written_ok hWritten hLimit
  obtain ⟨hBytes, hBits⟩ := Prod.mk.inj hSize
  refine ⟨b', W', hOk, ⟨hHolds, hBytes, hBits, (fun hSettled => nomatch hSettled), hRoom⟩, fun S hS => ?_⟩
  obtain ⟨hBegins, hRead⟩ := hTracks S hS
  refine ⟨hBegins, fun R hR => ?_⟩
  rw [hSync] at hR
  exact hRead R hR

theorem empty_string_leads (h : At c b W) :
    At ⟨c.bytes, c.bits, decide (c.bits ≠ 0)⟩ b W ∧
      Leads c ⟨c.bytes, c.bits, decide (c.bits ≠ 0)⟩ W W (FieldValue.text [])
        (fun R => return (← R.readString 0).map .text id) := by
  refine ⟨⟨h.holds, h.bytes, h.bits, of_decide_eq_true, h.room⟩, fun S hS => ⟨hS, fun R hR => ?_⟩⟩
  have hOut : W.out.length ≤ S.length := hS.out.length_le
  have hEmpty : ∀ before rest : List UInt8, R.storage = before ++ rest → R.rpos = before.length →
      ∃ R', R.readString 0 = .ok ([], R') ∧ R'.storage = R.storage ∧ R'.rpos = before.length ∧ 7 ≤ R'.bitpos := by
    intro before rest hStorage hStart
    have hSplit : R.storage = before ++ [] ++ rest := by rw [hStorage, List.append_nil]
    exact readString_ok hSplit hStart
  by_cases hBits : c.bits = 0
  · have hNone : W.pending = [] := List.eq_nil_of_length_eq_zero (h.bits.trans hBits)
    have hFalse : c.settled = false := by
      by_contra hTrue
      exact h.settled (Bool.eq_true_of_not_eq_false hTrue) hBits
    rw [hFalse] at hR
    obtain ⟨rest, hRest⟩ := hS.out
    obtain ⟨R', hRead, hKept, hStart, hReset⟩ := hEmpty _ _ (hR.storage.trans hRest.symm) (hR.aligned hNone).1
    refine ⟨R', by simp only [hRead]; rfl, ?_⟩
    rw [decide_eq_false (not_not.mpr hBits)]
    exact ⟨hKept.trans hR.storage, fun _ => ⟨hStart, hReset⟩, fun hSome => absurd hNone hSome⟩
  · have hSome : W.pending ≠ [] := fun hNone => hBits (by rw [← h.bits, hNone, List.length_nil])
    have hPlace : R.rpos = W.out.length + 1 := by
      cases hSettled : c.settled with
      | false =>
        rw [hSettled] at hR
        exact (Sync.inside hR hSome).1
      | true =>
        rw [hSettled] at hR
        exact hR.2.1
    have hLong : W.out.length + 1 ≤ S.length := by
      obtain ⟨byte, hByte, -⟩ := hS.pending 0 (List.length_pos_iff.mpr hSome)
      exact (List.getElem?_eq_some_iff.mp hByte).1
    obtain ⟨R', hRead, hKept, hStart, hReset⟩ := hEmpty (S.take (W.out.length + 1))
      (S.drop (W.out.length + 1)) (by rw [hR.storage, List.take_append_drop])
      (by rw [hPlace, List.length_take, Nat.min_eq_left hLong])
    refine ⟨R', by simp only [hRead]; rfl, ?_⟩
    rw [decide_eq_true hBits]
    refine ⟨hKept.trans hR.storage, ?_, hReset⟩
    rw [hStart, List.length_take, Nat.min_eq_left hLong]

theorem string_leads (h : At c b W)
    (hSome : text ≠ []) (hRoom : c.bytes < sizeLimit) :
    ∃ b' W', b.append text = .ok b' ∧ At ⟨flushedSize c.bytes c.bits + text.length, 0, false⟩ b' W' ∧
      Leads c ⟨flushedSize c.bytes c.bits + text.length, 0, false⟩ W W' (FieldValue.text text)
        (fun R => return (← R.readString text.length).map .text id) := by
  have hAppend := append_holds h.holds hSome
  cases hResult : b.append text with
  | error e =>
    rw [hResult, h.bytes] at hAppend
    exact absurd hRoom (Nat.not_lt.mpr hAppend.2)
  | ok b' =>
    rw [hResult] at hAppend
    obtain ⟨out, hFlush, hHolds⟩ := hAppend
    have hLength := hFlush.length
    rw [h.bytes, h.bits] at hLength
    refine ⟨b', ⟨out ++ text, []⟩, rfl, ⟨hHolds, ?_, rfl, (fun hSettled => nomatch hSettled), fun hBits => absurd rfl hBits⟩,
      fun S hS => ⟨hFlush.begins h.holds.few ((List.prefix_append out text).trans hS.out), fun R hR => ?_⟩⟩
    · rw [List.length_append, hLength]
    · obtain ⟨rest, hRest⟩ := hS.out
      have hStart := hR.rpos (fun hSettled hNone => h.settled hSettled (by rw [← h.bits, hNone, List.length_nil])) hFlush
      obtain ⟨R', hRead, hKept, hEnd, hReset⟩ := readString_ok (hR.storage.trans hRest.symm) hStart
      refine ⟨R', by simp only [hRead]; rfl, hKept.trans hR.storage, fun _ => ⟨?_, hReset⟩, fun hSome => absurd rfl hSome⟩
      rw [hEnd, List.length_append]

theorem bits_written (h : Holds b W)
    (hValid : field.Valid before) (hSome : field.bitCount ≠ 0) :
    Written W field.value (fun R => readKnown R field)
      (W.out.length + (W.pending.length + field.bitCount) / 8, (W.pending.length + field.bitCount) % 8)
      (writeField b field) := by
  cases field with
  | bit value => exact (writeBit_written h value).map
  | bits value count =>
    have hWritten := (writeBits_written h hValid.1 hValid.2).map (f := fun word => FieldValue.number word.toNat)
    have hWord : value.toNat < 2 ^ 32 := lt_of_lt_of_le hValid.2 (Nat.pow_le_pow_right (by decide) hValid.1)
    rw [UInt32.toNat_ofNat_of_lt' hWord] at hWritten
    exact hWritten
  | string length text => exact absurd rfl hSome

theorem field_leads (h : At c b W)
    (hValid : field.Valid before) (hAllows : c.Allows field.layout) :
    ∃ b' W', writeField b field = .ok b' ∧ At (c.after field.layout) b' W' ∧
      Leads c (c.after field.layout) W W' field.value (fun R => readKnown R field) := by
  cases field with
  | bit value =>
    obtain ⟨hSync, hLimit, hRoom⟩ := hAllows
    exact push_leads h Nat.one_ne_zero (bits_written h.holds hValid Nat.one_ne_zero) hSync hLimit hRoom
  | bits value count =>
    by_cases hNone : count = 0
    · subst hNone
      have hZero : value.toNat = 0 := Nat.lt_one_iff.mp hValid.2
      refine ⟨b, W, rfl, h, fun S hS => ⟨hS, fun R hR => ⟨R, ?_, hR⟩⟩⟩
      rw [Field.value, hZero]
      rfl
    · obtain ⟨hSync, hLimit, hRoom⟩ := hAllows hNone
      exact push_leads h hNone (bits_written h.holds hValid hNone) hSync hLimit hRoom
  | string length text =>
    by_cases hNone : text = []
    · subst hNone
      obtain ⟨hAt, hLeads⟩ := empty_string_leads h
      exact ⟨b, W, rfl, hAt, hLeads⟩
    · have hSize : text.length ≠ 0 := fun hZero => hNone (List.eq_nil_of_length_eq_zero hZero)
      obtain ⟨b', W', hOk, hAt, hLeads⟩ := string_leads h hNone (hAllows hSize)
      refine ⟨b', W', ?_, ?_, ?_⟩
      · rw [writeField, writeString, if_neg hNone, hOk]
      · rw [Field.layout, Cursor.after, if_neg hSize]
        exact hAt
      · rw [Field.layout, Cursor.after, if_neg hSize]
        exact hLeads

/-! ## Whole sequences -/

theorem Leads.bind {α β : Type} {c₁ c₂ : Cursor} {W₁ W₂ : Position} {a : α} {value : β}
    {read : ByteBuffer → Except ByteBufferError (α × ByteBuffer)}
    {f : α × ByteBuffer → Except ByteBufferError (β × ByteBuffer)}
    (h : Leads c c₁ W W₁ a read) (hNext : Leads c₁ c₂ W₁ W₂ value (fun R => f (a, R))) :
    Leads c c₂ W W₂ value (fun R => read R >>= f) := by
  intro S hS
  obtain ⟨hMiddle, hRest⟩ := hNext S hS
  obtain ⟨hFirst, hRead⟩ := h S hMiddle
  refine ⟨hFirst, fun R hR => ?_⟩
  obtain ⟨R₁, hOk, hSync⟩ := hRead R hR
  obtain ⟨R₂, hLater, hEnd⟩ := hRest R₁ hSync
  refine ⟨R₂, ?_, hEnd⟩
  simp only [hOk]
  exact hLater

theorem fields_lead {fields : List Field} (h : At c b W)
    (hWell : WellFormed before fields) (hAllows : Along Cursor.after Cursor.Allows c (fields.map Field.layout)) :
    ∃ b' W', writeFields b fields = .ok b' ∧ At (run Cursor.after c (fields.map Field.layout)) b' W' ∧
      Leads c (run Cursor.after c (fields.map Field.layout)) W W' ((before ++ fields).map Field.value)
        (fun R => readFields (before.map Field.value) R fields) := by
  induction fields generalizing before c b W with
  | nil =>
    refine ⟨b, W, rfl, h, fun S hS => ⟨hS, fun R hR => ⟨R, ?_, hR⟩⟩⟩
    rw [List.append_nil]
    rfl
  | cons field fields ih =>
    obtain ⟨b₁, W₁, hField, hAt, hLeads⟩ := field_leads h hWell.1 hAllows.1
    obtain ⟨b', W', hFields, hAt', hLeads'⟩ := ih hAt hWell.2 hAllows.2
    refine ⟨b', W', ?_, hAt', ?_⟩
    · rw [writeFields, List.foldlM_cons, hField]
      exact hFields
    · have hRead : ∀ R, readFields (before.map Field.value) R (field :: fields) =
          (readKnown R field >>= fun next => readFields (before.map Field.value ++ [next.1]) next.2 fields) := by
        intro R
        rw [readFields, readField_known hWell.1]
      have hSeen : (before ++ [field]).map Field.value = before.map Field.value ++ [field.value] := List.map_append
      rw [List.append_assoc, List.singleton_append, hSeen] at hLeads'
      simp only [hRead]
      exact hLeads.bind hLeads'

theorem start_at : At .start empty ⟨[], []⟩ :=
  ⟨empty_holds, rfl, rfl, (fun hSettled => nomatch hSettled), fun hBits => absurd rfl hBits⟩

theorem holds_writing (h : Holds b W) : Writing b := by
  have hBits := h.bitpos
  have hFew := h.few
  refine ⟨by rw [h.wpos, h.storage], by omega, by omega, fun i hi hBehind => ?_⟩
  rw [h.packed i hi, List.getD_eq_default _ _ (by omega)]

theorem flush_ok (h : At c b W) :
    ∃ flushed, b.flushBits = .ok flushed ∧ Flushes W flushed.storage := by
  have hFlush := flushBits_holds h.holds
  cases hResult : b.flushBits with
  | error e =>
    rw [hResult] at hFlush
    obtain ⟨-, hSome, hFull⟩ := hFlush
    have hBits : c.bits ≠ 0 := fun hZero => hSome (List.eq_nil_of_length_eq_zero (h.bits.trans hZero))
    have hRoom := h.room hBits
    rw [h.bytes] at hFull
    omega
  | ok flushed =>
    rw [hResult] at hFlush
    exact ⟨flushed, rfl, hFlush.1⟩

theorem start_sync (S : List UInt8) : InSync Cursor.start.settled S ⟨[], []⟩ (ofStorage S) :=
  ⟨rfl, fun _ => ⟨rfl, Nat.le_succ 7⟩, fun hSome => absurd rfl hSome⟩

theorem roundTrips_of_along {fields : List Field} (hWell : WellFormed [] fields)
    (hAllows : Along Cursor.after Cursor.Allows .start (fields.map Field.layout)) : RoundTrips fields := by
  obtain ⟨b, W, hOk, hAt, hLeads⟩ := fields_lead start_at hWell hAllows
  obtain ⟨flushed, hFlush, hFlushes⟩ := flush_ok hAt
  obtain ⟨-, hRead⟩ := hLeads flushed.storage (hFlushes.begins hAt.holds.few List.prefix_rfl)
  obtain ⟨R, hValues, -⟩ := hRead _ (start_sync _)
  exact ⟨b, flushed, hOk, hFlush, R, hValues⟩

/-! ## Where it fails -/

def ReadsAt (S : List UInt8) (k : Nat) (R : ByteBuffer) : Prop :=
  Sync S ⟨List.replicate (k / 8) 0, List.replicate (k % 8) false⟩ R

variable {R' : ByteBuffer}

theorem readBit_at {k : Nat} {bit : Bool} (h : ReadsAt S k R)
    (hOk : R.readBit = .ok (bit, R')) :
    (∃ byte, S[k / 8]? = some byte ∧ bit = bitAt byte (k % 8)) ∧ ReadsAt S (k + 1) R' := by
  have hMod : k % 8 < 8 := Nat.mod_lt _ (by decide)
  cases hByte : S[k / 8]? with
  | none =>
    have hZero : k % 8 = 0 := by
      by_contra hSome
      obtain ⟨-, -, hLoaded⟩ := h.inside (by simpa using hSome)
      rw [List.length_replicate, hByte] at hLoaded
      cases hLoaded
    obtain ⟨hStart, hBits⟩ := h.aligned (by rw [hZero]; rfl)
    rw [List.length_replicate] at hStart
    have hEnd : R.storage.length ≤ R.rpos := by
      rw [h.storage, hStart]
      exact List.getElem?_eq_none_iff.mp hByte
    have hReset : ({ R with bitpos := R.bitpos + 1 } : ByteBuffer).resetBitPos = { R with bitpos := R.bitpos + 1 } := by
      rw [resetBitPos, if_pos (by simp only; omega)]
    rw [readBit] at hOk
    simp only [if_pos (show 7 < R.bitpos + 1 by omega), readUInt8, ByteBuffer.read, hReset, readAt,
      if_pos (show ({ R with bitpos := R.bitpos + 1 } : ByteBuffer).size < R.rpos + 1 by simp only [size]; omega)] at hOk
    cases hOk
  | some byte =>
    have hFew : (List.replicate (k % 8) false).length < 8 := by rw [List.length_replicate]; exact hMod
    obtain ⟨R₁, hRead, hStorage, hStart, hBits, hCurrent⟩ :=
      readBit_ok h hFew (by rw [List.length_replicate]; exact hByte)
    rw [hRead] at hOk
    obtain ⟨rfl, rfl⟩ := Prod.mk.inj (Except.ok.inj hOk)
    rw [List.length_replicate] at hStart hBits ⊢
    refine ⟨⟨byte, rfl, rfl⟩, hStorage, fun hNone => ?_, fun hSome => ?_⟩
    · have hLast : (k + 1) % 8 = 0 := by simpa using hNone
      simp only [List.length_replicate]
      omega
    · have hInside : (k + 1) % 8 ≠ 0 := by simpa using hSome
      have hSame : (k + 1) / 8 = k / 8 := by omega
      simp only [List.length_replicate, hSame, hByte, hCurrent]
      refine ⟨by omega, by omega, trivial⟩

variable {i : Nat}

theorem readBitsFrom_ok {value word : UInt32}
    (hOk : readBitsFrom value R (i + 1) = .ok (word, R')) :
    ∃ bit R₁, R.readBit = .ok (bit, R₁) ∧ (bit = true → i < 32) ∧
      readBitsFrom (if bit then value ||| UInt32.ofNat (1 <<< i) else value) R₁ i = .ok (word, R') := by
  rw [readBitsFrom] at hOk
  obtain ⟨⟨bit, R₁⟩, hBit, hRest⟩ := except_bind_ok hOk
  refine ⟨bit, R₁, hBit, ?_⟩
  by_cases hHigh : bit = true ∧ 32 ≤ i
  · obtain ⟨rfl, hHigh⟩ := hHigh
    simp only [decide_eq_true hHigh, Bool.and_self, if_true] at hRest
    cases hRest
  · have hLow : (bit && decide (32 ≤ i)) = false := by
      rw [Bool.and_eq_false_iff, decide_eq_false_iff_not]
      by_cases hBit : bit = true
      · exact Or.inr fun h => hHigh ⟨hBit, h⟩
      · exact Or.inl (Bool.eq_false_of_not_eq_true hBit)
    simp only [hLow, Bool.false_eq_true, if_false] at hRest
    exact ⟨fun hBit => Nat.lt_of_not_le fun h => hHigh ⟨hBit, h⟩, hRest⟩

theorem readBitsFrom_last {k : Nat} {value word : UInt32} (h : ReadsAt S k R)
    (hLow : value.toNat.testBit 0 = false) (hOk : readBitsFrom value R (i + 1) = .ok (word, R')) :
    ∃ byte, S[(k + i) / 8]? = some byte ∧ word.toNat.testBit 0 = bitAt byte ((k + i) % 8) := by
  induction i generalizing k value R with
  | zero =>
    obtain ⟨bit, R₁, hBit, -, hRest⟩ := readBitsFrom_ok hOk
    obtain ⟨⟨byte, hByte, hRead⟩, -⟩ := readBit_at h hBit
    obtain ⟨rfl, -⟩ := Prod.mk.inj (Except.ok.inj hRest)
    refine ⟨byte, hByte, ?_⟩
    rw [Nat.add_zero, ← hRead]
    cases bit with
    | false => exact hLow
    | true =>
      rw [if_pos rfl, UInt32.toNat_or, Nat.testBit_or, hLow]
      rfl
  | succ i ih =>
    obtain ⟨bit, R₁, hBit, hSmall, hRest⟩ := readBitsFrom_ok hOk
    obtain ⟨-, hNext⟩ := readBit_at h hBit
    have hStill : (if bit then value ||| UInt32.ofNat (1 <<< (i + 1)) else value).toNat.testBit 0 = false := by
      cases bit with
      | false => exact hLow
      | true =>
        rw [if_pos rfl, UInt32.toNat_or, one_shiftLeft_toNat32 (hSmall rfl), testBit_setBit, hLow]
        rfl
    have hLast := ih hNext hStill hRest
    rwa [Nat.add_right_comm, Nat.add_assoc] at hLast

theorem zeros_behind (h : Flushes W S) {j : Nat}
    (hBehind : 8 * W.out.length + W.pending.length ≤ j) {byte : UInt8} (hByte : S[j / 8]? = some byte) :
    bitAt byte (j % 8) = false := by
  have hInside := (List.getElem?_eq_some_iff.mp hByte).1
  cases h with
  | aligned out =>
    simp only [List.length_nil] at hBehind
    omega
  | padded out p last hSome hPacked =>
    rw [List.length_append, List.length_singleton] at hInside
    have hLast : j / 8 = out.length := by
      simp only at hBehind
      omega
    rw [hLast, List.getElem?_concat_length] at hByte
    obtain rfl := Option.some.inj hByte
    simp only at hBehind
    rw [hPacked _ (Nat.mod_lt _ (by decide)), List.getD_eq_default _ _ (by omega)]

def Field.marked : Field → Field
  | .bit _ => .bit true
  | .bits _ count => .bits 1 count
  | .string length text => .string length text

theorem marked_layout (field : Field) : field.marked.layout = field.layout := by
  cases field <;> rfl

theorem readFields_append (seen : List FieldValue) (R : ByteBuffer) (first second : List Field) :
    readFields seen R (first ++ second) = (readFields seen R first >>= fun next => readFields next.1 next.2 second) := by
  induction first generalizing seen R with
  | nil => rfl
  | cons field first ih =>
    rw [List.cons_append, readFields, readFields]
    cases readField seen R field with
    | error e => rfl
    | ok next => exact ih _ _

theorem writeFields_append (b : ByteBuffer) (first second : List Field) :
    writeFields b (first ++ second) = (writeFields b first >>= fun next => writeFields next second) :=
  List.foldlM_append

theorem written_holds {α : Type} {value : α}
    {read : ByteBuffer → Except ByteBufferError (α × ByteBuffer)} {size : Nat × Nat}
    (h : Written W value read size result)
    (hOk : result = .ok b) :
    ∃ W', Holds b W' ∧ Tracks W W' value read ∧ (W'.out.length, W'.pending.length) = size := by
  subst hOk
  exact h

variable {flushed : ByteBuffer}

theorem flushed_holds (h : Holds b W) (hFlush : b.flushBits = .ok flushed) :
    Flushes W flushed.storage := by
  have hBoth := flushBits_holds h
  rw [hFlush] at hBoth
  exact hBoth.1

variable {b' : ByteBuffer}

theorem marked_not_recovered (h : Holds b W)
    (hSome : field.bitCount ≠ 0) (hValid : field.marked.Valid before) (hWrite : writeField b field.marked = .ok b')
    (hFlush : b'.flushBits = .ok flushed) (hSync : InSync true flushed.storage W R)
    (hRead : readKnown R field.marked = .ok (field.marked.value, R')) : False := by
  have hCount : field.marked.bitCount = field.bitCount := by cases field <;> rfl
  obtain ⟨W', hHolds, -, hSize⟩ := written_holds (bits_written h hValid (by rwa [hCount])) hWrite
  obtain ⟨hBytes, hBits⟩ := Prod.mk.inj hSize
  have hFew := h.few
  have hFront : ReadsAt flushed.storage (8 * (W.out.length + 1)) R := by
    have hZero : 8 * (W.out.length + 1) % 8 = 0 := Nat.mul_mod_right ..
    refine ⟨hSync.1, fun _ => ⟨?_, hSync.2.2⟩, fun hSome => absurd (by rw [hZero]; rfl) hSome⟩
    rw [hSync.2.1, List.length_replicate, Nat.mul_div_cancel_left _ (by decide)]
  have hEnd : 8 * W'.out.length + W'.pending.length ≤ 8 * (W.out.length + 1) + (field.bitCount - 1) := by
    rw [hBytes, hBits, hCount]
    omega
  have hDark : ∀ {byte : UInt8}, flushed.storage[(8 * (W.out.length + 1) + (field.bitCount - 1)) / 8]? = some byte →
      bitAt byte ((8 * (W.out.length + 1) + (field.bitCount - 1)) % 8) = false :=
    fun hByte => zeros_behind (flushed_holds hHolds hFlush) hEnd hByte
  cases field with
  | bit value =>
    obtain ⟨⟨bit, R₁⟩, hBit, hValue⟩ := except_bind_ok hRead
    obtain ⟨⟨byte, hByte, rfl⟩, -⟩ := readBit_at hFront hBit
    obtain ⟨hTrue, -⟩ := Prod.mk.inj (Except.ok.inj hValue)
    have hOne := FieldValue.bit.inj hTrue
    have hDarkBit : bitAt byte (8 * (W.out.length + 1) % 8) = false := hDark hByte
    rw [hDarkBit] at hOne
    cases hOne
  | bits value count =>
    obtain ⟨i, rfl⟩ := Nat.exists_eq_succ_of_ne_zero hSome
    obtain ⟨⟨word, R₁⟩, hBits, hValue⟩ := except_bind_ok hRead
    obtain ⟨byte, hByte, hLast⟩ := readBitsFrom_last hFront (show (0 : UInt32).toNat.testBit 0 = false from rfl) hBits
    obtain ⟨hTrue, -⟩ := Prod.mk.inj (Except.ok.inj hValue)
    have hOne : word.toNat = 1 := FieldValue.number.inj hTrue
    have hDarkLast : bitAt byte ((8 * (W.out.length + 1) + i) % 8) = false := hDark hByte
    rw [hOne, hDarkLast] at hLast
    cases hLast
  | string length text => exact hSome rfl

/-! ## Room -/

theorem writeBit_bound (h : Writing b) {bit : Bool} (hOk : b.writeBit bit = .ok b')
    (hBits : b'.bitpos = 8) : b'.storage.length ≤ sizeLimit := by
  have hFew := h.few
  have hSome := h.some
  rw [h.writeBit_eq] at hOk
  split at hOk
  · split at hOk
    · rename_i hRoom
      obtain rfl := Except.ok.inj hOk
      rw [aligned, List.length_append, List.length_singleton]
      exact hRoom
    · cases hOk
  · obtain rfl := Except.ok.inj hOk
    simp only at hBits
    omega

theorem writeBits_bound (h : Writing b) {value : UInt64}
    (hOk : b.writeBits value (i + 1) = .ok b') (hBits : b'.bitpos = 8) : b'.storage.length ≤ sizeLimit := by
  induction i generalizing b with
  | zero =>
    obtain ⟨b₁, hBit, hRest⟩ := except_bind_ok hOk
    obtain rfl := Except.ok.inj hRest
    exact writeBit_bound h hBit hBits
  | succ i ih =>
    rw [writeBits] at hOk
    split at hOk
    · cases hOk
    · obtain ⟨b₁, hBit, hRest⟩ := except_bind_ok hOk
      exact ih (h.writeBit hBit) hRest

theorem bits_room (h : At c b W)
    (hValid : field.Valid before) (hSome : field.bitCount ≠ 0)
    (hWrite : writeField b field = .ok b') (hFlush : b'.flushBits = .ok flushed) :
    (c.push field.bitCount).bytes ≤ sizeLimit ∧
      ((c.push field.bitCount).bits ≠ 0 → (c.push field.bitCount).bytes < sizeLimit) := by
  obtain ⟨W', hHolds, -, hSize⟩ := written_holds (bits_written h.holds hValid hSome) hWrite
  obtain ⟨hBytes, hBits⟩ := Prod.mk.inj hSize
  rw [h.bytes, h.bits, ← hHolds.storage] at hBytes
  rw [h.bits] at hBits
  have hPush : c.push field.bitCount = ⟨b'.storage.length, W'.pending.length, false⟩ := by
    rw [Cursor.push, if_neg hSome, hBytes, hBits]
  rw [hPush]
  have hRoom : W'.pending.length ≠ 0 → b'.storage.length < sizeLimit := by
    intro hPending
    have hBitpos := hHolds.bitpos
    rw [(holds_writing hHolds).flushBits_eq] at hFlush
    split at hFlush
    · rename_i hEither
      exact hEither.resolve_left (by omega)
    · cases hFlush
  refine ⟨?_, hRoom⟩
  by_cases hPending : W'.pending.length = 0
  · have hAligned : b'.bitpos = 8 := by
      have hBitpos := hHolds.bitpos
      omega
    cases field with
    | bit value => exact writeBit_bound (holds_writing h.holds) hWrite hAligned
    | bits value count =>
      obtain ⟨i, rfl⟩ := Nat.exists_eq_succ_of_ne_zero hSome
      exact writeBits_bound (holds_writing h.holds) hWrite hAligned
    | string length text => exact absurd rfl hSome
  · exact le_of_lt (hRoom hPending)

theorem string_room (h : Holds b W) (hSome : text ≠ []) (hWrite : b.append text = .ok b') :
    W.out.length < sizeLimit := by
  rw [(holds_writing h).append_eq hSome] at hWrite
  split at hWrite
  · rename_i hRoom
    rwa [h.storage] at hRoom
  · cases hWrite

/-! ## Which sequences are recovered -/

theorem wellFormed_append {first second : List Field} :
    WellFormed before (first ++ second) ↔ WellFormed before first ∧ WellFormed (before ++ first) second := by
  induction first generalizing before with
  | nil => simp [WellFormed]
  | cons field first ih =>
    rw [List.cons_append, WellFormed, WellFormed, ih, and_assoc, List.append_assoc, List.singleton_append]

theorem marked_valid (h : field.Valid before) (hSome : field.bitCount ≠ 0) :
    field.marked.Valid before := by
  cases field with
  | bit value => trivial
  | bits value count =>
    have hOne : (1 : UInt64).toNat = 1 := rfl
    refine ⟨h.1, ?_⟩
    rw [hOne]
    exact Nat.one_lt_two_pow hSome
  | string length text => exact absurd rfl hSome

variable {done : List Field}

theorem RoundTrips.last (hDone : writeFields empty done = .ok b)
    (hLeads : Leads .start c ⟨[], []⟩ W (done.map Field.value) (fun R => readFields [] R done))
    (hValid : field.Valid done) (h : RoundTrips (done ++ [field])) :
    ∃ b' flushed, writeField b field = .ok b' ∧ b'.flushBits = .ok flushed ∧
      (Begins W flushed.storage → ∃ R R', InSync c.settled flushed.storage W R ∧
        readKnown R field = .ok (field.value, R')) := by
  obtain ⟨b₁, flushed, hWrite, hFlush, R', hRead⟩ := h
  rw [writeFields_append, hDone] at hWrite
  change writeFields b [field] = .ok b₁ at hWrite
  rw [writeFields, List.foldlM_cons] at hWrite
  obtain ⟨b', hField, hEnd⟩ := except_bind_ok hWrite
  obtain rfl := Except.ok.inj hEnd
  refine ⟨b', flushed, hField, hFlush, fun hBegins => ?_⟩
  obtain ⟨-, hReads⟩ := hLeads flushed.storage hBegins
  obtain ⟨R, hDoneRead, hSync⟩ := hReads _ (start_sync _)
  simp only at hDoneRead
  rw [readFields_append, hDoneRead] at hRead
  change readFields (done.map Field.value) R [field] = .ok ((done ++ [field]).map Field.value, R') at hRead
  rw [readFields, readField_known hValid] at hRead
  obtain ⟨⟨value, R₁⟩, hKnown, hLast⟩ := except_bind_ok hRead
  obtain ⟨hValues, -⟩ := Prod.mk.inj (Except.ok.inj hLast)
  rw [List.map_append] at hValues
  have hValue : [value] = [field.value] := List.append_cancel_left hValues
  obtain ⟨rfl, -⟩ := List.cons.inj hValue
  exact ⟨R, R₁, hSync, hKnown⟩

theorem begins_of_flushed (h : Holds b W) (hValid : field.Valid before) (hSome : field.bitCount ≠ 0)
    (hWrite : writeField b field = .ok b')
    (hFlush : b'.flushBits = .ok flushed) : Begins W flushed.storage := by
  obtain ⟨W', hHolds, hTracks, -⟩ := written_holds (bits_written h hValid hSome) hWrite
  exact (hTracks _ ((flushed_holds hHolds hFlush).begins hHolds.few List.prefix_rfl)).1

theorem allows_of_recovered (hDone : writeFields empty done = .ok b) (hAt : At c b W)
    (hLeads : Leads .start c ⟨[], []⟩ W (done.map Field.value) (fun R => readFields [] R done))
    (hValid : field.Valid done) (h : RoundTrips (done ++ [field]))
    (hMarked : field.bitCount ≠ 0 → RoundTrips (done ++ [field.marked])) : c.Allows field.layout := by
  obtain ⟨b', flushed, hWrite, hFlush, -⟩ := h.last hDone hLeads hValid
  have hBits : field.bitCount ≠ 0 → c.settled = false ∧ (c.push field.bitCount).bytes ≤ sizeLimit ∧
      ((c.push field.bitCount).bits ≠ 0 → (c.push field.bitCount).bytes < sizeLimit) := by
    intro hSome
    refine ⟨?_, bits_room hAt hValid hSome hWrite hFlush⟩
    by_contra hSettled
    have hCount : field.marked.bitCount ≠ 0 := by cases field <;> exact hSome
    have hMarkedValid := marked_valid hValid hSome
    obtain ⟨b₁, flushed₁, hWrite₁, hFlush₁, hRead⟩ := (hMarked hSome).last hDone hLeads hMarkedValid
    obtain ⟨R, R', hSync, hKnown⟩ := hRead (begins_of_flushed hAt.holds hMarkedValid hCount hWrite₁ hFlush₁)
    rw [Bool.eq_true_of_not_eq_false hSettled] at hSync
    exact marked_not_recovered hAt.holds hSome hMarkedValid hWrite₁ hFlush₁ hSync hKnown
  cases field with
  | bit value => exact hBits Nat.one_ne_zero
  | bits value count => exact hBits
  | string length text =>
    intro hSize
    have hText : text ≠ [] := fun hNone => hSize (by rw [hNone]; rfl)
    rw [writeField, writeString, if_neg hText] at hWrite
    rw [← hAt.bytes]
    exact string_room hAt.holds hText hWrite

theorem along_of_recovered {rest : List Field}
    (hDone : writeFields empty done = .ok b) (hAt : At c b W)
    (hLeads : Leads .start c ⟨[], []⟩ W (done.map Field.value) (fun R => readFields [] R done))
    (hWell : WellFormed [] (done ++ rest))
    (h : ∀ other, WellFormed [] other → other.map Field.layout <+: (done ++ rest).map Field.layout →
      RoundTrips other) : Along Cursor.after Cursor.Allows c (rest.map Field.layout) := by
  induction rest generalizing done c b W with
  | nil => trivial
  | cons field rest ih =>
    have hSplit : done ++ field :: rest = done ++ [field] ++ rest := List.append_cons ..
    rw [hSplit] at hWell h
    have hFirst := (wellFormed_append.mp hWell).1
    have hBoth := wellFormed_append.mp hFirst
    have hValid : field.Valid done := by simpa using hBoth.2.1
    have hPrefix : (done ++ [field]).map Field.layout <+: (done ++ [field] ++ rest).map Field.layout :=
      (List.prefix_append _ _).map _
    have hAllows : c.Allows field.layout := by
      refine allows_of_recovered hDone hAt hLeads hValid (h _ hFirst hPrefix) fun hSome => ?_
      refine h _ (wellFormed_append.mpr ⟨hBoth.1, ?_, trivial⟩) ?_
      · simpa using marked_valid hValid hSome
      · rwa [List.map_append, List.map_singleton, marked_layout, ← List.map_singleton, ← List.map_append]
    refine ⟨hAllows, ?_⟩
    have hOne : WellFormed done [field] := ⟨hValid, trivial⟩
    obtain ⟨b', W', hOk, hAt', hField⟩ := fields_lead hAt hOne ⟨hAllows, trivial⟩
    refine ih ?_ hAt' ?_ hWell h
    · rw [writeFields_append, hDone]
      exact hOk
    · have hRead : ∀ R, readFields [] R (done ++ [field]) =
          (readFields [] R done >>= fun next => readFields next.1 next.2 [field]) :=
        fun R => readFields_append ..
      simp only [hRead]
      exact hLeads.bind hField

/-- The strings and bits of a layout are recovered, whatever they are and wherever one stops, when
no bit is written while the reader is in front. -/
theorem recovered_iff {fields : List Field} (h : WellFormed [] fields) :
    (∀ other, WellFormed [] other → other.map Field.layout <+: fields.map Field.layout → RoundTrips other) ↔
      Along Cursor.after Cursor.Allows .start (fields.map Field.layout) := by
  constructor
  · intro hAll
    have hStart : writeFields empty [] = .ok empty := rfl
    refine along_of_recovered hStart start_at ?_ h hAll
    exact fun S hS => ⟨hS, fun R hR => ⟨R, rfl, hR⟩⟩
  · intro hAllows other hOther hPrefix
    exact roundTrips_of_along hOther (hAllows.of_prefix hPrefix)

theorem recovered_name : RoundTrips [.bits 2 3, .bit true, .string 0 [104, 105], .bit true] := by
  have hWell : WellFormed [] [.bits 2 3, .bit true, .string 0 [104, 105], .bit true] :=
    ⟨⟨by decide, by decide⟩, trivial, ⟨2, 3, rfl, rfl⟩, trivial, trivial⟩
  exact (recovered_iff hWell).mpr (by decide) _ hWell List.prefix_rfl

/-- A bit behind an empty string is read from the next byte. -/
theorem bit_behind_empty_string :
    WellFormed [] [.bits 0 3, .string 0 [], .bit true] ∧ ¬ RoundTrips [.bits 0 3, .string 0 [], .bit true] := by
  refine ⟨⟨⟨by decide, by decide⟩, ⟨0, 3, rfl, rfl⟩, trivial, trivial⟩, ?_⟩
  rintro ⟨b, flushed, hWrite, hFlush, R, hRead⟩
  have hStorage : flushed.storage = [16] := by
    obtain rfl := Except.ok.inj hWrite
    obtain rfl := Except.ok.inj hFlush
    rfl
  have hEnd : readFields [] (ofStorage [16]) [.bits 0 3, .string 0 [], .bit true] = .error (.position 1 1 1) := rfl
  rw [hStorage, hEnd] at hRead
  cases hRead

end AshamaneCore.PrefixedStrings
