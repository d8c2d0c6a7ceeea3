import Mathlib.Data.List.Basic

/-!
# The message buffer of the network layer

Storage with a write and a read position. The operations are those of the
class; a write past the storage is undefined there and gives none here.
-/

namespace AshamaneCore

structure MessageBuffer where
  wpos : Nat
  rpos : Nat
  storage : List UInt8
  deriving DecidableEq

namespace MessageBuffer

def ofSize (initialSize : Nat) : MessageBuffer := ⟨0, 0, List.replicate initialSize 0⟩

def reset (b : MessageBuffer) : MessageBuffer := { b with wpos := 0, rpos := 0 }

def resize (b : MessageBuffer) (bytes : Nat) : MessageBuffer :=
  { b with storage := b.storage.take bytes ++ List.replicate (bytes - b.storage.length) 0 }

def readCompleted (b : MessageBuffer) (bytes : Nat) : MessageBuffer :=
  { b with rpos := b.rpos + bytes }

def getActiveSize (b : MessageBuffer) : Nat := b.wpos - b.rpos

def getRemainingSpace (b : MessageBuffer) : Nat := b.storage.length - b.wpos

def peek (b : MessageBuffer) (count : Nat) : List UInt8 := (b.storage.drop b.rpos).take count

def activeBytes (b : MessageBuffer) : List UInt8 := b.peek b.getActiveSize

def poke (b : MessageBuffer) (bytes : List UInt8) : MessageBuffer :=
  { b with storage := b.storage.take b.rpos ++ bytes ++ b.storage.drop (b.rpos + bytes.length) }

def normalize (b : MessageBuffer) : MessageBuffer :=
  if b.rpos = 0 then b
  else
    let active := b.peek b.getActiveSize
    ⟨b.wpos - b.rpos, 0, active ++ b.storage.drop active.length⟩

def ensureFreeSpace (b : MessageBuffer) : MessageBuffer :=
  if b.getRemainingSpace = 0 then b.resize (b.storage.length * 3 / 2) else b

def write (b : MessageBuffer) (data : List UInt8) : Option MessageBuffer :=
  if data.length ≤ b.getRemainingSpace then
    some { b with
      wpos := b.wpos + data.length
      storage := b.storage.take b.wpos ++ data ++ b.storage.drop (b.wpos + data.length) }
  else none

def move (b : MessageBuffer) : List UInt8 × MessageBuffer := (b.storage, ⟨0, 0, []⟩)

/-- The unread bytes of the buffer are exactly these, inside its storage. -/
def Active (b : MessageBuffer) (bytes : List UInt8) : Prop :=
  ∃ before after, b.storage = before ++ bytes ++ after ∧
    b.rpos = before.length ∧ b.wpos = before.length + bytes.length

variable {b : MessageBuffer} {bytes : List UInt8}

theorem Active.getActiveSize (h : b.Active bytes) :
    b.getActiveSize = bytes.length := by
  obtain ⟨before, after, _, hRead, hWrite⟩ := h
  simp only [MessageBuffer.getActiveSize, hRead, hWrite]
  omega

theorem Active.getRemainingSpace (h : b.Active bytes) :
    b.getRemainingSpace + (b.rpos + bytes.length) = b.storage.length := by
  obtain ⟨before, after, hStorage, hRead, hWrite⟩ := h
  simp only [MessageBuffer.getRemainingSpace, hRead, hWrite, hStorage, List.length_append]
  omega

variable {count : Nat}

theorem Active.peek (h : b.Active bytes)
    (hCount : count ≤ bytes.length) : b.peek count = bytes.take count := by
  obtain ⟨before, after, hStorage, hRead, _⟩ := h
  rw [MessageBuffer.peek, hStorage, hRead, List.append_assoc, List.drop_left,
    List.take_append_of_le_length hCount]

theorem Active.peek_all (h : b.Active bytes)
    (hCount : bytes.length = count) : b.peek count = bytes := by
  rw [h.peek (Nat.le_of_eq hCount.symm), ← hCount, List.take_length]

theorem Active.activeBytes (h : b.Active bytes) :
    b.activeBytes = bytes := h.peek_all h.getActiveSize.symm

theorem Active.readCompleted (h : b.Active bytes) (hCount : count ≤ bytes.length) :
    (b.readCompleted count).Active (bytes.drop count) := by
  obtain ⟨before, after, hStorage, hRead, hWrite⟩ := h
  have hSplit := List.take_append_drop count bytes
  refine ⟨before ++ bytes.take count, after, ?_, ?_, ?_⟩
  · simp only [MessageBuffer.readCompleted, hStorage, List.append_assoc]
    rw [← List.append_assoc (bytes.take count), hSplit]
  · simp [MessageBuffer.readCompleted, hRead, Nat.min_eq_left hCount]
  · simp only [MessageBuffer.readCompleted, hWrite, List.length_append, List.length_take,
      List.length_drop]
    omega

theorem Active.write (h : b.Active bytes)
    (data : List UInt8) (hSpace : data.length ≤ b.getRemainingSpace) :
    ∃ next, b.write data = some next ∧ next.Active (bytes ++ data) ∧ next.rpos = b.rpos ∧
      next.storage.length = b.storage.length := by
  have hTotal := h.getRemainingSpace
  obtain ⟨before, after, hStorage, hRead, hWrite⟩ := h
  refine ⟨_, if_pos hSpace, ⟨before, after.drop data.length, ?_, hRead, ?_⟩, rfl, ?_⟩
  · have hTake : b.storage.take b.wpos = before ++ bytes := by
      rw [hStorage, hWrite, ← List.length_append, List.take_left]
    have hDrop : b.storage.drop (b.wpos + data.length) = after.drop data.length := by
      rw [hStorage, hWrite, ← List.length_append, List.drop_length_add_append]
    simp only [hTake, hDrop, List.append_assoc]
  · simp only [hWrite, List.length_append]
    omega
  · simp only [List.length_append, List.length_take, List.length_drop]
    have hBound : b.wpos ≤ b.storage.length := by
      simp only [hStorage, hWrite, List.length_append]
      omega
    omega

theorem Active.poke (h : b.Active bytes)
    (patch : List UInt8) (hPatch : patch.length ≤ bytes.length) :
    (b.poke patch).Active (patch ++ bytes.drop patch.length) ∧
      (b.poke patch).storage.length = b.storage.length := by
  obtain ⟨before, after, hStorage, hRead, hWrite⟩ := h
  have hTake : b.storage.take b.rpos = before := by
    rw [hStorage, hRead, List.append_assoc, List.take_left]
  have hDrop : b.storage.drop (b.rpos + patch.length) = bytes.drop patch.length ++ after := by
    rw [hStorage, hRead, List.append_assoc, List.drop_length_add_append,
      List.drop_append_of_le_length hPatch]
  refine ⟨⟨before, after, ?_, hRead, ?_⟩, ?_⟩
  · simp only [MessageBuffer.poke, hTake, hDrop, List.append_assoc]
  · simp only [MessageBuffer.poke, hWrite, List.length_append, List.length_drop]
    omega
  · simp only [MessageBuffer.poke, hTake, hDrop, List.length_append, List.length_drop]
    simp only [hStorage, List.length_append]
    omega

theorem Active.normalize (h : b.Active bytes) :
    b.normalize.Active bytes ∧ b.normalize.rpos = 0 ∧
      b.normalize.storage.length = b.storage.length := by
  rw [MessageBuffer.normalize]
  split
  · rename_i hZero
    exact ⟨h, hZero, rfl⟩
  · have hPeek : b.peek b.getActiveSize = bytes := by
      rw [h.getActiveSize, h.peek_all rfl]
    obtain ⟨before, after, hStorage, hRead, hWrite⟩ := h
    rw [hPeek]
    refine ⟨⟨[], b.storage.drop bytes.length, rfl, rfl, ?_⟩, rfl, ?_⟩
    · simp only [List.length_nil, hRead, hWrite]
      omega
    · simp only [hStorage, List.length_append, List.length_drop]
      omega

def WellFormed (b : MessageBuffer) : Prop := b.rpos ≤ b.wpos ∧ b.wpos ≤ b.storage.length

instance (b : MessageBuffer) : Decidable b.WellFormed := inferInstanceAs (Decidable (_ ∧ _))

theorem WellFormed.active (h : b.WellFormed) : b.Active b.activeBytes := by
  obtain ⟨hRead, hWrite⟩ := h
  have hLength : b.activeBytes.length = b.wpos - b.rpos := by
    simp only [MessageBuffer.activeBytes, MessageBuffer.peek, MessageBuffer.getActiveSize,
      List.length_take, List.length_drop]
    omega
  refine ⟨b.storage.take b.rpos, b.storage.drop b.wpos, ?_, ?_, ?_⟩
  · have hDrop : b.storage.drop b.wpos = (b.storage.drop b.rpos).drop (b.wpos - b.rpos) := by
      rw [List.drop_drop, Nat.add_sub_cancel' hRead]
    rw [hDrop, List.append_assoc, MessageBuffer.activeBytes, MessageBuffer.peek,
      MessageBuffer.getActiveSize, List.take_append_drop, List.take_append_drop]
  · rw [List.length_take]
    omega
  · rw [List.length_take, hLength]
    omega

end MessageBuffer

end AshamaneCore
