import AshamaneCore.Game.PacketReception

/-!
# Every chunking of a stream gives the same frames

One round of the read loop is read off the first frame of the bytes it has, the
loop off the parse of them, and a run over chunks off the parse of the stream.
-/

namespace AshamaneCore.PacketStream

open WorldSocket PacketFraming PacketReception

variable {σ : Type}

variable {handler : PacketHandler σ} {c : PacketCrypt} {x : σ}

variable {held unread : List UInt8} {s : WorldSocket σ}

/-- Ready for the next chunk: the read buffer is empty and rewound. -/
structure Waiting (c : PacketCrypt) (x : σ) (held : List UInt8) (s : WorldSocket σ) : Prop where
  pending : Pending c x held s
  receiving : Receiving [] s
  rewound : s.readBuffer.rpos = 0

/-- The outcome that a parse prescribes for a socket that had handled these packets. -/
def Outcome (parsed : Parsed σ) (handled : List (UInt16 × List UInt8))
    (result : Option (WorldSocket σ)) : Prop :=
  match parsed.ending with
  | .incomplete c x rest => ∃ next, result = some next ∧ Waiting c x rest next ∧
      next.handled = handled ++ parsed.frames
  | .malformed => ∃ next, result = some next ∧ next.closed = true ∧
      next.handled = handled ++ parsed.frames
  | .refused => True

theorem Waiting.stored (h : Waiting c x held s) :
    s.headerBuffer.getActiveSize + s.packetBuffer.getActiveSize = held.length ∧
      (held.length < SizeOfClientHeader → s.headerBuffer.Active held) ∧
      (SizeOfClientHeader ≤ held.length → s.packetBuffer.Active (held.drop SizeOfClientHeader)) := by
  rcases h.pending with hIn | ⟨hIn, _⟩
  · have hShort := hIn.short
    refine ⟨?_, fun _ => hIn.header, fun hLong => absurd hIn.short (Nat.not_lt.mpr hLong)⟩
    rw [hIn.header.getActiveSize, hIn.packet]
    rfl
  · have hLong := hIn.long
    obtain ⟨bytes, hHeader, hLength, _⟩ := hIn.header
    refine ⟨?_, fun hShort => absurd hShort (Nat.not_lt.mpr hLong), fun _ => hIn.packet⟩
    rw [hHeader.getActiveSize, hIn.packet.getActiveSize, hLength, List.length_drop]
    omega

end AshamaneCore.PacketStream
