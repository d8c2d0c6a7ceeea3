import Mathlib.Logic.Function.Basic

/-!
# Guids

A guid is 128 bits wide. Its uppermost bits say what kind of thing it names.
-/

namespace AshamaneCore

structure ObjectGuid where
  low : UInt64
  high : UInt64
  deriving DecidableEq

namespace ObjectGuid

def empty : ObjectGuid := ⟨0, 0⟩

def toNat (guid : ObjectGuid) : Nat := guid.high.toNat * 0x10000000000000000 + guid.low.toNat

def highGuidParty : UInt64 := 27

def getHigh (guid : ObjectGuid) : UInt64 := (guid.high >>> 58) &&& 0x3F

def isParty (guid : ObjectGuid) : Bool := guid.getHigh = highGuidParty

def party (counter : UInt64) : ObjectGuid := ⟨counter, highGuidParty <<< 58⟩

theorem toNat_injective : Function.Injective toNat := by
  intro a b h
  have hA := a.low.toNat_lt
  have hB := b.low.toNat_lt
  simp only [toNat] at h
  have hHigh : a.high = b.high := UInt64.toNat_inj.mp (by omega)
  have hLow : a.low = b.low := UInt64.toNat_inj.mp (by omega)
  cases a
  cases b
  exact congrArg₂ ObjectGuid.mk hLow hHigh

end ObjectGuid

end AshamaneCore
