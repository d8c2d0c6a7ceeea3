import Mathlib.Algebra.Ring.Int.Defs
import Mathlib.Algebra.Ring.Nat

/-!
# Signed and unsigned words of 32 bits

Unsigned words are read as signed numbers and written back. A signed addition has a result
only inside of the range.
-/

namespace Library.SignedWords

/-- The signed number with the same bits. -/
def int32 (x : UInt32) : Int := if x.toNat < 2 ^ 31 then x.toNat else x.toNat - 2 ^ 32

def uint32 (z : Int) : UInt32 := UInt32.ofNat (z % 2 ^ 32).toNat

def InInt32 (z : Int) : Prop := -2 ^ 31 ≤ z ∧ z < 2 ^ 31

instance (z : Int) : Decidable (InInt32 z) := inferInstanceAs (Decidable (_ ∧ _))

/-- Signed addition, without a result where it overflows. -/
def addInt32 (a b : Int) : Option Int := if InInt32 (a + b) then some (a + b) else none

theorem int32_of_lt {x : UInt32} (h : x.toNat < 2 ^ 31) : int32 x = x.toNat := if_pos h

theorem int32_of_le {x : UInt32} (h : 2 ^ 31 ≤ x.toNat) : int32 x = x.toNat - 2 ^ 32 := if_neg (Nat.not_lt.mpr h)

theorem uint32_toNat (z : Int) : ((uint32 z).toNat : Int) = z % 2 ^ 32 := by
  rw [uint32, UInt32.toNat_ofNat']
  omega

theorem uint32_toNat_of_range {z : Int} (h : 0 ≤ z) (hLt : z < 2 ^ 32) : ((uint32 z).toNat : Int) = z := by
  rw [uint32_toNat, Int.emod_eq_of_lt h hLt]

theorem inInt32_int32 (x : UInt32) : InInt32 (int32 x) := by
  have hLt := x.toNat_lt
  rw [InInt32, int32]
  split
  · omega
  · omega

theorem uint32_int32 (x : UInt32) : uint32 (int32 x) = x := by
  have hLt := x.toNat_lt
  refine UInt32.toNat_inj.mp (Int.ofNat_inj.mp ?_)
  rw [uint32_toNat, int32]
  split
  · omega
  · omega

theorem addInt32_eq_some {a b c : Int} : addInt32 a b = some c ↔ InInt32 (a + b) ∧ c = a + b := by
  rw [addInt32]
  split
  · rename_i h
    rw [Option.some_inj]
    exact ⟨fun hc => ⟨h, hc.symm⟩, fun hc => hc.2.symm⟩
  · rename_i h
    exact iff_of_false nofun fun hc => h hc.1

end Library.SignedWords
