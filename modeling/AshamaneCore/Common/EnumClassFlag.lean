/-!
# Flag sets

A flag set is the bit vector of its underlying type. A flag is tested by a
common bit, so no set has the empty flag.
-/

namespace AshamaneCore

abbrev EnumClassFlag (w : Nat) := BitVec w

namespace EnumClassFlag

variable {w : Nat}

def hasFlag (value flag : EnumClassFlag w) : Bool := value &&& flag ≠ 0

variable {flag : EnumClassFlag w}

@[simp] theorem hasFlag_zero (value : EnumClassFlag w) : hasFlag value 0#w = false := by
  simp [hasFlag]

@[simp] theorem hasFlag_or (value other flag : EnumClassFlag w) :
    hasFlag (value ||| other) flag = (hasFlag value flag || hasFlag other flag) := by
  have hDistrib : (value ||| other) &&& flag = value &&& flag ||| other &&& flag := by
    ext i hi
    simp [Bool.and_or_distrib_right]
  simp only [hasFlag, hDistrib, ne_eq, ← Bool.decide_or, decide_eq_decide]
  exact (not_congr BitVec.or_eq_zero_iff).trans Decidable.not_and_iff_not_or_not

theorem hasFlag_keep {mask : EnumClassFlag w} (h : mask &&& flag = flag)
    (value : EnumClassFlag w) : hasFlag (value &&& mask) flag = hasFlag value flag := by
  rw [hasFlag, hasFlag, BitVec.and_assoc, h]

theorem hasFlag_drop {mask : EnumClassFlag w} (h : mask &&& flag = 0)
    (value : EnumClassFlag w) : hasFlag (value &&& mask) flag = false := by
  rw [hasFlag, BitVec.and_assoc, h]
  exact hasFlag_zero value

def Apart (changed flag : EnumClassFlag w) : Prop := ~~~changed &&& flag = flag

instance (changed flag : EnumClassFlag w) : Decidable (Apart changed flag) :=
  inferInstanceAs (Decidable (_ = _))

variable {changed : EnumClassFlag w}

theorem hasFlag_clear (h : Apart changed flag)
    (value : EnumClassFlag w) : hasFlag (value &&& ~~~changed) flag = hasFlag value flag :=
  hasFlag_keep h value

theorem hasFlag_set (h : Apart changed flag)
    (value : EnumClassFlag w) : hasFlag (value ||| changed) flag = hasFlag value flag := by
  have hNone : hasFlag changed flag = false := by
    rw [Apart] at h
    rw [hasFlag, ← h, ← BitVec.and_assoc, BitVec.and_not_self]
    simp
  rw [hasFlag_or, hNone, Bool.or_false]

theorem hasFlag_clear_self (value flag : EnumClassFlag w) :
    hasFlag (value &&& ~~~flag) flag = false :=
  hasFlag_drop (by rw [BitVec.and_comm, BitVec.and_not_self]) value

theorem hasFlag_set_self (h : flag ≠ 0) (value : EnumClassFlag w) :
    hasFlag (value ||| flag) flag = true := by
  have hSelf : hasFlag flag flag = true := by
    rw [hasFlag, BitVec.and_self]
    exact decide_eq_true h
  rw [hasFlag_or, hSelf, Bool.or_true]

def assign (value flag : EnumClassFlag w) (on : Prop) [Decidable on] : EnumClassFlag w :=
  if on then value ||| flag else value &&& ~~~flag

theorem hasFlag_assign (h : flag ≠ 0) (value : EnumClassFlag w) (on : Prop)
    [Decidable on] : hasFlag (assign value flag on) flag = true ↔ on := by
  rw [assign]
  split
  · rename_i hOn
    exact iff_of_true (hasFlag_set_self h value) hOn
  · rename_i hOff
    rw [hasFlag_clear_self]
    exact iff_of_false Bool.false_ne_true hOff

theorem hasFlag_assign_apart (h : Apart changed flag)
    (value : EnumClassFlag w) (on : Prop) [Decidable on] :
    hasFlag (assign value changed on) flag = hasFlag value flag := by
  rw [assign]
  split
  · exact hasFlag_set h value
  · exact hasFlag_clear h value

end EnumClassFlag

end AshamaneCore
