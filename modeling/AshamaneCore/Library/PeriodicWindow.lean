import Mathlib.Algebra.Order.Group.Unbundled.Int
import Mathlib.Data.Int.Basic

/-!
# Windows that come back

A time is in the window when less than the window's length of its period has
passed. It stays in or out until the next change.
-/

namespace Library.PeriodicWindow

def InWindow (period length passed : Int) : Prop := passed % period < length

instance (period length passed : Int) : Decidable (InWindow period length passed) :=
  inferInstanceAs (Decidable (_ < _))

def untilChange (period length passed : Int) : Int :=
  if passed % period < length then length - passed % period else period - passed % period

variable {period length passed later : Int}

theorem emod_later (h : later < period - passed % period) (hLater : 0 ≤ later) (hPeriod : 0 < period) :
    (passed + later) % period = passed % period + later := by
  have hPassed := Int.emod_nonneg passed hPeriod.ne'
  rw [← Int.emod_add_emod]
  exact Int.emod_eq_of_lt (by omega) (by omega)

theorem inWindow_later (hPeriod : 0 < period) (hLater : 0 ≤ later)
    (h : later < untilChange period length passed) :
    InWindow period length (passed + later) ↔ InWindow period length passed := by
  rw [untilChange] at h
  split at h
  · rename_i hIn
    refine ⟨fun _ => hIn, fun _ => ?_⟩
    by_cases hLong : period ≤ length
    · exact lt_of_lt_of_le (Int.emod_lt_of_pos _ hPeriod) hLong
    · rw [InWindow, emod_later (by omega) hLater hPeriod]
      omega
  · rename_i hOut
    rw [InWindow, InWindow, emod_later h hLater hPeriod]
    omega

end Library.PeriodicWindow
