import Mathlib.Algebra.Group.Nat.Defs
import Mathlib.Data.Nat.Basic

/-!
Fixed-width unsigned arithmetic on naturals: the conversions and the saturating operations of a
language whose integers are `u32` and `u64`.
-/

namespace Seedchamp.Foundation.Machine

def u32Max : Nat := 2 ^ 32 - 1
def u64Max : Nat := 2 ^ 64 - 1

/-- The cast `n as u32`. -/
def asU32 (n : Nat) : Nat := n % 2 ^ 32

/-- `a.saturating_add(b)` on `u64`. -/
def saturatingAdd (a b : Nat) : Nat := min (a + b) u64Max

theorem asU32_of_lt (n : Nat) (small : n < 2 ^ 32) : asU32 n = n :=
  Nat.mod_eq_of_lt small

theorem saturatingAdd_of_lt (a b : Nat) (small : a + b < 2 ^ 64) : saturatingAdd a b = a + b := by
  unfold saturatingAdd u64Max
  omega

theorem saturatingAdd_le (a b : Nat) : saturatingAdd a b ≤ a + b := Nat.min_le_left _ _

end Seedchamp.Foundation.Machine
