/-!
# Words with a ceiling

Offsets, limits and totals are words of 64 bits. Where a sum could pass the largest word it stops
there, so that no page position ever wraps around.
-/

namespace LiveAudit

/-- Largest word of 64 bits. -/
def maxWord : Nat := UInt64.size - 1

/-- Word nearest to a number from below. -/
def capWord (n : Nat) : UInt64 :=
  UInt64.ofNat (min n maxWord)

theorem toNat_capWord (n : Nat) : (capWord n).toNat = min n maxWord := by
  rw [capWord, UInt64.toNat_ofNat']
  exact Nat.mod_eq_of_lt (Nat.lt_of_le_of_lt (Nat.min_le_right n maxWord) (by decide))

theorem toNat_capWord_of_lt {n : Nat} (h : n < UInt64.size) : (capWord n).toNat = n := by
  rw [toNat_capWord]
  exact Nat.min_eq_left (Nat.le_sub_one_of_lt h)

end LiveAudit
