import Mathlib.Data.BitVec
import Mathlib.Tactic.Ring

/-!
# Power-of-two windows of a machine word

Facts about addresses of a fixed width `w` that a program groups by their high bits:

* `a &&& ~~~(2^k - 1)` (clear the low `k` bits) identifies the `2^k`-byte window of `a`: two
  addresses have one mask value iff their quotients by `2^k` agree (`window_eq_iff`).
* `a >>> k` is that quotient (`toNat_ushiftRight_eq_div`).

Nothing here names a particular program.
-/

namespace Togpu.Lib

variable {w : ℕ}

/-- Shifting right by `k` divides by `2^k`.
Kind: L -/
theorem toNat_ushiftRight_eq_div (a : BitVec w) (k : ℕ) :
    (a >>> k).toNat = a.toNat / 2 ^ k := by
  rw [BitVec.toNat_ushiftRight, Nat.shiftRight_eq_div_pow]

/-- Clearing the low `k` bits of a word leaves `2^k` times its quotient.
Kind: L -/
theorem toNat_and_not_low (a m : BitVec w) (k : ℕ) (hm : m.toNat = 2 ^ k - 1) :
    (a &&& ~~~m).toNat = a.toNat / 2 ^ k * 2 ^ k := by
  apply Nat.eq_of_testBit_eq
  intro i
  rw [BitVec.testBit_toNat, BitVec.getLsbD_and, BitVec.getLsbD_not, ← BitVec.testBit_toNat m, hm,
    Nat.testBit_two_pow_sub_one, Nat.testBit_mul_two_pow, Nat.testBit_div_two_pow,
    ← BitVec.testBit_toNat a]
  by_cases hik : i < k
  · simp [hik]
  · have hki : k ≤ i := not_lt.mp hik
    have hsub : i - k + k = i := by omega
    by_cases hiw : i < w
    · simp [hik, hki, hiw, hsub]
    · have hhigh : a.toNat.testBit i = false := by
        rw [BitVec.testBit_toNat]
        exact BitVec.getLsbD_of_ge a i (not_lt.mp hiw)
      simp [hki, hsub, hhigh]

/-- **Windows.** Two words agree after clearing their low `k` bits iff they lie in one window.
Kind: P -/
theorem window_eq_iff (a b m : BitVec w) (k : ℕ) (hm : m.toNat = 2 ^ k - 1) :
    a &&& ~~~m = b &&& ~~~m ↔ a.toNat / 2 ^ k = b.toNat / 2 ^ k := by
  rw [← BitVec.toNat_inj, toNat_and_not_low a m k hm, toNat_and_not_low b m k hm]
  exact Nat.mul_left_inj (Nat.two_pow_pos k).ne'

end Togpu.Lib
