import Mathlib.Data.BitVec

/-!
# The field of 256 elements

Bytes as polynomials of degree at most seven over the field of two elements, modulo
`x⁸ + x⁴ + x³ + x + 1`. Addition is exclusive or.

* `xtime` — multiplication by the polynomial `x`, an additive map (`xtime_xor`).
* `gfMul` — multiplication, by Horner's rule over the bits of the first factor.
* `gfInv` — the power 254: the multiplicative inverse of every element but zero, which it keeps.
* Multiplication by a constant is a sum of iterates of `xtime` (`gfMul_two` and the lemmas after
  it); identities between constants are then identities between these sums.
-/

namespace Togpu.Lib

/-- Multiplication by `x`.
Kind: D -/
def xtime (a : BitVec 8) : BitVec 8 := a <<< 1 ^^^ bif a.msb then 0x1b else 0

/-- Multiplication.
Kind: D -/
def gfMul (a b : BitVec 8) : BitVec 8 :=
  [7, 6, 5, 4, 3, 2, 1, 0].foldl (fun acc i => xtime acc ^^^ bif a.getLsbD i then b else 0) 0

/-- The square.
Kind: D -/
def gfSquare (a : BitVec 8) : BitVec 8 := gfMul a a

/-- The power 254, as `240 + 12 + 2`.
Kind: D -/
def gfInv (a : BitVec 8) : BitVec 8 :=
  let a3 := gfMul (gfSquare a) a
  let a12 := gfSquare (gfSquare a3)
  let a15 := gfMul a12 a3
  let a240 := gfSquare (gfSquare (gfSquare (gfSquare a15)))
  gfMul (gfMul a240 a12) (gfSquare a)

/-! ## Addition -/

/-- A sum with itself cancels, also inside a longer sum.
Kind: L -/
theorem xor_xor_self_left {w : ℕ} (a b : BitVec w) : a ^^^ (a ^^^ b) = b := by
  rw [← BitVec.xor_assoc, BitVec.xor_self, BitVec.zero_xor]

/-- Adding twice is adding nothing.
Kind: L -/
theorem xor_xor_self_right {w : ℕ} (a b : BitVec w) : a ^^^ b ^^^ b = a := by
  rw [BitVec.xor_assoc, BitVec.xor_self, BitVec.xor_zero]

/-- Terms of a sum may change places.
Kind: L -/
theorem xor_left_comm {w : ℕ} (a b c : BitVec w) : a ^^^ (b ^^^ c) = b ^^^ (a ^^^ c) := by
  rw [← BitVec.xor_assoc, BitVec.xor_comm a b, BitVec.xor_assoc]

/-- Multiplication by `x` is additive.
Kind: L -/
theorem xtime_xor (a b : BitVec 8) : xtime (a ^^^ b) = xtime a ^^^ xtime b := by
  have hmsb : (bif (a ^^^ b).msb then (0x1b : BitVec 8) else 0) =
      (bif a.msb then 0x1b else 0) ^^^ (bif b.msb then 0x1b else 0) := by
    rw [BitVec.msb_xor]
    cases a.msb <;> cases b.msb <;> decide
  unfold xtime
  rw [hmsb, BitVec.shiftLeft_xor_distrib]
  ac_rfl

/-- Zero stays zero.
Kind: L -/
@[simp]
theorem xtime_zero : xtime 0#8 = 0#8 := by decide

/-- Multiplication is additive in its second factor.
Kind: L -/
theorem gfMul_xor (a b c : BitVec 8) : gfMul a (b ^^^ c) = gfMul a b ^^^ gfMul a c := by
  -- Horner's rule on both sides, with the two accumulators apart
  have hfold : ∀ (l : List ℕ) (x y : BitVec 8),
      l.foldl (fun acc i => xtime acc ^^^ bif a.getLsbD i then b ^^^ c else 0) (x ^^^ y) =
        l.foldl (fun acc i => xtime acc ^^^ bif a.getLsbD i then b else 0) x ^^^
          l.foldl (fun acc i => xtime acc ^^^ bif a.getLsbD i then c else 0) y := by
    intro l
    induction l with
    | nil => exact fun _ _ => rfl
    | cons i l ih =>
        intro x y
        simp only [List.foldl_cons]
        rw [← ih, xtime_xor]
        cases a.getLsbD i
        · simp
        · simp only [cond_true]
          congr 1
          ac_rfl
  exact hfold [7, 6, 5, 4, 3, 2, 1, 0] 0 0

/-! ## Multiplication by a constant -/

/-- Two is `x`.
Kind: L -/
theorem gfMul_two (b : BitVec 8) : gfMul 2 b = xtime b := by
  simp [gfMul]

/-- Three is `x + 1`.
Kind: L -/
theorem gfMul_three (b : BitVec 8) : gfMul 3 b = xtime b ^^^ b := by
  simp [gfMul]

/-- Nine is `x³ + 1`.
Kind: L -/
theorem gfMul_nine (b : BitVec 8) : gfMul 9 b = xtime (xtime (xtime b)) ^^^ b := by
  simp [gfMul]

/-- Eleven is `x³ + x + 1`.
Kind: L -/
theorem gfMul_eleven (b : BitVec 8) :
    gfMul 11 b = xtime (xtime (xtime b)) ^^^ xtime b ^^^ b := by
  simp [gfMul, xtime_xor]

/-- Thirteen is `x³ + x² + 1`.
Kind: L -/
theorem gfMul_thirteen (b : BitVec 8) :
    gfMul 13 b = xtime (xtime (xtime b)) ^^^ xtime (xtime b) ^^^ b := by
  simp [gfMul, xtime_xor]

/-- Fourteen is `x³ + x² + x`.
Kind: L -/
theorem gfMul_fourteen (b : BitVec 8) :
    gfMul 14 b = xtime (xtime (xtime b)) ^^^ xtime (xtime b) ^^^ xtime b := by
  simp [gfMul, xtime_xor]

end Togpu.Lib
