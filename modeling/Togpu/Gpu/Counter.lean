import Togpu.Gpu.Modes

/-!
# The counter blocks

`big_u128_add` adds a thread's offset to the lower half of a 16-byte big-endian counter. The upper
half of its result is a constant: the line that copies it from the counter is commented out.

* `lowerHalf` — the lower 64 bits of a counter, as a number; `nonceBlock` — the counter block with
  the counter's own upper half.
* **What `big_u128_add` produces** (`bigU128Add_block`): eight zero bytes and the sum.
* **Which threads share a counter block** (`counterBlock_eq_iff`): those with equal sums, whatever
  the upper halves.
* **Counter blocks follow the nonce exactly if there is none** (`counters_follow_nonce_iff`).
-/

namespace Togpu.Gpu

open Togpu.Lib Togpu.Lib.Fips197

/-- The lower eight bytes of a counter, big-endian.
Kind: D -/
def lowerHalf (ctr : Text) : ℕ :=
  (List.range 8).foldl (fun v i => 256 * v + (ctr (8 + i)).toNat) 0

/-- The counter block with the upper half of the counter and the sum of the lower half and the
offset, modulo `2 ^ 64`.
Kind: D -/
def nonceBlock (ctr : Text) (offset : BitVec 64) : Block := fun i =>
  if (i : ℕ) < 8 then ctr i
  else BitVec.ofNat 8 ((lowerHalf ctr + offset.toNat) % 2 ^ 64 / 256 ^ (15 - (i : ℕ)))

/-! ## The sum -/

/-- A word of four bytes as a number.
Kind: L -/
theorem toNat_wordOf (b0 b1 b2 b3 : BitVec 8) :
    (wordOf b0 b1 b2 b3).toNat =
      256 * (256 * (256 * b0.toNat + b1.toNat) + b2.toNat) + b3.toNat := by
  have hlt := (wordOf b0 b1 b2 b3).isLt
  have hbyte : ∀ r : Fin 4, (wordOf b0 b1 b2 b3).toNat >>> (24 - 8 * (r : ℕ)) % 2 ^ 8 =
      (![b0, b1, b2, b3] r).toNat := by
    intro r
    rw [← wordByte_wordOf b0 b1 b2 b3 r, wordByte, BitVec.extractLsb'_toNat]
  have h0 := hbyte 0
  have h1 := hbyte 1
  have h2 := hbyte 2
  have h3 := hbyte 3
  simp [Nat.shiftRight_eq_div_pow] at h0 h1 h2 h3
  omega

/-- The two words that `big_u128_add` puts together hold the lower half.
Kind: L -/
theorem toNat_lower (ctr : Text) :
    (getU32 ctr 8 ++ getU32 ctr 12).toNat = lowerHalf ctr := by
  rw [BitVec.toNat_append, ← Nat.shiftLeft_add_eq_or_of_lt (getU32 ctr 12).isLt,
    Nat.shiftLeft_eq, getU32_eq, getU32_eq, toNat_wordOf, toNat_wordOf]
  simp only [lowerHalf, List.range, List.range.loop, List.foldl, Nat.reduceAdd, add_zero]
  omega

/-- The sum that `big_u128_add` computes.
Source: `xt_TOGPU_kernel.cu` 864–868
Kind: D -/
def counterSum (ctr : Text) (offset : BitVec 64) : BitVec 64 :=
  (getU32 ctr 8 ++ getU32 ctr 12) + offset

/-- It is the sum modulo `2 ^ 64`.
Kind: L -/
theorem toNat_counterSum (ctr : Text) (offset : BitVec 64) :
    (counterSum ctr offset).toNat = (lowerHalf ctr + offset.toNat) % 2 ^ 64 := by
  rw [counterSum, BitVec.toNat_add, toNat_lower]

/-- A byte of the sum, from the most significant on.
Kind: L -/
theorem byte_counterSum (ctr : Text) (offset : BitVec 64) (j : ℕ) :
    (counterSum ctr offset).extractLsb' (8 * j) 8 =
      BitVec.ofNat 8 ((lowerHalf ctr + offset.toNat) % 2 ^ 64 / 256 ^ j) := by
  apply BitVec.eq_of_toNat_eq
  rw [BitVec.extractLsb'_toNat, toNat_counterSum, BitVec.toNat_ofNat, Nat.shiftRight_eq_div_pow,
    pow_mul, show 2 ^ 8 = 256 from rfl]

/-! ## The counter block -/

/-- **What `big_u128_add` produces**: eight zero bytes, and the sum big-endian.
Kind: P -/
theorem bigU128Add_block (ctr : Text) (offset : BitVec 64) (res : Text) (i : Fin 16) :
    readBlock 16 (bigU128Add ctr offset res) 0 i =
      if (i : ℕ) < 8 then 0 else (counterSum ctr offset).extractLsb' (8 * (15 - i)) 8 := by
  have hlow : ((getU32 ctr 12).setWidth 64).extractLsb' 0 32 = getU32 ctr 12 := by
    apply BitVec.eq_of_getLsbD_eq
    intro j hj
    have hj' : j < 64 := by omega
    simp [hj, hj']
  -- a byte of a half of the sum
  have hhalf : ∀ (k : ℕ) (r : Fin 4),
      wordByte ((counterSum ctr offset).extractLsb' k 32) r =
        (counterSum ctr offset).extractLsb' (k + (24 - 8 * r)) 8 := by
    intro k r
    apply BitVec.eq_of_getLsbD_eq
    intro j hj
    have hin : 24 - 8 * (r : ℕ) + j < 32 := by omega
    simp [wordByte, hj, hin, add_assoc]
  simp only [readBlock, bigU128Add, hlow, storeU32_eq, swapU32_swapU32, putU32_apply, zero_add]
  rcases (by omega : (i : ℕ) < 8 ∨ 8 ≤ (i : ℕ) ∧ (i : ℕ) < 12 ∨ 12 ≤ (i : ℕ)) with hi | hi | hi
  · rw [dif_neg (by omega), dif_neg (by omega), storeBytes, if_pos (by omega), if_pos hi]
    simp
  · rw [dif_neg (by omega), dif_pos (by omega), if_neg (by omega)]
    refine (hhalf 32 _).trans ?_
    congr 1
    simp only
    omega
  · rw [dif_pos (by omega), if_neg (by omega)]
    refine (hhalf 0 _).trans ?_
    congr 1
    simp only
    omega

/-- The counter block of a thread, byte by byte.
Kind: L -/
theorem bigU128Add_eq_nonceBlock_iff (ctr : Text) (offset : BitVec 64) (res : Text) :
    readBlock 16 (bigU128Add ctr offset res) 0 = nonceBlock ctr offset ↔
      ∀ i < 8, ctr i = 0 := by
  constructor
  · intro h i hi
    have hbyte := congrFun h ⟨i, by omega⟩
    rw [bigU128Add_block, nonceBlock, if_pos hi, if_pos hi] at hbyte
    exact hbyte.symm
  · intro h
    funext i
    rw [bigU128Add_block, nonceBlock]
    split_ifs with hi
    · exact (h i hi).symm
    · exact byte_counterSum ctr offset (15 - i)

/-- Sums with the same bytes are the same.
Kind: L -/
theorem eq_of_bytes {v w : BitVec 64}
    (h : ∀ j < 8, v.extractLsb' (8 * j) 8 = w.extractLsb' (8 * j) 8) : v = w := by
  apply BitVec.eq_of_getLsbD_eq
  intro i hi
  have hbit := congrArg (fun b => b.getLsbD (i % 8)) (h (i / 8) (by omega))
  have hpos : 8 * (i / 8) + i % 8 = i := by omega
  simpa [hpos, Nat.mod_lt] using hbit

/-- **Which threads share a counter block**: those whose sums are the same, whatever the upper
halves of their counters.
Kind: P -/
theorem counterBlock_eq_iff (ctr ctr' : Text) (t t' : ℕ) :
    counterBlock ctr t = counterBlock ctr' t' ↔
      (lowerHalf ctr + t) % 2 ^ 64 = (lowerHalf ctr' + t') % 2 ^ 64 := by
  have hsum : ∀ (c : Text) (u : ℕ),
      (counterSum c (BitVec.ofNat 64 u)).toNat = (lowerHalf c + u) % 2 ^ 64 := by
    intro c u
    rw [toNat_counterSum, BitVec.toNat_ofNat, Nat.add_mod_mod]
  rw [← hsum, ← hsum]
  constructor
  · intro h
    refine congrArg BitVec.toNat (eq_of_bytes fun j hj => ?_)
    have hbyte := congrFun h ⟨15 - j, by omega⟩
    have hplace : 15 - (15 - j) = j := by omega
    simp only [counterBlock, bigU128Add_block] at hbyte
    rwa [if_neg (by omega), if_neg (by omega), hplace] at hbyte
  · intro h
    have hsame := BitVec.eq_of_toNat_eq h
    funext i
    simp only [counterBlock, bigU128Add_block, hsame]

/-! ## The nonce -/

/-- `big_u128_add` keeps the upper half of the counter and adds to the lower.
Kind: D -/
def FollowsNonce (ctr : Text) : Prop :=
  ∀ (offset : BitVec 64) (res : Text),
    readBlock 16 (bigU128Add ctr offset res) 0 = nonceBlock ctr offset

/-- Launches with counters whose upper halves differ use different counter blocks throughout.
Kind: D -/
def NoSharedBlock (ctr ctr' : Text) : Prop :=
  (∃ i < 8, ctr i ≠ ctr' i) → ∀ t t', counterBlock ctr t ≠ counterBlock ctr' t'

/-- **Counter blocks follow the nonce exactly if it is zero**: for two counters, the counter blocks
are as they should be, and the launches share none if the upper halves differ, exactly if both upper
halves are zero.
Source: `xt_TOGPU_kernel.cu` 860–879, 1003–1012
Kind: P
Fidelity: exact -/
theorem counters_follow_nonce_iff (ctr ctr' : Text) :
    (FollowsNonce ctr ∧ FollowsNonce ctr' ∧ NoSharedBlock ctr ctr') ↔
      (∀ i < 8, ctr i = 0) ∧ ∀ i < 8, ctr' i = 0 := by
  constructor
  · rintro ⟨h, h', -⟩
    exact ⟨(bigU128Add_eq_nonceBlock_iff ctr 0 fun _ => 0).mp (h _ _),
      (bigU128Add_eq_nonceBlock_iff ctr' 0 fun _ => 0).mp (h' _ _)⟩
  · rintro ⟨h, h'⟩
    refine ⟨fun offset res => (bigU128Add_eq_nonceBlock_iff ctr offset res).mpr h,
      fun offset res => (bigU128Add_eq_nonceBlock_iff ctr' offset res).mpr h', ?_⟩
    rintro ⟨i, hi, hne⟩
    exact absurd ((h i hi).trans (h' i hi).symm) hne

/-- Two counters that differ in their first byte only: the first threads of their launches use the
same counter block, and it is not the one of the first counter.
Kind: C -/
theorem counters_share_block :
    let ctr : Text := fun i => if i = 0 then 1 else 0
    let ctr' : Text := fun i => if i = 0 then 2 else 0
    ¬ FollowsNonce ctr ∧ ¬ NoSharedBlock ctr ctr' := by
  intro ctr ctr'
  constructor
  · intro h
    have hzero := (bigU128Add_eq_nonceBlock_iff ctr 0 fun _ => 0).mp (h _ _) 0 (by decide)
    revert hzero
    decide
  · intro h
    refine h ⟨0, by decide, by decide⟩ 0 0 ((counterBlock_eq_iff ctr ctr' 0 0).mpr ?_)
    rfl

end Togpu.Gpu
