import Mathlib.Data.Nat.Basic
import Mathlib.Order.Basic

/-!
# Running weighted averages

A running value `a` is updated by a sample `d` to `(k * a + d) / (k + 1)`, rounded down: the old
value counts `k` times. Nothing here names a particular program.

* `weighted` — the update. A fold of it never exceeds a bound of the samples and of the value it
  starts from (`foldl_weighted_le`).
* `startFor` — the smallest running value from which one update reaches a target: the update and
  `startFor` are adjoint on targets below the sample (`le_weighted_iff`).
* **How a fold reaches a target** (`le_foldl_weighted_iff`): a fold over samples at least `t` ends
  at `t` or more iff it starts from what the samples, taken from the last to the first, leave of
  `t`. Rounding is accounted for exactly.
-/

namespace Togpu.Lib

/-- The running value after a sample, the old value counting `k` times.
Kind: D -/
def weighted (k a d : ℕ) : ℕ := (k * a + d) / (k + 1)

/-- The least running value from which the sample `d` leads to `t` or more, for `t ≤ d`.
Kind: D -/
def startFor (k d t : ℕ) : ℕ := t - (d - t) / k

variable {k a d t m : ℕ} {ds : List ℕ}

/-- An update stays below a common bound.
Kind: L -/
theorem weighted_le (ha : a ≤ m) (hd : d ≤ m) : weighted k a d ≤ m := by
  apply Nat.div_le_of_le_mul
  calc k * a + d ≤ k * m + m := Nat.add_le_add (Nat.mul_le_mul_left k ha) hd
    _ = (k + 1) * m := (Nat.succ_mul k m).symm

/-- A fold stays below a common bound.
Kind: L -/
theorem foldl_weighted_le (ha : a ≤ m) (hds : ∀ d ∈ ds, d ≤ m) : ds.foldl (weighted k) a ≤ m := by
  induction ds generalizing a with
  | nil => exact ha
  | cons d ds ih =>
      rw [List.forall_mem_cons] at hds
      exact ih (weighted_le ha hds.1) hds.2

/-- **Adjunction.** An update reaches a target below the sample iff it starts from `startFor`.
Kind: P -/
theorem le_weighted_iff (hk : 0 < k) (htd : t ≤ d) : t ≤ weighted k a d ↔ startFor k d t ≤ a := by
  obtain ⟨e, rfl⟩ := Nat.exists_eq_add_of_le htd
  rw [weighted, startFor, Nat.add_sub_cancel_left, Nat.le_div_iff_mul_le k.succ_pos,
    Nat.sub_le_iff_le_add', Nat.mul_comm, Nat.succ_mul]
  constructor
  · intro h
    have hgap : (t - a) * k ≤ e := by
      rw [Nat.sub_mul, Nat.mul_comm t, Nat.mul_comm a]
      omega
    have hdiv := (Nat.le_div_iff_mul_le hk).mpr hgap
    omega
  · intro h
    have hgap : (t - a) * k ≤ e :=
      (Nat.le_div_iff_mul_le hk).mp (Nat.sub_le_iff_le_add.mpr h)
    rw [Nat.sub_mul, Nat.mul_comm t, Nat.mul_comm a] at hgap
    omega

/-- Going back through samples never asks for more than the target.
Kind: L -/
theorem foldr_startFor_le : ds.foldr (startFor k) t ≤ t := by
  induction ds with
  | nil => exact le_rfl
  | cons d ds ih => exact (Nat.sub_le _ _).trans ih

/-- **How a fold reaches a target**: what the samples leave of it, from the last to the first, is
what the fold has to start from.
Kind: P -/
theorem le_foldl_weighted_iff (hk : 0 < k) (hds : ∀ d ∈ ds, t ≤ d) :
    t ≤ ds.foldl (weighted k) a ↔ ds.foldr (startFor k) t ≤ a := by
  induction ds generalizing a with
  | nil => exact Iff.rfl
  | cons d ds ih =>
      rw [List.forall_mem_cons] at hds
      rw [List.foldl_cons, ih hds.2, List.foldr_cons]
      exact le_weighted_iff hk (foldr_startFor_le.trans hds.1)

/-- Samples less than `k` above the target contribute nothing: rounding eats them.
Kind: L -/
theorem foldr_startFor_of_close (hk : 0 < k) (hds : ∀ d ∈ ds, d < t + k) :
    ds.foldr (startFor k) t = t := by
  induction ds with
  | nil => rfl
  | cons d ds ih =>
      rw [List.forall_mem_cons] at hds
      have hzero : (d - t) / k = 0 := Nat.div_eq_of_lt (by omega)
      rw [List.foldr_cons, ih hds.2, startFor, hzero, Nat.sub_zero]

end Togpu.Lib
