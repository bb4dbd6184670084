import Mathlib.Data.BitVec
import Mathlib.Data.List.Basic

/-!
# Loops that sweep an address range

A loop of the shape `do { next = ...; body; } while( i++, addr = next, addr != end )` over machine
addresses, whose body handles `[addr, next)` and may stop the loop with an error.

* `strides u a n` — the addresses `a, a + u, …`, `n` of them.
* `sweep` — the loop, for a bounded number of rounds; `none` when they do not suffice.
* **The sweep rule** (`sweep_eq_foldl`): if each round moves on by at least one stride and handles
  its strides by `visit`, the loop handles all strides of the range by `visit`, in order.
* **What a sweep that ends has done** (`sweep_ends`) and **when it ends** (`sweep_end`): the rules
  for a range of which nothing is known, whose rounds may fail to return.

Nothing here names a particular program.
-/

namespace Togpu.Lib

variable {w : ℕ} {σ : Type}

/-- The addresses `a, a + u, …`, `n` of them.
Kind: D -/
def strides (u : ℕ) (a : BitVec w) (n : ℕ) : List (BitVec w) :=
  (List.range n).map fun k => a + BitVec.ofNat w (k * u)

/-- The loop. Round `i` handles the range from `addr` to `next addr stop`.
Kind: D -/
def sweep (next : BitVec w → BitVec w → BitVec w)
    (body : ℕ → BitVec w → BitVec w → σ → Option (σ × ℤ)) :
    ℕ → ℕ → BitVec w → BitVec w → σ → Option (σ × ℤ)
  | 0, _, _, _, _ => none
  | fuel + 1, i, addr, stop, st =>
      match body i addr (next addr stop) st with
      | none => none
      | some (st', err) =>
          if err ≠ 0 then some (st', err)
          else if next addr stop = stop then some (st', 0)
          else sweep next body fuel (i + 1) (next addr stop) stop st'

@[simp] theorem length_strides (u : ℕ) (a : BitVec w) (n : ℕ) : (strides u a n).length = n := by
  simp [strides]

/-- Where a later stride starts.
Kind: L -/
theorem add_ofNat_add (u : ℕ) (a : BitVec w) (m n : ℕ) :
    a + BitVec.ofNat w ((m + n) * u) = a + BitVec.ofNat w (m * u) + BitVec.ofNat w (n * u) := by
  rw [Nat.add_mul, BitVec.ofNat_add, BitVec.add_assoc]

/-- The strides of a range, cut in two.
Kind: L -/
theorem strides_add (u : ℕ) (a : BitVec w) (m n : ℕ) :
    strides u a (m + n) = strides u a m ++ strides u (a + BitVec.ofNat w (m * u)) n := by
  simp only [strides, List.range_add, List.map_append, List.map_map, List.append_cancel_left_eq]
  apply List.map_congr_left
  intro k _
  exact add_ofNat_add u a m k

/-- An address of the range.
Kind: L -/
theorem mem_strides {u : ℕ} {a p : BitVec w} {n : ℕ} :
    p ∈ strides u a n ↔ ∃ k < n, p = a + BitVec.ofNat w (k * u) := by
  simp only [strides, List.mem_map, List.mem_range, eq_comm]

/-- Strides of a range that does not wrap are where they should be.
Kind: L -/
theorem toNat_stride {u : ℕ} {a : BitVec w} {k : ℕ} (h : a.toNat + k * u < 2 ^ w) :
    (a + BitVec.ofNat w (k * u)).toNat = a.toNat + k * u := by
  rw [BitVec.toNat_add, BitVec.toNat_ofNat, Nat.mod_eq_of_lt (by omega : k * u < 2 ^ w),
    Nat.mod_eq_of_lt h]

/-- **The sweep rule.** `Q i a n` is what is known of round `i` at address `a` with `n` strides to
go. If each round moves on by `m` strides, handles them by `visit` without an error, and knows
enough for the next round, then `n` rounds handle all `n` strides.
Kind: P -/
theorem sweep_eq_foldl {next : BitVec w → BitVec w → BitVec w}
    {body : ℕ → BitVec w → BitVec w → σ → Option (σ × ℤ)} {visit : σ → BitVec w → σ} {u : ℕ}
    {Q : ℕ → BitVec w → ℕ → Prop}
    (hround : ∀ i a n, 0 < n → a.toNat + n * u < 2 ^ w → Q i a n →
      ∃ m, 0 < m ∧ m ≤ n ∧ next a (a + BitVec.ofNat w (n * u)) = a + BitVec.ofNat w (m * u) ∧
        (∀ st, body i a (a + BitVec.ofNat w (m * u)) st =
          some ((strides u a m).foldl visit st, 0)) ∧
        (m < n → Q (i + 1) (a + BitVec.ofNat w (m * u)) (n - m)))
    (hu : 0 < u) {fuel i n : ℕ} {a : BitVec w} (hn : 0 < n) (hfuel : n ≤ fuel)
    (hwrap : a.toNat + n * u < 2 ^ w) (hQ : Q i a n) (st : σ) :
    sweep next body fuel i a (a + BitVec.ofNat w (n * u)) st =
      some ((strides u a n).foldl visit st, 0) := by
  induction fuel generalizing i n a st with
  | zero => omega
  | succ fuel ih =>
      obtain ⟨m, hm, hmn, hnext, hbody, hrest⟩ := hround i a n hn hwrap hQ
      rw [sweep, hnext, hbody]
      simp only [ne_eq, not_true_eq_false, if_false]
      have hmu : m * u ≤ n * u := Nat.mul_le_mul_right u hmn
      by_cases hlast : m = n
      · rw [if_pos (by rw [hlast]), hlast]
      · have hlt : m < n := by omega
        have hmu' : m * u < n * u := Nat.mul_lt_mul_of_pos_right hlt hu
        -- the next address is not the end: the range does not wrap
        have hne : a + BitVec.ofNat w (m * u) ≠ a + BitVec.ofNat w (n * u) := by
          intro heq
          have hnat := congrArg BitVec.toNat heq
          rw [toNat_stride (by omega), toNat_stride hwrap] at hnat
          omega
        rw [if_neg hne]
        obtain ⟨r, rfl⟩ : ∃ r, n = m + r := ⟨n - m, by omega⟩
        have hsub : m + r - m = r := by omega
        rw [hsub] at hrest
        rw [add_ofNat_add u a m r, strides_add, List.foldl_append]
        refine ih (by omega) (by omega) ?_ (hrest hlt) _
        rw [toNat_stride (by omega)]
        rw [Nat.add_mul] at hwrap
        omega

section Ends

variable {next : BitVec w → BitVec w → BitVec w}
  {body : ℕ → BitVec w → BitVec w → σ → Option (σ × ℤ)} {stop : BitVec w}

/-- **What a sweep that ends has done.** `I` is known of each round. If a round that returns reports
no error, shows `G` when it is the last one, and carries `G` back from the next round when it is
not, then a sweep that ends has shown `G` of its first round, for whatever number of rounds.
Kind: P -/
theorem sweep_ends {I G : ℕ → BitVec w → Prop}
    (hround : ∀ i a st st' err, I i a → body i a (next a stop) st = some (st', err) →
      err = 0 ∧ (next a stop = stop → G i a) ∧
        (next a stop ≠ stop → I (i + 1) (next a stop) ∧ (G (i + 1) (next a stop) → G i a)))
    {fuel i : ℕ} {a : BitVec w} {st st' : σ} {err : ℤ} (hI : I i a)
    (hrun : sweep next body fuel i a stop st = some (st', err)) : err = 0 ∧ G i a := by
  induction fuel generalizing i a st with
  | zero => exact absurd hrun nofun
  | succ fuel ih =>
      rw [sweep] at hrun
      split at hrun
      · exact absurd hrun nofun
      · next st₁ err₁ hbody =>
          obtain ⟨rfl, hlast, hrest⟩ := hround i a st st₁ err₁ hI hbody
          rw [if_neg (not_not.2 rfl)] at hrun
          split_ifs at hrun with hstop
          · rw [Option.some.injEq, Prod.mk.injEq] at hrun
            exact ⟨hrun.2.symm, hlast hstop⟩
          · obtain ⟨hI', hback⟩ := hrest hstop
            obtain ⟨herr, hG⟩ := ih hI' hrun
            exact ⟨herr, hback hG⟩

/-- **When a sweep ends.** If each round returns without an error, related by `R`, and a round that
is not the last one brings `μ` down, then more rounds than `μ` are enough.
Kind: P -/
theorem sweep_end {I : ℕ → BitVec w → Prop} {R : σ → σ → Prop} {μ : BitVec w → ℕ}
    (htrans : ∀ s t u, R s t → R t u → R s u)
    (hround : ∀ i a st, I i a → ∃ st', body i a (next a stop) st = some (st', 0) ∧ R st st' ∧
      (next a stop ≠ stop → I (i + 1) (next a stop) ∧ μ (next a stop) < μ a))
    {fuel i : ℕ} {a : BitVec w} (hI : I i a) (hfuel : μ a < fuel) (st : σ) :
    ∃ st', sweep next body fuel i a stop st = some (st', 0) ∧ R st st' := by
  induction fuel generalizing i a st with
  | zero => exact absurd hfuel (Nat.not_lt_zero _)
  | succ fuel ih =>
      obtain ⟨st₁, hbody, hR, hrest⟩ := hround i a st hI
      rw [sweep, hbody]
      simp only [ne_eq, not_true_eq_false, if_false]
      by_cases hstop : next a stop = stop
      · exact ⟨st₁, by rw [if_pos hstop], hR⟩
      · obtain ⟨hI', hless⟩ := hrest hstop
        obtain ⟨st', hrun, hR'⟩ := ih hI' (by omega) st₁
        exact ⟨st', by rw [if_neg hstop, hrun], htrans _ _ _ hR hR'⟩

end Ends

end Togpu.Lib
