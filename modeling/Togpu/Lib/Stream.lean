import Mathlib.Data.BitVec
import Mathlib.Tactic.Ring

/-!
# Readers over a byte stream

A reader is a function of a byte stream and a state with a cursor. What makes a decoder stable
under copying is that every stage reads only the bytes it moves its cursor over.

* `leNat`, `slice` — a little-endian number in the stream, and a part of it as a list.
* `Reads cur ahead least most f` — `f` moves its cursor by `least` to `most` bytes and depends only
  on the bytes it moves over and `ahead` bytes more.
* **Composition** (`Reads.comp`): stages that read only what they consume do so together.
-/

namespace Togpu.Lib

/-- A byte stream, by position.
Kind: D -/
abbrev Stream := ℕ → BitVec 8

/-- The `n` bytes at `pos`, as a number.
Kind: D -/
def leNat (s : Stream) (pos : ℕ) : ℕ → ℕ
  | 0 => 0
  | n + 1 => leNat s pos n + (s (pos + n)).toNat * 256 ^ n

/-- The `n` bytes at `pos`.
Kind: D -/
def slice (s : Stream) (pos n : ℕ) : List (BitVec 8) := (List.range n).map fun k => s (pos + k)

/-- Bytes read in two parts.
Kind: L -/
theorem slice_add (s : Stream) (pos m n : ℕ) :
    slice s pos (m + n) = slice s pos m ++ slice s (pos + m) n := by
  simp only [slice, List.range_add, List.map_append, List.map_map, Function.comp_def, add_assoc]

/-- Streams that agree on the bytes read give the same number.
Kind: L -/
theorem leNat_congr {s s' : Stream} {pos n : ℕ}
    (h : ∀ j, pos ≤ j → j < pos + n → s' j = s j) : leNat s' pos n = leNat s pos n := by
  induction n with
  | zero => rfl
  | succ n ih =>
      simp only [leNat]
      rw [ih fun j hlo hhi => h j hlo (by omega), h (pos + n) (by omega) (by omega)]

/-- A number written byte by byte is read back, modulo its width.
Kind: L -/
theorem leNat_of_bytes {s : Stream} {pos n v : ℕ}
    (h : ∀ j, j < n → s (pos + j) = BitVec.ofNat 8 (v / 256 ^ j)) :
    leNat s pos n = v % 256 ^ n := by
  induction n with
  | zero => simp [leNat, Nat.mod_one]
  | succ n ih =>
      have hsplit := Nat.mod_pow_succ (x := v) (b := 256) (k := n)
      simp only [leNat]
      rw [ih fun j hj => h j (by omega), h n (by omega), BitVec.toNat_ofNat, hsplit,
        mul_comm (256 ^ n)]

/-- One more byte, by bits.
Kind: L -/
theorem leNat_succ (s : Stream) (pos n : ℕ) :
    leNat s pos (n + 1) = 2 ^ (8 * n) * (s (pos + n)).toNat + leNat s pos n := by
  have hpow : 256 ^ n = 2 ^ (8 * n) := by
    rw [pow_mul]
    norm_num
  simp only [leNat, hpow]
  ring

/-- A number of `n` bytes.
Kind: L -/
theorem leNat_lt (s : Stream) (pos n : ℕ) : leNat s pos n < 2 ^ (8 * n) := by
  induction n with
  | zero => exact Nat.one_pos
  | succ n ih =>
      have hbyte := (s (pos + n)).isLt
      calc leNat s pos (n + 1) = 2 ^ (8 * n) * (s (pos + n)).toNat + leNat s pos n :=
            leNat_succ s pos n
        _ < 2 ^ (8 * n) * (s (pos + n)).toNat + 2 ^ (8 * n) := Nat.add_lt_add_left ih _
        _ = 2 ^ (8 * n) * ((s (pos + n)).toNat + 1) := by ring
        _ ≤ 2 ^ (8 * n) * 2 ^ 8 := Nat.mul_le_mul_left _ hbyte
        _ = 2 ^ (8 * (n + 1)) := by ring

/-- Its bits are those of the bytes.
Kind: L -/
theorem testBit_leNat (s : Stream) (pos : ℕ) {n j i : ℕ} (hj : j < n) (hi : i < 8) :
    (leNat s pos n).testBit (8 * j + i) = (s (pos + j)).getLsbD i := by
  induction n with
  | zero => exact absurd hj (Nat.not_lt_zero _)
  | succ n ih =>
      rw [leNat_succ, Nat.testBit_two_pow_mul_add _ (leNat_lt s pos n)]
      split_ifs with hlow
      · exact ih (by omega)
      · obtain rfl : j = n := by omega
        rw [Nat.add_sub_cancel_left]
        rfl

/-! ## Stages -/

section Stages

variable {σ : Type*} (cur : σ → ℕ)

/-- Two streams agree from `lo` up to `hi`.
Kind: D -/
def AgreeOn (s s' : Stream) (lo hi : ℕ) : Prop := ∀ j, lo ≤ j → j < hi → s' j = s j

/-- The stage moves its cursor by `least` to `most` bytes and reads only what it moves over and
`ahead` bytes more.
Kind: D -/
structure Reads (ahead least most : ℕ) (f : Stream → σ → σ) : Prop where
  /-- The cursor moves by at least `least`. -/
  least_le : ∀ s x, cur x + least ≤ cur (f s x)
  /-- The cursor moves by at most `most`. -/
  le_most : ∀ s x, cur (f s x) ≤ cur x + most
  /-- The result depends on the bytes passed and looked at only. -/
  congr : ∀ s s' x, AgreeOn s s' (cur x) (cur (f s x) + ahead) → f s' x = f s x

variable {cur}

/-- Agreement on a smaller range.
Kind: L -/
theorem AgreeOn.mono {s s' : Stream} {lo hi lo' hi' : ℕ} (h : AgreeOn s s' lo hi)
    (hlo : lo ≤ lo') (hhi : hi' ≤ hi) : AgreeOn s s' lo' hi' :=
  fun j hj hj' => h j (hlo.trans hj) (hj'.trans_le hhi)

/-- The bounds of a stage can be widened.
Kind: L -/
theorem Reads.widen {ahead least most least' most' : ℕ} {f : Stream → σ → σ}
    (h : Reads cur ahead least most f) (hleast : least' ≤ least) (hmost : most ≤ most') :
    Reads cur ahead least' most' f := by
  refine ⟨fun s x => ?_, fun s x => ?_, h.congr⟩
  · have := h.least_le s x
    omega
  · have := h.le_most s x
    omega

/-- A stage that reads nothing and keeps the cursor.
Kind: L -/
theorem Reads.of_pure {f : σ → σ} (h : ∀ x, cur (f x) = cur x) :
    Reads cur 0 0 0 fun _ x => f x :=
  ⟨fun _ x => (h x).ge, fun _ x => (h x).le, fun _ _ _ _ => rfl⟩

/-- **Stages compose**: what the first one looks ahead at, the second one has to pass or look at.
Kind: P -/
theorem Reads.comp {ahead least most ahead' least' most' : ℕ} {f g : Stream → σ → σ}
    (hg : Reads cur ahead least most g) (hf : Reads cur ahead' least' most' f)
    (hahead : ahead' ≤ least + ahead) :
    Reads cur ahead (least' + least) (most' + most) fun s x => g s (f s x) := by
  have hle : ∀ s x, cur (f s x) + ahead' ≤ cur (g s (f s x)) + ahead := by
    intro s x
    have := hg.least_le s (f s x)
    omega
  refine ⟨fun s x => ?_, fun s x => ?_, fun s s' x h => ?_⟩
  · have h₁ := hf.least_le s x
    have h₂ := hg.least_le s (f s x)
    omega
  · have h₁ := hf.le_most s x
    have h₂ := hg.le_most s (f s x)
    omega
  · have hfirst : f s' x = f s x := hf.congr s s' x (h.mono le_rfl (hle s x))
    have hstart : cur x ≤ cur (f s x) := (Nat.le_add_right _ _).trans (hf.least_le s x)
    simp only [hfirst]
    exact hg.congr s s' (f s x) (h.mono hstart le_rfl)

/-- A stage chosen by the state.
Kind: L -/
theorem Reads.ite {ahead least most : ℕ} {f g : Stream → σ → σ} (p : σ → Prop) [DecidablePred p]
    (hf : Reads cur ahead least most f) (hg : Reads cur ahead least most g) :
    Reads cur ahead least most fun s x => if p x then f s x else g s x := by
  refine ⟨fun s x => ?_, fun s x => ?_, fun s s' x h => ?_⟩ <;> by_cases hp : p x
  · simpa only [if_pos hp] using hf.least_le s x
  · simpa only [if_neg hp] using hg.least_le s x
  · simpa only [if_pos hp] using hf.le_most s x
  · simpa only [if_neg hp] using hg.le_most s x
  · simp only [if_pos hp] at h ⊢
    exact hf.congr s s' x h
  · simp only [if_neg hp] at h ⊢
    exact hg.congr s s' x h

end Stages

end Togpu.Lib
