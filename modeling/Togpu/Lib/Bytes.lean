import Mathlib.Data.BitVec
import Mathlib.Logic.Function.Basic
import Mathlib.Tactic.Ring

/-!
# Byte memory

A memory is a function from `w`-bit addresses to bytes; addresses wrap. Values are stored and
loaded little-endian, as natural numbers.

* `storeLE mem a n v` — the low `n` bytes of `v` at `a`, `a + 1`, …
* `loadLE mem a n` — the `n` bytes from `a` on, as a number.
* **A load inside a store** sees the bytes of the value (`loadLE_storeLE_sub`); a load that the
  store does not reach sees the memory before it (`loadLE_storeLE_of_le`,
  `loadLE_storeLE_below`).
* `storeBytes mem a bs` — the bytes `bs` from `a` on; it is a store of the first one followed by one
  of the rest (`storeBytes_cons`), and `storeLE` is one (`storeLE_eq_storeBytes`).
-/

namespace Togpu.Lib

variable {w : ℕ}

/-- A 32-bit word has four bytes; the numerals of `Fin 4` are their numbers.
Kind: D -/
instance neZeroFour : NeZero 4 := ⟨by decide⟩

/-- Store the low `n` bytes of `v` at `a`.
Kind: D -/
def storeLE (mem : BitVec w → BitVec 8) (a : BitVec w) (n v : ℕ) : BitVec w → BitVec 8 :=
  fun x => if (x - a).toNat < n then BitVec.ofNat 8 (v / 256 ^ (x - a).toNat) else mem x

/-- Load `n` bytes from `a` on.
Kind: D -/
def loadLE (mem : BitVec w → BitVec 8) (a : BitVec w) : ℕ → ℕ
  | 0 => 0
  | n + 1 => loadLE mem a n + (mem (a + BitVec.ofNat w n)).toNat * 256 ^ n

/-- The distance of `a + j` from `a`.
Kind: L -/
theorem toNat_add_ofNat_sub (a : BitVec w) {j : ℕ} (hj : j < 2 ^ w) :
    (a + BitVec.ofNat w j - a).toNat = j := by
  rw [add_sub_cancel_left, BitVec.toNat_ofNat, Nat.mod_eq_of_lt hj]

/-- The distance from a point further on.
Kind: L -/
theorem toNat_sub_add_ofNat {a x : BitVec w} {n : ℕ} (h : n ≤ (x - a).toNat) :
    (x - (a + BitVec.ofNat w n)).toNat = (x - a).toNat - n := by
  have hlt := (x - a).isLt
  have hn : n % 2 ^ w = n := Nat.mod_eq_of_lt (by omega)
  have hle : BitVec.ofNat w n ≤ x - a := by
    rw [BitVec.le_def, BitVec.toNat_ofNat, hn]
    exact h
  rw [← sub_sub, BitVec.toNat_sub_of_le hle, BitVec.toNat_ofNat, hn]

/-- The distance from a point that `x` has not reached: once around.
Kind: L -/
theorem toNat_sub_add_ofNat_of_lt {a x : BitVec w} {n : ℕ} (h : (x - a).toNat < n)
    (hn : n ≤ 2 ^ w) : (x - (a + BitVec.ofNat w n)).toNat = (x - a).toNat + 2 ^ w - n := by
  rcases hn.lt_or_eq with hlt | rfl
  · rw [← sub_sub, BitVec.toNat_sub, BitVec.toNat_ofNat, Nat.mod_eq_of_lt hlt,
      Nat.mod_eq_of_lt (by omega)]
    omega
  · have hzero : BitVec.ofNat w (2 ^ w) = 0 := by
      apply BitVec.eq_of_toNat_eq
      rw [BitVec.toNat_ofNat, Nat.mod_self]
      rfl
    rw [hzero, add_zero, Nat.add_sub_cancel]

/-- Loads agree on memories that agree on the bytes loaded.
Kind: L -/
theorem loadLE_congr {mem mem' : BitVec w → BitVec 8} {a : BitVec w} {n : ℕ}
    (h : ∀ j, j < n → mem (a + BitVec.ofNat w j) = mem' (a + BitVec.ofNat w j)) :
    loadLE mem a n = loadLE mem' a n := by
  induction n with
  | zero => rfl
  | succ n ih =>
      simp only [loadLE]
      rw [ih fun j hj => h j (Nat.lt_succ_of_lt hj), h n (Nat.lt_succ_self n)]

/-- A load of `n` bytes is below `256 ^ n`.
Kind: L -/
theorem loadLE_lt (mem : BitVec w → BitVec 8) (a : BitVec w) (n : ℕ) :
    loadLE mem a n < 256 ^ n := by
  induction n with
  | zero => simp [loadLE]
  | succ n ih =>
      have hbyte := (mem (a + BitVec.ofNat w n)).isLt
      calc loadLE mem a n + (mem (a + BitVec.ofNat w n)).toNat * 256 ^ n
          < 256 ^ n + 255 * 256 ^ n := by
            refine Nat.add_lt_add_of_lt_of_le ih (Nat.mul_le_mul_right _ ?_)
            omega
        _ = 256 ^ (n + 1) := by ring

/-- A longer load is larger.
Kind: L -/
theorem loadLE_mono (mem : BitVec w → BitVec 8) (a : BitVec w) {m n : ℕ} (h : m ≤ n) :
    loadLE mem a m ≤ loadLE mem a n := by
  induction n, h using Nat.le_induction with
  | base => exact le_rfl
  | succ n _ ih => exact ih.trans (Nat.le_add_right _ _)

/-- **A load inside a store.**
Kind: P -/
theorem loadLE_storeLE_sub (mem : BitVec w → BitVec 8) (a : BitVec w) {n off k : ℕ} (v : ℕ)
    (hin : off + k ≤ n) (hn : n ≤ 2 ^ w) :
    loadLE (storeLE mem a n v) (a + BitVec.ofNat w off) k = v / 256 ^ off % 256 ^ k := by
  induction k with
  | zero => simp [loadLE, Nat.mod_one]
  | succ k ih =>
      have hbyte : storeLE mem a n v (a + BitVec.ofNat w off + BitVec.ofNat w k) =
          BitVec.ofNat 8 (v / 256 ^ (off + k)) := by
        have hadd : a + BitVec.ofNat w off + BitVec.ofNat w k = a + BitVec.ofNat w (off + k) := by
          rw [add_assoc, BitVec.ofNat_add]
        rw [hadd, storeLE, toNat_add_ofNat_sub a (by omega), if_pos (by omega)]
      simp only [loadLE]
      have hsplit := Nat.mod_pow_succ (x := v / 256 ^ off) (b := 256) (k := k)
      rw [ih (by omega), hbyte, BitVec.toNat_ofNat, hsplit, pow_add, ← Nat.div_div_eq_div_mul,
        mul_comm (256 ^ k)]

/-- A load past a store.
Kind: L -/
theorem loadLE_storeLE_of_le (mem : BitVec w → BitVec 8) (a : BitVec w) {n off k : ℕ} (v : ℕ)
    (hle : n ≤ off) (hw : off + k ≤ 2 ^ w) :
    loadLE (storeLE mem a n v) (a + BitVec.ofNat w off) k =
      loadLE mem (a + BitVec.ofNat w off) k := by
  refine loadLE_congr fun j hj => ?_
  have hadd : a + BitVec.ofNat w off + BitVec.ofNat w j = a + BitVec.ofNat w (off + j) := by
    rw [add_assoc, BitVec.ofNat_add]
  rw [hadd, storeLE, toNat_add_ofNat_sub a (by omega), if_neg (by omega)]

/-- A load below a store.
Kind: L -/
theorem loadLE_storeLE_below (mem : BitVec w → BitVec 8) (a : BitVec w) {n off k : ℕ} (v : ℕ)
    (hle : k ≤ off) (hw : off + n ≤ 2 ^ w) :
    loadLE (storeLE mem (a + BitVec.ofNat w off) n v) a k = loadLE mem a k := by
  refine loadLE_congr fun j hj => ?_
  by_cases hn : n = 0
  · simp [storeLE, hn]
  have hdist : (a + BitVec.ofNat w j - (a + BitVec.ofNat w off)).toNat = 2 ^ w - off + j := by
    have hsub : a + BitVec.ofNat w j - (a + BitVec.ofNat w off) =
        BitVec.ofNat w j - BitVec.ofNat w off := by
      ring
    have hj' : j % 2 ^ w = j := Nat.mod_eq_of_lt (by omega)
    have hoff : off % 2 ^ w = off := Nat.mod_eq_of_lt (by omega)
    rw [hsub, BitVec.toNat_sub, BitVec.toNat_ofNat, BitVec.toNat_ofNat, hj', hoff,
      Nat.mod_eq_of_lt (by omega)]
  rw [storeLE, hdist, if_neg (by omega)]

/-! ## Blocks -/

/-- Copy `n` bytes from `src` to `dst`.
Kind: D -/
def memcpy (mem : BitVec w → BitVec 8) (dst src : BitVec w) (n : ℕ) : BitVec w → BitVec 8 :=
  fun x => if (x - dst).toNat < n then mem (src + (x - dst)) else mem x

/-- Fill `n` bytes at `a` with `v`.
Kind: D -/
def memset (mem : BitVec w → BitVec 8) (a : BitVec w) (v : BitVec 8) (n : ℕ) :
    BitVec w → BitVec 8 :=
  fun x => if (x - a).toNat < n then v else mem x

/-- What a copy does not reach.
Kind: L -/
theorem memcpy_of_le {mem : BitVec w → BitVec 8} {dst src x : BitVec w} {n : ℕ}
    (h : n ≤ (x - dst).toNat) : memcpy mem dst src n x = mem x :=
  if_neg (by omega)

/-- What a copy writes.
Kind: L -/
theorem memcpy_add {mem : BitVec w → BitVec 8} {dst src : BitVec w} {n j : ℕ} (hj : j < n)
    (hw : j < 2 ^ w) :
    memcpy mem dst src n (dst + BitVec.ofNat w j) = mem (src + BitVec.ofNat w j) := by
  unfold memcpy
  rw [toNat_add_ofNat_sub dst hw, if_pos hj, add_sub_cancel_left]

/-- What a fill does not reach.
Kind: L -/
theorem memset_of_le {mem : BitVec w → BitVec 8} {a x : BitVec w} {v : BitVec 8} {n : ℕ}
    (h : n ≤ (x - a).toNat) : memset mem a v n x = mem x :=
  if_neg (by omega)

/-- What a store does not reach.
Kind: L -/
theorem storeLE_of_le {mem : BitVec w → BitVec 8} {a x : BitVec w} {n v : ℕ}
    (h : n ≤ (x - a).toNat) : storeLE mem a n v x = mem x :=
  if_neg (by omega)

/-! ## Byte by byte -/

/-- Store the bytes `bs` at `a`, `a + 1`, …
Kind: D -/
def storeBytes (mem : BitVec w → BitVec 8) (a : BitVec w) (bs : List (BitVec 8)) :
    BitVec w → BitVec 8 :=
  fun x => (bs[(x - a).toNat]?).getD (mem x)

/-- The low `n` bytes of `v`, lowest first.
Kind: D -/
def bytesLE (n v : ℕ) : List (BitVec 8) := (List.range n).map fun j => BitVec.ofNat 8 (v / 256 ^ j)

@[simp] theorem length_bytesLE (n v : ℕ) : (bytesLE n v).length = n := by
  simp [bytesLE]

@[simp] theorem storeBytes_nil (mem : BitVec w → BitVec 8) (a : BitVec w) :
    storeBytes mem a [] = mem := by
  funext x
  simp [storeBytes]

/-- **The first byte, then the others.**
Kind: P -/
theorem storeBytes_cons (mem : BitVec w → BitVec 8) (a : BitVec w) (b : BitVec 8)
    {bs : List (BitVec 8)} (hlen : bs.length < 2 ^ w) :
    storeBytes mem a (b :: bs) =
      storeBytes (Function.update mem a b) (a + BitVec.ofNat w 1) bs := by
  funext x
  unfold storeBytes
  rcases Nat.eq_zero_or_pos (x - a).toNat with hzero | hpos
  · -- the first byte is once around from the second
    have hx : x = a := by
      have hsub : x - a = 0 := BitVec.eq_of_toNat_eq (by simpa using hzero)
      exact sub_eq_zero.1 hsub
    subst hx
    have hfar : bs.length ≤ (x - (x + BitVec.ofNat w 1)).toNat := by
      rw [toNat_sub_add_ofNat_of_lt (by simp) Nat.one_le_two_pow]
      omega
    rw [hzero, List.getElem?_cons_zero, List.getElem?_eq_none hfar, Function.update_self]
    rfl
  · have hne : x ≠ a := by
      rintro rfl
      simp at hpos
    obtain ⟨n, hn⟩ := Nat.exists_eq_succ_of_ne_zero hpos.ne'
    rw [toNat_sub_add_ofNat hpos, hn, List.getElem?_cons_succ, Function.update_of_ne hne]
    rfl

/-- A little-endian store, byte by byte.
Kind: L -/
theorem storeLE_eq_storeBytes (mem : BitVec w → BitVec 8) (a : BitVec w) (n v : ℕ) :
    storeLE mem a n v = storeBytes mem a (bytesLE n v) := by
  funext x
  unfold storeLE storeBytes bytesLE
  split_ifs with h
  · rw [List.getElem?_map, List.getElem?_range h]
    rfl
  · rw [List.getElem?_eq_none (by simpa using h)]
    rfl

end Togpu.Lib
