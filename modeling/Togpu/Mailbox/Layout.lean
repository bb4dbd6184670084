import Togpu.Lib.Bytes
import Togpu.Driver.Types

/-!
# The mailbox: two views of the same bytes

The first page of the pool is the mailbox. `nfgpu_target` writes it as an array of
`unsigned long`, `aes_test` reads it as an array of `u32`. Both are little-endian accesses to one
memory, here addressed from the pool's kernel base.

* `storeIndex`, `storeLength`, `loadTarget` — the driver's accesses, for either size of
  `unsigned long` the driver can be built with.
* `aesIndex`, `aesLength`, `aesDone` — the launcher's accesses.
* **With 8-byte longs the two agree iff the length is zero** (`mailbox_agrees_iff`): the launcher
  reads the length from the high half of the index.
-/

namespace Togpu.Mailbox

open Togpu.Driver Togpu.Lib

/-! ## Accesses -/

/-- The sizes of `unsigned long` on x86.
Kind: D -/
inductive ULong where
  /-- A 32-bit kernel. -/
  | four
  /-- A 64-bit kernel. -/
  | eight
  deriving DecidableEq, Repr

/-- `sizeof(unsigned long)`.
Kind: D -/
def ULong.size : ULong → ℕ
  | .four => 4
  | .eight => 8

/-- The driver's store `*target = index`.
Source: `xt_TOGPU_main.c` 203–204
Kind: D -/
def storeIndex (u : ULong) (base : Addr) (mem : Addr → BitVec 8) (index : BitVec 64) :
    Addr → BitVec 8 :=
  storeLE mem base u.size index.toNat

/-- The driver's store `*(target+1) = (unsigned long) skb->len`.
Source: `xt_TOGPU_main.c` 205
Kind: D -/
def storeLength (u : ULong) (base : Addr) (mem : Addr → BitVec 8) (len : BitVec 32) :
    Addr → BitVec 8 :=
  storeLE mem (base + BitVec.ofNat 64 u.size) u.size len.toNat

/-- The driver's load `*target`.
Source: `xt_TOGPU_main.c` 206
Kind: D -/
def loadTarget (u : ULong) (base : Addr) (mem : Addr → BitVec 8) : ℕ := loadLE mem base u.size

/-- The launcher's load `*target`.
Source: `xt_TOGPU_kernel.cu` 1751–1752
Kind: D -/
def aesIndex (base : Addr) (mem : Addr → BitVec 8) : BitVec 32 :=
  BitVec.ofNat 32 (loadLE mem base 4)

/-- The launcher's load `*(target+1)`.
Source: `xt_TOGPU_kernel.cu` 1753
Kind: D -/
def aesLength (base : Addr) (mem : Addr → BitVec 8) : BitVec 32 :=
  BitVec.ofNat 32 (loadLE mem (base + BitVec.ofNat 64 4) 4)

/-- The launcher's store `*target = 0`.
Source: `xt_TOGPU_kernel.cu` 1777
Kind: D -/
def aesDone (base : Addr) (mem : Addr → BitVec 8) : Addr → BitVec 8 := storeLE mem base 4 0

/-! ## What one side sees of the other's stores -/

section views

variable (u : ULong) (base : Addr) (mem : Addr → BitVec 8)

/-- A load at `base + 0`.
Kind: L -/
theorem loadLE_base (mem : Addr → BitVec 8) (n : ℕ) :
    loadLE mem base n = loadLE mem (base + BitVec.ofNat 64 0) n := by
  rw [BitVec.add_zero]

/-- The launcher reads back the index, whatever the size of `unsigned long`.
Kind: L -/
theorem aesIndex_storeIndex (index : BitVec 64) :
    aesIndex base (storeIndex u base mem index) = index.setWidth 32 := by
  have hload : loadLE (storeIndex u base mem index) base 4 = index.toNat % 256 ^ 4 := by
    rw [loadLE_base, storeIndex, loadLE_storeLE_sub mem base _ (by cases u <;> decide)
      (by cases u <;> decide), pow_zero, Nat.div_one]
  apply BitVec.eq_of_toNat_eq
  rw [aesIndex, hload, BitVec.toNat_ofNat, BitVec.toNat_setWidth]
  omega

/-- An 8-byte index puts its high half where the launcher reads the length.
Kind: L -/
theorem aesLength_storeIndex_eight (index : BitVec 64) :
    aesLength base (storeIndex .eight base mem index) =
      BitVec.ofNat 32 (index.toNat / 256 ^ 4) := by
  have hload : loadLE (storeIndex .eight base mem index) (base + BitVec.ofNat 64 4) 4 =
      index.toNat / 256 ^ 4 % 256 ^ 4 :=
    loadLE_storeLE_sub mem base _ (by decide) (by decide)
  apply BitVec.eq_of_toNat_eq
  rw [aesLength, hload, BitVec.toNat_ofNat, BitVec.toNat_ofNat]
  omega

/-- A 4-byte index leaves the length alone.
Kind: L -/
theorem aesLength_storeIndex_four (index : BitVec 64) :
    aesLength base (storeIndex .four base mem index) = aesLength base mem := by
  rw [aesLength, storeIndex, loadLE_storeLE_of_le mem base _ (by decide) (by decide), aesLength]

/-- The length is stored behind the index.
Kind: L -/
theorem aesIndex_storeLength (len : BitVec 32) :
    aesIndex base (storeLength u base mem len) = aesIndex base mem := by
  rw [aesIndex, storeLength, loadLE_storeLE_below mem base _ (by cases u <;> decide)
    (by cases u <;> decide), aesIndex]

/-- An 8-byte length is stored past the word the launcher reads.
Kind: L -/
theorem aesLength_storeLength_eight (len : BitVec 32) :
    aesLength base (storeLength .eight base mem len) = aesLength base mem := by
  have hsum : base + BitVec.ofNat 64 8 = base + BitVec.ofNat 64 4 + BitVec.ofNat 64 4 := by
    rw [BitVec.add_assoc]
    rfl
  rw [aesLength, storeLength, ULong.size, hsum,
    loadLE_storeLE_below mem _ _ (by decide) (by decide), aesLength]

/-- A 4-byte length is what the launcher reads.
Kind: L -/
theorem aesLength_storeLength_four (len : BitVec 32) :
    aesLength base (storeLength .four base mem len) = len := by
  have hload : loadLE (storeLength .four base mem len) (base + BitVec.ofNat 64 4) 4 =
      len.toNat % 256 ^ 4 := by
    rw [loadLE_base, storeLength, ULong.size, loadLE_storeLE_sub mem _ _ (by decide) (by decide),
      pow_zero, Nat.div_one]
  apply BitVec.eq_of_toNat_eq
  have hlt := len.isLt
  rw [aesLength, hload, BitVec.toNat_ofNat]
  omega

/-- The launcher's zero is in the index.
Kind: L -/
theorem aesIndex_aesDone : aesIndex base (aesDone base mem) = 0 := by
  rw [aesIndex, aesDone, loadLE_base, loadLE_storeLE_sub mem base 0 (by decide) (by decide)]
  rfl

/-- The launcher's zero leaves the length alone.
Kind: L -/
theorem aesLength_aesDone : aesLength base (aesDone base mem) = aesLength base mem := by
  rw [aesLength, aesDone, loadLE_storeLE_of_le mem base 0 (by decide) (by decide), aesLength]

/-- When the driver sees zero, so does the launcher.
Kind: L -/
theorem aesIndex_of_loadTarget {u : ULong} {base : Addr} {mem : Addr → BitVec 8}
    (h : loadTarget u base mem = 0) : aesIndex base mem = 0 := by
  have hle : loadLE mem base 4 ≤ loadLE mem base u.size :=
    loadLE_mono mem base (by cases u <;> decide)
  have hzero : loadLE mem base 4 = 0 := Nat.le_zero.mp (hle.trans (le_of_eq h))
  rw [aesIndex, hzero]
  rfl

/-- With 4-byte longs the driver polls the word the launcher clears.
Kind: L -/
theorem loadTarget_four_of_aesIndex {base : Addr} {mem : Addr → BitVec 8}
    (h : aesIndex base mem = 0) : loadTarget .four base mem = 0 := by
  have hlt := loadLE_lt mem base 4
  have hnat := congrArg BitVec.toNat h
  rw [aesIndex, BitVec.toNat_ofNat, Nat.mod_eq_of_lt (by omega)] at hnat
  exact hnat

end views

/-! ## Agreement -/

/-- The mailbox after `nfgpu_target` has stored a slot index and a length.
Source: `xt_TOGPU_main.c` 203–205
Kind: D -/
def post (u : ULong) (base : Addr) (mem : Addr → BitVec 8) (index : BitVec 64)
    (len : BitVec 32) : Addr → BitVec 8 :=
  storeLength u base (storeIndex u base mem index) len

/-- **With 8-byte longs the launcher reads the index and the length that the driver stored iff
the length is zero**, for every slot, every length and every previous content of the page.
Source: `xt_TOGPU_main.c` 202–206, `xt_TOGPU_kernel.cu` 1741–1758
Kind: P
Fidelity: exact
Hyps: (a) the index is that of a slot -/
theorem mailbox_agrees_iff (base : Addr) (mem : Addr → BitVec 8) {index : BitVec 64}
    (hindex : 1 ≤ index ∧ index < nfgpuMaxSkbs) (len : BitVec 32) :
    ((aesIndex base (post .eight base mem index len)).toNat = index.toNat ∧
      aesLength base (post .eight base mem index len) = len) ↔ len = 0 := by
  have hlt := hindex.2
  rw [BitVec.lt_def, nfgpuMaxSkbs_toNat] at hlt
  have hi : (aesIndex base (post .eight base mem index len)).toNat = index.toNat := by
    rw [post, aesIndex_storeLength, aesIndex_storeIndex, BitVec.toNat_setWidth]
    omega
  have hl : aesLength base (post .eight base mem index len) = 0 := by
    rw [post, aesLength_storeLength_eight, aesLength_storeIndex_eight,
      Nat.div_eq_of_lt (by omega)]
    rfl
  rw [hl]
  exact ⟨fun h => h.2.symm, fun h => ⟨hi, h.symm⟩⟩

/-- Slot 1 with an empty packet.
Kind: C -/
theorem mailbox_agrees_empty :
    (aesIndex 0xffffc90000000000 (post .eight 0xffffc90000000000 (fun _ => 0xff) 1 0)).toNat =
        (1 : BitVec 64).toNat ∧
      aesLength 0xffffc90000000000 (post .eight 0xffffc90000000000 (fun _ => 0xff) 1 0) = 0 :=
  (mailbox_agrees_iff _ _ ⟨by decide, by decide⟩ 0).mpr rfl

/-- Slot 1 with a packet of 84 bytes: the launcher reads length 0.
Kind: C -/
theorem mailbox_disagrees_ping :
    aesLength 0xffffc90000000000 (post .eight 0xffffc90000000000 (fun _ => 0) 1 84) = 0 ∧
      ¬((aesIndex 0xffffc90000000000
          (post .eight 0xffffc90000000000 (fun _ => 0) 1 84)).toNat = (1 : BitVec 64).toNat ∧
        aesLength 0xffffc90000000000 (post .eight 0xffffc90000000000 (fun _ => 0) 1 84) = 84) := by
  have hl :
      aesLength 0xffffc90000000000 (post .eight 0xffffc90000000000 (fun _ => 0) 1 84) = 0 := by
    decide
  refine ⟨hl, fun h => ?_⟩
  rw [hl] at h
  exact absurd h.2 (by decide)

end Togpu.Mailbox
