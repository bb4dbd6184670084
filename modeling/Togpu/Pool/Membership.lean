import Togpu.Lib.Window
import Togpu.Driver.Hooks

/-!
# Which addresses the driver takes for pool addresses

The allocation hook builds a slot's address by addition from `nfgpu_kva`; `nfgpu_target` and the
release hook recognise it by a 32 MB mask and a wrapping difference of page numbers (`inPool`).

* `IsPoolBase kva` — what `vmap` promises of a base: nonzero, page-aligned, and a 32 MB range
  that does not wrap. `Aligned kva` adds what the mask test needs and `vmap` does not promise.
* The bound on the index alone is the exact range test (`slotIndex_lt_iff`), and a slot's index is
  always recovered (`slotIndex_slotAddr`); the mask only ever rejects more (`inPool_iff`).
* **The test agrees with the range and accepts every slot iff the base is 32 MB-aligned**
  (`inPool_agrees_iff_aligned`). At any other base the slots past the window boundary are handed
  out and then not recognised.
-/

namespace Togpu.Driver

open Togpu.Lib

/-! ## Bases and ranges -/

/-- What `vmap` promises of the base of a 32 MB mapping.
Source: `xt_TOGPU_main.c` 425
Kind: D -/
structure IsPoolBase (kva : Addr) : Prop where
  /-- The mapping succeeded. -/
  ne_zero : kva ≠ 0
  /-- A mapping starts on a page boundary. -/
  page : kva.toNat % nfgpuSkbSize.toNat = 0
  /-- A mapping lies inside the address space. -/
  noWrap : kva.toNat + nfgpuMaxMemory.toNat ≤ 2 ^ 64

/-- The base is aligned to the 32 MB window of the mask test.
Kind: D -/
def Aligned (kva : Addr) : Prop := kva.toNat % nfgpuMaxMemory.toNat = 0

/-- `nfgpu_kva <= a < nfgpu_kva + NFGPU_MAX_MEMORY`, in unbounded arithmetic.
Kind: D -/
def InRange (kva a : Addr) : Prop :=
  kva.toNat ≤ a.toNat ∧ a.toNat < kva.toNat + nfgpuMaxMemory.toNat

instance (kva : Addr) : Decidable (Aligned kva) := inferInstanceAs (Decidable (_ = _))

instance (kva a : Addr) : Decidable (InRange kva a) := inferInstanceAs (Decidable (_ ∧ _))

/-- An aligned nonzero base is a base: its range ends at a multiple of 32 MB, so it cannot wrap.
Kind: L -/
theorem Aligned.isPoolBase {kva : Addr} (h : Aligned kva) (hne : kva ≠ 0) : IsPoolBase kva where
  ne_zero := hne
  page := by
    simp only [Aligned, nfgpuMaxMemory_toNat, nfgpuSkbSize_toNat] at h ⊢
    omega
  noWrap := by
    have hlt := kva.isLt
    simp only [Aligned, nfgpuMaxMemory_toNat] at h ⊢
    omega

/-! ## The index -/

/-- The index in natural numbers: the wrapping difference of the page numbers.
Kind: L -/
theorem slotIndex_toNat (kva a : Addr) :
    (slotIndex kva a).toNat = (2 ^ 64 - kva.toNat / 4096 + a.toNat / 4096) % 2 ^ 64 := by
  simp only [slotIndex, nfgpuSkbOffset, BitVec.toNat_sub, toNat_ushiftRight_eq_div]
  rfl

/-- The bound on the index is the range test.
Source: `xt_TOGPU_main.c` 195, 295
Kind: L -/
theorem slotIndex_lt_iff {kva : Addr} (h : IsPoolBase kva) (a : Addr) :
    slotIndex kva a < nfgpuMaxSkbs ↔ InRange kva a := by
  have hpage := h.page
  have hwrap := h.noWrap
  have ha := a.isLt
  have hk := kva.isLt
  simp only [nfgpuSkbSize_toNat, nfgpuMaxMemory_toNat] at hpage hwrap
  rw [BitVec.lt_def, slotIndex_toNat, nfgpuMaxSkbs_toNat, InRange, nfgpuMaxMemory_toNat]
  omega

/-- A slot's address, in natural numbers, wherever the range does not wrap.
Kind: L -/
theorem slotAddr_toNat_of_noWrap {kva : Addr} (hwrap : kva.toNat + nfgpuMaxMemory.toNat ≤ 2 ^ 64)
    {i : BitVec 64} (hi : i < nfgpuMaxSkbs) :
    (slotAddr kva i).toNat = kva.toNat + i.toNat * 4096 := by
  rw [BitVec.lt_def, nfgpuMaxSkbs_toNat] at hi
  rw [nfgpuMaxMemory_toNat] at hwrap
  have hshift : (i <<< nfgpuSkbOffset).toNat = i.toNat * 4096 := by
    rw [BitVec.toNat_shiftLeft, nfgpuSkbOffset, Nat.shiftLeft_eq]
    omega
  rw [slotAddr, BitVec.toNat_add, hshift]
  omega

/-- A slot's address, in natural numbers.
Kind: L -/
theorem slotAddr_toNat {kva : Addr} (h : IsPoolBase kva) {i : BitVec 64} (hi : i < nfgpuMaxSkbs) :
    (slotAddr kva i).toNat = kva.toNat + i.toNat * 4096 :=
  slotAddr_toNat_of_noWrap h.noWrap hi

/-- The address of a slot lies in the pool.
Kind: L -/
theorem inRange_slotAddr {kva : Addr} (h : IsPoolBase kva) {i : BitVec 64}
    (hi : i < nfgpuMaxSkbs) : InRange kva (slotAddr kva i) := by
  rw [InRange, slotAddr_toNat h hi, nfgpuMaxMemory_toNat]
  rw [BitVec.lt_def, nfgpuMaxSkbs_toNat] at hi
  omega

/-- The index of a slot's address is the slot.
Kind: L -/
theorem slotIndex_slotAddr {kva : Addr} (h : IsPoolBase kva) {i : BitVec 64}
    (hi : i < nfgpuMaxSkbs) : slotIndex kva (slotAddr kva i) = i := by
  have hpage := h.page
  have hwrap := h.noWrap
  apply BitVec.eq_of_toNat_eq
  rw [slotIndex_toNat, slotAddr_toNat h hi]
  rw [BitVec.lt_def, nfgpuMaxSkbs_toNat] at hi
  simp only [nfgpuSkbSize_toNat, nfgpuMaxMemory_toNat] at hpage hwrap
  omega

/-! ## The mask -/

/-- The mask test compares 32 MB windows.
Source: `xt_TOGPU_main.c` 194, 288
Kind: L -/
theorem sameWindow_iff (kva a : Addr) :
    sameWindow kva a = true ↔ a.toNat / 2 ^ 25 = kva.toNat / 2 ^ 25 := by
  rw [sameWindow, beq_iff_eq, nfgpuMemoryMask]
  exact window_eq_iff a kva _ 25 (by decide)

/-- The whole test accepts the addresses of the pool that lie in the window of its base.
Kind: L -/
theorem inPool_iff {kva : Addr} (h : IsPoolBase kva) (a : Addr) :
    inPool kva a = true ↔ InRange kva a ∧ a.toNat / 2 ^ 25 = kva.toNat / 2 ^ 25 := by
  rw [inPool, Bool.and_eq_true, decide_eq_true_eq, sameWindow_iff, slotIndex_lt_iff h, and_comm]

/-- At an aligned base the window is the range.
Kind: L -/
theorem inPool_iff_inRange {kva : Addr} (h : IsPoolBase kva) (hal : Aligned kva) (a : Addr) :
    inPool kva a = true ↔ InRange kva a := by
  rw [inPool_iff h, and_iff_left_iff_imp]
  intro hr
  simp only [InRange, Aligned, nfgpuMaxMemory_toNat] at hr hal
  omega

/-- An address outside the pool is never accepted, at any base.
Kind: L -/
theorem inPool_eq_false {kva : Addr} (h : IsPoolBase kva) {a : Addr} (ha : ¬InRange kva a) :
    inPool kva a = false := by
  rw [Bool.eq_false_iff]
  exact fun hin => ha ((inPool_iff h a).mp hin).1

/-- At an unaligned base the first slot of the next window is not accepted.
Kind: L -/
theorem exists_slot_not_inPool {kva : Addr} (h : IsPoolBase kva) (hal : ¬Aligned kva) :
    ∃ i, 1 ≤ i ∧ i < nfgpuMaxSkbs ∧ inPool kva (slotAddr kva i) = false := by
  have hpage := h.page
  simp only [Aligned, nfgpuSkbSize_toNat, nfgpuMaxMemory_toNat] at hpage hal
  -- the pages left in the base's window
  let n := (33554432 - kva.toNat % 33554432) / 4096
  have hn : (BitVec.ofNat 64 n).toNat = n := by
    rw [BitVec.toNat_ofNat]
    omega
  have hlt : BitVec.ofNat 64 n < nfgpuMaxSkbs := by
    rw [BitVec.lt_def, hn, nfgpuMaxSkbs_toNat]
    omega
  refine ⟨BitVec.ofNat 64 n, ?_, hlt, ?_⟩
  · rw [BitVec.le_def, hn]
    show 1 ≤ n
    omega
  · rw [Bool.eq_false_iff]
    intro hin
    have hw := ((inPool_iff h _).mp hin).2
    rw [slotAddr_toNat h hlt, hn] at hw
    omega

/-- **The membership test is right exactly at aligned bases**: it accepts an address iff the
address lies in the pool, and accepts every slot the allocator hands out with that slot's index,
iff the base is 32 MB-aligned.
Source: `xt_TOGPU_main.c` 188–195, 262–269, 284–296
Kind: P
Fidelity: exact
Hyps: (a) `IsPoolBase kva`, what `vmap` promises -/
theorem inPool_agrees_iff_aligned {kva : Addr} (h : IsPoolBase kva) :
    ((∀ a, inPool kva a = true ↔ InRange kva a) ∧
      ∀ i, 1 ≤ i → i < nfgpuMaxSkbs →
        inPool kva (slotAddr kva i) = true ∧ slotIndex kva (slotAddr kva i) = i) ↔
      Aligned kva := by
  constructor
  · rintro ⟨-, hslots⟩
    by_contra hal
    obtain ⟨i, hpos, hlt, hout⟩ := exists_slot_not_inPool h hal
    rw [(hslots i hpos hlt).1] at hout
    cases hout
  · intro hal
    refine ⟨inPool_iff_inRange h hal, fun i _ hlt => ⟨?_, slotIndex_slotAddr h hlt⟩⟩
    rw [inPool_iff_inRange h hal]
    exact inRange_slotAddr h hlt

/-- A base `vmap` may return for which both sides hold.
Kind: C -/
theorem inPool_agrees_at_vmalloc_start :
    IsPoolBase 0xffffc90000000000 ∧
      (∀ a, inPool 0xffffc90000000000 a = true ↔ InRange 0xffffc90000000000 a) ∧
      ∀ i, 1 ≤ i → i < nfgpuMaxSkbs →
        inPool 0xffffc90000000000 (slotAddr 0xffffc90000000000 i) = true ∧
          slotIndex 0xffffc90000000000 (slotAddr 0xffffc90000000000 i) = i :=
  have hbase : IsPoolBase 0xffffc90000000000 := ⟨by decide, by decide, by decide⟩
  ⟨hbase, (inPool_agrees_iff_aligned hbase).mpr (by decide)⟩

/-- One page further on, the last slot is handed out and not recognised.
Kind: C -/
theorem last_slot_not_inPool :
    IsPoolBase 0xffffc90000001000 ∧ 1 ≤ (8191 : BitVec 64) ∧ (8191 : BitVec 64) < nfgpuMaxSkbs ∧
      InRange 0xffffc90000001000 (slotAddr 0xffffc90000001000 8191) ∧
      inPool 0xffffc90000001000 (slotAddr 0xffffc90000001000 8191) = false := by
  refine ⟨⟨by decide, by decide, by decide⟩, ?_⟩
  decide

end Togpu.Driver
