import Togpu.Lib.Seek
import Togpu.Pool.NativeResult

/-!
# Slot search

The loop by which the allocation hook finds a slot, as a loop over the driver's state: it reads an
entry of `nfgpu_skbs`, and while the entry is in use it moves `nfgpu_next`, skipping slot 0 at the
wrap.

* `searchLoop` — the loop, with the indices it reads the table at.
* `cyclicOrder` — the order in which slots are to be tried, written down without the loop.
* `iterate_advance` — the rounds of the loop go through the slots in that order.
* **The search ends at the first free slot of the order, for every table that has one**
  (`searchLoop_firstFree`), with every read inside the table and nothing but `nfgpu_next` changed.
* `findSlot_eq_searchLoop` — the search of the allocation hook is this loop, so that an allocation
  hands out that slot (`netdevAllocSkbTogpu_firstFree`).
-/

namespace Togpu.Driver

open Togpu.Lib

/-! ## The loop and the order -/

/-- The test of the loop: `nfgpu_skbs[nfgpu_next] != 0` fails.
Source: `xt_TOGPU_main.c` 256
Kind: D -/
def SlotFree (drv : Globals) : Prop := drv.nfgpuSkbs drv.nfgpuNext = 0

instance : DecidablePred SlotFree := fun drv =>
  inferInstanceAs (Decidable (drv.nfgpuSkbs drv.nfgpuNext = 0))

/-- The body of the loop.
Source: `xt_TOGPU_main.c` 259
Kind: D -/
def searchRound (drv : Globals) : Globals := { drv with nfgpuNext := advance drv.nfgpuNext }

/-- The search loop of `__netdev_alloc_skb_togpu`, for at most `fuel` reads of the table: the driver
it leaves and the indices it reads `nfgpu_skbs` at.
Source: `xt_TOGPU_main.c` 255–260
Kind: D -/
def searchLoop (fuel : ℕ) (drv : Globals) : Option (Globals × List (BitVec 64)) :=
  (seek SlotFree searchRound fuel drv).map fun r => (r.1, r.2.map Globals.nfgpuNext)

/-- The slots in the order `next, next + 1, …, NFGPU_MAX_SKBS - 1, 1, …, next - 1`.
Kind: D -/
def cyclicOrder (next : ℕ) : List (BitVec 64) :=
  (List.range' next (nfgpuMaxSkbs.toNat - next) ++ List.range' 1 (next - 1)).map (BitVec.ofNat 64)

/-- The order goes through the slots from 1 on, each once.
Kind: L -/
theorem length_cyclicOrder {next : ℕ} (hpos : 1 ≤ next) (hlt : next < nfgpuMaxSkbs.toNat) :
    (cyclicOrder next).length = nfgpuMaxSkbs.toNat - 1 := by
  simp only [cyclicOrder, List.length_map, List.length_append, List.length_range']
  omega

/-- Every slot from 1 on is in the order.
Kind: L -/
theorem mem_cyclicOrder {next : ℕ} (hlt : next < nfgpuMaxSkbs.toNat) {i : BitVec 64} (hpos : 1 ≤ i)
    (hi : i < nfgpuMaxSkbs) : i ∈ cyclicOrder next := by
  have hi' : i.toNat < nfgpuMaxSkbs.toNat := BitVec.lt_def.mp hi
  have hpos' : 1 ≤ i.toNat := BitVec.le_def.mp hpos
  have hofNat : BitVec.ofNat 64 i.toNat = i := by rw [BitVec.ofNat_toNat, BitVec.setWidth_eq]
  refine List.mem_map.mpr ⟨i.toNat, ?_, hofNat⟩
  rw [List.mem_append, List.mem_range'_1, List.mem_range'_1]
  omega

/-! ## The loop follows the order -/

/-- Below the wrap a round moves the search to the next slot.
Kind: L -/
theorem advance_ofNat {n : ℕ} (h : n + 1 < nfgpuMaxSkbs.toNat) :
    advance (BitVec.ofNat 64 n) = BitVec.ofNat 64 (n + 1) := by
  have hadd : BitVec.ofNat 64 n + 1 = BitVec.ofNat 64 (n + 1) := (BitVec.ofNat_add n 1).symm
  have hlt : (BitVec.ofNat 64 (n + 1)).toNat < nfgpuMaxSkbs.toNat :=
    lt_of_le_of_lt (Nat.mod_le _ _) h
  rw [advance, hadd, if_neg (BitVec.not_le.mpr (BitVec.lt_def.mpr hlt))]

/-- At the wrap it skips slot 0.
Kind: L -/
theorem advance_last : advance (BitVec.ofNat 64 (nfgpuMaxSkbs.toNat - 1)) = 1 := by decide

/-- The search advances slot by slot up to the end of the table.
Kind: L -/
theorem advance_iterate {n k : ℕ} (h : n + k < nfgpuMaxSkbs.toNat) :
    advance^[k] (BitVec.ofNat 64 n) = BitVec.ofNat 64 (n + k) := by
  induction k with
  | zero => rfl
  | succ k ih =>
      rw [Function.iterate_succ_apply', ih (by omega), advance_ofNat (by omega)]
      rfl

/-- The slots tried before the wrap.
Kind: L -/
theorem iterate_advance_below {n k : ℕ} (h : n + k ≤ nfgpuMaxSkbs.toNat) :
    List.iterate advance (BitVec.ofNat 64 n) k = (List.range' n k).map (BitVec.ofNat 64) := by
  rw [← List.range_map_iterate, List.range'_eq_map_range, List.map_map]
  refine List.map_congr_left fun j hj => ?_
  have hj' : j < k := List.mem_range.mp hj
  exact advance_iterate (by omega)

/-- After the slots below the wrap comes slot 1.
Kind: L -/
theorem advance_iterate_wrap {n : ℕ} (h : n < nfgpuMaxSkbs.toNat) :
    advance^[nfgpuMaxSkbs.toNat - n] (BitVec.ofNat 64 n) = 1 := by
  have hsucc : nfgpuMaxSkbs.toNat - n = (nfgpuMaxSkbs.toNat - 1 - n) + 1 := by omega
  have hlast : n + (nfgpuMaxSkbs.toNat - 1 - n) = nfgpuMaxSkbs.toNat - 1 := by omega
  rw [hsucc, Function.iterate_succ_apply', advance_iterate (by omega), hlast, advance_last]

/-- **The rounds of the loop try the slots in the cyclic order.**
Kind: P -/
theorem iterate_advance {next : BitVec 64} (hpos : 1 ≤ next) (hlt : next < nfgpuMaxSkbs) :
    List.iterate advance next (nfgpuMaxSkbs.toNat - 1) = cyclicOrder next.toNat := by
  have hpos' : 1 ≤ next.toNat := BitVec.le_def.mp hpos
  have hlt' : next.toNat < nfgpuMaxSkbs.toNat := BitVec.lt_def.mp hlt
  have hsplit : nfgpuMaxSkbs.toNat - 1 = (nfgpuMaxSkbs.toNat - next.toNat) + (next.toNat - 1) := by
    omega
  have hbelow := iterate_advance_below (n := next.toNat) (k := nfgpuMaxSkbs.toNat - next.toNat)
    (by omega)
  have hwrap := advance_iterate_wrap hlt'
  rw [BitVec.ofNat_toNat, BitVec.setWidth_eq] at hbelow hwrap
  rw [hsplit, List.iterate_add, hbelow, hwrap, cyclicOrder, List.map_append]
  congr 1
  exact iterate_advance_below (n := 1) (by omega)

/-- The rounds change `nfgpu_next` and nothing else.
Kind: L -/
theorem iterate_searchRound (drv : Globals) (n : ℕ) :
    List.iterate searchRound drv n =
      (List.iterate advance drv.nfgpuNext n).map fun i => { drv with nfgpuNext := i } := by
  induction n generalizing drv with
  | zero => rfl
  | succ n ih =>
      rw [List.iterate, List.iterate, List.map_cons, ih]
      rfl

/-! ## What the search finds -/

/-- The first free slot of the cyclic order is where the loop stops.
Kind: L -/
theorem find?_searchRounds (drv : Globals) (order : List (BitVec 64)) :
    ((order.map fun i => { drv with nfgpuNext := i }).find? fun t => decide (SlotFree t)) =
      (order.find? fun i => drv.nfgpuSkbs i = 0).map fun i => { drv with nfgpuNext := i } := by
  rw [List.find?_map]
  rfl

/-- With a free slot, the cyclic order has a first one.
Kind: L -/
theorem exists_firstFree {drv : Globals} (hfree : FreeSlot drv) (hnext : NextInTable drv) :
    ∃ i, ((cyclicOrder drv.nfgpuNext.toNat).find? fun j => drv.nfgpuSkbs j = 0) = some i := by
  obtain ⟨j, hpos, hj, hzero⟩ := hfree
  rw [← Option.isSome_iff_exists, List.find?_isSome]
  exact ⟨j, mem_cyclicOrder (BitVec.lt_def.mp hnext.2) hpos hj, decide_eq_true hzero⟩

/-- Every state of the search has `nfgpu_next` in the table and not at the mailbox.
Kind: L -/
theorem NextInTable.searchRound {drv : Globals} (h : NextInTable drv) :
    NextInTable (searchRound drv) := ⟨advance_pos h.2, advance_lt drv.nfgpuNext⟩

/-- The loop reads the table at slots from 1 on only, and ends at one.
Kind: L -/
theorem searchLoop_inTable {drv drv' : Globals} {fuel : ℕ} {reads : List (BitVec 64)}
    (hnext : NextInTable drv) (h : searchLoop fuel drv = some (drv', reads)) :
    NextInTable drv' ∧ ∀ r ∈ reads, 1 ≤ r ∧ r < nfgpuMaxSkbs := by
  obtain ⟨⟨t, visited⟩, hrun, hr⟩ := Option.map_eq_some_iff.mp h
  cases hr
  obtain ⟨hend, hvisited⟩ := seek_invariant (fun s h _ => NextInTable.searchRound h) hrun hnext
  refine ⟨hend, ?_⟩
  intro r hr
  obtain ⟨s, hs, rfl⟩ := List.mem_map.mp hr
  exact hvisited s hs

/-- The loop ends at the first free slot of the cyclic order.
Kind: L -/
theorem searchLoop_of_firstFree {drv : Globals} (hnext : NextInTable drv) {i : BitVec 64}
    (hi : ((cyclicOrder drv.nfgpuNext.toNat).find? fun j => drv.nfgpuSkbs j = 0) = some i)
    {fuel : ℕ} (hfuel : nfgpuMaxSkbs.toNat - 1 ≤ fuel) :
    ∃ reads, searchLoop fuel drv = some ({ drv with nfgpuNext := i }, reads) := by
  let order := (cyclicOrder drv.nfgpuNext.toNat).map fun i => { drv with nfgpuNext := i }
  have hlen : order.length = nfgpuMaxSkbs.toNat - 1 := by
    rw [List.length_map]
    exact length_cyclicOrder (BitVec.le_def.mp hnext.1) (BitVec.lt_def.mp hnext.2)
  have horder : List.iterate searchRound drv order.length = order := by
    rw [hlen, iterate_searchRound, iterate_advance hnext.1 hnext.2]
  have hfind : (order.find? fun t => decide (SlotFree t)) = some { drv with nfgpuNext := i } := by
    rw [find?_searchRounds, hi, Option.map_some]
  have hseek := map_fst_seek_of_iterate horder hfind (hlen.trans_le hfuel)
  obtain ⟨⟨t, visited⟩, hrun, rfl⟩ := Option.map_eq_some_iff.mp hseek
  refine ⟨visited.map Globals.nfgpuNext, ?_⟩
  rw [searchLoop, hrun]
  rfl

/-- **Slot search.** For every table with a free slot and every `nfgpu_next` in range the loop
ends, whatever larger bound is put on its reads; it reads the table inside its bounds, changes
nothing but `nfgpu_next`, and leaves that at the first free slot of the cyclic order, never at
slot 0.
Source: `xt_TOGPU_main.c` 255–260, `xt_TOGPU.h` 19–23
Kind: C
Hyps: a slot from 1 on is free; `nfgpu_next` is an index from 1 on. -/
theorem searchLoop_firstFree (drv : Globals) (hfree : FreeSlot drv) (hnext : NextInTable drv)
    (fuel : ℕ) (hfuel : nfgpuMaxSkbs.toNat - 1 ≤ fuel) :
    ∃ i reads, searchLoop fuel drv = some ({ drv with nfgpuNext := i }, reads) ∧
      (∀ r ∈ reads, r < nfgpuMaxSkbs) ∧
      ((cyclicOrder drv.nfgpuNext.toNat).find? fun j => drv.nfgpuSkbs j = 0) = some i ∧ i ≠ 0 := by
  obtain ⟨i, hi⟩ := exists_firstFree hfree hnext
  obtain ⟨reads, hrun⟩ := searchLoop_of_firstFree hnext hi hfuel
  obtain ⟨hend, hreads⟩ := searchLoop_inTable hnext hrun
  have hpos : 1 ≤ i := hend.1
  refine ⟨i, reads, hrun, fun r hr => (hreads r hr).2, hi, ?_⟩
  rintro rfl
  exact absurd hpos (by decide)

/-- A driver whose last two slots and first slot are in use, with the search about to wrap.
Kind: D -/
def aboutToWrap : Globals :=
  { startedEmpty with
    nfgpuSkbs := fun i => if i = 8190 ∨ i = 8191 ∨ i = 1 then 0x1000 else 0
    nfgpuNext := 8190 }

/-- The search across the wrap, past the mailbox.
Kind: C -/
theorem searchLoop_firstFree_aboutToWrap :
    FreeSlot aboutToWrap ∧ NextInTable aboutToWrap ∧
      ∃ i reads, searchLoop 8191 aboutToWrap = some ({ aboutToWrap with nfgpuNext := i }, reads) ∧
        (∀ r ∈ reads, r < nfgpuMaxSkbs) ∧
        ((cyclicOrder aboutToWrap.nfgpuNext.toNat).find? fun j => aboutToWrap.nfgpuSkbs j = 0) =
          some i ∧ i ≠ 0 := by
  have hfree : FreeSlot aboutToWrap := ⟨2, by decide, by decide, by decide⟩
  have hnext : NextInTable aboutToWrap := ⟨by decide, by decide⟩
  exact ⟨hfree, hnext, searchLoop_firstFree aboutToWrap hfree hnext 8191 (by decide)⟩

example : searchLoop 8191 aboutToWrap =
    some ({ aboutToWrap with nfgpuNext := 2 }, [8190, 8191, 1, 2]) := rfl

/-! ## The allocation hook -/

/-- From an index in range, the search of the allocation hook is the loop.
Kind: P -/
theorem findSlot_eq_searchLoop {drv : Globals} (hnext : NextInTable drv) (fuel : ℕ) :
    findSlot drv.nfgpuSkbs fuel drv.nfgpuNext =
      (searchLoop fuel drv).elim (.error .noFreeSlot) fun r => .ok r.1.nfgpuNext := by
  induction fuel generalizing drv with
  | zero => rfl
  | succ fuel ih =>
      rw [findSlot, if_pos hnext.2, searchLoop]
      by_cases hfree : SlotFree drv
      · have hzero : drv.nfgpuSkbs drv.nfgpuNext = 0 := hfree
        rw [seek_of_stop hfree, if_neg (not_not.mpr hzero)]
        rfl
      · have hused : drv.nfgpuSkbs drv.nfgpuNext ≠ 0 := hfree
        have hround := ih hnext.searchRound
        rw [searchLoop] at hround
        rw [seek_of_not_stop hfree, if_pos hused]
        -- the two searches differ by the index read in this round
        cases hseek : seek SlotFree searchRound fuel (searchRound drv) with
        | none =>
            rw [hseek] at hround
            exact hround
        | some r =>
            rw [hseek] at hround
            exact hround

/-- **What an allocation hands out**: a buffer that is to be moved goes into the first free slot
of the cyclic order, and the table changes at that slot only.
Source: `xt_TOGPU_main.c` 252–269
Kind: P
Hyps: a slot is free and `nfgpu_next` is in range. -/
theorem netdevAllocSkbTogpu_firstFree {drv : Globals} (hfree : FreeSlot drv)
    (hnext : NextInTable drv) (hrun : drv.nfgpuRunning = true) {shinfo : Addr → SkbSharedInfo}
    {ret : SkBuff} (hel : eligible shinfo ret) :
    ∃ i, ((cyclicOrder drv.nfgpuNext.toNat).find? fun j => drv.nfgpuSkbs j = 0) = some i ∧
      netdevAllocSkbTogpu drv shinfo (some ret) =
        .ok ({ drv with
                nfgpuSkbs := Function.update drv.nfgpuSkbs i ret.head
                nfgpuNext := i },
          some (moveTo (slotAddr drv.nfgpuKva i) ret)) := by
  obtain ⟨i, hi⟩ := exists_firstFree hfree hnext
  obtain ⟨reads, hloop⟩ := searchLoop_of_firstFree hnext hi (Nat.sub_le nfgpuMaxSkbs.toNat 1)
  refine ⟨i, hi, netdevAllocSkbTogpu_of_found hrun hel ?_⟩
  rw [findSlot_eq_searchLoop hnext, hloop]
  rfl

end Togpu.Driver
