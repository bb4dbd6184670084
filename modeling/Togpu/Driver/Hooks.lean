import Togpu.Driver.Types

/-!
# The two `sk_buff` hooks

`__netdev_alloc_skb_togpu` runs the native allocator and then moves the buffer of an eligible
result into a free slot of the pool; `skb_release_data_togpu` moves it back and runs the native
release routine. The native routines are outside the module: the first is an argument (its
result), the second is represented by the `sk_buff` it is entered with.

* `findSlot` — the `while` loop over `nfgpu_skbs`. The bound on its iterations is exact: from an
  index in range the loop is back at a slot it has read after `NFGPU_MAX_SKBS` rounds, and the
  table does not change meanwhile, so a search that has not ended by then never ends.
* `slotIndex`, `inPool` — the test by which the release hook and `nfgpu_target` recognise an
  address of the pool.
-/

namespace Togpu.Driver

/-! ## Addresses of the pool -/

/-- The index both consumers compute for an address, in wrapping arithmetic.
Source: `xt_TOGPU_main.c` 190, 294
Kind: D -/
def slotIndex (kva a : Addr) : BitVec 64 := (a >>> nfgpuSkbOffset) - (kva >>> nfgpuSkbOffset)

/-- The address the allocation hook forms for a slot.
Source: `xt_TOGPU_main.c` 265
Kind: D -/
def slotAddr (kva : Addr) (i : BitVec 64) : Addr := kva + (i <<< nfgpuSkbOffset)

/-- The window test: `(a & NFGPU_MEMORY_MASK) == (nfgpu_kva & NFGPU_MEMORY_MASK)`.
Source: `xt_TOGPU_main.c` 194, 288
Kind: D -/
def sameWindow (kva a : Addr) : Bool := a &&& nfgpuMemoryMask == kva &&& nfgpuMemoryMask

/-- The whole membership test: the window test and the bound on the index.
Source: `xt_TOGPU_main.c` 194–195, 288–295
Kind: D -/
def inPool (kva a : Addr) : Bool := sameWindow kva a && decide (slotIndex kva a < nfgpuMaxSkbs)

/-! ## Allocation -/

/-- One round of the search: `if( ++nfgpu_next >= NFGPU_MAX_SKBS ) nfgpu_next = 1`.
Source: `xt_TOGPU_main.c` 259
Kind: D -/
def advance (next : BitVec 64) : BitVec 64 := if next + 1 ≥ nfgpuMaxSkbs then 1 else next + 1

/-- The search loop `while( nfgpu_skbs[nfgpu_next] != 0 )`, for at most `fuel` rounds; the result
is the value it leaves in `nfgpu_next`.
Source: `xt_TOGPU_main.c` 255–260
Kind: D -/
def findSlot (skbs : BitVec 64 → Addr) : ℕ → BitVec 64 → Except Fault (BitVec 64)
  | 0, _ => .error .noFreeSlot
  | fuel + 1, next =>
      if next < nfgpuMaxSkbs then
        if skbs next ≠ 0 then findSlot skbs fuel (advance next) else .ok next
      else .error .tableBounds

/-- The condition under which the hook moves a buffer: no fragments and not too large.
Source: `xt_TOGPU_main.c` 249–251
Kind: D -/
def eligible (shinfo : Addr → SkbSharedInfo) (ret : SkBuff) : Prop :=
  (shinfo ret.skbEnd).nrFrags = 0 ∧ ret.skbEnd - ret.head ≤ nfgpuSkbSize

instance (shinfo : Addr → SkbSharedInfo) (ret : SkBuff) : Decidable (eligible shinfo ret) :=
  inferInstanceAs (Decidable (_ ∧ _))

/-- The `sk_buff` with its buffer moved to `newhead`, as the hook writes its four pointers.
Source: `xt_TOGPU_main.c` 249–250, 266–269
Kind: D -/
def moveTo (newhead : Addr) (ret : SkBuff) : SkBuff :=
  { skbResetTailPointer { ret with head := newhead, data := newhead + (ret.data - ret.head) } with
    skbEnd := newhead + (ret.skbEnd - ret.head) }

/-- `__netdev_alloc_skb_togpu`, after the native allocator has returned `native` (`none` for
`NULL`) with the shared info of memory `shinfo`.
Source: `xt_TOGPU_main.c` 235–277
Kind: D -/
def netdevAllocSkbTogpu (drv : Globals) (shinfo : Addr → SkbSharedInfo) (native : Option SkBuff) :
    Except Fault (Globals × Option SkBuff) :=
  if drv.nfgpuRunning then
    match native with
    | none => .error .nullDeref
    | some ret =>
        if eligible shinfo ret then
          match findSlot drv.nfgpuSkbs nfgpuMaxSkbs.toNat drv.nfgpuNext with
          | .error e => .error e
          | .ok next =>
              .ok ({ drv with
                      nfgpuSkbs := Function.update drv.nfgpuSkbs next ret.head
                      nfgpuNext := next },
                some (moveTo (slotAddr drv.nfgpuKva next) ret))
        else .ok (drv, some ret)
  else .ok (drv, native)

/-! ## Release -/

/-- The `sk_buff` with its buffer moved back to `newhead`, as the release hook writes its four
pointers from the offsets `ddata`, `dtail` and `dend`.
Source: `xt_TOGPU_main.c` 291–293, 300–303
Kind: D -/
def restoreTo (newhead : Addr) (skb : SkBuff) : SkBuff :=
  { skb with
    head := newhead
    data := newhead + (skb.data - skb.head)
    tail := newhead + (skb.tail - skb.head)
    skbEnd := newhead + (skb.skbEnd - skb.head) }

/-- `skb_release_data_togpu`: the driver after it and the `sk_buff` the native release routine is
entered with.
Source: `xt_TOGPU_main.c` 279–314
Kind: D -/
def skbReleaseDataTogpu (drv : Globals) (skb : SkBuff) : Globals × SkBuff :=
  let oldhead := skb.head
  if drv.nfgpuKva ≠ 0 then
    if sameWindow drv.nfgpuKva oldhead then
      let index := slotIndex drv.nfgpuKva oldhead
      if index < nfgpuMaxSkbs then
        let newhead := drv.nfgpuSkbs index
        if index < nfgpuMaxSkbs ∧ newhead ≠ 0 then
          ({ drv with nfgpuSkbs := Function.update drv.nfgpuSkbs index 0 },
            restoreTo newhead skb)
        else (drv, skb)
      else (drv, skb)
    else (drv, skb)
  else (drv, skb)

/-! ## What the hooks do -/

/-- A search that ends leaves `nfgpu_next` at a free slot of the table.
Kind: L -/
theorem findSlot_ok {skbs : BitVec 64 → Addr} {fuel : ℕ} {next i : BitVec 64}
    (h : findSlot skbs fuel next = .ok i) : i < nfgpuMaxSkbs ∧ skbs i = 0 := by
  induction fuel generalizing next with
  | zero => cases h
  | succ fuel ih =>
      rw [findSlot] at h
      split_ifs at h with hlt hfree
      · exact ih h
      · cases h
        exact ⟨hlt, not_not.mp hfree⟩

/-- The search never goes back to slot 0.
Kind: L -/
theorem advance_pos {next : BitVec 64} (h : next < nfgpuMaxSkbs) : 1 ≤ advance next := by
  unfold advance
  split_ifs with hwrap
  · exact BitVec.le_refl _
  · have hmax := nfgpuMaxSkbs_toNat
    simp only [BitVec.lt_def, BitVec.le_def, hmax] at *
    bv_omega

/-- The search stays inside the table.
Kind: L -/
theorem advance_lt (next : BitVec 64) : advance next < nfgpuMaxSkbs := by
  unfold advance
  split_ifs with hwrap
  · decide
  · exact BitVec.not_le.mp hwrap

/-- A search that starts at a slot other than 0 ends at one.
Kind: L -/
theorem findSlot_pos {skbs : BitVec 64 → Addr} {fuel : ℕ} {next i : BitVec 64} (hpos : 1 ≤ next)
    (h : findSlot skbs fuel next = .ok i) : 1 ≤ i := by
  induction fuel generalizing next with
  | zero => cases h
  | succ fuel ih =>
      rw [findSlot] at h
      split_ifs at h with hlt hfree
      · exact ih (advance_pos hlt) h
      · cases h
        exact hpos

/-- How many rounds the search takes from slot `next` to slot `i`, in the cyclic order
`next, next + 1, …, NFGPU_MAX_SKBS - 1, 1, …`.
Kind: D -/
def rounds (next i : BitVec 64) : ℕ :=
  if next ≤ i then i.toNat - next.toNat else 8191 - next.toNat + i.toNat

/-- Each round brings the search one slot closer.
Kind: L -/
theorem rounds_advance {next i : BitVec 64} (hpos : 1 ≤ i) (hi : i < nfgpuMaxSkbs)
    (hnext : next < nfgpuMaxSkbs) (hne : next ≠ i) :
    rounds (advance next) i + 1 = rounds next i := by
  have hne' : next.toNat ≠ i.toNat := fun h => hne (BitVec.eq_of_toNat_eq h)
  have hmax := nfgpuMaxSkbs_toNat
  rw [BitVec.lt_def, hmax] at hi hnext
  rw [BitVec.le_def] at hpos
  have hsucc : (next + 1).toNat = next.toNat + 1 := by bv_omega
  have hone : (1 : BitVec 64).toNat = 1 := rfl
  rw [hone] at hpos
  unfold advance rounds
  simp only [ge_iff_le, BitVec.le_def, hmax, hsucc]
  split_ifs with hwrap <;> simp only [hone, hsucc] at * <;> omega

/-- **The search ends**: with a free slot it returns within as many rounds as the slot is away.
Source: `xt_TOGPU_main.c` 256–260
Kind: L -/
theorem exists_findSlot {skbs : BitVec 64 → Addr} {i : BitVec 64} (hpos : 1 ≤ i)
    (hi : i < nfgpuMaxSkbs) (hfree : skbs i = 0) {fuel : ℕ} {next : BitVec 64}
    (hnext : next < nfgpuMaxSkbs) (hfuel : rounds next i < fuel) :
    ∃ j, findSlot skbs fuel next = .ok j := by
  induction fuel generalizing next with
  | zero => omega
  | succ fuel ih =>
      rw [findSlot, if_pos hnext]
      by_cases hz : skbs next = 0
      · exact ⟨next, by rw [if_neg (not_not.mpr hz)]⟩
      · rw [if_pos hz]
        have hne : next ≠ i := fun h => hz (h ▸ hfree)
        have hr := rounds_advance hpos hi hnext hne
        exact ih (advance_lt next) (by omega)

/-- **What an allocation that returns can have done**: left everything as the native allocator
returned it, or moved an eligible buffer into the free slot the search found.
Source: `xt_TOGPU_main.c` 235–277
Kind: P -/
theorem netdevAllocSkbTogpu_cases {drv drv' : Globals} {shinfo : Addr → SkbSharedInfo}
    {ret : SkBuff} {r : Option SkBuff}
    (h : netdevAllocSkbTogpu drv shinfo (some ret) = .ok (drv', r)) :
    (¬(drv.nfgpuRunning = true ∧ eligible shinfo ret) ∧ drv' = drv ∧ r = some ret) ∨
      (drv.nfgpuRunning = true ∧ eligible shinfo ret ∧ ∃ i,
        findSlot drv.nfgpuSkbs nfgpuMaxSkbs.toNat drv.nfgpuNext = .ok i ∧
        drv' = { drv with
          nfgpuSkbs := Function.update drv.nfgpuSkbs i ret.head, nfgpuNext := i } ∧
        r = some (moveTo (slotAddr drv.nfgpuKva i) ret)) := by
  unfold netdevAllocSkbTogpu at h
  split_ifs at h with hrun
  · simp only at h
    split_ifs at h with hel
    · right
      split at h
      · cases h
      · rename_i i hi
        cases h
        exact ⟨hrun, hel, i, hi, rfl, rfl⟩
    · cases h
      exact .inl ⟨fun hc => hel hc.2, rfl, rfl⟩
  · cases h
    exact .inl ⟨fun hc => hrun hc.1, rfl, rfl⟩

/-- An allocation that moves nothing returns what the native allocator returned.
Kind: L -/
theorem netdevAllocSkbTogpu_of_not_eligible {drv : Globals} {shinfo : Addr → SkbSharedInfo}
    {ret : SkBuff} (h : ¬(drv.nfgpuRunning = true ∧ eligible shinfo ret)) :
    netdevAllocSkbTogpu drv shinfo (some ret) = .ok (drv, some ret) := by
  unfold netdevAllocSkbTogpu
  split_ifs with hrun
  · simp only
    rw [if_neg fun hel => h ⟨hrun, hel⟩]
  · rfl

/-- An allocation whose search ends returns the moved buffer.
Kind: L -/
theorem netdevAllocSkbTogpu_of_found {drv : Globals} {shinfo : Addr → SkbSharedInfo}
    {ret : SkBuff} {i : BitVec 64} (hrun : drv.nfgpuRunning = true) (hel : eligible shinfo ret)
    (hi : findSlot drv.nfgpuSkbs nfgpuMaxSkbs.toNat drv.nfgpuNext = .ok i) :
    netdevAllocSkbTogpu drv shinfo (some ret) =
      .ok ({ drv with
              nfgpuSkbs := Function.update drv.nfgpuSkbs i ret.head, nfgpuNext := i },
        some (moveTo (slotAddr drv.nfgpuKva i) ret)) := by
  unfold netdevAllocSkbTogpu
  rw [if_pos hrun]
  simp only
  rw [if_pos hel, hi]

/-- The release hook on an address it recognises in an assigned slot: the slot is freed and the
native routine gets the buffer back at its native head.
Source: `xt_TOGPU_main.c` 295–305
Kind: L -/
theorem skbReleaseDataTogpu_of_assigned {drv : Globals} {skb : SkBuff} (hkva : drv.nfgpuKva ≠ 0)
    (hin : inPool drv.nfgpuKva skb.head = true)
    (hassigned : drv.nfgpuSkbs (slotIndex drv.nfgpuKva skb.head) ≠ 0) :
    skbReleaseDataTogpu drv skb =
      ({ drv with nfgpuSkbs :=
          Function.update drv.nfgpuSkbs (slotIndex drv.nfgpuKva skb.head) 0 },
        restoreTo (drv.nfgpuSkbs (slotIndex drv.nfgpuKva skb.head)) skb) := by
  simp only [inPool, Bool.and_eq_true, decide_eq_true_eq] at hin
  unfold skbReleaseDataTogpu
  dsimp only
  rw [if_pos hkva, if_pos hin.1, if_pos hin.2, if_pos ⟨hin.2, hassigned⟩]

/-- The release hook on any other address: nothing changes and the native routine gets the
`sk_buff` as it is.
Source: `xt_TOGPU_main.c` 286–313
Kind: L -/
theorem skbReleaseDataTogpu_of_not_assigned {drv : Globals} {skb : SkBuff}
    (h : inPool drv.nfgpuKva skb.head = false ∨
      drv.nfgpuSkbs (slotIndex drv.nfgpuKva skb.head) = 0) :
    skbReleaseDataTogpu drv skb = (drv, skb) := by
  unfold skbReleaseDataTogpu
  dsimp only
  split_ifs with hkva hwin hidx hfree
  · rcases h with h | h
    · simp [inPool, hwin, hidx] at h
    · exact absurd h hfree.2
  all_goals rfl

/-- **What a release can do**: nothing, or free the slot it takes the head to be in and hand the
native routine the entry of that slot.
Source: `xt_TOGPU_main.c` 279–314
Kind: P -/
theorem skbReleaseDataTogpu_cases (drv : Globals) (skb : SkBuff) :
    skbReleaseDataTogpu drv skb = (drv, skb) ∨
      drv.nfgpuKva ≠ 0 ∧ inPool drv.nfgpuKva skb.head = true ∧
        drv.nfgpuSkbs (slotIndex drv.nfgpuKva skb.head) ≠ 0 ∧
        skbReleaseDataTogpu drv skb =
          ({ drv with nfgpuSkbs :=
              Function.update drv.nfgpuSkbs (slotIndex drv.nfgpuKva skb.head) 0 },
            restoreTo (drv.nfgpuSkbs (slotIndex drv.nfgpuKva skb.head)) skb) := by
  by_cases hkva : drv.nfgpuKva = 0
  · exact .inl (if_neg (not_not.mpr hkva))
  · cases hin : inPool drv.nfgpuKva skb.head with
    | false => exact .inl (skbReleaseDataTogpu_of_not_assigned (.inl hin))
    | true =>
        by_cases hfree : drv.nfgpuSkbs (slotIndex drv.nfgpuKva skb.head) = 0
        · exact .inl (skbReleaseDataTogpu_of_not_assigned (.inr hfree))
        · exact .inr ⟨hkva, rfl, hfree, skbReleaseDataTogpu_of_assigned hkva hin hfree⟩

end Togpu.Driver
