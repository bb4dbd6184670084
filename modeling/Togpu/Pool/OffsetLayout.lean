import Togpu.Pool.RoundTrip

/-!
# The hooks under the 64-bit layout of `sk_buff`

A 64-bit kernel keeps `tail` and `end` as 32-bit offsets from `head`. The hooks treat both as
pointers: they subtract `head` from them and store sums with addresses back. The same text, compiled
for that layout.

* `SkBuffOff`, `netdevAllocSkbTogpuOff`, `skbReleaseDataTogpuOff` — the hooks with zero-extended
  loads and truncating stores of `tail` and `end`.
* `lengthTest_iff`: the size test measures the distance of `head` from the ends of the address
  space, and no head a kernel allocator returns passes it.
* `SwapRoundTrip` — what the swap is for: the buffer is moved to a slot with its offsets and moved
  back with them.
* **A buffer makes the round trip iff it passes that test, its head and its slot agree in their low
  32 bits, and the slot is recognised** (`swapRoundTrip_iff`).
-/

namespace Togpu.Driver

open Togpu.Lib

/-! ## The layout and the hooks -/

/-- The fields of `struct sk_buff` with `tail` and `end` as offsets from `head`.
Source: `xt_TOGPU_main.c` 249–269, 285–303
Kind: D -/
structure SkBuffOff where
  /-- Start of the data buffer. -/
  head : Addr
  /-- Start of the packet in the buffer. -/
  data : Addr
  /-- End of the packet, from `head`. -/
  tail : BitVec 32
  /-- End of the buffer, from `head`. -/
  skbEnd : BitVec 32
  /-- Packet length. -/
  len : BitVec 32
  deriving DecidableEq, Repr

/-- `skb_end_pointer`, where the shared info is.
Kind: D -/
def SkBuffOff.endPointer (skb : SkBuffOff) : Addr := skb.head + skb.skbEnd.setWidth 64

/-- `skb_reset_tail_pointer` for offset fields: `tail = data - head`.
Source: `xt_TOGPU_main.c` 268
Kind: D -/
def skbResetTailOffset (skb : SkBuffOff) : SkBuffOff :=
  { skb with tail := (skb.data - skb.head).setWidth 32 }

/-- `(unsigned long) field - (unsigned long) head` for an offset field.
Source: `xt_TOGPU_main.c` 249, 292–293
Kind: D -/
def fieldMinus (field : BitVec 32) (head : Addr) : BitVec 64 := field.setWidth 64 - head

/-- The condition under which the hook moves a buffer.
Source: `xt_TOGPU_main.c` 249–251
Kind: D -/
def eligibleOff (shinfo : Addr → SkbSharedInfo) (ret : SkBuffOff) : Prop :=
  (shinfo ret.endPointer).nrFrags = 0 ∧ fieldMinus ret.skbEnd ret.head ≤ nfgpuSkbSize

instance (shinfo : Addr → SkbSharedInfo) (ret : SkBuffOff) : Decidable (eligibleOff shinfo ret) :=
  inferInstanceAs (Decidable (_ ∧ _))

/-- The `sk_buff` moved to `newhead`.
Source: `xt_TOGPU_main.c` 266–269
Kind: D -/
def moveToOff (newhead : Addr) (ret : SkBuffOff) : SkBuffOff :=
  { skbResetTailOffset { ret with head := newhead, data := newhead + (ret.data - ret.head) } with
    skbEnd := (newhead + fieldMinus ret.skbEnd ret.head).setWidth 32 }

/-- `__netdev_alloc_skb_togpu` on a native result.
Source: `xt_TOGPU_main.c` 235–277
Kind: D -/
def netdevAllocSkbTogpuOff (drv : Globals) (shinfo : Addr → SkbSharedInfo) (ret : SkBuffOff) :
    Except Fault (Globals × SkBuffOff) :=
  if drv.nfgpuRunning then
    if eligibleOff shinfo ret then
      match findSlot drv.nfgpuSkbs nfgpuMaxSkbs.toNat drv.nfgpuNext with
      | .error e => .error e
      | .ok next =>
          .ok ({ drv with
                  nfgpuSkbs := Function.update drv.nfgpuSkbs next ret.head
                  nfgpuNext := next },
            moveToOff (slotAddr drv.nfgpuKva next) ret)
    else .ok (drv, ret)
  else .ok (drv, ret)

/-- The `sk_buff` moved back to `newhead`.
Source: `xt_TOGPU_main.c` 291–293, 300–303
Kind: D -/
def restoreToOff (newhead : Addr) (skb : SkBuffOff) : SkBuffOff :=
  { skb with
    head := newhead
    data := newhead + (skb.data - skb.head)
    tail := (newhead + fieldMinus skb.tail skb.head).setWidth 32
    skbEnd := (newhead + fieldMinus skb.skbEnd skb.head).setWidth 32 }

/-- `skb_release_data_togpu`: the driver after it and the `sk_buff` the native routine gets.
Source: `xt_TOGPU_main.c` 279–314
Kind: D -/
def skbReleaseDataTogpuOff (drv : Globals) (skb : SkBuffOff) : Globals × SkBuffOff :=
  let oldhead := skb.head
  if drv.nfgpuKva ≠ 0 then
    if sameWindow drv.nfgpuKva oldhead then
      let index := slotIndex drv.nfgpuKva oldhead
      if index < nfgpuMaxSkbs then
        let newhead := drv.nfgpuSkbs index
        if index < nfgpuMaxSkbs ∧ newhead ≠ 0 then
          ({ drv with nfgpuSkbs := Function.update drv.nfgpuSkbs index 0 },
            restoreToOff newhead skb)
        else (drv, skb)
      else (drv, skb)
    else (drv, skb)
  else (drv, skb)

/-! ## Arithmetic of the offsets -/

/-- An offset survives the move from `y` to `x` iff both agree in their low half.
Kind: L -/
theorem rebase_eq_iff (x y : Addr) (field : BitVec 32) :
    (x + fieldMinus field y).setWidth 32 = field ↔ x.setWidth 32 = y.setWidth 32 := by
  have hf := field.isLt
  simp only [fieldMinus, ← BitVec.toNat_inj, BitVec.toNat_setWidth, BitVec.toNat_add,
    BitVec.toNat_sub]
  omega

/-- The size test on an `end` offset of at most a slot: it accepts heads within a slot of either end
of the address space.
Source: `xt_TOGPU_main.c` 249–251
Kind: L -/
theorem lengthTest_iff {field : BitVec 32} (hend : field.toNat ≤ 4096) (head : Addr) :
    fieldMinus field head ≤ nfgpuSkbSize ↔
      head.toNat ≤ field.toNat ∨ 2 ^ 64 + field.toNat ≤ head.toNat + 4096 := by
  have hh := head.isLt
  rw [BitVec.le_def, nfgpuSkbSize_toNat, fieldMinus, BitVec.toNat_sub, BitVec.toNat_setWidth]
  omega

/-- No buffer above the first and below the last page of the address space is moved.
Kind: L -/
theorem not_eligibleOff {shinfo : Addr → SkbSharedInfo} {ret : SkBuffOff}
    (hend : ret.skbEnd.toNat ≤ 4096) (hlow : 4096 < ret.head.toNat)
    (hhigh : ret.head.toNat < 2 ^ 64 - 4096) : ¬eligibleOff shinfo ret := by
  rintro ⟨-, hlen⟩
  rw [lengthTest_iff hend] at hlen
  omega

/-! ## The round trip -/

/-- A running pool with a free slot.
Kind: D -/
structure PoolReady (drv : Globals) : Prop where
  running : drv.nfgpuRunning = true
  base : IsPoolBase drv.nfgpuKva
  next_pos : 1 ≤ drv.nfgpuNext
  next_lt : drv.nfgpuNext < nfgpuMaxSkbs
  free : FreeSlot drv

/-- What the release hook hands on for a buffer with current fields `cur`: the native head `head`,
and the offsets it had.
Kind: D -/
def RestoredTo (head : Addr) (cur handed : SkBuffOff) : Prop :=
  handed.head = head ∧ handed.data - handed.head = cur.data - cur.head ∧
    handed.tail = cur.tail ∧ handed.skbEnd = cur.skbEnd

/-- The buffer is moved to slot `i` with the offsets of `data` and `end` unchanged and the tail at
`data`; and a later release, wherever the stack has moved `data` and `tail` by then and whatever
else has gone on in the driver, moves it back to its native head with its offsets.
Kind: D -/
def SwapRoundTrip (drv : Globals) (shinfo : Addr → SkbSharedInfo) (ret : SkBuffOff)
    (i : BitVec 64) : Prop :=
  ∃ drv' skb, netdevAllocSkbTogpuOff drv shinfo ret = .ok (drv', skb) ∧
    skb.head = slotAddr drv.nfgpuKva i ∧ skb.data - skb.head = ret.data - ret.head ∧
    skb.skbEnd = ret.skbEnd ∧ skb.tail = (skb.data - skb.head).setWidth 32 ∧
    ∀ later : Globals, later.nfgpuKva = drv.nfgpuKva → later.nfgpuSkbs i = ret.head →
      ∀ data tail len, RestoredTo ret.head { skb with data := data, tail := tail, len := len }
        (skbReleaseDataTogpuOff later { skb with data := data, tail := tail, len := len }).2

section roundTripOff

variable {drv : Globals} {shinfo : Addr → SkbSharedInfo} {ret : SkBuffOff} {i : BitVec 64}

/-- An allocation whose result passes the tests returns it moved.
Kind: L -/
theorem netdevAllocSkbTogpuOff_of_found (hrun : drv.nfgpuRunning = true)
    (hel : eligibleOff shinfo ret)
    (hi : findSlot drv.nfgpuSkbs nfgpuMaxSkbs.toNat drv.nfgpuNext = .ok i) :
    netdevAllocSkbTogpuOff drv shinfo ret =
      .ok ({ drv with
              nfgpuSkbs := Function.update drv.nfgpuSkbs i ret.head, nfgpuNext := i },
        moveToOff (slotAddr drv.nfgpuKva i) ret) := by
  rw [netdevAllocSkbTogpuOff, if_pos hrun, if_pos hel, hi]

/-- An allocation whose result does not pass returns it as it is.
Kind: L -/
theorem netdevAllocSkbTogpuOff_of_not_eligible (hel : ¬eligibleOff shinfo ret) :
    netdevAllocSkbTogpuOff drv shinfo ret = .ok (drv, ret) := by
  unfold netdevAllocSkbTogpuOff
  split_ifs
  · rfl
  · rfl

/-- The release hook on a buffer in slot `i`, whose entry is its native head.
Kind: L -/
theorem skbReleaseDataTogpuOff_snd {kva : Addr} (hb : IsPoolBase kva) (hi : i < nfgpuMaxSkbs)
    {later : Globals} (hkva : later.nfgpuKva = kva) {head : Addr} (hhead : head ≠ 0)
    (hentry : later.nfgpuSkbs i = head) {skb : SkBuffOff} (hskb : skb.head = slotAddr kva i) :
    (skbReleaseDataTogpuOff later skb).2 =
      if inPool kva (slotAddr kva i) then restoreToOff head skb else skb := by
  have hidx : slotIndex kva (slotAddr kva i) = i := slotIndex_slotAddr hb hi
  simp only [skbReleaseDataTogpuOff, hkva, hskb, hidx, hentry, inPool, if_pos hb.ne_zero, if_pos hi,
    if_pos (And.intro hi hhead), decide_eq_true hi, Bool.and_true]
  split_ifs <;> rfl

/-- Moving back is exact when the two heads agree in their low half.
Kind: L -/
theorem restoredTo_restoreToOff {head : Addr} {skb : SkBuffOff}
    (hlow : head.setWidth 32 = skb.head.setWidth 32) :
    RestoredTo head skb (restoreToOff head skb) := by
  refine ⟨rfl, ?_, (rebase_eq_iff _ _ _).mpr hlow, (rebase_eq_iff _ _ _).mpr hlow⟩
  simp only [restoreToOff]
  rw [BitVec.add_comm, BitVec.add_sub_cancel]

/-- The round trip of a buffer that is moved, to the slot the search finds.
Kind: L -/
theorem swapRoundTrip_of_eligible (hpool : PoolReady drv) (hhead : ret.head ≠ 0)
    (hout : ¬InRange drv.nfgpuKva ret.head) (hel : eligibleOff shinfo ret)
    (hi : findSlot drv.nfgpuSkbs nfgpuMaxSkbs.toNat drv.nfgpuNext = .ok i) :
    SwapRoundTrip drv shinfo ret i ↔
      ret.head.setWidth 32 = (slotAddr drv.nfgpuKva i).setWidth 32 ∧
        inPool drv.nfgpuKva (slotAddr drv.nfgpuKva i) = true := by
  have hlt := (findSlot_ok hi).1
  have halloc := netdevAllocSkbTogpuOff_of_found hpool.running hel hi
  constructor
  · rintro ⟨drv', skb, hok, hslot, -, hend, -, hlater⟩
    rw [halloc] at hok
    cases hok
    refine ⟨((rebase_eq_iff _ _ _).mp hend).symm, ?_⟩
    by_contra hin
    -- not recognised: the native routine gets the buffer at its slot
    let later := { drv with nfgpuSkbs := Function.update drv.nfgpuSkbs i ret.head }
    have hkva : later.nfgpuKva = drv.nfgpuKva := rfl
    have hentry : later.nfgpuSkbs i = ret.head := Function.update_self ..
    have hrel := hlater later hkva hentry 0 0 0
    rw [skbReleaseDataTogpuOff_snd hpool.base hlt hkva hhead hentry rfl, if_neg hin] at hrel
    exact hout (hrel.1 ▸ inRange_slotAddr hpool.base hlt)
  · rintro ⟨hlow, hin⟩
    refine ⟨_, _, halloc, rfl, ?_, (rebase_eq_iff _ _ _).mpr hlow.symm, rfl, ?_⟩
    · simp only [moveToOff, skbResetTailOffset]
      rw [BitVec.add_comm, BitVec.add_sub_cancel]
    · intro later hkva hentry data tail len
      rw [skbReleaseDataTogpuOff_snd hpool.base hlt hkva hhead hentry rfl, if_pos hin]
      exact restoredTo_restoreToOff hlow

/-- A buffer that is not moved makes no round trip.
Kind: L -/
theorem not_swapRoundTrip (hb : IsPoolBase drv.nfgpuKva) (hi : i < nfgpuMaxSkbs)
    (hout : ¬InRange drv.nfgpuKva ret.head) (hel : ¬eligibleOff shinfo ret) :
    ¬SwapRoundTrip drv shinfo ret i := by
  rintro ⟨drv', skb, hok, hslot, -⟩
  rw [netdevAllocSkbTogpuOff_of_not_eligible hel] at hok
  cases hok
  exact hout (hslot ▸ inRange_slotAddr hb hi)

end roundTripOff

/-- **A native buffer without fragments and with an `end` offset of at most a slot makes the round
trip iff its head lies within a slot of the ends of the address space, agrees with the address of
its slot in the low 32 bits, and that address is recognised.** For every running pool with a free
slot.
Source: `xt_TOGPU_main.c` 245–274, 284–306
Kind: P
Fidelity: exact
Hyps: (a) `PoolReady drv`; (b) no fragments, `end` at most a slot; (c) the native buffer is one,
and lies outside the pool -/
theorem swapRoundTrip_iff (drv : Globals) (shinfo : Addr → SkbSharedInfo) (ret : SkBuffOff)
    (hpool : PoolReady drv) (hfr : (shinfo ret.endPointer).nrFrags = 0)
    (hend : ret.skbEnd.toNat ≤ 4096) (hhead : ret.head ≠ 0)
    (hout : ¬InRange drv.nfgpuKva ret.head) :
    ∃ i, findSlot drv.nfgpuSkbs nfgpuMaxSkbs.toNat drv.nfgpuNext = .ok i ∧
      (SwapRoundTrip drv shinfo ret i ↔
        (ret.head.toNat ≤ ret.skbEnd.toNat ∨
          2 ^ 64 + ret.skbEnd.toNat ≤ ret.head.toNat + 4096) ∧
        ret.head.setWidth 32 = (slotAddr drv.nfgpuKva i).setWidth 32 ∧
        inPool drv.nfgpuKva (slotAddr drv.nfgpuKva i) = true) := by
  obtain ⟨i, hi⟩ := hpool.free.exists_findSlot hpool.next_pos hpool.next_lt
  refine ⟨i, hi, ?_⟩
  rw [← lengthTest_iff hend]
  by_cases hlen : fieldMinus ret.skbEnd ret.head ≤ nfgpuSkbSize
  · rw [swapRoundTrip_of_eligible hpool hhead hout ⟨hfr, hlen⟩ hi, and_iff_right hlen]
  · have hno : ¬SwapRoundTrip drv shinfo ret i :=
      not_swapRoundTrip hpool.base (findSlot_ok hi).1 hout fun hel => hlen hel.2
    exact ⟨fun h => absurd h hno, fun h => absurd h.1 hlen⟩

/-- A running pool at `kva` with nothing in it, whose search starts at slot `next`.
Kind: D -/
def emptyPool (kva next : BitVec 64) : Globals :=
  { nfgpuInternalInit with nfgpuRunning := true, nfgpuKva := kva, nfgpuNext := next }

/-- An empty pool has a free slot, and finds the one its search starts at.
Kind: L -/
theorem poolReady_emptyPool {kva next : BitVec 64} (hb : IsPoolBase kva) (hpos : 1 ≤ next)
    (hlt : next < nfgpuMaxSkbs) :
    PoolReady (emptyPool kva next) ∧
      findSlot (emptyPool kva next).nfgpuSkbs nfgpuMaxSkbs.toNat next = .ok next := by
  refine ⟨⟨rfl, hb, hpos, hlt, next, hpos, hlt, rfl⟩, ?_⟩
  rw [nfgpuMaxSkbs_toNat, findSlot, if_pos hlt]
  rfl

/-- A buffer of a page at address `0x1000`, with its packet 64 bytes in, goes to slot 1 of an empty
pool whose slot 1 has the same low half, and back.
Kind: C -/
theorem swapRoundTrip_low_page :
    SwapRoundTrip (emptyPool 0xffffc90000000000 1) (fun _ => ⟨0, 1⟩)
      ⟨0x1000, 0x1040, 64, 4096, 0⟩ 1 := by
  have hb : IsPoolBase 0xffffc90000000000 := ⟨by decide, by decide, by decide⟩
  obtain ⟨hpool, hfound⟩ := poolReady_emptyPool hb (by decide : 1 ≤ (1 : BitVec 64)) (by decide)
  obtain ⟨i, hi, hiff⟩ := swapRoundTrip_iff (emptyPool 0xffffc90000000000 1) (fun _ => ⟨0, 1⟩)
    ⟨0x1000, 0x1040, 64, 4096, 0⟩ hpool rfl (by decide) (by decide) (by decide)
  obtain rfl : (1 : BitVec 64) = i := Except.ok.inj (hfound.symm.trans hi)
  exact hiff.mpr ⟨by decide, by decide, by decide⟩

/-- A buffer of 1728 bytes at an address of the kernel's direct mapping is not moved.
Kind: C -/
theorem not_swapRoundTrip_direct_mapping :
    netdevAllocSkbTogpuOff (emptyPool 0xffffc90000000000 1) (fun _ => ⟨0, 1⟩)
        ⟨0xffff880012340000, 0xffff880012340040, 64, 1728, 0⟩ =
      .ok (emptyPool 0xffffc90000000000 1,
        ⟨0xffff880012340000, 0xffff880012340040, 64, 1728, 0⟩) ∧
      ¬SwapRoundTrip (emptyPool 0xffffc90000000000 1) (fun _ => ⟨0, 1⟩)
        ⟨0xffff880012340000, 0xffff880012340040, 64, 1728, 0⟩ 1 := by
  have hel : ¬eligibleOff (fun _ => ⟨0, 1⟩)
      ⟨0xffff880012340000, 0xffff880012340040, 64, 1728, 0⟩ :=
    not_eligibleOff (by decide) (by decide) (by decide)
  have hb : IsPoolBase 0xffffc90000000000 := ⟨by decide, by decide, by decide⟩
  exact ⟨netdevAllocSkbTogpuOff_of_not_eligible hel,
    not_swapRoundTrip hb (by decide) (by decide) hel⟩

end Togpu.Driver
