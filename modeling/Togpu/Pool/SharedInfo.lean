import Togpu.Lib.Bytes
import Togpu.Pool.NativeResult

/-!
# The shared info across the two swaps

The kernel keeps a `struct skb_shared_info` at the `end` of every buffer. The hooks move `end` and
write no byte of memory, so what is visible there afterwards is what the memory held before.

* `infoBytes` — the shared info at an address, byte by byte. Its size and the reading of its
  fragment count are the kernel's: parameters.
* `SharedInfoCarried` — whatever the memory holds elsewhere, both hooks leave at the new `end` what
  was at the old one.
* `Restores` — when the release hook recognises a buffer.
* **The shared info is carried iff neither hook moves `end`** (`sharedInfo_carried_iff`): for every
  buffer that is moved or restored some content of memory makes a difference. In a pool run every
  swapped buffer that the release hook finds in the pool is such a buffer
  (`not_carried_of_swapped`).
-/

namespace Togpu.Driver

open Togpu.Lib

/-! ## The shared info in memory -/

/-- The `size` bytes of the shared info at `a`.
Kind: D -/
def infoBytes (size : ℕ) (mem : Addr → BitVec 8) (a : Addr) : List (BitVec 8) :=
  (List.range size).map fun k => mem (a + BitVec.ofNat 64 k)

/-- The shared infos of a memory, as the kernel reads them.
Kind: D -/
def shinfoOf (read : List (BitVec 8) → SkbSharedInfo) (size : ℕ) (mem : Addr → BitVec 8)
    (a : Addr) : SkbSharedInfo :=
  read (infoBytes size mem a)

/-- A byte of a shared info.
Kind: L -/
theorem getElem?_infoBytes {size k : ℕ} (hk : k < size) (mem : Addr → BitVec 8) (a : Addr) :
    (infoBytes size mem a)[k]? = some (mem (a + BitVec.ofNat 64 k)) := by
  simp [infoBytes, List.getElem?_range hk]

/-- Of two stretches of one size that start at different addresses, each has a byte outside the
other.
Kind: L -/
theorem exists_byte_outside {size : ℕ} (hsize : 0 < size ∧ size < 2 ^ 64) {a b : Addr}
    (hne : a ≠ b) : ∃ k < size, ¬(b + BitVec.ofNat 64 k - a).toNat < size := by
  have hpos : 0 < (b - a).toNat := by
    rw [Nat.pos_iff_ne_zero]
    intro hzero
    have hsame : b - a = 0 := BitVec.eq_of_toNat_eq hzero
    exact hne (sub_eq_zero.mp hsame).symm
  by_cases hfar : (b - a).toNat < size
  · -- the first byte behind the stretch at `a`
    refine ⟨size - (b - a).toNat, by omega, ?_⟩
    have hlast : b + BitVec.ofNat 64 (size - (b - a).toNat) - a = BitVec.ofNat 64 size := by
      apply BitVec.eq_of_toNat_eq
      have hk : (BitVec.ofNat 64 (size - (b - a).toNat)).toNat = size - (b - a).toNat :=
        Nat.mod_eq_of_lt (by omega)
      rw [add_sub_right_comm, BitVec.toNat_add, hk, BitVec.toNat_ofNat]
      congr 1
      omega
    rw [hlast, BitVec.toNat_ofNat, Nat.mod_eq_of_lt hsize.2]
    exact lt_irrefl size
  · refine ⟨0, hsize.1, ?_⟩
    rwa [BitVec.add_zero]

/-- Whatever shared info is at `a`, some content of memory has another one at `b`.
Kind: L -/
theorem exists_infoBytes_ne {info : List (BitVec 8)} (hpos : 0 < info.length)
    (hlt : info.length < 2 ^ 64) {a b : Addr} (hne : a ≠ b) :
    ∃ mem, infoBytes info.length mem a = info ∧ infoBytes info.length mem b ≠ info := by
  obtain ⟨k, hk, hout⟩ := exists_byte_outside ⟨hpos, hlt⟩ hne
  -- the shared info at `a`, and everywhere else a byte that differs from its byte `k`
  let mem : Addr → BitVec 8 := fun x =>
    if (x - a).toNat < info.length then info.getD (x - a).toNat 0 else info.getD k 0 + 1
  refine ⟨mem, ?_, fun hsame => ?_⟩
  · refine List.ext_getElem? fun j => ?_
    by_cases hj : j < info.length
    · have hdist : (a + BitVec.ofNat 64 j - a).toNat = j := toNat_add_ofNat_sub a (by omega)
      rw [getElem?_infoBytes hj]
      simp only [mem, hdist, if_pos hj, List.getD_eq_getElem?_getD, List.getElem?_eq_getElem hj,
        Option.getD_some]
    · rw [List.getElem?_eq_none (by simpa [infoBytes] using hj),
        List.getElem?_eq_none (not_lt.mp hj)]
  · have hbyte := congrArg (fun l => l[k]?) hsame
    simp only [getElem?_infoBytes hk, mem, if_neg hout, List.getElem?_eq_getElem hk,
      List.getD_eq_getElem?_getD, Option.getD_some, Option.some.injEq] at hbyte
    exact absurd hbyte (by simp)

/-! ## What the hooks do to it -/

/-- The release hook recognises the buffer of `skb` in an assigned slot.
Source: `xt_TOGPU_main.c` 286–298
Kind: D -/
def Restores (drv : Globals) (skb : SkBuff) : Prop :=
  drv.nfgpuKva ≠ 0 ∧ inPool drv.nfgpuKva skb.head = true ∧
    drv.nfgpuSkbs (slotIndex drv.nfgpuKva skb.head) ≠ 0

/-- The allocation hook leaves at the `end` of what it returns the shared info `info` that the
native allocator has put at the end of its result `ret`, whatever else memory holds.
Kind: D -/
def CarriedIn (read : List (BitVec 8) → SkbSharedInfo) (drv : Globals) (info : List (BitVec 8))
    (ret : SkBuff) : Prop :=
  ∀ mem, infoBytes info.length mem ret.skbEnd = info → ∀ drv' moved,
    netdevAllocSkbTogpu drv (shinfoOf read info.length mem) (some ret) = .ok (drv', some moved) →
      infoBytes info.length mem moved.skbEnd = info

/-- The native release routine finds the shared info that was at the `end` of `skb`, whatever
memory holds.
Kind: D -/
def CarriedBack (size : ℕ) (drv : Globals) (skb : SkBuff) : Prop :=
  ∀ mem, infoBytes size mem (skbReleaseDataTogpu drv skb).2.skbEnd = infoBytes size mem skb.skbEnd

/-- Both hooks leave at the new `end` the shared info that was at the old one, for every content of
memory: the allocation hook for the native result `ret` with shared info `info`, the release hook
for `skb`.
Kind: D -/
def SharedInfoCarried (read : List (BitVec 8) → SkbSharedInfo) (drv : Globals)
    (info : List (BitVec 8)) (ret skb : SkBuff) : Prop :=
  CarriedIn read drv info ret ∧ CarriedBack info.length drv skb

section hooks

variable {read : List (BitVec 8) → SkbSharedInfo} {info : List (BitVec 8)} {drv : Globals}
  {ret skb : SkBuff}

/-- The shared info after an allocation, for every content of the pool: it is that of the native
result exactly when the hook leaves the buffer alone or finds no slot.
Source: `xt_TOGPU_main.c` 247–269
Kind: L -/
theorem carriedIn_iff (hpos : 0 < info.length) (hlt : info.length < 2 ^ 64)
    (hnext : NextInTable drv) (hout : ∀ i < nfgpuMaxSkbs, slotAddr drv.nfgpuKva i ≠ ret.head) :
    CarriedIn read drv info ret ↔
      ¬(drv.nfgpuRunning = true ∧ Movable ret (read info).nrFrags ∧ FreeSlot drv) := by
  constructor
  · rintro hall ⟨hrun, hmov, hfree⟩
    obtain ⟨i, hi⟩ := hfree.exists_findSlot hnext.1 hnext.2
    have hmoved : ret.skbEnd ≠ slotAddr drv.nfgpuKva i + (ret.skbEnd - ret.head) := by
      intro hsame
      have hhead : slotAddr drv.nfgpuKva i - ret.head = 0 := by
        calc slotAddr drv.nfgpuKva i - ret.head
            = slotAddr drv.nfgpuKva i + (ret.skbEnd - ret.head) - ret.skbEnd := by ring
          _ = 0 := by rw [← hsame, sub_self]
      exact hout i (findSlot_ok hi).1 (sub_eq_zero.mp hhead)
    obtain ⟨mem, hnative, hother⟩ := exists_infoBytes_ne hpos hlt hmoved
    have hel : eligible (shinfoOf read info.length mem) ret := by
      rw [eligible, shinfoOf, hnative]
      exact hmov
    exact hother (hall mem hnative _ _ (netdevAllocSkbTogpu_of_found hrun hel hi))
  · intro hno mem hnative drv' moved h
    rcases netdevAllocSkbTogpu_cases h with ⟨-, -, hr⟩ | ⟨hrun, hel, i, hi, -, hr⟩
    · cases hr
      exact hnative
    · refine absurd ⟨hrun, ?_, i, findSlot_pos hnext.1 hi, findSlot_ok hi⟩ hno
      rw [eligible, shinfoOf, hnative] at hel
      exact hel

/-- The shared info at a release, for every content of memory: the native routine finds it exactly
when the hook does not recognise the buffer.
Source: `xt_TOGPU_main.c` 286–303
Kind: L -/
theorem carriedBack_iff {size : ℕ} (hpos : 0 < size) (hlt : size < 2 ^ 64)
    (hentry : drv.nfgpuSkbs (slotIndex drv.nfgpuKva skb.head) ≠ skb.head) :
    CarriedBack size drv skb ↔ ¬Restores drv skb := by
  constructor
  · intro hall hres
    have hmoved : skb.skbEnd ≠ (skbReleaseDataTogpu drv skb).2.skbEnd := by
      rw [skbReleaseDataTogpu_of_assigned hres.1 hres.2.1 hres.2.2]
      intro hsame
      have hsame' : skb.skbEnd = drv.nfgpuSkbs (slotIndex drv.nfgpuKva skb.head) +
          (skb.skbEnd - skb.head) := hsame
      have hhead : drv.nfgpuSkbs (slotIndex drv.nfgpuKva skb.head) - skb.head = 0 := by
        calc drv.nfgpuSkbs (slotIndex drv.nfgpuKva skb.head) - skb.head
            = drv.nfgpuSkbs (slotIndex drv.nfgpuKva skb.head) + (skb.skbEnd - skb.head) -
                skb.skbEnd := by ring
          _ = 0 := by rw [← hsame', sub_self]
      exact hentry (sub_eq_zero.mp hhead)
    have hzeros : (List.replicate size (0 : BitVec 8)).length = size := List.length_replicate
    obtain ⟨mem, hold, hother⟩ := exists_infoBytes_ne (by rwa [hzeros]) (by rwa [hzeros]) hmoved
    rw [hzeros] at hold hother
    exact hother ((hall mem).trans hold)
  · intro hno mem
    have hsame : skbReleaseDataTogpu drv skb = (drv, skb) := by
      refine (skbReleaseDataTogpu_cases drv skb).resolve_right ?_
      rintro ⟨hkva, hin, hassigned, -⟩
      exact hno ⟨hkva, hin, hassigned⟩
    rw [hsame]

/-- **No shared info is carried back from the pool**: in a pool run, what the native release routine
finds depends on more than what was at the `end` of a swapped buffer, for every such buffer that the
hook takes to be in the pool.
Source: `xt_TOGPU_main.c` 286–303
Kind: P -/
theorem not_carried_of_swapped {kva : Addr} (hb : IsPoolBase kva) {s : System}
    (hI : SlotInv kva s) {p : ℕ} {l : LiveSkb} (hl : s.live p = some l) (hsw : l.buf.Swapped)
    (hin : inPool kva l.cur.head = true) {size : ℕ} (hpos : 0 < size) (hlt : size < 2 ^ 64) :
    ¬CarriedBack size s.drv l.cur := by
  have hok := hI.live_ok p l hl
  obtain ⟨i, hi⟩ := hok.placed_of_swapped hsw
  have hentry : s.drv.nfgpuSkbs (slotIndex s.drv.nfgpuKva l.cur.head) = l.buf.native.head := by
    rw [hI.base, hi.slotIndex_eq hb, hi.entry]
  have hres : Restores s.drv l.cur := by
    refine ⟨hI.base ▸ hb.ne_zero, hI.base ▸ hin, ?_⟩
    rw [hentry]
    exact hok.native.1
  have hmoved : s.drv.nfgpuSkbs (slotIndex s.drv.nfgpuKva l.cur.head) ≠ l.cur.head := by
    rw [hentry]
    intro hsame
    exact hok.native.2 (hsame ▸ hi.inRange hb)
  exact fun hcar => (carriedBack_iff hpos hlt hmoved).mp hcar hres

end hooks

/-- **The shared info is carried across both swaps, for every content of memory, iff neither hook
moves the buffer**: the driver is not running, or the native result has fragments or is too large,
or no slot is free; and the release hook does not recognise the buffer. For every driver state,
every shared info of the native result and every `sk_buff`.
Source: `xt_TOGPU_main.c` 245–274, 288–313
Kind: P
Fidelity: exact
Hyps: (a) the size of a `skb_shared_info`; (b) `NextInTable drv`; (c) the native buffer is not at a
slot; (d) the entry of the slot of `skb` is not the slot itself -/
theorem sharedInfo_carried_iff (read : List (BitVec 8) → SkbSharedInfo) {info : List (BitVec 8)}
    (hpos : 0 < info.length) (hlt : info.length < 2 ^ 64) {drv : Globals}
    (hnext : NextInTable drv) {ret skb : SkBuff}
    (hout : ∀ i < nfgpuMaxSkbs, slotAddr drv.nfgpuKva i ≠ ret.head)
    (hentry : drv.nfgpuSkbs (slotIndex drv.nfgpuKva skb.head) ≠ skb.head) :
    SharedInfoCarried read drv info ret skb ↔
      ¬(drv.nfgpuRunning = true ∧ Movable ret (read info).nrFrags ∧ FreeSlot drv) ∧
        ¬Restores drv skb :=
  and_congr (carriedIn_iff hpos hlt hnext hout) (carriedBack_iff hpos hlt hentry)

/-- A kernel whose shared info has 320 bytes, with the fragment count first and the reference count
in byte 32.
Kind: D -/
def readInfo (bytes : List (BitVec 8)) : SkbSharedInfo :=
  ⟨(bytes.getD 0 0).toNat, (bytes.getD 32 0).toNat⟩

/-- The shared info of a new buffer: the reference count is 1.
Kind: D -/
def newInfo : List (BitVec 8) := (List.replicate 320 0).set 32 1

/-- Its size.
Kind: L -/
theorem length_newInfo : newInfo.length = 320 := by
  rw [newInfo, List.length_set, List.length_replicate]

/-- A pool at the start of the `vmalloc` area after a `STOP`, with a buffer of 1728 bytes that has
outlived it in slot 1.
Kind: D -/
def stoppedPool : Globals :=
  { nfgpuInternalInit with
    nfgpuKva := 0xffffc90000000000
    nfgpuSkbs := Function.update (fun _ => 0) 1 (nativeOfSize 1728).head }

/-- The native buffer of these examples lies outside the pool.
Kind: L -/
theorem slotAddr_ne_native (size : BitVec 64) :
    ∀ i < nfgpuMaxSkbs, slotAddr 0xffffc90000000000 i ≠ (nativeOfSize size).head := by
  intro i hi heq
  have hbase : IsPoolBase 0xffffc90000000000 := ⟨by decide, by decide, by decide⟩
  have hin := inRange_slotAddr hbase hi
  rw [heq] at hin
  exact absurd hin (by show ¬InRange _ 0xffff880012340000; decide)

/-- After `STOP` a buffer of 1728 bytes keeps its shared info, and so does one outside the pool when
it is released.
Kind: C -/
theorem sharedInfo_carried_stopped :
    SharedInfoCarried readInfo stoppedPool newInfo (nativeOfSize 1728) (nativeOfSize 1728) := by
  have hpos : 0 < newInfo.length := by rw [length_newInfo]; decide
  have hlt : newInfo.length < 2 ^ 64 := by rw [length_newInfo]; decide
  have hnext : NextInTable stoppedPool := ⟨by decide, by decide⟩
  have hentry : stoppedPool.nfgpuSkbs (slotIndex stoppedPool.nfgpuKva (nativeOfSize 1728).head) ≠
      (nativeOfSize 1728).head := by
    decide
  refine (sharedInfo_carried_iff readInfo hpos hlt hnext (slotAddr_ne_native 1728) hentry).mpr ?_
  constructor
  · rintro ⟨hrun, -⟩
    exact absurd hrun (by decide)
  · rintro ⟨-, hin, -⟩
    exact absurd hin (by decide)

/-- A memory of zeros, but for the reference count of 1 that the native allocator has written to a
buffer of 1728 bytes, and `frags` fragments in the buffer's slot 1 of a pool at the start of the
`vmalloc` area.
Kind: D -/
def infoMem (frags : BitVec 8) (a : Addr) : BitVec 8 :=
  if a = (nativeOfSize 1728).skbEnd + 32 then 1
  else if a = slotAddr 0xffffc90000000000 1 + 1728 then frags else 0

/-- The buffer is moved into zeroed memory and loses its reference count; a fragment added to it
there is not seen by the native release routine.
Kind: C -/
theorem not_sharedInfo_carried :
    ¬SharedInfoCarried readInfo (System.runningPool 0xffffc90000000000 8192 fun _ => ⟨0, 0⟩).drv
        newInfo (nativeOfSize 1728) (nativeOfSize 1728) ∧
      ¬SharedInfoCarried readInfo stoppedPool newInfo (nativeOfSize 1728)
        (moveTo (slotAddr 0xffffc90000000000 1) (nativeOfSize 1728)) := by
  constructor
  · rintro ⟨halloc, -⟩
    have hnative : infoBytes newInfo.length (infoMem 0) (nativeOfSize 1728).skbEnd = newInfo := by
      decide +kernel
    have hel : eligible (shinfoOf readInfo newInfo.length (infoMem 0)) (nativeOfSize 1728) := by
      rw [eligible, shinfoOf, hnative]
      exact ⟨by decide, by decide⟩
    have hfind : findSlot (fun _ => 0) nfgpuMaxSkbs.toNat 1 = .ok 1 := by
      rw [nfgpuMaxSkbs_toNat]
      rfl
    have hsame := halloc (infoMem 0) hnative _ _ (netdevAllocSkbTogpu_of_found rfl hel hfind)
    have hbyte := congrArg (fun l => l[32]?) hsame
    simp only [getElem?_infoBytes (by rw [length_newInfo]; decide : 32 < newInfo.length)] at hbyte
    exact absurd hbyte (by decide)
  · rintro ⟨-, hrel⟩
    have hsame := hrel (infoMem 1)
    rw [skbReleaseDataTogpu_of_assigned (by decide) (by decide) (by decide)] at hsame
    have hbyte := congrArg (fun l => l[0]?) hsame
    simp only [getElem?_infoBytes (by rw [length_newInfo]; decide : 0 < newInfo.length)] at hbyte
    exact absurd hbyte (by decide)

end Togpu.Driver
