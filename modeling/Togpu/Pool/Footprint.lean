import Togpu.Pool.Slots

/-!
# What memory a moved buffer uses

The kernel keeps a `struct skb_shared_info` of some fixed size `S` at the end of every buffer, so
a moved buffer uses the bytes from its head to `S` past its end. The hook's size test bounds the
distance from head to end only.

* `UsesByte`, `SlotByte` — the bytes in use and the bytes of a slot, in unbounded arithmetic.
* `FootprintsOk` — in state `s`, every live moved buffer stays inside its own slot; hence no two of
  them share a byte, none touches the mailbox slot, none leaves the pool.
* **In every reachable state, this holds iff every live moved buffer left room for its shared
  info** (`footprintsOk_iff`): its native size plus `S` is at most a slot. The hook accepts sizes
  up to a whole slot, so it does not make sure of that.
-/

namespace Togpu.Driver

open Togpu.Lib

/-- Byte `x` is used by the buffer of `skb` with a shared info of `S` bytes at its end.
Kind: D -/
def UsesByte (S : ℕ) (skb : SkBuff) (x : ℕ) : Prop :=
  skb.head.toNat ≤ x ∧ x < skb.head.toNat + (skb.skbEnd - skb.head).toNat + S

/-- Byte `x` belongs to slot `i` of the pool at `kva`.
Kind: D -/
def SlotByte (kva : Addr) (i : BitVec 64) (x : ℕ) : Prop :=
  kva.toNat + i.toNat * nfgpuSkbSize.toNat ≤ x ∧
    x < kva.toNat + (i.toNat + 1) * nfgpuSkbSize.toNat

/-- Every live swapped `sk_buff` keeps to its own slot.
Kind: D -/
structure FootprintsOk (kva : Addr) (S : ℕ) (s : System) : Prop where
  /-- All bytes in use lie in the buffer's own slot. -/
  inSlot : ∀ p l, s.live p = some l → l.buf.Swapped →
    ∀ x, UsesByte S l.cur x → SlotByte kva (slotIndex kva l.cur.head) x
  /-- No two live swapped buffers share a byte. -/
  disjoint : ∀ p q l m, p ≠ q → s.live p = some l → s.live q = some m →
    l.buf.Swapped → m.buf.Swapped → ∀ x, UsesByte S l.cur x → ¬UsesByte S m.cur x
  /-- None uses a byte of the mailbox slot. -/
  mailbox : ∀ p l, s.live p = some l → l.buf.Swapped →
    ∀ x, UsesByte S l.cur x → ¬SlotByte kva 0 x
  /-- None uses a byte past the pool. -/
  bounded : ∀ p l, s.live p = some l → l.buf.Swapped →
    ∀ x, UsesByte S l.cur x → x < kva.toNat + nfgpuMaxMemory.toNat

/-- The buffer leaves room for its shared info in a slot.
Kind: D -/
def Roomy (S : ℕ) (native : SkBuff) : Prop :=
  (native.skbEnd - native.head).toNat + S ≤ nfgpuSkbSize.toNat

section footprint

variable {kva : Addr} {skbs : BitVec 64 → Addr} {l : LiveSkb} {i : BitVec 64} {S : ℕ}

/-- The bytes a placed buffer uses, counted from the start of its slot.
Kind: L -/
theorem Placed.usesByte_iff (hb : IsPoolBase kva) (h : Placed kva skbs l i) (x : ℕ) :
    UsesByte S l.cur x ↔ kva.toNat + i.toNat * 4096 ≤ x ∧
      x < kva.toNat + i.toNat * 4096 + (l.buf.native.skbEnd - l.buf.native.head).toNat + S := by
  have hsize : l.cur.skbEnd - l.cur.head = l.buf.native.skbEnd - l.buf.native.head := by
    rw [h.skbEnd, h.head]
    ring
  rw [UsesByte, hsize, h.head, slotAddr_toNat hb h.lt]

/-- A placed buffer keeps to its slot iff it is roomy. The last byte it uses decides.
Kind: L -/
theorem Placed.inSlot_iff (hb : IsPoolBase kva) (hS : 0 < S) (h : Placed kva skbs l i) :
    (∀ x, UsesByte S l.cur x → SlotByte kva (slotIndex kva l.cur.head) x) ↔
      Roomy S l.buf.native := by
  rw [h.slotIndex_eq hb]
  simp only [SlotByte, Roomy, nfgpuSkbSize_toNat, h.usesByte_iff hb]
  constructor
  · intro hall
    have hlast := hall
      (kva.toNat + i.toNat * 4096 + (l.buf.native.skbEnd - l.buf.native.head).toNat + S - 1)
      ⟨by omega, by omega⟩
    omega
  · rintro hroom x ⟨hlo, hhi⟩
    omega

end footprint

/-- **Footprints.** In every reachable state of a pool, at any base, the live swapped buffers keep
to their slots iff each of them left room for the shared info: its native size plus `S` is at most
the size of a slot.
Source: `xt_TOGPU_main.c` 245–273; `xt_TOGPU.h` 19–24
Kind: P
Fidelity: exact
Hyps: (a) `IsPoolBase kva`; (b) `0 < S`; (c) the state is reached by pool events -/
theorem footprintsOk_iff {kva : Addr} (hb : IsPoolBase kva) {S : ℕ} (hS : 0 < S) (npages : ℕ)
    (shinfo : Addr → SkbSharedInfo) {es : List Event} {s : System}
    (hes : Along step PoolEvent (System.runningPool kva npages shinfo) es)
    (hrun : exec step (System.runningPool kva npages shinfo) es = some s) :
    FootprintsOk kva S s ↔
      ∀ p l, s.live p = some l → l.buf.Swapped → Roomy S l.buf.native := by
  have hI : SlotInv kva s := exec_invariant (fun _ _ _ => slotInv_step hb)
    (slotInv_runningPool kva npages shinfo) hes hrun
  constructor
  · intro hok p l hl hs
    obtain ⟨i, hi⟩ := (hI.live_ok p l hl).placed_of_swapped hs
    exact (hi.inSlot_iff hb hS).mp (hok.inSlot p l hl hs)
  · intro hroom
    have hin : ∀ p l, s.live p = some l → l.buf.Swapped →
        ∀ x, UsesByte S l.cur x → SlotByte kva (slotIndex kva l.cur.head) x := by
      intro p l hl hs
      obtain ⟨i, hi⟩ := (hI.live_ok p l hl).placed_of_swapped hs
      exact (hi.inSlot_iff hb hS).mpr (hroom p l hl hs)
    refine ⟨hin, ?_, ?_, ?_⟩
    · intro p q l m hpq hl hm hsl hsm x hxl hxm
      have hne := hI.distinct p q l m hpq hl hm hsl hsm
      have h1 := hin p l hl hsl x hxl
      have h2 := hin q m hm hsm x hxm
      simp only [SlotByte, nfgpuSkbSize_toNat] at h1 h2
      exact hne (BitVec.eq_of_toNat_eq (by omega))
    · intro p l hl hs x hx hx0
      obtain ⟨i, hi⟩ := (hI.live_ok p l hl).placed_of_swapped hs
      have h1 := hin p l hl hs x hx
      rw [hi.slotIndex_eq hb] at h1
      have hpos := hi.pos
      rw [BitVec.le_def] at hpos
      have hone : (1 : BitVec 64).toNat = 1 := rfl
      have hzero : (0 : BitVec 64).toNat = 0 := rfl
      simp only [SlotByte, nfgpuSkbSize_toNat] at h1 hx0
      omega
    · intro p l hl hs x hx
      obtain ⟨i, hi⟩ := (hI.live_ok p l hl).placed_of_swapped hs
      have h1 := hin p l hl hs x hx
      rw [hi.slotIndex_eq hb] at h1
      have hlt := hi.lt
      rw [BitVec.lt_def, nfgpuMaxSkbs_toNat] at hlt
      simp only [SlotByte, nfgpuSkbSize_toNat] at h1
      rw [nfgpuMaxMemory_toNat]
      omega

/-- One buffer of 1728 bytes is moved; with a shared info of 320 bytes it keeps to its slot.
Kind: C -/
theorem footprintsOk_small_buffer :
    ∃ s, exec step (System.runningPool 0xffffc90000000000 8192 fun _ => ⟨0, 0⟩)
        [.alloc 0 (some (nativeOfSize 1728)) 0] = some s ∧
      FootprintsOk 0xffffc90000000000 320 s := by
  have hrun := exec_cons_eq_some.mpr ⟨_, step_alloc_first 0xffffc90000000000 8192
    (fun _ => ⟨0, 0⟩) 0 (show (nativeOfSize 1728).skbEnd - _ ≤ _ by decide), exec_nil _⟩
  refine ⟨_, hrun, (footprintsOk_iff ⟨by decide, by decide, by decide⟩ (by decide) 8192 _ ?_
    hrun).mpr ?_⟩
  · exact ⟨⟨by decide, by decide⟩, fun _ _ => trivial⟩
  · intro p l hl _
    rcases update_some_eq_some.mp hl with ⟨-, rfl⟩ | ⟨-, hl⟩
    · show (1728 : ℕ) + 320 ≤ nfgpuSkbSize.toNat
      decide
    · cases hl

/-- A buffer of 4096 bytes, which the hook accepts, is moved to slot 1: the first byte of its
shared info is the first byte of slot 2.
Kind: C -/
theorem not_footprintsOk_full_buffer :
    ∃ s, exec step (System.runningPool 0xffffc90000000000 8192 fun _ => ⟨0, 0⟩)
        [.alloc 0 (some (nativeOfSize 4096)) 0] = some s ∧
      Along step PoolEvent (System.runningPool 0xffffc90000000000 8192 fun _ => ⟨0, 0⟩)
        [.alloc 0 (some (nativeOfSize 4096)) 0] ∧
      ¬FootprintsOk 0xffffc90000000000 320 s := by
  refine ⟨_, exec_cons_eq_some.mpr ⟨_, step_alloc_first 0xffffc90000000000 8192
    (fun _ => ⟨0, 0⟩) 0 (show (nativeOfSize 4096).skbEnd - _ ≤ _ by decide), exec_nil _⟩,
    ⟨⟨by decide, by decide⟩, fun _ _ => trivial⟩, fun hok => ?_⟩
  have hbyte := hok.inSlot 0 _ (System.adopt_live_self ..) (by decide) 0xffffc90000002000
    (by unfold UsesByte; decide)
  exact absurd hbyte (by unfold SlotByte; decide)

end Togpu.Driver
