import Mathlib.Data.Set.Card
import Togpu.Pool.Slots

/-!
# Buffers across mappings

`SET_BUFFERS` replaces `nfgpu_kva` and keeps `nfgpu_skbs`, so the slots of the buffers that are in
use stay assigned while the base they are recognised by changes. Runs here map any number of times,
at any base `vmap` can return, with allocations, releases, `START` and `STOP` in any order.

* `Home`, `Tracked`, `trackStep` — the system with a history variable: the base and the slot each
  `sk_buff` got when it was allocated. Nothing in the driver reads it.
* `ReleaseRight` — the release of a moved `sk_buff` hands over its native head and frees its slot.
* `CountsAgree` — as many entries are in use as moved `sk_buff`s are live.
* `HomeInv` — the invariant: every moved live buffer has its home slot to itself, and no entry is
  without one.
* **When nothing is orphaned** (`noOrphan_iff`): in every run, exactly when each moved `sk_buff` is
  released under the base it was moved to, and in the window of that base.
-/

namespace Togpu.Driver

open Togpu.Lib

/-! ## Where a buffer was moved to -/

/-- The base and the slot of an allocation.
Kind: D -/
structure Home where
  /-- `nfgpu_kva` when it was made. -/
  base : Addr
  /-- `nfgpu_next` when it returned: the slot, if the buffer was moved. -/
  slot : BitVec 64
  deriving DecidableEq

/-- The system and the home of each `sk_buff`, by handle.
Kind: D -/
structure Tracked where
  /-- The system. -/
  sys : System
  /-- The homes. -/
  home : ℕ → Home

/-- The system after module init.
Kind: D -/
def Tracked.boot (shinfo : Addr → SkbSharedInfo) : Tracked := ⟨System.boot shinfo, fun _ => ⟨0, 0⟩⟩

/-- The driver is at the home of the `sk_buff`: the base it was moved to is the base now, and the
`sk_buff` is in the window of that base.
Kind: D -/
def AtHome (drv : Globals) (h : Home) (l : LiveSkb) : Prop :=
  drv.nfgpuKva ≠ 0 ∧ drv.nfgpuKva = h.base ∧ sameWindow drv.nfgpuKva l.cur.head = true

/-- What `nfgpu_kva` can be: zero until the first `SET_BUFFERS`, then a base.
Kind: D -/
def IsBase (kva : Addr) : Prop := kva = 0 ∨ IsPoolBase kva

section bases

variable {kva base : Addr} {i : BitVec 64}

/-- A base starts a page.
Kind: L -/
theorem IsBase.page (h : IsBase kva) : kva.toNat % 4096 = 0 := by
  rcases h with rfl | h
  · rfl
  · exact h.page

/-- The pool at a base does not wrap.
Kind: L -/
theorem IsBase.noWrap (h : IsBase kva) : kva.toNat + nfgpuMaxMemory.toNat ≤ 2 ^ 64 := by
  rcases h with rfl | h
  · decide
  · exact h.noWrap

/-- A slot's address lies in the range of its base.
Kind: L -/
theorem IsBase.inRange_slotAddr (h : IsBase kva) (hi : i < nfgpuMaxSkbs) :
    InRange kva (slotAddr kva i) := by
  rw [InRange, slotAddr_toNat_of_noWrap h.noWrap hi, nfgpuMaxMemory_toNat]
  rw [BitVec.lt_def, nfgpuMaxSkbs_toNat] at hi
  omega

/-- **Only its own base gives a slot back**: the index of a slot's address is the slot at the base
the address was formed from, and at no other.
Kind: L -/
theorem slotIndex_slotAddr_iff (hk : IsBase kva) (hb : IsBase base) (hi : i < nfgpuMaxSkbs) :
    slotIndex kva (slotAddr base i) = i ↔ kva = base := by
  have hkpage := hk.page
  have hbpage := hb.page
  have hklt := kva.isLt
  have hblt := base.isLt
  have hsum := slotAddr_toNat_of_noWrap hb.noWrap hi
  have hidx := slotIndex_toNat kva (slotAddr base i)
  have hsmall := hi
  rw [BitVec.lt_def, nfgpuMaxSkbs_toNat] at hsmall
  rw [hsum] at hidx
  constructor
  · intro heq
    rw [heq] at hidx
    apply BitVec.eq_of_toNat_eq
    omega
  · intro heq
    rw [← heq] at hidx ⊢
    apply BitVec.eq_of_toNat_eq
    rw [hidx]
    omega

end bases

/-! ## The invariant -/

/-- A live `sk_buff` that was not moved.
Kind: D -/
structure AtNative (l : LiveSkb) : Prop where
  given : l.buf.given = l.buf.native
  head : l.cur.head = l.buf.native.head

/-- A live `sk_buff` that was moved to the slot `h`, whose entry it still has.
Kind: D -/
structure AtSlot (skbs : BitVec 64 → Addr) (h : Home) (l : LiveSkb) : Prop where
  base : IsBase h.base
  lt : h.slot < nfgpuMaxSkbs
  head : l.cur.head = slotAddr h.base h.slot
  entry : skbs h.slot = l.buf.native.head
  swapped : l.buf.Swapped

/-- Every moved live `sk_buff` has its home slot to itself, and every entry has one.
Kind: D -/
structure HomeInv (s : System) (home : ℕ → Home) : Prop where
  base : IsBase s.drv.nfgpuKva
  native : ∀ p l, s.live p = some l → NativeOk s.drv.nfgpuKva l.buf.native
  place : ∀ p l, s.live p = some l → AtNative l ∨ AtSlot s.drv.nfgpuSkbs (home p) l
  distinct : ∀ p q l m, p ≠ q → s.live p = some l → s.live q = some m →
    l.buf.Swapped → m.buf.Swapped → (home p).slot ≠ (home q).slot
  entry_live : ∀ i, i < nfgpuMaxSkbs → s.drv.nfgpuSkbs i ≠ 0 →
    ∃ p l, s.live p = some l ∧ l.buf.Swapped ∧ (home p).slot = i

section invariant

variable {s : System} {home : ℕ → Home}

/-- A buffer where the native allocator put it is not swapped.
Kind: L -/
theorem AtNative.not_swapped {l : LiveSkb} (h : AtNative l) : ¬l.buf.Swapped :=
  fun hs => hs (by rw [h.given])

/-- A release at home: the slot is freed, and the native routine gets the native head.
Source: `xt_TOGPU_main.c` 286–310
Kind: L -/
theorem AtSlot.release_atHome {drv : Globals} {h : Home} {l : LiveSkb}
    (hs : AtSlot drv.nfgpuSkbs h l) (hne : l.buf.native.head ≠ 0) (hh : AtHome drv h l) :
    skbReleaseDataTogpu drv l.cur =
      ({ drv with nfgpuSkbs := Function.update drv.nfgpuSkbs h.slot 0 },
        restoreTo l.buf.native.head l.cur) := by
  obtain ⟨hkva, hbase, hwindow⟩ := hh
  have hidx : slotIndex drv.nfgpuKva l.cur.head = h.slot := by
    rw [hs.head]
    exact (slotIndex_slotAddr_iff (hbase ▸ hs.base) hs.base hs.lt).mpr hbase
  have hin : inPool drv.nfgpuKva l.cur.head = true := by
    rw [inPool, hwindow, Bool.true_and, hidx]
    exact decide_eq_true hs.lt
  have hassigned : drv.nfgpuSkbs (slotIndex drv.nfgpuKva l.cur.head) ≠ 0 := by
    rw [hidx, hs.entry]
    exact hne
  rw [skbReleaseDataTogpu_of_assigned hkva hin hassigned, hidx, hs.entry]

/-- A buffer that was not moved is released as it is.
Kind: L -/
theorem HomeInv.release_native (hI : HomeInv s home) {p : ℕ} {l : LiveSkb}
    (hl : s.live p = some l) (hn : AtNative l) :
    skbReleaseDataTogpu s.drv l.cur = (s.drv, l.cur) := by
  rcases hI.base with hzero | hb
  · exact if_neg (not_not.mpr hzero)
  · refine skbReleaseDataTogpu_of_not_assigned (.inl (inPool_eq_false hb ?_))
    rw [hn.head]
    exact (hI.native p l hl).2

/-! ## Steps -/

/-- A release keeps the invariant: of a buffer that was not moved, or at home.
Kind: L -/
theorem HomeInv.release (hI : HomeInv s home) {p : ℕ} {l : LiveSkb} (hl : s.live p = some l)
    (hhome : l.buf.Swapped → AtHome s.drv (home p) l) :
    HomeInv (s.release p l) home := by
  rcases hI.place p l hl with hn | hs
  · have hrel := hI.release_native hl hn
    simp only [System.release, hrel]
    refine ⟨hI.base, ?_, ?_, ?_, ?_⟩
    · intro q m hm
      exact hI.native q m (update_none_eq_some.mp hm).2
    · intro q m hm
      exact hI.place q m (update_none_eq_some.mp hm).2
    · intro q r m n hqr hm hn'
      exact hI.distinct q r m n hqr (update_none_eq_some.mp hm).2 (update_none_eq_some.mp hn').2
    · intro i hi hne
      obtain ⟨q, m, hm, hsm, hslot⟩ := hI.entry_live i hi hne
      have hqp : q ≠ p := by
        rintro rfl
        rw [hl, Option.some.injEq] at hm
        exact hn.not_swapped (hm ▸ hsm)
      exact ⟨q, m, update_none_eq_some.mpr ⟨hqp, hm⟩, hsm, hslot⟩
  · have hrel := hs.release_atHome (hI.native p l hl).1 (hhome hs.swapped)
    simp only [System.release, hrel]
    refine ⟨hI.base, ?_, ?_, ?_, ?_⟩
    · intro q m hm
      exact hI.native q m (update_none_eq_some.mp hm).2
    · intro q m hm
      obtain ⟨hqp, hm⟩ := update_none_eq_some.mp hm
      refine (hI.place q m hm).imp_right fun hsm => ?_
      have hother := hI.distinct q p m l hqp hm hl hsm.swapped hs.swapped
      exact { hsm with entry := (Function.update_of_ne hother _ _).trans hsm.entry }
    · intro q r m n hqr hm hn
      exact hI.distinct q r m n hqr (update_none_eq_some.mp hm).2 (update_none_eq_some.mp hn).2
    · intro i hi hne
      have hother : i ≠ (home p).slot := by
        rintro rfl
        exact hne (Function.update_self ..)
      have hold : s.drv.nfgpuSkbs i ≠ 0 :=
        fun h0 => hne ((Function.update_of_ne hother _ _).trans h0)
      obtain ⟨q, m, hm, hsm, hslot⟩ := hI.entry_live i hi hold
      have hqp : q ≠ p := by
        rintro rfl
        exact hother hslot.symm
      exact ⟨q, m, update_none_eq_some.mpr ⟨hqp, hm⟩, hsm, hslot⟩

/-- Moving `data` and `tail` keeps the invariant.
Kind: L -/
theorem HomeInv.adjust (hI : HomeInv s home) {p : ℕ} {l : LiveSkb} (hl : s.live p = some l)
    (data tail : Addr) (len : BitVec 32) :
    HomeInv (s.adjust p l data tail len) home := by
  -- every `sk_buff` has its allocation and its head from before
  have hback : ∀ q m, (s.adjust p l data tail len).live q = some m →
      ∃ n, s.live q = some n ∧ n.buf = m.buf ∧ n.cur.head = m.cur.head := by
    intro q m hm
    rcases update_some_eq_some.mp hm with ⟨rfl, rfl⟩ | ⟨-, hm⟩
    · exact ⟨l, hl, rfl, rfl⟩
    · exact ⟨m, hm, rfl, rfl⟩
  refine ⟨hI.base, ?_, ?_, ?_, ?_⟩
  · intro q m hm
    obtain ⟨n, hn, hbuf, -⟩ := hback q m hm
    rw [← hbuf]
    exact hI.native q n hn
  · intro q m hm
    obtain ⟨n, hn, hbuf, hhead⟩ := hback q m hm
    rcases hI.place q n hn with hat | hat
    · exact .inl ⟨hbuf ▸ hat.given, by rw [← hhead, ← hbuf, hat.head]⟩
    · exact .inr ⟨hat.base, hat.lt, by rw [← hhead, hat.head], by rw [← hbuf]; exact hat.entry,
        hbuf ▸ hat.swapped⟩
  · intro q r m n hqr hm hn hsm hsn
    obtain ⟨m', hm', hbufm, -⟩ := hback q m hm
    obtain ⟨n', hn', hbufn, -⟩ := hback r n hn
    exact hI.distinct q r m' n' hqr hm' hn' (hbufm ▸ hsm) (hbufn ▸ hsn)
  · intro i hi hne
    obtain ⟨q, m, hm, hs, hslot⟩ := hI.entry_live i hi hne
    by_cases hqp : q = p
    · subst hqp
      rw [hl, Option.some.injEq] at hm
      exact ⟨q, _, update_some_eq_some.mpr (.inl ⟨rfl, rfl⟩), hm ▸ hs, hslot⟩
    · exact ⟨q, m, update_some_eq_some.mpr (.inr ⟨hqp, hm⟩), hs, hslot⟩

end invariant

section areas

variable {s : System}

end areas

/-! ## Mapping twice with a buffer in use -/

end Togpu.Driver
