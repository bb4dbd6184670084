import Togpu.Lib.Table
import Togpu.Driver.System
import Togpu.Pool.Membership

/-!
# The slot table over whole runs

A running pool at a fixed base, any number of allocations and releases, the stack moving `data`
and `tail` in between.

* `Placed`, `Kept` — where a live `sk_buff` is: in the slot whose entry holds its native head, or
  where the native allocator put it.
* `SlotInv` — the part of the invariant that holds at every base `vmap` can return: a live buffer
  that was moved has a slot of its own. It is carried through every step (`slotInv_step`).
* `PoolInv` — what an aligned base adds: no entry outlives its buffer, and the native release
  routine gets every buffer back where the native allocator had put it.
* **The pool invariant and round trip** (`slotPoolInvariant_of_run`), with progress: as long as a
  slot is free when one is needed, no call hangs.
-/

namespace Togpu.Driver

open Togpu.Lib

/-! ## Runs of a pool -/

/-- What the kernel promises of a native result: a buffer, outside the pool.
Kind: D -/
def NativeOk (kva : Addr) (ret : SkBuff) : Prop := ret.head ≠ 0 ∧ ¬InRange kva ret.head

/-- An `sk_buff` the hook would move.
Source: `xt_TOGPU_main.c` 251
Kind: D -/
def Movable (ret : SkBuff) (nrFrags : ℕ) : Prop :=
  nrFrags = 0 ∧ ret.skbEnd - ret.head ≤ nfgpuSkbSize

/-- The events of a pool at a fixed base: allocations that return a buffer, and clones of buffers
that are not in the pool.
Kind: D -/
def PoolEvent (s : System) : Event → Prop
  | .alloc _ (some ret) _ => NativeOk s.drv.nfgpuKva ret
  | .alloc _ none _ => False
  | .adjust _ _ _ _ => True
  | .clone p _ => ∀ l, s.live p = some l → ¬InRange s.drv.nfgpuKva l.cur.head
  | .release _ => True
  | .ioctl _ _ => False

/-! ## Where a live buffer is -/

/-- A live `sk_buff` with the pointers the native allocator gave it.
Kind: D -/
structure Kept (l : LiveSkb) : Prop where
  not_movable : ¬Movable l.buf.native l.buf.nrFrags
  given : l.buf.given = l.buf.native
  head : l.cur.head = l.buf.native.head
  skbEnd : l.cur.skbEnd = l.buf.native.skbEnd

/-- A live `sk_buff` in slot `i` of the table `skbs`.
Kind: D -/
structure Placed (kva : Addr) (skbs : BitVec 64 → Addr) (l : LiveSkb) (i : BitVec 64) : Prop where
  movable : Movable l.buf.native l.buf.nrFrags
  pos : 1 ≤ i
  lt : i < nfgpuMaxSkbs
  given : l.buf.given = moveTo (slotAddr kva i) l.buf.native
  head : l.cur.head = slotAddr kva i
  skbEnd : l.cur.skbEnd = slotAddr kva i + (l.buf.native.skbEnd - l.buf.native.head)
  entry : skbs i = l.buf.native.head

/-- A live `sk_buff` is where it should be.
Kind: D -/
structure LiveOk (kva : Addr) (skbs : BitVec 64 → Addr) (l : LiveSkb) : Prop where
  native : NativeOk kva l.buf.native
  place : Kept l ∨ ∃ i, Placed kva skbs l i

section placement

variable {kva : Addr} {skbs : BitVec 64 → Addr} {l : LiveSkb} {i : BitVec 64}

/-- A buffer that was not moved is not swapped.
Kind: L -/
theorem Kept.not_swapped (h : Kept l) : ¬l.buf.Swapped := fun hs => hs (by rw [h.given])

/-- What the hook returns for a movable buffer is placed in the slot it assigns.
Source: `xt_TOGPU_main.c` 262–269
Kind: L -/
theorem placed_moveTo {ret : SkBuff} {nrFrags id : ℕ} (hmov : Movable ret nrFrags) (hpos : 1 ≤ i)
    (hlt : i < nfgpuMaxSkbs) :
    Placed kva (Function.update skbs i ret.head)
      ⟨id, ⟨ret, nrFrags, moveTo (slotAddr kva i) ret⟩, moveTo (slotAddr kva i) ret⟩ i where
  movable := hmov
  pos := hpos
  lt := hlt
  given := rfl
  head := rfl
  skbEnd := rfl
  entry := Function.update_self ..

/-- The slot of a placed buffer is the index of its head.
Kind: L -/
theorem Placed.slotIndex_eq (hb : IsPoolBase kva) (h : Placed kva skbs l i) :
    slotIndex kva l.cur.head = i := by
  rw [h.head, slotIndex_slotAddr hb h.lt]

/-- A placed buffer's head lies in the pool.
Kind: L -/
theorem Placed.inRange (hb : IsPoolBase kva) (h : Placed kva skbs l i) :
    InRange kva l.cur.head := by
  rw [h.head]
  exact inRange_slotAddr hb h.lt

/-- A placed buffer is swapped: its native head lies outside the pool.
Kind: L -/
theorem Placed.swapped (hb : IsPoolBase kva) (h : Placed kva skbs l i)
    (hn : NativeOk kva l.buf.native) : l.buf.Swapped := by
  intro heq
  rw [h.given] at heq
  exact hn.2 (heq ▸ inRange_slotAddr hb h.lt)

/-- The slot of a swapped live buffer.
Kind: L -/
theorem LiveOk.placed_of_swapped (h : LiveOk kva skbs l) (hs : l.buf.Swapped) :
    ∃ i, Placed kva skbs l i :=
  h.place.resolve_left fun hk => hk.not_swapped hs

/-- A kept buffer's head lies outside the pool.
Kind: L -/
theorem LiveOk.not_inRange_of_kept (h : LiveOk kva skbs l) (hk : Kept l) :
    ¬InRange kva l.cur.head := by
  rw [hk.head]
  exact h.native.2

/-- Placement only looks at the buffer's own entry.
Kind: L -/
theorem Placed.congr {skbs' : BitVec 64 → Addr} (h : Placed kva skbs l i)
    (heq : skbs' i = skbs i) : Placed kva skbs' l i :=
  { h with entry := heq.trans h.entry }

/-- Assigning a free slot moves no live buffer.
Kind: L -/
theorem LiveOk.assign (h : LiveOk kva skbs l) {j : BitVec 64} (hfree : skbs j = 0) (head : Addr) :
    LiveOk kva (Function.update skbs j head) l where
  native := h.native
  place := h.place.imp_right fun ⟨i, hi⟩ => by
    have hne : i ≠ j := by
      rintro rfl
      exact h.native.1 (hi.entry.symm.trans hfree)
    exact ⟨i, hi.congr (Function.update_of_ne hne _ _)⟩

/-- Freeing a slot moves no live buffer that is elsewhere.
Kind: L -/
theorem LiveOk.free (hb : IsPoolBase kva) (h : LiveOk kva skbs l) {j : BitVec 64}
    (hne : l.buf.Swapped → slotIndex kva l.cur.head ≠ j) :
    LiveOk kva (Function.update skbs j 0) l where
  native := h.native
  place := h.place.imp_right fun ⟨i, hi⟩ => by
    have hij : i ≠ j := by
      rw [← hi.slotIndex_eq hb]
      exact hne (hi.swapped hb h.native)
    exact ⟨i, hi.congr (Function.update_of_ne hij _ _)⟩

/-- Moving `data` and `tail` leaves a placed buffer in its slot.
Kind: L -/
theorem Placed.adjust (h : Placed kva skbs l i) (data tail : Addr) (len : BitVec 32) :
    Placed kva skbs { l with cur := { l.cur with data := data, tail := tail, len := len } } i :=
  { h with }

/-- Moving `data` and `tail` does not change where a buffer is.
Kind: L -/
theorem LiveOk.adjust (h : LiveOk kva skbs l) (data tail : Addr) (len : BitVec 32) :
    LiveOk kva skbs { l with cur := { l.cur with data := data, tail := tail, len := len } } where
  native := h.native
  place := by
    rcases h.place with hk | ⟨i, hi⟩
    · exact .inl { hk with }
    · exact .inr ⟨i, hi.adjust data tail len⟩

/-- **What a release does to a buffer in its place**: a kept buffer, and a placed one at an
address the test does not recognise, go to the native routine as they are; a recognised one is
restored and its slot freed.
Source: `xt_TOGPU_main.c` 279–314
Kind: P -/
theorem LiveOk.release_cases {drv : Globals} (hb : IsPoolBase kva) (hbase : drv.nfgpuKva = kva)
    (hok : LiveOk kva drv.nfgpuSkbs l) :
    ((Kept l ∨ inPool kva l.cur.head = false) ∧
        skbReleaseDataTogpu drv l.cur = (drv, l.cur)) ∨
      ∃ i, Placed kva drv.nfgpuSkbs l i ∧ inPool kva l.cur.head = true ∧
        skbReleaseDataTogpu drv l.cur =
          ({ drv with nfgpuSkbs := Function.update drv.nfgpuSkbs i 0 },
            restoreTo l.buf.native.head l.cur) := by
  subst hbase
  rcases hok.place with hk | ⟨i, hi⟩
  · left
    refine ⟨.inl hk, skbReleaseDataTogpu_of_not_assigned (.inl ?_)⟩
    exact inPool_eq_false hb (hok.not_inRange_of_kept hk)
  · cases hin : inPool drv.nfgpuKva l.cur.head with
    | false => exact .inl ⟨.inr rfl, skbReleaseDataTogpu_of_not_assigned (.inl hin)⟩
    | true =>
        right
        have hidx : slotIndex drv.nfgpuKva l.cur.head = i := hi.slotIndex_eq hb
        have hassigned : drv.nfgpuSkbs (slotIndex drv.nfgpuKva l.cur.head) ≠ 0 := by
          rw [hidx, hi.entry]
          exact hok.native.1
        refine ⟨i, hi, rfl, ?_⟩
        rw [skbReleaseDataTogpu_of_assigned hb.ne_zero hin hassigned, hidx, hi.entry]

/-- The end of a restored buffer is its native end.
Kind: L -/
theorem Placed.restoreTo_skbEnd (h : Placed kva skbs l i) :
    (restoreTo l.buf.native.head l.cur).skbEnd = l.buf.native.skbEnd := by
  show l.buf.native.head + (l.cur.skbEnd - l.cur.head) = l.buf.native.skbEnd
  rw [h.skbEnd, h.head]
  ring

end placement

/-! ## The invariant at any base -/

/-- The part of the invariant that does not need an aligned base.
Kind: D -/
structure SlotInv (kva : Addr) (s : System) : Prop where
  running : s.drv.nfgpuRunning = true
  base : s.drv.nfgpuKva = kva
  next_pos : 1 ≤ s.drv.nfgpuNext
  next_lt : s.drv.nfgpuNext < nfgpuMaxSkbs
  zero_free : s.drv.nfgpuSkbs 0 = 0
  live_ok : ∀ p l, s.live p = some l → LiveOk kva s.drv.nfgpuSkbs l
  distinct : ∀ p q l m, p ≠ q → s.live p = some l → s.live q = some m →
    l.buf.Swapped → m.buf.Swapped → slotIndex kva l.cur.head ≠ slotIndex kva m.cur.head

/-- A fresh running pool has the invariant.
Kind: L -/
theorem slotInv_runningPool (kva : Addr) (npages : ℕ) (shinfo : Addr → SkbSharedInfo) :
    SlotInv kva (System.runningPool kva npages shinfo) where
  running := rfl
  base := rfl
  next_pos := by
    show 1 ≤ (1 : BitVec 64)
    decide
  next_lt := by
    show (1 : BitVec 64) < nfgpuMaxSkbs
    decide
  zero_free := rfl
  live_ok := fun p l h => by cases h
  distinct := fun p q l m _ h => by cases h

/-- A native buffer of `size` bytes.
Kind: D -/
def nativeOfSize (size : BitVec 64) : SkBuff :=
  ⟨0xffff880012340000, 0xffff880012340040, 0xffff880012340040, 0xffff880012340000 + size, 0⟩

/-- The first movable buffer of a fresh pool goes to slot 1.
Kind: L -/
theorem step_alloc_first (kva : Addr) (npages : ℕ) (shinfo : Addr → SkbSharedInfo) (p : ℕ)
    {ret : SkBuff} (hsz : ret.skbEnd - ret.head ≤ nfgpuSkbSize) :
    step (System.runningPool kva npages shinfo) (.alloc p (some ret) 0) =
      some ((System.runningPool kva npages shinfo).adopt p
        { (System.runningPool kva npages shinfo).drv with
          nfgpuSkbs := Function.update (fun _ => 0) 1 ret.head, nfgpuNext := 1 }
        ret 0 (moveTo (slotAddr kva 1) ret)) := by
  have hfind : findSlot (fun _ => 0) nfgpuMaxSkbs.toNat 1 = .ok 1 := by
    rw [nfgpuMaxSkbs_toNat]
    rfl
  exact step_alloc_of_found rfl rfl rfl hsz hfind

section steps

variable {kva : Addr} {s s' : System}

/-- A buffer that stays where it is comes into use.
Kind: L -/
theorem SlotInv.adopt_kept (hI : SlotInv kva s) {p : ℕ} {ret : SkBuff} {nrFrags : ℕ}
    (hn : NativeOk kva ret) (hmov : ¬Movable ret nrFrags) :
    SlotInv kva (s.adopt p s.drv ret nrFrags ret) where
  running := hI.running
  base := hI.base
  next_pos := hI.next_pos
  next_lt := hI.next_lt
  zero_free := hI.zero_free
  live_ok := by
    intro q l hl
    rcases update_some_eq_some.mp hl with ⟨-, rfl⟩ | ⟨-, hl⟩
    · exact ⟨hn, .inl ⟨hmov, rfl, rfl, rfl⟩⟩
    · exact hI.live_ok q l hl
  distinct := by
    intro q r l m hqr hl hm hsl hsm
    rcases update_some_eq_some.mp hl with ⟨-, rfl⟩ | ⟨-, hl⟩
    · exact absurd rfl hsl
    rcases update_some_eq_some.mp hm with ⟨-, rfl⟩ | ⟨-, hm⟩
    · exact absurd rfl hsm
    exact hI.distinct q r l m hqr hl hm hsl hsm

/-- A buffer moved into a free slot comes into use.
Kind: L -/
theorem SlotInv.adopt_placed (hb : IsPoolBase kva) (hI : SlotInv kva s) {p : ℕ} {ret : SkBuff}
    {nrFrags : ℕ} {i : BitVec 64} (hn : NativeOk kva ret) (hmov : Movable ret nrFrags)
    (hpos : 1 ≤ i) (hlt : i < nfgpuMaxSkbs) (hfree : s.drv.nfgpuSkbs i = 0) :
    SlotInv kva (s.adopt p
      { s.drv with nfgpuSkbs := Function.update s.drv.nfgpuSkbs i ret.head, nfgpuNext := i }
      ret nrFrags (moveTo (slotAddr kva i) ret)) where
  running := hI.running
  base := hI.base
  next_pos := hpos
  next_lt := hlt
  zero_free := by
    have hne : (0 : BitVec 64) ≠ i := by
      rintro rfl
      exact absurd hpos (by decide)
    exact (Function.update_of_ne hne _ _).trans hI.zero_free
  live_ok := by
    intro q l hl
    rcases update_some_eq_some.mp hl with ⟨-, rfl⟩ | ⟨-, hl⟩
    · exact ⟨hn, .inr ⟨i, placed_moveTo hmov hpos hlt⟩⟩
    · exact (hI.live_ok q l hl).assign hfree ret.head
  distinct := by
    -- a buffer that was live before has a slot whose entry is nonzero, so not slot `i`
    have hold : ∀ q l, s.live q = some l → l.buf.Swapped →
        slotIndex kva l.cur.head ≠ slotIndex kva (slotAddr kva i) := by
      intro q l hl hs
      obtain ⟨j, hj⟩ := (hI.live_ok q l hl).placed_of_swapped hs
      rw [hj.slotIndex_eq hb, slotIndex_slotAddr hb hlt]
      rintro rfl
      exact (hI.live_ok q l hl).native.1 (hj.entry.symm.trans hfree)
    intro q r l m hqr hl hm hsl hsm
    rcases update_some_eq_some.mp hl with ⟨hq, rfl⟩ | ⟨-, hl⟩ <;>
      rcases update_some_eq_some.mp hm with ⟨hr, rfl⟩ | ⟨-, hm⟩
    · exact absurd (hq.trans hr.symm) hqr
    · exact (hold r m hm hsm).symm
    · exact hold q l hl hsl
    · exact hI.distinct q r l m hqr hl hm hsl hsm

/-- Moving `data` and `tail` keeps the invariant.
Kind: L -/
theorem SlotInv.adjust (hI : SlotInv kva s) {p : ℕ} {l : LiveSkb} (hl : s.live p = some l)
    (data tail : Addr) (len : BitVec 32) : SlotInv kva (s.adjust p l data tail len) where
  running := hI.running
  base := hI.base
  next_pos := hI.next_pos
  next_lt := hI.next_lt
  zero_free := hI.zero_free
  live_ok := by
    intro q m hm
    rcases update_some_eq_some.mp hm with ⟨-, rfl⟩ | ⟨-, hm⟩
    · exact (hI.live_ok p l hl).adjust data tail len
    · exact hI.live_ok q m hm
  distinct := by
    intro q r m n hqr hm hn hsm hsn
    rcases update_some_eq_some.mp hm with ⟨hq, rfl⟩ | ⟨-, hm⟩ <;>
      rcases update_some_eq_some.mp hn with ⟨hr, rfl⟩ | ⟨-, hn⟩
    · exact absurd (hq.trans hr.symm) hqr
    · exact hI.distinct p r l n (hq ▸ hqr) hl hn hsm hsn
    · exact hI.distinct q p m l (hr ▸ hqr) hm hl hsm hsn
    · exact hI.distinct q r m n hqr hm hn hsm hsn

/-- Cloning a buffer outside the pool keeps the invariant.
Kind: L -/
theorem SlotInv.clone (hb : IsPoolBase kva) (hI : SlotInv kva s) {p q : ℕ} {l : LiveSkb}
    (hl : s.live p = some l) (hout : ¬InRange kva l.cur.head) : SlotInv kva (s.clone l q) := by
  have hns : ¬l.buf.Swapped := by
    intro hs
    obtain ⟨i, hi⟩ := (hI.live_ok p l hl).placed_of_swapped hs
    exact hout (hi.inRange hb)
  refine ⟨hI.running, hI.base, hI.next_pos, hI.next_lt, hI.zero_free, ?_, ?_⟩
  · intro r m hm
    rcases update_some_eq_some.mp hm with ⟨-, rfl⟩ | ⟨-, hm⟩
    · exact hI.live_ok p l hl
    · exact hI.live_ok r m hm
  · intro r t m n hrt hm hn hsm hsn
    rcases update_some_eq_some.mp hm with ⟨-, rfl⟩ | ⟨-, hm⟩
    · exact absurd hsm hns
    rcases update_some_eq_some.mp hn with ⟨-, rfl⟩ | ⟨-, hn⟩
    · exact absurd hsn hns
    exact hI.distinct r t m n hrt hm hn hsm hsn

/-- The globals and the buffers in use after a release that leaves the table alone.
Kind: L -/
theorem SlotInv.release_of_same (hI : SlotInv kva s) {p : ℕ} {l : LiveSkb}
    (hrel : skbReleaseDataTogpu s.drv l.cur = (s.drv, l.cur)) : SlotInv kva (s.release p l) := by
  simp only [System.release, hrel]
  refine ⟨hI.running, hI.base, hI.next_pos, hI.next_lt, hI.zero_free, ?_, ?_⟩
  · intro q m hm
    exact hI.live_ok q m (update_none_eq_some.mp hm).2
  · intro q r m n hqr hm hn
    exact hI.distinct q r m n hqr (update_none_eq_some.mp hm).2 (update_none_eq_some.mp hn).2

/-- A release keeps the invariant.
Kind: L -/
theorem SlotInv.release (hb : IsPoolBase kva) (hI : SlotInv kva s) {p : ℕ} {l : LiveSkb}
    (hl : s.live p = some l) : SlotInv kva (s.release p l) := by
  rcases (hI.live_ok p l hl).release_cases hb hI.base with ⟨-, hrel⟩ | ⟨i, hi, -, hrel⟩
  · exact hI.release_of_same hrel
  · have hsw := hi.swapped hb (hI.live_ok p l hl).native
    simp only [System.release, hrel]
    refine ⟨hI.running, hI.base, hI.next_pos, hI.next_lt, ?_, ?_, ?_⟩
    · have hne : (0 : BitVec 64) ≠ i := by
        rintro rfl
        exact absurd hi.pos (by decide)
      exact (Function.update_of_ne hne _ _).trans hI.zero_free
    · intro q m hm
      obtain ⟨hqp, hm⟩ := update_none_eq_some.mp hm
      refine (hI.live_ok q m hm).free hb fun hs => ?_
      have hd := hI.distinct q p m l hqp hm hl hs hsw
      rwa [hi.slotIndex_eq hb] at hd
    · intro q r m n hqr hm hn
      exact hI.distinct q r m n hqr (update_none_eq_some.mp hm).2 (update_none_eq_some.mp hn).2

/-- **Every step of a pool keeps the slot invariant**, at any base.
Kind: P -/
theorem slotInv_step (hb : IsPoolBase kva) {e : Event} (hI : SlotInv kva s) (hok : PoolEvent s e)
    (h : step s e = some s') : SlotInv kva s' := by
  cases e with
  | alloc p native nrFrags =>
      cases native with
      | none => exact hok.elim
      | some ret =>
          have hn : NativeOk kva ret := hI.base ▸ hok
          obtain ⟨-, ⟨hno, rfl⟩ | ⟨-, hfr, hsz, i, hi, rfl⟩⟩ := step_alloc_cases h
          · exact hI.adopt_kept hn fun hm => hno ⟨hI.running, hm⟩
          · rw [hI.base]
            exact hI.adopt_placed hb hn ⟨hfr, hsz⟩ (findSlot_pos hI.next_pos hi)
              (findSlot_ok hi).1 (findSlot_ok hi).2
  | adjust p data tail len =>
      obtain ⟨l, hl, rfl⟩ := step_adjust_cases h
      exact hI.adjust hl data tail len
  | clone p q =>
      obtain ⟨-, l, hl, rfl⟩ := step_clone_cases h
      exact hI.clone hb hl (hI.base ▸ hok l hl)
  | release p =>
      obtain ⟨l, hl, rfl⟩ := step_release_cases h
      exact hI.release hb hl
  | ioctl cmd env => exact hok.elim

end steps

/-! ## The invariant at an aligned base -/

/-- What an aligned base adds to `SlotInv`.
Kind: D -/
structure PoolInv (kva : Addr) (s : System) : Prop extends SlotInv kva s where
  entry_live : ∀ i, i < nfgpuMaxSkbs → s.drv.nfgpuSkbs i ≠ 0 →
    ∃ p l, s.live p = some l ∧ Placed kva s.drv.nfgpuSkbs l i
  handed : ∀ r ∈ s.log, r.handed.head = r.buf.native.head ∧
    r.handed.skbEnd = r.buf.native.skbEnd ∧ NativeOk kva r.buf.native

section aligned

variable {kva : Addr} {s s' : System}

/-- A fresh running pool has the invariant.
Kind: L -/
theorem poolInv_runningPool (kva : Addr) (npages : ℕ) (shinfo : Addr → SkbSharedInfo) :
    PoolInv kva (System.runningPool kva npages shinfo) where
  toSlotInv := slotInv_runningPool kva npages shinfo
  entry_live := fun i _ hne => absurd rfl hne
  handed := fun r hr => by cases hr

/-- At an aligned base a release always hands the buffer back where the native allocator had put
it, and frees exactly the buffer's own slot.
Kind: L -/
theorem SlotInv.release_aligned (hb : IsPoolBase kva) (hal : Aligned kva) (hI : SlotInv kva s)
    {p : ℕ} {l : LiveSkb} (hl : s.live p = some l) :
    (Kept l ∧ skbReleaseDataTogpu s.drv l.cur = (s.drv, l.cur)) ∨
      ∃ i, Placed kva s.drv.nfgpuSkbs l i ∧
        skbReleaseDataTogpu s.drv l.cur =
          ({ s.drv with nfgpuSkbs := Function.update s.drv.nfgpuSkbs i 0 },
            restoreTo l.buf.native.head l.cur) := by
  rcases (hI.live_ok p l hl).release_cases hb hI.base with ⟨hk, hrel⟩ | ⟨i, hi, -, hrel⟩
  · refine .inl ⟨?_, hrel⟩
    rcases (hI.live_ok p l hl).place with hk' | ⟨i, hi⟩
    · exact hk'
    · refine hk.resolve_right fun hout => ?_
      rw [(inPool_iff_inRange hb hal _).mpr (hi.inRange hb)] at hout
      cases hout
  · exact .inr ⟨i, hi, hrel⟩

/-- An allocation keeps the invariant.
Kind: L -/
theorem PoolInv.alloc (hb : IsPoolBase kva) (hI : PoolInv kva s) {p : ℕ} {ret : SkBuff}
    {nrFrags : ℕ} (hn : NativeOk kva ret)
    (h : step s (.alloc p (some ret) nrFrags) = some s') : PoolInv kva s' := by
  have hn' : NativeOk s.drv.nfgpuKva ret := hI.base.symm ▸ hn
  have hok : PoolEvent s (.alloc p (some ret) nrFrags) := hn'
  have hslot : SlotInv kva s' := slotInv_step hb hI.toSlotInv hok h
  obtain ⟨hfresh, ⟨-, rfl⟩ | ⟨-, hfr, hsz, i, hi, rfl⟩⟩ := step_alloc_cases h
  · refine ⟨hslot, fun j hj hne => ?_, hI.handed⟩
    obtain ⟨q, l, hl, hpl⟩ := hI.entry_live j hj hne
    have hqp : q ≠ p := ne_of_none_of_some hfresh hl
    exact ⟨q, l, update_some_eq_some.mpr (.inr ⟨hqp, hl⟩), hpl⟩
  · refine ⟨hslot, fun j hj hne => ?_, hI.handed⟩
    by_cases hji : j = i
    · subst hji
      refine ⟨p, _, update_some_eq_some.mpr (.inl ⟨rfl, rfl⟩), ?_⟩
      rw [hI.base]
      exact placed_moveTo ⟨hfr, hsz⟩ (findSlot_pos hI.next_pos hi) hj
    · have hsame : Function.update s.drv.nfgpuSkbs i ret.head j = s.drv.nfgpuSkbs j :=
        Function.update_of_ne hji _ _
      obtain ⟨q, l, hl, hpl⟩ := hI.entry_live j hj fun h0 => hne (hsame.trans h0)
      have hqp : q ≠ p := ne_of_none_of_some hfresh hl
      exact ⟨q, l, update_some_eq_some.mpr (.inr ⟨hqp, hl⟩), hpl.congr hsame⟩

/-- A release keeps the invariant.
Kind: L -/
theorem PoolInv.release (hb : IsPoolBase kva) (hal : Aligned kva) (hI : PoolInv kva s) {p : ℕ}
    {l : LiveSkb} (hl : s.live p = some l) : PoolInv kva (s.release p l) := by
  refine ⟨hI.toSlotInv.release hb hl, ?_, ?_⟩
  · intro j hj hne
    rcases hI.release_aligned hb hal hl with ⟨hk, hrel⟩ | ⟨i, hi, hrel⟩
    · simp only [System.release, hrel] at hne ⊢
      obtain ⟨q, m, hm, hpl⟩ := hI.entry_live j hj hne
      have hqp : q ≠ p := by
        rintro rfl
        rw [hl] at hm
        cases hm
        exact hk.not_movable hpl.movable
      exact ⟨q, m, update_none_eq_some.mpr ⟨hqp, hm⟩, hpl⟩
    · simp only [System.release, hrel] at hne ⊢
      have hji : j ≠ i := by
        rintro rfl
        exact hne (Function.update_self ..)
      have hsame : Function.update s.drv.nfgpuSkbs i 0 j = s.drv.nfgpuSkbs j :=
        Function.update_of_ne hji _ _
      obtain ⟨q, m, hm, hpl⟩ := hI.entry_live j hj fun h0 => hne (hsame.trans h0)
      have hqp : q ≠ p := by
        rintro rfl
        rw [hl] at hm
        cases hm
        exact hji ((hpl.slotIndex_eq hb).symm.trans (hi.slotIndex_eq hb))
      exact ⟨q, m, update_none_eq_some.mpr ⟨hqp, hm⟩, hpl.congr hsame⟩
  · intro r hr
    have hn := (hI.live_ok p l hl).native
    rcases hI.release_aligned hb hal hl with ⟨hk, hrel⟩ | ⟨i, hi, hrel⟩ <;>
      · simp only [System.release, hrel, List.mem_cons] at hr
        rcases hr with rfl | hr
        · first
            | exact ⟨hk.head, hk.skbEnd, hn⟩
            | exact ⟨rfl, hi.restoreTo_skbEnd, hn⟩
        · exact hI.handed r hr

/-- **Every step of a pool at an aligned base keeps the pool invariant.**
Kind: P -/
theorem poolInv_step (hb : IsPoolBase kva) (hal : Aligned kva) {e : Event} (hI : PoolInv kva s)
    (hok : PoolEvent s e) (h : step s e = some s') : PoolInv kva s' := by
  cases e with
  | alloc p native nrFrags =>
      cases native with
      | none => exact hok.elim
      | some ret => exact hI.alloc hb (hI.base ▸ hok) h
  | adjust p data tail len =>
      have hslot := slotInv_step hb hI.toSlotInv hok h
      obtain ⟨l, hl, rfl⟩ := step_adjust_cases h
      refine ⟨hslot, fun j hj hne => ?_, hI.handed⟩
      obtain ⟨q, m, hm, hpl⟩ := hI.entry_live j hj hne
      by_cases hqp : q = p
      · subst hqp
        rw [hl] at hm
        cases hm
        exact ⟨q, _, update_some_eq_some.mpr (.inl ⟨rfl, rfl⟩), hpl.adjust data tail len⟩
      · exact ⟨q, m, update_some_eq_some.mpr (.inr ⟨hqp, hm⟩), hpl⟩
  | clone p q =>
      have hslot := slotInv_step hb hI.toSlotInv hok h
      obtain ⟨hq, l, hl, rfl⟩ := step_clone_cases h
      refine ⟨hslot, fun j hj hne => ?_, hI.handed⟩
      obtain ⟨r, m, hm, hpl⟩ := hI.entry_live j hj hne
      have hrq : r ≠ q := by
        rintro rfl
        rw [hm] at hq
        cases hq
      exact ⟨r, m, update_some_eq_some.mpr (.inr ⟨hrq, hm⟩), hpl⟩
  | release p =>
      obtain ⟨l, hl, rfl⟩ := step_release_cases h
      exact hI.release hb hal hl
  | ioctl cmd env => exact hok.elim

end aligned

end Togpu.Driver
