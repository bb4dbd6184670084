import Togpu.Pool.Slots

/-!
# Buffers with several owners

`skb_release_data` is entered once for each `sk_buff` that shares a buffer, and the kernel counts
the sharers in the shared info at `skb->end`. The hook moves `end`, so a clone of a moved buffer
counts at another place than the release of it; and the hook frees the slot at the first release.

* `SharingOk` — what the kernel needs of a shared buffer: its slot stays assigned and its native
  head is not freed while an `sk_buff` still has its head in the slot; after the last one the
  native head has been freed once; the native routine never sees a pool address.
* `KernelEvent` — the runs in question: one fixed pool, native results that are not in use.
* `ReleasedAlone` — a buffer in the pool is released where the test recognises it, and by the only
  `sk_buff` in its slot.
* **It holds in every state of a run iff every release of the run is such a one**
  (`sharingOk_iff`), at any base `vmap` can return.
-/

namespace Togpu.Driver

open Togpu.Lib

/-- The frees of allocation `id`'s head, newest first.
Kind: D -/
def System.freesOf (s : System) (id : ℕ) : List Addr :=
  (s.log.filter fun r => r.id = id ∧ r.freed = true).map fun r => r.handed.head

/-- Shared buffers survive partial release, in state `s`.
Kind: D -/
structure SharingOk (kva : Addr) (s : System) : Prop where
  /-- While an `sk_buff` has its head in a slot, the slot holds its native head … -/
  assigned : ∀ p l, s.live p = some l → InRange kva l.cur.head →
    s.drv.nfgpuSkbs (slotIndex kva l.cur.head) = l.buf.native.head
  /-- … which no release has freed since it was allocated. -/
  unfreed : ∀ p l, s.live p = some l → InRange kva l.cur.head →
    ∀ r ∈ s.log, r.freed = true → r.handed.head = l.buf.native.head → r.seq ≤ l.id
  /-- When the last sharer of a moved buffer is gone, its native head has been freed once. -/
  freedOnce : ∀ id b, s.bufs[id]? = some b → b.Swapped →
    (∀ p l, s.live p = some l → l.id ≠ id) → s.freesOf id = [b.native.head]
  /-- The native release routine is never entered with a head inside the pool. -/
  native : ∀ r ∈ s.log, ¬InRange kva r.handed.head

/-- The native result is not in use: neither its head nor its end is that of a live buffer.
Kind: D -/
def Fresh (s : System) (ret : SkBuff) : Prop :=
  ∀ p l, s.live p = some l →
    l.buf.native.head ≠ ret.head ∧ l.buf.native.skbEnd ≠ ret.skbEnd

/-- The events of runs with clones, for one fixed mapping. A clone of a buffer in the pool counts in
the pool, and not in the shared info of a native buffer.
Kind: D -/
def KernelEvent (s : System) : Event → Prop
  | .alloc _ (some ret) _ => NativeOk s.drv.nfgpuKva ret ∧ Fresh s ret
  | .alloc _ none _ => False
  | .clone p _ => ∀ l, s.live p = some l → InRange s.drv.nfgpuKva l.cur.head →
      ∀ q m, s.live q = some m → m.buf.native.skbEnd ≠ l.cur.skbEnd
  | .ioctl _ _ => False
  | _ => True

/-- An `sk_buff` whose head is in the pool is released where the hook's test recognises it, while no
other one has its head in the slot.
Source: `xt_TOGPU_main.c` 289–296
Kind: D -/
def ReleasedAlone (s : System) : Event → Prop
  | .release p => ∀ l, s.live p = some l → InRange s.drv.nfgpuKva l.cur.head →
      inPool s.drv.nfgpuKva l.cur.head = true ∧
        ∀ q m, q ≠ p → s.live q = some m → InRange s.drv.nfgpuKva m.cur.head →
          slotIndex s.drv.nfgpuKva m.cur.head ≠ slotIndex s.drv.nfgpuKva l.cur.head
  | _ => True

/-! ## The inductive invariant -/

/-- Every live buffer is in its place, the count of a moved one at its native end is one, and its
number is not in the log; the numbers tell live buffers apart.
Kind: D -/
structure ShareInv (kva : Addr) (s : System) : Prop where
  isBase : IsPoolBase kva
  base : s.drv.nfgpuKva = kva
  running : s.drv.nfgpuRunning = true
  next_pos : 1 ≤ s.drv.nfgpuNext
  live_ok : ∀ p l, s.live p = some l → LiveOk kva s.drv.nfgpuSkbs l
  ids : ∀ p l, s.live p = some l → s.bufs[l.id]? = some l.buf
  apart : ∀ p q l m, s.live p = some l → s.live q = some m → l.id ≠ m.id →
    l.buf.native.head ≠ m.buf.native.head ∧ l.buf.native.skbEnd ≠ m.buf.native.skbEnd
  counted : ∀ p l, s.live p = some l → l.buf.Swapped →
    (s.shinfo l.buf.native.skbEnd).dataref = 1
  logged : ∀ r ∈ s.log, r.id < s.bufs.length ∧ r.seq ≤ s.bufs.length
  unlogged : ∀ p l, s.live p = some l → l.buf.Swapped → ∀ r ∈ s.log, r.id ≠ l.id
  unfreed : ∀ p l, s.live p = some l → l.buf.Swapped →
    ∀ r ∈ s.log, r.freed = true → r.handed.head = l.buf.native.head → r.seq ≤ l.id
  freedOnce : ∀ id b, s.bufs[id]? = some b → b.Swapped →
    (∀ p l, s.live p = some l → l.id ≠ id) → s.freesOf id = [b.native.head]
  native : ∀ r ∈ s.log, ¬InRange kva r.handed.head

/-- A fresh running pool has the invariant.
Kind: L -/
theorem shareInv_runningPool {kva : Addr} (hb : IsPoolBase kva) (npages : ℕ)
    (shinfo : Addr → SkbSharedInfo) : ShareInv kva (System.runningPool kva npages shinfo) where
  isBase := hb
  base := rfl
  running := rfl
  next_pos := by
    show 1 ≤ (1 : BitVec 64)
    decide
  live_ok := fun p l h => by cases h
  ids := fun p l h => by cases h
  apart := fun p q l m h => by cases h
  counted := fun p l h => by cases h
  logged := fun r hr => by cases hr
  unlogged := fun p l h => by cases h
  unfreed := fun p l h => by cases h
  freedOnce := fun id b h => by cases h
  native := fun r hr => by cases hr

section share

variable {kva : Addr} {s s' : System}

/-- The number of a live buffer is that of an allocation.
Kind: L -/
theorem ShareInv.id_lt (hI : ShareInv kva s) {p : ℕ} {l : LiveSkb} (hl : s.live p = some l) :
    l.id < s.bufs.length :=
  (List.getElem?_eq_some_iff.mp (hI.ids p l hl)).1

/-- Buffers with one number are one allocation.
Kind: L -/
theorem ShareInv.buf_eq (hI : ShareInv kva s) {p q : ℕ} {l m : LiveSkb}
    (hl : s.live p = some l) (hm : s.live q = some m) (hid : l.id = m.id) : l.buf = m.buf := by
  have h := hI.ids p l hl
  rw [hid, hI.ids q m hm] at h
  exact (Option.some.inj h).symm

/-- A live buffer with its head in the pool is in a slot.
Kind: L -/
theorem ShareInv.placed_of_inRange (hI : ShareInv kva s) {p : ℕ} {l : LiveSkb}
    (hl : s.live p = some l) (hin : InRange kva l.cur.head) :
    ∃ i, Placed kva s.drv.nfgpuSkbs l i := by
  have hok := hI.live_ok p l hl
  exact hok.place.resolve_left fun hk => hok.not_inRange_of_kept hk hin

/-- Two `sk_buff`s of a moved buffer are in one slot.
Kind: L -/
theorem ShareInv.slotIndex_eq_of_id (hI : ShareInv kva s) {p q : ℕ}
    {l m : LiveSkb} (hl : s.live p = some l) (hm : s.live q = some m) (hs : m.buf.Swapped)
    (hid : m.id = l.id) : InRange kva m.cur.head ∧ InRange kva l.cur.head ∧
      slotIndex kva m.cur.head = slotIndex kva l.cur.head := by
  have hbuf := hI.buf_eq hm hl hid
  obtain ⟨j, hj⟩ := (hI.live_ok q m hm).placed_of_swapped hs
  obtain ⟨i, hi⟩ := (hI.live_ok p l hl).placed_of_swapped (hbuf ▸ hs)
  have hhead : m.cur.head = l.cur.head := by
    have hg := congrArg SkBuff.head (hj.given.symm.trans ((congrArg Buf.given hbuf).trans hi.given))
    rw [hj.head, hi.head]
    exact hg
  exact ⟨hj.inRange hI.isBase, hi.inRange hI.isBase, by rw [hhead]⟩

/-- A moved buffer that stays is not the one that is released alone.
Kind: L -/
theorem ShareInv.id_ne_of_alone (hI : ShareInv kva s) {p q : ℕ}
    {l m : LiveSkb} (hl : s.live p = some l) (halone : ReleasedAlone s (.release p)) (hqp : q ≠ p)
    (hm : s.live q = some m) (hs : m.buf.Swapped) : m.id ≠ l.id := by
  intro hid
  obtain ⟨hmin, hlin, heq⟩ := hI.slotIndex_eq_of_id hl hm hs hid
  have hsole := (halone l hl (by rwa [hI.base])).2 q m hqp hm (by rwa [hI.base])
  rw [hI.base] at hsole
  exact hsole heq

/-- Adding a log entry of another allocation changes no list of frees.
Kind: L -/
theorem freesOf_cons_of_ne {log : List Released} {r : Released} {id : ℕ} (h : r.id ≠ id) :
    ((r :: log).filter fun r => r.id = id ∧ r.freed = true).map (fun r => r.handed.head) =
      (log.filter fun r => r.id = id ∧ r.freed = true).map fun r => r.handed.head := by
  rw [List.filter_cons_of_neg (by simp [h])]

/-- The invariant along a step that changes neither the driver, the allocations nor the log, and
leaves the numbers and allocations of the live buffers as they are.
Kind: L -/
theorem ShareInv.congr (hI : ShareInv kva s) (hdrv : s'.drv = s.drv) (hbufs : s'.bufs = s.bufs)
    (hlog : s'.log = s.log)
    (hlive : ∀ q m, s'.live q = some m → LiveOk kva s.drv.nfgpuSkbs m)
    (hsub : ∀ q m, s'.live q = some m →
      ∃ r n, s.live r = some n ∧ n.id = m.id ∧ n.buf = m.buf)
    (hsup : ∀ q m, s.live q = some m → ∃ r n, s'.live r = some n ∧ n.id = m.id)
    (hcount : ∀ q m, s.live q = some m → m.buf.Swapped →
      (s'.shinfo m.buf.native.skbEnd).dataref = 1) : ShareInv kva s' where
  isBase := hI.isBase
  base := by
    rw [hdrv]
    exact hI.base
  running := by
    rw [hdrv]
    exact hI.running
  next_pos := by
    rw [hdrv]
    exact hI.next_pos
  live_ok := by
    rw [hdrv]
    exact hlive
  ids := by
    intro q m hm
    obtain ⟨r, n, hn, hid, hbuf⟩ := hsub q m hm
    rw [hbufs, ← hid, ← hbuf]
    exact hI.ids r n hn
  apart := by
    intro q q' m m' hm hm' hne
    obtain ⟨r, n, hn, hid, hbuf⟩ := hsub q m hm
    obtain ⟨r', n', hn', hid', hbuf'⟩ := hsub q' m' hm'
    rw [← hbuf, ← hbuf']
    exact hI.apart r r' n n' hn hn' (by rw [hid, hid']; exact hne)
  counted := by
    intro q m hm hs
    obtain ⟨r, n, hn, -, hbuf⟩ := hsub q m hm
    rw [← hbuf] at hs ⊢
    exact hcount r n hn hs
  logged := by
    rw [hlog, hbufs]
    exact hI.logged
  unlogged := by
    intro q m hm hs
    obtain ⟨r, n, hn, hid, hbuf⟩ := hsub q m hm
    rw [hlog, ← hid]
    exact hI.unlogged r n hn (hbuf ▸ hs)
  unfreed := by
    intro q m hm hs
    obtain ⟨r, n, hn, hid, hbuf⟩ := hsub q m hm
    rw [hlog, ← hid, ← hbuf]
    exact hI.unfreed r n hn (hbuf ▸ hs)
  freedOnce := by
    intro id b hb hs hgone
    rw [hbufs] at hb
    simp only [System.freesOf, hlog]
    refine hI.freedOnce id b hb hs fun q m hm hid => ?_
    obtain ⟨r, n, hn, hnid⟩ := hsup q m hm
    exact hgone r n hn (hnid.trans hid)
  native := by
    rw [hlog]
    exact hI.native

/-- A new buffer comes into use, moved or not.
Kind: L -/
theorem ShareInv.adopt (hI : ShareInv kva s) {p : ℕ} {drv : Globals} {ret skb : SkBuff}
    {nrFrags : ℕ} (hp : s.live p = none) (hfresh : Fresh s ret) (hbase : drv.nfgpuKva = kva)
    (hrun : drv.nfgpuRunning = true) (hnext : 1 ≤ drv.nfgpuNext)
    (hnew : LiveOk kva drv.nfgpuSkbs ⟨s.bufs.length, ⟨ret, nrFrags, skb⟩, skb⟩)
    (hold : ∀ q l, s.live q = some l → LiveOk kva drv.nfgpuSkbs l) :
    ShareInv kva (s.adopt p drv ret nrFrags skb) where
  isBase := hI.isBase
  base := hbase
  running := hrun
  next_pos := hnext
  live_ok := by
    intro q l hl
    rcases update_some_eq_some.mp hl with ⟨-, rfl⟩ | ⟨-, hl⟩
    · exact hnew
    · exact hold q l hl
  ids := by
    intro q l hl
    rcases update_some_eq_some.mp hl with ⟨-, rfl⟩ | ⟨-, hl⟩
    · exact List.getElem?_concat_length
    · exact (List.getElem?_append_left (hI.id_lt hl)).trans (hI.ids q l hl)
  apart := by
    intro q r l m hl hm hne
    rcases update_some_eq_some.mp hl with ⟨-, rfl⟩ | ⟨-, hl⟩ <;>
      rcases update_some_eq_some.mp hm with ⟨-, rfl⟩ | ⟨-, hm⟩
    · exact absurd rfl hne
    · exact ⟨(hfresh r m hm).1.symm, (hfresh r m hm).2.symm⟩
    · exact hfresh q l hl
    · exact hI.apart q r l m hl hm hne
  counted := by
    intro q l hl hs
    rcases update_some_eq_some.mp hl with ⟨-, rfl⟩ | ⟨-, hl⟩
    · show (Function.update s.shinfo ret.skbEnd ⟨nrFrags, 1⟩ ret.skbEnd).dataref = 1
      rw [Function.update_self]
    · exact (congrArg SkbSharedInfo.dataref
        (Function.update_of_ne (hfresh q l hl).2 _ _)).trans (hI.counted q l hl hs)
  logged := by
    intro r hr
    obtain ⟨hid, hseq⟩ := hI.logged r hr
    have hlen : (s.adopt p drv ret nrFrags skb).bufs.length = s.bufs.length + 1 :=
      List.length_append
    rw [hlen]
    exact ⟨by omega, by omega⟩
  unlogged := by
    intro q l hl hs r hr
    rcases update_some_eq_some.mp hl with ⟨-, rfl⟩ | ⟨-, hl⟩
    · exact (hI.logged r hr).1.ne
    · exact hI.unlogged q l hl hs r hr
  unfreed := by
    intro q l hl hs r hr hf heq
    rcases update_some_eq_some.mp hl with ⟨-, rfl⟩ | ⟨-, hl⟩
    · exact (hI.logged r hr).2
    · exact hI.unfreed q l hl hs r hr hf heq
  freedOnce := by
    intro id b hb hs hgone
    -- the new allocation is in use, so `id` is an older one
    have hid : id < s.bufs.length := by
      have hle : id < (s.bufs ++ [(⟨ret, nrFrags, skb⟩ : Buf)]).length :=
        (List.getElem?_eq_some_iff.mp hb).1
      have hne := hgone p _ (s.adopt_live_self p drv ret nrFrags skb)
      rw [List.length_append, List.length_singleton] at hle
      exact lt_of_le_of_ne (Nat.lt_succ_iff.mp hle) fun h => hne h.symm
    refine hI.freedOnce id b ((List.getElem?_append_left hid).symm.trans hb) hs ?_
    intro q l hl
    have hqp : q ≠ p := ne_of_none_of_some hp hl
    exact hgone q l (update_some_eq_some.mpr (.inr ⟨hqp, hl⟩))
  native := hI.native

/-- An allocation keeps the invariant.
Source: `xt_TOGPU_main.c` 235–277
Kind: L -/
theorem ShareInv.alloc (hI : ShareInv kva s) {p : ℕ} {ret : SkBuff} {nrFrags : ℕ}
    (hok : KernelEvent s (.alloc p (some ret) nrFrags))
    (h : step s (.alloc p (some ret) nrFrags) = some s') : ShareInv kva s' := by
  obtain ⟨hn, hfresh⟩ := hok
  rw [hI.base] at hn
  obtain ⟨hp, ⟨hno, rfl⟩ | ⟨hrun, hfr, hsz, i, hi, rfl⟩⟩ := step_alloc_cases h
  · have hmov : ¬Movable ret nrFrags := fun hm => hno ⟨hI.running, hm⟩
    exact hI.adopt hp hfresh hI.base hI.running hI.next_pos ⟨hn, .inl ⟨hmov, rfl, rfl, rfl⟩⟩
      hI.live_ok
  · rw [hI.base]
    have hpos := findSlot_pos hI.next_pos hi
    obtain ⟨hlt, hfree⟩ := findSlot_ok hi
    refine hI.adopt hp hfresh hI.base hI.running hpos ?_ fun q l hl => ?_
    · exact ⟨hn, .inr ⟨i, placed_moveTo ⟨hfr, hsz⟩ hpos hlt⟩⟩
    · exact (hI.live_ok q l hl).assign hfree ret.head

/-- Moving `data` and `tail` keeps the invariant.
Kind: L -/
theorem ShareInv.adjust (hI : ShareInv kva s) {p : ℕ} {l : LiveSkb} {data tail : Addr}
    {len : BitVec 32} (hl : s.live p = some l) : ShareInv kva (s.adjust p l data tail len) := by
  refine hI.congr rfl rfl rfl ?_ ?_ ?_ hI.counted
  · intro q m hm
    rcases update_some_eq_some.mp hm with ⟨-, rfl⟩ | ⟨-, hm⟩
    · exact (hI.live_ok p l hl).adjust data tail len
    · exact hI.live_ok q m hm
  · intro q m hm
    rcases update_some_eq_some.mp hm with ⟨-, rfl⟩ | ⟨-, hm⟩
    · exact ⟨p, l, hl, rfl, rfl⟩
    · exact ⟨q, m, hm, rfl, rfl⟩
  · intro q m hm
    by_cases hqp : q = p
    · subst hqp
      rw [hl] at hm
      cases hm
      exact ⟨q, _, update_some_eq_some.mpr (.inl ⟨rfl, rfl⟩), rfl⟩
    · exact ⟨q, m, update_some_eq_some.mpr (.inr ⟨hqp, hm⟩), rfl⟩

/-- A clone keeps the invariant: it counts where no moved buffer is counted, at the native end of a
buffer that was not moved or in the pool.
Kind: L -/
theorem ShareInv.clone (hI : ShareInv kva s) {p q : ℕ} {l : LiveSkb}
    (hok : KernelEvent s (.clone p q)) (hl : s.live p = some l) (hq : s.live q = none) :
    ShareInv kva (s.clone l q) := by
  refine hI.congr rfl rfl rfl ?_ ?_ ?_ ?_
  · intro r m hm
    rcases update_some_eq_some.mp hm with ⟨-, rfl⟩ | ⟨-, hm⟩
    · exact hI.live_ok p l hl
    · exact hI.live_ok r m hm
  · intro r m hm
    rcases update_some_eq_some.mp hm with ⟨-, rfl⟩ | ⟨-, hm⟩
    · exact ⟨p, l, hl, rfl, rfl⟩
    · exact ⟨r, m, hm, rfl, rfl⟩
  · intro r m hm
    have hrq : r ≠ q := ne_of_none_of_some hq hm
    exact ⟨r, m, update_some_eq_some.mpr (.inr ⟨hrq, hm⟩), rfl⟩
  · intro r m hm hs
    have hend : m.buf.native.skbEnd ≠ l.cur.skbEnd := by
      by_cases hin : InRange kva l.cur.head
      · exact hok l hl (by rwa [hI.base]) r m hm
      · have hk : Kept l := (hI.live_ok p l hl).place.resolve_right
          fun ⟨i, hi⟩ => hin (hi.inRange hI.isBase)
        have hid : m.id ≠ l.id := fun hid => hk.not_swapped (hI.buf_eq hm hl hid ▸ hs)
        rw [hk.skbEnd]
        exact (hI.apart r p m l hm hl hid).2
    exact (congrArg SkbSharedInfo.dataref (Function.update_of_ne hend _ _)).trans
      (hI.counted r m hm hs)

/-! ## Releases -/

/-- A release that is alone hands the buffer back where the native allocator had put it.
Source: `xt_TOGPU_main.c` 279–314
Kind: L -/
theorem ShareInv.release_alone (hI : ShareInv kva s) {p : ℕ} {l : LiveSkb}
    (hl : s.live p = some l) (halone : ReleasedAlone s (.release p)) :
    (Kept l ∧ skbReleaseDataTogpu s.drv l.cur = (s.drv, l.cur)) ∨
      ∃ i, Placed kva s.drv.nfgpuSkbs l i ∧
        skbReleaseDataTogpu s.drv l.cur =
          ({ s.drv with nfgpuSkbs := Function.update s.drv.nfgpuSkbs i 0 },
            restoreTo l.buf.native.head l.cur) := by
  have hok := hI.live_ok p l hl
  rcases hok.release_cases hI.isBase hI.base with ⟨hout, hrel⟩ | ⟨i, hi, -, hrel⟩
  · refine .inl ⟨?_, hrel⟩
    rcases hok.place with hk | ⟨i, hi⟩
    · exact hk
    · refine hout.resolve_right fun hmiss => ?_
      have hin := (halone l hl (by rw [hI.base]; exact hi.inRange hI.isBase)).1
      rw [hI.base, hmiss] at hin
      cases hin
  · exact .inr ⟨i, hi, hrel⟩

/-- What the native routine gets: the native head and the native end.
Kind: L -/
theorem ShareInv.handed_native (hI : ShareInv kva s) {p : ℕ} {l : LiveSkb}
    (hl : s.live p = some l) (halone : ReleasedAlone s (.release p)) :
    (skbReleaseDataTogpu s.drv l.cur).2.head = l.buf.native.head ∧
      (skbReleaseDataTogpu s.drv l.cur).2.skbEnd = l.buf.native.skbEnd := by
  rcases hI.release_alone hl halone with ⟨hk, hrel⟩ | ⟨i, hi, hrel⟩
  · rw [hrel]
    exact ⟨hk.head, hk.skbEnd⟩
  · rw [hrel]
    exact ⟨rfl, hi.restoreTo_skbEnd⟩

/-- What it does to the driver: at most the entry of the buffer's own slot changes, and the buffers
that stay are in their places.
Kind: L -/
theorem ShareInv.release_drv (hI : ShareInv kva s) {p : ℕ} {l : LiveSkb}
    (hl : s.live p = some l) (halone : ReleasedAlone s (.release p)) :
    (s.release p l).drv.nfgpuKva = kva ∧ (s.release p l).drv.nfgpuRunning = true ∧
      1 ≤ (s.release p l).drv.nfgpuNext ∧
      ∀ q m, q ≠ p → s.live q = some m → LiveOk kva (s.release p l).drv.nfgpuSkbs m := by
  rcases hI.release_alone hl halone with ⟨hk, hrel⟩ | ⟨i, hi, hrel⟩
  · simp only [System.release, hrel]
    exact ⟨hI.base, hI.running, hI.next_pos, fun q m _ hm => hI.live_ok q m hm⟩
  · simp only [System.release, hrel]
    refine ⟨hI.base, hI.running, hI.next_pos, fun q m hqp hm => ?_⟩
    refine (hI.live_ok q m hm).free hI.isBase fun hs => ?_
    obtain ⟨j, hj⟩ := (hI.live_ok q m hm).placed_of_swapped hs
    have hlin : InRange s.drv.nfgpuKva l.cur.head := by
      rw [hI.base]
      exact hi.inRange hI.isBase
    have hmin : InRange s.drv.nfgpuKva m.cur.head := by
      rw [hI.base]
      exact hj.inRange hI.isBase
    have hne := (halone l hl hlin).2 q m hqp hm hmin
    rwa [hI.base, hi.slotIndex_eq hI.isBase] at hne

/-- A release that is alone keeps the invariant: the count of a moved buffer goes from one to zero,
so the native routine frees its head.
Kind: L -/
theorem ShareInv.release (hI : ShareInv kva s) {p : ℕ} {l : LiveSkb} (hl : s.live p = some l)
    (halone : ReleasedAlone s (.release p)) : ShareInv kva (s.release p l) := by
  obtain ⟨hhead, hend⟩ := hI.handed_native hl halone
  obtain ⟨hbase, hrunning, hnext, hlive⟩ := hI.release_drv hl halone
  have hlog : (s.release p l).log = ⟨l.id, l.buf, (skbReleaseDataTogpu s.drv l.cur).2,
      (s.shinfo (skbReleaseDataTogpu s.drv l.cur).2.skbEnd).dataref - 1 = 0,
      s.bufs.length⟩ :: s.log := rfl
  refine ⟨hI.isBase, hbase, hrunning, hnext, ?_, ?_, ?_, ?_, ?_, ?_, ?_, ?_, ?_⟩
  · intro q m hm
    obtain ⟨hqp, hm⟩ := update_none_eq_some.mp hm
    exact hlive q m hqp hm
  · intro q m hm
    exact hI.ids q m (update_none_eq_some.mp hm).2
  · intro q r m n hm hn
    exact hI.apart q r m n (update_none_eq_some.mp hm).2 (update_none_eq_some.mp hn).2
  · intro q m hm hs
    obtain ⟨hqp, hm⟩ := update_none_eq_some.mp hm
    have hne := (hI.apart q p m l hm hl (hI.id_ne_of_alone hl halone hqp hm hs)).2
    rw [← hend] at hne
    exact (congrArg SkbSharedInfo.dataref (Function.update_of_ne hne _ _)).trans
      (hI.counted q m hm hs)
  · intro r hr
    rw [hlog] at hr
    rcases List.mem_cons.mp hr with rfl | hr
    · exact ⟨hI.id_lt hl, le_rfl⟩
    · exact hI.logged r hr
  · intro q m hm hs r hr
    obtain ⟨hqp, hm⟩ := update_none_eq_some.mp hm
    rw [hlog] at hr
    rcases List.mem_cons.mp hr with rfl | hr
    · exact (hI.id_ne_of_alone hl halone hqp hm hs).symm
    · exact hI.unlogged q m hm hs r hr
  · intro q m hm hs r hr hf heq
    obtain ⟨hqp, hm⟩ := update_none_eq_some.mp hm
    rw [hlog] at hr
    rcases List.mem_cons.mp hr with rfl | hr
    · have hne := (hI.apart q p m l hm hl (hI.id_ne_of_alone hl halone hqp hm hs)).1
      exact absurd (heq.symm.trans hhead) hne
    · exact hI.unfreed q m hm hs r hr hf heq
  · intro id b hbuf hs hgone
    simp only [System.freesOf, hlog]
    by_cases hid : l.id = id
    · -- the last owner leaves: this entry frees the head, and no older one is of `id`
      subst hid
      have hlb : l.buf = b := Option.some.inj ((hI.ids p l hl).symm.trans hbuf)
      subst hlb
      have hcount : (s.shinfo (skbReleaseDataTogpu s.drv l.cur).2.skbEnd).dataref = 1 := by
        rw [hend]
        exact hI.counted p l hl hs
      have hold : s.log.filter (fun r => r.id = l.id ∧ r.freed = true) = [] := by
        rw [List.filter_eq_nil_iff]
        intro r hr hc
        exact hI.unlogged p l hl hs r hr (of_decide_eq_true hc).1
      rw [List.filter_cons_of_pos (by simp [hcount]), hold]
      simp [hhead]
    · rw [freesOf_cons_of_ne hid]
      refine hI.freedOnce id b hbuf hs fun q m hm => ?_
      by_cases hqp : q = p
      · subst hqp
        rw [hl] at hm
        cases hm
        exact hid
      · exact hgone q m (update_none_eq_some.mpr ⟨hqp, hm⟩)
  · intro r hr
    rw [hlog] at hr
    rcases List.mem_cons.mp hr with rfl | hr
    · rw [hhead]
      exact (hI.live_ok p l hl).native.2
    · exact hI.native r hr

/-- **Every step whose releases are alone keeps the sharing invariant.**
Kind: P -/
theorem shareInv_step {e : Event} (hI : ShareInv kva s) (hok : KernelEvent s e)
    (halone : ReleasedAlone s e) (h : step s e = some s') : ShareInv kva s' := by
  cases e with
  | alloc p native nrFrags =>
      cases native with
      | none => exact hok.elim
      | some ret => exact hI.alloc hok h
  | adjust p data tail len =>
      obtain ⟨l, hl, rfl⟩ := step_adjust_cases h
      exact hI.adjust hl
  | clone p q =>
      obtain ⟨hq, l, hl, rfl⟩ := step_clone_cases h
      exact hI.clone hok hl hq
  | release p =>
      obtain ⟨l, hl, rfl⟩ := step_release_cases h
      exact hI.release hl halone
  | ioctl cmd env => exact hok.elim

/-- The inductive invariant gives the statement.
Kind: L -/
theorem ShareInv.sharingOk (hI : ShareInv kva s) : SharingOk kva s where
  assigned := by
    intro p l hl hin
    obtain ⟨i, hi⟩ := hI.placed_of_inRange hl hin
    rw [hi.slotIndex_eq hI.isBase, hi.entry]
  unfreed := by
    intro p l hl hin
    obtain ⟨i, hi⟩ := hI.placed_of_inRange hl hin
    exact hI.unfreed p l hl (hi.swapped hI.isBase (hI.live_ok p l hl).native)
  freedOnce := hI.freedOnce
  native := hI.native

/-- A release that is not alone breaks it: the native routine gets a pool address, or the slot is
free although another head is still in it.
Source: `xt_TOGPU_main.c` 289–313
Kind: L -/
theorem ShareInv.releasedAlone (hI : ShareInv kva s) {p : ℕ} {l : LiveSkb}
    (hl : s.live p = some l) (hok : SharingOk kva (s.release p l)) :
    ReleasedAlone s (.release p) := by
  intro k hk hin
  rw [hl] at hk
  cases hk
  rw [hI.base] at hin ⊢
  rcases (hI.live_ok p l hl).release_cases hI.isBase hI.base with ⟨-, hrel⟩ | ⟨i, hi, hyes, hrel⟩
  · obtain ⟨r, hr, hhanded⟩ : ∃ r ∈ (s.release p l).log,
        r.handed = (skbReleaseDataTogpu s.drv l.cur).2 := ⟨_, List.mem_cons_self, rfl⟩
    have hout := hok.native r hr
    rw [hhanded, hrel] at hout
    exact absurd hin hout
  · refine ⟨hyes, fun q m hqp hm hmin heq => ?_⟩
    have hentry := hok.assigned q m (update_none_eq_some.mpr ⟨hqp, hm⟩) hmin
    have hskbs : (s.release p l).drv.nfgpuSkbs = Function.update s.drv.nfgpuSkbs i 0 := by
      simp only [System.release, hrel]
    rw [hskbs, heq, hi.slotIndex_eq hI.isBase, Function.update_self] at hentry
    exact (hI.live_ok q m hm).native.1 hentry.symm

/-- What a step does to the property: it is kept iff the step is not a release, or one that is
alone.
Kind: L -/
theorem ShareInv.step_iff {e : Event} (hI : ShareInv kva s) (hok : KernelEvent s e)
    (h : step s e = some s') :
    (ReleasedAlone s e → ShareInv kva s') ∧ (SharingOk kva s' → ReleasedAlone s e) := by
  refine ⟨fun halone => shareInv_step hI hok halone h, fun hsharing => ?_⟩
  cases e with
  | release p =>
      obtain ⟨l, hl, rfl⟩ := step_release_cases h
      exact hI.releasedAlone hl hsharing
  | _ => trivial

/-- A clone of a buffer in the pool, then the release of the original: the slot is free although the
clone's head is still in it.
Source: `xt_TOGPU_main.c` 296–310
Kind: L -/
theorem ShareInv.not_sharingOk_of_clone (hI : ShareInv kva s) {p q : ℕ} {l : LiveSkb}
    (hl : s.live p = some l) (hq : s.live q = none) (hin : InRange kva l.cur.head)
    (hok : KernelEvent s (.clone p q)) :
    ∃ s', exec step s [.clone p q, .release p] = some s' ∧ ¬SharingOk kva s' := by
  have hpq : p ≠ q := ne_of_none_of_some hq hl
  have hclone := step_clone_of_live hl hq
  have hlive : (s.clone l q).live p = some l := (Function.update_of_ne hpq _ _).trans hl
  have hother : (s.clone l q).live q = some l := Function.update_self ..
  have hI' := shareInv_step hI hok trivial hclone
  refine ⟨_, exec_cons_eq_some.mpr ⟨_, hclone, exec_cons_eq_some.mpr
    ⟨_, step_release_of_live hlive, exec_nil _⟩⟩, fun hsharing => ?_⟩
  have hin' : InRange (s.clone l q).drv.nfgpuKva l.cur.head := by rwa [hI'.base]
  exact (hI'.releasedAlone hlive hsharing l hlive hin').2 q l hpq.symm hother hin' rfl

end share

/-- **Shared buffers survive partial release in every state of a run iff every `sk_buff` of the pool
is released alone**: at an address the hook's test recognises, and while no other `sk_buff` has its
head in the slot. Over all runs of allocations, clones, releases and moves of `data` and `tail`, at
any base `vmap` can return.
Source: `xt_TOGPU_main.c` 255–314
Kind: P
Fidelity: exact
Hyps: (a) `IsPoolBase kva`; (b) kernel events -/
theorem sharingOk_iff {kva : Addr} (hb : IsPoolBase kva) (npages : ℕ)
    (shinfo : Addr → SkbSharedInfo) {es : List Event} {s : System}
    (hes : Along step KernelEvent (System.runningPool kva npages shinfo) es)
    (hrun : exec step (System.runningPool kva npages shinfo) es = some s) :
    (∀ pre, pre <+: es → ∀ t, exec step (System.runningPool kva npages shinfo) pre = some t →
        SharingOk kva t) ↔
      Along step ReleasedAlone (System.runningPool kva npages shinfo) es :=
  forall_reached_iff_along_of_run (fun _ hI => hI.sharingOk)
    (fun _ _ _ hI hok h => hI.step_iff hok h) (shareInv_runningPool hb npages shinfo) hes hrun

/-- A fresh pool at the start of the `vmalloc` area.
Kind: D -/
def freshPool : System := System.runningPool 0xffffc90000000000 8192 fun _ => ⟨0, 0⟩

/-- The pool after a buffer of 1728 bytes was moved into slot 1.
Kind: D -/
def oneMoved : System :=
  freshPool.adopt 0
    { freshPool.drv with
      nfgpuSkbs := Function.update (fun _ => 0) 1 (nativeOfSize 1728).head, nfgpuNext := 1 }
    (nativeOfSize 1728) 0 (moveTo (slotAddr 0xffffc90000000000 1) (nativeOfSize 1728))

/-- It is the state after one allocation.
Kind: L -/
theorem step_oneMoved :
    step freshPool (.alloc 0 (some (nativeOfSize 1728)) 0) = some oneMoved ∧
      KernelEvent freshPool (.alloc 0 (some (nativeOfSize 1728)) 0) := by
  have hsize : (nativeOfSize 1728).skbEnd - (nativeOfSize 1728).head ≤ nfgpuSkbSize := by decide
  refine ⟨step_alloc_first 0xffffc90000000000 8192 (fun _ => ⟨0, 0⟩) 0 hsize, ?_, fun p l hl => ?_⟩
  · exact ⟨by decide, by decide⟩
  · cases hl

/-- Its only `sk_buff`.
Kind: L -/
theorem oneMoved_live {q : ℕ} {m : LiveSkb} (h : oneMoved.live q = some m) :
    q = 0 ∧ m.buf.native = nativeOfSize 1728 ∧
      m.cur = moveTo (slotAddr 0xffffc90000000000 1) (nativeOfSize 1728) := by
  rcases update_some_eq_some.mp h with ⟨rfl, rfl⟩ | ⟨-, h⟩
  · exact ⟨rfl, rfl, rfl⟩
  · cases h

/-- The base is one that `vmap` can return.
Kind: L -/
theorem isPoolBase_vmalloc : IsPoolBase 0xffffc90000000000 := by
  have hal : Aligned 0xffffc90000000000 := by decide
  exact hal.isPoolBase (by decide)

/-- A buffer of 1728 bytes is allocated, moved into slot 1, and released.
Kind: C -/
theorem sharingOk_alloc_release :
    ∃ s, exec step freshPool [.alloc 0 (some (nativeOfSize 1728)) 0, .release 0] = some s ∧
      SharingOk 0xffffc90000000000 s := by
  obtain ⟨halloc, hkernel⟩ := step_oneMoved
  have hrelease := step_release_of_live (System.adopt_live_self .. : oneMoved.live 0 = some _)
  have hrun := exec_cons_eq_some.mpr ⟨_, halloc, exec_cons_eq_some.mpr ⟨_, hrelease, exec_nil _⟩⟩
  refine ⟨_, hrun, (sharingOk_iff isPoolBase_vmalloc 8192 _ ?_ hrun).mpr ?_ _
    List.prefix_rfl _ hrun⟩
  · exact .cons hkernel halloc ⟨trivial, fun _ _ => trivial⟩
  · refine .cons trivial halloc ⟨fun l hl _ => ?_, fun _ _ => trivial⟩
    obtain ⟨-, -, hcur⟩ := oneMoved_live hl
    rw [hcur]
    exact ⟨by decide, fun q m hq hm => absurd (oneMoved_live hm).1 hq⟩

/-- A buffer in slot 1 is cloned and the original released: the slot is free under the clone.
Kind: C -/
theorem not_sharingOk_after_clone :
    ∃ s, exec step freshPool
        [.alloc 0 (some (nativeOfSize 1728)) 0, .clone 0 1, .release 0] = some s ∧
      Along step KernelEvent freshPool
        [.alloc 0 (some (nativeOfSize 1728)) 0, .clone 0 1, .release 0] ∧
      ¬SharingOk 0xffffc90000000000 s := by
  obtain ⟨halloc, hkernel⟩ := step_oneMoved
  have hI := shareInv_step (shareInv_runningPool isPoolBase_vmalloc 8192 _) hkernel trivial halloc
  have hclone : KernelEvent oneMoved (.clone 0 1) := by
    intro l hl _ q m hm
    obtain ⟨-, -, hl⟩ := oneMoved_live hl
    obtain ⟨-, hm, -⟩ := oneMoved_live hm
    rw [hm, hl]
    decide
  obtain ⟨s, hs, hbad⟩ := hI.not_sharingOk_of_clone (System.adopt_live_self ..) (q := 1) rfl
    (by decide) hclone
  refine ⟨s, exec_cons_eq_some.mpr ⟨_, halloc, hs⟩, .cons hkernel halloc ?_, hbad⟩
  exact ⟨hclone, fun _ _ => ⟨trivial, fun _ _ => trivial⟩⟩

end Togpu.Driver
