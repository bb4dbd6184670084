import Togpu.Pool.Slots

/-!
# The slot pool: invariant and round trip

The statement of what the table is for, over every finite sequence of allocations and releases of
buffers that are not cloned, at a base aligned to the window of the mask test.

* `SlotPoolInvariant` — the table is exactly the record of the live moved buffers, each in a slot
  of its own; whatever the hook does not move keeps its native pointers; every release has handed
  the native routine the head the native allocator returned.
* `PoolCall` — the calls of such a sequence: the native result is a buffer outside the pool, and
  if it is to be moved a slot is free.
* **The invariant holds after every step, and every call returns**
  (`slotPoolInvariant_of_run`). That the native head is not already in use is not needed.
-/

namespace Togpu.Driver

open Togpu.Lib

/-- The slot pool does its job in state `s`.
Kind: D -/
structure SlotPoolInvariant (kva : Addr) (s : System) : Prop where
  /-- The search starts inside the table and not at the mailbox. -/
  next : 1 ≤ s.drv.nfgpuNext ∧ s.drv.nfgpuNext < nfgpuMaxSkbs
  /-- Slot 0 is never assigned. -/
  mailbox : s.drv.nfgpuSkbs 0 = 0
  /-- Two live swapped `sk_buff`s never share a slot. -/
  distinct : ∀ p q l m, p ≠ q → s.live p = some l → s.live q = some m →
    l.buf.Swapped → m.buf.Swapped → slotIndex kva l.cur.head ≠ slotIndex kva m.cur.head
  /-- The nonzero entries are the native heads of the live swapped `sk_buff`s, at their slots. -/
  entries : ∀ i, i < nfgpuMaxSkbs → ∀ head, head ≠ 0 →
    (s.drv.nfgpuSkbs i = head ↔ ∃ p l, s.live p = some l ∧ l.buf.Swapped ∧
      slotIndex kva l.cur.head = i ∧ l.buf.native.head = head)
  /-- An `sk_buff` with fragments, or too large, keeps its native pointers; `data` and `tail` are
  the stack's to move. -/
  kept : ∀ p l, s.live p = some l →
    l.buf.nrFrags ≠ 0 ∨ nfgpuSkbSize < l.buf.native.skbEnd - l.buf.native.head →
    l.buf.given = l.buf.native ∧ l.cur.head = l.buf.native.head ∧
      l.cur.skbEnd = l.buf.native.skbEnd
  /-- Every other one is in a slot from 1 on. -/
  moved : ∀ p l, s.live p = some l → l.buf.nrFrags = 0 →
    l.buf.native.skbEnd - l.buf.native.head ≤ nfgpuSkbSize →
    l.buf.Swapped ∧ ∃ i, 1 ≤ i ∧ i < nfgpuMaxSkbs ∧ l.cur.head = slotAddr kva i
  /-- Every release handed the native routine the head the native allocator returned. -/
  handed : ∀ r ∈ s.log, r.handed.head = r.buf.native.head

/-- A slot is free.
Kind: D -/
def FreeSlot (drv : Globals) : Prop := ∃ i, 1 ≤ i ∧ i < nfgpuMaxSkbs ∧ drv.nfgpuSkbs i = 0

/-- The calls of a pool run: allocations with a buffer as native result and a slot for it if it is
to be moved, the stack moving `data` and `tail`, releases of live `sk_buff`s.
Kind: D -/
def PoolCall (s : System) : Event → Prop
  | .alloc p (some ret) nrFrags =>
      s.live p = none ∧ NativeOk s.drv.nfgpuKva ret ∧ (Movable ret nrFrags → FreeSlot s.drv)
  | .adjust p _ _ _ => (s.live p).isSome
  | .release p => (s.live p).isSome
  | _ => False

section roundTrip

variable {kva : Addr} {s : System}

/-- A pool call is a pool event.
Kind: L -/
theorem PoolCall.poolEvent {e : Event} (h : PoolCall s e) : PoolEvent s e := by
  cases e with
  | alloc p native nrFrags =>
      cases native with
      | none => exact h.elim
      | some ret => exact h.2.1
  | adjust p data tail len => trivial
  | clone p q => exact h.elim
  | release p => trivial
  | ioctl cmd env => exact h.elim

/-- The search of a pool with a free slot ends, wherever it starts.
Source: `xt_TOGPU_main.c` 255–260
Kind: L -/
theorem FreeSlot.exists_findSlot {drv : Globals} (hfree : FreeSlot drv)
    (hnpos : 1 ≤ drv.nfgpuNext) (hnlt : drv.nfgpuNext < nfgpuMaxSkbs) :
    ∃ i, findSlot drv.nfgpuSkbs nfgpuMaxSkbs.toNat drv.nfgpuNext = .ok i := by
  obtain ⟨i, hpos, hlt, hz⟩ := hfree
  refine Togpu.Driver.exists_findSlot hpos hlt hz hnlt ?_
  simp only [BitVec.lt_def, BitVec.le_def, nfgpuMaxSkbs_toNat] at *
  unfold rounds
  have hone : (1 : BitVec 64).toNat = 1 := rfl
  split_ifs with hle
  · omega
  · rw [BitVec.le_def] at hle
    omega

/-- Every pool call returns.
Kind: L -/
theorem SlotInv.step_isSome (hI : SlotInv kva s) {e : Event} (hok : PoolCall s e) :
    ∃ s', step s e = some s' := by
  cases e with
  | alloc p native nrFrags =>
      cases native with
      | none => exact hok.elim
      | some ret =>
          obtain ⟨hlive, -, hfree⟩ := hok
          by_cases hmov : Movable ret nrFrags
          · obtain ⟨i, hi⟩ := (hfree hmov).exists_findSlot hI.next_pos hI.next_lt
            exact ⟨_, step_alloc_of_found hlive hI.running hmov.1 hmov.2 hi⟩
          · exact ⟨_, step_alloc_of_kept hlive fun hc => hmov hc.2⟩
  | adjust p data tail len =>
      obtain ⟨l, hl⟩ := Option.isSome_iff_exists.mp hok
      exact ⟨s.adjust p l data tail len, by simp [step, hl]⟩
  | clone p q => exact hok.elim
  | release p =>
      obtain ⟨l, hl⟩ := Option.isSome_iff_exists.mp hok
      exact ⟨s.release p l, step_release_of_live hl⟩
  | ioctl cmd env => exact hok.elim

/-- The inductive invariant gives the statement.
Kind: L -/
theorem PoolInv.slotPoolInvariant (hb : IsPoolBase kva) (hI : PoolInv kva s) :
    SlotPoolInvariant kva s where
  next := ⟨hI.next_pos, hI.next_lt⟩
  mailbox := hI.zero_free
  distinct := hI.distinct
  entries := by
    intro i hi head hhead
    constructor
    · intro hentry
      obtain ⟨p, l, hl, hpl⟩ := hI.entry_live i hi (by rw [hentry]; exact hhead)
      exact ⟨p, l, hl, hpl.swapped hb (hI.live_ok p l hl).native, hpl.slotIndex_eq hb,
        hpl.entry.symm.trans hentry⟩
    · rintro ⟨p, l, hl, hs, hidx, hnat⟩
      obtain ⟨j, hj⟩ := (hI.live_ok p l hl).placed_of_swapped hs
      rw [← hidx, hj.slotIndex_eq hb, hj.entry, hnat]
  kept := by
    intro p l hl hno
    rcases (hI.live_ok p l hl).place with hk | ⟨i, hi⟩
    · exact ⟨hk.given, hk.head, hk.skbEnd⟩
    · rcases hno with hfr | hsz
      · exact absurd hi.movable.1 hfr
      · exact absurd hi.movable.2 (BitVec.not_le.mpr hsz)
  moved := by
    intro p l hl hfr hsz
    rcases (hI.live_ok p l hl).place with hk | ⟨i, hi⟩
    · exact absurd ⟨hfr, hsz⟩ hk.not_movable
    · exact ⟨hi.swapped hb (hI.live_ok p l hl).native, i, hi.pos, hi.lt, hi.head⟩
  handed := fun r hr => (hI.handed r hr).1

end roundTrip

/-- **Slot-pool invariant and round trip.** From a fresh running pool at an aligned base, every
finite sequence of pool calls runs to its end, and the pool does its job in the state it reaches
(hence after every step: prefixes of such a sequence are such sequences).
Source: `xt_TOGPU_main.c` 235–314, 597–605
Kind: P
Fidelity: exact
Hyps: (a) `kva ≠ 0`, `Aligned kva`; (b) every event is a `PoolCall` -/
theorem slotPoolInvariant_of_run {kva : Addr} (hne : kva ≠ 0) (hal : Aligned kva) (npages : ℕ)
    (shinfo : Addr → SkbSharedInfo) (es : List Event)
    (hcalls : Along step PoolCall (System.runningPool kva npages shinfo) es) :
    ∃ s, exec step (System.runningPool kva npages shinfo) es = some s ∧
      SlotPoolInvariant kva s := by
  have hb := hal.isPoolBase hne
  have hstep : ∀ s e, PoolInv kva s → PoolCall s e →
      ∃ s', step s e = some s' ∧ PoolInv kva s' := by
    intro s e hI hcall
    obtain ⟨s', hs'⟩ := hI.toSlotInv.step_isSome hcall
    exact ⟨s', hs', poolInv_step hb hal hI hcall.poolEvent hs'⟩
  obtain ⟨s, hrun, hI⟩ := exec_progress hstep (poolInv_runningPool kva npages shinfo) hcalls
  exact ⟨s, hrun, hI.slotPoolInvariant hb⟩

/-- A buffer of 2 KB is allocated, moved into slot 1, and released.
Kind: C -/
theorem slotPoolInvariant_alloc_release :
    ∃ s, exec step (System.runningPool 0xffffc90000000000 8192 fun _ => ⟨0, 0⟩)
        [.alloc 0 (some ⟨0xffff880012340000, 0xffff880012340040, 0xffff880012340040,
            0xffff880012340800, 0⟩) 0,
          .release 0] = some s ∧
      SlotPoolInvariant 0xffffc90000000000 s := by
  refine slotPoolInvariant_of_run (by decide) (by decide) _ _ _ ⟨⟨rfl, ?_, fun _ => ?_⟩, ?_⟩
  · exact ⟨by decide, by decide⟩
  · exact ⟨1, by decide, by decide, rfl⟩
  · intro s hs
    obtain ⟨-, ⟨-, rfl⟩ | ⟨-, -, -, i, -, rfl⟩⟩ := step_alloc_cases hs <;>
      exact ⟨rfl, fun _ _ => trivial⟩

end Togpu.Driver
