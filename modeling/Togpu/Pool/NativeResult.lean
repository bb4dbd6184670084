import Togpu.Pool.RoundTrip

/-!
# The native result

What the allocation hook makes of each result of the native allocator. The native allocator returns
`NULL` when memory is exhausted, and the hook is entered with that result too.

* `NextInTable` — `nfgpu_next` is an index of the table; it is in every state the system reaches
  (`nextInTable_of_run`).
* `RespectsNative` — `NULL` is passed on, a result that is not for the pool is returned as it is,
  and any other result takes one free entry of the table.
* **When it holds** (`respectsNative_iff`): exactly when the native allocator has returned a buffer
  or the driver is not running. The running driver reads `ret->end` before it looks at `ret`.
-/

namespace Togpu.Driver

open Togpu.Lib

/-! ## The search position -/

/-- The search starts inside the table, past the reserved entry.
Kind: D -/
def NextInTable (drv : Globals) : Prop := 1 ≤ drv.nfgpuNext ∧ drv.nfgpuNext < nfgpuMaxSkbs

section NextInTable

variable {s s' : System} {e : Event}

/-- An allocation leaves the search at the entry it took.
Kind: L -/
theorem NextInTable.alloc {p nrFrags : ℕ} {native : Option SkBuff} (h : NextInTable s.drv)
    (hstep : step s (.alloc p native nrFrags) = some s') : NextInTable s'.drv := by
  cases native with
  | none =>
      obtain ⟨-, rfl⟩ := step_alloc_null hstep
      exact h
  | some ret =>
      obtain ⟨-, ⟨-, rfl⟩ | ⟨-, -, -, i, hi, rfl⟩⟩ := step_alloc_cases hstep
      · exact h
      · exact ⟨findSlot_pos h.1 hi, (findSlot_ok hi).1⟩

/-- No command moves the search.
Kind: L -/
theorem NextInTable.ioctl {cmd : BitVec 32} {env : IoctlEnv} (h : NextInTable s.drv)
    (hstep : step s (.ioctl cmd env) = some s') : NextInTable s'.drv := by
  obtain ⟨-, -, -, rfl⟩ | ⟨-, -, rfl⟩ | ⟨-, rfl⟩ | ⟨-, rfl⟩ := step_ioctl_cases hstep
  · exact h
  · obtain ⟨list, npages, hdrv⟩ := ioctlSetBuffers_eq s.drv env
    simp only [hdrv]
    exact h
  · exact h
  · exact h

/-- A release clears an entry and leaves the search alone.
Kind: L -/
theorem NextInTable.release {p : ℕ} {l : LiveSkb} (h : NextInTable s.drv) :
    NextInTable (s.release p l).drv := by
  rcases skbReleaseDataTogpu_cases s.drv l.cur with heq | ⟨-, -, -, heq⟩
  · simp only [System.release, heq]
    exact h
  · simp only [System.release, heq]
    exact h

/-- **The search position stays in the table**, one step.
Kind: L -/
theorem nextInTable_step (h : NextInTable s.drv) (hstep : step s e = some s') :
    NextInTable s'.drv := by
  cases e with
  | alloc p native nrFrags => exact h.alloc hstep
  | adjust p data tail len =>
      obtain ⟨l, -, rfl⟩ := step_adjust_cases hstep
      exact h
  | clone p q =>
      obtain ⟨-, l, -, rfl⟩ := step_clone_cases hstep
      exact h
  | release p =>
      obtain ⟨l, -, rfl⟩ := step_release_cases hstep
      exact h.release
  | ioctl cmd env => exact h.ioctl hstep

/-- **The search position stays in the table**, whatever happens after module init.
Kind: P -/
theorem nextInTable_of_run {shinfo : Addr → SkbSharedInfo} {es : List Event}
    (hrun : exec step (System.boot shinfo) es = some s) : NextInTable s.drv := by
  have hboot : NextInTable nfgpuInternalInit := ⟨by decide, by decide⟩
  have hany : Along step (fun _ _ => True) (System.boot shinfo) es :=
    along_of_forall (fun _ _ _ => trivial) _
  exact exec_invariant (I := fun s => NextInTable s.drv)
    (fun _ _ _ h _ hstep => nextInTable_step h hstep) hboot hany hrun

end NextInTable

/-! ## The native result -/

/-- The entry `i` of the table goes from free to `head`, and no other entry changes.
Kind: D -/
def TakesEntry (skbs skbs' : BitVec 64 → Addr) (i : BitVec 64) (head : Addr) : Prop :=
  i < nfgpuMaxSkbs ∧ skbs i = 0 ∧ skbs' i = head ∧ ∀ j, j ≠ i → skbs' j = skbs j

/-- No field but `head`, `data`, `tail` and `end` differs.
Kind: D -/
def OnlyPointers (ret skb : SkBuff) : Prop :=
  skb = { ret with head := skb.head, data := skb.data, tail := skb.tail, skbEnd := skb.skbEnd }

/-- The hook respects the native result. A result is for the pool when the driver is running and
finds it `eligible`.
Source: `xt_TOGPU_main.c` 235–277
Kind: D -/
def RespectsNative (drv : Globals) (shinfo : Addr → SkbSharedInfo) : Option SkBuff → Prop
  | none => netdevAllocSkbTogpu drv shinfo none = .ok (drv, none)
  | some ret =>
      if drv.nfgpuRunning = true ∧ eligible shinfo ret then
        ∃ drv' skb, netdevAllocSkbTogpu drv shinfo (some ret) = .ok (drv', some skb) ∧
          (∃ i, TakesEntry drv.nfgpuSkbs drv'.nfgpuSkbs i ret.head) ∧ OnlyPointers ret skb
      else netdevAllocSkbTogpu drv shinfo (some ret) = .ok (drv, some ret)

section NativeResult

variable {drv : Globals} {shinfo : Addr → SkbSharedInfo}

/-- A result for the pool takes the entry the search finds.
Kind: L -/
theorem respectsNative_some (hnext : NextInTable drv) (hfree : FreeSlot drv) (ret : SkBuff) :
    RespectsNative drv shinfo (some ret) := by
  simp only [RespectsNative]
  split_ifs with hpool
  · obtain ⟨i, hi⟩ := hfree.exists_findSlot hnext.1 hnext.2
    obtain ⟨hlt, hzero⟩ := findSlot_ok hi
    refine ⟨_, _, netdevAllocSkbTogpu_of_found hpool.1 hpool.2 hi, ⟨i, hlt, hzero, ?_, ?_⟩, rfl⟩
    · exact Function.update_self ..
    · intro j hj
      exact Function.update_of_ne hj ..
  · exact netdevAllocSkbTogpu_of_not_eligible hpool

/-- `NULL` is passed on by a driver that is not running, and only by that.
Kind: L -/
theorem respectsNative_none : RespectsNative drv shinfo none ↔ drv.nfgpuRunning = false := by
  unfold RespectsNative netdevAllocSkbTogpu
  cases drv.nfgpuRunning with
  | false => exact iff_of_true rfl rfl
  | true => exact iff_of_false nofun nofun

/-- **The hook respects the native result exactly when that is a buffer or the driver is not
running.**
Source: `xt_TOGPU_main.c` 247–251
Kind: C -/
theorem respectsNative_iff (hnext : NextInTable drv) (hfree : FreeSlot drv)
    (native : Option SkBuff) :
    RespectsNative drv shinfo native ↔ native ≠ none ∨ drv.nfgpuRunning = false := by
  cases native with
  | none =>
      rw [respectsNative_none]
      simp
  | some ret => exact iff_of_true (respectsNative_some hnext hfree ret) (.inl nofun)

end NativeResult

/-- The driver after `START`, with an empty table.
Kind: D -/
def startedEmpty : Globals := { nfgpuInternalInit with nfgpuRunning := true }

/-- The search starts in the table.
Kind: L -/
theorem nextInTable_startedEmpty : NextInTable startedEmpty := ⟨by decide, by decide⟩

/-- Slot 1 is free.
Kind: L -/
theorem freeSlot_startedEmpty : FreeSlot startedEmpty := ⟨1, by decide, by decide, rfl⟩

/-- A buffer of 1728 bytes is moved by the running driver as it should be.
Kind: C -/
theorem respectsNative_startedEmpty :
    NextInTable startedEmpty ∧ FreeSlot startedEmpty ∧
      RespectsNative startedEmpty (fun _ => ⟨0, 1⟩) (some (nativeOfSize 1728)) :=
  ⟨nextInTable_startedEmpty, freeSlot_startedEmpty,
    (respectsNative_iff nextInTable_startedEmpty freeSlot_startedEmpty _).2 (.inl nofun)⟩

/-- When the native allocator has no memory the running driver reads through its `NULL`.
Kind: C -/
theorem not_respectsNative_null :
    NextInTable startedEmpty ∧ FreeSlot startedEmpty ∧
      netdevAllocSkbTogpu startedEmpty (fun _ => ⟨0, 1⟩) none = .error .nullDeref ∧
      ¬ RespectsNative startedEmpty (fun _ => ⟨0, 1⟩) none := by
  refine ⟨nextInTable_startedEmpty, freeSlot_startedEmpty, rfl, ?_⟩
  rw [respectsNative_none]
  exact nofun

end Togpu.Driver
