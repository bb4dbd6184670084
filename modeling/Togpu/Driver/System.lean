import Togpu.Lib.Run
import Togpu.Driver.Hooks
import Togpu.Driver.Ioctl

/-!
# The driver inside the kernel

The state the driver's entry points share with the kernel, and one transition for each way the
kernel or user space can enter the driver or touch the buffers it has handed out.

* `Buf` — one native allocation: what the native allocator returned, with how many fragments, and
  what the hook passed on. A history record: nothing in the driver reads it.
* `LiveSkb` — an `sk_buff` in use: the allocation its buffer comes from and its current pointers.
* `Released` — one entry of the native release routine.
* `System` — the globals, the shared infos in memory, the kernel's `vmap` regions, and the above.
* `Event`, `step` — `alloc` (native allocator, then the hook), `adjust` (the stack moves `data` and
  `tail`), `clone`, `release` (the hook, then the native routine) and `ioctl`. `none` is a call
  that does not return, or an event that cannot happen.

The kernel's own operations are the documented ones: the native allocator initialises the shared
info at the end of the buffer it returns with a reference count of one; a clone copies the
pointers and increments the count it finds at its `end`; the native release routine decrements the
count it finds at the `end` it is given and frees the head it is given when that reaches zero.
-/

namespace Togpu.Driver

/-! ## State -/

/-- One native allocation.
Kind: D -/
structure Buf where
  /-- The result of the native allocator. -/
  native : SkBuff
  /-- Its fragment count. -/
  nrFrags : ℕ
  /-- The result of the hook. -/
  given : SkBuff
  deriving DecidableEq, Repr

/-- The hook moved the buffer away from its native head.
Kind: D -/
def Buf.Swapped (b : Buf) : Prop := b.given.head ≠ b.native.head

instance (b : Buf) : Decidable b.Swapped := inferInstanceAs (Decidable (_ ≠ _))

/-- An `sk_buff` in use.
Kind: D -/
structure LiveSkb where
  /-- The number of the allocation its buffer comes from. -/
  id : ℕ
  /-- That allocation. -/
  buf : Buf
  /-- Its current fields. -/
  cur : SkBuff
  deriving DecidableEq, Repr

/-- One entry of the native release routine.
Kind: D -/
structure Released where
  /-- The number of the allocation the released `sk_buff` comes from. -/
  id : ℕ
  /-- That allocation. -/
  buf : Buf
  /-- The `sk_buff` the routine was entered with. -/
  handed : SkBuff
  /-- Whether the routine freed its head. -/
  freed : Bool
  /-- How many allocations there had been. -/
  seq : ℕ
  deriving DecidableEq, Repr

/-- The driver and the part of the kernel it works on.
Kind: D -/
structure System where
  /-- The module's globals. -/
  drv : Globals
  /-- The shared info at each address. -/
  shinfo : Addr → SkbSharedInfo
  /-- The `vmap` regions that have not been unmapped. -/
  maps : List Mapping
  /-- Every native allocation so far. -/
  bufs : List Buf
  /-- The `sk_buff`s in use, by handle. -/
  live : ℕ → Option LiveSkb
  /-- The entries of the native release routine, newest first. -/
  log : List Released

/-- The system after module init, before any allocation.
Kind: D -/
def System.boot (shinfo : Addr → SkbSharedInfo) : System where
  drv := nfgpuInternalInit
  shinfo := shinfo
  maps := []
  bufs := []
  live := fun _ => none
  log := []

/-- A running pool of `npages` pages at `kva` with nothing allocated from it: the table is zero
and the search starts at slot 1, as `nfgpu_internal_init` leaves them.
Kind: D -/
def System.runningPool (kva : Addr) (npages : ℕ) (shinfo : Addr → SkbSharedInfo) : System :=
  { System.boot shinfo with
    drv := { nfgpuInternalInit with nfgpuRunning := true, nfgpuKva := kva }
    maps := [⟨kva, npages⟩] }

/-! ## Transitions -/

/-- What can happen. Handles name `sk_buff` structures.
Kind: D -/
inductive Event where
  /-- The allocation hook runs; the native allocator returns `native` with `nrFrags` fragments,
  as the `sk_buff` with handle `p`. -/
  | alloc (p : ℕ) (native : Option SkBuff) (nrFrags : ℕ)
  /-- The stack moves `data` and `tail` and sets the length. -/
  | adjust (p : ℕ) (data tail : Addr) (len : BitVec 32)
  /-- The `sk_buff` `q` becomes a clone of `p`. -/
  | clone (p q : ℕ)
  /-- The release hook runs on `p`, which is then gone. -/
  | release (p : ℕ)
  /-- User space issues a command. -/
  | ioctl (cmd : BitVec 32) (env : IoctlEnv)

/-- The result `skb` of an allocation with native result `ret` comes into use under handle `p`.
Kind: D -/
def System.adopt (s : System) (p : ℕ) (drv : Globals) (ret : SkBuff) (nrFrags : ℕ)
    (skb : SkBuff) : System :=
  { s with
    drv := drv
    shinfo := Function.update s.shinfo ret.skbEnd ⟨nrFrags, 1⟩
    bufs := s.bufs ++ [⟨ret, nrFrags, skb⟩]
    live := Function.update s.live p (some ⟨s.bufs.length, ⟨ret, nrFrags, skb⟩, skb⟩) }

/-- Allocation: the native allocator writes its shared info, then the hook decides.
Source: `xt_TOGPU_main.c` 235–277
Kind: D -/
def System.alloc (s : System) (p : ℕ) (native : Option SkBuff) (nrFrags : ℕ) : Option System :=
  match native with
  | none =>
      match netdevAllocSkbTogpu s.drv s.shinfo none with
      | .ok (drv, _) => some { s with drv := drv }
      | .error _ => none
  | some ret =>
      let shinfo := Function.update s.shinfo ret.skbEnd ⟨nrFrags, 1⟩
      match netdevAllocSkbTogpu s.drv shinfo (some ret) with
      | .ok (drv, some skb) => some (s.adopt p drv ret nrFrags skb)
      | _ => none

/-- The stack moves `data` and `tail` inside the buffer and sets the length.
Kind: D -/
def System.adjust (s : System) (p : ℕ) (l : LiveSkb) (data tail : Addr) (len : BitVec 32) :
    System :=
  let cur := { l.cur with data := data, tail := tail, len := len }
  { s with live := Function.update s.live p (some { l with cur := cur }) }

/-- A clone: the pointers are copied and the count at `end` is incremented.
Kind: D -/
def System.clone (s : System) (l : LiveSkb) (q : ℕ) : System :=
  let info := s.shinfo l.cur.skbEnd
  { s with
    shinfo := Function.update s.shinfo l.cur.skbEnd { info with dataref := info.dataref + 1 }
    live := Function.update s.live q (some l) }

/-- Release: the hook, then the native routine on what the hook hands it.
Source: `xt_TOGPU_main.c` 279–314
Kind: D -/
def System.release (s : System) (p : ℕ) (l : LiveSkb) : System :=
  let (drv, handed) := skbReleaseDataTogpu s.drv l.cur
  let info := s.shinfo handed.skbEnd
  { s with
    drv := drv
    shinfo := Function.update s.shinfo handed.skbEnd { info with dataref := info.dataref - 1 }
    live := Function.update s.live p none
    log := ⟨l.id, l.buf, handed, info.dataref - 1 = 0, s.bufs.length⟩ :: s.log }

/-- A command: the driver's part, then what it asked of the kernel's mappings.
Source: `xt_TOGPU_main.c` 467–517
Kind: D -/
def System.ioctl (s : System) (cmd : BitVec 32) (env : IoctlEnv) : System :=
  let out := nfgpuIoctl s.drv cmd env
  let kept := match out.unmapped with
    | some a => s.maps.filter fun m => m.base ≠ a
    | none => s.maps
  { s with drv := out.drv, maps := kept ++ out.mapped.toList }

/-- One transition. An allocation and a clone need a handle that is not in use; the other events
on a buffer need one that is.
Kind: D -/
def step (s : System) : Event → Option System
  | .alloc p native nrFrags => if (s.live p).isSome then none else s.alloc p native nrFrags
  | .adjust p data tail len => (s.live p).map fun l => s.adjust p l data tail len
  | .clone p q => if (s.live q).isSome then none else (s.live p).map fun l => s.clone l q
  | .release p => (s.live p).map fun l => s.release p l
  | .ioctl cmd env => some (s.ioctl cmd env)

/-! ## What a step does to the system -/

/-- The step of a release.
Kind: L -/
theorem step_release_of_live {s : System} {p : ℕ} {l : LiveSkb} (hl : s.live p = some l) :
    step s (.release p) = some (s.release p l) := by
  simp [step, hl]

/-- The step of a clone.
Kind: L -/
theorem step_clone_of_live {s : System} {p q : ℕ} {l : LiveSkb} (hl : s.live p = some l)
    (hq : s.live q = none) : step s (.clone p q) = some (s.clone l q) := by
  simp [step, hl, hq]

/-- What a move of `data` and `tail` does.
Kind: L -/
theorem step_adjust_cases {s s' : System} {p : ℕ} {data tail : Addr} {len : BitVec 32}
    (h : step s (.adjust p data tail len) = some s') :
    ∃ l, s.live p = some l ∧ s' = s.adjust p l data tail len := by
  obtain ⟨l, hl, rfl⟩ := Option.map_eq_some_iff.mp h
  exact ⟨l, hl, rfl⟩

/-- What a clone does.
Kind: L -/
theorem step_clone_cases {s s' : System} {p q : ℕ} (h : step s (.clone p q) = some s') :
    s.live q = none ∧ ∃ l, s.live p = some l ∧ s' = s.clone l q := by
  simp only [step] at h
  split_ifs at h with hq
  obtain ⟨l, hl, rfl⟩ := Option.map_eq_some_iff.mp h
  exact ⟨Option.not_isSome_iff_eq_none.mp hq, l, hl, rfl⟩

/-- What a release does.
Kind: L -/
theorem step_release_cases {s s' : System} {p : ℕ} (h : step s (.release p) = some s') :
    ∃ l, s.live p = some l ∧ s' = s.release p l := by
  obtain ⟨l, hl, rfl⟩ := Option.map_eq_some_iff.mp h
  exact ⟨l, hl, rfl⟩

/-- The buffer that has just come into use.
Kind: L -/
@[simp] theorem System.adopt_live_self (s : System) (p : ℕ) (drv : Globals) (ret : SkBuff)
    (nrFrags : ℕ) (skb : SkBuff) :
    (s.adopt p drv ret nrFrags skb).live p =
      some ⟨s.bufs.length, ⟨ret, nrFrags, skb⟩, skb⟩ :=
  Function.update_self ..

/-- The eligibility test on the shared info the native allocator has just written.
Kind: L -/
theorem eligible_update_iff (shinfo : Addr → SkbSharedInfo) (ret : SkBuff) (nrFrags : ℕ)
    (dataref : ℤ) :
    eligible (Function.update shinfo ret.skbEnd ⟨nrFrags, dataref⟩) ret ↔
      nrFrags = 0 ∧ ret.skbEnd - ret.head ≤ nfgpuSkbSize := by
  simp [eligible]

/-- **What an allocation that returns does**: the result comes into use, either as the native
allocator returned it with the driver unchanged, or moved to the free slot the search found.
Source: `xt_TOGPU_main.c` 235–277
Kind: P -/
theorem step_alloc_cases {s s' : System} {p : ℕ} {ret : SkBuff} {nrFrags : ℕ}
    (h : step s (.alloc p (some ret) nrFrags) = some s') :
    s.live p = none ∧
      ((¬(s.drv.nfgpuRunning = true ∧ nrFrags = 0 ∧ ret.skbEnd - ret.head ≤ nfgpuSkbSize) ∧
        s' = s.adopt p s.drv ret nrFrags ret) ∨
      (s.drv.nfgpuRunning = true ∧ nrFrags = 0 ∧ ret.skbEnd - ret.head ≤ nfgpuSkbSize ∧ ∃ i,
        findSlot s.drv.nfgpuSkbs nfgpuMaxSkbs.toNat s.drv.nfgpuNext = .ok i ∧
        s' = s.adopt p { s.drv with
            nfgpuSkbs := Function.update s.drv.nfgpuSkbs i ret.head, nfgpuNext := i }
          ret nrFrags (moveTo (slotAddr s.drv.nfgpuKva i) ret))) := by
  simp only [step, System.alloc] at h
  split_ifs at h with hlive
  refine ⟨Option.not_isSome_iff_eq_none.mp hlive, ?_⟩
  split at h
  · rename_i drv skb hok
    cases h
    rcases netdevAllocSkbTogpu_cases hok with ⟨hno, rfl, hr⟩ | ⟨hrun, hel, i, hi, rfl, hr⟩
    · cases hr
      rw [eligible_update_iff] at hno
      exact .inl ⟨hno, rfl⟩
    · cases hr
      rw [eligible_update_iff] at hel
      exact .inr ⟨hrun, hel.1, hel.2, i, hi, rfl⟩
  · cases h

/-- A native allocator that returns `NULL` leaves everything as it is, if the hook returns at all.
Source: `xt_TOGPU_main.c` 245–249
Kind: L -/
theorem step_alloc_null {s s' : System} {p nrFrags : ℕ}
    (h : step s (.alloc p none nrFrags) = some s') : s.live p = none ∧ s' = s := by
  simp only [step, System.alloc, netdevAllocSkbTogpu] at h
  split_ifs at h with hlive hrun
  rw [Option.some.injEq] at h
  exact ⟨Option.not_isSome_iff_eq_none.mp hlive, h.symm⟩

/-- The step of an allocation that moves nothing.
Kind: L -/
theorem step_alloc_of_kept {s : System} {p : ℕ} {ret : SkBuff} {nrFrags : ℕ}
    (hlive : s.live p = none)
    (hno : ¬(s.drv.nfgpuRunning = true ∧ nrFrags = 0 ∧ ret.skbEnd - ret.head ≤ nfgpuSkbSize)) :
    step s (.alloc p (some ret) nrFrags) = some (s.adopt p s.drv ret nrFrags ret) := by
  rw [← eligible_update_iff s.shinfo ret nrFrags 1] at hno
  simp [step, System.alloc, hlive, netdevAllocSkbTogpu_of_not_eligible hno]

/-- The step of an allocation whose search ends at slot `i`.
Kind: L -/
theorem step_alloc_of_found {s : System} {p : ℕ} {ret : SkBuff} {nrFrags : ℕ} {i : BitVec 64}
    (hlive : s.live p = none) (hrun : s.drv.nfgpuRunning = true) (hfr : nrFrags = 0)
    (hsz : ret.skbEnd - ret.head ≤ nfgpuSkbSize)
    (hi : findSlot s.drv.nfgpuSkbs nfgpuMaxSkbs.toNat s.drv.nfgpuNext = .ok i) :
    step s (.alloc p (some ret) nrFrags) =
      some (s.adopt p { s.drv with
          nfgpuSkbs := Function.update s.drv.nfgpuSkbs i ret.head, nfgpuNext := i }
        ret nrFrags (moveTo (slotAddr s.drv.nfgpuKva i) ret)) := by
  have hel := (eligible_update_iff s.shinfo ret nrFrags 1).mpr ⟨hfr, hsz⟩
  simp [step, System.alloc, hlive, netdevAllocSkbTogpu_of_found hrun hel hi]

/-- **What a command does to the system**: nothing, a new base with its mapping if `vmap`
succeeded, the flag set, or the flag cleared and the mapping at the base gone.
Source: `xt_TOGPU_main.c` 467–517
Kind: P -/
theorem step_ioctl_cases {s s' : System} {cmd : BitVec 32} {env : IoctlEnv}
    (h : step s (.ioctl cmd env) = some s') :
    (cmd ≠ togpuIoctlStart ∧ cmd ≠ togpuIoctlStop ∧
        (cmd = togpuIoctlSetBuffers → env.accessOk = false) ∧ s' = s) ∨
      (cmd = togpuIoctlSetBuffers ∧ env.accessOk = true ∧
        s' = { s with
          drv := (ioctlSetBuffers s.drv env).drv
          maps := if env.vmap = 0 then s.maps
            else s.maps ++ [⟨env.vmap, env.walked.length⟩] }) ∨
      (cmd = togpuIoctlStart ∧ s' = { s with drv := { s.drv with nfgpuRunning := true } }) ∨
      (cmd = togpuIoctlStop ∧
        s' = { s with
          drv := { s.drv with nfgpuRunning := false }
          maps := if s.drv.nfgpuRunning = true ∧ s.drv.nfgpuKva ≠ 0
            then s.maps.filter fun m => m.base ≠ s.drv.nfgpuKva else s.maps }) := by
  simp only [step, Option.some.injEq] at h
  subst h
  have heff := nfgpuIoctl_effect s.drv cmd env
  unfold System.ioctl
  generalize nfgpuIoctl s.drv cmd env = out at heff
  cases heff with
  | none err hstart hstop hset => exact .inl ⟨hstart, hstop, hset, by simp [ioctlReturn]⟩
  | setBuffers hcmd hacc =>
      refine .inr (.inl ⟨hcmd, hacc, ?_⟩)
      unfold ioctlSetBuffers
      split_ifs <;> simp
  | start hcmd => exact .inr (.inr (.inl ⟨hcmd, by simp [ioctlStart, ioctlReturn]⟩))
  | stop hcmd =>
      refine .inr (.inr (.inr ⟨hcmd, ?_⟩))
      unfold ioctlStop
      split_ifs <;> simp

end Togpu.Driver
