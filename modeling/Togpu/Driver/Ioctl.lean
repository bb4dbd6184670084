import Togpu.Driver.Types

/-!
# The device's commands

`nfgpu_ioctl` and, below it, `nfgpu_set_mempool`. What the kernel supplies during a call is an
argument, `IoctlEnv`: the verdict of `access_ok`, the `struct nfgpu_mem_info` left in the local
`gb` (the result of `copy_from_user` is not looked at), the pages the page-table walk hands to the
`pte` callback, and the address `vmap` returns.

What the call does to the kernel's mappings is part of the result, `IoctlOut`: the region that
`vmap` established, and the address `vunmap` was called with.
-/

namespace Togpu.Driver

/-! ## Command numbers -/

/-- `_IOC(dir, type, nr, size)` of the x86 kernel.
Source: `xt_TOGPU.h` 36–39
Kind: D -/
def ioc (dir type nr size : ℕ) : BitVec 32 :=
  BitVec.ofNat 32 (dir <<< 30 ||| size <<< 16 ||| type <<< 8 ||| nr)

/-- `_IOC_DIR`.
Kind: D -/
def iocDir (cmd : BitVec 32) : ℕ := cmd.toNat >>> 30

/-- `_IOC_TYPE`.
Kind: D -/
def iocType (cmd : BitVec 32) : ℕ := (cmd.toNat >>> 8) % 256

/-- `_IOC_NR`.
Kind: D -/
def iocNr (cmd : BitVec 32) : ℕ := cmd.toNat % 256

/-- `NFGPU_IOCTL_MAGIC`, the character `t`.
Source: `xt_TOGPU.h` 34
Kind: D -/
def nfgpuIoctlMagic : ℕ := 0x74

/-- `TOGPU_IOCTL_SET_BUFFERS`, an `_IOW` of a 16-byte `struct nfgpu_mem_info`.
Source: `xt_TOGPU.h` 36
Kind: D -/
def togpuIoctlSetBuffers : BitVec 32 := ioc 1 nfgpuIoctlMagic 1 16

/-- `TOGPU_IOCTL_GET_BUFFERS`, an `_IOR` of the same structure.
Source: `xt_TOGPU.h` 37
Kind: D -/
def togpuIoctlGetBuffers : BitVec 32 := ioc 2 nfgpuIoctlMagic 2 16

/-- `TOGPU_IOCTL_START`.
Source: `xt_TOGPU.h` 38
Kind: D -/
def togpuIoctlStart : BitVec 32 := ioc 0 nfgpuIoctlMagic 3 0

/-- `TOGPU_IOCTL_STOP`.
Source: `xt_TOGPU.h` 39
Kind: D -/
def togpuIoctlStop : BitVec 32 := ioc 0 nfgpuIoctlMagic 4 0

/-- `-ENOTTY`.
Kind: D -/
def enotty : ℤ := -25

/-- `-EFAULT`.
Kind: D -/
def efault : ℤ := -14

/-! ## The memory pool -/

/-- `struct nfgpu_mem_info`.
Source: `xt_TOGPU.h` 54–58
Kind: D -/
structure NfgpuMemInfo where
  /-- Start of the GPU's pinned memory in the calling process. -/
  uva : Addr
  /-- Its size in bytes. -/
  size : BitVec 64
  deriving DecidableEq, Repr

/-- A region established by `vmap`: its base and the number of pages it maps.
Kind: D -/
structure Mapping where
  /-- The address `vmap` returned. -/
  base : Addr
  /-- The number of pages mapped from there on. -/
  npages : ℕ
  deriving DecidableEq, Repr

/-- What the kernel supplies while `nfgpu_ioctl` runs.
Kind: D -/
structure IoctlEnv where
  /-- The verdict of `access_ok` on the argument. -/
  accessOk : Bool
  /-- The local `gb` after `copy_from_user`. -/
  gb : NfgpuMemInfo
  /-- The pages of the present entries of the walk, in the order of the callbacks. -/
  walked : List Addr
  /-- The result of `vmap`; `0` when it fails. -/
  vmap : Addr
  deriving DecidableEq, Repr

/-- `nfgpu_skb_pte_process` on a present entry: record its page. The index is not compared with
`NFGPU_MAX_PAGES`, and the list is not bounded here.
Source: `xt_TOGPU_main.c` 344–371
Kind: D -/
def nfgpuSkbPteProcess (drv : Globals) (page : Addr) : Globals :=
  { drv with
    nfgpuPages := Function.update drv.nfgpuPages drv.nfgpuNpages.toNat page
    nfgpuNpages := drv.nfgpuNpages + 1 }

/-- `nfgpu_set_mempool`: the globals after it and its result. The base is overwritten whatever
`vmap` returns; on failure the slot table is cleared.
Source: `xt_TOGPU_main.c` 373–450
Kind: D -/
def nfgpuSetMempool (drv : Globals) (env : IoctlEnv) : Globals × ℤ :=
  let prepared := { drv with
    nfgpuUva := env.gb.uva, nfgpuSize := env.gb.size, nfgpuNpages := 0 }
  let walked := env.walked.foldl nfgpuSkbPteProcess prepared
  let mapped := { walked with nfgpuKva := env.vmap }
  if env.vmap = 0 then ({ mapped with nfgpuSkbs := fun _ => 0 }, efault) else (mapped, 0)

/-! ## The commands -/

/-- What a call of `nfgpu_ioctl` leaves behind.
Kind: D -/
structure IoctlOut where
  /-- The globals after the call. -/
  drv : Globals
  /-- The region `vmap` established during the call. -/
  mapped : Option Mapping
  /-- The address `vunmap` was called with. -/
  unmapped : Option Addr
  /-- The result of the system call. -/
  err : ℤ

/-- A call that changes nothing and returns `err`.
Kind: D -/
def ioctlReturn (drv : Globals) (err : ℤ) : IoctlOut := ⟨drv, none, none, err⟩

/-- The command `SET_BUFFERS`.
Source: `xt_TOGPU_main.c` 484–488
Kind: D -/
def ioctlSetBuffers (drv : Globals) (env : IoctlEnv) : IoctlOut :=
  let (drv', err) := nfgpuSetMempool drv env
  ⟨drv', if env.vmap = 0 then none else some ⟨env.vmap, env.walked.length⟩, none, err⟩

/-- The command `START`.
Source: `xt_TOGPU_main.c` 493–497
Kind: D -/
def ioctlStart (drv : Globals) : IoctlOut := ioctlReturn { drv with nfgpuRunning := true } 0

/-- The command `STOP`: unmap when running with a base, keep the base, stop.
Source: `xt_TOGPU_main.c` 499–509
Kind: D -/
def ioctlStop (drv : Globals) : IoctlOut :=
  ⟨{ drv with nfgpuRunning := false }, none,
    if drv.nfgpuRunning = true ∧ drv.nfgpuKva ≠ 0 then some drv.nfgpuKva else none, 0⟩

/-- `nfgpu_ioctl`.
Source: `xt_TOGPU_main.c` 467–517
Kind: D -/
def nfgpuIoctl (drv : Globals) (cmd : BitVec 32) (env : IoctlEnv) : IoctlOut :=
  if iocType cmd ≠ nfgpuIoctlMagic then ioctlReturn drv enotty
  else if iocNr cmd > 4 then ioctlReturn drv enotty
  else if iocDir cmd ≠ 0 ∧ env.accessOk = false then ioctlReturn drv efault
  else if cmd = togpuIoctlSetBuffers then ioctlSetBuffers drv env
  else if cmd = togpuIoctlGetBuffers then ioctlReturn drv 0
  else if cmd = togpuIoctlStart then ioctlStart drv
  else if cmd = togpuIoctlStop then ioctlStop drv
  else ioctlReturn drv enotty

/-! ## What a command does -/

/-- The walk only writes the page list and its length.
Kind: L -/
theorem foldl_nfgpuSkbPteProcess (pages : List Addr) (drv : Globals) :
    ∃ list npages, pages.foldl nfgpuSkbPteProcess drv =
      { drv with nfgpuPages := list, nfgpuNpages := npages } := by
  induction pages generalizing drv with
  | nil => exact ⟨_, _, rfl⟩
  | cons page pages ih => exact ih (nfgpuSkbPteProcess drv page)

/-- **What `SET_BUFFERS` writes**: the request, the base whatever `vmap` returns, the page list,
and on failure the slot table. The running flag and the search position stay.
Source: `xt_TOGPU_main.c` 390–440
Kind: P -/
theorem ioctlSetBuffers_eq (drv : Globals) (env : IoctlEnv) :
    ∃ list npages, (ioctlSetBuffers drv env).drv = { drv with
      nfgpuUva := env.gb.uva, nfgpuSize := env.gb.size, nfgpuKva := env.vmap
      nfgpuPages := list, nfgpuNpages := npages
      nfgpuSkbs := if env.vmap = 0 then fun _ => 0 else drv.nfgpuSkbs } := by
  obtain ⟨list, npages, hwalk⟩ := foldl_nfgpuSkbPteProcess env.walked { drv with
    nfgpuUva := env.gb.uva, nfgpuSize := env.gb.size, nfgpuNpages := 0 }
  refine ⟨list, npages, ?_⟩
  simp only [ioctlSetBuffers, nfgpuSetMempool, hwalk]
  split_ifs <;> rfl

/-- `SET_BUFFERS` overwrites the base with the result of `vmap` and keeps the running flag.
Source: `xt_TOGPU_main.c` 425
Kind: L -/
theorem ioctlSetBuffers_drv (drv : Globals) (env : IoctlEnv) :
    (ioctlSetBuffers drv env).drv.nfgpuKva = env.vmap ∧
      (ioctlSetBuffers drv env).drv.nfgpuRunning = drv.nfgpuRunning := by
  obtain ⟨list, npages, heq⟩ := ioctlSetBuffers_eq drv env
  rw [heq]
  exact ⟨rfl, rfl⟩

/-- `SET_BUFFERS` whose `vmap` succeeds keeps the slot table and the search position.
Source: `xt_TOGPU_main.c` 428–440
Kind: L -/
theorem ioctlSetBuffers_table (drv : Globals) {env : IoctlEnv} (hne : env.vmap ≠ 0) :
    (ioctlSetBuffers drv env).drv.nfgpuSkbs = drv.nfgpuSkbs ∧
      (ioctlSetBuffers drv env).drv.nfgpuNext = drv.nfgpuNext := by
  obtain ⟨list, npages, heq⟩ := ioctlSetBuffers_eq drv env
  rw [heq, if_neg hne]
  exact ⟨rfl, rfl⟩

/-- The effect of a command word, with the words that have it.
Kind: D -/
inductive IoctlEffect (drv : Globals) (cmd : BitVec 32) (env : IoctlEnv) : IoctlOut → Prop
  /-- Rejected, or `GET_BUFFERS`. -/
  | none (err : ℤ) (hstart : cmd ≠ togpuIoctlStart) (hstop : cmd ≠ togpuIoctlStop)
      (hset : cmd = togpuIoctlSetBuffers → env.accessOk = false) :
      IoctlEffect drv cmd env (ioctlReturn drv err)
  /-- `SET_BUFFERS`. -/
  | setBuffers (hcmd : cmd = togpuIoctlSetBuffers) (hacc : env.accessOk = true) :
      IoctlEffect drv cmd env (ioctlSetBuffers drv env)
  /-- `START`. -/
  | start (hcmd : cmd = togpuIoctlStart) : IoctlEffect drv cmd env (ioctlStart drv)
  /-- `STOP`. -/
  | stop (hcmd : cmd = togpuIoctlStop) : IoctlEffect drv cmd env (ioctlStop drv)

/-- The three command words pass the checks on type and number, and only `SET_BUFFERS` has a
direction.
Kind: L -/
theorem command_words {cmd : BitVec 32}
    (h : cmd = togpuIoctlSetBuffers ∨ cmd = togpuIoctlStart ∨ cmd = togpuIoctlStop) :
    iocType cmd = nfgpuIoctlMagic ∧ iocNr cmd ≤ 4 ∧
      (iocDir cmd ≠ 0 ↔ cmd = togpuIoctlSetBuffers) := by
  rcases h with rfl | rfl | rfl <;> decide

/-- **What a call of `nfgpu_ioctl` can do**, for any command word.
Source: `xt_TOGPU_main.c` 467–517
Kind: P -/
theorem nfgpuIoctl_effect (drv : Globals) (cmd : BitVec 32) (env : IoctlEnv) :
    IoctlEffect drv cmd env (nfgpuIoctl drv cmd env) := by
  unfold nfgpuIoctl
  split_ifs with htype hnr hacc hset hget hstart hstop
  · have hno := mt command_words fun h => htype h.1
    exact .none _ (fun h => hno (.inr (.inl h))) (fun h => hno (.inr (.inr h)))
      fun h => absurd (.inl h) hno
  · have hno := mt command_words fun h => absurd h.2.1 (not_le.mpr hnr)
    exact .none _ (fun h => hno (.inr (.inl h))) (fun h => hno (.inr (.inr h)))
      fun h => absurd (.inl h) hno
  · refine .none _ ?_ ?_ fun _ => hacc.2
    · rintro rfl
      exact absurd hacc.1 (by decide)
    · rintro rfl
      exact absurd hacc.1 (by decide)
  · subst hset
    exact .setBuffers rfl (by simpa [show iocDir togpuIoctlSetBuffers ≠ 0 by decide] using hacc)
  · subst hget
    exact .none _ (by decide) (by decide) fun h => absurd h (by decide)
  · exact .start hstart
  · exact .stop hstop
  · exact .none _ hstart hstop fun h => absurd h hset

/-- The command words reach their commands: `START` and `STOP` always, `SET_BUFFERS` when its
argument passes `access_ok`.
Kind: L -/
theorem nfgpuIoctl_commands (drv : Globals) (env : IoctlEnv) :
    nfgpuIoctl drv togpuIoctlStart env = ioctlStart drv ∧
      nfgpuIoctl drv togpuIoctlStop env = ioctlStop drv ∧
      (env.accessOk = true →
        nfgpuIoctl drv togpuIoctlSetBuffers env = ioctlSetBuffers drv env) := by
  refine ⟨rfl, rfl, fun h => ?_⟩
  simp [nfgpuIoctl, h, togpuIoctlSetBuffers, iocType, iocNr, iocDir, nfgpuIoctlMagic, ioc]

/-! ## Commands -/

end Togpu.Driver
