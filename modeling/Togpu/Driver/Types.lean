import Mathlib.Data.BitVec
import Mathlib.Logic.Function.Basic

/-!
# The data of the `xt_TOGPU` driver

The constants of `xt_TOGPU.h` and the globals of `xt_TOGPU_main.c`, over 64-bit machine words.

* `SkBuff` — the fields of the kernel's `struct sk_buff` that the driver reads or writes, with
  `tail` and `end` held as pointers (`NET_SKBUFF_DATA_USES_OFFSET` off), which is the layout the
  hooks are written for: they store addresses in both.
* `SkbSharedInfo` — what the driver and the kernel read of the `skb_shared_info` at `skb->end`.
* `Globals` — the module's globals. The device and profiling-thread handles, the two `kernsym`
  records and the open counter are not here: no function of this layer reads them.
* `Fault` — the ways a hook can fail to return. The C code has no error path for any of them.
-/

namespace Togpu.Driver

/-- A 64-bit kernel virtual address (`unsigned long` and every pointer).
Kind: D -/
abbrev Addr := BitVec 64

/-! ## Constants -/

/-- `NFGPU_MAX_MEMORY`, 32 MB.
Source: `xt_TOGPU.h` 19
Kind: D -/
def nfgpuMaxMemory : BitVec 64 := 1 <<< 25

/-- `NFGPU_SKB_OFFSET`.
Source: `xt_TOGPU.h` 21
Kind: D -/
def nfgpuSkbOffset : ℕ := 12

/-- `NFGPU_SKB_SIZE`, 4 KB.
Source: `xt_TOGPU.h` 22
Kind: D -/
def nfgpuSkbSize : BitVec 64 := 1 <<< nfgpuSkbOffset

/-- `NFGPU_MAX_SKBS`, the number of slots.
Source: `xt_TOGPU.h` 23
Kind: D -/
def nfgpuMaxSkbs : BitVec 64 := nfgpuMaxMemory / nfgpuSkbSize

/-- `NFGPU_MEMORY_MASK`.
Source: `xt_TOGPU.h` 24
Kind: D -/
def nfgpuMemoryMask : BitVec 64 := ~~~(nfgpuMaxMemory - 1)

@[simp] theorem nfgpuMaxMemory_toNat : nfgpuMaxMemory.toNat = 33554432 := by decide
@[simp] theorem nfgpuSkbSize_toNat : nfgpuSkbSize.toNat = 4096 := by decide
@[simp] theorem nfgpuMaxSkbs_toNat : nfgpuMaxSkbs.toNat = 8192 := by decide

/-! ## Socket buffers -/

/-- The fields of `struct sk_buff` the driver touches; `skbEnd` is the field `end`.
Source: `xt_TOGPU_main.c` 205, 249–269, 285–303
Kind: D -/
structure SkBuff where
  /-- Start of the data buffer. -/
  head : Addr
  /-- Start of the packet in the buffer. -/
  data : Addr
  /-- End of the packet in the buffer. -/
  tail : Addr
  /-- End of the buffer; the shared info starts here. -/
  skbEnd : Addr
  /-- Packet length, an `unsigned int`. -/
  len : BitVec 32
  deriving DecidableEq, Repr

/-- The part of `struct skb_shared_info` in play: the fragment count the allocation hook tests and
the reference count the kernel's clone and release operations keep.
Source: `xt_TOGPU_main.c` 251
Kind: D -/
structure SkbSharedInfo where
  /-- `nr_frags`. -/
  nrFrags : ℕ
  /-- `dataref`, the number of `sk_buff`s that share the buffer. -/
  dataref : ℤ
  deriving DecidableEq, Repr

/-- `skb_reset_tail_pointer` for pointer fields: `tail = data`.
Source: `xt_TOGPU_main.c` 268
Kind: D -/
def skbResetTailPointer (skb : SkBuff) : SkBuff := { skb with tail := skb.data }

/-! ## The module's globals -/

/-- The globals of the module. The arrays are total functions. Those that index `nfgpu_skbs` test
its bound or stay below it, as the C code does. `nfgpu_skb_pte_process` tests none: from the entry
`NFGPU_MAX_PAGES` on its stores are behind `nfgpu_pages` in C and change other globals, while here
they change nothing else. What is said of a request with more present pages than that is said of the
model only; which requests they are is decided in `Mapping.PageList`.
Source: `xt_TOGPU_main.c` 69–76, 87–88
Kind: D -/
structure Globals where
  /-- `nfgpu_running`. -/
  nfgpuRunning : Bool
  /-- `nfgpu_pages`, the page list of the pool; the C array has `NFGPU_MAX_PAGES` entries. -/
  nfgpuPages : ℕ → Addr
  /-- `nfgpu_uva`. -/
  nfgpuUva : Addr
  /-- `nfgpu_kva`, the base of the pool; `0` when there is none. -/
  nfgpuKva : Addr
  /-- `nfgpu_size`. -/
  nfgpuSize : BitVec 64
  /-- `nfgpu_npages`. -/
  nfgpuNpages : BitVec 64
  /-- `nfgpu_skbs`: the native head of the buffer in each slot, `0` when the slot is free. -/
  nfgpuSkbs : BitVec 64 → Addr
  /-- `nfgpu_next`, where the search for a free slot starts. -/
  nfgpuNext : BitVec 64
  /-- `nfgpu_packets`. -/
  nfgpuPackets : BitVec 64
  /-- `nfgpu_average`. -/
  nfgpuAverage : BitVec 64

/-- The globals after `nfgpu_internal_init`: the assignments of its "Init resources" part over
static storage, which starts as zero.
Source: `xt_TOGPU_main.c` 597–605
Kind: D -/
def nfgpuInternalInit : Globals where
  nfgpuRunning := false
  nfgpuPages := fun _ => 0
  nfgpuUva := 0
  nfgpuKva := 0
  nfgpuSize := 0
  nfgpuNpages := 0
  nfgpuSkbs := fun _ => 0
  nfgpuNext := 1
  nfgpuPackets := 0
  nfgpuAverage := 0

/-- Why a hook does not return.
Kind: D -/
inductive Fault where
  /-- A field of a `NULL` `sk_buff` is read. -/
  | nullDeref
  /-- The slot search waits for ever: no slot is free. -/
  | noFreeSlot
  /-- `nfgpu_skbs` is read outside its bounds. -/
  | tableBounds
  deriving DecidableEq, Repr

end Togpu.Driver
