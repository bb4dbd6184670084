import Togpu.Device.Open
import Togpu.Driver.System

/-!
# The launcher

`xt_TOGPU_launcher` is the program that hands pinned GPU memory to the driver and starts it. Here
any number of its processes run beside the driver: each is somewhere in `main`, any of them may be
killed between two calls, and the driver keeps its state from one process to the next.

* `gpuAllocPinnedMem` — the allocation, with the results of the CUDA calls as an argument.
* `Phase` — where a process is: the call of `main` that comes next, or how it has ended.
* `Phase.command`, `Phase.next` — the command that call issues, and where `main` goes with its
  result.
* `World`, `Action`, `step` — the driver, the open counter of the device and the processes, with
  one transition for each atomic operation of an open and a release, each call of `main`, the
  death of a process, and each event of the network stack.

A process that dies inside a system call finishes the call first; its descriptor is closed, and
the device released, some time after its death. Only launchers open the device.
-/

namespace Togpu.Launcher

open Togpu.Driver

/-! ## Pinned memory -/

/-- The results of the CUDA calls of `gpu_alloc_pinned_mem`; a call that fails ends the process
(`checkCudaErrors`).
Source: `xt_TOGPU_kernel.cu` 22–29, 48–91
Kind: D -/
structure CudaEnv where
  /-- `cudaSetDevice` and `cudaGetDeviceProperties` succeed. -/
  device : Bool
  /-- `deviceProp.canMapHostMemory`. -/
  canMapHostMemory : Bool
  /-- `cudaSetDeviceFlags` succeeds. -/
  flags : Bool
  /-- The pointer `cudaHostAlloc` stores, if it succeeds. -/
  hostAlloc : Option Addr
  /-- `cudaHostGetDevicePointer` succeeds. -/
  devicePointer : Bool
  deriving DecidableEq, Repr

/-- `gpu_alloc_pinned_mem`: the pointer it returns, `0` for `NULL`; `none` when it calls `exit(-1)`.
The test after `cudaHostGetDevicePointer` is of the host pointer once more.
Source: `xt_TOGPU_kernel.cu` 48–91
Kind: D -/
def gpuAllocPinnedMem (env : CudaEnv) : Option Addr :=
  if env.device = false then none
  else if env.canMapHostMemory = false then some 0
  else if env.flags = false then none
  else match env.hostAlloc with
    | none => none
    | some ptr =>
        if ptr = 0 then some 0
        else if env.devicePointer = false then none
        else if ptr = 0 then some 0
        else some ptr

/-! ## `main` -/

/-- Where a launcher process is.
Source: `xt_TOGPU_launcher.c` 76–144
Kind: D -/
inductive Phase where
  /-- Before `open`. -/
  | entry
  /-- In an `open` that has decremented the counter to a value other than zero. -/
  | opening
  /-- Before the `STOP` that ends what an earlier process has left. -/
  | firstStop
  /-- Before `gpu_alloc_pinned_mem`. -/
  | alloc
  /-- Before `SET_BUFFERS`, with the pinned memory at `ptr`. -/
  | setBuffers (ptr : Addr)
  /-- Before `START`, with the result of `SET_BUFFERS` in `err`. -/
  | start (ptr : Addr) (err : ℤ)
  /-- In `aes_test`. -/
  | aesTest (ptr : Addr)
  /-- Before the last `STOP`. -/
  | lastStop (ptr : Addr)
  /-- Before `gpu_free_pinned_mem`. -/
  | free (ptr : Addr)
  /-- Ended, with the device still open: the result of `main`, or `none` if it was killed. -/
  | ended (code : Option ℤ)
  /-- Ended, with nothing open. -/
  | gone (code : Option ℤ)
  deriving DecidableEq, Repr

/-- The process has the device open.
Kind: D -/
def Phase.HasDevice : Phase → Prop
  | .entry | .opening | .gone _ => False
  | _ => True

instance : ∀ ph : Phase, Decidable ph.HasDevice
  | .entry | .opening | .gone _ => inferInstanceAs (Decidable False)
  | .firstStop | .alloc | .setBuffers _ | .start _ _ | .aesTest _ | .lastStop _ | .free _
  | .ended _ => inferInstanceAs (Decidable True)

/-- What the kernel and CUDA supply to one call of `main`.
Kind: D -/
structure CallEnv where
  /-- The results of the CUDA calls. -/
  cuda : CudaEnv
  /-- The verdict of `access_ok`. -/
  accessOk : Bool
  /-- The pages of the walk. -/
  walked : List Addr
  /-- The result of `vmap`. -/
  vmap : Addr
  deriving DecidableEq, Repr

/-- The environment of a command whose argument is the local `mem_info`.
Source: `xt_TOGPU_launcher.c` 108–113
Kind: D -/
def CallEnv.ioctlEnv (env : CallEnv) (ptr : Addr) : IoctlEnv :=
  ⟨env.accessOk, ⟨ptr, nfgpuMaxMemory⟩, env.walked, env.vmap⟩

/-- The command the next call of `main` issues, if it is an `ioctl`.
Source: `xt_TOGPU_launcher.c` 98, 113, 126, 138
Kind: D -/
def Phase.command (env : CallEnv) : Phase → Option (BitVec 32 × IoctlEnv)
  | .firstStop => some (togpuIoctlStop, env.ioctlEnv 0)
  | .setBuffers ptr => some (togpuIoctlSetBuffers, env.ioctlEnv ptr)
  | .start ptr _ => some (togpuIoctlStart, env.ioctlEnv ptr)
  | .lastStop ptr => some (togpuIoctlStop, env.ioctlEnv ptr)
  | _ => none

/-- Where `main` goes after its next call, which returned `res` if it was an `ioctl`. The test after
`START` is of the result of `SET_BUFFERS`; `aes_test` does not return.
Source: `xt_TOGPU_launcher.c` 97–143; `xt_TOGPU_kernel.cu` 1741–1779
Kind: D -/
def Phase.next (env : CallEnv) (res : ℤ) : Phase → Option Phase
  | .firstStop => some .alloc
  | .alloc =>
      match gpuAllocPinnedMem env.cuda with
      | none => some (.ended (some (-1)))
      | some ptr => some (if ptr = 0 then .ended (some (-1)) else .setBuffers ptr)
  | .setBuffers ptr => some (if res < 0 then .ended (some (-1)) else .start ptr res)
  | .start ptr err => some (if err < 0 then .ended (some (-1)) else .aesTest ptr)
  | .aesTest ptr => some (.aesTest ptr)
  | .lastStop ptr => some (.free ptr)
  | .free _ => some (.ended (some 0))
  | .entry | .opening | .ended _ | .gone _ => none

/-- The result of the C library's `ioctl`: every error is `-1`.
Kind: D -/
def ioctlResult (err : ℤ) : ℤ := if err < 0 then -1 else err

/-! ## Processes beside the driver -/

/-- The driver, its device, and the launcher processes.
Kind: D -/
structure World where
  /-- The driver and the kernel's part. -/
  sys : System
  /-- The open counter and its users. -/
  dev : Device.OpenState ℕ
  /-- Where each process is. -/
  proc : ℕ → Phase
  /-- How many processes were killed between `SET_BUFFERS` and `START`. A history record: nothing
  reads it. -/
  lost : ℕ

/-- The world after module init: no launcher has called `open` yet.
Kind: D -/
def World.boot (shinfo : Addr → SkbSharedInfo) : World where
  sys := System.boot shinfo
  dev := Device.OpenState.boot
  proc := fun _ => .entry
  lost := 0

/-- What can happen.
Kind: D -/
inductive Action where
  /-- The first operation of an `open`, which returns the descriptor `fd` if it succeeds. -/
  | opens (p : ℕ) (fd : ℕ)
  /-- The second operation of an `open` that fails. -/
  | busy (p : ℕ)
  /-- The next call of `main`. -/
  | call (p : ℕ) (env : CallEnv)
  /-- The process is killed. -/
  | kill (p : ℕ)
  /-- The descriptor of a process that has ended is closed. -/
  | release (p : ℕ)
  /-- The network stack enters the driver, or works on its buffers. -/
  | kernel (e : Event)

/-- The process `p` is now at `ph`.
Kind: D -/
def World.goto (w : World) (p : ℕ) (ph : Phase) : World :=
  { w with proc := Function.update w.proc p ph }

/-- The driver and the result after a command, or after none.
Kind: D -/
def World.ioctl (w : World) : Option (BitVec 32 × IoctlEnv) → World × ℤ
  | some (cmd, env) =>
      ({ w with sys := w.sys.ioctl cmd env }, ioctlResult (nfgpuIoctl w.sys.drv cmd env).err)
  | none => (w, 0)

/-- The next call of `main` in the process `p`.
Kind: D -/
def World.call (w : World) (p : ℕ) (env : CallEnv) : Option World :=
  let (w', res) := w.ioctl ((w.proc p).command env)
  ((w.proc p).next env res).map (w'.goto p)

/-- The process `p` is killed, outside of an `open`.
Kind: D -/
def World.kill (w : World) (p : ℕ) : Option World :=
  match w.proc p with
  | .entry => some (w.goto p (.gone none))
  | .start _ _ => some { w.goto p (.ended none) with lost := w.lost + 1 }
  | .opening | .ended _ | .gone _ => none
  | _ => some (w.goto p (.ended none))

/-- One transition. `main` gives up when `open` returns a negative number, or zero.
Source: `xt_TOGPU_launcher.c` 88–95; `xt_TOGPU_main.c` 519–534
Kind: D -/
def step (w : World) : Action → Option World
  | .opens p fd =>
      if w.proc p = .entry then
        (Device.step w.dev (.decAndTest p)).map fun dev =>
          if p ∈ dev.holders then
            { w.goto p (if fd = 0 then .ended (some (-1)) else .firstStop) with dev := dev }
          else { w.goto p .opening with dev := dev }
      else none
  | .busy p =>
      if w.proc p = .opening then
        (Device.step w.dev (.inc p)).map fun dev =>
          { w.goto p (.gone (some (-1))) with dev := dev }
      else none
  | .call p env => w.call p env
  | .kill p => w.kill p
  | .release p =>
      match w.proc p with
      | .ended code =>
          (Device.step w.dev (.set p)).map fun dev => { w.goto p (.gone code) with dev := dev }
      | _ => none
  | .kernel (.ioctl _ _) => none
  | .kernel e => (Driver.step w.sys e).map fun sys => { w with sys := sys }

end Togpu.Launcher
