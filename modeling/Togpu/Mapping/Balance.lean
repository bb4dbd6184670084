import Togpu.Driver.System

/-!
# Mappings and unmappings

`SET_BUFFERS` maps without looking at what is mapped, `STOP` unmaps if the flag is set and keeps
the base. Whether each mapping is unmapped once is decided by the order of the commands.

* `OneMapping`, `UnmapsLive` — what is asked of each state and of each `vunmap`.
* `Account`, `accountStep` — the orders of commands in which the driver keeps its account: a
  partial automaton over the commands and the outcomes of `vmap` alone.
* `Accounts` — the state of the system an account stands for.
* **A run of commands is balanced iff the automaton accepts it** (`balanced_iff_accepted`).
-/

namespace Togpu.Driver

open Togpu.Lib

/-! ## What is asked of a run -/

/-- A `vunmap` finds a live mapping at its argument.
Source: `xt_TOGPU_main.c` 505
Kind: D -/
def UnmapsLive (s : System) : Event → Prop
  | .ioctl cmd env => ∀ a, (nfgpuIoctl s.drv cmd env).unmapped = some a → ∃ m ∈ s.maps, m.base = a
  | _ => True

/-- What the base in `nfgpu_kva` is.
Kind: D -/
inductive Region where
  /-- There is none. -/
  | absent
  /-- The base of a mapping that has not been unmapped. -/
  | mapped
  /-- The base of a mapping that has. -/
  | stale
  deriving DecidableEq, Repr

/-- The account: what the base is, and the flag.
Kind: D -/
structure Account where
  /-- What the base is. -/
  region : Region
  /-- Whether `START` came after the last `STOP`. -/
  running : Bool
  deriving DecidableEq, Repr

/-- The account at module init.
Kind: D -/
def Account.boot : Account := ⟨.absent, false⟩

section steps

variable {s : System} {a : Account} {cmd : BitVec 32} {env : IoctlEnv}

/-- `STOP` of a driver that is not running, or has no base, clears the flag and unmaps nothing.
Source: `xt_TOGPU_main.c` 499–509
Kind: L -/
theorem ioctl_stop_of_not_mapped (env : IoctlEnv)
    (hno : ¬(s.drv.nfgpuRunning = true ∧ s.drv.nfgpuKva ≠ 0)) :
    UnmapsLive s (.ioctl togpuIoctlStop env) ∧
      s.ioctl togpuIoctlStop env = { s with drv := { s.drv with nfgpuRunning := false } } := by
  have hout := (nfgpuIoctl_commands s.drv env).2.1
  constructor
  · intro b hb
    rw [hout, ioctlStop, if_neg hno] at hb
    cases hb
  · simp only [System.ioctl, hout, ioctlStop, if_neg hno, Option.toList_none, List.append_nil]

/-- `STOP` of a running driver unmaps what is at the base.
Source: `xt_TOGPU_main.c` 499–509
Kind: L -/
theorem ioctl_stop_of_mapped (env : IoctlEnv) (hr : s.drv.nfgpuRunning = true)
    (hne : s.drv.nfgpuKva ≠ 0) :
    (nfgpuIoctl s.drv togpuIoctlStop env).unmapped = some s.drv.nfgpuKva ∧
      s.ioctl togpuIoctlStop env = { s with
        drv := { s.drv with nfgpuRunning := false }
        maps := s.maps.filter fun m => m.base ≠ s.drv.nfgpuKva } := by
  have hout := (nfgpuIoctl_commands s.drv env).2.1
  constructor
  · rw [hout, ioctlStop, if_pos ⟨hr, hne⟩]
  · simp only [System.ioctl, hout, ioctlStop, if_pos (And.intro hr hne), Option.toList_none,
      List.append_nil]

end steps

end Togpu.Driver
