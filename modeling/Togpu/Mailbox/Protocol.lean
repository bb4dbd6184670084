import Togpu.Lib.Run
import Togpu.Driver.Hooks
import Togpu.Mailbox.Layout

/-!
# The protocol between the driver, the launcher and the GPU

`nfgpu_target` runs on any number of CPUs at once, `aes_test` in one user process, and what it
launches runs on the GPU some time later. They share the mailbox and nothing else: the spin lock
of the driver is not taken on this path.

* `TargetPc`, `AesPc` — where each party stands between two accesses to the mailbox.
* `State`, `Action`, `step` — one transition for each access: the entry test of `nfgpu_target`,
  its two stores and each round of its polling loop; each round of the launcher's polling loop, its
  two loads, the launch and the final store; the execution of one launched thread.
* `State.reads` is a history variable: how often the launcher has read the index of a pending call
  since the call stored it.
-/

namespace Togpu.Mailbox

open Togpu.Driver Togpu.Lib

/-! ## The parties -/

/-- What a call of `nfgpu_target` carries past its entry test.
Source: `xt_TOGPU_main.c` 180–195
Kind: D -/
structure Call where
  /-- The local `index`. -/
  index : BitVec 64
  /-- `skb->len`. -/
  len : BitVec 32
  deriving DecidableEq, Repr

/-- Where a CPU stands in `nfgpu_target`.
Source: `xt_TOGPU_main.c` 175–222
Kind: D -/
inductive TargetPc where
  /-- Not in the function, or returned by its entry test. -/
  | idle
  /-- Before `*target = index`. -/
  | storeIndex (call : Call)
  /-- Before `*(target+1) = (unsigned long) skb->len`. -/
  | storeLength (call : Call)
  /-- In `while( *target != 0 )`. -/
  | poll (call : Call)
  /-- Past the loop: `return NF_ACCEPT`. -/
  | accept (call : Call)
  deriving DecidableEq, Repr

/-- The call that is under way.
Kind: D -/
def TargetPc.active : TargetPc → Option Call
  | .storeIndex call | .storeLength call | .poll call => some call
  | .idle | .accept _ => none

/-- The call that has stored its index and not left its loop.
Kind: D -/
def TargetPc.pending : TargetPc → Option Call
  | .storeLength call | .poll call => some call
  | .idle | .storeIndex _ | .accept _ => none

/-- Where `aes_test` stands.
Source: `xt_TOGPU_kernel.cu` 1741–1779
Kind: D -/
inductive AesPc where
  /-- In `while( *target == 0 )`. -/
  | poll
  /-- Before `index = *target`. -/
  | readIndex
  /-- Before `length = *(target+1)`. -/
  | readLength (index : BitVec 32)
  /-- Before the launch. -/
  | launch (index length : BitVec 32)
  /-- Before `*target = 0`. -/
  | done
  deriving DecidableEq, Repr

/-- One thread of a launch: it transforms 16 bytes of the slot, from byte `32 + 16 * thread` on.
Source: `xt_TOGPU_kernel.cu` 1121–1124
Kind: D -/
structure GpuBlock where
  /-- The index the launcher computed the packet's address from. -/
  index : BitVec 32
  /-- `threadIdx.x`. -/
  thread : ℕ
  deriving DecidableEq, Repr

/-- `threads = (length-32) / 16`, in `int`.
Source: `xt_TOGPU_kernel.cu` 1756
Kind: D -/
def aesThreads (length : BitVec 32) : BitVec 32 := (length - 32).sdiv 16

/-- How many threads `<<<1,threads>>>` starts: a launch of no thread, of fewer, or of more than the
1024 of a block is rejected.
Source: `xt_TOGPU_kernel.cu` 1770
Kind: D -/
def launchThreads (length : BitVec 32) : ℕ :=
  let threads := (aesThreads length).toInt
  if 1 ≤ threads ∧ threads ≤ 1024 then threads.toNat else 0

/-- The blocks a launch enqueues.
Source: `xt_TOGPU_kernel.cu` 1757–1775
Kind: D -/
def launched (index length : BitVec 32) : List GpuBlock :=
  (List.range (launchThreads length)).map fun thread => ⟨index, thread⟩

/-! ## The system -/

/-- The three parties and the memory between them.
Kind: D -/
structure State where
  /-- The driver's globals. -/
  drv : Globals
  /-- The memory of the pool. -/
  mem : Addr → BitVec 8
  /-- Each CPU. -/
  target : ℕ → TargetPc
  /-- The launcher. -/
  aes : AesPc
  /-- The blocks launched and not yet executed. -/
  gpu : List GpuBlock
  /-- How often the launcher has read the index of a CPU's pending call since its store. -/
  reads : ℕ → ℕ

/-- The index word as the launcher sees it.
Kind: D -/
def State.cell (s : State) : BitVec 32 := aesIndex s.drv.nfgpuKva s.mem

/-- The length word as the launcher sees it.
Kind: D -/
def State.lengthWord (s : State) : BitVec 32 := aesLength s.drv.nfgpuKva s.mem

/-- No call under way, the launcher in its polling loop, nothing launched.
Kind: D -/
def State.quiet (drv : Globals) (mem : Addr → BitVec 8) : State where
  drv := drv
  mem := mem
  target := fun _ => .idle
  aes := .poll
  gpu := []
  reads := fun _ => 0

/-- The entry test of `nfgpu_target`.
Source: `xt_TOGPU_main.c` 188–195
Kind: D -/
def nfgpuTargetEntry (drv : Globals) (head : Addr) (len : BitVec 32) : TargetPc :=
  if drv.nfgpuRunning = false then .idle
  else if inPool drv.nfgpuKva head = false then .idle
  else .storeIndex ⟨slotIndex drv.nfgpuKva head, len⟩

/-- CPU `c` stands at `pc` from now on.
Kind: D -/
def State.goto (s : State) (c : ℕ) (pc : TargetPc) : State :=
  { s with target := Function.update s.target c pc }

@[simp] theorem State.goto_target_self (s : State) (c : ℕ) (pc : TargetPc) :
    (s.goto c pc).target c = pc :=
  Function.update_self ..

theorem State.goto_target_of_ne (s : State) {c d : ℕ} (h : d ≠ c) (pc : TargetPc) :
    (s.goto c pc).target d = s.target d :=
  Function.update_of_ne h ..

/-- The next access of `nfgpu_target` on CPU `c`.
Source: `xt_TOGPU_main.c` 203–206, 221
Kind: D -/
def targetStep (u : ULong) (s : State) (c : ℕ) : Option State :=
  match s.target c with
  | .idle => none
  | .storeIndex call =>
      some { s.goto c (.storeLength call) with
        mem := storeIndex u s.drv.nfgpuKva s.mem call.index
        reads := Function.update s.reads c 0 }
  | .storeLength call =>
      some { s.goto c (.poll call) with
        mem := storeLength u s.drv.nfgpuKva s.mem call.len }
  | .poll call =>
      if loadTarget u s.drv.nfgpuKva s.mem ≠ 0 then some s else some (s.goto c (.accept call))
  | .accept _ => none

/-- The history after the launcher has read `index`.
Kind: D -/
def countRead (s : State) (index : BitVec 32) (c : ℕ) : ℕ :=
  match (s.target c).pending with
  | some call => if call.index.toNat = index.toNat then s.reads c + 1 else s.reads c
  | none => s.reads c

/-- The next access of `aes_test`.
Source: `xt_TOGPU_kernel.cu` 1747–1778
Kind: D -/
def aesStep (s : State) : State :=
  match s.aes with
  | .poll => if s.cell = 0 then s else { s with aes := .readIndex }
  | .readIndex => { s with aes := .readLength s.cell, reads := countRead s s.cell }
  | .readLength index => { s with aes := .launch index s.lengthWord }
  | .launch index length => { s with aes := .done, gpu := s.gpu ++ launched index length }
  | .done => { s with aes := .poll, mem := aesDone s.drv.nfgpuKva s.mem }

/-- What can happen next.
Kind: D -/
inductive Action where
  /-- `nfgpu_target` is called on CPU `c` with a packet whose buffer starts at `head`. -/
  | enter (c : ℕ) (head : Addr) (len : BitVec 32)
  /-- CPU `c` makes its next access. -/
  | target (c : ℕ)
  /-- The launcher makes its next access. -/
  | aes
  /-- The GPU executes the `k`-th of the blocks launched and not yet executed. -/
  | gpu (k : ℕ)

/-- One transition.
Kind: D -/
def step (u : ULong) (s : State) : Action → Option State
  | .enter c head len =>
      if (s.target c).active = none then some (s.goto c (nfgpuTargetEntry s.drv head len)) else none
  | .target c => targetStep u s c
  | .aes => some (aesStep s)
  | .gpu k => if k < s.gpu.length then some { s with gpu := s.gpu.eraseIdx k } else none

section steps

variable {u : ULong} {s : State} {c : ℕ} {call : Call}

/-- The first store of a call.
Kind: L -/
theorem step_target_storeIndex (h : s.target c = .storeIndex call) :
    step u s (.target c) = some { s.goto c (.storeLength call) with
      mem := storeIndex u s.drv.nfgpuKva s.mem call.index
      reads := Function.update s.reads c 0 } := by
  simp only [step, targetStep, h]

/-- The second store of a call.
Kind: L -/
theorem step_target_storeLength (h : s.target c = .storeLength call) :
    step u s (.target c) = some { s.goto c (.poll call) with
      mem := storeLength u s.drv.nfgpuKva s.mem call.len } := by
  simp only [step, targetStep, h]

/-- The launcher moves no call.
Kind: L -/
theorem aesStep_target (s : State) : (aesStep s).target = s.target := by
  unfold aesStep
  split
  · split_ifs <;> rfl
  all_goals rfl

end steps

end Togpu.Mailbox
