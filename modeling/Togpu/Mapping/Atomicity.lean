import Togpu.Mapping.Views

/-!
# `SET_BUFFERS` that fails

`nfgpu_set_mempool` can fail in two places: `copy_from_user` meets an unreadable byte, or `vmap`
returns 0. The first is not looked at, the second comes after the globals have been written.

* `IoctlEnv.ofCopy`, `MempoolFails` — a call by what `copy_from_user` leaves in `gb` and returns,
  and by what `vmap` returns; when it fails.
* `SameMempool` — the globals `nfgpu_set_mempool` works on are as before.
* `Recorded` — the globals already are what a failing call writes.
* **A failing call returns an error and leaves the globals as they were iff `vmap` fails and the
  call has nothing new to write** (`failure_atomic_iff`).
-/

namespace Togpu.Driver

open Togpu.Lib

/-! ## What the kernel supplies -/

/-- What the kernel supplies to a `SET_BUFFERS` whose argument passes `access_ok`, when
`copy_from_user` leaves `gb` in the local. How many bytes it could not copy is dropped.
Source: `xt_TOGPU_main.c` 388
Kind: D -/
def IoctlEnv.ofCopy (gb : NfgpuMemInfo) (walked : List Addr) (kva : Addr) : IoctlEnv where
  accessOk := true
  gb := gb
  walked := walked
  vmap := kva

/-- `nfgpu_set_mempool` fails: `missing` bytes of the request were not copied, or `vmap` returns 0.
Kind: D -/
def MempoolFails (missing : ℕ) (kva : Addr) : Prop := missing ≠ 0 ∨ kva = 0

/-! ## What a failing call leaves -/

/-- The base, the request, the page list and every slot are as before.
Kind: D -/
structure SameMempool (drv drv' : Globals) : Prop where
  kva : drv'.nfgpuKva = drv.nfgpuKva
  uva : drv'.nfgpuUva = drv.nfgpuUva
  size : drv'.nfgpuSize = drv.nfgpuSize
  npages : drv'.nfgpuNpages = drv.nfgpuNpages
  pages : ∀ i, drv'.nfgpuPages i = drv.nfgpuPages i
  skbs : ∀ i, i < nfgpuMaxSkbs → drv'.nfgpuSkbs i = drv.nfgpuSkbs i

/-- There is no base and no slot in use, and the request and the pages of its walk are recorded.
Kind: D -/
structure Recorded (drv : Globals) (gb : NfgpuMemInfo) (walked : List Addr) : Prop where
  kva : drv.nfgpuKva = 0
  uva : drv.nfgpuUva = gb.uva
  size : drv.nfgpuSize = gb.size
  npages : drv.nfgpuNpages.toNat = walked.length
  pages : ∀ i page, walked[i]? = some page → drv.nfgpuPages i = page
  skbs : ∀ i, i < nfgpuMaxSkbs → drv.nfgpuSkbs i = 0

section failure

variable {drv : Globals} {env : IoctlEnv}

/-- What `SET_BUFFERS` writes to the page list.
Kind: L -/
theorem ioctlSetBuffers_pages (drv : Globals) (hlen : env.walked.length < 2 ^ 64) :
    (ioctlSetBuffers drv env).drv.nfgpuNpages.toNat = env.walked.length ∧
      ∀ i, (ioctlSetBuffers drv env).drv.nfgpuPages i =
        (env.walked[i]?).getD (drv.nfgpuPages i) := by
  obtain ⟨hnum, hpages⟩ := foldl_nfgpuSkbPteProcess_of_zero env.walked
    (show Globals.nfgpuNpages
      { drv with nfgpuUva := env.gb.uva, nfgpuSize := env.gb.size, nfgpuNpages := 0 } = 0 from rfl)
    hlen
  unfold ioctlSetBuffers nfgpuSetMempool
  dsimp only
  split_ifs
  · exact ⟨hnum, hpages⟩
  · exact ⟨hnum, hpages⟩

/-- `SET_BUFFERS` returns an error exactly when `vmap` fails.
Source: `xt_TOGPU_main.c` 428–432
Kind: L -/
theorem ioctlSetBuffers_err_neg_iff (drv : Globals) (env : IoctlEnv) :
    (ioctlSetBuffers drv env).err < 0 ↔ env.vmap = 0 := by
  have herr : (ioctlSetBuffers drv env).err = if env.vmap = 0 then efault else 0 := by
    simp only [ioctlSetBuffers, nfgpuSetMempool]
    split_ifs <;> rfl
  rw [herr]
  split_ifs with hkva
  · exact ⟨fun _ => hkva, fun _ => by decide⟩
  · exact ⟨fun h => absurd h (by decide), fun h => absurd h hkva⟩

/-- When `vmap` fails, the globals are as before iff they were what the call writes.
Kind: L -/
theorem sameMempool_iff_recorded (hkva : env.vmap = 0) (hlen : env.walked.length < 2 ^ 64) :
    SameMempool drv (ioctlSetBuffers drv env).drv ↔ Recorded drv env.gb env.walked := by
  obtain ⟨hnum, hpages⟩ := ioctlSetBuffers_pages drv hlen
  obtain ⟨list, npages, heq⟩ := ioctlSetBuffers_eq drv env
  rw [if_pos hkva, hkva] at heq
  rw [heq] at hnum hpages ⊢
  constructor
  · rintro ⟨hk, hu, hs, hn, hp, ht⟩
    refine ⟨hk.symm, hu.symm, hs.symm, ?_, fun i page hi => ?_, fun i hi => (ht i hi).symm⟩
    · rw [← hnum]
      exact congrArg BitVec.toNat hn.symm
    · rw [← hp i]
      exact (hpages i).trans (by rw [hi]; rfl)
  · rintro ⟨hk, hu, hs, hn, hp, ht⟩
    refine ⟨hk.symm, hu.symm, hs.symm, BitVec.eq_of_toNat_eq (hnum.trans hn.symm), fun i => ?_,
      fun i hi => (ht i hi).symm⟩
    refine (hpages i).trans ?_
    cases hi : env.walked[i]? with
    | none => rfl
    | some page => exact (hp i page hi).symm

end failure

/-- **A `SET_BUFFERS` that fails is atomic iff `vmap` fails and there is nothing new to write**: no
base, no slot in use, and the request with the pages of its walk already recorded. For every driver
state, everything `copy_from_user` can leave and return, and every list of pages.
Source: `xt_TOGPU_main.c` 344–450, 484–488
Kind: P
Fidelity: exact
Hyps: (a) the walk finds fewer pages than `nfgpu_npages` can count -/
theorem failure_atomic_iff (drv : Globals) (gb : NfgpuMemInfo) (missing : ℕ) {walked : List Addr}
    (kva : Addr) (hlen : walked.length < 2 ^ 64) :
    (MempoolFails missing kva →
      (nfgpuIoctl drv togpuIoctlSetBuffers (.ofCopy gb walked kva)).err < 0 ∧
        SameMempool drv (nfgpuIoctl drv togpuIoctlSetBuffers (.ofCopy gb walked kva)).drv) ↔
      (MempoolFails missing kva → kva = 0 ∧ Recorded drv gb walked) := by
  rw [(nfgpuIoctl_commands drv (.ofCopy gb walked kva)).2.2 rfl, ioctlSetBuffers_err_neg_iff]
  refine forall_congr' fun _ => and_congr_right fun hkva => ?_
  exact sameMempool_iff_recorded hkva hlen

/-- A request that cannot be mapped, made a second time: the second call changes nothing.
Kind: C -/
theorem failure_atomic_again :
    (nfgpuIoctl { nfgpuInternalInit with nfgpuUva := 0x7f0000000000, nfgpuSize := 0x1000 }
        togpuIoctlSetBuffers (.ofCopy ⟨0x7f0000000000, 0x1000⟩ [] 0)).err < 0 ∧
      SameMempool { nfgpuInternalInit with nfgpuUva := 0x7f0000000000, nfgpuSize := 0x1000 }
        (nfgpuIoctl { nfgpuInternalInit with nfgpuUva := 0x7f0000000000, nfgpuSize := 0x1000 }
          togpuIoctlSetBuffers (.ofCopy ⟨0x7f0000000000, 0x1000⟩ [] 0)).drv := by
  refine (failure_atomic_iff _ _ 0 0 (by decide)).mpr (fun _ => ⟨rfl, ?_⟩) (.inr rfl)
  exact ⟨rfl, rfl, rfl, rfl, nofun, fun _ _ => rfl⟩

/-- A pool at `0xffffc90000000000` with a buffer in slot 1.
Kind: D -/
def poolInUse : Globals :=
  { nfgpuInternalInit with
    nfgpuKva := 0xffffc90000000000
    nfgpuSkbs := Function.update (fun _ => 0) 1 0xffff880012340000 }

/-- Both ways to fail go wrong on a pool in use. A failing `vmap` forgets the buffer in slot 1 and
the base. A request whose last six bytes could not be copied, zeros as they are, is carried out as
if it had been read.
Kind: C -/
theorem not_failure_atomic :
    ((nfgpuIoctl poolInUse togpuIoctlSetBuffers
          (.ofCopy ⟨0x7f0000000000, 0x1000⟩ [] 0)).drv.nfgpuSkbs 1 = 0 ∧
        poolInUse.nfgpuSkbs 1 ≠ 0 ∧
        ¬SameMempool poolInUse (nfgpuIoctl poolInUse togpuIoctlSetBuffers
          (.ofCopy ⟨0x7f0000000000, 0x1000⟩ [] 0)).drv) ∧
      MempoolFails 6 0xffffc90010000000 ∧
      (nfgpuIoctl poolInUse togpuIoctlSetBuffers
        (.ofCopy ⟨0x7f0000000000, 0x1000⟩ [0xffffea0000000000] 0xffffc90010000000)).err = 0 := by
  refine ⟨⟨by decide, by decide, fun hsame => ?_⟩, .inl (by decide), by decide⟩
  exact absurd hsame.kva (by decide)

end Togpu.Driver
