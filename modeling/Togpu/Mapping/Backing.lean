import Togpu.Mapping.Lifetime
import Togpu.Mapping.Atomicity
import Togpu.Mapping.PageList

/-!
# Slots and the pages behind them

The search for a slot runs over the `NFGPU_MAX_SKBS` entries of the table. How many pages are
mapped at `nfgpu_kva` is decided by `SET_BUFFERS`: as many as the walk of the request found present.

* `SlotBacked` — the bytes of a slot lie in the `nfgpu_npages` pages mapped at the base.
* `FitsPages` — a `SET_BUFFERS` whose pages fit `nfgpu_pages`. A store behind that array changes
  other globals, for which the model has no place.
* `LaterState` — the states of a mapping: those after the call that made it and before the next
  one, as long as it is not unmapped.
* `laterState_pages` — in all of them the base and the number of pages are those of the call.
* `exec_fill` — a run that uses the slots up in their order.
* **A call stores inside `nfgpu_pages` and every slot handed out in any state of its mapping is
  backed iff the request has exactly `NFGPU_MAX_PAGES` present pages**, which is `NFGPU_MAX_SKBS`
  (`slots_backed_iff`).
-/

namespace Togpu.Driver

open Togpu.Lib

/-! ## The states of a mapping -/

/-- What the kernel supplies when a process with page table `mm` issues `SET_BUFFERS` with the
request `gb` and `vmap` returns `kva`.
Kind: D -/
def IoctlEnv.ofRequest (mm : MmStruct) (gb : NfgpuMemInfo) (kva : Addr) : IoctlEnv where
  accessOk := true
  gb := gb
  walked := requestPages mm gb
  vmap := kva

/-- The event is a `SET_BUFFERS` that reaches `nfgpu_set_mempool`.
Source: `xt_TOGPU_main.c` 471–488
Kind: D -/
def SetsBuffers : Event → Prop
  | .ioctl cmd env => cmd = togpuIoctlSetBuffers ∧ env.accessOk = true
  | _ => False

/-- A `SET_BUFFERS` has no more pages than `nfgpu_pages` has entries, so its walk stores in the
array only.
Source: `xt_TOGPU.h` 20, `xt_TOGPU_main.c` 352
Kind: D -/
def FitsPages : Event → Prop
  | .ioctl cmd env => cmd = togpuIoctlSetBuffers → env.walked.length ≤ nfgpuMaxPages
  | _ => True

/-- `t` is a state of the mapping made by the call with `env`: some run from module init reaches it
with no other `SET_BUFFERS` after that call and none before it that stored behind `nfgpu_pages`,
and the mapping is still there.
Kind: D -/
def LaterState (env : IoctlEnv) (t : System) : Prop :=
  ∃ shinfo es es',
    exec step (System.boot shinfo) (es ++ .ioctl togpuIoctlSetBuffers env :: es') = some t ∧
      (∀ e ∈ es, FitsPages e) ∧ (∀ e ∈ es', ¬SetsBuffers e) ∧
        ⟨env.vmap, env.walked.length⟩ ∈ t.maps

/-- The walk of the request stores inside `nfgpu_pages`, whatever the globals are.
Source: `xt_TOGPU_main.c` 344–406
Kind: D -/
def StoresInside (fuel : ℕ) (mm : MmStruct) (gb : NfgpuMemInfo) : Prop :=
  ∀ drv, ∃ drv' stores, mempoolStores fuel mm drv gb = some (drv', stores) ∧
    ∀ j ∈ stores, j < nfgpuMaxPages

/-- The bytes of slot `i` lie in the pages mapped at the base.
Kind: D -/
def SlotBacked (drv : Globals) (i : BitVec 64) : Prop :=
  ∀ x : Addr, x < nfgpuSkbSize → (kernelPage drv (slotAddr drv.nfgpuKva i + x)).isSome

/-- The allocation hook moves the native result `ret` to slot `i`.
Source: `xt_TOGPU_main.c` 247–265
Kind: D -/
def MovedTo (drv : Globals) (shinfo : Addr → SkbSharedInfo) (ret : SkBuff) (i : BitVec 64) : Prop :=
  drv.nfgpuRunning = true ∧ eligible shinfo ret ∧
    findSlot drv.nfgpuSkbs nfgpuMaxSkbs.toNat drv.nfgpuNext = .ok i

/-- Every slot the allocation hook can hand out is backed, whatever the native allocator returns.
Kind: D -/
def HandsOutBacked (drv : Globals) : Prop :=
  ∀ shinfo ret i, MovedTo drv shinfo ret i → SlotBacked drv i

/-- The slots that are backed: those below the number of pages.
Kind: L -/
theorem slotBacked_iff (drv : Globals) {i : BitVec 64} (hi : i < nfgpuMaxSkbs) :
    SlotBacked drv i ↔ i < drv.nfgpuNpages := by
  have hnat : i.toNat < 8192 := by
    rwa [BitVec.lt_def, nfgpuMaxSkbs_toNat] at hi
  constructor
  · intro hback
    have hzero := hback 0 (by decide)
    rw [kernelPage_slotByte drv hnat (by decide)] at hzero
    by_contra hge
    rw [if_neg hge] at hzero
    cases hzero
  · intro hlt x hx
    rw [BitVec.lt_def, nfgpuSkbSize_toNat] at hx
    rw [kernelPage_slotByte drv hnat hx, if_pos hlt]
    rfl

section states

variable {s s' : System} {env : IoctlEnv} {t : System}

/-- Only `SET_BUFFERS` changes the base and the number of pages.
Kind: L -/
theorem step_base_pages {e : Event} (h : step s e = some s') (he : ¬SetsBuffers e) :
    s'.drv.nfgpuKva = s.drv.nfgpuKva ∧ s'.drv.nfgpuNpages = s.drv.nfgpuNpages := by
  cases e with
  | alloc p native nrFrags =>
      cases native with
      | none =>
          obtain ⟨-, rfl⟩ := step_alloc_null h
          exact ⟨rfl, rfl⟩
      | some ret =>
          obtain ⟨-, ⟨-, rfl⟩ | ⟨-, -, -, i, -, rfl⟩⟩ := step_alloc_cases h
          · exact ⟨rfl, rfl⟩
          · exact ⟨rfl, rfl⟩
  | adjust p data tail len =>
      obtain ⟨l, -, rfl⟩ := step_adjust_cases h
      exact ⟨rfl, rfl⟩
  | clone p q =>
      obtain ⟨-, l, -, rfl⟩ := step_clone_cases h
      exact ⟨rfl, rfl⟩
  | release p =>
      obtain ⟨l, -, rfl⟩ := step_release_cases h
      rcases skbReleaseDataTogpu_cases s.drv l.cur with hrel | ⟨-, -, -, hrel⟩
      · simp only [System.release, hrel, and_self]
      · simp only [System.release, hrel, and_self]
  | ioctl cmd env =>
      rcases step_ioctl_cases h with ⟨-, -, -, rfl⟩ | ⟨hset, hacc, -⟩ | ⟨-, rfl⟩ | ⟨-, rfl⟩
      · exact ⟨rfl, rfl⟩
      · exact absurd ⟨hset, hacc⟩ he
      · exact ⟨rfl, rfl⟩
      · exact ⟨rfl, rfl⟩

/-- **In every state of a mapping the base and the number of pages are those of the call that made
it.**
Kind: P -/
theorem laterState_pages (hacc : env.accessOk = true) (hlen : env.walked.length < 2 ^ 64)
    (ht : LaterState env t) :
    t.drv.nfgpuKva = env.vmap ∧ t.drv.nfgpuNpages.toNat = env.walked.length := by
  obtain ⟨shinfo, es, es', hrun, -, hno, -⟩ := ht
  rw [exec_append, Option.bind_eq_some_iff] at hrun
  obtain ⟨u, -, hrun⟩ := hrun
  obtain ⟨v, hset, hrest⟩ := exec_cons_eq_some.mp hrun
  have hv : v.drv.nfgpuKva = env.vmap ∧ v.drv.nfgpuNpages.toNat = env.walked.length := by
    rcases step_ioctl_cases hset with ⟨-, -, hno, -⟩ | ⟨-, -, rfl⟩ | ⟨hc, -⟩ | ⟨hc, -⟩
    · rw [hno rfl] at hacc
      cases hacc
    · exact ⟨(ioctlSetBuffers_drv u.drv env).1, (ioctlSetBuffers_pages u.drv hlen).1⟩
    · exact absurd hc (by decide)
    · exact absurd hc (by decide)
  have halong : Along step (fun _ e => ¬SetsBuffers e) v es' :=
    along_of_forall (fun e he _ => hno e he) v
  refine exec_invariant (I := fun w => w.drv.nfgpuKva = env.vmap ∧
    w.drv.nfgpuNpages.toNat = env.walked.length) (fun a e b hI he hstep => ?_) hv halong hrest
  obtain ⟨hkva, hnum⟩ := step_base_pages hstep he
  rw [hkva, hnum]
  exact hI

/-- With a page for each slot, every slot handed out is backed.
Kind: L -/
theorem handsOutBacked_of_le {drv : Globals} (h : nfgpuMaxSkbs.toNat ≤ drv.nfgpuNpages.toNat) :
    HandsOutBacked drv := by
  rintro shinfo ret i ⟨-, -, hfind⟩
  have hi := (findSlot_ok hfind).1
  exact (slotBacked_iff drv hi).mpr (BitVec.lt_def.mpr (lt_of_lt_of_le (BitVec.lt_def.mp hi) h))

end states

/-! ## Using the slots up -/

/-- The `k`th buffer of the native allocator: 1728 bytes at the start of the `k`th page of the
direct mapping.
Kind: D -/
def nativeAt (k : ℕ) : SkBuff :=
  let head : Addr := 0xffff880000000000 + BitVec.ofNat 64 (k * 4096)
  ⟨head, head + 64, head + 64, head + 1728, 0⟩

/-- These buffers are moved.
Kind: L -/
theorem nativeAt_size (k : ℕ) : (nativeAt k).skbEnd - (nativeAt k).head ≤ nfgpuSkbSize := by
  have hsize : (nativeAt k).skbEnd - (nativeAt k).head = 1728 := by
    show 0xffff880000000000 + BitVec.ofNat 64 (k * 4096) + 1728 -
      (0xffff880000000000 + BitVec.ofNat 64 (k * 4096)) = (1728 : Addr)
    bv_omega
  rw [hsize]
  decide

/-- Their heads mark a slot as used.
Kind: L -/
theorem nativeAt_head_ne {k : ℕ} (hk : k < 8192) : (nativeAt k).head ≠ 0 := by
  show (0xffff880000000000 + BitVec.ofNat 64 (k * 4096) : Addr) ≠ 0
  bv_omega

/-- What follows `SET_BUFFERS`: `START`, and then one buffer after another.
Kind: D -/
def fillRun (env : IoctlEnv) (m : ℕ) : List Event :=
  .ioctl togpuIoctlStart env :: (List.range m).map fun k => .alloc k (some (nativeAt k)) 0

/-- Slots `1` to `m` are in use, and the search is at the last of them.
Kind: D -/
structure Filled (env : IoctlEnv) (m : ℕ) (s : System) : Prop where
  running : s.drv.nfgpuRunning = true
  maps : s.maps = [⟨env.vmap, env.walked.length⟩]
  live : ∀ k, m ≤ k → s.live k = none
  free : ∀ i : BitVec 64, m < i.toNat → s.drv.nfgpuSkbs i = 0
  used : 0 < m → s.drv.nfgpuSkbs (BitVec.ofNat 64 m) ≠ 0
  next : s.drv.nfgpuNext = BitVec.ofNat 64 (max m 1)

section fill

variable {env : IoctlEnv} {m : ℕ} {s : System}

/-- The next slot is the one after the last in use.
Kind: L -/
theorem Filled.findSlot_eq (h : Filled env m s) (hm : m < 8191) :
    findSlot s.drv.nfgpuSkbs nfgpuMaxSkbs.toNat s.drv.nfgpuNext =
      .ok (BitVec.ofNat 64 (m + 1)) := by
  have hnat : (BitVec.ofNat 64 (m + 1)).toNat = m + 1 := Nat.mod_eq_of_lt (by omega)
  have hlt : BitVec.ofNat 64 (m + 1) < nfgpuMaxSkbs := by
    rw [BitVec.lt_def, nfgpuMaxSkbs_toNat, hnat]
    omega
  have hfree := h.free (BitVec.ofNat 64 (m + 1)) (by omega)
  rw [h.next, nfgpuMaxSkbs_toNat]
  rcases Nat.eq_zero_or_pos m with rfl | hpos
  · -- nothing in use: the search is at slot 1 and stays there
    have hfirst : max 0 1 = 0 + 1 := rfl
    rw [hfirst, findSlot, if_pos hlt, if_neg (not_not.mpr hfree)]
  · have hmlt : BitVec.ofNat 64 m < nfgpuMaxSkbs := by
      rw [BitVec.lt_def, nfgpuMaxSkbs_toNat, BitVec.toNat_ofNat]
      omega
    have hsucc : BitVec.ofNat 64 m + 1 = BitVec.ofNat 64 (m + 1) := by
      rw [BitVec.ofNat_add]
      rfl
    have hadv : advance (BitVec.ofNat 64 m) = BitVec.ofNat 64 (m + 1) := by
      rw [advance, hsucc, if_neg (BitVec.not_le.mpr hlt)]
    rw [Nat.max_eq_left hpos, findSlot, if_pos hmlt, if_pos (h.used hpos), hadv, findSlot,
      if_pos hlt, if_neg (not_not.mpr hfree)]

/-- One more buffer.
Kind: L -/
theorem Filled.alloc (h : Filled env m s) (hm : m < 8191) :
    ∃ s', step s (.alloc m (some (nativeAt m)) 0) = some s' ∧ Filled env (m + 1) s' := by
  have hstep := step_alloc_of_found (h.live m le_rfl) h.running rfl (nativeAt_size m)
    (h.findSlot_eq hm)
  refine ⟨_, hstep, h.running, h.maps, fun k hk => ?_, fun i hi => ?_, fun _ => ?_, ?_⟩
  · exact (Function.update_of_ne (by omega) _ _).trans (h.live k (by omega))
  · have hne : i ≠ BitVec.ofNat 64 (m + 1) := by
      rintro rfl
      rw [BitVec.toNat_ofNat] at hi
      omega
    exact (Function.update_of_ne hne _ _).trans (h.free i (by omega))
  · show Function.update _ _ _ _ ≠ _
    rw [Function.update_self]
    exact nativeAt_head_ne (by omega)
  · rw [Nat.max_eq_left (by omega)]
    rfl

/-- **A run that uses the first `m` slots up**, for any `m` the table has room for.
Kind: P -/
theorem exec_fill (hacc : env.accessOk = true) (hv : env.vmap ≠ 0) (hm : m < 8192) :
    ∃ s, exec step (System.boot fun _ => ⟨0, 0⟩)
        (.ioctl togpuIoctlSetBuffers env :: fillRun env m) = some s ∧ Filled env m s := by
  induction m with
  | zero =>
      obtain ⟨s, hrun, hrunning, -, hskbs, hnext, hmaps, hlive⟩ :=
        exec_setBuffers_start (fun _ => ⟨0, 0⟩) hacc hv
      refine ⟨s, hrun, hrunning, hmaps, fun k _ => congrFun hlive k, fun i _ => congrFun hskbs i,
        fun h => absurd h (lt_irrefl _), hnext⟩
  | succ m ih =>
      obtain ⟨s, hrun, hs⟩ := ih (by omega)
      obtain ⟨s', hstep, hs'⟩ := hs.alloc (by omega)
      have hone : fillRun env (m + 1) = fillRun env m ++ [.alloc m (some (nativeAt m)) 0] := by
        simp [fillRun, List.range_succ]
      rw [hone]
      exact ⟨s', exec_concat hrun hstep, hs'⟩

/-- The states of that run are states of the mapping.
Kind: L -/
theorem laterState_fill (hacc : env.accessOk = true) (hv : env.vmap ≠ 0) (hm : m < 8192) :
    ∃ s, LaterState env s ∧ Filled env m s := by
  obtain ⟨s, hrun, hs⟩ := exec_fill hacc hv hm
  have hno : ∀ e ∈ fillRun env m, ¬SetsBuffers e := by
    intro e he
    rcases List.mem_cons.mp he with rfl | he
    · exact fun h => absurd h.1 (by decide)
    · obtain ⟨k, -, rfl⟩ := List.mem_map.mp he
      exact id
  have hmem : ⟨env.vmap, env.walked.length⟩ ∈ s.maps := by
    rw [hs.maps]
    exact List.mem_singleton_self _
  exact ⟨s, ⟨fun _ => ⟨0, 0⟩, [], fillRun env m, hrun, nofun, hno, hmem⟩, hs⟩

/-- With fewer pages than slots some state of the mapping hands out the first slot behind them.
Kind: L -/
theorem exists_slot_not_backed (hacc : env.accessOk = true) (hv : env.vmap ≠ 0)
    (hlen : env.walked.length < nfgpuMaxSkbs.toNat) :
    ∃ s, LaterState env s ∧ ¬HandsOutBacked s.drv := by
  rw [nfgpuMaxSkbs_toNat] at hlen
  -- slot `n` is behind `n` pages; slot 0 is never handed out
  obtain ⟨s, hlater, hs⟩ := laterState_fill hacc hv
    (show env.walked.length - 1 < 8192 by omega)
  refine ⟨s, hlater, fun hback => ?_⟩
  have hfind := hs.findSlot_eq (by omega)
  have hi := (findSlot_ok hfind).1
  have hslot := hback (fun _ => ⟨0, 0⟩) (nativeAt 0) _ ⟨hs.running, ⟨rfl, nativeAt_size 0⟩, hfind⟩
  rw [slotBacked_iff _ hi, BitVec.lt_def, (laterState_pages hacc (by omega) hlater).2,
    BitVec.toNat_ofNat] at hslot
  omega

end fill

/-! ## The condition -/

/-- The walk of a request stores inside `nfgpu_pages` iff the request fits.
Kind: L -/
theorem storesInside_iff (mm : MmStruct) {gb : NfgpuMemInfo} {fuel : ℕ} (h : PageRequest gb)
    (hfuel : gb.size.toNat / 4096 ≤ fuel) :
    StoresInside fuel mm gb ↔ (requestPages mm gb).length ≤ nfgpuMaxPages := by
  constructor
  · intro hinside
    obtain ⟨walked, -, hstores⟩ := mempoolStores_eq h hfuel mm nfgpuInternalInit
    obtain ⟨drv', stores, hstores', hlt⟩ := hinside nfgpuInternalInit
    rw [hstores] at hstores'
    cases hstores'
    exact (range_lt_maxPages_iff _).mp hlt
  · intro hle drv
    obtain ⟨drv', -, hstores⟩ := mempoolStores_eq h hfuel mm drv
    exact ⟨drv', _, hstores, (range_lt_maxPages_iff _).mpr hle⟩

/-- **A `SET_BUFFERS` stores inside `nfgpu_pages` and every slot handed out in any state of its
mapping lies in the pages mapped at the base iff the request has exactly `NFGPU_MAX_PAGES` present
pages.** With fewer some slots are behind the mapping; with more the walk overruns the array. For
every page table, every request of whole pages and every base of a call that returns 0; over all
runs from module init, with any allocations, releases, clones and commands before and after it.
Source: `xt_TOGPU_main.c` 235–277, 344–450
Kind: P
Fidelity: exact
Hyps: (a) `PageRequest gb`; (b) `vmap` succeeds; (c) the loops of the walk may run as often as the
request has pages -/
theorem slots_backed_iff (mm : MmStruct) {gb : NfgpuMemInfo} {kva : Addr} {fuel : ℕ}
    (h : PageRequest gb) (hkva : kva ≠ 0) (hfuel : gb.size.toNat / 4096 ≤ fuel) :
    (∀ drv, nfgpuSetMempoolOf fuel mm drv gb kva =
        some (nfgpuSetMempool drv (.ofRequest mm gb kva))) ∧
      ((StoresInside fuel mm gb ∧
          ∀ t, LaterState (.ofRequest mm gb kva) t → HandsOutBacked t.drv) ↔
        (requestPages mm gb).length = nfgpuMaxPages) := by
  refine ⟨fun drv => nfgpuSetMempoolOf_eq h hfuel mm drv true kva, ?_⟩
  rw [storesInside_iff mm h hfuel]
  constructor
  · rintro ⟨hle, hall⟩
    refine le_antisymm hle ?_
    by_contra hlt
    have hacc : (IoctlEnv.ofRequest mm gb kva).accessOk = true := rfl
    rw [nfgpuMaxPages_eq_maxSkbs] at hlt
    obtain ⟨s, hlater, hno⟩ := exists_slot_not_backed hacc hkva (not_le.mp hlt)
    exact hno (hall s hlater)
  · intro heq
    refine ⟨heq.le, fun t ht => ?_⟩
    apply handsOutBacked_of_le
    rw [(laterState_pages rfl (length_requestPages_lt mm gb) ht).2, ← nfgpuMaxPages_eq_maxSkbs]
    exact heq.ge

/-- A request of `size` bytes to a process with a page at every address, mapped at the start of the
`vmalloc` area.
Kind: D -/
def mapEveryPage (size : BitVec 64) : IoctlEnv :=
  .ofRequest everyPage ⟨0x7f0000000000, size⟩ 0xffffc90000000000

/-- A request of 32 MB: the call stores inside the array, every slot is backed, and the mapping has
running states.
Kind: C -/
theorem slots_backed_full_pool :
    (StoresInside 8192 everyPage ⟨0x7f0000000000, nfgpuMaxMemory⟩ ∧
        ∀ t, LaterState (mapEveryPage nfgpuMaxMemory) t → HandsOutBacked t.drv) ∧
      ∃ t, LaterState (mapEveryPage nfgpuMaxMemory) t ∧ t.drv.nfgpuRunning = true := by
  have hbase : (0xffffc90000000000 : Addr) ≠ 0 := by decide
  constructor
  · refine (slots_backed_iff everyPage
      (⟨by decide, by decide⟩ : PageRequest ⟨0x7f0000000000, nfgpuMaxMemory⟩) hbase
      (by decide : _ ≤ 8192)).2.mpr ?_
    rw [length_requestPages_everyPage (by decide)]
    decide
  · have hacc : (mapEveryPage nfgpuMaxMemory).accessOk = true := rfl
    obtain ⟨t, ht, hfill⟩ := laterState_fill (m := 0) hacc hbase (by decide)
    exact ⟨t, ht, hfill.running⟩

/-- A request of one page: the first buffer after `START` goes to slot 1, which is not backed.
Kind: C -/
theorem slot_behind_one_page :
    ∃ s, LaterState (mapEveryPage 0x1000) s ∧
      MovedTo s.drv (fun _ => ⟨0, 0⟩) (nativeAt 0) 1 ∧ ¬SlotBacked s.drv 1 := by
  have hacc : (mapEveryPage 0x1000).accessOk = true := rfl
  have hlen : (mapEveryPage 0x1000).walked.length = 1 := by
    rw [mapEveryPage, IoctlEnv.ofRequest, length_requestPages_everyPage (by decide)]
    decide
  obtain ⟨s, hlater, hs⟩ := laterState_fill (m := 0) hacc (by decide) (by decide)
  refine ⟨s, hlater, ⟨hs.running, ⟨rfl, nativeAt_size 0⟩, hs.findSlot_eq (by decide)⟩, ?_⟩
  have hnum := (laterState_pages hacc (by rw [hlen]; decide) hlater).2
  rw [slotBacked_iff _ (by decide), BitVec.lt_def, hnum, hlen]
  exact lt_irrefl 1

end Togpu.Driver
