import Togpu.Pool.Slots

/-!
# Live buffers and the lifetime of the mapping

`STOP` unmaps the pool at once and leaves the base in place to `Let remaining allocated SKBs to be
free`: the buffers that are still in the pool then point into nothing. `START` after it moves new
buffers there too.

* `LiveMapped` — every live buffer that was moved has its head in a mapping that is still there.
* `KeepsMapped` — the condition on a step: a moving allocation finds the slot it takes mapped, and
  `STOP` finds no moved buffer in the mapping it ends.
* **In every run whose steps meet the condition all moved buffers are mapped, and a `STOP` that
  does not meet it breaks this** (`liveMapped_of_run`), whatever the kernel does in between.
-/

namespace Togpu.Driver

open Togpu.Lib

/-- The address lies in the pages of the mapping.
Kind: D -/
def Mapping.Holds (m : Mapping) (a : Addr) : Prop :=
  m.base.toNat ≤ a.toNat ∧ a.toNat < m.base.toNat + m.npages * 4096

/-- The address lies in a mapping that has not been unmapped.
Kind: D -/
def System.Mapped (s : System) (a : Addr) : Prop := ∃ m ∈ s.maps, m.Holds a

/-- Every live `sk_buff` whose head was moved into the pool has its head in a live mapping.
Kind: D -/
def LiveMapped (s : System) : Prop :=
  ∀ p l, s.live p = some l → l.buf.Swapped → s.Mapped l.cur.head

/-- What the kernel promises of `vmap`: the new region overlaps no live one.
Kind: D -/
def VmapFresh (s : System) : Event → Prop
  | .ioctl cmd env => cmd = togpuIoctlSetBuffers → env.vmap ≠ 0 → ∀ m ∈ s.maps, ∀ a, m.Holds a →
      ¬(⟨env.vmap, env.walked.length⟩ : Mapping).Holds a
  | _ => True

/-- The slot a moving allocation takes is mapped; a `STOP` that unmaps finds no moved buffer in the
mapping.
Kind: D -/
def KeepsMapped (s : System) : Event → Prop
  | .alloc _ (some ret) nrFrags => s.drv.nfgpuRunning = true → Movable ret nrFrags →
      ∀ i, findSlot s.drv.nfgpuSkbs nfgpuMaxSkbs.toNat s.drv.nfgpuNext = .ok i →
        s.Mapped (slotAddr s.drv.nfgpuKva i)
  | .ioctl cmd _ => cmd = togpuIoctlStop → s.drv.nfgpuRunning = true → s.drv.nfgpuKva ≠ 0 →
      ∀ m ∈ s.maps, m.base = s.drv.nfgpuKva →
        ∀ p l, s.live p = some l → l.buf.Swapped → ¬m.Holds l.cur.head
  | _ => True

/-- The live mappings do not overlap.
Kind: D -/
def MapsApart (s : System) : Prop :=
  ∀ m ∈ s.maps, ∀ n ∈ s.maps, ∀ a, m.Holds a → n.Holds a → m.base = n.base

section steps

variable {s s' : System}

/-- Only commands change the mappings.
Kind: L -/
theorem step_maps {e : Event} (h : step s e = some s') (he : ∀ cmd env, e ≠ .ioctl cmd env) :
    s'.maps = s.maps := by
  cases e with
  | alloc p native nrFrags =>
      cases native with
      | none =>
          obtain ⟨-, rfl⟩ := step_alloc_null h
          rfl
      | some ret =>
          obtain ⟨-, ⟨-, rfl⟩ | ⟨-, -, -, i, -, rfl⟩⟩ := step_alloc_cases h
          · rfl
          · rfl
  | adjust p data tail len =>
      obtain ⟨l, -, rfl⟩ := step_adjust_cases h
      rfl
  | clone p q =>
      obtain ⟨-, l, -, rfl⟩ := step_clone_cases h
      rfl
  | release p =>
      obtain ⟨l, -, rfl⟩ := step_release_cases h
      rfl
  | ioctl cmd env => exact absurd rfl (he cmd env)

/-- Commands do not touch the buffers in use.
Kind: L -/
theorem step_ioctl_live {cmd : BitVec 32} {env : IoctlEnv}
    (h : step s (.ioctl cmd env) = some s') : s'.live = s.live := by
  cases h
  rfl

/-- The mappings stay apart.
Kind: L -/
theorem mapsApart_step {e : Event} (hs : MapsApart s) (hfresh : VmapFresh s e)
    (h : step s e = some s') : MapsApart s' := by
  cases e with
  | ioctl cmd env =>
      rcases step_ioctl_cases h with ⟨-, -, -, rfl⟩ | ⟨hc, -, rfl⟩ | ⟨-, rfl⟩ | ⟨-, rfl⟩
      · exact hs
      · simp only [MapsApart]
        split_ifs with hv
        · exact hs
        · have hnew := hfresh hc hv
          intro m hm n hn a hma hna
          rcases List.mem_append.mp hm with hm | hm <;> rcases List.mem_append.mp hn with hn | hn
          · exact hs m hm n hn a hma hna
          · rw [List.mem_singleton.mp hn] at hna
            exact absurd hna (hnew m hm a hma)
          · rw [List.mem_singleton.mp hm] at hma
            exact absurd hma (hnew n hn a hna)
          · rw [List.mem_singleton.mp hm, List.mem_singleton.mp hn]
      · exact hs
      · simp only [MapsApart]
        split_ifs
        · intro m hm n hn
          exact hs m (List.mem_filter.mp hm).1 n (List.mem_filter.mp hn).1
        · exact hs
  | _ =>
      simp only [MapsApart, step_maps h (by simp)]
      exact hs

/-- The effect of `STOP` on the moved buffers: all of them are still mapped iff none was in the
mapping it ends.
Source: `xt_TOGPU_main.c` 499–509
Kind: L -/
theorem liveMapped_stop_iff {env : IoctlEnv} (hs : LiveMapped s) (hap : MapsApart s)
    (h : step s (.ioctl togpuIoctlStop env) = some s') :
    LiveMapped s' ↔ KeepsMapped s (.ioctl togpuIoctlStop env) := by
  rcases step_ioctl_cases h with ⟨-, hno, -⟩ | ⟨hno, -⟩ | ⟨hno, -⟩ | ⟨-, rfl⟩
  · exact absurd rfl hno
  · exact absurd hno (by decide)
  · exact absurd hno (by decide)
  by_cases hun : s.drv.nfgpuRunning = true ∧ s.drv.nfgpuKva ≠ 0
  · simp only [LiveMapped, System.Mapped, if_pos hun]
    constructor
    · intro hm _ _ _ m hmem hbase p l hl hsw hin
      obtain ⟨n, hn, hnin⟩ := hm p l hl hsw
      obtain ⟨hn, hne⟩ := List.mem_filter.mp hn
      exact of_decide_eq_true hne ((hap n hn m hmem _ hnin hin).trans hbase)
    · intro hk p l hl hsw
      obtain ⟨m, hm, hin⟩ := hs p l hl hsw
      refine ⟨m, List.mem_filter.mpr ⟨hm, decide_eq_true fun hbase => ?_⟩, hin⟩
      exact hk rfl hun.1 hun.2 m hm hbase p l hl hsw hin
  · simp only [LiveMapped, System.Mapped, if_neg hun]
    exact ⟨fun _ _ hr hne => absurd ⟨hr, hne⟩ hun, fun _ => hs⟩

/-- An allocation keeps the moved buffers mapped if it moves nothing, or moves into a mapped page.
Kind: L -/
theorem liveMapped_alloc {p : ℕ} {ret : SkBuff} {nrFrags : ℕ} (hs : LiveMapped s)
    (hk : KeepsMapped s (.alloc p (some ret) nrFrags))
    (h : step s (.alloc p (some ret) nrFrags) = some s') : LiveMapped s' := by
  obtain ⟨-, ⟨-, rfl⟩ | ⟨hrun, hfr, hsz, i, hi, rfl⟩⟩ := step_alloc_cases h
  · intro q l hl hsw
    rcases update_some_eq_some.mp hl with ⟨-, rfl⟩ | ⟨-, hl⟩
    · exact absurd rfl hsw
    · exact hs q l hl hsw
  · intro q l hl hsw
    rcases update_some_eq_some.mp hl with ⟨-, rfl⟩ | ⟨-, hl⟩
    · exact hk hrun ⟨hfr, hsz⟩ i hi
    · exact hs q l hl hsw

/-- **A step that meets the condition keeps the moved buffers mapped.**
Kind: P -/
theorem liveMapped_step {e : Event} (hs : LiveMapped s) (hap : MapsApart s)
    (hk : KeepsMapped s e) (h : step s e = some s') : LiveMapped s' := by
  cases e with
  | alloc p native nrFrags =>
      cases native with
      | none =>
          obtain ⟨-, rfl⟩ := step_alloc_null h
          exact hs
      | some ret => exact liveMapped_alloc hs hk h
  | adjust p data tail len =>
      obtain ⟨l, hl, rfl⟩ := step_adjust_cases h
      intro q m hm hsw
      rcases update_some_eq_some.mp hm with ⟨-, rfl⟩ | ⟨-, hm⟩
      · exact hs p l hl hsw
      · exact hs q m hm hsw
  | clone p q =>
      obtain ⟨-, l, hl, rfl⟩ := step_clone_cases h
      intro r m hm hsw
      rcases update_some_eq_some.mp hm with ⟨-, rfl⟩ | ⟨-, hm⟩
      · exact hs p l hl hsw
      · exact hs r m hm hsw
  | release p =>
      obtain ⟨l, hl, rfl⟩ := step_release_cases h
      intro q m hm hsw
      exact hs q m (update_none_eq_some.mp hm).2 hsw
  | ioctl cmd env =>
      by_cases hstop : cmd = togpuIoctlStop
      · subst hstop
        exact (liveMapped_stop_iff hs hap h).mpr hk
      -- any other command only adds mappings
      have hsub : ∀ m ∈ s.maps, m ∈ s'.maps := by
        rcases step_ioctl_cases h with ⟨-, -, -, rfl⟩ | ⟨-, -, rfl⟩ | ⟨-, rfl⟩ | ⟨hc, -⟩
        · exact fun m hm => hm
        · intro m hm
          dsimp only
          split_ifs
          · exact hm
          · exact List.mem_append_left _ hm
        · exact fun m hm => hm
        · exact absurd hc hstop
      intro p l hl hsw
      rw [step_ioctl_live h] at hl
      obtain ⟨m, hm, hin⟩ := hs p l hl hsw
      exact ⟨m, hsub m hm, hin⟩

/-- The launcher's first two commands: `SET_BUFFERS` with a successful `vmap`, then `START`.
Source: `xt_TOGPU_launcher.c` 113–126
Kind: L -/
theorem exec_setBuffers_start (shinfo : Addr → SkbSharedInfo) {env : IoctlEnv}
    (hacc : env.accessOk = true) (hv : env.vmap ≠ 0) :
    ∃ s, exec step (System.boot shinfo)
        [.ioctl togpuIoctlSetBuffers env, .ioctl togpuIoctlStart env] = some s ∧
      s.drv.nfgpuRunning = true ∧ s.drv.nfgpuKva = env.vmap ∧
      s.drv.nfgpuSkbs = (fun _ => 0) ∧ s.drv.nfgpuNext = 1 ∧
      s.maps = [⟨env.vmap, env.walked.length⟩] ∧ s.live = fun _ => none := by
  have hset : step (System.boot shinfo) (.ioctl togpuIoctlSetBuffers env) =
      some { System.boot shinfo with
        drv := (ioctlSetBuffers nfgpuInternalInit env).drv
        maps := [⟨env.vmap, env.walked.length⟩] } := by
    have hout := (nfgpuIoctl_commands nfgpuInternalInit env).2.2 hacc
    simpa [step, System.ioctl, System.boot, hout, ioctlSetBuffers] using hv
  obtain ⟨hkva, -⟩ := ioctlSetBuffers_drv nfgpuInternalInit env
  obtain ⟨hskbs, hnext⟩ := ioctlSetBuffers_table nfgpuInternalInit hv
  exact ⟨_, exec_cons_eq_some.mpr ⟨_, hset, rfl⟩, rfl, hkva, hskbs, hnext, rfl, rfl⟩

end steps

/-- **Live packets stay in mapped memory** in every run from module init, with any allocations,
releases, clones and commands, in which no buffer is moved to a slot that is not mapped and no
`STOP` unmaps a mapping that holds a moved buffer. In a state reached so, a `STOP` of the other
kind always leaves a moved buffer unmapped.
Source: `xt_TOGPU_main.c` 235–314, 467–517
Kind: P
Fidelity: exact
Hyps: (a) `vmap` regions are fresh; (b) every step meets `KeepsMapped` -/
theorem liveMapped_of_run (shinfo : Addr → SkbSharedInfo) {es : List Event} {s : System}
    (hes : Along step (fun s e => VmapFresh s e ∧ KeepsMapped s e) (System.boot shinfo) es)
    (hrun : exec step (System.boot shinfo) es = some s) :
    LiveMapped s ∧ ∀ env s', step s (.ioctl togpuIoctlStop env) = some s' →
      (LiveMapped s' ↔ KeepsMapped s (.ioctl togpuIoctlStop env)) := by
  have hI : LiveMapped s ∧ MapsApart s := by
    refine exec_invariant (I := fun s => LiveMapped s ∧ MapsApart s) ?_ ?_ hes hrun
    · rintro t e t' ⟨hl, ha⟩ ⟨hfresh, hk⟩ h
      exact ⟨liveMapped_step hl ha hk h, mapsApart_step ha hfresh h⟩
    · refine ⟨fun p l hl => ?_, fun m hm => ?_⟩
      · cases hl
      · cases hm
  exact ⟨hI.1, fun env s' h => liveMapped_stop_iff hI.1 hI.2 h⟩

section fullPool

variable {env : IoctlEnv}

/-- The launcher starts a pool at the start of the `vmalloc` area and a buffer of 1728 bytes is
moved into slot 1.
Kind: L -/
theorem exec_pool_alloc (hacc : env.accessOk = true) (hv : env.vmap = 0xffffc90000000000) :
    ∃ s, exec step (System.boot fun _ => ⟨0, 0⟩)
        [.ioctl togpuIoctlSetBuffers env, .ioctl togpuIoctlStart env,
          .alloc 0 (some (nativeOfSize 1728)) 0] = some s ∧
      s.drv.nfgpuRunning = true ∧ s.drv.nfgpuKva = env.vmap ∧
      s.maps = [⟨env.vmap, env.walked.length⟩] ∧ ∃ l, s.live 0 = some l ∧ l.buf.Swapped := by
  obtain ⟨s, hrun, hrunning, hkva, hskbs, hnext, hmaps, hlive⟩ :=
    exec_setBuffers_start (fun _ => ⟨0, 0⟩) hacc (by rw [hv]; decide)
  have hfind : findSlot s.drv.nfgpuSkbs nfgpuMaxSkbs.toNat s.drv.nfgpuNext = .ok 1 := by
    rw [hskbs, hnext, nfgpuMaxSkbs_toNat]
    rfl
  have halloc : step s (.alloc 0 (some (nativeOfSize 1728)) 0) = _ :=
    step_alloc_of_found (congrFun hlive 0) hrunning rfl (by decide) hfind
  refine ⟨_, exec_concat hrun halloc, hrunning, hkva, hmaps, _, System.adopt_live_self .., ?_⟩
  rw [hkva, hv]
  show slotAddr 0xffffc90000000000 1 ≠ (nativeOfSize 1728).head
  decide

/-- If the pool has its 8192 pages, the three steps meet the condition.
Kind: L -/
theorem along_pool_alloc (hacc : env.accessOk = true) (hv : env.vmap = 0xffffc90000000000)
    (hlen : env.walked.length = 8192) :
    Along step (fun s e => VmapFresh s e ∧ KeepsMapped s e) (System.boot fun _ => ⟨0, 0⟩)
      [.ioctl togpuIoctlSetBuffers env, .ioctl togpuIoctlStart env,
        .alloc 0 (some (nativeOfSize 1728)) 0] := by
  obtain ⟨t, htwo, -, hkva, -, -, hmaps, -⟩ :=
    exec_setBuffers_start (fun _ => ⟨0, 0⟩) hacc (by rw [hv]; decide)
  refine Along.concat (show Along _ _ _ [_, _] from ?_) fun u hu => ?_
  · refine ⟨⟨fun _ _ m hm => ?_, fun h => absurd h (by decide)⟩, fun _ _ => ?_⟩
    · cases hm
    · exact ⟨⟨fun h => absurd h (by decide), fun h => absurd h (by decide)⟩, fun _ _ => trivial⟩
  · rw [htwo] at hu
    cases hu
    refine ⟨trivial, fun _ _ i hfind => ⟨⟨env.vmap, env.walked.length⟩, by simp [hmaps], ?_⟩⟩
    have hi := (findSlot_ok hfind).1
    have hal : Aligned env.vmap := by
      rw [hv]
      decide
    have hin := inRange_slotAddr (hal.isPoolBase (by rw [hv]; decide)) hi
    rw [hkva]
    simpa [InRange, Mapping.Holds, hlen, nfgpuMaxMemory_toNat] using hin

/-- `STOP` after that: the buffer is still in use and its page is unmapped.
Kind: L -/
theorem exec_pool_alloc_stop (hacc : env.accessOk = true) (hv : env.vmap = 0xffffc90000000000) :
    ∃ s, exec step (System.boot fun _ => ⟨0, 0⟩)
        [.ioctl togpuIoctlSetBuffers env, .ioctl togpuIoctlStart env,
          .alloc 0 (some (nativeOfSize 1728)) 0, .ioctl togpuIoctlStop env] = some s ∧
      ¬LiveMapped s := by
  obtain ⟨s, hrun, hrunning, hkva, hmaps, l, hl, hsw⟩ := exec_pool_alloc hacc hv
  have hstop : step s (.ioctl togpuIoctlStop env) = some (s.ioctl togpuIoctlStop env) := rfl
  refine ⟨s.ioctl togpuIoctlStop env, exec_concat hrun hstop, fun hlm => ?_⟩
  obtain ⟨m, hm, -⟩ := hlm 0 l (by rw [step_ioctl_live hstop, hl]) hsw
  rcases step_ioctl_cases hstop with ⟨-, hno, -⟩ | ⟨hno, -⟩ | ⟨hno, -⟩ | ⟨-, hs'⟩
  · exact hno rfl
  · exact absurd hno (by decide)
  · exact absurd hno (by decide)
  · rw [hs'] at hm
    simp [hrunning, hkva, hmaps, hv] at hm

end fullPool

/-- A pool of 8192 pages at the start of the `vmalloc` area.
Kind: D -/
def fullPool : IoctlEnv where
  accessOk := true
  gb := ⟨0x7f0000000000, nfgpuMaxMemory⟩
  walked := List.replicate 8192 0xffffea0000000000
  vmap := 0xffffc90000000000

/-- A buffer moved into a full pool is mapped.
Kind: C -/
theorem liveMapped_full_pool :
    ∃ s, exec step (System.boot fun _ => ⟨0, 0⟩)
        [.ioctl togpuIoctlSetBuffers fullPool, .ioctl togpuIoctlStart fullPool,
          .alloc 0 (some (nativeOfSize 1728)) 0] = some s ∧
      LiveMapped s := by
  obtain ⟨s, hrun, -⟩ := exec_pool_alloc (show fullPool.accessOk = true from rfl) rfl
  exact ⟨s, hrun, (liveMapped_of_run _ (along_pool_alloc rfl rfl List.length_replicate) hrun).1⟩

/-- After `STOP` it is not.
Kind: C -/
theorem not_liveMapped_after_stop :
    ∃ s, exec step (System.boot fun _ => ⟨0, 0⟩)
        [.ioctl togpuIoctlSetBuffers fullPool, .ioctl togpuIoctlStart fullPool,
          .alloc 0 (some (nativeOfSize 1728)) 0, .ioctl togpuIoctlStop fullPool] = some s ∧
      ¬LiveMapped s :=
  exec_pool_alloc_stop rfl rfl

end Togpu.Driver
