import Togpu.Launcher.Main
import Togpu.Mapping.Balance
import Togpu.Mapping.Running

/-!
# Runs with launchers

The driver trusts the order of its commands (`standingStep`, `accountStep`). The launcher is what is
to bring them in that order, and the open counter what is to keep two launchers apart.

* `Phase.Fits` — what the driver is like when a process has come to a phase.
* `Orderly` — no release comes between the two operations of a failing open.
* `WorldInv` — the counter agrees with the processes, every process fits, and the flag means a
  mapping. **Every orderly action keeps it** (`worldInv_step`).
* **The flag means a live mapping, and no mapping is unmapped twice**
  (`usable_of_launchers`), however many launchers run and wherever they are killed.
* **Every launcher killed between `SET_BUFFERS` and `START` costs one mapping, and nothing else
  does** (`maps_eq_lost`).
* **The pool outlives the launcher it belongs to** (`pool_outlives_launcher`): only the first
  `STOP` of another one ends it.
-/

namespace Togpu.Launcher

open Togpu.Lib Togpu.Driver

/-! ## Conditions and invariants -/

/-- A release finds no failing open between its two operations, and the failing opens do not
exhaust the counter.
Kind: D -/
def Orderly (w : World) : Action → Prop
  | .opens p _ => Device.ReleasesAlone w.dev (.decAndTest p)
  | .release p => Device.ReleasesAlone w.dev (.set p)
  | _ => True

instance (w : World) : ∀ a, Decidable (Orderly w a)
  | .opens p _ => inferInstanceAs (Decidable (Device.ReleasesAlone w.dev (.decAndTest p)))
  | .release p => inferInstanceAs (Decidable (Device.ReleasesAlone w.dev (.set p)))
  | .busy _ | .call _ _ | .kill _ | .kernel _ => inferInstanceAs (Decidable True)

/-- What the driver is like when a process has come to a phase. Nothing comes to the phases behind
`aes_test`.
Kind: D -/
def Phase.Fits (s : System) : Phase → Prop
  | .alloc | .setBuffers _ => s.drv.nfgpuRunning = false
  | .start ptr err => s.drv.nfgpuRunning = false ∧ 0 ≤ err ∧ s.drv.nfgpuUva = ptr ∧ HasBase s
  | .aesTest ptr => s.drv.nfgpuRunning = true ∧ s.drv.nfgpuUva = ptr
  | .lastStop _ | .free _ => False
  | .entry | .opening | .firstStop | .ended _ | .gone _ => True

/-- The counter agrees with the processes, every process fits the driver, and the flag means a
mapping.
Kind: D -/
structure WorldInv (w : World) : Prop where
  openInv : Device.OpenInv w.dev
  holders : ∀ p, p ∈ w.dev.holders ↔ (w.proc p).HasDevice
  failing : ∀ p, p ∈ w.dev.failing ↔ w.proc p = .opening
  fits : ∀ p, (w.proc p).Fits w.sys
  usable : UsableMapping w.sys

/-- The pool is the same: flag, base, process address and mappings.
Kind: D -/
structure SamePool (s s' : System) : Prop where
  running : s'.drv.nfgpuRunning = s.drv.nfgpuRunning
  kva : s'.drv.nfgpuKva = s.drv.nfgpuKva
  uva : s'.drv.nfgpuUva = s.drv.nfgpuUva
  maps : s'.maps = s.maps

section steps

variable {w w' : World} {p q : ℕ} {ph : Phase} {env : CallEnv}

/-- A process without the device fits any driver.
Kind: L -/
theorem Phase.fits_of_not_hasDevice (h : ¬ph.HasDevice) (s : System) : ph.Fits s := by
  cases ph with
  | entry | opening | gone _ => trivial
  | _ => exact absurd trivial h

/-- Two processes do not have the device open at once.
Source: `xt_TOGPU_main.c` 519–528
Kind: L -/
theorem WorldInv.eq_of_hasDevice (hI : WorldInv w) (hp : (w.proc p).HasDevice)
    (hq : (w.proc q).HasDevice) : q = p :=
  Finset.card_le_one.mp hI.openInv.holders_le q ((hI.holders q).mpr hq) p ((hI.holders p).mpr hp)

/-! ## What a step does -/

/-- The network stack does not touch the pool.
Source: `xt_TOGPU_main.c` 235–314
Kind: L -/
theorem samePool_of_step {s s' : System} {e : Event} (h : Driver.step s e = some s')
    (he : ∀ cmd env, e ≠ .ioctl cmd env) : SamePool s s' := by
  cases e with
  | alloc p native nrFrags =>
      cases native with
      | none =>
          obtain ⟨-, rfl⟩ := step_alloc_null h
          exact ⟨rfl, rfl, rfl, rfl⟩
      | some ret =>
          obtain ⟨-, ⟨-, rfl⟩ | ⟨-, -, -, i, -, rfl⟩⟩ := step_alloc_cases h
          · exact ⟨rfl, rfl, rfl, rfl⟩
          · exact ⟨rfl, rfl, rfl, rfl⟩
  | adjust p data tail len =>
      obtain ⟨l, -, rfl⟩ := step_adjust_cases h
      exact ⟨rfl, rfl, rfl, rfl⟩
  | clone p q =>
      obtain ⟨-, l, -, rfl⟩ := step_clone_cases h
      exact ⟨rfl, rfl, rfl, rfl⟩
  | release p =>
      obtain ⟨l, -, rfl⟩ := step_release_cases h
      rcases skbReleaseDataTogpu_cases s.drv l.cur with heq | ⟨-, -, -, heq⟩
      · exact ⟨by simp [System.release, heq], by simp [System.release, heq],
          by simp [System.release, heq], rfl⟩
      · exact ⟨by simp [System.release, heq], by simp [System.release, heq],
          by simp [System.release, heq], rfl⟩
  | ioctl cmd env => exact absurd rfl (he cmd env)

/-- The effect of a call of `main` in the process `p`.
Kind: D -/
inductive Called (w : World) (p : ℕ) (env : CallEnv) : World → Prop
  /-- The first `STOP`. -/
  | stops (hp : w.proc p = .firstStop) : Called w p env
      ({ w with sys := w.sys.ioctl togpuIoctlStop (env.ioctlEnv 0) }.goto p .alloc)
  /-- The allocation, which may fail. -/
  | allocates (hp : w.proc p = .alloc) (ph : Phase)
      (hph : ph = .ended (some (-1)) ∨ ∃ ptr, ph = .setBuffers ptr) : Called w p env (w.goto p ph)
  /-- `SET_BUFFERS` is rejected. -/
  | rejected (ptr : Addr) (hp : w.proc p = .setBuffers ptr) :
      Called w p env (w.goto p (.ended (some (-1))))
  /-- `SET_BUFFERS`, when `vmap` fails. -/
  | unmapped (ptr : Addr) (hp : w.proc p = .setBuffers ptr) (hv : env.vmap = 0) : Called w p env
      ({ w with sys := { w.sys with
          drv := (ioctlSetBuffers w.sys.drv (env.ioctlEnv ptr)).drv } }.goto p
        (.ended (some (-1))))
  /-- `SET_BUFFERS`, when `vmap` succeeds. -/
  | maps (ptr : Addr) (hp : w.proc p = .setBuffers ptr) (hv : env.vmap ≠ 0) : Called w p env
      ({ w with sys := { w.sys with
          drv := (ioctlSetBuffers w.sys.drv (env.ioctlEnv ptr)).drv
          maps := w.sys.maps ++ [Mapping.mk env.vmap env.walked.length] } }.goto p (.start ptr 0))
  /-- `START`. -/
  | starts (ptr : Addr) (err : ℤ) (hp : w.proc p = .start ptr err) : Called w p env
      ({ w with sys := { w.sys with
          drv := { w.sys.drv with nfgpuRunning := true } } }.goto p (.aesTest ptr))
  /-- A round of `aes_test`. -/
  | tests (ptr : Addr) (hp : w.proc p = .aesTest ptr) : Called w p env (w.goto p (.aesTest ptr))

/-- `SET_BUFFERS` of a launcher.
Source: `xt_TOGPU_launcher.c` 113–118
Kind: L -/
theorem called_setBuffers {ptr : Addr} (hp : w.proc p = .setBuffers ptr)
    (h : w.call p env = some w') : Called w p env w' := by
  have hgb : (env.ioctlEnv ptr).vmap = env.vmap := rfl
  simp only [World.call, hp, Phase.command, Phase.next, World.ioctl, Option.map_some,
    Option.some.injEq] at h
  subst h
  cases hacc : env.accessOk with
  | false =>
      have hout : nfgpuIoctl w.sys.drv togpuIoctlSetBuffers (env.ioctlEnv ptr) =
          ioctlReturn w.sys.drv efault := by
        simp [nfgpuIoctl, CallEnv.ioctlEnv, hacc, togpuIoctlSetBuffers, iocType, iocNr, iocDir,
          nfgpuIoctlMagic, ioc]
      have hsys : w.sys.ioctl togpuIoctlSetBuffers (env.ioctlEnv ptr) = w.sys := by
        simp [System.ioctl, hout, ioctlReturn]
      rw [hout, hsys]
      exact .rejected ptr hp
  | true =>
      have hout := (nfgpuIoctl_commands w.sys.drv (env.ioctlEnv ptr)).2.2 hacc
      rw [hout]
      by_cases hv : env.vmap = 0
      · have hsys : w.sys.ioctl togpuIoctlSetBuffers (env.ioctlEnv ptr) =
            { w.sys with drv := (ioctlSetBuffers w.sys.drv (env.ioctlEnv ptr)).drv } := by
          simp [System.ioctl, hout, ioctlSetBuffers, hgb, hv]
        have herr : (ioctlSetBuffers w.sys.drv (env.ioctlEnv ptr)).err = efault := by
          simp [ioctlSetBuffers, nfgpuSetMempool, hgb, hv]
        rw [hsys, herr]
        exact .unmapped ptr hp hv
      · have hsys : w.sys.ioctl togpuIoctlSetBuffers (env.ioctlEnv ptr) =
            { w.sys with
              drv := (ioctlSetBuffers w.sys.drv (env.ioctlEnv ptr)).drv
              maps := w.sys.maps ++ [Mapping.mk env.vmap env.walked.length] } := by
          simp only [System.ioctl, hout, ioctlSetBuffers, hgb, if_neg hv]
          rfl
        have herr : (ioctlSetBuffers w.sys.drv (env.ioctlEnv ptr)).err = 0 := by
          simp only [ioctlSetBuffers, nfgpuSetMempool, hgb, if_neg hv]
        rw [hsys, herr]
        exact .maps ptr hp hv

/-- **What a call of `main` can do**, in a process that fits the driver.
Source: `xt_TOGPU_launcher.c` 97–143
Kind: P -/
theorem called_of_call (hfit : (w.proc p).Fits w.sys) (h : w.call p env = some w') :
    Called w p env w' := by
  cases hp : w.proc p with
  | setBuffers ptr => exact called_setBuffers hp h
  | firstStop =>
      simp only [World.call, hp, Phase.command, Phase.next, World.ioctl, Option.map_some,
        Option.some.injEq] at h
      subst h
      exact .stops hp
  | alloc =>
      simp only [World.call, hp, Phase.command, Phase.next, World.ioctl] at h
      split at h
      · cases h
        exact .allocates hp _ (.inl rfl)
      · rename_i ptr _
        cases h
        refine .allocates hp _ ?_
        split_ifs
        · exact .inl rfl
        · exact .inr ⟨ptr, rfl⟩
  | start ptr err =>
      rw [hp] at hfit
      simp only [World.call, hp, Phase.command, Phase.next, World.ioctl, Option.map_some,
        Option.some.injEq, if_neg (not_lt.mpr hfit.2.1)] at h
      subst h
      have hsys : w.sys.ioctl togpuIoctlStart (env.ioctlEnv ptr) =
          { w.sys with drv := { w.sys.drv with nfgpuRunning := true } } := by
        simp [System.ioctl, (nfgpuIoctl_commands w.sys.drv (env.ioctlEnv ptr)).1, ioctlStart,
          ioctlReturn]
      rw [hsys]
      exact .starts ptr err hp
  | aesTest ptr =>
      simp only [World.call, hp, Phase.command, Phase.next, World.ioctl, Option.map_some,
        Option.some.injEq] at h
      subst h
      exact .tests ptr hp
  | lastStop ptr | free ptr =>
      rw [hp] at hfit
      exact absurd hfit not_false
  | entry | opening | ended code | gone code =>
      simp [World.call, hp, Phase.next] at h

/-- Only the moves between having and not having a property change who has it.
Kind: L -/
theorem mem_update_iff {P : Phase → Prop} {S : Finset ℕ} {proc : ℕ → Phase}
    (hS : ∀ q, q ∈ S ↔ P (proc q)) {T : Finset ℕ} (hself : p ∈ T ↔ P ph)
    (hother : ∀ q, q ≠ p → (q ∈ T ↔ q ∈ S)) (q : ℕ) :
    q ∈ T ↔ P (Function.update proc p ph q) := by
  by_cases hq : q = p
  · subst hq
    rwa [Function.update_self]
  · rw [Function.update_of_ne hq, hother q hq, hS q]

/-- The invariant after a process that has the device has moved on and kept it.
Kind: L -/
theorem WorldInv.move (hI : WorldInv w) (ph : Phase) (s : System) (n : ℕ)
    (hp : (w.proc p).HasDevice) (hph : ph.HasDevice) (hfit : ph.Fits s) (hu : UsableMapping s) :
    WorldInv { { w with sys := s }.goto p ph with lost := n } where
  openInv := hI.openInv
  holders := by
    refine mem_update_iff hI.holders ?_ fun _ _ => Iff.rfl
    exact iff_of_true ((hI.holders p).mpr hp) hph
  failing := by
    refine mem_update_iff (P := (· = .opening)) hI.failing ?_ fun _ _ => Iff.rfl
    refine iff_of_false (fun hmem => ?_) fun heq => ?_
    · rw [(hI.failing p).mp hmem] at hp
      exact hp
    · rw [heq] at hph
      exact hph
  fits := by
    intro q
    simp only [World.goto]
    by_cases hq : q = p
    · subst hq
      rwa [Function.update_self]
    · rw [Function.update_of_ne hq]
      exact Phase.fits_of_not_hasDevice (fun hqd => hq (hI.eq_of_hasDevice hp hqd)) s
  usable := hu

/-- The invariant after an operation on the counter.
Kind: L -/
theorem WorldInv.moveDev (hI : WorldInv w) {dev : Device.OpenState ℕ} (hdev : Device.OpenInv dev)
    (hh : p ∈ dev.holders ↔ ph.HasDevice) (hf : p ∈ dev.failing ↔ ph = .opening)
    (hother : ∀ q, q ≠ p →
      (q ∈ dev.holders ↔ q ∈ w.dev.holders) ∧ (q ∈ dev.failing ↔ q ∈ w.dev.failing))
    (hfit : ph.Fits w.sys) : WorldInv { w.goto p ph with dev := dev } where
  openInv := hdev
  holders := mem_update_iff hI.holders hh fun q hq => (hother q hq).1
  failing := mem_update_iff (P := (· = .opening)) hI.failing hf fun q hq => (hother q hq).2
  fits := by
    intro q
    simp only [World.goto]
    by_cases hq : q = p
    · subst hq
      rwa [Function.update_self]
    · rw [Function.update_of_ne hq]
      exact hI.fits q
  usable := hI.usable

/-- An `open`.
Source: `xt_TOGPU_main.c` 519–528; `xt_TOGPU_launcher.c` 88–95
Kind: L -/
theorem worldInv_opens {fd : ℕ} (hI : WorldInv w) (hok : Orderly w (.opens p fd))
    (h : step w (.opens p fd) = some w') : WorldInv w' := by
  simp only [step] at h
  by_cases hp : w.proc p = .entry
  swap
  · rw [if_neg hp] at h
    cases h
  rw [if_pos hp] at h
  obtain ⟨dev, hdev, hw'⟩ := Option.map_eq_some_iff.mp h
  have hinv := Device.openInv_decAndTest hI.openInv hok hdev
  have hout : p ∉ w.dev.failing ∧ p ∉ w.dev.holders := by
    rw [hI.failing, hI.holders, hp]
    exact ⟨Phase.noConfusion, id⟩
  simp only [Device.step] at hdev
  split_ifs at hdev with hbusy hzero
  · cases hdev
    rw [if_pos (Finset.mem_insert_self p _)] at hw'
    subst hw'
    refine hI.moveDev hinv (iff_of_true (Finset.mem_insert_self p _) ?_)
      (iff_of_false hout.1 ?_) (fun q hq => ?_) ?_
    · split_ifs <;> trivial
    · split_ifs <;> simp
    · simp [hq]
    · split_ifs <;> trivial
  · cases hdev
    rw [if_neg hout.2] at hw'
    subst hw'
    refine hI.moveDev hinv (iff_of_false hout.2 id)
      (iff_of_true (Finset.mem_insert_self p _) rfl) (fun q hq => ?_) trivial
    simp [hq]

/-- The end of a failing `open`.
Source: `xt_TOGPU_main.c` 523–524
Kind: L -/
theorem worldInv_busy (hI : WorldInv w) (h : step w (.busy p) = some w') : WorldInv w' := by
  simp only [step] at h
  split_ifs at h with hp
  obtain ⟨dev, hdev, rfl⟩ := Option.map_eq_some_iff.mp h
  have hinv := Device.openInv_inc hI.openInv hdev
  have hout : p ∉ w.dev.holders := by
    rw [hI.holders, hp]
    exact id
  simp only [Device.step] at hdev
  split_ifs at hdev with hmem
  cases hdev
  refine hI.moveDev hinv (iff_of_false hout id)
    (iff_of_false (Finset.notMem_erase p _) Phase.noConfusion) (fun q hq => ?_) trivial
  simp [hq]

/-- The release of the device.
Source: `xt_TOGPU_main.c` 530–534
Kind: L -/
theorem worldInv_release (hI : WorldInv w) (hok : Orderly w (.release p))
    (h : step w (.release p) = some w') : WorldInv w' := by
  simp only [step] at h
  split at h
  · rename_i code hp
    obtain ⟨dev, hdev, rfl⟩ := Option.map_eq_some_iff.mp h
    have hinv := Device.openInv_set hI.openInv hok hdev
    have hout : p ∉ w.dev.failing := by
      rw [hI.failing, hp]
      exact Phase.noConfusion
    simp only [Device.step] at hdev
    split_ifs at hdev with hmem
    cases hdev
    refine hI.moveDev hinv (iff_of_false (Finset.notMem_erase p _) id)
      (iff_of_false hout Phase.noConfusion) (fun q hq => ?_) trivial
    simp [hq]
  · cases h

/-- A death outside of an `open`: of a process without the device, between `SET_BUFFERS` and
`START`, or elsewhere with the device open.
Kind: L -/
theorem kill_cases (h : step w (.kill p) = some w') :
    (w.proc p = .entry ∧ w' = w.goto p (.gone none)) ∨
      (∃ ptr err, w.proc p = .start ptr err ∧
        w' = { w.goto p (.ended none) with lost := w.lost + 1 }) ∨
      ((w.proc p).HasDevice ∧ (∀ ptr err, w.proc p ≠ .start ptr err) ∧
        w' = w.goto p (.ended none)) := by
  simp only [step, World.kill] at h
  cases hp : w.proc p with
  | entry =>
      simp only [hp, Option.some.injEq] at h
      exact .inl ⟨rfl, h.symm⟩
  | start ptr err =>
      simp only [hp, Option.some.injEq] at h
      exact .inr (.inl ⟨ptr, err, rfl, h.symm⟩)
  | opening | ended code | gone code => simp [hp] at h
  | _ =>
      simp only [hp, Option.some.injEq] at h
      exact .inr (.inr ⟨trivial, by simp, h.symm⟩)

/-- The death of a process.
Kind: L -/
theorem worldInv_kill (hI : WorldInv w) (h : step w (.kill p) = some w') : WorldInv w' := by
  rcases kill_cases h with ⟨hp, rfl⟩ | ⟨ptr, err, hp, rfl⟩ | ⟨hp, -, rfl⟩
  · have hout : p ∉ w.dev.failing ∧ p ∉ w.dev.holders := by
      rw [hI.failing, hI.holders, hp]
      exact ⟨Phase.noConfusion, id⟩
    exact hI.moveDev hI.openInv (iff_of_false hout.2 id) (iff_of_false hout.1 Phase.noConfusion)
      (fun _ _ => ⟨Iff.rfl, Iff.rfl⟩) trivial
  · exact hI.move (.ended none) w.sys (w.lost + 1) (by rw [hp]; trivial) trivial trivial hI.usable
  · exact hI.move (.ended none) w.sys w.lost hp trivial trivial hI.usable

/-- A stopped driver promises nothing.
Kind: L -/
theorem usableMapping_of_stopped {s : System} (h : s.drv.nfgpuRunning = false) :
    UsableMapping s := by
  intro hr
  rw [h] at hr
  cases hr

/-- `STOP` clears the flag.
Source: `xt_TOGPU_main.c` 508
Kind: L -/
theorem ioctl_stop_running (s : System) (env : IoctlEnv) :
    (s.ioctl togpuIoctlStop env).drv.nfgpuRunning = false := by
  simp [System.ioctl, (nfgpuIoctl_commands s.drv env).2.1, ioctlStop]

/-- A call of `main`: the commands come in the order the driver trusts.
Source: `xt_TOGPU_launcher.c` 97–143
Kind: L -/
theorem worldInv_call (hI : WorldInv w) (h : step w (.call p env) = some w') : WorldInv w' := by
  have hfit := hI.fits p
  have hcall := called_of_call hfit h
  cases hcall with
  | stops hp =>
      have hstop := ioctl_stop_running w.sys (env.ioctlEnv 0)
      exact hI.move .alloc _ w.lost (by rw [hp]; trivial) trivial hstop
        (usableMapping_of_stopped hstop)
  | allocates hp ph hph =>
      rw [hp] at hfit
      rcases hph with rfl | ⟨ptr, rfl⟩
      · exact hI.move (.ended _) w.sys w.lost (by rw [hp]; trivial) trivial trivial hI.usable
      · exact hI.move (.setBuffers ptr) w.sys w.lost (by rw [hp]; trivial) trivial hfit hI.usable
  | rejected ptr hp =>
      exact hI.move (.ended _) w.sys w.lost (by rw [hp]; trivial) trivial trivial hI.usable
  | unmapped ptr hp hv =>
      rw [hp] at hfit
      have hrun := (ioctlSetBuffers_drv w.sys.drv (env.ioctlEnv ptr)).2
      exact hI.move (.ended _) _ w.lost (by rw [hp]; trivial) trivial trivial
        (usableMapping_of_stopped (hrun.trans hfit))
  | maps ptr hp hv =>
      rw [hp] at hfit
      obtain ⟨list, npages, heq⟩ := ioctlSetBuffers_eq w.sys.drv (env.ioctlEnv ptr)
      refine hI.move (.start ptr 0) _ w.lost (by rw [hp]; trivial) trivial ?_
        (usableMapping_of_stopped ?_)
      · refine ⟨by rw [heq]; exact hfit, le_refl 0, by rw [heq]; rfl, by rw [heq]; exact hv, ?_⟩
        exact ⟨⟨env.vmap, env.walked.length⟩, by simp, by rw [heq]; rfl⟩
      · rw [heq]
        exact hfit
  | starts ptr err hp =>
      rw [hp] at hfit
      exact hI.move (.aesTest ptr) _ w.lost (by rw [hp]; trivial) trivial ⟨rfl, hfit.2.2.1⟩
        fun _ => hfit.2.2.2
  | tests ptr hp =>
      rw [hp] at hfit
      exact hI.move (.aesTest ptr) w.sys w.lost (by rw [hp]; trivial) trivial hfit hI.usable

/-- An event of the network stack leaves the pool and the processes alone.
Kind: L -/
theorem kernel_cases {e : Event} (h : step w (.kernel e) = some w') :
    ∃ s, SamePool w.sys s ∧ w' = { w with sys := s } := by
  have hne : ∀ cmd env, e ≠ .ioctl cmd env := by
    rintro cmd env rfl
    cases h
  have hmap : (Driver.step w.sys e).map (fun sys => { w with sys := sys }) = some w' := by
    cases e with
    | ioctl cmd env => exact absurd rfl (hne cmd env)
    | _ => exact h
  obtain ⟨s, hs, rfl⟩ := Option.map_eq_some_iff.mp hmap
  exact ⟨s, samePool_of_step hs hne, rfl⟩

/-- Whether a process fits depends on the pool only.
Kind: L -/
theorem SamePool.fits {s s' : System} (h : SamePool s s') (hfit : ph.Fits s) : ph.Fits s' := by
  cases ph with
  | alloc | setBuffers ptr => exact h.running.trans hfit
  | start ptr err =>
      obtain ⟨hrun, herr, huva, hkva, m, hm, hbase⟩ := hfit
      refine ⟨h.running.trans hrun, herr, h.uva.trans huva, by rwa [h.kva], m, ?_, ?_⟩
      · rwa [h.maps]
      · rwa [h.kva]
  | aesTest ptr => exact ⟨h.running.trans hfit.1, h.uva.trans hfit.2⟩
  | _ => exact hfit

/-- The invariant after an event of the network stack.
Kind: L -/
theorem worldInv_kernel {e : Event} (hI : WorldInv w) (h : step w (.kernel e) = some w') :
    WorldInv w' := by
  obtain ⟨s, hpool, rfl⟩ := kernel_cases h
  refine ⟨hI.openInv, hI.holders, hI.failing, fun p => hpool.fits (hI.fits p), ?_⟩
  simpa only [UsableMapping, HasBase, hpool.running, hpool.kva, hpool.maps] using hI.usable

/-- **Every orderly action keeps the invariant.**
Kind: P -/
theorem worldInv_step {a : Action} (hI : WorldInv w) (hok : Orderly w a)
    (h : step w a = some w') : WorldInv w' := by
  cases a with
  | opens p fd => exact worldInv_opens hI hok h
  | busy p => exact worldInv_busy hI h
  | call p env => exact worldInv_call hI h
  | kill p => exact worldInv_kill hI h
  | release p => exact worldInv_release hI hok h
  | kernel e => exact worldInv_kernel hI h

/-- The world after module init.
Kind: L -/
theorem worldInv_boot (shinfo : Addr → SkbSharedInfo) : WorldInv (World.boot shinfo) where
  openInv := Device.openInv_boot
  holders := fun _ => iff_of_false (Finset.notMem_empty _) id
  failing := fun _ => iff_of_false (Finset.notMem_empty _) Phase.noConfusion
  fits := fun _ => trivial
  usable := usableMapping_of_stopped rfl

/-- The invariant in every orderly run.
Kind: L -/
theorem worldInv_of_run {shinfo : Addr → SkbSharedInfo} {as : List Action}
    (has : Along step Orderly (World.boot shinfo) as)
    (hrun : exec step (World.boot shinfo) as = some w) : WorldInv w :=
  exec_invariant (fun _ _ _ hI hok h => worldInv_step hI hok h) (worldInv_boot shinfo) has hrun

end steps

/-! ## The flag means a mapping -/

/-- **With launchers, the flag means a live mapping, and no `vunmap` can meet one that is gone**: in
every state of every orderly run, however many launchers run and wherever they are killed, with any
traffic in between.
Source: `xt_TOGPU_launcher.c` 76–144; `xt_TOGPU_main.c` 373–534
Kind: P
Fidelity: exact
Hyps: (a) every action is `Orderly` -/
theorem usable_of_launchers {shinfo : Addr → SkbSharedInfo} {as : List Action} {w : World}
    (has : Along step Orderly (World.boot shinfo) as)
    (hrun : exec step (World.boot shinfo) as = some w) :
    UsableMapping w.sys ∧ ∀ cmd env, UnmapsLive w.sys (.ioctl cmd env) := by
  have hI := worldInv_of_run has hrun
  refine ⟨hI.usable, fun cmd env a hun => ?_⟩
  have heff := nfgpuIoctl_effect w.sys.drv cmd env
  generalize nfgpuIoctl w.sys.drv cmd env = out at heff hun
  cases heff with
  | none | setBuffers | start => cases hun
  | stop hcmd =>
      simp only [ioctlStop] at hun
      split_ifs at hun with hbase
      cases hun
      exact (hI.usable hbase.1).2

/-- Every call succeeds, and the pool is one page at `kva`.
Kind: D -/
def goodCall (kva : Addr) : CallEnv where
  cuda := ⟨true, true, true, some 0x7f0000000000, true⟩
  accessOk := true
  walked := [0xffffea0000000000]
  vmap := kva

/-- A launcher from `open` to `aes_test`.
Kind: D -/
def launch (p : ℕ) (kva : Addr) : List Action :=
  .opens p 3 :: List.replicate 4 (.call p (goodCall kva))

/-- A launcher is killed in `aes_test` after another has found the device busy; a third one takes
over.
Kind: D -/
def takeOver : List Action :=
  launch 0 0xffffc90000000000 ++ [.opens 1 3, .busy 1, .kill 0, .release 0] ++
    launch 2 0xffffc90000002000

/-- The third launcher has the driver running on its own mapping.
Kind: C -/
theorem usable_take_over :
    ∃ w, exec step (World.boot fun _ => ⟨0, 0⟩) takeOver = some w ∧
      w.sys.drv.nfgpuRunning = true ∧ UsableMapping w.sys := by
  have has : Along step Orderly (World.boot fun _ => ⟨0, 0⟩) takeOver := by decide
  exact ⟨_, rfl, rfl, (usable_of_launchers has rfl).1⟩

/-- Two launchers at once, after a release between the two operations of a failing open: the
second one's `vmap` fails, and the first starts the driver without a base.
Kind: C -/
theorem not_usable_two_launchers :
    ∃ w, exec step (World.boot fun _ => ⟨0, 0⟩)
        ([.opens 0 3, .opens 1 3, .kill 0, .release 0, .opens 2 3, .busy 1, .opens 3 3] ++
          List.replicate 3 (.call 2 (goodCall 0xffffc90000000000)) ++
          List.replicate 3 (.call 3 (goodCall 0)) ++
          [.call 2 (goodCall 0xffffc90000000000)]) = some w ∧
      ¬UsableMapping w.sys :=
  ⟨_, rfl, fun hu => (hu rfl).1 rfl⟩

/-! ## Mappings that are lost -/

/-- The driver is running, or a launcher is about to start it.
Kind: D -/
def Pending (w : World) : Prop :=
  w.sys.drv.nfgpuRunning = true ∨ ∃ p ptr err, w.proc p = .start ptr err

/-- What the kernel promises of `vmap`: its result is not the base of a live mapping.
Kind: D -/
def Fresh (w : World) : Action → Prop
  | .call p env => (∃ ptr, w.proc p = .setBuffers ptr) →
      env.vmap ≠ 0 → ∀ m ∈ w.sys.maps, m.base ≠ env.vmap
  | _ => True

instance : ∀ ph : Phase, Decidable (∃ ptr, ph = .setBuffers ptr)
  | .setBuffers ptr => .isTrue ⟨ptr, rfl⟩
  | .entry | .opening | .firstStop | .alloc | .start _ _ | .aesTest _ | .lastStop _ | .free _
  | .ended _ | .gone _ => .isFalse (by simp)

instance (w : World) : ∀ a, Decidable (Fresh w a)
  | .call p env => inferInstanceAs (Decidable ((∃ ptr, w.proc p = .setBuffers ptr) →
      env.vmap ≠ 0 → ∀ m ∈ w.sys.maps, m.base ≠ env.vmap))
  | .opens _ _ | .busy _ | .kill _ | .release _ | .kernel _ => inferInstanceAs (Decidable True)

/-- The live mappings have different bases, and there is one for each launcher killed between
`SET_BUFFERS` and `START`, and one more if the driver is running or about to be started.
Kind: D -/
structure Counted (w : World) : Prop where
  nodup : (w.sys.maps.map Mapping.base).Nodup
  pending : Pending w → w.sys.maps.length = w.lost + 1
  idle : ¬Pending w → w.sys.maps.length = w.lost

section counting

variable {w w' : World} {p : ℕ} {env : CallEnv}

/-- While a process has the device, only that one can be about to start the driver.
Kind: L -/
theorem WorldInv.not_pending (hI : WorldInv w) (hdev : (w.proc p).HasDevice)
    (hrun : w.sys.drv.nfgpuRunning = false) (hp : ∀ ptr err, w.proc p ≠ .start ptr err) :
    ¬Pending w := by
  rintro (hr | ⟨q, ptr, err, hq⟩)
  · rw [hrun] at hr
    cases hr
  · obtain rfl := hI.eq_of_hasDevice hdev (by rw [hq]; trivial)
    exact hp ptr err hq

/-- A move of a process that does not come to `START` or leave it.
Kind: L -/
theorem pending_congr (hrun : w'.sys.drv.nfgpuRunning = w.sys.drv.nfgpuRunning) {ph : Phase}
    (hproc : w'.proc = Function.update w.proc p ph) (hp : ∀ ptr err, w.proc p ≠ .start ptr err)
    (hph : ∀ ptr err, ph ≠ .start ptr err) : Pending w' ↔ Pending w := by
  rw [Pending, Pending, hrun, hproc]
  refine or_congr_right ⟨?_, ?_⟩
  · rintro ⟨q, ptr, err, hq⟩
    by_cases hqp : q = p
    · rw [hqp, Function.update_self] at hq
      exact absurd hq (hph ptr err)
    · rw [Function.update_of_ne hqp] at hq
      exact ⟨q, ptr, err, hq⟩
  · rintro ⟨q, ptr, err, hq⟩
    refine ⟨q, ptr, err, ?_⟩
    have hqp : q ≠ p := by
      rintro rfl
      exact hp ptr err hq
    rwa [Function.update_of_ne hqp]

/-- The count depends on the mappings, the record and what is pending.
Kind: L -/
theorem Counted.congr (h : Counted w) (hmaps : w'.sys.maps = w.sys.maps)
    (hlost : w'.lost = w.lost) (hpend : Pending w' ↔ Pending w) : Counted w' := by
  refine ⟨by rw [hmaps]; exact h.nodup, fun hp => ?_, fun hp => ?_⟩
  · rw [hmaps, hlost]
    exact h.pending (hpend.mp hp)
  · rw [hmaps, hlost]
    exact h.idle fun hc => hp (hpend.mpr hc)

/-- The count after the death of a process.
Kind: L -/
theorem counted_kill (hI : WorldInv w) (hc : Counted w) (h : step w (.kill p) = some w') :
    Counted w' := by
  have hI' := worldInv_kill hI h
  rcases kill_cases h with ⟨hp, rfl⟩ | ⟨ptr, err, hp, rfl⟩ | ⟨-, hp, rfl⟩
  · exact hc.congr rfl rfl (pending_congr rfl rfl (by simp [hp]) (by simp))
  · -- the one that was about to start the driver is gone, and its mapping stays
    have hfit := hI.fits p
    rw [hp] at hfit
    have hno := hI'.not_pending (p := p) (by simp [World.goto, Phase.HasDevice]) hfit.1
      (by simp [World.goto])
    exact ⟨hc.nodup, fun hpend => absurd hpend hno, fun _ => hc.pending (.inr ⟨p, ptr, err, hp⟩)⟩
  · exact hc.congr rfl rfl (pending_congr rfl rfl hp (by simp))

/-- Taking away the mapping at a base that one of them has.
Kind: L -/
theorem length_filter_base {maps : List Mapping} (hnd : (maps.map Mapping.base).Nodup) {a : Addr}
    (ha : ∃ m ∈ maps, m.base = a) :
    (maps.filter fun m => m.base ≠ a).length + 1 = maps.length := by
  have hcount : maps.countP (fun m => m.base = a) = 1 := by
    have hone := List.count_eq_one_of_mem hnd (List.mem_map.mpr ha)
    rw [List.count_eq_countP, List.countP_map] at hone
    rw [← hone]
    exact List.countP_congr fun m _ => by simp
  have hsum := List.length_eq_countP_add_countP (fun m : Mapping => decide (m.base = a)) (l := maps)
  rw [hcount, List.countP_eq_length_filter] at hsum
  simp only [decide_eq_true_eq, ← ne_eq] at hsum
  omega

/-- The count after the first `STOP` of a launcher: a running driver loses its mapping.
Source: `xt_TOGPU_launcher.c` 98; `xt_TOGPU_main.c` 499–509
Kind: L -/
theorem counted_stops (hI : WorldInv w) (hc : Counted w) (hp : w.proc p = .firstStop)
    (hno : ¬Pending ({ w with sys := w.sys.ioctl togpuIoctlStop (env.ioctlEnv 0) }.goto p .alloc)) :
    Counted ({ w with sys := w.sys.ioctl togpuIoctlStop (env.ioctlEnv 0) }.goto p .alloc) := by
  cases hr : w.sys.drv.nfgpuRunning with
  | true =>
      obtain ⟨hne, hbase⟩ := hI.usable hr
      have hsys := (ioctl_stop_of_mapped (env.ioctlEnv 0) hr hne).2
      have hlen := length_filter_base hc.nodup hbase
      have hall := hc.pending (.inl hr)
      rw [hsys] at hno ⊢
      refine ⟨hc.nodup.sublist ?_, fun hpend => absurd hpend hno, fun _ => ?_⟩
      · exact (List.filter_sublist).map _
      · simp only [World.goto]
        omega
  | false =>
      have hsys := (ioctl_stop_of_not_mapped (s := w.sys) (env.ioctlEnv 0) (by simp [hr])).2
      have hidle := hc.idle (hI.not_pending (p := p) (by rw [hp]; trivial) hr (by simp [hp]))
      rw [hsys] at hno ⊢
      exact ⟨hc.nodup, fun hpend => absurd hpend hno, fun _ => hidle⟩

/-- The count after a call of `main`.
Kind: L -/
theorem counted_call (hI : WorldInv w) (hc : Counted w) (hfresh : Fresh w (.call p env))
    (h : step w (.call p env) = some w') : Counted w' := by
  have hI' := worldInv_call hI h
  have hfit := hI.fits p
  cases called_of_call hfit h with
  | stops hp =>
      refine counted_stops hI hc hp (hI'.not_pending (p := p) ?_ ?_ ?_)
      · simp [World.goto, Phase.HasDevice]
      · exact ioctl_stop_running w.sys (env.ioctlEnv 0)
      · simp [World.goto]
  | allocates hp ph hph =>
      refine hc.congr rfl rfl (pending_congr rfl rfl (by simp [hp]) ?_)
      rcases hph with rfl | ⟨ptr, rfl⟩ <;> simp
  | rejected ptr hp => exact hc.congr rfl rfl (pending_congr rfl rfl (by simp [hp]) (by simp))
  | unmapped ptr hp hv =>
      have hrun := (ioctlSetBuffers_drv w.sys.drv (env.ioctlEnv ptr)).2
      exact hc.congr rfl rfl (pending_congr hrun rfl (by simp [hp]) (by simp))
  | maps ptr hp hv =>
      rw [hp] at hfit
      have hidle := hc.idle (hI.not_pending (p := p) (by rw [hp]; trivial) hfit (by simp [hp]))
      refine ⟨?_, fun _ => by simp [World.goto, hidle], fun hno => ?_⟩
      swap
      · exact absurd (.inr ⟨p, ptr, 0, Function.update_self ..⟩) hno
      have hnew := hfresh ⟨ptr, hp⟩ hv
      simp only [World.goto, List.map_append, List.map_cons, List.map_nil]
      refine List.nodup_append.mpr ⟨hc.nodup, List.nodup_singleton _, ?_⟩
      intro a ha b hb
      obtain ⟨m, hm, rfl⟩ := List.mem_map.mp ha
      rw [List.mem_singleton.mp hb]
      exact hnew m hm
  | starts ptr err hp =>
      refine ⟨hc.nodup, fun _ => hc.pending (.inr ⟨p, ptr, err, hp⟩), fun hno => ?_⟩
      exact absurd (.inl rfl) hno
  | tests ptr hp => exact hc.congr rfl rfl (pending_congr rfl rfl (by simp [hp]) (by simp))

/-- An operation on the open counter, and an event of the network stack, leave the pool and what is
pending as they are.
Kind: L -/
theorem step_frame {a : Action} (h : step w a = some w') (hcall : ∀ p env, a ≠ .call p env)
    (hkill : ∀ p, a ≠ .kill p) :
    SamePool w.sys w'.sys ∧ w'.lost = w.lost ∧ (Pending w' ↔ Pending w) := by
  cases a with
  | opens p fd =>
      simp only [step] at h
      by_cases hp : w.proc p = .entry
      · rw [if_pos hp] at h
        obtain ⟨dev, -, rfl⟩ := Option.map_eq_some_iff.mp h
        split
        · refine ⟨⟨rfl, rfl, rfl, rfl⟩, rfl, pending_congr rfl rfl (by simp [hp]) ?_⟩
          split_ifs <;> simp
        · exact ⟨⟨rfl, rfl, rfl, rfl⟩, rfl, pending_congr rfl rfl (by simp [hp]) (by simp)⟩
      · rw [if_neg hp] at h
        cases h
  | busy p =>
      simp only [step] at h
      split_ifs at h with hp
      obtain ⟨dev, -, rfl⟩ := Option.map_eq_some_iff.mp h
      exact ⟨⟨rfl, rfl, rfl, rfl⟩, rfl, pending_congr rfl rfl (by simp [hp]) (by simp)⟩
  | release p =>
      simp only [step] at h
      split at h
      · rename_i code hp
        obtain ⟨dev, -, rfl⟩ := Option.map_eq_some_iff.mp h
        exact ⟨⟨rfl, rfl, rfl, rfl⟩, rfl, pending_congr rfl rfl (by simp [hp]) (by simp)⟩
      · cases h
  | kernel e =>
      obtain ⟨s, hpool, rfl⟩ := kernel_cases h
      refine ⟨hpool, rfl, ?_⟩
      rw [Pending, Pending, hpool.running]
  | call p env => exact absurd rfl (hcall p env)
  | kill p => exact absurd rfl (hkill p)

/-- Every action keeps the count.
Kind: L -/
theorem counted_step {a : Action} (hI : WorldInv w) (hc : Counted w) (hfresh : Fresh w a)
    (h : step w a = some w') : Counted w' := by
  cases a with
  | call p env => exact counted_call hI hc hfresh h
  | kill p => exact counted_kill hI hc h
  | _ =>
      obtain ⟨hpool, hlost, hpend⟩ := step_frame h (by simp) (by simp)
      exact hc.congr hpool.maps hlost hpend

end counting

/-- **Every launcher killed between `SET_BUFFERS` and `START` costs one mapping, and nothing else
does**: in every state of every orderly run the live mappings are one for each such launcher, and
one more while the driver is running or about to be started.
Source: `xt_TOGPU_launcher.c` 97–143; `xt_TOGPU_main.c` 421–439, 493–509
Kind: P
Fidelity: exact
Hyps: (a) every action is `Orderly`; (b) `vmap` returns no base of a live mapping -/
theorem maps_eq_lost {shinfo : Addr → SkbSharedInfo} {as : List Action} {w : World}
    (has : Along step Orderly (World.boot shinfo) as)
    (hfresh : Along step Fresh (World.boot shinfo) as)
    (hrun : exec step (World.boot shinfo) as = some w) :
    (Pending w → w.sys.maps.length = w.lost + 1) ∧ (¬Pending w → w.sys.maps.length = w.lost) := by
  have hboot : Counted (World.boot shinfo) := by
    refine ⟨List.nodup_nil, ?_, fun _ => rfl⟩
    rintro (hr | ⟨p, ptr, err, hp⟩)
    · cases hr
    · cases hp
  have hinv : WorldInv w ∧ Counted w :=
    exec_invariant (I := fun v => WorldInv v ∧ Counted v)
      (fun _ _ _ hI hok h => ⟨worldInv_step hI.1 hok.1 h, counted_step hI.1 hI.2 hok.2 h⟩)
      ⟨worldInv_boot shinfo, hboot⟩ (has.and hfresh) hrun
  exact ⟨hinv.2.pending, hinv.2.idle⟩

/-- A launcher is killed before its `START`, and another starts the driver.
Kind: D -/
def lateKill : List Action :=
  .opens 0 3 :: List.replicate 3 (.call 0 (goodCall 0xffffc90000000000)) ++
    [.kill 0, .release 0] ++ launch 1 0xffffc90000002000

/-- One mapping is in use and one is lost.
Kind: C -/
theorem maps_late_kill :
    ∃ w, exec step (World.boot fun _ => ⟨0, 0⟩) lateKill = some w ∧ w.lost = 1 ∧
      w.sys.maps.length = 2 := by
  have has : Along step Orderly (World.boot fun _ => ⟨0, 0⟩) lateKill := by decide
  have hfresh : Along step Fresh (World.boot fun _ => ⟨0, 0⟩) lateKill := by decide
  exact ⟨_, rfl, rfl, (maps_eq_lost has hfresh rfl).1 (.inl rfl)⟩

/-! ## The pool after its launcher -/

/-- No launcher takes its first `STOP`.
Kind: D -/
def NoFirstStop (w : World) : Action → Prop
  | .call p _ => w.proc p ≠ .firstStop
  | _ => True

instance (w : World) : ∀ a, Decidable (NoFirstStop w a)
  | .call p _ => inferInstanceAs (Decidable (w.proc p ≠ .firstStop))
  | .opens _ _ | .busy _ | .kill _ | .release _ | .kernel _ => inferInstanceAs (Decidable True)

/-- The driver runs on the memory at `ptr`, mapped at `kva`.
Kind: D -/
structure RunsOn (ptr kva : Addr) (w : World) : Prop where
  running : w.sys.drv.nfgpuRunning = true
  uva : w.sys.drv.nfgpuUva = ptr
  kva : w.sys.drv.nfgpuKva = kva

/-- A driver that runs goes on with the same memory until the first `STOP` of a launcher:
`SET_BUFFERS` and `START` come when it does not run.
Kind: L -/
theorem runsOn_step {w w' : World} {a : Action} {ptr kva : Addr} (hI : WorldInv w)
    (hr : RunsOn ptr kva w) (hno : NoFirstStop w a) (h : step w a = some w') :
    RunsOn ptr kva w' := by
  obtain ⟨hrun, huva, hkva⟩ := hr
  cases a with
  | kill p =>
      rcases kill_cases h with ⟨-, rfl⟩ | ⟨_, _, -, rfl⟩ | ⟨-, -, rfl⟩ <;>
        exact ⟨hrun, huva, hkva⟩
  | call p env =>
      have hfit := hI.fits p
      cases called_of_call hfit h with
      | stops hp => exact absurd hp hno
      | allocates | rejected | tests => exact ⟨hrun, huva, hkva⟩
      | unmapped ptr hp | maps ptr hp =>
          rw [hp] at hfit
          exact absurd (hrun.symm.trans hfit) Bool.noConfusion
      | starts ptr err hp =>
          rw [hp] at hfit
          exact absurd (hrun.symm.trans hfit.1) Bool.noConfusion
  | _ =>
      obtain ⟨hpool, -, -⟩ := step_frame h (by simp) (by simp)
      exact ⟨hpool.running.trans hrun, hpool.uva.trans huva, hpool.kva.trans hkva⟩

/-- **The pool outlives its launcher.** Once a launcher is in `aes_test`, the driver runs on its
memory, and goes on doing so whatever becomes of that process, until the first `STOP` of another
launcher.
Source: `xt_TOGPU_launcher.c` 97–143; `xt_TOGPU_main.c` 493–534
Kind: P
Fidelity: exact
Hyps: (a) every action is `Orderly`; (b) no launcher takes its first `STOP` after `w` -/
theorem pool_outlives_launcher {shinfo : Addr → SkbSharedInfo} {as l : List Action}
    {w w' : World} {p : ℕ} {ptr : Addr}
    (has : Along step Orderly (World.boot shinfo) as)
    (hrun : exec step (World.boot shinfo) as = some w) (hp : w.proc p = .aesTest ptr)
    (hl : Along step Orderly w l) (hno : Along step NoFirstStop w l)
    (hrun' : exec step w l = some w') :
    w'.sys.drv.nfgpuRunning = true ∧ w'.sys.drv.nfgpuUva = ptr ∧
      w'.sys.drv.nfgpuKva = w.sys.drv.nfgpuKva ∧
      ∃ m ∈ w'.sys.maps, m.base = w.sys.drv.nfgpuKva := by
  have hI := worldInv_of_run has hrun
  have hfit := hI.fits p
  rw [hp] at hfit
  have hinv : WorldInv w' ∧ RunsOn ptr w.sys.drv.nfgpuKva w' :=
    exec_invariant (I := fun v => WorldInv v ∧ RunsOn ptr w.sys.drv.nfgpuKva v)
      (fun _ _ _ hI hok h => ⟨worldInv_step hI.1 hok.1 h, runsOn_step hI.1 hI.2 hok.2 h⟩)
      ⟨hI, hfit.1, hfit.2, rfl⟩ (hl.and hno) hrun'
  obtain ⟨hI', hr⟩ := hinv
  refine ⟨hr.running, hr.uva, hr.kva, ?_⟩
  rw [← hr.kva]
  exact (hI'.usable hr.running).2

/-- The launcher is killed and its device released, and the driver still runs.
Kind: C -/
theorem pool_outlives_killed :
    ∃ w w', exec step (World.boot fun _ => ⟨0, 0⟩) (launch 0 0xffffc90000000000) = some w ∧
      exec step w [.kill 0, .release 0] = some w' ∧ w'.proc 0 = .gone none ∧
      w'.sys.drv.nfgpuRunning = true := by
  have has : Along step Orderly (World.boot fun _ => ⟨0, 0⟩) (launch 0 0xffffc90000000000) := by
    decide
  refine ⟨_, _, rfl, rfl, rfl, ?_⟩
  exact (pool_outlives_launcher (p := 0) (l := [.kill 0, .release 0]) has rfl rfl (by decide)
    (by decide) rfl).1

end Togpu.Launcher
