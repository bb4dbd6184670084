import Togpu.Driver.Hooks
import Togpu.Lib.Run
import Togpu.Lib.Weighted

/-!
# The profiling average

`nfgpu_target` measures the clock cycles a packet spends at the GPU and folds them into
`nfgpu_average`, the old average counting 256 times; `nfgpu_thread` logs the average and resets it
to zero every five seconds.

* `nfgpuTarget`, `nfgpuThread` — the two functions as far as they touch the profiling variables.
* `State`, `Event`, `step` — runs of both, with what each report was made of.
* `WindowOk` — the invariant of the samples since the last reset: the average is the exact fold of
  the samples from zero, and no update has overflowed.
* `IsAverage` — a report does what its text says: no update of its window overflowed, and the value
  lies between the smallest and the largest sample.
* `shortfall` — what the samples, from the last to the first, leave of the smallest one. The average
  is seeded with zero and not with the first sample, and it has to climb from there.
* **A report is an average iff its window leaves no shortfall** (`isAverage_iff_shortfall`); a
  window whose samples differ by less than 256, in particular one of a single packet, always leaves
  one (`not_isAverage_of_close`).
-/

namespace Togpu.Device.Profiling

open Togpu.Driver
open Togpu.Lib

/-! ## The two functions -/

/-- What an assignment to `nfgpu_average` reads.
Source: `xt_TOGPU_main.c` 214
Kind: D -/
structure Update where
  /-- The average so far. -/
  average : BitVec 64
  /-- `timestamp_end-timestamp_start`. -/
  sample : BitVec 64
  deriving DecidableEq, Repr

/-- The value an assignment to `nfgpu_average` stores, in wrapping arithmetic.
Source: `xt_TOGPU_main.c` 214
Kind: D -/
def Update.value (u : Update) : BitVec 64 :=
  ((u.average <<< 8) + u.sample) / (((1 : BitVec 64) <<< 8) + 1)

/-- The update is computed without overflow.
Kind: D -/
def Update.Fits (u : Update) : Prop := u.average.toNat * 2 ^ 8 + u.sample.toNat < 2 ^ 64

instance (u : Update) : Decidable u.Fits := inferInstanceAs (Decidable (_ < _))

/-- `nfgpu_target` for a packet whose buffer starts at `head`, once the GPU is done with it: the
driver, and the assignment to `nfgpu_average` it has made.
Source: `xt_TOGPU_main.c` 188–221
Kind: D
Fidelity: the update of the two variables is one step; the accesses to the mailbox between the two
timestamps touch neither. -/
def nfgpuTarget (drv : Globals) (head : Addr) (timestampStart timestampEnd : BitVec 64) :
    Globals × Option Update :=
  if drv.nfgpuRunning = false then (drv, none)
  else if inPool drv.nfgpuKva head = false then (drv, none)
  else if timestampEnd > timestampStart then
    let u : Update := ⟨drv.nfgpuAverage, timestampEnd - timestampStart⟩
    ({ drv with nfgpuAverage := u.value, nfgpuPackets := drv.nfgpuPackets + 1 }, some u)
  else (drv, none)

/-- One round of `nfgpu_thread`: the driver after the reset, and the two numbers of the log line
`Profiling: CPU clock cycles average [%ld] packets [%ld]`.
Source: `xt_TOGPU_main.c` 154–166
Kind: D -/
def nfgpuThread (drv : Globals) : Globals × BitVec 64 × BitVec 64 :=
  let avg := drv.nfgpuAverage
  let pkts := drv.nfgpuPackets
  ({ drv with nfgpuAverage := 0, nfgpuPackets := 0 }, avg, pkts)

/-! ## Runs -/

/-- A line of the log and the updates made since the line before it.
Source: `xt_TOGPU_main.c` 166
Kind: D -/
structure Report where
  /-- The average reported. -/
  avg : BitVec 64
  /-- The number of packets reported. -/
  pkts : BitVec 64
  /-- The updates of its window, in order. -/
  updates : List Update

/-- The driver, the updates since the last reset and the reports so far.
Kind: D -/
structure State where
  /-- The driver. -/
  drv : Globals
  /-- The updates since the last reset, in order. -/
  updates : List Update
  /-- The reports, in order. -/
  reports : List Report

/-- The module after load.
Source: `xt_TOGPU_main.c` 603–604
Kind: D -/
def State.boot : State := ⟨nfgpuInternalInit, [], []⟩

/-- What can happen next.
Kind: D -/
inductive Event where
  /-- A call of `nfgpu_target` returns. -/
  | target (head : Addr) (timestampStart timestampEnd : BitVec 64)
  /-- `nfgpu_thread` reports and resets. -/
  | thread
  /-- The rest of the module runs and leaves its other globals as in `drv`. -/
  | other (drv : Globals)

/-- One transition.
Kind: D -/
def step (s : State) : Event → Option State
  | .target head timestampStart timestampEnd =>
      let r := nfgpuTarget s.drv head timestampStart timestampEnd
      some { s with drv := r.1, updates := s.updates ++ r.2.toList }
  | .thread =>
      let r := nfgpuThread s.drv
      some { drv := r.1, updates := [], reports := s.reports ++ [⟨r.2.1, r.2.2, s.updates⟩] }
  | .other drv =>
      some { s with drv := { drv with
        nfgpuAverage := s.drv.nfgpuAverage, nfgpuPackets := s.drv.nfgpuPackets } }

/-- Both timestamps are below `2^32`: `rdtscl` reads the low half of the counter.
Kind: D -/
def Event.LowStamps : Event → Prop
  | .target _ timestampStart timestampEnd =>
      timestampStart.toNat < 2 ^ 32 ∧ timestampEnd.toNat < 2 ^ 32
  | _ => True

/-! ## What a report should be -/

/-- The samples of a window.
Kind: D -/
def samples (updates : List Update) : List ℕ := updates.map fun u => u.sample.toNat

/-- The smallest sample.
Kind: D -/
def smallest (ds : List ℕ) : ℕ := ds.min?.getD 0

/-- The largest sample.
Kind: D -/
def largest (ds : List ℕ) : ℕ := ds.max?.getD 0

/-- The report is what its text says: no update overflowed, and the value lies between the smallest
and the largest sample of the window.
Kind: D -/
def Report.IsAverage (r : Report) : Prop :=
  (∀ u ∈ r.updates, u.Fits) ∧
    smallest (samples r.updates) ≤ r.avg.toNat ∧ r.avg.toNat ≤ largest (samples r.updates)

/-- What the samples leave of the smallest one. From the last sample to the first, a 256th of what a
sample has over what is still missing is taken off.
Kind: D -/
def shortfall (ds : List ℕ) : ℕ := ds.foldr (fun d t => t - (d - t) / 2 ^ 8) (smallest ds)

/-! ## The invariant of a window -/

/-- A window whose updates have led from a reset to `avg` and `pkts`.
Kind: D -/
structure WindowOk (avg pkts : BitVec 64) (updates : List Update) : Prop where
  /-- The average is the exact fold of the samples, from zero. -/
  average : avg.toNat = (samples updates).foldl (weighted (2 ^ 8)) 0
  /-- The packets are the samples. -/
  packets : pkts = BitVec.ofNat 64 updates.length
  /-- No update overflowed. -/
  fits : ∀ u ∈ updates, u.Fits
  /-- Every sample is positive and below `2^32`. -/
  sampled : ∀ d ∈ samples updates, 0 < d ∧ d < 2 ^ 32

/-- After a reset.
Kind: L -/
theorem WindowOk.nil : WindowOk 0 0 [] := ⟨rfl, rfl, nofun, nofun⟩

section window

variable {avg pkts : BitVec 64} {updates : List Update} {u : Update}

/-- The sample of one more update comes last.
Kind: L -/
theorem samples_concat (updates : List Update) (u : Update) :
    samples (updates ++ [u]) = samples updates ++ [u.sample.toNat] := by
  rw [samples, List.map_append]
  rfl

/-- The average never leaves the range of the samples upwards.
Kind: L -/
theorem WindowOk.average_le (h : WindowOk avg pkts updates) {m : ℕ}
    (hm : ∀ d ∈ samples updates, d ≤ m) : avg.toNat ≤ m := by
  rw [h.average]
  exact foldl_weighted_le (Nat.zero_le m) hm

/-- The average of a window is below `2^32`.
Kind: L -/
theorem WindowOk.average_lt (h : WindowOk avg pkts updates) : avg.toNat < 2 ^ 32 := by
  have hle : avg.toNat ≤ 2 ^ 32 - 1 := h.average_le fun d hd => Nat.le_pred_of_lt (h.sampled d hd).2
  omega

/-- An average and a sample below `2^32` leave room in 64 bits.
Kind: L -/
theorem Update.fits_of_lt (havg : u.average.toNat < 2 ^ 32) (hsample : u.sample.toNat < 2 ^ 32) :
    u.Fits := by
  unfold Update.Fits
  omega

/-- An update that fits stores the weighted average.
Kind: L -/
theorem Update.toNat_value (h : u.Fits) :
    u.value.toNat = weighted (2 ^ 8) u.average.toNat u.sample.toNat := by
  unfold Update.Fits at h
  have hshift : (u.average <<< 8).toNat = u.average.toNat * 2 ^ 8 := by
    rw [BitVec.toNat_shiftLeft, Nat.shiftLeft_eq]
    exact Nat.mod_eq_of_lt (lt_of_le_of_lt (Nat.le_add_right _ _) h)
  have hadd : (u.average <<< 8 + u.sample).toNat = u.average.toNat * 2 ^ 8 + u.sample.toNat := by
    rw [BitVec.toNat_add, hshift]
    exact Nat.mod_eq_of_lt h
  have hdivisor : (((1 : BitVec 64) <<< 8) + 1).toNat = 2 ^ 8 + 1 := by decide
  rw [Update.value, BitVec.toNat_udiv, hadd, hdivisor, weighted, Nat.mul_comm]

/-- One more sample.
Kind: L -/
theorem WindowOk.concat (h : WindowOk avg pkts updates) (havg : u.average = avg)
    (hpos : 0 < u.sample.toNat) (hlt : u.sample.toNat < 2 ^ 32) :
    WindowOk u.value (pkts + 1) (updates ++ [u]) := by
  have hfits : u.Fits := Update.fits_of_lt (havg ▸ h.average_lt) hlt
  refine ⟨?_, ?_, ?_, ?_⟩
  · rw [Update.toNat_value hfits, havg, h.average, samples_concat, List.foldl_append]
    rfl
  · rw [h.packets, List.length_append]
    exact (BitVec.ofNat_add updates.length 1).symm
  · exact List.forall_mem_append.mpr ⟨h.fits, List.forall_mem_singleton.mpr hfits⟩
  · rw [samples_concat]
    exact List.forall_mem_append.mpr ⟨h.sampled, List.forall_mem_singleton.mpr ⟨hpos, hlt⟩⟩

end window

/-! ## Runs keep the invariant -/

/-- **What a call can do to the profiling variables**: nothing, or fold in a positive sample.
Source: `xt_TOGPU_main.c` 188–221
Kind: P -/
theorem nfgpuTarget_cases (drv : Globals) (head : Addr) (timestampStart timestampEnd : BitVec 64) :
    nfgpuTarget drv head timestampStart timestampEnd = (drv, none) ∨
      ∃ u : Update, u.average = drv.nfgpuAverage ∧ u.sample = timestampEnd - timestampStart ∧
        timestampStart < timestampEnd ∧
        nfgpuTarget drv head timestampStart timestampEnd =
          ({ drv with nfgpuAverage := u.value, nfgpuPackets := drv.nfgpuPackets + 1 }, some u) := by
  unfold nfgpuTarget
  split_ifs with hrunning hpool hlater
  · exact .inl rfl
  · exact .inl rfl
  · exact .inr ⟨⟨drv.nfgpuAverage, timestampEnd - timestampStart⟩, rfl, rfl, hlater, rfl⟩
  · exact .inl rfl

/-- The invariant of a run: the open window and those of the reports are sound.
Kind: D -/
def Inv (s : State) : Prop :=
  WindowOk s.drv.nfgpuAverage s.drv.nfgpuPackets s.updates ∧
    ∀ r ∈ s.reports, WindowOk r.avg r.pkts r.updates

/-- At load there is no window.
Kind: L -/
theorem inv_boot : Inv State.boot := ⟨WindowOk.nil, nofun⟩

/-- Every event keeps the invariant.
Kind: L -/
theorem inv_step {s s' : State} {e : Event} (h : Inv s) (hstamps : e.LowStamps)
    (hstep : step s e = some s') : Inv s' := by
  obtain ⟨hopen, hreports⟩ := h
  cases e with
  | target head timestampStart timestampEnd =>
      cases hstep
      rcases nfgpuTarget_cases s.drv head timestampStart timestampEnd with
        hnone | ⟨u, havg, hsample, hlater, hsome⟩
      · rw [hnone]
        refine ⟨?_, hreports⟩
        rw [Option.toList_none, List.append_nil]
        exact hopen
      · rw [hsome]
        refine ⟨?_, hreports⟩
        have hsub : u.sample.toNat = timestampEnd.toNat - timestampStart.toNat := by
          rw [hsample]
          exact BitVec.toNat_sub_of_le (BitVec.le_of_lt hlater)
        have hpos : timestampStart.toNat < timestampEnd.toNat := BitVec.lt_def.mp hlater
        have hlow : timestampEnd.toNat < 2 ^ 32 := hstamps.2
        exact hopen.concat havg (by omega) (by omega)
  | thread =>
      cases hstep
      exact ⟨WindowOk.nil,
        List.forall_mem_append.mpr ⟨hreports, List.forall_mem_singleton.mpr hopen⟩⟩
  | other drv =>
      cases hstep
      exact ⟨hopen, hreports⟩

/-- **Every report of every run is the exact fold of its window.**
Kind: P
Hyps: the timestamps are those of `rdtscl`. -/
theorem windowOk_of_run {events : List Event} {s : State} (hstamps : ∀ e ∈ events, e.LowStamps)
    (hrun : exec step State.boot events = some s) {r : Report} (hr : r ∈ s.reports) :
    WindowOk r.avg r.pkts r.updates := by
  have hinv : Inv s := exec_invariant (fun _ _ _ h hlow hstep => inv_step h hlow hstep) inv_boot
    (along_of_forall (fun e he _ => hstamps e he) State.boot) hrun
  exact hinv.2 r hr

/-! ## When a report is an average -/

/-- No sample is below the smallest.
Kind: L -/
theorem smallest_le {ds : List ℕ} {d : ℕ} (h : d ∈ ds) : smallest ds ≤ d :=
  List.min?_getD_le_of_mem h

/-- No sample is above the largest.
Kind: L -/
theorem le_largest {ds : List ℕ} {d : ℕ} (h : d ∈ ds) : d ≤ largest ds :=
  List.le_max?_getD_of_mem h

/-- In a sound window only the lower bound is in question, and the shortfall decides it.
Kind: L -/
theorem Report.isAverage_iff {r : Report} (h : WindowOk r.avg r.pkts r.updates) :
    r.IsAverage ↔ shortfall (samples r.updates) = 0 := by
  have hupper : r.avg.toNat ≤ largest (samples r.updates) := h.average_le fun d hd => le_largest hd
  have hlower : smallest (samples r.updates) ≤ r.avg.toNat ↔ shortfall (samples r.updates) ≤ 0 := by
    rw [h.average]
    exact le_foldl_weighted_iff (by decide) fun d hd => smallest_le hd
  rw [Report.IsAverage, hlower, Nat.le_zero]
  constructor
  · rintro ⟨-, hzero, -⟩
    exact hzero
  · intro hzero
    exact ⟨h.fits, hzero, hupper⟩

/-- **A report is an average iff its window leaves no shortfall**, for every report of every run.
That no update overflows, and that the value is at most the largest sample, holds of every report;
that it is at least the smallest sample does not.
Source: `xt_TOGPU_main.c` 144–168, 197–218
Kind: C
Hyps: the timestamps are below `2^32`. -/
theorem isAverage_iff_shortfall (events : List Event) (s : State)
    (hstamps : ∀ e ∈ events, e.LowStamps) (hrun : exec step State.boot events = some s) :
    ∀ r ∈ s.reports, r.IsAverage ↔ shortfall (samples r.updates) = 0 := by
  intro r hr
  exact Report.isAverage_iff (windowOk_of_run hstamps hrun hr)

/-- The driver with a pool, polling the GPU for every packet.
Kind: D -/
def started : Globals :=
  { nfgpuInternalInit with nfgpuRunning := true, nfgpuKva := 0xffffc90000000000 }

/-- A packet in slot 1 that takes `d` cycles.
Kind: D -/
def packet (d : BitVec 64) : Event := .target (slotAddr started.nfgpuKva 1) 0 d

/-- The driver is started, the thread reports, packets take `ds` cycles, and the thread reports.
Kind: D -/
def oneWindow (ds : List (BitVec 64)) : List Event :=
  .other started :: .thread :: ds.map packet ++ [.thread]

/-- A packet that takes 257 times as long as another one lifts the report into the range.
Kind: C -/
theorem isAverage_iff_shortfall_fastThenSlow :
    (∀ e ∈ oneWindow [1000, 257000], e.LowStamps) ∧
      ∃ s r, exec step State.boot (oneWindow [1000, 257000]) = some s ∧ r ∈ s.reports ∧
        samples r.updates = [1000, 257000] ∧ r.avg = 1002 ∧ r.IsAverage := by
  have hstamps : ∀ e ∈ oneWindow [1000, 257000], e.LowStamps := by
    simp [oneWindow, packet, Event.LowStamps]
  refine ⟨hstamps, _, _, rfl, List.mem_append_right _ (List.mem_singleton_self _), rfl, rfl, ?_⟩
  refine (isAverage_iff_shortfall _ _ hstamps rfl _
    (List.mem_append_right _ (List.mem_singleton_self _))).mpr ?_
  decide

/-- A window of one packet of 1000 cycles reports an average of 3.
Kind: C -/
theorem not_isAverage_single :
    (∀ e ∈ oneWindow [1000], e.LowStamps) ∧
      ∃ s r, exec step State.boot (oneWindow [1000]) = some s ∧ r ∈ s.reports ∧
        samples r.updates = [1000] ∧ r.avg = 3 ∧ r.pkts = 1 ∧ ¬r.IsAverage := by
  have hstamps : ∀ e ∈ oneWindow [1000], e.LowStamps := by
    simp [oneWindow, packet, Event.LowStamps]
  refine ⟨hstamps, _, _, rfl, List.mem_append_right _ (List.mem_singleton_self _), rfl, rfl, rfl,
    ?_⟩
  rintro ⟨-, hlower, -⟩
  exact absurd hlower (by decide)

/-! ## Which windows there are -/

/-- A packet of the pool that takes some cycles is sampled.
Kind: L -/
theorem nfgpuTarget_of_later {drv : Globals} {head : Addr} {timestampStart timestampEnd : BitVec 64}
    (hrunning : drv.nfgpuRunning = true) (hpool : inPool drv.nfgpuKva head = true)
    (hlater : timestampStart < timestampEnd) :
    nfgpuTarget drv head timestampStart timestampEnd =
      ({ drv with
          nfgpuAverage := Update.value ⟨drv.nfgpuAverage, timestampEnd - timestampStart⟩
          nfgpuPackets := drv.nfgpuPackets + 1 },
        some ⟨drv.nfgpuAverage, timestampEnd - timestampStart⟩) := by
  rw [nfgpuTarget, if_neg (Bool.not_eq_false _ ▸ hrunning), if_neg (Bool.not_eq_false _ ▸ hpool),
    if_pos hlater]

/-- A packet of the started driver adds its sample to the window.
Kind: L -/
theorem step_packet {s : State} (hrunning : s.drv.nfgpuRunning = true)
    (hkva : s.drv.nfgpuKva = started.nfgpuKva) {d : BitVec 64} (hpos : 0 < d) :
    ∃ s', step s (packet d) = some s' ∧ s'.drv.nfgpuRunning = true ∧
      s'.drv.nfgpuKva = started.nfgpuKva ∧
      samples s'.updates = samples s.updates ++ [d.toNat] := by
  have hpool : inPool s.drv.nfgpuKva (slotAddr started.nfgpuKva 1) = true := by
    rw [hkva]
    decide
  have hsub : d - 0 = d := BitVec.sub_zero d
  refine ⟨_, rfl, ?_, ?_, ?_⟩
  · rw [nfgpuTarget_of_later hrunning hpool hpos]
    exact hrunning
  · rw [nfgpuTarget_of_later hrunning hpool hpos]
    exact hkva
  · rw [nfgpuTarget_of_later hrunning hpool hpos, Option.toList_some, samples_concat,
      hsub]

/-- Packets of the started driver add their samples to the window, in order.
Kind: L -/
theorem exec_packets {ds : List (BitVec 64)} (hpos : ∀ d ∈ ds, 0 < d) {s : State}
    (hrunning : s.drv.nfgpuRunning = true) (hkva : s.drv.nfgpuKva = started.nfgpuKva) :
    ∃ s', exec step s (ds.map packet) = some s' ∧
      samples s'.updates = samples s.updates ++ ds.map BitVec.toNat := by
  induction ds generalizing s with
  | nil => exact ⟨s, rfl, (List.append_nil _).symm⟩
  | cons d ds ih =>
      rw [List.forall_mem_cons] at hpos
      obtain ⟨t, hstep, hrunning', hkva', hsamples⟩ := step_packet hrunning hkva hpos.1
      obtain ⟨s', hrun, hsamples'⟩ := ih hpos.2 hrunning' hkva'
      refine ⟨s', exec_cons_eq_some.mpr ⟨t, hstep, hrun⟩, ?_⟩
      rw [hsamples', hsamples, List.append_assoc]
      rfl

/-- **Every sequence of samples is the window of a report of some run.**
Kind: P -/
theorem exists_report_of_samples {ds : List (BitVec 64)} (hpos : ∀ d ∈ ds, 0 < d) :
    ∃ s r, exec step State.boot (oneWindow ds) = some s ∧ r ∈ s.reports ∧
      samples r.updates = ds.map BitVec.toNat := by
  obtain ⟨t, hpackets, hsamples⟩ :=
    exec_packets hpos (s := ⟨started, [], [⟨0, 0, []⟩]⟩) rfl rfl
  have hrun : exec step State.boot (.other started :: .thread :: ds.map packet) = some t :=
    exec_cons_eq_some.mpr ⟨_, rfl, exec_cons_eq_some.mpr ⟨_, rfl, hpackets⟩⟩
  refine ⟨_, _, exec_concat hrun rfl, List.mem_append_right _ (List.mem_singleton_self _), ?_⟩
  rw [hsamples]
  rfl

/-- The smallest sample is one of the samples.
Kind: L -/
theorem smallest_mem {ds : List ℕ} (h : ds ≠ []) : smallest ds ∈ ds := by
  obtain ⟨m, hm⟩ := Option.isSome_iff_exists.mp (List.isSome_min?_of_ne_nil h)
  rw [smallest, hm]
  exact List.min?_mem hm

/-- **Windows of similar packets are never reported as an average**: where no sample exceeds the
smallest by 256, rounding keeps the value below every sample. In particular a window of one packet.
Source: `xt_TOGPU_main.c` 161, 214
Kind: P
Hyps: the timestamps are below `2^32`; the window has a sample. -/
theorem not_isAverage_of_close {events : List Event} {s : State}
    (hstamps : ∀ e ∈ events, e.LowStamps) (hrun : exec step State.boot events = some s) {r : Report}
    (hr : r ∈ s.reports) (hne : samples r.updates ≠ [])
    (hclose : ∀ d ∈ samples r.updates, d < smallest (samples r.updates) + 2 ^ 8) :
    ¬r.IsAverage := by
  have hwindow := windowOk_of_run hstamps hrun hr
  have hkept : shortfall (samples r.updates) = smallest (samples r.updates) :=
    foldr_startFor_of_close (by decide) hclose
  have hpos := (hwindow.sampled _ (smallest_mem hne)).1
  rw [Report.isAverage_iff hwindow, hkept]
  exact hpos.ne'

end Togpu.Device.Profiling
