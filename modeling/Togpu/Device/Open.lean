import Mathlib.Data.BitVec
import Mathlib.Data.Finset.Card
import Togpu.Lib.Run

/-!
# Opening the device

`nfgpu_open` and `nfgpu_release` guard the device with one counter, `nfgpu_av`. A failing open
touches it twice, and a release does not give back what its open took: it stores 1.

* `OpenState`, `OpenAction`, `step` — the counter, and one transition for each atomic operation
  on it. `Caller` is arbitrary: any number of processes, threads and descriptors. A caller that
  has the device open and tries again is another caller.
* `Exclusive` — at most one open is held, and the counter of an idle device is 1.
* `ReleasesAlone` — the condition: a release finds no failing open between its two operations, and
  the number of those never reaches the range of the counter.
* **The device is exclusive in every run whose steps meet the condition** (`exclusive_of_run`), and
  a release of the other kind can always be continued to an idle device that nobody can open.
-/

namespace Togpu.Device

open Togpu.Lib

variable {Caller : Type}

/-! ## The counter and its users -/

/-- The counter and where the callers stand.
Source: `xt_TOGPU_main.c` 67, 519–534
Kind: D -/
structure OpenState (Caller : Type) where
  /-- `nfgpu_av`, an `atomic_t`. -/
  nfgpuAv : BitVec 32
  /-- The callers whose open has decremented the counter to a value other than zero and not yet
  incremented it. -/
  failing : Finset Caller
  /-- The callers whose open has succeeded and not been released. -/
  holders : Finset Caller
  deriving DecidableEq

/-- The device after module load: `ATOMIC_INIT(1)`, and nobody in either function.
Source: `xt_TOGPU_main.c` 67
Kind: D -/
def OpenState.boot : OpenState Caller := ⟨1, ∅, ∅⟩

/-- The atomic operations on the counter.
Source: `xt_TOGPU_main.c` 521–523, 532
Kind: D -/
inductive OpenAction (Caller : Type) where
  /-- `atomic_dec_and_test(&nfgpu_av)` of an open. -/
  | decAndTest (p : Caller)
  /-- `atomic_inc( &nfgpu_av )` of a failing open, which then returns `-EBUSY`. -/
  | inc (p : Caller)
  /-- `atomic_set( &nfgpu_av, 1 )` of a release. -/
  | set (p : Caller)

variable [DecidableEq Caller]

/-- One transition. An open is entered by a caller that is in no call and holds nothing; a release
follows a successful open.
Source: `xt_TOGPU_main.c` 519–534
Kind: D -/
def step (s : OpenState Caller) : OpenAction Caller → Option (OpenState Caller)
  | .decAndTest p =>
      if p ∈ s.failing ∨ p ∈ s.holders then none
      else if s.nfgpuAv - 1 = 0 then
        some { s with nfgpuAv := s.nfgpuAv - 1, holders := insert p s.holders }
      else some { s with nfgpuAv := s.nfgpuAv - 1, failing := insert p s.failing }
  | .inc p =>
      if p ∈ s.failing then
        some { s with nfgpuAv := s.nfgpuAv + 1, failing := s.failing.erase p }
      else none
  | .set p =>
      if p ∈ s.holders then some { s with nfgpuAv := 1, holders := s.holders.erase p } else none

/-! ## Exclusive opens -/

/-- At most one open is held; when none is and no call is in progress, the counter is 1 and
whoever opens next succeeds.
Kind: D -/
def Exclusive (s : OpenState Caller) : Prop :=
  s.holders.card ≤ 1 ∧ (s.holders = ∅ → s.failing = ∅ →
    s.nfgpuAv = 1 ∧ ∀ p, ∃ t, step s (.decAndTest p) = some t ∧ p ∈ t.holders)

/-- A release comes when no failing open is between its two operations, and an open when fewer of
them are than the counter has values.
Kind: D -/
def ReleasesAlone (s : OpenState Caller) : OpenAction Caller → Prop
  | .decAndTest _ => s.failing.card < 2 ^ 32 - 1
  | .inc _ => True
  | .set _ => s.failing = ∅

instance (s : OpenState Caller) : ∀ a, Decidable (ReleasesAlone s a)
  | .decAndTest _ => inferInstanceAs (Decidable (_ < _))
  | .inc _ => inferInstanceAs (Decidable True)
  | .set _ => inferInstanceAs (Decidable (_ = _))

/-- The counter accounts for every caller: with the holders and the failing opens it sums to 1.
Kind: D -/
structure OpenInv (s : OpenState Caller) : Prop where
  count : s.nfgpuAv + BitVec.ofNat 32 (s.holders.card + s.failing.card) = 1
  holders_le : s.holders.card ≤ 1
  failing_lt : s.failing.card < 2 ^ 32

omit [DecidableEq Caller] in
/-- The device after module load accounts for its callers.
Kind: L -/
theorem openInv_boot : OpenInv (OpenState.boot : OpenState Caller) where
  count := by simp [OpenState.boot]
  holders_le := by simp [OpenState.boot]
  failing_lt := by simp [OpenState.boot]

section steps

variable {s s' : OpenState Caller} {p : Caller}

/-- An open of a device whose counter is 1 succeeds.
Kind: L -/
theorem step_decAndTest_of_one (hav : s.nfgpuAv = 1) (hfree : ¬(p ∈ s.failing ∨ p ∈ s.holders)) :
    step s (.decAndTest p) =
      some { s with nfgpuAv := s.nfgpuAv - 1, holders := insert p s.holders } := by
  simp [step, hfree, hav]

/-- What the invariant says of the states the kernel sees.
Kind: L -/
theorem OpenInv.exclusive (hI : OpenInv s) : Exclusive s := by
  refine ⟨hI.holders_le, fun hh hf => ?_⟩
  have hav : s.nfgpuAv = 1 := by simpa [hh, hf] using hI.count
  refine ⟨hav, fun p => ⟨_, step_decAndTest_of_one hav (by simp [hh, hf]), ?_⟩⟩
  exact Finset.mem_insert_self p s.holders

/-- The decrement: zero exactly when the device is idle.
Source: `xt_TOGPU_main.c` 521
Kind: L -/
theorem openInv_decAndTest (hI : OpenInv s) (hok : ReleasesAlone s (.decAndTest p))
    (h : step s (.decAndTest p) = some s') : OpenInv s' := by
  obtain ⟨hcount, hh, -⟩ := hI
  have hok' : s.failing.card < 2 ^ 32 - 1 := hok
  simp only [step] at h
  split_ifs at h with hbusy hzero
  · -- the counter reached zero, so nobody held or was failing
    cases h
    have hsum : s.holders.card + s.failing.card = 0 := by
      have hz : (BitVec.ofNat 32 (s.holders.card + s.failing.card)).toNat = 0 := by bv_omega
      rw [BitVec.toNat_ofNat] at hz
      omega
    have hcard : (insert p s.holders).card = s.holders.card + 1 :=
      Finset.card_insert_of_notMem fun hp => hbusy (.inr hp)
    refine ⟨?_, by simp only [hcard]; omega, by simp only; omega⟩
    simp only [hcard, show s.holders.card = 0 by omega, show s.failing.card = 0 by omega]
    bv_omega
  · cases h
    have hcard : (insert p s.failing).card = s.failing.card + 1 :=
      Finset.card_insert_of_notMem fun hp => hbusy (.inl hp)
    refine ⟨?_, hh, by simp only [hcard]; omega⟩
    simp only [hcard]
    rw [← Nat.add_assoc, BitVec.ofNat_add _ 1]
    bv_omega

/-- The increment gives back what the decrement took.
Source: `xt_TOGPU_main.c` 523
Kind: L -/
theorem openInv_inc (hI : OpenInv s) (h : step s (.inc p) = some s') : OpenInv s' := by
  obtain ⟨hcount, hh, hf⟩ := hI
  simp only [step] at h
  split_ifs at h with hp
  cases h
  have hcard : (s.failing.erase p).card + 1 = s.failing.card := Finset.card_erase_add_one hp
  refine ⟨?_, hh, by simp only; omega⟩
  rw [← hcard, ← Nat.add_assoc, BitVec.ofNat_add _ 1] at hcount
  simp only
  bv_omega

/-- The store of 1 is right when no open is failing.
Source: `xt_TOGPU_main.c` 532
Kind: L -/
theorem openInv_set (hI : OpenInv s) (hok : ReleasesAlone s (.set p))
    (h : step s (.set p) = some s') : OpenInv s' := by
  obtain ⟨hcount, hh, hf⟩ := hI
  have hempty : s.failing = ∅ := hok
  simp only [step] at h
  split_ifs at h with hp
  cases h
  have hcard : (s.holders.erase p).card + 1 = s.holders.card := Finset.card_erase_add_one hp
  have hzero : (s.holders.erase p).card = 0 := by omega
  refine ⟨?_, by simp only; omega, hf⟩
  simp [hzero, hempty]

/-- **Every operation that meets the condition keeps the account.**
Kind: P -/
theorem openInv_step {a : OpenAction Caller} (hI : OpenInv s) (hok : ReleasesAlone s a)
    (h : step s a = some s') : OpenInv s' := by
  cases a with
  | decAndTest p => exact openInv_decAndTest hI hok h
  | inc p => exact openInv_inc hI h
  | set p => exact openInv_set hI hok h

/-- The failing opens all finish: each adds one to the counter.
Kind: L -/
theorem exec_inc_all (ps : List Caller) (hnd : ps.Nodup) {s : OpenState Caller}
    (hps : s.failing = ps.toFinset) :
    exec step s (ps.map .inc) =
      some ⟨s.nfgpuAv + BitVec.ofNat 32 ps.length, ∅, s.holders⟩ := by
  induction ps generalizing s with
  | nil =>
      obtain ⟨av, failing, holders⟩ := s
      simp at hps
      simp [hps]
  | cons p ps ih =>
      have hp : p ∈ s.failing := by simp [hps]
      have hrest : s.failing.erase p = ps.toFinset := by
        rw [hps, List.toFinset_cons, Finset.erase_insert]
        simpa using (List.nodup_cons.mp hnd).1
      have hstep : step s (.inc p) =
          some { s with nfgpuAv := s.nfgpuAv + 1, failing := s.failing.erase p } := by
        simp [step, hp]
      refine exec_cons_eq_some.mpr ⟨_, hstep, ?_⟩
      rw [ih (List.nodup_cons.mp hnd).2 hrest, List.length_cons, BitVec.ofNat_add _ 1]
      simp only [Option.some.injEq, OpenState.mk.injEq, and_true]
      bv_omega

/-- A release during failing opens: when those have finished, the device is idle and its counter
is not 1.
Source: `xt_TOGPU_main.c` 532
Kind: L -/
theorem exec_set_inc_all (hI : OpenInv s) (hp : p ∈ s.holders)
    (hbad : ¬ReleasesAlone s (.set p)) :
    ∃ t, exec step s (.set p :: s.failing.toList.map .inc) = some t ∧ ¬Exclusive t := by
  have hset : step s (.set p) = some { s with nfgpuAv := 1, holders := s.holders.erase p } := by
    simp [step, hp]
  have hinc := exec_inc_all s.failing.toList s.failing.nodup_toList
    (s := { s with nfgpuAv := 1, holders := s.holders.erase p }) (by simp)
  refine ⟨_, exec_cons_eq_some.mpr ⟨_, hset, hinc⟩, fun hex => ?_⟩
  have hidle : s.holders.erase p = ∅ := by
    have hcard := Finset.card_erase_add_one hp
    have hle := hI.holders_le
    exact Finset.card_eq_zero.mp (by omega)
  have hav := (hex.2 hidle rfl).1
  have hpos : 0 < s.failing.card :=
    Finset.card_pos.mpr (Finset.nonempty_iff_ne_empty.mpr hbad)
  have hlt := hI.failing_lt
  simp only [Finset.length_toList] at hav
  have hz : (BitVec.ofNat 32 s.failing.card).toNat = 0 := by bv_omega
  rw [BitVec.toNat_ofNat] at hz
  omega

end steps

/-- **The device is exclusive in every run**, with any callers and any interleaving of their
operations, in which no release comes between the two operations of a failing open. After a run of
that kind, a release that does come there can be followed by the increments of the failing opens,
and the idle device is then left with a counter other than 1.
Source: `xt_TOGPU_main.c` 67, 519–534
Kind: P
Fidelity: exact
Hyps: (a) every operation meets `ReleasesAlone` -/
theorem exclusive_of_run {as : List (OpenAction Caller)} {s : OpenState Caller}
    (has : Along step ReleasesAlone OpenState.boot as)
    (hrun : exec step OpenState.boot as = some s) :
    Exclusive s ∧ ∀ p ∈ s.holders, ¬ReleasesAlone s (.set p) →
      ∃ t, exec step s (.set p :: s.failing.toList.map .inc) = some t ∧ ¬Exclusive t := by
  have hI : OpenInv s :=
    exec_invariant (fun t a t' hI hok h => openInv_step hI hok h) openInv_boot has hrun
  exact ⟨hI.exclusive, fun p hp hbad => exec_set_inc_all hI hp hbad⟩

/-- One caller opens, another fails, the first releases.
Kind: C -/
theorem exclusive_open_busy_release :
    ∃ s, exec step (OpenState.boot : OpenState ℕ)
        [.decAndTest 0, .decAndTest 1, .inc 1, .set 0] = some s ∧ Exclusive s := by
  have hrun : exec step (OpenState.boot : OpenState ℕ)
      [.decAndTest 0, .decAndTest 1, .inc 1, .set 0] = some ⟨1, ∅, ∅⟩ := by decide
  exact ⟨_, hrun, (exclusive_of_run (by decide) hrun).1⟩

/-- The release comes between the two operations of the failing open. The idle device is left
with a counter of 2; and if another open comes before the increment, two are held at once.
Kind: C -/
theorem not_exclusive_release_during_open :
    (∃ s, exec step (OpenState.boot : OpenState ℕ)
        [.decAndTest 0, .decAndTest 1, .set 0, .inc 1] = some s ∧
      s.holders = ∅ ∧ s.failing = ∅ ∧ s.nfgpuAv = 2 ∧ ¬Exclusive s) ∧
    ∃ s, exec step (OpenState.boot : OpenState ℕ)
        [.decAndTest 0, .decAndTest 1, .set 0, .decAndTest 2, .inc 1, .decAndTest 3] = some s ∧
      s.holders.card = 2 ∧ ¬Exclusive s := by
  constructor
  · refine ⟨⟨2, ∅, ∅⟩, by decide, rfl, rfl, rfl, fun hex => ?_⟩
    exact absurd (hex.2 rfl rfl).1 (by decide)
  · refine ⟨⟨0, ∅, insert 3 (insert 2 ∅)⟩, rfl, rfl, fun hex => ?_⟩
    exact absurd hex.1 (by decide)

end Togpu.Device
