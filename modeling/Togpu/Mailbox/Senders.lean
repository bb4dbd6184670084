import Togpu.Pool.Membership
import Togpu.Mailbox.Protocol

/-!
# Concurrent senders

One mailbox, any number of CPUs in `nfgpu_target`, every interleaving.

* `NoLoss` — what a sender relies on, per step: when a call leaves its polling loop the launcher
  has read the call's index exactly once since it was stored; a launch is for the index of a
  pending call.
* `StoresIntoEmpty` — the condition: a call stores its index only into an empty mailbox.
* `Phase` — the invariant: the mailbox is empty and every pending call has been read; or it holds
  the index of one pending call, not yet read or read and not yet cleared.
* **No packet is lost in any run in which every index is stored into an empty mailbox**
  (`noLoss_of_run`); two calls that store one after the other lose the first
  (`not_noLoss_overwritten`).
-/

namespace Togpu.Mailbox

open Togpu.Driver Togpu.Lib

/-! ## What is asked of a run -/

/-- The step loses no packet and makes none up.
Kind: D -/
def NoLoss (u : ULong) (s : State) : Action → Prop
  | .target c => ∀ call, s.target c = .poll call → loadTarget u s.drv.nfgpuKva s.mem = 0 →
      s.reads c = 1
  | .aes => ∀ index length, s.aes = .launch index length →
      ∃ c call, (s.target c).pending = some call ∧ call.index.toNat = index.toNat
  | _ => True

/-- A packet comes in a slot of its own: one that was handed out, hence not slot 0, and not that
of another call under way.
Kind: D -/
def DifferentSlots (s : State) : Action → Prop
  | .enter _ head _ => inPool s.drv.nfgpuKva head = true →
      slotIndex s.drv.nfgpuKva head ≠ 0 ∧
        ∀ d call, (s.target d).active = some call → call.index ≠ slotIndex s.drv.nfgpuKva head
  | _ => True

/-- A call stores its index when the index word of the mailbox is zero.
Kind: D -/
def StoresIntoEmpty (s : State) : Action → Prop
  | .target c => ∀ call, s.target c = .storeIndex call → s.cell = 0
  | _ => True

/-! ## The invariant -/

/-- Where the mailbox stands.
Kind: D -/
inductive Phase (s : State) : Prop
  /-- Empty; every pending call has been read. -/
  | empty (hpc : s.aes = .poll) (hcell : s.cell = 0)
      (hreads : ∀ d call, (s.target d).pending = some call → s.reads d = 1)
  /-- Holds the index of a pending call that has not been read; every other one has. -/
  | posted (c : ℕ) (call : Call) (hpc : s.aes = .poll ∨ s.aes = .readIndex)
      (hc : (s.target c).pending = some call) (hcell : s.cell.toNat = call.index.toNat)
      (hzero : s.reads c = 0)
      (hreads : ∀ d call, d ≠ c → (s.target d).pending = some call → s.reads d = 1)
  /-- Holds the index of a pending call that has been read and is being processed. -/
  | taken (c : ℕ) (call : Call)
      (hpc : s.aes = .readLength s.cell ∨ (∃ n, s.aes = .launch s.cell n) ∨ s.aes = .done)
      (hc : (s.target c).pending = some call) (hcell : s.cell.toNat = call.index.toNat)
      (hreads : ∀ d call, (s.target d).pending = some call → s.reads d = 1)

/-- Calls under way have slots of their own, and the mailbox is in one of its phases.
Kind: D -/
structure MailInv (s : State) : Prop where
  slot : ∀ c call, (s.target c).active = some call →
    call.index ≠ 0 ∧ call.index < nfgpuMaxSkbs
  distinct : ∀ c d call call', c ≠ d → (s.target c).active = some call →
    (s.target d).active = some call' → call.index ≠ call'.index
  phase : Phase s

/-- A pending call is under way.
Kind: L -/
theorem TargetPc.active_of_pending {pc : TargetPc} {call : Call} (h : pc.pending = some call) :
    pc.active = some call := by
  cases pc with
  | idle => cases h
  | storeIndex call' => cases h
  | storeLength call' => exact h
  | poll call' => exact h
  | accept call' => cases h

/-- The quiet system with an empty mailbox has the invariant.
Kind: L -/
theorem mailInv_quiet {drv : Globals} {mem : Addr → BitVec 8}
    (h : aesIndex drv.nfgpuKva mem = 0) : MailInv (State.quiet drv mem) where
  slot := fun c call hc => by cases hc
  distinct := fun c d call call' _ hc => by cases hc
  phase := .empty rfl h fun d call hd => by cases hd

section steps

variable {u : ULong} {s s' : State}

/-- A slot index is not zero as a `u32` either.
Kind: L -/
theorem MailInv.cell_ne_zero (hI : MailInv s) {c : ℕ} {call : Call}
    (hc : (s.target c).pending = some call) (hcell : s.cell.toNat = call.index.toNat) :
    s.cell ≠ 0 := by
  obtain ⟨hne, -⟩ := hI.slot c call (TargetPc.active_of_pending hc)
  intro h0
  rw [h0] at hcell
  exact hne (BitVec.eq_of_toNat_eq hcell.symm)

/-- An empty mailbox is in its empty phase.
Kind: L -/
theorem MailInv.empty_of_cell (hI : MailInv s) (h0 : s.cell = 0) :
    s.aes = .poll ∧ ∀ d call, (s.target d).pending = some call → s.reads d = 1 := by
  cases hI.phase with
  | empty hpc _ hreads => exact ⟨hpc, hreads⟩
  | posted c call _ hc hcell => exact absurd h0 (hI.cell_ne_zero hc hcell)
  | taken c call _ hc hcell => exact absurd h0 (hI.cell_ne_zero hc hcell)

/-- The phase depends on the launcher, the index word, the pending calls and the history.
Kind: L -/
theorem Phase.congr (h : Phase s) (haes : s'.aes = s.aes) (hcell : s'.cell = s.cell)
    (hreads : s'.reads = s.reads)
    (hpend : ∀ d, (s'.target d).pending = (s.target d).pending) : Phase s' := by
  cases h with
  | empty hpc hc hr =>
      refine .empty (haes.trans hpc) (hcell.trans hc) fun d call hd => ?_
      rw [hreads]
      exact hr d call ((hpend d).symm.trans hd)
  | posted c call hpc hc hcl hz hr =>
      refine .posted c call (by rwa [haes]) ((hpend c).trans hc) (by rwa [hcell])
        (by rwa [hreads]) fun d call hdc hd => ?_
      rw [hreads]
      exact hr d call hdc ((hpend d).symm.trans hd)
  | taken c call hpc hc hcl hr =>
      refine .taken c call (by rwa [haes, hcell]) ((hpend c).trans hc) (by rwa [hcell])
        fun d call hd => ?_
      rw [hreads]
      exact hr d call ((hpend d).symm.trans hd)

/-- Moving CPU `c` between two places with the same pending call moves no pending call.
Kind: L -/
theorem pending_goto {c : ℕ} {pc : TargetPc} (h : pc.pending = (s.target c).pending) (d : ℕ) :
    ((s.goto c pc).target d).pending = (s.target d).pending := by
  by_cases hd : d = c
  · subst hd
    simp only [State.goto, Function.update_self, h]
  · simp only [State.goto, Function.update_of_ne hd]

/-- Moving CPU `c` on within its call, or out of it, adds no call.
Kind: L -/
theorem active_goto {c : ℕ} {pc : TargetPc}
    (h : ∀ call, pc.active = some call → (s.target c).active = some call) (d : ℕ) (call : Call)
    (hd : ((s.goto c pc).target d).active = some call) : (s.target d).active = some call := by
  by_cases hdc : d = c
  · subst hdc
    simp only [State.goto, Function.update_self] at hd
    exact h call hd
  · simpa only [State.goto, Function.update_of_ne hdc] using hd

/-- The invariant in a state with no new calls.
Kind: L -/
theorem MailInv.of_active (hI : MailInv s)
    (h : ∀ d call, (s'.target d).active = some call → (s.target d).active = some call)
    (hphase : Phase s') : MailInv s' where
  slot := fun c call hc => hI.slot c call (h c call hc)
  distinct := fun c d call call' hcd hc hd =>
    hI.distinct c d call call' hcd (h c call hc) (h d call' hd)
  phase := hphase

/-- A call enters, or is turned away by the entry test.
Source: `xt_TOGPU_main.c` 188–195
Kind: L -/
theorem MailInv.enter (hI : MailInv s) {c : ℕ} {head : Addr} {len : BitVec 32}
    (hslots : DifferentSlots s (.enter c head len)) (hidle : (s.target c).active = none) :
    MailInv (s.goto c (nfgpuTargetEntry s.drv head len)) := by
  have hpend : (s.target c).pending = none := by
    rw [Option.eq_none_iff_forall_ne_some]
    intro call hc
    rw [TargetPc.active_of_pending hc] at hidle
    cases hidle
  have hphase : Phase (s.goto c (nfgpuTargetEntry s.drv head len)) := by
    refine hI.phase.congr rfl rfl rfl (pending_goto ?_)
    rw [hpend, nfgpuTargetEntry]
    split_ifs <;> rfl
  have hold : ∀ d call, d ≠ c →
      ((s.goto c (nfgpuTargetEntry s.drv head len)).target d).active = some call →
      (s.target d).active = some call := by
    intro d call hdc hd
    simpa only [State.goto, Function.update_of_ne hdc] using hd
  -- a call that CPU `c` is in after its entry has passed the test
  have hnew : ∀ call, ((s.goto c (nfgpuTargetEntry s.drv head len)).target c).active = some call →
      inPool s.drv.nfgpuKva head = true ∧ call.index = slotIndex s.drv.nfgpuKva head := by
    intro call hc
    simp only [State.goto, Function.update_self, nfgpuTargetEntry] at hc
    split_ifs at hc with hrun hin
    · cases hc
    · cases hc
    · cases hc
      exact ⟨by simpa using hin, rfl⟩
  refine ⟨fun d call hd => ?_, fun d e call call' hde hd he => ?_, hphase⟩
  · by_cases hdc : d = c
    · subst hdc
      obtain ⟨hin, hidx⟩ := hnew call hd
      rw [hidx]
      rw [inPool, Bool.and_eq_true, decide_eq_true_eq] at hin
      exact ⟨(hslots (by rw [inPool, Bool.and_eq_true, decide_eq_true_eq]; exact hin)).1, hin.2⟩
    · exact hI.slot d call (hold d call hdc hd)
  · by_cases hdc : d = c
    · subst hdc
      obtain ⟨hin, hidx⟩ := hnew call hd
      rw [hidx]
      exact ((hslots hin).2 e call' (hold e call' hde.symm he)).symm
    · by_cases hec : e = c
      · subst hec
        obtain ⟨hin, hidx⟩ := hnew call' he
        rw [hidx]
        exact (hslots hin).2 d call (hold d call hdc hd)
      · exact hI.distinct d e call call' hde (hold d call hdc hd) (hold e call' hec he)

/-- A call makes its next access; if that is the store of its index, into an empty mailbox.
Source: `xt_TOGPU_main.c` 203–206
Kind: L -/
theorem MailInv.target (hI : MailInv s) {c : ℕ} (hempty : StoresIntoEmpty s (.target c))
    (h : targetStep u s c = some s') : MailInv s' := by
  unfold targetStep at h
  cases hpc : s.target c with
  | idle => simp [hpc] at h
  | storeIndex call =>
      simp only [hpc, Option.some.injEq] at h
      subst h
      obtain ⟨haes, hreads⟩ := hI.empty_of_cell (hempty call hpc)
      obtain ⟨-, hlt⟩ := hI.slot c call (by rw [hpc]; rfl)
      refine hI.of_active (active_goto fun call' h' => by rw [hpc]; exact h')
        (.posted c call (.inl haes) ?_ ?_ (Function.update_self ..) fun d call' hdc hd => ?_)
      · simp only [State.goto, Function.update_self]
        rfl
      · rw [BitVec.lt_def, nfgpuMaxSkbs_toNat] at hlt
        simp only [State.cell, State.goto, aesIndex_storeIndex, BitVec.toNat_setWidth]
        omega
      · simp only [State.goto, Function.update_of_ne hdc] at hd ⊢
        exact hreads d call' hd
  | storeLength call =>
      simp only [hpc, Option.some.injEq] at h
      subst h
      refine hI.of_active (active_goto fun call' h' => by rw [hpc]; exact h')
        (hI.phase.congr rfl ?_ rfl (pending_goto (by rw [hpc]; rfl)))
      simp only [State.cell, State.goto, aesIndex_storeLength]
  | poll call =>
      simp only [hpc] at h
      split_ifs at h with hzero
      · cases h
        exact hI
      · cases h
        have hcell : s.cell = 0 := aesIndex_of_loadTarget (not_not.mp hzero)
        obtain ⟨haes, hreads⟩ := hI.empty_of_cell hcell
        refine hI.of_active (active_goto fun call' h' => by cases h')
          (.empty haes hcell fun d call' hd => ?_)
        by_cases hdc : d = c
        · subst hdc
          simp only [State.goto, Function.update_self] at hd
          cases hd
        · simp only [State.goto, Function.update_of_ne hdc] at hd
          exact hreads d call' hd
  | accept call => simp [hpc] at h

/-- The launcher makes its next access.
Source: `xt_TOGPU_kernel.cu` 1747–1778
Kind: L -/
theorem MailInv.aes (hI : MailInv s) : MailInv (aesStep s) := by
  refine hI.of_active (fun d call hd => by rwa [aesStep_target] at hd) ?_
  unfold aesStep
  cases hI.phase with
  | empty hpc hcell hreads =>
      simp only [hpc, hcell, if_true]
      exact .empty hpc hcell hreads
  | posted c call hpc hc hcell hzero hreads =>
      rcases hpc with hpc | hpc
      · simp only [hpc, if_neg (hI.cell_ne_zero hc hcell)]
        exact .posted c call (.inr rfl) hc hcell hzero hreads
      · simp only [hpc]
        refine .taken c call (.inl rfl) hc hcell fun d call' hd => ?_
        by_cases hdc : d = c
        · subst hdc
          rw [hc] at hd
          cases hd
          simp only [countRead, hc, hcell, if_true, hzero]
        · -- another pending call has another slot, so this was not a read of it
          have hne : call'.index ≠ call.index := hI.distinct d c call' call hdc
            (TargetPc.active_of_pending hd) (TargetPc.active_of_pending hc)
          have hne' : ¬call'.index.toNat = s.cell.toNat := by
            rw [hcell]
            exact fun h => hne (BitVec.eq_of_toNat_eq h)
          have hd' : (s.target d).pending = some call' := hd
          simp only [countRead, hd', if_neg hne']
          exact hreads d call' hdc hd'
  | taken c call hpc hc hcell hreads =>
      rcases hpc with hpc | ⟨n, hpc⟩ | hpc
      · simp only [hpc]
        exact .taken c call (.inr (.inl ⟨_, rfl⟩)) hc hcell hreads
      · simp only [hpc]
        exact .taken c call (.inr (.inr rfl)) hc hcell hreads
      · simp only [hpc]
        exact .empty rfl (aesIndex_aesDone _ _) hreads

/-- **Every step keeps the invariant**, if indices are stored into an empty mailbox.
Kind: P -/
theorem mailInv_step {a : Action} (hI : MailInv s)
    (hok : DifferentSlots s a ∧ StoresIntoEmpty s a) (h : step u s a = some s') : MailInv s' := by
  cases a with
  | enter c head len =>
      simp only [step] at h
      split_ifs at h with hidle
      cases h
      exact hI.enter hok.1 hidle
  | target c => exact hI.target hok.2 h
  | aes =>
      cases h
      exact hI.aes
  | gpu k =>
      simp only [step] at h
      split_ifs at h
      cases h
      exact hI.of_active (fun _ _ hd => hd) (hI.phase.congr rfl rfl rfl fun _ => rfl)

/-- With the invariant no step loses a packet or makes one up.
Kind: L -/
theorem MailInv.noLoss (hI : MailInv s) (a : Action) : NoLoss u s a := by
  cases a with
  | enter c head len => trivial
  | target c =>
      intro call hpc hzero
      exact (hI.empty_of_cell (aesIndex_of_loadTarget hzero)).2 c call (by rw [hpc]; rfl)
  | aes =>
      intro index length haes
      cases hI.phase with
      | empty hpc =>
          rw [hpc] at haes
          cases haes
      | posted c call hpc =>
          rcases hpc with hpc | hpc <;>
            · rw [hpc] at haes
              cases haes
      | taken c call hpc hc hcell =>
          rcases hpc with hpc | ⟨n, hpc⟩ | hpc
          · rw [hpc] at haes
            cases haes
          · rw [hpc] at haes
            cases haes
            exact ⟨c, call, hc, hcell.symm⟩
          · rw [hpc] at haes
            cases haes
  | gpu k => trivial

end steps

/-- **No packet is lost between concurrent senders**, in any interleaving of any number of calls
with the launcher and the GPU in which every index is stored into an empty mailbox: whenever a
call leaves its loop the launcher has read its index exactly once since the store, and every
launch is for the index of a pending call.
Source: `xt_TOGPU_main.c` 175–222, `xt_TOGPU_kernel.cu` 1747–1779
Kind: P
Fidelity: exact
Hyps: (a) the mailbox is empty at the start; (b) different slots; (c) stores into an empty
mailbox -/
theorem noLoss_of_run (u : ULong) {drv : Globals} {mem : Addr → BitVec 8}
    (hempty : aesIndex drv.nfgpuKva mem = 0) {as : List Action}
    (has : Along (step u) (fun s a => DifferentSlots s a ∧ StoresIntoEmpty s a)
      (State.quiet drv mem) as) :
    Along (step u) (NoLoss u) (State.quiet drv mem) as :=
  along_of_invariant (I := MailInv) (fun _ _ _ hI hok h => mailInv_step hI hok h)
    (fun _ a hI _ => hI.noLoss a) (mailInv_quiet hempty) has

/-- A running pool at the start of the `vmalloc` area, with a mailbox of zeros.
Kind: D -/
def sampleQuiet : State :=
  State.quiet { nfgpuInternalInit with nfgpuRunning := true, nfgpuKva := 0xffffc90000000000 }
    fun _ => 0

/-- A call of CPU `c` from its first store on, with one round of the launcher.
Kind: D -/
def oneRound (c : ℕ) : List Action :=
  [.target c, .target c, .aes, .aes, .aes, .aes, .aes, .target c]

/-- Such a round that starts with an empty mailbox stores into an empty mailbox only.
Kind: L -/
theorem along_oneRound {u : ULong} {s : State} {c : ℕ} {call : Call}
    (h : s.target c = .storeIndex call) (hcell : s.cell = 0) :
    Along (step u) (fun s a => DifferentSlots s a ∧ StoresIntoEmpty s a) s (oneRound c) := by
  refine Along.cons ⟨trivial, fun _ _ => hcell⟩ (step_target_storeIndex h) ?_
  refine Along.cons ⟨trivial, fun k hk => ?_⟩
    (step_target_storeLength (State.goto_target_self ..)) ?_
  · rw [State.goto_target_self] at hk
    cases hk
  refine Along.cons ⟨trivial, trivial⟩ rfl (Along.cons ⟨trivial, trivial⟩ rfl ?_)
  refine Along.cons ⟨trivial, trivial⟩ rfl (Along.cons ⟨trivial, trivial⟩ rfl ?_)
  refine Along.cons ⟨trivial, trivial⟩ rfl ⟨⟨trivial, fun k hk => ?_⟩, fun _ _ => trivial⟩
  rw [aesStep_target, aesStep_target, aesStep_target, aesStep_target, aesStep_target,
    State.goto_target_self] at hk
  cases hk

/-- Two calls, for slots 1 and 2, that have both passed their tests when the first one stores.
Kind: D -/
def bothEntered : List Action := [.enter 0 0xffffc90000001000 84, .enter 1 0xffffc90000002000 84]

/-- The second call waits with its stores until the mailbox is empty again: both packets go through.
Kind: C -/
theorem noLoss_taking_turns :
    Along (step .eight) (NoLoss .eight) sampleQuiet (bothEntered ++ oneRound 0 ++ oneRound 1) := by
  refine noLoss_of_run .eight rfl (.append (.append ?_ fun s hs => ?_) fun s hs => ?_)
  · refine Along.cons ⟨fun _ => ⟨by decide, fun d call hd => by cases hd⟩, trivial⟩ rfl ?_
    refine ⟨⟨fun _ => ⟨by decide, fun d call hd => ?_⟩, trivial⟩, fun _ _ => trivial⟩
    cases d with
    | zero =>
        cases hd
        decide
    | succ d => cases hd
  · cases hs
    exact along_oneRound rfl rfl
  · cases hs
    exact along_oneRound rfl (by decide)

/-- Two calls, for slots 1 and 2, that store their indices one after the other before the launcher
reads, and the first of them back in its loop after the launcher is done.
Kind: D -/
def overwritten : List Action :=
  [.enter 0 0xffffc90000001000 84, .enter 1 0xffffc90000002000 84, .target 0, .target 1, .target 0,
    .target 1, .aes, .aes, .aes, .aes, .aes]

/-- The launcher has read only the second index; the first call leaves its loop unread.
Kind: C -/
theorem not_noLoss_overwritten :
    Along (step .eight) DifferentSlots sampleQuiet (overwritten ++ [.target 0]) ∧
      ¬Along (step .eight) (NoLoss .eight) sampleQuiet (overwritten ++ [.target 0]) := by
  constructor
  · refine Along.cons (fun _ => ⟨by decide, fun d call hd => by cases hd⟩) rfl ?_
    refine Along.cons (fun _ => ⟨by decide, fun d call hd => ?_⟩) rfl ?_
    · cases d with
      | zero =>
          cases hd
          decide
      | succ d => cases hd
    · refine along_of_forall (fun a ha s => ?_) _
      cases a with
      | enter c head len => simp at ha
      | _ => trivial
  · intro h
    have hlast := Along.next h rfl ⟨1, 84⟩ rfl (by decide)
    exact absurd hlast (by decide)

end Togpu.Mailbox
