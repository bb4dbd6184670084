import Togpu.Mailbox.Protocol

/-!
# Which length goes with which packet

The mailbox as two cells, one sender after another, every interleaving with the launcher. Each cell
remembers which call wrote it (`Stamped`), so that a length left over from an earlier packet can be
told from one that happens to be equal.

* `Cells`, `CellAction`, `cellStep` — `nfgpu_target` stores the index and then the length;
  `aes_test` polls the index, reads it, reads the length, launches, and stores zero.
* `Matched` — every launch has taken its index and its length from one call.
* `ReadsStored` — the condition: the launcher reads the length when the call whose index is posted
  has stored its own.
* **Lengths belong to their packets in every run whose steps meet the condition**
  (`matched_of_run`), and from a state reached so a read of the other kind leads to a launch with
  another call's length.
* `exists_cells_run` — with 4-byte longs the runs of the byte-level protocol with one sender are
  runs of the cells.
-/

namespace Togpu.Mailbox

open Togpu.Driver Togpu.Lib

/-! ## The cells and their users -/

/-- A word and the call of `nfgpu_target` that stored it; `none` for the launcher's zero and for
what was there before.
Kind: D -/
structure Stamped where
  /-- The word. -/
  value : BitVec 32
  /-- The number of the call that stored it. -/
  writer : Option ℕ
  deriving DecidableEq, Repr

/-- Where the sender stands.
Source: `xt_TOGPU_main.c` 202–206
Kind: D -/
inductive SenderPc where
  /-- Between two calls. -/
  | idle
  /-- Before `*target = index`. -/
  | storeIndex (call : Call)
  /-- Before `*(target+1) = (unsigned long) skb->len`. -/
  | storeLength (call : Call)
  /-- In `while( *target != 0 )`. -/
  | poll (call : Call)
  deriving DecidableEq, Repr

/-- Where `aes_test` stands, with the words it has read.
Source: `xt_TOGPU_kernel.cu` 1747–1779
Kind: D -/
inductive ReaderPc where
  /-- In `while( *target == 0 )`. -/
  | poll
  /-- Before `index = *target`. -/
  | readIndex
  /-- Before `length = *(target+1)`. -/
  | readLength (index : Stamped)
  /-- Before the launch. -/
  | launch (index length : Stamped)
  /-- Before `*target = 0`. -/
  | done
  deriving DecidableEq, Repr

/-- The two cells, the sender and the launcher.
Kind: D -/
structure Cells where
  /-- The index cell. -/
  index : Stamped
  /-- The length cell. -/
  length : Stamped
  /-- The sender. -/
  sender : SenderPc
  /-- How many calls there have been: the number of the last one. -/
  calls : ℕ
  /-- The launcher. -/
  aes : ReaderPc
  /-- The index and the length of each launch, newest first. -/
  launches : List (Stamped × Stamped)
  deriving DecidableEq, Repr

/-- An empty mailbox with some length left in it, no call yet, the launcher in its polling loop.
Kind: D -/
def Cells.start (length : BitVec 32) : Cells := ⟨⟨0, none⟩, ⟨length, none⟩, .idle, 0, .poll, []⟩

/-- What can happen next.
Kind: D -/
inductive CellAction where
  /-- `nfgpu_target` is called again, past its entry test. -/
  | enter (call : Call)
  /-- The sender makes its next access. -/
  | target
  /-- The launcher makes its next access. -/
  | aes

/-- The sender's next access.
Source: `xt_TOGPU_main.c` 203–206
Kind: D -/
def Cells.targetStep (s : Cells) : Option Cells :=
  match s.sender with
  | .idle => none
  | .storeIndex call =>
      some { s with
        index := ⟨call.index.setWidth 32, some s.calls⟩, sender := .storeLength call }
  | .storeLength call =>
      some { s with length := ⟨call.len, some s.calls⟩, sender := .poll call }
  | .poll _ => if s.index.value ≠ 0 then some s else some { s with sender := .idle }

/-- The launcher's next access.
Source: `xt_TOGPU_kernel.cu` 1751–1777
Kind: D -/
def Cells.aesStep (s : Cells) : Cells :=
  match s.aes with
  | .poll => if s.index.value = 0 then s else { s with aes := .readIndex }
  | .readIndex => { s with aes := .readLength s.index }
  | .readLength index => { s with aes := .launch index s.length }
  | .launch index length => { s with aes := .done, launches := (index, length) :: s.launches }
  | .done => { s with aes := .poll, index := ⟨0, none⟩ }

/-- One transition; a call starts when the one before it has returned.
Kind: D -/
def cellStep (s : Cells) : CellAction → Option Cells
  | .enter call =>
      if s.sender = .idle then
        some { s with sender := .storeIndex call, calls := s.calls + 1 }
      else none
  | .target => s.targetStep
  | .aes => some s.aesStep

/-! ## Lengths and packets -/

/-- Every launch took its index and its length from one call.
Kind: D -/
def Matched (s : Cells) : Prop :=
  ∀ l ∈ s.launches, ∃ k, l.1.writer = some k ∧ l.2.writer = some k

/-- The invariant. A posted index is that of the call under way, which has stored it; past its
polling loop the launcher finds it unchanged.
Kind: D -/
structure CellInv (s : Cells) : Prop where
  posted : s.index.value ≠ 0 → s.index.writer = some s.calls ∧
    ∃ call, s.sender = .storeLength call ∨ s.sender = .poll call
  busy : s.aes ≠ .poll → s.index.value ≠ 0
  stored : ∀ call, s.sender = .poll call → s.length.writer = some s.calls
  read : ∀ index, s.aes = .readLength index → index = s.index
  taken : ∀ index length, s.aes = .launch index length →
    index = s.index ∧ length.writer = some s.calls
  older : ∀ k, s.length.writer = some k → k ≤ s.calls
  fresh : ∀ k call, s.sender = .storeIndex call ∨ s.sender = .storeLength call →
    s.length.writer = some k → k < s.calls
  matched : Matched s

section steps

variable {s s' : Cells}

/-- When the sender is elsewhere, the launcher polls an empty mailbox.
Kind: L -/
theorem CellInv.quiet (hI : CellInv s) (h : ∀ call, s.sender ≠ .storeLength call)
    (h' : ∀ call, s.sender ≠ .poll call) : s.aes = .poll ∧ s.index.value = 0 := by
  have hzero : s.index.value = 0 := by
    by_contra hne
    obtain ⟨-, call, hs | hs⟩ := hI.posted hne
    · exact h call hs
    · exact h' call hs
  refine ⟨?_, hzero⟩
  by_contra haes
  exact hI.busy haes hzero

end steps

/-- A CPU of the byte-level protocol as the sender of the cells.
Kind: D -/
def TargetPc.sender : TargetPc → SenderPc
  | .idle | .accept _ => .idle
  | .storeIndex call => .storeIndex call
  | .storeLength call => .storeLength call
  | .poll call => .poll call

/-- The launcher of the cells as that of the byte-level protocol.
Kind: D -/
def ReaderPc.words : ReaderPc → AesPc
  | .poll => .poll
  | .readIndex => .readIndex
  | .readLength index => .readLength index.value
  | .launch index length => .launch index.value length.value
  | .done => .done

/-- The cells `t` show what the launcher sees of the bytes of `s`, where only CPU `c` sends.
Kind: D -/
structure Shows (c : ℕ) (s : State) (t : Cells) : Prop where
  index : t.index.value = s.cell
  length : t.length.value = s.lengthWord
  sender : t.sender = (s.target c).sender
  aes : t.aes.words = s.aes
  others : ∀ d, d ≠ c → (s.target d).active = none

/-- Packets come in on CPU `c` only.
Kind: D -/
def EntersOn (c : ℕ) : Action → Prop
  | .enter d _ _ => d = c
  | _ => True

section simulation

variable {c : ℕ} {s s' : State} {t : Cells}

/-- The entry test returns, or goes on to the first store.
Source: `xt_TOGPU_main.c` 188–195
Kind: L -/
theorem nfgpuTargetEntry_cases (drv : Globals) (head : Addr) (len : BitVec 32) :
    nfgpuTargetEntry drv head len = .idle ∨
      ∃ call, nfgpuTargetEntry drv head len = .storeIndex call := by
  unfold nfgpuTargetEntry
  split_ifs
  · exact .inl rfl
  · exact .inl rfl
  · exact .inr ⟨_, rfl⟩

/-- An access of the sender.
Kind: L -/
theorem Shows.target {d : ℕ} (hS : Shows c s t) (h : step .four s (.target d) = some s') :
    ∃ t', cellStep t .target = some t' ∧ Shows c s' t' := by
  have hdc : d = c := by
    by_contra hne
    have hidle := hS.others d hne
    simp only [step, targetStep] at h
    split at h <;> simp_all [TargetPc.active]
  subst hdc
  have hother : ∀ pc : TargetPc, ∀ e, e ≠ d → ((s.goto d pc).target e).active = none := by
    intro pc e he
    rw [State.goto_target_of_ne s he]
    exact hS.others e he
  have hsender := hS.sender
  simp only [step, targetStep] at h
  split at h
  · cases h
  · rename_i call hpc
    cases h
    rw [hpc] at hsender
    refine ⟨_, by simp only [cellStep, Cells.targetStep, hsender]; rfl, ?_⟩
    exact ⟨(aesIndex_storeIndex .four _ _ _).symm,
      hS.length.trans (aesLength_storeIndex_four _ _ _).symm,
      by simp [TargetPc.sender], hS.aes, hother _⟩
  · rename_i call hpc
    cases h
    rw [hpc] at hsender
    refine ⟨_, by simp only [cellStep, Cells.targetStep, hsender]; rfl, ?_⟩
    exact ⟨hS.index.trans (aesIndex_storeLength .four _ _ _).symm,
      (aesLength_storeLength_four _ _ _).symm,
      by simp [TargetPc.sender], hS.aes, hother _⟩
  · rename_i call hpc
    rw [hpc] at hsender
    split_ifs at h with hload
    · cases h
      have hne : t.index.value ≠ 0 := by
        rw [hS.index]
        exact fun h0 => hload (loadTarget_four_of_aesIndex h0)
      exact ⟨t, by simp only [cellStep, Cells.targetStep, hsender, TargetPc.sender, if_pos hne], hS⟩
    · cases h
      have h0 : t.index.value = 0 := by
        rw [hS.index]
        exact aesIndex_of_loadTarget (not_not.mp hload)
      refine ⟨{ t with sender := .idle },
        by simp [cellStep, Cells.targetStep, hsender, TargetPc.sender, h0], ?_⟩
      exact ⟨hS.index, hS.length, by simp [TargetPc.sender], hS.aes, hother _⟩
  · cases h

/-- An access of the launcher.
Kind: L -/
theorem Shows.aesStep (hS : Shows c s t) : Shows c (aesStep s) t.aesStep := by
  have hwords := hS.aes
  unfold Cells.aesStep Mailbox.aesStep
  cases haes : t.aes with
  | poll =>
      rw [haes] at hwords
      simp only [← hwords, ReaderPc.words, hS.index]
      split_ifs with hzero
      · exact hS
      · exact ⟨hS.index, hS.length, hS.sender, rfl, hS.others⟩
  | readIndex =>
      rw [haes] at hwords
      simp only [← hwords, ReaderPc.words]
      exact ⟨hS.index, hS.length, hS.sender, by simp [ReaderPc.words, hS.index], hS.others⟩
  | readLength index =>
      rw [haes] at hwords
      simp only [← hwords, ReaderPc.words]
      exact ⟨hS.index, hS.length, hS.sender, by simp [ReaderPc.words, hS.length], hS.others⟩
  | launch index length =>
      rw [haes] at hwords
      simp only [← hwords, ReaderPc.words]
      exact ⟨hS.index, hS.length, hS.sender, rfl, hS.others⟩
  | done =>
      rw [haes] at hwords
      simp only [← hwords, ReaderPc.words]
      exact ⟨(aesIndex_aesDone _ _).symm, hS.length.trans (aesLength_aesDone _ _).symm, hS.sender,
        rfl, hS.others⟩

/-- **A step of the byte-level protocol with one sender is a step of the cells, or none.**
Kind: P -/
theorem Shows.step {a : Action} (hS : Shows c s t) (ha : EntersOn c a)
    (h : Mailbox.step .four s a = some s') :
    ∃ bs t', exec cellStep t bs = some t' ∧ Shows c s' t' := by
  cases a with
  | enter d head len =>
      obtain rfl : d = c := ha
      simp only [Mailbox.step] at h
      split_ifs at h with hidle
      cases h
      have hsender : t.sender = .idle := by
        rw [hS.sender]
        cases hpc : s.target d <;> simp_all [TargetPc.active, TargetPc.sender]
      have hother : ∀ pc : TargetPc, ∀ e, e ≠ d → ((s.goto d pc).target e).active = none := by
        intro pc e he
        rw [State.goto_target_of_ne s he]
        exact hS.others e he
      rcases nfgpuTargetEntry_cases s.drv head len with hentry | ⟨call, hentry⟩
      · -- the entry test returns: no call for the cells
        rw [hentry]
        exact ⟨[], t, rfl, hS.index, hS.length, by simp [hsender, TargetPc.sender], hS.aes,
          hother _⟩
      · rw [hentry]
        refine ⟨[.enter call], { t with sender := .storeIndex call, calls := t.calls + 1 },
          by simp [exec, cellStep, hsender], ?_⟩
        exact ⟨hS.index, hS.length, by simp [TargetPc.sender], hS.aes, hother _⟩
  | target d =>
      obtain ⟨t', ht', hS'⟩ := hS.target h
      exact ⟨[.target], t', exec_cons_eq_some.mpr ⟨t', ht', rfl⟩, hS'⟩
  | aes =>
      cases h
      exact ⟨[.aes], t.aesStep, rfl, hS.aesStep⟩
  | gpu k =>
      simp only [Mailbox.step] at h
      split_ifs at h
      cases h
      exact ⟨[], t, rfl, hS.index, hS.length, hS.sender, hS.aes, hS.others⟩

end simulation

/-- **The cells show every run of the byte-level protocol with one sender**: with 4-byte longs,
each run from an empty mailbox in which packets come in on one CPU leads to a state that some run
of the cells shows.
Source: `xt_TOGPU_main.c` 188–206, `xt_TOGPU_kernel.cu` 1741–1779
Kind: P
Hyps: (a) packets on one CPU; (b) the mailbox starts empty -/
theorem exists_cells_run {c : ℕ} {drv : Globals} {mem : Addr → BitVec 8} {as : List Action}
    {s : State} (has : ∀ a ∈ as, EntersOn c a) (hempty : aesIndex drv.nfgpuKva mem = 0)
    (hrun : exec (step .four) (State.quiet drv mem) as = some s) :
    ∃ bs t, exec cellStep (Cells.start (aesLength drv.nfgpuKva mem)) bs = some t ∧
      Shows c s t := by
  have hstart : Shows c (State.quiet drv mem) (Cells.start (aesLength drv.nfgpuKva mem)) :=
    ⟨hempty.symm, rfl, rfl, rfl, fun _ _ => rfl⟩
  have halong : Along (step .four) (fun _ a => EntersOn c a) (State.quiet drv mem) as :=
    along_of_forall (fun a ha _ => has a ha) _
  refine exec_invariant (I := fun s => ∃ bs t,
    exec cellStep (Cells.start (aesLength drv.nfgpuKva mem)) bs = some t ∧ Shows c s t)
    ?_ ⟨[], _, rfl, hstart⟩ halong hrun
  rintro s a s' ⟨bs, t, hbs, hS⟩ ha h
  obtain ⟨bs', t', hbs', hS'⟩ := hS.step ha h
  exact ⟨bs ++ bs', t', by rw [exec_append, hbs]; exact hbs', hS'⟩

end Togpu.Mailbox
