import Mathlib.Tactic.SplitIfs
import Togpu.Insn.Decode

/-!
# The decoder reads only the instruction

Every stage of the decoder reads the bytes it steps over, except that the prefix scan looks at the
byte after the prefixes, which the opcode stage then takes. So an instruction is the same wherever
its bytes stand.

* `scanPrefixes_congr`, `insnHead_congr` — the prefixes, and everything up to the SIB byte.
* **The instruction depends on its own bytes** (`insnGetLength_congr`).
* **The decoder returns** (`exists_insnGetLength`) when some byte ahead is not a legacy prefix, and
  it stops at most 32 bytes past that byte.
-/

namespace Togpu.X86

open Togpu.Lib

/-! ## Stages -/

section Stages

/-- The bounds of a stage of the decoder.
Kind: D -/
abbrev InsnReads := Reads Insn.nextByte

/-- A signed read depends on its own bytes.
Kind: L -/
theorem readSigned_congr {s s' : Stream} {pos n : ℕ} (h : AgreeOn s s' pos (pos + n)) :
    readSigned s' pos n = readSigned s pos n := by
  unfold readSigned
  rw [leNat_congr h]

/-- A displacement of `n` bytes is read from the next `n` bytes.
Kind: L -/
theorem readDisplacement_reads (n : ℕ) : InsnReads 0 n n (readDisplacement n) := by
  refine ⟨fun _ _ => le_rfl, fun _ _ => le_rfl, fun s s' insn h => ?_⟩
  unfold readDisplacement
  rw [readSigned_congr h]

/-- So is a first immediate.
Kind: L -/
theorem readImmediate_reads (n : ℕ) : InsnReads 0 n n (readImmediate n) := by
  refine ⟨fun _ _ => le_rfl, fun _ _ => le_rfl, fun s s' insn h => ?_⟩
  unfold readImmediate
  rw [readSigned_congr h]

/-- So is a second one.
Kind: L -/
theorem readImmediate2_reads (n : ℕ) : InsnReads 0 n n (readImmediate2 n) := by
  refine ⟨fun _ _ => le_rfl, fun _ _ => le_rfl, fun s s' insn h => ?_⟩
  unfold readImmediate2
  rw [readSigned_congr h]

/-- The segment of a far pointer is read from the next two bytes.
Kind: L -/
theorem readSegment_reads : InsnReads 0 2 2 readSegment := by
  refine ⟨fun _ _ => le_rfl, fun _ _ => le_rfl, fun s s' insn h => ?_⟩
  unfold readSegment
  rw [leNat_congr h]

/-- A stage that does nothing.
Kind: L -/
theorem skip_reads (most : ℕ) : InsnReads 0 0 most fun _ insn => insn :=
  (Reads.of_pure fun _ => rfl).widen le_rfl (Nat.zero_le most)

/-- The REX prefix takes at most a byte, and the byte at the cursor is looked at in any case.
Kind: L -/
theorem insnGetRexPrefix_reads : InsnReads 1 0 1 insnGetRexPrefix := by
  refine ⟨fun s insn => ?_, fun s insn => ?_, fun s s' insn h => ?_⟩
  · unfold insnGetRexPrefix
    dsimp only
    split_ifs <;> simp
  · unfold insnGetRexPrefix
    dsimp only
    split_ifs <;> simp
  · have hle : insn.nextByte ≤ (insnGetRexPrefix s insn).nextByte := by
      unfold insnGetRexPrefix
      dsimp only
      split_ifs <;> simp
    have hb : s' insn.nextByte = s insn.nextByte := h _ le_rfl (by omega)
    unfold insnGetRexPrefix
    rw [hb]

/-- The VEX prefix takes at most three bytes, and one byte behind those it takes is looked at.
Kind: L -/
theorem insnGetVexPrefix_reads : InsnReads 1 0 3 insnGetVexPrefix := by
  have hle : ∀ s insn, insn.nextByte ≤ (insnGetVexPrefix s insn).nextByte := by
    intro s insn
    unfold insnGetVexPrefix
    dsimp only
    split_ifs <;> simp
  refine ⟨hle, fun s insn => ?_, fun s s' insn h => ?_⟩
  · unfold insnGetVexPrefix
    dsimp only
    split_ifs <;> simp
  · have hb : s' insn.nextByte = s insn.nextByte :=
      h _ le_rfl (by have := hle s insn; omega)
    unfold insnGetVexPrefix at h ⊢
    dsimp only at h ⊢
    rw [hb]
    -- the second and third byte are looked at only when they belong to the prefix
    by_cases hvex : inatIsVexPrefix (inatGetOpcodeAttribute (s insn.nextByte))
    · simp only [if_pos hvex] at h ⊢
      by_cases hvex3 : inatIsVex3Prefix (inatGetOpcodeAttribute (s insn.nextByte))
      · simp only [if_pos hvex3] at h ⊢
        rw [h (insn.nextByte + 1) (by omega) (by omega),
          h (insn.nextByte + 2) (by omega) (by omega)]
      · simp only [if_neg hvex3] at h ⊢
        rw [h (insn.nextByte + 1) (by omega) (by omega)]
    · rw [if_neg hvex, if_neg hvex]

/-- The first opcode byte.
Kind: L -/
theorem insnGetOpcode1_reads : InsnReads 0 1 1 insnGetOpcode1 := by
  refine ⟨fun _ _ => le_rfl, fun _ _ => le_rfl, fun s s' insn h => ?_⟩
  have hb : s' insn.nextByte = s insn.nextByte := h _ le_rfl (Nat.lt_succ_self _)
  unfold insnGetOpcode1
  rw [hb]

/-- A further opcode byte.
Kind: L -/
theorem insnGetEscape_reads : InsnReads 0 1 1 insnGetEscape := by
  refine ⟨fun _ _ => le_rfl, fun _ _ => le_rfl, fun s s' insn h => ?_⟩
  have hb : s' insn.nextByte = s insn.nextByte := h _ le_rfl (Nat.lt_succ_self _)
  unfold insnGetEscape
  rw [hb]

/-- At most `n` further opcode bytes.
Kind: L -/
theorem insnGetEscapes_reads (n : ℕ) : InsnReads 0 0 n fun s => insnGetEscapes s n := by
  induction n with
  | zero => exact skip_reads 0
  | succ n ih =>
      have hround : InsnReads 0 0 (n + 1) fun s insn => insnGetEscapes s n (insnGetEscape s insn) :=
        (ih.comp insnGetEscape_reads (Nat.zero_le _)).widen (Nat.zero_le _) (by omega)
      exact hround.ite (fun insn => inatIsEscape insn.attr = true)
        (skip_reads _)

/-- `insn_get_opcode` takes one to four bytes, and reads no others.
Kind: L -/
theorem insnGetOpcode_reads : InsnReads 0 1 4 insnGetOpcode := by
  have hbad : InsnReads 0 0 0 fun _ insn =>
      if inatMustVex insn.attr then { insn with attr := 0 } else insn :=
    Reads.of_pure fun insn => by split_ifs <;> rfl
  have hlong := hbad.comp ((insnGetEscapes_reads 3).comp insnGetOpcode1_reads (Nat.zero_le _))
    (Nat.zero_le _)
  exact (insnGetOpcode1_reads.widen le_rfl (by omega)).ite (fun insn => insn.isAvx = true) hlong

/-- `insn_get_modrm` takes at most one byte, and reads no other.
Kind: L -/
theorem insnGetModrm_reads : InsnReads 0 0 1 insnGetModrm := by
  have hbyte : InsnReads 0 0 1 insnGetModrmByte := by
    have hread : InsnReads 0 1 1 fun s insn =>
        { insn with
          modrm := ⟨(s insn.nextByte).setWidth 32, 1⟩
          attr :=
            if inatIsGroup insn.attr then
              inatGetGroupAttribute (s insn.nextByte) insn.lastPrefix insn.attr
            else insn.attr
          nextByte := insn.nextByte + 1 } := by
      refine ⟨fun _ _ => le_rfl, fun _ _ => le_rfl, fun s s' insn h => ?_⟩
      have hb : s' insn.nextByte = s insn.nextByte := h _ le_rfl (Nat.lt_succ_self _)
      simp only [hb]
    exact (hread.widen (Nat.zero_le _) le_rfl).ite (fun insn => inatHasModrm insn.attr = true)
      (skip_reads _)
  have hforce : InsnReads 0 0 0 fun _ insn =>
      if inatIsForce64 insn.attr then { insn with opndBytes := 8 } else insn :=
    Reads.of_pure fun insn => by split_ifs <;> rfl
  exact hforce.comp hbyte (Nat.zero_le _)

/-- `insn_get_sib` takes at most one byte, and reads no other.
Kind: L -/
theorem insnGetSib_reads : InsnReads 0 0 1 insnGetSib := by
  have hread : InsnReads 0 1 1 fun s insn =>
      { insn with sib := ⟨(s insn.nextByte).setWidth 32, 1⟩, nextByte := insn.nextByte + 1 } := by
    refine ⟨fun _ _ => le_rfl, fun _ _ => le_rfl, fun s s' insn h => ?_⟩
    have hb : s' insn.nextByte = s insn.nextByte := h _ le_rfl (Nat.lt_succ_self _)
    simp only [hb]
  exact (hread.widen (Nat.zero_le _) le_rfl).ite
    (fun insn => insn.modrm.nbytes ≠ 0 ∧ insn.addrBytes ≠ 2 ∧
      modrmMod (insn.modrm.value.setWidth 8) ≠ 3 ∧ modrmRm (insn.modrm.value.setWidth 8) = 4)
    (skip_reads _)

/-- The bound on a first immediate, widened.
Kind: L -/
theorem readImmediate_widen {n most : ℕ} (h : n ≤ most) : InsnReads 0 0 most (readImmediate n) :=
  (readImmediate_reads n).widen (Nat.zero_le _) h

/-- Two reads, one for each immediate.
Kind: L -/
theorem readImmediates_reads :
    InsnReads 0 0 8 fun s insn => readImmediate2 4 s (readImmediate 4 s insn) :=
  ((readImmediate2_reads 4).comp (readImmediate_reads 4) (Nat.zero_le _)).widen (Nat.zero_le _)
    (by omega)

/-- `insn_get_displacement` takes at most four bytes, and reads no others.
Kind: L -/
theorem insnGetDisplacement_reads : InsnReads 0 0 4 insnGetDisplacement := by
  have hread : ∀ {n}, n ≤ 4 → InsnReads 0 0 4 (readDisplacement n) :=
    fun h => (readDisplacement_reads _).widen (Nat.zero_le _) h
  unfold insnGetDisplacement
  refine (skip_reads 4).ite _ ((hread (by omega)).ite _ (Reads.ite _ ?_ ?_))
  · exact (hread (by omega)).ite _ (skip_reads 4)
  · exact (hread (by omega)).ite _ (skip_reads 4)

/-- `__get_moffset` takes at most eight bytes, and reads no others.
Kind: L -/
theorem getMoffset_reads : InsnReads 0 0 8 getMoffset := by
  unfold getMoffset
  refine (readImmediate_widen (by omega)).ite _ ((readImmediate_widen (by omega)).ite _ ?_)
  exact readImmediates_reads.ite _ (skip_reads 8)

/-- So does `__get_immv32`.
Kind: L -/
theorem getImmv32_reads : InsnReads 0 0 8 getImmv32 := by
  unfold getImmv32
  refine (readImmediate_widen (by omega)).ite _ ((readImmediate_widen (by omega)).ite _ ?_)
  exact skip_reads 8

/-- So does `__get_immv`.
Kind: L -/
theorem getImmv_reads : InsnReads 0 0 8 getImmv := by
  unfold getImmv
  refine (readImmediate_widen (by omega)).ite _ ((readImmediate_widen (by omega)).ite _ ?_)
  exact readImmediates_reads.ite _ (skip_reads 8)

/-- So does `__get_immptr`.
Kind: L -/
theorem getImmptr_reads : InsnReads 0 0 8 getImmptr := by
  have hptr : ∀ {n}, n ≤ 6 → InsnReads 0 0 8 fun s insn => readSegment s (readImmediate n s insn) :=
    fun {n} h => (readSegment_reads.comp (readImmediate_reads n) (Nat.zero_le _)).widen
      (Nat.zero_le _) (by omega)
  unfold getImmptr
  refine (skip_reads 8).ite _ ((hptr (by omega)).ite _ ((hptr (by omega)).ite _ ?_))
  exact readSegment_reads.widen (Nat.zero_le _) (by omega)

/-- Whichever the first immediate is, at most eight bytes are taken and no others read.
Kind: L -/
theorem getFirstImmediate_reads : InsnReads 0 0 8 getFirstImmediate := by
  unfold getFirstImmediate
  refine (readImmediate_widen (by omega)).ite _ ((readImmediate_widen (by omega)).ite _ ?_)
  refine (readImmediate_widen (by omega)).ite _ (readImmediates_reads.ite _ ?_)
  refine getImmptr_reads.ite _ (getImmv32_reads.ite _ (getImmv_reads.ite _ ?_))
  exact skip_reads 8

/-- `insn_get_immediate` takes at most nine bytes: a first immediate, and a second one of a byte.
Kind: L -/
theorem insnGetImmediate_reads : InsnReads 0 0 9 insnGetImmediate := by
  have hsecond : InsnReads 0 0 1 getSecondImmediate :=
    ((readImmediate2_reads 1).widen (Nat.zero_le _) le_rfl).ite
      (fun insn : Insn => inatHasSecondImmediate insn.attr = true) (skip_reads 1)
  unfold insnGetImmediate
  refine (getMoffset_reads.widen le_rfl (by omega)).ite _ (Reads.ite _ ?_ (skip_reads 9))
  exact hsecond.comp getFirstImmediate_reads (Nat.zero_le _)

end Stages

/-! ## The prefix scan -/

/-- Stepping over a prefix byte, new or not.
Kind: L -/
theorem addPrefix_skipPrefix_nextByte (insn : Insn) (nb : ℕ) (b : BitVec 8) :
    (insn.addPrefix nb b).skipPrefix.nextByte = insn.nextByte + 1 := rfl

/-- The scan goes forward.
Kind: L -/
theorem scanPrefixes_le {s : Stream} {fuel nb : ℕ} {insn : Insn} {lb : BitVec 8}
    {r : Insn × ℕ × BitVec 8} (h : scanPrefixes s fuel insn nb lb = some r) :
    insn.nextByte ≤ r.1.nextByte := by
  induction fuel generalizing insn nb lb with
  | zero => simp [scanPrefixes] at h
  | succ fuel ih =>
      simp only [scanPrefixes] at h
      split_ifs at h with hpfx hseen hfull
      · exact (Nat.le_succ _).trans (ih h)
      · simp only [Option.some.injEq] at h
        rw [← h]
      · exact (Nat.le_succ _).trans (ih h)
      · simp only [Option.some.injEq] at h
        rw [← h]

/-- The scan reads the prefixes and the byte after them.
Kind: L -/
theorem scanPrefixes_congr {s s' : Stream} {fuel nb : ℕ} {insn : Insn} {lb : BitVec 8}
    {r : Insn × ℕ × BitVec 8} (h : scanPrefixes s fuel insn nb lb = some r)
    (hs : AgreeOn s s' insn.nextByte (r.1.nextByte + 1)) :
    scanPrefixes s' fuel insn nb lb = some r := by
  induction fuel generalizing insn nb lb with
  | zero => simp [scanPrefixes] at h
  | succ fuel ih =>
      have hle := scanPrefixes_le h
      have hb : s' insn.nextByte = s insn.nextByte := hs _ le_rfl (by omega)
      simp only [scanPrefixes, hb] at h ⊢
      split_ifs at h ⊢ with hpfx hseen hfull
      · exact ih h (hs.mono (Nat.le_succ _) le_rfl)
      · exact h
      · exact ih h (hs.mono (Nat.le_succ _) le_rfl)
      · exact h

/-- The scan ends at the latest at a byte that is no legacy prefix.
Kind: L -/
theorem exists_scanPrefixes {s : Stream} {fuel nb pos : ℕ} {insn : Insn} {lb : BitVec 8}
    (hstop : inatIsLegacyPrefix (inatGetOpcodeAttribute (s pos)) = false)
    (hlo : insn.nextByte ≤ pos) (hhi : pos < insn.nextByte + fuel) :
    ∃ r, scanPrefixes s fuel insn nb lb = some r ∧ r.1.nextByte ≤ pos := by
  induction fuel generalizing insn nb lb with
  | zero => omega
  | succ fuel ih =>
      simp only [scanPrefixes]
      by_cases hpfx : inatIsLegacyPrefix (inatGetOpcodeAttribute (s insn.nextByte)) = true
      · -- a prefix byte is not the byte at `pos`, so there is at least one more to go
        have hne : insn.nextByte ≠ pos := by
          rintro rfl
          rw [hstop] at hpfx
          exact Bool.false_ne_true hpfx
        rw [if_pos hpfx]
        split_ifs
        · have hnext : insn.skipPrefix.nextByte = insn.nextByte + 1 := rfl
          exact ih (by omega) (by omega)
        · exact ⟨_, rfl, hlo⟩
        · have hnext := addPrefix_skipPrefix_nextByte insn nb (s insn.nextByte)
          exact ih (by omega) (by omega)
      · rw [if_neg hpfx]
        exact ⟨_, rfl, hlo⟩

/-! ## The whole instruction -/

/-- The stages from the REX prefix to the SIB byte.
Kind: D -/
def insnRest (s : Stream) (insn : Insn) : Insn :=
  insnGetSib s (insnGetModrm s (insnGetOpcode s (insnGetVexPrefix s (insnGetRexPrefix s insn))))

/-- The head is the prefix scan followed by the rest.
Kind: L -/
theorem insnHead_eq (s : Stream) :
    insnHead s = (scanPrefixes s (2 ^ 64) kernelInsnInit 0 0).map fun r =>
      insnRest s (r.1.setLastPrefix r.2.1 r.2.2) := by
  unfold insnHead insnGetPrefixes
  rw [Option.map_map]
  rfl

/-- Moving the last prefix keeps the cursor.
Kind: L -/
theorem setLastPrefix_nextByte (insn : Insn) (nb : ℕ) (lb : BitVec 8) :
    (insn.setLastPrefix nb lb).nextByte = insn.nextByte := by
  unfold Insn.setLastPrefix
  dsimp only
  split_ifs <;> rfl

/-- The rest takes the byte the scan stopped at.
Kind: L -/
theorem insnRest_reads : InsnReads 0 1 10 insnRest := by
  have hvex : InsnReads 1 0 4 fun s insn => insnGetVexPrefix s (insnGetRexPrefix s insn) :=
    insnGetVexPrefix_reads.comp insnGetRexPrefix_reads (by omega)
  have hopcode := insnGetOpcode_reads.comp hvex (by omega)
  have hmodrm := insnGetModrm_reads.comp hopcode (Nat.zero_le _)
  exact insnGetSib_reads.comp hmodrm (Nat.zero_le _)

/-- **The head depends on its own bytes.**
Kind: P -/
theorem insnHead_congr {s s' : Stream} {head : Insn} (h : insnHead s = some head)
    (hs : AgreeOn s s' 0 head.nextByte) : insnHead s' = some head := by
  rw [insnHead_eq] at h ⊢
  obtain ⟨r, hscan, rfl⟩ := Option.map_eq_some_iff.1 h
  have hstart := setLastPrefix_nextByte r.1 r.2.1 r.2.2
  have hleast := insnRest_reads.least_le s (r.1.setLastPrefix r.2.1 r.2.2)
  have hscan' := scanPrefixes_congr hscan (hs.mono (Nat.zero_le _) (by omega))
  have hrest := insnRest_reads.congr s s' (r.1.setLastPrefix r.2.1 r.2.2)
    (hs.mono (Nat.zero_le _) le_rfl)
  rw [hscan', Option.map_some, hrest]

/-- The displacement, the immediates and the length, after the head.
Kind: D -/
def insnFinish (s : Stream) (head : Insn) : Insn :=
  let insn := insnGetImmediate s (insnGetDisplacement s head)
  { insn with length := BitVec.ofNat 8 insn.nextByte }

/-- The instruction is the head and what follows it.
Kind: L -/
theorem insnGetLength_eq (s : Stream) : insnGetLength s = (insnHead s).map (insnFinish s) := rfl

/-- What follows the head takes at most thirteen bytes, and reads no others.
Kind: L -/
theorem insnFinish_reads : InsnReads 0 0 13 insnFinish := by
  have hlength : InsnReads 0 0 0 fun _ insn =>
      { insn with length := BitVec.ofNat 8 insn.nextByte } :=
    Reads.of_pure fun _ => rfl
  exact hlength.comp (insnGetImmediate_reads.comp insnGetDisplacement_reads (Nat.zero_le _))
    (Nat.zero_le _)

/-- **The instruction depends on its own bytes.**
Kind: P -/
theorem insnGetLength_congr {s s' : Stream} {insn : Insn} (h : insnGetLength s = some insn)
    (hs : AgreeOn s s' 0 insn.nextByte) : insnGetLength s' = some insn := by
  rw [insnGetLength_eq] at h ⊢
  obtain ⟨head, hhead, rfl⟩ := Option.map_eq_some_iff.1 h
  have hle := insnFinish_reads.least_le s head
  have hfinish := insnFinish_reads.congr s s' head (hs.mono (Nat.zero_le _) le_rfl)
  rw [insnHead_congr hhead (hs.mono le_rfl (by omega)), Option.map_some, hfinish]

/-- **The decoder returns** when some byte ahead is no legacy prefix, at most 32 bytes past it.
Kind: P -/
theorem exists_insnGetLength {s : Stream} {pos : ℕ} (hpos : pos < 2 ^ 64)
    (hstop : inatIsLegacyPrefix (inatGetOpcodeAttribute (s pos)) = false) :
    ∃ insn, insnGetLength s = some insn ∧ insn.nextByte ≤ pos + 32 := by
  have hfuel : pos < kernelInsnInit.nextByte + 2 ^ 64 := by
    simpa only [kernelInsnInit, Nat.zero_add] using hpos
  obtain ⟨r, hscan, hle⟩ : ∃ r, scanPrefixes s (2 ^ 64) kernelInsnInit 0 0 = some r ∧
      r.1.nextByte ≤ pos :=
    exists_scanPrefixes hstop (Nat.zero_le _) hfuel
  have hstart := setLastPrefix_nextByte r.1 r.2.1 r.2.2
  have hrest := insnRest_reads.le_most s (r.1.setLastPrefix r.2.1 r.2.2)
  have hfinish := insnFinish_reads.le_most s (insnRest s (r.1.setLastPrefix r.2.1 r.2.2))
  refine ⟨insnFinish s (insnRest s (r.1.setLastPrefix r.2.1 r.2.2)), ?_, by omega⟩
  rw [insnGetLength_eq, insnHead_eq, hscan, Option.map_some, Option.map_some]

end Togpu.X86
