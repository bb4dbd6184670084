import Togpu.Insn.Target

/-!
# The offset field

A relocated instruction differs from the original in the four bytes of one field. The decoder
finds that field from the bytes before it, so it reads the same instruction with another offset.

* `ImmediateFrame`, `SameLayout` — what the last stages change, and what decides how many bytes they
  take.
* `SameForm` — the same instruction up to its offset fields.
* **Rewriting the displacement** of a RIP-relative operand (`insnGetLength_displacement`) and **the
  immediate** of a rel32 call or jump (`insnGetLength_immediate`).
-/

namespace Togpu.X86

open Togpu.Lib

/-! ## Displacement and immediates -/

section Finish

variable (s : Stream) (insn : Insn)

-- These are stated for any number of bytes: the fields of a read of four bytes are not compared by
-- unfolding, which would evaluate the read.

/-- Reading an immediate leaves the attribute.
Kind: L -/
theorem readImmediate_attr (n : ℕ) : (readImmediate n s insn).attr = insn.attr := rfl

/-- Reading an immediate leaves the displacement.
Kind: L -/
theorem readImmediate_displacement (n : ℕ) :
    (readImmediate n s insn).displacement = insn.displacement := rfl

/-- The immediate read is in the bytes from the next one on.
Kind: L -/
theorem readImmediate_immediate (n : ℕ) : (readImmediate n s insn).immediate =
    ⟨readSigned s insn.nextByte n, BitVec.ofNat 8 n⟩ := rfl

/-- Reading an immediate takes its bytes.
Kind: L -/
theorem readImmediate_nextByte (n : ℕ) :
    (readImmediate n s insn).nextByte = insn.nextByte + n := rfl

/-- The displacement read is in the bytes from the next one on.
Kind: L -/
theorem readDisplacement_displacement (n : ℕ) : (readDisplacement n s insn).displacement =
    ⟨readSigned s insn.nextByte n, BitVec.ofNat 8 n⟩ := rfl

/-- Reading a displacement takes its bytes.
Kind: L -/
theorem readDisplacement_nextByte (n : ℕ) :
    (readDisplacement n s insn).nextByte = insn.nextByte + n := rfl

/-- `insn_get_displacement` changes the displacement only, and takes its bytes.
Kind: L -/
theorem insnGetDisplacement_frame (h : insn.displacement.nbytes = 0) :
    ∃ d, insnGetDisplacement s insn =
      { insn with displacement := d, nextByte := insn.nextByte + d.nbytes.toNat } := by
  unfold insnGetDisplacement
  dsimp only
  split_ifs
  · exact ⟨insn.displacement, by simp [h]⟩
  · exact ⟨_, rfl⟩
  · exact ⟨_, rfl⟩
  · exact ⟨insn.displacement, by simp [h]⟩
  · exact ⟨_, rfl⟩
  · exact ⟨insn.displacement, by simp [h]⟩

/-- Only the immediates and the cursor differ.
Kind: D -/
def ImmediateFrame (insn insn' : Insn) : Prop :=
  ∃ a b p, insn' = { insn with immediate := a, immediate2 := b, nextByte := p }

/-- A choice between two frames.
Kind: L -/
theorem ImmediateFrame.ite {insn x y : Insn} (p : Prop) [Decidable p]
    (hx : ImmediateFrame insn x) (hy : ImmediateFrame insn y) :
    ImmediateFrame insn (if p then x else y) := by
  split_ifs
  · exact hx
  · exact hy

/-- Nothing read is a frame.
Kind: L -/
theorem immediateFrame_self : ImmediateFrame insn insn := ⟨_, _, _, rfl⟩

/-- One immediate read is a frame.
Kind: L -/
theorem immediateFrame_readImmediate (n : ℕ) : ImmediateFrame insn (readImmediate n s insn) :=
  ⟨_, _, _, rfl⟩

/-- Two immediates read are a frame.
Kind: L -/
theorem immediateFrame_readImmediates (m n : ℕ) :
    ImmediateFrame insn (readImmediate2 m s (readImmediate n s insn)) :=
  ⟨_, _, _, rfl⟩

/-- A segment selector read behind a frame is one.
Kind: L -/
theorem immediateFrame_readSegment {insn' : Insn} (h : ImmediateFrame insn insn') :
    ImmediateFrame insn (readSegment s insn') := by
  obtain ⟨a, b, p, rfl⟩ := h
  exact ⟨_, _, _, rfl⟩

/-- The first immediate of `insn_get_immediate` is a frame, in every branch.
Kind: L -/
theorem getFirstImmediate_frame : ImmediateFrame insn (getFirstImmediate s insn) := by
  have hself := immediateFrame_self insn
  have hread := immediateFrame_readImmediate s insn
  have hreads := immediateFrame_readImmediates s insn 4 4
  have hsegment : ∀ n, ImmediateFrame insn (readSegment s (readImmediate n s insn)) :=
    fun n => immediateFrame_readSegment s insn (hread n)
  have hptr : ImmediateFrame insn (getImmptr s insn) := by
    unfold getImmptr
    refine hself.ite _ ((hsegment 2).ite _ ((hsegment 4).ite _ ?_))
    exact immediateFrame_readSegment s insn hself
  have hv32 : ImmediateFrame insn (getImmv32 s insn) := by
    unfold getImmv32
    exact (hread 2).ite _ ((hread 4).ite _ hself)
  have hv : ImmediateFrame insn (getImmv s insn) := by
    unfold getImmv
    exact (hread 2).ite _ ((hread 4).ite _ (hreads.ite _ hself))
  unfold getFirstImmediate
  refine (hread 1).ite _ ((hread 2).ite _ ((hread 4).ite _ (hreads.ite _ ?_)))
  exact hptr.ite _ (hv32.ite _ (hv.ite _ hself))

/-- The immediates change themselves and the cursor.
Kind: L -/
theorem insnGetImmediate_frame : ImmediateFrame insn (insnGetImmediate s insn) := by
  have hself := immediateFrame_self insn
  have hread := immediateFrame_readImmediate s insn
  have hmoffset : ImmediateFrame insn (getMoffset s insn) := by
    unfold getMoffset
    refine (hread 2).ite _ ((hread 4).ite _ ?_)
    exact (immediateFrame_readImmediates s insn 4 4).ite _ hself
  have hboth : ImmediateFrame insn (getSecondImmediate s (getFirstImmediate s insn)) := by
    obtain ⟨a, b, p, h⟩ := getFirstImmediate_frame s insn
    unfold getSecondImmediate
    rw [h]
    exact ImmediateFrame.ite _ ⟨_, _, _, rfl⟩ ⟨_, _, _, rfl⟩
  unfold insnGetImmediate
  exact hmoffset.ite _ (hboth.ite _ hself)

variable {s insn} {s' : Stream} {insn' : Insn}

/-- Two instructions for which the immediates take the same bytes.
Kind: D -/
structure SameLayout (insn insn' : Insn) : Prop where
  attr : insn'.attr = insn.attr
  opnd : insn'.opndBytes = insn.opndBytes
  addr : insn'.addrBytes = insn.addrBytes
  next : insn'.nextByte = insn.nextByte

/-- The bytes taken by the first immediate depend on the layout only.
Kind: L -/
theorem getFirstImmediate_nextByte (h : SameLayout insn insn') :
    (getFirstImmediate s' insn').nextByte = (getFirstImmediate s insn).nextByte := by
  have hptr : (getImmptr s' insn').nextByte = (getImmptr s insn).nextByte := by
    simp only [getImmptr, h.opnd]
    split_ifs <;> simp only [readImmediate, readSegment, h.next]
  have hv32 : (getImmv32 s' insn').nextByte = (getImmv32 s insn).nextByte := by
    simp only [getImmv32, h.opnd]
    split_ifs <;> simp only [readImmediate, h.next]
  have hv : (getImmv s' insn').nextByte = (getImmv s insn).nextByte := by
    simp only [getImmv, h.opnd]
    split_ifs <;> simp only [readImmediate, readImmediate2, h.next]
  simp only [getFirstImmediate, h.attr]
  generalize inatImmediateSize insn.attr = k
  split_ifs
  · simp only [readImmediate, h.next]
  · simp only [readImmediate, h.next]
  · simp only [readImmediate, h.next]
  · simp only [readImmediate, readImmediate2, h.next]
  · exact hptr
  · exact hv32
  · exact hv
  · exact h.next

/-- How many bytes the immediates take does not depend on the bytes.
Kind: L -/
theorem insnGetImmediate_nextByte (h : SameLayout insn insn') :
    (insnGetImmediate s' insn').nextByte = (insnGetImmediate s insn).nextByte := by
  have hmoffset : (getMoffset s' insn').nextByte = (getMoffset s insn).nextByte := by
    simp only [getMoffset, h.addr]
    split_ifs <;> simp only [readImmediate, readImmediate2, h.next]
  have hboth : (getSecondImmediate s' (getFirstImmediate s' insn')).nextByte =
      (getSecondImmediate s (getFirstImmediate s insn)).nextByte := by
    have hfirst : (getFirstImmediate s' insn').nextByte = (getFirstImmediate s insn).nextByte :=
      getFirstImmediate_nextByte h
    obtain ⟨a, b, p, hframe⟩ := getFirstImmediate_frame s insn
    obtain ⟨a', b', p', hframe'⟩ := getFirstImmediate_frame s' insn'
    rw [hframe, hframe'] at hfirst ⊢
    simp only [getSecondImmediate, h.attr] at hfirst ⊢
    split_ifs <;> simp only [readImmediate2, hfirst]
  simp only [insnGetImmediate, h.attr]
  split_ifs
  · exact hmoffset
  · exact hboth
  · exact h.next

end Finish

/-- A ModRM byte with mode 0 and register 5 names an address relative to the next instruction.
Kind: L -/
theorem modrm_of_ripRelative {insn : Insn} (h : insn.ripRelative = true) :
    insn.modrm.nbytes ≠ 0 ∧ modrmMod (insn.modrm.value.setWidth 8) = 0 ∧
      modrmRm (insn.modrm.value.setWidth 8) = 5 := by
  have hbyte : ∀ b : BitVec 8, b &&& 0xc7 = 0x5 → modrmMod b = 0 ∧ modrmRm b = 5 := by
    decide
  simp only [Insn.ripRelative, decide_eq_true_eq] at h
  have hlow : insn.modrm.value.setWidth 8 &&& 0xc7 = 0x5 := by
    have := congrArg (BitVec.setWidth 8) h.2
    simpa [BitVec.setWidth_and] using this
  exact ⟨h.1, hbyte _ hlow⟩

/-- A RIP-relative operand has a displacement of four bytes.
Kind: L -/
theorem HeadShape.ripRelative {head : Insn} (h : HeadShape head) (hrip : head.ripRelative = true)
    (s : Stream) : insnGetDisplacement s head = readDisplacement 4 s head := by
  obtain ⟨hnbytes, hmod, hrm⟩ := modrm_of_ripRelative hrip
  have haddr : head.addrBytes ≠ 2 := by
    rcases h.addr with ha | ha <;> simp [ha]
  unfold insnGetDisplacement
  dsimp only
  rw [hmod, hrm, if_neg (by simpa using hnbytes), if_neg (by decide), if_neg haddr,
    if_pos (by simp)]

/-- A 32-bit immediate with 64-bit operands is four bytes and the last field.
Kind: L -/
theorem insnGetImmediate_vword32 {insn : Insn}
    (hattr : insn.attr = makeImm inatImmVword32 ||| inatForce64) (hopnd : insn.opndBytes = 8)
    (s : Stream) : insnGetImmediate s insn = readImmediate 4 s insn := by
  have hmoffset : inatHasMoffset (makeImm inatImmVword32 ||| inatForce64) = false := by decide
  have hhas : inatHasImmediate (makeImm inatImmVword32 ||| inatForce64) = true := by decide
  have hsize : inatImmediateSize (makeImm inatImmVword32 ||| inatForce64) = 6 := by decide
  have hsecond : inatHasSecondImmediate (makeImm inatImmVword32 ||| inatForce64) = false := by
    decide
  have hfirst : getFirstImmediate s insn = readImmediate 4 s insn := by
    unfold getFirstImmediate
    rw [hattr, hsize, if_neg (by decide), if_neg (by decide), if_neg (by decide),
      if_neg (by decide), if_neg (by decide), if_pos (by decide), getImmv32, hopnd,
      if_neg (by decide), if_pos (by decide)]
  unfold insnGetImmediate getSecondImmediate
  rw [hfirst, readImmediate_attr, hattr, hmoffset, hhas, hsecond]
  simp only [Bool.false_eq_true, if_false, if_true]

/-- A rel32 call or jump ends with its four-byte immediate.
Kind: L -/
theorem HeadShape.callJmp_finish {head : Insn} (h : HeadShape head)
    (hrel : head.relBranch = true) (hop : head.opCallJmp = true) (s : Stream) :
    insnFinish s head =
      { readImmediate 4 s head with length := BitVec.ofNat 8 (head.nextByte + 4) } := by
  have hdisp : insnGetDisplacement s head = head := by
    simp [insnGetDisplacement, h.relBranch hrel]
  obtain ⟨hattr, hopnd⟩ := h.callJmp hrel hop
  unfold insnFinish
  rw [hdisp, insnGetImmediate_vword32 hattr hopnd]
  dsimp only
  rw [readImmediate_nextByte]

/-! ## Rewriting the offset field -/

/-- Two instructions that differ at most in their offset fields.
Kind: D -/
structure SameForm (insn insn' : Insn) : Prop where
  /-- The same opcode. -/
  opcode : insn'.opcode = insn.opcode
  /-- The same VEX prefix. -/
  vex : insn'.vexPrefix = insn.vexPrefix
  /-- The same ModRM byte. -/
  modrm : insn'.modrm = insn.modrm
  /-- The same address size. -/
  addr : insn'.addrBytes = insn.addrBytes
  /-- The same length. -/
  length : insn'.length = insn.length

/-- The length of an instruction is decided by its head.
Kind: L -/
theorem insnFinish_nextByte (head : Insn) (s s' : Stream) :
    (insnFinish s' head).nextByte = (insnFinish s head).nextByte := by
  have hread : ∀ n, SameLayout (readDisplacement n s head) (readDisplacement n s' head) :=
    fun _ => ⟨rfl, rfl, rfl, rfl⟩
  have hskip : SameLayout head head := ⟨rfl, rfl, rfl, rfl⟩
  have hlayout : SameLayout (insnGetDisplacement s head) (insnGetDisplacement s' head) := by
    unfold insnGetDisplacement
    dsimp only
    split_ifs
    · exact hskip
    · exact hread 1
    · exact hread 2
    · exact hskip
    · exact hread 4
    · exact hskip
  exact insnGetImmediate_nextByte hlayout

section Form

variable {insn insn' : Insn} (h : SameForm insn insn')

include h

/-- Instructions of one form agree on being a call or jump.
Kind: L -/
theorem SameForm.opCallJmp : insn'.opCallJmp = insn.opCallJmp := by
  rw [Insn.opCallJmp, Insn.opCallJmp, h.opcode]

/-- Instructions of one form agree on being a relative branch.
Kind: L -/
theorem SameForm.relBranch : insn'.relBranch = insn.relBranch := by
  rw [Insn.relBranch, Insn.relBranch, h.opCallJmp, Insn.isAvx, Insn.isAvx, h.vex, h.opcode]

/-- Instructions of one form agree on being relative to the next instruction.
Kind: L -/
theorem SameForm.ripRelative : insn'.ripRelative = insn.ripRelative := by
  rw [Insn.ripRelative, Insn.ripRelative, h.modrm]

/-- Instructions of one form have targets of one width.
Kind: L -/
theorem SameForm.narrow (a : BitVec 64) : insn'.narrow a = insn.narrow a := by
  rw [Insn.narrow, Insn.narrow, h.relBranch, h.addr]

/-- The target of an instruction of the same form, with its own offset.
Kind: L -/
theorem SameForm.target (kaddr : BitVec 64)
    (hkind : insn.relBranch = true ∨ insn.ripRelative = true) :
    insn'.target kaddr =
      some (insn.narrow (codeAddrFromOffset kaddr insn.length insn'.offset)) := by
  rw [Insn.target, h.relBranch, h.ripRelative, if_pos hkind, h.narrow, h.length]

end Form

section Finish

variable {head : Insn} (h : HeadShape head) (s : Stream)

include h

/-- What follows the head leaves it alone.
Kind: L -/
theorem HeadShape.finish_frame : ∃ d a b p,
    insnFinish s head = { head with
      displacement := d, immediate := a, immediate2 := b, nextByte := p,
      length := BitVec.ofNat 8 p } ∧ (insnGetDisplacement s head).displacement = d := by
  obtain ⟨d, hdisp⟩ := insnGetDisplacement_frame s head h.displacement
  obtain ⟨a, b, p, himm⟩ := insnGetImmediate_frame s (insnGetDisplacement s head)
  unfold insnFinish
  rw [himm, hdisp]
  exact ⟨d, a, b, p, rfl, rfl⟩

/-- The form of an instruction is decided by its head.
Kind: L -/
theorem HeadShape.finish_form (s' : Stream) :
    SameForm (insnFinish s head) (insnFinish s' head) := by
  have hnext := insnFinish_nextByte head s s'
  obtain ⟨d, a, b, p, hfin, -⟩ := h.finish_frame s
  obtain ⟨d', a', b', p', hfin', -⟩ := h.finish_frame s'
  rw [hfin, hfin'] at hnext ⊢
  dsimp only at hnext
  exact ⟨rfl, rfl, rfl, rfl, by rw [hnext]⟩

/-- The head of an instruction whose length fits its field ends where its displacement begins.
Kind: L -/
theorem HeadShape.finish_offset (hlt : (insnFinish s head).nextByte < 256) :
    (insnFinish s head).offsetDisplacement = head.nextByte := by
  have hle := insnFinish_reads.least_le s head
  have hoffset := h.offset (by omega)
  obtain ⟨d, a, b, p, hfin, -⟩ := h.finish_frame s
  rw [hfin, ← hoffset]
  rfl

end Finish

/-- A relative branch is not RIP-relative.
Kind: L -/
theorem relBranch_of_ripRelative {s : Stream} {insn : Insn} (h : insnGetLength s = some insn)
    (hrip : insn.ripRelative = true) : insn.relBranch = false := by
  rw [insnGetLength_eq] at h
  obtain ⟨head, hhead, rfl⟩ := Option.map_eq_some_iff.1 h
  have hshape := insnHead_shape hhead
  obtain ⟨d, a, b, p, hfin, -⟩ := hshape.finish_frame s
  rw [hfin] at hrip ⊢
  by_contra hrel
  rw [Bool.not_eq_false] at hrel
  exact (modrm_of_ripRelative hrip).1 (hshape.relBranch hrel)

/-- The length is the number of bytes passed.
Kind: L -/
theorem length_of_insnGetLength {s : Stream} {insn : Insn} (h : insnGetLength s = some insn) :
    insn.length = BitVec.ofNat 8 insn.nextByte := by
  rw [insnGetLength_eq] at h
  obtain ⟨head, -, rfl⟩ := Option.map_eq_some_iff.1 h
  rfl

section Fits

variable {s : Stream} {insn : Insn} (h : insnGetLength s = some insn) (hlt : insn.nextByte < 256)

include h hlt

/-- The length of an instruction of fewer than 256 bytes is the number of bytes passed.
Kind: L -/
theorem length_toNat : insn.length.toNat = insn.nextByte := by
  rw [length_of_insnGetLength h, BitVec.toNat_ofNat]
  exact Nat.mod_eq_of_lt (by omega)

/-- **The displacement of a RIP-relative operand** is the four bytes at
`insn_offset_displacement`; other bytes there give the same instruction with another
displacement.
Kind: P -/
theorem insnGetLength_displacement (hrip : insn.ripRelative = true) :
    insn.offsetImmediate = insn.offsetDisplacement + 4 ∧ insn.offsetImmediate ≤ insn.nextByte ∧
      ∀ s', AgreeOn s s' 0 insn.offsetDisplacement → ∃ insn', insnGetLength s' = some insn' ∧
        SameForm insn insn' ∧
        insn'.displacement.value = readSigned s' insn.offsetDisplacement 4 := by
  rw [insnGetLength_eq] at h
  obtain ⟨head, hhead, rfl⟩ := Option.map_eq_some_iff.1 h
  have hshape := insnHead_shape hhead
  have hoff := hshape.finish_offset s hlt
  have hriphead : head.ripRelative = true := by
    obtain ⟨d, a, b, p, hfin, -⟩ := hshape.finish_frame s
    rw [hfin] at hrip
    exact hrip
  -- in any stream that starts with this head, the displacement stage reads the next four bytes
  have hdisp : ∀ s', (insnFinish s' head).displacement =
      ⟨readSigned s' head.nextByte 4, BitVec.ofNat 8 4⟩ := by
    intro s'
    obtain ⟨d, a, b, p, hfin, hd⟩ := hshape.finish_frame s'
    rw [hshape.ripRelative hriphead s'] at hd
    rw [hfin, ← hd, readDisplacement_displacement]
  have himm : (insnFinish s head).offsetImmediate = head.nextByte + 4 := by
    rw [Insn.offsetImmediate, hoff, hdisp s]
    rfl
  have hle : head.nextByte + 4 ≤ (insnFinish s head).nextByte := by
    have hread := insnGetImmediate_reads.least_le s (insnGetDisplacement s head)
    have hnext : (insnFinish s head).nextByte =
        (insnGetImmediate s (insnGetDisplacement s head)).nextByte := rfl
    rw [← hnext, hshape.ripRelative hriphead s, readDisplacement_nextByte] at hread
    exact hread
  refine ⟨by rw [himm, hoff], by rw [himm]; exact hle, fun s' hs => ?_⟩
  rw [hoff] at hs ⊢
  refine ⟨insnFinish s' head, ?_, hshape.finish_form s s', by rw [hdisp s']⟩
  rw [insnGetLength_eq, insnHead_congr hhead hs, Option.map_some]

/-- The displacement that was read.
Kind: L -/
theorem displacement_of_ripRelative (hrip : insn.ripRelative = true) :
    insn.displacement.value = readSigned s insn.offsetDisplacement 4 := by
  obtain ⟨-, -, hrewrite⟩ := insnGetLength_displacement h hlt hrip
  obtain ⟨insn', h', -, hvalue⟩ := hrewrite s fun _ _ _ => rfl
  rw [h, Option.some.injEq] at h'
  rwa [← h'] at hvalue

/-- **The immediate of a rel32 call or jump** is its last four bytes, at `insn_offset_immediate`;
other bytes there give the same instruction with another immediate.
Kind: P -/
theorem insnGetLength_immediate (hrel : insn.relBranch = true) (hop : insn.opCallJmp = true) :
    insn.nextByte = insn.offsetImmediate + 4 ∧
      ∀ s', AgreeOn s s' 0 insn.offsetImmediate → ∃ insn', insnGetLength s' = some insn' ∧
        SameForm insn insn' ∧ insn'.immediate.value = readSigned s' insn.offsetImmediate 4 := by
  rw [insnGetLength_eq] at h
  obtain ⟨head, hhead, rfl⟩ := Option.map_eq_some_iff.1 h
  have hshape := insnHead_shape hhead
  have hoff := hshape.finish_offset s hlt
  obtain ⟨hrelhead, hophead⟩ : head.relBranch = true ∧ head.opCallJmp = true := by
    obtain ⟨d, a, b, p, hfin, -⟩ := hshape.finish_frame s
    rw [hfin] at hrel hop
    exact ⟨hrel, hop⟩
  have hfin := hshape.callJmp_finish hrelhead hophead
  have himm : (insnFinish s head).offsetImmediate = head.nextByte := by
    rw [Insn.offsetImmediate, hoff, hfin s]
    dsimp only
    rw [readImmediate_displacement, hshape.displacement]
    rfl
  have hnext : (insnFinish s head).nextByte = head.nextByte + 4 := by
    rw [hfin s]
    exact readImmediate_nextByte s head 4
  have hvalue : ∀ s', (insnFinish s' head).immediate.value = readSigned s' head.nextByte 4 := by
    intro s'
    rw [hfin s']
    dsimp only
    rw [readImmediate_immediate]
  refine ⟨by rw [himm, hnext], fun s' hs => ?_⟩
  rw [himm] at hs ⊢
  refine ⟨insnFinish s' head, ?_, hshape.finish_form s s', hvalue s'⟩
  rw [insnGetLength_eq, insnHead_congr hhead hs, Option.map_some]

end Fits

end Togpu.X86
