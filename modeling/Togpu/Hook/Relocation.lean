import Mathlib.Tactic.NormNum
import Mathlib.Tactic.Ring
import Togpu.Hook.CopyLoop

/-!
# What a relocated instruction points to

The copy of an instruction is the original with, at most, its offset field rewritten. Here is which
field the code rewrites, and what the copy then refers to.

* `CopiedAt.bytes` — the bytes of a copy.
* **The copy decodes** (`CopiedAt.decode`): to the same instruction with the offset that
  `Insn.fixed` says.
* **Where the copy points** (`CopiedAt.target_iff`): to the original target exactly when the offset
  field that carries it is rewritten and the new offset fits (`Relocatable`).
-/

namespace Togpu.Hook

open Togpu.Driver Togpu.Lib Togpu.X86

/-! ## Offsets of 32 bits -/

/-- The distance fits a signed 32-bit offset.
Kind: D -/
def FitsS32 (d : BitVec 64) : Prop := -(2 : ℤ) ^ 31 ≤ d.toInt ∧ d.toInt < 2 ^ 31

/-- Cutting a distance to 32 bits loses nothing exactly when it fits.
Kind: L -/
theorem signExtend_setWidth_iff (d : BitVec 64) :
    (d.setWidth 32).signExtend 64 = d ↔ FitsS32 d := by
  have hmod : (d.toNat : ℤ).bmod (2 ^ 32) = d.toInt.bmod (2 ^ 32) := by
    rw [BitVec.toInt_eq_toNat_bmod, Int.bmod_bmod_of_dvd (by norm_num)]
  unfold FitsS32
  rw [← BitVec.toInt_inj, BitVec.toInt_signExtend_of_le (by omega), BitVec.toInt_setWidth, hmod]
  constructor
  · intro h
    have hlt : d.toInt.bmod (2 ^ 32) < _ := Int.bmod_lt (by norm_num)
    have hle : _ ≤ d.toInt.bmod (2 ^ 32) := Int.le_bmod (by norm_num)
    norm_num at h hlt hle ⊢
    omega
  · rintro ⟨hle, hlt⟩
    exact Int.bmod_eq_of_le (by norm_num at hle ⊢; omega) (by norm_num at hlt ⊢; omega)

/-- Extending and cutting gives the offset back.
Kind: L -/
theorem setWidth_signExtend (v : BitVec 32) : (v.signExtend 64).setWidth 32 = v := by
  ext i hi
  rw [BitVec.getElem_setWidth, BitVec.getLsbD_signExtend, if_pos hi, BitVec.getLsbD_eq_getElem hi]
  simp only [Bool.and_eq_right_iff_imp, decide_eq_true_eq]
  omega

/-- The offset `copy_and_fixup_insn` writes leads back to `t` exactly when the distance fits.
Kind: L -/
theorem codeAddrFromOffset_codeOffsetFromAddr (dest t : Addr) (length : BitVec 8) :
    codeAddrFromOffset dest length (codeOffsetFromAddr dest (length.setWidth 64) t) = t ↔
      FitsS32 (t - (dest + length.setWidth 64)) := by
  unfold codeAddrFromOffset codeOffsetFromAddr
  rw [← signExtend_setWidth_iff, ← eq_sub_iff_add_eq']

/-- On 32 bits it always leads back.
Kind: L -/
theorem setWidth_codeAddrFromOffset (dest t : Addr) (length : BitVec 8) :
    (codeAddrFromOffset dest length (codeOffsetFromAddr dest (length.setWidth 64) t)).setWidth 32 =
      t.setWidth 32 := by
  unfold codeAddrFromOffset codeOffsetFromAddr
  rw [BitVec.setWidth_add _ _ (by omega), setWidth_signExtend, ← BitVec.setWidth_add _ _ (by omega)]
  congr 1
  ring

/-! ## The bytes of a copy -/

/-- The value of the field that `copy_and_fixup_insn` looks at, and its offset in the instruction.
Source: `xt_TOGPU_hook.c` 60–96
Kind: D -/
def fixupField (insn : Insn) : BitVec 32 × ℕ :=
  if insn.opCallJmp then (insn.immediate.value, insn.offsetImmediate)
  else (insn.displacement.value, insn.offsetDisplacement)

/-- The address that the field refers to.
Kind: D -/
def fixupAddr (insn : Insn) (a : Addr) : Addr :=
  codeAddrFromOffset a insn.length (fixupField insn).1

/-- The code rewrites the field: it takes the instruction for a call, a jump or RIP-relative, and
the address for one outside the function.
Kind: D -/
def Fixed (sym : KernSym) (insn : Insn) (a : Addr) : Prop :=
  (insn.opCallJmp = true ∨ insn.ripRelative = true) ∧ ¬ sym.inside (fixupAddr insn a)

/-- The bytes of `fixupOffset` on a copied instruction.
Kind: L -/
theorem fixupOffset_byte {mem : Addr → BitVec 8} {insn : Insn} {a dest : Addr} {func : KernSym}
    {value : BitVec 32} {field j : ℕ} (hfield : field ≤ 1785) (hj : j < insn.length.toNat)
    (hinside : ¬ func.inside (codeAddrFromOffset a insn.length value)) :
    fixupOffset (memcpy mem dest a insn.length.toNat) insn a dest func value field
        (dest + BitVec.ofNat 64 j) =
      if field ≤ j ∧ j < field + 4 then
        BitVec.ofNat 8 ((codeOffsetFromAddr dest (insn.length.setWidth 64)
          (codeAddrFromOffset a insn.length value)).toNat / 256 ^ (j - field))
      else mem (a + BitVec.ofNat 64 j) := by
  have hlen := insn.length.isLt
  have hcopy : memcpy mem dest a insn.length.toNat (dest + BitVec.ofNat 64 j) =
      mem (a + BitVec.ofNat 64 j) := memcpy_add hj (by omega)
  have hdist := toNat_add_ofNat_sub dest (show j < 2 ^ 64 by omega)
  unfold fixupOffset
  rw [if_neg hinside]
  by_cases hle : field ≤ j
  · have hsub := toNat_sub_add_ofNat (a := dest) (x := dest + BitVec.ofNat 64 j) (n := field)
      (by omega)
    rw [hdist] at hsub
    unfold storeLE
    rw [hsub]
    by_cases hlt : j < field + 4
    · rw [if_pos (by omega), if_pos ⟨hle, hlt⟩]
    · rw [if_neg (by omega), if_neg (by omega), hcopy]
  · rw [if_neg (by omega), ← hcopy]
    refine storeLE_of_le ?_
    rw [toNat_sub_add_ofNat_of_lt (by omega) (by omega)]
    omega

section Copied

variable {mem fin : Addr → BitVec 8} {sym : KernSym} {a : Addr} {insn : Insn}

/-- The offset that the code writes into a copy.
Kind: D -/
def fixupValue (sym : KernSym) (insn : Insn) (a : Addr) : BitVec 32 :=
  codeOffsetFromAddr (sym.copyOf a) (insn.length.setWidth 64) (fixupAddr insn a)

/-- **The rewritten bytes of a copy.**
Kind: L -/
theorem CopiedAt.byte_fixed (h : CopiedAt mem fin sym a insn) (hfixed : Fixed sym insn a) {i : ℕ}
    (hi : i < 4) (hlen : (fixupField insn).2 + i < insn.length.toNat) :
    fin (sym.copyOf a + BitVec.ofNat 64 ((fixupField insn).2 + i)) =
      BitVec.ofNat 8 ((fixupValue sym insn a).toNat / 256 ^ i) := by
  obtain ⟨hdisp, himm⟩ := offset_bounds insn
  obtain ⟨hkind, houtside⟩ := hfixed
  rw [h _ hlen, copyAndFixupInsn]
  unfold fixupAddr at houtside
  unfold fixupField at houtside hlen ⊢
  unfold fixupValue fixupAddr fixupField
  by_cases hop : insn.opCallJmp = true
  · rw [if_pos hop] at houtside hlen ⊢
    rw [if_pos hop, fixupOffset_byte himm hlen houtside, if_pos ⟨by omega, by omega⟩,
      Nat.add_sub_cancel_left]
  · have hrip : insn.ripRelative = true := hkind.resolve_left hop
    rw [if_neg hop] at houtside hlen ⊢
    rw [if_neg hop, if_pos hrip, fixupOffset_byte hdisp hlen houtside,
      if_pos ⟨by omega, by omega⟩, Nat.add_sub_cancel_left]

/-- **The other bytes of a copy** are those of the original.
Kind: L -/
theorem CopiedAt.byte_same (h : CopiedAt mem fin sym a insn) {j : ℕ}
    (hj : j < insn.length.toNat)
    (hother : Fixed sym insn a → j < (fixupField insn).2 ∨ (fixupField insn).2 + 4 ≤ j) :
    fin (sym.copyOf a + BitVec.ofNat 64 j) = mem (a + BitVec.ofNat 64 j) := by
  have hlen := insn.length.isLt
  obtain ⟨hdisp, himm⟩ := offset_bounds insn
  have hcopy : memcpy mem (sym.copyOf a) a insn.length.toNat (sym.copyOf a + BitVec.ofNat 64 j) =
      mem (a + BitVec.ofNat 64 j) := memcpy_add hj (by omega)
  unfold Fixed fixupAddr fixupField at hother
  rw [h j hj, copyAndFixupInsn]
  split_ifs with hop hrip
  · rw [if_pos hop] at hother
    by_cases hinside : sym.inside (codeAddrFromOffset a insn.length insn.immediate.value)
    · rw [fixupOffset, if_pos hinside, hcopy]
    · rw [fixupOffset_byte himm hj hinside, if_neg]
      have := hother ⟨.inl hop, hinside⟩
      omega
  · rw [if_neg hop] at hother
    by_cases hinside : sym.inside (codeAddrFromOffset a insn.length insn.displacement.value)
    · rw [fixupOffset, if_pos hinside, hcopy]
    · rw [fixupOffset_byte hdisp hj hinside, if_neg]
      have := hother ⟨.inr hrip, hinside⟩
      omega
  · exact hcopy

/-! ## Decoding a copy -/

/-- Four bytes written as an offset are read back as that offset.
Kind: L -/
theorem readSigned_of_bytes {s : Stream} {pos : ℕ} {v : BitVec 32}
    (h : ∀ i, i < 4 → s (pos + i) = BitVec.ofNat 8 (v.toNat / 256 ^ i)) :
    readSigned s pos 4 = v := by
  have hnat : leNat s pos 4 = v.toNat := by
    rw [leNat_of_bytes h]
    exact Nat.mod_eq_of_lt (lt_of_lt_of_le v.isLt (by norm_num))
  have hwidth : ∀ n, n = 32 → (BitVec.ofNat n v.toNat).signExtend 32 = v := by
    rintro n rfl
    rw [BitVec.ofNat_toNat, BitVec.setWidth_eq, BitVec.signExtend_eq]
  unfold readSigned
  rw [hnat]
  exact hwidth _ (by norm_num)

/-- Up to the field that may be rewritten a copy agrees with the original.
Kind: L -/
theorem CopiedAt.agreeOn_field (h : CopiedAt mem fin sym a insn) {pos : ℕ}
    (hfield : (fixupField insn).2 = pos) (hlen : pos ≤ insn.length.toNat) :
    AgreeOn (fun j => mem (a + BitVec.ofNat 64 j))
      (fun j => fin (sym.copyOf a + BitVec.ofNat 64 j)) 0 pos :=
  fun _ _ hj => h.byte_same (by omega) fun _ => .inl (by omega)

/-- The field of a rewritten copy reads as the new offset.
Kind: L -/
theorem CopiedAt.readSigned_field (h : CopiedAt mem fin sym a insn) (hfixed : Fixed sym insn a)
    {pos : ℕ} (hfield : (fixupField insn).2 = pos) (hlen : pos + 4 ≤ insn.length.toNat) :
    readSigned (fun j => fin (sym.copyOf a + BitVec.ofNat 64 j)) pos 4 = fixupValue sym insn a := by
  refine readSigned_of_bytes fun i hi => ?_
  have hbyte := h.byte_fixed hfixed hi (by omega)
  rwa [hfield] at hbyte

variable (h : CopiedAt mem fin sym a insn) (hdecode : decodeAt mem a = some insn)
  (hlt : insn.nextByte < 256)

include h hdecode hlt

/-- A copy that is not rewritten is the same instruction.
Kind: L -/
theorem CopiedAt.decode_same (hfixed : ¬ Fixed sym insn a) :
    decodeAt fin (sym.copyOf a) = some insn := by
  have hlen := length_toNat hdecode hlt
  refine insnGetLength_congr hdecode fun j _ hj => ?_
  exact h.byte_same (by omega) fun hf => absurd hf hfixed

/-- A rewritten call or jump is the same instruction with the new immediate.
Kind: L -/
theorem CopiedAt.decode_immediate (hfixed : Fixed sym insn a) (hrel : insn.relBranch = true)
    (hop : insn.opCallJmp = true) :
    ∃ insn', decodeAt fin (sym.copyOf a) = some insn' ∧ SameForm insn insn' ∧
      insn'.immediate.value = fixupValue sym insn a := by
  have hlen := length_toNat hdecode hlt
  obtain ⟨hnext, hrewrite⟩ := insnGetLength_immediate hdecode hlt hrel hop
  have hfield : (fixupField insn).2 = insn.offsetImmediate := by rw [fixupField, if_pos hop]
  obtain ⟨insn', hdecode', hform, hvalue⟩ := hrewrite _ (h.agreeOn_field hfield (by omega))
  exact ⟨insn', hdecode', hform, hvalue.trans (h.readSigned_field hfixed hfield (by omega))⟩

/-- A rewritten RIP-relative instruction is the same one with the new displacement.
Kind: L -/
theorem CopiedAt.decode_displacement (hfixed : Fixed sym insn a) (hrip : insn.ripRelative = true)
    (hop : insn.opCallJmp = false) :
    ∃ insn', decodeAt fin (sym.copyOf a) = some insn' ∧ SameForm insn insn' ∧
      insn'.displacement.value = fixupValue sym insn a := by
  have hlen := length_toNat hdecode hlt
  obtain ⟨himm, hle, hrewrite⟩ := insnGetLength_displacement hdecode hlt hrip
  have hfield : (fixupField insn).2 = insn.offsetDisplacement := by
    rw [fixupField, hop]
    rfl
  obtain ⟨insn', hdecode', hform, hvalue⟩ := hrewrite _ (h.agreeOn_field hfield (by omega))
  exact ⟨insn', hdecode', hform, hvalue.trans (h.readSigned_field hfixed hfield (by omega))⟩

/-- A RIP-relative instruction taken for a call keeps its displacement: at most its immediate is
rewritten.
Kind: L -/
theorem CopiedAt.decode_mistaken (hrip : insn.ripRelative = true) (hop : insn.opCallJmp = true) :
    ∃ insn', decodeAt fin (sym.copyOf a) = some insn' ∧ SameForm insn insn' ∧
      insn'.displacement.value = insn.displacement.value := by
  have hlen := length_toNat hdecode hlt
  obtain ⟨himm, hle, hrewrite⟩ := insnGetLength_displacement hdecode hlt hrip
  have hfield : (fixupField insn).2 = insn.offsetImmediate := by rw [fixupField, if_pos hop]
  have hagree := h.agreeOn_field hfield (by omega)
  obtain ⟨insn', hdecode', hform, hvalue⟩ := hrewrite _ (hagree.mono le_rfl (by omega))
  refine ⟨insn', hdecode', hform, hvalue.trans ?_⟩
  rw [displacement_of_ripRelative hdecode hlt hrip]
  exact readSigned_congr (hagree.mono (Nat.zero_le _) (by omega))

end Copied

/-! ## Where a copy points -/

/-- The code keeps the target of this instruction. A branch has to be `E8` or `E9`, and a
RIP-relative instruction must not look like one; and the new offset has to fit. With four-byte
addresses (prefix `67`) the upper half of the distance does not count, but then the code's own test
for an address inside the function, which does not cut it, decides.
Kind: D -/
def Relocatable (sym : KernSym) (insn : Insn) (a : Addr) : Prop :=
  let ref := codeAddrFromOffset a insn.length insn.offset
  let fits := FitsS32 (ref - (sym.copyOf a + insn.length.setWidth 64))
  if insn.relBranch then insn.opCallJmp = true ∧ fits
  else if insn.addrBytes = 4 then
    (sym.copyOf a).setWidth 32 = a.setWidth 32 ∨ (insn.opCallJmp = false ∧ ¬ sym.inside ref)
  else insn.opCallJmp = false ∧ fits

/-- Moving an instruction moves what it refers to by as much.
Kind: L -/
theorem codeAddrFromOffset_eq_iff (a b : Addr) (length : BitVec 8) (offset : BitVec 32) :
    codeAddrFromOffset b length offset = codeAddrFromOffset a length offset ↔ b = a := by
  unfold codeAddrFromOffset
  rw [add_left_inj, add_left_inj]

/-- The same on 32 bits.
Kind: L -/
theorem setWidth_codeAddrFromOffset_eq_iff (a b : Addr) (length : BitVec 8) (offset : BitVec 32) :
    (codeAddrFromOffset b length offset).setWidth 32 =
        (codeAddrFromOffset a length offset).setWidth 32 ↔
      b.setWidth 32 = a.setWidth 32 := by
  unfold codeAddrFromOffset
  rw [add_assoc, add_assoc, BitVec.setWidth_add b _ (by omega), BitVec.setWidth_add a _ (by omega),
    add_left_inj]

/-- Four-byte addresses agree when their low halves do.
Kind: L -/
theorem setWidth_setWidth_inj (x y : BitVec 64) :
    (x.setWidth 32).setWidth 64 = (y.setWidth 32).setWidth 64 ↔
      x.setWidth 32 = y.setWidth 32 := by
  refine ⟨fun h => ?_, fun h => by rw [h]⟩
  have hcut := congrArg (BitVec.setWidth 32) h
  simpa using hcut

/-- The field that is looked at carries the target of a rel32 call or jump, and of a RIP-relative
instruction that does not look like one.
Kind: L -/
theorem fixupAddr_eq {insn : Insn} {a : Addr} (h : insn.relBranch = insn.opCallJmp) :
    fixupAddr insn a = codeAddrFromOffset a insn.length insn.offset := by
  unfold fixupAddr fixupField Insn.offset
  rw [h]
  split_ifs <;> rfl

section Target

variable {mem fin : Addr → BitVec 8} {sym : KernSym} {a t : Addr} {insn : Insn}
  (h : CopiedAt mem fin sym a insn) (hdecode : decodeAt mem a = some insn)
  (hlt : insn.nextByte < 256)

include h hdecode hlt

/-- A rewritten instruction refers to the original address, cut to what fits.
Kind: L -/
theorem CopiedAt.decode_fixed (hfixed : Fixed sym insn a)
    (hkind : insn.relBranch = true ∧ insn.opCallJmp = true ∨
      insn.ripRelative = true ∧ insn.opCallJmp = false) :
    ∃ insn', decodeAt fin (sym.copyOf a) = some insn' ∧ SameForm insn insn' ∧
      insn'.offset = codeOffsetFromAddr (sym.copyOf a) (insn.length.setWidth 64)
        (codeAddrFromOffset a insn.length insn.offset) := by
  rcases hkind with ⟨hrel, hop⟩ | ⟨hrip, hop⟩
  · obtain ⟨insn', hdecode', hform, hvalue⟩ := h.decode_immediate hdecode hlt hfixed hrel hop
    refine ⟨insn', hdecode', hform, ?_⟩
    rw [← fixupAddr_eq (hrel.trans hop.symm), Insn.offset, hform.relBranch, if_pos hrel, hvalue]
    rfl
  · have hrel := relBranch_of_ripRelative hdecode hrip
    obtain ⟨insn', hdecode', hform, hvalue⟩ := h.decode_displacement hdecode hlt hfixed hrip hop
    refine ⟨insn', hdecode', hform, ?_⟩
    rw [← fixupAddr_eq (hrel.trans hop.symm), Insn.offset, hform.relBranch, hrel, if_neg nofun,
      hvalue]
    rfl

omit h hdecode hlt in
/-- A copy that keeps its offset refers to the original target only if it has not moved, or has
moved by a multiple of `2 ^ 32` where addresses are four bytes.
Kind: L -/
theorem target_moved {insn' : Insn} (hmoved : sym.copyOf a ≠ a)
    (hdecode' : decodeAt fin (sym.copyOf a) = some insn') (hform : SameForm insn insn')
    (hoffset : insn'.offset = insn.offset)
    (hkind : insn.relBranch = true ∨ insn.ripRelative = true) (ht : insn.target a = some t) :
    (∃ i, decodeAt fin (sym.copyOf a) = some i ∧ i.target (sym.copyOf a) = some t) ↔
      (insn.relBranch = false ∧ insn.addrBytes = 4 ∧
        (sym.copyOf a).setWidth 32 = a.setWidth 32) := by
  rw [Insn.target, if_pos hkind, Option.some.injEq] at ht
  have hself : (∃ i, decodeAt fin (sym.copyOf a) = some i ∧ i.target (sym.copyOf a) = some t) ↔
      insn'.target (sym.copyOf a) = some t := by
    rw [hdecode']
    simp
  rw [hself, hform.target _ hkind, hoffset, Option.some.injEq, ← ht, Insn.narrow, Insn.narrow]
  by_cases hnarrow : insn.relBranch = false ∧ insn.addrBytes = 4
  · rw [if_pos hnarrow, if_pos hnarrow, setWidth_setWidth_inj, setWidth_codeAddrFromOffset_eq_iff]
    exact ⟨fun heq => ⟨hnarrow.1, hnarrow.2, heq⟩, fun heq => heq.2.2⟩
  · rw [if_neg hnarrow, if_neg hnarrow, codeAddrFromOffset_eq_iff]
    exact ⟨fun heq => absurd heq hmoved, fun heq => absurd ⟨heq.1, heq.2.1⟩ hnarrow⟩

/-- A rewritten copy refers to the original target if the distance fits, or addresses are four
bytes.
Kind: L -/
theorem CopiedAt.target_fixed (hfixed : Fixed sym insn a)
    (hkind : insn.relBranch = true ∧ insn.opCallJmp = true ∨
      insn.ripRelative = true ∧ insn.opCallJmp = false) (ht : insn.target a = some t) :
    (∃ i, decodeAt fin (sym.copyOf a) = some i ∧ i.target (sym.copyOf a) = some t) ↔
      (insn.relBranch = false ∧ insn.addrBytes = 4 ∨
        FitsS32 (codeAddrFromOffset a insn.length insn.offset -
          (sym.copyOf a + insn.length.setWidth 64))) := by
  have hkind' : insn.relBranch = true ∨ insn.ripRelative = true :=
    hkind.imp And.left And.left
  obtain ⟨insn', hdecode', hform, hoffset⟩ := h.decode_fixed hdecode hlt hfixed hkind
  rw [Insn.target, if_pos hkind', Option.some.injEq] at ht
  have hself : (∃ i, decodeAt fin (sym.copyOf a) = some i ∧ i.target (sym.copyOf a) = some t) ↔
      insn'.target (sym.copyOf a) = some t := by
    rw [hdecode']
    simp
  rw [hself, hform.target _ hkind', hoffset, Option.some.injEq, ← ht, Insn.narrow, Insn.narrow]
  by_cases hnarrow : insn.relBranch = false ∧ insn.addrBytes = 4
  · rw [if_pos hnarrow, if_pos hnarrow, setWidth_setWidth_inj, setWidth_codeAddrFromOffset]
    exact ⟨fun _ => .inl hnarrow, fun _ => rfl⟩
  · rw [if_neg hnarrow, if_neg hnarrow, codeAddrFromOffset_codeOffsetFromAddr]
    exact ⟨.inr, fun hor => hor.resolve_left hnarrow⟩

/-- Where the copy of a relative branch points.
Kind: L -/
theorem CopiedAt.target_iff_of_relBranch (hmoved : sym.copyOf a ≠ a) (ht : insn.target a = some t)
    (hout : ¬ sym.inside t) (hrel : insn.relBranch = true) :
    (∃ i, decodeAt fin (sym.copyOf a) = some i ∧ i.target (sym.copyOf a) = some t) ↔
      Relocatable sym insn a := by
  have hform : SameForm insn insn := ⟨rfl, rfl, rfl, rfl, rfl⟩
  unfold Relocatable
  have hripfalse : insn.ripRelative = false := by
    by_contra hrip
    rw [Bool.not_eq_false] at hrip
    rw [relBranch_of_ripRelative hdecode hrip] at hrel
    exact absurd hrel nofun
  rw [if_pos hrel]
  by_cases hop : insn.opCallJmp = true
  · -- a rel32 call or jump: its target is what the code tests
    have href : fixupAddr insn a = t := by
      rw [fixupAddr_eq (hrel.trans hop.symm)]
      rw [Insn.target, if_pos (.inl hrel), Insn.narrow, hrel, if_neg (by simp)] at ht
      exact Option.some.inj ht
    have hfixed : Fixed sym insn a := ⟨.inl hop, by rw [href]; exact hout⟩
    rw [h.target_fixed hdecode hlt hfixed (.inl ⟨hrel, hop⟩) ht, hrel, hop]
    simp
  · -- any other branch is copied as it is
    have hfixed : ¬ Fixed sym insn a := by
      rintro ⟨hop' | hrip', -⟩
      · exact hop hop'
      · rw [hripfalse] at hrip'
        exact absurd hrip' nofun
    have hsame := h.decode_same hdecode hlt hfixed
    rw [target_moved hmoved hsame hform rfl (.inl hrel) ht, hrel]
    simp [hop]

/-- Where the copy of an instruction with a `rip`-relative operand points.
Kind: L -/
theorem CopiedAt.target_iff_of_ripRelative (hmoved : sym.copyOf a ≠ a) (ht : insn.target a = some t)
    (hout : ¬ sym.inside t) (hrip : insn.ripRelative = true) :
    (∃ i, decodeAt fin (sym.copyOf a) = some i ∧ i.target (sym.copyOf a) = some t) ↔
      Relocatable sym insn a := by
  have hform : SameForm insn insn := ⟨rfl, rfl, rfl, rfl, rfl⟩
  unfold Relocatable
  have hrel := relBranch_of_ripRelative hdecode hrip
  rw [hrel, if_neg nofun]
  by_cases hop : insn.opCallJmp = true
  · -- a VEX-encoded `E8` or `E9`: taken for a call
    obtain ⟨insn', hdecode', hform', hvalue⟩ := h.decode_mistaken hdecode hlt hrip hop
    have hoffset : insn'.offset = insn.offset := by
      rw [Insn.offset, Insn.offset, hform'.relBranch, hrel, if_neg nofun, if_neg nofun, hvalue]
    rw [target_moved hmoved hdecode' hform' hoffset (.inr hrip) ht, hrel, hop]
    split_ifs with haddr
    · simp [haddr]
    · exact ⟨fun hx => absurd hx.2.1 haddr, fun hx => absurd hx.1 nofun⟩
  · rw [Bool.not_eq_true] at hop
    by_cases hin : sym.inside (codeAddrFromOffset a insn.length insn.offset)
    · -- the code takes the target for one inside the function
      have hfixed : ¬ Fixed sym insn a := by
        rintro ⟨-, hnot⟩
        rw [fixupAddr_eq (hrel.trans hop.symm)] at hnot
        exact hnot hin
      have haddr : insn.addrBytes = 4 := by
        by_contra haddr
        rw [Insn.target, if_pos (.inr hrip), Insn.narrow, if_neg (fun hn => haddr hn.2)] at ht
        rw [Option.some.inj ht] at hin
        exact hout hin
      have hsame := h.decode_same hdecode hlt hfixed
      rw [target_moved hmoved hsame hform rfl (.inr hrip) ht, hrel, if_pos haddr]
      simp [haddr, hin]
    · have hfixed : Fixed sym insn a :=
        ⟨.inr hrip, by rw [fixupAddr_eq (hrel.trans hop.symm)]; exact hin⟩
      rw [h.target_fixed hdecode hlt hfixed (.inr ⟨hrip, hop⟩) ht, hrel, hop]
      split_ifs with haddr
      · simp [haddr, hin]
      · exact ⟨fun hx => ⟨rfl, hx.resolve_left fun hn => haddr hn.2⟩, fun hx => .inr hx.2⟩

/-- **Where the copy points.**
Kind: P -/
theorem CopiedAt.target_iff (hmoved : sym.copyOf a ≠ a) (ht : insn.target a = some t)
    (hout : ¬ sym.inside t) :
    (∃ i, decodeAt fin (sym.copyOf a) = some i ∧ i.target (sym.copyOf a) = some t) ↔
      Relocatable sym insn a := by
  have hkind : insn.relBranch = true ∨ insn.ripRelative = true := by
    by_contra hno
    rw [Insn.target, if_neg hno] at ht
    cases ht
  rcases hkind with hrel | hrip
  · exact h.target_iff_of_relBranch hdecode hlt hmoved ht hout hrel
  · exact h.target_iff_of_ripRelative hdecode hlt hmoved ht hout hrip

end Target

end Togpu.Hook
