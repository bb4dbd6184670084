import Mathlib.Data.Fintype.Basic
import Togpu.Insn.Locality

/-!
# Where an instruction points

What an address-dependent instruction refers to, and which of its bytes say so.

* `Insn.target` — the absolute address a relative branch jumps to or a RIP-relative operand names,
  as the processor computes it in 64-bit mode.
* `Insn.Legal` — the processor's limit on the length of an instruction.
* **The shape of a head** (`insnHead_shape`): the displacement of a short enough instruction lies
  where `insn_offset_displacement` says, and a relative branch has no ModRM byte.
-/

namespace Togpu.X86

open Togpu.Lib

/-! ## Targets -/

/-- `OP_CALL_REL32` or `OP_JMP_REL32`: the test of `copy_and_fixup_insn`, on the first opcode byte
alone.
Source: `xt_TOGPU_hook.c` 30–31, 60–61
Kind: D -/
def Insn.opCallJmp (insn : Insn) : Bool :=
  insn.opcode.bytes 0 = 0xe8 ∨ insn.opcode.bytes 0 = 0xe9

/-- A branch relative to the next instruction: `E8`, `E9`, `EB`, `70`–`7F`, `E0`–`E3` and
`0F 80`–`0F 8F`, without a VEX prefix.
Kind: D -/
def Insn.relBranch (insn : Insn) : Bool :=
  insn.isAvx = false ∧
    (insn.opCallJmp ∨ insn.opcode.bytes 0 = 0xeb ∨
      (0x70 ≤ insn.opcode.bytes 0 ∧ insn.opcode.bytes 0 ≤ 0x7f) ∨
      (0xe0 ≤ insn.opcode.bytes 0 ∧ insn.opcode.bytes 0 ≤ 0xe3) ∨
      (insn.opcode.bytes 0 = 0x0f ∧ 0x80 ≤ insn.opcode.bytes 1 ∧ insn.opcode.bytes 1 ≤ 0x8f))

/-- The address `offset` bytes after the end of an instruction at `kaddr`: `CODE_ADDR_FROM_OFFSET`.
Source: `xt_TOGPU_hook.c` 33–35
Kind: D -/
def codeAddrFromOffset (kaddr : BitVec 64) (length : BitVec 8) (offset : BitVec 32) : BitVec 64 :=
  kaddr + length.setWidth 64 + offset.signExtend 64

/-- The offset field that carries the target: the immediate of a branch, else the displacement.
Kind: D -/
def Insn.offset (insn : Insn) : BitVec 32 :=
  if insn.relBranch then insn.immediate.value else insn.displacement.value

/-- An address computed with the instruction's address size: four bytes under the prefix `67`.
Kind: D -/
def Insn.narrow (insn : Insn) (a : BitVec 64) : BitVec 64 :=
  if insn.relBranch = false ∧ insn.addrBytes = 4 then (a.setWidth 32).setWidth 64 else a

/-- The absolute address that the instruction at `kaddr` refers to, if it depends on `kaddr`.
Kind: D -/
def Insn.target (insn : Insn) (kaddr : BitVec 64) : Option (BitVec 64) :=
  if insn.relBranch ∨ insn.ripRelative then
    some (insn.narrow (codeAddrFromOffset kaddr insn.length insn.offset))
  else none

/-- An instruction the processor accepts is at most 15 bytes long.
Kind: D -/
def Insn.Legal (insn : Insn) : Prop := insn.nextByte ≤ 15

/-- The length of a legal instruction fits its field.
Kind: L -/
theorem Insn.Legal.lt {insn : Insn} (h : insn.Legal) : insn.nextByte < 256 :=
  lt_of_le_of_lt h (by decide)

/-! ## What the tables say of branches -/

/-- A one-byte relative branch has no ModRM byte and no escape.
Kind: L -/
theorem inatGetOpcodeAttribute_branch : ∀ op : BitVec 8,
    (op = 0xe8 ∨ op = 0xe9 ∨ op = 0xeb ∨ (0x70 ≤ op ∧ op ≤ 0x7f) ∨ (0xe0 ≤ op ∧ op ≤ 0xe3)) →
      inatHasModrm (inatGetOpcodeAttribute op) = false ∧
        inatIsEscape (inatGetOpcodeAttribute op) = false := by
  decide

/-- `E8` and `E9` take a 32-bit immediate and force 64-bit operands.
Kind: L -/
theorem inatGetOpcodeAttribute_callJmp : ∀ op : BitVec 8, (op = 0xe8 ∨ op = 0xe9) →
    inatGetOpcodeAttribute op = makeImm inatImmVword32 ||| inatForce64 := by
  decide

/-- `0F 80`–`0F 8F` have no ModRM byte and no further escape, whatever the last prefix.
Kind: L -/
theorem inatGetEscapeAttribute_branch (op lastPfx : BitVec 8) (h : 0x80 ≤ op ∧ op ≤ 0x8f) :
    inatHasModrm (inatGetEscapeAttribute op lastPfx (inatGetOpcodeAttribute 0x0f)) = false ∧
      inatIsEscape (inatGetEscapeAttribute op lastPfx (inatGetOpcodeAttribute 0x0f)) = false := by
  have htable : ∀ op : BitVec 8, 0x80 ≤ op ∧ op ≤ 0x8f →
      inatHasVariant (tableEntry inatEscapeTable1 op.toNat) = false ∧
        inatHasModrm (tableEntry inatEscapeTable1 op.toNat) = false ∧
        inatIsEscape (tableEntry inatEscapeTable1 op.toNat) = false := by
    decide
  have hesc : inatEscapeId (inatGetOpcodeAttribute 0x0f) = 1 := by decide
  obtain ⟨hvariant, hmodrm, hescape⟩ := htable op h
  have hattr : inatGetEscapeAttribute op lastPfx (inatGetOpcodeAttribute 0x0f) =
      tableEntry inatEscapeTable1 op.toNat := by
    unfold inatGetEscapeAttribute
    rw [hesc]
    simp only [inatEscapeTables, hvariant, Bool.false_eq_true, false_and, if_false]
  rw [hattr]
  exact ⟨hmodrm, hescape⟩

/-! ## Escapes end -/

/-- The variant number of a prefix.
Kind: L -/
theorem lastPrefixVariant_lt (lastPfx : BitVec 8) : lastPrefixVariant lastPfx < 4 := by
  unfold lastPrefixVariant inatLastPrefixId
  split_ifs <;> omega

/-- An escaped attribute is zero or an entry of one of the escape tables.
Kind: L -/
theorem inatGetEscapeAttribute_mem (op lastPfx : BitVec 8) (attr : ℕ) :
    inatGetEscapeAttribute op lastPfx attr = 0 ∨
      ∃ m, m < 4 ∧ ∃ table ∈ inatEscapeTables (inatEscapeId attr) m,
        inatGetEscapeAttribute op lastPfx attr = tableEntry table op.toNat := by
  unfold inatGetEscapeAttribute
  dsimp only
  cases hbase : inatEscapeTables (inatEscapeId attr) 0 with
  | none => exact .inl rfl
  | some table =>
      dsimp only
      split_ifs
      · cases hvar : inatEscapeTables (inatEscapeId attr) (lastPrefixVariant lastPfx) with
        | none => exact .inl rfl
        | some variant =>
            exact .inr ⟨_, lastPrefixVariant_lt lastPfx, variant, hvar, rfl⟩
      · exact .inr ⟨0, by omega, table, hbase, rfl⟩

/-- A lookup misses or finds an entry of the table.
Kind: L -/
theorem tableEntry_mem (table : List (ℕ × ℕ × ℕ)) (i : ℕ) :
    tableEntry table i = 0 ∨ ∃ e ∈ table, tableEntry table i = e.2.2 := by
  unfold tableEntry
  cases hfind : table.find? fun r => r.1 ≤ i ∧ i ≤ r.2.1 with
  | none => exact .inl rfl
  | some e => exact .inr ⟨e, List.mem_of_find?_eq_some hfind, rfl⟩

/-- Only the first table has escapes, and they lead to the second and the third one.
Kind: L -/
theorem inatEscapeTables_escape : ∀ n < 4, ∀ m < 4, ∀ table ∈ inatEscapeTables n m, ∀ e ∈ table,
    inatIsEscape e.2.2 = true → n = 1 ∧ 1 < inatEscapeId e.2.2 := by
  decide

/-- The number of an escape.
Kind: L -/
theorem inatEscapeId_lt (attr : ℕ) : inatEscapeId attr < 4 := by
  have hle : attr &&& inatEscMask ≤ 48 := Nat.and_le_right
  unfold inatEscapeId
  rw [Nat.shiftRight_eq_div_pow]
  omega

/-- An escape leads from the first table to another one; from the others none leads on.
Kind: L -/
theorem inatGetEscapeAttribute_escape {op lastPfx : BitVec 8} {attr : ℕ}
    (h : inatIsEscape (inatGetEscapeAttribute op lastPfx attr) = true) :
    inatEscapeId attr = 1 ∧ 1 < inatEscapeId (inatGetEscapeAttribute op lastPfx attr) := by
  rcases inatGetEscapeAttribute_mem op lastPfx attr with hzero | ⟨m, hm, table, htable, heq⟩
  · rw [hzero] at h
    exact absurd h (by decide)
  · rw [heq] at h ⊢
    rcases tableEntry_mem table op.toNat with hzero | ⟨e, he, hentry⟩
    · rw [hzero] at h
      exact absurd h (by decide)
    · rw [hentry] at h ⊢
      exact inatEscapeTables_escape _ (inatEscapeId_lt attr) m hm table htable e he h

/-- **Three rounds take all escapes** of an opcode.
Kind: P -/
theorem insnGetEscapes_done (s : Stream) (insn : Insn) :
    inatIsEscape (insnGetEscapes s 3 (insnGetOpcode1 s insn)).attr = false := by
  by_contra hesc
  simp only [insnGetEscapes] at hesc
  split_ifs at hesc with h₁ h₂ h₃
  · -- a third escape would come from the second or third table
    have hsecond := (inatGetEscapeAttribute_escape h₂).2
    have hthird := (inatGetEscapeAttribute_escape h₃).1
    have heq : inatEscapeId (insnGetEscape s (insnGetOpcode1 s insn)).attr = 1 := hthird
    have hlt : 1 < inatEscapeId (insnGetEscape s (insnGetOpcode1 s insn)).attr := hsecond
    omega
  all_goals simp_all

/-! ## The prefix scan leaves the rest alone -/

/-- The state after the legacy prefixes: everything else is as `insn_init` left it.
Kind: D -/
structure Scanned (insn : Insn) : Prop where
  /-- The prefixes are the bytes passed, counted in an `unsigned char`. -/
  nbytes : insn.prefixes.nbytes = BitVec.ofNat 8 insn.nextByte
  /-- The address size is four or eight bytes. -/
  addr : insn.addrBytes = 4 ∨ insn.addrBytes = 8
  /-- No REX prefix yet. -/
  rex : insn.rexPrefix.nbytes = 0
  /-- No VEX prefix yet. -/
  vex : insn.vexPrefix = ⟨fun _ => 0, 0⟩
  /-- No ModRM byte yet. -/
  modrm : insn.modrm.nbytes = 0
  /-- No SIB byte yet. -/
  sib : insn.sib.nbytes = 0
  /-- No displacement yet. -/
  displacement : insn.displacement.nbytes = 0

/-- `insn_init` has scanned nothing.
Kind: L -/
theorem scanned_init : Scanned kernelInsnInit :=
  ⟨rfl, .inr rfl, rfl, rfl, rfl, rfl, rfl⟩

/-- A prefix passed over.
Kind: L -/
theorem Scanned.skipPrefix {insn : Insn} (h : Scanned insn) : Scanned insn.skipPrefix := by
  refine ⟨?_, h.addr, h.rex, h.vex, h.modrm, h.sib, h.displacement⟩
  simp only [Insn.skipPrefix, h.nbytes, BitVec.ofNat_add]
  rfl

/-- A prefix added.
Kind: L -/
theorem Scanned.addPrefix {insn : Insn} (h : Scanned insn) (nb : ℕ) (b : BitVec 8) :
    Scanned (insn.addPrefix nb b) := by
  refine ⟨h.nbytes, ?_, h.rex, h.vex, h.modrm, h.sib, h.displacement⟩
  -- the prefix `67` switches between eight and four bytes
  simp only [Insn.addPrefix]
  rcases h.addr with ha | ha <;> split_ifs <;> simp [ha]

/-- The last prefix set.
Kind: L -/
theorem Scanned.setLastPrefix {insn : Insn} (h : Scanned insn) (nb : ℕ) (lb : BitVec 8) :
    Scanned (insn.setLastPrefix nb lb) := by
  unfold Insn.setLastPrefix
  dsimp only
  split_ifs
  · exact ⟨h.nbytes, h.addr, h.rex, h.vex, h.modrm, h.sib, h.displacement⟩
  · exact ⟨h.nbytes, h.addr, h.rex, h.vex, h.modrm, h.sib, h.displacement⟩
  · exact h

/-- The whole scan keeps it.
Kind: L -/
theorem Scanned.scanPrefixes {s : Stream} {fuel nb : ℕ} {insn : Insn} {lb : BitVec 8}
    {r : Insn × ℕ × BitVec 8} (h : Scanned insn)
    (hscan : scanPrefixes s fuel insn nb lb = some r) : Scanned r.1 := by
  induction fuel generalizing insn nb lb with
  | zero => simp [X86.scanPrefixes] at hscan
  | succ fuel ih =>
      simp only [X86.scanPrefixes] at hscan
      split_ifs at hscan with hpfx hseen hfull
      · exact ih h.skipPrefix hscan
      · simp only [Option.some.injEq] at hscan
        rwa [← hscan]
      · exact ih (h.addPrefix nb _).skipPrefix hscan
      · simp only [Option.some.injEq] at hscan
        rwa [← hscan]

/-! ## The opcode -/

/-- One more opcode byte.
Kind: L -/
theorem insnGetEscape_nbytes (s : Stream) (insn : Insn) (h : insn.opcode.nbytes.toNat < 4) :
    (insnGetEscape s insn).opcode.nbytes.toNat = insn.opcode.nbytes.toNat + 1 := by
  simp only [insnGetEscape]
  rw [BitVec.toNat_add]
  exact Nat.mod_eq_of_lt (by simp; omega)

/-- A later opcode byte does not change an earlier one.
Kind: L -/
theorem insnGetEscapes_bytes (s : Stream) (insn : Insn) {n : ℕ} {k : Fin 4}
    (hk : k.val < insn.opcode.nbytes.toNat) (hn : insn.opcode.nbytes.toNat + n ≤ 4) :
    (insnGetEscapes s n insn).opcode.bytes k = insn.opcode.bytes k := by
  induction n generalizing insn with
  | zero => rfl
  | succ n ih =>
      simp only [insnGetEscapes]
      split_ifs
      · have hcount := insnGetEscape_nbytes s insn (by omega)
        have hne : k ≠ Fin.ofNat 4 insn.opcode.nbytes.toNat := by
          rw [ne_eq, Fin.ext_iff, Fin.val_ofNat, Nat.mod_eq_of_lt (by omega)]
          omega
        rw [ih (insnGetEscape s insn) (by omega) (by omega)]
        exact Function.update_of_ne hne _ _
      · rfl

/-- An opcode that is no escape is one byte.
Kind: L -/
theorem insnGetEscapes_of_not_escape (s : Stream) {n : ℕ} {insn : Insn}
    (h : inatIsEscape insn.attr = false) : insnGetEscapes s n insn = insn := by
  cases n with
  | zero => rfl
  | succ n => simp [insnGetEscapes, h]

/-- The escapes change the opcode, its attribute and the cursor.
Kind: L -/
theorem insnGetEscapes_frame (s : Stream) (n : ℕ) (insn : Insn) :
    ∃ o a p, insnGetEscapes s n insn = { insn with opcode := o, attr := a, nextByte := p } := by
  induction n generalizing insn with
  | zero => exact ⟨_, _, _, rfl⟩
  | succ n ih =>
      simp only [insnGetEscapes]
      split_ifs
      · obtain ⟨o, a, p, h⟩ := ih (insnGetEscape s insn)
        exact ⟨o, a, p, h⟩
      · exact ⟨_, _, _, rfl⟩

/-- Every escaped opcode byte is counted.
Kind: L -/
theorem insnGetEscapes_count (s : Stream) (insn : Insn) {n : ℕ}
    (hn : insn.opcode.nbytes.toNat + n ≤ 4) :
    (insnGetEscapes s n insn).nextByte + insn.opcode.nbytes.toNat =
      insn.nextByte + (insnGetEscapes s n insn).opcode.nbytes.toNat := by
  induction n generalizing insn with
  | zero => rfl
  | succ n ih =>
      simp only [insnGetEscapes]
      split_ifs
      · have hcount := insnGetEscape_nbytes s insn (by omega)
        have hnext : (insnGetEscape s insn).nextByte = insn.nextByte + 1 := rfl
        have hrest := ih (insnGetEscape s insn) (by omega)
        omega
      · rfl

/-- The opcode stage changes the opcode, its attribute and the cursor, by the opcode's bytes.
Kind: L -/
theorem insnGetOpcode_frame (s : Stream) (insn : Insn) :
    ∃ o a, insnGetOpcode s insn =
      { insn with opcode := o, attr := a, nextByte := insn.nextByte + o.nbytes.toNat } := by
  unfold insnGetOpcode
  dsimp only
  split_ifs
  · exact ⟨_, _, rfl⟩
  all_goals
    obtain ⟨o, a, p, h⟩ := insnGetEscapes_frame s 3 (insnGetOpcode1 s insn)
    have hp : p = insn.nextByte + o.nbytes.toNat := by
      have hone : (insnGetOpcode1 s insn).opcode.nbytes.toNat = 1 := rfl
      have hcount := insnGetEscapes_count s (insnGetOpcode1 s insn) (n := 3) (by omega)
      rw [h] at hcount
      have hnext : (insnGetOpcode1 s insn).nextByte = insn.nextByte + 1 := rfl
      dsimp only at hcount
      omega
    rw [h, hp]
    exact ⟨_, _, rfl⟩

section Opcode

variable {s : Stream} {insn : Insn}

/-- Without a VEX prefix, the attribute is that of the last opcode byte.
Kind: L -/
theorem insnGetOpcode_eq (hvex : insn.isAvx = false) :
    insnGetOpcode s insn =
      let last := insnGetEscapes s 3 (insnGetOpcode1 s insn)
      if inatMustVex last.attr then { last with attr := 0 } else last := by
  simp only [insnGetOpcode, hvex, Bool.false_eq_true, if_false]

/-- The first opcode byte.
Kind: L -/
theorem insnGetOpcode_byte0 (hvex : insn.isAvx = false) :
    (insnGetOpcode s insn).opcode.bytes 0 = s insn.nextByte := by
  have hone : (insnGetOpcode1 s insn).opcode.nbytes.toNat = 1 := rfl
  have hkeep := insnGetEscapes_bytes s (insnGetOpcode1 s insn) (n := 3) (k := 0)
    (by rw [hone]; decide) (by omega)
  have hfirst : (insnGetOpcode1 s insn).opcode.bytes 0 = s insn.nextByte := rfl
  rw [insnGetOpcode_eq hvex]
  dsimp only
  split_ifs <;> rw [hkeep, hfirst]

/-- The attribute of a one-byte opcode.
Kind: L -/
theorem insnGetOpcode_attr (hvex : insn.isAvx = false)
    (hesc : inatIsEscape (inatGetOpcodeAttribute (s insn.nextByte)) = false) :
    (insnGetOpcode s insn).attr =
      if inatMustVex (inatGetOpcodeAttribute (s insn.nextByte)) then 0
      else inatGetOpcodeAttribute (s insn.nextByte) := by
  have hattr : (insnGetOpcode1 s insn).attr = inatGetOpcodeAttribute (s insn.nextByte) := by
    simp only [insnGetOpcode1, hvex, Bool.false_eq_true, if_false]
  rw [insnGetOpcode_eq hvex, insnGetEscapes_of_not_escape s (by rw [hattr]; exact hesc)]
  dsimp only
  rw [hattr]
  split_ifs
  · rfl
  · exact hattr

/-- The attribute of a two-byte opcode `0F op` that leads no further.
Kind: L -/
theorem insnGetOpcode_escaped (hvex : insn.isAvx = false) (h0 : s insn.nextByte = 0x0f)
    (hesc : inatIsEscape (inatGetEscapeAttribute (s (insn.nextByte + 1)) insn.lastPrefix
      (inatGetOpcodeAttribute 0x0f)) = false) :
    (insnGetOpcode s insn).attr = 0 ∨ (insnGetOpcode s insn).attr =
      inatGetEscapeAttribute (s (insn.nextByte + 1)) insn.lastPrefix
        (inatGetOpcodeAttribute 0x0f) := by
  have hattr : (insnGetOpcode1 s insn).attr = inatGetOpcodeAttribute 0x0f := by
    simp only [insnGetOpcode1, hvex, h0, Bool.false_eq_true, if_false]
  have htwo : inatIsEscape (inatGetOpcodeAttribute 0x0f) = true := by decide
  have hsecond : (insnGetEscape s (insnGetOpcode1 s insn)).attr =
      inatGetEscapeAttribute (s (insn.nextByte + 1)) insn.lastPrefix
        (inatGetOpcodeAttribute 0x0f) := by
    rw [← hattr]
    rfl
  have hescapes : insnGetEscapes s 3 (insnGetOpcode1 s insn) =
      insnGetEscape s (insnGetOpcode1 s insn) := by
    rw [insnGetEscapes, hattr, if_pos htwo]
    exact insnGetEscapes_of_not_escape s (by rw [hsecond]; exact hesc)
  rw [insnGetOpcode_eq hvex, hescapes]
  dsimp only
  split_ifs
  · exact .inl rfl
  · exact .inr hsecond

/-- The second opcode byte after `0F`.
Kind: L -/
theorem insnGetOpcode_byte1 (hvex : insn.isAvx = false) (h0 : s insn.nextByte = 0x0f) :
    (insnGetOpcode s insn).opcode.bytes 1 = s (insn.nextByte + 1) := by
  have hattr : (insnGetOpcode1 s insn).attr = inatGetOpcodeAttribute 0x0f := by
    simp only [insnGetOpcode1, hvex, h0, Bool.false_eq_true, if_false]
  have htwo : inatIsEscape (inatGetOpcodeAttribute 0x0f) = true := by decide
  have hnbytes : (insnGetEscape s (insnGetOpcode1 s insn)).opcode.nbytes.toNat = 2 := rfl
  have hkeep := insnGetEscapes_bytes s (insnGetEscape s (insnGetOpcode1 s insn)) (n := 2) (k := 1)
    (by rw [hnbytes]; decide) (by omega)
  have hbyte : (insnGetEscape s (insnGetOpcode1 s insn)).opcode.bytes 1 =
      s (insn.nextByte + 1) := rfl
  rw [insnGetOpcode_eq hvex, insnGetEscapes, hattr, if_pos htwo]
  dsimp only
  split_ifs <;> rw [hkeep, hbyte]

/-- The opcode stage keeps the VEX prefix.
Kind: L -/
theorem insnGetOpcode_isAvx : (insnGetOpcode s insn).isAvx = insn.isAvx := by
  obtain ⟨o, a, h⟩ := insnGetOpcode_frame s insn
  rw [h]
  rfl

/-- **A relative branch has no ModRM byte.**
Kind: P -/
theorem insnGetOpcode_relBranch (h : (insnGetOpcode s insn).relBranch = true) :
    inatHasModrm (insnGetOpcode s insn).attr = false := by
  have hzero : inatHasModrm 0 = false := by decide
  simp only [Insn.relBranch, Insn.opCallJmp, decide_eq_true_eq] at h
  obtain ⟨havx, hop⟩ := h
  rw [insnGetOpcode_isAvx] at havx
  rw [insnGetOpcode_byte0 havx] at hop
  by_cases h0 : s insn.nextByte = 0x0f
  · -- the two-byte forms
    have hop1 : 0x80 ≤ s (insn.nextByte + 1) ∧ s (insn.nextByte + 1) ≤ 0x8f := by
      rw [← insnGetOpcode_byte1 havx h0]
      simpa [h0] using hop
    obtain ⟨hmodrm, hesc⟩ := inatGetEscapeAttribute_branch _ insn.lastPrefix hop1
    rcases insnGetOpcode_escaped havx h0 hesc with hattr | hattr
    · rw [hattr, hzero]
    · rw [hattr, hmodrm]
  · -- the one-byte forms
    have hop0 : s insn.nextByte = 0xe8 ∨ s insn.nextByte = 0xe9 ∨ s insn.nextByte = 0xeb ∨
        (0x70 ≤ s insn.nextByte ∧ s insn.nextByte ≤ 0x7f) ∨
        (0xe0 ≤ s insn.nextByte ∧ s insn.nextByte ≤ 0xe3) := by
      tauto
    obtain ⟨hmodrm, hesc⟩ := inatGetOpcodeAttribute_branch _ hop0
    rw [insnGetOpcode_attr havx hesc]
    split_ifs
    · exact hzero
    · exact hmodrm

/-- **The attribute of `E8` and `E9`.**
Kind: P -/
theorem insnGetOpcode_callJmp (havx : insn.isAvx = false)
    (h : (insnGetOpcode s insn).opCallJmp = true) :
    (insnGetOpcode s insn).attr = makeImm inatImmVword32 ||| inatForce64 := by
  simp only [Insn.opCallJmp, decide_eq_true_eq] at h
  rw [insnGetOpcode_byte0 havx] at h
  have hattr := inatGetOpcodeAttribute_callJmp _ h
  have hesc : inatIsEscape (inatGetOpcodeAttribute (s insn.nextByte)) = false := by
    rw [hattr]
    decide
  have hvexonly : inatMustVex (makeImm inatImmVword32 ||| inatForce64) = false := by decide
  rw [insnGetOpcode_attr havx hesc, hattr, hvexonly]
  rfl

end Opcode

/-! ## The head -/

section Head

variable (s : Stream) (insn : Insn)

/-- The REX prefix: its field and the operand size change only.
Kind: L -/
theorem insnGetRexPrefix_frame (h : insn.rexPrefix.nbytes = 0) :
    ∃ r o, insnGetRexPrefix s insn =
      { insn with rexPrefix := r, opndBytes := o, nextByte := insn.nextByte + r.nbytes.toNat } := by
  unfold insnGetRexPrefix
  dsimp only
  split_ifs
  · exact ⟨_, _, rfl⟩
  · exact ⟨_, _, rfl⟩
  · exact ⟨insn.rexPrefix, insn.opndBytes, by simp [h]⟩

/-- The VEX prefix: its field and the operand size change only.
Kind: L -/
theorem insnGetVexPrefix_frame (h : insn.vexPrefix.nbytes = 0) :
    ∃ v o, insnGetVexPrefix s insn =
      { insn with vexPrefix := v, opndBytes := o, nextByte := insn.nextByte + v.nbytes.toNat } := by
  unfold insnGetVexPrefix
  dsimp only
  split_ifs
  · exact ⟨_, _, rfl⟩
  · exact ⟨_, _, rfl⟩
  · exact ⟨_, _, rfl⟩
  · exact ⟨insn.vexPrefix, insn.opndBytes, by simp [h]⟩

/-- `insn_get_modrm` changes the ModRM byte, the attribute and the operand size only.
Kind: L -/
theorem insnGetModrm_frame (h : insn.modrm.nbytes = 0) :
    ∃ m a o, insnGetModrm s insn =
      { insn with
        modrm := m, attr := a, opndBytes := o, nextByte := insn.nextByte + m.nbytes.toNat } := by
  obtain ⟨m, a, hbyte⟩ : ∃ m a, insnGetModrmByte s insn =
      { insn with modrm := m, attr := a, nextByte := insn.nextByte + m.nbytes.toNat } := by
    unfold insnGetModrmByte
    dsimp only
    split_ifs
    · exact ⟨_, _, rfl⟩
    · exact ⟨_, _, rfl⟩
    · exact ⟨insn.modrm, insn.attr, by simp [h]⟩
  unfold insnGetModrm
  rw [hbyte]
  dsimp only
  split_ifs
  · exact ⟨_, _, _, rfl⟩
  · exact ⟨_, _, _, rfl⟩

/-- `insn_get_sib` changes the SIB byte only.
Kind: L -/
theorem insnGetSib_frame (h : insn.sib.nbytes = 0) :
    ∃ b, insnGetSib s insn =
      { insn with sib := b, nextByte := insn.nextByte + b.nbytes.toNat } := by
  unfold insnGetSib
  dsimp only
  split_ifs
  · exact ⟨_, rfl⟩
  · exact ⟨insn.sib, by simp [h]⟩

/-- An opcode without ModRM byte goes through the ModRM and SIB stages with at most its operand
size changed.
Kind: L -/
theorem insnGetSib_insnGetModrm_of_not_modrm (hattr : inatHasModrm insn.attr = false)
    (hmodrm : insn.modrm.nbytes = 0) :
    insnGetSib s (insnGetModrm s insn) =
      { insn with opndBytes := if inatIsForce64 insn.attr then 8 else insn.opndBytes } := by
  have hbyte : insnGetModrmByte s insn = insn := by
    simp only [insnGetModrmByte, hattr, Bool.false_eq_true, if_false]
  unfold insnGetModrm
  rw [hbyte]
  dsimp only
  split_ifs
  · simp only [insnGetSib, hmodrm, ne_eq, not_true_eq_false, false_and, if_false]
  · simp only [insnGetSib, hmodrm, ne_eq, not_true_eq_false, false_and, if_false]

end Head

/-- What holds of a head: everything up to the SIB byte.
Kind: D -/
structure HeadShape (head : Insn) : Prop where
  /-- The address size is four or eight bytes. -/
  addr : head.addrBytes = 4 ∨ head.addrBytes = 8
  /-- The displacement comes next, where `insn_offset_displacement` says. -/
  offset : head.nextByte < 256 → head.offsetDisplacement = head.nextByte
  /-- No displacement yet. -/
  displacement : head.displacement.nbytes = 0
  /-- A relative branch has no ModRM byte. -/
  relBranch : head.relBranch = true → head.modrm.nbytes = 0
  /-- `E8` and `E9` take a 32-bit immediate. -/
  callJmp : head.relBranch = true → head.opCallJmp = true →
    head.attr = makeImm inatImmVword32 ||| inatForce64 ∧ head.opndBytes = 8

/-- The stages after the prefix scan give a head.
Kind: L -/
theorem Scanned.insnRest {insn : Insn} (h : Scanned insn) (s : Stream) :
    HeadShape (insnRest s insn) := by
  unfold X86.insnRest
  obtain ⟨r, o, hrex⟩ := insnGetRexPrefix_frame s insn h.rex
  obtain ⟨v, o', hvex⟩ := insnGetVexPrefix_frame s (insnGetRexPrefix s insn) (by rw [hrex, h.vex])
  rw [hrex] at hvex ⊢
  rw [hvex]
  generalize hpre : ({ insn with
      rexPrefix := r, opndBytes := o', vexPrefix := v,
      nextByte := insn.nextByte + r.nbytes.toNat + v.nbytes.toNat } : Insn) = pre
  obtain ⟨c, a, hopc⟩ := insnGetOpcode_frame s pre
  have hmodrm : (insnGetOpcode s pre).modrm.nbytes = 0 := by
    rw [hopc, ← hpre, h.modrm]
  obtain ⟨m, a', o'', hmod⟩ := insnGetModrm_frame s (insnGetOpcode s pre) hmodrm
  obtain ⟨b, hsib⟩ := insnGetSib_frame s (insnGetModrm s (insnGetOpcode s pre))
    (by rw [hmod, hopc, ← hpre, h.sib])
  -- the ModRM and SIB stages leave the opcode and the VEX prefix alone
  have hcall : (insnGetSib s (insnGetModrm s (insnGetOpcode s pre))).opCallJmp =
      (insnGetOpcode s pre).opCallJmp := by
    rw [hsib, hmod]
    rfl
  have hbranch : (insnGetSib s (insnGetModrm s (insnGetOpcode s pre))).relBranch =
      (insnGetOpcode s pre).relBranch := by
    rw [hsib, hmod]
    rfl
  refine ⟨?_, ?_, ?_, ?_, ?_⟩
  · rw [hsib, hmod, hopc, ← hpre]
    exact h.addr
  · intro hlt
    rw [hsib, hmod, hopc, ← hpre] at hlt ⊢
    have hpfx : insn.prefixes.nbytes.toNat = insn.nextByte := by
      rw [h.nbytes, BitVec.toNat_ofNat]
      exact Nat.mod_eq_of_lt (by dsimp only at hlt; omega)
    simp only [Insn.offsetDisplacement, Insn.offsetModrm, hpfx]
  · rw [hsib, hmod, hopc, ← hpre]
    exact h.displacement
  · intro hrel
    rw [hbranch] at hrel
    rw [insnGetSib_insnGetModrm_of_not_modrm s _ (insnGetOpcode_relBranch hrel) hmodrm]
    exact hmodrm
  · intro hrel hop
    rw [hbranch] at hrel
    rw [hcall] at hop
    rw [insnGetSib_insnGetModrm_of_not_modrm s _ (insnGetOpcode_relBranch hrel) hmodrm]
    have havx : pre.isAvx = false := by
      simp only [Insn.relBranch, decide_eq_true_eq] at hrel
      rw [← insnGetOpcode_isAvx]
      exact hrel.1
    have hattr := insnGetOpcode_callJmp havx hop
    have hforce : inatIsForce64 (makeImm inatImmVword32 ||| inatForce64) = true := by decide
    refine ⟨hattr, ?_⟩
    dsimp only
    rw [hattr, if_pos hforce]

/-- **The shape of a head.**
Kind: P -/
theorem insnHead_shape {s : Stream} {head : Insn} (h : insnHead s = some head) :
    HeadShape head := by
  rw [insnHead_eq] at h
  obtain ⟨r, hscan, rfl⟩ := Option.map_eq_some_iff.1 h
  exact ((scanned_init.scanPrefixes hscan).setLastPrefix _ _).insnRest s

end Togpu.X86
