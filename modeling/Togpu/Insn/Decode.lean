import Mathlib.Data.Fin.VecNotation
import Togpu.Lib.Bytes
import Togpu.Lib.Stream
import Togpu.Insn.Inat

/-!
# The instruction decoder

`insn.c` for a 64-bit kernel (`x86_64 = 1`): prefixes, opcode, ModRM, SIB, displacement,
immediates, length. An instruction is read from the byte stream that starts at its address, so
positions are offsets from `kaddr`.

* `Insn` — `struct insn`. `insn_get_length` runs every stage once and in order, so the `got`
  flags, which only skip stages already run, are not kept.
* `insnGetPrefixes`, …, `insnGetLength` — the stages, under the source's names.
* `insnGetLength` gives `none` when the prefix scan never ends: the stream repeats after `2 ^ 64`
  bytes, so a scan that is not over by then goes on for ever.
-/

namespace Togpu.X86

open Togpu.Lib

/-! ## The decoded instruction -/

/-- A `struct insn_field` used through `bytes`.
Source: `insn.h` 26–34
Kind: D -/
structure InsnBytes where
  /-- `bytes[4]`. -/
  bytes : Fin 4 → BitVec 8
  /-- `nbytes`, an `unsigned char`. -/
  nbytes : BitVec 8

/-- A `struct insn_field` used through `value`.
Source: `insn.h` 26–34
Kind: D -/
structure InsnField where
  /-- `value`. -/
  value : BitVec 32
  /-- `nbytes`, an `unsigned char`. -/
  nbytes : BitVec 8

/-- `struct insn`. The unions `immediate`/`moffset1`/`immediate1` and `moffset2`/`immediate2` are
one field each.
Source: `insn.h` 36–69
Kind: D -/
structure Insn where
  /-- Legacy prefixes; `bytes[3]` is the last one. -/
  prefixes : InsnBytes
  /-- The REX prefix. -/
  rexPrefix : InsnField
  /-- The VEX prefix. -/
  vexPrefix : InsnBytes
  /-- The opcode bytes. -/
  opcode : InsnBytes
  /-- The ModRM byte. -/
  modrm : InsnField
  /-- The SIB byte. -/
  sib : InsnField
  /-- The displacement, sign-extended. -/
  displacement : InsnField
  /-- The first immediate, sign-extended. -/
  immediate : InsnField
  /-- The second immediate. -/
  immediate2 : InsnField
  /-- The attribute of the opcode. -/
  attr : ℕ
  /-- Operand size in bytes. -/
  opndBytes : BitVec 8
  /-- Address size in bytes. -/
  addrBytes : BitVec 8
  /-- The length, an `unsigned char`. -/
  length : BitVec 8
  /-- `next_byte - kaddr`. -/
  nextByte : ℕ

/-- `insn_init` with `x86_64 = 1`.
Source: `insn.c` 41–52
Kind: D -/
def kernelInsnInit : Insn where
  prefixes := ⟨fun _ => 0, 0⟩
  rexPrefix := ⟨0, 0⟩
  vexPrefix := ⟨fun _ => 0, 0⟩
  opcode := ⟨fun _ => 0, 0⟩
  modrm := ⟨0, 0⟩
  sib := ⟨0, 0⟩
  displacement := ⟨0, 0⟩
  immediate := ⟨0, 0⟩
  immediate2 := ⟨0, 0⟩
  attr := 0
  opndBytes := 4
  addrBytes := 8
  length := 0
  nextByte := 0

/-- `X86_MODRM_MOD`. Source: `insn.h` -/
def modrmMod (modrm : BitVec 8) : BitVec 8 := (modrm &&& 0xc0) >>> 6

/-- `X86_MODRM_RM`. Source: `insn.h` -/
def modrmRm (modrm : BitVec 8) : BitVec 8 := modrm &&& 0x07

/-- `X86_SIB_BASE`. Source: `insn.h` -/
def sibBase (sib : BitVec 8) : BitVec 8 := sib &&& 0x07

/-- `insn_last_prefix`. Source: `insn.h` -/
def Insn.lastPrefix (insn : Insn) : BitVec 8 := insn.prefixes.bytes 3

/-- `insn_is_avx`: the VEX field is not zero. Source: `insn.h` -/
def Insn.isAvx (insn : Insn) : Bool := decide (insn.vexPrefix.bytes ≠ fun _ => 0)

/-- `insn_vex_m_bits`. Source: `insn.h` -/
def Insn.vexMBits (insn : Insn) : BitVec 8 :=
  if insn.vexPrefix.nbytes = 2 then 1 else insn.vexPrefix.bytes 1 &&& 0x1f

/-- `insn_vex_p_bits`. Source: `insn.h` -/
def Insn.vexPBits (insn : Insn) : BitVec 8 :=
  if insn.vexPrefix.nbytes = 2 then insn.vexPrefix.bytes 1 &&& 0x03
  else insn.vexPrefix.bytes 2 &&& 0x03

/-- `insn_offset_modrm`. Source: `insn.h` 155–170 -/
def Insn.offsetModrm (insn : Insn) : ℕ :=
  insn.prefixes.nbytes.toNat + insn.rexPrefix.nbytes.toNat + insn.vexPrefix.nbytes.toNat +
    insn.opcode.nbytes.toNat

/-- `insn_offset_displacement`. Source: `insn.h` 171–178 -/
def Insn.offsetDisplacement (insn : Insn) : ℕ :=
  insn.offsetModrm + insn.modrm.nbytes.toNat + insn.sib.nbytes.toNat

/-- `insn_offset_immediate`. Source: `insn.h` 179–182 -/
def Insn.offsetImmediate (insn : Insn) : ℕ :=
  insn.offsetDisplacement + insn.displacement.nbytes.toNat

/-- `insn_rip_relative`.
Source: `insn.c` 255–268
Kind: D -/
def Insn.ripRelative (insn : Insn) : Bool :=
  insn.modrm.nbytes ≠ 0 ∧ insn.modrm.value &&& 0xc7 = 0x5

/-! ## Prefixes -/

/-- Is `b` among the first `nb` prefixes?
Source: `insn.c` 77–80
Kind: D -/
def Insn.hasPrefix (insn : Insn) (nb : ℕ) (b : BitVec 8) : Bool :=
  decide (∃ k : Fin 4, k.val < nb ∧ insn.prefixes.bytes k = b)

/-- Record the new prefix `b` as number `nb`.
Source: `insn.c` 84–94
Kind: D -/
def Insn.addPrefix (insn : Insn) (nb : ℕ) (b : BitVec 8) : Insn :=
  let attr := inatGetOpcodeAttribute b
  { insn with
    prefixes := { insn.prefixes with
      bytes := Function.update insn.prefixes.bytes (Fin.ofNat 4 nb) b }
    addrBytes := if inatIsAddressSizePrefix attr then insn.addrBytes ^^^ 12 else insn.addrBytes
    opndBytes :=
      if ¬ inatIsAddressSizePrefix attr ∧ inatIsOperandSizePrefix attr then insn.opndBytes ^^^ 6
      else insn.opndBytes }

/-- Count one prefix byte and step over it.
Source: `insn.c` 95–97
Kind: D -/
def Insn.skipPrefix (insn : Insn) : Insn :=
  { insn with
    prefixes := { insn.prefixes with nbytes := insn.prefixes.nbytes + 1 }
    nextByte := insn.nextByte + 1 }

/-- The scan of the legacy prefixes: the instruction, the number of different prefixes and the
last prefix. A repeated prefix is skipped; a fifth different one ends the scan.
Source: `insn.c` 72–101
Kind: D -/
def scanPrefixes (s : Stream) : ℕ → Insn → ℕ → BitVec 8 → Option (Insn × ℕ × BitVec 8)
  | 0, _, _, _ => none
  | fuel + 1, insn, nb, lb =>
      let b := s insn.nextByte
      if inatIsLegacyPrefix (inatGetOpcodeAttribute b) then
        if insn.hasPrefix nb b then scanPrefixes s fuel insn.skipPrefix nb b
        else if nb = 4 then some (insn, nb, lb)
        else scanPrefixes s fuel (insn.addPrefix nb b).skipPrefix (nb + 1) b
      else some (insn, nb, lb)

/-- Put the last prefix in `bytes[3]`, swapping it with what stood there.
Source: `insn.c` 102–112
Kind: D -/
def Insn.setLastPrefix (insn : Insn) (nb : ℕ) (lb : BitVec 8) : Insn :=
  let old := insn.prefixes.bytes 3
  if lb ≠ 0 ∧ lb ≠ old then
    let swapped : Fin 4 → BitVec 8 :=
      if old ≠ 0 then
        fun k => if k.val < nb ∧ insn.prefixes.bytes k = lb then old else insn.prefixes.bytes k
      else insn.prefixes.bytes
    { insn with prefixes := { insn.prefixes with bytes := Function.update swapped 3 lb } }
  else insn

/-- The REX prefix; `REX.W` sets the operand size.
Source: `insn.c` 114–126
Kind: D -/
def insnGetRexPrefix (s : Stream) (insn : Insn) : Insn :=
  let b := s insn.nextByte
  if inatIsRexPrefix (inatGetOpcodeAttribute b) then
    { insn with
      rexPrefix := ⟨b.setWidth 32, 1⟩
      opndBytes := if b &&& 8 ≠ 0 then 8 else insn.opndBytes
      nextByte := insn.nextByte + 1 }
  else insn

/-- The VEX prefix; `VEX.W` of the three-byte form sets the operand size.
Source: `insn.c` 129–157
Kind: D -/
def insnGetVexPrefix (s : Stream) (insn : Insn) : Insn :=
  let b := s insn.nextByte
  let attr := inatGetOpcodeAttribute b
  if inatIsVexPrefix attr then
    let b2 := s (insn.nextByte + 1)
    if inatIsVex3Prefix attr then
      let b3 := s (insn.nextByte + 2)
      { insn with
        vexPrefix := ⟨![b, b2, b3, 0], 3⟩
        opndBytes := if b3 &&& 0x80 ≠ 0 then 8 else insn.opndBytes
        nextByte := insn.nextByte + 3 }
    else
      { insn with
        vexPrefix := ⟨![b, b2, 0, 0], 2⟩
        nextByte := insn.nextByte + 2 }
  else insn

/-- `insn_get_prefixes`.
Source: `insn.c` 62–163
Kind: D -/
def insnGetPrefixes (s : Stream) (insn : Insn) : Option Insn :=
  (scanPrefixes s (2 ^ 64) insn 0 0).map fun (insn, nb, lb) =>
    insnGetVexPrefix s (insnGetRexPrefix s (insn.setLastPrefix nb lb))

/-! ## Opcode, ModRM, SIB -/

/-- The first opcode byte and its attribute; under a VEX prefix the attribute comes from the AVX
tables.
Source: `insn.c` 184–200
Kind: D -/
def insnGetOpcode1 (s : Stream) (insn : Insn) : Insn :=
  let op := s insn.nextByte
  let avx := inatGetAvxAttribute op insn.vexMBits.toNat insn.vexPBits.toNat
  { insn with
    opcode := ⟨![op, 0, 0, 0], 1⟩
    attr :=
      if insn.isAvx then (if inatAcceptVex avx then avx else 0)
      else inatGetOpcodeAttribute op
    nextByte := insn.nextByte + 1 }

/-- One escaped opcode byte.
Source: `insn.c` 202–206
Kind: D -/
def insnGetEscape (s : Stream) (insn : Insn) : Insn :=
  let op := s insn.nextByte
  { insn with
    opcode :=
      ⟨Function.update insn.opcode.bytes (Fin.ofNat 4 insn.opcode.nbytes.toNat) op,
        insn.opcode.nbytes + 1⟩
    attr := inatGetEscapeAttribute op insn.lastPrefix insn.attr
    nextByte := insn.nextByte + 1 }

/-- The escaped opcode bytes. No escape leads from the second or third table, so three rounds are
enough (`insnGetEscapes_done`).
Source: `insn.c` 201–207
Kind: D -/
def insnGetEscapes (s : Stream) : ℕ → Insn → Insn
  | 0, insn => insn
  | n + 1, insn =>
      if inatIsEscape insn.attr then insnGetEscapes s n (insnGetEscape s insn) else insn

/-- `insn_get_opcode`.
Source: `insn.c` 175–212
Kind: D -/
def insnGetOpcode (s : Stream) (insn : Insn) : Insn :=
  let first := insnGetOpcode1 s insn
  if insn.isAvx then first
  else
    let last := insnGetEscapes s 3 first
    if inatMustVex last.attr then { last with attr := 0 } else last

/-- The ModRM byte, and the attribute of a group.
Source: `insn.c` 231–240
Kind: D -/
def insnGetModrmByte (s : Stream) (insn : Insn) : Insn :=
  if inatHasModrm insn.attr then
    let mod := s insn.nextByte
    { insn with
      modrm := ⟨mod.setWidth 32, 1⟩
      attr :=
        if inatIsGroup insn.attr then inatGetGroupAttribute mod insn.lastPrefix insn.attr
        else insn.attr
      nextByte := insn.nextByte + 1 }
  else insn

/-- `insn_get_modrm`.
Source: `insn.c` 222–245
Kind: D -/
def insnGetModrm (s : Stream) (insn : Insn) : Insn :=
  let insn := insnGetModrmByte s insn
  if inatIsForce64 insn.attr then { insn with opndBytes := 8 } else insn

/-- `insn_get_sib`.
Source: `insn.c` 277–294
Kind: D -/
def insnGetSib (s : Stream) (insn : Insn) : Insn :=
  let modrm := insn.modrm.value.setWidth 8
  if insn.modrm.nbytes ≠ 0 ∧ insn.addrBytes ≠ 2 ∧ modrmMod modrm ≠ 3 ∧ modrmRm modrm = 4 then
    { insn with
      sib := ⟨(s insn.nextByte).setWidth 32, 1⟩
      nextByte := insn.nextByte + 1 }
  else insn

/-! ## Displacement and immediates -/

/-- `get_next` of a signed type of `n` bytes, extended to `insn_value_t`.
Source: `insn.c` 26–27
Kind: D -/
def readSigned (s : Stream) (pos n : ℕ) : BitVec 32 :=
  (BitVec.ofNat (8 * n) (leNat s pos n)).signExtend 32

/-- Read `n` bytes of displacement.
Kind: D -/
def readDisplacement (n : ℕ) (s : Stream) (insn : Insn) : Insn :=
  { insn with
    displacement := ⟨readSigned s insn.nextByte n, BitVec.ofNat 8 n⟩
    nextByte := insn.nextByte + n }

/-- Read `n` bytes of the first immediate.
Kind: D -/
def readImmediate (n : ℕ) (s : Stream) (insn : Insn) : Insn :=
  { insn with
    immediate := ⟨readSigned s insn.nextByte n, BitVec.ofNat 8 n⟩
    nextByte := insn.nextByte + n }

/-- Read `n` bytes of the second immediate.
Kind: D -/
def readImmediate2 (n : ℕ) (s : Stream) (insn : Insn) : Insn :=
  { insn with
    immediate2 := ⟨readSigned s insn.nextByte n, BitVec.ofNat 8 n⟩
    nextByte := insn.nextByte + n }

/-- Read the 16-bit segment of a far pointer, the one unsigned immediate.
Source: `insn.c` 433–434
Kind: D -/
def readSegment (s : Stream) (insn : Insn) : Insn :=
  { insn with
    immediate2 := ⟨BitVec.ofNat 32 (leNat s insn.nextByte 2), 2⟩
    nextByte := insn.nextByte + 2 }

/-- `insn_get_displacement`.
Source: `insn.c` 305–353
Kind: D -/
def insnGetDisplacement (s : Stream) (insn : Insn) : Insn :=
  let mod := modrmMod (insn.modrm.value.setWidth 8)
  let rm := modrmRm (insn.modrm.value.setWidth 8)
  let base := sibBase (insn.sib.value.setWidth 8)
  if insn.modrm.nbytes = 0 ∨ mod = 3 then insn
  else if mod = 1 then readDisplacement 1 s insn
  else if insn.addrBytes = 2 then
    if (mod = 0 ∧ rm = 6) ∨ mod = 2 then readDisplacement 2 s insn else insn
  else if (mod = 0 ∧ rm = 5) ∨ mod = 2 ∨ (mod = 0 ∧ base = 5) then readDisplacement 4 s insn
  else insn

/-- `__get_moffset`.
Source: `insn.c` 357–376
Kind: D -/
def getMoffset (s : Stream) (insn : Insn) : Insn :=
  if insn.addrBytes = 2 then readImmediate 2 s insn
  else if insn.addrBytes = 4 then readImmediate 4 s insn
  else if insn.addrBytes = 8 then readImmediate2 4 s (readImmediate 4 s insn)
  else insn

/-- `__get_immv32`.
Source: `insn.c` 379–392
Kind: D -/
def getImmv32 (s : Stream) (insn : Insn) : Insn :=
  if insn.opndBytes = 2 then readImmediate 2 s insn
  else if insn.opndBytes = 4 ∨ insn.opndBytes = 8 then readImmediate 4 s insn
  else insn

/-- `__get_immv`.
Source: `insn.c` 395–414
Kind: D -/
def getImmv (s : Stream) (insn : Insn) : Insn :=
  if insn.opndBytes = 2 then readImmediate 2 s insn
  else if insn.opndBytes = 4 then readImmediate 4 s insn
  else if insn.opndBytes = 8 then readImmediate2 4 s (readImmediate 4 s insn)
  else insn

/-- `__get_immptr`: there is no `ptr16:64`.
Source: `insn.c` 417–436
Kind: D -/
def getImmptr (s : Stream) (insn : Insn) : Insn :=
  if insn.opndBytes = 8 then insn
  else if insn.opndBytes = 2 then readSegment s (readImmediate 2 s insn)
  else if insn.opndBytes = 4 then readSegment s (readImmediate 4 s insn)
  else readSegment s insn

/-- The immediate the attribute asks for.
Source: `insn.c` 463–493
Kind: D -/
def getFirstImmediate (s : Stream) (insn : Insn) : Insn :=
  if inatImmediateSize insn.attr = inatImmByte then readImmediate 1 s insn
  else if inatImmediateSize insn.attr = inatImmWord then readImmediate 2 s insn
  else if inatImmediateSize insn.attr = inatImmDword then readImmediate 4 s insn
  else if inatImmediateSize insn.attr = inatImmQword then
    readImmediate2 4 s (readImmediate 4 s insn)
  else if inatImmediateSize insn.attr = inatImmPtr then getImmptr s insn
  else if inatImmediateSize insn.attr = inatImmVword32 then getImmv32 s insn
  else if inatImmediateSize insn.attr = inatImmVword then getImmv s insn
  else insn

/-- The second immediate, if there is one.
Source: `insn.c` 494–497
Kind: D -/
def getSecondImmediate (s : Stream) (insn : Insn) : Insn :=
  if inatHasSecondImmediate insn.attr then readImmediate2 1 s insn else insn

/-- `insn_get_immediate`.
Source: `insn.c` 447–500
Kind: D -/
def insnGetImmediate (s : Stream) (insn : Insn) : Insn :=
  if inatHasMoffset insn.attr then getMoffset s insn
  else if inatHasImmediate insn.attr then getSecondImmediate s (getFirstImmediate s insn)
  else insn

/-! ## The whole instruction -/

/-- Everything up to the SIB byte: what decides where the offset fields lie.
Kind: D -/
def insnHead (s : Stream) : Option Insn :=
  (insnGetPrefixes s kernelInsnInit).map fun insn =>
    insnGetSib s (insnGetModrm s (insnGetOpcode s insn))

/-- `insn_get_length` after `kernel_insn_init`: the whole instruction at the start of the stream.
The length is the distance from `kaddr`, cut to an `unsigned char`.
Source: `insn.c` 509–517
Kind: D -/
def insnGetLength (s : Stream) : Option Insn :=
  (insnHead s).map fun head =>
    let insn := insnGetImmediate s (insnGetDisplacement s head)
    { insn with length := BitVec.ofNat 8 insn.nextByte }

end Togpu.X86
