import Mathlib.Data.Nat.Notation

/-!
# Opcode attributes

The attribute of an opcode says what follows it: a prefix number, an escape to another table, a
group, the size of the immediate, and flags. `inat.c` looks it up in tables generated from the
opcode map.

* Attributes are bit sets, as in `inat.h`; all of them are below `2 ^ 21`.
* A table is a list of entries `(first, last, attribute)`: the designated initialisers of
  `inat-tables.h` with runs of equal attributes joined. What is not listed is zero.
* `inatGetOpcodeAttribute`, `inatGetEscapeAttribute`, `inatGetGroupAttribute`,
  `inatGetAvxAttribute` — the lookups.
-/

namespace Togpu.X86

/-! ## Attributes -/

/-- `INAT_PFX_OPNDSZ`, the prefix `66`. Source: `inat.h` -/
def inatPfxOpndsz : ℕ := 1

/-- `INAT_PFX_REPE`, the prefix `F3`. Source: `inat.h` -/
def inatPfxRepe : ℕ := 2

/-- `INAT_PFX_REPNE`, the prefix `F2`. Source: `inat.h` -/
def inatPfxRepne : ℕ := 3

/-- `INAT_PFX_LOCK`, the prefix `F0`. Source: `inat.h` -/
def inatPfxLock : ℕ := 4

/-- `INAT_PFX_CS`, the prefix `2E`. Source: `inat.h` -/
def inatPfxCs : ℕ := 5

/-- `INAT_PFX_DS`, the prefix `3E`. Source: `inat.h` -/
def inatPfxDs : ℕ := 6

/-- `INAT_PFX_ES`, the prefix `26`. Source: `inat.h` -/
def inatPfxEs : ℕ := 7

/-- `INAT_PFX_FS`, the prefix `64`. Source: `inat.h` -/
def inatPfxFs : ℕ := 8

/-- `INAT_PFX_GS`, the prefix `65`. Source: `inat.h` -/
def inatPfxGs : ℕ := 9

/-- `INAT_PFX_SS`, the prefix `36`. Source: `inat.h` -/
def inatPfxSs : ℕ := 10

/-- `INAT_PFX_ADDRSZ`, the prefix `67`. Source: `inat.h` -/
def inatPfxAddrsz : ℕ := 11

/-- `INAT_PFX_REX`, the prefixes `40`–`4F`. Source: `inat.h` -/
def inatPfxRex : ℕ := 12

/-- `INAT_PFX_VEX2`, the prefix `C5`. Source: `inat.h` -/
def inatPfxVex2 : ℕ := 13

/-- `INAT_PFX_VEX3`, the prefix `C4`. Source: `inat.h` -/
def inatPfxVex3 : ℕ := 14

/-- `INAT_IMM_BYTE`. Source: `inat.h` -/
def inatImmByte : ℕ := 1

/-- `INAT_IMM_WORD`. Source: `inat.h` -/
def inatImmWord : ℕ := 2

/-- `INAT_IMM_DWORD`. Source: `inat.h` -/
def inatImmDword : ℕ := 3

/-- `INAT_IMM_QWORD`. Source: `inat.h` -/
def inatImmQword : ℕ := 4

/-- `INAT_IMM_PTR`. Source: `inat.h` -/
def inatImmPtr : ℕ := 5

/-- `INAT_IMM_VWORD32`. Source: `inat.h` -/
def inatImmVword32 : ℕ := 6

/-- `INAT_IMM_VWORD`. Source: `inat.h` -/
def inatImmVword : ℕ := 7

/-- `INAT_PFX_MASK`, bits 0–3. Source: `inat.h` -/
def inatPfxMask : ℕ := 0xf

/-- `INAT_ESC_MASK`, bits 4–5. Source: `inat.h` -/
def inatEscMask : ℕ := 0x3 <<< 4

/-- `INAT_GRP_MASK`, bits 6–10. Source: `inat.h` -/
def inatGrpMask : ℕ := 0x1f <<< 6

/-- `INAT_IMM_MASK`, bits 11–13. Source: `inat.h` -/
def inatImmMask : ℕ := 0x7 <<< 11

/-- `INAT_MODRM`. Source: `inat.h` -/
def inatModrm : ℕ := 1 <<< 14

/-- `INAT_FORCE64`. Source: `inat.h` -/
def inatForce64 : ℕ := 1 <<< 15

/-- `INAT_SCNDIMM`. Source: `inat.h` -/
def inatScndimm : ℕ := 1 <<< 16

/-- `INAT_MOFFSET`. Source: `inat.h` -/
def inatMoffset : ℕ := 1 <<< 17

/-- `INAT_VARIANT`. Source: `inat.h` -/
def inatVariant : ℕ := 1 <<< 18

/-- `INAT_VEXOK`. Source: `inat.h` -/
def inatVexok : ℕ := 1 <<< 19

/-- `INAT_VEXONLY`. Source: `inat.h` -/
def inatVexonly : ℕ := 1 <<< 20

/-- `INAT_MAKE_PREFIX`. Source: `inat.h` -/
def makePrefix (pfx : ℕ) : ℕ := pfx

/-- `INAT_MAKE_ESCAPE`. Source: `inat.h` -/
def makeEscape (esc : ℕ) : ℕ := esc <<< 4

/-- `INAT_MAKE_GROUP`. Source: `inat.h` -/
def makeGroup (grp : ℕ) : ℕ := grp <<< 6 ||| inatModrm

/-- `INAT_MAKE_IMM`. Source: `inat.h` -/
def makeImm (imm : ℕ) : ℕ := imm <<< 11

/-- The attribute has a bit of the mask: the checks `attr & MASK` of `inat.h`.
Kind: D -/
def hasBits (attr mask : ℕ) : Bool := attr &&& mask ≠ 0

/-- `inat_is_legacy_prefix`: `INAT_LGCPFX_MAX` is 11. Source: `inat.h` -/
def inatIsLegacyPrefix (attr : ℕ) : Bool :=
  attr &&& inatPfxMask ≠ 0 ∧ attr &&& inatPfxMask ≤ 11

/-- `inat_is_address_size_prefix`. Source: `inat.h` -/
def inatIsAddressSizePrefix (attr : ℕ) : Bool := attr &&& inatPfxMask = inatPfxAddrsz

/-- `inat_is_operand_size_prefix`. Source: `inat.h` -/
def inatIsOperandSizePrefix (attr : ℕ) : Bool := attr &&& inatPfxMask = inatPfxOpndsz

/-- `inat_is_rex_prefix`. Source: `inat.h` -/
def inatIsRexPrefix (attr : ℕ) : Bool := attr &&& inatPfxMask = inatPfxRex

/-- `inat_last_prefix_id`: `INAT_LSTPFX_MAX` is 3. Source: `inat.h` -/
def inatLastPrefixId (attr : ℕ) : ℕ :=
  if attr &&& inatPfxMask > 3 then 0 else attr &&& inatPfxMask

/-- `inat_is_vex_prefix`. Source: `inat.h` -/
def inatIsVexPrefix (attr : ℕ) : Bool :=
  attr &&& inatPfxMask = inatPfxVex2 ∨ attr &&& inatPfxMask = inatPfxVex3

/-- `inat_is_vex3_prefix`. Source: `inat.h` -/
def inatIsVex3Prefix (attr : ℕ) : Bool := attr &&& inatPfxMask = inatPfxVex3

/-- `inat_is_escape`. Source: `inat.h` -/
def inatIsEscape (attr : ℕ) : Bool := hasBits attr inatEscMask

/-- `inat_escape_id`. Source: `inat.h` -/
def inatEscapeId (attr : ℕ) : ℕ := (attr &&& inatEscMask) >>> 4

/-- `inat_is_group`. Source: `inat.h` -/
def inatIsGroup (attr : ℕ) : Bool := hasBits attr inatGrpMask

/-- `inat_group_id`. Source: `inat.h` -/
def inatGroupId (attr : ℕ) : ℕ := (attr &&& inatGrpMask) >>> 6

/-- `inat_group_common_attribute`, `attr & ~INAT_GRP_MASK` on 32 bits. Source: `inat.h` -/
def inatGroupCommonAttribute (attr : ℕ) : ℕ := attr &&& (0xffffffff ^^^ inatGrpMask)

/-- `inat_has_immediate`. Source: `inat.h` -/
def inatHasImmediate (attr : ℕ) : Bool := hasBits attr inatImmMask

/-- `inat_immediate_size`. Source: `inat.h` -/
def inatImmediateSize (attr : ℕ) : ℕ := (attr &&& inatImmMask) >>> 11

/-- `inat_has_modrm`. Source: `inat.h` -/
def inatHasModrm (attr : ℕ) : Bool := hasBits attr inatModrm

/-- `inat_is_force64`. Source: `inat.h` -/
def inatIsForce64 (attr : ℕ) : Bool := hasBits attr inatForce64

/-- `inat_has_second_immediate`. Source: `inat.h` -/
def inatHasSecondImmediate (attr : ℕ) : Bool := hasBits attr inatScndimm

/-- `inat_has_moffset`. Source: `inat.h` -/
def inatHasMoffset (attr : ℕ) : Bool := hasBits attr inatMoffset

/-- `inat_has_variant`. Source: `inat.h` -/
def inatHasVariant (attr : ℕ) : Bool := hasBits attr inatVariant

/-- `inat_accept_vex`. Source: `inat.h` -/
def inatAcceptVex (attr : ℕ) : Bool := hasBits attr inatVexok

/-- `inat_must_vex`. Source: `inat.h` -/
def inatMustVex (attr : ℕ) : Bool := hasBits attr inatVexonly

/-! ## Tables -/

/-- `table[i]`.
Kind: D -/
def tableEntry (table : List (ℕ × ℕ × ℕ)) (i : ℕ) : ℕ :=
  match table.find? fun r => r.1 ≤ i ∧ i ≤ r.2.1 with
  | some r => r.2.2
  | none => 0

/-- `inat_primary_table`.
Source: `inat-tables.h` 5–202
Kind: D -/
def inatPrimaryTable : List (ℕ × ℕ × ℕ) :=
  [(0x00, 0x03, inatModrm), (0x04, 0x04, makeImm inatImmByte),
    (0x05, 0x05, makeImm inatImmVword32), (0x08, 0x0b, inatModrm),
    (0x0c, 0x0c, makeImm inatImmByte), (0x0d, 0x0d, makeImm inatImmVword32),
    (0x0f, 0x0f, makeEscape 1), (0x10, 0x13, inatModrm), (0x14, 0x14, makeImm inatImmByte),
    (0x15, 0x15, makeImm inatImmVword32), (0x18, 0x1b, inatModrm),
    (0x1c, 0x1c, makeImm inatImmByte), (0x1d, 0x1d, makeImm inatImmVword32),
    (0x20, 0x23, inatModrm), (0x24, 0x24, makeImm inatImmByte),
    (0x25, 0x25, makeImm inatImmVword32), (0x26, 0x26, makePrefix inatPfxEs),
    (0x28, 0x2b, inatModrm), (0x2c, 0x2c, makeImm inatImmByte),
    (0x2d, 0x2d, makeImm inatImmVword32), (0x2e, 0x2e, makePrefix inatPfxCs),
    (0x30, 0x33, inatModrm), (0x34, 0x34, makeImm inatImmByte),
    (0x35, 0x35, makeImm inatImmVword32), (0x36, 0x36, makePrefix inatPfxSs),
    (0x38, 0x3b, inatModrm), (0x3c, 0x3c, makeImm inatImmByte),
    (0x3d, 0x3d, makeImm inatImmVword32), (0x3e, 0x3e, makePrefix inatPfxDs),
    (0x40, 0x4f, makePrefix inatPfxRex), (0x50, 0x5f, inatForce64), (0x62, 0x62, inatModrm),
    (0x63, 0x63, inatModrm ||| inatModrm), (0x64, 0x64, makePrefix inatPfxFs),
    (0x65, 0x65, makePrefix inatPfxGs), (0x66, 0x66, makePrefix inatPfxOpndsz),
    (0x67, 0x67, makePrefix inatPfxAddrsz), (0x68, 0x68, makeImm inatImmVword32 ||| inatForce64),
    (0x69, 0x69, makeImm inatImmVword32 ||| inatModrm),
    (0x6a, 0x6a, makeImm inatImmByte ||| inatForce64),
    (0x6b, 0x6b, makeImm inatImmByte ||| inatModrm), (0x70, 0x7f, makeImm inatImmByte),
    (0x80, 0x80, makeImm inatImmByte ||| inatModrm ||| makeGroup 1),
    (0x81, 0x81, makeImm inatImmVword32 ||| inatModrm ||| makeGroup 1),
    (0x82, 0x83, makeImm inatImmByte ||| inatModrm ||| makeGroup 1), (0x84, 0x8e, inatModrm),
    (0x8f, 0x8f, makeGroup 2 ||| inatModrm ||| inatForce64), (0x9a, 0x9a, makeImm inatImmPtr),
    (0x9c, 0x9d, inatForce64), (0xa0, 0xa3, inatMoffset), (0xa8, 0xa8, makeImm inatImmByte),
    (0xa9, 0xa9, makeImm inatImmVword32), (0xb0, 0xb7, makeImm inatImmByte),
    (0xb8, 0xbf, makeImm inatImmVword),
    (0xc0, 0xc1, makeImm inatImmByte ||| inatModrm ||| makeGroup 3),
    (0xc2, 0xc2, makeImm inatImmWord ||| inatForce64),
    (0xc4, 0xc4, inatModrm ||| makePrefix inatPfxVex3),
    (0xc5, 0xc5, inatModrm ||| makePrefix inatPfxVex2),
    (0xc6, 0xc6, makeImm inatImmByte ||| inatModrm ||| makeGroup 4),
    (0xc7, 0xc7, makeImm inatImmVword32 ||| inatModrm ||| makeGroup 4),
    (0xc8, 0xc8, makeImm inatImmWord ||| inatScndimm), (0xc9, 0xc9, inatForce64),
    (0xca, 0xca, makeImm inatImmWord), (0xcd, 0xcd, makeImm inatImmByte),
    (0xd0, 0xd3, inatModrm ||| makeGroup 3), (0xd4, 0xd5, makeImm inatImmByte),
    (0xd8, 0xdf, inatModrm), (0xe0, 0xe3, makeImm inatImmByte ||| inatForce64),
    (0xe4, 0xe7, makeImm inatImmByte), (0xe8, 0xe9, makeImm inatImmVword32 ||| inatForce64),
    (0xea, 0xea, makeImm inatImmPtr), (0xeb, 0xeb, makeImm inatImmByte ||| inatForce64),
    (0xf0, 0xf0, makePrefix inatPfxLock), (0xf2, 0xf2, makePrefix inatPfxRepne),
    (0xf3, 0xf3, makePrefix inatPfxRepe), (0xf6, 0xf6, inatModrm ||| makeGroup 5),
    (0xf7, 0xf7, inatModrm ||| makeGroup 6), (0xfe, 0xfe, makeGroup 7), (0xff, 0xff, makeGroup 8)]

/-- `inat_escape_table_1`.
Source: `inat-tables.h` 205–415
Kind: D -/
def inatEscapeTable1 : List (ℕ × ℕ × ℕ) :=
  [(0x00, 0x00, makeGroup 9), (0x01, 0x01, makeGroup 10), (0x02, 0x03, inatModrm),
    (0x0d, 0x0d, inatModrm ||| makeGroup 11), (0x0f, 0x0f, makeImm inatImmByte ||| inatModrm),
    (0x10, 0x11, inatModrm ||| inatVexok ||| inatVariant),
    (0x12, 0x12, inatModrm ||| inatVexok ||| inatModrm ||| inatVexok ||| inatVariant),
    (0x13, 0x15, inatModrm ||| inatVexok ||| inatVariant),
    (0x16, 0x16, inatModrm ||| inatVexok ||| inatModrm ||| inatVexok ||| inatVariant),
    (0x17, 0x17, inatModrm ||| inatVexok ||| inatVariant), (0x18, 0x18, makeGroup 12),
    (0x1f, 0x23, inatModrm), (0x28, 0x29, inatModrm ||| inatVexok ||| inatVariant),
    (0x2a, 0x2a, inatModrm ||| inatVariant), (0x2b, 0x2b, inatModrm ||| inatVexok ||| inatVariant),
    (0x2c, 0x2d, inatModrm ||| inatVariant), (0x2e, 0x2f, inatModrm ||| inatVexok ||| inatVariant),
    (0x38, 0x38, makeEscape 2), (0x3a, 0x3a, makeEscape 3), (0x40, 0x4f, inatModrm),
    (0x50, 0x5f, inatModrm ||| inatVexok ||| inatVariant), (0x60, 0x6b, inatModrm ||| inatVariant),
    (0x6c, 0x6d, inatVariant), (0x6e, 0x6f, inatModrm ||| inatVariant),
    (0x70, 0x70, makeImm inatImmByte ||| inatModrm ||| inatVariant), (0x71, 0x71, makeGroup 13),
    (0x72, 0x72, makeGroup 14), (0x73, 0x73, makeGroup 15),
    (0x74, 0x76, inatModrm ||| inatVariant), (0x77, 0x77, inatVexok), (0x78, 0x79, inatModrm),
    (0x7c, 0x7d, inatVariant), (0x7e, 0x7f, inatModrm ||| inatVariant),
    (0x80, 0x8f, makeImm inatImmVword32 ||| inatForce64), (0x90, 0x9f, inatModrm),
    (0xa0, 0xa1, inatForce64), (0xa3, 0xa3, inatModrm),
    (0xa4, 0xa4, makeImm inatImmByte ||| inatModrm), (0xa5, 0xa5, inatModrm),
    (0xa6, 0xa6, makeGroup 16), (0xa7, 0xa7, makeGroup 17), (0xa8, 0xa9, inatForce64),
    (0xab, 0xab, inatModrm), (0xac, 0xac, makeImm inatImmByte ||| inatModrm),
    (0xad, 0xad, inatModrm), (0xae, 0xae, makeGroup 18), (0xaf, 0xb7, inatModrm),
    (0xb8, 0xb8, inatVariant), (0xb9, 0xb9, makeGroup 19),
    (0xba, 0xba, makeImm inatImmByte ||| inatModrm ||| makeGroup 20), (0xbb, 0xc1, inatModrm),
    (0xc2, 0xc2, makeImm inatImmByte ||| inatModrm ||| inatVexok ||| inatVariant),
    (0xc3, 0xc3, inatModrm), (0xc4, 0xc5, makeImm inatImmByte ||| inatModrm ||| inatVariant),
    (0xc6, 0xc6, makeImm inatImmByte ||| inatModrm ||| inatVexok ||| inatVariant),
    (0xc7, 0xc7, makeGroup 21), (0xd0, 0xd0, inatVariant), (0xd1, 0xd5, inatModrm ||| inatVariant),
    (0xd6, 0xd6, inatVariant), (0xd7, 0xe5, inatModrm ||| inatVariant), (0xe6, 0xe6, inatVariant),
    (0xe7, 0xef, inatModrm ||| inatVariant), (0xf0, 0xf0, inatVariant),
    (0xf1, 0xfe, inatModrm ||| inatVariant)]

/-- `inat_escape_table_1_1`.
Source: `inat-tables.h` 416–521
Kind: D -/
def inatEscapeTable1_1 : List (ℕ × ℕ × ℕ) :=
  [(0x10, 0x17, inatModrm ||| inatVexok), (0x28, 0x29, inatModrm ||| inatVexok),
    (0x2a, 0x2a, inatModrm), (0x2b, 0x2b, inatModrm ||| inatVexok), (0x2c, 0x2d, inatModrm),
    (0x2e, 0x2f, inatModrm ||| inatVexok), (0x50, 0x51, inatModrm ||| inatVexok),
    (0x54, 0x6f, inatModrm ||| inatVexok),
    (0x70, 0x70, makeImm inatImmByte ||| inatModrm ||| inatVexok),
    (0x74, 0x76, inatModrm ||| inatVexok), (0x7c, 0x7f, inatModrm ||| inatVexok),
    (0xc2, 0xc2, makeImm inatImmByte ||| inatModrm ||| inatVexok),
    (0xc4, 0xc6, makeImm inatImmByte ||| inatModrm ||| inatVexok),
    (0xd0, 0xef, inatModrm ||| inatVexok), (0xf1, 0xfe, inatModrm ||| inatVexok)]

/-- `inat_escape_table_1_2`.
Source: `inat-tables.h` 522–549
Kind: D -/
def inatEscapeTable1_2 : List (ℕ × ℕ × ℕ) :=
  [(0x10, 0x12, inatModrm ||| inatVexok), (0x16, 0x16, inatModrm ||| inatVexok),
    (0x2a, 0x2a, inatModrm ||| inatVexok), (0x2c, 0x2d, inatModrm ||| inatVexok),
    (0x51, 0x53, inatModrm ||| inatVexok), (0x58, 0x5f, inatModrm ||| inatVexok),
    (0x6f, 0x6f, inatModrm ||| inatVexok),
    (0x70, 0x70, makeImm inatImmByte ||| inatModrm ||| inatVexok),
    (0x7e, 0x7f, inatModrm ||| inatVexok), (0xb8, 0xb8, inatModrm),
    (0xc2, 0xc2, makeImm inatImmByte ||| inatModrm ||| inatVexok), (0xd6, 0xd6, inatModrm),
    (0xe6, 0xe6, inatModrm ||| inatVexok)]

/-- `inat_escape_table_1_3`.
Source: `inat-tables.h` 550–573
Kind: D -/
def inatEscapeTable1_3 : List (ℕ × ℕ × ℕ) :=
  [(0x10, 0x12, inatModrm ||| inatVexok), (0x2a, 0x2a, inatModrm ||| inatVexok),
    (0x2c, 0x2d, inatModrm ||| inatVexok), (0x51, 0x51, inatModrm ||| inatVexok),
    (0x58, 0x5a, inatModrm ||| inatVexok), (0x5c, 0x5f, inatModrm ||| inatVexok),
    (0x70, 0x70, makeImm inatImmByte ||| inatModrm ||| inatVexok),
    (0x7c, 0x7d, inatModrm ||| inatVexok),
    (0xc2, 0xc2, makeImm inatImmByte ||| inatModrm ||| inatVexok),
    (0xd0, 0xd0, inatModrm ||| inatVexok), (0xd6, 0xd6, inatModrm),
    (0xe6, 0xe6, inatModrm ||| inatVexok), (0xf0, 0xf0, inatModrm ||| inatVexok)]

/-- `inat_escape_table_2`.
Source: `inat-tables.h` 576–673
Kind: D -/
def inatEscapeTable2 : List (ℕ × ℕ × ℕ) :=
  [(0x00, 0x0b, inatModrm ||| inatVariant), (0x0c, 0x10, inatVariant), (0x14, 0x15, inatVariant),
    (0x17, 0x1a, inatVariant), (0x1c, 0x1e, inatModrm ||| inatVariant), (0x20, 0x25, inatVariant),
    (0x28, 0x35, inatVariant), (0x37, 0x41, inatVariant), (0x80, 0x81, inatVariant),
    (0x96, 0x9f, inatVariant), (0xa6, 0xaf, inatVariant), (0xb6, 0xbf, inatVariant),
    (0xdb, 0xdf, inatVariant), (0xf0, 0xf1, inatModrm ||| inatVariant)]

/-- `inat_escape_table_2_1`.
Source: `inat-tables.h` 674–769
Kind: D -/
def inatEscapeTable2_1 : List (ℕ × ℕ × ℕ) :=
  [(0x00, 0x0b, inatModrm ||| inatVexok), (0x0c, 0x0f, inatModrm ||| inatVexok ||| inatVexonly),
    (0x10, 0x10, inatModrm), (0x14, 0x15, inatModrm), (0x17, 0x17, inatModrm ||| inatVexok),
    (0x18, 0x1a, inatModrm ||| inatVexok ||| inatVexonly), (0x1c, 0x1e, inatModrm ||| inatVexok),
    (0x20, 0x25, inatModrm ||| inatVexok), (0x28, 0x2b, inatModrm ||| inatVexok),
    (0x2c, 0x2f, inatModrm ||| inatVexok ||| inatVexonly), (0x30, 0x35, inatModrm ||| inatVexok),
    (0x37, 0x41, inatModrm ||| inatVexok), (0x80, 0x81, inatModrm),
    (0x96, 0x9f, inatModrm ||| inatVexok), (0xa6, 0xaf, inatModrm ||| inatVexok),
    (0xb6, 0xbf, inatModrm ||| inatVexok), (0xdb, 0xdf, inatModrm ||| inatVexok)]

/-- `inat_escape_table_2_3`.
Source: `inat-tables.h` 770–773
Kind: D -/
def inatEscapeTable2_3 : List (ℕ × ℕ × ℕ) :=
  [(0xf0, 0xf1, inatModrm)]

/-- `inat_escape_table_3`.
Source: `inat-tables.h` 776–809
Kind: D -/
def inatEscapeTable3 : List (ℕ × ℕ × ℕ) :=
  [(0x04, 0x06, inatVariant), (0x08, 0x0e, inatVariant),
    (0x0f, 0x0f, makeImm inatImmByte ||| inatModrm ||| inatVariant), (0x14, 0x19, inatVariant),
    (0x20, 0x22, inatVariant), (0x40, 0x42, inatVariant), (0x44, 0x44, inatVariant),
    (0x4a, 0x4c, inatVariant), (0x60, 0x63, inatVariant), (0xdf, 0xdf, inatVariant)]

/-- `inat_escape_table_3_1`.
Source: `inat-tables.h` 810–843
Kind: D -/
def inatEscapeTable3_1 : List (ℕ × ℕ × ℕ) :=
  [(0x04, 0x06, makeImm inatImmByte ||| inatModrm ||| inatVexok ||| inatVexonly),
    (0x08, 0x0f, makeImm inatImmByte ||| inatModrm ||| inatVexok),
    (0x14, 0x17, makeImm inatImmByte ||| inatModrm ||| inatVexok),
    (0x18, 0x19, makeImm inatImmByte ||| inatModrm ||| inatVexok ||| inatVexonly),
    (0x20, 0x22, makeImm inatImmByte ||| inatModrm ||| inatVexok),
    (0x40, 0x42, makeImm inatImmByte ||| inatModrm ||| inatVexok),
    (0x44, 0x44, makeImm inatImmByte ||| inatModrm ||| inatVexok),
    (0x4a, 0x4c, makeImm inatImmByte ||| inatModrm ||| inatVexok ||| inatVexonly),
    (0x60, 0x63, makeImm inatImmByte ||| inatModrm ||| inatVexok),
    (0xdf, 0xdf, makeImm inatImmByte ||| inatModrm ||| inatVexok)]

/-- `inat_group_table_5`.
Source: `inat-tables.h` 852–860
Kind: D -/
def inatGroupTable5 : List (ℕ × ℕ × ℕ) :=
  [(0x0, 0x0, makeImm inatImmByte ||| inatModrm), (0x2, 0x7, inatModrm)]

/-- `inat_group_table_6`.
Source: `inat-tables.h` 863–871
Kind: D -/
def inatGroupTable6 : List (ℕ × ℕ × ℕ) :=
  [(0x0, 0x0, makeImm inatImmVword32 ||| inatModrm), (0x2, 0x7, inatModrm)]

/-- `inat_group_table_7`.
Source: `inat-tables.h` 874–877
Kind: D -/
def inatGroupTable7 : List (ℕ × ℕ × ℕ) :=
  [(0x0, 0x1, inatModrm)]

/-- `inat_group_table_8`.
Source: `inat-tables.h` 880–888
Kind: D -/
def inatGroupTable8 : List (ℕ × ℕ × ℕ) :=
  [(0x0, 0x1, inatModrm), (0x2, 0x2, inatModrm ||| inatForce64), (0x3, 0x3, inatModrm),
    (0x4, 0x4, inatModrm ||| inatForce64), (0x5, 0x5, inatModrm),
    (0x6, 0x6, inatModrm ||| inatForce64)]

/-- `inat_group_table_9`.
Source: `inat-tables.h` 891–898
Kind: D -/
def inatGroupTable9 : List (ℕ × ℕ × ℕ) :=
  [(0x0, 0x5, inatModrm)]

/-- `inat_group_table_10`.
Source: `inat-tables.h` 901–909
Kind: D -/
def inatGroupTable10 : List (ℕ × ℕ × ℕ) :=
  [(0x0, 0x4, inatModrm), (0x6, 0x7, inatModrm)]

/-- `inat_group_table_21`.
Source: `inat-tables.h` 914–918
Kind: D -/
def inatGroupTable21 : List (ℕ × ℕ × ℕ) :=
  [(0x1, 0x1, inatModrm), (0x6, 0x6, inatModrm ||| inatVariant), (0x7, 0x7, inatModrm)]

/-- `inat_group_table_21_1`.
Source: `inat-tables.h` 919–921
Kind: D -/
def inatGroupTable21_1 : List (ℕ × ℕ × ℕ) :=
  [(0x6, 0x6, inatModrm)]

/-- `inat_group_table_21_2`.
Source: `inat-tables.h` 922–924
Kind: D -/
def inatGroupTable21_2 : List (ℕ × ℕ × ℕ) :=
  [(0x6, 0x6, inatModrm)]

/-- `inat_group_table_13`.
Source: `inat-tables.h` 931–935
Kind: D -/
def inatGroupTable13 : List (ℕ × ℕ × ℕ) :=
  [(0x2, 0x2, makeImm inatImmByte ||| inatModrm ||| inatVariant),
    (0x4, 0x4, makeImm inatImmByte ||| inatModrm ||| inatVariant),
    (0x6, 0x6, makeImm inatImmByte ||| inatModrm ||| inatVariant)]

/-- `inat_group_table_13_1`.
Source: `inat-tables.h` 936–940
Kind: D -/
def inatGroupTable13_1 : List (ℕ × ℕ × ℕ) :=
  [(0x2, 0x2, makeImm inatImmByte ||| inatModrm ||| inatVexok),
    (0x4, 0x4, makeImm inatImmByte ||| inatModrm ||| inatVexok),
    (0x6, 0x6, makeImm inatImmByte ||| inatModrm ||| inatVexok)]

/-- `inat_group_table_14`.
Source: `inat-tables.h` 943–947
Kind: D -/
def inatGroupTable14 : List (ℕ × ℕ × ℕ) :=
  [(0x2, 0x2, makeImm inatImmByte ||| inatModrm ||| inatVariant),
    (0x4, 0x4, makeImm inatImmByte ||| inatModrm ||| inatVariant),
    (0x6, 0x6, makeImm inatImmByte ||| inatModrm ||| inatVariant)]

/-- `inat_group_table_14_1`.
Source: `inat-tables.h` 948–952
Kind: D -/
def inatGroupTable14_1 : List (ℕ × ℕ × ℕ) :=
  [(0x2, 0x2, makeImm inatImmByte ||| inatModrm ||| inatVexok),
    (0x4, 0x4, makeImm inatImmByte ||| inatModrm ||| inatVexok),
    (0x6, 0x6, makeImm inatImmByte ||| inatModrm ||| inatVexok)]

/-- `inat_group_table_15`.
Source: `inat-tables.h` 955–960
Kind: D -/
def inatGroupTable15 : List (ℕ × ℕ × ℕ) :=
  [(0x2, 0x2, makeImm inatImmByte ||| inatModrm ||| inatVariant), (0x3, 0x3, inatVariant),
    (0x6, 0x6, makeImm inatImmByte ||| inatModrm ||| inatVariant), (0x7, 0x7, inatVariant)]

/-- `inat_group_table_15_1`.
Source: `inat-tables.h` 961–966
Kind: D -/
def inatGroupTable15_1 : List (ℕ × ℕ × ℕ) :=
  [(0x2, 0x3, makeImm inatImmByte ||| inatModrm ||| inatVexok),
    (0x6, 0x7, makeImm inatImmByte ||| inatModrm ||| inatVexok)]

/-- `inat_group_table_18`.
Source: `inat-tables.h` 969–972
Kind: D -/
def inatGroupTable18 : List (ℕ × ℕ × ℕ) :=
  [(0x2, 0x3, inatVexok)]

/-- `inat_group_table_12`.
Source: `inat-tables.h` 975–980
Kind: D -/
def inatGroupTable12 : List (ℕ × ℕ × ℕ) :=
  [(0x0, 0x3, inatModrm)]

/-- `inat_escape_tables`; `none` is the null pointer.
Source: `inat-tables.h` 989–999
Kind: D -/
def inatEscapeTables (n m : ℕ) : Option (List (ℕ × ℕ × ℕ)) :=
  match n, m with
  | 1, 0 => some inatEscapeTable1
  | 1, 1 => some inatEscapeTable1_1
  | 1, 2 => some inatEscapeTable1_2
  | 1, 3 => some inatEscapeTable1_3
  | 2, 0 => some inatEscapeTable2
  | 2, 1 => some inatEscapeTable2_1
  | 2, 3 => some inatEscapeTable2_3
  | 3, 0 => some inatEscapeTable3
  | 3, 1 => some inatEscapeTable3_1
  | _, _ => none

/-- `inat_group_tables`.
Source: `inat-tables.h` 1002–1020
Kind: D -/
def inatGroupTables (n m : ℕ) : Option (List (ℕ × ℕ × ℕ)) :=
  match n, m with
  | 5, 0 => some inatGroupTable5
  | 6, 0 => some inatGroupTable6
  | 7, 0 => some inatGroupTable7
  | 8, 0 => some inatGroupTable8
  | 9, 0 => some inatGroupTable9
  | 10, 0 => some inatGroupTable10
  | 12, 0 => some inatGroupTable12
  | 13, 0 => some inatGroupTable13
  | 13, 1 => some inatGroupTable13_1
  | 14, 0 => some inatGroupTable14
  | 14, 1 => some inatGroupTable14_1
  | 15, 0 => some inatGroupTable15
  | 15, 1 => some inatGroupTable15_1
  | 18, 0 => some inatGroupTable18
  | 21, 0 => some inatGroupTable21
  | 21, 1 => some inatGroupTable21_1
  | 21, 2 => some inatGroupTable21_2
  | _, _ => none

/-- `inat_avx_tables`: the same tables as `inat_escape_tables`.
Source: `inat-tables.h` 1023–1033
Kind: D -/
def inatAvxTables (m p : ℕ) : Option (List (ℕ × ℕ × ℕ)) := inatEscapeTables m p

/-! ## Lookups -/

/-- `inat_get_opcode_attribute`.
Source: `inat.c`
Kind: D -/
def inatGetOpcodeAttribute (opcode : BitVec 8) : ℕ := tableEntry inatPrimaryTable opcode.toNat

/-- The variant number of the last prefix, `0` when there is none.
Source: `inat.c`
Kind: D -/
def lastPrefixVariant (lastPfx : BitVec 8) : ℕ :=
  if lastPfx ≠ 0 then inatLastPrefixId (inatGetOpcodeAttribute lastPfx) else 0

/-- `inat_get_escape_attribute`.
Source: `inat.c`
Kind: D -/
def inatGetEscapeAttribute (opcode lastPfx : BitVec 8) (escAttr : ℕ) : ℕ :=
  let n := inatEscapeId escAttr
  let m := lastPrefixVariant lastPfx
  match inatEscapeTables n 0 with
  | none => 0
  | some table =>
      if inatHasVariant (tableEntry table opcode.toNat) ∧ m ≠ 0 then
        match inatEscapeTables n m with
        | none => 0
        | some variant => tableEntry variant opcode.toNat
      else tableEntry table opcode.toNat

/-- `X86_MODRM_REG`.
Source: `insn.h`
Kind: D -/
def modrmReg (modrm : BitVec 8) : ℕ := (modrm.toNat / 8) % 8

/-- `inat_get_group_attribute`.
Source: `inat.c`
Kind: D -/
def inatGetGroupAttribute (modrm lastPfx : BitVec 8) (grpAttr : ℕ) : ℕ :=
  let n := inatGroupId grpAttr
  let m := lastPrefixVariant lastPfx
  let common := inatGroupCommonAttribute grpAttr
  match inatGroupTables n 0 with
  | none => common
  | some table =>
      if inatHasVariant (tableEntry table (modrmReg modrm)) ∧ m ≠ 0 then
        match inatGroupTables n m with
        | none => common
        | some variant => tableEntry variant (modrmReg modrm) ||| common
      else tableEntry table (modrmReg modrm) ||| common

/-- `inat_get_avx_attribute`: `X86_VEX_M_MAX` is 31 and `INAT_LSTPFX_MAX` is 3.
Source: `inat.c`
Kind: D -/
def inatGetAvxAttribute (opcode : BitVec 8) (vexM vexP : ℕ) : ℕ :=
  if vexM > 0x1f ∨ vexP > 3 then 0
  else
    match inatAvxTables vexM vexP with
    | none => 0
    | some table => tableEntry table opcode.toNat

end Togpu.X86
