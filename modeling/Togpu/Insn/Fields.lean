import Mathlib.Tactic.FinCases
import Togpu.Insn.Offset

/-!
# The fields of a decoded instruction

Each stage of the decoder fills one field of `struct insn`. Here they are put together again.

* `Insn.offsetRexPrefix`, …, `Insn.offsetSib` — the remaining offsets of `insn.h`.
* `InsnBytes.At`, `InsnField.Unsigned`, `InsnField.Signed` — a field holds the bytes at a position,
  as bytes, as a number, or as a number that is sign-extended. A field that is missing is zero.
* `Insn.Fields` — every field holds the bytes at the offset that `insn.h` computes for it, and
  together they are as long as the instruction.
* `Insn.encode` — the bytes of the fields, one after another.
* **The fields are the instruction**: what the decoder has found is, behind the legacy prefixes,
  byte for byte what it has read (`fields_encode`).
-/

namespace Togpu.X86

open Togpu.Lib

/-! ## Offsets -/

/-- `insn_offset_rex_prefix`. Source: `insn.h` 155–158 -/
def Insn.offsetRexPrefix (insn : Insn) : ℕ := insn.prefixes.nbytes.toNat

/-- `insn_offset_vex_prefix`. Source: `insn.h` 159–162 -/
def Insn.offsetVexPrefix (insn : Insn) : ℕ := insn.offsetRexPrefix + insn.rexPrefix.nbytes.toNat

/-- `insn_offset_opcode`. Source: `insn.h` 163–166 -/
def Insn.offsetOpcode (insn : Insn) : ℕ := insn.offsetVexPrefix + insn.vexPrefix.nbytes.toNat

/-- `insn_offset_sib`. Source: `insn.h` 171–174 -/
def Insn.offsetSib (insn : Insn) : ℕ := insn.offsetModrm + insn.modrm.nbytes.toNat

/-! ## What a field holds -/

section holds

variable (s : Stream) (pos : ℕ)

/-- The field holds the bytes at `pos`.
Kind: D -/
def InsnBytes.At (f : InsnBytes) : Prop :=
  f.nbytes.toNat ≤ 4 ∧ ∀ k : Fin 4, f.bytes k = if k.val < f.nbytes.toNat then s (pos + k) else 0

/-- The field holds the number at `pos`.
Kind: D -/
def InsnField.Unsigned (f : InsnField) : Prop :=
  f.nbytes.toNat ≤ 4 ∧ f.value = BitVec.ofNat 32 (leNat s pos f.nbytes.toNat)

/-- The field holds the number at `pos`, sign-extended.
Kind: D -/
def InsnField.Signed (f : InsnField) : Prop :=
  f.nbytes.toNat ≤ 4 ∧ f.value = readSigned s pos f.nbytes.toNat

/-- A missing field.
Kind: L -/
theorem InsnBytes.At.zero : InsnBytes.At s pos ⟨fun _ => 0, 0⟩ := by
  have hnone : (0 : BitVec 8).toNat ≤ 4 := by decide
  refine ⟨hnone, fun k => ?_⟩
  fin_cases k <;> rfl

/-- A missing field.
Kind: L -/
theorem InsnField.Unsigned.zero : InsnField.Unsigned s pos ⟨0, 0⟩ := ⟨by decide, rfl⟩

/-- A missing field.
Kind: L -/
theorem InsnField.Signed.zero : InsnField.Signed s pos ⟨0, 0⟩ := ⟨by decide, rfl⟩

/-- A field of one byte.
Kind: L -/
theorem InsnField.Unsigned.one : InsnField.Unsigned s pos ⟨(s pos).setWidth 32, 1⟩ := by
  have hone : (1 : BitVec 8).toNat ≤ 4 := by decide
  refine ⟨hone, ?_⟩
  show (s pos).setWidth 32 = BitVec.ofNat 32 (leNat s pos 1)
  simp [leNat]

end holds

/-- **Every field holds the bytes at its offset**, the legacy prefixes are counted, and the
instruction ends where the last field does.
Kind: D -/
structure Insn.Fields (s : Stream) (insn : Insn) : Prop where
  /-- What is counted as legacy prefixes is. -/
  prefixes : ∀ j < insn.offsetRexPrefix, inatIsLegacyPrefix (inatGetOpcodeAttribute (s j)) = true
  rexPrefix : insn.rexPrefix.Unsigned s insn.offsetRexPrefix
  vexPrefix : insn.vexPrefix.At s insn.offsetVexPrefix
  opcode : insn.opcode.At s insn.offsetOpcode
  modrm : insn.modrm.Unsigned s insn.offsetModrm
  sib : insn.sib.Unsigned s insn.offsetSib
  displacement : insn.displacement.Signed s insn.offsetDisplacement
  immediate : insn.immediate.Signed s insn.offsetImmediate
  /-- Only the segment of a far pointer is not sign-extended. -/
  immediate2 : insn.immediate2.Signed s (insn.offsetImmediate + insn.immediate.nbytes.toNat) ∨
    insn.immediate2.Unsigned s (insn.offsetImmediate + insn.immediate.nbytes.toNat)
  /-- There is an opcode. -/
  opcode_pos : 0 < insn.opcode.nbytes.toNat
  length : insn.length.toNat = insn.offsetImmediate + insn.immediate.nbytes.toNat +
    insn.immediate2.nbytes.toNat

/-! ## Second immediates

A second immediate is stored where the upper half of a long first one would be. No opcode has
both. -/

/-- The second immediate of the attribute follows one of two bytes, and no group adds to it.
Kind: D -/
def SecondFits (attr : ℕ) : Prop :=
  inatHasSecondImmediate attr = true →
    inatIsGroup attr = false ∧ inatImmediateSize attr = inatImmWord

instance (attr : ℕ) : Decidable (SecondFits attr) := inferInstanceAs (Decidable (_ → _))

/-- No attribute, no second immediate.
Kind: L -/
theorem secondFits_zero : SecondFits 0 := by decide

/-- The entries of the primary table.
Kind: L -/
theorem secondFits_opcode (op : BitVec 8) : SecondFits (inatGetOpcodeAttribute op) := by
  have htable : ∀ e ∈ inatPrimaryTable, SecondFits e.2.2 := by decide
  rcases tableEntry_mem inatPrimaryTable op.toNat with hzero | ⟨e, he, hentry⟩
  · rw [inatGetOpcodeAttribute, hzero]
    exact secondFits_zero
  · rw [inatGetOpcodeAttribute, hentry]
    exact htable e he

/-- There are tables for three escapes and four variants.
Kind: L -/
theorem lt_of_escapeTable {n m : ℕ} {table : List (ℕ × ℕ × ℕ)}
    (h : inatEscapeTables n m = some table) : n < 4 ∧ m < 4 := by
  unfold inatEscapeTables at h
  split at h
  case h_10 => cases h
  all_goals exact ⟨by decide, by decide⟩

/-- The entries of the escape tables.
Kind: L -/
theorem secondFits_table {n m : ℕ} {table : List (ℕ × ℕ × ℕ)}
    (h : inatEscapeTables n m = some table) (i : ℕ) : SecondFits (tableEntry table i) := by
  have hentries : ∀ n < 4, ∀ m < 4, ∀ table ∈ inatEscapeTables n m, ∀ e ∈ table,
      SecondFits e.2.2 := by
    decide
  obtain ⟨hn, hm⟩ := lt_of_escapeTable h
  rcases tableEntry_mem table i with hzero | ⟨e, he, hentry⟩
  · rw [hzero]
    exact secondFits_zero
  · rw [hentry]
    exact hentries n hn m hm table h e he

/-- An escaped opcode.
Kind: L -/
theorem secondFits_escape (op lastPfx : BitVec 8) (attr : ℕ) :
    SecondFits (inatGetEscapeAttribute op lastPfx attr) := by
  rcases inatGetEscapeAttribute_mem op lastPfx attr with hzero | ⟨m, -, table, htable, heq⟩
  · rw [hzero]
    exact secondFits_zero
  · rw [heq]
    exact secondFits_table htable _

/-- An opcode behind a VEX prefix.
Kind: L -/
theorem secondFits_avx (op : BitVec 8) (vexM vexP : ℕ) :
    SecondFits (inatGetAvxAttribute op vexM vexP) := by
  unfold inatGetAvxAttribute
  split_ifs
  · exact secondFits_zero
  · cases htable : inatAvxTables vexM vexP with
    | none => exact secondFits_zero
    | some table => exact secondFits_table htable _

/-- Groups have no second immediates.
Kind: L -/
theorem groupTable_second {n m : ℕ} {table : List (ℕ × ℕ × ℕ)}
    (h : inatGroupTables n m = some table) (i : ℕ) : tableEntry table i &&& inatScndimm = 0 := by
  have hentries : ∀ n < 22, ∀ m < 3, ∀ table ∈ inatGroupTables n m, ∀ e ∈ table,
      e.2.2 &&& inatScndimm = 0 := by
    decide
  have hbound : n < 22 ∧ m < 3 := by
    unfold inatGroupTables at h
    split at h
    case h_18 => cases h
    all_goals exact ⟨by decide, by decide⟩
  rcases tableEntry_mem table i with hzero | ⟨e, he, hentry⟩
  · rw [hzero]
    decide
  · rw [hentry]
    exact hentries n hbound.1 m hbound.2 table h e he

/-- The attribute of a group has no second immediate.
Kind: L -/
theorem secondFits_group (mod lastPfx : BitVec 8) {attr : ℕ} (h : SecondFits attr)
    (hgroup : inatIsGroup attr = true) :
    SecondFits (inatGetGroupAttribute mod lastPfx attr) := by
  have hattr : attr &&& inatScndimm = 0 := by
    by_contra hne
    have hsecond : inatHasSecondImmediate attr = true := by simpa [inatHasSecondImmediate, hasBits]
    rw [(h hsecond).1] at hgroup
    cases hgroup
  have hcommon : inatGroupCommonAttribute attr &&& inatScndimm = 0 := by
    rw [inatGroupCommonAttribute, Nat.and_assoc, Nat.and_comm (0xffffffff ^^^ inatGrpMask),
      ← Nat.and_assoc, hattr, Nat.zero_and]
  have hor : ∀ table n m, inatGroupTables n m = some table → ∀ i,
      (tableEntry table i ||| inatGroupCommonAttribute attr) &&& inatScndimm = 0 := by
    intro table n m htable i
    rw [Nat.and_or_distrib_right, groupTable_second htable, hcommon, Nat.or_zero]
  have hnone : inatGetGroupAttribute mod lastPfx attr &&& inatScndimm = 0 := by
    unfold inatGetGroupAttribute
    dsimp only
    cases htable : inatGroupTables (inatGroupId attr) 0 with
    | none => exact hcommon
    | some table =>
        dsimp only
        split_ifs
        · cases hvariant : inatGroupTables (inatGroupId attr) (lastPrefixVariant lastPfx) with
          | none => exact hcommon
          | some variant => exact hor variant _ _ hvariant _
        · exact hor table _ _ htable _
  intro hsecond
  simp [inatHasSecondImmediate, hasBits, hnone] at hsecond

/-! ## The prefixes -/

/-- The scan changes the prefixes, the sizes and the cursor, and passes legacy prefixes only.
Kind: L -/
theorem scanPrefixes_spec {s : Stream} {fuel nb : ℕ} {insn : Insn} {lb : BitVec 8}
    {r : Insn × ℕ × BitVec 8} (h : scanPrefixes s fuel insn nb lb = some r) :
    (∃ p a o n, r.1 = { insn with prefixes := p, addrBytes := a, opndBytes := o, nextByte := n }) ∧
      ((∀ j < insn.nextByte, inatIsLegacyPrefix (inatGetOpcodeAttribute (s j)) = true) →
        ∀ j < r.1.nextByte, inatIsLegacyPrefix (inatGetOpcodeAttribute (s j)) = true) := by
  induction fuel generalizing insn nb lb with
  | zero => simp [scanPrefixes] at h
  | succ fuel ih =>
      simp only [scanPrefixes] at h
      split_ifs at h with hpfx hseen hfull
      · obtain ⟨⟨p, a, o, n, hr⟩, hrest⟩ := ih h
        refine ⟨⟨p, a, o, n, hr⟩, fun hall => hrest fun j hj => ?_⟩
        rcases Nat.lt_succ_iff_lt_or_eq.mp hj with hlt | rfl
        · exact hall j hlt
        · exact hpfx
      · cases h
        exact ⟨⟨_, _, _, _, rfl⟩, id⟩
      · obtain ⟨⟨p, a, o, n, hr⟩, hrest⟩ := ih h
        refine ⟨⟨p, a, o, n, hr⟩, fun hall => hrest fun j hj => ?_⟩
        rcases Nat.lt_succ_iff_lt_or_eq.mp hj with hlt | rfl
        · exact hall j hlt
        · exact hpfx
      · cases h
        exact ⟨⟨_, _, _, _, rfl⟩, id⟩

section stages

variable (s : Stream) (insn : Insn)

/-- The REX prefix.
Kind: L -/
theorem insnGetRexPrefix_field (h : insn.rexPrefix = ⟨0, 0⟩) :
    ∃ r o, insnGetRexPrefix s insn =
        { insn with rexPrefix := r, opndBytes := o, nextByte := insn.nextByte + r.nbytes.toNat } ∧
      r.Unsigned s insn.nextByte := by
  unfold insnGetRexPrefix
  dsimp only
  split_ifs
  · exact ⟨_, _, rfl, .one s _⟩
  · exact ⟨_, _, rfl, .one s _⟩
  · have hnone : insn.rexPrefix.nbytes = 0 := by rw [h]
    exact ⟨insn.rexPrefix, insn.opndBytes, by simp [hnone], h ▸ .zero s _⟩

/-- The VEX prefix.
Kind: L -/
theorem insnGetVexPrefix_field (h : insn.vexPrefix = ⟨fun _ => 0, 0⟩) :
    ∃ v o, insnGetVexPrefix s insn =
        { insn with vexPrefix := v, opndBytes := o, nextByte := insn.nextByte + v.nbytes.toNat } ∧
      v.At s insn.nextByte := by
  have htwo : InsnBytes.At s insn.nextByte
      ⟨![s insn.nextByte, s (insn.nextByte + 1), 0, 0], 2⟩ := by
    have hle : (2 : BitVec 8).toNat ≤ 4 := by decide
    refine ⟨hle, fun k => ?_⟩
    fin_cases k <;> rfl
  have hthree : InsnBytes.At s insn.nextByte
      ⟨![s insn.nextByte, s (insn.nextByte + 1), s (insn.nextByte + 2), 0], 3⟩ := by
    have hle : (3 : BitVec 8).toNat ≤ 4 := by decide
    refine ⟨hle, fun k => ?_⟩
    fin_cases k <;> rfl
  unfold insnGetVexPrefix
  dsimp only
  split_ifs
  · exact ⟨_, _, rfl, hthree⟩
  · exact ⟨_, _, rfl, hthree⟩
  · exact ⟨_, _, rfl, htwo⟩
  · have hnone : insn.vexPrefix.nbytes = 0 := by rw [h]
    exact ⟨insn.vexPrefix, insn.opndBytes, by simp [hnone], h ▸ .zero s _⟩

/-- The first opcode byte.
Kind: L -/
theorem insnGetOpcode1_field : (insnGetOpcode1 s insn).opcode.At s insn.nextByte ∧
    SecondFits (insnGetOpcode1 s insn).attr := by
  have hle : (1 : BitVec 8).toNat ≤ 4 := by decide
  refine ⟨⟨hle, fun k => ?_⟩, ?_⟩
  · fin_cases k <;> rfl
  · simp only [insnGetOpcode1]
    split_ifs
    · exact secondFits_avx _ _ _
    · exact secondFits_zero
    · exact secondFits_opcode _

/-- Each escaped byte comes next.
Kind: L -/
theorem insnGetEscape_field {pos : ℕ} (h : insn.opcode.At s pos)
    (hlt : insn.opcode.nbytes.toNat < 4) (hnext : insn.nextByte = pos + insn.opcode.nbytes.toNat) :
    (insnGetEscape s insn).opcode.At s pos := by
  have hcount := insnGetEscape_nbytes s insn hlt
  refine ⟨by omega, fun k => ?_⟩
  rw [hcount]
  simp only [insnGetEscape, Function.update_apply]
  have hk : k = Fin.ofNat 4 insn.opcode.nbytes.toNat ↔ k.val = insn.opcode.nbytes.toNat := by
    rw [Fin.ext_iff, Fin.val_ofNat, Nat.mod_eq_of_lt hlt]
  split_ifs with heq hin hin
  · rw [hnext, hk.mp heq]
  · exact absurd (hk.mp heq) (by omega)
  · rw [h.2 k, if_pos (by rw [hk] at heq; omega)]
  · rw [h.2 k, if_neg (by omega)]

/-- All escaped bytes.
Kind: L -/
theorem insnGetEscapes_field {n pos : ℕ} (h : insn.opcode.At s pos)
    (hn : insn.opcode.nbytes.toNat + n ≤ 4) (hnext : insn.nextByte = pos + insn.opcode.nbytes.toNat)
    (hfits : SecondFits insn.attr) :
    (insnGetEscapes s n insn).opcode.At s pos ∧ SecondFits (insnGetEscapes s n insn).attr := by
  induction n generalizing insn with
  | zero => exact ⟨h, hfits⟩
  | succ n ih =>
      simp only [insnGetEscapes]
      split_ifs
      · have hcount := insnGetEscape_nbytes s insn (by omega)
        have hstep : (insnGetEscape s insn).nextByte = insn.nextByte + 1 := rfl
        refine ih (insnGetEscape s insn) (insnGetEscape_field s insn h (by omega) hnext) ?_ ?_ ?_
        · omega
        · omega
        · exact secondFits_escape _ _ _
      · exact ⟨h, hfits⟩

/-- The opcode.
Kind: L -/
theorem insnGetOpcode_field :
    ∃ o a, insnGetOpcode s insn =
        { insn with opcode := o, attr := a, nextByte := insn.nextByte + o.nbytes.toNat } ∧
      o.At s insn.nextByte ∧ SecondFits a ∧ 0 < o.nbytes.toNat := by
  obtain ⟨o, a, hframe⟩ := insnGetOpcode_frame s insn
  have hone : (insnGetOpcode1 s insn).opcode.nbytes.toNat = 1 := rfl
  obtain ⟨hat, hfits⟩ := insnGetOpcode1_field s insn
  have hescapes := insnGetEscapes_field s (insnGetOpcode1 s insn) (n := 3) hat (by omega) rfl hfits
  have hcount := insnGetEscapes_count s (insnGetOpcode1 s insn) (n := 3) (by omega)
  have hresult : (insnGetOpcode s insn).opcode.At s insn.nextByte ∧
      SecondFits (insnGetOpcode s insn).attr ∧
      0 < (insnGetOpcode s insn).opcode.nbytes.toNat := by
    have hleast := insnGetOpcode_reads.least_le s insn
    have hpos : 0 < (insnGetOpcode s insn).opcode.nbytes.toNat := by
      rw [hframe] at hleast ⊢
      dsimp only at hleast ⊢
      omega
    refine ⟨?_, ?_, hpos⟩
    · unfold insnGetOpcode
      dsimp only
      split_ifs
      · exact hat
      · exact hescapes.1
      · exact hescapes.1
    · unfold insnGetOpcode
      dsimp only
      split_ifs
      · exact hfits
      · exact secondFits_zero
      · exact hescapes.2
  rw [hframe] at hresult
  exact ⟨o, a, hframe, hresult⟩

/-- The ModRM byte.
Kind: L -/
theorem insnGetModrm_field (h : insn.modrm = ⟨0, 0⟩) (hfits : SecondFits insn.attr) :
    ∃ m a o, insnGetModrm s insn =
        { insn with
          modrm := m, attr := a, opndBytes := o, nextByte := insn.nextByte + m.nbytes.toNat } ∧
      m.Unsigned s insn.nextByte ∧ SecondFits a := by
  obtain ⟨m, a, hbyte, hm, ha⟩ : ∃ m a, insnGetModrmByte s insn =
        { insn with modrm := m, attr := a, nextByte := insn.nextByte + m.nbytes.toNat } ∧
      m.Unsigned s insn.nextByte ∧ SecondFits a := by
    unfold insnGetModrmByte
    dsimp only
    split_ifs with hmodrm hgroup
    · exact ⟨_, _, rfl, .one s _, secondFits_group _ _ hfits hgroup⟩
    · exact ⟨_, _, rfl, .one s _, hfits⟩
    · have hnone : insn.modrm.nbytes = 0 := by rw [h]
      exact ⟨insn.modrm, insn.attr, by simp [hnone], h ▸ .zero s _, hfits⟩
  unfold insnGetModrm
  rw [hbyte]
  dsimp only
  split_ifs
  · exact ⟨_, _, _, rfl, hm, ha⟩
  · exact ⟨_, _, _, rfl, hm, ha⟩

/-- The SIB byte.
Kind: L -/
theorem insnGetSib_field (h : insn.sib = ⟨0, 0⟩) :
    ∃ b, insnGetSib s insn = { insn with sib := b, nextByte := insn.nextByte + b.nbytes.toNat } ∧
      b.Unsigned s insn.nextByte := by
  unfold insnGetSib
  dsimp only
  split_ifs
  · exact ⟨_, rfl, .one s _⟩
  · have hnone : insn.sib.nbytes = 0 := by rw [h]
    exact ⟨insn.sib, by simp [hnone], h ▸ .zero s _⟩

/-- A number that was read is in its field.
Kind: L -/
theorem InsnField.Signed.read {n : ℕ} (hn : n ≤ 4) (pos : ℕ) :
    InsnField.Signed s pos ⟨readSigned s pos n, BitVec.ofNat 8 n⟩ := by
  have hlen : (BitVec.ofNat 8 n).toNat = n := by
    rw [BitVec.toNat_ofNat]
    omega
  exact ⟨hlen.trans_le hn, by rw [hlen]⟩

/-- The displacement.
Kind: L -/
theorem insnGetDisplacement_field (h : insn.displacement = ⟨0, 0⟩) :
    ∃ d, insnGetDisplacement s insn =
        { insn with displacement := d, nextByte := insn.nextByte + d.nbytes.toNat } ∧
      d.Signed s insn.nextByte := by
  have hnone : insn.displacement.nbytes = 0 := by rw [h]
  have hskip : ∃ d, insn =
        { insn with displacement := d, nextByte := insn.nextByte + d.nbytes.toNat } ∧
      d.Signed s insn.nextByte :=
    ⟨insn.displacement, by simp [hnone], h ▸ .zero s _⟩
  unfold insnGetDisplacement
  dsimp only
  split_ifs
  · exact hskip
  · exact ⟨_, rfl, .read s (by decide) _⟩
  · exact ⟨_, rfl, .read s (by decide) _⟩
  · exact hskip
  · exact ⟨_, rfl, .read s (by decide) _⟩
  · exact hskip

/-! ## Immediates -/

/-- The stage fills the immediates with what comes next.
Kind: D -/
def ReadsImmediates (insn' : Insn) : Prop :=
  ∃ a b, insn' =
      { insn with
        immediate := a, immediate2 := b,
        nextByte := insn.nextByte + a.nbytes.toNat + b.nbytes.toNat } ∧
    a.Signed s insn.nextByte ∧
    (b.Signed s (insn.nextByte + a.nbytes.toNat) ∨ b.Unsigned s (insn.nextByte + a.nbytes.toNat))

variable {s insn}

/-- Either of two ways to fill them.
Kind: L -/
theorem ReadsImmediates.ite {x y : Insn} (p : Prop) [Decidable p] (hx : ReadsImmediates s insn x)
    (hy : ReadsImmediates s insn y) : ReadsImmediates s insn (if p then x else y) := by
  split_ifs
  · exact hx
  · exact hy

/-- One immediate.
Kind: L -/
theorem ReadsImmediates.one (h₂ : insn.immediate2 = ⟨0, 0⟩) {n : ℕ} (hn : n ≤ 4) :
    ReadsImmediates s insn (readImmediate n s insn) := by
  have hlen : (BitVec.ofNat 8 n).toNat = n := by
    rw [BitVec.toNat_ofNat]
    omega
  refine ⟨⟨readSigned s insn.nextByte n, BitVec.ofNat 8 n⟩, ⟨0, 0⟩, ?_, .read s hn _,
    .inl (.zero s _)⟩
  rw [readImmediate, hlen, ← h₂]
  simp [h₂]

/-- Two immediates.
Kind: L -/
theorem ReadsImmediates.two {n m : ℕ} (hn : n ≤ 4) (hm : m ≤ 4) :
    ReadsImmediates s insn (readImmediate2 m s (readImmediate n s insn)) := by
  have hlen : ∀ k ≤ 4, (BitVec.ofNat 8 k).toNat = k := by
    intro k hk
    rw [BitVec.toNat_ofNat]
    omega
  refine ⟨⟨readSigned s insn.nextByte n, BitVec.ofNat 8 n⟩,
    ⟨readSigned s (insn.nextByte + n) m, BitVec.ofNat 8 m⟩, ?_, .read s hn _, .inl ?_⟩
  · simp only [readImmediate2, readImmediate, hlen n hn, hlen m hm]
  · rw [hlen n hn]
    exact .read s hm _

/-- An immediate and a segment.
Kind: L -/
theorem ReadsImmediates.segment {n : ℕ} (hn : n ≤ 4) :
    ReadsImmediates s insn (readSegment s (readImmediate n s insn)) := by
  have hlen : (BitVec.ofNat 8 n).toNat = n := by
    rw [BitVec.toNat_ofNat]
    omega
  have htwo : (2 : BitVec 8).toNat = 2 := rfl
  refine ⟨⟨readSigned s insn.nextByte n, BitVec.ofNat 8 n⟩,
    ⟨BitVec.ofNat 32 (leNat s (insn.nextByte + n) 2), 2⟩, ?_, .read s hn _, .inr ?_⟩
  · simp only [readSegment, readImmediate, hlen, htwo]
  · rw [hlen]
    exact ⟨by rw [htwo]; decide, by rw [htwo]⟩

variable (s insn)

/-- The immediates, from an instruction that has none yet.
Kind: L -/
theorem insnGetImmediate_field (h : insn.immediate = ⟨0, 0⟩) (h₂ : insn.immediate2 = ⟨0, 0⟩)
    (hfits : SecondFits insn.attr) : ReadsImmediates s insn (insnGetImmediate s insn) := by
  have hnone : insn.immediate.nbytes = 0 := by rw [h]
  have hnone₂ : insn.immediate2.nbytes = 0 := by rw [h₂]
  have htwo : (2 : BitVec 8).toNat = 2 := rfl
  have hself : ReadsImmediates s insn insn :=
    ⟨insn.immediate, insn.immediate2, by simp [hnone, hnone₂], h ▸ .zero s _,
      .inl (h₂ ▸ .zero s _)⟩
  have hread : ∀ n ≤ 4, ReadsImmediates s insn (readImmediate n s insn) := fun n hn => .one h₂ hn
  have hreads : ReadsImmediates s insn (readImmediate2 4 s (readImmediate 4 s insn)) :=
    .two le_rfl le_rfl
  have hsegment : ReadsImmediates s insn (readSegment s insn) := by
    refine ⟨insn.immediate, ⟨BitVec.ofNat 32 (leNat s insn.nextByte 2), 2⟩, ?_, h ▸ .zero s _,
      .inr ?_⟩
    · simp only [readSegment, hnone, htwo]
      rfl
    · rw [hnone]
      exact ⟨by rw [htwo]; decide, by rw [htwo]; rfl⟩
  have hmoffset : ReadsImmediates s insn (getMoffset s insn) := by
    unfold getMoffset
    exact (hread 2 (by decide)).ite _ ((hread 4 le_rfl).ite _ (hreads.ite _ hself))
  have hptr : ReadsImmediates s insn (getImmptr s insn) := by
    unfold getImmptr
    exact hself.ite _ ((ReadsImmediates.segment (by decide)).ite _
      ((ReadsImmediates.segment le_rfl).ite _ hsegment))
  have hv32 : ReadsImmediates s insn (getImmv32 s insn) := by
    unfold getImmv32
    exact (hread 2 (by decide)).ite _ ((hread 4 le_rfl).ite _ hself)
  have hv : ReadsImmediates s insn (getImmv s insn) := by
    unfold getImmv
    exact (hread 2 (by decide)).ite _ ((hread 4 le_rfl).ite _ (hreads.ite _ hself))
  have hfirst : ReadsImmediates s insn (getFirstImmediate s insn) := by
    unfold getFirstImmediate
    refine (hread 1 (by decide)).ite _ ((hread 2 (by decide)).ite _ ((hread 4 le_rfl).ite _ ?_))
    exact hreads.ite _ (hptr.ite _ (hv32.ite _ (hv.ite _ hself)))
  have hboth : ReadsImmediates s insn (getSecondImmediate s (getFirstImmediate s insn)) := by
    obtain ⟨a, b, p, hframe⟩ := getFirstImmediate_frame s insn
    unfold getSecondImmediate
    split_ifs with hsecond
    · -- the only such immediates are two bytes and one byte
      rw [hframe] at hsecond
      have hsize := (hfits hsecond).2
      have hword : getFirstImmediate s insn = readImmediate 2 s insn := by
        unfold getFirstImmediate
        rw [hsize]
        rfl
      rw [hword]
      exact .two (by decide) (by decide)
    · exact hfirst
  unfold insnGetImmediate
  exact hmoffset.ite _ (hboth.ite _ hself)

end stages

/-! ## The whole instruction -/

/-- What the prefix scan leaves: no field but the prefixes has been filled.
Kind: D -/
structure Unfilled (insn : Insn) : Prop where
  rexPrefix : insn.rexPrefix = ⟨0, 0⟩
  vexPrefix : insn.vexPrefix = ⟨fun _ => 0, 0⟩
  modrm : insn.modrm = ⟨0, 0⟩
  sib : insn.sib = ⟨0, 0⟩
  displacement : insn.displacement = ⟨0, 0⟩
  immediate : insn.immediate = ⟨0, 0⟩
  immediate2 : insn.immediate2 = ⟨0, 0⟩

/-- The stages from the REX prefix to the SIB byte, together.
Kind: L -/
theorem Unfilled.insnRest {insn : Insn} (h : Unfilled insn) (s : Stream) :
    ∃ r v c m b a o, X86.insnRest s insn =
        { insn with
          rexPrefix := r, vexPrefix := v, opcode := c, modrm := m, sib := b, attr := a,
          opndBytes := o
          nextByte := insn.nextByte + r.nbytes.toNat + v.nbytes.toNat + c.nbytes.toNat +
            m.nbytes.toNat + b.nbytes.toNat } ∧
      r.Unsigned s insn.nextByte ∧ v.At s (insn.nextByte + r.nbytes.toNat) ∧
      c.At s (insn.nextByte + r.nbytes.toNat + v.nbytes.toNat) ∧
      m.Unsigned s (insn.nextByte + r.nbytes.toNat + v.nbytes.toNat + c.nbytes.toNat) ∧
      b.Unsigned s
        (insn.nextByte + r.nbytes.toNat + v.nbytes.toNat + c.nbytes.toNat + m.nbytes.toNat) ∧
      SecondFits a ∧ 0 < c.nbytes.toNat := by
  unfold X86.insnRest
  obtain ⟨r, o₁, hrex, hr⟩ := insnGetRexPrefix_field s insn h.rexPrefix
  rw [hrex]
  obtain ⟨v, o₂, hvex, hv⟩ := insnGetVexPrefix_field s
    { insn with rexPrefix := r, opndBytes := o₁, nextByte := insn.nextByte + r.nbytes.toNat }
    h.vexPrefix
  rw [hvex]
  obtain ⟨c, a₁, hopc, hc, hfits, hpos⟩ := insnGetOpcode_field s
    { insn with
      rexPrefix := r, vexPrefix := v, opndBytes := o₂
      nextByte := insn.nextByte + r.nbytes.toNat + v.nbytes.toNat }
  rw [hopc]
  obtain ⟨m, a, o, hmod, hm, hfits'⟩ := insnGetModrm_field s
    { insn with
      rexPrefix := r, vexPrefix := v, opcode := c, attr := a₁, opndBytes := o₂
      nextByte := insn.nextByte + r.nbytes.toNat + v.nbytes.toNat + c.nbytes.toNat }
    h.modrm hfits
  rw [hmod]
  obtain ⟨b, hsib, hb⟩ := insnGetSib_field s
    { insn with
      rexPrefix := r, vexPrefix := v, opcode := c, modrm := m, attr := a, opndBytes := o
      nextByte := insn.nextByte + r.nbytes.toNat + v.nbytes.toNat + c.nbytes.toNat +
        m.nbytes.toNat }
    h.sib
  exact ⟨r, v, c, m, b, a, o, hsib, hr, hv, hc, hm, hb, hfits', hpos⟩

/-- The scan fills nothing but the prefixes.
Kind: L -/
theorem unfilled_scan {s : Stream} {fuel : ℕ} {r : Insn × ℕ × BitVec 8}
    (h : scanPrefixes s fuel kernelInsnInit 0 0 = some r) :
    Unfilled (r.1.setLastPrefix r.2.1 r.2.2) := by
  obtain ⟨⟨p, a, o, n, hr⟩, -⟩ := scanPrefixes_spec h
  rw [hr]
  unfold Insn.setLastPrefix
  dsimp only
  split_ifs <;> exact ⟨rfl, rfl, rfl, rfl, rfl, rfl, rfl⟩

/-- **Every instruction of fewer than 256 bytes has its fields where `insn.h` says.**
Source: `insn.c` 41–517; `insn.h` 155–182
Kind: P -/
theorem fields_of_insnGetLength {s : Stream} {insn : Insn} (h : insnGetLength s = some insn)
    (hlt : insn.nextByte < 256) : insn.Fields s := by
  have hlength := length_toNat h hlt
  rw [insnGetLength_eq] at h
  obtain ⟨head, hhead, rfl⟩ := Option.map_eq_some_iff.1 h
  rw [insnHead_eq] at hhead
  obtain ⟨q, hscan, rfl⟩ := Option.map_eq_some_iff.1 hhead
  have hscanned := (scanned_init.scanPrefixes hscan).setLastPrefix q.2.1 q.2.2
  have hunfilled := unfilled_scan hscan
  have hlegacy := (scanPrefixes_spec hscan).2 fun j hj => absurd hj (Nat.not_lt_zero j)
  rw [← setLastPrefix_nextByte q.1 q.2.1 q.2.2] at hlegacy
  generalize q.1.setLastPrefix q.2.1 q.2.2 = pre at *
  -- the stages, one after another
  obtain ⟨r, v, c, m, b, a, o, hrest, hr, hv, hc, hm, hb, hfits, hpos⟩ := hunfilled.insnRest s
  rw [hrest] at hlt hlength ⊢
  unfold insnFinish at hlt hlength ⊢
  obtain ⟨d, hdisp, hd⟩ := insnGetDisplacement_field s
    { pre with
      rexPrefix := r, vexPrefix := v, opcode := c, modrm := m, sib := b, attr := a, opndBytes := o
      nextByte := pre.nextByte + r.nbytes.toNat + v.nbytes.toNat + c.nbytes.toNat +
        m.nbytes.toNat + b.nbytes.toNat }
    hunfilled.displacement
  rw [hdisp] at hlt hlength ⊢
  obtain ⟨i, i₂, himm, hi, hi₂⟩ := insnGetImmediate_field s
    { pre with
      rexPrefix := r, vexPrefix := v, opcode := c, modrm := m, sib := b, attr := a, opndBytes := o
      displacement := d
      nextByte := pre.nextByte + r.nbytes.toNat + v.nbytes.toNat + c.nbytes.toNat +
        m.nbytes.toNat + b.nbytes.toNat + d.nbytes.toNat }
    hunfilled.immediate hunfilled.immediate2 hfits
  rw [himm] at hlt hlength ⊢
  dsimp only at hlt hlength hd hi hi₂
  have hpfx : pre.prefixes.nbytes.toNat = pre.nextByte := by
    rw [hscanned.nbytes, BitVec.toNat_ofNat]
    omega
  refine ⟨?_, ?_, ?_, ?_, ?_, ?_, ?_, ?_, ?_, hpos, hlength.trans ?_⟩
  all_goals
    simp only [Insn.offsetImmediate, Insn.offsetDisplacement, Insn.offsetSib, Insn.offsetModrm,
      Insn.offsetOpcode, Insn.offsetVexPrefix, Insn.offsetRexPrefix, hpfx]
  exacts [hlegacy, hr, hv, hc, hm, hb, hd, hi, hi₂]

/-! ## Back to bytes -/

/-- The bytes of a field.
Kind: D -/
def InsnBytes.encode (f : InsnBytes) : List (BitVec 8) :=
  (List.range f.nbytes.toNat).map fun k => f.bytes (Fin.ofNat 4 k)

/-- The bytes of a field, the lowest first.
Kind: D -/
def InsnField.encode (f : InsnField) : List (BitVec 8) :=
  (List.range f.nbytes.toNat).map fun k => f.value.extractLsb' (8 * k) 8

/-- The bytes of all fields behind the legacy prefixes.
Kind: D -/
def Insn.encode (insn : Insn) : List (BitVec 8) :=
  insn.rexPrefix.encode ++ insn.vexPrefix.encode ++ insn.opcode.encode ++ insn.modrm.encode ++
    insn.sib.encode ++ insn.displacement.encode ++ insn.immediate.encode ++
    insn.immediate2.encode

/-- Bytes that were read.
Kind: L -/
theorem InsnBytes.At.encode_eq {s : Stream} {pos : ℕ} {f : InsnBytes} (h : f.At s pos) :
    f.encode = slice s pos f.nbytes.toNat := by
  apply List.map_congr_left
  intro k hk
  have hlt := List.mem_range.mp hk
  have hle := h.1
  have hval : (Fin.ofNat 4 k).val = k := by
    rw [Fin.val_ofNat, Nat.mod_eq_of_lt (by omega)]
  rw [h.2, hval, if_pos hlt]

/-- A byte of a number that was read.
Kind: L -/
theorem extract_leNat {s : Stream} {pos n k : ℕ} (hn : n ≤ 4) (hk : k < n) :
    (BitVec.ofNat 32 (leNat s pos n)).extractLsb' (8 * k) 8 = s (pos + k) := by
  apply BitVec.eq_of_getLsbD_eq
  intro i hi
  have hlt : 8 * k + i < 32 := by omega
  rw [BitVec.getLsbD_extractLsb', BitVec.getLsbD_ofNat, testBit_leNat s pos hk hi]
  simp [hi, hlt]

/-- A byte of a number that was read and sign-extended.
Kind: L -/
theorem extract_readSigned {s : Stream} {pos n k : ℕ} (hn : n ≤ 4) (hk : k < n) :
    (readSigned s pos n).extractLsb' (8 * k) 8 = s (pos + k) := by
  apply BitVec.eq_of_getLsbD_eq
  intro i hi
  have hlt : 8 * k + i < 32 := by omega
  have hin : 8 * k + i < 8 * n := by omega
  rw [BitVec.getLsbD_extractLsb', readSigned, BitVec.getLsbD_signExtend, BitVec.getLsbD_ofNat,
    testBit_leNat s pos hk hi]
  simp [hi, hlt, hin]

/-- A number that was read.
Kind: L -/
theorem InsnField.Unsigned.encode_eq {s : Stream} {pos : ℕ} {f : InsnField}
    (h : f.Unsigned s pos) : f.encode = slice s pos f.nbytes.toNat := by
  apply List.map_congr_left
  intro k hk
  rw [h.2]
  exact extract_leNat h.1 (List.mem_range.mp hk)

/-- A number that was read and sign-extended.
Kind: L -/
theorem InsnField.Signed.encode_eq {s : Stream} {pos : ℕ} {f : InsnField} (h : f.Signed s pos) :
    f.encode = slice s pos f.nbytes.toNat := by
  apply List.map_congr_left
  intro k hk
  rw [h.2]
  exact extract_readSigned h.1 (List.mem_range.mp hk)

/-- The fields in their places are the bytes behind the prefixes.
Kind: L -/
theorem Insn.Fields.encode_eq {s : Stream} {insn : Insn} (h : insn.Fields s) :
    insn.encode =
      slice s insn.offsetRexPrefix (insn.length.toNat - insn.offsetRexPrefix) := by
  have hsecond : insn.immediate2.encode =
      slice s (insn.offsetImmediate + insn.immediate.nbytes.toNat)
        insn.immediate2.nbytes.toNat := by
    rcases h.immediate2 with hsigned | hunsigned
    · exact hsigned.encode_eq
    · exact hunsigned.encode_eq
  have hrest : insn.length.toNat - insn.offsetRexPrefix =
      insn.rexPrefix.nbytes.toNat + insn.vexPrefix.nbytes.toNat + insn.opcode.nbytes.toNat +
        insn.modrm.nbytes.toNat + insn.sib.nbytes.toNat + insn.displacement.nbytes.toNat +
        insn.immediate.nbytes.toNat + insn.immediate2.nbytes.toNat := by
    rw [h.length]
    simp only [Insn.offsetImmediate, Insn.offsetDisplacement, Insn.offsetModrm,
      Insn.offsetRexPrefix]
    omega
  rw [hrest, Insn.encode, h.rexPrefix.encode_eq, h.vexPrefix.encode_eq, h.opcode.encode_eq,
    h.modrm.encode_eq, h.sib.encode_eq, h.displacement.encode_eq, h.immediate.encode_eq, hsecond]
  simp only [slice_add]
  simp only [Insn.offsetImmediate, Insn.offsetDisplacement, Insn.offsetSib, Insn.offsetModrm,
    Insn.offsetOpcode, Insn.offsetVexPrefix, Insn.offsetRexPrefix, ← add_assoc]

/-- **The fields are the instruction.** Whatever the bytes, an instruction of fewer than 256 bytes
has every field at the offset that `insn.h` computes for it, missing fields being zero, and ends
where the last one does; and the bytes of its fields, one after another, are the bytes behind its
legacy prefixes.
Source: `insn.c` 41–517; `insn.h` 155–182
Kind: P
Fidelity: exact
Hyps: (a) the decoder returns; (b) the length fits its field -/
theorem fields_encode {s : Stream} {insn : Insn} (h : insnGetLength s = some insn)
    (hlt : insn.nextByte < 256) :
    insn.Fields s ∧ insn.encode =
      slice s insn.offsetRexPrefix (insn.length.toNat - insn.offsetRexPrefix) := by
  have hfields := fields_of_insnGetLength h hlt
  exact ⟨hfields, hfields.encode_eq⟩

/-- `movq $0x1234,0x80(%rsp)` behind a prefix `66`: every field but the VEX prefix.
Kind: D -/
def movText : List (BitVec 8) :=
  [0x66, 0x48, 0xc7, 0x84, 0x24, 0x80, 0x00, 0x00, 0x00, 0x34, 0x12, 0x00, 0x00]

/-- The twelve bytes behind its prefix.
Kind: C -/
theorem fields_encode_mov :
    ∃ insn, insnGetLength (fun j => movText.getD j 0) = some insn ∧
      insn.Fields (fun j => movText.getD j 0) ∧
      insn.encode = [0x48, 0xc7, 0x84, 0x24, 0x80, 0x00, 0x00, 0x00, 0x34, 0x12, 0x00, 0x00] := by
  obtain ⟨insn, h, hsum⟩ : ∃ insn, insnGetLength (fun j => movText.getD j 0) = some insn ∧
      (insn.nextByte, insn.offsetRexPrefix, insn.length.toNat) = (13, 1, 13) :=
    Option.map_eq_some_iff.1 (by decide)
  simp only [Prod.mk.injEq] at hsum
  obtain ⟨hnext, hoffset, hlength⟩ := hsum
  obtain ⟨hfields, hencode⟩ := fields_encode h (by rw [hnext]; decide)
  rw [hoffset, hlength] at hencode
  exact ⟨insn, h, hfields, hencode.trans rfl⟩

end Togpu.X86
