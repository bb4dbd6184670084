import Togpu.Insn.MapLookup

/-!
# The decoder follows the names of the map

What an opcode is, read off the map: start at the cell of the first byte; while the cell is an
escape, go to the table of that name with the next byte; if the cell is a group, go to the table of
that name with the ModRM byte. A last prefix selects the variant of a cell that has variants.

* `opcodeFlags`, `vexFlags` — the flags one reaches so, with the names of the map.
* **The decoder follows the names** (`opcodeAttr_eq_map`, `vexAttr_eq_map`): the attribute that the
  decoder computes with the generated tables is the word of these flags, for all bytes.
-/

namespace Togpu.OpcodeMap

open Togpu.Lib
open Togpu.X86

/-! ## Following names -/

/-- The flags of a kind are all the same.
Kind: D -/
def Agree (k : FlagKind) (fs : List (Flag String)) : Prop :=
  ∀ f ∈ fs, ∀ f' ∈ fs, f.kind = k → f'.kind = k → f = f'

/-- Whether the flags of a kind agree is decided on the list.
Kind: D -/
instance (k : FlagKind) (fs : List (Flag String)) : Decidable (Agree k fs) :=
  inferInstanceAs (Decidable (∀ f ∈ fs, ∀ f' ∈ fs, f.kind = k → f'.kind = k → f = f'))

/-- In every cell of the map the flags of a kind are all the same.
Kind: D -/
def OneOf (k : FlagKind) (bs : List Block) : Prop :=
  ∀ b ∈ bs, ∀ e ∈ b.entries, ∀ v ∈ variants, Agree k (b.cell v e.1)

/-- Whether they agree in every cell is decided on the tables.
Kind: D -/
instance (k : FlagKind) (bs : List Block) : Decidable (OneOf k bs) :=
  inferInstanceAs (Decidable (∀ b ∈ bs, ∀ e ∈ b.entries, ∀ v ∈ variants, Agree k (b.cell v e.1)))

/-- The table that a prefix selects.
Kind: D -/
def pfxVariant (fs : List (Flag String)) : Variant :=
  if Flag.pfx .opndsz ∈ fs then .p66
  else if Flag.pfx .repe ∈ fs then .pF3
  else if Flag.pfx .repne ∈ fs then .pF2
  else .plain

/-- The table that the last prefix selects; the byte 0 stands for no prefix.
Kind: D -/
def lastVariant (bs : List Block) (lastPfx : BitVec 8) : Variant :=
  if lastPfx = 0 then .plain else pfxVariant (cell bs .primary .plain (opcodeId lastPfx.toNat))

/-- A cell with variants has other flags behind a last prefix.
Kind: D -/
def variantFlags (c : Variant → List (Flag String)) (v : Variant) : List (Flag String) :=
  if Flag.variant ∈ c .plain then c v else c .plain

/-- The name of the escape in a cell.
Kind: D -/
def escapeName? (fs : List (Flag String)) : Option String :=
  fs.findSome? fun
    | .escape ref => some ref
    | _ => none

/-- The name of the group in a cell.
Kind: D -/
def groupName? (fs : List (Flag String)) : Option String :=
  fs.findSome? fun
    | .group name => some name
    | _ => none

/-- Follow escapes.
Kind: D -/
def followEscapes (bs : List Block) (v : Variant) :
    List (Flag String) → List (BitVec 8) → Option (List (Flag String) × List (BitVec 8))
  | fs, [] => if (escapeName? fs).isSome then none else some (fs, [])
  | fs, op :: rest =>
      match escapeName? fs with
      | some ref =>
          followEscapes bs v
            (variantFlags (fun v => cell bs (.escape ref) v (opcodeId op.toNat)) v) rest
      | none => some (fs, op :: rest)

/-- What is left of the flags of a cell when its group has been looked up.
Kind: D -/
def ungroup {ν : Type} : Flag ν → Flag ν
  | .group _ => .modrm
  | f => f

/-- Follow a group.
Kind: D -/
def modrmFlags (bs : List Block) (v : Variant) (fs : List (Flag String)) (rest : List (BitVec 8)) :
    Option (List (Flag String)) :=
  match groupName? fs with
  | some name =>
      rest.head?.map fun mod =>
        variantFlags (fun v => cell bs (.group name) v (groupId (modrmReg mod))) v ++ fs.map ungroup
  | none => if Flag.modrm ∈ fs then rest.head?.map fun _ => fs else some fs

/-- The flags of an opcode without a VEX prefix. An opcode that needs one has no flags.
Kind: D -/
def opcodeFlags (bs : List Block) (v : Variant) : List (BitVec 8) → Option (List (Flag String))
  | [] => none
  | op :: bytes =>
      (followEscapes bs v (cell bs .primary .plain (opcodeId op.toNat)) bytes).bind fun p =>
        modrmFlags bs v (if Flag.vexonly ∈ p.1 then [] else p.1) p.2

/-- The flags of an opcode with a VEX prefix. An opcode that does not accept one has no flags.
Kind: D -/
def vexFlags (bs : List Block) (v : Variant) (m : ℕ) (p : Variant) :
    List (BitVec 8) → Option (List (Flag String))
  | [] => none
  | op :: bytes =>
      let fs := cell bs (.avx m) p (opcodeId op.toNat)
      modrmFlags bs v (if Flag.vexok ∈ fs then fs else []) bytes

/-! ## Flags with names and with numbers -/

section Flags

variable {E G : Numbering String} {fs : List (Flag String)} {ns : List (Flag ℕ)}

/-- A flag without a number is the same with names and with numbers.
Kind: L -/
theorem mem_iff_of_number (h : numberAll E G fs = some ns) {n : Flag ℕ} {f : Flag String}
    (hf : ∀ f' : Flag String, f'.number E G = some n ↔ f' = f) : n ∈ ns ↔ f ∈ fs := by
  rw [mem_of_numberAll h]
  simp only [hf, exists_eq_right]

/-- Numbering keeps the prefix flags.
Kind: L -/
theorem pfx_mem_iff (h : numberAll E G fs = some ns) {p : Pfx} :
    Flag.pfx p ∈ ns ↔ Flag.pfx p ∈ fs := by
  refine mem_iff_of_number h fun f => ?_
  cases f <;> simp [Flag.number]

/-- Numbering keeps `INAT_VARIANT`.
Kind: L -/
theorem variant_mem_iff (h : numberAll E G fs = some ns) :
    Flag.variant ∈ ns ↔ Flag.variant ∈ fs := by
  refine mem_iff_of_number h fun f => ?_
  cases f <;> simp [Flag.number]

/-- Numbering keeps `INAT_MODRM`.
Kind: L -/
theorem modrm_mem_iff (h : numberAll E G fs = some ns) : Flag.modrm ∈ ns ↔ Flag.modrm ∈ fs := by
  refine mem_iff_of_number h fun f => ?_
  cases f <;> simp [Flag.number]

/-- Numbering keeps `INAT_VEXOK`.
Kind: L -/
theorem vexok_mem_iff (h : numberAll E G fs = some ns) : Flag.vexok ∈ ns ↔ Flag.vexok ∈ fs := by
  refine mem_iff_of_number h fun f => ?_
  cases f <;> simp [Flag.number]

/-- Numbering keeps `INAT_VEXONLY`.
Kind: L -/
theorem vexonly_mem_iff (h : numberAll E G fs = some ns) :
    Flag.vexonly ∈ ns ↔ Flag.vexonly ∈ fs := by
  refine mem_iff_of_number h fun f => ?_
  cases f <;> simp [Flag.number]

/-- The escape numbers of a list are those of its escapes.
Kind: L -/
theorem escape_mem_iff (h : numberAll E G fs = some ns) {n : ℕ} :
    Flag.escape n ∈ ns ↔ ∃ ref, Flag.escape ref ∈ fs ∧ E.id? ref = some n := by
  rw [mem_of_numberAll h]
  constructor
  · rintro ⟨f, hf, hn⟩
    cases f with
    | escape ref => exact ⟨ref, hf, by simpa [Flag.number] using hn⟩
    | _ => simp [Flag.number] at hn
  · rintro ⟨ref, hf, hn⟩
    exact ⟨_, hf, by simp [Flag.number, hn]⟩

/-- The group numbers of a list are those of its groups.
Kind: L -/
theorem group_mem_iff (h : numberAll E G fs = some ns) {n : ℕ} :
    Flag.group n ∈ ns ↔ ∃ name, Flag.group name ∈ fs ∧ G.id? name = some n := by
  rw [mem_of_numberAll h]
  constructor
  · rintro ⟨f, hf, hn⟩
    cases f with
    | group name => exact ⟨name, hf, by simpa [Flag.number] using hn⟩
    | _ => simp [Flag.number] at hn
  · rintro ⟨name, hf, hn⟩
    exact ⟨_, hf, by simp [Flag.number, hn]⟩

/-- A name in flags that were numbered has a number.
Kind: L -/
theorem exists_number (h : numberAll E G fs = some ns) {f : Flag String} (hf : f ∈ fs) :
    ∃ n, f.number E G = some n := by
  induction fs generalizing ns with
  | nil => cases hf
  | cons f' fs ih =>
      obtain ⟨m, ms, hm, hms, -⟩ := numberAll_cons_eq_some.mp h
      rcases List.mem_cons.mp hf with rfl | hmem
      · exact ⟨m, hm⟩
      · exact ih hms hmem

/-- The escape that is found is in the list.
Kind: L -/
theorem escapeName?_eq_some {ref : String} (h : escapeName? fs = some ref) :
    Flag.escape ref ∈ fs := by
  obtain ⟨f, hf, hr⟩ := List.exists_of_findSome?_eq_some h
  cases f with
  | escape ref' =>
      cases hr
      exact hf
  | _ => cases hr

/-- If none is found, the list has none.
Kind: L -/
theorem escapeName?_eq_none (h : escapeName? fs = none) (ref : String) : Flag.escape ref ∉ fs := by
  intro hmem
  cases List.findSome?_eq_none_iff.mp h _ hmem

/-- The group that is found is in the list.
Kind: L -/
theorem groupName?_eq_some {name : String} (h : groupName? fs = some name) :
    Flag.group name ∈ fs := by
  obtain ⟨f, hf, hr⟩ := List.exists_of_findSome?_eq_some h
  cases f with
  | group name' =>
      cases hr
      exact hf
  | _ => cases hr

/-- If none is found, the list has none.
Kind: L -/
theorem groupName?_eq_none (h : groupName? fs = none) (name : String) : Flag.group name ∉ fs := by
  intro hmem
  cases List.findSome?_eq_none_iff.mp h _ hmem

end Flags

/-! ## The last prefix and variants -/

section Follow

variable {lines : List String} {bs : List Block} {g : Gen} {T : InatTables}
  {fs : List (Flag String)}

/-- An index that no entry has is an empty cell.
Kind: L -/
theorem entriesCell_eq_nil {entries : List (String × List String)} {idx : String}
    (h : ∀ e ∈ entries, e.1 ≠ idx) (v : Variant) : entriesCell entries v idx = [] := by
  refine List.flatMap_eq_nil_iff.mpr ?_
  intro e he
  exact if_neg (h e he)

/-- What is asked of the entries holds of every cell.
Kind: L -/
theorem OneOf.cell {k : FlagKind} (h : OneOf k bs) {b : Block} (hb : b ∈ bs) (v : Variant)
    (idx : String) : Agree k (b.cell v idx) := by
  by_cases hidx : ∃ e ∈ b.entries, e.1 = idx
  · obtain ⟨e, he, rfl⟩ := hidx
    exact h b hb e he v (mem_variants v)
  · push Not at hidx
    rw [Block.cell, entriesCell_eq_nil hidx]
    intro f hf
    cases hf

/-- A cell of a map is empty or that of one of its tables.
Kind: D -/
def IsCell (bs : List Block) (fs : List (Flag String)) : Prop :=
  fs = [] ∨ ∃ b ∈ bs, ∃ v idx, fs = b.cell v idx

/-- When no two tables are for the same thing, what the map says of an opcode is one cell of one
table.
Kind: L -/
theorem isCell_cell (hkeys : (bs.flatMap fun b => b.head.keys).Nodup) (k : Key) (v : Variant)
    (idx : String) : IsCell bs (cell bs k v idx) := by
  by_cases hk : ∃ b ∈ bs, k ∈ b.head.keys
  · obtain ⟨b, hb, hk⟩ := hk
    exact Or.inr ⟨b, hb, v, idx, cell_eq_of_mem hkeys hb hk⟩
  · push Not at hk
    exact Or.inl (cell_eq_nil fun b hb hkb => absurd hkb (hk b hb))

/-- The flags behind a last prefix are those of a cell.
Kind: L -/
theorem IsCell.variantFlags {c : Variant → List (Flag String)} (h : ∀ v, IsCell bs (c v))
    (v : Variant) : IsCell bs (variantFlags c v) := by
  unfold OpcodeMap.variantFlags
  split_ifs
  · exact h v
  · exact h .plain

/-- Flags of a kind that agree in every cell of the map agree in the cell of an opcode.
Kind: L -/
theorem IsCell.agree {k : FlagKind} (hone : OneOf k bs) (h : IsCell bs fs) : Agree k fs := by
  rcases h with rfl | ⟨b, hb, v, idx, rfl⟩
  · intro f hf
    cases hf
  · exact hone.cell hb v idx

/-- The last prefix selects the same table in the map and in the decoder.
Kind: L -/
theorem lastPrefixVariant_eq (h : Compiled lines bs g T) (hone : OneOf .pfx bs)
    (lastPfx : BitVec 8) : T.lastPrefixVariant lastPfx = (lastVariant bs lastPfx).num := by
  unfold InatTables.lastPrefixVariant lastVariant
  by_cases hz : lastPfx = 0
  · rw [if_neg (not_not.mpr hz), if_pos hz]
    rfl
  rw [if_pos hz, if_neg hz]
  obtain ⟨ns, hns, -, hreads⟩ := h.word_eq_some (getOpcodeAttribute_word h lastPfx)
  have hagree := (isCell_cell h.keys .primary .plain (opcodeId lastPfx.toNat)).agree hone
  generalize cell bs .primary .plain (opcodeId lastPfx.toNat) = fs at hns hagree
  by_cases hp : ∃ p, Flag.pfx p ∈ fs
  · obtain ⟨p, hp⟩ := hp
    have honly : ∀ q, Flag.pfx q ∈ fs ↔ q = p := by
      intro q
      constructor
      · intro hq
        exact Flag.pfx.inj (hagree _ hq _ hp rfl rfl)
      · rintro rfl
        exact hp
    have hcode := hreads.pfx p ((pfx_mem_iff hns).mpr hp)
      fun q hq => (honly q).mp ((pfx_mem_iff hns).mp hq)
    rw [inatLastPrefixId, hcode, pfxVariant]
    simp only [honly]
    cases p <;> rfl
  · push Not at hp
    have hcode := hreads.noPfx fun p hmem => hp p ((pfx_mem_iff hns).mp hmem)
    rw [inatLastPrefixId, hcode, pfxVariant]
    simp only [hp, if_false]
    rfl

/-- `inat_has_variant` and the second table, in the map and in the decoder.
Kind: L -/
theorem select_word (h : Compiled lines bs g T) {c : Variant → List (Flag String)}
    {tables : ℕ → Option (ℕ → ℕ)} {i : ℕ}
    (hc : ∀ v, g.word (c v) = some (((tables v.num).map fun table => table i).getD 0))
    (v : Variant) :
    g.word (variantFlags c v) = some ((InatTables.select tables v.num i).getD 0) := by
  obtain ⟨ns, hns, hw, hreads⟩ := h.word_eq_some (hc .plain)
  have hvar := hreads.hasVariant
  rw [variant_mem_iff hns] at hvar
  unfold variantFlags InatTables.select
  have hplain := hc .plain
  rw [show Variant.plain.num = 0 from rfl] at hvar hplain
  cases htab : tables 0 with
  | none =>
      rw [htab] at hvar hplain
      have hnot : Flag.variant ∉ c .plain := by
        rw [← hvar]
        show ¬inatHasVariant 0 = true
        decide
      rw [if_neg hnot]
      exact hplain
  | some table =>
      rw [htab] at hvar hplain
      have hvar' : inatHasVariant (table i) = true ↔ Flag.variant ∈ c .plain := hvar
      by_cases hmem : Flag.variant ∈ c .plain
      · rw [if_pos hmem]
        by_cases hv : v = .plain
        · subst hv
          simpa [Variant.num] using hplain
        · have hnum : v.num ≠ 0 := by
            cases v with
            | plain => exact absurd rfl hv
            | _ => decide
          simp only [hvar'.mpr hmem, hnum, ne_eq, not_false_eq_true, and_self, if_true]
          exact hc v
      · rw [if_neg hmem]
        simp only [hvar', hmem, false_and, if_false]
        exact hplain

/-! ## Escapes -/

/-- A cell with an escape has nothing else.
Kind: L -/
theorem IsCell.escapeOnly (h : Compiled lines bs g T) (hc : IsCell bs fs) {ref : String}
    (hmem : Flag.escape ref ∈ fs) : fs = [.escape ref] := by
  obtain ⟨done, hfst, hinv⟩ := generate_inv h.isMap h.generated
  rcases hc with rfl | ⟨b, hb, v, idx, rfl⟩
  · cases hmem
  · obtain ⟨p, hp, rfl⟩ := List.mem_map.mp (hfst ▸ hb)
    exact ((hinv.snaps p hp).escapeOnly v idx ref hmem).2

/-- `inat_is_escape` sees the escape of a cell.
Kind: L -/
theorem isEscape_iff (h : Compiled lines bs g T) {attr : ℕ} (hattr : g.word fs = some attr) :
    inatIsEscape attr = true ↔ (escapeName? fs).isSome = true := by
  obtain ⟨ns, hns, rfl, hreads⟩ := h.word_eq_some hattr
  rw [hreads.isEscape]
  cases hname : escapeName? fs with
  | none =>
      have hnot : ¬∃ n, Flag.escape n ∈ ns := by
        rintro ⟨n, hn⟩
        obtain ⟨ref, hmem, -⟩ := (escape_mem_iff hns).mp hn
        exact escapeName?_eq_none hname ref hmem
      simp [hnot]
  | some ref =>
      obtain ⟨n, hn⟩ := exists_number hns (escapeName?_eq_some hname)
      obtain ⟨m, hm, -⟩ := Option.map_eq_some_iff.mp hn
      simp only [Option.isSome_some, iff_true]
      exact ⟨m, (escape_mem_iff hns).mpr ⟨ref, escapeName?_eq_some hname, hm⟩⟩

/-- `inat_get_escape_attribute` finds the cell behind the escape.
Kind: L -/
theorem getEscapeAttribute_word (h : Compiled lines bs g T) (hone : OneOf .pfx bs)
    (hc : IsCell bs fs) {attr : ℕ} (hattr : g.word fs = some attr) {ref : String}
    (href : escapeName? fs = some ref) (lastPfx op : BitVec 8) :
    g.word (variantFlags (fun v => cell bs (.escape ref) v (opcodeId op.toNat))
      (lastVariant bs lastPfx)) = some (T.getEscapeAttribute op lastPfx attr) := by
  obtain ⟨ns, hns, rfl, hreads⟩ := h.word_eq_some hattr
  have hmem := escapeName?_eq_some href
  obtain ⟨n, hn⟩ := exists_number hns hmem
  obtain ⟨m, hm, -⟩ := Option.map_eq_some_iff.mp hn
  have hid : inatEscapeId (attrWord ns) = m := by
    refine hreads.escapeId m ((escape_mem_iff hns).mpr ⟨ref, hmem, hm⟩) ?_
    intro m' hm'
    obtain ⟨ref', hmem', hid'⟩ := (escape_mem_iff hns).mp hm'
    rw [hc.escapeOnly h hmem, List.mem_singleton, Flag.escape.injEq] at hmem'
    subst hmem'
    exact Option.some_inj.mp (hid'.symm.trans hm)
  rw [InatTables.getEscapeAttribute, hid, lastPrefixVariant_eq h hone]
  exact select_word h (fun v => escape_word h hm v op.isLt) _

/-- **The loop over escapes**: the map and the decoder go the same way, by induction over the bytes.
Kind: P -/
theorem escapeLoop_eq (h : Compiled lines bs g T) (hone : OneOf .pfx bs) (lastPfx : BitVec 8)
    (bytes : List (BitVec 8)) {attr : ℕ} (hc : IsCell bs fs) (hattr : g.word fs = some attr) :
    (followEscapes bs (lastVariant bs lastPfx) fs bytes = none ∧
        T.escapeLoop lastPfx attr bytes = none) ∨
      ∃ fs' attr' rest, followEscapes bs (lastVariant bs lastPfx) fs bytes = some (fs', rest) ∧
        T.escapeLoop lastPfx attr bytes = some (attr', rest) ∧ IsCell bs fs' ∧
        g.word fs' = some attr' := by
  induction bytes generalizing fs attr with
  | nil =>
      have hesc := isEscape_iff h hattr
      rw [followEscapes, InatTables.escapeLoop]
      by_cases hname : (escapeName? fs).isSome = true
      · rw [if_pos hname, if_pos (hesc.mpr hname)]
        exact Or.inl ⟨rfl, rfl⟩
      · rw [if_neg hname, if_neg (mt hesc.mp hname)]
        exact Or.inr ⟨fs, attr, [], rfl, rfl, hc, hattr⟩
  | cons op rest ih =>
      have hesc := isEscape_iff h hattr
      rw [followEscapes, InatTables.escapeLoop]
      cases hname : escapeName? fs with
      | none =>
          rw [hname] at hesc
          rw [if_neg (mt hesc.mp Bool.false_ne_true)]
          exact Or.inr ⟨fs, attr, op :: rest, rfl, rfl, hc, hattr⟩
      | some ref =>
          rw [hname] at hesc
          rw [if_pos (hesc.mpr rfl)]
          exact ih (IsCell.variantFlags (fun v => isCell_cell h.keys _ v _) _)
            (getEscapeAttribute_word h hone hc hattr hname lastPfx op)

/-! ## Groups -/

/-- `inat_is_group` sees the group of a cell.
Kind: L -/
theorem isGroup_iff (h : Compiled lines bs g T) {attr : ℕ} (hattr : g.word fs = some attr) :
    inatIsGroup attr = true ↔ (groupName? fs).isSome = true := by
  obtain ⟨ns, hns, rfl, hreads⟩ := h.word_eq_some hattr
  rw [hreads.isGroup]
  cases hname : groupName? fs with
  | none =>
      have hnot : ¬∃ n, Flag.group n ∈ ns := by
        rintro ⟨n, hn⟩
        obtain ⟨name, hmem, -⟩ := (group_mem_iff hns).mp hn
        exact groupName?_eq_none hname name hmem
      simp [hnot]
  | some name =>
      obtain ⟨n, hn⟩ := exists_number hns (groupName?_eq_some hname)
      obtain ⟨m, hm, -⟩ := Option.map_eq_some_iff.mp hn
      simp only [Option.isSome_some, iff_true]
      exact ⟨m, (group_mem_iff hns).mpr ⟨name, groupName?_eq_some hname, hm⟩⟩

/-- `inat_group_common_attribute` keeps every flag but the number of the group.
Kind: L -/
theorem inatGroupCommonAttribute_attrWord {ns : List (Flag ℕ)} (hfit : ∀ f ∈ ns, f.Fits) :
    inatGroupCommonAttribute (attrWord ns) = attrWord (ns.map ungroup) := by
  have hread := (orHom_field (0xffffffff ^^^ inatGrpMask) 0).map_orAll (ns.map Flag.value)
  simp only [Nat.shiftRight_zero] at hread
  rw [inatGroupCommonAttribute, attrWord, attrWord, hread, List.map_map, List.map_map]
  congr 1
  refine List.map_congr_left ?_
  intro f hf
  have hgroup : ∀ n < 32, makeGroup n &&& (0xffffffff ^^^ inatGrpMask) = inatModrm := by decide
  have hescape : ∀ n < 4, makeEscape n &&& (0xffffffff ^^^ inatGrpMask) = makeEscape n := by decide
  have hfits := hfit f hf
  cases f with
  | imm size => cases size <;> rfl
  | pfx p => cases p <;> rfl
  | group n => exact hgroup n hfits.2
  | escape n => exact hescape n hfits.2
  | moffset | scndimm | modrm | force64 | vexok | vexonly | variant => rfl

/-- Leaving groups out and numbering can be exchanged.
Kind: L -/
theorem numberAll_map_ungroup {E G : Numbering String} {ns : List (Flag ℕ)}
    (hns : numberAll E G fs = some ns) :
    numberAll E G (fs.map ungroup) = some (ns.map ungroup) := by
  induction fs generalizing ns with
  | nil =>
      cases hns
      rfl
  | cons f fs ih =>
      obtain ⟨n, ms, hn, hms, rfl⟩ := numberAll_cons_eq_some.mp hns
      refine numberAll_cons_eq_some.mpr ⟨ungroup n, _, ?_, ih hms, rfl⟩
      cases f with
      | group name =>
          obtain ⟨m, -, rfl⟩ := Option.map_eq_some_iff.mp hn
          rfl
      | escape name =>
          obtain ⟨m, hm, rfl⟩ := Option.map_eq_some_iff.mp hn
          exact hn
      | _ =>
          cases hn
          rfl

/-- The word of two lists is the or of their words.
Kind: L -/
theorem attrWord_append (ns ms : List (Flag ℕ)) :
    attrWord (ns ++ ms) = attrWord ns ||| attrWord ms := by
  induction ns with
  | nil => rw [List.nil_append, show attrWord [] = 0 from rfl, Nat.zero_or]
  | cons n ns ih =>
      show n.value ||| attrWord (ns ++ ms) = (n.value ||| attrWord ns) ||| attrWord ms
      rw [ih, Nat.or_assoc]

/-- `inat_get_group_attribute` finds the cell of the group and adds the other flags.
Kind: L -/
theorem getGroupAttribute_word (h : Compiled lines bs g T) (hpfx : OneOf .pfx bs)
    (hgrp : OneOf .group bs) (hc : IsCell bs fs) {attr : ℕ} (hattr : g.word fs = some attr)
    {name : String} (hname : groupName? fs = some name) (lastPfx mod : BitVec 8) :
    g.word (variantFlags (fun v => cell bs (.group name) v (groupId (modrmReg mod)))
      (lastVariant bs lastPfx) ++ fs.map ungroup) =
      some (T.getGroupAttribute mod lastPfx attr) := by
  obtain ⟨ns, hns, rfl, hreads⟩ := h.word_eq_some hattr
  have hmem := groupName?_eq_some hname
  obtain ⟨n, hn⟩ := exists_number hns hmem
  obtain ⟨m, hm, -⟩ := Option.map_eq_some_iff.mp hn
  have hid : inatGroupId (attrWord ns) = m := by
    refine hreads.groupId m ((group_mem_iff hns).mpr ⟨name, hmem, hm⟩) ?_
    intro m' hm'
    obtain ⟨name', hmem', hid'⟩ := (group_mem_iff hns).mp hm'
    obtain rfl := Flag.group.inj (hc.agree hgrp _ hmem' _ hmem rfl rfl)
    exact Option.some_inj.mp (hid'.symm.trans hm)
  have hreg : modrmReg mod < 8 := Nat.mod_lt _ (by decide)
  have hsel := select_word h (fun v => group_word h hm v hreg) (lastVariant bs lastPfx)
  obtain ⟨ms, hms, hmsw, -⟩ := h.word_eq_some hsel
  rw [Gen.word, numberAll_append hms (numberAll_map_ungroup hns), Option.map_some, attrWord_append,
    ← hmsw, InatTables.getGroupAttribute, hid, lastPrefixVariant_eq h hpfx,
    inatGroupCommonAttribute_attrWord (h.fits hns)]
  cases InatTables.select (T.groups m) (lastVariant bs lastPfx).num (modrmReg mod) with
  | none => simp
  | some a => rfl

/-- `insn_get_modrm` on a cell.
Kind: L -/
theorem modrmAttr_eq (h : Compiled lines bs g T) (hpfx : OneOf .pfx bs) (hgrp : OneOf .group bs)
    (hc : IsCell bs fs) {attr : ℕ} (hattr : g.word fs = some attr) (lastPfx : BitVec 8)
    (rest : List (BitVec 8)) :
    T.modrmAttr lastPfx attr rest =
      (modrmFlags bs (lastVariant bs lastPfx) fs rest).bind g.word := by
  have hisgrp := isGroup_iff h hattr
  have hmod : inatHasModrm attr = true ↔ Flag.modrm ∈ fs ∨ (groupName? fs).isSome = true := by
    rw [← hisgrp]
    obtain ⟨ns, hns, rfl, hreads⟩ := h.word_eq_some hattr
    rw [hreads.modrm, hreads.isGroup, modrm_mem_iff hns]
  unfold InatTables.modrmAttr modrmFlags
  cases hname : groupName? fs with
  | some name =>
      rw [hname] at hisgrp hmod
      rw [if_pos (hmod.mpr (Or.inr rfl))]
      cases rest with
      | nil => rfl
      | cons mod rest =>
          simp only [List.head?_cons, Option.map_some, Option.bind_some, hisgrp.mpr rfl, if_true]
          exact (getGroupAttribute_word h hpfx hgrp hc hattr hname lastPfx mod).symm
  | none =>
      rw [hname] at hisgrp hmod
      simp only [Option.isSome_none, Bool.false_eq_true, or_false] at hmod hisgrp
      by_cases hm : Flag.modrm ∈ fs
      · rw [if_pos (hmod.mpr hm), if_pos hm]
        cases rest with
        | nil => rfl
        | cons mod rest => simp [hisgrp, hattr]
      · rw [if_neg (mt hmod.mp hm), if_neg hm]
        exact hattr.symm

/-- The word of an empty cell is zero.
Kind: L -/
theorem word_nil (g : Gen) : g.word [] = some 0 := rfl

/-- **The decoder follows the names of the map**: the attribute that `insn_get_opcode` and
`insn_get_modrm` compute with the generated tables is the word of the flags that one reaches in the
map by following the names of escapes and groups, for all bytes and all last prefixes.
Source: `gen-insn-attr-x86.awk` 1–378; `inat.c` 27–78; `insn.c` 175–249
Kind: C
Hyps: the generator and the C compiler accept the map; no two tables are for the same; names fit;
no cell has two groups or two prefixes. -/
theorem opcodeAttr_eq_map (h : Compiled lines bs g T) (hpfx : OneOf .pfx bs)
    (hgrp : OneOf .group bs) (lastPfx : BitVec 8) (bytes : List (BitVec 8)) :
    T.opcodeAttr lastPfx bytes = (opcodeFlags bs (lastVariant bs lastPfx) bytes).bind g.word := by
  cases bytes with
  | nil => rfl
  | cons op bytes =>
      have hcell := isCell_cell h.keys .primary .plain (opcodeId op.toNat)
      rw [InatTables.opcodeAttr, opcodeFlags]
      rcases escapeLoop_eq h hpfx lastPfx bytes hcell (getOpcodeAttribute_word h op) with
        ⟨hmap, hdec⟩ | ⟨fs, attr, rest, hmap, hdec, hc, hattr⟩
      · rw [hmap, hdec]
        rfl
      · rw [hmap, hdec, Option.bind_some, Option.bind_some]
        have hvex : inatMustVex attr = true ↔ Flag.vexonly ∈ fs := by
          obtain ⟨ns, hns, rfl, hreads⟩ := h.word_eq_some hattr
          rw [hreads.mustVex, vexonly_mem_iff hns]
        simp only [hvex]
        split_ifs
        · exact modrmAttr_eq h hpfx hgrp (Or.inl rfl) (word_nil g) lastPfx rest
        · exact modrmAttr_eq h hpfx hgrp hc hattr lastPfx rest

/-- A small map.
Kind: D -/
def smallMap : List String :=
  ["# opcodes", "Table: one byte opcode", "Referrer:", "AVXcode:",
    "0f: escape # 2-byte escape", "66: Operand-Size (Prefix)", "80: Grp1 Eb,Ib", "EndTable",
    "Table: 2-byte opcode (0x0f)", "Referrer: 2-byte escape", "AVXcode: 1",
    "10: movups Vps,Wps (VEX) | movupd Vpd,Wpd (66),(VEX)", "EndTable",
    "GrpTable: Grp1", "7: CMP (f64)", "EndTable"]

/-- Its tables.
Kind: D -/
def smallBlocks : List Block :=
  [⟨.opcodes [] [], [("0x0f", ["escape", "#", "2-byte", "escape"]),
      ("0x66", ["Operand-Size", "(Prefix)"]), ("0x80", ["Grp1", "Eb,Ib"])]⟩,
    ⟨.opcodes ["2-byte", "escape"] ["1"],
      [("0x10", ["movups", "Vps,Wps", "(VEX)", "|", "movupd", "Vpd,Wpd", "(66),(VEX)"])]⟩,
    ⟨.group "Grp1", [("0x7", ["CMP", "(f64)"])]⟩]

/-- Do the generator and the C compiler accept a map, and do its names fit?
Kind: D -/
def accepts (lines : List String) : Bool :=
  match generate lines with
  | .ok g => g.output.compile.isSome && decide (g.escape.next ≤ 4) && decide (g.group.next ≤ 32)
  | .error _ => false

/-- An accepted map is compiled to some tables.
Kind: L -/
theorem exists_compiled (hmap : IsMap lines bs)
    (hkeys : (bs.flatMap fun b => b.head.keys).Nodup) (hacc : accepts lines = true) :
    ∃ g T, Compiled lines bs g T := by
  unfold accepts at hacc
  cases hgen : generate lines with
  | error e =>
      rw [hgen] at hacc
      cases hacc
  | ok g =>
      rw [hgen] at hacc
      simp only [Bool.and_eq_true, decide_eq_true_eq] at hacc
      obtain ⟨T, hT⟩ := Option.isSome_iff_exists.mp hacc.1.1
      exact ⟨g, T, hmap, hgen, hT, hkeys, hacc.1.2, hacc.2⟩

/-- Behind `66 0F`, the opcode `10` of the small map is `movupd`.
Kind: P -/
theorem opcodeAttr_smallMap : ∃ g T, Compiled smallMap smallBlocks g T ∧
    T.opcodeAttr 0x66 [0x0f, 0x10, 0xc0] = some (inatModrm ||| inatVexok) := by
  obtain ⟨g, T, h⟩ := exists_compiled (show IsMap smallMap smallBlocks by decide +kernel)
    (by decide +kernel) (by decide +kernel)
  refine ⟨g, T, h, ?_⟩
  have hflags : opcodeFlags smallBlocks (lastVariant smallBlocks 0x66) [0x0f, 0x10, 0xc0] =
      some [.modrm, .vexok] := by decide +kernel
  rw [opcodeAttr_eq_map h (by decide +kernel) (by decide +kernel), hflags]
  rfl

/-- No table has an AVX code that is too large.
Kind: L -/
theorem avx_eq_none (h : Compiled lines bs g T) {m : ℕ} (hm : 31 < m) (v : Variant) :
    T.avx m v.num = none := by
  obtain ⟨-, -, -, -, havx⟩ := h.accepted
  rw [h.tables]
  show g.output.pointer g.output.avx m v.num = none
  rw [Output.pointer, Variant.ofNum_num, Option.bind_some, Option.map_eq_none_iff]
  cases hlook : g.output.avx.lookup (m, v) with
  | none => rfl
  | some name => exact absurd (havx _ (mem_of_lookup_eq_some hlook)) (by simpa using hm)

/-- `inat_get_avx_attribute` finds the cell of the AVX code.
Kind: L -/
theorem getAvxAttribute_word (h : Compiled lines bs g T) (op : BitVec 8) (m : ℕ) (p : Variant) :
    g.word (cell bs (.avx m) p (opcodeId op.toNat)) = some (T.getAvxAttribute op m p.num) := by
  have hp : ¬p.num > 3 := by cases p <;> decide
  rw [avx_word h m p op.isLt, InatTables.getAvxAttribute]
  by_cases hm : m > 0x1f
  · rw [if_pos (Or.inl hm), avx_eq_none h hm p]
    rfl
  · rw [if_neg (not_or.mpr ⟨hm, hp⟩)]
    cases T.avx m p.num <;> rfl

/-- **The decoder follows the names of the map behind a VEX prefix**, whatever its fields are.
Source: `gen-insn-attr-x86.awk` 1–378; `inat.c` 55–90; `insn.c` 175–249
Kind: C
Hyps: as in `opcodeAttr_eq_map`. -/
theorem vexAttr_eq_map (h : Compiled lines bs g T) (hpfx : OneOf .pfx bs) (hgrp : OneOf .group bs)
    (lastPfx : BitVec 8) (m : ℕ) (p : Variant) (bytes : List (BitVec 8)) :
    T.vexAttr lastPfx m p.num bytes =
      (vexFlags bs (lastVariant bs lastPfx) m p bytes).bind g.word := by
  cases bytes with
  | nil => rfl
  | cons op bytes =>
      have hcell := isCell_cell h.keys (.avx m) p (opcodeId op.toNat)
      have hattr := getAvxAttribute_word h op m p
      have hvex : inatAcceptVex (T.getAvxAttribute op m p.num) = true ↔
          Flag.vexok ∈ cell bs (.avx m) p (opcodeId op.toNat) := by
        obtain ⟨ns, hns, heq, hreads⟩ := h.word_eq_some hattr
        rw [hreads.acceptVex, vexok_mem_iff hns]
      rw [InatTables.vexAttr, vexFlags]
      simp only [hvex]
      split_ifs
      · exact modrmAttr_eq h hpfx hgrp hcell hattr lastPfx bytes
      · exact modrmAttr_eq h hpfx hgrp (Or.inl rfl) (word_nil g) lastPfx bytes

/-- Behind a VEX prefix with the fields of `66 0F` too.
Kind: P -/
theorem vexAttr_smallMap : ∃ g T, Compiled smallMap smallBlocks g T ∧
    T.vexAttr 0 1 Variant.p66.num [0x10, 0xc0] = some (inatModrm ||| inatVexok) := by
  obtain ⟨g, T, h⟩ := exists_compiled (show IsMap smallMap smallBlocks by decide +kernel)
    (by decide +kernel) (by decide +kernel)
  refine ⟨g, T, h, ?_⟩
  have hflags : vexFlags smallBlocks (lastVariant smallBlocks 0) 1 .p66 [0x10, 0xc0] =
      some [.modrm, .vexok] := by decide +kernel
  rw [vexAttr_eq_map h (by decide +kernel) (by decide +kernel), hflags]
  rfl

end Follow

end Togpu.OpcodeMap
