import Togpu.Insn.Target
import Togpu.Insn.MapTables

/-!
# What the decoder looks up is what the map says

The generator, the C compiler and the lookups of `inat.c` together.

* `InatTables.getOpcodeAttribute` and its companions — the lookups of `inat.c` over any tables;
  `bundled` — the tables of `inat-tables.h`, at which they are the lookups of the decoder.
* `Compiled` — tables made from a map, and what is asked of the map.
* **Over its own tables this is the decoder** (`bundled_opcodeAttr`, `bundled_vexAttr`).
* **A lookup finds a cell** of the map (`getOpcodeAttribute_word`, `escape_word`, `group_word`,
  `avx_word`).
-/

namespace Togpu.OpcodeMap

open Togpu.Lib
open Togpu.X86

/-! ## The lookups over any tables -/

namespace InatTables

variable (T : InatTables)

/-- `inat_get_opcode_attribute`.
Source: `inat.c` 27–30
Kind: D -/
def getOpcodeAttribute (opcode : BitVec 8) : ℕ := T.primary opcode.toNat

/-- The variant number of the last prefix, `0` when there is none.
Source: `inat.c` 40–43
Kind: D -/
def lastPrefixVariant (lastPfx : BitVec 8) : ℕ :=
  if lastPfx ≠ 0 then inatLastPrefixId (T.getOpcodeAttribute lastPfx) else 0

/-- The entry of the table that the variant selects, if there is such a table.
Source: `inat.c` 44–52, 67–75
Kind: D -/
def select (tables : ℕ → Option (ℕ → ℕ)) (m i : ℕ) : Option ℕ :=
  match tables 0 with
  | none => none
  | some table =>
      if inatHasVariant (table i) ∧ m ≠ 0 then (tables m).map fun table => table i
      else some (table i)

/-- `inat_get_escape_attribute`.
Source: `inat.c` 32–53
Kind: D -/
def getEscapeAttribute (opcode lastPfx : BitVec 8) (escAttr : ℕ) : ℕ :=
  (select (T.escapes (inatEscapeId escAttr)) (T.lastPrefixVariant lastPfx) opcode.toNat).getD 0

/-- `inat_get_group_attribute`.
Source: `inat.c` 55–78
Kind: D -/
def getGroupAttribute (modrm lastPfx : BitVec 8) (grpAttr : ℕ) : ℕ :=
  let common := inatGroupCommonAttribute grpAttr
  match select (T.groups (inatGroupId grpAttr)) (T.lastPrefixVariant lastPfx) (modrmReg modrm) with
  | none => common
  | some attr => attr ||| common

/-- `inat_get_avx_attribute`.
Source: `inat.c` 80–90
Kind: D -/
def getAvxAttribute (opcode : BitVec 8) (vexM vexP : ℕ) : ℕ :=
  if vexM > 0x1f ∨ vexP > 3 then 0
  else
    match T.avx vexM vexP with
    | none => 0
    | some table => table opcode.toNat

/-- The loop of `insn_get_opcode` over escapes: the attribute and the bytes behind the opcode.
Source: `insn.c` 200–206
Kind: D -/
def escapeLoop (lastPfx : BitVec 8) : ℕ → List (BitVec 8) → Option (ℕ × List (BitVec 8))
  | attr, [] => if inatIsEscape attr then none else some (attr, [])
  | attr, op :: rest =>
      if inatIsEscape attr then escapeLoop lastPfx (T.getEscapeAttribute op lastPfx attr) rest
      else some (attr, op :: rest)

/-- The attribute after `insn_get_modrm`.
Source: `insn.c` 231–240
Kind: D -/
def modrmAttr (lastPfx : BitVec 8) (attr : ℕ) (rest : List (BitVec 8)) : Option ℕ :=
  if inatHasModrm attr then
    rest.head?.map fun mod =>
      if inatIsGroup attr then T.getGroupAttribute mod lastPfx attr else attr
  else some attr

/-- The attribute that `insn_get_opcode` and `insn_get_modrm` compute from the bytes behind the
prefixes, without a VEX prefix; nothing if the bytes end before.
Source: `insn.c` 184–187, 199–208, 231–240
Kind: D -/
def opcodeAttr (lastPfx : BitVec 8) : List (BitVec 8) → Option ℕ
  | [] => none
  | op :: bytes =>
      (T.escapeLoop lastPfx (T.getOpcodeAttribute op) bytes).bind fun p =>
        T.modrmAttr lastPfx (if inatMustVex p.1 then 0 else p.1) p.2

/-- The same with a VEX prefix whose fields are `m` and `p`.
Source: `insn.c` 184–197, 231–240
Kind: D -/
def vexAttr (lastPfx : BitVec 8) (m p : ℕ) : List (BitVec 8) → Option ℕ
  | [] => none
  | op :: bytes =>
      let attr := T.getAvxAttribute op m p
      T.modrmAttr lastPfx (if inatAcceptVex attr then attr else 0) bytes

/-! ## The decoder's own tables -/

/-- The tables of `inat-tables.h`.
Kind: D -/
def bundled : InatTables where
  primary := tableEntry inatPrimaryTable
  escapes := fun n m => (inatEscapeTables n m).map tableEntry
  groups := fun n m => (inatGroupTables n m).map tableEntry
  avx := fun m p => (inatAvxTables m p).map tableEntry

/-- The choice between a table and the one of the last prefix, in the tables at hand.
Kind: L -/
theorem bundled_select (tables : ℕ → Option (List (ℕ × ℕ × ℕ))) (m i : ℕ) :
    select (fun m => (tables m).map tableEntry) m i =
      match tables 0 with
      | none => none
      | some table =>
          if inatHasVariant (tableEntry table i) ∧ m ≠ 0 then
            (tables m).map fun table => tableEntry table i
          else some (tableEntry table i) := by
  unfold select
  cases h : tables 0 with
  | none => simp only [h, Option.map_none]
  | some table => simp only [h, Option.map_some, Option.map_map, Function.comp_def]

/-- The look-up behind an escape, in the tables at hand.
Kind: L -/
theorem bundled_getEscapeAttribute (opcode lastPfx : BitVec 8) (escAttr : ℕ) :
    bundled.getEscapeAttribute opcode lastPfx escAttr =
      inatGetEscapeAttribute opcode lastPfx escAttr := by
  have hm : bundled.lastPrefixVariant lastPfx = X86.lastPrefixVariant lastPfx := rfl
  rw [getEscapeAttribute, inatGetEscapeAttribute, hm]
  simp only [bundled, bundled_select]
  cases inatEscapeTables (inatEscapeId escAttr) 0 with
  | none => rfl
  | some table =>
      simp only
      split_ifs
      · cases inatEscapeTables (inatEscapeId escAttr) (X86.lastPrefixVariant lastPfx) <;> rfl
      · rfl

/-- The look-up in a group, in the tables at hand.
Kind: L -/
theorem bundled_getGroupAttribute (modrm lastPfx : BitVec 8) (grpAttr : ℕ) :
    bundled.getGroupAttribute modrm lastPfx grpAttr =
      inatGetGroupAttribute modrm lastPfx grpAttr := by
  have hm : bundled.lastPrefixVariant lastPfx = X86.lastPrefixVariant lastPfx := rfl
  rw [getGroupAttribute, inatGetGroupAttribute, hm]
  simp only [bundled, bundled_select]
  cases inatGroupTables (inatGroupId grpAttr) 0 with
  | none => rfl
  | some table =>
      simp only
      split_ifs
      · cases inatGroupTables (inatGroupId grpAttr) (X86.lastPrefixVariant lastPfx) <;> rfl
      · rfl

/-- The look-up behind a VEX prefix, in the tables at hand.
Kind: L -/
theorem bundled_getAvxAttribute (opcode : BitVec 8) (vexM vexP : ℕ) :
    bundled.getAvxAttribute opcode vexM vexP = inatGetAvxAttribute opcode vexM vexP := by
  rw [getAvxAttribute, inatGetAvxAttribute]
  simp only [bundled]
  cases inatAvxTables vexM vexP <;> rfl

/-- The bytes of the stream from a position on start with these.
Kind: D -/
def StartsAt (s : Stream) : ℕ → List (BitVec 8) → Prop
  | _, [] => True
  | pos, b :: bytes => s pos = b ∧ StartsAt s (pos + 1) bytes

/-- The loop over escapes is that of the decoder.
Kind: L -/
theorem bundled_escapeLoop (s : Stream) (insn : Insn) {bytes rest : List (BitVec 8)} {attr : ℕ}
    {n : ℕ} (hbytes : StartsAt s insn.nextByte bytes)
    (hdone : inatIsEscape (insnGetEscapes s n insn).attr = false)
    (hloop : bundled.escapeLoop insn.lastPrefix insn.attr bytes = some (attr, rest)) :
    (insnGetEscapes s n insn).attr = attr ∧
      (insnGetEscapes s n insn).lastPrefix = insn.lastPrefix ∧
      StartsAt s (insnGetEscapes s n insn).nextByte rest := by
  induction bytes generalizing insn n with
  | nil =>
      rw [escapeLoop] at hloop
      split_ifs at hloop with hesc
      rw [insnGetEscapes_of_not_escape s (Bool.eq_false_iff.mpr hesc)]
      cases hloop
      exact ⟨rfl, rfl, hbytes⟩
  | cons op bytes ih =>
      rw [escapeLoop] at hloop
      split_ifs at hloop with hesc
      · cases n with
        | zero => exact absurd hesc (Bool.eq_false_iff.mp hdone)
        | succ n =>
            rw [insnGetEscapes, if_pos hesc] at hdone ⊢
            obtain ⟨hop, hrest⟩ := hbytes
            rw [bundled_getEscapeAttribute] at hloop
            have hattr : (insnGetEscape s insn).attr =
                inatGetEscapeAttribute op insn.lastPrefix insn.attr := by
              rw [← hop]
              rfl
            exact ih _ hrest hdone (hattr ▸ hloop)
      · rw [insnGetEscapes_of_not_escape s (Bool.eq_false_iff.mpr hesc)]
        cases hloop
        exact ⟨rfl, rfl, hbytes⟩

/-- The attribute after the ModRM byte is that of the decoder.
Kind: L -/
theorem bundled_modrmAttr (s : Stream) {insn : Insn} {rest : List (BitVec 8)}
    (hbytes : StartsAt s insn.nextByte rest) {attr : ℕ}
    (hmod : bundled.modrmAttr insn.lastPrefix insn.attr rest = some attr) :
    (insnGetModrm s insn).attr = attr := by
  have hforce : (insnGetModrm s insn).attr = (insnGetModrmByte s insn).attr := by
    unfold insnGetModrm
    simp only
    split_ifs <;> rfl
  rw [hforce]
  unfold modrmAttr at hmod
  unfold insnGetModrmByte
  by_cases hhas : inatHasModrm insn.attr = true
  · rw [if_pos hhas] at hmod ⊢
    cases rest with
    | nil => cases hmod
    | cons mod rest =>
        obtain ⟨hmodbyte, -⟩ := hbytes
        rw [hmodbyte]
        simp only [List.head?_cons, Option.map_some, Option.some.injEq,
          bundled_getGroupAttribute] at hmod
        exact hmod
  · rw [if_neg hhas] at hmod ⊢
    exact Option.some_inj.mp hmod

/-- **The walk over the tables is the decoder's**: at the tables of `inat-tables.h`, `opcodeAttr`
is the attribute after `insn_get_opcode` and `insn_get_modrm`, without a VEX prefix.
Kind: P -/
theorem bundled_opcodeAttr (s : Stream) {insn : Insn} (havx : insn.isAvx = false)
    {bytes : List (BitVec 8)} (hbytes : StartsAt s insn.nextByte bytes) {attr : ℕ}
    (hwalk : bundled.opcodeAttr insn.lastPrefix bytes = some attr) :
    (insnGetModrm s (insnGetOpcode s insn)).attr = attr := by
  cases bytes with
  | nil => cases hwalk
  | cons op bytes =>
      obtain ⟨hop, hrest⟩ := hbytes
      obtain ⟨⟨last, rest⟩, hloop, hmod⟩ := Option.bind_eq_some_iff.mp hwalk
      have hfirst : (insnGetOpcode1 s insn).attr = bundled.getOpcodeAttribute op := by
        rw [insnGetOpcode1, havx, hop]
        rfl
      rw [← hfirst] at hloop
      obtain ⟨hattr, hlast, hpos⟩ := bundled_escapeLoop s (insnGetOpcode1 s insn) hrest
        (insnGetEscapes_done s insn) hloop
      have hopcode : (insnGetOpcode s insn).attr = (if inatMustVex last then 0 else last) ∧
          (insnGetOpcode s insn).lastPrefix = insn.lastPrefix ∧
          StartsAt s (insnGetOpcode s insn).nextByte rest := by
        unfold insnGetOpcode
        simp only [havx, Bool.false_eq_true, if_false, hattr]
        split_ifs
        · exact ⟨rfl, hlast, hpos⟩
        · exact ⟨hattr, hlast, hpos⟩
      obtain ⟨hattr', hlast', hpos'⟩ := hopcode
      rw [← hattr', ← hlast'] at hmod
      exact bundled_modrmAttr s hpos' hmod

/-- The same with a VEX prefix, whose fields select the table.
Kind: P -/
theorem bundled_vexAttr (s : Stream) {insn : Insn} (havx : insn.isAvx = true)
    {bytes : List (BitVec 8)} (hbytes : StartsAt s insn.nextByte bytes) {attr : ℕ}
    (hwalk : bundled.vexAttr insn.lastPrefix insn.vexMBits.toNat insn.vexPBits.toNat bytes =
      some attr) :
    (insnGetModrm s (insnGetOpcode s insn)).attr = attr := by
  cases bytes with
  | nil => cases hwalk
  | cons op bytes =>
      obtain ⟨hop, hrest⟩ := hbytes
      have hopcode : insnGetOpcode s insn = insnGetOpcode1 s insn := by
        unfold insnGetOpcode
        rw [havx]
        rfl
      have hattr : (insnGetOpcode1 s insn).attr =
          if inatAcceptVex (inatGetAvxAttribute op insn.vexMBits.toNat insn.vexPBits.toNat) then
            inatGetAvxAttribute op insn.vexMBits.toNat insn.vexPBits.toNat
          else 0 := by
        rw [insnGetOpcode1, havx, hop]
        rfl
      simp only [vexAttr, bundled_getAvxAttribute] at hwalk
      rw [← hattr] at hwalk
      rw [hopcode]
      exact bundled_modrmAttr s hrest hwalk

end InatTables

/-! ## From a cell to a table -/

/-- The word of flags with names, if all names have numbers.
Kind: D -/
def Gen.word (g : Gen) (fs : List (Flag String)) : Option ℕ :=
  (numberAll g.escape g.group fs).map attrWord

/-- Tables made from a map, and what is asked of the map: no two tables are for the same, and the
groups and escapes are no more than their fields can number.
Kind: D -/
structure Compiled (lines : List String) (bs : List Block) (g : Gen) (T : InatTables) : Prop where
  isMap : IsMap lines bs
  generated : generate lines = .ok g
  compiled : g.output.compile = some T
  keys : (bs.flatMap fun b => b.head.keys).Nodup
  escapes : g.escape.next ≤ 4
  groups : g.group.next ≤ 32

section Cells

variable {bs : List Block} {b : Block} {k : Key} {v : Variant} {idx : String}

/-- A cell of a table is empty if no block under its key has one.
Kind: L -/
theorem cell_eq_nil (h : ∀ b ∈ bs, k ∈ b.head.keys → b.cell v idx = []) :
    cell bs k v idx = [] := by
  refine List.flatMap_eq_nil_iff.mpr ?_
  intro b hb
  split_ifs with hk
  · exact h b hb hk
  · rfl

/-- The table for `k` is the only one.
Kind: L -/
theorem cell_eq_of_mem (hkeys : (bs.flatMap fun b => b.head.keys).Nodup) (hb : b ∈ bs)
    (hk : k ∈ b.head.keys) : cell bs k v idx = b.cell v idx := by
  induction bs with
  | nil => cases hb
  | cons a bs ih =>
      rw [List.flatMap_cons, List.nodup_append'] at hkeys
      obtain ⟨-, htail, hdisj⟩ := hkeys
      have hcons : cell (a :: bs) k v idx =
          (if k ∈ a.head.keys then a.cell v idx else []) ++ cell bs k v idx := List.flatMap_cons
      rw [hcons]
      rcases List.mem_cons.mp hb with rfl | hmem
      · have hnil : cell bs k v idx = [] := by
          refine cell_eq_nil ?_
          intro a ha hka
          exact absurd (List.mem_flatMap.mpr ⟨a, ha, hka⟩) (hdisj hk)
        rw [if_pos hk, hnil, List.append_nil]
      · have hnot : k ∉ a.head.keys := fun hka =>
          hdisj hka (List.mem_flatMap.mpr ⟨b, hmem, hk⟩)
        rw [if_neg hnot, List.nil_append, ih htail hmem]

end Cells

/-- A printed table has the flags of its array.
Kind: L -/
theorem lookup_printTable (arr : Arr) (fmt : ℕ → String) (n i : ℕ) (hi : i < n) :
    ((printTable arr fmt n).lookup i).getD [] = arr.get (fmt i) := by
  have hform : printTable arr fmt n = (List.range n).filterMap fun i =>
      (if arr.get (fmt i) ≠ [] then some (arr.get (fmt i)) else none).map
        fun flags => (i, flags) := by
    unfold printTable
    congr 1
    funext i
    split_ifs <;> rfl
  rw [hform, lookup_filterMap, if_pos (List.mem_range.mpr hi)]
  split_ifs with h
  · rfl
  · rw [Option.getD_none]
    exact (not_not.mp h).symm

/-- A variant is the one of its number.
Kind: L -/
theorem Variant.ofNum_num (v : Variant) : Variant.ofNum v.num = some v := by cases v <;> rfl

/-- An array of tables has what was registered.
Kind: L -/
theorem pointer_printArray (o : Output) (N : ℕ) (reg : ℕ → Variant → Option TableName) {n : ℕ}
    (hn : n < N) (v : Variant) :
    o.pointer (printArray N reg) n v.num = (reg n v).map o.table := by
  have hkey : (n, v) ∈ (List.range N).flatMap fun i => variants.map fun v => (i, v) :=
    List.mem_flatMap.mpr ⟨n, List.mem_range.mpr hn, List.mem_map.mpr ⟨v, mem_variants v, rfl⟩⟩
  rw [Output.pointer, Variant.ofNum_num, Option.bind_some, printArray,
    lookup_filterMap (fun k : ℕ × Variant => reg k.1 k.2), if_pos hkey]

section Registered

variable {lines : List String} {bs : List Block} {g : Gen} {T : InatTables}
  {done : List (Block × Gen)}

/-- The array of a table that was read has the word of every cell.
Kind: L -/
theorem word_cell_of_snap (hinv : MapInv done g) (hfst : done.map Prod.fst = bs)
    (hkeys : (bs.flatMap fun b => b.head.keys).Nodup) {p : Block × Gen} (hp : p ∈ done) {k : Key}
    (hk : k ∈ p.1.head.keys) (v : Variant) (idx : String) :
    g.word (cell bs k v idx) = some (attrWord ((p.2.arrays v).get idx)) := by
  have hb : p.1 ∈ bs := hfst ▸ List.mem_map_of_mem hp
  rw [cell_eq_of_mem hkeys hb hk, Gen.word, (hinv.snaps p hp).holds v idx]
  rfl

/-- The table of a name that was printed.
Kind: L -/
theorem table_of_snap (hinv : MapInv done g) (hnodup : (g.printed.map Prod.fst).Nodup)
    {p : Block × Gen} (hp : p ∈ done) {v : Variant} (hv : p.2.arrays v ≠ []) {fmt : ℕ → String}
    {N : ℕ} (hcells : p.2.cells v = printTable (p.2.arrays v) fmt N) {i : ℕ} (hi : i < N) :
    g.output.table (p.2.tname, v) i = attrWord ((p.2.arrays v).get (fmt i)) := by
  have hmem : ((p.2.tname, v), p.2.cells v) ∈ g.printed :=
    (hinv.printed _ _).mpr ⟨p, hp, v, hv, rfl, rfl⟩
  have hlook : g.output.tables.lookup (p.2.tname, v) = some (p.2.cells v) :=
    lookup_eq_some_of_mem hnodup hmem
  rw [Output.table, hlook, Option.getD_some, Cells.table, hcells, lookup_printTable _ _ _ _ hi]

/-- What a register of tables finds: `Q` says which states are those of tables for `k`.
Kind: L -/
theorem word_cell_of_register (hinv : MapInv done g) (hfst : done.map Prod.fst = bs)
    (hkeys : (bs.flatMap fun b => b.head.keys).Nodup) (hnodup : (g.printed.map Prod.fst).Nodup)
    {κ : Type} [DecidableEq κ] {R : List ((κ × Variant) × TableName)} {a : κ} {Q : Gen → Prop}
    {k : Key} {v : Variant} {fmt : ℕ → String} {N : ℕ}
    (hR : ∀ name, ((a, v), name) ∈ R ↔
      ∃ p ∈ done, Q p.2 ∧ p.2.arrays v ≠ [] ∧ name = (p.2.tname, v))
    (hQ : ∀ p ∈ done, Q p.2 ↔ k ∈ p.1.head.keys)
    (hcells : ∀ s : Gen, Q s → s.cells v = printTable (s.arrays v) fmt N) {i : ℕ} (hi : i < N) :
    g.word (cell bs k v (fmt i)) =
      some (((R.lookup (a, v)).map fun name => g.output.table name i).getD 0) := by
  cases hlook : R.lookup (a, v) with
  | some name =>
      obtain ⟨p, hp, hq, hv, rfl⟩ := (hR name).mp (mem_of_lookup_eq_some hlook)
      rw [word_cell_of_snap hinv hfst hkeys hp ((hQ p hp).mp hq), Option.map_some,
        Option.getD_some, table_of_snap hinv hnodup hp hv (hcells p.2 hq) hi]
  | none =>
      have hnil : cell bs k v (fmt i) = [] := by
        refine cell_eq_nil ?_
        intro b hb hk
        obtain ⟨p, hp, rfl⟩ := List.mem_map.mp (hfst ▸ hb)
        have hempty : p.2.arrays v = [] := by
          by_contra hv
          have hmem := (hR _).mpr ⟨p, hp, (hQ p hp).mpr hk, hv, rfl⟩
          have := List.lookup_eq_none_iff.mp hlook _ hmem
          simp at this
        have hget := (hinv.snaps p hp).holds v (fmt i)
        rw [hempty] at hget
        exact eq_nil_of_numberAll hget
      rw [hnil]
      rfl

/-! ## Which tables are for what -/

/-- A finished block is of the escape table with a number iff it carries the escape of that number.
Kind: L -/
theorem escape_mem_keys_iff (hinv : MapInv done g) {ref : String} {n : ℕ}
    (href : g.escape.id? ref = some n) {p : Block × Gen} (hp : p ∈ done) :
    (p.2.gid = none ∧ p.2.eid = .known n) ↔ Key.escape ref ∈ p.1.head.keys := by
  have hheaded := (hinv.snaps p hp).headed
  cases hhead : p.1.head with
  | group name =>
      rw [hhead] at hheaded
      obtain ⟨m, -, hgid, -⟩ := hheaded
      simp [Head.keys, hgid]
  | opcodes referrer avx =>
      rw [hhead] at hheaded
      obtain ⟨hgid, -, heid, -⟩ := hheaded
      rw [Head.keys]
      split_ifs at heid ⊢ with hr ha
      · simp [heid]
      · simp [heid]
      · have hmem : Key.escape ref ∈ [Key.escape (joinFields referrer)] ++
            (avx.head?.bind decimal).toList.map Key.avx ↔ ref = joinFields referrer := by simp
        rw [hmem]
        rcases heid with ⟨m, hm, heid⟩ | ⟨hdang, heid⟩
        · rw [heid, Eid.known.injEq]
          constructor
          · rintro ⟨-, rfl⟩
            exact g.escape.inj _ _ _ href hm
          · rintro rfl
            exact ⟨hgid, Option.some_inj.mp (hm.symm.trans href)⟩
        · constructor
          · rintro ⟨-, hk⟩
            cases heid.symm.trans hk
          · rintro rfl
            cases (hinv.fresh _ hdang).symm.trans href

/-- A finished block is of the AVX table with a number iff it carries that AVX code.
Kind: L -/
theorem avx_mem_keys_iff (hinv : MapInv done g) {n : ℕ} {p : Block × Gen} (hp : p ∈ done) :
    (p.2.gid = none ∧ p.2.aid = some n) ↔ Key.avx n ∈ p.1.head.keys := by
  have hheaded := (hinv.snaps p hp).headed
  cases hhead : p.1.head with
  | group name =>
      rw [hhead] at hheaded
      obtain ⟨m, -, hgid, -⟩ := hheaded
      simp [Head.keys, hgid]
  | opcodes referrer avx =>
      rw [hhead] at hheaded
      obtain ⟨hgid, haid, -, -⟩ := hheaded
      rw [Head.keys, haid]
      split_ifs <;> simp [hgid]

/-- A finished block is of the group table with a number iff it carries the group of that number.
Kind: L -/
theorem group_mem_keys_iff (hinv : MapInv done g) {name : String} {n : ℕ}
    (hname : g.group.id? name = some n) {p : Block × Gen} (hp : p ∈ done) :
    p.2.gid = some n ↔ Key.group name ∈ p.1.head.keys := by
  have hheaded := (hinv.snaps p hp).headed
  cases hhead : p.1.head with
  | group name' =>
      rw [hhead] at hheaded
      obtain ⟨m, hm, hgid, -⟩ := hheaded
      rw [Head.keys, List.mem_singleton, Key.group.injEq, hgid, Option.some_inj]
      constructor
      · rintro rfl
        exact g.group.inj _ _ _ hname hm
      · rintro rfl
        exact Option.some_inj.mp (hm.symm.trans hname)
  | opcodes referrer avx =>
      rw [hhead] at hheaded
      obtain ⟨hgid, -, -, -⟩ := hheaded
      rw [Head.keys]
      split_ifs <;> simp [hgid]

end Registered

/-! ## Lookups find cells -/

section Lookup

variable {lines : List String} {bs : List Block} {g : Gen} {T : InatTables}
  {fs : List (Flag String)} {ns : List (Flag ℕ)}

/-- What is compiled was accepted.
Kind: L -/
theorem Compiled.accepted (h : Compiled lines bs g T) : g.output.Accepted := by
  have hc := h.compiled
  unfold Output.compile at hc
  split_ifs at hc with hacc
  exact hacc

/-- The compiled tables are those of the output.
Kind: L -/
theorem Compiled.tables (h : Compiled lines bs g T) :
    T = { primary := g.output.table (some .primary, .plain)
          escapes := g.output.pointer g.output.escapes
          groups := g.output.pointer g.output.groups
          avx := g.output.pointer g.output.avx } := by
  have hc := h.compiled
  rw [Output.compile, if_pos h.accepted] at hc
  exact (Option.some_inj.mp hc).symm

/-- The numbers of groups and escapes fit.
Kind: L -/
theorem Compiled.fits (h : Compiled lines bs g T)
    (hns : numberAll g.escape g.group fs = some ns) : ∀ f ∈ ns, f.Fits := by
  intro n hn
  obtain ⟨f, -, hf⟩ := (mem_of_numberAll hns).mp hn
  cases f with
  | group name =>
      obtain ⟨m, hm, rfl⟩ := Option.map_eq_some_iff.mp hf
      obtain ⟨hpos, hlt⟩ := g.group.bounds _ _ hm
      exact ⟨hpos, hlt.trans_le h.groups⟩
  | escape name =>
      obtain ⟨m, hm, rfl⟩ := Option.map_eq_some_iff.mp hf
      obtain ⟨hpos, hlt⟩ := g.escape.bounds _ _ hm
      exact ⟨hpos, hlt.trans_le h.escapes⟩
  | _ =>
      cases hf
      exact trivial

/-- A word is that of numbered flags, which fit.
Kind: L -/
theorem Compiled.word_eq_some (h : Compiled lines bs g T) {w : ℕ} (hw : g.word fs = some w) :
    ∃ ns, numberAll g.escape g.group fs = some ns ∧ w = attrWord ns ∧ Reads ns w := by
  obtain ⟨ns, hns, rfl⟩ := Option.map_eq_some_iff.mp hw
  exact ⟨ns, hns, rfl, attrWord_reads ns (h.fits hns)⟩

/-- A block that is no group prints 256 cells.
Kind: L -/
theorem cells_of_opcodes {s : Gen} (v : Variant) (hgid : s.gid = none) :
    s.cells v = printTable (s.arrays v) opcodeId 256 := if_pos hgid

/-- A block of a group prints 8 cells.
Kind: L -/
theorem cells_of_group {s : Gen} (v : Variant) {n : ℕ} (hgid : s.gid = some n) :
    s.cells v = printTable (s.arrays v) groupId 8 :=
  if_neg (hgid ▸ Option.some_ne_none n)

/-- `inat_get_opcode_attribute` finds the cell of the primary table.
Kind: L -/
theorem getOpcodeAttribute_word (h : Compiled lines bs g T) (op : BitVec 8) :
    g.word (cell bs .primary .plain (opcodeId op.toNat)) = some (T.getOpcodeAttribute op) := by
  obtain ⟨done, hfst, hinv⟩ := generate_inv h.isMap h.generated
  obtain ⟨hnodup, hprim, -⟩ := h.accepted
  obtain ⟨⟨name, C⟩, hmem, hname⟩ := List.mem_map.mp hprim
  obtain ⟨p, hp, v, hv, hname', -⟩ := (hinv.printed name C).mp hmem
  obtain ⟨htname, rfl⟩ := Prod.mk.inj (hname.symm.trans hname')
  have hheaded := (hinv.snaps p hp).headed
  cases hhead : p.1.head with
  | group name' =>
      rw [hhead] at hheaded
      obtain ⟨m, -, -, ht⟩ := hheaded
      cases htname.trans ht
  | opcodes referrer avx =>
      rw [hhead] at hheaded
      obtain ⟨hgid, -, -, ht⟩ := hheaded
      obtain ⟨rfl, rfl⟩ := ht htname.symm
      have hk : Key.primary ∈ p.1.head.keys := by
        rw [hhead]
        exact List.mem_cons_self ..
      have htab := table_of_snap hinv hnodup hp hv (cells_of_opcodes .plain hgid) op.isLt
      rw [word_cell_of_snap hinv hfst h.keys hp hk, ← htab, ← htname, h.tables]
      rfl

/-- The tables behind an escape have its cells.
Kind: L -/
theorem escape_word (h : Compiled lines bs g T) {ref : String} {n : ℕ}
    (href : g.escape.id? ref = some n) (v : Variant) {i : ℕ} (hi : i < 256) :
    g.word (cell bs (.escape ref) v (opcodeId i)) =
      some (((T.escapes n v.num).map fun table => table i).getD 0) := by
  obtain ⟨done, hfst, hinv⟩ := generate_inv h.isMap h.generated
  have hR : ∀ name, ((Eid.known n, v), name) ∈ g.etable ↔ ∃ p ∈ done,
      (p.2.gid = none ∧ p.2.eid = .known n) ∧ p.2.arrays v ≠ [] ∧ name = (p.2.tname, v) := by
    intro name
    simp only [hinv.etable, and_assoc]
  have hreg := word_cell_of_register hinv hfst h.keys h.accepted.1 hR
    (Q := fun s => s.gid = none ∧ s.eid = .known n)
    (fun p hp => escape_mem_keys_iff hinv href hp) (fun s hs => cells_of_opcodes v hs.1) hi
  have hptr : T.escapes n v.num = (g.etable.lookup (.known n, v)).map g.output.table := by
    rw [h.tables]
    exact pointer_printArray g.output _ (fun i v => g.etable.lookup (.known i, v))
      (g.escape.bounds _ _ href).2 v
  rw [hreg, hptr, Option.map_map]
  rfl

/-- The tables of a group have its cells.
Kind: L -/
theorem group_word (h : Compiled lines bs g T) {name : String} {n : ℕ}
    (hname : g.group.id? name = some n) (v : Variant) {i : ℕ} (hi : i < 8) :
    g.word (cell bs (.group name) v (groupId i)) =
      some (((T.groups n v.num).map fun table => table i).getD 0) := by
  obtain ⟨done, hfst, hinv⟩ := generate_inv h.isMap h.generated
  have hreg := word_cell_of_register hinv hfst h.keys h.accepted.1 (hinv.gtable n v)
    (Q := fun s => s.gid = some n) (fun p hp => group_mem_keys_iff hinv hname hp)
    (fun s hs => cells_of_group v hs) hi
  have hptr : T.groups n v.num = (g.gtable.lookup (n, v)).map g.output.table := by
    rw [h.tables]
    exact pointer_printArray g.output _ (fun i v => g.gtable.lookup (i, v))
      (g.group.bounds _ _ hname).2 v
  rw [hreg, hptr, Option.map_map]
  rfl

/-- The tables of an AVX code have its cells.
Kind: L -/
theorem avx_word (h : Compiled lines bs g T) (m : ℕ) (v : Variant) {i : ℕ} (hi : i < 256) :
    g.word (cell bs (.avx m) v (opcodeId i)) =
      some (((T.avx m v.num).map fun table => table i).getD 0) := by
  obtain ⟨done, hfst, hinv⟩ := generate_inv h.isMap h.generated
  have hR : ∀ name, ((m, v), name) ∈ g.atable ↔ ∃ p ∈ done,
      (p.2.gid = none ∧ p.2.aid = some m) ∧ p.2.arrays v ≠ [] ∧ name = (p.2.tname, v) := by
    intro name
    simp only [hinv.atable, and_assoc]
  have hreg := word_cell_of_register hinv hfst h.keys h.accepted.1 hR
    (Q := fun s => s.gid = none ∧ s.aid = some m)
    (fun p hp => avx_mem_keys_iff hinv hp) (fun s hs => cells_of_opcodes v hs.1) hi
  have hptr : T.avx m v.num = (g.atable.lookup (m, v)).map g.output.table := by
    rw [h.tables]
    show g.output.pointer (printArray g.gaid fun i v => g.atable.lookup (i, v)) m v.num = _
    by_cases hm : m < g.gaid
    · exact pointer_printArray _ _ _ hm v
    · -- no table has this code, so nothing is registered under it
      have hnone : g.atable.lookup (m, v) = none := by
        cases hlook : g.atable.lookup (m, v) with
        | none => rfl
        | some name =>
            obtain ⟨p, hp, -, haid, -⟩ := (hinv.atable m v name).mp (mem_of_lookup_eq_some hlook)
            exact absurd (hinv.gaid p hp m haid) hm
      rw [Output.pointer, Variant.ofNum_num, Option.bind_some, printArray,
        lookup_filterMap (fun k : ℕ × Variant => g.atable.lookup (k.1, k.2)), hnone]
      split_ifs <;> rfl
  rw [hreg, hptr, Option.map_map]
  rfl

end Lookup

end Togpu.OpcodeMap
