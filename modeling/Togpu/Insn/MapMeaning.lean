import Togpu.Lib.Fallible
import Togpu.Insn.AttrWord

/-!
# What an opcode map says, and what the generator keeps of it

An opcode map is a list of tables, each with a heading and entries. This module says what is in the
cells of a table, in the names of the map, and follows the generator through one table.

* `Block` — a table of the map; `Block.cell` — the flags of a cell, with names for groups and
  escapes; `cell` — the same by what the table is for (`Key`).
* `numberAll` — flags with numbers for names, if all names have been given numbers.
* **The arrays hold the cells** (`entries_hold`): while it reads the entries of a table, the
  generator has in its arrays the cells read so far, with numbers for names.
* **An escape stands alone** (`EscapeOnly`): a cell with an escape has no other flag.
* **No line adds to another** (`Once`): of two lines of a table with one index, the first has no
  flags.
-/

namespace Togpu.OpcodeMap

open Togpu.Lib

/-! ## Maps -/

/-- The heading of a table. A table of opcodes has the fields behind `Referrer:` and `AVXcode:`.
Kind: D -/
inductive Head where
  | opcodes (referrer avx : List String)
  | group (name : String)
  deriving DecidableEq, Repr

/-- A table of the map: its heading, and the index and the fields of each entry.
Kind: D -/
structure Block where
  head : Head
  entries : List (String × List String)
  deriving DecidableEq, Repr

/-- The lines of a heading.
Kind: D -/
def Head.rules : Head → List Rule
  | .opcodes referrer avx => [.table, .referrer referrer, .avxCode avx]
  | .group name => [.grpTable name]

/-- The lines of a table.
Kind: D -/
def Block.rules (b : Block) : List Rule :=
  b.head.rules ++ (b.entries.map fun e => Rule.entry e.1 e.2) ++ [.endTable]

/-- The lines of a map are those of its tables, with lines in between that trigger no rule.
Kind: D -/
def IsMap (lines : List String) (bs : List Block) : Prop :=
  (rules lines).filter (fun r => decide (r ≠ .skip)) = bs.flatMap Block.rules

/-- Whether lines are those of given tables is decided by comparing them.
Kind: D -/
instance (lines : List String) (bs : List Block) : Decidable (IsMap lines bs) :=
  inferInstanceAs (Decidable (_ = _))

/-- The flags of an entry in one of the four arrays.
Kind: D -/
def Entry.flags : Entry → Variant → List (Flag String)
  | .escape ref, v => if v = .plain then [.escape ref] else []
  | .opcodes items, v =>
      (items.flatMap fun it => if it.1 = v then it.2 else []) ++
        if v = .plain ∧ hasVariant items then [.variant] else []

/-- The flags of an entry, given by its fields.
Kind: D -/
def argsFlags (args : List String) (v : Variant) : List (Flag String) :=
  match parseEntry args with
  | .ok e => e.flags v
  | .error _ => []

/-- The cells of a list of entries.
Kind: D -/
def entriesCell (entries : List (String × List String)) (v : Variant) (idx : String) :
    List (Flag String) :=
  entries.flatMap fun e => if e.1 = idx then argsFlags e.2 v else []

/-- The cells of a table.
Kind: D -/
def Block.cell (b : Block) (v : Variant) (idx : String) : List (Flag String) :=
  entriesCell b.entries v idx

/-- What a table is for.
Kind: D -/
inductive Key where
  /-- The opcodes of one byte. -/
  | primary
  /-- The opcodes behind an escape. -/
  | escape (ref : String)
  /-- The opcodes behind a VEX prefix with this `m-mmmm`. -/
  | avx (code : ℕ)
  /-- The opcodes of a group. -/
  | group (name : String)
  deriving DecidableEq, Repr

/-- What a heading says that its table is for.
Kind: D -/
def Head.keys : Head → List Key
  | .opcodes referrer avx =>
      (if referrer = [] then if avx = [] then [.primary] else []
        else [.escape (joinFields referrer)]) ++
        ((avx.head?.bind decimal).toList.map Key.avx)
  | .group name => [.group name]

/-- The cells of the tables of a map that are for `k`.
Kind: D -/
def cell (bs : List Block) (k : Key) (v : Variant) (idx : String) : List (Flag String) :=
  bs.flatMap fun b => if k ∈ b.head.keys then b.cell v idx else []

/-! ## Numbers for names -/

/-- Number all flags of a list.
Kind: D -/
def numberAll (E G : Numbering String) (fs : List (Flag String)) : Option (List (Flag ℕ)) :=
  fs.mapM (Flag.number E G)

section Number

variable {E E' G G' : Numbering String} {fs gs : List (Flag String)} {ns ms : List (Flag ℕ)}

/-- No flag needs a number.
Kind: L -/
@[simp] theorem numberAll_nil : numberAll E G [] = some [] := rfl

/-- Numbering a list, split at its first flag.
Kind: L -/
theorem numberAll_cons_eq_some {f : Flag String} :
    numberAll E G (f :: fs) = some ns ↔
      ∃ n ms, f.number E G = some n ∧ numberAll E G fs = some ms ∧ ns = n :: ms := by
  simp only [numberAll, List.mapM_cons, bind, pure, Option.bind_eq_some_iff, Option.some.injEq]
  constructor
  · rintro ⟨n, hn, ms, hms, rfl⟩
    exact ⟨n, ms, hn, hms, rfl⟩
  · rintro ⟨n, ms, hn, hms, rfl⟩
    exact ⟨n, hn, ms, hms, rfl⟩

/-- Numbering two lists in turn.
Kind: L -/
theorem numberAll_append (hf : numberAll E G fs = some ns) (hg : numberAll E G gs = some ms) :
    numberAll E G (fs ++ gs) = some (ns ++ ms) := by
  rw [numberAll, List.mapM_append]
  rw [numberAll] at hf hg
  simp [hf, hg]

/-- A number given is kept, so a flag keeps its number.
Kind: L -/
theorem Flag.number_mono {f : Flag String} {n : Flag ℕ} (hE : E'.Extends E) (hG : G'.Extends G)
    (h : f.number E G = some n) : f.number E' G' = some n := by
  cases f with
  | group name =>
      obtain ⟨m, hm, rfl⟩ := Option.map_eq_some_iff.mp h
      exact Option.map_eq_some_iff.mpr ⟨m, hG _ _ hm, rfl⟩
  | escape name =>
      obtain ⟨m, hm, rfl⟩ := Option.map_eq_some_iff.mp h
      exact Option.map_eq_some_iff.mpr ⟨m, hE _ _ hm, rfl⟩
  | _ => exact h

/-- Later numbers change none that was given.
Kind: L -/
theorem numberAll_mono (hE : E'.Extends E) (hG : G'.Extends G) (h : numberAll E G fs = some ns) :
    numberAll E' G' fs = some ns := by
  induction fs generalizing ns with
  | nil => exact h
  | cons f fs ih =>
      obtain ⟨n, ms, hn, hms, rfl⟩ := numberAll_cons_eq_some.mp h
      exact numberAll_cons_eq_some.mpr ⟨n, ms, Flag.number_mono hE hG hn, ih hms, rfl⟩

/-- Only the empty list is numbered to the empty list.
Kind: L -/
theorem eq_nil_of_numberAll (h : numberAll E G fs = some []) : fs = [] := by
  cases fs with
  | nil => rfl
  | cons f fs =>
      obtain ⟨n, ms, -, -, hnil⟩ := numberAll_cons_eq_some.mp h
      cases hnil

/-- The flags of a numbered list are the numbers of its flags.
Kind: L -/
theorem mem_of_numberAll (h : numberAll E G fs = some ns) {n : Flag ℕ} :
    n ∈ ns ↔ ∃ f ∈ fs, f.number E G = some n := by
  induction fs generalizing ns with
  | nil =>
      cases h
      simp
  | cons f fs ih =>
      obtain ⟨m, ms, hm, hms, rfl⟩ := numberAll_cons_eq_some.mp h
      rw [List.mem_cons, ih hms, List.exists_mem_cons_iff, hm, Option.some_inj, eq_comm]

/-- Flags that all have numbers.
Kind: L -/
theorem numberAll_eq_filterMap (h : ∀ f ∈ fs, ∃ n, f.number E G = some n) :
    numberAll E G fs = some (fs.filterMap (Flag.number E G)) := by
  induction fs with
  | nil => rfl
  | cons f fs ih =>
      obtain ⟨n, hn⟩ := h f (List.mem_cons_self ..)
      rw [List.filterMap_cons, hn]
      exact numberAll_cons_eq_some.mpr
        ⟨n, _, hn, ih fun g hg => h g (List.mem_cons_of_mem f hg), rfl⟩

end Number

/-! ## Opcodes have no escapes -/

/-- Flags without an escape.
Kind: D -/
def NoEscape (fs : List (Flag String)) : Prop := ∀ ref, Flag.escape ref ∉ fs

/-- Lists without an escape, joined.
Kind: L -/
theorem NoEscape.append {fs gs : List (Flag String)} (hf : NoEscape fs) (hg : NoEscape gs) :
    NoEscape (fs ++ gs) := by
  intro ref hmem
  rcases List.mem_append.mp hmem with h | h
  · exact hf ref h
  · exact hg ref h

/-- The flag of an immediate is no escape.
Kind: L -/
theorem immFlag_noEscape {opnd : String} {f : Flag String} (h : immFlag opnd = some f) :
    NoEscape [f] := by
  intro ref hmem
  obtain rfl := List.mem_singleton.mp hmem
  unfold immFlag at h
  split_ifs at h <;> cases h

/-- Converting an operand adds no escape.
Kind: L -/
theorem convertOperand_noEscape {acc acc' : List (Flag String) × List (Flag String)}
    {opnd : String} (h : convertOperand acc opnd = .ok acc') (hacc : NoEscape (acc.1 ++ acc.2)) :
    NoEscape (acc'.1 ++ acc'.2) := by
  obtain ⟨imm, mod⟩ := acc
  have himm : NoEscape imm := fun ref hmem => hacc ref (List.mem_append_left _ hmem)
  have hmod : NoEscape mod := fun ref hmem => hacc ref (List.mem_append_right _ hmem)
  unfold convertOperand at h
  simp only at h
  cases himmE : immExpr opnd with
  | true =>
      rw [himmE, if_pos rfl] at h
      cases hflag : immFlag opnd with
      | none =>
          rw [hflag] at h
          cases h
      | some flag =>
          rw [hflag] at h
          simp only at h
          split_ifs at h
          · cases h
            exact (himm.append (by simp [NoEscape])).append hmod
          · cases h
            exact (immFlag_noEscape hflag).append hmod
  | false =>
      rw [himmE, if_neg Bool.false_ne_true] at h
      split_ifs at h
      · cases h
        exact himm.append (by simp [NoEscape])
      · cases h
        exact hacc

/-- Neither do several operands.
Kind: L -/
theorem convertOperands_noEscape {opnds : List String} {fs : List (Flag String)}
    (h : convertOperands opnds = .ok fs) : NoEscape fs := by
  obtain ⟨acc, hacc, hfs⟩ := bind_eq_ok.mp h
  cases hfs
  exact foldlM_invariant (fun _ acc => NoEscape (acc.1 ++ acc.2))
    (fun _ _ _ _ hacc hstep => convertOperand_noEscape hstep hacc) [] (by simp [NoEscape]) hacc

/-- The operands in front of a list of fields give no escape.
Kind: L -/
theorem takeOpnds_noEscape {rest rest' : List String} {fs : List (Flag String)}
    (h : takeOpnds rest = .ok (fs, rest')) : NoEscape fs := by
  cases rest with
  | nil =>
      cases h
      simp [NoEscape]
  | cons opnd rest =>
      rw [takeOpnds] at h
      split_ifs at h
      · cases hfs : convertOperands (splitOpnds opnd) with
        | error e =>
            rw [hfs] at h
            cases h
        | ok fs' =>
            rw [hfs] at h
            cases h
            exact convertOperands_noEscape hfs
      · cases h
        simp [NoEscape]

/-- The fields of one opcode give no escape.
Kind: L -/
theorem takeItem_noEscape {opcode : String} {rest rest' : List String} {it : Item}
    (h : takeItem opcode rest = .ok (it, rest')) : NoEscape it.flags := by
  obtain ⟨⟨fs, rest₁⟩, hfs, h⟩ := bind_eq_ok.mp h
  obtain ⟨rest₃, -, h⟩ := bind_eq_ok.mp h
  cases h
  exact takeOpnds_noEscape hfs

/-- The name of an opcode and what is behind it add none.
Kind: L -/
theorem itemFlags_noEscape {it : Item} {fs : List (Flag String)} (h : itemFlags it = .ok fs)
    (hit : NoEscape it.flags) : NoEscape fs := by
  intro ref hmem
  unfold itemFlags at h
  simp only at h
  split at h
  · split at h
    · cases h
    · cases h
      simp [hit ref] at hmem
  · cases h
    simp [hit ref] at hmem

/-- No opcode of an entry gives an escape.
Kind: L -/
theorem parseItems_noEscape {n : ℕ} {args : List String}
    {items : List (Variant × List (Flag String))} (h : parseItems n args = .ok items) :
    ∀ it ∈ items, NoEscape it.2 := by
  induction n generalizing args items with
  | zero =>
      cases h
      simp
  | succ n ih =>
      cases args with
      | nil =>
          cases h
          simp
      | cons opcode rest =>
          obtain ⟨⟨it, rest'⟩, hit, h⟩ := bind_eq_ok.mp h
          obtain ⟨fs, hfs, h⟩ := bind_eq_ok.mp h
          obtain ⟨items', hitems, h⟩ := bind_eq_ok.mp h
          have hno : NoEscape fs := itemFlags_noEscape hfs (takeItem_noEscape hit)
          cases h
          split_ifs
          · exact ih hitems
          · intro it' hmem
            rcases List.mem_cons.mp hmem with rfl | hmem
            · exact hno
            · exact ih hitems it' hmem

/-! ## Reading the entries of a table -/

/-- The arrays of the generator hold the cells `c`, with numbers for names.
Kind: D -/
def Holds (g : Gen) (c : Variant → String → List (Flag String)) : Prop :=
  ∀ v idx, numberAll g.escape g.group (c v idx) = some ((g.arrays v).get idx)

/-- What entries leave alone, and how they let the numberings grow.
Kind: D -/
structure Frame (g g' : Gen) : Prop where
  eid : g'.eid = g.eid
  gid : g'.gid = g.gid
  aid : g'.aid = g.aid
  tname : g'.tname = g.tname
  dangling : g'.dangling = g.dangling
  gaid : g'.gaid = g.gaid
  etable : g'.etable = g.etable
  gtable : g'.gtable = g.gtable
  atable : g'.atable = g.atable
  printed : g'.printed = g.printed
  escape : g'.escape.Extends g.escape
  group : g'.group.Extends g.group
  /-- A name that was read and never assigned gets no number. -/
  fresh : ∀ ref ∈ g.dangling, g.escape.id? ref = none → g'.escape.id? ref = none

/-- Without a line nothing changes.
Kind: L -/
theorem Frame.refl (g : Gen) : Frame g g where
  eid := rfl
  gid := rfl
  aid := rfl
  tname := rfl
  dangling := rfl
  gaid := rfl
  etable := rfl
  gtable := rfl
  atable := rfl
  printed := rfl
  escape := .refl _
  group := .refl _
  fresh := fun _ _ h => h

/-- Lines one after another leave alone what each of them does.
Kind: L -/
theorem Frame.trans {g g' g'' : Gen} (h : Frame g g') (h' : Frame g' g'') : Frame g g'' where
  eid := h'.eid.trans h.eid
  gid := h'.gid.trans h.gid
  aid := h'.aid.trans h.aid
  tname := h'.tname.trans h.tname
  dangling := h'.dangling.trans h.dangling
  gaid := h'.gaid.trans h.gaid
  etable := h'.etable.trans h.etable
  gtable := h'.gtable.trans h.gtable
  atable := h'.atable.trans h.atable
  printed := h'.printed.trans h.printed
  escape := h'.escape.trans h.escape
  group := h'.group.trans h.group
  fresh := fun ref hmem hnone => h'.fresh ref (h.dangling ▸ hmem) (h.fresh ref hmem hnone)

/-- Adding flags to a cell changes the arrays only.
Kind: L -/
theorem Frame.addFlags {g g' : Gen} (h : Frame g g') (v : Variant) (idx : String)
    (ns : List (Flag ℕ)) : Frame g (g'.addFlags v idx ns) :=
  { h with }

/-- Flags are added behind those of their cell, and other cells stay.
Kind: L -/
theorem Arr.get_add (arr : Arr) (idx i : String) (ns : List (Flag ℕ)) :
    (arr.add idx ns).get i = if i = idx then arr.get idx ++ ns else arr.get i := by
  rw [Arr.get, Arr.add, List.lookup_cons]
  by_cases h : i = idx
  · simp [h]
  · rw [beq_false_of_ne h, if_neg h]
    rfl

/-- Cells after flags have been added to one.
Kind: D -/
def addCell (c : Variant → String → List (Flag String)) (v : Variant) (idx : String)
    (fs : List (Flag String)) : Variant → String → List (Flag String) :=
  fun w i => if w = v ∧ i = idx then c w i ++ fs else c w i

variable {g g' : Gen} {c : Variant → String → List (Flag String)}

/-- `add_flags` on an array is `addCell` on the cells.
Kind: L -/
theorem Holds.addFlags (h : Holds g c) {v : Variant} {idx : String} {fs : List (Flag String)}
    {ns : List (Flag ℕ)} (hns : numberAll g.escape g.group fs = some ns) :
    Holds (g.addFlags v idx ns) (addCell c v idx fs) := by
  intro w i
  show numberAll g.escape g.group _ = _
  simp only [addCell, Gen.addFlags]
  by_cases hw : w = v
  · subst hw
    rw [Function.update_self, Arr.get_add]
    by_cases hi : i = idx
    · subst hi
      rw [if_pos ⟨rfl, rfl⟩, if_pos rfl]
      exact numberAll_append (h w i) hns
    · rw [if_neg (fun hc => hi hc.2), if_neg hi]
      exact h w i
  · rw [Function.update_of_ne hw, if_neg (fun hc => hw hc.1)]
    exact h w i

/-- Later numbers change nothing in what the arrays hold.
Kind: L -/
theorem Holds.mono (h : Holds g c) (harr : g'.arrays = g.arrays)
    (hE : g'.escape.Extends g.escape) (hG : g'.group.Extends g.group) : Holds g' c := by
  intro v idx
  rw [harr]
  exact numberAll_mono hE hG (h v idx)

/-- All names of an opcode have numbers once its groups have been numbered.
Kind: L -/
theorem number_of_foldl_assign {fs : List (Flag String)} (E G : Numbering String)
    (hno : NoEscape fs) :
    ∀ f ∈ fs, ∃ n, f.number E ((groupNames fs).foldl Numbering.assign G) = some n := by
  intro f hf
  cases f with
  | group name =>
      have hmem : name ∈ groupNames fs := List.mem_filterMap.mpr ⟨_, hf, rfl⟩
      obtain ⟨n, hn⟩ := Numbering.exists_id?_foldl_assign G hmem
      exact ⟨.group n, Option.map_eq_some_iff.mpr ⟨n, hn, rfl⟩⟩
  | escape ref => exact absurd hf (hno ref)
  | _ => exact ⟨_, rfl⟩

/-- The arrays hold one opcode more after `addItem`.
Kind: L -/
theorem addItem_holds (idx : String) {it : Variant × List (Flag String)} (hno : NoEscape it.2)
    (h : Holds g c) :
    Holds (g.addItem idx it) (addCell c it.1 idx it.2) ∧ Frame g (g.addItem idx it) := by
  have hext := Numbering.extends_foldl_assign (groupNames it.2) g.group
  constructor
  · have hmono : Holds { g with group := (groupNames it.2).foldl Numbering.assign g.group } c :=
      h.mono rfl (.refl _) hext
    exact hmono.addFlags (numberAll_eq_filterMap (number_of_foldl_assign _ _ hno))
  · refine Frame.addFlags ?_ _ _ _
    exact { Frame.refl g with group := hext }

/-- The cells after the opcodes of a line.
Kind: D -/
def addItems (idx : String) (c : Variant → String → List (Flag String))
    (items : List (Variant × List (Flag String))) : Variant → String → List (Flag String) :=
  items.foldl (fun c it => addCell c it.1 idx it.2) c

/-- They hold all opcodes of an entry after all of them.
Kind: L -/
theorem foldl_addItem_holds (idx : String) {items : List (Variant × List (Flag String))}
    (hno : ∀ it ∈ items, NoEscape it.2) (h : Holds g c) :
    Holds (items.foldl (Gen.addItem idx) g) (addItems idx c items) ∧
      Frame g (items.foldl (Gen.addItem idx) g) := by
  induction items generalizing g c with
  | nil => exact ⟨h, Frame.refl g⟩
  | cons it items ih =>
      obtain ⟨hit, hitems⟩ := List.forall_mem_cons.mp hno
      obtain ⟨hhold, hframe⟩ := addItem_holds idx hit h
      obtain ⟨hhold', hframe'⟩ := ih hitems hhold
      exact ⟨hhold', hframe.trans hframe'⟩

/-- The cells after the opcodes of an entry: those of its index grow by their flags.
Kind: L -/
theorem addItems_eq (idx : String) (items : List (Variant × List (Flag String))) (v : Variant)
    (i : String) :
    addItems idx c items v i =
      if i = idx then c v i ++ items.flatMap (fun it => if it.1 = v then it.2 else [])
      else c v i := by
  induction items generalizing c with
  | nil => simp [addItems]
  | cons it items ih =>
      rw [addItems, List.foldl_cons]
      show addItems idx (addCell c it.1 idx it.2) items v i = _
      rw [ih, List.flatMap_cons]
      by_cases hi : i = idx
      · rw [if_pos hi, if_pos hi, addCell]
        by_cases hv : v = it.1
        · rw [if_pos ⟨hv, hi⟩, if_pos hv.symm, List.append_assoc]
        · rw [if_neg (fun hc => hv hc.1), if_neg (fun hc => hv hc.symm), List.nil_append]
      · rw [if_neg hi, if_neg hi, addCell, if_neg (fun hc => hi hc.2)]

/-- The cells after a line.
Kind: D -/
def addEntry (c : Variant → String → List (Flag String)) (idx : String) (e : Entry) :
    Variant → String → List (Flag String) :=
  fun v i => if i = idx then c v i ++ e.flags v else c v i

/-- The cells after an entry with opcodes, with the mark of a variant if there is one.
Kind: L -/
theorem addEntry_opcodes (idx : String) (items : List (Variant × List (Flag String))) :
    addEntry c idx (.opcodes items) =
      if hasVariant items then addCell (addItems idx c items) .plain idx [.variant]
      else addItems idx c items := by
  funext v i
  cases hvar : hasVariant items with
  | true =>
      rw [if_pos rfl, addEntry, Entry.flags, addCell, addItems_eq, hvar]
      by_cases hi : i = idx
      · by_cases hv : v = .plain
        · simp [hi, hv]
        · simp [hi, hv]
      · simp [hi]
  | false =>
      rw [if_neg Bool.false_ne_true, addEntry, Entry.flags, addItems_eq, hvar]
      simp

/-- The cells after an entry that is an escape.
Kind: L -/
theorem addEntry_escape (idx ref : String) :
    addEntry c idx (.escape ref) = addCell c .plain idx [.escape ref] := by
  funext v i
  rw [addEntry, Entry.flags, addCell]
  by_cases hi : i = idx
  · by_cases hv : v = .plain
    · simp [hi, hv]
    · simp [hi, hv]
  · simp [hi]

/-- An entry that is not an escape has no escape among its flags.
Kind: L -/
theorem parseEntry_opcodes_noEscape {args : List String}
    {items : List (Variant × List (Flag String))} (h : parseEntry args = .ok (.opcodes items)) :
    ∀ it ∈ items, NoEscape it.2 := by
  unfold parseEntry at h
  split at h
  · split at h <;> cases h
  · obtain ⟨items', hitems, h⟩ := bind_eq_ok.mp h
    cases h
    exact parseItems_noEscape hitems

/-- One line: the index was free, and the arrays hold the cells with those of the line.
Kind: L -/
theorem entry_holds {idx : String} {args : List String} (h : Holds g c)
    (hent : g.entry idx args = .ok g') :
    ∃ e, parseEntry args = .ok e ∧ c .plain idx = [] ∧ Holds g' (addEntry c idx e) ∧
      Frame g g' := by
  unfold Gen.entry at hent
  split_ifs at hent with hfree
  obtain ⟨e, he, hent⟩ := bind_eq_ok.mp hent
  have hempty : c .plain idx = [] := by
    have hnone := Option.not_isSome_iff_eq_none.mp hfree
    have hget := h .plain idx
    rw [Arr.get, hnone] at hget
    exact eq_nil_of_numberAll hget
  refine ⟨e, he, hempty, ?_⟩
  cases e with
  | escape ref =>
      simp only at hent
      split_ifs at hent with hnew
      cases hent
      obtain ⟨hnone, hdang⟩ := not_or.mp hnew
      have hext := Numbering.extends_add (Option.not_isSome_iff_eq_none.mp hnone)
      have hnum : numberAll (g.escape.add ref) g.group [.escape ref] =
          some [.escape g.escape.next] := by
        refine numberAll_cons_eq_some.mpr ⟨.escape g.escape.next, [], ?_, rfl, rfl⟩
        rw [Flag.number, Numbering.id?_add, if_pos rfl]
        rfl
      have hmono : Holds { g with escape := g.escape.add ref } c := h.mono rfl hext (.refl _)
      have hfresh : ∀ ref' ∈ g.dangling, g.escape.id? ref' = none →
          (g.escape.add ref).id? ref' = none := by
        intro ref' hmem hnone'
        rw [Numbering.id?_add, if_neg]
        · exact hnone'
        · rintro rfl
          exact hdang hmem
      have hframe : Frame g { g with escape := g.escape.add ref } :=
        { Frame.refl g with escape := hext, fresh := hfresh }
      rw [addEntry_escape]
      exact ⟨hmono.addFlags hnum, hframe.addFlags _ _ _⟩
  | opcodes items =>
      obtain ⟨hhold, hframe⟩ := foldl_addItem_holds idx (parseEntry_opcodes_noEscape he) h
      cases hent
      rw [addEntry_opcodes]
      split_ifs
      · exact ⟨hhold.addFlags rfl, hframe.addFlags _ _ _⟩
      · exact ⟨hhold, hframe⟩

/-- A cell with an escape is one of the first array and has no other flag.
Kind: D -/
def EscapeOnly (c : Variant → String → List (Flag String)) : Prop :=
  ∀ v idx ref, Flag.escape ref ∈ c v idx → v = .plain ∧ c v idx = [.escape ref]

/-- An entry with an escape has nothing else, and is in the plain array.
Kind: L -/
theorem Entry.escapeOnly {args : List String} {e : Entry} (he : parseEntry args = .ok e)
    (v : Variant) {ref : String} (hmem : Flag.escape ref ∈ e.flags v) :
    v = .plain ∧ e.flags v = [.escape ref] := by
  cases e with
  | escape ref' =>
      rw [Entry.flags] at hmem ⊢
      split_ifs at hmem ⊢ with hv
      · obtain rfl := (Flag.escape.inj (List.mem_singleton.mp hmem))
        exact ⟨hv, rfl⟩
      · cases hmem
  | opcodes items =>
      rw [Entry.flags] at hmem
      exfalso
      rcases List.mem_append.mp hmem with hmem | hmem
      · obtain ⟨it, hit, hmem⟩ := List.mem_flatMap.mp hmem
        split_ifs at hmem
        · exact parseEntry_opcodes_noEscape he it hit ref hmem
        · cases hmem
      · split_ifs at hmem
        · cases List.mem_singleton.mp hmem
        · cases hmem

/-- This is kept by an entry with a new index.
Kind: L -/
theorem EscapeOnly.addEntry {args : List String} {e : Entry} (he : parseEntry args = .ok e)
    {idx : String} (hfree : c .plain idx = []) (h : EscapeOnly c) :
    EscapeOnly (addEntry c idx e) := by
  intro v i ref hmem
  rw [OpcodeMap.addEntry] at hmem ⊢
  split_ifs at hmem ⊢ with hi
  · subst hi
    rcases List.mem_append.mp hmem with hold | hnew
    · -- an escape of an earlier line would have taken the index
      obtain ⟨rfl, -⟩ := h v i ref hold
      rw [hfree] at hold
      cases hold
    · obtain ⟨rfl, hflags⟩ := Entry.escapeOnly he v hnew
      rw [hfree, hflags, List.nil_append]
      exact ⟨rfl, rfl⟩
  · exact h v i ref hmem

/-- The cells of a list of entries with one more.
Kind: L -/
theorem entriesCell_concat {entries : List (String × List String)} {idx : String}
    {args : List String} {e : Entry} (he : parseEntry args = .ok e) :
    entriesCell (entries ++ [(idx, args)]) = addEntry (entriesCell entries) idx e := by
  funext v i
  rw [entriesCell, List.flatMap_append, addEntry]
  simp only [List.flatMap_cons, List.flatMap_nil, List.append_nil, argsFlags, he]
  by_cases hi : i = idx
  · rw [if_pos hi.symm, if_pos hi]
    rfl
  · rw [if_neg (fun h => hi h.symm), if_neg hi, List.append_nil]
    rfl

/-- Of two lines with one index, the first has no flags.
Kind: D -/
def Once (entries : List (String × List String)) : Prop :=
  entries.Pairwise fun e e' => e.1 = e'.1 → ∀ v, argsFlags e.2 v = []

/-- A line without flags for the first array has none at all.
Kind: L -/
theorem argsFlags_eq_nil {args : List String} (h : argsFlags args .plain = []) (v : Variant) :
    argsFlags args v = [] := by
  unfold argsFlags at h ⊢
  cases hparse : parseEntry args with
  | error e => rfl
  | ok e =>
      rw [hparse] at h
      cases e with
      | escape ref => cases h
      | opcodes items =>
          obtain ⟨hplain, hvar⟩ := List.append_eq_nil_iff.mp h
          have hall : ∀ it ∈ items, it.1 = .plain := by
            intro it hit
            by_contra hne
            have hany : hasVariant items = true :=
              List.any_eq_true.mpr ⟨it, hit, bne_iff_ne.mpr hne⟩
            rw [if_pos ⟨rfl, hany⟩] at hvar
            cases hvar
          by_cases hv : v = .plain
          · rw [hv]
            exact h
          · refine List.append_eq_nil_iff.mpr ⟨List.flatMap_eq_nil_iff.mpr ?_, ?_⟩
            · intro it hit
              exact if_neg fun hiv => hv (hiv.symm.trans (hall it hit))
            · exact if_neg fun hc => hv hc.1

/-- A line is accepted only where the lines before it with its index have no flags.
Kind: L -/
theorem Once.concat {entries : List (String × List String)} {e : String × List String}
    (h : Once entries) (hfree : entriesCell entries .plain e.1 = []) : Once (entries ++ [e]) := by
  refine List.pairwise_append.mpr ⟨h, List.pairwise_singleton _ _, ?_⟩
  intro e' he' e'' he'' hidx
  obtain rfl := List.mem_singleton.mp he''
  refine argsFlags_eq_nil ?_
  have hnil := List.flatMap_eq_nil_iff.mp hfree e' he'
  rwa [if_pos hidx] at hnil

/-- **The arrays hold the cells**: what the generator has after the entries of a table.
Kind: P -/
theorem entries_hold {entries : List (String × List String)} (hg : g.arrays = fun _ => [])
    (hrun : (entries.map fun e => Rule.entry e.1 e.2).foldlM Gen.step g = .ok g') :
    Holds g' (entriesCell entries) ∧ EscapeOnly (entriesCell entries) ∧ Once entries ∧
      Frame g g' := by
  rw [List.foldlM_map] at hrun
  refine foldlM_invariant (fun seen g' => Holds g' (entriesCell seen) ∧
    EscapeOnly (entriesCell seen) ∧ Once seen ∧ Frame g g') ?_ [] ?_ hrun
  · rintro seen ⟨idx, args⟩ u v ⟨hhold, hesc, honce, hframe⟩ hstep
    obtain ⟨e, he, hfree, hhold', hframe'⟩ := entry_holds hhold hstep
    rw [entriesCell_concat he]
    exact ⟨hhold', hesc.addEntry he hfree, honce.concat hfree, hframe.trans hframe'⟩
  · refine ⟨?_, ?_, List.Pairwise.nil, Frame.refl g⟩
    · intro v idx
      rw [hg]
      rfl
    · intro v idx ref hmem
      cases hmem

end Togpu.OpcodeMap
