import Togpu.Insn.MapMeaning

/-!
# The generator over a whole opcode map

The generator reads a table of the map: its heading, its entries and its last line. This module
says what each part does and, by induction over the tables, what the generator has printed and
registered at the end.

* `Headed` — what the variables say about the heading; `head_spec` — the lines of a heading.
* `Prints` — what printing the arrays does; `endTable_spec` — the last line of a table.
* `MapInv` — what holds between two tables.
* **One table** (`block_inv`) and **the whole map** (`generate_inv`): every table is printed and
  registered under what it is for, with numbers for the names in its cells.
-/

namespace Togpu.OpcodeMap

open Togpu.Lib
open Togpu.X86

/-! ## The heading of a table -/

/-- No table is being read.
Kind: D -/
structure Gen.Clean (g : Gen) : Prop where
  arrays : g.arrays = fun _ => []
  eid : g.eid = .unset
  gid : g.gid = none
  aid : g.aid = none
  tname : g.tname = none

/-- What the variables say about the heading that was read. A referrer without a number is one of
the names that were read and never assigned.
Kind: D -/
def Headed (E G : Numbering String) (dangling : List String) : Head → Gen → Prop
  | .group name, s => ∃ n, G.id? name = some n ∧ s.gid = some n ∧ s.tname = some (.group n)
  | .opcodes referrer avx, s =>
      s.gid = none ∧ s.aid = avx.head?.bind decimal ∧
        (if referrer = [] then s.eid = .unset
          else (∃ n, E.id? (joinFields referrer) = some n ∧ s.eid = .known n) ∨
            joinFields referrer ∈ dangling ∧ s.eid = .unknown) ∧
        (s.tname = some .primary → referrer = [] ∧ avx = [])

variable {E E' G G' : Numbering String} {g g' s : Gen} {b : Block}

/-- Later numbers and names change nothing in what the variables say about a heading.
Kind: L -/
theorem Headed.mono {D D' : List String} {h : Head} {s' : Gen} (hh : Headed E G D h s)
    (hE : E'.Extends E) (hG : G'.Extends G) (hD : D ⊆ D') (hgid : s'.gid = s.gid)
    (haid : s'.aid = s.aid) (heid : s'.eid = s.eid) (htname : s'.tname = s.tname) :
    Headed E' G' D' h s' := by
  cases h with
  | group name =>
      obtain ⟨n, hn, hg, ht⟩ := hh
      exact ⟨n, hG _ _ hn, hgid.trans hg, htname.trans ht⟩
  | opcodes referrer avx =>
      obtain ⟨hg, ha, hr, ht⟩ := hh
      refine ⟨hgid.trans hg, haid.trans ha, ?_, htname ▸ ht⟩
      rw [heid]
      split_ifs at hr ⊢
      · exact hr
      · rcases hr with ⟨n, hn, hk⟩ | ⟨hmem, hk⟩
        · exact Or.inl ⟨n, hE _ _ hn, hk⟩
        · exact Or.inr ⟨hD hmem, hk⟩

/-- What the lines of a heading leave alone.
Kind: D -/
structure HeadFrame (g g' : Gen) : Prop where
  arrays : g'.arrays = g.arrays
  escape : g'.escape = g.escape
  group : g'.group = g.group
  etable : g'.etable = g.etable
  gtable : g'.gtable = g.gtable
  atable : g'.atable = g.atable
  printed : g'.printed = g.printed
  dangling : g.dangling ⊆ g'.dangling
  fresh : ∀ ref ∈ g'.dangling, ref ∈ g.dangling ∨ g.escape.id? ref = none
  gaid : g.gaid ≤ g'.gaid

/-- Without a line nothing changes.
Kind: L -/
theorem HeadFrame.refl (g : Gen) : HeadFrame g g where
  arrays := rfl
  escape := rfl
  group := rfl
  etable := rfl
  gtable := rfl
  atable := rfl
  printed := rfl
  dangling := List.Subset.refl _
  fresh := fun _ h => Or.inl h
  gaid := le_rfl

/-- Lines one after another leave alone what each of them does.
Kind: L -/
theorem HeadFrame.trans {g'' : Gen} (h : HeadFrame g g') (h' : HeadFrame g' g'') :
    HeadFrame g g'' where
  arrays := h'.arrays.trans h.arrays
  escape := h'.escape.trans h.escape
  group := h'.group.trans h.group
  etable := h'.etable.trans h.etable
  gtable := h'.gtable.trans h.gtable
  atable := h'.atable.trans h.atable
  printed := h'.printed.trans h.printed
  dangling := List.Subset.trans h.dangling h'.dangling
  fresh := by
    intro ref hmem
    rcases h'.fresh ref hmem with hold | hnone
    · exact h.fresh ref hold
    · exact Or.inr (h.escape ▸ hnone)
  gaid := h.gaid.trans h'.gaid

/-- The line `Referrer:`.
Kind: L -/
theorem referrer_spec (g : Gen) (args : List String) :
    HeadFrame g (g.referrer args) ∧ (g.referrer args).gid = g.gid ∧
      (g.referrer args).aid = g.aid ∧
      if args = [] then (g.referrer args).eid = g.eid ∧ (g.referrer args).tname = g.tname
      else (∃ n, (g.referrer args).tname = some (.escape n)) ∧
        ((∃ n, g.escape.id? (joinFields args) = some n ∧ (g.referrer args).eid = .known n) ∨
          joinFields args ∈ (g.referrer args).dangling ∧ (g.referrer args).eid = .unknown) := by
  cases args with
  | nil => exact ⟨HeadFrame.refl g, rfl, rfl, rfl, rfl⟩
  | cons a args =>
      rw [if_neg (List.cons_ne_nil _ _)]
      cases hid : g.escape.id? (joinFields (a :: args)) with
      | some n =>
          have heq : g.referrer (a :: args) =
              { g with eid := .known n, tname := some (.escape n) } := by
            simp only [Gen.referrer, hid]
          rw [heq]
          exact ⟨{ HeadFrame.refl g with }, rfl, rfl, ⟨n, rfl⟩, Or.inl ⟨n, rfl, rfl⟩⟩
      | none =>
          have heq : g.referrer (a :: args) = { g with
              eid := .unknown
              tname := some (.escape 0)
              dangling := joinFields (a :: args) :: g.dangling } := by
            simp only [Gen.referrer, hid]
          rw [heq]
          refine ⟨{ HeadFrame.refl g with dangling := ?_, fresh := ?_ }, rfl, rfl, ⟨0, rfl⟩,
            Or.inr ⟨List.mem_cons_self .., rfl⟩⟩
          · exact List.subset_cons_self _ _
          · intro ref hmem
            rcases List.mem_cons.mp hmem with rfl | hold
            · exact Or.inr hid
            · exact Or.inl hold

/-- The line `AVXcode:`.
Kind: L -/
theorem avxCode_spec {args : List String} (haid : g.aid = none) (h : g.avxCode args = .ok g') :
    HeadFrame g g' ∧ g'.gid = g.gid ∧ g'.eid = g.eid ∧ g'.aid = args.head?.bind decimal ∧
      (∀ a, g'.aid = some a → a < g'.gaid) ∧
      (g'.tname = some .primary → g.tname = some .primary ∨ g.eid = .unset ∧ args = []) := by
  cases args with
  | nil =>
      have hno : ∀ a, g.aid = some a → a < g.gaid := by
        intro a ha
        cases haid.symm.trans ha
      have hg' : g' =
          if g.aid = none ∧ g.eid = .unset then { g with tname := some .primary } else g :=
        (Except.ok.inj h).symm
      split_ifs at hg' with heid
      · rw [hg']
        exact ⟨{ HeadFrame.refl g with }, rfl, rfl, haid, hno, fun _ => Or.inr ⟨heid.2, rfl⟩⟩
      · rw [hg']
        exact ⟨HeadFrame.refl g, rfl, rfl, haid, hno, Or.inl⟩
  | cons code rest =>
      unfold Gen.avxCode at h
      cases hn : decimal code with
      | none =>
          simp only [hn] at h
          cases h
      | some n =>
          simp only [hn] at h
          have hg' := (Except.ok.inj h).symm
          rw [if_neg (fun hc => Option.some_ne_none n hc.1)] at hg'
          have hgaid : g'.gaid = if g.gaid ≤ n then n + 1 else g.gaid := by rw [hg']
          have htname : g'.tname = if g.tname = none then some (.avx n) else g.tname := by rw [hg']
          have haid' : g'.aid = some n := by rw [hg']
          refine ⟨?_, by rw [hg'], by rw [hg'], haid'.trans hn.symm, ?_, ?_⟩
          · rw [hg'] at hgaid ⊢
            refine { HeadFrame.refl g with gaid := ?_ }
            rw [hgaid]
            split_ifs <;> omega
          · intro a ha
            cases haid'.symm.trans ha
            rw [hgaid]
            split_ifs <;> omega
          · intro ht
            rw [htname] at ht
            split_ifs at ht with hnone
            · cases ht
            · exact Or.inl ht

/-- The lines of a heading.
Kind: L -/
theorem head_spec {h : Head} (hg : g.Clean) (hrun : h.rules.foldlM Gen.step g = .ok g') :
    HeadFrame g g' ∧ Headed g'.escape g'.group g'.dangling h g' ∧
      ∀ a, g'.aid = some a → a < g'.gaid := by
  cases h with
  | group name =>
      obtain ⟨u, hu, hrun⟩ := foldlM_cons_eq_ok.mp hrun
      cases hrun
      simp only [Gen.step, Gen.grpTable] at hu
      split at hu
      · cases hu
      · rename_i n hn
        cases hu
        refine ⟨{ HeadFrame.refl g with }, ⟨n, hn, rfl, rfl⟩, ?_⟩
        intro a ha
        cases hg.aid.symm.trans ha
  | opcodes referrer avx =>
      obtain ⟨u, hu, hrun⟩ := foldlM_cons_eq_ok.mp hrun
      obtain ⟨u', hu', hrun⟩ := foldlM_cons_eq_ok.mp hrun
      obtain ⟨u'', hu'', hrun⟩ := foldlM_cons_eq_ok.mp hrun
      cases hrun
      obtain rfl : g = u := by
        simp only [Gen.step, hg.tname] at hu
        exact Except.ok.inj hu
      cases hu'
      obtain ⟨hframe, hgid, haid, href⟩ := referrer_spec g referrer
      obtain ⟨hframe', hgid', heid', haid', hlt, htname⟩ := avxCode_spec (haid.trans hg.aid) hu''
      refine ⟨hframe.trans hframe', ⟨hgid'.trans (hgid.trans hg.gid), haid', ?_, ?_⟩, hlt⟩
      · rw [heid']
        split_ifs at href ⊢
        · exact href.1.trans hg.eid
        · rcases href.2 with ⟨n, hn, hk⟩ | ⟨hmem, hk⟩
          · refine Or.inl ⟨n, ?_, hk⟩
            rw [hframe'.escape, hframe.escape, hn]
          · exact Or.inr ⟨hframe'.dangling hmem, hk⟩
      · intro ht
        by_cases hr : referrer = []
        · rw [if_pos hr] at href
          refine ⟨hr, ?_⟩
          rcases htname ht with hprim | ⟨-, havx⟩
          · rw [href.2, hg.tname] at hprim
            cases hprim
          · exact havx
        · rw [if_neg hr] at href
          obtain ⟨⟨n, hn⟩, heid⟩ := href
          rcases htname ht with hprim | ⟨hunset, -⟩
          · cases hn.symm.trans hprim
          · rcases heid with ⟨m, -, hk⟩ | ⟨-, hk⟩ <;> cases hunset.symm.trans hk

/-! ## The end of a table -/

/-- The cells that are printed for one of the arrays.
Kind: D -/
def Gen.cells (s : Gen) (v : Variant) : Cells :=
  if s.gid = none then printTable (s.arrays v) opcodeId 256 else printTable (s.arrays v) groupId 8

/-- What printing the arrays `vs` does.
Kind: D -/
structure Prints (vs : List Variant) (g g' : Gen) : Prop where
  arrays : g'.arrays = g.arrays
  eid : g'.eid = g.eid
  gid : g'.gid = g.gid
  aid : g'.aid = g.aid
  tname : g'.tname = g.tname
  escape : g'.escape = g.escape
  group : g'.group = g.group
  dangling : g'.dangling = g.dangling
  gaid : g'.gaid = g.gaid
  printed : ∀ name C, (name, C) ∈ g'.printed ↔
    (name, C) ∈ g.printed ∨ ∃ v ∈ vs, g.arrays v ≠ [] ∧ name = (g.tname, v) ∧ C = g.cells v
  etable : ∀ k v name, ((k, v), name) ∈ g'.etable ↔ ((k, v), name) ∈ g.etable ∨
    v ∈ vs ∧ g.gid = none ∧ g.eid = k ∧ g.arrays v ≠ [] ∧ name = (g.tname, v)
  atable : ∀ k v name, ((k, v), name) ∈ g'.atable ↔ ((k, v), name) ∈ g.atable ∨
    v ∈ vs ∧ g.gid = none ∧ g.aid = some k ∧ g.arrays v ≠ [] ∧ name = (g.tname, v)
  gtable : ∀ k v name, ((k, v), name) ∈ g'.gtable ↔ ((k, v), name) ∈ g.gtable ∨
    v ∈ vs ∧ g.gid = some k ∧ g.arrays v ≠ [] ∧ name = (g.tname, v)

/-- Printing no array changes nothing.
Kind: L -/
theorem Prints.nil (g : Gen) : Prints [] g g := by
  constructor <;> simp

/-- Printing one array and then others.
Kind: L -/
theorem Prints.cons {v : Variant} {vs : List Variant} {g'' : Gen} (h : Prints [v] g g')
    (h' : Prints vs g' g'') : Prints (v :: vs) g g'' where
  arrays := h'.arrays.trans h.arrays
  eid := h'.eid.trans h.eid
  gid := h'.gid.trans h.gid
  aid := h'.aid.trans h.aid
  tname := h'.tname.trans h.tname
  escape := h'.escape.trans h.escape
  group := h'.group.trans h.group
  dangling := h'.dangling.trans h.dangling
  gaid := h'.gaid.trans h.gaid
  printed := by
    intro name C
    have hcells : g'.cells = g.cells := by
      funext w
      rw [Gen.cells, Gen.cells, h.gid, h.arrays]
    rw [h'.printed, h.printed, or_assoc, List.exists_mem_cons_iff, h.arrays, h.tname, hcells]
    simp
  etable := by
    intro k w name
    rw [h'.etable, h.etable, or_assoc, List.mem_cons, h.arrays, h.tname, h.gid, h.eid,
      ← or_and_right]
    simp
  atable := by
    intro k w name
    rw [h'.atable, h.atable, or_assoc, List.mem_cons, h.arrays, h.tname, h.gid, h.aid,
      ← or_and_right]
    simp
  gtable := by
    intro k w name
    rw [h'.gtable, h.gtable, or_assoc, List.mem_cons, h.arrays, h.tname, h.gid, ← or_and_right]
    simp

/-- A line of a register.
Kind: L -/
theorem registered_iff {κ : Type} {arrays : Variant → Arr} {v w : Variant} {k k' : κ}
    {t : Option TName} {name : TableName} (hv : arrays v ≠ []) :
    ((k, w), name) = ((k', v), (t, v)) ↔ w ∈ [v] ∧ k' = k ∧ arrays w ≠ [] ∧ name = (t, w) := by
  rw [List.mem_singleton, Prod.mk.injEq, Prod.mk.injEq]
  constructor
  · rintro ⟨⟨rfl, rfl⟩, rfl⟩
    exact ⟨rfl, rfl, hv, rfl⟩
  · rintro ⟨rfl, rfl, -, rfl⟩
    exact ⟨⟨rfl, rfl⟩, rfl⟩

/-- At the end of an opcode table each array is printed under the escape and the code in force.
Kind: L -/
theorem printOpcodes_prints (v : Variant) (hgid : g.gid = none) :
    Prints [v] g (g.printOpcodes v) := by
  unfold Gen.printOpcodes
  split_ifs with hv
  · constructor <;> simp +contextual [hv]
  · constructor <;> try rfl
    · intro name C
      simp [Gen.cells, hgid, hv]
    · intro k w name
      rw [List.mem_cons, registered_iff hv, hgid]
      simp only [true_and, or_comm]
    · intro k w name
      cases haid : g.aid with
      | none => simp
      | some a =>
          simp only
          rw [List.mem_cons, registered_iff hv, hgid, Option.some_inj]
          simp only [true_and, or_comm]
    · intro k w name
      simp [hgid]

/-- At the end of a group each array is printed under the number of the group.
Kind: L -/
theorem printGroup_prints (v : Variant) {n : ℕ} (hgid : g.gid = some n) :
    Prints [v] g (g.printGroup n v) := by
  unfold Gen.printGroup
  split_ifs with hv
  · constructor <;> simp +contextual [hv]
  · constructor <;> try rfl
    · intro name C
      simp [Gen.cells, hgid, hv]
    · intro k w name
      simp [hgid]
    · intro k w name
      simp [hgid]
    · intro k w name
      rw [List.mem_cons, registered_iff hv, hgid, Option.some_inj, or_comm]

/-- A step that prints one array prints a list of them, one after another.
Kind: L -/
theorem foldl_prints {f : Gen → Variant → Gen} {n : Option ℕ}
    (hf : ∀ g v, g.gid = n → Prints [v] g (f g v)) (vs : List Variant) (hgid : g.gid = n) :
    Prints vs g (vs.foldl f g) := by
  induction vs generalizing g with
  | nil => exact Prints.nil g
  | cons v vs ih =>
      have hv := hf g v hgid
      exact hv.cons (ih (hv.gid.trans hgid))

/-- The line `EndTable`: the four arrays are printed, then the variables are cleared.
Kind: L -/
theorem endTable_spec (g : Gen) : ∃ g', Prints variants g g' ∧ g.endTable = g'.clearVars := by
  unfold Gen.endTable
  cases hgid : g.gid with
  | none => exact ⟨_, foldl_prints (fun g v h => printOpcodes_prints v h) variants hgid, rfl⟩
  | some n => exact ⟨_, foldl_prints (fun g v h => printGroup_prints v h) variants hgid, rfl⟩

/-! ## Between two tables -/

/-- What is known of a table that has been read, `s` being the state at its last line.
Kind: D -/
structure Snap (E G : Numbering String) (dangling : List String) (b : Block) (s : Gen) : Prop where
  headed : Headed E G dangling b.head s
  holds : ∀ v idx, numberAll E G (b.cell v idx) = some ((s.arrays v).get idx)
  escapeOnly : EscapeOnly b.cell
  once : Once b.entries

/-- Later numbers and names change nothing in what was printed for a table.
Kind: L -/
theorem Snap.mono {D D' : List String} (h : Snap E G D b s) (hE : E'.Extends E)
    (hG : G'.Extends G) (hD : D ⊆ D') : Snap E' G' D' b s where
  headed := h.headed.mono hE hG hD rfl rfl rfl rfl
  holds := fun v idx => numberAll_mono hE hG (h.holds v idx)
  escapeOnly := h.escapeOnly
  once := h.once

/-- What holds between two tables: each of the tables `done` has been printed and registered.
Kind: D -/
structure MapInv (done : List (Block × Gen)) (g : Gen) : Prop where
  clean : g.Clean
  fresh : ∀ ref ∈ g.dangling, g.escape.id? ref = none
  snaps : ∀ p ∈ done, Snap g.escape g.group g.dangling p.1 p.2
  gaid : ∀ p ∈ done, ∀ a, p.2.aid = some a → a < g.gaid
  printed : ∀ name C, (name, C) ∈ g.printed ↔
    ∃ p ∈ done, ∃ v, p.2.arrays v ≠ [] ∧ name = (p.2.tname, v) ∧ C = p.2.cells v
  etable : ∀ k v name, ((k, v), name) ∈ g.etable ↔
    ∃ p ∈ done, p.2.gid = none ∧ p.2.eid = k ∧ p.2.arrays v ≠ [] ∧ name = (p.2.tname, v)
  atable : ∀ k v name, ((k, v), name) ∈ g.atable ↔
    ∃ p ∈ done, p.2.gid = none ∧ p.2.aid = some k ∧ p.2.arrays v ≠ [] ∧ name = (p.2.tname, v)
  gtable : ∀ k v name, ((k, v), name) ∈ g.gtable ↔
    ∃ p ∈ done, p.2.gid = some k ∧ p.2.arrays v ≠ [] ∧ name = (p.2.tname, v)

/-- Before the first table nothing has been printed.
Kind: L -/
theorem mapInv_init : MapInv [] Gen.init where
  clean := ⟨rfl, rfl, rfl, rfl, rfl⟩
  fresh := by
    intro ref hmem
    cases hmem
  snaps := by simp
  gaid := by simp
  printed := by simp [Gen.init]
  etable := by simp [Gen.init]
  atable := by simp [Gen.init]
  gtable := by simp [Gen.init]

/-- A member of a list with one more element.
Kind: L -/
theorem exists_mem_concat {α : Type} {l : List α} {a : α} {P : α → Prop} :
    (∃ p ∈ l ++ [a], P p) ↔ (∃ p ∈ l, P p) ∨ P a := by
  simp only [List.mem_append, List.mem_singleton, or_and_right, exists_or, exists_eq_left]

/-- All four variants are gone through.
Kind: L -/
theorem mem_variants (v : Variant) : v ∈ variants := by cases v <;> decide

/-- **One table**: it is printed and registered, and the tables before it stay as they are.
Kind: P -/
theorem block_inv {done : List (Block × Gen)} (hinv : MapInv done g)
    (hrun : b.rules.foldlM Gen.step g = .ok g') : ∃ s, MapInv (done ++ [(b, s)]) g' := by
  obtain ⟨s, hrun, hend⟩ := foldlM_append_eq_ok.mp hrun
  obtain ⟨u, hhead, hentries⟩ := foldlM_append_eq_ok.mp hrun
  obtain ⟨hframe, hheaded, haid⟩ := head_spec hinv.clean hhead
  obtain ⟨hholds, hesc, honce, hentry⟩ :=
    entries_hold (hframe.arrays.trans hinv.clean.arrays) hentries
  obtain ⟨w, hprints, hw⟩ := endTable_spec s
  obtain rfl : g' = w.clearVars := by
    obtain ⟨v, hv, hnil⟩ := foldlM_cons_eq_ok.mp hend
    rw [← hw, ← Except.ok.inj hnil]
    exact (Except.ok.inj hv).symm
  have hE : s.escape.Extends g.escape := hframe.escape ▸ hentry.escape
  have hG : s.group.Extends g.group := hframe.group ▸ hentry.group
  have hD : g.dangling ⊆ s.dangling := by
    rw [hentry.dangling]
    exact hframe.dangling
  refine ⟨s, ?_⟩
  constructor
  case clean => exact ⟨rfl, rfl, rfl, rfl, rfl⟩
  case fresh =>
    intro ref hmem
    replace hmem : ref ∈ s.dangling := hprints.dangling ▸ hmem
    show w.escape.id? ref = none
    rw [hprints.escape]
    rw [hentry.dangling] at hmem
    refine hentry.fresh ref hmem ?_
    rw [hframe.escape]
    rcases hframe.fresh ref hmem with hold | hnone
    · exact hinv.fresh ref hold
    · exact hnone
  case snaps =>
    show ∀ p ∈ done ++ [(b, s)], Snap w.escape w.group w.dangling p.1 p.2
    rw [hprints.escape, hprints.group, hprints.dangling]
    intro p hp
    rcases List.mem_append.mp hp with hold | hnew
    · exact (hinv.snaps p hold).mono hE hG hD
    · obtain rfl := List.mem_singleton.mp hnew
      refine ⟨?_, hholds, hesc, honce⟩
      exact hheaded.mono hentry.escape hentry.group (hentry.dangling ▸ List.Subset.refl _)
        hentry.gid hentry.aid hentry.eid hentry.tname
  case gaid =>
    intro p hp a ha
    have hgaid : w.clearVars.gaid = u.gaid := hprints.gaid.trans hentry.gaid
    rw [hgaid]
    rcases List.mem_append.mp hp with hold | hnew
    · exact (hinv.gaid p hold a ha).trans_le hframe.gaid
    · obtain rfl := List.mem_singleton.mp hnew
      exact haid a (hentry.aid ▸ ha)
  case printed =>
    intro name C
    show (name, C) ∈ w.printed ↔ _
    rw [hprints.printed, hentry.printed, hframe.printed, hinv.printed, exists_mem_concat]
    simp [mem_variants]
  case etable =>
    intro k v name
    show ((k, v), name) ∈ w.etable ↔ _
    rw [hprints.etable, hentry.etable, hframe.etable, hinv.etable, exists_mem_concat]
    simp [mem_variants]
  case atable =>
    intro k v name
    show ((k, v), name) ∈ w.atable ↔ _
    rw [hprints.atable, hentry.atable, hframe.atable, hinv.atable, exists_mem_concat]
    simp [mem_variants]
  case gtable =>
    intro k v name
    show ((k, v), name) ∈ w.gtable ↔ _
    rw [hprints.gtable, hentry.gtable, hframe.gtable, hinv.gtable, exists_mem_concat]
    simp [mem_variants]

/-- Lines that trigger no rule can be left out.
Kind: L -/
theorem foldlM_filter_skip (rs : List Rule) (g : Gen) :
    (rs.filter fun r => decide (r ≠ .skip)).foldlM Gen.step g = rs.foldlM Gen.step g := by
  induction rs generalizing g with
  | nil => rfl
  | cons r rs ih =>
      rw [List.filter_cons]
      by_cases hr : r = .skip
      · subst hr
        exact ih g
      · rw [if_pos (by simpa using hr), List.foldlM_cons, List.foldlM_cons]
        simp only [ih]

/-- **The whole map**: after a run without an error every table has been printed and registered.
Kind: P -/
theorem generate_inv {lines : List String} {bs : List Block} (hmap : IsMap lines bs)
    (hgen : generate lines = .ok g) :
    ∃ done : List (Block × Gen), done.map Prod.fst = bs ∧ MapInv done g := by
  rw [generate, ← foldlM_filter_skip, hmap] at hgen
  suffices h : ∀ (bs : List Block) (done : List (Block × Gen)) (u : Gen), MapInv done u →
      (bs.flatMap Block.rules).foldlM Gen.step u = .ok g →
      ∃ done', done'.map Prod.fst = done.map Prod.fst ++ bs ∧ MapInv done' g by
    exact h bs [] Gen.init mapInv_init hgen
  intro bs
  induction bs with
  | nil =>
      intro done u hinv hrun
      cases hrun
      exact ⟨done, (List.append_nil _).symm, hinv⟩
  | cons b bs ih =>
      intro done u hinv hrun
      rw [List.flatMap_cons] at hrun
      obtain ⟨v, hb, hrest⟩ := foldlM_append_eq_ok.mp hrun
      obtain ⟨s, hinv'⟩ := block_inv hinv hb
      obtain ⟨done', hfst, hdone⟩ := ih _ v hinv' hrest
      refine ⟨done', ?_, hdone⟩
      rw [hfst, List.map_append, List.append_assoc]
      rfl

/-- **No line adds to another**: where two lines of a table have the same index, the generator
reports a redefinition unless the first of them has no flags at all.
Source: `gen-insn-attr-x86.awk` 248–345
Kind: C -/
theorem generate_once {lines : List String} {bs : List Block} (hmap : IsMap lines bs)
    (hgen : generate lines = .ok g) : ∀ b ∈ bs, Once b.entries := by
  intro b hb
  obtain ⟨done, hfst, hinv⟩ := generate_inv hmap hgen
  obtain ⟨p, hp, rfl⟩ := List.mem_map.mp (hfst ▸ hb)
  exact (hinv.snaps p hp).once

/-- A table with two lines for the opcode `06`, of which the first has no flags.
Kind: D -/
def pushBlock : Block :=
  ⟨.opcodes [] [], [("0x06", ["PUSH", "ES", "(i64)"]), ("0x06", ["PUSH", "Ib"])]⟩

/-- The lines of this table.
Kind: D -/
def pushMap : List String :=
  ["#", "Table: one byte opcode", "Referrer:", "AVXcode:", "06: PUSH ES (i64)", "06: PUSH Ib",
    "EndTable"]

/-- The generator accepts such a table.
Kind: P -/
theorem generate_once_push : ∃ g, generate pushMap = .ok g ∧ Once pushBlock.entries := by
  have hok : (generate pushMap).isOk = true := by decide +kernel
  have hmap : IsMap pushMap [pushBlock] := by decide +kernel
  cases hgen : generate pushMap with
  | error e =>
      rw [hgen] at hok
      cases hok
  | ok g => exact ⟨g, rfl, generate_once hmap hgen pushBlock (List.mem_singleton_self _)⟩

end Togpu.OpcodeMap
