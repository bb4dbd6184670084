import Togpu.Lib.CallPlan
import Togpu.Mapping.PageWalk

/-!
# The page-table walk with all its callbacks

`walk_page` takes up to five callbacks besides the one for huge pages of `hugetlbfs`: one for the
entries of each level and one for holes. The driver sets `pte_entry` alone (`walkPage`); here is the
walk for any of them, with what its comment promises: callbacks are called in order, the depth is
reduced if the lower ones are omitted, and the first nonzero result ends the walk and is returned.

* `WalkCall`, `MmWalk` — a call of a callback, and the callbacks of a walk, some of them null.
* `MmWalk.walkPage` — the walk.
* `planPage` — the calls of a walk, from the page table and from which callbacks there are.
* **The walk of an aligned range makes the calls of its plan, up to the first that returns a nonzero
  number; with `pte_entry` set these report every page of the range once and in order, with its
  entry, or as part of a hole if `pte_hole` is set** (`walkPage_contract`).
* The driver's walk is the walk with `pte_entry` alone (`walkPage_of_pteEntry`).
-/

namespace Togpu.Driver

open Togpu.Lib

/-! ## Callbacks -/

/-- A call of one of the callbacks: the entry, if it has one, and the range.
Source: `xt_TOGPU_pagewalk.c` 40, 65, 75, 109, 114, 250, 256
Kind: D -/
inductive WalkCall where
  /-- `pgd_entry`. -/
  | pgdEntry (pgd : Pgd) (addr next : Addr)
  /-- `pud_entry`. -/
  | pudEntry (pud : Pud) (addr next : Addr)
  /-- `pmd_entry`. -/
  | pmdEntry (pmd : Pmd) (addr next : Addr)
  /-- `pte_entry`. -/
  | pteEntry (pte : Pte) (addr next : Addr)
  /-- `pte_hole`. -/
  | pteHole (addr next : Addr)

/-- `struct mm_walk`, with `hugetlb_entry` null; `none` is a null pointer. A callback gets the
private data of the walk and returns a number; it does not change the page table.
Kind: D -/
structure MmWalk (σ : Type) where
  /-- The callback for entries of the first level. -/
  pgdEntry : Option (Pgd → Addr → Addr → σ → σ × ℤ)
  /-- The callback for entries of the second level. -/
  pudEntry : Option (Pud → Addr → Addr → σ → σ × ℤ)
  /-- The callback for entries of the third level. -/
  pmdEntry : Option (Pmd → Addr → Addr → σ → σ × ℤ)
  /-- The callback for entries of the last level. -/
  pteEntry : Option (Pte → Addr → Addr → σ → σ × ℤ)
  /-- The callback for ranges without entries. -/
  pteHole : Option (Addr → Addr → σ → σ × ℤ)
  /-- The address space. -/
  mm : Option MmStruct

/-- `-EINVAL`.
Kind: D -/
def einval : ℤ := -22

variable {σ : Type}

/-- `if (walk->callback) err = walk->callback(...)`, with `err` zero before.
Kind: D -/
def MmWalk.call (walk : MmWalk σ) : WalkCall → σ → σ × ℤ
  | .pgdEntry pgd addr next, st => walk.pgdEntry.elim (st, 0) fun f => f pgd addr next st
  | .pudEntry pud addr next, st => walk.pudEntry.elim (st, 0) fun f => f pud addr next st
  | .pmdEntry pmd addr next, st => walk.pmdEntry.elim (st, 0) fun f => f pmd addr next st
  | .pteEntry pte addr next, st => walk.pteEntry.elim (st, 0) fun f => f pte addr next st
  | .pteHole addr next, st => walk.pteHole.elim (st, 0) fun f => f addr next st

/-! ## The walk -/

/-- A third-level entry, unless it is empty.
Source: `xt_TOGPU_pagewalk.c` 63
Kind: D -/
def Pmd.nonempty : Pmd → Option Pmd
  | .none => Option.none
  | pmd => some pmd

namespace MmWalk

variable (walk : MmWalk σ) (fuel : ℕ)

/-- One round of an upper level: the hole where there is nothing; else the entry, and if that is
fine and lower callbacks ask for it, what is behind it.
Source: `xt_TOGPU_pagewalk.c` 63–87, 107–117, 248–259
Kind: D -/
def round {τ : Type} (table : Option τ) (entry hole : WalkCall) (descend : Bool)
    (walkTable : τ → σ → Option (σ × ℤ)) (st : σ) : Option (σ × ℤ) :=
  match table with
  | none => some (walk.call hole st)
  | some t =>
      let r := walk.call entry st
      if r.2 = 0 ∧ descend = true then walkTable t r.1 else some r

/-- `walk_pte_range`.
Source: `xt_TOGPU_pagewalk.c` 33–51
Kind: D -/
def walkPteRange (pte : ℕ → Pte) (addr stop : Addr) (st : σ) : Option (σ × ℤ) :=
  sweep (fun addr _ => addr + 4096)
    (fun i addr next st => some (walk.call (.pteEntry (pte i) addr next) st)) fuel
    (pteIndex addr) addr stop st

/-- `walk_pmd_range`. A bad entry is cleared after `pmd_entry` has seen it, and is then a hole.
Source: `xt_TOGPU_pagewalk.c` 53–95
Kind: D -/
def walkPmdRange (pmd : ℕ → Pmd) (addr stop : Addr) (st : σ) : Option (σ × ℤ) :=
  sweep pmdAddrEnd
    (fun i addr next => walk.round (pmd i).nonempty (.pmdEntry (pmd i) addr next)
      (.pteHole addr next) walk.pteEntry.isSome fun e st =>
        match e.ptes with
        | none => some (walk.call (.pteHole addr next) st)
        | some pte => walk.walkPteRange fuel pte addr next st)
    fuel (pmdIndex addr) addr stop st

/-- `walk_pud_range`.
Source: `xt_TOGPU_pagewalk.c` 97–123
Kind: D -/
def walkPudRange (pud : ℕ → Pud) (addr stop : Addr) (st : σ) : Option (σ × ℤ) :=
  sweep pudAddrEnd
    (fun i addr next => walk.round (pud i).pmds (.pudEntry (pud i) addr next)
      (.pteHole addr next) (walk.pmdEntry.isSome || walk.pteEntry.isSome) fun pmd =>
        walk.walkPmdRange fuel pmd addr next)
    fuel (pudIndex addr) addr stop st

/-- `walk_page`.
Source: `xt_TOGPU_pagewalk.c` 210–264
Kind: D -/
def walkPage (addr stop : Addr) (st : σ) : Option (σ × ℤ) :=
  if addr ≥ stop then some (st, 0)
  else match walk.mm with
    | none => some (st, einval)
    | some mm =>
        sweep pgdAddrEnd
          (fun i addr next => walk.round (mm.pgd i).puds (.pgdEntry (mm.pgd i) addr next)
            (.pteHole addr next)
            (walk.pudEntry.isSome || walk.pmdEntry.isSome || walk.pteEntry.isSome) fun pud =>
              walk.walkPudRange fuel pud addr next)
          fuel (pgdIndex addr) addr stop st

end MmWalk

/-! ## The plan -/

/-- Which callbacks there are.
Kind: D -/
structure WalkSet where
  pgd : Bool
  pud : Bool
  pmd : Bool
  pte : Bool
  hole : Bool
  deriving DecidableEq

/-- Which callbacks a walk has.
Kind: D -/
def MmWalk.has (walk : MmWalk σ) : WalkSet where
  pgd := walk.pgdEntry.isSome
  pud := walk.pudEntry.isSome
  pmd := walk.pmdEntry.isSome
  pte := walk.pteEntry.isSome
  hole := walk.pteHole.isSome

/-- The call, if there is a callback for it.
Kind: D -/
def WalkSet.calls (has : WalkSet) (c : WalkCall) : List WalkCall :=
  let present := match c with
    | .pgdEntry _ _ _ => has.pgd
    | .pudEntry _ _ _ => has.pud
    | .pmdEntry _ _ _ => has.pmd
    | .pteEntry _ _ _ => has.pte
    | .pteHole _ _ => has.hole
  if present then [c] else []

namespace WalkSet

variable (has : WalkSet) (fuel : ℕ)

/-- The calls of a round of an upper level.
Kind: D -/
def planRound {τ : Type} (table : Option τ) (entry hole : WalkCall) (descend : Bool)
    (planTable : τ → Option (List WalkCall)) : Option (List WalkCall) :=
  match table with
  | none => some (has.calls hole)
  | some t =>
      if descend = true then (planTable t).map (has.calls entry ++ ·) else some (has.calls entry)

/-- The calls of `walk_pte_range`.
Kind: D -/
def planPte (pte : ℕ → Pte) (addr stop : Addr) : Option (List WalkCall) :=
  planSweep (fun addr _ => addr + 4096)
    (fun i addr next => some (has.calls (.pteEntry (pte i) addr next))) fuel
    (pteIndex addr) addr stop

/-- The calls of `walk_pmd_range`.
Kind: D -/
def planPmd (pmd : ℕ → Pmd) (addr stop : Addr) : Option (List WalkCall) :=
  planSweep pmdAddrEnd
    (fun i addr next => has.planRound (pmd i).nonempty (.pmdEntry (pmd i) addr next)
      (.pteHole addr next) has.pte fun e =>
        match e.ptes with
        | none => some (has.calls (.pteHole addr next))
        | some pte => has.planPte fuel pte addr next)
    fuel (pmdIndex addr) addr stop

/-- The calls of `walk_pud_range`.
Kind: D -/
def planPud (pud : ℕ → Pud) (addr stop : Addr) : Option (List WalkCall) :=
  planSweep pudAddrEnd
    (fun i addr next => has.planRound (pud i).pmds (.pudEntry (pud i) addr next)
      (.pteHole addr next) (has.pmd || has.pte) fun pmd => has.planPmd fuel pmd addr next)
    fuel (pudIndex addr) addr stop

/-- The calls of `walk_page` on a nonempty range.
Kind: D -/
def planPage (mm : MmStruct) (addr stop : Addr) : Option (List WalkCall) :=
  planSweep pgdAddrEnd
    (fun i addr next => has.planRound (mm.pgd i).puds (.pgdEntry (mm.pgd i) addr next)
      (.pteHole addr next) (has.pud || has.pmd || has.pte) fun pud =>
        has.planPud fuel pud addr next)
    fuel (pgdIndex addr) addr stop

end WalkSet

section makes

variable {walk : MmWalk σ} {fuel : ℕ}

/-- The call that a walk makes, or passes over if there is no callback.
Kind: L -/
theorem runCalls_calls (walk : MmWalk σ) (c : WalkCall) (st : σ) :
    runCalls walk.call (walk.has.calls c) st = walk.call c st := by
  have hone : ∀ r : σ × ℤ, (if r.2 ≠ 0 then r else (r.1, 0)) = r := by
    rintro ⟨s, err⟩
    split_ifs with herr
    · rfl
    · rw [not_not] at herr
      rw [← herr]
  have hpresent : runCalls walk.call [c] st = walk.call c st := hone _
  cases c with
  | pgdEntry pgd addr next =>
      cases h : walk.pgdEntry with
      | none => simp [WalkSet.calls, MmWalk.has, MmWalk.call, runCalls, h]
      | some f => simpa [WalkSet.calls, MmWalk.has, h] using hpresent
  | pudEntry pud addr next =>
      cases h : walk.pudEntry with
      | none => simp [WalkSet.calls, MmWalk.has, MmWalk.call, runCalls, h]
      | some f => simpa [WalkSet.calls, MmWalk.has, h] using hpresent
  | pmdEntry pmd addr next =>
      cases h : walk.pmdEntry with
      | none => simp [WalkSet.calls, MmWalk.has, MmWalk.call, runCalls, h]
      | some f => simpa [WalkSet.calls, MmWalk.has, h] using hpresent
  | pteEntry pte addr next =>
      cases h : walk.pteEntry with
      | none => simp [WalkSet.calls, MmWalk.has, MmWalk.call, runCalls, h]
      | some f => simpa [WalkSet.calls, MmWalk.has, h] using hpresent
  | pteHole addr next =>
      cases h : walk.pteHole with
      | none => simp [WalkSet.calls, MmWalk.has, MmWalk.call, runCalls, h]
      | some f => simpa [WalkSet.calls, MmWalk.has, h] using hpresent

/-- A call makes itself.
Kind: L -/
theorem makes_calls (walk : MmWalk σ) (c : WalkCall) :
    Makes walk.call (some (walk.has.calls c)) fun st => some (walk.call c st) := by
  intro cs hcs st
  cases hcs
  rw [runCalls_calls]

/-- A round makes the calls of its plan.
Source: `xt_TOGPU_pagewalk.c` 63–87, 107–117, 248–259
Kind: L -/
theorem makes_round {τ : Type} (table : Option τ) (entry hole : WalkCall) (descend : Bool)
    {planTable : τ → Option (List WalkCall)} {walkTable : τ → σ → Option (σ × ℤ)}
    (hbelow : ∀ t, Makes walk.call (planTable t) (walkTable t)) :
    Makes walk.call (walk.has.planRound table entry hole descend planTable)
      (walk.round table entry hole descend walkTable) := by
  cases table with
  | none => exact makes_calls walk hole
  | some t =>
      intro cs hcs st
      simp only [WalkSet.planRound] at hcs
      simp only [MmWalk.round]
      split_ifs at hcs with hdesc
      · obtain ⟨later, hlater, rfl⟩ := Option.map_eq_some_iff.mp hcs
        rw [runCalls_append, runCalls_calls]
        by_cases herr : (walk.call entry st).2 = 0
        · rw [if_pos ⟨herr, hdesc⟩, if_neg (not_not.mpr herr)]
          exact hbelow t later hlater _
        · rw [if_neg fun hc => herr hc.1, if_pos herr]
      · cases hcs
        rw [if_neg fun hc => hdesc hc.2, runCalls_calls]

/-- `walk_pte_range` makes the calls of its plan.
Kind: L -/
theorem makes_walkPteRange (pte : ℕ → Pte) (addr stop : Addr) :
    Makes walk.call (walk.has.planPte fuel pte addr stop) (walk.walkPteRange fuel pte addr stop) :=
  sweep_makes (fun i _ _ => makes_calls walk (.pteEntry (pte i) _ _)) fuel _ addr stop

/-- `walk_pmd_range` makes the calls of its plan.
Kind: L -/
theorem makes_walkPmdRange (pmd : ℕ → Pmd) (addr stop : Addr) :
    Makes walk.call (walk.has.planPmd fuel pmd addr stop)
      (walk.walkPmdRange fuel pmd addr stop) := by
  refine sweep_makes (fun i a b => makes_round _ _ _ _ fun e => ?_) fuel _ addr stop
  cases e.ptes with
  | none => exact makes_calls walk (.pteHole a b)
  | some pte => exact makes_walkPteRange pte a b

/-- `walk_pud_range` makes the calls of its plan.
Kind: L -/
theorem makes_walkPudRange (pud : ℕ → Pud) (addr stop : Addr) :
    Makes walk.call (walk.has.planPud fuel pud addr stop)
      (walk.walkPudRange fuel pud addr stop) :=
  sweep_makes (fun _ a b => makes_round _ _ _ _ fun pmd => makes_walkPmdRange pmd a b) fuel _ addr
    stop

/-- `walk_page` makes the calls of its plan.
Source: `xt_TOGPU_pagewalk.c` 210–264
Kind: L -/
theorem makes_walkPage {mm : MmStruct} (hmm : walk.mm = some mm) {addr stop : Addr}
    (hlt : ¬addr ≥ stop) :
    Makes walk.call (walk.has.planPage fuel mm addr stop) (walk.walkPage fuel addr stop) := by
  have hrun : walk.walkPage fuel addr stop = sweep pgdAddrEnd
      (fun i addr next => walk.round (mm.pgd i).puds (.pgdEntry (mm.pgd i) addr next)
        (.pteHole addr next)
        (walk.pudEntry.isSome || walk.pmdEntry.isSome || walk.pteEntry.isSome) fun pud =>
          walk.walkPudRange fuel pud addr next)
      fuel (pgdIndex addr) addr stop := by
    funext st
    rw [MmWalk.walkPage, if_neg hlt, hmm]
  rw [hrun]
  exact sweep_makes (fun _ a b => makes_round _ _ _ _ fun pud => makes_walkPudRange pud a b) fuel _
    addr stop

end makes

/-! ## What the calls report -/

/-- The pages a call reports on: one with its entry, or those of a hole.
Kind: D -/
def WalkCall.reports : WalkCall → List (Addr × Option Pte)
  | .pteEntry pte addr _ => [(addr, some pte)]
  | .pteHole addr next =>
      (strides 4096 addr ((next - addr).toNat / 4096)).map fun p => (p, none)
  | .pgdEntry _ _ _ | .pudEntry _ _ _ | .pmdEntry _ _ _ => []

/-- What there is to report of a page: its entry, or that it has none if there is a callback for
holes.
Kind: D -/
def WalkSet.pageReport (has : WalkSet) (entry : Addr → Option Pte) (p : Addr) :
    List (Addr × Option Pte) :=
  match entry p with
  | some pte => [(p, some pte)]
  | none => if has.hole then [(p, none)] else []

section reports

variable {has : WalkSet} {fuel n : ℕ} {a : Addr}

/-- The calls of a plan report on the pages of a range.
Kind: D -/
def Reports (has : WalkSet) (entry : Addr → Option Pte) (a : Addr) (n : ℕ)
    (plan : Option (List WalkCall)) : Prop :=
  ∃ cs, plan = some cs ∧ (has.pte = true →
    cs.flatMap WalkCall.reports = (strides 4096 a n).flatMap (has.pageReport entry))

/-- Reports agree where the entries do.
Kind: L -/
theorem flatMap_pageReport_congr {entry entry' : Addr → Option Pte} {ps : List Addr}
    (h : ∀ p ∈ ps, entry p = entry' p) :
    ps.flatMap (has.pageReport entry) = ps.flatMap (has.pageReport entry') := by
  apply List.flatMap_congr
  intro p hp
  rw [WalkSet.pageReport, WalkSet.pageReport, h p hp]

/-- A hole reports on its pages.
Kind: L -/
theorem reports_hole {entry : Addr → Option Pte} (h : PageRange a n)
    (hnone : ∀ p ∈ strides 4096 a n, entry p = none) :
    (has.calls (.pteHole a (a + BitVec.ofNat 64 (n * 4096)))).flatMap WalkCall.reports =
      (strides 4096 a n).flatMap (has.pageReport entry) := by
  have hlen : (a + BitVec.ofNat 64 (n * 4096) - a).toNat / 4096 = n := by
    have hw := h.noWrap
    have hsub : a + BitVec.ofNat 64 (n * 4096) - a = BitVec.ofNat 64 (n * 4096) := by bv_omega
    rw [hsub, BitVec.toNat_ofNat, Nat.mod_eq_of_lt (by omega), Nat.mul_div_cancel _ (by decide)]
  have hcongr : (strides 4096 a n).flatMap (has.pageReport entry) =
      (strides 4096 a n).flatMap (has.pageReport fun _ => none) := flatMap_pageReport_congr hnone
  rw [hcongr]
  cases hh : has.hole with
  | false => simp [WalkSet.calls, WalkSet.pageReport, hh]
  | true =>
      have hpage : has.pageReport (fun _ => none) = fun p => [(p, none)] := by
        funext p
        simp [WalkSet.pageReport, hh]
      simp only [WalkSet.calls, hh, if_true, List.flatMap_cons, List.flatMap_nil, List.append_nil,
        WalkCall.reports, hlen]
      rw [hpage]
      exact List.map_eq_flatMap

/-- One level of the plan: if the plan below each entry reports on its pages, that of the loop
reports on all pages of the range.
Kind: L -/
theorem reports_level {shift : ℕ} (hs : 12 ≤ shift) (hs' : shift < 64)
    {plan : ℕ → Addr → Addr → Option (List WalkCall)} {entry : Addr → Option Pte} {i : ℕ}
    (h : PageRange a n)
    (hbelow : ∀ b m, PageRange b m → Within shift b m → m ≤ n → a.toNat ≤ b.toNat →
      b.toNat + m * 4096 ≤ a.toNat + n * 4096 →
      Reports has entry b m (plan (i + (b.toNat / 2 ^ shift - a.toNat / 2 ^ shift)) b
        (b + BitVec.ofNat 64 (m * 4096))))
    (hfuel : n ≤ fuel) :
    Reports has entry a n
      (planSweep (addrEnd shift) plan fuel i a (a + BitVec.ofNat 64 (n * 4096))) := by
  refine planSweep_reports
    (Q := fun j b k => PageRange b k ∧ k ≤ n ∧ a.toNat ≤ b.toNat ∧
      b.toNat + k * 4096 ≤ a.toNat + n * 4096 ∧
      j = i + (b.toNat / 2 ^ shift - a.toNat / 2 ^ shift))
    (fun j b k hk hwrap hQ => ?_) (by decide) h.pos hfuel h.noWrap
    ⟨h, le_rfl, le_rfl, le_rfl, by simp⟩
  obtain ⟨hb, hkn, hle, hend, rfl⟩ := hQ
  obtain ⟨m, hm, hmk, hnext, hw, hrest⟩ := addrEnd_pages hs hs' hb
  have hmend : b.toNat + m * 4096 ≤ a.toNat + n * 4096 :=
    (Nat.add_le_add_left (Nat.mul_le_mul_right 4096 hmk) _).trans hend
  obtain ⟨cs, hcs, hreport⟩ := hbelow b m (hb.take hm hmk) hw (hmk.trans hkn) hle hmend
  refine ⟨m, cs, hm, hmk, hnext, hcs, hreport, fun hlt => ?_⟩
  have hnat := hb.toNat_page hmk
  refine ⟨hb.drop hlt, by omega, by omega, by omega, ?_⟩
  have hmono : a.toNat / 2 ^ shift ≤ b.toNat / 2 ^ shift := Nat.div_le_div_right hle
  rw [hnat, hrest hlt]
  omega

/-- One round of an upper level.
Kind: L -/
theorem reports_round {τ : Type} {table : Option τ} {call : WalkCall} {descend : Bool}
    {planTable : τ → Option (List WalkCall)} {entry : Addr → Option Pte} (h : PageRange a n)
    (hcall : call.reports = []) (hdescend : has.pte = true → descend = true)
    (hnone : table = none → ∀ p ∈ strides 4096 a n, entry p = none)
    (hsome : ∀ t, table = some t → Reports has entry a n (planTable t)) :
    Reports has entry a n (has.planRound table call
      (.pteHole a (a + BitVec.ofNat 64 (n * 4096))) descend planTable) := by
  have hentry : (has.calls call).flatMap WalkCall.reports = [] := by
    unfold WalkSet.calls
    dsimp only
    split_ifs
    · simp [hcall]
    · rfl
  cases table with
  | none => exact ⟨_, rfl, fun _ => reports_hole h (hnone rfl)⟩
  | some t =>
      obtain ⟨cs, hcs, hreport⟩ := hsome t rfl
      simp only [WalkSet.planRound]
      split_ifs with hd
      · refine ⟨_, by rw [hcs, Option.map_some], fun hpte => ?_⟩
        rw [List.flatMap_append, hentry, List.nil_append, hreport hpte]
      · exact ⟨_, rfl, fun hpte => absurd (hdescend hpte) hd⟩

/-- The entries of a table that is reported with another notion of entry on the same pages.
Kind: L -/
theorem Reports.congr {entry entry' : Addr → Option Pte} {plan : Option (List WalkCall)}
    (h : Reports has entry a n plan) (heq : ∀ p ∈ strides 4096 a n, entry p = entry' p) :
    Reports has entry' a n plan := by
  obtain ⟨cs, hcs, hreport⟩ := h
  exact ⟨cs, hcs, fun hpte => (hreport hpte).trans (flatMap_pageReport_congr heq)⟩

/-- The plan of a last-level table below one third-level entry.
Source: `xt_TOGPU_pagewalk.c` 33–51
Kind: L -/
theorem reports_planPte (pte : ℕ → Pte) (h : PageRange a n) (hw : Within 21 a n)
    (hfuel : n ≤ fuel) :
    Reports has (fun p => some (pte (pteIndex p))) a n
      (has.planPte fuel pte a (a + BitVec.ofNat 64 (n * 4096))) := by
  refine planSweep_reports (Q := fun i b k => i = pteIndex b ∧ PageRange b k ∧ Within 21 b k)
    (fun i b k hk hwrap hQ => ?_) (by decide) h.pos hfuel h.noWrap ⟨rfl, h, hw⟩
  obtain ⟨rfl, hb, hbw⟩ := hQ
  refine ⟨1, _, by decide, hk, rfl, rfl, fun hpte => ?_, fun hlt => ?_⟩
  · simp [WalkSet.calls, hpte, WalkCall.reports, strides, WalkSet.pageReport]
  · have hnat := hb.toNat_page hlt.le
    refine ⟨?_, hb.drop hlt, ?_⟩
    · unfold Within at hbw
      rw [pteIndex, tableIndex_eq, tableIndex_eq, hnat]
      omega
    · unfold Within at hbw ⊢
      rw [hnat]
      omega

/-- The plan of a third-level table below one second-level entry.
Source: `xt_TOGPU_pagewalk.c` 53–95
Kind: L -/
theorem reports_planPmd (pmd : ℕ → Pmd) (h : PageRange a n) (hw : Within 30 a n)
    (hfuel : n ≤ fuel) :
    Reports has (pteOfPmd pmd) a n
      (has.planPmd fuel pmd a (a + BitVec.ofNat 64 (n * 4096))) := by
  refine reports_level (by decide) (by decide) h (fun b m hb hbw hmn hle hend => ?_) hfuel
  rw [show pmdIndex a + (b.toNat / 2 ^ 21 - a.toNat / 2 ^ 21) = pmdIndex b from
    tableIndex_add hw hb hle hend]
  have hptes : ∀ p ∈ strides 4096 b m,
      pteOfPmd pmd p = (pmd (pmdIndex b)).ptes.map fun pte => pte (pteIndex p) := by
    intro p hp
    rw [pteOfPmd, show pmdIndex p = pmdIndex b from hbw.tableIndex_eq hb hp]
  refine reports_round hb rfl id (fun hnone p hp => ?_) fun e he => ?_
  · rw [hptes p hp]
    cases hpmd : pmd (pmdIndex b) with
    | none => rfl
    | _ =>
        rw [hpmd] at hnone
        cases hnone
  · obtain rfl : pmd (pmdIndex b) = e := by
      cases hpmd : pmd (pmdIndex b) with
      | none =>
          rw [hpmd] at he
          cases he
      | _ =>
          rw [hpmd] at he
          exact Option.some.inj he
    cases hcase : (pmd (pmdIndex b)).ptes with
    | none =>
        -- a bad entry: a hole once it has been cleared
        refine ⟨_, rfl, fun _ => reports_hole hb fun p hp => ?_⟩
        rw [hptes p hp, hcase]
        rfl
    | some pte =>
        refine (reports_planPte pte hb hbw (hmn.trans hfuel)).congr fun p hp => ?_
        rw [hptes p hp, hcase]
        rfl

/-- The plan of a second-level table below one first-level entry.
Source: `xt_TOGPU_pagewalk.c` 97–123
Kind: L -/
theorem reports_planPud (pud : ℕ → Pud) (h : PageRange a n) (hw : Within 39 a n)
    (hfuel : n ≤ fuel) :
    Reports has (pteOfPud pud) a n
      (has.planPud fuel pud a (a + BitVec.ofNat 64 (n * 4096))) := by
  refine reports_level (by decide) (by decide) h (fun b m hb hbw hmn hle hend => ?_) hfuel
  rw [show pudIndex a + (b.toNat / 2 ^ 30 - a.toNat / 2 ^ 30) = pudIndex b from
    tableIndex_add hw hb hle hend]
  have hidx : ∀ p ∈ strides 4096 b m, pudIndex p = pudIndex b := fun p hp => hbw.tableIndex_eq hb hp
  refine reports_round hb rfl (fun hpte => by simp [hpte]) (fun hnone p hp => ?_) fun pmd hpmd => ?_
  · rw [pteOfPud, hidx p hp, hnone]
    rfl
  · refine (reports_planPmd pmd hb hbw (hmn.trans hfuel)).congr fun p hp => ?_
    rw [pteOfPud, hidx p hp, hpmd]
    rfl

/-- The plan of the walk of an aligned range.
Source: `xt_TOGPU_pagewalk.c` 210–264
Kind: L -/
theorem reports_planPage (mm : MmStruct) (h : PageRange a n) (hfuel : n ≤ fuel) :
    Reports has (fun p => pteBelow mm (pgdReached a p) p) a n
      (has.planPage fuel mm a (a + BitVec.ofNat 64 (n * 4096))) := by
  refine reports_level (by decide) (by decide) h (fun b m hb hbw hmn hle hend => ?_) hfuel
  have hidx : ∀ p ∈ strides 4096 b m,
      pgdReached a p = pgdIndex a + (b.toNat / 2 ^ 39 - a.toNat / 2 ^ 39) := by
    intro p hp
    rw [pgdReached, hbw.div_eq hb hp]
  refine reports_round hb rfl (fun hpte => by simp [hpte]) (fun hnone p hp => ?_) fun pud hpud => ?_
  · rw [pteBelow, hidx p hp, hnone]
    rfl
  · refine (reports_planPud pud hb hbw (hmn.trans hfuel)).congr fun p hp => ?_
    rw [pteBelow, hidx p hp, hpud]
    rfl

end reports

/-! ## The contract -/

/-- **The walk makes the calls of its plan.** Whatever the page table and the callbacks, the walk of
an aligned range ends; it makes the calls of a list that depends on the table and on which
callbacks there are, in order, up to the first that returns a nonzero number, and returns this
number, or zero. With `pte_entry` set, the calls of the list report every page of the range in
order: a page that has an entry once, with its entry, and a page that has none once, in a hole, if
`pte_hole` is set.
Source: `xt_TOGPU_pagewalk.c` 33–123, 183–264
Kind: P
Fidelity: exact
Hyps: (a) the walk has an address space; (b) the range is of whole pages and does not wrap -/
theorem walkPage_contract (walk : MmWalk σ) {mm : MmStruct} (hmm : walk.mm = some mm) {a : Addr}
    {n fuel : ℕ} (h : PageRange a n) (hfuel : n ≤ fuel) :
    ∃ cs, walk.has.planPage fuel mm a (a + BitVec.ofNat 64 (n * 4096)) = some cs ∧
      (∀ st, walk.walkPage fuel a (a + BitVec.ofNat 64 (n * 4096)) st =
        some (runCalls walk.call cs st)) ∧
      (walk.pteEntry.isSome = true → cs.flatMap WalkCall.reports =
        (strides 4096 a n).flatMap
          (walk.has.pageReport fun p => pteBelow mm (pgdReached a p) p)) := by
  have hlt : ¬a ≥ a + BitVec.ofNat 64 (n * 4096) := by
    have hpos := h.pos
    rw [ge_iff_le, BitVec.le_def, h.toNat_page le_rfl]
    omega
  have hreports : Reports walk.has (fun p => pteBelow mm (pgdReached a p) p) a n
      (walk.has.planPage fuel mm a (a + BitVec.ofNat 64 (n * 4096))) := reports_planPage mm h hfuel
  obtain ⟨cs, hcs, hreport⟩ := hreports
  exact ⟨cs, hcs, makes_walkPage hmm hlt cs hcs, hreport⟩

/-- A page table with one page, the last below its third-level entry.
Kind: D -/
def onePageTable : MmStruct where
  pgd _ := .table fun _ => .table fun i =>
    if i = 0 then .table fun j => if j = 511 then .present 7 else .none else .none

/-- A walk that counts its calls, and stops at a hole.
Kind: D -/
def countWalk : MmWalk ℕ where
  pgdEntry := none
  pudEntry := none
  pmdEntry := none
  pteEntry := some fun _ _ _ st => (st + 1, 0)
  pteHole := some fun _ _ st => (st + 1, 5)
  mm := some onePageTable

/-- Two pages, the second in a hole: both are reported, and the walk returns what the hole did.
Kind: C -/
theorem walkPage_contract_two :
    ∃ cs, countWalk.walkPage 2 0x1ff000 0x201000 0 = some (runCalls countWalk.call cs 0) ∧
      cs.flatMap WalkCall.reports = [(0x1ff000, some (.present 7)), (0x200000, none)] := by
  obtain ⟨cs, -, hrun, hreport⟩ := walkPage_contract countWalk (rfl : countWalk.mm = _)
    (⟨by decide, by decide, by decide⟩ : PageRange 0x1ff000 2) (le_refl 2)
  exact ⟨cs, hrun 0, hreport rfl⟩

/-! ## The driver's walk -/

/-- The walk of the driver: `pte_entry` alone.
Source: `xt_TOGPU_main.c` 375, 408–410
Kind: D -/
def MmWalk.pteOnly (pteEntry : Pte → Addr → σ → σ × ℤ) (mm : MmStruct) : MmWalk σ where
  pgdEntry := none
  pudEntry := none
  pmdEntry := none
  pteEntry := some fun pte addr _ => pteEntry pte addr
  pteHole := none
  mm := some mm

section pteOnly

variable (pteEntry : Pte → Addr → σ → σ × ℤ) (fuel : ℕ) (mm : MmStruct)

/-- `walk_pmd_range` with `pte_entry` alone: an entry that is cleared is passed over like an empty
one.
Kind: L -/
theorem walkPmdRange_pteOnly (pmd : ℕ → Pmd) :
    (MmWalk.pteOnly pteEntry mm).walkPmdRange fuel pmd = walkPmdRange pteEntry fuel pmd := by
  funext addr stop st
  unfold MmWalk.walkPmdRange walkPmdRange
  congr 1
  funext i a b st
  unfold MmWalk.round walkEntry
  dsimp only
  generalize pmd i = e
  cases e with
  | none | bad | transHuge _ | table _ => rfl

/-- `walk_pud_range` with `pte_entry` alone.
Kind: L -/
theorem walkPudRange_pteOnly (pud : ℕ → Pud) :
    (MmWalk.pteOnly pteEntry mm).walkPudRange fuel pud = walkPudRange pteEntry fuel pud := by
  funext addr stop st
  unfold MmWalk.walkPudRange walkPudRange
  have htable : (MmWalk.pteOnly pteEntry mm).walkPmdRange fuel = walkPmdRange pteEntry fuel :=
    funext (walkPmdRange_pteOnly pteEntry fuel mm)
  rw [← htable]
  rfl

/-- **The driver's walk is the walk with `pte_entry` alone.**
Source: `xt_TOGPU_main.c` 408–410
Kind: P -/
theorem walkPage_of_pteEntry (addr stop : Addr) (st : σ) :
    (MmWalk.pteOnly pteEntry mm).walkPage fuel addr stop st =
      walkPage pteEntry fuel mm addr stop st := by
  unfold MmWalk.walkPage walkPage
  split_ifs
  · rfl
  · have htable : (MmWalk.pteOnly pteEntry mm).walkPudRange fuel = walkPudRange pteEntry fuel :=
      funext (walkPudRange_pteOnly pteEntry fuel mm)
    rw [← htable]
    rfl

end pteOnly

end Togpu.Driver
