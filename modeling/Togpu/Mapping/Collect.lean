import Togpu.Mapping.PageList

/-!
# What the walk collects

The walk that `nfgpu_set_mempool` starts moves an entry pointer and an address at each of four
levels, and passes over what is missing. What it leaves in `nfgpu_pages` is compared with the
process's address space as the processor sees it.

* `mempoolWalk` — that walk, from the state `nfgpu_set_mempool` has prepared.
* `Collected` — the page list holds the pages of the present entries of a range, each once, in the
  order of their addresses.
* `PageRange.strides_pairwise`, `PageRange.mem_strides_iff` — the pages of a range, in order, and
  which they are.
* **The walk of an aligned range of canonical addresses collects its present pages**
  (`mempoolWalk_collects`). Outside them the index of the first level drops the upper bits of the
  address, and pages of other addresses are collected (`mempoolWalk_noncanonical`).
-/

namespace Togpu.Driver

open Togpu.Lib

/-! ## The walk and what is asked of it -/

/-- The walk `nfgpu_set_mempool` makes for the request `gb`.
Source: `xt_TOGPU_main.c` 390–406
Kind: D -/
def mempoolWalk (fuel : ℕ) (mm : MmStruct) (drv : Globals) (gb : NfgpuMemInfo) :
    Option (Globals × ℤ) :=
  walkPage nfgpuSkbPteEntry fuel mm gb.uva (gb.uva + gb.size)
    { drv with nfgpuUva := gb.uva, nfgpuSize := gb.size, nfgpuNpages := 0 }

/-- `ps` are the addresses of the present entries of `[a, e)`, each once and in order, and the page
list is that of their pages: `drv'` against `drv` before the walk.
Kind: D -/
structure Collected (mm : MmStruct) (a e : Addr) (drv drv' : Globals) (ps : List Addr) : Prop where
  /-- The addresses go up. -/
  increasing : ps.Pairwise (· < ·)
  /-- They are the page addresses of the range with a present entry. -/
  mem_iff : ∀ p, p ∈ ps ↔ a ≤ p ∧ p < e ∧ p.toNat % 4096 = 0 ∧ (pageOf mm p).isSome
  /-- Their number is counted. -/
  npages : drv'.nfgpuNpages.toNat = ps.length
  /-- The list holds their pages in this order. -/
  pages : ∀ k p, ps[k]? = some p → pageOf mm p = some (drv'.nfgpuPages k)
  /-- Nothing is written behind them. -/
  rest : ∀ k, ps.length ≤ k → drv'.nfgpuPages k = drv.nfgpuPages k

/-! ## The pages of a range -/

section ranges

variable {a : Addr} {n : ℕ}

/-- The pages of a range come in order.
Kind: L -/
theorem PageRange.strides_pairwise (h : PageRange a n) :
    (strides 4096 a n).Pairwise (· < ·) := by
  rw [strides, List.pairwise_map]
  refine List.Pairwise.imp_of_mem (fun {j k} hj hk hlt => ?_) List.pairwise_lt_range
  rw [List.mem_range] at hj hk
  rw [BitVec.lt_def, h.toNat_page hj.le, h.toNat_page hk.le]
  omega

/-- The pages of a range are the page addresses in it.
Kind: L -/
theorem PageRange.mem_strides_iff (h : PageRange a n) (p : Addr) :
    p ∈ strides 4096 a n ↔
      a.toNat ≤ p.toNat ∧ p.toNat < a.toNat + n * 4096 ∧ p.toNat % 4096 = 0 := by
  have ha := h.aligned
  rw [mem_strides]
  constructor
  · rintro ⟨k, hk, rfl⟩
    rw [h.toNat_page hk.le]
    omega
  · rintro ⟨hap, hpe, hmod⟩
    have hk : (p.toNat - a.toNat) / 4096 < n := by omega
    refine ⟨_, hk, BitVec.eq_of_toNat_eq ?_⟩
    rw [h.toNat_page hk.le]
    omega

end ranges

/-- A range of canonical addresses lies in one of the two halves of the address space.
Kind: L -/
theorem canonical_half {a e : Addr} (hlt : a < e)
    (hcan : ∀ x : Addr, a ≤ x → x < e → Canonical x) :
    e.toNat ≤ 2 ^ 47 ∨ 2 ^ 64 - 2 ^ 47 ≤ a.toNat := by
  rcases hcan a (BitVec.le_refl a) hlt with hlow | hhigh
  · refine .inl (not_lt.mp fun hgap => ?_)
    -- the first address behind the lower half would be in the range
    have hfirst : (0x800000000000 : Addr).toNat = 2 ^ 47 := rfl
    have hmid := hcan 0x800000000000 (by rw [BitVec.le_def, hfirst]; exact hlow.le)
      (by rw [BitVec.lt_def, hfirst]; exact hgap)
    exact absurd hmid (by decide)
  · exact .inr hhigh

/-- In one half the walk is at the entry of the first level that the processor uses.
Kind: L -/
theorem pgdReached_of_half {a e p : Addr} (hhalf : e.toNat ≤ 2 ^ 47 ∨ 2 ^ 64 - 2 ^ 47 ≤ a.toNat)
    (hap : a.toNat ≤ p.toNat) (hpe : p.toNat < e.toNat) : pgdReached a p = pgdIndex p := by
  have hpl := p.isLt
  rw [pgdReached, pgdIndex, tableIndex_eq, tableIndex_eq]
  omega

/-! ## The collection -/

section collect

variable {gb : NfgpuMemInfo}

/-- A request that is not empty and does not wrap is a range of pages.
Kind: L -/
theorem PageRequest.of_lt (h : PageRequest gb) (hlt : gb.uva < gb.uva + gb.size) :
    gb.uva.toNat + gb.size.toNat < 2 ^ 64 ∧
      (gb.uva + gb.size).toNat = gb.uva.toNat + gb.size.toNat ∧
      PageRange gb.uva (gb.size.toNat / 4096) := by
  have hwhole := h.whole
  have hwrap : gb.uva.toNat + gb.size.toNat < 2 ^ 64 := by bv_omega
  have hpos : 0 < gb.size.toNat := by bv_omega
  exact ⟨hwrap, by bv_omega, h.pageRange hwrap (by omega)⟩

/-- The addresses of the present entries of a request.
Kind: D -/
def presentAddrs (mm : MmStruct) (gb : NfgpuMemInfo) : List Addr :=
  (strides 4096 gb.uva (gb.size.toNat / 4096)).filter fun p => (pageOf mm p).isSome

/-- On canonical addresses the pages the walk finds are those of the process, in order.
Kind: L -/
theorem requestPages_map_some (mm : MmStruct) (h : PageRequest gb) (hlt : gb.uva < gb.uva + gb.size)
    (hcan : ∀ x : Addr, gb.uva ≤ x → x < gb.uva + gb.size → Canonical x) :
    (requestPages mm gb).map some = (presentAddrs mm gb).map (pageOf mm) := by
  obtain ⟨hwrap, hend, hrange⟩ := h.of_lt hlt
  have hwhole := h.whole
  have hhalf := canonical_half hlt hcan
  have hentry : ∀ p ∈ strides 4096 gb.uva (gb.size.toNat / 4096),
      (pteBelow mm (pgdReached gb.uva p) p).bind Pte.page = pageOf mm p := by
    intro p hp
    obtain ⟨hap, hpe, -⟩ := (hrange.mem_strides_iff p).mp hp
    rw [pageOf, if_pos (hcan p (BitVec.le_def.mpr hap) (by rw [BitVec.lt_def, hend]; omega)),
      pgdReached_of_half hhalf hap (by omega), pteAt]
  rw [requestPages, if_pos hwrap, presentPages, List.filterMap_congr hentry,
    List.map_filterMap_some_eq_filter_map_isSome, List.filter_map]
  rfl

/-- **The walk of an aligned range collects its present pages, once and in order.** For every page
table, every driver state and every request of whole pages of canonical addresses, wherever it
starts and ends in the tables of the four levels.
Source: `xt_TOGPU_pagewalk.c` 33–122, 212–269, `xt_TOGPU_main.c` 344–406
Kind: P
Fidelity: exact
Hyps: (a) `PageRequest gb`; (b) the range is not empty and does not wrap; (c) its addresses are
canonical; (d) the loops of the walk may run as often as the request has pages -/
theorem mempoolWalk_collects (mm : MmStruct) (drv : Globals) {gb : NfgpuMemInfo} {fuel : ℕ}
    (h : PageRequest gb) (hlt : gb.uva < gb.uva + gb.size)
    (hcan : ∀ x : Addr, gb.uva ≤ x → x < gb.uva + gb.size → Canonical x)
    (hfuel : gb.size.toNat / 4096 ≤ fuel) :
    ∃ drv' ps, mempoolWalk fuel mm drv gb = some (drv', 0) ∧
      Collected mm gb.uva (gb.uva + gb.size) drv drv' ps := by
  have hmap := requestPages_map_some mm h hlt hcan
  have hlen : (requestPages mm gb).length = (presentAddrs mm gb).length := by
    simpa using congrArg List.length hmap
  obtain ⟨-, hend, hrange⟩ := h.of_lt hlt
  obtain ⟨hnum, hpages⟩ := foldl_nfgpuSkbPteProcess_of_zero (requestPages mm gb)
    (show Globals.nfgpuNpages
      { drv with nfgpuUva := gb.uva, nfgpuSize := gb.size, nfgpuNpages := 0 } = 0 from rfl)
    (length_requestPages_lt mm gb)
  refine ⟨_, presentAddrs mm gb, by
    rw [mempoolWalk, nfgpuSkbPteEntry_eq, walkPage_onPresent _ h hfuel], ?_, fun p => ?_, ?_,
    fun k p hk => ?_, fun k hk => ?_⟩
  · exact hrange.strides_pairwise.filter _
  · rw [presentAddrs, List.mem_filter, hrange.mem_strides_iff, BitVec.le_def,
      BitVec.lt_def, hend, Nat.div_mul_cancel (Nat.dvd_of_mod_eq_zero h.whole)]
    simp only [and_assoc]
  · exact hnum.trans hlen
  · have hget := congrArg (fun l => l[k]?) hmap
    simp only [List.getElem?_map, hk, Option.map_some] at hget
    obtain ⟨page, hpage, heq⟩ := Option.map_eq_some_iff.mp hget
    refine heq.symm.trans (congrArg some ((hpages k).trans ?_).symm)
    rw [hpage]
    rfl
  · refine (hpages k).trans ?_
    rw [List.getElem?_eq_none (by omega)]
    rfl

end collect

/-- Two pages around the boundary between two entries of the first level.
Kind: C -/
theorem mempoolWalk_over_boundary :
    ∃ drv' ps, mempoolWalk 2 everyPage nfgpuInternalInit ⟨0x7ffffff000, 0x2000⟩ = some (drv', 0) ∧
      Collected everyPage 0x7ffffff000 0x8000001000 nfgpuInternalInit drv' ps ∧
      0x8000000000 ∈ ps := by
  have hcan : ∀ x : Addr, 0x7ffffff000 ≤ x → x < 0x7ffffff000 + 0x2000 → Canonical x :=
    fun x _ hx => .inl (lt_trans (BitVec.lt_def.mp hx) (by decide))
  obtain ⟨drv', ps, hwalk, hps⟩ := mempoolWalk_collects everyPage nfgpuInternalInit
    (⟨by decide, by decide⟩ : PageRequest ⟨0x7ffffff000, 0x2000⟩) (by decide) hcan
    (by decide : _ ≤ 2)
  exact ⟨drv', ps, hwalk, hps, (hps.mem_iff _).mpr (by decide)⟩

/-- A process with one page, at address 0.
Kind: D -/
def pageAtZero : MmStruct where
  pgd := fun i => if i = 0 then .table pud else .none
where
  /-- Its second level. -/
  pud (i : ℕ) : Pud := if i = 0 then .table pmd else .none
  /-- Its third level. -/
  pmd (i : ℕ) : Pmd := if i = 0 then .table pte else .none
  /-- Its last level. -/
  pte (i : ℕ) : Pte := if i = 0 then .present 0xffffea0000000000 else .none

/-- A page at `2 ^ 48`, which the processor does not translate: the walk takes it for the page at
address 0 and collects that.
Kind: C -/
theorem mempoolWalk_noncanonical :
    PageRequest ⟨0x1000000000000, 0x1000⟩ ∧
      (0x1000000000000 : Addr) < 0x1000000000000 + 0x1000 ∧
      ∃ drv', mempoolWalk 1 pageAtZero nfgpuInternalInit ⟨0x1000000000000, 0x1000⟩ =
          some (drv', 0) ∧
        drv'.nfgpuNpages = 1 ∧ pageOf pageAtZero 0 = some (drv'.nfgpuPages 0) ∧
        ∀ ps, ¬Collected pageAtZero 0x1000000000000 0x1000000001000 nfgpuInternalInit drv' ps := by
  have hreq : PageRequest ⟨0x1000000000000, 0x1000⟩ := ⟨by decide, by decide⟩
  have hpages : requestPages pageAtZero ⟨0x1000000000000, 0x1000⟩ = [0xffffea0000000000] := by
    decide
  refine ⟨hreq, by decide, _, by
    rw [mempoolWalk, nfgpuSkbPteEntry_eq, walkPage_onPresent _ hreq (by decide), hpages], rfl,
    by decide, fun ps hps => ?_⟩
  -- one page is counted, and no address of the range has one
  obtain ⟨p, hp⟩ : ∃ p, p ∈ ps := List.exists_mem_of_length_pos (by rw [← hps.npages]; decide)
  obtain ⟨hlow, hhigh, -, hsome⟩ := (hps.mem_iff p).mp hp
  have hnot : ¬Canonical p := by
    unfold Canonical
    bv_omega
  rw [pageOf, if_neg hnot] at hsome
  cases hsome

end Togpu.Driver
