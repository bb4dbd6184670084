import Togpu.Mapping.Views

/-!
# The page list and its bound

`nfgpu_skb_pte_process` stores the page of every present entry at `nfgpu_pages[ nfgpu_npages ]` and
counts up. The array has `NFGPU_MAX_PAGES` entries; neither the callback nor `nfgpu_set_mempool`
compares anything with that number, and the size of the range comes from user space.

* `nfgpuSkbPteStore` — the callback with a log of the indexes it stores at; `mempoolStores` — the
  log of the walk that `nfgpu_set_mempool` starts.
* `mempoolStores_eq` — the log of a request with `n` present pages is `0, …, n - 1`.
* **Every store is inside the array iff the request has at most `NFGPU_MAX_PAGES` present pages**
  (`mempoolStores_inBounds_iff`).
-/

namespace Togpu.Driver

/-- `NFGPU_MAX_PAGES`, the length of `nfgpu_pages`.
Source: `xt_TOGPU.h` 20
Kind: D -/
def nfgpuMaxPages : ℕ := nfgpuMaxMemory.toNat / 4096

@[simp] theorem nfgpuMaxPages_eq : nfgpuMaxPages = 8192 := by decide

/-- A page for each slot.
Kind: L -/
theorem nfgpuMaxPages_eq_maxSkbs : nfgpuMaxPages = nfgpuMaxSkbs.toNat := by decide

/-! ## The stores of a walk -/

/-- The store of a page, with the index it goes to written to a log.
Source: `xt_TOGPU_main.c` 352, 367
Kind: D -/
def storePage (st : Globals × List ℕ) (page : Addr) : Globals × List ℕ :=
  (nfgpuSkbPteProcess st.1 page, st.2 ++ [st.1.nfgpuNpages.toNat])

/-- `nfgpu_skb_pte_process` with the log of its stores.
Source: `xt_TOGPU_main.c` 344–371
Kind: D -/
def nfgpuSkbPteStore : Pte → Addr → Globals × List ℕ → (Globals × List ℕ) × ℤ := onPresent storePage

/-- The walk that `nfgpu_set_mempool` starts for the request `gb`: the globals after it, and the
indexes at which it stored into `nfgpu_pages`, in order.
Source: `xt_TOGPU_main.c` 390–406
Kind: D -/
def mempoolStores (fuel : ℕ) (mm : MmStruct) (drv : Globals) (gb : NfgpuMemInfo) :
    Option (Globals × List ℕ) :=
  let prepared := { drv with nfgpuUva := gb.uva, nfgpuSize := gb.size, nfgpuNpages := 0 }
  (walkPage nfgpuSkbPteStore fuel mm gb.uva (gb.uva + gb.size) (prepared, [])).map Prod.fst

/-- The log of a list of pages: one index after another, from the first free entry on.
Kind: L -/
theorem foldl_storePage (pages : List Addr) (drv : Globals) (log : List ℕ)
    (h : drv.nfgpuNpages.toNat + pages.length < 2 ^ 64) :
    pages.foldl storePage (drv, log) =
      (pages.foldl nfgpuSkbPteProcess drv,
        log ++ List.range' drv.nfgpuNpages.toNat pages.length) := by
  induction pages generalizing drv log with
  | nil => simp
  | cons page pages ih =>
      rw [List.length_cons] at h
      have hsucc : (nfgpuSkbPteProcess drv page).nfgpuNpages.toNat = drv.nfgpuNpages.toNat + 1 := by
        show (drv.nfgpuNpages + 1).toNat = _
        bv_omega
      rw [List.foldl_cons, List.foldl_cons, storePage, ih _ _ (by rw [hsucc]; omega), hsucc,
        List.length_cons, List.range'_succ, List.append_assoc, List.singleton_append]

section request

variable {gb : NfgpuMemInfo} {fuel : ℕ}

/-- A request has fewer pages than there are numbers.
Kind: L -/
theorem length_requestPages_lt (mm : MmStruct) (gb : NfgpuMemInfo) :
    (requestPages mm gb).length < 2 ^ 64 := by
  unfold requestPages
  split_ifs
  · have hle := length_presentPages_le mm gb.uva (gb.size.toNat / 4096)
    have hlt := gb.size.isLt
    omega
  · simp

/-- **The stores of a request**: the globals are those of the walk without the log, and the indexes
are the numbers below the number of present pages.
Source: `xt_TOGPU_main.c` 390–406
Kind: P -/
theorem mempoolStores_eq (h : PageRequest gb) (hfuel : gb.size.toNat / 4096 ≤ fuel)
    (mm : MmStruct) (drv : Globals) :
    ∃ drv', walkPage nfgpuSkbPteEntry fuel mm gb.uva (gb.uva + gb.size)
          { drv with nfgpuUva := gb.uva, nfgpuSize := gb.size, nfgpuNpages := 0 } =
        some (drv', 0) ∧
      mempoolStores fuel mm drv gb = some (drv', List.range (requestPages mm gb).length) := by
  refine ⟨_, by rw [nfgpuSkbPteEntry_eq, walkPage_onPresent _ h hfuel], ?_⟩
  have hlog := foldl_storePage (requestPages mm gb)
    { drv with nfgpuUva := gb.uva, nfgpuSize := gb.size, nfgpuNpages := 0 } []
    (by simpa using length_requestPages_lt mm gb)
  simp only [mempoolStores, nfgpuSkbPteStore, walkPage_onPresent _ h hfuel, hlog, Option.map_some]
  simp [List.range_eq_range']

/-- The indexes below `n` are inside the array iff it has `n` entries: the last one is `n - 1`.
Kind: L -/
theorem range_lt_maxPages_iff (n : ℕ) :
    (∀ j ∈ List.range n, j < nfgpuMaxPages) ↔ n ≤ nfgpuMaxPages := by
  constructor
  · intro hall
    by_contra hgt
    exact absurd (hall nfgpuMaxPages (List.mem_range.mpr (not_le.mp hgt))) (lt_irrefl _)
  · intro hle j hj
    exact lt_of_lt_of_le (List.mem_range.mp hj) hle

end request

/-- **Every store of the walk into `nfgpu_pages` is inside the array iff at most `NFGPU_MAX_PAGES`
pages of the request are present.** For every request of whole pages, every page table and every
driver state.
Source: `xt_TOGPU_main.c` 344–406, `xt_TOGPU_pagewalk.c` 212–269
Kind: P
Fidelity: exact
Hyps: (a) `PageRequest gb`; (b) the loops of the walk may run as often as the request has pages -/
theorem mempoolStores_inBounds_iff (mm : MmStruct) (drv : Globals) {gb : NfgpuMemInfo} {fuel : ℕ}
    (h : PageRequest gb) (hfuel : gb.size.toNat / 4096 ≤ fuel) :
    ∃ drv' stores, mempoolStores fuel mm drv gb = some (drv', stores) ∧
      ((∀ j ∈ stores, j < nfgpuMaxPages) ↔ (requestPages mm gb).length ≤ nfgpuMaxPages) := by
  obtain ⟨drv', -, hstores⟩ := mempoolStores_eq h hfuel mm drv
  exact ⟨drv', _, hstores, range_lt_maxPages_iff _⟩

/-- A process with a page at every address.
Kind: D -/
def everyPage : MmStruct where
  pgd := fun _ => .table fun _ => .table fun _ => .table fun _ => .present 0xffffea0000000000

/-- All pages of a request to such a process are present.
Kind: L -/
theorem length_requestPages_everyPage {gb : NfgpuMemInfo}
    (hwrap : gb.uva.toNat + gb.size.toNat < 2 ^ 64) :
    (requestPages everyPage gb).length = gb.size.toNat / 4096 := by
  have hentry : ∀ i a, (pteBelow everyPage i a).bind Pte.page = some 0xffffea0000000000 :=
    fun _ _ => rfl
  rw [requestPages, if_pos hwrap]
  simp [presentPages, hentry]

/-- A request of one page.
Kind: C -/
theorem mempoolStores_one_page :
    ∃ drv' stores, mempoolStores 1 everyPage nfgpuInternalInit ⟨0x7f0000000000, 0x1000⟩ =
        some (drv', stores) ∧ ∀ j ∈ stores, j < nfgpuMaxPages := by
  obtain ⟨drv', stores, hstores, hiff⟩ := mempoolStores_inBounds_iff everyPage nfgpuInternalInit
    (⟨by decide, by decide⟩ : PageRequest ⟨0x7f0000000000, 0x1000⟩) (by decide : _ ≤ 1)
  refine ⟨drv', stores, hstores, hiff.mpr ?_⟩
  rw [length_requestPages_everyPage (by decide)]
  decide

/-- A request of one page more than the array has entries: the last store is behind the array.
Kind: C -/
theorem mempoolStores_past_array :
    ∃ drv' stores, mempoolStores 8193 everyPage nfgpuInternalInit ⟨0x7f0000000000, 0x2001000⟩ =
        some (drv', stores) ∧ 8192 ∈ stores ∧ ¬∀ j ∈ stores, j < nfgpuMaxPages := by
  obtain ⟨drv', -, hstores⟩ := mempoolStores_eq
    (⟨by decide, by decide⟩ : PageRequest ⟨0x7f0000000000, 0x2001000⟩) (by decide : _ ≤ 8193)
    everyPage nfgpuInternalInit
  have hlast : 8192 ∈ List.range
      (requestPages everyPage ⟨0x7f0000000000, 0x2001000⟩).length := by
    rw [length_requestPages_everyPage (by decide)]
    exact List.mem_range.mpr (by decide)
  refine ⟨drv', _, hstores, hlast, fun hall => ?_⟩
  have hlt := hall 8192 hlast
  rw [nfgpuMaxPages_eq] at hlt
  exact lt_irrefl _ hlt

end Togpu.Driver
