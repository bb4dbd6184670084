import Togpu.Driver.Hooks
import Togpu.Mapping.PageWalk

/-!
# Two views of a slot

The driver reaches slot `i` through the kernel mapping of the pages the walk collected, the GPU
through the pinned memory of the process. Both take position `i` for offset `i`.

* `nfgpuSetMempoolOf` — `nfgpu_set_mempool` with the walk of the process's page table, and
  `nfgpuSetMempoolOf_eq`: it is `nfgpuSetMempool` on the present pages of the range.
* `kernelPage`, `pageOf` — the page behind an address of the mapping, and behind one of the process.
* **The two views of every slot agree iff every page of the range is present**
  (`sameView_iff_present`): behind a missing page everything moves down by one.
-/

namespace Togpu.Driver

open Togpu.Lib

/-! ## `nfgpu_set_mempool` on a page table -/

/-- The page of a present entry.
Source: `xt_TOGPU_main.c` 350–352
Kind: D -/
def Pte.page : Pte → Option Addr
  | .present page => some page
  | .none | .swap => Option.none

/-- `nfgpu_skb_pte_process` as the callback of the walk.
Source: `xt_TOGPU_main.c` 344–371
Kind: D -/
def nfgpuSkbPteEntry (pte : Pte) (_addr : Addr) (drv : Globals) : Globals × ℤ :=
  match pte.page with
  | some page => (nfgpuSkbPteProcess drv page, 0)
  | none => (drv, 0)

/-- `nfgpu_set_mempool` for a process with page table `mm`, after `copy_from_user` has left `gb`
and with `vmap` returning `kva`.
Source: `xt_TOGPU_main.c` 373–450
Kind: D -/
def nfgpuSetMempoolOf (fuel : ℕ) (mm : MmStruct) (drv : Globals) (gb : NfgpuMemInfo) (kva : Addr) :
    Option (Globals × ℤ) :=
  let prepared := { drv with nfgpuUva := gb.uva, nfgpuSize := gb.size, nfgpuNpages := 0 }
  match walkPage nfgpuSkbPteEntry fuel mm gb.uva (gb.uva + gb.size) prepared with
  | none => none
  | some (walked, _) =>
      let mapped := { walked with nfgpuKva := kva }
      if kva = 0 then some ({ mapped with nfgpuSkbs := fun _ => 0 }, efault) else some (mapped, 0)

/-- The pages of the present entries of `n` pages from `a` on, in the order of the walk.
Kind: D -/
def presentPages (mm : MmStruct) (a : Addr) (n : ℕ) : List Addr :=
  (strides 4096 a n).filterMap fun p => (pteBelow mm (pgdReached a p) p).bind Pte.page

/-- A callback that does `f` with the page of a present entry and passes over the others.
Kind: D -/
def onPresent {σ : Type} (f : σ → Addr → σ) (pte : Pte) (_addr : Addr) (st : σ) : σ × ℤ :=
  match pte.page with
  | some page => (f st page, 0)
  | none => (st, 0)

/-- `nfgpu_skb_pte_process` is such a callback.
Kind: L -/
theorem nfgpuSkbPteEntry_eq : nfgpuSkbPteEntry = onPresent nfgpuSkbPteProcess := rfl

/-- What such a callback makes of the entries of a list of addresses.
Kind: L -/
theorem foldl_visit_onPresent {σ : Type} (f : σ → Addr → σ) (entry : Addr → Option Pte)
    (ps : List Addr) (st : σ) :
    ps.foldl (visit (onPresent f) entry) st =
      (ps.filterMap fun p => (entry p).bind Pte.page).foldl f st := by
  induction ps generalizing st with
  | nil => rfl
  | cons p ps ih =>
      rw [List.foldl_cons, ih, visit]
      cases he : entry p with
      | none => simp [he]
      | some pte =>
          cases hp : pte.page with
          | none => simp [he, hp, onPresent]
          | some page => simp [he, hp, onPresent]

/-- A request of whole pages: a page-aligned start and a size that is a multiple of the page size.
Kind: D -/
structure PageRequest (gb : NfgpuMemInfo) : Prop where
  /-- The memory starts on a page boundary. -/
  aligned : gb.uva.toNat % 4096 = 0
  /-- Its size is a multiple of the page size. -/
  whole : gb.size.toNat % 4096 = 0

/-- The pages of the present entries of a request. One that wraps ends before it starts, and has
none.
Source: `xt_TOGPU_pagewalk.c` 218–219
Kind: D -/
def requestPages (mm : MmStruct) (gb : NfgpuMemInfo) : List Addr :=
  if gb.uva.toNat + gb.size.toNat < 2 ^ 64 then presentPages mm gb.uva (gb.size.toNat / 4096)
  else []

/-- What a request that `nfgpu_set_mempool` can work on is: whole pages, not more than the pool
has, inside the address space.
Kind: D -/
structure WholePages (gb : NfgpuMemInfo) : Prop where
  /-- The memory starts on a page boundary. -/
  aligned : gb.uva.toNat % 4096 = 0
  /-- Its size is a multiple of the page size. -/
  whole : gb.size.toNat % 4096 = 0
  /-- It is not larger than the pool. -/
  le_max : gb.size ≤ nfgpuMaxMemory
  /-- It does not wrap. -/
  noWrap : gb.uva.toNat + gb.size.toNat < 2 ^ 64

section mempool

variable {gb : NfgpuMemInfo} {fuel : ℕ}

/-- The size in pages.
Kind: L -/
theorem PageRequest.size_eq (h : PageRequest gb) :
    gb.size = BitVec.ofNat 64 (gb.size.toNat / 4096 * 4096) := by
  rw [Nat.div_mul_cancel (Nat.dvd_of_mod_eq_zero h.whole)]
  exact (BitVec.ofNat_toNat 64 gb.size).symm ▸ (BitVec.setWidth_eq gb.size).symm

/-- A request of at least a page that does not wrap is a range of pages.
Kind: L -/
theorem PageRequest.pageRange (h : PageRequest gb)
    (hwrap : gb.uva.toNat + gb.size.toNat < 2 ^ 64) (hpos : 0 < gb.size.toNat / 4096) :
    PageRange gb.uva (gb.size.toNat / 4096) where
  aligned := h.aligned
  pos := hpos
  noWrap := by
    rw [Nat.div_mul_cancel (Nat.dvd_of_mod_eq_zero h.whole)]
    exact hwrap

/-- A request for the pool is one of whole pages.
Kind: L -/
theorem WholePages.pageRequest (h : WholePages gb) : PageRequest gb := ⟨h.aligned, h.whole⟩

/-- The pages of a request for the pool.
Kind: L -/
theorem WholePages.requestPages_eq (h : WholePages gb) (mm : MmStruct) :
    requestPages mm gb = presentPages mm gb.uva (gb.size.toNat / 4096) := if_pos h.noWrap

/-- The pool has at most 8192 pages.
Kind: L -/
theorem WholePages.pages_le (h : WholePages gb) : gb.size.toNat / 4096 ≤ 8192 := by
  have hle := h.le_max
  rw [BitVec.le_def, nfgpuMaxMemory_toNat] at hle
  omega

/-- A request of at least a page is a range of pages.
Kind: L -/
theorem WholePages.pageRange (h : WholePages gb) (hpos : 0 < gb.size.toNat / 4096) :
    PageRange gb.uva (gb.size.toNat / 4096) := h.pageRequest.pageRange h.noWrap hpos

/-- A range has no more present entries than pages.
Kind: L -/
theorem length_presentPages_le (mm : MmStruct) (a : Addr) (n : ℕ) :
    (presentPages mm a n).length ≤ n := by
  have hle := List.length_filterMap_le (fun p => (pteBelow mm (pgdReached a p) p).bind Pte.page)
    (strides 4096 a n)
  rwa [length_strides] at hle

/-- The walk of a request hands the callback its present pages.
Source: `xt_TOGPU_main.c` 406
Kind: L -/
theorem walkPage_onPresent {σ : Type} (f : σ → Addr → σ) (h : PageRequest gb)
    (hfuel : gb.size.toNat / 4096 ≤ fuel) (mm : MmStruct) (st : σ) :
    walkPage (onPresent f) fuel mm gb.uva (gb.uva + gb.size) st =
      some ((requestPages mm gb).foldl f st, 0) := by
  have hok : ∀ pte p st, (onPresent f pte p st).2 = 0 := by
    intro pte p st
    unfold onPresent
    split <;> rfl
  unfold requestPages
  split_ifs with hwrap
  · rcases Nat.eq_zero_or_pos (gb.size.toNat / 4096) with hzero | hpos
    · have hsize : gb.size = 0 := by
        rw [h.size_eq, hzero]
        rfl
      rw [hzero, hsize, walkPage, if_pos (by simp)]
      rfl
    · nth_rewrite 1 [h.size_eq]
      rw [walkPage_spec hok mm (h.pageRange hwrap hpos) hfuel, foldl_visit_onPresent]
      rfl
  · -- the end of the range has wrapped below its start
    have hend : gb.uva ≥ gb.uva + gb.size := by bv_omega
    rw [walkPage, if_pos hend]
    rfl

/-- **`nfgpu_set_mempool` on a page table is `nfgpu_set_mempool` on its present pages.**
Source: `xt_TOGPU_main.c` 373–450
Kind: P -/
theorem nfgpuSetMempoolOf_eq (h : PageRequest gb) (hfuel : gb.size.toNat / 4096 ≤ fuel)
    (mm : MmStruct) (drv : Globals) (accessOk : Bool) (kva : Addr) :
    nfgpuSetMempoolOf fuel mm drv gb kva =
      some (nfgpuSetMempool drv ⟨accessOk, gb, requestPages mm gb, kva⟩) := by
  simp only [nfgpuSetMempoolOf, nfgpuSkbPteEntry_eq, walkPage_onPresent _ h hfuel, nfgpuSetMempool]
  split_ifs <;> rfl

end mempool

/-! ## The page list -/

/-- What the walk leaves in the page list and its length: the pages it was handed, from the first
free entry on.
Source: `xt_TOGPU_main.c` 352, 367
Kind: L -/
theorem foldl_nfgpuSkbPteProcess_pages (pages : List Addr) (drv : Globals)
    (h : drv.nfgpuNpages.toNat + pages.length < 2 ^ 64) :
    (pages.foldl nfgpuSkbPteProcess drv).nfgpuNpages.toNat =
        drv.nfgpuNpages.toNat + pages.length ∧
      ∀ i, (pages.foldl nfgpuSkbPteProcess drv).nfgpuPages i =
        if i < drv.nfgpuNpages.toNat then drv.nfgpuPages i
        else (pages[i - drv.nfgpuNpages.toNat]?).getD (drv.nfgpuPages i) := by
  induction pages generalizing drv with
  | nil => simp
  | cons page pages ih =>
      have hsucc : (nfgpuSkbPteProcess drv page).nfgpuNpages.toNat = drv.nfgpuNpages.toNat + 1 := by
        rw [List.length_cons] at h
        show (drv.nfgpuNpages + 1).toNat = _
        bv_omega
      obtain ⟨hnum, hpages⟩ := ih (nfgpuSkbPteProcess drv page) (by
        rw [hsucc]
        rw [List.length_cons] at h
        omega)
      rw [List.foldl_cons]
      refine ⟨by rw [hnum, hsucc, List.length_cons]; omega, fun i => ?_⟩
      rw [hpages, hsucc]
      rcases lt_trichotomy i drv.nfgpuNpages.toNat with hlt | rfl | hgt
      · rw [if_pos (by omega), if_pos hlt]
        exact Function.update_of_ne hlt.ne _ _
      · rw [if_pos (by omega), if_neg (lt_irrefl _), Nat.sub_self]
        exact Function.update_self ..
      · have hsub : i - drv.nfgpuNpages.toNat = i - (drv.nfgpuNpages.toNat + 1) + 1 := by omega
        rw [if_neg (by omega), if_neg (by omega), hsub, List.getElem?_cons_succ]
        congr 1
        exact Function.update_of_ne hgt.ne' _ _

/-- The same from an empty list on, as `nfgpu_set_mempool` starts the walk.
Source: `xt_TOGPU_main.c` 393
Kind: L -/
theorem foldl_nfgpuSkbPteProcess_of_zero (pages : List Addr) {drv : Globals}
    (hzero : drv.nfgpuNpages = 0) (h : pages.length < 2 ^ 64) :
    (pages.foldl nfgpuSkbPteProcess drv).nfgpuNpages.toNat = pages.length ∧
      ∀ i, (pages.foldl nfgpuSkbPteProcess drv).nfgpuPages i =
        (pages[i]?).getD (drv.nfgpuPages i) := by
  have hnat : drv.nfgpuNpages.toNat = 0 := by
    rw [hzero]
    rfl
  have hpages := foldl_nfgpuSkbPteProcess_pages pages drv (by omega)
  simpa only [hnat, Nat.zero_add, Nat.not_lt_zero, if_false, Nat.sub_zero] using hpages

/-! ## The two views -/

/-- The addresses an x86-64 processor translates.
Kind: D -/
def Canonical (a : Addr) : Prop := a.toNat < 2 ^ 47 ∨ 2 ^ 64 - 2 ^ 47 ≤ a.toNat

instance (a : Addr) : Decidable (Canonical a) := inferInstanceAs (Decidable (_ ∨ _))

/-- The page that backs an address of the process.
Kind: D -/
def pageOf (mm : MmStruct) (a : Addr) : Option Addr :=
  if Canonical a then (pteAt mm a).bind Pte.page else none

/-- The page behind an address of the mapping `vmap( nfgpu_pages, nfgpu_npages, … )` at
`nfgpu_kva`: the pages of the list, one after another.
Source: `xt_TOGPU_main.c` 425
Kind: D -/
def kernelPage (drv : Globals) (a : Addr) : Option Addr :=
  let i := (a - drv.nfgpuKva) >>> 12
  if i < drv.nfgpuNpages then some (drv.nfgpuPages i.toNat) else none

/-- Where the launcher takes slot `index` to be in the memory at `base`.
Source: `xt_TOGPU_kernel.cu` 1757–1758
Kind: D -/
def gpuSlotAddr (base : Addr) (index : BitVec 64) : Addr := base + index * 0x1000

/-- For each page of the request, the page the driver reaches as slot `i` is the page that backs
what the launcher takes for slot `i`.
Kind: D -/
def SameView (mm : MmStruct) (gb : NfgpuMemInfo) (drv : Globals) : Prop :=
  ∀ i : BitVec 64, i.toNat < gb.size.toNat / 4096 →
    ∃ page, kernelPage drv (slotAddr drv.nfgpuKva i) = some page ∧
      pageOf mm (gpuSlotAddr gb.uva i) = some page

/-- Every page of the request is present.
Kind: D -/
def AllPresent (mm : MmStruct) (gb : NfgpuMemInfo) : Prop :=
  ∀ i : BitVec 64, i.toNat < gb.size.toNat / 4096 → (pageOf mm (gpuSlotAddr gb.uva i)).isSome

section views

variable {gb : NfgpuMemInfo} {mm : MmStruct}

/-- The launcher's slots are the pages of the request.
Kind: L -/
theorem gpuSlotAddr_eq (base : Addr) (i : BitVec 64) :
    gpuSlotAddr base i = base + BitVec.ofNat 64 (i.toNat * 4096) := by
  apply BitVec.eq_of_toNat_eq
  simp [gpuSlotAddr, BitVec.toNat_mul]

/-- The bytes of the driver's slots are those of the pages of its mapping.
Kind: L -/
theorem kernelPage_slotByte (drv : Globals) {i : BitVec 64} (hi : i.toNat < 8192) {x : Addr}
    (hx : x.toNat < 4096) :
    kernelPage drv (slotAddr drv.nfgpuKva i + x) =
      if i < drv.nfgpuNpages then some (drv.nfgpuPages i.toNat) else none := by
  have hidx : (slotAddr drv.nfgpuKva i + x - drv.nfgpuKva) >>> 12 = i := by
    have hshift : (i <<< nfgpuSkbOffset).toNat = i.toNat * 4096 := by
      rw [BitVec.toNat_shiftLeft, nfgpuSkbOffset, Nat.shiftLeft_eq]
      omega
    rw [slotAddr, BitVec.add_assoc, BitVec.add_comm, BitVec.add_sub_cancel]
    apply BitVec.eq_of_toNat_eq
    rw [toNat_ushiftRight_eq_div, BitVec.toNat_add, hshift]
    omega
  simp only [kernelPage, hidx]

/-- The driver's slots are the pages of its mapping.
Kind: L -/
theorem kernelPage_slotAddr (drv : Globals) {i : BitVec 64} (hi : i.toNat < 8192) :
    kernelPage drv (slotAddr drv.nfgpuKva i) =
      if i < drv.nfgpuNpages then some (drv.nfgpuPages i.toNat) else none := by
  have hbyte := kernelPage_slotByte drv hi (show (0#64).toNat < 4096 by decide)
  rwa [BitVec.add_zero] at hbyte

/-- When all pages of a request are present, the walk does not leave the half of the first level it
starts in, so it finds each page where the processor does.
Kind: L -/
theorem pgdReached_eq {a p : Addr} (hp : Canonical p) (hle : a.toNat ≤ p.toNat)
    (hnear : p.toNat ≤ a.toNat + 2 ^ 25) : pgdReached a p = pgdIndex p := by
  have hpl := p.isLt
  unfold Canonical at hp
  rw [pgdReached, pgdIndex, tableIndex_eq, tableIndex_eq]
  omega

/-- The walk finds a page that is present where the processor does.
Kind: L -/
theorem page_of_present (h : WholePages gb) {p : Addr}
    (hp : p ∈ strides 4096 gb.uva (gb.size.toNat / 4096)) (hsome : (pageOf mm p).isSome) :
    (pteBelow mm (pgdReached gb.uva p) p).bind Pte.page = pageOf mm p := by
  obtain ⟨k, hk, rfl⟩ := mem_strides.mp hp
  have hmax := h.pages_le
  have hnat := (h.pageRange (by omega)).toNat_page hk.le
  rw [pageOf] at hsome ⊢
  split_ifs at hsome ⊢ with hcan
  · rw [pgdReached_eq hcan (by omega) (by omega)]
    rfl
  · cases hsome

/-- The walk of a request whose pages are all present finds all of them, each at its place.
Kind: L -/
theorem presentPages_of_allPresent (h : WholePages gb) (hall : AllPresent mm gb) :
    (presentPages mm gb.uva (gb.size.toNat / 4096)).map some =
      (strides 4096 gb.uva (gb.size.toNat / 4096)).map (pageOf mm) := by
  have hpage : ∀ p ∈ strides 4096 gb.uva (gb.size.toNat / 4096), (pageOf mm p).isSome := by
    intro p hp
    obtain ⟨k, hk, rfl⟩ := mem_strides.mp hp
    have hmax := h.pages_le
    have hnat : (BitVec.ofNat 64 k).toNat = k := Nat.mod_eq_of_lt (by omega)
    have hone := hall (BitVec.ofNat 64 k) (by rwa [hnat])
    rwa [gpuSlotAddr_eq, hnat] at hone
  have hsome := fun p hp => page_of_present h hp (hpage p hp)
  rw [presentPages, List.filterMap_congr hsome, List.map_filterMap_some_eq_filter_map_isSome,
    List.filter_eq_self]
  intro page hmem
  obtain ⟨p, hp, rfl⟩ := List.mem_map.mp hmem
  exact hpage p hp

/-- The globals a successful call leaves: the base, and the present pages in the page list.
Kind: L -/
theorem nfgpuSetMempool_pages (drv : Globals) (env : IoctlEnv) (hkva : env.vmap ≠ 0)
    (hlen : env.walked.length < 2 ^ 64) :
    ∃ drv', nfgpuSetMempool drv env = (drv', 0) ∧ drv'.nfgpuKva = env.vmap ∧
      drv'.nfgpuNpages.toNat = env.walked.length ∧
      ∀ i page, env.walked[i]? = some page → drv'.nfgpuPages i = page := by
  obtain ⟨hnum, hpages⟩ := foldl_nfgpuSkbPteProcess_of_zero env.walked
    (show Globals.nfgpuNpages
      { drv with nfgpuUva := env.gb.uva, nfgpuSize := env.gb.size, nfgpuNpages := 0 } = 0 from rfl)
    hlen
  refine ⟨_, by simp only [nfgpuSetMempool, if_neg hkva]; rfl, rfl, ?_, fun i page hi => ?_⟩
  · exact hnum
  · refine (hpages i).trans ?_
    rw [hi]
    rfl

/-- If the pages of a request are all present, the two views of each slot agree.
Kind: L -/
theorem sameView_of_allPresent (h : WholePages gb) (hall : AllPresent mm gb) {drv : Globals}
    (hnum : drv.nfgpuNpages.toNat = (presentPages mm gb.uva (gb.size.toNat / 4096)).length)
    (hpages : ∀ i page, (presentPages mm gb.uva (gb.size.toNat / 4096))[i]? = some page →
      drv.nfgpuPages i = page) : SameView mm gb drv := by
  intro i hi
  have hmax := h.pages_le
  have hmap := presentPages_of_allPresent h hall
  have hlen := congrArg List.length hmap
  simp only [List.length_map, length_strides] at hlen
  obtain ⟨page, hpage⟩ := Option.isSome_iff_exists.mp (hall i hi)
  have hget := congrArg (fun l => l[i.toNat]?) hmap
  simp only [List.getElem?_map, strides, List.getElem?_range hi, Option.map_some] at hget
  rw [← gpuSlotAddr_eq, hpage] at hget
  obtain ⟨page', hpage', heq⟩ := Option.map_eq_some_iff.mp hget
  cases heq
  refine ⟨page, ?_, hpage⟩
  rw [kernelPage_slotAddr drv (by omega), if_pos (by rw [BitVec.lt_def, hnum, hlen]; exact hi),
    hpages _ _ hpage']

end views

/-- **The kernel's view and the GPU's view of every slot are one page iff every page of the request
is present**, or the call fails. For every page table, every driver state and every request of
whole pages up to the size of the pool.
Source: `xt_TOGPU_main.c` 344–450, `xt_TOGPU_pagewalk.c`, `xt_TOGPU_kernel.cu` 1755–1758
Kind: P
Fidelity: exact
Hyps: (a) `WholePages gb`; (b) the loops of the walk may run as often as the request has pages -/
theorem sameView_iff_present (mm : MmStruct) (drv : Globals) {gb : NfgpuMemInfo} (kva : Addr)
    {fuel : ℕ} (h : WholePages gb) (hfuel : gb.size.toNat / 4096 ≤ fuel) :
    ∃ drv' err, nfgpuSetMempoolOf fuel mm drv gb kva = some (drv', err) ∧
      ((err = 0 → drv'.nfgpuKva = kva ∧ SameView mm gb drv') ↔ kva = 0 ∨ AllPresent mm gb) := by
  rw [nfgpuSetMempoolOf_eq h.pageRequest hfuel mm drv true kva, h.requestPages_eq]
  by_cases hkva : kva = 0
  · refine ⟨_, efault, by simp only [nfgpuSetMempool, if_pos hkva]; rfl, fun _ => .inl hkva, ?_⟩
    intro _ herr
    exact absurd herr (by decide)
  · have hlen : (presentPages mm gb.uva (gb.size.toNat / 4096)).length < 2 ^ 64 := by
      have hmax := h.pages_le
      exact lt_of_le_of_lt (length_presentPages_le mm gb.uva _) (by omega)
    obtain ⟨drv', hset, hbase, hnum, hpages⟩ := nfgpuSetMempool_pages drv
      ⟨true, gb, presentPages mm gb.uva (gb.size.toNat / 4096), kva⟩ hkva hlen
    refine ⟨drv', 0, by rw [hset], ?_⟩
    constructor
    · intro hview
      refine .inr fun i hi => ?_
      obtain ⟨page, -, hpage⟩ := (hview rfl).2 i hi
      rw [hpage]
      rfl
    · rintro (hzero | hall) -
      · exact absurd hzero hkva
      · exact ⟨hbase, sameView_of_allPresent h hall hnum hpages⟩

/-- A process with two pages at `0x7f0000000000`, the first of them present if `first` says so.
Kind: D -/
def twoPages (first : Pte) : MmStruct where
  pgd := fun _ => .table fun _ => .table fun _ => .table fun i =>
    if i = 0 then first else if i = 1 then .present 0xffffea0000000040 else .none

/-- Those two pages as a request.
Kind: D -/
def twoPagesInfo : NfgpuMemInfo := ⟨0x7f0000000000, 0x2000⟩

/-- The request is one of whole pages.
Kind: L -/
theorem wholePages_twoPages : WholePages twoPagesInfo :=
  ⟨by decide, by decide, by decide, by decide⟩

/-- Both pages present: the views agree.
Kind: C -/
theorem sameView_two_pages :
    ∃ drv', nfgpuSetMempoolOf 2 (twoPages (.present 0xffffea0000000000)) nfgpuInternalInit
        twoPagesInfo 0xffffc90000000000 = some (drv', 0) ∧
      SameView (twoPages (.present 0xffffea0000000000)) twoPagesInfo drv' := by
  have hall : AllPresent (twoPages (.present 0xffffea0000000000)) twoPagesInfo := by
    intro i hi
    have hsize : twoPagesInfo.size.toNat / 4096 = 2 := by decide
    rw [hsize] at hi
    have hcases : i = 0 ∨ i = 1 := by bv_omega
    rcases hcases with rfl | rfl <;> decide
  obtain ⟨drv', err, hset, hiff⟩ := sameView_iff_present (twoPages (.present 0xffffea0000000000))
    nfgpuInternalInit 0xffffc90000000000 wholePages_twoPages (by decide : _ ≤ 2)
  have herr : err = 0 := by
    rw [nfgpuSetMempoolOf_eq wholePages_twoPages.pageRequest (by decide) _ _ true] at hset
    exact (congrArg Prod.snd (Option.some.inj hset)).symm
  subst herr
  exact ⟨drv', hset, (hiff.mpr (.inr hall) rfl).2⟩

/-- The first page missing: the kernel's slot 0 is the GPU's slot 1.
Kind: C -/
theorem not_sameView_first_missing :
    ∃ drv', nfgpuSetMempoolOf 2 (twoPages .none) nfgpuInternalInit twoPagesInfo
        0xffffc90000000000 = some (drv', 0) ∧
      kernelPage drv' (slotAddr drv'.nfgpuKva 0) = some 0xffffea0000000040 ∧
      pageOf (twoPages .none) (gpuSlotAddr twoPagesInfo.uva 1) = some 0xffffea0000000040 ∧
      ¬SameView (twoPages .none) twoPagesInfo drv' := by
  rw [nfgpuSetMempoolOf_eq wholePages_twoPages.pageRequest (by decide) _ _ true]
  have hwalk : requestPages (twoPages .none) twoPagesInfo = [0xffffea0000000040] := by decide
  rw [hwalk]
  refine ⟨_, rfl, by decide, by decide, fun hview => ?_⟩
  obtain ⟨page, -, hpage⟩ := hview 0 (by decide)
  rw [show pageOf (twoPages .none) (gpuSlotAddr twoPagesInfo.uva 0) = none by decide] at hpage
  cases hpage

end Togpu.Driver
