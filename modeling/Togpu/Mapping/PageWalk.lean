import Togpu.Lib.Sweep
import Togpu.Lib.Window
import Togpu.Driver.Ioctl

/-!
# The page-table walk

`xt_TOGPU_pagewalk.c`: a walk of the four levels of a process's page table that calls back for
every entry of the last level it finds. The driver sets `pte_entry` and leaves every other callback
`NULL`, so entries that are missing above the last level are passed over in silence.

* `Pgd`, `Pud`, `Pmd`, `Pte`, `MmStruct` — a page table, with what the walk tells apart at each
  level: nothing, a bad entry (cleared, and then nothing), a transparent huge page (split, and then
  a table), a table.
* `walkPteRange`, `walkPmdRange`, `walkPudRange`, `walkPage` — the four loops, each a `sweep`. The
  rounds are bounded; an aligned range needs no more rounds than it has pages.
* `pteAt` — the entry of an address, by the index of each level.
* **The walk of an aligned range calls back for the entries of its pages in order, and for nothing
  where there is no entry** (`walkPage_spec`).
-/

namespace Togpu.Driver

open Togpu.Lib

/-! ## Page tables -/

/-- An entry of the last level.
Source: `xt_TOGPU_main.c` 350
Kind: D -/
inductive Pte where
  /-- Empty. -/
  | none
  /-- Not present: the page is swapped out. -/
  | swap
  /-- Present; the `struct page` of its page. -/
  | present (page : Addr)

/-- An entry of the third level.
Source: `xt_TOGPU_pagewalk.c` 63–87
Kind: D -/
inductive Pmd where
  /-- Empty. -/
  | none
  /-- Not an entry the kernel knows. -/
  | bad
  /-- A transparent huge page, with its base pages. -/
  | transHuge (pages : ℕ → Addr)
  /-- A table of the last level. -/
  | table (pte : ℕ → Pte)

/-- An entry of the second level.
Source: `xt_TOGPU_pagewalk.c` 107
Kind: D -/
inductive Pud where
  /-- Empty. -/
  | none
  /-- Not an entry the kernel knows. -/
  | bad
  /-- A table of the third level. -/
  | table (pmd : ℕ → Pmd)

/-- An entry of the first level.
Source: `xt_TOGPU_pagewalk.c` 248
Kind: D -/
inductive Pgd where
  /-- Empty. -/
  | none
  /-- Not an entry the kernel knows. -/
  | bad
  /-- A table of the second level. -/
  | table (pud : ℕ → Pud)

/-- The page table of a process. Tables are addressed by entry; an entry past the 512th is what
lies behind the table.
Source: `xt_TOGPU_pagewalk.c` 222
Kind: D -/
structure MmStruct where
  /-- The first level. -/
  pgd : ℕ → Pgd

/-- What the walk finds behind a third-level entry: a huge page is split first, a bad entry is
cleared and then empty.
Source: `xt_TOGPU_pagewalk.c` 63–87
Kind: D -/
def Pmd.ptes : Pmd → Option (ℕ → Pte)
  | .none | .bad => Option.none
  | .transHuge pages => some fun i => .present (pages i)
  | .table pte => some pte

/-- What the walk finds behind a second-level entry.
Source: `xt_TOGPU_pagewalk.c` 107–113
Kind: D -/
def Pud.pmds : Pud → Option (ℕ → Pmd)
  | .none | .bad => Option.none
  | .table pmd => some pmd

/-- What the walk finds behind a first-level entry.
Source: `xt_TOGPU_pagewalk.c` 248–255
Kind: D -/
def Pgd.puds : Pgd → Option (ℕ → Pud)
  | .none | .bad => Option.none
  | .table pud => some pud

/-- The index of an address in a table whose entries cover `2 ^ shift` bytes.
Source: `xt_TOGPU_pagewalk.c` 38, 59, 103, 222
Kind: D -/
def tableIndex (shift : ℕ) (a : Addr) : ℕ := (a >>> shift).toNat % 512

/-- `pte_index`. -/
def pteIndex : Addr → ℕ := tableIndex 12

/-- `pmd_index`. -/
def pmdIndex : Addr → ℕ := tableIndex 21

/-- `pud_index`. -/
def pudIndex : Addr → ℕ := tableIndex 30

/-- `pgd_index`. -/
def pgdIndex : Addr → ℕ := tableIndex 39

/-! ## The walk -/

/-- The end of the part of a range that one entry covers.
Source: `xt_TOGPU_pagewalk.c` 62, 106, 226
Kind: D -/
def addrEnd (shift : ℕ) (addr stop : Addr) : Addr :=
  let size := (1 : Addr) <<< shift
  let boundary := (addr + size) &&& ~~~(size - 1)
  if boundary - 1 < stop - 1 then boundary else stop

/-- `pmd_addr_end`. -/
def pmdAddrEnd : Addr → Addr → Addr := addrEnd 21

/-- `pud_addr_end`. -/
def pudAddrEnd : Addr → Addr → Addr := addrEnd 30

/-- `pgd_addr_end`. -/
def pgdAddrEnd : Addr → Addr → Addr := addrEnd 39

section walk

variable {σ : Type} (pteEntry : Pte → Addr → σ → σ × ℤ) (fuel : ℕ)

/-- One round of an upper level: nothing for an entry with no table behind it (`pte_hole` is
`NULL`), the walk of the table otherwise.
Source: `xt_TOGPU_pagewalk.c` 63–68, 107–117, 248–259
Kind: D -/
def walkEntry {τ : Type} (table : ℕ → Option τ)
    (walkTable : τ → Addr → Addr → σ → Option (σ × ℤ)) (i : ℕ) (addr next : Addr) (st : σ) :
    Option (σ × ℤ) :=
  match table i with
  | none => some (st, 0)
  | some t => walkTable t addr next st

/-- `walk_pte_range`.
Source: `xt_TOGPU_pagewalk.c` 33–51
Kind: D -/
def walkPteRange (pte : ℕ → Pte) (addr stop : Addr) (st : σ) : Option (σ × ℤ) :=
  sweep (fun addr _ => addr + 4096) (fun i addr _ st => some (pteEntry (pte i) addr st)) fuel
    (pteIndex addr) addr stop st

/-- `walk_pmd_range`.
Source: `xt_TOGPU_pagewalk.c` 53–95
Kind: D -/
def walkPmdRange (pmd : ℕ → Pmd) (addr stop : Addr) (st : σ) : Option (σ × ℤ) :=
  sweep pmdAddrEnd (walkEntry (fun i => (pmd i).ptes) (walkPteRange pteEntry fuel)) fuel
    (pmdIndex addr) addr stop st

/-- `walk_pud_range`.
Source: `xt_TOGPU_pagewalk.c` 97–123
Kind: D -/
def walkPudRange (pud : ℕ → Pud) (addr stop : Addr) (st : σ) : Option (σ × ℤ) :=
  sweep pudAddrEnd (walkEntry (fun i => (pud i).pmds) (walkPmdRange pteEntry fuel)) fuel
    (pudIndex addr) addr stop st

/-- `walk_page`, for a process with an address space.
Source: `xt_TOGPU_pagewalk.c` 210–264
Kind: D -/
def walkPage (mm : MmStruct) (addr stop : Addr) (st : σ) : Option (σ × ℤ) :=
  if addr ≥ stop then some (st, 0)
  else
    sweep pgdAddrEnd (walkEntry (fun i => (mm.pgd i).puds) (walkPudRange pteEntry fuel)) fuel
      (pgdIndex addr) addr stop st

end walk

/-! ## Entries by address -/

/-- The last-level entry of an address below a third-level table.
Kind: D -/
def pteOfPmd (pmd : ℕ → Pmd) (a : Addr) : Option Pte :=
  (pmd (pmdIndex a)).ptes.map fun pte => pte (pteIndex a)

/-- The last-level entry of an address below a second-level table.
Kind: D -/
def pteOfPud (pud : ℕ → Pud) (a : Addr) : Option Pte :=
  (pud (pudIndex a)).pmds.bind fun pmd => pteOfPmd pmd a

/-- The last-level entry of an address below the first-level entry `i`.
Kind: D -/
def pteBelow (mm : MmStruct) (i : ℕ) (a : Addr) : Option Pte :=
  (mm.pgd i).puds.bind fun pud => pteOfPud pud a

/-- The last-level entry of an address.
Kind: D -/
def pteAt (mm : MmStruct) (a : Addr) : Option Pte := pteBelow mm (pgdIndex a) a

/-- The callback on the entry of an address, if there is one.
Kind: D -/
def visit {σ : Type} (pteEntry : Pte → Addr → σ → σ × ℤ) (entry : Addr → Option Pte) (st : σ)
    (a : Addr) : σ :=
  match entry a with
  | none => st
  | some pte => (pteEntry pte a st).1

/-! ## Indexes and ends in natural numbers -/

/-- The index of an address.
Kind: L -/
theorem tableIndex_eq (shift : ℕ) (a : Addr) : tableIndex shift a = a.toNat / 2 ^ shift % 512 := by
  rw [tableIndex, toNat_ushiftRight_eq_div]

/-- The size of what an entry covers, as a word.
Kind: L -/
theorem one_shiftLeft_toNat {shift : ℕ} (hs : shift < 64) :
    ((1 : Addr) <<< shift).toNat = 2 ^ shift := by
  have hlt : 2 ^ shift < 2 ^ 64 := Nat.pow_lt_pow_right (by decide) hs
  rw [BitVec.toNat_shiftLeft, Nat.shiftLeft_eq]
  show 1 * 2 ^ shift % 2 ^ 64 = 2 ^ shift
  rw [Nat.one_mul, Nat.mod_eq_of_lt hlt]

/-- The next boundary after an address either is the end of the address space or leaves room for
another entry.
Kind: L -/
theorem boundary_cases {shift : ℕ} (hs : shift < 64) (a : Addr) :
    (a.toNat / 2 ^ shift + 1) * 2 ^ shift = 2 ^ 64 ∨
      (a.toNat / 2 ^ shift + 1) * 2 ^ shift + 2 ^ shift ≤ 2 ^ 64 := by
  have hsplit : 2 ^ 64 = 2 ^ (64 - shift) * 2 ^ shift := by
    rw [← Nat.pow_add]
    congr 1
    omega
  have hq : a.toNat / 2 ^ shift < 2 ^ (64 - shift) := by
    rw [Nat.div_lt_iff_lt_mul (Nat.two_pow_pos shift), ← hsplit]
    exact a.isLt
  rw [hsplit]
  rcases Nat.lt_or_ge (a.toNat / 2 ^ shift + 1) (2 ^ (64 - shift)) with h | h
  · right
    rw [← Nat.succ_mul]
    exact Nat.mul_le_mul_right _ h
  · left
    rw [show a.toNat / 2 ^ shift + 1 = 2 ^ (64 - shift) by omega]

/-- Where the part of a range that one entry covers ends.
Kind: L -/
theorem addrEnd_toNat {shift : ℕ} (hs : shift < 64) {a stop : Addr} (hlt : a < stop) :
    (addrEnd shift a stop).toNat =
      min ((a.toNat / 2 ^ shift + 1) * 2 ^ shift) stop.toNat := by
  have hsize := one_shiftLeft_toNat hs
  have hpos : 0 < 2 ^ shift := Nat.two_pow_pos shift
  have hmask : ((1 : Addr) <<< shift - 1).toNat = 2 ^ shift - 1 := by
    rw [BitVec.toNat_sub_of_le (by rw [BitVec.le_def, hsize]; exact hpos), hsize]
    rfl
  have hb := toNat_and_not_low (a + (1 : Addr) <<< shift) _ shift hmask
  have hdecomp : a.toNat = a.toNat / 2 ^ shift * 2 ^ shift + a.toNat % 2 ^ shift :=
    (Nat.div_add_mod' _ _).symm
  have hmod : a.toNat % 2 ^ shift < 2 ^ shift := Nat.mod_lt _ hpos
  have hexpand : (a.toNat / 2 ^ shift + 1) * 2 ^ shift =
      a.toNat / 2 ^ shift * 2 ^ shift + 2 ^ shift := by ring
  have hstop := stop.isLt
  rw [BitVec.lt_def] at hlt
  simp only [addrEnd]
  generalize (a + (1 : Addr) <<< shift) &&& ~~~((1 : Addr) <<< shift - 1) = b at hb ⊢
  rcases boundary_cases hs a with hend | hroom
  · -- the boundary wraps to zero, and the test compares with the largest word
    have hzero : b.toNat = 0 := by
      rw [hb, BitVec.toNat_add, hsize, show a.toNat + 2 ^ shift = a.toNat % 2 ^ shift + 2 ^ 64 by
        omega, Nat.add_mod_right, Nat.mod_eq_of_lt (by omega), Nat.div_eq_of_lt hmod, Nat.zero_mul]
    have hnot : ¬b - 1 < stop - 1 := by bv_omega
    rw [if_neg hnot, hend]
    omega
  · have hval : b.toNat = (a.toNat / 2 ^ shift + 1) * 2 ^ shift := by
      rw [hb, BitVec.toNat_add, hsize, Nat.mod_eq_of_lt (by omega), Nat.add_div_right _ hpos]
    have hiff : b - 1 < stop - 1 ↔ b.toNat < stop.toNat := by
      rw [← hval] at hroom
      constructor
      · intro h
        bv_omega
      · intro h
        bv_omega
    rw [← hval]
    split_ifs with hc
    · exact (Nat.min_eq_left (hiff.mp hc).le).symm
    · exact (Nat.min_eq_right (not_lt.mp fun h => hc (hiff.mpr h))).symm

/-! ## Ranges of pages -/

/-- A range of `n` pages from `a` on that does not wrap.
Kind: D -/
structure PageRange (a : Addr) (n : ℕ) : Prop where
  /-- It starts on a page boundary. -/
  aligned : a.toNat % 4096 = 0
  /-- It is not empty. -/
  pos : 0 < n
  /-- It ends inside the address space. -/
  noWrap : a.toNat + n * 4096 < 2 ^ 64

/-- The range lies below one entry of a level.
Kind: D -/
def Within (shift : ℕ) (a : Addr) (n : ℕ) : Prop :=
  (a.toNat + n * 4096 - 1) / 2 ^ shift = a.toNat / 2 ^ shift

section ranges

variable {a : Addr} {n m : ℕ} {shift : ℕ}

/-- No page of a range lies past the end of the address space.
Kind: L -/
theorem PageRange.lt_of_le (h : PageRange a n) (hm : m ≤ n) : a.toNat + m * 4096 < 2 ^ 64 :=
  lt_of_le_of_lt (Nat.add_le_add_left (Nat.mul_le_mul_right 4096 hm) _) h.noWrap

/-- The address of a later page of a range.
Kind: L -/
theorem PageRange.toNat_page (h : PageRange a n) (hm : m ≤ n) :
    (a + BitVec.ofNat 64 (m * 4096)).toNat = a.toNat + m * 4096 :=
  toNat_stride (h.lt_of_le hm)

/-- The rest of a range is a range.
Kind: L -/
theorem PageRange.drop (h : PageRange a n) (hm : m < n) :
    PageRange (a + BitVec.ofNat 64 (m * 4096)) (n - m) := by
  have ha := h.aligned
  have hw := h.noWrap
  refine ⟨?_, by omega, ?_⟩
  · rw [h.toNat_page hm.le]
    omega
  · rw [h.toNat_page hm.le]
    omega

/-- The start of a range is a range.
Kind: L -/
theorem PageRange.take (h : PageRange a n) (hpos : 0 < m) (hm : m ≤ n) : PageRange a m :=
  ⟨h.aligned, hpos, h.lt_of_le hm⟩

/-- Pages of a range below one entry are below that entry.
Kind: L -/
theorem Within.div_eq (hw : Within shift a n) (h : PageRange a n) {p : Addr}
    (hp : p ∈ strides 4096 a n) : p.toNat / 2 ^ shift = a.toNat / 2 ^ shift := by
  obtain ⟨k, hk, rfl⟩ := mem_strides.mp hp
  rw [h.toNat_page hk.le]
  refine le_antisymm ?_ (Nat.div_le_div_right (by omega))
  rw [← hw]
  exact Nat.div_le_div_right (by omega)

/-- The part of a range that one entry covers: at least a page, below one entry, and if the range
goes on, it goes on below the next entry.
Kind: L -/
theorem addrEnd_pages (hs : 12 ≤ shift) (hs' : shift < 64) (h : PageRange a n) :
    ∃ m, 0 < m ∧ m ≤ n ∧
      addrEnd shift a (a + BitVec.ofNat 64 (n * 4096)) = a + BitVec.ofNat 64 (m * 4096) ∧
      Within shift a m ∧ (m < n → (a.toNat + m * 4096) / 2 ^ shift = a.toNat / 2 ^ shift + 1) := by
  obtain ⟨d, rfl⟩ := Nat.exists_eq_add_of_le hs
  have hsize : 2 ^ (12 + d) = 4096 * 2 ^ d := by rw [Nat.pow_add]
  have hdpos : 0 < 2 ^ d := Nat.two_pow_pos d
  -- everything is a multiple of a page: count in pages
  obtain ⟨x, hx⟩ : ∃ x, a.toNat = 4096 * x := by
    have hal := h.aligned
    exact ⟨a.toNat / 4096, by omega⟩
  have hdiv : ∀ y, 4096 * y / 2 ^ (12 + d) = y / 2 ^ d := by
    intro y
    rw [hsize, Nat.mul_div_mul_left _ _ (by decide)]
  have hlow : x / 2 ^ d * 2 ^ d ≤ x := Nat.div_mul_le_self x _
  have hhigh : x < (x / 2 ^ d + 1) * 2 ^ d := Nat.lt_mul_of_div_lt (Nat.lt_succ_self _) hdpos
  have hpos := h.pos
  refine ⟨min ((x / 2 ^ d + 1) * 2 ^ d - x) n, by omega, by omega, ?_, ?_, ?_⟩
  · apply BitVec.eq_of_toNat_eq
    have hlt : a < a + BitVec.ofNat 64 (n * 4096) := by
      rw [BitVec.lt_def, h.toNat_page le_rfl]
      omega
    rw [addrEnd_toNat hs' hlt, h.toNat_page le_rfl, h.toNat_page (Nat.min_le_right _ _), hx, hdiv,
      hsize, show (x / 2 ^ d + 1) * (4096 * 2 ^ d) = 4096 * ((x / 2 ^ d + 1) * 2 ^ d) by ring]
    omega
  · unfold Within
    rw [hx, hdiv]
    apply Nat.div_eq_of_lt_le
    · rw [hsize, show x / 2 ^ d * (4096 * 2 ^ d) = 4096 * (x / 2 ^ d * 2 ^ d) by ring]
      omega
    · rw [hsize, show (x / 2 ^ d + 1) * (4096 * 2 ^ d) = 4096 * ((x / 2 ^ d + 1) * 2 ^ d) by ring]
      omega
  · intro hlt
    rw [hx, hdiv, show 4096 * x + min ((x / 2 ^ d + 1) * 2 ^ d - x) n * 4096 =
      4096 * ((x / 2 ^ d + 1) * 2 ^ d) by omega, hdiv, Nat.mul_div_cancel _ hdpos]

end ranges

/-! ## What the walk visits -/

section spec

variable {σ : Type} {pteEntry : Pte → Addr → σ → σ × ℤ} {fuel n : ℕ} {a : Addr}

/-- Visits agree where the entries do.
Kind: L -/
theorem foldl_visit_congr {entry entry' : Addr → Option Pte} {ps : List Addr}
    (h : ∀ p ∈ ps, entry p = entry' p) (st : σ) :
    ps.foldl (visit pteEntry entry) st = ps.foldl (visit pteEntry entry') st := by
  apply List.foldl_ext
  intro st p hp
  unfold visit
  rw [h p hp]

/-- Where there is no entry, nothing is visited.
Kind: L -/
theorem foldl_visit_none {entry : Addr → Option Pte} {ps : List Addr}
    (h : ∀ p ∈ ps, entry p = none) (st : σ) : ps.foldl (visit pteEntry entry) st = st := by
  induction ps generalizing st with
  | nil => rfl
  | cons p ps ih =>
      rw [List.foldl_cons, visit, h p List.mem_cons_self]
      exact ih (fun q hq => h q (List.mem_cons_of_mem p hq)) st

/-- The walk of a last-level table below one third-level entry.
Source: `xt_TOGPU_pagewalk.c` 33–51
Kind: L -/
theorem walkPteRange_spec (hok : ∀ pte p st, (pteEntry pte p st).2 = 0) (pte : ℕ → Pte)
    (h : PageRange a n) (hw : Within 21 a n) (hfuel : n ≤ fuel) (st : σ) :
    walkPteRange pteEntry fuel pte a (a + BitVec.ofNat 64 (n * 4096)) st =
      some ((strides 4096 a n).foldl (visit pteEntry fun p => some (pte (pteIndex p))) st, 0) := by
  refine sweep_eq_foldl (Q := fun i b k => i = pteIndex b ∧ PageRange b k ∧ Within 21 b k)
    (fun i b k hk hwrap hQ => ?_) (by decide) h.pos hfuel h.noWrap ⟨rfl, h, hw⟩ st
  obtain ⟨rfl, hb, hbw⟩ := hQ
  refine ⟨1, by decide, hk, rfl, fun st => ?_, fun hlt => ?_⟩
  · simp [strides, visit, Prod.ext_iff, hok]
  · have hnat := hb.toNat_page hlt.le
    refine ⟨?_, hb.drop hlt, ?_⟩
    · unfold Within at hbw
      rw [pteIndex, tableIndex_eq, tableIndex_eq, hnat]
      omega
    · unfold Within at hbw ⊢
      rw [hnat]
      omega

/-- One level of the walk: if below each entry the walk visits the entries of its pages, the loop
visits the entries of all pages of the range.
Kind: L -/
theorem sweep_level {τ : Type} {shift : ℕ} (hs : 12 ≤ shift) (hs' : shift < 64)
    {table : ℕ → Option τ} {walkTable : τ → Addr → Addr → σ → Option (σ × ℤ)}
    {entry : Addr → Option Pte} {i : ℕ} (h : PageRange a n)
    (hbelow : ∀ b m, PageRange b m → Within shift b m → m ≤ n → a.toNat ≤ b.toNat →
      b.toNat + m * 4096 ≤ a.toNat + n * 4096 →
      (table (i + (b.toNat / 2 ^ shift - a.toNat / 2 ^ shift)) = none →
        ∀ p ∈ strides 4096 b m, entry p = none) ∧
      ∀ t, table (i + (b.toNat / 2 ^ shift - a.toNat / 2 ^ shift)) = some t → ∀ st,
        walkTable t b (b + BitVec.ofNat 64 (m * 4096)) st =
          some ((strides 4096 b m).foldl (visit pteEntry entry) st, 0))
    (hfuel : n ≤ fuel) (st : σ) :
    sweep (addrEnd shift) (walkEntry table walkTable) fuel i a
        (a + BitVec.ofNat 64 (n * 4096)) st =
      some ((strides 4096 a n).foldl (visit pteEntry entry) st, 0) := by
  refine sweep_eq_foldl
    (Q := fun j b k => PageRange b k ∧ k ≤ n ∧ a.toNat ≤ b.toNat ∧
      b.toNat + k * 4096 ≤ a.toNat + n * 4096 ∧
      j = i + (b.toNat / 2 ^ shift - a.toNat / 2 ^ shift))
    (fun j b k hk hwrap hQ => ?_) (by decide) h.pos hfuel h.noWrap
    ⟨h, le_rfl, le_rfl, le_rfl, by simp⟩ st
  obtain ⟨hb, hkn, hle, hend, rfl⟩ := hQ
  obtain ⟨m, hm, hmk, hnext, hw, hrest⟩ := addrEnd_pages hs hs' hb
  refine ⟨m, hm, hmk, hnext, fun st => ?_, fun hlt => ?_⟩
  · have hmend : b.toNat + m * 4096 ≤ a.toNat + n * 4096 :=
      (Nat.add_le_add_left (Nat.mul_le_mul_right 4096 hmk) _).trans hend
    obtain ⟨hnone, hsome⟩ := hbelow b m (hb.take hm hmk) hw (hmk.trans hkn) hle hmend
    unfold walkEntry
    split
    · rename_i ht
      rw [foldl_visit_none (hnone ht)]
    · rename_i t ht
      exact hsome t ht st
  · have hnat := hb.toNat_page hmk
    refine ⟨hb.drop hlt, by omega, by omega, by omega, ?_⟩
    have hmono : a.toNat / 2 ^ shift ≤ b.toNat / 2 ^ shift := Nat.div_le_div_right hle
    rw [hnat, hrest hlt]
    omega

/-- Inside one entry of the level above, the indexes of a level count up with the addresses.
Kind: L -/
theorem tableIndex_add_of_div {shift : ℕ} {b : Addr} (hle : a.toNat ≤ b.toNat)
    (hupper : b.toNat / 2 ^ (shift + 9) = a.toNat / 2 ^ (shift + 9)) :
    tableIndex shift a + (b.toNat / 2 ^ shift - a.toNat / 2 ^ shift) = tableIndex shift b := by
  have hmono : a.toNat / 2 ^ shift ≤ b.toNat / 2 ^ shift := Nat.div_le_div_right hle
  rw [Nat.pow_add, ← Nat.div_div_eq_div_mul, ← Nat.div_div_eq_div_mul] at hupper
  rw [tableIndex_eq, tableIndex_eq]
  omega

/-- The same for a range of pages inside one entry of the level above.
Kind: L -/
theorem tableIndex_add {shift m : ℕ} {b : Addr} (hw : Within (shift + 9) a n)
    (hb : PageRange b m) (hle : a.toNat ≤ b.toNat)
    (hend : b.toNat + m * 4096 ≤ a.toNat + n * 4096) :
    tableIndex shift a + (b.toNat / 2 ^ shift - a.toNat / 2 ^ shift) = tableIndex shift b := by
  have hpos := hb.pos
  refine tableIndex_add_of_div hle (le_antisymm ?_ (Nat.div_le_div_right hle))
  rw [← hw]
  exact Nat.div_le_div_right (by omega)

/-- The index of the pages below one entry.
Kind: L -/
theorem Within.tableIndex_eq {shift : ℕ} (hw : Within shift a n) (h : PageRange a n) {p : Addr}
    (hp : p ∈ strides 4096 a n) : tableIndex shift p = tableIndex shift a := by
  rw [Driver.tableIndex_eq, Driver.tableIndex_eq, hw.div_eq h hp]

/-- The walk of a third-level table below one second-level entry.
Source: `xt_TOGPU_pagewalk.c` 53–95
Kind: L -/
theorem walkPmdRange_spec (hok : ∀ pte p st, (pteEntry pte p st).2 = 0) (pmd : ℕ → Pmd)
    (h : PageRange a n) (hw : Within 30 a n) (hfuel : n ≤ fuel) (st : σ) :
    walkPmdRange pteEntry fuel pmd a (a + BitVec.ofNat 64 (n * 4096)) st =
      some ((strides 4096 a n).foldl (visit pteEntry (pteOfPmd pmd)) st, 0) := by
  refine sweep_level (by decide) (by decide) h (fun b m hb hbw hmn hle hend => ?_) hfuel st
  have hidx : ∀ p ∈ strides 4096 b m, pmdIndex p = pmdIndex b := fun p hp => hbw.tableIndex_eq hb hp
  rw [show pmdIndex a + (b.toNat / 2 ^ 21 - a.toNat / 2 ^ 21) = pmdIndex b from
    tableIndex_add hw hb hle hend]
  constructor
  · intro hnone p hp
    rw [pteOfPmd, hidx p hp, hnone]
    rfl
  · intro t ht st
    rw [walkPteRange_spec hok t hb hbw (hmn.trans hfuel)]
    congr 2
    apply foldl_visit_congr
    intro p hp
    rw [pteOfPmd, hidx p hp, ht]
    rfl

/-- The walk of a second-level table below one first-level entry.
Source: `xt_TOGPU_pagewalk.c` 97–123
Kind: L -/
theorem walkPudRange_spec (hok : ∀ pte p st, (pteEntry pte p st).2 = 0) (pud : ℕ → Pud)
    (h : PageRange a n) (hw : Within 39 a n) (hfuel : n ≤ fuel) (st : σ) :
    walkPudRange pteEntry fuel pud a (a + BitVec.ofNat 64 (n * 4096)) st =
      some ((strides 4096 a n).foldl (visit pteEntry (pteOfPud pud)) st, 0) := by
  refine sweep_level (by decide) (by decide) h (fun b m hb hbw hmn hle hend => ?_) hfuel st
  have hidx : ∀ p ∈ strides 4096 b m, pudIndex p = pudIndex b := fun p hp => hbw.tableIndex_eq hb hp
  rw [show pudIndex a + (b.toNat / 2 ^ 30 - a.toNat / 2 ^ 30) = pudIndex b from
    tableIndex_add hw hb hle hend]
  constructor
  · intro hnone p hp
    rw [pteOfPud, hidx p hp, hnone]
    rfl
  · intro t ht st
    rw [walkPmdRange_spec hok t hb hbw (hmn.trans hfuel)]
    congr 2
    apply foldl_visit_congr
    intro p hp
    rw [pteOfPud, hidx p hp, ht]
    rfl

/-- The first-level entry the walk is at when it comes to an address: entries are counted from that
of the start.
Source: `xt_TOGPU_pagewalk.c` 222, 253, 261
Kind: D -/
def pgdReached (a p : Addr) : ℕ := pgdIndex a + (p.toNat / 2 ^ 39 - a.toNat / 2 ^ 39)

/-- **What the walk visits**: the last-level entries of the pages of an aligned range, in order of
their addresses. Where there is none, nothing is visited and nothing is reported.
Source: `xt_TOGPU_pagewalk.c` 210–264
Kind: P
Hyps: (a) the callback reports no error -/
theorem walkPage_spec (hok : ∀ pte p st, (pteEntry pte p st).2 = 0) (mm : MmStruct)
    (h : PageRange a n) (hfuel : n ≤ fuel) (st : σ) :
    walkPage pteEntry fuel mm a (a + BitVec.ofNat 64 (n * 4096)) st =
      some ((strides 4096 a n).foldl
        (visit pteEntry fun p => pteBelow mm (pgdReached a p) p) st, 0) := by
  have hlt : ¬a ≥ a + BitVec.ofNat 64 (n * 4096) := by
    have hpos := h.pos
    rw [ge_iff_le, BitVec.le_def, h.toNat_page le_rfl]
    omega
  rw [walkPage, if_neg hlt]
  refine sweep_level (by decide) (by decide) h (fun b m hb hbw hmn hle hend => ?_) hfuel st
  have hidx : ∀ p ∈ strides 4096 b m,
      pgdReached a p = pgdIndex a + (b.toNat / 2 ^ 39 - a.toNat / 2 ^ 39) := by
    intro p hp
    rw [pgdReached, hbw.div_eq hb hp]
  constructor
  · intro hnone p hp
    rw [pteBelow, hidx p hp, hnone]
    rfl
  · intro t ht st
    rw [walkPudRange_spec hok t hb hbw (hmn.trans hfuel)]
    congr 2
    apply foldl_visit_congr
    intro p hp
    rw [pteBelow, hidx p hp, ht]
    rfl

end spec

end Togpu.Driver
