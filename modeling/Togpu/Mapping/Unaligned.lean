import Togpu.Mapping.PageList

/-!
# Ranges that are not whole pages

`nfgpu_set_mempool` passes `uva` and `uva + size` to `walk_page` as they come from user space. The
upper levels of the walk cut the range at the boundaries of their tables; the last level steps by
`PAGE_SIZE` and stops only when it meets the end of its part exactly.

* `logged` — a callback with a log of the addresses it is called for.
* `WalkEnds` — the walk returns, and every address of the log is in the range.
* `pieceLen`, `WholePieces` — the part of a range in one block of 2 MB; all such parts that have a
  last-level table are whole numbers of pages.
* `Judged` — a loop of the walk returns iff the parts of its range are whole; `Level` — one level
  over walks that are. So it is for each level (`walkPteRange_judged`, `sweep_judged`,
  `walkPage_judged`).
* **The walk ends and stays in its range iff its parts are whole** (`walkEnds_iff`).
-/

namespace Togpu.Driver

open Togpu.Lib

/-! ## What is asked of a walk -/

/-- A callback with a log of the addresses it is called for.
Kind: D -/
def logged {σ : Type} (pteEntry : Pte → Addr → σ → σ × ℤ) (pte : Pte) (addr : Addr)
    (st : σ × List Addr) : (σ × List Addr) × ℤ :=
  (((pteEntry pte addr st.1).1, st.2 ++ [addr]), (pteEntry pte addr st.1).2)

/-- The walk of `[uva, uva + size)` returns 0 after some number of rounds, and every address it
calls back for is between the start of the page of `uva` and the end of the range.
Source: `xt_TOGPU_main.c` 406
Kind: D -/
def WalkEnds {σ : Type} (pteEntry : Pte → Addr → σ → σ × ℤ) (mm : MmStruct) (uva : Addr)
    (size : BitVec 64) (st : σ) : Prop :=
  ∃ fuel st', walkPage (logged pteEntry) fuel mm uva (uva + size) (st, []) = some (st', 0) ∧
    ∀ p ∈ st'.2, uva.toNat - uva.toNat % 4096 ≤ p.toNat ∧ p.toNat < (uva + size).toNat

/-! ## The parts of a range -/

/-- How much of `[a, e)` lies in the block of 2 MB around `x`: the part one last-level table covers.
Kind: D -/
def pieceLen (a e x : ℕ) : ℕ := min e ((x / 2 ^ 21 + 1) * 2 ^ 21) - max a (x / 2 ^ 21 * 2 ^ 21)

/-- Wherever the range has a last-level table, its part below that table is a whole number of pages.
Kind: D -/
def WholePieces (entry : Addr → Option Pte) (a e : ℕ) : Prop :=
  ∀ x : Addr, a ≤ x.toNat → x.toNat < e → (entry x).isSome → pieceLen a e x.toNat % 4096 = 0

section pieces

variable {entry entry' : Addr → Option Pte} {a e m : ℕ}

/-- Only the entries of the range matter.
Kind: L -/
theorem WholePieces.congr (h : ∀ x : Addr, a ≤ x.toNat → x.toNat < e → entry x = entry' x)
    (hw : WholePieces entry a e) : WholePieces entry' a e := by
  intro x hax hxe hsome
  rw [← h x hax hxe] at hsome
  exact hw x hax hxe hsome

/-- A range cut at a block boundary: its parts are those of the two halves.
Kind: L -/
theorem wholePieces_split (ham : a < m) (hme : m < e) (hm : m % 2 ^ 21 = 0) :
    WholePieces entry a e ↔ WholePieces entry a m ∧ WholePieces entry m e := by
  have hleft : ∀ x, x < m → pieceLen a e x = pieceLen a m x := by
    intro x hx
    unfold pieceLen
    omega
  have hright : ∀ x, m ≤ x → pieceLen a e x = pieceLen m e x := by
    intro x hx
    unfold pieceLen
    omega
  constructor
  · intro h
    refine ⟨fun x hax hxm hsome => ?_, fun x hmx hxe hsome => ?_⟩
    · rw [← hleft _ hxm]
      exact h x hax (by omega) hsome
    · rw [← hright _ hmx]
      exact h x (by omega) hxe hsome
  · rintro ⟨hl, hr⟩ x hax hxe hsome
    rcases Nat.lt_or_ge x.toNat m with hxm | hmx
    · rw [hleft _ hxm]
      exact hl x hax hxm hsome
    · rw [hright _ hmx]
      exact hr x hmx hxe hsome

end pieces

/-- A range inside one block with an entry at every address is one part.
Kind: L -/
theorem wholePieces_block {pte : ℕ → Pte} {b e : Addr} (hbe : b.toNat < e.toNat)
    (hblock : (e.toNat - 1) / 2 ^ 21 = b.toNat / 2 ^ 21) :
    WholePieces (fun x => some (pte (pteIndex x))) b.toNat e.toNat ↔
      (e.toNat - b.toNat) % 4096 = 0 := by
  have hlen : ∀ x, b.toNat ≤ x → x < e.toNat → pieceLen b.toNat e.toNat x = e.toNat - b.toNat := by
    intro x hbx hxe
    unfold pieceLen
    omega
  constructor
  · intro h
    rw [← hlen _ le_rfl hbe]
    exact h b le_rfl hbe rfl
  · intro h x hbx hxe _
    rw [hlen _ hbx hxe]
    exact h

/-! ## The loops -/

section judged

variable {σ : Type} {R : σ → σ → Prop} {pteEntry : Pte → Addr → σ → σ × ℤ} {fuel lo hi : ℕ}
  {enough : Prop}

/-- A callback that reports no error and, on addresses of `[lo, hi)`, changes the state only as `R`
allows.
Kind: D -/
structure Traced (R : σ → σ → Prop) (pteEntry : Pte → Addr → σ → σ × ℤ) (lo hi : ℕ) : Prop where
  /-- Doing nothing is allowed. -/
  refl : ∀ s, R s s
  /-- One change after another is allowed. -/
  trans : ∀ s t u, R s t → R t u → R s u
  /-- The callback reports no error. -/
  ok : ∀ pte p st, (pteEntry pte p st).2 = 0
  /-- What it does on an address of the range is allowed. -/
  step : ∀ pte p st, lo ≤ p.toNat → p.toNat < hi → R st (pteEntry pte p st).1

/-- A loop over `[b, e)` returns only if the parts of the range are whole, and then, with enough
rounds, it returns 0 with a state related by `R`.
Kind: D -/
structure Judged (R : σ → σ → Prop) (enough : Prop) (walk : σ → Option (σ × ℤ))
    (entry : Addr → Option Pte) (b e : Addr) : Prop where
  /-- What a loop that returns has shown. -/
  sound : ∀ {st st' err}, walk st = some (st', err) →
    err = 0 ∧ WholePieces entry b.toNat e.toNat
  /-- When the loop returns. -/
  complete : enough → WholePieces entry b.toNat e.toNat →
    ∀ st, ∃ st', walk st = some (st', 0) ∧ R st st'

/-- Only the entries of the range matter.
Kind: L -/
theorem Judged.congr {walk : σ → Option (σ × ℤ)} {entry entry' : Addr → Option Pte}
    {b e : Addr} (h : ∀ x : Addr, b.toNat ≤ x.toNat → x.toNat < e.toNat → entry x = entry' x)
    (hj : Judged R enough walk entry b e) : Judged R enough walk entry' b e where
  sound := by
    intro st st' err hrun
    obtain ⟨herr, hw⟩ := hj.sound hrun
    exact ⟨herr, hw.congr h⟩
  complete := fun hen hw => hj.complete hen (hw.congr fun x hbx hxe => (h x hbx hxe).symm)

/-- The last level returns iff the length of its part is a multiple of the page size: stepping by
pages never meets another end, also after the addresses have wrapped.
Source: `xt_TOGPU_pagewalk.c` 33–51
Kind: L -/
theorem walkPteRange_judged (hcb : Traced R pteEntry lo hi) (pte : ℕ → Pte) {b e : Addr}
    (hbe : b.toNat < e.toNat)
    (hblock : (e.toNat - 1) / 2 ^ 21 = b.toNat / 2 ^ 21) (hlo : lo ≤ b.toNat) (hhi : e.toNat ≤ hi) :
    Judged R (hi - lo < fuel) (walkPteRange pteEntry fuel pte b e)
      (fun x => some (pte (pteIndex x))) b e where
  sound := by
    intro st st' err hrun
    rw [wholePieces_block hbe hblock]
    have hends := sweep_ends (I := fun _ _ => True) (G := fun _ a => (e - a).toNat % 4096 = 0)
      (fun i a st st' err _ hbody => ?_) trivial hrun
    · refine ⟨hends.1, ?_⟩
      have hdist := hends.2
      rwa [BitVec.toNat_sub_of_le (BitVec.le_def.mpr hbe.le)] at hdist
    · simp only [Option.some.injEq] at hbody
      have herr := hcb.ok (pte i) a st
      rw [hbody] at herr
      refine ⟨herr, fun hlast => ?_, fun _ => ⟨trivial, fun hdist => ?_⟩⟩
      · rw [← hlast]
        bv_omega
      · bv_omega
  complete := by
    intro hfuel hw st
    rw [wholePieces_block hbe hblock] at hw
    refine sweep_end (R := R)
      (I := fun _ a => lo ≤ a.toNat ∧ a.toNat < e.toNat ∧ (e.toNat - a.toNat) % 4096 = 0)
      (μ := fun a => e.toNat - a.toNat) hcb.trans (fun i a st hI => ?_) ⟨hlo, hbe, hw⟩
      (show e.toNat - b.toNat < fuel by omega) st
    obtain ⟨hla, hae, hdist⟩ := hI
    have he := e.isLt
    have hnext : (a + 4096).toNat = a.toNat + 4096 := by bv_omega
    refine ⟨(pteEntry (pte i) a st).1, ?_, hcb.step _ _ _ hla (by omega), fun hne => ?_⟩
    · rw [← hcb.ok (pte i) a st]
    · have hlt : (a + 4096).toNat ≠ e.toNat := fun h => hne (BitVec.eq_of_toNat_eq h)
      omega

/-- One round of an upper level: judged by its part of the range if the table below is.
Kind: L -/
theorem walkEntry_judged (hrefl : ∀ s, R s s) {τ : Type} {table : ℕ → Option τ}
    {walkTable : τ → Addr → Addr → σ → Option (σ × ℤ)} {entry : Addr → Option Pte} {i : ℕ}
    {b e : Addr}
    (hnone : table i = none → ∀ x : Addr, b.toNat ≤ x.toNat → x.toNat < e.toNat → entry x = none)
    (hsome : ∀ t, table i = some t → Judged R enough (walkTable t b e) entry b e) :
    Judged R enough (walkEntry table walkTable i b e) entry b e := by
  cases ht : table i with
  | none =>
      refine ⟨fun hrun => ?_, fun _ _ st => ⟨st, by simp only [walkEntry, ht], hrefl st⟩⟩
      simp only [walkEntry, ht, Option.some.injEq, Prod.mk.injEq] at hrun
      refine ⟨hrun.2.symm, fun x hbx hxe hx => ?_⟩
      rw [hnone ht x hbx hxe] at hx
      cases hx
  | some t =>
      obtain ⟨hsound, hcomplete⟩ := hsome t ht
      refine ⟨fun hrun => ?_, fun hen hw st => ?_⟩
      · simp only [walkEntry, ht] at hrun
        exact hsound hrun
      · simp only [walkEntry, ht]
        exact hcomplete hen hw st

/-- The part of a range that one entry covers, and where the next part starts.
Kind: L -/
theorem addrEnd_part {shift : ℕ} (hs : 21 ≤ shift) (hs' : shift < 64) {b stop : Addr}
    (hbs : b.toNat < stop.toNat) :
    b.toNat < (addrEnd shift b stop).toNat ∧ (addrEnd shift b stop).toNat ≤ stop.toNat ∧
      ((addrEnd shift b stop).toNat - 1) / 2 ^ shift = b.toNat / 2 ^ shift ∧
      (addrEnd shift b stop ≠ stop → (addrEnd shift b stop).toNat < stop.toNat ∧
        (addrEnd shift b stop).toNat / 2 ^ shift = b.toNat / 2 ^ shift + 1 ∧
        (addrEnd shift b stop).toNat % 2 ^ 21 = 0) := by
  have hpos : 0 < 2 ^ shift := Nat.two_pow_pos shift
  have hend := addrEnd_toNat hs' (BitVec.lt_def.mpr hbs)
  have hhigh : b.toNat < (b.toNat / 2 ^ shift + 1) * 2 ^ shift :=
    Nat.lt_mul_of_div_lt (Nat.lt_succ_self _) hpos
  have hlow : b.toNat / 2 ^ shift * 2 ^ shift ≤ b.toNat := Nat.div_mul_le_self _ _
  refine ⟨by omega, by omega, ?_, fun hne => ?_⟩
  · apply Nat.div_eq_of_lt_le
    · omega
    · omega
  · have hstop : (addrEnd shift b stop).toNat ≠ stop.toNat := fun h =>
      hne (BitVec.eq_of_toNat_eq h)
    have hval : (addrEnd shift b stop).toNat = (b.toNat / 2 ^ shift + 1) * 2 ^ shift := by omega
    refine ⟨by omega, ?_, ?_⟩
    · rw [hval, Nat.mul_div_cancel _ hpos]
    · rw [hval]
      exact Nat.mod_eq_zero_of_dvd (dvd_mul_of_dvd_right (Nat.pow_dvd_pow 2 hs) _)

/-- One level of the walk over `[a, stop)`: entries cover `2 ^ shift` bytes and are counted from
entry `i` at the start of the range, and below each of them the walk is judged by its part.
Kind: D -/
structure Level (R : σ → σ → Prop) (enough : Prop) {τ : Type} (shift : ℕ) (table : ℕ → Option τ)
    (walkTable : τ → Addr → Addr → σ → Option (σ × ℤ)) (entry : Addr → Option Pte)
    (below : τ → Addr → Option Pte) (i : ℕ) (a stop : Addr) : Prop where
  /-- An entry covers at least what one last-level table does. -/
  le_shift : 21 ≤ shift
  /-- It covers less than the address space. -/
  shift_lt : shift < 64
  /-- The entry of an address is found in the table the loop is at. -/
  entry_eq : ∀ x : Addr, a.toNat ≤ x.toNat → x.toNat < stop.toNat →
    entry x = (table (i + (x.toNat / 2 ^ shift - a.toNat / 2 ^ shift))).bind fun t => below t x
  /-- The walk of each part below one entry is judged. -/
  judged : ∀ t (b e : Addr), a.toNat ≤ b.toNat → b.toNat < e.toNat → e.toNat ≤ stop.toNat →
    (e.toNat - 1) / 2 ^ shift = b.toNat / 2 ^ shift →
    Judged R enough (walkTable t b e) (below t) b e

section level

variable {τ : Type} {shift : ℕ} {table : ℕ → Option τ}
  {walkTable : τ → Addr → Addr → σ → Option (σ × ℤ)} {entry : Addr → Option Pte}
  {below : τ → Addr → Option Pte} {i : ℕ} {a stop : Addr}

/-- The round at `b` is judged by its part of the range.
Kind: L -/
theorem Level.round (h : Level R enough shift table walkTable entry below i a stop)
    (hrefl : ∀ s, R s s) {b : Addr} (hab : a.toNat ≤ b.toNat) (hbs : b.toNat < stop.toNat) :
    Judged R enough (walkEntry table walkTable (i + (b.toNat / 2 ^ shift - a.toNat / 2 ^ shift)) b
      (addrEnd shift b stop)) entry b (addrEnd shift b stop) := by
  obtain ⟨hbn, hns, hblock, -⟩ := addrEnd_part h.le_shift h.shift_lt hbs
  have hsame : ∀ x : Addr, b.toNat ≤ x.toNat → x.toNat < (addrEnd shift b stop).toNat →
      entry x =
        (table (i + (b.toNat / 2 ^ shift - a.toNat / 2 ^ shift))).bind fun t => below t x := by
    intro x hbx hxn
    have hdiv : x.toNat / 2 ^ shift = b.toNat / 2 ^ shift := by
      refine le_antisymm ?_ (Nat.div_le_div_right hbx)
      rw [← hblock]
      exact Nat.div_le_div_right (by omega)
    rw [h.entry_eq x (by omega) (by omega), hdiv]
  refine walkEntry_judged hrefl (fun hnone x hbx hxn => ?_) fun t ht => ?_
  · rw [hsame x hbx hxn, hnone]
    rfl
  · refine (h.judged t b _ hab hbn hns hblock).congr fun x hbx hxn => ?_
    rw [hsame x hbx hxn, ht]
    rfl

/-- The index of the round after the one at `b`.
Kind: L -/
theorem index_succ (i : ℕ) {b : Addr} (hab : a.toNat ≤ b.toNat) :
    i + (b.toNat / 2 ^ shift - a.toNat / 2 ^ shift) + 1 =
      i + (b.toNat / 2 ^ shift + 1 - a.toNat / 2 ^ shift) := by
  have hmono : a.toNat / 2 ^ shift ≤ b.toNat / 2 ^ shift := Nat.div_le_div_right hab
  omega

/-- A loop over the entries that returns has met whole parts only.
Kind: L -/
theorem Level.sound (h : Level R enough shift table walkTable entry below i a stop)
    (hrefl : ∀ s, R s s) (hlt : a.toNat < stop.toNat) {st st' : σ} {err : ℤ}
    (hrun : sweep (addrEnd shift) (walkEntry table walkTable) fuel i a stop st = some (st', err)) :
    err = 0 ∧ WholePieces entry a.toNat stop.toNat := by
  refine sweep_ends
    (I := fun j b => a.toNat ≤ b.toNat ∧ b.toNat < stop.toNat ∧
      j = i + (b.toNat / 2 ^ shift - a.toNat / 2 ^ shift))
    (G := fun _ b => WholePieces entry b.toNat stop.toNat)
    (fun j b st st' err hI hbody => ?_) ⟨le_rfl, hlt, by omega⟩ hrun
  obtain ⟨hab, hbs, rfl⟩ := hI
  obtain ⟨hbn, -, -, hnext⟩ := addrEnd_part h.le_shift h.shift_lt hbs
  obtain ⟨herr, hpiece⟩ := (h.round hrefl hab hbs).sound hbody
  refine ⟨herr, fun hlast => hlast ▸ hpiece, fun hne => ?_⟩
  obtain ⟨hns, hdiv, hmod⟩ := hnext hne
  refine ⟨⟨by omega, hns, ?_⟩, fun hrest => (wholePieces_split hbn hns hmod).mpr ⟨hpiece, hrest⟩⟩
  rw [hdiv, index_succ i hab]

/-- A loop over the entries returns if its parts are whole.
Kind: L -/
theorem Level.complete (h : Level R enough shift table walkTable entry below i a stop)
    (hrefl : ∀ s, R s s) (htrans : ∀ s t u, R s t → R t u → R s u) (hlt : a.toNat < stop.toNat)
    (hen : enough) (hfuel : stop.toNat - a.toNat < fuel)
    (hw : WholePieces entry a.toNat stop.toNat) (st : σ) :
    ∃ st', sweep (addrEnd shift) (walkEntry table walkTable) fuel i a stop st = some (st', 0) ∧
      R st st' := by
  refine sweep_end (R := R)
    (I := fun j b => a.toNat ≤ b.toNat ∧ b.toNat < stop.toNat ∧
      j = i + (b.toNat / 2 ^ shift - a.toNat / 2 ^ shift) ∧ WholePieces entry b.toNat stop.toNat)
    (μ := fun b => stop.toNat - b.toNat) htrans (fun j b st hI => ?_)
    ⟨le_rfl, hlt, by omega, hw⟩ hfuel st
  obtain ⟨hab, hbs, rfl, hwb⟩ := hI
  obtain ⟨hbn, -, -, hnext⟩ := addrEnd_part h.le_shift h.shift_lt hbs
  by_cases hne : addrEnd shift b stop = stop
  · obtain ⟨st', hrun, hR⟩ := (h.round hrefl hab hbs).complete hen (hne.symm ▸ hwb) st
    exact ⟨st', hrun, hR, fun h => absurd hne h⟩
  · obtain ⟨hns, hdiv, hmod⟩ := hnext hne
    obtain ⟨hpiece, hrest⟩ := (wholePieces_split hbn hns hmod).mp hwb
    obtain ⟨st', hrun, hR⟩ := (h.round hrefl hab hbs).complete hen hpiece st
    refine ⟨st', hrun, hR, fun _ => ⟨⟨by omega, hns, ?_, hrest⟩, by omega⟩⟩
    rw [hdiv, index_succ i hab]

/-- One level of the walk: the loop over the entries is judged by the parts of its range.
Kind: L -/
theorem sweep_judged (h : Level R enough shift table walkTable entry below i a stop)
    (hrefl : ∀ s, R s s) (htrans : ∀ s t u, R s t → R t u → R s u) (hlt : a.toNat < stop.toNat)
    (hfuel : enough → stop.toNat - a.toNat < fuel) :
    Judged R enough (sweep (addrEnd shift) (walkEntry table walkTable) fuel i a stop) entry a
      stop where
  sound := fun hrun => h.sound hrefl hlt hrun
  complete := fun hen hw st => h.complete hrefl htrans hlt hen (hfuel hen) hw st

end level

/-- The walk of a third-level table below one second-level entry.
Source: `xt_TOGPU_pagewalk.c` 53–95
Kind: L -/
theorem walkPmdRange_judged (hcb : Traced R pteEntry lo hi) (pmd : ℕ → Pmd) {a e : Addr}
    (hae : a.toNat < e.toNat)
    (hblock : (e.toNat - 1) / 2 ^ 30 = a.toNat / 2 ^ 30) (hlo : lo ≤ a.toNat) (hhi : e.toNat ≤ hi) :
    Judged R (hi - lo < fuel) (walkPmdRange pteEntry fuel pmd a e) (pteOfPmd pmd) a e := by
  refine sweep_judged ⟨by decide, by decide, fun x hax hxe => ?_, fun t b e' hab hbe hee hb =>
    walkPteRange_judged hcb t hbe hb (by omega) (by omega)⟩ hcb.refl hcb.trans hae (by omega)
  rw [show pmdIndex a + (x.toNat / 2 ^ 21 - a.toNat / 2 ^ 21) = pmdIndex x from
    tableIndex_add_of_div hax (by omega), pteOfPmd, Option.map_eq_bind]
  rfl

/-- The walk of a second-level table below one first-level entry.
Source: `xt_TOGPU_pagewalk.c` 97–123
Kind: L -/
theorem walkPudRange_judged (hcb : Traced R pteEntry lo hi) (pud : ℕ → Pud) {a e : Addr}
    (hae : a.toNat < e.toNat)
    (hblock : (e.toNat - 1) / 2 ^ 39 = a.toNat / 2 ^ 39) (hlo : lo ≤ a.toNat) (hhi : e.toNat ≤ hi) :
    Judged R (hi - lo < fuel) (walkPudRange pteEntry fuel pud a e) (pteOfPud pud) a e := by
  refine sweep_judged ⟨by decide, by decide, fun x hax hxe => ?_, fun t b e' hab hbe hee hb =>
    walkPmdRange_judged hcb t hbe hb (by omega) (by omega)⟩ hcb.refl hcb.trans hae (by omega)
  rw [show pudIndex a + (x.toNat / 2 ^ 30 - a.toNat / 2 ^ 30) = pudIndex x from
    tableIndex_add_of_div hax (by omega), pteOfPud]

/-- The walk of a page table.
Source: `xt_TOGPU_pagewalk.c` 210–264
Kind: L -/
theorem walkPage_judged {a e : Addr} (hcb : Traced R pteEntry a.toNat e.toNat) (mm : MmStruct)
    (hae : a.toNat < e.toNat) :
    Judged R (e.toNat - a.toNat < fuel) (walkPage pteEntry fuel mm a e)
      (fun x => pteBelow mm (pgdReached a x) x) a e := by
  have hlt : ¬a ≥ e := by
    rw [ge_iff_le, BitVec.le_def]
    omega
  have hsweep : Judged R (e.toNat - a.toNat < fuel) (sweep pgdAddrEnd
      (walkEntry (fun i => (mm.pgd i).puds) (walkPudRange pteEntry fuel)) fuel (pgdIndex a) a e)
      (fun x => pteBelow mm (pgdReached a x) x) a e := by
    exact sweep_judged ⟨by decide, by decide, fun x hax hxe => rfl, fun t b e' hab hbe hee hb =>
      walkPudRange_judged hcb t hbe hb hab hee⟩ hcb.refl hcb.trans hae id
  refine ⟨fun hrun => ?_, fun hen hw st => ?_⟩
  · rw [walkPage, if_neg hlt] at hrun
    exact hsweep.sound hrun
  · rw [walkPage, if_neg hlt]
    exact hsweep.complete hen hw st

end judged

/-! ## The condition -/

section ends

variable {σ : Type} {pteEntry : Pte → Addr → σ → σ × ℤ} {mm : MmStruct} {uva : Addr}
  {size : BitVec 64} {st : σ}

/-- The log of a callback grows by addresses of `[lo, hi)`.
Kind: L -/
theorem logged_traced (hok : ∀ pte p st, (pteEntry pte p st).2 = 0) (lo hi : ℕ) :
    Traced (fun s t : σ × List Addr => ∀ p ∈ t.2, p ∈ s.2 ∨ lo ≤ p.toNat ∧ p.toNat < hi)
      (logged pteEntry) lo hi where
  refl := fun _ _ hp => .inl hp
  trans := by
    intro s t u hst htu p hp
    rcases htu p hp with hpt | hin
    · exact hst p hpt
    · exact .inr hin
  ok := fun pte p st => hok pte p st.1
  step := by
    intro pte p st hlo hhi q hq
    rcases List.mem_append.mp hq with hold | hnew
    · exact .inl hold
    · rw [List.mem_singleton.mp hnew]
      exact .inr ⟨hlo, hhi⟩

/-- A walk that returns has met the end of each of its parts.
Kind: L -/
theorem WalkEnds.wholePieces (hok : ∀ pte p st, (pteEntry pte p st).2 = 0)
    (hlt : uva < uva + size) (h : WalkEnds pteEntry mm uva size st) :
    WholePieces (fun x => pteBelow mm (pgdReached uva x) x) uva.toNat (uva + size).toNat := by
  obtain ⟨fuel, st', hrun, -⟩ := h
  exact ((walkPage_judged (logged_traced hok _ _) mm (BitVec.lt_def.mp hlt)).sound hrun).2

/-- A walk whose parts are whole returns, and has called back for addresses of its range only.
Kind: L -/
theorem WholePieces.walkEnds (hok : ∀ pte p st, (pteEntry pte p st).2 = 0)
    (hlt : uva < uva + size)
    (h : WholePieces (fun x => pteBelow mm (pgdReached uva x) x) uva.toNat (uva + size).toNat)
    (st : σ) : WalkEnds pteEntry mm uva size st := by
  obtain ⟨st', hrun, hlog⟩ := (walkPage_judged (logged_traced hok _ _) mm
    (BitVec.lt_def.mp hlt)).complete (Nat.lt_succ_self _) h (st, [])
  refine ⟨_, st', hrun, fun p hp => ?_⟩
  rcases hlog p hp with hempty | ⟨hlow, hhigh⟩
  · exact absurd hempty List.not_mem_nil
  · exact ⟨by omega, hhigh⟩

end ends

/-- The callback of the driver reports no error.
Source: `xt_TOGPU_main.c` 370
Kind: L -/
theorem nfgpuSkbPteEntry_ok (pte : Pte) (p : Addr) (drv : Globals) :
    (nfgpuSkbPteEntry pte p drv).2 = 0 := by
  unfold nfgpuSkbPteEntry
  split <;> rfl

/-- **The walk of a range from user space ends and stays in its range iff wherever the range has a
last-level table its part below that table is a whole number of pages.** For every start and size
that do not wrap, aligned or not, every page table and every callback that reports no error.
Source: `xt_TOGPU_pagewalk.c` 33–123, 212–269, `xt_TOGPU_main.c` 387–406
Kind: P
Fidelity: exact
Hyps: (a) the callback reports no error; (b) the range is not empty and does not wrap -/
theorem walkEnds_iff {σ : Type} {pteEntry : Pte → Addr → σ → σ × ℤ}
    (hok : ∀ pte p st, (pteEntry pte p st).2 = 0) (mm : MmStruct) {uva : Addr} {size : BitVec 64}
    (hlt : uva < uva + size) (st : σ) :
    WalkEnds pteEntry mm uva size st ↔
      WholePieces (fun x => pteBelow mm (pgdReached uva x) x) uva.toNat (uva + size).toNat :=
  ⟨fun h => h.wholePieces hok hlt, fun h => h.walkEnds hok hlt st⟩

/-- A page of memory that starts inside a page: the range is one part, and the walk ends.
Kind: C -/
theorem walkEnds_inside_page :
    WalkEnds nfgpuSkbPteEntry everyPage 0x7f0000000064 0x1000 nfgpuInternalInit := by
  refine (walkEnds_iff nfgpuSkbPteEntry_ok everyPage (by decide) _).mpr fun x hax hxe _ => ?_
  have hstart : (0x7f0000000064 : Addr).toNat = 0x7f0000000064 := rfl
  have hend : (0x7f0000000064 + 0x1000 : Addr).toNat = 0x7f0000001064 := rfl
  rw [hstart] at hax ⊢
  rw [hend] at hxe ⊢
  unfold pieceLen
  omega

/-- A range of 100 bytes at the start of a page that is present: the last level steps over its end,
and the walk does not return.
Kind: C -/
theorem not_walkEnds_hundred_bytes :
    (0x7f0000000000 : Addr) < 0x7f0000000000 + 100 ∧
      ¬WalkEnds nfgpuSkbPteEntry everyPage 0x7f0000000000 100 nfgpuInternalInit := by
  have hlt : (0x7f0000000000 : Addr) < 0x7f0000000000 + 100 := by decide
  refine ⟨hlt, fun h => ?_⟩
  have hpiece := h.wholePieces nfgpuSkbPteEntry_ok hlt 0x7f0000000000 le_rfl
    (BitVec.lt_def.mp hlt) rfl
  exact absurd hpiece (by decide)

end Togpu.Driver
