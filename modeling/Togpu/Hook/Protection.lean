import Togpu.Hook.Complete

/-!
# Page protection while text is patched

`symbol_hook` and `symbol_restore` make one page writable, the page of the function's first byte,
and then write five bytes. Here a store to a read-only page faults, and the operations are followed
byte by byte.

* `storeText` — bytes stored one after another, each only if its page is writable at that moment.
* `symbolHookFaulting`, `symbolRestoreFaulting` — the operations with these stores.
* `InReach` — the five bytes lie in one page, or the page after it is writable already.
* **The bits are put back** by every call, and **no store faults exactly when the five bytes are in
  reach** (`textStores_iff`).
-/

namespace Togpu.Hook

open Togpu.Driver Togpu.Lib Togpu.X86

/-! ## Faulting stores -/

/-- Store the bytes from `a` on, each if its page is writable; `none` is the page fault.
Kind: D -/
def storeText (k : Kernel) (a : Addr) : List (BitVec 8) → Option Kernel
  | [] => some k
  | b :: bs =>
      if k.rw (pageOf a) then storeText { k with mem := Function.update k.mem a b } (a + 1) bs
      else none

/-- `patch`, with stores that can fault.
Source: `xt_TOGPU_hook.c` 268–281
Kind: D -/
def patchFaulting (sym : KernSym) (code : Addr) (k : Kernel) : Option (KernSym × Kernel) :=
  let rw := setAddrRw k sym.addr
  let saved := fun j : Fin 5 => rw.2.mem (sym.addr + BitVec.ofNat 64 j.val)
  let offset := codeOffsetFromAddr sym.addr (BitVec.ofNat 64 opJmpSize) code
  (storeText rw.2 sym.addr (opJmpRel32 :: bytesLE 4 offset.toNat)).map fun k' =>
    ({ sym with origStartBytes := saved, hijacked := true }, setAddrRo k' sym.addr rw.1)

/-- `hookBody`, with stores to the text that can fault.
Source: `xt_TOGPU_hook.c` 222–287
Kind: D -/
def hookBodyFaulting (sym : KernSym) (code : Addr) (k : Kernel) : Option (ℤ × KernSym × Kernel) :=
  if sym.size.toNat < opJmpSize then some (-eFault, sym, mallocFree k sym.newAddr)
  else
    let endAddr := bodyEnd k.mem sym
    if sym.addr = endAddr then some (-eIlseq, sym, mallocFree k sym.newAddr)
    else
      match copyLoop sym endAddr sym.size.toNat ⟨k.mem, sym.addr, sym.newAddr⟩ with
      | none => none
      | some (.undecodable s) => some (-eIlseq, sym, mallocFree { k with mem := s.mem } sym.newAddr)
      | some (.done s) =>
          let copied := { sym with newSize := s.dest - sym.newAddr, run := sym.newAddr }
          (patchFaulting copied code { k with mem := s.mem }).map fun r => (0, r.1, r.2)

/-- `symbol_hook`, with stores to the text that can fault.
Source: `xt_TOGPU_hook.c` 193–287
Kind: D -/
def symbolHookFaulting (symtab : SymTab) (buf : Addr) (symbolName : String) (code : Addr)
    (sym : KernSym) (k : Kernel) : Option (ℤ × KernSym × Kernel) :=
  let r := findSymbolAddress symtab sym symbolName
  if r.1 < 0 then some (r.1, r.2, k)
  else if k.mem r.2.addr = opJmpRel32 then some (-eFault, r.2, k)
  else
    let sym := { r.2 with newAddr := buf }
    if buf = 0 then some (-eNomem, sym, k)
    else
      hookBodyFaulting sym code
        { k with mem := memset k.mem buf 0 sym.size.toNat, buffers := buf :: k.buffers }

/-- `symbol_restore`, with stores to the text that can fault.
Source: `xt_TOGPU_hook.c` 289–313
Kind: D -/
def symbolRestoreFaulting (sym : KernSym) (k : Kernel) : Option (KernSym × Kernel) :=
  let r :=
    if sym.hijacked then
      let rw := setAddrRw k sym.addr
      (storeText rw.2 sym.addr (List.ofFn sym.origStartBytes)).map fun k' =>
        ({ sym with hijacked := false }, mallocFree (setAddrRo k' sym.addr rw.1) sym.newAddr)
    else some (sym, k)
  r.map fun r => ({ r.1 with nameAlloc := false }, r.2)

/-! ## Where a store faults -/

section Stores

variable {k : Kernel} {sym : KernSym} {code a : Addr} {bs : List (BitVec 8)}

/-- The pages of `n` bytes from `a` on are writable.
Kind: D -/
def Writable (rw : Addr → Bool) (a : Addr) (n : ℕ) : Prop :=
  ∀ j, j < n → rw (pageOf (a + BitVec.ofNat 64 j)) = true

instance (rw : Addr → Bool) (a : Addr) (n : ℕ) : Decidable (Writable rw a n) :=
  inferInstanceAs (Decidable (∀ j, j < n → _))

/-- The first byte and the others.
Kind: L -/
theorem writable_succ {rw : Addr → Bool} {n : ℕ} :
    Writable rw a (n + 1) ↔ rw (pageOf a) = true ∧ Writable rw (a + 1) n := by
  have hnext : ∀ j, a + 1 + BitVec.ofNat 64 j = a + BitVec.ofNat 64 (j + 1) := by
    intro j
    rw [add_comm j 1, BitVec.ofNat_add, ← add_assoc]
    rfl
  unfold Writable
  rw [Nat.forall_lt_succ_left']
  simp only [BitVec.add_zero, hnext]

/-- **The bytes are stored exactly when all their pages are writable.**
Kind: L -/
theorem storeText_eq (hlen : bs.length ≤ 2 ^ 64) :
    storeText k a bs =
      if Writable k.rw a bs.length then some { k with mem := storeBytes k.mem a bs } else none := by
  induction bs generalizing k a with
  | nil => simp [storeText, Writable]
  | cons b bs ih =>
      rw [List.length_cons] at hlen
      rw [storeText, ih (by omega), storeBytes_cons _ _ _ (by omega)]
      simp only [List.length_cons, writable_succ]
      by_cases hfirst : k.rw (pageOf a) = true
      · simp only [hfirst, if_true, true_and]
        rfl
      · rw [if_neg hfirst, if_neg fun h => hfirst h.1]

/-- **Opening and closing the page** leaves every bit as it was.
Kind: L -/
theorem setAddrRo_setAddrRw_rw (mem : Addr → BitVec 8) :
    (setAddrRo { (setAddrRw k a).2 with mem := mem } a (setAddrRw k a).1).rw = k.rw := by
  unfold setAddrRo setAddrRw
  cases hbit : k.rw (pageOf a) with
  | true =>
      simp only [Bool.not_true, Bool.false_eq_true, if_false]
      exact Function.update_eq_self_iff.2 hbit.symm
  | false =>
      simp only [Bool.not_false, if_true, Function.update_idem]
      exact Function.update_eq_self_iff.2 hbit.symm

/-- What `patch` leaves in memory, byte by byte.
Kind: L -/
theorem storeBytes_jump (mem : Addr → BitVec 8) (a : Addr) (offset : ℕ) :
    storeBytes mem a (opJmpRel32 :: bytesLE 4 offset) =
      storeLE (Function.update mem a opJmpRel32) (a + 1) 4 offset := by
  rw [storeBytes_cons _ _ _ (by simp), storeLE_eq_storeBytes]
  rfl

/-- **Patching succeeds exactly when the five bytes are writable** once the page is open.
Kind: L -/
theorem patchFaulting_eq :
    patchFaulting sym code k =
      if Writable (setAddrRw k sym.addr).2.rw sym.addr 5 then some (patch sym code k)
      else none := by
  unfold patchFaulting
  dsimp only
  rw [storeText_eq (by simp)]
  simp only [List.length_cons, length_bytesLE, storeBytes_jump]
  split_ifs
  · rfl
  · rfl

/-- Patching leaves the bits as they were.
Kind: L -/
theorem patch_rw : (patch sym code k).2.rw = k.rw :=
  setAddrRo_setAddrRw_rw _

/-- What `symbol_restore` leaves in memory, byte by byte.
Kind: L -/
theorem storeBytes_orig (mem : Addr → BitVec 8) (a : Addr) (orig : Fin 5 → BitVec 8) :
    storeBytes mem a (List.ofFn orig) = fun x =>
      if h : (x - a).toNat < opJmpSize then orig ⟨(x - a).toNat, h⟩ else mem x := by
  funext x
  unfold storeBytes
  rw [List.getElem?_ofFn]
  by_cases h : (x - a).toNat < opJmpSize
  · rw [dif_pos (show (x - a).toNat < 5 from h), dif_pos h]
    rfl
  · rw [dif_neg (show ¬ (x - a).toNat < 5 from h), dif_neg h]
    rfl

end Stores

/-! ## The five bytes -/

/-- The five bytes at `a` lie in one page, or the page after it is writable.
Kind: D -/
def InReach (rw : Addr → Bool) (a : Addr) : Prop :=
  a.toNat % 4096 ≤ 4091 ∨ rw (pageOf (a + 4)) = true

instance (rw : Addr → Bool) (a : Addr) : Decidable (InReach rw a) :=
  inferInstanceAs (Decidable (_ ∨ _))

section Reach

variable {k : Kernel} {a : Addr} {j : ℕ}

/-- The page of an address.
Kind: L -/
theorem pageOf_toNat (a : Addr) : (pageOf a).toNat = a.toNat / 4096 := by
  rw [pageOf, BitVec.toNat_ushiftRight, Nat.shiftRight_eq_div_pow]

/-- The page of a byte after `a`.
Kind: L -/
theorem pageOf_add_toNat (hj : j < 5) :
    (pageOf (a + BitVec.ofNat 64 j)).toNat = (a.toNat + j) % 2 ^ 64 / 4096 := by
  rw [pageOf_toNat, BitVec.toNat_add, BitVec.toNat_ofNat,
    Nat.mod_eq_of_lt (show j < 2 ^ 64 by omega)]

/-- A byte that does not pass the end of the page is in the page.
Kind: L -/
theorem pageOf_add_of_lt (hj : j < 5) (hin : a.toNat % 4096 + j < 4096) :
    pageOf (a + BitVec.ofNat 64 j) = pageOf a := by
  apply BitVec.eq_of_toNat_eq
  rw [pageOf_add_toNat hj, pageOf_toNat]
  have := a.isLt
  omega

/-- A byte that passes it is in the page of the last one, which is another page.
Kind: L -/
theorem pageOf_add_of_le (hj : j < 5) (hout : 4096 ≤ a.toNat % 4096 + j) :
    pageOf (a + BitVec.ofNat 64 j) = pageOf (a + 4) ∧ pageOf (a + 4) ≠ pageOf a := by
  have hlt := a.isLt
  have hlast : (pageOf (a + 4)).toNat = (a.toNat + 4) % 2 ^ 64 / 4096 :=
    pageOf_add_toNat (j := 4) (by omega)
  constructor
  · apply BitVec.eq_of_toNat_eq
    rw [pageOf_add_toNat hj, hlast]
    omega
  · intro heq
    have htoNat := congrArg BitVec.toNat heq
    rw [hlast, pageOf_toNat] at htoNat
    omega

/-- **The five bytes are writable once the page of the first is open exactly when they are in
reach.**
Kind: P -/
theorem writable_setAddrRw : Writable (setAddrRw k a).2.rw a 5 ↔ InReach k.rw a := by
  unfold Writable InReach setAddrRw
  dsimp only
  constructor
  · intro hall
    by_cases hin : a.toNat % 4096 ≤ 4091
    · exact .inl hin
    · obtain ⟨-, hne⟩ := pageOf_add_of_le (a := a) (j := 4) (by omega) (by omega)
      have hlast := hall 4 (by omega)
      exact .inr ((Function.update_of_ne hne ..).symm.trans hlast)
  · intro hreach j hj
    rcases Nat.lt_or_ge (a.toNat % 4096 + j) 4096 with hin | hout
    · rw [pageOf_add_of_lt hj hin, Function.update_self]
    · obtain ⟨hlast, hne⟩ := pageOf_add_of_le hj hout
      rw [hlast, Function.update_of_ne hne]
      rcases hreach with hle | hrw
      · omega
      · exact hrw

end Reach

/-! ## The operations -/

section Operations

variable {sym sym' : KernSym} {code : Addr} {k k' : Kernel} {ret : ℤ}

/-- A call that has returned an error with the bits as they were has not patched anything.
Kind: L -/
theorem stores_of_error {ret₀ : ℤ} {sym₀ : KernSym} {k₀ : Kernel} {reach : Prop} (hne : ret₀ ≠ 0)
    (hrw : k₀.rw = k.rw) (heq : some (ret₀, sym₀, k₀) = some (ret, sym', k')) :
    k'.rw = k.rw ∧ (some (ret₀, sym₀, k₀) = some (ret, sym', k') ↔ (ret = 0 → reach)) := by
  refine ⟨?_, iff_of_true heq fun hret => ?_⟩
  · rw [kernel_of_some heq, hrw]
  · rw [Option.some.injEq, Prod.mk.injEq] at heq
    exact absurd (heq.1.trans hret) hne

/-- The copying part puts the bits back, and faults exactly when it patches out of reach.
Kind: L -/
theorem hookBody_stores (hrun : hookBody sym code k = some (ret, sym', k')) :
    k'.rw = k.rw ∧ (hookBodyFaulting sym code k = some (ret, sym', k') ↔
      (ret = 0 → InReach k.rw sym.addr)) := by
  have hfault : -eFault ≠ 0 := by decide
  have hilseq : -eIlseq ≠ 0 := by decide
  unfold hookBody at hrun
  unfold hookBodyFaulting
  dsimp only at hrun ⊢
  split_ifs at hrun ⊢ with hsize hzeros
  · exact stores_of_error hfault (mallocFree_rw _) hrun
  · exact stores_of_error hilseq (mallocFree_rw _) hrun
  · generalize copyLoop sym (bodyEnd k.mem sym) sym.size.toNat ⟨k.mem, sym.addr, sym.newAddr⟩ =
      result at hrun ⊢
    rcases result with - | (s | s)
    · exact absurd hrun nofun
    · dsimp only at hrun ⊢
      rw [← hrun]
      rw [Option.some.injEq, Prod.mk.injEq, Prod.mk.injEq] at hrun
      obtain ⟨rfl, rfl, rfl⟩ := hrun
      simp only [patchFaulting_eq, writable_setAddrRw]
      refine ⟨patch_rw, ?_⟩
      split_ifs with hreach
      · exact iff_of_true rfl fun _ => hreach
      · exact iff_of_false nofun fun h => hreach (h trivial)
    · exact stores_of_error hilseq (mallocFree_rw _) hrun

/-- `symbol_hook` puts the bits back, and faults exactly when it patches out of reach.
Kind: L -/
theorem symbolHook_stores {symtab : SymTab} {buf : Addr} {symbolName : String}
    (hrun : symbolHook symtab buf symbolName code sym k = some (ret, sym', k')) :
    k'.rw = k.rw ∧ (symbolHookFaulting symtab buf symbolName code sym k = some (ret, sym', k') ↔
      (ret = 0 → InReach k.rw (findSymbolAddress symtab sym symbolName).2.addr)) := by
  have hfault : -eFault ≠ 0 := by decide
  have hnomem : -eNomem ≠ 0 := by decide
  unfold symbolHook at hrun
  unfold symbolHookFaulting
  dsimp only at hrun ⊢
  split_ifs at hrun ⊢ with hneg hjmp hbuf
  · exact stores_of_error hneg.ne rfl hrun
  · exact stores_of_error hfault rfl hrun
  · exact stores_of_error hnomem rfl hrun
  · exact hookBody_stores hrun

/-- `symbol_restore` puts the bits back, and faults exactly when it restores out of reach.
Kind: L -/
theorem symbolRestore_stores (sym : KernSym) (k : Kernel) :
    (symbolRestore sym k).2.rw = k.rw ∧
      (symbolRestoreFaulting sym k = some (symbolRestore sym k) ↔
        (sym.hijacked = true → InReach k.rw sym.addr)) := by
  unfold symbolRestore symbolRestoreFaulting
  dsimp only
  by_cases hactive : sym.hijacked = true
  · simp only [hactive, if_true]
    rw [storeText_eq (by simp)]
    simp only [List.length_ofFn, storeBytes_orig, writable_setAddrRw]
    refine ⟨?_, ?_⟩
    · rw [mallocFree_rw]
      exact setAddrRo_setAddrRw_rw _
    · split_ifs with hreach
      · exact iff_of_true rfl fun _ => hreach
      · exact iff_of_false nofun fun h => hreach (h trivial)
  · simp only [hactive]
    exact ⟨rfl, iff_of_true rfl nofun⟩

/-- **Stores to the text.** Every call leaves the protection of every page as it was. A call that
patches the function faults nowhere iff the five bytes are in reach; a call that turns the function
down, and a restore of nothing, write no text. For every address and every assignment of the bits.
Source: `xt_TOGPU_hook.c` 138–191, 268–279, 289–305
Kind: P
Fidelity: exact
Hyps: (a) the call of `symbol_hook` returns -/
theorem textStores_iff {symtab : SymTab} {buf : Addr} {symbolName : String}
    (hrun : symbolHook symtab buf symbolName code sym k = some (ret, sym', k')) (hooked : KernSym)
    (later : Kernel) :
    (k'.rw = k.rw ∧
      (ret = 0 → (symbolHookFaulting symtab buf symbolName code sym k = some (ret, sym', k') ↔
        InReach k.rw (findSymbolAddress symtab sym symbolName).2.addr)) ∧
      (ret ≠ 0 → symbolHookFaulting symtab buf symbolName code sym k = some (ret, sym', k'))) ∧
    (symbolRestore hooked later).2.rw = later.rw ∧
      (hooked.hijacked = true →
        (symbolRestoreFaulting hooked later = some (symbolRestore hooked later) ↔
          InReach later.rw hooked.addr)) ∧
      (hooked.hijacked = false →
        symbolRestoreFaulting hooked later = some (symbolRestore hooked later)) := by
  obtain ⟨hrw, hhook⟩ := symbolHook_stores hrun
  obtain ⟨hrw', hrestore⟩ := symbolRestore_stores hooked later
  refine ⟨⟨hrw, fun hret => ?_, fun hret => ?_⟩, hrw', fun hactive => ?_, fun hidle => ?_⟩
  · exact hhook.trans (forall_prop_of_true hret)
  · exact hhook.mpr fun h => absurd h hret
  · exact hrestore.trans (forall_prop_of_true hactive)
  · exact hrestore.mpr fun h => absurd (hidle.symm.trans h) nofun

end Operations

/-! ## A jump across two pages -/

/-- A function of eight bytes, three of them in its first page.
Kind: D -/
def straddlingTable : SymTab := [("f", 0x1ffd), ("g", 0x2005)]

/-- `ret` at `0x1ffd`.
Kind: D -/
def straddlingText : Addr → BitVec 8 := fun x => if x = 0x1ffd then 0xc3 else 0

/-- Hooking a function in the middle of its page faults nowhere, and neither does taking the hook
off.
Kind: C -/
theorem textStores_inside :
    ∃ sym' k', symbolHook twoSymbols 0x100000 "f" 0x500000 freshSym (kernelWith callText) =
        some (0, sym', k') ∧
      symbolHookFaulting twoSymbols 0x100000 "f" 0x500000 freshSym (kernelWith callText) =
        some (0, sym', k') ∧
      symbolRestoreFaulting { freshSym with addr := 0x1000, hijacked := true }
          (kernelWith callText) =
        some (symbolRestore { freshSym with addr := 0x1000, hijacked := true }
          (kernelWith callText)) := by
  have hret : (symbolHook twoSymbols 0x100000 "f" 0x500000 freshSym
      (kernelWith callText)).map (·.1) = some 0 := by
    decide +kernel
  obtain ⟨⟨ret, sym', k'⟩, hrun, rfl⟩ := Option.map_eq_some_iff.1 hret
  obtain ⟨⟨-, hhook, -⟩, -, hrestore, -⟩ := textStores_iff hrun
    { freshSym with addr := 0x1000, hijacked := true } (kernelWith callText)
  exact ⟨sym', k', hrun, (hhook rfl).mpr (by decide), (hrestore rfl).mpr (by decide)⟩

/-- Hooking a function three bytes before the end of a read-only page writes the last two bytes of
the jump to a read-only page.
Kind: C -/
theorem straddling_faults :
    (symbolHook straddlingTable 0x100000 "f" 0x500000 freshSym
        (kernelWith straddlingText)).map (·.1) =
        some 0 ∧
      (symbolHookFaulting straddlingTable 0x100000 "f" 0x500000 freshSym
        (kernelWith straddlingText)).isNone = true ∧
      (symbolRestoreFaulting { freshSym with addr := 0x1ffd, hijacked := true }
        (kernelWith straddlingText)).isNone = true := by
  decide +kernel

end Togpu.Hook
