import Togpu.Hook.CopyLoop

/-!
# What `symbol_hook` does

`symbol_hook` as one case distinction on its inputs: the symbol table, the buffer that
`module_alloc` returns and the text.

* `Refused` — the inputs it turns down.
* **`symbol_hook` returns** (`symbolHook_spec`): with an error and unchanged text when it refuses,
  else with zero, the whole function copied and its first five bytes patched.
* **Its footprint** (`symbolHook_frame`): the buffer and the function.
-/

namespace Togpu.Hook

open Togpu.Driver Togpu.Lib Togpu.X86

/-! ## The trimmed end -/

section Trim

variable {mem : Addr → BitVec 8} {sym : KernSym}

/-- Trimming reads only the function, ends inside it and drops only zeros.
Kind: L -/
theorem trimEnd_spec {mem' : Addr → BitVec 8}
    (hmem : ∀ i, i < sym.size.toNat →
      mem' (sym.addr + BitVec.ofNat 64 i) = mem (sym.addr + BitVec.ofNat 64 i))
    {n m : ℕ} (hm : m ≤ sym.size.toNat) :
    trimEnd mem' sym.addr n (sym.addr + BitVec.ofNat 64 m) =
        trimEnd mem sym.addr n (sym.addr + BitVec.ofNat 64 m) ∧
      ∃ len, len ≤ m ∧
        trimEnd mem sym.addr n (sym.addr + BitVec.ofNat 64 m) = sym.addr + BitVec.ofNat 64 len ∧
        ∀ i, len ≤ i → i < m → mem (sym.addr + BitVec.ofNat 64 i) = 0 := by
  induction n generalizing m with
  | zero => exact ⟨rfl, m, le_rfl, rfl, fun i hle hlt => absurd hlt (by omega)⟩
  | succ n ih =>
      rcases Nat.eq_zero_or_pos m with rfl | hpos
      · have hnot : ¬ sym.addr < sym.addr + BitVec.ofNat 64 0 := by simp
        refine ⟨?_, 0, le_rfl, ?_, fun i _ hlt => absurd hlt (Nat.not_lt_zero i)⟩
        · rw [trimEnd, trimEnd, if_neg (fun hc => hnot hc.1), if_neg (fun hc => hnot hc.1)]
        · rw [trimEnd, if_neg (fun hc => hnot hc.1)]
      · have hlast : sym.addr + BitVec.ofNat 64 m - 1 = sym.addr + BitVec.ofNat 64 (m - 1) := by
          obtain ⟨m', rfl⟩ := Nat.exists_eq_succ_of_ne_zero hpos.ne'
          rw [Nat.succ_eq_add_one, BitVec.ofNat_add, Nat.add_sub_cancel, ← add_assoc]
          exact add_sub_cancel_right _ _
        obtain ⟨heq, len, hle, hlen, hzeros⟩ := ih (m := m - 1) (by omega)
        rw [trimEnd, trimEnd, hlast, hmem (m - 1) (by omega)]
        split_ifs with hzero
        · refine ⟨heq, len, by omega, hlen, fun i hi hlt => ?_⟩
          rcases Nat.lt_or_ge i (m - 1) with hbelow | hlast'
          · exact hzeros i hi hbelow
          · rw [show i = m - 1 by omega]
            exact hzero.2
        · exact ⟨rfl, m, le_rfl, rfl, fun i hle hlt => absurd hlt (by omega)⟩

/-- The end of the body is an offset into the function, with zeros behind it.
Kind: L -/
theorem exists_bodyEnd_zeros (mem : Addr → BitVec 8) (sym : KernSym) :
    ∃ len, len ≤ sym.size.toNat ∧ bodyEnd mem sym = sym.addr + BitVec.ofNat 64 len ∧
      ∀ i, len ≤ i → i < sym.size.toNat → mem (sym.addr + BitVec.ofNat 64 i) = 0 := by
  have hsame : ∀ i, i < sym.size.toNat →
      mem (sym.addr + BitVec.ofNat 64 i) = mem (sym.addr + BitVec.ofNat 64 i) := fun _ _ => rfl
  obtain ⟨-, len, hle, hlen, hzeros⟩ :=
    trimEnd_spec hsame (n := sym.size.toNat) (m := sym.size.toNat) le_rfl
  refine ⟨len, hle, ?_, hzeros⟩
  rw [BitVec.ofNat_toNat, BitVec.setWidth_eq] at hlen
  exact hlen

/-- The end of the body is an offset into the function.
Kind: L -/
theorem exists_bodyEnd (mem : Addr → BitVec 8) (sym : KernSym) :
    ∃ len, len ≤ sym.size.toNat ∧ bodyEnd mem sym = sym.addr + BitVec.ofNat 64 len := by
  obtain ⟨len, hle, hlen, -⟩ := exists_bodyEnd_zeros mem sym
  exact ⟨len, hle, hlen⟩

/-- The end of the body is decided by the text.
Kind: L -/
theorem bodyEnd_congr {mem' : Addr → BitVec 8}
    (hmem : ∀ i, i < sym.size.toNat →
      mem' (sym.addr + BitVec.ofNat 64 i) = mem (sym.addr + BitVec.ofNat 64 i)) :
    bodyEnd mem' sym = bodyEnd mem sym := by
  obtain ⟨heq, -⟩ := trimEnd_spec hmem (n := sym.size.toNat) (m := sym.size.toNat) le_rfl
  rw [BitVec.ofNat_toNat, BitVec.setWidth_eq] at heq
  exact heq

end Trim

/-! ## The sweep and the text -/

section Sweep

variable {mem : Addr → BitVec 8} {sym : KernSym}

/-- The sweep stays in the function.
Kind: L -/
theorem swept_offset (hwrap : sym.addr.toNat + sym.size.toNat + 4096 ≤ 2 ^ 64) {len off : ℕ}
    {a b : Addr} (hlen : len ≤ sym.size.toNat) (h : Swept mem (sym.addr + BitVec.ofNat 64 len) a b)
    (ha : a = sym.addr + BitVec.ofNat 64 off) (hoff : off ≤ sym.size.toNat + 255) :
    ∃ off', off' < len ∧ b = sym.addr + BitVec.ofNat 64 off' := by
  have hguard : ∀ {x : Addr} {o : ℕ}, x = sym.addr + BitVec.ofNat 64 o →
      o ≤ sym.size.toNat + 255 → x < sym.addr + BitVec.ofNat 64 len → o < len := by
    intro x o hx ho hlt
    rw [hx, BitVec.lt_def, toNat_addr_add hwrap (by omega), toNat_addr_add hwrap (by omega)] at hlt
    omega
  induction h generalizing off with
  | here hlt => exact ⟨off, hguard ha hoff hlt, ha⟩
  | @step a b insn hlt _ _ _ ih =>
      have hoff' := hguard ha hoff hlt
      have hbound := insn.length.isLt
      have hnext : a + insn.length.setWidth 64 =
          sym.addr + BitVec.ofNat 64 (off + insn.length.toNat) := by
        rw [ha, BitVec.ofNat_add, ← add_assoc, BitVec.ofNat_toNat]
      exact ih hnext (by omega)

/-- Two memories that decode alike in the function have the same sweep over it.
Kind: L -/
theorem Swept.congr {mem' : Addr → BitVec 8}
    (hwrap : sym.addr.toNat + sym.size.toNat + 4096 ≤ 2 ^ 64)
    {len off : ℕ} (hlen : len ≤ sym.size.toNat)
    (hdecode : ∀ o, o < len → decodeAt mem' (sym.addr + BitVec.ofNat 64 o) =
      decodeAt mem (sym.addr + BitVec.ofNat 64 o))
    {a b : Addr} (h : Swept mem (sym.addr + BitVec.ofNat 64 len) a b)
    (ha : a = sym.addr + BitVec.ofNat 64 off) (hoff : off ≤ sym.size.toNat + 255) :
    Swept mem' (sym.addr + BitVec.ofNat 64 len) a b := by
  induction h generalizing off with
  | here hlt => exact .here hlt
  | @step a b insn hlt hdec hzero _ ih =>
      have hfirst : Swept mem (sym.addr + BitVec.ofNat 64 len) a a := .here hlt
      obtain ⟨o, ho, hstart⟩ := swept_offset hwrap hlen hfirst ha hoff
      have hbound := insn.length.isLt
      have hdec' : decodeAt mem' a = some insn := by
        rw [hstart, hdecode o ho, ← hstart, hdec]
      have hnext : a + insn.length.setWidth 64 =
          sym.addr + BitVec.ofNat 64 (o + insn.length.toNat) := by
        rw [hstart, BitVec.ofNat_add, ← add_assoc, BitVec.ofNat_toNat]
      exact .step hlt hdec' hzero (ih hnext (by omega))

end Sweep

/-! ## Patching -/

section Patch

variable {sym : KernSym} {code : Addr} {k : Kernel}

@[simp] theorem setAddrRw_mem (addr : Addr) : (setAddrRw k addr).2.mem = k.mem := rfl

@[simp] theorem setAddrRo_mem (addr : Addr) (flag : Bool) :
    (setAddrRo k addr flag).mem = k.mem := by
  unfold setAddrRo
  split_ifs <;> rfl

@[simp] theorem mallocFree_mem (buf : Addr) : (mallocFree k buf).mem = k.mem := by
  unfold mallocFree
  split_ifs <;> rfl

@[simp] theorem mallocFree_rw (buf : Addr) : (mallocFree k buf).rw = k.rw := by
  unfold mallocFree
  split_ifs <;> rfl

/-- The jump takes the five bytes at the function's start.
Kind: L -/
theorem patch_mem_of_le {x : Addr} (h : 5 ≤ (x - sym.addr).toNat) :
    (patch sym code k).2.mem x = k.mem x := by
  have hne : x ≠ sym.addr := by
    rintro rfl
    simp at h
  have hone : (sym.addr + 1 : Addr) = sym.addr + BitVec.ofNat 64 1 := rfl
  have hdist : 4 ≤ (x - (sym.addr + 1)).toNat := by
    rw [hone, toNat_sub_add_ofNat (by omega)]
    omega
  unfold patch
  simp only [setAddrRo_mem]
  rw [storeLE_of_le hdist, Function.update_of_ne hne, setAddrRw_mem]

/-- The function now starts with a jump.
Kind: L -/
theorem patch_mem_addr : (patch sym code k).2.mem sym.addr = opJmpRel32 := by
  have hdist : 4 ≤ (sym.addr - (sym.addr + 1)).toNat := by
    rw [sub_add_cancel_left]
    decide
  unfold patch
  simp only [setAddrRo_mem]
  rw [storeLE_of_le hdist, Function.update_self]

end Patch

/-! ## The inputs -/

/-- The symbol record with which the copy starts.
Kind: D -/
def lookup (symtab : SymTab) (buf : Addr) (symbolName : String) (sym : KernSym) : KernSym :=
  { (findSymbolAddress symtab sym symbolName).2 with newAddr := buf }

/-- The lookup fails with an error or succeeds with zero.
Kind: L -/
theorem findSymbolAddress_ret (symtab : SymTab) (sym : KernSym) (symbolName : String) :
    (findSymbolAddress symtab sym symbolName).1 < 0 ∨
      (findSymbolAddress symtab sym symbolName).1 = 0 := by
  unfold findSymbolAddress
  dsimp only
  split_ifs
  · have hneg : -eFault < 0 := by decide
    exact .inl hneg
  · exact .inr rfl

/-- A function that cannot be copied: shorter than the jump, all zeros, or with an instruction whose
length the decoder gives as zero.
Kind: D -/
def BodyRefused (mem : Addr → BitVec 8) (sym : KernSym) : Prop :=
  sym.size.toNat < opJmpSize ∨ sym.addr = bodyEnd mem sym ∨
    ∃ b insn, Swept mem (bodyEnd mem sym) sym.addr b ∧ decodeAt mem b = some insn ∧
      insn.length = 0

/-- What `symbol_hook` turns down: a symbol that is not found, a function that starts with a jump,
no memory, or a function that cannot be copied.
Kind: D -/
def Refused (symtab : SymTab) (buf : Addr) (symbolName : String) (sym : KernSym) (k : Kernel) :
    Prop :=
  (findSymbolAddress symtab sym symbolName).1 < 0 ∨
    k.mem (lookup symtab buf symbolName sym).addr = opJmpRel32 ∨ buf = 0 ∨
    BodyRefused k.mem (lookup symtab buf symbolName sym)

/-! ## What the refusal depends on -/

section Congr

variable {mem mem' : Addr → BitVec 8} {sym : KernSym} {tail : ℕ}

/-- One direction of `Placed.bodyRefused_congr`.
Kind: L -/
theorem BodyRefused.of_text (hwrap : sym.addr.toNat + sym.size.toNat + 4096 ≤ 2 ^ 64)
    (hdecode : ∀ o, o < sym.size.toNat → decodeAt mem' (sym.addr + BitVec.ofNat 64 o) =
      decodeAt mem (sym.addr + BitVec.ofNat 64 o))
    (hend : bodyEnd mem' sym = bodyEnd mem sym) (h : BodyRefused mem sym) :
    BodyRefused mem' sym := by
  rcases h with h | h | ⟨b, insn, hswept, hdec, hzero⟩
  · exact .inl h
  · exact .inr (.inl (h.trans hend.symm))
  · obtain ⟨len, hlen, hbody⟩ := exists_bodyEnd mem sym
    have hstart : sym.addr = sym.addr + BitVec.ofNat 64 0 := by simp
    rw [hbody] at hswept hend
    obtain ⟨o, ho, hb⟩ := swept_offset hwrap hlen hswept hstart (Nat.zero_le _)
    refine .inr (.inr ⟨b, insn, ?_, ?_, hzero⟩)
    · rw [hend]
      exact hswept.congr hwrap hlen (fun o ho => hdecode o (by omega)) hstart (Nat.zero_le _)
    · rw [hb, hdecode o (by omega), ← hb, hdec]

/-- Whether a function can be copied is decided by its text and what follows it.
Kind: L -/
theorem Placed.bodyRefused_congr (hp : Placed mem sym tail)
    (hmem : ∀ i, i < tail + 32 →
      mem' (sym.addr + BitVec.ofNat 64 i) = mem (sym.addr + BitVec.ofNat 64 i)) :
    BodyRefused mem' sym ↔ BodyRefused mem sym := by
  have hsize := hp.size_le
  have hdecode : ∀ o, o < sym.size.toNat → decodeAt mem' (sym.addr + BitVec.ofNat 64 o) =
      decodeAt mem (sym.addr + BitVec.ofNat 64 o) :=
    fun o ho => hp.decodeAt_congr hmem (by omega)
  have hend : bodyEnd mem' sym = bodyEnd mem sym := bodyEnd_congr fun i hi => hmem i (by omega)
  constructor
  · exact BodyRefused.of_text hp.noWrap (fun o ho => (hdecode o ho).symm) hend.symm
  · exact BodyRefused.of_text hp.noWrap hdecode hend

/-- What `symbol_hook` turns down is decided by the text of the function and what follows it.
Kind: L -/
theorem refused_congr {symtab : SymTab} {buf : Addr} {symbolName : String} {k k' : Kernel}
    (htext : (findSymbolAddress symtab sym symbolName).1 = 0 → buf ≠ 0 →
      ∃ tail, Placed k.mem (lookup symtab buf symbolName sym) tail ∧ ∀ i, i < tail + 32 →
        k'.mem ((lookup symtab buf symbolName sym).addr + BitVec.ofNat 64 i) =
          k.mem ((lookup symtab buf symbolName sym).addr + BitVec.ofNat 64 i)) :
    Refused symtab buf symbolName sym k' ↔ Refused symtab buf symbolName sym k := by
  unfold Refused
  rcases findSymbolAddress_ret symtab sym symbolName with hret | hret
  · exact iff_of_true (.inl hret) (.inl hret)
  by_cases hbuf : buf = 0
  · exact iff_of_true (.inr (.inr (.inl hbuf))) (.inr (.inr (.inl hbuf)))
  obtain ⟨tail, hp, hmem⟩ := htext hret hbuf
  have hfirst := hmem 0 (by omega)
  rw [BitVec.add_zero] at hfirst
  rw [hfirst, hp.bodyRefused_congr hmem]

end Congr

section Spec

variable {mem : Addr → BitVec 8} {sym : KernSym} {k : Kernel}

/-- **The copying part of `symbol_hook`.**
Kind: L -/
theorem hookBody_spec (code : Addr) {tail : ℕ} (hp : Placed mem sym tail)
    (hmem : Unreached sym mem k.mem) :
    (BodyRefused mem sym ∧ ∃ ret sym' k', hookBody sym code k = some (ret, sym', k') ∧ ret < 0 ∧
        Unreached sym mem k'.mem) ∨
      (¬ BodyRefused mem sym ∧ ∃ s off, CopyAt mem sym s off ∧
        CopiedFrom mem s.mem sym (bodyEnd mem sym) sym.addr ∧
        hookBody sym code k =
          let r := patch { sym with newSize := s.dest - sym.newAddr, run := sym.newAddr } code
            { k with mem := s.mem }
          some (0, r.1, r.2)) := by
  have hsize := hp.size_le
  have hend := bodyEnd_congr fun i hi => hp.text_eq hmem (show i < tail + 32 by omega)
  obtain ⟨len, hlen, hbody⟩ := exists_bodyEnd mem sym
  unfold hookBody
  rw [hend]
  by_cases hsize : sym.size.toNat < opJmpSize
  · refine .inl ⟨.inl hsize, -eFault, sym, _, if_pos hsize, by decide, ?_⟩
    rw [mallocFree_mem]
    exact hmem
  rw [if_neg hsize]
  by_cases hzeros : sym.addr = bodyEnd mem sym
  · refine .inl ⟨.inr (.inl hzeros), -eIlseq, sym, _, if_pos hzeros, by decide, ?_⟩
    rw [mallocFree_mem]
    exact hmem
  simp only [if_neg hzeros]
  have hstart : CopyAt mem sym ⟨k.mem, sym.addr, sym.newAddr⟩ 0 :=
    ⟨by simp, by simp, Nat.zero_le _, hmem⟩
  rcases copyLoop_spec hp hlen hstart (show len ≤ 0 + sym.size.toNat by omega) with
    ⟨b, insn, s, hswept, hdecode, hzero, hs, hrun⟩ | ⟨s, off, hrun, hat, -, hcopied⟩
  · rw [← hbody] at hswept hrun
    refine .inl ⟨.inr (.inr ⟨b, insn, hswept, hdecode, hzero⟩), -eIlseq, sym, _,
      by rw [hrun], by decide, ?_⟩
    rw [mallocFree_mem]
    exact hs
  · rw [← hbody] at hcopied hrun
    refine .inr ⟨?_, s, off, hat, hcopied, by rw [hrun]⟩
    rintro (h | h | ⟨b, insn, hswept, hdecode, hzero⟩)
    · exact hsize h
    · exact hzeros h
    · obtain ⟨insn', hdecode', hpos, -⟩ := hcopied b hswept
      rw [hdecode, Option.some.injEq] at hdecode'
      rw [hdecode'] at hzero
      exact hpos hzero

/-- Zeroing the buffer changes nothing out of reach.
Kind: L -/
theorem unreached_memset (sym : KernSym) (mem : Addr → BitVec 8) :
    Unreached sym mem (memset mem sym.newAddr 0 sym.size.toNat) := by
  intro x hx
  unfold KernSym.reach at hx
  exact memset_of_le (by omega)

/-- **`symbol_hook` returns**, when the buffer it is given lies apart from the text: with an error
and nothing changed out of the buffer's reach, or with zero, the function copied and patched.
Kind: P -/
theorem symbolHook_spec {symtab : SymTab} {buf : Addr} {symbolName : String} (code : Addr)
    (hplaced : (findSymbolAddress symtab sym symbolName).1 = 0 → buf ≠ 0 →
      ∃ tail, Placed k.mem (lookup symtab buf symbolName sym) tail) :
    (Refused symtab buf symbolName sym k ∧ ∃ ret sym' k',
        symbolHook symtab buf symbolName code sym k = some (ret, sym', k') ∧ ret < 0 ∧
        (k'.mem = k.mem ∨ (∃ tail, Placed k.mem (lookup symtab buf symbolName sym) tail) ∧
          Unreached (lookup symtab buf symbolName sym) k.mem k'.mem)) ∨
      (¬ Refused symtab buf symbolName sym k ∧ ∃ tail s off sym' k',
        Placed k.mem (lookup symtab buf symbolName sym) tail ∧
        CopyAt k.mem (lookup symtab buf symbolName sym) s off ∧
        CopiedFrom k.mem s.mem (lookup symtab buf symbolName sym)
          (bodyEnd k.mem (lookup symtab buf symbolName sym))
          (lookup symtab buf symbolName sym).addr ∧
        symbolHook symtab buf symbolName code sym k = some (0, sym', k') ∧
        ∀ x, 5 ≤ (x - (lookup symtab buf symbolName sym).addr).toNat → k'.mem x = s.mem x) := by
  unfold symbolHook
  dsimp only
  rcases findSymbolAddress_ret symtab sym symbolName with hret | hret
  · exact .inl ⟨.inl hret, _, _, k, if_pos hret, hret, .inl rfl⟩
  rw [if_neg (by omega)]
  by_cases hjmp : k.mem (findSymbolAddress symtab sym symbolName).2.addr = opJmpRel32
  · exact .inl ⟨.inr (.inl hjmp), _, _, k, if_pos hjmp, by decide, .inl rfl⟩
  rw [if_neg hjmp]
  by_cases hbuf : buf = 0
  · exact .inl ⟨.inr (.inr (.inl hbuf)), _, _, k, if_pos hbuf, by decide, .inl rfl⟩
  rw [if_neg hbuf]
  obtain ⟨tail, hp⟩ := hplaced hret hbuf
  have hmem := unreached_memset (lookup symtab buf symbolName sym) k.mem
  rcases hookBody_spec code (k := { k with
      mem := memset k.mem buf 0 (lookup symtab buf symbolName sym).size.toNat,
      buffers := buf :: k.buffers }) hp hmem with
    ⟨hrefused, ret, sym', k', hrun, hneg, hun⟩ | ⟨hok, s, off, hat, hcopied, hrun⟩
  · exact .inl ⟨.inr (.inr (.inr hrefused)), ret, sym', k', hrun, hneg, .inr ⟨⟨tail, hp⟩, hun⟩⟩
  · refine .inr ⟨?_, tail, s, off, _, _, hp, hat, hcopied, hrun, fun x hx => ?_⟩
    · rintro (h | h | h | h)
      · omega
      · exact hjmp h
      · exact hbuf h
      · exact hok h
    · exact patch_mem_of_le hx

/-! ## The footprint -/

/-- The kernel in a result.
Kind: L -/
theorem kernel_of_some {ret ret' : ℤ} {sym sym' : KernSym} {k k' : Kernel}
    (h : some (ret, sym, k) = some (ret', sym', k')) : k' = k := by
  rw [Option.some.injEq, Prod.mk.injEq, Prod.mk.injEq] at h
  exact h.2.2.symm

/-- The copying part writes in reach of the buffer and inside the function.
Kind: L -/
theorem hookBody_frame {code : Addr} {ret : ℤ} {sym' : KernSym} {k' : Kernel}
    (hwrap : sym.addr.toNat + sym.size.toNat + 4096 ≤ 2 ^ 64)
    (hrun : hookBody sym code k = some (ret, sym', k')) {x : Addr}
    (hout : sym.size.toNat ≤ (x - sym.addr).toNat) (hx : sym.reach ≤ (x - sym.newAddr).toNat) :
    k'.mem x = k.mem x := by
  obtain ⟨len, hlen, hbody⟩ := exists_bodyEnd k.mem sym
  have hstart : CopyAt k.mem sym ⟨k.mem, sym.addr, sym.newAddr⟩ 0 :=
    ⟨by simp, by simp, Nat.zero_le _, fun _ _ => rfl⟩
  unfold hookBody at hrun
  simp only [hbody] at hrun
  split_ifs at hrun with hsize
  · rw [kernel_of_some hrun, mallocFree_mem]
  · rw [kernel_of_some hrun, mallocFree_mem]
  · split at hrun
    · exact absurd hrun nofun
    · next s hloop =>
        rw [kernel_of_some hrun, mallocFree_mem]
        exact copyLoop_unreached hwrap hlen hstart hloop x hx
    · next s hloop =>
        have hfar : 5 ≤ (x - sym.addr).toNat := (Nat.le_of_not_lt hsize).trans hout
        rw [kernel_of_some hrun]
        exact (patch_mem_of_le hfar).trans (copyLoop_unreached hwrap hlen hstart hloop x hx)

/-- A copying part that returned zero has put the jump in place.
Kind: L -/
theorem mem_addr_of_hookBody {code : Addr} {sym' : KernSym} {k' : Kernel}
    (hrun : hookBody sym code k = some (0, sym', k')) : k'.mem sym.addr = opJmpRel32 := by
  have hfault : -eFault ≠ 0 := by decide
  have hilseq : -eIlseq ≠ 0 := by decide
  unfold hookBody at hrun
  dsimp only at hrun
  split_ifs at hrun
  · exact absurd (Prod.mk.inj (Option.some.inj hrun)).1 hfault
  · exact absurd (Prod.mk.inj (Option.some.inj hrun)).1 hilseq
  · split at hrun
    · exact absurd hrun nofun
    · exact absurd (Prod.mk.inj (Option.some.inj hrun)).1 hilseq
    · rw [kernel_of_some hrun]
      exact patch_mem_addr

section Footprint

variable {symtab : SymTab} {buf : Addr} {symbolName : String} {code : Addr} {ret : ℤ}
  {sym' : KernSym} {k' : Kernel}

/-- **The footprint of `symbol_hook`**: the buffer with its guard page, and the function.
Kind: P -/
theorem symbolHook_frame
    (hrun : symbolHook symtab buf symbolName code sym k = some (ret, sym', k'))
    (hwrap : (findSymbolAddress symtab sym symbolName).1 = 0 → buf ≠ 0 →
      (lookup symtab buf symbolName sym).addr.toNat +
        (lookup symtab buf symbolName sym).size.toNat + 4096 ≤ 2 ^ 64) {x : Addr}
    (hx : (findSymbolAddress symtab sym symbolName).1 = 0 → buf ≠ 0 →
      (lookup symtab buf symbolName sym).size.toNat ≤
          (x - (lookup symtab buf symbolName sym).addr).toNat ∧
        (lookup symtab buf symbolName sym).reach ≤ (x - buf).toNat) :
    k'.mem x = k.mem x := by
  unfold symbolHook at hrun
  dsimp only at hrun
  rcases findSymbolAddress_ret symtab sym symbolName with hret | hret
  · rw [if_pos hret] at hrun
    rw [kernel_of_some hrun]
  rw [if_neg (by omega)] at hrun
  split_ifs at hrun with hjmp hbuf
  · rw [kernel_of_some hrun]
  · rw [kernel_of_some hrun]
  · obtain ⟨hout, hreach⟩ := hx hret hbuf
    rw [hookBody_frame (hwrap hret hbuf) hrun hout hreach]
    exact unreached_memset (lookup symtab buf symbolName sym) k.mem x hreach

/-- Refused inputs leave the function alone too.
Kind: L -/
theorem symbolHook_frame_of_refused
    (hplaced : (findSymbolAddress symtab sym symbolName).1 = 0 → buf ≠ 0 →
      ∃ tail, Placed k.mem (lookup symtab buf symbolName sym) tail)
    (hrefused : Refused symtab buf symbolName sym k)
    (hrun : symbolHook symtab buf symbolName code sym k = some (ret, sym', k')) {x : Addr}
    (hx : (findSymbolAddress symtab sym symbolName).1 = 0 → buf ≠ 0 →
      (lookup symtab buf symbolName sym).reach ≤ (x - buf).toNat) :
    k'.mem x = k.mem x := by
  by_cases hcalled : (findSymbolAddress symtab sym symbolName).1 = 0 ∧ buf ≠ 0
  · obtain ⟨hret, hbuf⟩ := hcalled
    rcases symbolHook_spec code hplaced with ⟨-, ret', sym'', k'', hrun', -, hmem⟩ | ⟨hok, -⟩
    · rw [hrun, Option.some.injEq, Prod.mk.injEq, Prod.mk.injEq] at hrun'
      rw [hrun'.2.2]
      rcases hmem with hmem | ⟨-, hmem⟩
      · rw [hmem]
      · exact hmem x (hx hret hbuf)
    · exact absurd hrefused hok
  · exact symbolHook_frame hrun (fun hret hbuf => absurd ⟨hret, hbuf⟩ hcalled)
      fun hret hbuf => absurd ⟨hret, hbuf⟩ hcalled

/-- Inputs that are not refused are hooked.
Kind: L -/
theorem ret_of_not_refused
    (hplaced : (findSymbolAddress symtab sym symbolName).1 = 0 → buf ≠ 0 →
      ∃ tail, Placed k.mem (lookup symtab buf symbolName sym) tail)
    (hok : ¬ Refused symtab buf symbolName sym k)
    (hrun : symbolHook symtab buf symbolName code sym k = some (ret, sym', k')) : ret = 0 := by
  rcases symbolHook_spec code hplaced with ⟨hrefused, -⟩ | ⟨-, _, _, _, _, _, -, -, -, hrun', -⟩
  · exact absurd hrefused hok
  · rw [hrun, Option.some.injEq, Prod.mk.injEq] at hrun'
    exact hrun'.1

/-- A hook that returned zero has replaced another byte by the jump.
Kind: L -/
theorem mem_addr_of_symbolHook
    (hrun : symbolHook symtab buf symbolName code sym k = some (0, sym', k')) :
    k.mem (lookup symtab buf symbolName sym).addr ≠ opJmpRel32 ∧
      k'.mem (lookup symtab buf symbolName sym).addr = opJmpRel32 := by
  have hfault : -eFault ≠ 0 := by decide
  have hnomem : -eNomem ≠ 0 := by decide
  unfold symbolHook at hrun
  dsimp only at hrun
  split_ifs at hrun with hret hjmp hbuf
  · have hzero := (Prod.mk.inj (Option.some.inj hrun)).1
    omega
  · exact absurd (Prod.mk.inj (Option.some.inj hrun)).1 hfault
  · exact absurd (Prod.mk.inj (Option.some.inj hrun)).1 hnomem
  · exact ⟨hjmp, mem_addr_of_hookBody hrun⟩

end Footprint

end Spec

end Togpu.Hook
