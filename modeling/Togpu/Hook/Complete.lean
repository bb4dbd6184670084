import Togpu.Hook.Relocation
import Togpu.Hook.HookSpec

/-!
# Relocating a whole function

What `symbol_hook` makes of every address-dependent instruction of the function it copies.

* `RelocationComplete` — each such instruction whose target lies outside the function either keeps
  its target in the copy, or the function is not patched at all.
* **When it holds** (`relocationComplete_iff`): exactly when `symbol_hook` refuses, or every such
  instruction is `Relocatable`. A branch other than `E8` and `E9`, a VEX-encoded RIP-relative `E8`
  or `E9` and a target too far from the copy are not.
* **What is done is exact** (`relocation_exact`): the instructions that the code handles point where
  they should, and every other byte is as it was.
-/

namespace Togpu.Hook

open Togpu.Driver Togpu.Lib Togpu.X86

/-! ## The sweep in the text and in the buffer -/

section Sweep

variable {mem : Addr → BitVec 8} {sym : KernSym} {tail : ℕ} (hp : Placed mem sym tail)

include hp

/-- The buffer is not the function.
Kind: L -/
theorem Placed.copyOf_ne (a : Addr) : sym.copyOf a ≠ a := by
  intro heq
  have happ := hp.apart 0 (by omega)
  have hsame : sym.newAddr = sym.addr := by
    rw [KernSym.copyOf, add_comm, sub_add_eq_add_sub, sub_eq_iff_eq_add] at heq
    exact add_left_cancel heq
  rw [hsame] at happ
  simp [KernSym.reach] at happ

/-- Patching the function does not touch a copied instruction.
Kind: L -/
theorem CopiedAt.of_patched {fin fin' : Addr → BitVec 8} {a : Addr} {insn : Insn} {off : ℕ}
    (h : CopiedAt mem fin sym a insn) (ha : a = sym.addr + BitVec.ofNat 64 off)
    (hoff : off < sym.size.toNat)
    (hfin : ∀ x, 5 ≤ (x - sym.addr).toNat → fin' x = fin x) :
    CopiedAt mem fin' sym a insn := by
  intro j hj
  rw [← h j hj]
  refine hfin _ ?_
  by_contra hnear
  push Not at hnear
  -- a byte of the copy among the first five of the function would be in reach of the buffer
  have hbound := insn.length.isLt
  have hreach := hp.reach_le
  have hcopy : sym.copyOf a + BitVec.ofNat 64 j = sym.newAddr + BitVec.ofNat 64 (off + j) := by
    rw [KernSym.copyOf, ha, add_sub_cancel_left, add_assoc, BitVec.ofNat_add]
  have happ := hp.apart (sym.copyOf a + BitVec.ofNat 64 j - sym.addr).toNat (by omega)
  rw [BitVec.ofNat_toNat, BitVec.setWidth_eq, add_sub_cancel, hcopy] at happ
  unfold KernSym.reach at happ hreach
  rw [toNat_add_ofNat_sub _ (by omega)] at happ
  omega

/-- Patching the function does not touch the copy.
Kind: L -/
theorem CopiedFrom.of_patched {fin fin' : Addr → BitVec 8}
    (h : CopiedFrom mem fin sym (bodyEnd mem sym) sym.addr)
    (hfin : ∀ x, 5 ≤ (x - sym.addr).toNat → fin' x = fin x) :
    CopiedFrom mem fin' sym (bodyEnd mem sym) sym.addr := by
  intro a hswept
  obtain ⟨insn, hdecode, hlength, hat⟩ := h a hswept
  obtain ⟨len, hlen, hbody⟩ := exists_bodyEnd mem sym
  have hstart : sym.addr = sym.addr + BitVec.ofNat 64 0 := by simp
  rw [hbody] at hswept
  obtain ⟨o, ho, ha⟩ := swept_offset hp.noWrap hlen hswept hstart (Nat.zero_le _)
  exact ⟨insn, hdecode, hlength, hat.of_patched hp ha (by omega) hfin⟩

end Sweep

/-! ## Two small functions -/

/-- A symbol table with one function of eight bytes.
Kind: D -/
def twoSymbols : SymTab := [("f", 0x1000), ("g", 0x1008)]

/-- A fresh `struct kernsym`.
Kind: D -/
def freshSym : KernSym :=
  ⟨0, 0, 0, none, false, fun _ => 0, 0, 0, false, false, 0⟩

/-- A kernel with the given text.
Kind: D -/
def kernelWith (mem : Addr → BitVec 8) : Kernel := ⟨mem, fun _ => false, []⟩

/-- `call 0x2000; ret` at `0x1000`.
Kind: D -/
def callText : Addr → BitVec 8 := fun x =>
  if x = 0x1000 then 0xe8 else if x = 0x1001 then 0xfb else if x = 0x1002 then 0x0f
  else if x = 0x1005 then 0xc3 else 0

/-- `jmp 0x1080`, the short form, at `0x1000`.
Kind: D -/
def jmpText : Addr → BitVec 8 := fun x =>
  if x = 0x1000 then 0xeb else if x = 0x1001 then 0x7e else 0

/-- The buffer at `0x100000` is apart from the text.
Kind: L -/
theorem placed_f (mem : Addr → BitVec 8) (h : mem 0x1008 = 0) :
    Placed mem (lookup twoSymbols 0x100000 "f" freshSym) 8 := by
  have hstop : inatIsLegacyPrefix (inatGetOpcodeAttribute 0) = false := by decide
  have haddr : (lookup twoSymbols 0x100000 "f" freshSym).addr + BitVec.ofNat 64 8 = 0x1008 := by
    decide
  refine ⟨by decide, by decide, ?_, by decide⟩
  rw [haddr, h, hstop]

/-- What decides how a decoded instruction is relocated.
Kind: D -/
def insnSummary (a : Addr) (insn : Insn) : ℕ × BitVec 8 × Bool × Bool × Option Addr :=
  (insn.nextByte, insn.length, insn.relBranch, insn.opCallJmp, insn.target a)

/-- The addresses of a sweep, from the first instruction on.
Kind: L -/
theorem Swept.cases_first {mem : Addr → BitVec 8} {endAddr a b : Addr} (h : Swept mem endAddr a b) :
    a < endAddr ∧ (b = a ∨ ∃ insn, decodeAt mem a = some insn ∧
      Swept mem endAddr (a + insn.length.setWidth 64) b) := by
  cases h with
  | here hlt => exact ⟨hlt, .inl rfl⟩
  | step hlt hdecode _ hswept => exact ⟨hlt, .inr ⟨_, hdecode, hswept⟩⟩

section Examples

/-- The function starts at `0x1000`.
Kind: L -/
theorem lookup_f_addr : (lookup twoSymbols 0x100000 "f" freshSym).addr = 0x1000 := by
  decide

/-- Its body is the jump alone.
Kind: L -/
theorem bodyEnd_jmpText : bodyEnd jmpText (lookup twoSymbols 0x100000 "f" freshSym) = 0x1002 := by
  decide

/-- Its body is the call and the return.
Kind: L -/
theorem bodyEnd_callText : bodyEnd callText (lookup twoSymbols 0x100000 "f" freshSym) = 0x1006 := by
  decide

/-- The jump is a relative branch of two bytes.
Kind: L -/
theorem decodeAt_jmpText : ∃ insn, decodeAt jmpText 0x1000 = some insn ∧
    insnSummary 0x1000 insn = (2, 2, true, false, some 0x1080) :=
  Option.map_eq_some_iff.1 (by decide)

/-- The call is a relative branch of five bytes, with a 32-bit offset.
Kind: L -/
theorem decodeAt_callText : ∃ insn, decodeAt callText 0x1000 = some insn ∧
    insnSummary 0x1000 insn = (5, 5, true, true, some 0x2000) :=
  Option.map_eq_some_iff.1 (by decide)

/-- The return has nothing to relocate.
Kind: L -/
theorem decodeAt_callText_ret : ∃ insn, decodeAt callText 0x1005 = some insn ∧
    insnSummary 0x1005 insn = (1, 1, false, false, none) :=
  Option.map_eq_some_iff.1 (by decide)

/-- The sweep over the short jump.
Kind: L -/
theorem swept_jmpText {b : Addr} (h : Swept jmpText 0x1002 0x1000 b) : b = 0x1000 := by
  obtain ⟨-, rfl | ⟨insn, hdecode, hrest⟩⟩ := h.cases_first
  · rfl
  · obtain ⟨insn', hdecode', hsum⟩ := decodeAt_jmpText
    rw [hdecode, Option.some.injEq] at hdecode'
    simp only [← hdecode', insnSummary, Prod.mk.injEq] at hsum
    rw [hsum.2.1] at hrest
    exact absurd hrest.cases_first.1 (by decide)

/-- The sweep over the call and the return.
Kind: L -/
theorem swept_callText {b : Addr} (h : Swept callText 0x1006 0x1000 b) :
    b = 0x1000 ∨ b = 0x1005 := by
  obtain ⟨-, rfl | ⟨insn, hdecode, hrest⟩⟩ := h.cases_first
  · exact .inl rfl
  · obtain ⟨insn', hdecode', hsum⟩ := decodeAt_callText
    rw [hdecode, Option.some.injEq] at hdecode'
    simp only [← hdecode', insnSummary, Prod.mk.injEq] at hsum
    have hnext : (0x1000 : Addr) + BitVec.setWidth 64 (5 : BitVec 8) = 0x1005 := by decide
    rw [hsum.2.1, hnext] at hrest
    obtain ⟨-, rfl | ⟨ret, hret, hend⟩⟩ := hrest.cases_first
    · exact .inr rfl
    · obtain ⟨ret', hret', hsum'⟩ := decodeAt_callText_ret
      rw [hret, Option.some.injEq] at hret'
      simp only [← hret', insnSummary, Prod.mk.injEq] at hsum'
      rw [hsum'.2.1] at hend
      exact absurd hend.cases_first.1 (by decide)

/-- Neither function is refused.
Kind: L -/
theorem not_refused_f {mem : Addr → BitVec 8} (hfirst : mem 0x1000 ≠ opJmpRel32)
    (hbody : bodyEnd mem (lookup twoSymbols 0x100000 "f" freshSym) ≠ 0x1000)
    (hlength : ∀ b insn,
      Swept mem (bodyEnd mem (lookup twoSymbols 0x100000 "f" freshSym)) 0x1000 b →
      decodeAt mem b = some insn → insn.length ≠ 0) :
    ¬ Refused twoSymbols 0x100000 "f" freshSym (kernelWith mem) := by
  rintro (h | h | h | h | h | ⟨b, insn, hswept, hdecode, hzero⟩)
  · exact absurd h (by decide)
  · rw [lookup_f_addr] at h
    exact hfirst h
  · exact absurd h (by decide)
  · exact absurd h (by decide)
  · rw [lookup_f_addr] at h
    exact hbody h.symm
  · rw [lookup_f_addr] at hswept
    exact hlength b insn hswept hdecode hzero

end Examples

/-! ## Completeness -/

section Hook

variable (symtab : SymTab) (buf : Addr) (symbolName : String) (code : Addr) (sym : KernSym)
  (k : Kernel)

/-- The address-dependent instructions of the function whose target lies outside it: `insn` at `a`
refers to `t`.
Kind: D -/
def Leaves (mem : Addr → BitVec 8) (func : KernSym) (a : Addr) (insn : Insn) (t : Addr) : Prop :=
  Swept mem (bodyEnd mem func) func.addr a ∧ decodeAt mem a = some insn ∧ insn.Legal ∧
    insn.target a = some t ∧ ¬ func.inside t

/-- Every such instruction keeps its target in the copy, unless `symbol_hook` returns an error and
leaves the function as it was.
Kind: C -/
def RelocationComplete : Prop :=
  ∀ a insn t, Leaves k.mem (lookup symtab buf symbolName sym) a insn t →
    (∃ ret sym' k', symbolHook symtab buf symbolName code sym k = some (ret, sym', k') ∧ ret ≠ 0 ∧
      ∀ i, i < (lookup symtab buf symbolName sym).size.toNat →
        k'.mem ((lookup symtab buf symbolName sym).addr + BitVec.ofNat 64 i) =
          k.mem ((lookup symtab buf symbolName sym).addr + BitVec.ofNat 64 i)) ∨
    ∃ sym' k' insn', symbolHook symtab buf symbolName code sym k = some (0, sym', k') ∧
      decodeAt k'.mem ((lookup symtab buf symbolName sym).copyOf a) = some insn' ∧
      insn'.target ((lookup symtab buf symbolName sym).copyOf a) = some t

variable {symtab buf symbolName sym k}

/-- After a successful hook, every instruction of the sweep stands in the buffer.
Kind: L -/
theorem copiedAt_of_symbolHook
    (hplaced : (findSymbolAddress symtab sym symbolName).1 = 0 → buf ≠ 0 →
      ∃ tail, Placed k.mem (lookup symtab buf symbolName sym) tail)
    (hok : ¬ Refused symtab buf symbolName sym k) :
    ∃ sym' k', symbolHook symtab buf symbolName code sym k = some (0, sym', k') ∧
      ∀ a insn, Swept k.mem (bodyEnd k.mem (lookup symtab buf symbolName sym))
          (lookup symtab buf symbolName sym).addr a → decodeAt k.mem a = some insn →
        CopiedAt k.mem k'.mem (lookup symtab buf symbolName sym) a insn ∧
          (lookup symtab buf symbolName sym).copyOf a ≠ a := by
  rcases symbolHook_spec code hplaced with
    ⟨hrefused, -⟩ | ⟨-, tail, s, off, sym', k', hp, -, hcopied, hrun, hpatched⟩
  · exact absurd hrefused hok
  refine ⟨sym', k', hrun, fun a insn hswept hdecode => ⟨?_, hp.copyOf_ne a⟩⟩
  obtain ⟨insn', hdecode', -, hat⟩ := hcopied.of_patched hp hpatched a hswept
  rw [hdecode, Option.some.injEq] at hdecode'
  rw [← hdecode'] at hat
  exact hat

/-- What the code does meet the claim on.
Kind: L -/
theorem relocationComplete_of_relocatable
    (hplaced : (findSymbolAddress symtab sym symbolName).1 = 0 → buf ≠ 0 →
      ∃ tail, Placed k.mem (lookup symtab buf symbolName sym) tail)
    (h : Refused symtab buf symbolName sym k ∨
      ∀ a insn t, Leaves k.mem (lookup symtab buf symbolName sym) a insn t →
        Relocatable (lookup symtab buf symbolName sym) insn a) :
    RelocationComplete symtab buf symbolName code sym k := by
  intro a insn t hleaves
  by_cases hrefused : Refused symtab buf symbolName sym k
  · rcases symbolHook_spec code hplaced with
      ⟨-, ret, sym', k', hrun, hneg, hmem⟩ | ⟨hok, -⟩
    · refine .inl ⟨ret, sym', k', hrun, hneg.ne, fun i hi => ?_⟩
      rcases hmem with hmem | ⟨⟨tail, hp⟩, hmem⟩
      · rw [hmem]
      · have htail := hp.size_le
        exact hmem _ (hp.apart i (by omega))
    · exact absurd hrefused hok
  · obtain ⟨sym', k', hrun, hcopied⟩ := copiedAt_of_symbolHook code hplaced hrefused
    have hreloc := h.resolve_left hrefused a insn t hleaves
    obtain ⟨hswept, hdecode, hlegal, ht, hout⟩ := hleaves
    obtain ⟨hat, hmoved⟩ := hcopied a insn hswept hdecode
    obtain ⟨insn', hdecode', htarget⟩ := (hat.target_iff hdecode hlegal.lt hmoved ht hout).2 hreloc
    exact .inr ⟨sym', k', insn', hrun, hdecode', htarget⟩

/-- What the code does not meet the claim on.
Kind: L -/
theorem relocatable_of_relocationComplete
    (hplaced : (findSymbolAddress symtab sym symbolName).1 = 0 → buf ≠ 0 →
      ∃ tail, Placed k.mem (lookup symtab buf symbolName sym) tail)
    (h : RelocationComplete symtab buf symbolName code sym k) :
    Refused symtab buf symbolName sym k ∨
      ∀ a insn t, Leaves k.mem (lookup symtab buf symbolName sym) a insn t →
        Relocatable (lookup symtab buf symbolName sym) insn a := by
  refine or_iff_not_imp_left.2 fun hok a insn t hleaves => ?_
  obtain ⟨sym', k', hrun, hcopied⟩ := copiedAt_of_symbolHook code hplaced hok
  have hcase := h a insn t hleaves
  obtain ⟨hswept, hdecode, hlegal, ht, hout⟩ := hleaves
  obtain ⟨hat, hmoved⟩ := hcopied a insn hswept hdecode
  rcases hcase with ⟨ret, sym'', k'', hrun', hne, -⟩ | ⟨sym'', k'', insn', hrun', hdecode', htarget⟩
  · rw [hrun, Option.some.injEq, Prod.mk.injEq] at hrun'
    exact absurd hrun'.1.symm hne
  · rw [hrun, Option.some.injEq, Prod.mk.injEq, Prod.mk.injEq] at hrun'
    rw [← hrun'.2.2] at hdecode'
    exact (hat.target_iff hdecode hlegal.lt hmoved ht hout).1 ⟨insn', hdecode', htarget⟩

/-- **When relocation is complete.** With the buffer apart from the text, `symbol_hook` returns an
error without patching, or keeps the target of every address-dependent instruction that leaves the
function, exactly when it refuses the inputs or all those instructions are relocatable.
Source: `xt_TOGPU_hook.c` 50–98, 193–287
Kind: C
Fidelity: exact
Hyps: `hplaced`, the contract of `module_alloc` and the text behind the function -/
theorem relocationComplete_iff (code : Addr)
    (hplaced : (findSymbolAddress symtab sym symbolName).1 = 0 → buf ≠ 0 →
      ∃ tail, Placed k.mem (lookup symtab buf symbolName sym) tail) :
    RelocationComplete symtab buf symbolName code sym k ↔
      (Refused symtab buf symbolName sym k ∨
        ∀ a insn t, Leaves k.mem (lookup symtab buf symbolName sym) a insn t →
          Relocatable (lookup symtab buf symbolName sym) insn a) :=
  ⟨relocatable_of_relocationComplete code hplaced, relocationComplete_of_relocatable code hplaced⟩

/-- The short jump leaves the function, and its copy does not: `EB` is not among the opcodes that
`copy_and_fixup_insn` rewrites.
Kind: C -/
theorem not_relocationComplete_jmp :
    ¬ RelocationComplete twoSymbols 0x100000 "f" 0x300000 freshSym (kernelWith jmpText) := by
  intro h
  have hplaced := placed_f jmpText (by decide)
  obtain ⟨insn, hdecode, hsum⟩ := decodeAt_jmpText
  simp only [insnSummary, Prod.mk.injEq] at hsum
  obtain ⟨hnext, hlength, hrel, hop, htarget⟩ := hsum
  rcases relocatable_of_relocationComplete 0x300000 (fun _ _ => ⟨8, hplaced⟩) h with hrefused | hall
  · refine not_refused_f (by decide) (by rw [bodyEnd_jmpText]; decide) ?_ hrefused
    intro b insn' hswept hdecode'
    rw [bodyEnd_jmpText] at hswept
    rw [swept_jmpText hswept, hdecode, Option.some.injEq] at hdecode'
    rw [← hdecode', hlength]
    decide
  · have hleaves : Leaves jmpText (lookup twoSymbols 0x100000 "f" freshSym) 0x1000 insn 0x1080 := by
      refine ⟨?_, hdecode, by rw [Insn.Legal, hnext]; decide, htarget, by decide⟩
      rw [bodyEnd_jmpText, lookup_f_addr]
      exact .here (by decide)
    have hreloc := hall 0x1000 insn 0x1080 hleaves
    rw [Relocatable, if_pos hrel, hop] at hreloc
    exact absurd hreloc.1 nofun

/-- The call leaves the function too, and keeps its target.
Kind: C -/
theorem relocationComplete_call :
    RelocationComplete twoSymbols 0x100000 "f" 0x300000 freshSym (kernelWith callText) ∧
      ∃ insn, Leaves callText (lookup twoSymbols 0x100000 "f" freshSym) 0x1000 insn 0x2000 := by
  have hplaced := placed_f callText (by decide)
  obtain ⟨insn, hdecode, hsum⟩ := decodeAt_callText
  obtain ⟨ret, hret, hsum'⟩ := decodeAt_callText_ret
  simp only [insnSummary, Prod.mk.injEq] at hsum hsum'
  obtain ⟨hnext, hlength, hrel, hop, htarget⟩ := hsum
  refine ⟨(relocationComplete_iff 0x300000 fun _ _ => ⟨8, hplaced⟩).2 (.inr ?_), insn, ?_⟩
  · rintro a insn' t ⟨hswept, hdecode', -, ht, -⟩
    rw [lookup_f_addr] at hswept
    change Swept callText (bodyEnd callText _) _ _ at hswept
    rw [bodyEnd_callText] at hswept
    change decodeAt callText a = some insn' at hdecode'
    rcases swept_callText hswept with rfl | rfl
    · rw [hdecode, Option.some.injEq] at hdecode'
      rw [← hdecode', Relocatable, if_pos hrel]
      rw [Insn.target, if_pos (.inl hrel), Insn.narrow, if_neg (by simp [hrel]),
        Option.some.injEq] at htarget
      rw [htarget, hlength]
      exact ⟨hop, by unfold FitsS32; decide⟩
    · rw [hret, Option.some.injEq] at hdecode'
      rw [← hdecode', hsum'.2.2.2.2] at ht
      cases ht
  · refine ⟨?_, hdecode, by rw [Insn.Legal, hnext]; decide, htarget, by decide⟩
    rw [bodyEnd_callText, lookup_f_addr]
    exact .here (by decide)

/-- A hook that returned zero was not refused.
Kind: L -/
theorem not_refused_of_symbolHook {sym' : KernSym} {k' : Kernel}
    (hplaced : (findSymbolAddress symtab sym symbolName).1 = 0 → buf ≠ 0 →
      ∃ tail, Placed k.mem (lookup symtab buf symbolName sym) tail)
    (hrun : symbolHook symtab buf symbolName code sym k = some (0, sym', k')) :
    ¬ Refused symtab buf symbolName sym k := by
  intro hrefused
  rcases symbolHook_spec code hplaced with ⟨-, ret, sym'', k'', hrun', hneg, -⟩ | ⟨hok, -⟩
  · rw [hrun, Option.some.injEq, Prod.mk.injEq] at hrun'
    omega
  · exact hok hrefused

/-- **Relocation is exact where it is done.** After a successful hook, a rel32 call or jump without
VEX prefix and a RIP-relative instruction with another opcode stand in the buffer with their offset
field at most changed. One that leaves the function refers to the same address if the new offset
fits; one that stays in it refers to the same place in the copy. Every other instruction except
VEX-encoded `E8` and `E9` is copied byte for byte.
Source: `xt_TOGPU_hook.c` 33–98, 229–266
Kind: C
Fidelity: exact
Hyps: `hplaced`, the contract of `module_alloc` and the text behind the function; `hlt`, the length
of the instruction fits its field -/
theorem relocation_exact {sym' : KernSym} {k' : Kernel} {a : Addr} {insn : Insn}
    (hplaced : (findSymbolAddress symtab sym symbolName).1 = 0 → buf ≠ 0 →
      ∃ tail, Placed k.mem (lookup symtab buf symbolName sym) tail)
    (hrun : symbolHook symtab buf symbolName code sym k = some (0, sym', k'))
    (hswept : Swept k.mem (bodyEnd k.mem (lookup symtab buf symbolName sym))
      (lookup symtab buf symbolName sym).addr a)
    (hdecode : decodeAt k.mem a = some insn) (hlt : insn.nextByte < 256) :
    let func := lookup symtab buf symbolName sym
    let dest := func.copyOf a
    let t := codeAddrFromOffset a insn.length insn.offset
    (insn.isAvx = false ∧ insn.opCallJmp = true ∨
        insn.ripRelative = true ∧ insn.opCallJmp = false →
      (∃ insn', decodeAt k'.mem dest = some insn' ∧ SameForm insn insn' ∧
        (¬ func.inside t → FitsS32 (t - (dest + insn.length.setWidth 64)) →
          codeAddrFromOffset dest insn'.length insn'.offset = t) ∧
        (func.inside t → codeAddrFromOffset dest insn'.length insn'.offset =
          func.newAddr + (t - func.addr))) ∧
      ∀ j, j < insn.length.toNat → j < (fixupField insn).2 ∨ (fixupField insn).2 + 4 ≤ j →
        k'.mem (dest + BitVec.ofNat 64 j) = k.mem (a + BitVec.ofNat 64 j)) ∧
    (insn.opCallJmp = false → insn.ripRelative = false → ∀ j, j < insn.length.toNat →
      k'.mem (dest + BitVec.ofNat 64 j) = k.mem (a + BitVec.ofNat 64 j)) := by
  intro func dest t
  have hok := not_refused_of_symbolHook code hplaced hrun
  obtain ⟨sym'', k'', hrun', hcopied⟩ := copiedAt_of_symbolHook code hplaced hok
  rw [hrun, Option.some.injEq, Prod.mk.injEq, Prod.mk.injEq] at hrun'
  rw [← hrun'.2.2] at hcopied
  have hat : CopiedAt k.mem k'.mem func a insn := (hcopied a insn hswept hdecode).1
  refine ⟨fun hkind => ⟨?_, fun j hj hother => hat.byte_same hj fun _ => hother⟩, ?_⟩
  · have hkind' : insn.relBranch = true ∧ insn.opCallJmp = true ∨
        insn.ripRelative = true ∧ insn.opCallJmp = false := by
      refine hkind.imp_left fun hcall => ⟨?_, hcall.2⟩
      simp [Insn.relBranch, hcall.1, hcall.2]
    have hfield : fixupAddr insn a = t := by
      refine fixupAddr_eq ?_
      rcases hkind' with ⟨hrel, hop⟩ | ⟨hrip, hop⟩
      · exact hrel.trans hop.symm
      · exact (relBranch_of_ripRelative hdecode hrip).trans hop.symm
    by_cases hin : func.inside t
    · -- inside the function nothing is rewritten, and the whole function has moved
      have hfixed : ¬ Fixed func insn a := fun hf => hf.2 (by rw [hfield]; exact hin)
      refine ⟨insn, hat.decode_same hdecode hlt hfixed, ⟨rfl, rfl, rfl, rfl, rfl⟩,
        fun hnot => absurd hin hnot, fun _ => ?_⟩
      simp only [dest, t, codeAddrFromOffset, KernSym.copyOf]
      ring
    · have hfixed : Fixed func insn a := by
        refine ⟨?_, by rw [hfield]; exact hin⟩
        exact hkind'.imp And.right And.left
      obtain ⟨insn', hdecode', hform, hoffset⟩ := hat.decode_fixed hdecode hlt hfixed hkind'
      refine ⟨insn', hdecode', hform, fun _ hfits => ?_, fun hyes => absurd hyes hin⟩
      rw [hoffset, hform.length]
      exact (codeAddrFromOffset_codeOffsetFromAddr _ _ _).2 hfits
  · intro hop hrip j hj
    refine hat.byte_same hj fun hf => ?_
    rcases hf.1 with hop' | hrip'
    · exact absurd (hop.symm.trans hop') Bool.false_ne_true
    · exact absurd (hrip.symm.trans hrip') Bool.false_ne_true

/-- The call above, after the hook: the copy at `0x100000` calls `0x2000`.
Kind: C -/
theorem relocation_exact_call : ∃ sym' k' insn',
    symbolHook twoSymbols 0x100000 "f" 0x300000 freshSym (kernelWith callText) =
        some (0, sym', k') ∧
      decodeAt k'.mem 0x100000 = some insn' ∧
      codeAddrFromOffset 0x100000 insn'.length insn'.offset = 0x2000 := by
  have hplaced := placed_f callText (by decide)
  obtain ⟨insn, hdecode, hsum⟩ := decodeAt_callText
  obtain ⟨ret, hret, hsum'⟩ := decodeAt_callText_ret
  simp only [insnSummary, Prod.mk.injEq] at hsum hsum'
  obtain ⟨hnext, hlength, hrel, hop, htarget⟩ := hsum
  have hok : ¬ Refused twoSymbols 0x100000 "f" freshSym (kernelWith callText) := by
    refine not_refused_f (by decide) (by rw [bodyEnd_callText]; decide) fun b i hswept hi => ?_
    rw [bodyEnd_callText] at hswept
    rcases swept_callText hswept with rfl | rfl
    · rw [hdecode, Option.some.injEq] at hi
      rw [← hi, hlength]
      decide
    · rw [hret, Option.some.injEq] at hi
      rw [← hi, hsum'.2.1]
      decide
  obtain ⟨sym', k', hrun, -⟩ := copiedAt_of_symbolHook 0x300000 (k := kernelWith callText)
    (fun _ _ => ⟨8, hplaced⟩) hok
  have hswept : Swept callText (bodyEnd callText (lookup twoSymbols 0x100000 "f" freshSym))
      (lookup twoSymbols 0x100000 "f" freshSym).addr 0x1000 := by
    rw [bodyEnd_callText, lookup_f_addr]
    exact .here (by decide)
  obtain ⟨⟨insn', hdecode', -, houtside, -⟩, -⟩ :=
    (relocation_exact 0x300000 (k := kernelWith callText) (fun _ _ => ⟨8, hplaced⟩) hrun hswept
      hdecode (by omega)).1 (.inl ⟨(of_decide_eq_true hrel).1, hop⟩)
  rw [Insn.target, if_pos (.inl hrel), Insn.narrow, if_neg (by simp [hrel]),
    Option.some.injEq] at htarget
  have hcopy : (lookup twoSymbols 0x100000 "f" freshSym).copyOf 0x1000 = 0x100000 := by
    decide
  rw [htarget, hcopy, hlength] at houtside
  rw [hcopy] at hdecode'
  exact ⟨sym', k', insn', hrun, hdecode',
    houtside (by decide) (by unfold FitsS32; decide)⟩

end Hook

end Togpu.Hook
