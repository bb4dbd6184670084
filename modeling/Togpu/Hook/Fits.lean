import Togpu.Hook.Complete
import Togpu.Hook.Extent

/-!
# Whether the copy fits its buffer

`symbol_hook` allocates as many bytes as the function has and copies whole instructions until it has
passed the last nonzero byte. Here the copy loop keeps a log of the addresses it writes.

* `insnWrites` — the bytes that one instruction's copy and fixup write; nothing else changes
  (`copyAndFixupInsn_of_notMem`).
* `copyLoopLog` — the copy loop with its log; without the log it is `copyLoop`
  (`copyLoopLog_fst`).
* **The log is the sweep** (`copyLoopLog_spec`): the loop ends, and it writes the bytes of exactly
  the instructions of the sweep.
* `CopyFits` — every byte written is in the buffer, the new size is at most the old one, and the
  copy covers the function up to its last nonzero byte.
* **When it holds** (`copyFits_iff`): exactly when every instruction of the sweep, with its fixup,
  ends inside the symbol. The last one need not: the loop tests where an instruction starts.
-/

namespace Togpu.Hook

open Togpu.Driver Togpu.Lib Togpu.X86

/-! ## What is written -/

instance (sym : KernSym) (insn : Insn) (a : Addr) : Decidable (Fixed sym insn a) :=
  inferInstanceAs (Decidable (_ ∧ _))

/-- The `n` addresses from `a` on.
Kind: D -/
def addrsFrom (a : Addr) (n : ℕ) : List Addr := (List.range n).map fun j => a + BitVec.ofNat 64 j

/-- The addresses `copy_and_fixup_insn` writes: the copied bytes, and the field if it is fixed up.
Source: `xt_TOGPU_hook.c` 57–96
Kind: D -/
def insnWrites (insn : Insn) (kaddr dest : Addr) (func : KernSym) : List Addr :=
  addrsFrom dest insn.length.toNat ++
    if Fixed func insn kaddr then addrsFrom (dest + BitVec.ofNat 64 (fixupField insn).2) 4 else []

/-- The copy loop, with the addresses it writes.
Source: `xt_TOGPU_hook.c` 245–262
Kind: D -/
def copyLoopLog (func : KernSym) (endAddr : Addr) :
    ℕ → CopyState → Option (CopyResult × List Addr)
  | 0, s => if s.orig < endAddr then none else some (.done s, [])
  | fuel + 1, s =>
      if s.orig < endAddr then
        match decodeAt s.mem s.orig with
        | none => none
        | some insn =>
            if insn.length = 0 then some (.undecodable s, [])
            else
              (copyLoopLog func endAddr fuel (s.next func insn)).map fun r =>
                (r.1, insnWrites insn s.orig s.dest func ++ r.2)
      else some (.done s, [])

section Log

variable {mem : Addr → BitVec 8} {insn : Insn} {kaddr dest x a : Addr} {func : KernSym} {n : ℕ}

/-- An address is among the `n` from `a` on if it is that close.
Kind: L -/
theorem mem_addrsFrom (hn : n ≤ 2 ^ 64) : x ∈ addrsFrom a n ↔ (x - a).toNat < n := by
  unfold addrsFrom
  rw [List.mem_map]
  constructor
  · rintro ⟨j, hj, rfl⟩
    rw [List.mem_range] at hj
    rw [toNat_add_ofNat_sub a (by omega)]
    exact hj
  · intro hx
    refine ⟨(x - a).toNat, List.mem_range.2 hx, ?_⟩
    rw [BitVec.ofNat_toNat, BitVec.setWidth_eq, add_sub_cancel]

/-- The loop with its log is the loop.
Kind: L -/
theorem copyLoopLog_fst (func : KernSym) (endAddr : Addr) (fuel : ℕ) (s : CopyState) :
    (copyLoopLog func endAddr fuel s).map Prod.fst = copyLoop func endAddr fuel s := by
  induction fuel generalizing s with
  | zero =>
      rw [copyLoopLog, copyLoop]
      split_ifs <;> rfl
  | succ fuel ih =>
      rw [copyLoopLog, copyLoop]
      split_ifs with hlt
      · cases decodeAt s.mem s.orig with
        | none => rfl
        | some insn =>
            dsimp only
            split_ifs
            · rfl
            · rw [Option.map_map, ← ih (s.next func insn)]
              rfl
      · rfl

/-- The bytes of the copy and, if it is fixed up, of the field.
Kind: L -/
theorem mem_insnWrites :
    x ∈ insnWrites insn kaddr dest func ↔ (x - dest).toNat < insn.length.toNat ∨
      Fixed func insn kaddr ∧ (x - (dest + BitVec.ofNat 64 (fixupField insn).2)).toNat < 4 := by
  have hlen := insn.length.isLt
  unfold insnWrites
  rw [List.mem_append, mem_addrsFrom (by omega)]
  by_cases hfixed : Fixed func insn kaddr
  · rw [if_pos hfixed, mem_addrsFrom (by omega)]
    simp only [hfixed, true_and]
  · rw [if_neg hfixed]
    simp only [hfixed, false_and, List.not_mem_nil]

/-- **Nothing else is written.**
Kind: L -/
theorem copyAndFixupInsn_of_notMem (hx : x ∉ insnWrites insn kaddr dest func) :
    copyAndFixupInsn mem insn kaddr dest func x = mem x := by
  rw [mem_insnWrites, not_or] at hx
  obtain ⟨hcopy, hfix⟩ := hx
  have hcopied : memcpy mem dest kaddr insn.length.toNat x = mem x :=
    memcpy_of_le (Nat.le_of_not_lt hcopy)
  unfold copyAndFixupInsn fixupOffset
  unfold Fixed fixupAddr fixupField at hfix
  dsimp only
  split_ifs at hfix ⊢ with hop hinside hrip hinside
  · exact hcopied
  · rw [storeLE_of_le (Nat.le_of_not_lt fun hlt => hfix ⟨⟨.inl hop, hinside⟩, hlt⟩), hcopied]
  · exact hcopied
  · rw [storeLE_of_le (Nat.le_of_not_lt fun hlt => hfix ⟨⟨.inr hrip, hinside⟩, hlt⟩), hcopied]
  · exact hcopied

end Log

/-! ## The log of the loop -/

/-- The instruction `insn` at `b` is one that the sweep from `a` copies.
Kind: D -/
def SweptInsn (mem : Addr → BitVec 8) (endAddr a b : Addr) (insn : Insn) : Prop :=
  Swept mem endAddr a b ∧ decodeAt mem b = some insn ∧ insn.length ≠ 0

section Loop

variable {mem : Addr → BitVec 8} {endAddr a b : Addr} {insn insn' : Insn}

/-- Past the end nothing is copied.
Kind: L -/
theorem not_sweptInsn_of_not_lt (h : ¬ a < endAddr) : ¬ SweptInsn mem endAddr a b insn :=
  fun hs => h hs.1.cases_first.1

/-- An instruction of length zero ends the sweep.
Kind: L -/
theorem not_sweptInsn_of_zero (hdecode : decodeAt mem a = some insn) (hzero : insn.length = 0) :
    ¬ SweptInsn mem endAddr a b insn' := by
  rintro ⟨hswept, hdecode', hne⟩
  cases hswept with
  | here _ =>
      rw [hdecode, Option.some.injEq] at hdecode'
      rw [← hdecode'] at hne
      exact hne hzero
  | step _ hdec hpos _ =>
      rw [hdecode, Option.some.injEq] at hdec
      rw [← hdec] at hpos
      exact hpos hzero

/-- The first instruction and the others.
Kind: L -/
theorem sweptInsn_iff (hlt : a < endAddr) (hdecode : decodeAt mem a = some insn)
    (hpos : insn.length ≠ 0) :
    SweptInsn mem endAddr a b insn' ↔
      (b = a ∧ insn' = insn) ∨ SweptInsn mem endAddr (a + insn.length.setWidth 64) b insn' := by
  constructor
  · rintro ⟨hswept, hdecode', hne⟩
    cases hswept with
    | here _ =>
        rw [hdecode, Option.some.injEq] at hdecode'
        exact .inl ⟨rfl, hdecode'.symm⟩
    | step _ hdec _ hrest =>
        rw [hdecode, Option.some.injEq] at hdec
        rw [← hdec] at hrest
        exact .inr ⟨hrest, hdecode', hne⟩
  · rintro (⟨rfl, rfl⟩ | ⟨hswept, hdecode', hne⟩)
    · exact ⟨.here hlt, hdecode, hpos⟩
    · exact ⟨.step hlt hdecode hpos hswept, hdecode', hne⟩

/-- The addresses that the sweep from `a` writes.
Kind: D -/
def SweepWrites (mem : Addr → BitVec 8) (sym : KernSym) (endAddr a x : Addr) : Prop :=
  ∃ b insn, SweptInsn mem endAddr a b insn ∧ x ∈ insnWrites insn b (sym.copyOf b) sym

/-- Where the loop stands after the sweep from `off` bytes into the function: past `len`, at the end
of an instruction, with every byte in between written.
Kind: D -/
structure SweepEnds (mem : Addr → BitVec 8) (sym : KernSym) (len off : ℕ) (log : List Addr)
    (s : CopyState) (off' : ℕ) : Prop where
  /-- The variables. -/
  at_end : CopyAt mem sym s off'
  /-- The sweep has reached the end. -/
  len_le : len ≤ off'
  /-- It stands behind an instruction, if there was one. -/
  last : off' = off ∨ ∃ b insn,
    SweptInsn mem (sym.addr + BitVec.ofNat 64 len) (sym.addr + BitVec.ofNat 64 off) b insn ∧
      off' = (b - sym.addr).toNat + insn.length.toNat
  /-- Everything in between is written. -/
  covers : ∀ j, off ≤ j → j < off' → sym.newAddr + BitVec.ofNat 64 j ∈ log

variable {sym : KernSym} {tail : ℕ} (hp : Placed mem sym tail)

include hp

/-- Past the end the loop is done, with nothing written.
Kind: L -/
theorem CopyAt.sweepEnds {len off : ℕ} {s : CopyState} (h : CopyAt mem sym s off)
    (hlen : len ≤ sym.size.toNat) (hge : ¬ s.orig < sym.addr + BitVec.ofNat 64 len) :
    (∀ x, ¬ SweepWrites mem sym (sym.addr + BitVec.ofNat 64 len) s.orig x) ∧
      SweepEnds mem sym len off [] s off := by
  refine ⟨?_, h, ?_, .inl rfl, fun j hle hlt => absurd hlt (by omega)⟩
  · rintro x ⟨b, insn, hs, -⟩
    exact not_sweptInsn_of_not_lt hge hs
  · rw [h.lt_iff hp.noWrap hlen] at hge
    omega

omit hp in
/-- One more round: the copy and the fixup of its instruction come before the rest of the log.
Kind: L -/
theorem CopyAt.sweepWrites {len off : ℕ} {s : CopyState} (h : CopyAt mem sym s off)
    (hlt : s.orig < sym.addr + BitVec.ofNat 64 len) (hdecode : decodeAt mem s.orig = some insn)
    (hpos : insn.length ≠ 0) {log : List Addr}
    (hlog : ∀ x, x ∈ log ↔
      SweepWrites mem sym (sym.addr + BitVec.ofNat 64 len) (s.next sym insn).orig x) (x : Addr) :
    x ∈ insnWrites insn s.orig s.dest sym ++ log ↔
      SweepWrites mem sym (sym.addr + BitVec.ofNat 64 len) s.orig x := by
  have hdest : sym.copyOf s.orig = s.dest := by
    rw [KernSym.copyOf, h.orig, h.dest, add_sub_cancel_left]
  rw [List.mem_append, hlog]
  unfold SweepWrites
  constructor
  · rintro (hfirst | ⟨b, insn', hs, hx⟩)
    · exact ⟨s.orig, insn, (sweptInsn_iff hlt hdecode hpos).2 (.inl ⟨rfl, rfl⟩), hdest ▸ hfirst⟩
    · exact ⟨b, insn', (sweptInsn_iff hlt hdecode hpos).2 (.inr hs), hx⟩
  · rintro ⟨b, insn', hs, hx⟩
    rcases (sweptInsn_iff hlt hdecode hpos).1 hs with ⟨rfl, rfl⟩ | hs
    · exact .inl (hdest ▸ hx)
    · exact .inr ⟨b, insn', hs, hx⟩

/-- One more round: what the later ones reach and cover.
Kind: L -/
theorem CopyAt.sweepEnds_cons {len off off' : ℕ} {s s' : CopyState} (h : CopyAt mem sym s off)
    (hoff : off < sym.size.toNat) (hlt : s.orig < sym.addr + BitVec.ofNat 64 len)
    (hdecode : decodeAt mem s.orig = some insn) (hpos : insn.length ≠ 0) {log : List Addr}
    (hends : SweepEnds mem sym len (off + insn.length.toNat) log s' off') :
    SweepEnds mem sym len off (insnWrites insn s.orig s.dest sym ++ log) s' off' := by
  have hbound := insn.length.isLt
  have hwrap := hp.noWrap
  have hnext : sym.addr + BitVec.ofNat 64 (off + insn.length.toNat) =
      s.orig + insn.length.setWidth 64 := by
    rw [h.orig, BitVec.ofNat_add, ← add_assoc, ← BitVec.ofNat_toNat 64 insn.length]
  refine ⟨hends.at_end, hends.len_le, .inr ?_, fun j hle hj => ?_⟩
  · rw [← h.orig]
    rcases hends.last with rfl | ⟨b, insn', hs, heq⟩
    · refine ⟨s.orig, insn, (sweptInsn_iff hlt hdecode hpos).2 (.inl ⟨rfl, rfl⟩), ?_⟩
      rw [h.orig, toNat_add_ofNat_sub _ (by omega)]
    · rw [hnext] at hs
      exact ⟨b, insn', (sweptInsn_iff hlt hdecode hpos).2 (.inr hs), heq⟩
  · rw [List.mem_append]
    rcases Nat.lt_or_ge j (off + insn.length.toNat) with hin | hout
    · refine .inl (mem_insnWrites.2 (.inl ?_))
      have hdist : (sym.newAddr + BitVec.ofNat 64 j - sym.newAddr).toNat = j :=
        toNat_add_ofNat_sub _ (by omega)
      rw [h.dest, toNat_sub_add_ofNat (by rw [hdist]; exact hle), hdist]
      omega
    · exact .inr (hends.covers j hout hj)

/-- **The log is the sweep.**
Kind: P -/
theorem copyLoopLog_spec {len : ℕ} (hlen : len ≤ sym.size.toNat) {fuel off : ℕ} {s : CopyState}
    (h : CopyAt mem sym s off) (hfuel : len ≤ off + fuel) :
    ∃ r log, copyLoopLog sym (sym.addr + BitVec.ofNat 64 len) fuel s = some (r, log) ∧
      (∀ x, x ∈ log ↔ SweepWrites mem sym (sym.addr + BitVec.ofNat 64 len) s.orig x) ∧
      ∀ s', r = .done s' → ∃ off', SweepEnds mem sym len off log s' off' := by
  induction fuel generalizing s off with
  | zero =>
      have hge : ¬ s.orig < sym.addr + BitVec.ofNat 64 len := by
        rw [h.lt_iff hp.noWrap hlen]
        omega
      obtain ⟨hnone, hends⟩ := h.sweepEnds hp hlen hge
      refine ⟨.done s, [], ?_, fun x => iff_of_false List.not_mem_nil (hnone x), ?_⟩
      · rw [copyLoopLog, if_neg hge]
      · rintro s' heq
        cases heq
        exact ⟨off, hends⟩
  | succ fuel ih =>
      by_cases hlt : s.orig < sym.addr + BitVec.ofNat 64 len
      · obtain ⟨hoff, insn, hdecode, hdecode'⟩ := h.exists_decode hp hlen hlt
        by_cases hzero : insn.length = 0
        · refine ⟨.undecodable s, [], ?_, fun x => iff_of_false List.not_mem_nil ?_, nofun⟩
          · rw [copyLoopLog, if_pos hlt, hdecode']
            exact if_pos hzero
          · rintro ⟨b, insn', hs, -⟩
            exact not_sweptInsn_of_zero hdecode hzero hs
        · have hpos : 0 < insn.length.toNat := by
            rw [Nat.pos_iff_ne_zero]
            exact fun h0 => hzero (BitVec.eq_of_toNat_eq h0)
          have hnext := (h.next hp.noWrap (by omega) insn).1
          obtain ⟨r, log, hrun, hlog, hdone⟩ := ih hnext (by omega)
          refine ⟨r, insnWrites insn s.orig s.dest sym ++ log, ?_,
            h.sweepWrites hlt hdecode hzero hlog, fun s' hs' => ?_⟩
          · rw [copyLoopLog, if_pos hlt, hdecode']
            dsimp only
            rw [if_neg hzero, hrun]
            rfl
          · obtain ⟨off', hends⟩ := hdone s' hs'
            exact ⟨off', h.sweepEnds_cons hp (by omega) hlt hdecode hzero hends⟩
      · obtain ⟨hnone, hends⟩ := h.sweepEnds hp hlen hlt
        refine ⟨.done s, [], ?_, fun x => iff_of_false List.not_mem_nil (hnone x), ?_⟩
        · rw [copyLoopLog, if_neg hlt]
        · rintro s' heq
          cases heq
          exact ⟨off, hends⟩

end Loop

/-! ## The call -/

section Call

variable (symtab : SymTab) (buf : Addr) (symbolName : String) (code : Addr) (sym : KernSym)
  (k : Kernel)

/-- The call gets to the copy loop.
Source: `xt_TOGPU_hook.c` 203–227
Kind: D -/
def EntersLoop : Prop :=
  (findSymbolAddress symtab sym symbolName).1 = 0 ∧
    k.mem (lookup symtab buf symbolName sym).addr ≠ opJmpRel32 ∧ buf ≠ 0 ∧
    opJmpSize ≤ (lookup symtab buf symbolName sym).size.toNat

/-- Memory with the buffer zeroed.
Source: `xt_TOGPU_hook.c` 222
Kind: D -/
def zeroed : Addr → BitVec 8 := memset k.mem buf 0 (lookup symtab buf symbolName sym).size.toNat

/-- The copy loop of the call, with its log.
Source: `xt_TOGPU_hook.c` 229–262
Kind: D -/
def copyLog : Option (CopyResult × List Addr) :=
  let func := lookup symtab buf symbolName sym
  let mem := zeroed symtab buf symbolName sym k
  copyLoopLog func (bodyEnd mem func) func.size.toNat ⟨mem, func.addr, func.newAddr⟩

/-- The relocated copy fits its buffer.
Kind: D -/
structure CopyFits : Prop where
  /-- The loop ends, and every byte it writes is in the buffer. -/
  inside : EntersLoop symtab buf symbolName sym k → ∃ r log, copyLog symtab buf symbolName sym k =
    some (r, log) ∧ ∀ x ∈ log, (x - buf).toNat < (lookup symtab buf symbolName sym).size.toNat
  /-- A call that returns zero has used at most the size of the function … -/
  newSize : ∀ sym' k', symbolHook symtab buf symbolName code sym k = some (0, sym', k') →
    sym'.newSize.toNat ≤ (lookup symtab buf symbolName sym).size.toNat
  /-- … and has copied every byte up to the last one that is not zero. -/
  covers : ∀ sym' k', symbolHook symtab buf symbolName code sym k = some (0, sym', k') →
    ∃ r log, copyLog symtab buf symbolName sym k = some (r, log) ∧
      ∀ i j, j ≤ i → i < (lookup symtab buf symbolName sym).size.toNat →
        k.mem ((lookup symtab buf symbolName sym).addr + BitVec.ofNat 64 i) ≠ 0 →
        buf + BitVec.ofNat 64 j ∈ log

/-- Every instruction of the sweep, and every field that is fixed up, ends inside the function.
Kind: D -/
def InsnsFit (mem : Addr → BitVec 8) (func : KernSym) : Prop :=
  ∀ b insn, SweptInsn mem (bodyEnd mem func) func.addr b insn →
    (b - func.addr).toNat + insn.length.toNat ≤ func.size.toNat ∧
      (Fixed func insn b →
        (b - func.addr).toNat + (fixupField insn).2 + 4 ≤ func.size.toNat)

end Call

/-! ## When it fits -/

section Fits

variable {mem : Addr → BitVec 8} {sym : KernSym} {b : Addr} {insn : Insn}

/-- A byte of the copy, in bytes from the start of the buffer.
Kind: L -/
theorem toNat_copyOf_add (hwrap : sym.addr.toNat + sym.size.toNat + 4096 ≤ 2 ^ 64)
    (hb : (b - sym.addr).toNat < sym.size.toNat) {n : ℕ} (hn : n < 2048) :
    (sym.copyOf b + BitVec.ofNat 64 n - sym.newAddr).toNat = (b - sym.addr).toNat + n := by
  have hcopy : sym.copyOf b + BitVec.ofNat 64 n =
      sym.newAddr + BitVec.ofNat 64 ((b - sym.addr).toNat + n) := by
    rw [BitVec.ofNat_add, BitVec.ofNat_toNat, BitVec.setWidth_eq, ← add_assoc]
    rfl
  rw [hcopy, toNat_add_ofNat_sub _ (by omega)]

/-- An address as a base and a distance.
Kind: L -/
theorem add_ofNat_toNat_sub (a x : Addr) : a + BitVec.ofNat 64 (x - a).toNat = x := by
  rw [BitVec.ofNat_toNat, BitVec.setWidth_eq, add_sub_cancel]

/-- **What one instruction writes is in the buffer exactly when it ends, with its field, inside the
function.**
Kind: L -/
theorem insnWrites_inside_iff (hwrap : sym.addr.toNat + sym.size.toNat + 4096 ≤ 2 ^ 64)
    (hb : (b - sym.addr).toNat < sym.size.toNat) (hpos : insn.length ≠ 0) :
    (∀ x ∈ insnWrites insn b (sym.copyOf b) sym, (x - sym.newAddr).toNat < sym.size.toNat) ↔
      (b - sym.addr).toNat + insn.length.toNat ≤ sym.size.toNat ∧
        (Fixed sym insn b →
          (b - sym.addr).toNat + (fixupField insn).2 + 4 ≤ sym.size.toNat) := by
  have hlen := insn.length.isLt
  have hpos : 0 < insn.length.toNat := by
    rw [Nat.pos_iff_ne_zero]
    exact fun h0 => hpos (BitVec.eq_of_toNat_eq h0)
  have hfield : (fixupField insn).2 ≤ 1785 := by
    obtain ⟨hdisp, himm⟩ := offset_bounds insn
    unfold fixupField
    split_ifs
    · exact himm
    · exact hdisp
  constructor
  · -- the last byte of the copy, and the last byte of the field
    intro hall
    refine ⟨?_, fun hfixed => ?_⟩
    · have hlast := hall (sym.copyOf b + BitVec.ofNat 64 (insn.length.toNat - 1))
        (mem_insnWrites.2 (.inl (by rw [toNat_add_ofNat_sub _ (by omega)]; omega)))
      rw [toNat_copyOf_add hwrap hb (by omega)] at hlast
      omega
    · have hlast := hall (sym.copyOf b + BitVec.ofNat 64 (fixupField insn).2 + BitVec.ofNat 64 3)
        (mem_insnWrites.2 (.inr ⟨hfixed, by rw [toNat_add_ofNat_sub _ (by omega)]; omega⟩))
      rw [add_assoc, ← BitVec.ofNat_add, toNat_copyOf_add hwrap hb (by omega)] at hlast
      omega
  · rintro ⟨hend, hfix⟩ x hx
    rcases mem_insnWrites.1 hx with hcopy | ⟨hfixed, hnear⟩
    · rw [← add_ofNat_toNat_sub (sym.copyOf b) x, toNat_copyOf_add hwrap hb (by omega)]
      omega
    · have hfix := hfix hfixed
      rw [← add_ofNat_toNat_sub (sym.copyOf b + BitVec.ofNat 64 (fixupField insn).2) x, add_assoc,
        ← BitVec.ofNat_add, toNat_copyOf_add hwrap hb (by omega)]
      omega

/-- An instruction of the sweep starts inside the function.
Kind: L -/
theorem SweptInsn.toNat_lt (hwrap : sym.addr.toNat + sym.size.toNat + 4096 ≤ 2 ^ 64)
    (h : SweptInsn mem (bodyEnd mem sym) sym.addr b insn) :
    (b - sym.addr).toNat < sym.size.toNat := by
  obtain ⟨len, hlen, hbody⟩ := exists_bodyEnd mem sym
  have hswept := h.1
  have hstart : sym.addr = sym.addr + BitVec.ofNat 64 0 := by simp
  rw [hbody] at hswept
  obtain ⟨o, ho, rfl⟩ := swept_offset hwrap hlen hswept hstart (Nat.zero_le _)
  rw [toNat_add_ofNat_sub _ (by omega)]
  omega

/-- **What the sweep writes is in the buffer exactly when its instructions fit.**
Kind: L -/
theorem sweepWrites_inside_iff (hwrap : sym.addr.toNat + sym.size.toNat + 4096 ≤ 2 ^ 64) :
    (∀ x, SweepWrites mem sym (bodyEnd mem sym) sym.addr x →
        (x - sym.newAddr).toNat < sym.size.toNat) ↔ InsnsFit mem sym := by
  constructor
  · intro hall b insn hs
    exact (insnWrites_inside_iff hwrap (hs.toNat_lt hwrap) hs.2.2).1
      fun x hx => hall x ⟨b, insn, hs, hx⟩
  · rintro hfit x ⟨b, insn, hs, hx⟩
    exact (insnWrites_inside_iff hwrap (hs.toNat_lt hwrap) hs.2.2).2 (hfit b insn hs) x hx

end Fits

section Iff

variable {symtab : SymTab} {buf : Addr} {symbolName : String} {code : Addr} {sym sym' : KernSym}
  {k k' : Kernel}

/-- A call that returns zero has been through the loop.
Kind: L -/
theorem copyLoop_of_symbolHook
    (hrun : symbolHook symtab buf symbolName code sym k = some (0, sym', k')) :
    EntersLoop symtab buf symbolName sym k ∧ ∃ s,
      (copyLog symtab buf symbolName sym k).map Prod.fst = some (.done s) ∧
        sym'.newSize = s.dest - buf := by
  have hfault : -eFault ≠ 0 := by decide
  have hnomem : -eNomem ≠ 0 := by decide
  have hilseq : -eIlseq ≠ 0 := by decide
  have hret : ∀ {ret : ℤ} {r : KernSym × Kernel}, ret ≠ 0 → some (ret, r) ≠ some (0, sym', k') := by
    intro ret r hne heq
    exact hne (Prod.mk.inj (Option.some.inj heq)).1
  unfold symbolHook at hrun
  dsimp only at hrun
  rcases findSymbolAddress_ret symtab sym symbolName with hneg | hzero
  · rw [if_pos hneg] at hrun
    exact absurd hrun (hret hneg.ne)
  rw [if_neg (by omega)] at hrun
  split_ifs at hrun with hjmp hbuf
  · exact absurd hrun (hret hfault)
  · exact absurd hrun (hret hnomem)
  unfold hookBody at hrun
  dsimp only at hrun
  split_ifs at hrun with hsize hempty
  · exact absurd hrun (hret hfault)
  · exact absurd hrun (hret hilseq)
  refine ⟨⟨hzero, hjmp, hbuf, Nat.le_of_not_lt hsize⟩, ?_⟩
  unfold copyLog
  dsimp only
  rw [copyLoopLog_fst]
  split at hrun
  · exact absurd hrun nofun
  · exact absurd hrun (hret hilseq)
  · next s hloop =>
      refine ⟨s, hloop, ?_⟩
      rw [Option.some.injEq, Prod.mk.injEq, Prod.mk.injEq] at hrun
      rw [← hrun.2.1]
      rfl

/-- **The loop of a call**: it ends, it writes what the sweep of the text says, and where it is done
it stands behind an instruction, past the last byte that is not zero.
Kind: P -/
theorem copyLog_spec {tail : ℕ} (hp : Placed k.mem (lookup symtab buf symbolName sym) tail) :
    ∃ r log, copyLog symtab buf symbolName sym k = some (r, log) ∧
      (∀ x, x ∈ log ↔ SweepWrites k.mem (lookup symtab buf symbolName sym)
        (bodyEnd k.mem (lookup symtab buf symbolName sym))
        (lookup symtab buf symbolName sym).addr x) ∧
      ∀ s, r = .done s → ∃ len off,
        (∀ i, len ≤ i → i < (lookup symtab buf symbolName sym).size.toNat →
          k.mem ((lookup symtab buf symbolName sym).addr + BitVec.ofNat 64 i) = 0) ∧
        bodyEnd k.mem (lookup symtab buf symbolName sym) =
          (lookup symtab buf symbolName sym).addr + BitVec.ofNat 64 len ∧
        SweepEnds k.mem (lookup symtab buf symbolName sym) len 0 log s off := by
  let func := lookup symtab buf symbolName sym
  have hmem : Unreached func k.mem (zeroed symtab buf symbolName sym k) :=
    unreached_memset func k.mem
  have hsize : func.size.toNat ≤ tail := hp.size_le
  have hend : bodyEnd (zeroed symtab buf symbolName sym k) func = bodyEnd k.mem func :=
    bodyEnd_congr fun i hi => hp.text_eq hmem (by omega)
  obtain ⟨len, hlen, hbody, hzeros⟩ := exists_bodyEnd_zeros k.mem func
  have hstart : CopyAt k.mem func ⟨zeroed symtab buf symbolName sym k, func.addr, func.newAddr⟩ 0 :=
    ⟨(BitVec.add_zero _).symm, (BitVec.add_zero _).symm, Nat.zero_le _, hmem⟩
  obtain ⟨r, log, hrun, hlog, hdone⟩ :=
    copyLoopLog_spec hp hlen hstart (show len ≤ 0 + func.size.toNat by omega)
  rw [← hbody] at hrun hlog
  refine ⟨r, log, ?_, hlog, fun s hs => ?_⟩
  · unfold copyLog
    dsimp only
    rw [hend]
    exact hrun
  · obtain ⟨off, hends⟩ := hdone s hs
    exact ⟨len, off, hzeros, hbody, hends⟩

/-- **The copy fits its buffer exactly when every instruction of the sweep, with its fixup, ends
inside the function.**
Source: `xt_TOGPU_hook.c` 229–264
Kind: C
Hyps: `hplaced`, the contract of `module_alloc` and the text behind the function -/
theorem copyFits_iff (code : Addr)
    (hplaced : (findSymbolAddress symtab sym symbolName).1 = 0 → buf ≠ 0 →
      ∃ tail, Placed k.mem (lookup symtab buf symbolName sym) tail) :
    CopyFits symtab buf symbolName code sym k ↔
      (EntersLoop symtab buf symbolName sym k →
        InsnsFit k.mem (lookup symtab buf symbolName sym)) := by
  constructor
  · intro hfits henter
    obtain ⟨tail, hp⟩ := hplaced henter.1 henter.2.2.1
    obtain ⟨r, log, hrun, hlog, -⟩ := copyLog_spec hp
    obtain ⟨r', log', hrun', hinside⟩ := hfits.inside henter
    rw [hrun, Option.some.injEq, Prod.mk.injEq] at hrun'
    rw [← hrun'.2] at hinside
    exact (sweepWrites_inside_iff hp.noWrap).1 fun x hx => hinside x ((hlog x).2 hx)
  · intro hcond
    refine ⟨fun henter => ?_, fun sym' k' hrun => ?_, fun sym' k' hrun => ?_⟩
    · obtain ⟨tail, hp⟩ := hplaced henter.1 henter.2.2.1
      obtain ⟨r, log, hloop, hlog, -⟩ := copyLog_spec hp
      refine ⟨r, log, hloop, fun x hx => ?_⟩
      exact (sweepWrites_inside_iff hp.noWrap).2 (hcond henter) x ((hlog x).1 hx)
    · obtain ⟨henter, s, hdone, hnew⟩ := copyLoop_of_symbolHook hrun
      obtain ⟨tail, hp⟩ := hplaced henter.1 henter.2.2.1
      obtain ⟨r, log, hloop, -, hends⟩ := copyLog_spec hp
      rw [hloop, Option.map_some, Option.some.injEq] at hdone
      obtain ⟨len, off, -, hbody, hends⟩ := hends s hdone
      have hoff : off ≤ (lookup symtab buf symbolName sym).size.toNat := by
        rcases hends.last with rfl | ⟨b, insn, hs, rfl⟩
        · exact Nat.zero_le _
        · rw [← hbody, BitVec.add_zero] at hs
          exact (hcond henter b insn hs).1
      have hwrap := hp.noWrap
      have hdest : s.dest = buf + BitVec.ofNat 64 off := hends.at_end.dest
      rw [hnew, hdest, toNat_add_ofNat_sub _ (by omega)]
      exact hoff
    · obtain ⟨henter, s, hdone, -⟩ := copyLoop_of_symbolHook hrun
      obtain ⟨tail, hp⟩ := hplaced henter.1 henter.2.2.1
      obtain ⟨r, log, hloop, -, hends⟩ := copyLog_spec hp
      rw [hloop, Option.map_some, Option.some.injEq] at hdone
      obtain ⟨len, off, hzeros, -, hends⟩ := hends s hdone
      refine ⟨r, log, hloop, fun i j hle hi hne => hends.covers j (Nat.zero_le _) ?_⟩
      have hlen : i < len := by
        by_contra hge
        exact hne (hzeros i (Nat.le_of_not_lt hge) hi)
      have hoff := hends.len_le
      omega

end Iff

/-! ## An instruction that runs past the symbol -/

/-- Seven `nop`s and the first byte of `mov $0, %eax`, which has five, at `0x1000`.
Kind: D -/
def runoffText : Addr → BitVec 8 := fun x =>
  if x = 0x1007 then 0xb8 else if (x - 0x1000).toNat < 7 then 0x90 else 0

/-- What decides whether an instruction fits.
Kind: D -/
def fitSummary (insn : Insn) : ℕ × ℕ × Bool :=
  (insn.length.toNat, (fixupField insn).2, insn.opCallJmp || insn.ripRelative)

/-- `call 0x2000; ret` fits in eight bytes, and so does its copy.
Kind: C -/
theorem copyFits_call :
    CopyFits twoSymbols 0x100000 "f" 0x500000 freshSym (kernelWith callText) := by
  have hcall : (decodeAt callText 0x1000).map fitSummary = some (5, 1, true) := by decide
  have hret : (decodeAt callText 0x1005).map fitSummary = some (1, 1, false) := by decide
  have hsize : (lookup twoSymbols 0x100000 "f" freshSym).size.toNat = 8 := by decide
  refine (copyFits_iff 0x500000 fun _ _ => ⟨8, placed_f callText (by decide)⟩).2 fun _ => ?_
  rintro b insn ⟨hswept, hdecode, -⟩
  rw [show (kernelWith callText).mem = callText from rfl] at hswept hdecode
  rw [bodyEnd_callText, lookup_f_addr] at hswept
  rw [lookup_f_addr, hsize]
  rcases swept_callText hswept with rfl | rfl
  · rw [hdecode, Option.map_some, Option.some.injEq] at hcall
    simp only [fitSummary, Prod.mk.injEq] at hcall
    obtain ⟨hlength, hfield, -⟩ := hcall
    rw [hlength, hfield]
    exact ⟨by decide, fun _ => by decide⟩
  · rw [hdecode, Option.map_some, Option.some.injEq] at hret
    simp only [fitSummary, Prod.mk.injEq, Bool.or_eq_false_iff] at hret
    obtain ⟨hlength, -, hop, hrip⟩ := hret
    rw [hlength]
    refine ⟨by decide, fun hfixed => ?_⟩
    rcases hfixed.1 with h | h
    · exact absurd (hop.symm.trans h) (by decide)
    · exact absurd (hrip.symm.trans h) (by decide)

/-- The copy of the last instruction runs four bytes past the buffer.
Kind: C -/
theorem not_copyFits_runoff :
    (∃ tail, Placed runoffText (lookup twoSymbols 0x100000 "f" freshSym) tail) ∧
      ¬ CopyFits twoSymbols 0x100000 "f" 0x500000 freshSym (kernelWith runoffText) := by
  refine ⟨⟨8, placed_f runoffText (by decide)⟩, fun hfits => ?_⟩
  have hcall : (symbolHook twoSymbols 0x100000 "f" 0x500000 freshSym (kernelWith runoffText)).map
      (fun r => (r.1, r.2.1.newSize.toNat)) = some (0, 12) := by
    decide +kernel
  obtain ⟨⟨ret, sym', k'⟩, hrun, hsum⟩ := Option.map_eq_some_iff.1 hcall
  simp only [Prod.mk.injEq] at hsum
  obtain ⟨rfl, hnew⟩ := hsum
  have hle := hfits.newSize sym' k' hrun
  rw [hnew] at hle
  exact absurd hle (by decide)

end Togpu.Hook
