import Togpu.Hook.SymbolHook

/-!
# The copy loop

What the loop of `symbol_hook` leaves in the buffer.

* `Placed` — the text and the buffer: the buffer with the guard page after it lies apart from the
  function and the text behind it.
* `Swept` — the instruction addresses of a linear sweep over the original text.
* **The loop follows the sweep** (`copyLoop_spec`): it ends, it changes nothing outside the buffer
  and its guard page, and it leaves each instruction of the sweep, copied and fixed up, at the same
  offset in the buffer, unless one of them has length zero.
-/

namespace Togpu.Hook

open Togpu.Driver Togpu.Lib Togpu.X86

/-! ## One instruction -/

section Step

variable {mem : Addr → BitVec 8} {insn : Insn} {kaddr dest x : Addr} {func : KernSym}

/-- The fields of an instruction lie within seven times 255 bytes.
Kind: L -/
theorem offset_bounds (insn : Insn) :
    insn.offsetDisplacement ≤ 1785 ∧ insn.offsetImmediate ≤ 1785 := by
  have h₁ := insn.prefixes.nbytes.isLt
  have h₂ := insn.rexPrefix.nbytes.isLt
  have h₃ := insn.vexPrefix.nbytes.isLt
  have h₄ := insn.opcode.nbytes.isLt
  have h₅ := insn.modrm.nbytes.isLt
  have h₆ := insn.sib.nbytes.isLt
  have h₇ := insn.displacement.nbytes.isLt
  simp only [Insn.offsetImmediate, Insn.offsetDisplacement, Insn.offsetModrm]
  omega

/-- An offset is stored within the first 2048 bytes from the copy on.
Kind: L -/
theorem fixupOffset_of_le {value : BitVec 32} {field : ℕ} (hfield : field ≤ 1785)
    (h : 2048 ≤ (x - dest).toNat) :
    fixupOffset mem insn kaddr dest func value field x = mem x := by
  unfold fixupOffset
  split_ifs
  · rfl
  · refine storeLE_of_le ?_
    rw [toNat_sub_add_ofNat (by omega)]
    omega

/-- One instruction changes at most 2048 bytes from its destination on.
Kind: L -/
theorem copyAndFixupInsn_of_le (h : 2048 ≤ (x - dest).toNat) :
    copyAndFixupInsn mem insn kaddr dest func x = mem x := by
  have hlen := insn.length.isLt
  obtain ⟨hdisp, himm⟩ := offset_bounds insn
  have hcopy : memcpy mem dest kaddr insn.length.toNat x = mem x := memcpy_of_le (by omega)
  unfold copyAndFixupInsn
  split_ifs
  · rw [fixupOffset_of_le himm h, hcopy]
  · rw [fixupOffset_of_le hdisp h, hcopy]
  · exact hcopy

/-- What is copied depends on the bytes of the instruction only.
Kind: L -/
theorem copyAndFixupInsn_congr {mem' : Addr → BitVec 8} {j : ℕ} (hj : j < insn.length.toNat)
    (h : mem' (kaddr + BitVec.ofNat 64 j) = mem (kaddr + BitVec.ofNat 64 j)) :
    copyAndFixupInsn mem' insn kaddr dest func (dest + BitVec.ofNat 64 j) =
      copyAndFixupInsn mem insn kaddr dest func (dest + BitVec.ofNat 64 j) := by
  have hlen := insn.length.isLt
  have hcopy : memcpy mem' dest kaddr insn.length.toNat (dest + BitVec.ofNat 64 j) =
      memcpy mem dest kaddr insn.length.toNat (dest + BitVec.ofNat 64 j) := by
    rw [memcpy_add hj (by omega), memcpy_add hj (by omega), h]
  have hfix : ∀ value field,
      fixupOffset (memcpy mem' dest kaddr insn.length.toNat) insn kaddr dest func value field
          (dest + BitVec.ofNat 64 j) =
        fixupOffset (memcpy mem dest kaddr insn.length.toNat) insn kaddr dest func value field
          (dest + BitVec.ofNat 64 j) := by
    intro value field
    unfold fixupOffset storeLE
    split_ifs
    · exact hcopy
    · simp only [hcopy]
  unfold copyAndFixupInsn
  split_ifs
  · exact hfix _ _
  · exact hfix _ _
  · exact hcopy

end Step

/-! ## Text and buffer -/

/-- The buffer's distance that the loop can reach: the buffer and the guard page `module_alloc`
leaves after it.
Kind: D -/
def KernSym.reach (sym : KernSym) : ℕ := sym.size.toNat + 4096

/-- How the function and the buffer lie in memory.
Kind: D -/
structure Placed (mem : Addr → BitVec 8) (sym : KernSym) (tail : ℕ) : Prop where
  /-- The function does not reach the last page of the address space. -/
  noWrap : sym.addr.toNat + sym.size.toNat + 4096 ≤ 2 ^ 64
  /-- The text goes on past the function … -/
  size_le : sym.size.toNat ≤ tail
  /-- … to a byte that is no legacy prefix. -/
  stop : inatIsLegacyPrefix (inatGetOpcodeAttribute (mem (sym.addr + BitVec.ofNat 64 tail))) = false
  /-- The buffer and its guard page are apart from that text and one instruction more. -/
  apart : ∀ i, i < tail + 32 → sym.reach ≤ (sym.addr + BitVec.ofNat 64 i - sym.newAddr).toNat

section Sweep

variable {mem : Addr → BitVec 8} {sym : KernSym} {tail : ℕ} (hp : Placed mem sym tail)

include hp

/-- The text is shorter than the address space.
Kind: L -/
theorem Placed.tail_lt : tail < 2 ^ 64 := by
  by_contra hge
  -- otherwise the text would reach the buffer's first byte
  have hlt := (sym.newAddr - sym.addr).isLt
  have happ := hp.apart (sym.newAddr - sym.addr).toNat (by omega)
  rw [BitVec.ofNat_toNat, BitVec.setWidth_eq, add_sub_cancel, sub_self] at happ
  simp [KernSym.reach] at happ

/-- The layout depends on one byte of the text.
Kind: L -/
theorem Placed.of_stop {mem' : Addr → BitVec 8}
    (hmem : mem' (sym.addr + BitVec.ofNat 64 tail) = mem (sym.addr + BitVec.ofNat 64 tail)) :
    Placed mem' sym tail := by
  refine ⟨hp.noWrap, hp.size_le, ?_, hp.apart⟩
  rw [hmem]
  exact hp.stop

/-- The decoder returns at every address of the function, and reads only text.
Kind: L -/
theorem Placed.exists_decodeAt {off : ℕ} (hoff : off ≤ tail) :
    ∃ insn, decodeAt mem (sym.addr + BitVec.ofNat 64 off) = some insn ∧
      off + insn.nextByte ≤ tail + 32 := by
  have hlt := hp.tail_lt
  have hstop : inatIsLegacyPrefix (inatGetOpcodeAttribute
      (mem (sym.addr + BitVec.ofNat 64 off + BitVec.ofNat 64 (tail - off)))) = false := by
    rw [add_assoc, ← BitVec.ofNat_add, Nat.add_sub_cancel' hoff]
    exact hp.stop
  obtain ⟨insn, hdecode, hle⟩ := exists_insnGetLength (s := fun j =>
    mem (sym.addr + BitVec.ofNat 64 off + BitVec.ofNat 64 j)) (by omega) hstop
  exact ⟨insn, hdecode, by omega⟩

/-- A memory that agrees on everything the loop cannot reach.
Kind: D -/
def Unreached (sym : KernSym) (mem mem' : Addr → BitVec 8) : Prop :=
  ∀ x, sym.reach ≤ (x - sym.newAddr).toNat → mem' x = mem x

/-- Decoding reads only the function and the text behind it.
Kind: L -/
theorem Placed.decodeAt_congr {mem' : Addr → BitVec 8}
    (hmem : ∀ i, i < tail + 32 →
      mem' (sym.addr + BitVec.ofNat 64 i) = mem (sym.addr + BitVec.ofNat 64 i))
    {off : ℕ} (hoff : off ≤ tail) :
    decodeAt mem' (sym.addr + BitVec.ofNat 64 off) =
      decodeAt mem (sym.addr + BitVec.ofNat 64 off) := by
  obtain ⟨insn, hdecode, hle⟩ := hp.exists_decodeAt hoff
  rw [hdecode]
  refine insnGetLength_congr hdecode fun j _ hj => ?_
  rw [add_assoc, ← BitVec.ofNat_add]
  exact hmem _ (by omega)

/-- A memory that only the loop has changed still has the text.
Kind: L -/
theorem Placed.text_eq {mem' : Addr → BitVec 8} (hmem : Unreached sym mem mem') {i : ℕ}
    (hi : i < tail + 32) :
    mem' (sym.addr + BitVec.ofNat 64 i) = mem (sym.addr + BitVec.ofNat 64 i) :=
  hmem _ (hp.apart i hi)

end Sweep

/-- The addresses of a linear sweep from `a` up to `endAddr`.
Kind: D -/
inductive Swept (mem : Addr → BitVec 8) (endAddr : Addr) : Addr → Addr → Prop
  /-- The first instruction. -/
  | here {a : Addr} : a < endAddr → Swept mem endAddr a a
  /-- The instructions after the first one. -/
  | step {a b : Addr} {insn : Insn} : a < endAddr → decodeAt mem a = some insn →
      insn.length ≠ 0 → Swept mem endAddr (a + insn.length.setWidth 64) b → Swept mem endAddr a b

/-- Where the copy of the instruction at `a` goes.
Kind: D -/
def KernSym.copyOf (sym : KernSym) (a : Addr) : Addr := sym.newAddr + (a - sym.addr)

/-- The instruction `insn` of the sweep at `a` stands in `fin`, copied and fixed up.
Kind: D -/
def CopiedAt (mem fin : Addr → BitVec 8) (sym : KernSym) (a : Addr) (insn : Insn) : Prop :=
  ∀ j, j < insn.length.toNat → fin (sym.copyOf a + BitVec.ofNat 64 j) =
    copyAndFixupInsn mem insn a (sym.copyOf a) sym (sym.copyOf a + BitVec.ofNat 64 j)

/-- The variables when the loop ends.
Kind: D -/
def CopyResult.state : CopyResult → CopyState
  | .done s => s
  | .undecodable s => s

/-- The loop's variables `off` bytes into the function.
Kind: D -/
structure CopyAt (mem : Addr → BitVec 8) (sym : KernSym) (s : CopyState) (off : ℕ) : Prop where
  /-- `orig_addr`. -/
  orig : s.orig = sym.addr + BitVec.ofNat 64 off
  /-- `dest_addr`. -/
  dest : s.dest = sym.newAddr + BitVec.ofNat 64 off
  /-- The last instruction may end past the function. -/
  le : off ≤ sym.size.toNat + 255
  /-- Only the buffer and its guard page have changed. -/
  mem : Unreached sym mem s.mem

/-- Writing from `off` on does not change the buffer below `off`, nor anything out of reach.
Kind: L -/
theorem toNat_sub_dest {sym : KernSym} {x : Addr} {off : ℕ} (hsize : sym.reach ≤ 2 ^ 64)
    (hoff : off ≤ sym.size.toNat + 255)
    (hx : (x - sym.newAddr).toNat < off ∨ sym.reach ≤ (x - sym.newAddr).toNat) :
    2048 ≤ (x - (sym.newAddr + BitVec.ofNat 64 off)).toNat := by
  unfold KernSym.reach at hsize hx
  rcases hx with hlt | hge
  · rw [toNat_sub_add_ofNat_of_lt hlt (by omega)]
    omega
  · rw [toNat_sub_add_ofNat (by omega)]
    omega

section Loop

variable {mem : Addr → BitVec 8} {sym : KernSym} {tail : ℕ}

section NoWrap

variable (hwrap : sym.addr.toNat + sym.size.toNat + 4096 ≤ 2 ^ 64)

include hwrap

/-- **One round of the loop** keeps its variables in step, and leaves what is below it alone.
Kind: L -/
theorem CopyAt.next {s : CopyState} {off : ℕ} (h : CopyAt mem sym s off)
    (hlt : off < sym.size.toNat) (insn : Insn) :
    CopyAt mem sym (s.next sym insn) (off + insn.length.toNat) ∧
      ∀ x, (x - sym.newAddr).toNat < off → (s.next sym insn).mem x = s.mem x := by
  have hlen := insn.length.isLt
  have hreach : sym.reach ≤ 2 ^ 64 := by
    unfold KernSym.reach
    omega
  have hwidth : insn.length.setWidth 64 = BitVec.ofNat 64 insn.length.toNat :=
    (BitVec.ofNat_toNat 64 insn.length).symm
  have hkeep : ∀ x, (x - sym.newAddr).toNat < off ∨ sym.reach ≤ (x - sym.newAddr).toNat →
      (s.next sym insn).mem x = s.mem x := by
    intro x hx
    refine copyAndFixupInsn_of_le ?_
    rw [h.dest]
    exact toNat_sub_dest hreach h.le hx
  refine ⟨⟨?_, ?_, by omega, fun x hx => ?_⟩, fun x hx => hkeep x (.inl hx)⟩
  · simp only [CopyState.next, h.orig, hwidth, BitVec.ofNat_add, add_assoc]
  · simp only [CopyState.next, h.dest, hwidth, BitVec.ofNat_add, add_assoc]
  · rw [hkeep x (.inr hx)]
    exact h.mem x hx

/-- Addresses of the function as numbers.
Kind: L -/
theorem toNat_addr_add {n : ℕ} (hn : n < sym.size.toNat + 4096) :
    (sym.addr + BitVec.ofNat 64 n).toNat = sym.addr.toNat + n := by
  rw [BitVec.toNat_add, BitVec.toNat_ofNat, Nat.mod_eq_of_lt (show n < 2 ^ 64 by omega),
    Nat.mod_eq_of_lt (by omega)]

/-- The loop's guard, in bytes from the start of the function.
Kind: L -/
theorem CopyAt.lt_iff {s : CopyState} {off len : ℕ} (h : CopyAt mem sym s off)
    (hlen : len ≤ sym.size.toNat) :
    s.orig < sym.addr + BitVec.ofNat 64 len ↔ off < len := by
  have := h.le
  rw [h.orig, BitVec.lt_def, toNat_addr_add hwrap (by omega), toNat_addr_add hwrap (by omega)]
  omega

/-- **The loop writes in reach of the buffer only**, whatever it decodes and however it ends.
Kind: L -/
theorem copyLoop_unreached {len : ℕ} (hlen : len ≤ sym.size.toNat) {fuel off : ℕ} {s : CopyState}
    {r : CopyResult} (h : CopyAt mem sym s off)
    (hrun : copyLoop sym (sym.addr + BitVec.ofNat 64 len) fuel s = some r) :
    Unreached sym mem r.state.mem := by
  induction fuel generalizing s off with
  | zero =>
      rw [copyLoop] at hrun
      split_ifs at hrun
      rw [← Option.some.inj hrun]
      exact h.mem
  | succ fuel ih =>
      rw [copyLoop] at hrun
      split_ifs at hrun with hlt
      · split at hrun
        · exact absurd hrun nofun
        · next insn _ =>
            split_ifs at hrun
            · rw [← Option.some.inj hrun]
              exact h.mem
            · have hoff : off < len := (h.lt_iff hwrap hlen).1 hlt
              exact ih (h.next hwrap (by omega) insn).1 hrun
      · rw [← Option.some.inj hrun]
        exact h.mem

end NoWrap

variable (hp : Placed mem sym tail)

include hp

/-- The copies do not wrap.
Kind: L -/
theorem Placed.reach_le : sym.reach ≤ 2 ^ 64 := by
  have := hp.noWrap
  unfold KernSym.reach
  omega

/-- One round copies the instruction at its offset.
Kind: L -/
theorem CopyAt.copiedAt {s : CopyState} {off : ℕ} (h : CopyAt mem sym s off)
    (hlt : off < sym.size.toNat) {insn : Insn} (hdecode : decodeAt mem s.orig = some insn) :
    CopiedAt mem (s.next sym insn).mem sym s.orig insn := by
  intro j hj
  have hdest : sym.copyOf s.orig = s.dest := by
    rw [KernSym.copyOf, h.orig, h.dest, add_sub_cancel_left]
  have htail := hp.size_le
  obtain ⟨insn', hdecode', hle⟩ := hp.exists_decodeAt (show off ≤ tail by omega)
  rw [← h.orig, hdecode, Option.some.injEq] at hdecode'
  have hlen : insn.length.toNat ≤ insn.nextByte := by
    rw [length_of_insnGetLength hdecode, BitVec.toNat_ofNat]
    exact Nat.mod_le _ _
  rw [hdest]
  refine copyAndFixupInsn_congr hj ?_
  rw [h.orig, add_assoc, ← BitVec.ofNat_add]
  exact h.mem _ (hp.apart _ (by rw [← hdecode'] at hle; omega))

/-- What the loop leaves: all instructions of the sweep from `a` on, copied and fixed up.
Kind: D -/
def CopiedFrom (mem fin : Addr → BitVec 8) (sym : KernSym) (endAddr a : Addr) : Prop :=
  ∀ b, Swept mem endAddr a b → ∃ insn, decodeAt mem b = some insn ∧ insn.length ≠ 0 ∧
    CopiedAt mem fin sym b insn

omit hp in

/-- Past the end there is nothing to sweep.
Kind: L -/
theorem copiedFrom_of_not_lt {fin : Addr → BitVec 8} {endAddr a : Addr} (h : ¬ a < endAddr) :
    CopiedFrom mem fin sym endAddr a := by
  intro b hb
  cases hb with
  | here hlt => exact absurd hlt h
  | step hlt _ _ _ => exact absurd hlt h

/-- What later rounds leave of an instruction already copied.
Kind: L -/
theorem CopyAt.copiedAt_of_keep {s : CopyState} {off : ℕ} {fin : Addr → BitVec 8} {insn : Insn}
    (h : CopyAt mem sym s off) (hcopied : CopiedAt mem (s.next sym insn).mem sym s.orig insn)
    (hkeep : ∀ x, (x - sym.newAddr).toNat < off + insn.length.toNat →
      fin x = (s.next sym insn).mem x) :
    CopiedAt mem fin sym s.orig insn := by
  intro j hj
  have hlen := insn.length.isLt
  have hreach := hp.reach_le
  have hoff := h.le
  unfold KernSym.reach at hreach
  rw [← hcopied j hj]
  refine hkeep _ ?_
  rw [KernSym.copyOf, h.orig, add_sub_cancel_left, add_assoc, ← BitVec.ofNat_add,
    toNat_add_ofNat_sub _ (by omega)]
  omega

/-- Before the end there is an instruction, and the loop reads it as it stands in the original.
Kind: L -/
theorem CopyAt.exists_decode {len off : ℕ} {s : CopyState} (h : CopyAt mem sym s off)
    (hlen : len ≤ sym.size.toNat) (hlt : s.orig < sym.addr + BitVec.ofNat 64 len) :
    off < len ∧ ∃ insn, decodeAt mem s.orig = some insn ∧ decodeAt s.mem s.orig = some insn := by
  have hoff : off < len := (h.lt_iff hp.noWrap hlen).1 hlt
  have htail := hp.size_le
  obtain ⟨insn, hdecode, -⟩ := hp.exists_decodeAt (show off ≤ tail by omega)
  rw [← h.orig] at hdecode
  refine ⟨hoff, insn, hdecode, ?_⟩
  rw [h.orig, hp.decodeAt_congr (fun _ => hp.text_eq h.mem) (by omega), ← h.orig, hdecode]

/-- **The loop follows the sweep.** It stops at an instruction of length zero, or it copies the
whole sweep and leaves what it had copied before.
Kind: P -/
theorem copyLoop_spec {len : ℕ} (hlen : len ≤ sym.size.toNat) {fuel off : ℕ} {s : CopyState}
    (h : CopyAt mem sym s off) (hfuel : len ≤ off + fuel) :
    (∃ b insn s', Swept mem (sym.addr + BitVec.ofNat 64 len) s.orig b ∧
        decodeAt mem b = some insn ∧ insn.length = 0 ∧ Unreached sym mem s'.mem ∧
        copyLoop sym (sym.addr + BitVec.ofNat 64 len) fuel s = some (.undecodable s')) ∨
      ∃ s' off', copyLoop sym (sym.addr + BitVec.ofNat 64 len) fuel s = some (.done s') ∧
        CopyAt mem sym s' off' ∧ (∀ x, (x - sym.newAddr).toNat < off → s'.mem x = s.mem x) ∧
        CopiedFrom mem s'.mem sym (sym.addr + BitVec.ofNat 64 len) s.orig := by
  induction fuel generalizing s off with
  | zero =>
      have hge : ¬ s.orig < sym.addr + BitVec.ofNat 64 len := by
        rw [h.lt_iff hp.noWrap hlen]
        omega
      refine .inr ⟨s, off, ?_, h, fun _ _ => rfl, copiedFrom_of_not_lt hge⟩
      rw [copyLoop, if_neg hge]
  | succ fuel ih =>
      by_cases hlt : s.orig < sym.addr + BitVec.ofNat 64 len
      · obtain ⟨hoff, insn, hdecode, hdecode'⟩ := h.exists_decode hp hlen hlt
        by_cases hzero : insn.length = 0
        · refine .inl ⟨s.orig, insn, s, .here hlt, hdecode, hzero, h.mem, ?_⟩
          rw [copyLoop, if_pos hlt, hdecode']
          exact if_pos hzero
        · have hpos : 0 < insn.length.toNat := by
            rw [Nat.pos_iff_ne_zero]
            exact fun h0 => hzero (BitVec.eq_of_toNat_eq h0)
          have hloop : copyLoop sym (sym.addr + BitVec.ofNat 64 len) (fuel + 1) s =
              copyLoop sym (sym.addr + BitVec.ofNat 64 len) fuel (s.next sym insn) := by
            rw [copyLoop, if_pos hlt, hdecode']
            exact if_neg hzero
          obtain ⟨hnext, hbelow⟩ := h.next hp.noWrap (by omega) insn
          rw [hloop]
          rcases ih hnext (by omega) with
            ⟨b, insn', s', hswept, hrest⟩ | ⟨s', off', hrun, hat, hkeep, hcopied⟩
          · exact .inl ⟨b, insn', s', .step hlt hdecode hzero hswept, hrest⟩
          · refine .inr ⟨s', off', hrun, hat, fun x hx => ?_, fun b hb => ?_⟩
            · rw [hkeep x (by omega), hbelow x hx]
            · cases hb with
              | here _ =>
                  have hfirst := h.copiedAt hp (by omega) hdecode
                  exact ⟨insn, hdecode, hzero, h.copiedAt_of_keep hp hfirst hkeep⟩
              | step _ hdec _ hswept =>
                  rw [hdecode, Option.some.injEq] at hdec
                  rw [← hdec] at hswept
                  exact hcopied b hswept
      · refine .inr ⟨s, off, ?_, h, fun _ _ => rfl, copiedFrom_of_not_lt hlt⟩
        rw [copyLoop, if_neg hlt]

end Loop

end Togpu.Hook
