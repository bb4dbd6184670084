import Togpu.Hook.Complete
import Togpu.Hook.Extent

/-!
# The outcomes of `symbol_hook`

Every call of `symbol_hook` that returns has one of three outcomes: the symbol is not found, it is
found and the function is turned down, or the function is copied and patched.

* `HookOutcome` — the three, each with everything the call leaves behind (`symbolHook_outcome`).
* `Active` — the structure holds a hook, and `run` is the relocated copy.
* `Unscathed` — what an error should leave: the text, the buffers and `hijacked` as they were, and
  `run` at the copy of an active hook.
* **When it holds** (`unscathed_iff`): exactly when no active hook is held or the lookup does not
  get as far as `run`. The lookup writes `run` before any of the later checks can fail.
-/

namespace Togpu.Hook

open Togpu.Driver Togpu.Lib Togpu.X86

/-! ## The three outcomes -/

/-- A symbol of the table does not reach the last page of the address space.
Kind: D -/
def NoWrap (symtab : SymTab) (symbolName : String) : Prop :=
  ∀ addr endAddr, symbolEntry symbolName symtab = some (addr, some endAddr) →
    addr.toNat + (endAddr - addr).toNat + 4096 ≤ 2 ^ 64

section Outcome

variable (symtab : SymTab) (buf : Addr) (symbolName : String) (code : Addr) (sym : KernSym)
  (k : Kernel)

/-- What a call of `symbol_hook` returns and leaves.
Source: `xt_TOGPU_hook.c` 193–287
Kind: D -/
inductive HookOutcome : ℤ → KernSym → Kernel → Prop
  /-- The symbol, or an entry after it, is not in the table. -/
  | notFound (hentry : ∀ addr endAddr, symbolEntry symbolName symtab ≠ some (addr, some endAddr)) :
      HookOutcome (-eFault) (findSymbolAddress symtab sym symbolName).2 k
  /-- A jump in place, no memory, or a body that cannot be copied. -/
  | turnedDown {addr endAddr newAddr : Addr} {ret : ℤ} {k' : Kernel}
      (hentry : symbolEntry symbolName symtab = some (addr, some endAddr)) (hret : ret < 0)
      (hbuffers : k'.buffers = k.buffers) (hrw : k'.rw = k.rw)
      (hmem : ∀ x, (buf ≠ 0 → (endAddr - addr).toNat + 4096 ≤ (x - buf).toNat) →
        k'.mem x = k.mem x) :
      HookOutcome ret { sym.located symbolName addr endAddr with newAddr := newAddr } k'
  /-- The function is copied to the buffer and patched. -/
  | hooked {addr endAddr : Addr} {newSize : BitVec 64} {mem : Addr → BitVec 8}
      (hentry : symbolEntry symbolName symtab = some (addr, some endAddr)) (hbuf : buf ≠ 0)
      (hfirst : k.mem addr ≠ opJmpRel32) (hsize : opJmpSize ≤ (endAddr - addr).toNat)
      (hmem : Unreached { sym.located symbolName addr endAddr with newAddr := buf } k.mem mem)
      {r : KernSym × Kernel}
      (hpatch : r = patch { sym.located symbolName addr endAddr with
        newAddr := buf, newSize := newSize, run := buf } code
          { k with mem := mem, buffers := buf :: k.buffers }) :
      HookOutcome 0 r.1 r.2

variable {symtab buf symbolName code sym k} {ret : ℤ} {sym' : KernSym} {k' : Kernel}

/-- The buffer that the call allocated is the one it frees.
Kind: L -/
theorem mallocFree_buffers (hbuf : buf ≠ 0) (mem : Addr → BitVec 8) :
    (mallocFree { k with mem := mem, buffers := buf :: k.buffers } buf).buffers = k.buffers := by
  unfold mallocFree
  rw [if_pos hbuf]
  exact List.erase_cons_head ..

/-- The outcomes of the copying part.
Kind: L -/
theorem hookBody_outcome {addr endAddr : Addr}
    (hentry : symbolEntry symbolName symtab = some (addr, some endAddr))
    (hwrap : addr.toNat + (endAddr - addr).toNat + 4096 ≤ 2 ^ 64) (hbuf : buf ≠ 0)
    (hfirst : k.mem addr ≠ opJmpRel32)
    (hrun : hookBody { sym.located symbolName addr endAddr with newAddr := buf } code
      { k with mem := memset k.mem buf 0 (endAddr - addr).toNat, buffers := buf :: k.buffers } =
        some (ret, sym', k')) :
    HookOutcome symtab buf symbolName code sym k ret sym' k' := by
  let func : KernSym := { sym.located symbolName addr endAddr with newAddr := buf }
  have hzero : Unreached func k.mem (memset k.mem buf 0 (endAddr - addr).toNat) :=
    unreached_memset func k.mem
  obtain ⟨len, hlen, hbody⟩ := exists_bodyEnd (memset k.mem buf 0 (endAddr - addr).toNat) func
  have hstart : CopyAt k.mem func ⟨memset k.mem buf 0 (endAddr - addr).toNat, addr, buf⟩ 0 :=
    ⟨(BitVec.add_zero _).symm, (BitVec.add_zero _).symm, Nat.zero_le _, hzero⟩
  have hfail : ∀ {ret₀ : ℤ} {mem : Addr → BitVec 8}, ret₀ < 0 → Unreached func k.mem mem →
      some (ret₀, func, mallocFree { k with mem := mem, buffers := buf :: k.buffers } buf) =
        some (ret, sym', k') → HookOutcome symtab buf symbolName code sym k ret sym' k' := by
    intro ret₀ mem hneg hmem heq
    rw [Option.some.injEq, Prod.mk.injEq, Prod.mk.injEq] at heq
    obtain ⟨rfl, rfl, rfl⟩ := heq
    refine .turnedDown hentry hneg (mallocFree_buffers hbuf mem) (mallocFree_rw _) fun x hx => ?_
    rw [mallocFree_mem]
    exact hmem x (hx hbuf)
  unfold hookBody at hrun
  dsimp only at hrun
  split_ifs at hrun with hsize hzeros
  · exact hfail (by decide) hzero hrun
  · exact hfail (by decide) hzero hrun
  · rw [hbody] at hrun
    split at hrun
    · exact absurd hrun nofun
    · next s hloop =>
        exact hfail (by decide) (copyLoop_unreached hwrap hlen hstart hloop) hrun
    · next s hloop =>
        rw [Option.some.injEq, Prod.mk.injEq, Prod.mk.injEq] at hrun
        obtain ⟨rfl, rfl, rfl⟩ := hrun
        exact .hooked hentry hbuf hfirst (Nat.le_of_not_lt hsize)
          (copyLoop_unreached hwrap hlen hstart hloop) rfl

/-- **What a call of `symbol_hook` can do.**
Kind: P -/
theorem symbolHook_outcome (hwrap : NoWrap symtab symbolName)
    (hrun : symbolHook symtab buf symbolName code sym k = some (ret, sym', k')) :
    HookOutcome symtab buf symbolName code sym k ret sym' k' := by
  unfold symbolHook at hrun
  dsimp only at hrun
  by_cases hentry : ∃ addr endAddr, symbolEntry symbolName symtab = some (addr, some endAddr)
  · obtain ⟨addr, endAddr, hentry⟩ := hentry
    rw [findSymbolAddress_of_entry hentry, if_neg (lt_irrefl 0)] at hrun
    split_ifs at hrun with hjmp hbuf
    · rw [Option.some.injEq, Prod.mk.injEq, Prod.mk.injEq] at hrun
      obtain ⟨rfl, rfl, rfl⟩ := hrun
      exact @HookOutcome.turnedDown symtab buf symbolName code sym k addr endAddr sym.newAddr _ _
        hentry (by decide) rfl rfl fun _ _ => rfl
    · rw [Option.some.injEq, Prod.mk.injEq, Prod.mk.injEq] at hrun
      obtain ⟨rfl, rfl, rfl⟩ := hrun
      exact .turnedDown hentry (by decide) rfl rfl fun _ _ => rfl
    · exact hookBody_outcome hentry (hwrap addr endAddr hentry) hbuf hjmp hrun
  · push Not at hentry
    obtain ⟨addr, found, hlookup⟩ := findSymbolAddress_of_no_entry sym hentry
    rw [hlookup, if_pos (show -eFault < 0 by decide), Option.some.injEq, Prod.mk.injEq,
      Prod.mk.injEq] at hrun
    obtain ⟨rfl, rfl, rfl⟩ := hrun
    have hsym : (findSymbolAddress symtab sym symbolName).2 =
        { sym with name := some symbolName, addr := addr, found := found } := by
      rw [hlookup]
    rw [← hsym]
    exact .notFound hentry

end Outcome

/-! ## After an error -/

/-- The structure holds a hook, and `run` is its relocated copy.
Kind: D -/
def Active (sym : KernSym) : Prop := sym.hijacked = true ∧ sym.run = sym.newAddr

/-- The buffer of the call, with its guard page, lies apart from the text.
Kind: D -/
def TextApart (text : Set Addr) (symtab : SymTab) (symbolName : String) (buf : Addr) : Prop :=
  ∀ addr endAddr, symbolEntry symbolName symtab = some (addr, some endAddr) → buf ≠ 0 →
    ∀ x ∈ text, (endAddr - addr).toNat + 4096 ≤ (x - buf).toNat

/-- The call has left the text, the buffers and `hijacked`, and `run` if that was a relocated copy.
Kind: D -/
structure Unscathed (text : Set Addr) (sym : KernSym) (k : Kernel) (sym' : KernSym) (k' : Kernel) :
    Prop where
  /-- The text is unchanged. -/
  mem : ∀ x ∈ text, k'.mem x = k.mem x
  /-- No buffer of the call remains allocated. -/
  buffers : k'.buffers = k.buffers
  /-- `hijacked` is unchanged. -/
  hijacked : sym'.hijacked = sym.hijacked
  /-- `run` still points to the relocated copy. -/
  run : Active sym → sym'.run = sym.newAddr

/-- No active hook is held, or the lookup fails, or it finds the symbol at the copy itself.
Kind: D -/
def RunKept (symtab : SymTab) (symbolName : String) (sym : KernSym) : Prop :=
  Active sym → ∀ addr endAddr, symbolEntry symbolName symtab = some (addr, some endAddr) →
    addr = sym.newAddr

section Error

variable {text : Set Addr} {symtab : SymTab} {buf : Addr} {symbolName : String} {code : Addr}
  {sym sym' : KernSym} {k k' : Kernel} {ret : ℤ}

/-- **An error leaves everything as it was exactly when `run` is kept.**
Source: `xt_TOGPU_hook.c` 204–220, 283–286; `xt_TOGPU_symbols.c` 68–70
Kind: C -/
theorem unscathed_iff (hwrap : NoWrap symtab symbolName)
    (hapart : TextApart text symtab symbolName buf)
    (hrun : symbolHook symtab buf symbolName code sym k = some (ret, sym', k')) (herr : ret ≠ 0) :
    Unscathed text sym k sym' k' ↔ RunKept symtab symbolName sym := by
  cases symbolHook_outcome hwrap hrun with
  | notFound hentry =>
      obtain ⟨addr, found, hlookup⟩ := findSymbolAddress_of_no_entry sym hentry
      rw [hlookup]
      exact iff_of_true ⟨fun _ _ => rfl, rfl, rfl, fun h => h.2⟩
        fun _ addr endAddr h => absurd h (hentry addr endAddr)
  | turnedDown hentry hneg hbuffers hrw hmem =>
      rename_i addr endAddr newAddr
      constructor
      · intro h hactive a b hab
        rw [hentry, Option.some.injEq, Prod.mk.injEq] at hab
        rw [← hab.1]
        exact h.run hactive
      · intro hkept
        refine ⟨fun x hx => hmem x ?_, hbuffers, rfl, fun h => hkept h addr endAddr hentry⟩
        exact fun hbuf => hapart addr endAddr hentry hbuf x hx
  | hooked hentry hbuf hfirst hsize hmem hpatch => exact absurd rfl herr

end Error

/-! ## Hooking a function twice -/

/-- The bytes of `f`.
Kind: D -/
def fText : Set Addr := {x | (x - 0x1000).toNat < 8}

/-- The function and the entry after it.
Kind: L -/
theorem symbolEntry_f : symbolEntry "f" twoSymbols = some (0x1000, some 0x1008) := by
  decide

/-- The function does not wrap.
Kind: L -/
theorem noWrap_f : NoWrap twoSymbols "f" := by
  intro addr endAddr hentry
  rw [symbolEntry_f, Option.some.injEq, Prod.mk.injEq, Option.some.injEq] at hentry
  obtain ⟨rfl, rfl⟩ := hentry
  decide

/-- A buffer behind the functions is apart from the text.
Kind: L -/
theorem textApart_f {buf : Addr} (hbuf : buf ≠ 0 → 0x3000 ≤ buf ∧ buf ≤ 0x10000000) :
    TextApart fText twoSymbols "f" buf := by
  intro addr endAddr hentry hne x hx
  rw [symbolEntry_f, Option.some.injEq, Prod.mk.injEq, Option.some.injEq] at hentry
  obtain ⟨rfl, rfl⟩ := hentry
  obtain ⟨hlow, hhigh⟩ := hbuf hne
  have hx : (x - 0x1000).toNat < 8 := hx
  show (0x1008 - 0x1000 : Addr).toNat + 4096 ≤ (x - buf).toNat
  bv_omega

/-- A first call without memory for the buffer leaves everything as it was.
Kind: C -/
theorem unscathed_no_memory :
    ∃ sym' k', symbolHook twoSymbols 0 "f" 0x500000 freshSym (kernelWith callText) =
        some (-eNomem, sym', k') ∧ Unscathed fText freshSym (kernelWith callText) sym' k' := by
  have hrun : symbolHook twoSymbols 0 "f" 0x500000 freshSym (kernelWith callText) =
      some (-eNomem, lookup twoSymbols 0 "f" freshSym, kernelWith callText) := rfl
  refine ⟨_, _, hrun, ?_⟩
  refine (unscathed_iff noWrap_f (textApart_f fun h => absurd rfl h) hrun (by decide)).2 ?_
  rintro ⟨hhijacked, -⟩
  exact absurd hhijacked (by decide)

/-- The second call finds the jump of the first and returns an error, with `run` back at the
function: the hook now calls itself.
Kind: C -/
theorem second_hook_loses_run :
    ∃ sym k sym' k',
      symbolHook twoSymbols 0x100000 "f" 0x500000 freshSym (kernelWith callText) =
        some (0, sym, k) ∧ Active sym ∧
      symbolHook twoSymbols 0x200000 "f" 0x500000 sym k = some (-eFault, sym', k') ∧
      NoWrap twoSymbols "f" ∧ TextApart fText twoSymbols "f" 0x200000 ∧
      sym'.run = 0x1000 ∧ k'.mem 0x1000 = opJmpRel32 ∧ ¬ Unscathed fText sym k sym' k' := by
  have hfirst : (symbolHook twoSymbols 0x100000 "f" 0x500000 freshSym (kernelWith callText)).map
      (fun r => (r.1, r.2.1.hijacked, r.2.1.run, r.2.1.newAddr, r.2.2.mem 0x1000)) =
        some (0, true, 0x100000, 0x100000, opJmpRel32) := by
    decide +kernel
  obtain ⟨⟨ret, sym, k⟩, hrun, hsum⟩ := Option.map_eq_some_iff.1 hfirst
  simp only [Prod.mk.injEq] at hsum
  obtain ⟨rfl, hhijacked, hrun₁, hnew, hjmp⟩ := hsum
  have hlookup : findSymbolAddress twoSymbols sym "f" = (0, sym.located "f" 0x1000 0x1008) :=
    findSymbolAddress_of_entry symbolEntry_f
  have hsecond : symbolHook twoSymbols 0x200000 "f" 0x500000 sym k =
      some (-eFault, sym.located "f" 0x1000 0x1008, k) := by
    unfold symbolHook
    rw [hlookup]
    exact if_pos hjmp
  have hactive : Active sym := ⟨hhijacked, hrun₁.trans hnew.symm⟩
  refine ⟨sym, k, _, k, hrun, hactive, hsecond, noWrap_f, textApart_f fun _ => by decide, rfl, hjmp,
    fun h => ?_⟩
  have hkept : (0x1000 : Addr) = sym.newAddr := h.run hactive
  rw [hnew] at hkept
  exact absurd hkept (by decide)

end Togpu.Hook
