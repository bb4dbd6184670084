import Mathlib.Order.CompletePartialOrder
import Togpu.Lib.Run
import Togpu.Hook.Outcome

/-!
# Hooking and restoring

`symbol_hook` saves the five bytes that its jump replaces and `symbol_restore` puts them back. Here
any number of functions is hooked and restored, in any order.

* `JumpsTo` — the five bytes at an address are a jump, and `CODE_ADDR_FROM_OFFSET` gives its target.
* `Hooks`, `hookStep` — the kernel with one `struct kernsym` for each function, and the calls on
  them.
* `Saved` — where a function stands: its text is the original, or it starts with the jump, the rest
  is the original and the structure has the five bytes. Every call keeps it of every function
  (`saved_step`), whatever the outcome of the call.
* **Hook then restore is the identity on text** (`hook_restore_text`).
-/

namespace Togpu.Hook

open Togpu.Driver Togpu.Lib Togpu.X86

/-! ## The jump -/

/-- The five bytes at `a` are a jump to `code`.
Kind: D -/
def JumpsTo (mem : Addr → BitVec 8) (a code : Addr) : Prop :=
  mem a = opJmpRel32 ∧
    codeAddrFromOffset a (BitVec.ofNat 8 opJmpSize) (BitVec.ofNat 32 (loadLE mem (a + 1) 4)) = code

section Jump

variable {sym : KernSym} {code : Addr} {k : Kernel}

/-- What `patch` writes leads to the hook, if that is in reach.
Source: `xt_TOGPU_hook.c` 33–42, 272–275
Kind: L -/
theorem patch_jumpsTo (hreach : FitsS32 (code - (sym.addr + BitVec.ofNat 64 opJmpSize))) :
    JumpsTo (patch sym code k).2.mem sym.addr code := by
  refine ⟨patch_mem_addr, ?_⟩
  let offset := codeOffsetFromAddr sym.addr (BitVec.ofNat 64 opJmpSize) code
  have hload : loadLE (patch sym code k).2.mem (sym.addr + 1) 4 = offset.toNat := by
    let jump := Function.update (setAddrRw k sym.addr).2.mem sym.addr opJmpRel32
    have hsub : loadLE (storeLE jump (sym.addr + 1) 4 offset.toNat)
        (sym.addr + 1 + BitVec.ofNat 64 0) 4 = offset.toNat / 256 ^ 0 % 256 ^ 4 :=
      loadLE_storeLE_sub jump (sym.addr + 1) offset.toNat (by decide) (by decide)
    rw [BitVec.add_zero, pow_zero, Nat.div_one,
      Nat.mod_eq_of_lt (show offset.toNat < 256 ^ 4 from offset.isLt)] at hsub
    unfold patch
    simp only [setAddrRo_mem]
    exact hsub
  rw [hload, BitVec.ofNat_toNat, BitVec.setWidth_eq]
  exact (codeAddrFromOffset_codeOffsetFromAddr sym.addr code (BitVec.ofNat 8 opJmpSize)).2 hreach

end Jump

/-! ## Several hooks -/

/-- The kernel and one structure for each function.
Kind: D -/
structure Hooks (ι : Type) where
  /-- The kernel. -/
  kernel : Kernel
  /-- The structures. -/
  syms : ι → KernSym

/-- A call on one of the structures.
Kind: D -/
inductive HookCall (ι : Type) where
  /-- `symbol_hook`, when `module_alloc` returns `buf`. -/
  | hook (i : ι) (buf code : Addr)
  /-- `symbol_restore`. -/
  | restore (i : ι)

/-- One call; the structure `i` is for the function `name i`.
Source: `xt_TOGPU_hook.c` 193–313
Kind: D -/
def hookStep {ι : Type} [DecidableEq ι] (symtab : SymTab) (name : ι → String) (s : Hooks ι) :
    HookCall ι → Option (Hooks ι)
  | .hook i buf code =>
      (symbolHook symtab buf (name i) code (s.syms i) s.kernel).map fun r =>
        ⟨r.2.2, Function.update s.syms i r.2.1⟩
  | .restore i =>
      let r := symbolRestore (s.syms i) s.kernel
      some ⟨r.2, Function.update s.syms i r.1⟩

/-- The text of a function of the symbol table.
Kind: D -/
def textOf (symtab : SymTab) (symbolName : String) : Set Addr :=
  {x | ∃ addr endAddr, symbolEntry symbolName symtab = some (addr, some endAddr) ∧
    (x - addr).toNat < (endAddr - addr).toNat}

/-- `module_alloc` returns a buffer apart from the text of every function.
Kind: D -/
def AllocApart {ι : Type} (symtab : SymTab) (name : ι → String) (_ : Hooks ι) : HookCall ι → Prop
  | .hook i buf _ => ∀ j, TextApart (textOf symtab (name j)) symtab (name i) buf
  | .restore _ => True

/-- Where a function stands, `orig` being the original memory.
Kind: D -/
structure Saved (orig : Addr → BitVec 8) (symtab : SymTab) (symbolName : String) (sym : KernSym)
    (mem : Addr → BitVec 8) : Prop where
  /-- Without a hook the text is the original. -/
  inactive : sym.hijacked = false → ∀ x ∈ textOf symtab symbolName, mem x = orig x
  /-- With a hook the function starts with a jump, and the structure has what was there. -/
  active : sym.hijacked = true → ∃ endAddr,
    symbolEntry symbolName symtab = some (sym.addr, some endAddr) ∧
      opJmpSize ≤ (endAddr - sym.addr).toNat ∧ mem sym.addr = opJmpRel32 ∧
      (∀ j : Fin 5, sym.origStartBytes j = orig (sym.addr + BitVec.ofNat 64 j.val)) ∧
      ∀ x ∈ textOf symtab symbolName, 5 ≤ (x - sym.addr).toNat → mem x = orig x

section Step

variable {orig : Addr → BitVec 8} {symtab : SymTab} {buf : Addr} {symbolName : String}
  {code : Addr} {sym sym' : KernSym} {k k' : Kernel} {ret : ℤ}

/-- The first five bytes of a function that has them are text.
Kind: L -/
theorem mem_textOf_of_lt {addr endAddr x : Addr}
    (hentry : symbolEntry symbolName symtab = some (addr, some endAddr))
    (hsize : opJmpSize ≤ (endAddr - addr).toNat) (hx : (x - addr).toNat < 5) :
    x ∈ textOf symtab symbolName :=
  ⟨addr, endAddr, hentry, lt_of_lt_of_le hx hsize⟩

/-- **The call changes the text in its first five bytes only**, and only if it returns zero.
Kind: L -/
theorem HookOutcome.mem_eq {text : Set Addr}
    (h : HookOutcome symtab buf symbolName code sym k ret sym' k')
    (hapart : TextApart text symtab symbolName buf) {x : Addr} (hx : x ∈ text)
    (hout : ret = 0 → 5 ≤ (x - sym'.addr).toNat) : k'.mem x = k.mem x := by
  cases h with
  | notFound _ => rfl
  | turnedDown hentry _ _ _ hmem => exact hmem x fun hbuf => hapart _ _ hentry hbuf x hx
  | hooked hentry hbuf _ _ hmem hpatch =>
      subst hpatch
      have hcopied := hmem x (hapart _ _ hentry hbuf x hx)
      exact (patch_mem_of_le (hout rfl)).trans hcopied

/-- A call that leaves the text, the flag, the saved bytes and, with a hook, the address.
Kind: L -/
theorem Saved.congr {mem mem' : Addr → BitVec 8} (hs : Saved orig symtab symbolName sym mem)
    (hflag : sym'.hijacked = sym.hijacked) (hbytes : sym'.origStartBytes = sym.origStartBytes)
    (haddr : sym.hijacked = true → sym'.addr = sym.addr)
    (hsame : ∀ x ∈ textOf symtab symbolName, mem' x = mem x) :
    Saved orig symtab symbolName sym' mem' := by
  refine ⟨fun hinactive x hx => ?_, fun hactive => ?_⟩
  · rw [hsame x hx]
    exact hs.inactive (hflag.symm.trans hinactive) x hx
  · have hactive := hflag.symm.trans hactive
    obtain ⟨endAddr, hentry, hsize, hjmp, hsaved, hrest⟩ := hs.active hactive
    have hstart : sym.addr ∈ textOf symtab symbolName := mem_textOf_of_lt hentry hsize (by simp)
    rw [haddr hactive, hbytes]
    exact ⟨endAddr, hentry, hsize, (hsame _ hstart).trans hjmp, hsaved,
      fun x hx hout => (hsame x hx).trans (hrest x hx hout)⟩

/-- A call on the function itself.
Kind: L -/
theorem Saved.hook (hs : Saved orig symtab symbolName sym k.mem)
    (hapart : TextApart (textOf symtab symbolName) symtab symbolName buf)
    (h : HookOutcome symtab buf symbolName code sym k ret sym' k') :
    Saved orig symtab symbolName sym' k'.mem := by
  cases h with
  | notFound hentry =>
      obtain ⟨addr, found, hlookup⟩ := findSymbolAddress_of_no_entry sym hentry
      rw [hlookup]
      refine hs.congr rfl rfl (fun hactive => ?_) fun _ _ => rfl
      obtain ⟨endAddr, hentry', -⟩ := hs.active hactive
      exact absurd hentry' (hentry _ _)
  | turnedDown hentry hneg hbuffers hrw hmem =>
      refine hs.congr rfl rfl (fun hactive => ?_) fun x hx => ?_
      · obtain ⟨endAddr', hentry', -⟩ := hs.active hactive
        rw [hentry, Option.some.injEq, Prod.mk.injEq] at hentry'
        exact hentry'.1
      · exact hmem x fun hbuf => hapart _ _ hentry hbuf x hx
  | hooked hentry hbuf hfirst hsize hmem hpatch =>
      rename_i addr endAddr newSize mem r
      subst hpatch
      have hsame : ∀ x ∈ textOf symtab symbolName, mem x = k.mem x :=
        fun x hx => hmem x (hapart addr endAddr hentry hbuf x hx)
      -- an active hook would have left a jump here
      have hinactive : sym.hijacked = false := by
        by_contra hactive
        obtain ⟨endAddr', hentry', -, hjmp, -⟩ := hs.active (by simpa using hactive)
        rw [hentry, Option.some.injEq, Prod.mk.injEq] at hentry'
        rw [← hentry'.1] at hjmp
        exact hfirst hjmp
      refine ⟨nofun, fun _ => ⟨endAddr, hentry, hsize, patch_mem_addr, fun j => ?_,
        fun x hx hout => ?_⟩⟩
      · have hbyte : addr + BitVec.ofNat 64 j.val ∈ textOf symtab symbolName := by
          refine mem_textOf_of_lt hentry hsize ?_
          rw [toNat_add_ofNat_sub addr (by omega)]
          exact j.isLt
        exact (hsame _ hbyte).trans (hs.inactive hinactive _ hbyte)
      · have horig := (hsame x hx).trans (hs.inactive hinactive x hx)
        exact (patch_mem_of_le hout).trans horig

/-- What `symbol_restore` leaves in memory.
Kind: L -/
theorem symbolRestore_mem (hactive : sym.hijacked = true) (x : Addr) :
    (symbolRestore sym k).2.mem x =
      if h : (x - sym.addr).toNat < opJmpSize then sym.origStartBytes ⟨(x - sym.addr).toNat, h⟩
      else k.mem x := by
  unfold symbolRestore
  simp only [hactive, if_true, mallocFree_mem, setAddrRo_mem, setAddrRw_mem]

/-- `symbol_restore` without a hook changes one flag.
Kind: L -/
theorem symbolRestore_of_inactive (hinactive : sym.hijacked = false) (k : Kernel) :
    symbolRestore sym k = ({ sym with nameAlloc := false }, k) := by
  unfold symbolRestore
  simp only [hinactive, Bool.false_eq_true, if_false]

/-- `symbol_restore` changes the first five bytes of a hooked function only.
Kind: L -/
theorem symbolRestore_mem_of_le {x : Addr} (hout : sym.hijacked = true → 5 ≤ (x - sym.addr).toNat) :
    (symbolRestore sym k).2.mem x = k.mem x := by
  cases hactive : sym.hijacked with
  | false => rw [symbolRestore_of_inactive hactive]
  | true =>
      have hfar : ¬ (x - sym.addr).toNat < opJmpSize := Nat.not_lt.2 (hout hactive)
      rw [symbolRestore_mem hactive, dif_neg hfar]

/-- After `symbol_restore` there is no hook.
Kind: L -/
theorem symbolRestore_hijacked (sym : KernSym) (k : Kernel) :
    (symbolRestore sym k).1.hijacked = false := by
  unfold symbolRestore
  cases hactive : sym.hijacked with
  | true => rfl
  | false => exact hactive

/-- A restore of the function itself.
Kind: L -/
theorem Saved.restore (hs : Saved orig symtab symbolName sym k.mem) :
    Saved orig symtab symbolName (symbolRestore sym k).1 (symbolRestore sym k).2.mem := by
  have hdone := symbolRestore_hijacked sym k
  refine ⟨fun _ x hx => ?_, fun h => absurd (h.symm.trans hdone) (by decide)⟩
  cases hactive : sym.hijacked with
  | false =>
      rw [symbolRestore_of_inactive hactive]
      exact hs.inactive hactive x hx
  | true =>
      obtain ⟨endAddr, -, -, -, hsaved, hrest⟩ := hs.active hactive
      rw [symbolRestore_mem hactive]
      split_ifs with hnear
      · rw [hsaved, BitVec.ofNat_toNat, BitVec.setWidth_eq, add_sub_cancel]
      · exact hrest x hx (Nat.le_of_not_lt hnear)

end Step

section Run

variable {ι : Type} [DecidableEq ι] {symtab : SymTab} {name : ι → String} {s s' : Hooks ι}
  {c : HookCall ι} {orig : Addr → BitVec 8}

/-- Every function stands as it should.
Kind: D -/
def SavedAll (orig : Addr → BitVec 8) (symtab : SymTab) (name : ι → String) (s : Hooks ι) : Prop :=
  ∀ i, Saved orig symtab (name i) (s.syms i) s.kernel.mem

/-- The functions occupy disjoint ranges.
Kind: D -/
def Apart (symtab : SymTab) (name : ι → String) : Prop :=
  ∀ i j, i ≠ j → Disjoint (textOf symtab (name i)) (textOf symtab (name j))

omit [DecidableEq ι] in

/-- The first five bytes of one function are not text of another.
Kind: L -/
theorem Apart.le_of_mem (hdisj : Apart symtab name) {i j : ι} (hij : i ≠ j) {addr endAddr x : Addr}
    (hentry : symbolEntry (name i) symtab = some (addr, some endAddr))
    (hsize : opJmpSize ≤ (endAddr - addr).toNat) (hx : x ∈ textOf symtab (name j)) :
    5 ≤ (x - addr).toNat := by
  by_contra hnear
  have hin := mem_textOf_of_lt hentry hsize (Nat.lt_of_not_le hnear)
  exact Set.disjoint_left.1 (hdisj i j hij) hin hx

/-- A call on one structure keeps the others.
Kind: L -/
theorem SavedAll.update (hs : SavedAll orig symtab name s) {i : ι} {sym' : KernSym} {k' : Kernel}
    (hown : Saved orig symtab (name i) sym' k'.mem)
    (hother : ∀ j, i ≠ j → ∀ x ∈ textOf symtab (name j), k'.mem x = s.kernel.mem x) :
    SavedAll orig symtab name ⟨k', Function.update s.syms i sym'⟩ := by
  intro j
  by_cases hij : i = j
  · subst hij
    simp only [Function.update_self]
    exact hown
  · simp only [Function.update_of_ne (Ne.symm hij)]
    exact (hs j).congr rfl rfl (fun _ => rfl) (hother j hij)

/-- **One call keeps every function**, whatever its outcome.
Kind: L -/
theorem saved_step (hwrap : ∀ i, NoWrap symtab (name i)) (hdisj : Apart symtab name)
    (hs : SavedAll orig symtab name s) (hok : AllocApart symtab name s c)
    (hstep : hookStep symtab name s c = some s') : SavedAll orig symtab name s' := by
  cases c with
  | hook i buf code =>
      obtain ⟨⟨ret, sym', k'⟩, hrun, rfl⟩ := Option.map_eq_some_iff.1 hstep
      have houtcome := symbolHook_outcome (hwrap i) hrun
      refine hs.update ((hs i).hook (hok i) houtcome) fun j hij x hx => ?_
      refine houtcome.mem_eq (hok j) hx fun hret => ?_
      subst hret
      cases houtcome with
      | turnedDown _ hneg => exact absurd hneg (lt_irrefl 0)
      | hooked hentry _ _ hsize _ hpatch =>
          subst hpatch
          exact hdisj.le_of_mem hij hentry hsize hx
  | restore i =>
      cases hstep
      refine hs.update (hs i).restore fun j hij x hx => ?_
      refine symbolRestore_mem_of_le fun hactive => ?_
      obtain ⟨endAddr, hentry, hsize, -⟩ := (hs i).active hactive
      exact hdisj.le_of_mem hij hentry hsize hx

/-- **Every run keeps every function.**
Kind: P -/
theorem saved_run (hwrap : ∀ i, NoWrap symtab (name i)) (hdisj : Apart symtab name)
    (hfresh : ∀ i, (s.syms i).hijacked = false) {calls : List (HookCall ι)}
    (hok : Along (hookStep symtab name) (AllocApart symtab name) s calls)
    (hrun : exec (hookStep symtab name) s calls = some s') :
    SavedAll s.kernel.mem symtab name s' := by
  have hstart : SavedAll s.kernel.mem symtab name s := by
    intro i
    exact ⟨fun _ _ _ => rfl, fun hactive => absurd ((hfresh i).symm.trans hactive) (by decide)⟩
  exact exec_invariant (fun _ _ _ hs hc hstep => saved_step hwrap hdisj hs hc hstep) hstart hok hrun

end Run

/-! ## The identity on text -/

/-- **Hook then restore is the identity on text.** A call of `symbol_hook` that returns zero leaves
a jump to the hook in the first five bytes, if that is in reach, and every other byte of the text.
After any sequence of calls on functions in disjoint ranges, a function without an active hook has
its original text.
Source: `xt_TOGPU_hook.c` 264–281, 289–313
Kind: C -/
theorem hook_restore_text :
    (∀ (text : Set Addr) symtab buf symbolName code sym k sym' k',
      NoWrap symtab symbolName → TextApart text symtab symbolName buf →
      symbolHook symtab buf symbolName code sym k = some (0, sym', k') →
      FitsS32 (code - (sym'.addr + BitVec.ofNat 64 opJmpSize)) →
      JumpsTo k'.mem sym'.addr code ∧
        ∀ x ∈ text, opJmpSize ≤ (x - sym'.addr).toNat → k'.mem x = k.mem x) ∧
    ∀ (ι : Type) [DecidableEq ι] symtab (name : ι → String) s calls s',
      (∀ i, NoWrap symtab (name i)) → Apart symtab name → (∀ i, (s.syms i).hijacked = false) →
      Along (hookStep symtab name) (AllocApart symtab name) s calls →
      exec (hookStep symtab name) s calls = some s' →
      ∀ i, (s'.syms i).hijacked = false →
        ∀ x ∈ textOf symtab (name i), s'.kernel.mem x = s.kernel.mem x := by
  refine ⟨?_, ?_⟩
  · intro text symtab buf symbolName code sym k sym' k' hwrap hapart hrun hreach
    have houtcome := symbolHook_outcome hwrap hrun
    refine ⟨?_, fun x hx hout => houtcome.mem_eq hapart hx fun _ => hout⟩
    generalize hret : (0 : ℤ) = ret at houtcome
    cases houtcome with
    | notFound _ => exact absurd hret (by decide)
    | turnedDown _ hneg => exact absurd hneg (by rw [← hret]; exact lt_irrefl 0)
    | hooked _ _ _ _ _ hpatch =>
        subst hpatch
        exact patch_jumpsTo hreach
  · intro ι _ symtab name s calls s' hwrap hdisj hfresh hok hrun i hinactive x hx
    exact (saved_run hwrap hdisj hfresh hok hrun i).inactive hinactive x hx

/-! ## Two functions -/

/-- Two functions of eight bytes.
Kind: D -/
def pairTable : SymTab := [("f", 0x1000), ("g", 0x1008), ("h", 0x1010)]

/-- The name of each.
Kind: D -/
def pairName : Bool → String
  | true => "f"
  | false => "g"

/-- The address of each.
Kind: D -/
def pairAddr : Bool → Addr
  | true => 0x1000
  | false => 0x1008

/-- `call 0x2000; ret` at `0x1000` and `ret` at `0x1008`.
Kind: D -/
def pairText : Addr → BitVec 8 := Function.update callText 0x1008 0xc3

/-- The kernel with the two functions and no hook.
Kind: D -/
def pairHooks : Hooks Bool := ⟨kernelWith pairText, fun _ => freshSym⟩

/-- Each function and the entry after it.
Kind: L -/
theorem symbolEntry_pair (i : Bool) :
    symbolEntry (pairName i) pairTable = some (pairAddr i, some (pairAddr i + 8)) := by
  cases i <;> decide

/-- The text of each is its eight bytes.
Kind: L -/
theorem mem_textOf_pair {i : Bool} {x : Addr} (hx : x ∈ textOf pairTable (pairName i)) :
    (x - pairAddr i).toNat < 8 := by
  obtain ⟨addr, endAddr, hentry, hlt⟩ := hx
  rw [symbolEntry_pair, Option.some.injEq, Prod.mk.injEq, Option.some.injEq] at hentry
  obtain ⟨rfl, rfl⟩ := hentry
  rw [add_sub_cancel_left] at hlt
  exact hlt

/-- Neither wraps.
Kind: L -/
theorem noWrap_pair (i : Bool) : NoWrap pairTable (pairName i) := by
  intro addr endAddr hentry
  rw [symbolEntry_pair, Option.some.injEq, Prod.mk.injEq, Option.some.injEq] at hentry
  obtain ⟨rfl, rfl⟩ := hentry
  cases i <;> decide

/-- Their texts are apart.
Kind: L -/
theorem apart_pair : Apart pairTable pairName := by
  intro i j hij
  rw [Set.disjoint_left]
  intro x hi hj
  have hi := mem_textOf_pair hi
  have hj := mem_textOf_pair hj
  cases i <;> cases j <;> simp only [pairAddr, ne_eq, not_true_eq_false] at hi hj hij <;> bv_omega

/-- A buffer behind the functions is apart from the text of both.
Kind: L -/
theorem textApart_pair (i j : Bool) {buf : Addr} (hlow : 0x3000 ≤ buf) (hhigh : buf ≤ 0x10000000) :
    TextApart (textOf pairTable (pairName j)) pairTable (pairName i) buf := by
  intro addr endAddr hentry _ x hx
  have hx := mem_textOf_pair hx
  rw [symbolEntry_pair, Option.some.injEq, Prod.mk.injEq, Option.some.injEq] at hentry
  obtain ⟨rfl, rfl⟩ := hentry
  rw [add_sub_cancel_left]
  cases j <;> simp only [pairAddr] at hx <;> bv_omega

/-- Both functions are hooked, then the first is restored: it has its text back, and the other jumps
to its hook.
Kind: C -/
theorem hook_restore_pair :
    ∃ sym k s,
      symbolHook pairTable 0x100000 "f" 0x500000 freshSym (kernelWith pairText) = some (0, sym, k) ∧
      JumpsTo k.mem sym.addr 0x500000 ∧
      exec (hookStep pairTable pairName) pairHooks
        [.hook true 0x100000 0x500000, .hook false 0x200000 0x600000, .restore true] = some s ∧
      (s.syms true).hijacked = false ∧ (s.syms false).hijacked = true ∧
      ∀ x ∈ textOf pairTable "f", s.kernel.mem x = pairText x := by
  have hfirst : (symbolHook pairTable 0x100000 "f" 0x500000 freshSym (kernelWith pairText)).map
      (fun r => (r.1, r.2.1.addr)) = some (0, 0x1000) := by
    decide +kernel
  have hcalls : (exec (hookStep pairTable pairName) pairHooks
      [.hook true 0x100000 0x500000, .hook false 0x200000 0x600000, .restore true]).map
        (fun s => ((s.syms true).hijacked, (s.syms false).hijacked)) = some (false, true) := by
    decide +kernel
  obtain ⟨⟨ret, sym, k⟩, hhook, hsum⟩ := Option.map_eq_some_iff.1 hfirst
  obtain ⟨s, hrun, hflags⟩ := Option.map_eq_some_iff.1 hcalls
  simp only [Prod.mk.injEq] at hsum hflags
  obtain ⟨rfl, haddr⟩ := hsum
  have hapart : ∀ s i buf code, 0x3000 ≤ buf → buf ≤ 0x10000000 →
      AllocApart pairTable pairName s (.hook i buf code) :=
    fun s i buf code hlow hhigh j => textApart_pair i j hlow hhigh
  have hok : Along (hookStep pairTable pairName) (AllocApart pairTable pairName) pairHooks
      [.hook true 0x100000 0x500000, .hook false 0x200000 0x600000, .restore true] :=
    ⟨hapart _ _ _ _ (by decide) (by decide), fun _ _ =>
      ⟨hapart _ _ _ _ (by decide) (by decide), fun _ _ => ⟨trivial, fun _ _ => trivial⟩⟩⟩
  have hreach : FitsS32 ((0x500000 : Addr) - (sym.addr + BitVec.ofNat 64 opJmpSize)) := by
    rw [haddr]
    exact ⟨by decide, by decide⟩
  have hjump := hook_restore_text.1 _ _ _ _ _ _ _ _ _ (noWrap_pair true)
    (textApart_pair true true (by decide) (by decide)) hhook hreach
  have htext :=
    hook_restore_text.2 Bool _ _ _ _ _ noWrap_pair apart_pair (fun _ => rfl) hok hrun true
    hflags.1
  exact ⟨sym, k, s, hhook, hjump.1, hrun, hflags.1, hflags.2, htext⟩

end Togpu.Hook
