import Togpu.Hook.Restore

/-!
# The entry point of the original

The hook functions call the original through `sym->run`. Here one `struct kernsym` goes through any
sequence of `symbol_hook` and `symbol_restore` calls.

* `RelocatedCopy` — memory holds, from a base on, every instruction of the function's original text.
* `EntryOk` — once the symbol has been found, `run` is the function with its original text, or the
  base of a relocated copy that has not been freed.
* **When it holds** (`entryOk_iff`): in every state of a run exactly when no call is made while the
  hook is active. `symbol_restore` frees the copy and leaves `run` there; a second `symbol_hook`
  fails after the lookup has moved `run` to the jump.
-/

namespace Togpu.Hook

open Togpu.Driver Togpu.Lib Togpu.X86

/-! ## The copy -/

/-- From `base` on stands every instruction of the function, copied from its text `orig` and fixed
up.
Kind: D -/
def RelocatedCopy (orig : Addr → BitVec 8) (symtab : SymTab) (symbolName : String)
    (mem : Addr → BitVec 8) (base : Addr) : Prop :=
  ∃ (func : KernSym) (endAddr : Addr) (src : Addr → BitVec 8), func.newAddr = base ∧
    symbolEntry symbolName symtab = some (func.addr, some endAddr) ∧
    func.size = endAddr - func.addr ∧ (∀ x ∈ textOf symtab symbolName, src x = orig x) ∧
    CopiedFrom src mem func (bodyEnd src func) func.addr

section Copy

variable {symtab : SymTab} {buf : Addr} {symbolName : String} {code : Addr} {sym sym' : KernSym}
  {k k' : Kernel} {addr endAddr : Addr}

/-- The record with which the copy starts, for a symbol of the table.
Kind: L -/
theorem lookup_of_entry (hentry : symbolEntry symbolName symtab = some (addr, some endAddr)) :
    lookup symtab buf symbolName sym =
      { sym.located symbolName addr endAddr with newAddr := buf } := by
  unfold lookup
  rw [findSymbolAddress_of_entry hentry]

/-- The kernel gives out a buffer that is not in use, placed apart from the text.
Kind: D -/
def BufferPlaced (symtab : SymTab) (buf : Addr) (symbolName : String) (sym : KernSym) (k : Kernel) :
    Prop :=
  (findSymbolAddress symtab sym symbolName).1 = 0 → buf ≠ 0 →
    buf ∉ k.buffers ∧ ∃ tail, Placed k.mem (lookup symtab buf symbolName sym) tail

/-- A placed buffer is apart from the function.
Kind: L -/
theorem BufferPlaced.textApart (h : BufferPlaced symtab buf symbolName sym k) :
    TextApart (textOf symtab symbolName) symtab symbolName buf := by
  intro addr endAddr hentry hbuf x hx
  obtain ⟨addr', endAddr', hentry', hx⟩ := hx
  rw [hentry, Option.some.injEq, Prod.mk.injEq, Option.some.injEq] at hentry'
  obtain ⟨rfl, rfl⟩ := hentry'
  obtain ⟨-, tail, hp⟩ := h (by rw [findSymbolAddress_of_entry hentry]) hbuf
  rw [lookup_of_entry hentry] at hp
  have hsize : (endAddr - addr).toNat ≤ tail := hp.size_le
  have happ := hp.apart (x - addr).toNat (by omega)
  have hx' : addr + BitVec.ofNat 64 (x - addr).toNat = x := by
    rw [BitVec.ofNat_toNat, BitVec.setWidth_eq, add_sub_cancel]
  show (endAddr - addr).toNat + 4096 ≤ (x - buf).toNat
  rw [← hx']
  exact happ

/-- **A call that returns zero has relocated the function.**
Kind: L -/
theorem relocatedCopy_of_symbolHook {orig : Addr → BitVec 8}
    (hplaced : BufferPlaced symtab buf symbolName sym k)
    (hentry : symbolEntry symbolName symtab = some (addr, some endAddr))
    (horig : ∀ x ∈ textOf symtab symbolName, k.mem x = orig x)
    (hrun : symbolHook symtab buf symbolName code sym k = some (0, sym', k')) :
    RelocatedCopy orig symtab symbolName k'.mem buf := by
  have hfunc : ∃ endAddr, symbolEntry symbolName symtab =
      some ((lookup symtab buf symbolName sym).addr, some endAddr) ∧
      (lookup symtab buf symbolName sym).size =
        endAddr - (lookup symtab buf symbolName sym).addr := by
    rw [lookup_of_entry hentry]
    exact ⟨endAddr, hentry, rfl⟩
  obtain ⟨stop, hentry', hsize⟩ := hfunc
  rcases symbolHook_spec code fun hret hbuf => (hplaced hret hbuf).2 with
    ⟨-, ret, sym'', k'', hrun', hneg, -⟩ |
      ⟨-, tail, s, off, sym'', k'', hp, -, hcopied, hrun', hpatched⟩
  · rw [hrun, Option.some.injEq, Prod.mk.injEq] at hrun'
    exact absurd hneg (by rw [← hrun'.1]; exact lt_irrefl 0)
  · rw [hrun, Option.some.injEq, Prod.mk.injEq, Prod.mk.injEq] at hrun'
    rw [hrun'.2.2]
    exact ⟨_, stop, k.mem, rfl, hentry', hsize, horig, hcopied.of_patched hp hpatched⟩

end Copy

/-! ## Runs of one structure -/

/-- One call on the structure.
Kind: D -/
def entryStep (symtab : SymTab) (symbolName : String) : Hooks Unit → HookCall Unit →
    Option (Hooks Unit) :=
  hookStep symtab fun _ => symbolName

/-- What the kernel promises of the buffers it gives out.
Kind: D -/
def EntryAlloc (symtab : SymTab) (symbolName : String) (s : Hooks Unit) : HookCall Unit → Prop
  | .hook _ buf _ => BufferPlaced symtab buf symbolName (s.syms ()) s.kernel
  | .restore _ => True

/-- The symbol has been found.
Kind: D -/
def FoundOnce (symtab : SymTab) (symbolName : String) (s : Hooks Unit) : Prop :=
  (s.syms ()).found = true ∧
    ∃ addr endAddr, symbolEntry symbolName symtab = some (addr, some endAddr)

/-- `run` is the function with its original text, or a relocated copy that has not been freed.
Kind: D -/
def EntryOk (orig : Addr → BitVec 8) (symtab : SymTab) (symbolName : String) (s : Hooks Unit) :
    Prop :=
  FoundOnce symtab symbolName s →
    ((s.syms ()).run = (s.syms ()).addr ∧
      ∀ x ∈ textOf symtab symbolName, s.kernel.mem x = orig x) ∨
    ((s.syms ()).run ∈ s.kernel.buffers ∧
      RelocatedCopy orig symtab symbolName s.kernel.mem (s.syms ()).run)

/-- No hook is active.
Kind: D -/
def Idle (s : Hooks Unit) (_ : HookCall Unit) : Prop := (s.syms ()).hijacked = false

/-- The copy of an active hook, the one buffer that the structure will free.
Kind: D -/
structure CopyInUse (orig : Addr → BitVec 8) (symtab : SymTab) (symbolName : String)
    (s : Hooks Unit) : Prop where
  /-- The symbol has been found. -/
  found : FoundOnce symtab symbolName s
  /-- The function did not start with a jump. -/
  first : orig (s.syms ()).addr ≠ opJmpRel32
  /-- `run` is the copy … -/
  run : (s.syms ()).run = (s.syms ()).newAddr
  /-- … of the function … -/
  copy : RelocatedCopy orig symtab symbolName s.kernel.mem (s.syms ()).run
  /-- … in a buffer … -/
  ne_zero : (s.syms ()).newAddr ≠ 0
  /-- … that is not the function … -/
  ne_addr : (s.syms ()).newAddr ≠ (s.syms ()).addr
  /-- … and is allocated once. -/
  owned : ∃ rest, s.kernel.buffers = (s.syms ()).newAddr :: rest ∧ (s.syms ()).newAddr ∉ rest

/-- What a run of calls on an idle structure keeps.
Kind: D -/
structure EntryInv (orig : Addr → BitVec 8) (symtab : SymTab) (symbolName : String)
    (s : Hooks Unit) : Prop where
  /-- The text is the original, or it is patched and saved. -/
  saved : SavedAll orig symtab (fun _ : Unit => symbolName) s
  /-- No buffer is in the function. -/
  buffers : ∀ b ∈ s.kernel.buffers, b ∉ textOf symtab symbolName
  /-- Without a hook `run` is the function. -/
  idle : (s.syms ()).hijacked = false → FoundOnce symtab symbolName s →
    (s.syms ()).run = (s.syms ()).addr
  /-- With a hook it is the copy. -/
  active : (s.syms ()).hijacked = true → CopyInUse orig symtab symbolName s

section Step

variable {orig : Addr → BitVec 8} {symtab : SymTab} {symbolName : String} {s s' : Hooks Unit}

/-- The invariant gives the property.
Kind: L -/
theorem EntryInv.entryOk (h : EntryInv orig symtab symbolName s) :
    EntryOk orig symtab symbolName s := by
  intro hfound
  cases hflag : (s.syms ()).hijacked with
  | false => exact .inl ⟨h.idle hflag hfound, (h.saved ()).inactive hflag⟩
  | true =>
      have hcopy := h.active hflag
      obtain ⟨rest, hbuffers, -⟩ := hcopy.owned
      refine .inr ⟨?_, hcopy.copy⟩
      rw [hcopy.run, hbuffers]
      exact List.mem_cons_self

@[simp] theorem setAddrRo_buffers (k : Kernel) (addr : Addr) (flag : Bool) :
    (setAddrRo k addr flag).buffers = k.buffers := by
  unfold setAddrRo
  split_ifs <;> rfl

/-- Patching allocates nothing.
Kind: L -/
theorem patch_buffers (sym : KernSym) (code : Addr) (k : Kernel) :
    (patch sym code k).2.buffers = k.buffers :=
  setAddrRo_buffers ..

/-- `symbol_restore` with a hook frees the copy and keeps `run`.
Kind: L -/
theorem symbolRestore_of_active {sym : KernSym} (hactive : sym.hijacked = true) (k : Kernel) :
    (symbolRestore sym k).1 = { sym with hijacked := false, nameAlloc := false } ∧
      (sym.newAddr ≠ 0 → (symbolRestore sym k).2.buffers = k.buffers.erase sym.newAddr) := by
  unfold symbolRestore
  simp only [hactive, if_true]
  refine ⟨trivial, fun hne => ?_⟩
  unfold mallocFree
  rw [if_pos hne]
  simp only [setAddrRo_buffers]
  rfl

/-- A buffer apart from the function is not in it.
Kind: L -/
theorem TextApart.notMem {text : Set Addr} {buf addr endAddr : Addr}
    (h : TextApart text symtab symbolName buf)
    (hentry : symbolEntry symbolName symtab = some (addr, some endAddr)) (hbuf : buf ≠ 0) :
    buf ∉ text := by
  intro hmem
  have hfar := h addr endAddr hentry hbuf buf hmem
  rw [sub_self] at hfar
  simp at hfar

/-- The state after a call on the one structure.
Kind: L -/
theorem update_unit (syms : Unit → KernSym) (i : Unit) (sym' : KernSym) :
    Function.update syms i sym' = fun _ => sym' := by
  funext u
  exact Function.update_self ..

/-- **`symbol_hook` on an idle structure** keeps the invariant, whatever the outcome.
Kind: L -/
theorem EntryInv.hook {buf code : Addr} (hwrap : NoWrap symtab symbolName)
    (h : EntryInv orig symtab symbolName s) (hidle : (s.syms ()).hijacked = false)
    (hplaced : BufferPlaced symtab buf symbolName (s.syms ()) s.kernel) {ret : ℤ} {sym' : KernSym}
    {k' : Kernel}
    (hrun : symbolHook symtab buf symbolName code (s.syms ()) s.kernel = some (ret, sym', k'))
    (hsaved : SavedAll orig symtab (fun _ : Unit => symbolName) ⟨k', fun _ => sym'⟩) :
    EntryInv orig symtab symbolName ⟨k', fun _ => sym'⟩ := by
  have hapart := hplaced.textApart
  cases symbolHook_outcome hwrap hrun with
  | notFound hentry =>
      obtain ⟨addr, found, hlookup⟩ := findSymbolAddress_of_no_entry (s.syms ()) hentry
      rw [hlookup] at hsaved ⊢
      refine ⟨hsaved, h.buffers, fun _ hfound => ?_, fun hactive => ?_⟩
      · obtain ⟨-, a, b, hab⟩ := hfound
        exact absurd hab (hentry a b)
      · exact absurd (hidle.symm.trans hactive) (by decide)
  | turnedDown hentry hneg hbuffers hrw hmem =>
      refine ⟨hsaved, ?_, fun _ _ => rfl, fun hactive => ?_⟩
      · rw [hbuffers]
        exact h.buffers
      · exact absurd (hidle.symm.trans hactive) (by decide)
  | hooked hentry hbuf hfirst hsize hmem hpatch =>
      rename_i addr endAddr newSize mem r
      have hnotMem := hapart.notMem hentry hbuf
      have hstart : addr ∈ textOf symtab symbolName := mem_textOf_of_lt hentry hsize (by simp)
      have horig := (h.saved ()).inactive hidle
      have hjmp : orig addr ≠ opJmpRel32 := fun heq => hfirst ((horig addr hstart).trans heq)
      have hne : buf ≠ addr := fun heq => hnotMem (heq ▸ hstart)
      have hcopy := relocatedCopy_of_symbolHook hplaced hentry horig hrun
      have hfresh := (hplaced (by rw [findSymbolAddress_of_entry hentry]) hbuf).1
      subst hpatch
      refine ⟨hsaved, ?_, nofun, fun _ => ?_⟩
      · rw [patch_buffers]
        intro b hb
        rcases List.mem_cons.1 hb with rfl | hb
        · exact hnotMem
        · exact h.buffers b hb
      · exact ⟨⟨rfl, addr, endAddr, hentry⟩, hjmp, rfl, hcopy, hbuf, hne, s.kernel.buffers,
          patch_buffers .., hfresh⟩

/-- **`symbol_hook` on an active structure** fails at its own jump, with `run` there.
Kind: L -/
theorem EntryInv.not_entryOk_hook {buf code : Addr} (hwrap : NoWrap symtab symbolName)
    (h : EntryInv orig symtab symbolName s) (hactive : (s.syms ()).hijacked = true)
    (hplaced : BufferPlaced symtab buf symbolName (s.syms ()) s.kernel) {ret : ℤ} {sym' : KernSym}
    {k' : Kernel}
    (hrun : symbolHook symtab buf symbolName code (s.syms ()) s.kernel = some (ret, sym', k')) :
    ¬ EntryOk orig symtab symbolName ⟨k', fun _ => sym'⟩ := by
  obtain ⟨endAddr, hentry, hsize, hjmp, -⟩ := (h.saved ()).active hactive
  have hstart := mem_textOf_of_lt hentry hsize
    (show ((s.syms ()).addr - (s.syms ()).addr).toNat < 5 by simp)
  cases symbolHook_outcome hwrap hrun with
  | notFound hnone => exact absurd hentry (hnone _ _)
  | hooked hentry' hbuf hfirst hsize' hmem hpatch =>
      rw [hentry, Option.some.injEq, Prod.mk.injEq] at hentry'
      rw [← hentry'.1] at hfirst
      exact absurd hjmp hfirst
  | turnedDown hentry' hneg hbuffers hrw hmem =>
      rename_i addr endAddr' newAddr
      have haddr : addr = (s.syms ()).addr := by
        rw [hentry, Option.some.injEq, Prod.mk.injEq] at hentry'
        exact hentry'.1.symm
      subst haddr
      intro hok
      rcases hok ⟨rfl, _, _, hentry'⟩ with ⟨-, htext⟩ | ⟨hbuffer, -⟩
      · have hkept := hmem _ fun hbuf => hplaced.textApart _ _ hentry' hbuf _ hstart
        exact (h.active hactive).first ((htext _ hstart).symm.trans (hkept.trans hjmp))
      · have hbuffer : (s.syms ()).addr ∈ k'.buffers := hbuffer
        rw [hbuffers] at hbuffer
        exact h.buffers _ hbuffer hstart

/-- **`symbol_restore` on an active structure** frees the copy, with `run` there.
Kind: L -/
theorem EntryInv.not_entryOk_restore (h : EntryInv orig symtab symbolName s)
    (hactive : (s.syms ()).hijacked = true) :
    ¬ EntryOk orig symtab symbolName
      ⟨(symbolRestore (s.syms ()) s.kernel).2,
        fun _ => (symbolRestore (s.syms ()) s.kernel).1⟩ := by
  have hcopy := h.active hactive
  obtain ⟨rest, hbuffers, hnotMem⟩ := hcopy.owned
  obtain ⟨hsym, hfreed⟩ := symbolRestore_of_active hactive s.kernel
  have hfreed := hfreed hcopy.ne_zero
  rw [hbuffers, List.erase_cons_head] at hfreed
  rw [hsym]
  intro hok
  rcases hok hcopy.found with ⟨hrun, -⟩ | ⟨hbuffer, -⟩
  · exact hcopy.ne_addr (hcopy.run.symm.trans hrun)
  · have hbuffer : (s.syms ()).run ∈ (symbolRestore (s.syms ()) s.kernel).2.buffers := hbuffer
    rw [hfreed, hcopy.run] at hbuffer
    exact hnotMem hbuffer

/-- **One call**: on an idle structure it keeps the invariant, on an active one it loses the
property.
Kind: L -/
theorem entryInv_step {c : HookCall Unit} (hwrap : NoWrap symtab symbolName)
    (h : EntryInv orig symtab symbolName s) (hadm : EntryAlloc symtab symbolName s c)
    (hstep : entryStep symtab symbolName s c = some s') :
    (Idle s c → EntryInv orig symtab symbolName s') ∧
      (EntryOk orig symtab symbolName s' → Idle s c) := by
  have hdisj : Apart symtab fun _ : Unit => symbolName := fun i j hij => absurd rfl hij
  have hsaved : SavedAll orig symtab (fun _ : Unit => symbolName) s' := by
    refine saved_step (fun _ => hwrap) hdisj h.saved ?_ hstep
    cases c with
    | hook i buf code => exact fun _ => BufferPlaced.textApart hadm
    | restore i => trivial
  cases c with
  | hook i buf code =>
      obtain ⟨⟨ret, sym', k'⟩, hrun, rfl⟩ := Option.map_eq_some_iff.1 hstep
      rw [update_unit] at hsaved ⊢
      refine ⟨fun hidle => h.hook hwrap hidle hadm hrun hsaved, fun hok => ?_⟩
      by_contra hactive
      exact h.not_entryOk_hook hwrap (by simpa [Idle] using hactive) hadm hrun hok
  | restore i =>
      obtain rfl := Option.some.inj hstep
      rw [update_unit] at hsaved ⊢
      refine ⟨fun hidle => ?_, fun hok => ?_⟩
      · have hidle : (s.syms ()).hijacked = false := hidle
        rw [symbolRestore_of_inactive hidle] at hsaved ⊢
        exact ⟨hsaved, h.buffers, h.idle,
          fun hactive => absurd (hidle.symm.trans hactive) (by decide)⟩
      · by_contra hactive
        exact h.not_entryOk_restore (by simpa [Idle] using hactive) hok

end Step

/-! ## The exact condition -/

/-- **The entry point is sound in every state of a run exactly when every call is made on an idle
structure.**
Source: `xt_TOGPU_hook.c` 203–213, 289–305; `xt_TOGPU_symbols.c` 70
Kind: C
Hyps: `hadm`, the contract of `module_alloc` -/
theorem entryOk_iff {symtab : SymTab} {symbolName : String} (hwrap : NoWrap symtab symbolName)
    {s s' : Hooks Unit} (hfound : (s.syms ()).found = false) (hidle : (s.syms ()).hijacked = false)
    (hbuffers : ∀ b ∈ s.kernel.buffers, b ∉ textOf symtab symbolName) {calls : List (HookCall Unit)}
    (hadm : Along (entryStep symtab symbolName) (EntryAlloc symtab symbolName) s calls)
    (hrun : exec (entryStep symtab symbolName) s calls = some s') :
    (∀ pre, pre <+: calls → ∀ t, exec (entryStep symtab symbolName) s pre = some t →
        EntryOk s.kernel.mem symtab symbolName t) ↔
      Along (entryStep symtab symbolName) Idle s calls := by
  have hstart : EntryInv s.kernel.mem symtab symbolName s := by
    refine ⟨fun _ => ⟨fun _ _ _ => rfl, fun hactive => ?_⟩, hbuffers, fun _ hf => ?_,
      fun hactive => ?_⟩
    · exact absurd (hidle.symm.trans hactive) (by decide)
    · exact absurd (hfound.symm.trans hf.1) (by decide)
    · exact absurd (hidle.symm.trans hactive) (by decide)
  exact forall_reached_iff_along_of_run (fun _ => EntryInv.entryOk)
    (fun _ _ _ h hadm hstep => entryInv_step hwrap h hadm hstep) hstart hadm hrun

/-! ## Hooking and restoring one function -/

/-- The kernel with `call 0x2000; ret` and a fresh structure.
Kind: D -/
def callHook : Hooks Unit := ⟨kernelWith callText, fun _ => freshSym⟩

/-- The buffer at `0x100000` is apart from this function.
Kind: L -/
theorem bufferPlaced_call : BufferPlaced twoSymbols 0x100000 "f" freshSym (kernelWith callText) :=
  fun _ _ => ⟨List.not_mem_nil, 8, placed_f callText (by decide)⟩

/-- After the first hook the entry point is the copy.
Kind: C -/
theorem entryOk_hooked :
    ∃ s, exec (entryStep twoSymbols "f") callHook [.hook () 0x100000 0x500000] = some s ∧
      (s.syms ()).run = 0x100000 ∧ EntryOk callText twoSymbols "f" s := by
  have hcalls : (exec (entryStep twoSymbols "f") callHook [.hook () 0x100000 0x500000]).map
      (fun s => (s.syms ()).run) = some 0x100000 := by
    decide +kernel
  obtain ⟨s, hrun, hentry⟩ := Option.map_eq_some_iff.1 hcalls
  have hadm : Along (entryStep twoSymbols "f") (EntryAlloc twoSymbols "f") callHook
      [.hook () 0x100000 0x500000] := ⟨bufferPlaced_call, fun _ _ => trivial⟩
  have hall := (entryOk_iff noWrap_f rfl rfl (fun _ hb => absurd hb List.not_mem_nil) hadm hrun).2
    ⟨rfl, fun _ _ => trivial⟩
  exact ⟨s, hrun, hentry, hall _ List.prefix_rfl s hrun⟩

/-- After `symbol_restore` it is the buffer that has been freed.
Kind: C -/
theorem restore_leaves_run :
    ∃ s, exec (entryStep twoSymbols "f") callHook
        [.hook () 0x100000 0x500000, .restore ()] = some s ∧
      Along (entryStep twoSymbols "f") (EntryAlloc twoSymbols "f") callHook
        [.hook () 0x100000 0x500000, .restore ()] ∧
      (s.syms ()).run = 0x100000 ∧ s.kernel.buffers = [] ∧ ¬ EntryOk callText twoSymbols "f" s := by
  have hcalls : (exec (entryStep twoSymbols "f") callHook
      [.hook () 0x100000 0x500000, .restore ()]).map
        (fun s => ((s.syms ()).found, (s.syms ()).run, (s.syms ()).addr, s.kernel.buffers)) =
      some (true, 0x100000, 0x1000, []) := by
    decide +kernel
  obtain ⟨s, hrun, hsum⟩ := Option.map_eq_some_iff.1 hcalls
  simp only [Prod.mk.injEq] at hsum
  obtain ⟨hfound, hentry, haddr, hbuffers⟩ := hsum
  refine ⟨s, hrun, ⟨bufferPlaced_call, fun _ _ => ⟨trivial, fun _ _ => trivial⟩⟩, hentry, hbuffers,
    ?_⟩
  intro hok
  rcases hok ⟨hfound, _, _, symbolEntry_f⟩ with ⟨hfun, -⟩ | ⟨hbuffer, -⟩
  · rw [hentry, haddr] at hfun
    exact absurd hfun (by decide)
  · rw [hbuffers] at hbuffer
    exact absurd hbuffer List.not_mem_nil

end Togpu.Hook
