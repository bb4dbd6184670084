import Togpu.Hook.Extent

/-!
# From addresses back to symbols

`find_address_symbol` is the counterpart of `find_symbol_address`: it waits for an address in the
symbol table, copies the name it finds there, and takes the entry after it as the end.

* `findAddressSymbol` — the lookup, with the same two-phase callback.
* `addressEntry` — the first entry at an address, and the one visited after it.
* What the lookup does, in every case (`findAddressSymbol_eq`).
* **It undoes the lookup of a name exactly if no earlier symbol has the same address**
  (`address_inverts_name_iff`): before an alias it finds another name, and a size of its own.
-/

namespace Togpu.Hook

open Togpu.Driver

/-! ## The lookup -/

/-- `find_address_callback`. The allocation of the name is taken to succeed.
Source: `xt_TOGPU_symbols.c` 75–92
Kind: D -/
def findAddressCallback (sym : KernSym) (name : String) (addr : Addr) : ℤ × KernSym :=
  if sym.found then (1, { sym with endAddr := addr })
  else if addr ≠ 0 ∧ sym.addr = addr then
    (0, { sym with name := some name, nameAlloc := true, found := true })
  else (0, sym)

/-- `find_address_symbol`.
Source: `xt_TOGPU_symbols.c` 94–112
Kind: D -/
def findAddressSymbol (symtab : SymTab) (sym : KernSym) (addr : Addr) : ℤ × KernSym :=
  let start := { sym with found := false, addr := addr }
  let r := kallsymsOnEachSymbol findAddressCallback symtab start
  if r.1 = 0 then (-eFault, r.2)
  else
    let size := r.2.endAddr - r.2.addr
    (0, { r.2 with size := size, newSize := size, run := r.2.addr })

/-- The name of the first entry at a nonzero address, and the address of the entry after it.
Kind: D -/
def addressEntry (addr : Addr) : SymTab → Option (String × Option Addr)
  | [] => none
  | (name, a) :: rest =>
      if a ≠ 0 ∧ addr = a then some (name, (rest.head?).map Prod.snd) else addressEntry addr rest

/-- The structure after a lookup that has passed the address.
Kind: D -/
def KernSym.named (sym : KernSym) (name : String) : KernSym :=
  { sym with name := some name, nameAlloc := true, found := true }

section Lookup

variable {symtab : SymTab} {sym : KernSym} {addr : Addr}

/-- The second phase takes the next entry.
Kind: L -/
theorem onEachSymbol_of_found (hfound : sym.found = true) (symtab : SymTab) :
    kallsymsOnEachSymbol findAddressCallback symtab sym =
      match symtab.head?.map Prod.snd with
      | none => (0, sym)
      | some endAddr => (1, { sym with endAddr := endAddr }) := by
  cases symtab with
  | nil => rfl
  | cons e rest => simp [kallsymsOnEachSymbol, findAddressCallback, hfound]

/-- The first phase waits for the address.
Kind: L -/
theorem onEachSymbol_of_not_found (hfound : sym.found = false) (symtab : SymTab) :
    kallsymsOnEachSymbol findAddressCallback symtab sym =
      match addressEntry sym.addr symtab with
      | none => (0, sym)
      | some (name, none) => (0, sym.named name)
      | some (name, some endAddr) => (1, { sym.named name with endAddr := endAddr }) := by
  induction symtab with
  | nil => rfl
  | cons e rest ih =>
      obtain ⟨name, a⟩ := e
      by_cases hmatch : a ≠ 0 ∧ sym.addr = a
      · have hfirst : findAddressCallback sym name a = (0, sym.named name) := by
          rw [findAddressCallback, hfound, if_neg Bool.false_ne_true, if_pos hmatch]
          rfl
        rw [kallsymsOnEachSymbol, hfirst, addressEntry, if_pos hmatch]
        simp only [ne_eq, not_true_eq_false, if_false]
        rw [onEachSymbol_of_found rfl]
        cases rest.head?.map Prod.snd <;> rfl
      · have hskip : findAddressCallback sym name a = (0, sym) := by
          rw [findAddressCallback, hfound, if_neg Bool.false_ne_true, if_neg hmatch]
        rw [kallsymsOnEachSymbol, hskip, addressEntry, if_neg hmatch]
        simp only [ne_eq, not_true_eq_false, if_false]
        exact ih

/-- **What `find_address_symbol` does**: it fails when the address or an entry after it is missing,
and else takes the name at the address, and the next entry as its end.
Kind: P -/
theorem findAddressSymbol_eq (symtab : SymTab) (sym : KernSym) (addr : Addr) :
    findAddressSymbol symtab sym addr =
      match addressEntry addr symtab with
      | none => (-eFault, { sym with found := false, addr := addr })
      | some (name, none) => (-eFault, { sym.named name with addr := addr })
      | some (name, some endAddr) =>
          (0, { sym.named name with
            addr := addr, endAddr := endAddr, size := endAddr - addr, newSize := endAddr - addr
            run := addr }) := by
  have hsearch := onEachSymbol_of_not_found
    (show { sym with found := false, addr := addr }.found = false from rfl) symtab
  unfold findAddressSymbol
  dsimp only
  rw [hsearch]
  dsimp only
  rcases addressEntry addr symtab with _ | ⟨name, _ | endAddr⟩
  · rfl
  · rfl
  · rfl

end Lookup

/-! ## Round trip -/

/-- The null address is not looked for.
Source: `xt_TOGPU_symbols.c` 84
Kind: L -/
theorem addressEntry_zero (symtab : SymTab) : addressEntry 0 symtab = none := by
  induction symtab with
  | nil => rfl
  | cons e rest ih =>
      obtain ⟨name, a⟩ := e
      rw [addressEntry, if_neg fun h => h.1 h.2.symm]
      exact ih

/-- The two lookups stop at the same entry exactly if the first entry at the symbol's address is the
first with its name.
Kind: L -/
theorem addressEntry_eq_iff {symtab : SymTab} {symbolName : String} {addr : Addr}
    {next : Option Addr} (h : symbolEntry symbolName symtab = some (addr, next)) :
    addressEntry addr symtab = some (symbolName, next) ↔
      addr ≠ 0 ∧
        symtab.find? (fun e => e.2 = addr) = symtab.find? fun e => e.1 = symbolName := by
  by_cases hzero : addr = 0
  · rw [hzero, addressEntry_zero]
    exact iff_of_false (by simp) fun hc => hc.1 rfl
  rw [and_iff_right hzero]
  induction symtab with
  | nil => cases h
  | cons e rest ih =>
      obtain ⟨name, a⟩ := e
      rw [symbolEntry] at h
      rw [addressEntry]
      by_cases hname : name = symbolName
      · -- the symbol's own entry: the address cannot be passed
        rw [if_pos hname, Option.some.injEq, Prod.mk.injEq] at h
        obtain ⟨rfl, rfl⟩ := h
        rw [if_pos ⟨hzero, rfl⟩, List.find?_cons_of_pos (by simp),
          List.find?_cons_of_pos (by simpa using hname), hname]
        exact iff_of_true rfl rfl
      · rw [if_neg hname] at h
        have hskip : ((name, a) :: rest).find? (fun e => e.1 = symbolName) =
            rest.find? fun e => e.1 = symbolName := List.find?_cons_of_neg (by simpa using hname)
        rw [hskip]
        by_cases haddr : addr = a
        · -- an earlier symbol at the same address
          subst haddr
          rw [if_pos ⟨hzero, rfl⟩, List.find?_cons_of_pos (by simp)]
          refine iff_of_false ?_ ?_
          · rw [Option.some.injEq, Prod.mk.injEq]
            exact fun hc => hname hc.1
          · intro hc
            have hfst := List.find?_some hc.symm
            exact hname (by simpa using hfst)
        · rw [if_neg fun hc => haddr hc.2, List.find?_cons_of_neg (by simpa using Ne.symm haddr)]
          exact ih h

/-- **`find_address_symbol` undoes `find_symbol_address` exactly if no earlier symbol has the same
address.** After a successful lookup of a name, whatever structure it is given, the lookup of the
address found gives the same name and extent if and only if the address is not null and the first
entry at it is the first entry with the name.
Source: `xt_TOGPU_symbols.c` 36–112
Kind: P
Fidelity: exact
Hyps: (a) the lookup of the name succeeds -/
theorem address_inverts_name_iff {symtab : SymTab} {sym s : KernSym} {symbolName : String}
    (h : findSymbolAddress symtab sym symbolName = (0, s)) (sym' : KernSym) :
    (∃ s', findAddressSymbol symtab sym' s.addr = (0, s') ∧ s'.name = s.name ∧
        s'.endAddr = s.endAddr ∧ s'.size = s.size ∧ s'.run = s.run) ↔
      s.addr ≠ 0 ∧
        symtab.find? (fun e => e.2 = s.addr) = symtab.find? fun e => e.1 = symbolName := by
  rw [findSymbolAddress_eq] at h
  rcases hentry : symbolEntry symbolName symtab with _ | ⟨addr, _ | endAddr⟩
  · rw [hentry] at h
    exact absurd (congrArg Prod.fst h) (by simp [eFault])
  · rw [hentry] at h
    exact absurd (congrArg Prod.fst h) (by simp [eFault])
  · rw [hentry] at h
    obtain rfl : sym.located symbolName addr endAddr = s := congrArg Prod.snd h
    have haddr : (sym.located symbolName addr endAddr).addr = addr := rfl
    rw [haddr, ← addressEntry_eq_iff hentry, findAddressSymbol_eq]
    rcases addressEntry addr symtab with _ | ⟨name, _ | endAddr'⟩
    · exact iff_of_false (fun ⟨_, hs', _⟩ => absurd (congrArg Prod.fst hs') (by simp [eFault]))
        (by simp)
    · exact iff_of_false (fun ⟨_, hs', _⟩ => absurd (congrArg Prod.fst hs') (by simp [eFault]))
        (by simp)
    · constructor
      · rintro ⟨s', hs', hname, hend, -⟩
        obtain rfl := congrArg Prod.snd hs'
        obtain rfl : name = symbolName := Option.some.inj hname
        obtain rfl : endAddr' = endAddr := hend
        rfl
      · intro heq
        rw [Option.some.injEq, Prod.mk.injEq, Option.some.injEq] at heq
        obtain ⟨rfl, rfl⟩ := heq
        exact ⟨_, rfl, rfl, rfl, rfl, rfl⟩

/-- The structure before any lookup.
Kind: D -/
def blankSym : KernSym := ⟨0, 0, 0, none, false, fun _ => 0, 0, 0, false, false, 0⟩

/-- The function is found back by its address under its first name, and not under its second.
Kind: C -/
theorem address_inverts_name_f_alias :
    (∃ s', findAddressSymbol aliasTable blankSym 0x1000 = (0, s') ∧ s'.name = some "f") ∧
      ¬∃ s', findAddressSymbol aliasTable blankSym 0x1000 = (0, s') ∧
        s'.name = some "f_alias" ∧ s'.endAddr = 0x1008 ∧ s'.size = 8 ∧ s'.run = 0x1000 := by
  have hf : findSymbolAddress aliasTable blankSym "f" =
      (0, blankSym.located "f" 0x1000 0x1000) := findSymbolAddress_of_entry (by decide)
  have hg : findSymbolAddress aliasTable blankSym "f_alias" =
      (0, blankSym.located "f_alias" 0x1000 0x1008) := findSymbolAddress_of_entry (by decide)
  constructor
  · obtain ⟨s', hs', hname, -⟩ := (address_inverts_name_iff hf blankSym).mpr
      ⟨by decide, by decide⟩
    exact ⟨s', hs', hname⟩
  · intro hc
    exact absurd ((address_inverts_name_iff hg blankSym).mp hc).2 (by decide)

end Togpu.Hook
