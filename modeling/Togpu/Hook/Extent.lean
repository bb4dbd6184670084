import Togpu.Hook.SymbolHook

/-!
# The extent of a symbol

`find_symbol_address` takes a function's size from the symbol table: the callback first waits for
the name, then takes whatever entry comes next as the end.

* `symbolEntry` — the first entry with a name, and the one visited after it.
* **The lookup** (`findSymbolAddress_eq`) is decided by these two, whatever the structure held
  before.
* `ExtentRight` — the function's size is the distance to the least greater address in the table.
* **When it holds** (`extentRight_iff`): exactly when the entry after the function's is not an
  alias, a second name at the function's own address.
-/

namespace Togpu.Hook

open Togpu.Driver

/-! ## The lookup -/

/-- The address of the first entry with the name, and that of the entry after it.
Kind: D -/
def symbolEntry (symbolName : String) : SymTab → Option (Addr × Option Addr)
  | [] => none
  | (name, addr) :: rest =>
      if name = symbolName then some (addr, (rest.head?).map Prod.snd)
      else symbolEntry symbolName rest

/-- The structure after a lookup that has passed the symbol at `addr`.
Kind: D -/
def KernSym.passed (sym : KernSym) (symbolName : String) (addr : Addr) : KernSym :=
  { sym with name := some symbolName, addr := addr, found := true }

/-- The structure after a lookup that found the symbol from `addr` to `endAddr`.
Kind: D -/
def KernSym.located (sym : KernSym) (symbolName : String) (addr endAddr : Addr) : KernSym :=
  { sym.passed symbolName addr with
    endAddr := endAddr, size := endAddr - addr, newSize := endAddr - addr, run := addr }

section Lookup

variable {symtab : SymTab} {sym : KernSym} {symbolName : String}

/-- The second phase takes the next entry.
Kind: L -/
theorem kallsymsOnEachSymbol_of_found (hfound : sym.found = true) (symtab : SymTab) :
    kallsymsOnEachSymbol findSymbolCallback symtab sym =
      match symtab.head?.map Prod.snd with
      | none => (0, sym)
      | some endAddr => (1, { sym with endAddr := endAddr }) := by
  cases symtab with
  | nil => rfl
  | cons e rest => simp [kallsymsOnEachSymbol, findSymbolCallback, hfound]

/-- The first phase waits for the name.
Kind: L -/
theorem kallsymsOnEachSymbol_of_not_found (hfound : sym.found = false)
    (hname : sym.name = some symbolName) (symtab : SymTab) :
    kallsymsOnEachSymbol findSymbolCallback symtab sym =
      match symbolEntry symbolName symtab with
      | none => (0, sym)
      | some (addr, none) => (0, sym.passed symbolName addr)
      | some (addr, some endAddr) =>
          (1, { sym.passed symbolName addr with endAddr := endAddr }) := by
  induction symtab with
  | nil => rfl
  | cons e rest ih =>
      obtain ⟨name, addr⟩ := e
      by_cases hmatch : name = symbolName
      · have hfirst : findSymbolCallback sym name addr = (0, sym.passed symbolName addr) := by
          simp [findSymbolCallback, hfound, hname, hmatch, KernSym.passed]
        rw [kallsymsOnEachSymbol, hfirst, symbolEntry, if_pos hmatch]
        simp only [ne_eq, not_true_eq_false, if_false]
        rw [kallsymsOnEachSymbol_of_found rfl]
        cases rest.head?.map Prod.snd <;> rfl
      · have hskip : findSymbolCallback sym name addr = (0, sym) := by
          have hne : ¬ sym.name = some name := by
            rw [hname, Option.some.injEq]
            exact fun heq => hmatch heq.symm
          simp [findSymbolCallback, hfound, hne]
        rw [kallsymsOnEachSymbol, hskip, symbolEntry, if_neg hmatch]
        simp only [ne_eq, not_true_eq_false, if_false]
        exact ih

/-- **What `find_symbol_address` does**: it fails when the name or an entry after it is missing, and
else takes the function from one entry to the next.
Kind: P -/
theorem findSymbolAddress_eq (symtab : SymTab) (sym : KernSym) (symbolName : String) :
    findSymbolAddress symtab sym symbolName =
      match symbolEntry symbolName symtab with
      | none => (-eFault, { sym with name := some symbolName, found := false })
      | some (addr, none) => (-eFault, sym.passed symbolName addr)
      | some (addr, some endAddr) => (0, sym.located symbolName addr endAddr) := by
  have hsearch := kallsymsOnEachSymbol_of_not_found
    (show { sym with name := some symbolName, found := false }.found = false from rfl) rfl symtab
  unfold findSymbolAddress
  dsimp only
  rw [hsearch]
  rcases symbolEntry symbolName symtab with _ | ⟨addr, _ | endAddr⟩
  · rfl
  · rfl
  · rfl

/-- A lookup that succeeds.
Kind: L -/
theorem findSymbolAddress_of_entry {addr endAddr : Addr}
    (hentry : symbolEntry symbolName symtab = some (addr, some endAddr)) :
    findSymbolAddress symtab sym symbolName = (0, sym.located symbolName addr endAddr) := by
  rw [findSymbolAddress_eq, hentry]

/-- A lookup that fails keeps all but the name, the flag and the address.
Kind: L -/
theorem findSymbolAddress_of_no_entry (sym : KernSym)
    (hentry : ∀ addr endAddr, symbolEntry symbolName symtab ≠ some (addr, some endAddr)) :
    ∃ addr found, findSymbolAddress symtab sym symbolName =
      (-eFault, { sym with name := some symbolName, addr := addr, found := found }) := by
  rw [findSymbolAddress_eq]
  rcases hlast : symbolEntry symbolName symtab with _ | ⟨addr, _ | endAddr⟩
  · exact ⟨sym.addr, false, rfl⟩
  · exact ⟨addr, true, rfl⟩
  · exact absurd hlast (hentry addr endAddr)

end Lookup

/-! ## The extent -/

/-- The least address of the table above `addr`.
Kind: D -/
def NextAbove (symtab : SymTab) (addr endAddr : Addr) : Prop :=
  (∃ e ∈ symtab, e.2 = endAddr) ∧ addr < endAddr ∧ ∀ e ∈ symtab, addr < e.2 → endAddr ≤ e.2

/-- The symbol starts at the first entry with its name, and the table has a greater address.
Kind: D -/
def Extends (symtab : SymTab) (symbolName : String) (addr endAddr : Addr) : Prop :=
  (∃ e, symtab.find? (fun e => e.1 = symbolName) = some e ∧ e.2 = addr) ∧
    NextAbove symtab addr endAddr

/-- The lookup gives the symbol's extent, or an error where it has none.
Kind: D -/
def ExtentRight (symtab : SymTab) (symbolName : String) (sym : KernSym) : Prop :=
  let r := findSymbolAddress symtab sym symbolName
  (r.1 = 0 → ∃ endAddr, Extends symtab symbolName r.2.addr endAddr ∧
      r.2.size = endAddr - r.2.addr) ∧
    ((¬ ∃ addr endAddr, Extends symtab symbolName addr endAddr) → r.1 < 0)

/-- The table is in address order.
Kind: D -/
def InOrder (symtab : SymTab) : Prop := symtab.Pairwise fun e f => e.2 ≤ f.2

/-- The entry visited after the symbol's is not at the symbol's own address.
Kind: D -/
def NoAliasAfter (symtab : SymTab) (symbolName : String) : Prop :=
  ∀ addr endAddr, symbolEntry symbolName symtab = some (addr, some endAddr) → endAddr ≠ addr

section Extent

variable {symtab : SymTab} {symbolName : String} {addr endAddr : Addr}

/-- Where the symbol's entry stands in the table.
Kind: L -/
theorem exists_split_of_symbolEntry
    (h : symbolEntry symbolName symtab = some (addr, some endAddr)) :
    symtab.find? (fun e => e.1 = symbolName) = some (symbolName, addr) ∧
      ∃ pre name post, symtab = pre ++ (symbolName, addr) :: (name, endAddr) :: post := by
  induction symtab with
  | nil => exact absurd h nofun
  | cons e rest ih =>
      obtain ⟨name, a⟩ := e
      rw [symbolEntry] at h
      split_ifs at h with hmatch
      · rw [Option.some.injEq, Prod.mk.injEq, Option.map_eq_some_iff] at h
        obtain ⟨rfl, ⟨name', b⟩, hhead, rfl⟩ := h
        obtain ⟨post, rfl⟩ := List.head?_eq_some_iff.1 hhead
        subst hmatch
        exact ⟨List.find?_cons_of_pos (by simp), [], name', post, rfl⟩
      · obtain ⟨hfind, pre, name', post, rfl⟩ := ih h
        refine ⟨?_, (name, a) :: pre, name', post, rfl⟩
        rw [List.find?_cons_of_neg (by simpa using hmatch)]
        exact hfind

/-- In an ordered table the next entry is the least greater address, unless it is an alias.
Kind: L -/
theorem nextAbove_of_split {pre post : SymTab} {e f : String × Addr}
    (horder : InOrder (pre ++ e :: f :: post)) (hne : f.2 ≠ e.2) :
    NextAbove (pre ++ e :: f :: post) e.2 f.2 := by
  obtain ⟨-, hrest, hbefore⟩ := List.pairwise_append.1 horder
  rw [List.pairwise_cons, List.pairwise_cons] at hrest
  obtain ⟨hafter, hpost, -⟩ := hrest
  have hle : e.2 ≤ f.2 := hafter f List.mem_cons_self
  have hlt : e.2 < f.2 := BitVec.lt_of_le_ne hle hne.symm
  refine ⟨⟨f, by simp, rfl⟩, hlt, fun g hg habove => ?_⟩
  rw [List.mem_append, List.mem_cons, List.mem_cons] at hg
  rcases hg with hg | rfl | rfl | hg
  · exact absurd habove (BitVec.not_lt.2 (hbefore g hg e List.mem_cons_self))
  · exact absurd habove (BitVec.lt_irrefl _)
  · exact BitVec.le_refl _
  · exact hpost g hg

/-- A greater address is not at distance zero.
Kind: L -/
theorem NextAbove.sub_ne_zero (h : NextAbove symtab addr endAddr) : endAddr - addr ≠ 0 := by
  obtain ⟨-, hlt, -⟩ := h
  intro hzero
  rw [sub_eq_zero.1 hzero] at hlt
  exact BitVec.lt_irrefl _ hlt

/-- **The extent is right exactly when the next entry is no alias.**
Kind: C -/
theorem extentRight_iff (horder : InOrder symtab) (sym : KernSym) :
    ExtentRight symtab symbolName sym ↔ NoAliasAfter symtab symbolName := by
  have hneg : -eFault < 0 := by decide
  have hzero : -eFault ≠ 0 := by decide
  unfold ExtentRight NoAliasAfter
  rw [findSymbolAddress_eq]
  rcases hentry : symbolEntry symbolName symtab with _ | ⟨addr, _ | endAddr⟩
  · exact iff_of_true ⟨fun h => absurd h hzero, fun _ => hneg⟩ nofun
  · exact iff_of_true ⟨fun h => absurd h hzero, fun _ => hneg⟩ nofun
  obtain ⟨hfind, pre, name, post, hsplit⟩ := exists_split_of_symbolEntry hentry
  constructor
  · rintro ⟨hright, -⟩ a b heq halias
    obtain ⟨stop, ⟨-, habove⟩, hsize⟩ := hright rfl
    rw [Option.some.injEq, Prod.mk.injEq, Option.some.injEq] at heq
    obtain ⟨rfl, rfl⟩ := heq
    -- the size is zero, and the distance to a greater address is not
    have hsize : endAddr - addr = stop - addr := hsize
    rw [halias, sub_self] at hsize
    exact habove.sub_ne_zero hsize.symm
  · intro hnext
    have habove : NextAbove symtab addr endAddr := by
      rw [hsplit] at horder ⊢
      exact nextAbove_of_split horder (hnext addr endAddr rfl)
    refine ⟨fun _ => ⟨endAddr, ⟨⟨_, hfind, rfl⟩, habove⟩, rfl⟩, fun hnone => ?_⟩
    exact absurd ⟨addr, endAddr, ⟨_, hfind, rfl⟩, habove⟩ hnone

end Extent

/-- A function with a second name at its address.
Kind: D -/
def aliasTable : SymTab := [("f", 0x1000), ("f_alias", 0x1000), ("g", 0x1008)]

/-- Its entries are in order.
Kind: L -/
theorem inOrder_aliasTable : InOrder aliasTable := by
  unfold InOrder
  decide

/-- By its second name the function is found with its size, whatever the structure held.
Kind: C -/
theorem extentRight_f_alias :
    InOrder aliasTable ∧ ∀ sym, ExtentRight aliasTable "f_alias" sym := by
  have hnext : NoAliasAfter aliasTable "f_alias" := by
    intro addr endAddr h
    have hentry : symbolEntry "f_alias" aliasTable = some (0x1000, some 0x1008) := by decide
    rw [hentry, Option.some.injEq, Prod.mk.injEq, Option.some.injEq] at h
    rw [← h.1, ← h.2]
    decide
  exact ⟨inOrder_aliasTable, fun sym => (extentRight_iff inOrder_aliasTable sym).2 hnext⟩

/-- By its first name it is found, and its size is zero.
Kind: C -/
theorem not_extentRight_f :
    InOrder aliasTable ∧ ∀ sym, ¬ ExtentRight aliasTable "f" sym := by
  refine ⟨inOrder_aliasTable, fun sym hright => ?_⟩
  have hlookup : findSymbolAddress aliasTable sym "f" = (0, sym.located "f" 0x1000 0x1000) :=
    findSymbolAddress_eq aliasTable sym "f"
  unfold ExtentRight at hright
  rw [hlookup] at hright
  obtain ⟨stop, ⟨-, habove⟩, hsize⟩ := hright.1 rfl
  exact habove.sub_ne_zero hsize.symm

end Togpu.Hook
