import Togpu.Driver.Types
import Togpu.Lib.Bytes
import Togpu.Insn.Offset

/-!
# Hooking a kernel function

`symbol_hook` finds a function of the running kernel, copies it instruction by instruction into a
buffer, and overwrites its first five bytes with a jump to the hook. The copy is what the hook calls
to run the original.

* `findSymbolAddress` — the lookup, a traversal of the symbol table with a two-phase callback.
* `copyAndFixupInsn` — one instruction into the buffer, its offset adjusted.
* `copyLoop` — the loop over the function; `none` when it does not end.
* `symbolHook`, `symbolRestore` — the operations.

The kernel state is its memory, the write-enable bit of each page and the buffers handed out by
`module_alloc`. A store goes through whatever the page's bit says: what the code does about the bits
is modelled, a fault on a read-only page is not.
-/

namespace Togpu.Hook

open Togpu.Driver Togpu.Lib Togpu.X86

/-! ## Data -/

/-- `EFAULT`. -/
def eFault : ℤ := 14

/-- `ENOMEM`. -/
def eNomem : ℤ := 12

/-- `EILSEQ`. -/
def eIlseq : ℤ := 84

/-- `OP_JMP_REL32`. Source: `xt_TOGPU_hook.c` 30 -/
def opJmpRel32 : BitVec 8 := 0xe9

/-- `OP_JMP_SIZE`. Source: `xt_TOGPU.h` 42 -/
def opJmpSize : ℕ := 5

/-- `struct kernsym`.
Source: `xt_TOGPU.h` 60–73
Kind: D -/
structure KernSym where
  /-- The function's address. -/
  addr : Addr
  /-- The address of the next symbol. -/
  endAddr : Addr
  /-- The distance between the two. -/
  size : BitVec 64
  /-- The name looked for; `none` is the null pointer. -/
  name : Option String
  /-- The name was allocated by `find_address_symbol`. -/
  nameAlloc : Bool
  /-- The bytes the jump replaced. -/
  origStartBytes : Fin 5 → BitVec 8
  /-- The buffer with the copy. -/
  newAddr : Addr
  /-- The bytes of the buffer in use. -/
  newSize : BitVec 64
  /-- The lookup has passed the symbol. -/
  found : Bool
  /-- The jump is in place. -/
  hijacked : Bool
  /-- Where to call the original. -/
  run : Addr

/-- The part of the kernel that hooking reads and writes.
Kind: D -/
structure Kernel where
  /-- Memory, text included. -/
  mem : Addr → BitVec 8
  /-- `_PAGE_RW` of each page, by page number. -/
  rw : Addr → Bool
  /-- The buffers `module_alloc` has handed out. -/
  buffers : List Addr

/-- The symbol table, in the order `kallsyms_on_each_symbol` visits it.
Kind: D -/
abbrev SymTab := List (String × Addr)

/-! ## Lookup -/

/-- `kallsyms_on_each_symbol`: visit the symbols in order until the callback returns nonzero.
Kind: D -/
def kallsymsOnEachSymbol {σ : Type*} (fn : σ → String → Addr → ℤ × σ) : SymTab → σ → ℤ × σ
  | [], data => (0, data)
  | (name, addr) :: rest, data =>
      let r := fn data name addr
      if r.1 ≠ 0 then r else kallsymsOnEachSymbol fn rest r.2

/-- `find_symbol_callback`.
Source: `xt_TOGPU_symbols.c` 36–51
Kind: D -/
def findSymbolCallback (sym : KernSym) (name : String) (addr : Addr) : ℤ × KernSym :=
  if sym.found then (1, { sym with endAddr := addr })
  else if sym.name = some name then (0, { sym with addr := addr, found := true })
  else (0, sym)

/-- `find_symbol_address`. The pointers are `void *`, so the size is in bytes.
Source: `xt_TOGPU_symbols.c` 55–73
Kind: D -/
def findSymbolAddress (symtab : SymTab) (sym : KernSym) (symbolName : String) : ℤ × KernSym :=
  let start := { sym with name := some symbolName, found := false }
  let r := kallsymsOnEachSymbol findSymbolCallback symtab start
  if r.1 = 0 then (-eFault, r.2)
  else
    let size := r.2.endAddr - r.2.addr
    (0, { r.2 with size := size, newSize := size, run := r.2.addr })

/-! ## Page protection and buffers -/

/-- The page of an address.
Kind: D -/
def pageOf (addr : Addr) : Addr := addr >>> 12

/-- `set_addr_rw`: make the page of `addr` writable; the flag says that it was not.
Source: `xt_TOGPU_hook.c` 138–164
Kind: D -/
def setAddrRw (k : Kernel) (addr : Addr) : Bool × Kernel :=
  (!k.rw (pageOf addr), { k with rw := Function.update k.rw (pageOf addr) true })

/-- `set_addr_ro`: back to read-only if it was.
Source: `xt_TOGPU_hook.c` 166–191
Kind: D -/
def setAddrRo (k : Kernel) (addr : Addr) (flag : Bool) : Kernel :=
  if flag then { k with rw := Function.update k.rw (pageOf addr) false } else k

/-- `malloc_free`.
Source: `xt_TOGPU_hook.c` 334–339
Kind: D -/
def mallocFree (k : Kernel) (buf : Addr) : Kernel :=
  if buf ≠ 0 then { k with buffers := k.buffers.erase buf } else k

/-! ## Relocating one instruction -/

/-- `CODE_OFFSET_FROM_ADDR`.
Source: `xt_TOGPU_hook.c` 41–42
Kind: D -/
def codeOffsetFromAddr (insnAddr : Addr) (insnLen : BitVec 64) (destAddr : Addr) : BitVec 32 :=
  (destAddr - (insnAddr + insnLen)).setWidth 32

/-- The test of `copy_and_fixup_insn` for an address inside the function.
Source: `xt_TOGPU_hook.c` 69–70, 87–88
Kind: D -/
def KernSym.inside (func : KernSym) (addr : Addr) : Prop :=
  func.addr ≤ addr ∧ addr < func.addr + func.size

instance (func : KernSym) (addr : Addr) : Decidable (func.inside addr) :=
  inferInstanceAs (Decidable (_ ∧ _))

/-- Adjust the offset field at `field` of the copy at `dest`, unless the target is in the function.
Source: `xt_TOGPU_hook.c` 63–77, 82–94
Kind: D -/
def fixupOffset (mem : Addr → BitVec 8) (insn : Insn) (kaddr dest : Addr) (func : KernSym)
    (value : BitVec 32) (field : ℕ) : Addr → BitVec 8 :=
  let addr := codeAddrFromOffset kaddr insn.length value
  if func.inside addr then mem
  else
    storeLE mem (dest + BitVec.ofNat 64 field) 4
      (codeOffsetFromAddr dest (insn.length.setWidth 64) addr).toNat

/-- `copy_and_fixup_insn`, for an instruction decoded at `kaddr`.
Source: `xt_TOGPU_hook.c` 50–98
Kind: D -/
def copyAndFixupInsn (mem : Addr → BitVec 8) (insn : Insn) (kaddr dest : Addr) (func : KernSym) :
    Addr → BitVec 8 :=
  let copied := memcpy mem dest kaddr insn.length.toNat
  if insn.opCallJmp then
    fixupOffset copied insn kaddr dest func insn.immediate.value insn.offsetImmediate
  else if insn.ripRelative then
    fixupOffset copied insn kaddr dest func insn.displacement.value insn.offsetDisplacement
  else copied

/-! ## Relocating a function -/

/-- The instruction at an address of memory.
Kind: D -/
def decodeAt (mem : Addr → BitVec 8) (kaddr : Addr) : Option Insn :=
  insnGetLength fun j => mem (kaddr + BitVec.ofNat 64 j)

/-- The variables of the copy loop.
Kind: D -/
structure CopyState where
  /-- Memory. -/
  mem : Addr → BitVec 8
  /-- `orig_addr`. -/
  orig : Addr
  /-- `dest_addr`. -/
  dest : Addr

/-- How the copy loop ends.
Kind: D -/
inductive CopyResult where
  /-- It has passed the end of the function. -/
  | done (s : CopyState)
  /-- An instruction of length zero. -/
  | undecodable (s : CopyState)

/-- One instruction of the copy loop.
Source: `xt_TOGPU_hook.c` 258–261
Kind: D -/
def CopyState.next (s : CopyState) (func : KernSym) (insn : Insn) : CopyState where
  mem := copyAndFixupInsn s.mem insn s.orig s.dest func
  orig := s.orig + insn.length.setWidth 64
  dest := s.dest + insn.length.setWidth 64

/-- The copy loop. Every round moves `orig_addr` on, so as many rounds as the function has bytes are
enough (`copyLoop_spec`); `none` when the decoder does not return.
Source: `xt_TOGPU_hook.c` 245–262
Kind: D -/
def copyLoop (func : KernSym) (endAddr : Addr) : ℕ → CopyState → Option CopyResult
  | 0, s => if s.orig < endAddr then none else some (.done s)
  | fuel + 1, s =>
      if s.orig < endAddr then
        match decodeAt s.mem s.orig with
        | none => none
        | some insn =>
            if insn.length = 0 then some (.undecodable s)
            else copyLoop func endAddr fuel (s.next func insn)
      else some (.done s)

/-- The end of the function without trailing zeros.
Source: `xt_TOGPU_hook.c` 233–234
Kind: D -/
def trimEnd (mem : Addr → BitVec 8) (origAddr : Addr) : ℕ → Addr → Addr
  | 0, endAddr => endAddr
  | n + 1, endAddr =>
      if origAddr < endAddr ∧ mem (endAddr - 1) = 0 then trimEnd mem origAddr n (endAddr - 1)
      else endAddr

/-- `end_addr` when the copy starts.
Source: `xt_TOGPU_hook.c` 229–234
Kind: D -/
def bodyEnd (mem : Addr → BitVec 8) (sym : KernSym) : Addr :=
  trimEnd mem sym.addr sym.size.toNat (sym.addr + sym.size)

/-! ## The operations -/

/-- Overwrite the function's start with a jump to `code`, saving what was there.
Source: `xt_TOGPU_hook.c` 268–281
Kind: D -/
def patch (sym : KernSym) (code : Addr) (k : Kernel) : KernSym × Kernel :=
  let rw := setAddrRw k sym.addr
  let saved := fun j : Fin 5 => rw.2.mem (sym.addr + BitVec.ofNat 64 j.val)
  let jump := Function.update rw.2.mem sym.addr opJmpRel32
  let mem := storeLE jump (sym.addr + 1) 4
    (codeOffsetFromAddr sym.addr (BitVec.ofNat 64 opJmpSize) code).toNat
  ({ sym with origStartBytes := saved, hijacked := true },
    setAddrRo { rw.2 with mem := mem } sym.addr rw.1)

/-- `symbol_hook` from the check of the size on: the buffer `sym.newAddr` is allocated and zero.
Source: `xt_TOGPU_hook.c` 222–287
Kind: D -/
def hookBody (sym : KernSym) (code : Addr) (k : Kernel) : Option (ℤ × KernSym × Kernel) :=
  if sym.size.toNat < opJmpSize then some (-eFault, sym, mallocFree k sym.newAddr)
  else
    let endAddr := bodyEnd k.mem sym
    if sym.addr = endAddr then some (-eIlseq, sym, mallocFree k sym.newAddr)
    else
      match copyLoop sym endAddr sym.size.toNat ⟨k.mem, sym.addr, sym.newAddr⟩ with
      | none => none
      | some (.undecodable s) => some (-eIlseq, sym, mallocFree { k with mem := s.mem } sym.newAddr)
      | some (.done s) =>
          let copied := { sym with newSize := s.dest - sym.newAddr, run := sym.newAddr }
          let r := patch copied code { k with mem := s.mem }
          some (0, r.1, r.2)

/-- `symbol_hook`; `buf` is what `module_alloc` returns. `none` when it does not return.
Source: `xt_TOGPU_hook.c` 193–287
Kind: D -/
def symbolHook (symtab : SymTab) (buf : Addr) (symbolName : String) (code : Addr) (sym : KernSym)
    (k : Kernel) : Option (ℤ × KernSym × Kernel) :=
  let r := findSymbolAddress symtab sym symbolName
  if r.1 < 0 then some (r.1, r.2, k)
  else if k.mem r.2.addr = opJmpRel32 then some (-eFault, r.2, k)
  else
    let sym := { r.2 with newAddr := buf }
    if buf = 0 then some (-eNomem, sym, k)
    else
      hookBody sym code
        { k with mem := memset k.mem buf 0 sym.size.toNat, buffers := buf :: k.buffers }

/-- `symbol_restore`.
Source: `xt_TOGPU_hook.c` 289–313
Kind: D -/
def symbolRestore (sym : KernSym) (k : Kernel) : KernSym × Kernel :=
  let r :=
    if sym.hijacked then
      let rw := setAddrRw k sym.addr
      let mem := fun x =>
        if h : (x - sym.addr).toNat < opJmpSize then sym.origStartBytes ⟨(x - sym.addr).toNat, h⟩
        else rw.2.mem x
      let ro := setAddrRo { rw.2 with mem := mem } sym.addr rw.1
      ({ sym with hijacked := false }, mallocFree ro sym.newAddr)
    else (sym, k)
  ({ r.1 with nameAlloc := false }, r.2)

end Togpu.Hook
