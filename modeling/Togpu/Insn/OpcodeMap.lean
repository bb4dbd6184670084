import Togpu.Lib.OrWord
import Togpu.Lib.Numbering
import Togpu.Insn.Inat

/-!
# The generator of the attribute tables

`gen-insn-attr-x86.awk` reads `x86-opcode-map.txt` line by line and prints the C tables that the
decoder looks opcodes up in. It is a state machine with one rule for each kind of line.

* `Flag` — an attribute as the generator writes it. In the map a group and an escape have names; the
  generator replaces them by numbers, so `Flag` is over the names.
* `rule` — which rule a line triggers, with the fields the rule reads.
* `parseEntry` — the opcodes of a line, separated by `|`, each with its operands and superscripts.
* `Gen`, `Gen.step`, `generate` — the state of the generator, what a rule does, and a whole run.
* `Gen.output`, `Output.compile` — what is printed at the end, and what the C compiler makes of the
  output: arrays of attribute words, and arrays of pointers to them.

The text the generator prints is kept as its structure: a table is its name and the flags of its
cells. Comments it prints are left out.
-/

namespace Togpu.OpcodeMap

open Togpu.Lib
open Togpu.X86

/-! ## Flags -/

/-- The sizes of an immediate, `INAT_IMM_*`.
Source: `inat.h` 54–61
Kind: D -/
inductive ImmSize where
  | byte
  | word
  | dword
  | qword
  | ptr
  | vword32
  | vword
  deriving DecidableEq, Repr

/-- The number of an immediate size.
Kind: D -/
def ImmSize.code : ImmSize → ℕ
  | .byte => inatImmByte
  | .word => inatImmWord
  | .dword => inatImmDword
  | .qword => inatImmQword
  | .ptr => inatImmPtr
  | .vword32 => inatImmVword32
  | .vword => inatImmVword

/-- The kinds of prefix, `INAT_PFX_*`.
Source: `inat.h` 33–49
Kind: D -/
inductive Pfx where
  | opndsz
  | repe
  | repne
  | lock
  | cs
  | ds
  | es
  | fs
  | gs
  | ss
  | addrsz
  | rex
  | vex2
  | vex3
  deriving DecidableEq, Repr

/-- The number of a prefix.
Kind: D -/
def Pfx.code : Pfx → ℕ
  | .opndsz => inatPfxOpndsz
  | .repe => inatPfxRepe
  | .repne => inatPfxRepne
  | .lock => inatPfxLock
  | .cs => inatPfxCs
  | .ds => inatPfxDs
  | .es => inatPfxEs
  | .fs => inatPfxFs
  | .gs => inatPfxGs
  | .ss => inatPfxSs
  | .addrsz => inatPfxAddrsz
  | .rex => inatPfxRex
  | .vex2 => inatPfxVex2
  | .vex3 => inatPfxVex3

/-- One of the texts that `add_flags` joins with ` | `; `ν` are the names of groups and escapes.
Kind: D -/
inductive Flag (ν : Type) where
  /-- `INAT_MAKE_IMM(size)`. -/
  | imm (size : ImmSize)
  /-- `INAT_MOFFSET`. -/
  | moffset
  /-- `INAT_SCNDIMM`. -/
  | scndimm
  /-- `INAT_MODRM`. -/
  | modrm
  /-- `INAT_MAKE_GROUP(name)`. -/
  | group (name : ν)
  /-- `INAT_FORCE64`. -/
  | force64
  /-- `INAT_MAKE_PREFIX(pfx)`. -/
  | pfx (pfx : Pfx)
  /-- `INAT_VEXOK`. -/
  | vexok
  /-- `INAT_VEXONLY`. -/
  | vexonly
  /-- `INAT_MAKE_ESCAPE(name)`. -/
  | escape (name : ν)
  /-- `INAT_VARIANT`. -/
  | variant
  deriving DecidableEq, Repr

/-- The value the C compiler gives to a flag.
Source: `inat.h` 87–99
Kind: D -/
def Flag.value : Flag ℕ → ℕ
  | .imm size => makeImm size.code
  | .moffset => inatMoffset
  | .scndimm => inatScndimm
  | .modrm => inatModrm
  | .group n => makeGroup n
  | .force64 => inatForce64
  | .pfx p => makePrefix p.code
  | .vexok => inatVexok
  | .vexonly => inatVexonly
  | .escape n => makeEscape n
  | .variant => inatVariant

/-! ## Regular expressions -/

/-- `^[A-Za-z/]`: a field with operands.
Source: `gen-insn-attr-x86.awk` 45
Kind: D -/
def opndExpr (s : String) : Bool :=
  match s.toList with
  | c :: _ => c.isAlpha || c == '/'
  | [] => false

/-- `^\(`: a field with superscripts.
Source: `gen-insn-attr-x86.awk` 46
Kind: D -/
def extExpr (s : String) : Bool :=
  match s.toList with
  | c :: _ => c == '('
  | [] => false

/-- `^\|$`: a separator.
Source: `gen-insn-attr-x86.awk` 47
Kind: D -/
def sepExpr (s : String) : Bool := s.toList == ['|']

/-- `^Grp[0-9A-Za-z]+`: the name of a group.
Source: `gen-insn-attr-x86.awk` 48
Kind: D -/
def groupExpr (s : String) : Bool :=
  match s.toList with
  | 'G' :: 'r' :: 'p' :: c :: _ => c.isAlphanum
  | _ => false

/-- `^[IJAO][a-z]`: an immediate operand.
Source: `gen-insn-attr-x86.awk` 50
Kind: D -/
def immExpr (s : String) : Bool :=
  match s.toList with
  | a :: b :: _ => (a == 'I' || a == 'J' || a == 'A' || a == 'O') && b.isLower
  | _ => false

/-- `^([CDEGMNPQRSUVW/][a-z]+|NTA|T[012])`: an operand of the ModRM byte.
Source: `gen-insn-attr-x86.awk` 63
Kind: D -/
def modrmExpr (s : String) : Bool :=
  match s.toList with
  | 'N' :: 'T' :: 'A' :: _ => true
  | 'T' :: c :: _ => c == '0' || c == '1' || c == '2'
  | a :: b :: _ => "CDEGMNPQRSUVW/".toList.contains a && b.isLower
  | _ => false

/-- Does the text of `pat` stand somewhere in a text?
Kind: D -/
def occurs (pat : List Char) : List Char → Bool
  | [] => pat.isEmpty
  | c :: cs => pat.isPrefixOf (c :: cs) || occurs pat cs

/-- `match(s, "\\(pat\\)")`: a superscript in a field.
Kind: D -/
def hasExt (pat s : String) : Bool := occurs pat.toList s.toList

/-- `^REX(\.[XRWB]+)*` and `^ESC`: a text that starts with `pat`.
Source: `gen-insn-attr-x86.awk` 65–66
Kind: D -/
def startsWith (pat s : String) : Bool := pat.toList.isPrefixOf s.toList

/-- `\([df]64\)`.
Source: `gen-insn-attr-x86.awk` 64
Kind: D -/
def force64Expr (ext : String) : Bool := hasExt "(d64)" ext || hasExt "(f64)" ext

/-! ## Lines -/

/-- What `semantic_error` is called for.
Kind: D -/
inductive Error where
  | hitTable
  | noGroup (name : String)
  | redefine (idx : String)
  | noEscapedName
  | redefineEscape (ref : String)
  | unknownImm (opnd : String)
  | secondImm
  | notSeparator (field : String)
  | unknownPrefix (opcode : String)
  /-- Not an error of the source: the code of an AVX table is a decimal number here. -/
  | avxCode (code : String)
  deriving DecidableEq, Repr

/-- Cut a text at every character that `p` holds of.
Kind: D -/
def cut (p : Char → Bool) : List Char → List (List Char)
  | [] => [[]]
  | c :: cs =>
      if p c then [] :: cut p cs
      else
        match cut p cs with
        | [] => [[c]]
        | w :: ws => (c :: w) :: ws

/-- The fields of a line, `$1`, `$2` and so on.
Kind: D -/
def fields (line : String) : List String :=
  ((cut (fun c => c == ' ' || c == '\t') line.toList).filter fun w => !w.isEmpty).map String.ofList

/-- `split(opnd, opnds, ",")`.
Kind: D -/
def splitOpnds (opnd : String) : List String :=
  (cut (fun c => c == ',') opnd.toList).map String.ofList

/-- The rules of the generator, with what they read off the line. A field list starts at `$2`.
Kind: D -/
inductive Rule where
  | table
  | referrer (args : List String)
  | avxCode (args : List String)
  | grpTable (name : String)
  | endTable
  | entry (idx : String) (args : List String)
  /-- No rule: the line is skipped. -/
  | skip
  deriving DecidableEq, Repr

/-- A digit of an index.
Kind: D -/
def isHex (c : Char) : Bool := c.isDigit || ('a' ≤ c && c ≤ 'f')

/-- `/^[0-9a-f]+\:/`.
Source: `gen-insn-attr-x86.awk` 248
Kind: D -/
def entryExpr (line : String) : Bool :=
  match line.toList.span isHex with
  | (_ :: _, ':' :: _) => true
  | _ => false

/-- The rule a line triggers; the patterns exclude one another. An entry on the first line is
skipped.
Source: `gen-insn-attr-x86.awk` 110, 116, 127, 140, 159, 248–252
Kind: D -/
def rule (nr : ℕ) (line : String) : Rule :=
  let args := (fields line).tail
  if startsWith "Table:" line then .table
  else if startsWith "Referrer:" line then .referrer args
  else if startsWith "AVXcode:" line then .avxCode args
  else if startsWith "GrpTable:" line then .grpTable (args.headD "")
  else if startsWith "EndTable" line then .endTable
  else if entryExpr line && nr != 1 then
    .entry ("0x" ++ String.ofList (line.toList.takeWhile fun c => c != ':')) args
  else .skip

/-! ## Entries -/

/-- `imm_flag`.
Source: `gen-insn-attr-x86.awk` 51–61
Kind: D -/
def immFlag (opnd : String) : Option (Flag String) :=
  if opnd = "Ib" ∨ opnd = "Jb" then some (.imm .byte)
  else if opnd = "Iw" then some (.imm .word)
  else if opnd = "Id" then some (.imm .dword)
  else if opnd = "Iq" then some (.imm .qword)
  else if opnd = "Ap" then some (.imm .ptr)
  else if opnd = "Iz" ∨ opnd = "Jz" then some (.imm .vword32)
  else if opnd = "Iv" then some (.imm .vword)
  else if opnd = "Ob" ∨ opnd = "Ov" then some .moffset
  else none

/-- `prefix_num`.
Source: `gen-insn-attr-x86.awk` 77–89
Kind: D -/
def pfxNum (opcode : String) : Option Pfx :=
  if opcode = "Operand-Size" then some .opndsz
  else if opcode = "REPNE" then some .repne
  else if opcode = "REP/REPE" then some .repe
  else if opcode = "LOCK" then some .lock
  else if opcode = "SEG=CS" then some .cs
  else if opcode = "SEG=DS" then some .ds
  else if opcode = "SEG=ES" then some .es
  else if opcode = "SEG=FS" then some .fs
  else if opcode = "SEG=GS" then some .gs
  else if opcode = "SEG=SS" then some .ss
  else if opcode = "Address-Size" then some .addrsz
  else if opcode = "2bytes-VEX" then some .vex2
  else if opcode = "3bytes-VEX" then some .vex3
  else none

/-- One turn of the loop of `convert_operands`, with its variables `imm` and `mod`.
Source: `gen-insn-attr-x86.awk` 231–243
Kind: D -/
def convertOperand (acc : List (Flag String) × List (Flag String)) (opnd : String) :
    Except Error (List (Flag String) × List (Flag String)) :=
  let (imm, mod) := acc
  if immExpr opnd then
    match immFlag opnd with
    | none => .error (.unknownImm opnd)
    | some flag =>
        if imm ≠ [] then
          if opnd ≠ "Ib" then .error .secondImm else .ok (imm ++ [.scndimm], mod)
        else .ok ([flag], mod)
  else if modrmExpr opnd then .ok (imm, [.modrm])
  else .ok (imm, mod)

/-- `convert_operands`.
Source: `gen-insn-attr-x86.awk` 227–246
Kind: D -/
def convertOperands (opnds : List String) : Except Error (List (Flag String)) := do
  let (imm, mod) ← opnds.foldlM convertOperand ([], [])
  return imm ++ mod

/-- One opcode of a line: its text, the flags of its operands, and its superscripts.
Kind: D -/
structure Item where
  /-- The variable `opcode`. -/
  opcode : String
  /-- The variable `flags` after the operands. -/
  flags : List (Flag String)
  /-- The variable `ext`. -/
  ext : String
  deriving DecidableEq, Repr

/-- The operands behind an opcode, if there are any, and the fields behind them.
Source: `gen-insn-attr-x86.awk` 281–285
Kind: D -/
def takeOpnds : List String → Except Error (List (Flag String) × List String)
  | [] => .ok ([], [])
  | opnd :: rest =>
      if opndExpr opnd then (convertOperands (splitOpnds opnd)).map fun flags => (flags, rest)
      else .ok ([], opnd :: rest)

/-- The superscripts, if there are any, and the fields behind them.
Source: `gen-insn-attr-x86.awk` 286–287
Kind: D -/
def takeExt : List String → String × List String
  | [] => ("", [])
  | ext :: rest => if extExpr ext then (ext, rest) else ("", ext :: rest)

/-- The separator. A last field that is not a separator is no error: it is the next opcode.
Source: `gen-insn-attr-x86.awk` 288–291
Kind: D -/
def takeSep : List String → Except Error (List String)
  | [] => .ok []
  | [field] => .ok (if sepExpr field then [] else [field])
  | field :: rest => if sepExpr field then .ok rest else .error (.notSeparator field)

/-- Parse one opcode: the field of the opcode has been read, `rest` are the fields behind it.
Source: `gen-insn-attr-x86.awk` 275–291
Kind: D -/
def takeItem (opcode : String) (rest : List String) : Except Error (Item × List String) := do
  let (flags, rest₁) ← takeOpnds rest
  let (ext, rest₂) := takeExt rest₁
  let rest₃ ← takeSep rest₂
  return (⟨opcode, flags, ext⟩, rest₃)

/-- The tables of an opcode map: `table`, and `lptable1` to `lptable3` for the last prefixes `66`,
`F3` and `F2`.
Kind: D -/
inductive Variant where
  | plain
  | p66
  | pF3
  | pF2
  deriving DecidableEq, Repr

/-- The number behind the name of a table, and the second index of the arrays of tables.
Kind: D -/
def Variant.num : Variant → ℕ
  | .plain => 0
  | .p66 => 1
  | .pF3 => 2
  | .pF2 => 3

/-- The table with a number.
Kind: D -/
def Variant.ofNum : ℕ → Option Variant
  | 0 => some .plain
  | 1 => some .p66
  | 2 => some .pF3
  | 3 => some .pF2
  | _ => none

/-- The tables in the order in which they are printed.
Kind: D -/
def variants : List Variant := [.plain, .p66, .pF3, .pF2]

/-- The flags of an opcode.
Source: `gen-insn-attr-x86.awk` 293–326
Kind: D -/
def itemFlags (it : Item) : Except Error (List (Flag String)) :=
  let flags := it.flags
    ++ (if groupExpr it.opcode then [.group it.opcode] else [])
    ++ (if force64Expr it.ext then [.force64] else [])
    ++ (if startsWith "REX" it.opcode then [.pfx .rex] else [])
    ++ (if startsWith "ESC" it.opcode then [.modrm] else [])
    ++ (if hasExt "(oVEX)" it.ext then [.vexok, .vexonly] else [])
    ++ (if hasExt "(VEX)" it.ext then [.vexok] else [])
  if hasExt "(Prefix)" it.ext then
    match pfxNum it.opcode with
    | none => .error (.unknownPrefix it.opcode)
    | some p => .ok (flags ++ [.pfx p])
  else .ok flags

/-- The table that an opcode goes to.
Source: `gen-insn-attr-x86.awk` 329–341
Kind: D -/
def itemVariant (it : Item) : Variant :=
  if hasExt "(66)" it.ext then .p66
  else if hasExt "(F3)" it.ext then .pF3
  else if hasExt "(F2)" it.ext then .pF2
  else .plain

/-- The loop over the opcodes of a line; an opcode without flags is skipped.
Source: `gen-insn-attr-x86.awk` 272–342
Kind: D
Fidelity: every turn reads a field, so the number of fields bounds the loop. -/
def parseItems : ℕ → List String → Except Error (List (Variant × List (Flag String)))
  | 0, _ => .ok []
  | _ + 1, [] => .ok []
  | n + 1, opcode :: rest => do
      let (it, rest) ← takeItem opcode rest
      let flags ← itemFlags it
      let items ← parseItems n rest
      return if flags = [] then items else (itemVariant it, flags) :: items

/-- A line of a table: an escape to another table, or opcodes.
Kind: D -/
inductive Entry where
  | escape (ref : String)
  | opcodes (items : List (Variant × List (Flag String)))
  deriving DecidableEq, Repr

/-- The text of fields joined, `ref = ref $i`.
Kind: D -/
def joinFields (args : List String) : String := String.ofList (args.flatMap String.toList)

/-- Parse a line of a table, from its second field on.
Source: `gen-insn-attr-x86.awk` 256–342
Kind: D -/
def parseEntry (args : List String) : Except Error Entry :=
  match args with
  | "escape" :: rest =>
      match rest with
      | "#" :: name => .ok (.escape (joinFields name))
      | _ => .error .noEscapedName
  | _ => do
      let items ← parseItems args.length args
      return .opcodes items

/-! ## The state of the generator -/

/-- The names of the C tables, less the number of the variant.
Kind: D -/
inductive TName where
  | primary
  | escape (n : ℕ)
  | avx (n : ℕ)
  | group (n : ℕ)
  deriving DecidableEq, Repr

/-- A whole name: `none` is the empty `tname` of a table without a heading.
Kind: D -/
abbrev TableName := Option TName × Variant

/-- The variable `eid`: `-1`, the empty value of an escape that no entry has named, or a number.
Kind: D -/
inductive Eid where
  | unset
  | unknown
  | known (n : ℕ)
  deriving DecidableEq, Repr

/-- An array from indices to flags; the entry at the front is the last one assigned.
Kind: D -/
abbrev Arr := List (String × List (Flag ℕ))

/-- `arr[idx]`, empty when it was never assigned.
Kind: D -/
def Arr.get (arr : Arr) (idx : String) : List (Flag ℕ) := (arr.lookup idx).getD []

/-- `arr[idx] = add_flags(arr[idx], flags)`.
Kind: D -/
def Arr.add (arr : Arr) (idx : String) (flags : List (Flag ℕ)) : Arr :=
  (idx, arr.get idx ++ flags) :: arr

/-- The cells of a printed table: `[i] = flags,`.
Kind: D -/
abbrev Cells := List (ℕ × List (Flag ℕ))

/-- The variables of the generator.
Kind: D -/
structure Gen where
  /-- `table` and `lptable1` to `lptable3`. -/
  arrays : Variant → Arr
  /-- The escape whose table is read. -/
  eid : Eid
  /-- The group whose table is read. -/
  gid : Option ℕ
  /-- The AVX code of the table that is read. -/
  aid : Option ℕ
  /-- The name of the table that is read. -/
  tname : Option TName
  /-- `group` and `ggid`. -/
  group : Numbering String
  /-- `escape` and `geid`. -/
  escape : Numbering String
  /-- The keys of `escape` that were read and never assigned. -/
  dangling : List String
  /-- One more than the greatest AVX code. -/
  gaid : ℕ
  etable : List ((Eid × Variant) × TableName)
  gtable : List ((ℕ × Variant) × TableName)
  atable : List ((ℕ × Variant) × TableName)
  /-- The tables printed so far. -/
  printed : List (TableName × Cells)

/-- `clear_vars`.
Source: `gen-insn-attr-x86.awk` 15–24
Kind: D -/
def Gen.clearVars (g : Gen) : Gen :=
  { g with arrays := fun _ => [], eid := .unset, gid := none, aid := none, tname := none }

/-- The state after `BEGIN`.
Source: `gen-insn-attr-x86.awk` 26–92
Kind: D -/
def Gen.init : Gen where
  arrays := fun _ => []
  eid := .unset
  gid := none
  aid := none
  tname := none
  group := Numbering.empty
  escape := Numbering.empty
  dangling := []
  gaid := 0
  etable := []
  gtable := []
  atable := []
  printed := []

/-- Assign flags to an index of one of the four arrays.
Kind: D -/
def Gen.addFlags (g : Gen) (v : Variant) (idx : String) (flags : List (Flag ℕ)) : Gen :=
  { g with arrays := Function.update g.arrays v ((g.arrays v).add idx flags) }

/-- The names of groups among flags.
Kind: D -/
def groupNames (flags : List (Flag String)) : List String :=
  flags.filterMap fun
    | .group name => some name
    | _ => none

/-- A flag with the numbers given so far.
Kind: D -/
def Flag.number (E G : Numbering String) : Flag String → Option (Flag ℕ)
  | .imm size => some (.imm size)
  | .moffset => some .moffset
  | .scndimm => some .scndimm
  | .modrm => some .modrm
  | .group name => (G.id? name).map .group
  | .force64 => some .force64
  | .pfx p => some (.pfx p)
  | .vexok => some .vexok
  | .vexonly => some .vexonly
  | .escape name => (E.id? name).map .escape
  | .variant => some .variant

/-- Number the groups of an opcode and add its flags to its table.
Source: `gen-insn-attr-x86.awk` 293–299, 329–341
Kind: D -/
def Gen.addItem (idx : String) (g : Gen) (it : Variant × List (Flag String)) : Gen :=
  let group := (groupNames it.2).foldl Numbering.assign g.group
  { g with group }.addFlags it.1 idx (it.2.filterMap (Flag.number g.escape group))

/-- Does a line put an opcode in one of the tables of the last prefixes? The variable `variant`.
Kind: D -/
def hasVariant (items : List (Variant × List (Flag String))) : Bool :=
  items.any fun it => it.1 != .plain

/-- The rule of the entries.
Source: `gen-insn-attr-x86.awk` 248–345
Kind: D -/
def Gen.entry (g : Gen) (idx : String) (args : List String) : Except Error Gen :=
  if ((g.arrays .plain).lookup idx).isSome then .error (.redefine idx)
  else do
    match ← parseEntry args with
    | .escape ref =>
        if (g.escape.id? ref).isSome ∨ ref ∈ g.dangling then throw (.redefineEscape ref)
        else
          return { g with escape := g.escape.add ref }.addFlags .plain idx [.escape g.escape.next]
    | .opcodes items =>
        let g' := items.foldl (Gen.addItem idx) g
        return if hasVariant items then g'.addFlags .plain idx [.variant] else g'

/-- The rule of `Referrer:`.
Source: `gen-insn-attr-x86.awk` 116–125
Kind: D -/
def Gen.referrer (g : Gen) (args : List String) : Gen :=
  match args with
  | [] => g
  | _ :: _ =>
      let ref := joinFields args
      match g.escape.id? ref with
      | some n => { g with eid := .known n, tname := some (.escape n) }
      | none =>
          -- reading the element creates it, and `%d` of the empty value is 0
          { g with eid := .unknown, tname := some (.escape 0), dangling := ref :: g.dangling }

/-- The code of an AVX table: a decimal number without leading zeros.
Kind: D -/
def decimal (code : String) : Option ℕ :=
  match code.toList with
  | [] => none
  | c :: cs =>
      if (c :: cs).all Char.isDigit ∧ (c ≠ '0' ∨ cs = []) then
        some ((c :: cs).foldl (fun n d => 10 * n + (d.toNat - 48)) 0)
      else none

/-- The rule of `AVXcode:`.
Source: `gen-insn-attr-x86.awk` 127–138
Kind: D
Fidelity: codes that are not decimal numbers are left out. -/
def Gen.avxCode (g : Gen) (args : List String) : Except Error Gen := do
  let g ← match args with
    | [] => pure g
    | code :: _ =>
        match decimal code with
        | none => throw (.avxCode code)
        | some a =>
            pure { g with
              aid := some a
              gaid := if g.gaid ≤ a then a + 1 else g.gaid
              tname := if g.tname = none then some (.avx a) else g.tname }
  return if g.aid = none ∧ g.eid = .unset then { g with tname := some .primary } else g

/-- The rule of `GrpTable:`.
Source: `gen-insn-attr-x86.awk` 140–146
Kind: D -/
def Gen.grpTable (g : Gen) (name : String) : Except Error Gen :=
  match g.group.id? name with
  | none => .error (.noGroup name)
  | some n => .ok { g with gid := some n, tname := some (.group n) }

/-- A hexadecimal digit.
Kind: D -/
def hexDigit (i : ℕ) : Char := if i < 10 then Char.ofNat (48 + i) else Char.ofNat (87 + i)

/-- `sprintf("0x%02x", i)`, for `i` below 256.
Kind: D -/
def opcodeId (i : ℕ) : String := String.ofList ['0', 'x', hexDigit (i / 16), hexDigit (i % 16)]

/-- `sprintf("0x%x", i)`, for `i` below 16.
Kind: D -/
def groupId (i : ℕ) : String := String.ofList ['0', 'x', hexDigit i]

/-- `print_table`.
Source: `gen-insn-attr-x86.awk` 148–157
Kind: D -/
def printTable (tbl : Arr) (fmt : ℕ → String) (n : ℕ) : Cells :=
  (List.range n).filterMap fun i =>
    if tbl.get (fmt i) ≠ [] then some (i, tbl.get (fmt i)) else none

/-- Print the table of a group, if it has an entry.
Source: `gen-insn-attr-x86.awk` 160–182
Kind: D -/
def Gen.printGroup (gid : ℕ) (g : Gen) (v : Variant) : Gen :=
  if g.arrays v = [] then g
  else
    { g with
      printed := g.printed ++ [((g.tname, v), printTable (g.arrays v) groupId 8)]
      gtable := ((gid, v), (g.tname, v)) :: g.gtable }

/-- Print the table of opcodes, if it has an entry.
Source: `gen-insn-attr-x86.awk` 183–211
Kind: D -/
def Gen.printOpcodes (g : Gen) (v : Variant) : Gen :=
  if g.arrays v = [] then g
  else
    { g with
      printed := g.printed ++ [((g.tname, v), printTable (g.arrays v) opcodeId 256)]
      etable := ((g.eid, v), (g.tname, v)) :: g.etable
      atable := match g.aid with
        | some a => ((a, v), (g.tname, v)) :: g.atable
        | none => g.atable }

/-- The rule of `EndTable`.
Source: `gen-insn-attr-x86.awk` 159–215
Kind: D -/
def Gen.endTable (g : Gen) : Gen :=
  match g.gid with
  | some gid => (variants.foldl (Gen.printGroup gid) g).clearVars
  | none => (variants.foldl Gen.printOpcodes g).clearVars

/-- What a line does.
Kind: D -/
def Gen.step (g : Gen) : Rule → Except Error Gen
  | .table => if g.tname ≠ none then .error .hitTable else .ok g
  | .referrer args => .ok (g.referrer args)
  | .avxCode args => g.avxCode args
  | .grpTable name => g.grpTable name
  | .endTable => .ok g.endTable
  | .entry idx args => g.entry idx args
  | .skip => .ok g

/-- The rules that the lines of a map trigger.
Kind: D -/
def rules (lines : List String) : List Rule := (lines.zipIdx 1).map fun p => rule p.2 p.1

/-- A run over a map.
Kind: D
Fidelity: after an error the generator exits with status 1; what it has printed by then is left
out. -/
def generate (lines : List String) : Except Error Gen := (rules lines).foldlM Gen.step Gen.init

/-! ## The output -/

/-- The lines `[i][j] = name,` of an array of tables.
Kind: D -/
def printArray (n : ℕ) (reg : ℕ → Variant → Option TableName) :
    List ((ℕ × Variant) × TableName) :=
  ((List.range n).flatMap fun i => variants.map fun v => (i, v)).filterMap fun k =>
    (reg k.1 k.2).map fun name => (k, name)

/-- The C text: tables and arrays of tables.
Kind: D -/
structure Output where
  tables : List (TableName × Cells)
  escapes : List ((ℕ × Variant) × TableName)
  groups : List ((ℕ × Variant) × TableName)
  avx : List ((ℕ × Variant) × TableName)

/-- The rule `END`.
Source: `gen-insn-attr-x86.awk` 347–378
Kind: D -/
def Gen.output (g : Gen) : Output where
  tables := g.printed
  escapes := printArray g.escape.next fun i v => g.etable.lookup (.known i, v)
  groups := printArray g.group.next fun i v => g.gtable.lookup (i, v)
  avx := printArray g.gaid fun i v => g.atable.lookup (i, v)

/-- The tables of the decoder: arrays of attributes, and arrays of pointers to such arrays.
Kind: D -/
structure InatTables where
  primary : ℕ → ℕ
  escapes : ℕ → ℕ → Option (ℕ → ℕ)
  groups : ℕ → ℕ → Option (ℕ → ℕ)
  avx : ℕ → ℕ → Option (ℕ → ℕ)

/-- The word of flags joined with ` | `.
Kind: D -/
def attrWord (flags : List (Flag ℕ)) : ℕ := orAll (flags.map Flag.value)

/-- A table as the C compiler lays it out: what has no initialiser is zero.
Kind: D -/
def Cells.table (cells : Cells) (i : ℕ) : ℕ := attrWord ((cells.lookup i).getD [])

/-- The table a name stands for.
Kind: D -/
def Output.table (o : Output) (name : TableName) : ℕ → ℕ := ((o.tables.lookup name).getD []).table

/-- The pointer `arr[n][m]`.
Kind: D -/
def Output.pointer (o : Output) (arr : List ((ℕ × Variant) × TableName)) (n m : ℕ) :
    Option (ℕ → ℕ) :=
  (Variant.ofNum m).bind fun v => (arr.lookup (n, v)).map o.table

/-- Does the C compiler accept the output? No name is defined twice, the primary table is
defined, and no line of an array is outside of it.
Kind: D -/
def Output.Accepted (o : Output) : Prop :=
  (o.tables.map Prod.fst).Nodup ∧ (some .primary, .plain) ∈ o.tables.map Prod.fst ∧
    (∀ line ∈ o.escapes, line.1.1 ≤ 3) ∧ (∀ line ∈ o.groups, line.1.1 ≤ 31) ∧
    ∀ line ∈ o.avx, line.1.1 ≤ 31

instance (o : Output) : Decidable o.Accepted := inferInstanceAs (Decidable (_ ∧ _))

/-- What the C compiler makes of the output.
Kind: D -/
def Output.compile (o : Output) : Option InatTables :=
  if o.Accepted then
    some {
      primary := o.table (some .primary, .plain)
      escapes := o.pointer o.escapes
      groups := o.pointer o.groups
      avx := o.pointer o.avx }
  else none

end Togpu.OpcodeMap
