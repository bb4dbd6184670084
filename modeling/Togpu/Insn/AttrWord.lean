import Mathlib.Data.Fintype.Basic
import Togpu.Insn.OpcodeMap

/-!
# What an attribute word says

The generator joins flags with ` | `, the C compiler computes the word, and the decoder takes it
apart with the functions of `inat.h`.

* `Flag.Fits` — the numbers of groups and escapes fit in their fields. The generator counts them up
  from 1 and never checks.
* `Reads` — what each function of `inat.h` finds in a word, in terms of the flags.
* **The word says what was joined** (`attrWord_reads`).
-/

namespace Togpu.OpcodeMap

open Togpu.Lib
open Togpu.X86

/-- The numbers of groups and escapes are positive and fit in their fields.
Kind: D -/
def Flag.Fits : Flag ℕ → Prop
  | .group n => 0 < n ∧ n < 32
  | .escape n => 0 < n ∧ n < 4
  | _ => True

/-- The kinds of flags, without their numbers.
Kind: D -/
inductive FlagKind where
  | imm
  | moffset
  | scndimm
  | modrm
  | group
  | force64
  | pfx
  | vexok
  | vexonly
  | escape
  | variant
  deriving DecidableEq

instance : Fintype FlagKind where
  elems := {.imm, .moffset, .scndimm, .modrm, .group, .force64, .pfx, .vexok, .vexonly, .escape,
    .variant}
  complete := by
    intro k
    cases k <;> decide

/-- The kind of a flag.
Kind: D -/
def Flag.kind {ν : Type} : Flag ν → FlagKind
  | .imm _ => .imm
  | .moffset => .moffset
  | .scndimm => .scndimm
  | .modrm => .modrm
  | .group _ => .group
  | .force64 => .force64
  | .pfx _ => .pfx
  | .vexok => .vexok
  | .vexonly => .vexonly
  | .escape _ => .escape
  | .variant => .variant

/-- The bits a kind of flag may use.
Kind: D -/
def FlagKind.mask : FlagKind → ℕ
  | .imm => inatImmMask
  | .moffset => inatMoffset
  | .scndimm => inatScndimm
  | .modrm => inatModrm
  | .group => inatGrpMask ||| inatModrm
  | .force64 => inatForce64
  | .pfx => inatPfxMask
  | .vexok => inatVexok
  | .vexonly => inatVexonly
  | .escape => inatEscMask
  | .variant => inatVariant

/-- A flag that fits stays in its bits.
Kind: L -/
theorem Flag.value_and_mask {f : Flag ℕ} (hf : f.Fits) : f.value &&& f.kind.mask = f.value := by
  have hgroup : ∀ n < 32, makeGroup n &&& (inatGrpMask ||| inatModrm) = makeGroup n := by decide
  have hescape : ∀ n < 4, makeEscape n &&& inatEscMask = makeEscape n := by decide
  cases f with
  | imm size => cases size <;> rfl
  | pfx p => cases p <;> rfl
  | group n => exact hgroup n hf.2
  | escape n => exact hescape n hf.2
  | moffset | scndimm | modrm | force64 | vexok | vexonly | variant => rfl

/-- Nothing of a flag is read outside its bits.
Kind: L -/
theorem Flag.value_and_eq_zero {f : Flag ℕ} (hf : f.Fits) {M : ℕ} (hM : f.kind.mask &&& M = 0) :
    f.value &&& M = 0 := by
  rw [← Flag.value_and_mask hf, Nat.and_assoc, hM, Nat.and_zero]

variable {ns : List (Flag ℕ)}

/-! ## Bits -/

/-- A mask finds a word's flags of the kinds that it meets.
Kind: L -/
theorem hasBits_attrWord_iff (hfit : ∀ f ∈ ns, f.Fits) {M : ℕ}
    (hset : ∀ f ∈ ns, f.kind.mask &&& M ≠ 0 → f.value &&& M ≠ 0) :
    hasBits (attrWord ns) M = true ↔ ∃ f ∈ ns, f.kind.mask &&& M ≠ 0 := by
  rw [hasBits, decide_eq_true_iff, attrWord, and_orAll_ne_zero_iff]
  constructor
  · rintro ⟨w, hw, hbit⟩
    obtain ⟨f, hf, rfl⟩ := List.mem_map.mp hw
    exact ⟨f, hf, fun hM => hbit (Flag.value_and_eq_zero (hfit f hf) hM)⟩
  · rintro ⟨f, hf, hM⟩
    exact ⟨f.value, List.mem_map_of_mem hf, hset f hf hM⟩

/-- The flags with a bit of their own.
Kind: D -/
def bitFlags : List (Flag ℕ) := [.moffset, .scndimm, .force64, .vexok, .vexonly, .variant]

/-- Such a flag is the only one of its kind.
Kind: L -/
theorem eq_of_kind_eq {own f : Flag ℕ} (hown : own ∈ bitFlags) (hk : f.kind = own.kind) :
    f = own := by
  simp only [bitFlags, List.mem_cons, List.not_mem_nil, or_false] at hown
  rcases hown with rfl | rfl | rfl | rfl | rfl | rfl <;> cases f <;> first | rfl | cases hk

/-- A bit that only one flag uses is set exactly when that flag was joined.
Kind: L -/
theorem hasBits_attrWord_iff_mem (hfit : ∀ f ∈ ns, f.Fits) (own : Flag ℕ) (hown : own ∈ bitFlags) :
    hasBits (attrWord ns) own.value = true ↔ own ∈ ns := by
  have hmask : ∀ own ∈ bitFlags, ∀ k : FlagKind, k.mask &&& own.value ≠ 0 ↔ k = own.kind := by
    decide
  have hself : ∀ own ∈ bitFlags, own.value &&& own.value ≠ 0 := by decide
  rw [hasBits_attrWord_iff hfit]
  · constructor
    · rintro ⟨f, hf, hM⟩
      exact eq_of_kind_eq hown ((hmask own hown f.kind).mp hM) ▸ hf
    · intro hmem
      exact ⟨own, hmem, (hmask own hown own.kind).mpr rfl⟩
  · intro f _ hM
    rw [eq_of_kind_eq hown ((hmask own hown f.kind).mp hM)]
    exact hself own hown

/-- `INAT_MAKE_GROUP` sets the bit of the ModRM byte too.
Kind: L -/
theorem inatHasModrm_attrWord (hfit : ∀ f ∈ ns, f.Fits) :
    inatHasModrm (attrWord ns) = true ↔ Flag.modrm ∈ ns ∨ ∃ n, Flag.group n ∈ ns := by
  have hgroup : ∀ n < 32, makeGroup n &&& inatModrm ≠ 0 := by decide
  have hmask : ∀ k : FlagKind, k.mask &&& inatModrm ≠ 0 ↔ k = .modrm ∨ k = .group := by decide
  rw [inatHasModrm, hasBits_attrWord_iff hfit]
  · constructor
    · rintro ⟨f, hf, hM⟩
      cases f with
      | modrm => exact Or.inl hf
      | group n => exact Or.inr ⟨n, hf⟩
      | _ => rcases (hmask _).mp hM with h | h <;> cases h
    · rintro (hmem | ⟨n, hmem⟩)
      · exact ⟨_, hmem, (hmask _).mpr (Or.inl rfl)⟩
      · exact ⟨_, hmem, (hmask _).mpr (Or.inr rfl)⟩
  · intro f hf hM
    cases f with
    | modrm => decide
    | group n => exact hgroup n (hfit _ hf).2
    | _ => rcases (hmask _).mp hM with h | h <;> cases h

/-- A field is used exactly when a flag of its kind was joined.
Kind: L -/
theorem hasBits_attrWord_iff_kind (hfit : ∀ f ∈ ns, f.Fits) {M : ℕ} {k : FlagKind}
    (hmask : ∀ j : FlagKind, j.mask &&& M ≠ 0 ↔ j = k)
    (hset : ∀ f ∈ ns, f.kind = k → f.value &&& M ≠ 0) :
    hasBits (attrWord ns) M = true ↔ ∃ f ∈ ns, f.kind = k := by
  simp only [← hmask] at hset ⊢
  exact hasBits_attrWord_iff hfit hset

/-- A word is an escape iff one was joined.
Kind: L -/
theorem inatIsEscape_attrWord (hfit : ∀ f ∈ ns, f.Fits) :
    inatIsEscape (attrWord ns) = true ↔ ∃ n, Flag.escape n ∈ ns := by
  have hesc : ∀ n < 4, 0 < n → makeEscape n &&& inatEscMask ≠ 0 := by decide
  rw [inatIsEscape, hasBits_attrWord_iff_kind hfit (k := .escape) (by decide)]
  · constructor
    · rintro ⟨f, hf, hk⟩
      cases f with
      | escape n => exact ⟨n, hf⟩
      | _ => cases hk
    · rintro ⟨n, hmem⟩
      exact ⟨_, hmem, rfl⟩
  · intro f hf hk
    cases f with
    | escape n => exact hesc n (hfit _ hf).2 (hfit _ hf).1
    | _ => cases hk

/-- A word is a group iff one was joined.
Kind: L -/
theorem inatIsGroup_attrWord (hfit : ∀ f ∈ ns, f.Fits) :
    inatIsGroup (attrWord ns) = true ↔ ∃ n, Flag.group n ∈ ns := by
  have hgrp : ∀ n < 32, 0 < n → makeGroup n &&& inatGrpMask ≠ 0 := by decide
  rw [inatIsGroup, hasBits_attrWord_iff_kind hfit (k := .group) (by decide)]
  · constructor
    · rintro ⟨f, hf, hk⟩
      cases f with
      | group n => exact ⟨n, hf⟩
      | _ => cases hk
    · rintro ⟨n, hmem⟩
      exact ⟨_, hmem, rfl⟩
  · intro f hf hk
    cases f with
    | group n => exact hgrp n (hfit _ hf).2 (hfit _ hf).1
    | _ => cases hk

/-- A word has an immediate iff one was joined.
Kind: L -/
theorem inatHasImmediate_attrWord (hfit : ∀ f ∈ ns, f.Fits) :
    inatHasImmediate (attrWord ns) = true ↔ ∃ size, Flag.imm size ∈ ns := by
  rw [inatHasImmediate, hasBits_attrWord_iff_kind hfit (k := .imm) (by decide)]
  · constructor
    · rintro ⟨f, hf, hk⟩
      cases f with
      | imm size => exact ⟨size, hf⟩
      | _ => cases hk
    · rintro ⟨size, hmem⟩
      exact ⟨_, hmem, rfl⟩
  · intro f _ hk
    cases f with
    | imm size => cases size <;> decide
    | _ => cases hk

/-! ## Numbers -/

/-- The number in a field that one kind of flag uses, if the flags of that kind agree on it.
Kind: L -/
theorem field_attrWord (hfit : ∀ f ∈ ns, f.Fits) {M shift : ℕ} {k : FlagKind}
    (hmask : ∀ j : FlagKind, j ≠ k → j.mask &&& M = 0) {own : Flag ℕ} (hown : own ∈ ns)
    (hagree : ∀ f ∈ ns, f.kind = k → f = own) :
    (attrWord ns &&& M) >>> shift = (own.value &&& M) >>> shift := by
  have hread := (orHom_field M shift).map_orAll (ns.map Flag.value)
  rw [attrWord, hread, List.map_map]
  refine orAll_eq_of_agree ?_ (List.mem_map.mpr ⟨own, hown, rfl⟩)
  intro w hw
  obtain ⟨f, hf, rfl⟩ := List.mem_map.mp hw
  by_cases hk : f.kind = k
  · right
    rw [hagree f hf hk]
    rfl
  · left
    show (f.value &&& M) >>> shift = 0
    rw [Flag.value_and_eq_zero (hfit f hf) (hmask f.kind hk), Nat.zero_shiftRight]

/-- The number of an escape is that of the one joined.
Kind: L -/
theorem inatEscapeId_attrWord (hfit : ∀ f ∈ ns, f.Fits) {n : ℕ} (hmem : Flag.escape n ∈ ns)
    (hagree : ∀ m, Flag.escape m ∈ ns → m = n) : inatEscapeId (attrWord ns) = n := by
  have hval : ∀ n < 4, (makeEscape n &&& inatEscMask) >>> 4 = n := by decide
  rw [inatEscapeId, field_attrWord hfit (k := .escape) (by decide) hmem]
  · exact hval n (hfit _ hmem).2
  · intro f hf hk
    cases f with
    | escape m => rw [hagree m hf]
    | _ => cases hk

/-- The number of a group is that of the one joined.
Kind: L -/
theorem inatGroupId_attrWord (hfit : ∀ f ∈ ns, f.Fits) {n : ℕ} (hmem : Flag.group n ∈ ns)
    (hagree : ∀ m, Flag.group m ∈ ns → m = n) : inatGroupId (attrWord ns) = n := by
  have hval : ∀ n < 32, (makeGroup n &&& inatGrpMask) >>> 6 = n := by decide
  rw [inatGroupId, field_attrWord hfit (k := .group) (by decide) hmem]
  · exact hval n (hfit _ hmem).2
  · intro f hf hk
    cases f with
    | group m => rw [hagree m hf]
    | _ => cases hk

/-- The size of an immediate is that of the one joined.
Kind: L -/
theorem inatImmediateSize_attrWord (hfit : ∀ f ∈ ns, f.Fits) {size : ImmSize}
    (hmem : Flag.imm size ∈ ns) (hagree : ∀ s, Flag.imm s ∈ ns → s = size) :
    inatImmediateSize (attrWord ns) = size.code := by
  rw [inatImmediateSize, field_attrWord hfit (k := .imm) (by decide) hmem]
  · cases size <;> rfl
  · intro f hf hk
    cases f with
    | imm s => rw [hagree s hf]
    | _ => cases hk

/-- The number of the prefix, which `inat_last_prefix_id` and the checks of prefixes compare.
Kind: L -/
theorem pfx_attrWord (hfit : ∀ f ∈ ns, f.Fits) {p : Pfx} (hmem : Flag.pfx p ∈ ns)
    (hagree : ∀ q, Flag.pfx q ∈ ns → q = p) : attrWord ns &&& inatPfxMask = p.code := by
  have hfield :
      (attrWord ns &&& inatPfxMask) >>> 0 = ((Flag.pfx p).value &&& inatPfxMask) >>> 0 := by
    refine field_attrWord hfit (k := .pfx) (by decide) hmem ?_
    intro f hf hk
    cases f with
    | pfx q => rw [hagree q hf]
    | _ => cases hk
  rw [Nat.shiftRight_zero, Nat.shiftRight_zero] at hfield
  rw [hfield]
  cases p <;> rfl

/-- Without a prefix number the field of the prefix number is empty.
Kind: L -/
theorem pfx_attrWord_eq_zero (hfit : ∀ f ∈ ns, f.Fits) (hnone : ∀ p, Flag.pfx p ∉ ns) :
    attrWord ns &&& inatPfxMask = 0 := by
  have hmask : ∀ k : FlagKind, k.mask &&& inatPfxMask ≠ 0 ↔ k = .pfx := by decide
  by_contra hne
  obtain ⟨w, hw, hbit⟩ := and_orAll_ne_zero_iff.mp hne
  obtain ⟨f, hf, rfl⟩ := List.mem_map.mp hw
  refine hbit (Flag.value_and_eq_zero (hfit f hf) ?_)
  by_contra hM
  cases f with
  | pfx p => exact hnone p hf
  | _ => cases (hmask _).mp hM

/-! ## The whole word -/

/-- What the functions of `inat.h` find in the word `w` of the flags `ns`.
Kind: D -/
structure Reads (ns : List (Flag ℕ)) (w : ℕ) : Prop where
  force64 : inatIsForce64 w = true ↔ Flag.force64 ∈ ns
  secondImmediate : inatHasSecondImmediate w = true ↔ Flag.scndimm ∈ ns
  moffset : inatHasMoffset w = true ↔ Flag.moffset ∈ ns
  hasVariant : inatHasVariant w = true ↔ Flag.variant ∈ ns
  acceptVex : inatAcceptVex w = true ↔ Flag.vexok ∈ ns
  mustVex : inatMustVex w = true ↔ Flag.vexonly ∈ ns
  /-- A group brings a ModRM byte. -/
  modrm : inatHasModrm w = true ↔ Flag.modrm ∈ ns ∨ ∃ n, Flag.group n ∈ ns
  isEscape : inatIsEscape w = true ↔ ∃ n, Flag.escape n ∈ ns
  isGroup : inatIsGroup w = true ↔ ∃ n, Flag.group n ∈ ns
  hasImmediate : inatHasImmediate w = true ↔ ∃ size, Flag.imm size ∈ ns
  escapeId : ∀ n, Flag.escape n ∈ ns → (∀ m, Flag.escape m ∈ ns → m = n) → inatEscapeId w = n
  groupId : ∀ n, Flag.group n ∈ ns → (∀ m, Flag.group m ∈ ns → m = n) → inatGroupId w = n
  immediateSize : ∀ size, Flag.imm size ∈ ns → (∀ s, Flag.imm s ∈ ns → s = size) →
    inatImmediateSize w = size.code
  pfx : ∀ p, Flag.pfx p ∈ ns → (∀ q, Flag.pfx q ∈ ns → q = p) → w &&& inatPfxMask = p.code
  noPfx : (∀ p, Flag.pfx p ∉ ns) → w &&& inatPfxMask = 0

/-- **The word says what was joined**: every function of `inat.h` reads the flags back off the
word, in any order of the flags and however often each was joined.
Source: `inat.h` 87–99, 117–219
Kind: P
Hyps: the numbers of groups and escapes fit. -/
theorem attrWord_reads (ns : List (Flag ℕ)) (hfit : ∀ f ∈ ns, f.Fits) : Reads ns (attrWord ns) where
  force64 := hasBits_attrWord_iff_mem hfit .force64 (by decide)
  secondImmediate := hasBits_attrWord_iff_mem hfit .scndimm (by decide)
  moffset := hasBits_attrWord_iff_mem hfit .moffset (by decide)
  hasVariant := hasBits_attrWord_iff_mem hfit .variant (by decide)
  acceptVex := hasBits_attrWord_iff_mem hfit .vexok (by decide)
  mustVex := hasBits_attrWord_iff_mem hfit .vexonly (by decide)
  modrm := inatHasModrm_attrWord hfit
  isEscape := inatIsEscape_attrWord hfit
  isGroup := inatIsGroup_attrWord hfit
  hasImmediate := inatHasImmediate_attrWord hfit
  escapeId := fun _ hmem hagree => inatEscapeId_attrWord hfit hmem hagree
  groupId := fun _ hmem hagree => inatGroupId_attrWord hfit hmem hagree
  immediateSize := fun _ hmem hagree => inatImmediateSize_attrWord hfit hmem hagree
  pfx := fun _ hmem hagree => pfx_attrWord hfit hmem hagree
  noPfx := fun hnone => pfx_attrWord_eq_zero hfit hnone

/-- The opcode `80` of the map: a group with an immediate.
Kind: P -/
theorem attrWord_reads_grp1 :
    Reads [.imm .byte, .modrm, .group 1] (attrWord [.imm .byte, .modrm, .group 1]) := by
  refine attrWord_reads _ ?_
  simp [Flag.Fits]

end Togpu.OpcodeMap
