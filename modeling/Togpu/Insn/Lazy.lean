import Togpu.Lib.Staged
import Togpu.Insn.Decode

/-!
# The decoder on demand

Every function `insn_get_*` first calls the one before it, unless a flag says that it has been run.
So a caller may ask for any part of an instruction, in any order and more than once.

* `insnStage` — what the functions do the first time; `lazyGetPrefixes`, …, `lazyGetLength` — the
  functions with their flags.
* `Call`, `Call.run` — the calls a user of the decoder can make after `insn_init`.
* **Any calls give the same instruction** (`run_calls`): the result is that of running the stages
  once and in order, up to the last stage asked for.
* **Answers do not depend on earlier calls** (`answers_after_calls`).
-/

namespace Togpu.X86

open Togpu.Lib

/-! ## The functions with their flags -/

/-- What the functions do the first time they are called. The first one may not return.
Source: `insn.c` 62–500
Kind: D -/
def insnStage (s : Stream) : ℕ → Insn → Option Insn
  | 0 => insnGetPrefixes s
  | 1 => fun insn => some (insnGetOpcode s insn)
  | 2 => fun insn => some (insnGetModrm s insn)
  | 3 => fun insn => some (insnGetSib s insn)
  | 4 => fun insn => some (insnGetDisplacement s insn)
  | 5 => fun insn => some (insnGetImmediate s insn)
  | _ => some

variable (s : Stream)

/-- `insn_get_prefixes`, with `prefixes.got`.
Source: `insn.c` 62–163
Kind: D -/
def lazyGetPrefixes : Memo Insn → Option (Memo Insn) := demand (insnStage s) 0

/-- `insn_get_opcode`, with `opcode.got`.
Source: `insn.c` 175–212
Kind: D -/
def lazyGetOpcode : Memo Insn → Option (Memo Insn) := demand (insnStage s) 1

/-- `insn_get_modrm`, with `modrm.got`; `insn_get_attribute` is this function.
Source: `insn.c` 222–245; `insn.h` 112–116
Kind: D -/
def lazyGetModrm : Memo Insn → Option (Memo Insn) := demand (insnStage s) 2

/-- `insn_get_sib`, with `sib.got`.
Source: `insn.c` 277–294
Kind: D -/
def lazyGetSib : Memo Insn → Option (Memo Insn) := demand (insnStage s) 3

/-- `insn_get_displacement`, with `displacement.got`.
Source: `insn.c` 305–354
Kind: D -/
def lazyGetDisplacement : Memo Insn → Option (Memo Insn) := demand (insnStage s) 4

/-- `insn_get_immediate`, with `immediate.got`.
Source: `insn.c` 447–500
Kind: D -/
def lazyGetImmediate : Memo Insn → Option (Memo Insn) := demand (insnStage s) 5

/-- Set the length.
Source: `insn.c` 515–516
Kind: D -/
def Insn.setLength (insn : Insn) : Insn := { insn with length := BitVec.ofNat 8 insn.nextByte }

/-- `insn_get_length`. It has no flag: a length of zero counts as not computed.
Source: `insn.c` 509–517
Kind: D -/
def lazyGetLength (x : Memo Insn) : Option (Memo Insn) :=
  if x.val.length ≠ 0 then some x
  else
    (if x.got 5 then some x else lazyGetImmediate s x).map
      fun y => { y with val := y.val.setLength }

/-- `insn_is_avx`: the answer and the state.
Source: `insn.h` 131–136
Kind: D -/
def lazyIsAvx (x : Memo Insn) : Option (Bool × Memo Insn) :=
  (if x.got 0 then some x else lazyGetPrefixes s x).map fun y => (y.val.isAvx, y)

/-- `insn_rip_relative`.
Source: `insn.c` 255–268
Kind: D -/
def lazyRipRelative (x : Memo Insn) : Option (Bool × Memo Insn) :=
  (if x.got 2 then some x else lazyGetModrm s x).map fun y => (y.val.ripRelative, y)

/-- A call to the decoder.
Kind: D -/
inductive Call where
  | prefixes
  | opcode
  | modrm
  | sib
  | displacement
  | immediate
  | length
  | isAvx
  | ripRelative
  deriving DecidableEq, Repr

/-- What a call does to the instruction.
Kind: D -/
def Call.run : Call → Memo Insn → Option (Memo Insn)
  | .prefixes => lazyGetPrefixes s
  | .opcode => lazyGetOpcode s
  | .modrm => lazyGetModrm s
  | .sib => lazyGetSib s
  | .displacement => lazyGetDisplacement s
  | .immediate => lazyGetImmediate s
  | .length => lazyGetLength s
  | .isAvx => fun x => (lazyIsAvx s x).map Prod.snd
  | .ripRelative => fun x => (lazyRipRelative s x).map Prod.snd

/-- Several calls after `insn_init`.
Kind: D -/
def runCalls (cs : List Call) : Option (Memo Insn) :=
  cs.foldlM (fun x c => c.run s x) (Memo.atLevel 0 kernelInsnInit)

/-- The stage that a call asks for.
Kind: D -/
def Call.stage : Call → ℕ
  | .prefixes | .isAvx => 0
  | .opcode => 1
  | .modrm | .ripRelative => 2
  | .sib => 3
  | .displacement => 4
  | .immediate | .length => 5

/-! ## What the stages leave alone -/

variable {s}

/-- The parts of an instruction that stages after `insn_get_prefixes` leave alone.
Kind: D -/
structure SameHead (insn insn' : Insn) : Prop where
  length : insn'.length = insn.length
  vexPrefix : insn'.vexPrefix = insn.vexPrefix

/-- The loop over the legacy prefixes does not set the length.
Kind: L -/
theorem scanPrefixes_length {fuel nb nb' : ℕ} {lb lb' : BitVec 8} {insn insn' : Insn}
    (h : scanPrefixes s fuel insn nb lb = some (insn', nb', lb')) : insn'.length = insn.length := by
  induction fuel generalizing insn nb lb with
  | zero => cases h
  | succ fuel ih =>
      rw [scanPrefixes] at h
      split_ifs at h
      · exact (ih h).trans rfl
      · cases h
        rfl
      · exact (ih h).trans rfl
      · cases h
        rfl

/-- `insn_get_prefixes` does not set the length.
Kind: L -/
theorem insnGetPrefixes_length {insn insn' : Insn} (h : insnGetPrefixes s insn = some insn') :
    insn'.length = insn.length := by
  obtain ⟨⟨scan, nb, lb⟩, hscan, rfl⟩ := Option.map_eq_some_iff.mp h
  have hlast : (scan.setLastPrefix nb lb).length = scan.length := by
    unfold Insn.setLastPrefix
    simp only
    split_ifs <;> rfl
  have hrex : ∀ i : Insn, (insnGetRexPrefix s i).length = i.length := by
    intro i
    unfold insnGetRexPrefix
    simp only
    split_ifs <;> rfl
  have hvex : ∀ i : Insn, (insnGetVexPrefix s i).length = i.length := by
    intro i
    unfold insnGetVexPrefix
    simp only
    split_ifs <;> rfl
  rw [hvex, hrex, hlast, scanPrefixes_length hscan]

/-- The escape bytes leave the length and the VEX prefix alone.
Kind: L -/
theorem insnGetEscapes_sameHead (n : ℕ) (insn : Insn) :
    SameHead insn (insnGetEscapes s n insn) := by
  induction n generalizing insn with
  | zero => exact ⟨rfl, rfl⟩
  | succ n ih =>
      rw [insnGetEscapes]
      split_ifs
      · obtain ⟨hlen, hvex⟩ := ih (insnGetEscape s insn)
        exact ⟨hlen, hvex⟩
      · exact ⟨rfl, rfl⟩

/-- So does `insn_get_opcode`.
Kind: L -/
theorem insnGetOpcode_sameHead (insn : Insn) : SameHead insn (insnGetOpcode s insn) := by
  obtain ⟨hlen, hvex⟩ :
      SameHead (insnGetOpcode1 s insn) (insnGetEscapes s 3 (insnGetOpcode1 s insn)) :=
    insnGetEscapes_sameHead 3 _
  unfold insnGetOpcode
  simp only
  split_ifs
  · exact ⟨rfl, rfl⟩
  · exact ⟨hlen, hvex⟩
  · exact ⟨hlen, hvex⟩

/-- So does `insn_get_modrm`.
Kind: L -/
theorem insnGetModrm_sameHead (insn : Insn) : SameHead insn (insnGetModrm s insn) := by
  unfold insnGetModrm insnGetModrmByte
  simp only
  split_ifs <;> exact ⟨rfl, rfl⟩

/-- The parts that the stages after `insn_get_modrm` leave alone.
Kind: D -/
structure SameModrm (insn insn' : Insn) : Prop extends SameHead insn insn' where
  modrm : insn'.modrm = insn.modrm

/-- An instruction agrees with itself.
Kind: L -/
theorem SameModrm.refl (insn : Insn) : SameModrm insn insn := ⟨⟨rfl, rfl⟩, rfl⟩

/-- Two stages that leave the ModRM byte alone do so together.
Kind: L -/
theorem SameModrm.trans {i j k : Insn} (h : SameModrm i j) (h' : SameModrm j k) :
    SameModrm i k :=
  ⟨⟨h'.length.trans h.length, h'.vexPrefix.trans h.vexPrefix⟩, h'.modrm.trans h.modrm⟩

/-- A stage with two branches leaves it alone if both do.
Kind: L -/
theorem SameModrm.ite {c : Prop} [Decidable c] {i a b : Insn} (ha : SameModrm i a)
    (hb : SameModrm i b) : SameModrm i (if c then a else b) := by
  split_ifs
  · exact ha
  · exact hb

/-- Reading a displacement leaves the ModRM byte alone.
Kind: L -/
theorem readDisplacement_sameModrm (n : ℕ) (insn : Insn) :
    SameModrm insn (readDisplacement n s insn) := ⟨⟨rfl, rfl⟩, rfl⟩

/-- So does reading the first immediate.
Kind: L -/
theorem readImmediate_sameModrm (n : ℕ) (insn : Insn) :
    SameModrm insn (readImmediate n s insn) := ⟨⟨rfl, rfl⟩, rfl⟩

/-- So does reading the second one.
Kind: L -/
theorem readImmediate2_sameModrm (n : ℕ) (insn : Insn) :
    SameModrm insn (readImmediate2 n s insn) := ⟨⟨rfl, rfl⟩, rfl⟩

/-- So does reading both halves of a 64-bit immediate.
Kind: L -/
theorem readImmediates_sameModrm (insn : Insn) :
    SameModrm insn (readImmediate2 4 s (readImmediate 4 s insn)) :=
  (readImmediate_sameModrm 4 insn).trans (readImmediate2_sameModrm 4 _)

/-- So does reading the segment of a far pointer, after stages that do.
Kind: L -/
theorem readSegment_sameModrm {i insn : Insn} (h : SameModrm i insn) :
    SameModrm i (readSegment s insn) := h.trans ⟨⟨rfl, rfl⟩, rfl⟩

/-- `insn_get_sib` leaves the ModRM byte alone.
Kind: L -/
theorem insnGetSib_sameModrm (insn : Insn) : SameModrm insn (insnGetSib s insn) :=
  .ite ⟨⟨rfl, rfl⟩, rfl⟩ (.refl insn)

/-- `insn_get_displacement` leaves the ModRM byte alone.
Kind: L -/
theorem insnGetDisplacement_sameModrm (insn : Insn) :
    SameModrm insn (insnGetDisplacement s insn) := by
  unfold insnGetDisplacement
  refine .ite (.refl insn) (.ite (readDisplacement_sameModrm 1 insn) (.ite ?_ ?_))
  · exact .ite (readDisplacement_sameModrm 2 insn) (.refl insn)
  · exact .ite (readDisplacement_sameModrm 4 insn) (.refl insn)

/-- `__get_moffset` leaves the ModRM byte alone.
Kind: L -/
theorem getMoffset_sameModrm (insn : Insn) : SameModrm insn (getMoffset s insn) := by
  unfold getMoffset
  refine .ite (readImmediate_sameModrm 2 insn) (.ite (readImmediate_sameModrm 4 insn) ?_)
  exact .ite (readImmediates_sameModrm insn) (.refl insn)

/-- `__get_immv32` leaves the ModRM byte alone.
Kind: L -/
theorem getImmv32_sameModrm (insn : Insn) : SameModrm insn (getImmv32 s insn) := by
  unfold getImmv32
  exact .ite (readImmediate_sameModrm 2 insn) (.ite (readImmediate_sameModrm 4 insn) (.refl insn))

/-- `__get_immv` leaves the ModRM byte alone.
Kind: L -/
theorem getImmv_sameModrm (insn : Insn) : SameModrm insn (getImmv s insn) := by
  unfold getImmv
  refine .ite (readImmediate_sameModrm 2 insn) (.ite (readImmediate_sameModrm 4 insn) ?_)
  exact .ite (readImmediates_sameModrm insn) (.refl insn)

/-- `__get_immptr` leaves the ModRM byte alone.
Kind: L -/
theorem getImmptr_sameModrm (insn : Insn) : SameModrm insn (getImmptr s insn) := by
  unfold getImmptr
  refine .ite (.refl insn) (.ite ?_ (.ite ?_ ?_))
  · exact readSegment_sameModrm (readImmediate_sameModrm 2 insn)
  · exact readSegment_sameModrm (readImmediate_sameModrm 4 insn)
  · exact readSegment_sameModrm (.refl insn)

/-- Whichever the first immediate is, reading it leaves the ModRM byte alone.
Kind: L -/
theorem getFirstImmediate_sameModrm (insn : Insn) :
    SameModrm insn (getFirstImmediate s insn) := by
  unfold getFirstImmediate
  refine .ite (readImmediate_sameModrm 1 insn) (.ite (readImmediate_sameModrm 2 insn) ?_)
  refine .ite (readImmediate_sameModrm 4 insn) (.ite (readImmediates_sameModrm insn) ?_)
  refine .ite (getImmptr_sameModrm insn) (.ite (getImmv32_sameModrm insn) ?_)
  exact .ite (getImmv_sameModrm insn) (.refl insn)

/-- `insn_get_immediate` leaves the ModRM byte alone.
Kind: L -/
theorem insnGetImmediate_sameModrm (insn : Insn) : SameModrm insn (insnGetImmediate s insn) := by
  unfold insnGetImmediate
  refine .ite (getMoffset_sameModrm insn) (.ite ?_ (.refl insn))
  have hfirst : SameModrm insn (getFirstImmediate s insn) := getFirstImmediate_sameModrm insn
  exact hfirst.trans (.ite (readImmediate2_sameModrm 1 _) (.refl _))

/-! ## Calls in any order -/

/-- No stage sets the length.
Kind: L -/
theorem insnStage_length {k : ℕ} {insn insn' : Insn} (h : insnStage s k insn = some insn') :
    insn'.length = insn.length := by
  match k with
  | 0 => exact insnGetPrefixes_length h
  | 1 =>
      cases h
      exact (insnGetOpcode_sameHead insn).length
  | 2 =>
      cases h
      exact (insnGetModrm_sameHead insn).length
  | 3 =>
      cases h
      exact (insnGetSib_sameModrm insn).length
  | 4 =>
      cases h
      exact (insnGetDisplacement_sameModrm insn).length
  | 5 =>
      cases h
      exact (insnGetImmediate_sameModrm insn).length
  | _ + 6 =>
      cases h
      rfl

/-- The length stays zero until `insn_get_length` sets it.
Kind: L -/
theorem stages_length {m : ℕ} {insn : Insn}
    (h : stages (insnStage s) 0 m kernelInsnInit = some insn) : insn.length = 0 := by
  induction m generalizing insn with
  | zero =>
      cases h
      rfl
  | succ m ih =>
      obtain ⟨prev, hprev, hstage⟩ := Option.bind_eq_some_iff.mp h
      exact (insnStage_length hstage).trans (ih hprev)

/-- `insn_get_length` right after `insn_init` runs all six stages.
Kind: L -/
theorem insnGetLength_eq_stages (s : Stream) :
    insnGetLength s = (stages (insnStage s) 0 6 kernelInsnInit).map Insn.setLength := by
  simp only [insnGetLength, insnHead, stages, insnStage, Option.bind_some, Option.map_map]
  cases insnGetPrefixes s kernelInsnInit <;> rfl

/-- A call other than `insn_get_length` asks for its stage.
Kind: L -/
theorem Call.run_eq_demand {c : Call} (hc : c ≠ .length) (x : Memo Insn) :
    c.run s x = demand (insnStage s) c.stage x := by
  cases c with
  | length => exact absurd rfl hc
  | isAvx =>
      simp only [Call.run, lazyIsAvx, lazyGetPrefixes, Option.map_map, Call.stage]
      split_ifs with h
      · exact (demand_of_got h).symm
      · exact Option.map_id'
  | ripRelative =>
      simp only [Call.run, lazyRipRelative, lazyGetModrm, Option.map_map, Call.stage]
      split_ifs with h
      · exact (demand_of_got h).symm
      · exact Option.map_id'
  | _ => rfl

/-- Each call asks for one of the six stages.
Kind: L -/
theorem Call.stage_lt (c : Call) : c.stage < 6 := by cases c <;> decide

/-- `insn_get_length`, called after any number of stages, ends where it ends right after
`insn_init`.
Kind: L -/
theorem lazyGetLength_atLevel {m : ℕ} (hm : m ≤ 6) {insn : Insn}
    (h : stages (insnStage s) 0 m kernelInsnInit = some insn) :
    lazyGetLength s (Memo.atLevel m insn) = (insnGetLength s).map (Memo.atLevel 6) := by
  have hdemand : (if (Memo.atLevel m insn).got 5 then some (Memo.atLevel m insn)
      else lazyGetImmediate s (Memo.atLevel m insn)) =
      (stages (insnStage s) 0 6 kernelInsnInit).map (Memo.atLevel 6) := by
    have heq := demand_atLevel h 5
    rw [Nat.max_eq_right (show m ≤ 5 + 1 from hm)] at heq
    split_ifs with hgot
    · rw [← heq]
      exact (demand_of_got hgot).symm
    · exact heq
  have hzero : ¬(Memo.atLevel m insn).val.length ≠ 0 := not_not.mpr (stages_length h)
  rw [lazyGetLength, if_neg hzero, hdemand, insnGetLength_eq_stages, Option.map_map, Option.map_map]
  rfl

/-- Once the length is known, no call changes anything.
Kind: L -/
theorem Call.run_of_length {insn : Insn} (h : insnGetLength s = some insn) (c : Call) :
    c.run s (Memo.atLevel 6 insn) = some (Memo.atLevel 6 insn) := by
  by_cases hc : c = .length
  · subst hc
    have hset : insn.setLength = insn := by
      rw [insnGetLength_eq_stages] at h
      obtain ⟨prev, -, rfl⟩ := Option.map_eq_some_iff.mp h
      rfl
    show lazyGetLength s _ = _
    rw [lazyGetLength]
    split_ifs with hlen hgot
    · rfl
    · show some (Memo.mk insn.setLength _) = _
      rw [hset]
      rfl
    · exact absurd (decide_eq_true (show 5 < 6 by omega)) hgot
  · rw [Call.run_eq_demand hc]
    exact demand_of_got (decide_eq_true c.stage_lt)

/-- Calls get no further than the last stage.
Kind: L -/
theorem level_stage_le (cs : List Call) : level (cs.map Call.stage) ≤ 6 := by
  induction cs with
  | nil => exact Nat.zero_le 6
  | cons c cs ih =>
      rw [List.map_cons, level, List.foldr_cons]
      exact Nat.max_le.mpr ⟨c.stage_lt, ih⟩

/-- Once the length is known, no calls change anything.
Kind: L -/
theorem foldlM_run_of_length {insn : Insn} (h : insnGetLength s = some insn) (cs : List Call) :
    cs.foldlM (fun x c => c.run s x) (Memo.atLevel 6 insn) = some (Memo.atLevel 6 insn) := by
  induction cs with
  | nil => rfl
  | cons c cs ih =>
      rw [List.foldlM_cons, Call.run_of_length h c]
      exact ih

/-- Calls other than `insn_get_length` ask for their stages.
Kind: L -/
theorem foldlM_run_eq_demand {cs : List Call} (h : Call.length ∉ cs) (x : Memo Insn) :
    cs.foldlM (fun x c => c.run s x) x =
      (cs.map Call.stage).foldlM (fun x k => demand (insnStage s) k x) x := by
  induction cs generalizing x with
  | nil => rfl
  | cons c cs ih =>
      have hc : c ≠ .length := fun heq => h (heq ▸ List.mem_cons_self)
      have hcs : Call.length ∉ cs := fun hmem => h (List.mem_cons_of_mem _ hmem)
      rw [List.map_cons, List.foldlM_cons, List.foldlM_cons, Call.run_eq_demand hc]
      exact bind_congr (ih hcs)

/-- Calls other than `insn_get_length` run the stages up to the last one asked for.
Kind: L -/
theorem runCalls_of_noLength {cs : List Call} (h : Call.length ∉ cs) :
    runCalls s cs =
      (stages (insnStage s) 0 (level (cs.map Call.stage)) kernelInsnInit).map
        (Memo.atLevel (level (cs.map Call.stage))) := by
  have hinit : stages (insnStage s) 0 0 kernelInsnInit = some kernelInsnInit := rfl
  rw [runCalls, foldlM_run_eq_demand h, foldlM_demand hinit, Nat.zero_max]

/-- **Any calls give the same instruction**: whatever is asked for, in any order and however often,
the instruction and its flags are those of the stages up to the last one asked for, run once and in
order; if the length was asked for they are those of `insn_get_length` alone. The calls return
exactly when these do.
Source: `insn.c` 41–517; `insn.h` 104–136
Kind: C -/
theorem run_calls (s : Stream) (cs : List Call) :
    runCalls s cs =
      if Call.length ∈ cs then (insnGetLength s).map (Memo.atLevel 6)
      else
        (stages (insnStage s) 0 (level (cs.map Call.stage)) kernelInsnInit).map
          (Memo.atLevel (level (cs.map Call.stage))) := by
  by_cases hmem : Call.length ∈ cs
  · rw [if_pos hmem]
    -- the first request for the length comes after requests for stages; later ones do nothing
    obtain ⟨before, after, rfl, hbefore⟩ := List.eq_append_cons_of_mem hmem
    have hstages := runCalls_of_noLength (s := s) hbefore
    rw [runCalls] at hstages ⊢
    rw [List.foldlM_append, hstages]
    cases hw : stages (insnStage s) 0 (level (before.map Call.stage)) kernelInsnInit with
    | none =>
        rw [insnGetLength_eq_stages, stages_eq_none_of_le (level_stage_le before) hw]
        rfl
    | some w =>
        show (lazyGetLength s (Memo.atLevel _ w)).bind _ = _
        rw [lazyGetLength_atLevel (level_stage_le before) hw]
        cases hlen : insnGetLength s with
        | none => rfl
        | some insn => exact foldlM_run_of_length hlen after
  · rw [if_neg hmem]
    exact runCalls_of_noLength hmem

/-! ## Answers -/

/-- The stages after the first return, and leave the length and the VEX prefix alone.
Kind: L -/
theorem insnStage_sameHead (k : ℕ) (hk : 1 ≤ k) (insn : Insn) :
    ∃ insn', insnStage s k insn = some insn' ∧ SameHead insn insn' := by
  match k with
  | 1 => exact ⟨_, rfl, insnGetOpcode_sameHead insn⟩
  | 2 => exact ⟨_, rfl, insnGetModrm_sameHead insn⟩
  | 3 => exact ⟨_, rfl, (insnGetSib_sameModrm insn).toSameHead⟩
  | 4 => exact ⟨_, rfl, (insnGetDisplacement_sameModrm insn).toSameHead⟩
  | 5 => exact ⟨_, rfl, (insnGetImmediate_sameModrm insn).toSameHead⟩
  | _ + 6 => exact ⟨_, rfl, ⟨rfl, rfl⟩⟩

/-- The stages after the third return, and leave the ModRM byte alone too.
Kind: L -/
theorem insnStage_sameModrm (k : ℕ) (hk : 3 ≤ k) (insn : Insn) :
    ∃ insn', insnStage s k insn = some insn' ∧ SameModrm insn insn' := by
  match k with
  | 3 => exact ⟨_, rfl, insnGetSib_sameModrm insn⟩
  | 4 => exact ⟨_, rfl, insnGetDisplacement_sameModrm insn⟩
  | 5 => exact ⟨_, rfl, insnGetImmediate_sameModrm insn⟩
  | _ + 6 => exact ⟨_, rfl, .refl insn⟩

/-- What is read off after calls that ask for stage `k`, when no later stage changes it.
Kind: L -/
theorem map_runCalls {β : Type} {read : Insn → β} {k : ℕ} (hk : k < 6)
    (hkeep : ∀ j, k + 1 ≤ j → ∀ v, ∃ w, insnStage s j v = some w ∧ read w = read v)
    (hlen : ∀ insn, read insn.setLength = read insn) {cs : List Call}
    (hcs : k + 1 ≤ level (cs.map Call.stage)) :
    (runCalls s cs).map (fun x => read x.val) =
      (stages (insnStage s) 0 (k + 1) kernelInsnInit).map read := by
  rw [run_calls]
  split_ifs with hmem
  · rw [insnGetLength_eq_stages, Option.map_map, Option.map_map,
      ← map_stages_of_le (show k + 1 ≤ 6 from hk) hkeep]
    congr 1
    funext insn
    exact hlen insn
  · rw [Option.map_map, ← map_stages_of_le hcs hkeep]
    rfl

/-- **Answers do not depend on earlier calls**: `insn_is_avx` and `insn_rip_relative` answer after
any calls what they answer right after `insn_init`.
Source: `insn.c` 255–268; `insn.h` 131–136
Kind: C -/
theorem answers_after_calls (s : Stream) (cs : List Call) :
    ((runCalls s cs).bind (lazyIsAvx s)).map Prod.fst =
        ((runCalls s []).bind (lazyIsAvx s)).map Prod.fst ∧
      ((runCalls s cs).bind (lazyRipRelative s)).map Prod.fst =
        ((runCalls s []).bind (lazyRipRelative s)).map Prod.fst := by
  have hrun : ∀ (cs : List Call) (c : Call),
      runCalls s (cs ++ [c]) = (runCalls s cs).bind (c.run s) := by
    intro cs c
    rw [runCalls, List.foldlM_append]
    simp only [List.foldlM_cons, List.foldlM_nil, bind_pure]
    rfl
  have hmem : ∀ (cs : List Call) (c : Call), c.stage + 1 ≤ level ((cs ++ [c]).map Call.stage) := by
    intro cs c
    exact lt_level (List.mem_map_of_mem (List.mem_append_right _ (List.mem_singleton_self c)))
  have havx : ∀ cs, ((runCalls s cs).bind (lazyIsAvx s)).map Prod.fst =
      (stages (insnStage s) 0 1 kernelInsnInit).map Insn.isAvx := by
    intro cs
    have hmap : (runCalls s (cs ++ [.isAvx])).map (fun x => x.val.isAvx) =
        (stages (insnStage s) 0 1 kernelInsnInit).map Insn.isAvx := by
      refine map_runCalls (show 0 < 6 by omega) ?_ (fun _ => rfl) (hmem cs .isAvx)
      intro j hj v
      obtain ⟨w, hw, hsame⟩ := insnStage_sameHead j hj v
      exact ⟨w, hw, by rw [Insn.isAvx, Insn.isAvx, hsame.vexPrefix]⟩
    rw [← hmap, hrun]
    cases runCalls s cs with
    | none => rfl
    | some x =>
        simp only [Option.bind_some, Call.run, lazyIsAvx, Option.map_map]
        rfl
  have hrip : ∀ cs, ((runCalls s cs).bind (lazyRipRelative s)).map Prod.fst =
      (stages (insnStage s) 0 3 kernelInsnInit).map Insn.ripRelative := by
    intro cs
    have hmap : (runCalls s (cs ++ [.ripRelative])).map (fun x => x.val.ripRelative) =
        (stages (insnStage s) 0 3 kernelInsnInit).map Insn.ripRelative := by
      refine map_runCalls (show 2 < 6 by omega) ?_ (fun _ => rfl) (hmem cs .ripRelative)
      intro j hj v
      obtain ⟨w, hw, hsame⟩ := insnStage_sameModrm j hj v
      exact ⟨w, hw, by rw [Insn.ripRelative, Insn.ripRelative, hsame.modrm]⟩
    rw [← hmap, hrun]
    cases runCalls s cs with
    | none => rfl
    | some x =>
        simp only [Option.bind_some, Call.run, lazyRipRelative, Option.map_map]
        rfl
  exact ⟨(havx cs).trans (havx []).symm, (hrip cs).trans (hrip []).symm⟩

end Togpu.X86
