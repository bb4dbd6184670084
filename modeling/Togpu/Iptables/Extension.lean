import Mathlib.Data.BitVec

/-!
# The iptables extension

`libxt_TOGPU` reads the options of a rule with target `TOGPU` into the `xt_togpu_info` that the
kernel module gets, and prints one back. `iptables` calls `TOGPU_parse` for each option of the
rule, in order, and `TOGPU_check` at the end; a problem ends the program with a message.

`xtables_strtoui` is in the library, of which only the header is at hand. It is a parameter: the
number that a text is, if it is accepted between two bounds.

* `AcceptsInRange`, `ReadsDecimal` — what the extension relies on: an accepted number lies between
  the bounds, and a number between them is read from its decimal text.
* `togpuParse`, `togpuCheck`, `togpuPrint` — the extension's functions.
* `readRule` — the calls for one rule.
* What a rule's options amount to, in every case (`readRule_eq`): the first `--to-gpu` decides,
  and a second one is refused whatever its value.
* **A rule is accepted iff it has one `--to-gpu`, with a number of 32 bits, and that number is the
  data** (`readRule_ok_iff`).
* **What is printed reads back as the same data**, among any other options (`readRule_print`).
-/

namespace Togpu.Iptables

/-! ## Numbers -/

/-- `xtables_strtoui` accepts numbers between its bounds only.
Source: `xtables.h` 425; `libxt_TOGPU.c` 59
Kind: D -/
def AcceptsInRange (xtablesStrtoui : List Char → ℕ → ℕ → Option ℕ) : Prop :=
  ∀ s min max v, xtablesStrtoui s min max = some v → min ≤ v ∧ v ≤ max

/-- `xtables_strtoui` reads a number between its bounds from the number's decimal text.
Source: `xtables.h` 425; `libxt_TOGPU.c` 59
Kind: D -/
def ReadsDecimal (xtablesStrtoui : List Char → ℕ → ℕ → Option ℕ) : Prop :=
  ∀ n min max, min ≤ n → n ≤ max → xtablesStrtoui (Nat.toDigits 10 n) min max = some n

/-- `UINT32_MAX`.
Kind: D -/
def uint32Max : ℕ := 2 ^ 32 - 1

/-! ## The extension -/

variable (xtablesStrtoui : List Char → ℕ → ℕ → Option ℕ)

/-- `struct xt_togpu_info`.
Source: `libxt_TOGPU.c` 24–27; `xt_TOGPU.h` 49–52
Kind: D -/
structure XtTogpuInfo where
  /-- The field `to`: the GPU. -/
  toGpu : BitVec 32
  deriving DecidableEq, Repr

/-- The ways the library ends the program.
Source: `xtables.h` 367–376
Kind: D -/
inductive Problem where
  /-- `XTF_ONLY_ONCE`, with the target and the option. -/
  | onlyOnce (target option : String)
  /-- `XTF_BAD_VALUE`, with the target, the option and its argument. -/
  | badValue (target option : String) (optarg : List Char)
  /-- `PARAMETER_PROBLEM`, with its text. -/
  | parameterProblem (text : String)
  deriving DecidableEq, Repr

/-- `PARAM_TO_GPU`.
Source: `libxt_TOGPU.c` 19–22
Kind: D -/
def paramToGpu : BitVec 32 := 1

/-- `TOGPU_opts`: the options with a required argument, by name, and the character of each.
Source: `libxt_TOGPU.c` 37–41
Kind: D -/
def togpuOpts : List (List Char × Char) := [("to-gpu".toList, '1')]

/-- `TOGPU_parse`: the result, and the flags and the data it leaves. `invert` is not looked at, and
the result is 1 for every option.
Source: `libxt_TOGPU.c` 43–69
Kind: D -/
def togpuParse (c : Char) (optarg : List Char) (_invert : Bool) (flags : BitVec 32)
    (info : XtTogpuInfo) : Except Problem (ℤ × BitVec 32 × XtTogpuInfo) :=
  if c = '1' then
    if flags &&& paramToGpu ≠ 0 then .error (.onlyOnce "TOGPU" "--to-gpu")
    else match xtablesStrtoui optarg 0 uint32Max with
      | none => .error (.badValue "TOGPU" "--to-gpu" optarg)
      | some value => .ok (1, flags ||| paramToGpu, ⟨BitVec.ofNat 32 value⟩)
  else .ok (1, flags, info)

/-- `TOGPU_check`.
Source: `libxt_TOGPU.c` 71–77
Kind: D -/
def togpuCheck (flags : BitVec 32) : Except Problem Unit :=
  if flags &&& paramToGpu = 0 then
    .error (.parameterProblem "TOGPU: You must specify destination GPU")
  else .ok ()

/-- `TOGPU_print`.
Source: `libxt_TOGPU.c` 79–87
Kind: D -/
def togpuPrint (info : XtTogpuInfo) : List Char :=
  " --to-gpu=".toList ++ Nat.toDigits 10 info.toGpu.toNat

/-! ## Rules -/

/-- An option as `getopt_long` hands it over.
Kind: D -/
structure RuleOption where
  /-- Its character. -/
  c : Char
  /-- Its argument. -/
  optarg : List Char
  /-- Whether a `!` stands before it. -/
  invert : Bool
  deriving DecidableEq, Repr

/-- One option of a rule, with the flags and the data of those before it.
Kind: D -/
def readOption (state : BitVec 32 × XtTogpuInfo) (o : RuleOption) :
    Except Problem (BitVec 32 × XtTogpuInfo) :=
  (togpuParse xtablesStrtoui o.c o.optarg o.invert state.1 state.2).map Prod.snd

/-- The calls for one rule: the options in order from no flags, then the check.
Kind: D -/
def readRule (info : XtTogpuInfo) (options : List RuleOption) : Except Problem XtTogpuInfo := do
  let state ← options.foldlM (readOption xtablesStrtoui) (0, info)
  togpuCheck state.1
  return state.2

/-- A word `--name=argument`, as `getopt_long` reads it with `TOGPU_opts`.
Kind: D -/
def getoptLong : List Char → Option RuleOption
  | '-' :: '-' :: word =>
      match word.dropWhile (· ≠ '=') with
      | _ :: optarg =>
          (togpuOpts.lookup (word.takeWhile (· ≠ '='))).map fun c => ⟨c, optarg, false⟩
      | [] => none
  | _ => none

/-! ## What a rule amounts to -/

variable {xtablesStrtoui}

/-- An option other than `--to-gpu` is passed over.
Source: `libxt_TOGPU.c` 68
Kind: L -/
theorem readOption_of_other {o : RuleOption} (hc : o.c ≠ '1') (state : BitVec 32 × XtTogpuInfo) :
    readOption xtablesStrtoui state o = .ok state := by
  rw [readOption, togpuParse, if_neg hc]
  rfl

/-- A second `--to-gpu` is refused.
Source: `libxt_TOGPU.c` 57
Kind: L -/
theorem readOption_of_set {o : RuleOption} (hc : o.c = '1') (info : XtTogpuInfo) :
    readOption xtablesStrtoui (paramToGpu, info) o =
      .error (.onlyOnce "TOGPU" "--to-gpu") := by
  have hset : paramToGpu &&& paramToGpu ≠ 0 := by decide
  rw [readOption, togpuParse, if_pos hc, if_pos hset]
  rfl

/-- The first `--to-gpu`.
Source: `libxt_TOGPU.c` 58–65
Kind: L -/
theorem readOption_of_first {o : RuleOption} (hc : o.c = '1') (info : XtTogpuInfo) :
    readOption xtablesStrtoui (0, info) o =
      match xtablesStrtoui o.optarg 0 uint32Max with
      | none => .error (.badValue "TOGPU" "--to-gpu" o.optarg)
      | some value => .ok (paramToGpu, ⟨BitVec.ofNat 32 value⟩) := by
  have hclear : ¬(0 : BitVec 32) &&& paramToGpu ≠ 0 := by decide
  have hadd : (0 : BitVec 32) ||| paramToGpu = paramToGpu := by decide
  rw [readOption, togpuParse, if_pos hc, if_neg hclear]
  cases xtablesStrtoui o.optarg 0 uint32Max with
  | none => rfl
  | some value =>
      simp only [hadd]
      rfl

/-- After the first `--to-gpu`, the options that are left are passed over if there is no other.
Kind: L -/
theorem foldlM_readOption_of_set (info : XtTogpuInfo) (options : List RuleOption) :
    options.foldlM (readOption xtablesStrtoui) (paramToGpu, info) =
      if options.filter (·.c = '1') = [] then .ok (paramToGpu, info)
      else .error (.onlyOnce "TOGPU" "--to-gpu") := by
  induction options with
  | nil => rfl
  | cons o options ih =>
      rw [List.foldlM_cons]
      by_cases hc : o.c = '1'
      · rw [readOption_of_set hc, if_neg (by simp [hc])]
        rfl
      · rw [readOption_of_other hc, List.filter_cons_of_neg (by simp [hc]), ← ih]
        rfl

/-- **What the options of a rule amount to**, in every case: without `--to-gpu` the check complains;
the first `--to-gpu` is refused if its argument is no number of 32 bits; a second one is refused,
whatever its argument; else the data is the number. All other options are passed over.
Source: `libxt_TOGPU.c` 43–77
Kind: P
Fidelity: exact -/
theorem readRule_eq (info : XtTogpuInfo) (options : List RuleOption) :
    readRule xtablesStrtoui info options =
      match options.filter (·.c = '1') with
      | [] => .error (.parameterProblem "TOGPU: You must specify destination GPU")
      | o :: rest =>
          match xtablesStrtoui o.optarg 0 uint32Max with
          | none => .error (.badValue "TOGPU" "--to-gpu" o.optarg)
          | some value =>
              if rest = [] then .ok ⟨BitVec.ofNat 32 value⟩
              else .error (.onlyOnce "TOGPU" "--to-gpu") := by
  have hset : togpuCheck paramToGpu = .ok () := if_neg (by decide)
  induction options with
  | nil =>
      have hclear : togpuCheck 0 =
          .error (.parameterProblem "TOGPU: You must specify destination GPU") := if_pos (by decide)
      simp only [readRule, List.foldlM_nil, pure_bind, hclear]
      rfl
  | cons o options ih =>
      rw [readRule, List.foldlM_cons]
      by_cases hc : o.c = '1'
      · rw [List.filter_cons_of_pos (by simp [hc]), readOption_of_first hc]
        cases hv : xtablesStrtoui o.optarg 0 uint32Max with
        | none =>
            simp only [hv]
            rfl
        | some value =>
            have hrest := @foldlM_readOption_of_set xtablesStrtoui ⟨BitVec.ofNat 32 value⟩ options
            simp only [hv]
            change (options.foldlM (readOption xtablesStrtoui)
              (paramToGpu, ⟨BitVec.ofNat 32 value⟩) >>= _) = _
            rw [hrest]
            split_ifs
            · simp only [bind, Except.bind]
              rw [hset]
              rfl
            · rfl
      · rw [readOption_of_other hc, List.filter_cons_of_neg (by simp [hc])]
        exact ih

/-- **A rule is accepted iff exactly one of its options is `--to-gpu` and its argument is a number
of 32 bits, which is then the data**, untruncated and whatever the data was before.
Source: `libxt_TOGPU.c` 43–77
Kind: P
Fidelity: exact
Hyps: (a) `xtables_strtoui` accepts numbers between its bounds only -/
theorem readRule_ok_iff (hrange : AcceptsInRange xtablesStrtoui) (before info : XtTogpuInfo)
    (options : List RuleOption) :
    readRule xtablesStrtoui before options = .ok info ↔
      ∃ o, options.filter (·.c = '1') = [o] ∧
        xtablesStrtoui o.optarg 0 uint32Max = some info.toGpu.toNat := by
  rw [readRule_eq]
  cases hf : options.filter (·.c = '1') with
  | nil => simp
  | cons o rest =>
      cases hv : xtablesStrtoui o.optarg 0 uint32Max with
      | none =>
          simp only [hv]
          refine iff_of_false (by simp) ?_
          rintro ⟨_, heq, hval⟩
          obtain ⟨rfl, -⟩ := List.cons.inj heq
          rw [hv] at hval
          cases hval
      | some value =>
          have hlt : value < 2 ^ 32 := Nat.lt_of_le_pred (by decide) (hrange _ _ _ _ hv).2
          simp only [hv]
          constructor
          · intro h
            split_ifs at h with hrest
            cases h
            refine ⟨o, by rw [hrest], ?_⟩
            rw [hv, BitVec.toNat_ofNat, Nat.mod_eq_of_lt hlt]
          · rintro ⟨_, heq, hval⟩
            obtain ⟨rfl, hrest⟩ := List.cons.inj heq
            rw [hv, Option.some.injEq] at hval
            rw [if_pos hrest, hval, BitVec.ofNat_toNat, BitVec.setWidth_eq]

/-- A reading of numbers that knows decimal texts only, those that `Nat.toDigits` writes. On these
it is that of the library.
Kind: D -/
def decimalStrtoui (s : List Char) (min max : ℕ) : Option ℕ :=
  let n := Nat.ofDigitChars 10 s 0
  if s = Nat.toDigits 10 n ∧ min ≤ n ∧ n ≤ max then some n else none

/-- It accepts numbers between its bounds only.
Kind: L -/
theorem acceptsInRange_decimalStrtoui : AcceptsInRange decimalStrtoui := by
  intro s min max v h
  simp only [decimalStrtoui] at h
  split_ifs at h with hin
  cases h
  exact hin.2

/-- It reads decimal texts.
Kind: L -/
theorem readsDecimal_decimalStrtoui : ReadsDecimal decimalStrtoui := by
  intro n min max hmin hmax
  have hvalue : Nat.ofDigitChars 10 (Nat.toDigits 10 n) 0 = n :=
    Nat.ofDigitChars_toDigits (by decide) (by decide)
  simp only [decimalStrtoui, hvalue]
  rw [if_pos ⟨trivial, hmin, hmax⟩]

/-- The rule `--to-gpu=7`, with another option before it.
Kind: C -/
theorem readRule_ok_seven :
    readRule decimalStrtoui ⟨0⟩ [⟨'2', [], true⟩, ⟨'1', "7".toList, false⟩] = .ok ⟨7⟩ :=
  (readRule_ok_iff acceptsInRange_decimalStrtoui ⟨0⟩ ⟨7⟩ _).mpr
    ⟨⟨'1', "7".toList, false⟩, by decide, by decide⟩

/-! ## Printing and reading back -/

/-- **What is printed reads back as the same data.** The text of `TOGPU_print` is one option, and a
rule with that option among others is accepted with the printed data iff none of the others is
`--to-gpu`.
Source: `libxt_TOGPU.c` 43–87
Kind: P
Fidelity: exact
Hyps: (a) `xtables_strtoui` reads a number from its decimal text -/
theorem readRule_print (hdecimal : ReadsDecimal xtablesStrtoui) (info : XtTogpuInfo) :
    ∃ o, getoptLong ((togpuPrint info).dropWhile (· = ' ')) = some o ∧
      ∀ before options options',
        readRule xtablesStrtoui before (options ++ o :: options') = .ok info ↔
          ∀ x ∈ options ++ options', x.c ≠ '1' := by
  refine ⟨⟨'1', Nat.toDigits 10 info.toGpu.toNat, false⟩, rfl, fun before options options' => ?_⟩
  have hle : info.toGpu.toNat ≤ uint32Max := Nat.le_pred_of_lt info.toGpu.isLt
  have hread := hdecimal info.toGpu.toNat 0 uint32Max (Nat.zero_le _) hle
  have hnone : ∀ l : List RuleOption, l.filter (·.c = '1') = [] ↔ ∀ x ∈ l, x.c ≠ '1' := by
    simp [List.filter_eq_nil_iff]
  rw [readRule_eq, List.filter_append, List.filter_cons_of_pos (by simp), ← hnone,
    List.filter_append, List.append_eq_nil_iff]
  cases hf : options.filter (·.c = '1') with
  | nil =>
      simp only [List.nil_append, hread, true_and]
      split_ifs with hrest
      · rw [BitVec.ofNat_toNat, BitVec.setWidth_eq]
        exact iff_of_true rfl hrest
      · exact iff_of_false (by simp) hrest
  | cons x rest =>
      refine iff_of_false ?_ (by simp)
      simp only [List.cons_append]
      cases xtablesStrtoui x.optarg 0 uint32Max with
      | none => simp
      | some value => simp

/-- The data 7, printed, and read back behind another option.
Kind: C -/
theorem readRule_print_seven :
    ∃ o, getoptLong ((togpuPrint ⟨7⟩).dropWhile (· = ' ')) = some o ∧
      readRule decimalStrtoui ⟨0⟩ [⟨'2', [], true⟩, o] = .ok ⟨7⟩ := by
  obtain ⟨o, hprint, hread⟩ := readRule_print readsDecimal_decimalStrtoui ⟨7⟩
  exact ⟨o, hprint, (hread ⟨0⟩ [⟨'2', [], true⟩] []).mpr (by simp)⟩

end Togpu.Iptables
