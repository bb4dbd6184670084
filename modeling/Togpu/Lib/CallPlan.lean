import Togpu.Lib.Sweep

/-!
# Plans of calls

A traversal calls back at places that depend on what it traverses and not on what the callbacks
do, and stops at the first callback that reports a nonzero number. Such a traversal is the run of a
list of calls.

* `runCalls` — make the calls of a list in order, up to the first that reports a nonzero number.
* `Makes` — a computation is the run of a plan, if there is one.
* `planSweep` — the plan of a sweep, from the plans of its rounds. **A sweep whose rounds are runs
  of their plans is the run of its plan** (`sweep_makes`).
* **What the calls of a sweep report** (`planSweep_reports`): if each round has a plan whose calls
  report on its strides, the sweep has a plan whose calls report on all strides of the range, in
  order.

Nothing here names a particular program.
-/

namespace Togpu.Lib

variable {w : ℕ} {σ κ ρ : Type}

/-- Make the calls in order, up to the first that reports a nonzero number.
Kind: D -/
def runCalls (call : κ → σ → σ × ℤ) : List κ → σ → σ × ℤ
  | [], st => (st, 0)
  | c :: cs, st =>
      let r := call c st
      if r.2 ≠ 0 then r else runCalls call cs r.1

/-- Lists of calls, one after another.
Kind: L -/
theorem runCalls_append (call : κ → σ → σ × ℤ) (cs ds : List κ) (st : σ) :
    runCalls call (cs ++ ds) st =
      if (runCalls call cs st).2 ≠ 0 then runCalls call cs st
      else runCalls call ds (runCalls call cs st).1 := by
  induction cs generalizing st with
  | nil => simp [runCalls]
  | cons c cs ih =>
      simp only [List.cons_append, runCalls]
      by_cases hc : (call c st).2 ≠ 0
      · simp [hc]
      · simp only [if_neg hc]
        exact ih _

/-- The computation is the run of the plan, if there is one.
Kind: D -/
def Makes (call : κ → σ → σ × ℤ) (plan : Option (List κ)) (run : σ → Option (σ × ℤ)) : Prop :=
  ∀ cs, plan = some cs → ∀ st, run st = some (runCalls call cs st)

/-- The plan of a sweep.
Kind: D -/
def planSweep (next : BitVec w → BitVec w → BitVec w)
    (plan : ℕ → BitVec w → BitVec w → Option (List κ)) :
    ℕ → ℕ → BitVec w → BitVec w → Option (List κ)
  | 0, _, _, _ => none
  | fuel + 1, i, addr, stop =>
      (plan i addr (next addr stop)).bind fun cs =>
        if next addr stop = stop then some cs
        else (planSweep next plan fuel (i + 1) (next addr stop) stop).map (cs ++ ·)

section sweeps

variable {next : BitVec w → BitVec w → BitVec w}
  {plan : ℕ → BitVec w → BitVec w → Option (List κ)}

/-- **A sweep whose rounds are runs of their plans is the run of its plan.**
Kind: P -/
theorem sweep_makes {call : κ → σ → σ × ℤ}
    {body : ℕ → BitVec w → BitVec w → σ → Option (σ × ℤ)}
    (hround : ∀ i a b, Makes call (plan i a b) (body i a b)) (fuel i : ℕ) (a stop : BitVec w) :
    Makes call (planSweep next plan fuel i a stop) (sweep next body fuel i a stop) := by
  induction fuel generalizing i a with
  | zero =>
      intro cs hcs
      cases hcs
  | succ fuel ih =>
      intro cs hcs st
      obtain ⟨now, hnow, hrest⟩ := Option.bind_eq_some_iff.mp hcs
      rw [sweep, hround i a _ now hnow st]
      split_ifs at hrest with hstop
      · cases hrest
        dsimp only
        split_ifs with herr
        · rfl
        · rw [not_not] at herr
          rw [← herr]
      · obtain ⟨later, hlater, rfl⟩ := Option.map_eq_some_iff.mp hrest
        dsimp only
        rw [runCalls_append, if_neg hstop, ih _ _ later hlater]
        split_ifs <;> rfl

/-- **What the calls of a sweep report.** `Q i a n` is what is known of round `i` at address `a`
with `n` strides to go. If each round has a plan for `m` strides whose calls report `g` of each of
them, provided `c`, and knows enough for the next round, then `n` rounds have a plan for all `n`
strides.
Kind: P -/
theorem planSweep_reports {c : Prop} {report : κ → List ρ} {g : BitVec w → List ρ} {u : ℕ}
    {Q : ℕ → BitVec w → ℕ → Prop}
    (hround : ∀ i a n, 0 < n → a.toNat + n * u < 2 ^ w → Q i a n →
      ∃ m cs, 0 < m ∧ m ≤ n ∧ next a (a + BitVec.ofNat w (n * u)) = a + BitVec.ofNat w (m * u) ∧
        plan i a (a + BitVec.ofNat w (m * u)) = some cs ∧
        (c → cs.flatMap report = (strides u a m).flatMap g) ∧
        (m < n → Q (i + 1) (a + BitVec.ofNat w (m * u)) (n - m)))
    (hu : 0 < u) {fuel i n : ℕ} {a : BitVec w} (hn : 0 < n) (hfuel : n ≤ fuel)
    (hwrap : a.toNat + n * u < 2 ^ w) (hQ : Q i a n) :
    ∃ cs, planSweep next plan fuel i a (a + BitVec.ofNat w (n * u)) = some cs ∧
      (c → cs.flatMap report = (strides u a n).flatMap g) := by
  induction fuel generalizing i n a with
  | zero => omega
  | succ fuel ih =>
      obtain ⟨m, now, hm, hmn, hnext, hplan, hreport, hrest⟩ := hround i a n hn hwrap hQ
      rw [planSweep, hnext, hplan, Option.bind_some]
      have hmu : m * u ≤ n * u := Nat.mul_le_mul_right u hmn
      by_cases hlast : m = n
      · subst hlast
        exact ⟨now, if_pos rfl, hreport⟩
      · have hlt : m < n := by omega
        have hmu' : m * u < n * u := Nat.mul_lt_mul_of_pos_right hlt hu
        -- the next address is not the end: the range does not wrap
        have hne : a + BitVec.ofNat w (m * u) ≠ a + BitVec.ofNat w (n * u) := by
          intro heq
          have hnat := congrArg BitVec.toNat heq
          rw [toNat_stride (by omega), toNat_stride hwrap] at hnat
          omega
        obtain ⟨r, rfl⟩ : ∃ r, n = m + r := ⟨n - m, by omega⟩
        have hsub : m + r - m = r := by omega
        rw [hsub] at hrest
        have hwrap' : (a + BitVec.ofNat w (m * u)).toNat + r * u < 2 ^ w := by
          rw [toNat_stride (by omega)]
          rw [Nat.add_mul] at hwrap
          omega
        obtain ⟨later, hlater, hrep⟩ := ih (by omega) (by omega) hwrap' (hrest hlt)
        refine ⟨now ++ later, ?_, fun hc => ?_⟩
        · rw [if_neg hne, add_ofNat_add u a m r, hlater, Option.map_some]
        · rw [List.flatMap_append, hreport hc, hrep hc, strides_add, List.flatMap_append]

end sweeps

end Togpu.Lib
