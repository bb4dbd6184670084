import Mathlib.Data.List.Basic
import Mathlib.Logic.Function.Basic

/-!
# Stages run on demand

A value is computed in stages, each of which needs the one before it and may fail. A program keeps a
flag for each stage that has been run; asking for a stage first asks for the one before it, unless
that has been run. Nothing here names a particular program.

* `stages` — the stages from `m` on, run in order.
* `Memo`, `demand` — the value with its flags, and what asking for a stage does.
* **Asking in any order** (`foldlM_demand`): after any requests the value is that of the stages up
  to the highest one asked for, run once and in order.
-/

namespace Togpu.Lib

variable {σ : Type} {stage : ℕ → σ → Option σ}

/-- Run `n` stages, from stage `m` on.
Kind: D -/
def stages (stage : ℕ → σ → Option σ) (m : ℕ) : ℕ → σ → Option σ
  | 0, v => some v
  | n + 1, v => (stages stage m n v).bind (stage (m + n))

/-- The stages of a range, split.
Kind: L -/
theorem stages_add (m i j : ℕ) (v : σ) :
    stages stage m (i + j) v = (stages stage m i v).bind (stages stage (m + i) j) := by
  induction j with
  | zero => simp [stages]
  | succ j ih =>
      rw [← Nat.add_assoc, stages, ih, Option.bind_assoc, ← Nat.add_assoc]
      rfl

/-- A value with a flag for each stage.
Kind: D -/
structure Memo (σ : Type) where
  val : σ
  got : ℕ → Bool

/-- The value after the first `m` stages.
Kind: D -/
def Memo.atLevel (m : ℕ) (v : σ) : Memo σ := ⟨v, fun k => decide (k < m)⟩

/-- Run stage `k` and set its flag.
Kind: D -/
def Memo.run (stage : ℕ → σ → Option σ) (k : ℕ) (x : Memo σ) : Option (Memo σ) :=
  (stage k x.val).map fun v => ⟨v, Function.update x.got k true⟩

/-- Ask for a stage.
Kind: D -/
def demand (stage : ℕ → σ → Option σ) : ℕ → Memo σ → Option (Memo σ)
  | 0, x => if x.got 0 then some x else x.run stage 0
  | k + 1, x =>
      if x.got (k + 1) then some x
      else (if x.got k then some x else demand stage k x).bind (Memo.run stage (k + 1))

/-- The next stage raises the level.
Kind: L -/
theorem run_atLevel (k : ℕ) (v : σ) :
    (Memo.atLevel k v).run stage k = (stage k v).map (Memo.atLevel (k + 1)) := by
  have hgot : Function.update (fun j => decide (j < k)) k true = fun j => decide (j < k + 1) := by
    funext j
    by_cases hj : j = k
    · subst hj
      simp
    · rw [Function.update_of_ne hj]
      exact decide_eq_decide.mpr (by omega)
  rw [Memo.run, Memo.atLevel]
  simp only [hgot]
  rfl

/-- A stage that has run does nothing on demand.
Kind: L -/
theorem demand_of_got {k : ℕ} {x : Memo σ} (h : x.got k = true) : demand stage k x = some x := by
  cases k with
  | zero => rw [demand, if_pos h]
  | succ k => rw [demand, if_pos h]

/-- Asking for a stage that has not been run, by induction on the stage.
Kind: L -/
theorem demand_of_le {m k : ℕ} (h : m ≤ k) (v : σ) :
    demand stage k (Memo.atLevel m v) =
      (stages stage m (k + 1 - m) v).map (Memo.atLevel (k + 1)) := by
  induction k with
  | zero =>
      obtain rfl : m = 0 := by omega
      rw [demand, if_neg (by simp [Memo.atLevel]), run_atLevel]
      rfl
  | succ k ih =>
      rw [demand, if_neg (by simpa [Memo.atLevel] using by omega)]
      by_cases hm : m = k + 1
      · subst hm
        rw [if_pos (by simp [Memo.atLevel]), Option.bind_some, run_atLevel,
          show k + 1 + 1 - (k + 1) = 0 + 1 by omega]
        rfl
      · rw [if_neg (by simpa [Memo.atLevel] using by omega), ih (by omega),
          show k + 1 + 1 - m = (k + 1 - m) + 1 by omega, stages,
          show m + (k + 1 - m) = k + 1 by omega]
        cases stages stage m (k + 1 - m) v with
        | none => rfl
        | some w =>
            rw [Option.map_some, Option.bind_some, Option.bind_some]
            exact run_atLevel (k + 1) w

/-- The number of stages that a list of requests needs.
Kind: D -/
def level (ks : List ℕ) : ℕ := ks.foldr (fun k m => max (k + 1) m) 0

/-- The level of a list is behind each stage in it.
Kind: L -/
theorem lt_level {k : ℕ} {ks : List ℕ} (h : k ∈ ks) : k + 1 ≤ level ks := by
  induction ks with
  | nil => cases h
  | cons j ks ih =>
      rw [level, List.foldr_cons]
      rcases List.mem_cons.mp h with rfl | hmem
      · exact Nat.le_max_left _ _
      · exact Nat.le_trans (ih hmem) (Nat.le_max_right _ _)

/-- Asking for a stage, from the value after the first `m` stages.
Kind: L -/
theorem demand_atLevel {m : ℕ} {init v : σ} (hv : stages stage 0 m init = some v) (k : ℕ) :
    demand stage k (Memo.atLevel m v) =
      (stages stage 0 (max m (k + 1)) init).map (Memo.atLevel (max m (k + 1))) := by
  by_cases h : m ≤ k
  · rw [demand_of_le h, Nat.max_eq_right (by omega)]
    have hadd : stages stage 0 (m + (k + 1 - m)) init = _ := stages_add 0 m (k + 1 - m) init
    rw [show m + (k + 1 - m) = k + 1 by omega, hv, Option.bind_some, Nat.zero_add] at hadd
    rw [hadd]
  · rw [Nat.max_eq_left (by omega), hv, Option.map_some]
    exact demand_of_got (by simpa [Memo.atLevel] using by omega)

/-- If the first stages fail, so does every longer run.
Kind: L -/
theorem stages_eq_none_of_le {m n : ℕ} {init : σ} (h : m ≤ n)
    (hnone : stages stage 0 m init = none) : stages stage 0 n init = none := by
  obtain ⟨j, rfl⟩ := Nat.exists_eq_add_of_le h
  rw [stages_add, hnone, Option.bind_none]

/-- **Asking in any order**: the requests `ks` run the stages up to the highest one asked for, once
and in order; they fail exactly when one of these fails.
Kind: P -/
theorem foldlM_demand {m : ℕ} {init v : σ} (hv : stages stage 0 m init = some v) (ks : List ℕ) :
    ks.foldlM (fun x k => demand stage k x) (Memo.atLevel m v) =
      (stages stage 0 (max m (level ks)) init).map (Memo.atLevel (max m (level ks))) := by
  induction ks generalizing m v with
  | nil =>
      rw [level, List.foldr_nil, Nat.max_zero, hv]
      rfl
  | cons k ks ih =>
      have hmax : max m (level (k :: ks)) = max (max m (k + 1)) (level ks) := by
        rw [Nat.max_assoc]
        rfl
      rw [List.foldlM_cons, demand_atLevel hv, hmax]
      cases hw : stages stage 0 (max m (k + 1)) init with
      | none =>
          rw [stages_eq_none_of_le (Nat.le_max_left _ _) hw]
          rfl
      | some w =>
          rw [Option.map_some]
          exact ih hw

/-- What stages from `m` on neither change nor fail to keep can be read off after `m` stages.
Kind: L -/
theorem map_stages_of_le {β : Type} {m n : ℕ} (h : m ≤ n) {init : σ} {read : σ → β}
    (hkeep : ∀ k, m ≤ k → ∀ v, ∃ w, stage k v = some w ∧ read w = read v) :
    (stages stage 0 n init).map read = (stages stage 0 m init).map read := by
  induction h with
  | refl => rfl
  | @step n hn ih =>
      rw [← ih, stages, Nat.zero_add]
      cases stages stage 0 n init with
      | none => rfl
      | some v =>
          obtain ⟨w, hw, hread⟩ := hkeep n hn v
          rw [Option.bind_some, hw, Option.map_some, Option.map_some, hread]

end Togpu.Lib
