import Mathlib.Data.List.Iterate

/-!
# Searches by iteration

A loop `while (!stop) step` over a state, with a bound on the number of times its test is made.
Nothing here names a particular program.

* `seek stop step n s` — the state the loop ends in, with the states its test was made in, or
  `none` if `n` tests are not enough.
* **What it finds** (`map_fst_seek`): the first of the iterates of `step` that meets `stop`. A
  search order that is known as a list is thereby a search in that list (`map_fst_seek_of_iterate`),
  and the bound no longer matters once the list holds an answer.
* **The invariant rule** (`seek_invariant`): what `step` preserves while the loop runs holds in
  every state the test is made in.
-/

namespace Togpu.Lib

variable {σ : Type}

/-- Run `step` until `stop` holds, for at most `n` tests.
Kind: D -/
def seek (stop : σ → Prop) [DecidablePred stop] (step : σ → σ) : ℕ → σ → Option (σ × List σ)
  | 0, _ => none
  | n + 1, s =>
      if stop s then some (s, [s])
      else (seek stop step n (step s)).map fun r => (r.1, s :: r.2)

variable {stop : σ → Prop} [DecidablePred stop] {step : σ → σ}

/-- The search ends where it stops.
Kind: L -/
theorem seek_of_stop {s : σ} (h : stop s) (n : ℕ) :
    seek stop step (n + 1) s = some (s, [s]) := if_pos h

/-- The search goes on where it does not stop.
Kind: L -/
theorem seek_of_not_stop {s : σ} (h : ¬stop s) (n : ℕ) :
    seek stop step (n + 1) s =
      (seek stop step n (step s)).map fun r => (r.1, s :: r.2) := if_neg h

/-- **A loop is a search**: it ends in the first iterate of its step that meets its test.
Kind: P -/
theorem map_fst_seek (n : ℕ) (s : σ) :
    (seek stop step n s).map Prod.fst = (List.iterate step s n).find? fun t => decide (stop t) := by
  induction n generalizing s with
  | zero => rfl
  | succ n ih =>
      rw [List.iterate, List.find?_cons]
      by_cases h : stop s
      · simp [seek_of_stop h, h]
      · rw [seek_of_not_stop h, Option.map_map, decide_eq_false h]
        exact ih (step s)

/-- If the first `m` iterates are known and hold an answer, every larger bound finds that answer.
Kind: L -/
theorem map_fst_seek_of_iterate {s t : σ} {order : List σ}
    (horder : List.iterate step s order.length = order)
    (hfind : (order.find? fun u => decide (stop u)) = some t) {n : ℕ} (hn : order.length ≤ n) :
    (seek stop step n s).map Prod.fst = some t := by
  obtain ⟨k, rfl⟩ := Nat.exists_eq_add_of_le hn
  rw [map_fst_seek, List.iterate_add, horder, List.find?_append, hfind, Option.some_or]

/-- **The invariant rule.** What holds at the start and is preserved by every round of the loop
holds in every state the test is made in.
Kind: P -/
theorem seek_invariant {I : σ → Prop} (hstep : ∀ s, I s → ¬stop s → I (step s)) {n : ℕ} {s t : σ}
    {visited : List σ} (h : seek stop step n s = some (t, visited)) (hs : I s) :
    I t ∧ ∀ u ∈ visited, I u := by
  induction n generalizing s visited with
  | zero => cases h
  | succ n ih =>
      by_cases hstop : stop s
      · rw [seek_of_stop hstop] at h
        cases h
        exact ⟨hs, by simpa using hs⟩
      · rw [seek_of_not_stop hstop] at h
        obtain ⟨⟨t', rest⟩, hrest, hr⟩ := Option.map_eq_some_iff.mp h
        cases hr
        obtain ⟨ht, hvisited⟩ := ih hrest (hstep s hs hstop)
        refine ⟨ht, ?_⟩
        intro u hu
        rcases List.mem_cons.mp hu with rfl | hu
        · exact hs
        · exact hvisited u hu

end Togpu.Lib
