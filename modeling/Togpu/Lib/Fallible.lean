import Mathlib.Data.List.Basic

/-!
# Runs that may fail

A run of a step function that may fail with an error, over a list of inputs. Nothing here names a
particular program.

* `bind_eq_ok`, `foldlM_cons_eq_ok`, `foldlM_append_eq_ok` — a run that does not fail, taken apart.
* **What every step keeps** (`foldlM_invariant`): an invariant of the steps holds after the run.
-/

namespace Togpu.Lib

variable {ε α β : Type}

/-- A sequence succeeds iff both parts do.
Kind: L -/
theorem bind_eq_ok {x : Except ε α} {f : α → Except ε β} {b : β} :
    x >>= f = .ok b ↔ ∃ a, x = .ok a ∧ f a = .ok b := by
  cases x with
  | error e =>
      constructor
      · intro h
        cases h
      · rintro ⟨a, h, -⟩
        cases h
  | ok a =>
      constructor
      · exact fun h => ⟨a, rfl, h⟩
      · rintro ⟨a', h, hf⟩
        cases h
        exact hf

variable {step : β → α → Except ε β} {s t : β}

/-- A fold succeeds iff its first step and the rest do.
Kind: L -/
theorem foldlM_cons_eq_ok {a : α} {as : List α} :
    (a :: as).foldlM step s = .ok t ↔ ∃ u, step s a = .ok u ∧ as.foldlM step u = .ok t := by
  rw [List.foldlM_cons, bind_eq_ok]

/-- A fold over two lists succeeds iff the folds over each do.
Kind: L -/
theorem foldlM_append_eq_ok {as bs : List α} :
    (as ++ bs).foldlM step s = .ok t ↔
      ∃ u, as.foldlM step s = .ok u ∧ bs.foldlM step u = .ok t := by
  rw [List.foldlM_append, bind_eq_ok]

/-- **What every step keeps**, a run keeps. The invariant may speak of the inputs read so far.
Kind: P -/
theorem foldlM_invariant (I : List α → β → Prop)
    (hstep : ∀ seen a u v, I seen u → step u a = .ok v → I (seen ++ [a]) v) (seen : List α)
    {as : List α} (hs : I seen s) (hrun : as.foldlM step s = .ok t) : I (seen ++ as) t := by
  induction as generalizing s seen with
  | nil =>
      cases hrun
      rwa [List.append_nil]
  | cons a as ih =>
      obtain ⟨u, hu, hrest⟩ := foldlM_cons_eq_ok.mp hrun
      have := ih (seen ++ [a]) (hstep seen a s u hs hu) hrest
      rwa [List.append_assoc] at this

end Togpu.Lib
