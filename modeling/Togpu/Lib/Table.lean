import Mathlib.Logic.Function.Basic

/-!
# Tables of optional entries

A table is a function `κ → Option β`; entries come and go by `Function.update`. Two lemmas read an
entry of an updated table back, with the case split every invariant proof needs; the third tells
keys apart.
-/

namespace Togpu.Lib

variable {κ β : Type} [DecidableEq κ] {f : κ → Option β} {p q : κ} {l m : β}

/-- An entry of a table after one entry is set.
Kind: L -/
theorem update_some_eq_some :
    Function.update f p (some l) q = some m ↔ (q = p ∧ l = m) ∨ (q ≠ p ∧ f q = some m) := by
  by_cases h : q = p
  · subst h
    simp
  · simp [h]

/-- An entry of a table after one entry is cleared.
Kind: L -/
theorem update_none_eq_some :
    Function.update f p none q = some m ↔ q ≠ p ∧ f q = some m := by
  by_cases h : q = p
  · subst h
    simp
  · simp [h]

omit [DecidableEq κ] in
/-- A key with an entry is not one without.
Kind: L -/
theorem ne_of_none_of_some (hp : f p = none) (hq : f q = some m) : q ≠ p := by
  rintro rfl
  rw [hp] at hq
  cases hq

end Togpu.Lib
