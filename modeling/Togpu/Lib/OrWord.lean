import Mathlib.Data.Nat.Bitwise

/-!
# Words made of flags

A word that is the bitwise or of a list of flags, each of which may carry a small number in a field
of its own. Nothing here names a particular program.

* `orAll` — the word. Every reader `φ` that commutes with the bitwise or can be pushed to the flags
  (`map_orAll`); masking and shifting are such readers (`orHom_field`).
* **Which bits are set** (`and_orAll_ne_zero_iff`): those of some flag.
* **What a field holds** (`orAll_eq_of_agree`): the number of the flags that use the field, if they
  agree.
-/

namespace Togpu.Lib

/-- The bitwise or of a list of words.
Kind: D -/
def orAll (ws : List ℕ) : ℕ := ws.foldr (· ||| ·) 0

@[simp] theorem orAll_nil : orAll [] = 0 := rfl

@[simp] theorem orAll_cons (w : ℕ) (ws : List ℕ) : orAll (w :: ws) = w ||| orAll ws := rfl

/-- A reader that commutes with the bitwise or.
Kind: D -/
structure OrHom (φ : ℕ → ℕ) : Prop where
  /-- Nothing is read off nothing. -/
  zero : φ 0 = 0
  /-- What is read off two words together. -/
  or : ∀ a b, φ (a ||| b) = φ a ||| φ b

/-- Reading a field: mask, then shift.
Kind: L -/
theorem orHom_field (mask shift : ℕ) : OrHom fun w => (w &&& mask) >>> shift where
  zero := by rw [Nat.zero_and, Nat.zero_shiftRight]
  or := by
    intro a b
    rw [Nat.and_or_distrib_right, Nat.shiftRight_or_distrib]

/-- A reader of a word reads its flags.
Kind: L -/
theorem OrHom.map_orAll {φ : ℕ → ℕ} (h : OrHom φ) (ws : List ℕ) :
    φ (orAll ws) = orAll (ws.map φ) := by
  induction ws with
  | nil => exact h.zero
  | cons w ws ih => rw [orAll_cons, h.or, ih, List.map_cons, orAll_cons]

/-- A word is zero iff every part of it is.
Kind: L -/
theorem orAll_eq_zero_iff {ws : List ℕ} : orAll ws = 0 ↔ ∀ w ∈ ws, w = 0 := by
  induction ws with
  | nil => simp
  | cons w ws ih => rw [orAll_cons, Nat.or_eq_zero_iff, ih, List.forall_mem_cons]

/-- **Which bits are set**: those of some flag.
Kind: P -/
theorem and_orAll_ne_zero_iff {ws : List ℕ} {mask : ℕ} :
    orAll ws &&& mask ≠ 0 ↔ ∃ w ∈ ws, w &&& mask ≠ 0 := by
  have hread := (orHom_field mask 0).map_orAll ws
  simp only [Nat.shiftRight_zero] at hread
  rw [hread, ne_eq, orAll_eq_zero_iff]
  simp

/-- **What a field holds**: the number of the flags that use it, if they agree.
Kind: P -/
theorem orAll_eq_of_agree {ws : List ℕ} {n : ℕ} (hagree : ∀ w ∈ ws, w = 0 ∨ w = n) (hn : n ∈ ws) :
    orAll ws = n := by
  induction ws with
  | nil => cases hn
  | cons w ws ih =>
      rw [List.forall_mem_cons] at hagree
      obtain ⟨hw, hws⟩ := hagree
      by_cases hin : n ∈ ws
      · rw [orAll_cons, ih hws hin]
        rcases hw with rfl | rfl
        · exact Nat.zero_or n
        · exact Nat.or_self _
      · obtain rfl : n = w := (List.mem_cons.mp hn).resolve_right hin
        have hzero : orAll ws = 0 := by
          rw [orAll_eq_zero_iff]
          intro v hv
          refine (hws v hv).resolve_right ?_
          rintro rfl
          exact hin hv
        rw [orAll_cons, hzero, Nat.or_zero]

end Togpu.Lib
