import Mathlib.Data.List.Basic

/-!
# Numbering names in the order of their first mention

A table that gives every new name the next number, as programs do that replace names by small
numbers; and association lists, which such tables are. Nothing here names a particular program.

* `Numbering` — the numbers given so far and the next one. That no number is given twice, and that
  numbers are positive and below the next one, are fields: a numbering without these cannot be
  built.
* `Numbering.assign` — the numbering after a mention of a name.
* **Numbers are kept** (`extends_assign`): a later numbering extends an earlier one, so what is
  said with the numbers of an earlier one stays true.
-/

namespace Togpu.Lib

/-! ## Association lists -/

section Assoc

variable {α β : Type} [BEq α] [LawfulBEq α]

/-- The entry of an association list behind one more assignment.
Kind: L -/
theorem lookup_cons_eq_some {a b : α} {v n : β} {l : List (α × β)} :
    ((a, v) :: l).lookup b = some n ↔ (b = a ∧ v = n) ∨ (b ≠ a ∧ l.lookup b = some n) := by
  rw [List.lookup_cons]
  by_cases h : b = a
  · simp [h]
  · rw [beq_false_of_ne h]
    simp [h]

/-- What is looked up is in the list.
Kind: L -/
theorem mem_of_lookup_eq_some {a : α} {b : β} {l : List (α × β)} (h : l.lookup a = some b) :
    (a, b) ∈ l := by
  obtain ⟨l₁, l₂, rfl, -⟩ := List.lookup_eq_some_iff.mp h
  simp

/-- In a list of distinct keys every entry is what its key looks up.
Kind: L -/
theorem lookup_eq_some_of_mem {a : α} {b : β} {l : List (α × β)}
    (hnodup : (l.map Prod.fst).Nodup) (h : (a, b) ∈ l) : l.lookup a = some b := by
  induction l with
  | nil => cases h
  | cons p l ih =>
      obtain ⟨hp, hl⟩ := List.nodup_cons.mp hnodup
      refine lookup_cons_eq_some.mpr ?_
      rcases List.mem_cons.mp h with rfl | hmem
      · exact Or.inl ⟨rfl, rfl⟩
      · refine Or.inr ⟨?_, ih hl hmem⟩
        rintro rfl
        exact hp (List.mem_map.mpr ⟨_, hmem, rfl⟩)

/-- A table printed from its keys.
Kind: L -/
theorem lookup_filterMap (f : α → Option β) (keys : List α) (a : α) :
    (keys.filterMap fun k => (f k).map fun v => (k, v)).lookup a =
      if a ∈ keys then f a else none := by
  induction keys with
  | nil => rfl
  | cons k keys ih =>
      rw [List.filterMap_cons]
      cases hk : f k with
      | none =>
          rw [Option.map_none, ih]
          by_cases hak : a = k
          · subst hak
            simp [hk]
          · simp [hak]
      | some v =>
          rw [Option.map_some, List.lookup_cons, ih]
          by_cases hak : a = k
          · subst hak
            simp [hk]
          · rw [beq_false_of_ne hak]
            simp [hak]

end Assoc

/-! ## Numberings -/

variable {α : Type} [DecidableEq α]

/-- The numbers of the names mentioned so far.
Kind: D -/
structure Numbering (α : Type) [DecidableEq α] where
  /-- The names with their numbers. -/
  ids : List (α × ℕ)
  /-- The number of the next new name. -/
  next : ℕ
  /-- There is a next number. -/
  next_pos : 0 < next
  /-- The numbers given are the positive ones below the next. -/
  bounds : ∀ a n, ids.lookup a = some n → 0 < n ∧ n < next
  /-- No two names have one number. -/
  inj : ∀ a b n, ids.lookup a = some n → ids.lookup b = some n → a = b

namespace Numbering

/-- Nothing has been mentioned; numbers start at 1.
Kind: D -/
def empty : Numbering α := ⟨[], 1, Nat.one_pos, nofun, nofun⟩

/-- The number of a name.
Kind: D -/
def id? (N : Numbering α) (a : α) : Option ℕ := N.ids.lookup a

/-- Give a name the next number.
Kind: D -/
def add (N : Numbering α) (a : α) : Numbering α where
  ids := (a, N.next) :: N.ids
  next := N.next + 1
  next_pos := Nat.succ_pos _
  bounds := by
    intro b n hb
    rcases lookup_cons_eq_some.mp hb with ⟨-, rfl⟩ | ⟨-, hold⟩
    · exact ⟨N.next_pos, Nat.lt_succ_self _⟩
    · obtain ⟨hpos, hlt⟩ := N.bounds b n hold
      exact ⟨hpos, Nat.lt_succ_of_lt hlt⟩
  inj := by
    intro b c n hb hc
    rcases lookup_cons_eq_some.mp hb with ⟨hba, hbn⟩ | ⟨-, hb⟩ <;>
      rcases lookup_cons_eq_some.mp hc with ⟨hca, hcn⟩ | ⟨-, hc⟩
    · exact hba.trans hca.symm
    · exact absurd (N.bounds c n hc).2 (by omega)
    · exact absurd (N.bounds b n hb).2 (by omega)
    · exact N.inj b c n hb hc

/-- The numbering after a mention of `a`.
Kind: D -/
def assign (N : Numbering α) (a : α) : Numbering α := if N.id? a = none then N.add a else N

/-- The numbers of `N` are those of `M` too.
Kind: D -/
def Extends (M N : Numbering α) : Prop := ∀ a n, N.id? a = some n → M.id? a = some n

/-- Nothing added.
Kind: L -/
theorem Extends.refl (N : Numbering α) : N.Extends N := fun _ _ h => h

/-- Added twice.
Kind: L -/
theorem Extends.trans {L M N : Numbering α} (hlm : L.Extends M) (hmn : M.Extends N) :
    L.Extends N := fun a n h => hlm a n (hmn a n h)

variable {N : Numbering α} {a b : α}

/-- What a new number changes.
Kind: L -/
theorem id?_add : (N.add a).id? b = if b = a then some N.next else N.id? b := by
  rw [id?, add, List.lookup_cons]
  by_cases h : b = a
  · simp [h]
  · rw [beq_false_of_ne h, if_neg h]
    rfl

/-- A new name leaves the numbers given.
Kind: L -/
theorem extends_add (hnew : N.id? a = none) : (N.add a).Extends N := by
  intro b n hb
  rw [id?_add, if_neg]
  · exact hb
  · rintro rfl
    rw [hnew] at hb
    cases hb

/-- **Numbers are kept.**
Kind: P -/
theorem extends_assign (N : Numbering α) (a : α) : (N.assign a).Extends N := by
  unfold assign
  split_ifs with hnew
  · exact extends_add hnew
  · exact Extends.refl N

/-- A name that has been mentioned has a number.
Kind: L -/
theorem exists_id?_assign (N : Numbering α) (a : α) : ∃ n, (N.assign a).id? a = some n := by
  unfold assign
  split_ifs with hnew
  · exact ⟨N.next, by rw [id?_add, if_pos rfl]⟩
  · exact Option.ne_none_iff_exists'.mp hnew

/-! ## Several mentions -/

/-- Any number of names leaves the numbers given.
Kind: L -/
theorem extends_foldl_assign (names : List α) (N : Numbering α) :
    (names.foldl assign N).Extends N := by
  induction names generalizing N with
  | nil => exact Extends.refl N
  | cons a names ih => exact (ih (N.assign a)).trans (extends_assign N a)

/-- Every name assigned has a number.
Kind: L -/
theorem exists_id?_foldl_assign {names : List α} (N : Numbering α) (ha : a ∈ names) :
    ∃ n, (names.foldl assign N).id? a = some n := by
  induction names generalizing N with
  | nil => cases ha
  | cons b names ih =>
      rcases List.mem_cons.mp ha with rfl | hmem
      · obtain ⟨n, hn⟩ := exists_id?_assign N a
        exact ⟨n, extends_foldl_assign names _ a n hn⟩
      · exact ih (N.assign b) hmem

end Numbering

end Togpu.Lib
