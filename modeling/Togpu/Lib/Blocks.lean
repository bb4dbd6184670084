import Mathlib.Data.List.Perm.Basic

/-!
# Block-wise work on a memory

A memory is a function from positions to values. A kernel is run once for each of a list of thread
numbers; each run replaces the block of `n` values at the thread's base by a function of what it
held. The order of the threads and the functions are arbitrary.

* `readBlock`, `writeBlock` — one block of the memory.
* `launch` — the threads of a list, one after another.
* **What a launch does** (`readBlock_launch`, `launch_frame`): if the blocks do not overlap, every
  block of a thread in the list holds the thread's function of its old content, whatever the order,
  and everything else is as it was.
* **Undoing a launch** (`launch_launch`): a second launch on the same threads, in any order, whose
  functions undo those of the first, restores the memory.
-/

namespace Togpu.Lib

variable {β : Type} {n : ℕ}

/-- The block of `n` values from `a` on.
Kind: D -/
def readBlock (n : ℕ) (mem : ℕ → β) (a : ℕ) : Fin n → β := fun i => mem (a + i)

/-- Replace the block from `a` on.
Kind: D -/
def writeBlock (mem : ℕ → β) (a : ℕ) (b : Fin n → β) : ℕ → β :=
  fun x => if h : a ≤ x ∧ x < a + n then b ⟨x - a, by omega⟩ else mem x

/-- Run a kernel for the threads of a list, one after another.
Kind: D -/
def launch (kernel : ℕ → (ℕ → β) → ℕ → β) (order : List ℕ) (mem : ℕ → β) : ℕ → β :=
  order.foldl (fun m t => kernel t m) mem

/-! ## One block -/

/-- The block written.
Kind: L -/
@[simp]
theorem readBlock_writeBlock (mem : ℕ → β) (a : ℕ) (b : Fin n → β) :
    readBlock n (writeBlock mem a b) a = b := by
  funext i
  simp [readBlock, writeBlock]

/-- What a write does not reach.
Kind: L -/
theorem writeBlock_of_notMem {mem : ℕ → β} {a x : ℕ} {b : Fin n → β}
    (h : ¬ (a ≤ x ∧ x < a + n)) : writeBlock mem a b x = mem x :=
  dif_neg h

/-- A block beside the one written.
Kind: L -/
theorem readBlock_writeBlock_of_disjoint {m : ℕ} {mem : ℕ → β} {a c : ℕ} {b : Fin n → β}
    (h : a + n ≤ c ∨ c + m ≤ a) : readBlock m (writeBlock mem a b) c = readBlock m mem c := by
  funext i
  exact writeBlock_of_notMem (by omega)

/-- Memories that agree on a block and outside it are the same.
Kind: L -/
theorem eq_of_readBlock_eq {mem mem' : ℕ → β} {x : ℕ} {a : ℕ} (hx : a ≤ x ∧ x < a + n)
    (h : readBlock n mem a = readBlock n mem' a) : mem x = mem' x := by
  have hval := congrFun h ⟨x - a, by omega⟩
  simpa [readBlock, Nat.add_sub_cancel' hx.1] using hval

/-! ## A launch -/

section launch

variable {kernel kernel' : ℕ → (ℕ → β) → ℕ → β} {base : ℕ → ℕ} {f g : ℕ → (Fin n → β) → Fin n → β}

/-- Each run of the kernel works on its own block.
Kind: D -/
def BlockKernel (kernel : ℕ → (ℕ → β) → ℕ → β) (base : ℕ → ℕ)
    (f : ℕ → (Fin n → β) → Fin n → β) : Prop :=
  ∀ t mem, kernel t mem = writeBlock mem (base t) (f t (readBlock n mem (base t)))

/-- The blocks of different threads do not overlap.
Kind: D -/
def Apart (n : ℕ) (base : ℕ → ℕ) : Prop :=
  ∀ t u, t ≠ u → base t + n ≤ base u ∨ base u + n ≤ base t

/-- A launch changes nothing outside the blocks of its threads.
Kind: P -/
theorem launch_frame (hk : BlockKernel kernel base f) {order : List ℕ} {x : ℕ}
    (hx : ∀ t ∈ order, ¬ (base t ≤ x ∧ x < base t + n)) (mem : ℕ → β) :
    launch kernel order mem x = mem x := by
  induction order generalizing mem with
  | nil => rfl
  | cons t order ih =>
      have hrest := ih (fun u hu => hx u (List.mem_cons_of_mem t hu)) (kernel t mem)
      have hfirst : kernel t mem x = mem x := by
        rw [hk t mem]
        exact writeBlock_of_notMem (hx t List.mem_cons_self)
      exact hrest.trans hfirst

/-- A launch leaves the block of a thread that is not in its list.
Kind: L -/
theorem readBlock_launch_of_notMem (hk : BlockKernel kernel base f) (hapart : Apart n base)
    {order : List ℕ} {t : ℕ} (ht : t ∉ order) (mem : ℕ → β) :
    readBlock n (launch kernel order mem) (base t) = readBlock n mem (base t) := by
  funext i
  apply launch_frame hk
  intro u hu
  have hne : t ≠ u := fun h => ht (h ▸ hu)
  rcases hapart t u hne with h | h
  · omega
  · omega

/-- **What a launch does to a block**, in any order of the threads.
Kind: P -/
theorem readBlock_launch (hk : BlockKernel kernel base f) (hapart : Apart n base)
    {order : List ℕ} (hnodup : order.Nodup) {t : ℕ} (ht : t ∈ order) (mem : ℕ → β) :
    readBlock n (launch kernel order mem) (base t) = f t (readBlock n mem (base t)) := by
  induction order generalizing mem with
  | nil => exact absurd ht List.not_mem_nil
  | cons u order ih =>
      obtain ⟨hu, hrest⟩ := List.nodup_cons.mp hnodup
      show readBlock n (launch kernel order (kernel u mem)) (base t) = _
      by_cases htu : t = u
      · -- the block's own run: the later ones leave it
        subst htu
        rw [readBlock_launch_of_notMem hk hapart hu, hk t mem, readBlock_writeBlock]
      · -- an earlier run of another thread
        have ht' : t ∈ order := (List.mem_cons.mp ht).resolve_left htu
        rw [ih hrest ht' (kernel u mem), hk u mem,
          readBlock_writeBlock_of_disjoint (hapart u t (Ne.symm htu))]

/-- **Undoing a launch.**
Kind: P -/
theorem launch_launch (hk : BlockKernel kernel base f) (hk' : BlockKernel kernel' base g)
    (hapart : Apart n base) {order order' : List ℕ} (hnodup : order.Nodup)
    (hperm : order'.Perm order) (hundo : ∀ t ∈ order, ∀ b, g t (f t b) = b) (mem : ℕ → β) :
    launch kernel' order' (launch kernel order mem) = mem := by
  funext x
  by_cases hx : ∃ t ∈ order, base t ≤ x ∧ x < base t + n
  · obtain ⟨t, ht, hin⟩ := hx
    apply eq_of_readBlock_eq hin
    rw [readBlock_launch hk' hapart (hperm.nodup_iff.mpr hnodup) (hperm.mem_iff.mpr ht),
      readBlock_launch hk hapart hnodup ht, hundo t ht]
  · have hout : ∀ t ∈ order, ¬ (base t ≤ x ∧ x < base t + n) := fun t ht hin => hx ⟨t, ht, hin⟩
    rw [launch_frame hk' (fun t ht => hout t (hperm.mem_iff.mp ht)), launch_frame hk hout]

end launch

end Togpu.Lib
