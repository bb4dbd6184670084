import Togpu.Gpu.Rounds

/-!
# Blocks of the text

The kernels read and write a block of 16 bytes as four big-endian words. What they do to the text
is said here once, as the replacement of a block by a function of its content.

* `wordsOf`, `ofWords` — a block and its words; `wordsAt`, `putWords` — the four `GETU32` and the
  four `PUTU32` of a kernel.
* **Reading and writing four words** is reading and writing a block (`wordsAt_eq`,
  `putWords_eq`).
* `encBlock`, `decBlock` — the block functions of the two listings, and **the cipher they are** for
  10, 12 or 14 rounds (`encBlock_eq_cipher`, `decBlock_encBlock`).
-/

namespace Togpu.Gpu

open Togpu.Lib Togpu.Lib.Fips197

/-! ## Words in memory -/

/-- `GETU32` and `PUTU32` turn the bytes of a word around.
Kind: L -/
theorem wordByte_swapU32 (v : BitVec 32) (r : Fin 4) :
    wordByte (swapU32 v) r = v.extractLsb' (8 * r) 8 := by
  have hlow : ∀ j, j + 8 ≤ 32 → ((0 : BitVec 32) ++ v).extractLsb' j 8 = v.extractLsb' j 8 := by
    intro j hj
    apply BitVec.eq_of_getLsbD_eq
    intro i hi
    have hbelow : j + i < 32 := by omega
    simp only [BitVec.getLsbD_extractLsb', BitVec.getLsbD_append, hbelow, if_true]
  simp only [swapU32, bytePerm, wordByte_wordOf]
  fin_cases r
  · exact hlow 0 (by decide)
  · exact hlow 8 (by decide)
  · exact hlow 16 (by decide)
  · exact hlow 24 (by decide)

/-- Turning around is additive.
Kind: L -/
theorem swapU32_xor (v w : BitVec 32) : swapU32 (v ^^^ w) = swapU32 v ^^^ swapU32 w := by
  apply word_ext
  intro r
  simp only [wordByte_xor, wordByte_swapU32]
  exact BitVec.extractLsb'_xor

/-- Turning around twice.
Kind: L -/
@[simp]
theorem swapU32_swapU32 (v : BitVec 32) : swapU32 (swapU32 v) = v := by
  apply word_ext
  intro r
  rw [wordByte_swapU32]
  fin_cases r
  · exact wordByte_swapU32 v 3
  · exact wordByte_swapU32 v 2
  · exact wordByte_swapU32 v 1
  · exact wordByte_swapU32 v 0

/-- `GETU32` reads big-endian.
Kind: L -/
theorem getU32_eq (p : Text) (a : ℕ) :
    getU32 p a = wordOf (p a) (p (a + 1)) (p (a + 2)) (p (a + 3)) := by
  apply word_ext
  intro r
  rw [getU32, wordByte_swapU32, wordByte_wordOf]
  fin_cases r
  · exact wordByte_wordOf _ _ _ _ 3
  · exact wordByte_wordOf _ _ _ _ 2
  · exact wordByte_wordOf _ _ _ _ 1
  · exact wordByte_wordOf _ _ _ _ 0

/-- A load is `GETU32` turned around.
Kind: L -/
theorem loadU32_eq (p : Text) (a : ℕ) : loadU32 p a = swapU32 (getU32 p a) :=
  (swapU32_swapU32 _).symm

/-- A store is `PUTU32` of the word turned around.
Kind: L -/
theorem storeU32_eq (p : Text) (a : ℕ) (v : BitVec 32) :
    storeU32 p a v = putU32 p a (swapU32 v) := by
  rw [putU32, swapU32_swapU32]

/-- `PUTU32` writes big-endian.
Kind: L -/
theorem putU32_apply (p : Text) (a : ℕ) (v : BitVec 32) (x : ℕ) :
    putU32 p a v x = if h : a ≤ x ∧ x < a + 4 then wordByte v ⟨x - a, by omega⟩ else p x := by
  simp only [putU32, storeU32, storeBytes]
  split_ifs with h
  · have hswap := wordByte_swapU32 (swapU32 v) ⟨x - a, by omega⟩
    rw [swapU32_swapU32] at hswap
    exact hswap.symm
  · rfl

/-- `GETU32` beside a `PUTU32`.
Kind: L -/
theorem getU32_putU32_of_disjoint {p : Text} {a c : ℕ} {v : BitVec 32}
    (h : a + 4 ≤ c ∨ c + 4 ≤ a) : getU32 (putU32 p a v) c = getU32 p c := by
  have hout : ∀ j < 4, putU32 p a v (c + j) = p (c + j) := by
    intro j hj
    rw [putU32_apply, dif_neg (by omega)]
  simp only [getU32_eq]
  rw [hout 1 (by decide), hout 2 (by decide), hout 3 (by decide)]
  have hzero := hout 0 (by decide)
  simp only [add_zero] at hzero
  rw [hzero]

/-! ## A block as four words -/

/-- The words of a block.
Kind: D -/
def wordsOf (b : Block) : Words := fun c =>
  wordOf (b ⟨4 * c, by omega⟩) (b ⟨4 * c + 1, by omega⟩) (b ⟨4 * c + 2, by omega⟩)
    (b ⟨4 * c + 3, by omega⟩)

/-- The block of four words.
Kind: D -/
def ofWords (s : Words) : Block := ofState (stateOf s)

/-- The four `GETU32` of a kernel.
Kind: D -/
def wordsAt (p : Text) (a : ℕ) : Words := fun c => getU32 p (a + 4 * c)

/-- The four `PUTU32` of a kernel.
Kind: D -/
def putWords (p : Text) (a : ℕ) (s : Words) : Text :=
  putU32 (putU32 (putU32 (putU32 p a (s 0)) (a + 4) (s 1)) (a + 8) (s 2)) (a + 12) (s 3)

/-- The state of a block's words.
Kind: L -/
theorem stateOf_wordsOf (b : Block) : stateOf (wordsOf b) = toState b := by
  funext r c
  simp only [stateOf, wordsOf, wordByte_wordOf, toState]
  fin_cases r <;> simp [add_comm]

/-- A block's words give the block.
Kind: L -/
@[simp]
theorem ofWords_wordsOf (b : Block) : ofWords (wordsOf b) = b := by
  rw [ofWords, stateOf_wordsOf, ofState_toState]

/-- Different words give different blocks.
Kind: L -/
theorem ofWords_injective : Function.Injective ofWords :=
  (Function.LeftInverse.injective toState_ofState).comp stateOf_injective

/-- **Reading four words** is reading a block.
Kind: P -/
theorem wordsAt_eq (p : Text) (a : ℕ) : wordsAt p a = wordsOf (readBlock 16 p a) := by
  funext c
  simp only [wordsAt, wordsOf, getU32_eq, readBlock, add_assoc]

/-- **Writing four words** is writing a block.
Kind: P -/
theorem putWords_eq (p : Text) (a : ℕ) (s : Words) :
    putWords p a s = writeBlock p a (ofWords s) := by
  funext x
  simp only [putWords, putU32_apply, writeBlock, ofWords, ofState, stateOf]
  by_cases hx : a ≤ x ∧ x < a + 16
  · -- byte `r` of word `c` is byte `4 * c + r` of the block
    have hbyte : ∀ c r : Fin 4, x = a + 4 * c + r →
        wordByte (s c) r = wordByte (s ⟨(x - a) / 4, by omega⟩) ⟨(x - a) % 4, by omega⟩ := by
      intro c r hx'
      have hc : (⟨(x - a) / 4, by omega⟩ : Fin 4) = c := Fin.ext (by simp only; omega)
      have hr : (⟨(x - a) % 4, by omega⟩ : Fin 4) = r := Fin.ext (by simp only; omega)
      rw [hc, hr]
    rw [dif_pos hx]
    rcases (by omega : x < a + 4 ∨ a + 4 ≤ x ∧ x < a + 8 ∨ a + 8 ≤ x ∧ x < a + 12 ∨ a + 12 ≤ x)
      with h | h | h | h
    · rw [dif_neg (by omega), dif_neg (by omega), dif_neg (by omega), dif_pos (by omega)]
      exact hbyte 0 _ (by simp; omega)
    · rw [dif_neg (by omega), dif_neg (by omega), dif_pos (by omega)]
      exact hbyte 1 _ (by simp; omega)
    · rw [dif_neg (by omega), dif_pos (by omega)]
      exact hbyte 2 _ (by simp; omega)
    · rw [dif_pos (by omega)]
      exact hbyte 3 _ (by simp; omega)
  · rw [dif_neg (by omega), dif_neg (by omega), dif_neg (by omega), dif_neg (by omega),
      dif_neg hx]

/-! ## The block functions -/

/-- What the encryption listing makes of a block.
Kind: D -/
def encBlock (rk : ℕ → BitVec 32) (nrounds : ℕ) (b : Block) : Block :=
  ofWords (teWords rk nrounds (addWords (wordsOf b) (keyWords rk 0)))

/-- What the decryption listing makes of a block.
Kind: D -/
def decBlock (rk : ℕ → BitVec 32) (nrounds : ℕ) (b : Block) : Block :=
  ofWords (tdWords rk nrounds (addWords (wordsOf b) (keyWords rk 0)))

/-- Four words after the addition of the first round key.
Kind: L -/
theorem addWords_keyWords (s : Words) (rk : ℕ → BitVec 32) :
    addWords s (keyWords rk 0) = ![s 0 ^^^ rk 0, s 1 ^^^ rk 1, s 2 ^^^ rk 2, s 3 ^^^ rk 3] := by
  funext i
  fin_cases i <;> rfl

/-- **The encryption listing is the cipher.**
Kind: P -/
theorem encBlock_eq_cipher {nrounds : ℕ} (h : Standard nrounds) (rk : ℕ → BitVec 32) (b : Block) :
    encBlock rk nrounds b = cipher rk nrounds b := by
  rw [encBlock, ofWords, stateOf_teWords rk (wordsOf b) h, stateOf_wordsOf]
  rfl

/-- The decryption listing is the inverse cipher.
Kind: P -/
theorem decBlock_eq {nrounds : ℕ} (h : Standard nrounds) (rk : ℕ → BitVec 32) (b : Block) :
    decBlock rk nrounds b =
      ofState ((invLayers tdSub).encrypt (roundKey rk) nrounds (toState b)) := by
  rw [decBlock, ofWords, stateOf_tdWords rk (wordsOf b) h, stateOf_wordsOf]

end Togpu.Gpu
