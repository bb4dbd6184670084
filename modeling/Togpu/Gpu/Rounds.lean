import Togpu.Gpu.Kernels

/-!
# The rounds

The words of the kernels as states of the cipher, and the unrolled rounds in one form.

* `stateOf` — four words as a state, a word for each column.
* **A round of table lookups is a round of the cipher** (`stateOf_teRound`, `stateOf_teFinal`), and
  the same for the inverse tables (`stateOf_tdRound`, `stateOf_tdFinal`).
* `unrolled nrounds` — how many rounds the two tests on `nrounds` let through.
* **The unrolled equations** (`aesEncryptBptWords_eq` and the lemmas after it): each of the six
  listings is that many rounds and a last one, for every `nrounds`.
* **The whole cipher** (`stateOf_teWords`, `stateOf_tdWords`), where the count is 10, 12 or 14.
-/

namespace Togpu.Gpu

open Togpu.Lib Togpu.Lib.Fips197

/-! ## Bytes of words -/

/-- The table index of the first byte.
Kind: L -/
theorem toNat_shift_24 (w : BitVec 32) : (w >>> 24).toNat = (wordByte w 0).toNat := by
  simp [wordByte, BitVec.extractLsb'_toNat]
  omega

/-- The table index of the second byte.
Kind: L -/
theorem toNat_shift_16 (w : BitVec 32) :
    ((w >>> 16) &&& 0xff#32).toNat = (wordByte w 1).toNat := by
  simp [wordByte, BitVec.extractLsb'_toNat]
  exact Nat.and_two_pow_sub_one_eq_mod _ 8

/-- The table index of the third byte.
Kind: L -/
theorem toNat_shift_8 (w : BitVec 32) :
    ((w >>> 8) &&& 0xff#32).toNat = (wordByte w 2).toNat := by
  simp [wordByte, BitVec.extractLsb'_toNat]
  exact Nat.and_two_pow_sub_one_eq_mod _ 8

/-- The table index of the fourth byte.
Kind: L -/
theorem toNat_and_ff (w : BitVec 32) : (w &&& 0xff#32).toNat = (wordByte w 3).toNat := by
  simp [wordByte, BitVec.extractLsb'_toNat]
  exact Nat.and_two_pow_sub_one_eq_mod _ 8

/-- A masked byte.
Kind: L -/
theorem wordByte_and (w m : BitVec 32) (r : Fin 4) :
    wordByte (w &&& m) r = wordByte w r &&& wordByte m r :=
  BitVec.extractLsb'_and

/-- A byte that a mask keeps.
Kind: L -/
theorem and_ff (b : BitVec 8) : b &&& 255#8 = b := BitVec.and_allOnes

section lines

variable {ι : Type} (s : ι → BitVec 32) (a b c d : ι) (k : BitVec 32)

/-- A line of a round reads one byte of each of its four words.
Kind: L -/
theorem roundLine_eq (t0 t1 t2 t3 : List (BitVec 32)) :
    roundLine s a b c d k t0 t1 t2 t3 =
      t0.getD (wordByte (s a) 0).toNat 0 ^^^ t1.getD (wordByte (s b) 1).toNat 0 ^^^
        t2.getD (wordByte (s c) 2).toNat 0 ^^^ t3.getD (wordByte (s d) 3).toNat 0 ^^^ k := by
  simp only [roundLine, look]
  rw [toNat_shift_24, toNat_shift_16, toNat_shift_8, toNat_and_ff]

/-- A line of the last round, whose table repeats a byte four times.
Kind: L -/
theorem wordByte_lastLine {t4 : List (BitVec 32)} {f : BitVec 8 → BitVec 8}
    (h : ∀ x : BitVec 8, t4.getD x.toNat 0 = wordOf (f x) (f x) (f x) (f x)) (r : Fin 4) :
    wordByte (lastLine s a b c d k t4) r =
      f (wordByte (s (![a, b, c, d] r)) r) ^^^ wordByte k r := by
  simp only [lastLine, look]
  rw [toNat_shift_24, toNat_shift_16, toNat_shift_8, toNat_and_ff]
  simp only [h, wordByte_xor, wordByte_and, wordByte_wordOf]
  -- the masks clear all but one of the four bytes
  have hmask : ∀ r', wordByte 0xff000000#32 r' = ![255#8, 0#8, 0#8, 0#8] r' ∧
      wordByte 0x00ff0000#32 r' = ![0#8, 255#8, 0#8, 0#8] r' ∧
      wordByte 0x0000ff00#32 r' = ![0#8, 0#8, 255#8, 0#8] r' ∧
      wordByte 0x000000ff#32 r' = ![0#8, 0#8, 0#8, 255#8] r' := by decide
  rw [(hmask r).1, (hmask r).2.1, (hmask r).2.2.1, (hmask r).2.2.2]
  fin_cases r <;> simp [and_ff]

end lines

/-! ## A round of table lookups -/

/-- Four words as a state.
Kind: D -/
def stateOf (s : Words) : State := fun r c => wordByte (s c) r

/-- Four words are their state.
Kind: L -/
theorem stateOf_injective : Function.Injective stateOf := by
  intro s s' h
  funext c
  apply word_ext
  intro r
  exact congrFun (congrFun h r) c

/-- A round with `Te0` to `Te3`.
Kind: D -/
def teRound (k s : Words) : Words := fun i => teLine s i (i + 1) (i + 2) (i + 3) (k i)

/-- The last round with `Te4`.
Kind: D -/
def teFinal (k s : Words) : Words := fun i => teLast s i (i + 1) (i + 2) (i + 3) (k i)

/-- A round with `Td0` to `Td3`.
Kind: D -/
def tdRound (k s : Words) : Words := fun i => tdLine s i (i + 3) (i + 2) (i + 1) (k i)

/-- The last round with `Td4`.
Kind: D -/
def tdFinal (k s : Words) : Words := fun i => tdLast s i (i + 3) (i + 2) (i + 1) (k i)

/-- **A round of the encryption tables** is a round of the cipher.
Kind: P -/
theorem stateOf_teRound (k s : Words) :
    stateOf (teRound k s) = layers.add (layers.mix (layers.sub (stateOf s))) (stateOf k) := by
  funext r c
  simp only [stateOf, teRound, teLine, roundLine_eq, te0_getD, te1_getD, te2_getD, te3_getD,
    wordByte_xor, wordByte_wordOf, layers, addState, mixColumns, shiftRows, subBytes]
  fin_cases r <;> simp <;> ac_rfl

/-- **The last round of the encryption tables.**
Kind: P -/
theorem stateOf_teFinal (k s : Words) :
    stateOf (teFinal k s) = layers.add (layers.sub (stateOf s)) (stateOf k) := by
  funext r c
  simp only [stateOf, teFinal, teLast, wordByte_lastLine _ _ _ _ _ _ te4_getD, layers, addState,
    shiftRows, subBytes]
  fin_cases r <;> simp

/-- **A round of the decryption tables** is a round of the inverse cipher.
Kind: P -/
theorem stateOf_tdRound (k s : Words) :
    stateOf (tdRound k s) = (invLayers tdSub).add
      ((invLayers tdSub).mix ((invLayers tdSub).sub (stateOf s))) (stateOf k) := by
  funext r c
  have h1 : c - 1 = c + 3 := by omega
  have h2 : c - 2 = c + 2 := by omega
  have h3 : c - 3 = c + 1 := by omega
  simp only [stateOf, tdRound, tdLine, roundLine_eq, td0_getD, td1_getD, td2_getD, td3_getD,
    wordByte_xor, wordByte_wordOf, invLayers, addState, invMixColumns, invShiftRows]
  fin_cases r <;> simp [h1, h2, h3] <;> ac_rfl

/-- **The last round of the decryption tables.**
Kind: P -/
theorem stateOf_tdFinal (k s : Words) :
    stateOf (tdFinal k s) =
      (invLayers tdSub).add ((invLayers tdSub).sub (stateOf s)) (stateOf k) := by
  funext r c
  have h1 : c - 1 = c + 3 := by omega
  have h2 : c - 2 = c + 2 := by omega
  have h3 : c - 3 = c + 1 := by omega
  simp only [stateOf, tdFinal, tdLast, wordByte_lastLine _ _ _ _ _ _ td4_getD, invLayers, addState,
    invShiftRows]
  fin_cases r <;> simp [h1, h2, h3]

/-! ## The unrolled equations -/

/-- The four words of a round key.
Kind: D -/
def keyWords (rk : ℕ → BitVec 32) (r : ℕ) : Words := fun i => rk (4 * r + i)

/-- `n` rounds from round 1 on.
Kind: D -/
def teRounds (rk : ℕ → BitVec 32) : ℕ → Words → Words
  | 0, s => s
  | n + 1, s => teRound (keyWords rk (n + 1)) (teRounds rk n s)

/-- `n` inverse rounds from round 1 on.
Kind: D -/
def tdRounds (rk : ℕ → BitVec 32) : ℕ → Words → Words
  | 0, s => s
  | n + 1, s => tdRound (keyWords rk (n + 1)) (tdRounds rk n s)

/-- The rounds before the last that the tests on `nrounds` let through.
Source: `xt_TOGPU_kernel.cu` 1177–1199
Kind: D -/
def unrolled (nrounds : ℕ) : ℕ := if nrounds > 10 then if nrounds > 12 then 13 else 11 else 9

/-- The unrolled rounds and the last one, which takes its key from `rk + (nrounds << 2)`.
Kind: D -/
def teWords (rk : ℕ → BitVec 32) (nrounds : ℕ) (s : Words) : Words :=
  teFinal (keyWords rk nrounds) (teRounds rk (unrolled nrounds) s)

/-- The unrolled inverse rounds and the last one.
Kind: D -/
def tdWords (rk : ℕ → BitVec 32) (nrounds : ℕ) (s : Words) : Words :=
  tdFinal (keyWords rk nrounds) (tdRounds rk (unrolled nrounds) s)

/-- A round key, word by word.
Kind: L -/
theorem keyWords_eq (rk : ℕ → BitVec 32) (r : ℕ) :
    keyWords rk r = ![rk (4 * r), rk (4 * r + 1), rk (4 * r + 2), rk (4 * r + 3)] := by
  funext i
  fin_cases i <;> rfl

section equations

variable (s : Words) (k0 k1 k2 k3 : BitVec 32)

/-- Four lines of a round.
Kind: L -/
theorem teRound_vec : (![teLine s 0 1 2 3 k0, teLine s 1 2 3 0 k1, teLine s 2 3 0 1 k2,
    teLine s 3 0 1 2 k3] : Words) = teRound ![k0, k1, k2, k3] s := by
  funext i
  fin_cases i <;> rfl

/-- Four lines of the last round.
Kind: L -/
theorem teFinal_vec : (![teLast s 0 1 2 3 k0, teLast s 1 2 3 0 k1, teLast s 2 3 0 1 k2,
    teLast s 3 0 1 2 k3] : Words) = teFinal ![k0, k1, k2, k3] s := by
  funext i
  fin_cases i <;> rfl

/-- Four lines of an inverse round.
Kind: L -/
theorem tdRound_vec : (![tdLine s 0 3 2 1 k0, tdLine s 1 0 3 2 k1, tdLine s 2 1 0 3 k2,
    tdLine s 3 2 1 0 k3] : Words) = tdRound ![k0, k1, k2, k3] s := by
  funext i
  fin_cases i <;> rfl

/-- Four lines of the last inverse round.
Kind: L -/
theorem tdFinal_vec : (![tdLast s 0 3 2 1 k0, tdLast s 1 0 3 2 k1, tdLast s 2 1 0 3 k2,
    tdLast s 3 2 1 0 k3] : Words) = tdFinal ![k0, k1, k2, k3] s := by
  funext i
  fin_cases i <;> rfl

end equations

section listings

variable (rk : ℕ → BitVec 32) (nrounds : ℕ) (s : Words)

/-- **The listing of `aes_encrypt_bpt`.**
Kind: P -/
theorem aesEncryptBptWords_eq : aesEncryptBptWords rk nrounds s = teWords rk nrounds s := by
  unfold aesEncryptBptWords
  -- each group of four lines is a round; only then may the `let`s be unfolded
  simp -zeta only [teRound_vec, teFinal_vec]
  unfold teWords unrolled
  simp only [keyWords_eq, Nat.shiftLeft_eq, mul_comm nrounds]
  split_ifs <;>
    simp only [teRounds, keyWords_eq, Nat.reduceMul, Nat.reduceAdd, add_zero, Nat.reducePow]

/-- **The listing of `aes_decrypt_bpt`.**
Kind: P -/
theorem aesDecryptBptWords_eq : aesDecryptBptWords rk nrounds s = tdWords rk nrounds s := by
  unfold aesDecryptBptWords
  simp -zeta only [tdRound_vec, tdFinal_vec]
  unfold tdWords unrolled
  simp only [keyWords_eq, Nat.shiftLeft_eq, mul_comm nrounds]
  split_ifs <;>
    simp only [tdRounds, keyWords_eq, Nat.reduceMul, Nat.reduceAdd, add_zero, Nat.reducePow]

/-- The listing of `aes_lctr_crypt` repeats that of `aes_encrypt_bpt`.
Kind: L -/
theorem aesLctrCryptWords_eq : aesLctrCryptWords rk nrounds s = teWords rk nrounds s :=
  (rfl : aesLctrCryptWords rk nrounds s = aesEncryptBptWords rk nrounds s).trans
    (aesEncryptBptWords_eq rk nrounds s)

/-- The listing of `aes_ctr_crypt` repeats that of `aes_encrypt_bpt`.
Kind: L -/
theorem aesCtrCryptWords_eq : aesCtrCryptWords rk nrounds s = teWords rk nrounds s :=
  (rfl : aesCtrCryptWords rk nrounds s = aesEncryptBptWords rk nrounds s).trans
    (aesEncryptBptWords_eq rk nrounds s)

/-- The listing of `xts_encrypt` repeats that of `aes_encrypt_bpt`.
Kind: L -/
theorem xtsEncryptWords_eq : xtsEncryptWords rk nrounds s = teWords rk nrounds s :=
  (rfl : xtsEncryptWords rk nrounds s = aesEncryptBptWords rk nrounds s).trans
    (aesEncryptBptWords_eq rk nrounds s)

/-- The listing of `xts_decrypt` repeats that of `aes_decrypt_bpt`.
Kind: L -/
theorem xtsDecryptWords_eq : xtsDecryptWords rk nrounds s = tdWords rk nrounds s :=
  (rfl : xtsDecryptWords rk nrounds s = aesDecryptBptWords rk nrounds s).trans
    (aesDecryptBptWords_eq rk nrounds s)

end listings

/-! ## The whole cipher -/

/-- The exclusive or of four words.
Kind: D -/
def addWords (s k : Words) : Words := fun i => s i ^^^ k i

/-- The counts that the source is written for: the unrolled rounds are all but the last.
Kind: D -/
def Standard (nrounds : ℕ) : Prop := nrounds = 10 ∨ nrounds = 12 ∨ nrounds = 14

/-- The unrolled rounds of a standard count.
Kind: L -/
theorem Standard.unrolled_eq {nrounds : ℕ} (h : Standard nrounds) :
    unrolled nrounds = nrounds - 1 := by
  rcases h with rfl | rfl | rfl <;> rfl

/-- The sum of two states.
Kind: L -/
theorem stateOf_addWords (s k : Words) :
    stateOf (addWords s k) = addState (stateOf s) (stateOf k) := by
  funext r c
  exact wordByte_xor _ _ _

section cipher

variable (rk : ℕ → BitVec 32) (b : Words)

/-- Rounds of table lookups from the first key addition on.
Kind: L -/
theorem stateOf_teRounds (n : ℕ) :
    stateOf (teRounds rk n (addWords b (keyWords rk 0))) =
      layers.rounds (roundKey rk) n (stateOf b) := by
  induction n with
  | zero => exact stateOf_addWords b (keyWords rk 0)
  | succ n ih =>
      rw [teRounds, stateOf_teRound, ih]
      rfl

/-- Inverse rounds of table lookups from the first key addition on.
Kind: L -/
theorem stateOf_tdRounds (n : ℕ) :
    stateOf (tdRounds rk n (addWords b (keyWords rk 0))) =
      (invLayers tdSub).rounds (roundKey rk) n (stateOf b) := by
  induction n with
  | zero => exact stateOf_addWords b (keyWords rk 0)
  | succ n ih =>
      rw [tdRounds, stateOf_tdRound, ih]
      rfl

/-- **The words of an encryption kernel** are the cipher of its input.
Kind: P -/
theorem stateOf_teWords {nrounds : ℕ} (h : Standard nrounds) :
    stateOf (teWords rk nrounds (addWords b (keyWords rk 0))) =
      layers.encrypt (roundKey rk) nrounds (stateOf b) := by
  rw [teWords, stateOf_teFinal, stateOf_teRounds, h.unrolled_eq]
  rfl

/-- **The words of a decryption kernel** are the inverse cipher of its input.
Kind: P -/
theorem stateOf_tdWords {nrounds : ℕ} (h : Standard nrounds) :
    stateOf (tdWords rk nrounds (addWords b (keyWords rk 0))) =
      (invLayers tdSub).encrypt (roundKey rk) nrounds (stateOf b) := by
  rw [tdWords, stateOf_tdFinal, stateOf_tdRounds, h.unrolled_eq]
  rfl

end cipher

end Togpu.Gpu
