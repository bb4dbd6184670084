import Togpu.Gpu.Modes

/-!
# The kernels with four threads for a block

In `aes_encrypt_bp4t` and `aes_decrypt_bp4t` the four words of a block are held by four threads,
the lanes of a row. The 64 rows of a CUDA block do not touch each other.

* `row` — the four words of a row of a shared array.
* **All encryption paths share one block function** (`encryption_paths_share_block`).
* `laneKeys` — the round keys that `aes_decrypt_bp4t` really adds: `rk[4+threadIdx.x]` in every odd
  round, `rk[8+threadIdx.x]` in every even one and `rk[0]` of the last round key in all four lanes.
  **With these it is the block function of `aes_decrypt_bpt`** (`aesDecryptBp4t_block`).
* **When it agrees with `aes_decrypt_bpt`** (`aesDecryptBp4t_agrees`): always, if the round keys are
  the ones it adds; and for round keys that deviate from these in at most one round, only then.
-/

namespace Togpu.Gpu

open Togpu.Lib Togpu.Lib.Fips197

/-! ## Rows -/

/-- The words of row `y` of a shared array.
Kind: D -/
def row (s : ℕ → BitVec 32) (y : ℕ) : Words := fun i => s (4 * y + i)

/-- The lane and the neighbours of a thread of a row.
Kind: L -/
theorem lanes_row (y : ℕ) (i : Fin 4) :
    (4 * y + i) % 4 = i ∧ lane 1 (4 * y + i) = 4 * y + (i + 1 : Fin 4) ∧
      lane 2 (4 * y + i) = 4 * y + (i + 2 : Fin 4) ∧
      lane 3 (4 * y + i) = 4 * y + (i + 3 : Fin 4) := by
  have hadd : ∀ j : Fin 4, ((i + j : Fin 4) : ℕ) = (i + j : ℕ) % 4 := Fin.val_add i
  have h1 : ((1 : Fin 4) : ℕ) = 1 := rfl
  have h2 : ((2 : Fin 4) : ℕ) = 2 := rfl
  have h3 : ((3 : Fin 4) : ℕ) = 3 := rfl
  unfold lane
  rw [hadd 1, hadd 2, hadd 3, h1, h2, h3]
  omega

section rounds

variable (rk : ℕ → BitVec 32) (k : ℕ) (s : ℕ → BitVec 32) (y : ℕ)

/-- An assignment of all threads is a round in each row.
Kind: L -/
theorem row_teLanes :
    row (teLanes rk k s) y = teRound (fun i => rk (k + i)) (row s y) := by
  funext i
  obtain ⟨hlane, h1, h2, h3⟩ := lanes_row y i
  simp only [row, teLanes, teRound, hlane, h1, h2, h3]
  rfl

/-- An inverse assignment of all threads is an inverse round in each row.
Kind: L -/
theorem row_tdLanes :
    row (tdLanes rk k s) y = tdRound (fun i => rk (k + i)) (row s y) := by
  funext i
  obtain ⟨hlane, h1, h2, h3⟩ := lanes_row y i
  simp only [row, tdLanes, tdRound, hlane, h1, h2, h3]
  rfl

/-- The rounds of `aes_encrypt_bp4t` are the listing of `aes_encrypt_bpt` in each row.
Kind: L -/
theorem row_aesEncryptBp4tLanes (nrounds : ℕ) :
    row (aesEncryptBp4tLanes rk nrounds s) y = teWords rk nrounds (row s y) := by
  have hlast : ∀ (t : ℕ → BitVec 32),
      row (fun l => teLast t l (lane 1 l) (lane 2 l) (lane 3 l) (rk (nrounds <<< 2 + l % 4))) y =
        teFinal (keyWords rk nrounds) (row t y) := by
    intro t
    funext i
    obtain ⟨hlane, h1, h2, h3⟩ := lanes_row y i
    simp only [row, teFinal, keyWords, hlane, h1, h2, h3, Nat.shiftLeft_eq, mul_comm nrounds]
    rfl
  unfold aesEncryptBp4tLanes teWords unrolled
  rw [hlast]
  split_ifs
  · simp only [teRounds, row_teLanes]
    rfl
  · simp only [teRounds, row_teLanes]
    rfl
  · simp only [teRounds, row_teLanes]
    rfl

end rounds

/-! ## The text of a CUDA block -/

/-- The first byte of a CUDA block: `BYTES_PER_BLOCK` bytes each.
Kind: D -/
def blockBase (bid : ℕ) : ℕ := 1024 * bid

/-- The loads and the first key addition, in each row.
Kind: L -/
theorem row_loadLanes (rk : ℕ → BitVec 32) (bid : ℕ) (text : Text) (y : ℕ) :
    row (loadLanes rk bid text) y =
      addWords (wordsOf (readBlock 16 text (blockBase bid + 16 * y))) (keyWords rk 0) := by
  rw [← wordsAt_eq]
  funext i
  have haddr : 4 * (bid * wordsPerBlock + (4 * y + i)) = blockBase bid + 16 * y + 4 * i := by
    unfold wordsPerBlock blockBase
    omega
  simp only [row, loadLanes, addWords, wordsAt, keyWords, haddr, (lanes_row y i).1]
  simp

/-- Some words stored one after another.
Kind: L -/
theorem storeWords_apply (s : ℕ → BitVec 32) (text : Text) (a m x : ℕ) :
    (List.range m).foldl (fun text l => putU32 text (4 * (a + l)) (s l)) text x =
      if 4 * a ≤ x ∧ x < 4 * (a + m) then
        wordByte (s (x / 4 - a)) ⟨x % 4, Nat.mod_lt x (by decide)⟩
      else text x := by
  induction m with
  | zero => simp only [List.range_zero, List.foldl_nil]; rw [if_neg (by omega)]
  | succ m ih =>
      rw [List.range_succ, List.foldl_append, List.foldl_cons, List.foldl_nil, putU32_apply, ih]
      by_cases hlast : 4 * (a + m) ≤ x ∧ x < 4 * (a + m) + 4
      · -- the word stored last
        have hindex : x / 4 - a = m := by omega
        have hplace : (⟨x - 4 * (a + m), by omega⟩ : Fin 4) =
            ⟨x % 4, Nat.mod_lt x (by decide)⟩ := Fin.ext (by simp only; omega)
        rw [dif_pos hlast, if_pos (by omega), hindex, hplace]
      · rw [dif_neg hlast]
        by_cases hin : 4 * a ≤ x ∧ x < 4 * (a + m)
        · rw [if_pos hin, if_pos (by omega)]
        · rw [if_neg hin, if_neg (by omega)]

/-- Work on each of the 64 blocks of 16 bytes of a CUDA block.
Kind: D -/
def eachBlock (f : Block → Block) (b : Fin 1024 → BitVec 8) : Fin 1024 → BitVec 8 := fun i =>
  f (fun j => b ⟨16 * (i / 16) + j, by omega⟩) ⟨i % 16, by omega⟩

/-- A kernel whose rows compute a function of their blocks.
Kind: L -/
theorem storeLanes_eq {f : Block → Block} {lanes : (ℕ → BitVec 32) → ℕ → BitVec 32}
    {rk : ℕ → BitVec 32} {bid : ℕ} {text : Text}
    (h : ∀ y, ofWords (row (lanes (loadLanes rk bid text)) y) =
      f (readBlock 16 text (blockBase bid + 16 * y))) :
    storeLanes bid (lanes (loadLanes rk bid text)) text =
      writeBlock text (blockBase bid) (eachBlock f (readBlock 1024 text (blockBase bid))) := by
  funext x
  rw [storeLanes, storeWords_apply]
  unfold writeBlock
  by_cases hx : blockBase bid ≤ x ∧ x < blockBase bid + 1024
  · have hin : 4 * (bid * wordsPerBlock) ≤ x ∧ x < 4 * (bid * wordsPerBlock + wordsPerBlock) := by
      unfold blockBase at hx
      unfold wordsPerBlock
      omega
    rw [if_pos hin, dif_pos hx]
    -- the row the byte is in, and its place in the row
    have hrow := congrFun (h ((x - blockBase bid) / 16)) ⟨(x - blockBase bid) % 16, by omega⟩
    have hword : 4 * ((x - blockBase bid) / 16) + (x - blockBase bid) % 16 / 4 =
        x / 4 - bid * wordsPerBlock := by
      unfold blockBase at hx ⊢
      unfold wordsPerBlock
      omega
    have hplace : (x - blockBase bid) % 16 % 4 = x % 4 := by
      unfold blockBase at hx ⊢
      omega
    simp only [ofWords, ofState, stateOf, row, hword, hplace] at hrow
    rw [hrow]
    unfold eachBlock readBlock
    simp only [add_assoc]
  · rw [if_neg (by unfold blockBase at hx; unfold wordsPerBlock; omega), dif_neg hx]

/-- A block of a CUDA block whose blocks have all been worked on.
Kind: L -/
theorem readBlock_eachBlock {f : Block → Block} {text : Text} {bid y : ℕ} (hy : y < 64) :
    readBlock 16 (writeBlock text (blockBase bid)
        (eachBlock f (readBlock 1024 text (blockBase bid)))) (blockBase bid + 16 * y) =
      f (readBlock 16 text (blockBase bid + 16 * y)) := by
  funext i
  have hrow : (16 * y + i : ℕ) / 16 = y := by omega
  have hplace : (16 * y + i : ℕ) % 16 = i := by omega
  have hoff : blockBase bid + (16 * y + i) - blockBase bid = 16 * y + i :=
    Nat.add_sub_cancel_left _ _
  unfold readBlock writeBlock
  rw [dif_pos (by omega)]
  unfold eachBlock
  simp only [add_assoc, hoff, hrow, hplace]

/-- `aes_encrypt_bp4t`.
Kind: L -/
theorem aesEncryptBp4t_block (rk : ℕ → BitVec 32) (nrounds : ℕ) :
    BlockKernel (aesEncryptBp4t rk nrounds) blockBase
      fun _ => eachBlock (encBlock rk nrounds) := by
  intro bid text
  apply storeLanes_eq
  intro y
  rw [row_aesEncryptBp4tLanes, row_loadLanes]
  rfl

/-! ## One block function -/

/-- **All encryption paths share one block function.** With `E` the function that `aes_encrypt_bpt`
computes of a block, the counter modes add `E` of the thread's counter block, `xts_encrypt` adds the
iv before and after `E`, and `aes_encrypt_bp4t`, its threads stepping together, maps each of the 64
blocks of a CUDA block to `E` of it. Nothing else changes in the text.
Source: `xt_TOGPU_kernel.cu` 885–1232, 1351–1404, 1458–1589
Kind: P
Fidelity: exact -/
theorem encryption_paths_share_block (rk : ℕ → BitVec 32) (nrounds : ℕ) (text ctr ivs : Text) :
    let E := encBlock rk nrounds
    (∀ t, aesEncryptBpt rk nrounds t text =
      writeBlock text (32 + 16 * t) (E (readBlock 16 text (32 + 16 * t)))) ∧
    (∀ t, aesCtrCrypt rk nrounds ctr t text = writeBlock text (32 + 16 * t)
      (xorBlock (readBlock 16 text (32 + 16 * t)) (E (counterBlock ctr t)))) ∧
    (∀ t, aesLctrCrypt rk nrounds ctr t text = writeBlock text (32 + 16 * t)
      (xorBlock (readBlock 16 text (32 + 16 * t)) (E (counterBlock ctr t)))) ∧
    (∀ t, xtsEncrypt rk nrounds ivs t text = writeBlock text (32 + 16 * t)
      (xorBlock (ivBlock ivs t)
        (E (xorBlock (ivBlock ivs t) (readBlock 16 text (32 + 16 * t)))))) ∧
    ∀ bid, (∀ y < 64, readBlock 16 (aesEncryptBp4t rk nrounds bid text) (1024 * bid + 16 * y) =
        E (readBlock 16 text (1024 * bid + 16 * y))) ∧
      ∀ x, ¬ (1024 * bid ≤ x ∧ x < 1024 * (bid + 1)) →
        aesEncryptBp4t rk nrounds bid text x = text x := by
  intro E
  refine ⟨fun t => aesEncryptBpt_block rk nrounds t text,
    fun t => aesCtrCrypt_block rk nrounds ctr t text,
    fun t => aesLctrCrypt_block rk nrounds ctr t text,
    fun t => xtsEncrypt_block rk nrounds ivs t text, ?_⟩
  intro bid
  have hblock := aesEncryptBp4t_block rk nrounds bid text
  constructor
  · intro y hy
    rw [hblock]
    exact readBlock_eachBlock hy
  · intro x hx
    rw [hblock]
    apply writeBlock_of_notMem
    unfold blockBase
    omega

/-! ## Decryption by four threads -/

/-- The round keys that `aes_decrypt_bp4t` adds, as an array for `aes_decrypt_bpt`.
Source: `xt_TOGPU_kernel.cu` 1411–1445
Kind: D -/
def laneKeys (rk : ℕ → BitVec 32) (nrounds j : ℕ) : BitVec 32 :=
  if j / 4 = 0 then rk j
  else if j / 4 = nrounds then rk (4 * nrounds)
  else if j / 4 % 2 = 1 then rk (4 + j % 4)
  else rk (8 + j % 4)

/-- The round keys it adds, round by round.
Kind: L -/
theorem keyWords_laneKeys (rk : ℕ → BitVec 32) (nrounds r : ℕ) :
    keyWords (laneKeys rk nrounds) r =
      if r = 0 then keyWords rk 0
      else if r = nrounds then fun _ => rk (4 * nrounds)
      else if r % 2 = 1 then keyWords rk 1
      else keyWords rk 2 := by
  funext i
  have hround : (4 * r + i : ℕ) / 4 = r := by omega
  have hlane : (4 * r + i : ℕ) % 4 = i := by omega
  simp only [keyWords, laneKeys, hround, hlane]
  split_ifs with h0
  · rw [h0]
    rfl
  · rfl
  · rfl
  · rfl

/-- The rounds of `aes_decrypt_bp4t` are the listing of `aes_decrypt_bpt` in each row, with these
round keys.
Kind: L -/
theorem row_aesDecryptBp4tLanes {nrounds : ℕ} (h : Standard nrounds) (rk s : ℕ → BitVec 32)
    (y : ℕ) :
    row (aesDecryptBp4tLanes rk nrounds s) y = tdWords (laneKeys rk nrounds) nrounds (row s y) := by
  have hlast : ∀ (t : ℕ → BitVec 32),
      row (fun l => tdLast t l (lane 3 l) (lane 2 l) (lane 1 l) (rk (nrounds <<< 2 + 0))) y =
        tdFinal (fun _ => rk (4 * nrounds)) (row t y) := by
    intro t
    funext i
    obtain ⟨_, h1, h2, h3⟩ := lanes_row y i
    simp only [row, tdFinal, h1, h2, h3, Nat.shiftLeft_eq, mul_comm nrounds, add_zero]
    rfl
  unfold aesDecryptBp4tLanes tdWords
  rw [hlast]
  rcases h with rfl | rfl | rfl
  · simp [unrolled, tdRounds, row_tdLanes, keyWords_laneKeys]
    rfl
  · simp [unrolled, tdRounds, row_tdLanes, keyWords_laneKeys]
    rfl
  · simp [unrolled, tdRounds, row_tdLanes, keyWords_laneKeys]
    rfl

/-- `aes_decrypt_bp4t` is the block function of `aes_decrypt_bpt` with other round keys.
Kind: P -/
theorem aesDecryptBp4t_block {nrounds : ℕ} (h : Standard nrounds) (rk : ℕ → BitVec 32) :
    BlockKernel (aesDecryptBp4t rk nrounds) blockBase
      fun _ => eachBlock (decBlock (laneKeys rk nrounds) nrounds) := by
  intro bid text
  apply storeLanes_eq
  intro y
  rw [row_aesDecryptBp4tLanes h, row_loadLanes, decBlock, keyWords_laneKeys, if_pos rfl]

/-- The round keys are the ones that `aes_decrypt_bp4t` adds: those of the odd rounds before the
last are that of round 1, those of the even ones that of round 2, and the last one repeats a word.
Kind: D -/
def RepeatsKeys (rk : ℕ → BitVec 32) (nrounds : ℕ) : Prop :=
  (∀ r, 0 < r → r < nrounds → keyWords rk r = keyWords rk (if r % 2 = 1 then 1 else 2)) ∧
    ∀ i : Fin 4, rk (4 * nrounds + i) = rk (4 * nrounds)

/-- Such round keys are the ones it adds.
Kind: L -/
theorem repeatsKeys_iff {rk : ℕ → BitVec 32} {nrounds : ℕ} (hpos : 0 < nrounds) :
    RepeatsKeys rk nrounds ↔ ∀ r ≤ nrounds, keyWords (laneKeys rk nrounds) r = keyWords rk r := by
  constructor
  · rintro ⟨hrounds, hfinal⟩ r hr
    rw [keyWords_laneKeys]
    split_ifs with h0 hlast hodd
    · rw [h0]
    · subst hlast
      funext i
      exact (hfinal i).symm
    · have hkey := hrounds r (by omega) (by omega)
      rw [if_pos hodd] at hkey
      exact hkey.symm
    · have hkey := hrounds r (by omega) (by omega)
      rw [if_neg hodd] at hkey
      exact hkey.symm
  · intro h
    constructor
    · intro r h0 hr
      have hkey := h r hr.le
      rw [keyWords_laneKeys, if_neg (by omega), if_neg (by omega)] at hkey
      rw [← hkey]
      split_ifs
      · rfl
      · rfl
    · intro i
      have hkey := h nrounds le_rfl
      rw [keyWords_laneKeys, if_neg (by omega), if_pos rfl] at hkey
      exact (congrFun hkey i).symm

section agreement

variable {nrounds : ℕ} (h : Standard nrounds) (rk : ℕ → BitVec 32)

include h

/-- A block after `aes_decrypt_bp4t`.
Kind: L -/
theorem readBlock_aesDecryptBp4t (text : Text) (bid : ℕ) {y : ℕ} (hy : y < 64) :
    readBlock 16 (aesDecryptBp4t rk nrounds bid text) (1024 * bid + 16 * y) =
      decBlock (laneKeys rk nrounds) nrounds (readBlock 16 text (1024 * bid + 16 * y)) := by
  rw [aesDecryptBp4t_block h rk bid text]
  exact readBlock_eachBlock hy

/-- The block functions of two arrays of round keys that differ in at most one round agree on a
block exactly if the arrays do not differ.
Kind: L -/
theorem decBlock_eq_iff {rk' : ℕ → BitVec 32} {r : ℕ} (hr : r ≤ nrounds)
    (hother : ∀ q ≤ nrounds, q ≠ r → keyWords rk q = keyWords rk' q) (b : Block) :
    decBlock rk nrounds b = decBlock rk' nrounds b ↔
      ∀ q ≤ nrounds, keyWords rk q = keyWords rk' q := by
  have hpos : 0 < nrounds := by rcases h with rfl | rfl | rfl <;> decide
  have hkeys : ∀ q, roundKey rk q = roundKey rk' q ↔ keyWords rk q = keyWords rk' q :=
    fun q => stateOf_injective.eq_iff
  have hblock : decBlock rk nrounds b = decBlock rk' nrounds b ↔
      (invLayers tdSub).encrypt (roundKey rk) nrounds (toState b) =
        (invLayers tdSub).encrypt (roundKey rk') nrounds (toState b) := by
    rw [decBlock_eq h, decBlock_eq h]
    exact (Function.LeftInverse.injective toState_ofState).eq_iff
  rw [hblock, KeyAlternating.encrypt_eq_iff (faithful_invLayers tdSub_sbox) (toState b)
    (fun q hq hne => (hkeys q).mpr (hother q hq hne)) hr hpos]
  exact forall₂_congr fun q _ => hkeys q

/-- **When four-thread decryption agrees with one-thread decryption.** It does on every text, if the
round keys repeat as `aes_decrypt_bp4t` repeats them. For round keys that differ from those it adds
in at most one round, it agrees on a block, whichever, only then.
Source: `xt_TOGPU_kernel.cu` 1234–1349, 1406–1447
Kind: P
Fidelity: exact
Hyps: 10, 12 or 14 rounds -/
theorem aesDecryptBp4t_agrees :
    (RepeatsKeys rk nrounds → ∀ (text : Text) (bid : ℕ), ∀ y < 64,
      readBlock 16 (aesDecryptBp4t rk nrounds bid text) (1024 * bid + 16 * y) =
        decBlock rk nrounds (readBlock 16 text (1024 * bid + 16 * y))) ∧
    ∀ r ≤ nrounds,
      (∀ q ≤ nrounds, q ≠ r → keyWords (laneKeys rk nrounds) q = keyWords rk q) →
      ∀ (text : Text) (bid : ℕ), ∀ y < 64,
        (readBlock 16 (aesDecryptBp4t rk nrounds bid text) (1024 * bid + 16 * y) =
          decBlock rk nrounds (readBlock 16 text (1024 * bid + 16 * y)) ↔
        RepeatsKeys rk nrounds) := by
  have hpos : 0 < nrounds := by rcases h with rfl | rfl | rfl <;> decide
  constructor
  · intro hkeys text bid y hy
    have hall := (repeatsKeys_iff hpos).mp hkeys
    rw [readBlock_aesDecryptBp4t h rk text bid hy]
    exact (decBlock_eq_iff h _ (Nat.zero_le _) (fun q hq _ => hall q hq) _).mpr hall
  · intro r hr hother text bid y hy
    rw [readBlock_aesDecryptBp4t h rk text bid hy, repeatsKeys_iff hpos]
    exact decBlock_eq_iff h _ hr hother _

end agreement

/-- Round keys of ten rounds that repeat: two keys in turns, and a last one of one word.
Kind: D -/
def repeatingKeys (j : ℕ) : BitVec 32 :=
  if 40 ≤ j then 0x5a6b7c8d
  else if j / 4 % 2 = 1 then 0x0f1e2d3c + BitVec.ofNat 32 (j % 4)
  else 0xa5b4c3d2 + BitVec.ofNat 32 (j % 4)

/-- Ten rounds under those keys: the two agree on a block of a text that counts its bytes.
Kind: C -/
theorem aesDecryptBp4t_agrees_repeating :
    readBlock 16 (aesDecryptBp4t repeatingKeys 10 1 fun i => BitVec.ofNat 8 i)
        (1024 * 1 + 16 * 5) =
      decBlock repeatingKeys 10 (readBlock 16 (fun i => BitVec.ofNat 8 i) (1024 * 1 + 16 * 5)) := by
  have hrounds : ∀ r < 10, 0 < r →
      keyWords repeatingKeys r = keyWords repeatingKeys (if r % 2 = 1 then 1 else 2) := by decide
  have hrepeats : RepeatsKeys repeatingKeys 10 := ⟨fun r hpos hlt => hrounds r hlt hpos, by decide⟩
  exact (aesDecryptBp4t_agrees (Or.inl rfl) repeatingKeys).1 hrepeats _ 1 5 (by decide)

/-- An array of round keys whose only word that is not zero belongs to round 3.
Kind: D -/
def strayKey (j : ℕ) : BitVec 32 := if j = 12 then 1 else 0

/-- Ten rounds under that array: the two disagree on the first block of the text.
Kind: C -/
theorem aesDecryptBp4t_disagrees :
    readBlock 16 (aesDecryptBp4t strayKey 10 0 fun _ => 0) (1024 * 0 + 16 * 0) ≠
      decBlock strayKey 10 (readBlock 16 (fun _ => 0) (1024 * 0 + 16 * 0)) := by
  intro hagree
  have hother : ∀ q ≤ 10, q ≠ 3 → keyWords (laneKeys strayKey 10) q = keyWords strayKey q := by
    decide
  rw [readBlock_aesDecryptBp4t (Or.inl rfl) strayKey _ 0 (by decide),
    decBlock_eq_iff (Or.inl rfl) _ (by decide : 3 ≤ 10) hother] at hagree
  have hword : keyWords (laneKeys strayKey 10) 3 0 = keyWords strayKey 3 0 :=
    congrFun (hagree 3 (by decide)) 0
  revert hword
  decide

end Togpu.Gpu
