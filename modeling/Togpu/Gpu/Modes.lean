import Togpu.Gpu.Memory

/-!
# The kernels with one thread for a block

Each kernel replaces the block of its thread by a function of it, and this function is the block
cipher in one of its modes of use.

* **`aes_encrypt_bpt` is the FIPS 197 cipher** on the block of every thread, in any order of the
  threads, and leaves the rest of the text (`aesEncryptBpt_is_cipher`).
* **Decryption inverts encryption** (`decryption_inverts_encryption`), for `aes_decrypt_bpt` and for
  `xts_decrypt`, with the round keys of the equivalent inverse cipher.
* `aesCtrCrypt_block`, `xtsEncrypt_block`, `xtsDecrypt_block` — the other modes as functions of
  blocks.
-/

namespace Togpu.Gpu

open Togpu.Lib Togpu.Lib.Fips197

/-- Where the block of a thread starts: `text+32+(16*(threadIdx.x))`.
Source: `xt_TOGPU_kernel.cu` 1124
Kind: D -/
def threadBase (tid : ℕ) : ℕ := 32 + 16 * tid

/-- The blocks of different threads do not overlap.
Kind: L -/
theorem threadBase_apart : Apart 16 threadBase := by
  intro t u hne
  unfold threadBase
  omega

/-- The exclusive or of two blocks.
Kind: D -/
def xorBlock (b v : Block) : Block := fun i => b i ^^^ v i

/-- A block added twice is gone.
Kind: L -/
@[simp]
theorem xorBlock_xorBlock (b v : Block) : xorBlock v (xorBlock v b) = b := by
  funext i
  exact xor_xor_self_left _ _

/-- Adding different blocks to one block gives different blocks.
Kind: L -/
theorem xorBlock_injective (b : Block) : Function.Injective (xorBlock b) :=
  Function.LeftInverse.injective fun v => xorBlock_xorBlock v b

/-- The words of a sum.
Kind: L -/
theorem wordsOf_xorBlock (b v : Block) :
    wordsOf (xorBlock b v) = addWords (wordsOf b) (wordsOf v) := by
  apply stateOf_injective
  rw [stateOf_addWords, stateOf_wordsOf, stateOf_wordsOf, stateOf_wordsOf]
  rfl

/-- The block of a sum.
Kind: L -/
theorem ofWords_addWords (s k : Words) :
    ofWords (addWords s k) = xorBlock (ofWords s) (ofWords k) := by
  unfold ofWords
  rw [stateOf_addWords]
  rfl

/-! ## Each kernel as a function of blocks -/

section kernels

variable (rk : ℕ → BitVec 32) (nrounds : ℕ)

/-- `aes_encrypt_bpt`.
Kind: L -/
theorem aesEncryptBpt_block :
    BlockKernel (aesEncryptBpt rk nrounds) threadBase fun _ => encBlock rk nrounds := by
  intro t text
  have hload := addWords_keyWords (wordsAt text (threadBase t)) rk
  show _ = writeBlock text (threadBase t) (encBlock rk nrounds (readBlock 16 text (threadBase t)))
  rw [encBlock, ← wordsAt_eq, ← putWords_eq, hload, ← aesEncryptBptWords_eq]
  rfl

/-- `aes_decrypt_bpt`.
Kind: L -/
theorem aesDecryptBpt_block :
    BlockKernel (aesDecryptBpt rk nrounds) threadBase fun _ => decBlock rk nrounds := by
  intro t text
  have hload := addWords_keyWords (wordsAt text (threadBase t)) rk
  show _ = writeBlock text (threadBase t) (decBlock rk nrounds (readBlock 16 text (threadBase t)))
  rw [decBlock, ← wordsAt_eq, ← putWords_eq, hload, ← aesDecryptBptWords_eq]
  rfl

/-- The iv of a thread: `ivs+threadIdx.x`.
Source: `xt_TOGPU_kernel.cu` 1463
Kind: D -/
def ivBlock (ivs : Text) (tid : ℕ) : Block := readBlock 16 ivs (16 * tid)

/-- The words of an XTS kernel after the first key addition.
Kind: L -/
theorem xts_load (ivs text : Text) (t : ℕ) :
    addWords (wordsOf (xorBlock (ivBlock ivs t) (readBlock 16 text (threadBase t))))
        (keyWords rk 0) =
      ![swapU32 (loadU32 ivs (16 * t + 4 * 0) ^^^ loadU32 text (32 + 16 * t)) ^^^ rk 0,
        swapU32 (loadU32 ivs (16 * t + 4 * 1) ^^^ loadU32 text (32 + 16 * t + 4)) ^^^ rk 1,
        swapU32 (loadU32 ivs (16 * t + 4 * 2) ^^^ loadU32 text (32 + 16 * t + 8)) ^^^ rk 2,
        swapU32 (loadU32 ivs (16 * t + 4 * 3) ^^^ loadU32 text (32 + 16 * t + 12)) ^^^ rk 3] := by
  rw [wordsOf_xorBlock, ivBlock, ← wordsAt_eq, ← wordsAt_eq, addWords_keyWords]
  simp only [swapU32_xor, loadU32_eq, swapU32_swapU32]
  rfl

/-- The stores of an XTS kernel.
Kind: L -/
theorem xts_store (ivs text : Text) (t : ℕ) (s : Words) :
    writeBlock text (threadBase t) (xorBlock (ivBlock ivs t) (ofWords s)) =
      storeU32 (storeU32 (storeU32 (storeU32 text (32 + 16 * t)
        (loadU32 ivs (16 * t + 4 * 0) ^^^ swapU32 (s 0))) (32 + 16 * t + 4)
        (loadU32 ivs (16 * t + 4 * 1) ^^^ swapU32 (s 1))) (32 + 16 * t + 8)
        (loadU32 ivs (16 * t + 4 * 2) ^^^ swapU32 (s 2))) (32 + 16 * t + 12)
        (loadU32 ivs (16 * t + 4 * 3) ^^^ swapU32 (s 3)) := by
  have hiv : ivBlock ivs t = ofWords (wordsAt ivs (16 * t)) := by
    rw [wordsAt_eq, ofWords_wordsOf]
    rfl
  rw [hiv, ← ofWords_addWords, ← putWords_eq]
  simp only [storeU32_eq, swapU32_xor, loadU32_eq, swapU32_swapU32]
  rfl

/-- `xts_encrypt`: the iv is added before and after.
Kind: L -/
theorem xtsEncrypt_block (ivs : Text) :
    BlockKernel (xtsEncrypt rk nrounds ivs) threadBase fun t b =>
      xorBlock (ivBlock ivs t) (encBlock rk nrounds (xorBlock (ivBlock ivs t) b)) := by
  intro t text
  show _ = writeBlock text (threadBase t) (xorBlock (ivBlock ivs t)
    (encBlock rk nrounds (xorBlock (ivBlock ivs t) (readBlock 16 text (threadBase t)))))
  rw [encBlock, xts_load, ← xtsEncryptWords_eq, xts_store]
  rfl

/-- `xts_decrypt`: the iv is added before and after.
Kind: L -/
theorem xtsDecrypt_block (ivs : Text) :
    BlockKernel (xtsDecrypt rk nrounds ivs) threadBase fun t b =>
      xorBlock (ivBlock ivs t) (decBlock rk nrounds (xorBlock (ivBlock ivs t) b)) := by
  intro t text
  show _ = writeBlock text (threadBase t) (xorBlock (ivBlock ivs t)
    (decBlock rk nrounds (xorBlock (ivBlock ivs t) (readBlock 16 text (threadBase t)))))
  rw [decBlock, xts_load, ← xtsDecryptWords_eq, xts_store]
  rfl

/-- The counter block of a thread.
Source: `xt_TOGPU_kernel.cu` 891, 1009
Kind: D -/
def counterBlock (ctr : Text) (tid : ℕ) : Block :=
  readBlock 16 (bigU128Add ctr (BitVec.ofNat 64 tid) fun _ => 0) 0

/-- The words of a counter-mode kernel after the first key addition.
Kind: L -/
theorem ctr_load (ctr : Text) (t : ℕ) :
    addWords (wordsOf (counterBlock ctr t)) (keyWords rk 0) =
      let res := bigU128Add ctr (BitVec.ofNat 64 t) fun _ => 0
      ![getU32 res 0 ^^^ rk 0, getU32 res 4 ^^^ rk 1, getU32 res 8 ^^^ rk 2,
        getU32 res 12 ^^^ rk 3] := by
  rw [counterBlock, ← wordsAt_eq, addWords_keyWords]
  rfl

/-- The stores of a counter-mode kernel: each word is loaded after the stores before it, which do
not reach it.
Kind: L -/
theorem ctr_store (text : Text) (t : ℕ) (s : Words) :
    writeBlock text (threadBase t) (xorBlock (readBlock 16 text (threadBase t)) (ofWords s)) =
      let txt := 32 + 16 * t
      let text := storeU32 text txt (loadU32 text txt ^^^ swapU32 (s 0))
      let text := storeU32 text (txt + 4) (loadU32 text (txt + 4) ^^^ swapU32 (s 1))
      let text := storeU32 text (txt + 8) (loadU32 text (txt + 8) ^^^ swapU32 (s 2))
      storeU32 text (txt + 12) (loadU32 text (txt + 12) ^^^ swapU32 (s 3)) := by
  have hread : readBlock 16 text (threadBase t) = ofWords (wordsAt text (threadBase t)) := by
    rw [wordsAt_eq, ofWords_wordsOf]
  rw [hread, ← ofWords_addWords, ← putWords_eq]
  simp only [storeU32_eq, swapU32_xor, loadU32_eq, swapU32_swapU32]
  rw [getU32_putU32_of_disjoint (by omega), getU32_putU32_of_disjoint (by omega),
    getU32_putU32_of_disjoint (by omega), getU32_putU32_of_disjoint (by omega),
    getU32_putU32_of_disjoint (by omega), getU32_putU32_of_disjoint (by omega)]
  rfl

/-- `aes_lctr_crypt`: the cipher of the counter block is added.
Kind: L -/
theorem aesLctrCrypt_block (ctr : Text) :
    BlockKernel (aesLctrCrypt rk nrounds ctr) threadBase fun t b =>
      xorBlock b (encBlock rk nrounds (counterBlock ctr t)) := by
  intro t text
  show _ = writeBlock text (threadBase t)
    (xorBlock (readBlock 16 text (threadBase t)) (encBlock rk nrounds (counterBlock ctr t)))
  rw [encBlock, ctr_load, ← aesLctrCryptWords_eq, ctr_store]
  rfl

/-- `aes_ctr_crypt`: the cipher of the counter block is added.
Kind: L -/
theorem aesCtrCrypt_block (ctr : Text) :
    BlockKernel (aesCtrCrypt rk nrounds ctr) threadBase fun t b =>
      xorBlock b (encBlock rk nrounds (counterBlock ctr t)) := by
  intro t text
  show _ = writeBlock text (threadBase t)
    (xorBlock (readBlock 16 text (threadBase t)) (encBlock rk nrounds (counterBlock ctr t)))
  rw [encBlock, ctr_load, ← aesCtrCryptWords_eq, ctr_store]
  rfl

end kernels

/-! ## Block encryption -/

/-- **`aes_encrypt_bpt` is the cipher.** Run for the threads below `n` in any order, it replaces the
block of each of them by its FIPS 197 cipher under the round keys, and leaves every other byte of
the text.
Source: `xt_TOGPU_kernel.cu` 1121–1232
Kind: P
Fidelity: exact
Hyps: 10, 12 or 14 rounds; `order` lists the threads `0 … n - 1` -/
theorem aesEncryptBpt_is_cipher {nrounds : ℕ} (h : Standard nrounds) (rk : ℕ → BitVec 32)
    (text : Text) {n : ℕ} {order : List ℕ} (horder : order.Perm (List.range n)) :
    (∀ t < n, readBlock 16 (launch (aesEncryptBpt rk nrounds) order text) (32 + 16 * t) =
      cipher rk nrounds (readBlock 16 text (32 + 16 * t))) ∧
    ∀ x, (∀ t < n, ¬ (32 + 16 * t ≤ x ∧ x < 48 + 16 * t)) →
      launch (aesEncryptBpt rk nrounds) order text x = text x := by
  have hkernel := aesEncryptBpt_block rk nrounds
  constructor
  · intro t ht
    have hmem : t ∈ order := horder.mem_iff.mpr (List.mem_range.mpr ht)
    have hnodup : order.Nodup := horder.nodup_iff.mpr List.nodup_range
    rw [← encBlock_eq_cipher h]
    exact readBlock_launch hkernel threadBase_apart hnodup hmem text
  · intro x hx
    apply launch_frame hkernel
    intro t ht
    have hlt := List.mem_range.mp (horder.mem_iff.mp ht)
    have hout := hx t hlt
    unfold threadBase
    omega

/-- Two threads, the second first, with ten rounds under the zero key.
Kind: C -/
theorem aesEncryptBpt_is_cipher_two :
    readBlock 16 (launch (aesEncryptBpt (fun _ => 0) 10) [1, 0] fun _ => 0) 48 =
      cipher (fun _ => 0) 10 (readBlock 16 (fun _ => 0) 48) :=
  (aesEncryptBpt_is_cipher (Or.inl rfl) (fun _ => 0) (fun _ => 0)
    (by decide : [1, 0].Perm (List.range 2))).1 1 (by decide)

/-! ## Decryption -/

/-- The round keys `dk` of the equivalent inverse cipher: those of `rk` in reverse order, with
`InvMixColumns` applied to all but the first and the last.
Kind: D -/
def EquivalentInverse (nrounds : ℕ) (rk dk : ℕ → BitVec 32) : Prop :=
  ∀ i ≤ nrounds, roundKey dk i =
    if i = 0 ∨ i = nrounds then roundKey rk (nrounds - i)
    else invMixColumns (roundKey rk (nrounds - i))

/-- Such keys match in the sense of key-alternating ciphers.
Kind: L -/
theorem EquivalentInverse.matching {nrounds : ℕ} {rk dk : ℕ → BitVec 32}
    (h : EquivalentInverse nrounds rk dk) :
    KeyAlternating.Matching (invLayers tdSub) nrounds (roundKey rk) (roundKey dk) where
  first := by
    have hkey := h 0 (Nat.zero_le _)
    rwa [if_pos (Or.inl rfl), Nat.sub_zero] at hkey
  between i hpos hlt := by
    have hkey := h i hlt.le
    rwa [if_neg (by omega)] at hkey
  last := by
    have hkey := h nrounds le_rfl
    rwa [if_pos (Or.inr rfl), Nat.sub_self] at hkey

/-- The decryption listing inverts the encryption listing.
Kind: L -/
theorem decBlock_encBlock {nrounds : ℕ} (h : Standard nrounds) {rk dk : ℕ → BitVec 32}
    (hdk : EquivalentInverse nrounds rk dk) (b : Block) :
    decBlock dk nrounds (encBlock rk nrounds b) = b := by
  have hpos : 0 < nrounds := by rcases h with rfl | rfl | rfl <;> decide
  rw [decBlock_eq h, encBlock_eq_cipher h, cipher, toState_ofState,
    KeyAlternating.encrypt_encrypt (undoes_invLayers tdSub_sbox) hpos hdk.matching,
    ofState_toState]

/-- **Decryption inverts encryption**, in both modes, whatever the order of the threads in either
launch.
Source: `xt_TOGPU_kernel.cu` 1121–1349, 1458–1721
Kind: P
Fidelity: exact
Hyps: 10, 12 or 14 rounds; `dk` matches `rk`; both orders list the threads `0 … n - 1` -/
theorem decryption_inverts_encryption {nrounds : ℕ} (h : Standard nrounds)
    {rk dk : ℕ → BitVec 32} (hdk : EquivalentInverse nrounds rk dk) (ivs text : Text) {n : ℕ}
    {order order' : List ℕ} (horder : order.Perm (List.range n))
    (horder' : order'.Perm (List.range n)) :
    launch (aesDecryptBpt dk nrounds) order' (launch (aesEncryptBpt rk nrounds) order text) =
        text ∧
      launch (xtsDecrypt dk nrounds ivs) order' (launch (xtsEncrypt rk nrounds ivs) order text) =
        text := by
  have hnodup : order.Nodup := horder.nodup_iff.mpr List.nodup_range
  have hperm : order'.Perm order := horder'.trans horder.symm
  constructor
  · refine launch_launch (aesEncryptBpt_block rk nrounds) (aesDecryptBpt_block dk nrounds)
      threadBase_apart hnodup hperm ?_ text
    intro t _ b
    exact decBlock_encBlock h hdk b
  · refine launch_launch (xtsEncrypt_block rk nrounds ivs) (xtsDecrypt_block dk nrounds ivs)
      threadBase_apart hnodup hperm ?_ text
    intro t _ b
    -- the iv cancels between the two ciphers, and outside them
    rw [xorBlock_xorBlock, decBlock_encBlock h hdk, xorBlock_xorBlock]

/-- The equivalent inverse of an array of round keys.
Kind: D -/
def inverseKeys (nrounds : ℕ) (rk : ℕ → BitVec 32) (j : ℕ) : BitVec 32 :=
  let i := j / 4
  let k := if i = 0 ∨ i = nrounds then roundKey rk (nrounds - i)
    else invMixColumns (roundKey rk (nrounds - i))
  let c : Fin 4 := ⟨j % 4, Nat.mod_lt j (by decide)⟩
  wordOf (k 0 c) (k 1 c) (k 2 c) (k 3 c)

/-- Every array of round keys has one.
Kind: L -/
theorem equivalentInverse_inverseKeys (nrounds : ℕ) (rk : ℕ → BitVec 32) :
    EquivalentInverse nrounds rk (inverseKeys nrounds rk) := by
  intro i _
  funext r c
  have hi : (4 * i + c : ℕ) / 4 = i := by omega
  have hc : (⟨(4 * i + c : ℕ) % 4, Nat.mod_lt _ (by decide)⟩ : Fin 4) = c :=
    Fin.ext (by simp only; omega)
  simp only [roundKey, inverseKeys, wordByte_wordOf, hi, hc]
  fin_cases r <;> rfl

/-- Three threads, in two orders.
Kind: C -/
theorem decryption_inverts_encryption_three :
    let rk := fun i => BitVec.ofNat 32 i
    let text : Text := fun i => BitVec.ofNat 8 i
    launch (aesDecryptBpt (inverseKeys 14 rk) 14) [0, 1, 2]
        (launch (aesEncryptBpt rk 14) [2, 0, 1] text) = text ∧
      launch (xtsDecrypt (inverseKeys 14 rk) 14 text) [0, 1, 2]
        (launch (xtsEncrypt rk 14 text) [2, 0, 1] text) = text :=
  decryption_inverts_encryption (Or.inr (Or.inr rfl)) (equivalentInverse_inverseKeys 14 _) _ _
    (n := 3) (by decide) (by decide)

end Togpu.Gpu
