import Mathlib.Data.Fintype.EquivFin

/-!
# Key-alternating block ciphers

A block cipher that adds a round key, then repeats a substitution layer, a mixing layer and the
addition of the next round key; the last round has no mixing layer. Blocks, the addition and the
two layers are arbitrary, and round keys are blocks.

* `KeyAlternating`, `rounds`, `encrypt` — the layers, and the cipher they give.
* **The equivalent inverse cipher** (`encrypt_encrypt`): the cipher built from inverse layers, run
  with the round keys in reverse order and the inverse mixing layer applied to all but the first
  and the last, undoes the cipher. The two have the same order of layers.
* **One wrong round key** (`encrypt_ne_of_key_ne`): if the layers can be undone, two key sequences
  that differ in exactly one round key give different results on every block.
-/

namespace Togpu.Lib

variable {B : Type}

/-- The layers of a key-alternating cipher on blocks `B`.
Kind: D -/
structure KeyAlternating (B : Type) where
  /-- Addition of a round key (the second argument). -/
  add : B → B → B
  /-- The layer of every round. -/
  sub : B → B
  /-- The layer of every round but the last. -/
  mix : B → B

namespace KeyAlternating

/-- The block after the addition of the first round key and `n` full rounds.
Kind: D -/
def rounds (C : KeyAlternating B) (k : ℕ → B) : ℕ → B → B
  | 0, b => C.add b (k 0)
  | n + 1, b => C.add (C.mix (C.sub (rounds C k n b))) (k (n + 1))

/-- The cipher of `n` rounds, the last without mixing.
Kind: D -/
def encrypt (C : KeyAlternating B) (k : ℕ → B) (n : ℕ) (b : B) : B :=
  C.add (C.sub (C.rounds k (n - 1) b)) (k n)

/-! ## Which round keys matter -/

/-- Rounds read the round keys up to their number.
Kind: L -/
theorem rounds_congr (C : KeyAlternating B) {k k' : ℕ → B} {n : ℕ} (h : ∀ i ≤ n, k i = k' i)
    (b : B) : C.rounds k n b = C.rounds k' n b := by
  induction n with
  | zero => simp only [rounds, h 0 le_rfl]
  | succ n ih =>
      simp only [rounds]
      rw [ih fun i hi => h i (Nat.le_succ_of_le hi), h (n + 1) le_rfl]

/-- The cipher reads the round keys up to its number of rounds.
Kind: L -/
theorem encrypt_congr (C : KeyAlternating B) {k k' : ℕ → B} {n : ℕ} (h : ∀ i ≤ n, k i = k' i)
    (b : B) : C.encrypt k n b = C.encrypt k' n b := by
  unfold encrypt
  rw [C.rounds_congr (fun i hi => h i (Nat.le_trans hi (Nat.sub_le n 1))) b, h n le_rfl]

/-! ## Inverse layers -/

/-- The layers of `D` undo those of `C`; both add round keys the same way.
Kind: D -/
structure Undoes (D C : KeyAlternating B) : Prop where
  /-- One addition. -/
  add_eq : D.add = C.add
  /-- A round key added twice is gone. -/
  add_add : ∀ b k, C.add (C.add b k) k = b
  /-- The substitution layers. -/
  sub_sub : ∀ b, D.sub (C.sub b) = b
  /-- The mixing layers. -/
  mix_mix : ∀ b, D.mix (C.mix b) = b
  /-- The inverse mixing layer is additive. -/
  mix_add : ∀ b k, D.mix (C.add b k) = C.add (D.mix b) (D.mix k)

/-- The round keys of the equivalent inverse cipher: in reverse order, with the inverse mixing
layer applied to all but the first and the last.
Kind: D -/
structure Matching (D : KeyAlternating B) (n : ℕ) (k dk : ℕ → B) : Prop where
  /-- The first is the last. -/
  first : dk 0 = k n
  /-- Those between. -/
  between : ∀ i, 0 < i → i < n → dk i = D.mix (k (n - i))
  /-- The last is the first. -/
  last : dk n = k 0

/-- After `i` rounds the inverse cipher holds the state before the last `i + 1` key additions.
Kind: L -/
theorem rounds_encrypt {C D : KeyAlternating B} (hD : Undoes D C) {n : ℕ} {k dk : ℕ → B}
    (hk : Matching D n k dk) (b : B) {i : ℕ} (hi : i < n) :
    D.rounds dk i (C.encrypt k n b) = C.sub (C.rounds k (n - 1 - i) b) := by
  induction i with
  | zero =>
      simp only [rounds, encrypt, hk.first, hD.add_eq, Nat.sub_zero]
      exact hD.add_add _ _
  | succ i ih =>
      -- the state the round starts from ends with the addition of round key `n - 1 - i`
      have hprev : n - 1 - i = n - 1 - (i + 1) + 1 := by omega
      have hkey : n - 1 - (i + 1) + 1 = n - (i + 1) := by omega
      simp only [rounds]
      rw [ih (by omega), hD.sub_sub, hk.between (i + 1) (Nat.succ_pos i) hi, hprev]
      simp only [rounds]
      rw [hD.mix_add, hD.mix_mix, hD.add_eq, hkey, hD.add_add]

/-- **The equivalent inverse cipher** undoes the cipher.
Kind: P -/
theorem encrypt_encrypt {C D : KeyAlternating B} (hD : Undoes D C) {n : ℕ} (hn : 0 < n)
    {k dk : ℕ → B} (hk : Matching D n k dk) (b : B) :
    D.encrypt dk n (C.encrypt k n b) = b := by
  have hlast := rounds_encrypt hD hk b (i := n - 1) (by omega)
  rw [Nat.sub_self] at hlast
  rw [encrypt, hlast, hD.sub_sub, hk.last, hD.add_eq]
  exact hD.add_add _ _

/-! ## One wrong round key -/

/-- Every layer keeps distinct blocks distinct.
Kind: D -/
structure Faithful (C : KeyAlternating B) : Prop where
  /-- Distinct blocks, one round key. -/
  add_block : ∀ k, Function.Injective fun b => C.add b k
  /-- One block, distinct round keys. -/
  add_key : ∀ b, Function.Injective (C.add b)
  /-- The substitution layer. -/
  sub : Function.Injective C.sub
  /-- The mixing layer. -/
  mix : Function.Injective C.mix

/-- On finitely many blocks, layers that undo others keep distinct blocks distinct.
Kind: L -/
theorem Undoes.faithful [Finite B] {C D : KeyAlternating B} (hD : Undoes D C)
    (hkey : ∀ b, Function.Injective (C.add b)) : Faithful D where
  add_block k := by
    intro b b' h
    simp only [hD.add_eq] at h
    rw [← hD.add_add b k, h, hD.add_add]
  add_key b := by
    rw [hD.add_eq]
    exact hkey b
  sub := Finite.injective_iff_surjective.mpr (Function.LeftInverse.surjective hD.sub_sub)
  mix := Finite.injective_iff_surjective.mpr (Function.LeftInverse.surjective hD.mix_mix)

/-- A difference that appears in a round stays.
Kind: L -/
theorem rounds_ne {C : KeyAlternating B} (hC : Faithful C) {k k' : ℕ → B} {i n : ℕ} (b : B)
    (hne : k i ≠ k' i) (h : ∀ j ≤ n, j ≠ i → k j = k' j) (hi : i ≤ n) :
    C.rounds k n b ≠ C.rounds k' n b := by
  induction n with
  | zero =>
      obtain rfl : i = 0 := Nat.le_zero.mp hi
      exact fun heq => hne (hC.add_key b heq)
  | succ n ih =>
      intro heq
      simp only [rounds] at heq
      rcases Nat.lt_or_ge n i with hlast | hearlier
      · -- the wrong key is the one of this round: the rounds before it agree
        obtain rfl : i = n + 1 := by omega
        have hbefore : C.rounds k n b = C.rounds k' n b :=
          C.rounds_congr (fun j hj => h j (by omega) (by omega)) b
        rw [hbefore] at heq
        exact hne (hC.add_key _ heq)
      · -- the wrong key came before: this round only carries the difference on
        rw [h (n + 1) le_rfl (by omega)] at heq
        have hcarried := hC.sub (hC.mix (hC.add_block _ heq))
        exact ih (fun j hj => h j (by omega)) hearlier hcarried

/-- **One wrong round key** changes the result on every block.
Kind: P -/
theorem encrypt_ne_of_key_ne {C : KeyAlternating B} (hC : Faithful C) {k k' : ℕ → B} {i n : ℕ}
    (b : B) (hne : k i ≠ k' i) (h : ∀ j ≤ n, j ≠ i → k j = k' j) (hi : i ≤ n) (hn : 0 < n) :
    C.encrypt k n b ≠ C.encrypt k' n b := by
  intro heq
  unfold encrypt at heq
  rcases Nat.lt_or_ge i n with hearlier | hlast
  · rw [h n le_rfl (by omega)] at heq
    have hcarried := hC.sub (hC.add_block _ heq)
    exact rounds_ne hC b hne (fun j hj => h j (by omega)) (by omega) hcarried
  · obtain rfl : i = n := by omega
    have hbefore : C.rounds k (i - 1) b = C.rounds k' (i - 1) b :=
      C.rounds_congr (fun j hj => h j (by omega) (by omega)) b
    rw [hbefore] at heq
    exact hne (hC.add_key _ heq)

/-- The same keys are needed, if at most one of them is in doubt.
Kind: P -/
theorem encrypt_eq_iff {C : KeyAlternating B} (hC : Faithful C) {k k' : ℕ → B} {i n : ℕ} (b : B)
    (h : ∀ j ≤ n, j ≠ i → k j = k' j) (hi : i ≤ n) (hn : 0 < n) :
    C.encrypt k n b = C.encrypt k' n b ↔ ∀ j ≤ n, k j = k' j := by
  constructor
  · intro heq j hj
    by_cases hji : j = i
    · subst hji
      by_contra hne
      exact encrypt_ne_of_key_ne hC b hne h hi hn heq
    · exact h j hj hji
  · exact fun heq => C.encrypt_congr heq b

end KeyAlternating

end Togpu.Lib
