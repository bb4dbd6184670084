import Mathlib.Data.Fin.VecNotation
import Mathlib.Data.Finite.Prod
import Mathlib.Tactic.FinCases
import Togpu.Lib.Bytes
import Togpu.Lib.Gf256
import Togpu.Lib.KeyAlternating

/-!
# The block cipher of FIPS 197

The state is a 4×4 array of bytes, filled from a block of 16 bytes column by column; a round key
is four words, one for each column, the first byte of a word being its most significant. The
number of rounds and the expanded key are arbitrary.

* `sbox` — inversion followed by the affine map; `subBytes`, `shiftRows`, `mixColumns` and the
  addition of a round key are the layers, `cipher` is the cipher on blocks.
* `invShiftRows`, `invMixColumns` and an inverse of the S-box give the equivalent inverse cipher.
* **The inverse layers undo the layers** (`undoes_invLayers`) and keep distinct states distinct
  (`faithful_invLayers`), so that the rules for key-alternating ciphers apply to them.
-/

namespace Togpu.Lib.Fips197

/-! ## The state -/

/-- The state: row, column.
Kind: D -/
abbrev State := Fin 4 → Fin 4 → BitVec 8

/-- A block of input or output.
Kind: D -/
abbrev Block := Fin 16 → BitVec 8

/-- Byte `r` of a word, from the most significant on.
Kind: D -/
def wordByte (w : BitVec 32) (r : Fin 4) : BitVec 8 := w.extractLsb' (24 - 8 * r) 8

/-- The word of four bytes, the most significant first.
Kind: D -/
def wordOf (b0 b1 b2 b3 : BitVec 8) : BitVec 32 :=
  b0.setWidth 32 <<< 24 ||| b1.setWidth 32 <<< 16 ||| b2.setWidth 32 <<< 8 ||| b3.setWidth 32

/-- The state of a block.
Kind: D -/
def toState (b : Block) : State := fun r c => b ⟨r + 4 * c, by omega⟩

/-- The block of a state.
Kind: D -/
def ofState (s : State) : Block := fun i => s ⟨i % 4, by omega⟩ ⟨i / 4, by omega⟩

/-! ## The transformations -/

/-- The affine map of the S-box.
Kind: D -/
def affine (b : BitVec 8) : BitVec 8 :=
  b ^^^ b.rotateLeft 1 ^^^ b.rotateLeft 2 ^^^ b.rotateLeft 3 ^^^ b.rotateLeft 4 ^^^ 0x63

/-- The S-box.
Kind: D -/
def sbox (x : BitVec 8) : BitVec 8 := affine (gfInv x)

/-- The S-box on every byte.
Kind: D -/
def subBytes (s : State) : State := fun r c => sbox (s r c)

/-- Row `r` moves `r` places to the left.
Kind: D -/
def shiftRows (s : State) : State := fun r c => s r (c + r)

/-- Each column times `3x³ + x² + x + 2`.
Kind: D -/
def mixColumns (s : State) : State := fun r c =>
  gfMul 2 (s r c) ^^^ gfMul 3 (s (r + 1) c) ^^^ s (r + 2) c ^^^ s (r + 3) c

/-- The exclusive or of two states.
Kind: D -/
def addState (s k : State) : State := fun r c => s r c ^^^ k r c

/-- The round key of a round, from the expanded key.
Kind: D -/
def roundKey (w : ℕ → BitVec 32) (round : ℕ) : State := fun r c => wordByte (w (4 * round + c)) r

/-- The layers of a round.
Kind: D -/
def layers : KeyAlternating State where
  add := addState
  sub := fun s => shiftRows (subBytes s)
  mix := mixColumns

/-- The cipher.
Kind: D -/
def cipher (w : ℕ → BitVec 32) (nr : ℕ) (b : Block) : Block :=
  ofState (layers.encrypt (roundKey w) nr (toState b))

/-! ## The inverse transformations -/

/-- Row `r` moves `r` places to the right.
Kind: D -/
def invShiftRows (s : State) : State := fun r c => s r (c - r)

/-- Each column times `11x³ + 13x² + 9x + 14`.
Kind: D -/
def invMixColumns (s : State) : State := fun r c =>
  gfMul 14 (s r c) ^^^ gfMul 11 (s (r + 1) c) ^^^ gfMul 13 (s (r + 2) c) ^^^ gfMul 9 (s (r + 3) c)

/-- The layers of the equivalent inverse cipher, for an inverse of the S-box.
Kind: D -/
def invLayers (invSbox : BitVec 8 → BitVec 8) : KeyAlternating State where
  add := addState
  sub := fun s => invShiftRows fun r c => invSbox (s r c)
  mix := invMixColumns

/-! ## Blocks and states -/

/-- A block is its state.
Kind: L -/
@[simp]
theorem ofState_toState (b : Block) : ofState (toState b) = b := by
  funext i
  unfold ofState toState
  congr 1
  apply Fin.ext
  simp only
  omega

/-- A state is its block.
Kind: L -/
@[simp]
theorem toState_ofState (s : State) : toState (ofState s) = s := by
  funext r c
  have hr : (⟨(r + 4 * c : ℕ) % 4, by omega⟩ : Fin 4) = r := Fin.ext (by simp only; omega)
  have hc : (⟨(r + 4 * c : ℕ) / 4, by omega⟩ : Fin 4) = c := Fin.ext (by simp only; omega)
  simp only [toState, ofState, hr, hc]

/-- The bytes of a sum of words.
Kind: L -/
@[simp]
theorem wordByte_xor (a b : BitVec 32) (r : Fin 4) :
    wordByte (a ^^^ b) r = wordByte a r ^^^ wordByte b r :=
  BitVec.extractLsb'_xor

/-- The bytes of a word of four bytes.
Kind: L -/
@[simp]
theorem wordByte_wordOf (b0 b1 b2 b3 : BitVec 8) (r : Fin 4) :
    wordByte (wordOf b0 b1 b2 b3) r = ![b0, b1, b2, b3] r := by
  apply BitVec.eq_of_getLsbD_eq
  intro i hi
  fin_cases r <;>
    simp (disch := omega) [wordByte, wordOf, hi, BitVec.getLsbD_of_ge] <;> grind

/-- Words with the same bytes are the same.
Kind: L -/
theorem word_ext {a b : BitVec 32} (h : ∀ r, wordByte a r = wordByte b r) : a = b := by
  apply BitVec.eq_of_getLsbD_eq
  intro i hi
  -- bit `i` is bit `i % 8` of byte `3 - i / 8`
  have hbyte := congrArg (fun x => x.getLsbD (i % 8)) (h ⟨3 - i / 8, by omega⟩)
  have hpos : 24 - 8 * (3 - i / 8) + i % 8 = i := by omega
  simpa [wordByte, BitVec.getLsbD_extractLsb', hpos, Nat.mod_lt] using hbyte

/-! ## The column polynomials -/

/-- The product of the two column polynomials is one, coefficient by coefficient.
Kind: L -/
theorem mix_coeffs (a : BitVec 8) :
    gfMul 14 (gfMul 2 a) ^^^ gfMul 11 a ^^^ gfMul 13 a ^^^ gfMul 9 (gfMul 3 a) = a ∧
      gfMul 14 (gfMul 3 a) ^^^ gfMul 11 (gfMul 2 a) ^^^ gfMul 13 a ^^^ gfMul 9 a = 0#8 ∧
      gfMul 14 a ^^^ gfMul 11 (gfMul 3 a) ^^^ gfMul 13 (gfMul 2 a) ^^^ gfMul 9 a = 0#8 ∧
      gfMul 14 a ^^^ gfMul 11 a ^^^ gfMul 13 (gfMul 3 a) ^^^ gfMul 9 (gfMul 2 a) = 0#8 := by
  simp only [gfMul_two, gfMul_three, gfMul_nine, gfMul_eleven, gfMul_thirteen, gfMul_fourteen,
    xtime_xor]
  -- equal iterates of `xtime` cancel in pairs
  refine ⟨?_, ?_, ?_, ?_⟩ <;>
    simp only [BitVec.xor_assoc, BitVec.xor_comm, xor_left_comm, BitVec.xor_self,
      xor_xor_self_left, BitVec.xor_zero]

/-- The inverse column polynomial undoes the column polynomial.
Kind: P -/
theorem invMixColumns_mixColumns (s : State) : invMixColumns (mixColumns s) = s := by
  funext r c
  have h1 : r + 1 + 1 = r + 2 := by omega
  have h2 : r + 1 + 2 = r + 3 := by omega
  have h3 : r + 1 + 3 = r := by omega
  have h4 : r + 2 + 1 = r + 3 := by omega
  have h5 : r + 2 + 2 = r := by omega
  have h6 : r + 2 + 3 = r + 1 := by omega
  have h7 : r + 3 + 1 = r := by omega
  have h8 : r + 3 + 2 = r + 1 := by omega
  have h9 : r + 3 + 3 = r + 2 := by omega
  simp only [invMixColumns, mixColumns, h1, h2, h3, h4, h5, h6, h7, h8, h9, gfMul_xor]
  calc _ = (gfMul 14 (gfMul 2 (s r c)) ^^^ gfMul 11 (s r c) ^^^ gfMul 13 (s r c) ^^^
          gfMul 9 (gfMul 3 (s r c))) ^^^
        (gfMul 14 (gfMul 3 (s (r + 1) c)) ^^^ gfMul 11 (gfMul 2 (s (r + 1) c)) ^^^
          gfMul 13 (s (r + 1) c) ^^^ gfMul 9 (s (r + 1) c)) ^^^
        (gfMul 14 (s (r + 2) c) ^^^ gfMul 11 (gfMul 3 (s (r + 2) c)) ^^^
          gfMul 13 (gfMul 2 (s (r + 2) c)) ^^^ gfMul 9 (s (r + 2) c)) ^^^
        (gfMul 14 (s (r + 3) c) ^^^ gfMul 11 (s (r + 3) c) ^^^
          gfMul 13 (gfMul 3 (s (r + 3) c)) ^^^ gfMul 9 (gfMul 2 (s (r + 3) c))) := by ac_rfl
    _ = s r c := by
      rw [(mix_coeffs _).1, (mix_coeffs _).2.1, (mix_coeffs _).2.2.1, (mix_coeffs _).2.2.2]
      simp

/-- The inverse column polynomial is additive.
Kind: L -/
theorem invMixColumns_addState (s k : State) :
    invMixColumns (addState s k) = addState (invMixColumns s) (invMixColumns k) := by
  funext r c
  simp only [invMixColumns, addState, gfMul_xor]
  ac_rfl

/-! ## The inverse layers -/

/-- **The inverse layers undo the layers.**
Kind: P -/
theorem undoes_invLayers {invSbox : BitVec 8 → BitVec 8}
    (hinv : Function.LeftInverse invSbox sbox) :
    KeyAlternating.Undoes (invLayers invSbox) layers where
  add_eq := rfl
  add_add b k := by
    funext r c
    exact xor_xor_self_right _ _
  sub_sub b := by
    funext r c
    simp only [invLayers, layers, invShiftRows, shiftRows, subBytes, sub_add_cancel]
    exact hinv _
  mix_mix := invMixColumns_mixColumns
  mix_add := invMixColumns_addState

/-- There are finitely many states.
Kind: L -/
instance finite_state : Finite State := by
  have hbyte : Finite (BitVec 8) :=
    Finite.of_injective BitVec.toFin fun _ _ => BitVec.eq_of_toFin_eq
  exact Pi.finite

/-- The inverse layers keep distinct states distinct.
Kind: P -/
theorem faithful_invLayers {invSbox : BitVec 8 → BitVec 8}
    (hinv : Function.LeftInverse invSbox sbox) :
    KeyAlternating.Faithful (invLayers invSbox) := by
  refine (undoes_invLayers hinv).faithful ?_
  intro s k k' h
  funext r c
  have hbyte : s r c ^^^ k r c = s r c ^^^ k' r c := congrFun (congrFun h r) c
  rw [← xor_xor_self_left (s r c) (k r c), hbyte, xor_xor_self_left]

end Togpu.Lib.Fips197
