import Togpu.Gpu.Counter

/-!
# Counter mode as a stream cipher

`aes_ctr_crypt` and `aes_lctr_crypt` add to each block of the text the encrypted counter block of
its thread. Here a whole launch is one sum of the text and a stream of bytes that does not depend
on the text.

* `keystream` — that stream: zero outside the blocks of the threads.
* **A launch of either kernel is the sum of the text and the stream**, in any order of the threads,
  so either kernel undoes either (`counterMode_is_stream`).
* **When a stream is used twice** (`two_time_pad_iff`): the sum of two cipher blocks is that of the
  two text blocks exactly if the lower halves of the counters and the thread numbers have the same
  sum; the upper halves do not matter.
-/

namespace Togpu.Gpu

open Togpu.Lib Togpu.Lib.Fips197

/-- The stream that a launch of `n` threads adds to the text.
Source: `xt_TOGPU_kernel.cu` 885–1115
Kind: D -/
def keystream (rk : ℕ → BitVec 32) (nrounds : ℕ) (ctr : Text) (n : ℕ) : Text := fun x =>
  if 32 ≤ x ∧ x < 32 + 16 * n then
    encBlock rk nrounds (counterBlock ctr ((x - 32) / 16)) ⟨(x - 32) % 16, by omega⟩
  else 0

/-- The kernel is one of the two of counter mode.
Kind: D -/
def IsCounterMode (rk : ℕ → BitVec 32) (nrounds : ℕ) (ctr : Text)
    (kernel : ℕ → Text → Text) : Prop :=
  kernel = aesCtrCrypt rk nrounds ctr ∨ kernel = aesLctrCrypt rk nrounds ctr

section launches

variable {rk : ℕ → BitVec 32} {nrounds : ℕ} {ctr : Text} {kernel : ℕ → Text → Text}

/-- Both kernels add the encrypted counter block.
Kind: L -/
theorem IsCounterMode.block (h : IsCounterMode rk nrounds ctr kernel) :
    BlockKernel kernel threadBase fun t b =>
      xorBlock b (encBlock rk nrounds (counterBlock ctr t)) := by
  rcases h with rfl | rfl
  · exact aesCtrCrypt_block rk nrounds ctr
  · exact aesLctrCrypt_block rk nrounds ctr

/-- A cipher block of a launch.
Kind: L -/
theorem IsCounterMode.readBlock_launch (h : IsCounterMode rk nrounds ctr kernel) {n : ℕ}
    {order : List ℕ} (horder : order.Perm (List.range n)) (text : Text) {t : ℕ} (ht : t < n) :
    readBlock 16 (launch kernel order text) (threadBase t) =
      xorBlock (readBlock 16 text (threadBase t)) (encBlock rk nrounds (counterBlock ctr t)) :=
  Lib.readBlock_launch h.block threadBase_apart (horder.nodup_iff.mpr List.nodup_range)
    (horder.mem_iff.mpr (List.mem_range.mpr ht)) text

/-- A launch is a sum.
Kind: L -/
theorem IsCounterMode.launch_eq (h : IsCounterMode rk nrounds ctr kernel) {n : ℕ}
    {order : List ℕ} (horder : order.Perm (List.range n)) (text : Text) :
    launch kernel order text = fun x => text x ^^^ keystream rk nrounds ctr n x := by
  funext x
  unfold keystream
  split_ifs with hx
  · -- the byte lies in the block of thread `(x - 32) / 16`
    have ht : (x - 32) / 16 < n := by omega
    have hbyte := congrFun (h.readBlock_launch horder text ht) ⟨(x - 32) % 16, by omega⟩
    have hpos : threadBase ((x - 32) / 16) + (x - 32) % 16 = x := by
      unfold threadBase
      omega
    simpa [readBlock, xorBlock, hpos] using hbyte
  · have hzero : text x ^^^ 0 = text x := BitVec.xor_zero
    rw [hzero]
    apply launch_frame h.block
    intro t ht
    have hlt := List.mem_range.mp (horder.mem_iff.mp ht)
    unfold threadBase
    omega

end launches

/-- **A launch in counter mode is the sum of the text and the stream**, for either kernel, any round
keys and round count and any order of the threads; and a second launch of either kernel, in any
order, gives the text back.
Source: `xt_TOGPU_kernel.cu` 863–1115
Kind: P
Fidelity: exact
Hyps: both kernels are of counter mode with the same keys and counter; both orders list the threads
`0 … n - 1` -/
theorem counterMode_is_stream {rk : ℕ → BitVec 32} {nrounds : ℕ} {ctr : Text}
    {kernel kernel' : ℕ → Text → Text} (h : IsCounterMode rk nrounds ctr kernel)
    (h' : IsCounterMode rk nrounds ctr kernel') {n : ℕ} {order order' : List ℕ}
    (horder : order.Perm (List.range n)) (horder' : order'.Perm (List.range n)) (text : Text) :
    (launch kernel order text = fun x => text x ^^^ keystream rk nrounds ctr n x) ∧
      launch kernel' order' (launch kernel order text) = text := by
  refine ⟨h.launch_eq horder text, ?_⟩
  rw [h'.launch_eq horder', h.launch_eq horder]
  funext x
  rw [BitVec.xor_assoc, BitVec.xor_self, BitVec.xor_zero]

/-- Two threads under the zero key: `aes_lctr_crypt` undoes `aes_ctr_crypt`.
Kind: C -/
theorem counterMode_is_stream_two :
    launch (aesLctrCrypt (fun _ => 0) 10 fun _ => 7) [0, 1]
        (launch (aesCtrCrypt (fun _ => 0) 10 fun _ => 7) [1, 0] fun x => BitVec.ofNat 8 x) =
      fun x => BitVec.ofNat 8 x :=
  (counterMode_is_stream (.inl rfl) (.inr rfl) (by decide : [1, 0].Perm (List.range 2))
    (by decide) _).2

/-! ## A stream used twice -/

/-- The sum of two sums.
Kind: L -/
theorem xorBlock_sum_iff (b b' k k' : Block) :
    xorBlock (xorBlock b k) (xorBlock b' k') = xorBlock b b' ↔ k = k' := by
  have hsum : ∀ i, xorBlock (xorBlock b k) (xorBlock b' k') i =
      xorBlock b b' i ^^^ (k i ^^^ k' i) := by
    intro i
    simp only [xorBlock]
    ac_rfl
  constructor
  · intro h
    funext i
    have hi := (hsum i).symm.trans (congrFun h i)
    have hzero : k i ^^^ k' i = 0 := by
      have hcancel := congrArg (xorBlock b b' i ^^^ ·) hi
      simpa [← BitVec.xor_assoc] using hcancel
    exact BitVec.xor_eq_zero_iff.mp hzero
  · rintro rfl
    funext i
    rw [hsum i, BitVec.xor_self, BitVec.xor_zero]

/-- The listings are injective on blocks.
Kind: L -/
theorem encBlock_injective {nrounds : ℕ} (h : Standard nrounds) (rk : ℕ → BitVec 32) :
    Function.Injective (encBlock rk nrounds) :=
  Function.LeftInverse.injective
    (decBlock_encBlock h (equivalentInverse_inverseKeys nrounds rk))

/-- **When a stream is used twice.** Of two launches under the same round keys, the cipher blocks of
thread `t` and thread `t'` sum to what the text blocks sum to exactly if the lower halves of the
counters plus `t` and `t'` agree modulo `2 ^ 64`, whatever the upper halves are.
Source: `xt_TOGPU_kernel.cu` 860–1115
Kind: P
Fidelity: exact
Hyps: 10, 12 or 14 rounds; the kernels are of counter mode with keys `rk`; the orders list the
threads -/
theorem two_time_pad_iff {nrounds : ℕ} (hstd : Standard nrounds) {rk : ℕ → BitVec 32}
    {ctr ctr' : Text} {kernel kernel' : ℕ → Text → Text}
    (h : IsCounterMode rk nrounds ctr kernel) (h' : IsCounterMode rk nrounds ctr' kernel')
    {n n' : ℕ} {order order' : List ℕ} (horder : order.Perm (List.range n))
    (horder' : order'.Perm (List.range n')) (text text' : Text) {t t' : ℕ} (ht : t < n)
    (ht' : t' < n') :
    xorBlock (readBlock 16 (launch kernel order text) (32 + 16 * t))
        (readBlock 16 (launch kernel' order' text') (32 + 16 * t')) =
      xorBlock (readBlock 16 text (32 + 16 * t)) (readBlock 16 text' (32 + 16 * t')) ↔
    (lowerHalf ctr + t) % 2 ^ 64 = (lowerHalf ctr' + t') % 2 ^ 64 := by
  have hc := h.readBlock_launch horder text ht
  have hc' := h'.readBlock_launch horder' text' ht'
  unfold threadBase at hc hc'
  rw [hc, hc', xorBlock_sum_iff, (encBlock_injective hstd rk).eq_iff, counterBlock_eq_iff]

/-- Two counters that differ in the upper half only: the first blocks use the same stream.
Kind: C -/
theorem two_time_pad_nonce :
    xorBlock (readBlock 16 (launch (aesCtrCrypt (fun _ => 0) 10 fun _ => 0) [0] fun _ => 1) 32)
        (readBlock 16 (launch (aesCtrCrypt (fun _ => 0) 10 fun i => if i < 8 then 9 else 0) [0]
          fun _ => 3) 32) =
      xorBlock (readBlock 16 (fun _ => 1) 32) (readBlock 16 (fun _ => 3) 32) :=
  (two_time_pad_iff (.inl rfl) (.inl rfl) (.inl rfl) (by decide : [0].Perm (List.range 1))
    (by decide : [0].Perm (List.range 1)) (fun _ => 1) (fun _ => 3) (t := 0) Nat.one_pos
    Nat.one_pos).mpr (by decide)

end Togpu.Gpu
