import Togpu.Mailbox.Protocol
import Togpu.Pool.OffsetLayout
import Togpu.Gpu.Modes

/-!
# The launch of `aes_test`

`aes_test` is given a slot and a length through the mailbox, and launches `aes_encrypt_bpt` on the
slot with one thread for every 16 bytes from byte 32 of the slot on. Here the mailbox delivers what
`nfgpu_target` stored.

* `Posts` — a buffer at slot `i` that `nfgpu_target` posts.
* `Accesses` — the bytes that a thread changes or depends on; for `aes_encrypt_bpt` those of its
  block (`exists_accesses_iff`).
* **The launch stays in the slot** exactly for lengths below 4112, and for those that ask for too
  many threads (`launch_in_slot_iff`).
* **It changes only packet bytes** exactly if the packet starts within the first 32 bytes of the
  slot or no thread is started (`launch_in_packet_iff`).
* **It is never AES under the stored key** (`launch_is_not_aes`): the round count it passes is 134,
  and its last round key lies outside `cipher_key`.
-/

namespace Togpu.Gpu

open Togpu.Lib Togpu.Lib.Fips197 Togpu.Driver Togpu.Mailbox

/-! ## What is launched -/

/-- `ptr += (index *0x1000)`: the text of the launch, as an offset from the pool.
Source: `xt_TOGPU_kernel.cu` 1758
Kind: D -/
def packetBase (index : BitVec 32) : ℤ := (index * 0x1000).toInt

/-- A thread accesses byte `x` of its text: it changes the byte, or what it makes of another byte
depends on it.
Kind: D -/
def Accesses (thread : Text → Text) (x : ℕ) : Prop :=
  (∃ text, thread text x ≠ text x) ∨
    ∃ text v y, y ≠ x ∧ thread (Function.update text x v) y ≠ thread text y

/-- A thread of `aes_encrypt_bpt` changes only the bytes of its block, and what it makes of them
depends on nothing else in the text.
Kind: L -/
theorem aesEncryptBpt_local (rk : ℕ → BitVec 32) (nrounds tid : ℕ) (text : Text) :
    (∀ x, ¬ (threadBase tid ≤ x ∧ x < threadBase tid + 16) →
      aesEncryptBpt rk nrounds tid text x = text x) ∧
    ∀ text' : Text, (∀ x, threadBase tid ≤ x → x < threadBase tid + 16 → text x = text' x) →
      readBlock 16 (aesEncryptBpt rk nrounds tid text) (threadBase tid) =
        readBlock 16 (aesEncryptBpt rk nrounds tid text') (threadBase tid) := by
  constructor
  · intro x hx
    rw [aesEncryptBpt_block rk nrounds tid text]
    exact writeBlock_of_notMem hx
  · intro text' hagree
    have hread : readBlock 16 text (threadBase tid) = readBlock 16 text' (threadBase tid) := by
      funext i
      exact hagree _ (Nat.le_add_right _ _) (by omega)
    rw [aesEncryptBpt_block rk nrounds tid text, aesEncryptBpt_block rk nrounds tid text',
      readBlock_writeBlock, readBlock_writeBlock, hread]

/-- A thread of `aes_encrypt_bpt` accesses no byte outside its block.
Source: `xt_TOGPU_kernel.cu` 1124–1129, 1209–1231
Kind: L -/
theorem accesses_in_block {rk : ℕ → BitVec 32} {nrounds tid x : ℕ}
    (h : Accesses (aesEncryptBpt rk nrounds tid) x) :
    threadBase tid ≤ x ∧ x < threadBase tid + 16 := by
  by_contra hout
  rcases h with ⟨text, hwrite⟩ | ⟨text, v, y, hne, hread⟩
  · exact hwrite ((aesEncryptBpt_local rk nrounds tid text).1 x hout)
  · apply hread
    have hlocal := aesEncryptBpt_local rk nrounds tid (Function.update text x v)
    by_cases hy : threadBase tid ≤ y ∧ y < threadBase tid + 16
    · -- byte `y` of the block, from a text that agrees on the block
      have hkept : ∀ z, threadBase tid ≤ z → z < threadBase tid + 16 →
          Function.update text x v z = text z := by
        intro z hlo hhi
        refine Function.update_of_ne ?_ _ _
        rintro rfl
        exact hout ⟨hlo, hhi⟩
      have hagree := hlocal.2 text hkept
      have hbyte := congrFun hagree ⟨y - threadBase tid, by omega⟩
      simpa only [readBlock, Nat.add_sub_cancel' hy.1] using hbyte
    · rw [hlocal.1 y hy, (aesEncryptBpt_local rk nrounds tid text).1 y hy,
        Function.update_of_ne hne]

/-- `length-32`, in `int`: it is negative below 32, and from `2 ^ 31 + 32` on.
Kind: L -/
theorem toInt_sub_32 (length : BitVec 32) :
    (length - 32).toInt =
      if length.toNat < 2 ^ 31 + 32 then (length.toNat : ℤ) - 32
      else (length.toNat : ℤ) - 32 - 2 ^ 32 := by
  have hlt := length.isLt
  have h32 : (32 : BitVec 32).toNat = 32 := rfl
  rw [BitVec.toInt_eq_toNat_cond, BitVec.toNat_sub, h32]
  split_ifs <;> omega

/-- The division by 16 does not overflow.
Kind: L -/
theorem aesThreads_toInt (length : BitVec 32) :
    (aesThreads length).toInt = (length - 32).toInt.tdiv 16 := by
  have h16 : (16 : BitVec 32).toInt = 16 := rfl
  have hlo := BitVec.le_toInt (length - 32)
  have hhi := BitVec.toInt_lt (x := length - 32)
  rw [aesThreads, BitVec.toInt_sdiv, h16]
  rcases Int.le_total 0 (length - 32).toInt with hpos | hneg
  · rw [Int.tdiv_eq_ediv_of_nonneg hpos]
    exact Int.bmod_eq_of_le (by omega) (by omega)
  · have hflip : (length - 32).toInt.tdiv 16 = -(-(length - 32).toInt / 16) := by
      rw [← Int.tdiv_eq_ediv_of_nonneg (by omega), Int.neg_tdiv, Int.neg_neg]
    rw [hflip]
    exact Int.bmod_eq_of_le (by omega) (by omega)

/-- The thread count of a length whose difference from 32 is not negative as an `int`, or rounds to
zero.
Kind: L -/
theorem aesThreads_eq {length : BitVec 32} (hlo : 17 ≤ length.toNat)
    (hhi : length.toNat < 2 ^ 31 + 32) :
    (aesThreads length).toInt = ((length.toNat - 32) / 16 : ℕ) := by
  rw [aesThreads_toInt, toInt_sub_32, if_pos hhi]
  rcases Nat.lt_or_ge length.toNat 32 with hshort | hlong
  · have hneg : (length.toNat : ℤ) - 32 = -(32 - length.toNat) := by omega
    rw [hneg, Int.neg_tdiv, Int.tdiv_eq_ediv_of_nonneg (by omega)]
    omega
  · rw [Int.tdiv_eq_ediv_of_nonneg (by omega)]
    omega

/-- The thread count of a length whose difference from 32 is negative as an `int`.
Kind: L -/
theorem aesThreads_neg {length : BitVec 32}
    (h : length.toNat < 17 ∨ 2 ^ 31 + 32 ≤ length.toNat) : (aesThreads length).toInt < 0 := by
  have hlt := length.isLt
  have hdiff : (length - 32).toInt ≤ -16 := by
    rw [toInt_sub_32]
    split_ifs <;> omega
  have hneg : (length - 32).toInt = -(-(length - 32).toInt) := by omega
  rw [aesThreads_toInt, hneg, Int.neg_tdiv, Int.tdiv_eq_ediv_of_nonneg (by omega)]
  omega

/-- How many threads are started for a length whose launch is not rejected.
Kind: L -/
theorem launchThreads_eq {length : BitVec 32} (h : length.toNat < 16432) :
    launchThreads length = (length.toNat - 32) / 16 := by
  simp only [launchThreads]
  rcases Nat.lt_or_ge length.toNat 17 with hshort | hlong
  · have hneg := aesThreads_neg (Or.inl hshort)
    rw [if_neg (by omega)]
    omega
  · rw [aesThreads_eq hlong (by omega)]
    split_ifs with hrange
    · omega
    · omega

/-- A launch for a longer packet is rejected: the thread count is too large or negative.
Kind: L -/
theorem launchThreads_eq_zero {length : BitVec 32} (h : 16432 ≤ length.toNat) :
    launchThreads length = 0 := by
  simp only [launchThreads]
  rcases Nat.lt_or_ge length.toNat (2 ^ 31 + 32) with hint | hint
  · rw [aesThreads_eq (by omega) hint, if_neg (by omega)]
  · have hneg := aesThreads_neg (Or.inr hint)
    rw [if_neg (by omega)]

/-! ## Posted packets -/

/-- The buffer `skb` at slot `i` of the pool, which `nfgpu_target` posts as `call`.
Source: `xt_TOGPU_main.c` 188–206
Kind: D -/
structure Posts (drv : Globals) (skb : SkBuff) (i : BitVec 64) (call : Call) : Prop where
  /-- The pool has a base. -/
  base : IsPoolBase drv.nfgpuKva
  /-- `i` is a slot. -/
  slot : i < nfgpuMaxSkbs
  /-- The buffer is at the slot. -/
  head : skb.head = slotAddr drv.nfgpuKva i
  /-- The entry test lets the packet through. -/
  entry : nfgpuTargetEntry drv skb.head skb.len = .storeIndex call

section posted

variable {drv : Globals} {skb : SkBuff} {i : BitVec 64} {call : Call}

/-- What is posted is the slot and the packet's length.
Kind: L -/
theorem Posts.call_eq (h : Posts drv skb i call) : call = ⟨i, skb.len⟩ := by
  have hentry := h.entry
  unfold nfgpuTargetEntry at hentry
  split_ifs at hentry
  rw [h.head, slotIndex_slotAddr h.base h.slot] at hentry
  exact (TargetPc.storeIndex.inj hentry).symm

/-- The text of the launch is the slot.
Kind: L -/
theorem Posts.packetBase_eq (h : Posts drv skb i call) :
    packetBase (call.index.setWidth 32) = i.toNat * 4096 := by
  have hslot := h.slot
  rw [BitVec.lt_def, nfgpuMaxSkbs_toNat] at hslot
  have hprod : (i.setWidth 32 * 0x1000 : BitVec 32).toNat = i.toNat * 4096 := by
    rw [BitVec.toNat_mul, BitVec.toNat_setWidth, Nat.mod_eq_of_lt (by omega : i.toNat < 2 ^ 32)]
    exact Nat.mod_eq_of_lt (by simp; omega)
  rw [h.call_eq]
  simp only [packetBase]
  rw [BitVec.toInt_eq_toNat_of_lt (by omega), hprod]
  norm_cast

end posted

/-- A packet of `len` bytes after `headroom` bytes of a buffer of 2048 at slot 5 of a pool.
Kind: D -/
def packetAtFive (headroom : BitVec 64) (len : BitVec 32) : SkBuff where
  head := slotAddr 0xffffc90000000000 5
  data := slotAddr 0xffffc90000000000 5 + headroom
  tail := slotAddr 0xffffc90000000000 5 + headroom + len.setWidth 64
  skbEnd := slotAddr 0xffffc90000000000 5 + 2048
  len := len

/-- It is posted, whatever its length.
Kind: L -/
theorem posts_packetAtFive (headroom : BitVec 64) (len : BitVec 32) :
    Posts (emptyPool 0xffffc90000000000 1) (packetAtFive headroom len) 5 ⟨5, len⟩ where
  base := ⟨by decide, by decide, by decide⟩
  slot := by decide
  head := rfl
  entry := by
    have hindex : slotIndex 0xffffc90000000000 (slotAddr 0xffffc90000000000 5) = 5 := by decide
    show nfgpuTargetEntry (emptyPool 0xffffc90000000000 1) (slotAddr 0xffffc90000000000 5) len = _
    unfold nfgpuTargetEntry
    rw [if_neg (by decide), if_neg (by decide)]
    exact congrArg (fun index => TargetPc.storeIndex ⟨index, len⟩) hindex

/-! ## The round count -/

/-- `u32 cipher_key[128]`: how many words it has.
Source: `xt_TOGPU_kernel.cu` 1728
Kind: D -/
def cipherKeyWords : ℕ := 128

/-- `sizeof(cipher_key)/4+6`, passed as the number of rounds.
Source: `xt_TOGPU_kernel.cu` 1773
Kind: D -/
def aesTestRounds : ℕ := 4 * cipherKeyWords / 4 + 6

/-- What the listing makes of a block, before the last key addition.
Kind: D -/
def encCore (rk : ℕ → BitVec 32) (nrounds : ℕ) (b : Block) : Block :=
  ofState (layers.sub (layers.rounds (roundKey rk) (unrolled nrounds) (toState b)))

/-- The last key addition takes its key from `rk + (nrounds << 2)`, for every count.
Kind: L -/
theorem encBlock_eq_core (rk : ℕ → BitVec 32) (nrounds : ℕ) (b : Block) :
    encBlock rk nrounds b = xorBlock (encCore rk nrounds b) (ofWords (keyWords rk nrounds)) := by
  rw [encBlock, ofWords, teWords, stateOf_teFinal, stateOf_teRounds, stateOf_wordsOf]
  rfl

/-- What comes before it reads the first 56 words at most.
Kind: L -/
theorem encCore_congr {rk rk' : ℕ → BitVec 32} (h : ∀ j < 56, rk j = rk' j) (nrounds : ℕ)
    (b : Block) : encCore rk nrounds b = encCore rk' nrounds b := by
  have hle : unrolled nrounds ≤ 13 := by
    unfold unrolled
    split_ifs <;> decide
  have hkeys : ∀ r ≤ unrolled nrounds, roundKey rk r = roundKey rk' r := by
    intro r hr
    funext q c
    unfold roundKey
    rw [h (4 * r + c) (by omega)]
  unfold encCore
  rw [layers.rounds_congr hkeys]

/-- The round keys of a launch of `aes_test`: those of 14 rounds, the last taken from word 536 on.
Kind: D -/
def splicedKeys (rk : ℕ → BitVec 32) (j : ℕ) : BitVec 32 :=
  if j / 4 = 14 then rk (4 * aesTestRounds + j % 4) else rk j

/-- With the count of `aes_test` the listing is a cipher of 14 rounds under these keys.
Kind: P -/
theorem encBlock_aesTestRounds (rk : ℕ → BitVec 32) (b : Block) :
    encBlock rk aesTestRounds b = cipher (splicedKeys rk) 14 b := by
  have hlast : keyWords rk aesTestRounds = keyWords (splicedKeys rk) 14 := by
    funext i
    have hround : (4 * 14 + i : ℕ) / 4 = 14 := by omega
    have hlane : (4 * 14 + i : ℕ) % 4 = i := by omega
    simp only [keyWords, splicedKeys, hround, hlane, if_true]
  have hbefore : encCore rk aesTestRounds b = encCore (splicedKeys rk) 14 b := by
    have hkeys : ∀ j < 56, rk j = splicedKeys rk j := by
      intro j hj
      unfold splicedKeys
      rw [if_neg (by omega)]
    exact (encCore_congr hkeys aesTestRounds b).trans rfl
  have hstandard : Standard 14 := Or.inr (Or.inr rfl)
  rw [← encBlock_eq_cipher hstandard, encBlock_eq_core, encBlock_eq_core, hlast, hbefore]

/-! ## The bytes of a thread -/

/-- The array whose last round key, for the launch, has all its words `v`, and all else is zero.
Kind: D -/
def lastWordsKey (v : BitVec 32) (j : ℕ) : BitVec 32 := if j / 4 = aesTestRounds then v else 0

/-- Whatever is in the block, one of two keys changes a byte.
Kind: L -/
theorem exists_key_changing (b : Block) (i : Fin 16) :
    ∃ rk, encBlock rk aesTestRounds b i ≠ b i := by
  have hdiffer : ∀ i : Fin 16, ofWords (keyWords (lastWordsKey 0) aesTestRounds) i ≠
      ofWords (keyWords (lastWordsKey 0xffffffff) aesTestRounds) i := by
    decide
  by_contra hnone
  have hkeep : ∀ v, encBlock (lastWordsKey v) aesTestRounds b i = b i := by
    intro v
    by_contra hne
    exact hnone ⟨lastWordsKey v, hne⟩
  -- the two results differ by the difference of the last key words
  have hcore : ∀ v,
      encCore (lastWordsKey v) aesTestRounds b = encCore (fun _ => 0) aesTestRounds b := by
    intro v
    refine encCore_congr ?_ aesTestRounds b
    intro j hj
    unfold lastWordsKey aesTestRounds cipherKeyWords
    rw [if_neg (by omega)]
  have hzero := hkeep 0
  have hones := hkeep 0xffffffff
  rw [encBlock_eq_core, hcore] at hzero hones
  have hsame := hzero.trans hones.symm
  simp only [xorBlock] at hsame
  apply hdiffer i
  rw [← xor_xor_self_left (encCore (fun _ => 0) aesTestRounds b i)
    (ofWords (keyWords (lastWordsKey 0) aesTestRounds) i), hsame, xor_xor_self_left]

/-- **The bytes that a thread of `aes_encrypt_bpt` accesses** are those of its block: no other one
under any key, and each of them under some key.
Source: `xt_TOGPU_kernel.cu` 1121–1232
Kind: P -/
theorem exists_accesses_iff (tid x : ℕ) :
    (∃ rk, Accesses (aesEncryptBpt rk aesTestRounds tid) x) ↔
      threadBase tid ≤ x ∧ x < threadBase tid + 16 := by
  constructor
  · rintro ⟨rk, hacc⟩
    exact accesses_in_block hacc
  · rintro ⟨hlo, hhi⟩
    obtain ⟨rk, hrk⟩ := exists_key_changing (fun _ => 0) ⟨x - threadBase tid, by omega⟩
    refine ⟨rk, .inl ⟨fun _ => 0, fun hsame => hrk ?_⟩⟩
    have hblock := congrArg (fun text => readBlock 16 text (threadBase tid))
      (aesEncryptBpt_block rk aesTestRounds tid fun _ => 0)
    simp only [readBlock_writeBlock] at hblock
    have hbyte := congrFun hblock ⟨x - threadBase tid, by omega⟩
    simp only [readBlock, Nat.add_sub_cancel' hlo] at hbyte
    exact hbyte.symm.trans hsame

/-! ## The launch and the slot -/

section slot

variable {drv : Globals} {skb : SkBuff} {i : BitVec 64} {call : Call}

/-- **The launch stays in the slot** exactly for packets of less than 4112 bytes, and for packets so
long, below `2 ^ 31 + 32` bytes, that more than 1024 threads are asked for and none is started. It
stays there if no thread of `aes_encrypt_bpt` that is started accesses a byte outside, whatever the
key memory.
Source: `xt_TOGPU_main.c` 188–206; `xt_TOGPU_kernel.cu` 1121–1232, 1741–1779
Kind: P
Fidelity: exact; a difference that overflows an `int` wraps
Hyps: (a) `nfgpu_target` posts the buffer at slot `i`; (b) the packet has at least 20 bytes -/
theorem launch_in_slot_iff (h : Posts drv skb i call) (hlen : 20 ≤ skb.len.toNat) :
    (0 ≤ (aesThreads call.len).toInt ∧
      ∀ b ∈ launched (call.index.setWidth 32) call.len, ∀ (rk : ℕ → BitVec 32) (x : ℕ),
        Accesses (aesEncryptBpt rk aesTestRounds b.thread) x →
          (i.toNat : ℤ) * 4096 ≤ packetBase b.index + x ∧
            packetBase b.index + x < ((i.toNat : ℤ) + 1) * 4096) ↔
    skb.len.toNat < 4112 ∨ 16432 ≤ skb.len.toNat ∧ skb.len.toNat < 2 ^ 31 + 32 := by
  have hbase := h.packetBase_eq
  obtain rfl := h.call_eq
  simp only at hbase ⊢
  constructor
  · rintro ⟨hpos, hin⟩
    by_contra hlong
    rcases Nat.lt_or_ge skb.len.toNat (2 ^ 31 + 32) with hint | hint
    · -- thread 254 starts where the slot ends
      have hthreads := launchThreads_eq (show skb.len.toNat < 16432 by omega)
      have hmem : (⟨i.setWidth 32, 254⟩ : GpuBlock) ∈ launched (i.setWidth 32) skb.len := by
        refine List.mem_map.mpr ⟨254, List.mem_range.mpr ?_, rfl⟩
        omega
      obtain ⟨rk, hacc⟩ := (exists_accesses_iff 254 4096).mpr ⟨by decide, by decide⟩
      have hout := hin _ hmem rk 4096 hacc
      rw [hbase] at hout
      omega
    · have hneg := aesThreads_neg (Or.inr hint)
      omega
  · intro hshort
    have hint : skb.len.toNat < 2 ^ 31 + 32 := by omega
    refine ⟨?_, ?_⟩
    · rw [aesThreads_eq (by omega) hint]
      omega
    · intro b hb rk x hacc
      obtain ⟨t, ht, rfl⟩ := List.mem_map.mp hb
      rw [List.mem_range] at ht
      have hx := accesses_in_block hacc
      simp only [threadBase] at hx
      simp only [hbase]
      rcases hshort with hshort | ⟨hlong, -⟩
      · rw [launchThreads_eq (by omega)] at ht
        omega
      · rw [launchThreads_eq_zero hlong] at ht
        omega

end slot

/-- A packet of 1500 bytes.
Kind: C -/
theorem launch_in_slot_1500 :
    0 ≤ (aesThreads 1500).toInt ∧
      ∀ b ∈ launched ((5 : BitVec 64).setWidth 32) 1500, ∀ (rk : ℕ → BitVec 32) (x : ℕ),
        Accesses (aesEncryptBpt rk aesTestRounds b.thread) x →
          ((5 : BitVec 64).toNat : ℤ) * 4096 ≤ packetBase b.index + x ∧
            packetBase b.index + x < (((5 : BitVec 64).toNat : ℤ) + 1) * 4096 :=
  (launch_in_slot_iff (posts_packetAtFive 64 1500) (by decide)).mpr (Or.inl (by decide))

/-- A packet of 9000 bytes, most of them in fragments: it is posted, and thread 254 of its launch
accesses the first byte of the next slot.
Kind: C -/
theorem launch_out_of_slot :
    Posts (emptyPool 0xffffc90000000000 1) (packetAtFive 64 9000) 5 ⟨5, 9000⟩ ∧
      ¬ ∀ b ∈ launched ((5 : BitVec 64).setWidth 32) 9000, ∀ (rk : ℕ → BitVec 32) (x : ℕ),
        Accesses (aesEncryptBpt rk aesTestRounds b.thread) x →
          ((5 : BitVec 64).toNat : ℤ) * 4096 ≤ packetBase b.index + x ∧
            packetBase b.index + x < (((5 : BitVec 64).toNat : ℤ) + 1) * 4096 := by
  refine ⟨posts_packetAtFive 64 9000, fun hin => ?_⟩
  have hmem : (⟨5, 254⟩ : GpuBlock) ∈ launched ((5 : BitVec 64).setWidth 32) 9000 := by
    refine List.mem_map.mpr ⟨254, List.mem_range.mpr ?_, rfl⟩
    rw [launchThreads_eq (by decide)]
    decide
  obtain ⟨rk, hacc⟩ := (exists_accesses_iff 254 4096).mpr ⟨by decide, by decide⟩
  have hout := hin _ hmem rk 4096 hacc
  revert hout
  decide

/-! ## The launch and the packet -/

/-- The launch that `aes_test` makes for `index` and `length`, its threads in the order `order`: the
kernel runs on the text `index *0x1000` bytes into the pool.
Source: `xt_TOGPU_kernel.cu` 1755–1775
Kind: D -/
def aesLaunch (rk : ℕ → BitVec 32) (index : BitVec 32) (order : List ℕ) (pool : Text) : Text :=
  let ptr := (packetBase index).toNat
  fun x =>
    if ptr ≤ x then
      launch (aesEncryptBpt rk aesTestRounds) order (fun o => pool (ptr + o)) (x - ptr)
    else pool x

/-- A byte that the launch changes lies in the block of one of its threads.
Kind: L -/
theorem changed_in_block {rk : ℕ → BitVec 32} {index : BitVec 32} {order : List ℕ} {pool : Text}
    {x : ℕ} (hx : aesLaunch rk index order pool x ≠ pool x) :
    ∃ t ∈ order, (packetBase index).toNat + threadBase t ≤ x ∧
      x < (packetBase index).toNat + threadBase t + 16 := by
  by_contra hnone
  apply hx
  simp only [aesLaunch]
  split_ifs with hle
  · rw [launch_frame (aesEncryptBpt_block rk aesTestRounds), Nat.add_sub_cancel' hle]
    intro t ht hin
    exact hnone ⟨t, ht, by omega, by omega⟩
  · rfl

/-- Whatever the pool holds, some key memory makes a launch of at least one thread change the byte
32 bytes into the slot.
Kind: L -/
theorem exists_key_changing_slot (index : BitVec 32) (pool : Text) {n : ℕ} (hn : 0 < n) :
    ∃ rk, aesLaunch rk index (List.range n) pool ((packetBase index).toNat + 32) ≠
      pool ((packetBase index).toNat + 32) := by
  let text : Text := fun o => pool ((packetBase index).toNat + o)
  obtain ⟨rk, hrk⟩ := exists_key_changing (readBlock 16 text (threadBase 0)) 0
  have hblock := readBlock_launch (aesEncryptBpt_block rk aesTestRounds) threadBase_apart
    List.nodup_range (List.mem_range.mpr hn) text
  refine ⟨rk, fun hsame => hrk ?_⟩
  simp only [aesLaunch, if_pos (Nat.le_add_right _ _), Nat.add_sub_cancel_left] at hsame
  exact (congrFun hblock 0).symm.trans hsame

section packet

variable {drv : Globals} {skb : SkBuff} {i : BitVec 64} {call : Call}

/-- **The launch changes only packet bytes**, whatever the key memory, the content of the pool and
the order of the threads, exactly if it starts no thread or the packet starts within the first 32
bytes of its slot.
Source: `xt_TOGPU_main.c` 188–206, 249–269; `xt_TOGPU_kernel.cu` 1121–1129, 1755–1775
Kind: P
Fidelity: exact
Hyps: (a) `nfgpu_target` posts the buffer at slot `i`; (b) the buffer fits a slot; (c) the packet is
linear: it ends before the buffer does -/
theorem launch_in_packet_iff (h : Posts drv skb i call)
    (hsize : skb.skbEnd - skb.head ≤ nfgpuSkbSize)
    (hlinear : (skb.data - skb.head).toNat + skb.len.toNat ≤ (skb.skbEnd - skb.head).toNat) :
    (∀ (rk : ℕ → BitVec 32) (pool : Text) (order : List ℕ),
      order.Perm (List.range (launchThreads call.len)) → ∀ x,
      aesLaunch rk (call.index.setWidth 32) order pool x ≠ pool x →
        i.toNat * 4096 + (skb.data - skb.head).toNat ≤ x ∧
          x < i.toNat * 4096 + (skb.data - skb.head).toNat + skb.len.toNat) ↔
    skb.len.toNat < 48 ∨ (skb.data - skb.head).toNat ≤ 32 := by
  rw [BitVec.le_def, nfgpuSkbSize_toNat] at hsize
  have hbase : (packetBase (call.index.setWidth 32)).toNat = i.toNat * 4096 := by
    rw [h.packetBase_eq]
    omega
  obtain rfl := h.call_eq
  have hthreads := launchThreads_eq (show skb.len.toNat < 16432 by omega)
  simp only at hbase ⊢
  constructor
  · intro hin
    by_contra hbad
    -- thread 0 runs, and some key changes the first byte of its block, 32 bytes into the slot
    obtain ⟨rk, hchanged⟩ := exists_key_changing_slot (i.setWidth 32) (fun _ => 0)
      (by omega : 0 < launchThreads skb.len)
    have hpacket := hin rk _ _ (List.Perm.refl _) _ hchanged
    omega
  · intro hgood rk pool order horder x hx
    obtain ⟨t, ht, hlo, hhi⟩ := changed_in_block hx
    have hlt := List.mem_range.mp (horder.mem_iff.mp ht)
    rw [hbase] at hlo hhi
    unfold threadBase at hlo hhi
    rw [hthreads] at hlt
    omega

end packet

/-- A packet of 1500 bytes that starts 16 bytes into its slot.
Kind: C -/
theorem launch_in_packet_16 :
    Posts (emptyPool 0xffffc90000000000 1) (packetAtFive 16 1500) 5 ⟨5, 1500⟩ ∧
      ∀ (rk : ℕ → BitVec 32) (pool : Text) (order : List ℕ),
        order.Perm (List.range (launchThreads 1500)) → ∀ x,
        aesLaunch rk ((5 : BitVec 64).setWidth 32) order pool x ≠ pool x →
          (5 : BitVec 64).toNat * 4096 + 16 ≤ x ∧ x < (5 : BitVec 64).toNat * 4096 + 16 + 1500 :=
  ⟨posts_packetAtFive 16 1500,
    (launch_in_packet_iff (posts_packetAtFive 16 1500) (by decide) (by decide)).mpr
      (Or.inr (by decide))⟩

/-- A packet of 1500 bytes after a headroom of 64: some key memory makes the launch change a byte of
the headroom.
Kind: C -/
theorem launch_in_headroom :
    Posts (emptyPool 0xffffc90000000000 1) (packetAtFive 64 1500) 5 ⟨5, 1500⟩ ∧
      ¬ ∀ (rk : ℕ → BitVec 32) (pool : Text) (order : List ℕ),
        order.Perm (List.range (launchThreads 1500)) → ∀ x,
        aesLaunch rk ((5 : BitVec 64).setWidth 32) order pool x ≠ pool x →
          (5 : BitVec 64).toNat * 4096 + 64 ≤ x ∧ x < (5 : BitVec 64).toNat * 4096 + 64 + 1500 := by
  refine ⟨posts_packetAtFive 64 1500, fun hin => ?_⟩
  have hthreads : 0 < launchThreads 1500 := by
    rw [launchThreads_eq (by decide)]
    decide
  obtain ⟨rk, hchanged⟩ :=
    exists_key_changing_slot ((5 : BitVec 64).setWidth 32) (fun _ => 0) hthreads
  have hpacket := (hin rk _ _ (List.Perm.refl _) _ hchanged).1
  revert hpacket
  decide

/-! ## The launch and the key -/

/-- The words that the kernel finds behind its pointer to `cipher_key`: the array, and what lies
after it in memory.
Source: `xt_TOGPU_kernel.cu` 1728, 1772
Kind: D -/
def keyMemory (cipherKey : Fin cipherKeyWords → BitVec 32) (after : ℕ → BitVec 32) (j : ℕ) :
    BitVec 32 :=
  if h : j < cipherKeyWords then cipherKey ⟨j, h⟩ else after (j - cipherKeyWords)

/-- The launch of `n` threads on a slot is the FIPS 197 cipher under the round keys in `cipher_key`,
for the count that is passed: the count is standard, its round keys lie in the array, and each block
is replaced by its cipher.
Kind: D -/
structure LaunchIsAes (cipherKey : Fin cipherKeyWords → BitVec 32) (after : ℕ → BitVec 32)
    (slot : Text) (n : ℕ) : Prop where
  /-- 10, 12 or 14 rounds. -/
  rounds : Standard aesTestRounds
  /-- All round keys lie in the array. -/
  inside : 4 * (aesTestRounds + 1) ≤ cipherKeyWords
  /-- Each block is replaced by its cipher. -/
  blocks : ∀ t < n,
    readBlock 16
        (launch (aesEncryptBpt (keyMemory cipherKey after) aesTestRounds) (List.range n) slot)
        (32 + 16 * t) =
      cipher (keyMemory cipherKey after) aesTestRounds (readBlock 16 slot (32 + 16 * t))

/-- The count that is passed is not one that the listing is written for.
Kind: L -/
theorem not_standard_aesTestRounds : ¬ Standard aesTestRounds := by
  rintro (h | h | h) <;> exact absurd h (by decide)

/-- A block of a launch of `aes_test`.
Kind: L -/
theorem readBlock_aesTest (rk : ℕ → BitVec 32) (slot : Text) {n t : ℕ} (ht : t < n) :
    readBlock 16 (launch (aesEncryptBpt rk aesTestRounds) (List.range n) slot) (32 + 16 * t) =
      encBlock rk aesTestRounds (readBlock 16 slot (32 + 16 * t)) :=
  readBlock_launch (aesEncryptBpt_block rk aesTestRounds) threadBase_apart List.nodup_range
    (List.mem_range.mpr ht) slot

/-- **The launch is never AES under the stored key**, whatever the key, the slot and the number of
threads. What it computes is a cipher of 14 rounds whose last round key is words 536 to 539; these
lie past the end of `cipher_key`, and other words there give other blocks.
Source: `xt_TOGPU_kernel.cu` 1121–1232, 1728–1779
Kind: P
Fidelity: exact -/
theorem launch_is_not_aes (cipherKey : Fin cipherKeyWords → BitVec 32) (after : ℕ → BitVec 32)
    (slot : Text) (n : ℕ) :
    ¬ LaunchIsAes cipherKey after slot n ∧
    (∀ t < n, readBlock 16
        (launch (aesEncryptBpt (keyMemory cipherKey after) aesTestRounds) (List.range n) slot)
        (32 + 16 * t) =
      cipher (splicedKeys (keyMemory cipherKey after)) 14 (readBlock 16 slot (32 + 16 * t))) ∧
    ∃ after', ∀ t < n,
      readBlock 16
          (launch (aesEncryptBpt (keyMemory cipherKey after') aesTestRounds) (List.range n) slot)
          (32 + 16 * t) ≠
        readBlock 16
          (launch (aesEncryptBpt (keyMemory cipherKey after) aesTestRounds) (List.range n) slot)
          (32 + 16 * t) := by
  refine ⟨?_, ?_, ?_⟩
  · exact fun haes => not_standard_aesTestRounds haes.rounds
  · intro t ht
    rw [readBlock_aesTest _ _ ht, encBlock_aesTestRounds]
  · -- flip a bit of word 536
    let after' : ℕ → BitVec 32 := fun j => if j = 408 then after j ^^^ 1 else after j
    refine ⟨after', fun t ht heq => ?_⟩
    have hkeys : ∀ j < 56, keyMemory cipherKey after' j = keyMemory cipherKey after j := by
      intro j hj
      unfold keyMemory cipherKeyWords
      rw [dif_pos (by omega), dif_pos (by omega)]
    have hread : ∀ rest, keyWords (keyMemory cipherKey rest) aesTestRounds 0 = rest 408 := by
      intro rest
      simp [keyWords, keyMemory, aesTestRounds, cipherKeyWords]
    rw [readBlock_aesTest _ _ ht, readBlock_aesTest _ _ ht, encBlock_eq_core, encBlock_eq_core,
      encCore_congr hkeys] at heq
    have hword := congrFun (ofWords_injective (xorBlock_injective _ heq)) 0
    have hflip : after' 408 = after 408 ^^^ 1 := if_pos rfl
    rw [hread, hread, hflip] at hword
    have hone : (1 : BitVec 32) = 0#32 := by
      rw [← xor_xor_self_left (after 408) 1, hword, BitVec.xor_self]
    exact absurd hone (by decide)

/-- One thread under the zero key of `aes_init`.
Kind: C -/
theorem launch_is_not_aes_zero_key : ¬ LaunchIsAes (fun _ => 0) (fun _ => 0) (fun _ => 0) 1 :=
  fun haes => not_standard_aesTestRounds haes.rounds

end Togpu.Gpu
