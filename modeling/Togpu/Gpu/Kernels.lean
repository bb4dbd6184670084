import Togpu.Lib.Blocks
import Togpu.Gpu.Tables

/-!
# The kernels

The device functions of `xt_TOGPU_kernel.cu`. Memory that a pointer argument points to is a
function of the offset from the pointer; `rk` is read at any index, as the source does not know the
array's length. The round equations are copied from the source one by one: `teLine s 0 1 2 3 (rk 4)`
is `Te0[s0 >> 24] ^ Te1[(s1 >> 16) & 0xff] ^ Te2[(s2 >> 8) & 0xff] ^ Te3[s3 & 0xff] ^ rk[4]`.

* `aesEncryptBpt`, `aesDecryptBpt`, `aesCtrCrypt`, `aesLctrCrypt`, `xtsEncrypt`, `xtsDecrypt` — one
  thread for a block of 16 bytes, at byte `32 + 16 * threadIdx.x` of the text.
* `aesEncryptBp4t`, `aesDecryptBp4t` — four threads for a block, 256 threads for a CUDA block of
  1024 bytes, stepping together on the shared arrays `s` and `t`.
* `bigU128Add` — the counter block of a thread.
-/

namespace Togpu.Gpu

open Togpu.Lib Togpu.Lib.Fips197

/-! ## Memory -/

/-- Bytes behind a pointer.
Kind: D -/
abbrev Text := ℕ → BitVec 8

/-- `u32 s[4]`.
Kind: D -/
abbrev Words := Fin 4 → BitVec 32

/-- `*(u32*)(p + a)`: little-endian.
Kind: D -/
def loadU32 (p : Text) (a : ℕ) : BitVec 32 := wordOf (p (a + 3)) (p (a + 2)) (p (a + 1)) (p a)

/-- Store the `n` low bytes of `v`, little-endian.
Kind: D -/
def storeBytes {w : ℕ} (p : Text) (a n : ℕ) (v : BitVec w) : Text :=
  fun x => if a ≤ x ∧ x < a + n then v.extractLsb' (8 * (x - a)) 8 else p x

/-- `*(u32*)(p + a) = v`.
Kind: D -/
def storeU32 (p : Text) (a : ℕ) (v : BitVec 32) : Text := storeBytes p a 4 v

/-- `__byte_perm(x, y, s)`: each nibble of the selector picks one of the eight bytes of `x` (0–3)
and `y` (4–7); only its low three bits count.
Kind: D -/
def bytePerm (x y s : BitVec 32) : BitVec 32 :=
  let byte := fun i => (y ++ x).extractLsb' (8 * ((s >>> (4 * i)) &&& 7).toNat) 8
  wordOf (byte 3) (byte 2) (byte 1) (byte 0)

/-- `ENDIAN_SELECTOR`.
Source: `xt_TOGPU_kernel.cu` 809
Kind: D -/
def endianSelector : BitVec 32 := 0x00000123

/-- `GETU32` of a word.
Source: `xt_TOGPU_kernel.cu` 811
Kind: D -/
def swapU32 (v : BitVec 32) : BitVec 32 := bytePerm v 0 endianSelector

/-- `GETU32`.
Source: `xt_TOGPU_kernel.cu` 811
Kind: D -/
def getU32 (p : Text) (a : ℕ) : BitVec 32 := swapU32 (loadU32 p a)

/-- `PUTU32`.
Source: `xt_TOGPU_kernel.cu` 813
Kind: D -/
def putU32 (p : Text) (a : ℕ) (st : BitVec 32) : Text := storeU32 p a (swapU32 st)

/-! ## One line of a round -/

section lines

variable {ι : Type} (s : ι → BitVec 32) (a b c d : ι) (k : BitVec 32)

/-- An entry of a table.
Kind: D -/
def look (tbl : List (BitVec 32)) (i : BitVec 32) : BitVec 32 := tbl.getD i.toNat 0

/-- A line of a round: one entry of each of four tables.
Kind: D -/
def roundLine (t0 t1 t2 t3 : List (BitVec 32)) : BitVec 32 :=
  look t0 (s a >>> 24) ^^^ look t1 ((s b >>> 16) &&& 0xff#32) ^^^
    look t2 ((s c >>> 8) &&& 0xff#32) ^^^ look t3 (s d &&& 0xff#32) ^^^ k

/-- A line of the last round: four entries of one table, one byte of each.
Kind: D -/
def lastLine (t4 : List (BitVec 32)) : BitVec 32 :=
  (look t4 (s a >>> 24) &&& 0xff000000#32) ^^^
    (look t4 ((s b >>> 16) &&& 0xff#32) &&& 0x00ff0000#32) ^^^
    (look t4 ((s c >>> 8) &&& 0xff#32) &&& 0x0000ff00#32) ^^^
    (look t4 (s d &&& 0xff#32) &&& 0x000000ff#32) ^^^ k

/-- A line with `Te0` to `Te3`.
Source: `xt_TOGPU_kernel.cu` 1132
Kind: D -/
def teLine : BitVec 32 := roundLine s a b c d k te0 te1 te2 te3

/-- A line with `Td0` to `Td3`.
Source: `xt_TOGPU_kernel.cu` 1249
Kind: D -/
def tdLine : BitVec 32 := roundLine s a b c d k td0 td1 td2 td3

/-- A line with `Te4`.
Source: `xt_TOGPU_kernel.cu` 1203–1208
Kind: D -/
def teLast : BitVec 32 := lastLine s a b c d k te4

/-- A line with `Td4`.
Source: `xt_TOGPU_kernel.cu` 1320–1325
Kind: D -/
def tdLast : BitVec 32 := lastLine s a b c d k td4

end lines

/-! ## One thread for a block -/

/-- The rounds of `aes_encrypt_bpt` from the state after the first key addition on.
Source: `xt_TOGPU_kernel.cu` 1131–1230
Kind: D -/
def aesEncryptBptWords (rk : ℕ → BitVec 32) (nrounds : ℕ) (s : Words) : Words :=
  -- round 1
  let t : Words := ![teLine s 0 1 2 3 (rk 4), teLine s 1 2 3 0 (rk 5),
    teLine s 2 3 0 1 (rk 6), teLine s 3 0 1 2 (rk 7)]
  -- round 2
  let s : Words := ![teLine t 0 1 2 3 (rk 8), teLine t 1 2 3 0 (rk 9),
    teLine t 2 3 0 1 (rk 10), teLine t 3 0 1 2 (rk 11)]
  -- round 3
  let t : Words := ![teLine s 0 1 2 3 (rk 12), teLine s 1 2 3 0 (rk 13),
    teLine s 2 3 0 1 (rk 14), teLine s 3 0 1 2 (rk 15)]
  -- round 4
  let s : Words := ![teLine t 0 1 2 3 (rk 16), teLine t 1 2 3 0 (rk 17),
    teLine t 2 3 0 1 (rk 18), teLine t 3 0 1 2 (rk 19)]
  -- round 5
  let t : Words := ![teLine s 0 1 2 3 (rk 20), teLine s 1 2 3 0 (rk 21),
    teLine s 2 3 0 1 (rk 22), teLine s 3 0 1 2 (rk 23)]
  -- round 6
  let s : Words := ![teLine t 0 1 2 3 (rk 24), teLine t 1 2 3 0 (rk 25),
    teLine t 2 3 0 1 (rk 26), teLine t 3 0 1 2 (rk 27)]
  -- round 7
  let t : Words := ![teLine s 0 1 2 3 (rk 28), teLine s 1 2 3 0 (rk 29),
    teLine s 2 3 0 1 (rk 30), teLine s 3 0 1 2 (rk 31)]
  -- round 8
  let s : Words := ![teLine t 0 1 2 3 (rk 32), teLine t 1 2 3 0 (rk 33),
    teLine t 2 3 0 1 (rk 34), teLine t 3 0 1 2 (rk 35)]
  -- round 9
  let t : Words := ![teLine s 0 1 2 3 (rk 36), teLine s 1 2 3 0 (rk 37),
    teLine s 2 3 0 1 (rk 38), teLine s 3 0 1 2 (rk 39)]
  let t : Words := if nrounds > 10 then
      -- round 10
      let s : Words := ![teLine t 0 1 2 3 (rk 40), teLine t 1 2 3 0 (rk 41),
        teLine t 2 3 0 1 (rk 42), teLine t 3 0 1 2 (rk 43)]
      -- round 11
      let t : Words := ![teLine s 0 1 2 3 (rk 44), teLine s 1 2 3 0 (rk 45),
        teLine s 2 3 0 1 (rk 46), teLine s 3 0 1 2 (rk 47)]
      if nrounds > 12 then
        -- round 12
        let s : Words := ![teLine t 0 1 2 3 (rk 48), teLine t 1 2 3 0 (rk 49),
          teLine t 2 3 0 1 (rk 50), teLine t 3 0 1 2 (rk 51)]
        -- round 13
        let t : Words := ![teLine s 0 1 2 3 (rk 52), teLine s 1 2 3 0 (rk 53),
          teLine s 2 3 0 1 (rk 54), teLine s 3 0 1 2 (rk 55)]
        t
      else t
    else t
  let rk := fun i => rk (nrounds <<< 2 + i)
  ![teLast t 0 1 2 3 (rk 0), teLast t 1 2 3 0 (rk 1),
    teLast t 2 3 0 1 (rk 2), teLast t 3 0 1 2 (rk 3)]

/-- A thread of `aes_encrypt_bpt`.
Source: `xt_TOGPU_kernel.cu` 1121–1232
Kind: D -/
def aesEncryptBpt (rk : ℕ → BitVec 32) (nrounds : ℕ) (tid : ℕ) (text : Text) : Text :=
  let txt := 32 + 16 * tid
  let s : Words := aesEncryptBptWords rk nrounds
    ![getU32 text txt ^^^ rk 0, getU32 text (txt + 4) ^^^ rk 1,
      getU32 text (txt + 8) ^^^ rk 2, getU32 text (txt + 12) ^^^ rk 3]
  let text := putU32 text txt (s 0)
  let text := putU32 text (txt + 4) (s 1)
  let text := putU32 text (txt + 8) (s 2)
  putU32 text (txt + 12) (s 3)

/-- The rounds of `aes_decrypt_bpt` from the state after the first key addition on.
Source: `xt_TOGPU_kernel.cu` 1248–1347
Kind: D -/
def aesDecryptBptWords (rk : ℕ → BitVec 32) (nrounds : ℕ) (s : Words) : Words :=
  -- round 1
  let t : Words := ![tdLine s 0 3 2 1 (rk 4), tdLine s 1 0 3 2 (rk 5),
    tdLine s 2 1 0 3 (rk 6), tdLine s 3 2 1 0 (rk 7)]
  -- round 2
  let s : Words := ![tdLine t 0 3 2 1 (rk 8), tdLine t 1 0 3 2 (rk 9),
    tdLine t 2 1 0 3 (rk 10), tdLine t 3 2 1 0 (rk 11)]
  -- round 3
  let t : Words := ![tdLine s 0 3 2 1 (rk 12), tdLine s 1 0 3 2 (rk 13),
    tdLine s 2 1 0 3 (rk 14), tdLine s 3 2 1 0 (rk 15)]
  -- round 4
  let s : Words := ![tdLine t 0 3 2 1 (rk 16), tdLine t 1 0 3 2 (rk 17),
    tdLine t 2 1 0 3 (rk 18), tdLine t 3 2 1 0 (rk 19)]
  -- round 5
  let t : Words := ![tdLine s 0 3 2 1 (rk 20), tdLine s 1 0 3 2 (rk 21),
    tdLine s 2 1 0 3 (rk 22), tdLine s 3 2 1 0 (rk 23)]
  -- round 6
  let s : Words := ![tdLine t 0 3 2 1 (rk 24), tdLine t 1 0 3 2 (rk 25),
    tdLine t 2 1 0 3 (rk 26), tdLine t 3 2 1 0 (rk 27)]
  -- round 7
  let t : Words := ![tdLine s 0 3 2 1 (rk 28), tdLine s 1 0 3 2 (rk 29),
    tdLine s 2 1 0 3 (rk 30), tdLine s 3 2 1 0 (rk 31)]
  -- round 8
  let s : Words := ![tdLine t 0 3 2 1 (rk 32), tdLine t 1 0 3 2 (rk 33),
    tdLine t 2 1 0 3 (rk 34), tdLine t 3 2 1 0 (rk 35)]
  -- round 9
  let t : Words := ![tdLine s 0 3 2 1 (rk 36), tdLine s 1 0 3 2 (rk 37),
    tdLine s 2 1 0 3 (rk 38), tdLine s 3 2 1 0 (rk 39)]
  let t : Words := if nrounds > 10 then
      -- round 10
      let s : Words := ![tdLine t 0 3 2 1 (rk 40), tdLine t 1 0 3 2 (rk 41),
        tdLine t 2 1 0 3 (rk 42), tdLine t 3 2 1 0 (rk 43)]
      -- round 11
      let t : Words := ![tdLine s 0 3 2 1 (rk 44), tdLine s 1 0 3 2 (rk 45),
        tdLine s 2 1 0 3 (rk 46), tdLine s 3 2 1 0 (rk 47)]
      if nrounds > 12 then
        -- round 12
        let s : Words := ![tdLine t 0 3 2 1 (rk 48), tdLine t 1 0 3 2 (rk 49),
          tdLine t 2 1 0 3 (rk 50), tdLine t 3 2 1 0 (rk 51)]
        -- round 13
        let t : Words := ![tdLine s 0 3 2 1 (rk 52), tdLine s 1 0 3 2 (rk 53),
          tdLine s 2 1 0 3 (rk 54), tdLine s 3 2 1 0 (rk 55)]
        t
      else t
    else t
  let rk := fun i => rk (nrounds <<< 2 + i)
  ![tdLast t 0 3 2 1 (rk 0), tdLast t 1 0 3 2 (rk 1),
    tdLast t 2 1 0 3 (rk 2), tdLast t 3 2 1 0 (rk 3)]

/-- A thread of `aes_decrypt_bpt`.
Source: `xt_TOGPU_kernel.cu` 1234–1349
Kind: D -/
def aesDecryptBpt (rk : ℕ → BitVec 32) (nrounds : ℕ) (tid : ℕ) (text : Text) : Text :=
  let txt := 32 + 16 * tid
  let s : Words := aesDecryptBptWords rk nrounds
    ![getU32 text txt ^^^ rk 0, getU32 text (txt + 4) ^^^ rk 1,
      getU32 text (txt + 8) ^^^ rk 2, getU32 text (txt + 12) ^^^ rk 3]
  let text := putU32 text txt (s 0)
  let text := putU32 text (txt + 4) (s 1)
  let text := putU32 text (txt + 8) (s 2)
  putU32 text (txt + 12) (s 3)

/-! ## Counter mode -/

/-- `big_u128_add`: the counter block at `res`.
Source: `xt_TOGPU_kernel.cu` 860–873
Kind: D -/
def bigU128Add (ctr : Text) (offset : BitVec 64) (res : Text) : Text :=
  let c : BitVec 64 := (getU32 ctr 12).setWidth 64
  -- `*((u32*)(&c)+1) = …`: the upper half
  let c : BitVec 64 := getU32 ctr 8 ++ c.extractLsb' 0 32
  let c := c + offset
  -- `*(u64*)(res) = 0; //*(u64*)(ctr);`
  let res := storeBytes res 0 8 (0 : BitVec 64)
  let res := storeU32 res 8 (swapU32 (c.extractLsb' 32 32))
  storeU32 res 12 (swapU32 (c.extractLsb' 0 32))

/-- `thread_ctr_offset`: `(u64)(threadIdx.x)`.
Source: `xt_TOGPU_kernel.cu` 876–879
Kind: D -/
def threadCtrOffset (tid : ℕ) : BitVec 64 := BitVec.ofNat 64 tid

/-- The rounds of `aes_lctr_crypt` from the state after the first key addition on.
Source: `xt_TOGPU_kernel.cu` 896–999
Kind: D -/
def aesLctrCryptWords (rk : ℕ → BitVec 32) (nrounds : ℕ) (s : Words) : Words :=
  -- round 1
  let t : Words := ![teLine s 0 1 2 3 (rk 4), teLine s 1 2 3 0 (rk 5),
    teLine s 2 3 0 1 (rk 6), teLine s 3 0 1 2 (rk 7)]
  -- round 2
  let s : Words := ![teLine t 0 1 2 3 (rk 8), teLine t 1 2 3 0 (rk 9),
    teLine t 2 3 0 1 (rk 10), teLine t 3 0 1 2 (rk 11)]
  -- round 3
  let t : Words := ![teLine s 0 1 2 3 (rk 12), teLine s 1 2 3 0 (rk 13),
    teLine s 2 3 0 1 (rk 14), teLine s 3 0 1 2 (rk 15)]
  -- round 4
  let s : Words := ![teLine t 0 1 2 3 (rk 16), teLine t 1 2 3 0 (rk 17),
    teLine t 2 3 0 1 (rk 18), teLine t 3 0 1 2 (rk 19)]
  -- round 5
  let t : Words := ![teLine s 0 1 2 3 (rk 20), teLine s 1 2 3 0 (rk 21),
    teLine s 2 3 0 1 (rk 22), teLine s 3 0 1 2 (rk 23)]
  -- round 6
  let s : Words := ![teLine t 0 1 2 3 (rk 24), teLine t 1 2 3 0 (rk 25),
    teLine t 2 3 0 1 (rk 26), teLine t 3 0 1 2 (rk 27)]
  -- round 7
  let t : Words := ![teLine s 0 1 2 3 (rk 28), teLine s 1 2 3 0 (rk 29),
    teLine s 2 3 0 1 (rk 30), teLine s 3 0 1 2 (rk 31)]
  -- round 8
  let s : Words := ![teLine t 0 1 2 3 (rk 32), teLine t 1 2 3 0 (rk 33),
    teLine t 2 3 0 1 (rk 34), teLine t 3 0 1 2 (rk 35)]
  -- round 9
  let t : Words := ![teLine s 0 1 2 3 (rk 36), teLine s 1 2 3 0 (rk 37),
    teLine s 2 3 0 1 (rk 38), teLine s 3 0 1 2 (rk 39)]
  let t : Words := if nrounds > 10 then
      -- round 10
      let s : Words := ![teLine t 0 1 2 3 (rk 40), teLine t 1 2 3 0 (rk 41),
        teLine t 2 3 0 1 (rk 42), teLine t 3 0 1 2 (rk 43)]
      -- round 11
      let t : Words := ![teLine s 0 1 2 3 (rk 44), teLine s 1 2 3 0 (rk 45),
        teLine s 2 3 0 1 (rk 46), teLine s 3 0 1 2 (rk 47)]
      if nrounds > 12 then
        -- round 12
        let s : Words := ![teLine t 0 1 2 3 (rk 48), teLine t 1 2 3 0 (rk 49),
          teLine t 2 3 0 1 (rk 50), teLine t 3 0 1 2 (rk 51)]
        -- round 13
        let t : Words := ![teLine s 0 1 2 3 (rk 52), teLine s 1 2 3 0 (rk 53),
          teLine s 2 3 0 1 (rk 54), teLine s 3 0 1 2 (rk 55)]
        t
      else t
    else t
  let rk := fun i => rk (nrounds <<< 2 + i)
  ![teLast t 0 1 2 3 (rk 0), teLast t 1 2 3 0 (rk 1),
    teLast t 2 3 0 1 (rk 2), teLast t 3 0 1 2 (rk 3)]

/-- A thread of `aes_lctr_crypt`.
Source: `xt_TOGPU_kernel.cu` 885–1001
Kind: D -/
def aesLctrCrypt (rk : ℕ → BitVec 32) (nrounds : ℕ) (ctr : Text) (tid : ℕ) (text : Text) : Text :=
  let txt := 32 + 16 * tid
  -- the local array `s` is not initialised; the call fills it
  let res := bigU128Add ctr (BitVec.ofNat 64 tid) fun _ => 0
  let s : Words := aesLctrCryptWords rk nrounds
    ![getU32 res 0 ^^^ rk 0, getU32 res 4 ^^^ rk 1, getU32 res 8 ^^^ rk 2, getU32 res 12 ^^^ rk 3]
  let text := storeU32 text txt (loadU32 text txt ^^^ swapU32 (s 0))
  let text := storeU32 text (txt + 4) (loadU32 text (txt + 4) ^^^ swapU32 (s 1))
  let text := storeU32 text (txt + 8) (loadU32 text (txt + 8) ^^^ swapU32 (s 2))
  storeU32 text (txt + 12) (loadU32 text (txt + 12) ^^^ swapU32 (s 3))

/-- The rounds of `aes_ctr_crypt` from the state after the first key addition on.
Source: `xt_TOGPU_kernel.cu` 1014–1117
Kind: D -/
def aesCtrCryptWords (rk : ℕ → BitVec 32) (nrounds : ℕ) (s : Words) : Words :=
  -- round 1
  let t : Words := ![teLine s 0 1 2 3 (rk 4), teLine s 1 2 3 0 (rk 5),
    teLine s 2 3 0 1 (rk 6), teLine s 3 0 1 2 (rk 7)]
  -- round 2
  let s : Words := ![teLine t 0 1 2 3 (rk 8), teLine t 1 2 3 0 (rk 9),
    teLine t 2 3 0 1 (rk 10), teLine t 3 0 1 2 (rk 11)]
  -- round 3
  let t : Words := ![teLine s 0 1 2 3 (rk 12), teLine s 1 2 3 0 (rk 13),
    teLine s 2 3 0 1 (rk 14), teLine s 3 0 1 2 (rk 15)]
  -- round 4
  let s : Words := ![teLine t 0 1 2 3 (rk 16), teLine t 1 2 3 0 (rk 17),
    teLine t 2 3 0 1 (rk 18), teLine t 3 0 1 2 (rk 19)]
  -- round 5
  let t : Words := ![teLine s 0 1 2 3 (rk 20), teLine s 1 2 3 0 (rk 21),
    teLine s 2 3 0 1 (rk 22), teLine s 3 0 1 2 (rk 23)]
  -- round 6
  let s : Words := ![teLine t 0 1 2 3 (rk 24), teLine t 1 2 3 0 (rk 25),
    teLine t 2 3 0 1 (rk 26), teLine t 3 0 1 2 (rk 27)]
  -- round 7
  let t : Words := ![teLine s 0 1 2 3 (rk 28), teLine s 1 2 3 0 (rk 29),
    teLine s 2 3 0 1 (rk 30), teLine s 3 0 1 2 (rk 31)]
  -- round 8
  let s : Words := ![teLine t 0 1 2 3 (rk 32), teLine t 1 2 3 0 (rk 33),
    teLine t 2 3 0 1 (rk 34), teLine t 3 0 1 2 (rk 35)]
  -- round 9
  let t : Words := ![teLine s 0 1 2 3 (rk 36), teLine s 1 2 3 0 (rk 37),
    teLine s 2 3 0 1 (rk 38), teLine s 3 0 1 2 (rk 39)]
  let t : Words := if nrounds > 10 then
      -- round 10
      let s : Words := ![teLine t 0 1 2 3 (rk 40), teLine t 1 2 3 0 (rk 41),
        teLine t 2 3 0 1 (rk 42), teLine t 3 0 1 2 (rk 43)]
      -- round 11
      let t : Words := ![teLine s 0 1 2 3 (rk 44), teLine s 1 2 3 0 (rk 45),
        teLine s 2 3 0 1 (rk 46), teLine s 3 0 1 2 (rk 47)]
      if nrounds > 12 then
        -- round 12
        let s : Words := ![teLine t 0 1 2 3 (rk 48), teLine t 1 2 3 0 (rk 49),
          teLine t 2 3 0 1 (rk 50), teLine t 3 0 1 2 (rk 51)]
        -- round 13
        let t : Words := ![teLine s 0 1 2 3 (rk 52), teLine s 1 2 3 0 (rk 53),
          teLine s 2 3 0 1 (rk 54), teLine s 3 0 1 2 (rk 55)]
        t
      else t
    else t
  let rk := fun i => rk (nrounds <<< 2 + i)
  ![teLast t 0 1 2 3 (rk 0), teLast t 1 2 3 0 (rk 1),
    teLast t 2 3 0 1 (rk 2), teLast t 3 0 1 2 (rk 3)]

/-- A thread of `aes_ctr_crypt`.
Source: `xt_TOGPU_kernel.cu` 1003–1119
Kind: D -/
def aesCtrCrypt (rk : ℕ → BitVec 32) (nrounds : ℕ) (ctr : Text) (tid : ℕ) (text : Text) : Text :=
  let txt := 32 + 16 * tid
  -- the local array `s` is not initialised; the call fills it
  let res := bigU128Add ctr (threadCtrOffset tid) fun _ => 0
  let s : Words := aesCtrCryptWords rk nrounds
    ![getU32 res 0 ^^^ rk 0, getU32 res 4 ^^^ rk 1, getU32 res 8 ^^^ rk 2, getU32 res 12 ^^^ rk 3]
  let text := storeU32 text txt (loadU32 text txt ^^^ swapU32 (s 0))
  let text := storeU32 text (txt + 4) (loadU32 text (txt + 4) ^^^ swapU32 (s 1))
  let text := storeU32 text (txt + 8) (loadU32 text (txt + 8) ^^^ swapU32 (s 2))
  storeU32 text (txt + 12) (loadU32 text (txt + 12) ^^^ swapU32 (s 3))

/-! ## XTS mode -/

/-- The rounds of `xts_encrypt` from the state after the first key addition on.
Source: `xt_TOGPU_kernel.cu` 1480–1582
Kind: D -/
def xtsEncryptWords (rk : ℕ → BitVec 32) (nrounds : ℕ) (s : Words) : Words :=
  -- round 1
  let t : Words := ![teLine s 0 1 2 3 (rk 4), teLine s 1 2 3 0 (rk 5),
    teLine s 2 3 0 1 (rk 6), teLine s 3 0 1 2 (rk 7)]
  -- round 2
  let s : Words := ![teLine t 0 1 2 3 (rk 8), teLine t 1 2 3 0 (rk 9),
    teLine t 2 3 0 1 (rk 10), teLine t 3 0 1 2 (rk 11)]
  -- round 3
  let t : Words := ![teLine s 0 1 2 3 (rk 12), teLine s 1 2 3 0 (rk 13),
    teLine s 2 3 0 1 (rk 14), teLine s 3 0 1 2 (rk 15)]
  -- round 4
  let s : Words := ![teLine t 0 1 2 3 (rk 16), teLine t 1 2 3 0 (rk 17),
    teLine t 2 3 0 1 (rk 18), teLine t 3 0 1 2 (rk 19)]
  -- round 5
  let t : Words := ![teLine s 0 1 2 3 (rk 20), teLine s 1 2 3 0 (rk 21),
    teLine s 2 3 0 1 (rk 22), teLine s 3 0 1 2 (rk 23)]
  -- round 6
  let s : Words := ![teLine t 0 1 2 3 (rk 24), teLine t 1 2 3 0 (rk 25),
    teLine t 2 3 0 1 (rk 26), teLine t 3 0 1 2 (rk 27)]
  -- round 7
  let t : Words := ![teLine s 0 1 2 3 (rk 28), teLine s 1 2 3 0 (rk 29),
    teLine s 2 3 0 1 (rk 30), teLine s 3 0 1 2 (rk 31)]
  -- round 8
  let s : Words := ![teLine t 0 1 2 3 (rk 32), teLine t 1 2 3 0 (rk 33),
    teLine t 2 3 0 1 (rk 34), teLine t 3 0 1 2 (rk 35)]
  -- round 9
  let t : Words := ![teLine s 0 1 2 3 (rk 36), teLine s 1 2 3 0 (rk 37),
    teLine s 2 3 0 1 (rk 38), teLine s 3 0 1 2 (rk 39)]
  let t : Words := if nrounds > 10 then
      -- round 10
      let s : Words := ![teLine t 0 1 2 3 (rk 40), teLine t 1 2 3 0 (rk 41),
        teLine t 2 3 0 1 (rk 42), teLine t 3 0 1 2 (rk 43)]
      -- round 11
      let t : Words := ![teLine s 0 1 2 3 (rk 44), teLine s 1 2 3 0 (rk 45),
        teLine s 2 3 0 1 (rk 46), teLine s 3 0 1 2 (rk 47)]
      if nrounds > 12 then
        -- round 12
        let s : Words := ![teLine t 0 1 2 3 (rk 48), teLine t 1 2 3 0 (rk 49),
          teLine t 2 3 0 1 (rk 50), teLine t 3 0 1 2 (rk 51)]
        -- round 13
        let t : Words := ![teLine s 0 1 2 3 (rk 52), teLine s 1 2 3 0 (rk 53),
          teLine s 2 3 0 1 (rk 54), teLine s 3 0 1 2 (rk 55)]
        t
      else t
    else t
  let rk := fun i => rk (nrounds <<< 2 + i)
  ![teLast t 0 1 2 3 (rk 0), teLast t 1 2 3 0 (rk 1),
    teLast t 2 3 0 1 (rk 2), teLast t 3 0 1 2 (rk 3)]

/-- A thread of `xts_encrypt`; `ivs` is the array of `be128`, read as four little-endian words each.
Source: `xt_TOGPU_kernel.cu` 1458–1589
Kind: D -/
def xtsEncrypt (rk : ℕ → BitVec 32) (nrounds : ℕ) (ivs : Text) (tid : ℕ) (text : Text) : Text :=
  let txt := 32 + 16 * tid
  let iv := fun i => loadU32 ivs (16 * tid + 4 * i)
  let s : Words := xtsEncryptWords rk nrounds
    ![swapU32 (iv 0 ^^^ loadU32 text txt) ^^^ rk 0,
      swapU32 (iv 1 ^^^ loadU32 text (txt + 4)) ^^^ rk 1,
      swapU32 (iv 2 ^^^ loadU32 text (txt + 8)) ^^^ rk 2,
      swapU32 (iv 3 ^^^ loadU32 text (txt + 12)) ^^^ rk 3]
  let text := storeU32 text txt (iv 0 ^^^ swapU32 (s 0))
  let text := storeU32 text (txt + 4) (iv 1 ^^^ swapU32 (s 1))
  let text := storeU32 text (txt + 8) (iv 2 ^^^ swapU32 (s 2))
  storeU32 text (txt + 12) (iv 3 ^^^ swapU32 (s 3))

/-- The rounds of `xts_decrypt` from the state after the first key addition on.
Source: `xt_TOGPU_kernel.cu` 1612–1714
Kind: D -/
def xtsDecryptWords (rk : ℕ → BitVec 32) (nrounds : ℕ) (s : Words) : Words :=
  -- round 1
  let t : Words := ![tdLine s 0 3 2 1 (rk 4), tdLine s 1 0 3 2 (rk 5),
    tdLine s 2 1 0 3 (rk 6), tdLine s 3 2 1 0 (rk 7)]
  -- round 2
  let s : Words := ![tdLine t 0 3 2 1 (rk 8), tdLine t 1 0 3 2 (rk 9),
    tdLine t 2 1 0 3 (rk 10), tdLine t 3 2 1 0 (rk 11)]
  -- round 3
  let t : Words := ![tdLine s 0 3 2 1 (rk 12), tdLine s 1 0 3 2 (rk 13),
    tdLine s 2 1 0 3 (rk 14), tdLine s 3 2 1 0 (rk 15)]
  -- round 4
  let s : Words := ![tdLine t 0 3 2 1 (rk 16), tdLine t 1 0 3 2 (rk 17),
    tdLine t 2 1 0 3 (rk 18), tdLine t 3 2 1 0 (rk 19)]
  -- round 5
  let t : Words := ![tdLine s 0 3 2 1 (rk 20), tdLine s 1 0 3 2 (rk 21),
    tdLine s 2 1 0 3 (rk 22), tdLine s 3 2 1 0 (rk 23)]
  -- round 6
  let s : Words := ![tdLine t 0 3 2 1 (rk 24), tdLine t 1 0 3 2 (rk 25),
    tdLine t 2 1 0 3 (rk 26), tdLine t 3 2 1 0 (rk 27)]
  -- round 7
  let t : Words := ![tdLine s 0 3 2 1 (rk 28), tdLine s 1 0 3 2 (rk 29),
    tdLine s 2 1 0 3 (rk 30), tdLine s 3 2 1 0 (rk 31)]
  -- round 8
  let s : Words := ![tdLine t 0 3 2 1 (rk 32), tdLine t 1 0 3 2 (rk 33),
    tdLine t 2 1 0 3 (rk 34), tdLine t 3 2 1 0 (rk 35)]
  -- round 9
  let t : Words := ![tdLine s 0 3 2 1 (rk 36), tdLine s 1 0 3 2 (rk 37),
    tdLine s 2 1 0 3 (rk 38), tdLine s 3 2 1 0 (rk 39)]
  let t : Words := if nrounds > 10 then
      -- round 10
      let s : Words := ![tdLine t 0 3 2 1 (rk 40), tdLine t 1 0 3 2 (rk 41),
        tdLine t 2 1 0 3 (rk 42), tdLine t 3 2 1 0 (rk 43)]
      -- round 11
      let t : Words := ![tdLine s 0 3 2 1 (rk 44), tdLine s 1 0 3 2 (rk 45),
        tdLine s 2 1 0 3 (rk 46), tdLine s 3 2 1 0 (rk 47)]
      if nrounds > 12 then
        -- round 12
        let s : Words := ![tdLine t 0 3 2 1 (rk 48), tdLine t 1 0 3 2 (rk 49),
          tdLine t 2 1 0 3 (rk 50), tdLine t 3 2 1 0 (rk 51)]
        -- round 13
        let t : Words := ![tdLine s 0 3 2 1 (rk 52), tdLine s 1 0 3 2 (rk 53),
          tdLine s 2 1 0 3 (rk 54), tdLine s 3 2 1 0 (rk 55)]
        t
      else t
    else t
  let rk := fun i => rk (nrounds <<< 2 + i)
  ![tdLast t 0 3 2 1 (rk 0), tdLast t 1 0 3 2 (rk 1),
    tdLast t 2 1 0 3 (rk 2), tdLast t 3 2 1 0 (rk 3)]

/-- A thread of `xts_decrypt`.
Source: `xt_TOGPU_kernel.cu` 1591–1721
Kind: D -/
def xtsDecrypt (rk : ℕ → BitVec 32) (nrounds : ℕ) (ivs : Text) (tid : ℕ) (text : Text) : Text :=
  let txt := 32 + 16 * tid
  let iv := fun i => loadU32 ivs (16 * tid + 4 * i)
  let s : Words := xtsDecryptWords rk nrounds
    ![swapU32 (iv 0 ^^^ loadU32 text txt) ^^^ rk 0,
      swapU32 (iv 1 ^^^ loadU32 text (txt + 4)) ^^^ rk 1,
      swapU32 (iv 2 ^^^ loadU32 text (txt + 8)) ^^^ rk 2,
      swapU32 (iv 3 ^^^ loadU32 text (txt + 12)) ^^^ rk 3]
  let text := storeU32 text txt (iv 0 ^^^ swapU32 (s 0))
  let text := storeU32 text (txt + 4) (iv 1 ^^^ swapU32 (s 1))
  let text := storeU32 text (txt + 8) (iv 2 ^^^ swapU32 (s 2))
  storeU32 text (txt + 12) (iv 3 ^^^ swapU32 (s 3))

/-! ## Four threads for a block

The 256 threads of a CUDA block step together: an assignment to a shared array is made for all of
them before the next one. Thread `l` has `threadIdx.y = l / 4` and `threadIdx.x = l % 4`. -/

/-- `WORDS_PER_BLOCK`.
Source: `xt_TOGPU_kernel.cu` 117–118
Kind: D -/
def wordsPerBlock : ℕ := 1024 / 4

/-- `n1`, `n2`, `n3`: the lane `j` places on in the same row.
Source: `xt_TOGPU_kernel.cu` 1353–1355
Kind: D -/
def lane (j l : ℕ) : ℕ := l / 4 * 4 + (l % 4 + j) % 4

/-- An assignment `t[lid] = Te0[s[lid] >> 24] ^ … ^ rk[k+threadIdx.x]` of all threads.
Source: `xt_TOGPU_kernel.cu` 1364
Kind: D -/
def teLanes (rk : ℕ → BitVec 32) (k : ℕ) (s : ℕ → BitVec 32) : ℕ → BitVec 32 :=
  fun l => teLine s l (lane 1 l) (lane 2 l) (lane 3 l) (rk (k + l % 4))

/-- An assignment `t[lid] = Td0[s[lid] >> 24] ^ … ^ rk[k+threadIdx.x]` of all threads.
Source: `xt_TOGPU_kernel.cu` 1413
Kind: D -/
def tdLanes (rk : ℕ → BitVec 32) (k : ℕ) (s : ℕ → BitVec 32) : ℕ → BitVec 32 :=
  fun l => tdLine s l (lane 3 l) (lane 2 l) (lane 1 l) (rk (k + l % 4))

/-- The first assignment: `s[lid] = GETU32((u32*)text+bid*WORDS_PER_BLOCK+lid) ^ rk[threadIdx.x]`.
Source: `xt_TOGPU_kernel.cu` 1362, 1411
Kind: D -/
def loadLanes (rk : ℕ → BitVec 32) (bid : ℕ) (text : Text) : ℕ → BitVec 32 :=
  fun l => getU32 text (4 * (bid * wordsPerBlock + l)) ^^^ rk (l % 4)

/-- The last: `PUTU32((u32*)text+bid*WORDS_PER_BLOCK+lid, s[lid])` of all threads.
Source: `xt_TOGPU_kernel.cu` 1403, 1446
Kind: D -/
def storeLanes (bid : ℕ) (s : ℕ → BitVec 32) (text : Text) : Text :=
  (List.range wordsPerBlock).foldl
    (fun text l => putU32 text (4 * (bid * wordsPerBlock + l)) (s l)) text

/-- The rounds of `aes_encrypt_bp4t`.
Source: `xt_TOGPU_kernel.cu` 1364–1402
Kind: D -/
def aesEncryptBp4tLanes (rk : ℕ → BitVec 32) (nrounds : ℕ) (s : ℕ → BitVec 32) : ℕ → BitVec 32 :=
  let t := teLanes rk 4 s
  let s := teLanes rk 8 t
  let t := teLanes rk 12 s
  let s := teLanes rk 16 t
  let t := teLanes rk 20 s
  let s := teLanes rk 24 t
  let t := teLanes rk 28 s
  let s := teLanes rk 32 t
  let t := teLanes rk 36 s
  let t := if nrounds > 10 then
      let s := teLanes rk 40 t
      let t := teLanes rk 44 s
      if nrounds > 12 then
        let s := teLanes rk 48 t
        teLanes rk 52 s
      else t
    else t
  let rk := fun i => rk (nrounds <<< 2 + i)
  fun l => teLast t l (lane 1 l) (lane 2 l) (lane 3 l) (rk (l % 4))

/-- CUDA block `bid` of `aes_encrypt_bp4t`.
Source: `xt_TOGPU_kernel.cu` 1357–1404
Kind: D -/
def aesEncryptBp4t (rk : ℕ → BitVec 32) (nrounds : ℕ) (bid : ℕ) (text : Text) : Text :=
  storeLanes bid (aesEncryptBp4tLanes rk nrounds (loadLanes rk bid text)) text

/-- The rounds of `aes_decrypt_bp4t`: the round keys are `rk[4+threadIdx.x]` and
`rk[8+threadIdx.x]` throughout, and `rk[0]` at the end.
Source: `xt_TOGPU_kernel.cu` 1413–1445
Kind: D -/
def aesDecryptBp4tLanes (rk : ℕ → BitVec 32) (nrounds : ℕ) (s : ℕ → BitVec 32) : ℕ → BitVec 32 :=
  let t := tdLanes rk 4 s
  let s := tdLanes rk 8 t
  let t := tdLanes rk 4 s
  let s := tdLanes rk 8 t
  let t := tdLanes rk 4 s
  let s := tdLanes rk 8 t
  let t := tdLanes rk 4 s
  let s := tdLanes rk 8 t
  let t := tdLanes rk 4 s
  let t := if nrounds > 10 then
      let s := tdLanes rk 8 t
      let t := tdLanes rk 4 s
      if nrounds > 12 then
        let s := tdLanes rk 8 t
        tdLanes rk 4 s
      else t
    else t
  let rk := fun i => rk (nrounds <<< 2 + i)
  fun l => tdLast t l (lane 3 l) (lane 2 l) (lane 1 l) (rk 0)

/-- CUDA block `bid` of `aes_decrypt_bp4t`.
Source: `xt_TOGPU_kernel.cu` 1406–1447
Kind: D -/
def aesDecryptBp4t (rk : ℕ → BitVec 32) (nrounds : ℕ) (bid : ℕ) (text : Text) : Text :=
  storeLanes bid (aesDecryptBp4tLanes rk nrounds (loadLanes rk bid text)) text

end Togpu.Gpu
