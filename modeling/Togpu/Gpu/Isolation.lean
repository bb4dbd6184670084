import Togpu.Gpu.Launch
import Togpu.Pool.Slots

/-!
# Packets in one pool

All buffers share the memory of the pool, and a launch is given nothing but a slot number and a
length. Here the pool, the stack writing into its buffers, `nfgpu_target` and the launches of
`aes_test` are one system. It rests on two assumptions about what lies between them, which the
mailbox of a 64-bit kernel and the asynchronous launch do not meet (`Mailbox.Layout`,
`Mailbox.Completion`): `aes_test` reads the slot and the length that `nfgpu_target` stored, one call
after another, and every block of a launch has been executed when the call returns.

* `Machine`, `machineStep` — the driver with the memory of the pool, and what can happen to both.
* `Packet`, `ownStep` — one packet for itself, and what an event that names it does to it.
* `Slotted` — what the events of a run keep to: the stack writes inside the slot of the buffer it
  has, and what is sent fits the slot.
* **A packet is its own**: along every run, the length and the bytes of a packet are what its own
  events make of them, whatever happens to the other packets and in whatever order the threads of
  the launches run (`packet_isolated`).
-/

namespace Togpu.Gpu

open Togpu.Lib Togpu.Lib.Fips197 Togpu.Driver Togpu.Mailbox

/-! ## The machine -/

/-- The driver, and the memory of the pool by the distance from its base. Kernel and GPU see the
same memory.
Kind: D -/
structure Machine where
  /-- The driver inside the kernel. -/
  sys : System
  /-- The memory of the pool. -/
  mem : Text

/-- What can happen. The mailbox is faithful, and a launch has ended when `nfgpu_target` returns.
Kind: D -/
inductive MachineEvent where
  /-- Something happens to the driver or its buffers. The hooks move pointers and copy nothing. -/
  | pool (e : Event)
  /-- The stack writes a byte `off` bytes behind the head of `p`. -/
  | write (p off : ℕ) (byte : BitVec 8)
  /-- `nfgpu_target` sees `p`; if there is a launch, its threads run in the order `order`. -/
  | send (p : ℕ) (order : List ℕ)

/-- A byte is written to address `a`, in the pool or elsewhere.
Kind: D -/
def Machine.write (m : Machine) (a : Addr) (byte : BitVec 8) : Machine :=
  if InRange m.sys.drv.nfgpuKva a then
    { m with mem := Function.update m.mem (a.toNat - m.sys.drv.nfgpuKva.toNat) byte }
  else m

/-- A packet goes through `nfgpu_target` and, if that posts it, through `aes_test`: the launch is
for the slot and the length that were posted, and is over when the call returns. Both are
assumptions here, not what the code ensures.
Source: `xt_TOGPU_main.c` 175–233; `xt_TOGPU_kernel.cu` 1747–1778
Kind: D -/
def Machine.send (rk : ℕ → BitVec 32) (m : Machine) (l : LiveSkb) (order : List ℕ) : Machine :=
  match nfgpuTargetEntry m.sys.drv l.cur.head l.cur.len with
  | .storeIndex call => { m with mem := aesLaunch rk (call.index.setWidth 32) order m.mem }
  | _ => m

/-- One step, with the words `rk` at and behind `cipher_key`.
Kind: D -/
def machineStep (rk : ℕ → BitVec 32) (m : Machine) : MachineEvent → Option Machine
  | .pool e => (step m.sys e).map fun sys => { m with sys := sys }
  | .write p off byte =>
      (m.sys.live p).map fun l => m.write (l.cur.head + BitVec.ofNat 64 off) byte
  | .send p order => (m.sys.live p).map fun l => m.send rk l order

/-- A length whose launch stays in the slot: the last thread ends where the slot does, or the launch
is rejected.
Source: `xt_TOGPU_kernel.cu` 1755, 1770
Kind: D -/
def FitsSlot (len : BitVec 32) : Prop := len.toNat < 4112 ∨ 16432 ≤ len.toNat

/-- What the events of a run keep to. The driver's events are those of a pool at a fixed base; the
stack writes within 4096 bytes of a head, and outside the pool if the buffer is; what is sent fits
the slot; the GPU runs every thread of a launch once.
Kind: D -/
def Slotted (m : Machine) : MachineEvent → Prop
  | .pool e => PoolEvent m.sys e
  | .write p off _ => ∀ l, m.sys.live p = some l → off < 4096 ∧
      (¬l.buf.Swapped → ¬InRange m.sys.drv.nfgpuKva (l.cur.head + BitVec.ofNat 64 off))
  | .send p order => ∀ l, m.sys.live p = some l →
      order.Perm (List.range (launchThreads l.cur.len)) ∧ FitsSlot l.cur.len

/-! ## One packet for itself -/

/-- The byte of a block that an offset falls on.
Kind: L -/
theorem blockByte_lt (o : ℕ) : (o - 32) % 16 < 16 := Nat.mod_lt _ (by decide)

/-- What a launch of `n` threads makes of a text: the blocks of the threads enciphered, with the
keys the round count of `aes_test` leads to.
Kind: D -/
def encryptText (rk : ℕ → BitVec 32) (n : ℕ) (text : Text) : Text := fun o =>
  if 32 ≤ o ∧ (o - 32) / 16 < n then
    cipher (splicedKeys rk) 14 (readBlock 16 text (threadBase ((o - 32) / 16)))
      ⟨(o - 32) % 16, blockByte_lt o⟩
  else text o

/-- A packet in the pool.
Kind: D -/
structure Packet where
  /-- Its length. -/
  len : BitVec 32
  /-- Whether `nfgpu_target` takes its head for an address of the pool. -/
  seen : Bool
  /-- Its bytes, by the distance from its head. -/
  bytes : Text

/-- What an event does to the packet with handle `p`: nothing, unless it names `p`.
Kind: D -/
def ownStep (rk : ℕ → BitVec 32) (p : ℕ) (pk : Packet) : MachineEvent → Packet
  | .pool (.adjust q _ _ len) => if q = p then { pk with len := len } else pk
  | .pool _ => pk
  | .write q off byte =>
      if q = p then { pk with bytes := Function.update pk.bytes off byte } else pk
  | .send q _ =>
      if q = p ∧ pk.seen = true then
        { pk with bytes := encryptText rk (launchThreads pk.len) pk.bytes }
      else pk

/-! ## A launch of a text -/

section launches

variable {rk : ℕ → BitVec 32} {n : ℕ}

/-- A launch enciphers the blocks of its threads, in whatever order they run.
Kind: L -/
theorem launch_eq_encryptText {order : List ℕ} (horder : order.Perm (List.range n)) (text : Text) :
    launch (aesEncryptBpt rk aesTestRounds) order text = encryptText rk n text := by
  have hblock := aesEncryptBpt_block rk aesTestRounds
  funext o
  unfold encryptText
  split_ifs with h
  · have hmem : (o - 32) / 16 ∈ order := horder.mem_iff.mpr (List.mem_range.mpr h.2)
    have hnodup : order.Nodup := horder.nodup_iff.mpr List.nodup_range
    have hread := congrFun (readBlock_launch hblock threadBase_apart hnodup hmem text)
      ⟨(o - 32) % 16, blockByte_lt o⟩
    have hpos : threadBase ((o - 32) / 16) + (o - 32) % 16 = o := by
      unfold threadBase
      omega
    simp only [readBlock, hpos] at hread
    rw [hread, encBlock_aesTestRounds]
  · refine launch_frame hblock (fun t ht hin => h ?_) text
    have hlt := List.mem_range.mp (horder.mem_iff.mp ht)
    unfold threadBase at hin
    omega

/-- Few enough threads work inside the slot.
Kind: L -/
theorem FitsSlot.launchThreads_le {len : BitVec 32} (h : FitsSlot len) :
    launchThreads len ≤ 254 := by
  rcases h with hshort | hlong
  · rw [launchThreads_eq (by omega)]
    omega
  · rw [launchThreads_eq_zero hlong]
    exact Nat.zero_le _

/-- What a launch inside the slot does to its bytes depends on nothing else.
Kind: L -/
theorem encryptText_congr (hn : n ≤ 254) {text text' : Text}
    (h : ∀ o < 4096, text o = text' o) :
    ∀ o < 4096, encryptText rk n text o = encryptText rk n text' o := by
  intro o ho
  unfold encryptText
  split_ifs with hin
  · have hread : readBlock 16 text (threadBase ((o - 32) / 16)) =
        readBlock 16 text' (threadBase ((o - 32) / 16)) := by
      funext k
      apply h
      unfold threadBase
      omega
    rw [hread]
  · exact h o ho

/-- The launch on slot `i`, seen from a slot `j`: it enciphers its own slot and leaves the others.
Kind: L -/
theorem aesLaunch_slot {i j : BitVec 64} (hbase : packetBase (i.setWidth 32) = i.toNat * 4096)
    (hn : n ≤ 254) {order : List ℕ} (horder : order.Perm (List.range n)) (mem : Text) {o : ℕ}
    (ho : o < 4096) :
    aesLaunch rk (i.setWidth 32) order mem (j.toNat * 4096 + o) =
      if j = i then encryptText rk n (fun o => mem (i.toNat * 4096 + o)) o
      else mem (j.toNat * 4096 + o) := by
  have hptr : (packetBase (i.setWidth 32)).toNat = i.toNat * 4096 := by
    rw [hbase]
    omega
  split_ifs with hji
  · subst hji
    simp only [aesLaunch, hptr]
    rw [if_pos (Nat.le_add_right _ _), launch_eq_encryptText horder, Nat.add_sub_cancel_left]
  · have hne : j.toNat ≠ i.toNat := fun h => hji (BitVec.eq_of_toNat_eq h)
    by_contra hchanged
    obtain ⟨t, ht, hlo, hhi⟩ := changed_in_block hchanged
    have hlt := List.mem_range.mp (horder.mem_iff.mp ht)
    rw [hptr] at hlo hhi
    unfold threadBase at hlo hhi
    omega

end launches

/-! ## A packet along a run -/

/-- The packet in slot `i` with handle `p` is `pk`.
Kind: D -/
structure Follows (kva : Addr) (p : ℕ) (i : BitVec 64) (m : Machine) (pk : Packet) : Prop where
  inv : SlotInv kva m.sys
  placed : ∃ l, m.sys.live p = some l ∧ Placed kva m.sys.drv.nfgpuSkbs l i ∧ l.cur.len = pk.len
  seen : pk.seen = inPool kva (slotAddr kva i)
  bytes : ∀ o < 4096, m.mem (i.toNat * 4096 + o) = pk.bytes o

section follows

variable {kva : Addr} {p : ℕ} {i : BitVec 64}

/-- Slots of different live buffers.
Kind: L -/
theorem ne_slot (hb : IsPoolBase kva) {s : System} (hI : SlotInv kva s) {q : ℕ} {l k : LiveSkb}
    {j : BitVec 64} (hqp : q ≠ p) (hl : s.live p = some l) (hi : Placed kva s.drv.nfgpuSkbs l i)
    (hk : s.live q = some k) (hj : Placed kva s.drv.nfgpuSkbs k j) : i ≠ j := by
  have hsl := hi.swapped hb (hI.live_ok p l hl).native
  have hsk := hj.swapped hb (hI.live_ok q k hk).native
  have hne := hI.distinct p q l k (Ne.symm hqp) hl hk hsl hsk
  rwa [hi.slotIndex_eq hb, hj.slotIndex_eq hb] at hne

/-- **A step of the driver that does not release a packet leaves it in its slot**; only moving its
own pointers sets its length.
Kind: L -/
theorem placed_step (hb : IsPoolBase kva) {s s' : System} {e : Event} (hI : SlotInv kva s)
    (hok : PoolEvent s e) (hne : e ≠ .release p) (h : step s e = some s') {l : LiveSkb}
    (hl : s.live p = some l) (hi : Placed kva s.drv.nfgpuSkbs l i) (rk : ℕ → BitVec 32)
    {pk : Packet} (hlen : l.cur.len = pk.len) :
    ∃ l', s'.live p = some l' ∧ Placed kva s'.drv.nfgpuSkbs l' i ∧
      l'.cur.len = (ownStep rk p pk (.pool e)).len := by
  cases e with
  | alloc q native nrFrags =>
      cases native with
      | none => exact hok.elim
      | some ret =>
          obtain ⟨hq, ⟨-, rfl⟩ | ⟨-, -, -, j, hj, rfl⟩⟩ := step_alloc_cases h
          · have hpq : p ≠ q := ne_of_none_of_some hq hl
            exact ⟨l, update_some_eq_some.mpr (.inr ⟨hpq, hl⟩), hi, hlen⟩
          · have hpq : p ≠ q := ne_of_none_of_some hq hl
            have hij : i ≠ j := by
              rintro rfl
              exact (hI.live_ok p l hl).native.1 (hi.entry.symm.trans (findSlot_ok hj).2)
            exact ⟨l, update_some_eq_some.mpr (.inr ⟨hpq, hl⟩),
              hi.congr (Function.update_of_ne hij _ _), hlen⟩
  | adjust q data tail len =>
      obtain ⟨k, hk, rfl⟩ := step_adjust_cases h
      by_cases hqp : q = p
      · subst hqp
        rw [hl] at hk
        cases hk
        refine ⟨_, update_some_eq_some.mpr (.inl ⟨rfl, rfl⟩), hi.adjust data tail len, ?_⟩
        simp [ownStep]
      · refine ⟨l, update_some_eq_some.mpr (.inr ⟨Ne.symm hqp, hl⟩), hi, ?_⟩
        simp [ownStep, hqp, hlen]
  | clone q r =>
      obtain ⟨hr, k, hk, rfl⟩ := step_clone_cases h
      have hpr : p ≠ r := ne_of_none_of_some hr hl
      exact ⟨l, update_some_eq_some.mpr (.inr ⟨hpr, hl⟩), hi, hlen⟩
  | release q =>
      obtain ⟨k, hk, rfl⟩ := step_release_cases h
      have hqp : q ≠ p := fun heq => hne (heq ▸ rfl)
      have hlive : Function.update s.live q none p = some l :=
        update_none_eq_some.mpr ⟨Ne.symm hqp, hl⟩
      rcases (hI.live_ok q k hk).release_cases hb hI.base with ⟨-, hrel⟩ | ⟨j, hj, -, hrel⟩
      · refine ⟨l, ?_, ?_, hlen⟩
        · simpa only [System.release, hrel] using hlive
        · simpa only [System.release, hrel] using hi
      · have hij := ne_slot hb hI hqp hl hi hk hj
        refine ⟨l, ?_, ?_, hlen⟩
        · simpa only [System.release, hrel] using hlive
        · simpa only [System.release, hrel] using hi.congr (Function.update_of_ne hij _ _)
  | ioctl cmd env => exact hok.elim

/-- The entry test for a buffer in slot `i`.
Source: `xt_TOGPU_main.c` 188–195
Kind: L -/
theorem entry_of_placed (hb : IsPoolBase kva) {s : System} (hI : SlotInv kva s) {l : LiveSkb}
    (hi : Placed kva s.drv.nfgpuSkbs l i) :
    nfgpuTargetEntry s.drv l.cur.head l.cur.len =
      if inPool kva (slotAddr kva i) = true then .storeIndex ⟨i, l.cur.len⟩ else .idle := by
  unfold nfgpuTargetEntry
  rw [hI.running, hI.base, hi.slotIndex_eq hb, hi.head]
  cases inPool kva (slotAddr kva i) <;> rfl

/-- A buffer outside the pool is not posted.
Source: `xt_TOGPU_main.c` 188–195
Kind: L -/
theorem entry_of_kept (hb : IsPoolBase kva) {s : System} (hI : SlotInv kva s) {q : ℕ} {l : LiveSkb}
    (hl : s.live q = some l) (hk : Kept l) :
    nfgpuTargetEntry s.drv l.cur.head l.cur.len = .idle := by
  unfold nfgpuTargetEntry
  rw [hI.running, hI.base, inPool_eq_false hb ((hI.live_ok q l hl).not_inRange_of_kept hk)]
  rfl

/-- A byte behind the head of slot `j`, seen from slot `i`.
Kind: L -/
theorem write_slot (hb : IsPoolBase kva) {m : Machine} (hbase : m.sys.drv.nfgpuKva = kva)
    {j : BitVec 64} (hj : j < nfgpuMaxSkbs) {off o : ℕ} (hoff : off < 4096) (ho : o < 4096)
    (byte : BitVec 8) :
    (m.write (slotAddr kva j + BitVec.ofNat 64 off) byte).mem (i.toNat * 4096 + o) =
      if i = j ∧ o = off then byte else m.mem (i.toNat * 4096 + o) := by
  have hwrap := hb.noWrap
  have hjlt := hj
  rw [BitVec.lt_def, nfgpuMaxSkbs_toNat] at hjlt
  rw [nfgpuMaxMemory_toNat] at hwrap
  have haddr : (slotAddr kva j + BitVec.ofNat 64 off).toNat = kva.toNat + j.toNat * 4096 + off := by
    rw [BitVec.toNat_add, slotAddr_toNat hb hj, BitVec.toNat_ofNat]
    omega
  have hin : InRange kva (slotAddr kva j + BitVec.ofNat 64 off) := by
    rw [InRange, haddr, nfgpuMaxMemory_toNat]
    omega
  have hpos : kva.toNat + j.toNat * 4096 + off - kva.toNat = j.toNat * 4096 + off := by omega
  unfold Machine.write
  rw [hbase, if_pos hin, haddr, hpos]
  by_cases hsame : i = j ∧ o = off
  · obtain ⟨rfl, rfl⟩ := hsame
    simp
  · have hne : i.toNat * 4096 + o ≠ j.toNat * 4096 + off := by
      intro heq
      exact hsame ⟨BitVec.eq_of_toNat_eq (by omega), by omega⟩
    rw [if_neg hsame]
    simp only [Function.update_of_ne hne]

/-- A write keeps track of the packet.
Kind: L -/
theorem Follows.write (hb : IsPoolBase kva) {m : Machine} {pk : Packet} (h : Follows kva p i m pk)
    (rk : ℕ → BitVec 32) {q off : ℕ} {byte : BitVec 8} (hok : Slotted m (.write q off byte))
    {k : LiveSkb} (hk : m.sys.live q = some k) :
    Follows kva p i (m.write (k.cur.head + BitVec.ofNat 64 off) byte)
      (ownStep rk p pk (.write q off byte)) := by
  have hsys : (m.write (k.cur.head + BitVec.ofNat 64 off) byte).sys = m.sys := by
    unfold Machine.write
    split_ifs <;> rfl
  obtain ⟨hoff, hout⟩ := hok k hk
  obtain ⟨l, hl, hi, hlen⟩ := h.placed
  refine ⟨hsys ▸ h.inv, ⟨l, ?_, ?_, ?_⟩, ?_, fun o ho => ?_⟩
  · rw [hsys, hl]
  · rwa [hsys]
  · rw [hlen]
    simp only [ownStep]
    split_ifs <;> rfl
  · rw [← h.seen]
    simp only [ownStep]
    split_ifs <;> rfl
  · rcases (h.inv.live_ok q k hk).place with hkept | ⟨j, hj⟩
    · -- the byte is written outside the pool
      have hqp : q ≠ p := by
        rintro rfl
        rw [hl] at hk
        cases hk
        exact hkept.not_movable hi.movable
      unfold Machine.write
      rw [if_neg (hout hkept.not_swapped), h.bytes o ho]
      simp [ownStep, hqp]
    · rw [hj.head, write_slot hb h.inv.base hj.lt hoff ho, h.bytes o ho]
      by_cases hqp : q = p
      · subst hqp
        rw [hl] at hk
        cases hk
        have hij : i = j := (hi.slotIndex_eq hb).symm.trans (hj.slotIndex_eq hb)
        simp [ownStep, hij, Function.update_apply]
      · have hij := ne_slot hb h.inv hqp hl hi hk hj
        simp [ownStep, hqp, hij]

/-- A launch keeps track of the packet.
Kind: L -/
theorem Follows.send (hb : IsPoolBase kva) {m : Machine} {pk : Packet} (h : Follows kva p i m pk)
    (rk : ℕ → BitVec 32) {q : ℕ} {order : List ℕ} (hok : Slotted m (.send q order))
    {k : LiveSkb} (hk : m.sys.live q = some k) :
    Follows kva p i (m.send rk k order) (ownStep rk p pk (.send q order)) := by
  obtain ⟨horder, hfits⟩ := hok k hk
  obtain ⟨l, hl, hi, hlen⟩ := h.placed
  have hsys : (m.send rk k order).sys = m.sys := by
    unfold Machine.send
    split <;> rfl
  refine ⟨hsys ▸ h.inv, ⟨l, ?_, ?_, ?_⟩, ?_, fun o ho => ?_⟩
  · rw [hsys, hl]
  · rwa [hsys]
  · rw [hlen]
    simp only [ownStep]
    split_ifs <;> rfl
  · rw [← h.seen]
    simp only [ownStep]
    split_ifs <;> rfl
  · rcases (h.inv.live_ok q k hk).place with hkept | ⟨j, hj⟩
    · have hqp : q ≠ p := by
        rintro rfl
        rw [hl] at hk
        cases hk
        exact hkept.not_movable hi.movable
      unfold Machine.send
      rw [entry_of_kept hb h.inv hk hkept, h.bytes o ho]
      simp [ownStep, hqp]
    · have hentry := entry_of_placed hb h.inv hj
      unfold Machine.send
      rw [hentry]
      cases hin : inPool kva (slotAddr kva j) with
      | false =>
          have hquiet : ¬(q = p ∧ pk.seen = true) := by
            rintro ⟨rfl, hseen⟩
            rw [hl] at hk
            cases hk
            have hij : i = j := (hi.slotIndex_eq hb).symm.trans (hj.slotIndex_eq hb)
            rw [h.seen, hij, hin] at hseen
            cases hseen
          simp [ownStep, hquiet, h.bytes o ho]
      | true =>
          have hposts : Posts m.sys.drv k.cur j ⟨j, k.cur.len⟩ :=
            ⟨h.inv.base ▸ hb, hj.lt, h.inv.base ▸ hj.head, by rw [hentry, hin]; rfl⟩
          simp only [if_true]
          rw [aesLaunch_slot hposts.packetBase_eq hfits.launchThreads_le horder m.mem ho]
          by_cases hqp : q = p
          · subst hqp
            rw [hl] at hk
            cases hk
            obtain rfl : i = j := (hi.slotIndex_eq hb).symm.trans (hj.slotIndex_eq hb)
            have hseen : pk.seen = true := h.seen.trans hin
            simp only [ownStep, hseen, and_self, if_true, hlen]
            rw [hlen] at hfits
            exact encryptText_congr hfits.launchThreads_le h.bytes o ho
          · have hij := ne_slot hb h.inv hqp hl hi hk hj
            simp [ownStep, hqp, hij, h.bytes o ho]

/-- **A step keeps track of every packet it does not release.**
Kind: P -/
theorem follows_step (hb : IsPoolBase kva) (rk : ℕ → BitVec 32) {m m' : Machine} {pk : Packet}
    {e : MachineEvent} (h : Follows kva p i m pk)
    (hok : Slotted m e ∧ e ≠ .pool (.release p)) (hstep : machineStep rk m e = some m') :
    Follows kva p i m' (ownStep rk p pk e) := by
  cases e with
  | pool e =>
      obtain ⟨s', hs', rfl⟩ := Option.map_eq_some_iff.mp hstep
      obtain ⟨l, hl, hi, hlen⟩ := h.placed
      have hne : e ≠ .release p := fun heq => hok.2 (heq ▸ rfl)
      have hseen : (ownStep rk p pk (.pool e)).seen = pk.seen := by
        cases e with
        | adjust q data tail len =>
            simp only [ownStep]
            split_ifs <;> rfl
        | alloc _ _ _ | clone _ _ | release _ | ioctl _ _ => rfl
      have hbytes : (ownStep rk p pk (.pool e)).bytes = pk.bytes := by
        cases e with
        | adjust q data tail len =>
            simp only [ownStep]
            split_ifs <;> rfl
        | alloc _ _ _ | clone _ _ | release _ | ioctl _ _ => rfl
      refine ⟨slotInv_step hb h.inv hok.1 hs',
        placed_step hb h.inv hok.1 hne hs' hl hi rk hlen, hseen.trans h.seen, ?_⟩
      rw [hbytes]
      exact h.bytes
  | write q off byte =>
      obtain ⟨k, hk, rfl⟩ := Option.map_eq_some_iff.mp hstep
      exact h.write hb rk hok.1 hk
  | send q order =>
      obtain ⟨k, hk, rfl⟩ := Option.map_eq_some_iff.mp hstep
      exact h.send hb rk hok.1 hk

end follows

/-! ## Packets are isolated -/

/-- The packet of a buffer in the pool.
Kind: D -/
def Machine.packet (m : Machine) (l : LiveSkb) : Packet where
  len := l.cur.len
  seen := inPool m.sys.drv.nfgpuKva l.cur.head
  bytes o := m.mem ((slotIndex m.sys.drv.nfgpuKva l.cur.head).toNat * 4096 + o)

/-- A fresh running pool with this memory.
Kind: D -/
def Machine.start (kva : Addr) (npages : ℕ) (shinfo : Addr → SkbSharedInfo) (mem : Text) :
    Machine :=
  ⟨System.runningPool kva npages shinfo, mem⟩

/-- **A packet is its own.** From any state of any run of a running pool, until a buffer in the pool
is released: it keeps its head, and its length and the bytes of its slot are those that its own
events make of them, one after another. Nothing that happens to other buffers, and no order of the
threads of any launch, makes a difference.
Source: `xt_TOGPU_main.c` 175–314; `xt_TOGPU_kernel.cu` 1121–1231, 1741–1779
Kind: P
Fidelity: packets are sent one after another; assumes that the mailbox delivers the slot and the
length that were stored, and that a launch has ended when `nfgpu_target` returns
Hyps: (a) `IsPoolBase kva`, what `vmap` promises; (b) every event is `Slotted` -/
theorem packet_isolated {kva : Addr} (hb : IsPoolBase kva) (npages : ℕ)
    (shinfo : Addr → SkbSharedInfo) (mem : Text) (rk : ℕ → BitVec 32) {es es' : List MachineEvent}
    {m m' : Machine} {p : ℕ} {l : LiveSkb}
    (hok : Along (machineStep rk) Slotted (.start kva npages shinfo mem) es)
    (hreach : exec (machineStep rk) (.start kva npages shinfo mem) es = some m)
    (hl : m.sys.live p = some l) (hs : l.buf.Swapped)
    (hok' : Along (machineStep rk) (fun m e => Slotted m e ∧ e ≠ .pool (.release p)) m es')
    (hrun : exec (machineStep rk) m es' = some m') :
    ∃ l', m'.sys.live p = some l' ∧ l'.cur.head = l.cur.head ∧
      l'.cur.len = (es'.foldl (ownStep rk p) (m.packet l)).len ∧
      ∀ o < 4096, (m'.packet l').bytes o = (es'.foldl (ownStep rk p) (m.packet l)).bytes o := by
  have hinv : SlotInv kva m.sys := by
    refine exec_invariant (I := fun m : Machine => SlotInv kva m.sys) ?_
      (slotInv_runningPool kva npages shinfo) hok hreach
    intro m e m' hI hok hstep
    cases e with
    | pool e =>
        obtain ⟨s', hs', rfl⟩ := Option.map_eq_some_iff.mp hstep
        exact slotInv_step hb hI hok hs'
    | write q off byte =>
        obtain ⟨k, -, rfl⟩ := Option.map_eq_some_iff.mp hstep
        unfold Machine.write
        split_ifs <;> exact hI
    | send q order =>
        obtain ⟨k, -, rfl⟩ := Option.map_eq_some_iff.mp hstep
        unfold Machine.send
        split <;> exact hI
  obtain ⟨i, hi⟩ := (hinv.live_ok p l hl).placed_of_swapped hs
  have hslot : (slotIndex m.sys.drv.nfgpuKva l.cur.head) = i := by
    rw [hinv.base, hi.slotIndex_eq hb]
  have hfollows : Follows kva p i m (m.packet l) := by
    refine ⟨hinv, ⟨l, hl, hi, rfl⟩, ?_, fun o _ => ?_⟩
    · simp only [Machine.packet, hinv.base, hi.head]
    · simp only [Machine.packet, hslot]
  have hend : Follows kva p i m' (es'.foldl (ownStep rk p) (m.packet l)) := by
    refine exec_simulates ?_ hfollows hok' hrun
    intro m pk e m' h hok hstep
    exact follows_step hb rk h hok hstep
  obtain ⟨l', hl', hi', hlen⟩ := hend.placed
  refine ⟨l', hl', hi'.head.trans hi.head.symm, hlen, fun o ho => ?_⟩
  simp only [Machine.packet, hend.inv.base, hi'.slotIndex_eq hb]
  exact hend.bytes o ho

/-- A buffer of 2 KB that holds a packet of 1500 bytes.
Kind: D -/
def nativePacket : SkBuff := { nativeOfSize 2048 with len := 1500 }

/-- Two packets in the pool.
Kind: D -/
def twoPackets : List MachineEvent :=
  [.pool (.alloc 0 (some nativePacket) 0), .pool (.alloc 1 (some nativePacket) 0)]

/-- The second of two packets is enciphered, and the first one keeps its bytes.
Kind: C -/
theorem packet_isolated_two :
    ∃ m m' l l', exec (machineStep fun _ => 0)
        (.start 0xffffc90000000000 8192 (fun _ => ⟨0, 0⟩) fun _ => 0) twoPackets = some m ∧
      exec (machineStep fun _ => 0) m [.send 1 (List.range 91)] = some m' ∧
      m.sys.live 0 = some l ∧ m'.sys.live 0 = some l' ∧
      ∀ o < 4096, (m'.packet l').bytes o = (m.packet l).bytes o := by
  have hb : IsPoolBase 0xffffc90000000000 := ⟨by decide, by decide, by decide⟩
  have hnative : NativeOk 0xffffc90000000000 nativePacket := by
    constructor <;> decide
  obtain ⟨m, hm⟩ : ∃ m, exec (machineStep fun _ => 0)
      (.start 0xffffc90000000000 8192 (fun _ => ⟨0, 0⟩) fun _ => 0) twoPackets = some m := ⟨_, rfl⟩
  have hlive : (exec (machineStep fun _ => 0)
      (.start 0xffffc90000000000 8192 (fun _ => ⟨0, 0⟩) fun _ => 0) twoPackets).map
        (fun m => (m.sys.live 0, m.sys.live 1)) =
      some (some ⟨0, ⟨nativePacket, 0, moveTo (slotAddr 0xffffc90000000000 1) nativePacket⟩,
          moveTo (slotAddr 0xffffc90000000000 1) nativePacket⟩,
        some ⟨1, ⟨nativePacket, 0, moveTo (slotAddr 0xffffc90000000000 2) nativePacket⟩,
          moveTo (slotAddr 0xffffc90000000000 2) nativePacket⟩) := rfl
  rw [hm, Option.map_some, Option.some.injEq, Prod.mk.injEq] at hlive
  obtain ⟨m', hm'⟩ : ∃ m', exec (machineStep fun _ => 0) m [.send 1 (List.range 91)] = some m' := by
    simp [exec, machineStep, hlive.2]
  have hok : Along (machineStep fun _ => 0) Slotted
      (.start 0xffffc90000000000 8192 (fun _ => ⟨0, 0⟩) fun _ => 0) twoPackets := by
    refine ⟨hnative, fun s hs => ⟨?_, fun _ _ => trivial⟩⟩
    cases hs
    exact hnative
  have hok' : Along (machineStep fun _ => 0)
      (fun m e => Slotted m e ∧ e ≠ .pool (.release 0)) m [.send 1 (List.range 91)] := by
    refine ⟨⟨fun k hk => ?_, by simp⟩, fun _ _ => trivial⟩
    rw [hlive.2] at hk
    cases hk
    have hthreads : launchThreads nativePacket.len = 91 := by decide
    refine ⟨?_, .inl (by decide)⟩
    show (List.range 91).Perm (List.range (launchThreads nativePacket.len))
    rw [hthreads]
  obtain ⟨l', hl', -, -, hbytes⟩ := packet_isolated hb 8192 (fun _ => ⟨0, 0⟩) (fun _ => 0)
    (fun _ => 0) hok hm hlive.1 (by decide) hok' hm'
  exact ⟨m, m', _, l', hm, hm', hlive.1, hl', hbytes⟩

end Togpu.Gpu
