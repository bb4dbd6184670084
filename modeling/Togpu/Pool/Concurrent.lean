import Togpu.Lib.Run
import Togpu.Pool.Membership

/-!
# Allocations that overlap

`__netdev_alloc_skb_togpu` takes no lock. It reads `nfgpu_next` for the test of an entry, again for
the increment, again for the store into the table and again for the new head, and the increment and
the wrap to 1 are two stores. Receive paths on several processors run it at the same time.

* `Stage`, `Race`, `raceStep` — any number of calls, each a sequence of atomic steps on the shared
  table and index: what each call is about to do, with its registers.
* `exec_alone` — a call that runs alone is `netdevAllocSkbTogpu`.
* `Separate` — completed allocations have heads of their own, with their native heads behind them,
  and every table index used is one of a slot.
* `Stage.Finds`, `Undisturbed` — what a step must find: `nfgpu_next` in range where it is read, the
  entry still free where it is written, `nfgpu_next` not moved between the store and the head.
* **In every run of undisturbed steps the allocations are separate** (`separate_of_undisturbed`).
  Two calls that test one entry before either has written it share a slot (`two_calls_one_slot`).
-/

namespace Togpu.Driver

open Togpu.Lib

/-! ## Calls in steps -/

/-- What a call is about to do. `ret` is the result of the native allocator.
Source: `xt_TOGPU_main.c` 255–269
Kind: D -/
inductive Stage where
  /-- There is no call. -/
  | idle
  /-- Read `nfgpu_next` for the test. -/
  | search (ret : SkBuff)
  /-- Read the entry `i` and compare it with 0. -/
  | test (ret : SkBuff) (i : BitVec 64)
  /-- Read `nfgpu_next` for the increment. -/
  | load (ret : SkBuff)
  /-- Store the increment of `i`. -/
  | store (ret : SkBuff) (i : BitVec 64)
  /-- Store 1, after the increment has left the table. -/
  | wrap (ret : SkBuff)
  /-- Read `nfgpu_next` for the store into the table. -/
  | slot (ret : SkBuff)
  /-- Store the native head in the entry `i`. -/
  | write (ret : SkBuff) (i : BitVec 64)
  /-- Read `nfgpu_next` for the new head; `i` is the entry the call has written. -/
  | head (ret : SkBuff) (i : BitVec 64)
  /-- The call has returned `skb`, which has not been released. -/
  | done (ret skb : SkBuff)

/-- The shared state, the calls, and a record of the table indexes used.
Kind: D -/
structure Race where
  /-- The driver's globals. -/
  drv : Globals
  /-- The calls. -/
  calls : ℕ → Stage
  /-- The indexes at which the calls have read or written `nfgpu_skbs`. -/
  used : List (BitVec 64)

/-- No calls yet.
Kind: D -/
def Race.start (drv : Globals) : Race := ⟨drv, fun _ => .idle, []⟩

/-- Call `c` makes its next step.
Source: `xt_TOGPU_main.c` 255–269
Kind: D -/
def runCall (s : Race) (c : ℕ) : Option Race :=
  match s.calls c with
  | .idle => none
  | .search ret => some { s with calls := Function.update s.calls c (.test ret s.drv.nfgpuNext) }
  | .test ret i =>
      let st : Stage := if s.drv.nfgpuSkbs i ≠ 0 then .load ret else .slot ret
      some { s with calls := Function.update s.calls c st, used := s.used ++ [i] }
  | .load ret => some { s with calls := Function.update s.calls c (.store ret s.drv.nfgpuNext) }
  | .store ret i =>
      -- the test is on the value that was stored, not on `nfgpu_next`
      let st : Stage := if i + 1 ≥ nfgpuMaxSkbs then .wrap ret else .search ret
      some { s with
        drv := { s.drv with nfgpuNext := i + 1 }, calls := Function.update s.calls c st }
  | .wrap ret =>
      some { s with
        drv := { s.drv with nfgpuNext := 1 }, calls := Function.update s.calls c (.search ret) }
  | .slot ret => some { s with calls := Function.update s.calls c (.write ret s.drv.nfgpuNext) }
  | .write ret i =>
      some {
        drv := { s.drv with nfgpuSkbs := Function.update s.drv.nfgpuSkbs i ret.head }
        calls := Function.update s.calls c (.head ret i)
        used := s.used ++ [i] }
  | .head ret _ =>
      let newhead := slotAddr s.drv.nfgpuKva s.drv.nfgpuNext
      some { s with calls := Function.update s.calls c (.done ret (moveTo newhead ret)) }
  | .done _ _ => none

/-- What can happen.
Kind: D -/
inductive RaceEvent where
  /-- Call `c` starts its search, the native allocator having returned `ret`. -/
  | call (c : ℕ) (ret : SkBuff)
  /-- Call `c` makes its next step. -/
  | run (c : ℕ)
  /-- The `sk_buff` that call `c` has returned is released. -/
  | release (c : ℕ)

/-- One event. A native buffer has a head.
Source: `xt_TOGPU_main.c` 245–269, 279–314
Kind: D -/
def raceStep (s : Race) : RaceEvent → Option Race
  | .call c ret =>
      match s.calls c with
      | .idle =>
          if ret.head ≠ 0 then some { s with calls := Function.update s.calls c (.search ret) }
          else none
      | _ => none
  | .run c => runCall s c
  | .release c =>
      match s.calls c with
      | .done _ skb =>
          some { s with
            drv := (skbReleaseDataTogpu s.drv skb).1, calls := Function.update s.calls c .idle }
      | _ => none

/-! ## A call that runs alone -/

section alone

variable {s : Race} {c : ℕ} {ret : SkBuff}

/-- A search that finds its entry in use goes on at the next one.
Source: `xt_TOGPU_main.c` 256–260
Kind: L -/
theorem exec_round (hst : s.calls c = .search ret) (hentry : s.drv.nfgpuSkbs s.drv.nfgpuNext ≠ 0) :
    ∃ n, exec raceStep s (List.replicate n (.run c)) =
      some { s with
        drv := { s.drv with nfgpuNext := advance s.drv.nfgpuNext }
        used := s.used ++ [s.drv.nfgpuNext] } := by
  have hself : Function.update s.calls c (.search ret) = s.calls := by
    rw [← hst, Function.update_eq_self]
  by_cases hwrap : s.drv.nfgpuNext + 1 ≥ nfgpuMaxSkbs
  · refine ⟨5, ?_⟩
    simp only [List.replicate, exec, raceStep, runCall, hst, hentry, hwrap, advance, hself,
      Function.update_self, Function.update_idem, Option.bind_some, ne_eq, not_false_eq_true,
      if_true]
  · refine ⟨4, ?_⟩
    simp only [List.replicate, exec, raceStep, runCall, hst, hentry, hwrap, advance, hself,
      Function.update_self, Function.update_idem, Option.bind_some, ne_eq, not_false_eq_true,
      if_true, if_false]

/-- A search that finds its entry free takes it.
Source: `xt_TOGPU_main.c` 262–269
Kind: L -/
theorem exec_take (hst : s.calls c = .search ret) (hentry : s.drv.nfgpuSkbs s.drv.nfgpuNext = 0) :
    ∃ used', exec raceStep s (List.replicate 5 (.run c)) =
      some ⟨{ s.drv with
          nfgpuSkbs := Function.update s.drv.nfgpuSkbs s.drv.nfgpuNext ret.head },
        Function.update s.calls c
          (.done ret (moveTo (slotAddr s.drv.nfgpuKva s.drv.nfgpuNext) ret)), used'⟩ := by
  refine ⟨s.used ++ [s.drv.nfgpuNext] ++ [s.drv.nfgpuNext], ?_⟩
  simp only [List.replicate, exec, raceStep, runCall, hst, hentry, Function.update_self,
    Function.update_idem, Option.bind_some, ne_eq, not_true_eq_false, if_false]

/-- The whole search, by the rounds of the loop.
Kind: L -/
theorem exec_search {fuel : ℕ} {i : BitVec 64} (hst : s.calls c = .search ret)
    (hfind : findSlot s.drv.nfgpuSkbs fuel s.drv.nfgpuNext = .ok i) :
    ∃ n used', exec raceStep s (List.replicate n (.run c)) =
      some ⟨{ s.drv with
          nfgpuSkbs := Function.update s.drv.nfgpuSkbs i ret.head, nfgpuNext := i },
        Function.update s.calls c (.done ret (moveTo (slotAddr s.drv.nfgpuKva i) ret)), used'⟩ := by
  induction fuel generalizing s with
  | zero => cases hfind
  | succ fuel ih =>
      rw [findSlot] at hfind
      split_ifs at hfind with hlt hentry
      · obtain ⟨n, hround⟩ := exec_round hst hentry
        obtain ⟨m, used', hrest⟩ := ih
          (s := { s with
            drv := { s.drv with nfgpuNext := advance s.drv.nfgpuNext }
            used := s.used ++ [s.drv.nfgpuNext] }) hst hfind
        refine ⟨n + m, used', ?_⟩
        rw [List.replicate_add, exec_append, hround]
        exact hrest
      · cases hfind
        obtain ⟨used', htake⟩ := exec_take hst (not_not.mp hentry)
        exact ⟨5, used', htake⟩

/-- **A call that runs alone is `__netdev_alloc_skb_togpu`**: when the function returns a buffer it
has moved, the steps of one call after another lead to the same globals and the same `sk_buff`.
Source: `xt_TOGPU_main.c` 235–277
Kind: P -/
theorem exec_alone {shinfo : Addr → SkbSharedInfo} {drv' : Globals} {skb : SkBuff}
    (hidle : s.calls c = .idle) (hret : ret.head ≠ 0) (hrunning : s.drv.nfgpuRunning = true)
    (hel : eligible shinfo ret)
    (halloc : netdevAllocSkbTogpu s.drv shinfo (some ret) = .ok (drv', some skb)) :
    ∃ n t, exec raceStep s (.call c ret :: List.replicate n (.run c)) = some t ∧
      t.drv = drv' ∧ t.calls c = .done ret skb := by
  rcases netdevAllocSkbTogpu_cases halloc with ⟨hno, -, -⟩ | ⟨-, -, i, hfind, rfl, hskb⟩
  · exact absurd ⟨hrunning, hel⟩ hno
  · cases hskb
    have hcall : raceStep s (.call c ret) =
        some { s with calls := Function.update s.calls c (.search ret) } := by
      simp only [raceStep, hidle]
      rw [if_pos hret]
    obtain ⟨n, used', hrun⟩ := exec_search
      (s := { s with calls := Function.update s.calls c (.search ret) })
      (Function.update_self ..) hfind
    exact ⟨n, _, exec_cons_eq_some.mpr ⟨_, hcall, hrun⟩, rfl, Function.update_self ..⟩

end alone

/-! ## What is asked of the calls -/

/-- An index of a slot: 0 is reserved for the GPU.
Source: `xt_TOGPU_main.c` 259
Kind: D -/
def InTable (i : BitVec 64) : Prop := 1 ≤ i ∧ i < nfgpuMaxSkbs

/-- Completed allocations have heads of their own, each with its native head in the slot its new
head points to, and every index used is that of a slot.
Kind: D -/
structure Separate (s : Race) : Prop where
  /-- No two completed allocations have the same head. -/
  heads : ∀ c d ret ret' skb skb', c ≠ d → s.calls c = .done ret skb → s.calls d = .done ret' skb' →
    skb.head ≠ skb'.head
  /-- The native head is stored at the slot of the new head. -/
  stored : ∀ c ret skb, s.calls c = .done ret skb →
    ∃ i, InTable i ∧ skb.head = slotAddr s.drv.nfgpuKva i ∧ s.drv.nfgpuSkbs i = ret.head
  /-- Every index used is that of a slot. -/
  used : ∀ i ∈ s.used, InTable i

/-- What a call must find for its next step. `nfgpu_next` is in range where it is read: no other
call is between its increment and its wrap. The entry the call writes is still free: no other call
has taken it since the test. `nfgpu_next` is where the call has written: no other call has moved it
since.
Kind: D -/
def Stage.Finds (drv : Globals) : Stage → Prop
  | .search _ | .load _ | .slot _ => drv.nfgpuNext < nfgpuMaxSkbs
  | .write _ i => drv.nfgpuSkbs i = 0
  | .head _ i => drv.nfgpuNext = i
  | .idle | .test _ _ | .store _ _ | .wrap _ | .done _ _ => True

instance (drv : Globals) : ∀ st : Stage, Decidable (st.Finds drv)
  | .search _ | .load _ | .slot _ => inferInstanceAs (Decidable (_ < _))
  | .write _ _ | .head _ _ => inferInstanceAs (Decidable (_ = _))
  | .idle | .test _ _ | .store _ _ | .wrap _ | .done _ _ => inferInstanceAs (Decidable True)

/-- A step of a call is undisturbed; calls may start and buffers be released at any time.
Kind: D -/
def Undisturbed (s : Race) : RaceEvent → Prop
  | .run c => (s.calls c).Finds s.drv
  | .call _ _ | .release _ => True

instance (s : Race) : ∀ e, Decidable (Undisturbed s e)
  | .run c => inferInstanceAs (Decidable ((s.calls c).Finds s.drv))
  | .call _ _ | .release _ => inferInstanceAs (Decidable True)

/-! ## The invariant -/

/-- The native buffer of a call.
Kind: D -/
def Stage.native : Stage → Option SkBuff
  | .idle => none
  | .search ret | .test ret _ | .load ret | .store ret _ | .wrap ret | .slot ret | .write ret _
  | .head ret _ | .done ret _ => some ret

/-- The index a call is about to use.
Kind: D -/
def Stage.register : Stage → Option (BitVec 64)
  | .test _ i | .store _ i | .write _ i => some i
  | _ => none

/-- The slot a call has written and not given back.
Kind: D -/
def Stage.taken (kva : Addr) : Stage → Option (BitVec 64)
  | .head _ i => some i
  | .done _ skb => some (slotIndex kva skb.head)
  | _ => none

/-- A call is where it should be.
Kind: D -/
structure StageOk (drv : Globals) (st : Stage) : Prop where
  /-- Its native buffer has a head. -/
  native : ∀ ret, st.native = some ret → ret.head ≠ 0
  /-- The index it is about to use is that of a slot. -/
  register : ∀ i, st.register = some i → InTable i
  /-- The slot it has taken holds its native head. -/
  taken : ∀ i, st.taken drv.nfgpuKva = some i →
    InTable i ∧ ∃ ret, st.native = some ret ∧ drv.nfgpuSkbs i = ret.head
  /-- The head it has returned is that of the slot. -/
  returned : ∀ ret skb, st = .done ret skb →
    skb.head = slotAddr drv.nfgpuKva (slotIndex drv.nfgpuKva skb.head)

/-- All calls are where they should be, and no two have taken the same slot.
Kind: D -/
structure RaceInv (s : Race) : Prop where
  base : IsPoolBase s.drv.nfgpuKva
  next_pos : 1 ≤ s.drv.nfgpuNext
  used : ∀ i ∈ s.used, InTable i
  stage : ∀ c, StageOk s.drv (s.calls c)
  apart : ∀ c d i, c ≠ d → (s.calls c).taken s.drv.nfgpuKva = some i →
    (s.calls d).taken s.drv.nfgpuKva ≠ some i

section invariant

variable {s s' : Race} {c : ℕ} {st : Stage} {drv drv' : Globals} {used' : List (BitVec 64)}

/-- A call only looks at the base and at the slot it has taken.
Kind: L -/
theorem StageOk.congr (h : StageOk drv st) (hkva : drv'.nfgpuKva = drv.nfgpuKva)
    (hskbs : ∀ i, st.taken drv.nfgpuKva = some i → drv'.nfgpuSkbs i = drv.nfgpuSkbs i) :
    StageOk drv' st where
  native := h.native
  register := h.register
  taken := by
    intro i hi
    rw [hkva] at hi
    rw [hskbs i hi]
    exact h.taken i hi
  returned := by
    rw [hkva]
    exact h.returned

/-- A call that has taken no slot.
Kind: L -/
theorem stageOk_of_not_taken (hnative : ∀ ret, st.native = some ret → ret.head ≠ 0)
    (hregister : ∀ i, st.register = some i → InTable i) (htaken : ∀ kva, st.taken kva = none) :
    StageOk drv st where
  native := hnative
  register := hregister
  taken := by
    intro i hi
    rw [htaken] at hi
    cases hi
  returned := by
    rintro ret skb rfl
    exact absurd (htaken 0) nofun

/-- One call moves on, and the slots of the others stay as they are.
Kind: L -/
theorem RaceInv.update (h : RaceInv s) (hkva : drv'.nfgpuKva = s.drv.nfgpuKva)
    (hnext : 1 ≤ drv'.nfgpuNext) (hused : ∀ i ∈ used', InTable i)
    (hskbs : ∀ d i, d ≠ c → (s.calls d).taken s.drv.nfgpuKva = some i →
      drv'.nfgpuSkbs i = s.drv.nfgpuSkbs i)
    (hst : StageOk drv' st)
    (hapart : ∀ d i, d ≠ c → (s.calls d).taken s.drv.nfgpuKva = some i →
      st.taken s.drv.nfgpuKva ≠ some i) :
    RaceInv ⟨drv', Function.update s.calls c st, used'⟩ where
  base := by
    show IsPoolBase drv'.nfgpuKva
    rw [hkva]
    exact h.base
  next_pos := hnext
  used := hused
  stage := by
    intro d
    show StageOk drv' (Function.update s.calls c st d)
    by_cases hd : d = c
    · subst hd
      rw [Function.update_self]
      exact hst
    · rw [Function.update_of_ne hd]
      exact (h.stage d).congr hkva fun i hi => hskbs d i hd hi
  apart := by
    intro d e i hde
    show (Function.update s.calls c st d).taken drv'.nfgpuKva = some i →
      (Function.update s.calls c st e).taken drv'.nfgpuKva ≠ some i
    rw [hkva]
    by_cases hd : d = c
    · subst hd
      rw [Function.update_self, Function.update_of_ne (Ne.symm hde)]
      exact fun hi he => hapart e i (Ne.symm hde) he hi
    · rw [Function.update_of_ne hd]
      by_cases he : e = c
      · subst he
        rw [Function.update_self]
        exact hapart d i hd
      · rw [Function.update_of_ne he]
        exact h.apart d e i hde

/-- A call that has taken no slot moves on, and the table stays as it is.
Kind: L -/
theorem RaceInv.update_of_not_taken (h : RaceInv s) (hkva : drv'.nfgpuKva = s.drv.nfgpuKva)
    (hskbs : drv'.nfgpuSkbs = s.drv.nfgpuSkbs) (hnext : 1 ≤ drv'.nfgpuNext)
    (hused : ∀ i ∈ used', InTable i) (hnative : st.native = (s.calls c).native)
    (hregister : ∀ i, st.register = some i → InTable i) (htaken : ∀ kva, st.taken kva = none) :
    RaceInv ⟨drv', Function.update s.calls c st, used'⟩ := by
  refine h.update hkva hnext hused (fun d i _ _ => by rw [hskbs])
    (stageOk_of_not_taken (hnative ▸ (h.stage c).native) hregister htaken) fun d i _ _ => ?_
  rw [htaken]
  exact nofun

/-- The indexes used, with one more.
Kind: L -/
theorem RaceInv.used_concat (h : RaceInv s) {i : BitVec 64} (hi : InTable i) :
    ∀ j ∈ s.used ++ [i], InTable j := by
  intro j hj
  rcases List.mem_append.mp hj with hold | hnew
  · exact h.used j hold
  · rw [List.mem_singleton.mp hnew]
    exact hi

/-- What a call reads from `nfgpu_next` in range is the index of a slot.
Kind: L -/
theorem RaceInv.next_inTable (h : RaceInv s) (hlt : s.drv.nfgpuNext < nfgpuMaxSkbs) :
    ∀ i, some s.drv.nfgpuNext = some i → InTable i := by
  intro i hi
  cases hi
  exact ⟨h.next_pos, hlt⟩

/-- The successor of a slot's index is not 0.
Kind: L -/
theorem InTable.succ_pos {i : BitVec 64} (hi : InTable i) : 1 ≤ i + 1 := by
  have hlt := hi.2
  rw [BitVec.lt_def, nfgpuMaxSkbs_toNat] at hlt
  bv_omega

/-- Writing a free entry takes it from nobody.
Source: `xt_TOGPU_main.c` 264
Kind: L -/
theorem RaceInv.write (h : RaceInv s) {ret : SkBuff} {i : BitVec 64}
    (hst : s.calls c = .write ret i) (hfree : s.drv.nfgpuSkbs i = 0) :
    RaceInv ⟨{ s.drv with nfgpuSkbs := Function.update s.drv.nfgpuSkbs i ret.head },
      Function.update s.calls c (.head ret i), s.used ++ [i]⟩ := by
  have hstage := h.stage c
  rw [hst] at hstage
  have hi : InTable i := hstage.register i rfl
  have hother : ∀ d j, d ≠ c → (s.calls d).taken s.drv.nfgpuKva = some j → j ≠ i := by
    rintro d j - hj rfl
    obtain ⟨-, ret', hret', hentry⟩ := (h.stage d).taken j hj
    exact (h.stage d).native ret' hret' (hentry.symm.trans hfree)
  refine h.update rfl h.next_pos (h.used_concat hi) (fun d j hd hj => ?_) ?_ fun d j hd hj => ?_
  · exact Function.update_of_ne (hother d j hd hj) _ _
  · refine ⟨hstage.native, nofun, fun j hj => ?_, nofun⟩
    cases hj
    exact ⟨hi, ret, rfl, Function.update_self ..⟩
  · intro heq
    cases heq
    exact hother d _ hd hj rfl

/-- Forming the head from the index of the written entry keeps the slot.
Source: `xt_TOGPU_main.c` 265–269
Kind: L -/
theorem RaceInv.head (h : RaceInv s) {ret : SkBuff} (hst : s.calls c = .head ret s.drv.nfgpuNext) :
    RaceInv ⟨s.drv, Function.update s.calls c
      (.done ret (moveTo (slotAddr s.drv.nfgpuKva s.drv.nfgpuNext) ret)), s.used⟩ := by
  have hstage := h.stage c
  rw [hst] at hstage
  obtain ⟨hi, ret', hret', hentry⟩ := hstage.taken _ rfl
  cases hret'
  have hidx : slotIndex s.drv.nfgpuKva (slotAddr s.drv.nfgpuKva s.drv.nfgpuNext) =
      s.drv.nfgpuNext := slotIndex_slotAddr h.base hi.2
  refine h.update rfl h.next_pos h.used (fun d i _ _ => rfl) ?_ fun d i hd hi' heq => ?_
  · refine ⟨hstage.native, nofun, fun i hi' => ?_, ?_⟩
    · cases hi'
      show InTable (slotIndex _ (slotAddr _ _)) ∧ _
      rw [hidx]
      exact ⟨hi, ret, rfl, (congrArg s.drv.nfgpuSkbs hidx).trans hentry⟩
    · rintro ret' skb heq
      cases heq
      exact congrArg (slotAddr _) hidx.symm
  · -- the slot is the one the call had taken before
    refine h.apart d c i hd hi' ?_
    rw [hst]
    exact (congrArg some hidx.symm).trans heq

/-- **One step of a call** keeps the invariant, if it is undisturbed.
Source: `xt_TOGPU_main.c` 255–269
Kind: L -/
theorem raceInv_runCall (h : RaceInv s) (hok : Undisturbed s (.run c))
    (hrun : runCall s c = some s') : RaceInv s' := by
  have hstage := h.stage c
  cases hst : s.calls c with
  | idle =>
      rw [runCall, hst] at hrun
      cases hrun
  | search ret =>
      simp only [runCall, Undisturbed, Stage.Finds, hst, Option.some.injEq] at hrun hok
      subst hrun
      exact h.update_of_not_taken rfl rfl h.next_pos h.used (by rw [hst]; rfl) (h.next_inTable hok)
        fun _ => rfl
  | test ret i =>
      rw [hst] at hstage
      simp only [runCall, hst, Option.some.injEq] at hrun
      subst hrun
      split_ifs with hentry
      · exact h.update_of_not_taken rfl rfl h.next_pos (h.used_concat (hstage.register i rfl))
          (by rw [hst]; rfl) nofun fun _ => rfl
      · exact h.update_of_not_taken rfl rfl h.next_pos (h.used_concat (hstage.register i rfl))
          (by rw [hst]; rfl) nofun fun _ => rfl
  | load ret =>
      simp only [runCall, Undisturbed, Stage.Finds, hst, Option.some.injEq] at hrun hok
      subst hrun
      exact h.update_of_not_taken rfl rfl h.next_pos h.used (by rw [hst]; rfl) (h.next_inTable hok)
        fun _ => rfl
  | store ret i =>
      rw [hst] at hstage
      have hpos := (hstage.register i rfl).succ_pos
      simp only [runCall, hst, Option.some.injEq] at hrun
      subst hrun
      split_ifs with hend
      · exact h.update_of_not_taken rfl rfl hpos h.used (by rw [hst]; rfl) nofun fun _ => rfl
      · exact h.update_of_not_taken rfl rfl hpos h.used (by rw [hst]; rfl) nofun fun _ => rfl
  | wrap ret =>
      simp only [runCall, hst, Option.some.injEq] at hrun
      subst hrun
      exact h.update_of_not_taken rfl rfl (BitVec.le_refl 1) h.used (by rw [hst]; rfl) nofun
        fun _ => rfl
  | slot ret =>
      simp only [runCall, Undisturbed, Stage.Finds, hst, Option.some.injEq] at hrun hok
      subst hrun
      exact h.update_of_not_taken rfl rfl h.next_pos h.used (by rw [hst]; rfl) (h.next_inTable hok)
        fun _ => rfl
  | write ret i =>
      simp only [runCall, Undisturbed, Stage.Finds, hst, Option.some.injEq] at hrun hok
      subst hrun
      exact h.write hst hok
  | head ret i =>
      simp only [runCall, Undisturbed, Stage.Finds, hst, Option.some.injEq] at hrun hok
      subst hrun hok
      exact h.head hst
  | done ret skb =>
      rw [runCall, hst] at hrun
      cases hrun

/-- A release frees the slot of its call and no other.
Source: `xt_TOGPU_main.c` 279–314
Kind: L -/
theorem RaceInv.release (h : RaceInv s) {ret skb : SkBuff} (hst : s.calls c = .done ret skb) :
    RaceInv ⟨(skbReleaseDataTogpu s.drv skb).1, Function.update s.calls c .idle, s.used⟩ := by
  have hidle : ∀ drv, StageOk drv .idle := fun _ => stageOk_of_not_taken nofun nofun fun _ => rfl
  rcases skbReleaseDataTogpu_cases s.drv skb with hrel | ⟨-, -, -, hrel⟩
  · rw [hrel]
    exact h.update rfl h.next_pos h.used (fun _ _ _ _ => rfl) (hidle _) fun _ _ _ _ => nofun
  · rw [hrel]
    refine h.update rfl h.next_pos h.used (fun d i hd hi => Function.update_of_ne ?_ _ _) (hidle _)
      fun _ _ _ _ => nofun
    rintro rfl
    refine h.apart d c _ hd hi ?_
    rw [hst]
    rfl

/-- **One event** keeps the invariant, if it is undisturbed.
Kind: L -/
theorem raceInv_step {e : RaceEvent} (h : RaceInv s) (hok : Undisturbed s e)
    (hstep : raceStep s e = some s') : RaceInv s' := by
  cases e with
  | call c ret =>
      simp only [raceStep] at hstep
      split at hstep
      · next hst =>
          split_ifs at hstep with hret
          cases hstep
          refine h.update rfl h.next_pos h.used (fun _ _ _ _ => rfl)
            (stageOk_of_not_taken (fun ret' h' => ?_) nofun fun _ => rfl) fun _ _ _ _ => nofun
          cases h'
          exact hret
      · cases hstep
  | run c => exact raceInv_runCall h hok hstep
  | release c =>
      simp only [raceStep] at hstep
      split at hstep
      · next ret skb hst =>
          cases hstep
          exact h.release hst
      · cases hstep

/-- The invariant at the start.
Kind: L -/
theorem raceInv_start (hbase : IsPoolBase drv.nfgpuKva) (hpos : 1 ≤ drv.nfgpuNext) :
    RaceInv (Race.start drv) where
  base := hbase
  next_pos := hpos
  used := nofun
  stage := fun _ => stageOk_of_not_taken nofun nofun fun _ => rfl
  apart := fun _ _ _ _ => nofun

/-- The invariant gives what is asked.
Kind: L -/
theorem RaceInv.separate (h : RaceInv s) : Separate s where
  heads := by
    intro c d ret ret' skb skb' hcd hc hd heq
    refine h.apart c d (slotIndex s.drv.nfgpuKva skb.head) hcd (by rw [hc]; rfl) ?_
    rw [hd, heq]
    rfl
  stored := by
    intro c ret skb hc
    have hstage := h.stage c
    rw [hc] at hstage
    obtain ⟨hi, ret', hret', hentry⟩ := hstage.taken _ rfl
    cases hret'
    exact ⟨_, hi, hstage.returned ret skb rfl, hentry⟩
  used := h.used

end invariant

/-- **In every run of undisturbed steps the allocations are separate**, in every state the run
passes through. For every table, every position of `nfgpu_next` in it and every number of calls,
with their steps and the releases in any order.
Source: `xt_TOGPU_main.c` 69–76, 255–269
Kind: P
Fidelity: exact
Hyps: (a) the base is one that `vmap` returns; (b) `nfgpu_next` is not at the reserved entry at the
start; (c) every step is `Undisturbed` -/
theorem separate_of_undisturbed {drv : Globals} {es : List RaceEvent}
    (hbase : IsPoolBase drv.nfgpuKva) (hpos : 1 ≤ drv.nfgpuNext)
    (hok : Along raceStep Undisturbed (Race.start drv) es) :
    ∀ pre, pre <+: es → ∀ t, exec raceStep (Race.start drv) pre = some t → Separate t := by
  rintro pre ⟨rest, rfl⟩ t hrun
  exact (exec_invariant (fun _ _ _ h hok hstep => raceInv_step h hok hstep)
    (raceInv_start hbase hpos) hok.append_left hrun).separate

/-- A running pool at the start of the `vmalloc` area, with no slot in use.
Kind: D -/
def racePool : Globals :=
  { nfgpuInternalInit with nfgpuRunning := true, nfgpuKva := 0xffffc90000000000 }

/-- The native buffer of call `c`: 1728 bytes in a page of its own.
Kind: D -/
def raceBuffer (c : ℕ) : SkBuff :=
  let head : Addr := 0xffff880000000000 + BitVec.ofNat 64 (c * 4096)
  ⟨head, head + 64, head + 64, head + 1728, 0⟩

/-- Call 1 reads `nfgpu_next` before call 0 has taken slot 1, and looks at the entry after it has.
Kind: D -/
def overlapping : List RaceEvent :=
  [.call 0 (raceBuffer 0), .call 1 (raceBuffer 1), .run 0, .run 1, .run 0, .run 0, .run 0, .run 1,
    .run 0] ++ List.replicate 7 (.run 1)

/-- In that run both calls complete, each with a slot of its own.
Kind: C -/
theorem separate_overlapping :
    ∃ t ret ret' skb skb', exec raceStep (Race.start racePool) overlapping = some t ∧
      t.calls 0 = .done ret skb ∧ t.calls 1 = .done ret' skb' ∧ skb.head ≠ skb'.head ∧
      Separate t := by
  have hbase : IsPoolBase racePool.nfgpuKva := ⟨by decide, by decide, by decide⟩
  have hok : Along raceStep Undisturbed (Race.start racePool) overlapping := by decide
  refine ⟨_, _, _, _, _, rfl, rfl, rfl, by decide, ?_⟩
  exact separate_of_undisturbed hbase (by decide) hok _ List.prefix_rfl _ rfl

/-- Two calls that look at slot 1 before either has written it: both take it. Both `sk_buff`s have
the same head, and the native head of the first is lost.
Kind: C -/
theorem two_calls_one_slot :
    1 ≤ racePool.nfgpuNext ∧ racePool.nfgpuNext < nfgpuMaxSkbs ∧
      ∃ es t ret ret' skb skb', exec raceStep (Race.start racePool) es = some t ∧
        t.calls 0 = .done ret skb ∧ t.calls 1 = .done ret' skb' ∧ skb.head = skb'.head ∧
        ret.head ≠ ret'.head ∧ t.drv.nfgpuSkbs 1 = ret'.head ∧ ¬Separate t := by
  refine ⟨by decide, by decide, [.call 0 (raceBuffer 0), .call 1 (raceBuffer 1), .run 0, .run 1,
    .run 0, .run 1, .run 0, .run 1, .run 0, .run 1, .run 0, .run 1], _, _, _, _, _, rfl, rfl, rfl,
    rfl, by decide, rfl, fun h => ?_⟩
  exact h.heads 0 1 _ _ _ _ (by decide) rfl rfl rfl

end Togpu.Driver
