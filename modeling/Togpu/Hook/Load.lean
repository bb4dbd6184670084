import Togpu.Hook.Complete

/-!
# Loading and unloading the module

`nfgpu_internal_init` runs through its sub-steps and looks at the results of two of them: a failed
`class_create` ends it at once, and the result of `xt_register_target` is its own. Everything
between, the two hooks included, goes ahead whatever the others return. `nfgpu_exit` stops the
thread and unregisters the target.

* `Steps` — what the kernel routines it calls return.
* `nfgpuInit`, `nfgpuExit` — the two functions, over the kernel of `symbol_hook`.
* `NoHookLeft` — once the module is not loaded, both functions have their bytes back.
* **When it holds** (`noHookLeft_iff`): exactly when `class_create` failed or `symbol_hook` turned
  both functions down. No path calls `symbol_restore`.
-/

namespace Togpu.Hook

open Togpu.Driver Togpu.Lib Togpu.X86

/-! ## The sub-steps -/

/-- A pointer from a routine that returns error pointers: `none` is a good one, `some e` the pointer
for error number `e + 1`.
Kind: D -/
abbrev ErrPtr := Option (Fin 4095)

/-- `PTR_ERR`.
Kind: D -/
def ptrErr (e : Fin 4095) : ℤ := -((e.val : ℤ) + 1)

/-- What the routines called by `nfgpu_internal_init` return.
Source: `xt_TOGPU_main.c` 560, 569, 582, 589, 611–617, 625
Kind: D -/
structure Steps where
  /-- `class_create`. -/
  classCreate : ErrPtr
  /-- `alloc_chrdev_region`. -/
  allocChrdevRegion : ℤ
  /-- `cdev_add`. -/
  cdevAdd : ℤ
  /-- `device_create`. -/
  deviceCreate : ErrPtr
  /-- `module_alloc` for the copy of `__netdev_alloc_skb`; `0` is `NULL`. -/
  netdevAllocBuf : Addr
  /-- `module_alloc` for the copy of `skb_release_data`; `0` is `NULL`. -/
  skbReleaseBuf : Addr
  /-- `kthread_create`. -/
  kthreadCreate : ErrPtr
  /-- `xt_register_target`. -/
  xtRegisterTarget : ℤ

/-- The module's static data that loading writes, what it has registered with the kernel, and the
kernel itself.
Source: `xt_TOGPU_main.c` 61–88, `xt_TOGPU_hook.c` 44–45
Kind: D -/
structure Module where
  /-- The kernel's text and buffers. -/
  kernel : Kernel
  /-- The globals of the driver. -/
  globals : Globals
  /-- `sym_module_alloc`. -/
  symModuleAlloc : KernSym
  /-- `sym_module_free`. -/
  symModuleFree : KernSym
  /-- `nfgpu_sym_netdev_alloc`. -/
  nfgpuSymNetdevAlloc : KernSym
  /-- `nfgpu_sym_skb_release_data`. -/
  nfgpuSymSkbReleaseData : KernSym
  /-- The device class exists. -/
  hasClass : Bool
  /-- The device number is taken. -/
  hasRegion : Bool
  /-- The character device is registered. -/
  hasCdev : Bool
  /-- The device node exists. -/
  hasDevice : Bool
  /-- The support thread runs. -/
  hasThread : Bool
  /-- The target is registered. -/
  hasTarget : Bool

/-- The module when its memory has just been set up.
Kind: D -/
def Module.fresh (k : Kernel) : Module where
  kernel := k
  globals := { nfgpuInternalInit with nfgpuNext := 0 }
  symModuleAlloc := freshSym
  symModuleFree := freshSym
  nfgpuSymNetdevAlloc := freshSym
  nfgpuSymSkbReleaseData := freshSym
  hasClass := false
  hasRegion := false
  hasCdev := false
  hasDevice := false
  hasThread := false
  hasTarget := false

/-! ## The operations -/

/-- The device number and the device. The result is that of the last step that failed; no one reads
it.
Source: `xt_TOGPU_main.c` 568–596
Kind: D -/
def createDevice (st : Steps) (m : Module) : ℤ × Module :=
  if st.allocChrdevRegion < 0 then (st.allocChrdevRegion, m)
  else
    let m := { m with
      hasRegion := true
      hasCdev := decide (st.cdevAdd = 0)
      hasDevice := st.deviceCreate.isNone }
    match st.deviceCreate with
    | some e => (ptrErr e, m)
    | none => (st.cdevAdd, m)

/-- `hook_init`.
Source: `xt_TOGPU_hook.c` 315–326
Kind: D -/
def hookInit (symtab : SymTab) (m : Module) : ℤ × Module :=
  let r := findSymbolAddress symtab m.symModuleAlloc "module_alloc"
  let m := { m with symModuleAlloc := r.2 }
  if r.1 < 0 then (r.1, m)
  else
    let r := findSymbolAddress symtab m.symModuleFree "module_free"
    (r.1, { m with symModuleFree := r.2 })

/-- `symbol_hook` gets as far as `malloc`.
Source: `xt_TOGPU_hook.c` 203–213
Kind: D -/
def CallsMalloc (symtab : SymTab) (symbolName : String) (sym : KernSym) (k : Kernel) : Prop :=
  0 ≤ (findSymbolAddress symtab sym symbolName).1 ∧
    k.mem (findSymbolAddress symtab sym symbolName).2.addr ≠ opJmpRel32

instance (symtab : SymTab) (symbolName : String) (sym : KernSym) (k : Kernel) :
    Decidable (CallsMalloc symtab symbolName sym k) :=
  inferInstanceAs (Decidable (_ ∧ _))

/-- `symbol_hook` with `malloc` and `malloc_free` calling what `hook_init` has found. Nobody checks
that it has found anything: then the call goes to address zero and does not return.
Source: `xt_TOGPU_hook.c` 193–287, 328–339
Kind: D -/
def Module.symbolHook (m : Module) (symtab : SymTab) (buf : Addr) (symbolName : String)
    (code : Addr) (sym : KernSym) : Option (ℤ × KernSym × Kernel) :=
  if CallsMalloc symtab symbolName sym m.kernel ∧ m.symModuleAlloc.run = 0 then none
  else
    (Hook.symbolHook symtab buf symbolName code sym m.kernel).bind fun r =>
      -- the error paths past `malloc` give the buffer back
      if CallsMalloc symtab symbolName sym m.kernel ∧ buf ≠ 0 ∧ r.1 < 0 ∧
          m.symModuleFree.run = 0 then none
      else some r

/-- `nfgpu_init`, that is `nfgpu_internal_init`; `netdevCode` and `releaseCode` are the two hook
functions. `none` when it does not return: a call of address zero, or `wake_up_process` on an error
pointer, which is not `NULL`.
Source: `xt_TOGPU_main.c` 553–631
Kind: D -/
def nfgpuInit (symtab : SymTab) (netdevCode releaseCode : Addr) (st : Steps) (k : Kernel) :
    Option (ℤ × Module) :=
  match st.classCreate with
  | some e => some (ptrErr e, Module.fresh k)
  | none =>
      let m := (createDevice st { Module.fresh k with hasClass := true }).2
      let m := (hookInit symtab { m with globals := nfgpuInternalInit }).2
      (m.symbolHook symtab st.netdevAllocBuf "__netdev_alloc_skb" netdevCode
          m.nfgpuSymNetdevAlloc).bind fun r =>
        let m := { m with nfgpuSymNetdevAlloc := r.2.1, kernel := r.2.2 }
        (m.symbolHook symtab st.skbReleaseBuf "skb_release_data" releaseCode
            m.nfgpuSymSkbReleaseData).bind fun r =>
          let m := { m with nfgpuSymSkbReleaseData := r.2.1, kernel := r.2.2 }
          match st.kthreadCreate with
          | some _ => none
          | none =>
              some (st.xtRegisterTarget,
                { m with hasThread := true, hasTarget := decide (st.xtRegisterTarget = 0) })

/-- `nfgpu_exit`.
Source: `xt_TOGPU_main.c` 633–642
Kind: D -/
def nfgpuExit (m : Module) : Module := { m with hasThread := false, hasTarget := false }

/-! ## Loading, step by step -/

section Init

variable {symtab : SymTab} {netdevCode releaseCode : Addr} {st : Steps} {k : Kernel} {r : ℤ}
  {m : Module}

/-- Setting up the device touches neither the kernel nor the symbol records.
Kind: L -/
theorem createDevice_eq (st : Steps) (m : Module) :
    ∃ region cdev device, (createDevice st m).2 =
      { m with hasRegion := region, hasCdev := cdev, hasDevice := device } := by
  unfold createDevice
  split_ifs
  · exact ⟨_, _, _, rfl⟩
  · dsimp only
    split
    · exact ⟨_, _, _, rfl⟩
    · exact ⟨_, _, _, rfl⟩

/-- The lookups of `hook_init` touch their own records only.
Kind: L -/
theorem hookInit_eq (symtab : SymTab) (m : Module) :
    ∃ alloc free, (hookInit symtab m).2 =
      { m with symModuleAlloc := alloc, symModuleFree := free } := by
  unfold hookInit
  dsimp only
  split_ifs
  · exact ⟨_, _, rfl⟩
  · exact ⟨_, _, rfl⟩

/-- A hook that returned did what `symbol_hook` does.
Kind: L -/
theorem Module.symbolHook_some {buf : Addr} {symbolName : String} {code : Addr} {sym : KernSym}
    {res : ℤ × KernSym × Kernel} (h : m.symbolHook symtab buf symbolName code sym = some res) :
    Hook.symbolHook symtab buf symbolName code sym m.kernel = some res := by
  unfold Module.symbolHook at h
  split_ifs at h
  obtain ⟨res', hrun, hres⟩ := Option.bind_eq_some_iff.1 h
  split_ifs at hres
  rw [hrun, hres]

/-- **How loading goes**: `class_create` fails and nothing has happened, or both hooks are tried one
after the other.
Kind: L -/
theorem nfgpuInit_cases (h : nfgpuInit symtab netdevCode releaseCode st k = some (r, m)) :
    (st.classCreate.isSome ∧ m.kernel = k) ∨
      (st.classCreate = none ∧ ∃ ret₁ sym₁ k₁ ret₂ sym₂,
        symbolHook symtab st.netdevAllocBuf "__netdev_alloc_skb" netdevCode freshSym k =
          some (ret₁, sym₁, k₁) ∧
        symbolHook symtab st.skbReleaseBuf "skb_release_data" releaseCode freshSym k₁ =
          some (ret₂, sym₂, m.kernel)) := by
  unfold nfgpuInit at h
  split at h
  · next e hclass =>
      rw [Option.some.injEq, Prod.mk.injEq] at h
      rw [hclass, ← h.2]
      exact .inl ⟨rfl, rfl⟩
  · next hclass =>
      obtain ⟨region, cdev, device, hdevice⟩ :=
        createDevice_eq st { Module.fresh k with hasClass := true }
      rw [hdevice] at h
      dsimp only at h
      generalize hinit : hookInit symtab _ = init at h
      obtain ⟨alloc, free, hm⟩ := hookInit_eq symtab _
      rw [hinit] at hm
      rw [hm] at h
      obtain ⟨⟨ret₁, sym₁, k₁⟩, hnetdev, h⟩ := Option.bind_eq_some_iff.1 h
      obtain ⟨⟨ret₂, sym₂, k₂⟩, hrelease, h⟩ := Option.bind_eq_some_iff.1 h
      dsimp only at h
      split at h
      · exact absurd h nofun
      · rw [Option.some.injEq, Prod.mk.injEq] at h
        have hkernel : m.kernel = k₂ := by rw [← h.2]
        rw [hkernel]
        exact .inr ⟨hclass, ret₁, sym₁, k₁, ret₂, sym₂, Module.symbolHook_some hnetdev,
          Module.symbolHook_some hrelease⟩

end Init

/-! ## The two functions in memory -/

/-- A stretch of text.
Kind: D -/
structure Text where
  /-- Its first byte. -/
  addr : Addr
  /-- Its length. -/
  size : ℕ

/-- The address is one of the text.
Kind: D -/
def Text.Has (f : Text) (x : Addr) : Prop := (x - f.addr).toNat < f.size

/-- The lookup of a name succeeds.
Kind: D -/
def Found (symtab : SymTab) (symbolName : String) : Prop :=
  (findSymbolAddress symtab freshSym symbolName).1 = 0

/-- How the function `f` and the buffer for its copy lie: the lookup gives the function, and the
buffer is apart from the function, the text that follows it, and the function `other`.
Kind: D -/
structure HookLayout (symtab : SymTab) (buf : Addr) (symbolName : String)
    (mem : Addr → BitVec 8) (f other : Text) : Prop where
  /-- The lookup gives the function. -/
  found : Found symtab symbolName →
    (lookup symtab buf symbolName freshSym).addr = f.addr ∧
      (lookup symtab buf symbolName freshSym).size.toNat = f.size
  /-- The buffer is apart from the function and the text that follows. -/
  placed : Found symtab symbolName → buf ≠ 0 →
    ∃ tail, Placed mem (lookup symtab buf symbolName freshSym) tail
  /-- The buffer is apart from the other function. -/
  apart : Found symtab symbolName → buf ≠ 0 → ∀ x, other.Has x →
    (lookup symtab buf symbolName freshSym).reach ≤ (x - buf).toNat

/-- How `__netdev_alloc_skb`, here `f`, `skb_release_data`, here `g`, and the buffers for their
copies lie in memory.
Kind: D -/
structure ImageLayout (symtab : SymTab) (st : Steps) (mem : Addr → BitVec 8) (f g : Text) : Prop
    where
  /-- The functions do not overlap. -/
  disjoint : ∀ x, f.Has x → ¬ g.Has x
  /-- The first function and its buffer. -/
  netdevAlloc : HookLayout symtab st.netdevAllocBuf "__netdev_alloc_skb" mem f g
  /-- The second function and its buffer. -/
  skbRelease : HookLayout symtab st.skbReleaseBuf "skb_release_data" mem g f
  /-- The first buffer is apart from the text that follows the second function as well. -/
  behind : Found symtab "__netdev_alloc_skb" → st.netdevAllocBuf ≠ 0 →
    Found symtab "skb_release_data" → st.skbReleaseBuf ≠ 0 →
    ∃ tail, Placed mem (lookup symtab st.skbReleaseBuf "skb_release_data" freshSym) tail ∧
      ∀ i, i < tail + 32 →
        (lookup symtab st.netdevAllocBuf "__netdev_alloc_skb" freshSym).reach ≤
          ((lookup symtab st.skbReleaseBuf "skb_release_data" freshSym).addr + BitVec.ofNat 64 i -
            st.netdevAllocBuf).toNat

section Hook

variable {symtab : SymTab} {buf : Addr} {symbolName : String} {code : Addr} {f other : Text}
  {mem : Addr → BitVec 8} {k k' : Kernel} {ret : ℤ} {sym' : KernSym}

/-- Hooking one function leaves the other alone.
Kind: L -/
theorem HookLayout.other_eq (h : HookLayout symtab buf symbolName mem f other)
    (hdisjoint : ∀ x, f.Has x → ¬ other.Has x)
    (hrun : symbolHook symtab buf symbolName code freshSym k = some (ret, sym', k')) {x : Addr}
    (hx : other.Has x) : k'.mem x = k.mem x := by
  refine symbolHook_frame hrun (fun hfound hbuf => ?_) fun hfound hbuf => ⟨?_, ?_⟩
  · obtain ⟨tail, hp⟩ := h.placed hfound hbuf
    exact hp.noWrap
  · obtain ⟨haddr, hsize⟩ := h.found hfound
    have hout : ¬ f.Has x := fun hf => hdisjoint x hf hx
    rw [haddr, hsize]
    exact Nat.le_of_not_lt hout
  · exact h.apart hfound hbuf x hx

/-- A function that is turned down keeps its bytes.
Kind: L -/
theorem HookLayout.own_eq (h : HookLayout symtab buf symbolName k.mem f other)
    (hrefused : Refused symtab buf symbolName freshSym k)
    (hrun : symbolHook symtab buf symbolName code freshSym k = some (ret, sym', k')) {x : Addr}
    (hx : f.Has x) : k'.mem x = k.mem x := by
  refine symbolHook_frame_of_refused h.placed hrefused hrun fun hfound hbuf => ?_
  obtain ⟨tail, hp⟩ := h.placed hfound hbuf
  obtain ⟨haddr, hsize⟩ := h.found hfound
  have htail := hp.size_le
  unfold Text.Has at hx
  have happ := hp.apart (x - f.addr).toNat (by omega)
  rw [haddr, BitVec.ofNat_toNat, BitVec.setWidth_eq, add_sub_cancel] at happ
  exact happ

/-- A function that is hooked does not keep its first byte.
Kind: L -/
theorem HookLayout.first_ne (h : HookLayout symtab buf symbolName k.mem f other)
    (hok : ¬ Refused symtab buf symbolName freshSym k)
    (hrun : symbolHook symtab buf symbolName code freshSym k = some (ret, sym', k')) :
    f.Has f.addr ∧ k'.mem f.addr ≠ k.mem f.addr := by
  have hfound : Found symtab symbolName := by
    rcases findSymbolAddress_ret symtab freshSym symbolName with hneg | hzero
    · exact absurd (.inl hneg) hok
    · exact hzero
  obtain ⟨haddr, hsize⟩ := h.found hfound
  have hlong : opJmpSize ≤ f.size := by
    rw [← hsize]
    exact Nat.le_of_not_lt fun hshort => hok (.inr (.inr (.inr (.inl hshort))))
  have hret := ret_of_not_refused h.placed hok hrun
  rw [hret] at hrun
  obtain ⟨hbefore, hafter⟩ := mem_addr_of_symbolHook hrun
  rw [haddr] at hbefore hafter
  constructor
  · unfold Text.Has
    rw [sub_self]
    exact Nat.lt_of_lt_of_le (by decide) hlong
  · rw [hafter]
    exact hbefore.symm

end Hook

/-! ## Nothing left behind -/

/-- Both functions have the bytes they had.
Kind: D -/
def SameText (f g : Text) (mem mem' : Addr → BitVec 8) : Prop :=
  ∀ x, f.Has x ∨ g.Has x → mem' x = mem x

/-- Once the module is not loaded, both functions have the bytes they had before the load: after a
load that failed, and after `nfgpu_exit`, whatever the loaded module did in between apart from
writing over the two functions.
Kind: C -/
def NoHookLeft (f g : Text) (k : Kernel) (r : ℤ) (m : Module) : Prop :=
  (r ≠ 0 → SameText f g k.mem m.kernel.mem) ∧
    (r = 0 → ∀ m' : Module, SameText f g m.kernel.mem m'.kernel.mem →
      SameText f g k.mem (nfgpuExit m').kernel.mem)

section Left

variable {symtab : SymTab} {netdevCode releaseCode : Addr} {st : Steps} {f g : Text} {k : Kernel}
  {r : ℤ} {m : Module}

/-- Unloading restores nothing, so all is decided when loading ends.
Kind: L -/
theorem noHookLeft_iff_sameText : NoHookLeft f g k r m ↔ SameText f g k.mem m.kernel.mem := by
  constructor
  · rintro ⟨hfailed, hunloaded⟩
    by_cases hr : r = 0
    · exact hunloaded hr m fun _ _ => rfl
    · exact hfailed hr
  · intro hsame
    refine ⟨fun _ => hsame, fun _ m' hm' x hx => ?_⟩
    change m'.kernel.mem x = k.mem x
    rw [hm' x hx, hsame x hx]

/-- When the first function is turned down, the second is hooked over the text as it was.
Kind: L -/
theorem ImageLayout.release_text (h : ImageLayout symtab st k.mem f g)
    (hrefused : Refused symtab st.netdevAllocBuf "__netdev_alloc_skb" freshSym k) {ret₁ : ℤ}
    {sym₁ : KernSym} {k₁ : Kernel}
    (hrun : symbolHook symtab st.netdevAllocBuf "__netdev_alloc_skb" netdevCode freshSym k =
      some (ret₁, sym₁, k₁))
    (hfound : Found symtab "skb_release_data") (hbuf : st.skbReleaseBuf ≠ 0) :
    ∃ tail, Placed k.mem (lookup symtab st.skbReleaseBuf "skb_release_data" freshSym) tail ∧
      ∀ i, i < tail + 32 →
        k₁.mem ((lookup symtab st.skbReleaseBuf "skb_release_data" freshSym).addr +
            BitVec.ofNat 64 i) =
          k.mem ((lookup symtab st.skbReleaseBuf "skb_release_data" freshSym).addr +
            BitVec.ofNat 64 i) := by
  by_cases hcalled : Found symtab "__netdev_alloc_skb" ∧ st.netdevAllocBuf ≠ 0
  · obtain ⟨tail, hp, hapart⟩ := h.behind hcalled.1 hcalled.2 hfound hbuf
    refine ⟨tail, hp, fun i hi => ?_⟩
    exact symbolHook_frame_of_refused h.netdevAlloc.placed hrefused hrun fun _ _ => hapart i hi
  · obtain ⟨tail, hp⟩ := h.skbRelease.placed hfound hbuf
    refine ⟨tail, hp, fun i _ => ?_⟩
    exact symbolHook_frame_of_refused h.netdevAlloc.placed hrefused hrun
      fun hfound₁ hbuf₁ => absurd ⟨hfound₁, hbuf₁⟩ hcalled

/-- **The text after loading** is the one before exactly when `class_create` failed or both
functions were turned down.
Kind: P -/
theorem sameText_iff (h : ImageLayout symtab st k.mem f g)
    (hinit : nfgpuInit symtab netdevCode releaseCode st k = some (r, m)) :
    SameText f g k.mem m.kernel.mem ↔
      st.classCreate.isSome ∨
        Refused symtab st.netdevAllocBuf "__netdev_alloc_skb" freshSym k ∧
          Refused symtab st.skbReleaseBuf "skb_release_data" freshSym k := by
  rcases nfgpuInit_cases hinit with
    ⟨hclass, hkernel⟩ | ⟨hclass, ret₁, sym₁, k₁, ret₂, sym₂, hrun₁, hrun₂⟩
  · refine iff_of_true (fun x _ => ?_) (.inl hclass)
    rw [hkernel]
  have hclass' : ¬ (st.classCreate.isSome = true) := by
    rw [hclass]
    exact nofun
  rw [or_iff_right hclass']
  have hdisjoint : ∀ x, g.Has x → ¬ f.Has x := fun x hg hf => h.disjoint x hf hg
  have hkeep₁ : ∀ x, g.Has x → k₁.mem x = k.mem x :=
    fun x hx => h.netdevAlloc.other_eq h.disjoint hrun₁ hx
  have hkeep₂ : ∀ x, f.Has x → m.kernel.mem x = k₁.mem x :=
    fun x hx => h.skbRelease.other_eq hdisjoint hrun₂ hx
  by_cases href₁ : Refused symtab st.netdevAllocBuf "__netdev_alloc_skb" freshSym k
  · -- the second function is turned down on the new text as on the old
    have htext := h.release_text href₁ hrun₁
    have hcongr := refused_congr htext
    have hlayout : HookLayout symtab st.skbReleaseBuf "skb_release_data" k₁.mem g f := by
      refine ⟨h.skbRelease.found, fun hfound hbuf => ?_, h.skbRelease.apart⟩
      obtain ⟨tail, hp, hmem⟩ := htext hfound hbuf
      exact ⟨tail, hp.of_stop (hmem tail (by omega))⟩
    by_cases href₂ : Refused symtab st.skbReleaseBuf "skb_release_data" freshSym k₁
    · refine iff_of_true ?_ ⟨href₁, hcongr.1 href₂⟩
      rintro x (hx | hx)
      · rw [hkeep₂ x hx, h.netdevAlloc.own_eq href₁ hrun₁ hx]
      · rw [hlayout.own_eq href₂ hrun₂ hx, hkeep₁ x hx]
    · obtain ⟨hhas, hne⟩ := hlayout.first_ne href₂ hrun₂
      refine iff_of_false (fun hsame => hne ?_) fun hboth => href₂ (hcongr.2 hboth.2)
      rw [hsame g.addr (.inr hhas), hkeep₁ g.addr hhas]
  · obtain ⟨hhas, hne⟩ := h.netdevAlloc.first_ne href₁ hrun₁
    refine iff_of_false (fun hsame => hne ?_) fun hboth => href₁ hboth.1
    rw [← hkeep₂ f.addr hhas, hsame f.addr (.inl hhas)]

/-- **When nothing is left behind.** Of a load that returned, the two functions have their bytes
back once the module is not loaded exactly when `class_create` failed, or `symbol_hook` turned both
down. A load that fails later, or that succeeds and is undone, leaves the jumps in place.
Source: `xt_TOGPU_main.c` 553–642, `xt_TOGPU_hook.c` 193–326
Kind: C
Fidelity: exact
Hyps: `hlayout`, the functions in the text and the contract of `module_alloc`; `hinit`, the load
returned -/
theorem noHookLeft_iff (hlayout : ImageLayout symtab st k.mem f g)
    (hinit : nfgpuInit symtab netdevCode releaseCode st k = some (r, m)) :
    NoHookLeft f g k r m ↔
      st.classCreate.isSome ∨
        Refused symtab st.netdevAllocBuf "__netdev_alloc_skb" freshSym k ∧
          Refused symtab st.skbReleaseBuf "skb_release_data" freshSym k := by
  rw [noHookLeft_iff_sameText]
  exact sameText_iff hlayout hinit

end Left

/-! ## A load that fails, and the next one -/

/-- A symbol table with the two functions, eight bytes each.
Kind: D -/
def loadTable : SymTab :=
  [("__netdev_alloc_skb", 0x1000), ("skb_release_data", 0x1008), ("kfree_skb", 0x1010),
    ("module_alloc", 0x3000), ("module_free", 0x4000), ("module_finalize", 0x5000)]

/-- Each function is `call 0x2000; ret`, with another first byte if one likes.
Kind: D -/
def loadText (first : BitVec 8) : Addr → BitVec 8 := fun x =>
  if x = 0x1000 ∨ x = 0x1008 then first
  else if x = 0x1001 then 0xfb else if x = 0x1009 then 0xf3
  else if x = 0x1002 ∨ x = 0x100a then 0x0f
  else if x = 0x1005 ∨ x = 0x100d then 0xc3 else 0

/-- All sub-steps succeed but perhaps the last.
Kind: D -/
def loadSteps (ret : ℤ) : Steps := ⟨none, 0, 0, none, 0x100000, 0x200000, none, ret⟩

/-- The byte behind the two functions is no prefix.
Kind: L -/
theorem loadText_behind (first : BitVec 8) :
    inatIsLegacyPrefix (inatGetOpcodeAttribute (loadText first 0x1010)) = false := by
  have hzero : loadText first 0x1010 = 0 := rfl
  rw [hzero]
  decide

/-- The two functions and the two buffers are apart.
Kind: L -/
theorem imageLayout_load (first : BitVec 8) (ret : ℤ) :
    ImageLayout loadTable (loadSteps ret) (loadText first) ⟨0x1000, 8⟩ ⟨0x1008, 8⟩ := by
  have hreach₁ : (lookup loadTable 0x100000 "__netdev_alloc_skb" freshSym).reach = 4104 := by decide
  have hreach₂ : (lookup loadTable 0x200000 "skb_release_data" freshSym).reach = 4104 := by decide
  have hplaced₁ : Placed (loadText first)
      (lookup loadTable 0x100000 "__netdev_alloc_skb" freshSym) 16 :=
    ⟨by decide, by decide, loadText_behind first, by decide⟩
  have hplaced₂ : Placed (loadText first)
      (lookup loadTable 0x200000 "skb_release_data" freshSym) 8 :=
    ⟨by decide, by decide, loadText_behind first, by decide⟩
  have hbehind : ∀ i, i < 8 + 32 →
      (lookup loadTable 0x100000 "__netdev_alloc_skb" freshSym).reach ≤
        ((lookup loadTable 0x200000 "skb_release_data" freshSym).addr + BitVec.ofNat 64 i -
          0x100000).toNat := by
    decide
  refine ⟨fun x hf hg => ?_, ⟨fun _ => ⟨rfl, rfl⟩, fun _ _ => ⟨16, hplaced₁⟩, fun _ _ x hx => ?_⟩,
    ⟨fun _ => ⟨rfl, rfl⟩, fun _ _ => ⟨8, hplaced₂⟩, fun _ _ x hx => ?_⟩,
    fun _ _ _ _ => ⟨8, hplaced₂, hbehind⟩⟩
  · unfold Text.Has at hf hg
    bv_omega
  · change _ ≤ (x - 0x100000).toNat
    unfold Text.Has at hx
    rw [loadSteps, hreach₁]
    bv_omega
  · change _ ≤ (x - 0x200000).toNat
    unfold Text.Has at hx
    rw [loadSteps, hreach₂]
    bv_omega

/-- Registering the target fails with `-EEXIST` after both hooks are in: the module is gone and
`__netdev_alloc_skb` jumps to where it was.
Kind: C -/
theorem not_noHookLeft_register_fails : ∃ m,
    nfgpuInit loadTable 0x300000 0x300100 (loadSteps (-17)) (kernelWith (loadText 0xe8)) =
        some (-17, m) ∧
      ImageLayout loadTable (loadSteps (-17)) (loadText 0xe8) ⟨0x1000, 8⟩ ⟨0x1008, 8⟩ ∧
      ¬ NoHookLeft ⟨0x1000, 8⟩ ⟨0x1008, 8⟩ (kernelWith (loadText 0xe8)) (-17) m := by
  have hrun : ((nfgpuInit loadTable 0x300000 0x300100 (loadSteps (-17))
      (kernelWith (loadText 0xe8))).map fun r => (r.1, r.2.kernel.mem 0x1000)) =
      some (-17, 0xe9) := by
    decide
  obtain ⟨⟨r, m⟩, hinit, hm⟩ := Option.map_eq_some_iff.1 hrun
  obtain ⟨rfl, hmem⟩ := Prod.mk.inj hm
  refine ⟨m, hinit, imageLayout_load 0xe8 (-17), fun hleft => ?_⟩
  have hsame := hleft.1 (by decide) 0x1000 (.inl (by unfold Text.Has; decide))
  rw [hmem] at hsame
  exact absurd hsame (by decide)

/-- After that, the next load finds both functions hijacked, turns them down and leaves them alone.
Kind: C -/
theorem noHookLeft_reload : ∃ m,
    nfgpuInit loadTable 0x300000 0x300100 (loadSteps 0) (kernelWith (loadText 0xe9)) =
        some (0, m) ∧
      NoHookLeft ⟨0x1000, 8⟩ ⟨0x1008, 8⟩ (kernelWith (loadText 0xe9)) 0 m := by
  have hret : ((nfgpuInit loadTable 0x300000 0x300100 (loadSteps 0)
      (kernelWith (loadText 0xe9))).map Prod.fst) = some 0 := by
    decide
  obtain ⟨⟨r, m⟩, hinit, rfl⟩ := Option.map_eq_some_iff.1 hret
  refine ⟨m, hinit, (noHookLeft_iff (imageLayout_load 0xe9 0) hinit).2 (.inr ⟨?_, ?_⟩)⟩
  · exact .inr (.inl (by decide))
  · exact .inr (.inl (by decide))

end Togpu.Hook
