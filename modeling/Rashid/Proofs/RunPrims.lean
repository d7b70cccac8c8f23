import Rashid.Proofs.StepPrims
import Rashid.Run

/-!
# What a step is made of

The primitives of an instruction, together with those of system calls and of calls into native
functions. Apart from the two magic addresses and the exit system call, a step is a sequence
of them.
-/

namespace Rashid.Proofs

instance : OfGuest .unimplementedSyscall := ⟨by decide, by decide⟩
instance : OfGuest .readBuffer := ⟨by decide, by decide⟩
instance : OfGuest .writeBuffer := ⟨by decide, by decide⟩
instance : OfGuest .noThunk := ⟨by decide, by decide⟩
instance : OfGuest .formatString := ⟨by decide, by decide⟩
instance : OfGuest .variadic := ⟨by decide, by decide⟩

instance (as : As) (a n : BitVec 64) : OfGuest (why as a n) := by
  unfold why
  split
  · exact ⟨by decide, by decide⟩
  · split <;> exact ⟨by decide, by decide⟩

/-- The primitive actions of `step`. -/
inductive RunPrim : ∀ {α : Type}, M α → Prop
  | insn {α : Type} {p : M α} : Prim p → RunPrim p
  | memfault (a : BitVec 64) (w : Fault) [OfGuest w] : RunPrim (memfault a w)
  | noThunk (imp : Nat) : RunPrim (noThunk imp)
  | wrGs (v : BitVec 64) : RunPrim (wrGs v)
  | sysRead (k : Kernel) (a0 a1 a2 : BitVec 64) : RunPrim (sysRead k a0 a1 a2)
  | sysWrite (k : Kernel) (a0 a1 a2 : BitVec 64) : RunPrim (sysWrite k a0 a1 a2)
  | sysMunmap (k : Kernel) (a0 a1 : BitVec 64) : RunPrim (sysMunmap k a0 a1)
  | sysMprotect (k : Kernel) (a0 a1 a2 : BitVec 64) : RunPrim (sysMprotect k a0 a1 a2)
  | sysMmap (k : Kernel) (a0 a1 a2 : BitVec 64) : RunPrim (sysMmap k a0 a1 a2)
  | rsdCallbackFor (rt : Runtime) (fn : BitVec 64) : RunPrim (rsdCallbackFor rt fn)
  | intArgs : RunPrim intArgs
  | floatArgs : RunPrim floatArgs
  | isRunning : RunPrim isRunning
  | rdFault : RunPrim rdFault
  | failVariadic (f : Fault) [OfGuest f] : RunPrim (failVariadic f)

instance : HasPrim RunPrim := ⟨.insn⟩

section Primitives

instance (imp : Nat) : IsBuilt RunPrim (noThunk imp) := ⟨.prim (.noThunk imp)⟩
instance (v : BitVec 64) : IsBuilt RunPrim (wrGs v) := ⟨.prim (.wrGs v)⟩
instance (k : Kernel) (a0 a1 a2 : BitVec 64) : IsBuilt RunPrim (sysRead k a0 a1 a2) := ⟨.prim (.sysRead ..)⟩
instance (k : Kernel) (a0 a1 a2 : BitVec 64) : IsBuilt RunPrim (sysWrite k a0 a1 a2) := ⟨.prim (.sysWrite ..)⟩
instance (k : Kernel) (a0 a1 : BitVec 64) : IsBuilt RunPrim (sysMunmap k a0 a1) := ⟨.prim (.sysMunmap ..)⟩
instance (k : Kernel) (a0 a1 a2 : BitVec 64) : IsBuilt RunPrim (sysMprotect k a0 a1 a2) := ⟨.prim (.sysMprotect ..)⟩
instance (k : Kernel) (a0 a1 a2 : BitVec 64) : IsBuilt RunPrim (sysMmap k a0 a1 a2) := ⟨.prim (.sysMmap ..)⟩
instance (rt : Runtime) (fn : BitVec 64) : IsBuilt RunPrim (rsdCallbackFor rt fn) := ⟨.prim (.rsdCallbackFor ..)⟩
instance : IsBuilt RunPrim intArgs := ⟨.prim .intArgs⟩
instance : IsBuilt RunPrim floatArgs := ⟨.prim .floatArgs⟩
instance : IsBuilt RunPrim isRunning := ⟨.prim .isRunning⟩
instance : IsBuilt RunPrim rdFault := ⟨.prim .rdFault⟩
instance (f : Fault) [OfGuest f] : IsBuilt RunPrim (failVariadic f) := ⟨.prim (.failVariadic f)⟩

end Primitives

/-! ### Calls into native functions -/

section Native

instance (a : SysvReader) : IsBuilt RunPrim (sysvStack a) := by
  unfold sysvStack; infer_instance

instance (a : SysvReader) : IsBuilt RunPrim (sysvInt a) := by
  unfold sysvInt
  split <;> infer_instance

instance (a : SysvReader) : IsBuilt RunPrim (sysvSse a) := by
  unfold sysvSse
  split <;> infer_instance

instance (fuel : Nat) (p : BitVec 64) (star long : Bool) : IsBuilt RunPrim (marshalDirective fuel p star long) := by
  induction fuel generalizing p star long with
  | zero => exact ⟨.pure _⟩
  | succ fuel ih => unfold marshalDirective; infer_instance

instance (scan star : Bool) (conv : BitVec 64) (a : SysvReader) (slots : List (BitVec 64)) (max : Nat) :
    IsBuilt RunPrim (marshalSlots scan star conv a slots max) := by
  unfold marshalSlots; infer_instance

instance (scan : Bool) (max fuel : Nat) (p : BitVec 64) (a : SysvReader) (slots : List (BitVec 64)) :
    IsBuilt RunPrim (marshalLoop scan max fuel p a slots) := by
  induction fuel generalizing p a slots with
  | zero => exact ⟨.pure _⟩
  | succ fuel ih =>
    unfold marshalLoop
    refine ⟨.bind IsBuilt.built fun ch => .bind IsBuilt.built fun go => .ite IsBuilt.built (.ite IsBuilt.built
      (.ite IsBuilt.built (.bind IsBuilt.built fun x => .ite IsBuilt.built (.ite IsBuilt.built
        (.ite IsBuilt.built (.bind IsBuilt.built fun r => ?_))))))⟩
    cases r <;> exact IsBuilt.built

instance (fmt : BitVec 64) (scan : Bool) (a : SysvReader) (max : Nat) :
    IsBuilt RunPrim (marshalFormat fmt scan a max) := by
  unfold marshalFormat; infer_instance

instance (rt : Runtime) (imp : Nat) (cbarg : Int) (objcrecv : Bool) :
    IsBuilt RunPrim (callNative rt imp cbarg objcrecv) := by
  unfold callNative; infer_instance

instance (n : Nat) (a : SysvReader) : IsBuilt RunPrim (fixedArgs n a) := by
  induction n generalizing a with
  | zero => exact ⟨.pure _⟩
  | succ n ih => unfold fixedArgs; infer_instance

instance (rt : Runtime) (imp : Nat) (sp : VaSpec) (nfixed fmtIndex : Nat) (objcrecv : Bool) :
    IsBuilt RunPrim (callFormatted rt imp sp nfixed fmtIndex objcrecv) := by
  unfold callFormatted
  refine ⟨.bind IsBuilt.built fun sp0 => .bind IsBuilt.built fun x => .ite IsBuilt.built
    (.bind IsBuilt.built fun slots => ?_)⟩
  cases slots <;> exact IsBuilt.built

instance (rt : Runtime) (imp : Nat) (sp : VaSpec) (objcrecv : Bool) :
    IsBuilt RunPrim (callNativeVariadic rt imp sp objcrecv) := by
  unfold callNativeVariadic; infer_instance

instance (rt : Runtime) (st : Stubs) (imp : Nat) : IsBuilt RunPrim (stepStub rt st imp) := by
  unfold stepStub
  refine ⟨.ite ?_ IsBuilt.built⟩
  split
  · refine .bind IsBuilt.built fun call => ?_
    cases call <;> exact IsBuilt.built
  · exact IsBuilt.built

instance (ret : BitVec 64 × BitVec 64 × BitVec 64 × BitVec 64) : IsBuilt RunPrim (finishNativeCall ret) := by
  unfold finishNativeCall
  exact ⟨.bind IsBuilt.built fun _ => .bind IsBuilt.built fun _ => .bind IsBuilt.built fun _ => IsBuilt.built⟩

end Native

/-! ### System calls -/

section Syscalls

variable {P : ∀ {α : Type}, M α → Prop} [HasPrim P]

instance (ret : Int) : IsBuilt P (syscallRet ret) := by
  unfold syscallRet; infer_instance

instance : IsBuilt P unimplementedSyscall := by
  unfold unimplementedSyscall; infer_instance

instance (n a0 : BitVec 64) : IsBuilt RunPrim (sysMdep n a0) := by
  unfold sysMdep; infer_instance

/-! What the calls that reach the kernel or the region list do, with the state spelt out. -/

def withMem (c : Cpu) (m : Mem) : Cpu := { c with mem := m }

lemma sysRead_eval (k : Kernel) (a0 a1 a2 : BitVec 64) (c : Cpu) :
    sysRead k a0 a1 a2 c =
      if accessOk c.as a1 a2 rsdProtW then
        syscallRet (k.read (a0.setWidth 32) a1 a2).1
          (withMem c (poke c.mem a1 (k.read (a0.setWidth 32) a1 a2).2))
      else memfault a1 .readBuffer c := by
  unfold sysRead
  rw [Prog.bind_eval (Prog.get_apply _ c), Prog.ite_apply']
  rfl

lemma sysWrite_eval (k : Kernel) (a0 a1 a2 : BitVec 64) (c : Cpu) :
    sysWrite k a0 a1 a2 c =
      if accessOk c.as a1 a2 rsdProtR then syscallRet (k.write (a0.setWidth 32) a1 a2) c
      else memfault a1 .writeBuffer c := by
  unfold sysWrite
  rw [Prog.bind_eval (Prog.get_apply _ c), Prog.ite_apply']

/-- The state in which an address-space call has been carried out. -/
def withAs (c : Cpu) (as : As) (evs : List HostEvent) : Cpu := { c with as := as, mem := evs.foldl zeroFill c.mem }

lemma sysMunmap_eval (k : Kernel) (a0 a1 : BitVec 64) (c : Cpu) :
    sysMunmap k a0 a1 c =
      syscallRet (rsdAsUnmap k.toHost c.as a0 a1).1
        (withAs c (rsdAsUnmap k.toHost c.as a0 a1).2.1 (rsdAsUnmap k.toHost c.as a0 a1).2.2) := rfl

lemma sysMprotect_eval (k : Kernel) (a0 a1 a2 : BitVec 64) (c : Cpu) :
    sysMprotect k a0 a1 a2 c =
      syscallRet (rsdAsProtect k.toHost c.as a0 a1 ((a2 &&& 7).setWidth 32)).1
        (withAs c (rsdAsProtect k.toHost c.as a0 a1 ((a2 &&& 7).setWidth 32)).2 []) := rfl

/-- The mapping a guest asks for. -/
def mmapCall (k : Kernel) (a0 a1 a2 : BitVec 64) (c : Cpu) : BitVec 64 × As × List HostEvent :=
  rsdAsMap k.toHost c.as a0 a1 ((a2 &&& 7).setWidth 32) (c.r r10 &&& 0x10 != 0)

lemma sysMmap_eval (k : Kernel) (a0 a1 a2 : BitVec 64) (c : Cpu) :
    sysMmap k a0 a1 a2 c =
      if c.r r10 &&& 0x1000 = 0 ∧ ((c.r r8).setWidth 32).msb = false then unimplementedSyscall c
      else
        let m := mmapCall k a0 a1 a2 c
        if m.1 = 0 then syscallRet (-12) (withAs c m.2.1 m.2.2)
        else (do let f ← rdFlags; wrFlags (f &&& ~~~fCF); wrR rax m.1) (withAs c m.2.1 m.2.2) := by
  have hflags : rdR r10 c = (c.r r10, c) := rfl
  have hfd : rdR r8 c = (c.r r8, c) := rfl
  unfold sysMmap
  rw [Prog.bind_eval hflags, Prog.bind_eval hfd, Prog.ite_apply']
  split
  · rfl
  · rw [Prog.bind_eval (Prog.get_apply _ c)]
    exact Prog.ite_apply' ..

/-- Every system call but exit. -/
lemma sysBsd_built (k : Kernel) (n a0 a1 a2 : BitVec 64) (hn : n ≠ 1) : Built RunPrim (sysBsd k n a0 a1 a2) := by
  unfold sysBsd
  rw [if_neg hn]
  exact IsBuilt.built

lemma sysMdep_ret (n a0 : BitVec 64) (c : Cpu) : (sysMdep n a0 c).1 = .ret := by
  unfold sysMdep
  split <;> rfl

lemma sysBsd_ret (k : Kernel) (n a0 a1 a2 : BitVec 64) (hn : n ≠ 1) (c : Cpu) : (sysBsd k n a0 a1 a2 c).1 = .ret := by
  unfold sysBsd
  rw [if_neg hn]
  repeat' split
  all_goals rfl

/-- A system call that returns is a sequence of primitives; exit stops the guest. -/
lemma doSyscall_cases (k : Kernel) (c : Cpu) :
    (∃ p : M SysOut, Built RunPrim p ∧ doSyscall k c = p c ∧ (p c).1 = .ret) ∨
      (doSyscall k c).1 = .exit ∧ ∃ v, (doSyscall k c).2 = { c with running := false, exitCode := v } := by
  have hc : doSyscall k c =
      (if syscallClass (c.r rax) = 3 then sysMdep (syscallNumber (c.r rax)) (c.r rdi)
       else if syscallClass (c.r rax) ≠ 2 then (do unimplementedSyscall; pure .ret)
       else sysBsd k (syscallNumber (c.r rax)) (c.r rdi) (c.r rsi) (c.r rdx)) c := rfl
  rw [hc]
  split
  · exact .inl ⟨_, IsBuilt.built, rfl, sysMdep_ret ..⟩
  split
  · exact .inl ⟨_, IsBuilt.built, rfl, rfl⟩
  by_cases hn : syscallNumber (c.r rax) = 1
  · refine .inr ?_
    unfold sysBsd
    rw [if_pos hn]
    exact ⟨rfl, _, rfl⟩
  · exact .inl ⟨_, sysBsd_built k _ _ _ _ hn, rfl, sysBsd_ret k _ _ _ _ hn c⟩

end Syscalls

/-! ### Steps -/

lemma stepStub_not_exit (rt : Runtime) (st : Stubs) (imp : Nat) (c : Cpu) : (stepStub rt st imp c).1.isExit = false := by
  unfold stepStub
  split
  · cases st.va imp with
    | some sp =>
      simp only [Prog.bind_apply]
      cases (callNativeVariadic rt imp sp (st.objcrecv imp) c).1 <;> rfl
    | none => rfl
  · rfl

section Steps

variable (fp : Fp) (rt : Runtime) (k : Kernel)

lemma stepCode_rel {R : Cpu → Cpu → Prop} (hrefl : ∀ s, R s s) (htrans : ∀ s t u, R s t → R t u → R s u)
    (hprim : ∀ {α : Type} (p : M α), RunPrim p → ∀ s, R s (p s).2) (c : Cpu) :
    ((stepCode fp k c).1.isExit = false ∧ R c (stepCode fp k c).2) ∨
    ((stepCode fp k c).1 = .exit ∧
      ∃ c1 v, R c c1 ∧ (stepCode fp k c).2 = { c1 with running := false, exitCode := v }) := by
  have hins := Built.rel hrefl htrans hprim (IsBuilt.built (P := RunPrim) (p := stepInsn fp)) c
  generalize hs : stepInsn fp c = r at hins
  obtain ⟨⟨out, d⟩, c1⟩ := r
  unfold stepCode
  rw [Prog.bind_eval hs]
  cases out with
  | done => exact .inl ⟨rfl, hins⟩
  | syscall =>
    rcases doSyscall_cases k c1 with ⟨p, hp, heq, hret⟩ | ⟨hex, v, heq⟩
    · refine .inl ⟨?_, ?_⟩
      · simp only [Prog.bind_apply, Prog.pure_apply, heq, hret]
        rfl
      · simp only [Prog.bind_apply, Prog.pure_apply, heq]
        exact htrans _ _ _ hins (Built.rel hrefl htrans hprim hp c1)
    · refine .inr ⟨?_, c1, v, hins, ?_⟩
      · simp only [Prog.bind_apply, Prog.pure_apply, hex]
        rfl
      · simp only [Prog.bind_apply, Prog.pure_apply, heq]

/-- Away from the magic addresses and the stubs, a step is an instruction or a failed fetch. -/
lemma step_code {c : Cpu} (hcb : c.rip ≠ callbackMagic) (hret : c.rip ≠ returnMagic)
    (hstub : rsdStubIndex c.stubs c.rip = none) :
    step fp rt k c = if rsdAsOk c.as c.rip 1 rsdProtX then stepCode fp k c
      else (.done, (memfault c.rip (why c.as c.rip 1) c).2) := by
  unfold step
  rw [if_neg hcb, if_neg hret, hstub]
  cases c.stubs <;> rfl

/-- What one step can do, for any relation that the primitives keep. -/
theorem step_rel {R : Cpu → Cpu → Prop} (hrefl : ∀ s, R s s) (htrans : ∀ s t u, R s t → R t u → R s u)
    (hprim : ∀ {α : Type} (p : M α), RunPrim p → ∀ s, R s (p s).2) (c : Cpu) :
    (c.rip = callbackMagic ∧ step fp rt k c = (.done, { c with running := false })) ∨
    (c.rip = returnMagic ∧
      step fp rt k c = (.returned, { c with running := false, exitCode := (c.r rax &&& 0xff).setWidth 32 })) ∨
    (c.rip ≠ callbackMagic ∧ (step fp rt k c).1.isExit = false ∧ R c (step fp rt k c).2) ∨
    (c.rip ≠ callbackMagic ∧ (step fp rt k c).1 = .exit ∧
      ∃ c1 v, R c c1 ∧ (step fp rt k c).2 = { c1 with running := false, exitCode := v }) := by
  unfold step
  by_cases hcb : c.rip = callbackMagic
  · exact .inl ⟨hcb, if_pos hcb⟩
  rw [if_neg hcb]
  by_cases hret : c.rip = returnMagic
  · exact .inr (.inl ⟨hret, if_pos hret⟩)
  rw [if_neg hret]
  refine .inr (.inr ?_)
  split
  · next st imp _ _ =>
    refine .inl ⟨hcb, ?_, Built.rel hrefl htrans hprim (IsBuilt.built (p := stepStub rt st imp)) c⟩
    exact stepStub_not_exit rt st imp c
  split
  · rcases stepCode_rel fp k hrefl htrans hprim c with ⟨hout, hR⟩ | ⟨hex, c1, v, hR, heq⟩
    · exact .inl ⟨hcb, hout, hR⟩
    · exact .inr ⟨hcb, hex, c1, v, hR, heq⟩
  · exact .inl ⟨hcb, rfl, hprim _ (.memfault ..) c⟩

end Steps

end Rashid.Proofs
