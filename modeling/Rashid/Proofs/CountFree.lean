import Rashid.Proofs.GuestView

/-!
# The instruction count

Only the loops around `step` count instructions. A step neither looks at the count nor changes it, so
what it does is the same whatever has been counted.
-/

namespace Rashid.Proofs

def recount (n : BitVec 64) (c : Cpu) : Cpu := { c with icount := n }

/-- A program that neither looks at the count nor changes it. -/
def CountFree {α : Type} (p : M α) : Prop := ∀ n c, p (recount n c) = ((p c).1, recount n (p c).2)

section Programs

variable {α : Type} {n : BitVec 64} {c : Cpu}

lemma memfault_countFree (a : BitVec 64) (w : Fault) : CountFree (memfault a w) := by
  intro n c
  unfold memfault
  simp only [Prog.modify_apply]
  by_cases h : c.fault = none
  · rw [if_pos h, if_pos (show (recount n c).fault = none from h)]
    rfl
  · rw [if_neg h, if_neg (show ¬ (recount n c).fault = none from h)]
    rfl

lemma prim_countFree {p : M α} (hp : Prim p) : CountFree p := by
  intro n c
  cases hp with
  | ld a k =>
    have hfault : (memfault a (why c.as a (BitVec.ofNat 64 k)) (recount n c)).2 =
        recount n (memfault a (why c.as a (BitVec.ofNat 64 k)) c).2 := congrArg Prod.snd (memfault_countFree a _ n c)
    unfold ld
    show (if accessOk c.as a (BitVec.ofNat 64 k) rsdProtR then _ else _) = _
    split
    · rfl
    · exact congrArg (Prod.mk _) hfault
  | st a v k =>
    unfold st
    show (if accessOk c.as a (BitVec.ofNat 64 k) rsdProtW then _ else _) = _
    split
    · rfl
    · exact memfault_countFree a _ n c
  | ld128 a =>
    have hfault : (memfault a (why c.as a 16) (recount n c)).2 = recount n (memfault a (why c.as a 16) c).2 :=
      congrArg Prod.snd (memfault_countFree a _ n c)
    unfold ld128
    show (if accessOk c.as a 16 rsdProtR then _ else _) = _
    split
    · rfl
    · exact congrArg (Prod.mk _) hfault
  | st128 a v =>
    unfold st128
    show (if accessOk c.as a 16 rsdProtW then _ else _) = _
    split
    · rfl
    · exact memfault_countFree a _ n c
  | _ => rfl

lemma built_countFree {P : ∀ {β : Type}, M β → Prop} (hprim : ∀ {β : Type} {q : M β}, P q → CountFree q) {p : M α}
    (hp : Built P p) : CountFree p := by
  intro n c
  obtain ⟨h1, h2⟩ := Built.sim (E := fun s t => t = recount n s)
    (fun q hq s t hst => by rw [hst, hprim hq n s]; exact ⟨rfl, rfl⟩) hp c (recount n c) rfl
  exact Prod.ext h1.symm h2

lemma syscallRet_countFree (ret : Int) : CountFree (syscallRet ret) := built_countFree prim_countFree IsBuilt.built

lemma withAs_syscallRet (as : As) (evs : List HostEvent) (ret : Int) :
    syscallRet ret (withAs (recount n c) as evs) =
      ((syscallRet ret (withAs c as evs)).1, recount n (syscallRet ret (withAs c as evs)).2) :=
  syscallRet_countFree ret n (withAs c as evs)

lemma runPrim_countFree {p : M α} (hp : RunPrim p) : CountFree p := by
  intro n c
  cases hp with
  | insn h => exact prim_countFree h n c
  | memfault a w => exact memfault_countFree a w n c
  | sysRead k a0 a1 a2 =>
    rw [sysRead_eval, sysRead_eval]
    show (if accessOk c.as a1 a2 rsdProtW then _ else _) = _
    split
    · exact syscallRet_countFree _ n (withMem c _)
    · exact memfault_countFree a1 _ n c
  | sysWrite k a0 a1 a2 =>
    rw [sysWrite_eval, sysWrite_eval]
    show (if accessOk c.as a1 a2 rsdProtR then _ else _) = _
    split
    · exact syscallRet_countFree _ n c
    · exact memfault_countFree a1 _ n c
  | sysMunmap k a0 a1 => exact withAs_syscallRet _ _ _
  | sysMprotect k a0 a1 a2 => exact withAs_syscallRet _ _ _
  | sysMmap k a0 a1 a2 =>
    have hcall : mmapCall k a0 a1 a2 (recount n c) = mmapCall k a0 a1 a2 c := rfl
    rw [sysMmap_eval, sysMmap_eval, hcall]
    show (if c.r r10 &&& 0x1000 = 0 ∧ ((c.r r8).setWidth 32).msb = false then _ else _) = _
    split
    · exact built_countFree prim_countFree (IsBuilt.built (p := unimplementedSyscall)) n c
    · simp only
      split
      · exact withAs_syscallRet _ _ _
      · rfl
  | rsdCallbackFor rt fn =>
    unfold rsdCallbackFor
    have htargets : (recount n c).targets = c.targets := rfl
    rw [htargets]
    repeat' split
    all_goals rfl
  | _ => rfl

end Programs

/-! ### Steps -/

section Steps

variable {α : Type} {n : BitVec 64} {c : Cpu}

lemma doSyscall_countFree (k : Kernel) : CountFree (doSyscall k) := by
  intro n c
  have heval (c : Cpu) : doSyscall k c =
      (if syscallClass (c.r rax) = 3 then sysMdep (syscallNumber (c.r rax)) (c.r rdi)
       else if syscallClass (c.r rax) ≠ 2 then (do unimplementedSyscall; pure .ret)
       else sysBsd k (syscallNumber (c.r rax)) (c.r rdi) (c.r rsi) (c.r rdx)) c := rfl
  have hr : (recount n c).r = c.r := rfl
  rw [heval c, heval (recount n c), hr]
  split
  · exact built_countFree runPrim_countFree IsBuilt.built n c
  split
  · exact built_countFree runPrim_countFree IsBuilt.built n c
  by_cases hexit : syscallNumber (c.r rax) = 1
  · unfold sysBsd
    rw [if_pos hexit]
    rfl
  · exact built_countFree runPrim_countFree (sysBsd_built k _ _ _ _ hexit) n c

lemma stepCode_countFree (fp : Fp) (k : Kernel) : CountFree (stepCode fp k) := by
  intro n c
  have hinsn := built_countFree prim_countFree (IsBuilt.built (P := Prim) (p := stepInsn fp)) n c
  unfold stepCode
  rw [Prog.bind_apply, Prog.bind_apply, hinsn]
  generalize stepInsn fp c = x
  obtain ⟨⟨out, d⟩, c1⟩ := x
  cases out with
  | done => rfl
  | syscall =>
    have hsys := congrArg (fun r : SysOut × Cpu => (sysStepOut r.1, r.2)) (doSyscall_countFree k n c1)
    exact hsys

/-- A step does the same whatever has been counted. -/
theorem step_countFree (fp : Fp) (rt : Runtime) (k : Kernel) : CountFree (step fp rt k) := by
  intro n c
  have hrip : (recount n c).rip = c.rip := rfl
  have hstubs : (recount n c).stubs = c.stubs := rfl
  have has : (recount n c).as = c.as := rfl
  unfold step
  rw [hrip, hstubs, has]
  split
  · rfl
  split
  · rfl
  split
  · exact built_countFree runPrim_countFree IsBuilt.built n c
  split
  · exact stepCode_countFree fp k n c
  · exact congrArg (Prod.mk StepOut.done) (congrArg Prod.snd (memfault_countFree c.rip _ n c))

lemma finishNativeCall_countFree (r : BitVec 64 × BitVec 64 × BitVec 64 × BitVec 64) : CountFree (finishNativeCall r) :=
  built_countFree runPrim_countFree (IsBuilt.built (P := RunPrim) (p := finishNativeCall r))

lemma enterCallback_countFree (target : BitVec 64) (x d : List (BitVec 64)) : CountFree (enterCallback target x d) := by
  intro n c
  have hst :=
    prim_countFree (.st (callbackSp (c.r rsp)) callbackMagic 8) n { c with r := loadArgs x c.r, xmm := loadFloats d c.xmm }
  have heval (c : Cpu) : enterCallback target x d c =
      ((), { (st (callbackSp (c.r rsp)) callbackMagic 8 { c with r := loadArgs x c.r, xmm := loadFloats d c.xmm }).2 with
        r := Function.update (st (callbackSp (c.r rsp)) callbackMagic 8
          { c with r := loadArgs x c.r, xmm := loadFloats d c.xmm }).2.r rsp (callbackSp (c.r rsp))
        rip := target
        running := true }) := rfl
  rw [heval, heval]
  have hmoved : ({ recount n c with r := loadArgs x (recount n c).r, xmm := loadFloats d (recount n c).xmm } : Cpu) =
      recount n { c with r := loadArgs x c.r, xmm := loadFloats d c.xmm } := rfl
  have hrsp : (recount n c).r rsp = c.r rsp := rfl
  rw [hmoved, hrsp, hst]
  rfl

/-- The count is left as it is. -/
lemma CountFree.icount {p : M α} (h : CountFree p) (c : Cpu) : (p c).2.icount = c.icount := by
  have hself : recount c.icount c = c := rfl
  have hp := h c.icount c
  rw [hself] at hp
  exact congrArg (fun r : α × Cpu => r.2.icount) hp

end Steps

/-! ### States that differ in the count -/

/-- Two states the guest cannot tell apart, whatever has been counted. -/
def SameBut (c c' : Cpu) : Prop := SameGuest (recount 0 c) (recount 0 c')

section SameBut

variable {c c' : Cpu}

lemma SameGuest.sameBut (h : SameGuest c c') : SameBut c c' := congrArg (recount 0) (id h : view c = view c')

/-- The same change of what the guest can look at. -/
lemma SameGuest.update {f : Cpu → Cpu} (hf : ∀ c, view (f c) = view (f (view c))) (h : SameGuest c c') :
    SameGuest (f c) (f c') := by
  unfold SameGuest
  rw [hf c, hf c', (id h : view c = view c')]

lemma SameBut.update {f : Cpu → Cpu} (hf : ∀ c, view (recount 0 (f c)) = view (recount 0 (f (view (recount 0 c)))))
    (h : SameBut c c') : SameBut (f c) (f c') := by
  unfold SameBut SameGuest
  rw [hf c, hf c', (id h : view (recount 0 c) = view (recount 0 c'))]

lemma SameBut.trans {c'' : Cpu} (h : SameBut c c') (h' : SameBut c' c'') : SameBut c c'' := SameGuest.trans h h'

lemma SameBut.symm (h : SameBut c c') : SameBut c' c := SameGuest.symm h

/-- What the guest can look at. -/
lemma SameBut.field {α : Type} (h : SameBut c c') (f : Cpu → α) (hf : ∀ c, f c = f (view (recount 0 c))) : f c = f c' := by
  rw [hf c, hf c', (id h : view (recount 0 c) = view (recount 0 c'))]

/-- A program that is blind to the count and cannot tell two states apart otherwise. -/
lemma SameBut.through {α : Type} {p : M α} (hcount : CountFree p)
    (hsame : ∀ {c c'}, SameGuest c c' → (p c).1 = (p c').1 ∧ SameGuest (p c).2 (p c').2) (h : SameBut c c') :
    (p c).1 = (p c').1 ∧ SameBut (p c).2 (p c').2 := by
  obtain ⟨h1, h2⟩ := hsame h
  rw [hcount 0 c, hcount 0 c'] at h1 h2
  exact ⟨h1, h2⟩

end SameBut

end Rashid.Proofs
