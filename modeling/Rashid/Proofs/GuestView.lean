import Rashid.Proofs.RunPrims

/-!
# What the guest can see

The hit entries, the scratch slots, the write log and the record of which instruction is being
executed belong to the translator. A step behaves alike on two states that differ in nothing
else.
-/

namespace Rashid.Proofs

def asView (as : As) : As := { as with rd := HitPair.empty, wr := HitPair.empty }

/-- The state without what only the translator looks at. -/
def view (c : Cpu) : Cpu := { c with
  curRip := 0
  jitTmp := fun _ => 0
  wlog := none
  as := asView c.as
  faultRip := 0 }

/-- Two states the guest cannot tell apart. -/
def SameGuest (c c' : Cpu) : Prop := view c = view c'

lemma SameGuest.refl (c : Cpu) : SameGuest c c := rfl

lemma SameGuest.symm {c c' : Cpu} (h : SameGuest c c') : SameGuest c' c := Eq.symm h

lemma SameGuest.trans {a b c : Cpu} (h : SameGuest a b) (h' : SameGuest b c) : SameGuest a c := Eq.trans h h'

/-! ### The region list -/

section Regions

variable {as as' : As} (h : as'.reg = as.reg)
include h

lemma rangeLoop_congr (p : Region → Bool) (fuel : Nat) (a n : BitVec 64) :
    rangeLoop as' p fuel a n = rangeLoop as p fuel a n := by
  induction fuel generalizing a n with
  | zero => rfl
  | succ fuel ih =>
    have hfind : find as' a = find as a := by rw [find, find, h]
    simp only [rangeLoop, hfind, ih]

lemma rsdAsOk_congr (a n : BitVec 64) (prot : BitVec 32) : rsdAsOk as' a n prot = rsdAsOk as a n prot := by
  simp only [rsdAsOk, rangeCheck, rangeLoop_congr h]

lemma rsdAsMapped_congr (a n : BitVec 64) : rsdAsMapped as' a n = rsdAsMapped as a n := by
  simp only [rsdAsMapped, rangeCheck, rangeLoop_congr h]

lemma accessOk_congr (a n : BitVec 64) (prot : BitVec 32) : accessOk as' a n prot = accessOk as a n prot := by
  simp only [accessOk, rsdAsOk_congr h, rsdAsMapped_congr h]

lemma why_congr (a n : BitVec 64) : why as' a n = why as a n := by
  simp only [why, rsdAsMapped_congr h]

end Regions

/-- A program that neither looks at what the view leaves out nor keeps it from being left out. -/
def ViewOnly {α : Type} (p : M α) : Prop := ∀ c, (p c).1 = (p (view c)).1 ∧ view (p c).2 = view (p (view c)).2

lemma memfault_view (a : BitVec 64) (w : Fault) : ViewOnly (memfault a w) := by
  intro c
  refine ⟨rfl, ?_⟩
  unfold memfault
  by_cases h : c.fault = none
  · have h' : (view c).fault = none := h
    simp only [Prog.modify_apply, if_pos h, if_pos h']
    rfl
  · have h' : ¬ (view c).fault = none := h
    simp only [Prog.modify_apply, if_neg h, if_neg h']
    rfl

lemma accessOk_view (c : Cpu) (a n : BitVec 64) (prot : BitVec 32) :
    accessOk (view c).as a n prot = accessOk c.as a n prot :=
  @accessOk_congr c.as (asView c.as) rfl a n prot

lemma why_view (c : Cpu) (a n : BitVec 64) : why (view c).as a n = why c.as a n := 
  @why_congr c.as (asView c.as) rfl a n

lemma prim_view {α : Type} {p : M α} (hp : Prim p) : ViewOnly p := by
  intro c
  cases hp with
  | ld a n =>
    unfold ld
    rw [accessOk_view, why_view]
    split
    · exact ⟨rfl, rfl⟩
    · exact ⟨rfl, (memfault_view a _ c).2⟩
  | st a v n =>
    unfold st
    rw [accessOk_view, why_view]
    split
    · exact ⟨rfl, rfl⟩
    · exact memfault_view a _ c
  | ld128 a =>
    unfold ld128
    rw [accessOk_view, why_view]
    split
    · exact ⟨rfl, rfl⟩
    · exact ⟨rfl, (memfault_view a _ c).2⟩
  | st128 a v =>
    unfold st128
    rw [accessOk_view, why_view]
    split
    · exact ⟨rfl, rfl⟩
    · exact memfault_view a _ c
  | _ => exact ⟨rfl, rfl⟩

lemma built_view {α : Type} {p : M α} (hp : Built Prim p) : ViewOnly p := by
  intro c
  refine Built.sim (E := fun s t => view s = view t) (fun p h s t hst => ?_) hp c (view c) rfl
  have hs := prim_view h s
  have ht := prim_view h t
  rw [hst] at hs
  exact ⟨hs.1.trans ht.1.symm, hs.2.trans ht.2.symm⟩

/-! ### System calls and native calls -/

lemma rsdAsUnmap_view (h : Host) (as : As) (a n : BitVec 64) :
    (rsdAsUnmap h (asView as) a n).1 = (rsdAsUnmap h as a n).1 ∧
      asView (rsdAsUnmap h (asView as) a n).2.1 = asView (rsdAsUnmap h as a n).2.1 ∧
      (rsdAsUnmap h (asView as) a n).2.2 = (rsdAsUnmap h as a n).2.2 := by
  unfold rsdAsUnmap
  simp only
  split <;> exact ⟨rfl, rfl, rfl⟩

lemma rsdAsProtect_view (h : Host) (as : As) (a n : BitVec 64) (prot : BitVec 32) :
    (rsdAsProtect h (asView as) a n prot).1 = (rsdAsProtect h as a n prot).1 ∧
      asView (rsdAsProtect h (asView as) a n prot).2 = asView (rsdAsProtect h as a n prot).2 := by
  unfold rsdAsProtect
  repeat' split
  all_goals exact ⟨rfl, rfl⟩

lemma rsdAsMap_view (h : Host) (as : As) (a n : BitVec 64) (prot : BitVec 32) (fixed : Bool) :
    (rsdAsMap h (asView as) a n prot fixed).1 = (rsdAsMap h as a n prot fixed).1 ∧
      asView (rsdAsMap h (asView as) a n prot fixed).2.1 = asView (rsdAsMap h as a n prot fixed).2.1 ∧
      (rsdAsMap h (asView as) a n prot fixed).2.2 = (rsdAsMap h as a n prot fixed).2.2 := by
  unfold rsdAsMap
  split
  · exact ⟨rfl, rfl, rfl⟩
  cases hostMap h a n fixed with
  | none => exact ⟨rfl, rfl, rfl⟩
  | some x => exact ⟨rfl, rfl, rfl⟩

lemma withAs_view {c : Cpu} {as as' : As} (h : asView as' = asView as) (evs : List HostEvent) :
    view (withAs (view c) as' evs) = view (withAs c as evs) := by
  show { view (withAs c as evs) with as := asView as' } = view (withAs c as evs)
  rw [h]
  rfl

/-- A program that follows after two states which look alike. -/
lemma ViewOnly.after {α : Type} {p : M α} (h : ViewOnly p) {c c' : Cpu} (hc : view c = view c') :
    (p c).1 = (p c').1 ∧ view (p c).2 = view (p c').2 := by
  obtain ⟨h1, h2⟩ := h c
  obtain ⟨h1', h2'⟩ := h c'
  rw [hc] at h1 h2
  exact ⟨h1.trans h1'.symm, h2.trans h2'.symm⟩

lemma syscallRet_after (ret : Int) {c c' : Cpu} (hc : view c = view c') :
    (syscallRet ret c).1 = (syscallRet ret c').1 ∧ view (syscallRet ret c).2 = view (syscallRet ret c').2 :=
  (built_view IsBuilt.built).after hc

lemma runPrim_view {α : Type} {p : M α} (hp : RunPrim p) : ViewOnly p := by
  intro c
  cases hp with
  | insn h => exact prim_view h c
  | memfault a w => exact memfault_view a w c
  | sysRead k a0 a1 a2 =>
    rw [sysRead_eval, sysRead_eval, accessOk_view]
    split
    · exact syscallRet_after _ rfl
    · exact memfault_view _ _ c
  | sysWrite k a0 a1 a2 =>
    rw [sysWrite_eval, sysWrite_eval, accessOk_view]
    split
    · exact syscallRet_after _ rfl
    · exact memfault_view _ _ c
  | sysMunmap k a0 a1 =>
    obtain ⟨h1, h2, h3⟩ := rsdAsUnmap_view k.toHost c.as a0 a1
    rw [sysMunmap_eval, sysMunmap_eval, show (view c).as = asView c.as from rfl, h1, h3]
    exact syscallRet_after _ (withAs_view h2 _).symm
  | sysMprotect k a0 a1 a2 =>
    obtain ⟨h1, h2⟩ := rsdAsProtect_view k.toHost c.as a0 a1 ((a2 &&& 7).setWidth 32)
    rw [sysMprotect_eval, sysMprotect_eval, show (view c).as = asView c.as from rfl, h1]
    exact syscallRet_after _ (withAs_view h2 _).symm
  | sysMmap k a0 a1 a2 =>
    obtain ⟨h1, h2, h3⟩ := rsdAsMap_view k.toHost c.as a0 a1 ((a2 &&& 7).setWidth 32) (c.r r10 &&& 0x10 != 0)
    rw [sysMmap_eval, sysMmap_eval, show (view c).r = c.r from rfl]
    split
    · exact built_view IsBuilt.built c
    have hview := withAs_view (c := c) h2 (mmapCall k a0 a1 a2 c).2.2
    have h1' : (mmapCall k a0 a1 a2 (view c)).1 = (mmapCall k a0 a1 a2 c).1 := h1
    have h3' : (mmapCall k a0 a1 a2 (view c)).2.2 = (mmapCall k a0 a1 a2 c).2.2 := h3
    simp only [h1', h3']
    split
    · exact ⟨trivial, (syscallRet_after _ hview.symm).2⟩
    · exact ⟨trivial, ((built_view IsBuilt.built).after hview.symm).2⟩
  | rsdCallbackFor rt fn =>
    unfold rsdCallbackFor
    rw [show (view c).targets = c.targets from rfl]
    repeat' split
    all_goals exact ⟨rfl, rfl⟩
  | _ => exact ⟨rfl, rfl⟩

/-- No program of the guest can tell two such states apart. -/
lemma built_same {α : Type} {p : M α} (hp : Built RunPrim p) {c c' : Cpu} (hc : SameGuest c c') :
    (p c).1 = (p c').1 ∧ SameGuest (p c).2 (p c').2 :=
  Built.sim (fun _ h _ _ => (runPrim_view h).after) hp c c' hc

lemma sysBsd_same (k : Kernel) (n a0 a1 a2 : BitVec 64) {c c' : Cpu} (hc : SameGuest c c') :
    (sysBsd k n a0 a1 a2 c).1 = (sysBsd k n a0 a1 a2 c').1 ∧
      SameGuest (sysBsd k n a0 a1 a2 c).2 (sysBsd k n a0 a1 a2 c').2 := by
  by_cases hn : n = 1
  · unfold sysBsd
    rw [if_pos hn]
    refine ⟨rfl, ?_⟩
    exact congrArg (fun v : Cpu => { v with running := false, exitCode := a0.setWidth 32 }) (id hc : view c = view c')
  · exact built_same (sysBsd_built k n a0 a1 a2 hn) hc

lemma SameGuest.r_eq {c c' : Cpu} (h : SameGuest c c') : c.r = c'.r := by
  have h' : (view c).r = (view c').r := congrArg Cpu.r h
  exact h'

lemma doSyscall_same (k : Kernel) {c c' : Cpu} (hc : SameGuest c c') :
    (doSyscall k c).1 = (doSyscall k c').1 ∧ SameGuest (doSyscall k c).2 (doSyscall k c').2 := by
  have heval (c : Cpu) : doSyscall k c =
      (if syscallClass (c.r rax) = 3 then sysMdep (syscallNumber (c.r rax)) (c.r rdi)
       else if syscallClass (c.r rax) ≠ 2 then (do unimplementedSyscall; pure .ret)
       else sysBsd k (syscallNumber (c.r rax)) (c.r rdi) (c.r rsi) (c.r rdx)) c := rfl
  rw [heval c, heval c', ← hc.r_eq]
  split
  · exact built_same IsBuilt.built hc
  split
  · exact built_same IsBuilt.built hc
  · exact sysBsd_same k _ _ _ _ hc

lemma stepCode_same (fp : Fp) (k : Kernel) {c c' : Cpu} (hc : SameGuest c c') :
    (stepCode fp k c).1 = (stepCode fp k c').1 ∧ SameGuest (stepCode fp k c).2 (stepCode fp k c').2 := by
  obtain ⟨h1, h2⟩ := built_same (IsBuilt.built (P := RunPrim) (p := stepInsn fp)) hc
  unfold stepCode
  simp only [Prog.bind_apply]
  generalize stepInsn fp c = x at h1 h2 ⊢
  generalize stepInsn fp c' = y at h1 h2 ⊢
  obtain ⟨⟨out, d⟩, c1⟩ := x
  obtain ⟨⟨out', d'⟩, c1'⟩ := y
  cases h1
  cases out with
  | done => exact ⟨rfl, h2⟩
  | syscall =>
    obtain ⟨h3, h4⟩ := doSyscall_same k h2
    refine ⟨?_, h4⟩
    exact congrArg sysStepOut h3

lemma step_view (fp : Fp) (rt : Runtime) (k : Kernel) : ViewOnly (step fp rt k) := by
  intro c
  have hok : rsdAsOk (view c).as c.rip 1 rsdProtX = rsdAsOk c.as c.rip 1 rsdProtX :=
    @rsdAsOk_congr c.as (asView c.as) rfl ..
  unfold step
  rw [why_view, show (view c).rip = c.rip from rfl, show (view c).stubs = c.stubs from rfl, hok]
  split
  · exact ⟨rfl, rfl⟩
  split
  · exact ⟨rfl, rfl⟩
  split
  · exact built_same IsBuilt.built (rfl : view c = view (view c))
  split
  · exact stepCode_same fp k (rfl : view c = view (view c))
  · exact ⟨rfl, (memfault_view _ _ c).2⟩

/-- A step cannot tell two such states apart. -/
theorem step_same (fp : Fp) (rt : Runtime) (k : Kernel) {c c' : Cpu} (hc : SameGuest c c') :
    (step fp rt k c).1 = (step fp rt k c').1 ∧ SameGuest (step fp rt k c).2 (step fp rt k c').2 :=
  (step_view fp rt k).after hc

end Rashid.Proofs
