import Rashid.Lib.Runs
import Rashid.Proofs.CachedBlocks
import Rashid.Proofs.CheckedRun

/-!
# The budget of a run with compiled blocks

A block counts all its instructions when it is through, so that a run may count past its budget, but by
less than the longest block. As every block and every instruction counts, a program without imports
is stopped whatever it does, compiled or not and checked or not.
-/

namespace Rashid.Proofs

open Conf

/-! ### What no instruction touches -/

/-- The count and the stubs are as they were. -/
def Untouched (c c' : Cpu) : Prop := c'.icount = c.icount ∧ c'.stubs = c.stubs

lemma Untouched.trans {a b c : Cpu} (h : Untouched a b) (h' : Untouched b c) : Untouched a c :=
  ⟨h'.1.trans h.1, h'.2.trans h.2⟩

lemma noteHit_untouched (a : BitVec 64) (prot : BitVec 32) (c : Cpu) : Untouched c (noteHit a prot c).2 := by
  unfold noteHit
  simp only [Prog.modify]
  split <;> exact ⟨rfl, rfl⟩

lemma memfault_untouched (a : BitVec 64) (w : Fault) (c : Cpu) : Untouched c (memfault a w c).2 := by
  obtain ⟨_, _, _, _, h⟩ := memfault_eq a w c
  rw [h]
  exact ⟨rfl, rfl⟩

lemma prim_untouched {α : Type} {p : M α} (hp : Prim p) (c : Cpu) : Untouched c (p c).2 := by
  cases hp with
  | ld a n =>
    unfold ld
    split
    · exact ⟨rfl, rfl⟩
    · exact memfault_untouched ..
  | st a v n =>
    unfold st
    split
    · exact ⟨rfl, rfl⟩
    · exact memfault_untouched ..
  | ld128 a =>
    unfold ld128
    split
    · exact ⟨rfl, rfl⟩
    · exact memfault_untouched ..
  | st128 a v =>
    unfold st128
    split
    · exact ⟨rfl, rfl⟩
    · exact memfault_untouched ..
  | _ => exact ⟨rfl, rfl⟩

lemma syscallRet_untouched (ret : Int) {c c1 : Cpu} (h : Untouched c c1) : Untouched c (syscallRet ret c1).2 :=
  h.trans (Built.rel (fun _ => ⟨rfl, rfl⟩) (fun _ _ _ => .trans) (fun _ h => prim_untouched h)
    (IsBuilt.built (P := Prim) (p := syscallRet ret)) c1)

lemma runPrim_untouched {α : Type} {p : M α} (hp : RunPrim p) (c : Cpu) : Untouched c (p c).2 := by
  cases hp with
  | insn h => exact prim_untouched h c
  | memfault a w => exact memfault_untouched a w c
  | sysRead k a0 a1 a2 =>
    rw [sysRead_eval]
    split
    · exact syscallRet_untouched _ ⟨rfl, rfl⟩
    · exact memfault_untouched ..
  | sysWrite k a0 a1 a2 =>
    rw [sysWrite_eval]
    split
    · exact syscallRet_untouched _ ⟨rfl, rfl⟩
    · exact memfault_untouched ..
  | sysMunmap k a0 a1 =>
    rw [sysMunmap_eval]
    exact syscallRet_untouched _ ⟨rfl, rfl⟩
  | sysMprotect k a0 a1 a2 =>
    rw [sysMprotect_eval]
    exact syscallRet_untouched _ ⟨rfl, rfl⟩
  | sysMmap k a0 a1 a2 =>
    rw [sysMmap_eval]
    split
    · exact ⟨rfl, rfl⟩
    · simp only
      split
      · exact syscallRet_untouched _ ⟨rfl, rfl⟩
      · exact ⟨rfl, rfl⟩
  | rsdCallbackFor rt fn =>
    unfold rsdCallbackFor
    repeat' split
    all_goals exact ⟨rfl, rfl⟩
  | _ => exact ⟨rfl, rfl⟩

lemma step_untouched (fp : Fp) (rt : Runtime) (k : Kernel) (c : Cpu) : Untouched c (step fp rt k c).2 := by
  rcases step_rel fp rt k (R := Untouched) (fun _ => ⟨rfl, rfl⟩) (fun _ _ _ => .trans)
    (fun _ h => runPrim_untouched h) c with ⟨-, h⟩ | ⟨-, h⟩ | ⟨-, -, h⟩ | ⟨-, -, c1, v, hR, h⟩
  · rw [h]
    exact ⟨rfl, rfl⟩
  · rw [h]
    exact ⟨rfl, rfl⟩
  · exact h
  · rw [h]
    exact hR

/-- No address is that of an import, as where a table is installed that has none. -/
def NoImports (c : Cpu) : Prop := ∀ a, rsdStubIndex c.stubs a = none

/-- Without imports no native function is entered. -/
lemma step_not_native (fp : Fp) (rt : Runtime) (k : Kernel) {c : Cpu} (h : NoImports c) :
    (step fp rt k c).1.isNative = false := by
  have hcode : (stepCode fp k c).1.isNative = false := by
    unfold stepCode
    rw [Prog.bind_apply]
    generalize stepInsn fp c = x
    obtain ⟨⟨out, d⟩, c1⟩ := x
    cases out with
    | done => rfl
    | syscall =>
      show (sysStepOut (doSyscall k c1).1).isNative = false
      cases (doSyscall k c1).1 <;> rfl
  by_cases hcb : c.rip = callbackMagic
  · unfold step
    rw [if_pos hcb]
    rfl
  by_cases hret : c.rip = returnMagic
  · unfold step
    rw [if_neg hcb, if_pos hret]
    rfl
  rw [step_code fp rt k hcb hret (h c.rip)]
  split
  · exact hcode
  · rfl

lemma runHelper_untouched (fp : Fp) {h : Helper} {p : M (Option (BitVec 64))} {a1 a2 a3 a4 : BitVec 64} (c : Cpu)
    (hh : takesCpu h = true) (hp : runHelper fp a1 a2 a3 a4 h = some p) : Untouched c (p c).2 := by
  cases h with
  | ld =>
    obtain rfl := Option.some.inj hp
    exact (prim_untouched (.ld a1 a2.toNat) c).trans (noteHit_untouched ..)
  | st => cases hh
  | wlog => cases hh
  | ld128 => cases hh
  | st128 => cases hh
  | nanD => cases hh
  | nanS => cases hh
  | _ =>
    obtain rfl := Option.some.inj hp
    exact ⟨rfl, rfl⟩

/-- Nor does compiled code. -/
lemma untouched_effect (fp : Fp) (check : Bool) : Effect fp check fun _ => Untouched where
  scratch h := by
    obtain ⟨r, x, rip, t, rfl⟩ := h
    exact ⟨rfl, rfl⟩
  trans := .trans
  mono h _ := h
  routine := runHelper_untouched fp
  st a v size c _ := (prim_untouched (.st a v size) c).trans (noteHit_untouched ..)
  ld128 a c := prim_untouched (.ld128 a) c
  st128 a v c := prim_untouched (.st128 a v) c
  flags need word c _ := ⟨rfl, rfl⟩
  store a v size c _ := by
    cases check with
    | false => exact ⟨rfl, rfl⟩
    | true => exact ⟨rfl, rfl⟩

/-! ### Counting -/

section Counting

variable {env : Env} {aenv : A64Env} {oracle : Nat → Input} {i : Input} {s : Conf}

/-- Before the budget is used up the guest may run on; then it is less than a block past it. -/
def UnderBudget (env : Env) (c : Cpu) : Prop :=
  (c.running = true → c.icount.toNat < env.budget.toNat) ∧ c.icount.toNat < env.budget.toNat + maxInsns

/-- The states of a run that has a budget and no imports. -/
structure Budgeted (env : Env) (s : Conf) : Prop where
  jit : JitOk env.lk env.jitCheck s.jit
  mode : s.mode = .guest
  frames : s.frames = []
  stubs : NoImports s.cpu
  count : match s.base with
    | .main => UnderBudget env s.cpu
    | .replay _ n done => 2 ≤ n ∧ n ≤ maxInsns ∧ done ≤ n ∧ s.cpu.icount.toNat < env.budget.toNat

/-- The transitions that are left, when `n` instructions have been counted. -/
def left (env : Env) (n : Nat) : Nat := if n < env.budget.toNat then 2 * (env.budget.toNat - n) + maxInsns else 0

/-- The transitions that are left at most. -/
def leftAt (env : Env) (s : Conf) : Nat :=
  match s.base with
  | .main => if s.cpu.running then left env s.cpu.icount.toNat else 0
  | .replay _ n done => (n - done) + 1 + left env (s.cpu.icount.toNat + n)

lemma left_succ {n : Nat} (h : n < env.budget.toNat) : left env (n + 1) < left env n := by
  have hmax : maxInsns = 48 := rfl
  unfold left
  rw [if_pos h]
  split <;> omega

/-- A block is worth the transitions of its replay. -/
lemma left_block (env : Env) {m n : Nat} (h : m < env.budget.toNat) (hn : 2 ≤ n) (hmax : n ≤ maxInsns) :
    n + 1 + left env (m + n) < left env m := by
  have hlast : maxInsns = 48 := rfl
  unfold left
  rw [if_pos h]
  split <;> omega

lemma toNat_count {c : Cpu} (hsmall : env.budget.toNat + maxInsns ≤ 2 ^ 64) {n : Nat}
    (h : c.icount.toNat < env.budget.toNat)
    (hn : n ≤ maxInsns) : (c.icount + BitVec.ofNat 64 n).toNat = c.icount.toNat + n := by
  have hmax : maxInsns = 48 := rfl
  rw [BitVec.toNat_add, BitVec.toNat_ofNat]
  omega

/-- The budget is looked at after a block. -/
lemma budgetAfterBlock_under (hbudget : env.budget ≠ 0) {c : Cpu} (h : c.icount.toNat < env.budget.toNat + maxInsns) :
    UnderBudget env (budgetAfterBlock env c) ∧ (budgetAfterBlock env c).stubs = c.stubs ∧
      ((budgetAfterBlock env c).running = true → (budgetAfterBlock env c).icount = c.icount) := by
  unfold budgetAfterBlock
  split
  · exact ⟨⟨nofun, h⟩, rfl, nofun⟩
  · next hno =>
    refine ⟨⟨fun _ => ?_, h⟩, rfl, fun _ => rfl⟩
    have hlt : ¬ env.budget ≤ c.icount := fun hle => hno ⟨hbudget, hle⟩
    exact Nat.not_le.mp hlt

/-- One instruction more, of which the main loop or a replay takes note. -/
lemma interp_budgeted (hbudget : env.budget ≠ 0) (hsmall : env.budget.toNat + maxInsns ≤ 2 ^ 64) (h : Budgeted env s)
    (hgo : match s.base with | .main => s.cpu.running = true | .replay _ n done => done < n) :
    Budgeted env (interp env i s) ∧ leftAt env (interp env i s) < leftAt env s := by
  obtain ⟨hcount, hstubs⟩ := step_untouched env.fp env.rt i.kernel s.cpu
  rcases interp_cases env i s with ⟨hnat, -⟩ | ⟨-, a, heq⟩
  · exact absurd ((step_not_native env.fp env.rt i.kernel h.stubs).symm.trans hnat) nofun
  rw [heq]
  unfold afterStep stepped
  generalize (step env.fp env.rt i.kernel s.cpu).2 = c at hcount hstubs
  have hnone : NoImports c := fun a => hstubs ▸ h.stubs a
  cases hbase : s.base with
  | main =>
    have hc := h.count
    rw [hbase] at hc hgo
    have hlt := hc.1 hgo
    have hone := toNat_count hsmall hlt (n := 1) (by decide)
    have hmax : maxInsns = 48 := rfl
    have hleft : leftAt env s = left env s.cpu.icount.toNat := by
      unfold leftAt
      rw [hbase]
      exact if_pos hgo
    have hsucc := left_succ hlt
    simp only [h.frames]
    rw [hleft]
    split
    · next hfull =>
      refine ⟨⟨h.jit, h.mode, rfl, hnone, ⟨nofun, ?_⟩⟩, ?_⟩
      · show (c.icount + 1).toNat < _
        rw [hcount]
        exact hone ▸ by omega
      · exact Nat.lt_of_le_of_lt (Nat.zero_le _) hsucc
    · next hno =>
      have hne : (s.cpu.icount + 1).toNat ≠ env.budget.toNat := fun he =>
        hno ⟨hcount ▸ BitVec.eq_of_toNat_eq he, hbudget⟩
      have hone' : (s.cpu.icount + 1).toNat = s.cpu.icount.toNat + 1 := hone
      refine ⟨⟨h.jit, h.mode, rfl, hnone, ⟨fun _ => ?_, ?_⟩⟩, ?_⟩
      · show (c.icount + 1).toNat < _
        rw [hcount]
        omega
      · show (c.icount + 1).toNat < _
        rw [hcount]
        omega
      · show (if c.running then left env (c.icount + 1).toNat else 0) < _
        rw [hcount, hone']
        split
        · exact hsucc
        · exact Nat.lt_of_le_of_lt (Nat.zero_le _) hsucc
  | replay k n done =>
    have hc := h.count
    rw [hbase] at hc hgo
    simp only [h.frames]
    refine ⟨⟨h.jit, h.mode, rfl, hnone, hc.1, hc.2.1, hgo, hcount ▸ hc.2.2.2⟩, ?_⟩
    have hleft : leftAt env s = (n - done) + 1 + left env (s.cpu.icount.toNat + n) := by
      unfold leftAt
      rw [hbase]
    rw [hleft]
    show (n - (done + 1)) + 1 + left env (c.icount.toNat + n) < _
    rw [hcount]
    have hlt : done < n := hgo
    omega

/-- A block counts as many instructions as it has, or the replay that checks it begins. -/
lemma block_budgeted (henter : Enters env aenv) (hbudget : env.budget ≠ 0) (hsmall : env.budget.toNat + maxInsns ≤ 2 ^ 64)
    (h : Budgeted env s) (hbase : s.base = .main) (hrun : s.cpu.running = true) {code : List A64} {n : Nat}
    (hcomp : Compiled env.lk env.jitCheck code n) :
    Budgeted env (block env code n s) ∧ leftAt env (block env code n s) < leftAt env s := by
  have hc := h.count
  rw [hbase] at hc
  have hlt := hc.1 hrun
  have hleft : leftAt env s = left env s.cpu.icount.toNat := by
    unfold leftAt
    rw [hbase]
    exact if_pos hrun
  obtain ⟨hn, hcount, hstubs⟩ := henter.compiled (untouched_effect env.fp env.jitCheck) hcomp s.cpu
  have hblock := left_block env hlt hcomp.two_le hn
  rw [hleft]
  unfold block
  split
  · refine ⟨⟨h.jit, h.mode, h.frames, h.stubs, hcomp.two_le, hn, Nat.zero_le n, hlt⟩, ?_⟩
    exact hblock
  · have htotal := toNat_count hsmall hlt hn
    obtain ⟨hunder, hst, hic⟩ := budgetAfterBlock_under hbudget
      (c := { (env.enter code s.cpu).2 with
        rip := (env.enter code s.cpu).1, icount := (env.enter code s.cpu).2.icount + BitVec.ofNat 64 n })
      (by simp only [hcount, htotal]; omega)
    refine ⟨⟨h.jit, h.mode, h.frames, fun a => (congrArg (rsdStubIndex · a) (hst.trans hstubs)).trans (h.stubs a), ?_⟩, ?_⟩
    · simp only [hbase]
      exact hunder
    · unfold leftAt
      simp only [hbase]
      split
      · next hgo =>
        rw [hic hgo]
        simp only [hcount, htotal]
        omega
      · omega

lemma endReplay_budgeted (hbudget : env.budget ≠ 0) (hsmall : env.budget.toNat + maxInsns ≤ 2 ^ 64) (h : Budgeted env s)
    {k : Check} {n done : Nat} (hbase : s.base = .replay k n done) :
    Budgeted env (endReplay env k n s) ∧ leftAt env (endReplay env k n s) < leftAt env s := by
  have hc := h.count
  rw [hbase] at hc
  obtain ⟨-, hn, -, hlt⟩ := hc
  have hleft : leftAt env s = (n - done) + 1 + left env (s.cpu.icount.toNat + n) := by
    unfold leftAt
    rw [hbase]
  have htotal := toNat_count hsmall hlt hn
  rw [hleft]
  unfold endReplay finishCheck
  simp only
  split
  · next hok =>
    split at hok
    swap
    · cases hok
    obtain rfl := (Prod.mk.inj hok).2
    obtain ⟨hunder, hst, hic⟩ := budgetAfterBlock_under hbudget
      (c := { s.cpu with wlog := none, icount := s.cpu.icount + BitVec.ofNat 64 n }) (by simp only [htotal]; omega)
    refine ⟨⟨h.jit, h.mode, h.frames, fun a => (congrArg (rsdStubIndex · a) hst).trans (h.stubs a), hunder⟩, ?_⟩
    unfold leftAt
    simp only
    split
    · next hgo =>
      rw [hic hgo]
      simp only [htotal]
      omega
    · omega
  · next hno =>
    split at hno
    · cases hno
    obtain rfl := (Prod.mk.inj hno).2
    refine ⟨⟨h.jit, h.mode, h.frames, h.stubs, ?_, ?_⟩, ?_⟩
    · intro hgo
      cases hgo
    · exact Nat.lt_of_lt_of_le hlt (Nat.le_add_right ..)
    · exact Nat.lt_of_lt_of_le (Nat.succ_pos _) (Nat.le_add_right ..)

/-- Every transition keeps within the budget, and before the end it leaves fewer transitions. -/
lemma next_budgeted (henter : Enters env aenv) (hbudget : env.budget ≠ 0) (hsmall : env.budget.toNat + maxInsns ≤ 2 ^ 64)
    (h : Budgeted env s) :
    Budgeted env (next env i s) ∧ (¬ s.ended → leftAt env (next env i s) < leftAt env s) := by
  cases hbase : s.base with
  | main =>
    by_cases hrun : s.cpu.running = true
    · have hnext : next env i s = dispatch env i s := by
        simp only [next, h.mode, h.frames, hbase, hrun, if_true]
      rw [hnext]
      obtain ⟨j, hj, heq | ⟨code, n, hcomp, heq⟩⟩ := dispatch_cases env i s h.jit
      · rw [heq]
        have hgo : match s.base with | .main => s.cpu.running = true | .replay _ n done => done < n := by
          rw [hbase]
          exact hrun
        obtain ⟨hkeep, hless⟩ := interp_budgeted (i := i) (s := { s with jit := j }) hbudget hsmall
          ⟨hj, h.mode, h.frames, h.stubs, h.count⟩ hgo
        exact ⟨hkeep, fun _ => hless⟩
      · rw [heq]
        obtain ⟨hkeep, hless⟩ := block_budgeted (s := { s with jit := j }) henter hbudget hsmall
          ⟨hj, h.mode, h.frames, h.stubs, h.count⟩ hbase hrun hcomp
        exact ⟨hkeep, fun _ => hless⟩
    · have hnext : next env i s = s := by
        simp only [next, h.mode, h.frames, hbase]
        exact if_neg hrun
      rw [hnext]
      refine ⟨h, fun hend => absurd ⟨h.mode, h.frames, ?_, Bool.eq_false_iff.mpr hrun⟩ hend⟩
      rw [hbase]
  | replay k n done =>
    by_cases hgo : done < n ∧ s.cpu.running = true
    · have hnext : next env i s = interp env i s := by
        simp only [next, h.mode, h.frames, hbase]
        exact if_pos hgo
      rw [hnext]
      have hlt : match s.base with | .main => s.cpu.running = true | .replay _ n done => done < n := by
        rw [hbase]
        exact hgo.1
      obtain ⟨hkeep, hless⟩ := interp_budgeted (i := i) hbudget hsmall h hlt
      exact ⟨hkeep, fun _ => hless⟩
    · have hnext : next env i s = endReplay env k n s := by
        simp only [next, h.mode, h.frames, hbase]
        exact if_neg hgo
      rw [hnext]
      obtain ⟨hkeep, hless⟩ := endReplay_budgeted hbudget hsmall h hbase
      exact ⟨hkeep, fun _ => hless⟩

lemma budgeted_winds (henter : Enters env aenv) (hbudget : env.budget ≠ 0)
    (hsmall : env.budget.toNat + maxInsns ≤ 2 ^ 64) :
    Winds (advance env oracle) ended (Budgeted env) (leftAt env) where
  keep _ h := (next_budgeted henter hbudget hsmall h).1
  less _ h hend := (next_budgeted henter hbudget hsmall h).2 hend
  stays s h := by
    rw [ended_advance h]
    exact h

/-- Whatever the program does, a run that has a budget and no imports counts less than a block past it and
ends, interpreted or compiled and checked or not. -/
theorem budget_ends_compiled (henter : Enters env aenv) (hbudget : env.budget ≠ 0)
    (hsmall : env.budget.toNat + maxInsns ≤ 2 ^ 64) {j : Option Jit} (hj : JitOk env.lk env.jitCheck j)
      (oracle : Nat → Input)
    {c : Cpu} (hstubs : ∀ a, rsdStubIndex c.stubs a = none) (hzero : c.icount = 0) :
    (∀ n, (run env oracle n (Conf.start c j)).cpu.icount.toNat < env.budget.toNat + maxInsns) ∧
      ∀ n, 2 * env.budget.toNat + maxInsns ≤ n → (run env oracle n (Conf.start c j)).ended := by
  have hpos : 0 < env.budget.toNat := Nat.pos_of_ne_zero fun he => hbudget (BitVec.eq_of_toNat_eq he)
  have hstart : Budgeted env (Conf.start c j) := by
    refine ⟨hj, rfl, rfl, hstubs, fun _ => ?_, ?_⟩
    · show c.icount.toNat < _
      rw [hzero]
      exact hpos
    · show c.icount.toNat < _
      rw [hzero]
      exact Nat.lt_of_lt_of_le hpos (Nat.le_add_right ..)
  refine ⟨fun n => ?_, fun n hn => ?_⟩
  · obtain ⟨-, -, -, -, hc⟩ :=
      run_keeps (I := Budgeted env) (fun _ _ h => (next_budgeted henter hbudget hsmall h).1) hstart n
    split at hc
    · exact hc.2
    · exact Nat.lt_of_lt_of_le hc.2.2.2 (Nat.le_add_right ..)
  · rw [run_eq_iterate]
    refine (budgeted_winds henter hbudget hsmall).ends hstart (Nat.le_trans ?_ hn)
    show (if c.running then left env c.icount.toNat else 0) ≤ _
    rw [hzero]
    split
    · unfold left
      split
      · exact Nat.le_refl _
      · exact Nat.zero_le _
    · exact Nat.zero_le _

end Counting

/-- Blocks are compiled, but not checked. -/
def fiveEnv : Env := { fallEnv with budget := 5, jitCheck := false }

lemma fiveEnv_enters : Enters fiveEnv sampleA64 := ⟨rfl, rfl, fallEnv_enters.enter⟩

/-- A table of stubs that has no imports is installed. -/
def tableCpu : Cpu := { nopCpu with stubs := some ⟨0, 0, fun _ => false, fun _ => -1, fun _ => false, fun _ => none⟩ }

lemma tableCpu_stubs (a : BitVec 64) : rsdStubIndex tableCpu.stubs a = none := by
  simp [rsdStubIndex, tableCpu]

/-- A page of `nop` and a budget that is used up within the first block. -/
theorem budget_ends_compiled_nops :
    (∀ n, (run fiveEnv (fun _ => fallInput) n (Conf.start tableCpu (some rsdJitInit))).cpu.icount.toNat < 5 + 48) ∧
      ∀ n, 2 * 5 + 48 ≤ n → (run fiveEnv (fun _ => fallInput) n (Conf.start tableCpu (some rsdJitInit))).ended :=
  budget_ends_compiled fiveEnv_enters (by decide) (by decide) cacheOk_init.some (fun _ => fallInput)
    tableCpu_stubs rfl

end Rashid.Proofs
