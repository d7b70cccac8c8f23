import Rashid.Proofs.Stops

/-!
# The instruction budget

With the compiler off, the main loop compares the count with the budget after each of its own
steps. The loop around a callback counts too but does not look, so the budget holds as long as
no callback runs into it.
-/

namespace Rashid.Proofs

open Conf

/-- Steps that have been started and not yet counted: one for each native call in progress. -/
def pending (s : Conf) : Nat := s.frames.length + (if s.mode = .native then 1 else 0)

lemma pending_guest {s : Conf} (h : s.mode = .guest) : pending s = s.frames.length := by
  rw [pending, h]
  rfl

lemma pending_native {s : Conf} (h : s.mode = .native) : pending s = s.frames.length + 1 := by
  rw [pending, h]
  rfl

/-- One of the main loop's own steps, finished with `c`, and how it ended. -/
def EndsAlive (s : Conf) (exit : Bool) (c : Cpu) (budget : BitVec 64) : Prop :=
  s.frames = [] → s.cpu.icount + 1 = budget → exit = false ∧ c.fault = none

/-- The steps on which the budget is kept: a callback runs only while there is some left and
does not exit, the guest does not stop itself at the callback's return address, and the step
that uses the budget up does not end the guest as well. -/
structure WithinBudget (env : Env) (i : Input) (s : Conf) : Prop where
  callback : s.mode = .guest → s.frames ≠ [] → s.cpu.running = true →
    s.steps < env.budget.toNat ∧ (step env.fp env.rt i.kernel s.cpu).1.isExit = false
  magic : s.mode = .guest → s.frames = [] → s.cpu.running = true → s.cpu.rip ≠ callbackMagic
  lastStep : s.mode = .guest → s.cpu.running = true →
    EndsAlive s (step env.fp env.rt i.kernel s.cpu).1.isExit (step env.fp env.rt i.kernel s.cpu).2 env.budget
  lastCall : s.mode = .native → ∀ r, i.act = .ret r → EndsAlive s false (finishNativeCall r s.cpu).2 env.budget

/-- What holds between the transitions of a run with the compiler off. -/
structure BudgetInv (budget : BitVec 64) (s : Conf) : Prop where
  jit : s.jit = none
  base : s.base = .main
  steps : s.steps = s.cpu.icount.toNat + pending s
  bound : s.steps ≤ budget.toNat
  room : s.mode = .guest → s.frames = [] → s.cpu.running = true → s.steps < budget.toNat
  exited : s.exited = true → s.mode = .guest ∧ s.frames = [] ∧ s.cpu.running = false
  faulted : s.faulted = true → s.cpu.fault ≠ none
  budget : s.cpu.fault = some .budget → s.mode = .guest ∧ s.frames = [] ∧ s.cpu.running = false ∧
    s.exited = false ∧ s.faulted = false
  native : s.mode = .native → s.cpu.running = false → s.cpu.fault ≠ none
  stopped : s.mode = .guest → s.frames = [] → s.cpu.running = false →
    s.cpu.fault = some .budget ∨ s.faulted = true ∨ s.exited = true

/-- A step of the guest that is through but for what the loop around it does. -/
structure Finished (budget : BitVec 64) (s : Conf) : Prop where
  jit : s.jit = none
  base : s.base = .main
  mode : s.mode = .guest
  steps : s.steps = s.cpu.icount.toNat + s.frames.length + 1
  bound : s.steps ≤ budget.toNat
  exited : s.exited = true → s.frames = [] ∧ s.cpu.running = false
  faulted : s.faulted = true → s.cpu.fault ≠ none
  fault : s.cpu.fault ≠ some .budget
  stopped : s.frames = [] → s.cpu.running = false → s.cpu.fault ≠ none ∨ s.exited = true
  alive : s.frames = [] → s.cpu.icount + 1 = budget → s.exited = false ∧ s.cpu.fault = none

section AfterStep

variable {env : Env} {s : Conf}

lemma icount_succ (h : Finished env.budget s) : (s.cpu.icount + 1).toNat = s.cpu.icount.toNat + 1 := by
  have hs := h.steps
  have hb := h.bound
  have hN := env.budget.isLt
  rw [BitVec.toNat_add]
  exact Nat.mod_eq_of_lt (by rw [show (1 : BitVec 64).toNat = 1 from rfl]; omega)

lemma afterStep_callback (h : Finished env.budget s) (hf : s.frames ≠ []) :
    BudgetInv env.budget (afterStep env s) := by
  obtain ⟨f, rest, hfr⟩ := List.exists_cons_of_ne_nil hf
  have heq : afterStep env s = { s with
      faulted := s.faulted || s.cpu.fault.isSome, cpu := { s.cpu with icount := s.cpu.icount + 1 } } := by
    simp only [afterStep, hfr]
  have hcnt := icount_succ h
  rw [heq]
  refine ⟨h.jit, h.base, ?_, h.bound, fun _ h0 => absurd h0 hf, fun he => absurd (h.exited he).1 hf, ?_,
    fun hb => absurd hb h.fault, fun hm => ?_, fun _ h0 => absurd h0 hf⟩
  · have hs := h.steps
    rw [pending_guest]
    · show s.steps = (s.cpu.icount + 1).toNat + s.frames.length
      omega
    · exact h.mode
  · intro hfl
    rcases Bool.or_eq_true_iff.mp hfl with hfl | hfl
    · exact h.faulted hfl
    · exact Option.isSome_iff_ne_none.mp hfl
  · exact absurd (h.mode.symm.trans hm) (by decide)

lemma afterStep_main (h : Finished env.budget s) (hf : s.frames = []) (hN : env.budget ≠ 0) :
    BudgetInv env.budget (afterStep env s) := by
  have hcnt := icount_succ h
  have hs := h.steps
  have hlen : s.frames.length = 0 := by rw [hf]; rfl
  have hflag (hfl : (s.faulted || s.cpu.fault.isSome) = true) : s.cpu.fault ≠ none := by
    rcases Bool.or_eq_true_iff.mp hfl with hfl | hfl
    · exact h.faulted hfl
    · exact Option.isSome_iff_ne_none.mp hfl
  by_cases hlast : s.cpu.icount + 1 = env.budget
  · obtain ⟨hex, hnone⟩ := h.alive hf hlast
    have heq : afterStep env s = { s with
        faulted := s.faulted || s.cpu.fault.isSome, cpu := exhaust { s.cpu with icount := s.cpu.icount + 1 } } := by
      simp only [afterStep, hf, h.base, if_pos (And.intro hlast hN)]
    have hfl : (s.faulted || s.cpu.fault.isSome) = false := by
      by_contra hc
      exact hflag (Bool.not_eq_false _ ▸ hc) hnone
    rw [heq]
    refine ⟨h.jit, h.base, ?_, h.bound, fun _ _ hr => Bool.noConfusion hr, fun he => ?_, fun he => ?_,
      fun _ => ⟨h.mode, hf, rfl, hex, hfl⟩, fun _ _ => Option.some_ne_none _, fun _ _ _ => .inl rfl⟩
    · rw [pending_guest]
      · show s.steps = (s.cpu.icount + 1).toNat + s.frames.length
        omega
      · exact h.mode
    · exact absurd (hex.symm.trans he) Bool.false_ne_true
    · exact absurd (hfl.symm.trans he) Bool.false_ne_true
  · have heq : afterStep env s = { s with
        faulted := s.faulted || s.cpu.fault.isSome, cpu := { s.cpu with icount := s.cpu.icount + 1 } } := by
      simp only [afterStep, hf, h.base, hlast, false_and, if_false]
    have hlt : s.cpu.icount.toNat + 1 < env.budget.toNat := by
      have hb := h.bound
      have hne : s.cpu.icount.toNat + 1 ≠ env.budget.toNat := by
        intro hc
        exact hlast (BitVec.eq_of_toNat_eq (hcnt.trans hc))
      omega
    rw [heq]
    refine ⟨h.jit, h.base, ?_, h.bound, fun _ _ _ => ?_, fun he => ⟨h.mode, h.exited he⟩, hflag,
      fun hb => absurd hb h.fault, fun hm => ?_, fun _ _ hr => ?_⟩
    · rw [pending_guest]
      · show s.steps = (s.cpu.icount + 1).toNat + s.frames.length
        omega
      · exact h.mode
    · show s.steps < _
      omega
    · exact absurd (h.mode.symm.trans hm) (by decide)
    · rcases h.stopped hf hr with hfn | he
      · refine .inr (.inl ?_)
        exact Bool.or_eq_true_iff.mpr (.inr (Option.isSome_iff_ne_none.mpr hfn))
      · exact .inr (.inr he)

lemma afterStep_inv (h : Finished env.budget s) (hN : env.budget ≠ 0) : BudgetInv env.budget (afterStep env s) := by
  by_cases hf : s.frames = []
  · exact afterStep_main h hf hN
  · exact afterStep_callback h hf

end AfterStep

section Transitions

variable {env : Env} {i : Input} {s : Conf}

lemma alive_of_running (h : BudgetInv env.budget s) (hr : s.cpu.running = true) :
    s.exited = false ∧ s.cpu.fault ≠ some .budget := by
  refine ⟨Bool.eq_false_iff.mpr fun he => ?_, fun hb => ?_⟩
  · exact absurd ((h.exited he).2.2.symm.trans hr) Bool.false_ne_true
  · exact absurd ((h.budget hb).2.2.1.symm.trans hr) Bool.false_ne_true

lemma interp_inv (h : BudgetInv env.budget s) (hw : WithinBudget env i s) (hN : env.budget ≠ 0)
    (hm : s.mode = .guest) (hr : s.cpu.running = true) : BudgetInv env.budget (interp env i s) := by
  obtain ⟨hex, hnb⟩ := alive_of_running h hr
  have hst := step_stops env.fp env.rt i.kernel s.cpu
  have hlt : s.steps < env.budget.toNat := by
    by_cases hf : s.frames = []
    · exact h.room hm hf hr
    · exact (hw.callback hm hf hr).1
  have hcount : s.steps = s.cpu.icount.toNat + s.frames.length := pending_guest hm ▸ h.steps
  have hexit : (s.exited || (step env.fp env.rt i.kernel s.cpu).1.isExit) =
      (step env.fp env.rt i.kernel s.cpu).1.isExit := by rw [hex]; rfl
  rcases interp_cases env i s with ⟨hnat, heq⟩ | ⟨hnat, a, heq⟩
  · have hne : (step env.fp env.rt i.kernel s.cpu).1.isExit = false := by
      cases ho : (step env.fp env.rt i.kernel s.cpu).1 <;> simp_all [StepOut.isNative, StepOut.isExit]
    rw [heq]
    refine ⟨h.jit, h.base, ?_, hlt, fun hc => Mode.noConfusion hc, fun he => ?_, fun hf => ?_, fun hb => ?_,
      fun _ hrf => ?_, fun hc => Mode.noConfusion hc⟩
    · rw [pending_native rfl]
      show s.steps + 1 = (step env.fp env.rt i.kernel s.cpu).2.icount.toNat + (s.frames.length + 1)
      rw [hst.icount]
      omega
    · exact absurd ((hexit.trans hne).symm.trans he) Bool.false_ne_true
    · exact hst.fault.isSome (h.faulted hf)
    · exact absurd hb (hst.fault.ne_budget hnb)
    · rcases hst.running with hrun | ⟨-, hfn | hx | ⟨-, hd⟩⟩
      · exact absurd (hrf.symm.trans (hrun.trans hr)) Bool.false_ne_true
      · exact hfn
      · rw [hne] at hx
        cases hx
      · rw [hd] at hnat
        cases hnat
  · rw [heq]
    refine afterStep_inv ⟨h.jit, h.base, hm, ?_, hlt, fun he => ?_, fun hf => hst.fault.isSome (h.faulted hf),
      hst.fault.ne_budget hnb, fun hf hrf => ?_, fun hf hl => ?_⟩ hN
    · show s.steps + 1 = (step env.fp env.rt i.kernel s.cpu).2.icount.toNat + s.frames.length + 1
      rw [hst.icount]
      omega
    · have hx : (step env.fp env.rt i.kernel s.cpu).1.isExit = true := hexit ▸ he
      have hf : s.frames = [] := by
        by_contra hf
        exact absurd ((hw.callback hm hf hr).2.symm.trans hx) Bool.false_ne_true
      exact ⟨hf, step_exit_stops env.fp env.rt i.kernel s.cpu hx⟩
    · rcases hst.running with hrun | ⟨-, hfn | hx | ⟨hmag, -⟩⟩
      · exact absurd (hrf.symm.trans (hrun.trans hr)) Bool.false_ne_true
      · exact .inl hfn
      · exact .inr (hexit.trans hx)
      · exact absurd hmag (hw.magic hm hf hr)
    · obtain ⟨hx, hfn⟩ := hw.lastStep hm hr hf (hst.icount ▸ hl)
      exact ⟨hexit.trans hx, hfn⟩

lemma alive_of_native (h : BudgetInv env.budget s) (hm : s.mode = .native) :
    s.exited = false ∧ s.cpu.fault ≠ some .budget := by
  refine ⟨Bool.eq_false_iff.mpr fun he => ?_, fun hb => ?_⟩
  · exact absurd ((h.exited he).1.symm.trans hm) (by decide)
  · exact absurd ((h.budget hb).1.symm.trans hm) (by decide)

lemma callback_inv (h : BudgetInv env.budget s) (hm : s.mode = .native) (target : BitVec 64) (x d : List (BitVec 64))
    (a : Nat) : BudgetInv env.budget { s with
      cpu := (enterCallback target x d s.cpu).2, frames := s.cpu.frame :: s.frames, mode := .guest, asked := a } := by
  obtain ⟨hex, hnb⟩ := alive_of_native h hm
  obtain ⟨hcnt, hfk, hrun⟩ := enterCallback_stops target x d s.cpu
  have hs := h.steps
  rw [pending_native hm] at hs
  refine ⟨h.jit, h.base, ?_, h.bound, fun _ hf => absurd hf (List.cons_ne_nil _ _), fun he => ?_,
    fun hf => hfk.isSome (h.faulted hf),
    fun hb => absurd hb (hfk.ne_budget hnb), fun hc => Mode.noConfusion hc, fun _ hf => absurd hf (List.cons_ne_nil _ _)⟩
  · rw [pending_guest rfl]
    show s.steps = (enterCallback target x d s.cpu).2.icount.toNat + (s.frames.length + 1)
    rw [hcnt]
    exact hs
  · exact absurd (hex.symm.trans he) Bool.false_ne_true

lemma nativeAct_inv (h : BudgetInv env.budget s) (hw : WithinBudget env i s) (hN : env.budget ≠ 0)
    (hm : s.mode = .native) : BudgetInv env.budget (nativeAct env i.act s) := by
  obtain ⟨hex, hnb⟩ := alive_of_native h hm
  have hs := h.steps
  rw [pending_native hm] at hs
  unfold nativeAct
  cases hact : i.act with
  | callback index x d =>
    simp only
    split
    · exact ⟨h.jit, h.base, h.steps, h.bound, h.room, h.exited, h.faulted, h.budget, h.native, h.stopped⟩
    · exact callback_inv h hm _ x d (s.asked + 1)
  | write a bytes =>
    exact ⟨h.jit, h.base, h.steps, h.bound, h.room, h.exited, h.faulted, h.budget, h.native, h.stopped⟩
  | ret r =>
    have hq := finishNativeCall_quiet r s.cpu
    refine afterStep_inv ⟨h.jit, h.base, rfl, ?_, h.bound, fun he => ?_, fun hf => hq.fault.isSome (h.faulted hf),
      hq.fault.ne_budget hnb, fun _ hrf => ?_, fun hf hl => ?_⟩ hN
    · show s.steps = (finishNativeCall r s.cpu).2.icount.toNat + s.frames.length + 1
      rw [hq.icount]
      omega
    · exact absurd (hex.symm.trans he) Bool.false_ne_true
    · rcases hq.running with hrun | ⟨-, hfn⟩
      · exact .inl (hq.fault.isSome (h.native hm (hrun.symm.trans hrf)))
      · exact .inl hfn
    · exact ⟨hex, (hw.lastCall hm r hact hf (hq.icount ▸ hl)).2⟩

lemma leave_inv (h : BudgetInv env.budget s) (hm : s.mode = .guest) {f : Frame} {rest : List Frame}
    (hf : s.frames = f :: rest) :
    BudgetInv env.budget { s with cpu := leaveCallback f s.cpu, frames := rest, mode := .native } := by
  have hne : s.frames ≠ [] := by
    rw [hf]
    exact List.cons_ne_nil f rest
  have hs := h.steps
  rw [pending_guest hm, hf] at hs
  refine ⟨h.jit, h.base, ?_, h.bound, fun hc => Mode.noConfusion hc, fun he => absurd (h.exited he).2.1 hne,
    h.faulted, fun hb => absurd (h.budget hb).2.1 hne, fun _ hr => ?_, fun hc => Mode.noConfusion hc⟩
  · rw [pending_native rfl]
    exact hs
  · exact Option.isSome_iff_ne_none.mp (Option.isNone_eq_false_iff.mp hr)

/-- One transition. -/
lemma next_inv (h : BudgetInv env.budget s) (hw : WithinBudget env i s) (hN : env.budget ≠ 0) :
    BudgetInv env.budget (next env i s) := by
  unfold next
  cases hm : s.mode with
  | native => exact nativeAct_inv h hw hN hm
  | guest =>
    simp only
    cases hf : s.frames with
    | nil =>
      simp only [h.base]
      split
      · next hr =>
        unfold dispatch
        rw [h.jit]
        exact interp_inv h hw hN hm hr
      · exact h
    | cons f rest =>
      simp only
      split
      · next hr => exact interp_inv h hw hN hm hr
      · exact leave_inv h hm hf

lemma run_budgetInv (oracle : Nat → Input) (hN : env.budget ≠ 0) (n : Nat) (h : BudgetInv env.budget s)
    (hw : ∀ k, WithinBudget env (oracle (run env oracle k s).asked) (run env oracle k s)) :
    BudgetInv env.budget (run env oracle n s) := by
  induction n generalizing s with
  | zero => exact h
  | succ n ih => exact ih (next_inv h (hw 0) hN) fun k => hw (k + 1)

end Transitions

lemma start_budgetInv {budget : BitVec 64} (hN : budget ≠ 0) {c : Cpu} (hrun : c.running = true)
    (hcount : c.icount = 0) (hfault : c.fault = none) : BudgetInv budget (start c none) := by
  have hpos : 0 < budget.toNat := by
    rcases Nat.eq_zero_or_pos budget.toNat with h0 | hpos
    · exact absurd (BitVec.eq_of_toNat_eq h0) hN
    · exact hpos
  refine ⟨rfl, rfl, ?_, Nat.zero_le _, fun _ _ _ => hpos, fun he => absurd he Bool.false_ne_true,
    fun he => absurd he Bool.false_ne_true, fun hb => ?_, fun hm => Mode.noConfusion hm, fun _ _ hr => ?_⟩
  · show 0 = c.icount.toNat + pending (start c none)
    rw [hcount]
    rfl
  · exact absurd (hfault.symm.trans hb) (by simp)
  · exact absurd (hr.symm.trans hrun) Bool.false_ne_true

/-- As long as no callback runs into the budget or exits, and the last step the budget allows
does not end the guest itself, at most that many steps are made, and the run ends with the
budget's fault exactly when the guest has neither exited nor faulted in them. -/
theorem budget_respected (env : Env) (oracle : Nat → Input) (c : Cpu) (hN : env.budget ≠ 0)
    (hrun : c.running = true) (hcount : c.icount = 0) (hfault : c.fault = none)
    (hw : ∀ k, WithinBudget env (oracle (run env oracle k (start c none)).asked) (run env oracle k (start c none)))
    (n : Nat) :
    (run env oracle n (start c none)).steps ≤ env.budget.toNat ∧
      ((run env oracle n (start c none)).ended →
        ((run env oracle n (start c none)).cpu.fault = some .budget ↔
          (run env oracle n (start c none)).exited = false ∧ (run env oracle n (start c none)).faulted = false)) := by
  have h := run_budgetInv oracle hN n (start_budgetInv hN hrun hcount hfault) hw
  refine ⟨h.bound, fun hover => ⟨fun hb => (h.budget hb).2.2.2, fun ⟨hex, hfl⟩ => ?_⟩⟩
  obtain ⟨hm, hf, -, hr⟩ := hover
  rcases h.stopped hm hf hr with hb | hx | hx
  · exact hb
  · exact absurd (hfl.symm.trans hx) Bool.false_ne_true
  · exact absurd (hex.symm.trans hx) Bool.false_ne_true

/-- One `nop` on a budget of one. -/
theorem budget_respected_nop :
    (run (sampleEnv 1) callsBack 1 (start nopCpu none)).steps ≤ 1 ∧
      ((run (sampleEnv 1) callsBack 1 (start nopCpu none)).ended →
        ((run (sampleEnv 1) callsBack 1 (start nopCpu none)).cpu.fault = some .budget ↔
          (run (sampleEnv 1) callsBack 1 (start nopCpu none)).exited = false ∧
          (run (sampleEnv 1) callsBack 1 (start nopCpu none)).faulted = false)) := by
  refine budget_respected (sampleEnv 1) callsBack nopCpu (by decide) rfl rfl rfl (fun k => ?_) 1
  have hover : (run (sampleEnv 1) callsBack 1 (start nopCpu none)).ended :=
    ⟨by decide, by decide, by decide, by decide⟩
  cases k with
  | zero =>
    refine ⟨fun _ hf => absurd rfl hf, fun _ _ _ => by decide, fun _ _ _ _ => ?_, fun hm => Mode.noConfusion hm⟩
    exact ⟨by decide, by decide⟩
  | succ k =>
    rw [show run (sampleEnv 1) callsBack (k + 1) (start nopCpu none) =
      run (sampleEnv 1) callsBack k (run (sampleEnv 1) callsBack 1 (start nopCpu none)) from rfl,
      run_over callsBack hover]
    obtain ⟨hm, hf, -, hr⟩ := hover
    refine ⟨fun _ hne => absurd hf hne, fun _ _ hrun => ?_, fun _ hrun => ?_, fun hn => ?_⟩
    · exact absurd (hr.symm.trans hrun) Bool.false_ne_true
    · exact absurd (hr.symm.trans hrun) Bool.false_ne_true
    · exact absurd (hm.symm.trans hn) (by decide)

/-- On a budget of one, the guest calls a native function, which calls a guest function of two
instructions and more. Both are executed. -/
theorem callback_overruns_budget :
    (sampleEnv 1).budget = 1 ∧ ∃ n, 1 < (run (sampleEnv 1) callsBack n (start (stubCpu fun _ => 0x90) none)).steps ∧
      (run (sampleEnv 1) callsBack n (start (stubCpu fun _ => 0x90) none)).cpu.icount = 2 :=
  ⟨rfl, 4, by decide, by decide⟩

end Rashid.Proofs
