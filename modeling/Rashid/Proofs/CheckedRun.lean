import Rashid.Lib.Runs
import Rashid.Proofs.CountFree
import Rashid.Proofs.UndoRestores

/-!
# Whole runs under the checker

With `-J` every compiled block is tried, undone and interpreted. A run of the machine is then a run of
the interpreter with blocks tried in between, and the two can only part where the checker says so or the
budget is used up.
-/

namespace Rashid.Proofs

open Conf

/-! ### The relation -/

/-- The checked machine `s` and the interpreting machine `t`, but for what they have counted. -/
structure Alike (s t : Conf) : Prop where
  jit : t.jit = none
  base : t.base = .main
  mode : s.mode = t.mode
  frames : s.frames = t.frames
  asked : s.asked = t.asked
  steps : s.steps = t.steps
  exited : s.exited = t.exited
  faulted : s.faulted = t.faulted
  cpu : SameBut s.cpu t.cpu

/-- A replay counts its instructions at its end, the interpreter as it goes. -/
def Counted (s t : Conf) : Prop :=
  match s.base with
  | .main => t.cpu.icount = s.cpu.icount ∨ s.ended
  | .replay _ n done => done ≤ n ∧ (s.mode = .native ∨ s.frames ≠ [] → done < n) ∧
      t.cpu.icount = s.cpu.icount + BitVec.ofNat 64 done

/-- The count while an instruction is under way. -/
def Level (s t : Conf) : Prop :=
  match s.base with
  | .main => t.cpu.icount = s.cpu.icount
  | .replay _ n done => done < n ∧ t.cpu.icount = s.cpu.icount + BitVec.ofNat 64 done

/-- The checked machine is where the interpreting one is. -/
structure Matches (s t : Conf) : Prop where
  alike : Alike s t
  counted : Counted s t

/-- The run has been stopped because a block and the interpreter differ, or there is a budget. -/
structure Stopped (env : Env) (s : Conf) : Prop where
  ended : s.ended
  fault : s.cpu.fault = some .disagreed ∨ env.budget ≠ 0 ∧ s.cpu.fault = some .budget

/-- Stopped where the interpreting machine is: what the guest sees is the interpreter's all the same. -/
structure Reports (env : Env) (s t : Conf) : Prop where
  stopped : Stopped env s
  cpu : SameBut { s.cpu with fault := t.cpu.fault, running := t.cpu.running } t.cpu

/-- The machine that the checked one is compared with counts its instructions and stops at no number. -/
def unlimited (env : Env) : Env := { env with budget := 0 }

/-- How many transitions the checked machine may make before its next instruction. -/
def lag (s : Conf) : Nat :=
  match s.base with
  | .main => 1
  | .replay _ n done => if done < n ∧ s.cpu.running = true then 0 else 2

/-- A block has two instructions at least. -/
lemma Compiled.two_le {lk : Link} {check : Bool} {code : List A64} {n : Nat} (h : Compiled lk check code n) : 2 ≤ n := by
  obtain ⟨c, rip, v, hv, rfl⟩ := h
  rw [compileBlock_eq] at hv
  split at hv
  · cases hv
  · next hlen =>
    obtain ⟨-, rfl⟩ := Prod.mk.inj (Option.some.inj hv)
    exact Nat.not_lt.mp hlen

section Steps

variable {env : Env} {i : Input} {s t : Conf}

lemma Level.of_main {s t : Conf} (hb : s.base = .main) (h : t.cpu.icount = s.cpu.icount) : Level s t := by
  unfold Level
  rw [hb]
  exact h

lemma Level.counted (h : Level s t) : Counted s t := by
  unfold Level Counted at *
  split at h
  · exact .inl h
  · exact ⟨Nat.le_of_lt h.1, fun _ => h.1, h.2⟩

/-- Outside the outermost loop an instruction is under way. -/
lemma Counted.level (h : Counted s t) (hin : s.mode = .native ∨ s.frames ≠ []) : Level s t := by
  unfold Level Counted at *
  split at h
  · refine h.resolve_right fun hend => ?_
    rcases hin with hmode | hframes
    · exact absurd (hend.1.symm.trans hmode) nofun
    · exact hframes hend.2.1
  · exact ⟨h.2.1 hin, h.2.2⟩

/-- The count does not change while a step makes something else of the state. -/
lemma Level.keep {s' t' : Conf} (h : Level s t) (hbase : s'.base = s.base) (hs : s'.cpu.icount = s.cpu.icount)
    (ht : t'.cpu.icount = t.cpu.icount) : Level s' t' := by
  unfold Level at *
  rw [hbase]
  split at h
  · rw [hs, ht]
    exact h
  · rw [hs, ht]
    exact h

lemma SameBut.next_count {c c' : Cpu} (h : SameBut c c') (m n : BitVec 64) :
    SameBut { c with icount := m } { c' with icount := n } := h

/-- The budget is looked at where the two machines have the same count. -/
lemma Matches.exhausted (h : Matches s t) (hb : s.base = .main) (hmode : s.mode = .guest) (hframes : s.frames = [])
    (hbudget : env.budget ≠ 0) : Reports env { s with cpu := exhaust s.cpu } t := by
  have hcpu := h.alike.cpu.update (f := fun c => { c with fault := t.cpu.fault, running := t.cpu.running }) fun _ => rfl
  refine ⟨⟨⟨hmode, hframes, ?_, rfl⟩, .inr ⟨hbudget, rfl⟩⟩, hcpu⟩
  simp only [hb]

/-- What the loops do after a step. -/
lemma afterStep_matches (h : Alike s t) (hl : Level s t) (hguest : s.mode = .guest) :
    Matches (afterStep env s) (afterStep (unlimited env) t) ∨
      Reports env (afterStep env s) (afterStep (unlimited env) t) := by
  have hfault : s.cpu.fault = t.cpu.fault := h.cpu.field (fun c => c.fault) fun _ => rfl
  have hfaulted : (s.faulted || s.cpu.fault.isSome) = (t.faulted || t.cpu.fault.isSome) := by rw [h.faulted, hfault]
  cases hframes : s.frames with
  | cons f rest =>
    have ht : t.frames = f :: rest := h.frames.symm.trans hframes
    have heq (env : Env) (s : Conf) (hs : s.frames = f :: rest) : afterStep env s =
        { s with faulted := s.faulted || s.cpu.fault.isSome, cpu := { s.cpu with icount := s.cpu.icount + 1 } } := by
      unfold afterStep
      simp only [hs]
    rw [heq env s hframes, heq (unlimited env) t ht]
    refine .inl ⟨⟨h.jit, h.base, h.mode, h.frames, h.asked, h.steps, h.exited, hfaulted, h.cpu.next_count _ _⟩,
      Level.counted ?_⟩
    unfold Level at *
    simp only
    split at hl
    · rw [hl]
    · refine ⟨hl.1, ?_⟩
      rw [hl.2]
      ac_rfl
  | nil =>
    have ht : t.frames = [] := h.frames.symm.trans hframes
    have heqt : afterStep (unlimited env) t = { t with
        faulted := t.faulted || t.cpu.fault.isSome, cpu := { t.cpu with icount := t.cpu.icount + 1 } } := by
      unfold afterStep
      simp only [ht, h.base, unlimited, ne_eq, not_true_eq_false, and_false, if_false]
    rw [heqt]
    cases hbase : s.base with
    | main =>
      have hcounted : Matches
          { s with faulted := s.faulted || s.cpu.fault.isSome, cpu := { s.cpu with icount := s.cpu.icount + 1 } }
          { t with faulted := t.faulted || t.cpu.fault.isSome, cpu := { t.cpu with icount := t.cpu.icount + 1 } } := by
        refine ⟨⟨h.jit, h.base, h.mode, h.frames, h.asked, h.steps, h.exited, hfaulted, h.cpu.next_count _ _⟩,
          Level.counted ?_⟩
        unfold Level at *
        simp only [hbase] at hl ⊢
        rw [hl]
      have heqs : afterStep env s = { s with
          faulted := s.faulted || s.cpu.fault.isSome
          cpu := if s.cpu.icount + 1 = env.budget ∧ env.budget ≠ 0 then exhaust { s.cpu with icount := s.cpu.icount + 1 }
            else { s.cpu with icount := s.cpu.icount + 1 } } := by
        unfold afterStep
        simp only [hframes, hbase]
      rw [heqs]
      split
      · next hfull => exact .inr (hcounted.exhausted hbase hguest hframes hfull.2)
      · exact .inl hcounted
    | replay k n done =>
      have heqs : afterStep env s =
          { s with faulted := s.faulted || s.cpu.fault.isSome, base := .replay k n (done + 1) } := by
        unfold afterStep
        simp only [hframes, hbase]
      unfold Level at hl
      rw [hbase] at hl
      rw [heqs]
      refine .inl ⟨⟨h.jit, h.base, h.mode, h.frames, h.asked, h.steps, h.exited, hfaulted, h.cpu.next_count _ _⟩, ?_⟩
      refine ⟨hl.1, fun hin => ?_, ?_⟩
      · rcases hin with hmode | hf
        · exact absurd (hguest.symm.trans hmode) nofun
        · exact absurd hframes hf
      · show t.cpu.icount + 1 = s.cpu.icount + BitVec.ofNat 64 (done + 1)
        rw [hl.2, BitVec.ofNat_add]
        exact BitVec.add_assoc ..

/-- Both machines make the same step. -/
lemma interp_matches (h : Alike s t) (hl : Level s t) (hguest : s.mode = .guest) :
    Matches (interp env i s) (interp (unlimited env) i t) ∨ Reports env (interp env i s) (interp (unlimited env) i t) := by
  obtain ⟨hout, hcpu⟩ := h.cpu.through (step_countFree env.fp env.rt i.kernel) (step_same env.fp env.rt i.kernel)
  have hs := (step_countFree env.fp env.rt i.kernel).icount s.cpu
  have ht := (step_countFree env.fp env.rt i.kernel).icount t.cpu
  unfold interp
  simp only [unlimited]
  generalize step env.fp env.rt i.kernel s.cpu = x at hout hcpu hs
  generalize step env.fp env.rt i.kernel t.cpu = y at hout hcpu ht
  obtain ⟨out, c⟩ := x
  obtain ⟨out', c'⟩ := y
  obtain rfl : out = out' := hout
  have halike (a b : Nat) (hab : a = b) :
      Alike { s with cpu := c, steps := s.steps + 1, exited := s.exited || out.isExit, asked := a }
        { t with cpu := c', steps := t.steps + 1, exited := t.exited || out.isExit, asked := b } :=
    ⟨h.jit, h.base, h.mode, h.frames, hab, congrArg (· + 1) h.steps, congrArg (· || out.isExit) h.exited, h.faulted, hcpu⟩
  cases out with
  | native call =>
    have ha := halike s.asked t.asked h.asked
    refine .inl ⟨⟨ha.jit, ha.base, rfl, ha.frames, ha.asked, ha.steps, ha.exited, ha.faulted, ha.cpu⟩, Level.counted ?_⟩
    exact hl.keep rfl hs ht
  | sys => exact afterStep_matches (halike _ _ (congrArg (· + 1) h.asked)) (hl.keep rfl hs ht) hguest
  | done => exact afterStep_matches (halike _ _ h.asked) (hl.keep rfl hs ht) hguest
  | exit => exact afterStep_matches (halike _ _ h.asked) (hl.keep rfl hs ht) hguest
  | returned => exact afterStep_matches (halike _ _ h.asked) (hl.keep rfl hs ht) hguest

lemma enterCallback_same (target : BitVec 64) (x d : List (BitVec 64)) {c c' : Cpu} (h : SameGuest c c') :
    (enterCallback target x d c).1 = (enterCallback target x d c').1 ∧
      SameGuest (enterCallback target x d c).2 (enterCallback target x d c').2 := by
  have hloaded : SameGuest { c with r := loadArgs x c.r, xmm := loadFloats d c.xmm }
      { c' with r := loadArgs x c'.r, xmm := loadFloats d c'.xmm } :=
    h.update (f := fun c => { c with r := loadArgs x c.r, xmm := loadFloats d c.xmm }) fun _ => rfl
  have hstored := (built_same (IsBuilt.built (P := RunPrim) (p := st (callbackSp (c.r rsp)) callbackMagic 8)) hloaded).2
  have hset := hstored.update
    (f := fun c1 => { c1 with
      r := Function.update c1.r rsp (callbackSp (c.r rsp)), rip := target, running := true }) fun _ => rfl
  refine ⟨rfl, ?_⟩
  unfold enterCallback
  rw [← h.r_eq] at hset ⊢
  exact hset

/-- Both machines make the same act of native code. -/
lemma nativeAct_matches (h : Matches s t) (hmode : s.mode = .native) (act : NativeAct) :
    Matches (nativeAct env act s) (nativeAct (unlimited env) act t) ∨
      Reports env (nativeAct env act s) (nativeAct (unlimited env) act t) := by
  obtain ⟨ha, hc⟩ := h
  have hl := hc.level (.inl hmode)
  have hasked : s.asked + 1 = t.asked + 1 := congrArg (· + 1) ha.asked
  cases act with
  | callback index x d =>
    have htargets : s.cpu.targets = t.cpu.targets := ha.cpu.field (fun c => c.targets) fun _ => rfl
    have hframe : s.cpu.frame = t.cpu.frame := ha.cpu.field (fun c => c.frame) fun _ => rfl
    have hcount (c : Cpu) := (enterCallback_countFree (rsdCallbackTarget t.cpu.targets index) x d).icount c
    simp only [nativeAct]
    rw [htargets]
    split
    · exact .inl ⟨⟨ha.jit, ha.base, ha.mode, ha.frames, hasked, ha.steps, ha.exited, ha.faulted, ha.cpu⟩,
        Level.counted (hl.keep rfl rfl rfl)⟩
    · refine .inl ⟨⟨ha.jit, ha.base, rfl, ?_, hasked, ha.steps, ha.exited, ha.faulted, ?_⟩,
        Level.counted (hl.keep rfl (hcount _) (hcount _))⟩
      · show s.cpu.frame :: s.frames = t.cpu.frame :: t.frames
        rw [hframe, ha.frames]
      · exact (ha.cpu.through (enterCallback_countFree _ x d) (enterCallback_same _ x d)).2
  | write a bytes =>
    have hcpu : SameBut { s.cpu with mem := poke s.cpu.mem a bytes } { t.cpu with mem := poke t.cpu.mem a bytes } :=
      ha.cpu.update (f := fun c => { c with mem := poke c.mem a bytes }) fun _ => rfl
    exact .inl ⟨⟨ha.jit, ha.base, ha.mode, ha.frames, hasked, ha.steps, ha.exited, ha.faulted, hcpu⟩,
      Level.counted (hl.keep rfl rfl rfl)⟩
  | ret r =>
    have hcpu := (ha.cpu.through (finishNativeCall_countFree r)
      (built_same (IsBuilt.built (P := RunPrim) (p := finishNativeCall r)))).2
    have hcount (c : Cpu) := (finishNativeCall_countFree r).icount c
    exact afterStep_matches
      ⟨ha.jit, ha.base, rfl, ha.frames, hasked, ha.steps, ha.exited, ha.faulted, hcpu⟩
        (hl.keep rfl (hcount _) (hcount _)) rfl

/-- A block is tried: the guest is where it was. -/
lemma block_matches {aenv : A64Env} (henter : Enters env aenv) (hcheck : env.jitCheck = true) {code : List A64} {n : Nat}
    (hcomp : Compiled env.lk env.jitCheck code n) (h : Alike s t) (hl : Level s t) (hb : s.base = .main)
    (hmode : s.mode = .guest) (hframes : s.frames = []) (hrun : s.cpu.running = true) :
    Matches (block env code n s) t ∧ lag (block env code n s) < lag s := by
  obtain ⟨w, hw⟩ := henter.bodyLog (hcheck ▸ hcomp) s.cpu
  have hsame : SameGuest s.cpu (beginCheck (env.enter code) s.cpu).2 := (beginCheck_same hw).1
  have heq : block env code n s = { s with
      cpu := (beginCheck (env.enter code) s.cpu).2, base := .replay (beginCheck (env.enter code) s.cpu).1 n 0 } := by
    unfold block
    rw [if_pos hcheck]
  have hcount : t.cpu.icount = s.cpu.icount := by
    unfold Level at hl
    rwa [hb] at hl
  have hlag : lag { s with
      cpu := (beginCheck (env.enter code) s.cpu).2, base := .replay (beginCheck (env.enter code) s.cpu).1 n 0 } = 0 :=
    if_pos ⟨Nat.lt_of_lt_of_le Nat.zero_lt_two hcomp.two_le, hrun⟩
  have hmain : lag s = 1 := by
    unfold lag
    rw [hb]
  rw [heq, hlag, hmain]
  refine ⟨⟨⟨h.jit, h.base, h.mode, h.frames, h.asked, h.steps, h.exited, h.faulted, ?_⟩, Nat.zero_le n, fun hin => ?_,
    ?_⟩, Nat.one_pos⟩
  · exact hsame.symm.sameBut.trans h.cpu
  · rcases hin with hn | hf
    · exact absurd (hmode.symm.trans hn) nofun
    · exact absurd hframes hf
  · exact hcount.trans (BitVec.add_zero _).symm

/-- The end of a replay: the guest is where it was, and goes on unless it is stopped. -/
lemma endReplay_matches {k : Check} {n done : Nat} (h : Matches s t) (hb : s.base = .replay k n done)
    (hmode : s.mode = .guest) (hframes : s.frames = []) (hover : ¬ (done < n ∧ s.cpu.running = true)) :
    Matches (endReplay env k n s) t ∧ lag (endReplay env k n s) < lag s ∨ Reports env (endReplay env k n s) t := by
  obtain ⟨ha, hc⟩ := h
  have hlag : lag (endReplay env k n s) < lag s := by
    unfold lag
    rw [endReplay_base, hb]
    simp only [if_neg hover]
    exact Nat.one_lt_two
  unfold Counted at hc
  rw [hb] at hc
  obtain ⟨hdone, -, hcount⟩ := hc
  have hfield (f : Option Fault) (r : Bool) :
    SameBut { s.cpu with wlog := none, fault := f, faultRip := k.before.rip, running := r }
      { t.cpu with fault := f, running := r } :=
    ha.cpu.update (f := fun c => { c with fault := f, running := r }) fun _ => rfl
  refine Or.imp_left (And.intro · hlag) ?_
  unfold endReplay
  by_cases hok : (finishCheck k n s.cpu).1 = true
  · have hres : finishCheck k n s.cpu = (true, { s.cpu with wlog := none, icount := s.cpu.icount + BitVec.ofNat 64 n }) :=
      Prod.ext hok (finishCheck_snd hok)
    have hcounted : Matches
        { s with cpu := { s.cpu with wlog := none, icount := s.cpu.icount + BitVec.ofNat 64 n }, base := .main } t := by
      refine ⟨⟨ha.jit, ha.base, ha.mode, ha.frames, ha.asked, ha.steps, ha.exited, ha.faulted, ha.cpu⟩, ?_⟩
      show t.cpu.icount = s.cpu.icount + BitVec.ofNat 64 n ∨ _
      rcases Nat.lt_or_eq_of_le hdone with hlt | rfl
      · have hstop : s.cpu.running = false := Bool.eq_false_iff.mpr fun hr => hover ⟨hlt, hr⟩
        exact .inr ⟨hmode, hframes, rfl, hstop⟩
      · exact .inl hcount
    rw [hres]
    simp only [budgetAfterBlock]
    split
    · next hfull => exact .inr (hcounted.exhausted rfl hmode hframes hfull.1)
    · exact .inl hcounted
  · have hres : finishCheck k n s.cpu =
        (false, { s.cpu with wlog := none, fault := some .disagreed, faultRip := k.before.rip, running := false }) := by
      have hfst := Bool.eq_false_iff.mpr hok
      unfold finishCheck at hfst ⊢
      simp only at hfst ⊢
      split at hfst
      · cases hfst
      · next hno => rw [if_neg hno]
    rw [hres]
    exact .inr ⟨⟨⟨hmode, hframes, rfl, rfl⟩, .inl rfl⟩, hfield t.cpu.fault t.cpu.running⟩

/-- One transition of the checked machine: one of the interpreting machine, or a block is tried, or a
replay ends. -/
lemma next_matches {aenv : A64Env} (henter : Enters env aenv) (hcheck : env.jitCheck = true)
    (hjit : JitOk env.lk env.jitCheck s.jit) (h : Matches s t) :
    (Matches (next env i s) (next (unlimited env) i t) ∨ Reports env (next env i s) (next (unlimited env) i t)) ∨
      Matches (next env i s) t ∧ lag (next env i s) < lag s ∨
      Reports env (next env i s) t ∨ next env i s = s ∧ next (unlimited env) i t = t := by
  obtain ⟨ha, hc⟩ := id h
  have hrunning : s.cpu.running = t.cpu.running := ha.cpu.field (fun c => c.running) fun _ => rfl
  cases hmode : s.mode with
  | native =>
    have hmodet : t.mode = .native := ha.mode.symm.trans hmode
    left
    simp only [next, hmode, hmodet]
    exact nativeAct_matches h hmode i.act
  | guest =>
    have hmodet : t.mode = .guest := ha.mode.symm.trans hmode
    cases hframes : s.frames with
    | cons f rest =>
      have hframest : t.frames = f :: rest := ha.frames.symm.trans hframes
      have hl := hc.level (.inr (hframes ▸ List.cons_ne_nil f rest))
      left
      simp only [next, hmode, hmodet, hframes, hframest, hrunning]
      split
      · exact interp_matches ha hl hmode
      · have hcpu : SameBut (leaveCallback f s.cpu) (leaveCallback f t.cpu) :=
          ha.cpu.update (f := leaveCallback f) fun _ => rfl
        exact .inl ⟨⟨ha.jit, ha.base, rfl, rfl, ha.asked, ha.steps, ha.exited, ha.faulted, hcpu⟩,
          Level.counted (hl.keep rfl rfl rfl)⟩
    | nil =>
      have hframest : t.frames = [] := ha.frames.symm.trans hframes
      have hnextt : t.cpu.running = true → next (unlimited env) i t = interp (unlimited env) i t := fun hrun => by
        simp only [next, hmodet, hframest, ha.base, hrun, if_true, dispatch, ha.jit]
      cases hbase : s.base with
      | main =>
        by_cases hrun : s.cpu.running = true
        · have hl : Level s t := by
            refine .of_main hbase ?_
            unfold Counted at hc
            rw [hbase] at hc
            exact hc.resolve_right fun hend => Bool.noConfusion (hrun.symm.trans hend.2.2.2)
          have hnexts : next env i s = dispatch env i s := by
            simp only [next, hmode, hframes, hbase, hrun, if_true]
          rw [hnextt (hrunning ▸ hrun), hnexts]
          obtain ⟨j, -, heq | ⟨code, n, hcomp, heq⟩⟩ := dispatch_cases env i s hjit
          · left
            rw [heq]
            exact interp_matches (s := { s with jit := j })
              ⟨ha.jit, ha.base, ha.mode, ha.frames, ha.asked, ha.steps, ha.exited, ha.faulted, ha.cpu⟩ hl hmode
          · right; left
            rw [heq]
            exact block_matches (s := { s with jit := j }) henter hcheck hcomp
              ⟨ha.jit, ha.base, ha.mode, ha.frames, ha.asked, ha.steps, ha.exited, ha.faulted, ha.cpu⟩ hl hbase
                hmode hframes hrun
        · refine .inr (.inr (.inr ⟨?_, ?_⟩))
          · simp only [next, hmode, hframes, hbase]
            exact if_neg hrun
          · simp only [next, hmodet, hframest, ha.base]
            exact if_neg (hrunning ▸ hrun)
      | replay k n done =>
        by_cases hgo : done < n ∧ s.cpu.running = true
        · have hnexts : next env i s = interp env i s := by
            simp only [next, hmode, hframes, hbase]
            exact if_pos hgo
          rw [hnexts, hnextt (hrunning ▸ hgo.2)]
          have hl : Level s t := by
            unfold Counted at hc
            unfold Level
            rw [hbase] at hc ⊢
            exact ⟨hgo.1, hc.2.2⟩
          exact .inl (interp_matches ha hl hmode)
        · have hnexts : next env i s = endReplay env k n s := by
            simp only [next, hmode, hframes, hbase]
            exact if_neg hgo
          rw [hnexts]
          rcases endReplay_matches h hbase hmode hframes hgo with hm | hr
          · exact .inr (.inl hm)
          · exact .inr (.inr (.inl hr))

end Steps

/-! ### Runs -/

section Runs

variable {env : Env} {aenv : A64Env} {oracle : Nat → Input} {s t : Conf} {c : Cpu} {j : Jit}

def advance (env : Env) (oracle : Nat → Input) (s : Conf) : Conf := next env (oracle s.asked) s

lemma run_eq_iterate (n : Nat) (s : Conf) : run env oracle n s = (advance env oracle)^[n] s := by
  induction n generalizing s with
  | zero => rfl
  | succ n ih => exact ih (advance env oracle s)

lemma ended_advance (h : s.ended) : advance env oracle s = s := run_over oracle h 1

lemma next_both (henter : Enters env aenv) (hcheck : env.jitCheck = true) (hjit : JitOk env.lk env.jitCheck s.jit)
    (h : Matches s t) :
    (Matches (advance env oracle s) (advance (unlimited env) oracle t) ∨
        Reports env (advance env oracle s) (advance (unlimited env) oracle t)) ∨
      Matches (advance env oracle s) t ∧ lag (advance env oracle s) < lag s ∨
      Reports env (advance env oracle s) t ∨ advance env oracle s = s ∧ advance (unlimited env) oracle t = t := by
  unfold advance
  rw [← h.alike.asked]
  exact next_matches henter hcheck hjit h

/-- Where the checked machine may be while the interpreting one is at `t`. -/
structure Tracks (env : Env) (s t : Conf) : Prop where
  jit : JitOk env.lk env.jitCheck s.jit
  state : Matches s t ∨ Reports env s t

lemma tracks_follows (oracle : Nat → Input) (henter : Enters env aenv) (hcheck : env.jitCheck = true) :
    Follows (advance env oracle) (advance (unlimited env) oracle) (Tracks env) := by
  rintro s t ⟨hjit, hm | hr⟩
  · have hjit' : JitOk env.lk env.jitCheck (advance env oracle s).jit := next_jit hjit
    rcases next_both henter hcheck hjit hm with hboth | ⟨hone, -⟩ | hrep | ⟨hs, -⟩
    · exact .inr ⟨hjit', hboth⟩
    · exact .inl ⟨hjit', .inl hone⟩
    · exact .inl ⟨hjit', .inr hrep⟩
    · rw [hs]
      exact .inl ⟨hjit, .inl hm⟩
  · rw [ended_advance hr.stopped.ended]
    exact .inl ⟨hjit, .inr hr⟩

/-- Where the checked machine is once the interpreting one has been at `t`: there, or stopped. -/
structure Reaches (env : Env) (s t : Conf) : Prop where
  jit : JitOk env.lk env.jitCheck s.jit
  state : Matches s t ∨ Stopped env s

lemma reaches_catchesUp (oracle : Nat → Input) (henter : Enters env aenv) (hcheck : env.jitCheck = true) :
    CatchesUp 3 (advance env oracle) (advance (unlimited env) oracle) (Reaches env) := by
  have hlag (s : Conf) : lag s ≤ 2 := by
    unfold lag
    repeat' split
    all_goals decide
  have hstep : ∀ s t, Reaches env s t → Reaches env (advance env oracle s) (advance (unlimited env) oracle t) ∨
      Reaches env (advance env oracle s) t ∧ lag (advance env oracle s) < lag s ∨
      Reaches env s (advance (unlimited env) oracle t) := by
    rintro s t ⟨hjit, hm | hr⟩
    · have hjit' : JitOk env.lk env.jitCheck (advance env oracle s).jit := next_jit hjit
      rcases next_both henter hcheck hjit hm with hboth | ⟨hone, hless⟩ | hrep | ⟨-, ht⟩
      · exact .inl ⟨hjit', hboth.imp_right Reports.stopped⟩
      · exact .inr (.inl ⟨⟨hjit', .inl hone⟩, hless⟩)
      · exact .inl ⟨hjit', .inr hrep.stopped⟩
      · rw [ht]
        exact .inr (.inr ⟨hjit, .inl hm⟩)
    · exact .inr (.inr ⟨hjit, .inr hr⟩)
  intro s t hst
  obtain ⟨k, hk, h⟩ := CatchesUp.of_lag lag hstep hst
  exact ⟨k, Nat.le_trans hk (Nat.succ_le_succ (hlag s)), h⟩

lemma start_matches (c : Cpu) (j : Jit) : Matches (Conf.start c (some j)) (Conf.start c none) :=
  ⟨⟨rfl, rfl, rfl, rfl, rfl, rfl, rfl, rfl, .refl _⟩, .inl rfl⟩

/-- Every state of a checked run is a state of the interpreter's run, at whatever point of a block: with
the same registers, memory, regions, nesting of callbacks and answers used, and the count put down
when the replay is over. Only a difference that the checker has found, or the budget, stops it
elsewhere, and then with the interpreter's memory and registers. -/
theorem checked_run_follows (henter : Enters env aenv) (hcheck : env.jitCheck = true) (hj : CacheOk env.lk env.jitCheck j)
    (oracle : Nat → Input) (c : Cpu) (n : Nat) :
    ∃ m ≤ n, let s := run env oracle n (Conf.start c (some j)); let t := run (unlimited env) oracle m (Conf.start c none)
      Matches s t ∨ Reports env s t := by
  obtain ⟨m, hm, h⟩ := (tracks_follows oracle henter hcheck).run
    (s := Conf.start c (some j)) (t := Conf.start c none) ⟨hj.some, .inl (start_matches c j)⟩ n
  refine ⟨m, hm, ?_⟩
  simp only [run_eq_iterate]
  exact h.state

/-- When the interpreter is through, the checked machine is after the replay it may be in. -/
lemma Matches.settles (env : Env) (oracle : Nat → Input) (h : Matches s t) (hend : t.ended) :
    s.ended ∨ Matches (advance env oracle s) t ∧ (advance env oracle s).ended ∨ Reports env (advance env oracle s) t := by
  have hmode : s.mode = .guest := h.alike.mode.trans hend.1
  have hframes : s.frames = [] := h.alike.frames.trans hend.2.1
  have hstop : s.cpu.running = false := (h.alike.cpu.field (fun c => c.running) fun _ => rfl).trans hend.2.2.2
  cases hbase : s.base with
  | main =>
    refine .inl ⟨hmode, hframes, ?_, hstop⟩
    rw [hbase]
  | replay k l done =>
    have hover : ¬ (done < l ∧ s.cpu.running = true) := fun h => absurd (hstop.symm.trans h.2) nofun
    have hnexts : advance env oracle s = endReplay env k l s := by
      simp only [advance, next, hmode, hframes, hbase]
      exact if_neg hover
    rw [hnexts]
    refine .inr ((endReplay_matches h hbase hmode hframes hover).imp_left fun hdone => ⟨hdone.1, ?_⟩)
    obtain ⟨ha, -⟩ := hdone.1
    refine ⟨ha.mode.trans hend.1, ha.frames.trans hend.2.1, ?_, ?_⟩
    · rw [endReplay_base]
    · exact (ha.cpu.field (fun c => c.running) fun _ => rfl).trans hend.2.2.2

/-- Every state of the interpreter's run is met by the checked run, which ends when the interpreter's
does, unless it has been stopped before. -/
theorem checked_run_reaches (henter : Enters env aenv) (hcheck : env.jitCheck = true) (hj : CacheOk env.lk env.jitCheck j)
    (oracle : Nat → Input) (c : Cpu) (m : Nat) :
    ∃ n ≤ 3 * m + 1,
      let s := run env oracle n (Conf.start c (some j)); let t := run (unlimited env) oracle m (Conf.start c none)
      (Matches s t ∧ (t.ended → s.ended)) ∨ Stopped env s := by
  obtain ⟨n, hn, -, h⟩ := (reaches_catchesUp oracle henter hcheck).run
    (s := Conf.start c (some j)) (t := Conf.start c none) ⟨hj.some, .inl (start_matches c j)⟩ m
  simp only [run_eq_iterate]
  generalize (advance (unlimited env) oracle)^[m] (Conf.start c none) = t at h ⊢
  rcases h with hm | hr
  swap
  · exact ⟨n, Nat.le_succ_of_le hn, .inr hr⟩
  by_cases hend : t.ended
  swap
  · exact ⟨n, Nat.le_succ_of_le hn, .inl ⟨hm, fun h => absurd h hend⟩⟩
  rcases hm.settles env oracle hend with hs | ⟨hdone, hs⟩ | hrep
  · exact ⟨n, Nat.le_succ_of_le hn, .inl ⟨hm, fun _ => hs⟩⟩
  · refine ⟨n + 1, Nat.succ_le_succ hn, .inl ?_⟩
    rw [Function.iterate_succ_apply']
    exact ⟨hdone, fun _ => hs⟩
  · refine ⟨n + 1, Nat.succ_le_succ hn, .inr ?_⟩
    rw [Function.iterate_succ_apply']
    exact hrep.stopped

end Runs

theorem checked_run_follows_fall : ∃ m ≤ 1542,
    let s := run fallEnv (fun _ => fallInput) 1542 (Conf.start fallCpu (some rsdJitInit))
    let t := run (unlimited fallEnv) (fun _ => fallInput) m (Conf.start fallCpu none)
    Matches s t ∨ Reports fallEnv s t :=
  checked_run_follows fallEnv_enters rfl cacheOk_init _ fallCpu 1542

theorem checked_run_reaches_fall : ∃ n ≤ 3 * 5 + 1,
    let s := run fallEnv (fun _ => fallInput) n (Conf.start fallCpu (some rsdJitInit))
    let t := run (unlimited fallEnv) (fun _ => fallInput) 5 (Conf.start fallCpu none)
    (Matches s t ∧ (t.ended → s.ended)) ∨ Stopped fallEnv s :=
  checked_run_reaches fallEnv_enters rfl cacheOk_init _ fallCpu 5

end Rashid.Proofs
