import Rashid.Proofs.RunPrims

/-!
# What stops the guest

A primitive leaves the instruction count alone, never clears a fault, and stops the guest only
by faulting. So a step stops the guest by a fault, by the exit system call, or at one of the
two magic addresses.
-/

namespace Rashid.Proofs

/-- The fault before is kept, or one of the guest's own has been reported. -/
def FaultKept (f f' : Option Fault) : Prop := f' = f ∨ ∃ w, f' = some w ∧ w ≠ .budget ∧ w ≠ .disagreed

lemma FaultKept.trans {f g h : Option Fault} (h1 : FaultKept f g) (h2 : FaultKept g h) : FaultKept f h := by
  rcases h2 with rfl | h2
  · exact h1
  · exact .inr h2

lemma FaultKept.isSome {f g : Option Fault} (h : FaultKept f g) (hf : f ≠ none) : g ≠ none := by
  rcases h with rfl | ⟨w, rfl, -⟩
  · exact hf
  · exact Option.some_ne_none w

lemma FaultKept.ne_budget {f g : Option Fault} (h : FaultKept f g) (hf : f ≠ some .budget) : g ≠ some .budget := by
  rcases h with rfl | ⟨w, rfl, hw, -⟩
  · exact hf
  · exact fun hc => hw (Option.some.inj hc)

/-- How a primitive leaves the count, the fault and the running flag. -/
structure Quiet (c c' : Cpu) : Prop where
  icount : c'.icount = c.icount
  fault : FaultKept c.fault c'.fault
  running : c'.running = c.running ∨ c'.running = false ∧ c'.fault ≠ none
  stops : c'.fault = c.fault ∨ c'.running = false

namespace Quiet

lemma refl (c : Cpu) : Quiet c c := ⟨rfl, .inl rfl, .inl rfl, .inl rfl⟩

lemma trans {a b c : Cpu} (h1 : Quiet a b) (h2 : Quiet b c) : Quiet a c := by
  refine ⟨h2.icount.trans h1.icount, h1.fault.trans h2.fault, ?_, ?_⟩
  · rcases h2.running with hr | hr
    · rcases h1.running with hq | ⟨hq, hf⟩
      · exact .inl (hr.trans hq)
      · exact .inr ⟨hr.trans hq, h2.fault.isSome hf⟩
    · exact .inr hr
  · rcases h2.running with hr | ⟨hr, -⟩
    · rcases h2.stops with hs | hs
      · exact h1.stops.imp hs.trans hr.trans
      · exact .inr hs
    · exact .inr hr

/-- A change that touches none of the three. -/
lemma same {c c' : Cpu} (h1 : c'.icount = c.icount) (h2 : c'.fault = c.fault) (h3 : c'.running = c.running) :
    Quiet c c' := ⟨h1, .inl h2, .inl h3, .inl h2⟩

/-- A change that reports one of the guest's faults. -/
lemma faulted {c c' : Cpu} (w : Fault) [hw : OfGuest w] (h1 : c'.icount = c.icount) (h2 : c'.fault = some w)
    (h3 : c'.running = false) : Quiet c c' :=
  ⟨h1, .inr ⟨w, h2, hw.ne_budget, hw.ne_disagreed⟩, .inr ⟨h3, h2 ▸ Option.some_ne_none w⟩, .inr h3⟩

end Quiet

lemma memfault_quiet (a : BitVec 64) (w : Fault) [OfGuest w] (c : Cpu) : Quiet c (memfault a w c).2 := by
  unfold memfault
  simp only [Prog.modify_apply]
  split
  · exact .faulted w rfl rfl rfl
  · next h => exact ⟨rfl, .inl rfl, .inr ⟨rfl, h⟩, .inl rfl⟩

lemma memfault_fault (a : BitVec 64) (w : Fault) (c : Cpu) : (memfault a w c).2.fault ≠ none := by
  unfold memfault
  simp only [Prog.modify_apply]
  split
  · exact Option.some_ne_none w
  · next h => exact h

lemma prim_quiet {α : Type} {p : M α} (hp : Prim p) (c : Cpu) : Quiet c (p c).2 := by
  cases hp with
  | raise f rip => exact .faulted f rfl rfl rfl
  | ld a n =>
    unfold ld
    split
    · exact .refl c
    · exact memfault_quiet ..
  | st a v n =>
    unfold st
    split
    · exact .same rfl rfl rfl
    · exact memfault_quiet ..
  | ld128 a =>
    unfold ld128
    split
    · exact .refl c
    · exact memfault_quiet ..
  | st128 a v =>
    unfold st128
    split
    · exact .same rfl rfl rfl
    · exact memfault_quiet ..
  | _ => exact .same rfl rfl rfl

lemma built_quiet {α : Type} {p : M α} [IsBuilt Prim p] (c : Cpu) : Quiet c (p c).2 :=
  Built.rel Quiet.refl (fun _ _ _ => .trans) (fun _ h => prim_quiet h) (IsBuilt.built (P := Prim) (p := p)) c

lemma withAs_quiet (c : Cpu) (as : As) (evs : List HostEvent) : Quiet c (withAs c as evs) := .same rfl rfl rfl

lemma withMem_quiet (c : Cpu) (m : Mem) : Quiet c (withMem c m) := .same rfl rfl rfl

lemma runPrim_quiet {α : Type} {p : M α} (hp : RunPrim p) (c : Cpu) : Quiet c (p c).2 := by
  cases hp with
  | insn h => exact prim_quiet h c
  | memfault a w => exact memfault_quiet a w c
  | noThunk imp => exact .faulted .noThunk rfl rfl rfl
  | failVariadic f => exact .faulted f rfl rfl rfl
  | sysRead k a0 a1 a2 =>
    rw [sysRead_eval]
    split
    · exact (withMem_quiet ..).trans (built_quiet _)
    · exact memfault_quiet ..
  | sysWrite k a0 a1 a2 =>
    rw [sysWrite_eval]
    split
    · exact built_quiet c
    · exact memfault_quiet ..
  | sysMunmap k a0 a1 =>
    rw [sysMunmap_eval]
    exact (withAs_quiet ..).trans (built_quiet _)
  | sysMprotect k a0 a1 a2 =>
    rw [sysMprotect_eval]
    exact (withAs_quiet ..).trans (built_quiet _)
  | sysMmap k a0 a1 a2 =>
    rw [sysMmap_eval]
    split
    · exact built_quiet c
    · simp only
      split
      · exact (withAs_quiet ..).trans (built_quiet _)
      · exact (withAs_quiet ..).trans (built_quiet _)
  | rsdCallbackFor rt fn =>
    unfold rsdCallbackFor
    repeat' split
    all_goals exact .same rfl rfl rfl
  | _ => exact .same rfl rfl rfl

/-- What a step leaves of the count, the fault and the running flag. -/
structure StepStops (c : Cpu) (out : StepOut) (c' : Cpu) : Prop where
  icount : c'.icount = c.icount
  fault : FaultKept c.fault c'.fault
  running : c'.running = c.running ∨
    c'.running = false ∧ (c'.fault ≠ none ∨ out.isExit = true ∨ c.rip = callbackMagic ∧ out = .done)
  stops : c'.fault = c.fault ∨ c'.running = false

lemma step_stops (fp : Fp) (rt : Runtime) (k : Kernel) (c : Cpu) :
    StepStops c (step fp rt k c).1 (step fp rt k c).2 := by
  rcases step_rel fp rt k Quiet.refl (fun _ _ _ => .trans) (fun _ h => runPrim_quiet h) c with
    ⟨hrip, h⟩ | ⟨-, h⟩ | ⟨-, -, h⟩ | ⟨-, hex, c1, v, h, heq⟩
  · rw [h]
    exact ⟨rfl, .inl rfl, .inr ⟨rfl, .inr (.inr ⟨hrip, rfl⟩)⟩, .inl rfl⟩
  · rw [h]
    exact ⟨rfl, .inl rfl, .inr ⟨rfl, .inr (.inl rfl)⟩, .inl rfl⟩
  · exact ⟨h.icount, h.fault, h.running.imp_right fun ⟨hr, hf⟩ => ⟨hr, .inl hf⟩, h.stops⟩
  · rw [hex, heq]
    exact ⟨h.icount, h.fault, .inr ⟨rfl, .inr (.inl rfl)⟩, .inr rfl⟩

lemma step_exit_stops (fp : Fp) (rt : Runtime) (k : Kernel) (c : Cpu) (h : (step fp rt k c).1.isExit = true) :
    (step fp rt k c).2.running = false := by
  rcases step_rel fp rt k Quiet.refl (fun _ _ _ => .trans) (fun _ h => runPrim_quiet h) c with
    ⟨-, heq⟩ | ⟨-, heq⟩ | ⟨-, hex, -⟩ | ⟨-, -, c1, v, -, heq⟩
  · rw [heq]
  · rw [heq]
  · rw [h] at hex
    cases hex
  · rw [heq]

lemma finishNativeCall_quiet (ret : BitVec 64 × BitVec 64 × BitVec 64 × BitVec 64) (c : Cpu) :
    Quiet c (finishNativeCall ret c).2 :=
  Built.rel Quiet.refl (fun _ _ _ => .trans) (fun _ h => runPrim_quiet h)
    (IsBuilt.built (P := RunPrim) (p := finishNativeCall ret)) c

/-- A callback is entered running, whatever its frame's store did. -/
lemma enterCallback_stops (target : BitVec 64) (x d : List (BitVec 64)) (c : Cpu) :
    (enterCallback target x d c).2.icount = c.icount ∧ FaultKept c.fault (enterCallback target x d c).2.fault ∧
      (enterCallback target x d c).2.running = true := by
  have h := prim_quiet (.st (callbackSp (c.r rsp)) callbackMagic 8)
    { c with r := loadArgs x c.r, xmm := loadFloats d c.xmm }
  exact ⟨h.icount, h.fault, rfl⟩

open Conf

/-- The state in which `interp` hands a step over to the loop around it. -/
def stepped (env : Env) (i : Input) (s : Conf) : Conf :=
  { s with
    cpu := (step env.fp env.rt i.kernel s.cpu).2
    steps := s.steps + 1
    exited := s.exited || (step env.fp env.rt i.kernel s.cpu).1.isExit }

lemma interp_cases (env : Env) (i : Input) (s : Conf) :
    ((step env.fp env.rt i.kernel s.cpu).1.isNative = true ∧ interp env i s = { stepped env i s with mode := .native }) ∨
    ((step env.fp env.rt i.kernel s.cpu).1.isNative = false ∧
      ∃ a, interp env i s = afterStep env { stepped env i s with asked := a }) := by
  unfold interp stepped
  generalize step env.fp env.rt i.kernel s.cpu = r
  obtain ⟨out, c⟩ := r
  cases out with
  | native call => exact .inl ⟨rfl, rfl⟩
  | sys => exact .inr ⟨rfl, s.asked + 1, rfl⟩
  | done => exact .inr ⟨rfl, s.asked, rfl⟩
  | exit => exact .inr ⟨rfl, s.asked, rfl⟩
  | returned => exact .inr ⟨rfl, s.asked, rfl⟩

/-- A run that is over stays as it is. -/
lemma run_over {env : Env} (oracle : Nat → Input) {s : Conf} (h : s.ended) (n : Nat) : run env oracle n s = s := by
  obtain ⟨hm, hf, hb, hr⟩ := h
  have hnext (i : Input) : next env i s = s := by
    unfold next
    cases hbase : s.base with
    | main => simp only [hm, hf, hr, Bool.false_eq_true, if_false]
    | replay k m done =>
      rw [hbase] at hb
      cases hb
  induction n with
  | zero => rfl
  | succ n ih =>
    rw [run, hnext]
    exact ih

/-! ### A host for small examples

None of them uses floating point or a system call that reaches the kernel. -/

def sampleFp : Fp where
  add x _ := x
  mul x _ := x
  sub x _ := x
  div x _ := x
  lt _ _ := false
  le _ _ := false
  eq _ _ := false
  sqrt x := x
  sqrtf x := x
  widen x := x.setWidth 64
  narrow x := x.setWidth 32
  ofInt x := x
  ofIntf x := x.setWidth 32
  toInt32 _ _ := none
  toInt64 _ _ := none

def sampleRuntime : Runtime := ⟨0x100000, 16, id, fun _ => 0, id⟩

def helperNo : Helper → Nat
  | .ld => 0
  | .st => 1
  | .flagsAdd => 2
  | .flagsSub => 3
  | .flagsLogic => 4
  | .flagsInc => 5
  | .flagsDec => 6
  | .shift => 7
  | .wlog => 8
  | .ld128 => 9
  | .st128 => 10
  | .comisd => 11
  | .comiss => 12
  | .cvt2si => 13
  | .nanD => 14
  | .nanS => 15

def sampleLink : Link where
  addr h := BitVec.ofNat 64 (0x200000 + 64 * helperNo h)
  inj h k := by
    cases h <;> cases k <;> first | exact fun _ => rfl | exact fun hne => absurd hne (by decide)

def sampleKernel : Kernel where
  page := 0x4000
  mmap _ _ _ := none
  remap _ := none
  munmap _ _ := false
  alloc := true
  read _ _ _ := (-9, [])
  write _ _ _ := -9
  close _ := -9

def sampleEnv (budget : BitVec 64) : Env where
  fp := sampleFp
  rt := sampleRuntime
  lk := sampleLink
  enter _ c := (c.rip, c)
  budget := budget
  jitCheck := false

/-- A page of `nop`, readable, writable and executable. -/
def nopCpu : Cpu := { Cpu.zero with
  rip := 0x1000
  mem := fun _ => 0x90
  as := { rsdAsInit with reg := [⟨0x1000, 0x2000, 7⟩] } }

/-- The guest is at an import stub, and a trampoline leads back to a function at `0x1000`. -/
def stubCpu (code : BitVec 64 → BitVec 8) : Cpu := { nopCpu with
  rip := 0x5000
  r := fun i => if i = rsp then 0x1800 else 0
  mem := code
  stubs := some ⟨0x5000, 1, fun _ => true, fun _ => -1, fun _ => false, fun _ => none⟩
  targets := [0x1000] }

/-- Native code that calls back once and then returns. -/
def callsBack : Nat → Input
  | 0 => ⟨sampleKernel, .callback 0 [] []⟩
  | _ => ⟨sampleKernel, .ret (0, 0, 0, 0)⟩

end Rashid.Proofs
