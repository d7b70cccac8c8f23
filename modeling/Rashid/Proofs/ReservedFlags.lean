import Rashid.CpuInit
import Rashid.Proofs.CachedBlocks
import Rashid.Proofs.MachineGauge
import Rashid.Proofs.StackInsns
import Rashid.Proofs.UndoRestores

/-!
# The reserved bits of the flags word

Bit 1 reads as one and interrupts are enabled: whatever the guest runs, the bits that are not
modelled stay as the cpu is set up with, and `popfq` puts them there.
-/

namespace Rashid.Proofs

open Conf

/-- The reserved bits as `popfq` makes them. -/
def Forced (f : BitVec 32) : Prop := reserved f = 0x202

/-- What keeps the reserved bits where they belong. -/
def KeepsForced (_ : Nat) (c c' : Cpu) : Prop := Forced c.flags → Forced c'.flags

instance : Gauge KeepsForced where
  refl _ h := h
  trans h h' hc := h' (h hc)
  mono h _ := h
  aside _ h hc := h.elim (fun h => h.trans hc) id
  entry _ _ h hc := by
    unfold Forced
    rw [h]
    exact hc

/-! ### Runs -/

/-- Every flags word in the machine: that of the cpu, those that callbacks put back, and that of a
block which is being checked. -/
structure FlagsInv (env : Env) (s : Conf) : Prop where
  jit : JitOk env.lk env.jitCheck s.jit
  cpu : Forced s.cpu.flags
  frames (f : Frame) : f ∈ s.frames → Forced f.flags
  after (k : Check) (n done : Nat) : s.base = .replay k n done → Forced k.after.flags

section Runs

variable {env : Env} {aenv : A64Env} {i : Input} {s : Conf}

lemma afterStep_flags : (afterStep env s).cpu.flags = s.cpu.flags := by
  unfold afterStep
  simp only
  split
  · rfl
  · split <;> rfl
  · rfl

lemma budgetAfterBlock_flags (c : Cpu) : (budgetAfterBlock env c).flags = c.flags := by
  unfold budgetAfterBlock
  split <;> rfl

lemma st_forced (a v : BitVec 64) {c : Cpu} (h : Forced c.flags) : Forced (st a v 8 c).2.flags :=
  Spends.spends (R := KeepsForced) (p := st a v 8) c h

lemma enterCallback_flags (target : BitVec 64) (x d : List (BitVec 64)) (c : Cpu) (h : Forced c.flags) :
    Forced (enterCallback target x d c).2.flags :=
  st_forced (c := { c with r := loadArgs x c.r, xmm := loadFloats d c.xmm }) _ _ h

lemma nativeAct_flags (act : NativeAct) (h : Forced s.cpu.flags) : Forced (nativeAct env act s).cpu.flags := by
  cases act with
  | callback index x d =>
    simp only [nativeAct]
    split
    · exact h
    · exact enterCallback_flags _ x d s.cpu h
  | write a bytes => exact h
  | ret r =>
    unfold nativeAct
    rw [afterStep_flags]
    exact Spends.spends (R := KeepsForced) (p := finishNativeCall r) s.cpu h

lemma interp_flags (h : Forced s.cpu.flags) : Forced (interp env i s).cpu.flags := by
  have hstep : Forced (stepped env i s).cpu.flags := step_gauge (R := KeepsForced) env.fp env.rt i.kernel s.cpu h
  rcases interp_cases env i s with ⟨-, heq⟩ | ⟨-, a, heq⟩
  · rw [heq]
    exact hstep
  · rw [heq, afterStep_flags]
    exact hstep

/-- A block, whether it has been compiled with its writes logged or without. -/
lemma Enters.forced (henter : Enters env aenv) {check : Bool} {code : List A64} {n : Nat}
    (hc : Compiled env.lk check code n)
    {c : Cpu} (h : Forced c.flags) : Forced (env.enter code c).2.flags :=
  (henter.compiled (gauge_effect (R := KeepsForced) env.fp check) hc c).2 h

lemma block_flags (henter : Enters env aenv) {code : List A64} {n : Nat} (hc : Compiled env.lk env.jitCheck code n)
    (h : Forced s.cpu.flags) : Forced (block env code n s).cpu.flags := by
  unfold block
  split
  · exact h
  · simp only [budgetAfterBlock_flags]
    exact henter.forced hc h

lemma block_after (henter : Enters env aenv) {code : List A64} {m : Nat} (hc : Compiled env.lk env.jitCheck code m)
    (hbase : s.base = .main) (h : Forced s.cpu.flags) {k : Check} {n done : Nat}
    (hk : (block env code m s).base = .replay k n done) : Forced k.after.flags := by
  unfold block at hk
  split at hk
  · obtain ⟨rfl, -, -⟩ := Base.replay.inj hk
    exact henter.forced (c := { s.cpu with wlog := some .empty }) hc h
  · exact absurd (hbase.symm.trans hk) nofun

lemma endReplay_flags (k : Check) (n : Nat) : (endReplay env k n s).cpu.flags = s.cpu.flags := by
  have hfinish : (finishCheck k n s.cpu).2.flags = s.cpu.flags := by
    unfold finishCheck
    simp only
    split <;> rfl
  unfold endReplay
  split
  · next heq =>
    rw [heq] at hfinish
    exact (budgetAfterBlock_flags _).trans hfinish
  · next heq =>
    rw [heq] at hfinish
    exact hfinish

lemma next_forced (henter : Enters env aenv) (h : FlagsInv env s) : Forced (next env i s).cpu.flags := by
  unfold next
  split
  · exact nativeAct_flags i.act h.cpu
  · split
    · split
      · obtain ⟨j, -, heq | ⟨code, n, hc, heq⟩⟩ := dispatch_cases env i s h.jit
        · rw [heq]
          exact interp_flags h.cpu
        · rw [heq]
          exact block_flags henter hc h.cpu
      · exact h.cpu
    · split
      · exact interp_flags h.cpu
      · rw [endReplay_flags]
        exact h.cpu
    · next f rest hframes =>
      split
      · exact interp_flags h.cpu
      · exact h.frames f (hframes ▸ List.mem_cons_self)

lemma next_nil (hjit : JitOk env.lk env.jitCheck s.jit) (hm : s.mode = .guest) (hf : s.frames = []) :
    (next env i s).frames = [] := by
  unfold next
  rw [hm, hf]
  simp only
  split
  · split
    · obtain ⟨j, -, heq | ⟨code, n, -, heq⟩⟩ := dispatch_cases env i s hjit
      · rw [heq, interp_frames]
        exact hf
      · rw [heq]
        unfold block
        split <;> exact hf
    · exact hf
  · split
    · rw [interp_frames]
      exact hf
    · unfold endReplay
      split <;> exact hf
  · next heq => cases heq

/-- The frames are those there were, without the topmost, or with the state that is interrupted. -/
lemma next_frame_flags (h : FlagsInv env s) (f : Frame) (hf : f ∈ (next env i s).frames) : Forced f.flags := by
  cases hm : s.mode with
  | native =>
    simp only [next, hm] at hf
    rcases nativeAct_frames env i.act s with heq | heq
    · exact h.frames f (heq ▸ hf)
    · rw [heq] at hf
      rcases List.mem_cons.mp hf with rfl | hf
      · exact h.cpu
      · exact h.frames f hf
  | guest =>
    cases hframes : s.frames with
    | nil => exact absurd (next_nil h.jit hm hframes ▸ hf) List.not_mem_nil
    | cons g rest =>
      rcases @next_frames env s i g rest hframes with heq | heq | heq
      · exact h.frames f (heq ▸ hf)
      · rw [heq] at hf
        rcases List.mem_cons.mp hf with rfl | hf
        · exact h.cpu
        · exact h.frames f hf
      · rw [heq] at hf
        exact h.frames f (hframes ▸ List.mem_cons_of_mem g hf)

lemma next_flagsInv (henter : Enters env aenv) (h : FlagsInv env s) : FlagsInv env (next env i s) := by
  refine ⟨next_jit h.jit, next_forced henter h, next_frame_flags h, fun k n done hbase => ?_⟩
  rcases next_base h.jit hbase with ⟨d, hd⟩ | ⟨-, -, hmain, code, m, j, hc, heq⟩
  · exact h.after k n d hd
  · rw [heq] at hbase
    exact block_after (s := { s with jit := j }) henter hc hmain h.cpu hbase

end Runs

/-! ### The first state -/

lemma fillStack_flags (base : BitVec 64) (as : As) (m : Mem) (entry : BitVec 64) (hasMain : Bool)
    (argv : List (List (BitVec 8))) :
    Forced (fillStack base as m entry hasMain argv).flags := by
  have hzero : Forced Cpu.zero.flags := by
    unfold Forced
    decide
  cases hasMain with
  | false => exact hzero
  | true =>
    unfold fillStack
    simp only [if_true]
    exact st_forced _ _ hzero

lemma rsdCpuInit_flags {h : Host} {as : As} {m : Mem} {entry : BitVec 64} {hasMain : Bool}
    {argv : List (List (BitVec 8))} {c : Cpu}
    (hinit : rsdCpuInit h as m entry hasMain argv = some c) : Forced c.flags := by
  unfold rsdCpuInit at hinit
  generalize mapStack h as = r at hinit
  obtain ⟨base, as', evs⟩ := r
  simp only at hinit
  split at hinit
  · cases hinit
  · obtain rfl := Option.some.inj hinit
    exact fillStack_flags ..

lemma start_flagsInv {env : Env} {c : Cpu} {jit : Option Jit} (hjit : JitOk env.lk env.jitCheck jit) (h : Forced c.flags) :
    FlagsInv env (start c jit) where
  jit := hjit
  cpu := h
  frames _ hf := absurd hf List.not_mem_nil
  after _ _ _ hbase := nomatch hbase

/-! ### `pushfq` and `popfq` -/

section Stack

variable {fp : Fp} {d d' : Dec} {c : Cpu}

lemma pushfq_op : stepOp fp 0x9C d c = ((.done, d), (push (c.flags.setWidth 64) { c with rip := decRip d }).2) := by
  have hclass : opClass 0x9C = .pushfq := by decide
  unfold stepOp
  rw [hclass]
  rfl

lemma popfq_op : (stepOp fp 0x9D d c).2.flags =
    (((pop { c with rip := decRip d }).1.setWidth 32 &&& flAll) ||| 0x202) := by
  have hclass : opClass 0x9D = .popfq := by decide
  unfold stepOp
  rw [hclass]
  rfl

lemma forced_or (v : BitVec 32) : Forced ((v &&& flAll) ||| 0x202) := by
  unfold Forced
  rw [reserved_or, reserved_select (by decide)]
  rfl

/-- A flags word is its reserved bits and the others. -/
lemma forced_split {f : BitVec 32} (h : Forced f) : (f &&& flAll) ||| 0x202 = f := by
  have hsplit : (f &&& flAll) ||| reserved f = f := by
    unfold reserved
    rw [← BitVec.and_or_distrib_left, BitVec.or_not_self, BitVec.and_allOnes]
  rw [← (h : reserved f = 0x202)]
  exact hsplit

/-- The word that `pushfq` stores is the one that `popfq` reads. -/
lemma popfq_pushfq (hw : accessOk c.as (c.r rsp - 8) 8 rsdProtW = true)
    (hr : accessOk c.as (c.r rsp - 8) 8 rsdProtR = true) :
    (stepOp fp 0x9D d' (stepOp fp 0x9C d c).2).2.flags = (c.flags &&& flAll) ||| 0x202 := by
  let c1 := { c with rip := decRip d, r := Function.update c.r rsp (c.r rsp - 8) }
  have hpush : (push (c.flags.setWidth 64) { c with rip := decRip d }).2 = { c1 with
      wlog := c.wlog.map fun w => w.add (logEntry c.as c.mem (c.r rsp - 8) (c.flags.setWidth 64) 8)
      mem := storeLE c.mem (c.r rsp - 8) (c.flags.setWidth 64) 8 } :=
    congrArg Prod.snd (st_allowed_eval (c := c1) (c.flags.setWidth 64) 8 hw)
  rw [popfq_op, pushfq_op, hpush]
  generalize hc2 : ({ c1 with
      wlog := c.wlog.map fun w => w.add (logEntry c.as c.mem (c.r rsp - 8) (c.flags.setWidth 64) 8)
      mem := storeLE c.mem (c.r rsp - 8) (c.flags.setWidth 64) 8 } : Cpu) = c2
  have hrsp : c2.r rsp = c.r rsp - 8 := by
    rw [← hc2]
    exact Function.update_self rsp (c.r rsp - 8) c.r
  have hread : accessOk c2.as (c2.r rsp) 8 rsdProtR = true := by
    rw [hrsp, ← hc2]
    exact hr
  have hpop : (pop { c2 with rip := decRip d' }).1 = loadLE c2.mem (c2.r rsp) 8 :=
    congrArg Prod.fst (ld_allowed_eval (c := { c2 with rip := decRip d' }) 8 hread)
  rw [hpop, hrsp, ← hc2, loadLE_storeLE_word, BitVec.setWidth_setWidth_of_le _ (by decide), BitVec.setWidth_eq]

end Stack

/-- The reserved bits of a state are in place, there and in what callbacks put back; and what `pushfq`
stores in it `popfq` restores, unless one of the two is refused. -/
structure FlagsKept (fp : Fp) (s : Conf) : Prop where
  cpu : reserved s.cpu.flags = 0x202
  frames (f : Frame) : f ∈ s.frames → reserved f.flags = 0x202
  restored (d d' : Dec) : accessOk s.cpu.as (s.cpu.r rsp - 8) 8 rsdProtW = true →
    accessOk s.cpu.as (s.cpu.r rsp - 8) 8 rsdProtR = true →
      (stepOp fp 0x9D d' (stepOp fp 0x9C d s.cpu).2).2.flags = s.cpu.flags

lemma FlagsInv.kept {env : Env} {s : Conf} (h : FlagsInv env s) : FlagsKept env.fp s where
  cpu := h.cpu
  frames := h.frames
  restored d d' hw hr := by
    rw [popfq_pushfq hw hr]
    exact forced_split h.cpu

/-- Whatever a guest runs, its reserved flags stay as they were set up, and `popfq` puts them in place in any state. -/
theorem reserved_flags {env : Env} {aenv : A64Env} (henter : Enters env aenv) {h : Host} {as : As} {m : Mem}
    {entry : BitVec 64} {hasMain : Bool} {argv : List (List (BitVec 8))} {c : Cpu}
    (hinit : rsdCpuInit h as m entry hasMain argv = some c) (stubs : Option Stubs) {jit : Option Jit}
    (hjit : JitOk env.lk env.jitCheck jit) (oracle : Nat → Input) :
    (∀ n, FlagsKept env.fp (run env oracle n (start { c with stubs := stubs } jit))) ∧
      ∀ d c, reserved (stepOp env.fp 0x9D d c).2.flags = 0x202 := by
  constructor
  · intro n
    have hflags : Forced c.flags := rsdCpuInit_flags hinit
    have hstart : FlagsInv env (start { c with stubs := stubs } jit) := start_flagsInv hjit hflags
    exact (run_keeps (fun _ _ => next_flagsInv henter) hstart n).kept
  · intro d c
    rw [popfq_op]
    exact forced_or _

/-- `mov esp, 0x3FF0`, `xor eax, eax`, `pushfq`, `popfq`. -/
def flagsCode : Mem := fun a =>
  [0xBC, 0xF0, 0x3F, 0x00, 0x00, 0x31, 0xC0, 0x9C, 0x9D].getD (a - 0x1000).toNat 0

/-- Code, and a page that can be written but not read. -/
def flagsAs : As := { rsdAsInit with reg := [⟨0x1000, 0x2000, 5⟩, ⟨0x3000, 0x4000, 2⟩], cap := 16 }

def flagsHost : Host := ⟨0x4000, fun _ _ _ => some 0x100000, fun _ => none, fun _ _ => true, true⟩

def flagsCpu : Cpu := (rsdCpuInit flagsHost flagsAs flagsCode 0x1000 false []).getD Cpu.zero

/-- Where the stack cannot be read, `popfq` faults and leaves nothing but the reserved bits. -/
theorem popfq_refused :
    let s n := (run (sampleEnv 0) (fun _ => ⟨sampleKernel, .ret (0, 0, 0, 0)⟩) n (start flagsCpu none)).cpu
    rsdCpuInit flagsHost flagsAs flagsCode 0x1000 false [] = some flagsCpu ∧
      (flagsCode (s 2).rip = 0x9C ∧ (s 2).flags = 0x246) ∧
      (flagsCode (s 3).rip = 0x9D ∧ (s 3).flags = 0x246 ∧ (s 3).fault = none) ∧
      (s 4).flags = 0x202 ∧ (s 4).fault = some .protection := by
  intro s
  refine ⟨rfl, ?_⟩
  decide

def flagsStart : Conf := start { flagsCpu with stubs := none } (some rsdJitInit)

/-- On the stack that the guest is given both are allowed, and the bits stay through a run with the compiler. -/
theorem reserved_flags_kept :
    (stepOp sampleFp 0x9D (Dec.start 0x1001) (stepOp sampleFp 0x9C (Dec.start 0x1000) flagsStart.cpu).2).2.flags =
        flagsStart.cpu.flags ∧
      reserved (run fallEnv (fun _ => fallInput) 9 flagsStart).cpu.flags = 0x202 := by
  have hinit : rsdCpuInit flagsHost flagsAs flagsCode 0x1000 false [] = some flagsCpu := rfl
  have hkept : ∀ n, FlagsKept sampleFp (run fallEnv (fun _ => fallInput) n flagsStart) :=
    (reserved_flags fallEnv_enters hinit none cacheOk_init.some fun _ => fallInput).1
  have hstart : FlagsKept sampleFp flagsStart := hkept 0
  have hrun := hkept 9
  exact ⟨hstart.restored _ _ (by decide) (by decide), hrun.cpu⟩

end Rashid.Proofs
