import Rashid.Jit
import Rashid.Native
import Rashid.Step
import Rashid.Syscall

/-!
# The machine

`step`, `rsd_guest_call`, `run_block` and `rsd_cpu_run`. A native function may call back into
the guest before it returns, so the nesting of loops in the source is a stack of frames here
and one transition is one turn of the innermost loop, one act of native code, or the entry of
a compiled block. What the kernel and native code do comes from an oracle, asked in order.
-/

namespace Rashid

/-- Where main returns to, and where a guest function called back from native code returns to. -/
def returnMagic : BitVec 64 := 0xfffffffffffff000
def callbackMagic : BitVec 64 := 0xfffffffffffff100

structure Env where
  fp : Fp
  rt : Runtime
  lk : Link
  /-- Enters a compiled block: the address to continue at, and the cpu. -/
  enter : List A64 → Cpu → BitVec 64 × Cpu
  budget : BitVec 64
  jitCheck : Bool

/-! ### One step -/

inductive StepOut where
  | done
  /-- A system call that returned. -/
  | sys
  /-- The exit system call. -/
  | exit
  /-- Main has returned. -/
  | returned
  /-- A native function is to be entered. -/
  | native (call : NativeCall)

def StepOut.isNative : StepOut → Bool
  | .native _ => true
  | _ => false

/-- The guest is through, by the exit system call or by returning from main. -/
def StepOut.isExit : StepOut → Bool
  | .exit | .returned => true
  | _ => false

def noThunk (imp : Nat) : M Unit := Prog.modify fun c =>
  { c with fault := some .noThunk, faultRip := c.rip, faultImport := some imp, running := false }

def stepStub (rt : Runtime) (st : Stubs) (imp : Nat) : M StepOut :=
  if st.fns imp then
    match st.va imp with
    | some sp => do
      let call ← callNativeVariadic rt imp sp (st.objcrecv imp)
      match call with
      | some call => pure (.native call)
      | none => pure .done
    | none => do
      let call ← callNative rt imp (st.cbarg imp) (st.objcrecv imp)
      pure (.native call)
  else do
    noThunk imp
    pure .done

def sysStepOut : SysOut → StepOut
  | .ret => .sys
  | .exit => .exit

def stepCode (fp : Fp) (k : Kernel) : M StepOut := do
  let (out, _) ← stepInsn fp
  match out with
  | .done => pure .done
  | .syscall =>
    let r ← doSyscall k
    pure (sysStepOut r)

/-- The two magic addresses are not ordinary guest code, so they are recognised before the
executable-memory check. -/
def step (fp : Fp) (rt : Runtime) (k : Kernel) : M StepOut := fun c =>
  if c.rip = callbackMagic then (.done, { c with running := false })
  else if c.rip = returnMagic then
    (.returned, { c with running := false, exitCode := (c.r rax &&& 0xff).setWidth 32 })
  else
    match c.stubs, rsdStubIndex c.stubs c.rip with
    | some st, some imp => stepStub rt st imp c
    | _, _ =>
      if rsdAsOk c.as c.rip 1 rsdProtX then stepCode fp k c
      else (.done, (memfault c.rip (why c.as c.rip 1) c).2)

/-! ### Checking a compiled block -/

/-- Newest first, so that overlapping windows unwind in the order they were made. -/
def undoWrites (w : WriteLog) (m : Mem) : Mem := w.e.foldr (fun e m => poke m e.addr e.before) m

def WriteLog.empty : WriteLog := ⟨[], false⟩

/-- Every window as the whole block left it. -/
def WriteLog.capture (w : WriteLog) (m : Mem) : WriteLog :=
  if w.overflow then w else { w with e := w.e.map fun e => { e with after := peek m e.addr e.span } }

/-- What `run_block` holds on to while the interpreter replays a block. -/
structure Check where
  before : Cpu
  after : Cpu
  jitLog : WriteLog

/-- Runs the body with its writes logged, puts memory back the way the block found it and
leaves the cpu ready for the replay. The region list and the trampolines are behind
pointers, so they are not put back. -/
def beginCheck (body : Cpu → BitVec 64 × Cpu) (c : Cpu) : Check × Cpu :=
  let r := body { c with wlog := some .empty }
  let log := r.2.wlog.getD .empty
  let after := { r.2 with rip := r.1, wlog := none }
  (⟨c, after, log.capture after.mem⟩,
    { c with mem := undoWrites log after.mem, as := after.as, targets := after.targets,
             wlog := some .empty })

def LogEntry.sameWrite (e f : LogEntry) : Bool := e.addr == f.addr && e.size == f.size && e.val == f.val

/-- `ok`: both faulted, or neither did and the registers agree. -/
def sameState (after c : Cpu) : Bool :=
  (after.fault.isSome && c.fault.isSome) ||
    (after.fault.isNone && c.fault.isNone && c.rip == after.rip && c.flags == after.flags &&
      decide (∀ i, c.r i = after.r i) && decide (∀ i, c.xmm i = after.xmm i))

/-- `mem_ok`: the same writes in the same order, and the same bytes around each of them. -/
def sameWrites (jitLog intLog : WriteLog) (m : Mem) : Bool :=
  (jitLog.overflow || intLog.overflow || jitLog.e.length == intLog.e.length) &&
    (jitLog.overflow ||
      ((jitLog.e.zip intLog.e).all fun p => p.1.sameWrite p.2) && jitLog.e.all fun e => e.after == peek m e.addr e.span)

/-- The comparison after the replay: whether the two runs agree, and the cpu. -/
def finishCheck (k : Check) (ninsn : Nat) (c : Cpu) : Bool × Cpu :=
  let intLog := c.wlog.getD .empty
  let c := { c with wlog := none }
  if sameState k.after c && sameWrites k.jitLog intLog c.mem then
    (true, { c with icount := c.icount + BitVec.ofNat 64 ninsn })
  else (false, { c with fault := some .disagreed, faultRip := k.before.rip, running := false })

/-- `while (done < ninsn && c->running) step(c)`, for steps that no native call interrupts. -/
def replay (stp : Cpu → Cpu) : Nat → Cpu → Cpu
  | 0, c => c
  | n + 1, c => if c.running then replay stp n (stp c) else c

/-- Runs one compiled block and, when asked, interprets the same instructions from the same
state and checks that nothing differs. -/
def runBlock (check : Bool) (stp : Cpu → Cpu) (body : Cpu → BitVec 64 × Cpu) (ninsn : Nat) (c : Cpu) : Bool × Cpu :=
  if check then
    let (k, c) := beginCheck body c
    finishCheck k ninsn (replay stp ninsn c)
  else
    let r := body c
    (true, { r.2 with rip := r.1, icount := r.2.icount + BitVec.ofNat 64 ninsn })

/-! ### Callbacks -/

/-- What `rsd_guest_call` puts back when the guest function is through. -/
structure Frame where
  r : Fin 16 → BitVec 64
  xmm : Fin 16 → Xmm
  rip : BitVec 64
  flags : BitVec 32

def Cpu.frame (c : Cpu) : Frame := ⟨c.r, c.xmm, c.rip, c.flags⟩

/-- The frame goes below the guest's stack pointer, clear of the red zone. -/
def callbackSp (sp : BitVec 64) : BitVec 64 := ((sp - 256) &&& ~~~15) - 8

def loadArgs (args : List (BitVec 64)) (r : Fin 16 → BitVec 64) : Fin 16 → BitVec 64 := fun i =>
  match argOrder.findIdx? (· == i) with
  | some k => args.getD k 0
  | none => r i

def loadFloats (d : List (BitVec 64)) (x : Fin 16 → Xmm) : Fin 16 → Xmm := fun i =>
  if i.val < 8 then (x i).setQ0 (d.getD i.val 0) else x i

/-- Sets the guest function up: its arguments, its return address and its stack. -/
def enterCallback (target : BitVec 64) (x d : List (BitVec 64)) : M Unit := fun c =>
  let sp := callbackSp (c.r rsp)
  let c1 := { c with r := loadArgs x c.r, xmm := loadFloats d c.xmm }
  let c2 := (st sp callbackMagic 8 c1).2
  ((), { c2 with r := Function.update c2.r rsp sp, rip := target, running := true })

/-- A fault inside a callback cannot unwind out of the native frame in between, so it is carried
back and stops the outer run. -/
def leaveCallback (f : Frame) (c : Cpu) : Cpu :=
  { c with r := f.r, xmm := f.xmm, rip := f.rip, flags := f.flags, running := c.fault.isNone }

/-! ### The run -/

/-- What native code does next: call a trampoline, write memory, or return. -/
inductive NativeAct where
  | callback (index : BitVec 64) (x d : List (BitVec 64))
  | write (a : BitVec 64) (bytes : List (BitVec 8))
  | ret (r : BitVec 64 × BitVec 64 × BitVec 64 × BitVec 64)

structure Input where
  kernel : Kernel
  act : NativeAct

inductive Mode where
  | guest | native
  deriving DecidableEq, Repr

/-- What the outermost loop is: that of `rsd_cpu_run`, or the replay in `run_block`. -/
inductive Base where
  | main
  | replay (k : Check) (ninsn done : Nat)

/-- `asked` counts the oracle's answers used so far. `steps`, `exited` and `faulted` are history:
how often `step` has been called, whether the guest has exited or returned from main, and
whether a step has ended with a fault. -/
structure Conf where
  cpu : Cpu
  jit : Option Jit
  mode : Mode
  frames : List Frame
  base : Base
  asked : Nat
  steps : Nat
  exited : Bool
  faulted : Bool

namespace Conf

def start (c : Cpu) (jit : Option Jit) : Conf := ⟨c, jit, .guest, [], .main, 0, 0, false, false⟩

def exhaust (c : Cpu) : Cpu := { c with fault := some .budget, faultRip := c.rip, running := false }

/-- What the loop around a finished step does: the callback loop and the main loop count it, and
the main loop looks at the budget. -/
def afterStep (env : Env) (s : Conf) : Conf :=
  let s := { s with faulted := s.faulted || s.cpu.fault.isSome }
  match s.frames, s.base with
  | _ :: _, _ => { s with cpu := { s.cpu with icount := s.cpu.icount + 1 } }
  | [], .main =>
    let c := { s.cpu with icount := s.cpu.icount + 1 }
    { s with cpu := if c.icount = env.budget ∧ env.budget ≠ 0 then exhaust c else c }
  | [], .replay k n done => { s with base := .replay k n (done + 1) }

/-- Calls `step`. A native call suspends the loop until it returns. -/
def interp (env : Env) (i : Input) (s : Conf) : Conf :=
  let (out, c) := step env.fp env.rt i.kernel s.cpu
  let s := { s with cpu := c, steps := s.steps + 1, exited := s.exited || out.isExit }
  match out with
  | .native _ => { s with mode := .native }
  | .sys => afterStep env { s with asked := s.asked + 1 }
  | _ => afterStep env s

def budgetAfterBlock (env : Env) (c : Cpu) : Cpu :=
  if env.budget ≠ 0 ∧ env.budget ≤ c.icount then exhaust c else c

/-- Enters a compiled block, or starts the replay that checks it. -/
def block (env : Env) (code : List A64) (n : Nat) (s : Conf) : Conf :=
  if env.jitCheck then
    let (k, c) := beginCheck (env.enter code) s.cpu
    { s with cpu := c, base := .replay k n 0 }
  else
    let r := env.enter code s.cpu
    { s with cpu := budgetAfterBlock env { r.2 with rip := r.1, icount := r.2.icount + BitVec.ofNat 64 n } }

/-- One turn of the loop in `rsd_cpu_run`. -/
def dispatch (env : Env) (i : Input) (s : Conf) : Conf :=
  match s.jit with
  | none => interp env i s
  | some j =>
    match rsdJitLookup env.lk env.jitCheck s.cpu s.cpu.rip j with
    | (some code, j') => block env code (rsdJitCount j' s.cpu.rip) { s with jit := some j' }
    | (none, j') => interp env i { s with jit := some j' }

def endReplay (env : Env) (k : Check) (n : Nat) (s : Conf) : Conf :=
  match finishCheck k n s.cpu with
  | (true, c) => { s with cpu := budgetAfterBlock env c, base := .main }
  | (false, c) => { s with cpu := c, base := .main }

def nativeAct (env : Env) (act : NativeAct) (s : Conf) : Conf :=
  let s := { s with asked := s.asked + 1 }
  match act with
  | .callback index x d =>
    let target := rsdCallbackTarget s.cpu.targets index
    if target = 0 then s
    else
      { s with cpu := (enterCallback target x d s.cpu).2, frames := s.cpu.frame :: s.frames, mode := .guest }
  | .write a bytes => { s with cpu := { s.cpu with mem := poke s.cpu.mem a bytes } }
  | .ret r => afterStep env { s with cpu := (finishNativeCall r s.cpu).2, mode := .guest }

/-- One transition. A run that is over stays as it is. -/
def next (env : Env) (i : Input) (s : Conf) : Conf :=
  match s.mode with
  | .native => nativeAct env i.act s
  | .guest =>
    match s.frames, s.base with
    | [], .main => if s.cpu.running then dispatch env i s else s
    | [], .replay k n done => if done < n ∧ s.cpu.running then interp env i s else endReplay env k n s
    | f :: rest, _ =>
      if s.cpu.running then interp env i s
      else { s with cpu := leaveCallback f s.cpu, frames := rest, mode := .native }

/-- The state after `n` transitions. -/
def run (env : Env) (oracle : Nat → Input) : Nat → Conf → Conf
  | 0, s => s
  | n + 1, s => run env oracle n (next env (oracle s.asked) s)

/-- The loop of `rsd_cpu_run` has ended. -/
def ended (s : Conf) : Prop := s.mode = .guest ∧ s.frames = [] ∧ s.base matches .main ∧ s.cpu.running = false

end Conf

end Rashid
