import Rashid.JitEmit
import Rashid.Sse

/-!
# Running compiled code

The meaning of the AArch64 instructions that `emit.h` names, on a machine whose memory has
three parts told apart by the base register: the fields of `rsd_cpu` behind x19, the hit
entries of `rsd_as` behind x9, and guest memory behind any other. What the host's floating
point computes, and what a call leaves in the registers it may clobber, are parameters.
-/

namespace Rashid

structure Nzcv where
  n : Bool
  z : Bool
  c : Bool
  v : Bool
  deriving DecidableEq, Repr

namespace Nzcv

def ofAdd {w : Nat} (a b : BitVec w) : Nzcv := ⟨(a + b).msb, a + b == 0, a.uaddOverflow b, a.saddOverflow b⟩

/-- The carry of a subtraction is set when there is no borrow. -/
def ofSub {w : Nat} (a b : BitVec w) : Nzcv := ⟨(a - b).msb, a - b == 0, !a.usubOverflow b, a.ssubOverflow b⟩

def ofAnd {w : Nat} (a b : BitVec w) : Nzcv := ⟨(a &&& b).msb, a &&& b == 0, false, false⟩

end Nzcv

def A64Cond.holds (f : Nzcv) : A64Cond → Bool
  | .eq => f.z
  | .ne => !f.z
  | .cs => f.c
  | .cc => !f.c
  | .mi => f.n
  | .pl => !f.n
  | .vs => f.v
  | .vc => !f.v
  | .hi => f.c && !f.z
  | .ls => !f.c || f.z
  | .gt => !f.z && f.n == f.v

/-- The arithmetic of the floating-point registers, on bit patterns. -/
structure A64Fp where
  fopD : FOp → BitVec 64 → BitVec 64 → BitVec 64
  fopS : FOp → BitVec 32 → BitVec 32 → BitVec 32
  sqrtD : BitVec 64 → BitVec 64
  sqrtS : BitVec 32 → BitVec 32
  cmpD : BitVec 64 → BitVec 64 → Nzcv
  cmpS : BitVec 32 → BitVec 32 → Nzcv
  ofIntD : BitVec 64 → BitVec 64
  ofIntS : BitVec 64 → BitVec 32
  narrow : BitVec 64 → BitVec 32
  widen : BitVec 32 → BitVec 64

/-- What a call may leave in the registers it need not preserve. -/
structure Junk where
  x : A64Reg → BitVec 64
  d : A64Reg → BitVec 64
  f : Nzcv

/-- Everything about the host that compiled code meets. `junk k` is what the `k`-th call of a
block leaves behind. -/
structure A64Env where
  lk : Link
  fp : Fp
  afp : A64Fp
  cpuPtr : BitVec 64
  asPtr : BitVec 64
  retAddr : BitVec 64
  junk : Nat → Junk

structure A64State where
  x : A64Reg → BitVec 64
  d : A64Reg → BitVec 64
  f : Nzcv
  /-- What `push` has put below the caller's frame. -/
  stack : List (BitVec 64)
  calls : Nat
  cpu : Cpu

namespace A64State

/-- Register 31 reads as zero and is not written. -/
def rx (s : A64State) (r : A64Reg) : BitVec 64 := if r = zr then 0 else s.x r

def wx (s : A64State) (r : A64Reg) (v : BitVec 64) : A64State :=
  if r = zr then s else { s with x := Function.update s.x r v }

def rw (s : A64State) (r : A64Reg) : BitVec 32 := (s.rx r).setWidth 32

/-- A write of the low half clears the upper one. -/
def ww (s : A64State) (r : A64Reg) (v : BitVec 32) : A64State := s.wx r (v.setWidth 64)

def wd (s : A64State) (r : A64Reg) (v : BitVec 64) : A64State := { s with d := Function.update s.d r v }

def rs (s : A64State) (r : A64Reg) : BitVec 32 := (s.d r).setWidth 32

def ws (s : A64State) (r : A64Reg) (v : BitVec 32) : A64State := s.wd r (v.setWidth 64)

end A64State

/-! ### The fields of `rsd_cpu` and `rsd_as` -/

/-- The fields compiled code reaches. -/
inductive CpuField where
  | r (i : Fin 16)
  | xlo (i : Fin 16)
  | xhi (i : Fin 16)
  | curRip
  | flags
  | tmp (i : Fin 8)
  | as
  | running
  deriving DecidableEq, Repr

def cpuField (off : Nat) : Option CpuField :=
  if h : off < 128 then (if off % 8 = 0 then some (.r ⟨off / 8, by omega⟩) else none)
  else if h : off < 384 then
    if (off - 128) % 16 = 0 then some (.xlo ⟨(off - 128) / 16, by omega⟩)
    else if (off - 128) % 16 = 8 then some (.xhi ⟨(off - 128) / 16, by omega⟩)
    else none
  else if off = offCurRip then some .curRip
  else if off = offFlags then some .flags
  else if h : 440 ≤ off ∧ off < 504 then
    (if off % 8 = 0 then some (.tmp ⟨(off - 440) / 8, by omega⟩) else none)
  else if off = offAs then some .as
  else if off = offRunning then some .running
  else none

def CpuField.load (asPtr : BitVec 64) (c : Cpu) (size : Nat) : CpuField → Option (BitVec 64)
  | .r i => if size = 8 then some (c.r i) else none
  | .xlo i => if size = 8 then some (c.xmm i).lo else if size = 4 then some ((c.xmm i).d0.setWidth 64) else none
  | .xhi i => if size = 8 then some (c.xmm i).hi else none
  | .curRip => if size = 8 then some c.curRip else none
  | .flags => if size = 4 then some (c.flags.setWidth 64) else none
  | .tmp i => if size = 8 then some (c.jitTmp i) else none
  | .as => if size = 8 then some asPtr else none
  | .running => if size = 1 then some (if c.running then 1 else 0) else none

def CpuField.store (c : Cpu) (v : BitVec 64) (size : Nat) : CpuField → Option Cpu
  | .r i =>
    if size = 8 then some { c with r := Function.update c.r i v }
    else if size = 1 then
      some { c with r := Function.update c.r i ((c.r i &&& ~~~(0xff : BitVec 64)) ||| (v &&& 0xff)) }
    else none
  | .xlo i =>
    if size = 8 then some { c with xmm := Function.update c.xmm i ((c.xmm i).setQ0 v) }
    else if size = 4 then some { c with xmm := Function.update c.xmm i ((c.xmm i).setD0 (v.setWidth 32)) }
    else none
  | .xhi i => if size = 8 then some { c with xmm := Function.update c.xmm i { c.xmm i with hi := v } } else none
  | .curRip => if size = 8 then some { c with curRip := v } else none
  | .flags => if size = 4 then some { c with flags := v.setWidth 32 } else none
  | .tmp i => if size = 8 then some { c with jitTmp := Function.update c.jitTmp i v } else none
  | .as => none
  | .running => none

/-- The eight words of `rd` and `wr`. -/
def asField (as : As) (off : Nat) : Option (BitVec 64) :=
  if off = offRd then some as.rd.first.lo
  else if off = offRd + 8 then some as.rd.first.lim
  else if off = offRd + 16 then some as.rd.second.lo
  else if off = offRd + 24 then some as.rd.second.lim
  else if off = offWr then some as.wr.first.lo
  else if off = offWr + 8 then some as.wr.first.lim
  else if off = offWr + 16 then some as.wr.second.lo
  else if off = offWr + 24 then some as.wr.second.lim
  else none

/-- The two quadwords at a pointer into `rsd_cpu`. -/
def readPair (c : Cpu) (off : Nat) : Option Xmm :=
  match cpuField off with
  | some (.xlo i) => some (c.xmm i)
  | some (.tmp i) => if i.val < 7 then some ⟨c.jitTmp i, c.jitTmp (i + 1)⟩ else none
  | _ => none

def writePair (c : Cpu) (off : Nat) (v : Xmm) : Option Cpu :=
  match cpuField off with
  | some (.xlo i) => some { c with xmm := Function.update c.xmm i v }
  | some (.tmp i) =>
    if i.val < 7 then
      some { c with jitTmp := Function.update (Function.update c.jitTmp i v.lo) (i + 1) v.hi }
    else none
  | _ => none

/-! ### The routines shared with the interpreter -/

def noteHit (a : BitVec 64) (prot : BitVec 32) : M Unit := Prog.modify fun c =>
  if c.fault = none then { c with as := rsdAsNote c.as a prot } else c

/-- When a load or a store succeeds, its region is noted so that the next access there can be
made in line. -/
def rsdILd (a : BitVec 64) (size : Nat) : M (BitVec 64) := do
  let v ← ld a size
  noteHit a rsdProtR
  pure v

def rsdISt (a v : BitVec 64) (size : Nat) : M Unit := do
  st a v size
  noteHit a rsdProtW

def rsdIWlog (a v : BitVec 64) (size : Nat) : M Unit := logWrite a v size

def updFlags (g : BitVec 32 → BitVec 32) : M Unit := Prog.modify fun c => { c with flags := g c.flags }

/-- A routine that is given the cpu, with its other arguments. -/
def runHelper (fp : Fp) (a1 a2 a3 a4 : BitVec 64) : Helper → Option (M (Option (BitVec 64)))
  | .ld => some (some <$> rsdILd a1 a2.toNat)
  | .st => some (do rsdISt a1 a2 a3.toNat; pure none)
  | .wlog => some (do rsdIWlog a1 a2 a3.toNat; pure none)
  | .flagsAdd => some (do updFlags (flagsAdd · a1 a2 a3 a4.toNat); pure none)
  | .flagsSub => some (do updFlags (flagsSub · a1 a2 a3 a4.toNat); pure none)
  | .flagsLogic => some (do updFlags (flagsLogic · a1 a2.toNat); pure none)
  | .flagsInc => some (do updFlags (flagsInc · a1 a2 a3.toNat); pure none)
  | .flagsDec => some (do updFlags (flagsDec · a1 a2 a3.toNat); pure none)
  | .shift => some fun c =>
      (some (rsdIShift c.flags a1 a2 a3.toNat (a4.setWidth 8)).1,
        { c with flags := (rsdIShift c.flags a1 a2 a3.toNat (a4.setWidth 8)).2 })
  | .comisd => some (do updFlags (comis fp · a1 a2); pure none)
  | .comiss => some (do updFlags (comis fp · (fp.widen (a1.setWidth 32)) (fp.widen (a2.setWidth 32))); pure none)
  | .cvt2si => some (pure (some (rsdICvt2si fp a1 a2.toNat (a3 != 0) a4.toNat)))
  | .ld128 | .st128 | .nanD | .nanS => none

/-- A call: the value returned in x0, if any, and the cpu afterwards. -/
def callRoutine (env : A64Env) (s : A64State) (h : Helper) : Option (Option (BitVec 64) × Cpu) :=
  match h with
  | .nanD => some (some (rsdINanD (s.x x0) (s.x x1) (s.x x2) (s.x x3 != 0)), s.cpu)
  | .nanS =>
    some (some ((rsdINanS ((s.x x0).setWidth 32) ((s.x x1).setWidth 32) ((s.x x2).setWidth 32)
      (s.x x3 != 0)).setWidth 64), s.cpu)
  | .ld128 =>
    if s.x x0 = env.cpuPtr then
      let (v, c) := ld128 (s.x x1) s.cpu
      (writePair c (s.x x2 - env.cpuPtr).toNat v).map fun c => (none, c)
    else none
  | .st128 =>
    if s.x x0 = env.cpuPtr then
      (readPair s.cpu (s.x x2 - env.cpuPtr).toNat).map fun v => (none, (st128 (s.x x1) v s.cpu).2)
    else none
  | h =>
    if s.x x0 = env.cpuPtr then (runHelper env.fp (s.x x1) (s.x x2) (s.x x3) (s.x x4) h).map fun p => p s.cpu
    else none

def allHelpers : List Helper :=
  [.ld, .st, .flagsAdd, .flagsSub, .flagsLogic, .flagsInc, .flagsDec, .shift, .wlog,
    .ld128, .st128, .comisd, .comiss, .cvt2si, .nanD, .nanS]

/-- The routine at an address. -/
def Link.find (lk : Link) (a : BitVec 64) : Option Helper := allHelpers.find? fun h => lk.addr h == a

/-- x19 to x28 and the frame pointer survive a call. -/
def calleeSaved (r : A64Reg) : Bool := decide (19 ≤ r.val) && decide (r.val ≤ 29)

/-- The state after a call that returned `v` and left the cpu `c`. -/
def A64State.afterCall (env : A64Env) (s : A64State) (v : Option (BitVec 64)) (c : Cpu) : A64State where
  x := fun r =>
    if calleeSaved r then s.x r
    else if r = x0 then v.getD ((env.junk s.calls).x x0)
    else (env.junk s.calls).x r
  d := (env.junk s.calls).d
  f := (env.junk s.calls).f
  stack := s.stack
  calls := s.calls + 1
  cpu := c

def callHelper (env : A64Env) (s : A64State) (a : BitVec 64) : Option A64State :=
  match env.lk.find a with
  | none => none
  | some h => (callRoutine env s h).map fun r => s.afterCall env r.1 r.2

/-! ### Instructions -/

def loadAt (env : A64Env) (s : A64State) (n : A64Reg) (off size : Nat) : Option (BitVec 64) :=
  if n = cpuReg then
    if s.x n = env.cpuPtr then (cpuField off).bind (·.load env.asPtr s.cpu size) else none
  else if n = x9 then
    if s.x n = env.asPtr ∧ size = 8 then asField s.cpu.as off else none
  else some (loadLE s.cpu.mem (s.x n + BitVec.ofNat 64 off) size)

def storeAt (env : A64Env) (s : A64State) (n : A64Reg) (off : Nat) (v : BitVec 64) (size : Nat) :
    Option A64State :=
  if n = cpuReg then
    if s.x n = env.cpuPtr then
      ((cpuField off).bind (·.store s.cpu v size)).map fun c => { s with cpu := c }
    else none
  else if n = x9 then none
  else some { s with cpu := { s.cpu with mem := storeLE s.cpu.mem (s.x n + BitVec.ofNat 64 off) v size } }

def maskBits (lsb width : Nat) : BitVec 64 := (BitVec.allOnes width).setWidth 64 <<< lsb

/-- Every instruction that only passes control to the next one. -/
def A64.step (env : A64Env) (s : A64State) : A64 → Option A64State
  | .ldr t n off => (loadAt env s n off 8).map (s.wx t)
  | .ldrW t n off => (loadAt env s n off 4).map (s.wx t)
  | .ldrh t n off => (loadAt env s n off 2).map (s.wx t)
  | .ldrb t n off => (loadAt env s n off 1).map (s.wx t)
  | .str t n off => storeAt env s n off (s.rx t) 8
  | .strW t n off => storeAt env s n off (s.rx t) 4
  | .strh t n off => storeAt env s n off (s.rx t) 2
  | .strb t n off => storeAt env s n off (s.rx t) 1
  | .push t => some { s with stack := s.rx t :: s.stack }
  | .pop t =>
    match s.stack with
    | [] => none
    | v :: rest => some ({ s with stack := rest }.wx t v)
  | .movz d imm hw => some (s.wx d (imm.setWidth 64 <<< (16 * hw)))
  | .movk d imm hw =>
    some (s.wx d ((s.rx d &&& ~~~maskBits (16 * hw) 16) ||| (imm.setWidth 64 <<< (16 * hw))))
  | .mov d m => some (s.wx d (s.rx m))
  | .add d n m => some (s.wx d (s.rx n + s.rx m))
  | .sub d n m => some (s.wx d (s.rx n - s.rx m))
  | .and d n m => some (s.wx d (s.rx n &&& s.rx m))
  | .orr d n m => some (s.wx d (s.rx n ||| s.rx m))
  | .eor d n m => some (s.wx d (s.rx n ^^^ s.rx m))
  | .addW d n m => some (s.ww d (s.rw n + s.rw m))
  | .subW d n m => some (s.ww d (s.rw n - s.rw m))
  | .andW d n m => some (s.ww d (s.rw n &&& s.rw m))
  | .orrW d n m => some (s.ww d (s.rw n ||| s.rw m))
  | .eorW d n m => some (s.ww d (s.rw n ^^^ s.rw m))
  | .movW d m => some (s.ww d (s.rw m))
  | .addImm d n imm => some (s.wx d (s.rx n + BitVec.ofNat 64 imm))
  | .subImm d n imm => some (s.wx d (s.rx n - BitVec.ofNat 64 imm))
  | .addShift d n m shift => some (s.wx d (s.rx n + (s.rx m <<< shift)))
  | .mul d n m => some (s.wx d (s.rx n * s.rx m))
  | .mulW d n m => some (s.ww d (s.rw n * s.rw m))
  | .ubfx d n lsb width => some (s.wx d (((s.rx n >>> lsb).setWidth width).setWidth 64))
  | .bfi d n lsb width =>
    some (s.wx d ((s.rx d &&& ~~~maskBits lsb width) ||| (((s.rx n).setWidth width).setWidth 64 <<< lsb)))
  | .sxt d n bits => some (s.wx d (((s.rx n).setWidth bits).signExtend 64))
  | .sxtW d n bits => some (s.ww d (((s.rx n).setWidth bits).signExtend 32))
  | .cmp0 n => some { s with f := Nzcv.ofSub (s.rx n) 0 }
  | .csel d n m cond => some (s.wx d (if cond.holds s.f then s.rx n else s.rx m))
  | .bic d n m => some (s.wx d (s.rx n &&& ~~~s.rx m))
  | .csetm d cond => some (s.wx d (if cond.holds s.f then BitVec.allOnes 64 else 0))
  | .csetmW d cond => some (s.ww d (if cond.holds s.f then BitVec.allOnes 32 else 0))
  | .addsZr n m w => some { s with f := if w then Nzcv.ofAdd (s.rw n) (s.rw m) else Nzcv.ofAdd (s.rx n) (s.rx m) }
  | .subsZr n m w => some { s with f := if w then Nzcv.ofSub (s.rw n) (s.rw m) else Nzcv.ofSub (s.rx n) (s.rx m) }
  | .andsZr n m w => some { s with f := if w then Nzcv.ofAnd (s.rw n) (s.rw m) else Nzcv.ofAnd (s.rx n) (s.rx m) }
  | .orrLsl d n m sh => some (s.wx d (s.rx n ||| (s.rx m <<< sh)))
  | .eorLsr d n m sh => some (s.wx d (s.rx n ^^^ (s.rx m >>> sh)))
  | .eorBit d n k => some (s.wx d (s.rx n ^^^ (1 <<< k)))
  | .cset d cond => some (s.wx d (if cond.holds s.f then 1 else 0))
  | .ldrD t n off => (loadAt env s n off 8).map (s.wd t)
  | .ldrS t n off => (loadAt env s n off 4).map (s.wd t)
  | .strD t n off => storeAt env s n off (s.d t) 8
  | .strS t n off => storeAt env s n off (s.d t) 4
  | .fopD op d n m => some (s.wd d (env.afp.fopD op (s.d n) (s.d m)))
  | .fopS op d n m => some (s.ws d (env.afp.fopS op (s.rs n) (s.rs m)))
  | .fsqrtD d n => some (s.wd d (env.afp.sqrtD (s.d n)))
  | .fsqrtS d n => some (s.ws d (env.afp.sqrtS (s.rs n)))
  | .fcmpD n m => some { s with f := env.afp.cmpD (s.d n) (s.d m) }
  | .fcmpS n m => some { s with f := env.afp.cmpS (s.rs n) (s.rs m) }
  | .fcselD d n m cond => some (s.wd d (if cond.holds s.f then s.d n else s.d m))
  | .fcselS d n m cond => some (s.ws d (if cond.holds s.f then s.rs n else s.rs m))
  | .fmovDx d n => some (s.wd d (s.rx n))
  | .fmovXd d n => some (s.wx d (s.d n))
  | .fmovSw d n => some (s.ws d (s.rw n))
  | .fmovWs d n => some (s.ww d (s.rs n))
  | .scvtfDx d n => some (s.wd d (env.afp.ofIntD (s.rx n)))
  | .scvtfDw d n => some (s.wd d (env.afp.ofIntD ((s.rw n).signExtend 64)))
  | .scvtfSx d n => some (s.ws d (env.afp.ofIntS (s.rx n)))
  | .scvtfSw d n => some (s.ws d (env.afp.ofIntS ((s.rw n).signExtend 64)))
  | .fcvtSd d n => some (s.ws d (env.afp.narrow (s.d n)))
  | .fcvtDs d n => some (s.wd d (env.afp.widen (s.rs n)))
  | .blr n => callHelper env s (s.rx n)
  | .b _ | .bcond _ _ | .cbzW _ _ | .ret => none

/-- How many instructions a taken branch passes over. Compiled code only branches forward. -/
def skipOf (disp : Int) : Option Nat := if 0 < disp then some (disp.toNat - 1) else none

/-- Runs code from its `skip`-th instruction to the block's return. `none` is code that leaves
the block any other way or does what it has no business doing. -/
def A64.exec (env : A64Env) : List A64 → Nat → A64State → Option A64State
  | [], _, _ => none
  | _ :: code, skip + 1, s => exec env code skip s
  | i :: code, 0, s =>
    match i with
    | .ret => if s.x x30 = env.retAddr ∧ s.stack = [] then some s else none
    | .b disp => (skipOf disp).bind fun k => exec env code k s
    | .bcond cond disp =>
      if cond.holds s.f then (skipOf disp).bind fun k => exec env code k s else exec env code 0 s
    | .cbzW t disp => if s.rw t = 0 then (skipOf disp).bind fun k => exec env code k s else exec env code 0 s
    | i => (i.step env s).bind (exec env code 0)

/-- The entry stub parks the cpu pointer in x19, calls the block and hands back x0. The other
registers hold whatever the translator left there. -/
def enterState (env : A64Env) (start : Junk) (c : Cpu) : A64State where
  x := Function.update (Function.update start.x cpuReg env.cpuPtr) x30 env.retAddr
  d := start.d
  f := start.f
  stack := []
  calls := 0
  cpu := c

def rsdJitEnter (env : A64Env) (start : Junk) (code : List A64) (c : Cpu) : Option (BitVec 64 × Cpu) :=
  (A64.exec env code 0 (enterState env start c)).map fun s => (s.x x0, s.cpu)

end Rashid
