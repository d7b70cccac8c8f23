import Rashid.Emit
import Rashid.JitDecode

/-!
# Code generation

The `put_*` functions of the block compiler, over a buffer that takes no more than `max`
words and remembers which branches have to be pointed at the fault exit.
-/

namespace Rashid

/-- The interpreter's routines that compiled code calls, `rsd_i_*`. -/
inductive Helper where
  | ld | st | flagsAdd | flagsSub | flagsLogic | flagsInc | flagsDec | shift | wlog
  | ld128 | st128 | comisd | comiss | cvt2si | nanD | nanS
  deriving DecidableEq, Repr

/-- Where the host has the routines. No two of them share an address. -/
structure Link where
  addr : Helper → BitVec 64
  inj : ∀ h k, addr h = addr k → h = k

structure Buf where
  out : List A64
  max : Nat
  full : Bool
  /-- Under `-J` in-line stores must be logged too. -/
  check : Bool
  /-- The `cbz` words to point at the fault exit. -/
  fix : List Nat
  deriving DecidableEq, Repr

def Buf.n (b : Buf) : Nat := b.out.length

abbrev Emit := Prog Buf

def put (i : A64) : Emit Unit := Prog.modify fun b =>
  if b.max ≤ b.n then { b with full := true } else { b with out := b.out ++ [i] }

/-- One `put` after the other. -/
def puts : List A64 → Emit Unit
  | [] => pure ()
  | i :: l => do
    put i
    puts l

/-- `b->n`, where the next word goes. -/
def here : Emit Nat := Prog.get Buf.n

def setFull : Emit Unit := Prog.modify fun b => { b with full := true }

def isCheck : Emit Bool := Prog.get Buf.check

def immCode (reg : A64Reg) (v : BitVec 64) : List A64 :=
  [.movz reg (v.setWidth 16) 0] ++
  (if v >>> 16 ≠ 0 then [.movk reg ((v >>> 16).setWidth 16) 1] else []) ++
  (if v >>> 32 ≠ 0 then [.movk reg ((v >>> 32).setWidth 16) 2] else []) ++
  (if v >>> 48 ≠ 0 then [.movk reg ((v >>> 48).setWidth 16) 3] else [])

def putImm (reg : A64Reg) (v : BitVec 64) : Emit Unit := puts (immCode reg v)

def callCode (lk : Link) (fn : Helper) : List A64 := immCode x9 (lk.addr fn) ++ [.blr x9]

def putCall (lk : Link) (fn : Helper) : Emit Unit := puts (callCode lk fn)

/-! ### Offsets into `rsd_cpu` and `rsd_as` -/

def offR (i : Fin 16) : Nat := i.val * 8
def offXmm (i : Fin 16) : Nat := 128 + i.val * 16
def offCurRip : Nat := 392
def offFlags : Nat := 400
def offTmp (i : Fin 8) : Nat := 440 + i.val * 8
def offAs : Nat := 512
def offRunning : Nat := 544
def offRd : Nat := 16
def offWr : Nat := 48

/-- Which instruction is executing, so that a fault inside a helper is reported against it. -/
def setRipCode (rip : BitVec 64) : List A64 := immCode x9 rip ++ [.str x9 cpuReg offCurRip]

def putSetRip (rip : BitVec 64) : Emit Unit := puts (setRipCode rip)

def maxFix : Nat := 256

/-- A helper that faults stops the cpu but returns normally; the block is left at once. -/
def putFaultCheck : Emit Unit := do
  put (.ldrb x9 cpuReg offRunning)
  Prog.modify fun b =>
    if b.fix.length < maxFix ∧ b.full = false then { b with fix := b.fix ++ [b.n] } else { b with full := true }
  put (.cbzW x9 0)

def leaveCode : List A64 := [.pop x30, .ret]

def putLeave : Emit Unit := puts leaveCode

def putPatch (at_ : Nat) (i : Int → A64) : Emit Unit := Prog.modify fun b =>
  if b.full then b else { b with out := b.out.set at_ (i (b.n - at_)) }

def putPatchBcond (at_ : Nat) (cond : A64Cond) : Emit Unit := putPatch at_ (.bcond cond)

def putPatchB (at_ : Nat) : Emit Unit := putPatch at_ .b

/-! ### Conditions and the guest register file -/

/-- The even condition of a pair, as 0 or 1 in x0, with the flags of its comparison with 0. -/
def condEvenCode (cc : BitVec 8) : List A64 :=
  [.ldrW x9 cpuReg offFlags] ++
  (match (cc >>> 1) &&& 7 with
  | 0 => [.ubfx x0 x9 11 1]
  | 1 => [.ubfx x0 x9 0 1]
  | 2 => [.ubfx x0 x9 6 1]
  | 3 => [.ubfx x0 x9 0 1, .ubfx x10 x9 6 1, .orr x0 x0 x10]
  | 4 => [.ubfx x0 x9 7 1]
  | 5 => [.ubfx x0 x9 2 1]
  | 6 => [.ubfx x0 x9 7 1, .ubfx x10 x9 11 1, .eor x0 x0 x10]
  | _ => [.ubfx x0 x9 7 1, .ubfx x10 x9 11 1, .eor x0 x0 x10, .ubfx x10 x9 6 1, .orr x0 x0 x10]) ++
  [.cmp0 x0]

def putCondEven (cc : BitVec 8) : Emit Unit := puts (condEvenCode cc)

/-- The condition that selects on the inverse for the odd one of a pair. -/
def ccSense (cc : BitVec 8) : A64Cond := if cc &&& 1 ≠ 0 then .eq else .ne

def isHighByte (o : Insn) (reg : Fin 16) (size : Nat) : Bool :=
  size == 1 && !o.hasRex && decide (4 ≤ reg.val) && decide (reg.val < 8)

def rdRegCode (dst : A64Reg) (o : Insn) (reg : Fin 16) (size : Nat) : List A64 :=
  if isHighByte o reg size then [.ldr dst cpuReg (offR (lowOf reg)), .ubfx dst dst 8 8]
  else [.ldr dst cpuReg (offR reg)]

def putRdReg (dst : A64Reg) (o : Insn) (reg : Fin 16) (size : Nat) : Emit Unit := puts (rdRegCode dst o reg size)

def wrRegCode (src : A64Reg) (o : Insn) (reg : Fin 16) (size : Nat) : List A64 :=
  if size = 1 then
    if isHighByte o reg size then
      [.ldr x9 cpuReg (offR (lowOf reg)), .bfi x9 src 8 8, .str x9 cpuReg (offR (lowOf reg))]
    else [.strb src cpuReg (offR reg)]
  else [.str src cpuReg (offR reg)]

def putWrReg (src : A64Reg) (o : Insn) (reg : Fin 16) (size : Nat) : Emit Unit := puts (wrRegCode src o reg size)

/-- A displacement is added as a 12-bit immediate where it fits one. -/
def dispCode (disp : BitVec 64) : List A64 :=
  if 0 < disp.toInt ∧ disp.toInt < 4096 then [.addImm x1 x1 disp.toNat]
  else if disp.toInt < 0 ∧ -4096 < disp.toInt then [.subImm x1 x1 (-disp).toNat]
  else if disp ≠ 0 then immCode x6 disp ++ [.add x1 x1 x6]
  else []

/-- The effective address into x1. A RIP-relative one is a constant here. -/
def eaCode (o : Insn) : List A64 :=
  if o.ea.riprel then immCode x1 (o.next + o.ea.disp)
  else if o.ea.hasBase = false ∧ o.ea.hasIndex = false then immCode x1 o.ea.disp
  else
    (if o.ea.hasBase then [.ldr x1 cpuReg (offR o.ea.base)] else [.movz x1 0 0]) ++
    (if o.ea.hasIndex then [.ldr x6 cpuReg (offR o.ea.index), .addShift x1 x1 x6 o.ea.scale] else []) ++
    dispCode o.ea.disp

def putEa (o : Insn) : Emit Unit := puts (eaCode o)

/-! ### Operations and their flags -/

/-- With the operands in x1 and x2, the result into x3. -/
def opCode (o : Insn) : A64 :=
  let w := o.size != 8
  match o.op with
  | .mov => if w then .movW x3 x2 else .mov x3 x2
  | .add | .inc => if w then .addW x3 x1 x2 else .add x3 x1 x2
  | .sub | .cmp | .dec => if w then .subW x3 x1 x2 else .sub x3 x1 x2
  | .and | .test => if w then .andW x3 x1 x2 else .and x3 x1 x2
  | .or => if w then .orrW x3 x1 x2 else .orr x3 x1 x2
  | .xor => if w then .eorW x3 x1 x2 else .eor x3 x1 x2

/-- The flag helper an operation needs. -/
def Op.helper : Op → Option Helper
  | .mov => none
  | .add => some .flagsAdd
  | .sub | .cmp => some .flagsSub
  | .and | .test | .or | .xor => some .flagsLogic
  | .inc => some .flagsInc
  | .dec => some .flagsDec

def putOp (o : Insn) : Emit (Option Helper) := do
  put (opCode o)
  pure o.op.helper

/-- One of NZCV as a bit of x10. -/
def nzcvCode (need : BitVec 32) (logic : Bool) (f : BitVec 32) (bit : Nat) (cond : A64Cond) : List A64 :=
  if need &&& f = 0 ∨ (logic ∧ f &&& (fCF ||| fOF) ≠ 0) then []
  else [.cset x11 cond, .orrLsl x10 x10 x11 bit]

/-- The operation again, in its flag-setting form. -/
def flagSetCode (add sub : Bool) (w : Bool) : A64 :=
  if add then .addsZr x1 x2 w else if sub then .subsZr x1 x2 w else .andsZr x3 x3 w

/-- Bit 2 of x10, set when the low byte of x3 has even parity. -/
def parityCode : List A64 :=
  [.eorLsr x11 x3 x3 4, .eorLsr x11 x11 x11 2, .eorLsr x11 x11 x11 1, .ubfx x11 x11 0 1, .eorBit x11 x11 0,
    .orrLsl x10 x10 x11 2]

/-- Bit 4 of x10, the carry out of bit 3. -/
def adjustCode : List A64 := [.eor x11 x1 x2, .eor x11 x11 x3, .ubfx x11 x11 4 1, .orrLsl x10 x10 x11 4]

def mergeFlagsCode (need : BitVec 32) : List A64 :=
  [.ldrW x9 cpuReg offFlags] ++ immCode x12 (need.setWidth 64) ++
  [.bic x9 x9 x12, .orr x9 x9 x10, .strW x9 cpuReg offFlags]

/-- Only the flags in `need` are produced; the rest are left as they were. -/
def flagsInlineCode (add sub logic : Bool) (need : BitVec 32) (w : Bool) : List A64 :=
  (if need &&& (fCF ||| fZF ||| fSF ||| fOF) ≠ 0 then [flagSetCode add sub w] else []) ++
  [.movz x10 0 0] ++
  nzcvCode need logic fCF 0 (if sub then .cc else .cs) ++
  nzcvCode need logic fZF 6 .eq ++
  nzcvCode need logic fSF 7 .mi ++
  nzcvCode need logic fOF 11 .vs ++
  (if need &&& fPF ≠ 0 then parityCode else []) ++
  (if need &&& fAF ≠ 0 then adjustCode else []) ++
  mergeFlagsCode need

/-- Whether flags can be computed in line, which only the five below can. -/
def putFlagsInline (fn : Helper) (need : BitVec 32) (w : Bool) : Emit Bool := do
  let add := fn == .flagsAdd || fn == .flagsInc
  let sub := fn == .flagsSub || fn == .flagsDec
  let logic := fn == .flagsLogic
  if !add && !sub && !logic then pure false
  else
    puts (flagsInlineCode add sub logic need w)
    pure true

/-- The operands moved to where the helper wants them. -/
def flagsArgs (fn : Helper) (size : Nat) : List A64 :=
  [.mov x0 cpuReg] ++
  (if fn = .flagsLogic then [.mov x1 x3] ++ immCode x2 (BitVec.ofNat 64 size)
   else if fn = .flagsInc ∨ fn = .flagsDec then [.mov x2 x3] ++ immCode x3 (BitVec.ofNat 64 size)
   else immCode x4 (BitVec.ofNat 64 size))

def putFlagsCall (lk : Link) (fn : Helper) (size : Nat) : Emit Unit := do
  puts (flagsArgs fn size)
  putCall lk fn

/-- Byte operations go to the helper: arm64 has no 8-bit flag-setting forms. -/
def putFlags (lk : Link) (o : Insn) (fn : Option Helper) (size : Nat) : Emit Unit :=
  match fn with
  | none => pure ()
  | some fn =>
    if o.fneed = 0 then pure ()
    else if size ≠ 1 then do
      let done ← putFlagsInline fn o.fneed (size == 4)
      if done then pure () else putFlagsCall lk fn size
    else putFlagsCall lk fn size

/-! ### Memory -/

/-- The test of the two entries; returns where the branch to the slow path is. -/
def putRegionCheck (write : Bool) : Emit Nat := do
  let e := if write then offWr else offRd
  puts [.ldr x9 cpuReg offAs, .ldr x10 x9 e, .ldr x11 x9 (e + 8), .sub x12 x1 x10, .subsZr x12 x11 false]
  let hit ← here
  puts [.bcond .cc 0, .ldr x10 x9 (e + 16), .ldr x11 x9 (e + 24), .sub x12 x1 x10, .subsZr x12 x11 false]
  let at_ ← here
  put (.bcond .cs 0)
  putPatchBcond hit .cc
  pure at_

def loadInsn : Nat → A64
  | 1 => .ldrb x0 x1 0
  | 2 => .ldrh x0 x1 0
  | 4 => .ldrW x0 x1 0
  | _ => .ldr x0 x1 0

def storeInsn : Nat → A64
  | 1 => .strb x2 x1 0
  | 2 => .strh x2 x1 0
  | 4 => .strW x2 x1 0
  | _ => .str x2 x1 0

/-- From the address in x1, the value into x0. -/
def putLoad (lk : Link) (size : Nat) : Emit Unit := do
  let slow ← putRegionCheck false
  put (loadInsn size)
  let done ← here
  put (.b 0)
  putPatchBcond slow .cs
  put (.mov x0 cpuReg)
  putImm x2 (BitVec.ofNat 64 size)
  putCall lk .ld
  putFaultCheck
  putPatchB done

/-- An in-line store does not pass through `st`, so under `-J` it is logged first. -/
def wlogCode (lk : Link) (size : Nat) : List A64 :=
  [.str x1 cpuReg (offTmp 6), .str x2 cpuReg (offTmp 7), .mov x0 cpuReg] ++ immCode x3 (BitVec.ofNat 64 size) ++
  callCode lk .wlog ++ [.ldr x1 cpuReg (offTmp 6), .ldr x2 cpuReg (offTmp 7)]

/-- The value in x2 to the address in x1. -/
def putStore (lk : Link) (size : Nat) : Emit Unit := do
  let slow ← putRegionCheck true
  let check ← isCheck
  puts (if check then wlogCode lk size else [])
  put (storeInsn size)
  let done ← here
  put (.b 0)
  putPatchBcond slow .cs
  put (.mov x0 cpuReg)
  putImm x3 (BitVec.ofNat 64 size)
  putCall lk .st
  putFaultCheck
  putPatchB done

/-! ### SSE

Guest xmm registers live in `rsd_cpu`; d0 holds the destination lane and d1 the source while
an instruction is computed. -/

/-- The cases of the switch in `put_sse`. -/
inductive JitSse where
  | mov | bitwise | arith | cmp | comis | cvtFrom | cvtTo | cvtFloat | none
  deriving DecidableEq, Repr

def jitSse (op2 : BitVec 8) : JitSse :=
  if op2 ∈ [0x10#8, 0x11, 0x28, 0x29] then .mov
  else if op2 ∈ [0x54#8, 0x55, 0x56, 0x57, 0xDB, 0xEB, 0xEF] then .bitwise
  else if op2 ∈ [0x51#8, 0x58, 0x59, 0x5C, 0x5D, 0x5E, 0x5F] then .arith
  else if op2 = 0xC2 then .cmp
  else if op2 = 0x2E ∨ op2 = 0x2F then .comis
  else if op2 = 0x2A then .cvtFrom
  else if op2 = 0x2C ∨ op2 = 0x2D then .cvtTo
  else if op2 = 0x5A then .cvtFloat
  else .none

/-- `cmp_cond[pred]`: the condition that gives each predicate after `fcmp`. -/
def cmpCond (pred : BitVec 8) : A64Cond :=
  match pred with
  | 0 => .eq
  | 1 => .mi
  | 2 => .ls
  | 3 => .vs
  | 4 => .ne
  | 5 => .pl
  | 6 => .hi
  | _ => .vc

/-- Loads the address of a memory operand into x1, with the faulting instruction noted. -/
def putMemEa (o : Insn) (rip : BitVec 64) : Emit Unit := do
  putSetRip rip
  putEa o

def putFsrc (lk : Link) (o : Insn) (rip : BitVec 64) (dbl : Bool) : Emit Unit :=
  if o.mem = false then put (if dbl then .ldrD 1 cpuReg (offXmm o.xsrc) else .ldrS 1 cpuReg (offXmm o.xsrc))
  else do
    putMemEa o rip
    putLoad lk (if dbl then 8 else 4)
    put (if dbl then .fmovDx 1 x0 else .fmovSw 1 x0)

/-- `movss` and `movsd`: register to register replaces only the low lane. -/
def putSseMovScalar (lk : Link) (o : Insn) (rip : BitVec 64) : Emit Unit :=
  let nb := if o.mand = 0xF2 then 8 else 4
  let store := o.op2 == 0x11
  let dst := offXmm o.xreg
  if o.mem = false then
    let src := if store then dst else offXmm o.xsrc
    let dest := if store then offXmm o.xsrc else dst
    puts (if nb = 8 then [.ldr x1 cpuReg src, .str x1 cpuReg dest] else [.ldrW x1 cpuReg src, .strW x1 cpuReg dest])
  else do
    putMemEa o rip
    if store then
      put (.ldr x2 cpuReg dst)
      putStore lk nb
    else
      putLoad lk nb
      puts [.str x0 cpuReg dst, .str zr cpuReg (dst + 8)]

def putSseMov128 (lk : Link) (o : Insn) (rip : BitVec 64) : Emit Unit :=
  let store := o.op2 &&& 1 != 0
  let dst := offXmm o.xreg
  if o.mem = false then
    let src := if store then dst else offXmm o.xsrc
    let dest := if store then offXmm o.xsrc else dst
    puts [.ldr x1 cpuReg src, .ldr x2 cpuReg (src + 8), .str x1 cpuReg dest, .str x2 cpuReg (dest + 8)]
  else do
    putMemEa o rip
    puts [.addImm x2 cpuReg dst, .mov x0 cpuReg]
    putCall lk (if store then .st128 else .ld128)
    putFaultCheck

def bitwiseCode (op2 : BitVec 8) : List A64 :=
  if op2 = 0x54 ∨ op2 = 0xDB then [.and x1 x1 x4, .and x2 x2 x5]
  else if op2 = 0x55 then [.bic x1 x4 x1, .bic x2 x5 x2]
  else if op2 = 0x56 ∨ op2 = 0xEB then [.orr x1 x1 x4, .orr x2 x2 x5]
  else [.eor x1 x1 x4, .eor x2 x2 x5]

def putSseBitwise (lk : Link) (o : Insn) (rip : BitVec 64) : Emit Unit := do
  let dst := offXmm o.xreg
  if o.mem then do
    putMemEa o rip
    puts [.addImm x2 cpuReg (offTmp 0), .mov x0 cpuReg]
    putCall lk .ld128
    putFaultCheck
    puts [.ldr x4 cpuReg (offTmp 0), .ldr x5 cpuReg (offTmp 1)]
  else puts [.ldr x4 cpuReg (offXmm o.xsrc), .ldr x5 cpuReg (offXmm o.xsrc + 8)]
  puts ([.ldr x1 cpuReg dst, .ldr x2 cpuReg (dst + 8)] ++ bitwiseCode o.op2 ++
    [.str x1 cpuReg dst, .str x2 cpuReg (dst + 8)])

def ldrF (dbl : Bool) (t : A64Reg) (off : Nat) : A64 := if dbl then .ldrD t cpuReg off else .ldrS t cpuReg off
def strF (dbl : Bool) (t : A64Reg) (off : Nat) : A64 := if dbl then .strD t cpuReg off else .strS t cpuReg off
def fopF (dbl : Bool) (op : FOp) (d n m : A64Reg) : A64 := if dbl then .fopD op d n m else .fopS op d n m
def fcmpF (dbl : Bool) (n m : A64Reg) : A64 := if dbl then .fcmpD n m else .fcmpS n m

def arithCode (op2 : BitVec 8) (dbl : Bool) : List A64 :=
  if op2 = 0x58 then [fopF dbl .add 0 0 1]
  else if op2 = 0x59 then [fopF dbl .mul 0 0 1]
  else if op2 = 0x5C then [fopF dbl .sub 0 0 1]
  else if op2 = 0x5E then [fopF dbl .div 0 0 1]
  else if op2 = 0x51 then [if dbl then .fsqrtD 0 1 else .fsqrtS 0 1]
  else if op2 = 0x5D then [fcmpF dbl 0 1, if dbl then .fcselD 0 0 1 .mi else .fcselS 0 0 1 .mi]
  else [fcmpF dbl 0 1, if dbl then .fcselD 0 0 1 .gt else .fcselS 0 0 1 .gt]

/-- The arguments of `rsd_i_nan_*`, which take no cpu. -/
def nanArgs (dbl unary : Bool) : List A64 :=
  (if dbl then [.fmovXd x0 0, .fmovXd x1 (if unary then 1 else 2), .fmovXd x2 1]
   else [.fmovWs x0 0, .fmovWs x1 (if unary then 1 else 2), .fmovWs x2 1]) ++
  immCode x3 (if unary then 1 else 0)

/-- Only a NaN result can differ from x86's; `min` and `max` never create one. -/
def putNan (lk : Link) (op2 : BitVec 8) (dbl : Bool) : Emit Unit := do
  put (fcmpF dbl 0 0)
  let skip ← here
  put (.bcond .vc 0)
  puts (nanArgs dbl (op2 == 0x51))
  putCall lk (if dbl then .nanD else .nanS)
  put (if dbl then .fmovDx 0 x0 else .fmovSw 0 x0)
  putPatchBcond skip .vc

def putSseArith (lk : Link) (o : Insn) (rip : BitVec 64) : Emit Unit := do
  let dbl := o.mand == 0xF2
  let dst := offXmm o.xreg
  putFsrc lk o rip dbl
  puts (if o.op2 = 0x51 then [] else [ldrF dbl 0 dst, ldrF dbl 2 dst])
  puts (arithCode o.op2 dbl)
  if o.op2 = 0x5D ∨ o.op2 = 0x5F then pure () else putNan lk o.op2 dbl
  put (strF dbl 0 dst)

def putSseCmp (lk : Link) (o : Insn) (rip : BitVec 64) : Emit Unit := do
  let dbl := o.mand == 0xF2
  let dst := offXmm o.xreg
  putFsrc lk o rip dbl
  puts [ldrF dbl 0 dst, fcmpF dbl 0 1]
  puts (if dbl then [.csetm x3 (cmpCond o.pred), .str x3 cpuReg dst]
    else [.csetmW x3 (cmpCond o.pred), .strW x3 cpuReg dst])

def putSseComis (lk : Link) (o : Insn) (rip : BitVec 64) : Emit Unit := do
  let d64 := o.mand == 0x66
  let dst := offXmm o.xreg
  if o.mem then do
    putMemEa o rip
    putLoad lk (if d64 then 8 else 4)
    put (.mov x2 x0)
  else put (if d64 then .ldr x2 cpuReg (offXmm o.xsrc) else .ldrW x2 cpuReg (offXmm o.xsrc))
  puts [if d64 then .ldr x1 cpuReg dst else .ldrW x1 cpuReg dst, .mov x0 cpuReg]
  putCall lk (if d64 then .comisd else .comiss)

def putSseCvtFrom (lk : Link) (o : Insn) (rip : BitVec 64) : Emit Unit := do
  let dbl := o.mand == 0xF2
  if o.mem then do
    putMemEa o rip
    putLoad lk o.isize
    put (.mov x1 x0)
  else put (.ldr x1 cpuReg (offR o.xsrc))
  put (if dbl then (if o.isize = 8 then .scvtfDx 0 x1 else .scvtfDw 0 x1)
    else (if o.isize = 8 then .scvtfSx 0 x1 else .scvtfSw 0 x1))
  put (strF dbl 0 (offXmm o.xreg))

/-- Out-of-range results follow x86, so this goes through the interpreter's routine. -/
def putSseCvtTo (lk : Link) (o : Insn) (rip : BitVec 64) : Emit Unit := do
  let fsize := if o.mand = 0xF2 then 8 else 4
  if o.mem then do
    putMemEa o rip
    putLoad lk fsize
    put (.mov x1 x0)
  else put (.ldr x1 cpuReg (offXmm o.xsrc))
  puts ([.mov x0 cpuReg] ++ immCode x2 (BitVec.ofNat 64 fsize) ++ immCode x3 (if o.op2 = 0x2D then 1 else 0) ++
    immCode x4 (BitVec.ofNat 64 o.isize))
  putCall lk .cvt2si
  put (.str x0 cpuReg (offR o.xreg))

def putSseCvtFloat (lk : Link) (o : Insn) (rip : BitVec 64) : Emit Unit := do
  let dbl := o.mand == 0xF2
  let dst := offXmm o.xreg
  putFsrc lk o rip dbl
  puts (if dbl then [.fcvtSd 0 1, .strS 0 cpuReg dst] else [.fcvtDs 0 1, .strD 0 cpuReg dst])

def putSse (lk : Link) (o : Insn) (rip : BitVec 64) : Emit Unit :=
  match jitSse o.op2 with
  | .mov =>
    if (o.op2 = 0x10 ∨ o.op2 = 0x11) ∧ (o.mand = 0xF2 ∨ o.mand = 0xF3) then putSseMovScalar lk o rip
    else putSseMov128 lk o rip
  | .bitwise => putSseBitwise lk o rip
  | .arith => putSseArith lk o rip
  | .cmp => putSseCmp lk o rip
  | .comis => putSseComis lk o rip
  | .cvtFrom => putSseCvtFrom lk o rip
  | .cvtTo => putSseCvtTo lk o rip
  | .cvtFloat => putSseCvtFloat lk o rip
  | .none => setFull

/-! ### Instructions -/

/-- The operation on x1 and x2, the write back of x3 and the flags. -/
def putRegOp (lk : Link) (o : Insn) : Emit Unit := do
  let fl ← putOp o
  puts (if o.noWrite then [] else wrRegCode x3 o o.reg o.size)
  putFlags lk o fl o.size

def putRr (lk : Link) (o : Insn) : Emit Unit := do
  putRdReg x1 o o.reg o.size
  putRdReg x2 o o.src o.size
  putRegOp lk o

def putRi (lk : Link) (o : Insn) : Emit Unit := do
  putRdReg x1 o o.reg o.size
  putImm x2 o.imm
  putRegOp lk o

def putRm (lk : Link) (o : Insn) (rip : BitVec 64) : Emit Unit := do
  putMemEa o rip
  putLoad lk o.size
  put (.mov x2 x0)
  putRdReg x1 o o.reg o.size
  putRegOp lk o

def shiftMask (size : Nat) : BitVec 64 := if size = 8 then 63 else 31

/-- From the operand in x1 and, with `by_cl`, the count in x5, to the result in place. -/
def putShiftBody (lk : Link) (o : Insn) (rip : BitVec 64) : Emit Unit := do
  if o.mem then do
    -- the load may call out, and x5 does not survive a call
    puts (if o.byCl then [.str x5 cpuReg (offTmp 1)] else [])
    putMemEa o rip
    put (.str x1 cpuReg (offTmp 0))
    putLoad lk o.size
    put (.mov x1 x0)
    puts (if o.byCl then [.ldr x5 cpuReg (offTmp 1)] else [])
  else putRdReg x1 o o.reg o.size
  puts (if o.byCl then [.mov x2 x5] else immCode x2 (o.imm &&& shiftMask o.size))
  puts ([.mov x0 cpuReg] ++ immCode x3 (BitVec.ofNat 64 o.size) ++ immCode x4 (o.ext.setWidth 64))
  putCall lk .shift
  if o.mem then do
    puts [.mov x2 x0, .ldr x1 cpuReg (offTmp 0)]
    putStore lk o.size
  else putWrReg x0 o o.reg o.size

/-- A count of zero must leave even the operand unread. -/
def putShift (lk : Link) (o : Insn) (rip : BitVec 64) : Emit Unit :=
  if o.byCl = false ∧ o.imm &&& shiftMask o.size = 0 then pure ()
  else if o.byCl then do
    puts [.ldr x5 cpuReg (offR rcx), .ubfx x5 x5 0 (if shiftMask o.size = 63 then 6 else 5)]
    let skip ← here
    put (.cbzW x5 0)
    putShiftBody lk o rip
    putPatch skip (.cbzW x5)
  else putShiftBody lk o rip

def putImul (lk : Link) (o : Insn) (rip : BitVec 64) : Emit Unit := do
  if o.mem then do
    putMemEa o rip
    putLoad lk o.size
    put (.mov x1 x0)
  else put (.ldr x1 cpuReg (offR o.src))
  puts (if o.immSrc then immCode x2 o.imm else [.ldr x2 cpuReg (offR o.reg)])
  puts [if o.size = 8 then .mul x3 x1 x2 else .mulW x3 x1 x2, .str x3 cpuReg (offR o.reg)]
  putFlags lk o (some .flagsLogic) o.size

def putSetcc (lk : Link) (o : Insn) (rip : BitVec 64) : Emit Unit := do
  putCondEven o.cc
  put (.cset x0 (ccSense o.cc))
  if o.mem then do
    put (.str x0 cpuReg (offTmp 0))
    putMemEa o rip
    put (.ldr x2 cpuReg (offTmp 0))
    putStore lk 1
  else putWrReg x0 o o.reg 1

def putMovx (lk : Link) (o : Insn) (rip : BitVec 64) : Emit Unit := do
  let bits := o.ssize * 8
  if o.mem then do
    putMemEa o rip
    putLoad lk o.ssize
  else putRdReg x0 o o.src o.ssize
  puts [if o.sign = false then .ubfx x0 x0 0 bits else if o.size = 8 then .sxt x0 x0 bits else .sxtW x0 x0 bits,
    .str x0 cpuReg (offR o.reg)]

/-- The second operand of a memory destination: the immediate or the register. -/
def memSrcCode (o : Insn) : List A64 :=
  if o.kind = .mi then immCode x2 o.imm else rdRegCode x2 o o.reg o.size

/-- A plain store does not read its destination. -/
def putMem (lk : Link) (o : Insn) (rip : BitVec 64) : Emit Unit := do
  putMemEa o rip
  if o.op = .mov then
    puts (memSrcCode o)
    putStore lk o.size
  else
    put (.str x1 cpuReg (offTmp 0))
    putLoad lk o.size
    put (.mov x1 x0)
    puts (memSrcCode o)
    let fl ← putOp o
    if o.noWrite then pure ()
    else do
      puts [.str x1 cpuReg (offTmp 1), .str x2 cpuReg (offTmp 2), .str x3 cpuReg (offTmp 3), .mov x2 x3,
        .ldr x1 cpuReg (offTmp 0)]
      putStore lk o.size
      puts [.ldr x1 cpuReg (offTmp 1), .ldr x2 cpuReg (offTmp 2), .ldr x3 cpuReg (offTmp 3)]
    putFlags lk o fl o.size

def putLea (o : Insn) : Emit Unit := do
  putEa o
  puts (if o.size = 4 then [.movW x3 x1, .str x3 cpuReg (offR o.reg)] else [.str x1 cpuReg (offR o.reg)])

/-- rsp goes down by 8 and stays in x1. -/
def pushSpCode : List A64 := [.ldr x1 cpuReg (offR rsp), .subImm x1 x1 8, .str x1 cpuReg (offR rsp)]

def popSpCode : List A64 := [.ldr x1 cpuReg (offR rsp), .addImm x1 x1 8, .str x1 cpuReg (offR rsp)]

def putPush (lk : Link) (o : Insn) (rip : BitVec 64) : Emit Unit := do
  putSetRip rip
  puts (pushSpCode ++ [.ldr x2 cpuReg (offR o.reg)])
  putStore lk 8

def putPop (lk : Link) (o : Insn) (rip : BitVec 64) : Emit Unit := do
  putSetRip rip
  put (.ldr x1 cpuReg (offR rsp))
  putLoad lk 8
  puts ([.str x0 cpuReg (offR o.reg)] ++ popSpCode)

/-- The terminators leave the block with the address to continue at in x0. -/
def putJcc (o : Insn) : Emit Unit := do
  putCondEven o.cc
  puts (immCode x2 o.target ++ immCode x3 o.next ++ [.csel x0 x2 x3 (ccSense o.cc)])
  putLeave

def putCallRel (lk : Link) (o : Insn) (rip : BitVec 64) : Emit Unit := do
  putSetRip rip
  puts (pushSpCode ++ immCode x2 o.next)
  putStore lk 8
  putImm x0 o.target
  putLeave

def putRet (lk : Link) (rip : BitVec 64) : Emit Unit := do
  putSetRip rip
  put (.ldr x1 cpuReg (offR rsp))
  putLoad lk 8
  puts ([.str x0 cpuReg (offTmp 0)] ++ popSpCode ++ [.ldr x0 cpuReg (offTmp 0)])
  putLeave

/-- The address is computed first, the return address pushed, then the target read. -/
def putCallm (lk : Link) (o : Insn) (rip : BitVec 64) : Emit Unit := do
  putSetRip rip
  puts (if o.mem then eaCode o ++ [.str x1 cpuReg (offTmp 0)] else [])
  puts (pushSpCode ++ immCode x2 o.next)
  putStore lk 8
  if o.mem then do
    put (.ldr x1 cpuReg (offTmp 0))
    putLoad lk 8
  else put (.ldr x0 cpuReg (offR o.reg))
  putLeave

def putJmpm (lk : Link) (o : Insn) (rip : BitVec 64) : Emit Unit := do
  if o.mem then do
    putMemEa o rip
    putLoad lk 8
  else put (.ldr x0 cpuReg (offR o.reg))
  putLeave

def putInsn (lk : Link) (o : Insn) (rip : BitVec 64) : Emit Unit :=
  match o.kind with
  | .nop => pure ()
  | .sse => putSse lk o rip
  | .rr => putRr lk o
  | .ri => putRi lk o
  | .rm => putRm lk o rip
  | .shift => putShift lk o rip
  | .imul => putImul lk o rip
  | .setcc => putSetcc lk o rip
  | .movx => putMovx lk o rip
  | .mr | .mi => putMem lk o rip
  | .lea => putLea o
  | .push => putPush lk o rip
  | .pop => putPop lk o rip
  | .jmp => do
    putImm x0 o.target
    putLeave
  | .jcc => putJcc o
  | .call => putCallRel lk o rip
  | .ret => putRet lk rip
  | .callm => putCallm lk o rip
  | .jmpm => putJmpm lk o rip

end Rashid
