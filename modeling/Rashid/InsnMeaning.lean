import Rashid.JitDecode
import Rashid.Step

/-!
# What a decoded instruction means

The meaning of the block compiler's `Insn` record, in terms of the interpreter's own operand,
flag and memory routines. It is stated on the record's fields alone: operation, width,
registers, immediate, effective address and branch target.
-/

namespace Rashid

def Op.exec (op : Op) (a b : BitVec 64) (sz : Nat) (write : BitVec 64 → M Unit) : M Unit :=
  match op with
  | .add => aluExec .add a b sz write
  | .or => aluExec .or a b sz write
  | .and => aluExec .and a b sz write
  | .sub => aluExec .sub a b sz write
  | .xor => aluExec .xor a b sz write
  | .cmp => aluExec .cmp a b sz write
  | .test => aluExec .test a b sz write
  | .mov => aluExec .mov a b sz write
  | .inc => do
    modFlags fun f => flagsInc f a (a + 1) sz
    write (a + 1)
  | .dec => do
    modFlags fun f => flagsDec f a (a - 1) sz
    write (a - 1)

/-- The effective address. A RIP-relative one is measured from the next instruction. -/
def Ea.addr (e : Ea) (next : BitVec 64) (r : Fin 16 → BitVec 64) : BitVec 64 :=
  (if e.riprel then next else 0) + (if e.hasBase then r e.base else 0) +
    (if e.hasIndex then r e.index <<< e.scale else 0) + e.disp

/-- The work of an SSE instruction once its operands are known. `n` is the width of an integer
operand and `pred` the predicate of a comparison. -/
def sseBody (fp : Fp) (mand op2 : BitVec 8) (n : Nat) (pred : BitVec 8) (reg : Fin 16) (rm : Opnd) : M Unit :=
  match sseClass op2 with
  | .mov => sseMovExec mand op2 reg rm
  | .bitwise => sseBitwiseExec op2 reg rm
  | .comis => sseComisExec fp mand reg rm
  | .arith => sseArithExec fp mand op2 reg rm
  | .cmp => sseCmpExec fp mand pred reg rm
  | .cvtFrom => sseCvtFromExec fp mand n reg rm
  | .cvtTo => sseCvtToExec fp mand op2 n reg rm
  | .cvtFloat => sseCvtFloatExec fp mand reg rm
  | _ => pure ()

namespace Insn

def addr (o : Insn) (r : Fin 16 → BitVec 64) : BitVec 64 := o.ea.addr o.next r

/-- The memory operand, or the register that stands in its place. -/
def rmOp (o : Insn) (reg : Fin 16) : M Opnd :=
  Prog.get fun c => if o.mem then .mem (o.addr c.r) 0 else .reg reg

def memOp (o : Insn) : M Opnd := Prog.get fun c => .mem (o.addr c.r) 0

/-- The destination is read even by a plain move, as the interpreter does. -/
def execRow (o : Insn) (dst src : Opnd) : M Unit := do
  wrRip o.next
  let a ← rd dst o.size o.hasRex
  let b ← rd src o.size o.hasRex
  o.op.exec a b o.size fun r => wr dst r o.size o.hasRex

def execImm (o : Insn) (dst : Opnd) : M Unit := do
  wrRip o.next
  if o.op = .mov then wr dst o.imm o.size o.hasRex
  else
    let a ← rd dst o.size o.hasRex
    o.op.exec a o.imm o.size fun r => wr dst r o.size o.hasRex

def execShift (o : Insn) (dst : Opnd) : M Unit := do
  let cl ← rdR rcx
  wrRip o.next
  let cnt := (if o.byCl then cl &&& 0xff else o.imm) &&& countMask o.size
  if cnt = 0 then pure ()
  else
    let a ← rd dst o.size o.hasRex
    let f ← rdFlags
    wrFlags (rsdIShift f a cnt o.size o.ext).2
    wr dst (rsdIShift f a cnt o.size o.ext).1 o.size o.hasRex

def execImul (o : Insn) (rm : Opnd) : M Unit := do
  wrRip o.next
  let a ← getreg o.reg o.size
  let b ← rd rm o.size o.hasRex
  let r := if o.immSrc then sext b o.size * o.imm else sext a o.size * sext b o.size
  setreg o.reg r o.size
  modFlags fun f => flagsLogic f r o.size

def execSse (fp : Fp) (o : Insn) (rm : Opnd) : M Unit := do
  wrRip o.next
  sseBody fp o.mand o.op2 o.isize o.pred o.xreg rm

/-- Carries an instruction out, from a state whose `rip` is at its first byte. -/
def exec (fp : Fp) (o : Insn) : M Unit :=
  match o.kind with
  | .rr => o.execRow (.reg o.reg) (.reg o.src)
  | .rm => do
    let m ← o.memOp
    o.execRow (.reg o.reg) m
  | .mr => do
    let m ← o.memOp
    o.execRow m (.reg o.reg)
  | .ri => o.execImm (.reg o.reg)
  | .mi => do
    let m ← o.memOp
    o.execImm m
  | .lea => do
    let a ← Prog.get fun c => o.addr c.r
    wrRip o.next
    setreg o.reg a o.size
  | .push => do
    wrRip o.next
    let v ← rdR o.reg
    push v
  | .pop => do
    wrRip o.next
    let v ← pop
    wrR o.reg v
  | .nop => wrRip o.next
  | .sse => do
    let rm ← o.rmOp o.xsrc
    o.execSse fp rm
  | .movx => do
    let rm ← o.rmOp o.src
    wrRip o.next
    let v ← rd rm o.ssize o.hasRex
    setreg o.reg (if o.sign then sext v o.ssize else v) o.size
  | .shift => do
    let rm ← o.rmOp o.reg
    o.execShift rm
  | .imul => do
    let rm ← o.rmOp o.src
    o.execImul rm
  | .setcc => do
    let rm ← o.rmOp o.reg
    wrRip o.next
    let f ← rdFlags
    wr rm (if cond f o.cc then 1 else 0) 1 o.hasRex
  | .jcc => do
    let f ← rdFlags
    wrRip (if cond f o.cc then o.target else o.next)
  | .jmp => wrRip o.target
  | .call => do
    wrRip o.next
    push o.next
    wrRip o.target
  | .ret => do
    let v ← pop
    wrRip v
  | .callm => do
    let rm ← o.rmOp o.reg
    wrRip o.next
    let _ ← rd rm o.size o.hasRex
    push o.next
    let t ← rd rm 8 o.hasRex
    wrRip t
  | .jmpm => do
    let rm ← o.rmOp o.reg
    wrRip o.next
    let _ ← rd rm o.size o.hasRex
    let t ← rd rm 8 o.hasRex
    wrRip t

end Insn

end Rashid
