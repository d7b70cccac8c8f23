import Rashid.Sse

/-!
# One guest instruction

The switch of `step`, one definition for each of its cases. Every case returns the cursor it
ends with, and `stepInsn` says whether the instruction was a system call, which is then made
by the caller.
-/

namespace Rashid

/-- The operations of the ALU rows, the accumulator forms and group 1. -/
inductive Alu where
  | add | or | adc | sbb | and | sub | xor | cmp | test | mov
  deriving DecidableEq, Repr

def modFlags (g : BitVec 32 → BitVec 32) : M Unit := do
  let f ← rdFlags
  wrFlags (g f)

def carryIn : M (BitVec 64) := do
  let f ← rdFlags
  pure (if f &&& fCF != 0 then 1 else 0)

/-- Flags first, then the result is written; `cmp` and `test` write none. -/
def aluExec (o : Alu) (a b : BitVec 64) (sz : Nat) (write : BitVec 64 → M Unit) : M Unit :=
  match o with
  | .add => do
    modFlags fun f => flagsAdd f a b (a + b) sz
    write (a + b)
  | .adc => do
    let cf ← carryIn
    modFlags fun f => flagsAdc f a b cf (a + b + cf) sz
    write (a + b + cf)
  | .sbb => do
    let cf ← carryIn
    modFlags fun f => flagsSbb f a b cf (a - b - cf) sz
    write (a - b - cf)
  | .or => do
    modFlags fun f => flagsLogic f (a ||| b) sz
    write (a ||| b)
  | .and => do
    modFlags fun f => flagsLogic f (a &&& b) sz
    write (a &&& b)
  | .sub => do
    modFlags fun f => flagsSub f a b (a - b) sz
    write (a - b)
  | .xor => do
    modFlags fun f => flagsLogic f (a ^^^ b) sz
    write (a ^^^ b)
  | .cmp => modFlags fun f => flagsSub f a b (a - b) sz
  | .test => modFlags fun f => flagsLogic f (a &&& b) sz
  | .mov => write b

/-- `switch (op & ~3)` of the ALU rows. -/
def rowAlu (op : BitVec 8) : Alu :=
  match op &&& 0xFC with
  | 0x00 => .add
  | 0x10 => .adc
  | 0x18 => .sbb
  | 0x08 => .or
  | 0x20 => .and
  | 0x28 => .sub
  | 0x30 => .xor
  | 0x38 => .cmp
  | _ => if op = 0x84 ∨ op = 0x85 then .test else .mov

/-- `switch (op & ~7)` of the accumulator forms. -/
def eaxAlu (op : BitVec 8) : Alu :=
  match op &&& 0xF8 with
  | 0x00 => .add
  | 0x10 => .adc
  | 0x18 => .sbb
  | 0x08 => .or
  | 0x20 => .and
  | 0x28 => .sub
  | 0x30 => .xor
  | _ => .cmp

/-- The ModRM extension of group 1. -/
def grp1Alu (ext : BitVec 8) : Alu :=
  match ext with
  | 0 => .add
  | 1 => .or
  | 4 => .and
  | 5 => .sub
  | 6 => .xor
  | 7 => .cmp
  | 2 => .adc
  | _ => .sbb

/-- ModRM's middle field without its REX extension, as groups use it. -/
def modrmExt (d : Dec) : M (BitVec 8 × Opnd × Dec) := do
  let (reg, rm, d) ← modrm d
  pure (BitVec.ofNat 8 reg.val &&& 7, rm, d)

def imm8 (d : Dec) : M (BitVec 64 × Dec) := do
  let (b, d) ← fetch8 d
  pure (b.setWidth 64, d)

def imm8s (d : Dec) : M (BitVec 64 × Dec) := do
  let (b, d) ← fetch8 d
  pure (b.signExtend 64, d)

def imm16 (d : Dec) : M (BitVec 64 × Dec) := do
  let (b, d) ← fetch16 d
  pure (b.setWidth 64, d)

def imm32s (d : Dec) : M (BitVec 64 × Dec) := do
  let (b, d) ← fetch32 d
  pure (b.signExtend 64, d)

def imm32 (d : Dec) : M (BitVec 64 × Dec) := do
  let (b, d) ← fetch32 d
  pure (b.setWidth 64, d)

def stepAluRow (op : BitVec 8) (d : Dec) : M Dec := do
  let byte := op &&& 1 == 0 || op == 0x84 || op == 0x88 || op == 0x8A
  let sz := if byte then 1 else d.opsize
  let toReg := op &&& 2 != 0 && op != 0x84 && op != 0x85
  let (reg, rm, d) ← modrmAdvance d
  let dst := if toReg then .reg reg else rm
  let src := if toReg then rm else .reg reg
  let a ← rd dst sz d.hasRex
  let b ← rd src sz d.hasRex
  aluExec (rowAlu op) a b sz fun r => wr dst r sz d.hasRex
  pure d

def stepAluEax (op : BitVec 8) (d : Dec) : M Dec := do
  let byte := op &&& 1 == 0
  let sz := if byte then 1 else d.opsize
  let (b, d) ← if byte then imm8 d else if sz = 2 then imm16 d else imm32s d
  wrRip (decRip d)
  let a ← getreg rax sz
  aluExec (eaxAlu op) a b sz fun r => setreg rax r sz
  pure d

def stepTestEax (op : BitVec 8) (d : Dec) : M Dec := do
  let sz := if op = 0xA8 then 1 else d.opsize
  let (b, d) ← if op = 0xA8 then imm8 d else if sz = 2 then imm16 d else imm32s d
  wrRip (decRip d)
  let a ← getreg rax sz
  modFlags fun f => flagsLogic f (a &&& b) sz
  pure d

def stepPushReg (op : BitVec 8) (d : Dec) : M Dec := do
  wrRip (decRip d)
  let v ← rdR (regNo op (rexB d.rex))
  push v
  pure d

def stepPopReg (op : BitVec 8) (d : Dec) : M Dec := do
  wrRip (decRip d)
  let v ← pop
  wrR (regNo op (rexB d.rex)) v
  pure d

def stepMovsxd (d : Dec) : M Dec := do
  let sz := d.opsize
  let (reg, rm, d) ← modrmAdvance d
  let v ← rd rm 4 d.hasRex
  setreg reg ((v.setWidth 32).signExtend 64) sz
  pure d

def stepPushImm (op : BitVec 8) (d : Dec) : M Dec := do
  let (v, d) ← if op = 0x68 then imm32s d else imm8s d
  wrRip (decRip d)
  push v
  pure d

def stepImulImm (op : BitVec 8) (d : Dec) : M Dec := do
  let sz := d.opsize
  let (reg, rm, d) ← modrm d
  let (imm, d) ← if op = 0x6B then imm8s d else imm32s d
  let rm := fixupRip d rm
  wrRip (decRip d)
  let a ← rd rm sz d.hasRex
  let r := sext a sz * imm
  setreg reg r sz
  modFlags fun f => flagsLogic f r sz
  pure d

def stepJcc8 (op : BitVec 8) (d : Dec) : M Dec := do
  let (rel, d) ← imm8s d
  wrRip (decRip d)
  let f ← rdFlags
  if cond f (op &&& 0xF) then wrRip (decRip d + rel)
  pure d

def stepGrp1 (op : BitVec 8) (d : Dec) : M Dec := do
  let sz := if op = 0x80 then 1 else d.opsize
  let (ext, rm, d) ← modrmExt d
  let (b, d) ← if op = 0x81 then imm32s d else imm8s d
  let rm := fixupRip d rm
  wrRip (decRip d)
  let a ← rd rm sz d.hasRex
  aluExec (grp1Alu ext) a b sz fun r => wr rm r sz d.hasRex
  pure d

def stepXchg (d : Dec) : M Dec := do
  let sz := d.opsize
  let (reg, rm, d) ← modrmAdvance d
  let a ← rd rm sz d.hasRex
  let b ← rd (.reg reg) sz d.hasRex
  wr rm b sz d.hasRex
  wr (.reg reg) a sz d.hasRex
  pure d

def stepLea (d : Dec) : M Dec := do
  let sz := d.opsize
  let (reg, rm, d) ← modrmAdvance d
  match rm with
  | .reg _ => raise .leaRegister d.rip0
  | .mem addr _ => setreg reg addr sz
  | .ripRel disp _ => setreg reg disp sz
  pure d

def stepPopRm (d : Dec) : M Dec := do
  let (_, rm, d) ← modrmAdvance d
  let v ← pop
  wr rm v 8 d.hasRex
  pure d

def stepNop (d : Dec) : M Dec := do
  wrRip (decRip d)
  pure d

def stepPushfq (d : Dec) : M Dec := do
  wrRip (decRip d)
  let f ← rdFlags
  push (f.setWidth 64)
  pure d

def stepPopfq (d : Dec) : M Dec := do
  wrRip (decRip d)
  let v ← pop
  wrFlags ((v.setWidth 32 &&& (fCF ||| fPF ||| fAF ||| fZF ||| fSF ||| fOF)) ||| 0x202)
  pure d

def stepCwde (d : Dec) : M Dec := do
  wrRip (decRip d)
  let v ← getreg rax (d.opsize / 2)
  setreg rax (sext v (d.opsize / 2)) d.opsize
  pure d

def stepCdq (d : Dec) : M Dec := do
  wrRip (decRip d)
  let v ← getreg rax d.opsize
  setreg rdx (if (sext v d.opsize).msb then BitVec.allOnes 64 else 0) d.opsize
  pure d

def stepMovRegImm8 (op : BitVec 8) (d : Dec) : M Dec := do
  let (v, d) ← imm8 d
  wrRip (decRip d)
  setreg8 (regNo op (rexB d.rex)) v d.hasRex
  pure d

def stepMovRegImm (op : BitVec 8) (d : Dec) : M Dec := do
  let sz := d.opsize
  let (v, d) ← if sz = 8 then fetch64 d else if sz = 2 then imm16 d else imm32 d
  wrRip (decRip d)
  setreg (regNo op (rexB d.rex)) v sz
  pure d

def countMask (sz : Nat) : BitVec 64 := if sz = 8 then 63 else 31

/-- A masked count of zero ends the instruction before the operand is looked at. -/
def stepShift (op : BitVec 8) (d : Dec) : M Dec := do
  let sz := if op = 0xC0 ∨ op = 0xD0 ∨ op = 0xD2 then 1 else d.opsize
  let (ext, rm, d) ← modrmExt d
  let (cnt, d) ←
    if op = 0xC0 ∨ op = 0xC1 then imm8 d
    else if op = 0xD0 ∨ op = 0xD1 then pure (1, d)
    else do
      let v ← rdR rcx
      pure (v &&& 0xff, d)
  let rm := fixupRip d rm
  wrRip (decRip d)
  let cnt := cnt &&& countMask sz
  if cnt = 0 then pure d
  else if ext < 4 then
    raise .rotate d.rip0
    pure d
  else
    let a ← rd rm sz d.hasRex
    let f ← rdFlags
    wrFlags (rsdIShift f a cnt sz ext).2
    wr rm (rsdIShift f a cnt sz ext).1 sz d.hasRex
    pure d

def stepRetImm (d : Dec) : M Dec := do
  let (n, d) ← fetch16 d
  let v ← pop
  wrRip v
  let sp ← rdR rsp
  wrR rsp (sp + n.setWidth 64)
  pure d

def stepRet (d : Dec) : M Dec := do
  let v ← pop
  wrRip v
  pure d

def stepMovRmImm (op : BitVec 8) (d : Dec) : M Dec := do
  let sz := if op = 0xC6 then 1 else d.opsize
  let (_, rm, d) ← modrm d
  let (v, d) ← if op = 0xC6 then imm8 d else imm32s d
  let rm := fixupRip d rm
  wrRip (decRip d)
  wr rm v sz d.hasRex
  pure d

def stepLeave (d : Dec) : M Dec := do
  wrRip (decRip d)
  let bp ← rdR rbp
  wrR rsp bp
  let v ← pop
  wrR rbp v
  pure d

def stepCall (d : Dec) : M Dec := do
  let (rel, d) ← imm32s d
  wrRip (decRip d)
  push (decRip d)
  wrRip (decRip d + rel)
  pure d

def stepJmp (op : BitVec 8) (d : Dec) : M Dec := do
  let (rel, d) ← if op = 0xE9 then imm32s d else imm8s d
  wrRip (decRip d + rel)
  pure d

def mulWide (a b : BitVec 64) : BitVec 128 := a.setWidth 128 * b.setWidth 128

def imulWide (a b : BitVec 64) : BitVec 128 := a.signExtend 128 * b.signExtend 128

def setProduct (p : BitVec 128) (sz : Nat) : M Unit := do
  setreg rax (p.setWidth 64) sz
  if 1 < sz then setreg rdx ((p >>> (sz * 8)).setWidth 64) sz

def setQuotient (q r : BitVec 128) (sz : Nat) : M Unit := do
  setreg rax (q.setWidth 64) sz
  setreg rdx (r.setWidth 64) sz

def grp3Exec (ext : BitVec 8) (a imm : BitVec 64) (sz : Nat) (rm : Opnd) (d : Dec) : M Unit :=
  match ext with
  | 2 => wr rm (~~~a) sz d.hasRex
  | 3 => do
    modFlags fun f => flagsSub f 0 a (0 - a) sz
    wr rm (0 - a) sz d.hasRex
  | 4 => do
    let v ← rdR rax
    setProduct (mulWide (truncSz v sz) (truncSz a sz)) sz
  | 5 => do
    let v ← rdR rax
    setProduct (imulWide (sext v sz) (sext a sz)) sz
  | 6 =>
    if a = 0 then raise .divideByZero d.rip0
    else do
      let hi ← rdR rdx
      let lo ← rdR rax
      let num := ((truncSz hi sz).setWidth 128 <<< (sz * 8)) ||| (truncSz lo sz).setWidth 128
      let den := (truncSz a sz).setWidth 128
      setQuotient (num / den) (num % den) sz
  | 7 =>
    if a = 0 then raise .divideByZero d.rip0
    else do
      let hi ← rdR rdx
      let lo ← rdR rax
      let num := ((sext hi sz).signExtend 128 <<< (sz * 8)) ||| (truncSz lo sz).setWidth 128
      let den := (sext a sz).signExtend 128
      setQuotient (num.sdiv den) (num.srem den) sz
  | _ => modFlags fun f => flagsLogic f (a &&& imm) sz

def stepGrp3 (op : BitVec 8) (d : Dec) : M Dec := do
  let sz := if op = 0xF6 then 1 else d.opsize
  let (ext, rm, d) ← modrmExt d
  let (imm, d) ←
    if ext = 0 ∨ ext = 1 then (if op = 0xF6 then imm8 d else imm32s d) else pure (0, d)
  let rm := fixupRip d rm
  wrRip (decRip d)
  let a ← rd rm sz d.hasRex
  grp3Exec ext a imm sz rm d
  pure d

def grp5Exec (ext : BitVec 8) (a : BitVec 64) (sz : Nat) (rm : Opnd) (d : Dec) : M Unit :=
  match ext with
  | 0 => do
    modFlags fun f => flagsInc f a (a + 1) sz
    wr rm (a + 1) sz d.hasRex
  | 1 => do
    modFlags fun f => flagsDec f a (a - 1) sz
    wr rm (a - 1) sz d.hasRex
  | 2 => do
    push (decRip d)
    let t ← rd rm 8 d.hasRex
    wrRip t
  | 4 => do
    let t ← rd rm 8 d.hasRex
    wrRip t
  | 6 => do
    let v ← rd rm 8 d.hasRex
    push v
  | _ => raise .grp5Far d.rip0

/-- The operand is read at the operand size before the extension is looked at. -/
def stepGrp5 (op : BitVec 8) (d : Dec) : M Dec := do
  let sz := if op = 0xFE then 1 else d.opsize
  let (ext, rm, d) ← modrmExt d
  let rm := fixupRip d rm
  wrRip (decRip d)
  let a ← rd rm sz d.hasRex
  grp5Exec ext a sz rm d
  pure d

def stepSetcc (op2 : BitVec 8) (d : Dec) : M Dec := do
  let (_, rm, d) ← modrmAdvance d
  let f ← rdFlags
  wr rm (if cond f (op2 &&& 0xF) then 1 else 0) 1 d.hasRex
  pure d

def stepCmov (op2 : BitVec 8) (d : Dec) : M Dec := do
  let sz := d.opsize
  let (reg, rm, d) ← modrmAdvance d
  let f ← rdFlags
  if cond f (op2 &&& 0xF) then
    let v ← rd rm sz d.hasRex
    setreg reg v sz
  pure d

/-- `w - cnt`, which wraps around where the masked count is above the width. The shift takes the
low six bits of it. -/
def backCount (sz cnt : Nat) : Nat := ((BitVec.ofNat 64 (sz * 8) - BitVec.ofNat 64 cnt) &&& 63).toNat

def stepShld (op2 : BitVec 8) (d : Dec) : M Dec := do
  let sz := d.opsize
  let left := op2 < 0xAC
  let (reg, rm, d) ← modrm d
  let (cnt, d) ←
    if op2 = 0xA4 ∨ op2 = 0xAC then imm8 d
    else do
      let v ← rdR rcx
      pure (v &&& 0xff, d)
  let rm := fixupRip d rm
  wrRip (decRip d)
  let cnt := (cnt &&& countMask sz).toNat
  if cnt = 0 then pure d
  else
    let dst ← rd rm sz d.hasRex
    let src ← getreg reg sz
    let r := if left then (dst <<< cnt) ||| (src >>> backCount sz cnt) else (dst >>> cnt) ||| (src <<< backCount sz cnt)
    modFlags fun f => flagsLogic f r sz
    wr rm r sz d.hasRex
    pure d

def stepImul (d : Dec) : M Dec := do
  let sz := d.opsize
  let (reg, rm, d) ← modrmAdvance d
  let a ← getreg reg sz
  let b ← rd rm sz d.hasRex
  let r := sext a sz * sext b sz
  setreg reg r sz
  modFlags fun f => flagsLogic f r sz
  pure d

def stepMovx (op2 : BitVec 8) (d : Dec) : M Dec := do
  let sz := d.opsize
  let ssz := if op2 &&& 1 != 0 then 2 else 1
  let (reg, rm, d) ← modrmAdvance d
  let v ← rd rm ssz d.hasRex
  setreg reg (if op2 &&& 8 != 0 then sext v ssz else v) sz
  pure d

def stepJcc32 (op2 : BitVec 8) (d : Dec) : M Dec := do
  let (rel, d) ← imm32s d
  wrRip (decRip d)
  let f ← rdFlags
  if cond f (op2 &&& 0xF) then wrRip (decRip d + rel)
  pure d

inductive InsnOut where
  | done | syscall
  deriving DecidableEq, Repr

/-- The two-byte opcodes that `sse_exec` does not handle. -/
inductive TwoClass where
  | nop | jcc | setcc | cmov | shld | imul | movx | none
  deriving DecidableEq, Repr

def twoClass (op2 : BitVec 8) : TwoClass :=
  if op2 = 0x1E ∨ op2 = 0x1F then .nop
  else if 0x80 ≤ op2 ∧ op2 ≤ 0x8F then .jcc
  else if 0x90 ≤ op2 ∧ op2 ≤ 0x9F then .setcc
  else if 0x40 ≤ op2 ∧ op2 ≤ 0x4F then .cmov
  else if op2 = 0xA4 ∨ op2 = 0xA5 ∨ op2 = 0xAC ∨ op2 = 0xAD then .shld
  else if op2 = 0xAF then .imul
  else if op2 = 0xB6 ∨ op2 = 0xB7 ∨ op2 = 0xBE ∨ op2 = 0xBF then .movx
  else .none

def stepTwoByteGp (op2 : BitVec 8) (d : Dec) : M Dec :=
  match twoClass op2 with
  | .nop => do
    let (_, _, d) ← modrmAdvance d
    pure d
  | .jcc => stepJcc32 op2 d
  | .setcc => stepSetcc op2 d
  | .cmov => stepCmov op2 d
  | .shld => stepShld op2 d
  | .imul => stepImul d
  | .movx => stepMovx op2 d
  | .none => do
    raise .unimplemented0F d.rip0
    pure d

def stepTwoByte (fp : Fp) (d : Dec) : M (InsnOut × Dec) := do
  let (op2, d) ← fetch8 d
  if op2 = 0x05 then
    wrRip (decRip d)
    pure (.syscall, d)
  else
    let (handled, d) ← sseExec fp d op2
    if handled then pure (.done, d)
    else
      let d ← stepTwoByteGp op2 d
      pure (.done, d)

/-- The case of the switch in `step` that an opcode belongs to. -/
inductive OpClass where
  | aluRow | aluEax | testEax | pushReg | popReg | movsxd | pushImm | imulImm | jcc8 | grp1
  | xchg | lea | popRm | nop | pushfq | popfq | cwde | cdq | movRegImm8 | movRegImm | shift
  | retImm | ret | movRmImm | leave | call | jmp | grp3 | grp5 | twoByte | none
  deriving DecidableEq, Repr

def opClass (op : BitVec 8) : OpClass :=
  if op ∈ [0x00#8, 0x01, 0x08, 0x09, 0x20, 0x21, 0x28, 0x29, 0x30, 0x31, 0x38, 0x39,
      0x02, 0x03, 0x0A, 0x0B, 0x22, 0x23, 0x2A, 0x2B, 0x32, 0x33, 0x3A, 0x3B,
      0x10, 0x11, 0x12, 0x13, 0x18, 0x19, 0x1A, 0x1B,
      0x84, 0x85, 0x88, 0x89, 0x8A, 0x8B] then .aluRow
  else if op ∈ [0x04#8, 0x05, 0x0C, 0x0D, 0x24, 0x25, 0x2C, 0x2D, 0x34, 0x35, 0x3C, 0x3D,
      0x14, 0x15, 0x1C, 0x1D] then .aluEax
  else if op = 0xA8 ∨ op = 0xA9 then .testEax
  else if 0x50 ≤ op ∧ op ≤ 0x57 then .pushReg
  else if 0x58 ≤ op ∧ op ≤ 0x5F then .popReg
  else if op = 0x63 then .movsxd
  else if op = 0x68 ∨ op = 0x6A then .pushImm
  else if op = 0x69 ∨ op = 0x6B then .imulImm
  else if 0x70 ≤ op ∧ op ≤ 0x7F then .jcc8
  else if op = 0x80 ∨ op = 0x81 ∨ op = 0x83 then .grp1
  else if op = 0x87 then .xchg
  else if op = 0x8D then .lea
  else if op = 0x8F then .popRm
  else if op = 0x90 then .nop
  else if op = 0x9C then .pushfq
  else if op = 0x9D then .popfq
  else if op = 0x98 then .cwde
  else if op = 0x99 then .cdq
  else if 0xB0 ≤ op ∧ op ≤ 0xB7 then .movRegImm8
  else if 0xB8 ≤ op ∧ op ≤ 0xBF then .movRegImm
  else if op ∈ [0xC0#8, 0xC1, 0xD0, 0xD1, 0xD2, 0xD3] then .shift
  else if op = 0xC2 then .retImm
  else if op = 0xC3 then .ret
  else if op = 0xC6 ∨ op = 0xC7 then .movRmImm
  else if op = 0xC9 then .leave
  else if op = 0xE8 then .call
  else if op = 0xE9 ∨ op = 0xEB then .jmp
  else if op = 0xF6 ∨ op = 0xF7 then .grp3
  else if op = 0xFE ∨ op = 0xFF then .grp5
  else if op = 0x0F then .twoByte
  else .none

def stepOneByte (op : BitVec 8) (d : Dec) : OpClass → M Dec
  | .aluRow => stepAluRow op d
  | .aluEax => stepAluEax op d
  | .testEax => stepTestEax op d
  | .pushReg => stepPushReg op d
  | .popReg => stepPopReg op d
  | .movsxd => stepMovsxd d
  | .pushImm => stepPushImm op d
  | .imulImm => stepImulImm op d
  | .jcc8 => stepJcc8 op d
  | .grp1 => stepGrp1 op d
  | .xchg => stepXchg d
  | .lea => stepLea d
  | .popRm => stepPopRm d
  | .nop => stepNop d
  | .pushfq => stepPushfq d
  | .popfq => stepPopfq d
  | .cwde => stepCwde d
  | .cdq => stepCdq d
  | .movRegImm8 => stepMovRegImm8 op d
  | .movRegImm => stepMovRegImm op d
  | .shift => stepShift op d
  | .retImm => stepRetImm d
  | .ret => stepRet d
  | .movRmImm => stepMovRmImm op d
  | .leave => stepLeave d
  | .call => stepCall d
  | .jmp => stepJmp op d
  | .grp3 => stepGrp3 op d
  | .grp5 => stepGrp5 op d
  | _ => do
    raise .unimplementedOpcode d.rip0
    pure d

def stepOp (fp : Fp) (op : BitVec 8) (d : Dec) : M (InsnOut × Dec) := do
  match opClass op with
  | .twoByte => stepTwoByte fp d
  | k => do
    let d ← stepOneByte op d k
    pure (.done, d)

/-- Decodes and executes the instruction at `rip`, which is known to be executable. -/
def stepInsn (fp : Fp) : M (InsnOut × Dec) := do
  let start ← rdRip
  wrCurRip start
  let d ← prefixes (Dec.start start)
  let (op, d) ← fetch8 d
  stepOp fp op d

end Rashid
