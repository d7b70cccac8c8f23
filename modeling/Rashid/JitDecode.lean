import Rashid.Decoder

/-!
# The block compiler's instruction decoder

The compilable subset: integer operations on 8-, 32- and 64-bit operands, `movzx` and
`movsx`, `lea`, `push`, `pop`, shifts, `imul`, `setcc`, scalar SSE, and the control transfers
that end a block. Anything else is declined and left to the interpreter.
-/

namespace Rashid

inductive Kind where
  | rr | ri | rm | mr | mi | lea | push | pop | nop | sse | movx | shift | imul | setcc
  | jcc | jmp | call | ret | callm | jmpm
  deriving DecidableEq, Repr

/-- The operations of the ALU rows, with the two pseudo-opcodes `OP_INC` and `OP_DEC`. -/
inductive Op where
  | add | or | and | sub | xor | cmp | test | mov | inc | dec
  deriving DecidableEq, Repr

/-- A memory operand before the registers are known. -/
structure Ea where
  hasBase : Bool
  hasIndex : Bool
  riprel : Bool
  base : Fin 16
  index : Fin 16
  scale : Nat
  disp : BitVec 64
  deriving DecidableEq, Repr

def Ea.zero : Ea := ⟨false, false, false, 0, 0, 0, 0⟩

structure Insn where
  kind : Kind
  op : Op
  size : Nat
  len : Nat
  reg : Fin 16
  src : Fin 16
  mem : Bool
  ea : Ea
  imm : BitVec 64
  noWrite : Bool
  /-- The 8-bit register file depends on whether a REX prefix was present, even an empty one. -/
  hasRex : Bool
  /-- The width of the source of `movzx` and `movsx`. -/
  ssize : Nat
  sign : Bool
  /-- The ModRM extension that names a shift. -/
  ext : BitVec 8
  byCl : Bool
  immSrc : Bool
  cc : BitVec 8
  /-- The flags a later reader wants from this one. -/
  fneed : BitVec 32
  next : BitVec 64
  target : BitVec 64
  mand : BitVec 8
  op2 : BitVec 8
  xreg : Fin 16
  xsrc : Fin 16
  isize : Nat
  pred : BitVec 8
  deriving DecidableEq, Repr

/-- All zero. Every case of the decoder that accepts sets the kind. -/
def Insn.zero : Insn where
  kind := .nop
  op := .add
  size := 0
  len := 0
  reg := 0
  src := 0
  mem := false
  ea := Ea.zero
  imm := 0
  noWrite := false
  hasRex := false
  ssize := 0
  sign := false
  ext := 0
  byCl := false
  immSrc := false
  cc := 0
  fneed := 0
  next := 0
  target := 0
  mand := 0
  op2 := 0
  xreg := 0
  xsrc := 0
  isize := 0
  pred := 0

/-- The kinds from `K_JCC` on end a block. -/
def terminates : Kind → Bool
  | .jcc | .jmp | .call | .ret | .callm | .jmpm => true
  | _ => false

/-- The bytes at an address, from which the decoder reads by offset. -/
abbrev Code := Nat → BitVec 8

/-- The bytes the guest has at an address. -/
def codeOf (c : Cpu) (a : BitVec 64) : Code := fun i => c.mem (a + BitVec.ofNat 64 i)

def Code.i8 (p : Code) (n : Nat) : BitVec 64 := (p n).signExtend 64

def Code.u32 (p : Code) (n : Nat) : BitVec 32 := p (n + 3) ++ p (n + 2) ++ p (n + 1) ++ p n

def Code.i32 (p : Code) (n : Nat) : BitVec 64 := (p.u32 n).signExtend 64

def Code.u64 (p : Code) (n : Nat) : BitVec 64 :=
  p (n + 7) ++ p (n + 6) ++ p (n + 5) ++ p (n + 4) ++ p (n + 3) ++ p (n + 2) ++ p (n + 1) ++ p n

def eaDisp (p : Code) (n : Nat) (mod : BitVec 8) (e : Ea) : Nat × Ea :=
  if mod = 1 then (n + 1, { e with disp := e.disp + p.i8 n })
  else if mod = 2 then (n + 4, { e with disp := e.disp + p.i32 n })
  else (n, e)

def eaIndex (rex sib : BitVec 8) (e : Ea) : Ea :=
  if regNo (sib >>> 3) (rexX rex) ≠ rsp then
    { e with hasIndex := true, index := regNo (sib >>> 3) (rexX rex), scale := (sib >>> 6).toNat }
  else e

def eaSib (p : Code) (n : Nat) (rex mod : BitVec 8) : Nat × Ea :=
  let sib := p n
  let e := eaIndex rex sib Ea.zero
  if sib &&& 7 = 5 ∧ mod = 0 then (n + 5, { e with disp := p.i32 (n + 1) })
  else (n + 1, { e with hasBase := true, base := regNo sib (rexB rex) })

/-- The memory operand of a ModRM byte `m` whose successor is at `n`, and where it ends. -/
def modrmMem (p : Code) (n : Nat) (rex m : BitVec 8) : Nat × Ea :=
  let mod := m >>> 6
  if m &&& 7 = 4 then
    let (n, e) := eaSib p n rex mod
    eaDisp p n mod e
  else if m &&& 7 = 5 ∧ mod = 0 then
    eaDisp p (n + 4) mod { Ea.zero with disp := p.i32 n, riprel := true }
  else eaDisp p n mod { Ea.zero with hasBase := true, base := regNo m (rexB rex) }

/-- The reg field of ModRM with its REX bit, and the r/m field as a register. -/
def regField (m rex : BitVec 8) : Fin 16 := regNo (m >>> 3) (rexR rex)
def rmField (m rex : BitVec 8) : Fin 16 := regNo m (rexB rex)
def extField (m : BitVec 8) : BitVec 8 := (m >>> 3) &&& 7

/-- The r/m operand of the ModRM byte at `n`: `onReg` when it is a register, else memory. -/
def withRm (p : Code) (n : Nat) (rex : BitVec 8) (o : Insn) (onReg : Fin 16 → Insn) : Nat × Insn :=
  let m := p n
  if m >>> 6 = 3 then (n + 1, onReg (rmField m rex))
  else ((modrmMem p (n + 1) rex m).1, { o with mem := true, ea := (modrmMem p (n + 1) rex m).2 })

/-- `(op == 0x84 || op == 0x85) ? 0x85 : (op & ~3)`. -/
def rowOp (op : BitVec 8) : Op :=
  if op = 0x84 ∨ op = 0x85 then .test
  else
    match op &&& 0xFC with
    | 0x00 => .add
    | 0x08 => .or
    | 0x20 => .and
    | 0x28 => .sub
    | 0x30 => .xor
    | 0x38 => .cmp
    | _ => .mov

/-- `(op == 0xA8 || op == 0xA9) ? 0x85 : (op & ~7)`. -/
def eaxOp (op : BitVec 8) : Op :=
  if op = 0xA8 ∨ op = 0xA9 then .test
  else
    match op &&& 0xF8 with
    | 0x00 => .add
    | 0x08 => .or
    | 0x20 => .and
    | 0x28 => .sub
    | 0x30 => .xor
    | _ => .cmp

/-- `map[ext]` of group 1. -/
def grp1Op (ext : BitVec 8) : Op :=
  match ext with
  | 0 => .add
  | 1 => .or
  | 4 => .and
  | 5 => .sub
  | 6 => .xor
  | _ => .cmp

def Op.noWrite : Op → Bool
  | .cmp | .test => true
  | _ => false

def decAluRow (p : Code) (n : Nat) (rex op : BitVec 8) (o : Insn) : Option (Nat × Insn) :=
  let m := p n
  let o := { o with
    size := if op &&& 1 = 0 ∨ op = 0x88 ∨ op = 0x8A then 1 else o.size
    op := rowOp op
    noWrite := (rowOp op).noWrite }
  let toReg := op &&& 2 != 0 && op != 0x84 && op != 0x85
  let regf := regField m rex
  some (withRm p n rex { o with kind := if toReg then .rm else .mr, reg := regf } fun rm =>
    { o with kind := .rr, reg := if toReg then regf else rm, src := if toReg then rm else regf })

/-- An immediate of the operand's width: one byte, or four that are sign-extended to eight.
A 32-bit operation keeps only the low half. -/
def decImm (p : Code) (n size : Nat) : Nat × BitVec 64 :=
  if size = 1 then (n + 1, (p n).setWidth 64)
  else (n + 4, if size = 4 then p.i32 n &&& 0xffffffff else p.i32 n)

/-- The sign-extended byte of `0x83`. -/
def decImm8 (p : Code) (n size : Nat) : Nat × BitVec 64 :=
  (n + 1, if size = 4 then p.i8 n &&& 0xffffffff else p.i8 n)

def decGrp1 (p : Code) (n : Nat) (rex op : BitVec 8) (o : Insn) : Option (Nat × Insn) :=
  let m := p n
  let ext := extField m
  let mov := op == 0xC6 || op == 0xC7
  let size := if op = 0x80 ∨ op = 0xC6 then 1 else o.size
  if mov ∧ ext ≠ 0 then none
  else if !mov ∧ (ext = 2 ∨ ext = 3) then none
  else
    let (n, o) := withRm p n rex { o with kind := .mi, size := size } fun rm =>
      { o with kind := .ri, size := size, reg := rm }
    let (n, imm) := if op = 0x83 then decImm8 p n size else decImm p n size
    if mov then some (n, { o with imm := imm, op := .mov })
    else some (n, { o with imm := imm, op := grp1Op ext, noWrite := ext == 7 })

def decEax (p : Code) (n : Nat) (op : BitVec 8) (o : Insn) : Option (Nat × Insn) :=
  let size := if op &&& 1 = 0 then 1 else o.size
  let (n, imm) := decImm p n size
  some (n, { o with
    kind := .ri, reg := 0, size := size, imm := imm, op := eaxOp op, noWrite := (eaxOp op).noWrite })

def decMovRegImm8 (p : Code) (n : Nat) (rex op : BitVec 8) (o : Insn) : Option (Nat × Insn) :=
  some (n + 1, { o with kind := .ri, size := 1, reg := regNo op (rexB rex), imm := (p n).setWidth 64, op := .mov })

def decMovRegImm (p : Code) (n : Nat) (rex op : BitVec 8) (o : Insn) : Option (Nat × Insn) :=
  let o := { o with kind := .ri, reg := regNo op (rexB rex), op := .mov }
  if o.size = 8 then some (n + 8, { o with imm := p.u64 n })
  else some (n + 4, { o with imm := (p.u32 n).setWidth 64 })

def decShift (p : Code) (n : Nat) (rex op : BitVec 8) (o : Insn) : Option (Nat × Insn) :=
  let ext := extField (p n)
  let o := { o with size := if op = 0xC0 ∨ op = 0xD0 ∨ op = 0xD2 then 1 else o.size, ext := ext, kind := .shift }
  if ext < 4 then none
  else
    let (n, o) := withRm p n rex o fun rm => { o with reg := rm }
    if op = 0xC0 ∨ op = 0xC1 then some (n + 1, { o with imm := (p n).setWidth 64 })
    else if op = 0xD2 ∨ op = 0xD3 then some (n, { o with byCl := true })
    else some (n, { o with imm := 1 })

def decImulImm (p : Code) (n : Nat) (rex op : BitVec 8) (o : Insn) : Option (Nat × Insn) :=
  let o := { o with kind := .imul, immSrc := true, reg := regField (p n) rex }
  let (n, o) := withRm p n rex o fun rm => { o with src := rm }
  if op = 0x6B then some (n + 1, { o with imm := p.i8 n })
  else some (n + 4, { o with imm := p.i32 n })

def decLea (p : Code) (n : Nat) (rex : BitVec 8) (o : Insn) : Option (Nat × Insn) :=
  if p n >>> 6 = 3 then none
  else
    some (withRm p n rex { o with kind := .lea, reg := regField (p n) rex } fun _ => o)

/-- `push rsp` and `pop rsp` are declined. -/
def decPushPop (n : Nat) (rex op : BitVec 8) (o : Insn) : Option (Nat × Insn) :=
  let reg := regNo op (rexB rex)
  if reg = rsp then none
  else some (n, { o with kind := if op < 0x58 then .push else .pop, reg := reg })

/-- The SSE opcodes the compiler takes, by the prefixes it accepts them with. -/
inductive SsePrefix where
  | any | packed | only66 | scalar | never
  deriving DecidableEq, Repr

def ssePrefix (op2 : BitVec 8) : SsePrefix :=
  if op2 ∈ [0x10#8, 0x11] then .any
  else if op2 ∈ [0x28#8, 0x29, 0x54, 0x55, 0x56, 0x57, 0x2E, 0x2F] then .packed
  else if op2 ∈ [0xDB#8, 0xEB, 0xEF] then .only66
  else if op2 ∈ [0x51#8, 0x58, 0x59, 0x5C, 0x5D, 0x5E, 0x5F, 0xC2, 0x2A, 0x2C, 0x2D, 0x5A] then .scalar
  else .never

def SsePrefix.accepts (mand : BitVec 8) : SsePrefix → Bool
  | .any => true
  | .packed => mand == 0x00 || mand == 0x66
  | .only66 => mand == 0x66
  | .scalar => mand == 0xF2 || mand == 0xF3
  | .never => false

def decodeSse (p : Code) (n : Nat) (rex mand op2 : BitVec 8) (o : Insn) : Option (Nat × Insn) :=
  if (ssePrefix op2).accepts mand = false then none
  else
    let o := { o with
      kind := .sse, mand := mand, op2 := op2, isize := if rexW rex then 8 else 4, xreg := regField (p n) rex }
    let (n, o) := withRm p n rex o fun rm => { o with xsrc := rm }
    if op2 = 0xC2 then some (n + 1, { o with pred := p n &&& 7 }) else some (n, o)

/-- The branches of the two-byte case, in the order the source tests them. -/
inductive JitTwo where
  | jcc | imul | setcc | movx | nop | sse
  deriving DecidableEq, Repr

def jitTwo (op2 : BitVec 8) : JitTwo :=
  if 0x80 ≤ op2 ∧ op2 ≤ 0x8F then .jcc
  else if op2 = 0xAF then .imul
  else if 0x90 ≤ op2 ∧ op2 ≤ 0x9F then .setcc
  else if op2 = 0xB6 ∨ op2 = 0xB7 ∨ op2 = 0xBE ∨ op2 = 0xBF then .movx
  else if op2 = 0x1F then .nop
  else .sse

def decImul (p : Code) (n : Nat) (rex : BitVec 8) (o : Insn) : Option (Nat × Insn) :=
  let o := { o with kind := .imul, reg := regField (p n) rex }
  some (withRm p n rex o fun rm => { o with src := rm })

def decSetcc (p : Code) (n : Nat) (rex op2 : BitVec 8) (o : Insn) : Option (Nat × Insn) :=
  let o := { o with kind := .setcc, size := 1, cc := op2 &&& 0xF }
  some (withRm p n rex o fun rm => { o with reg := rm })

def decMovx (p : Code) (n : Nat) (rex op2 : BitVec 8) (o : Insn) : Option (Nat × Insn) :=
  let o := { o with
    kind := .movx, ssize := if op2 &&& 1 ≠ 0 then 2 else 1, sign := op2 &&& 8 != 0, reg := regField (p n) rex }
  some (withRm p n rex o fun rm => { o with src := rm })

/-- The operand of a multi-byte nop is skipped. -/
def decNop (p : Code) (n : Nat) (rex : BitVec 8) (o : Insn) : Option (Nat × Insn) :=
  let (n, o) := withRm p n rex o fun _ => o
  some (n, { o with mem := false, kind := .nop })

def decTwoByte (p : Code) (n : Nat) (rex mand : BitVec 8) (o : Insn) : Option (Nat × Insn) :=
  let op2 := p n
  match jitTwo op2 with
  | .jcc => if mand ≠ 0 then none else some (n + 5, { o with kind := .jcc, cc := op2 &&& 0xF, imm := p.i32 (n + 1) })
  | .imul => if mand ≠ 0 then none else decImul p (n + 1) rex o
  | .setcc => if mand ≠ 0 then none else decSetcc p (n + 1) rex op2 o
  | .movx => if mand ≠ 0 then none else decMovx p (n + 1) rex op2 o
  | .nop => if mand ≠ 0 ∧ mand ≠ 0x66 then none else decNop p (n + 1) rex o
  | .sse => decodeSse p (n + 1) rex mand op2 o

def decGrp5 (p : Code) (n : Nat) (rex op : BitVec 8) (o : Insn) : Option (Nat × Insn) :=
  let m := p n
  let ext := extField m
  let o := { o with size := if op = 0xFE then 1 else o.size }
  if ext = 0 ∨ ext = 1 then
    let o := { o with imm := 1, op := if ext = 0 then .inc else .dec }
    some (withRm p n rex { o with kind := .mi } fun rm => { o with kind := .ri, reg := rm })
  else if op = 0xFE ∨ (ext ≠ 2 ∧ ext ≠ 4) then none
  else if m >>> 6 = 3 ∧ rmField m rex = rsp then none
  else
    let o := { o with kind := if ext = 2 then .callm else .jmpm }
    some (withRm p n rex o fun rm => { o with reg := rm })

/-- The case of the switch in `decode` that an opcode belongs to. -/
inductive JitClass where
  | aluRow | grp1 | eax | movRegImm8 | movRegImm | shift | imulImm | lea | pushPop | nop | jcc8
  | twoByte | jmp8 | jmp32 | call | ret | grp5 | none
  deriving DecidableEq, Repr

def jitClass (op : BitVec 8) : JitClass :=
  if op ∈ [0x00#8, 0x01, 0x02, 0x03, 0x08, 0x09, 0x0A, 0x0B, 0x20, 0x21, 0x22, 0x23,
      0x28, 0x29, 0x2A, 0x2B, 0x30, 0x31, 0x32, 0x33, 0x38, 0x39, 0x3A, 0x3B,
      0x84, 0x85, 0x88, 0x89, 0x8A, 0x8B] then .aluRow
  else if op ∈ [0x80#8, 0x81, 0x83, 0xC6, 0xC7] then .grp1
  else if op ∈ [0x04#8, 0x0C, 0x24, 0x2C, 0x34, 0x3C, 0xA8, 0x05, 0x0D, 0x25, 0x2D, 0x35, 0x3D, 0xA9] then .eax
  else if 0xB0 ≤ op ∧ op ≤ 0xB7 then .movRegImm8
  else if 0xB8 ≤ op ∧ op ≤ 0xBF then .movRegImm
  else if op ∈ [0xC0#8, 0xC1, 0xD0, 0xD1, 0xD2, 0xD3] then .shift
  else if op ∈ [0x69#8, 0x6B] then .imulImm
  else if op = 0x8D then .lea
  else if 0x50 ≤ op ∧ op ≤ 0x5F then .pushPop
  else if op = 0x90 then .nop
  else if 0x70 ≤ op ∧ op ≤ 0x7F then .jcc8
  else if op = 0x0F then .twoByte
  else if op = 0xEB then .jmp8
  else if op = 0xE9 then .jmp32
  else if op = 0xE8 then .call
  else if op = 0xC3 then .ret
  else if op ∈ [0xFE#8, 0xFF] then .grp5
  else .none

def decOp (p : Code) (n : Nat) (rex mand op : BitVec 8) (o : Insn) : Option (Nat × Insn) :=
  match jitClass op with
  | .aluRow => decAluRow p n rex op o
  | .grp1 => decGrp1 p n rex op o
  | .eax => decEax p n op o
  | .movRegImm8 => decMovRegImm8 p n rex op o
  | .movRegImm => decMovRegImm p n rex op o
  | .shift => decShift p n rex op o
  | .imulImm => decImulImm p n rex op o
  | .lea => decLea p n rex o
  | .pushPop => decPushPop n rex op o
  | .nop => if rex ≠ 0 then none else some (n, { o with kind := .nop })
  | .jcc8 => some (n + 1, { o with kind := .jcc, cc := op &&& 0xF, imm := p.i8 n })
  | .twoByte => decTwoByte p n rex mand o
  | .jmp8 => some (n + 1, { o with kind := .jmp, imm := p.i8 n })
  | .jmp32 => some (n + 4, { o with kind := .jmp, imm := p.i32 n })
  | .call => some (n + 4, { o with kind := .call, imm := p.i32 n })
  | .ret => some (n, { o with kind := .ret })
  | .grp5 => decGrp5 p n rex op o
  | .none => none

def isRex (b : BitVec 8) : Bool := b &&& 0xF0 == 0x40

def isMand (b : BitVec 8) : Bool := b == 0x66 || b == 0xF2 || b == 0xF3

/-- Length, successor and branch target, once the instruction has been read. -/
def finishInsn (rip : BitVec 64) (n : Nat) (o : Insn) : Insn :=
  let next := rip + BitVec.ofNat 64 n
  { o with
    len := n
    next := next
    target := if o.kind = .jcc ∨ o.kind = .jmp ∨ o.kind = .call then next + o.imm else o.target }

/-- One mandatory prefix at most, then one REX byte at most. A mandatory prefix is accepted
before a two-byte opcode only. -/
def decode (p : Code) (rip : BitVec 64) : Option Insn :=
  let mand := if isMand (p 0) then p 0 else 0
  let n := if isMand (p 0) then 1 else 0
  let hasRex := isRex (p n)
  let rex := if hasRex then p n else 0
  let n := if hasRex then n + 1 else n
  let op := p n
  if mand ≠ 0 ∧ op ≠ 0x0F then none
  else
    (decOp p (n + 1) rex mand op { Insn.zero with hasRex := hasRex, size := if rexW rex then 8 else 4 }).map
      fun r => finishInsn rip r.1 r.2

end Rashid
