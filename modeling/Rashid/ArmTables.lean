import Mathlib.Algebra.Group.Int.Defs
import Mathlib.Algebra.Group.Nat.Defs
import Mathlib.Logic.Function.Basic
import Rashid.Lib.InsnFormat

/-!
# The A64 encoding tables

The groups of the A64 instruction set that the block compiler draws from, as the architecture
lays them out: the fixed bits of a group, its fields from the top down, and what the fields
mean, unallocated combinations left out. This is the yardstick for the encoders and is not
taken from them. Registers are numbers; whether 31 is the zero register or the stack pointer
is a matter of the instruction.
-/

namespace Rashid

inductive ArmCond where
  | eq | ne | cs | cc | mi | pl | vs | vc | hi | ls | ge | lt | gt | le | al | nv
  deriving DecidableEq, Repr

namespace ArmCond

def all : List ArmCond := [eq, ne, cs, cc, mi, pl, vs, vc, hi, ls, ge, lt, gt, le, al, nv]

def ofCode (k : Nat) : Option ArmCond := all[k]?

def invert : ArmCond → ArmCond
  | eq => ne
  | ne => eq
  | cs => cc
  | cc => cs
  | mi => pl
  | pl => mi
  | vs => vc
  | vc => vs
  | hi => ls
  | ls => hi
  | ge => lt
  | lt => ge
  | gt => le
  | le => gt
  | al => nv
  | nv => al

end ArmCond

inductive ArmShift where
  | lsl | lsr | asr | ror
  deriving DecidableEq, Repr

inductive ArmLogic where
  | and | orr | eor | ands
  deriving DecidableEq, Repr

inductive ArmWide where
  | movn | movz | movk
  deriving DecidableEq, Repr

inductive ArmField where
  | sbfm | bfm | ubfm
  deriving DecidableEq, Repr

inductive ArmSelect where
  | csel | csinc | csinv | csneg
  deriving DecidableEq, Repr

inductive ArmJump where
  | br | blr | ret
  deriving DecidableEq, Repr

inductive ArmFp where
  | single | double
  deriving DecidableEq, Repr

inductive ArmFp2 where
  | fmul | fdiv | fadd | fsub | fmax | fmin | fmaxnm | fminnm | fnmul
  deriving DecidableEq, Repr

inductive ArmFp1 where
  | fmov | fabs | fneg | fsqrt
  deriving DecidableEq, Repr

/-- Conversions and copies between a general register and a floating-point one. -/
inductive ArmFpInt where
  | scvtf | ucvtf | toGeneral | fromGeneral
  deriving DecidableEq, Repr

/-- What a load or store moves: `bytes` between memory and a general register or, with `fp`, a
floating-point one. -/
structure ArmAccess where
  load : Bool
  fp : Bool
  bytes : Nat
  deriving DecidableEq, Repr

/-- Instructions, aliases left aside. `x` tells the 64-bit form from the 32-bit one; offsets are
in bytes and displacements in instructions. -/
inductive ArmInsn where
  | addSubImm (x sub flags : Bool) (d n imm : Nat)
  | logicImm (x : Bool) (op : ArmLogic) (d n : Nat) (imm : BitVec 64)
  | moveWide (x : Bool) (op : ArmWide) (d : Nat) (imm : BitVec 16) (shift : Nat)
  | bitfield (x : Bool) (op : ArmField) (d n immr imms : Nat)
  | branchCond (cond : ArmCond) (disp : Int)
  | branch (link : Bool) (disp : Int)
  | branchZero (x nonzero : Bool) (t : Nat) (disp : Int)
  | branchReg (op : ArmJump) (n : Nat)
  | access (a : ArmAccess) (t n off : Nat)
  | accessPre (a : ArmAccess) (t n : Nat) (off : Int)
  | accessPost (a : ArmAccess) (t n : Nat) (off : Int)
  | logicReg (x : Bool) (op : ArmLogic) (invert : Bool) (d n m : Nat) (shift : ArmShift) (amount : Nat)
  | addSubReg (x sub flags : Bool) (d n m : Nat) (shift : ArmShift) (amount : Nat)
  | mulAdd (x sub : Bool) (d n m a : Nat)
  | select (x : Bool) (op : ArmSelect) (d n m : Nat) (cond : ArmCond)
  | fp2 (p : ArmFp) (op : ArmFp2) (d n m : Nat)
  | fp1 (p : ArmFp) (op : ArmFp1) (d n : Nat)
  | fpConvert (src dst : ArmFp) (d n : Nat)
  | fpCompare (p : ArmFp) (signals : Bool) (n m : Nat)
  | fpSelect (p : ArmFp) (d n m : Nat) (cond : ArmCond)
  | fpInt (x : Bool) (p : ArmFp) (op : ArmFpInt) (d n : Nat)
  deriving DecidableEq, Repr

/-! ### Fields -/

def signed (len k : Nat) : Int := if k < 2 ^ (len - 1) then k else (k : Int) - 2 ^ len

def armShift : Nat → Option ArmShift
  | 0 => some .lsl
  | 1 => some .lsr
  | 2 => some .asr
  | 3 => some .ror
  | _ => none

def armLogic : Nat → Option ArmLogic
  | 0 => some .and
  | 1 => some .orr
  | 2 => some .eor
  | 3 => some .ands
  | _ => none

/-- Half precision is left out. -/
def armFp : Nat → Option ArmFp
  | 0 => some .single
  | 1 => some .double
  | _ => none

def armFp2 : Nat → Option ArmFp2
  | 0 => some .fmul
  | 1 => some .fdiv
  | 2 => some .fadd
  | 3 => some .fsub
  | 4 => some .fmax
  | 5 => some .fmin
  | 6 => some .fmaxnm
  | 7 => some .fminnm
  | 8 => some .fnmul
  | _ => none

/-- `size`, `V` and `opc`. Sign-extending loads, prefetches and 128-bit accesses are left out. -/
def armAccess (size v : Nat) : Nat → Option ArmAccess
  | 0 => some ⟨false, v == 1, 2 ^ size⟩
  | 1 => some ⟨true, v == 1, 2 ^ size⟩
  | _ => none

/-- The mask that `N`, `immr` and `imms` stand for: a run of ones, rotated in an element whose
size is the highest bit of `N:NOT(imms)`, and the element repeated. -/
def bitMask (n immr imms : Nat) : Option (BitVec 64) :=
  match [6, 5, 4, 3, 2, 1].find? (n * 64 + (63 - imms)).testBit with
  | none => none
  | some len =>
    let size := 2 ^ len
    let ones := imms % size
    let turn := immr % size
    if ones = size - 1 then none
    else
      let run := 2 ^ (ones + 1) - 1
      let elem := run / 2 ^ turn + run * 2 ^ (size - turn) % 2 ^ size
      some ((List.range (64 / size)).foldl (fun m i => m ||| (BitVec.ofNat 64 elem <<< (size * i))) 0)

/-! ### Groups -/

/-- `sf op S 100010 sh imm12 Rn Rd`. -/
def armAddSubImm : Row 32 ArmInsn where
  layout := ⟨0x1F800000, 0x11000000, [⟨31, 1⟩, ⟨30, 1⟩, ⟨29, 1⟩, ⟨22, 1⟩, ⟨10, 12⟩, ⟨5, 5⟩, ⟨0, 5⟩]⟩
  make
    | [sf, op, s, sh, imm, n, d] =>
      some (.addSubImm (sf == 1) (op == 1) (s == 1) d n (if sh = 1 then imm * 4096 else imm))
    | _ => none

/-- `sf opc 100100 N immr imms Rn Rd`. -/
def armLogicImm : Row 32 ArmInsn where
  layout := ⟨0x1F800000, 0x12000000, [⟨31, 1⟩, ⟨29, 2⟩, ⟨22, 1⟩, ⟨16, 6⟩, ⟨10, 6⟩, ⟨5, 5⟩, ⟨0, 5⟩]⟩
  make
    | [sf, opc, n, immr, imms, rn, rd] =>
      if sf = 0 ∧ n = 1 then none
      else do
        let op ← armLogic opc
        let imm ← bitMask n immr imms
        some (.logicImm (sf == 1) op rd rn imm)
    | _ => none

/-- `sf opc 100101 hw imm16 Rd`. -/
def armMoveWide : Row 32 ArmInsn where
  layout := ⟨0x1F800000, 0x12800000, [⟨31, 1⟩, ⟨29, 2⟩, ⟨21, 2⟩, ⟨5, 16⟩, ⟨0, 5⟩]⟩
  make
    | [sf, opc, hw, imm, d] =>
      if sf = 0 ∧ 2 ≤ hw then none
      else
        match opc with
        | 0 => some (.moveWide (sf == 1) .movn d (BitVec.ofNat 16 imm) (16 * hw))
        | 2 => some (.moveWide (sf == 1) .movz d (BitVec.ofNat 16 imm) (16 * hw))
        | 3 => some (.moveWide (sf == 1) .movk d (BitVec.ofNat 16 imm) (16 * hw))
        | _ => none
    | _ => none

/-- `sf opc 100110 N immr imms Rn Rd`. -/
def armBitfield : Row 32 ArmInsn where
  layout := ⟨0x1F800000, 0x13000000, [⟨31, 1⟩, ⟨29, 2⟩, ⟨22, 1⟩, ⟨16, 6⟩, ⟨10, 6⟩, ⟨5, 5⟩, ⟨0, 5⟩]⟩
  make
    | [sf, opc, n, immr, imms, rn, rd] =>
      if n ≠ sf ∨ (sf = 0 ∧ (32 ≤ immr ∨ 32 ≤ imms)) then none
      else
        match opc with
        | 0 => some (.bitfield (sf == 1) .sbfm rd rn immr imms)
        | 1 => some (.bitfield (sf == 1) .bfm rd rn immr imms)
        | 2 => some (.bitfield (sf == 1) .ubfm rd rn immr imms)
        | _ => none
    | _ => none

/-- `01010100 imm19 0 cond`. -/
def armBranchCond : Row 32 ArmInsn where
  layout := ⟨0xFF000010, 0x54000000, [⟨5, 19⟩, ⟨0, 4⟩]⟩
  make
    | [imm, cond] => (ArmCond.ofCode cond).map (.branchCond · (signed 19 imm))
    | _ => none

/-- `op 00101 imm26`. -/
def armBranch : Row 32 ArmInsn where
  layout := ⟨0x7C000000, 0x14000000, [⟨31, 1⟩, ⟨0, 26⟩]⟩
  make
    | [op, imm] => some (.branch (op == 1) (signed 26 imm))
    | _ => none

/-- `sf 011010 op imm19 Rt`. -/
def armBranchZero : Row 32 ArmInsn where
  layout := ⟨0x7E000000, 0x34000000, [⟨31, 1⟩, ⟨24, 1⟩, ⟨5, 19⟩, ⟨0, 5⟩]⟩
  make
    | [sf, op, imm, t] => some (.branchZero (sf == 1) (op == 1) t (signed 19 imm))
    | _ => none

/-- `1101011 opc 11111 000000 Rn 00000`. -/
def armBranchReg : Row 32 ArmInsn where
  layout := ⟨0xFE1FFC1F, 0xD61F0000, [⟨21, 4⟩, ⟨5, 5⟩]⟩
  make
    | [opc, n] =>
      match opc with
      | 0 => some (.branchReg .br n)
      | 1 => some (.branchReg .blr n)
      | 2 => some (.branchReg .ret n)
      | _ => none
    | _ => none

/-- `size 111 V 01 opc imm12 Rn Rt`: the offset counts elements. -/
def armAccessImm : Row 32 ArmInsn where
  layout := ⟨0x3B000000, 0x39000000, [⟨30, 2⟩, ⟨26, 1⟩, ⟨22, 2⟩, ⟨10, 12⟩, ⟨5, 5⟩, ⟨0, 5⟩]⟩
  make
    | [size, v, opc, imm, n, t] => (armAccess size v opc).map fun a => .access a t n (imm * 2 ^ size)
    | _ => none

/-- `size 111 V 00 opc 0 imm9 11 Rn Rt`. -/
def armAccessPre : Row 32 ArmInsn where
  layout := ⟨0x3B200C00, 0x38000C00, [⟨30, 2⟩, ⟨26, 1⟩, ⟨22, 2⟩, ⟨12, 9⟩, ⟨5, 5⟩, ⟨0, 5⟩]⟩
  make
    | [size, v, opc, imm, n, t] => (armAccess size v opc).map fun a => .accessPre a t n (signed 9 imm)
    | _ => none

/-- `size 111 V 00 opc 0 imm9 01 Rn Rt`. -/
def armAccessPost : Row 32 ArmInsn where
  layout := ⟨0x3B200C00, 0x38000400, [⟨30, 2⟩, ⟨26, 1⟩, ⟨22, 2⟩, ⟨12, 9⟩, ⟨5, 5⟩, ⟨0, 5⟩]⟩
  make
    | [size, v, opc, imm, n, t] => (armAccess size v opc).map fun a => .accessPost a t n (signed 9 imm)
    | _ => none

/-- `sf opc 01010 shift N Rm imm6 Rn Rd`. -/
def armLogicReg : Row 32 ArmInsn where
  layout := ⟨0x1F000000, 0x0A000000,
    [⟨31, 1⟩, ⟨29, 2⟩, ⟨22, 2⟩, ⟨21, 1⟩, ⟨16, 5⟩, ⟨10, 6⟩, ⟨5, 5⟩, ⟨0, 5⟩]⟩
  make
    | [sf, opc, shift, inv, m, amount, n, d] =>
      if sf = 0 ∧ 32 ≤ amount then none
      else do
        let op ← armLogic opc
        let sh ← armShift shift
        some (.logicReg (sf == 1) op (inv == 1) d n m sh amount)
    | _ => none

/-- `sf op S 01011 shift 0 Rm imm6 Rn Rd`; there is no rotated form. -/
def armAddSubReg : Row 32 ArmInsn where
  layout := ⟨0x1F200000, 0x0B000000,
    [⟨31, 1⟩, ⟨30, 1⟩, ⟨29, 1⟩, ⟨22, 2⟩, ⟨16, 5⟩, ⟨10, 6⟩, ⟨5, 5⟩, ⟨0, 5⟩]⟩
  make
    | [sf, op, s, shift, m, amount, n, d] =>
      if shift = 3 ∨ (sf = 0 ∧ 32 ≤ amount) then none
      else (armShift shift).map fun sh => .addSubReg (sf == 1) (op == 1) (s == 1) d n m sh amount
    | _ => none

/-- `sf 0011011 000 Rm o0 Ra Rn Rd`: of the three-source group, `madd` and `msub`. -/
def armMulAdd : Row 32 ArmInsn where
  layout := ⟨0x7FE00000, 0x1B000000, [⟨31, 1⟩, ⟨16, 5⟩, ⟨15, 1⟩, ⟨10, 5⟩, ⟨5, 5⟩, ⟨0, 5⟩]⟩
  make
    | [sf, m, o0, a, n, d] => some (.mulAdd (sf == 1) (o0 == 1) d n m a)
    | _ => none

/-- `sf op 0 11010100 Rm cond op2 Rn Rd`. -/
def armSelect : Row 32 ArmInsn where
  layout := ⟨0x3FE00000, 0x1A800000, [⟨31, 1⟩, ⟨30, 1⟩, ⟨16, 5⟩, ⟨12, 4⟩, ⟨10, 2⟩, ⟨5, 5⟩, ⟨0, 5⟩]⟩
  make
    | [sf, op, m, cond, op2, n, d] => do
      let c ← ArmCond.ofCode cond
      match op, op2 with
      | 0, 0 => some (.select (sf == 1) .csel d n m c)
      | 0, 1 => some (.select (sf == 1) .csinc d n m c)
      | 1, 0 => some (.select (sf == 1) .csinv d n m c)
      | 1, 1 => some (.select (sf == 1) .csneg d n m c)
      | _, _ => none
    | _ => none

/-- `00011110 ptype 1 Rm opcode 10 Rn Rd`. -/
def armFloat2 : Row 32 ArmInsn where
  layout := ⟨0xFF200C00, 0x1E200800, [⟨22, 2⟩, ⟨16, 5⟩, ⟨12, 4⟩, ⟨5, 5⟩, ⟨0, 5⟩]⟩
  make
    | [ptype, m, opcode, n, d] => do
      let p ← armFp ptype
      let op ← armFp2 opcode
      some (.fp2 p op d n m)
    | _ => none

/-- `00011110 ptype 1 opcode 10000 Rn Rd`. The rounding instructions are left out. -/
def armFloat1 : Row 32 ArmInsn where
  layout := ⟨0xFF207C00, 0x1E204000, [⟨22, 2⟩, ⟨15, 6⟩, ⟨5, 5⟩, ⟨0, 5⟩]⟩
  make
    | [ptype, opcode, n, d] => do
      let p ← armFp ptype
      match opcode with
      | 0 => some (.fp1 p .fmov d n)
      | 1 => some (.fp1 p .fabs d n)
      | 2 => some (.fp1 p .fneg d n)
      | 3 => some (.fp1 p .fsqrt d n)
      | 4 => if p = .single then none else some (.fpConvert p .single d n)
      | 5 => if p = .double then none else some (.fpConvert p .double d n)
      | _ => none
    | _ => none

/-- `00011110 ptype 1 Rm 00 1000 Rn opcode2`. The comparisons with zero are left out. -/
def armFloatCompare : Row 32 ArmInsn where
  layout := ⟨0xFF20FC00, 0x1E202000, [⟨22, 2⟩, ⟨16, 5⟩, ⟨5, 5⟩, ⟨0, 5⟩]⟩
  make
    | [ptype, m, n, opcode2] => do
      let p ← armFp ptype
      match opcode2 with
      | 0 => some (.fpCompare p false n m)
      | 16 => some (.fpCompare p true n m)
      | _ => none
    | _ => none

/-- `00011110 ptype 1 Rm cond 11 Rn Rd`. -/
def armFloatSelect : Row 32 ArmInsn where
  layout := ⟨0xFF200C00, 0x1E200C00, [⟨22, 2⟩, ⟨16, 5⟩, ⟨12, 4⟩, ⟨5, 5⟩, ⟨0, 5⟩]⟩
  make
    | [ptype, m, cond, n, d] => do
      let p ← armFp ptype
      let c ← ArmCond.ofCode cond
      some (.fpSelect p d n m c)
    | _ => none

/-- `sf 0011110 ptype 1 rmode opcode 000000 Rn Rd`. The conversions to integers are left out. A
copy is between registers of one width. -/
def armFloatInt : Row 32 ArmInsn where
  layout := ⟨0x7F20FC00, 0x1E200000, [⟨31, 1⟩, ⟨22, 2⟩, ⟨19, 2⟩, ⟨16, 3⟩, ⟨5, 5⟩, ⟨0, 5⟩]⟩
  make
    | [sf, ptype, rmode, opcode, n, d] => do
      let p ← armFp ptype
      match rmode, opcode with
      | 0, 2 => some (.fpInt (sf == 1) p .scvtf d n)
      | 0, 3 => some (.fpInt (sf == 1) p .ucvtf d n)
      | 0, 6 => if sf = ptype then some (.fpInt (sf == 1) p .toGeneral d n) else none
      | 0, 7 => if sf = ptype then some (.fpInt (sf == 1) p .fromGeneral d n) else none
      | _, _ => none
    | _ => none

def armRows : List (Row 32 ArmInsn) :=
  [armAddSubImm, armLogicImm, armMoveWide, armBitfield, armBranchCond, armBranch, armBranchZero, armBranchReg,
    armAccessImm, armAccessPre, armAccessPost, armLogicReg, armAddSubReg, armMulAdd, armSelect, armFloat2, armFloat1,
    armFloatCompare, armFloatSelect, armFloatInt]

def armDecode (x : BitVec 32) : Option ArmInsn := Row.decode armRows x

/-! ### Wide moves at work -/

/-- What a wide move makes of a register. -/
def ArmWide.write (old : BitVec 64) (imm : BitVec 16) (shift : Nat) : ArmWide → BitVec 64
  | .movn => ~~~(imm.setWidth 64 <<< shift)
  | .movz => imm.setWidth 64 <<< shift
  | .movk => (old &&& ~~~((0xFFFF : BitVec 64) <<< shift)) ||| (imm.setWidth 64 <<< shift)

/-- A wide move on a register file of which register 31 is not written. -/
def ArmInsn.moves (x : Nat → BitVec 64) : ArmInsn → Option (Nat → BitVec 64)
  | .moveWide true op d imm shift => some (if d = 31 then x else Function.update x d (op.write (x d) imm shift))
  | _ => none

/-- Decodes and carries out words that hold wide moves. -/
def runWides : List (BitVec 32) → (Nat → BitVec 64) → Option (Nat → BitVec 64)
  | [], x => some x
  | w :: ws, x => (armDecode w).bind fun i => (i.moves x).bind (runWides ws)

end Rashid
