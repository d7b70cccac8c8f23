import Mathlib.Algebra.GroupWithZero.Nat
import Mathlib.Tactic.Common

/-!
# The AArch64 instructions compiled code is made of

One constructor for each encoder of `emit.h`, under the encoder's name and with its operands
in its order. Branch displacements count instructions.
-/

namespace Rashid

/-- Condition codes. -/
inductive A64Cond where
  | eq | ne | cs | cc | mi | pl | vs | vc | hi | ls | gt
  deriving DecidableEq, Repr

/-- `FOP_MUL`, `FOP_DIV`, `FOP_ADD` and `FOP_SUB`. -/
inductive FOp where
  | mul | div | add | sub
  deriving DecidableEq, Repr

/-- Register 31 is the zero register, or the stack pointer in `push` and `pop`. -/
abbrev A64Reg := Fin 32

instance a64RegNeZero : NeZero 32 := ⟨by decide⟩

inductive A64 where
  | ldr (t n : A64Reg) (off : Nat)
  | str (t n : A64Reg) (off : Nat)
  | push (t : A64Reg)
  | pop (t : A64Reg)
  | movz (d : A64Reg) (imm : BitVec 16) (hw : Nat)
  | movk (d : A64Reg) (imm : BitVec 16) (hw : Nat)
  | mov (d m : A64Reg)
  | add (d n m : A64Reg)
  | sub (d n m : A64Reg)
  | and (d n m : A64Reg)
  | orr (d n m : A64Reg)
  | eor (d n m : A64Reg)
  | addW (d n m : A64Reg)
  | subW (d n m : A64Reg)
  | andW (d n m : A64Reg)
  | orrW (d n m : A64Reg)
  | eorW (d n m : A64Reg)
  | movW (d m : A64Reg)
  | addImm (d n : A64Reg) (imm : Nat)
  | subImm (d n : A64Reg) (imm : Nat)
  | addShift (d n m : A64Reg) (shift : Nat)
  | mul (d n m : A64Reg)
  | mulW (d n m : A64Reg)
  | ldrh (t n : A64Reg) (off : Nat)
  | strh (t n : A64Reg) (off : Nat)
  | b (imm26 : Int)
  | ldrb (t n : A64Reg) (off : Nat)
  | strb (t n : A64Reg) (off : Nat)
  | ubfx (d n : A64Reg) (lsb width : Nat)
  | bfi (d n : A64Reg) (lsb width : Nat)
  | sxt (d n : A64Reg) (bits : Nat)
  | sxtW (d n : A64Reg) (bits : Nat)
  | cbzW (t : A64Reg) (imm19 : Int)
  | cmp0 (n : A64Reg)
  | csel (d n m : A64Reg) (cond : A64Cond)
  | bic (d n m : A64Reg)
  | csetm (d : A64Reg) (cond : A64Cond)
  | csetmW (d : A64Reg) (cond : A64Cond)
  | addsZr (n m : A64Reg) (w : Bool)
  | subsZr (n m : A64Reg) (w : Bool)
  | andsZr (n m : A64Reg) (w : Bool)
  | orrLsl (d n m : A64Reg) (sh : Nat)
  | eorLsr (d n m : A64Reg) (sh : Nat)
  | eorBit (d n : A64Reg) (k : Nat)
  | cset (d : A64Reg) (cond : A64Cond)
  | ldrD (t n : A64Reg) (off : Nat)
  | strD (t n : A64Reg) (off : Nat)
  | ldrS (t n : A64Reg) (off : Nat)
  | strS (t n : A64Reg) (off : Nat)
  | ldrW (t n : A64Reg) (off : Nat)
  | strW (t n : A64Reg) (off : Nat)
  | fopD (op : FOp) (d n m : A64Reg)
  | fopS (op : FOp) (d n m : A64Reg)
  | fsqrtD (d n : A64Reg)
  | fsqrtS (d n : A64Reg)
  | fcmpD (n m : A64Reg)
  | fcmpS (n m : A64Reg)
  | fcselD (d n m : A64Reg) (cond : A64Cond)
  | fcselS (d n m : A64Reg) (cond : A64Cond)
  | fmovDx (d n : A64Reg)
  | fmovXd (d n : A64Reg)
  | fmovSw (d n : A64Reg)
  | fmovWs (d n : A64Reg)
  | scvtfDx (d n : A64Reg)
  | scvtfDw (d n : A64Reg)
  | scvtfSx (d n : A64Reg)
  | scvtfSw (d n : A64Reg)
  | fcvtSd (d n : A64Reg)
  | fcvtDs (d n : A64Reg)
  | bcond (cond : A64Cond) (imm19 : Int)
  | blr (n : A64Reg)
  | ret
  deriving DecidableEq, Repr

def x0 : A64Reg := 0
def x1 : A64Reg := 1
def x2 : A64Reg := 2
def x3 : A64Reg := 3
def x4 : A64Reg := 4
def x5 : A64Reg := 5
def x6 : A64Reg := 6
def x9 : A64Reg := 9
def x10 : A64Reg := 10
def x11 : A64Reg := 11
def x12 : A64Reg := 12
def x30 : A64Reg := 30
def zr : A64Reg := 31

/-- Compiled code's only base register, `x19`. -/
def cpuReg : A64Reg := 19

end Rashid
