import Rashid.ArmTables
import Rashid.Emit

/-!
# The encoders

The words `emit.h` gives its instructions, family by family, each member with its own constant
and in the order the source puts its operands together.
-/

namespace Rashid

/-- An operand shifted to its place. -/
def operand (v pos : Nat) : BitVec 32 := BitVec.ofNat 32 v <<< pos

def A64Cond.code : A64Cond → Nat
  | .eq => 0
  | .ne => 1
  | .cs => 2
  | .cc => 3
  | .mi => 4
  | .pl => 5
  | .vs => 6
  | .vc => 7
  | .hi => 8
  | .ls => 9
  | .gt => 12

def FOp.code : FOp → BitVec 32
  | .mul => 0x0800
  | .div => 0x1800
  | .add => 0x2800
  | .sub => 0x3800

/-- A load or store at an offset that counts `scale` bytes. -/
def wordMem (op : BitVec 32) (scale : Nat) (t n : A64Reg) (off : Nat) : BitVec 32 :=
  op ||| operand (off / scale) 10 ||| operand n 5 ||| operand t 0

def wordWide (op : BitVec 32) (d : A64Reg) (imm : BitVec 16) (hw : Nat) : BitVec 32 :=
  op ||| operand hw 21 ||| operand imm.toNat 5 ||| operand d 0

def word2 (op : BitVec 32) (d n : A64Reg) : BitVec 32 := op ||| operand n 5 ||| operand d 0

def wordMov (op : BitVec 32) (d m : A64Reg) : BitVec 32 := op ||| operand m 16 ||| operand d 0

def word3 (op : BitVec 32) (d n m : A64Reg) : BitVec 32 := op ||| operand m 16 ||| operand n 5 ||| operand d 0

def wordImm (op : BitVec 32) (d n : A64Reg) (imm : Nat) : BitVec 32 :=
  op ||| operand imm 10 ||| operand n 5 ||| operand d 0

def wordShift (op : BitVec 32) (d n m : A64Reg) (sh : Nat) : BitVec 32 :=
  op ||| operand m 16 ||| operand sh 10 ||| operand n 5 ||| operand d 0

/-- A comparison: its result goes nowhere. -/
def wordCompare (op : BitVec 32) (n m : A64Reg) : BitVec 32 := op ||| operand m 16 ||| operand n 5

def wordSelect (op : BitVec 32) (d n m : A64Reg) (cond : A64Cond) : BitVec 32 :=
  op ||| operand m 16 ||| operand cond.code 12 ||| operand n 5 ||| operand d 0

/-- The inverted condition, with the zero register for both operands. -/
def wordSet (op : BitVec 32) (d : A64Reg) (cond : A64Cond) : BitVec 32 :=
  op ||| operand (cond.code ^^^ 1) 12 ||| operand d 0

def wordExtend (op : BitVec 32) (d n : A64Reg) (bits : Nat) : BitVec 32 :=
  op ||| operand (bits - 1) 10 ||| operand n 5 ||| operand d 0

/-- A displacement in bits 5 to 23. -/
def wordBranch (op : BitVec 32) (imm19 : Int) (low : Nat) : BitVec 32 :=
  op ||| ((BitVec.ofInt 32 imm19 &&& 0x7FFFF) <<< 5) ||| operand low 0

/-- `(64 - k) & 63`. -/
def rotation (k : Nat) : Nat := (64 - k) % 64

def A64.word : A64 → BitVec 32
  | .ldr t n off => wordMem 0xF9400000 8 t n off
  | .str t n off => wordMem 0xF9000000 8 t n off
  | .push t => 0xF8000C00 ||| operand 0x1F0 12 ||| operand 31 5 ||| operand t 0
  | .pop t => 0xF8400400 ||| operand 16 12 ||| operand 31 5 ||| operand t 0
  | .movz d imm hw => wordWide 0xD2800000 d imm hw
  | .movk d imm hw => wordWide 0xF2800000 d imm hw
  | .mov d m => wordMov 0xAA0003E0 d m
  | .add d n m => word3 0x8B000000 d n m
  | .sub d n m => word3 0xCB000000 d n m
  | .and d n m => word3 0x8A000000 d n m
  | .orr d n m => word3 0xAA000000 d n m
  | .eor d n m => word3 0xCA000000 d n m
  | .addW d n m => word3 0x0B000000 d n m
  | .subW d n m => word3 0x4B000000 d n m
  | .andW d n m => word3 0x0A000000 d n m
  | .orrW d n m => word3 0x2A000000 d n m
  | .eorW d n m => word3 0x4A000000 d n m
  | .movW d m => wordMov 0x2A0003E0 d m
  | .addImm d n imm => wordImm 0x91000000 d n imm
  | .subImm d n imm => wordImm 0xD1000000 d n imm
  | .addShift d n m shift => wordShift 0x8B000000 d n m shift
  | .mul d n m => word3 0x9B007C00 d n m
  | .mulW d n m => word3 0x1B007C00 d n m
  | .ldrh t n off => wordMem 0x79400000 2 t n off
  | .strh t n off => wordMem 0x79000000 2 t n off
  | .b imm26 => 0x14000000 ||| (BitVec.ofInt 32 imm26 &&& 0x3FFFFFF)
  | .ldrb t n off => wordMem 0x39400000 1 t n off
  | .strb t n off => wordMem 0x39000000 1 t n off
  | .ubfx d n lsb width =>
    0xD3400000 ||| operand lsb 16 ||| operand (lsb + width - 1) 10 ||| operand n 5 ||| operand d 0
  | .bfi d n lsb width =>
    0xB3400000 ||| operand (rotation lsb) 16 ||| operand (width - 1) 10 ||| operand n 5 ||| operand d 0
  | .sxt d n bits => wordExtend 0x93400000 d n bits
  | .sxtW d n bits => wordExtend 0x13000000 d n bits
  | .cbzW t imm19 => wordBranch 0x34000000 imm19 t
  | .cmp0 n => 0xF100001F ||| operand n 5
  | .csel d n m cond => wordSelect 0x9A800000 d n m cond
  | .bic d n m => word3 0x8A200000 d n m
  | .csetm d cond => wordSet 0xDA9F03E0 d cond
  | .csetmW d cond => wordSet 0x5A9F03E0 d cond
  | .addsZr n m w => wordCompare (if w then 0x2B00001F else 0xAB00001F) n m
  | .subsZr n m w => wordCompare (if w then 0x6B00001F else 0xEB00001F) n m
  | .andsZr n m w => wordCompare (if w then 0x6A00001F else 0xEA00001F) n m
  | .orrLsl d n m sh => wordShift 0xAA000000 d n m sh
  | .eorLsr d n m sh => wordShift 0xCA400000 d n m sh
  | .eorBit d n k => 0xD2400000 ||| operand (rotation k) 16 ||| operand n 5 ||| operand d 0
  | .cset d cond => wordSet 0x9A9F07E0 d cond
  | .ldrD t n off => wordMem 0xFD400000 8 t n off
  | .strD t n off => wordMem 0xFD000000 8 t n off
  | .ldrS t n off => wordMem 0xBD400000 4 t n off
  | .strS t n off => wordMem 0xBD000000 4 t n off
  | .ldrW t n off => wordMem 0xB9400000 4 t n off
  | .strW t n off => wordMem 0xB9000000 4 t n off
  | .fopD op d n m => word3 (0x1E600000 ||| op.code) d n m
  | .fopS op d n m => word3 (0x1E200000 ||| op.code) d n m
  | .fsqrtD d n => word2 0x1E61C000 d n
  | .fsqrtS d n => word2 0x1E21C000 d n
  | .fcmpD n m => wordCompare 0x1E602000 n m
  | .fcmpS n m => wordCompare 0x1E202000 n m
  | .fcselD d n m cond => wordSelect 0x1E600C00 d n m cond
  | .fcselS d n m cond => wordSelect 0x1E200C00 d n m cond
  | .fmovDx d n => word2 0x9E670000 d n
  | .fmovXd d n => word2 0x9E660000 d n
  | .fmovSw d n => word2 0x1E270000 d n
  | .fmovWs d n => word2 0x1E260000 d n
  | .scvtfDx d n => word2 0x9E620000 d n
  | .scvtfDw d n => word2 0x1E620000 d n
  | .scvtfSx d n => word2 0x9E220000 d n
  | .scvtfSw d n => word2 0x1E220000 d n
  | .fcvtSd d n => word2 0x1E624000 d n
  | .fcvtDs d n => word2 0x1E22C000 d n
  | .bcond cond imm19 => wordBranch 0x54000000 imm19 cond.code
  | .blr n => 0xD63F0000 ||| operand n 5
  | .ret => 0xD65F03C0

/-- The operands an encoder is documented for. -/
def A64.InRange : A64 → Prop
  | .ldr _ _ off | .str _ _ off | .ldrD _ _ off | .strD _ _ off => 8 ∣ off ∧ off ≤ 32760
  | .ldrS _ _ off | .strS _ _ off | .ldrW _ _ off | .strW _ _ off => 4 ∣ off ∧ off ≤ 16380
  | .ldrh _ _ off | .strh _ _ off => 2 ∣ off ∧ off ≤ 8190
  | .ldrb _ _ off | .strb _ _ off => off ≤ 4095
  | .movz _ _ hw | .movk _ _ hw => hw < 4
  | .addImm _ _ imm | .subImm _ _ imm => imm < 4096
  | .addShift _ _ _ sh | .orrLsl _ _ _ sh | .eorLsr _ _ _ sh => sh < 64
  | .ubfx _ _ lsb width | .bfi _ _ lsb width => 0 < width ∧ lsb + width ≤ 64
  | .sxt _ _ bits => 0 < bits ∧ bits ≤ 64
  | .sxtW _ _ bits => 0 < bits ∧ bits ≤ 32
  | .eorBit _ _ k => k < 64
  | .b imm26 => -2 ^ 25 ≤ imm26 ∧ imm26 < 2 ^ 25
  | .cbzW _ imm19 | .bcond _ imm19 => -2 ^ 18 ≤ imm19 ∧ imm19 < 2 ^ 18
  | _ => True

/-! ### What the encoders are named after -/

def A64Cond.arm : A64Cond → ArmCond
  | .eq => .eq
  | .ne => .ne
  | .cs => .cs
  | .cc => .cc
  | .mi => .mi
  | .pl => .pl
  | .vs => .vs
  | .vc => .vc
  | .hi => .hi
  | .ls => .ls
  | .gt => .gt

def FOp.arm : FOp → ArmFp2
  | .mul => .fmul
  | .div => .fdiv
  | .add => .fadd
  | .sub => .fsub

/-- An access of a general register, and one of a floating-point register. -/
def ldrOf (bytes : Nat) : ArmAccess := ⟨true, false, bytes⟩
def strOf (bytes : Nat) : ArmAccess := ⟨false, false, bytes⟩
def ldrFp (bytes : Nat) : ArmAccess := ⟨true, true, bytes⟩
def strFp (bytes : Nat) : ArmAccess := ⟨false, true, bytes⟩

/-- What an encoder is named after. Where the name is an alias, the instruction it is an alias of:
`mov` is `orr` with the zero register, `mul` is `madd` with it, a comparison is the operation into
it, `ubfx`, `bfi` and `sxt` are bit-field moves, and `cset` and `csetm` select with the inverted
condition between zero registers. -/
def A64.arm : A64 → ArmInsn
  | .ldr t n off => .access (ldrOf 8) t n off
  | .str t n off => .access (strOf 8) t n off
  | .push t => .accessPre (strOf 8) t 31 (-16)
  | .pop t => .accessPost (ldrOf 8) t 31 16
  | .movz d imm hw => .moveWide true .movz d imm (16 * hw)
  | .movk d imm hw => .moveWide true .movk d imm (16 * hw)
  | .mov d m => .logicReg true .orr false d 31 m .lsl 0
  | .add d n m => .addSubReg true false false d n m .lsl 0
  | .sub d n m => .addSubReg true true false d n m .lsl 0
  | .and d n m => .logicReg true .and false d n m .lsl 0
  | .orr d n m => .logicReg true .orr false d n m .lsl 0
  | .eor d n m => .logicReg true .eor false d n m .lsl 0
  | .addW d n m => .addSubReg false false false d n m .lsl 0
  | .subW d n m => .addSubReg false true false d n m .lsl 0
  | .andW d n m => .logicReg false .and false d n m .lsl 0
  | .orrW d n m => .logicReg false .orr false d n m .lsl 0
  | .eorW d n m => .logicReg false .eor false d n m .lsl 0
  | .movW d m => .logicReg false .orr false d 31 m .lsl 0
  | .addImm d n imm => .addSubImm true false false d n imm
  | .subImm d n imm => .addSubImm true true false d n imm
  | .addShift d n m sh => .addSubReg true false false d n m .lsl sh
  | .mul d n m => .mulAdd true false d n m 31
  | .mulW d n m => .mulAdd false false d n m 31
  | .ldrh t n off => .access (ldrOf 2) t n off
  | .strh t n off => .access (strOf 2) t n off
  | .b imm26 => .branch false imm26
  | .ldrb t n off => .access (ldrOf 1) t n off
  | .strb t n off => .access (strOf 1) t n off
  | .ubfx d n lsb width => .bitfield true .ubfm d n lsb (lsb + width - 1)
  | .bfi d n lsb width => .bitfield true .bfm d n ((64 - lsb) % 64) (width - 1)
  | .sxt d n bits => .bitfield true .sbfm d n 0 (bits - 1)
  | .sxtW d n bits => .bitfield false .sbfm d n 0 (bits - 1)
  | .cbzW t imm19 => .branchZero false false t imm19
  | .cmp0 n => .addSubImm true true true 31 n 0
  | .csel d n m cond => .select true .csel d n m cond.arm
  | .bic d n m => .logicReg true .and true d n m .lsl 0
  | .csetm d cond => .select true .csinv d 31 31 cond.arm.invert
  | .csetmW d cond => .select false .csinv d 31 31 cond.arm.invert
  | .addsZr n m w => .addSubReg (!w) false true 31 n m .lsl 0
  | .subsZr n m w => .addSubReg (!w) true true 31 n m .lsl 0
  | .andsZr n m w => .logicReg (!w) .ands false 31 n m .lsl 0
  | .orrLsl d n m sh => .logicReg true .orr false d n m .lsl sh
  | .eorLsr d n m sh => .logicReg true .eor false d n m .lsr sh
  | .eorBit d n k => .logicImm true .eor d n (1 <<< k)
  | .cset d cond => .select true .csinc d 31 31 cond.arm.invert
  | .ldrD t n off => .access (ldrFp 8) t n off
  | .strD t n off => .access (strFp 8) t n off
  | .ldrS t n off => .access (ldrFp 4) t n off
  | .strS t n off => .access (strFp 4) t n off
  | .ldrW t n off => .access (ldrOf 4) t n off
  | .strW t n off => .access (strOf 4) t n off
  | .fopD op d n m => .fp2 .double op.arm d n m
  | .fopS op d n m => .fp2 .single op.arm d n m
  | .fsqrtD d n => .fp1 .double .fsqrt d n
  | .fsqrtS d n => .fp1 .single .fsqrt d n
  | .fcmpD n m => .fpCompare .double false n m
  | .fcmpS n m => .fpCompare .single false n m
  | .fcselD d n m cond => .fpSelect .double d n m cond.arm
  | .fcselS d n m cond => .fpSelect .single d n m cond.arm
  | .fmovDx d n => .fpInt true .double .fromGeneral d n
  | .fmovXd d n => .fpInt true .double .toGeneral d n
  | .fmovSw d n => .fpInt false .single .fromGeneral d n
  | .fmovWs d n => .fpInt false .single .toGeneral d n
  | .scvtfDx d n => .fpInt true .double .scvtf d n
  | .scvtfDw d n => .fpInt false .double .scvtf d n
  | .scvtfSx d n => .fpInt true .single .scvtf d n
  | .scvtfSw d n => .fpInt false .single .scvtf d n
  | .fcvtSd d n => .fpConvert .double .single d n
  | .fcvtDs d n => .fpConvert .single .double d n
  | .bcond cond imm19 => .branchCond cond.arm imm19
  | .blr n => .branchReg .blr n
  | .ret => .branchReg .ret 30

end Rashid
