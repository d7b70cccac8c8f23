import Rashid.Lib.Arm
import Rashid.Native

/-!
# The assembly routines

`callgate.S`, `trampoline.S` and `jitenter.S`, instruction by instruction, from where each is loaded.
-/

namespace Rashid

open scoped Arm

/-! ### The call gate -/

def gateEnter : List Arm.Op := [
  .stp (.x 29) (.x 30) (.pre .sp (-48)),
  .mov (.x 29) .sp,
  .stp (.x 19) (.x 20) (.offset .sp 16),
  .stp (.x 21) (.x 22) (.offset .sp 32),
  .mov (.x 19) (.x 0),
  .mov (.x 20) (.x 5),
  .mov (.x 21) (.x 1),
  .mov (.x 22) (.x 2),
  .addImm (.x 4) (.x 4) 15,
  .andImm (.x 4) (.x 4) (-16),
  .sub .sp .sp (.x 4),
  .mov (.x 9) .sp,
  .mov (.x 10) (.x 3),
  .mov (.x 11) (.x 4)]

/-- The loop from label 1 on; label 2 is behind it. -/
def gateCopy (label1 : BitVec 64) : List Arm.Insn := [
  .cbz (.x 11) (label1 + 20),
  .op (.ldr (.x 12) (.post (.x 10) 8)),
  .op (.str (.x 12) (.post (.x 9) 8)),
  .op (.subImm (.x 11) (.x 11) 8),
  .b label1]

def gateLoad : List Arm.Op := [
  .ldpD 0 1 (.offset (.x 22) 0),
  .ldpD 2 3 (.offset (.x 22) 16),
  .ldpD 4 5 (.offset (.x 22) 32),
  .ldpD 6 7 (.offset (.x 22) 48),
  .ldp (.x 0) (.x 1) (.offset (.x 21) 0),
  .ldp (.x 2) (.x 3) (.offset (.x 21) 16),
  .ldp (.x 4) (.x 5) (.offset (.x 21) 32),
  .ldp (.x 6) (.x 7) (.offset (.x 21) 48)]

def gateLeave : List Arm.Op := [
  .stp (.x 0) (.x 1) (.offset (.x 20) 0),
  .stpD 0 1 (.offset (.x 20) 16),
  .mov .sp (.x 29),
  .ldp (.x 19) (.x 20) (.offset .sp 16),
  .ldp (.x 21) (.x 22) (.offset .sp 32),
  .ldp (.x 29) (.x 30) (.post .sp 48)]

def rsdCallNativeCode (base : BitVec 64) : List Arm.Insn :=
  Arm.ops gateEnter ++ (gateCopy (base + 56) ++ (Arm.ops gateLoad ++ (.blr (.x 19) :: (Arm.ops gateLeave ++ [.ret]))))

/-! ### The trampolines -/

/-- The table: each trampoline loads its own index. -/
def rsdTrampTableCode (common : BitVec 64) : List Arm.Insn :=
  (List.range rsdTrampCount).flatMap fun idx => [.op (.movz (.x 16) (BitVec.ofNat 64 idx)), .b common]

def trampEnter : List Arm.Op := [
  .stp (.x 29) (.x 30) (.pre .sp (-16)),
  .mov (.x 29) .sp,
  .subImm .sp .sp 144,
  .stp (.x 0) (.x 1) (.offset .sp 0),
  .stp (.x 2) (.x 3) (.offset .sp 16),
  .stp (.x 4) (.x 5) (.offset .sp 32),
  .stp (.x 6) (.x 7) (.offset .sp 48),
  .stpD 0 1 (.offset .sp 64),
  .stpD 2 3 (.offset .sp 80),
  .stpD 4 5 (.offset .sp 96),
  .stpD 6 7 (.offset .sp 112),
  .addImm (.x 2) (.x 29) 16,
  .str (.x 2) (.offset .sp 128),
  .mov (.x 0) (.x 16),
  .mov (.x 1) .sp]

def trampLeave : List Arm.Op := [
  .ldp (.x 0) (.x 1) (.offset .sp 0),
  .ldpD 0 1 (.offset .sp 64),
  .mov .sp (.x 29),
  .ldp (.x 29) (.x 30) (.post .sp 16)]

def rsdTrampCommonCode (guestCall : BitVec 64) : List Arm.Insn :=
  Arm.ops trampEnter ++ (.bl guestCall :: (Arm.ops trampLeave ++ [.ret]))

/-- `rsd_tramp_stride`, which stands between the table and the dispatcher. -/
def rsdTrampStride : BitVec 64 := 8

/-! ### Entering compiled code -/

def jitPark : List Arm.Op := [
  .stp (.x 29) (.x 30) (.pre .sp (-32)),
  .mov (.x 29) .sp,
  .str (.x 19) (.offset .sp 16),
  .mov (.x 19) (.x 0)]

def jitLeave : List Arm.Op := [
  .ldr (.x 19) (.offset .sp 16),
  .ldp (.x 29) (.x 30) (.post .sp 32)]

def rsdJitEnterCode : List Arm.Insn := Arm.ops jitPark ++ (.blr (.x 1) :: (Arm.ops jitLeave ++ [.ret]))

end Rashid
