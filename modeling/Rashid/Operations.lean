import Rashid.Encoding
import Rashid.Step

/-!
# The operations that encodings stand for

What the architecture's opcode map assigns to each encoding, among the operations that the
interpreter has. `none` is an encoding that is reserved or that belongs to an instruction which
the interpreter does not have. Like the lengths, this is a yardstick and not taken from the code.
-/

namespace Rashid

/-- A width by its letter in the opcode map; `v` is the operand size. -/
inductive Width where
  | b | w | d | q | v
  deriving DecidableEq, Repr

def Width.bytes (opsize : Nat) : Width → Nat
  | .b => 1
  | .w => 2
  | .d => 4
  | .q => 8
  | .v => opsize

/-- Scalar and packed, single and double precision. -/
inductive Fmt where
  | ss | sd | ps | pd
  deriving DecidableEq, Repr

inductive SseLogic where
  | and | andn | or | xor
  deriving DecidableEq, Repr

inductive SseArith where
  | sqrt | add | mul | sub | min | div | max
  deriving DecidableEq, Repr

inductive SseOp where
  /-- All 128 bits. -/
  | move
  | moveScalar (sz : Width)
  /-- `movd` and `movq` from and to a general register or memory. -/
  | moveIn (sz : Width)
  | moveOut (sz : Width)
  /-- `movq` to and from the low half of an xmm register. -/
  | loadLow
  | storeLow
  | logic (o : SseLogic)
  | arith (o : SseArith) (f : Fmt)
  | comis (sz : Width)
  | fromInt (f : Fmt) (sz : Width)
  | toInt (nearest : Bool) (f : Fmt) (sz : Width)
  | widen
  | narrow
  | pcmpeq (sz : Width)
  | pmovmskb
  | pshufd
  | unpack (high : Bool) (sz : Width)
  | cmp (f : Fmt)
  | pextrw
  deriving DecidableEq, Repr

inductive ShiftOp where
  | shl | shr | sar
  deriving DecidableEq, Repr

/-- The extension that stands for a shift. -/
def ShiftOp.ext : ShiftOp → BitVec 8
  | .shl => 4
  | .shr => 5
  | .sar => 7

inductive Operation where
  | alu (o : Alu) (sz : Width)
  | push (sz : Width)
  | pop (sz : Width)
  | pushf (sz : Width)
  | popf (sz : Width)
  | leave (sz : Width)
  /-- The width of the source; the destination has the operand size. -/
  | movsxd (src : Width)
  | imul
  | xchg
  | lea
  | nop
  | cwde
  | cdq
  | shift (o : ShiftOp) (sz : Width)
  | not (sz : Width)
  | neg (sz : Width)
  | mul (sz : Width)
  | imulWide (sz : Width)
  | div (sz : Width)
  | idiv (sz : Width)
  | inc (sz : Width)
  | dec (sz : Width)
  | jcc
  | jmp
  | call
  | ret
  | syscall
  | setcc
  | cmov
  | shiftDouble (left : Bool)
  | movx (sign : Bool) (src : Width)
  | sse (o : SseOp)
  deriving DecidableEq, Repr

/-! ### One-byte opcodes -/

/-- The opcodes whose extension selects the operation. -/
def isGroup (op : BitVec 8) : Bool :=
  op ∈ [0x80#8, 0x81, 0x83, 0x8F, 0xC0, 0xC1, 0xC6, 0xC7, 0xD0, 0xD1, 0xD2, 0xD3, 0xF6, 0xF7, 0xFE, 0xFF]

def logicOp (op : BitVec 8) : SseLogic :=
  if op = 0x54 ∨ op = 0xDB then .and
  else if op = 0x55 then .andn
  else if op = 0x56 ∨ op = 0xEB then .or
  else .xor

def arithOp (op : BitVec 8) : SseArith :=
  if op = 0x51 then .sqrt
  else if op = 0x58 then .add
  else if op = 0x59 then .mul
  else if op = 0x5C then .sub
  else if op = 0x5D then .min
  else if op = 0x5E then .div
  else .max

/-- The format that the selecting prefix gives an opcode with all four. -/
def fmtOf (selector : BitVec 8) : Fmt :=
  if selector = 0xF2 then .sd else if selector = 0xF3 then .ss else if selector = 0x66 then .pd else .ps

namespace Encoding

variable (e : Encoding) (p : Code)

/-- The r/m operand is a register. -/
def rmIsReg : Bool := p e.tail >>> 6 == 3

/-- ModRM names one register twice. -/
def sameRegs : Bool := e.rmIsReg p && regField (p e.tail) e.rex == rmField (p e.tail) e.rex

/-- A repeat prefix. -/
def rep : Bool := decide ((0xF2 : BitVec 8) ∈ e.prefixes) || decide ((0xF3 : BitVec 8) ∈ e.prefixes)

end Encoding

/-- An operation, and whether the address of its memory operand is cut to 32 bits. -/
structure Meaning where
  op : Operation
  addr32 : Bool
  deriving DecidableEq, Repr

end Rashid
