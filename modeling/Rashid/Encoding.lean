import Rashid.JitDecode

/-!
# Instruction encodings

The parts of an x86-64 instruction and their lengths, as the architecture lays them down: legacy
prefixes, a REX byte, the opcode, ModRM with its SIB byte and displacement, and an immediate
whose width may follow the operand size. This is the yardstick for the interpreter's decoder and
is not taken from it; it covers the opcodes that the interpreter knows.
-/

namespace Rashid

def isLegacyPrefix (b : BitVec 8) : Bool :=
  b == 0x66 || b == 0x67 || b == 0xF0 || b == 0xF2 || b == 0xF3 ||
    b == 0x2E || b == 0x36 || b == 0x3E || b == 0x26 || b == 0x64 || b == 0x65

/-- Where the legacy prefixes from `n` on end, `fuel` of them being looked for. -/
def prefixEnd (p : Code) : Nat → Nat → Nat
  | 0, n => n
  | fuel + 1, n => if isLegacyPrefix (p n) then prefixEnd p fuel (n + 1) else n

/-- An encoding up to its opcode. `rex` is 0 when there is none. -/
structure Encoding where
  prefixes : List (BitVec 8)
  rex : BitVec 8
  /-- The opcode has the escape byte `0F` in front. -/
  escaped : Bool
  op : BitVec 8
  /-- Where the opcode ends. -/
  tail : Nat
  deriving DecidableEq, Repr

def addressSpaceSize : Nat := 2 ^ 64

def encodingAt (p : Code) : Encoding :=
  let k := prefixEnd p addressSpaceSize 0
  let n := if isRex (p k) then k + 1 else k
  { prefixes := (List.range k).map p
    rex := if isRex (p k) then p k else 0
    escaped := p n == 0x0F
    op := if p n = 0x0F then p (n + 1) else p n
    tail := if p n = 0x0F then n + 2 else n + 1 }

/-- REX.W outranks the operand-size prefix. -/
def Encoding.opsize (e : Encoding) : Nat :=
  if rexW e.rex then 8 else if (0x66 : BitVec 8) ∈ e.prefixes then 2 else 4

/-- ModRM at `n`, with its SIB byte and displacement. -/
def modrmBytes (p : Code) (n : Nat) : Nat :=
  let mod := p n >>> 6
  let rm := p n &&& 7
  if mod = 3 then 1
  else
    1 + (if rm = 4 then 1 else 0) +
      (if mod = 1 then 1
       else if mod = 2 then 4
       else if rm = 5 ∨ (rm = 4 ∧ p (n + 1) &&& 7 = 5) then 4
       else 0)

/-- The immediates, by the letters of the opcode map: a byte, a word, a doubleword, one that
follows the operand size up to a doubleword, and one that follows it all the way. `test` takes
its immediate under the first two extensions of its group only. -/
inductive Imm where
  | none | ib | iw | id | iz | iv | testIb | testIz
  deriving DecidableEq, Repr

def Imm.bytes (opsize : Nat) (ext : BitVec 8) : Imm → Nat
  | .none => 0
  | .ib => 1
  | .iw => 2
  | .id => 4
  | .iz => if opsize = 2 then 2 else 4
  | .iv => opsize
  | .testIb => if ext = 0 ∨ ext = 1 then 1 else 0
  | .testIz => if ext = 0 ∨ ext = 1 then (if opsize = 2 then 2 else 4) else 0

structure Form where
  modrm : Bool
  imm : Imm
  deriving DecidableEq, Repr

/-- The eight rows of arithmetic below `0x40` take the same six operand forms each. -/
def aluForm (op : BitVec 8) : Option Form :=
  if op &&& 7 < 4 then some ⟨true, .none⟩
  else if op &&& 7 = 4 then some ⟨false, .ib⟩
  else if op &&& 7 = 5 then some ⟨false, .iz⟩
  else none

def oneByteForm (op : BitVec 8) : Option Form :=
  if op < 0x40 then aluForm op
  else if 0x50 ≤ op ∧ op ≤ 0x5F then some ⟨false, .none⟩
  else if op ∈ [0x90#8, 0x98, 0x99, 0x9C, 0x9D, 0xC3, 0xC9] then some ⟨false, .none⟩
  else if op ∈ [0x63#8, 0x84, 0x85, 0x87, 0x88, 0x89, 0x8A, 0x8B, 0x8D, 0x8F] then some ⟨true, .none⟩
  else if op ∈ [0xD0#8, 0xD1, 0xD2, 0xD3, 0xFE, 0xFF] then some ⟨true, .none⟩
  else if op = 0x68 ∨ op = 0xA9 then some ⟨false, .iz⟩
  else if op = 0x6A ∨ op = 0xA8 ∨ op = 0xEB then some ⟨false, .ib⟩
  else if 0x70 ≤ op ∧ op ≤ 0x7F then some ⟨false, .ib⟩
  else if 0xB0 ≤ op ∧ op ≤ 0xB7 then some ⟨false, .ib⟩
  else if 0xB8 ≤ op ∧ op ≤ 0xBF then some ⟨false, .iv⟩
  else if op ∈ [0x6B#8, 0x80, 0x83, 0xC0, 0xC1, 0xC6] then some ⟨true, .ib⟩
  else if op ∈ [0x69#8, 0x81, 0xC7] then some ⟨true, .iz⟩
  else if op = 0xF6 then some ⟨true, .testIb⟩
  else if op = 0xF7 then some ⟨true, .testIz⟩
  else if op = 0xC2 then some ⟨false, .iw⟩
  else if op = 0xE8 ∨ op = 0xE9 then some ⟨false, .id⟩
  else none

def twoByteForm (op : BitVec 8) : Option Form :=
  if op = 0x05 then some ⟨false, .none⟩
  else if 0x80 ≤ op ∧ op ≤ 0x8F then some ⟨false, .id⟩
  else if op ∈ [0x70#8, 0xA4, 0xAC, 0xC2, 0xC5] then some ⟨true, .ib⟩
  else some ⟨true, .none⟩

/-- The bytes behind the opcode. -/
def Form.bytes (f : Form) (p : Code) (n opsize : Nat) : Nat :=
  (if f.modrm then modrmBytes p n else 0) + f.imm.bytes opsize (extField (p n))

def Encoding.form (e : Encoding) : Option Form := if e.escaped then twoByteForm e.op else oneByteForm e.op

/-- The length of the instruction whose bytes are `p`. -/
def insnLength (p : Code) : Option Nat :=
  let e := encodingAt p
  e.form.map fun f => e.tail + f.bytes p e.tail e.opsize

/-- The extension in the ModRM byte behind the opcode. -/
def Encoding.ext (e : Encoding) (p : Code) : BitVec 8 := extField (p e.tail)

/-- Jumps, calls and returns. The indirect ones are the extensions 2 to 5 of group 5, which the
byte opcode of the group is taken to share. -/
def Encoding.branches (e : Encoding) (p : Code) : Bool :=
  if e.escaped then decide (0x80 ≤ e.op ∧ e.op ≤ 0x8F)
  else
    decide (0x70 ≤ e.op ∧ e.op ≤ 0x7F) || e.op ∈ [0xC2#8, 0xC3, 0xE8, 0xE9, 0xEB] ||
      ((e.op == 0xFE || e.op == 0xFF) && decide (2 ≤ e.ext p ∧ e.ext p ≤ 5))

/-- A sixteen-bit immediate, in one of the opcodes `push`, `imul`, group 1, `mov` and `test`. -/
def Encoding.shortImm (e : Encoding) (p : Code) : Bool :=
  !e.escaped && e.opsize == 2 &&
    (e.op ∈ [0x68#8, 0x69, 0x81, 0xC7] || (e.op == 0xF7 && decide (e.ext p < 2)))

/-! ### Destinations of 32 bits -/

/-- Where an instruction puts its result, among the general registers. -/
inductive Dest where
  | none
  /-- The r/m operand, when it is a register. -/
  | rm
  | reg
  /-- Both operands, of `xchg`. -/
  | rmReg
  /-- The register in the opcode. -/
  | opcode
  /-- `rax` and the register in the opcode, of the short `xchg`. -/
  | accOpcode
  | acc
  | data
  /-- The double-width results of multiplication and division. -/
  | accData
  deriving DecidableEq, Repr

/-- The destinations of the one-byte opcodes whose operands have the operand size. -/
def plainDest (op : BitVec 8) : Dest :=
  if op < 0x38 then
    (if op &&& 7 = 1 then .rm else if op &&& 7 = 3 then .reg else if op &&& 7 = 5 then .acc else .none)
  else if op ∈ [0x63#8, 0x69, 0x6B, 0x8B, 0x8D] then .reg
  else if op ∈ [0x89#8, 0xC1, 0xC7, 0xD1, 0xD3] then .rm
  else if op = 0x87 then .rmReg
  else if op = 0x98 then .acc
  else if op = 0x99 then .data
  else if 0xB8 ≤ op ∧ op ≤ 0xBF then .opcode
  else .none

/-- In the groups 1, 3 and 5 the extension decides. -/
def oneByteDest (op ext : BitVec 8) : Dest :=
  if op = 0x81 ∨ op = 0x83 then (if ext = 7 then .none else .rm)
  else if op = 0xF7 then (if ext < 2 then .none else if ext < 4 then .rm else .accData)
  else if op = 0xFF then (if ext < 2 then .rm else .none)
  else plainDest op

/-- Those of the two-byte opcodes that are not SSE. -/
def twoByteDest (op : BitVec 8) : Dest :=
  if 0x40 ≤ op ∧ op ≤ 0x4F then .reg
  else if op ∈ [0xA4#8, 0xA5, 0xAC, 0xAD] then .rm
  else if op ∈ [0xAF#8, 0xB6, 0xB7, 0xBE, 0xBF] then .reg
  else .none

/-- The prefix that selects among SSE instructions: `F2` and `F3` come before `66`, and the last
of the two before the other. -/
def Encoding.selector (e : Encoding) : BitVec 8 :=
  match (e.prefixes.filter fun b => b == 0xF2 || b == 0xF3).getLast? with
  | some b => b
  | none => if (0x66 : BitVec 8) ∈ e.prefixes then 0x66 else 0

/-- Moves and conversions from xmm to general registers, and the two that collect bits. -/
def sseDest (op selector : BitVec 8) : Dest :=
  if op = 0x7E ∧ selector = 0x66 then .rm
  else if (op = 0x2C ∨ op = 0x2D) ∧ (selector = 0xF2 ∨ selector = 0xF3) then .reg
  else if (op = 0xC5 ∨ op = 0xD7) ∧ selector = 0x66 then .reg
  else .none

/-- `90` exchanges `rax` and `r8` behind REX.B. Without it the two operands are one register, and
the instruction does nothing. -/
def Encoding.exchange (e : Encoding) : Bool := !e.escaped && e.op == 0x90 && rexB e.rex

/-- The operand-size prefix does not count for SSE, whose 32-bit forms are those without REX.W. -/
def Encoding.dest (e : Encoding) (p : Code) : Dest :=
  if e.escaped && sseDest e.op e.selector != .none then
    (if rexW e.rex then .none else sseDest e.op e.selector)
  else if e.opsize ≠ 4 then .none
  else if e.escaped then twoByteDest e.op
  else if e.exchange then .accOpcode
  else oneByteDest e.op (e.ext p)

/-- The registers at a destination, for the opcode `op` and the ModRM byte `m`. -/
def Dest.regs (op m rex : BitVec 8) : Dest → List (Fin 16)
  | .none => []
  | .rm => if m >>> 6 = 3 then [rmField m rex] else []
  | .reg => [regField m rex]
  | .rmReg => if m >>> 6 = 3 then [regField m rex, rmField m rex] else [regField m rex]
  | .opcode => [regNo op (rexB rex)]
  | .accOpcode => [rax, regNo op (rexB rex)]
  | .acc => [rax]
  | .data => [rdx]
  | .accData => [rax, rdx]

/-- The general registers that the instruction writes as 32-bit destinations. -/
def Encoding.dest32 (e : Encoding) (p : Code) : List (Fin 16) := (e.dest p).regs e.op (p e.tail) e.rex

/-- The byte behind the r/m operand. -/
def Encoding.immByte (e : Encoding) (p : Code) : BitVec 8 := p (e.tail + modrmBytes p e.tail)

/-- The count of a 32-bit shift: an immediate, 1, or cl. -/
def Encoding.shiftCount (e : Encoding) (p : Code) (cl : BitVec 8) : BitVec 8 :=
  (if (if e.escaped then e.op = 0xA4 ∨ e.op = 0xAC else e.op = 0xC1) then e.immByte p
   else if e.escaped = false ∧ e.op = 0xD1 then 1
   else cl) &&& 31

/-- A shift by nothing, or a conditional move whose condition does not hold. -/
def Encoding.idle (e : Encoding) (p : Code) (flags : BitVec 32) (cl : BitVec 8) : Bool :=
  if e.escaped then
    (decide (0x40 ≤ e.op ∧ e.op ≤ 0x4F) && !cond flags (e.op &&& 0xF)) ||
      (decide (e.op ∈ [0xA4#8, 0xA5, 0xAC, 0xAD]) && e.shiftCount p cl == 0)
  else decide (e.op ∈ [0xC1#8, 0xD1, 0xD3]) && e.shiftCount p cl == 0

end Rashid
