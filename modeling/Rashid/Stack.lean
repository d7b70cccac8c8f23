import Rashid.Addressing
import Rashid.Operations

/-!
# Stack instructions

What the manual says that `push`, `pop`, `call`, `ret` and `leave` do to registers and memory,
and in which order: what is pushed and where an indirect call goes are read before the stack
pointer moves, and what is popped is written after it has. A yardstick, like the addresses.
-/

namespace Rashid

/-- Where the instruction at `rip` ends, by its length. -/
def nextRip (p : Code) (rip : BitVec 64) : BitVec 64 := rip + BitVec.ofNat 64 ((insnLength p).getD 0)

def Opnd.holds (o : Opnd) (n : Nat) (c : Cpu) : BitVec 64 :=
  match o with
  | .reg i => c.r i
  | .mem addr seg | .ripRel addr seg => loadLE c.mem (addr + seg) n

def Opnd.written (o : Opnd) (v : BitVec 64) (n : Nat) (c : Cpu) : Cpu :=
  match o with
  | .reg i => { c with r := Function.update c.r i (mergeSz (c.r i) v n) }
  | .mem addr seg | .ripRel addr seg => { c with mem := storeLE c.mem (addr + seg) v n }

namespace Cpu

variable (c : Cpu)

def pushed (v : BitVec 64) (n : Nat) : Cpu := { c with
  r := Function.update c.r rsp (c.r rsp - BitVec.ofNat 64 n)
  mem := storeLE c.mem (c.r rsp - BitVec.ofNat 64 n) v n }

/-- What `n` bytes at the top of the stack hold, and the processor without them. -/
def top (n : Nat) : BitVec 64 := loadLE c.mem (c.r rsp) n

def popped (n : Nat) : Cpu := { c with r := Function.update c.r rsp (c.r rsp + BitVec.ofNat 64 n) }

end Cpu

inductive StackInsn where
  | pushReg | pushImm | pushRm | popReg | popRm | leave | call | callRm | ret | retImm
  deriving DecidableEq, Repr

namespace Encoding

variable (e : Encoding) (p : Code)

def stackInsn : Option StackInsn :=
  if e.escaped then none
  else if 0x50 ≤ e.op ∧ e.op ≤ 0x57 then some .pushReg
  else if 0x58 ≤ e.op ∧ e.op ≤ 0x5F then some .popReg
  else if e.op = 0x68 ∨ e.op = 0x6A then some .pushImm
  else if e.op = 0x8F then (if e.ext p = 0 then some .popRm else none)
  else if e.op = 0xC2 then some .retImm
  else if e.op = 0xC3 then some .ret
  else if e.op = 0xC9 then some .leave
  else if e.op = 0xE8 then some .call
  else if e.op = 0xFF then (if e.ext p = 2 then some .callRm else if e.ext p = 6 then some .pushRm else none)
  else none

/-- 64 bits, or 16 under the operand-size prefix. -/
def stackBytes : Nat := if e.opsize = 2 then 2 else 8

/-- The r/m operand of an instruction that ends at `next`, in the registers `r`. -/
def rmPlace (r : Fin 16 → BitVec 64) (next fs gs : BitVec 64) : Opnd :=
  if e.rmIsReg p then .reg (rmField (p e.tail) e.rex)
  else .mem (e.effectiveAddress p r next) (segmentBase e.prefixes fs gs)

/-- The register in the opcode. -/
def opReg : Fin 16 := regNo e.op (rexB e.rex)

/-- `c` is the processor before, with `rip` at the end of the instruction. Calls and returns are
64 bits wide whatever the prefixes. -/
def stackEffect (i : StackInsn) (c : Cpu) : Cpu :=
  let n := e.stackBytes
  let rm (c : Cpu) := e.rmPlace p c.r c.rip c.fsBase c.gsBase
  match i with
  | .pushReg => c.pushed (c.r e.opReg) n
  | .pushImm => c.pushed (if e.op = 0x68 then p.i32 e.tail else p.i8 e.tail) n
  | .pushRm => c.pushed ((rm c).holds n c) n
  | .popReg => (Opnd.reg e.opReg).written (c.top n) n (c.popped n)
  | .popRm => (rm (c.popped n)).written (c.top n) n (c.popped n)
  | .leave =>
    let c := { c with r := Function.update c.r rsp (c.r rbp) }
    (Opnd.reg rbp).written (c.top n) n (c.popped n)
  | .call => { c.pushed c.rip 8 with rip := c.rip + p.i32 e.tail }
  | .callRm => { c.pushed c.rip 8 with rip := (rm c).holds 8 c }
  | .ret => { c.popped 8 with rip := c.top 8 }
  | .retImm =>
    let n := (p (e.tail + 1) ++ p e.tail : BitVec 16).setWidth 64
    { c with r := Function.update c.r rsp (c.r rsp + 8 + n), rip := c.top 8 }

/-- The base register is the stack pointer. -/
def rspBase : Bool := e.hasSib p && regNo (p (e.tail + 1)) (rexB e.rex) == rsp

end Encoding

end Rashid
