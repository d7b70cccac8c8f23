import Rashid.Decoder

/-!
# SSE

Moves, bitwise operations, comparisons, conversions and arithmetic on the xmm registers.
What the host's floating point computes is a parameter, on bit patterns.
-/

namespace Rashid

/-- The host's floating-point operations that the interpreter uses. The conversions to an
integer are `none` for a NaN and for a value that does not fit. -/
structure Fp where
  add : BitVec 64 → BitVec 64 → BitVec 64
  mul : BitVec 64 → BitVec 64 → BitVec 64
  sub : BitVec 64 → BitVec 64 → BitVec 64
  div : BitVec 64 → BitVec 64 → BitVec 64
  lt : BitVec 64 → BitVec 64 → Bool
  le : BitVec 64 → BitVec 64 → Bool
  eq : BitVec 64 → BitVec 64 → Bool
  sqrt : BitVec 64 → BitVec 64
  sqrtf : BitVec 32 → BitVec 32
  widen : BitVec 32 → BitVec 64
  narrow : BitVec 64 → BitVec 32
  ofInt : BitVec 64 → BitVec 64
  ofIntf : BitVec 64 → BitVec 32
  toInt32 : Bool → BitVec 64 → Option (BitVec 32)
  toInt64 : Bool → BitVec 64 → Option (BitVec 64)

def isNan (x : BitVec 64) : Bool := x &&& 0x7ff0000000000000 == 0x7ff0000000000000 && x &&& 0xfffffffffffff != 0

def isNanf (x : BitVec 32) : Bool := x &&& 0x7f800000 == 0x7f800000 && x &&& 0x7fffff != 0

namespace Xmm

def bits (x : Xmm) : BitVec 128 := x.hi ++ x.lo

def ofBits (v : BitVec 128) : Xmm := ⟨v.setWidth 64, (v >>> 64).setWidth 64⟩

/-- Lane `i` of width `w`. -/
def lane (w : Nat) (x : Xmm) (i : Nat) : BitVec w := (x.bits >>> (w * i)).setWidth w

def ofLanes (w k : Nat) (f : Nat → BitVec w) : Xmm :=
  ofBits ((List.range k).foldl (fun acc i => acc ||| ((f i).setWidth 128 <<< (w * i))) 0)

/-- The low 32-bit lane, and a register with it replaced. -/
def d0 (x : Xmm) : BitVec 32 := x.lo.setWidth 32

def setD0 (x : Xmm) (v : BitVec 32) : Xmm := { x with lo := (x.lo &&& ~~~0xffffffff) ||| v.setWidth 64 }

def setQ0 (x : Xmm) (v : BitVec 64) : Xmm := { x with lo := v }

def zip (f : BitVec 64 → BitVec 64 → BitVec 64) (a b : Xmm) : Xmm := ⟨f a.lo b.lo, f a.hi b.hi⟩

end Xmm

def fbin (fp : Fp) (op2 : BitVec 8) (x y : BitVec 64) : BitVec 64 :=
  if op2 = 0x58 then fp.add x y
  else if op2 = 0x59 then fp.mul x y
  else if op2 = 0x5C then fp.sub x y
  else if op2 = 0x5E then fp.div x y
  else if op2 = 0x5D then (if fp.lt x y then x else y)
  else (if fp.lt y x then x else y)

/-- The NaN an x86 operation returns when the host's result is one. -/
def rsdINanD (r first second : BitVec 64) (unary : Bool) : BitVec 64 :=
  if !isNan r then r
  else if isNan first then first ||| 0x0008000000000000
  else if !unary && isNan second then second ||| 0x0008000000000000
  else 0xFFF8000000000000

def rsdINanS (r first second : BitVec 32) (unary : Bool) : BitVec 32 :=
  if !isNanf r then r
  else if isNanf first then first ||| 0x00400000
  else if !unary && isNanf second then second ||| 0x00400000
  else 0xFFC00000

def x86NanD (op2 : BitVec 8) (r first second : BitVec 64) : BitVec 64 :=
  if op2 = 0x5D ∨ op2 = 0x5F then r
  else rsdINanD r (if op2 = 0x51 then second else first) second (op2 == 0x51)

def x86NanS (op2 : BitVec 8) (r first second : BitVec 32) : BitVec 32 :=
  if op2 = 0x5D ∨ op2 = 0x5F then r
  else rsdINanS r (if op2 = 0x51 then second else first) second (op2 == 0x51)

/-- One lane of arithmetic, in double and in single precision. The latter is computed in
double and rounded once. -/
def arithD (fp : Fp) (op2 : BitVec 8) (a s : BitVec 64) : BitVec 64 :=
  x86NanD op2 (if op2 = 0x51 then fp.sqrt s else fbin fp op2 a s) a s

def arithS (fp : Fp) (op2 : BitVec 8) (a s : BitVec 32) : BitVec 32 :=
  x86NanS op2 (if op2 = 0x51 then fp.sqrtf s else fp.narrow (fbin fp op2 (fp.widen a) (fp.widen s))) a s

/-- Unordered sets ZF, PF and CF together; OF, AF and SF are cleared. -/
def comis (fp : Fp) (f : BitVec 32) (a b : BitVec 64) : BitVec 32 :=
  (f &&& ~~~(fOF ||| fAF ||| fSF ||| fZF ||| fPF ||| fCF)) |||
    (if isNan a || isNan b then fZF ||| fPF ||| fCF
     else if fp.lt a b then fCF
     else if fp.eq a b then fZF
     else 0)

def fcmp (fp : Fp) (pred : BitVec 8) (x y : BitVec 64) : Bool :=
  let un := isNan x || isNan y
  match pred &&& 7 with
  | 0 => !un && fp.eq x y
  | 1 => !un && fp.lt x y
  | 2 => !un && fp.le x y
  | 3 => un
  | 4 => un || !fp.eq x y
  | 5 => un || !fp.lt x y
  | 6 => un || !fp.le x y
  | _ => !un

def rsdICvt2si (fp : Fp) (bits : BitVec 64) (fsize : Nat) (nearest : Bool) (isize : Nat) : BitVec 64 :=
  let v := if fsize = 8 then bits else fp.widen (bits.setWidth 32)
  if isize = 4 then ((fp.toInt32 nearest v).getD 0x80000000).setWidth 64
  else (fp.toInt64 nearest v).getD 0x8000000000000000

def xrd (o : Opnd) : M Xmm :=
  match o with
  | .reg i => rdX i
  | .mem addr seg => ld128 (addr + seg)
  | .ripRel disp seg => ld128 (disp + seg)

def xwr (o : Opnd) (v : Xmm) : M Unit :=
  match o with
  | .reg i => wrX i v
  | .mem addr seg => st128 (addr + seg) v
  | .ripRel disp seg => st128 (disp + seg) v

/-- A scalar operand, from a register's low lane or from memory. -/
def xrdLo (o : Opnd) (bytes : Nat) : M (BitVec 64) :=
  match o with
  | .reg i => do
    let x ← rdX i
    pure (if bytes = 4 then x.d0.setWidth 64 else x.lo)
  | .mem addr seg => ld (addr + seg) bytes
  | .ripRel disp seg => ld (disp + seg) bytes

/-- A general register or memory operand of 4 or 8 bytes. -/
def grd (o : Opnd) (n : Nat) : M (BitVec 64) :=
  match o with
  | .reg i => getreg i n
  | .mem addr seg => ld (addr + seg) n
  | .ripRel disp seg => ld (disp + seg) n

def gwr (o : Opnd) (v : BitVec 64) (n : Nat) : M Unit :=
  match o with
  | .reg i => setreg i v n
  | .mem addr seg => st (addr + seg) v n
  | .ripRel disp seg => st (disp + seg) v n

def Opnd.isReg : Opnd → Bool
  | .reg _ => true
  | _ => false

/-- ModRM, with `rip` moved past it. -/
def modrmAdvance (d : Dec) : M (Fin 16 × Opnd × Dec) := do
  let (reg, rm, d) ← modrm d
  wrRip (decRip d)
  pure (reg, fixupRip d rm, d)

/-- ModRM and an immediate byte, with `rip` moved past both. -/
def modrmImmAdvance (d : Dec) : M (Fin 16 × Opnd × BitVec 8 × Dec) := do
  let (reg, rm, d) ← modrm d
  let (imm, d) ← fetch8 d
  wrRip (decRip d)
  pure (reg, fixupRip d rm, imm, d)

/-- `movss` and `movsd`: between registers only the low lane moves, from memory the rest
of the destination is cleared. -/
def sseMovScalar (dst src : Opnd) (n : Nat) : M Unit := do
  let v ← xrdLo src n
  match dst with
  | .reg i =>
    let x ← rdX i
    let base : Xmm := if src.isReg then x else ⟨0, 0⟩
    wrX i (if n = 4 then base.setD0 (v.setWidth 32) else base.setQ0 v)
  | .mem addr seg => st (addr + seg) v n
  | .ripRel disp seg => st (disp + seg) v n

def sseMovExec (mand op2 : BitVec 8) (reg : Fin 16) (rm : Opnd) : M Unit := do
  let store := op2 &&& 1 != 0
  let dst := if store then rm else .reg reg
  let src := if store then .reg reg else rm
  if op2 ≤ 0x11 ∧ (mand = 0xF3 ∨ mand = 0xF2) then
    sseMovScalar dst src (if mand = 0xF3 then 4 else 8)
  else
    let a ← xrd src
    xwr dst a

def sseMov (d : Dec) (op2 : BitVec 8) : M (Bool × Dec) := do
  let (reg, rm, d) ← modrmAdvance d
  sseMovExec d.mand op2 reg rm
  pure (true, d)

def sseMovdq (d : Dec) (op2 : BitVec 8) : M (Bool × Dec) := do
  if d.mand ≠ 0x66 ∧ d.mand ≠ 0xF3 then pure (false, d)
  else
    let (reg, rm, d) ← modrmAdvance d
    let store := op2 == 0x7F
    let a ← xrd (if store then .reg reg else rm)
    xwr (if store then rm else .reg reg) a
    pure (true, d)

def sseMovdIn (d : Dec) : M (Bool × Dec) := do
  if d.mand ≠ 0x66 then pure (false, d)
  else
    let (reg, rm, d) ← modrmAdvance d
    let v ← grd rm (if rexW d.rex then 8 else 4)
    wrX reg ⟨v, 0⟩
    pure (true, d)

/-- With neither prefix this declines only after it has consumed its operand. -/
def sseMovdOut (d : Dec) : M (Bool × Dec) := do
  let (reg, rm, d) ← modrmAdvance d
  if d.mand = 0xF3 then
    let v ← xrdLo rm 8
    wrX reg ⟨v, 0⟩
    pure (true, d)
  else if d.mand ≠ 0x66 then pure (false, d)
  else
    let x ← rdX reg
    gwr rm x.lo (if rexW d.rex then 8 else 4)
    pure (true, d)

def sseMovq (d : Dec) : M (Bool × Dec) := do
  if d.mand ≠ 0x66 then pure (false, d)
  else
    let (reg, rm, d) ← modrmAdvance d
    match rm with
    | .reg i =>
      -- the destination is cleared before `reg` is read, which may be the same register
      wrX i ⟨0, 0⟩
      let x ← rdX reg
      wrX i ⟨x.lo, 0⟩
    | .mem addr seg =>
      let x ← rdX reg
      st (addr + seg) x.lo 8
    | .ripRel disp seg =>
      let x ← rdX reg
      st (disp + seg) x.lo 8
    pure (true, d)

/-- and / andn / or / xor, on 128 bits whatever the prefix. -/
def bitwise (op2 : BitVec 8) (a b : BitVec 64) : BitVec 64 :=
  if op2 = 0x54 ∨ op2 = 0xDB then a &&& b
  else if op2 = 0x55 then ~~~a &&& b
  else if op2 = 0x56 ∨ op2 = 0xEB then a ||| b
  else a ^^^ b

def sseBitwiseExec (op2 : BitVec 8) (reg : Fin 16) (rm : Opnd) : M Unit := do
  let b ← xrd rm
  let a ← rdX reg
  wrX reg (Xmm.zip (bitwise op2) a b)

def sseBitwise (d : Dec) (op2 : BitVec 8) : M (Bool × Dec) := do
  if 0xDB ≤ op2 ∧ d.mand ≠ 0x66 then pure (false, d)
  else
    let (reg, rm, d) ← modrmAdvance d
    sseBitwiseExec op2 reg rm
    pure (true, d)

def sseArithExec (fp : Fp) (mand op2 : BitVec 8) (reg : Fin 16) (rm : Opnd) : M Unit := do
  let a ← rdX reg
  if mand = 0xF2 then
    let s ← xrdLo rm 8
    wrX reg (a.setQ0 (arithD fp op2 a.lo s))
  else if mand = 0xF3 then
    let s ← xrdLo rm 4
    wrX reg (a.setD0 (arithS fp op2 a.d0 (s.setWidth 32)))
  else if mand = 0x66 then
    let b ← xrd rm
    wrX reg (Xmm.zip (arithD fp op2) a b)
  else
    let b ← xrd rm
    wrX reg (Xmm.ofLanes 32 4 fun i => arithS fp op2 (a.lane 32 i) (b.lane 32 i))

def sseArith (fp : Fp) (d : Dec) (op2 : BitVec 8) : M (Bool × Dec) := do
  let (reg, rm, d) ← modrmAdvance d
  sseArithExec fp d.mand op2 reg rm
  pure (true, d)

def sseComisExec (fp : Fp) (mand : BitVec 8) (reg : Fin 16) (rm : Opnd) : M Unit := do
  if mand = 0x66 then
    let s ← xrdLo rm 8
    let x ← rdX reg
    let f ← rdFlags
    wrFlags (comis fp f x.lo s)
  else
    let s ← xrdLo rm 4
    let x ← rdX reg
    let f ← rdFlags
    wrFlags (comis fp f (fp.widen x.d0) (fp.widen (s.setWidth 32)))

def sseComis (fp : Fp) (d : Dec) : M (Bool × Dec) := do
  let (reg, rm, d) ← modrmAdvance d
  sseComisExec fp d.mand reg rm
  pure (true, d)

/-- `n` is the width of the integer operand. -/
def sseCvtFromExec (fp : Fp) (mand : BitVec 8) (n : Nat) (reg : Fin 16) (rm : Opnd) : M Unit := do
  let v ← grd rm n
  let x ← rdX reg
  if mand = 0xF2 then wrX reg (x.setQ0 (fp.ofInt (sext v n)))
  else wrX reg (x.setD0 (fp.ofIntf (sext v n)))

def sseCvtFrom (fp : Fp) (d : Dec) : M (Bool × Dec) := do
  if d.mand ≠ 0xF2 ∧ d.mand ≠ 0xF3 then pure (false, d)
  else
    let (reg, rm, d) ← modrmAdvance d
    sseCvtFromExec fp d.mand (if rexW d.rex then 8 else 4) reg rm
    pure (true, d)

def sseCvtToExec (fp : Fp) (mand op2 : BitVec 8) (n : Nat) (reg : Fin 16) (rm : Opnd) : M Unit := do
  let fsize := if mand = 0xF2 then 8 else 4
  let v ← xrdLo rm fsize
  setreg reg (rsdICvt2si fp v fsize (op2 == 0x2D) n) n

def sseCvtTo (fp : Fp) (d : Dec) (op2 : BitVec 8) : M (Bool × Dec) := do
  if d.mand ≠ 0xF2 ∧ d.mand ≠ 0xF3 then pure (false, d)
  else
    let (reg, rm, d) ← modrmAdvance d
    sseCvtToExec fp d.mand op2 (if rexW d.rex then 8 else 4) reg rm
    pure (true, d)

def sseCvtFloatExec (fp : Fp) (mand : BitVec 8) (reg : Fin 16) (rm : Opnd) : M Unit := do
  if mand = 0xF3 then
    let s ← xrdLo rm 4
    let x ← rdX reg
    wrX reg (x.setQ0 (fp.widen (s.setWidth 32)))
  else
    let s ← xrdLo rm 8
    let x ← rdX reg
    wrX reg (x.setD0 (fp.narrow s))

def sseCvtFloat (fp : Fp) (d : Dec) : M (Bool × Dec) := do
  if d.mand ≠ 0xF2 ∧ d.mand ≠ 0xF3 then pure (false, d)
  else
    let (reg, rm, d) ← modrmAdvance d
    sseCvtFloatExec fp d.mand reg rm
    pure (true, d)

def ssePcmpeq (d : Dec) (op2 : BitVec 8) : M (Bool × Dec) := do
  if d.mand ≠ 0x66 then pure (false, d)
  else
    let (reg, rm, d) ← modrmAdvance d
    let b ← xrd rm
    let a ← rdX reg
    if op2 = 0x74 then
      wrX reg (Xmm.ofLanes 8 16 fun i => if a.lane 8 i = b.lane 8 i then 0xff else 0)
    else
      wrX reg (Xmm.ofLanes 32 4 fun i => if a.lane 32 i = b.lane 32 i then 0xffffffff else 0)
    pure (true, d)

/-- Bit `i` of the result is the sign of byte `i`. -/
def byteMask (x : Xmm) : BitVec 64 :=
  (List.range 16).foldl (fun m i => if (x.lane 8 i).msb then m ||| (1 <<< i) else m) 0

def ssePmovmskb (d : Dec) : M (Bool × Dec) := do
  if d.mand ≠ 0x66 then pure (false, d)
  else
    let (reg, rm, d) ← modrmAdvance d
    match rm with
    | .reg i =>
      let x ← rdX i
      setreg reg (byteMask x) 8
      pure (true, d)
    | _ => pure (false, d)

def ssePshufd (d : Dec) : M (Bool × Dec) := do
  if d.mand ≠ 0x66 then pure (false, d)
  else
    let (reg, rm, imm, d) ← modrmImmAdvance d
    let b ← xrd rm
    wrX reg (Xmm.ofLanes 32 4 fun i => b.lane 32 ((imm >>> (2 * i)) &&& 3).toNat)
    pure (true, d)

def unpack64 (high : Bool) (a b : Xmm) : Xmm := if high then ⟨a.hi, b.hi⟩ else ⟨a.lo, b.lo⟩

def unpack32 (high : Bool) (a b : Xmm) : Xmm :=
  let k := if high then 2 else 0
  Xmm.ofLanes 32 4 fun i => (if i % 2 = 0 then a else b).lane 32 (k + i / 2)

def sseUnpck (d : Dec) (op2 : BitVec 8) : M (Bool × Dec) := do
  if (op2 = 0x6C ∨ op2 = 0x6D) ∧ d.mand ≠ 0x66 then pure (false, d)
  else if d.mand = 0xF2 ∨ d.mand = 0xF3 then pure (false, d)
  else
    let (reg, rm, d) ← modrmAdvance d
    let b ← xrd rm
    let a ← rdX reg
    let high := op2 == 0x15 || op2 == 0x6D
    wrX reg (if d.mand = 0x66 then unpack64 high a b else unpack32 high a b)
    pure (true, d)

def maskIf (w : Nat) (b : Bool) : BitVec w := if b then BitVec.allOnes w else 0

def sseCmpExec (fp : Fp) (mand imm : BitVec 8) (reg : Fin 16) (rm : Opnd) : M Unit := do
  let a ← rdX reg
  if mand = 0xF2 then
    let t ← xrdLo rm 8
    wrX reg (a.setQ0 (maskIf 64 (fcmp fp imm a.lo t)))
  else if mand = 0xF3 then
    let t ← xrdLo rm 4
    wrX reg (a.setD0 (maskIf 32 (fcmp fp imm (fp.widen a.d0) (fp.widen (t.setWidth 32)))))
  else if mand = 0x66 then
    let b ← xrd rm
    wrX reg (Xmm.zip (fun x y => maskIf 64 (fcmp fp imm x y)) a b)
  else
    let b ← xrd rm
    wrX reg (Xmm.ofLanes 32 4 fun i =>
      maskIf 32 (fcmp fp imm (fp.widen (a.lane 32 i)) (fp.widen (b.lane 32 i))))

def sseCmp (fp : Fp) (d : Dec) : M (Bool × Dec) := do
  let (reg, rm, imm, d) ← modrmImmAdvance d
  sseCmpExec fp d.mand imm reg rm
  pure (true, d)

def ssePextrw (d : Dec) : M (Bool × Dec) := do
  if d.mand ≠ 0x66 then pure (false, d)
  else
    let (reg, rm, imm, d) ← modrmImmAdvance d
    match rm with
    | .reg i =>
      let x ← rdX i
      setreg reg ((x.lane 16 (imm &&& 7).toNat).setWidth 64) 8
      pure (true, d)
    | _ => pure (false, d)

/-- The case of the switch in `sse_exec` that an opcode belongs to. -/
inductive SseClass where
  | mov | movdq | movdIn | movdOut | movq | bitwise | arith | comis | cvtFrom | cvtTo | cvtFloat
  | pcmpeq | pmovmskb | pshufd | unpck | cmp | pextrw | none
  deriving DecidableEq, Repr

def sseClass (op2 : BitVec 8) : SseClass :=
  if op2 ∈ [0x10#8, 0x11, 0x28, 0x29] then .mov
  else if op2 ∈ [0x6F#8, 0x7F] then .movdq
  else if op2 = 0x6E then .movdIn
  else if op2 = 0x7E then .movdOut
  else if op2 = 0xD6 then .movq
  else if op2 ∈ [0x54#8, 0x55, 0x56, 0x57, 0xDB, 0xEB, 0xEF] then .bitwise
  else if op2 ∈ [0x51#8, 0x58, 0x59, 0x5C, 0x5D, 0x5E, 0x5F] then .arith
  else if op2 ∈ [0x2E#8, 0x2F] then .comis
  else if op2 = 0x2A then .cvtFrom
  else if op2 ∈ [0x2C#8, 0x2D] then .cvtTo
  else if op2 = 0x5A then .cvtFloat
  else if op2 ∈ [0x74#8, 0x76] then .pcmpeq
  else if op2 = 0xD7 then .pmovmskb
  else if op2 = 0x70 then .pshufd
  else if op2 ∈ [0x14#8, 0x15, 0x6C, 0x6D] then .unpck
  else if op2 = 0xC2 then .cmp
  else if op2 = 0xC5 then .pextrw
  else .none

/-- Whether the opcode was handled, and the cursor. -/
def sseExec (fp : Fp) (d : Dec) (op2 : BitVec 8) : M (Bool × Dec) :=
  match sseClass op2 with
  | .mov => sseMov d op2
  | .movdq => sseMovdq d op2
  | .movdIn => sseMovdIn d
  | .movdOut => sseMovdOut d
  | .movq => sseMovq d
  | .bitwise => sseBitwise d op2
  | .arith => sseArith fp d op2
  | .comis => sseComis fp d
  | .cvtFrom => sseCvtFrom fp d
  | .cvtTo => sseCvtTo fp d op2
  | .cvtFloat => sseCvtFloat fp d
  | .pcmpeq => ssePcmpeq d op2
  | .pmovmskb => ssePmovmskb d
  | .pshufd => ssePshufd d
  | .unpck => sseUnpck d op2
  | .cmp => sseCmp fp d
  | .pextrw => ssePextrw d
  | .none => pure (false, d)

end Rashid
