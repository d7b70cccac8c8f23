import Rashid.Encoding

/-!
# Addresses

Where the manual says that an instruction finds its memory operand: a base, an index times a
scale and a displacement, cut to 32 bits by the address-size prefix, in the segment that the
prefixes name. Like the encodings, a yardstick that is not taken from the code.
-/

namespace Rashid

/-- Only FS and GS have a base, and the last of their overrides counts. -/
def segmentBase (prefixes : List (BitVec 8)) (fs gs : BitVec 64) : BitVec 64 :=
  ((prefixes.filter fun b => b == 0x64 || b == 0x65).map fun b => if b = 0x64 then fs else gs).getLastD 0

namespace Encoding

variable (e : Encoding) (p : Code) (r : Fin 16 → BitVec 64) (next : BitVec 64)

/-- The SIB byte takes the place of ModRM's r/m field. -/
def hasSib : Bool := p e.tail &&& 7 == 4

/-- The base register, `rip` in its place, or nothing. -/
def baseValue : BitVec 64 :=
  if e.hasSib p then
    (if p (e.tail + 1) &&& 7 = 5 ∧ p e.tail >>> 6 = 0 then 0 else r (regNo (p (e.tail + 1)) (rexB e.rex)))
  else if p e.tail &&& 7 = 5 ∧ p e.tail >>> 6 = 0 then next
  else r (rmField (p e.tail) e.rex)

def indexValue : BitVec 64 :=
  if e.hasSib p then
    let i := regNo (p (e.tail + 1) >>> 3) (rexX e.rex)
    if i = rsp then 0 else r i <<< (p (e.tail + 1) >>> 6).toNat
  else 0

def displacement : BitVec 64 :=
  let n := if e.hasSib p then e.tail + 2 else e.tail + 1
  if p e.tail >>> 6 = 1 then p.i8 n
  else if p e.tail >>> 6 = 2 then p.i32 n
  else if (if e.hasSib p then p (e.tail + 1) else p e.tail) &&& 7 = 5 then p.i32 n
  else 0

/-- The address without regard to the address-size prefix. `next` is where the instruction ends. -/
def address64 : BitVec 64 := e.baseValue p r next + e.indexValue p r + e.displacement p

/-- An address under the address-size prefix. -/
def cutAddress (a : BitVec 64) : BitVec 64 := if (0x67 : BitVec 8) ∈ e.prefixes then (a.setWidth 32).setWidth 64 else a

def effectiveAddress : BitVec 64 := e.cutAddress (e.address64 p r next)

/-- The operand is addressed relative to `rip`. -/
def ripRelative : Bool := !e.hasSib p && p e.tail &&& 7 == 5 && p e.tail >>> 6 == 0

end Encoding

end Rashid
