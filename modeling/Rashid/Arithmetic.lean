import Mathlib.Algebra.Ring.Int.Defs
import Rashid.Operations

/-!
# Integer arithmetic

What the architecture's manual says of the integer instructions: carries and overflows as facts
about the numbers, shifts as so many shifts by one bit. Another yardstick that is not taken
from the code.
-/

namespace Rashid

variable {w : Nat}

/-- A number that does not fit a signed word. -/
def signedOut (w : Nat) (v : ℤ) : Bool := decide (v < -2 ^ (w - 1) ∨ 2 ^ (w - 1) ≤ v)

/-- An even number of ones in the low byte. -/
def evenParity (r : BitVec w) : Bool := (List.range 8).countP r.getLsbD % 2 == 0

section Carries

variable (x y : BitVec w) (c : Bool)

def carryOut : Bool := decide (2 ^ w ≤ x.toNat + y.toNat + c.toNat)
def borrowOut : Bool := decide (x.toNat < y.toNat + c.toNat)

/-- The carry into bit 4, and the borrow. -/
def halfCarry : Bool := decide (16 ≤ x.toNat % 16 + y.toNat % 16 + c.toNat)
def halfBorrow : Bool := decide (x.toNat % 16 < y.toNat % 16 + c.toNat)

def sumOf : BitVec w := BitVec.ofNat w (x.toNat + y.toNat + c.toNat)
def differenceOf : BitVec w := BitVec.ofInt w (x.toNat - y.toNat - c.toNat)

end Carries

/-! ### Shifts -/

namespace ShiftOp

/-- A shift by one bit: the value, and the bit that has left it. -/
def one (o : ShiftOp) (s : BitVec w × Bool) : BitVec w × Bool :=
  match o with
  | shl => (s.1 <<< 1, s.1.msb)
  | shr => (s.1 >>> 1, s.1.getLsbD 0)
  | sar => (s.1.sshiftRight 1, s.1.getLsbD 0)

/-- So many shifts by one bit. -/
def times (o : ShiftOp) (k : Nat) (x : BitVec w) : BitVec w × Bool := (o.one)^[k] (x, false)

/-- OF after a shift by one bit, which is the only one to define it. -/
def overflow (o : ShiftOp) (x : BitVec w) : Bool :=
  match o with
  | shl => (o.one (x, false)).1.msb ^^ (o.one (x, false)).2
  | shr => x.msb
  | sar => false

end ShiftOp

/-- `k` bits of `y` move into `x`, from below under `left` and else from above. -/
def doubleShift (left : Bool) (k : Nat) (x y : BitVec w) : BitVec w :=
  if left then ((x ++ y) <<< k).extractLsb' w w else ((y ++ x) >>> k).extractLsb' 0 w

/-- The bit of `x` that leaves it last. -/
def doubleShiftOut (left : Bool) (k : Nat) (x : BitVec w) : Bool :=
  if left then x.getLsbD (w - k) else x.getLsbD (k - 1)

/-- The count of a double shift, an immediate or cl. -/
def Encoding.doubleCount (e : Encoding) (p : Code) (cl : BitVec 8) : Nat :=
  (if e.op = 0xA4 ∨ e.op = 0xAC then e.immByte p else cl).toNat % (8 * e.opsize)

/-! ### Products -/

/-- The number that a word stands for. -/
def numOf (signed : Bool) (x : BitVec w) : ℤ := if signed then x.toInt else x.toNat

/-- The product in a word of twice the width. -/
def productOf (signed : Bool) (x y : BitVec w) : BitVec (w + w) :=
  BitVec.ofInt (w + w) (numOf signed x * numOf signed y)

/-- The product does not fit the width of its factors. -/
def productOut (signed : Bool) (x y : BitVec w) : Bool :=
  if signed then signedOut w (x.toInt * y.toInt) else decide (2 ^ w ≤ x.toNat * y.toNat)

/-- The immediate factor of `imul`; of one with sixteen bits the low half counts. -/
def Encoding.immFactor (e : Encoding) (p : Code) : BitVec 64 :=
  if e.op = 0x6B then p.i8 (e.tail + modrmBytes p e.tail) else p.i32 (e.tail + modrmBytes p e.tail)

/-! ### Quotients -/

/-- `q` and `r` are the truncated quotient and the remainder of `n` by `d`. -/
structure Division (n d q r : ℤ) : Prop where
  eq : n = q * d + r
  lt : r.natAbs < d.natAbs
  sign : r = 0 ∨ (r < 0 ↔ n < 0)

/-- The dividend in two words. -/
def dividendOf (signed : Bool) (hi lo : BitVec w) : ℤ := numOf signed hi * 2 ^ w + lo.toNat

/-- A quotient that fits a word. -/
def quotientFits (signed : Bool) (w : Nat) (q : ℤ) : Bool :=
  if signed then !signedOut w q else decide (0 ≤ q ∧ q < 2 ^ w)

end Rashid
