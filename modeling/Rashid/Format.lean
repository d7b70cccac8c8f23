import Rashid.Native

/-!
# Format strings

The formats of `printf` and `scanf` as C has them, in pieces, with the arguments that each piece
takes, and the places where System V puts arguments. This is a yardstick and not taken from the
code.
-/

namespace Rashid

abbrev Text := List (BitVec 8)

/-- The two sequences of argument registers. -/
inductive ArgKind where
  | int | sse
  deriving DecidableEq, Repr

/-! ### Conversions -/

inductive Flag where
  | minus | plus | space | hash | zero | quote
  deriving DecidableEq, Repr

def Flag.byte : Flag → BitVec 8
  | .minus => 0x2D
  | .plus => 0x2B
  | .space => 0x20
  | .hash => 0x23
  | .zero => 0x30
  | .quote => 0x27

def digit (d : Fin 10) : BitVec 8 := 0x30 + BitVec.ofNat 8 d.val

/-- A field width or a precision. -/
inductive Count where
  | digits (ds : List (Fin 10))
  | star
  deriving DecidableEq, Repr

namespace Count

def text : Count → Text
  | .digits ds => ds.map digit
  | .star => [0x2A]

def args : Count → List ArgKind
  | .digits _ => []
  | .star => [.int]

def isStar : Count → Bool
  | .digits _ => false
  | .star => true

end Count

/-- The length modifiers but for `L`. -/
inductive Length where
  | none | hh | h | l | ll | j | z | t | q
  deriving DecidableEq, Repr

def Length.text : Length → Text
  | .none => []
  | .hh => [0x68, 0x68]
  | .h => [0x68]
  | .l => [0x6C]
  | .ll => [0x6C, 0x6C]
  | .j => [0x6A]
  | .z => [0x7A]
  | .t => [0x74]
  | .q => [0x71]

inductive Conv where
  | d | i | o | u | x | X | c | s | p | n | f | F | e | E | g | G | a | A
  deriving DecidableEq, Repr

namespace Conv

def byte : Conv → BitVec 8
  | .d => 0x64
  | .i => 0x69
  | .o => 0x6F
  | .u => 0x75
  | .x => 0x78
  | .X => 0x58
  | .c => 0x63
  | .s => 0x73
  | .p => 0x70
  | .n => 0x6E
  | .f => 0x66
  | .F => 0x46
  | .e => 0x65
  | .E => 0x45
  | .g => 0x67
  | .G => 0x47
  | .a => 0x61
  | .A => 0x41

/-- What `printf` converts. -/
def kind : Conv → ArgKind
  | .f | .F | .e | .E | .g | .G | .a | .A => .sse
  | _ => .int

end Conv

/-! ### printf -/

structure Directive where
  flags : List Flag
  width : Count
  /-- What follows a `.`, if there is one. -/
  precision : Option Count
  length : Length
  conv : Conv
  deriving DecidableEq, Repr

namespace Directive

variable (d : Directive)

def precisionText : Text :=
  match d.precision with
  | none => []
  | some n => 0x2E :: n.text

def precisionArgs : List ArgKind :=
  match d.precision with
  | none => []
  | some n => n.args

/-- Between the `%` and the conversion. -/
def middle : Text := d.flags.map Flag.byte ++ d.width.text ++ d.precisionText ++ d.length.text

/-- The width, the precision and the value, in this order. -/
def args : List ArgKind := d.width.args ++ d.precisionArgs ++ [d.conv.kind]

/-- Both the width and the precision are arguments. -/
def twoStars : Bool := d.width.isStar && d.precision == some .star

end Directive

inductive PrintfPiece where
  | plain (b : BitVec 8) (h : b ≠ 0 ∧ b ≠ 0x25)
  | percent
  | conv (d : Directive)

namespace PrintfPiece

def text : PrintfPiece → Text
  | .plain b _ => [b]
  | .percent => [0x25, 0x25]
  | .conv d => 0x25 :: d.middle ++ [d.conv.byte]

def args : PrintfPiece → List ArgKind
  | .conv d => d.args
  | _ => []

def twoStars : PrintfPiece → Bool
  | .conv d => d.twoStars
  | _ => false

end PrintfPiece

/-! ### scanf -/

/-- The characters of a `%[` conversion. A `]` that comes first is one of them. -/
structure ScanSet where
  negated : Bool
  first : BitVec 8
  rest : Text
  first_ne : first ≠ 0 ∧ (negated = false → first ≠ 0x5E)
  rest_ne : ∀ b ∈ rest, b ≠ 0 ∧ b ≠ 0x5D

def ScanSet.text (s : ScanSet) : Text := (if s.negated then [0x5E] else []) ++ s.first :: s.rest

inductive ScanfPiece where
  | plain (b : BitVec 8) (h : b ≠ 0 ∧ b ≠ 0x25)
  | percent
  | conv (suppress : Bool) (width : List (Fin 10)) (length : Length) (k : Conv)
  | set (suppress : Bool) (width : List (Fin 10)) (length : Length) (cs : ScanSet)

namespace ScanfPiece

def starText (suppress : Bool) : Text := if suppress then [0x2A] else []

def text : ScanfPiece → Text
  | .plain b _ => [b]
  | .percent => [0x25, 0x25]
  | .conv suppress width length k => 0x25 :: (starText suppress ++ width.map digit ++ length.text) ++ [k.byte]
  | .set suppress width length cs =>
    0x25 :: (starText suppress ++ width.map digit ++ length.text) ++ 0x5B :: cs.text ++ [0x5D]

/-- A pointer, unless the conversion is suppressed. -/
def args : ScanfPiece → List ArgKind
  | .conv suppress _ _ _ | .set suppress _ _ _ => if suppress then [] else [.int]
  | _ => []

end ScanfPiece

/-! ### The arguments of a call -/

/-- A string lies at `p` and can be read. -/
def HoldsText (c : Cpu) (p : BitVec 64) : Text → Prop
  | [] => True
  | b :: t => accessOk c.as p 1 rsdProtR = true ∧ c.mem p = b ∧ HoldsText c (p + 1) t

def HoldsString (c : Cpu) (p : BitVec 64) (t : Text) : Prop := HoldsText c p (t ++ [0])

def OnStack (c : Cpu) (a v : BitVec 64) : Prop := accessOk c.as a 8 rsdProtR = true ∧ loadLE c.mem a 8 = v

/-- Arguments as System V places them, when `gp` integer and `sse` vector registers are taken
and the stack is free from `stack` on: each in the next register of its kind, and on the stack
in their order once these are used up. -/
def Placed (c : Cpu) : Nat → Nat → BitVec 64 → List (ArgKind × BitVec 64) → Prop
  | _, _, _, [] => True
  | gp, sse, stack, (.int, v) :: args =>
    match argOrder[gp]? with
    | some i => c.r i = v ∧ Placed c (gp + 1) sse stack args
    | none => OnStack c stack v ∧ Placed c gp sse (stack + 8) args
  | gp, sse, stack, (.sse, v) :: args =>
    if h : sse < 8 then (c.xmm ⟨sse, by omega⟩).lo = v ∧ Placed c gp (sse + 1) stack args
    else OnStack c stack v ∧ Placed c gp sse (stack + 8) args

end Rashid
