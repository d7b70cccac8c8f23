import Rashid.Cpu

/-!
# The interpreter's instruction decoder

A cursor into the code bytes, the prefixes, and ModRM operands. The interpreter decodes and
executes in one pass, so an effective address is computed from the registers as it is read.
-/

namespace Rashid

inductive Opnd where
  | reg (i : Fin 16)
  | mem (addr seg : BitVec 64)
  /-- RIP-relative and still without the instruction's length. -/
  | ripRel (disp seg : BitVec 64)
  deriving DecidableEq, Repr

/-- `n` bytes have been consumed from `p0`, the host address of the guest's `rip0`. -/
structure Dec where
  p0 : BitVec 64
  rip0 : BitVec 64
  n : Nat
  rex : BitVec 8
  hasRex : Bool
  opsize : Nat
  addr32 : Bool
  segBase : BitVec 64
  mand : BitVec 8
  deriving DecidableEq, Repr

def Dec.start (rip : BitVec 64) : Dec where
  p0 := rip
  rip0 := rip
  n := 0
  rex := 0
  hasRex := false
  opsize := 4
  addr32 := false
  segBase := 0
  mand := 0

def Dec.skip (d : Dec) (k : Nat) : Dec := { d with n := d.n + k }

def codeAt (d : Dec) (k : Nat) : M (BitVec 8) := rdCode (d.p0 + BitVec.ofNat 64 (d.n + k))

def fetch8 (d : Dec) : M (BitVec 8 × Dec) := do
  let b ← codeAt d 0
  pure (b, d.skip 1)

def fetch16 (d : Dec) : M (BitVec 16 × Dec) := do
  let b0 ← codeAt d 0
  let b1 ← codeAt d 1
  pure (b1 ++ b0, d.skip 2)

def fetch32 (d : Dec) : M (BitVec 32 × Dec) := do
  let b0 ← codeAt d 0
  let b1 ← codeAt d 1
  let b2 ← codeAt d 2
  let b3 ← codeAt d 3
  pure (b3 ++ b2 ++ b1 ++ b0, d.skip 4)

def fetch64 (d : Dec) : M (BitVec 64 × Dec) := do
  let b0 ← codeAt d 0
  let b1 ← codeAt d 1
  let b2 ← codeAt d 2
  let b3 ← codeAt d 3
  let b4 ← codeAt d 4
  let b5 ← codeAt d 5
  let b6 ← codeAt d 6
  let b7 ← codeAt d 7
  pure (b7 ++ b6 ++ b5 ++ b4 ++ b3 ++ b2 ++ b1 ++ b0, d.skip 8)

/-- Guest address just past the bytes consumed so far. -/
def decRip (d : Dec) : BitVec 64 := d.rip0 + BitVec.ofNat 64 d.n

/-- A three-bit register field with the REX bit that extends it. -/
def regNo (bits : BitVec 8) (ext : Bool) : Fin 16 :=
  ⟨(bits &&& 7).toNat + (if ext then 8 else 0), by
    have h : (bits &&& 7).toNat ≤ 7 := by
      rw [BitVec.toNat_and]
      exact Nat.and_le_right
    split <;> omega⟩

def rexW (rex : BitVec 8) : Bool := rex &&& 8 != 0
def rexR (rex : BitVec 8) : Bool := rex &&& 4 != 0
def rexX (rex : BitVec 8) : Bool := rex &&& 2 != 0
def rexB (rex : BitVec 8) : Bool := rex &&& 1 != 0

/-- The displacement that ModRM's mode asks for, added to what the base and index gave. -/
def modrmDisp (d : Dec) (reg : Fin 16) (mod : BitVec 8) (addr : BitVec 64) : M (Fin 16 × Opnd × Dec) := do
  if mod = 1 then
    let (b, d) ← fetch8 d
    pure (reg, .mem (addr + b.signExtend 64) d.segBase, d)
  else if mod = 2 then
    let (w, d) ← fetch32 d
    pure (reg, .mem (addr + w.signExtend 64) d.segBase, d)
  else pure (reg, .mem addr d.segBase, d)

def modrmSib (d : Dec) (reg : Fin 16) (mod : BitVec 8) : M (Fin 16 × Opnd × Dec) := do
  let (sib, d) ← fetch8 d
  let index := regNo (sib >>> 3) (rexX d.rex)
  let ix ← rdR index
  -- index 4 means none
  let addr : BitVec 64 := if index = rsp then 0 else ix <<< (sib >>> 6).toNat
  if sib &&& 7 = 5 ∧ mod = 0 then
    let (w, d) ← fetch32 d
    modrmDisp d reg mod (addr + w.signExtend 64)
  else
    let b ← rdR (regNo sib (rexB d.rex))
    modrmDisp d reg mod (addr + b)

/-- Decodes ModRM with its SIB byte and displacement: the reg field and the r/m operand. -/
def modrm (d : Dec) : M (Fin 16 × Opnd × Dec) := do
  let (m, d) ← fetch8 d
  let mod := m >>> 6
  let reg := regNo (m >>> 3) (rexR d.rex)
  if mod = 3 then pure (reg, .reg (regNo m (rexB d.rex)), d)
  else if m &&& 7 = 4 then modrmSib d reg mod
  else if m &&& 7 = 5 ∧ mod = 0 then
    let (w, d) ← fetch32 d
    pure (reg, .ripRel (w.signExtend 64) d.segBase, d)
  else
    let b ← rdR (regNo m (rexB d.rex))
    modrmDisp d reg mod b

/-- Called once every immediate has been fetched: the displacement is measured from the end
of the whole instruction. -/
def fixupRip (d : Dec) : Opnd → Opnd
  | .ripRel disp seg => .mem (decRip d + disp) seg
  | o => o

def rd (o : Opnd) (size : Nat) (hasRex : Bool) : M (BitVec 64) :=
  match o with
  | .reg i => if size = 1 then getreg8 i hasRex else getreg i size
  | .mem addr seg => ld (addr + seg) size
  | .ripRel disp seg => ld (disp + seg) size

def wr (o : Opnd) (v : BitVec 64) (size : Nat) (hasRex : Bool) : M Unit :=
  match o with
  | .reg i => if size = 1 then setreg8 i v hasRex else setreg i v size
  | .mem addr seg => st (addr + seg) v size
  | .ripRel disp seg => st (disp + seg) v size

def push (v : BitVec 64) : M Unit := do
  let sp ← rdR rsp
  wrR rsp (sp - 8)
  st (sp - 8) v 8

def pop : M (BitVec 64) := do
  let sp ← rdR rsp
  let v ← ld sp 8
  wrR rsp (sp + 8)
  pure v

/-- The prefix bytes, as the loop at the head of `step` tells them apart. -/
inductive Prefix where
  | opsize | addrsize | rep | ignored | fs | gs

def prefixOf (b : BitVec 8) : Option Prefix :=
  if b = 0x66 then some .opsize
  else if b = 0x67 then some .addrsize
  else if b = 0xF2 ∨ b = 0xF3 then some .rep
  else if b = 0x2E ∨ b = 0x36 ∨ b = 0x3E ∨ b = 0x26 then some .ignored
  else if b = 0x64 then some .fs
  else if b = 0x65 then some .gs
  else none

def applyPrefix (d : Dec) (b : BitVec 8) (fs gs : BitVec 64) : Prefix → Dec
  | .opsize => { d with opsize := 2, mand := 0x66 }
  | .addrsize => { d with addr32 := true }
  | .rep => { d with mand := b }
  | .ignored => d
  | .fs => { d with segBase := fs }
  | .gs => { d with segBase := gs }

/-- The prefix loop. The bound is the number of addresses there are: it is reached only by a
memory made of prefixes alone, on which the source's loop never ends. -/
def prefixLoop : Nat → Dec → M Dec
  | 0, d => pure d
  | fuel + 1, d => do
    let b ← codeAt d 0
    match prefixOf b with
    | none => pure d
    | some x =>
      let fs ← rdFs
      let gs ← rdGs
      prefixLoop fuel ((applyPrefix d b fs gs x).skip 1)

def addressCount : Nat := 2 ^ 64

/-- Prefixes, then at most one REX byte, which overrides the operand-size prefix. -/
def prefixes (d : Dec) : M Dec := do
  let d ← prefixLoop addressCount d
  let b ← codeAt d 0
  if b &&& 0xF0 = 0x40 then
    pure { d with n := d.n + 1, rex := b, hasRex := true, opsize := if rexW b then 8 else d.opsize }
  else pure d

end Rashid
