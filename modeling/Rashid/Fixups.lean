import Rashid.Decoder
import Rashid.Macho

/-!
# Chained fixups

A place that needs a fixup holds a packed word which also says how far away the next one is. The
walk goes from place to place and writes the resolved words.
-/

namespace Rashid

/-- `DYLD_CHAINED_PTR_64` and `DYLD_CHAINED_PTR_64_OFFSET`. -/
inductive PointerFormat where
  | ptr64 | ptr64Offset
  deriving DecidableEq, Repr

/-- `struct dyld_chained_ptr_64_bind`, but for the reserved bits. -/
structure ChainedBind where
  ordinal : BitVec 24
  addend : BitVec 8
  next : BitVec 12
  deriving DecidableEq, Repr

/-- `struct dyld_chained_ptr_64_rebase`, but for the reserved bits. -/
structure ChainedRebase where
  target : BitVec 36
  high8 : BitVec 8
  next : BitVec 12
  deriving DecidableEq, Repr

def ChainedBind.ofRaw (raw : BitVec 64) : ChainedBind where
  ordinal := raw.extractLsb' 0 24
  addend := raw.extractLsb' 24 8
  next := raw.extractLsb' 51 12

def ChainedRebase.ofRaw (raw : BitVec 64) : ChainedRebase where
  target := raw.extractLsb' 0 36
  high8 := raw.extractLsb' 36 8
  next := raw.extractLsb' 51 12

/-- The address of a stub, with the addend on it. -/
def stubAddress (stubBase : BitVec 64) (b : ChainedBind) : BitVec 64 :=
  stubBase + b.ordinal.setWidth 64 * rsdStubStride + b.addend.setWidth 64

/-- Data goes straight to the native address; code goes through a stub. -/
def bindValue (imports : List Import) (stubBase : BitVec 64) (b : ChainedBind) : BitVec 64 :=
  match imports[b.ordinal.toNat]? with
  | some im =>
    if im.native ≠ 0 ∧ im.isCode = false then im.native + b.addend.setWidth 64
    else stubAddress stubBase b
  | none => 0

def markUsed (imports : List Import) (ordinal : Nat) : List Import :=
  imports.modify ordinal fun im => { im with used := true }

def rebaseValue (img : Image) (format : PointerFormat) (r : ChainedRebase) : BitVec 64 :=
  let t := match format with
    | .ptr64Offset => img.prefBase + img.slide + r.target.setWidth 64
    | .ptr64 => r.target.setWidth 64 + img.slide
  t ||| (r.high8.setWidth 64 <<< 56)

/-- What one place is resolved to, the image afterwards, and the way to the next place. -/
def applyFixup (img : Image) (format : PointerFormat) (stubBase raw : BitVec 64) : BitVec 64 × Image × BitVec 12 :=
  if raw >>> 63 ≠ 0 then
    let b := ChainedBind.ofRaw raw
    (bindValue img.imports stubBase b, { img with imports := markUsed img.imports b.ordinal.toNat }, b.next)
  else
    let r := ChainedRebase.ofRaw raw
    (rebaseValue img format r, img, r.next)

/-- Both formats count in steps of four bytes. -/
def nextPlace (addr : BitVec 64) (next : BitVec 12) : BitVec 64 := addr + next.setWidth 64 * 4

/-- Walks one chain. The bound is the number of addresses there are. -/
def walkLoop (as : As) (format : PointerFormat) (stubBase : BitVec 64) :
    Nat → Image → Mem → BitVec 64 → Image × Mem
  | 0, img, m, _ => (img, m)
  | fuel + 1, img, m, addr =>
    if rsdAsMapped as addr 8 = false then (img, m)
    else
      let (v, img, next) := applyFixup img format stubBase (loadLE m addr 8)
      let m := storeLE m addr v 8
      if next = 0 then (img, m) else walkLoop as format stubBase fuel img m (nextPlace addr next)

def walkChain (as : As) (format : PointerFormat) (stubBase : BitVec 64) (img : Image) (m : Mem) (addr : BitVec 64) :
    Image × Mem :=
  walkLoop as format stubBase addressCount img m addr

end Rashid
