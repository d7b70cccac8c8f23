import Rashid.Format
import Rashid.Lib.Layout
import Rashid.Lib.Upto
import Rashid.Macho

/-!
# Load commands

The first half of `rsd_load`: where the x86_64 slice of a file begins, and what its load commands say of
the image. The layouts are those of `<mach-o/loader.h>` and `<mach-o/fat.h>`. A file is read as memory
from address 0 on, and as in the source nothing but the first check asks whether it goes on that far.
-/

namespace Rashid

abbrev u32 (m : Mem) (a : BitVec 64) : BitVec 32 := readLE 32 m a
abbrev u64 (m : Mem) (a : BitVec 64) : BitVec 64 := readLE 64 m a

def mhMagic64 : BitVec 32 := 0xfeedfacf
def mhPie : BitVec 32 := 0x200000
def cpuTypeX8664 : BitVec 32 := 0x01000007

def lcSegment64 : BitVec 32 := 0x19
def lcUnixthread : BitVec 32 := 0x5
def lcMain : BitVec 32 := 0x80000028
def lcDyldChainedFixups : BitVec 32 := 0x80000034
def lcLoadDylib : BitVec 32 := 0xc
def lcLoadWeakDylib : BitVec 32 := 0x80000018
def lcReexportDylib : BitVec 32 := 0x8000001f

def ascii (s : String) : Text := s.toList.map fun c => BitVec.ofNat 8 c.toNat

def segPagezero : Text := ascii "__PAGEZERO"
def segText : Text := ascii "__TEXT"

def rsdMaxSects : Nat := 64
def rsdMaxDylibs : Nat := 128

/-- Whether `strcmp` finds the text `s` at `a`. -/
def strEq (m : Mem) (a : BitVec 64) (s : Text) : Bool := peek m a (s.length + 1) == s ++ [0]

/-- Sixteen bytes, with zeros after the name if it is shorter. -/
structure Name where
  val : Text
  sixteen : val.length = 16
  deriving DecidableEq

def nameAt (m : Mem) (a : BitVec 64) : Name := ⟨peek m a 16, peek_length m a 16⟩

structure NamedSegment extends Segment where
  name : Name
  maxprot : BitVec 32
  deriving DecidableEq

structure Sect where
  seg : Name
  name : Name
  addr : BitVec 64
  size : BitVec 64
  deriving DecidableEq

/-- The part of `rsd_image` that the load commands fill in, with `entry_off` and `got_entry`. The names of
the libraries are given by where they begin. -/
structure Headers where
  pie : Bool
  segs : Upto rsdMaxSegs NamedSegment
  sects : Upto rsdMaxSects Sect
  dylibs : Upto rsdMaxDylibs (BitVec 64)
  prefBase : BitVec 64
  hasMain : Bool
  fixupsOff : BitVec 32
  fixupsSize : BitVec 32
  entryOff : BitVec 64
  gotEntry : Bool

/-- What `rsd_load` prints before it fails. -/
inductive LoadError where
  /-- Nothing: the file is shorter than a magic number. -/
  | short
  /-- "not an x86_64 image" -/
  | notX8664 (cputype : BitVec 32)
  /-- "fat binary has no x86_64 slice" -/
  | noSlice
  /-- "unrecognized magic" -/
  | magic (magic : BitVec 32)
  /-- "too many segments" -/
  | tooManySegments
  /-- "image has no segments or no entry point" -/
  | noEntry
  /-- "cannot place non-PIE image at its linked address", or "cannot reserve … bytes for the image" -/
  | cannotPlace (pie : Bool)
  deriving DecidableEq, Repr

/-! ### The slice -/

/-- Where the next `n` load commands begin: each is as long as it says. -/
def commandsFrom (m : Mem) : Nat → BitVec 64 → List (BitVec 64)
  | 0, _ => []
  | n + 1, lc => lc :: commandsFrom m n (lc + (u32 m (lc + 4)).setWidth 64)

def commands (m : Mem) (mh : BitVec 64) : List (BitVec 64) := commandsFrom m (u32 m (mh + 16)).toNat (mh + 32)

def sectAt (m : Mem) (sec : BitVec 64) : Sect where
  name := nameAt m sec
  seg := nameAt m (sec + 16)
  addr := u64 m (sec + 32)
  size := u64 m (sec + 40)

/-- The loop over the sections of a segment, which breaks off when the array is full. -/
def loadSections (m : Mem) : Nat → BitVec 64 → Upto rsdMaxSects Sect → Upto rsdMaxSects Sect
  | 0, _, sects => sects
  | n + 1, sec, sects =>
    match sects.push? (sectAt m sec) with
    | none => sects
    | some sects => loadSections m n (sec + 80) sects

def segmentAt (m : Mem) (lc : BitVec 64) : NamedSegment where
  name := nameAt m (lc + 8)
  vmaddr := u64 m (lc + 24)
  vmsize := u64 m (lc + 32)
  fileoff := u64 m (lc + 40)
  filesize := u64 m (lc + 48)
  maxprot := u32 m (lc + 56)
  initprot := u32 m (lc + 60)

def loadSegment (m : Mem) (h : Headers) (lc : BitVec 64) : Except LoadError Headers :=
  if strEq m (lc + 8) segPagezero then .ok h
  else
    match h.segs.push? (segmentAt m lc) with
    | none => .error .tooManySegments
    | some segs => .ok { h with
      segs := segs
      prefBase := if strEq m (lc + 8) segText then u64 m (lc + 24) else h.prefBase
      sects := loadSections m (u32 m (lc + 64)).toNat (lc + 72) h.sects }

/-- The thread state begins with its flavour and its length, and `rip` is the seventeenth word of it. -/
def loadCommand (m : Mem) (h : Headers) (lc : BitVec 64) : Except LoadError Headers :=
  let cmd := u32 m lc
  if cmd = lcSegment64 then loadSegment m h lc
  else if cmd = lcMain then .ok { h with entryOff := u64 m (lc + 8), gotEntry := true, hasMain := true }
  else if cmd = lcUnixthread then .ok { h with entryOff := u64 m (lc + 144), gotEntry := true, hasMain := false }
  else if cmd = lcDyldChainedFixups then .ok { h with fixupsOff := u32 m (lc + 8), fixupsSize := u32 m (lc + 12) }
  else if cmd = lcLoadDylib ∨ cmd = lcLoadWeakDylib ∨ cmd = lcReexportDylib then
    .ok { h with dylibs := h.dylibs.push (lc + (u32 m (lc + 8)).setWidth 64) }
  else .ok h

def Headers.empty (pie : Bool) : Headers := ⟨pie, .empty, .empty, .empty, 0, false, 0, 0, 0, false⟩

def loadHeaders (m : Mem) (mh : BitVec 64) : Except LoadError Headers :=
  match (commands m mh).foldlM (loadCommand m) (.empty (u32 m (mh + 24) &&& mhPie != 0)) with
  | .error e => .error e
  | .ok h => if h.segs.val.isEmpty || !h.gotEntry then .error .noEntry else .ok h

end Rashid
