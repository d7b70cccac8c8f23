import Rashid.Syscall

/-!
# Mach-O images

What the load commands have told of an image, and the second half of `rsd_load`, which places it.
The file stands beside guest memory: `slice` is its bytes from the start of the x86_64 slice.
-/

namespace Rashid

structure Segment where
  vmaddr : BitVec 64
  vmsize : BitVec 64
  fileoff : BitVec 64
  filesize : BitVec 64
  initprot : BitVec 32
  deriving DecidableEq, Repr

/-- `native` is 0 when the symbol was not found. -/
structure Import where
  used : Bool
  native : BitVec 64
  isCode : Bool
  deriving DecidableEq, Repr

structure Image where
  segs : List Segment
  prefBase : BitVec 64
  slide : BitVec 64
  entry : BitVec 64
  pie : Bool
  hasMain : Bool
  imports : List Import
  stubBase : BitVec 64
  deriving DecidableEq, Repr

def rsdMaxSegs : Nat := 16

/-! ### Pass 2: placing the image -/

def spanLo (segs : List Segment) : BitVec 64 :=
  segs.foldl (fun lo s => if s.vmaddr < lo then s.vmaddr else lo) (BitVec.allOnes 64)

def spanHi (segs : List Segment) : BitVec 64 :=
  segs.foldl (fun hi s => if hi < s.vmaddr + s.vmsize then s.vmaddr + s.vmsize else hi) 0

def copySegment (slice : BitVec 64 → BitVec 8) (slide : BitVec 64) (m : Mem) (s : Segment) : Mem := fun x =>
  if inWindow (s.vmaddr + slide) s.filesize.toNat x then slice (s.fileoff + (x - (s.vmaddr + slide))) else m x

/-- `initprot` has the bits of `RSD_PROT_*`. Every call asks the allocator anew, and none is checked. -/
def protectSegments (slide : BitVec 64) : List (Segment × Host) → As → As
  | [], as => as
  | (s, h) :: rest, as =>
    protectSegments slide rest (rsdAsProtect h as (s.vmaddr + slide) s.vmsize (s.initprot &&& 7)).2

/-- The whole span in one mapping, then the contents of every segment, then the permissions. `hs`
are the host's answers to the calls for the permissions, in order. -/
def rsdLoad (h : Host) (hs : List Host) (img : Image) (entryOff : BitVec 64) (slice : BitVec 64 → BitVec 8) (as : As)
    (m : Mem) : Option (Image × As × Mem) :=
  let lo := spanLo img.segs
  let hi := spanHi img.segs
  let (base, as, evs) := rsdAsMap h as lo (hi - lo) (rsdProtR ||| rsdProtW) (!img.pie)
  if base = 0 then none
  else
    let slide := base - lo
    let m := img.segs.foldl (copySegment slice slide) (evs.foldl zeroFill m)
    let as := protectSegments slide (img.segs.zip hs) as
    some ({ img with slide := slide, entry := (if img.hasMain then img.prefBase + entryOff else entryOff) + slide },
      as, m)

end Rashid
