import Rashid.ChainedFixups

/-!
# The data of chained fixups

What the linker writes: the symbols, where the chains of each segment begin, and the bytes of both. A
yardstick after `<mach-o/fixup-chains.h>`, and not taken from the code. The parts may lie anywhere.
-/

namespace Rashid

def PointerFormat.code : PointerFormat → BitVec 16
  | .ptr64 => dyldChainedPtr64
  | .ptr64Offset => dyldChainedPtr64Offset

/-- `struct dyld_chained_import` and the name it leads to. -/
structure ImportEntry where
  name : Text
  nameOffset : BitVec 23
  weak : Bool
  libOrdinal : BitVec 8
  noZero : (0 : BitVec 8) ∉ name

def ImportEntry.raw (e : ImportEntry) : BitVec 32 := e.nameOffset ++ (BitVec.ofBool e.weak ++ e.libOrdinal)

/-- What an import says, in an image that loads the libraries `libs`. -/
def ImportEntry.symbol (libs : List Text) (e : ImportEntry) : Symbol where
  name := e.name
  lib := if 1 ≤ e.libOrdinal.toNat then ((libs[e.libOrdinal.toNat - 1]?).map afterSlash).getD (ascii "?") else ascii "?"
  weak := e.weak

/-- Where the first place of a page lies in it. -/
structure PageStart where
  offset : BitVec 16
  isStart : offset ≠ dyldChainedPtrStartNone

/-- `struct dyld_chained_starts_in_segment`; a page without fixups has no start. -/
structure SegmentStarts where
  size : BitVec 32
  pageSize : BitVec 16
  format : PointerFormat
  segmentOffset : BitVec 64
  maxValidPointer : BitVec 32
  pages : List (Option PageStart)
  count : pages.length < 2 ^ 16

def pageBytes (p : Option PageStart) : Text := leBytes (p.elim dyldChainedPtrStartNone PageStart.offset)

def SegmentStarts.bytes (s : SegmentStarts) : Text :=
  leBytes s.size ++
    (leBytes s.pageSize ++ (leBytes s.format.code ++ (leBytes s.segmentOffset ++ (leBytes s.maxValidPointer ++
    (leBytes (BitVec.ofNat 16 s.pages.length) ++ s.pages.flatMap pageBytes)))))

/-- Where the starts of a segment lie, from the starts of the image on. -/
structure PlacedStarts where
  offset : BitVec 32
  nonzero : offset ≠ 0
  starts : SegmentStarts

/-- `struct dyld_chained_fixups_header`, with what it leads to; a segment without fixups has no starts. -/
structure FixupData where
  startsOffset : BitVec 32
  importsOffset : BitVec 32
  symbolsOffset : BitVec 32
  symbolsFormat : BitVec 32
  imports : List ImportEntry
  segments : List (Option PlacedStarts)
  importsCount : imports.length < 2 ^ 31
  segmentsCount : segments.length < 2 ^ 32

namespace FixupData

variable (f : FixupData)

def header : Text :=
  leBytes (0 : BitVec 32) ++ (leBytes f.startsOffset ++ (leBytes f.importsOffset ++ (leBytes f.symbolsOffset ++
    (leBytes (BitVec.ofNat 32 f.imports.length) ++ (leBytes dyldChainedImport ++ leBytes f.symbolsFormat)))))

def segmentOffset (s : Option PlacedStarts) : BitVec 32 := s.elim 0 PlacedStarts.offset

def startsInImage : Text :=
  leBytes (BitVec.ofNat 32 f.segments.length) ++ f.segments.flatMap fun s => leBytes (segmentOffset s)

/-- The data lies in a file, from `chain` on. -/
structure LiesAt (file : Mem) (chain : BitVec 64) : Prop where
  header : HoldsAt file chain f.header
  starts : HoldsAt file (chain + f.startsOffset.setWidth 64) f.startsInImage
  segments : ∀ s ∈ f.segments, ∀ x ∈ s,
    HoldsAt file (chain + f.startsOffset.setWidth 64 + x.offset.setWidth 64) x.starts.bytes
  imports : HoldsAt file (chain + f.importsOffset.setWidth 64) (f.imports.flatMap fun e => leBytes e.raw)
  names : ∀ e ∈ f.imports, HoldsAt file (chain + f.symbolsOffset.setWidth 64 + e.nameOffset.setWidth 64) (e.name ++ [0])

end FixupData

/-- Where the chain of a page begins, if the page has one. -/
def SegmentStarts.pageChain (s : SegmentStarts) (base : BitVec 64) (p : Nat) (start : Option PageStart) :
    Option (PointerFormat × BitVec 64) :=
  start.map fun x => (s.format, base + s.segmentOffset + BitVec.ofNat 64 p * s.pageSize.setWidth 64 + x.offset.setWidth 64)

/-- The formats and the first places of all chains, in an image that has been placed at `base`. -/
def SegmentStarts.chains (s : SegmentStarts) (base : BitVec 64) : List (PointerFormat × BitVec 64) :=
  s.pages.zipIdx.filterMap fun x => s.pageChain base x.2 x.1

def FixupData.chains (f : FixupData) (base : BitVec 64) : List (PointerFormat × BitVec 64) :=
  f.segments.flatMap fun s => s.elim [] fun x => x.starts.chains base

end Rashid
