import Rashid.Imports

/-!
# The fixups of an image

`rsd_fixups`: the imports of an image are read and looked up, stubs are mapped for them, and every chain
of every page is walked. The layouts are those of `<mach-o/fixup-chains.h>`.
-/

namespace Rashid

abbrev u16 (m : Mem) (a : BitVec 64) : BitVec 16 := readLE 16 m a

def dyldChainedImport : BitVec 32 := 1
def dyldChainedPtr64 : BitVec 16 := 2
def dyldChainedPtr64Offset : BitVec 16 := 6
def dyldChainedPtrStartNone : BitVec 16 := 0xFFFF

/-- What `rsd_fixups` prints before it fails. -/
inductive FixupError where
  /-- "unsupported fixups version" -/
  | version (v : BitVec 32)
  /-- "unsupported imports format" -/
  | importsFormat (f : BitVec 32)
  /-- Nothing: there is no memory for the imports. -/
  | noMemory
  /-- "cannot allocate import stubs" -/
  | noStubs
  /-- "unsupported pointer format" -/
  | pointerFormat (f : BitVec 16)
  deriving DecidableEq, Repr

/-! ### Imports -/

/-- The text up to the first zero. The bound is the number of addresses there are. -/
def cStringLoop (m : Mem) : Nat → BitVec 64 → Text
  | 0, _ => []
  | fuel + 1, a => if m a = 0 then [] else m a :: cStringLoop m fuel (a + 1)

def cString (m : Mem) (a : BitVec 64) : Text := cStringLoop m addressCount a

/-- What comes after the last slash. -/
def afterSlash (t : Text) : Text := (t.reverse.takeWhile (· != 0x2F)).reverse

/-- Ordinals count from one; the others are not looked up. -/
def ordinalLib (file : Mem) (dylibs : List (BitVec 64)) (ord : Nat) : Text :=
  if 1 ≤ ord then
    match dylibs[ord - 1]? with
    | some a => afterSlash (cString file a)
    | none => ascii "?"
  else ascii "?"

/-- `struct dyld_chained_import`: eight bits for the library, one for weak imports, the rest for the name. -/
def symbolAt (file : Mem) (dylibs : List (BitVec 64)) (syms imp : BitVec 64) : Symbol :=
  let raw := u32 file imp
  ⟨cString file (syms + (raw.extractLsb' 9 23).setWidth 64), ordinalLib file dylibs (raw.extractLsb' 0 8).toNat,
    raw.extractLsb' 8 1 != 0⟩

/-- `alloc` says whether there is memory for the array, which there never is for a number that is negative
as an `int`. -/
def parseImports (alloc : Bool) (file : Mem) (dylibs : List (BitVec 64)) (chain : BitVec 64) :
    Except FixupError (List Symbol) :=
  let format := u32 file (chain + 20)
  if format ≠ dyldChainedImport then .error (.importsFormat format)
  else
    let imp := chain + (u32 file (chain + 8)).setWidth 64
    let syms := chain + (u32 file (chain + 12)).setWidth 64
    let n := u32 file (chain + 16)
    if n = 0 then .ok []
    else if alloc = false ∨ n.msb then .error .noMemory
    else .ok ((List.range n.toNat).map fun i => symbolAt file dylibs syms (imp + 4 * BitVec.ofNat 64 i))

/-! ### Chains -/

/-- The pages of a segment that are left, from number `p` on. -/
def walkPages (file : Mem) (as : As) (format : PointerFormat) (stubBase seg sis : BitVec 64) :
    Nat → Nat → Image × Mem → Image × Mem
  | 0, _, r => r
  | n + 1, p, r =>
    let start := u16 file (sis + 22 + 2 * BitVec.ofNat 64 p)
    let r := if start = dyldChainedPtrStartNone then r
      else walkChain as format stubBase r.1 r.2
        (seg + BitVec.ofNat 64 p * (u16 file (sis + 4)).setWidth 64 + start.setWidth 64)
    walkPages file as format stubBase seg sis n (p + 1) r

def pointerFormat (f : BitVec 16) : Option PointerFormat :=
  if f = dyldChainedPtr64 then some .ptr64 else if f = dyldChainedPtr64Offset then some .ptr64Offset else none

/-- The segments that are left, from number `i` on; `starts` is where `dyld_chained_starts_in_image` lies. -/
def fixSegments (file : Mem) (as : As) (stubBase starts : BitVec 64) :
    Nat → Nat → Image × Mem → Except FixupError (Image × Mem)
  | 0, _, r => .ok r
  | n + 1, i, r =>
    let off := u32 file (starts + 4 + 4 * BitVec.ofNat 64 i)
    if off = 0 then fixSegments file as stubBase starts n (i + 1) r
    else
      let sis := starts + off.setWidth 64
      match pointerFormat (u16 file (sis + 6)) with
      | none => .error (.pointerFormat (u16 file (sis + 6)))
      | some format =>
        let seg := r.1.prefBase + r.1.slide + u64 file (sis + 8)
        fixSegments file as stubBase starts n (i + 1)
          (walkPages file as format stubBase seg sis (u16 file (sis + 20)).toNat 0 r)

/-- The stubs are mapped anywhere, and nothing is left of what was there. -/
def mapStubs (h : Host) (as : As) (m : Mem) (n : Nat) : Option (BitVec 64 × As × Mem) :=
  if n = 0 then some (0, as, m)
  else
    let (base, as, evs) := rsdAsMap h as 0 (BitVec.ofNat 64 n * rsdStubStride) (rsdProtR ||| rsdProtX) false
    if base = 0 then none else some (base, as, evs.foldl zeroFill m)

def rsdFixups (dl : Dl) (h : Host) (alloc : Bool) (file : Mem) (off : BitVec 64) (hd : Headers) (img : Image) (as : As)
    (m : Mem) : Except FixupError (List Symbol × Image × As × Mem) :=
  if hd.fixupsSize = 0 then .ok ([], img, as, m)
  else
    let chain := off + hd.fixupsOff.setWidth 64
    let version := u32 file chain
    if version ≠ 0 then .error (.version version)
    else
      match parseImports alloc file hd.dylibs.val chain with
      | .error e => .error e
      | .ok symbols =>
        let img := { img with imports := rsdResolveImports dl symbols }
        match mapStubs h as m symbols.length with
        | none => .error .noStubs
        | some (stubBase, as, m) =>
          let starts := chain + (u32 file (chain + 4)).setWidth 64
          match fixSegments file as stubBase starts (u32 file starts).toNat 0 ({ img with stubBase := stubBase }, m) with
          | .error e => .error e
          | .ok (img, m) => .ok (symbols, img, as, m)

end Rashid
