import Mathlib.Algebra.GroupWithZero.Nat
import Mathlib.Tactic.Common

/-!
# The guest address space

The guest shares the translator's address space, so what is tracked is not a separate
memory but the list of regions handed to the guest, with their permissions, and the four
hit entries that compiled code tests in line. The kernel's answers to `mmap`, `munmap`
and the allocator are an explicit `Host` argument; what a call did to the host's mappings
is returned as a list of events.
-/

namespace Rashid

/-- `RSD_PROT_R`, `RSD_PROT_W` and `RSD_PROT_X`, which match the host's. -/
def rsdProtR : BitVec 32 := 1
def rsdProtW : BitVec 32 := 2
def rsdProtX : BitVec 32 := 4

structure Region where
  start : BitVec 64
  stop : BitVec 64
  prot : BitVec 32
  deriving DecidableEq, Repr

def Region.has (r : Region) (a : BitVec 64) : Bool :=
  decide (r.start ≤ a) && decide (a < r.stop)

def Region.allows (r : Region) (prot : BitVec 32) : Bool :=
  r.prot &&& prot == prot

/-- A start and a bound: an access of up to 8 bytes at `a` is inside when `a - lo < lim`. -/
structure Hit where
  lo : BitVec 64
  lim : BitVec 64
  deriving DecidableEq, Repr

def Hit.empty : Hit := ⟨0, 0⟩

def Hit.test (e : Hit) (a : BitVec 64) : Bool := decide (a - e.lo < e.lim)

/-- The newest region noted comes first. -/
structure HitPair where
  first : Hit
  second : Hit
  deriving DecidableEq, Repr

def HitPair.empty : HitPair := ⟨Hit.empty, Hit.empty⟩

def HitPair.test (h : HitPair) (a : BitVec 64) : Bool := h.first.test a || h.second.test a

structure As where
  reg : List Region
  cap : Nat
  rd : HitPair
  wr : HitPair
  deriving DecidableEq, Repr

/-- One kernel's answers to the calls a single guest request makes. `remap` is the second,
unhinted `mmap` that `rsdAsMap` falls back to, and `alloc` says whether `malloc` and
`realloc` succeed. -/
structure Host where
  page : BitVec 64
  mmap : BitVec 64 → BitVec 64 → Bool → Option (BitVec 64)
  remap : BitVec 64 → Option (BitVec 64)
  munmap : BitVec 64 → BitVec 64 → Bool
  alloc : Bool

/-- What the kernel was made to do: `len` bytes from `base` mapped afresh or taken away. -/
inductive HostEvent where
  | mapped (base len : BitVec 64)
  | unmapped (base len : BitVec 64)
  deriving DecidableEq, Repr

def rsdAsInit : As := ⟨[], 0, HitPair.empty, HitPair.empty⟩

/-- The source returns an index; every caller only reads the region there. -/
def find (as : As) (a : BitVec 64) : Option Region := as.reg.find? (·.has a)

def forget (as : As) : As := { as with rd := HitPair.empty, wr := HitPair.empty }

def insertSorted (r : Region) : List Region → List Region
  | [] => [r]
  | s :: rest => if s.start < r.start then s :: insertSorted r rest else r :: s :: rest

/-- Whether a region could be recorded, and the list afterwards. The hit entries are
emptied before the array is grown, so a failure has emptied them too. -/
def insert (h : Host) (as : As) (start stop : BitVec 64) (prot : BitVec 32) : Bool × As :=
  if as.reg.length = as.cap ∧ h.alloc = false then (false, forget as)
  else
    (true, { forget as with
      reg := insertSorted ⟨start, stop, prot⟩ as.reg
      cap := if as.reg.length = as.cap then (if as.cap = 0 then 16 else as.cap * 2) else as.cap })

def pageDown (hp a : BitVec 64) : BitVec 64 := a &&& ~~~(hp - 1)

def pageUp (hp a : BitVec 64) : BitVec 64 := (a + hp - 1) &&& ~~~(hp - 1)

/-- `lo`, `hi` and the length recorded for a mapping request. -/
def mapLo (h : Host) (at_ : BitVec 64) : BitVec 64 := pageDown h.page at_

def mapHi (h : Host) (at_ len : BitVec 64) : BitVec 64 :=
  if at_ = 0 then pageUp h.page len else pageUp h.page (at_ + len)

def mapSize (h : Host) (at_ len : BitVec 64) : BitVec 64 :=
  if at_ = 0 then mapHi h at_ len else mapHi h at_ len - mapLo h at_

def mapWant (h : Host) (at_ : BitVec 64) : BitVec 64 :=
  if at_ = 0 then 0 else mapLo h at_

/-- The two `mmap` attempts: the base of the memory the kernel gave and how much of it.
The unhinted retry asks for `hi` bytes, not for `hi - lo`. -/
def hostMap (h : Host) (at_ len : BitVec 64) (fixed : Bool) : Option (BitVec 64 × BitVec 64) :=
  match h.mmap (mapWant h at_) (mapSize h at_ len) (at_ != 0 && fixed) with
  | some p => some (p, mapSize h at_ len)
  | none =>
    if at_ != 0 && !fixed then
      match h.remap (mapHi h at_ len) with
      | some p => some (p, mapHi h at_ len)
      | none => none
    else none

/-- Returns the address, or 0 on failure. -/
def rsdAsMap (h : Host) (as : As) (at_ len : BitVec 64) (prot : BitVec 32) (fixed : Bool) :
    BitVec 64 × As × List HostEvent :=
  if len = 0 then (0, as, [])
  else
    match hostMap h at_ len fixed with
    | none => (0, as, [])
    | some (p, got) =>
      match insert h as p (p + mapSize h at_ len) prot with
      | (false, as') => (0, as', [.mapped p got, .unmapped p (mapSize h at_ len)])
      | (true, as') =>
        (if at_ != 0 && p == mapWant h at_ then at_ else p, as', [.mapped p got])

/-- One region's pieces after `[at, end)` of it is given the permission `prot`. -/
def protectPieces (at_ stop : BitVec 64) (prot : BitVec 32) (r : Region) : List Region :=
  if r.stop ≤ at_ ∨ stop ≤ r.start then [r]
  else
    (if r.start < at_ then [⟨r.start, at_, r.prot⟩] else []) ++
    [⟨if at_ < r.start then r.start else at_, if r.stop < stop then r.stop else stop, prot⟩] ++
    (if stop < r.stop then [⟨stop, r.stop, r.prot⟩] else [])

def rsdAsProtect (h : Host) (as : As) (at_ len : BitVec 64) (prot : BitVec 32) : Int × As :=
  if len = 0 then (0, as)
  else if h.alloc then
    (0, { forget as with
      reg := as.reg.flatMap (protectPieces at_ (at_ + len) prot)
      cap := as.reg.length * 3 + 1 })
  else (-1, as)

/-- Host pages are rounded outwards, but only a region wholly inside them is dropped. -/
def rsdAsUnmap (h : Host) (as : As) (at_ len : BitVec 64) : Int × As × List HostEvent :=
  let lo := pageDown h.page at_
  let hi := pageUp h.page (at_ + len)
  if h.munmap lo (hi - lo) then
    (0, { forget as with reg := as.reg.filter fun r => !(decide (lo ≤ r.start) && decide (r.stop ≤ hi)) },
      [.unmapped lo (hi - lo)])
  else (-1, as, [])

def HitPair.note (h : HitPair) (r : Region) : HitPair :=
  if h.first.lo = r.start then h else ⟨⟨r.start, r.stop - r.start - 7⟩, h.first⟩

/-- Only the permissions `RSD_PROT_R` and `RSD_PROT_W` alone are remembered. -/
def rsdAsNote (as : As) (a : BitVec 64) (prot : BitVec 32) : As :=
  match find as a with
  | none => as
  | some r =>
    if r.allows prot = false then as
    else if r.stop - r.start < 8 then as
    else if prot = rsdProtR then { as with rd := as.rd.note r }
    else if prot = rsdProtW then { as with wr := as.wr.note r }
    else as

/-- The loop shared by `rsd_as_ok` and `rsd_as_mapped`, for a test on the region found.
Every turn covers at least one byte, so `n` turns are enough. -/
def rangeLoop (as : As) (p : Region → Bool) : Nat → BitVec 64 → BitVec 64 → Bool
  | 0, _, n => n == 0
  | fuel + 1, a, n =>
    if n = 0 then true
    else
      match find as a with
      | none => false
      | some r =>
        if p r = false then false
        else if n ≤ r.stop - a then true
        else rangeLoop as p fuel (a + (r.stop - a)) (n - (r.stop - a))

def rangeCheck (as : As) (p : Region → Bool) (a n : BitVec 64) : Bool :=
  if n = 0 then true
  else if a + n < a then false
  else rangeLoop as p n.toNat a n

def rsdAsMapped (as : As) (a n : BitVec 64) : Bool := rangeCheck as (fun _ => true) a n

def rsdAsOk (as : As) (a n : BitVec 64) (prot : BitVec 32) : Bool :=
  rangeCheck as (·.allows prot) a n

end Rashid
