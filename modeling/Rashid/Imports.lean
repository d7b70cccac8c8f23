import Rashid.Fixups
import Rashid.LoadCommands

/-!
# Imports

What `thunk.c` finds out about the symbols an image imports: their native addresses, which of them are
code, and which functions need more than their arguments moved.
-/

namespace Rashid

/-- The dynamic linker of the host, and memory as it has filled it. `dladdr` gives the header of the image
that an address belongs to. -/
structure Dl where
  dlsym : Text → BitVec 64
  dladdr : BitVec 64 → Option (BitVec 64)
  mem : Mem

/-- `S_ATTR_PURE_INSTRUCTIONS | S_ATTR_SOME_INSTRUCTIONS` -/
def sAttrInstructions : BitVec 32 := 0x80000000 ||| 0x400

/-! ### Code or data -/

/-- The first loop: where the first `__TEXT` is linked to. -/
def textVm (m : Mem) (lcs : List (BitVec 64)) : BitVec 64 :=
  match lcs.find? fun lc => u32 m lc == lcSegment64 && strEq m (lc + 8) segText with
  | some lc => u64 m (lc + 24)
  | none => 0

/-- The sections of one segment: whether the one that holds the target holds instructions. -/
def sectionIsCode (m : Mem) (slide target : BitVec 64) : Nat → BitVec 64 → Option Bool
  | 0, _ => none
  | n + 1, sec =>
    let s := u64 m (sec + 32) + slide
    if s ≤ target ∧ target < s + u64 m (sec + 40) then some (u32 m (sec + 64) &&& sAttrInstructions != 0)
    else sectionIsCode m slide target n (sec + 80)

def commandIsCode (m : Mem) (slide target lc : BitVec 64) : Option Bool :=
  if u32 m lc = lcSegment64 then sectionIsCode m slide target (u32 m (lc + 64)).toNat (lc + 72) else none

def addrIsCode (dl : Dl) (p : BitVec 64) : Bool :=
  match dl.dladdr p with
  | none => true
  | some mh =>
    if mh = 0 ∨ u32 dl.mem mh ≠ mhMagic64 then true
    else
      let lcs := commands dl.mem mh
      let slide := mh - textVm dl.mem lcs
      (lcs.findSome? (commandIsCode dl.mem slide p)).getD true

/-! ### Names -/

/-- Without the underscore that C puts in front. -/
def bareName : Text → Text
  | [] => []
  | b :: rest => if b = 0x5F then rest else b :: rest

/-- Which argument is the format string of `objc_msgSend` is decided at the call. -/
def variadics : List (Text × VaSpec) := [
  (ascii "printf", ⟨1, 0, false, false, false⟩),
  (ascii "fprintf", ⟨2, 1, false, false, false⟩),
  (ascii "sprintf", ⟨2, 1, false, false, false⟩),
  (ascii "snprintf", ⟨3, 2, false, false, false⟩),
  (ascii "dprintf", ⟨2, 1, false, false, false⟩),
  (ascii "asprintf", ⟨2, 1, false, false, false⟩),
  (ascii "syslog", ⟨2, 1, false, false, false⟩),
  (ascii "scanf", ⟨1, 0, true, false, false⟩),
  (ascii "fscanf", ⟨2, 1, true, false, false⟩),
  (ascii "sscanf", ⟨2, 1, true, false, false⟩),
  (ascii "NSLog", ⟨1, 0, false, true, false⟩),
  (ascii "objc_msgSend", ⟨2, 0, false, true, true⟩)]

def callbackArgs : List (Text × Int) := [
  (ascii "qsort", 3),
  (ascii "bsearch", 4),
  (ascii "atexit", 0),
  (ascii "heapsort", 3),
  (ascii "mergesort", 3)]

def rsdTakesObjcReceiver (symbol : Text) : Bool :=
  let n := bareName symbol
  (ascii "objc_").isPrefixOf n || (ascii "object_").isPrefixOf n || (ascii "class_").isPrefixOf n

def rsdCallbackArg (symbol : Text) : Int := (callbackArgs.lookup (bareName symbol)).getD (-1)

def rsdVariadicSpec (symbol : Text) : Option VaSpec := variadics.lookup (bareName symbol)

/-- What `parse_imports` writes down of a symbol. -/
structure Symbol where
  name : Text
  lib : Text
  weak : Bool
  deriving DecidableEq, Repr

/-- One turn of `rsd_resolve_imports`. -/
def resolveImport (dl : Dl) (s : Symbol) : Import :=
  let native := dl.dlsym (bareName s.name)
  ⟨false, native, if native ≠ 0 then addrIsCode dl native else true⟩

def rsdResolveImports (dl : Dl) (symbols : List Symbol) : List Import := symbols.map (resolveImport dl)

/-! ### The stubs of an image -/

/-- The name of an import, by its number. -/
def nameOf (symbols : List Symbol) (i : Nat) : Text := (symbols[i]?.map Symbol.name).getD []

/-- `alloc` says whether the allocator gave all the arrays; without them there are no stubs. The imports of
the image have their names from `symbols`. -/
def rsdStubsOf (alloc : Bool) (symbols : List Symbol) (img : Image) : Stubs where
  base := if img.imports.isEmpty then 0 else img.stubBase
  n := if alloc then BitVec.ofNat 32 img.imports.length else 0
  fns i := match img.imports[i]? with
    | some im => im.isCode && im.native != 0
    | none => false
  cbarg i := rsdCallbackArg (nameOf symbols i)
  objcrecv i := rsdTakesObjcReceiver (nameOf symbols i)
  va i := rsdVariadicSpec (nameOf symbols i)

end Rashid
