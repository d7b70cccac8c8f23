import Rashid.LoadCommands

/-!
# Mach-O files

Load commands taken apart, the bytes they are written as, and what they say of an image. A yardstick for
the loader, after `<mach-o/loader.h>` and `<mach-o/fat.h>`, and not taken from the code.
-/

namespace Rashid

/-- Whether the name of a segment, which need not end in a zero, is the text `s`. -/
def Name.is (n : Name) (s : Text) : Bool := n.val.take (s.length + 1) == s ++ [0]

/-- `struct section_64`. -/
structure SectionHeader where
  sect : Sect
  offset : BitVec 32
  align : BitVec 32
  reloff : BitVec 32
  nreloc : BitVec 32
  flags : BitVec 32
  reserved1 : BitVec 32
  reserved2 : BitVec 32
  reserved3 : BitVec 32

def SectionHeader.bytes (s : SectionHeader) : Text :=
  s.sect.name.val ++
    (s.sect.seg.val ++ (leBytes s.sect.addr ++ (leBytes s.sect.size ++ (leBytes s.offset ++ (leBytes s.align ++
    (leBytes s.reloff ++ (leBytes s.nreloc ++ (leBytes s.flags ++ (leBytes s.reserved1 ++ (leBytes s.reserved2 ++
      leBytes s.reserved3))))))))))

inductive DylibKind where
  | load | weak | reexport
  deriving DecidableEq, Repr

def DylibKind.code : DylibKind → BitVec 32
  | .load => lcLoadDylib
  | .weak => lcLoadWeakDylib
  | .reexport => lcReexportDylib

/-- The commands that the loader takes note of. -/
def knownCommands : List (BitVec 32) :=
  [lcSegment64, lcMain, lcUnixthread, lcDyldChainedFixups, lcLoadDylib, lcLoadWeakDylib, lcReexportDylib]

/-- A load command. The registers of a thread are those before `rip`; `gap` lies between the header of a
library's command and its name. -/
inductive Command where
  | segment (s : NamedSegment) (flags : BitVec 32) (sects : List SectionHeader)
  | main (entryoff stacksize : BitVec 64)
  | unixthread (flavor count : BitVec 32) (regs : Fin 16 → BitVec 64) (rip : BitVec 64)
  | chainedFixups (dataoff datasize : BitVec 32)
  | dylib (kind : DylibKind) (timestamp current compatibility : BitVec 32) (gap name : Text)
  | other (cmd : BitVec 32) (body : Text) (unknown : cmd ∉ knownCommands)

namespace Command

def code : Command → BitVec 32
  | .segment .. => lcSegment64
  | .main .. => lcMain
  | .unixthread .. => lcUnixthread
  | .chainedFixups .. => lcDyldChainedFixups
  | .dylib kind .. => kind.code
  | .other cmd .. => cmd

/-- What follows the code and the length. -/
def body : Command → Text
  | .segment s flags sects =>
    s.name.val ++
      (leBytes s.vmaddr ++ (leBytes s.vmsize ++ (leBytes s.fileoff ++ (leBytes s.filesize ++ (leBytes s.maxprot ++
      (leBytes s.initprot ++ (leBytes (BitVec.ofNat 32 sects.length) ++ (leBytes flags ++
        sects.flatMap SectionHeader.bytes))))))))
  | .main entryoff stacksize => leBytes entryoff ++ leBytes stacksize
  | .unixthread flavor count regs rip =>
    leBytes flavor ++ (leBytes count ++ ((List.ofFn regs).flatMap leBytes ++ leBytes rip))
  | .chainedFixups dataoff datasize => leBytes dataoff ++ leBytes datasize
  | .dylib _ timestamp current compatibility gap name =>
    leBytes (BitVec.ofNat 32 (24 + gap.length)) ++ (leBytes timestamp ++ (leBytes current ++ (leBytes compatibility ++
      (gap ++ (name ++ [0])))))
  | .other _ body _ => body

/-- With whatever follows it up to the next command. -/
def bytes (c : Command) (pad : Text) : Text :=
  leBytes c.code ++ (leBytes (BitVec.ofNat 32 (8 + (c.body ++ pad).length)) ++ (c.body ++ pad))

end Command

/-- `struct mach_header_64`, without the number of commands. -/
structure MachHeader where
  cputype : BitVec 32
  cpusubtype : BitVec 32
  filetype : BitVec 32
  sizeofcmds : BitVec 32
  flags : BitVec 32
  reserved : BitVec 32

def MachHeader.bytes (h : MachHeader) (ncmds : Nat) : Text :=
  leBytes mhMagic64 ++ (leBytes h.cputype ++ (leBytes h.cpusubtype ++ (leBytes h.filetype ++
    (leBytes (BitVec.ofNat 32 ncmds) ++ (leBytes h.sizeofcmds ++ (leBytes h.flags ++ leBytes h.reserved))))))

/-- The commands of an image, each with the padding after it. Lengths and numbers fit their fields. -/
structure Commands where
  list : List (Command × Text)
  count : list.length < 2 ^ 32
  sizes : ∀ c ∈ list, (c.1.bytes c.2).length < 2 ^ 32

def Commands.all (cs : Commands) : List Command := cs.list.map Prod.fst

def MachHeader.pie (h : MachHeader) : Bool := h.flags &&& mhPie != 0

def imageBytes (h : MachHeader) (cs : Commands) : Text :=
  h.bytes cs.list.length ++ cs.list.flatMap fun c => c.1.bytes c.2

/-! ### What the commands say -/

/-- The segments but for `__PAGEZERO`, each with its sections. -/
def segmentsOf (cs : List Command) : List (NamedSegment × List SectionHeader) := cs.filterMap fun
  | .segment s _ sects => if s.name.is segPagezero then none else some (s, sects)
  | _ => none

def sectionsOf (cs : List Command) : List Sect := (segmentsOf cs).flatMap fun s => s.2.map SectionHeader.sect

/-- Where `__TEXT` is linked to. -/
def textBaseOf (cs : List Command) : Option (BitVec 64) :=
  (((segmentsOf cs).filter fun s => s.1.name.is segText).getLast?).map fun s => s.1.vmaddr

/-- The entry points, and whether each is that of a main function. -/
def entriesOf (cs : List Command) : List (Bool × BitVec 64) := cs.filterMap fun
  | .main entryoff _ => some (true, entryoff)
  | .unixthread _ _ _ rip => some (false, rip)
  | _ => none

def fixupsOf (cs : List Command) : List (BitVec 32 × BitVec 32) := cs.filterMap fun
  | .chainedFixups dataoff datasize => some (dataoff, datasize)
  | _ => none

def librariesOf (cs : List Command) : List Text := cs.filterMap fun
  | .dylib _ _ _ _ _ name => some name
  | _ => none

/-! ### Fat files -/

/-- `struct fat_arch`, with the highest byte of each number first. -/
structure FatArch where
  cputype : BitVec 32
  cpusubtype : BitVec 32
  offset : BitVec 32
  size : BitVec 32
  align : BitVec 32

def beBytes (v : BitVec 32) : Text := (leBytes v).reverse

def FatArch.bytes (a : FatArch) : Text :=
  beBytes a.cputype ++ (beBytes a.cpusubtype ++ (beBytes a.offset ++ (beBytes a.size ++ beBytes a.align)))

end Rashid
