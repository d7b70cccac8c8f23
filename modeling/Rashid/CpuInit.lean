import Rashid.Lib.Writes
import Rashid.Run

/-!
# The first state of a guest

`rsd_cpu_init` maps a stack and fills it from the top: the strings of the command line, the vector
of their addresses and, for an image that starts at `_start`, the frame with the count.
-/

namespace Rashid

def guestStackSize : BitVec 64 := 0x100000

def align16 (a : BitVec 64) : BitVec 64 := a &&& ~~~15

/-- Each string below the one before it, with its zero. -/
def copyStrings : BitVec 64 → List (List (BitVec 8)) → List Write
  | _, [] => []
  | strp, s :: rest =>
    let strp := strp - BitVec.ofNat 64 (s.length + 1)
    (strp, s ++ [0]) :: copyStrings strp rest

/-- Where the last string went. -/
def lowestString (top : BitVec 64) (strings : List Write) : BitVec 64 :=
  strings.foldl (fun _ w => w.1) top

def vectorAt (strp : BitVec 64) (argc : Nat) : BitVec 64 := align16 (strp - BitVec.ofNat 64 (argc + 3) * 8)

def frameAt (sp : BitVec 64) (argc : Nat) : BitVec 64 := align16 (sp - BitVec.ofNat 64 (argc + 4) * 8)

def mapStack (h : Host) (as : As) : BitVec 64 × As × List HostEvent :=
  rsdAsMap h as 0 guestStackSize (rsdProtR ||| rsdProtW) false

/-- Fills the stack from `base` on and sets the registers. `argv` are the strings without their zeroes. -/
def fillStack (base : BitVec 64) (as : As) (m : Mem) (entry : BitVec 64) (hasMain : Bool)
    (argv : List (List (BitVec 8))) : Cpu :=
  let argc := argv.length
  let strings := copyStrings (base + guestStackSize) argv
  let gargv := strings.map (·.1)
  let vec := vectorAt (align16 (lowestString (base + guestStackSize) strings)) argc
  let sp := align16 (vec - 4096)
  let m := pokeAll m (strings ++ [(vec, wordsBytes (gargv ++ [0, 0, 0]))])
  let c := { Cpu.zero with as := as, mem := m, rip := entry }
  if hasMain then
    let r := Function.update c.r rdi (BitVec.ofNat 64 argc)
    let r := Function.update r rsi vec
    let r := Function.update r rdx (vec + BitVec.ofNat 64 (argc + 1) * 8)
    let r := Function.update r rcx (vec + BitVec.ofNat 64 (argc + 2) * 8)
    let sp := sp - 8
    let c := (st sp returnMagic 8 { c with r := r }).2
    { c with r := Function.update c.r rsp sp }
  else
    let sp := frameAt sp argc
    let m := poke m sp (wordsBytes ([BitVec.ofNat 64 argc] ++ gargv ++ [0, 0, 0]))
    { c with mem := m, r := Function.update c.r rsp sp }

/-- Strings past the sixtieth are dropped. -/
def rsdCpuInit (h : Host) (as : As) (m : Mem) (entry : BitVec 64) (hasMain : Bool) (argv : List (List (BitVec 8))) :
    Option Cpu :=
  let (base, as, evs) := mapStack h as
  if base = 0 then none else some (fillStack base as (evs.foldl zeroFill m) entry hasMain (argv.take 60))

end Rashid
