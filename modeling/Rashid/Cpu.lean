import Mathlib.Logic.Function.Basic
import Rashid.AddressSpace
import Rashid.Lib.Bytes
import Rashid.Lib.Prog

/-!
# The guest processor

The state the interpreter works on, guest memory with its permission checks and its write
log, the register file and the flag routines. The memory and the region list stand behind
pointers in the source; here they are part of the state.
-/

namespace Rashid

-- One instance each for the numerals of the register file and of the temporaries, and for
-- membership among bytes.
instance regNeZero : NeZero 16 := ⟨by decide⟩

instance tmpNeZero : NeZero 8 := ⟨by decide⟩

instance byteLawfulBEq : LawfulBEq (BitVec 8) := inferInstance

/-- Two quadwords, `q[0]` and `q[1]`. -/
structure Xmm where
  lo : BitVec 64
  hi : BitVec 64
  deriving DecidableEq, Repr

/-- The messages a fault is reported with. -/
inductive Fault where
  | protection | nullPointer | notUsable
  | readBuffer | writeBuffer | unimplementedSyscall
  | leaRegister | rotate | divideByZero | grp5Far
  | unimplemented0F | unimplementedOpcode
  | noThunk | formatString | variadic
  | budget | disagreed
  deriving DecidableEq, Repr

def Fault.text : Fault → String
  | .protection => "guest memory protection"
  | .nullPointer => "null pointer"
  | .notUsable => "not a usable address"
  | .readBuffer => "read() buffer is not writable"
  | .writeBuffer => "write() buffer is not readable"
  | .unimplementedSyscall => "unimplemented syscall"
  | .leaRegister => "lea with register operand"
  | .rotate => "rotate not implemented"
  | .divideByZero => "divide by zero"
  | .grp5Far => "grp5 far call/jmp not supported"
  | .unimplemented0F => "unimplemented 0F opcode"
  | .unimplementedOpcode => "unimplemented opcode"
  | .noThunk => "call into an import that has no thunk yet"
  | .formatString => "cannot read the format string of a variadic call"
  | .variadic => "cannot forward this variadic call"
  | .budget => "instruction budget exhausted"
  | .disagreed => "jit disagreed with the interpreter"

structure VaSpec where
  nfixed : Nat
  fmt : Nat
  scan : Bool
  nsformat : Bool
  objc : Bool
  deriving DecidableEq, Repr

/-- Import stubs: 16 bytes each from `base`, with what is known of every import. -/
structure Stubs where
  base : BitVec 64
  n : BitVec 32
  fns : Nat → Bool
  cbarg : Nat → Int
  objcrecv : Nat → Bool
  va : Nat → Option VaSpec

def rsdStubStride : BitVec 64 := 16

def rsdStubIndex (s : Option Stubs) (addr : BitVec 64) : Option Nat :=
  match s with
  | none => none
  | some s =>
    if s.base = 0 ∨ addr < s.base then none
    else if s.n.signExtend 64 * rsdStubStride ≤ addr - s.base then none
    else some ((addr - s.base) / rsdStubStride).toNat

/-- One logged write. `span` bytes from `addr` are kept as they were before it and, for the
compiled run, as they are after the whole block. -/
structure LogEntry where
  addr : BitVec 64
  old : BitVec 64
  val : BitVec 64
  size : Nat
  span : Nat
  before : List (BitVec 8)
  after : List (BitVec 8)
  deriving DecidableEq, Repr

structure WriteLog where
  e : List LogEntry
  overflow : Bool
  deriving DecidableEq, Repr

def rsdWlogMax : Nat := 512

structure Cpu where
  r : Fin 16 → BitVec 64
  xmm : Fin 16 → Xmm
  rip : BitVec 64
  curRip : BitVec 64
  flags : BitVec 32
  gsBase : BitVec 64
  fsBase : BitVec 64
  jitTmp : Fin 8 → BitVec 64
  wlog : Option WriteLog
  as : As
  mem : Mem
  stubs : Option Stubs
  /-- The guest functions that trampolines have been handed out for. -/
  targets : List (BitVec 64)
  running : Bool
  exitCode : BitVec 32
  icount : BitVec 64
  fault : Option Fault
  faultImport : Option Nat
  faultRip : BitVec 64
  faultAddr : BitVec 64
  faultHasAddr : Bool

/-- The state when nothing has been loaded yet. -/
def Cpu.zero : Cpu where
  r := fun _ => 0
  xmm := fun _ => ⟨0, 0⟩
  rip := 0
  curRip := 0
  flags := 0x202
  gsBase := 0
  fsBase := 0
  jitTmp := fun _ => 0
  wlog := none
  as := rsdAsInit
  mem := fun _ => 0
  stubs := none
  targets := []
  running := true
  exitCode := 0
  icount := 0
  fault := none
  faultImport := none
  faultRip := 0
  faultAddr := 0
  faultHasAddr := false

abbrev M := Prog Cpu

def rax : Fin 16 := 0
def rcx : Fin 16 := 1
def rdx : Fin 16 := 2
def rsp : Fin 16 := 4
def rbp : Fin 16 := 5
def rsi : Fin 16 := 6
def rdi : Fin 16 := 7
def r8 : Fin 16 := 8
def r9 : Fin 16 := 9
def r10 : Fin 16 := 10

/-! ### The parts of the state an instruction reads and writes -/

def rdR (i : Fin 16) : M (BitVec 64) := Prog.get fun c => c.r i
def wrR (i : Fin 16) (v : BitVec 64) : M Unit := Prog.modify fun c => { c with r := Function.update c.r i v }
def rdX (i : Fin 16) : M Xmm := Prog.get fun c => c.xmm i
def wrX (i : Fin 16) (v : Xmm) : M Unit := Prog.modify fun c => { c with xmm := Function.update c.xmm i v }
def rdFlags : M (BitVec 32) := Prog.get fun c => c.flags
def wrFlags (f : BitVec 32) : M Unit := Prog.modify fun c => { c with flags := f }
def rdRip : M (BitVec 64) := Prog.get fun c => c.rip
def wrRip (v : BitVec 64) : M Unit := Prog.modify fun c => { c with rip := v }
def wrCurRip (v : BitVec 64) : M Unit := Prog.modify fun c => { c with curRip := v }
def rdGs : M (BitVec 64) := Prog.get fun c => c.gsBase
def rdFs : M (BitVec 64) := Prog.get fun c => c.fsBase

/-- A code byte. Decoding reads the host's memory directly, without a check. -/
def rdCode (a : BitVec 64) : M (BitVec 8) := Prog.get fun c => c.mem a

/-- An instruction that cannot be carried out stops the guest. -/
def raise (f : Fault) (rip : BitVec 64) : M Unit :=
  Prog.modify fun c => { c with fault := some f, faultRip := rip, running := false }

/-! ### Memory -/

/-- The first fault is kept; every one stops the guest. -/
def memfault (a : BitVec 64) (what : Fault) : M Unit := Prog.modify fun c =>
  if c.fault = none then
    { c with fault := some what, faultRip := c.curRip, faultAddr := a, faultHasAddr := true, running := false }
  else { c with running := false }

def rsdMinValid : BitVec 64 := 0x1000
def rsdMaxValid : BitVec 64 := 0x0001000000000000

/-- Addresses outside every tracked region are left to the host, within user bounds. -/
def accessOk (as : As) (a n : BitVec 64) (prot : BitVec 32) : Bool :=
  if rsdAsOk as a n prot then true
  else if rsdAsMapped as a n then false
  else decide (rsdMinValid ≤ a) && decide (a < rsdMaxValid) && decide (n ≤ rsdMaxValid - a)

def why (as : As) (a n : BitVec 64) : Fault :=
  if rsdAsMapped as a n then .protection
  else if a < rsdMinValid then .nullPointer
  else .notUsable

def sizeMask (size : Nat) : BitVec 64 :=
  if size = 8 then BitVec.allOnes 64 else (1 <<< (size * 8)) - 1

def logEntry (as : As) (m : Mem) (a v : BitVec 64) (size : Nat) : LogEntry :=
  let span := if rsdAsOk as a 16 rsdProtR then 16 else size
  { addr := a, old := loadLE m a size, val := v &&& sizeMask size, size := size, span := span,
    before := peek m a span, after := [] }

def WriteLog.add (w : WriteLog) (e : LogEntry) : WriteLog :=
  if rsdWlogMax ≤ w.e.length then { w with overflow := true } else { w with e := w.e ++ [e] }

/-- Records a guest write while a compiled block is being checked. -/
def logWrite (a v : BitVec 64) (size : Nat) : M Unit := Prog.modify fun c =>
  { c with wlog := c.wlog.map fun w => w.add (logEntry c.as c.mem a v size) }

def pokeMem (a v : BitVec 64) (size : Nat) : M Unit := Prog.modify fun c =>
  { c with mem := storeLE c.mem a v size }

/-- A load that is not allowed faults and yields 0; the instruction carries on. -/
def ld (a : BitVec 64) (size : Nat) : M (BitVec 64) := fun c =>
  if accessOk c.as a (BitVec.ofNat 64 size) rsdProtR then (loadLE c.mem a size, c)
  else (0, (memfault a (why c.as a (BitVec.ofNat 64 size)) c).2)

def st (a v : BitVec 64) (size : Nat) : M Unit := fun c =>
  if accessOk c.as a (BitVec.ofNat 64 size) rsdProtW then (do logWrite a v size; pokeMem a v size) c
  else memfault a (why c.as a (BitVec.ofNat 64 size)) c

def ld128 (a : BitVec 64) : M Xmm := fun c =>
  if accessOk c.as a 16 rsdProtR then (⟨loadLE c.mem a 8, loadLE c.mem (a + 8) 8⟩, c)
  else (⟨0, 0⟩, (memfault a (why c.as a 16) c).2)

/-- Two log entries, then one 16-byte copy. -/
def st128 (a : BitVec 64) (v : Xmm) : M Unit := fun c =>
  if accessOk c.as a 16 rsdProtW then
    (do
      logWrite a v.lo 8
      logWrite (a + 8) v.hi 8
      Prog.modify fun c => { c with mem := storeLE (storeLE c.mem a v.lo 8) (a + 8) v.hi 8 }) c
  else memfault a (why c.as a 16) c

/-! ### Widths and registers -/

def truncSz (v : BitVec 64) (size : Nat) : BitVec 64 :=
  match size with
  | 1 => v &&& 0xff
  | 2 => v &&& 0xffff
  | 4 => v &&& 0xffffffff
  | _ => v

def sext (v : BitVec 64) (size : Nat) : BitVec 64 :=
  match size with
  | 1 => (v.setWidth 8).signExtend 64
  | 2 => (v.setWidth 16).signExtend 64
  | 4 => (v.setWidth 32).signExtend 64
  | _ => v

/-- What a write of the low `size` bytes leaves in a register: a 32-bit write zero-extends,
a narrower one keeps the rest. -/
def mergeSz (old v : BitVec 64) (size : Nat) : BitVec 64 :=
  match size with
  | 1 => (old &&& ~~~0xff) ||| (v &&& 0xff)
  | 2 => (old &&& ~~~0xffff) ||| (v &&& 0xffff)
  | 4 => v &&& 0xffffffff
  | _ => v

def setreg (i : Fin 16) (v : BitVec 64) (size : Nat) : M Unit := do
  let old ← rdR i
  wrR i (mergeSz old v size)

def getreg (i : Fin 16) (size : Nat) : M (BitVec 64) := do
  let v ← rdR i
  pure (truncSz v size)

/-- Without a REX prefix, byte registers 4 to 7 are ah, ch, dh and bh. -/
def isHigh (i : Fin 16) (rex : Bool) : Bool := !rex && decide (4 ≤ i.val) && decide (i.val < 8)

def lowOf (i : Fin 16) : Fin 16 := i - 4

def getreg8 (i : Fin 16) (rex : Bool) : M (BitVec 64) := do
  if isHigh i rex then
    let v ← rdR (lowOf i)
    pure ((v >>> 8) &&& 0xff)
  else
    let v ← rdR i
    pure (v &&& 0xff)

def setreg8 (i : Fin 16) (v : BitVec 64) (rex : Bool) : M Unit := do
  if isHigh i rex then
    let old ← rdR (lowOf i)
    wrR (lowOf i) ((old &&& ~~~(0xff00 : BitVec 64)) ||| ((v &&& 0xff) <<< 8))
  else
    let old ← rdR i
    wrR i ((old &&& ~~~(0xff : BitVec 64)) ||| (v &&& 0xff))

/-! ### Flags -/

def fCF : BitVec 32 := 0x1
def fPF : BitVec 32 := 0x4
def fAF : BitVec 32 := 0x10
def fZF : BitVec 32 := 0x40
def fSF : BitVec 32 := 0x80
def fOF : BitVec 32 := 0x800

def flagIf (b : Bool) (f : BitVec 32) : BitVec 32 := if b then f else 0

def popcount (v : BitVec 32) : Nat := (List.range 32).countP v.getLsbD

def setPzs (f : BitVec 32) (res : BitVec 64) (size : Nat) : BitVec 32 :=
  let res := truncSz res size
  (f &&& ~~~(fZF ||| fSF ||| fPF)) ||| flagIf (res == 0) fZF ||| flagIf (res >>> (size * 8 - 1) != 0) fSF |||
    flagIf (popcount ((res &&& 0xff).setWidth 32) % 2 == 0) fPF

def flagsLogic (f : BitVec 32) (res : BitVec 64) (size : Nat) : BitVec 32 :=
  setPzs (f &&& ~~~(fCF ||| fOF)) res size

def signBit (size : Nat) : BitVec 64 := 1 <<< (size * 8 - 1)

/-- The part the four carry routines share, once the carry and the overflow are known. -/
def flagsArith (f : BitVec 32) (cf of : Bool) (a b r : BitVec 64) (size : Nat) : BitVec 32 :=
  setPzs ((f &&& ~~~(fCF ||| fOF ||| fAF)) ||| flagIf cf fCF ||| flagIf of fOF |||
    flagIf ((a ^^^ b ^^^ r) &&& 0x10 != 0) fAF) r size

def flagsAdd (f : BitVec 32) (a b res : BitVec 64) (size : Nat) : BitVec 32 :=
  let a := truncSz a size
  let b := truncSz b size
  let r := truncSz res size
  flagsArith f (decide (r < a)) (~~~(a ^^^ b) &&& (a ^^^ r) &&& signBit size != 0) a b r size

def flagsSub (f : BitVec 32) (a b res : BitVec 64) (size : Nat) : BitVec 32 :=
  let a := truncSz a size
  let b := truncSz b size
  let r := truncSz res size
  flagsArith f (decide (a < b)) ((a ^^^ b) &&& (a ^^^ r) &&& signBit size != 0) a b r size

def flagsAdc (f : BitVec 32) (a b cf res : BitVec 64) (size : Nat) : BitVec 32 :=
  let a := truncSz a size
  let b := truncSz b size
  let r := truncSz res size
  flagsArith f (decide (r < a) || (cf != 0 && r == a)) (~~~(a ^^^ b) &&& (a ^^^ r) &&& signBit size != 0) a b r size

def flagsSbb (f : BitVec 32) (a b cf res : BitVec 64) (size : Nat) : BitVec 32 :=
  let a := truncSz a size
  let b := truncSz b size
  let r := truncSz res size
  flagsArith f (decide (a < b) || (cf != 0 && a == b)) ((a ^^^ b) &&& (a ^^^ r) &&& signBit size != 0) a b r size

/-- `inc` and `dec` set flags like `add` and `sub`, except that CF is left alone. -/
def flagsInc (f : BitVec 32) (a r : BitVec 64) (size : Nat) : BitVec 32 :=
  (flagsAdd f a 1 r size &&& ~~~fCF) ||| (f &&& fCF)

def flagsDec (f : BitVec 32) (a r : BitVec 64) (size : Nat) : BitVec 32 :=
  (flagsSub f a 1 r size &&& ~~~fCF) ||| (f &&& fCF)

/-- A shift by a masked, non-zero count: the result and the flags. -/
def rsdIShift (f : BitVec 32) (a cnt : BitVec 64) (size : Nat) (ext : BitVec 8) : BitVec 64 × BitVec 32 :=
  let w := size * 8
  let ta := truncSz a size
  let (r, cf, of) : BitVec 64 × Bool × Bool :=
    if ext = 4 ∨ ext = 6 then
      let r := ta <<< cnt.toNat
      let cf := decide (cnt.toNat ≤ w) && (ta >>> (w - cnt.toNat)).getLsbD 0
      (r, cf, (truncSz r size >>> (w - 1)).getLsbD 0 ^^ cf)
    else if ext = 5 then
      (ta >>> cnt.toNat, decide (cnt.toNat ≤ w) && (ta >>> (cnt.toNat - 1)).getLsbD 0, (ta >>> (w - 1)).getLsbD 0)
    else
      let sa := sext a size
      let sh := if w ≤ cnt.toNat then w - 1 else cnt.toNat
      let cb := if w ≤ cnt.toNat - 1 then w - 1 else cnt.toNat - 1
      (sa.sshiftRight sh, (sa.sshiftRight cb).getLsbD 0, false)
  let res := truncSz r size
  (res, setPzs ((f &&& ~~~(fCF ||| fOF)) ||| flagIf cf fCF ||| flagIf of fOF) res size)

/-- Conditions come in pairs, the odd one negating the even one. -/
def condEven (f : BitVec 32) (pair : BitVec 8) : Bool :=
  let cf := f &&& fCF != 0
  let zf := f &&& fZF != 0
  let sf := f &&& fSF != 0
  let of := f &&& fOF != 0
  let pf := f &&& fPF != 0
  match pair with
  | 0 => of
  | 1 => cf
  | 2 => zf
  | 3 => cf || zf
  | 4 => sf
  | 5 => pf
  | 6 => sf != of
  | _ => zf || sf != of

def cond (f : BitVec 32) (cc : BitVec 8) : Bool :=
  if cc.getLsbD 0 then !condEven f (cc >>> 1) else condEven f (cc >>> 1)

end Rashid
