import Rashid.Cpu

/-!
# System calls

macOS encodes the class of a system call in the high byte of its number. The calls that
reach the kernel get its answer from an explicit argument.
-/

namespace Rashid

/-- The kernel's answers to the calls one instruction makes. `read` yields the bytes that
end up in the buffer. -/
structure Kernel extends Host where
  read : BitVec 32 → BitVec 64 → BitVec 64 → Int × List (BitVec 8)
  write : BitVec 32 → BitVec 64 → BitVec 64 → Int
  close : BitVec 32 → Int

def syscallClass (n : BitVec 64) : BitVec 64 := (n >>> 24) &&& 0xff
def syscallNumber (n : BitVec 64) : BitVec 64 := n &&& 0xffffff

/-- Errors come back as CF set with the number in rax. -/
def syscallRet (ret : Int) : M Unit := do
  let f ← rdFlags
  if ret < 0 then
    wrFlags (f ||| fCF)
    wrR rax (BitVec.ofInt 64 (-ret))
  else
    wrFlags (f &&& ~~~fCF)
    wrR rax (BitVec.ofInt 64 ret)

def unimplementedSyscall : M Unit := do
  let rip ← rdRip
  raise .unimplementedSyscall rip

/-- Fresh anonymous memory is zero. -/
def zeroFill (m : Mem) : HostEvent → Mem
  | .mapped base len => fun x => if inWindow base len.toNat x then 0 else m x
  | .unmapped _ _ => m

/-- Installs what an address-space call left behind. -/
def setAs (as : As) (evs : List HostEvent) : M Unit :=
  Prog.modify fun c => { c with as := as, mem := evs.foldl zeroFill c.mem }

def sysRead (k : Kernel) (a0 a1 a2 : BitVec 64) : M Unit := do
  let as ← Prog.get fun c => c.as
  if accessOk as a1 a2 rsdProtW then
    let (ret, bytes) := k.read (a0.setWidth 32) a1 a2
    Prog.modify fun c => { c with mem := poke c.mem a1 bytes }
    syscallRet ret
  else memfault a1 .readBuffer

def sysWrite (k : Kernel) (a0 a1 a2 : BitVec 64) : M Unit := do
  let as ← Prog.get fun c => c.as
  if accessOk as a1 a2 rsdProtR then syscallRet (k.write (a0.setWidth 32) a1 a2)
  else memfault a1 .writeBuffer

def sysMunmap (k : Kernel) (a0 a1 : BitVec 64) : M Unit := do
  let as ← Prog.get fun c => c.as
  let (ret, as, evs) := rsdAsUnmap k.toHost as a0 a1
  setAs as evs
  syscallRet ret

def sysMprotect (k : Kernel) (a0 a1 a2 : BitVec 64) : M Unit := do
  let as ← Prog.get fun c => c.as
  let (ret, as) := rsdAsProtect k.toHost as a0 a1 ((a2 &&& 7).setWidth 32)
  setAs as []
  syscallRet ret

/-- Only anonymous memory; the address replaces the usual result. -/
def sysMmap (k : Kernel) (a0 a1 a2 : BitVec 64) : M Unit := do
  let flags ← rdR r10
  let fd ← rdR r8
  if flags &&& 0x1000 = 0 ∧ (fd.setWidth 32).msb = false then unimplementedSyscall
  else
    let as ← Prog.get fun c => c.as
    let (got, as, evs) := rsdAsMap k.toHost as a0 a1 ((a2 &&& 7).setWidth 32) (flags &&& 0x10 != 0)
    setAs as evs
    if got = 0 then syscallRet (-12)
    else
      let f ← rdFlags
      wrFlags (f &&& ~~~fCF)
      wrR rax got

inductive SysOut where
  | ret | exit
  deriving DecidableEq, Repr

def wrGs (v : BitVec 64) : M Unit := Prog.modify fun c => { c with gsBase := v }

def sysMdep (n a0 : BitVec 64) : M SysOut := do
  if n = 3 then
    wrGs a0
    syscallRet 0
  else unimplementedSyscall
  pure .ret

def sysExit (a0 : BitVec 64) : M SysOut := do
  Prog.modify fun c => { c with running := false, exitCode := a0.setWidth 32 }
  pure .exit

def sysBsd (k : Kernel) (n a0 a1 a2 : BitVec 64) : M SysOut := do
  if n = 1 then sysExit a0
  else
    if n = 3 then sysRead k a0 a1 a2
    else if n = 4 then sysWrite k a0 a1 a2
    else if n = 6 then syscallRet (k.close (a0.setWidth 32))
    else if n = 73 then sysMunmap k a0 a1
    else if n = 74 then sysMprotect k a0 a1 a2
    else if n = 75 then syscallRet 0
    else if n = 197 then sysMmap k a0 a1 a2
    else unimplementedSyscall
    pure .ret

def doSyscall (k : Kernel) : M SysOut := do
  let num ← rdR rax
  let a0 ← rdR rdi
  let a1 ← rdR rsi
  let a2 ← rdR rdx
  if syscallClass num = 3 then sysMdep (syscallNumber num) a0
  else if syscallClass num ≠ 2 then
    unimplementedSyscall
    pure .ret
  else sysBsd k (syscallNumber num) a0 a1 a2

end Rashid
