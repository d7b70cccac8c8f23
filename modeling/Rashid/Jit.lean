import Rashid.A64

/-!
# The block compiler

Flag liveness, the emission of a block with its cut-and-retry loop, and the direct-mapped
cache of compiled blocks. An entry also keeps what it was compiled from, which the source
does not record and nothing here reads back.
-/

namespace Rashid

/-! ### Flag liveness -/

def flAll : BitVec 32 := fCF ||| fPF ||| fAF ||| fZF ||| fSF ||| fOF

/-- `and`, `or`, `xor`, `test`, `imul` and shifts leave AF alone here. -/
def flLogic : BitVec 32 := flAll &&& ~~~fAF

/-- `inc` and `dec` leave CF alone. -/
def flInc : BitVec 32 := flAll &&& ~~~fCF

def ccReads (cc : BitVec 8) : BitVec 32 :=
  match (cc >>> 1) &&& 7 with
  | 0 => fOF
  | 1 => fCF
  | 2 => fZF
  | 3 => fCF ||| fZF
  | 4 => fSF
  | 5 => fPF
  | 6 => fSF ||| fOF
  | _ => fZF ||| fSF ||| fOF

def Op.flagsWritten : Op → BitVec 32
  | .mov => 0
  | .add | .sub | .cmp => flAll
  | .inc | .dec => flInc
  | _ => flLogic

/-- The flags an instruction is certain to overwrite: a shift by cl may write none. -/
def flagsWritten (o : Insn) : BitVec 32 :=
  match o.kind with
  | .rr | .ri | .rm | .mr | .mi => o.op.flagsWritten
  | .imul => flLogic
  | .shift => if o.byCl ∨ o.imm &&& shiftMask o.size = 0 then 0 else flLogic
  | _ => 0

def flagsRead (o : Insn) : BitVec 32 := if o.kind = .jcc ∨ o.kind = .setcc then ccReads o.cc else 0

/-- The instructions with their needs filled in, and what is live before the first. -/
def flagLivenessFrom : List Insn → List Insn × BitVec 32
  | [] => ([], flAll)
  | o :: v =>
    let (v, live) := flagLivenessFrom v
    let w := flagsWritten o
    ({ o with fneed := w &&& live } :: v, (live &&& ~~~w) ||| flagsRead o)

def flagLiveness (v : List Insn) : List Insn := (flagLivenessFrom v).1

/-! ### Compilation -/

def maxInsns : Nat := 48
def maxBlock : Nat := 2048
def arenaSize : Nat := 4 <<< 20

/-- A decoded block: its instructions, whether the last one ends it, and the address behind it. -/
structure Decoded where
  v : List Insn
  ended : Bool
  pc : BitVec 64

/-- Decodes up to `k` instructions from `pc`, 16 executable bytes being asked for at each. -/
def decodeBlock (c : Cpu) : Nat → BitVec 64 → Decoded
  | 0, pc => ⟨[], false, pc⟩
  | k + 1, pc =>
    if rsdAsOk c.as pc 16 rsdProtX then
      match decode (codeOf c pc) pc with
      | none => ⟨[], false, pc⟩
      | some o =>
        if terminates o.kind then ⟨[o], true, o.next⟩
        else
          let d := decodeBlock c k o.next
          { d with v := o :: d.v }
    else ⟨[], false, pc⟩

def isFull : Emit Bool := Prog.get Buf.full

/-- Emits until the buffer is full: how many instructions fitted, and the address behind them. -/
def emitInsns (lk : Link) : List Insn → BitVec 64 → Nat → Emit (Nat × BitVec 64)
  | [], at_, i => pure (i, at_)
  | o :: v, at_, i => do
    putInsn lk o at_
    let full ← isFull
    if full then pure (i, at_) else emitInsns lk v o.next (i + 1)

def startBuf (check : Bool) : Buf := ⟨[], maxBlock - 24, false, check, []⟩

def emitBody (lk : Link) (v : List Insn) (rip : BitVec 64) : Emit (Nat × BitVec 64) := do
  put (.push x30)
  emitInsns lk v rip 0

/-- If the block does not fit, it is cut where it overflowed and compiled again, since the cut
changes what is live at the end. Every turn but the last drops an instruction. -/
def emitLoop (lk : Link) (check : Bool) (rip : BitVec 64) : Nat → Decoded → Buf × Decoded
  | 0, d => (startBuf check, d)
  | fuel + 1, d =>
    let v := flagLiveness d.v
    let r := emitBody lk v rip (startBuf check)
    if r.1.1 = v.length then (r.2, { d with v := v })
    else emitLoop lk check rip fuel ⟨v.take r.1.1, false, r.1.2⟩

/-- The continuation of a block that fell off its end. -/
def fallCode (d : Decoded) : List A64 := if d.ended then [] else immCode x0 d.pc ++ leaveCode

/-- Where a block that a helper's fault stops is left. -/
def faultExitCode : List A64 := [.ldr x0 cpuReg offCurRip] ++ leaveCode

/-- Emits the block's end: the position of the fault exit. -/
def emitExit (d : Decoded) : Emit Nat := do
  puts (fallCode d)
  let exitAt ← here
  puts faultExitCode
  pure exitAt

def patchFix (exitAt : Nat) (fix : List Nat) (out : List A64) : List A64 :=
  fix.foldl (fun out k => out.set k (.cbzW x9 ((exitAt : Int) - k))) out

/-- A compiled block with the instructions in it, or `none` when it is not worth having. -/
def compileBlock (lk : Link) (check : Bool) (c : Cpu) (rip : BitVec 64) : Option (List A64 × List Insn) :=
  let d := decodeBlock c maxInsns rip
  let (b, d) := emitLoop lk check rip (d.v.length + 1) d
  if d.v.length < 2 then none
  else
    let (exitAt, b) := emitExit d { b with max := maxBlock }
    if b.full then none else some (patchFix exitAt b.fix b.out, d.v)

/-! ### The cache -/

/-- What an instruction was compiled from. -/
structure Origin where
  addr : BitVec 64
  bytes : List (BitVec 8)
  deriving DecidableEq, Repr

structure JitEntry where
  tag : BitVec 64
  code : Option (List A64)
  count : Nat
  origin : List Origin

/-- `arena` is not modelled but for how much of it is used: a block is never moved or
overwritten, so an entry holds its code itself. -/
structure Jit where
  size : Nat
  used : Nat
  cache : Fin 4096 → JitEntry

def JitEntry.empty : JitEntry := ⟨0, none, 0, []⟩

def rsdJitInit : Jit := ⟨arenaSize, 0, fun _ => JitEntry.empty⟩

def slotOf (rip : BitVec 64) : Fin 4096 :=
  ⟨((rip * 0x9E3779B97F4A7C15) >>> 52).toNat, by
    rw [BitVec.toNat_ushiftRight, Nat.shiftRight_eq_div_pow]
    have := (rip * 0x9E3779B97F4A7C15).isLt
    omega⟩

def rsdJitCount (j : Jit) (rip : BitVec 64) : Nat :=
  if (j.cache (slotOf rip)).tag = rip then (j.cache (slotOf rip)).count else 0

def Jit.set (j : Jit) (s : Fin 4096) (e : JitEntry) : Jit := { j with cache := Function.update j.cache s e }

/-- The bytes of an instruction, as they are now. -/
def originOf (m : Mem) (addr : BitVec 64) (o : Insn) : Origin := ⟨addr, peek m addr o.len⟩

/-- The instructions of a block that starts at `rip`, one behind the other. -/
def originsFrom (m : Mem) : BitVec 64 → List Insn → List Origin
  | _, [] => []
  | rip, o :: v => originOf m rip o :: originsFrom m o.next v

/-- Nothing compilable here: the tag remembers it. -/
def Jit.bail (j : Jit) (rip : BitVec 64) : Jit :=
  j.set (slotOf rip) { j.cache (slotOf rip) with tag := rip, code := none }

/-- The compiled block for an address, compiled now if that is worthwhile, or `none`. -/
def rsdJitLookup (lk : Link) (check : Bool) (c : Cpu) (rip : BitVec 64) (j : Jit) : Option (List A64) × Jit :=
  let e := j.cache (slotOf rip)
  if e.tag = rip then (e.code, j)
  else if e.code.isSome then (none, j)
  else if (rsdStubIndex c.stubs rip).isSome then (none, j)
  else if rsdAsOk c.as rip 16 rsdProtX = false then (none, j)
  else
    match compileBlock lk check c rip with
    | none => (none, j.bail rip)
    | some (code, v) =>
      if j.size < j.used + code.length * 4 then (none, j)
      else
        (some code,
          { j.set (slotOf rip) ⟨rip, some code, v.length, originsFrom c.mem rip v⟩ with
            used := j.used + code.length * 4 })

end Rashid
