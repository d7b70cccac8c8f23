import Rashid.Decoder

/-!
# Calls into native functions

Arguments are read out of the layout System V put them in. What a native function does is
not modelled; the request made to it is returned to whoever runs the machine.
-/

namespace Rashid

/-- What the translator asks of the Objective-C runtime and the assembled trampolines. -/
structure Runtime where
  trampTable : BitVec 64
  trampStride : BitVec 64
  realClass : BitVec 64 → BitVec 64
  variadicSel : BitVec 64 → Nat
  cstring : BitVec 64 → BitVec 64

def rsdTrampCount : Nat := 512

/-- The trampoline for a guest function: one already handed out, a new one, or 0. -/
def rsdCallbackFor (rt : Runtime) (fn : BitVec 64) : M (BitVec 64) := fun c =>
  if fn = 0 then (0, c)
  else
    match c.targets.findIdx? (· == fn) with
    | some i => (rt.trampTable + BitVec.ofNat 64 i * rt.trampStride, c)
    | none =>
      if rsdTrampCount ≤ c.targets.length then (0, c)
      else (rt.trampTable + BitVec.ofNat 64 c.targets.length * rt.trampStride,
        { c with targets := c.targets ++ [fn] })

/-- The guest function behind a trampoline, or 0. -/
def rsdCallbackTarget (targets : List (BitVec 64)) (index : BitVec 64) : BitVec 64 :=
  targets.getD index.toNat 0

/-- A native function about to be entered: its import, registers and variadic slots. -/
structure NativeCall where
  imp : Nat
  x : List (BitVec 64)
  d : List (BitVec 64)
  slots : List (BitVec 64)
  deriving DecidableEq, Repr

def argOrder : List (Fin 16) := [rdi, rsi, rdx, rcx, r8, r9]

structure SysvReader where
  gp : Nat
  sse : Nat
  stack : BitVec 64
  deriving DecidableEq, Repr

def sysvStack (a : SysvReader) : M (BitVec 64 × SysvReader) := do
  let v ← ld a.stack 8
  pure (v, { a with stack := a.stack + 8 })

def sysvInt (a : SysvReader) : M (BitVec 64 × SysvReader) :=
  match argOrder[a.gp]? with
  | some i => do
    let v ← rdR i
    pure (v, { a with gp := a.gp + 1 })
  | none => sysvStack a

def sysvSse (a : SysvReader) : M (BitVec 64 × SysvReader) :=
  if h : a.sse < 8 then do
    let x ← rdX ⟨a.sse, by omega⟩
    pure (x.lo, { a with sse := a.sse + 1 })
  else sysvStack a

def isRunning : M Bool := Prog.get fun c => c.running

def rdFault : M (Option Fault) := Prog.get fun c => c.fault

def charIn (s : String) (ch : BitVec 64) : Bool := s.toList.any fun k => BitVec.ofNat 64 k.toNat == ch

/-- One directive after its `%`: where the format continues, whether a `*` and an `L` were
seen, and the conversion, 0 when the format or the guest ended first. -/
def marshalDirective : Nat → BitVec 64 → Bool → Bool → M (BitVec 64 × Bool × Bool × BitVec 64)
  | 0, p, star, long => pure (p, star, long, 0)
  | fuel + 1, p, star, long => do
    let ch ← ld p 1
    let go ← isRunning
    if !go || ch == 0 then pure (p + 1, star, long, 0)
    else if charIn "*" ch then marshalDirective fuel (p + 1) true long
    else if charIn "L" ch then marshalDirective fuel (p + 1) star true
    else if charIn "diouxXcspnfFeEgGaA@%" ch then pure (p + 1, star, long, ch)
    else marshalDirective fuel (p + 1) star long

/-- The slots of a conversion: with a printf `*`, its width first. `none` when they do not fit. -/
def marshalSlots (scan star : Bool) (conv : BitVec 64) (a : SysvReader) (slots : List (BitVec 64)) (max : Nat) :
    M (Option (SysvReader × List (BitVec 64))) := do
  if star && decide (max ≤ slots.length) then pure none
  else
    let (a, slots) ←
      if star then do
        let (v, a) ← sysvInt a
        pure (a, slots ++ [v])
      else pure (a, slots)
    if max ≤ slots.length then pure none
    else
      let (v, a) ← if !scan && charIn "fFeEgGaA" conv then sysvSse a else sysvInt a
      pure (some (a, slots ++ [v]))

def marshalLoop (scan : Bool) (max : Nat) :
    Nat → BitVec 64 → SysvReader → List (BitVec 64) → M (Option (List (BitVec 64)))
  | 0, _, _, _ => pure none
  | fuel + 1, p, a, slots => do
    let ch ← ld p 1
    let go ← isRunning
    if !go then pure none
    else if ch = 0 then pure (some slots)
    else if !charIn "%" ch then marshalLoop scan max fuel (p + 1) a slots
    else
      let (p, star, long, conv) ← marshalDirective fuel (p + 1) false false
      if conv = 0 ∨ charIn "%" conv then marshalLoop scan max fuel p a slots
      else if long then pure none
      else if star && scan then marshalLoop scan max fuel p a slots
      else
        let r ← marshalSlots scan star conv a slots max
        match r with
        | none => pure none
        | some (a, slots) => marshalLoop scan max fuel p a slots

/-- One slot for each variadic argument, or `none` for a call that cannot be forwarded. The
bound is the number of addresses a format string could be read from. -/
def marshalFormat (fmt : BitVec 64) (scan : Bool) (a : SysvReader) (max : Nat) : M (Option (List (BitVec 64))) :=
  marshalLoop scan max addressCount fmt a []

def intArgs : M (List (BitVec 64)) := Prog.get fun c => argOrder.map c.r ++ [0, 0]

def floatArgs : M (List (BitVec 64)) := Prog.get fun c =>
  [(c.xmm 0).lo, (c.xmm 1).lo, (c.xmm 2).lo, (c.xmm 3).lo, (c.xmm 4).lo, (c.xmm 5).lo, (c.xmm 6).lo, (c.xmm 7).lo]

def callNative (rt : Runtime) (imp : Nat) (cbarg : Int) (objcrecv : Bool) : M NativeCall := do
  let x ← intArgs
  let x ←
    if 0 ≤ cbarg ∧ cbarg < 6 then do
      let t ← rsdCallbackFor rt (x.getD cbarg.toNat 0)
      pure (x.set cbarg.toNat t)
    else pure x
  let x := if objcrecv then x.set 0 (rt.realClass (x.getD 0 0)) else x
  let d ← floatArgs
  pure ⟨imp, x, d, []⟩

def fixedArgs : Nat → SysvReader → M (List (BitVec 64) × SysvReader)
  | 0, a => pure ([], a)
  | n + 1, a => do
    let (v, a) ← sysvInt a
    let (vs, a) ← fixedArgs n a
    pure (v :: vs, a)

def failVariadic (f : Fault) : M Unit := Prog.modify fun c =>
  { c with fault := some f, faultRip := c.curRip, running := false }

/-- The marshalling proper, once the number of fixed arguments and the format's index are known. -/
def callFormatted (rt : Runtime) (imp : Nat) (sp : VaSpec) (nfixed fmtIndex : Nat) (objcrecv : Bool) :
    M (Option NativeCall) := do
  let sp0 ← rdR rsp
  let (vs, a) ← fixedArgs (min nfixed 8) ⟨0, 0, sp0 + 8⟩
  let x := vs ++ List.replicate (8 - vs.length) 0
  let x := if objcrecv then x.set 0 (rt.realClass (x.getD 0 0)) else x
  let fmt := x.getD fmtIndex 0
  if sp.nsformat && rt.cstring fmt == 0 then
    failVariadic .formatString
    pure none
  else
    let slots ← marshalFormat (if sp.nsformat then rt.cstring fmt else fmt) sp.scan a 64
    match slots with
    | none =>
      let fault ← rdFault
      if fault = none then failVariadic .variadic
      pure none
    | some slots => pure (some ⟨imp, x, List.replicate 8 0, slots⟩)

/-- `objc_msgSend` is variadic only for some selectors, which is decided here. -/
def callNativeVariadic (rt : Runtime) (imp : Nat) (sp : VaSpec) (objcrecv : Bool) : M (Option NativeCall) := do
  if sp.objc then
    let sel ← rdR rsi
    let nfixed := rt.variadicSel sel
    if nfixed = 0 then
      let call ← callNative rt imp (-1) objcrecv
      pure (some call)
    else callFormatted rt imp sp nfixed (nfixed - 1) objcrecv
  else callFormatted rt imp sp sp.nfixed sp.fmt objcrecv

/-- All four result registers are written, then the guest returns to its caller. -/
def finishNativeCall (ret : BitVec 64 × BitVec 64 × BitVec 64 × BitVec 64) : M Unit := do
  wrR rax ret.1
  wrR rdx ret.2.1
  let x0 ← rdX 0
  wrX 0 ({ x0 with lo := ret.2.2.1 })
  let x1 ← rdX 1
  wrX 1 ({ x1 with lo := ret.2.2.2 })
  let v ← pop
  wrRip v

end Rashid
