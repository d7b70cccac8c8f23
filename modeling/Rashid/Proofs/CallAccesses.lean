import Rashid.Accesses
import Rashid.Native

/-!
# The accesses of a call
-/

namespace Rashid.Proofs

instance (a : BitVec 64) (n : Nat) : Traced Accounts (ld a n) := tracedLd .data a n

instance : Traced Accounts isRunning := .get _
instance : Traced Accounts rdFault := .get _

instance (a : SysvReader) : Traced Accounts (sysvStack a) := by
  unfold sysvStack; infer_instance

/-- An integer argument from its register, or from the stack. -/
def sysvIntFrom (a : SysvReader) : Option (Fin 16) → M (BitVec 64 × SysvReader)
  | some i => do
    let v ← rdR i
    pure (v, { a with gp := a.gp + 1 })
  | none => sysvStack a

instance (a : SysvReader) (i : Option (Fin 16)) : Traced Accounts (sysvIntFrom a i) := by
  cases i <;> (unfold sysvIntFrom; infer_instance)

instance (a : SysvReader) : Traced Accounts (sysvInt a) :=
  inferInstanceAs (Traced Accounts (sysvIntFrom a argOrder[a.gp]?))

instance (a : SysvReader) : Traced Accounts (sysvSse a) := by
  unfold sysvSse; infer_instance

instance marshalDirectiveTraced (fuel : Nat) (p : BitVec 64) (star long : Bool) :
    Traced Accounts (marshalDirective fuel p star long) := by
  match fuel with
  | 0 => exact .pure _
  | fuel + 1 =>
    have ih := marshalDirectiveTraced fuel
    unfold marshalDirective
    infer_instance

instance (scan star : Bool) (conv : BitVec 64) (a : SysvReader) (slots : List (BitVec 64)) (max : Nat) :
    Traced Accounts (marshalSlots scan star conv a slots max) := by
  unfold marshalSlots; infer_instance

section Loop

variable (scan : Bool) (max fuel : Nat)
  (next : BitVec 64 → SysvReader → List (BitVec 64) → M (Option (List (BitVec 64))))
  [hnext : ∀ p a slots, Traced Accounts (next p a slots)]

/-- The loop over the format goes on as `next` behind a conversion whose slots are there. -/
def marshalOn (p : BitVec 64) : Option (SysvReader × List (BitVec 64)) → M (Option (List (BitVec 64)))
  | none => pure none
  | some (a, slots) => next p a slots

instance (p : BitVec 64) (r : Option (SysvReader × List (BitVec 64))) : Traced Accounts (marshalOn next p r) :=
  match r with
  | none => .pure _
  | some r => hnext p r.1 r.2

/-- What is done with a directive. -/
def marshalConv (a : SysvReader) (slots : List (BitVec 64)) (x : BitVec 64 × Bool × Bool × BitVec 64) :
    M (Option (List (BitVec 64))) :=
  if x.2.2.2 = 0 ∨ charIn "%" x.2.2.2 then next x.1 a slots
  else if x.2.2.1 then pure none
  else if x.2.1 && scan then next x.1 a slots
  else do
    let r ← marshalSlots scan x.2.1 x.2.2.2 a slots max
    marshalOn next x.1 r

instance (a : SysvReader) (slots : List (BitVec 64)) (x : BitVec 64 × Bool × Bool × BitVec 64) :
    Traced Accounts (marshalConv scan max next a slots x) := by
  unfold marshalConv; infer_instance

/-- One turn of the loop. -/
def marshalTurn (p : BitVec 64) (a : SysvReader) (slots : List (BitVec 64)) : M (Option (List (BitVec 64))) := do
  let ch ← ld p 1
  let go ← isRunning
  if !go then pure none
  else if ch = 0 then pure (some slots)
  else if !charIn "%" ch then next (p + 1) a slots
  else
    let x ← marshalDirective fuel (p + 1) false false
    marshalConv scan max next a slots x

instance (p : BitVec 64) (a : SysvReader) (slots : List (BitVec 64)) :
    Traced Accounts (marshalTurn scan max fuel next p a slots) := by
  unfold marshalTurn; infer_instance

end Loop

instance marshalLoopTraced (scan : Bool) (max fuel : Nat) (p : BitVec 64) (a : SysvReader) (slots : List (BitVec 64)) :
    Traced Accounts (marshalLoop scan max fuel p a slots) := by
  match fuel with
  | 0 => exact .pure _
  | fuel + 1 =>
    have ih := marshalLoopTraced scan max fuel
    exact inferInstanceAs (Traced Accounts (marshalTurn scan max fuel (marshalLoop scan max fuel) p a slots))

instance (fmt : BitVec 64) (scan : Bool) (a : SysvReader) (max : Nat) :
    Traced Accounts (marshalFormat fmt scan a max) := by
  unfold marshalFormat; infer_instance

end Rashid.Proofs
