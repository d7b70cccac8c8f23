import Rashid.Step

/-!
# What an instruction is made of

Every instruction of the interpreter is a sequence of the primitives below. A property of a
step is therefore proved once for each primitive.
-/

namespace Rashid.Proofs

/-- The faults that belong to the guest: neither the budget's nor the checker's. -/
class OfGuest (f : Fault) : Prop where
  ne_budget : f ≠ .budget
  ne_disagreed : f ≠ .disagreed

instance : OfGuest .leaRegister := ⟨by decide, by decide⟩
instance : OfGuest .rotate := ⟨by decide, by decide⟩
instance : OfGuest .divideByZero := ⟨by decide, by decide⟩
instance : OfGuest .grp5Far := ⟨by decide, by decide⟩
instance : OfGuest .unimplemented0F := ⟨by decide, by decide⟩
instance : OfGuest .unimplementedOpcode := ⟨by decide, by decide⟩

/-- The primitive actions of `stepInsn`. -/
inductive Prim : ∀ {α : Type}, M α → Prop
  | rdR (i : Fin 16) : Prim (rdR i)
  | wrR (i : Fin 16) (v : BitVec 64) : Prim (wrR i v)
  | rdX (i : Fin 16) : Prim (rdX i)
  | wrX (i : Fin 16) (v : Xmm) : Prim (wrX i v)
  | rdFlags : Prim rdFlags
  | wrFlags (f : BitVec 32) : Prim (wrFlags f)
  | rdRip : Prim rdRip
  | wrRip (v : BitVec 64) : Prim (wrRip v)
  | wrCurRip (v : BitVec 64) : Prim (wrCurRip v)
  | rdGs : Prim rdGs
  | rdFs : Prim rdFs
  | rdCode (a : BitVec 64) : Prim (rdCode a)
  | raise (f : Fault) (rip : BitVec 64) [OfGuest f] : Prim (raise f rip)
  | ld (a : BitVec 64) (n : Nat) : Prim (ld a n)
  | st (a v : BitVec 64) (n : Nat) : Prim (st a v n)
  | ld128 (a : BitVec 64) : Prim (ld128 a)
  | st128 (a : BitVec 64) (v : Xmm) : Prim (st128 a v)

section MemoryFaults

variable (a : BitVec 64) (w : Fault) (c : Cpu)

/-- A memory fault touches what reports it, and stops the guest. -/
lemma memfault_eq : ∃ f rip addr has, (memfault a w c).2 =
    { c with fault := f, faultRip := rip, faultAddr := addr, faultHasAddr := has, running := false } := by
  unfold memfault
  simp only [Prog.modify_apply]
  split
  · exact ⟨_, _, _, _, rfl⟩
  · exact ⟨c.fault, c.faultRip, c.faultAddr, c.faultHasAddr, rfl⟩

lemma memfault_mem : (memfault a w c).2.mem = c.mem := by
  obtain ⟨_, _, _, _, h⟩ := memfault_eq a w c
  rw [h]

lemma memfault_wlog : (memfault a w c).2.wlog = c.wlog := by
  obtain ⟨_, _, _, _, h⟩ := memfault_eq a w c
  rw [h]

end MemoryFaults

/-! ### Sets of primitives

What an instruction does to the flags and to `rip` it does through four primitives, so that a
program which has none of them leaves both alone. -/

/-- Any set of programs that includes the primitives of an instruction. -/
class HasPrim (P : ∀ {α : Type}, M α → Prop) : Prop where
  prim : ∀ {α : Type} {p : M α}, Prim p → P p

instance : HasPrim Prim := ⟨id⟩

/-- One that includes those which neither read nor write the flags or `rip`. -/
class HasWork (P : ∀ {α : Type}, M α → Prop) : Prop where
  rdR (i : Fin 16) : P (rdR i)
  wrR (i : Fin 16) (v : BitVec 64) : P (wrR i v)
  rdX (i : Fin 16) : P (rdX i)
  wrX (i : Fin 16) (v : Xmm) : P (wrX i v)
  rdGs : P rdGs
  rdFs : P rdFs
  rdCode (a : BitVec 64) : P (rdCode a)
  raise (f : Fault) (rip : BitVec 64) [OfGuest f] : P (raise f rip)
  ld (a : BitVec 64) (n : Nat) : P (ld a n)
  st (a v : BitVec 64) (n : Nat) : P (st a v n)
  ld128 (a : BitVec 64) : P (ld128 a)
  st128 (a : BitVec 64) (v : Xmm) : P (st128 a v)

class HasFlags (P : ∀ {α : Type}, M α → Prop) : Prop where
  rdFlags : P rdFlags
  wrFlags (f : BitVec 32) : P (wrFlags f)

instance (P : ∀ {α : Type}, M α → Prop) [HasPrim P] : HasWork P where
  rdR i := HasPrim.prim (.rdR i)
  wrR i v := HasPrim.prim (.wrR i v)
  rdX i := HasPrim.prim (.rdX i)
  wrX i v := HasPrim.prim (.wrX i v)
  rdGs := HasPrim.prim .rdGs
  rdFs := HasPrim.prim .rdFs
  rdCode a := HasPrim.prim (.rdCode a)
  raise f rip := HasPrim.prim (.raise f rip)
  ld a n := HasPrim.prim (.ld a n)
  st a v n := HasPrim.prim (.st a v n)
  ld128 a := HasPrim.prim (.ld128 a)
  st128 a v := HasPrim.prim (.st128 a v)

instance (P : ∀ {α : Type}, M α → Prop) [HasPrim P] : HasFlags P where
  rdFlags := HasPrim.prim .rdFlags
  wrFlags f := HasPrim.prim (.wrFlags f)

section Work

variable {P : ∀ {α : Type}, M α → Prop} [HasWork P]

instance (i : Fin 16) : IsBuilt P (rdR i) := ⟨.prim (HasWork.rdR i)⟩
instance (i : Fin 16) (v : BitVec 64) : IsBuilt P (wrR i v) := ⟨.prim (HasWork.wrR i v)⟩
instance (i : Fin 16) : IsBuilt P (rdX i) := ⟨.prim (HasWork.rdX i)⟩
instance (i : Fin 16) (v : Xmm) : IsBuilt P (wrX i v) := ⟨.prim (HasWork.wrX i v)⟩
instance : IsBuilt P rdGs := ⟨.prim HasWork.rdGs⟩
instance : IsBuilt P rdFs := ⟨.prim HasWork.rdFs⟩
instance (a : BitVec 64) : IsBuilt P (rdCode a) := ⟨.prim (HasWork.rdCode a)⟩
instance (f : Fault) (rip : BitVec 64) [OfGuest f] : IsBuilt P (raise f rip) := ⟨.prim (HasWork.raise f rip)⟩
instance (a : BitVec 64) (n : Nat) : IsBuilt P (ld a n) := ⟨.prim (HasWork.ld a n)⟩
instance (a v : BitVec 64) (n : Nat) : IsBuilt P (st a v n) := ⟨.prim (HasWork.st a v n)⟩
instance (a : BitVec 64) : IsBuilt P (ld128 a) := ⟨.prim (HasWork.ld128 a)⟩
instance (a : BitVec 64) (v : Xmm) : IsBuilt P (st128 a v) := ⟨.prim (HasWork.st128 a v)⟩

/-! ### Registers, operands and the decoder -/

instance (i : Fin 16) (v : BitVec 64) (n : Nat) : IsBuilt P (setreg i v n) := by
  unfold setreg; infer_instance

instance (i : Fin 16) (n : Nat) : IsBuilt P (getreg i n) := by
  unfold getreg; infer_instance

instance (i : Fin 16) (rex : Bool) : IsBuilt P (getreg8 i rex) := by
  unfold getreg8; infer_instance

instance (i : Fin 16) (v : BitVec 64) (rex : Bool) : IsBuilt P (setreg8 i v rex) := by
  unfold setreg8; infer_instance

instance (d : Dec) (k : Nat) : IsBuilt P (codeAt d k) := by
  unfold codeAt; infer_instance

instance (d : Dec) : IsBuilt P (fetch8 d) := by
  unfold fetch8; infer_instance

instance (d : Dec) : IsBuilt P (fetch16 d) := by
  unfold fetch16; infer_instance

instance (d : Dec) : IsBuilt P (fetch32 d) := by
  unfold fetch32; infer_instance

instance (d : Dec) : IsBuilt P (fetch64 d) := by
  unfold fetch64; infer_instance

instance (d : Dec) (reg : Fin 16) (mod : BitVec 8) (addr : BitVec 64) : IsBuilt P (modrmDisp d reg mod addr) := by
  unfold modrmDisp; infer_instance

instance (d : Dec) (reg : Fin 16) (mod : BitVec 8) : IsBuilt P (modrmSib d reg mod) := by
  unfold modrmSib; infer_instance

instance (d : Dec) : IsBuilt P (modrm d) := by
  unfold modrm; infer_instance

instance (d : Dec) : IsBuilt P (modrmExt d) := by
  unfold modrmExt; infer_instance

instance (d : Dec) : IsBuilt P (imm8 d) := by
  unfold imm8; infer_instance

instance (d : Dec) : IsBuilt P (imm8s d) := by
  unfold imm8s; infer_instance

instance (d : Dec) : IsBuilt P (imm16 d) := by
  unfold imm16; infer_instance

instance (d : Dec) : IsBuilt P (imm32s d) := by
  unfold imm32s; infer_instance

instance (d : Dec) : IsBuilt P (imm32 d) := by
  unfold imm32; infer_instance

instance (o : Opnd) (n : Nat) (rex : Bool) : IsBuilt P (rd o n rex) := by
  cases o <;> simp only [rd] <;> infer_instance

instance (o : Opnd) (v : BitVec 64) (n : Nat) (rex : Bool) : IsBuilt P (wr o v n rex) := by
  cases o <;> simp only [wr] <;> infer_instance

instance (v : BitVec 64) : IsBuilt P (push v) := by
  unfold push; infer_instance

instance : IsBuilt P pop := by
  unfold pop; infer_instance

instance (fuel : Nat) (d : Dec) : IsBuilt P (prefixLoop fuel d) := by
  induction fuel generalizing d with
  | zero => exact ⟨.pure d⟩
  | succ fuel ih =>
    refine ⟨.bind (IsBuilt.built (P := P)) fun b => ?_⟩
    cases prefixOf b with
    | none => exact .pure d
    | some x => exact IsBuilt.built

instance (d : Dec) : IsBuilt P (prefixes d) := by
  unfold prefixes; infer_instance

/-! ### The work of SSE instructions, products and quotients -/

instance (o : Opnd) : IsBuilt P (xrd o) := by
  cases o <;> simp only [xrd] <;> infer_instance

instance (o : Opnd) (v : Xmm) : IsBuilt P (xwr o v) := by
  cases o <;> simp only [xwr] <;> infer_instance

instance (o : Opnd) (n : Nat) : IsBuilt P (xrdLo o n) := by
  cases o <;> simp only [xrdLo] <;> infer_instance

instance (o : Opnd) (n : Nat) : IsBuilt P (grd o n) := by
  cases o <;> simp only [grd] <;> infer_instance

instance (o : Opnd) (v : BitVec 64) (n : Nat) : IsBuilt P (gwr o v n) := by
  cases o <;> simp only [gwr] <;> infer_instance

instance (dst src : Opnd) (n : Nat) : IsBuilt P (sseMovScalar dst src n) := by
  cases dst <;> simp only [sseMovScalar] <;> infer_instance

instance (mand op2 : BitVec 8) (reg : Fin 16) (rm : Opnd) : IsBuilt P (sseMovExec mand op2 reg rm) := by
  unfold sseMovExec; infer_instance

instance (op2 : BitVec 8) (reg : Fin 16) (rm : Opnd) : IsBuilt P (sseBitwiseExec op2 reg rm) := by
  unfold sseBitwiseExec; infer_instance

instance (fp : Fp) (mand op2 : BitVec 8) (reg : Fin 16) (rm : Opnd) :
    IsBuilt P (sseArithExec fp mand op2 reg rm) := by
  unfold sseArithExec; infer_instance

instance (fp : Fp) (mand : BitVec 8) (n : Nat) (reg : Fin 16) (rm : Opnd) :
    IsBuilt P (sseCvtFromExec fp mand n reg rm) := by
  unfold sseCvtFromExec; infer_instance

instance (fp : Fp) (mand op2 : BitVec 8) (n : Nat) (reg : Fin 16) (rm : Opnd) :
    IsBuilt P (sseCvtToExec fp mand op2 n reg rm) := by
  unfold sseCvtToExec; infer_instance

instance (fp : Fp) (mand : BitVec 8) (reg : Fin 16) (rm : Opnd) : IsBuilt P (sseCvtFloatExec fp mand reg rm) := by
  unfold sseCvtFloatExec; infer_instance

instance (fp : Fp) (mand imm : BitVec 8) (reg : Fin 16) (rm : Opnd) : IsBuilt P (sseCmpExec fp mand imm reg rm) := by
  unfold sseCmpExec; infer_instance

instance (p : BitVec 128) (n : Nat) : IsBuilt P (setProduct p n) := by
  unfold setProduct; infer_instance

instance (q r : BitVec 128) (n : Nat) : IsBuilt P (setQuotient q r n) := by
  unfold setQuotient; infer_instance

end Work

section Flags

variable {P : ∀ {α : Type}, M α → Prop} [HasWork P] [HasFlags P]

instance : IsBuilt P rdFlags := ⟨.prim HasFlags.rdFlags⟩
instance (f : BitVec 32) : IsBuilt P (wrFlags f) := ⟨.prim (HasFlags.wrFlags f)⟩

instance (g : BitVec 32 → BitVec 32) : IsBuilt P (modFlags g) := by
  unfold modFlags; infer_instance

instance : IsBuilt P carryIn := by
  unfold carryIn; infer_instance

instance (o : Alu) (a b : BitVec 64) (n : Nat) (w : BitVec 64 → M Unit) [∀ r, IsBuilt P (w r)] :
    IsBuilt P (aluExec o a b n w) := by
  cases o <;> simp only [aluExec] <;> infer_instance

instance (fp : Fp) (mand : BitVec 8) (reg : Fin 16) (rm : Opnd) : IsBuilt P (sseComisExec fp mand reg rm) := by
  unfold sseComisExec; infer_instance

instance (ext : BitVec 8) (a imm : BitVec 64) (n : Nat) (rm : Opnd) (d : Dec) :
    IsBuilt P (grp3Exec ext a imm n rm d) := by
  unfold grp3Exec
  split <;> infer_instance

end Flags

section Primitives

variable {P : ∀ {α : Type}, M α → Prop} [HasPrim P] [HasWork P] [HasFlags P]

instance : IsBuilt P rdRip := ⟨.prim (HasPrim.prim .rdRip)⟩
instance (v : BitVec 64) : IsBuilt P (wrRip v) := ⟨.prim (HasPrim.prim (.wrRip v))⟩
instance (v : BitVec 64) : IsBuilt P (wrCurRip v) := ⟨.prim (HasPrim.prim (.wrCurRip v))⟩

instance (d : Dec) : IsBuilt P (modrmAdvance d) := by
  unfold modrmAdvance; infer_instance

instance (d : Dec) : IsBuilt P (modrmImmAdvance d) := by
  unfold modrmImmAdvance; infer_instance

/-! ### SSE -/

instance (d : Dec) (op2 : BitVec 8) : IsBuilt P (sseMov d op2) := by
  unfold sseMov; infer_instance

instance (d : Dec) (op2 : BitVec 8) : IsBuilt P (sseMovdq d op2) := by
  unfold sseMovdq; infer_instance

instance (d : Dec) : IsBuilt P (sseMovdIn d) := by
  unfold sseMovdIn; infer_instance

instance (d : Dec) : IsBuilt P (sseMovdOut d) := by
  unfold sseMovdOut; infer_instance

instance (d : Dec) : IsBuilt P (sseMovq d) := by
  unfold sseMovq
  refine ⟨.ite (.pure _) (.bind IsBuilt.built fun x => ?_)⟩
  obtain ⟨reg, rm, d⟩ := x
  cases rm <;> exact IsBuilt.built

instance (d : Dec) (op2 : BitVec 8) : IsBuilt P (sseBitwise d op2) := by
  unfold sseBitwise; infer_instance

instance (fp : Fp) (d : Dec) (op2 : BitVec 8) : IsBuilt P (sseArith fp d op2) := by
  unfold sseArith; infer_instance

instance (fp : Fp) (d : Dec) : IsBuilt P (sseComis fp d) := by
  unfold sseComis; infer_instance

instance (fp : Fp) (d : Dec) : IsBuilt P (sseCvtFrom fp d) := by
  unfold sseCvtFrom; infer_instance

instance (fp : Fp) (d : Dec) (op2 : BitVec 8) : IsBuilt P (sseCvtTo fp d op2) := by
  unfold sseCvtTo; infer_instance

instance (fp : Fp) (d : Dec) : IsBuilt P (sseCvtFloat fp d) := by
  unfold sseCvtFloat; infer_instance

instance (d : Dec) (op2 : BitVec 8) : IsBuilt P (ssePcmpeq d op2) := by
  unfold ssePcmpeq; infer_instance

instance (d : Dec) : IsBuilt P (ssePmovmskb d) := by
  unfold ssePmovmskb
  refine ⟨.ite (.pure _) (.bind IsBuilt.built fun x => ?_)⟩
  obtain ⟨reg, rm, d⟩ := x
  cases rm <;> exact IsBuilt.built

instance (d : Dec) : IsBuilt P (ssePshufd d) := by
  unfold ssePshufd; infer_instance

instance (d : Dec) (op2 : BitVec 8) : IsBuilt P (sseUnpck d op2) := by
  unfold sseUnpck; infer_instance

instance (fp : Fp) (d : Dec) : IsBuilt P (sseCmp fp d) := by
  unfold sseCmp; infer_instance

instance (d : Dec) : IsBuilt P (ssePextrw d) := by
  unfold ssePextrw
  refine ⟨.ite (.pure _) (.bind IsBuilt.built fun x => ?_)⟩
  obtain ⟨reg, rm, imm, d⟩ := x
  cases rm <;> exact IsBuilt.built

instance (fp : Fp) (d : Dec) (op2 : BitVec 8) : IsBuilt P (sseExec fp d op2) := by
  unfold sseExec
  cases sseClass op2 <;> infer_instance

/-! ### The switch of `step` -/

instance (op : BitVec 8) (d : Dec) : IsBuilt P (stepAluRow op d) := by
  unfold stepAluRow; infer_instance

instance (op : BitVec 8) (d : Dec) : IsBuilt P (stepAluEax op d) := by
  unfold stepAluEax; infer_instance

instance (op : BitVec 8) (d : Dec) : IsBuilt P (stepTestEax op d) := by
  unfold stepTestEax; infer_instance

instance (op : BitVec 8) (d : Dec) : IsBuilt P (stepPushReg op d) := by
  unfold stepPushReg; infer_instance

instance (op : BitVec 8) (d : Dec) : IsBuilt P (stepPopReg op d) := by
  unfold stepPopReg; infer_instance

instance (d : Dec) : IsBuilt P (stepMovsxd d) := by
  unfold stepMovsxd; infer_instance

instance (op : BitVec 8) (d : Dec) : IsBuilt P (stepPushImm op d) := by
  unfold stepPushImm; infer_instance

instance (op : BitVec 8) (d : Dec) : IsBuilt P (stepImulImm op d) := by
  unfold stepImulImm; infer_instance

instance (op : BitVec 8) (d : Dec) : IsBuilt P (stepJcc8 op d) := by
  unfold stepJcc8; infer_instance

instance (op : BitVec 8) (d : Dec) : IsBuilt P (stepGrp1 op d) := by
  unfold stepGrp1; infer_instance

instance (d : Dec) : IsBuilt P (stepXchg d) := by
  unfold stepXchg; infer_instance

instance (d : Dec) : IsBuilt P (stepLea d) := by
  unfold stepLea
  refine ⟨.bind IsBuilt.built fun x => ?_⟩
  obtain ⟨reg, rm, d⟩ := x
  cases rm <;> exact IsBuilt.built

instance (d : Dec) : IsBuilt P (stepPopRm d) := by
  unfold stepPopRm; infer_instance

instance (d : Dec) : IsBuilt P (stepNop d) := by
  unfold stepNop; infer_instance

instance (d : Dec) : IsBuilt P (stepPushfq d) := by
  unfold stepPushfq; infer_instance

instance (d : Dec) : IsBuilt P (stepPopfq d) := by
  unfold stepPopfq; infer_instance

instance (d : Dec) : IsBuilt P (stepCwde d) := by
  unfold stepCwde; infer_instance

instance (d : Dec) : IsBuilt P (stepCdq d) := by
  unfold stepCdq; infer_instance

instance (op : BitVec 8) (d : Dec) : IsBuilt P (stepMovRegImm8 op d) := by
  unfold stepMovRegImm8; infer_instance

instance (op : BitVec 8) (d : Dec) : IsBuilt P (stepMovRegImm op d) := by
  unfold stepMovRegImm; infer_instance

instance (op : BitVec 8) (d : Dec) : IsBuilt P (stepShift op d) := by
  unfold stepShift
  refine ⟨.bind IsBuilt.built fun x => ?_⟩
  obtain ⟨ext, rm, d⟩ := x
  refine .ite IsBuilt.built (.ite IsBuilt.built IsBuilt.built)

instance (d : Dec) : IsBuilt P (stepRetImm d) := by
  unfold stepRetImm; infer_instance

instance (d : Dec) : IsBuilt P (stepRet d) := by
  unfold stepRet; infer_instance

instance (op : BitVec 8) (d : Dec) : IsBuilt P (stepMovRmImm op d) := by
  unfold stepMovRmImm; infer_instance

instance (d : Dec) : IsBuilt P (stepLeave d) := by
  unfold stepLeave; infer_instance

instance (d : Dec) : IsBuilt P (stepCall d) := by
  unfold stepCall; infer_instance

instance (op : BitVec 8) (d : Dec) : IsBuilt P (stepJmp op d) := by
  unfold stepJmp; infer_instance

instance (op : BitVec 8) (d : Dec) : IsBuilt P (stepGrp3 op d) := by
  unfold stepGrp3; infer_instance

instance (ext : BitVec 8) (a : BitVec 64) (n : Nat) (rm : Opnd) (d : Dec) :
    IsBuilt P (grp5Exec ext a n rm d) := by
  unfold grp5Exec
  split <;> infer_instance

instance (op : BitVec 8) (d : Dec) : IsBuilt P (stepGrp5 op d) := by
  unfold stepGrp5; infer_instance

instance (op2 : BitVec 8) (d : Dec) : IsBuilt P (stepSetcc op2 d) := by
  unfold stepSetcc; infer_instance

instance (op2 : BitVec 8) (d : Dec) : IsBuilt P (stepCmov op2 d) := by
  unfold stepCmov; infer_instance

instance (op2 : BitVec 8) (d : Dec) : IsBuilt P (stepShld op2 d) := by
  unfold stepShld
  refine ⟨.bind IsBuilt.built fun x => ?_⟩
  obtain ⟨reg, rm, d⟩ := x
  exact .ite IsBuilt.built IsBuilt.built

instance (d : Dec) : IsBuilt P (stepImul d) := by
  unfold stepImul; infer_instance

instance (op2 : BitVec 8) (d : Dec) : IsBuilt P (stepMovx op2 d) := by
  unfold stepMovx; infer_instance

instance (op2 : BitVec 8) (d : Dec) : IsBuilt P (stepJcc32 op2 d) := by
  unfold stepJcc32; infer_instance

instance (op2 : BitVec 8) (d : Dec) : IsBuilt P (stepTwoByteGp op2 d) := by
  unfold stepTwoByteGp
  cases twoClass op2 <;> infer_instance

instance (fp : Fp) (d : Dec) : IsBuilt P (stepTwoByte fp d) := by
  unfold stepTwoByte; infer_instance

instance (op : BitVec 8) (d : Dec) (k : OpClass) : IsBuilt P (stepOneByte op d k) := by
  cases k <;> simp only [stepOneByte] <;> infer_instance

instance (fp : Fp) (op : BitVec 8) (d : Dec) : IsBuilt P (stepOp fp op d) := by
  unfold stepOp
  cases opClass op <;> infer_instance

instance (fp : Fp) : IsBuilt P (stepInsn fp) := by
  unfold stepInsn; infer_instance

end Primitives

end Rashid.Proofs
