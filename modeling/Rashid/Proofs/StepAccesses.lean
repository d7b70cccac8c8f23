import Rashid.Accesses
import Rashid.Proofs.Operands
import Rashid.Proofs.RmOperand

/-!
# The accesses of an instruction

Every instruction of the interpreter with its events, put together from those of the primitives.
-/

namespace Rashid.Proofs

/-! ### Registers and the decoder -/

instance (a : BitVec 64) : Traced Accounts (rdCode a) := .quiet fun _ => rfl
instance : Traced Accounts rdGs := .quiet fun _ => rfl
instance : Traced Accounts rdFs := .quiet fun _ => rfl

instance (i : Fin 16) (v : BitVec 64) (n : Nat) : Traced Accounts (setreg i v n) := .quiet fun _ => rfl

instance (i : Fin 16) (n : Nat) : Traced Accounts (getreg i n) := .quiet fun _ => rfl

instance (i : Fin 16) (rex : Bool) : Traced Accounts (getreg8 i rex) := .quiet fun c => by
  unfold getreg8
  split <;> rfl

instance (i : Fin 16) (v : BitVec 64) (rex : Bool) : Traced Accounts (setreg8 i v rex) := .quiet fun c => by
  unfold setreg8
  split <;> rfl

instance (d : Dec) : Traced Accounts (fetch8 d) := .quiet fun _ => rfl
instance (d : Dec) : Traced Accounts (fetch16 d) := .quiet fun _ => rfl
instance (d : Dec) : Traced Accounts (fetch32 d) := .quiet fun _ => rfl
instance (d : Dec) : Traced Accounts (fetch64 d) := .quiet fun _ => rfl
instance (d : Dec) : Traced Accounts (imm8 d) := .quiet fun _ => rfl
instance (d : Dec) : Traced Accounts (imm8s d) := .quiet fun _ => rfl
instance (d : Dec) : Traced Accounts (imm16 d) := .quiet fun _ => rfl
instance (d : Dec) : Traced Accounts (imm32s d) := .quiet fun _ => rfl
instance (d : Dec) : Traced Accounts (imm32 d) := .quiet fun _ => rfl

instance (d : Dec) : Traced Accounts (modrm d) := .quiet fun c => by
  rw [modrm_eval]
  rfl

instance (d : Dec) : Traced Accounts (modrmExt d) := .quiet fun c => by
  rw [modrmExt_eval]
  rfl

instance (d : Dec) : Traced Accounts (modrmAdvance d) := .quiet fun c => by
  rw [modrmAdvance_eval]
  rfl

instance (d : Dec) : Traced Accounts (modrmImmAdvance d) := .quiet fun c => by
  rw [modrmImmAdvance_eval]
  rfl

instance (d : Dec) : Traced Accounts (prefixes d) := .quiet fun c => by
  obtain ⟨k, heval, -⟩ := prefixLoop_eval c addressCount d
  rw [prefixes_of_loop heval]
  rfl

instance (g : BitVec 32 → BitVec 32) : Traced Accounts (modFlags g) := .quiet fun _ => rfl

instance : Traced Accounts carryIn := .quiet fun _ => rfl

instance (p : BitVec 128) (n : Nat) : Traced Accounts (setProduct p n) := .quiet fun c => by
  unfold setProduct
  by_cases h : 1 < n
  · simp only [h, if_true]
    rfl
  · simp only [h, if_false]
    rfl

instance (q r : BitVec 128) (n : Nat) : Traced Accounts (setQuotient q r n) := .quiet fun _ => rfl

/-! ### Operands and the stack -/

instance (o : Opnd) (n : Nat) (rex : Bool) : Traced Accounts (rd o n rex) := by
  cases o with
  | reg i => exact .quiet fun c => by rw [rd_reg_eval]; rfl
  | mem addr seg => exact tracedLd .operand (addr + seg) n
  | ripRel disp seg => exact tracedLd .operand (disp + seg) n

instance (o : Opnd) (v : BitVec 64) (n : Nat) (rex : Bool) : Traced Accounts (wr o v n rex) := by
  cases o with
  | reg i => exact .quiet fun c => by rw [wr_reg_eval]; rfl
  | mem addr seg => exact tracedSt .operand (addr + seg) v n
  | ripRel disp seg => exact tracedSt .operand (disp + seg) v n

instance (v : BitVec 64) : Traced Accounts (push v) := by
  have (a : BitVec 64) := tracedSt .stack a v 8
  unfold push; infer_instance

instance : Traced Accounts pop := by
  have (a : BitVec 64) := tracedLd .stack a 8
  unfold pop; infer_instance

instance (o : Alu) (a b : BitVec 64) (n : Nat) (w : BitVec 64 → M Unit) [∀ r, Traced Accounts (w r)] :
    Traced Accounts (aluExec o a b n w) := by
  cases o <;> (unfold aluExec; infer_instance)

/-! ### SSE -/

instance (o : Opnd) : Traced Accounts (xrd o) := by
  cases o with
  | reg i => exact inferInstanceAs (Traced Accounts (rdX i))
  | mem addr seg => exact tracedLd128 .operand (addr + seg)
  | ripRel disp seg => exact tracedLd128 .operand (disp + seg)

instance (o : Opnd) (v : Xmm) : Traced Accounts (xwr o v) := by
  cases o with
  | reg i => exact inferInstanceAs (Traced Accounts (wrX i v))
  | mem addr seg => exact tracedSt128 .operand (addr + seg) v
  | ripRel disp seg => exact tracedSt128 .operand (disp + seg) v

instance (o : Opnd) (n : Nat) : Traced Accounts (xrdLo o n) := by
  cases o with
  | reg i => unfold xrdLo; infer_instance
  | mem addr seg => exact tracedLd .operand (addr + seg) n
  | ripRel disp seg => exact tracedLd .operand (disp + seg) n

instance (o : Opnd) (n : Nat) : Traced Accounts (grd o n) := by
  cases o with
  | reg i => exact inferInstanceAs (Traced Accounts (getreg i n))
  | mem addr seg => exact tracedLd .operand (addr + seg) n
  | ripRel disp seg => exact tracedLd .operand (disp + seg) n

instance (o : Opnd) (v : BitVec 64) (n : Nat) : Traced Accounts (gwr o v n) := by
  cases o with
  | reg i => exact inferInstanceAs (Traced Accounts (setreg i v n))
  | mem addr seg => exact tracedSt .operand (addr + seg) v n
  | ripRel disp seg => exact tracedSt .operand (disp + seg) v n

instance (dst src : Opnd) (n : Nat) : Traced Accounts (sseMovScalar dst src n) := by
  have (a v : BitVec 64) := tracedSt .operand a v n
  cases dst <;> (unfold sseMovScalar; infer_instance)

instance (mand op2 : BitVec 8) (reg : Fin 16) (rm : Opnd) : Traced Accounts (sseMovExec mand op2 reg rm) := by
  unfold sseMovExec; infer_instance

instance (op2 : BitVec 8) (reg : Fin 16) (rm : Opnd) : Traced Accounts (sseBitwiseExec op2 reg rm) := by
  unfold sseBitwiseExec; infer_instance

instance (fp : Fp) (mand op2 : BitVec 8) (reg : Fin 16) (rm : Opnd) :
    Traced Accounts (sseArithExec fp mand op2 reg rm) := by
  unfold sseArithExec; infer_instance

instance (fp : Fp) (mand : BitVec 8) (reg : Fin 16) (rm : Opnd) : Traced Accounts (sseComisExec fp mand reg rm) := by
  unfold sseComisExec; infer_instance

instance (fp : Fp) (mand : BitVec 8) (n : Nat) (reg : Fin 16) (rm : Opnd) :
    Traced Accounts (sseCvtFromExec fp mand n reg rm) := by
  unfold sseCvtFromExec; infer_instance

instance (fp : Fp) (mand op2 : BitVec 8) (n : Nat) (reg : Fin 16) (rm : Opnd) :
    Traced Accounts (sseCvtToExec fp mand op2 n reg rm) := by
  unfold sseCvtToExec; infer_instance

instance (fp : Fp) (mand : BitVec 8) (reg : Fin 16) (rm : Opnd) :
    Traced Accounts (sseCvtFloatExec fp mand reg rm) := by
  unfold sseCvtFloatExec; infer_instance

instance (fp : Fp) (mand imm : BitVec 8) (reg : Fin 16) (rm : Opnd) :
    Traced Accounts (sseCmpExec fp mand imm reg rm) := by
  unfold sseCmpExec; infer_instance

instance (d : Dec) (op2 : BitVec 8) : Traced Accounts (sseMov d op2) := by
  unfold sseMov; infer_instance

instance (d : Dec) (op2 : BitVec 8) : Traced Accounts (sseMovdq d op2) := by
  unfold sseMovdq; infer_instance

instance (d : Dec) : Traced Accounts (sseMovdIn d) := by
  unfold sseMovdIn; infer_instance

instance (d : Dec) : Traced Accounts (sseMovdOut d) := by
  unfold sseMovdOut; infer_instance

instance (d : Dec) : Traced Accounts (sseMovq d) := by
  have (a v : BitVec 64) := tracedSt .operand a v 8
  unfold sseMovq
  refine .cond inferInstance (.seq inferInstance fun x => ?_)
  obtain ⟨reg, rm, d⟩ := x
  cases rm <;> infer_instance

instance (d : Dec) (op2 : BitVec 8) : Traced Accounts (sseBitwise d op2) := by
  unfold sseBitwise; infer_instance

instance (fp : Fp) (d : Dec) (op2 : BitVec 8) : Traced Accounts (sseArith fp d op2) := by
  unfold sseArith; infer_instance

instance (fp : Fp) (d : Dec) : Traced Accounts (sseComis fp d) := by
  unfold sseComis; infer_instance

instance (fp : Fp) (d : Dec) : Traced Accounts (sseCvtFrom fp d) := by
  unfold sseCvtFrom; infer_instance

instance (fp : Fp) (d : Dec) (op2 : BitVec 8) : Traced Accounts (sseCvtTo fp d op2) := by
  unfold sseCvtTo; infer_instance

instance (fp : Fp) (d : Dec) : Traced Accounts (sseCvtFloat fp d) := by
  unfold sseCvtFloat; infer_instance

instance (d : Dec) (op2 : BitVec 8) : Traced Accounts (ssePcmpeq d op2) := by
  unfold ssePcmpeq; infer_instance

instance (d : Dec) : Traced Accounts (ssePmovmskb d) := by
  unfold ssePmovmskb
  refine .cond inferInstance (.seq inferInstance fun x => ?_)
  obtain ⟨reg, rm, d⟩ := x
  cases rm <;> infer_instance

instance (d : Dec) : Traced Accounts (ssePshufd d) := by
  unfold ssePshufd; infer_instance

instance (d : Dec) (op2 : BitVec 8) : Traced Accounts (sseUnpck d op2) := by
  unfold sseUnpck; infer_instance

instance (fp : Fp) (d : Dec) : Traced Accounts (sseCmp fp d) := by
  unfold sseCmp; infer_instance

instance (d : Dec) : Traced Accounts (ssePextrw d) := by
  unfold ssePextrw
  refine .cond inferInstance (.seq inferInstance fun x => ?_)
  obtain ⟨reg, rm, imm, d⟩ := x
  cases rm <;> infer_instance

/-- The cases of `sse_exec`, by the class of the opcode. -/
def sseCase (fp : Fp) (d : Dec) (op2 : BitVec 8) : SseClass → M (Bool × Dec)
  | .mov => sseMov d op2
  | .movdq => sseMovdq d op2
  | .movdIn => sseMovdIn d
  | .movdOut => sseMovdOut d
  | .movq => sseMovq d
  | .bitwise => sseBitwise d op2
  | .arith => sseArith fp d op2
  | .comis => sseComis fp d
  | .cvtFrom => sseCvtFrom fp d
  | .cvtTo => sseCvtTo fp d op2
  | .cvtFloat => sseCvtFloat fp d
  | .pcmpeq => ssePcmpeq d op2
  | .pmovmskb => ssePmovmskb d
  | .pshufd => ssePshufd d
  | .unpck => sseUnpck d op2
  | .cmp => sseCmp fp d
  | .pextrw => ssePextrw d
  | .none => pure (false, d)

instance (fp : Fp) (d : Dec) (op2 : BitVec 8) (k : SseClass) : Traced Accounts (sseCase fp d op2 k) := by
  cases k <;> (unfold sseCase; infer_instance)

instance (fp : Fp) (d : Dec) (op2 : BitVec 8) : Traced Accounts (sseExec fp d op2) :=
  inferInstanceAs (Traced Accounts (sseCase fp d op2 (sseClass op2)))

/-! ### The switch of `step` -/

instance (o : Alu) (a b : BitVec 64) (n : Nat) (w : BitVec 64 → M Unit) [∀ r, Traced Accounts (w r)] :
    Traced Accounts (aluExec o a b n w) := by
  cases o <;> (unfold aluExec; infer_instance)

instance (ext : BitVec 8) (a imm : BitVec 64) (n : Nat) (rm : Opnd) (d : Dec) :
    Traced Accounts (grp3Exec ext a imm n rm d) := by
  unfold grp3Exec
  split <;> infer_instance

instance (ext : BitVec 8) (a : BitVec 64) (n : Nat) (rm : Opnd) (d : Dec) : Traced Accounts (grp5Exec ext a n rm d) := by
  unfold grp5Exec
  split <;> infer_instance

instance (op : BitVec 8) (d : Dec) : Traced Accounts (stepAluRow op d) := by
  unfold stepAluRow; infer_instance

instance (op : BitVec 8) (d : Dec) : Traced Accounts (stepAluEax op d) := by
  unfold stepAluEax; infer_instance

instance (op : BitVec 8) (d : Dec) : Traced Accounts (stepTestEax op d) := by
  unfold stepTestEax; infer_instance

instance (op : BitVec 8) (d : Dec) : Traced Accounts (stepPushReg op d) := by
  unfold stepPushReg; infer_instance

instance (op : BitVec 8) (d : Dec) : Traced Accounts (stepPopReg op d) := by
  unfold stepPopReg; infer_instance

instance (d : Dec) : Traced Accounts (stepMovsxd d) := by
  unfold stepMovsxd; infer_instance

instance (op : BitVec 8) (d : Dec) : Traced Accounts (stepPushImm op d) := by
  unfold stepPushImm; infer_instance

instance (op : BitVec 8) (d : Dec) : Traced Accounts (stepImulImm op d) := by
  unfold stepImulImm; infer_instance

instance (op : BitVec 8) (d : Dec) : Traced Accounts (stepJcc8 op d) := by
  unfold stepJcc8; infer_instance

instance (op : BitVec 8) (d : Dec) : Traced Accounts (stepGrp1 op d) := by
  unfold stepGrp1; infer_instance

instance (d : Dec) : Traced Accounts (stepXchg d) := by
  unfold stepXchg; infer_instance

instance (d : Dec) : Traced Accounts (stepLea d) := by
  unfold stepLea
  refine .seq inferInstance fun x => ?_
  obtain ⟨reg, rm, d⟩ := x
  cases rm <;> infer_instance

instance (d : Dec) : Traced Accounts (stepPopRm d) := by
  unfold stepPopRm; infer_instance

instance (d : Dec) : Traced Accounts (stepNop d) := by
  unfold stepNop; infer_instance

instance (d : Dec) : Traced Accounts (stepPushfq d) := by
  unfold stepPushfq; infer_instance

instance (d : Dec) : Traced Accounts (stepPopfq d) := by
  unfold stepPopfq; infer_instance

instance (d : Dec) : Traced Accounts (stepCwde d) := by
  unfold stepCwde; infer_instance

instance (d : Dec) : Traced Accounts (stepCdq d) := by
  unfold stepCdq; infer_instance

instance (op : BitVec 8) (d : Dec) : Traced Accounts (stepMovRegImm8 op d) := by
  unfold stepMovRegImm8; infer_instance

instance (op : BitVec 8) (d : Dec) : Traced Accounts (stepMovRegImm op d) := by
  unfold stepMovRegImm; infer_instance

instance (op : BitVec 8) (d : Dec) : Traced Accounts (stepShift op d) := by
  unfold stepShift
  refine .seq inferInstance fun x => ?_
  obtain ⟨ext, rm, d⟩ := x
  exact .cond inferInstance (.cond inferInstance (.seq inferInstance fun v => inferInstance))

instance (d : Dec) : Traced Accounts (stepRetImm d) := by
  unfold stepRetImm; infer_instance

instance (d : Dec) : Traced Accounts (stepRet d) := by
  unfold stepRet; infer_instance

instance (op : BitVec 8) (d : Dec) : Traced Accounts (stepMovRmImm op d) := by
  unfold stepMovRmImm; infer_instance

instance (d : Dec) : Traced Accounts (stepLeave d) := by
  unfold stepLeave; infer_instance

instance (d : Dec) : Traced Accounts (stepCall d) := by
  unfold stepCall; infer_instance

instance (op : BitVec 8) (d : Dec) : Traced Accounts (stepJmp op d) := by
  unfold stepJmp; infer_instance

instance (op : BitVec 8) (d : Dec) : Traced Accounts (stepGrp3 op d) := by
  unfold stepGrp3; infer_instance

instance (op : BitVec 8) (d : Dec) : Traced Accounts (stepGrp5 op d) := by
  unfold stepGrp5; infer_instance

instance (op : BitVec 8) (d : Dec) : Traced Accounts (stepSetcc op d) := by
  unfold stepSetcc; infer_instance

instance (op : BitVec 8) (d : Dec) : Traced Accounts (stepCmov op d) := by
  unfold stepCmov; infer_instance

instance (op : BitVec 8) (d : Dec) : Traced Accounts (stepShld op d) := by
  unfold stepShld; infer_instance

instance (d : Dec) : Traced Accounts (stepImul d) := by
  unfold stepImul; infer_instance

instance (op : BitVec 8) (d : Dec) : Traced Accounts (stepMovx op d) := by
  unfold stepMovx; infer_instance

instance (op : BitVec 8) (d : Dec) : Traced Accounts (stepJcc32 op d) := by
  unfold stepJcc32; infer_instance

/-- The two-byte opcodes that are not SSE, by their class. -/
def twoCase (op2 : BitVec 8) (d : Dec) : TwoClass → M Dec
  | .nop => do
    let (_, _, d) ← modrmAdvance d
    pure d
  | .jcc => stepJcc32 op2 d
  | .setcc => stepSetcc op2 d
  | .cmov => stepCmov op2 d
  | .shld => stepShld op2 d
  | .imul => stepImul d
  | .movx => stepMovx op2 d
  | .none => do
    raise .unimplemented0F d.rip0
    pure d

instance (op2 : BitVec 8) (d : Dec) (k : TwoClass) : Traced Accounts (twoCase op2 d k) := by
  cases k <;> (unfold twoCase; infer_instance)

instance (op2 : BitVec 8) (d : Dec) : Traced Accounts (stepTwoByteGp op2 d) :=
  inferInstanceAs (Traced Accounts (twoCase op2 d (twoClass op2)))

instance (fp : Fp) (op2 : BitVec 8) (d : Dec) : Traced Accounts (stepEscaped fp op2 d) := by
  unfold stepEscaped; infer_instance

instance (fp : Fp) (d : Dec) : Traced Accounts (stepTwoByte fp d) :=
  inferInstanceAs (Traced Accounts (fetch8 d >>= fun x => stepEscaped fp x.1 x.2))

instance (op : BitVec 8) (d : Dec) (k : OpClass) : Traced Accounts (stepOneByte op d k) := by
  cases k <;> (unfold stepOneByte; infer_instance)

/-- The switch, by the class of the opcode. -/
def opCase (fp : Fp) (op : BitVec 8) (d : Dec) : OpClass → M (InsnOut × Dec)
  | .twoByte => stepTwoByte fp d
  | k => do
    let d ← stepOneByte op d k
    pure (.done, d)

instance (fp : Fp) (op : BitVec 8) (d : Dec) (k : OpClass) : Traced Accounts (opCase fp op d k) := by
  cases k <;> (unfold opCase; infer_instance)

instance (fp : Fp) (op : BitVec 8) (d : Dec) : Traced Accounts (stepOp fp op d) :=
  inferInstanceAs (Traced Accounts (opCase fp op d (opClass op)))

instance (fp : Fp) : Traced Accounts (stepInsn fp) := by
  unfold stepInsn; infer_instance

end Rashid.Proofs
