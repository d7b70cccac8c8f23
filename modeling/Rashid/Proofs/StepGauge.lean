import Rashid.Jit
import Rashid.Lib.Graded
import Rashid.Proofs.StepPrims

/-!
# The flags word and the write log through an instruction

What the interpreter does to the bits of the flags word that are not flags, and to the write log:
it keeps the former and adds to the latter, two entries at most for an instruction.
-/

namespace Rashid.Proofs

/-! ### The reserved bits -/

/-- The bits of a flags word that no instruction computes. -/
def reserved (f : BitVec 32) : BitVec 32 := f &&& ~~~flAll

section Reserved

variable {f g m : BitVec 32}

lemma reserved_or : reserved (f ||| g) = reserved f ||| reserved g := by
  apply BitVec.eq_of_getLsbD_eq
  intro i _
  simp only [reserved, BitVec.getLsbD_and, BitVec.getLsbD_or]
  exact Bool.and_or_distrib_right ..

lemma reserved_or_of (h : reserved g = 0) : reserved (f ||| g) = reserved f := by
  rw [reserved_or, h]
  exact BitVec.or_zero

lemma reserved_flagIf (b : Bool) (h : reserved m = 0) : reserved (flagIf b m) = 0 := by
  cases b with
  | false => exact BitVec.zero_and
  | true => exact h

/-- Clearing flags clears no other bit. -/
lemma reserved_clear (h : reserved m = 0) : reserved (f &&& ~~~m) = reserved f := by
  unfold reserved at h ⊢
  apply BitVec.eq_of_getLsbD_eq
  intro i _
  have hi : (m.getLsbD i && (~~~flAll).getLsbD i) = false := by
    rw [← BitVec.getLsbD_and, h]
    exact BitVec.getLsbD_zero
  simp only [BitVec.getLsbD_and]
  cases hf : (~~~flAll).getLsbD i with
  | false => rw [Bool.and_false, Bool.and_false]
  | true =>
    rw [hf, Bool.and_true] at hi
    have hlt : i < 32 := BitVec.lt_of_getLsbD hf
    rw [BitVec.getLsbD_not, hi, decide_eq_true hlt]
    exact congrArg (· && true) (Bool.and_true _)

lemma reserved_select (h : reserved m = 0) : reserved (f &&& m) = 0 := by
  unfold reserved at h ⊢
  rw [BitVec.and_assoc, h]
  exact BitVec.and_zero

/-! The routines clear flags and set flags. -/

lemma reserved_setPzs (f : BitVec 32) (r : BitVec 64) (n : Nat) : reserved (setPzs f r n) = reserved f := by
  unfold setPzs
  rw [reserved_or_of (reserved_flagIf _ (by decide)), reserved_or_of (reserved_flagIf _ (by decide)),
    reserved_or_of (reserved_flagIf _ (by decide)), reserved_clear (by decide)]

lemma reserved_flagsLogic (f : BitVec 32) (r : BitVec 64) (n : Nat) : reserved (flagsLogic f r n) = reserved f := by
  unfold flagsLogic
  rw [reserved_setPzs, reserved_clear (by decide)]

lemma reserved_flagsArith (f : BitVec 32) (cf of : Bool) (a b r : BitVec 64) (n : Nat) :
    reserved (flagsArith f cf of a b r n) = reserved f := by
  unfold flagsArith
  rw [reserved_setPzs, reserved_or_of (reserved_flagIf _ (by decide)), reserved_or_of (reserved_flagIf _ (by decide)),
    reserved_or_of (reserved_flagIf _ (by decide)), reserved_clear (by decide)]

lemma reserved_keepCarry (hg : reserved g = reserved f) : reserved ((g &&& ~~~fCF) ||| (f &&& fCF)) = reserved f := by
  rw [reserved_or_of (reserved_select (by decide)), reserved_clear (by decide), hg]

lemma reserved_rsdIShift (f : BitVec 32) (a cnt : BitVec 64) (n : Nat) (ext : BitVec 8) :
    reserved (rsdIShift f a cnt n ext).2 = reserved f := by
  unfold rsdIShift
  rw [reserved_setPzs, reserved_or_of (reserved_flagIf _ (by decide)), reserved_or_of (reserved_flagIf _ (by decide)),
    reserved_clear (by decide)]

lemma reserved_comis (fp : Fp) (f : BitVec 32) (a b : BitVec 64) : reserved (comis fp f a b) = reserved f := by
  unfold comis
  rw [reserved_or_of, reserved_clear (by decide)]
  repeat' split
  all_goals decide

end Reserved

/-! ### Gauges -/

/-- A graded relation that looks at the reserved bits and at the write log only, and that is charged
for each entry. The reserved bits are as they were, or as `popfq` makes them. -/
class Gauge (R : Nat → Cpu → Cpu → Prop) : Prop extends Graded R where
  aside {c c' : Cpu} : c'.wlog = c.wlog → reserved c'.flags = reserved c.flags ∨ reserved c'.flags = 0x202 → R 0 c c'
  entry {c c' : Cpu} (e : LogEntry) : c'.wlog = c.wlog.map (fun w => w.add e) → c'.flags = c.flags → R 1 c c'

section Gauges

variable {R : Nat → Cpu → Cpu → Prop} [Gauge R]

lemma Gauge.same {c c' : Cpu} (hw : c'.wlog = c.wlog) (hf : c'.flags = c.flags) : R 0 c c' :=
  Gauge.aside hw (.inl (congrArg reserved hf))

lemma Gauge.flags {g : BitVec 32 → BitVec 32} (hg : ∀ f, reserved (g f) = reserved f) (c : Cpu) :
    R 0 c { c with flags := g c.flags } :=
  Gauge.aside rfl (.inl (hg c.flags))

/-- A program that touches neither. -/
lemma spends_same {α : Type} {p : M α} (hw : ∀ c, (p c).2.wlog = c.wlog) (hf : ∀ c, (p c).2.flags = c.flags) :
    Spends R p 0 :=
  ⟨fun c => Gauge.same (hw c) (hf c)⟩

lemma spends_modify {f : Cpu → Cpu} (hw : ∀ c, (f c).wlog = c.wlog) (hf : ∀ c, (f c).flags = c.flags) :
    Spends R (Prog.modify f) 0 :=
  spends_same hw hf

/-! ### The primitives -/

instance (i : Fin 16) : Spends R (rdR i) 0 := spends_same (fun _ => rfl) fun _ => rfl
instance (i : Fin 16) (v : BitVec 64) : Spends R (wrR i v) 0 := spends_same (fun _ => rfl) fun _ => rfl
instance (i : Fin 16) : Spends R (rdX i) 0 := spends_same (fun _ => rfl) fun _ => rfl
instance (i : Fin 16) (v : Xmm) : Spends R (wrX i v) 0 := spends_same (fun _ => rfl) fun _ => rfl
instance : Spends R rdFlags 0 := spends_same (fun _ => rfl) fun _ => rfl
instance : Spends R rdRip 0 := spends_same (fun _ => rfl) fun _ => rfl
instance (v : BitVec 64) : Spends R (wrRip v) 0 := spends_same (fun _ => rfl) fun _ => rfl
instance (v : BitVec 64) : Spends R (wrCurRip v) 0 := spends_same (fun _ => rfl) fun _ => rfl
instance : Spends R rdGs 0 := spends_same (fun _ => rfl) fun _ => rfl
instance : Spends R rdFs 0 := spends_same (fun _ => rfl) fun _ => rfl
instance (a : BitVec 64) : Spends R (rdCode a) 0 := spends_same (fun _ => rfl) fun _ => rfl
instance (f : Fault) (rip : BitVec 64) : Spends R (raise f rip) 0 := spends_same (fun _ => rfl) fun _ => rfl

lemma memfault_flags (a : BitVec 64) (w : Fault) (c : Cpu) : (memfault a w c).2.flags = c.flags := by
  obtain ⟨_, _, _, _, h⟩ := memfault_eq a w c
  rw [h]

lemma memfault_gauge (a : BitVec 64) (w : Fault) (c : Cpu) : R 0 c (memfault a w c).2 :=
  Gauge.same (memfault_wlog a w c) (memfault_flags a w c)

instance (a : BitVec 64) (w : Fault) : Spends R (memfault a w) 0 := ⟨memfault_gauge a w⟩

instance (a : BitVec 64) (n : Nat) : Spends R (ld a n) 0 := by
  constructor
  intro c
  unfold ld
  split
  · exact Graded.refl c
  · exact memfault_gauge a _ c

lemma logWrite_gauge (a v : BitVec 64) (n : Nat) (c : Cpu) : R 1 c (logWrite a v n c).2 := Gauge.entry _ rfl rfl

instance (a v : BitVec 64) (n : Nat) : Spends R (st a v n) 1 := by
  constructor
  intro c
  unfold st
  split
  · have hmem : R 0 (logWrite a v n c).2 { (logWrite a v n c).2 with mem := storeLE c.mem a v n } := Gauge.same rfl rfl
    exact Graded.trans (logWrite_gauge a v n c) hmem
  · exact Graded.mono (memfault_gauge a _ c) (Nat.zero_le 1)

instance (a : BitVec 64) : Spends R (ld128 a) 0 := by
  constructor
  intro c
  unfold ld128
  split
  · exact Graded.refl c
  · exact memfault_gauge a _ c

instance (a : BitVec 64) (v : Xmm) : Spends R (st128 a v) 2 := by
  constructor
  intro c
  unfold st128
  split
  · have hfst := logWrite_gauge (R := R) a v.lo 8 c
    have hsnd := logWrite_gauge (R := R) (a + 8) v.hi 8 (logWrite a v.lo 8 c).2
    have hmem (c' : Cpu) : R 0 c' { c' with mem := storeLE (storeLE c'.mem a v.lo 8) (a + 8) v.hi 8 } :=
      Gauge.same rfl rfl
    exact Graded.trans hfst (Graded.trans hsnd (hmem _))
  · exact Graded.mono (memfault_gauge a _ c) (Nat.zero_le 2)

/-! ### Writes of the flags -/

lemma modFlags_spends {g : BitVec 32 → BitVec 32} (hg : ∀ f, reserved (g f) = reserved f) : Spends R (modFlags g) 0 :=
  ⟨Gauge.flags hg⟩

instance (a b r : BitVec 64) (n : Nat) : Spends R (modFlags fun f => flagsAdd f a b r n) 0 :=
  modFlags_spends fun _ => reserved_flagsArith ..

instance (a b r : BitVec 64) (n : Nat) : Spends R (modFlags fun f => flagsSub f a b r n) 0 :=
  modFlags_spends fun _ => reserved_flagsArith ..

instance (a b cf r : BitVec 64) (n : Nat) : Spends R (modFlags fun f => flagsAdc f a b cf r n) 0 :=
  modFlags_spends fun _ => reserved_flagsArith ..

instance (a b cf r : BitVec 64) (n : Nat) : Spends R (modFlags fun f => flagsSbb f a b cf r n) 0 :=
  modFlags_spends fun _ => reserved_flagsArith ..

instance (r : BitVec 64) (n : Nat) : Spends R (modFlags fun f => flagsLogic f r n) 0 :=
  modFlags_spends fun _ => reserved_flagsLogic ..

instance (a r : BitVec 64) (n : Nat) : Spends R (modFlags fun f => flagsInc f a r n) 0 :=
  modFlags_spends fun _ => reserved_keepCarry (reserved_flagsArith ..)

instance (a r : BitVec 64) (n : Nat) : Spends R (modFlags fun f => flagsDec f a r n) 0 :=
  modFlags_spends fun _ => reserved_keepCarry (reserved_flagsArith ..)

/-- Flags that are read, and written back before anything else happens. -/
lemma flags_then {α : Type} {g : BitVec 32 → BitVec 32} {q : BitVec 32 → M α} {n : Nat}
    (hg : ∀ f, reserved (g f) = reserved f) (hq : ∀ f, Spends R (q f) n) :
    Spends R (do let f ← rdFlags; wrFlags (g f); q f) n := by
  constructor
  intro c
  have hrest := (hq c.flags).spends { c with flags := g c.flags }
  have hall := Graded.trans (Gauge.flags hg c) hrest
  rwa [Nat.zero_add] at hall

/-- What `popfq` writes. -/
lemma popped_spends (v : BitVec 32) :
    Spends R (wrFlags ((v &&& (fCF ||| fPF ||| fAF ||| fZF ||| fSF ||| fOF)) ||| 0x202)) 0 := by
  constructor
  intro c
  refine Gauge.aside rfl (.inr ?_)
  show reserved ((v &&& flAll) ||| 0x202) = 0x202
  rw [reserved_or, reserved_select (by decide)]
  rfl

/-! ### Registers, operands and the decoder -/

instance (i : Fin 16) (v : BitVec 64) (n : Nat) : Spends R (setreg i v n) 0 := by
  unfold setreg; infer_instance

instance (i : Fin 16) (n : Nat) : Spends R (getreg i n) 0 := by
  unfold getreg; infer_instance

instance (i : Fin 16) (rex : Bool) : Spends R (getreg8 i rex) 0 := by
  unfold getreg8; infer_instance

instance (i : Fin 16) (v : BitVec 64) (rex : Bool) : Spends R (setreg8 i v rex) 0 := by
  unfold setreg8; infer_instance

instance (d : Dec) (k : Nat) : Spends R (codeAt d k) 0 := by
  unfold codeAt; infer_instance

instance (d : Dec) : Spends R (fetch8 d) 0 := by
  unfold fetch8; infer_instance

instance (d : Dec) : Spends R (fetch16 d) 0 := by
  unfold fetch16; infer_instance

instance (d : Dec) : Spends R (fetch32 d) 0 := by
  unfold fetch32; infer_instance

instance (d : Dec) : Spends R (fetch64 d) 0 := by
  unfold fetch64; infer_instance

instance (d : Dec) (reg : Fin 16) (mod : BitVec 8) (addr : BitVec 64) : Spends R (modrmDisp d reg mod addr) 0 := by
  unfold modrmDisp; infer_instance

instance (d : Dec) (reg : Fin 16) (mod : BitVec 8) : Spends R (modrmSib d reg mod) 0 := by
  unfold modrmSib; infer_instance

instance (d : Dec) : Spends R (modrm d) 0 := by
  unfold modrm; infer_instance

instance (d : Dec) : Spends R (modrmExt d) 0 := by
  unfold modrmExt; infer_instance

instance (d : Dec) : Spends R (imm8 d) 0 := by
  unfold imm8; infer_instance

instance (d : Dec) : Spends R (imm8s d) 0 := by
  unfold imm8s; infer_instance

instance (d : Dec) : Spends R (imm16 d) 0 := by
  unfold imm16; infer_instance

instance (d : Dec) : Spends R (imm32s d) 0 := by
  unfold imm32s; infer_instance

instance (d : Dec) : Spends R (imm32 d) 0 := by
  unfold imm32; infer_instance

instance (o : Opnd) (n : Nat) (rex : Bool) : Spends R (rd o n rex) 0 := by
  cases o <;> simp only [rd] <;> infer_instance

instance (o : Opnd) (v : BitVec 64) (n : Nat) (rex : Bool) : Spends R (wr o v n rex) 1 := by
  cases o <;> simp only [wr] <;> exact .le inferInstance (by decide)

instance (v : BitVec 64) : Spends R (push v) 1 := by
  unfold push; infer_instance

instance : Spends R pop 0 := by
  unfold pop; infer_instance

instance (fuel : Nat) (d : Dec) : Spends R (prefixLoop fuel d) 0 := by
  induction fuel generalizing d with
  | zero => exact ⟨Graded.refl⟩
  | succ fuel ih =>
    have hnext (b : BitVec 8) : Spends R (match prefixOf b with
        | none => pure d
        | some x => do
          let fs ← rdFs
          let gs ← rdGs
          prefixLoop fuel ((applyPrefix d b fs gs x).skip 1)) 0 := by
      cases prefixOf b <;> infer_instance
    unfold prefixLoop; infer_instance

instance (d : Dec) : Spends R (prefixes d) 0 := by
  unfold prefixes; infer_instance

/-! ### SSE, products and quotients -/

instance (o : Opnd) : Spends R (xrd o) 0 := by
  cases o <;> simp only [xrd] <;> infer_instance

instance (o : Opnd) (v : Xmm) : Spends R (xwr o v) 2 := by
  cases o <;> simp only [xwr] <;> exact .le inferInstance (by decide)

instance (o : Opnd) (n : Nat) : Spends R (xrdLo o n) 0 := by
  cases o <;> simp only [xrdLo] <;> infer_instance

instance (o : Opnd) (n : Nat) : Spends R (grd o n) 0 := by
  cases o <;> simp only [grd] <;> infer_instance

instance (o : Opnd) (v : BitVec 64) (n : Nat) : Spends R (gwr o v n) 1 := by
  cases o <;> simp only [gwr] <;> exact .le inferInstance (by decide)

instance (dst src : Opnd) (n : Nat) : Spends R (sseMovScalar dst src n) 1 := by
  cases dst <;> simp only [sseMovScalar] <;> exact .le inferInstance (by decide)

instance (mand op2 : BitVec 8) (reg : Fin 16) (rm : Opnd) : Spends R (sseMovExec mand op2 reg rm) 2 := by
  unfold sseMovExec; infer_instance

instance (d : Dec) : Spends R (modrmAdvance d) 0 := by
  unfold modrmAdvance; infer_instance

instance (d : Dec) : Spends R (modrmImmAdvance d) 0 := by
  unfold modrmImmAdvance; infer_instance

instance (d : Dec) (op2 : BitVec 8) : Spends R (sseMov d op2) 2 := by
  unfold sseMov; infer_instance

instance (d : Dec) (op2 : BitVec 8) : Spends R (sseMovdq d op2) 2 := by
  unfold sseMovdq; infer_instance

instance (d : Dec) : Spends R (sseMovdIn d) 0 := by
  unfold sseMovdIn; infer_instance

instance (d : Dec) : Spends R (sseMovdOut d) 1 := by
  unfold sseMovdOut; infer_instance

instance (d : Dec) : Spends R (sseMovq d) 1 := by
  unfold sseMovq
  refine .either (.le inferInstance (Nat.zero_le 1)) (.free_then inferInstance fun x => ?_)
  obtain ⟨reg, rm, d⟩ := x
  cases rm <;> exact .le inferInstance (by decide)

instance (op2 : BitVec 8) (reg : Fin 16) (rm : Opnd) : Spends R (sseBitwiseExec op2 reg rm) 0 := by
  unfold sseBitwiseExec; infer_instance

instance (fp : Fp) (mand op2 : BitVec 8) (reg : Fin 16) (rm : Opnd) : Spends R (sseArithExec fp mand op2 reg rm) 0 := by
  unfold sseArithExec; infer_instance

instance (fp : Fp) (mand : BitVec 8) (n : Nat) (reg : Fin 16) (rm : Opnd) :
    Spends R (sseCvtFromExec fp mand n reg rm) 0 := by
  unfold sseCvtFromExec; infer_instance

instance (fp : Fp) (mand op2 : BitVec 8) (n : Nat) (reg : Fin 16) (rm : Opnd) :
    Spends R (sseCvtToExec fp mand op2 n reg rm) 0 := by
  unfold sseCvtToExec; infer_instance

instance (fp : Fp) (mand : BitVec 8) (reg : Fin 16) (rm : Opnd) : Spends R (sseCvtFloatExec fp mand reg rm) 0 := by
  unfold sseCvtFloatExec; infer_instance

instance (fp : Fp) (mand imm : BitVec 8) (reg : Fin 16) (rm : Opnd) : Spends R (sseCmpExec fp mand imm reg rm) 0 := by
  unfold sseCmpExec; infer_instance

instance (p : BitVec 128) (n : Nat) : Spends R (setProduct p n) 0 := by
  unfold setProduct; infer_instance

instance (q r : BitVec 128) (n : Nat) : Spends R (setQuotient q r n) 0 := by
  unfold setQuotient; infer_instance

instance (fp : Fp) (mand : BitVec 8) (reg : Fin 16) (rm : Opnd) : Spends R (sseComisExec fp mand reg rm) 0 := by
  have hflags (a b : BitVec 64) : Spends R (do let f ← rdFlags; wrFlags (comis fp f a b)) 0 :=
    modFlags_spends fun _ => reserved_comis ..
  unfold sseComisExec; infer_instance

instance (d : Dec) (op2 : BitVec 8) : Spends R (sseBitwise d op2) 0 := by
  unfold sseBitwise; infer_instance

instance (fp : Fp) (d : Dec) (op2 : BitVec 8) : Spends R (sseArith fp d op2) 0 := by
  unfold sseArith; infer_instance

instance (fp : Fp) (d : Dec) : Spends R (sseComis fp d) 0 := by
  unfold sseComis; infer_instance

instance (fp : Fp) (d : Dec) : Spends R (sseCvtFrom fp d) 0 := by
  unfold sseCvtFrom; infer_instance

instance (fp : Fp) (d : Dec) (op2 : BitVec 8) : Spends R (sseCvtTo fp d op2) 0 := by
  unfold sseCvtTo; infer_instance

instance (fp : Fp) (d : Dec) : Spends R (sseCvtFloat fp d) 0 := by
  unfold sseCvtFloat; infer_instance

instance (d : Dec) (op2 : BitVec 8) : Spends R (ssePcmpeq d op2) 0 := by
  unfold ssePcmpeq; infer_instance

instance (d : Dec) : Spends R (ssePmovmskb d) 0 := by
  unfold ssePmovmskb
  refine .either inferInstance (.free_then inferInstance fun x => ?_)
  obtain ⟨reg, rm, d⟩ := x
  cases rm <;> infer_instance

instance (d : Dec) : Spends R (ssePshufd d) 0 := by
  unfold ssePshufd; infer_instance

instance (d : Dec) (op2 : BitVec 8) : Spends R (sseUnpck d op2) 0 := by
  unfold sseUnpck; infer_instance

instance (fp : Fp) (d : Dec) : Spends R (sseCmp fp d) 0 := by
  unfold sseCmp; infer_instance

instance (d : Dec) : Spends R (ssePextrw d) 0 := by
  unfold ssePextrw
  refine .either inferInstance (.free_then inferInstance fun x => ?_)
  obtain ⟨reg, rm, imm, d⟩ := x
  cases rm <;> infer_instance

instance (fp : Fp) (d : Dec) (op2 : BitVec 8) : Spends R (sseExec fp d op2) 2 := by
  unfold sseExec
  cases sseClass op2 <;> exact .le inferInstance (by decide)

/-! ### The switch of `step` -/

set_option synthInstance.maxSize 512

instance : Spends R carryIn 0 := by
  unfold carryIn; infer_instance

lemma aluExec_spends (o : Alu) (a b : BitVec 64) (n : Nat) (w : BitVec 64 → M Unit) (hw : ∀ r, Spends R (w r) 1) :
    Spends R (aluExec o a b n w) 1 := by
  cases o <;> simp only [aluExec] <;> exact .le inferInstance (by decide)

instance (o : Alu) (a b : BitVec 64) (n : Nat) (rm : Opnd) (rex : Bool) :
    Spends R (aluExec o a b n fun r => wr rm r n rex) 1 :=
  aluExec_spends o a b n _ inferInstance

instance (o : Alu) (a b : BitVec 64) (n : Nat) (i : Fin 16) : Spends R (aluExec o a b n fun r => setreg i r n) 1 :=
  aluExec_spends o a b n _ fun _ => .le inferInstance (Nat.zero_le 1)

instance (ext : BitVec 8) (a imm : BitVec 64) (n : Nat) (rm : Opnd) (d : Dec) :
    Spends R (grp3Exec ext a imm n rm d) 1 := by
  unfold grp3Exec
  split <;> exact .le inferInstance (by decide)

instance (ext : BitVec 8) (a : BitVec 64) (n : Nat) (rm : Opnd) (d : Dec) : Spends R (grp5Exec ext a n rm d) 1 := by
  unfold grp5Exec
  split <;> exact .le inferInstance (by decide)

instance (op : BitVec 8) (d : Dec) : Spends R (stepAluRow op d) 1 := by
  unfold stepAluRow; infer_instance

instance (op : BitVec 8) (d : Dec) : Spends R (stepAluEax op d) 1 := by
  unfold stepAluEax; infer_instance

instance (op : BitVec 8) (d : Dec) : Spends R (stepTestEax op d) 0 := by
  unfold stepTestEax; infer_instance

instance (op : BitVec 8) (d : Dec) : Spends R (stepPushReg op d) 1 := by
  unfold stepPushReg; infer_instance

instance (op : BitVec 8) (d : Dec) : Spends R (stepPopReg op d) 0 := by
  unfold stepPopReg; infer_instance

instance (d : Dec) : Spends R (stepMovsxd d) 0 := by
  unfold stepMovsxd; infer_instance

instance (op : BitVec 8) (d : Dec) : Spends R (stepPushImm op d) 1 := by
  unfold stepPushImm; infer_instance

instance (op : BitVec 8) (d : Dec) : Spends R (stepImulImm op d) 0 := by
  unfold stepImulImm; infer_instance

instance (op : BitVec 8) (d : Dec) : Spends R (stepJcc8 op d) 0 := by
  unfold stepJcc8; infer_instance

instance (op : BitVec 8) (d : Dec) : Spends R (stepGrp1 op d) 1 := by
  unfold stepGrp1; infer_instance

instance (d : Dec) : Spends R (stepXchg d) 2 := by
  unfold stepXchg; infer_instance

instance (d : Dec) : Spends R (stepLea d) 0 := by
  unfold stepLea
  refine .free_then inferInstance fun x => ?_
  obtain ⟨reg, rm, d⟩ := x
  cases rm <;> infer_instance

instance (d : Dec) : Spends R (stepPopRm d) 1 := by
  unfold stepPopRm; infer_instance

instance (d : Dec) : Spends R (stepNop d) 0 := by
  unfold stepNop; infer_instance

instance (d : Dec) : Spends R (stepPushfq d) 1 := by
  unfold stepPushfq; infer_instance

instance (d : Dec) : Spends R (stepPopfq d) 0 := by
  have hflags (v : BitVec 64) := popped_spends (R := R) (v.setWidth 32)
  unfold stepPopfq; infer_instance

instance (d : Dec) : Spends R (stepCwde d) 0 := by
  unfold stepCwde; infer_instance

instance (d : Dec) : Spends R (stepCdq d) 0 := by
  unfold stepCdq; infer_instance

instance (op : BitVec 8) (d : Dec) : Spends R (stepMovRegImm8 op d) 0 := by
  unfold stepMovRegImm8; infer_instance

instance (op : BitVec 8) (d : Dec) : Spends R (stepMovRegImm op d) 0 := by
  unfold stepMovRegImm; infer_instance

instance (op : BitVec 8) (d : Dec) : Spends R (stepShift op d) 1 := by
  have hwork (a cnt : BitVec 64) (n : Nat) (ext : BitVec 8) (rm : Opnd) (d : Dec) : Spends R (do
      let f ← rdFlags
      wrFlags (rsdIShift f a cnt n ext).2
      wr rm (rsdIShift f a cnt n ext).1 n d.hasRex
      pure d) 1 :=
    flags_then (fun f => reserved_rsdIShift f a cnt n ext) fun f => inferInstance
  unfold stepShift; infer_instance

instance (d : Dec) : Spends R (stepRetImm d) 0 := by
  unfold stepRetImm; infer_instance

instance (d : Dec) : Spends R (stepRet d) 0 := by
  unfold stepRet; infer_instance

instance (d : Dec) : Spends R (stepLeave d) 0 := by
  unfold stepLeave; infer_instance

instance (op : BitVec 8) (d : Dec) : Spends R (stepMovRmImm op d) 1 := by
  unfold stepMovRmImm; infer_instance

instance (d : Dec) : Spends R (stepCall d) 1 := by
  unfold stepCall; infer_instance

instance (op : BitVec 8) (d : Dec) : Spends R (stepJmp op d) 0 := by
  unfold stepJmp; infer_instance

instance (op : BitVec 8) (d : Dec) : Spends R (stepGrp3 op d) 1 := by
  unfold stepGrp3; infer_instance

instance (op : BitVec 8) (d : Dec) : Spends R (stepGrp5 op d) 1 := by
  unfold stepGrp5; infer_instance

instance (op2 : BitVec 8) (d : Dec) : Spends R (stepSetcc op2 d) 1 := by
  unfold stepSetcc; infer_instance

instance (op2 : BitVec 8) (d : Dec) : Spends R (stepCmov op2 d) 0 := by
  unfold stepCmov; infer_instance

instance (op2 : BitVec 8) (d : Dec) : Spends R (stepShld op2 d) 1 := by
  unfold stepShld; infer_instance

instance (d : Dec) : Spends R (stepImul d) 0 := by
  unfold stepImul; infer_instance

instance (op2 : BitVec 8) (d : Dec) : Spends R (stepMovx op2 d) 0 := by
  unfold stepMovx; infer_instance

instance (op2 : BitVec 8) (d : Dec) : Spends R (stepJcc32 op2 d) 0 := by
  unfold stepJcc32; infer_instance

instance (op2 : BitVec 8) (d : Dec) : Spends R (stepTwoByteGp op2 d) 1 := by
  unfold stepTwoByteGp
  cases twoClass op2 <;> exact .le inferInstance (by decide)

instance (fp : Fp) (d : Dec) : Spends R (stepTwoByte fp d) 3 := by
  unfold stepTwoByte; exact .le inferInstance (by decide)

instance (op : BitVec 8) (d : Dec) (k : OpClass) : Spends R (stepOneByte op d k) 2 := by
  cases k <;> simp only [stepOneByte] <;> exact .le inferInstance (by decide)

instance (fp : Fp) (op : BitVec 8) (d : Dec) : Spends R (stepOp fp op d) 3 := by
  unfold stepOp
  cases opClass op <;> exact .le inferInstance (by decide)

/-- An instruction makes three entries at most. -/
instance (fp : Fp) : Spends R (stepInsn fp) 3 := by
  unfold stepInsn; infer_instance

end Gauges

end Rashid.Proofs
