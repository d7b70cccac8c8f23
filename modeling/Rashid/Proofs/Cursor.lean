import Rashid.Encoding
import Rashid.Proofs.DecodeOperands
import Rashid.Proofs.StepPrims
import Rashid.Proofs.Switches

/-!
# What an instruction reads of the code, and where it leaves `rip`

Each case of the interpreter's switch reads its operands, moves `rip` past what it has read and
then works. Written that way once, the cursor it ends with and the `rip` it leaves are known, and
what it does to the registers is a property of its work alone.
-/

namespace Rashid.Proofs

/-- The shape that the cases have in common. -/
def after (d : Dec) (body : M Unit) : M Dec := do
  wrRip (decRip d)
  body
  pure d

lemma after_fst (d : Dec) (body : M Unit) (c : Cpu) : (after d body c).1 = d := rfl

lemma after_snd (d : Dec) (body : M Unit) (c : Cpu) : (after d body c).2 = (body { c with rip := decRip d }).2 := rfl

/-! ### Programs that leave `rip` alone -/

def RipKept {α : Type} (p : M α) : Prop := ∀ c, (p c).2.rip = c.rip

lemma memfault_rip (a : BitVec 64) (w : Fault) (c : Cpu) : (memfault a w c).2.rip = c.rip := by
  obtain ⟨_, _, _, _, h⟩ := memfault_eq a w c
  rw [h]

lemma ld_ripKept (a : BitVec 64) (n : Nat) : RipKept (ld a n) := by
  intro c
  simp only [ld]
  split
  · rfl
  · exact memfault_rip ..

lemma st_ripKept (a v : BitVec 64) (n : Nat) : RipKept (st a v n) := by
  intro c
  simp only [st]
  split
  · rfl
  · exact memfault_rip ..

lemma ld128_ripKept (a : BitVec 64) : RipKept (ld128 a) := by
  intro c
  simp only [ld128]
  split
  · rfl
  · exact memfault_rip ..

lemma st128_ripKept (a : BitVec 64) (v : Xmm) : RipKept (st128 a v) := by
  intro c
  simp only [st128]
  split
  · rfl
  · exact memfault_rip ..

instance : HasWork RipKept where
  rdR _ := fun _ => rfl
  wrR _ _ := fun _ => rfl
  rdX _ := fun _ => rfl
  wrX _ _ := fun _ => rfl
  rdGs := fun _ => rfl
  rdFs := fun _ => rfl
  rdCode _ := fun _ => rfl
  raise _ _ := fun _ => rfl
  ld := ld_ripKept
  st := st_ripKept
  ld128 := ld128_ripKept
  st128 := st128_ripKept

instance : HasFlags RipKept where
  rdFlags := fun _ => rfl
  wrFlags _ := fun _ => rfl

lemma ripKept {α : Type} (p : M α) [h : IsBuilt RipKept p] : RipKept p :=
  h.built.rel (R := fun s t : Cpu => t.rip = s.rip) (fun _ => rfl) (fun _ _ _ h1 h2 => h2.trans h1) fun _ hp => hp

lemma after_rip (d : Dec) (body : M Unit) [IsBuilt RipKept body] (c : Cpu) :
    (after d body c).2.rip = decRip (after d body c).1 := by
  rw [after_snd, ripKept body]
  rfl

/-! ### The operand -/

/-- The r/m operand of the ModRM byte at the cursor, before its displacement is fixed up. -/
def rmOpnd (d : Dec) (c : Cpu) : Opnd :=
  let m := codeOf c d.p0 d.n
  if m >>> 6 = 3 then .reg (rmField m d.rex)
  else opndOf (modrmMem (codeOf c d.p0) (d.n + 1) d.rex m).2 c.r d.segBase

/-- The cursor past ModRM, its SIB byte and its displacement. -/
def pastRm (d : Dec) (c : Cpu) : Dec := d.skip (modrmBytes (codeOf c d.p0) d.n)

lemma eaDisp_fst (p : Code) (n : Nat) (mod : BitVec 8) (e : Ea) :
    (eaDisp p n mod e).1 = n + if mod = 1 then 1 else if mod = 2 then 4 else 0 := by
  unfold eaDisp
  split
  · rfl
  · split <;> rfl

lemma eaSib_fst (p : Code) (n : Nat) (rex mod : BitVec 8) :
    (eaSib p n rex mod).1 = n + 1 + if p n &&& 7 = 5 ∧ mod = 0 then 4 else 0 := by
  simp only [eaSib]
  split <;> rfl

lemma modrmMem_fst (p : Code) (n : Nat) (rex : BitVec 8) (h : ¬ p n >>> 6 = 3) :
    (modrmMem p (n + 1) rex (p n)).1 = n + modrmBytes p n := by
  have hmod : ∀ x : BitVec 8, ¬ x >>> 6 = 3 → x >>> 6 = 0 ∨ x >>> 6 = 1 ∨ x >>> 6 = 2 := by decide
  simp only [modrmMem, modrmBytes, if_neg h]
  generalize hm : p n >>> 6 = mod
  have hcases : mod = 0 ∨ mod = 1 ∨ mod = 2 := hm ▸ hmod _ h
  by_cases h4 : p n &&& 7 = 4
  · rw [if_pos h4, eaDisp_fst, eaSib_fst, if_pos h4]
    by_cases h5 : p (n + 1) &&& 7 = 5
    · rcases hcases with rfl | rfl | rfl
      · rw [if_pos ⟨h5, rfl⟩, if_neg (by decide), if_neg (by decide), if_neg (by decide), if_neg (by decide),
          if_pos (.inr ⟨h4, h5⟩)]
      · rw [if_neg (fun hc => absurd hc.2 (by decide)), if_pos rfl, if_pos rfl]
      · rw [if_neg (fun hc => absurd hc.2 (by decide)), if_neg (by decide), if_pos rfl, if_neg (by decide), if_pos rfl]
    · have hne : ¬ (p n &&& 7 = 5 ∨ (p n &&& 7 = 4 ∧ p (n + 1) &&& 7 = 5)) := by
        rw [h4]
        exact fun hc => hc.elim (fun h => absurd h (by decide)) fun h => h5 h.2
      rw [if_neg (fun hc => h5 hc.1), if_neg hne]
      split <;> omega
  · rw [if_neg h4, if_neg h4]
    by_cases h5 : p n &&& 7 = 5 ∧ mod = 0
    · rw [if_pos h5, eaDisp_fst, h5.2, if_neg (by decide), if_neg (by decide), if_neg (by decide), if_neg (by decide),
        if_pos (.inl h5.1)]
    · rw [if_neg h5, eaDisp_fst]
      have h5' : mod = 0 → ¬ (p n &&& 7 = 5 ∨ (p n &&& 7 = 4 ∧ p (n + 1) &&& 7 = 5)) :=
        fun h0 hc => hc.elim (fun h => h5 ⟨h, h0⟩) fun h => h4 h.1
      rcases hcases with rfl | rfl | rfl
      · rw [if_neg (by decide), if_neg (by decide), if_neg (by decide), if_neg (by decide), if_neg (h5' rfl)]
      · rw [if_pos rfl, if_pos rfl]
      · rw [if_neg (by decide), if_pos rfl, if_neg (by decide), if_pos rfl]

lemma modrm_eval (d : Dec) (c : Cpu) :
    modrm d c = ((regField (codeOf c d.p0 d.n) d.rex, rmOpnd d c, pastRm d c), c) := by
  by_cases h : codeOf c d.p0 d.n >>> 6 = 3
  · rw [modrm_reg_eval d c h]
    simp only [rmOpnd, pastRm, modrmBytes, if_pos h]
  · rw [modrm_mem_eval d c h]
    simp only [rmOpnd, pastRm, if_neg h, modrmMem_fst _ _ _ h]
    rfl

lemma modrmExt_eval (d : Dec) (c : Cpu) :
    modrmExt d c = ((extField (codeOf c d.p0 d.n), rmOpnd d c, pastRm d c), c) := by
  unfold modrmExt
  rw [Prog.bind_eval (modrm_eval d c)]
  simp only [Prog.pure_apply, regField, ofNat_regNo_and, extField]

lemma modrmAdvance_eval (d : Dec) (c : Cpu) :
    modrmAdvance d c = ((regField (codeOf c d.p0 d.n) d.rex, fixupRip (pastRm d c) (rmOpnd d c), pastRm d c),
      { c with rip := decRip (pastRm d c) }) := by
  unfold modrmAdvance
  rw [Prog.bind_eval (modrm_eval d c)]
  rfl

lemma modrmImmAdvance_eval (d : Dec) (c : Cpu) :
    modrmImmAdvance d c =
      ((regField (codeOf c d.p0 d.n) d.rex, fixupRip ((pastRm d c).skip 1) (rmOpnd d c),
        codeOf c d.p0 (pastRm d c).n, (pastRm d c).skip 1), { c with rip := decRip ((pastRm d c).skip 1) }) := by
  unfold modrmImmAdvance
  rw [Prog.bind_eval (modrm_eval d c)]
  rfl

/-! ### The cases of the switch -/

/-- The ModRM byte at the cursor and what it names. -/
def rmReg (d : Dec) (c : Cpu) : Fin 16 := regField (codeOf c d.p0 d.n) d.rex
def rmExt (d : Dec) (c : Cpu) : BitVec 8 := extField (codeOf c d.p0 d.n)

/-- The r/m operand of an instruction that ends at `e`. -/
def rmAt (d e : Dec) (c : Cpu) : Opnd := fixupRip e (rmOpnd d c)

def aluWork (o : Alu) (dst src : Opnd) (sz : Nat) (rex : Bool) : M Unit := do
  let a ← rd dst sz rex
  let b ← rd src sz rex
  aluExec o a b sz fun r => wr dst r sz rex

def rowToReg (op : BitVec 8) : Bool := op &&& 2 != 0 && op != 0x84 && op != 0x85

def rowSize (op : BitVec 8) (sz : Nat) : Nat :=
  if op &&& 1 == 0 || op == 0x84 || op == 0x88 || op == 0x8A then 1 else sz

section Cases

variable (op : BitVec 8) (d : Dec) (c : Cpu)

lemma stepAluRow_eq : stepAluRow op d c = after (pastRm d c)
    (aluWork (rowAlu op) (if rowToReg op then .reg (rmReg d c) else rmAt d (pastRm d c) c)
      (if rowToReg op then rmAt d (pastRm d c) c else .reg (rmReg d c)) (rowSize op d.opsize) d.hasRex) c := by
  unfold stepAluRow
  rw [Prog.bind_eval (modrmAdvance_eval d c)]
  rfl

lemma imm16_eval : imm16 d c =
    (((codeOf c d.p0 (d.n + 1) ++ codeOf c d.p0 d.n : BitVec 16).setWidth 64, d.skip 2), c) := rfl

/-- An immediate byte, or one that follows the operand size. -/
def immZ (byte : Bool) (sz : Nat) : BitVec 64 × Dec :=
  if byte then ((codeOf c d.p0 d.n).setWidth 64, d.skip 1)
  else if sz = 2 then ((codeOf c d.p0 (d.n + 1) ++ codeOf c d.p0 d.n : BitVec 16).setWidth 64, d.skip 2)
  else ((codeOf c d.p0).i32 d.n, d.skip 4)

lemma immZ_eval (byte : Bool) (sz : Nat) :
    (if byte then imm8 d else if sz = 2 then imm16 d else imm32s d) c = (immZ d c byte sz, c) := by
  unfold immZ
  cases byte with
  | true => rfl
  | false =>
    by_cases h : sz = 2
    · simp only [h, if_true, Bool.false_eq_true, if_false, imm16_eval]
    · simp only [h, Bool.false_eq_true, if_false, imm32s_eval]

lemma stepAluEax_eq : stepAluEax op d c =
    let sz := if op &&& 1 == 0 then 1 else d.opsize
    let i := immZ d c (op &&& 1 == 0) sz
    after i.2 (do
      let a ← getreg rax sz
      aluExec (eaxAlu op) a i.1 sz fun r => setreg rax r sz) c := by
  unfold stepAluEax
  simp only [Prog.ite_bind]
  rw [Prog.bind_eval (immZ_eval d c (op &&& 1 == 0) _)]
  rfl

lemma stepTestEax_eq : stepTestEax op d c =
    let sz := if op = 0xA8 then 1 else d.opsize
    let i := immZ d c (op = 0xA8) sz
    after i.2 (do
      let a ← getreg rax sz
      modFlags fun f => flagsLogic f (a &&& i.1) sz) c := by
  unfold stepTestEax
  have h := immZ_eval d c (op = 0xA8) (if op = 0xA8 then 1 else d.opsize)
  simp only [decide_eq_true_eq] at h
  simp only [Prog.ite_bind]
  rw [Prog.bind_eval h]
  rfl

lemma stepPushReg_eq : stepPushReg op d c = after d (do
    let v ← rdR (regNo op (rexB d.rex))
    push v) c := rfl

lemma stepPopReg_eq : stepPopReg op d c = after d (do
    let v ← pop
    wrR (regNo op (rexB d.rex)) v) c := rfl

lemma stepMovsxd_eq : stepMovsxd d c = after (pastRm d c) (do
    let v ← rd (rmAt d (pastRm d c) c) 4 d.hasRex
    setreg (rmReg d c) ((v.setWidth 32).signExtend 64) d.opsize) c := by
  unfold stepMovsxd
  rw [Prog.bind_eval (modrmAdvance_eval d c)]
  rfl

lemma stepPushImm_eq : stepPushImm op d c =
    (if op = 0x68 then after (d.skip 4) (push ((codeOf c d.p0).i32 d.n))
     else after (d.skip 1) (push ((codeOf c d.p0).i8 d.n))) c := by
  unfold stepPushImm
  split <;> rfl

/-- The signed immediate of `imul` and of group 1. -/
def immS (wide : Bool) : BitVec 64 × Dec :=
  if wide then ((codeOf c d.p0).i32 d.n, d.skip 4) else ((codeOf c d.p0).i8 d.n, d.skip 1)

lemma stepImulImm_eq : stepImulImm op d c =
    let i := immS (pastRm d c) c (op != 0x6B)
    after i.2 (do
      let a ← rd (rmAt d i.2 c) d.opsize d.hasRex
      setreg (rmReg d c) (sext a d.opsize * i.1) d.opsize
      modFlags fun f => flagsLogic f (sext a d.opsize * i.1) d.opsize) c := by
  unfold stepImulImm
  rw [Prog.bind_eval (modrm_eval d c)]
  by_cases h : op = 0x6B
  · simp only [h, if_true]
    rfl
  · have hne : (op != 0x6B) = true := by simpa using h
    simp only [h, if_false, hne]
    rfl

lemma stepGrp1_eq : stepGrp1 op d c =
    let sz := if op = 0x80 then 1 else d.opsize
    let i := immS (pastRm d c) c (op = 0x81)
    after i.2 (do
      let a ← rd (rmAt d i.2 c) sz d.hasRex
      aluExec (grp1Alu (rmExt d c)) a i.1 sz fun r => wr (rmAt d i.2 c) r sz d.hasRex) c := by
  unfold stepGrp1
  rw [Prog.bind_eval (modrmExt_eval d c)]
  by_cases h : op = 0x81
  · simp only [h, if_true, decide_true]
    rfl
  · simp only [h, if_false, decide_false]
    rfl

lemma stepXchg_eq : stepXchg d c = after (pastRm d c) (do
    let a ← rd (rmAt d (pastRm d c) c) d.opsize d.hasRex
    let b ← rd (.reg (rmReg d c)) d.opsize d.hasRex
    wr (rmAt d (pastRm d c) c) b d.opsize d.hasRex
    wr (.reg (rmReg d c)) a d.opsize d.hasRex) c := by
  unfold stepXchg
  rw [Prog.bind_eval (modrmAdvance_eval d c)]
  rfl

def leaWork (reg : Fin 16) (rm : Opnd) (sz : Nat) (rip : BitVec 64) : M Unit :=
  match rm with
  | .reg _ => raise .leaRegister rip
  | .mem addr _ => setreg reg addr sz
  | .ripRel disp _ => setreg reg disp sz

lemma stepLea_eq : stepLea d c =
    after (pastRm d c) (leaWork (rmReg d c) (rmAt d (pastRm d c) c) d.opsize d.rip0) c := by
  unfold stepLea leaWork rmAt
  rw [Prog.bind_eval (modrmAdvance_eval d c)]
  simp only
  generalize fixupRip (pastRm d c) (rmOpnd d c) = rm
  cases rm <;> rfl

lemma stepPopRm_eq : stepPopRm d c = after (pastRm d c) (do
    let v ← pop
    wr (rmAt d (pastRm d c) c) v 8 d.hasRex) c := by
  unfold stepPopRm
  rw [Prog.bind_eval (modrmAdvance_eval d c)]
  rfl

lemma stepNop_eq : stepNop d c = after d (pure ()) c := rfl

lemma stepPushfq_eq : stepPushfq d c = after d (do
    let f ← rdFlags
    push (f.setWidth 64)) c := rfl

lemma stepPopfq_eq : stepPopfq d c = after d (do
    let v ← pop
    wrFlags ((v.setWidth 32 &&& (fCF ||| fPF ||| fAF ||| fZF ||| fSF ||| fOF)) ||| 0x202)) c := rfl

lemma stepCwde_eq : stepCwde d c = after d (do
    let v ← getreg rax (d.opsize / 2)
    setreg rax (sext v (d.opsize / 2)) d.opsize) c := rfl

lemma stepCdq_eq : stepCdq d c = after d (do
    let v ← getreg rax d.opsize
    setreg rdx (if (sext v d.opsize).msb then BitVec.allOnes 64 else 0) d.opsize) c := rfl

lemma stepMovRegImm8_eq : stepMovRegImm8 op d c =
    after (d.skip 1) (setreg8 (regNo op (rexB d.rex)) ((codeOf c d.p0 d.n).setWidth 64) d.hasRex) c := rfl

/-- The immediate of `mov`, the only one that can be eight bytes long. -/
def immV : BitVec 64 × Dec :=
  if d.opsize = 8 then ((codeOf c d.p0).u64 d.n, d.skip 8)
  else if d.opsize = 2 then ((codeOf c d.p0 (d.n + 1) ++ codeOf c d.p0 d.n : BitVec 16).setWidth 64, d.skip 2)
  else (((codeOf c d.p0).u32 d.n).setWidth 64, d.skip 4)

lemma stepMovRegImm_eq : stepMovRegImm op d c =
    after (immV d c).2 (setreg (regNo op (rexB d.rex)) (immV d c).1 d.opsize) c := by
  unfold stepMovRegImm immV
  by_cases h8 : d.opsize = 8
  · simp only [h8, if_true]
    rfl
  · by_cases h2 : d.opsize = 2
    · simp only [h2, if_true]
      rfl
    · simp only [h8, h2, if_false]
      rfl

/-- The count of a shift and the cursor past it: an immediate, 1 or cl. -/
def shiftCount (imm one : Bool) : BitVec 64 × Dec :=
  if imm then ((codeOf c d.p0 d.n).setWidth 64, d.skip 1)
  else if one then (1, d)
  else (c.r rcx &&& 0xff, d)

def shiftWork (ext : BitVec 8) (rm : Opnd) (cnt : BitVec 64) (sz : Nat) (rex : Bool) (rip : BitVec 64) : M Unit :=
  if cnt = 0 then pure ()
  else if ext < 4 then raise .rotate rip
  else do
    let a ← rd rm sz rex
    let f ← rdFlags
    wrFlags (rsdIShift f a cnt sz ext).2
    wr rm (rsdIShift f a cnt sz ext).1 sz rex

def shiftSize (op : BitVec 8) (sz : Nat) : Nat := if op = 0xC0 ∨ op = 0xD0 ∨ op = 0xD2 then 1 else sz

/-- The count decides what is done with the operand, not what is read of the code. -/
lemma shift_tail (ext : BitVec 8) (rm : Opnd) (cnt : BitVec 64) (sz : Nat) (e : Dec) :
    (do
      wrRip (decRip e)
      if cnt = 0 then pure e
      else if ext < 4 then do
        raise .rotate e.rip0
        pure e
      else do
        let a ← rd rm sz e.hasRex
        let f ← rdFlags
        wrFlags (rsdIShift f a cnt sz ext).2
        wr rm (rsdIShift f a cnt sz ext).1 sz e.hasRex
        pure e : M Dec) c = after e (shiftWork ext rm cnt sz e.hasRex e.rip0) c := by
  unfold after shiftWork
  by_cases h0 : cnt = 0
  · simp only [h0, if_true, Prog.bind_apply, Prog.pure_apply]
  · by_cases h4 : ext < 4
    · simp only [h0, h4, if_true, if_false, Prog.bind_apply, Prog.pure_apply]
    · simp only [h0, h4, if_false]
      rfl

lemma stepShift_eq : stepShift op d c =
    let sz := shiftSize op d.opsize
    let i := shiftCount (pastRm d c) c (op = 0xC0 ∨ op = 0xC1) (op = 0xD0 ∨ op = 0xD1)
    after i.2 (shiftWork (rmExt d c) (rmAt d i.2 c) (i.1 &&& countMask sz) sz d.hasRex d.rip0) c := by
  unfold stepShift shiftCount
  rw [Prog.bind_eval (modrmExt_eval d c)]
  by_cases hi : op = 0xC0 ∨ op = 0xC1
  · simp only [hi, if_true, decide_true]
    exact shift_tail c _ _ _ _ ((pastRm d c).skip 1)
  · by_cases ho : op = 0xD0 ∨ op = 0xD1
    · simp only [hi, ho, if_true, if_false, decide_true, decide_false, Bool.false_eq_true]
      exact shift_tail c _ _ _ _ (pastRm d c)
    · simp only [hi, ho, if_false, decide_false, Bool.false_eq_true]
      exact shift_tail c _ _ _ _ (pastRm d c)

lemma stepMovRmImm_eq : stepMovRmImm op d c =
    let sz := if op = 0xC6 then 1 else d.opsize
    let i : BitVec 64 × Dec :=
      if op = 0xC6 then ((codeOf c d.p0 (pastRm d c).n).setWidth 64, (pastRm d c).skip 1)
      else ((codeOf c d.p0).i32 (pastRm d c).n, (pastRm d c).skip 4)
    after i.2 (wr (rmAt d i.2 c) i.1 sz d.hasRex) c := by
  unfold stepMovRmImm
  rw [Prog.bind_eval (modrm_eval d c)]
  by_cases h : op = 0xC6
  · simp only [h, if_true]
    rfl
  · simp only [h, if_false]
    rfl

lemma stepLeave_eq : stepLeave d c = after d (do
    let bp ← rdR rbp
    wrR rsp bp
    let v ← pop
    wrR rbp v) c := rfl

/-- The immediate of group 3, which `test` alone has. -/
def immTest (byte : Bool) (ext : BitVec 8) : BitVec 64 × Dec :=
  if ext = 0 ∨ ext = 1 then
    (if byte then ((codeOf c d.p0 d.n).setWidth 64, d.skip 1) else ((codeOf c d.p0).i32 d.n, d.skip 4))
  else (0, d)

lemma stepGrp3_eq : stepGrp3 op d c =
    let sz := if op = 0xF6 then 1 else d.opsize
    let i := immTest (pastRm d c) c (op = 0xF6) (rmExt d c)
    after i.2 (do
      let a ← rd (rmAt d i.2 c) sz d.hasRex
      grp3Exec (rmExt d c) a i.1 sz (rmAt d i.2 c) i.2) c := by
  unfold stepGrp3 immTest
  rw [Prog.bind_eval (modrmExt_eval d c)]
  simp only [rmExt]
  by_cases ht : extField (codeOf c d.p0 d.n) = 0 ∨ extField (codeOf c d.p0 d.n) = 1
  · by_cases hb : op = 0xF6
    · simp only [ht, hb, if_true, decide_true]
      rfl
    · simp only [ht, hb, if_true, if_false, decide_false, Bool.false_eq_true]
      rfl
  · simp only [ht, if_false]
    rfl

lemma stepGrp5_eq : stepGrp5 op d c =
    let sz := if op = 0xFE then 1 else d.opsize
    after (pastRm d c) (do
      let a ← rd (rmAt d (pastRm d c) c) sz d.hasRex
      grp5Exec (rmExt d c) a sz (rmAt d (pastRm d c) c) (pastRm d c)) c := by
  unfold stepGrp5
  rw [Prog.bind_eval (modrmExt_eval d c)]
  rfl

/-! ### The two-byte opcodes -/

lemma twoNop_eq : (do
    let (_, _, d) ← modrmAdvance d
    pure d : M Dec) c = after (pastRm d c) (pure ()) c := by
  rw [Prog.bind_eval (modrmAdvance_eval d c)]
  rfl

lemma stepSetcc_eq : stepSetcc op d c = after (pastRm d c) (do
    let f ← rdFlags
    wr (rmAt d (pastRm d c) c) (if cond f (op &&& 0xF) then 1 else 0) 1 d.hasRex) c := by
  unfold stepSetcc
  rw [Prog.bind_eval (modrmAdvance_eval d c)]
  rfl

def cmovWork (cc : BitVec 8) (reg : Fin 16) (rm : Opnd) (sz : Nat) (rex : Bool) : M Unit := do
  let f ← rdFlags
  if cond f cc then
    let v ← rd rm sz rex
    setreg reg v sz
  else pure ()

lemma stepCmov_eq : stepCmov op d c = after (pastRm d c)
    (cmovWork (op &&& 0xF) (rmReg d c) (rmAt d (pastRm d c) c) d.opsize d.hasRex) c := by
  have htail (f : BitVec 32) : (if cond f (op &&& 0xF) then do
        let v ← rd (rmAt d (pastRm d c) c) d.opsize d.hasRex
        setreg (rmReg d c) v d.opsize
        pure (pastRm d c)
      else pure (pastRm d c) : M Dec) = (if cond f (op &&& 0xF) then do
        let v ← rd (rmAt d (pastRm d c) c) d.opsize d.hasRex
        setreg (rmReg d c) v d.opsize
      else pure ()) >>= fun _ => pure (pastRm d c) := by
    cases cond f (op &&& 0xF) <;> rfl
  unfold stepCmov
  rw [Prog.bind_eval (modrmAdvance_eval d c)]
  exact congrArg (fun g => (rdFlags >>= g) { c with rip := decRip (pastRm d c) }) (funext htail)

def shldWork (left : Prop) [Decidable left] (reg : Fin 16) (rm : Opnd) (cnt sz : Nat) (rex : Bool) : M Unit :=
  if cnt = 0 then pure ()
  else do
    let dst ← rd rm sz rex
    let src ← getreg reg sz
    let r := if left then (dst <<< cnt) ||| (src >>> backCount sz cnt) else (dst >>> cnt) ||| (src <<< backCount sz cnt)
    modFlags fun f => flagsLogic f r sz
    wr rm r sz rex

lemma shld_tail (left : Prop) [Decidable left] (reg : Fin 16) (rm : Opnd) (cnt sz : Nat) (e : Dec) :
    (do
      wrRip (decRip e)
      if cnt = 0 then pure e
      else do
        let dst ← rd rm sz e.hasRex
        let src ← getreg reg sz
        let r := if left then (dst <<< cnt) ||| (src >>> backCount sz cnt)
          else (dst >>> cnt) ||| (src <<< backCount sz cnt)
        modFlags fun f => flagsLogic f r sz
        wr rm r sz e.hasRex
        pure e : M Dec) c = after e (shldWork left reg rm cnt sz e.hasRex) c := by
  unfold after shldWork
  by_cases h0 : cnt = 0
  · simp only [h0, if_true, Prog.bind_apply, Prog.pure_apply]
  · simp only [h0, if_false]
    rfl

lemma stepShld_eq : stepShld op d c =
    let i := shiftCount (pastRm d c) c (op = 0xA4 ∨ op = 0xAC) false
    after i.2 (shldWork (op < 0xAC) (rmReg d c) (rmAt d i.2 c) (i.1 &&& countMask d.opsize).toNat d.opsize
      d.hasRex) c := by
  unfold stepShld shiftCount
  rw [Prog.bind_eval (modrm_eval d c)]
  by_cases hi : op = 0xA4 ∨ op = 0xAC
  · simp only [hi, if_true, decide_true]
    exact shld_tail c _ _ _ _ _ ((pastRm d c).skip 1)
  · simp only [hi, if_false, decide_false, Bool.false_eq_true]
    exact shld_tail c _ _ _ _ _ (pastRm d c)

lemma stepImul_eq : stepImul d c = after (pastRm d c) (do
    let a ← getreg (rmReg d c) d.opsize
    let b ← rd (rmAt d (pastRm d c) c) d.opsize d.hasRex
    setreg (rmReg d c) (sext a d.opsize * sext b d.opsize) d.opsize
    modFlags fun f => flagsLogic f (sext a d.opsize * sext b d.opsize) d.opsize) c := by
  unfold stepImul
  rw [Prog.bind_eval (modrmAdvance_eval d c)]
  rfl

lemma stepMovx_eq : stepMovx op d c =
    let ssz := if op &&& 1 != 0 then 2 else 1
    after (pastRm d c) (do
      let v ← rd (rmAt d (pastRm d c) c) ssz d.hasRex
      setreg (rmReg d c) (if op &&& 8 != 0 then sext v ssz else v) d.opsize) c := by
  unfold stepMovx
  rw [Prog.bind_eval (modrmAdvance_eval d c)]
  rfl

end Cases

section Work

variable {P : ∀ {α : Type}, M α → Prop} [HasWork P] [HasFlags P]

instance (o : Alu) (dst src : Opnd) (sz : Nat) (rex : Bool) : IsBuilt P (aluWork o dst src sz rex) := by
  unfold aluWork; infer_instance

instance (reg : Fin 16) (rm : Opnd) (sz : Nat) (rip : BitVec 64) : IsBuilt P (leaWork reg rm sz rip) := by
  cases rm <;> simp only [leaWork] <;> infer_instance

instance (ext : BitVec 8) (rm : Opnd) (cnt : BitVec 64) (sz : Nat) (rex : Bool) (rip : BitVec 64) :
    IsBuilt P (shiftWork ext rm cnt sz rex rip) := by
  unfold shiftWork; infer_instance

instance (cc : BitVec 8) (reg : Fin 16) (rm : Opnd) (sz : Nat) (rex : Bool) : IsBuilt P (cmovWork cc reg rm sz rex) := by
  unfold cmovWork; infer_instance

instance (left : Prop) [Decidable left] (reg : Fin 16) (rm : Opnd) (cnt sz : Nat) (rex : Bool) :
    IsBuilt P (shldWork left reg rm cnt sz rex) := by
  unfold shldWork; infer_instance

end Work

section Cases

variable (op : BitVec 8) (d : Dec) (c : Cpu)

/-! ### SSE -/

/-- The shape of the cases of `sse_exec` that handle their opcode. -/
def handled (e : Dec) (body : M Unit) : M (Bool × Dec) := do
  let d ← after e body
  pure (true, d)

/-- An opcode is declined, or read up to `e` and then worked on. -/
def Handles (p : M (Bool × Dec)) (e : Dec) (body : M Unit) : Prop := (p c).1.1 = false ∨ p c = handled e body c

variable {c} in
lemma bind_handled {α : Type} {x : M α} {a : α} {e : Dec} {g : α → M (Bool × Dec)} {body : M Unit}
    (hx : x c = (a, { c with rip := decRip e })) (hg : g a = body >>= fun _ => pure (true, e)) :
    (x >>= g) c = handled e body c := by
  rw [Prog.bind_eval hx, hg]
  rfl

variable {c} in
lemma handles_ite {q : Prop} [Decidable q] {x y : M (Bool × Dec)} {e : Dec} {body : M Unit} (hx : (x c).1.1 = false)
    (hy : Handles c y e body) : Handles c (if q then x else y) e body := by
  by_cases h : q
  · rw [if_pos h]
    exact .inl hx
  · rw [if_neg h]
    exact hy

lemma sseMov_handles : Handles c (sseMov d op) (pastRm d c) (sseMovExec d.mand op (rmReg d c) (rmAt d (pastRm d c) c)) :=
  .inr (bind_handled (modrmAdvance_eval d c) rfl)

def moveWork (dst src : Opnd) : M Unit := do
  let a ← xrd src
  xwr dst a

lemma sseMovdq_handles : Handles c (sseMovdq d op) (pastRm d c)
    (moveWork (if op == 0x7F then rmAt d (pastRm d c) c else .reg (rmReg d c))
      (if op == 0x7F then .reg (rmReg d c) else rmAt d (pastRm d c) c)) :=
  handles_ite rfl (.inr (bind_handled (modrmAdvance_eval d c) rfl))

def movdInWork (reg : Fin 16) (rm : Opnd) (n : Nat) : M Unit := do
  let v ← grd rm n
  wrX reg ⟨v, 0⟩

lemma sseMovdIn_handles : Handles c (sseMovdIn d) (pastRm d c)
    (movdInWork (rmReg d c) (rmAt d (pastRm d c) c) (if rexW d.rex then 8 else 4)) :=
  handles_ite rfl (.inr (bind_handled (modrmAdvance_eval d c) rfl))

/-- What `movd` and `movq` out of a register do: under `F3` the register is loaded instead. -/
def movdOutWork (mand : BitVec 8) (reg : Fin 16) (rm : Opnd) (n : Nat) : M Unit :=
  if mand = 0xF3 then do
    let v ← xrdLo rm 8
    wrX reg ⟨v, 0⟩
  else do
    let x ← rdX reg
    gwr rm x.lo n

lemma sseMovdOut_handles : Handles c (sseMovdOut d) (pastRm d c)
    (movdOutWork d.mand (rmReg d c) (rmAt d (pastRm d c) c) (if rexW d.rex then 8 else 4)) := by
  have hm : (pastRm d c).mand = d.mand := rfl
  unfold sseMovdOut movdOutWork
  by_cases h3 : d.mand = 0xF3
  · refine .inr (bind_handled (modrmAdvance_eval d c) ?_)
    simp only [hm, if_pos h3]
    rfl
  · by_cases h6 : d.mand ≠ 0x66
    · left
      rw [Prog.bind_eval (modrmAdvance_eval d c)]
      simp only [hm, if_neg h3, if_pos h6]
      rfl
    · refine .inr (bind_handled (modrmAdvance_eval d c) ?_)
      simp only [hm, if_neg h3, if_neg h6]
      rfl

def movqWork (reg : Fin 16) (rm : Opnd) : M Unit :=
  match rm with
  | .reg i => do
    wrX i ⟨0, 0⟩
    let x ← rdX reg
    wrX i ⟨x.lo, 0⟩
  | .mem addr seg => do
    let x ← rdX reg
    st (addr + seg) x.lo 8
  | .ripRel disp seg => do
    let x ← rdX reg
    st (disp + seg) x.lo 8

lemma sseMovq_handles : Handles c (sseMovq d) (pastRm d c) (movqWork (rmReg d c) (rmAt d (pastRm d c) c)) := by
  refine handles_ite rfl (.inr (bind_handled (modrmAdvance_eval d c) ?_))
  unfold movqWork rmAt
  simp only
  generalize fixupRip (pastRm d c) (rmOpnd d c) = rm
  cases rm <;> rfl

lemma sseBitwise_handles : Handles c (sseBitwise d op) (pastRm d c)
    (sseBitwiseExec op (rmReg d c) (rmAt d (pastRm d c) c)) :=
  handles_ite rfl (.inr (bind_handled (modrmAdvance_eval d c) rfl))

lemma sseArith_handles (fp : Fp) : Handles c (sseArith fp d op) (pastRm d c)
    (sseArithExec fp d.mand op (rmReg d c) (rmAt d (pastRm d c) c)) :=
  .inr (bind_handled (modrmAdvance_eval d c) rfl)

lemma sseComis_handles (fp : Fp) : Handles c (sseComis fp d) (pastRm d c)
    (sseComisExec fp d.mand (rmReg d c) (rmAt d (pastRm d c) c)) :=
  .inr (bind_handled (modrmAdvance_eval d c) rfl)

lemma sseCvtFrom_handles (fp : Fp) : Handles c (sseCvtFrom fp d) (pastRm d c)
    (sseCvtFromExec fp d.mand (if rexW d.rex then 8 else 4) (rmReg d c) (rmAt d (pastRm d c) c)) :=
  handles_ite rfl (.inr (bind_handled (modrmAdvance_eval d c) rfl))

lemma sseCvtTo_handles (fp : Fp) : Handles c (sseCvtTo fp d op) (pastRm d c)
    (sseCvtToExec fp d.mand op (if rexW d.rex then 8 else 4) (rmReg d c) (rmAt d (pastRm d c) c)) :=
  handles_ite rfl (.inr (bind_handled (modrmAdvance_eval d c) rfl))

lemma sseCvtFloat_handles (fp : Fp) : Handles c (sseCvtFloat fp d) (pastRm d c)
    (sseCvtFloatExec fp d.mand (rmReg d c) (rmAt d (pastRm d c) c)) :=
  handles_ite rfl (.inr (bind_handled (modrmAdvance_eval d c) rfl))

def pcmpeqWork (op : BitVec 8) (reg : Fin 16) (rm : Opnd) : M Unit := do
  let b ← xrd rm
  let a ← rdX reg
  if op = 0x74 then wrX reg (Xmm.ofLanes 8 16 fun i => if a.lane 8 i = b.lane 8 i then 0xff else 0)
  else wrX reg (Xmm.ofLanes 32 4 fun i => if a.lane 32 i = b.lane 32 i then 0xffffffff else 0)

lemma ssePcmpeq_handles : Handles c (ssePcmpeq d op) (pastRm d c)
    (pcmpeqWork op (rmReg d c) (rmAt d (pastRm d c) c)) := by
  refine handles_ite rfl (.inr (bind_handled (modrmAdvance_eval d c) ?_))
  unfold pcmpeqWork
  by_cases h : op = 0x74
  · simp only [h, if_true]
    rfl
  · simp only [h, if_false]
    rfl

def unpackWork (mand op : BitVec 8) (reg : Fin 16) (rm : Opnd) : M Unit := do
  let b ← xrd rm
  let a ← rdX reg
  wrX reg (if mand = 0x66 then unpack64 (op == 0x15 || op == 0x6D) a b else unpack32 (op == 0x15 || op == 0x6D) a b)

lemma sseUnpck_handles : Handles c (sseUnpck d op) (pastRm d c)
    (unpackWork d.mand op (rmReg d c) (rmAt d (pastRm d c) c)) :=
  handles_ite rfl (handles_ite rfl (.inr (bind_handled (modrmAdvance_eval d c) rfl)))

/-- `pmovmskb` and `pextrw` decline a memory operand after they have read it. -/
def onReg (rm : Opnd) (body : Fin 16 → M Unit) : M Unit :=
  match rm with
  | .reg i => body i
  | _ => pure ()

variable {c} in
lemma handles_reg {α : Type} {x : M α} {a : α} {e : Dec} {g : α → M (Bool × Dec)} (rm : Opnd) {body : Fin 16 → M Unit}
    (hx : x c = (a, { c with rip := decRip e }))
    (hg : g a = match rm with
      | .reg i => body i >>= fun _ => pure (true, e)
      | _ => pure (false, e)) : Handles c (x >>= g) e (onReg rm body) := by
  cases rm with
  | reg i => exact .inr (bind_handled hx hg)
  | mem addr seg =>
    left
    rw [Prog.bind_eval hx, hg]
    rfl
  | ripRel disp seg =>
    left
    rw [Prog.bind_eval hx, hg]
    rfl

def pmovmskbWork (reg i : Fin 16) : M Unit := do
  let x ← rdX i
  setreg reg (byteMask x) 8

lemma ssePmovmskb_handles : Handles c (ssePmovmskb d) (pastRm d c)
    (onReg (rmAt d (pastRm d c) c) (pmovmskbWork (rmReg d c))) := by
  refine handles_ite rfl (handles_reg (rmAt d (pastRm d c) c) (modrmAdvance_eval d c) ?_)
  unfold rmAt
  simp only
  generalize fixupRip (pastRm d c) (rmOpnd d c) = rm
  cases rm <;> rfl

def pextrwWork (imm : BitVec 8) (reg i : Fin 16) : M Unit := do
  let x ← rdX i
  setreg reg ((x.lane 16 (imm &&& 7).toNat).setWidth 64) 8

lemma ssePextrw_handles : Handles c (ssePextrw d) ((pastRm d c).skip 1)
    (onReg (rmAt d ((pastRm d c).skip 1) c) (pextrwWork (codeOf c d.p0 (pastRm d c).n) (rmReg d c))) := by
  refine handles_ite rfl (handles_reg (rmAt d ((pastRm d c).skip 1) c) (modrmImmAdvance_eval d c) ?_)
  unfold rmAt
  simp only
  generalize fixupRip ((pastRm d c).skip 1) (rmOpnd d c) = rm
  cases rm <;> rfl

def pshufdWork (imm : BitVec 8) (reg : Fin 16) (rm : Opnd) : M Unit := do
  let b ← xrd rm
  wrX reg (Xmm.ofLanes 32 4 fun i => b.lane 32 ((imm >>> (2 * i)) &&& 3).toNat)

lemma ssePshufd_handles : Handles c (ssePshufd d) ((pastRm d c).skip 1)
    (pshufdWork (codeOf c d.p0 (pastRm d c).n) (rmReg d c) (rmAt d ((pastRm d c).skip 1) c)) :=
  handles_ite rfl (.inr (bind_handled (modrmImmAdvance_eval d c) rfl))

lemma sseCmp_handles (fp : Fp) : Handles c (sseCmp fp d) ((pastRm d c).skip 1)
    (sseCmpExec fp d.mand (codeOf c d.p0 (pastRm d c).n) (rmReg d c) (rmAt d ((pastRm d c).skip 1) c)) :=
  .inr (bind_handled (modrmImmAdvance_eval d c) rfl)

/-- An immediate byte follows the operand of the shuffle, the comparison and `pextrw`. -/
def pastSse : Dec := if op = 0x70 ∨ op = 0xC2 ∨ op = 0xC5 then (pastRm d c).skip 1 else pastRm d c

lemma sseClass_imm : ∀ op : BitVec 8, (op = 0x70 ∨ op = 0xC2 ∨ op = 0xC5) ↔
    (sseClass op = .pshufd ∨ sseClass op = .cmp ∨ sseClass op = .pextrw) := by
  simp only [sseClass_eq]
  decide

/-- The work of an SSE opcode that ends at `e`. -/
def sseWork (fp : Fp) (e : Dec) : M Unit :=
  let reg := rmReg d c
  let rm := rmAt d e c
  let isize := if rexW d.rex then 8 else 4
  let imm := codeOf c d.p0 (pastRm d c).n
  match sseClass op with
  | .mov => sseMovExec d.mand op reg rm
  | .movdq => moveWork (if op == 0x7F then rm else .reg reg) (if op == 0x7F then .reg reg else rm)
  | .movdIn => movdInWork reg rm isize
  | .movdOut => movdOutWork d.mand reg rm isize
  | .movq => movqWork reg rm
  | .bitwise => sseBitwiseExec op reg rm
  | .arith => sseArithExec fp d.mand op reg rm
  | .comis => sseComisExec fp d.mand reg rm
  | .cvtFrom => sseCvtFromExec fp d.mand isize reg rm
  | .cvtTo => sseCvtToExec fp d.mand op isize reg rm
  | .cvtFloat => sseCvtFloatExec fp d.mand reg rm
  | .pcmpeq => pcmpeqWork op reg rm
  | .pmovmskb => onReg rm (pmovmskbWork reg)
  | .pshufd => pshufdWork imm reg rm
  | .unpck => unpackWork d.mand op reg rm
  | .cmp => sseCmpExec fp d.mand imm reg rm
  | .pextrw => onReg rm (pextrwWork imm reg)
  | .none => pure ()

lemma sseExec_handles (fp : Fp) :
    Handles c (sseExec fp d op) (pastSse op d c) (sseWork op d c fp (pastSse op d c)) := by
  unfold sseExec pastSse sseWork
  simp only [sseClass_imm op]
  cases sseClass op with
  | mov => exact sseMov_handles op d c
  | movdq => exact sseMovdq_handles op d c
  | movdIn => exact sseMovdIn_handles d c
  | movdOut => exact sseMovdOut_handles d c
  | movq => exact sseMovq_handles d c
  | bitwise => exact sseBitwise_handles op d c
  | arith => exact sseArith_handles op d c fp
  | comis => exact sseComis_handles d c fp
  | cvtFrom => exact sseCvtFrom_handles d c fp
  | cvtTo => exact sseCvtTo_handles op d c fp
  | cvtFloat => exact sseCvtFloat_handles d c fp
  | pcmpeq => exact ssePcmpeq_handles op d c
  | pmovmskb => exact ssePmovmskb_handles d c
  | pshufd => exact ssePshufd_handles d c
  | unpck => exact sseUnpck_handles op d c
  | cmp => exact sseCmp_handles d c fp
  | pextrw => exact ssePextrw_handles d c
  | none => exact .inl rfl

/-! ### Branches and returns: the cursor alone -/

lemma stepJcc8_fst : (stepJcc8 op d c).1 = d.skip 1 := by
  unfold stepJcc8
  rw [Prog.bind_eval (imm8s_eval d c)]
  simp only [Prog.bind_apply, Prog.ite_apply']
  split <;> rfl

lemma stepJcc32_fst : (stepJcc32 op d c).1 = d.skip 4 := by
  unfold stepJcc32
  rw [Prog.bind_eval (imm32s_eval d c)]
  simp only [Prog.bind_apply, Prog.ite_apply']
  split <;> rfl

lemma stepJmp_fst : (stepJmp op d c).1 = if op = 0xE9 then d.skip 4 else d.skip 1 := by
  unfold stepJmp
  split <;> rfl

lemma stepCall_fst : (stepCall d c).1 = d.skip 4 := rfl

lemma stepRetImm_fst : (stepRetImm d c).1 = d.skip 2 := rfl

lemma stepRet_fst : (stepRet d c).1 = d := rfl

end Cases

section SseWork

variable {P : ∀ {α : Type}, M α → Prop} [HasWork P] [HasFlags P]

instance (dst src : Opnd) : IsBuilt P (moveWork dst src) := by
  unfold moveWork; infer_instance

instance (reg : Fin 16) (rm : Opnd) (n : Nat) : IsBuilt P (movdInWork reg rm n) := by
  unfold movdInWork; infer_instance

instance (mand : BitVec 8) (reg : Fin 16) (rm : Opnd) (n : Nat) : IsBuilt P (movdOutWork mand reg rm n) := by
  unfold movdOutWork; infer_instance

instance (reg : Fin 16) (rm : Opnd) : IsBuilt P (movqWork reg rm) := by
  cases rm <;> simp only [movqWork] <;> infer_instance

instance (op : BitVec 8) (reg : Fin 16) (rm : Opnd) : IsBuilt P (pcmpeqWork op reg rm) := by
  unfold pcmpeqWork; infer_instance

instance (mand op : BitVec 8) (reg : Fin 16) (rm : Opnd) : IsBuilt P (unpackWork mand op reg rm) := by
  unfold unpackWork; infer_instance

instance (rm : Opnd) (body : Fin 16 → M Unit) [∀ i, IsBuilt P (body i)] : IsBuilt P (onReg rm body) := by
  cases rm <;> simp only [onReg] <;> infer_instance

instance (reg i : Fin 16) : IsBuilt P (pmovmskbWork reg i) := by
  unfold pmovmskbWork; infer_instance

instance (imm : BitVec 8) (reg i : Fin 16) : IsBuilt P (pextrwWork imm reg i) := by
  unfold pextrwWork; infer_instance

instance (imm : BitVec 8) (reg : Fin 16) (rm : Opnd) : IsBuilt P (pshufdWork imm reg rm) := by
  unfold pshufdWork; infer_instance

instance (op : BitVec 8) (d : Dec) (c : Cpu) (fp : Fp) (e : Dec) : IsBuilt P (sseWork op d c fp e) := by
  unfold sseWork
  cases sseClass op <;> infer_instance

end SseWork

end Rashid.Proofs
