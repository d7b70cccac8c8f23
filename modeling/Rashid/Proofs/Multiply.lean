import Rashid.Proofs.RmOperand
import Rashid.Proofs.Shifts

/-!
# Multiplication

The products are right at every width, but for the upper byte of a byte's. CF and OF are not: the
forms with one operand leave them as they were, the others clear them.
-/

namespace Rashid.Proofs

/-! ### Products -/

section Product

variable {sz : Nat} (hsz : Sized sz) (signed : Bool) (a v : BitVec 64)

include hsz

lemma sext_lowPart : sext a sz = (lowPart sz a).signExtend 64 := by
  rcases hsz with rfl | rfl | rfl | rfl
  · rfl
  · rfl
  · rfl
  · show a = (a.setWidth 64).signExtend 64
    rw [BitVec.signExtend_eq, BitVec.setWidth_eq]

/-- A factor of 128 bits is the number that the operand stands for. -/
lemma wide_eq : (if signed then (sext a sz).signExtend 128 else (truncSz a sz).setWidth 128) =
    BitVec.ofInt 128 (numOf signed (lowPart sz a)) := by
  have h64 := szBits_le sz
  cases signed with
  | true =>
    simp only [if_true, numOf]
    rw [sext_lowPart hsz, BitVec.signExtend, BitVec.toInt_signExtend_of_le h64]
  | false =>
    simp only [Bool.false_eq_true, if_false, numOf]
    rw [truncSz_lowPart, BitVec.ofInt_natCast]
    apply BitVec.eq_of_toNat_eq
    rw [BitVec.toNat_setWidth, BitVec.toNat_setWidth_of_le h64, BitVec.toNat_ofNat]

lemma product_wide : (if signed then imulWide (sext a sz) (sext v sz) else mulWide (truncSz a sz) (truncSz v sz)) =
    BitVec.ofInt 128 (numOf signed (lowPart sz a) * numOf signed (lowPart sz v)) := by
  rw [BitVec.ofInt_mul, ← wide_eq hsz signed a, ← wide_eq hsz signed v]
  cases signed <;> rfl

omit hsz in
lemma setWidth_ofInt {m n : Nat} (h : m ≤ n) (z : ℤ) : (BitVec.ofInt n z).setWidth m = BitVec.ofInt m z := by
  have hdvd : ((2 ^ m : ℕ) : ℤ) ∣ ((2 ^ n : ℕ) : ℤ) := Int.natCast_dvd_natCast.mpr (Nat.pow_dvd_pow 2 h)
  have hpos : (0 : ℤ) < ((2 ^ n : ℕ) : ℤ) := Int.natCast_pos.mpr (Nat.two_pow_pos n)
  apply BitVec.eq_of_toNat_eq
  rw [BitVec.toNat_setWidth, BitVec.toNat_ofInt, BitVec.toNat_ofInt, ← Int.emod_emod_of_dvd z hdvd, Int.toNat_emod
    (Int.emod_nonneg z (ne_of_gt hpos)) (Int.natCast_nonneg _), Int.toNat_natCast]

end Product

/-- The registers with a product in them: of bytes in ax, else in rdx and rax. -/
def productRegs (r : Fin 16 → BitVec 64) (sz : Nat) (p : BitVec (szBits sz + szBits sz)) : Fin 16 → BitVec 64 :=
  if sz = 1 then Function.update r rax (mergeSz (r rax) (p.setWidth 64) 2)
  else Function.update (Function.update r rax (mergeSz (r rax) (p.setWidth 64) sz)) rdx
    (mergeSz (r rdx) ((p >>> szBits sz).setWidth 64) sz)

/-- What the manual asks of a multiplication by one operand, in the registers `r`. -/
structure ProductWide {sz : Nat} (signed : Bool) (x y : BitVec (szBits sz)) (r : Fin 16 → BitVec 64)
    (c' : Cpu) : Prop where
  regs : c'.r = productRegs r sz (productOf signed x y)
  cf : c'.flags.getLsbD 0 = productOut signed x y
  of : c'.flags.getLsbD 11 = productOut signed x y

/-- What it asks of one into a register. -/
structure ProductShort {sz : Nat} (reg : Fin 16) (x y : BitVec (szBits sz)) (r : Fin 16 → BitVec 64)
    (c' : Cpu) : Prop where
  regs : c'.r = Function.update r reg (mergeSz (r reg) ((BitVec.ofInt (szBits sz) (x.toInt * y.toInt)).setWidth 64) sz)
  cf : c'.flags.getLsbD 0 = productOut true x y
  of : c'.flags.getLsbD 11 = productOut true x y

/-- The registers that the interpreter leaves a product in. -/
def setProductRegs (r : Fin 16 → BitVec 64) (sz : Nat) (p : BitVec 128) : Fin 16 → BitVec 64 :=
  if 1 < sz then Function.update (Function.update r rax (mergeSz (r rax) (p.setWidth 64) sz)) rdx
    (mergeSz (r rdx) ((p >>> (sz * 8)).setWidth 64) sz)
  else Function.update r rax (mergeSz (r rax) (p.setWidth 64) sz)

lemma setProduct_eval (p : BitVec 128) (sz : Nat) (c : Cpu) :
    (setProduct p sz c).2 = { c with r := setProductRegs c.r sz p } := by
  unfold setProduct setProductRegs
  by_cases h : 1 < sz
  · rw [if_pos h, if_pos h]
    rfl
  · rw [if_neg h, if_neg h]
    rfl

lemma getLsbD_ofInt {m n i : Nat} (hm : i < m) (hn : i < n) (z : ℤ) :
    (BitVec.ofInt m z).getLsbD i = (BitVec.ofInt n z).getLsbD i := by
  have hbit {k : Nat} (hk : i < k) : (BitVec.ofInt k z).getLsbD i = (BitVec.ofInt (i + 1) z).getLsbD i := by
    rw [← setWidth_ofInt (show i + 1 ≤ k from hk), BitVec.getLsbD_setWidth, decide_eq_true (Nat.lt_succ_self i),
      Bool.true_and]
  rw [hbit hm, hbit hn]

section Registers

variable {sz : Nat} (hsz : Sized sz) (r : Fin 16 → BitVec 64) (z : ℤ)

lemma product_low : lowPart sz ((BitVec.ofInt (szBits sz + szBits sz) z).setWidth 64) =
    lowPart sz ((BitVec.ofInt 128 z).setWidth 64) := by
  have h64 := szBits_le sz
  apply BitVec.eq_of_getLsbD_eq
  intro i hi
  rw [getLsbD_lowPart, getLsbD_lowPart, BitVec.getLsbD_setWidth, BitVec.getLsbD_setWidth,
    getLsbD_ofInt (m := szBits sz + szBits sz) (n := 128) (by omega) (by omega)]

include hsz in
/-- Of more than bytes the product is in its registers. -/
lemma productRegs_wide (h1 : sz ≠ 1) :
    setProductRegs r sz (BitVec.ofInt 128 z) = productRegs r sz (BitVec.ofInt (szBits sz + szBits sz) z) := by
  obtain ⟨h0, -, hw⟩ := szBits_pos hsz
  have h64 := szBits_le sz
  have hhigh : lowPart sz ((BitVec.ofInt 128 z >>> (sz * 8)).setWidth 64) =
      lowPart sz ((BitVec.ofInt (szBits sz + szBits sz) z >>> szBits sz).setWidth 64) := by
    apply BitVec.eq_of_getLsbD_eq
    intro i hi
    rw [getLsbD_lowPart, getLsbD_lowPart, BitVec.getLsbD_setWidth, BitVec.getLsbD_setWidth, BitVec.getLsbD_ushiftRight,
      BitVec.getLsbD_ushiftRight, hw, getLsbD_ofInt (m := 128) (n := szBits sz + szBits sz) (by omega) (by omega)]
  rw [setProductRegs, productRegs, if_neg h1, if_pos (by omega), mergeSz_congr _ (product_low z).symm,
    mergeSz_congr _ hhigh]

end Registers

/-- A narrow write keeps the bits above it. -/
lemma getLsbD_mergeSz {n : Nat} (hn : n = 1 ∨ n = 2) (old v : BitVec 64) (i : Nat) :
    (mergeSz old v n).getLsbD i = if i < szBits n then v.getLsbD i else old.getLsbD i := by
  have hff : (0xff : BitVec 64).getLsbD i = decide (i < 8) := getLsbD_ones 8 i (by omega) _ rfl
  have hffff : (0xffff : BitVec 64).getLsbD i = decide (i < 16) := getLsbD_ones 16 i (by omega) _ rfl
  rcases hn with rfl | rfl
  · simp only [mergeSz, szBits, BitVec.getLsbD_or, BitVec.getLsbD_and, BitVec.getLsbD_not, hff]
    by_cases h : i < 8
    · simp [h]
    · by_cases h64 : i < 64
      · simp [h, h64]
      · simp [h, h64, BitVec.getLsbD_of_ge old i (by omega)]
  · simp only [mergeSz, szBits, BitVec.getLsbD_or, BitVec.getLsbD_and, BitVec.getLsbD_not, hffff]
    by_cases h : i < 16
    · simp [h]
    · by_cases h64 : i < 64
      · simp [h, h64]
      · simp [h, h64, BitVec.getLsbD_of_ge old i (by omega)]

/-- Of bytes only the lower half is written. -/
lemma productRegs_byte (r : Fin 16 → BitVec 64) (z : ℤ) :
    setProductRegs r 1 (BitVec.ofInt 128 z) = productRegs r 1 (BitVec.ofInt (szBits 1 + szBits 1) z) ↔
      (r rax).extractLsb' 8 8 = (BitVec.ofInt (szBits 1 + szBits 1) z).extractLsb' 8 8 := by
  have hbyte (i : Nat) : (mergeSz (r rax) ((BitVec.ofInt 128 z).setWidth 64) 1).getLsbD i =
      if i < 8 then (BitVec.ofInt 16 z).getLsbD i else (r rax).getLsbD i := by
    rw [getLsbD_mergeSz (.inl rfl)]
    by_cases h : i < 8
    · rw [if_pos h, if_pos (show i < szBits 1 from h), BitVec.getLsbD_setWidth, decide_eq_true (show i < 64 by omega),
        Bool.true_and, getLsbD_ofInt (m := 128) (n := 16) (by omega) (by omega)]
    · rw [if_neg h, if_neg (show ¬ i < szBits 1 from h)]
  have hword (i : Nat) : (mergeSz (r rax) ((BitVec.ofInt 16 z).setWidth 64) 2).getLsbD i =
      if i < 16 then (BitVec.ofInt 16 z).getLsbD i else (r rax).getLsbD i := by
    rw [getLsbD_mergeSz (.inr rfl)]
    by_cases h : i < 16
    · rw [if_pos h, if_pos (show i < szBits 2 from h), BitVec.getLsbD_setWidth, decide_eq_true (show i < 64 by omega),
        Bool.true_and]
    · rw [if_neg h, if_neg (show ¬ i < szBits 2 from h)]
  rw [setProductRegs, productRegs, if_pos rfl, if_neg (by decide), (Function.update_injective r rax).eq_iff]
  show mergeSz (r rax) ((BitVec.ofInt 128 z).setWidth 64) 1 = mergeSz (r rax) ((BitVec.ofInt 16 z).setWidth 64) 2 ↔
    (r rax).extractLsb' 8 8 = (BitVec.ofInt 16 z).extractLsb' 8 8
  constructor
  · intro h
    apply BitVec.eq_of_getLsbD_eq
    intro i hi
    have hbit := congrArg (fun v => v.getLsbD (8 + i)) h
    simp only [hbyte, hword, show ¬ 8 + i < 8 by omega, show 8 + i < 16 by omega, if_true, if_false] at hbit
    rw [BitVec.getLsbD_extractLsb', BitVec.getLsbD_extractLsb', hbit]
  · intro h
    apply BitVec.eq_of_getLsbD_eq
    intro i hi
    rw [hbyte, hword]
    by_cases h8 : i < 8
    · rw [if_pos h8, if_pos (by omega)]
    · rw [if_neg h8]
      by_cases h16 : i < 16
      · have hbit := congrArg (fun v => v.getLsbD (i - 8)) h
        simp only [BitVec.getLsbD_extractLsb', show i - 8 < 8 by omega, decide_true, Bool.true_and,
          show 8 + (i - 8) = i by omega] at hbit
        rw [if_pos h16, hbit]
      · rw [if_neg h16]

/-! ### The instructions -/

section Instructions

variable {sz : Nat} (hsz : Sized sz)

include hsz

lemma mul_exec (signed : Bool) (a imm : BitVec 64) (rm : Opnd) (d : Dec) (c : Cpu) :
    let z := numOf signed (lowPart sz (c.r rax)) * numOf signed (lowPart sz a)
    (grp3Exec (if signed then 5 else 4) a imm sz rm d c).2 =
      { c with r := setProductRegs c.r sz (BitVec.ofInt 128 z) } := by
  intro z
  rw [← product_wide hsz signed, ← setProduct_eval]
  cases signed <;> rfl

/-- One operand: the flags are left as they were. -/
lemma mul_productWide (signed : Bool) (a imm : BitVec 64) (rm : Opnd) (d : Dec) (c : Cpu) :
    let x := lowPart sz (c.r rax)
    let y := lowPart sz a
    ProductWide signed x y c.r (grp3Exec (if signed then 5 else 4) a imm sz rm d c).2 ↔
      (sz = 1 → (c.r rax).extractLsb' 8 8 = (productOf signed x y).extractLsb' 8 8) ∧
        c.flags.getLsbD 0 = productOut signed x y ∧ c.flags.getLsbD 11 = productOut signed x y := by
  intro x y
  have hregs : setProductRegs c.r sz (BitVec.ofInt 128 (numOf signed x * numOf signed y)) =
      productRegs c.r sz (productOf signed x y) ↔
        (sz = 1 → (c.r rax).extractLsb' 8 8 = (productOf signed x y).extractLsb' 8 8) := by
    by_cases h1 : sz = 1
    · subst h1
      rw [forall_prop_of_true rfl]
      exact productRegs_byte c.r _
    · exact iff_of_true (productRegs_wide hsz c.r _ h1) fun h => absurd h h1
  rw [mul_exec hsz, ← hregs]
  constructor
  · intro h
    exact ⟨h.regs, h.cf, h.of⟩
  · rintro ⟨hr, hcf, hof⟩
    exact ⟨hr, hcf, hof⟩

lemma lowPart_sext (a : BitVec 64) : lowPart sz (sext a sz) = lowPart sz a := by
  apply BitVec.eq_of_getLsbD_eq
  intro i hi
  have h64 := szBits_le sz
  rw [getLsbD_lowPart, getLsbD_sext hsz a (by omega), if_pos hi, decide_eq_true hi, Bool.true_and]

omit hsz in
lemma lowPart_mul (a b : BitVec 64) : lowPart sz (a * b) =
    BitVec.ofInt (szBits sz) ((lowPart sz a).toInt * (lowPart sz b).toInt) := by
  rw [BitVec.ofInt_mul, BitVec.ofInt_toInt, BitVec.ofInt_toInt]
  exact BitVec.setWidth_mul a b (szBits_le sz)

/-- Two or three: CF and OF are cleared. -/
lemma imul_productShort (reg : Fin 16) (x y : BitVec (szBits sz)) (v : BitVec 64) (c c' : Cpu)
    (hv : lowPart sz v = BitVec.ofInt (szBits sz) (x.toInt * y.toInt))
    (hr : c'.r = Function.update c.r reg (mergeSz (c.r reg) v sz)) (hfl : c'.flags = flagsLogic c.flags v sz) :
    ProductShort reg x y c.r c' ↔ productOut true x y = false := by
  obtain ⟨hcf, -, -, -, hof⟩ := word_bits c.flags (m := flLogic) (by decide)
    ⟨false, lowPart sz v == 0, (lowPart sz v).msb, false, evenParity (lowPart sz v), false⟩
  rw [← flagsLogic_lowPart hsz, ← hfl] at hcf hof
  constructor
  · intro h
    exact h.cf.symm.trans hcf
  · intro h
    refine ⟨?_, hcf.trans h.symm, hof.trans h.symm⟩
    rw [hr, ← hv, ← truncSz_lowPart]
    exact congrArg (Function.update c.r reg) (mergeSz_congr _ (lowPart_truncSz v).symm)

/-- A register times an operand. -/
lemma imul_work (reg : Fin 16) (rm : Opnd) (rex : Bool) (c : Cpu)
    (hf : ((do
      let a ← getreg reg sz
      let b ← rd rm sz rex
      setreg reg (sext a sz * sext b sz) sz
      modFlags fun f => flagsLogic f (sext a sz * sext b sz) sz : M Unit) c).2.fault = none) :
    let x := lowPart sz (c.r reg)
    let y := lowPart sz (opndVal rm sz rex c)
    ProductShort reg x y c.r ((do
      let a ← getreg reg sz
      let b ← rd rm sz rex
      setreg reg (sext a sz * sext b sz) sz
      modFlags fun f => flagsLogic f (sext a sz * sext b sz) sz : M Unit) c).2 ↔ productOut true x y = false := by
  intro x y
  have hget {β : Type} (f : BitVec 64 → M β) : (getreg reg sz >>= f) c = f (truncSz (c.r reg) sz) c := rfl
  rw [hget] at hf ⊢
  rw [rd_bind rm sz rex hf]
  refine imul_productShort hsz reg x y (sext (truncSz (c.r reg) sz) sz * sext (opndVal rm sz rex c) sz) c _ ?_ rfl rfl
  rw [lowPart_mul, lowPart_sext hsz, lowPart_sext hsz, lowPart_truncSz]

/-- An operand times an immediate. -/
lemma imulImm_work (reg : Fin 16) (rm : Opnd) (imm : BitVec 64) (rex : Bool) (c : Cpu)
    (hf : ((do
      let a ← rd rm sz rex
      setreg reg (sext a sz * imm) sz
      modFlags fun f => flagsLogic f (sext a sz * imm) sz : M Unit) c).2.fault = none) :
    let x := lowPart sz (opndVal rm sz rex c)
    let y := lowPart sz imm
    ProductShort reg x y c.r ((do
      let a ← rd rm sz rex
      setreg reg (sext a sz * imm) sz
      modFlags fun f => flagsLogic f (sext a sz * imm) sz : M Unit) c).2 ↔ productOut true x y = false := by
  intro x y
  rw [rd_bind rm sz rex hf]
  refine imul_productShort hsz reg x y (sext (opndVal rm sz rex c) sz * imm) c _ ?_ rfl rfl
  rw [lowPart_mul, lowPart_sext hsz]

end Instructions

/-! ### The steps -/

section Steps

variable {fp : Fp} {rt : Runtime} {k : Kernel} {c : Cpu} (hcb : c.rip ≠ callbackMagic) (hret : c.rip ≠ returnMagic)
  (hstub : rsdStubIndex c.stubs c.rip = none) (hf : (step fp rt k c).2.fault = none)

include hcb hret hstub hf

lemma mul_step (signed : Bool) (hesc : (encodingAt (codeOf c c.rip)).escaped = false)
    (hop : (encodingAt (codeOf c c.rip)).op = 0xF6 ∨ (encodingAt (codeOf c c.rip)).op = 0xF7)
    (hext : (encodingAt (codeOf c c.rip)).ext (codeOf c c.rip) = if signed then 5 else 4) :
    let e := encodingAt (codeOf c c.rip)
    let sz := if e.op = 0xF6 then 1 else e.opsize
    let x := lowPart sz (c.r rax)
    let y := lowPart sz (opndVal (rmOperand c) sz (e.rex != 0) c)
    ProductWide signed x y c.r (step fp rt k c).2 ↔
      (sz = 1 → (c.r rax).extractLsb' 8 8 = (productOf signed x y).extractLsb' 8 8) ∧
        c.flags.getLsbD 0 = productOut signed x y ∧ c.flags.getLsbD 11 = productOut signed x y := by
  intro e sz x y
  have hsz : Sized sz := by
    by_cases h : e.op = 0xF6
    · exact .inl (if_pos h)
    · have heq : sz = e.opsize := if_neg h
      exact .inr (heq ▸ opsize_cases e)
  obtain ⟨hx, hlock⟩ := step_fetched hcb hret hstub hf
  obtain ⟨imm, d, hstep⟩ := @step_grp3 fp rt k c hcb hret hstub hx hesc hop hlock
  rw [hstep] at hf ⊢
  rw [rd_bind (rmOperand c) sz (e.rex != 0) hf, hext]
  exact mul_productWide hsz signed _ imm (rmOperand c) d (begun c (insnEnd c))

lemma imul_step (hesc : (encodingAt (codeOf c c.rip)).escaped = true) (hop : (encodingAt (codeOf c c.rip)).op = 0xAF) :
    let e := encodingAt (codeOf c c.rip)
    let reg := regField (codeOf c c.rip e.tail) e.rex
    let x := lowPart e.opsize (c.r reg)
    let y := lowPart e.opsize (opndVal (rmOperand c) e.opsize (e.rex != 0) c)
    ProductShort reg x y c.r (step fp rt k c).2 ↔ productOut true x y = false := by
  intro e reg x y
  have hclass : twoClass (encodingAt (codeOf c c.rip)).op = .imul := by
    rw [hop]
    decide
  have hsz : Sized e.opsize := .inr (opsize_cases e)
  obtain ⟨hx, hlock⟩ := step_fetched hcb hret hstub hf
  obtain ⟨d, hd, hend, hstep⟩ := @step_twoByte fp rt k c hcb hret hstub hx hesc (hclass ▸ by decide)
    (hclass ▸ by decide) hlock
  simp only [stepTwoByteGp, hclass, stepImul_eq, after_fst, after_snd] at hend hstep
  have hreg : rmReg d (noted c) = reg := by
    rw [rmReg, hd.p0, hd.n, hd.rex]
    rfl
  rw [rmAt_operand hd hend, hd.opsize, hd.hasRex, hend, hreg] at hstep
  rw [hstep] at hf ⊢
  exact imul_work hsz reg (rmOperand c) (e.rex != 0) (begun c (insnEnd c)) hf

lemma imulImm_step (hesc : (encodingAt (codeOf c c.rip)).escaped = false)
    (hop : (encodingAt (codeOf c c.rip)).op = 0x69 ∨ (encodingAt (codeOf c c.rip)).op = 0x6B) :
    let e := encodingAt (codeOf c c.rip)
    let x := lowPart e.opsize (opndVal (rmOperand c) e.opsize (e.rex != 0) c)
    let y := lowPart e.opsize (e.immFactor (codeOf c c.rip))
    ProductShort (regField (codeOf c c.rip e.tail) e.rex) x y c.r (step fp rt k c).2 ↔ productOut true x y = false := by
  intro e x y
  have hclass : opClass (encodingAt (codeOf c c.rip)).op = .imulImm := by
    rcases hop with h | h <;> rw [h] <;> decide
  have hsz : Sized e.opsize := .inr (opsize_cases e)
  obtain ⟨hx, hlock⟩ := step_fetched hcb hret hstub hf
  obtain ⟨d, hd, hend, hstep⟩ := @step_oneByte fp rt k c hcb hret hstub hx hesc
    (hclass ▸ by decide) hlock
  simp only [hclass, stepOneByte, stepImulImm_eq, after_fst, after_snd] at hend hstep
  have hreg : rmReg d (noted c) = regField (codeOf c c.rip e.tail) e.rex := by
    rw [rmReg, hd.p0, hd.n, hd.rex]
    rfl
  have himm : (immS (pastRm d (noted c)) (noted c) (e.op != 0x6B)).1 = e.immFactor (codeOf c c.rip) := by
    simp only [immS, pastRm, Dec.skip, hd.p0, hd.n, Encoding.immFactor]
    by_cases h : e.op = 0x6B
    · simp only [h, bne_self_eq_false, Bool.false_eq_true, if_false, if_true]
      rfl
    · have hne : (e.op != 0x6B) = true := bne_iff_ne.mpr h
      simp only [h, hne, if_false, if_true]
      rfl
  rw [rmAt_operand hd hend, hd.opsize, hd.hasRex, hend, hreg, himm] at hstep
  rw [hstep] at hf ⊢
  exact imulImm_work hsz _ (rmOperand c) _ (e.rex != 0) (begun c (insnEnd c)) hf

end Steps

/-- With one operand the manual's result is there exactly if CF and OF were already as it asks, and
ah was as well for bytes. With two or three it is there exactly if the product fits. -/
theorem multiplications (fp : Fp) (rt : Runtime) (k : Kernel) (c : Cpu) (hcb : c.rip ≠ callbackMagic)
    (hret : c.rip ≠ returnMagic) (hstub : rsdStubIndex c.stubs c.rip = none) (hf : (step fp rt k c).2.fault = none) :
    let p := codeOf c c.rip
    let e := encodingAt p
    let reg := regField (p e.tail) e.rex
    let rm (sz : Nat) := lowPart sz (opndVal (rmOperand c) sz (e.rex != 0) c)
    let c' := (step fp rt k c).2
    (∀ signed, e.escaped = false → e.op = 0xF6 ∨ e.op = 0xF7 → (e.ext p = if signed then 5 else 4) →
      let sz := if e.op = 0xF6 then 1 else e.opsize
      let x := lowPart sz (c.r rax)
      (ProductWide signed x (rm sz) c.r c' ↔
        (sz = 1 → (c.r rax).extractLsb' 8 8 = (productOf signed x (rm sz)).extractLsb' 8 8) ∧
          c.flags.getLsbD 0 = productOut signed x (rm sz) ∧ c.flags.getLsbD 11 = productOut signed x (rm sz))) ∧
    (e.escaped = true → e.op = 0xAF →
      let x := lowPart e.opsize (c.r reg)
      (ProductShort reg x (rm e.opsize) c.r c' ↔ productOut true x (rm e.opsize) = false)) ∧
    (e.escaped = false → e.op = 0x69 ∨ e.op = 0x6B →
      let y := lowPart e.opsize (e.immFactor p)
      (ProductShort reg (rm e.opsize) y c.r c' ↔ productOut true (rm e.opsize) y = false)) :=
  ⟨fun signed hesc hop hext => mul_step hcb hret hstub hf signed hesc hop hext,
    fun hesc hop => imul_step hcb hret hstub hf hesc hop, fun hesc hop => imulImm_step hcb hret hstub hf hesc hop⟩

/-- A multiplication of eax and ebx, or of al and bl. -/
def productCpu (code : List (BitVec 8)) (eax ebx : BitVec 64) : Cpu :=
  { codeCpu code with r := fun i => if i = rax then eax else if i = 3 then ebx else 0 }

/-- `mul ebx` leaves CF clear over a product of 33 bits, `mul bl` loses the upper byte, and
`imul eax, ebx` clears CF over one that does not fit. -/
theorem products_without_overflow :
    let c1 := (step sampleFp sampleRuntime sampleKernel (productCpu [0xF7, 0xE3] 0x80000000 2)).2
    let c2 := (step sampleFp sampleRuntime sampleKernel (productCpu [0xF6, 0xE3] 0x80 2)).2
    let c3 := (step sampleFp sampleRuntime sampleKernel (productCpu [0x0F, 0xAF, 0xC3] 0x40000000 2)).2
    (c1.fault = none ∧ c1.r rdx = 1 ∧ c1.flags.getLsbD 0 = false ∧
      ¬ @ProductWide 4 false 0x80000000 2 (productCpu [0xF7, 0xE3] 0x80000000 2).r c1) ∧
    (c2.fault = none ∧ c2.r rax = 0 ∧
      ¬ @ProductWide 1 false 0x80 2 (productCpu [0xF6, 0xE3] 0x80 2).r c2) ∧
    (c3.fault = none ∧ c3.flags.getLsbD 0 = false ∧
      ¬ @ProductShort 4 rax 0x40000000 2 (productCpu [0x0F, 0xAF, 0xC3] 0x40000000 2).r c3) := by
  refine ⟨⟨by decide, by decide, by decide, fun h => ?_⟩,
    ⟨by decide, by decide, fun h => ?_⟩, ⟨by decide, by decide, fun h => ?_⟩⟩
  · have hcf := h.cf
    revert hcf
    decide
  · have hcf := h.cf
    revert hcf
    decide
  · have hcf := h.cf
    revert hcf
    decide

/-- `mul ebx` with CF and OF clear and `imul eax, ebx`, both of small factors. -/
theorem multiplications_small :
    @ProductWide 4 false 3 5 (productCpu [0xF7, 0xE3] 3 5).r
      (step sampleFp sampleRuntime sampleKernel (productCpu [0xF7, 0xE3] 3 5)).2 ∧
    @ProductShort 4 rax 3 5 (productCpu [0x0F, 0xAF, 0xC3] 3 5).r
      (step sampleFp sampleRuntime sampleKernel (productCpu [0x0F, 0xAF, 0xC3] 3 5)).2 :=
  ⟨((multiplications sampleFp sampleRuntime sampleKernel (productCpu [0xF7, 0xE3] 3 5) (by decide) (by decide)
      (by decide) (by decide)).1 false (by decide) (by decide) (by decide)).mpr
      (by decide),
    ((multiplications sampleFp sampleRuntime sampleKernel (productCpu [0x0F, 0xAF, 0xC3] 3 5) (by decide) (by decide)
      (by decide) (by decide)).2.1 (by decide) (by decide)).mpr (by decide)⟩

end Rashid.Proofs
