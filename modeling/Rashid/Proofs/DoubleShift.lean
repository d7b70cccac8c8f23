import Rashid.Proofs.RmOperand
import Rashid.Proofs.Shifts

/-!
# Double shifts

`shld` and `shrd` leave the right value. Their flags are those of a logical operation, so the bit
that leaves the destination last is lost.
-/

namespace Rashid.Proofs

section Value

variable {w : Nat} (k : Nat) (x y : BitVec w)

lemma doubleShift_left_bit {i : Nat} (hk : k < w) (hi : i < w) : (doubleShift true k x y).getLsbD i =
    if i < k then y.getLsbD (w + i - k) else x.getLsbD (i - k) := by
  simp only [doubleShift, if_true, BitVec.getLsbD_extractLsb', BitVec.getLsbD_shiftLeft, BitVec.getLsbD_append, hi,
    decide_true, Bool.true_and, show w + i < w + w by omega, show ¬ w + i < k by omega, decide_false, Bool.not_false]
  by_cases h : i < k
  · rw [if_pos h, if_pos (by omega)]
  · rw [if_neg h, if_neg (by omega), show w + i - k - w = i - k by omega]

lemma doubleShift_right_bit {i : Nat} (hi : i < w) : (doubleShift false k x y).getLsbD i =
    if k + i < w then x.getLsbD (k + i) else y.getLsbD (k + i - w) := by
  simp only [doubleShift, Bool.false_eq_true, if_false, BitVec.getLsbD_extractLsb', BitVec.getLsbD_ushiftRight,
    BitVec.getLsbD_append, hi, decide_true, Bool.true_and, Nat.zero_add]

end Value

/-- A count below the width does not wrap around. -/
lemma backCount_eq {sz k : Nat} (h64 : sz * 8 ≤ 64) (h0 : 0 < k) (hk : k < sz * 8) : backCount sz k = sz * 8 - k := by
  have hw : (BitVec.ofNat 64 (sz * 8)).toNat = sz * 8 := (BitVec.toNat_ofNat ..).trans (Nat.mod_eq_of_lt (by omega))
  have hc : (BitVec.ofNat 64 k).toNat = k := (BitVec.toNat_ofNat ..).trans (Nat.mod_eq_of_lt (by omega))
  have hmask : (63 : BitVec 64).toNat = 2 ^ 6 - 1 := rfl
  rw [backCount, BitVec.toNat_and, BitVec.toNat_sub, hw, hc, hmask, Nat.and_two_pow_sub_one_eq_mod]
  omega

/-- The interpreter's expression, of values without bits above their width. -/
lemma shld_value {sz k : Nat} (hsz : Sized sz) (left : Prop) [Decidable left] (a b : BitVec 64) (h0 : 0 < k)
    (hk : k < szBits sz) (ha : truncSz a sz = a) (hb : truncSz b sz = b) :
    lowPart sz (if left then (a <<< k) ||| (b >>> backCount sz k) else (a >>> k) ||| (b <<< backCount sz k)) =
      doubleShift (decide left) k (lowPart sz a) (lowPart sz b) := by
  obtain ⟨-, -, hw⟩ := szBits_pos hsz
  have h64 := szBits_le sz
  rw [backCount_eq (hw ▸ h64) h0 (hw ▸ hk)]
  have habove (i : Nat) : a.getLsbD i = (lowPart sz a).getLsbD i := by rw [← getLsbD_trunc, ha]
  have hbelow (i : Nat) : b.getLsbD i = (lowPart sz b).getLsbD i := by rw [← getLsbD_trunc, hb]
  apply BitVec.eq_of_getLsbD_eq
  intro i hi
  rw [getLsbD_lowPart, decide_eq_true hi, Bool.true_and, hw]
  by_cases hl : left
  · rw [if_pos hl, decide_eq_true hl, doubleShift_left_bit k _ _ hk hi, BitVec.getLsbD_or, BitVec.getLsbD_shiftLeft,
      BitVec.getLsbD_ushiftRight, habove, hbelow, decide_eq_true (show i < 64 by omega), Bool.true_and]
    by_cases h : i < k
    · rw [if_pos h, decide_eq_true h, show szBits sz - k + i = szBits sz + i - k by omega]
      rfl
    · rw [if_neg h, decide_eq_false h, BitVec.getLsbD_of_ge (lowPart sz b) _ (by omega), Bool.or_false]
      rfl
  · rw [if_neg hl, decide_eq_false hl, doubleShift_right_bit k _ _ hi, BitVec.getLsbD_or, BitVec.getLsbD_shiftLeft,
      BitVec.getLsbD_ushiftRight, habove, hbelow, decide_eq_true (show i < 64 by omega), Bool.true_and]
    by_cases h : k + i < szBits sz
    · rw [if_pos h, decide_eq_true (show i < szBits sz - k by omega)]
      exact Bool.or_false _
    · rw [if_neg h, decide_eq_false (show ¬ i < szBits sz - k by omega), BitVec.getLsbD_of_ge (lowPart sz a) _ (by omega),
        show i - (szBits sz - k) = k + i - szBits sz by omega]
      rfl

/-! ### The instruction -/

/-- What the manual asks of a double shift of `x` by `k`: the value `r` and the flags `f`. OF is
defined for a count of one. -/
structure DoubleShifts {w : Nat} (left : Bool) (k : Nat) (x y r : BitVec w) (f : BitVec 32) : Prop where
  value : r = doubleShift left k x y
  cf : f.getLsbD 0 = doubleShiftOut left k x
  of : k = 1 → f.getLsbD 11 = (x.msb ^^ r.msb)
  zf : f.getLsbD 6 = (r == 0)
  sf : f.getLsbD 7 = r.msb
  pf : f.getLsbD 2 = evenParity r

/-- The bit that leaves last is 0, and the bit that a shift by one makes the sign is the sign. -/
def ShiftsOutZero {w : Nat} (left : Bool) (k : Nat) (x y : BitVec w) : Prop :=
  if left then x.getLsbD (w - k) = false ∧ (k = 1 → x.getLsbD (w - 2) = false)
  else x.getLsbD (k - 1) = false ∧ (k = 1 → x.getLsbD (w - 1) = y.getLsbD 0)

instance {w k : Nat} (left : Bool) (x y : BitVec w) : Decidable (ShiftsOutZero left k x y) :=
  inferInstanceAs (Decidable (if left then x.getLsbD (w - k) = false ∧ (k = 1 → x.getLsbD (w - 2) = false)
    else x.getLsbD (k - 1) = false ∧ (k = 1 → x.getLsbD (w - 1) = y.getLsbD 0)))

lemma shiftsOutZero_iff {w k : Nat} (left : Bool) (x y : BitVec w) (hw : 1 < w) :
    ShiftsOutZero left k x y ↔
      doubleShiftOut left k x = false ∧ (k = 1 → (x.msb ^^ (doubleShift left k x y).msb) = false) := by
  unfold ShiftsOutZero doubleShiftOut
  rw [BitVec.msb_eq_getLsbD_last, BitVec.msb_eq_getLsbD_last]
  cases left with
  | true =>
    simp only [if_true]
    refine and_congr_right fun hout => forall_congr' ?_
    rintro rfl
    rw [doubleShift_left_bit 1 x y (by omega) (by omega), if_neg (by omega), hout, Bool.false_xor]
    rfl
  | false =>
    simp only [Bool.false_eq_true, if_false]
    refine and_congr_right fun _ => forall_congr' ?_
    rintro rfl
    rw [doubleShift_right_bit 1 x y (by omega), if_neg (by omega), show 1 + (w - 1) - w = 0 by omega]
    cases x.getLsbD (w - 1) <;> cases y.getLsbD 0 <;> decide

/-- The flags of a logical operation on the right value are those of the shift exactly if the
shift had nothing to report. -/
lemma logic_doubleShifts {sz k : Nat} (hsz : Sized sz) (left : Bool) (x y : BitVec (szBits sz)) (f : BitVec 32)
    (v : BitVec 64) (hv : lowPart sz v = doubleShift left k x y) :
    DoubleShifts left k x y (lowPart sz v) (flagsLogic f v sz) ↔ ShiftsOutZero left k x y := by
  obtain ⟨-, h4, -⟩ := szBits_pos hsz
  obtain ⟨hcf, hpf, hzf, hsf, hof⟩ := word_bits f (m := flLogic) (by decide)
    ⟨false, lowPart sz v == 0, (lowPart sz v).msb, false, evenParity (lowPart sz v), false⟩
  rw [← flagsLogic_lowPart hsz] at hcf hpf hzf hsf hof
  rw [shiftsOutZero_iff left x y (by omega), ← hv]
  constructor
  · intro h
    exact ⟨h.cf.symm.trans hcf, fun h1 => (h.of h1).symm.trans hof⟩
  · rintro ⟨hout, hsign⟩
    exact ⟨hv, hcf.trans hout.symm, fun h1 => hof.trans (hsign h1).symm, hzf, hsf, hpf⟩

lemma shldWork_eval {sz cnt : Nat} (hsz : Sized sz) (left : Prop) [Decidable left] (reg : Fin 16) (rm : Opnd)
    (h0 : cnt ≠ 0) (hcnt : cnt < szBits sz) (rex : Bool) (c : Cpu)
    (hf : (shldWork left reg rm cnt sz rex c).2.fault = none) :
    ∃ v, lowPart sz v =
        doubleShift (decide left) cnt (lowPart sz (opndVal rm sz rex c)) (lowPart sz (c.r reg)) ∧
      (shldWork left reg rm cnt sz rex c).2 = opndSet rm v sz rex { c with flags := flagsLogic c.flags v sz } := by
  have htrunc : truncSz (truncSz (c.r reg) sz) sz = truncSz (c.r reg) sz := by
    rw [truncSz_lowPart, lowPart_truncSz, ← truncSz_lowPart]
  unfold shldWork at hf ⊢
  rw [if_neg h0] at hf ⊢
  have hrd := rd_bind rm sz rex hf
  rw [hrd] at hf ⊢
  have hval := shld_value hsz left _ _ (Nat.pos_of_ne_zero h0) hcnt (opndVal_trunc rm _ rex c hsz) htrunc
  rw [lowPart_truncSz] at hval
  exact ⟨_, hval, congrArg Prod.snd (wr_of_fault rm _ sz rex _ hf)⟩

/-! ### The step -/

lemma and_ones_toNat (v : BitVec 64) {m : BitVec 64} (k : Nat) (hm : m.toNat = 2 ^ k - 1) :
    (v &&& m).toNat = v.toNat % 2 ^ k := by
  rw [BitVec.toNat_and, hm, Nat.and_two_pow_sub_one_eq_mod]

/-- The count behind the operand, or in cl. -/
lemma doubleCount_eq {c : Cpu} {d : Dec} (hd : Settled c (encodingAt (codeOf c c.rip)) d)
    (hsz : d.opsize = 4 ∨ d.opsize = 8) :
    let e := encodingAt (codeOf c c.rip)
    ((shiftCount (pastRm d (noted c)) (noted c) (e.op = 0xA4 ∨ e.op = 0xAC) false).1 &&& countMask d.opsize).toNat =
      e.doubleCount (codeOf c c.rip) ((c.r rcx).setWidth 8) := by
  intro e
  have hval : (shiftCount (pastRm d (noted c)) (noted c) (e.op = 0xA4 ∨ e.op = 0xAC) false).1.toNat =
      (if e.op = 0xA4 ∨ e.op = 0xAC then e.immByte (codeOf c c.rip) else (c.r rcx).setWidth 8).toNat := by
    unfold shiftCount
    by_cases hi : e.op = 0xA4 ∨ e.op = 0xAC
    · have himm : codeOf (noted c) (pastRm d (noted c)).p0 (pastRm d (noted c)).n = e.immByte (codeOf c c.rip) := by
        simp only [pastRm, Dec.skip, hd.p0, hd.n]
        rfl
      simp only [hi, decide_true, if_true, himm]
      exact BitVec.toNat_setWidth_of_le (by decide)
    · simp only [hi, decide_false, Bool.false_eq_true, if_false]
      rw [BitVec.toNat_setWidth]
      exact and_ones_toNat (c.r rcx) 8 rfl
  unfold Encoding.doubleCount
  rw [← hval, ← hd.opsize]
  rcases hsz with h | h <;> rw [h]
  · exact and_ones_toNat _ 5 rfl
  · exact and_ones_toNat _ 6 rfl

/-- `shld` and `shrd` with 32 or 64 bits: the value is always right, and CF and OF are those of the
manual exactly if both are 0 there. -/
theorem double_shifts (fp : Fp) (rt : Runtime) (k : Kernel) (c : Cpu) (hcb : c.rip ≠ callbackMagic)
    (hret : c.rip ≠ returnMagic) (hstub : rsdStubIndex c.stubs c.rip = none) (hf : (step fp rt k c).2.fault = none)
    (hesc : (encodingAt (codeOf c c.rip)).escaped = true)
    (hop : (encodingAt (codeOf c c.rip)).op ∈ [0xA4#8, 0xA5, 0xAC, 0xAD])
    (hsz : (encodingAt (codeOf c c.rip)).opsize = 4 ∨ (encodingAt (codeOf c c.rip)).opsize = 8)
    (hcount : (encodingAt (codeOf c c.rip)).doubleCount (codeOf c c.rip) ((c.r rcx).setWidth 8) ≠ 0) :
    let e := encodingAt (codeOf c c.rip)
    let sz := e.opsize
    let left := decide (e.op = 0xA4 ∨ e.op = 0xA5)
    let cnt := e.doubleCount (codeOf c c.rip) ((c.r rcx).setWidth 8)
    let x := lowPart sz (opndVal (rmOperand c) sz (e.rex != 0) c)
    let y := lowPart sz (c.r (regField (codeOf c c.rip e.tail) e.rex))
    DoubleShifts left cnt x y (lowPart sz (opndVal (rmOperand c) sz (e.rex != 0) (step fp rt k c).2))
      (step fp rt k c).2.flags ↔
      ShiftsOutZero left cnt x y := by
  intro e sz left cnt x y
  have hclass : ∀ op : BitVec 8, op ∈ [0xA4#8, 0xA5, 0xAC, 0xAD] →
      twoClass op = .shld ∧ decide (op < 0xAC) = decide (op = 0xA4 ∨ op = 0xA5) := by
    simp only [twoClass_eq]
    decide
  obtain ⟨hshld, hleft⟩ := hclass _ hop
  have hsized : Sized sz := hsz.elim (.inr ∘ .inr ∘ .inl) (.inr ∘ .inr ∘ .inr)
  obtain ⟨hx, hlock⟩ := step_fetched hcb hret hstub hf
  obtain ⟨d, hd, hend, hstep⟩ := @step_twoByte fp rt k c hcb hret hstub hx hesc (hshld ▸ by decide)
    (hshld ▸ by decide) hlock
  simp only [stepTwoByteGp, hshld, stepShld_eq, after_fst, after_snd] at hend hstep
  rw [rmAt_operand hd hend, doubleCount_eq hd (hd.opsize ▸ hsz), hd.opsize, hd.hasRex, hend] at hstep
  have hreg : rmReg d (noted c) = regField (codeOf c c.rip e.tail) e.rex := by
    rw [rmReg, hd.p0, hd.n, hd.rex]
    rfl
  rw [hreg] at hstep
  rw [hstep] at hf ⊢
  have hlt : cnt < szBits sz := by
    rw [hsized.bits.1]
    exact Nat.mod_lt _ (by rcases hsz with h | h <;> rw [h] <;> decide)
  obtain ⟨v, hv, heq⟩ := shldWork_eval hsized _ _ _ hcount hlt _ _ hf
  rw [heq, opndSet_flags, opndVal_opndSet _ _ _ _ hsized]
  rw [hleft] at hv
  exact logic_doubleShifts hsized left x y _ v hv

/-- A double shift of eax by one, with zeros moving in. -/
def doubleShiftCpu (op : BitVec 8) (eax : BitVec 64) : Cpu :=
  { codeCpu [0x0F, op, 0xD8, 0x01] with r := fun i => if i = rax then eax else 0 }

/-- `shld` moves the sign bit out, and leaves CF and OF clear. -/
theorem shld_loses_carry :
    let c' := (step sampleFp sampleRuntime sampleKernel (doubleShiftCpu 0xA4 0x80000000)).2
    c'.fault = none ∧ c'.r rax = 0 ∧ c'.flags &&& (fCF ||| fOF) = 0 ∧
      doubleShiftOut true 1 (0x80000000 : BitVec 32) = true ∧
      ¬ DoubleShifts true 1 (0x80000000 : BitVec 32) 0 (lowPart 4 (c'.r rax)) c'.flags := by
  refine ⟨by decide, by decide, by decide, by decide, fun h => ?_⟩
  have hcf := h.cf
  revert hcf
  decide

/-- `shrd` of an even number by one loses nothing. -/
theorem double_shifts_even :
    DoubleShifts false 1 (4 : BitVec 32) 0
      (lowPart 4 ((step sampleFp sampleRuntime sampleKernel (doubleShiftCpu 0xAC 4)).2.r rax))
      (step sampleFp sampleRuntime sampleKernel (doubleShiftCpu 0xAC 4)).2.flags :=
  (double_shifts sampleFp sampleRuntime sampleKernel (doubleShiftCpu 0xAC 4) (by decide) (by decide) (by decide)
    (by decide) (by decide) (by decide) (by decide) (by decide)).mpr
    (by decide)

end Rashid.Proofs
