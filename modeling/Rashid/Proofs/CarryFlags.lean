import Rashid.Arithmetic
import Rashid.Lib.Limbs
import Rashid.Proofs.FlagLiveness
import Rashid.Proofs.InlineFlags
import Rashid.Proofs.Operands
import Rashid.Proofs.Performs
import Rashid.Proofs.RmOperand

/-!
# Carries

The flags of additions and subtractions are facts about the numbers. The carry routines find CF
by comparing truncated values, with an equality on top for a carry in; that this is the carry
makes a chain of `adc` or `sbb` an addition or a subtraction of numbers of any length.
-/

namespace Rashid.Proofs

def carryBit (c : Bool) : BitVec 64 := if c then 1 else 0

section Width

variable {n : Nat} (x y : BitVec n) (c : Bool)

lemma sumOf_toNat : (sumOf x y c).toNat = (x.toNat + y.toNat + c.toNat) % 2 ^ n := by
  rw [sumOf, BitVec.toNat_ofNat]

lemma toNat_add_carry : (sumOf x y c).toNat + 2 ^ n * (carryOut x y c).toNat = x.toNat + y.toNat + c.toNat := by
  have hx := x.isLt
  have hy := y.isLt
  have hc := c.toNat_le
  rw [sumOf_toNat]
  unfold carryOut
  by_cases h : 2 ^ n ≤ x.toNat + y.toNat + c.toNat
  · rw [decide_eq_true h, Nat.mod_eq_sub_mod h, Nat.mod_eq_of_lt (by omega)]
    simp only [Bool.toNat_true]
    omega
  · rw [decide_eq_false h, Nat.mod_eq_of_lt (by omega)]
    rfl

/-- A sum with a carry in is below the first operand, or equal to it, exactly if it carried. -/
lemma carry_eq : (decide (sumOf x y c < x) || (c && sumOf x y c == x)) = carryOut x y c := by
  have hx := x.isLt
  have hy := y.isLt
  have hadd := toNat_add_carry x y c
  generalize sumOf x y c = r, carryOut x y c = k at hadd ⊢
  have hr := r.isLt
  rw [Bool.eq_iff_iff]
  simp only [Bool.or_eq_true, Bool.and_eq_true, decide_eq_true_eq, beq_iff_eq, BitVec.lt_def, ← BitVec.toNat_inj]
  cases c <;> cases k <;> simp at hadd ⊢ <;> omega

/-- The bit into which a sum carries. -/
lemma halfCarry_eq (hn : 4 < n) : (x.getLsbD 4 ^^ y.getLsbD 4 ^^ (sumOf x y c).getLsbD 4) = halfCarry x y c := by
  have hc : c.toNat % 2 ^ n = c.toNat := by
    have := Nat.lt_two_pow_self (n := n)
    exact Nat.mod_eq_of_lt (by have := c.toNat_le; omega)
  have hsum : sumOf x y c = x + y + BitVec.setWidth n (BitVec.ofBool c) := by
    apply BitVec.eq_of_toNat_eq
    rw [sumOf_toNat, BitVec.toNat_add, BitVec.toNat_add, BitVec.toNat_setWidth, BitVec.toNat_ofBool, hc,
      Nat.mod_add_mod]
  have hcarry : BitVec.carry 4 x y c = halfCarry x y c := by
    unfold BitVec.carry halfCarry
    exact decide_eq_decide.mpr Iff.rfl
  rw [hsum, BitVec.getLsbD_add_add_bool hn, hcarry]
  cases x.getLsbD 4 <;> cases y.getLsbD 4 <;> simp

/-- The sign of a sum is not that of its operands exactly if the sum does not fit. -/
lemma overflow_eq (hn : 0 < n) : ((x.msb == y.msb) && (x.msb != (sumOf x y c).msb)) =
    signedOut n (x.toInt + y.toInt + c.toNat) := by
  have hx := x.isLt
  have hy := y.isLt
  have hpow : 2 ^ n = 2 * 2 ^ (n - 1) := by rw [← Nat.pow_succ']; congr; omega
  have hpow' : (2 : ℤ) ^ (n - 1) = ((2 ^ (n - 1) : ℕ) : ℤ) := by norm_cast
  have hadd := toNat_add_carry x y c
  have hcl := c.toNat_le
  unfold signedOut
  rw [BitVec.toInt_eq_msb_cond, BitVec.toInt_eq_msb_cond, BitVec.msb_eq_decide, BitVec.msb_eq_decide,
    BitVec.msb_eq_decide, hpow']
  generalize sumOf x y c = r, carryOut x y c = k at hadd ⊢
  have hr := r.isLt
  rw [hpow] at hx hy hadd hr ⊢
  generalize 2 ^ (n - 1) = P at *
  have hk : k.toNat = 0 ∨ k.toNat = 1 := by cases k <;> simp
  have hadd' : r.toNat + k.toNat * (2 * P) = x.toNat + y.toNat + c.toNat := by rw [← hadd, Nat.mul_comm]
  rw [Bool.eq_iff_iff]
  simp only [Bool.and_eq_true, beq_iff_eq, bne_iff_ne, ne_eq, decide_eq_true_eq, decide_eq_decide]
  rcases hk with hk | hk <;> rw [hk] at hadd' <;> split_ifs <;> omega

/-! A difference is what the subtrahend and the borrow are added to. -/

lemma toNat_sub_borrow :
    (differenceOf x y c).toNat + y.toNat + c.toNat = x.toNat + 2 ^ n * (borrowOut x y c).toNat := by
  have hx := x.isLt
  have hy := y.isLt
  have hc := c.toNat_le
  have hd : (differenceOf x y c).toNat = (((x.toNat : ℤ) - y.toNat - c.toNat) % ((2 ^ n : ℕ) : ℤ)).toNat := by
    rw [differenceOf, BitVec.toNat_ofInt]
  rw [hd]
  unfold borrowOut
  by_cases h : x.toNat < y.toNat + c.toNat
  · have hmod : ((x.toNat : ℤ) - y.toNat - c.toNat) % ((2 ^ n : ℕ) : ℤ) = x.toNat - y.toNat - c.toNat + (2 ^ n : ℕ) := by
      rw [← Int.add_emod_right, Int.emod_eq_of_lt (by omega) (by omega)]
    rw [decide_eq_true h, hmod]
    simp only [Bool.toNat_true]
    omega
  · rw [decide_eq_false h, Int.emod_eq_of_lt (by omega) (by omega)]
    simp only [Bool.toNat_false]
    omega

lemma sumOf_difference : sumOf (differenceOf x y c) y c = x := by
  apply BitVec.eq_of_toNat_eq
  rw [sumOf_toNat, toNat_sub_borrow, Nat.add_mul_mod_self_left, Nat.mod_eq_of_lt x.isLt]

lemma sumOf_eq : sumOf x y c = x + y + BitVec.ofNat n c.toNat := by
  rw [sumOf, BitVec.ofNat_add, BitVec.ofNat_add, BitVec.ofNat_toNat, BitVec.ofNat_toNat, BitVec.setWidth_eq,
    BitVec.setWidth_eq]

lemma sumOf_left_cancel {x x' y : BitVec n} {c : Bool} (h : sumOf x y c = sumOf x' y c) : x = x' := by
  rw [sumOf_eq, sumOf_eq, BitVec.add_assoc, BitVec.add_assoc] at h
  exact BitVec.add_left_inj _ |>.mp h

lemma borrow_eq : (decide (x < y) || (c && x == y)) = borrowOut x y c := by
  unfold borrowOut
  rw [Bool.eq_iff_iff]
  simp only [Bool.or_eq_true, Bool.and_eq_true, decide_eq_true_eq, beq_iff_eq, BitVec.lt_def, ← BitVec.toNat_inj]
  cases c
  · simp
  · simp
    omega

lemma halfBorrow_eq (hn : 4 < n) :
    (x.getLsbD 4 ^^ y.getLsbD 4 ^^ (differenceOf x y c).getLsbD 4) = halfBorrow x y c := by
  have hhalf := halfCarry_eq (differenceOf x y c) y c hn
  have hsub := toNat_sub_borrow x y c
  have hcl := c.toNat_le
  have hpow : 2 ^ n = 16 * 2 ^ (n - 4) := by rw [show (16 : ℕ) = 2 ^ 4 from rfl, ← Nat.pow_add]; congr; omega
  have heq : halfCarry (differenceOf x y c) y c = halfBorrow x y c := by
    unfold halfCarry halfBorrow
    refine decide_eq_decide.mpr ?_
    rw [hpow, Nat.mul_assoc] at hsub
    omega
  rw [sumOf_difference, heq] at hhalf
  rw [← hhalf]
  cases x.getLsbD 4 <;> cases y.getLsbD 4 <;> simp

lemma underflow_eq (hn : 0 < n) : ((x.msb != y.msb) && (x.msb != (differenceOf x y c).msb)) =
    signedOut n (x.toInt - y.toInt - c.toNat) := by
  have hx := x.isLt
  have hy := y.isLt
  have hpow : 2 ^ n = 2 * 2 ^ (n - 1) := by rw [← Nat.pow_succ']; congr; omega
  have hpow' : (2 : ℤ) ^ (n - 1) = ((2 ^ (n - 1) : ℕ) : ℤ) := by norm_cast
  have hsub := toNat_sub_borrow x y c
  have hcl := c.toNat_le
  unfold signedOut
  rw [BitVec.toInt_eq_msb_cond, BitVec.toInt_eq_msb_cond, BitVec.msb_eq_decide, BitVec.msb_eq_decide,
    BitVec.msb_eq_decide, hpow']
  generalize differenceOf x y c = r, borrowOut x y c = k at hsub ⊢
  have hr := r.isLt
  rw [hpow] at hx hy hsub hr ⊢
  generalize 2 ^ (n - 1) = P at *
  have hk : k.toNat = 0 ∨ k.toNat = 1 := by cases k <;> simp
  rw [Nat.mul_comm] at hsub
  rw [Bool.eq_iff_iff]
  simp only [Bool.and_eq_true, bne_iff_ne, ne_eq, decide_eq_true_eq, decide_eq_decide]
  rcases hk with hk | hk <;> rw [hk] at hsub <;> split_ifs <;> omega

/-- The status flags of `x + y + c` and of `x - y - c`. -/
def addStatus : Status where
  cf := carryOut x y c
  zf := sumOf x y c == 0
  sf := (sumOf x y c).msb
  of := signedOut n (x.toInt + y.toInt + c.toNat)
  pf := evenParity (sumOf x y c)
  af := halfCarry x y c

def subStatus : Status where
  cf := borrowOut x y c
  zf := differenceOf x y c == 0
  sf := (differenceOf x y c).msb
  of := signedOut n (x.toInt - y.toInt - c.toNat)
  pf := evenParity (differenceOf x y c)
  af := halfBorrow x y c

end Width

/-! ### The carry routines -/

section Routines

variable {size : Nat} (hsize : Sized size) (f : BitVec 32) (a b r : BitVec 64) (c : Bool)

lemma carryBit_toNat : (carryBit c).toNat = c.toNat := by
  cases c <;> rfl

lemma carryBit_ne : (carryBit c != 0) = c := by
  cases c <;> rfl

lemma lowPart_sum : lowPart size (a + b + carryBit c) = sumOf (lowPart size a) (lowPart size b) c := by
  apply BitVec.eq_of_toNat_eq
  have hle := Nat.pow_dvd_pow 2 (szBits_le size)
  rw [sumOf_toNat, lowPart_toNat, lowPart_toNat, lowPart_toNat, BitVec.toNat_add, BitVec.toNat_add, carryBit_toNat,
    Nat.mod_add_mod, Nat.mod_mod_of_dvd _ hle, Nat.add_mod, Nat.add_mod a.toNat, ← Nat.add_mod]

lemma lowPart_difference : lowPart size (a - b - carryBit c) = differenceOf (lowPart size a) (lowPart size b) c := by
  apply sumOf_left_cancel (y := lowPart size b) (c := c)
  rw [sumOf_difference, ← lowPart_sum]
  congr 1
  rw [BitVec.sub_sub, BitVec.add_assoc, BitVec.sub_add_cancel]

/-- Comparisons of extended values are comparisons of the values. -/
lemma extended_lt {n : Nat} (hn : n ≤ 64) (x y : BitVec n) : x.setWidth 64 < y.setWidth 64 ↔ x < y := by
  rw [BitVec.lt_def, BitVec.lt_def, BitVec.toNat_setWidth_of_le hn, BitVec.toNat_setWidth_of_le hn]

lemma extended_beq {n : Nat} (hn : n ≤ 64) (x y : BitVec n) : (x.setWidth 64 == y.setWidth 64) = (x == y) := by
  rw [Bool.eq_iff_iff, beq_iff_eq, beq_iff_eq, ← BitVec.toNat_inj, BitVec.toNat_setWidth_of_le hn,
    BitVec.toNat_setWidth_of_le hn, BitVec.toNat_inj]

include hsize

/-- The parity of the low byte does not depend on what is above it. -/
lemma evenParity_eq : evenLow r = evenParity (lowPart size r) := by
  have hbit (i : Nat) (hi : i < 8) : (lowPart size r).getLsbD i = r.getLsbD i := by
    obtain ⟨-, -, h8⟩ := szBits_pos hsize
    rw [lowPart, BitVec.getLsbD_setWidth, decide_eq_true (by rcases hsize with rfl | rfl | rfl | rfl <;> omega),
      Bool.true_and]
  rw [evenLow, popcount_low]
  simp only [evenParity, List.range, List.range.loop, List.countP_cons, List.countP_nil, hbit 0 (by omega),
    hbit 1 (by omega), hbit 2 (by omega), hbit 3 (by omega), hbit 4 (by omega), hbit 5 (by omega), hbit 6 (by omega),
    hbit 7 (by omega)]
  have htoNat (b : Bool) : (if b = true then 1 else 0) = b.toNat := by cases b <;> rfl
  simp only [htoNat]
  congr 2
  omega

lemma adjust_lowPart (x y z : BitVec 64) : ((truncSz x size ^^^ truncSz y size ^^^ truncSz z size) &&& 0x10 != 0) =
    ((lowPart size x).getLsbD 4 ^^ (lowPart size y).getLsbD 4 ^^ (lowPart size z).getLsbD 4) := by
  have hbit (v : BitVec 64) : (lowPart size v).getLsbD 4 = v.getLsbD 4 := by
    obtain ⟨-, h4, -⟩ := szBits_pos hsize
    rw [lowPart, BitVec.getLsbD_setWidth, decide_eq_true h4, Bool.true_and]
  rw [adjust_eq hsize, BitVec.getLsbD_xor, BitVec.getLsbD_xor, hbit, hbit, hbit]

/-- ZF, SF and PF are facts about the result at its width. -/
lemma result_lowPart (r : BitVec 64) : zeroOf r size = (lowPart size r == 0) ∧ signOf r size = (lowPart size r).msb ∧
    parityOf r size = evenParity (lowPart size r) :=
  ⟨zeroOf_eq r, signOf_eq hsize r, (parityOf_eq hsize r).trans (evenParity_eq hsize r)⟩

/-- The part that the carry routines share, where the carry and the overflow are known. -/
lemma flagsArith_lowPart (cf of : Bool) : flagsArith f cf of (truncSz a size) (truncSz b size) (truncSz r size) size =
    (f &&& ~~~flAll) ||| Status.word ⟨cf, lowPart size r == 0, (lowPart size r).msb, of, evenParity (lowPart size r),
      (lowPart size a).getLsbD 4 ^^ (lowPart size b).getLsbD 4 ^^ (lowPart size r).getLsbD 4⟩ := by
  obtain ⟨hz, hs, hp⟩ := result_lowPart hsize (truncSz r size)
  rw [flagsArith_eq, hz, hs, hp, adjust_lowPart hsize, lowPart_truncSz]

lemma truncSz_top (v : BitVec 64) : (truncSz v size).getLsbD (szBits size - 1) = (lowPart size v).msb := by
  obtain ⟨h0, -, -⟩ := szBits_pos hsize
  rw [truncSz_lowPart, getLsbD_top _ h0 (szBits_le size)]

theorem flagsAdc_eq : flagsAdc f a b (carryBit c) (a + b + carryBit c) size =
    (f &&& ~~~flAll) ||| (addStatus (lowPart size a) (lowPart size b) c).word := by
  obtain ⟨h0, h4, -⟩ := szBits_pos hsize
  have hle := szBits_le size
  have hcf : (decide (truncSz (a + b + carryBit c) size < truncSz a size) ||
      (carryBit c != 0 && truncSz (a + b + carryBit c) size == truncSz a size)) =
      carryOut (lowPart size a) (lowPart size b) c := by
    rw [truncSz_lowPart, truncSz_lowPart, carryBit_ne, extended_beq hle, lowPart_sum]
    simp only [extended_lt hle]
    exact carry_eq ..
  have hof : (~~~(truncSz a size ^^^ truncSz b size) &&& (truncSz a size ^^^ truncSz (a + b + carryBit c) size) &&&
      signBit size != 0) = signedOut (szBits size) ((lowPart size a).toInt + (lowPart size b).toInt + c.toNat) := by
    rw [← overflow_eq _ _ _ h0, signBit_eq hsize, and_twoPow_ne _ (by omega), BitVec.getLsbD_and, BitVec.getLsbD_not,
      BitVec.getLsbD_xor, BitVec.getLsbD_xor, truncSz_top hsize, truncSz_top hsize, truncSz_top hsize, lowPart_sum,
      decide_eq_true (by omega)]
    cases (lowPart size a).msb <;> cases (lowPart size b).msb <;> rfl
  simp only [flagsAdc]
  rw [hcf, hof, flagsArith_lowPart hsize, lowPart_sum, halfCarry_eq _ _ _ h4]
  rfl

theorem flagsSbb_eq : flagsSbb f a b (carryBit c) (a - b - carryBit c) size =
    (f &&& ~~~flAll) ||| (subStatus (lowPart size a) (lowPart size b) c).word := by
  obtain ⟨h0, h4, -⟩ := szBits_pos hsize
  have hle := szBits_le size
  have hcf : (decide (truncSz a size < truncSz b size) || (carryBit c != 0 && truncSz a size == truncSz b size)) =
      borrowOut (lowPart size a) (lowPart size b) c := by
    rw [truncSz_lowPart, truncSz_lowPart, carryBit_ne, extended_beq hle]
    simp only [extended_lt hle]
    exact borrow_eq ..
  have hof : ((truncSz a size ^^^ truncSz b size) &&& (truncSz a size ^^^ truncSz (a - b - carryBit c) size) &&&
      signBit size != 0) = signedOut (szBits size) ((lowPart size a).toInt - (lowPart size b).toInt - c.toNat) := by
    rw [← underflow_eq _ _ _ h0, signBit_eq hsize, and_twoPow_ne _ (by omega), BitVec.getLsbD_and, BitVec.getLsbD_xor,
      BitVec.getLsbD_xor, truncSz_top hsize, truncSz_top hsize, truncSz_top hsize, lowPart_difference]
  simp only [flagsSbb]
  rw [hcf, hof, flagsArith_lowPart hsize, lowPart_difference, halfBorrow_eq _ _ _ h4]
  rfl

/-- Without a carry in, `add` and `sub` are the same as `adc` and `sbb`. -/
theorem flagsAdd_eq : flagsAdd f a b (a + b) size =
    (f &&& ~~~flAll) ||| (addStatus (lowPart size a) (lowPart size b) false).word := by
  have h := flagsAdc_eq hsize f a b false
  simpa [flagsAdc, flagsAdd, carryBit] using h

theorem flagsSub_eq : flagsSub f a b (a - b) size =
    (f &&& ~~~flAll) ||| (subStatus (lowPart size a) (lowPart size b) false).word := by
  have h := flagsSbb_eq hsize f a b false
  simpa [flagsSbb, flagsSub, carryBit] using h

/-- The logical routine clears CF and OF whatever has been computed. -/
theorem flagsLogic_lowPart : flagsLogic f r size = (f &&& ~~~flLogic) |||
    Status.word ⟨false, lowPart size r == 0, (lowPart size r).msb, false, evenParity (lowPart size r), false⟩ := by
  obtain ⟨hz, hs, hp⟩ := result_lowPart hsize r
  rw [flagsLogic_eq, hz, hs, hp]

end Routines

/-! ### Numbers of many limbs -/

/-- Where the second operand of an instruction comes from. -/
inductive Source where
  | opnd (o : Opnd)
  | imm (v : BitVec 64)

def Source.read (s : Source) (sz : Nat) (rex : Bool) : M (BitVec 64) :=
  match s with
  | .opnd o => rd o sz rex
  | .imm v => pure v

def Source.val (s : Source) (sz : Nat) (rex : Bool) (c : Cpu) : BitVec 64 :=
  match s with
  | .opnd o => opndVal o sz rex c
  | .imm v => v

/-- What an arithmetic instruction does, whichever of its encodings is used. -/
def aluInsn (o : Alu) (dst : Opnd) (src : Source) (sz : Nat) (rex : Bool) : M Unit := do
  let a ← rd dst sz rex
  let b ← src.read sz rex
  aluExec o a b sz fun r => wr dst r sz rex

/-- The destination of the arithmetic instruction at `rip`: the direction bit of a row, the
accumulator, or the operand of group 1. -/
def aluDst (c : Cpu) : Opnd :=
  let e := encodingAt (codeOf c c.rip)
  if 0x40 ≤ e.op ∨ e.op &&& 7 < 2 then rmOperand c
  else if e.op &&& 7 < 4 then .reg (regField (codeOf c c.rip e.tail) e.rex)
  else .reg rax

/-- Its source. -/
def aluSrc (c : Cpu) : Source :=
  let p := codeOf c c.rip
  let e := encodingAt p
  if 0x40 ≤ e.op then
    .imm (if e.op = 0x81 then p.i32 (e.tail + modrmBytes p e.tail) else p.i8 (e.tail + modrmBytes p e.tail))
  else if e.op &&& 7 < 2 then .opnd (.reg (regField (p e.tail) e.rex))
  else if e.op &&& 7 < 4 then .opnd (rmOperand c)
  else if e.op &&& 1 = 0 then .imm ((p e.tail).setWidth 64)
  else if e.opsize = 2 then .imm ((p (e.tail + 1) ++ p e.tail : BitVec 16).setWidth 64)
  else .imm (p.i32 e.tail)

/-- A step of ordinary code that does not fault, whose bytes are executed as the operation `o` on
operands of `sz` bytes. It finds `a` in its destination and `b` in its source, and leaves `r` in its
destination. -/
structure LimbStep (fp : Fp) (rt : Runtime) (k : Kernel) (o : Alu) (sz : Nat) (a b r : BitVec (szBits sz)) (c c' : Cpu) :
    Prop where
  next : c' = (step fp rt k c).2
  callback : c.rip ≠ callbackMagic
  returns : c.rip ≠ returnMagic
  stub : rsdStubIndex c.stubs c.rip = none
  fault : c'.fault = none
  op : ∃ size, (performed (codeOf c c.rip)).op = .alu o size ∧ size.bytes (encodingAt (codeOf c c.rip)).opsize = sz
  dst : a = lowPart sz (opndVal (aluDst c) sz ((encodingAt (codeOf c c.rip)).rex != 0) c)
  src : b = lowPart sz ((aluSrc c).val sz ((encodingAt (codeOf c c.rip)).rex != 0) c)
  result : r = lowPart sz (opndVal (aluDst c) sz ((encodingAt (codeOf c c.rip)).rex != 0) c')

def carryOf (c : Cpu) : Bool := c.flags.getLsbD 0

/-- `first` on the lowest limbs and `rest` on the others, with any steps in between that keep the
carry. -/
inductive LimbRun (fp : Fp) (rt : Runtime) (k : Kernel) (sz : Nat) (rest : Alu) :
    Alu → List (BitVec (szBits sz)) → List (BitVec (szBits sz)) → List (BitVec (szBits sz)) → Cpu → Cpu → Prop
  | last {first : Alu} {a b r : BitVec (szBits sz)} {c c' : Cpu} (h : LimbStep fp rt k first sz a b r c c') :
      LimbRun fp rt k sz rest first [a] [b] [r] c c'
  | cons {first : Alu} {a b r : BitVec (szBits sz)} {as bs rs : List (BitVec (szBits sz))} {c c1 c2 c' : Cpu}
      (h : LimbStep fp rt k first sz a b r c c1) (hcarry : carryOf c2 = carryOf c1)
      (t : LimbRun fp rt k sz rest rest as bs rs c2 c') :
      LimbRun fp rt k sz rest first (a :: as) (b :: bs) (r :: rs) c c'

/-- The number of a list of limbs, the lowest first. -/
def limbsVal {n : Nat} (l : List (BitVec n)) : Nat := Nat.ofDigits (2 ^ n) (l.map BitVec.toNat)

/-! ### The instruction at `rip` -/

/-- The operations that are neither a move nor a test have three kinds of encodings. -/
lemma performed_alu {p : Code} {o : Alu} {sz : Width} (h : (performed p).op = .alu o sz) (hm : o ≠ .mov) (ht : o ≠ .test) :
    let e := encodingAt p
    e.escaped = false ∧
      (opClass e.op = .aluRow ∧ rowAlu e.op = o ∧ widthIf (rowSize e.op 4 == 1) = sz ∨
        opClass e.op = .aluEax ∧ eaxAlu e.op = o ∧ widthIf (e.op &&& 1 == 0) = sz ∨
        opClass e.op = .grp1 ∧ grp1Alu (e.ext p) = o ∧ widthIf (e.op == 0x80) = sz) := by
  intro e
  have hgrp3 (ext : BitVec 8) (size : Width) : performedGrp3 ext size ≠ .alu o sz := by
    unfold performedGrp3
    split <;> intro h <;> cases h
    exact ht rfl
  have hgrp5 (ext : BitVec 8) (size : Width) : performedGrp5 ext size ≠ .alu o sz := by
    unfold performedGrp5
    split <;> intro h <;> cases h
  have hshift (ext : BitVec 8) (size : Width) : performedShift ext size ≠ .alu o sz := by
    unfold performedShift
    split <;> intro h <;> cases h
  have htwo (op : BitVec 8) : performedTwo op ≠ .alu o sz := by
    unfold performedTwo
    cases twoClass op <;> intro h <;> cases h
  simp only [performed] at h
  cases hesc : e.escaped with
  | true =>
    rw [hesc, if_pos rfl] at h
    by_cases hs : sseClass e.op = .none
    · rw [if_pos hs] at h
      exact absurd h (htwo _)
    · rw [if_neg hs] at h
      cases h
  | false =>
    refine ⟨rfl, ?_⟩
    rw [hesc, if_neg Bool.false_ne_true, isGroup_eq] at h
    unfold performedGroup performedPlain at h
    cases hc : opClass e.op <;> rw [hc] at h
    case aluRow => exact .inl ⟨rfl, Operation.alu.inj h⟩
    case aluEax => exact .inr (.inl ⟨rfl, Operation.alu.inj h⟩)
    case grp1 => exact .inr (.inr ⟨rfl, Operation.alu.inj h⟩)
    case testEax => exact absurd (Operation.alu.inj h).1.symm ht
    case movRegImm8 | movRegImm | movRmImm => exact absurd (Operation.alu.inj h).1.symm hm
    case shift => exact absurd h (hshift _ _)
    case grp3 => exact absurd h (hgrp3 _ _)
    case grp5 => exact absurd h (hgrp5 _ _)
    all_goals cases h

lemma row_ops : ∀ op : BitVec 8, opClass op = .aluRow → rowAlu op ≠ .mov → rowAlu op ≠ .test →
    ¬ 0x40 ≤ op ∧ op &&& 7 < 4 ∧ (rowToReg op = true ↔ ¬ op &&& 7 < 2) := by
  simp only [opClass_eq]
  decide

lemma eax_ops : ∀ op : BitVec 8, opClass op = .aluEax → ¬ 0x40 ≤ op ∧ ¬ op &&& 7 < 4 ∧ ¬ op &&& 7 < 2 := by
  simp only [opClass_eq]
  decide

lemma grp1_ops : ∀ op : BitVec 8, opClass op = .grp1 → 0x40 ≤ op := by
  simp only [opClass_eq]
  decide

section Encodings

variable {c : Cpu} {d : Dec} {e : Encoding} (he : encodingAt (codeOf c c.rip) = e) (hd : Settled c e d)

include he hd

lemma aluRow_insn (hc : opClass e.op = .aluRow) (hm : rowAlu e.op ≠ .mov) (ht : rowAlu e.op ≠ .test)
    (hend : decRip (stepAluRow e.op d (noted c)).1 = insnEnd c) :
    (stepAluRow e.op d (noted c)).2 = (aluInsn (rowAlu e.op) (aluDst c) (aluSrc c)
      ((widthIf (rowSize e.op 4 == 1)).bytes e.opsize) (e.rex != 0) (begun c (insnEnd c))).2 := by
  obtain ⟨h40, h4, hdir⟩ := row_ops _ hc hm ht
  have hsz : rowSize e.op d.opsize = (widthIf (rowSize e.op 4 == 1)).bytes e.opsize := by
    rw [widthIf_bytes, hd.opsize]
    unfold rowSize
    split <;> rfl
  have hreg : rmReg d (noted c) = regField (codeOf c c.rip e.tail) e.rex := by
    rw [rmReg, hd.p0, hd.n, hd.rex]
    rfl
  rw [stepAluRow_eq, after_fst] at hend
  rw [stepAluRow_eq, after_snd, rmAt_operand (he ▸ hd) hend, hend, hd.hasRex, hsz, hreg]
  unfold aluDst aluSrc
  simp only [he]
  by_cases h2 : e.op &&& 7 < 2
  · rw [if_neg fun h => hdir.mp h h2, if_neg fun h => hdir.mp h h2, if_pos (.inr h2), if_neg h40, if_pos h2]
    rfl
  · rw [if_pos (hdir.mpr h2), if_pos (hdir.mpr h2), if_neg (not_or.mpr ⟨h40, h2⟩), if_pos h4, if_neg h40, if_neg h2,
      if_pos h4]
    rfl

lemma aluEax_insn (hc : opClass e.op = .aluEax) (hend : decRip (stepAluEax e.op d (noted c)).1 = insnEnd c) :
    (stepAluEax e.op d (noted c)).2 = (aluInsn (eaxAlu e.op) (aluDst c) (aluSrc c)
      ((widthIf (e.op &&& 1 == 0)).bytes e.opsize) (e.rex != 0) (begun c (insnEnd c))).2 := by
  obtain ⟨h40, h4, h2⟩ := eax_ops _ hc
  have hdst : aluDst c = .reg rax := by
    unfold aluDst
    simp only [he, if_neg (not_or.mpr ⟨h40, h2⟩), if_neg h4]
  have hsrc : aluSrc c =
      .imm (immZ d (noted c) (e.op &&& 1 == 0) ((widthIf (e.op &&& 1 == 0)).bytes e.opsize)).1 := by
    have hcode : codeOf (noted c) d.p0 = codeOf c c.rip := by rw [hd.p0]; rfl
    unfold aluSrc immZ
    simp only [he, if_neg h40, if_neg h2, if_neg h4, widthIf_bytes, hcode, hd.n, beq_iff_eq]
    by_cases h1 : e.op &&& 1 = 0
    · simp only [if_pos h1]
    · simp only [if_neg h1]
      split <;> rfl
  have hins (n : Nat) (v : BitVec 64) : aluInsn (eaxAlu e.op) (.reg rax) (.imm v) n (e.rex != 0) = (do
      let a ← getreg rax n
      aluExec (eaxAlu e.op) a v n fun r => setreg rax r n) := by
    have hwr : (fun r => wr (.reg rax) r n (e.rex != 0)) = fun r => setreg rax r n := funext fun r => wr_rax r n _
    rw [← hwr, ← rd_rax n (e.rex != 0)]
    rfl
  rw [stepAluEax_eq, after_fst] at hend
  rw [stepAluEax_eq, after_snd, hend, hdst, hsrc, hd.opsize, ← widthIf_bytes, hins]
  rfl

lemma grp1_insn (hc : opClass e.op = .grp1) (hend : decRip (stepGrp1 e.op d (noted c)).1 = insnEnd c) :
    (stepGrp1 e.op d (noted c)).2 = (aluInsn (grp1Alu (e.ext (codeOf c c.rip))) (aluDst c) (aluSrc c)
      ((widthIf (e.op == 0x80)).bytes e.opsize) (e.rex != 0) (begun c (insnEnd c))).2 := by
  have h40 := grp1_ops _ hc
  have hdst : aluDst c = rmOperand c := by
    unfold aluDst
    simp only [he, if_pos (Or.inl h40)]
  have hsrc : aluSrc c = .imm (immS (pastRm d (noted c)) (noted c) (e.op = 0x81)).1 := by
    have hcode : codeOf (noted c) (pastRm d (noted c)).p0 = codeOf c c.rip := by
      rw [show (pastRm d (noted c)).p0 = d.p0 from rfl, hd.p0]
      rfl
    have hn : (pastRm d (noted c)).n = e.tail + modrmBytes (codeOf c c.rip) e.tail := by
      rw [← hd.n, ← hd.p0]
      rfl
    unfold aluSrc immS
    simp only [he, if_pos h40, hcode, hn, decide_eq_true_eq]
    split <;> rfl
  have hext : rmExt d (noted c) = e.ext (codeOf c c.rip) := by
    rw [rmExt, hd.p0, hd.n]
    rfl
  have hsz : (if e.op = 0x80 then 1 else d.opsize) = (widthIf (e.op == 0x80)).bytes e.opsize := by
    rw [widthIf_bytes, hd.opsize]
    simp only [beq_iff_eq]
  rw [stepGrp1_eq, after_fst] at hend
  rw [stepGrp1_eq, after_snd, rmAt_operand (he ▸ hd) hend, hend, hext, hd.hasRex, hdst, hsrc]
  simp only [hsz]
  rfl

end Encodings

section Limbs

variable {fp : Fp} {rt : Runtime} {k : Kernel} {sz : Nat} {a b r : BitVec (szBits sz)} {c c' : Cpu}

/-- Every encoding of an operation does to its operands what the operation does. -/
lemma limbStep_insn {o : Alu} (h : LimbStep fp rt k o sz a b r c c') (hm : o ≠ .mov) (ht : o ≠ .test) :
    c' = (aluInsn o (aluDst c) (aluSrc c) sz ((encodingAt (codeOf c c.rip)).rex != 0) (begun c (insnEnd c))).2 := by
  obtain ⟨size, hop, rfl⟩ := h.op
  have hf := h.fault
  rw [h.next] at hf ⊢
  obtain ⟨hx, hlock⟩ := step_fetched h.callback h.returns h.stub hf
  obtain ⟨hesc, hkind⟩ := performed_alu hop hm ht
  have hclass : opClass (encodingAt (codeOf c c.rip)).op ≠ .none := by
    rcases hkind with ⟨hc, -⟩ | ⟨hc, -⟩ | ⟨hc, -⟩ <;> rw [hc] <;> decide
  obtain ⟨d, hd, hend, hstep⟩ := @step_oneByte fp rt k c h.callback h.returns h.stub hx hesc hclass hlock
  rw [hstep]
  rcases hkind with ⟨hc, rfl, rfl⟩ | ⟨hc, rfl, rfl⟩ | ⟨hc, rfl, rfl⟩ <;> rw [hc] at hend ⊢
  · exact aluRow_insn rfl hd hc hm ht hend
  · exact aluEax_insn rfl hd hc hend
  · exact grp1_insn rfl hd hc hend

instance (s : Source) (sz : Nat) (rex : Bool) : IsBuilt Prim (s.read sz rex) := by
  cases s <;> simp only [Source.read] <;> infer_instance

lemma source_bind {β : Type} (s : Source) (rex : Bool) {f : BitVec 64 → M β} [∀ a, IsBuilt Prim (f a)]
    (h : ((s.read sz rex >>= f) c).2.fault = none) : (s.read sz rex >>= f) c = f (s.val sz rex c) c := by
  cases s with
  | opnd o => exact rd_bind o sz rex h
  | imm v => rfl

lemma aluInsn_eval (o : Alu) (dst : Opnd) (src : Source) (rex : Bool)
    (h : (aluInsn o dst src sz rex c).2.fault = none) : aluInsn o dst src sz rex c =
      aluExec o (opndVal dst sz rex c) (src.val sz rex c) sz (fun r => wr dst r sz rex) c := by
  have h1 := rd_bind dst sz rex h
  unfold aluInsn at h ⊢
  rw [h1] at h ⊢
  exact source_bind src rex h

lemma carryIn_eval (c : Cpu) : carryIn c = (carryBit (carryOf c), c) := by
  have hcf : (c.flags &&& fCF != 0) = carryOf c := and_twoPow_ne_zero c.flags (by decide) rfl
  simp only [carryIn, rdFlags, Prog.bind_apply, Prog.get_apply, hcf]
  rfl

lemma carryOf_word {f : BitVec 32} {x : Status} (h : c.flags = (f &&& ~~~flAll) ||| x.word) : carryOf c = x.cf := by
  obtain ⟨hC, hP, hA, hZ, hS, hO⟩ := flag_bits (i := 0) (by decide)
  simp only [carryOf, h, Status.word, flAll, BitVec.getLsbD_or, BitVec.getLsbD_and, BitVec.getLsbD_not, getLsbD_flagIf,
    hC, hP, hA, hZ, hS, hO]
  simp

/-- `add` and `adc`: `cin` is the carry that they look at. -/
lemma aluExec_sum {o : Alu} {cin : Bool} (hsize : Sized sz) (x y : BitVec 64) (w : BitVec 64 → M Unit)
    (ho : o = .add ∧ cin = false ∨ o = .adc ∧ cin = carryOf c) : aluExec o x y sz w c = w (x + y + carryBit cin)
      { c with flags := (c.flags &&& ~~~flAll) ||| (addStatus (lowPart sz x) (lowPart sz y) cin).word } := by
  rcases ho with ⟨rfl, rfl⟩ | ⟨rfl, rfl⟩
  · have hzero : x + y + carryBit false = x + y := BitVec.add_zero _
    rw [← flagsAdd_eq hsize, hzero]
    rfl
  · rw [← flagsAdc_eq hsize, aluExec, Prog.bind_eval (carryIn_eval c)]
    rfl

lemma aluExec_difference {o : Alu} {cin : Bool} (hsize : Sized sz) (x y : BitVec 64) (w : BitVec 64 → M Unit)
    (ho : o = .sub ∧ cin = false ∨ o = .sbb ∧ cin = carryOf c) : aluExec o x y sz w c = w (x - y - carryBit cin)
      { c with flags := (c.flags &&& ~~~flAll) ||| (subStatus (lowPart sz x) (lowPart sz y) cin).word } := by
  rcases ho with ⟨rfl, rfl⟩ | ⟨rfl, rfl⟩
  · have hzero : x - y - carryBit false = x - y := BitVec.sub_zero _
    rw [← flagsSub_eq hsize, hzero]
    rfl
  · rw [← flagsSbb_eq hsize, aluExec, Prog.bind_eval (carryIn_eval c)]
    rfl

/-- An instruction that writes `v` and `x`'s flags, seen from outside. -/
lemma limb_written {o : Alu} (hsize : Sized sz) (hm : o ≠ .mov) (ht : o ≠ .test) (h : LimbStep fp rt k o sz a b r c c')
    {v : BitVec 64 → BitVec 64 → BitVec 64} {x : BitVec (szBits sz) → BitVec (szBits sz) → Status}
    (heval : ∀ (x1 x2 : BitVec 64) (w : BitVec 64 → M Unit) (c0 : Cpu), c0.flags = c.flags →
      aluExec o x1 x2 sz w c0 = w (v x1 x2)
        { c0 with flags := (c0.flags &&& ~~~flAll) ||| (x (lowPart sz x1) (lowPart sz x2)).word }) :
    ∃ x1 x2, a = lowPart sz x1 ∧ b = lowPart sz x2 ∧ r = lowPart sz (v x1 x2) ∧ carryOf c' = (x a b).cf := by
  have hc' := limbStep_insn h hm ht
  have hf := h.fault
  have hr := h.result
  rw [h.dst, h.src]
  generalize ((encodingAt (codeOf c c.rip)).rex != 0) = rex at hc' hr ⊢
  generalize insnEnd c = rip at hc'
  have hval (s : Source) : s.val sz rex (begun c rip) = s.val sz rex c := by
    cases s with
    | opnd o => exact opndVal_congr o sz rex rfl rfl
    | imm v => rfl
  have hdst : opndVal (aluDst c) sz rex (begun c rip) = opndVal (aluDst c) sz rex c :=
    opndVal_congr (aluDst c) sz rex rfl rfl
  have hins := aluInsn_eval o (aluDst c) (aluSrc c) rex (hc' ▸ hf)
  rw [heval _ _ _ (begun c rip) rfl] at hins
  rw [hins] at hc'
  rw [hc'] at hf
  rw [wr_of_fault (aluDst c) _ sz rex _ hf, hval, hdst] at hc'
  refine ⟨_, _, rfl, rfl, ?_, ?_⟩
  · rw [hr, hc']
    exact opndVal_opndSet (aluDst c) _ rex _ hsize
  · apply carryOf_word (f := c.flags)
    rw [hc', opndSet_flags]
    rfl

lemma limb_add {o : Alu} {cin : Bool} (hsize : Sized sz) (ho : o = .add ∧ cin = false ∨ o = .adc ∧ cin = carryOf c)
    (h : LimbStep fp rt k o sz a b r c c') : r = sumOf a b cin ∧ carryOf c' = carryOut a b cin := by
  have hne : o ≠ .mov ∧ o ≠ .test := by rcases ho with ⟨rfl, -⟩ | ⟨rfl, -⟩ <;> decide
  obtain ⟨x1, x2, rfl, rfl, hr, hc⟩ := limb_written hsize hne.1 hne.2 h (v := fun x y => x + y + carryBit cin)
    (x := fun x y => addStatus x y cin) fun x1 x2 w c0 hc0 =>
      aluExec_sum hsize x1 x2 w (ho.imp_right fun h => ⟨h.1, h.2.trans (by rw [carryOf, carryOf, hc0])⟩)
  exact ⟨hr.trans (lowPart_sum ..), hc⟩

lemma limb_sub {o : Alu} {cin : Bool} (hsize : Sized sz) (ho : o = .sub ∧ cin = false ∨ o = .sbb ∧ cin = carryOf c)
    (h : LimbStep fp rt k o sz a b r c c') : r = differenceOf a b cin ∧ carryOf c' = borrowOut a b cin := by
  have hne : o ≠ .mov ∧ o ≠ .test := by rcases ho with ⟨rfl, -⟩ | ⟨rfl, -⟩ <;> decide
  obtain ⟨x1, x2, rfl, rfl, hr, hc⟩ := limb_written hsize hne.1 hne.2 h (v := fun x y => x - y - carryBit cin)
    (x := fun x y => subStatus x y cin) fun x1 x2 w c0 hc0 =>
      aluExec_difference hsize x1 x2 w (ho.imp_right fun h => ⟨h.1, h.2.trans (by rw [carryOf, carryOf, hc0])⟩)
  exact ⟨hr.trans (lowPart_difference ..), hc⟩

/-! A run of limbs is a carry chain in the base of the limbs. -/

lemma run_sum {first : Alu} {as bs rs : List (BitVec (szBits sz))} (hsize : Sized sz)
    (h : LimbRun fp rt k sz .adc first as bs rs c c') {cin : Bool}
    (ho : first = .add ∧ cin = false ∨ first = .adc ∧ cin = carryOf c) :
    AddChain (2 ^ szBits sz) cin.toNat (as.map BitVec.toNat) (bs.map BitVec.toNat) (rs.map BitVec.toNat)
      (carryOf c').toNat := by
  induction h generalizing cin with
  | last h =>
    obtain ⟨rfl, hc⟩ := limb_add hsize ho h
    rw [hc]
    exact .cons (toNat_add_carry ..) (.nil _)
  | cons h hcarry _ ih =>
    obtain ⟨rfl, hc⟩ := limb_add hsize ho h
    exact .cons (toNat_add_carry ..) (ih (.inr ⟨rfl, (hcarry.trans hc).symm⟩))

lemma run_difference {first : Alu} {as bs rs : List (BitVec (szBits sz))} (hsize : Sized sz)
    (h : LimbRun fp rt k sz .sbb first as bs rs c c') {cin : Bool}
    (ho : first = .sub ∧ cin = false ∨ first = .sbb ∧ cin = carryOf c) :
    AddChain (2 ^ szBits sz) cin.toNat (rs.map BitVec.toNat) (bs.map BitVec.toNat) (as.map BitVec.toNat)
      (carryOf c').toNat := by
  induction h generalizing cin with
  | last h =>
    obtain ⟨rfl, hc⟩ := limb_sub hsize ho h
    rw [hc]
    exact .cons (toNat_sub_borrow ..).symm (.nil _)
  | cons h hcarry _ ih =>
    obtain ⟨rfl, hc⟩ := limb_sub hsize ho h
    exact .cons (toNat_sub_borrow ..).symm (ih (.inr ⟨rfl, (hcarry.trans hc).symm⟩))

end Limbs

lemma limbsVal_base {n : Nat} (l : List (BitVec n)) : ∀ x ∈ l.map BitVec.toNat, x < 2 ^ n := by
  intro x hx
  obtain ⟨v, -, rfl⟩ := List.mem_map.mp hx
  exact v.isLt

/-- The flags of additions and subtractions are those of the numbers, and so a chain of them over
the limbs of two numbers gives the sum or the difference. -/
theorem carry_arithmetic (fp : Fp) (rt : Runtime) (k : Kernel) {size : Nat} (hsize : Sized size) :
    (∀ (f : BitVec 32) (a b : BitVec 64) (c : Bool),
      flagsAdd f a b (a + b) size = (f &&& ~~~flAll) ||| (addStatus (lowPart size a) (lowPart size b) false).word ∧
      flagsAdc f a b (carryBit c) (a + b + carryBit c) size =
        (f &&& ~~~flAll) ||| (addStatus (lowPart size a) (lowPart size b) c).word ∧
      flagsSub f a b (a - b) size = (f &&& ~~~flAll) ||| (subStatus (lowPart size a) (lowPart size b) false).word ∧
      flagsSbb f a b (carryBit c) (a - b - carryBit c) size =
        (f &&& ~~~flAll) ||| (subStatus (lowPart size a) (lowPart size b) c).word) ∧
    ∀ (as bs rs : List (BitVec (szBits size))) (c c' : Cpu),
      (LimbRun fp rt k size .adc .add as bs rs c c' →
        limbsVal rs = (limbsVal as + limbsVal bs) % 2 ^ (szBits size * as.length) ∧
          carryOf c' = decide (2 ^ (szBits size * as.length) ≤ limbsVal as + limbsVal bs)) ∧
      (LimbRun fp rt k size .sbb .sub as bs rs c c' →
        (limbsVal rs : ℤ) = ((limbsVal as : ℤ) - limbsVal bs) % 2 ^ (szBits size * as.length) ∧
          carryOf c' = decide (limbsVal as < limbsVal bs)) := by
  have hB : 1 < 2 ^ szBits size := Nat.one_lt_two_pow (by have := (szBits_pos hsize).1; omega)
  refine ⟨fun f a b c => ⟨flagsAdd_eq hsize .., flagsAdc_eq hsize .., flagsSub_eq hsize .., flagsSbb_eq hsize ..⟩,
    fun as bs rs c c' => ⟨fun h => ?_, fun h => ?_⟩⟩
  · have hchain := run_sum hsize h (.inl ⟨rfl, rfl⟩)
    obtain ⟨hval, hcarry⟩ := hchain.sum hB (limbsVal_base rs)
    rw [List.length_map, ← Nat.pow_mul, Bool.toNat_false, Nat.add_zero] at hval hcarry
    refine ⟨hval, ?_⟩
    have hpos := Nat.two_pow_pos (szBits size * as.length)
    change (carryOf c').toNat = (limbsVal as + limbsVal bs) / _ at hcarry
    cases hc : carryOf c' with
    | true =>
      rw [hc, Bool.toNat_true] at hcarry
      exact (decide_eq_true ((Nat.div_pos_iff.mp (by omega)).2)).symm
    | false =>
      rw [hc, Bool.toNat_false] at hcarry
      exact (decide_eq_false (Nat.not_le.mpr (Nat.lt_of_div_eq_zero hpos hcarry.symm))).symm
  · have hchain := run_difference hsize h (.inl ⟨rfl, rfl⟩)
    have hval := hchain.difference hB (limbsVal_base rs)
    have hcarry := hchain.borrow hB (limbsVal_base rs)
    rw [List.length_map, ← Nat.pow_mul, Bool.toNat_false, Nat.cast_zero, sub_zero, Nat.cast_pow] at hval
    rw [Bool.toNat_false, Nat.add_zero] at hcarry
    refine ⟨hval, ?_⟩
    cases hc : carryOf c' with
    | true =>
      rw [hc] at hcarry
      exact (decide_eq_true (hcarry.mp Nat.one_pos)).symm
    | false =>
      rw [hc] at hcarry
      exact (decide_eq_false fun h => absurd (hcarry.mpr h) (Nat.lt_irrefl 0)).symm

/-- `add rax, rcx` and `adc rdx, rbx`. -/
def addTwoLimbs : Cpu := { codeCpu [0x48, 0x01, 0xC8, 0x48, 0x11, 0xDA] with
  r := fun i => if i = rax then 0xFFFFFFFFFFFFFFFF else if i = rcx then 2 else if i = rdx then 5 else 7 }

def addedLow : Cpu := (step sampleFp sampleRuntime sampleKernel addTwoLimbs).2
def addedBoth : Cpu := (step sampleFp sampleRuntime sampleKernel addedLow).2

lemma addTwoLimbs_run : LimbRun sampleFp sampleRuntime sampleKernel 8 .adc .add [0xFFFFFFFFFFFFFFFF, 5] [2, 7] [1, 13]
    addTwoLimbs addedBoth :=
  @LimbRun.cons sampleFp sampleRuntime sampleKernel 8 .adc .add _ _ _ _ _ _ addTwoLimbs addedLow addedLow addedBoth
    ⟨rfl, by decide, by decide, by decide, by decide, ⟨.v, by decide, by decide⟩, by decide, by decide, by decide⟩ rfl
    (.last ⟨rfl, by decide, by decide, by decide, by decide, ⟨.v, by decide, by decide⟩, by decide, by decide,
      by decide⟩)

theorem carry_arithmetic_twoLimbs :
    limbsVal [(1 : BitVec 64), 13] = (limbsVal [(0xFFFFFFFFFFFFFFFF : BitVec 64), 5] + limbsVal [(2 : BitVec 64), 7]) %
      2 ^ (64 * 2) ∧ carryOf addedBoth = false := by
  have h := ((@carry_arithmetic sampleFp sampleRuntime sampleKernel 8 (.wide (.inr rfl))).2 _ _ _ _ _).1 addTwoLimbs_run
  exact ⟨h.1, h.2.trans (by decide)⟩

end Rashid.Proofs
