import Rashid.Proofs.CarryFlags

/-!
# Shifts

A shift of the interpreter is as many shifts by one bit as its count says, at every width and
also where the count is larger than the operand.
-/

namespace Rashid.Proofs

section Width

variable {n : Nat} (x : BitVec n)

/-! ### So many shifts in one -/

lemma times_shl (k : Nat) : ShiftOp.shl.times (k + 1) x = (x <<< (k + 1), (x <<< k).msb) := by
  induction k with
  | zero => simp [ShiftOp.times, ShiftOp.one]
  | succ k ih =>
    unfold ShiftOp.times at ih ⊢
    rw [Function.iterate_succ_apply', ih]
    simp only [ShiftOp.one, BitVec.shiftLeft_add]

lemma times_shr (k : Nat) : ShiftOp.shr.times (k + 1) x = (x >>> (k + 1), (x >>> k).getLsbD 0) := by
  induction k with
  | zero => simp [ShiftOp.times, ShiftOp.one]
  | succ k ih =>
    unfold ShiftOp.times at ih ⊢
    rw [Function.iterate_succ_apply', ih]
    simp only [ShiftOp.one, BitVec.shiftRight_add]

lemma times_sar (k : Nat) : ShiftOp.sar.times (k + 1) x = (x.sshiftRight (k + 1), (x.sshiftRight k).getLsbD 0) := by
  induction k with
  | zero => simp [ShiftOp.times, ShiftOp.one]
  | succ k ih =>
    unfold ShiftOp.times at ih ⊢
    rw [Function.iterate_succ_apply', ih]
    simp only [ShiftOp.one, BitVec.sshiftRight_add]

end Width

/-! ### The closed form -/

/-- The extensions of the shift group: six is another four, and the routine takes any other for seven. -/
def shiftOpOf (ext : BitVec 8) : ShiftOp := if ext = 4 ∨ ext = 6 then .shl else if ext = 5 then .shr else .sar

/-- What the routine computes before it looks at the width: the value, CF and OF. -/
def shiftParts (a cnt : BitVec 64) (size : Nat) (o : ShiftOp) : BitVec 64 × Bool × Bool :=
  let w := size * 8
  let ta := truncSz a size
  match o with
  | .shl =>
    let r := ta <<< cnt.toNat
    let cf := decide (cnt.toNat ≤ w) && (ta >>> (w - cnt.toNat)).getLsbD 0
    (r, cf, (truncSz r size >>> (w - 1)).getLsbD 0 ^^ cf)
  | .shr =>
    (ta >>> cnt.toNat, decide (cnt.toNat ≤ w) && (ta >>> (cnt.toNat - 1)).getLsbD 0, (ta >>> (w - 1)).getLsbD 0)
  | .sar =>
    let sa := sext a size
    let sh := if w ≤ cnt.toNat then w - 1 else cnt.toNat
    let cb := if w ≤ cnt.toNat - 1 then w - 1 else cnt.toNat - 1
    (sa.sshiftRight sh, (sa.sshiftRight cb).getLsbD 0, false)

lemma rsdIShift_parts (f : BitVec 32) (a cnt : BitVec 64) (size : Nat) (ext : BitVec 8) : rsdIShift f a cnt size ext =
    let p := shiftParts a cnt size (shiftOpOf ext)
    (truncSz p.1 size,
      setPzs ((f &&& ~~~(fCF ||| fOF)) ||| flagIf p.2.1 fCF ||| flagIf p.2.2 fOF) (truncSz p.1 size) size) := by
  unfold shiftOpOf
  by_cases hl : ext = 4 ∨ ext = 6
  · simp only [rsdIShift, hl, if_true]
    rfl
  · by_cases hr : ext = 5
    · simp only [rsdIShift, hr, if_true]
      rfl
    · simp only [rsdIShift, hl, hr, if_false]
      rfl

section Parts

variable {size : Nat} (hsize : Sized size) (a v cnt : BitVec 64)

lemma getLsbD_lowPart (i : Nat) : (lowPart size v).getLsbD i = (decide (i < szBits size) && v.getLsbD i) := by
  rw [lowPart, BitVec.getLsbD_setWidth]

lemma getLsbD_trunc (i : Nat) : (truncSz a size).getLsbD i = (lowPart size a).getLsbD i := by
  rw [truncSz_lowPart, BitVec.getLsbD_setWidth]
  by_cases hi : i < 64
  · rw [decide_eq_true hi, Bool.true_and]
  · have hle := szBits_le size
    rw [decide_eq_false hi, Bool.false_and, BitVec.getLsbD_of_ge _ _ (by omega)]

include hsize

lemma getLsbD_sext {i : Nat} (hi : i < 64) : (sext a size).getLsbD i =
    if i < szBits size then (lowPart size a).getLsbD i else (lowPart size a).msb := by
  have hx : sext a size = (lowPart size a).signExtend 64 := by
    rcases hsize with rfl | rfl | rfl | rfl
    · rfl
    · rfl
    · rfl
    · show a = (a.setWidth 64).signExtend 64
      rw [BitVec.signExtend_eq, BitVec.setWidth_eq]
  rw [hx, BitVec.getLsbD_signExtend, decide_eq_true hi, Bool.true_and]

lemma shl_parts {k : Nat} (hk : cnt.toNat = k + 1) :
    lowPart size (shiftParts a cnt size .shl).1 = lowPart size a <<< (k + 1) ∧
      (shiftParts a cnt size .shl).2.1 = (lowPart size a <<< k).msb ∧
      (shiftParts a cnt size .shl).2.2 = ((lowPart size a <<< (k + 1)).msb ^^ (lowPart size a <<< k).msb) := by
  obtain ⟨h0, -, hw⟩ := szBits_pos hsize
  have hn := szBits_le size
  have hv : lowPart size (truncSz a size <<< (k + 1)) = lowPart size a <<< (k + 1) := by
    apply BitVec.eq_of_getLsbD_eq
    intro i hi
    rw [getLsbD_lowPart, BitVec.getLsbD_shiftLeft, BitVec.getLsbD_shiftLeft, getLsbD_trunc, decide_eq_true hi,
      decide_eq_true (show i < 64 by omega), Bool.true_and]
  have hcf : (decide (k + 1 ≤ szBits size) && (truncSz a size >>> (szBits size - (k + 1))).getLsbD 0) =
      (lowPart size a <<< k).msb := by
    rw [BitVec.msb_eq_getLsbD_last, BitVec.getLsbD_shiftLeft, BitVec.getLsbD_ushiftRight, getLsbD_trunc,
      decide_eq_true (show szBits size - 1 < szBits size by omega), Bool.true_and]
    by_cases hlt : k + 1 ≤ szBits size
    · rw [decide_eq_true hlt, decide_eq_false (show ¬ szBits size - 1 < k by omega),
        show szBits size - (k + 1) + 0 = szBits size - 1 - k by omega]
      rfl
    · rw [decide_eq_false hlt, decide_eq_true (show szBits size - 1 < k by omega)]
      rfl
  have hof : (truncSz (truncSz a size <<< (k + 1)) size >>> (szBits size - 1)).getLsbD 0 =
      (lowPart size a <<< (k + 1)).msb := by
    rw [BitVec.getLsbD_ushiftRight, show szBits size - 1 + 0 = szBits size - 1 from rfl, truncSz_top hsize, hv]
  simp only [shiftParts, hk, hw, hcf, hof, hv]
  exact ⟨trivial, trivial, trivial⟩

lemma shr_parts {k : Nat} (hk : cnt.toNat = k + 1) :
    lowPart size (shiftParts a cnt size .shr).1 = lowPart size a >>> (k + 1) ∧
      (shiftParts a cnt size .shr).2.1 = (lowPart size a >>> k).getLsbD 0 ∧
      (shiftParts a cnt size .shr).2.2 = (lowPart size a).msb := by
  obtain ⟨h0, -, hw⟩ := szBits_pos hsize
  have hv : lowPart size (truncSz a size >>> (k + 1)) = lowPart size a >>> (k + 1) := by
    apply BitVec.eq_of_getLsbD_eq
    intro i hi
    rw [getLsbD_lowPart, BitVec.getLsbD_ushiftRight, BitVec.getLsbD_ushiftRight, getLsbD_trunc, decide_eq_true hi,
      Bool.true_and]
  have hcf : (decide (k + 1 ≤ szBits size) && (truncSz a size >>> (k + 1 - 1)).getLsbD 0) =
      (lowPart size a >>> k).getLsbD 0 := by
    rw [Nat.add_sub_cancel, BitVec.getLsbD_ushiftRight, BitVec.getLsbD_ushiftRight, getLsbD_trunc]
    by_cases hlt : k + 1 ≤ szBits size
    · rw [decide_eq_true hlt, Bool.true_and]
    · rw [decide_eq_false hlt, BitVec.getLsbD_of_ge _ _ (by omega), Bool.false_and]
  have hof : (truncSz a size >>> (szBits size - 1)).getLsbD 0 = (lowPart size a).msb := by
    rw [BitVec.getLsbD_ushiftRight, show szBits size - 1 + 0 = szBits size - 1 from rfl, truncSz_top hsize]
  simp only [shiftParts, hk, hw, hcf, hof, hv]
  exact ⟨trivial, trivial, trivial⟩

/-- An arithmetic shift stops at all sign bits. -/
lemma sext_sshiftRight (k : Nat) (i : Nat) (hi : i < szBits size) :
    ((sext a size).sshiftRight (if szBits size ≤ k then szBits size - 1 else k)).getLsbD i =
      ((lowPart size a).sshiftRight k).getLsbD i := by
  obtain ⟨h0, -, -⟩ := szBits_pos hsize
  have hn := szBits_le size
  have hmsb : (sext a size).msb = (lowPart size a).msb := by
    rw [BitVec.msb_eq_getLsbD_last, getLsbD_sext hsize a (by omega)]
    split
    · next h => rw [BitVec.msb_eq_getLsbD_last, show szBits size - 1 = 64 - 1 by omega]
    · rfl
  have hbit (j : Nat) (hj : szBits size - 1 ≤ j) : (if j < 64 then (sext a size).getLsbD j else (sext a size).msb) =
      (lowPart size a).msb := by
    split
    · next h =>
      rw [getLsbD_sext hsize a h]
      split
      · rw [BitVec.msb_eq_getLsbD_last, show j = szBits size - 1 by omega]
      · rfl
    · exact hmsb
  rw [BitVec.getLsbD_sshiftRight, BitVec.getLsbD_sshiftRight, decide_eq_false (show ¬ 64 ≤ i by omega),
    decide_eq_false (show ¬ szBits size ≤ i by omega)]
  simp only [Bool.not_false, Bool.true_and]
  by_cases hk : szBits size ≤ k
  · rw [if_pos hk, hbit _ (by omega), if_neg (show ¬ k + i < szBits size by omega)]
  · rw [if_neg hk]
    by_cases hlt : k + i < szBits size
    · rw [if_pos hlt, if_pos (by omega), getLsbD_sext hsize a (by omega), if_pos hlt]
    · rw [if_neg hlt, hbit _ (by omega)]

lemma sar_parts {k : Nat} (hk : cnt.toNat = k + 1) :
    lowPart size (shiftParts a cnt size .sar).1 = (lowPart size a).sshiftRight (k + 1) ∧
      (shiftParts a cnt size .sar).2.1 = ((lowPart size a).sshiftRight k).getLsbD 0 ∧
      (shiftParts a cnt size .sar).2.2 = false := by
  obtain ⟨h0, -, hw⟩ := szBits_pos hsize
  have hv : lowPart size ((sext a size).sshiftRight (if szBits size ≤ k + 1 then szBits size - 1 else k + 1)) =
      (lowPart size a).sshiftRight (k + 1) := by
    apply BitVec.eq_of_getLsbD_eq
    intro i hi
    rw [getLsbD_lowPart, decide_eq_true hi, Bool.true_and, sext_sshiftRight hsize a (k + 1) i hi]
  have hcf := sext_sshiftRight hsize a k 0 h0
  simp only [shiftParts, hk, hw, Nat.add_sub_cancel, hcf, hv]
  exact ⟨trivial, trivial, trivial⟩

/-- The closed form is the iterated shift. -/
lemma shiftParts_times (o : ShiftOp) (hcnt : 1 ≤ cnt.toNat) :
    lowPart size (shiftParts a cnt size o).1 = (o.times cnt.toNat (lowPart size a)).1 ∧
      (shiftParts a cnt size o).2.1 = (o.times cnt.toNat (lowPart size a)).2 ∧
      (cnt = 1 → (shiftParts a cnt size o).2.2 = o.overflow (lowPart size a)) := by
  obtain ⟨k, hk⟩ : ∃ k, cnt.toNat = k + 1 := ⟨cnt.toNat - 1, by omega⟩
  have hone (h : cnt = 1) : k = 0 := by
    rw [h] at hk
    have : (1 : BitVec 64).toNat = 1 := rfl
    omega
  rw [hk]
  cases o with
  | shl =>
    obtain ⟨hv, hc, ho⟩ := shl_parts hsize a cnt hk
    rw [times_shl, hv, hc, ho]
    refine ⟨rfl, rfl, fun h => ?_⟩
    rw [hone h]
    simp [ShiftOp.overflow, ShiftOp.one]
  | shr =>
    obtain ⟨hv, hc, ho⟩ := shr_parts hsize a cnt hk
    rw [times_shr, hv, hc, ho]
    exact ⟨rfl, rfl, fun _ => rfl⟩
  | sar =>
    obtain ⟨hv, hc, ho⟩ := sar_parts hsize a cnt hk
    rw [times_sar, hv, hc, ho]
    exact ⟨rfl, rfl, fun _ => rfl⟩

end Parts

/-- A shift by any masked count is as many shifts by one bit: the value, the bit shifted out last
in CF, and ZF, SF and PF of the value. OF is defined for a count of one, and AF is left alone. -/
theorem shifts_iterate {size : Nat} (hsize : Sized size) (f : BitVec 32) (a cnt : BitVec 64) (ext : BitVec 8)
    (hcnt : 1 ≤ cnt.toNat) :
    let s := (shiftOpOf ext).times cnt.toNat (lowPart size a)
    (rsdIShift f a cnt size ext).1 = s.1.setWidth 64 ∧
    ∃ of, (cnt = 1 → of = (shiftOpOf ext).overflow (lowPart size a)) ∧
      (rsdIShift f a cnt size ext).2 =
        (f &&& ~~~flLogic) ||| Status.word ⟨s.2, s.1 == 0, s.1.msb, of, evenParity s.1, false⟩ := by
  obtain ⟨hv, hc, ho⟩ := shiftParts_times hsize a cnt (shiftOpOf ext) hcnt
  obtain ⟨hzero, hsign, hparity⟩ := result_lowPart hsize (truncSz (shiftParts a cnt size (shiftOpOf ext)).1 size)
  rw [lowPart_truncSz, hv] at hzero hsign hparity
  rw [rsdIShift_parts]
  refine ⟨(truncSz_lowPart _).trans (congrArg _ hv), _, ho, ?_⟩
  rw [← hc, ← hzero, ← hsign, ← hparity]
  exact logic_eq ..

/-- `sar` of a byte by more than its width. -/
theorem shifts_iterate_sar : rsdIShift 0 0x80 12 1 7 = (0xFF, fCF ||| fSF ||| fPF) ∧
    (rsdIShift 0 0x80 12 1 7).1 = (ShiftOp.sar.times 12 (0x80 : BitVec 8)).1.setWidth 64 := by
  refine ⟨by decide, (@shifts_iterate 1 (.inl rfl) 0 0x80 12 7 (by decide)).1⟩

end Rashid.Proofs
