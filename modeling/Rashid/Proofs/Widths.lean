import Rashid.InsnMeaning

/-!
# Operands of a width

A register operand wider than its operation is harmless: the operation, its flags and its
write depend on the low bytes alone.
-/

namespace Rashid.Proofs

def szBits : Nat → Nat
  | 1 => 8
  | 2 => 16
  | 4 => 32
  | _ => 64

lemma szBits_le (n : Nat) : szBits n ≤ 64 := by
  unfold szBits
  split <;> omega

lemma and_mask_toNat (v : BitVec 64) (k : Nat) (m : BitVec 64) (hm : m.toNat = 2 ^ k - 1) :
    (v &&& m).toNat = v.toNat % 2 ^ k := by
  rw [BitVec.toNat_and, hm, Nat.and_two_pow_sub_one_eq_mod]

lemma truncSz_toNat (v : BitVec 64) (n : Nat) : (truncSz v n).toNat = v.toNat % 2 ^ szBits n := by
  unfold truncSz
  split
  · exact and_mask_toNat v 8 _ rfl
  · exact and_mask_toNat v 16 _ rfl
  · exact and_mask_toNat v 32 _ rfl
  · next h1 h2 h4 =>
    have hs : szBits n = 64 := by
      unfold szBits
      split <;> simp_all
    rw [hs]
    exact (Nat.mod_eq_of_lt v.isLt).symm

/-- Truncation as a narrowing and a zero extension. -/
lemma truncSz_eq_setWidth (v : BitVec 64) (n : Nat) : truncSz v n = (v.setWidth (szBits n)).setWidth 64 := by
  apply BitVec.eq_of_toNat_eq
  rw [truncSz_toNat, BitVec.toNat_setWidth, BitVec.toNat_setWidth]
  have h := Nat.pow_le_pow_right (n := 2) (by omega) (szBits_le n)
  have hlt := Nat.mod_lt v.toNat (Nat.two_pow_pos (szBits n))
  exact (Nat.mod_eq_of_lt (Nat.lt_of_lt_of_le hlt h)).symm

/-- The sizes of operands. -/
def Sized (n : Nat) : Prop := n = 1 ∨ n = 2 ∨ n = 4 ∨ n = 8

lemma Sized.wide {n : Nat} (h : n = 4 ∨ n = 8) : Sized n := .inr (.inr h)

/-- Two values with the same low `n` bytes. -/
def SameLow (n : Nat) (a b : BitVec 64) : Prop := a.setWidth (szBits n) = b.setWidth (szBits n)

namespace SameLow

variable {n : Nat} {a b a' b' : BitVec 64}

lemma refl (n : Nat) (a : BitVec 64) : SameLow n a a := rfl

lemma symm (h : SameLow n a b) : SameLow n b a := Eq.symm h

lemma trans {c : BitVec 64} (h : SameLow n a b) (h' : SameLow n b c) : SameLow n a c := Eq.trans h h'

lemma trunc (h : SameLow n a b) : truncSz a n = truncSz b n := by
  rw [truncSz_eq_setWidth, truncSz_eq_setWidth, h]

lemma truncSz_left (n : Nat) (a : BitVec 64) : SameLow n (truncSz a n) a := by
  apply BitVec.eq_of_toNat_eq
  rw [BitVec.toNat_setWidth, BitVec.toNat_setWidth, truncSz_toNat, Nat.mod_mod]

lemma add (ha : SameLow n a a') (hb : SameLow n b b') : SameLow n (a + b) (a' + b') := by
  unfold SameLow at *
  rw [BitVec.setWidth_add _ _ (szBits_le n), BitVec.setWidth_add _ _ (szBits_le n), ha, hb]

lemma neg (ha : SameLow n a a') : SameLow n (-a) (-a') := by
  unfold SameLow at *
  rw [BitVec.setWidth_neg_of_le (szBits_le n), BitVec.setWidth_neg_of_le (szBits_le n), ha]

lemma sub (ha : SameLow n a a') (hb : SameLow n b b') : SameLow n (a - b) (a' - b') := by
  rw [BitVec.sub_eq_add_neg, BitVec.sub_eq_add_neg]
  exact ha.add hb.neg

lemma mul (ha : SameLow n a a') (hb : SameLow n b b') : SameLow n (a * b) (a' * b') := by
  unfold SameLow at *
  rw [BitVec.setWidth_mul _ _ (szBits_le n), BitVec.setWidth_mul _ _ (szBits_le n), ha, hb]

lemma and (ha : SameLow n a a') (hb : SameLow n b b') : SameLow n (a &&& b) (a' &&& b') := by
  unfold SameLow at *
  rw [BitVec.setWidth_and, BitVec.setWidth_and, ha, hb]

lemma or (ha : SameLow n a a') (hb : SameLow n b b') : SameLow n (a ||| b) (a' ||| b') := by
  unfold SameLow at *
  rw [BitVec.setWidth_or, BitVec.setWidth_or, ha, hb]

lemma xor (ha : SameLow n a a') (hb : SameLow n b b') : SameLow n (a ^^^ b) (a' ^^^ b') := by
  unfold SameLow at *
  rw [BitVec.setWidth_xor, BitVec.setWidth_xor, ha, hb]

end SameLow

/-! ### The flags of an operation depend on the low bytes -/

section Flags

variable {n : Nat} {a b r a' b' r' : BitVec 64} (f : BitVec 32)

lemma setPzs_congr (hr : SameLow n r r') : setPzs f r n = setPzs f r' n := by
  unfold setPzs
  rw [hr.trunc]

lemma flagsLogic_congr (hr : SameLow n r r') : flagsLogic f r n = flagsLogic f r' n :=
  setPzs_congr _ hr

lemma flagsAdd_congr (ha : SameLow n a a') (hb : SameLow n b b') (hr : SameLow n r r') :
    flagsAdd f a b r n = flagsAdd f a' b' r' n := by
  unfold flagsAdd
  rw [ha.trunc, hb.trunc, hr.trunc]

lemma flagsSub_congr (ha : SameLow n a a') (hb : SameLow n b b') (hr : SameLow n r r') :
    flagsSub f a b r n = flagsSub f a' b' r' n := by
  unfold flagsSub
  rw [ha.trunc, hb.trunc, hr.trunc]

end Flags

/-! ### Writes of a width -/

section Writes

variable {n : Nat} {v v' : BitVec 64}

lemma mergeSz_congr (old : BitVec 64) (h : SameLow n v v') : mergeSz old v n = mergeSz old v' n := by
  have ht := h.trunc
  unfold truncSz at ht
  unfold mergeSz
  split <;> simp_all

lemma setreg_congr (i : Fin 16) (h : SameLow n v v') : setreg i v n = setreg i v' n := by
  funext c
  simp only [setreg, Prog.bind_apply, mergeSz_congr _ h]

lemma setreg8_congr (i : Fin 16) (rex : Bool) (h : SameLow 1 v v') : setreg8 i v rex = setreg8 i v' rex := by
  have ht : v &&& 0xff = v' &&& 0xff := h.trunc
  unfold setreg8
  rw [ht]

lemma sameLow_and_sizeMask {n : Nat} (hn : n = 1 ∨ n = 2 ∨ n = 4 ∨ n = 8) (h : SameLow n v v') :
    v &&& sizeMask n = v' &&& sizeMask n := by
  have ht := h.trunc
  rcases hn with rfl | rfl | rfl | rfl
  · exact ht
  · exact ht
  · exact ht
  · exact congrArg (· &&& sizeMask 8) ht

lemma storeLE_congr {n : Nat} (m : Mem) (a : BitVec 64) (hn : n = 1 ∨ n = 2 ∨ n = 4 ∨ n = 8) (h : SameLow n v v') :
    storeLE m a v n = storeLE m a v' n := by
  funext x
  unfold storeLE
  by_cases hx : inWindow a n x
  · simp only [hx, if_true]
    unfold inWindow at hx
    generalize (x - a).toNat = k at hx ⊢
    have hb : 8 * k + 8 ≤ szBits n := by
      rcases hn with rfl | rfl | rfl | rfl <;> simp only [szBits] <;> omega
    apply BitVec.eq_of_getLsbD_eq
    intro i hi
    have hg := congrArg (fun z => z.getLsbD (8 * k + i)) h
    have hlt : 8 * k + i < szBits n := by omega
    simp only [BitVec.getLsbD_setWidth, hlt, decide_true, Bool.true_and] at hg
    simpa [hi] using hg
  · simp only [hx, if_false]

lemma st_congr {n : Nat} (a : BitVec 64) (hn : n = 1 ∨ n = 2 ∨ n = 4 ∨ n = 8) (h : SameLow n v v') :
    st a v n = st a v' n := by
  funext c
  simp only [st, logWrite, pokeMem, logEntry, sameLow_and_sizeMask hn h, storeLE_congr _ a hn h,
    Prog.bind_apply, Prog.modify_apply]

lemma wr_congr {n : Nat} (o : Opnd) (rex : Bool) (hn : n = 1 ∨ n = 2 ∨ n = 4 ∨ n = 8) (h : SameLow n v v') :
    wr o v n rex = wr o v' n rex := by
  cases o with
  | reg i =>
    simp only [wr]
    split
    · next h1 =>
      subst h1
      exact setreg8_congr i rex h
    · exact setreg_congr i h
  | mem addr seg => exact st_congr _ hn h
  | ripRel disp seg => exact st_congr _ hn h

end Writes

/-- An operation whose immediate is only right in its low bytes is the same operation. -/
lemma op_exec_congr {n : Nat} (op : Op) (a : BitVec 64) {b b' : BitVec 64} {w : BitVec 64 → M Unit}
    (hw : ∀ v v', SameLow n v v' → w v = w v') (hb : SameLow n b b') :
    op.exec a b n w = op.exec a b' n w := by
  have ha := SameLow.refl n a
  cases op with
  | add => simp only [Op.exec, aluExec, flagsAdd_congr _ ha hb (ha.add hb), hw _ _ (ha.add hb)]
  | or => simp only [Op.exec, aluExec, flagsLogic_congr _ (ha.or hb), hw _ _ (ha.or hb)]
  | and => simp only [Op.exec, aluExec, flagsLogic_congr _ (ha.and hb), hw _ _ (ha.and hb)]
  | sub => simp only [Op.exec, aluExec, flagsSub_congr _ ha hb (ha.sub hb), hw _ _ (ha.sub hb)]
  | xor => simp only [Op.exec, aluExec, flagsLogic_congr _ (ha.xor hb), hw _ _ (ha.xor hb)]
  | cmp => simp only [Op.exec, aluExec, flagsSub_congr _ ha hb (ha.sub hb)]
  | test => simp only [Op.exec, aluExec, flagsLogic_congr _ (ha.and hb)]
  | mov => simp only [Op.exec, aluExec, hw _ _ hb]
  | inc => rfl
  | dec => rfl

end Rashid.Proofs
