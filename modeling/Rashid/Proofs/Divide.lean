import Rashid.Proofs.Multiply

/-!
# Division

Division by zero stops the guest, and a quotient that fits is right but for bytes, which are
divided in the registers of the other widths. No quotient is ever found to be too large.
-/

namespace Rashid.Proofs

/-! ### Truncated division -/

lemma tdiv_division {n d : ℤ} (hd : d ≠ 0) : Division n d (n.tdiv d) (n.tmod d) := by
  have habs := Int.natAbs_tmod n d
  have hlt := Nat.mod_lt n.natAbs (show 0 < d.natAbs by omega)
  refine ⟨?_, by omega, ?_⟩
  · rw [Int.mul_comm]
    exact (Int.mul_tdiv_add_tmod n d).symm
  · rcases lt_trichotomy n 0 with hn | hn | hn
    · have hneg := Int.tmod_nonneg d (Int.neg_nonneg_of_nonpos hn.le)
      rw [Int.neg_tmod] at hneg
      omega
    · rw [hn, Int.zero_tmod]
      exact .inl rfl
    · have hpos := Int.tmod_nonneg d hn.le
      omega

lemma division_unique {n d q r : ℤ} (h : Division n d q r) : q = n.tdiv d ∧ r = n.tmod d := by
  have hd : d ≠ 0 := by
    have := h.lt
    omega
  have heq := h.eq
  have hlt := h.lt
  rw [Int.mul_comm] at heq
  rcases Int.lt_or_le n 0 with hn | hn
  · have hr : r ≤ 0 := by
      have := h.sign
      omega
    obtain ⟨hq, hrem⟩ := (Int.tdiv_tmod_unique' (q := q) (r := r) hn.le hd).mpr ⟨by omega, by omega, hr⟩
    exact ⟨hq.symm, hrem.symm⟩
  · have hr : 0 ≤ r := by
      have := h.sign
      omega
    obtain ⟨hq, hrem⟩ := (Int.tdiv_tmod_unique (q := q) (r := r) hn hd).mpr ⟨by omega, hr, by omega⟩
    exact ⟨hq.symm, hrem.symm⟩

/-! ### Wide words -/

section Wide

variable {w : Nat} (signed : Bool)

/-- The numbers that a word can stand for. -/
def WordRange (signed : Bool) (w : Nat) (z : ℤ) : Prop :=
  if signed then -2 ^ (w - 1) ≤ z ∧ z < 2 ^ (w - 1) else 0 ≤ z ∧ z < 2 ^ w

lemma numOf_ofInt (hw : 0 < w) {z : ℤ} (hz : WordRange signed w z) : numOf signed (BitVec.ofInt w z) = z := by
  unfold WordRange at hz
  unfold numOf
  cases signed with
  | true =>
    simp only [if_true] at hz ⊢
    exact BitVec.toInt_ofInt_eq_self hw hz.1 hz.2
  | false =>
    simp only [Bool.false_eq_true, if_false] at hz ⊢
    rw [BitVec.toNat_ofInt, Int.emod_eq_of_lt hz.1 (by exact_mod_cast hz.2), Int.toNat_of_nonneg hz.1]

lemma ofInt_numOf (x : BitVec w) : BitVec.ofInt w (numOf signed x) = x := by
  unfold numOf
  cases signed with
  | true => exact BitVec.ofInt_toInt
  | false =>
    simp only [Bool.false_eq_true, if_false]
    rw [BitVec.ofInt_natCast, BitVec.ofNat_toNat, BitVec.setWidth_eq]

lemma numOf_wordRange (x : BitVec w) : WordRange signed w (numOf signed x) := by
  unfold WordRange numOf
  cases signed with
  | true => exact ⟨BitVec.le_toInt x, BitVec.toInt_lt⟩
  | false =>
    have hlt := x.isLt
    simp only [Bool.false_eq_true, if_false]
    exact ⟨Int.natCast_nonneg _, by exact_mod_cast hlt⟩

/-- The interpreter's quotient and remainder of wide words. -/
def divWide (signed : Bool) (a b : BitVec 128) : BitVec 128 := if signed then a.sdiv b else a / b
def modWide (signed : Bool) (a b : BitVec 128) : BitVec 128 := if signed then a.srem b else a % b

lemma divWide_eq (a b : BitVec 128) : divWide signed a b = BitVec.ofInt 128 ((numOf signed a).tdiv (numOf signed b)) := by
  unfold divWide numOf
  cases signed with
  | true =>
    apply BitVec.eq_of_toInt_eq
    simp only [if_true]
    rw [BitVec.toInt_sdiv, BitVec.toInt_ofInt]
  | false =>
    simp only [Bool.false_eq_true, if_false]
    rw [← Int.ofNat_tdiv, BitVec.ofInt_natCast]
    apply BitVec.eq_of_toNat_eq
    rw [BitVec.toNat_udiv, BitVec.toNat_ofNat, Nat.mod_eq_of_lt (lt_of_le_of_lt (Nat.div_le_self _ _) a.isLt)]

lemma modWide_eq (a b : BitVec 128) : modWide signed a b = BitVec.ofInt 128 ((numOf signed a).tmod (numOf signed b)) := by
  unfold modWide numOf
  cases signed with
  | true =>
    simp only [if_true]
    rw [← BitVec.toInt_srem, BitVec.ofInt_toInt]
  | false =>
    simp only [Bool.false_eq_true, if_false]
    rw [← Int.ofNat_tmod, BitVec.ofInt_natCast]
    apply BitVec.eq_of_toNat_eq
    rw [BitVec.toNat_umod, BitVec.toNat_ofNat, Nat.mod_eq_of_lt (lt_of_le_of_lt (Nat.mod_le _ _) a.isLt)]

end Wide

/-! ### The interpreter's dividend -/

section Dividend

variable {sz : Nat} (hsz : Sized sz) (signed : Bool) (hi lo : BitVec 64)

def wideDividend (signed : Bool) (hi lo : BitVec 64) (sz : Nat) : BitVec 128 :=
  ((if signed then (sext hi sz).signExtend 128 else (truncSz hi sz).setWidth 128) <<< (sz * 8)) |||
    (truncSz lo sz).setWidth 128

lemma ofInt_twoPow {n k : Nat} : BitVec.ofInt n (2 ^ k) = BitVec.twoPow n k := by
  apply BitVec.eq_of_toNat_eq
  have hcast : ((2 : ℤ) ^ k) = ((2 ^ k : ℕ) : ℤ) := by norm_cast
  rw [hcast, BitVec.ofInt_natCast, BitVec.toNat_ofNat, BitVec.toNat_twoPow]

include hsz

lemma dividend_wordRange (x y : BitVec (szBits sz)) : WordRange signed 128 (dividendOf signed x y) := by
  have hx := numOf_wordRange signed x
  have hy := y.isLt
  unfold dividendOf
  unfold WordRange at hx ⊢
  generalize numOf signed x = X, y.toNat = Y at hx hy ⊢
  rcases hsz with rfl | rfl | rfl | rfl <;> simp only [szBits] at hx hy ⊢ <;> norm_num at hx hy ⊢ <;>
    cases signed <;> simp only [if_true, if_false, Bool.false_eq_true] at hx ⊢ <;> omega

lemma divisor_wordRange (x : BitVec (szBits sz)) : WordRange signed 128 (numOf signed x) := by
  have hx := numOf_wordRange signed x
  unfold WordRange at hx ⊢
  generalize numOf signed x = X at hx ⊢
  rcases hsz with rfl | rfl | rfl | rfl <;> simp only [szBits] at hx <;> norm_num at hx ⊢ <;>
    cases signed <;> simp only [if_true, if_false, Bool.false_eq_true] at hx ⊢ <;> omega

lemma wideDividend_eq : wideDividend signed hi lo sz =
    BitVec.ofInt 128 (dividendOf signed (lowPart sz hi) (lowPart sz lo)) := by
  obtain ⟨-, -, hw⟩ := szBits_pos hsz
  have h64 := szBits_le sz
  have hlow : (truncSz lo sz).setWidth 128 = BitVec.ofInt 128 (lowPart sz lo).toNat := by
    rw [truncSz_lowPart, BitVec.ofInt_natCast]
    apply BitVec.eq_of_toNat_eq
    rw [BitVec.toNat_setWidth, BitVec.toNat_setWidth_of_le h64, BitVec.toNat_ofNat]
  have hdisjoint (x : BitVec 128) : x <<< szBits sz &&& (truncSz lo sz).setWidth 128 = 0#128 := by
    apply BitVec.eq_of_getLsbD_eq
    intro i hi
    rw [BitVec.getLsbD_and, BitVec.getLsbD_shiftLeft, BitVec.getLsbD_setWidth, getLsbD_trunc, getLsbD_lowPart]
    by_cases h : i < szBits sz
    · simp [h]
    · simp [h]
  unfold wideDividend dividendOf
  rw [wide_eq hsz, hw, ← BitVec.add_eq_or_of_and_eq_zero _ _ (hdisjoint _), BitVec.ofInt_add,
    BitVec.ofInt_mul, ofInt_twoPow,
    ← BitVec.shiftLeft_eq_mul_twoPow, hlow]

end Dividend

/-! ### The instruction -/

/-- The registers that the interpreter leaves a quotient in, whatever the width. -/
def setQuotientRegs (r : Fin 16 → BitVec 64) (sz : Nat) (q rem : ℤ) : Fin 16 → BitVec 64 :=
  Function.update (Function.update r rax (mergeSz (r rax) (BitVec.ofInt 64 q) sz)) rdx
    (mergeSz (r rdx) (BitVec.ofInt 64 rem) sz)

/-- The manual's: of bytes al has the quotient and ah the remainder. -/
def quotientRegs (r : Fin 16 → BitVec 64) (sz : Nat) (q rem : ℤ) : Fin 16 → BitVec 64 :=
  if sz = 1 then
    Function.update r rax (mergeSz (r rax) ((BitVec.ofInt 8 rem ++ BitVec.ofInt 8 q).setWidth 64) 2)
  else setQuotientRegs r sz q rem

/-- The manual's dividend: of bytes ax, else rdx and rax. -/
def dividendIn (signed : Bool) (r : Fin 16 → BitVec 64) (sz : Nat) : ℤ :=
  if sz = 1 then dividendOf signed ((r rax).extractLsb' 8 8) (lowPart 1 (r rax))
  else dividendOf signed (lowPart sz (r rdx)) (lowPart sz (r rax))

/-- Quotient and remainder in their registers, or a fault and the registers as they were. -/
def Divides (signed : Bool) (sz : Nat) (n d : ℤ) (r : Fin 16 → BitVec 64) (c' : Cpu) : Prop :=
  (∃ q rem, Division n d q rem ∧ quotientFits signed (szBits sz) q = true ∧ c'.fault = none ∧
    c'.r = quotientRegs r sz q rem) ∨
  ((d = 0 ∨ ∀ q rem, Division n d q rem → quotientFits signed (szBits sz) q = false) ∧
    c'.fault ≠ none ∧ c'.running = false ∧ c'.r = r)

section Exec

variable {sz : Nat} (hsz : Sized sz) (signed : Bool) (a imm : BitVec 64) (rm : Opnd) (d : Dec) (c : Cpu)

lemma setQuotient_eval (p q : ℤ) : (setQuotient (BitVec.ofInt 128 p) (BitVec.ofInt 128 q) sz c).2 =
    { c with r := setQuotientRegs c.r sz p q } := by
  have h (z : ℤ) : (BitVec.ofInt 128 z).setWidth 64 = BitVec.ofInt 64 z := setWidth_ofInt (by decide) z
  unfold setQuotient
  rw [h, h]
  rfl

lemma div_zero_exec (h0 : a = 0) :
    (grp3Exec (if signed then 7 else 6) a imm sz rm d c).2 = (raise .divideByZero d.rip0 c).2 := by
  subst h0
  cases signed <;> rfl

include hsz

lemma div_exec (h0 : a ≠ 0) :
    let n := dividendOf signed (lowPart sz (c.r rdx)) (lowPart sz (c.r rax))
    let y := numOf signed (lowPart sz a)
    (grp3Exec (if signed then 7 else 6) a imm sz rm d c).2 =
      { c with r := setQuotientRegs c.r sz (n.tdiv y) (n.tmod y) } := by
  intro n y
  have hnum : numOf signed (wideDividend signed (c.r rdx) (c.r rax) sz) = n := by
    rw [wideDividend_eq hsz, numOf_ofInt signed (by decide) (dividend_wordRange hsz signed _ _)]
  have hden : numOf signed (if signed then (sext a sz).signExtend 128 else (truncSz a sz).setWidth 128) = y := by
    rw [wide_eq hsz, numOf_ofInt signed (by decide) (divisor_wordRange hsz signed _)]
  have hexec : grp3Exec (if signed then 7 else 6) a imm sz rm d = (if a = 0 then raise .divideByZero d.rip0 else (do
      let hi ← rdR rdx
      let lo ← rdR rax
      let den := if signed then (sext a sz).signExtend 128 else (truncSz a sz).setWidth 128
      setQuotient (divWide signed (wideDividend signed hi lo sz) den)
        (modWide signed (wideDividend signed hi lo sz) den) sz) : M Unit) := by
    cases signed <;> rfl
  rw [← setQuotient_eval, ← hnum, ← hden, ← divWide_eq, ← modWide_eq, hexec, if_neg h0]
  rfl

end Exec

/-! ### Bytes -/

section Bytes

variable (r : Fin 16 → BitVec 64) (q q' m m' : ℤ)

lemma byte_merge_iff (old : BitVec 64) : mergeSz old (BitVec.ofInt 64 q') 1 =
      mergeSz old ((BitVec.ofInt 8 m ++ BitVec.ofInt 8 q).setWidth 64) 2 ↔
    BitVec.ofInt 8 q' = BitVec.ofInt 8 q ∧ old.extractLsb' 8 8 = BitVec.ofInt 8 m := by
  have hleft (i : Nat) : (mergeSz old (BitVec.ofInt 64 q') 1).getLsbD i =
      if i < 8 then (BitVec.ofInt 8 q').getLsbD i else old.getLsbD i := by
    rw [getLsbD_mergeSz (.inl rfl)]
    by_cases h : i < 8
    · rw [if_pos h, if_pos (show i < szBits 1 from h), getLsbD_ofInt (m := 64) (n := 8) (by omega) h]
    · rw [if_neg h, if_neg (show ¬ i < szBits 1 from h)]
  have hright (i : Nat) : (mergeSz old ((BitVec.ofInt 8 m ++ BitVec.ofInt 8 q).setWidth 64) 2).getLsbD i =
      if i < 8 then (BitVec.ofInt 8 q).getLsbD i else if i < 16 then (BitVec.ofInt 8 m).getLsbD (i - 8)
      else old.getLsbD i := by
    rw [getLsbD_mergeSz (.inr rfl), BitVec.getLsbD_setWidth, BitVec.getLsbD_append]
    by_cases h : i < 8
    · rw [if_pos h, if_pos h, if_pos (show i < szBits 2 by simp only [szBits]; omega),
        decide_eq_true (show i < 64 by omega), Bool.true_and]
    · rw [if_neg h, if_neg h]
      by_cases h16 : i < 16
      · rw [if_pos h16, if_pos (show i < szBits 2 from h16), decide_eq_true (show i < 64 by omega), Bool.true_and]
      · rw [if_neg h16, if_neg (show ¬ i < szBits 2 from h16)]
  constructor
  · intro h
    refine ⟨BitVec.eq_of_getLsbD_eq fun i hi => ?_, BitVec.eq_of_getLsbD_eq fun i hi => ?_⟩
    · have hbit := congrArg (fun v => v.getLsbD i) h
      simpa only [hleft, hright, hi, if_true] using hbit
    · have hbit := congrArg (fun v => v.getLsbD (8 + i)) h
      simp only [hleft, hright, show ¬ 8 + i < 8 by omega, show 8 + i < 16 by omega, if_false, if_true,
        Nat.add_sub_cancel_left] at hbit
      rw [BitVec.getLsbD_extractLsb', decide_eq_true hi, Bool.true_and, hbit]
  · rintro ⟨hq, hm⟩
    apply BitVec.eq_of_getLsbD_eq
    intro i hi
    rw [hleft, hright, hq]
    by_cases h8 : i < 8
    · rw [if_pos h8, if_pos h8]
    · rw [if_neg h8, if_neg h8]
      by_cases h16 : i < 16
      · rw [if_pos h16, ← hm, BitVec.getLsbD_extractLsb', decide_eq_true (show i - 8 < 8 by omega), Bool.true_and,
          show 8 + (i - 8) = i by omega]
      · rw [if_neg h16]

/-- A write of the byte that is there. -/
lemma mergeSz_self_iff (old : BitVec 64) : mergeSz old (BitVec.ofInt 64 m) 1 = old ↔ lowPart 1 old = BitVec.ofInt 8 m := by
  have hlow : lowPart 1 (BitVec.ofInt 64 m) = BitVec.ofInt 8 m := setWidth_ofInt (by decide) m
  constructor
  · intro h
    rw [← hlow, ← lowPart_mergeSz (BitVec.ofInt 64 m) (.inl rfl) old, h]
  · intro h
    rw [mergeSz_congr old (hlow.trans h.symm : lowPart 1 (BitVec.ofInt 64 m) = lowPart 1 old)]
    apply BitVec.eq_of_getLsbD_eq
    intro i hi
    rw [getLsbD_mergeSz (.inl rfl)]
    split <;> rfl

/-- The interpreter's registers are the manual's for bytes, if the remainder was in ah before and
dl keeps its value. -/
lemma byteRegs_iff : setQuotientRegs r 1 q' m' = quotientRegs r 1 q m ↔
    (BitVec.ofInt 8 q' = BitVec.ofInt 8 q ∧ (r rax).extractLsb' 8 8 = BitVec.ofInt 8 m) ∧
      lowPart 1 (r rdx) = BitVec.ofInt 8 m' := by
  rw [← byte_merge_iff, ← mergeSz_self_iff]
  have hne : rax ≠ rdx := by decide
  unfold setQuotientRegs quotientRegs
  rw [if_pos rfl]
  constructor
  · intro h
    have hax := congrFun h rax
    have hdx := congrFun h rdx
    rw [Function.update_of_ne hne, Function.update_self, Function.update_self] at hax
    rw [Function.update_self, Function.update_of_ne hne.symm] at hdx
    exact ⟨hax, hdx⟩
  · rintro ⟨hax, hdx⟩
    rw [hax, hdx]
    funext i
    by_cases hi : i = rdx
    · subst hi
      rw [Function.update_self, Function.update_of_ne hne.symm]
    · rw [Function.update_of_ne hi]

lemma remainder_wordRange (signed : Bool) (x al y : BitVec 8) (hy : numOf signed y ≠ 0) :
    WordRange signed 8 ((dividendOf signed x al).tmod (numOf signed y)) := by
  have hdiv := tdiv_division (n := dividendOf signed x al) hy
  have hlt := hdiv.lt
  have hsign := hdiv.sign
  have hyr := numOf_wordRange signed y
  have hxr := numOf_wordRange signed x
  have hn : dividendOf signed x al = numOf signed x * 2 ^ 8 + al.toNat := rfl
  unfold WordRange at hyr hxr ⊢
  generalize (dividendOf signed x al).tmod (numOf signed y) = rem at hlt hsign ⊢
  norm_num at hyr hxr hn ⊢
  cases signed <;> simp only [if_true, if_false, Bool.false_eq_true] at hyr hxr ⊢ <;> omega

/-- When the interpreter's division of bytes, of dl and al, is the manual's, of ah and al. -/
lemma byte_condition (signed : Bool) (ah dl al y : BitVec 8) (hy : numOf signed y ≠ 0) :
    let n := dividendOf signed ah al
    let n' := dividendOf signed dl al
    let d := numOf signed y
    (BitVec.ofInt 8 (n'.tdiv d) = BitVec.ofInt 8 (n.tdiv d) ∧ ah = BitVec.ofInt 8 (n.tmod d)) ∧
        dl = BitVec.ofInt 8 (n'.tmod d) ↔
      ah = dl ∧ (numOf signed ah).natAbs < d.natAbs ∧ d ∣ 255 * numOf signed ah + al.toNat := by
  intro n n' d
  have hn : n = numOf signed ah * 2 ^ 8 + al.toNat := rfl
  have hn' : n' = numOf signed dl * 2 ^ 8 + al.toNat := rfl
  have hal := al.isLt
  have hdiv := tdiv_division (n := n) hy
  have hdiv' := tdiv_division (n := n') hy
  norm_num at hn hn'
  constructor
  · rintro ⟨⟨hq, hah⟩, hdl⟩
    have hnum : numOf signed ah = n.tmod d := by
      rw [hah, numOf_ofInt signed (by decide) (remainder_wordRange signed ah al y hy)]
    have hnum' : numOf signed dl = n'.tmod d := by
      rw [hdl, numOf_ofInt signed (by decide) (remainder_wordRange signed dl al y hy)]
    have heq := hdiv.eq
    have heq' := hdiv'.eq
    have hlt := hdiv.lt
    rw [← hnum] at heq hlt
    rw [← hnum'] at heq'
    have hmod : n'.tdiv d % 256 = n.tdiv d % 256 := by
      have h := congrArg BitVec.toNat hq
      rw [BitVec.toNat_ofInt, BitVec.toNat_ofInt] at h
      omega
    obtain ⟨t, ht⟩ : ∃ t, n'.tdiv d = n.tdiv d + 256 * t := ⟨(n'.tdiv d - n.tdiv d) / 256, by omega⟩
    have hsame : numOf signed dl = numOf signed ah := by
      have hr := numOf_wordRange signed ah
      have hr' := numOf_wordRange signed dl
      have hmul : 255 * (numOf signed dl - numOf signed ah) = 256 * (t * d) := by
        rw [ht] at heq'
        linarith
      unfold WordRange at hr hr'
      norm_num at hr hr'
      cases signed <;> simp only [if_true, if_false, Bool.false_eq_true] at hr hr' <;> omega
    refine ⟨?_, hlt, n.tdiv d, by linarith⟩
    rw [← ofInt_numOf signed ah, ← ofInt_numOf signed dl, hsame]
  · rintro ⟨rfl, hlt, t, ht⟩
    have hunique : Division n d t (numOf signed ah) := by
      refine ⟨by linarith, hlt, ?_⟩
      omega
    have hah : ah = BitVec.ofInt 8 (n.tmod d) := by rw [← (division_unique hunique).2, ofInt_numOf]
    exact ⟨⟨rfl, hah⟩, hah⟩

end Bytes

/-! ### When the instruction is the manual's -/

/-- A quotient that fits and, of bytes, a remainder that ah and dl already hold. -/
def Divisible (signed : Bool) (sz : Nat) (r : Fin 16 → BitVec 64) (d : ℤ) : Prop :=
  d = 0 ∨ quotientFits signed (szBits sz) ((dividendIn signed r sz).tdiv d) = true ∧
    (sz = 1 → (r rax).extractLsb' 8 8 = lowPart 1 (r rdx) ∧
      (numOf signed ((r rax).extractLsb' 8 8)).natAbs < d.natAbs ∧
      d ∣ 255 * numOf signed ((r rax).extractLsb' 8 8) + (lowPart 1 (r rax)).toNat)

section Work

variable {sz : Nat} (hsz : Sized sz) (signed : Bool) (a imm : BitVec 64) (rm : Opnd) (dec : Dec) (c : Cpu)

lemma divides_iff {n d : ℤ} (hd : d ≠ 0) {c' : Cpu} (hf : c'.fault = none) : Divides signed sz n d c.r c' ↔
    quotientFits signed (szBits sz) (n.tdiv d) = true ∧ c'.r = quotientRegs c.r sz (n.tdiv d) (n.tmod d) := by
  constructor
  · rintro (⟨q, rem, hdiv, hfits, -, hr⟩ | ⟨-, hfault, -⟩)
    · obtain ⟨rfl, rfl⟩ := division_unique hdiv
      exact ⟨hfits, hr⟩
    · exact absurd hf hfault
  · rintro ⟨hfits, hr⟩
    exact .inl ⟨_, _, tdiv_division hd, hfits, hf, hr⟩

lemma numOf_eq_zero {w : Nat} (x : BitVec w) : numOf signed x = 0 ↔ x = 0#w := by
  constructor
  · intro h
    rw [← ofInt_numOf signed x, h]
    rfl
  · rintro rfl
    unfold numOf
    cases signed <;> simp

include hsz

lemma div_divides (hc : c.fault = none) (ha : truncSz a sz = a) :
    Divides signed sz (dividendIn signed c.r sz) (numOf signed (lowPart sz a)) c.r
        (grp3Exec (if signed then 7 else 6) a imm sz rm dec c).2 ↔
      Divisible signed sz c.r (numOf signed (lowPart sz a)) := by
  by_cases h0 : a = 0
  · rw [div_zero_exec signed a imm rm dec c h0]
    have hzero : numOf signed (lowPart sz a) = 0 := by
      rw [numOf_eq_zero, h0]
      exact BitVec.setWidth_zero ..
    exact iff_of_true (.inr ⟨.inl hzero, Option.some_ne_none _, rfl, rfl⟩) (.inl hzero)
  · have hy : numOf signed (lowPart sz a) ≠ 0 := by
      rw [Ne, numOf_eq_zero]
      intro hl
      rw [← ha, truncSz_lowPart, hl] at h0
      exact h0 (BitVec.setWidth_zero ..)
    rw [div_exec hsz signed a imm rm dec c h0, divides_iff signed c hy (by exact hc), Divisible, or_iff_right hy]
    refine and_congr_right fun _ => ?_
    by_cases h1 : sz = 1
    · subst h1
      rw [forall_prop_of_true rfl, byteRegs_iff]
      exact byte_condition signed ((c.r rax).extractLsb' 8 8) (lowPart 1 (c.r rdx)) (lowPart 1 (c.r rax)) (lowPart 1 a) hy
    · refine iff_of_true ?_ fun h => absurd h h1
      simp only [quotientRegs, dividendIn, if_neg h1]

end Work

/-- `div` and `idiv` do what the manual says exactly if the divisor is zero or the quotient fits
and, of bytes, ah and dl are alike and stay so. -/
theorem divisions (fp : Fp) (rt : Runtime) (k : Kernel) (c : Cpu) (hcb : c.rip ≠ callbackMagic)
    (hret : c.rip ≠ returnMagic) (hstub : rsdStubIndex c.stubs c.rip = none)
    (hx : rsdAsOk c.as c.rip 1 rsdProtX = true) (hc : c.fault = none) (signed : Bool)
    (hlock : (0xF0 : BitVec 8) ∉ (encodingAt (codeOf c c.rip)).prefixes)
    (hesc : (encodingAt (codeOf c c.rip)).escaped = false)
    (hop : (encodingAt (codeOf c c.rip)).op = 0xF6 ∨ (encodingAt (codeOf c c.rip)).op = 0xF7)
    (hext : (encodingAt (codeOf c c.rip)).ext (codeOf c c.rip) = if signed then 7 else 6)
    (hrd : opndOk (rmOperand c) c.as
      (if (encodingAt (codeOf c c.rip)).op = 0xF6 then 1 else (encodingAt (codeOf c c.rip)).opsize) rsdProtR = true) :
    let e := encodingAt (codeOf c c.rip)
    let sz := if e.op = 0xF6 then 1 else e.opsize
    let d := numOf signed (lowPart sz (opndVal (rmOperand c) sz (e.rex != 0) c))
    Divides signed sz (dividendIn signed c.r sz) d c.r (step fp rt k c).2 ↔ Divisible signed sz c.r d := by
  intro e sz d
  have hsz : Sized sz := by
    by_cases h : e.op = 0xF6
    · exact .inl (if_pos h)
    · have heq : sz = e.opsize := if_neg h
      exact .inr (heq ▸ opsize_cases e)
  obtain ⟨imm, dec, hstep⟩ := @step_grp3 fp rt k c hcb hret hstub hx hesc hop hlock
  rw [hstep, Prog.bind_eval (rd_allowed (rmOperand c) sz (e.rex != 0) (begun c (insnEnd c)) hrd), hext]
  exact div_divides hsz signed _ imm (rmOperand c) dec (begun c (insnEnd c)) hc (opndVal_trunc _ _ _ c hsz)

/-- `div ebx` or `div bl` of what is in edx and eax. -/
def divisionCpu (op : BitVec 8) (edx eax ebx : BitVec 64) : Cpu :=
  { codeCpu [op, 0xF3] with r := fun i => if i = rax then eax else if i = rdx then edx else if i = 3 then ebx else 0 }

/-- 2³² by 1 is 0 and no fault, and 100 by 7 in bytes is divided in dl and al and leaves ah. -/
theorem quotient_overflow_unnoticed :
    let c1 := (step sampleFp sampleRuntime sampleKernel (divisionCpu 0xF7 1 0 1)).2
    let c2 := (step sampleFp sampleRuntime sampleKernel (divisionCpu 0xF6 0 100 7)).2
    (c1.fault = none ∧ c1.r rax = 0 ∧ ¬ Divides false 4 (2 ^ 32) 1 (divisionCpu 0xF7 1 0 1).r c1) ∧
    (c2.fault = none ∧ c2.r rax = 14 ∧ c2.r rdx = 2 ∧ ¬ Divides false 1 100 7 (divisionCpu 0xF6 0 100 7).r c2) := by
  refine ⟨⟨by decide, by decide, fun h => ?_⟩,
    ⟨by decide, by decide, by decide, fun h => ?_⟩⟩
  · have hfits := ((divides_iff false (divisionCpu 0xF7 1 0 1) (by decide) (by decide)).mp h).1
    revert hfits
    decide
  · have hax := congrFun ((divides_iff false (divisionCpu 0xF6 0 100 7) (by decide) (by decide)).mp h).2 rax
    revert hax
    decide

/-- 100 by 7 in 32 bits. -/
theorem divisions_dword : Divides false 4 100 7 (divisionCpu 0xF7 0 100 7).r
    (step sampleFp sampleRuntime sampleKernel (divisionCpu 0xF7 0 100 7)).2 :=
  (divisions sampleFp sampleRuntime sampleKernel (divisionCpu 0xF7 0 100 7) (by decide) (by decide) (by decide)
    (by decide) (by decide) false (by decide) (by decide) (by decide) (by decide)
    (by decide)).mpr (.inr ⟨by decide, fun h => absurd h (by decide)⟩)

end Rashid.Proofs
