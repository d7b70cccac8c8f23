import Rashid.Jit

/-!
# The status flags

The six flags as booleans, and the interpreter's flag routines as updates of some of them:
each routine keeps the flags it does not write and does not look at the rest.
-/

namespace Rashid.Proofs

/-- The status flags of an operation. -/
structure Status where
  cf : Bool
  zf : Bool
  sf : Bool
  of : Bool
  pf : Bool
  af : Bool

def Status.word (x : Status) : BitVec 32 :=
  flagIf x.cf fCF ||| flagIf x.zf fZF ||| flagIf x.sf fSF ||| flagIf x.of fOF ||| flagIf x.pf fPF ||| flagIf x.af fAF

lemma getLsbD_flagIf (b : Bool) (f : BitVec 32) (i : Nat) : (flagIf b f).getLsbD i = (b && f.getLsbD i) := by
  cases b <;> simp [flagIf]

/-- The positions of the six. -/
lemma flAll_bit {i : Nat} (h : flAll.getLsbD i = true) : i = 0 ∨ i = 2 ∨ i = 4 ∨ i = 6 ∨ i = 7 ∨ i = 11 := by
  have hall : ∀ i < 32, flAll.getLsbD i = true → i = 0 ∨ i = 2 ∨ i = 4 ∨ i = 6 ∨ i = 7 ∨ i = 11 := by decide
  exact hall i (BitVec.lt_of_getLsbD h) h

/-- A flag that is wanted is one of those written. -/
lemma written_of_need {need w : BitVec 32} (h : need &&& ~~~w = 0) {i : Nat} (hb : need.getLsbD i = true) :
    w.getLsbD i = true := by
  have hi : i < 32 := BitVec.lt_of_getLsbD hb
  have hz := congrArg (fun z => z.getLsbD i) h
  simpa [hb, hi] using hz

lemma need_mono {need w w' : BitVec 32} (h : need &&& ~~~w = 0) (hw : w &&& ~~~w' = 0) : need &&& ~~~w' = 0 := by
  apply BitVec.eq_of_getLsbD_eq
  intro i hi
  cases hb : need.getLsbD i with
  | false => simp [hb]
  | true =>
    have hw' := written_of_need hw (written_of_need h hb)
    simp [hw', hi]

/-- Two words that agree at the flags wanted. -/
lemma and_need_ext {need g h : BitVec 32} (hneed : need &&& ~~~flAll = 0)
    (hgh : ∀ i, i = 0 ∨ i = 2 ∨ i = 4 ∨ i = 6 ∨ i = 7 ∨ i = 11 → need.getLsbD i = true → g.getLsbD i = h.getLsbD i) :
    g &&& need = h &&& need := by
  apply BitVec.eq_of_getLsbD_eq
  intro i hi
  rw [BitVec.getLsbD_and, BitVec.getLsbD_and]
  cases hb : need.getLsbD i with
  | false => rw [Bool.and_false, Bool.and_false]
  | true =>
    rw [hgh i (flAll_bit (written_of_need hneed hb)) hb]

lemma getLsbD_twoPow_flag {i : Nat} (hi : i < 32) (k : Nat) (f : BitVec 32) (hf : f = BitVec.twoPow 32 k) :
    f.getLsbD i = decide (i = k) := by
  rw [hf, BitVec.getLsbD_twoPow, ← Bool.decide_and]
  exact decide_eq_decide.mpr (by omega)

/-! ### The interpreter's routines -/

section Routines

variable (f need : BitVec 32) (a b r : BitVec 64) (size : Nat)

/-- ZF, SF and PF of a result. -/
def zeroOf : Bool := truncSz r size == 0
def signOf : Bool := truncSz r size >>> (size * 8 - 1) != 0
def parityOf : Bool := popcount ((truncSz r size &&& 0xff).setWidth 32) % 2 == 0

/-- Where each of the six is, as a test of the position. -/
lemma flag_bits {i : Nat} (hi : i < 32) :
    fCF.getLsbD i = decide (i = 0) ∧ fPF.getLsbD i = decide (i = 2) ∧ fAF.getLsbD i = decide (i = 4) ∧
      fZF.getLsbD i = decide (i = 6) ∧ fSF.getLsbD i = decide (i = 7) ∧ fOF.getLsbD i = decide (i = 11) :=
  ⟨getLsbD_twoPow_flag hi 0 fCF rfl, getLsbD_twoPow_flag hi 2 fPF rfl, getLsbD_twoPow_flag hi 4 fAF rfl,
    getLsbD_twoPow_flag hi 6 fZF rfl, getLsbD_twoPow_flag hi 7 fSF rfl, getLsbD_twoPow_flag hi 11 fOF rfl⟩

lemma position_cases (i : Nat) : i = 0 ∨ i = 2 ∨ i = 4 ∨ i = 6 ∨ i = 7 ∨ i = 11 ∨
    (i ≠ 0 ∧ i ≠ 2 ∧ i ≠ 4 ∧ i ≠ 6 ∧ i ≠ 7 ∧ i ≠ 11) := by
  omega

lemma flagsArith_eq (cf of : Bool) : flagsArith f cf of a b r size = (f &&& ~~~flAll) |||
    Status.word ⟨cf, zeroOf r size, signOf r size, of, parityOf r size, (a ^^^ b ^^^ r) &&& 0x10 != 0⟩ := by
  apply BitVec.eq_of_getLsbD_eq
  intro i hi
  obtain ⟨hC, hP, hA, hZ, hS, hO⟩ := flag_bits hi
  simp only [flagsArith, setPzs, Status.word, flAll, BitVec.getLsbD_or, BitVec.getLsbD_and, BitVec.getLsbD_not,
    getLsbD_flagIf, hC, hP, hA, hZ, hS, hO, zeroOf, signOf, parityOf, hi]
  rcases position_cases i with rfl | rfl | rfl | rfl | rfl | rfl | ⟨h0, h2, h4, h6, h7, h11⟩ <;> simp [*]

/-- What `and`, `or`, `xor`, `test`, `imul` and shifts do: AF is kept. -/
lemma logic_eq (cf of : Bool) : setPzs ((f &&& ~~~(fCF ||| fOF)) ||| flagIf cf fCF ||| flagIf of fOF) r size =
    (f &&& ~~~flLogic) ||| Status.word ⟨cf, zeroOf r size, signOf r size, of, parityOf r size, false⟩ := by
  apply BitVec.eq_of_getLsbD_eq
  intro i hi
  obtain ⟨hC, hP, hA, hZ, hS, hO⟩ := flag_bits hi
  simp only [setPzs, Status.word, flLogic, flAll, BitVec.getLsbD_or, BitVec.getLsbD_and, BitVec.getLsbD_not,
    getLsbD_flagIf, hC, hP, hA, hZ, hS, hO, zeroOf, signOf, parityOf, hi]
  rcases position_cases i with rfl | rfl | rfl | rfl | rfl | rfl | ⟨h0, h2, h4, h6, h7, h11⟩ <;> simp [*]

/-- The carry and the overflow of a shift do not depend on the flags. -/
lemma rsdIShift_eq (cnt : BitVec 64) (ext : BitVec 8) : ∃ (res : BitVec 64) (cf of : Bool), ∀ f,
    rsdIShift f a cnt size ext = (res, (f &&& ~~~flLogic) |||
      Status.word ⟨cf, zeroOf res size, signOf res size, of, parityOf res size, false⟩) := by
  simp only [← logic_eq, rsdIShift]
  by_cases hl : ext = 4 ∨ ext = 6
  · simp only [hl, if_true]
    exact ⟨_, _, _, fun _ => rfl⟩
  · by_cases hr : ext = 5
    · simp only [hr, if_true]
      exact ⟨_, _, _, fun _ => rfl⟩
    · simp only [hl, hr, if_false]
      exact ⟨_, _, _, fun _ => rfl⟩

/-- `inc` and `dec` keep CF. -/
lemma keepCarry_eq (x : Status) : (((f &&& ~~~flAll) ||| x.word) &&& ~~~fCF) ||| (f &&& fCF) =
    (f &&& ~~~flInc) ||| Status.word { x with cf := false } := by
  apply BitVec.eq_of_getLsbD_eq
  intro i hi
  obtain ⟨hC, hP, hA, hZ, hS, hO⟩ := flag_bits hi
  simp only [Status.word, flInc, flAll, BitVec.getLsbD_or, BitVec.getLsbD_and, BitVec.getLsbD_not,
    getLsbD_flagIf, hC, hP, hA, hZ, hS, hO, hi]
  rcases position_cases i with rfl | rfl | rfl | rfl | rfl | rfl | ⟨h0, h2, h4, h6, h7, h11⟩ <;> simp [*]

/-- A status word has no bit outside the flags written. -/
lemma word_and_not {w : BitVec 32} (x : Status) (hcf : x.cf = true → w.getLsbD 0 = true)
    (hpf : x.pf = true → w.getLsbD 2 = true) (haf : x.af = true → w.getLsbD 4 = true)
    (hzf : x.zf = true → w.getLsbD 6 = true) (hsf : x.sf = true → w.getLsbD 7 = true)
    (hof : x.of = true → w.getLsbD 11 = true) : x.word &&& ~~~w = 0 := by
  apply BitVec.eq_of_getLsbD_eq
  intro i hi
  obtain ⟨hC, hP, hA, hZ, hS, hO⟩ := flag_bits hi
  simp only [Status.word, BitVec.getLsbD_or, BitVec.getLsbD_and, BitVec.getLsbD_not, getLsbD_flagIf, hC, hP, hA, hZ,
    hS, hO, hi]
  rcases position_cases i with rfl | rfl | rfl | rfl | rfl | rfl | ⟨h0, h2, h4, h6, h7, h11⟩
  · cases h : x.cf <;> simp_all
  · cases h : x.pf <;> simp_all
  · cases h : x.af <;> simp_all
  · cases h : x.zf <;> simp_all
  · cases h : x.sf <;> simp_all
  · cases h : x.of <;> simp_all
  · simp [*]

/-- The bits of a word that the status flags have been put into, AF apart. -/
lemma word_bits {m : BitVec 32} (hm : flLogic &&& ~~~m = 0) (x : Status) :
    let g := (f &&& ~~~m) ||| x.word
    g.getLsbD 0 = x.cf ∧ g.getLsbD 2 = x.pf ∧ g.getLsbD 6 = x.zf ∧ g.getLsbD 7 = x.sf ∧ g.getLsbD 11 = x.of := by
  have hbit (i : Nat) (hi : flLogic.getLsbD i = true) : ((f &&& ~~~m) ||| x.word).getLsbD i = x.word.getLsbD i := by
    rw [BitVec.getLsbD_or, BitVec.getLsbD_and, BitVec.getLsbD_not, written_of_need hm hi, Bool.not_true, Bool.and_false,
      Bool.and_false, Bool.false_or]
  have hword (i : Nat) (hi : i < 32) : x.word.getLsbD i = ((x.cf && decide (i = 0)) || (x.zf && decide (i = 6)) ||
      (x.sf && decide (i = 7)) || (x.of && decide (i = 11)) || (x.pf && decide (i = 2)) || (x.af && decide (i = 4))) := by
    obtain ⟨hC, hP, hA, hZ, hS, hO⟩ := flag_bits hi
    simp only [Status.word, BitVec.getLsbD_or, getLsbD_flagIf, hC, hP, hA, hZ, hS, hO]
  simp only
  rw [hbit 0 (by decide), hbit 2 (by decide), hbit 6 (by decide), hbit 7 (by decide), hbit 11 (by decide),
    hword 0 (by decide), hword 2 (by decide), hword 6 (by decide), hword 7 (by decide), hword 11 (by decide)]
  simp

lemma word_not_all (x : Status) : x.word &&& ~~~flAll = 0 := by
  apply word_and_not <;> exact fun _ => by decide

lemma word_not_logic (x : Status) : Status.word { x with af := false } &&& ~~~flLogic = 0 := by
  apply word_and_not
  case haf => exact fun h => absurd h Bool.false_ne_true
  all_goals exact fun _ => by decide

lemma word_not_inc (x : Status) : Status.word { x with cf := false } &&& ~~~flInc = 0 := by
  apply word_and_not
  case hcf => exact fun h => absurd h Bool.false_ne_true
  all_goals exact fun _ => by decide

lemma flagsLogic_eq : flagsLogic f r size =
    (f &&& ~~~flLogic) ||| Status.word ⟨false, zeroOf r size, signOf r size, false, parityOf r size, false⟩ := by
  rw [← logic_eq]
  simp [flagsLogic, flagIf]

/-- Of a routine that overwrites `w`, the flags wanted are its own. -/
lemma overwritten_and {w v : BitVec 32} (hneed : need &&& ~~~w = 0) : ((f &&& ~~~w) ||| v) &&& need = v &&& need := by
  apply BitVec.eq_of_getLsbD_eq
  intro i hi
  cases hb : need.getLsbD i with
  | false => simp [hb]
  | true =>
    have hw := written_of_need hneed hb
    simp only [BitVec.getLsbD_and, BitVec.getLsbD_or, BitVec.getLsbD_not, hw, hb, Bool.not_true, Bool.and_false,
      Bool.false_or]

lemma flagsArith_need (cf of : Bool) (hneed : need &&& ~~~flAll = 0) :
    flagsArith f cf of a b r size &&& need =
      Status.word ⟨cf, zeroOf r size, signOf r size, of, parityOf r size, (a ^^^ b ^^^ r) &&& 0x10 != 0⟩ &&& need := by
  rw [flagsArith_eq, overwritten_and f need hneed]

lemma flagsLogic_need (af : Bool) (hneed : need &&& ~~~flLogic = 0) :
    flagsLogic f r size &&& need =
      Status.word ⟨false, zeroOf r size, signOf r size, false, parityOf r size, af⟩ &&& need := by
  have h4 : need.getLsbD 4 ≠ true := fun h => absurd (written_of_need hneed h) (by decide)
  rw [flagsLogic_eq, overwritten_and f need hneed]
  refine and_need_ext (need_mono hneed (by decide)) fun i hi hbit => ?_
  obtain ⟨hC, hP, hA, hZ, hS, hO⟩ := flag_bits (i := i) (by omega)
  simp only [Status.word, BitVec.getLsbD_or, getLsbD_flagIf, hC, hP, hA, hZ, hS, hO]
  rcases hi with rfl | rfl | rfl | rfl | rfl | rfl <;> simp_all

end Routines

end Rashid.Proofs
