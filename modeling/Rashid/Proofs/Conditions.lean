import Rashid.Proofs.CarryFlags
import Rashid.Proofs.Emission

/-!
# Conditions

A comparison leaves the flags from which each condition reads its relation, and compiled code
reads every condition out of the flags word as the interpreter does.
-/

namespace Rashid.Proofs

/-! ### Which flags a condition reads -/

lemma condEven_bits (f : BitVec 32) (pair : BitVec 8) : condEven f pair =
    match pair with
    | 0 => f.getLsbD 11
    | 1 => f.getLsbD 0
    | 2 => f.getLsbD 6
    | 3 => f.getLsbD 0 || f.getLsbD 6
    | 4 => f.getLsbD 7
    | 5 => f.getLsbD 2
    | 6 => f.getLsbD 7 != f.getLsbD 11
    | _ => f.getLsbD 6 || f.getLsbD 7 != f.getLsbD 11 := by
  have hC : (f &&& fCF != 0) = f.getLsbD 0 := and_twoPow_ne_zero f (by decide) rfl
  have hP : (f &&& fPF != 0) = f.getLsbD 2 := and_twoPow_ne_zero f (by decide) rfl
  have hZ : (f &&& fZF != 0) = f.getLsbD 6 := and_twoPow_ne_zero f (by decide) rfl
  have hS : (f &&& fSF != 0) = f.getLsbD 7 := and_twoPow_ne_zero f (by decide) rfl
  have hO : (f &&& fOF != 0) = f.getLsbD 11 := and_twoPow_ne_zero f (by decide) rfl
  rw [← hC, ← hP, ← hZ, ← hS, ← hO]
  rfl

/-! ### Comparisons -/

section Comparison

variable {n : Nat} (x y : BitVec n)

lemma borrowOut_iff : borrowOut x y false = decide (x.toNat < y.toNat) := rfl

lemma difference_zero : (differenceOf x y false == 0) = decide (x = y) := by
  have hsub := toNat_sub_borrow x y false
  have hx := x.isLt
  have hy := y.isLt
  unfold borrowOut at hsub
  rw [Bool.eq_iff_iff, beq_iff_eq, decide_eq_true_iff, ← BitVec.toNat_inj, ← BitVec.toNat_inj]
  have h0 : (0 : BitVec n).toNat = 0 := by simp
  rw [h0]
  simp only [Bool.toNat_false, Nat.add_zero] at hsub
  by_cases h : x.toNat < y.toNat
  · rw [decide_eq_true h, Bool.toNat_true] at hsub
    omega
  · rw [decide_eq_false h, Bool.toNat_false] at hsub
    omega

/-- The sign of a difference is wrong exactly if the difference does not fit. -/
lemma less_signed (hn : 0 < n) : ((differenceOf x y false).msb != signedOut n (x.toInt - y.toInt - false.toNat)) =
    decide (x.toInt < y.toInt) := by
  have hsub := toNat_sub_borrow x y false
  have hx := x.isLt
  have hy := y.isLt
  have hpow : 2 ^ n = 2 * 2 ^ (n - 1) := by rw [← Nat.pow_succ']; congr; omega
  rw [← underflow_eq x y false hn, BitVec.toInt_eq_msb_cond, BitVec.toInt_eq_msb_cond, BitVec.msb_eq_decide,
    BitVec.msb_eq_decide, BitVec.msb_eq_decide]
  unfold borrowOut at hsub
  generalize differenceOf x y false = r at hsub ⊢
  have hr := r.isLt
  rw [hpow] at hx hy hsub hr ⊢
  generalize 2 ^ (n - 1) = P at *
  simp only [Bool.toNat_false, Nat.add_zero] at hsub
  have hlt : decide ((if decide (P ≤ x.toNat) = true then (x.toNat : ℤ) - ((2 * P : ℕ) : ℤ) else x.toNat) <
      if decide (P ≤ y.toNat) = true then (y.toNat : ℤ) - ((2 * P : ℕ) : ℤ) else y.toNat) =
      if decide (P ≤ x.toNat) = decide (P ≤ y.toNat) then decide (x.toNat < y.toNat) else decide (P ≤ x.toNat) := by
    simp only [decide_eq_true_eq, decide_eq_decide]
    split_ifs <;> exact decide_eq_decide.mpr (by omega)
  -- of two operands with one sign the difference fits, so its sign is right
  have hsame : decide (P ≤ x.toNat) = decide (P ≤ y.toNat) → decide (P ≤ r.toNat) = decide (x.toNat < y.toNat) := by
    intro h
    rw [decide_eq_decide] at h ⊢
    by_cases hlt : x.toNat < y.toNat
    · rw [decide_eq_true hlt, Bool.toNat_true] at hsub
      omega
    · rw [decide_eq_false hlt, Bool.toNat_false] at hsub
      omega
  refine Eq.trans ?_ hlt.symm
  by_cases h : decide (P ≤ x.toNat) = decide (P ≤ y.toNat)
  · rw [if_pos h, ← hsame h, h]
    simp
  · rw [if_neg h]
    revert h
    cases decide (P ≤ x.toNat) <;> cases decide (P ≤ y.toNat) <;> cases decide (P ≤ r.toNat) <;> simp

end Comparison

/-- The even conditions after a comparison: below, equal, below or equal, less, less or equal. -/
lemma condEven_sub {size : Nat} (hsize : Sized size) (f : BitVec 32) (a b : BitVec 64) :
    condEven (flagsSub f a b (a - b) size) 1 = decide ((lowPart size a).toNat < (lowPart size b).toNat) ∧
    condEven (flagsSub f a b (a - b) size) 2 = decide (lowPart size a = lowPart size b) ∧
    condEven (flagsSub f a b (a - b) size) 3 = decide ((lowPart size a).toNat ≤ (lowPart size b).toNat) ∧
    condEven (flagsSub f a b (a - b) size) 6 = decide ((lowPart size a).toInt < (lowPart size b).toInt) ∧
    condEven (flagsSub f a b (a - b) size) 7 = decide ((lowPart size a).toInt ≤ (lowPart size b).toInt) := by
  obtain ⟨hpos, -, -⟩ := szBits_pos hsize
  have hbits := word_bits f (m := flAll) (by decide) (subStatus (lowPart size a) (lowPart size b) false)
  rw [← flagsSub_eq hsize] at hbits
  generalize flagsSub f a b (a - b) size = g at hbits ⊢
  have h1 : condEven g 1 = g.getLsbD 0 := condEven_bits g 1
  have h2 : condEven g 2 = g.getLsbD 6 := condEven_bits g 2
  have h3 : condEven g 3 = (g.getLsbD 0 || g.getLsbD 6) := condEven_bits g 3
  have h6 : condEven g 6 = (g.getLsbD 7 != g.getLsbD 11) := condEven_bits g 6
  have h7 : condEven g 7 = (g.getLsbD 6 || g.getLsbD 7 != g.getLsbD 11) := condEven_bits g 7
  obtain ⟨hcf, -, hzf, hsf, hof⟩ := hbits
  rw [h1, h2, h3, h6, h7, hcf, hzf, hsf, hof]
  simp only [subStatus, borrowOut_iff, difference_zero, less_signed _ _ hpos]
  refine ⟨trivial, trivial, ?_, trivial, ?_⟩
  · rw [← Bool.decide_or, decide_eq_decide, ← BitVec.toNat_inj]
    omega
  · rw [← Bool.decide_or, decide_eq_decide, ← BitVec.toInt_inj]
    omega

/-! ### Compiled conditions -/

/-- What the code of a condition may change: x0, x9, x10 and NZCV. -/
structure CondScratch (s s' : A64State) : Prop where
  x : ∀ r, r ≠ x0 → r ≠ x9 → r ≠ x10 → s'.x r = s.x r
  d : s'.d = s.d
  stack : s'.stack = s.stack
  calls : s'.calls = s.calls
  cpu : s'.cpu = s.cpu

namespace CondScratch

variable {s s' s'' : A64State}

lemma refl (s : A64State) : CondScratch s s := ⟨fun _ _ _ _ => rfl, rfl, rfl, rfl, rfl⟩

lemma trans (h : CondScratch s s') (h' : CondScratch s' s'') : CondScratch s s'' :=
  ⟨fun r h0 h9 h10 => (h'.x r h0 h9 h10).trans (h.x r h0 h9 h10), h'.d.trans h.d, h'.stack.trans h.stack,
    h'.calls.trans h.calls, h'.cpu.trans h.cpu⟩

lemma wx {r : A64Reg} (hr : r = x0 ∨ r = x9 ∨ r = x10) (v : BitVec 64) : CondScratch s (s.wx r v) := by
  refine ⟨fun t h0 h9 h10 => wx_x_of_ne ?_, wx_d, wx_stack, wx_calls, wx_cpu⟩
  rcases hr with rfl | rfl | rfl
  · exact h0
  · exact h9
  · exact h10

end CondScratch

/-- A fragment that leaves a truth value in x0 and keeps the flags word in x9. -/
def Tests (env : A64Env) (code : List A64) (s : A64State) (b : Bool) : Prop :=
  ∃ s', Runs env code s s' ∧ CondScratch s s' ∧ s'.x x9 = s.x x9 ∧ s'.x x0 = bitIf b 0

section Fragments

variable {env : A64Env} {s : A64State}

lemma bit_tests (k : Nat) : Tests env [.ubfx x0 x9 k 1] s ((s.x x9).getLsbD k) := by
  have hstep : A64.step env s (.ubfx x0 x9 k 1) = some (s.wx x0 (bitIf ((s.x x9).getLsbD k) 0)) := by
    simp only [A64.step, rx_of_ne (show x9 ≠ zr by decide), ubfx_bit]
  exact ⟨_, .one hstep, .wx (.inl rfl) _, wx_x_of_ne (by decide), wx_x_same (by decide)⟩

/-- A bit of the flags word joined to what x0 holds. -/
lemma Tests.join {code : List A64} {b : Bool} (h : Tests env code s b) (k : Nat) {i : A64} {op : Bool → Bool → Bool}
    (hi : ∀ (t : A64State) (b b' : Bool), t.x x0 = bitIf b 0 → t.x x10 = bitIf b' 0 →
      i.step env t = some (t.wx x0 (bitIf (op b b') 0))) :
    Tests env (code ++ [.ubfx x10 x9 k 1, i]) s (op b ((s.x x9).getLsbD k)) := by
  obtain ⟨s1, hrun, hscr, h9, h0⟩ := h
  have hstep : A64.step env s1 (.ubfx x10 x9 k 1) = some (s1.wx x10 (bitIf ((s.x x9).getLsbD k) 0)) := by
    simp only [A64.step, rx_of_ne (show x9 ≠ zr by decide), ubfx_bit, h9]
  have hstep' := hi (s1.wx x10 (bitIf ((s.x x9).getLsbD k) 0)) b ((s.x x9).getLsbD k)
    ((wx_x_of_ne (by decide)).trans h0) (wx_x_same (by decide))
  refine ⟨_, hrun.append (.cons hstep (.one hstep')), hscr.trans ((CondScratch.wx (by decide) _).trans (.wx (.inl rfl) _)),
    ?_, wx_x_same (by decide)⟩
  rw [wx_x_of_ne (by decide), wx_x_of_ne (by decide), h9]

lemma Tests.or {code : List A64} {b : Bool} (h : Tests env code s b) (k : Nat) :
    Tests env (code ++ [.ubfx x10 x9 k 1, .orr x0 x0 x10]) s (b || (s.x x9).getLsbD k) := by
  apply h.join k
  intro t b b' h0 h10
  simp only [A64.step, rx_of_ne (show x0 ≠ zr by decide), rx_of_ne (show x10 ≠ zr by decide), h0, h10]
  cases b <;> cases b' <;> rfl

lemma Tests.ne {code : List A64} {b : Bool} (h : Tests env code s b) (k : Nat) :
    Tests env (code ++ [.ubfx x10 x9 k 1, .eor x0 x0 x10]) s (b != (s.x x9).getLsbD k) := by
  apply h.join k
  intro t b b' h0 h10
  simp only [A64.step, rx_of_ne (show x0 ≠ zr by decide), rx_of_ne (show x10 ≠ zr by decide), h0, h10]
  cases b <;> cases b' <;> rfl

/-- The even condition of a pair, from the flags word in x9. -/
def condBitsCode (pair : BitVec 8) : List A64 :=
  match pair &&& 7 with
  | 0 => [.ubfx x0 x9 11 1]
  | 1 => [.ubfx x0 x9 0 1]
  | 2 => [.ubfx x0 x9 6 1]
  | 3 => [.ubfx x0 x9 0 1, .ubfx x10 x9 6 1, .orr x0 x0 x10]
  | 4 => [.ubfx x0 x9 7 1]
  | 5 => [.ubfx x0 x9 2 1]
  | 6 => [.ubfx x0 x9 7 1, .ubfx x10 x9 11 1, .eor x0 x0 x10]
  | _ => [.ubfx x0 x9 7 1, .ubfx x10 x9 11 1, .eor x0 x0 x10, .ubfx x10 x9 6 1, .orr x0 x0 x10]

lemma condEvenCode_eq (cc : BitVec 8) :
    condEvenCode cc = [.ldrW x9 cpuReg offFlags] ++ condBitsCode (cc >>> 1) ++ [.cmp0 x0] := rfl

lemma condBits_tests {f : BitVec 32} {pair : BitVec 8} (hpair : pair < 8) (h9 : s.x x9 = f.setWidth 64) :
    Tests env (condBitsCode pair) s (condEven f pair) := by
  have hcases : ∀ p : BitVec 8, p < 8 → p = 0 ∨ p = 1 ∨ p = 2 ∨ p = 3 ∨ p = 4 ∨ p = 5 ∨ p = 6 ∨ p = 7 := by decide
  have hbit (k : Nat) (hk : k < 32) : (s.x x9).getLsbD k = f.getLsbD k := by
    rw [h9, BitVec.getLsbD_setWidth, decide_eq_true (by omega), Bool.true_and]
  have h0 := hbit 0 (by omega)
  have h2 := hbit 2 (by omega)
  have h6 := hbit 6 (by omega)
  have h7 := hbit 7 (by omega)
  have h11 := hbit 11 (by omega)
  have heven := condEven_bits f pair
  rcases hcases pair hpair with rfl | rfl | rfl | rfl | rfl | rfl | rfl | rfl
  · exact heven ▸ h11 ▸ bit_tests 11
  · exact heven ▸ h0 ▸ bit_tests 0
  · exact heven ▸ h6 ▸ bit_tests 6
  · exact heven ▸ h0 ▸ h6 ▸ (bit_tests 0).or 6
  · exact heven ▸ h7 ▸ bit_tests 7
  · exact heven ▸ h2 ▸ bit_tests 2
  · exact heven ▸ h7 ▸ h11 ▸ (bit_tests 7).ne 11
  · have hor : condEven f 7 = ((f.getLsbD 7 != f.getLsbD 11) || f.getLsbD 6) := heven.trans (Bool.or_comm ..)
    rw [hor, ← h7, ← h11, ← h6]
    exact ((bit_tests 7).ne 11).or 6

/-- `put_cond_even` leaves the even condition in x0 and the comparison of it with 0 in NZCV. -/
lemma condEven_runs {cc : BitVec 8} (hcc : cc < 16) (hcpu : s.x cpuReg = env.cpuPtr) :
    ∃ s', Runs env (condEvenCode cc) s s' ∧ CondScratch s s' ∧ s'.x x0 = bitIf (condEven s.cpu.flags (cc >>> 1)) 0 ∧
      s'.f.z = !condEven s.cpu.flags (cc >>> 1) := by
  have hpair : ∀ cc : BitVec 8, cc < 16 → cc >>> 1 < 8 := by decide
  have hload : A64.step env s (.ldrW x9 cpuReg offFlags) = some (s.wx x9 (s.cpu.flags.setWidth 64)) := by
    have hval : loadAt env s cpuReg offFlags 4 = some (s.cpu.flags.setWidth 64) := by
      unfold loadAt
      rw [if_pos rfl, if_pos hcpu]
      rfl
    simp only [A64.step, hval, Option.map_some]
  obtain ⟨s1, hrun, hscr, -, h0⟩ := @condBits_tests env (s.wx x9 (s.cpu.flags.setWidth 64)) s.cpu.flags (cc >>> 1)
    (hpair cc hcc) (wx_x_same (by decide))
  have hcmp : A64.step env s1 (.cmp0 x0) = some { s1 with f := Nzcv.ofSub (s1.x x0) 0 } := by
    simp only [A64.step, rx_of_ne (show x0 ≠ zr by decide)]
  have hall := CondScratch.trans (.wx (by decide) _) hscr
  refine ⟨{ s1 with f := Nzcv.ofSub (s1.x x0) 0 }, ?_, ⟨hall.x, hall.d, hall.stack, hall.calls, hall.cpu⟩, h0, ?_⟩
  · rw [condEvenCode_eq]
    exact ((Runs.one hload).append hrun).append (.one hcmp)
  · show (s1.x x0 - 0 == 0) = _
    rw [h0]
    cases condEven s.cpu.flags (cc >>> 1) <;> rfl

/-- The sense of the pair gives the condition itself. -/
lemma ccSense_holds {f : Nzcv} {flags : BitVec 32} (cc : BitVec 8) (h : f.z = !condEven flags (cc >>> 1)) :
    (ccSense cc).holds f = cond flags cc := by
  have hodd : ∀ cc : BitVec 8, cc &&& 1 ≠ 0 ↔ cc.getLsbD 0 = true := by decide
  unfold ccSense cond
  by_cases ho : cc.getLsbD 0 = true
  · rw [if_pos ((hodd cc).mpr ho), if_pos ho]
    exact h
  · rw [if_neg (fun h => ho ((hodd cc).mp h)), if_neg ho]
    show (!f.z) = _
    rw [h, Bool.not_not]

/-- What `K_SETCC` and `K_JCC` put after the condition. -/
def setccCode (cc : BitVec 8) : List A64 := condEvenCode cc ++ [.cset x0 (ccSense cc)]

def jccCode (o : Insn) : List A64 :=
  condEvenCode o.cc ++ (immCode x2 o.target ++ immCode x3 o.next ++ [.csel x0 x2 x3 (ccSense o.cc)])

lemma setcc_runs {cc : BitVec 8} (hcc : cc < 16) (hcpu : s.x cpuReg = env.cpuPtr) :
    ∃ s', Runs env (setccCode cc) s s' ∧ s'.cpu = s.cpu ∧ s'.x x0 = if cond s.cpu.flags cc then 1 else 0 := by
  obtain ⟨s1, hrun, hscr, -, hz⟩ := @condEven_runs env s _ hcc hcpu
  have hset : A64.step env s1 (.cset x0 (ccSense cc)) = some (s1.wx x0 (if cond s.cpu.flags cc then 1 else 0)) := by
    simp only [A64.step, ccSense_holds cc hz]
  exact ⟨_, hrun.append (.one hset), wx_cpu.trans hscr.cpu, wx_x_same (by decide)⟩

lemma jcc_runs {o : Insn} (hcc : o.cc < 16) (hcpu : s.x cpuReg = env.cpuPtr) :
    ∃ s', Runs env (jccCode o) s s' ∧ s'.cpu = s.cpu ∧ s'.x x0 = if cond s.cpu.flags o.cc then o.target else o.next := by
  obtain ⟨s1, hrun, hscr, -, hz⟩ := @condEven_runs env s _ hcc hcpu
  let s2 := (s1.wx x2 o.target).wx x3 o.next
  have hsel : A64.step env s2 (.csel x0 x2 x3 (ccSense o.cc)) =
      some (s2.wx x0 (if cond s.cpu.flags o.cc then o.target else o.next)) := by
    have h2 : s2.rx x2 = o.target := (rx_of_ne (by decide)).trans ((wx_x_of_ne (by decide)).trans (wx_x_same (by decide)))
    have h3 : s2.rx x3 = o.next := (rx_of_ne (by decide)).trans (wx_x_same (by decide))
    have hf : s2.f = s1.f := wx_f.trans wx_f
    simp only [A64.step, h2, h3, hf, ccSense_holds o.cc hz]
  have himm : Runs env (immCode x2 o.target ++ immCode x3 o.next) s1 s2 :=
    (imm_runs (by decide) o.target).append (imm_runs (by decide) o.next)
  refine ⟨_, hrun.append (himm.append (.one hsel)), ?_, wx_x_same (by decide)⟩
  exact wx_cpu.trans (wx_cpu.trans (wx_cpu.trans hscr.cpu))

end Fragments

/-- Both kinds emit their sequence first; the rest of `K_SETCC` stores x0. -/
lemma putSetcc_eq (lk : Link) (o : Insn) (rip : BitVec 64) : putSetcc lk o rip = (do
    puts (setccCode o.cc)
    if o.mem then do
      put (.str x0 cpuReg (offTmp 0))
      putMemEa o rip
      put (.ldr x2 cpuReg (offTmp 0))
      putStore lk 1
    else putWrReg x0 o o.reg 1) := by
  rw [setccCode, puts_append]
  rfl

lemma putJcc_eq (o : Insn) : putJcc o = puts (jccCode o ++ leaveCode) := by
  rw [jccCode, puts_append, puts_append]
  rfl

/-- The relations that a comparison leaves for the conditions b, ae, e, ne, be, a, l, ge, le and g. -/
structure Compares {n : Nat} (x y : BitVec n) (f : BitVec 32) : Prop where
  below : cond f 0x2 = decide (x.toNat < y.toNat)
  aboveEqual : cond f 0x3 = decide (y.toNat ≤ x.toNat)
  equal : cond f 0x4 = decide (x = y)
  notEqual : cond f 0x5 = decide (x ≠ y)
  belowEqual : cond f 0x6 = decide (x.toNat ≤ y.toNat)
  above : cond f 0x7 = decide (y.toNat < x.toNat)
  less : cond f 0xC = decide (x.toInt < y.toInt)
  greaterEqual : cond f 0xD = decide (y.toInt ≤ x.toInt)
  lessEqual : cond f 0xE = decide (x.toInt ≤ y.toInt)
  greater : cond f 0xF = decide (y.toInt < x.toInt)

lemma flagsSub_compares {size : Nat} (hsize : Sized size) (f : BitVec 32) (a b : BitVec 64) :
    Compares (lowPart size a) (lowPart size b) (flagsSub f a b (a - b) size) := by
  obtain ⟨h1, h2, h3, h6, h7⟩ := condEven_sub hsize f a b
  have hnot {p q : Prop} [Decidable p] [Decidable q] {c : Bool} (hc : c = decide p) (hpq : ¬ p ↔ q) : (!c) = decide q := by
    rw [hc, ← decide_not]
    exact decide_eq_decide.mpr hpq
  exact ⟨h1, hnot h1 Nat.not_lt, h2, hnot h2 Iff.rfl, h3, hnot h3 Nat.not_le, h6, hnot h6 Int.not_lt, h7,
    hnot h7 Int.not_le⟩

/-- A comparison leaves the relations of its operands in the flags, and compiled code that tests a
condition finds the interpreter's, whatever the flags are. -/
theorem comparison_conditions {size : Nat} (hsize : Sized size) (env : A64Env) (s : A64State) {cc : BitVec 8}
    (hcc : cc < 16) (hcpu : s.x cpuReg = env.cpuPtr) :
    (∀ f a b, Compares (lowPart size a) (lowPart size b) (flagsSub f a b (a - b) size)) ∧
    (∃ s', Runs env (condEvenCode cc) s s' ∧ s'.cpu = s.cpu ∧ s'.x x0 = bitIf (condEven s.cpu.flags (cc >>> 1)) 0 ∧
      (ccSense cc).holds s'.f = cond s.cpu.flags cc) ∧
    (∃ s', Runs env (setccCode cc) s s' ∧ s'.cpu = s.cpu ∧ s'.x x0 = if cond s.cpu.flags cc then 1 else 0) ∧
    ∀ (lk : Link) (o : Insn) (rip : BitVec 64), o.cc = cc →
      (∃ s', Runs env (jccCode o) s s' ∧ s'.cpu = s.cpu ∧ s'.x x0 = if cond s.cpu.flags cc then o.target else o.next) ∧
      (o.kind = .jcc → putInsn lk o rip = puts (jccCode o ++ leaveCode)) ∧
      (o.kind = .setcc → putInsn lk o rip = (do
        puts (setccCode cc)
        if o.mem then do
          put (.str x0 cpuReg (offTmp 0))
          putMemEa o rip
          put (.ldr x2 cpuReg (offTmp 0))
          putStore lk 1
        else putWrReg x0 o o.reg 1)) := by
  refine ⟨flagsSub_compares hsize, ?_, setcc_runs hcc hcpu, fun lk o rip hocc => ?_⟩
  · obtain ⟨s', hrun, hscr, h0, hz⟩ := @condEven_runs env s _ hcc hcpu
    exact ⟨s', hrun, hscr.cpu, h0, ccSense_holds cc hz⟩
  · subst hocc
    refine ⟨jcc_runs hcc hcpu, fun hk => ?_, fun hk => ?_⟩
    · simp only [putInsn, hk]
      exact putJcc_eq o
    · simp only [putInsn, hk]
      exact putSetcc_eq lk o rip

/-- `-1 < 1` of bytes, and `setl` on flags with SF alone. -/
theorem comparison_conditions_less :
    cond (flagsSub 0 0xFF 1 (0xFF - 1) 1) 0xC = true ∧
      ∃ s', Runs sampleA64 (setccCode 0xC) { addState with cpu := { nopCpu with flags := 0x80 } } s' ∧ s'.x x0 = 1 := by
  obtain ⟨hcmp, -, ⟨s', hrun, -, h0⟩, -⟩ := @comparison_conditions 1 (.inl rfl) sampleA64
    { addState with cpu := { nopCpu with flags := 0x80 } } 0xC (by decide) rfl
  refine ⟨(hcmp 0 0xFF 1).less.trans (by decide), s', hrun, h0.trans ?_⟩
  decide

end Rashid.Proofs
