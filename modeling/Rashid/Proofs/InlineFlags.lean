import Rashid.Jit
import Rashid.Proofs.StatusFlags
import Rashid.Proofs.Stops
import Rashid.Proofs.Straight
import Rashid.Proofs.Widths

/-!
# Flags computed in line

`put_flags_inline` builds the flags of x86 out of NZCV, three shifted exclusive ors and one bit
of the operands. What it stores is what the interpreter's flag routines produce, for the flags
that are wanted.
-/

namespace Rashid.Proofs

def bitIf (b : Bool) (k : Nat) : BitVec 64 := if b then 1#64 <<< k else 0

/-- Registers 9 to 12 and nothing else may differ. -/
structure FlagScratch (s s' : A64State) : Prop where
  x : ∀ r, r ≠ x9 → r ≠ x10 → r ≠ x11 → r ≠ x12 → s'.x r = s.x r
  f : s'.f = s.f
  d : s'.d = s.d
  stack : s'.stack = s.stack
  calls : s'.calls = s.calls
  cpu : s'.cpu = s.cpu

namespace FlagScratch

variable {s s' s'' : A64State}

lemma refl (s : A64State) : FlagScratch s s := ⟨fun _ _ _ _ _ => rfl, rfl, rfl, rfl, rfl, rfl⟩

lemma trans (h : FlagScratch s s') (h' : FlagScratch s' s'') : FlagScratch s s'' :=
  ⟨fun r h9 h10 h11 h12 => (h'.x r h9 h10 h11 h12).trans (h.x r h9 h10 h11 h12), h'.f.trans h.f, h'.d.trans h.d,
    h'.stack.trans h.stack, h'.calls.trans h.calls, h'.cpu.trans h.cpu⟩

lemma wx {r : A64Reg} (hr : r = x9 ∨ r = x10 ∨ r = x11 ∨ r = x12) (v : BitVec 64) : FlagScratch s (s.wx r v) := by
  refine ⟨fun t h9 h10 h11 h12 => wx_x_of_ne ?_, wx_f, wx_d, wx_stack, wx_calls, wx_cpu⟩
  rcases hr with rfl | rfl | rfl | rfl
  · exact h9
  · exact h10
  · exact h11
  · exact h12

end FlagScratch

/-- A fragment that adds bits to x10 and otherwise disturbs only the scratch registers. -/
def Collects (env : A64Env) (code : List A64) (s : A64State) (bits : BitVec 64) : Prop :=
  ∃ s', Runs env code s s' ∧ FlagScratch s s' ∧ s'.x x10 = s.x x10 ||| bits

section Fragments

variable {env : A64Env} {s : A64State}

lemma collects_nil : Collects env [] s 0 := ⟨s, Runs.nil, .refl s, by simp⟩

/-- A value of 0 or 1 computed into x11 and put at its place. -/
lemma collects_of_x11 {code : List A64} {b : Bool} {k : Nat} {s' : A64State} (hrun : Runs env code s s')
    (hs : FlagScratch s s') (h10 : s'.x x10 = s.x x10) (h11 : s'.x x11 = bitIf b 0) :
    Collects env (code ++ [.orrLsl x10 x10 x11 k]) s (bitIf b k) := by
  refine ⟨s'.wx x10 (s'.rx x10 ||| (s'.rx x11 <<< k)), hrun.append (Runs.one rfl), hs.trans (.wx (by decide) _), ?_⟩
  rw [wx_x_same (by decide), rx_of_ne (by decide), rx_of_ne (by decide), h10, h11]
  cases b <;> simp [bitIf]

lemma nzcv_collects (need : BitVec 32) (logic : Bool) (f : BitVec 32) (bit : Nat) (cond : A64Cond) :
    Collects env (nzcvCode need logic f bit cond) s
      (bitIf (decide (¬ (need &&& f = 0 ∨ (logic ∧ f &&& (fCF ||| fOF) ≠ 0))) && cond.holds s.f) bit) := by
  unfold nzcvCode
  by_cases h : need &&& f = 0 ∨ (logic ∧ f &&& (fCF ||| fOF) ≠ 0)
  · rw [if_pos h, decide_eq_false (not_not.mpr h)]
    exact collects_nil
  · rw [if_neg h, decide_eq_true h, Bool.true_and]
    have hrun : Runs env [.cset x11 cond] s (s.wx x11 (bitIf (cond.holds s.f) 0)) := Runs.one rfl
    exact collects_of_x11 hrun (.wx (by decide) _) (wx_x_of_ne (by decide)) (wx_x_same (by decide))

/-- The parity flag of x86: the low byte has an even number of bits. -/
def evenLow (v : BitVec 64) : Bool := popcount ((v &&& 0xff).setWidth 32) % 2 == 0

/-- Folding the byte onto its lowest bit. -/
def fold (v : BitVec 64) : BitVec 64 :=
  let a := v ^^^ (v >>> 4)
  let b := a ^^^ (a >>> 2)
  b ^^^ (b >>> 1)

lemma getLsbD_fold (v : BitVec 64) : (fold v).getLsbD 0 =
    (v.getLsbD 0 ^^ v.getLsbD 4 ^^ (v.getLsbD 2 ^^ v.getLsbD 6) ^^
      (v.getLsbD 1 ^^ v.getLsbD 5 ^^ (v.getLsbD 3 ^^ v.getLsbD 7))) := by
  simp only [fold, BitVec.getLsbD_xor, BitVec.getLsbD_ushiftRight]

lemma popcount_low (v : BitVec 64) : popcount ((v &&& 0xff).setWidth 32) =
    (v.getLsbD 0).toNat + (v.getLsbD 1).toNat + (v.getLsbD 2).toNat + (v.getLsbD 3).toNat + (v.getLsbD 4).toNat +
      (v.getLsbD 5).toNat + (v.getLsbD 6).toNat + (v.getLsbD 7).toNat := by
  have hbit (i : Nat) : ((v &&& 0xff).setWidth 32).getLsbD i = (decide (i < 8) && v.getLsbD i) := by
    rw [BitVec.getLsbD_setWidth, BitVec.getLsbD_and]
    by_cases hi : i < 32
    · have hff : BitVec.getLsbD (255 : BitVec 64) i = decide (i < 8) := by
        revert hi i
        decide
      rw [hff, decide_eq_true hi, Bool.true_and, Bool.and_comm]
    · rw [decide_eq_false hi, decide_eq_false (by omega), Bool.false_and, Bool.false_and]
  have htoNat (b : Bool) : (if b = true then 1 else 0) = b.toNat := by cases b <;> rfl
  simp only [popcount, List.range, List.range.loop, List.countP_cons, List.countP_nil, hbit]
  simp only [htoNat, Nat.reduceLT, decide_true, decide_false, Bool.true_and, Bool.false_and, Bool.toNat_false]
  omega

lemma evenLow_eq (v : BitVec 64) : evenLow v = !(fold v).getLsbD 0 := by
  rw [evenLow, popcount_low, getLsbD_fold]
  generalize v.getLsbD 0 = b0, v.getLsbD 1 = b1, v.getLsbD 2 = b2, v.getLsbD 3 = b3
  generalize v.getLsbD 4 = b4, v.getLsbD 5 = b5, v.getLsbD 6 = b6, v.getLsbD 7 = b7
  revert b0 b1 b2 b3 b4 b5 b6 b7
  decide

lemma ubfx_bit (v : BitVec 64) (k : Nat) : ((v >>> k).setWidth 1).setWidth 64 = bitIf (v.getLsbD k) 0 := by
  apply BitVec.eq_of_getLsbD_eq
  intro i hi
  by_cases h0 : i = 0
  · subst h0
    cases hb : v.getLsbD k <;> simp [bitIf, hb]
  · cases hb : v.getLsbD k <;> simp [bitIf, h0, hi, show ¬ i < 1 by omega]

/-- x11 after a write to it. -/
lemma rx_x11 (v : BitVec 64) : (s.wx x11 v).rx x11 = v := (rx_of_ne (by decide)).trans (wx_x_same (by decide))

lemma parity_collects : Collects env parityCode s (bitIf (evenLow (s.x x3)) 2) := by
  let v1 := s.x x3 ^^^ (s.x x3 >>> 4)
  let v2 := v1 ^^^ (v1 >>> 2)
  have h3 : s.rx x3 = s.x x3 := rx_of_ne (by decide)
  have step1 : A64.step env s (.eorLsr x11 x3 x3 4) = some (s.wx x11 v1) := by
    simp only [A64.step, h3]
    rfl
  have step2 : A64.step env (s.wx x11 v1) (.eorLsr x11 x11 x11 2) = some (s.wx x11 v2) := by
    simp only [A64.step, rx_x11, wx_wx]
    rfl
  have step3 : A64.step env (s.wx x11 v2) (.eorLsr x11 x11 x11 1) = some (s.wx x11 (fold (s.x x3))) := by
    simp only [A64.step, rx_x11, wx_wx]
    rfl
  have step4 : A64.step env (s.wx x11 (fold (s.x x3))) (.ubfx x11 x11 0 1) =
      some (s.wx x11 (bitIf ((fold (s.x x3)).getLsbD 0) 0)) := by
    simp only [A64.step, rx_x11, wx_wx, ubfx_bit]
  have step5 : A64.step env (s.wx x11 (bitIf ((fold (s.x x3)).getLsbD 0) 0)) (.eorBit x11 x11 0) =
      some (s.wx x11 (bitIf (evenLow (s.x x3)) 0)) := by
    simp only [A64.step, rx_x11, wx_wx, evenLow_eq]
    cases (fold (s.x x3)).getLsbD 0 <;> rfl
  have hrun := Runs.cons step1 (.cons step2 (.cons step3 (.cons step4 (.one step5))))
  exact collects_of_x11 hrun (.wx (by decide) _) (wx_x_of_ne (by decide)) (wx_x_same (by decide))

lemma adjust_collects : Collects env adjustCode s (bitIf ((s.x x1 ^^^ s.x x2 ^^^ s.x x3).getLsbD 4) 4) := by
  have h1 : s.rx x1 = s.x x1 := rx_of_ne (by decide)
  have h2 : s.rx x2 = s.x x2 := rx_of_ne (by decide)
  have h3 (v : BitVec 64) : (s.wx x11 v).rx x3 = s.x x3 := (rx_of_ne (by decide)).trans (wx_x_of_ne (by decide))
  have step1 : A64.step env s (.eor x11 x1 x2) = some (s.wx x11 (s.x x1 ^^^ s.x x2)) := by
    simp only [A64.step, h1, h2]
  have step2 : A64.step env (s.wx x11 (s.x x1 ^^^ s.x x2)) (.eor x11 x11 x3) =
      some (s.wx x11 (s.x x1 ^^^ s.x x2 ^^^ s.x x3)) := by
    simp only [A64.step, rx_x11, h3, wx_wx]
  have step3 : A64.step env (s.wx x11 (s.x x1 ^^^ s.x x2 ^^^ s.x x3)) (.ubfx x11 x11 4 1) =
      some (s.wx x11 (bitIf ((s.x x1 ^^^ s.x x2 ^^^ s.x x3).getLsbD 4) 0)) := by
    simp only [A64.step, rx_x11, wx_wx, ubfx_bit]
  have hrun := Runs.cons step1 (.cons step2 (.one step3))
  exact collects_of_x11 hrun (.wx (by decide) _) (wx_x_of_ne (by decide)) (wx_x_same (by decide))

lemma Collects.append {l l' : List A64} {b b' : BitVec 64} (h : Collects env l s b)
    (h' : ∀ s', FlagScratch s s' → Collects env l' s' b') : Collects env (l ++ l') s (b ||| b') := by
  obtain ⟨s1, hrun1, hs1, h10⟩ := h
  obtain ⟨s2, hrun2, hs2, h10'⟩ := h' s1 hs1
  refine ⟨s2, hrun1.append hrun2, hs1.trans hs2, ?_⟩
  rw [h10', h10, BitVec.or_assoc]

lemma Collects.of_ite {c : Prop} [Decidable c] {l : List A64} {b : Bool} {k : Nat}
    (h : Collects env l s (bitIf b k)) : Collects env (if c then l else []) s (bitIf (decide c && b) k) := by
  by_cases hc : c
  · rw [if_pos hc, decide_eq_true hc, Bool.true_and]
    exact h
  · rw [if_neg hc, decide_eq_false hc]
    exact collects_nil

/-- The flags word is merged: what is needed comes from x10, the rest stays. -/
lemma merge_runs (need : BitVec 32) (hcpu : s.x cpuReg = env.cpuPtr) :
    ∃ s', Runs env (mergeFlagsCode need) s s' ∧
      s'.cpu = { s.cpu with flags := (s.cpu.flags &&& ~~~need) ||| (s.x x10).setWidth 32 } ∧
      (∀ r, r ≠ x9 → r ≠ x10 → r ≠ x11 → r ≠ x12 → s'.x r = s.x r) ∧ s'.d = s.d ∧ s'.stack = s.stack ∧
      s'.calls = s.calls := by
  let v0 : BitVec 64 := s.cpu.flags.setWidth 64
  let s1 := s.wx x9 v0
  let s2 := s1.wx x12 (need.setWidth 64)
  let v1 : BitVec 64 := v0 &&& ~~~(need.setWidth 64)
  let s3 := s2.wx x9 v1
  let s4 := s3.wx x9 (v1 ||| s.x x10)
  have hflags : ((v1 ||| s.x x10).setWidth 32 : BitVec 32) = (s.cpu.flags &&& ~~~need) ||| (s.x x10).setWidth 32 := by
    apply BitVec.eq_of_getLsbD_eq
    intro i hi
    simp [v1, v0, hi, show i < 64 by omega]
  have step1 : A64.step env s (.ldrW x9 cpuReg offFlags) = some s1 := by
    have hload : loadAt env s cpuReg offFlags 4 = some v0 := by
      unfold loadAt
      rw [if_pos rfl, if_pos hcpu]
      rfl
    simp only [A64.step, hload]
    rfl
  have step3 : A64.step env s2 (.bic x9 x9 x12) = some s3 := by
    have h9 : s2.rx x9 = v0 := (rx_of_ne (by decide)).trans ((wx_x_of_ne (by decide)).trans (wx_x_same (by decide)))
    have h12 : s2.rx x12 = need.setWidth 64 := (rx_of_ne (by decide)).trans (wx_x_same (by decide))
    simp only [A64.step, h9, h12]
    rfl
  have step4 : A64.step env s3 (.orr x9 x9 x10) = some s4 := by
    have h9 : s3.rx x9 = v1 := (rx_of_ne (by decide)).trans (wx_x_same (by decide))
    have h10 : s3.rx x10 = s.x x10 := (rx_of_ne (by decide)).trans
      ((wx_x_of_ne (by decide)).trans ((wx_x_of_ne (by decide)).trans (wx_x_of_ne (by decide))))
    simp only [A64.step, h9, h10]
    rfl
  have hx4 : FlagScratch s s4 := ((FlagScratch.wx (.inl rfl) v0).trans (.wx (by decide) _)).trans
    ((FlagScratch.wx (.inl rfl) _).trans (.wx (.inl rfl) _))
  have step5 : A64.step env s4 (.strW x9 cpuReg offFlags) =
      some { s4 with cpu := { s.cpu with flags := (s.cpu.flags &&& ~~~need) ||| (s.x x10).setWidth 32 } } := by
    have h9 : s4.rx x9 = v1 ||| s.x x10 := (rx_of_ne (by decide)).trans (wx_x_same (by decide))
    have hcpu4 : s4.x cpuReg = env.cpuPtr := (hx4.x cpuReg (by decide) (by decide) (by decide) (by decide)).trans hcpu
    simp only [A64.step, h9, storeAt]
    rw [if_pos trivial, if_pos hcpu4, ← hflags, ← hx4.cpu]
    rfl
  refine ⟨_, .append (.append (.one step1) (imm_runs (by decide) _)) (.cons step3 (.cons step4 (.one step5))), rfl, ?_⟩
  exact ⟨hx4.x, hx4.d, hx4.stack, hx4.calls⟩

end Fragments

/-! ### The sequence as a whole -/

section Sequence

variable (add sub logic : Bool) (need : BitVec 32) (w : Bool)

/-- NZCV of the flag-setting form, from what x1, x2 and x3 hold. -/
def setNzcv (a b r : BitVec 64) : Nzcv :=
  if add then (if w then Nzcv.ofAdd (a.setWidth 32) (b.setWidth 32) else Nzcv.ofAdd a b)
  else if sub then (if w then Nzcv.ofSub (a.setWidth 32) (b.setWidth 32) else Nzcv.ofSub a b)
  else (if w then Nzcv.ofAnd (r.setWidth 32) (r.setWidth 32) else Nzcv.ofAnd r r)

/-- Whether one of NZCV is asked for. A logical operation has no carry and no overflow. -/
def wants (f : BitVec 32) : Bool := decide (¬ (need &&& f = 0 ∨ (logic ∧ f &&& (fCF ||| fOF) ≠ 0)))

/-- What x10 collects. -/
def inlineBits (a b r : BitVec 64) : BitVec 64 :=
  let f := setNzcv add sub w a b r
  bitIf (wants logic need fCF && (if sub then A64Cond.cc else A64Cond.cs).holds f) 0 |||
    (bitIf (wants logic need fZF && f.z) 6 ||| (bitIf (wants logic need fSF && f.n) 7 |||
      (bitIf (wants logic need fOF && f.v) 11 ||| (bitIf (decide (need &&& fPF ≠ 0) && evenLow r) 2 |||
        bitIf (decide (need &&& fAF ≠ 0) && (a ^^^ b ^^^ r).getLsbD 4) 4))))

variable {env : A64Env} {s : A64State}

lemma flagSet_step : A64.step env s (flagSetCode add sub w) =
    some { s with f := setNzcv add sub w (s.x x1) (s.x x2) (s.x x3) } := by
  have h1 : s.rx x1 = s.x x1 := rx_of_ne (by decide)
  have h2 : s.rx x2 = s.x x2 := rx_of_ne (by decide)
  have h3 : s.rx x3 = s.x x3 := rx_of_ne (by decide)
  unfold flagSetCode setNzcv
  cases add <;> cases sub <;> cases w <;> simp only [A64.step, A64State.rw, h1, h2, h3, if_true, if_false,
    Bool.false_eq_true]

/-- After the flag-setting form, x10 collects the flags wanted. -/
lemma nzcvs_collect (a b r : BitVec 64) (h1 : s.x x1 = a) (h2 : s.x x2 = b) (h3 : s.x x3 = r)
    (hf : s.f = setNzcv add sub w a b r ∨ need &&& (fCF ||| fZF ||| fSF ||| fOF) = 0) :
    Collects env (nzcvCode need logic fCF 0 (if sub then .cc else .cs) ++ (nzcvCode need logic fZF 6 .eq ++
      (nzcvCode need logic fSF 7 .mi ++ (nzcvCode need logic fOF 11 .vs ++
        ((if need &&& fPF ≠ 0 then parityCode else []) ++ (if need &&& fAF ≠ 0 then adjustCode else [])))))) s
      (inlineBits add sub logic need w a b r) := by
  have hwant (f : BitVec 32) (c : A64Cond) (k : Nat) (t : A64State) (ht : FlagScratch s t)
      (hsub : f &&& (fCF ||| fZF ||| fSF ||| fOF) = f) :
      Collects env (nzcvCode need logic f k c) t
        (bitIf (wants logic need f && c.holds (setNzcv add sub w a b r)) k) := by
    have h := @nzcv_collects env t need logic f k c
    rw [ht.f] at h
    rcases hf with hf | hz
    · rw [hf] at h
      exact h
    · have hnone : need &&& f = 0 := by
        rw [← hsub, BitVec.and_comm f, ← BitVec.and_assoc, hz]
        exact BitVec.zero_and
      have hno : wants logic need f = false := decide_eq_false (not_not.mpr (.inl hnone))
      have hno' : decide (¬ (need &&& f = 0 ∨ (logic ∧ f &&& (fCF ||| fOF) ≠ 0))) = false := hno
      rw [hno', Bool.false_and] at h
      rw [hno, Bool.false_and]
      exact h
  have hx (t : A64State) (ht : FlagScratch s t) : t.x x1 = a ∧ t.x x2 = b ∧ t.x x3 = r :=
    ⟨(ht.x x1 (by decide) (by decide) (by decide) (by decide)).trans h1,
      (ht.x x2 (by decide) (by decide) (by decide) (by decide)).trans h2,
      (ht.x x3 (by decide) (by decide) (by decide) (by decide)).trans h3⟩
  refine (hwant fCF _ 0 s (.refl s) (by decide)).append fun s1 hs1 => ?_
  refine (hwant fZF .eq 6 s1 hs1 (by decide)).append fun s2 hs2 => ?_
  have hs2' := hs1.trans hs2
  refine (hwant fSF .mi 7 s2 hs2' (by decide)).append fun s3 hs3 => ?_
  have hs3' := hs2'.trans hs3
  refine (hwant fOF .vs 11 s3 hs3' (by decide)).append fun s4 hs4 => ?_
  have hs4' := hs3'.trans hs4
  obtain ⟨-, -, h43⟩ := hx s4 hs4'
  refine Collects.append (.of_ite (h43 ▸ parity_collects)) fun s5 hs5 => ?_
  obtain ⟨h51, h52, h53⟩ := hx s5 (hs4'.trans hs5)
  have had := @adjust_collects env s5
  rw [h51, h52, h53] at had
  exact .of_ite had

lemma flagsInline_runs (hcpu : s.x cpuReg = env.cpuPtr) :
    ∃ s', Runs env (flagsInlineCode add sub logic need w) s s' ∧
      s'.cpu = { s.cpu with flags := (s.cpu.flags &&& ~~~need) |||
        (inlineBits add sub logic need w (s.x x1) (s.x x2) (s.x x3)).setWidth 32 } ∧
      (∀ r, r ≠ x9 → r ≠ x10 → r ≠ x11 → r ≠ x12 → s'.x r = s.x r) ∧ s'.d = s.d ∧ s'.stack = s.stack ∧
      s'.calls = s.calls := by
  let c := need &&& (fCF ||| fZF ||| fSF ||| fOF) ≠ 0
  -- the flag-setting form, if any of NZCV is wanted, and x10 cleared
  have hset : Runs env (if c then [flagSetCode add sub w] else []) s
      { s with f := if c then setNzcv add sub w (s.x x1) (s.x x2) (s.x x3) else s.f } := by
    by_cases hc : c
    · rw [if_pos hc, if_pos hc]
      exact .one (flagSet_step add sub w)
    · rw [if_neg hc, if_neg hc]
      exact .nil
  generalize hs1 : { s with f := if c then setNzcv add sub w (s.x x1) (s.x x2) (s.x x3) else s.f } = s1 at hset
  have hclear : Runs env [.movz x10 0 0] s1 (s1.wx x10 0) := .one rfl
  have hx (r : A64Reg) (hr : r ≠ x10) : (s1.wx x10 0).x r = s.x r := (wx_x_of_ne hr).trans (hs1 ▸ rfl)
  have hf : (s1.wx x10 0).f = setNzcv add sub w (s.x x1) (s.x x2) (s.x x3) ∨
      need &&& (fCF ||| fZF ||| fSF ||| fOF) = 0 := by
    by_cases hc : c
    · refine .inl ?_
      rw [wx_f, ← hs1]
      exact if_pos hc
    · exact .inr (not_not.mp hc)
  obtain ⟨s2, hrun2, hscr, h10⟩ := @nzcvs_collect add sub logic need w env _ _ _ _
    (hx x1 (by decide)) (hx x2 (by decide)) (hx x3 (by decide)) hf
  rw [wx_x_same (by decide)] at h10
  have hkeep (r : A64Reg) (h9 : r ≠ x9) (h10 : r ≠ x10) (h11 : r ≠ x11) (h12 : r ≠ x12) : s2.x r = s.x r :=
    (hscr.x r h9 h10 h11 h12).trans (hx r h10)
  have hcpu2 : s2.x cpuReg = env.cpuPtr := (hkeep cpuReg (by decide) (by decide) (by decide) (by decide)).trans hcpu
  obtain ⟨s3, hrun3, hcpu3, hx3, hd3, hstack3, hcalls3⟩ := merge_runs need hcpu2
  refine ⟨s3, ?_, ?_, fun r h9 h10 h11 h12 => (hx3 r h9 h10 h11 h12).trans (hkeep r h9 h10 h11 h12), ?_, ?_, ?_⟩
  · have hall := ((hset.append hclear).append hrun2).append hrun3
    simpa only [flagsInlineCode, List.append_assoc] using hall
  · have h12 : s2.cpu = s.cpu := by rw [hscr.cpu, wx_cpu, ← hs1]
    have hzero (v : BitVec 64) : 0 ||| v = v := BitVec.zero_or
    rw [hcpu3, h10, h12, hzero]
  · rw [hd3, hscr.d, wx_d, ← hs1]
  · rw [hstack3, hscr.stack, wx_stack, ← hs1]
  · rw [hcalls3, hscr.calls, wx_calls, ← hs1]

end Sequence

lemma getLsbD_bitIf (b : Bool) (k i : Nat) (hi : i < 64) : (bitIf b k).getLsbD i = (b && decide (i = k)) := by
  cases b
  · simp [bitIf]
  · simp only [bitIf, if_true, BitVec.getLsbD_shiftLeft, BitVec.getLsbD_one, hi, decide_true, Bool.true_and]
    by_cases hk : i = k
    · simp [hk]
    · have : i < k ∨ ¬ i < k ∧ i - k ≠ 0 := by omega
      rcases this with h | ⟨h, h'⟩ <;> simp [h, hk]
      omega

lemma and_bit_iff (need : BitVec 32) (k : Nat) (f : BitVec 32) (hf : f = BitVec.twoPow 32 k) (hk : k < 32) :
    decide (need &&& f ≠ 0) = need.getLsbD k := by
  rw [hf, BitVec.and_twoPow]
  cases hb : need.getLsbD k with
  | false => simp
  | true =>
    refine decide_eq_true ?_
    rw [if_pos rfl]
    intro hz
    have h := congrArg (fun z => z.getLsbD k) hz
    simp [hk] at h

lemma wants_eq (logic : Bool) (need f : BitVec 32) (k : Nat) (z : Bool) (hf : f = BitVec.twoPow 32 k) (hk : k < 32)
    (hz : decide (f &&& (fCF ||| fOF) ≠ 0) = z) : wants logic need f = (need.getLsbD k && !(logic && z)) := by
  rw [← and_bit_iff need k f hf hk, ← hz]
  unfold wants
  cases logic <;> by_cases h : need &&& f = 0 <;> simp [h]

/-- The status flags that the sequence computes. -/
def inlineStatus (add sub logic w : Bool) (a b r : BitVec 64) : Status where
  cf := !logic && (if sub then A64Cond.cc else A64Cond.cs).holds (setNzcv add sub w a b r)
  zf := (setNzcv add sub w a b r).z
  sf := (setNzcv add sub w a b r).n
  of := !logic && (setNzcv add sub w a b r).v
  pf := evenLow r
  af := (a ^^^ b ^^^ r).getLsbD 4

lemma inlineBits_eq (add sub logic : Bool) (need : BitVec 32) (w : Bool) (a b r : BitVec 64) :
    (inlineBits add sub logic need w a b r).setWidth 32 = (inlineStatus add sub logic w a b r).word &&& need := by
  apply BitVec.eq_of_getLsbD_eq
  intro i hi
  have hi' : i < 64 := by omega
  have hCF := wants_eq logic need fCF 0 true rfl (by decide) (by decide)
  have hOF := wants_eq logic need fOF 11 true rfl (by decide) (by decide)
  have hZF := wants_eq logic need fZF 6 false rfl (by decide) (by decide)
  have hSF := wants_eq logic need fSF 7 false rfl (by decide) (by decide)
  have hPF := and_bit_iff need 2 fPF rfl (by decide)
  have hAF := and_bit_iff need 4 fAF rfl (by decide)
  simp only [inlineBits, inlineStatus, Status.word, BitVec.getLsbD_setWidth, BitVec.getLsbD_or, BitVec.getLsbD_and,
    getLsbD_bitIf _ _ i hi', getLsbD_flagIf, getLsbD_twoPow_flag hi 0 fCF rfl, getLsbD_twoPow_flag hi 6 fZF rfl,
    getLsbD_twoPow_flag hi 7 fSF rfl, getLsbD_twoPow_flag hi 11 fOF rfl, getLsbD_twoPow_flag hi 2 fPF rfl,
    getLsbD_twoPow_flag hi 4 fAF rfl, hCF, hOF, hZF, hSF, hPF, hAF, hi, decide_true, Bool.true_and, Bool.and_true,
    Bool.and_false, Bool.not_false]
  generalize setNzcv add sub w a b r = f
  -- at each of the six positions one flag is left on either side, elsewhere none
  by_cases h : i = 0 ∨ i = 2 ∨ i = 4 ∨ i = 6 ∨ i = 7 ∨ i = 11
  · rcases h with rfl | rfl | rfl | rfl | rfl | rfl <;> simp [Bool.and_comm, Bool.and_left_comm, Bool.and_assoc]
  · simp only [not_or] at h
    obtain ⟨h0, h2, h4, h6, h7, h11⟩ := h
    simp [h0, h2, h4, h6, h7, h11]

/-! ### NZCV against x86 -/

section Widths

variable {n : Nat} (x y : BitVec n)

lemma add_carry (hn : n ≤ 64) : decide ((x + y).setWidth 64 < x.setWidth 64) = x.uaddOverflow y := by
  have hx := x.isLt
  have hy := y.isLt
  have hpow : 2 ^ n ≤ 2 ^ 64 := Nat.pow_le_pow_right (by omega) hn
  unfold BitVec.uaddOverflow
  refine decide_eq_decide.mpr ?_
  rw [BitVec.lt_def, BitVec.toNat_setWidth, BitVec.toNat_setWidth, BitVec.toNat_add,
    Nat.mod_eq_of_lt (Nat.lt_of_lt_of_le (Nat.mod_lt _ (Nat.two_pow_pos n)) hpow),
    Nat.mod_eq_of_lt (Nat.lt_of_lt_of_le hx hpow)]
  by_cases h : x.toNat + y.toNat < 2 ^ n
  · rw [Nat.mod_eq_of_lt h]
    omega
  · rw [Nat.mod_eq_sub_mod (Nat.not_lt.mp h), Nat.mod_eq_of_lt (by omega)]
    omega

lemma sub_borrow (hn : n ≤ 64) : decide (x.setWidth 64 < y.setWidth 64) = x.usubOverflow y := by
  have hpow : 2 ^ n ≤ 2 ^ 64 := Nat.pow_le_pow_right (by omega) hn
  unfold BitVec.usubOverflow
  refine decide_eq_decide.mpr ?_
  rw [BitVec.lt_def, BitVec.toNat_setWidth, BitVec.toNat_setWidth,
    Nat.mod_eq_of_lt (Nat.lt_of_lt_of_le x.isLt hpow), Nat.mod_eq_of_lt (Nat.lt_of_lt_of_le y.isLt hpow)]

lemma zero_extended (hn : n ≤ 64) : (x.setWidth 64 == 0) = (x == 0) := by
  have hpow : 2 ^ n ≤ 2 ^ 64 := Nat.pow_le_pow_right (by omega) hn
  rw [Bool.eq_iff_iff, beq_iff_eq, beq_iff_eq]
  constructor
  · intro h
    have hv := congrArg BitVec.toNat h
    rw [BitVec.toNat_setWidth, Nat.mod_eq_of_lt (Nat.lt_of_lt_of_le x.isLt hpow)] at hv
    exact BitVec.eq_of_toNat_eq (hv.trans (by simp))
  · rintro rfl
    simp

/-- A mask of one bit tests that bit. -/
lemma and_twoPow_ne (v : BitVec 64) {k : Nat} (hk : k < 64) : (v &&& BitVec.twoPow 64 k != 0) = v.getLsbD k := by
  rw [BitVec.and_twoPow]
  cases hb : v.getLsbD k with
  | false => rfl
  | true =>
    rw [if_pos rfl, bne_iff_ne]
    intro hz
    have h := congrArg (fun z => z.getLsbD k) hz
    simp [hk] at h

lemma sign_extended (hn : n ≤ 64) : (x.setWidth 64 >>> (n - 1) != 0) = x.msb := by
  have hpow : 2 ^ n ≤ 2 ^ 64 := Nat.pow_le_pow_right (by omega) hn
  have hv : (x.setWidth 64 >>> (n - 1)).toNat = x.toNat / 2 ^ (n - 1) := by
    rw [BitVec.toNat_ushiftRight, Nat.shiftRight_eq_div_pow, BitVec.toNat_setWidth,
      Nat.mod_eq_of_lt (Nat.lt_of_lt_of_le x.isLt hpow)]
  rw [BitVec.msb_eq_decide, Bool.eq_iff_iff, bne_iff_ne, decide_eq_true_eq, Ne, ← BitVec.toNat_inj, hv,
    show (0 : BitVec 64).toNat = 0 from rfl, Nat.div_eq_zero_iff]
  have := Nat.two_pow_pos (n - 1)
  omega

lemma getLsbD_top (h0 : 0 < n) (hn : n ≤ 64) : (x.setWidth 64).getLsbD (n - 1) = x.msb := by
  rw [BitVec.getLsbD_setWidth, BitVec.msb_eq_getLsbD_last, decide_eq_true (by omega), Bool.true_and]

lemma add_overflow (h0 : 0 < n) (hn : n ≤ 64) :
    (~~~(x.setWidth 64 ^^^ y.setWidth 64) &&& (x.setWidth 64 ^^^ (x + y).setWidth 64) &&& BitVec.twoPow 64 (n - 1) != 0) =
      x.saddOverflow y := by
  rw [and_twoPow_ne _ (by omega), BitVec.saddOverflow_eq, BitVec.getLsbD_and, BitVec.getLsbD_not, BitVec.getLsbD_xor,
    BitVec.getLsbD_xor, getLsbD_top x h0 hn, getLsbD_top y h0 hn, getLsbD_top _ h0 hn, decide_eq_true (by omega)]
  cases x.msb <;> cases y.msb <;> cases (x + y).msb <;> rfl

lemma sub_overflow (h0 : 0 < n) (hn : n ≤ 64) :
    ((x.setWidth 64 ^^^ y.setWidth 64) &&& (x.setWidth 64 ^^^ (x - y).setWidth 64) &&& BitVec.twoPow 64 (n - 1) != 0) =
      x.ssubOverflow y := by
  rw [and_twoPow_ne _ (by omega), BitVec.ssubOverflow_eq, BitVec.getLsbD_and, BitVec.getLsbD_xor,
    BitVec.getLsbD_xor, getLsbD_top x h0 hn, getLsbD_top y h0 hn, getLsbD_top _ h0 hn]
  cases x.msb <;> cases y.msb <;> cases (x - y).msb <;> rfl

end Widths

/-! ### The routines on operands of a width -/

section Sizes

variable {size : Nat} (hsize : Sized size) (a b r : BitVec 64)

lemma truncSz_idem (v : BitVec 64) : truncSz (truncSz v size) size = truncSz v size :=
  (SameLow.truncSz_left size v).trunc

lemma zeroOf_eq : zeroOf r size = (r.setWidth (szBits size) == 0) := by
  rw [zeroOf, truncSz_eq_setWidth, zero_extended _ (szBits_le size)]

include hsize

lemma szBits_pos : 0 < szBits size ∧ 4 < szBits size ∧ size * 8 = szBits size := by
  rcases hsize with rfl | rfl | rfl | rfl <;> decide

lemma signBit_eq : signBit size = BitVec.twoPow 64 (szBits size - 1) := by
  rcases hsize with rfl | rfl | rfl | rfl <;> decide

lemma getLsbD_truncSz (v : BitVec 64) {i : Nat} (hi : i < 8) : (truncSz v size).getLsbD i = v.getLsbD i := by
  have hn : i < szBits size := by rcases hsize with rfl | rfl | rfl | rfl <;> simp only [szBits] <;> omega
  rw [truncSz_eq_setWidth, BitVec.getLsbD_setWidth, BitVec.getLsbD_setWidth, decide_eq_true hn,
    decide_eq_true (by omega), Bool.true_and, Bool.true_and]

lemma signOf_eq : signOf r size = (r.setWidth (szBits size)).msb := by
  rw [signOf, truncSz_eq_setWidth, (szBits_pos hsize).2.2, sign_extended _ (szBits_le size)]

/-- The parity of a result is that of its low byte, however wide the rest. -/
lemma parityOf_eq : parityOf r size = evenLow r := by
  unfold parityOf
  rw [← evenLow, evenLow_eq, evenLow_eq, getLsbD_fold, getLsbD_fold]
  simp only [getLsbD_truncSz hsize r (show 0 < 8 by omega), getLsbD_truncSz hsize r (show 1 < 8 by omega),
    getLsbD_truncSz hsize r (show 2 < 8 by omega), getLsbD_truncSz hsize r (show 3 < 8 by omega),
    getLsbD_truncSz hsize r (show 4 < 8 by omega), getLsbD_truncSz hsize r (show 5 < 8 by omega),
    getLsbD_truncSz hsize r (show 6 < 8 by omega), getLsbD_truncSz hsize r (show 7 < 8 by omega)]

lemma adjust_eq : ((truncSz a size ^^^ truncSz b size ^^^ truncSz r size) &&& 0x10 != 0) = (a ^^^ b ^^^ r).getLsbD 4 := by
  rw [show (0x10 : BitVec 64) = BitVec.twoPow 64 4 from rfl, and_twoPow_ne _ (by omega)]
  simp only [BitVec.getLsbD_xor, getLsbD_truncSz hsize _ (show 4 < 8 by omega)]

end Sizes

section Operations

variable {size : Nat} (hsize : size = 4 ∨ size = 8) (a b r : BitVec 64)
include hsize

lemma nzcv_add (sub : Bool) : setNzcv true sub (size == 4) a b r =
    Nzcv.ofAdd (a.setWidth (szBits size)) (b.setWidth (szBits size)) := by
  rcases hsize with rfl | rfl
  · rfl
  · show Nzcv.ofAdd a b = Nzcv.ofAdd (a.setWidth 64) (b.setWidth 64)
    rw [BitVec.setWidth_eq, BitVec.setWidth_eq]

lemma nzcv_sub : setNzcv false true (size == 4) a b r =
    Nzcv.ofSub (a.setWidth (szBits size)) (b.setWidth (szBits size)) := by
  rcases hsize with rfl | rfl
  · rfl
  · show Nzcv.ofSub a b = Nzcv.ofSub (a.setWidth 64) (b.setWidth 64)
    rw [BitVec.setWidth_eq, BitVec.setWidth_eq]

lemma nzcv_and : setNzcv false false (size == 4) a b r =
    Nzcv.ofAnd (r.setWidth (szBits size)) (r.setWidth (szBits size)) := by
  rcases hsize with rfl | rfl
  · rfl
  · show Nzcv.ofAnd r r = Nzcv.ofAnd (r.setWidth 64) (r.setWidth 64)
    rw [BitVec.setWidth_eq]

lemma flagsAdd_need (f need : BitVec 32) (sub : Bool) (hsub : sub = false) (hneed : need &&& ~~~flAll = 0)
    (hr : SameLow size r (a + b)) :
    flagsAdd f a b r size &&& need = (inlineStatus true sub false (size == 4) a b r).word &&& need := by
  have hle := szBits_le size
  obtain ⟨h0, -, -⟩ := szBits_pos (.wide hsize)
  have hsum : r.setWidth (szBits size) = a.setWidth (szBits size) + b.setWidth (szBits size) := by
    rw [← BitVec.setWidth_add _ _ hle]
    exact hr
  have hcf : decide (truncSz r size < truncSz a size) =
      (a.setWidth (szBits size)).uaddOverflow (b.setWidth (szBits size)) := by
    rw [truncSz_eq_setWidth, truncSz_eq_setWidth, hsum, add_carry _ _ hle]
  have hof : (~~~(truncSz a size ^^^ truncSz b size) &&& (truncSz a size ^^^ truncSz r size) &&& signBit size != 0) =
      (a.setWidth (szBits size)).saddOverflow (b.setWidth (szBits size)) := by
    rw [truncSz_eq_setWidth, truncSz_eq_setWidth, truncSz_eq_setWidth, hsum, signBit_eq (.wide hsize),
      add_overflow _ _ h0 hle]
  have hstatus : inlineStatus true sub false (size == 4) a b r =
      ⟨decide (truncSz r size < truncSz a size), zeroOf r size, signOf r size,
        ~~~(truncSz a size ^^^ truncSz b size) &&& (truncSz a size ^^^ truncSz r size) &&& signBit size != 0,
        parityOf r size, (truncSz a size ^^^ truncSz b size ^^^ truncSz r size) &&& 0x10 != 0⟩ := by
    rw [hcf, hof, zeroOf_eq, signOf_eq (.wide hsize), parityOf_eq (.wide hsize), adjust_eq (.wide hsize), hsum]
    unfold inlineStatus
    rw [nzcv_add hsize, hsub]
    rfl
  rw [hstatus]
  have h := flagsArith_need f need (truncSz a size) (truncSz b size) (truncSz r size) size
    (decide (truncSz r size < truncSz a size))
    (~~~(truncSz a size ^^^ truncSz b size) &&& (truncSz a size ^^^ truncSz r size) &&& signBit size != 0) hneed
  simp only [zeroOf, signOf, parityOf, truncSz_idem] at h ⊢
  exact h

lemma flagsSub_need (f need : BitVec 32) (hneed : need &&& ~~~flAll = 0) (hr : SameLow size r (a - b)) :
    flagsSub f a b r size &&& need = (inlineStatus false true false (size == 4) a b r).word &&& need := by
  have hle := szBits_le size
  obtain ⟨h0, -, -⟩ := szBits_pos (.wide hsize)
  have hdiff : r.setWidth (szBits size) = a.setWidth (szBits size) - b.setWidth (szBits size) := by
    rw [BitVec.sub_eq_add_neg, ← BitVec.setWidth_neg_of_le hle, ← BitVec.setWidth_add _ _ hle, ← BitVec.sub_eq_add_neg]
    exact hr
  have hcf : decide (truncSz a size < truncSz b size) =
      (a.setWidth (szBits size)).usubOverflow (b.setWidth (szBits size)) := by
    rw [truncSz_eq_setWidth, truncSz_eq_setWidth, sub_borrow _ _ hle]
  have hof : ((truncSz a size ^^^ truncSz b size) &&& (truncSz a size ^^^ truncSz r size) &&& signBit size != 0) =
      (a.setWidth (szBits size)).ssubOverflow (b.setWidth (szBits size)) := by
    rw [truncSz_eq_setWidth, truncSz_eq_setWidth, truncSz_eq_setWidth, hdiff, signBit_eq (.wide hsize),
      sub_overflow _ _ h0 hle]
  have hstatus : inlineStatus false true false (size == 4) a b r =
      ⟨decide (truncSz a size < truncSz b size), zeroOf r size, signOf r size,
        (truncSz a size ^^^ truncSz b size) &&& (truncSz a size ^^^ truncSz r size) &&& signBit size != 0,
        parityOf r size, (truncSz a size ^^^ truncSz b size ^^^ truncSz r size) &&& 0x10 != 0⟩ := by
    rw [hcf, hof, zeroOf_eq, signOf_eq (.wide hsize), parityOf_eq (.wide hsize), adjust_eq (.wide hsize), hdiff]
    unfold inlineStatus
    rw [nzcv_sub hsize]
    simp [A64Cond.holds, Nzcv.ofSub]
  rw [hstatus]
  have h := flagsArith_need f need (truncSz a size) (truncSz b size) (truncSz r size) size
    (decide (truncSz a size < truncSz b size))
    ((truncSz a size ^^^ truncSz b size) &&& (truncSz a size ^^^ truncSz r size) &&& signBit size != 0) hneed
  simp only [zeroOf, signOf, parityOf, truncSz_idem] at h ⊢
  exact h

lemma flagsLogic_status (f need : BitVec 32) (hneed : need &&& ~~~flLogic = 0) :
    flagsLogic f r size &&& need = (inlineStatus false false true (size == 4) a b r).word &&& need := by
  have hstatus : inlineStatus false false true (size == 4) a b r =
      ⟨false, zeroOf r size, signOf r size, false, parityOf r size, (a ^^^ b ^^^ r).getLsbD 4⟩ := by
    rw [zeroOf_eq, signOf_eq (.wide hsize), parityOf_eq (.wide hsize)]
    unfold inlineStatus
    rw [nzcv_and hsize]
    simp [Nzcv.ofAnd]
  rw [hstatus, flagsLogic_need f need r size _ hneed]

end Operations

/-! ### Emission -/

lemma put_of_not_full {i : A64} {b : Buf} (h : (put i b).2.full = false) :
    b.full = false ∧ (put i b).2 = { b with out := b.out ++ [i] } := by
  unfold put at h ⊢
  rw [Prog.modify_apply] at h ⊢
  by_cases hfull : b.max ≤ b.n
  · simp only [if_pos hfull] at h
    exact absurd h.symm Bool.false_ne_true
  · simp only [if_neg hfull] at h ⊢
    exact ⟨h, trivial⟩

/-- What a sequence of words looks like in a buffer it did not fill. -/
lemma puts_of_not_full {l : List A64} {b : Buf} (h : (puts l b).2.full = false) :
    b.full = false ∧ (puts l b).2 = { b with out := b.out ++ l } := by
  induction l generalizing b with
  | nil => exact ⟨h, by rw [List.append_nil]; rfl⟩
  | cons i l ih =>
    obtain ⟨h1, h2⟩ := ih (b := (put i b).2) h
    obtain ⟨h3, h4⟩ := put_of_not_full h1
    refine ⟨h3, h2.trans ?_⟩
    rw [h4, List.append_assoc]
    rfl

/-! ### The sequence against the routines -/

/-- The flags word that the interpreter's routine makes of the operands and the result. -/
def flagRoutine (fn : Helper) (f : BitVec 32) (a b r : BitVec 64) (size : Nat) : BitVec 32 :=
  match fn with
  | .flagsAdd => flagsAdd f a b r size
  | .flagsSub => flagsSub f a b r size
  | .flagsLogic => flagsLogic f r size
  | .flagsInc => flagsInc f a r size
  | .flagsDec => flagsDec f a r size
  | _ => f

/-- The code of `put_flags_inline` for a routine. -/
def inlineCode (fn : Helper) (need : BitVec 32) (w : Bool) : List A64 :=
  flagsInlineCode (fn == .flagsAdd || fn == .flagsInc) (fn == .flagsSub || fn == .flagsDec) (fn == .flagsLogic) need w

lemma putFlagsInline_eq {op : Op} {fn : Helper} (hfn : op.helper = some fn) (need : BitVec 32) (w : Bool) (b : Buf) :
    putFlagsInline fn need w b = (true, (puts (inlineCode fn need w) b).2) := by
  unfold putFlagsInline inlineCode
  cases op <;> cases hfn <;> rfl

/-- `inc` and `dec` keep CF, so it is not among the flags wanted from them. -/
lemma keepCarry_need {need g f : BitVec 32} (hneed : need &&& ~~~flInc = 0) :
    ((g &&& ~~~fCF) ||| (f &&& fCF)) &&& need = g &&& need := by
  refine and_need_ext (need_mono hneed (by decide)) fun i hi hbit => ?_
  have hi' : i < 32 := by omega
  have h0 : i ≠ 0 := fun h => absurd (written_of_need hneed hbit) (h ▸ by decide)
  simp only [BitVec.getLsbD_or, BitVec.getLsbD_and, BitVec.getLsbD_not, getLsbD_twoPow_flag hi' 0 fCF rfl, hi', h0,
    decide_true, decide_false, Bool.and_true, Bool.and_false, Bool.or_false, Bool.not_false]

/-- The result of an operation, in 64 bits. -/
def Op.result (op : Op) (a b : BitVec 64) : BitVec 64 :=
  match op with
  | .mov => b
  | .add | .inc => a + b
  | .sub | .cmp | .dec => a - b
  | .and | .test => a &&& b
  | .or => a ||| b
  | .xor => a ^^^ b

/-- What `put_op` leaves in x3: the low half, zero-extended, unless the operation is 64 bits wide. -/
def opValue (o : Insn) (a b : BitVec 64) : BitVec 64 :=
  if o.size = 8 then Op.result o.op a b else ((Op.result o.op a b).setWidth 32).setWidth 64

lemma opCode_step {env : A64Env} {s : A64State} (o : Insn) :
    (opCode o).step env s = some (s.wx x3 (opValue o (s.x x1) (s.x x2))) := by
  have h1 : s.rx x1 = s.x x1 := rx_of_ne (by decide)
  have h2 : s.rx x2 = s.x x2 := rx_of_ne (by decide)
  have hsub (a b : BitVec 64) : (a - b).setWidth 32 = a.setWidth 32 - b.setWidth 32 := by
    rw [BitVec.sub_eq_add_neg, BitVec.setWidth_add _ _ (by omega), BitVec.setWidth_neg_of_le (by omega),
      ← BitVec.sub_eq_add_neg]
  unfold opCode opValue Op.result
  by_cases hsize : o.size = 8
  · have hw : (o.size != 8) = false := by simp [hsize]
    rw [if_pos hsize]
    cases o.op <;> simp only [hw, Bool.false_eq_true, if_false, A64.step, h1, h2]
  · have hw : (o.size != 8) = true := by simp [hsize]
    rw [if_neg hsize]
    cases o.op <;> simp only [hw, if_true, A64.step, A64State.ww, A64State.rw, h1, h2, hsub,
      BitVec.setWidth_add _ _ (show 32 ≤ 64 by omega), BitVec.setWidth_and, BitVec.setWidth_or, BitVec.setWidth_xor]

lemma opValue_sameLow {o : Insn} (hsize : o.size = 1 ∨ o.size = 4 ∨ o.size = 8) (a b : BitVec 64) :
    SameLow o.size (opValue o a b) (Op.result o.op a b) := by
  unfold opValue
  split
  · exact .refl _ _
  · next h8 =>
    have hle : szBits o.size ≤ 32 := by
      rcases hsize with h | h | h
      · rw [h]; decide
      · rw [h]; decide
      · exact absurd h h8
    apply BitVec.eq_of_getLsbD_eq
    intro i hi
    simp only [BitVec.getLsbD_setWidth, show i < 32 by omega, show i < 64 by omega, decide_true, Bool.true_and]

/-- The status flags from the routine, as far as they are wanted, are those computed in line. -/
lemma flagRoutine_need {op : Op} {fn : Helper} (hfn : op.helper = some fn) {size : Nat} (hsize : size = 4 ∨ size = 8)
    (f need : BitVec 32) {a b r : BitVec 64} (hneed : need &&& ~~~op.flagsWritten = 0)
    (hr : SameLow size r (Op.result op a b)) (hone : op = .inc ∨ op = .dec → b = 1) :
    flagRoutine fn f a b r size &&& need =
      (inlineStatus (fn == .flagsAdd || fn == .flagsInc) (fn == .flagsSub || fn == .flagsDec) (fn == .flagsLogic)
        (size == 4) a b r).word &&& need := by
  cases op with
  | mov => cases hfn
  | add =>
    cases hfn
    exact flagsAdd_need hsize a b r f need false rfl hneed hr
  | sub =>
    cases hfn
    exact flagsSub_need hsize a b r f need hneed hr
  | cmp =>
    cases hfn
    exact flagsSub_need hsize a b r f need hneed hr
  | inc =>
    cases hfn
    obtain rfl := hone (.inl rfl)
    exact (keepCarry_need hneed).trans
      (flagsAdd_need hsize a 1 r f need false rfl (need_mono hneed (by decide)) hr)
  | dec =>
    cases hfn
    obtain rfl := hone (.inr rfl)
    exact (keepCarry_need hneed).trans (flagsSub_need hsize a 1 r f need (need_mono hneed (by decide)) hr)
  | and =>
    cases hfn
    exact flagsLogic_status hsize a b r f need hneed
  | or =>
    cases hfn
    exact flagsLogic_status hsize a b r f need hneed
  | xor =>
    cases hfn
    exact flagsLogic_status hsize a b r f need hneed
  | test =>
    cases hfn
    exact flagsLogic_status hsize a b r f need hneed

/-- The flags that the sequence stores are the routine's where they are wanted and the old ones
elsewhere. `o` is the operation, and x3 holds what `put_op` makes of x1 and x2. The source
operand of `inc` and `dec` is 1. -/
theorem inline_flags_correct (env : A64Env) (s : A64State) (b : Buf) (o : Insn) (fn : Helper) (need : BitVec 32)
    (hfn : o.op.helper = some fn) (hsize : o.size = 4 ∨ o.size = 8) (hneed : need &&& ~~~o.op.flagsWritten = 0)
    (hone : o.op = .inc ∨ o.op = .dec → s.x x2 = 1) (hcpu : s.x cpuReg = env.cpuPtr)
    (hroom : (putFlagsInline fn need (o.size == 4) b).2.full = false) :
    ∃ s1 s2 code, (opCode o).step env s = some s1 ∧
      putFlagsInline fn need (o.size == 4) b = (true, { b with out := b.out ++ code }) ∧ Runs env code s1 s2 ∧
      s2.cpu = { s.cpu with flags := (s.cpu.flags &&& ~~~need) |||
        (flagRoutine fn s.cpu.flags (s.x x1) (s.x x2) (s1.x x3) o.size &&& need) } := by
  rw [putFlagsInline_eq hfn] at hroom ⊢
  obtain ⟨-, hout⟩ := puts_of_not_full hroom
  let s1 := s.wx x3 (opValue o (s.x x1) (s.x x2))
  have h1 : s1.x x1 = s.x x1 := wx_x_of_ne (by decide)
  have h2 : s1.x x2 = s.x x2 := wx_x_of_ne (by decide)
  have h3 : s1.x x3 = opValue o (s.x x1) (s.x x2) := wx_x_same (by decide)
  have hcpu1 : s1.x cpuReg = env.cpuPtr := (wx_x_of_ne (by decide)).trans hcpu
  obtain ⟨s2, hrun, hs2, -⟩ := flagsInline_runs (fn == .flagsAdd || fn == .flagsInc)
    (fn == .flagsSub || fn == .flagsDec) (fn == .flagsLogic) need (o.size == 4) hcpu1
  refine ⟨s1, s2, inlineCode fn need (o.size == 4), opCode_step o, congrArg (Prod.mk true) hout, hrun, ?_⟩
  have hr : SameLow o.size (s1.x x3) (Op.result o.op (s.x x1) (s.x x2)) := by
    rw [h3]
    exact opValue_sameLow (.inr hsize) _ _
  rw [hs2, inlineBits_eq, h1, h2, flagRoutine_need hfn hsize s.cpu.flags need hneed hr hone]
  rw [show s1.cpu = s.cpu from wx_cpu]

/-- A host whose floating point is not used. -/
def sampleA64 : A64Env where
  lk := sampleLink
  fp := sampleFp
  afp := ⟨fun _ x _ => x, fun _ x _ => x, id, id, fun _ _ => ⟨false, false, false, false⟩,
    fun _ _ => ⟨false, false, false, false⟩, id, fun x => x.setWidth 32, fun x => x.setWidth 32, fun x => x.setWidth 64⟩
  cpuPtr := 0x300000
  asPtr := 0x301000
  retAddr := 0x302000
  junk _ := ⟨fun _ => 7, fun _ => 7, ⟨true, true, true, true⟩⟩

/-- `add` of two registers whose upper halves do not matter. -/
def addInsn : Insn := { Insn.zero with kind := .rr, op := .add, size := 4 }

def addState : A64State := enterState sampleA64 ⟨fun r => if r = x1 then 0xdeadbeef80000000 else 0x80000000, fun _ => 0,
  ⟨false, false, false, false⟩⟩ nopCpu

theorem inline_flags_correct_add : ∃ s1 s2 code, (opCode addInsn).step sampleA64 addState = some s1 ∧
    putFlagsInline .flagsAdd flAll true (startBuf false) = (true, { startBuf false with out := code }) ∧
    Runs sampleA64 code s1 s2 ∧
    s2.cpu = { nopCpu with flags := (nopCpu.flags &&& ~~~flAll) |||
      (flagsAdd nopCpu.flags 0xdeadbeef80000000 0x80000000 (s1.x x3) 4 &&& flAll) } :=
  inline_flags_correct sampleA64 addState (startBuf false) addInsn .flagsAdd flAll rfl (.inl rfl) (by decide)
    (fun h => by rcases h with h | h <;> cases h) rfl (by decide)

end Rashid.Proofs
