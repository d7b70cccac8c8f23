import Rashid.A64

/-!
# Running pieces of compiled code

`Runs` says what a piece of code does wherever it stands in a block. Pieces compose, and each
instruction that passes control to the next one is a piece.
-/

namespace Rashid.Proofs

/-- A piece of code that is entered at its start and left at its end. -/
def Runs (env : A64Env) (code : List A64) (s s' : A64State) : Prop :=
  ∀ rest, A64.exec env (code ++ rest) 0 s = A64.exec env rest 0 s'

namespace Runs

variable {env : A64Env} {s s' s'' : A64State}

lemma nil : Runs env [] s s := fun _ => rfl

lemma append {l l' : List A64} (h : Runs env l s s') (h' : Runs env l' s' s'') : Runs env (l ++ l') s s'' := by
  intro rest
  rw [List.append_assoc, h, h']

lemma one {i : A64} (h : i.step env s = some s') : Runs env [i] s s' := by
  intro rest
  have hstep : A64.exec env (i :: rest) 0 s = (i.step env s).bind (A64.exec env rest 0) := by
    cases i with
    | b disp => cases h
    | bcond cond disp => cases h
    | cbzW t disp => cases h
    | ret => cases h
    | _ => rfl
  rw [List.singleton_append, hstep, h, Option.bind_some]

lemma cons {i : A64} {l : List A64} (h : i.step env s = some s') (h' : Runs env l s' s'') :
    Runs env (i :: l) s s'' := (one h).append h'

end Runs

/-! ### Registers -/

section Registers

variable {s : A64State} {r t : A64Reg} {v w : BitVec 64}

lemma rx_of_ne (h : r ≠ zr) : s.rx r = s.x r := if_neg h

lemma wx_of_ne (h : r ≠ zr) : s.wx r v = { s with x := Function.update s.x r v } := if_neg h

lemma wx_x_same (h : r ≠ zr) : (s.wx r v).x r = v := by
  rw [wx_of_ne h]
  exact Function.update_self ..

lemma wx_x_of_ne (h : t ≠ r) : (s.wx r v).x t = s.x t := by
  unfold A64State.wx
  split
  · rfl
  · exact Function.update_of_ne h ..

lemma wx_wx : (s.wx r v).wx r w = s.wx r w := by
  unfold A64State.wx
  split
  · rfl
  · simp only [Function.update_idem]

@[simp] lemma wx_cpu : (s.wx r v).cpu = s.cpu := by
  unfold A64State.wx
  split <;> rfl

@[simp] lemma wx_f : (s.wx r v).f = s.f := by
  unfold A64State.wx
  split <;> rfl

@[simp] lemma wx_d : (s.wx r v).d = s.d := by
  unfold A64State.wx
  split <;> rfl

@[simp] lemma wx_stack : (s.wx r v).stack = s.stack := by
  unfold A64State.wx
  split <;> rfl

@[simp] lemma wx_calls : (s.wx r v).calls = s.calls := by
  unfold A64State.wx
  split <;> rfl

end Registers

/-! ### Constants -/

/-- The low `k` halfwords. -/
def lowHalves (v : BitVec 64) (k : Nat) : BitVec 64 := (v.setWidth (16 * k)).setWidth 64

lemma getLsbD_lowHalves (v : BitVec 64) (k i : Nat) (hi : i < 64) :
    (lowHalves v k).getLsbD i = (decide (i < 16 * k) && v.getLsbD i) := by
  simp [lowHalves, hi]

lemma lowHalves_of_zero {v : BitVec 64} {k : Nat} (h : v >>> (16 * k) = 0) : lowHalves v k = v := by
  apply BitVec.eq_of_getLsbD_eq
  intro i hi
  rw [getLsbD_lowHalves v k i hi]
  by_cases hk : i < 16 * k
  · simp [hk]
  · have hbit := congrArg (fun z => z.getLsbD (i - 16 * k)) h
    simp only [BitVec.getLsbD_ushiftRight] at hbit
    rw [Nat.add_sub_cancel' (Nat.not_lt.mp hk)] at hbit
    simp [hbit]

lemma lowHalves_succ_of_zero {v : BitVec 64} {k : Nat} (h : v >>> (16 * k) = 0) : lowHalves v (k + 1) = lowHalves v k := by
  rw [lowHalves_of_zero h, lowHalves_of_zero]
  rw [Nat.mul_add, BitVec.shiftRight_add, h]
  exact BitVec.zero_ushiftRight

/-- What `movk` makes of the halfwords below its own. -/
lemma movk_lowHalves (v : BitVec 64) (k : Nat) :
    (lowHalves v k &&& ~~~maskBits (16 * k) 16) ||| (((v >>> (16 * k)).setWidth 16).setWidth 64 <<< (16 * k)) =
      lowHalves v (k + 1) := by
  apply BitVec.eq_of_getLsbD_eq
  intro i hi
  simp only [BitVec.getLsbD_or, BitVec.getLsbD_and, BitVec.getLsbD_not, BitVec.getLsbD_shiftLeft,
    BitVec.getLsbD_setWidth, BitVec.getLsbD_ushiftRight, getLsbD_lowHalves v k i hi, getLsbD_lowHalves v (k + 1) i hi,
    maskBits, BitVec.getLsbD_allOnes, hi, decide_true, Bool.true_and]
  by_cases h1 : i < 16 * k
  · simp [h1, show i < 16 * (k + 1) by omega]
  · have h2 : 16 * k + (i - 16 * k) = i := by omega
    by_cases h3 : i < 16 * (k + 1)
    · simp [h1, h2, h3, show i - 16 * k < 16 by omega, show i - 16 * k < 64 by omega]
    · simp [h1, h3, show ¬ i - 16 * k < 16 by omega]

lemma movk_runs {env : A64Env} {s : A64State} {r : A64Reg} {v : BitVec 64} {k : Nat} (hr : r ≠ zr) :
    Runs env (if v >>> (16 * k) ≠ 0 then [.movk r ((v >>> (16 * k)).setWidth 16) k] else [])
      (s.wx r (lowHalves v k)) (s.wx r (lowHalves v (k + 1))) := by
  by_cases hz : v >>> (16 * k) = 0
  · rw [if_neg (not_not.mpr hz), lowHalves_succ_of_zero hz]
    exact Runs.nil
  · rw [if_pos hz]
    refine Runs.one ?_
    show some ((s.wx r (lowHalves v k)).wx r _) = _
    rw [rx_of_ne hr, wx_x_same hr, wx_wx, movk_lowHalves]

lemma imm_runs {env : A64Env} {s : A64State} {r : A64Reg} (hr : r ≠ zr) (v : BitVec 64) :
    Runs env (immCode r v) s (s.wx r v) := by
  have hz : Runs env [.movz r (v.setWidth 16) 0] s (s.wx r (lowHalves v 1)) := by
    refine Runs.one ?_
    show some (s.wx r (((v.setWidth 16).setWidth 64) <<< 0)) = _
    rw [BitVec.shiftLeft_zero]
    rfl
  have hall : lowHalves v 4 = v := lowHalves_of_zero (BitVec.ushiftRight_eq_zero (Nat.le_refl 64))
  have h := ((hz.append (movk_runs (k := 1) hr)).append (movk_runs (k := 2) hr)).append (movk_runs (k := 3) hr)
  rw [hall] at h
  exact h

end Rashid.Proofs
