import Rashid.JitDecode

/-!
# How far the block compiler's decoder reads

What the decoder says depends on the first 16 bytes alone, which `rsd_jit_lookup` has checked
for execution, and an instruction that it accepts ends before the last of them.
-/

namespace Rashid.Proofs

/-- Two byte strings that agree on their first `k` bytes. -/
def SameBytes (k : Nat) (p q : Code) : Prop := ∀ i < k, p i = q i

section Reads

variable {k : Nat} {p q : Code} (h : SameBytes k p q)
include h

lemma i8_congr {n : Nat} (hn : n + 1 ≤ k) : p.i8 n = q.i8 n := by
  simp only [Code.i8, h n (by omega)]

lemma u32_congr {n : Nat} (hn : n + 4 ≤ k) : p.u32 n = q.u32 n := by
  simp only [Code.u32, h n (by omega), h (n + 1) (by omega), h (n + 2) (by omega), h (n + 3) (by omega)]

lemma i32_congr {n : Nat} (hn : n + 4 ≤ k) : p.i32 n = q.i32 n := by
  simp only [Code.i32, u32_congr h hn]

lemma u64_congr {n : Nat} (hn : n + 8 ≤ k) : p.u64 n = q.u64 n := by
  simp only [Code.u64, h n (by omega), h (n + 1) (by omega), h (n + 2) (by omega), h (n + 3) (by omega),
    h (n + 4) (by omega), h (n + 5) (by omega), h (n + 6) (by omega), h (n + 7) (by omega)]

lemma eaDisp_congr {n : Nat} {mod : BitVec 8} {e : Ea} (hn : n + 4 ≤ k) :
    eaDisp p n mod e = eaDisp q n mod e := by
  simp only [eaDisp, i8_congr h (n := n) (by omega), i32_congr h hn]

lemma eaSib_congr {n : Nat} {rex mod : BitVec 8} (hn : n + 5 ≤ k) : eaSib p n rex mod = eaSib q n rex mod := by
  simp only [eaSib, h n (by omega), i32_congr h (n := n + 1) (by omega)]

end Reads

lemma eaDisp_end (p : Code) (n : Nat) (mod : BitVec 8) (e : Ea) :
    (eaDisp p n mod e).1 ≤ n + 4 ∧ (mod = 0 → (eaDisp p n mod e).1 = n) := by
  unfold eaDisp
  split
  · next h => exact ⟨by simp, by simp [h]⟩
  · split
    · next h => exact ⟨by simp, by simp [h]⟩
    · exact ⟨by simp, by simp⟩

/-- Either the SIB byte alone has been read, or a displacement too and then there is none left. -/
lemma eaSib_end (p : Code) (n : Nat) (rex mod : BitVec 8) :
    (eaSib p n rex mod).1 = n + 1 ∨ ((eaSib p n rex mod).1 = n + 5 ∧ mod = 0) := by
  unfold eaSib
  simp only
  split
  · next h => exact .inr ⟨rfl, h.2⟩
  · exact .inl rfl

lemma modrmMem_end (p : Code) (n : Nat) (rex m : BitVec 8) : (modrmMem p n rex m).1 ≤ n + 5 := by
  unfold modrmMem
  simp only
  split
  · have hd := eaDisp_end p (eaSib p n rex (m >>> 6)).1 (m >>> 6) (eaSib p n rex (m >>> 6)).2
    rcases eaSib_end p n rex (m >>> 6) with hs | ⟨hs, h0⟩
    · omega
    · exact Nat.le_of_eq ((hd.2 h0).trans hs)
  · split
    · next h => rw [(eaDisp_end p _ _ _).2 h.2]; omega
    · exact Nat.le_succ_of_le (eaDisp_end p n _ _).1

lemma modrmMem_congr {k n : Nat} {p q : Code} (h : SameBytes k p q) (rex m : BitVec 8) (hn : n + 9 ≤ k) :
    modrmMem p n rex m = modrmMem q n rex m := by
  have hs : eaSib p n rex (m >>> 6) = eaSib q n rex (m >>> 6) := eaSib_congr h (by omega)
  have hd : eaDisp p (eaSib q n rex (m >>> 6)).1 (m >>> 6) (eaSib q n rex (m >>> 6)).2 =
      eaDisp q (eaSib q n rex (m >>> 6)).1 (m >>> 6) (eaSib q n rex (m >>> 6)).2 := by
    refine eaDisp_congr h ?_
    rcases eaSib_end q n rex (m >>> 6) with hs | ⟨hs, -⟩ <;> omega
  simp only [modrmMem, hs, hd, eaDisp_congr h (n := n) (by omega), eaDisp_congr h (n := n + 4) (by omega),
    i32_congr h (n := n) (by omega)]

lemma withRm_end (p : Code) (n : Nat) (rex : BitVec 8) (o : Insn) (f : Fin 16 → Insn) :
    (withRm p n rex o f).1 ≤ n + 6 := by
  have hm := modrmMem_end p (n + 1) rex (p n)
  unfold withRm
  simp only
  split
  · simp
  · exact hm

lemma withRm_congr {k n : Nat} {p q : Code} (h : SameBytes k p q) (rex : BitVec 8) (o : Insn) (f : Fin 16 → Insn)
    (hn : n + 10 ≤ k) : withRm p n rex o f = withRm q n rex o f := by
  simp only [withRm, h n (by omega), modrmMem_congr h (n := n + 1) rex (q n) (by omega)]

lemma decImm_congr {k n size : Nat} {p q : Code} (h : SameBytes k p q) (hn : n + 4 ≤ k) :
    decImm p n size = decImm q n size := by
  simp only [decImm, h n (by omega), i32_congr h hn]

lemma decImm8_congr {k n size : Nat} {p q : Code} (h : SameBytes k p q) (hn : n + 1 ≤ k) :
    decImm8 p n size = decImm8 q n size := by
  simp only [decImm8, i8_congr h hn]

lemma decImm_end (p : Code) (n size : Nat) : (decImm p n size).1 ≤ n + 4 := by
  unfold decImm
  split <;> simp

section Cases

variable {p q : Code} {n : Nat} (h : SameBytes 16 p q) (hn : n ≤ 4) (rex op mand : BitVec 8) (o : Insn)

include h hn in
lemma decAluRow_congr : decAluRow p n rex op o = decAluRow q n rex op o := by
  simp only [decAluRow, h n (by omega), withRm_congr h rex _ _ (n := n) (by omega)]

include h hn in
lemma decGrp1_congr : decGrp1 p n rex op o = decGrp1 q n rex op o := by
  have hend := withRm_end q n rex
  have himm (g f) (size : Nat) : decImm p (withRm q n rex g f).1 size = decImm q (withRm q n rex g f).1 size :=
    decImm_congr h (by have := hend g f; omega)
  have himm8 (g f) (size : Nat) : decImm8 p (withRm q n rex g f).1 size = decImm8 q (withRm q n rex g f).1 size :=
    decImm8_congr h (by have := hend g f; omega)
  simp only [decGrp1, h n (by omega), withRm_congr h rex _ _ (n := n) (by omega), himm, himm8]

include h hn in
lemma decEax_congr : decEax p n op o = decEax q n op o := by
  simp only [decEax, decImm_congr h (n := n) (by omega)]

include h hn in
lemma decMovRegImm_congr : decMovRegImm p n rex op o = decMovRegImm q n rex op o := by
  simp only [decMovRegImm, u64_congr h (n := n) (by omega), u32_congr h (n := n) (by omega)]

include h hn in
lemma decShift_congr : decShift p n rex op o = decShift q n rex op o := by
  have hb (g f) : p (withRm q n rex g f).1 = q (withRm q n rex g f).1 :=
    h _ (by have := withRm_end q n rex g f; omega)
  simp only [decShift, h n (by omega), withRm_congr h rex _ _ (n := n) (by omega), hb]

include h hn in
lemma decImulImm_congr : decImulImm p n rex op o = decImulImm q n rex op o := by
  have h8 (g f) : p.i8 (withRm q n rex g f).1 = q.i8 (withRm q n rex g f).1 :=
    i8_congr h (by have := withRm_end q n rex g f; omega)
  have h32 (g f) : p.i32 (withRm q n rex g f).1 = q.i32 (withRm q n rex g f).1 :=
    i32_congr h (by have := withRm_end q n rex g f; omega)
  simp only [decImulImm, h n (by omega), withRm_congr h rex _ _ (n := n) (by omega), h8, h32]

include h hn in
lemma decodeSse_congr : decodeSse p n rex mand op o = decodeSse q n rex mand op o := by
  have hb (g f) : p (withRm q n rex g f).1 = q (withRm q n rex g f).1 :=
    h _ (by have := withRm_end q n rex g f; omega)
  simp only [decodeSse, h n (by omega), withRm_congr h rex _ _ (n := n) (by omega), hb]

include h in
lemma decTwoByte_congr (hn : n ≤ 3) : decTwoByte p n rex mand o = decTwoByte q n rex mand o := by
  have hrm := withRm_congr h rex (n := n + 1)
  simp only [decTwoByte, decImul, decSetcc, decMovx, decNop, h n (by omega), h (n + 1) (by omega),
    hrm _ _ (by omega), i32_congr h (n := n + 1) (by omega), decodeSse_congr h (n := n + 1) (by omega)]

include h in
lemma decOp_congr (hn : n ≤ 3) : decOp p n rex mand op o = decOp q n rex mand op o := by
  simp only [decOp, decMovRegImm8, decLea, decGrp5, h n (by omega), withRm_congr h rex _ _ (n := n) (by omega),
    decAluRow_congr h (n := n) (by omega), decGrp1_congr h (n := n) (by omega), decEax_congr h (n := n) (by omega),
    decMovRegImm_congr h (n := n) (by omega), decShift_congr h (n := n) (by omega),
    decImulImm_congr h (n := n) (by omega), decTwoByte_congr h rex mand o hn,
    i8_congr h (n := n) (by omega), i32_congr h (n := n) (by omega)]

end Cases

section Ends

variable {p : Code} {n : Nat} {rex op mand : BitVec 8} {o : Insn} {r : Nat × Insn}

lemma decAluRow_end (h : decAluRow p n rex op o = some r) : r.1 ≤ n + 6 := by
  cases h
  exact withRm_end ..

lemma decGrp1_end (h : decGrp1 p n rex op o = some r) : r.1 ≤ n + 10 := by
  simp only [decGrp1] at h
  generalize hsz : (if op = 0x80 ∨ op = 0xC6 then 1 else o.size) = size at h
  generalize hw : withRm p n rex { o with kind := .mi, size := size }
    (fun rm => { o with kind := .ri, size := size, reg := rm }) = w at h
  have hend : w.1 ≤ n + 6 := by
    rw [← hw]
    exact withRm_end ..
  generalize hi : (if op = 0x83 then decImm8 p w.1 size else decImm p w.1 size) = i at h
  have himm : i.1 ≤ n + 10 := by
    rw [← hi]
    split
    · exact Nat.le_trans (Nat.add_le_add_right hend 1) (by omega)
    · exact Nat.le_trans (decImm_end ..) (by omega)
  repeat' split at h
  all_goals cases h
  all_goals exact himm

lemma decEax_end (h : decEax p n op o = some r) : r.1 ≤ n + 4 := by
  cases h
  exact decImm_end ..

lemma decMovRegImm_end (h : decMovRegImm p n rex op o = some r) : r.1 ≤ n + 8 := by
  simp only [decMovRegImm] at h
  split at h <;> cases h <;> simp

lemma decShift_end (h : decShift p n rex op o = some r) : r.1 ≤ n + 7 := by
  simp only [decShift] at h
  generalize hsz : (if op = 0xC0 ∨ op = 0xD0 ∨ op = 0xD2 then 1 else o.size) = size at h
  generalize hw : withRm p n rex _ _ = w at h
  have hend : w.1 ≤ n + 6 := by
    rw [← hw]
    exact withRm_end ..
  repeat' split at h
  all_goals cases h
  all_goals simp only
  all_goals omega

lemma decImulImm_end (h : decImulImm p n rex op o = some r) : r.1 ≤ n + 10 := by
  simp only [decImulImm] at h
  generalize hw : withRm p n rex _ _ = w at h
  have hend : w.1 ≤ n + 6 := by
    rw [← hw]
    exact withRm_end ..
  split at h <;> cases h <;> simp only <;> omega

lemma decLea_end (h : decLea p n rex o = some r) : r.1 ≤ n + 6 := by
  simp only [decLea] at h
  split at h <;> cases h
  exact withRm_end ..

lemma decPushPop_end (h : decPushPop n rex op o = some r) : r.1 = n := by
  simp only [decPushPop] at h
  split at h <;> cases h
  rfl

lemma decGrp5_end (h : decGrp5 p n rex op o = some r) : r.1 ≤ n + 6 := by
  simp only [decGrp5] at h
  split at h
  · cases h
    exact withRm_end ..
  · repeat' split at h
    all_goals cases h
    all_goals exact withRm_end ..

lemma decodeSse_end (h : decodeSse p n rex mand op o = some r) : r.1 ≤ n + 7 := by
  simp only [decodeSse] at h
  generalize hw : withRm p n rex _ _ = w at h
  have hend : w.1 ≤ n + 6 := by
    rw [← hw]
    exact withRm_end ..
  repeat' split at h
  all_goals cases h
  all_goals simp only
  all_goals omega

lemma decTwoByte_end (h : decTwoByte p n rex mand o = some r) : r.1 ≤ n + 8 := by
  have hrm (g f) := withRm_end p (n + 1) rex g f
  simp only [decTwoByte, decNop] at h
  cases hj : jitTwo (p n) <;> simp only [hj] at h
  case sse => exact decodeSse_end h
  all_goals split at h
  all_goals cases h
  case jcc => simp
  all_goals exact Nat.le_succ_of_le (hrm _ _)

lemma decOp_end (h : decOp p n rex mand op o = some r) : r.1 ≤ n + 10 := by
  simp only [decOp] at h
  cases hj : jitClass op <;> simp only [hj] at h
  case aluRow => exact Nat.le_trans (decAluRow_end h) (by omega)
  case grp1 => exact decGrp1_end h
  case eax => exact Nat.le_trans (decEax_end h) (by omega)
  case movRegImm => exact Nat.le_trans (decMovRegImm_end h) (by omega)
  case shift => exact Nat.le_trans (decShift_end h) (by omega)
  case imulImm => exact decImulImm_end h
  case lea => exact Nat.le_trans (decLea_end h) (by omega)
  case pushPop => exact Nat.le_trans (Nat.le_of_eq (decPushPop_end h)) (by omega)
  case twoByte => exact Nat.le_trans (decTwoByte_end h) (by omega)
  case grp5 => exact Nat.le_trans (decGrp5_end h) (by omega)
  case nop =>
    split at h <;> cases h
    simp
  all_goals cases h
  all_goals simp

end Ends

end Rashid.Proofs
