import Rashid.Proofs.InsnLength
import Rashid.Proofs.Widths

/-!
# Writes of 32 bits

A 32-bit result clears the upper half of its register, because every case of the switch that has
one writes it through `setreg`. The cases that come to no write leave the upper half as it was.
-/

namespace Rashid.Proofs

/-- The upper half of a register is clear. -/
def Low32 (i : Fin 16) (c : Cpu) : Prop := c.r i >>> 32 = 0

def Zeroes {α : Type} (i : Fin 16) (p : M α) : Prop := ∀ c, Low32 i (p c).2

def KeepsLow {α : Type} (i : Fin 16) (p : M α) : Prop := ∀ c, Low32 i c → Low32 i (p c).2

section Programs

variable {α β : Type} {i : Fin 16}

lemma zeroes_bind {x : M α} {f : α → M β} (h : ∀ a, Zeroes i (f a)) : Zeroes i (x >>= f) := fun _ => h _ _

lemma zeroes_then {x : M α} {f : α → M β} (hx : Zeroes i x) (hf : ∀ a, KeepsLow i (f a)) : Zeroes i (x >>= f) :=
  fun c => hf _ _ (hx c)

lemma and_low32_ushiftRight (v : BitVec 64) : (v &&& 0xffffffff) >>> 32 = 0 := by
  apply BitVec.eq_of_toNat_eq
  rw [BitVec.toNat_ushiftRight, and_mask_toNat v 32 0xffffffff (by decide), Nat.shiftRight_eq_div_pow]
  exact Nat.div_eq_of_lt (Nat.mod_lt _ (by decide))

lemma setreg_zeroes (v : BitVec 64) : Zeroes i (setreg i v 4) := by
  intro c
  have h : (setreg i v 4 c).2.r i = v &&& 0xffffffff := Function.update_self i _ c.r
  rw [Low32, h]
  exact and_low32_ushiftRight v

lemma setreg_keepsLow (j : Fin 16) (v : BitVec 64) : KeepsLow i (setreg j v 4) := by
  intro c hc
  by_cases hij : i = j
  · rw [← hij]
    exact setreg_zeroes v c
  · have h : (setreg j v 4 c).2.r i = c.r i := Function.update_of_ne hij _ c.r
    rw [Low32, h]
    exact hc

lemma modFlags_keepsLow (g : BitVec 32 → BitVec 32) : KeepsLow i (modFlags g) := fun _ h => h

lemma wr_zeroes (v : BitVec 64) (rex : Bool) : Zeroes i (wr (.reg i) v 4 rex) := setreg_zeroes v

lemma aluExec_zeroes {o : Alu} (a b : BitVec 64) (n : Nat) {w : BitVec 64 → M Unit} (hc : o ≠ .cmp) (ht : o ≠ .test)
    (hw : ∀ r, Zeroes i (w r)) : Zeroes i (aluExec o a b n w) := by
  cases o with
  | cmp => exact absurd rfl hc
  | test => exact absurd rfl ht
  | mov => exact hw b
  | adc | sbb => exact zeroes_bind fun _ => zeroes_bind fun _ => hw _
  | add | or | and | sub | xor => exact zeroes_bind fun _ => hw _

lemma aluWork_zeroes {o : Alu} (src : Opnd) (rex : Bool) (hc : o ≠ .cmp) (ht : o ≠ .test) :
    Zeroes i (aluWork o (.reg i) src 4 rex) :=
  zeroes_bind fun _ => zeroes_bind fun _ => aluExec_zeroes _ _ _ hc ht fun r => wr_zeroes r rex

end Programs

/-! ### One-byte opcodes -/

/-- The destination of an opcode, by its case of the switch. -/
def classDest (op : BitVec 8) : OpClass → Dest
  | .aluRow =>
    if rowSize op 4 = 4 ∧ rowAlu op ≠ .cmp ∧ rowAlu op ≠ .test then (if rowToReg op then .reg else .rm) else .none
  | .aluEax => if op &&& 1 = 0 ∨ eaxAlu op = .cmp then .none else .acc
  | .movsxd | .imulImm | .lea => .reg
  | .xchg => .rmReg
  | .cwde => .acc
  | .cdq => .data
  | .movRegImm => .opcode
  | .shift => if shiftSize op 4 = 4 then .rm else .none
  | .movRmImm => if op = 0xC6 then .none else .rm
  | _ => .none

lemma plainDest_eq : ∀ op : BitVec 8, opClass op ≠ .none → opClass op ≠ .twoByte →
    ¬ op ∈ [0x81#8, 0x83, 0xF7, 0xFF] → plainDest op = classDest op (opClass op) := by
  simp only [opClass_eq]
  decide

lemma rmAt_reg {d e : Dec} {c : Cpu} (h : codeOf c d.p0 d.n >>> 6 = 3) :
    rmAt d e c = .reg (rmField (codeOf c d.p0 d.n) d.rex) := by
  rw [rmAt, rmOpnd, if_pos h]
  rfl

section OneByte

variable {op : BitVec 8} {d : Dec} {c : Cpu} {i : Fin 16}

lemma low32_of_after {e : Dec} {p : M Dec} {body : M Unit} (h : p c = after e body c) (hz : Zeroes i body) :
    Low32 i (p c).2 := by
  rw [h, after_snd]
  exact hz _

/-- The r/m operand as a destination. -/
lemma mem_rm (h : i ∈ Dest.rm.regs op (codeOf c d.p0 d.n) d.rex) (e : Dec) : rmAt d e c = .reg i := by
  simp only [Dest.regs] at h
  by_cases hm : codeOf c d.p0 d.n >>> 6 = 3
  · rw [if_pos hm, List.mem_singleton] at h
    rw [rmAt_reg hm, h]
  · rw [if_neg hm] at h
    cases h

lemma mem_reg (h : i ∈ Dest.reg.regs op (codeOf c d.p0 d.n) d.rex) : rmReg d c = i :=
  (List.mem_singleton.mp h).symm

lemma aluRow_low32 (hsz : d.opsize = 4) (h : i ∈ (classDest op .aluRow).regs op (codeOf c d.p0 d.n) d.rex) :
    Low32 i (stepAluRow op d c).2 := by
  have heq := stepAluRow_eq op d c
  simp only [classDest] at h
  by_cases hd : rowSize op 4 = 4 ∧ rowAlu op ≠ .cmp ∧ rowAlu op ≠ .test
  · obtain ⟨h4, hc, ht⟩ := hd
    rw [if_pos ⟨h4, hc, ht⟩] at h
    rw [hsz, h4] at heq
    refine low32_of_after heq ?_
    by_cases hr : rowToReg op = true
    · rw [if_pos hr] at h
      simp only [if_pos hr, mem_reg h]
      exact aluWork_zeroes _ _ hc ht
    · rw [if_neg hr] at h
      simp only [if_neg hr, mem_rm h]
      exact aluWork_zeroes _ _ hc ht
  · rw [if_neg hd] at h
    cases h

lemma aluEax_low32 (hsz : d.opsize = 4) (h : i ∈ (classDest op .aluEax).regs op (codeOf c d.p0 d.n) d.rex) :
    Low32 i (stepAluEax op d c).2 := by
  have ht : eaxAlu op ≠ .test := by
    unfold eaxAlu
    split <;> decide
  simp only [classDest] at h
  by_cases hd : op &&& 1 = 0 ∨ eaxAlu op = .cmp
  · rw [if_pos hd] at h
    cases h
  · rw [if_neg hd] at h
    obtain ⟨hb, hc⟩ := not_or.mp hd
    have hi : i = rax := List.mem_singleton.mp h
    have hbyte : (op &&& 1 == 0) = false := beq_eq_false_iff_ne.mpr hb
    have heq := stepAluEax_eq op d c
    simp only [hbyte, Bool.false_eq_true, if_false, hsz] at heq
    rw [hi]
    exact low32_of_after heq (zeroes_bind fun _ => aluExec_zeroes _ _ _ hc ht fun r => setreg_zeroes r)

lemma movsxd_low32 (hsz : d.opsize = 4) (h : i ∈ Dest.reg.regs op (codeOf c d.p0 d.n) d.rex) :
    Low32 i (stepMovsxd d c).2 := by
  have heq := stepMovsxd_eq d c
  rw [hsz, mem_reg h] at heq
  exact low32_of_after heq (zeroes_bind fun _ => setreg_zeroes _)

lemma imulImm_low32 (hsz : d.opsize = 4) (h : i ∈ Dest.reg.regs op (codeOf c d.p0 d.n) d.rex) :
    Low32 i (stepImulImm op d c).2 := by
  have heq := stepImulImm_eq op d c
  rw [hsz, mem_reg h] at heq
  exact low32_of_after heq (zeroes_bind fun _ => zeroes_then (setreg_zeroes _) fun _ => modFlags_keepsLow _)

lemma lea_low32 (hsz : d.opsize = 4) (h : i ∈ Dest.reg.regs op (codeOf c d.p0 d.n) d.rex)
    (hf : (stepLea d c).2.fault = none) : Low32 i (stepLea d c).2 := by
  have heq := stepLea_eq d c
  rw [hsz, mem_reg h] at heq
  rw [heq, after_snd] at hf ⊢
  cases hrm : rmAt d (pastRm d c) c with
  | reg j =>
    rw [hrm] at hf
    cases hf
  | mem addr seg => exact setreg_zeroes _ _
  | ripRel disp seg => exact setreg_zeroes _ _

lemma xchg_low32 (hsz : d.opsize = 4) (h : i ∈ Dest.rmReg.regs op (codeOf c d.p0 d.n) d.rex) :
    Low32 i (stepXchg d c).2 := by
  have heq := stepXchg_eq d c
  rw [hsz] at heq
  refine low32_of_after heq (zeroes_bind fun a => zeroes_bind fun b => ?_)
  have hreg (hi : i = rmReg d c) : Zeroes i (wr (.reg (rmReg d c)) a 4 d.hasRex) := hi ▸ wr_zeroes a d.hasRex
  simp only [Dest.regs] at h
  by_cases hm : codeOf c d.p0 d.n >>> 6 = 3
  · rw [if_pos hm, List.mem_cons, List.mem_singleton] at h
    rcases h with hi | hi
    · exact zeroes_bind fun _ => hreg hi
    · rw [rmAt_reg hm, ← hi]
      exact zeroes_then (wr_zeroes b d.hasRex) fun _ => setreg_keepsLow _ _
  · rw [if_neg hm, List.mem_singleton] at h
    exact zeroes_bind fun _ => hreg h

lemma cwde_low32 (hsz : d.opsize = 4) : Low32 rax (stepCwde d c).2 := by
  have heq := stepCwde_eq d c
  rw [hsz] at heq
  exact low32_of_after heq (zeroes_bind fun _ => setreg_zeroes _)

lemma cdq_low32 (hsz : d.opsize = 4) : Low32 rdx (stepCdq d c).2 := by
  have heq := stepCdq_eq d c
  rw [hsz] at heq
  exact low32_of_after heq (zeroes_bind fun _ => setreg_zeroes _)

lemma movRegImm_low32 (hsz : d.opsize = 4) : Low32 (regNo op (rexB d.rex)) (stepMovRegImm op d c).2 := by
  have heq := stepMovRegImm_eq op d c
  rw [hsz] at heq
  exact low32_of_after heq (setreg_zeroes _)

lemma movRmImm_low32 (hsz : d.opsize = 4) (h : i ∈ (classDest op .movRmImm).regs op (codeOf c d.p0 d.n) d.rex) :
    Low32 i (stepMovRmImm op d c).2 := by
  have heq := stepMovRmImm_eq op d c
  simp only [classDest] at h
  by_cases hb : op = 0xC6
  · rw [if_pos hb] at h
    cases h
  · rw [if_neg hb] at h
    simp only [if_neg hb, hsz, mem_rm h] at heq
    exact low32_of_after heq (wr_zeroes _ _)

/-- The count of a shift, masked to five bits. -/
lemma shift_low32 (hsz : d.opsize = 4) (h : i ∈ (classDest op .shift).regs op (codeOf c d.p0 d.n) d.rex)
    (hcnt : (shiftCount (pastRm d c) c (op = 0xC0 ∨ op = 0xC1) (op = 0xD0 ∨ op = 0xD1)).1 &&& 31 ≠ 0)
    (hf : (stepShift op d c).2.fault = none) : Low32 i (stepShift op d c).2 := by
  have heq := stepShift_eq op d c
  simp only [classDest] at h
  by_cases h4 : shiftSize op 4 = 4
  · rw [if_pos h4] at h
    simp only [hsz, h4, mem_rm h] at heq
    rw [heq, after_snd] at hf ⊢
    unfold shiftWork at hf ⊢
    rw [if_neg (show ¬ _ &&& countMask 4 = 0 from hcnt)] at hf ⊢
    by_cases hext : rmExt d c < 4
    · rw [if_pos hext] at hf
      cases hf
    · rw [if_neg hext]
      exact zeroes_bind (fun _ => zeroes_bind fun _ => zeroes_bind fun _ => wr_zeroes _ _) _
  · rw [if_neg h4] at h
    cases h

lemma grp1_low32 (hsz : d.opsize = 4) (hop : op = 0x81 ∨ op = 0x83)
    (h : i ∈ (oneByteDest op (rmExt d c)).regs op (codeOf c d.p0 d.n) d.rex) : Low32 i (stepGrp1 op d c).2 := by
  have halu : ∀ ext : BitVec 8, ext ≤ 7 → ext ≠ 7 → grp1Alu ext ≠ .cmp ∧ grp1Alu ext ≠ .test := by decide
  have hne : ¬ op = 0x80 := by rcases hop with rfl | rfl <;> decide
  unfold oneByteDest at h
  rw [if_pos hop] at h
  by_cases h7 : rmExt d c = 7
  · rw [if_pos h7] at h
    cases h
  · rw [if_neg h7] at h
    obtain ⟨hc, ht⟩ := halu (rmExt d c) (extField_le _) h7
    have heq := stepGrp1_eq op d c
    simp only [if_neg hne, hsz, mem_rm h] at heq
    exact low32_of_after heq (zeroes_bind fun _ => aluExec_zeroes _ _ _ hc ht fun r => wr_zeroes r _)

lemma setProduct_zeroes (q : BitVec 128) (hi : i = rax ∨ i = rdx) : Zeroes i (setProduct q 4) := by
  rcases hi with rfl | rfl
  · exact zeroes_then (setreg_zeroes _) fun _ => setreg_keepsLow _ _
  · exact zeroes_bind fun _ => setreg_zeroes _

lemma setQuotient_zeroes (q r : BitVec 128) (hi : i = rax ∨ i = rdx) : Zeroes i (setQuotient q r 4) := by
  rcases hi with rfl | rfl
  · exact zeroes_then (setreg_zeroes _) fun _ => setreg_keepsLow _ _
  · exact zeroes_bind fun _ => setreg_zeroes _

lemma divide_low32 {a : BitVec 64} {p : M Unit} {rip : BitVec 64} (hp : Zeroes i p) (c : Cpu)
    (hf : ((if a = 0 then raise .divideByZero rip else p) c).2.fault = none) :
    Low32 i ((if a = 0 then raise .divideByZero rip else p) c).2 := by
  by_cases h : a = 0
  · rw [if_pos h] at hf
    cases hf
  · rw [if_neg h]
    exact hp c

lemma grp3Exec_low32 {ext : BitVec 8} (hext : ext ≤ 7) (a imm : BitVec 64) {rm : Opnd} {e : Dec}
    (hi : (ext = 2 ∨ ext = 3) ∧ rm = .reg i ∨ 4 ≤ ext ∧ (i = rax ∨ i = rdx)) (c : Cpu)
    (hf : (grp3Exec ext a imm 4 rm e c).2.fault = none) : Low32 i (grp3Exec ext a imm 4 rm e c).2 := by
  have hcases : ∀ x : BitVec 8, x ≤ 7 → 4 ≤ x → x = 4 ∨ x = 5 ∨ x = 6 ∨ x = 7 := by decide
  rcases hi with ⟨rfl | rfl, rfl⟩ | ⟨h4, hi⟩
  · exact wr_zeroes (~~~a) e.hasRex c
  · exact zeroes_bind (fun _ => wr_zeroes (0 - a) e.hasRex) c
  · rcases hcases ext hext h4 with rfl | rfl | rfl | rfl
    · exact zeroes_bind (fun _ => setProduct_zeroes _ hi) c
    · exact zeroes_bind (fun _ => setProduct_zeroes _ hi) c
    · exact divide_low32 (zeroes_bind fun _ => zeroes_bind fun _ => setQuotient_zeroes _ _ hi) c hf
    · exact divide_low32 (zeroes_bind fun _ => zeroes_bind fun _ => setQuotient_zeroes _ _ hi) c hf

lemma grp3_low32 (hsz : d.opsize = 4)
    (h : i ∈ (oneByteDest 0xF7 (rmExt d c)).regs 0xF7 (codeOf c d.p0 d.n) d.rex)
    (hf : (stepGrp3 0xF7 d c).2.fault = none) : Low32 i (stepGrp3 0xF7 d c).2 := by
  have hcases : ∀ x : BitVec 8, ¬ x < 2 → x < 4 → x = 2 ∨ x = 3 := by decide
  have heq := stepGrp3_eq 0xF7 d c
  simp only [if_neg (show ¬ (0xF7 : BitVec 8) = 0xF6 by decide), hsz] at heq
  rw [heq, after_snd] at hf ⊢
  refine grp3Exec_low32 (extField_le _) _ _ ?_ _ hf
  unfold oneByteDest at h
  rw [if_neg (by decide), if_pos rfl] at h
  by_cases h2 : rmExt d c < 2
  · rw [if_pos h2] at h
    cases h
  rw [if_neg h2] at h
  by_cases h4 : rmExt d c < 4
  · rw [if_pos h4] at h
    exact .inl ⟨hcases _ h2 h4, mem_rm h _⟩
  · rw [if_neg h4] at h
    refine .inr ⟨BitVec.not_lt.mp h4, ?_⟩
    simpa [Dest.regs] using h

lemma grp5_low32 (hsz : d.opsize = 4)
    (h : i ∈ (oneByteDest 0xFF (rmExt d c)).regs 0xFF (codeOf c d.p0 d.n) d.rex) : Low32 i (stepGrp5 0xFF d c).2 := by
  have hcases : ∀ x : BitVec 8, x < 2 → x = 0 ∨ x = 1 := by decide
  unfold oneByteDest at h
  rw [if_neg (by decide), if_neg (by decide), if_pos rfl] at h
  by_cases h2 : rmExt d c < 2
  · rw [if_pos h2] at h
    have heq := stepGrp5_eq 0xFF d c
    simp only [if_neg (show ¬ (0xFF : BitVec 8) = 0xFE by decide), hsz, mem_rm h] at heq
    refine low32_of_after heq (zeroes_bind fun a => ?_)
    rcases hcases _ h2 with h0 | h1
    · rw [h0]
      exact zeroes_bind fun _ => wr_zeroes _ _
    · rw [h1]
      exact zeroes_bind fun _ => wr_zeroes _ _
  · rw [if_neg h2] at h
    cases h

/-- A one-byte opcode that is not a shift by nothing clears the upper half of its destinations. -/
lemma oneByte_low32 (hsz : d.opsize = 4) (h0 : opClass op ≠ .none) (h2 : opClass op ≠ .twoByte)
    (hcnt : opClass op = .shift → shiftSize op 4 = 4 →
      (shiftCount (pastRm d c) c (op = 0xC0 ∨ op = 0xC1) (op = 0xD0 ∨ op = 0xD1)).1 &&& 31 ≠ 0)
    (h : i ∈ (oneByteDest op (rmExt d c)).regs op (codeOf c d.p0 d.n) d.rex)
    (hf : (stepOneByte op d (opClass op) c).2.fault = none) : Low32 i (stepOneByte op d (opClass op) c).2 := by
  by_cases hg : op ∈ [0x81#8, 0x83, 0xF7, 0xFF]
  · simp only [List.mem_cons, List.not_mem_nil, or_false] at hg
    rcases hg with rfl | rfl | rfl | rfl
    · exact grp1_low32 hsz (.inl rfl) h
    · exact grp1_low32 hsz (.inr rfl) h
    · exact grp3_low32 hsz h hf
    · exact grp5_low32 hsz h
  have hd : oneByteDest op (rmExt d c) = classDest op (opClass op) := by
    rw [← plainDest_eq op h0 h2 hg]
    simp only [List.mem_cons, List.not_mem_nil, or_false, not_or] at hg
    have h81 : ¬ (op = 0x81 ∨ op = 0x83) := not_or.mpr ⟨hg.1, hg.2.1⟩
    unfold oneByteDest
    rw [if_neg h81, if_neg hg.2.2.1, if_neg hg.2.2.2]
  rw [hd] at h
  cases hc : opClass op <;> rw [hc] at h hf
  case aluRow => exact aluRow_low32 hsz h
  case aluEax => exact aluEax_low32 hsz h
  case movsxd => exact movsxd_low32 hsz h
  case imulImm => exact imulImm_low32 hsz h
  case xchg => exact xchg_low32 hsz h
  case lea => exact lea_low32 hsz h hf
  case cwde => exact List.mem_singleton.mp h ▸ cwde_low32 hsz
  case cdq => exact List.mem_singleton.mp h ▸ cdq_low32 hsz
  case movRegImm => exact List.mem_singleton.mp h ▸ movRegImm_low32 hsz
  case shift =>
    have h4 : shiftSize op 4 = 4 := by
      by_contra h4
      simp only [classDest, if_neg h4] at h
      cases h
    exact shift_low32 hsz h (hcnt hc h4) hf
  case movRmImm => exact movRmImm_low32 hsz h
  all_goals cases h

/-- A shift by nothing leaves every register alone. -/
lemma shift_idle (hsz : d.opsize = 4) (h4 : shiftSize op 4 = 4)
    (hcnt : (shiftCount (pastRm d c) c (op = 0xC0 ∨ op = 0xC1) (op = 0xD0 ∨ op = 0xD1)).1 &&& 31 = 0) :
    (stepShift op d c).2.r = c.r := by
  have heq := stepShift_eq op d c
  simp only [hsz, h4] at heq
  rw [heq, after_snd, shiftWork, if_pos (show _ &&& countMask 4 = 0 from hcnt)]
  rfl

end OneByte

/-! ### Two-byte opcodes -/

lemma twoByteDest_eq : ∀ op : BitVec 8, twoByteDest op = match twoClass op with
    | .cmov | .imul | .movx => .reg
    | .shld => .rm
    | _ => .none := by
  simp only [twoClass_eq]
  decide

section TwoByte

variable {op : BitVec 8} {d : Dec} {c : Cpu} {i : Fin 16}

lemma cmov_low32 (hsz : d.opsize = 4) (hcond : cond c.flags (op &&& 0xF) = true)
    (h : i ∈ Dest.reg.regs op (codeOf c d.p0 d.n) d.rex) : Low32 i (stepCmov op d c).2 := by
  have heq := stepCmov_eq op d c
  rw [hsz, mem_reg h] at heq
  rw [heq, after_snd]
  have hf : rdFlags { c with rip := decRip (pastRm d c) } = (c.flags, { c with rip := decRip (pastRm d c) }) := rfl
  unfold cmovWork
  rw [Prog.bind_eval hf, if_pos hcond]
  exact zeroes_bind (fun _ => setreg_zeroes _) _

lemma cmov_idle (hcond : cond c.flags (op &&& 0xF) = false) : (stepCmov op d c).2.r = c.r := by
  have hf : rdFlags { c with rip := decRip (pastRm d c) } = (c.flags, { c with rip := decRip (pastRm d c) }) := rfl
  rw [stepCmov_eq, after_snd]
  unfold cmovWork
  rw [Prog.bind_eval hf, hcond]
  rfl

lemma shld_low32 (hsz : d.opsize = 4) (h : i ∈ Dest.rm.regs op (codeOf c d.p0 d.n) d.rex)
    (hcnt : (shiftCount (pastRm d c) c (op = 0xA4 ∨ op = 0xAC) false).1 &&& 31 ≠ 0) : Low32 i (stepShld op d c).2 := by
  have heq := stepShld_eq op d c
  simp only [hsz, mem_rm h] at heq
  have hne : ¬ ((shiftCount (pastRm d c) c (op = 0xA4 ∨ op = 0xAC) false).1 &&& countMask 4).toNat = 0 :=
    fun h0 => hcnt (BitVec.eq_of_toNat_eq h0)
  refine low32_of_after heq ?_
  unfold shldWork
  rw [if_neg hne]
  exact zeroes_bind fun _ => zeroes_bind fun _ => zeroes_bind fun _ => wr_zeroes _ _

lemma shld_idle (hsz : d.opsize = 4)
    (hcnt : (shiftCount (pastRm d c) c (op = 0xA4 ∨ op = 0xAC) false).1 &&& 31 = 0) : (stepShld op d c).2.r = c.r := by
  have heq := stepShld_eq op d c
  simp only [hsz] at heq
  rw [heq, after_snd, shldWork, if_pos (show (_ &&& countMask 4).toNat = 0 from congrArg BitVec.toNat hcnt)]
  rfl

lemma imul_low32 (hsz : d.opsize = 4) (h : i ∈ Dest.reg.regs op (codeOf c d.p0 d.n) d.rex) :
    Low32 i (stepImul d c).2 := by
  have heq := stepImul_eq d c
  rw [hsz, mem_reg h] at heq
  exact low32_of_after heq
    (zeroes_bind fun _ => zeroes_bind fun _ => zeroes_then (setreg_zeroes _) fun _ => modFlags_keepsLow _)

lemma movx_low32 (hsz : d.opsize = 4) (h : i ∈ Dest.reg.regs op (codeOf c d.p0 d.n) d.rex) :
    Low32 i (stepMovx op d c).2 := by
  have heq := stepMovx_eq op d c
  rw [hsz, mem_reg h] at heq
  exact low32_of_after heq (zeroes_bind fun _ => setreg_zeroes _)

/-! ### SSE -/

lemma gwr_zeroes (v : BitVec 64) : Zeroes i (gwr (.reg i) v 4) := setreg_zeroes v

lemma low32_of_handles {e : Dec} {p : M (Bool × Dec)} {body : M Unit} (h : Handles c p e body)
    (hh : (p c).1.1 = true) (hz : Zeroes i body) : Low32 i (p c).2 := by
  rcases h with hno | heq
  · rw [hno] at hh
    cases hh
  · rw [heq]
    exact hz _

lemma movdOut_low32 (hmand : d.mand = 0x66) (hW : rexW d.rex = false)
    (h : i ∈ Dest.rm.regs op (codeOf c d.p0 d.n) d.rex) (hh : (sseMovdOut d c).1.1 = true) :
    Low32 i (sseMovdOut d c).2 := by
  refine low32_of_handles (sseMovdOut_handles d c) hh ?_
  rw [hW, mem_rm h, hmand]
  exact zeroes_bind fun _ => gwr_zeroes _

lemma cvtTo_low32 (fp : Fp) (hW : rexW d.rex = false) (h : i ∈ Dest.reg.regs op (codeOf c d.p0 d.n) d.rex)
    (hh : (sseCvtTo fp d op c).1.1 = true) : Low32 i (sseCvtTo fp d op c).2 := by
  refine low32_of_handles (sseCvtTo_handles op d c fp) hh ?_
  rw [hW, mem_reg h]
  exact zeroes_bind fun _ => setreg_zeroes _

/-- A register that is written whole, with a value that has no upper half. -/
lemma setreg8_zeroes {v : BitVec 64} (hv : v >>> 32 = 0) : Zeroes i (setreg i v 8) := by
  intro c
  have h : (setreg i v 8 c).2.r i = v := Function.update_self i _ c.r
  rw [Low32, h]
  exact hv

lemma byteMask_low (x : Xmm) : byteMask x >>> 32 = 0 := by
  have hfold (l : List Nat) (hl : ∀ k ∈ l, k < 16) (m : BitVec 64) (hm : m >>> 32 = 0) :
      l.foldl (fun (m : BitVec 64) k => if (x.lane 8 k).msb then m ||| (1 <<< k) else m) m >>> 32 = 0 := by
    induction l generalizing m with
    | nil => exact hm
    | cons k l ih =>
      rw [List.foldl_cons]
      refine ih (fun j hj => hl j (List.mem_cons_of_mem k hj)) _ ?_
      have hbit : ∀ j < 16, (((1 <<< j : Nat)) : BitVec 64) >>> 32 = 0 := by decide
      split
      · rw [BitVec.ushiftRight_or_distrib, hm, hbit k (hl k List.mem_cons_self)]
        rfl
      · exact hm
  exact hfold _ (fun k hk => List.mem_range.mp hk) 0 rfl

lemma handled_reg_low32 (e : Dec) {p : M (Bool × Dec)} (rm : Opnd) (body : Fin 16 → M Unit)
    (hp : p c = (match rm with
      | .reg j => body j >>= fun _ => pure (true, e)
      | _ => pure (false, e) : M (Bool × Dec)) { c with rip := decRip e })
    (hz : ∀ j, Zeroes i (body j)) (hh : (p c).1.1 = true) : Low32 i (p c).2 := by
  rw [hp] at hh ⊢
  cases rm with
  | reg j => exact hz j _
  | mem addr seg => cases hh
  | ripRel disp seg => cases hh

lemma pmovmskb_low32 (h : i ∈ Dest.reg.regs op (codeOf c d.p0 d.n) d.rex) (hh : (ssePmovmskb d c).1.1 = true) :
    Low32 i (ssePmovmskb d c).2 := by
  unfold ssePmovmskb at hh ⊢
  by_cases hm : d.mand ≠ 0x66
  · rw [if_pos hm] at hh
    cases hh
  rw [if_neg hm] at hh ⊢
  refine handled_reg_low32 (pastRm d c) (rmAt d (pastRm d c) c) (fun j => do
    let x ← rdX j
    setreg (rmReg d c) (byteMask x) 8) ?_ (fun j => ?_) hh
  · rw [Prog.bind_eval (modrmAdvance_eval d c)]
    unfold rmAt
    simp only
    generalize fixupRip (pastRm d c) (rmOpnd d c) = rm
    cases rm <;> rfl
  · rw [mem_reg h]
    exact zeroes_bind fun x => setreg8_zeroes (byteMask_low x)

lemma pextrw_low32 (h : i ∈ Dest.reg.regs op (codeOf c d.p0 d.n) d.rex) (hh : (ssePextrw d c).1.1 = true) :
    Low32 i (ssePextrw d c).2 := by
  have hlow : ∀ v : BitVec 16, (v.setWidth 64) >>> 32 = 0 := by
    intro v
    apply BitVec.eq_of_toNat_eq
    have hv := v.isLt
    rw [BitVec.toNat_ushiftRight, BitVec.toNat_setWidth, Nat.shiftRight_eq_div_pow]
    exact Nat.div_eq_of_lt (by omega)
  unfold ssePextrw at hh ⊢
  by_cases hm : d.mand ≠ 0x66
  · rw [if_pos hm] at hh
    cases hh
  rw [if_neg hm] at hh ⊢
  refine handled_reg_low32 ((pastRm d c).skip 1) (rmAt d ((pastRm d c).skip 1) c) (fun j => do
    let x ← rdX j
    setreg (rmReg d c) ((x.lane 16 (codeOf c d.p0 (pastRm d c).n &&& 7).toNat).setWidth 64) 8) ?_ (fun j => ?_) hh
  · rw [Prog.bind_eval (modrmImmAdvance_eval d c)]
    unfold rmAt
    simp only
    generalize fixupRip ((pastRm d c).skip 1) (rmOpnd d c) = rm
    cases rm <;> rfl
  · rw [mem_reg h]
    exact zeroes_bind fun x => setreg8_zeroes (hlow _)

/-- Without `F2` and `F3` the last of the selecting prefixes is `66`. -/
lemma lastMand_of_selector {e : Encoding} (h : e.selector = 0x66) : lastMand e.prefixes = 0x66 := by
  unfold Encoding.selector at h
  cases hl : (e.prefixes.filter fun b => b == 0xF2 || b == 0xF3).getLast? with
  | some b =>
    rw [hl] at h
    have hb := List.mem_filter.mp (List.mem_of_getLast? hl)
    rw [show b = 0x66 from h] at hb
    exact absurd hb.2 (by decide)
  | none =>
    rw [hl] at h
    have hnone := List.filter_eq_nil_iff.mp (List.getLast?_eq_none_iff.mp hl)
    have h66 : (0x66 : BitVec 8) ∈ e.prefixes := by
      by_contra hn
      simp only [if_neg hn] at h
      exact absurd h (by decide)
    have hne : e.prefixes.filter isMand ≠ [] := List.ne_nil_of_mem (List.mem_filter.mpr ⟨h66, rfl⟩)
    rw [lastMand, List.getLastD_eq_getLast?, List.getLast?_eq_some_getLast hne, Option.getD_some]
    obtain ⟨hmem, hmand⟩ := List.mem_filter.mp (List.getLast_mem hne)
    have hno := hnone _ hmem
    simp only [Bool.or_eq_true, beq_iff_eq, not_or] at hno
    simp only [isMand, Bool.or_eq_true, beq_iff_eq] at hmand
    tauto

lemma sseDest_cases {sel : BitVec 8} (h : sseDest op sel ≠ .none) :
    (op = 0x7E ∧ sel = 0x66 ∧ sseDest op sel = .rm) ∨
    ((op = 0x2C ∨ op = 0x2D) ∧ sseDest op sel = .reg) ∨
    (op = 0xC5 ∧ sel = 0x66 ∧ sseDest op sel = .reg) ∨ (op = 0xD7 ∧ sel = 0x66 ∧ sseDest op sel = .reg) := by
  unfold sseDest at h ⊢
  split_ifs at h ⊢ with h1 h2 h3
  · exact .inl ⟨h1.1, h1.2, rfl⟩
  · exact .inr (.inl ⟨h2.1, rfl⟩)
  · rcases h3 with ⟨h | h, hs⟩
    · exact .inr (.inr (.inl ⟨h, hs, rfl⟩))
    · exact .inr (.inr (.inr ⟨h, hs, rfl⟩))
  · exact absurd rfl h

lemma sse_low32 {fp : Fp} {e : Encoding} (hmand : d.mand = lastMand e.prefixes)
    (hdest : sseDest op e.selector ≠ .none) (hW : rexW d.rex = false)
    (h : i ∈ (sseDest op e.selector).regs op (codeOf c d.p0 d.n) d.rex)
    (hf : (stepEscaped fp op d c).2.fault = none) : Low32 i (stepEscaped fp op d c).2 := by
  have hsse : sseClass op ≠ .none := by
    rcases sseDest_cases hdest with ⟨rfl, -⟩ | ⟨rfl | rfl, -⟩ | ⟨rfl, -⟩ | ⟨rfl, -⟩ <;> decide
  obtain ⟨hh, heq⟩ := escaped_sse d c hsse hf
  rw [heq]
  rcases sseDest_cases hdest with ⟨rfl, hsel, hk⟩ | ⟨hop, hk⟩ | ⟨rfl, -, hk⟩ | ⟨rfl, -, hk⟩ <;> rw [hk] at h
  · exact movdOut_low32 (hmand.trans (lastMand_of_selector hsel)) hW h hh
  · have hcls : sseExec fp d op = sseCvtTo fp d op := by
      rcases hop with rfl | rfl <;> rfl
    rw [hcls] at hh ⊢
    exact cvtTo_low32 fp hW h hh
  · exact pextrw_low32 h hh
  · exact pmovmskb_low32 h hh

/-- What the other two-byte opcodes do, unless they have nothing to do. -/
lemma twoGp_low32 (hsz : d.opsize = 4) (h : i ∈ (twoByteDest op).regs op (codeOf c d.p0 d.n) d.rex)
    (hcond : twoClass op = .cmov → cond c.flags (op &&& 0xF) = true)
    (hcnt : twoClass op = .shld → (shiftCount (pastRm d c) c (op = 0xA4 ∨ op = 0xAC) false).1 &&& 31 ≠ 0) :
    Low32 i (stepTwoByteGp op d c).2 := by
  rw [twoByteDest_eq] at h
  unfold stepTwoByteGp
  cases hc : twoClass op <;> rw [hc] at h
  case cmov => exact cmov_low32 hsz (hcond hc) h
  case shld => exact shld_low32 hsz h (hcnt hc)
  case imul => exact imul_low32 hsz h
  case movx => exact movx_low32 hsz h
  all_goals cases h

end TwoByte

/-! ### The whole instruction -/

section Counts

variable {rip : BitVec 64} {e : Encoding} {d : Dec} {c : Cpu}

lemma and_ff (v : BitVec 64) : v &&& 0xff = (v.setWidth 8).setWidth 64 := by
  apply BitVec.eq_of_toNat_eq
  rw [and_mask_toNat v 8 0xff (by decide), BitVec.toNat_setWidth, BitVec.toNat_setWidth]
  omega

lemma count_zero_iff : ∀ b : BitVec 8, b.setWidth 64 &&& 31 = 0 ↔ b &&& 31 = 0 := by
  decide

/-- The count that the interpreter takes is the encoding's. -/
lemma shiftCount_value (hd : Behind rip e d) (imm one : Bool) : (shiftCount (pastRm d c) c imm one).1 =
    (if imm then e.immByte (codeOf c rip) else if one then 1 else (c.r rcx).setWidth 8 : BitVec 8).setWidth 64 := by
  unfold shiftCount Encoding.immByte
  cases imm with
  | true =>
    have hn : (pastRm d c).n = e.tail + modrmBytes (codeOf c rip) e.tail := by
      rw [← hd.n, ← hd.p0]
      rfl
    have hp : (pastRm d c).p0 = rip := hd.p0
    simp only [if_true, hn, hp]
  | false =>
    cases one with
    | true => rfl
    | false => exact and_ff _

lemma shiftCount_zero_iff (hd : Behind rip e d) (imm one : Bool) :
    (shiftCount (pastRm d c) c imm one).1 &&& 31 = 0 ↔
      (if imm then e.immByte (codeOf c rip) else if one then 1 else (c.r rcx).setWidth 8) &&& 31 = 0 := by
  rw [shiftCount_value hd]
  exact count_zero_iff _

end Counts

lemma shift_ops : ∀ op : BitVec 8, opClass op = .shift ∧ shiftSize op 4 = 4 ↔ op ∈ [0xC1#8, 0xD1, 0xD3] := by
  simp only [opClass_eq]
  decide

lemma two_ops : ∀ op : BitVec 8, (twoClass op = .cmov ↔ 0x40 ≤ op ∧ op ≤ 0x4F) ∧
    (twoClass op = .shld ↔ op ∈ [0xA4#8, 0xA5, 0xAC, 0xAD]) := by
  simp only [twoClass_eq]
  decide

section Instructions

variable {e : Encoding} {d : Dec} {c : Cpu} {i : Fin 16} {fp : Fp}

/-- The shifts are the one-byte opcodes that can be idle. -/
lemma idle_oneByte (hd : Behind c.rip e d) (hesc : e.escaped = false) :
    e.idle (codeOf c c.rip) c.flags ((c.r rcx).setWidth 8) = true ↔
      (opClass e.op = .shift ∧ shiftSize e.op 4 = 4) ∧
        (shiftCount (pastRm d (noted c)) (noted c) (e.op = 0xC0 ∨ e.op = 0xC1) (e.op = 0xD0 ∨ e.op = 0xD1)).1
          &&& 31 = 0 := by
  rw [shift_ops, shiftCount_zero_iff hd]
  unfold Encoding.idle Encoding.shiftCount
  simp only [hesc, Bool.false_eq_true, if_false, Bool.and_eq_true, decide_eq_true_eq, beq_iff_eq]
  refine and_congr_right fun hop => ?_
  simp only [List.mem_cons, List.not_mem_nil, or_false] at hop
  rcases hop with hop | hop | hop <;> simp only [hop] <;> rfl

lemma idle_cmov (hesc : e.escaped = true) (hc : twoClass e.op = .cmov) (p : Code) (flags : BitVec 32) (cl : BitVec 8) :
    e.idle p flags cl = !cond flags (e.op &&& 0xF) := by
  have hno : ¬ e.op ∈ [0xA4#8, 0xA5, 0xAC, 0xAD] := by
    rw [← (two_ops e.op).2, hc]
    decide
  unfold Encoding.idle
  simp only [hesc, if_true, decide_eq_true ((two_ops e.op).1.mp hc), decide_eq_false hno, Bool.true_and, Bool.false_and,
    Bool.or_false]

lemma idle_shld (hd : Behind c.rip e d) (hesc : e.escaped = true) (hs : twoClass e.op = .shld) :
    e.idle (codeOf c c.rip) c.flags ((c.r rcx).setWidth 8) = true ↔
      (shiftCount (pastRm d (noted c)) (noted c) (e.op = 0xA4 ∨ e.op = 0xAC) false).1 &&& 31 = 0 := by
  have hno : ¬ (0x40 ≤ e.op ∧ e.op ≤ 0x4F) := by
    rw [← (two_ops e.op).1, hs]
    decide
  rw [shiftCount_zero_iff hd]
  unfold Encoding.idle Encoding.shiftCount
  simp only [hesc, if_true, decide_eq_true ((two_ops e.op).2.mp hs), decide_eq_false hno, Bool.true_and, Bool.false_and,
    Bool.false_or, beq_iff_eq, decide_eq_true_eq, Bool.true_eq_false, false_and, if_false, Bool.false_eq_true]
  rfl

lemma idle_escaped {p : Code} {flags : BitVec 32} {cl : BitVec 8} (hesc : e.escaped = true)
    (h : e.idle p flags cl = true) : twoClass e.op = .cmov ∨ twoClass e.op = .shld := by
  unfold Encoding.idle at h
  simp only [hesc, if_true, Bool.or_eq_true, Bool.and_eq_true, decide_eq_true_eq] at h
  exact h.imp (fun h => (two_ops e.op).1.mpr h.1) fun h => (two_ops e.op).2.mpr h.1

/-- What a step does for the destinations of an instruction: nothing if it is idle or the short
`xchg`, which is taken for `nop`, else their upper halves are cleared. -/
structure Extends (e : Encoding) (i : Fin 16) (c : Cpu) (r : (InsnOut × Dec) × Cpu) : Prop where
  done : r.1.1 = .done
  clear : e.idle (codeOf c c.rip) c.flags ((c.r rcx).setWidth 8) = false → e.exchange = false → Low32 i r.2
  idle : e.idle (codeOf c c.rip) c.flags ((c.r rcx).setWidth 8) = true → r.2.r = c.r
  exchange : e.exchange = true → r.2.r = c.r

lemma exchange_nop (hx : e.exchange = true) : opClass e.op = .nop := by
  simp only [Encoding.exchange, Bool.and_eq_true, beq_iff_eq] at hx
  rw [hx.1.2]
  decide

lemma oneByte_extends (hd : Behind c.rip e d) (hesc : e.escaped = false) (h2 : opClass e.op ≠ .twoByte)
    (h0 : opClass e.op ≠ .none) (hi : i ∈ e.dest32 (codeOf c c.rip))
    (hf : (stepOneByte e.op d (opClass e.op) (noted c)).2.fault = none) :
    Extends e i c ((InsnOut.done, (stepOneByte e.op d (opClass e.op) (noted c)).1),
      (stepOneByte e.op d (opClass e.op) (noted c)).2) := by
  unfold Encoding.dest32 Encoding.dest at hi
  simp only [hesc, Bool.false_and, Bool.false_eq_true, if_false] at hi
  by_cases h4 : e.opsize ≠ 4
  · rw [if_pos h4] at hi
    cases hi
  rw [if_neg h4, Encoding.ext, ← hd.n, ← hd.rex] at hi
  have hsz : d.opsize = 4 := hd.opsize.trans (not_not.mp h4)
  have hidle := idle_oneByte hd hesc
  refine ⟨rfl, fun hn hx => ?_, fun hy => ?_, fun hx => ?_⟩
  · rw [hx, if_neg Bool.false_ne_true] at hi
    refine oneByte_low32 hsz h0 h2 (fun hs h4 hcnt => ?_) ?_ hf
    · rw [hidle.mpr ⟨⟨hs, h4⟩, hcnt⟩] at hn
      cases hn
    · rw [rmExt, hd.p0]
      exact hi
  · obtain ⟨⟨hs, h4⟩, hcnt⟩ := hidle.mp hy
    rw [hs]
    exact shift_idle hsz h4 hcnt
  · rw [exchange_nop hx]
    exact congrArg (fun r : Dec × Cpu => r.2.r) (stepNop_eq d (noted c))

lemma escaped_extends (hd : Behind c.rip e d) (hesc : e.escaped = true) (hi : i ∈ e.dest32 (codeOf c c.rip))
    (hf : (stepEscaped fp e.op d (noted c)).2.fault = none) : Extends e i c (stepEscaped fp e.op d (noted c)) := by
  have hx : e.exchange = false := by simp only [Encoding.exchange, hesc, Bool.not_true, Bool.false_and]
  unfold Encoding.dest32 Encoding.dest at hi
  rw [hesc, Bool.true_and, ← hd.n, ← hd.rex] at hi
  by_cases hs : sseDest e.op e.selector = .none
  · rw [hs, if_neg (by decide)] at hi
    by_cases h4 : e.opsize ≠ 4
    · rw [if_pos h4] at hi
      cases hi
    rw [if_neg h4, if_pos rfl] at hi
    have hsz : d.opsize = 4 := hd.opsize.trans (not_not.mp h4)
    have htab : ∀ op : BitVec 8, twoByteDest op ≠ .none → sseClass op = .none ∧ op ≠ 0x05 := by
      simp only [sseClass_eq]
      decide
    obtain ⟨hsse, h5⟩ := htab e.op fun h => by rw [h] at hi; cases hi
    rw [escaped_gp d (noted c) hsse h5]
    refine ⟨rfl, fun hn _ => ?_, fun hy => ?_, fun h => absurd (hx.symm.trans h) Bool.false_ne_true⟩
    · refine twoGp_low32 hsz (hd.p0 ▸ hi) (fun hc => ?_) fun hc hcnt => ?_
      · rw [idle_cmov hesc hc, Bool.not_eq_false'] at hn
        exact hn
      · rw [(idle_shld hd hesc hc).mpr hcnt] at hn
        cases hn
    · rcases idle_escaped hesc hy with hc | hc
      · rw [idle_cmov hesc hc, Bool.not_eq_true'] at hy
        simp only [stepTwoByteGp, hc]
        exact cmov_idle hy
      · simp only [stepTwoByteGp, hc]
        exact shld_idle hsz ((idle_shld hd hesc hc).mp hy)
  · have hne : (sseDest e.op e.selector != .none) = true := bne_iff_ne.mpr hs
    rw [if_pos hne] at hi
    have hW : rexW d.rex = false := by
      by_contra hW
      rw [if_pos (Bool.not_eq_false _ |>.mp hW)] at hi
      cases hi
    rw [hW] at hi
    have hsse : sseClass e.op ≠ .none := by
      rcases sseDest_cases hs with ⟨h, -⟩ | ⟨h | h, -⟩ | ⟨h, -⟩ | ⟨h, -⟩ <;> rw [h] <;> decide
    refine ⟨?_, fun _ _ => sse_low32 hd.mand hs hW (hd.p0 ▸ hi) hf, fun hy => ?_,
      fun h => absurd (hx.symm.trans h) Bool.false_ne_true⟩
    · rw [(escaped_sse d (noted c) hsse hf).2]
    · have h0 := (sse_two_disjoint e.op hsse).1
      rcases idle_escaped hesc hy with hc | hc <;> rw [h0] at hc <;> cases hc

lemma stepInsn_extends (hi : i ∈ (encodingAt (codeOf c c.rip)).dest32 (codeOf c c.rip))
    (hf : (stepInsn fp c).2.fault = none) : Extends (encodingAt (codeOf c c.rip)) i c (stepInsn fp c) := by
  cases stepInsn_dispatch fp c with
  | unknown h => rw [h] at hf; cases hf
  | oneByte d hd hesc h2 h0 h =>
    rw [h] at hf ⊢
    exact oneByte_extends hd hesc h2 h0 hi hf
  | escaped d hd hesc h =>
    rw [h] at hf ⊢
    exact escaped_extends hd hesc hi hf

end Instructions

/-- A 32-bit result clears the upper half of its register, except where an idle instruction, or the
exchange that is taken for `nop`, finds it not clear. -/
theorem writes32_zero_extend (fp : Fp) (rt : Runtime) (k : Kernel) (c : Cpu) (hcb : c.rip ≠ callbackMagic)
    (hret : c.rip ≠ returnMagic) (hstub : rsdStubIndex c.stubs c.rip = none)
    (hf : (step fp rt k c).2.fault = none) :
    (∀ i ∈ (encodingAt (codeOf c c.rip)).dest32 (codeOf c c.rip), (step fp rt k c).2.r i >>> 32 = 0) ↔
      ¬ (((encodingAt (codeOf c c.rip)).idle (codeOf c c.rip) c.flags ((c.r rcx).setWidth 8) = true ∨
          (encodingAt (codeOf c c.rip)).exchange = true) ∧
        ∃ i ∈ (encodingAt (codeOf c c.rip)).dest32 (codeOf c c.rip), c.r i >>> 32 ≠ 0) := by
  have hstep (i : Fin 16) (hi : i ∈ (encodingAt (codeOf c c.rip)).dest32 (codeOf c c.rip)) :
      Extends (encodingAt (codeOf c c.rip)) i c (stepInsn fp c) ∧ (step fp rt k c).2 = (stepInsn fp c).2 := by
    have hx := stepInsn_extends hi (step_insn hcb hret hstub hf).2.1
    exact ⟨hx, step_done hcb hret hstub hf hx.done⟩
  by_cases hskip : (encodingAt (codeOf c c.rip)).idle (codeOf c c.rip) c.flags ((c.r rcx).setWidth 8) = true ∨
      (encodingAt (codeOf c c.rip)).exchange = true
  · have hr (i : Fin 16) (hi : i ∈ (encodingAt (codeOf c c.rip)).dest32 (codeOf c c.rip)) :
        (step fp rt k c).2.r i = c.r i := by
      obtain ⟨hx, heq⟩ := hstep i hi
      rw [heq, hskip.elim hx.idle hx.exchange]
    constructor
    · rintro h ⟨-, i, hi, hne⟩
      exact hne (hr i hi ▸ h i hi)
    · intro h i hi
      rw [hr i hi]
      by_contra hne
      exact h ⟨hskip, i, hi, hne⟩
  · refine iff_of_true (fun i hi => ?_) fun h => hskip h.1
    obtain ⟨hidle, hexchange⟩ := not_or.mp hskip
    obtain ⟨hx, heq⟩ := hstep i hi
    rw [heq]
    exact hx.clear (Bool.eq_false_iff.mpr hidle) (Bool.eq_false_iff.mpr hexchange)

/-- Every register is full, and ZF is set. -/
def fullCpu (code : List (BitVec 8)) : Cpu := { codeCpu code with r := fun _ => BitVec.allOnes 64, flags := 0x242 }

/-- `add eax, ecx`. -/
theorem writes32_zero_extend_add :
    (∀ i ∈ (encodingAt (codeOf (fullCpu [0x01, 0xC8]) 0x1000)).dest32 (codeOf (fullCpu [0x01, 0xC8]) 0x1000),
      (step sampleFp sampleRuntime sampleKernel (fullCpu [0x01, 0xC8])).2.r i >>> 32 = 0) ∧
      rax ∈ (encodingAt (codeOf (fullCpu [0x01, 0xC8]) 0x1000)).dest32 (codeOf (fullCpu [0x01, 0xC8]) 0x1000) :=
  ⟨(writes32_zero_extend sampleFp sampleRuntime sampleKernel (fullCpu [0x01, 0xC8]) (by decide) (by decide) (by decide)
    (by decide)).mpr (by decide), by decide⟩

/-- `cmovne eax, ecx` after a comparison of equals: `eax` is its destination, and the upper half
of the register stays. -/
theorem cmov_keeps_upper_half :
    (step sampleFp sampleRuntime sampleKernel (fullCpu [0x0F, 0x45, 0xC1])).2.fault = none ∧
      rax ∈ (encodingAt (codeOf (fullCpu [0x0F, 0x45, 0xC1]) 0x1000)).dest32 (codeOf (fullCpu [0x0F, 0x45, 0xC1]) 0x1000) ∧
      (step sampleFp sampleRuntime sampleKernel (fullCpu [0x0F, 0x45, 0xC1])).2.r rax >>> 32 ≠ 0 := by
  decide

end Rashid.Proofs
