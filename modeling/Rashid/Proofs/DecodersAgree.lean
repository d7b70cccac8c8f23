import Rashid.Proofs.DecodeBytes
import Rashid.Proofs.DecodeOperands

/-!
# The two decoders agree

The interpreter decodes while it executes; the block compiler decodes into a record first.
On every encoding the compiler accepts, the interpreter's step is the meaning of that record.
-/

namespace Rashid.Proofs

section Cases

variable (fp : Fp) (c : Cpu) (rip : BitVec 64) (n : Nat) (rex : BitVec 8) (hr : Bool) (op : BitVec 8)
  {n' : Nat} {o : Insn}

lemma aluRow_agree (hop : opTable op .aluRow = true)
    (h : decAluRow (codeOf c rip) n rex op (insnAt rex hr) = some (n', o)) :
    stepAluRow op (decAt rip n rex hr (insnAt rex hr).size 0) c =
      (decAt rip n' rex hr (insnAt rex hr).size 0, ((finishInsn rip n' o).exec fp c).2) := by
  simp only [opTable, Bool.and_eq_true, beq_iff_eq] at hop
  obtain ⟨⟨-, hop⟩, hbyte⟩ := hop
  have hsz : (if (op &&& 1 == 0 || op == 0x84 || op == 0x88 || op == 0x8A) = true then 1 else (insnAt rex hr).size) =
      if op &&& 1 = 0 ∨ op = 0x88 ∨ op = 0x8A then 1 else (insnAt rex hr).size := by
    rw [hbyte]
    simp only [Bool.or_eq_true, beq_iff_eq, or_assoc]
  simp only [decAluRow, Option.some.injEq, ← hsz] at h
  unfold stepAluRow
  by_cases hm : codeOf c rip n >>> 6 = 3
  · rw [Prog.bind_eval (modrmAdvance_reg_at c rip n rex hr _ 0 hm)]
    simp only [withRm, if_pos hm, Prod.mk.injEq] at h
    obtain ⟨rfl, rfl⟩ := h
    by_cases ht : (op &&& 2 != 0 && op != 0x84 && op != 0x85) = true <;>
      simp only [ht, if_true, finishInsn, Insn.exec, Insn.execRow, op_exec_eq hop] <;> rfl
  · rw [Prog.bind_eval (modrmAdvance_mem_at c rip n rex hr _ 0 hm)]
    simp only [withRm, if_neg hm, Prod.mk.injEq] at h
    obtain ⟨rfl, rfl⟩ := h
    by_cases ht : (op &&& 2 != 0 && op != 0x84 && op != 0x85) = true <;>
      simp only [ht, if_true, finishInsn, Insn.exec, Insn.execRow, op_exec_eq hop] <;> rfl

lemma insnAt_size : (insnAt rex hr).size = 4 ∨ (insnAt rex hr).size = 8 := by
  unfold insnAt
  by_cases h : rexW rex = true <;> simp [h]

lemma i8_sameLow (p : Code) : SameLow 1 (p.i8 n) ((p n).setWidth 64) := by
  change BitVec.setWidth 8 ((p n).signExtend 64) = BitVec.setWidth 8 ((p n).setWidth 64)
  apply BitVec.eq_of_getLsbD_eq
  intro i hi
  rw [BitVec.getLsbD_setWidth, BitVec.getLsbD_setWidth, BitVec.getLsbD_signExtend, BitVec.getLsbD_setWidth]
  simp [hi, show i < 64 by omega]

lemma sameLow_and_low32 (v : BitVec 64) : SameLow 4 v (v &&& 0xffffffff) :=
  (SameLow.truncSz_left 4 v).symm

/-- The compiler's immediate and the interpreter's, up to the bytes that count. -/
lemma decImm_sameLow (p : Code) {size : Nat} (hs : size = 1 ∨ size = 4 ∨ size = 8) :
    SameLow size (if size = 1 then p.i8 n else p.i32 n) (decImm p n size).2 := by
  rcases hs with rfl | rfl | rfl
  · exact i8_sameLow n p
  · exact sameLow_and_low32 _
  · exact SameLow.refl 8 _

lemma decImm8_sameLow (p : Code) {size : Nat} (hs : size = 4 ∨ size = 8) :
    SameLow size (p.i8 n) (decImm8 p n size).2 := by
  rcases hs with rfl | rfl
  · exact sameLow_and_low32 _
  · exact SameLow.refl 8 _

lemma execImm_eq {o : Insn} {a : Alu} {b : BitVec 64} (dst : Opnd) (hs : o.size = 1 ∨ o.size = 4 ∨ o.size = 8)
    (hop : aluOf o.op = some a) (hmov : o.op ≠ .mov) (hb : SameLow o.size b o.imm) :
    o.execImm dst = (do
      wrRip o.next
      let x ← rd dst o.size o.hasRex
      aluExec a x b o.size fun r => wr dst r o.size o.hasRex) := by
  have hs' : o.size = 1 ∨ o.size = 2 ∨ o.size = 4 ∨ o.size = 8 := by tauto
  unfold Insn.execImm
  simp only [if_neg hmov, ← op_exec_eq hop]
  congr 1
  funext _
  congr 1
  funext x
  exact op_exec_congr o.op x (fun _ _ h => wr_congr dst o.hasRex hs' h) hb.symm

lemma grp1Op_eq : ∀ ext : BitVec 8, ext ≤ 7 → ext ≠ 2 → ext ≠ 3 →
    aluOf (grp1Op ext) = some (grp1Alu ext) ∧ grp1Op ext ≠ .mov := by
  decide

/-- Where the r/m operand ends, and what it is once the instruction's end is known. -/
lemma rm_view (sz : Nat) (mand : BitVec 8) (oM : Insn) (f : Fin 16 → Insn) :
    ∃ k raw,
      modrm (decAt rip n rex hr sz mand) c =
        ((regField (codeOf c rip n) rex, raw, decAt rip k rex hr sz mand), c) ∧
      ((∃ i, withRm (codeOf c rip) n rex oM f = (k, f i) ∧ ∀ d, fixupRip d raw = .reg i) ∨
        ∃ e, withRm (codeOf c rip) n rex oM f = (k, { oM with mem := true, ea := e }) ∧
          ∀ d, fixupRip d raw = .mem (e.addr (decRip d) c.r) 0) := by
  by_cases hm : codeOf c rip n >>> 6 = 3
  · refine ⟨_, _, modrm_reg_at c rip n rex hr sz mand hm, .inl ⟨rmField (codeOf c rip n) rex, ?_, fun d => rfl⟩⟩
    simp only [withRm, if_pos hm]
  · refine ⟨_, _, modrm_mem_at c rip n rex hr sz mand hm,
      .inr ⟨(modrmMem (codeOf c rip) (n + 1) rex (codeOf c rip n)).2, ?_, fun d => ?_⟩⟩
    · simp only [withRm, if_neg hm]
    · exact fixupRip_opndOf (modrmMem_ok _ _ _ _) d c.r 0

lemma modrmExt_of_modrm {d d' : Dec} {m : BitVec 8} {raw : Opnd} (h : modrm d c = ((regField m rex, raw, d'), c)) :
    modrmExt d c = ((extField m, raw, d'), c) := by
  unfold modrmExt
  rw [Prog.bind_eval h]
  simp only [Prog.pure_apply, regField, ofNat_regNo_and, extField]

lemma modrmAdvance_of_modrm {d d' : Dec} {reg : Fin 16} {raw : Opnd} (h : modrm d c = ((reg, raw, d'), c)) :
    modrmAdvance d c = ((reg, fixupRip d' raw, d'), { c with rip := decRip d' }) := by
  unfold modrmAdvance
  rw [Prog.bind_eval h]
  rfl

/-- An immediate operation on its destination, be it a register or memory. -/
lemma exec_imm {x : Insn} {dst : Opnd}
    (h : (x.kind = .ri ∧ dst = .reg x.reg) ∨ (x.kind = .mi ∧ dst = .mem (x.addr c.r) 0)) :
    x.exec fp c = x.execImm dst c := by
  rcases h with ⟨hk, rfl⟩ | ⟨hk, rfl⟩
  · simp only [Insn.exec, hk]
  · simp only [Insn.exec, hk]
    rfl

/-- The immediate of group 1, as each decoder reads it. -/
lemma grp1_imm (k : Nat) (hop : op = 0x80 ∨ op = 0x81 ∨ op = 0x83) {size : Nat}
    (hs : size = if op = 0x80 then 1 else (insnAt rex hr).size) :
    ∃ k' b v, (if op = 0x83 then decImm8 (codeOf c rip) k size else decImm (codeOf c rip) k size) = (k', v) ∧
      (if op = 0x81 then imm32s (decAt rip k rex hr (insnAt rex hr).size 0)
        else imm8s (decAt rip k rex hr (insnAt rex hr).size 0)) c =
          ((b, decAt rip k' rex hr (insnAt rex hr).size 0), c) ∧
      SameLow size b v := by
  have hsz := insnAt_size rex hr
  rw [Prog.ite_apply', imm32s_at, imm8s_at]
  by_cases h83 : op = 0x83
  · have h80 : ¬ op = 0x80 := by rw [h83]; decide
    have h81 : ¬ op = 0x81 := by rw [h83]; decide
    rw [if_neg h80] at hs
    rw [if_neg h81, if_pos h83]
    exact ⟨_, _, _, rfl, rfl, decImm8_sameLow k _ (hs ▸ hsz)⟩
  · rw [if_neg h83]
    by_cases h80 : op = 0x80
    · have h81 : ¬ op = 0x81 := by rw [h80]; decide
      rw [if_pos h80] at hs
      rw [if_neg h81, hs]
      exact ⟨_, _, _, rfl, rfl, i8_sameLow k _⟩
    · have h81 : op = 0x81 := by tauto
      rw [if_neg h80] at hs
      rw [if_pos h81]
      have hs' : size = 4 ∨ size = 8 := hs ▸ hsz
      have hlow := decImm_sameLow k (codeOf c rip) (Or.inr hs')
      have h1 : ¬ size = 1 := by omega
      rw [if_neg h1] at hlow
      have hd : decImm (codeOf c rip) k size = (k + 4, (decImm (codeOf c rip) k size).2) := by
        simp only [decImm, if_neg h1]
      exact ⟨_, _, _, hd, rfl, hlow⟩

lemma grp1_agree (hop : op = 0x80 ∨ op = 0x81 ∨ op = 0x83)
    (h : decGrp1 (codeOf c rip) n rex op (insnAt rex hr) = some (n', o)) :
    stepGrp1 op (decAt rip n rex hr (insnAt rex hr).size 0) c =
      (decAt rip n' rex hr (insnAt rex hr).size 0, ((finishInsn rip n' o).exec fp c).2) := by
  have hmov : (op == 0xC6 || op == 0xC7) = false := by rcases hop with rfl | rfl | rfl <;> rfl
  have hC6 : ¬ op = 0xC6 := by rcases hop with rfl | rfl | rfl <;> decide
  simp only [decGrp1, hmov, Bool.false_eq_true, false_and, if_false, Bool.not_false, true_and, hC6, or_false] at h
  split at h
  · cases h
  next hext =>
  rw [not_or] at hext
  obtain ⟨halu, hnm⟩ := grp1Op_eq _ (extField_le (codeOf c rip n)) hext.1 hext.2
  unfold stepGrp1
  generalize hsize : (if op = 0x80 then 1 else (insnAt rex hr).size) = size at h
  have hs : size = 1 ∨ size = 4 ∨ size = 8 := by
    rw [← hsize]
    split
    · exact .inl rfl
    · exact .inr (insnAt_size rex hr)
  obtain ⟨k, raw, hmod, hview⟩ := rm_view c rip n rex hr (insnAt rex hr).size 0
    { insnAt rex hr with kind := .mi, size := size } fun rm => { insnAt rex hr with kind := .ri, size := size, reg := rm }
  obtain ⟨k', b, v, hjit, hint, hlow⟩ := grp1_imm c rip rex hr op k hop hsize.symm
  rw [Prog.bind_eval (modrmExt_of_modrm c rex hmod)]
  simp only [Prog.ite_bind]
  rw [Prog.bind_eval hint]
  rcases hview with ⟨i, hw, hfix⟩ | ⟨e, hw, hfix⟩ <;> simp only [hw, hjit, Option.some.injEq, Prod.mk.injEq] at h <;>
    obtain ⟨rfl, rfl⟩ := h
  · rw [exec_imm fp c (.inl ⟨rfl, rfl⟩), execImm_eq _ hs halu hnm hlow]
    simp only [decAt_opsize, decAt_hasRex, hsize, hfix]
    rfl
  · rw [exec_imm fp c (.inr ⟨rfl, rfl⟩), execImm_eq _ hs halu hnm hlow]
    simp only [decAt_opsize, decAt_hasRex, hsize, hfix]
    rfl

lemma execImm_mov {o : Insn} {v : BitVec 64} (dst : Opnd) (hs : o.size = 1 ∨ o.size = 4 ∨ o.size = 8)
    (hop : o.op = .mov) (hv : SameLow o.size v o.imm) :
    o.execImm dst = (do
      wrRip o.next
      wr dst v o.size o.hasRex) := by
  have hs' : o.size = 1 ∨ o.size = 2 ∨ o.size = 4 ∨ o.size = 8 := by tauto
  unfold Insn.execImm
  rw [if_pos hop, wr_congr dst o.hasRex hs' hv]

lemma movRmImm_agree (hop : op = 0xC6 ∨ op = 0xC7)
    (h : decGrp1 (codeOf c rip) n rex op (insnAt rex hr) = some (n', o)) :
    stepMovRmImm op (decAt rip n rex hr (insnAt rex hr).size 0) c =
      (decAt rip n' rex hr (insnAt rex hr).size 0, ((finishInsn rip n' o).exec fp c).2) := by
  have hmov : (op == 0xC6 || op == 0xC7) = true := by rcases hop with rfl | rfl <;> rfl
  have h80 : ¬ op = 0x80 := by rcases hop with rfl | rfl <;> decide
  have h83 : ¬ op = 0x83 := by rcases hop with rfl | rfl <;> decide
  simp only [decGrp1, hmov, true_and, Bool.not_true, Bool.false_eq_true, false_and, if_false, if_true, h80, h83,
    false_or] at h
  split at h
  · cases h
  unfold stepMovRmImm
  generalize hsize : (if op = 0xC6 then 1 else (insnAt rex hr).size) = size at h
  have hs : size = 1 ∨ size = 4 ∨ size = 8 := by
    rw [← hsize]
    split
    · exact .inl rfl
    · exact .inr (insnAt_size rex hr)
  obtain ⟨k, raw, hmod, hview⟩ := rm_view c rip n rex hr (insnAt rex hr).size 0
    { insnAt rex hr with kind := .mi, size := size } fun rm => { insnAt rex hr with kind := .ri, size := size, reg := rm }
  have himm : ∃ k' b v, decImm (codeOf c rip) k size = (k', v) ∧
      (if op = 0xC6 then imm8 (decAt rip k rex hr (insnAt rex hr).size 0)
        else imm32s (decAt rip k rex hr (insnAt rex hr).size 0)) c =
          ((b, decAt rip k' rex hr (insnAt rex hr).size 0), c) ∧ SameLow size b v := by
    rw [Prog.ite_apply', imm8_at, imm32s_at]
    by_cases hC6 : op = 0xC6
    · rw [if_pos hC6] at hsize ⊢
      subst hsize
      exact ⟨_, _, _, rfl, rfl, SameLow.refl 1 _⟩
    · rw [if_neg hC6] at hsize ⊢
      have hs' := insnAt_size rex hr
      rw [hsize] at hs'
      have h1 : ¬ size = 1 := by omega
      have hlow := decImm_sameLow k (codeOf c rip) hs
      rw [if_neg h1] at hlow
      have hd : decImm (codeOf c rip) k size = (k + 4, (decImm (codeOf c rip) k size).2) := by
        simp only [decImm, if_neg h1]
      exact ⟨_, _, _, hd, rfl, hlow⟩
  obtain ⟨k', b, v, hjit, hint, hlow⟩ := himm
  rw [Prog.bind_eval hmod]
  simp only [Prog.ite_bind]
  rw [Prog.bind_eval hint]
  rcases hview with ⟨i, hw, hfix⟩ | ⟨e, hw, hfix⟩ <;> simp only [hw, hjit, Option.some.injEq, Prod.mk.injEq] at h <;>
    obtain ⟨rfl, rfl⟩ := h
  · rw [exec_imm fp c (.inl ⟨rfl, rfl⟩), execImm_mov _ hs rfl hlow]
    simp only [decAt_opsize, decAt_hasRex, hsize, hfix]
    rfl
  · rw [exec_imm fp c (.inr ⟨rfl, rfl⟩), execImm_mov _ hs rfl hlow]
    simp only [decAt_opsize, decAt_hasRex, hsize, hfix]
    rfl

/-! #### The accumulator -/

lemma isHigh_zero (rex : Bool) : isHigh 0 rex = false := by
  cases rex <;> rfl

lemma rd_rax (size : Nat) (rex : Bool) : rd (.reg 0) size rex = getreg rax size := by
  simp only [rd]
  split
  · next h =>
    subst h
    unfold getreg8
    rw [isHigh_zero]
    rfl
  · rfl

lemma wr_rax (v : BitVec 64) (size : Nat) (rex : Bool) : wr (.reg 0) v size rex = setreg rax v size := by
  simp only [wr]
  split
  · next h =>
    subst h
    unfold setreg8
    rw [isHigh_zero]
    rfl
  · rfl

/-- The accumulator's immediate, as each decoder reads it. -/
lemma eax_imm (byte : Prop) [Decidable byte] {size : Nat} (hs : size = if byte then 1 else (insnAt rex hr).size) :
    ∃ k' b v, decImm (codeOf c rip) n size = (k', v) ∧
      (if byte then imm8 (decAt rip n rex hr (insnAt rex hr).size 0)
        else if size = 2 then imm16 (decAt rip n rex hr (insnAt rex hr).size 0)
        else imm32s (decAt rip n rex hr (insnAt rex hr).size 0)) c =
          ((b, decAt rip k' rex hr (insnAt rex hr).size 0), c) ∧ SameLow size b v := by
  have hsz := insnAt_size rex hr
  by_cases hb : byte
  · rw [if_pos hb] at hs ⊢
    subst hs
    exact ⟨_, _, _, rfl, imm8_at .., SameLow.refl 1 _⟩
  · rw [if_neg hb] at hs ⊢
    rw [← hs] at hsz
    have h1 : ¬ size = 1 := by omega
    have h2 : ¬ size = 2 := by omega
    have hlow := decImm_sameLow n (codeOf c rip) (Or.inr hsz)
    rw [if_neg h1] at hlow
    have hd : decImm (codeOf c rip) n size = (n + 4, (decImm (codeOf c rip) n size).2) := by
      simp only [decImm, if_neg h1]
    rw [if_neg h2]
    exact ⟨_, _, _, hd, imm32s_at .., hlow⟩

lemma aluEax_agree (hop : aluOf (eaxOp op) = some (eaxAlu op)) (hnm : eaxOp op ≠ .mov)
    (h : decEax (codeOf c rip) n op (insnAt rex hr) = some (n', o)) :
    stepAluEax op (decAt rip n rex hr (insnAt rex hr).size 0) c =
      (decAt rip n' rex hr (insnAt rex hr).size 0, ((finishInsn rip n' o).exec fp c).2) := by
  have hsz := insnAt_size rex hr
  unfold stepAluEax
  simp only [decEax] at h
  generalize hsize : (if op &&& 1 = 0 then 1 else (insnAt rex hr).size) = size at h
  have hs : size = 1 ∨ size = 4 ∨ size = 8 := by
    rw [← hsize]
    split
    · exact .inl rfl
    · exact .inr hsz
  obtain ⟨k', b, v, hjit, hint, hlow⟩ := eax_imm c rip n rex hr (op &&& 1 = 0) hsize.symm
  simp only [hjit, Option.some.injEq, Prod.mk.injEq] at h
  obtain ⟨rfl, rfl⟩ := h
  rw [exec_imm fp c (.inl ⟨rfl, rfl⟩), execImm_eq _ hs hop hnm hlow]
  simp only [beq_iff_eq, decAt_opsize, hsize, Prog.ite_bind]
  rw [Prog.bind_eval hint]
  simp only [finishInsn, rd_rax, wr_rax]
  rfl

lemma testEax_agree (hop : op = 0xA8 ∨ op = 0xA9)
    (h : decEax (codeOf c rip) n op (insnAt rex hr) = some (n', o)) :
    stepTestEax op (decAt rip n rex hr (insnAt rex hr).size 0) c =
      (decAt rip n' rex hr (insnAt rex hr).size 0, ((finishInsn rip n' o).exec fp c).2) := by
  have hsz := insnAt_size rex hr
  have ho : eaxOp op = .test := if_pos hop
  have hbyte : (op &&& 1 = 0) = (op = 0xA8) := by rcases hop with rfl | rfl <;> decide
  unfold stepTestEax
  simp only [decEax, hbyte, ho] at h
  generalize hsize : (if op = 0xA8 then 1 else (insnAt rex hr).size) = size at h
  have hs : size = 1 ∨ size = 4 ∨ size = 8 := by
    rw [← hsize]
    split
    · exact .inl rfl
    · exact .inr hsz
  obtain ⟨k', b, v, hjit, hint, hlow⟩ := eax_imm c rip n rex hr (op = 0xA8) hsize.symm
  simp only [hjit, Option.some.injEq, Prod.mk.injEq] at h
  obtain ⟨rfl, rfl⟩ := h
  rw [exec_imm fp c (.inl ⟨rfl, rfl⟩), execImm_eq (a := .test) _ hs rfl Op.noConfusion hlow]
  simp only [decAt_opsize, hsize, Prog.ite_bind]
  rw [Prog.bind_eval hint]
  simp only [finishInsn, rd_rax]
  rfl

lemma movRegImm8_agree (h : decMovRegImm8 (codeOf c rip) n rex op (insnAt rex hr) = some (n', o)) :
    stepMovRegImm8 op (decAt rip n rex hr (insnAt rex hr).size 0) c =
      (decAt rip n' rex hr (insnAt rex hr).size 0, ((finishInsn rip n' o).exec fp c).2) := by
  simp only [decMovRegImm8, Option.some.injEq, Prod.mk.injEq] at h
  obtain ⟨rfl, rfl⟩ := h
  unfold stepMovRegImm8
  rw [Prog.bind_eval (imm8_at c rip n rex hr _ 0)]
  rfl

lemma movRegImm_agree (h : decMovRegImm (codeOf c rip) n rex op (insnAt rex hr) = some (n', o)) :
    stepMovRegImm op (decAt rip n rex hr (insnAt rex hr).size 0) c =
      (decAt rip n' rex hr (insnAt rex hr).size 0, ((finishInsn rip n' o).exec fp c).2) := by
  have hsz := insnAt_size rex hr
  have h1 : ¬ (insnAt rex hr).size = 1 := by omega
  have h2 : ¬ (decAt rip n rex hr (insnAt rex hr).size 0).opsize = 2 := by rw [decAt_opsize]; omega
  unfold stepMovRegImm
  simp only [decMovRegImm] at h
  simp only [Prog.ite_apply']
  by_cases h8 : (decAt rip n rex hr (insnAt rex hr).size 0).opsize = 8
  · have h8' : (insnAt rex hr).size = 8 := h8
    rw [if_pos h8', Option.some.injEq, Prod.mk.injEq] at h
    obtain ⟨rfl, rfl⟩ := h
    rw [if_pos h8, Prog.bind_eval (fetch64_at c rip n rex hr _ 0), exec_imm fp c (.inl ⟨rfl, rfl⟩)]
    simp only [Insn.execImm, finishInsn, if_true, wr, if_neg h1]
    rfl
  · have h8' : ¬ (insnAt rex hr).size = 8 := h8
    rw [if_neg h8', Option.some.injEq, Prod.mk.injEq] at h
    obtain ⟨rfl, rfl⟩ := h
    rw [if_neg h8, if_neg h2, Prog.bind_eval (imm32_at c rip n rex hr _ 0), exec_imm fp c (.inl ⟨rfl, rfl⟩)]
    simp only [Insn.execImm, finishInsn, if_true, wr, if_neg h1]
    rfl

/-! #### Shifts, multiplication and addresses -/

/-- The operand of a kind that takes a register or memory in the same place. -/
lemma rmOp_eval {x : Insn} {reg : Fin 16} {dst : Opnd}
    (h : (x.mem = false ∧ dst = .reg reg) ∨ (x.mem = true ∧ dst = .mem (x.addr c.r) 0)) :
    x.rmOp reg c = (dst, c) := by
  rcases h with ⟨hm, rfl⟩ | ⟨hm, rfl⟩ <;> simp [Insn.rmOp, hm]

/-- A shift, once its count has been read. -/
lemma shift_exec {x : Insn} {dst : Opnd} (hk : x.kind = .shift)
    (hrm : (x.mem = false ∧ dst = .reg x.reg) ∨ (x.mem = true ∧ dst = .mem (x.addr c.r) 0)) {cnt : BitVec 64}
    (hcnt : cnt = if x.byCl then c.r rcx &&& 0xff else x.imm) :
    (x.exec fp c).2 = ((do
      wrRip x.next
      if cnt &&& countMask x.size = 0 then pure ()
      else
        let a ← rd dst x.size x.hasRex
        let f ← rdFlags
        wrFlags (rsdIShift f a (cnt &&& countMask x.size) x.size x.ext).2
        wr dst (rsdIShift f a (cnt &&& countMask x.size) x.size x.ext).1 x.size x.hasRex : M Unit) c).2 := by
  subst hcnt
  simp only [Insn.exec, hk]
  rw [Prog.bind_eval (rmOp_eval c hrm)]
  rfl

/-- The interpreter's shift after ModRM and the count. -/
lemma stepShift_tail (cnt : BitVec 64) (sz : Nat) (ext : BitVec 8) (hext : ¬ ext < 4) (rm : Opnd) (d : Dec) :
    ((do
      wrRip (decRip d)
      if cnt &&& countMask sz = 0 then pure d
      else if ext < 4 then
        raise .rotate d.rip0
        pure d
      else
        let a ← rd rm sz d.hasRex
        let f ← rdFlags
        wrFlags (rsdIShift f a (cnt &&& countMask sz) sz ext).2
        wr rm (rsdIShift f a (cnt &&& countMask sz) sz ext).1 sz d.hasRex
        pure d : M Dec) c) =
    (d, ((do
      wrRip (decRip d)
      if cnt &&& countMask sz = 0 then pure ()
      else
        let a ← rd rm sz d.hasRex
        let f ← rdFlags
        wrFlags (rsdIShift f a (cnt &&& countMask sz) sz ext).2
        wr rm (rsdIShift f a (cnt &&& countMask sz) sz ext).1 sz d.hasRex : M Unit) c).2) := by
  simp only [if_neg hext]
  by_cases h0 : cnt &&& countMask sz = 0
  · simp only [if_pos h0]
    rfl
  · simp only [if_neg h0]
    rfl

lemma shift_agree (hop : op = 0xC0 ∨ op = 0xC1 ∨ op = 0xD0 ∨ op = 0xD1 ∨ op = 0xD2 ∨ op = 0xD3)
    (h : decShift (codeOf c rip) n rex op (insnAt rex hr) = some (n', o)) :
    stepShift op (decAt rip n rex hr (insnAt rex hr).size 0) c =
      (decAt rip n' rex hr (insnAt rex hr).size 0, ((finishInsn rip n' o).exec fp c).2) := by
  simp only [decShift] at h
  split at h
  · cases h
  next hext =>
  unfold stepShift
  generalize hsize : (if op = 0xC0 ∨ op = 0xD0 ∨ op = 0xD2 then 1 else (insnAt rex hr).size) = size at h
  obtain ⟨k, raw, hmod, hview⟩ := rm_view c rip n rex hr (insnAt rex hr).size 0
    { insnAt rex hr with size := size, ext := extField (codeOf c rip n), kind := .shift }
    fun rm => { insnAt rex hr with size := size, ext := extField (codeOf c rip n), kind := .shift, reg := rm }
  rw [Prog.bind_eval (modrmExt_of_modrm c rex hmod)]
  simp only [Prog.ite_apply', decAt_opsize, hsize]
  by_cases hi : op = 0xC0 ∨ op = 0xC1
  · rw [if_pos hi, Prog.bind_eval (imm8_at c rip k rex hr _ 0)]
    rcases hview with ⟨i, hw, hfix⟩ | ⟨e, hw, hfix⟩ <;>
      simp only [hw, if_pos hi, Option.some.injEq, Prod.mk.injEq] at h <;> obtain ⟨rfl, rfl⟩ := h
    · rw [stepShift_tail c _ _ _ hext, hfix, shift_exec fp c rfl (.inl ⟨rfl, rfl⟩) rfl]
      rfl
    · rw [stepShift_tail c _ _ _ hext, hfix, shift_exec fp c rfl (.inr ⟨rfl, rfl⟩) rfl]
      rfl
  · rw [if_neg hi]
    by_cases h1 : op = 0xD0 ∨ op = 0xD1
    · have hcl : ¬ (op = 0xD2 ∨ op = 0xD3) := by rcases h1 with rfl | rfl <;> decide
      rw [if_pos h1, Prog.bind_eval (Prog.pure_apply _ c)]
      rcases hview with ⟨i, hw, hfix⟩ | ⟨e, hw, hfix⟩ <;>
        simp only [hw, if_neg hi, if_neg hcl, Option.some.injEq, Prod.mk.injEq] at h <;> obtain ⟨rfl, rfl⟩ := h
      · rw [stepShift_tail c _ _ _ hext, hfix, shift_exec fp c rfl (.inl ⟨rfl, rfl⟩) rfl]
        rfl
      · rw [stepShift_tail c _ _ _ hext, hfix, shift_exec fp c rfl (.inr ⟨rfl, rfl⟩) rfl]
        rfl
    · have hcl : op = 0xD2 ∨ op = 0xD3 := by tauto
      have hrd : rdR rcx c = (c.r rcx, c) := rfl
      rw [if_neg h1, Prog.bind_eval hrd, Prog.bind_eval (Prog.pure_apply _ c)]
      rcases hview with ⟨i, hw, hfix⟩ | ⟨e, hw, hfix⟩ <;>
        simp only [hw, if_neg hi, if_pos hcl, Option.some.injEq, Prod.mk.injEq] at h <;> obtain ⟨rfl, rfl⟩ := h
      · rw [stepShift_tail c _ _ _ hext, hfix, shift_exec fp c rfl (.inl ⟨rfl, rfl⟩) rfl]
        rfl
      · rw [stepShift_tail c _ _ _ hext, hfix, shift_exec fp c rfl (.inr ⟨rfl, rfl⟩) rfl]
        rfl

lemma imulImm_agree (h : decImulImm (codeOf c rip) n rex op (insnAt rex hr) = some (n', o)) :
    stepImulImm op (decAt rip n rex hr (insnAt rex hr).size 0) c =
      (decAt rip n' rex hr (insnAt rex hr).size 0, ((finishInsn rip n' o).exec fp c).2) := by
  simp only [decImulImm] at h
  unfold stepImulImm
  obtain ⟨k, raw, hmod, hview⟩ := rm_view c rip n rex hr (insnAt rex hr).size 0
    { insnAt rex hr with kind := .imul, immSrc := true, reg := regField (codeOf c rip n) rex }
    fun rm => { insnAt rex hr with kind := .imul, immSrc := true, reg := regField (codeOf c rip n) rex, src := rm }
  rw [Prog.bind_eval hmod]
  simp only [Prog.ite_apply']
  by_cases hi : op = 0x6B
  · rw [if_pos hi, Prog.bind_eval (imm8s_at c rip k rex hr _ 0)]
    rcases hview with ⟨i, hw, hfix⟩ | ⟨e, hw, hfix⟩ <;>
      simp only [hw, if_pos hi, Option.some.injEq, Prod.mk.injEq] at h <;> obtain ⟨rfl, rfl⟩ := h <;>
      simp only [hfix] <;> rfl
  · rw [if_neg hi, Prog.bind_eval (imm32s_at c rip k rex hr _ 0)]
    rcases hview with ⟨i, hw, hfix⟩ | ⟨e, hw, hfix⟩ <;>
      simp only [hw, if_neg hi, Option.some.injEq, Prod.mk.injEq] at h <;> obtain ⟨rfl, rfl⟩ := h <;>
      simp only [hfix] <;> rfl

lemma lea_agree (h : decLea (codeOf c rip) n rex (insnAt rex hr) = some (n', o)) :
    stepLea (decAt rip n rex hr (insnAt rex hr).size 0) c =
      (decAt rip n' rex hr (insnAt rex hr).size 0, ((finishInsn rip n' o).exec fp c).2) := by
  unfold decLea at h
  split at h
  · cases h
  next hm =>
  simp only [withRm, if_neg hm, Option.some.injEq, Prod.mk.injEq] at h
  obtain ⟨rfl, rfl⟩ := h
  unfold stepLea
  rw [Prog.bind_eval (modrmAdvance_mem_at c rip n rex hr _ 0 hm)]
  rfl

lemma pushPop_agree (hop : if op < 0x58 then opClass op = .pushReg else opClass op = .popReg)
    (h : decPushPop n rex op (insnAt rex hr) = some (n', o)) :
    stepOneByte op (decAt rip n rex hr (insnAt rex hr).size 0) (opClass op) c =
      (decAt rip n' rex hr (insnAt rex hr).size 0, ((finishInsn rip n' o).exec fp c).2) := by
  simp only [decPushPop] at h
  split at h
  · cases h
  simp only [Option.some.injEq, Prod.mk.injEq] at h
  obtain ⟨rfl, rfl⟩ := h
  by_cases hlt : op < 0x58
  · rw [if_pos hlt] at hop
    simp only [hop, if_pos hlt]
    rfl
  · rw [if_neg hlt] at hop
    simp only [hop, if_neg hlt]
    rfl

/-! #### Group 5 -/

lemma incDec_agree (hext : extField (codeOf c rip n) = 0 ∨ extField (codeOf c rip n) = 1)
    (h : decGrp5 (codeOf c rip) n rex op (insnAt rex hr) = some (n', o)) :
    stepGrp5 op (decAt rip n rex hr (insnAt rex hr).size 0) c =
      (decAt rip n' rex hr (insnAt rex hr).size 0, ((finishInsn rip n' o).exec fp c).2) := by
  simp only [decGrp5, if_pos hext, Option.some.injEq] at h
  unfold stepGrp5
  generalize hsize : (if op = 0xFE then 1 else (insnAt rex hr).size) = size at h
  generalize hinc : (if extField (codeOf c rip n) = 0 then Op.inc else Op.dec) = which at h
  obtain ⟨k, raw, hmod, hview⟩ := rm_view c rip n rex hr (insnAt rex hr).size 0
    { insnAt rex hr with size := size, imm := 1, op := which, kind := .mi }
    fun rm => { insnAt rex hr with size := size, imm := 1, op := which, kind := .ri, reg := rm }
  have hexec : ∀ (d : Dec) (dst : Opnd) (a : BitVec 64), d.hasRex = hr →
      grp5Exec (extField (codeOf c rip n)) a size dst d = which.exec a 1 size fun r => wr dst r size hr := by
    intro d dst a hd
    rcases hext with h0 | h0 <;> rw [h0] at hinc ⊢ <;> subst hinc <;> simp only [grp5Exec, hd] <;> rfl
  have hnm : which ≠ .mov := by
    rw [← hinc]
    split <;> exact Op.noConfusion
  rw [Prog.bind_eval (modrmExt_of_modrm c rex hmod)]
  rcases hview with ⟨i, hw, hfix⟩ | ⟨e, hw, hfix⟩ <;> rw [hw] at h <;> obtain ⟨rfl, rfl⟩ := Prod.mk.inj h
  · rw [exec_imm fp c (.inl ⟨rfl, rfl⟩)]
    simp only [decAt_opsize, decAt_hasRex, hsize, hfix, hexec _ _ _ (decAt_hasRex ..), Insn.execImm,
      finishInsn, if_neg hnm]
    rfl
  · rw [exec_imm fp c (.inr ⟨rfl, rfl⟩)]
    simp only [decAt_opsize, decAt_hasRex, hsize, hfix, hexec _ _ _ (decAt_hasRex ..), Insn.execImm,
      finishInsn, if_neg hnm]
    rfl

lemma callJmp_agree (hext : ¬ (extField (codeOf c rip n) = 0 ∨ extField (codeOf c rip n) = 1))
    (h : decGrp5 (codeOf c rip) n rex op (insnAt rex hr) = some (n', o)) :
    stepGrp5 op (decAt rip n rex hr (insnAt rex hr).size 0) c =
      (decAt rip n' rex hr (insnAt rex hr).size 0, ((finishInsn rip n' o).exec fp c).2) := by
  simp only [decGrp5, if_neg hext] at h
  split at h
  · cases h
  next hno =>
  split at h
  · cases h
  rw [not_or] at hno
  have h24 : extField (codeOf c rip n) = 2 ∨ extField (codeOf c rip n) = 4 := by tauto
  simp only [if_neg hno.1, Option.some.injEq] at h
  unfold stepGrp5
  generalize hkind : (if extField (codeOf c rip n) = 2 then Kind.callm else Kind.jmpm) = kind at h
  obtain ⟨k, raw, hmod, hview⟩ := rm_view c rip n rex hr (insnAt rex hr).size 0
    { insnAt rex hr with kind := kind } fun rm => { insnAt rex hr with kind := kind, reg := rm }
  rw [Prog.bind_eval (modrmExt_of_modrm c rex hmod), if_neg hno.1]
  rcases h24 with h2 | h4
  · rw [if_pos h2] at hkind
    subst hkind
    rcases hview with ⟨i, hw, hfix⟩ | ⟨e, hw, hfix⟩ <;> rw [hw] at h <;> obtain ⟨rfl, rfl⟩ := Prod.mk.inj h <;>
      simp only [hfix, h2] <;> rfl
  · rw [if_neg (by rw [h4]; decide)] at hkind
    subst hkind
    rcases hview with ⟨i, hw, hfix⟩ | ⟨e, hw, hfix⟩ <;> rw [hw] at h <;> obtain ⟨rfl, rfl⟩ := Prod.mk.inj h <;>
      simp only [hfix, h4] <;> rfl

/-! #### Branches -/

/-- A conditional branch whose displacement has been read. -/
lemma jcc_exec (cc : BitVec 8) (d : Dec) (rel : BitVec 64) {x : Insn} (hk : x.kind = .jcc) (hcc : x.cc = cc)
    (hn : x.next = decRip d) (ht : x.target = decRip d + rel) :
    ((do
      wrRip (decRip d)
      let f ← rdFlags
      if cond f cc then wrRip (decRip d + rel)
      pure d : M Dec) c) = (d, (x.exec fp c).2) := by
  simp only [Insn.exec, hk, hcc, hn, ht]
  by_cases hc : cond c.flags cc = true
  · simp [rdFlags, wrRip, hc]
  · simp [rdFlags, wrRip, hc]

lemma jcc8_agree : stepJcc8 op (decAt rip n rex hr (insnAt rex hr).size 0) c =
    (decAt rip (n + 1) rex hr (insnAt rex hr).size 0,
      ((finishInsn rip (n + 1)
        { insnAt rex hr with kind := .jcc, cc := op &&& 0xF, imm := (codeOf c rip).i8 n }).exec fp c).2) := by
  unfold stepJcc8
  rw [Prog.bind_eval (imm8s_at c rip n rex hr _ 0)]
  exact jcc_exec fp c _ (decAt rip (n + 1) rex hr (insnAt rex hr).size 0) _ rfl rfl rfl rfl

lemma jcc32_agree : stepJcc32 op (decAt rip n rex hr (insnAt rex hr).size 0) c =
    (decAt rip (n + 4) rex hr (insnAt rex hr).size 0,
      ((finishInsn rip (n + 4)
        { insnAt rex hr with kind := .jcc, cc := op &&& 0xF, imm := (codeOf c rip).i32 n }).exec fp c).2) := by
  unfold stepJcc32
  rw [Prog.bind_eval (imm32s_at c rip n rex hr _ 0)]
  exact jcc_exec fp c _ (decAt rip (n + 4) rex hr (insnAt rex hr).size 0) _ rfl rfl rfl rfl

/-! #### Two-byte opcodes -/

lemma imul_agree (h : decImul (codeOf c rip) n rex (insnAt rex hr) = some (n', o)) :
    stepImul (decAt rip n rex hr (insnAt rex hr).size 0) c =
      (decAt rip n' rex hr (insnAt rex hr).size 0, ((finishInsn rip n' o).exec fp c).2) := by
  simp only [decImul, Option.some.injEq] at h
  unfold stepImul
  obtain ⟨k, raw, hmod, hview⟩ := rm_view c rip n rex hr (insnAt rex hr).size 0
    { insnAt rex hr with kind := .imul, reg := regField (codeOf c rip n) rex }
    fun rm => { insnAt rex hr with kind := .imul, reg := regField (codeOf c rip n) rex, src := rm }
  rw [Prog.bind_eval (modrmAdvance_of_modrm c hmod)]
  rcases hview with ⟨i, hw, hfix⟩ | ⟨e, hw, hfix⟩ <;> rw [hw] at h <;> obtain ⟨rfl, rfl⟩ := Prod.mk.inj h <;>
    simp only [hfix] <;> rfl

lemma setcc_agree (h : decSetcc (codeOf c rip) n rex op (insnAt rex hr) = some (n', o)) :
    stepSetcc op (decAt rip n rex hr (insnAt rex hr).size 0) c =
      (decAt rip n' rex hr (insnAt rex hr).size 0, ((finishInsn rip n' o).exec fp c).2) := by
  simp only [decSetcc, Option.some.injEq] at h
  unfold stepSetcc
  obtain ⟨k, raw, hmod, hview⟩ := rm_view c rip n rex hr (insnAt rex hr).size 0
    { insnAt rex hr with kind := .setcc, size := 1, cc := op &&& 0xF }
    fun rm => { insnAt rex hr with kind := .setcc, size := 1, cc := op &&& 0xF, reg := rm }
  rw [Prog.bind_eval (modrmAdvance_of_modrm c hmod)]
  rcases hview with ⟨i, hw, hfix⟩ | ⟨e, hw, hfix⟩ <;> rw [hw] at h <;> obtain ⟨rfl, rfl⟩ := Prod.mk.inj h <;>
    simp only [hfix] <;> rfl

lemma movx_agree (h : decMovx (codeOf c rip) n rex op (insnAt rex hr) = some (n', o)) :
    stepMovx op (decAt rip n rex hr (insnAt rex hr).size 0) c =
      (decAt rip n' rex hr (insnAt rex hr).size 0, ((finishInsn rip n' o).exec fp c).2) := by
  simp only [decMovx, Option.some.injEq] at h
  unfold stepMovx
  have hss : (if (op &&& 1 != 0) = true then 2 else 1) = if op &&& 1 ≠ 0 then 2 else 1 := by
    simp only [bne_iff_ne]
  simp only [hss]
  generalize (if op &&& 1 ≠ 0 then 2 else 1) = ssize at h ⊢
  obtain ⟨k, raw, hmod, hview⟩ := rm_view c rip n rex hr (insnAt rex hr).size 0
    { insnAt rex hr with
      kind := .movx, ssize := ssize, sign := op &&& 8 != 0, reg := regField (codeOf c rip n) rex }
    fun rm => { insnAt rex hr with
      kind := .movx, ssize := ssize, sign := op &&& 8 != 0, reg := regField (codeOf c rip n) rex, src := rm }
  rw [Prog.bind_eval (modrmAdvance_of_modrm c hmod)]
  rcases hview with ⟨i, hw, hfix⟩ | ⟨e, hw, hfix⟩ <;> rw [hw] at h <;> obtain ⟨rfl, rfl⟩ := Prod.mk.inj h <;>
    simp only [hfix] <;> rfl

lemma nop_agree (sz : Nat) (mand : BitVec 8) (h : decNop (codeOf c rip) n rex (insnAt rex hr) = some (n', o)) :
    (do
      let (_, _, d) ← modrmAdvance (decAt rip n rex hr sz mand)
      pure d : M Dec) c =
      (decAt rip n' rex hr sz mand, ((finishInsn rip n' o).exec fp c).2) := by
  simp only [decNop] at h
  obtain ⟨k, raw, hmod, hview⟩ := rm_view c rip n rex hr sz mand (insnAt rex hr) fun _ => insnAt rex hr
  rw [Prog.bind_eval (modrmAdvance_of_modrm c hmod)]
  rcases hview with ⟨i, hw, hfix⟩ | ⟨e, hw, hfix⟩ <;>
    simp only [hw, Option.some.injEq, Prod.mk.injEq] at h <;> obtain ⟨rfl, rfl⟩ := h <;> rfl

lemma fcmp_and (fp : Fp) (imm : BitVec 8) : fcmp fp (imm &&& 7) = fcmp fp imm := by
  funext x y
  unfold fcmp
  rw [BitVec.and_assoc]
  rfl

lemma sse_exec {x : Insn} {dst : Opnd} (hk : x.kind = .sse)
    (hrm : (x.mem = false ∧ dst = .reg x.xsrc) ∨ (x.mem = true ∧ dst = .mem (x.addr c.r) 0)) :
    x.exec fp c = x.execSse fp dst c := by
  simp only [Insn.exec, hk]
  rw [Prog.bind_eval (rmOp_eval c hrm)]

lemma sseCmpExec_and (mand imm : BitVec 8) (reg : Fin 16) (rm : Opnd) :
    sseCmpExec fp mand (imm &&& 7) reg rm = sseCmpExec fp mand imm reg rm := by
  unfold sseCmpExec
  rw [fcmp_and]

/-- Every accepted SSE opcode but the comparison reads ModRM and then does its work. -/
lemma sseExec_eq {d : Dec} (htab : twoTable op .sse = true) (hacc : (ssePrefix op).accepts d.mand = true)
    (hC2 : op ≠ 0xC2) :
    sseExec fp d op c = (do
      let (reg, rm, d') ← modrmAdvance d
      sseBody fp d'.mand op (if rexW d'.rex then 8 else 4) 0 reg rm
      pure (true, d') : M (Bool × Dec)) c := by
  have hne : (ssePrefix op == .never) = false := by
    rw [beq_eq_false_iff_ne]
    intro hp
    rw [hp] at hacc
    cases hacc
  have hscalar : ssePrefix op = .scalar → ¬ (d.mand ≠ 0xF2 ∧ d.mand ≠ 0xF3) := by
    intro hp
    rw [hp] at hacc
    simp only [SsePrefix.accepts, Bool.or_eq_true, beq_iff_eq] at hacc
    tauto
  simp only [twoTable, hne, Bool.false_or, Bool.and_eq_true] at htab
  obtain ⟨-, htab⟩ := htab
  unfold sseExec sseBody
  cases hcls : sseClass op <;> simp only [hcls, Bool.false_eq_true, bne_iff_ne, Bool.and_eq_true, beq_iff_eq] at htab <;>
    simp only
  case mov => rfl
  case arith => rfl
  case comis => rfl
  case cmp => exact absurd htab hC2
  case bitwise =>
    have hb : ¬ (0xDB ≤ op ∧ d.mand ≠ 0x66) := by
      rintro ⟨hle, hm⟩
      rcases Bool.or_eq_true_iff.mp htab.2 with hp | hp
      · rw [beq_iff_eq] at hp
        rw [hp] at hacc
        exact hm (beq_iff_eq.mp hacc)
      · exact absurd hle (BitVec.not_le.mpr (of_decide_eq_true hp))
    rw [sseBitwise, if_neg hb]
  case cvtFrom =>
    rw [sseCvtFrom, if_neg (hscalar htab.2)]
  case cvtTo =>
    rw [sseCvtTo, if_neg (hscalar htab.2)]
  case cvtFloat =>
    rw [sseCvtFloat, if_neg (hscalar htab.2)]

lemma sse_agree (sz : Nat) (mand : BitVec 8) (htab : twoTable op .sse = true)
    (h : decodeSse (codeOf c rip) n rex mand op (insnAt rex hr) = some (n', o)) :
    sseExec fp (decAt rip n rex hr sz mand) op c =
      ((true, decAt rip n' rex hr sz mand), ((finishInsn rip n' o).exec fp c).2) := by
  simp only [decodeSse] at h
  split at h
  · cases h
  next hacc =>
  rw [Bool.not_eq_false] at hacc
  generalize hisz : (if rexW rex = true then 8 else 4) = isize at h
  obtain ⟨k, raw, hmod, hview⟩ := rm_view c rip n rex hr sz mand
    { insnAt rex hr with
      kind := .sse, mand := mand, op2 := op, isize := isize, xreg := regField (codeOf c rip n) rex }
    fun rm => { insnAt rex hr with
      kind := .sse, mand := mand, op2 := op, isize := isize, xreg := regField (codeOf c rip n) rex, xsrc := rm }
  by_cases hC2 : op = 0xC2
  · subst hC2
    simp only [if_true] at h
    have hcls : sseClass 0xC2 = .cmp := rfl
    have himm : modrmImmAdvance (decAt rip n rex hr sz mand) c =
        ((regField (codeOf c rip n) rex, fixupRip (decAt rip (k + 1) rex hr sz mand) raw, codeOf c rip k,
          decAt rip (k + 1) rex hr sz mand), { c with rip := rip + BitVec.ofNat 64 (k + 1) }) := by
      unfold modrmImmAdvance
      rw [Prog.bind_eval hmod]
      rfl
    simp only [sseExec, hcls, sseCmp]
    rw [Prog.bind_eval himm]
    rcases hview with ⟨i, hw, hfix⟩ | ⟨e, hw, hfix⟩ <;> simp only [hw, Option.some.injEq, Prod.mk.injEq] at h <;>
      obtain ⟨rfl, rfl⟩ := h
    · rw [sse_exec fp c rfl (.inl ⟨rfl, rfl⟩)]
      simp only [Insn.execSse, sseBody, finishInsn, hcls, hfix, sseCmpExec_and]
      rfl
    · rw [sse_exec fp c rfl (.inr ⟨rfl, rfl⟩)]
      simp only [Insn.execSse, sseBody, finishInsn, hcls, hfix, sseCmpExec_and]
      rfl
  · simp only [if_neg hC2] at h
    rw [sseExec_eq fp c op htab hacc hC2, Prog.bind_eval (modrmAdvance_of_modrm c hmod)]
    rcases hview with ⟨i, hw, hfix⟩ | ⟨e, hw, hfix⟩ <;> simp only [hw, Option.some.injEq, Prod.mk.injEq] at h <;>
      obtain ⟨rfl, rfl⟩ := h
    · rw [sse_exec fp c rfl (.inl ⟨rfl, rfl⟩)]
      simp only [Insn.execSse, finishInsn, hfix, ← hisz]
      rfl
    · rw [sse_exec fp c rfl (.inr ⟨rfl, rfl⟩)]
      simp only [Insn.execSse, finishInsn, hfix, ← hisz]
      rfl

/-- The one-byte cases of the two switches. -/
lemma oneByte_agree (hcls : jitClass op ≠ .twoByte)
    (h : decOp (codeOf c rip) n rex 0 op (insnAt rex hr) = some (n', o)) :
    stepOp fp op (decAt rip n rex hr (insnAt rex hr).size 0) c =
      ((.done, decAt rip n' rex hr (insnAt rex hr).size 0), ((finishInsn rip n' o).exec fp c).2) := by
  have htab := (opTable_holds op).1
  have hgo : ∀ k, opClass op = k → k ≠ .twoByte →
      stepOneByte op (decAt rip n rex hr (insnAt rex hr).size 0) k c =
        (decAt rip n' rex hr (insnAt rex hr).size 0, ((finishInsn rip n' o).exec fp c).2) →
      stepOp fp op (decAt rip n rex hr (insnAt rex hr).size 0) c =
        ((.done, decAt rip n' rex hr (insnAt rex hr).size 0), ((finishInsn rip n' o).exec fp c).2) := by
    intro k hk hk2 hstep
    unfold stepOp
    rw [hk]
    cases k <;> first | exact absurd rfl hk2 | (simp only; rw [Prog.bind_eval hstep]; rfl)
  unfold decOp at h
  cases hj : jitClass op <;> simp only [hj] at h htab hcls
  case aluRow =>
    have hk : opClass op = .aluRow := by
      simp only [opTable, Bool.and_eq_true, beq_iff_eq] at htab
      exact htab.1.1
    exact hgo _ hk OpClass.noConfusion (aluRow_agree fp c rip n rex hr op htab h)
  case grp1 =>
    simp only [opTable, Bool.or_eq_true, beq_iff_eq] at htab
    split at htab
    · next hop => exact hgo _ (beq_iff_eq.mp htab) OpClass.noConfusion (movRmImm_agree fp c rip n rex hr op hop h)
    · simp only [Bool.and_eq_true, Bool.or_eq_true, beq_iff_eq, or_assoc] at htab
      exact hgo _ htab.1 OpClass.noConfusion (grp1_agree fp c rip n rex hr op htab.2 h)
  case eax =>
    simp only [opTable, Bool.or_eq_true, beq_iff_eq] at htab
    split at htab
    · next hop => exact hgo _ (beq_iff_eq.mp htab) OpClass.noConfusion (testEax_agree fp c rip n rex hr op hop h)
    · next hop =>
      simp only [Bool.and_eq_true, beq_iff_eq] at htab
      have hnm : eaxOp op ≠ .mov := by
        unfold eaxOp
        rw [if_neg hop]
        split <;> exact Op.noConfusion
      exact hgo _ htab.1 OpClass.noConfusion (aluEax_agree fp c rip n rex hr op htab.2 hnm h)
  case movRegImm8 => exact hgo _ (beq_iff_eq.mp htab) OpClass.noConfusion (movRegImm8_agree fp c rip n rex hr op h)
  case movRegImm => exact hgo _ (beq_iff_eq.mp htab) OpClass.noConfusion (movRegImm_agree fp c rip n rex hr op h)
  case shift =>
    simp only [opTable, Bool.and_eq_true, Bool.or_eq_true, beq_iff_eq, or_assoc] at htab
    exact hgo _ htab.1 OpClass.noConfusion (shift_agree fp c rip n rex hr op htab.2 h)
  case imulImm => exact hgo _ (beq_iff_eq.mp htab) OpClass.noConfusion (imulImm_agree fp c rip n rex hr op h)
  case lea => exact hgo _ (beq_iff_eq.mp htab) OpClass.noConfusion (lea_agree fp c rip n rex hr h)
  case pushPop =>
    have hop : if op < 0x58 then opClass op = .pushReg else opClass op = .popReg := by
      simp only [opTable] at htab
      split at htab
      · next hlt => rw [if_pos hlt]; exact beq_iff_eq.mp htab
      · next hlt => rw [if_neg hlt]; exact beq_iff_eq.mp htab
    refine hgo _ rfl ?_ (pushPop_agree fp c rip n rex hr op hop h)
    split at hop <;> rw [hop] <;> exact OpClass.noConfusion
  case nop =>
    split at h
    · cases h
    obtain ⟨rfl, rfl⟩ := Prod.mk.inj (Option.some.inj h)
    exact hgo _ (beq_iff_eq.mp htab) OpClass.noConfusion rfl
  case jcc8 =>
    obtain ⟨rfl, rfl⟩ := Prod.mk.inj (Option.some.inj h)
    exact hgo _ (beq_iff_eq.mp htab) OpClass.noConfusion (jcc8_agree fp c rip n rex hr op)
  case jmp8 =>
    simp only [opTable, Bool.and_eq_true, beq_iff_eq] at htab
    obtain ⟨rfl, rfl⟩ := Prod.mk.inj (Option.some.inj h)
    refine hgo _ htab.1 OpClass.noConfusion ?_
    simp only [stepOneByte, stepJmp, htab.2]
    rfl
  case jmp32 =>
    simp only [opTable, Bool.and_eq_true, beq_iff_eq] at htab
    obtain ⟨rfl, rfl⟩ := Prod.mk.inj (Option.some.inj h)
    refine hgo _ htab.1 OpClass.noConfusion ?_
    simp only [stepOneByte, stepJmp, htab.2]
    rfl
  case call =>
    obtain ⟨rfl, rfl⟩ := Prod.mk.inj (Option.some.inj h)
    exact hgo _ (beq_iff_eq.mp htab) OpClass.noConfusion rfl
  case ret =>
    obtain ⟨rfl, rfl⟩ := Prod.mk.inj (Option.some.inj h)
    exact hgo _ (beq_iff_eq.mp htab) OpClass.noConfusion rfl
  case grp5 =>
    by_cases hext : extField (codeOf c rip n) = 0 ∨ extField (codeOf c rip n) = 1
    · exact hgo _ (beq_iff_eq.mp htab) OpClass.noConfusion (incDec_agree fp c rip n rex hr op hext h)
    · exact hgo _ (beq_iff_eq.mp htab) OpClass.noConfusion (callJmp_agree fp c rip n rex hr op hext h)
  case twoByte => exact absurd rfl hcls
  case none => cases h

lemma twoByte_agree (sz : Nat) (mand : BitVec 8) (hsz : mand = 0 → sz = (insnAt rex hr).size)
    (h : decTwoByte (codeOf c rip) n rex mand (insnAt rex hr) = some (n', o)) :
    stepTwoByte fp (decAt rip n rex hr sz mand) c =
      ((.done, decAt rip n' rex hr sz mand), ((finishInsn rip n' o).exec fp c).2) := by
  have htab := twoTable_holds (codeOf c rip n)
  have hgp : codeOf c rip n ≠ 5 → sseClass (codeOf c rip n) = .none →
      stepTwoByteGp (codeOf c rip n) (decAt rip (n + 1) rex hr sz mand) c =
        (decAt rip n' rex hr sz mand, ((finishInsn rip n' o).exec fp c).2) →
      stepTwoByte fp (decAt rip n rex hr sz mand) c =
        ((.done, decAt rip n' rex hr sz mand), ((finishInsn rip n' o).exec fp c).2) := by
    intro h5 hs hstep
    unfold stepTwoByte
    rw [Prog.bind_eval (fetch8_at c rip n rex hr sz mand)]
    simp only [if_neg h5, sseExec, hs]
    rw [Prog.bind_eval (Prog.pure_apply _ c)]
    simp only [Bool.false_eq_true, if_false]
    rw [Prog.bind_eval hstep]
    rfl
  simp only [decTwoByte] at h
  cases hj : jitTwo (codeOf c rip n) <;> simp only [hj] at h htab
  case sse =>
    have h5 : codeOf c rip n ≠ 5 := by
      intro h5
      rw [h5] at h
      simp only [decodeSse, show SsePrefix.accepts mand (ssePrefix 5) = false from rfl, if_true] at h
      cases h
    unfold stepTwoByte
    rw [Prog.bind_eval (fetch8_at c rip n rex hr sz mand)]
    simp only [if_neg h5]
    rw [Prog.bind_eval (sse_agree fp c rip (n + 1) rex hr _ sz mand htab h)]
    rfl
  case nop =>
    simp only [twoTable, Bool.and_eq_true, bne_iff_ne, beq_iff_eq] at htab
    split at h
    · cases h
    refine hgp htab.1.1 htab.1.2 ?_
    simp only [stepTwoByteGp, htab.2]
    exact nop_agree fp c rip (n + 1) rex hr sz mand h
  all_goals
    simp only [twoTable, Bool.and_eq_true, bne_iff_ne, beq_iff_eq] at htab
    split at h
    · cases h
    rename_i hm
    rw [not_not] at hm
    subst hm
    rw [hsz rfl] at hgp ⊢
    refine hgp htab.1.1 htab.1.2 ?_
    simp only [stepTwoByteGp, htab.2]
  case jcc =>
    obtain ⟨rfl, rfl⟩ := Prod.mk.inj (Option.some.inj h)
    exact jcc32_agree fp c rip (n + 1) rex hr _
  case imul => exact imul_agree fp c rip (n + 1) rex hr h
  case setcc => exact setcc_agree fp c rip (n + 1) rex hr _ h
  case movx => exact movx_agree fp c rip (n + 1) rex hr _ h

lemma op_agree (sz : Nat) (mand : BitVec 8) (hsz : mand = 0 → sz = (insnAt rex hr).size)
    (hmand : ¬ (mand ≠ 0 ∧ op ≠ 0x0F)) (h : decOp (codeOf c rip) n rex mand op (insnAt rex hr) = some (n', o)) :
    stepOp fp op (decAt rip n rex hr sz mand) c =
      ((.done, decAt rip n' rex hr sz mand), ((finishInsn rip n' o).exec fp c).2) := by
  by_cases hcls : jitClass op = .twoByte
  · have hop : opClass op = .twoByte := by
      have htab := (opTable_holds op).1
      rw [hcls] at htab
      exact beq_iff_eq.mp htab
    simp only [decOp, hcls] at h
    simp only [stepOp, hop]
    exact twoByte_agree fp c rip n rex hr sz mand hsz h
  · have h0 : op ≠ 0x0F := by
      rintro rfl
      exact hcls rfl
    have hm : mand = 0 := by tauto
    subst hm
    rw [hsz rfl]
    exact oneByte_agree fp c rip n rex hr op hcls h

end Cases

/-! ### Prefixes -/

section Prefixes

variable (c : Cpu) (rip : BitVec 64)

lemma prefixLoop_stop (fuel : Nat) (d : Dec) (h : prefixOf (codeOf c d.p0 d.n) = none) :
    prefixLoop (fuel + 1) d c = (d, c) := by
  have hc : codeAt d 0 c = (codeOf c d.p0 d.n, c) := rfl
  rw [prefixLoop, Prog.bind_eval hc, h]
  rfl

lemma isMand_cases {b : BitVec 8} (h : isMand b = true) : b = 0x66 ∨ b = 0xF2 ∨ b = 0xF3 := by
  simpa [isMand, or_assoc] using h

/-- The operand size after a mandatory prefix: `0x66` makes it two bytes. -/
def mandSize (b : BitVec 8) : Nat := if b = 0x66 then 2 else 4

lemma prefixLoop_mand (fuel : Nat) (hm : isMand (codeOf c rip 0) = true) :
    prefixLoop (fuel + 1) (Dec.start rip) c =
      prefixLoop fuel (decAt rip 1 0 false (mandSize (codeOf c rip 0)) (codeOf c rip 0)) c := by
  have hc : codeAt (Dec.start rip) 0 c = (codeOf c rip 0, c) := rfl
  rw [prefixLoop, Prog.bind_eval hc]
  rcases isMand_cases hm with h | h | h <;> rw [h] <;> rfl

lemma addressCount_eq : addressCount = (2 ^ 64 - 2) + 1 + 1 := by
  unfold addressCount
  omega

/-- REX after the prefixes. -/
def rexSize (b : BitVec 8) (sz : Nat) : Nat := if rexW b then 8 else sz

lemma isRex_prefixOf : ∀ b : BitVec 8, isRex b = true → prefixOf b = none := by
  decide

/-- What the interpreter has read when it comes to the opcode. -/
lemma prefixes_agree {mand : BitVec 8} {n : Nat} (hr : Bool)
    (hmand : (isMand (codeOf c rip 0) = true ∧ mand = codeOf c rip 0 ∧ n = 1) ∨
      (isMand (codeOf c rip 0) = false ∧ mand = 0 ∧ n = 0))
    (hrex : isRex (codeOf c rip n) = hr) (hop : prefixOf (codeOf c rip n) = none) :
    prefixes (Dec.start rip) c =
      (decAt rip (if hr then n + 1 else n) (if hr then codeOf c rip n else 0) hr
        (rexSize (if hr then codeOf c rip n else 0) (if mand = 0 then 4 else mandSize mand)) mand, c) := by
  have hloop : prefixLoop addressCount (Dec.start rip) c =
      (decAt rip n 0 false (if mand = 0 then 4 else mandSize mand) mand, c) := by
    rw [addressCount_eq]
    rcases hmand with ⟨hm, rfl, rfl⟩ | ⟨hm, rfl, rfl⟩
    · have h0 : ¬ codeOf c rip 0 = 0 := by
        rcases isMand_cases hm with h | h | h <;> rw [h] <;> decide
      rw [prefixLoop_mand c rip _ hm, if_neg h0]
      exact prefixLoop_stop c _ _ hop
    · exact prefixLoop_stop c _ _ hop
  have hc : codeAt (decAt rip n 0 false (if mand = 0 then 4 else mandSize mand) mand) 0 c = (codeOf c rip n, c) := rfl
  unfold prefixes
  rw [Prog.bind_eval hloop, Prog.bind_eval hc]
  cases hr with
  | true =>
    have hx : codeOf c rip n &&& 0xF0 = 0x40 := beq_iff_eq.mp hrex
    rw [if_pos hx]
    rfl
  | false =>
    have hx : ¬ codeOf c rip n &&& 0xF0 = 0x40 := beq_eq_false_iff_ne.mp hrex
    have hW : rexW 0 = false := rfl
    rw [if_neg hx]
    simp only [Bool.false_eq_true, if_false, rexSize, hW, Prog.pure_apply]

end Prefixes

/-- The tail of `decode`, once the prefixes have been read. -/
def decodeFrom (p : Code) (rip : BitVec 64) (mand : BitVec 8) (hr : Bool) (rex : BitVec 8) (k : Nat) : Option Insn :=
  if mand ≠ 0 ∧ p k ≠ 0x0F then none
  else (decOp p (k + 1) rex mand (p k) (insnAt rex hr)).map fun r => finishInsn rip r.1 r.2

lemma decode_eq (p : Code) (rip : BitVec 64) :
    decode p rip =
      let mand := if isMand (p 0) then p 0 else 0
      let n := if isMand (p 0) then 1 else 0
      decodeFrom p rip mand (isRex (p n)) (if isRex (p n) then p n else 0) (if isRex (p n) then n + 1 else n) := rfl

lemma decodeFrom_some {p : Code} {rip : BitVec 64} {mand rex : BitVec 8} {hr : Bool} {k : Nat} {o : Insn}
    (h : decodeFrom p rip mand hr rex k = some o) :
    ∃ n' x, ¬ (mand ≠ 0 ∧ p k ≠ 0x0F) ∧ decOp p (k + 1) rex mand (p k) (insnAt rex hr) = some (n', x) ∧
      o = finishInsn rip n' x := by
  by_cases hop : mand ≠ 0 ∧ p k ≠ 0x0F
  · rw [decodeFrom, if_pos hop] at h
    cases h
  · rw [decodeFrom, if_neg hop] at h
    obtain ⟨⟨n', x⟩, hdec, rfl⟩ := Option.map_eq_some_iff.mp h
    exact ⟨n', x, hop, hdec, rfl⟩

/-- What a successful decoding has gone through. -/
lemma decode_some {p : Code} {rip : BitVec 64} {o : Insn} (h : decode p rip = some o) :
    ∃ mand n hr rex k n' x,
      ((isMand (p 0) = true ∧ mand = p 0 ∧ n = 1) ∨ (isMand (p 0) = false ∧ mand = 0 ∧ n = 0)) ∧
      isRex (p n) = hr ∧ rex = (if hr then p n else 0) ∧ k = (if hr then n + 1 else n) ∧
      ¬ (mand ≠ 0 ∧ p k ≠ 0x0F) ∧ decOp p (k + 1) rex mand (p k) (insnAt rex hr) = some (n', x) ∧
      o = finishInsn rip n' x := by
  rw [decode_eq] at h
  obtain ⟨n', x, hop, hdec, ho⟩ := decodeFrom_some h
  refine ⟨_, _, _, _, _, n', x, ?_, rfl, rfl, rfl, hop, hdec, ho⟩
  by_cases hm : isMand (p 0) = true
  · exact .inl ⟨hm, if_pos hm, if_pos hm⟩
  · exact .inr ⟨Bool.eq_false_iff.mpr hm, if_neg hm, if_neg hm⟩

lemma jitClass_ne_none {p : Code} {n : Nat} {rex mand op : BitVec 8} {o : Insn} {r : Nat × Insn}
    (h : decOp p n rex mand op o = some r) : jitClass op ≠ .none := by
  intro hn
  simp only [decOp, hn] at h
  cases h

/-- The interpreter's step on the bytes of an instruction the compiler accepts is the
instruction's meaning, and its cursor ends where the compiler's does. -/
lemma stepInsn_of_decode (fp : Fp) (c : Cpu) {o : Insn} (h : decode (codeOf c c.rip) c.rip = some o) :
    ∃ d, d.p0 = c.rip ∧ d.n = o.len ∧
      stepInsn fp c = ((.done, d), (o.exec fp { c with curRip := c.rip }).2) := by
  obtain ⟨mand, n, hr, rex, k, n', x, hmand, hrex, rfl, rfl, hop, hdec, rfl⟩ := decode_some h
  have hpre : prefixOf (codeOf c c.rip n) = none := by
    cases hr with
    | true => exact isRex_prefixOf _ hrex
    | false => exact (opTable_holds _).2 (jitClass_ne_none hdec)
  have hp := prefixes_agree { c with curRip := c.rip } c.rip hr hmand hrex hpre
  have hsz : mand = 0 → rexSize (if hr then codeOf c c.rip n else 0) (if mand = 0 then 4 else mandSize mand) =
      (insnAt (if hr then codeOf c c.rip n else 0) hr).size := by
    rintro rfl
    rfl
  have hs : stepInsn fp c = (prefixes (Dec.start c.rip) >>= fun d => fetch8 d >>= fun x => stepOp fp x.1 x.2)
      { c with curRip := c.rip } := rfl
  rw [hs, Prog.bind_eval hp, Prog.bind_eval (fetch8_at ..)]
  exact ⟨_, rfl, rfl, op_agree fp { c with curRip := c.rip } c.rip _ _ hr _ _ mand hsz hop hdec⟩

lemma decode_len {p : Code} {rip : BitVec 64} {o : Insn} (h : decode p rip = some o) : o.len < 16 := by
  obtain ⟨mand, n, hr, rex, k, n', x, hmand, -, -, rfl, -, hdec, rfl⟩ := decode_some h
  have hend : n' ≤ _ := decOp_end hdec
  have hk : (if hr = true then n + 1 else n) ≤ 2 := by
    rcases hmand with ⟨-, -, rfl⟩ | ⟨-, -, rfl⟩ <;> cases hr <;> decide
  exact Nat.lt_of_le_of_lt hend (by omega)

/-- What lies beyond the first 16 bytes is not looked at. -/
lemma decode_congr {p q : Code} (h : SameBytes 16 p q) (rip : BitVec 64) : decode p rip = decode q rip := by
  have hn : (if isMand (q 0) = true then 1 else 0) ≤ 1 := by split <;> decide
  rw [decode_eq, decode_eq, h 0 (by decide)]
  simp only
  generalize (if isMand (q 0) = true then 1 else 0) = n at hn
  rw [h n (by omega)]
  have hk : (if isRex (q n) = true then n + 1 else n) ≤ 2 := by split <;> omega
  simp only [decodeFrom, h _ (Nat.lt_of_le_of_lt hk (by decide)), decOp_congr h _ _ _ _ (Nat.succ_le_succ hk)]

/-- Whatever the block compiler decodes, it has decoded from the first 16 bytes, and the
interpreter consumes as many bytes of them and does what the decoded record says. -/
theorem decoders_agree (p : Code) (rip : BitVec 64) (o : Insn) (h : decode p rip = some o) :
    o.len < 16 ∧ o.next = rip + BitVec.ofNat 64 o.len ∧
      (∀ q, SameBytes 16 p q → decode q rip = some o) ∧
      ∀ (fp : Fp) (c : Cpu), c.rip = rip → SameBytes 16 p (codeOf c rip) →
        ∃ d, d.p0 = rip ∧ d.n = o.len ∧
          stepInsn fp c = ((.done, d), (o.exec fp { c with curRip := rip }).2) := by
  refine ⟨decode_len h, ?_, fun q hq => (decode_congr hq rip).symm.trans h, ?_⟩
  · obtain ⟨mand, n, hr, rex, k, n', x, -, -, -, -, -, -, rfl⟩ := decode_some h
    rfl
  · rintro fp c rfl hc
    exact stepInsn_of_decode fp c ((decode_congr hc c.rip).symm.trans h)

/-- `add qword ptr [rip + 0x10], 1`, whose displacement counts from behind its immediate. -/
def addRipImm : Code := fun i => [0x48#8, 0x83, 0x05, 0x10, 0x00, 0x00, 0x00, 0x01].getD i 0

def addRipImmInsn : Insn :=
  { Insn.zero with
    kind := .mi, op := .add, size := 8, len := 8, mem := true, imm := 1, hasRex := true, next := 0x1008,
    ea := { Ea.zero with riprel := true, disp := 0x10 } }

theorem decoders_agree_addRipImm :
    decode addRipImm 0x1000 = some addRipImmInsn ∧ (∀ r, addRipImmInsn.addr r = 0x1018) ∧
      addRipImmInsn.len < 16 ∧ addRipImmInsn.next = 0x1000 + BitVec.ofNat 64 addRipImmInsn.len ∧
      (∀ q, SameBytes 16 addRipImm q → decode q 0x1000 = some addRipImmInsn) ∧
      ∀ (fp : Fp) (c : Cpu), c.rip = 0x1000 → SameBytes 16 addRipImm (codeOf c 0x1000) →
        ∃ d, d.p0 = 0x1000 ∧ d.n = addRipImmInsn.len ∧
          stepInsn fp c = ((.done, d), (addRipImmInsn.exec fp { c with curRip := 0x1000 }).2) :=
  ⟨by decide, fun _ => rfl, decoders_agree addRipImm 0x1000 addRipImmInsn (by decide)⟩

end Rashid.Proofs
