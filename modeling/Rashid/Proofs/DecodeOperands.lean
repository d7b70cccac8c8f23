import Rashid.Proofs.Widths

/-!
# Operands and opcodes of the two decoders

The interpreter computes an effective address while it decodes; the compiler keeps its parts.
Both are followed here from the same code bytes, together with the immediates that come after
and with what the interpreter's switch makes of the opcodes the compiler knows.
-/

namespace Rashid.Proofs

/-! ### Operands -/

lemma fetch8_eval (d : Dec) (c : Cpu) : fetch8 d c = ((codeOf c d.p0 d.n, d.skip 1), c) := rfl

lemma fetch32_eval (d : Dec) (c : Cpu) : fetch32 d c = (((codeOf c d.p0).u32 d.n, d.skip 4), c) := rfl

lemma imm8_eval (d : Dec) (c : Cpu) : imm8 d c = (((codeOf c d.p0 d.n).setWidth 64, d.skip 1), c) := rfl

lemma imm8s_eval (d : Dec) (c : Cpu) : imm8s d c = (((codeOf c d.p0).i8 d.n, d.skip 1), c) := rfl

lemma imm32s_eval (d : Dec) (c : Cpu) : imm32s d c = (((codeOf c d.p0).i32 d.n, d.skip 4), c) := rfl

lemma addr_add_disp (e : Ea) (next x : BitVec 64) (r : Fin 16 → BitVec 64) :
    ({ e with disp := e.disp + x } : Ea).addr next r = e.addr next r + x := by
  simp only [Ea.addr, BitVec.add_assoc]

/-- A RIP-relative operand has neither base nor index. -/
def Ea.Ok (e : Ea) : Prop := e.riprel = true → e.hasBase = false ∧ e.hasIndex = false

lemma addr_of_not_riprel {e : Ea} (h : e.riprel = false) (next : BitVec 64) (r : Fin 16 → BitVec 64) :
    e.addr next r = e.addr 0 r := by
  simp [Ea.addr, h]

/-- The operand `modrm` yields for a memory form. -/
def opndOf (e : Ea) (r : Fin 16 → BitVec 64) (seg : BitVec 64) : Opnd :=
  if e.riprel then .ripRel e.disp seg else .mem (e.addr 0 r) seg

lemma fixupRip_opndOf {e : Ea} (he : Ea.Ok e) (d : Dec) (r : Fin 16 → BitVec 64) (seg : BitVec 64) :
    fixupRip d (opndOf e r seg) = .mem (e.addr (decRip d) r) seg := by
  unfold opndOf
  by_cases h : e.riprel = true
  · obtain ⟨hb, hi⟩ := he h
    simp [h, fixupRip, Ea.addr, hb, hi]
  · simp [h, fixupRip, addr_of_not_riprel (Bool.eq_false_iff.mpr h) (decRip d)]

lemma opndOf_mem {e : Ea} (he : e.riprel = false) (r : Fin 16 → BitVec 64) (seg : BitVec 64) :
    opndOf e r seg = .mem (e.addr 0 r) seg := by
  simp [opndOf, he]

lemma opndOf_add_disp {e : Ea} (he : e.riprel = false) (x : BitVec 64) (r : Fin 16 → BitVec 64) (seg : BitVec 64) :
    opndOf { e with disp := e.disp + x } r seg = .mem (e.addr 0 r + x) seg := by
  rw [← addr_add_disp]
  exact opndOf_mem (e := { e with disp := e.disp + x }) he r seg

lemma modrmDisp_eval (d : Dec) (reg : Fin 16) (mod : BitVec 8) (c : Cpu) {e : Ea} (he : e.riprel = false)
    {addr : BitVec 64} (ha : addr = e.addr 0 c.r) :
    modrmDisp d reg mod addr c =
      ((reg, opndOf (eaDisp (codeOf c d.p0) d.n mod e).2 c.r d.segBase,
        { d with n := (eaDisp (codeOf c d.p0) d.n mod e).1 }), c) := by
  subst ha
  unfold modrmDisp eaDisp
  simp only [Prog.bind_apply, Prog.ite_apply', Prog.pure_apply, fetch8_eval, fetch32_eval]
  by_cases h1 : mod = 1
  · simp only [if_pos h1]
    rw [opndOf_add_disp he]
    rfl
  · by_cases h2 : mod = 2
    · simp only [if_neg h1, if_pos h2]
      rw [opndOf_add_disp he]
      rfl
    · simp only [if_neg h1, if_neg h2]
      rw [opndOf_mem he]

lemma eaDisp_riprel (p : Code) (n : Nat) (mod : BitVec 8) (e : Ea) :
    (eaDisp p n mod e).2.riprel = e.riprel ∧ (eaDisp p n mod e).2.hasBase = e.hasBase ∧
      (eaDisp p n mod e).2.hasIndex = e.hasIndex := by
  unfold eaDisp
  split
  · exact ⟨rfl, rfl, rfl⟩
  · split <;> exact ⟨rfl, rfl, rfl⟩

lemma eaIndex_riprel (rex sib : BitVec 8) (e : Ea) : (eaIndex rex sib e).riprel = e.riprel := by
  unfold eaIndex
  split <;> rfl

lemma eaSib_riprel (p : Code) (n : Nat) (rex mod : BitVec 8) : (eaSib p n rex mod).2.riprel = false := by
  simp only [eaSib]
  split <;> exact eaIndex_riprel rex (p n) Ea.zero

lemma modrmMem_ok (p : Code) (n : Nat) (rex m : BitVec 8) : Ea.Ok (modrmMem p n rex m).2 := by
  intro h
  unfold modrmMem at h ⊢
  by_cases h4 : m &&& 7 = 4
  · simp only [h4, if_true] at h
    rw [(eaDisp_riprel _ _ _ _).1, eaSib_riprel] at h
    cases h
  · by_cases h5 : m &&& 7 = 5 ∧ m >>> 6 = 0
    · simp only [if_neg h4, if_pos h5]
      exact (eaDisp_riprel _ _ _ _).2
    · simp only [if_neg h4, if_neg h5] at h
      rw [(eaDisp_riprel _ _ _ _).1] at h
      cases h

lemma modrmSib_eval (d : Dec) (reg : Fin 16) (mod : BitVec 8) (c : Cpu) :
    modrmSib d reg mod c =
      let s := eaSib (codeOf c d.p0) d.n d.rex mod
      ((reg, opndOf (eaDisp (codeOf c d.p0) s.1 mod s.2).2 c.r d.segBase,
        { d with n := (eaDisp (codeOf c d.p0) s.1 mod s.2).1 }), c) := by
  have hs := eaSib_riprel (codeOf c d.p0) d.n d.rex mod
  unfold modrmSib
  rw [Prog.bind_eval (fetch8_eval d c)]
  simp only [rdR, Prog.bind_apply, Prog.get_apply, Prog.ite_apply']
  by_cases h5 : codeOf c d.p0 d.n &&& 7 = 5 ∧ mod = 0
  · have hn : (eaSib (codeOf c d.p0) d.n d.rex mod).1 = d.n + 1 + 4 := by
      simp only [eaSib, if_pos h5]
    rw [if_pos h5, fetch32_eval, modrmDisp_eval _ reg mod c hs, hn]
    · rfl
    · rw [eaSib, if_pos h5]
      by_cases hi : regNo (codeOf c d.p0 d.n >>> 3) (rexX d.rex) = rsp <;>
        simp [Ea.addr, eaIndex, hi, Ea.zero, Code.i32, Dec.skip]
  · have hn : (eaSib (codeOf c d.p0) d.n d.rex mod).1 = d.n + 1 := by
      simp only [eaSib, if_neg h5]
    rw [if_neg h5, modrmDisp_eval _ reg mod c hs, hn]
    · rfl
    · rw [eaSib, if_neg h5]
      by_cases hi : regNo (codeOf c d.p0 d.n >>> 3) (rexX d.rex) = rsp
      · simp [Ea.addr, eaIndex, hi, Ea.zero, Dec.skip]
      · simp [Ea.addr, eaIndex, hi, Ea.zero, BitVec.add_comm, Dec.skip]

/-- A memory operand, as the two decoders see it. -/
lemma modrm_mem_eval (d : Dec) (c : Cpu) (h : ¬ codeOf c d.p0 d.n >>> 6 = 3) :
    modrm d c =
      let m := codeOf c d.p0 d.n
      let e := modrmMem (codeOf c d.p0) (d.n + 1) d.rex m
      ((regField m d.rex, opndOf e.2 c.r d.segBase, { d with n := e.1 }), c) := by
  unfold modrm modrmMem
  rw [Prog.bind_eval (fetch8_eval d c)]
  simp only [rdR, Prog.bind_apply, Prog.get_apply, Prog.pure_apply, Prog.ite_apply']
  rw [if_neg h]
  by_cases h4 : codeOf c d.p0 d.n &&& 7 = 4
  · rw [if_pos h4, if_pos h4, modrmSib_eval]
    rfl
  · rw [if_neg h4, if_neg h4]
    by_cases h5 : codeOf c d.p0 d.n &&& 7 = 5 ∧ codeOf c d.p0 d.n >>> 6 = 0
    · rw [if_pos h5, if_pos h5, fetch32_eval, h5.2]
      rfl
    · rw [if_neg h5, if_neg h5]
      rw [modrmDisp_eval (e := { Ea.zero with hasBase := true, base := regNo (codeOf c d.p0 d.n) (rexB d.rex) })]
      · rfl
      · rfl
      · simp [Ea.addr, Ea.zero, Dec.skip]

lemma modrm_reg_eval (d : Dec) (c : Cpu) (h : codeOf c d.p0 d.n >>> 6 = 3) :
    modrm d c =
      let m := codeOf c d.p0 d.n
      ((regField m d.rex, .reg (rmField m d.rex), d.skip 1), c) := by
  unfold modrm
  rw [Prog.bind_eval (fetch8_eval d c)]
  simp only [Prog.ite_apply', Prog.pure_apply]
  rw [if_pos h]
  rfl

/-! ### The cursor after the opcode -/

/-- The interpreter's cursor with `n` bytes read and no segment override. -/
def decAt (rip : BitVec 64) (n : Nat) (rex : BitVec 8) (hasRex : Bool) (sz : Nat) (mand : BitVec 8) : Dec :=
  ⟨rip, rip, n, rex, hasRex, sz, false, 0, mand⟩

/-- The compiler's record when the opcode has been read. -/
def insnAt (rex : BitVec 8) (hasRex : Bool) : Insn :=
  { Insn.zero with hasRex := hasRex, size := if rexW rex then 8 else 4 }

section Cursor

variable (c : Cpu) (rip : BitVec 64) (n : Nat) (rex : BitVec 8) (hr : Bool) (sz : Nat) (mand : BitVec 8)

@[simp] lemma decAt_opsize : (decAt rip n rex hr sz mand).opsize = sz := rfl
@[simp] lemma decAt_hasRex : (decAt rip n rex hr sz mand).hasRex = hr := rfl
@[simp] lemma decAt_rex : (decAt rip n rex hr sz mand).rex = rex := rfl
@[simp] lemma decAt_mand : (decAt rip n rex hr sz mand).mand = mand := rfl
@[simp] lemma decRip_decAt : decRip (decAt rip n rex hr sz mand) = rip + BitVec.ofNat 64 n := rfl

lemma modrm_reg_at (hm : codeOf c rip n >>> 6 = 3) :
    modrm (decAt rip n rex hr sz mand) c =
      ((regField (codeOf c rip n) rex, .reg (rmField (codeOf c rip n) rex), decAt rip (n + 1) rex hr sz mand), c) :=
  modrm_reg_eval (decAt rip n rex hr sz mand) c hm

lemma modrm_mem_at (hm : ¬ codeOf c rip n >>> 6 = 3) :
    modrm (decAt rip n rex hr sz mand) c =
      let e := modrmMem (codeOf c rip) (n + 1) rex (codeOf c rip n)
      ((regField (codeOf c rip n) rex, opndOf e.2 c.r 0, decAt rip e.1 rex hr sz mand), c) :=
  modrm_mem_eval (decAt rip n rex hr sz mand) c hm

lemma modrmAdvance_reg_at (hm : codeOf c rip n >>> 6 = 3) :
    modrmAdvance (decAt rip n rex hr sz mand) c =
      ((regField (codeOf c rip n) rex, .reg (rmField (codeOf c rip n) rex), decAt rip (n + 1) rex hr sz mand),
        { c with rip := rip + BitVec.ofNat 64 (n + 1) }) := by
  unfold modrmAdvance
  rw [Prog.bind_eval (modrm_reg_at c rip n rex hr sz mand hm)]
  rfl

lemma modrmAdvance_mem_at (hm : ¬ codeOf c rip n >>> 6 = 3) :
    modrmAdvance (decAt rip n rex hr sz mand) c =
      let e := modrmMem (codeOf c rip) (n + 1) rex (codeOf c rip n)
      ((regField (codeOf c rip n) rex, .mem (e.2.addr (rip + BitVec.ofNat 64 e.1) c.r) 0, decAt rip e.1 rex hr sz mand),
        { c with rip := rip + BitVec.ofNat 64 e.1 }) := by
  unfold modrmAdvance
  rw [Prog.bind_eval (modrm_mem_at c rip n rex hr sz mand hm)]
  simp only [Prog.bind_apply, Prog.pure_apply, fixupRip_opndOf (modrmMem_ok _ _ _ _)]
  rfl

lemma ofNat_regNo_and (bits : BitVec 8) (b : Bool) : BitVec.ofNat 8 (regNo bits b).val &&& 7 = bits &&& 7 := by
  apply BitVec.eq_of_toNat_eq
  have h7 : ∀ x : BitVec 8, (x &&& 7).toNat = x.toNat % 8 := by
    intro x
    rw [BitVec.toNat_and]
    exact Nat.and_two_pow_sub_one_eq_mod x.toNat 3
  rw [h7, h7, BitVec.toNat_ofNat, regNo]
  simp only [h7]
  split <;> omega

lemma extField_le (m : BitVec 8) : extField m ≤ 7 := by
  rw [BitVec.le_def, extField, BitVec.toNat_and]
  exact Nat.and_le_right

lemma imm8_at : imm8 (decAt rip n rex hr sz mand) c =
    (((codeOf c rip n).setWidth 64, decAt rip (n + 1) rex hr sz mand), c) := rfl

lemma imm8s_at : imm8s (decAt rip n rex hr sz mand) c =
    (((codeOf c rip).i8 n, decAt rip (n + 1) rex hr sz mand), c) := rfl

lemma imm32s_at : imm32s (decAt rip n rex hr sz mand) c =
    (((codeOf c rip).i32 n, decAt rip (n + 4) rex hr sz mand), c) := rfl

lemma imm32_at : imm32 (decAt rip n rex hr sz mand) c =
    ((((codeOf c rip).u32 n).setWidth 64, decAt rip (n + 4) rex hr sz mand), c) := rfl

lemma fetch64_at : fetch64 (decAt rip n rex hr sz mand) c =
    (((codeOf c rip).u64 n, decAt rip (n + 8) rex hr sz mand), c) := rfl

lemma fetch8_at : fetch8 (decAt rip n rex hr sz mand) c =
    ((codeOf c rip n, decAt rip (n + 1) rex hr sz mand), c) := rfl

end Cursor

/-! ### Opcodes -/

/-- The interpreter's operation of the same name. -/
def aluOf : Op → Option Alu
  | .add => some .add
  | .or => some .or
  | .and => some .and
  | .sub => some .sub
  | .xor => some .xor
  | .cmp => some .cmp
  | .test => some .test
  | .mov => some .mov
  | _ => none

lemma op_exec_eq {op : Op} {a : Alu} (h : aluOf op = some a) : op.exec = aluExec a := by
  cases op <;> simp only [aluOf, Option.some.injEq, reduceCtorEq] at h <;> subst h <;> rfl

/-- What the interpreter's switch makes of the opcodes of each of the compiler's cases. -/
def opTable (op : BitVec 8) : JitClass → Bool
  | .aluRow => opClass op == .aluRow && aluOf (rowOp op) == some (rowAlu op) &&
      (op &&& 1 == 0 || op == 0x84 || op == 0x88 || op == 0x8A) == (op &&& 1 == 0 || op == 0x88 || op == 0x8A)
  | .grp1 => if op == 0xC6 || op == 0xC7 then opClass op == .movRmImm
      else opClass op == .grp1 && (op == 0x80 || op == 0x81 || op == 0x83)
  | .eax => if op == 0xA8 || op == 0xA9 then opClass op == .testEax
      else opClass op == .aluEax && aluOf (eaxOp op) == some (eaxAlu op)
  | .movRegImm8 => opClass op == .movRegImm8
  | .movRegImm => opClass op == .movRegImm
  | .shift => opClass op == .shift &&
      (op == 0xC0 || op == 0xC1 || op == 0xD0 || op == 0xD1 || op == 0xD2 || op == 0xD3)
  | .imulImm => opClass op == .imulImm
  | .lea => opClass op == .lea
  | .pushPop => if op < 0x58 then opClass op == .pushReg else opClass op == .popReg
  | .nop => opClass op == .nop
  | .jcc8 => opClass op == .jcc8
  | .twoByte => opClass op == .twoByte
  | .jmp8 => opClass op == .jmp && op == 0xEB
  | .jmp32 => opClass op == .jmp && op == 0xE9
  | .call => opClass op == .call
  | .ret => opClass op == .ret
  | .grp5 => opClass op == .grp5
  | .none => true

lemma opTable_holds : ∀ op : BitVec 8,
    opTable op (jitClass op) = true ∧ (jitClass op ≠ .none → prefixOf op = none) := by
  decide +kernel

/-- The same for the two-byte opcodes. -/
def twoTable (op2 : BitVec 8) : JitTwo → Bool
  | .jcc => op2 != 5 && sseClass op2 == .none && twoClass op2 == .jcc
  | .imul => op2 != 5 && sseClass op2 == .none && twoClass op2 == .imul
  | .setcc => op2 != 5 && sseClass op2 == .none && twoClass op2 == .setcc
  | .movx => op2 != 5 && sseClass op2 == .none && twoClass op2 == .movx
  | .nop => op2 != 5 && sseClass op2 == .none && twoClass op2 == .nop
  | .sse =>
    ssePrefix op2 == .never || (op2 != 5 &&
      match sseClass op2 with
      | .mov | .comis => op2 != 0xC2
      | .bitwise => op2 != 0xC2 && (ssePrefix op2 == .only66 || decide (op2 < 0xDB))
      | .arith => op2 != 0xC2
      | .cvtFrom | .cvtTo | .cvtFloat => op2 != 0xC2 && ssePrefix op2 == .scalar
      | .cmp => op2 == 0xC2
      | _ => false)

lemma twoTable_holds : ∀ op2 : BitVec 8, twoTable op2 (jitTwo op2) = true := by
  decide +kernel

end Rashid.Proofs
