import Rashid.Proofs.Opcode
import Rashid.Proofs.Stops

/-!
# The length of an instruction

How far the cursor moves behind the opcode, case by case, against the length that the encoding
has. The two differ where an immediate should have two bytes and four are read.
-/

namespace Rashid.Proofs

/-! ### One-byte opcodes -/

/-- The form of an opcode, by the case of the switch that it belongs to. -/
def classForm (op : BitVec 8) : OpClass → Form
  | .aluRow | .movsxd | .xchg | .lea | .popRm | .grp5 => ⟨true, .none⟩
  | .aluEax => ⟨false, if op &&& 1 = 0 then .ib else .iz⟩
  | .testEax => ⟨false, if op = 0xA8 then .ib else .iz⟩
  | .pushImm => ⟨false, if op = 0x68 then .iz else .ib⟩
  | .imulImm => ⟨true, if op = 0x6B then .ib else .iz⟩
  | .jcc8 | .movRegImm8 => ⟨false, .ib⟩
  | .grp1 => ⟨true, if op = 0x81 then .iz else .ib⟩
  | .movRegImm => ⟨false, .iv⟩
  | .shift => ⟨true, if op = 0xC0 ∨ op = 0xC1 then .ib else .none⟩
  | .retImm => ⟨false, .iw⟩
  | .movRmImm => ⟨true, if op = 0xC6 then .ib else .iz⟩
  | .call => ⟨false, .id⟩
  | .jmp => ⟨false, if op = 0xE9 then .id else .ib⟩
  | .grp3 => ⟨true, if op = 0xF6 then .testIb else .testIz⟩
  | .pushReg | .popReg | .nop | .pushfq | .popfq | .cwde | .cdq | .ret | .leave | .twoByte | .none => ⟨false, .none⟩

lemma oneByteForm_eq : ∀ op : BitVec 8, opClass op ≠ .none → opClass op ≠ .twoByte →
    oneByteForm op = some (classForm op (opClass op)) := by
  simp only [opClass_eq]
  decide

/-- The operand size that an immediate is read at. Five opcodes go by four bytes whatever it is. -/
def readSize (op : BitVec 8) (sz : Nat) : Nat := if op ∈ [0x68#8, 0x69, 0x81, 0xC7, 0xF7] then 4 else sz

/-- The bytes read behind the opcode. -/
def readBytes (op : BitVec 8) (d : Dec) (c : Cpu) : Nat :=
  (classForm op (opClass op)).bytes (codeOf c d.p0) d.n (readSize op d.opsize)

/-- A case that reads `k` bytes and leaves `rip` behind them. -/
def Advances (p : M Dec) (c : Cpu) (d : Dec) (k : Nat) : Prop :=
  ∃ body, IsBuilt RipKept body ∧ p c = after (d.skip k) body c

lemma advances_after {c : Cpu} {d e : Dec} {k : Nat} {p : M Dec} {body : M Unit} (h : p c = after e body c)
    (he : e = d.skip k) [hb : IsBuilt RipKept body] : Advances p c d k :=
  ⟨body, hb, he ▸ h⟩

/-- The immediates that follow the operand size are read by cases which are not among the five. -/
lemma readSize_eq : ∀ op : BitVec 8, (opClass op = .aluEax ∨ opClass op = .testEax ∨ opClass op = .movRegImm) →
    ¬ op ∈ [0x68#8, 0x69, 0x81, 0xC7, 0xF7] := by
  simp only [opClass_eq]
  decide

lemma opClass_ops : ∀ op : BitVec 8,
    (opClass op = .testEax → op = 0xA8 ∨ op = 0xA9) ∧ (opClass op = .pushImm → op = 0x68 ∨ op = 0x6A) ∧
    (opClass op = .imulImm → op = 0x69 ∨ op = 0x6B) ∧ (opClass op = .grp1 → op = 0x80 ∨ op = 0x81 ∨ op = 0x83) ∧
    (opClass op = .movRmImm → op = 0xC6 ∨ op = 0xC7) ∧ (opClass op = .jmp → op = 0xE9 ∨ op = 0xEB) ∧
    (opClass op = .grp3 → op = 0xF6 ∨ op = 0xF7) ∧ (opClass op = .grp5 → op = 0xFE ∨ op = 0xFF) := by
  simp only [opClass_eq]
  decide

section OneByte

variable {op : BitVec 8} (d : Dec) (c : Cpu)

lemma skip_skip (a b : Nat) : (d.skip a).skip b = d.skip (a + b) := by
  simp only [Dec.skip, Nat.add_assoc]

lemma aluRow_advances (h : opClass op = .aluRow) : Advances (stepAluRow op d) c d (readBytes op d c) := by
  rw [readBytes, h]
  exact advances_after (stepAluRow_eq op d c) rfl

/-- The immediate whose width follows the operand size. -/
lemma immZ_snd (byte : Bool) (sz : Nat) (hb : byte = false → sz = d.opsize) :
    (immZ d c byte sz).2 = d.skip ((if byte then Imm.ib else .iz).bytes d.opsize (extField (codeOf c d.p0 d.n))) := by
  unfold immZ
  cases byte with
  | true => rfl
  | false =>
    rw [hb rfl]
    by_cases h2 : d.opsize = 2
    · simp only [h2, Bool.false_eq_true, if_false, if_true, Imm.bytes]
    · simp only [h2, Bool.false_eq_true, if_false, Imm.bytes]

lemma aluEax_advances (h : opClass op = .aluEax) : Advances (stepAluEax op d) c d (readBytes op d c) := by
  rw [readBytes, h, readSize, if_neg (readSize_eq op (.inl h))]
  refine advances_after (stepAluEax_eq op d c) ?_
  rw [immZ_snd]
  · simp only [classForm, Form.bytes, Bool.false_eq_true, if_false, beq_iff_eq, Nat.zero_add]
  · intro hb
    rw [hb]
    rfl

lemma testEax_advances (h : opClass op = .testEax) : Advances (stepTestEax op d) c d (readBytes op d c) := by
  rw [readBytes, h, readSize, if_neg (readSize_eq op (.inr (.inl h)))]
  refine advances_after (stepTestEax_eq op d c) ?_
  rw [immZ_snd]
  · simp only [classForm, Form.bytes, Bool.false_eq_true, if_false, decide_eq_true_eq, Nat.zero_add]
  · intro hb
    rw [if_neg (of_decide_eq_false hb)]

lemma pushImm_advances (h : opClass op = .pushImm) : Advances (stepPushImm op d) c d (readBytes op d c) := by
  rw [readBytes, h]
  have heq := stepPushImm_eq op d c
  rcases (opClass_ops op).2.1 h with rfl | rfl
  · rw [if_pos rfl] at heq
    exact advances_after heq rfl
  · rw [if_neg (by decide)] at heq
    exact advances_after heq rfl

lemma imulImm_advances (h : opClass op = .imulImm) : Advances (stepImulImm op d) c d (readBytes op d c) := by
  rw [readBytes, h]
  refine advances_after (stepImulImm_eq op d c) ?_
  rcases (opClass_ops op).2.2.1 h with rfl | rfl <;> exact skip_skip d _ _

lemma grp1_advances (h : opClass op = .grp1) : Advances (stepGrp1 op d) c d (readBytes op d c) := by
  rw [readBytes, h]
  refine advances_after (stepGrp1_eq op d c) ?_
  rcases (opClass_ops op).2.2.2.1 h with rfl | rfl | rfl <;> exact skip_skip d _ _

lemma movRegImm_advances (h : opClass op = .movRegImm) (hsz : d.opsize = 2 ∨ d.opsize = 4 ∨ d.opsize = 8) :
    Advances (stepMovRegImm op d) c d (readBytes op d c) := by
  rw [readBytes, h, readSize, if_neg (readSize_eq op (.inr (.inr h)))]
  refine advances_after (stepMovRegImm_eq op d c) ?_
  unfold immV
  rcases hsz with hsz | hsz | hsz <;> simp [hsz, classForm, Form.bytes, Imm.bytes]

lemma shift_advances (h : opClass op = .shift) : Advances (stepShift op d) c d (readBytes op d c) := by
  rw [readBytes, h]
  refine advances_after (stepShift_eq op d c) ?_
  unfold shiftCount
  by_cases hi : op = 0xC0 ∨ op = 0xC1
  · simp only [hi, decide_true, if_true, classForm, Form.bytes, Imm.bytes]
    exact skip_skip d _ _
  · simp only [hi, decide_false, Bool.false_eq_true, if_false, classForm, Form.bytes, if_true, Imm.bytes]
    split <;> rfl

lemma movRmImm_advances (h : opClass op = .movRmImm) : Advances (stepMovRmImm op d) c d (readBytes op d c) := by
  rw [readBytes, h]
  refine advances_after (stepMovRmImm_eq op d c) ?_
  rcases (opClass_ops op).2.2.2.2.1 h with rfl | rfl <;> exact skip_skip d _ _

lemma grp3_advances (h : opClass op = .grp3) : Advances (stepGrp3 op d) c d (readBytes op d c) := by
  rw [readBytes, h]
  refine advances_after (stepGrp3_eq op d c) ?_
  unfold immTest rmExt
  by_cases ht : extField (codeOf c d.p0 d.n) = 0 ∨ extField (codeOf c d.p0 d.n) = 1
  · rcases (opClass_ops op).2.2.2.2.2.2.1 h with rfl | rfl <;>
      simp only [ht, if_true, classForm, Form.bytes, Imm.bytes] <;> exact skip_skip d _ _
  · rcases (opClass_ops op).2.2.2.2.2.2.1 h with rfl | rfl <;>
      simp only [ht, if_false, classForm, Form.bytes, Imm.bytes] <;> rfl

lemma grp5Exec_built (ext : BitVec 8) (a : BitVec 64) (sz : Nat) (rm : Opnd) (h : ¬ (2 ≤ ext ∧ ext ≤ 5)) :
    IsBuilt RipKept (grp5Exec ext a sz rm d) := by
  unfold grp5Exec
  split
  · infer_instance
  · infer_instance
  · exact absurd (by decide) h
  · exact absurd (by decide) h
  · infer_instance
  · infer_instance

lemma grp5_advances (h : opClass op = .grp5) (hext : ¬ (2 ≤ rmExt d c ∧ rmExt d c ≤ 5)) :
    Advances (stepGrp5 op d) c d (readBytes op d c) := by
  rw [readBytes, h]
  have hwork (a : BitVec 64) : IsBuilt RipKept (grp5Exec (rmExt d c) a (if op = 0xFE then 1 else d.opsize)
      (rmAt d (pastRm d c) c) (pastRm d c)) := grp5Exec_built _ _ _ _ _ hext
  exact advances_after (stepGrp5_eq op d c) rfl

lemma grp5_fst (h : opClass op = .grp5) : (stepGrp5 op d c).1 = d.skip (readBytes op d c) := by
  rw [stepGrp5_eq, readBytes, h]
  rfl

def isJump (k : OpClass) : Bool := k matches .jcc8 | .retImm | .ret | .call | .jmp

lemma isJump_cases {k : OpClass} (h : isJump k = true) :
    k = .jcc8 ∨ k = .retImm ∨ k = .ret ∨ k = .call ∨ k = .jmp := by
  revert h
  cases k <;> decide

lemma oneByte_advances (hsz : d.opsize = 2 ∨ d.opsize = 4 ∨ d.opsize = 8) (h2 : opClass op ≠ .twoByte)
    (h0 : opClass op ≠ .none) (hj : isJump (opClass op) = false)
    (h5 : opClass op = .grp5 → ¬ (2 ≤ rmExt d c ∧ rmExt d c ≤ 5)) :
    Advances (stepOneByte op d (opClass op)) c d (readBytes op d c) := by
  have hrm {body : M Unit} [hb : IsBuilt RipKept body] {p : M Dec} (h : p c = after (pastRm d c) body c)
      (hf : (classForm op (opClass op)) = ⟨true, .none⟩) : Advances p c d (readBytes op d c) := by
    rw [readBytes, hf]
    exact advances_after h rfl
  have hnone {body : M Unit} [hb : IsBuilt RipKept body] {p : M Dec} (h : p c = after d body c)
      (hf : (classForm op (opClass op)) = ⟨false, .none⟩) : Advances p c d (readBytes op d c) := by
    rw [readBytes, hf]
    exact advances_after h rfl
  cases hc : opClass op with
  | aluRow => exact aluRow_advances d c hc
  | aluEax => exact aluEax_advances d c hc
  | testEax => exact testEax_advances d c hc
  | pushReg => exact hnone (stepPushReg_eq op d c) (by rw [hc]; rfl)
  | popReg => exact hnone (stepPopReg_eq op d c) (by rw [hc]; rfl)
  | movsxd => exact hrm (stepMovsxd_eq d c) (by rw [hc]; rfl)
  | pushImm => exact pushImm_advances d c hc
  | imulImm => exact imulImm_advances d c hc
  | grp1 => exact grp1_advances d c hc
  | xchg => exact hrm (stepXchg_eq d c) (by rw [hc]; rfl)
  | lea => exact hrm (stepLea_eq d c) (by rw [hc]; rfl)
  | popRm => exact hrm (stepPopRm_eq d c) (by rw [hc]; rfl)
  | nop => exact hnone (stepNop_eq d c) (by rw [hc]; rfl)
  | pushfq => exact hnone (stepPushfq_eq d c) (by rw [hc]; rfl)
  | popfq => exact hnone (stepPopfq_eq d c) (by rw [hc]; rfl)
  | cwde => exact hnone (stepCwde_eq d c) (by rw [hc]; rfl)
  | cdq => exact hnone (stepCdq_eq d c) (by rw [hc]; rfl)
  | movRegImm8 =>
    rw [readBytes, hc]
    exact advances_after (stepMovRegImm8_eq op d c) rfl
  | movRegImm => exact movRegImm_advances d c hc hsz
  | shift => exact shift_advances d c hc
  | movRmImm => exact movRmImm_advances d c hc
  | leave => exact hnone (stepLeave_eq d c) (by rw [hc]; rfl)
  | grp3 => exact grp3_advances d c hc
  | grp5 => exact grp5_advances d c hc (h5 hc)
  | jcc8 | retImm | ret | call | jmp => rw [hc] at hj; cases hj
  | twoByte => exact absurd hc h2
  | none => exact absurd hc h0

/-- The cursor, also of the jumps. -/
lemma oneByte_fst (hsz : d.opsize = 2 ∨ d.opsize = 4 ∨ d.opsize = 8) (h2 : opClass op ≠ .twoByte)
    (h0 : opClass op ≠ .none) : (stepOneByte op d (opClass op) c).1 = d.skip (readBytes op d c) := by
  by_cases h5 : opClass op = .grp5
  · rw [h5]
    exact grp5_fst d c h5
  by_cases hj : isJump (opClass op) = true
  · unfold readBytes
    rcases isJump_cases hj with hc | hc | hc | hc | hc <;> rw [hc]
    · exact stepJcc8_fst op d c
    · exact stepRetImm_fst d c
    · exact stepRet_fst d c
    · exact stepCall_fst d c
    · refine (stepJmp_fst op d c).trans ?_
      rcases (opClass_ops op).2.2.2.2.2.1 hc with rfl | rfl <;> rfl
  · obtain ⟨body, -, h⟩ := oneByte_advances d c hsz h2 h0 (Bool.eq_false_iff.mpr hj) fun h => absurd h h5
    rw [h, after_fst]

end OneByte

/-! ### Two-byte opcodes -/

section TwoByte

variable (op : BitVec 8) (d : Dec) (c : Cpu)

def twoForm (op : BitVec 8) : Form :=
  ⟨op != 0x05 && twoClass op != .jcc,
    if twoClass op = .jcc then .id else if op ∈ [0x70#8, 0xA4, 0xAC, 0xC2, 0xC5] then .ib else .none⟩

lemma twoByteForm_eq : ∀ op : BitVec 8, twoByteForm op = some (twoForm op) := by
  simp only [twoForm, twoClass_eq]
  decide

lemma sse_two_disjoint : ∀ op : BitVec 8, sseClass op ≠ .none → twoClass op = .none ∧ op ≠ 0x05 := by
  simp only [sseClass_eq, twoClass_eq]
  decide

/-- The bytes read behind a two-byte opcode. -/
def readTwo : Nat := (twoForm op).bytes (codeOf c d.p0) d.n d.opsize

lemma pastSse_eq (h : sseClass op ≠ .none) : pastSse op d c = d.skip (readTwo op d c) := by
  have hf : ∀ op : BitVec 8, sseClass op ≠ .none →
      twoForm op = ⟨true, if op = 0x70 ∨ op = 0xC2 ∨ op = 0xC5 then .ib else .none⟩ := by
    simp only [twoForm, sseClass_eq, twoClass_eq]
    decide
  rw [readTwo, hf op h, pastSse]
  by_cases hi : op = 0x70 ∨ op = 0xC2 ∨ op = 0xC5
  · simp only [if_pos hi]
    exact skip_skip d _ _
  · simp only [if_neg hi]
    rfl

lemma shld_advances (h : twoClass op = .shld) : Advances (stepShld op d) c d (readTwo op d c) := by
  have hf : ∀ op : BitVec 8, twoClass op = .shld →
      twoForm op = ⟨true, if op = 0xA4 ∨ op = 0xAC then .ib else .none⟩ := by
    simp only [twoForm, twoClass_eq]
    decide
  rw [readTwo, hf op h]
  refine advances_after (stepShld_eq op d c) ?_
  unfold shiftCount
  by_cases hi : op = 0xA4 ∨ op = 0xAC
  · simp only [hi, decide_true, if_true]
    exact skip_skip d _ _
  · simp only [hi, decide_false, Bool.false_eq_true, if_false]
    rfl

lemma twoGp_advances (h0 : twoClass op ≠ .none) (hj : twoClass op ≠ .jcc) :
    Advances (stepTwoByteGp op d) c d (readTwo op d c) := by
  have hf : ∀ op : BitVec 8, twoClass op ≠ .none → twoClass op ≠ .jcc → twoClass op ≠ .shld →
      twoForm op = ⟨true, .none⟩ := by
    simp only [twoForm, twoClass_eq]
    decide
  unfold stepTwoByteGp
  by_cases hs : twoClass op = .shld
  · rw [hs]
    exact shld_advances op d c hs
  rw [readTwo, hf op h0 hj hs]
  cases hc : twoClass op with
  | nop => exact advances_after (twoNop_eq d c) rfl
  | setcc => exact advances_after (stepSetcc_eq op d c) rfl
  | cmov => exact advances_after (stepCmov_eq op d c) rfl
  | imul => exact advances_after (stepImul_eq d c) rfl
  | movx => exact advances_after (stepMovx_eq op d c) rfl
  | jcc => exact absurd hc hj
  | shld => exact absurd hc hs
  | none => exact absurd hc h0

variable {op} in
/-- An opcode that `sse_exec` knows is handled there or not at all. -/
lemma escaped_sse {fp : Fp} (hs : sseClass op ≠ .none) (hf : (stepEscaped fp op d c).2.fault = none) :
    (sseExec fp d op c).1.1 = true ∧
      stepEscaped fp op d c = ((.done, (sseExec fp d op c).1.2), (sseExec fp d op c).2) := by
  obtain ⟨h0, h5⟩ := sse_two_disjoint op hs
  generalize hr : sseExec fp d op c = r
  obtain ⟨⟨b, e⟩, c1⟩ := r
  unfold stepEscaped at hf ⊢
  rw [if_neg h5, Prog.bind_eval hr] at hf ⊢
  cases b with
  | true => exact ⟨rfl, rfl⟩
  | false =>
    simp only [Bool.false_eq_true, if_false, stepTwoByteGp, h0] at hf
    cases hf

variable {op} in
lemma escaped_gp {fp : Fp} (hs : sseClass op = .none) (h5 : op ≠ 0x05) :
    stepEscaped fp op d c = ((.done, (stepTwoByteGp op d c).1), (stepTwoByteGp op d c).2) := by
  have hsse : sseExec fp d op c = ((false, d), c) := by
    rw [sseExec, hs]
    rfl
  unfold stepEscaped
  rw [if_neg h5, Prog.bind_eval hsse]
  rfl

/-- A two-byte opcode faults, jumps, or reads its bytes and works. -/
lemma escaped_cases (fp : Fp) : (stepEscaped fp op d c).2.fault ≠ none ∨
    (twoClass op = .jcc ∧ (stepEscaped fp op d c).1.2 = d.skip (readTwo op d c)) ∨
    (twoClass op ≠ .jcc ∧ ∃ out body, IsBuilt RipKept body ∧ stepEscaped fp op d c =
      ((out, (after (d.skip (readTwo op d c)) body c).1), (after (d.skip (readTwo op d c)) body c).2)) := by
  by_cases hf : (stepEscaped fp op d c).2.fault = none
  · right
    by_cases h5 : op = 0x05
    · rw [h5]
      exact .inr ⟨by decide, .syscall, pure (), inferInstance, rfl⟩
    by_cases hs : sseClass op = .none
    · rw [escaped_gp d c hs h5] at hf ⊢
      have h0 : twoClass op ≠ .none := by
        intro h0
        simp only [stepTwoByteGp, h0] at hf
        cases hf
      by_cases hj : twoClass op = .jcc
      · have hform : ∀ op : BitVec 8, twoClass op = .jcc → twoForm op = ⟨false, .id⟩ := by
          simp only [twoForm, twoClass_eq]
          decide
        refine .inl ⟨hj, ?_⟩
        simp only [stepTwoByteGp, hj, readTwo, hform op hj]
        exact stepJcc32_fst op d c
      · obtain ⟨body, hb, h⟩ := twoGp_advances op d c h0 hj
        exact .inr ⟨hj, .done, body, hb, by rw [h]⟩
    · obtain ⟨htrue, heq⟩ := escaped_sse d c hs hf
      obtain ⟨h0, -⟩ := sse_two_disjoint op hs
      rcases sseExec_handles op d c fp with hd | h
      · rw [htrue] at hd
        cases hd
      · refine .inr ⟨h0 ▸ by decide, .done, sseWork op d c fp (pastSse op d c), inferInstance, ?_⟩
        rw [heq, h, pastSse_eq op d c hs]
        rfl
  · exact .inl hf

end TwoByte

/-! ### The whole instruction -/

/-- The bytes that `step` reads of an instruction. -/
def readLength (e : Encoding) (p : Code) : Nat :=
  e.tail + if e.escaped then (twoForm e.op).bytes p e.tail e.opsize
    else (classForm e.op (opClass e.op)).bytes p e.tail (readSize e.op e.opsize)

def stepLength (p : Code) : Nat := readLength (encodingAt p) p

lemma opsize_cases (e : Encoding) : e.opsize = 2 ∨ e.opsize = 4 ∨ e.opsize = 8 := by
  unfold Encoding.opsize
  split
  · exact .inr (.inr rfl)
  · split
    · exact .inl rfl
    · exact .inr (.inl rfl)

lemma branches_oneByte {e : Encoding} {p : Code} (hesc : e.escaped = false) (h : e.branches p = false) :
    isJump (opClass e.op) = false ∧ (opClass e.op = .grp5 → ¬ (2 ≤ e.ext p ∧ e.ext p ≤ 5)) := by
  have htable : ∀ op : BitVec 8, isJump (opClass op) =
      (decide (0x70 ≤ op ∧ op ≤ 0x7F) || decide (op ∈ [0xC2#8, 0xC3, 0xE8, 0xE9, 0xEB])) := by
    simp only [opClass_eq]
    decide
  simp only [Encoding.branches, hesc, Bool.false_eq_true, if_false, Bool.or_eq_false_iff] at h
  refine ⟨?_, fun h5 hext => ?_⟩
  · rw [htable, Bool.or_eq_false_iff]
    exact h.1
  · have hop : (e.op == 0xFE || e.op == 0xFF) = true := by
      rcases (opClass_ops e.op).2.2.2.2.2.2.2 h5 with h | h <;> rw [h] <;> rfl
    rw [hop, Bool.true_and] at h
    exact of_decide_eq_false h.2 hext

lemma branches_escaped {e : Encoding} {p : Code} (hesc : e.escaped = true) (h : e.branches p = false) :
    twoClass e.op ≠ .jcc := by
  have htable : ∀ op : BitVec 8, twoClass op = .jcc → 0x80 ≤ op ∧ op ≤ 0x8F := by
    simp only [twoClass_eq]
    decide
  intro hj
  simp only [Encoding.branches, hesc, if_true, decide_eq_false_iff_not] at h
  exact h (htable e.op hj)

/-- What an instruction that does not fault has read, and where it goes on unless it jumps. -/
theorem stepInsn_reads (fp : Fp) (c : Cpu) (hf : (stepInsn fp c).2.fault = none) :
    (stepInsn fp c).1.2.p0 = c.rip ∧ (stepInsn fp c).1.2.n = stepLength (codeOf c c.rip) ∧
      ((encodingAt (codeOf c c.rip)).branches (codeOf c c.rip) = false →
        (stepInsn fp c).2.rip = c.rip + BitVec.ofNat 64 (stepLength (codeOf c c.rip))) := by
  have hcode : codeOf (noted c) c.rip = codeOf c c.rip := rfl
  have hdisp := stepInsn_dispatch fp c
  unfold stepLength
  generalize encodingAt (codeOf c c.rip) = e at hdisp
  cases hdisp with
  | unknown h => rw [h] at hf; cases hf
  | oneByte d hd hesc h2 h0 h =>
    have hsz : d.opsize = 2 ∨ d.opsize = 4 ∨ d.opsize = 8 := hd.opsize ▸ opsize_cases e
    have hn : (d.skip (readBytes e.op d (noted c))).n = readLength e (codeOf c c.rip) := by
      rw [readLength, hesc, ← hd.n, ← hd.opsize, readBytes, hd.p0, hcode]
      rfl
    rw [h]
    refine ⟨?_, ?_, fun hb => ?_⟩
    · rw [oneByte_fst d (noted c) hsz h2 h0]
      exact hd.p0
    · rw [oneByte_fst d (noted c) hsz h2 h0]
      exact hn
    · obtain ⟨hj, h5⟩ := branches_oneByte hesc hb
      have hext : rmExt d (noted c) = e.ext (codeOf c c.rip) := by
        rw [rmExt, hd.p0, hd.n]
        rfl
      obtain ⟨body, hbuilt, heq⟩ := oneByte_advances d (noted c) hsz h2 h0 hj (hext ▸ h5)
      rw [heq, after_rip, after_fst, decRip, hn]
      exact congrArg (· + _) hd.rip0
  | escaped d hd hesc h =>
    have hn : (d.skip (readTwo e.op d (noted c))).n = readLength e (codeOf c c.rip) := by
      rw [readLength, hesc, ← hd.n, ← hd.opsize, readTwo, hd.p0, hcode]
      rfl
    rw [h] at hf ⊢
    rcases escaped_cases e.op d (noted c) fp with hfault | ⟨hj, hcur⟩ | ⟨hj, out, body, hbuilt, heq⟩
    · exact absurd hf hfault
    · refine ⟨?_, ?_, fun hb => absurd hj (branches_escaped hesc hb)⟩
      · rw [hcur]
        exact hd.p0
      · rw [hcur]
        exact hn
    · rw [heq]
      refine ⟨hd.p0, hn, fun _ => ?_⟩
      rw [after_rip, after_fst, decRip, hn]
      exact congrArg (· + _) hd.rip0

lemma stepInsn_known (fp : Fp) (c : Cpu) (hf : (stepInsn fp c).2.fault = none) :
    (encodingAt (codeOf c c.rip)).escaped = true ∨ (encodingAt (codeOf c c.rip)).escaped = false ∧
      opClass (encodingAt (codeOf c c.rip)).op ≠ .none ∧ opClass (encodingAt (codeOf c c.rip)).op ≠ .twoByte := by
  cases stepInsn_dispatch fp c with
  | unknown h => rw [h] at hf; cases hf
  | oneByte d hd hesc h2 h0 h => exact .inr ⟨hesc, h0, h2⟩
  | escaped d hd hesc h => exact .inl hesc

/-- The two bytes too many. -/
lemma readSize_bytes (op : BitVec 8) (p : Code) (n sz : Nat) (hsz : sz = 2 ∨ sz = 4 ∨ sz = 8) :
    (classForm op (opClass op)).bytes p n (readSize op sz) = (classForm op (opClass op)).bytes p n sz +
      if sz = 2 ∧ (op ∈ [0x68#8, 0x69, 0x81, 0xC7] ∨ op = 0xF7 ∧ extField (p n) < 2) then 2 else 0 := by
  have hlt : ∀ x : BitVec 8, x < 2 ↔ x = 0 ∨ x = 1 := by decide
  unfold readSize
  by_cases hw : op ∈ [0x68#8, 0x69, 0x81, 0xC7, 0xF7]
  · simp only [if_pos hw, hlt]
    simp only [List.mem_cons, List.not_mem_nil, or_false] at hw
    rcases hw with rfl | rfl | rfl | rfl | rfl
    all_goals
      rcases hsz with rfl | rfl | rfl <;>
        simp [classForm, opClass, Form.bytes, Imm.bytes]
    · split <;> rfl
  · have hno : ¬ (sz = 2 ∧ (op ∈ [0x68#8, 0x69, 0x81, 0xC7] ∨ op = 0xF7 ∧ extField (p n) < 2)) := by
      simp only [List.mem_cons, List.not_mem_nil, or_false] at hw ⊢
      tauto
    rw [if_neg hw, if_neg hno, Nat.add_zero]

lemma insnLength_eq {p : Code} (h : (encodingAt p).escaped = true ∨ (encodingAt p).escaped = false ∧
      opClass (encodingAt p).op ≠ .none ∧ opClass (encodingAt p).op ≠ .twoByte) :
    ∃ len, insnLength p = some len ∧ stepLength p = len + if (encodingAt p).shortImm p then 2 else 0 := by
  unfold insnLength stepLength readLength Encoding.shortImm Encoding.form Encoding.ext
  have hsz := opsize_cases (encodingAt p)
  generalize encodingAt p = e at h hsz
  rcases h with hesc | ⟨hesc, h0, h2⟩
  · simp only [hesc, if_true, twoByteForm_eq, Option.map_some]
    exact ⟨_, rfl, rfl⟩
  · simp only [hesc, Bool.false_eq_true, if_false, oneByteForm_eq e.op h0 h2, Option.map_some]
    refine ⟨_, rfl, ?_⟩
    rw [readSize_bytes e.op p e.tail e.opsize hsz, Nat.add_assoc]
    simp only [Bool.not_false, Bool.true_and, Bool.and_eq_true, beq_iff_eq, Bool.or_eq_true, decide_eq_true_eq]

/-! ### System calls -/

section Syscalls

variable (k : Kernel)

instance : IsBuilt RipKept rdRip := ⟨.prim fun _ => rfl⟩
instance {α : Type} (f : Cpu → α) : IsBuilt RipKept (Prog.get f) := ⟨.prim fun _ => rfl⟩
instance (as : As) (evs : List HostEvent) : IsBuilt RipKept (setAs as evs) := ⟨.prim fun _ => rfl⟩
instance (a : BitVec 64) (w : Fault) : IsBuilt RipKept (memfault a w) := ⟨.prim fun c => memfault_rip a w c⟩
instance (v : BitVec 64) : IsBuilt RipKept (wrGs v) := ⟨.prim fun _ => rfl⟩
instance (g : Cpu → Mem) : IsBuilt RipKept (Prog.modify fun c => { c with mem := g c }) := ⟨.prim fun _ => rfl⟩
instance (v : BitVec 64) : IsBuilt RipKept (sysExit v) := ⟨.prim fun _ => rfl⟩

instance (ret : Int) : IsBuilt RipKept (syscallRet ret) := by
  unfold syscallRet; infer_instance

instance : IsBuilt RipKept unimplementedSyscall := by
  unfold unimplementedSyscall; infer_instance

instance (a0 a1 a2 : BitVec 64) : IsBuilt RipKept (sysRead k a0 a1 a2) := by
  unfold sysRead; infer_instance

instance (a0 a1 a2 : BitVec 64) : IsBuilt RipKept (sysWrite k a0 a1 a2) := by
  unfold sysWrite; infer_instance

instance (a0 a1 : BitVec 64) : IsBuilt RipKept (sysMunmap k a0 a1) := by
  unfold sysMunmap; infer_instance

instance (a0 a1 a2 : BitVec 64) : IsBuilt RipKept (sysMprotect k a0 a1 a2) := by
  unfold sysMprotect; infer_instance

instance (a0 a1 a2 : BitVec 64) : IsBuilt RipKept (sysMmap k a0 a1 a2) := by
  unfold sysMmap; infer_instance

instance (n a0 : BitVec 64) : IsBuilt RipKept (sysMdep n a0) := by
  unfold sysMdep; infer_instance

instance (n a0 a1 a2 : BitVec 64) : IsBuilt RipKept (sysBsd k n a0 a1 a2) := by
  unfold sysBsd; infer_instance

instance : IsBuilt RipKept (doSyscall k) := by
  unfold doSyscall; infer_instance

lemma doSyscall_fault (c : Cpu) (h : (doSyscall k c).2.fault = none) : c.fault = none := by
  by_contra hc
  rcases doSyscall_cases k c with ⟨p, hp, heq, -⟩ | ⟨-, v, heq⟩
  · have hq := Built.rel Quiet.refl (fun _ _ _ => .trans) (fun _ h => runPrim_quiet h) hp c
    rw [heq] at h
    exact hq.fault.isSome hc h
  · rw [heq] at h
    exact hc h

end Syscalls

/-- A step that does not fault, of ordinary code, is an instruction that does not fault. -/
lemma step_insn {fp : Fp} {rt : Runtime} {k : Kernel} {c : Cpu} (hcb : c.rip ≠ callbackMagic)
    (hret : c.rip ≠ returnMagic) (hstub : rsdStubIndex c.stubs c.rip = none) (hf : (step fp rt k c).2.fault = none) :
    rsdAsOk c.as c.rip 1 rsdProtX = true ∧ (stepInsn fp c).2.fault = none ∧
      (step fp rt k c).2.rip = (stepInsn fp c).2.rip := by
  rw [step_code fp rt k hcb hret hstub] at hf ⊢
  by_cases hx : rsdAsOk c.as c.rip 1 rsdProtX = true
  · rw [if_pos hx] at hf ⊢
    generalize hs : stepInsn fp c = r
    obtain ⟨⟨out, d⟩, c1⟩ := r
    unfold stepCode at hf ⊢
    rw [Prog.bind_eval hs] at hf ⊢
    cases out with
    | done => exact ⟨hx, hf, rfl⟩
    | syscall => exact ⟨hx, doSyscall_fault k c1 hf, ripKept (doSyscall k) c1⟩
  · rw [if_neg hx] at hf
    exact absurd hf (memfault_fault _ _ c)

lemma step_of_insn {fp : Fp} {rt : Runtime} {k : Kernel} {c : Cpu} (hcb : c.rip ≠ callbackMagic)
    (hret : c.rip ≠ returnMagic) (hstub : rsdStubIndex c.stubs c.rip = none)
    (hx : rsdAsOk c.as c.rip 1 rsdProtX = true) (hd : (stepInsn fp c).1.1 = .done) :
    (step fp rt k c).2 = (stepInsn fp c).2 := by
  rw [step_code fp rt k hcb hret hstub, if_pos hx]
  generalize hs : stepInsn fp c = r at hd
  obtain ⟨⟨out, d⟩, c1⟩ := r
  cases hd
  unfold stepCode
  rw [Prog.bind_eval hs]
  rfl

lemma step_done {fp : Fp} {rt : Runtime} {k : Kernel} {c : Cpu} (hcb : c.rip ≠ callbackMagic)
    (hret : c.rip ≠ returnMagic) (hstub : rsdStubIndex c.stubs c.rip = none) (hf : (step fp rt k c).2.fault = none)
    (hd : (stepInsn fp c).1.1 = .done) : (step fp rt k c).2 = (stepInsn fp c).2 :=
  step_of_insn hcb hret hstub (step_insn hcb hret hstub hf).1 hd

/-- An instruction that neither jumps nor faults leaves `rip` at its end, unless it has a
sixteen-bit immediate that is read as one of 32 bits. -/
theorem insn_length (fp : Fp) (rt : Runtime) (k : Kernel) (c : Cpu) (hcb : c.rip ≠ callbackMagic)
    (hret : c.rip ≠ returnMagic) (hstub : rsdStubIndex c.stubs c.rip = none)
    (hf : (step fp rt k c).2.fault = none)
    (hb : (encodingAt (codeOf c c.rip)).branches (codeOf c c.rip) = false) :
    (∃ len, insnLength (codeOf c c.rip) = some len ∧ (step fp rt k c).2.rip = c.rip + BitVec.ofNat 64 len) ↔
      (encodingAt (codeOf c c.rip)).shortImm (codeOf c c.rip) = false := by
  obtain ⟨-, hfi, hrip⟩ := step_insn hcb hret hstub hf
  obtain ⟨-, -, hend⟩ := stepInsn_reads fp c hfi
  obtain ⟨len, hlen, hstep⟩ := insnLength_eq (stepInsn_known fp c hfi)
  rw [hrip, hend hb, hstep]
  cases (encodingAt (codeOf c c.rip)).shortImm (codeOf c c.rip) with
  | false =>
    refine iff_of_true ⟨len, hlen, rfl⟩ rfl
  | true =>
    refine iff_of_false ?_ (by decide)
    rintro ⟨len', hlen', h⟩
    rw [hlen] at hlen'
    obtain rfl := Option.some.inj hlen'
    have h2 : BitVec.ofNat 64 (len + 2) = BitVec.ofNat 64 len := (BitVec.add_right_inj _).mp h
    rw [BitVec.ofNat_add] at h2
    exact absurd (BitVec.add_right_eq_self.mp h2) (by decide)

/-- An executable page that starts with `code` and goes on with `nop`. -/
def codeCpu (code : List (BitVec 8)) : Cpu := { nopCpu with mem := fun a => code.getD (a - 0x1000).toNat 0x90 }

/-- `mov ax, 0x1234` under the operand-size prefix. -/
def movImm16 : Cpu := codeCpu [0x66, 0xC7, 0xC0, 0x34, 0x12]

/-- It has five bytes, and the guest goes on at the seventh. -/
theorem mov_imm16_too_long :
    (step sampleFp sampleRuntime sampleKernel movImm16).2.fault = none ∧
      (encodingAt (codeOf movImm16 movImm16.rip)).branches (codeOf movImm16 movImm16.rip) = false ∧
      insnLength (codeOf movImm16 movImm16.rip) = some 5 ∧
      (step sampleFp sampleRuntime sampleKernel movImm16).2.rip = movImm16.rip + 7 ∧
      (step sampleFp sampleRuntime sampleKernel movImm16).2.rip ≠ movImm16.rip + BitVec.ofNat 64 5 := by
  decide

/-- `mov eax, 0x1234` in the same opcode. -/
theorem insn_length_mov_imm32 :
    ∃ len, insnLength (codeOf (codeCpu [0xC7, 0xC0, 0x34, 0x12, 0x00, 0x00]) 0x1000) = some len ∧
      (step sampleFp sampleRuntime sampleKernel (codeCpu [0xC7, 0xC0, 0x34, 0x12, 0x00, 0x00])).2.rip =
        0x1000 + BitVec.ofNat 64 len :=
  (insn_length sampleFp sampleRuntime sampleKernel (codeCpu [0xC7, 0xC0, 0x34, 0x12, 0x00, 0x00]) (by decide)
    (by decide) (by decide) (by decide) (by decide)).mpr (by decide)

end Rashid.Proofs
