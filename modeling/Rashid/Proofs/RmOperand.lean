import Rashid.Proofs.InsnLength
import Rashid.Proofs.Operands

/-!
# The r/m operand

The operand that the interpreter finds behind an opcode is the one that ModRM and its SIB byte
name: a register, or the memory at the sum of a base, an index and a displacement.
-/

namespace Rashid.Proofs

lemma modrm_mod_cases (m : BitVec 8) (h : ¬ m >>> 6 = 3) : m >>> 6 = 0 ∨ m >>> 6 = 1 ∨ m >>> 6 = 2 := by
  have hmod : ∀ x : BitVec 8, ¬ x >>> 6 = 3 → x >>> 6 = 0 ∨ x >>> 6 = 1 ∨ x >>> 6 = 2 := by decide
  exact hmod m h

section Address

variable (e : Encoding) (p : Code) (r : Fin 16 → BitVec 64) (next : BitVec 64)

lemma eaDisp_addr (n : Nat) (mod : BitVec 8) (x : Ea) : (eaDisp p n mod x).2.addr next r =
    x.addr next r + if mod = 1 then p.i8 n else if mod = 2 then p.i32 n else 0 := by
  unfold eaDisp
  by_cases h1 : mod = 1
  · rw [if_pos h1, if_pos h1]
    simp only [Ea.addr, BitVec.add_assoc]
  · by_cases h2 : mod = 2
    · rw [if_neg h1, if_neg h1, if_pos h2, if_pos h2]
      simp only [Ea.addr, BitVec.add_assoc]
    · rw [if_neg h1, if_neg h1, if_neg h2, if_neg h2]
      exact (BitVec.add_zero _).symm

lemma eaIndex_addr (sib : BitVec 8) : (eaIndex e.rex sib Ea.zero).addr next r =
    if regNo (sib >>> 3) (rexX e.rex) = rsp then (0 : BitVec 64)
    else r (regNo (sib >>> 3) (rexX e.rex)) <<< (sib >>> 6).toNat := by
  unfold eaIndex
  by_cases h : regNo (sib >>> 3) (rexX e.rex) = rsp
  · rw [if_neg (not_not.mpr h), if_pos h]
    rfl
  · rw [if_pos h, if_neg h]
    simp [Ea.addr, Ea.zero]

/-- A base or a displacement of 32 bits put to the index. -/
lemma eaIndex_parts (sib : BitVec 8) (b : Fin 16) (x : BitVec 64) :
    ({ eaIndex e.rex sib Ea.zero with hasBase := true, base := b } : Ea).addr next r =
        r b + (eaIndex e.rex sib Ea.zero).addr next r ∧
      ({ eaIndex e.rex sib Ea.zero with disp := x } : Ea).addr next r =
        0 + (eaIndex e.rex sib Ea.zero).addr next r + x := by
  unfold eaIndex
  by_cases h : regNo (sib >>> 3) (rexX e.rex) = rsp <;> simp [h, Ea.addr, Ea.zero]

/-- The displacement of a mode, where the base does not ask for one of its own. -/
lemma displacement_mode (h3 : ¬ p e.tail >>> 6 = 3)
    (h5 : ¬ ((if e.hasSib p then p (e.tail + 1) else p e.tail) &&& 7 = 5 ∧ p e.tail >>> 6 = 0)) :
    e.displacement p =
      let n := if e.hasSib p then e.tail + 2 else e.tail + 1
      if p e.tail >>> 6 = 1 then p.i8 n else if p e.tail >>> 6 = 2 then p.i32 n else 0 := by
  simp only [Encoding.displacement]
  rcases modrm_mod_cases _ h3 with h | h | h
  · rw [if_neg fun h' => h5 ⟨h', h⟩]
  · rw [if_pos h, if_pos h]
  · have h1 : ¬ p e.tail >>> 6 = 1 := by rw [h]; decide
    rw [if_neg h1, if_pos h, if_neg h1, if_pos h]

/-- A base that asks for a displacement of its own. -/
lemma displacement_base (h0 : p e.tail >>> 6 = 0)
    (h5 : (if e.hasSib p then p (e.tail + 1) else p e.tail) &&& 7 = 5) :
    e.displacement p = p.i32 (if e.hasSib p then e.tail + 2 else e.tail + 1) := by
  have h1 : ¬ p e.tail >>> 6 = 1 := by rw [h0]; decide
  have h2 : ¬ p e.tail >>> 6 = 2 := by rw [h0]; decide
  simp only [Encoding.displacement]
  rw [if_neg h1, if_neg h2, if_pos h5]

lemma no_disp {mod : BitVec 8} (h0 : mod = 0) (n : Nat) :
    (if mod = 1 then p.i8 n else if mod = 2 then p.i32 n else (0 : BitVec 64)) = 0#64 := by
  subst h0
  rfl

lemma sib_addr (h4 : p e.tail &&& 7 = 4) (h3 : ¬ p e.tail >>> 6 = 3) :
    (modrmMem p (e.tail + 1) e.rex (p e.tail)).2.addr next r = e.address64 p r next := by
  have hs : e.hasSib p = true := beq_iff_eq.mpr h4
  obtain ⟨hbase, -⟩ := eaIndex_parts e r next (p (e.tail + 1)) (regNo (p (e.tail + 1)) (rexB e.rex)) 0
  obtain ⟨-, hdisp⟩ := eaIndex_parts e r next (p (e.tail + 1)) 0 (p.i32 (e.tail + 2))
  have hindex : e.indexValue p r = (eaIndex e.rex (p (e.tail + 1)) Ea.zero).addr next r := by
    rw [eaIndex_addr, Encoding.indexValue, if_pos hs]
  simp only [modrmMem, if_pos h4, eaDisp_addr, Encoding.address64, hindex, Encoding.baseValue, if_pos hs]
  by_cases h5 : p (e.tail + 1) &&& 7 = 5 ∧ p e.tail >>> 6 = 0
  · rw [displacement_base e p h5.2 (by rw [if_pos hs]; exact h5.1), if_pos hs, if_pos h5, no_disp p h5.2, BitVec.add_zero,
      ← hdisp]
    simp only [eaSib, if_pos h5]
  · rw [displacement_mode e p h3 (by rw [if_pos hs]; exact h5), if_neg h5, ← hbase]
    simp only [eaSib, if_neg h5, if_pos hs]

lemma plain_addr (h4 : ¬ p e.tail &&& 7 = 4) (h3 : ¬ p e.tail >>> 6 = 3) :
    (modrmMem p (e.tail + 1) e.rex (p e.tail)).2.addr next r = e.address64 p r next := by
  have hs : ¬ e.hasSib p = true := fun h => h4 (beq_iff_eq.mp h)
  have hindex : e.indexValue p r = 0#64 := by
    rw [Encoding.indexValue, if_neg hs]
    rfl
  simp only [modrmMem, if_neg h4, Encoding.address64, hindex, Encoding.baseValue, if_neg hs, BitVec.add_zero]
  by_cases h5 : p e.tail &&& 7 = 5 ∧ p e.tail >>> 6 = 0
  · rw [displacement_base e p h5.2 (by rw [if_neg hs]; exact h5.1), if_neg hs, if_pos h5, if_pos h5, eaDisp_addr,
      no_disp p h5.2]
    simp [Ea.addr, Ea.zero]
  · rw [displacement_mode e p h3 (by rw [if_neg hs]; exact h5), if_neg h5, if_neg h5, eaDisp_addr]
    simp only [if_neg hs]
    simp [Ea.addr, Ea.zero, rmField]

/-- The parts that a ModRM byte is taken into are those of the address. -/
lemma modrmMem_addr (h3 : ¬ p e.tail >>> 6 = 3) :
    (modrmMem p (e.tail + 1) e.rex (p e.tail)).2.addr next r = e.address64 p r next := by
  by_cases h4 : p e.tail &&& 7 = 4
  · exact sib_addr e p r next h4 h3
  · exact plain_addr e p r next h4 h3

end Address

/-- Where the interpreter takes the instruction at `rip` to end. -/
def insnEnd (c : Cpu) : BitVec 64 := c.rip + BitVec.ofNat 64 (stepLength (codeOf c c.rip))

/-- The r/m operand of the instruction at `rip`, where the interpreter finds it: it does not look
at the address-size prefix. -/
def rmOperand (c : Cpu) : Opnd :=
  let p := codeOf c c.rip
  let e := encodingAt p
  if p e.tail >>> 6 = 3 then .reg (rmField (p e.tail) e.rex)
  else .mem (e.address64 p c.r (insnEnd c)) (segmentBase e.prefixes c.fsBase c.gsBase)

lemma rmAt_operand {c : Cpu} {d d' : Dec} (hd : Settled c (encodingAt (codeOf c c.rip)) d)
    (hend : decRip d' = insnEnd c) : rmAt d d' (noted c) = rmOperand c := by
  unfold rmAt rmOpnd rmOperand
  rw [hd.p0, hd.n, hd.rex, hd.segBase]
  have hcode : codeOf (noted c) c.rip = codeOf c c.rip := rfl
  simp only [hcode]
  by_cases h3 : codeOf c c.rip (encodingAt (codeOf c c.rip)).tail >>> 6 = 3
  · rw [if_pos h3, if_pos h3]
    rfl
  · rw [if_neg h3, if_neg h3, fixupRip_opndOf (modrmMem_ok _ _ _ _), modrmMem_addr _ _ _ _ h3, hend]
    rfl

/-! ### Where the cursor ends -/

section End

variable {c : Cpu} {d : Dec} (hd : Settled c (encodingAt (codeOf c c.rip)) d)

include hd

lemma oneByte_end (hesc : (encodingAt (codeOf c c.rip)).escaped = false)
    (h2 : opClass (encodingAt (codeOf c c.rip)).op ≠ .twoByte) (hop : opClass (encodingAt (codeOf c c.rip)).op ≠ .none) :
    let op := (encodingAt (codeOf c c.rip)).op
    decRip (stepOneByte op d (opClass op) (noted c)).1 = insnEnd c := by
  have hsz : d.opsize = 2 ∨ d.opsize = 4 ∨ d.opsize = 8 := hd.opsize ▸ opsize_cases _
  intro op
  rw [oneByte_fst d (noted c) hsz h2 hop, insnEnd, stepLength, readLength, hesc, ← hd.n, ← hd.opsize, readBytes, hd.p0,
    decRip]
  exact congrArg (· + _) hd.rip0

lemma skip_two_end (hesc : (encodingAt (codeOf c c.rip)).escaped = true) :
    decRip (d.skip (readTwo (encodingAt (codeOf c c.rip)).op d (noted c))) = insnEnd c := by
  rw [insnEnd, stepLength, readLength, hesc, ← hd.n, ← hd.opsize, readTwo, hd.p0, decRip]
  exact congrArg (· + _) hd.rip0

lemma twoByte_end (hesc : (encodingAt (codeOf c c.rip)).escaped = true)
    (hop : twoClass (encodingAt (codeOf c c.rip)).op ≠ .none) (hj : twoClass (encodingAt (codeOf c c.rip)).op ≠ .jcc) :
    decRip (stepTwoByteGp (encodingAt (codeOf c c.rip)).op d (noted c)).1 = insnEnd c := by
  obtain ⟨body, -, heq⟩ := twoGp_advances (encodingAt (codeOf c c.rip)).op d (noted c) hop hj
  rw [heq, after_fst]
  exact skip_two_end hd hesc

end End

/-! ### The instruction that is executed -/

section Executed

variable {fp : Fp} {rt : Runtime} {k : Kernel} {c : Cpu} (hcb : c.rip ≠ callbackMagic) (hret : c.rip ≠ returnMagic)
  (hstub : rsdStubIndex c.stubs c.rip = none) (hx : rsdAsOk c.as c.rip 1 rsdProtX = true)

include hcb hret hstub hx

/-- A one-byte opcode that the interpreter knows, not behind `lock`. -/
lemma step_oneByte (hesc : (encodingAt (codeOf c c.rip)).escaped = false)
    (hop : opClass (encodingAt (codeOf c c.rip)).op ≠ .none)
    (hlock : (0xF0 : BitVec 8) ∉ (encodingAt (codeOf c c.rip)).prefixes) :
    let op := (encodingAt (codeOf c c.rip)).op
    ∃ d, Settled c (encodingAt (codeOf c c.rip)) d ∧ decRip (stepOneByte op d (opClass op) (noted c)).1 = insnEnd c ∧
      (step fp rt k c).2 = (stepOneByte op d (opClass op) (noted c)).2 := by
  cases stepInsn_settled fp c with
  | unknown hno h => exact absurd hno (not_or.mpr ⟨fun h' => hop h'.2, hlock⟩)
  | escaped d hd h0F h => rw [hesc] at h0F; cases h0F
  | oneByte d hd _ h2 _ h =>
    refine ⟨d, hd, oneByte_end hd hesc h2 hop, ?_⟩
    rw [step_of_insn hcb hret hstub hx (by rw [h]), h]

/-- A two-byte opcode that is neither an SSE instruction nor a branch. -/
lemma step_twoByte (hesc : (encodingAt (codeOf c c.rip)).escaped = true)
    (hop : twoClass (encodingAt (codeOf c c.rip)).op ≠ .none) (hj : twoClass (encodingAt (codeOf c c.rip)).op ≠ .jcc)
    (hlock : (0xF0 : BitVec 8) ∉ (encodingAt (codeOf c c.rip)).prefixes) :
    let op := (encodingAt (codeOf c c.rip)).op
    ∃ d, Settled c (encodingAt (codeOf c c.rip)) d ∧ decRip (stepTwoByteGp op d (noted c)).1 = insnEnd c ∧
      (step fp rt k c).2 = (stepTwoByteGp op d (noted c)).2 := by
  cases stepInsn_settled fp c with
  | unknown hno h => exact absurd hno (not_or.mpr ⟨fun h' => absurd (hesc.symm.trans h'.1) (by decide), hlock⟩)
  | oneByte d hd h0F _ _ h => rw [hesc] at h0F; cases h0F
  | escaped d hd _ h =>
    have hs : sseClass (encodingAt (codeOf c c.rip)).op = .none := by
      by_contra hs
      exact hop (sse_two_disjoint _ hs).1
    have h5 : (encodingAt (codeOf c c.rip)).op ≠ 0x05 := by
      intro h5
      rw [h5] at hop
      exact hop (by decide)
    rw [escaped_gp d (noted c) hs h5] at h
    refine ⟨d, hd, twoByte_end hd hesc hop hj, ?_⟩
    rw [step_of_insn hcb hret hstub hx (by rw [h]), h]

/-- Group 3, whose operand is read before the extension is looked at. -/
lemma step_grp3 (hesc : (encodingAt (codeOf c c.rip)).escaped = false)
    (hop : (encodingAt (codeOf c c.rip)).op = 0xF6 ∨ (encodingAt (codeOf c c.rip)).op = 0xF7)
    (hlock : (0xF0 : BitVec 8) ∉ (encodingAt (codeOf c c.rip)).prefixes) :
    let e := encodingAt (codeOf c c.rip)
    let sz := if e.op = 0xF6 then 1 else e.opsize
    ∃ imm d, (step fp rt k c).2 = ((do
      let a ← rd (rmOperand c) sz (e.rex != 0)
      grp3Exec (e.ext (codeOf c c.rip)) a imm sz (rmOperand c) d : M Unit) (begun c (insnEnd c))).2 := by
  intro e sz
  have hclass : opClass (encodingAt (codeOf c c.rip)).op = .grp3 := by
    rcases hop with h | h <;> rw [h] <;> decide
  obtain ⟨d, hd, hend, hstep⟩ := @step_oneByte fp rt k c hcb hret hstub hx hesc
    (hclass ▸ by decide) hlock
  simp only [hclass, stepOneByte, stepGrp3_eq, after_fst, after_snd] at hend hstep
  have hext : rmExt d (noted c) = e.ext (codeOf c c.rip) := by
    rw [rmExt, hd.p0, hd.n]
    rfl
  rw [rmAt_operand hd hend, hd.opsize, hd.hasRex, hend, hext] at hstep
  exact ⟨_, _, hstep⟩

end Executed

/-- An instruction that has not faulted has been fetched, and is not behind `lock`. -/
lemma step_fetched {fp : Fp} {rt : Runtime} {k : Kernel} {c : Cpu} (hcb : c.rip ≠ callbackMagic)
    (hret : c.rip ≠ returnMagic) (hstub : rsdStubIndex c.stubs c.rip = none) (hf : (step fp rt k c).2.fault = none) :
    rsdAsOk c.as c.rip 1 rsdProtX = true ∧ (0xF0 : BitVec 8) ∉ (encodingAt (codeOf c c.rip)).prefixes := by
  obtain ⟨hx, hfi, -⟩ := step_insn hcb hret hstub hf
  refine ⟨hx, ?_⟩
  cases stepInsn_settled fp c with
  | unknown _ h => rw [h] at hfi; cases hfi
  | oneByte d hd _ _ _ _ => exact hd.lock
  | escaped d hd _ _ => exact hd.lock

end Rashid.Proofs
