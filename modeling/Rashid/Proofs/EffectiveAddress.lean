import Rashid.Proofs.StackInsns
import Rashid.Proofs.StepEvents
import Rashid.Proofs.Widths

/-!
# Effective addresses

The interpreter takes the sum of base, index and displacement at its full width, whatever the
address-size prefix says. It measures `rip`-relative operands from behind the immediates that it
has read, and finds a popped operand before the stack pointer has moved.
-/

namespace Rashid.Encoding

variable (e : Encoding) (p : Code) (c : Cpu)

/-- A popped operand is found once the stack pointer has moved. -/
def addressRegs : Fin 16 → BitVec 64 := if e.stackInsn p = some .popRm then (c.popped e.stackBytes).r else c.r

/-- The effective address of the instruction at `rip`. -/
def operandAddress : BitVec 64 := e.effectiveAddress p (e.addressRegs p c) (nextRip p c.rip)

/-- Where the instruction's memory operand is. -/
def operandPlace : BitVec 64 := e.operandAddress p c + segmentBase e.prefixes c.fsBase c.gsBase

/-- When the interpreter finds the operand there. -/
structure PlaceAgrees : Prop where
  imm : e.ripRelative p = true → e.shortImm p = false
  pop : e.stackInsn p = some .popRm → e.rspBase p = false
  size : (0x67 : BitVec 8) ∈ e.prefixes → (e.address64 p c.r (nextRip p c.rip)).toNat < 2 ^ 32

/-- The instruction is `lea` from memory. -/
structure IsLea : Prop where
  escaped : e.escaped = false
  op : e.op = 0x8D
  memory : e.rmIsReg p = false
  lock : (0xF0 : BitVec 8) ∉ e.prefixes

end Rashid.Encoding

namespace Rashid.Proofs

/-! ### Accesses to the operand -/

section Place

variable {fp : Fp} {rt : Runtime} {k : Kernel} {c : Cpu} {x : Access} {a : BitVec 64} {n : Nat}

lemma act_onOperand {e : Event} (h : e.act = .access .operand x a n) : e.onOperand = true := by
  cases e <;> cases h <;> rfl

lemma gathering_elsewhere {e : Event} (h : e.isGathering = true) : e.onOperand = false := by
  cases e with
  | load site => cases site <;> first | rfl | cases h
  | denied site => cases site <;> first | rfl | cases h
  | store | raised | mapped => first | rfl | cases h

/-- Nothing but an instruction accesses an operand. -/
lemma step_access (h : .access .operand x a n ∈ actsOf (step fp rt k) c) :
    .access .operand x a n ∈ actsOf (stepInsn fp) c := by
  obtain ⟨e, he, hact⟩ := List.mem_map.mp h
  have hon := act_onOperand hact
  by_cases hexec : Executes c
  · rcases executed_events fp rt k hexec with hev | ⟨-, c', hev⟩
    · rw [hev] at he
      exact hact ▸ List.mem_map_of_mem he
    · rw [hev] at he
      rcases doSyscall_brief k c' with hnil | ⟨e', hone, hoff⟩
      · rw [hnil] at he
        cases he
      · rw [hone, List.mem_singleton] at he
        rw [he, hoff] at hon
        cases hon
  · rcases unexecuted_events fp rt k hexec with hnil | ⟨what, rip, hone⟩ | ⟨st, imp, hev⟩
    · rw [hnil] at he
      cases he
    · rw [hone, List.mem_singleton] at he
      rw [he] at hon
      cases hon
    · rw [hev] at he
      rw [gathering_elsewhere (stepStub_causes rt st imp c e he)] at hon
      cases hon

end Place

/-! ### The address -/

section Address

variable (e : Encoding) (p : Code) (r : Fin 16 → BitVec 64) (next : BitVec 64)

lemma address64_next (k : BitVec 64) :
    e.address64 p r (next + k) = e.address64 p r next + if e.ripRelative p then k else 0 := by
  have hbase : e.baseValue p r (next + k) = e.baseValue p r next + if e.ripRelative p then k else 0 := by
    unfold Encoding.baseValue Encoding.ripRelative
    cases e.hasSib p with
    | true => exact (BitVec.add_zero _).symm
    | false =>
      simp only [Bool.false_eq_true, if_false, Bool.not_false, Bool.true_and, Bool.and_eq_true, beq_iff_eq]
      by_cases h : p e.tail &&& 7 = 5 ∧ p e.tail >>> 6 = 0
      · rw [if_pos h, if_pos h, if_pos h]
      · rw [if_neg h, if_neg h, if_neg h]
        exact (BitVec.add_zero _).symm
  rw [Encoding.address64, hbase, Encoding.address64]
  ac_rfl

/-- An address that is off in its low 32 bits stays so when it is cut. -/
lemma cutAddress_off (a k : BitVec 64) (hk : k.toNat % 2 ^ 32 ≠ 0) : a ≠ e.cutAddress (a + k) := by
  intro h
  have hlow := cutAddress_low e (a + k)
  rw [← h, BitVec.toNat_add] at hlow
  omega

variable (c : Cpu)

lemma popRm_long (h : e.stackInsn p = some .popRm) : e.shortImm p = false := by
  obtain ⟨hesc, hclass, -, -⟩ := stackInsn_class h
  have hfive : ∀ op : BitVec 8, opClass op = classOf .popRm → op ∉ [0x68#8, 0x69, 0x81, 0xC7] ∧ op ≠ 0xF7 := by
    simp only [opClass_eq]
    decide
  obtain ⟨hno, h7⟩ := hfive _ hclass
  rw [Encoding.shortImm, decide_eq_false hno, beq_false_of_ne h7]
  simp

lemma stackBytes_low : (BitVec.ofNat 64 e.stackBytes).toNat % 2 ^ 32 ≠ 0 := by
  rcases stackBytes_cases e with ⟨-, h⟩ | ⟨-, h⟩
  · rw [h]
    decide
  · rw [h]
    decide

/-- The address that the interpreter takes against the manual's. -/
lemma address_agrees : e.address64 p c.r (nextRip p c.rip + if e.shortImm p then 2 else 0) = e.operandAddress p c ↔
    e.PlaceAgrees p c := by
  rw [address64_next]
  by_cases hpop : e.stackInsn p = some .popRm
  · have hregs : e.addressRegs p c = Function.update c.r rsp (c.r rsp + BitVec.ofNat 64 e.stackBytes) := if_pos hpop
    have hshort := popRm_long e p hpop
    rw [hshort, Encoding.operandAddress, Encoding.effectiveAddress, hregs, address64_popped]
    have hstay : (if e.ripRelative p then if false = true then 2 else 0 else 0) = 0#64 := ite_self _
    rw [hstay, BitVec.add_zero]
    cases hb : e.rspBase p with
    | true =>
      refine iff_of_false (cutAddress_off e _ _ (stackBytes_low e)) fun h => ?_
      exact absurd (hb.symm.trans (h.pop hpop)) (by decide)
    | false =>
      have hzero : (if false = true then BitVec.ofNat 64 e.stackBytes else 0) = 0#64 := rfl
      rw [hzero, BitVec.add_zero, eq_comm, cutAddress_self]
      exact ⟨fun h => ⟨fun _ => hshort, fun _ => hb, h⟩, fun h => h.size⟩
  · have hregs : e.addressRegs p c = c.r := if_neg hpop
    rw [Encoding.operandAddress, Encoding.effectiveAddress, hregs]
    by_cases hlate : e.ripRelative p = true ∧ e.shortImm p = true
    · rw [if_pos hlate.1, if_pos hlate.2]
      refine iff_of_false (fun h => ?_) fun h => ?_
      · refine cutAddress_off e (e.address64 p c.r (nextRip p c.rip) + 2) (-2) (by decide) (h.trans ?_)
        rw [BitVec.add_assoc]
        exact congrArg _ (BitVec.add_zero _).symm
      · exact absurd (hlate.2.symm.trans (h.imm hlate.1)) (by decide)
    · have himm : e.ripRelative p = true → e.shortImm p = false := by
        intro h
        exact Bool.eq_false_iff.mpr fun h' => hlate ⟨h, h'⟩
      have hzero : (if e.ripRelative p then if e.shortImm p then 2 else 0 else 0) = 0#64 := by
        by_cases h : e.ripRelative p = true
        · rw [if_pos h, himm h]
          rfl
        · exact if_neg h
      rw [hzero, BitVec.add_zero, eq_comm, cutAddress_self]
      exact ⟨fun h => ⟨himm, fun h' => absurd h' hpop, h⟩, fun h => h.size⟩

end Address

/-! ### `lea` -/

section Lea

variable {fp : Fp} {rt : Runtime} {k : Kernel} {c : Cpu} {e : Encoding}

lemma lea_next {p : Code} (h : e.IsLea p) : e.shortImm p = false ∧ e.stackInsn p ≠ some .popRm := by
  constructor
  · simp [Encoding.shortImm, h.op]
  · simp [Encoding.stackInsn, h.op, h.escaped]

lemma step_lea (hexec : Executes c) (h : (encodingAt (codeOf c c.rip)).IsLea (codeOf c c.rip)) :
    let p := codeOf c c.rip
    let e := encodingAt p
    let reg := regField (p e.tail) e.rex
    (step fp rt k c).2.r reg = mergeSz (c.r reg) (e.address64 p c.r (nextRip p c.rip)) e.opsize := by
  intro p e reg
  have hclass : opClass (encodingAt (codeOf c c.rip)).op = .lea := by
    rw [h.op]
    decide
  obtain ⟨d, hd, hend, hstep⟩ := @step_oneByte fp rt k c hexec.callback hexec.main hexec.stub hexec.fetch h.escaped
    (hclass ▸ by decide) h.lock
  have hnext : insnEnd c = nextRip p c.rip := by
    rw [insnEnd_eq (.inr ⟨h.escaped, hclass ▸ by decide, hclass ▸ by decide⟩), (lea_next h).1]
    exact BitVec.add_zero _
  have hmem : rmOperand c = .mem (e.address64 p c.r (insnEnd c)) (segmentBase e.prefixes c.fsBase c.gsBase) :=
    if_neg fun h3 => absurd (h.memory.symm.trans (beq_iff_eq.mpr h3)) (by decide)
  have hreg : rmReg d (noted c) = reg := by
    rw [rmReg, hd.p0, hd.n, hd.rex]
    rfl
  simp only [hclass, stepOneByte, stepLea_eq, after_fst, after_snd] at hend hstep
  rw [rmAt_operand hd hend, hmem, hreg, hd.opsize, hnext] at hstep
  rw [hstep]
  exact Function.update_self _ _ _

/-- What is cut off an address that is put into a register. -/
lemma lea_agrees (a old : BitVec 64) : mergeSz old a e.opsize = mergeSz old (e.cutAddress a) e.opsize ↔
    (e.opsize = 8 ∧ (0x67 : BitVec 8) ∈ e.prefixes → a.toNat < 2 ^ 32) := by
  have hlow := cutAddress_low e a
  have hsame {n : Nat} (h : szBits n ≤ 32) : SameLow n a (e.cutAddress a) := by
    apply BitVec.eq_of_toNat_eq
    have hdvd := Nat.pow_dvd_pow 2 h
    rw [BitVec.toNat_setWidth, BitVec.toNat_setWidth, ← Nat.mod_mod_of_dvd a.toNat hdvd,
      ← Nat.mod_mod_of_dvd (e.cutAddress a).toNat hdvd, hlow]
  rcases opsize_cases e with h | h | h
  · rw [h]
    exact iff_of_true (mergeSz_congr old (hsame (by decide))) fun h' => absurd h'.1 (by decide)
  · rw [h]
    exact iff_of_true (mergeSz_congr old (hsame (by decide))) fun h' => absurd h'.1 (by decide)
  · rw [h, and_iff_right rfl, ← cutAddress_self]
    exact eq_comm

end Lea

/-- A memory operand is accessed at the effective address in its segment exactly under the condition, and `lea` computes
the effective address alone unless 64 bits of it should have been cut to 32. -/
theorem effective_addresses (fp : Fp) (rt : Runtime) (k : Kernel) (c : Cpu) :
    let p := codeOf c c.rip
    let e := encodingAt p
    (∀ x a n, .access .operand x a n ∈ actsOf (step fp rt k) c → (a = e.operandPlace p c ↔ e.PlaceAgrees p c)) ∧
    (Executes c → e.IsLea p →
      let reg := regField (p e.tail) e.rex
      ((step fp rt k c).2.r reg = mergeSz (c.r reg) (e.operandAddress p c) e.opsize ↔
        (e.opsize = 8 ∧ (0x67 : BitVec 8) ∈ e.prefixes → (e.address64 p c.r (nextRip p c.rip)).toNat < 2 ^ 32))) := by
  intro p e
  constructor
  · intro x a n h
    have hmake := step_access h
    have hat := operand_accessed (insn_acts_of fp c _ hmake)
    have hknown := insn_known fp c hmake
    have hmem : p e.tail >>> 6 ≠ 3 := by
      intro h3
      rw [rmOperand, if_pos h3] at hat
      cases hat
    rw [rmOperand, if_neg hmem, insnEnd_eq hknown] at hat
    cases List.mem_singleton.mp hat
    rw [Encoding.operandPlace, BitVec.add_left_inj]
    exact address_agrees e p c
  · intro hexec hlea reg
    have hregs : e.addressRegs p c = c.r := if_neg (lea_next hlea).2
    rw [step_lea hexec hlea, Encoding.operandAddress, Encoding.effectiveAddress, hregs]
    exact lea_agrees _ _

/-- Code with 4 GiB and `0x8000` in `rax`, the stack at `0x8000`, and a segment at `0x20000`. -/
def addressCpu (code : List (BitVec 8)) : Cpu := { codeCpu code with
  r := fun i => if i = rax then 0x100008000 else 0x8000
  fsBase := 0x20000 }

def addressOf (code : List (BitVec 8)) : BitVec 64 :=
  (encodingAt (codeOf (addressCpu code) 0x1000)).operandPlace (codeOf (addressCpu code) 0x1000) (addressCpu code)

def accessesOf (code : List (BitVec 8)) : List Act := actsOf (step sampleFp sampleRuntime sampleKernel) (addressCpu code)

/-- `mov eax, [eax]` and `lea rax, [eax]` use all of `rax`, `mov word [rip], 0x1234` stores two bytes too far, and
`pop [rsp]` stores where the stack pointer was. -/
theorem addresses_off :
    (accessesOf [0x67, 0x8B, 0x00] = [.access .operand .read 0x100008000 4] ∧ addressOf [0x67, 0x8B, 0x00] = 0x8000) ∧
    (step sampleFp sampleRuntime sampleKernel (addressCpu [0x67, 0x48, 0x8D, 0x00])).2.r rax = 0x100008000 ∧
    addressOf [0x67, 0x48, 0x8D, 0x00] = 0x8000 ∧
    (accessesOf [0x66, 0xC7, 0x05, 0, 0, 0, 0, 0x34, 0x12] = [.access .operand .write 0x100B 2] ∧
      addressOf [0x66, 0xC7, 0x05, 0, 0, 0, 0, 0x34, 0x12] = 0x1009) ∧
    (.access .operand .write 0x8000 8 ∈ accessesOf [0x8F, 0x04, 0x24] ∧ addressOf [0x8F, 0x04, 0x24] = 0x8008) := by
  refine ⟨⟨by decide, by decide⟩, by decide, by decide, ⟨by decide, by decide⟩, ⟨by decide, by decide⟩⟩

/-- `mov eax, fs:[rsp + 8]` and `lea rax, [rsp + 8]` agree. -/
theorem effective_addresses_rsp :
    addressOf [0x64, 0x8B, 0x44, 0x24, 0x08] = 0x28008 ∧
    (0x28008 = addressOf [0x64, 0x8B, 0x44, 0x24, 0x08] ↔
      (encodingAt (codeOf (addressCpu [0x64, 0x8B, 0x44, 0x24, 0x08]) 0x1000)).PlaceAgrees
      (codeOf (addressCpu [0x64, 0x8B, 0x44, 0x24, 0x08]) 0x1000) (addressCpu [0x64, 0x8B, 0x44, 0x24, 0x08])) ∧
    (step sampleFp sampleRuntime sampleKernel (addressCpu [0x48, 0x8D, 0x44, 0x24, 0x08])).2.r rax = 0x8008 :=
  ⟨by decide,
    (effective_addresses sampleFp sampleRuntime sampleKernel (addressCpu [0x64, 0x8B, 0x44, 0x24, 0x08])).1 .read 0x28008 4
      (by decide),
    ((effective_addresses sampleFp sampleRuntime sampleKernel (addressCpu [0x48, 0x8D, 0x44, 0x24, 0x08])).2
      ⟨by decide, by decide, by decide, by decide⟩ ⟨by decide, by decide, by decide, by decide⟩).mpr (by decide)⟩

end Rashid.Proofs
