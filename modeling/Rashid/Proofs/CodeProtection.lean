import Rashid.Proofs.ByteProtection
import Rashid.Proofs.InsnLength

/-!
# Which bytes are decoded

`step` asks for permission to execute one byte, the first. The cursor then runs to the end of the
instruction, wherever that is.
-/

namespace Rashid.Proofs

/-- The bytes that have been read when the cursor is `d`. -/
def ReadBytes (d : Dec) (x : BitVec 64) : Prop := ∃ i < d.n, x = d.p0 + BitVec.ofNat 64 i

/-- The check that is made covers the first byte. -/
lemma first_byte_allowed {as : As} {a : BitVec 64} {prot : BitVec 32} (h : rsdAsOk as a 1 prot = true) :
    Allowed as prot a :=
  rangeCheck_covers h ⟨Nat.le_refl _, Nat.lt_add_one _⟩

lemma readBytes_allowed_iff {as : As} {prot : BitVec 32} {d : Dec} (h0 : Allowed as prot d.p0) :
    (∀ x, ReadBytes d x → Allowed as prot x) ↔
      ∀ i, 0 < i → i < d.n → Allowed as prot (d.p0 + BitVec.ofNat 64 i) := by
  constructor
  · intro h i _ hi
    exact h _ ⟨i, hi, rfl⟩
  · rintro h x ⟨i, hi, rfl⟩
    rcases Nat.eq_zero_or_pos i with rfl | hpos
    · rw [BitVec.add_zero]
      exact h0
    · exact h i hpos hi

/-- What is decoded is executable exactly when the bytes behind the first one are. -/
theorem decoded_bytes_executable (fp : Fp) (rt : Runtime) (k : Kernel) (c : Cpu) (hcb : c.rip ≠ callbackMagic)
    (hret : c.rip ≠ returnMagic) (hstub : rsdStubIndex c.stubs c.rip = none)
    (hf : (step fp rt k c).2.fault = none) :
    (∀ x, ReadBytes (stepInsn fp c).1.2 x → Allowed c.as rsdProtX x) ↔
      ∀ i, 0 < i → i < stepLength (codeOf c c.rip) → Allowed c.as rsdProtX (c.rip + BitVec.ofNat 64 i) := by
  obtain ⟨hx, hfi, -⟩ := step_insn hcb hret hstub hf
  obtain ⟨hp0, hn, -⟩ := stepInsn_reads fp c hfi
  rw [readBytes_allowed_iff (hp0.symm ▸ first_byte_allowed hx), hp0, hn]

/-- `mov eax, imm32` in the last bytes of an executable page, in front of a writable one. -/
def lastBytes (room : BitVec 64) : Cpu := { nopCpu with
  rip := 0x2000 - room
  mem := fun a => if a = 0x2000 - room then 0xB8 else 0x90
  as := { rsdAsInit with reg := [⟨0x1000, 0x2000, 5⟩, ⟨0x2000, 0x3000, 3⟩] } }

/-- Five bytes are left, and all of them are read. -/
theorem decoded_bytes_executable_lastFive :
    (∀ x, ReadBytes (stepInsn sampleFp (lastBytes 5)).1.2 x → Allowed (lastBytes 5).as rsdProtX x) ∧
      ReadBytes (stepInsn sampleFp (lastBytes 5)).1.2 0x1FFF := by
  refine ⟨(decoded_bytes_executable sampleFp sampleRuntime sampleKernel (lastBytes 5) (by decide) (by decide)
    (by decide) (by decide)).mpr ?_, 4, by decide, by decide⟩
  have hlen : stepLength (codeOf (lastBytes 5) (lastBytes 5).rip) = 5 := by decide
  have hin : ∀ i < 5, (⟨0x1000, 0x2000, 5⟩ : Region).has ((lastBytes 5).rip + BitVec.ofNat 64 i) = true := by decide
  intro i _ hi
  exact ⟨⟨0x1000, 0x2000, 5⟩, by decide, hin i (hlen ▸ hi), by decide⟩

/-- With one byte left the immediate is taken from the page behind, which is not executable. -/
theorem immediate_from_data :
    (step sampleFp sampleRuntime sampleKernel (lastBytes 1)).2.fault = none ∧
      (step sampleFp sampleRuntime sampleKernel (lastBytes 1)).2.r rax = 0x90909090 ∧
      ReadBytes (stepInsn sampleFp (lastBytes 1)).1.2 0x2000 ∧ ¬ Allowed (lastBytes 1).as rsdProtX 0x2000 := by
  refine ⟨by decide, by decide, ⟨1, by decide, by decide⟩, ?_⟩
  unfold Allowed
  decide

end Rashid.Proofs
