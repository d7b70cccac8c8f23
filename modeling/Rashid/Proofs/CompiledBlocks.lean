import Rashid.Proofs.BlockRuns
import Rashid.Proofs.FlagLiveness

/-!
# Compiled blocks

What `rsd_jit_lookup` compiles a block from, and that the block comes to its end.
-/

namespace Rashid.Proofs

/-! ### What a block is compiled from -/

section Decoding

variable {p : Code} {n : Nat} {rex op : BitVec 8} {o : Insn}

/-- Nothing is decoded, or an instruction of a size that code is emitted for. -/
def DecodedSize (r : Option (Nat × Insn)) : Prop := ∀ x ∈ r, x.2.size ∈ [1, 4, 8]

lemma DecodedSize.none : DecodedSize none := fun _ h => absurd h nofun

lemma DecodedSize.some {x : Nat × Insn} (h : x.2.size ∈ [1, 4, 8]) : DecodedSize (some x) :=
  fun _ hy => Option.mem_some_iff.mp hy ▸ h

lemma DecodedSize.ite {c : Prop} [Decidable c] {r r' : Option (Nat × Insn)} (h : DecodedSize r) (h' : DecodedSize r') :
    DecodedSize (if c then r else r') := by
  split
  · exact h
  · exact h'

lemma size_ite {c : Prop} [Decidable c] (h : o.size ∈ [1, 4, 8]) : (if c then 1 else o.size) ∈ [1, 4, 8] := by
  split
  · exact List.mem_cons_self
  · exact h

lemma size_wide {c : Prop} [Decidable c] : (if c then 8 else 4) ∈ [1, 4, 8] := by
  split <;> decide

lemma withRm_size {f : Fin 16 → Insn} (ho : o.size ∈ [1, 4, 8]) (hf : ∀ i, (f i).size ∈ [1, 4, 8]) :
    (withRm p n rex o f).2.size ∈ [1, 4, 8] := by
  unfold withRm
  show (if _ then _ else _ : Nat × Insn).2.size ∈ _
  split
  · exact hf _
  · exact ho

lemma decGrp1_size (ho : o.size ∈ [1, 4, 8]) : DecodedSize (decGrp1 p n rex op o) := by
  have hrm : (withRm p n rex { o with kind := .mi, size := if op = 0x80 ∨ op = 0xC6 then 1 else o.size } fun rm =>
      { o with kind := .ri, size := if op = 0x80 ∨ op = 0xC6 then 1 else o.size, reg := rm }).2.size ∈ [1, 4, 8] :=
    withRm_size (size_ite ho) fun _ => size_ite ho
  simp only [decGrp1]
  generalize withRm p n rex _ _ = r at hrm ⊢
  exact .ite .none (.ite .none (.ite (.some hrm) (.some hrm)))

lemma decShift_size (ho : o.size ∈ [1, 4, 8]) : DecodedSize (decShift p n rex op o) := by
  let o' := { o with
    size := if op = 0xC0 ∨ op = 0xD0 ∨ op = 0xD2 then 1 else o.size, ext := extField (p n), kind := Kind.shift }
  have hrm : (withRm p n rex o' fun rm => { o' with reg := rm }).2.size ∈ [1, 4, 8] :=
    withRm_size (size_ite ho) fun _ => size_ite ho
  simp only [decShift]
  generalize withRm p n rex _ _ = r at hrm ⊢
  exact .ite .none (.ite (.some hrm) (.ite (.some hrm) (.some hrm)))

lemma decImulImm_size (ho : o.size ∈ [1, 4, 8]) : DecodedSize (decImulImm p n rex op o) := by
  let o' := { o with kind := Kind.imul, immSrc := true, reg := regField (p n) rex }
  have hrm : (withRm p n rex o' fun rm => { o' with src := rm }).2.size ∈ [1, 4, 8] := withRm_size ho fun _ => ho
  simp only [decImulImm]
  generalize withRm p n rex _ _ = r at hrm ⊢
  exact .ite (.some hrm) (.some hrm)

lemma decodeSse_size {mand : BitVec 8} (ho : o.size ∈ [1, 4, 8]) : DecodedSize (decodeSse p n rex mand op o) := by
  let o' := { o with
    kind := Kind.sse, mand := mand, op2 := op, isize := if rexW rex then 8 else 4, xreg := regField (p n) rex }
  have hrm : (withRm p n rex o' fun rm => { o' with xsrc := rm }).2.size ∈ [1, 4, 8] := withRm_size ho fun _ => ho
  simp only [decodeSse]
  generalize withRm p n rex _ _ = r at hrm ⊢
  exact .ite .none (.ite (.some hrm) (.some hrm))

lemma decNop_size (ho : o.size ∈ [1, 4, 8]) : DecodedSize (decNop p n rex o) := by
  have hrm : (withRm p n rex o fun _ => o).2.size ∈ [1, 4, 8] := withRm_size ho fun _ => ho
  exact .some hrm

lemma decTwoByte_size {mand : BitVec 8} (ho : o.size ∈ [1, 4, 8]) : DecodedSize (decTwoByte p n rex mand o) := by
  simp only [decTwoByte]
  cases jitTwo (p n) with
  | jcc => exact .ite .none (.some ho)
  | imul => exact .ite .none (.some (withRm_size ho fun _ => ho))
  | setcc => exact .ite .none (.some (withRm_size List.mem_cons_self fun _ => List.mem_cons_self))
  | movx => exact .ite .none (.some (withRm_size ho fun _ => ho))
  | nop => exact .ite .none (decNop_size ho)
  | sse => exact decodeSse_size ho

lemma decGrp5_size (ho : o.size ∈ [1, 4, 8]) : DecodedSize (decGrp5 p n rex op o) :=
  .ite (.some (withRm_size (size_ite ho) fun _ => size_ite ho)) (.ite .none (.ite .none
    (.some (withRm_size (size_ite ho) fun _ => size_ite ho))))

lemma decOp_size {mand : BitVec 8} (ho : o.size ∈ [1, 4, 8]) : DecodedSize (decOp p n rex mand op o) := by
  unfold decOp
  cases jitClass op with
  | aluRow => exact .some (withRm_size (size_ite ho) fun _ => size_ite ho)
  | grp1 => exact decGrp1_size ho
  | eax => exact .some (size_ite ho)
  | movRegImm8 => exact .some List.mem_cons_self
  | movRegImm => exact .ite (.some ho) (.some ho)
  | shift => exact decShift_size ho
  | imulImm => exact decImulImm_size ho
  | lea => exact .ite .none (.some (withRm_size ho fun _ => ho))
  | pushPop => exact .ite .none (.some ho)
  | nop => exact .ite .none (.some ho)
  | twoByte => exact decTwoByte_size ho
  | grp5 => exact decGrp5_size ho
  | none => exact .none
  | _ => exact .some ho

/-- Compiled operands have one, four or eight bytes. -/
lemma decode_size {rip : BitVec 64} (h : decode p rip = some o) : o.size ∈ [1, 4, 8] := by
  unfold decode at h
  simp only at h
  by_cases hmand : (if isMand (p 0) then p 0 else 0) ≠ 0 ∧
      p (if isRex (p (if isMand (p 0) then 1 else 0)) then (if isMand (p 0) then 1 else 0) + 1
        else if isMand (p 0) then 1 else 0) ≠ 0x0F
  · rw [if_pos hmand] at h
    cases h
  · rw [if_neg hmand] at h
    obtain ⟨x, hx, rfl⟩ := Option.map_eq_some_iff.mp h
    exact decOp_size size_wide x hx

end Decoding

section Compiled

variable {lk : Link} {check : Bool} {rip : BitVec 64}

lemma decodeBlock_sizes (c : Cpu) (k : Nat) (pc : BitVec 64) : ∀ o ∈ (decodeBlock c k pc).v, o.size ∈ [1, 4, 8] := by
  induction k generalizing pc with
  | zero => exact fun o h => absurd h List.not_mem_nil
  | succ k ih =>
    unfold decodeBlock
    split
    · cases hd : decode (codeOf c pc) pc with
      | none => exact fun o h => absurd h List.not_mem_nil
      | some o =>
        show ∀ x ∈ (if terminates o.kind then ⟨[o], true, o.next⟩ else
          { decodeBlock c k o.next with v := o :: (decodeBlock c k o.next).v } : Decoded).v, x.size ∈ [1, 4, 8]
        split
        · intro x hx
          rw [List.mem_singleton.mp hx]
          exact decode_size hd
        · intro x hx
          rcases List.mem_cons.mp hx with rfl | hx
          · exact decode_size hd
          · exact ih o.next x hx
    · exact fun o h => absurd h List.not_mem_nil

lemma length_decodeBlock (c : Cpu) (k : Nat) (pc : BitVec 64) : (decodeBlock c k pc).v.length ≤ k := by
  induction k generalizing pc with
  | zero => exact Nat.le_refl 0
  | succ k ih =>
    unfold decodeBlock
    split
    · cases decode (codeOf c pc) pc with
      | none => exact Nat.zero_le _
      | some o =>
        show (if terminates o.kind then ⟨[o], true, o.next⟩ else
          { decodeBlock c k o.next with v := o :: (decodeBlock c k o.next).v } : Decoded).v.length ≤ k + 1
        split
        · exact Nat.succ_le_succ (Nat.zero_le k)
        · exact Nat.succ_le_succ (ih o.next)
    · exact Nat.zero_le _

/-- The analysis fills in the needs, and nothing else. -/
lemma mem_flagLiveness {u : List Insn} {o : Insn} (h : o ∈ flagLiveness u) :
    o.fneed &&& ~~~flAll = 0 ∧ ∃ x ∈ u, o.size = x.size := by
  unfold flagLiveness at h
  induction u with
  | nil => exact absurd h List.not_mem_nil
  | cons x u ih =>
    rcases List.mem_cons.mp h with rfl | h
    · refine ⟨?_, x, List.mem_cons_self, rfl⟩
      show flagsWritten x &&& (flagLivenessFrom u).2 &&& ~~~flAll = 0
      rw [BitVec.and_assoc, BitVec.and_comm (flagLivenessFrom u).2, ← BitVec.and_assoc, flagsWritten_all]
      exact BitVec.zero_and
    · obtain ⟨hneed, y, hy, hsize⟩ := ih h
      exact ⟨hneed, y, List.mem_cons_of_mem x hy, hsize⟩

/-- The instructions left at the end were there at the start, up to what they need. -/
lemma Turns.sound {d : Decoded} {r : Buf × Decoded} (h : Turns lk check rip d r) (hd : ∀ o ∈ d.v, o.size ∈ [1, 4, 8]) :
    (∀ o ∈ r.2.v, Sound o) ∧ r.2.v.length ≤ d.v.length := by
  induction h with
  | @fits d at_ b hr =>
    refine ⟨fun o ho => ?_, Nat.le_of_eq (length_flagLiveness d.v)⟩
    obtain ⟨hneed, x, hx, hsize⟩ := mem_flagLiveness ho
    exact ⟨hsize ▸ hd x hx, hneed⟩
  | @cut d i at_ b r hr hi hturns ih =>
    have hsizes : ∀ o ∈ (flagLiveness d.v).take i, o.size ∈ [1, 4, 8] := by
      intro o ho
      obtain ⟨-, x, hx, hsize⟩ := mem_flagLiveness (List.mem_of_mem_take ho)
      exact hsize ▸ hd x hx
    obtain ⟨hsound, hlen⟩ := ih hsizes
    refine ⟨hsound, Nat.le_trans hlen ?_⟩
    rw [List.length_take, length_flagLiveness]
    exact Nat.min_le_right ..

/-- A compiled block comes to its end from every state, within what its instructions can do. -/
theorem compiled_ends {env : A64Env} {R : Nat → Cpu → Cpu → Prop} (he : Effect env.fp check R) {c0 : Cpu}
    {code : List A64} {v : List Insn} (h : compileBlock env.lk check c0 rip = some (code, v)) :
    v.length ≤ maxInsns ∧ ∀ start c, ∃ r, rsdJitEnter env start code c = some r ∧ R (4 * v.length) c r.2 := by
  have hturns := emitted_turns env.lk check c0 rip
  obtain ⟨u, at_, -, hbody⟩ := hturns.ends
  obtain ⟨hsound, hlen⟩ := hturns.sound (decodeBlock_sizes c0 maxInsns rip)
  rw [compileBlock_eq] at h
  split at h
  · cases h
  · obtain ⟨rfl, rfl⟩ := Prod.mk.inj (Option.some.inj h)
    exact ⟨Nat.le_trans hlen (length_decodeBlock ..), fun start c => block_ends he hsound hbody start c⟩

end Compiled

end Rashid.Proofs
