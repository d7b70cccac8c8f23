import Rashid.Routines

/-!
# Entering compiled code

`rsd_jit_enter` enters a block with the address of the cpu in x19, which blocks address everything by. If
the block keeps to the procedure call standard, the caller is returned to with the address to continue at.
-/

namespace Rashid.Proofs

open scoped Arm

/-- The block is entered in `t`, for what called `rsd_jit_enter(c, body)` in `s`. -/
structure BlockEntered (s t : Arm.State) : Prop where
  cpu : t.r (.x 19) = s.r (.x 0)
  lr : t.r Arm.lr = s.pc + 20
  sp : t.r .sp = s.r .sp - 32
  saved : HoldsWords t.mem (s.r .sp - 32) [s.r (.x 29), s.r (.x 30), s.r (.x 19)]
  rest : ∀ i : Fin 31, 20 ≤ i.val → i.val ≤ 28 → t.r (.x i) = s.r (.x i)
  d : t.data.d = s.data.d
  mem : ∀ x, ¬ inWindow (s.r .sp - 32) 24 x → t.mem x = s.mem x

section Stretches

variable (s : Arm.Data)

lemma jitPark_mem : (Arm.execAll jitPark s).mem =
    storeWords s.mem (s.r .sp - 32) [s.r (.x 29), s.r (.x 30), s.r (.x 19)] := by
  simp [Arm.execAll, jitPark, Arm.Op.exec, Arm.Addr.ea, Arm.Addr.writeBack, Arm.Data.set, storeWords, BitVec.add_assoc,
    BitVec.sub_eq_add_neg]

lemma jitPark_regs : (Arm.execAll jitPark s).r (.x 19) = s.r (.x 0) ∧ (Arm.execAll jitPark s).r .sp = s.r .sp - 32 := by
  simp [Arm.execAll, jitPark, Arm.Op.exec, Arm.Addr.writeBack, Arm.Data.set, BitVec.sub_eq_add_neg]

lemma jitPark_rest : ∀ i : Fin 31, 20 ≤ i.val → i.val ≤ 28 → ∀ o ∈ jitPark, Arm.Reg.x i ∉ o.written := by
  decide

lemma jitPark_restD : ∀ i : Fin 32, ∀ o ∈ jitPark, i ∉ o.writtenD := by
  decide

/-- The saved registers are read where the stack pointer is. -/
lemma jitLeave_saved : [(Arm.execAll jitLeave s).r (.x 29), (Arm.execAll jitLeave s).r (.x 30),
    (Arm.execAll jitLeave s).r (.x 19)] = loadWords s.mem (s.r .sp) 3 := by
  simp [Arm.execAll, jitLeave, Arm.Op.exec, Arm.Addr.ea, Arm.Addr.writeBack, Arm.Data.set, loadWords, BitVec.add_assoc]

lemma jitLeave_sp : (Arm.execAll jitLeave s).r .sp = s.r .sp + 32 := by
  simp [Arm.execAll, jitLeave, Arm.Op.exec, Arm.Addr.ea, Arm.Addr.writeBack, Arm.Data.set]

lemma jitLeave_rest : ∀ i : Fin 31, 20 ≤ i.val → i.val ≤ 28 → ∀ o ∈ jitLeave, Arm.Reg.x i ∉ o.written := by
  decide

lemma jitLeave_restD : ∀ i : Fin 32, ∀ o ∈ jitLeave, i ∉ o.writtenD := by
  decide

end Stretches

section Enter

variable {env : Arm.Env} {s c : Arm.State}

/-- The state in which the block is entered. -/
def blockEntered (s : Arm.State) : Arm.State := Arm.Insn.step ⟨Arm.execAll jitPark s.data, s.pc + 16⟩ (.blr (.x 1))

lemma blockEntered_mem (s : Arm.State) : (blockEntered s).mem = (Arm.execAll jitPark s.data).mem := Arm.step_blr_mem ..

lemma blockEntered_r (s : Arm.State) {r : Arm.Reg} (hne : r ≠ Arm.lr) :
    (blockEntered s).r r = (Arm.execAll jitPark s.data).r r := Arm.Data.set_r_of_ne hne

lemma blockEntered_pc (s : Arm.State) : (blockEntered s).pc = s.r (.x 1) := by
  have hkept : (Arm.execAll jitPark s.data).r (.x 1) = s.data.r (.x 1) := Arm.execAll_r (by decide)
  exact hkept

lemma block_entered (s : Arm.State) : BlockEntered s (blockEntered s) := by
  obtain ⟨hcpu, hsp⟩ := jitPark_regs s.data
  constructor
  case cpu => exact (blockEntered_r s (by decide)).trans hcpu
  case lr =>
    have hlr : (blockEntered s).r Arm.lr = s.pc + 16 + 4 := Arm.Data.set_r_self ..
    rw [hlr, BitVec.add_assoc]
    rfl
  case sp => exact (blockEntered_r s (by decide)).trans hsp
  case saved =>
    rw [blockEntered_mem, jitPark_mem]
    apply holdsWords_storeWords
    simp
  case rest =>
    intro i hlo hhi
    have hne : Arm.Reg.x i ≠ Arm.lr := Arm.x_ne_of_lt (Nat.lt_of_le_of_lt hhi (by decide))
    exact (blockEntered_r s hne).trans (Arm.execAll_r (jitPark_rest i hlo hhi))
  case d => exact (Arm.step_blr_d ..).trans (funext fun i => Arm.execAll_d (jitPark_restD i))
  case mem =>
    intro x hx
    rw [blockEntered_mem, jitPark_mem]
    exact storeWords_outside hx

/-- Behind the block the parked registers are taken back, and nothing is written. -/
lemma block_left (hcode : Arm.Loaded env.code s.pc rsdJitEnterCode) {t : Arm.State} (hin : BlockEntered s t)
    (hback : Arm.Conforms (s.r .sp - 32) 24 t c) :
    ∃ u, Arm.Reaches env c u ∧ u.mem = c.mem ∧ u.r (.x 0) = c.r (.x 0) ∧ u.pc = s.r Arm.lr ∧ u.r .sp = s.r .sp ∧
      (∀ i : Fin 31, 19 ≤ i.val → i.val ≤ 29 → u.r (.x i) = s.r (.x i)) ∧
      ∀ i : Fin 32, 8 ≤ i.val → i.val ≤ 15 → u.d i = s.d i := by
  have hpc : c.pc = s.pc + 20 := hback.back.trans hin.lr
  have hleave : Arm.Loaded env.code (s.pc + 16 + 4) (Arm.ops jitLeave ++ [.ret]) := (hcode.right (k := 16) rfl).2
  rw [BitVec.add_assoc, show (16 + 4 : BitVec 64) = 20 from rfl, ← hpc] at hleave
  have hsp : c.data.r .sp = s.r .sp - 32 := hback.sp.trans hin.sp
  have hheld : HoldsWords c.mem (s.r .sp - 32) [s.r (.x 29), s.r (.x 30), s.r (.x 19)] :=
    hin.saved.congr fun x hx => hback.frame x hx
  have hstack := jitLeave_sp c.data
  have hsaved := jitLeave_saved c.data
  rw [hsp] at hstack
  rw [hsp, show c.data.mem = c.mem from rfl, hheld.loadWords_eq (n := 3) rfl] at hsaved
  simp only [List.cons.injEq, and_true] at hsaved
  obtain ⟨h29, h30, h19⟩ := hsaved
  have hreach : Arm.Reaches env c ⟨Arm.execAll jitLeave c.data, c.pc + BitVec.ofNat 64 8⟩ := hleave.straight rfl
  have hend := (hleave.right (k := 8) rfl).one (s := ⟨Arm.execAll jitLeave c.data, c.pc + BitVec.ofNat 64 8⟩)
  refine ⟨_, hreach.trans hend, Arm.execAll_mem (by decide), Arm.execAll_r (by decide), h30, ?_, fun i hlo hhi => ?_,
    fun i hlo hhi => ?_⟩
  · exact hstack.trans (BitVec.sub_add_cancel ..)
  · by_cases h19' : i = 19
    · subst h19'
      exact h19
    by_cases h29' : i = 29
    · subst h29'
      exact h29
    have hlo' : 20 ≤ i.val := by
      have hne : i.val ≠ 19 := fun heq => h19' (Fin.ext heq)
      omega
    have hhi' : i.val ≤ 28 := by
      have hne : i.val ≠ 29 := fun heq => h29' (Fin.ext heq)
      omega
    exact (Arm.execAll_r (jitLeave_rest i hlo' hhi')).trans ((hback.saved i hlo hhi).trans (hin.rest i hlo' hhi'))
  · exact (Arm.execAll_d (jitLeave_restD i)).trans ((hback.savedD i hlo hhi).trans (congrFun hin.d i))

/-- A block is entered with the cpu in x19, the address behind the call in x30 and the caller's registers put
aside. If it keeps to the procedure call standard, so does `rsd_jit_enter`, which returns what the block does. -/
theorem jit_enter (hcode : Arm.Loaded env.code s.pc rsdJitEnterCode) (hbody : env.code (s.r (.x 1)) = none) :
    ∃ t, Arm.Reaches env s t ∧ t.pc = s.r (.x 1) ∧ BlockEntered s t ∧
      (Arm.Conforms (s.r .sp - 32) 24 t (env.call t) → ∃ u, Arm.Reaches env s u ∧ u.mem = (env.call t).mem ∧
        u.r (.x 0) = (env.call t).r (.x 0) ∧
        ∀ a n, (∀ x, inWindow a n x → (env.call t).mem x = s.mem x) → Arm.Conforms a n s u) := by
  have hpark : Arm.Reaches env s ⟨Arm.execAll jitPark s.data, s.pc + BitVec.ofNat 64 16⟩ := hcode.straight rfl
  have henter : Arm.Reaches env s (blockEntered s) :=
    hpark.trans ((hcode.right (k := 16) rfl).one (s := ⟨Arm.execAll jitPark s.data, s.pc + BitVec.ofNat 64 16⟩))
  have hpc := blockEntered_pc s
  refine ⟨blockEntered s, henter, hpc, block_entered s, fun hback => ?_⟩
  have hgone : Arm.Reaches env (blockEntered s) (env.call (blockEntered s)) := Arm.reaches_call (hpc ▸ hbody)
  obtain ⟨u, hleave, hmem, h0, hupc, husp, hsaved, hsavedD⟩ := block_left hcode (block_entered s) hback
  refine ⟨u, henter.trans (hgone.trans hleave), hmem, h0, fun a n hkept => ⟨hupc, husp, hsaved, hsavedD, fun x hx => ?_⟩⟩
  rw [hmem]
  exact hkept x hx

end Enter

/-- `rsd_jit_enter` at `0x8000`, and at `0x9000` a block that goes on at `0x1234`. -/
def jitEnv : Arm.Env where
  code a := if a = 0x9000 then none else rsdJitEnterCode[(a - 0x8000).toNat / 4]?
  call t := ⟨t.data.set (.x 0) 0x1234, t.r Arm.lr⟩

def jitStart : Arm.State where
  pc := 0x8000
  data.r := fun
    | .x i => if i = 30 then 0x4000 else 0x9000
    | .sp => 0x20000
  data.d _ := 0
  data.mem _ := 0

theorem jit_enter_once :
    ∃ t u, Arm.Reaches jitEnv jitStart t ∧ t.pc = 0x9000 ∧ Arm.Reaches jitEnv jitStart u ∧ u.pc = 0x4000 ∧
    u.r (.x 0) = 0x1234 := by
  obtain ⟨t, hreach, hpc, -, hback⟩ :=
    jit_enter (show Arm.Loaded jitEnv.code jitStart.pc rsdJitEnterCode by decide) (by decide)
  have hconforms : Arm.Conforms (jitStart.r .sp - 32) 24 t (jitEnv.call t) := by
    refine ⟨rfl, Arm.Data.set_r_of_ne (by decide), fun i hlo _ => Arm.Data.set_r_of_ne ?_,
      fun _ _ _ => rfl, fun _ _ => rfl⟩
    exact (Arm.x_ne_of_lt (Nat.lt_of_lt_of_le (by decide) hlo)).symm
  obtain ⟨u, hreach', -, h0, hall⟩ := hback hconforms
  have hu := hall 0 0 fun x hx => absurd hx (Nat.not_lt_zero _)
  exact ⟨t, u, hreach, hpc, hreach', hu.back, h0.trans (Arm.Data.set_r_self ..)⟩

end Rashid.Proofs
