import Rashid.Proofs.InsnLength

/-!
# Opcodes that SSE declines

An opcode that `sse_exec` does not take is to be left to its caller with nothing consumed. Three
cases look at the operand before they decline.
-/

namespace Rashid.Proofs

section Declining

variable {c : Cpu} {d : Dec}

/-- A program that leaves the cursor and the state alone when it declines. -/
def Declines (d : Dec) (c : Cpu) (p : M (Bool × Dec)) : Prop := (p c).1.1 = false → (p c).1.2 = d ∧ (p c).2 = c

lemma Declines.pure (b : Bool) : Declines d c (Pure.pure (b, d)) := fun _ => ⟨rfl, rfl⟩

lemma Declines.ite {b : Prop} [Decidable b] {x y : M (Bool × Dec)} (hx : b → Declines d c x) (hy : ¬ b → Declines d c y) :
    Declines d c (if b then x else y) := by
  by_cases h : b
  · rw [if_pos h]
    exact hx h
  · rw [if_neg h]
    exact hy h

/-- A program that takes the opcode. -/
def Takes (p : M (Bool × Dec)) : Prop := ∀ c, (p c).1.1 = true

lemma Takes.declines {p : M (Bool × Dec)} (h : Takes p) : Declines d c p :=
  fun h' => absurd ((h c).symm.trans h') (by decide)

lemma Takes.pure (d : Dec) : Takes (Pure.pure (true, d)) := fun _ => rfl

lemma Takes.bind {α : Type} {x : M α} {f : α → M (Bool × Dec)} (h : ∀ a, Takes (f a)) : Takes (x >>= f) :=
  fun _ => h _ _

lemma Takes.ite {b : Prop} [Decidable b] {x y : M (Bool × Dec)} (hx : Takes x) (hy : Takes y) :
    Takes (if b then x else y) := by
  intro c
  by_cases h : b
  · rw [if_pos h]
    exact hx c
  · rw [if_neg h]
    exact hy c

end Declining

/-- `movd` without its prefix, and `pmovmskb` and `pextrw` of memory. -/
def DeclinesLate (d : Dec) (op2 : BitVec 8) (c : Cpu) : Prop :=
  op2 = 0x7E ∧ d.mand ≠ 0xF3 ∧ d.mand ≠ 0x66 ∨
    (op2 = 0xD7 ∨ op2 = 0xC5) ∧ d.mand = 0x66 ∧ codeOf c d.p0 d.n >>> 6 ≠ 3

section Cases

variable (fp : Fp) (d : Dec) (op2 : BitVec 8) (c : Cpu)

/-- A program that has moved the cursor does not decline as it should. -/
lemma not_declines {p : M (Bool × Dec)} (h : (p c).1.1 = false) (hn : d.n < (p c).1.2.n) : ¬ Declines d c p := by
  intro hd
  rw [(hd h).1] at hn
  exact Nat.lt_irrefl _ hn

lemma pastRm_moves : d.n < (pastRm d c).n := by
  have hpos : 0 < modrmBytes (codeOf c d.p0) d.n := by
    unfold modrmBytes
    by_cases h : codeOf c d.p0 d.n >>> 6 = 3
    · rw [if_pos h]
      exact Nat.one_pos
    · rw [if_neg h]
      omega
  exact Nat.lt_add_of_pos_right hpos

/-- The operand is a register exactly under mode 3. -/
lemma fixupRip_isReg (e : Dec) : (fixupRip e (rmOpnd d c)).isReg = true ↔ codeOf c d.p0 d.n >>> 6 = 3 := by
  unfold rmOpnd
  by_cases h : codeOf c d.p0 d.n >>> 6 = 3
  · rw [if_pos h]
    exact iff_of_true rfl h
  · have hmem (x : Ea) : (fixupRip e (opndOf x c.r d.segBase)).isReg = false := by
      unfold opndOf
      split <;> rfl
    rw [if_neg h, hmem]
    exact iff_of_false (by decide) h

/-- Behind ModRM a program declines as it should only by not declining. -/
lemma advance_declines {f : Fin 16 × Opnd × Dec → M (Bool × Dec)} (hf : ∀ x c, (f x c).1.2 = x.2.2) {b : Bool}
    (hb : ∀ x c', (f (x, fixupRip (pastRm d c) (rmOpnd d c), pastRm d c) c').1.1 = b) :
    Declines d c (modrmAdvance d >>= f) ↔ b = true := by
  have heval := Prog.bind_eval (f := f) (modrmAdvance_eval d c)
  cases b with
  | true => exact iff_of_true (fun h => absurd ((hb _ _).symm.trans (heval ▸ h)) (by decide)) rfl
  | false =>
    refine iff_of_false (not_declines d c (by rw [heval, hb]) ?_) (by decide)
    rw [heval, hf]
    exact pastRm_moves d c

lemma immAdvance_declines {f : Fin 16 × Opnd × BitVec 8 × Dec → M (Bool × Dec)}
    (hf : ∀ x c, (f x c).1.2 = x.2.2.2) {b : Bool}
    (hb : ∀ x i c', (f (x, fixupRip ((pastRm d c).skip 1) (rmOpnd d c), i, (pastRm d c).skip 1) c').1.1 = b) :
    Declines d c (modrmImmAdvance d >>= f) ↔ b = true := by
  have heval := Prog.bind_eval (f := f) (modrmImmAdvance_eval d c)
  cases b with
  | true => exact iff_of_true (fun h => absurd ((hb _ _ _).symm.trans (heval ▸ h)) (by decide)) rfl
  | false =>
    refine iff_of_false (not_declines d c (by rw [heval, hb]) ?_) (by decide)
    rw [heval, hf]
    exact Nat.lt_succ_of_lt (pastRm_moves d c)

lemma sseMovdOut_declines : Declines d c (sseMovdOut d) ↔ ¬ (d.mand ≠ 0xF3 ∧ d.mand ≠ 0x66) := by
  have hmove := advance_declines d c (b := decide (d.mand = 0xF3 ∨ d.mand = 0x66)) (f := fun x => do
    if x.2.2.mand = 0xF3 then
      let v ← xrdLo x.2.1 8
      wrX x.1 ⟨v, 0⟩
      pure (true, x.2.2)
    else if x.2.2.mand ≠ 0x66 then pure (false, x.2.2)
    else
      let y ← rdX x.1
      gwr x.2.1 y.lo (if rexW x.2.2.rex then 8 else 4)
      pure (true, x.2.2)) ?_ ?_
  · exact hmove.trans (by simp only [decide_eq_true_eq]; tauto)
  · intro x c
    by_cases h3 : x.2.2.mand = 0xF3
    · rw [if_pos h3]
      rfl
    · by_cases h6 : x.2.2.mand ≠ 0x66
      · rw [if_neg h3, if_pos h6]
        rfl
      · rw [if_neg h3, if_neg h6]
        rfl
  · intro x c'
    have hmand : (pastRm d c).mand = d.mand := rfl
    simp only [hmand]
    by_cases h3 : d.mand = 0xF3
    · rw [if_pos h3, decide_eq_true (.inl h3)]
      rfl
    · by_cases h6 : d.mand ≠ 0x66
      · rw [if_neg h3, if_pos h6, decide_eq_false (not_or.mpr ⟨h3, h6⟩)]
        rfl
      · rw [if_neg h3, if_neg h6, decide_eq_true (.inr (not_not.mp h6))]
        rfl

lemma ssePmovmskb_declines : Declines d c (ssePmovmskb d) ↔ ¬ (d.mand = 0x66 ∧ codeOf c d.p0 d.n >>> 6 ≠ 3) := by
  by_cases h6 : d.mand ≠ 0x66
  · refine iff_of_true ?_ fun h => h6 h.1
    unfold ssePmovmskb
    rw [if_pos h6]
    exact .pure false
  · have hrun : Declines d c (ssePmovmskb d) ↔ codeOf c d.p0 d.n >>> 6 = 3 := by
      rw [← fixupRip_isReg d c (pastRm d c), ssePmovmskb, if_neg h6]
      apply advance_declines
      · rintro ⟨i, o, e⟩ c
        cases o <;> rfl
      · intro x c'
        generalize fixupRip (pastRm d c) (rmOpnd d c) = o
        cases o <;> rfl
    rw [hrun]
    tauto

lemma ssePextrw_declines : Declines d c (ssePextrw d) ↔ ¬ (d.mand = 0x66 ∧ codeOf c d.p0 d.n >>> 6 ≠ 3) := by
  by_cases h6 : d.mand ≠ 0x66
  · refine iff_of_true ?_ fun h => h6 h.1
    unfold ssePextrw
    rw [if_pos h6]
    exact .pure false
  · have hrun : Declines d c (ssePextrw d) ↔ codeOf c d.p0 d.n >>> 6 = 3 := by
      rw [← fixupRip_isReg d c ((pastRm d c).skip 1), ssePextrw, if_neg h6]
      apply immAdvance_declines
      · rintro ⟨i, o, imm, e⟩ c
        cases o <;> rfl
      · intro x i c'
        generalize fixupRip ((pastRm d c).skip 1) (rmOpnd d c) = o
        cases o <;> rfl
    rw [hrun]
    tauto

/-- The other cases decline before they look at anything. -/
lemma sseCase_declines (k : SseClass) (h1 : k ≠ .movdOut) (h2 : k ≠ .pmovmskb) (h3 : k ≠ .pextrw) (hk : sseClass op2 = k) :
    Declines d c (sseExec fp d op2) := by
  have hthen {α : Type} (x : M α) (work : α → M Unit) (e : α → Dec) :
      Takes (x >>= fun a => work a >>= fun _ => pure (true, e a)) :=
    .bind fun _ => .bind fun _ => .pure _
  unfold sseExec
  rw [hk]
  cases k with
  | movdOut => exact absurd rfl h1
  | pmovmskb => exact absurd rfl h2
  | pextrw => exact absurd rfl h3
  | none => exact .pure false
  | mov | arith | comis | cmp => exact (hthen _ _ _).declines
  | bitwise | cvtFrom | cvtTo | cvtFloat => exact .ite (fun _ => .pure false) fun _ => (hthen _ _ _).declines
  | movdq =>
    exact .ite (fun _ => .pure false) fun _ => (Takes.bind fun _ => .bind fun _ => .bind fun _ => .pure _).declines
  | movdIn =>
    exact .ite (fun _ => .pure false) fun _ => (Takes.bind fun _ => .bind fun _ => .bind fun _ => .pure _).declines
  | movq =>
    refine .ite (fun _ => .pure false) fun _ => (Takes.bind fun x => ?_).declines
    obtain ⟨reg, rm, e⟩ := x
    cases rm <;> exact fun _ => rfl
  | pcmpeq =>
    exact .ite (fun _ => .pure false) fun _ => (Takes.bind fun _ => .bind fun _ => .bind fun _ =>
      .ite (.bind fun _ => .pure _) (.bind fun _ => .pure _)).declines
  | pshufd =>
    exact .ite (fun _ => .pure false) fun _ => (Takes.bind fun _ => .bind fun _ => .bind fun _ => .pure _).declines
  | unpck =>
    exact .ite (fun _ => .pure false) fun _ => .ite (fun _ => .pure false) fun _ =>
      (Takes.bind fun _ => .bind fun _ => .bind fun _ => .bind fun _ => .pure _).declines

end Cases

lemma sseClass_late : ∀ op2 : BitVec 8, (sseClass op2 = .movdOut ↔ op2 = 0x7E) ∧ (sseClass op2 = .pmovmskb ↔ op2 = 0xD7) ∧
    (sseClass op2 = .pextrw ↔ op2 = 0xC5) := by
  simp only [sseClass_eq]
  decide

/-- SSE leaves an opcode that it declines as it found it, but for the three cases that look at their operand first. -/
theorem sse_declines (fp : Fp) (d : Dec) (op2 : BitVec 8) (c : Cpu) :
    ((sseExec fp d op2 c).1.1 = false → (sseExec fp d op2 c).1.2 = d ∧ (sseExec fp d op2 c).2 = c) ↔
      ¬ DeclinesLate d op2 c := by
  obtain ⟨h7E, hD7, hC5⟩ := sseClass_late op2
  unfold DeclinesLate
  cases hk : sseClass op2 with
  | movdOut =>
    have hop := h7E.mp hk
    have hrun : sseExec fp d op2 = sseMovdOut d := by rw [sseExec, hk]
    rw [hrun]
    refine (sseMovdOut_declines d c).trans (not_congr ?_)
    subst hop
    simp
  | pmovmskb =>
    have hop := hD7.mp hk
    have hrun : sseExec fp d op2 = ssePmovmskb d := by rw [sseExec, hk]
    rw [hrun]
    refine (ssePmovmskb_declines d c).trans (not_congr ?_)
    subst hop
    simp
  | pextrw =>
    have hop := hC5.mp hk
    have hrun : sseExec fp d op2 = ssePextrw d := by rw [sseExec, hk]
    rw [hrun]
    refine (ssePextrw_declines d c).trans (not_congr ?_)
    subst hop
    simp
  | mov | movdq | movdIn | movq | bitwise | arith | comis | cvtFrom | cvtTo | cvtFloat | pcmpeq | pshufd |
    unpck | cmp | none =>
    rw [hk] at h7E hD7 hC5
    refine iff_of_true (sseCase_declines fp d op2 c _ ?_ ?_ ?_ hk) ?_
    · simp
    · simp
    · simp
    · rintro (⟨h, -⟩ | ⟨h | h, -⟩)
      · cases h7E.mpr h
      · cases hD7.mpr h
      · cases hC5.mpr h

/-- `movd eax, mm0` is declined behind its ModRM byte, with `rip` there. -/
theorem movd_declined_late :
    let c := codeCpu [0x0F, 0x7E, 0xC0]
    let d := (Dec.start 0x1000).skip 2
    (sseExec sampleFp d 0x7E c).1.1 = false ∧ (sseExec sampleFp d 0x7E c).1.2 = d.skip 1 ∧ d.skip 1 ≠ d ∧
      c.rip = 0x1000 ∧ (sseExec sampleFp d 0x7E c).2.rip = 0x1003 := by
  refine ⟨by decide, by decide, by decide, by decide, by decide⟩

end Rashid.Proofs
