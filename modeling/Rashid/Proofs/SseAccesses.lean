import Rashid.Proofs.InsnAccesses

/-!
# What an instruction accesses, by its encoding

SSE opcodes access nothing but their operand, and that at most once. With them the accesses of an
instruction are known from its encoding.
-/

namespace Rashid.Proofs

section Sse

variable {α : Type}

/-- At most one access, and that to the operand. -/
def Once (o : Opnd) (p : M α) [Traced Accounts p] : Prop :=
  ∀ c, actsOf p c = [] ∨ ∃ x n, actsOf p c = o.accessed x n

lemma Once.of_makes {o : Opnd} {p : M α} {_ : Traced Accounts p} {x : Access} {n : Nat} (h : Makes p (o.accessed x n)) :
    Once o p :=
  fun c => .inr ⟨x, n, h c⟩

lemma Once.ite {o : Opnd} {b : Prop} [Decidable b] {x y : M α} {_ : Traced Accounts x} {_ : Traced Accounts y}
    (hx : Once o x) (hy : Once o y) : Once o (if b then x else y) := by
  intro c
  rw [actsOf_ite]
  split
  · exact hx c
  · exact hy c

/-- What is in front accesses nothing. -/
lemma Once.then {β : Type} {o : Opnd} {x : M β} {f : β → M α} {_ : Traced Accounts x} {_ : ∀ a, Traced Accounts (f a)}
    (hx : Makes x []) (hf : ∀ a, Once o (f a)) : Once o (x >>= f) := by
  intro c
  rw [actsOf_bind, hx c]
  exact hf _ _

/-- What follows accesses nothing. -/
lemma Once.last {β : Type} {o : Opnd} {x : M β} {f : β → M α} {_ : Traced Accounts x} {_ : ∀ a, Traced Accounts (f a)}
    (hx : Once o x) (hf : ∀ a, Makes (f a) []) : Once o (x >>= f) := by
  intro c
  rw [actsOf_bind, hf, List.append_nil]
  exact hx c

variable (reg : Fin 16) (rm : Opnd) (n : Nat)

lemma movScalar_load : Makes (sseMovScalar (.reg reg) rm n) (rm.accessed .read n) :=
  .last (xrdLo_makes rm n) fun _ => .then (fun _ => rfl) fun _ => fun _ => rfl

lemma movScalar_store : Makes (sseMovScalar rm (.reg reg) n) (rm.accessed .write n) := by
  cases rm with
  | reg i => exact movScalar_load i (.reg reg) n
  | mem addr seg => exact .then (xrdLo_makes (.reg reg) n) fun v => wr_makes (.mem addr seg) n v false
  | ripRel disp seg => exact .then (xrdLo_makes (.reg reg) n) fun v => wr_makes (.ripRel disp seg) n v false

/-- Of two operands one is a register. -/
lemma move_once (dst src : Opnd) (h : dst = rm ∧ src = .reg reg ∨ dst = .reg reg ∧ src = rm) :
    Once rm (sseMovScalar dst src n) ∧ Once rm (xrd src >>= fun a => xwr dst a) := by
  rcases h with ⟨rfl, rfl⟩ | ⟨rfl, rfl⟩
  · exact ⟨.of_makes (movScalar_store reg dst n), .then (xrd_makes (.reg reg)) fun a => .of_makes (xwr_makes dst a)⟩
  · exact ⟨.of_makes (movScalar_load reg src n), .last (.of_makes (xrd_makes src)) fun a => xwr_makes (.reg reg) a⟩

lemma store_operands (b : Bool) : (if b then rm else .reg reg) = rm ∧ (if b then Opnd.reg reg else rm) = .reg reg ∨
    (if b then rm else .reg reg) = .reg reg ∧ (if b then Opnd.reg reg else rm) = rm := by
  cases b
  · exact .inr ⟨rfl, rfl⟩
  · exact .inl ⟨rfl, rfl⟩

lemma sseMovExec_once (mand op : BitVec 8) : Once rm (sseMovExec mand op reg rm) :=
  .ite (move_once reg rm _ _ _ (store_operands reg rm _)).1 (move_once reg rm 0 _ _ (store_operands reg rm _)).2

/-- Scalar or packed, an operand is read once. -/
lemma xrdLo_once {f : BitVec 64 → M α} {_ : ∀ v, Traced Accounts (f v)} (hf : ∀ v, Makes (f v) []) :
    Once rm (xrdLo rm n >>= f) :=
  .last (.of_makes (xrdLo_makes rm n)) hf

lemma xrd_once {f : Xmm → M α} {_ : ∀ v, Traced Accounts (f v)} (hf : ∀ v, Makes (f v) []) : Once rm (xrd rm >>= f) :=
  .last (.of_makes (xrd_makes rm)) hf

lemma sseBitwiseExec_once (op : BitVec 8) : Once rm (sseBitwiseExec op reg rm) :=
  xrd_once rm fun _ => .then (fun _ => rfl) fun _ => fun _ => rfl

lemma sseArithExec_once (fp : Fp) (mand op : BitVec 8) : Once rm (sseArithExec fp mand op reg rm) :=
  .then (fun _ => rfl) fun _ => .ite (xrdLo_once rm 8 fun _ => fun _ => rfl) <| .ite
    (xrdLo_once rm 4 fun _ => fun _ => rfl) <|
    .ite (xrd_once rm fun _ => fun _ => rfl) (xrd_once rm fun _ => fun _ => rfl)

lemma sseComisExec_once (fp : Fp) (mand : BitVec 8) : Once rm (sseComisExec fp mand reg rm) :=
  .ite (xrdLo_once rm 8 fun _ => .then (fun _ => rfl) fun _ => .then (fun _ => rfl) fun _ => fun _ => rfl)
    (xrdLo_once rm 4 fun _ => .then (fun _ => rfl) fun _ => .then (fun _ => rfl) fun _ => fun _ => rfl)

lemma sseCvtFromExec_once (fp : Fp) (mand : BitVec 8) : Once rm (sseCvtFromExec fp mand n reg rm) :=
  .last (.of_makes (grd_makes rm n)) fun _ => .then (fun _ => rfl) fun _ => .quiet fun _ => ite_self []

lemma sseCvtToExec_once (fp : Fp) (mand op : BitVec 8) : Once rm (sseCvtToExec fp mand op n reg rm) :=
  xrdLo_once rm _ fun _ => fun _ => rfl

lemma sseCvtFloatExec_once (fp : Fp) (mand : BitVec 8) : Once rm (sseCvtFloatExec fp mand reg rm) :=
  .ite (xrdLo_once rm 4 fun _ => .then (fun _ => rfl) fun _ => fun _ => rfl)
    (xrdLo_once rm 8 fun _ => .then (fun _ => rfl) fun _ => fun _ => rfl)

lemma sseCmpExec_once (fp : Fp) (mand imm : BitVec 8) : Once rm (sseCmpExec fp mand imm reg rm) :=
  .then (fun _ => rfl) fun _ => .ite (xrdLo_once rm 8 fun _ => fun _ => rfl) <| .ite
    (xrdLo_once rm 4 fun _ => fun _ => rfl) <|
    .ite (xrd_once rm fun _ => fun _ => rfl) (xrd_once rm fun _ => fun _ => rfl)

end Sse

section SseExec

/-- At most one access, to the operand, and none by an opcode that is declined. -/
def OnceDone (o : Opnd) (p : M (Bool × Dec)) [Traced Accounts p] : Prop :=
  ∀ c, actsOf p c = [] ∨ (p c).1.1 = true ∧ ∃ x n, actsOf p c = o.accessed x n

lemma Once.handled {o : Opnd} {p : M (Bool × Dec)} {_ : Traced Accounts p} (h : Once o p) (hdone : ∀ c, (p c).1.1 = true) :
    OnceDone o p :=
  fun c => (h c).imp_right fun hx => ⟨hdone c, hx⟩

lemma Once.exec {o : Opnd} {x : M Unit} {_ : Traced Accounts x} (h : Once o x) (e : Dec) :
    OnceDone o (x >>= fun _ => pure (true, e)) :=
  (h.last fun _ => .pure _).handled fun _ => rfl

lemma OnceDone.declined {o : Opnd} (e : Dec) : OnceDone o (pure (false, e)) := fun _ => .inl rfl

lemma OnceDone.ite {o : Opnd} {b : Prop} [Decidable b] {x y : M (Bool × Dec)} {_ : Traced Accounts x}
    {_ : Traced Accounts y}
    (hx : OnceDone o x) (hy : OnceDone o y) : OnceDone o (if b then x else y) := by
  intro c
  rw [actsOf_ite]
  by_cases h : b
  · rw [if_pos h, if_pos h]
    exact hx c
  · rw [if_neg h, if_neg h]
    exact hy c

variable (op : BitVec 8) (d : Dec) (c : Cpu)

/-- The operand is the r/m operand of an instruction that ends at `e`. -/
def OnceAt (e : Dec) (p : M (Bool × Dec)) [Traced Accounts p] : Prop :=
  actsOf p c = [] ∨ (p c).1.1 = true ∧ ∃ x n, actsOf p c = (rmAt d e c).accessed x n

variable {d c}

lemma OnceAt.ite {e : Dec} {b : Prop} [Decidable b] {x y : M (Bool × Dec)} {_ : Traced Accounts x} {_ : Traced Accounts y}
    (hx : OnceAt d c e x) (hy : OnceAt d c e y) : OnceAt d c e (if b then x else y) := by
  unfold OnceAt
  rw [actsOf_ite]
  by_cases h : b
  · rw [if_pos h, if_pos h]
    exact hx
  · rw [if_neg h, if_neg h]
    exact hy

lemma OnceAt.declined {e : Dec} (r : Bool × Dec) : OnceAt d c e (pure r : M (Bool × Dec)) := .inl rfl

lemma OnceAt.advance {f : Fin 16 × Opnd × Dec → M (Bool × Dec)} {_ : ∀ x, Traced Accounts (f x)}
    (h : ∀ reg rm e, OnceDone rm (f (reg, rm, e))) : OnceAt d c (pastRm d c) (modrmAdvance d >>= f) := by
  unfold OnceAt
  rw [actsOf_after (modrmAdvance_eval d c) rfl, Prog.bind_eval (modrmAdvance_eval d c)]
  exact h _ (rmAt d (pastRm d c) c) _ _

lemma OnceAt.immAdvance {f : Fin 16 × Opnd × BitVec 8 × Dec → M (Bool × Dec)} {_ : ∀ x, Traced Accounts (f x)}
    (h : ∀ reg rm imm e, OnceDone rm (f (reg, rm, imm, e))) :
    OnceAt d c ((pastRm d c).skip 1) (modrmImmAdvance d >>= f) := by
  unfold OnceAt
  rw [actsOf_after (modrmImmAdvance_eval d c) rfl, Prog.bind_eval (modrmImmAdvance_eval d c)]
  exact h _ (rmAt d ((pastRm d c).skip 1) c) _ _ _

variable (d c)

lemma sseMov_once : OnceAt d c (pastRm d c) (sseMov d op) := .advance fun reg rm e => (sseMovExec_once reg rm _ op).exec e

lemma sseMovdq_once : OnceAt d c (pastRm d c) (sseMovdq d op) := by
  have hmove (reg : Fin 16) (rm dst src : Opnd) (e : Dec) (h : dst = rm ∧ src = .reg reg ∨ dst = .reg reg ∧ src = rm) :
      Once rm (do
        let a ← xrd src
        xwr dst a
        pure (true, e)) := by
    rcases h with ⟨rfl, rfl⟩ | ⟨rfl, rfl⟩
    · exact .then (xrd_makes (.reg reg)) fun a => .last (.of_makes (xwr_makes dst a)) fun _ => .pure _
    · exact .last (.of_makes (xrd_makes src)) fun a => .then (xwr_makes (.reg reg) a) fun _ => .pure _
  exact .ite (.declined _) <| .advance fun reg rm e => (hmove reg rm _ _ e (store_operands reg rm _)).handled fun _ => rfl

lemma sseMovdIn_once : OnceAt d c (pastRm d c) (sseMovdIn d) :=
  .ite (.declined _) <| .advance fun _ rm _ => Once.handled
    (.last (.of_makes (grd_makes rm _)) fun _ => .then (fun _ => rfl)
    fun _ => .pure _) fun _ => rfl

lemma sseMovdOut_once : OnceAt d c (pastRm d c) (sseMovdOut d) :=
  .advance fun _ rm _ => .ite (Once.handled (xrdLo_once rm 8 fun _ => .then (fun _ => rfl) fun _ => .pure _)
    fun _ => rfl) <|
    .ite (.declined _) <| Once.handled (.then (fun _ => rfl) fun _ => .last (.of_makes (gwr_makes rm _ _))
      fun _ => .pure _)
      fun _ => rfl

lemma sseMovq_once : OnceAt d c (pastRm d c) (sseMovq d) := by
  refine .ite (.declined _) (.advance fun _ rm _ => ?_)
  cases rm with
  | reg i => exact fun _ => .inl rfl
  | mem addr seg =>
    exact Once.handled (.then (fun _ => rfl) fun _ => .last (.of_makes (wr_makes (.mem addr seg) 8 _ false))
      fun _ => .pure _)
      fun _ => rfl
  | ripRel disp seg =>
    exact Once.handled (.then (fun _ => rfl) fun _ => .last (.of_makes (wr_makes (.ripRel disp seg) 8 _ false))
      fun _ => .pure _)
      fun _ => rfl

lemma sseBitwise_once : OnceAt d c (pastRm d c) (sseBitwise d op) :=
  .ite (.declined _) <| .advance fun reg rm e => (sseBitwiseExec_once reg rm op).exec e

lemma sseArith_once (fp : Fp) : OnceAt d c (pastRm d c) (sseArith fp d op) :=
  .advance fun reg rm e => (sseArithExec_once reg rm fp _ op).exec e

lemma sseComis_once (fp : Fp) : OnceAt d c (pastRm d c) (sseComis fp d) :=
  .advance fun reg rm e => (sseComisExec_once reg rm fp _).exec e

lemma sseCvtFrom_once (fp : Fp) : OnceAt d c (pastRm d c) (sseCvtFrom fp d) :=
  .ite (.declined _) <| .advance fun reg rm e => (sseCvtFromExec_once reg rm _ fp _).exec e

lemma sseCvtTo_once (fp : Fp) : OnceAt d c (pastRm d c) (sseCvtTo fp d op) :=
  .ite (.declined _) <| .advance fun reg rm e => (sseCvtToExec_once reg rm _ fp _ op).exec e

lemma sseCvtFloat_once (fp : Fp) : OnceAt d c (pastRm d c) (sseCvtFloat fp d) :=
  .ite (.declined _) <| .advance fun reg rm e => (sseCvtFloatExec_once reg rm fp _).exec e

lemma ssePcmpeq_once : OnceAt d c (pastRm d c) (ssePcmpeq d op) := by
  refine .ite (.declined _) (.advance fun _ rm e => Once.handled ?_ fun c => ?_)
  · exact xrd_once rm fun _ => .then (fun _ => rfl) fun _ => .quiet fun _ => ite_self []
  · simp only [Prog.bind_apply, Prog.ite_apply', Prog.pure_apply, ite_self, apply_ite Prod.fst]

lemma ssePmovmskb_once : OnceAt d c (pastRm d c) (ssePmovmskb d) := by
  refine .ite (.declined _) (.advance fun _ rm _ => ?_)
  cases rm <;> exact fun _ => .inl rfl

lemma ssePshufd_once : OnceAt d c ((pastRm d c).skip 1) (ssePshufd d) :=
  .ite (.declined _) <| .immAdvance fun _ rm _ _ => Once.handled
    (xrd_once rm fun _ => .then (fun _ => rfl) fun _ => .pure _)
    fun _ => rfl

lemma sseUnpck_once : OnceAt d c (pastRm d c) (sseUnpck d op) :=
  .ite (.declined _) <| .ite (.declined _) <| .advance fun _ rm _ => Once.handled
    (xrd_once rm fun _ => .then (fun _ => rfl)
    fun _ => .then (fun _ => rfl) fun _ => .pure _) fun _ => rfl

lemma sseCmp_once (fp : Fp) : OnceAt d c ((pastRm d c).skip 1) (sseCmp fp d) :=
  .immAdvance fun reg rm imm e => (sseCmpExec_once reg rm fp _ imm).exec e

lemma ssePextrw_once : OnceAt d c ((pastRm d c).skip 1) (ssePextrw d) := by
  refine .ite (.declined _) (.immAdvance fun _ rm _ _ => ?_)
  cases rm <;> exact fun _ => .inl rfl

/-- An SSE opcode accesses nothing but its operand, and that once. -/
lemma sseExec_once (fp : Fp) : OnceAt d c (pastSse op d c) (sseExec fp d op) := by
  have hcase : OnceAt d c (pastSse op d c) (sseCase fp d op (sseClass op)) := by
    unfold pastSse
    simp only [sseClass_imm op]
    generalize sseClass op = k
    cases k with
    | mov => exact sseMov_once op d c
    | movdq => exact sseMovdq_once op d c
    | movdIn => exact sseMovdIn_once d c
    | movdOut => exact sseMovdOut_once d c
    | movq => exact sseMovq_once d c
    | bitwise => exact sseBitwise_once op d c
    | arith => exact sseArith_once op d c fp
    | comis => exact sseComis_once d c fp
    | cvtFrom => exact sseCvtFrom_once d c fp
    | cvtTo => exact sseCvtTo_once op d c fp
    | cvtFloat => exact sseCvtFloat_once d c fp
    | pcmpeq => exact ssePcmpeq_once op d c
    | pmovmskb => exact ssePmovmskb_once d c
    | pshufd => exact ssePshufd_once d c
    | unpck => exact sseUnpck_once op d c
    | cmp => exact sseCmp_once d c fp
    | pextrw => exact ssePextrw_once d c
    | none => exact .declined _
  exact hcase

end SseExec

/-! ### By encoding -/

section ByEncoding

variable (fp : Fp) (c : Cpu)

lemma opCase_acts (op : BitVec 8) (d : Dec) {k : OpClass} (h2 : k ≠ .twoByte) :
    actsOf (opCase fp op d k) c = actsOf (stepOneByte op d k) c := by
  have hmap : actsOf (stepOneByte op d k >>= fun d => pure (InsnOut.done, d)) c = actsOf (stepOneByte op d k) c := by
    rw [actsOf_bind]
    exact List.append_nil _
  cases k <;> first | exact hmap | exact absurd rfl h2

variable {c} in
lemma escaped_gp_acts {d : Dec} (hd : Settled c (encodingAt (codeOf c c.rip)) d)
    (hesc : (encodingAt (codeOf c c.rip)).escaped = true) (hs : sseClass (encodingAt (codeOf c c.rip)).op = .none)
    (h5 : (encodingAt (codeOf c c.rip)).op ≠ 0x05) : actsOf (stepEscaped fp (encodingAt (codeOf c c.rip)).op d) (noted c) =
      twoByteActs (encodingAt (codeOf c c.rip)).op d (noted c) (rmOperand c)
        (twoClass (encodingAt (codeOf c c.rip)).op) := by
  have hnone : ∀ k, k = SseClass.none → sseCase fp d (encodingAt (codeOf c c.rip)).op k (noted c) = ((false, d), noted c) ∧
      eventsOf (sseCase fp d (encodingAt (codeOf c c.rip)).op k) (noted c) = [] := by
    rintro _ rfl
    exact ⟨rfl, rfl⟩
  obtain ⟨heval, hquiet⟩ := hnone _ hs
  refine (actsOf_ite _ _ _ _).trans ((if_neg h5).trans ((actsOf_after heval hquiet).trans ?_))
  refine (actsOf_bind (stepTwoByteGp (encodingAt (codeOf c c.rip)).op d) _ _).trans ((List.append_nil _).trans ?_)
  rw [stepTwoByteGp_acts]
  by_cases h0 : twoClass (encodingAt (codeOf c c.rip)).op = .none
  · rw [h0]
    rfl
  by_cases hj : twoClass (encodingAt (codeOf c c.rip)).op = .jcc
  · rw [hj]
    rfl
  rw [rmAt_operand hd (twoByte_end hd hesc h0 hj)]

/-- Nothing, a fault of its own when it is declined, or one access to its operand. -/
lemma escaped_sse_acts {op : BitVec 8} (d : Dec) (hs : sseClass op ≠ .none) :
    actsOf (stepEscaped fp op d) c = [] ∨ actsOf (stepEscaped fp op d) c = [.raise .unimplemented0F] ∨
      ∃ x n, actsOf (stepEscaped fp op d) c = (rmAt d (pastSse op d c) c).accessed x n := by
  obtain ⟨h0, h5⟩ := sse_two_disjoint op hs
  have hraise (e : Dec) (c : Cpu) : actsOf (stepTwoByteGp op e >>= fun d => pure (InsnOut.done, d)) c =
      [.raise .unimplemented0F] := by
    rw [actsOf_bind, stepTwoByteGp_acts, h0]
    rfl
  have htail (r : Bool × Dec) (c : Cpu) : actsOf (if r.1 then pure (InsnOut.done, r.2) else
      stepTwoByteGp op r.2 >>= fun d => pure (InsnOut.done, d)) c = if r.1 then [] else [.raise .unimplemented0F] := by
    rw [actsOf_ite]
    split
    · rfl
    · exact hraise _ _
  have hrun : actsOf (stepEscaped fp op d) c = actsOf (sseExec fp d op) c ++
      if (sseExec fp d op c).1.1 then [] else [.raise .unimplemented0F] :=
    (actsOf_ite _ _ _ _).trans <| (if_neg h5).trans <| (actsOf_bind _ _ _).trans (congrArg (_ ++ ·) (htail _ _))
  rw [hrun]
  rcases sseExec_once op d c fp with h | ⟨hdone, x, n, h⟩
  · rw [h]
    split
    · exact .inl rfl
    · exact .inr (.inl rfl)
  · rw [h, hdone]
    exact .inr (.inr ⟨x, n, List.append_nil _⟩)

/-- What the accesses of an instruction are, by the encoding in front of it. -/
inductive InsnActs (e : Encoding) : Prop where
  | unknown (hno : e.escaped = false ∧ opClass e.op = .none ∨ (0xF0 : BitVec 8) ∈ e.prefixes)
      (h : actsOf (stepInsn fp) c = [.raise .unimplementedOpcode])
  | oneByte (d : Dec) (hd : Settled c e d) (hesc : e.escaped = false) (h2 : opClass e.op ≠ .twoByte)
      (hop : opClass e.op ≠ .none)
      (h : actsOf (stepInsn fp) c = oneByteActs e.op d (noted c) (rmOperand c) (opClass e.op))
  | twoByte (d : Dec) (hd : Settled c e d) (hesc : e.escaped = true) (hs : sseClass e.op = .none) (h5 : e.op ≠ 0x05)
      (h : actsOf (stepInsn fp) c = twoByteActs e.op d (noted c) (rmOperand c) (twoClass e.op))
  | sse (d : Dec) (hd : Settled c e d) (hesc : e.escaped = true) (hs : sseClass e.op ≠ .none) (x : Access) (n : Nat)
      (h : actsOf (stepInsn fp) c = (rmOperand c).accessed x n)
  | declined (hesc : e.escaped = true) (hop : twoClass e.op = .none)
      (h : actsOf (stepInsn fp) c = [] ∨ actsOf (stepInsn fp) c = [.raise .unimplemented0F])

/-- `stepInsn` up to the fetch of the opcode. -/
lemma insn_fetched_acts {d0 d : Dec} {op : BitVec 8} (hpre : prefixes (Dec.start c.rip) (noted c) = (d0, noted c))
    (hfetch : fetch8 d0 (noted c) = ((op, d), noted c)) :
    stepInsn fp c = stepOp fp op d (noted c) ∧ actsOf (stepInsn fp) c = actsOf (stepOp fp op d) (noted c) := by
  constructor
  · have h1 : stepInsn fp c =
      (prefixes (Dec.start c.rip) >>= fun d => fetch8 d >>= fun x => stepOp fp x.1 x.2) (noted c) :=
      rfl
    rw [h1, Prog.bind_eval hpre, Prog.bind_eval hfetch]
  · exact (actsOf_after (x := rdRip) rfl rfl).trans <| (actsOf_after (x := wrCurRip c.rip) rfl rfl).trans <|
      (actsOf_after hpre rfl).trans (actsOf_after hfetch rfl)

theorem insn_acts : InsnActs fp c (encodingAt (codeOf c c.rip)) := by
  obtain ⟨d0, op, d, hpre, hfetch, hop⟩ := insn_fetched c
  obtain ⟨-, hrun⟩ := insn_fetched_acts fp c hpre hfetch
  cases hop with
  | unknown hno hnone _ =>
    refine .unknown hno (hrun.trans ?_)
    refine (opCase_acts fp (noted c) op d (k := opClass op) (by rw [hnone]; decide)).trans ?_
    rw [hnone]
    rfl
  | oneByte hd hesc h2 hnone heq =>
    subst heq
    refine .oneByte d hd hesc h2 hnone (hrun.trans ((opCase_acts fp (noted c) _ d h2).trans ?_))
    rw [stepOneByte_acts, rmAt_operand hd (oneByte_end hd hesc h2 hnone)]
  | escaped d' hd hesc h0F hfetch' =>
    have hesc' : actsOf (stepInsn fp) c = actsOf (stepEscaped fp (encodingAt (codeOf c c.rip)).op d') (noted c) := by
      subst h0F
      exact hrun.trans (actsOf_after hfetch' rfl)
    by_cases h5 : (encodingAt (codeOf c c.rip)).op = 0x05
    · exact .declined hesc (by rw [h5]; decide) (.inl (hesc'.trans ((actsOf_ite _ _ _ _).trans (if_pos h5))))
    by_cases hs : sseClass (encodingAt (codeOf c c.rip)).op = .none
    · exact .twoByte d' hd hesc hs h5 (hesc'.trans (escaped_gp_acts fp hd hesc hs h5))
    · rcases escaped_sse_acts fp (noted c) d' hs with h | h | ⟨x, n, h⟩
      · exact .declined hesc (sse_two_disjoint _ hs).1 (.inl (hesc'.trans h))
      · exact .declined hesc (sse_two_disjoint _ hs).1 (.inr (hesc'.trans h))
      · refine .sse d' hd hesc hs x n (hesc'.trans ?_)
        rwa [pastSse_eq _ _ _ hs, rmAt_operand hd (skip_two_end hd hesc)] at h

/-- An instruction accesses its operand and the stack. -/
lemma insn_acts_of : AllOf (rmOperand c) (actsOf (stepInsn fp) c) := by
  cases insn_acts fp c with
  | unknown _ h => exact h ▸ .raise _
  | oneByte d _ _ _ _ h => exact h ▸ oneByteActs_of _ d _ _
  | twoByte d _ _ _ _ h => exact h ▸ twoByteActs_of _ d _ _
  | sse d _ _ _ x n h => exact h ▸ .accessed x n
  | declined _ _ h =>
    rcases h with h | h
    · exact h ▸ .nil
    · exact h ▸ .raise _

/-- One that accesses anything is known. -/
lemma insn_known {site : Site} {x : Access} {a : BitVec 64} {n : Nat} (h : .access site x a n ∈ actsOf (stepInsn fp) c) :
    (encodingAt (codeOf c c.rip)).escaped = true ∨ (encodingAt (codeOf c c.rip)).escaped = false ∧
      opClass (encodingAt (codeOf c c.rip)).op ≠ .none ∧ opClass (encodingAt (codeOf c c.rip)).op ≠ .twoByte := by
  cases insn_acts fp c with
  | unknown _ hacts =>
    rw [hacts] at h
    cases List.mem_singleton.mp h
  | oneByte d _ hesc h2 hop _ => exact .inr ⟨hesc, hop, h2⟩
  | twoByte d _ hesc _ _ _ => exact .inl hesc
  | sse d _ hesc _ _ _ _ => exact .inl hesc
  | declined hesc _ _ => exact .inl hesc

lemma stepEscaped_done (op : BitVec 8) (d : Dec) (h5 : op ≠ 0x05) : (stepEscaped fp op d c).1.1 = .done := by
  unfold stepEscaped
  rw [if_neg h5]
  generalize hr : sseExec fp d op c = r
  obtain ⟨⟨b, e⟩, c1⟩ := r
  rw [Prog.bind_eval hr]
  cases b <;> rfl

/-- A system call is an instruction that accesses nothing by itself. -/
lemma syscall_acts (h : (stepInsn fp c).1.1 = .syscall) : actsOf (stepInsn fp) c = [] := by
  obtain ⟨d0, op, d, hpre, hfetch, hop⟩ := insn_fetched c
  obtain ⟨heval, hrun⟩ := insn_fetched_acts fp c hpre hfetch
  rw [heval] at h
  by_cases h2 : opClass op = .twoByte
  · have h0F := (opClass_twoByte op).mp h2
    subst h0F
    have htwo : stepOp fp 0x0F d (noted c) = (fetch8 d >>= fun x => stepEscaped fp x.1 x.2) (noted c) := rfl
    rw [htwo, Prog.bind_eval (fetch8_eval d _)] at h
    refine hrun.trans ((actsOf_after (fetch8_eval d _) rfl).trans ?_)
    by_cases h5 : codeOf (noted c) d.p0 d.n = 0x05
    · exact (actsOf_ite _ _ _ _).trans (if_pos h5)
    · have hdone := stepEscaped_done fp (noted c) _ (d.skip 1) h5
      exact absurd (hdone.symm.trans h) (by decide)
  · rw [stepOp_oneByte fp d _ h2] at h
    cases h

end ByEncoding

end Rashid.Proofs
