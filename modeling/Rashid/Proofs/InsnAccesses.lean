import Rashid.Proofs.StepAccesses

/-!
# What an instruction accesses

The accesses that an instruction makes, allowed or not, and the faults that it raises by itself: in
their order, and apart from the stack without regard to the state.
-/

namespace Rashid

/-- An event without its outcome: an access, whether it is allowed or not, or a fault that is
raised. -/
inductive Act where
  | access (site : Site) (x : Access) (a : BitVec 64) (n : Nat)
  | raise (what : Fault)
  | remap
  deriving DecidableEq, Repr

def Event.act : Event → Act
  | .load site a n => .access site .read a n
  | .store site a n _ => .access site .write a n
  | .denied site x a n _ _ => .access site x a n
  | .raised what _ => .raise what
  | .mapped .. => .remap

def actsOf {α : Type} (p : M α) [Traced Accounts p] (c : Cpu) : List Act := (eventsOf p c).map Event.act

namespace Opnd

def accessed (x : Access) (n : Nat) : Opnd → List Act
  | reg _ => []
  | mem addr seg => [.access .operand x (addr + seg) n]
  | ripRel disp seg => [.access .operand x (disp + seg) n]

end Opnd

/-- An access to the operand or to the stack, or a fault. -/
def Act.Of (o : Opnd) (act : Act) : Prop :=
  (∃ x n, act ∈ o.accessed x n) ∨ (∃ x a n, act = .access .stack x a n) ∨ ∃ f, act = .raise f

end Rashid

namespace Rashid.Proofs

section Compose

variable {α β : Type}

lemma actsOf_bind (x : M α) (f : α → M β) [Traced Accounts x] [∀ a, Traced Accounts (f a)] (c : Cpu) :
    actsOf (x >>= f) c = actsOf x c ++ actsOf (f (x c).1) (x c).2 := by
  unfold actsOf
  rw [eventsOf_bind, List.map_append]

/-- What comes behind a part that accesses nothing. -/
lemma actsOf_after {x : M α} {f : α → M β} {_ : Traced Accounts x} {_ : ∀ a, Traced Accounts (f a)} {c c' : Cpu} {a : α}
    (h : x c = (a, c')) (hq : eventsOf x c = []) : actsOf (x >>= f) c = actsOf (f a) c' := by
  unfold actsOf
  rw [eventsOf_bind, hq, h]
  rfl

/-- A program with the same accesses from every state. -/
def Makes (p : M α) [Traced Accounts p] (xs : List Act) : Prop := ∀ c, actsOf p c = xs

lemma Makes.pure (a : α) : Makes (Pure.pure a : M α) [] := fun _ => rfl

lemma Makes.bind {x : M α} {f : α → M β} [Traced Accounts x] [∀ a, Traced Accounts (f a)] {xs ys : List Act}
    (hx : Makes x xs) (hf : ∀ a, Makes (f a) ys) : Makes (x >>= f) (xs ++ ys) := by
  intro c
  rw [actsOf_bind, hx c, hf]

/-- The rest of a program that accesses nothing any more. -/
lemma Makes.last {x : M α} {f : α → M β} [Traced Accounts x] [∀ a, Traced Accounts (f a)] {xs : List Act}
    (hx : Makes x xs) (hf : ∀ a, Makes (f a) []) : Makes (x >>= f) xs := by
  intro c
  rw [actsOf_bind, hx c, hf, List.append_nil]

lemma Makes.then {x : M α} {f : α → M β} [Traced Accounts x] [∀ a, Traced Accounts (f a)] {ys : List Act}
    (hx : Makes x []) (hf : ∀ a, Makes (f a) ys) : Makes (x >>= f) ys :=
  Makes.bind hx hf

lemma Makes.ite {b : Prop} [Decidable b] {x y : M α} [Traced Accounts x] [Traced Accounts y] {xs ys : List Act}
    (hx : Makes x xs) (hy : Makes y ys) : Makes (if b then x else y) (if b then xs else ys) := by
  intro c
  unfold actsOf
  rw [eventsOf_ite]
  by_cases h : b
  · rw [if_pos h, if_pos h]
    exact hx c
  · rw [if_neg h, if_neg h]
    exact hy c

end Compose

section Primitives

variable (o : Opnd) (n : Nat)

lemma act_read (site : Site) (a : BitVec 64) (n : Nat) (c : Cpu) :
    (readEvent site a n c).act = .access site .read a n := by
  unfold readEvent
  split <;> rfl

lemma act_write (site : Site) (a : BitVec 64) (n : Nat) (bytes : List (BitVec 8)) (c : Cpu) :
    (writeEvent site a n bytes c).act = .access site .write a n := by
  unfold writeEvent
  split <;> rfl

lemma makes_read {x : M α} {site : Site} {a : BitVec 64} {n : Nat} [Traced Accounts x]
    (h : ∀ c, eventsOf x c = [readEvent site a n c]) : Makes x [.access site .read a n] := by
  intro c
  rw [actsOf, h, List.map_singleton, act_read]

lemma makes_write {x : M α} {site : Site} {a : BitVec 64} {n : Nat} {bytes : List (BitVec 8)} [Traced Accounts x]
    (h : ∀ c, eventsOf x c = [writeEvent site a n bytes c]) : Makes x [.access site .write a n] := by
  intro c
  rw [actsOf, h, List.map_singleton, act_write]

lemma rd_makes (rex : Bool) : Makes (rd o n rex) (o.accessed .read n) := by
  cases o with
  | reg i => exact fun _ => rfl
  | mem addr seg | ripRel addr seg => exact makes_read fun _ => rfl

lemma wr_makes (v : BitVec 64) (rex : Bool) : Makes (wr o v n rex) (o.accessed .write n) := by
  cases o with
  | reg i => exact fun _ => rfl
  | mem addr seg | ripRel addr seg => exact makes_write fun _ => rfl

lemma xrd_makes : Makes (xrd o) (o.accessed .read 16) := by
  cases o with
  | reg i => exact fun _ => rfl
  | mem addr seg | ripRel addr seg => exact makes_read fun _ => rfl

lemma xwr_makes (v : Xmm) : Makes (xwr o v) (o.accessed .write 16) := by
  cases o with
  | reg i => exact fun _ => rfl
  | mem addr seg | ripRel addr seg => exact makes_write fun _ => rfl

lemma xrdLo_makes : Makes (xrdLo o n) (o.accessed .read n) := by
  cases o with
  | reg i => exact fun _ => rfl
  | mem addr seg | ripRel addr seg => exact makes_read fun _ => rfl

lemma grd_makes : Makes (grd o n) (o.accessed .read n) := by
  cases o with
  | reg i => exact fun _ => rfl
  | mem addr seg | ripRel addr seg => exact makes_read fun _ => rfl

lemma gwr_makes (v : BitVec 64) : Makes (gwr o v n) (o.accessed .write n) := by
  cases o with
  | reg i => exact fun _ => rfl
  | mem addr seg | ripRel addr seg => exact makes_write fun _ => rfl

def pushAct (c : Cpu) : Act := .access .stack .write (c.r rsp - 8) 8

def popAct (c : Cpu) : Act := .access .stack .read (c.r rsp) 8

lemma push_acts (v : BitVec 64) (c : Cpu) : actsOf (push v) c = [pushAct c] := by
  show [writeEvent .stack (c.r rsp - 8) 8 (lowBytes v 8) { c with r := Function.update c.r rsp (c.r rsp - 8) }].map
    Event.act = _
  rw [List.map_singleton, act_write]
  rfl

lemma pop_acts (c : Cpu) : actsOf pop c = [popAct c] := by
  show [readEvent .stack (c.r rsp) 8 c].map Event.act = _
  rw [List.map_singleton, act_read]
  rfl

/-- `cmp` and `test` leave the destination alone. -/
def Alu.writes (o : Alu) : Bool := o != .cmp && o != .test

lemma aluExec_makes (o : Alu) (a b : BitVec 64) (n : Nat) (w : BitVec 64 → M Unit) [∀ r, Traced Accounts (w r)]
    {xs : List Act} (hw : ∀ r, Makes (w r) xs) : Makes (aluExec o a b n w) (if Alu.writes o then xs else []) := by
  cases o with
  | cmp | test => exact fun _ => rfl
  | mov => exact hw b
  | adc | sbb => exact .then (fun _ => rfl) fun _ => .then (fun _ => rfl) fun _ => hw _
  | add | or | and | sub | xor => exact .then (fun _ => rfl) fun _ => hw _

end Primitives

lemma actsOf_ite {α : Type} (b : Prop) [Decidable b] (x y : M α) {_ : Traced Accounts x} {_ : Traced Accounts y}
    (c : Cpu) : actsOf (if b then x else y) c = if b then actsOf x c else actsOf y c := by
  unfold actsOf
  rw [eventsOf_ite]
  split <;> rfl

/-- A part that accesses nothing. -/
lemma Makes.quiet {α : Type} {x : M α} [Traced Accounts x] (h : ∀ c, eventsOf x c = []) : Makes x [] := by
  intro c
  rw [actsOf, h]
  rfl

lemma rd_r (o : Opnd) (n : Nat) (rex : Bool) (c : Cpu) : (rd o n rex c).2.r = c.r := by
  have hld (a : BitVec 64) : (ld a n c).2.r = c.r := by
    unfold ld
    split
    · rfl
    · obtain ⟨_, _, _, _, h⟩ := memfault_eq a (why c.as a (BitVec.ofNat 64 n)) c
      rw [h]
  cases o with
  | reg i => rw [rd_reg_eval]
  | mem addr seg | ripRel addr seg => exact hld _

lemma rd_value_rip (c : Cpu) (o : Opnd) (n : Nat) (rex : Bool) (v : BitVec 64) :
    (rd o n rex { c with rip := v }).1 = (rd o n rex c).1 := by
  have hld (a : BitVec 64) : (ld a n { c with rip := v }).1 = (ld a n c).1 := by
    unfold ld
    split <;> rfl
  cases o with
  | reg i => rw [rd_reg_eval, rd_reg_eval]
  | mem addr seg | ripRel addr seg => exact hld _

section OneByte

variable (op : BitVec 8) (d : Dec) (c : Cpu)

/-- Either operand may be the register. -/
lemma row_accessed (toReg w : Bool) (i : Fin 16) (o : Opnd) (n : Nat) :
    (if toReg then Opnd.reg i else o).accessed .read n ++ ((if toReg then o else Opnd.reg i).accessed .read n ++
        if w then (if toReg then Opnd.reg i else o).accessed .write n else []) =
      o.accessed .read n ++ if !toReg && w then o.accessed .write n else [] := by
  cases toReg <;> cases w <;> simp [Opnd.accessed]

lemma aluRow_acts : actsOf (stepAluRow op d) c =
    let o := rmAt d (pastRm d c) c
    let n := rowSize op d.opsize
    o.accessed .read n ++ if !rowToReg op && Alu.writes (rowAlu op) then o.accessed .write n else [] := by
  refine (actsOf_after (modrmAdvance_eval d c) rfl).trans ?_
  have hwork (dst src : Opnd) (n : Nat) (rex : Bool) (e : Dec) : Makes (do
      let a ← rd dst n rex
      let b ← rd src n rex
      aluExec (rowAlu op) a b n fun r => wr dst r n rex
      pure e) (dst.accessed .read n ++ (src.accessed .read n ++
        if Alu.writes (rowAlu op) then dst.accessed .write n else [])) :=
    .bind (rd_makes dst n rex) fun a => .bind (rd_makes src n rex) fun b =>
      .last (aluExec_makes _ a b n _ fun r => wr_makes dst n r rex) fun _ => .pure _
  exact (hwork _ _ _ _ _ _).trans (row_accessed (rowToReg op) _ _ _ _)

lemma aluEax_makes : Makes (stepAluEax op d) [] := by
  have hwork (x : BitVec 64 × Dec) (n : Nat) : Makes (do
      wrRip (decRip x.2)
      let a ← getreg rax n
      aluExec (eaxAlu op) a x.1 n fun r => setreg rax r n
      pure x.2) [] := by
    refine .then (fun _ => rfl) fun _ => .then (fun _ => rfl) fun a => .then ?_ fun _ => .pure _
    have hset := aluExec_makes (eaxAlu op) a x.1 n (fun r => setreg rax r n) fun r => Makes.quiet fun _ => rfl
    rwa [ite_self] at hset
  have hall : Makes (stepAluEax op d) (if (op &&& 1 == 0) = true then [] else if _ then [] else []) :=
    .ite (.then (fun _ => rfl) fun x => hwork x _)
      (.ite (.then (fun _ => rfl) fun x => hwork x _) (.then (fun _ => rfl) fun x => hwork x _))
  rwa [ite_self, ite_self] at hall

lemma testEax_makes : Makes (stepTestEax op d) [] := by
  have hwork (x : BitVec 64 × Dec) (n : Nat) : Makes (do
      wrRip (decRip x.2)
      let a ← getreg rax n
      modFlags fun f => flagsLogic f (a &&& x.1) n
      pure x.2) [] :=
    .then (fun _ => rfl) fun _ => .then (fun _ => rfl) fun a => .then (fun _ => rfl) fun _ => .pure _
  have hall : Makes (stepTestEax op d) (if op = 0xA8 then [] else if _ then [] else []) :=
    .ite (.then (fun _ => rfl) fun x => hwork x _)
      (.ite (.then (fun _ => rfl) fun x => hwork x _) (.then (fun _ => rfl) fun x => hwork x _))
  rwa [ite_self, ite_self] at hall

lemma pushReg_acts : actsOf (stepPushReg op d) c = [pushAct c] := by
  refine (actsOf_after (x := wrRip (decRip d)) rfl rfl).trans ?_
  refine (actsOf_after (x := rdR _) rfl rfl).trans ?_
  refine (actsOf_bind _ _ _).trans ?_
  rw [push_acts]
  rfl

lemma popReg_acts : actsOf (stepPopReg op d) c = [popAct c] := by
  refine (actsOf_after (x := wrRip (decRip d)) rfl rfl).trans ?_
  refine (actsOf_bind _ _ _).trans ?_
  rw [pop_acts]
  rfl

lemma movsxd_acts : actsOf (stepMovsxd d) c = (rmAt d (pastRm d c) c).accessed .read 4 := by
  refine (actsOf_after (modrmAdvance_eval d c) rfl).trans ?_
  have hwork (o : Opnd) (rex : Bool) (f : BitVec 64 → M Unit) [∀ v, Traced Accounts (f v)]
    (hf : ∀ v, Makes (f v) []) (e : Dec) :
      Makes (do
        let v ← rd o 4 rex
        f v
        pure e) (o.accessed .read 4) :=
    .last (rd_makes o 4 rex) fun v => .then (hf v) fun _ => .pure _
  exact hwork (fixupRip (pastRm d c) (rmOpnd d c)) d.hasRex _ (fun v => Makes.quiet fun _ => rfl) _ _

lemma pushImm_acts : actsOf (stepPushImm op d) c = [pushAct c] := by
  have hwork (v : BitVec 64) (e : Dec) : actsOf (do
      wrRip (decRip e)
      push v
      pure e) c = [pushAct c] := by
    refine (actsOf_after (x := wrRip (decRip e)) rfl rfl).trans ?_
    rw [actsOf_bind, push_acts]
    rfl
  refine (actsOf_ite (op = 0x68) _ _ c).trans ?_
  split
  · exact (actsOf_after (imm32s_eval d c) rfl).trans (hwork _ _)
  · exact (actsOf_after (imm8s_eval d c) rfl).trans (hwork _ _)

lemma imulImm_acts : actsOf (stepImulImm op d) c =
    (rmAt d (immS (pastRm d c) c (op != 0x6B)).2 c).accessed .read d.opsize := by
  have hwork (o : Opnd) (r : Fin 16) (v : BitVec 64) (n : Nat) (rex : Bool) (e : Dec) : Makes (do
      wrRip (decRip e)
      let a ← rd o n rex
      setreg r (sext a n * v) n
      modFlags fun f => flagsLogic f (sext a n * v) n
      pure e) (o.accessed .read n) :=
    .then (fun _ => rfl) fun _ => .last (rd_makes o n rex) fun a => .then (fun _ => rfl) fun _ =>
      .then (fun _ => rfl) fun _ => .pure _
  refine (actsOf_after (modrm_eval d c) rfl).trans ?_
  refine (actsOf_ite (op = 0x6B) _ _ c).trans ?_
  by_cases h : op = 0x6B
  · rw [if_pos h]
    refine (actsOf_after (imm8s_eval _ c) rfl).trans ?_
    subst h
    exact hwork (fixupRip ((pastRm d c).skip 1) (rmOpnd d c)) _ _ _ _ _ _
  · have hne : (op != 0x6B) = true := by simpa using h
    rw [if_neg h, hne]
    refine (actsOf_after (imm32s_eval _ c) rfl).trans ?_
    exact hwork (fixupRip ((pastRm d c).skip 4) (rmOpnd d c)) _ _ _ _ _ _

lemma jcc8_makes : Makes (stepJcc8 op d) [] := by
  have htail (b : Prop) [Decidable b] (v : BitVec 64) (e : Dec) :
      Makes (if b then wrRip v >>= fun _ => pure e else pure e) [] := by
    have h : Makes (if b then wrRip v >>= fun _ => pure e else pure e) (if b then [] else []) :=
      .ite (.then (fun _ => rfl) fun _ => .pure _) (.pure _)
    rwa [ite_self] at h
  exact .then (fun _ => rfl) fun _ => .then (fun _ => rfl) fun _ => .then (fun _ => rfl) fun f => htail _ _ _

lemma grp1_acts : actsOf (stepGrp1 op d) c =
    let n := if op = 0x80 then 1 else d.opsize
    let o := rmAt d (immS (pastRm d c) c (op = 0x81)).2 c
    o.accessed .read n ++ if Alu.writes (grp1Alu (rmExt d c)) then o.accessed .write n else [] := by
  have hwork (o : Opnd) (k : Alu) (v : BitVec 64) (n : Nat) (rex : Bool) (e : Dec) : Makes (do
      wrRip (decRip e)
      let a ← rd o n rex
      aluExec k a v n fun r => wr o r n rex
      pure e) (o.accessed .read n ++ if Alu.writes k then o.accessed .write n else []) :=
    .then (fun _ => rfl) fun _ => .bind (rd_makes o n rex) fun a =>
      .last (aluExec_makes k a v n _ fun r => wr_makes o n r rex) fun _ => .pure _
  refine (actsOf_after (modrmExt_eval d c) rfl).trans ?_
  refine (actsOf_ite (op = 0x81) _ _ c).trans ?_
  by_cases h : op = 0x81
  · rw [if_pos h]
    refine (actsOf_after (imm32s_eval _ c) rfl).trans ?_
    subst h
    exact hwork (fixupRip ((pastRm d c).skip 4) (rmOpnd d c)) _ _ _ _ _ _
  · rw [if_neg h, decide_eq_false h]
    refine (actsOf_after (imm8s_eval _ c) rfl).trans ?_
    exact hwork (fixupRip ((pastRm d c).skip 1) (rmOpnd d c)) _ _ _ _ _ _

lemma xchg_acts : actsOf (stepXchg d) c =
    (rmAt d (pastRm d c) c).accessed .read d.opsize ++ (rmAt d (pastRm d c) c).accessed .write d.opsize := by
  have hwork (o : Opnd) (r : Fin 16) (n : Nat) (rex : Bool) (e : Dec) : Makes (do
      let a ← rd o n rex
      let b ← rd (.reg r) n rex
      wr o b n rex
      wr (.reg r) a n rex
      pure e) (o.accessed .read n ++ o.accessed .write n) :=
    .bind (rd_makes o n rex) fun a => .then (rd_makes (.reg r) n rex) fun b => .last (wr_makes o n b rex) fun _ =>
      .then (wr_makes (.reg r) n a rex) fun _ => .pure _
  refine (actsOf_after (modrmAdvance_eval d c) rfl).trans ?_
  exact hwork (fixupRip (pastRm d c) (rmOpnd d c)) _ _ _ _ _

lemma lea_acts : actsOf (stepLea d) c = if (rmAt d (pastRm d c) c).isReg then [.raise .leaRegister] else [] := by
  refine (actsOf_after (modrmAdvance_eval d c) rfl).trans ?_
  unfold rmAt
  generalize fixupRip (pastRm d c) (rmOpnd d c) = o
  cases o <;> rfl

lemma popRm_acts : actsOf (stepPopRm d) c = popAct c :: (rmAt d (pastRm d c) c).accessed .write 8 := by
  have hwork (o : Opnd) (rex : Bool) (e : Dec) (v : BitVec 64) : Makes (do
      wr o v 8 rex
      pure e) (o.accessed .write 8) :=
    .last (wr_makes o 8 v rex) fun _ => .pure _
  refine (actsOf_after (modrmAdvance_eval d c) rfl).trans ?_
  refine (actsOf_bind _ _ _).trans ?_
  rw [pop_acts]
  exact congrArg (popAct c :: ·) (hwork (fixupRip (pastRm d c) (rmOpnd d c)) _ _ _ _)

lemma pushfq_acts : actsOf (stepPushfq d) c = [pushAct c] := by
  refine (actsOf_after (x := wrRip (decRip d)) rfl rfl).trans ?_
  refine (actsOf_after (x := rdFlags) rfl rfl).trans ?_
  refine (actsOf_bind _ _ _).trans ?_
  rw [push_acts]
  rfl

lemma popfq_acts : actsOf (stepPopfq d) c = [popAct c] := by
  refine (actsOf_after (x := wrRip (decRip d)) rfl rfl).trans ?_
  refine (actsOf_bind _ _ _).trans ?_
  rw [pop_acts]
  rfl

lemma movRegImm8_makes : Makes (stepMovRegImm8 op d) [] :=
  .then (fun _ => rfl) fun _ => .then (fun _ => rfl) fun _ => .then (fun _ => rfl) fun _ => .pure _

lemma movRegImm_makes : Makes (stepMovRegImm op d) [] := by
  have hwork (x : BitVec 64 × Dec) (r : Fin 16) (n : Nat) : Makes (do
      wrRip (decRip x.2)
      setreg r x.1 n
      pure x.2) [] :=
    .then (fun _ => rfl) fun _ => .then (fun _ => rfl) fun _ => .pure _
  have hall : Makes (stepMovRegImm op d) (if d.opsize = 8 then [] else if d.opsize = 2 then [] else []) :=
    .ite (.then (fun _ => rfl) fun x => hwork x _ _)
      (.ite (.then (fun _ => rfl) fun x => hwork x _ _) (.then (fun _ => rfl) fun x => hwork x _ _))
  rwa [ite_self, ite_self] at hall

lemma nop_makes : Makes (stepNop d) [] := .then (fun _ => rfl) fun _ => .pure _

lemma cwde_makes : Makes (stepCwde d) [] :=
  .then (fun _ => rfl) fun _ => .then (fun _ => rfl) fun _ => .then (fun _ => rfl) fun _ => .pure _

lemma cdq_makes : Makes (stepCdq d) [] :=
  .then (fun _ => rfl) fun _ => .then (fun _ => rfl) fun _ => .then (fun _ => rfl) fun _ => .pure _

lemma shift_acts : actsOf (stepShift op d) c =
    let n := shiftSize op d.opsize
    let i := shiftCount (pastRm d c) c (op = 0xC0 ∨ op = 0xC1) (op = 0xD0 ∨ op = 0xD1)
    let o := rmAt d i.2 c
    if i.1 &&& countMask n = 0 then [] else if rmExt d c < 4 then [.raise .rotate]
    else o.accessed .read n ++ o.accessed .write n := by
  have hwork (o : Opnd) (ext : BitVec 8) (cnt : BitVec 64) (n : Nat) (e : Dec) : Makes (do
      wrRip (decRip e)
      if cnt &&& countMask n = 0 then pure e
      else if ext < 4 then
        raise .rotate e.rip0
        pure e
      else
        let a ← rd o n e.hasRex
        let f ← rdFlags
        wrFlags (rsdIShift f a (cnt &&& countMask n) n ext).2
        wr o (rsdIShift f a (cnt &&& countMask n) n ext).1 n e.hasRex
        pure e) (if cnt &&& countMask n = 0 then [] else if ext < 4 then [.raise .rotate]
          else o.accessed .read n ++ o.accessed .write n) :=
    .then (fun _ => rfl) fun _ => .ite (.pure _) <| .ite (.last (fun _ => rfl) fun _ => .pure _) <|
      .bind (rd_makes o n _) fun a => .then (fun _ => rfl) fun f => .then (fun _ => rfl) fun _ =>
        .last (wr_makes o n _ _) fun _ => .pure _
  refine (actsOf_after (modrmExt_eval d c) rfl).trans ?_
  refine (actsOf_ite (op = 0xC0 ∨ op = 0xC1) _ _ c).trans ?_
  unfold shiftCount
  by_cases hi : op = 0xC0 ∨ op = 0xC1
  · rw [if_pos hi]
    refine (actsOf_after (imm8_eval _ c) rfl).trans ?_
    rw [decide_eq_true hi]
    exact hwork _ _ _ _ _ _
  · rw [if_neg hi]
    refine (actsOf_ite (op = 0xD0 ∨ op = 0xD1) _ _ c).trans ?_
    by_cases ho : op = 0xD0 ∨ op = 0xD1
    · rw [if_pos ho, decide_eq_false hi, decide_eq_true ho]
      exact hwork _ _ _ _ _ _
    · rw [if_neg ho, decide_eq_false hi, decide_eq_false ho]
      refine (actsOf_after (x := rdR rcx) rfl rfl).trans ?_
      exact hwork _ _ _ _ _ _

lemma retImm_acts : actsOf (stepRetImm d) c = [popAct c] := by
  refine (actsOf_after (x := fetch16 d) rfl rfl).trans ?_
  refine (actsOf_bind _ _ _).trans ?_
  rw [pop_acts]
  rfl

lemma ret_acts : actsOf (stepRet d) c = [popAct c] := by
  refine (actsOf_bind _ _ _).trans ?_
  rw [pop_acts]
  rfl

/-- The end of `mov` with an immediate. -/
def movRmImmEnd : Dec := if op = 0xC6 then (pastRm d c).skip 1 else (pastRm d c).skip 4

lemma movRmImm_acts : actsOf (stepMovRmImm op d) c =
    (rmAt d (movRmImmEnd op d c) c).accessed .write (if op = 0xC6 then 1 else d.opsize) := by
  have hwork (o : Opnd) (v : BitVec 64) (n : Nat) (rex : Bool) (e : Dec) : Makes (do
      wrRip (decRip e)
      wr o v n rex
      pure e) (o.accessed .write n) :=
    .then (fun _ => rfl) fun _ => .last (wr_makes o n v rex) fun _ => .pure _
  refine (actsOf_after (modrm_eval d c) rfl).trans ?_
  refine (actsOf_ite (op = 0xC6) _ _ c).trans ?_
  by_cases h : op = 0xC6
  · have hend : movRmImmEnd op d c = (pastRm d c).skip 1 := if_pos h
    refine (if_pos h).trans ((actsOf_after (imm8_eval _ c) rfl).trans ?_)
    refine (hwork (fixupRip ((pastRm d c).skip 1) (rmOpnd d c)) _ _ _ ((pastRm d c).skip 1) _).trans ?_
    rw [hend]
    rfl
  · have hend : movRmImmEnd op d c = (pastRm d c).skip 4 := if_neg h
    refine (if_neg h).trans ((actsOf_after (imm32s_eval _ c) rfl).trans ?_)
    refine (hwork (fixupRip ((pastRm d c).skip 4) (rmOpnd d c)) _ _ _ ((pastRm d c).skip 4) _).trans ?_
    rw [hend]
    rfl

lemma leave_acts : actsOf (stepLeave d) c = [.access .stack .read (c.r rbp) 8] := by
  refine (actsOf_after (x := wrRip (decRip d)) rfl rfl).trans ?_
  refine (actsOf_after (x := rdR rbp) rfl rfl).trans ?_
  refine (actsOf_after (x := wrR rsp (c.r rbp)) rfl rfl).trans ?_
  refine (actsOf_bind _ _ _).trans ?_
  rw [pop_acts]
  rfl

lemma call_acts : actsOf (stepCall d) c = [pushAct c] := by
  refine (actsOf_after (imm32s_eval d c) rfl).trans ?_
  refine (actsOf_after (x := wrRip (decRip (d.skip 4))) rfl rfl).trans ?_
  refine (actsOf_bind _ _ _).trans ?_
  rw [push_acts]
  rfl

lemma jmp_makes : Makes (stepJmp op d) [] := by
  have hall : Makes (stepJmp op d) (if op = 0xE9 then [] else []) :=
    .ite (.then (fun _ => rfl) fun _ => .then (fun _ => rfl) fun _ => .pure _)
      (.then (fun _ => rfl) fun _ => .then (fun _ => rfl) fun _ => .pure _)
  rwa [ite_self] at hall

/-- What group 3 does to its operand once the value `a` has been read. -/
def grp3Acts (ext : BitVec 8) (a : BitVec 64) (o : Opnd) (n : Nat) : List Act :=
  match ext with
  | 2 | 3 => o.accessed .write n
  | 6 | 7 => if a = 0 then [.raise .divideByZero] else []
  | _ => []

/-- The eight extensions. -/
lemma ext_cases {ext : BitVec 8} (h : ext ≤ 7) :
    ext = 0 ∨ ext = 1 ∨ ext = 2 ∨ ext = 3 ∨ ext = 4 ∨ ext = 5 ∨ ext = 6 ∨ ext = 7 := by
  have hall : ∀ x : BitVec 8, x ≤ 7 → x = 0 ∨ x = 1 ∨ x = 2 ∨ x = 3 ∨ x = 4 ∨ x = 5 ∨ x = 6 ∨ x = 7 := by decide
  exact hall ext h

lemma grp3Exec_makes {ext : BitVec 8} (hext : ext ≤ 7) (a imm : BitVec 64) (n : Nat) (o : Opnd) :
    Makes (grp3Exec ext a imm n o d) (grp3Acts ext a o n) := by
  have hdiv (q r : BitVec 64 → BitVec 64 → BitVec 128) : Makes (if a = 0 then raise .divideByZero d.rip0 else do
      let hi ← rdR rdx
      let lo ← rdR rax
      setQuotient (q hi lo) (r hi lo) n) (if a = 0 then [.raise .divideByZero] else []) :=
    .ite (fun _ => rfl) (.then (fun _ => rfl) fun _ => .then (fun _ => rfl) fun _ => fun _ => rfl)
  rcases ext_cases hext with rfl | rfl | rfl | rfl | rfl | rfl | rfl | rfl
  · exact fun _ => rfl
  · exact fun _ => rfl
  · exact wr_makes o n _ _
  · exact .then (fun _ => rfl) fun _ => wr_makes o n _ _
  · exact .then (fun _ => rfl) fun _ => fun _ => rfl
  · exact .then (fun _ => rfl) fun _ => fun _ => rfl
  · exact hdiv _ _
  · exact hdiv _ _

lemma immTest_hasRex (byte : Bool) (ext : BitVec 8) : (immTest d c byte ext).2.hasRex = d.hasRex := by
  unfold immTest
  split
  · split <;> rfl
  · rfl

lemma grp3_acts : actsOf (stepGrp3 op d) c =
    let n := if op = 0xF6 then 1 else d.opsize
    let e := (immTest (pastRm d c) c (op = 0xF6) (rmExt d c)).2
    let o := rmAt d e c
    o.accessed .read n ++ grp3Acts (rmExt d c) (rd o n d.hasRex { c with rip := decRip e }).1 o n := by
  have hext : rmExt d c ≤ 7 := extField_le _
  have hwork (o : Opnd) (imm : BitVec 64) (n : Nat) (e : Dec) : actsOf (do
      wrRip (decRip e)
      let a ← rd o n e.hasRex
      grp3Exec (rmExt d c) a imm n o e
      pure e) c = o.accessed .read n ++ grp3Acts (rmExt d c) (rd o n e.hasRex { c with rip := decRip e }).1 o n := by
    refine (actsOf_after (x := wrRip (decRip e)) rfl rfl).trans ?_
    refine (actsOf_bind _ _ _).trans (congrArg₂ (· ++ ·) (rd_makes o n e.hasRex _) ?_)
    exact (grp3Exec_makes e hext _ imm n o).last (fun _ => .pure _) _
  have hrex : (immTest (pastRm d c) c (op = 0xF6) (rmExt d c)).2.hasRex = d.hasRex := immTest_hasRex _ _ _ _
  extract_lets n e o
  rw [← hrex]
  refine (actsOf_after (modrmExt_eval d c) rfl).trans ?_
  refine (actsOf_ite (rmExt d c = 0 ∨ rmExt d c = 1) _ _ c).trans ?_
  by_cases ht : rmExt d c = 0 ∨ rmExt d c = 1
  · have himm : (if op = 0xF6 then imm8 (pastRm d c) else imm32s (pastRm d c)) c =
        (immTest (pastRm d c) c (op = 0xF6) (rmExt d c), c) := by
      unfold immTest
      rw [if_pos ht]
      by_cases hb : op = 0xF6
      · rw [if_pos hb, if_pos (decide_eq_true hb)]
        rfl
      · rw [if_neg hb, if_neg (by rw [decide_eq_false hb]; decide)]
        rfl
    refine (if_pos ht).trans ((actsOf_after himm ?_).trans (hwork o _ n e))
    rw [eventsOf_ite]
    split <;> rfl
  · have himm : immTest (pastRm d c) c (op = 0xF6) (rmExt d c) = (0, pastRm d c) := if_neg ht
    exact (if_neg ht).trans ((actsOf_after (congrArg (·, c) himm.symm) rfl).trans (hwork o _ n e))

/-- What group 5 does once it has read its operand. -/
def grp5Acts (ext : BitVec 8) (o : Opnd) (n : Nat) (c : Cpu) : List Act :=
  match ext with
  | 0 | 1 => o.accessed .write n
  | 2 => pushAct c :: o.accessed .read 8
  | 4 => o.accessed .read 8
  | 6 => o.accessed .read 8 ++ [pushAct c]
  | _ => [.raise .grp5Far]

lemma grp5Exec_acts {ext : BitVec 8} (hext : ext ≤ 7) (a : BitVec 64) (n : Nat) (o : Opnd) :
    actsOf (grp5Exec ext a n o d) c = grp5Acts ext o n c := by
  rcases ext_cases hext with rfl | rfl | rfl | rfl | rfl | rfl | rfl | rfl
  · exact (Makes.then (fun _ => rfl) fun _ => wr_makes o n _ _) c
  · exact (Makes.then (fun _ => rfl) fun _ => wr_makes o n _ _) c
  · refine (actsOf_bind _ _ _).trans ?_
    rw [push_acts]
    exact congrArg (pushAct c :: ·) ((rd_makes o 8 _).last (fun _ => fun _ => rfl) _)
  · rfl
  · exact (rd_makes o 8 _).last (fun _ => fun _ => rfl) _
  · rfl
  · refine (actsOf_bind _ _ _).trans (congrArg₂ (· ++ ·) (rd_makes o 8 _ _) ?_)
    rw [push_acts, pushAct, rd_r]
    rfl
  · rfl

lemma grp5Acts_congr (ext : BitVec 8) {c c' : Cpu} (h : c'.r = c.r) (o : Opnd) (n : Nat) :
    grp5Acts ext o n c' = grp5Acts ext o n c := by
  unfold grp5Acts pushAct
  rw [h]

lemma grp5_acts : actsOf (stepGrp5 op d) c =
    let n := if op = 0xFE then 1 else d.opsize
    let o := rmAt d (pastRm d c) c
    o.accessed .read n ++ grp5Acts (rmExt d c) o n c := by
  have hext : rmExt d c ≤ 7 := extField_le _
  have hwork (o : Opnd) (n : Nat) (e : Dec) : actsOf (do
      wrRip (decRip e)
      let a ← rd o n e.hasRex
      grp5Exec (rmExt d c) a n o e
      pure e) c = o.accessed .read n ++ grp5Acts (rmExt d c) o n c := by
    refine (actsOf_after (x := wrRip (decRip e)) rfl rfl).trans ?_
    refine (actsOf_bind _ _ _).trans (congrArg₂ (· ++ ·) (rd_makes o n e.hasRex _) ?_)
    refine (actsOf_bind _ _ _).trans ?_
    rw [grp5Exec_acts _ _ hext, grp5Acts_congr _ (rd_r o n e.hasRex _)]
    exact List.append_nil _
  refine (actsOf_after (modrmExt_eval d c) rfl).trans ?_
  exact hwork _ _ _

end OneByte

section TwoByte

variable (op : BitVec 8) (d : Dec) (c : Cpu)

lemma setcc_acts : actsOf (stepSetcc op d) c = (rmAt d (pastRm d c) c).accessed .write 1 := by
  have hwork (o : Opnd) (rex : Bool) (e : Dec) : Makes (do
      let f ← rdFlags
      wr o (if cond f (op &&& 0xF) then 1 else 0) 1 rex
      pure e) (o.accessed .write 1) :=
    .then (fun _ => rfl) fun _ => .last (wr_makes o 1 _ rex) fun _ => .pure _
  refine (actsOf_after (modrmAdvance_eval d c) rfl).trans ?_
  exact hwork (fixupRip (pastRm d c) (rmOpnd d c)) _ _ _

lemma cmov_acts : actsOf (stepCmov op d) c =
    if cond c.flags (op &&& 0xF) then (rmAt d (pastRm d c) c).accessed .read d.opsize else [] := by
  have hread (o : Opnd) (r : Fin 16) (n : Nat) (rex : Bool) (e : Dec) : Makes (do
      let v ← rd o n rex
      setreg r v n
      pure e) (o.accessed .read n) :=
    .last (rd_makes o n rex) fun v => .then (fun _ => rfl) fun _ => .pure _
  refine (actsOf_after (modrmAdvance_eval d c) rfl).trans ?_
  refine (actsOf_after (x := rdFlags) rfl rfl).trans ?_
  refine (actsOf_ite _ _ _ _).trans ?_
  by_cases h : cond c.flags (op &&& 0xF) = true
  · refine (if_pos h).trans (Eq.trans ?_ (if_pos h).symm)
    exact hread (fixupRip (pastRm d c) (rmOpnd d c)) _ _ _ _ _
  · exact (if_neg h).trans (if_neg h).symm

lemma shld_acts : actsOf (stepShld op d) c =
    let i := shiftCount (pastRm d c) c (op = 0xA4 ∨ op = 0xAC) false
    let o := rmAt d i.2 c
    if (i.1 &&& countMask d.opsize).toNat = 0 then []
    else o.accessed .read d.opsize ++ o.accessed .write d.opsize := by
  have hwork (o : Opnd) (r : Fin 16) (left : Prop) [Decidable left] (cnt : BitVec 64) (n : Nat) (e : Dec) : Makes (do
      wrRip (decRip e)
      let k := (cnt &&& countMask n).toNat
      if k = 0 then pure e
      else
        let dst ← rd o n e.hasRex
        let src ← getreg r n
        let v := if left then (dst <<< k) ||| (src >>> backCount n k) else (dst >>> k) ||| (src <<< backCount n k)
        modFlags fun f => flagsLogic f v n
        wr o v n e.hasRex
        pure e) (if (cnt &&& countMask n).toNat = 0 then [] else o.accessed .read n ++ o.accessed .write n) :=
    .then (fun _ => rfl) fun _ => .ite (.pure _) <| .bind (rd_makes o n _) fun a => .then (fun _ => rfl) fun f =>
      .then (fun _ => rfl) fun _ => .last (wr_makes o n _ _) fun _ => .pure _
  by_cases hi : op = 0xA4 ∨ op = 0xAC
  · have hcount : shiftCount (pastRm d c) c (op = 0xA4 ∨ op = 0xAC) false =
        ((codeOf c (pastRm d c).p0 (pastRm d c).n).setWidth 64, (pastRm d c).skip 1) := if_pos (decide_eq_true hi)
    rw [hcount]
    refine (actsOf_after (modrm_eval d c) rfl).trans ?_
    refine (actsOf_ite (op = 0xA4 ∨ op = 0xAC) _ _ c).trans ?_
    refine (if_pos hi).trans ?_
    refine (actsOf_after (imm8_eval _ c) rfl).trans ?_
    exact hwork _ _ (op < 0xAC) _ _ _ _
  · have hcount : shiftCount (pastRm d c) c (op = 0xA4 ∨ op = 0xAC) false = (c.r rcx &&& 0xff, pastRm d c) :=
      if_neg (decide_eq_false hi ▸ Bool.false_ne_true)
    rw [hcount]
    refine (actsOf_after (modrm_eval d c) rfl).trans ?_
    refine (actsOf_ite (op = 0xA4 ∨ op = 0xAC) _ _ c).trans ?_
    refine (if_neg hi).trans ?_
    refine (actsOf_after (x := rdR rcx) rfl rfl).trans ?_
    exact hwork _ _ (op < 0xAC) _ _ _ _

lemma imul_acts : actsOf (stepImul d) c = (rmAt d (pastRm d c) c).accessed .read d.opsize := by
  have hwork (o : Opnd) (r : Fin 16) (n : Nat) (rex : Bool) (e : Dec) : Makes (do
      let a ← getreg r n
      let b ← rd o n rex
      setreg r (sext a n * sext b n) n
      modFlags fun f => flagsLogic f (sext a n * sext b n) n
      pure e) (o.accessed .read n) :=
    .then (fun _ => rfl) fun _ => .last (rd_makes o n rex) fun v => .then (fun _ => rfl) fun _ => .then (fun _ => rfl)
      fun _ => .pure _
  refine (actsOf_after (modrmAdvance_eval d c) rfl).trans ?_
  exact hwork (fixupRip (pastRm d c) (rmOpnd d c)) _ _ _ _ _

/-- The width of what `movzx` and `movsx` extend. -/
def movxSize : Nat := if op &&& 1 != 0 then 2 else 1

lemma movx_acts : actsOf (stepMovx op d) c = (rmAt d (pastRm d c) c).accessed .read (movxSize op) := by
  have hwork (o : Opnd) (r : Fin 16) (n k : Nat) (f : BitVec 64 → BitVec 64) (rex : Bool) (e : Dec) : Makes (do
      let v ← rd o k rex
      setreg r (f v) n
      pure e) (o.accessed .read k) :=
    .last (rd_makes o k rex) fun v => .then (fun _ => rfl) fun _ => .pure _
  refine (actsOf_after (modrmAdvance_eval d c) rfl).trans ?_
  exact hwork (fixupRip (pastRm d c) (rmOpnd d c)) _ _ (movxSize op) (fun v => if op &&& 8 != 0 then sext v _ else v) _ _ _

lemma jcc32_makes : Makes (stepJcc32 op d) [] := by
  have htail (b : Prop) [Decidable b] (v : BitVec 64) (e : Dec) :
      Makes (if b then wrRip v >>= fun _ => pure e else pure e) [] := by
    have h : Makes (if b then wrRip v >>= fun _ => pure e else pure e) (if b then [] else []) :=
      .ite (.then (fun _ => rfl) fun _ => .pure _) (.pure _)
    rwa [ite_self] at h
  exact .then (fun _ => rfl) fun _ => .then (fun _ => rfl) fun _ => .then (fun _ => rfl) fun f => htail _ _ _

end TwoByte

/-! ### By class -/

section ByClass

variable (op : BitVec 8) (d : Dec) (c : Cpu)

/-- An instruction that reads an operand and writes it back. -/
def updateActs (o : Opnd) (n : Nat) : List Act := o.accessed .read n ++ o.accessed .write n

/-- The count by which a shift by one of the opcodes `C0`, `C1` and `D0` to `D3` goes. -/
def shiftBy : BitVec 64 :=
  (shiftCount (pastRm d c) c (op = 0xC0 ∨ op = 0xC1) (op = 0xD0 ∨ op = 0xD1)).1 &&& countMask (shiftSize op d.opsize)

def shldBy : Nat := ((shiftCount (pastRm d c) c (op = 0xA4 ∨ op = 0xAC) false).1 &&& countMask d.opsize).toNat

/-- The accesses of the one-byte opcodes, by their class; `o` is the r/m operand. -/
def oneByteActs (o : Opnd) : OpClass → List Act
  | .aluRow =>
    let n := rowSize op d.opsize
    o.accessed .read n ++ if !rowToReg op && Alu.writes (rowAlu op) then o.accessed .write n else []
  | .aluEax | .testEax | .jcc8 | .nop | .cwde | .cdq | .movRegImm8 | .movRegImm | .jmp => []
  | .pushReg | .pushImm | .pushfq | .call => [pushAct c]
  | .popReg | .popfq | .ret | .retImm => [popAct c]
  | .movsxd => o.accessed .read 4
  | .imulImm => o.accessed .read d.opsize
  | .grp1 =>
    let n := if op = 0x80 then 1 else d.opsize
    o.accessed .read n ++ if Alu.writes (grp1Alu (rmExt d c)) then o.accessed .write n else []
  | .xchg => updateActs o d.opsize
  | .lea => if o.isReg then [.raise .leaRegister] else []
  | .popRm => popAct c :: o.accessed .write 8
  | .shift =>
    if shiftBy op d c = 0 then [] else if rmExt d c < 4 then [.raise .rotate] else updateActs o (shiftSize op d.opsize)
  | .movRmImm => o.accessed .write (if op = 0xC6 then 1 else d.opsize)
  | .leave => [.access .stack .read (c.r rbp) 8]
  | .grp3 =>
    let n := if op = 0xF6 then 1 else d.opsize
    o.accessed .read n ++ grp3Acts (rmExt d c) (rd o n d.hasRex c).1 o n
  | .grp5 =>
    let n := if op = 0xFE then 1 else d.opsize
    o.accessed .read n ++ grp5Acts (rmExt d c) o n c
  | .twoByte | .none => [.raise .unimplementedOpcode]

theorem stepOneByte_acts (k : OpClass) :
    actsOf (stepOneByte op d k) c = oneByteActs op d c (rmAt d (stepOneByte op d k c).1 c) k := by
  cases k with
  | aluRow =>
    refine (aluRow_acts op d c).trans ?_
    rw [stepOneByte, stepAluRow_eq]
    rfl
  | aluEax => exact aluEax_makes op d c
  | testEax => exact testEax_makes op d c
  | jcc8 => exact jcc8_makes op d c
  | nop => exact nop_makes d c
  | cwde => exact cwde_makes d c
  | cdq => exact cdq_makes d c
  | movRegImm8 => exact movRegImm8_makes op d c
  | movRegImm => exact movRegImm_makes op d c
  | jmp => exact jmp_makes op d c
  | pushReg => exact pushReg_acts op d c
  | pushImm => exact pushImm_acts op d c
  | pushfq => exact pushfq_acts d c
  | call => exact call_acts d c
  | popReg => exact popReg_acts op d c
  | popfq => exact popfq_acts d c
  | ret => exact ret_acts d c
  | retImm => exact retImm_acts d c
  | movsxd =>
    refine (movsxd_acts d c).trans ?_
    rw [stepOneByte, stepMovsxd_eq]
    rfl
  | imulImm =>
    refine (imulImm_acts op d c).trans ?_
    rw [stepOneByte, stepImulImm_eq]
    rfl
  | grp1 =>
    refine (grp1_acts op d c).trans ?_
    rw [stepOneByte, stepGrp1_eq]
    rfl
  | xchg =>
    refine (xchg_acts d c).trans ?_
    rw [stepOneByte, stepXchg_eq]
    rfl
  | lea =>
    refine (lea_acts d c).trans ?_
    rw [stepOneByte, stepLea_eq]
    rfl
  | popRm =>
    refine (popRm_acts d c).trans ?_
    rw [stepOneByte, stepPopRm_eq]
    rfl
  | shift =>
    refine (shift_acts op d c).trans ?_
    rw [stepOneByte, stepShift_eq]
    rfl
  | movRmImm =>
    refine (movRmImm_acts op d c).trans ?_
    have hend : (stepMovRmImm op d c).1 = movRmImmEnd op d c := by
      rw [stepMovRmImm_eq]
      exact apply_ite Prod.snd (op = 0xC6) _ _
    rw [stepOneByte, hend]
    rfl
  | leave => exact leave_acts d c
  | grp3 =>
    refine (grp3_acts op d c).trans ?_
    simp only [rd_value_rip]
    rw [stepOneByte, stepGrp3_eq]
    rfl
  | grp5 =>
    refine (grp5_acts op d c).trans ?_
    rw [stepOneByte, stepGrp5_eq]
    rfl
  | twoByte => rfl
  | none => rfl

/-- The accesses of the two-byte opcodes that are not SSE. -/
def twoByteActs (o : Opnd) : TwoClass → List Act
  | .nop | .jcc => []
  | .setcc => o.accessed .write 1
  | .cmov => if cond c.flags (op &&& 0xF) then o.accessed .read d.opsize else []
  | .shld => if shldBy op d c = 0 then [] else updateActs o d.opsize
  | .imul => o.accessed .read d.opsize
  | .movx => o.accessed .read (movxSize op)
  | .none => [.raise .unimplemented0F]

lemma twoCase_acts (k : TwoClass) : actsOf (twoCase op d k) c = twoByteActs op d c (rmAt d (twoCase op d k c).1 c) k := by
  cases k with
  | nop =>
    refine (actsOf_after (modrmAdvance_eval d c) rfl).trans ?_
    rfl
  | jcc => exact jcc32_makes op d c
  | setcc =>
    refine (setcc_acts op d c).trans ?_
    rw [twoCase, stepSetcc_eq]
    rfl
  | cmov =>
    refine (cmov_acts op d c).trans ?_
    rw [twoCase, stepCmov_eq]
    rfl
  | shld =>
    refine (shld_acts op d c).trans ?_
    rw [twoCase, stepShld_eq]
    rfl
  | imul =>
    refine (imul_acts d c).trans ?_
    rw [twoCase, stepImul_eq]
    rfl
  | movx =>
    refine (movx_acts op d c).trans ?_
    rw [twoCase, stepMovx_eq]
    rfl
  | none => rfl

theorem stepTwoByteGp_acts :
    actsOf (stepTwoByteGp op d) c = twoByteActs op d c (rmAt d (stepTwoByteGp op d c).1 c) (twoClass op) :=
  twoCase_acts op d c (twoClass op)

/-! ### What is accessed at all -/

/-- Nothing but the operand and the stack is accessed. -/
def AllOf (o : Opnd) (xs : List Act) : Prop := ∀ act ∈ xs, act.Of o

variable {o : Opnd} {xs ys : List Act}

lemma AllOf.nil : AllOf o [] := fun _ h => nomatch h

lemma AllOf.append (hx : AllOf o xs) (hy : AllOf o ys) : AllOf o (xs ++ ys) := by
  intro act h
  exact (List.mem_append.mp h).elim (hx act) (hy act)

lemma AllOf.ite {b : Prop} [Decidable b] (hx : AllOf o xs) (hy : AllOf o ys) : AllOf o (if b then xs else ys) := by
  split
  · exact hx
  · exact hy

lemma AllOf.accessed (x : Access) (n : Nat) : AllOf o (o.accessed x n) := fun _ h => .inl ⟨x, n, h⟩

lemma AllOf.stack (x : Access) (a : BitVec 64) (n : Nat) : AllOf o [.access .stack x a n] := by
  intro act h
  exact .inr (.inl ⟨x, a, n, List.mem_singleton.mp h⟩)

lemma AllOf.raise (f : Fault) : AllOf o [.raise f] := by
  intro act h
  exact .inr (.inr ⟨f, List.mem_singleton.mp h⟩)

lemma AllOf.update (n : Nat) : AllOf o (updateActs o n) := .append (.accessed _ n) (.accessed _ n)

lemma grp3Acts_of (ext : BitVec 8) (a : BitVec 64) (n : Nat) : AllOf o (grp3Acts ext a o n) := by
  unfold grp3Acts
  split
  · exact .accessed _ n
  · exact .accessed _ n
  · exact .ite (.raise _) .nil
  · exact .ite (.raise _) .nil
  · exact .nil

lemma grp5Acts_of (ext : BitVec 8) (n : Nat) : AllOf o (grp5Acts ext o n c) := by
  unfold grp5Acts
  split
  · exact .accessed _ n
  · exact .accessed _ n
  · exact .append (.stack _ _ _) (.accessed _ 8)
  · exact .accessed _ 8
  · exact .append (.accessed _ 8) (.stack _ _ _)
  · exact .raise _

lemma oneByteActs_of (k : OpClass) : AllOf o (oneByteActs op d c o k) := by
  cases k with
  | aluRow | grp1 => exact .append (.accessed _ _) (.ite (.accessed _ _) .nil)
  | aluEax | testEax | jcc8 | nop | cwde | cdq | movRegImm8 | movRegImm | jmp => exact .nil
  | pushReg | pushImm | pushfq | call | popReg | popfq | ret | retImm | leave => exact .stack _ _ _
  | movsxd | imulImm | movRmImm => exact .accessed _ _
  | xchg => exact .update _
  | lea => exact .ite (.raise _) .nil
  | popRm => exact .append (.stack _ _ _) (.accessed _ 8)
  | shift => exact .ite .nil (.ite (.raise _) (.update _))
  | grp3 => exact .append (.accessed _ _) (grp3Acts_of _ _ _)
  | grp5 => exact .append (.accessed _ _) (grp5Acts_of c _ _)
  | twoByte | none => exact .raise _

lemma twoByteActs_of (k : TwoClass) : AllOf o (twoByteActs op d c o k) := by
  cases k with
  | nop | jcc => exact .nil
  | setcc | imul | movx => exact .accessed _ _
  | cmov => exact .ite (.accessed _ _) .nil
  | shld => exact .ite .nil (.update _)
  | none => exact .raise _

/-- An access to the operand is one to where the operand is. -/
lemma operand_accessed {x : Access} {a : BitVec 64} {n : Nat} (h : Act.Of o (.access .operand x a n)) :
    .access .operand x a n ∈ o.accessed x n := by
  rcases h with ⟨y, m, h⟩ | ⟨_, _, _, h⟩ | ⟨_, h⟩
  · cases o with
    | reg i => cases h
    | mem addr seg | ripRel addr seg =>
      cases List.mem_singleton.mp h
      exact h
  · cases h
  · cases h

end ByClass

end Rashid.Proofs
