import Rashid.Stack
import Rashid.Proofs.GuestView
import Rashid.Proofs.RmOperand

/-!
# Stack instructions

The interpreter pushes and pops 64 bits whatever the operand size, takes the address of a popped
operand before the stack pointer has moved, and reads where an indirect call goes after the
return address has been pushed. Elsewhere its stack instructions do what the manual says.
-/

namespace Rashid.Proofs

/-! ### One access to the stack -/

section Access

variable {c : Cpu} {v : BitVec 64}

lemma st_same {a : BitVec 64} {n : Nat} (h : (st a v n c).2.fault = none) :
    SameGuest (st a v n c).2 { c with mem := storeLE c.mem a v n } := by
  cases ho : accessOk c.as a (BitVec.ofNat 64 n) rsdProtW with
  | true =>
    rw [st_allowed_eval v n c ho]
    rfl
  | false =>
    rw [st_denied v n c ho] at h
    exact absurd h (memfault_fault _ _ c)

lemma push_same (h : (push v c).2.fault = none) : SameGuest (push v c).2 (c.pushed v 8) :=
  st_same (c := { c with r := Function.update c.r rsp (c.r rsp - 8) }) h

lemma pop_of_fault (h : (pop c).2.fault = none) : pop c = (c.top 8, c.popped 8) := by
  have hld : (ld (c.r rsp) 8 c).2.fault = none := h
  cases ho : accessOk c.as (c.r rsp) (BitVec.ofNat 64 8) rsdProtR with
  | true =>
    have heval : ld (c.r rsp) 8 c = (c.top 8, c) := ld_allowed_eval 8 c ho
    show ((ld (c.r rsp) 8 c).1, (wrR rsp (c.r rsp + 8) (ld (c.r rsp) 8 c).2).2) = _
    rw [heval]
    rfl
  | false =>
    rw [ld_denied 8 c ho] at hld
    exact absurd hld (memfault_fault _ _ c)

lemma pop_bind {β : Type} {f : BitVec 64 → M β} [∀ a, IsBuilt Prim (f a)] (h : ((pop >>= f) c).2.fault = none) :
    (pop >>= f) c = f (c.top 8) (c.popped 8) :=
  Prog.bind_eval (pop_of_fault (fault_bind h))

/-- At 64 bits an operand has no width to be cut to. -/
lemma opndVal_holds (o : Opnd) (rex : Bool) (c : Cpu) : opndVal o 8 rex c = o.holds 8 c := by
  cases o <;> rfl

lemma wr_same {o : Opnd} {rex : Bool} (h : (wr o v 8 rex c).2.fault = none) :
    SameGuest (wr o v 8 rex c).2 (o.written v 8 c) := by
  rw [wr_of_fault o v 8 rex c h]
  cases o <;> rfl

end Access

/-! ### What the interpreter does -/

/-- The manual's effect with 64 bits for every width, and with the r/m operand `o` found before
anything has happened; the target of an indirect call is read behind the push. -/
def stackDone (e : Encoding) (p : Code) (o : Opnd) (i : StackInsn) (c : Cpu) : Cpu :=
  match i with
  | .pushReg => c.pushed (c.r e.opReg) 8
  | .pushImm => c.pushed (if e.op = 0x68 then p.i32 e.tail else p.i8 e.tail) 8
  | .pushRm => c.pushed (o.holds 8 c) 8
  | .popReg => (Opnd.reg e.opReg).written (c.top 8) 8 (c.popped 8)
  | .popRm => o.written (c.top 8) 8 (c.popped 8)
  | .leave =>
    let c := { c with r := Function.update c.r rsp (c.r rbp) }
    (Opnd.reg rbp).written (c.top 8) 8 (c.popped 8)
  | .call => { c.pushed c.rip 8 with rip := c.rip + p.i32 e.tail }
  | .callRm => { c.pushed c.rip 8 with rip := o.holds 8 (c.pushed c.rip 8) }
  | .ret => { c.popped 8 with rip := c.top 8 }
  | .retImm =>
    let n := (p (e.tail + 1) ++ p e.tail : BitVec 16).setWidth 64
    { c with r := Function.update c.r rsp (c.r rsp + 8 + n), rip := c.top 8 }

/-- The case of the switch that executes it. -/
def classOf : StackInsn → OpClass
  | .pushReg => .pushReg
  | .pushImm => .pushImm
  | .popReg => .popReg
  | .popRm => .popRm
  | .leave => .leave
  | .call => .call
  | .ret => .ret
  | .retImm => .retImm
  | .pushRm | .callRm => .grp5

lemma stackInsn_class {e : Encoding} {p : Code} {i : StackInsn} (h : e.stackInsn p = some i) :
    e.escaped = false ∧ opClass e.op = classOf i ∧ (i = .pushRm → e.op = 0xFF ∧ e.ext p = 6) ∧
      (i = .callRm → e.op = 0xFF ∧ e.ext p = 2) := by
  have hpush : ∀ op : BitVec 8, 0x50 ≤ op ∧ op ≤ 0x57 → opClass op = .pushReg := by
    simp only [opClass_eq]
    decide
  have hpop : ∀ op : BitVec 8, 0x58 ≤ op ∧ op ≤ 0x5F → opClass op = .popReg := by
    simp only [opClass_eq]
    decide
  have himm : ∀ op : BitVec 8, op = 0x68 ∨ op = 0x6A → opClass op = .pushImm := by
    simp only [opClass_eq]
    decide
  unfold Encoding.stackInsn at h
  cases hesc : e.escaped with
  | true =>
    rw [hesc] at h
    cases h
  | false =>
    refine ⟨rfl, ?_⟩
    rw [hesc, if_neg Bool.false_ne_true] at h
    by_cases h50 : 0x50 ≤ e.op ∧ e.op ≤ 0x57
    · rw [if_pos h50] at h
      cases h
      exact ⟨hpush e.op h50, nofun, nofun⟩
    rw [if_neg h50] at h
    by_cases h58 : 0x58 ≤ e.op ∧ e.op ≤ 0x5F
    · rw [if_pos h58] at h
      cases h
      exact ⟨hpop e.op h58, nofun, nofun⟩
    rw [if_neg h58] at h
    by_cases h68 : e.op = 0x68 ∨ e.op = 0x6A
    · rw [if_pos h68] at h
      cases h
      exact ⟨himm e.op h68, nofun, nofun⟩
    rw [if_neg h68] at h
    -- what is left are single opcodes, two of them groups
    repeat' split at h
    all_goals cases h
    all_goals refine ⟨?_, ?_, ?_⟩
    all_goals first
      | (intro h; cases h; done)
      | exact fun _ => ⟨‹_›, ‹_›⟩
      | (simp only [*]; decide)

/-! ### One step -/

section Executed

variable {fp : Fp} {rt : Runtime} {k : Kernel} {c : Cpu}

lemma begun_same (next : BitVec 64) (e : Encoding) (p : Code) (o : Opnd) (i : StackInsn) :
    SameGuest (stackDone e p o i (begun c next)) (stackDone e p o i { c with rip := next }) := by
  cases i
  case popRm | callRm => cases o <;> rfl
  all_goals rfl

lemma grp5_done {d : Dec} {o : Opnd} {ext : BitVec 8} {sz : Nat} {c : Cpu} (e : Encoding) (p : Code)
    (hrip : decRip d = c.rip)
    (h : ((do
      let a ← rd o sz d.hasRex
      grp5Exec ext a sz o d : M Unit) c).2.fault = none) :
    (ext = 6 → SameGuest ((do
      let a ← rd o sz d.hasRex
      grp5Exec ext a sz o d : M Unit) c).2 (stackDone e p o .pushRm c)) ∧
    (ext = 2 → SameGuest ((do
      let a ← rd o sz d.hasRex
      grp5Exec ext a sz o d : M Unit) c).2 (stackDone e p o .callRm c)) := by
  have heval := rd_bind o sz d.hasRex h
  rw [heval] at h ⊢
  constructor
  · rintro rfl
    have hrd : grp5Exec 6 (opndVal o sz d.hasRex c) sz o d c = push (opndVal o 8 d.hasRex c) c :=
      rd_bind o 8 d.hasRex h
    rw [hrd] at h ⊢
    rw [opndVal_holds] at h ⊢
    exact push_same h
  · rintro rfl
    have hexec : grp5Exec 2 (opndVal o sz d.hasRex c) sz o d c =
        (push c.rip >>= fun _ => rd o 8 d.hasRex >>= fun t => wrRip t) c := by
      rw [← hrip]
      rfl
    rw [hexec] at h ⊢
    have hpush : SameGuest (push c.rip c).2 (c.pushed c.rip 8) := push_same (fault_bind h)
    have hsame : SameGuest ((rd o 8 d.hasRex >>= fun t => wrRip t) (push c.rip c).2).2
        ((rd o 8 d.hasRex >>= fun t => wrRip t) (c.pushed c.rip 8)).2 := (built_same IsBuilt.built hpush).2
    refine hsame.trans ?_
    have hf : ((rd o 8 d.hasRex >>= fun t => wrRip t) (c.pushed c.rip 8)).2.fault = none := by
      rw [← h]
      exact (congrArg Cpu.fault hsame).symm
    rw [rd_bind o 8 d.hasRex hf, opndVal_holds]
    rfl

lemma SameGuest.withRip {c c' : Cpu} (h : SameGuest c c') (v : BitVec 64) :
    SameGuest { c with rip := v } { c' with rip := v } := by
  have h' : view c = view c' := h
  exact congrArg (fun x : Cpu => { x with rip := v }) h'

lemma after_begun {d : Dec} (hend : decRip d = insnEnd c) (body : M Unit) :
    (after d body (noted c)).2 = (body (begun c (insnEnd c))).2 := by
  rw [after_snd, hend]
  rfl

/-- A stack instruction that does not fault does what the interpreter does. -/
lemma step_stack (hcb : c.rip ≠ callbackMagic) (hret : c.rip ≠ returnMagic)
    (hstub : rsdStubIndex c.stubs c.rip = none) {i : StackInsn}
    (hi : (encodingAt (codeOf c c.rip)).stackInsn (codeOf c c.rip) = some i)
    (hf : (step fp rt k c).2.fault = none) :
    SameGuest (step fp rt k c).2
      (stackDone (encodingAt (codeOf c c.rip)) (codeOf c c.rip) (rmOperand c) i { c with rip := insnEnd c }) := by
  obtain ⟨hx, hlock⟩ := step_fetched hcb hret hstub hf
  obtain ⟨hesc, hclass, h6, h2⟩ := stackInsn_class hi
  obtain ⟨d, hd, hend, hstep⟩ := @step_oneByte fp rt k c hcb hret hstub hx hesc
    (hclass ▸ by cases i <;> decide) hlock
  rw [hstep] at hf ⊢
  rw [hclass] at hf hend ⊢
  have hcode : codeOf (noted c) d.p0 = codeOf c c.rip := by
    rw [hd.p0]
    rfl
  have hext : rmExt d (noted c) = (encodingAt (codeOf c c.rip)).ext (codeOf c c.rip) := by
    rw [rmExt, hcode, hd.n]
    rfl
  refine SameGuest.trans ?_ (begun_same (insnEnd c) (encodingAt (codeOf c c.rip)) (codeOf c c.rip) (rmOperand c) i)
  cases i with
  | pushReg =>
    have hp : decRip d = insnEnd c := hend
    simp only [classOf, stepOneByte, stepPushReg_eq, after_begun hp, hd.rex] at hf ⊢
    exact push_same hf
  | pushImm =>
    simp only [classOf, stepOneByte, stepPushImm_eq] at hf hend ⊢
    by_cases h68 : (encodingAt (codeOf c c.rip)).op = 0x68
    · simp only [if_pos h68, after_fst] at hf hend ⊢
      rw [after_begun hend, hcode, hd.n] at hf ⊢
      simp only [stackDone, if_pos h68]
      exact push_same hf
    · simp only [if_neg h68, after_fst] at hf hend ⊢
      rw [after_begun hend, hcode, hd.n] at hf ⊢
      simp only [stackDone, if_neg h68]
      exact push_same hf
  | popReg =>
    have hp : decRip d = insnEnd c := hend
    simp only [classOf, stepOneByte, stepPopReg_eq, after_begun hp, hd.rex] at hf ⊢
    rw [pop_bind hf]
    rfl
  | popRm =>
    simp only [classOf, stepOneByte, stepPopRm_eq, after_fst] at hf hend ⊢
    rw [after_begun hend, rmAt_operand hd hend] at hf ⊢
    have hpop := pop_bind (c := begun c (insnEnd c)) (f := fun v => wr (rmOperand c) v 8 d.hasRex) hf
    rw [hpop] at hf ⊢
    exact wr_same hf
  | leave =>
    have hp : decRip d = insnEnd c := hend
    simp only [classOf, stepOneByte, stepLeave_eq, after_begun hp] at hf ⊢
    have hpop := pop_bind (c := { begun c (insnEnd c) with r := Function.update c.r rsp (c.r rbp) })
      (f := fun v => wrR rbp v) hf
    exact congrArg (fun x => view x.2) hpop
  | call =>
    have hp : decRip (d.skip 4) = insnEnd c := hend
    have heval : (stepCall d (noted c)).2 = { (push (insnEnd c) (begun c (insnEnd c))).2 with
        rip := insnEnd c + (codeOf c c.rip).i32 (encodingAt (codeOf c c.rip)).tail } := by
      rw [← hp, ← hd.n, ← hcode]
      rfl
    have hcall : (stepCall d (noted c)).2.fault = none := hf
    rw [heval] at hcall
    have hpush : (push (insnEnd c) (begun c (insnEnd c))).2.fault = none := hcall
    have hsame := (push_same hpush).withRip
      (insnEnd c + (codeOf c c.rip).i32 (encodingAt (codeOf c c.rip)).tail)
    rw [← heval] at hsame
    exact hsame
  | ret =>
    have hpop : pop (noted c) = ((noted c).top 8, (noted c).popped 8) := pop_of_fault hf
    exact congrArg (fun x => view { x.2 with rip := x.1 }) hpop
  | retImm =>
    have hpop : pop (noted c) = ((noted c).top 8, (noted c).popped 8) := pop_of_fault hf
    have heval : (stepRetImm d (noted c)).2 = { (pop (noted c)).2 with
        r := Function.update (pop (noted c)).2.r rsp ((pop (noted c)).2.r rsp +
          (codeOf c c.rip ((encodingAt (codeOf c c.rip)).tail + 1) ++
            codeOf c c.rip (encodingAt (codeOf c c.rip)).tail : BitVec 16).setWidth 64)
        rip := (pop (noted c)).1 } := by
      rw [← hd.n, ← hcode]
      rfl
    refine (congrArg view heval).trans ?_
    rw [hpop]
    simp only [Cpu.popped, Function.update_self, Function.update_idem]
    rfl
  | pushRm =>
    simp only [classOf, stepOneByte, stepGrp5_eq, after_fst] at hf hend ⊢
    rw [after_begun hend, rmAt_operand hd hend, hext] at hf ⊢
    exact (grp5_done (d := pastRm d (noted c)) _ _ hend hf).1 (h6 rfl).2
  | callRm =>
    simp only [classOf, stepOneByte, stepGrp5_eq, after_fst] at hf hend ⊢
    rw [after_begun hend, rmAt_operand hd hend, hext] at hf ⊢
    exact (grp5_done (d := pastRm d (noted c)) _ _ hend hf).2 (h2 rfl).2

end Executed

lemma SameGuest.mem_eq {c c' : Cpu} (h : SameGuest c c') : c.mem = c'.mem := by
  have h' : (view c).mem = (view c').mem := congrArg Cpu.mem h
  exact h'

lemma SameGuest.rip_eq {c c' : Cpu} (h : SameGuest c c') : c.rip = c'.rip := by
  have h' : (view c).rip = (view c').rip := congrArg Cpu.rip h
  exact h'

lemma same_iff {c : Cpu} {r r' : Fin 16 → BitVec 64} {m m' : Mem} {ip ip' : BitVec 64} :
    SameGuest { c with r := r, mem := m, rip := ip } { c with r := r', mem := m', rip := ip' } ↔
      r = r' ∧ m = m' ∧ ip = ip' := by
  constructor
  · intro h
    exact ⟨h.r_eq, h.mem_eq, h.rip_eq⟩
  · rintro ⟨rfl, rfl, rfl⟩
    rfl

section Compared

variable (e : Encoding) (p : Code) (c : Cpu)

lemma stackBytes_cases : e.opsize = 2 ∧ e.stackBytes = 2 ∨ e.opsize ≠ 2 ∧ e.stackBytes = 8 := by
  unfold Encoding.stackBytes
  by_cases h : e.opsize = 2
  · exact .inl ⟨h, if_pos h⟩
  · exact .inr ⟨h, if_neg h⟩

lemma storeLE_inj {m : Mem} {a v w : BitVec 64} : storeLE m a v 8 = storeLE m a w 8 ↔ v = w := by
  constructor
  · intro h
    rw [← loadLE_storeLE_word m a v, h, loadLE_storeLE_word]
  · intro h
    rw [h]

lemma pushed_same (v w : BitVec 64) :
    SameGuest (c.pushed v 8) (c.pushed w e.stackBytes) ↔ e.opsize ≠ 2 ∧ v = w := by
  rcases stackBytes_cases e with ⟨h, hn⟩ | ⟨h, hn⟩
  · refine iff_of_false (fun hsame => ?_) fun h' => h'.1 h
    have hrsp := congrFun hsame.r_eq rsp
    rw [hn] at hrsp
    simp only [Cpu.pushed, Function.update_self] at hrsp
    have h82 : (8 : BitVec 64) = 2 := (BitVec.sub_right_inj _).mp hrsp
    exact absurd h82 (by decide)
  · rw [hn]
    refine (same_iff (c := c)).trans ?_
    rw [storeLE_inj]
    tauto

end Compared

/-- A word taken off the stack into its pointer leaves the upper part of the pointer as it is. -/
def wordIntoRsp (i : Fin 16) (c : Cpu) : Prop := i = rsp ∧ c.top 8 >>> 16 = (c.r rsp + 2) >>> 16

lemma mergeSz_word (old v : BitVec 64) (i : Nat) :
    (mergeSz old v 2).getLsbD i = if i < 16 then v.getLsbD i else old.getLsbD i := by
  have hffff (i : Nat) : (0xffff : BitVec 64).getLsbD i = decide (i < 16) := getLsbD_ones 16 i (by omega) _ rfl
  simp only [mergeSz, BitVec.getLsbD_or, BitVec.getLsbD_and, BitVec.getLsbD_not, hffff]
  by_cases h : i < 16
  · simp [h]
  · by_cases h64 : i < 64
    · simp [h, h64]
    · simp [h, BitVec.getLsbD_of_ge _ _ (Nat.le_of_not_lt h64)]

lemma popped_word (c : Cpu) :
    c.top 8 = mergeSz (c.r rsp + 2) (c.top 2) 2 ↔ c.top 8 >>> 16 = (c.r rsp + 2) >>> 16 := by
  have hlow {i : Nat} (h : i < 16) : (c.top 2).getLsbD i = (c.top 8).getLsbD i := by
    rw [Cpu.top, Cpu.top, getLsbD_loadLE _ _ _ _ (by omega), getLsbD_loadLE _ _ _ _ (by omega),
      decide_eq_true (show i < 8 * 2 by omega), decide_eq_true (show i < 8 * 8 by omega)]
  constructor
  · intro h
    apply BitVec.eq_of_getLsbD_eq
    intro i hi
    rw [h, BitVec.getLsbD_ushiftRight, BitVec.getLsbD_ushiftRight, mergeSz_word, if_neg (by omega)]
  · intro h
    apply BitVec.eq_of_getLsbD_eq
    intro i hi
    rw [mergeSz_word]
    by_cases h16 : i < 16
    · rw [if_pos h16, hlow h16]
    · have hbit := congrArg (fun v => v.getLsbD (i - 16)) h
      simp only [BitVec.getLsbD_ushiftRight, show 16 + (i - 16) = i by omega] at hbit
      rw [if_neg h16, hbit]

lemma popped_same (e : Encoding) (c : Cpu) (i : Fin 16) :
    SameGuest ((Opnd.reg i).written (c.top 8) 8 (c.popped 8))
        ((Opnd.reg i).written (c.top e.stackBytes) e.stackBytes (c.popped e.stackBytes)) ↔
      e.opsize ≠ 2 ∨ wordIntoRsp i c := by
  rcases stackBytes_cases e with ⟨h, hn⟩ | ⟨h, hn⟩
  · rw [hn, or_iff_right (not_not.mpr h)]
    refine (same_iff (c := c)).trans ?_
    rw [and_iff_left ⟨rfl, rfl⟩, wordIntoRsp, ← popped_word]
    constructor
    · intro heq
      have hrsp := congrFun heq rsp
      by_cases hi : i = rsp
      · subst hi
        refine ⟨rfl, ?_⟩
        simp only [Cpu.popped, Function.update_self] at hrsp
        exact hrsp
      · simp only [Cpu.popped, Function.update_of_ne (Ne.symm hi), Function.update_self] at hrsp
        have h82 : (8 : BitVec 64) = 2 := (BitVec.add_right_inj _).mp hrsp
        exact absurd h82 (by decide)
    · rintro ⟨rfl, heq⟩
      simp only [Cpu.popped, Function.update_self, Function.update_idem]
      rw [← show c.top 8 = mergeSz (c.r rsp + BitVec.ofNat 64 2) (c.top 2) 2 from heq]
      rfl
  · rw [hn]
    exact iff_of_true (SameGuest.refl _) (.inl h)

/-! ### Where the operand is -/

lemma regNo_rsp : ∀ (b : BitVec 8) (x : Bool), regNo b x = rsp → b &&& 7 = 4 := by decide

section Place

variable (e : Encoding) (p : Code) (r : Fin 16 → BitVec 64) (next : BitVec 64)

lemma address64_popped (k : BitVec 64) : e.address64 p (Function.update r rsp (r rsp + k)) next =
    e.address64 p r next + if e.rspBase p then k else 0 := by
  have hbase : e.baseValue p (Function.update r rsp (r rsp + k)) next =
      e.baseValue p r next + if e.rspBase p then k else 0 := by
    simp only [Encoding.baseValue, Encoding.rspBase, Bool.and_eq_true, beq_iff_eq]
    by_cases hs : e.hasSib p
    · simp only [hs, if_true, true_and]
      by_cases hb : regNo (p (e.tail + 1)) (rexB e.rex) = rsp
      · have h5 : ¬ (p (e.tail + 1) &&& 7 = 5 ∧ p e.tail >>> 6 = 0) := by
          rw [regNo_rsp _ _ hb]
          exact fun h => absurd h.1 (by decide)
        rw [if_neg h5, if_neg h5, if_pos hb, hb, Function.update_self]
      · rw [if_neg hb, Function.update_of_ne hb]
        exact (BitVec.add_zero _).symm
    · have hr : rmField (p e.tail) e.rex ≠ rsp := fun h => hs (beq_iff_eq.mpr (regNo_rsp _ _ h))
      simp only [hs, if_false, false_and, Function.update_of_ne hr, Bool.false_eq_true]
      exact (BitVec.add_zero _).symm
  have hindex : e.indexValue p (Function.update r rsp (r rsp + k)) = e.indexValue p r := by
    simp only [Encoding.indexValue]
    by_cases h : regNo (p (e.tail + 1) >>> 3) (rexX e.rex) = rsp
    · rw [if_pos h, if_pos h]
    · rw [if_neg h, if_neg h, Function.update_of_ne h]
  rw [Encoding.address64, hbase, hindex, Encoding.address64]
  ac_rfl

end Place

/-- The operand before the stack pointer moves, found without regard to the address-size prefix and with it. -/
def uncutPlace (e : Encoding) (p : Code) (c : Cpu) : BitVec 64 :=
  e.address64 p c.r (nextRip p c.rip) + segmentBase e.prefixes c.fsBase c.gsBase

def cutPlace (e : Encoding) (p : Code) (c : Cpu) : BitVec 64 :=
  e.effectiveAddress p c.r (nextRip p c.rip) + segmentBase e.prefixes c.fsBase c.gsBase

/-- The place of a popped operand, which the stack pointer may be the base of. -/
def poppedPlace (e : Encoding) (p : Code) (c : Cpu) : BitVec 64 :=
  e.cutAddress (e.address64 p c.r (nextRip p c.rip) + if e.rspBase p then 8 else 0) +
    segmentBase e.prefixes c.fsBase c.gsBase

lemma cutAddress_low (e : Encoding) (a : BitVec 64) : (e.cutAddress a).toNat % 2 ^ 32 = a.toNat % 2 ^ 32 := by
  unfold Encoding.cutAddress
  by_cases h : (0x67 : BitVec 8) ∈ e.prefixes
  · rw [if_pos h, BitVec.toNat_setWidth, BitVec.toNat_setWidth]
    omega
  · rw [if_neg h]

lemma cutAddress_self (e : Encoding) (a : BitVec 64) :
    e.cutAddress a = a ↔ ((0x67 : BitVec 8) ∈ e.prefixes → a.toNat < 2 ^ 32) := by
  unfold Encoding.cutAddress
  by_cases h : (0x67 : BitVec 8) ∈ e.prefixes
  · rw [if_pos h, forall_prop_of_true h, ← BitVec.toNat_inj, BitVec.toNat_setWidth, BitVec.toNat_setWidth]
    have hlt := a.isLt
    omega
  · rw [if_neg h]
    exact iff_of_true rfl fun h' => absurd h' h

/-- How far the two places are apart, in the low 32 bits. -/
lemma poppedPlace_low (e : Encoding) (p : Code) (c : Cpu) :
    (poppedPlace e p c - uncutPlace e p c).toNat % 2 ^ 32 = if e.rspBase p then 8 else 0 := by
  have hsub : poppedPlace e p c - uncutPlace e p c =
      e.cutAddress (e.address64 p c.r (nextRip p c.rip) + if e.rspBase p then 8 else 0) -
        e.address64 p c.r (nextRip p c.rip) := by
    unfold poppedPlace uncutPlace
    generalize segmentBase e.prefixes c.fsBase c.gsBase = s
    apply BitVec.eq_of_toNat_eq
    simp only [BitVec.toNat_sub, BitVec.toNat_add]
    omega
  have hlow := cutAddress_low e (e.address64 p c.r (nextRip p c.rip) + if e.rspBase p then 8 else 0)
  have hmove : (if e.rspBase p then 8 else 0 : BitVec 64).toNat = if e.rspBase p then 8 else 0 := by
    cases e.rspBase p <;> rfl
  rw [hsub, BitVec.toNat_sub]
  rw [BitVec.toNat_add, hmove] at hlow
  have hk : (if e.rspBase p then 8 else 0) ≤ 8 := by split <;> omega
  generalize (if e.rspBase p then 8 else 0) = k at hlow hk ⊢
  generalize e.cutAddress (e.address64 p c.r (nextRip p c.rip) + if e.rspBase p then 8 else 0) = a at hlow ⊢
  omega

/-- The two places are the same, or have no byte in common. -/
lemma poppedPlace_apart (e : Encoding) (p : Code) (c : Cpu) (h : uncutPlace e p c ≠ poppedPlace e p c) (x : BitVec 64)
    (hx : inWindow (uncutPlace e p c) 8 x) : ¬ inWindow (poppedPlace e p c) 8 x := by
  have hlow := poppedPlace_low e p c
  have hne : (poppedPlace e p c - uncutPlace e p c).toNat ≠ 0 := by
    intro h0
    apply h
    apply BitVec.eq_of_toNat_eq
    rw [BitVec.toNat_sub] at h0
    omega
  intro hx'
  unfold inWindow at hx hx'
  rw [BitVec.toNat_sub] at hx hx' hlow hne
  split at hlow <;> omega

/-- They are the same unless the base is the stack pointer or bits are cut off. -/
lemma poppedPlace_eq (e : Encoding) (p : Code) (c : Cpu) : uncutPlace e p c = poppedPlace e p c ↔
    e.rspBase p = false ∧
      ((0x67 : BitVec 8) ∈ e.prefixes → (e.address64 p c.r (nextRip p c.rip)).toNat < 2 ^ 32) := by
  have hlow := poppedPlace_low e p c
  rw [← cutAddress_self]
  cases hb : e.rspBase p with
  | false =>
    have h0 : poppedPlace e p c = e.cutAddress (e.address64 p c.r (nextRip p c.rip)) +
        segmentBase e.prefixes c.fsBase c.gsBase := by
      rw [poppedPlace, hb]
      exact congrArg (fun a => e.cutAddress a + _) (BitVec.add_zero _)
    rw [h0, uncutPlace, BitVec.add_left_inj, eq_comm, and_iff_right rfl]
  | true =>
    refine iff_of_false (fun h => ?_) fun h => absurd h.1 (by decide)
    rw [hb, if_pos rfl, h, BitVec.sub_self] at hlow
    exact absurd hlow (by decide)

/-! ### When the two agree -/

/-- The condition, in the state before the instruction. -/
def StackAgrees (e : Encoding) (p : Code) (c : Cpu) : StackInsn → Prop
  | .call | .ret | .retImm => True
  | .pushReg | .pushImm | .leave => e.opsize ≠ 2
  | .popReg => e.opsize ≠ 2 ∨ wordIntoRsp e.opReg c
  | .pushRm => e.opsize ≠ 2 ∧
      (e.rmIsReg p = false → loadLE c.mem (uncutPlace e p c) 8 = loadLE c.mem (cutPlace e p c) 8)
  | .callRm =>
    if e.rmIsReg p then rmField (p e.tail) e.rex ≠ rsp
    -- a byte of the operand is read as it was, or as the return address has it
    else ∀ j < 8, c.mem (cutPlace e p c + BitVec.ofNat 64 j) =
      let x := uncutPlace e p c + BitVec.ofNat 64 j
      let slot := c.r rsp - 8
      if inWindow slot 8 x then (nextRip p c.rip >>> (8 * (x - slot).toNat)).setWidth 8 else c.mem x
  | .popRm =>
    if e.rmIsReg p then e.opsize ≠ 2 ∨ wordIntoRsp (rmField (p e.tail) e.rex) c
    else e.opsize ≠ 2 ∧
      (e.rspBase p = false ∧
          ((0x67 : BitVec 8) ∈ e.prefixes → (e.address64 p c.r (nextRip p c.rip)).toNat < 2 ^ 32) ∨
        loadLE c.mem (uncutPlace e p c) 8 = c.top 8 ∧ loadLE c.mem (poppedPlace e p c) 8 = c.top 8)

section Agreement

variable (e : Encoding) (p : Code) (c : Cpu)

/-- The state an effect is measured from, and the operand that the interpreter has found. -/
def atNext : Cpu := { c with rip := nextRip p c.rip }

def uncutOperand : Opnd :=
  if e.rmIsReg p then .reg (rmField (p e.tail) e.rex)
  else .mem (e.address64 p c.r (nextRip p c.rip)) (segmentBase e.prefixes c.fsBase c.gsBase)

lemma popRm_memory (hreg : e.rmIsReg p = false) :
    SameGuest (stackDone e p (uncutOperand e p c) .popRm (atNext p c)) (e.stackEffect p .popRm (atNext p c)) ↔
      StackAgrees e p c .popRm := by
  have hplace : e.stackBytes = 8 → e.stackEffect p .popRm (atNext p c) =
      { (atNext p c).popped 8 with mem := storeLE c.mem (poppedPlace e p c) (c.top 8) 8 } := by
    intro hn
    simp only [Encoding.stackEffect, hn, Encoding.rmPlace, hreg, Bool.false_eq_true, if_false]
    have haddr := address64_popped e p c.r (nextRip p c.rip) 8
    simp only [Opnd.written, Encoding.effectiveAddress]
    rw [poppedPlace, ← haddr]
    rfl
  have hdone : stackDone e p (uncutOperand e p c) .popRm (atNext p c) =
      { (atNext p c).popped 8 with mem := storeLE c.mem (uncutPlace e p c) (c.top 8) 8 } := by
    simp only [stackDone, uncutOperand, hreg, Bool.false_eq_true, if_false]
    rfl
  simp only [StackAgrees, hreg, Bool.false_eq_true, if_false]
  rcases stackBytes_cases e with ⟨h, hn⟩ | ⟨h, hn⟩
  · refine iff_of_false (fun hsame => ?_) fun h' => h'.1 h
    have hrsp := congrFun hsame.r_eq rsp
    simp only [hdone, Encoding.stackEffect, hn, Encoding.rmPlace, hreg, Bool.false_eq_true, if_false, Opnd.written,
      Cpu.popped, Function.update_self] at hrsp
    have h82 : (8 : BitVec 64) = 2 := (BitVec.add_right_inj _).mp hrsp
    exact absurd h82 (by decide)
  · rw [hdone, hplace hn, and_iff_right h, ← poppedPlace_eq]
    refine (same_iff (c := c)).trans ?_
    rw [and_iff_right rfl, and_iff_left rfl]
    by_cases heq : uncutPlace e p c = poppedPlace e p c
    · exact iff_of_true (by rw [heq]) (.inl heq)
    · rw [or_iff_right heq, storeLE_apart (poppedPlace_apart e p c heq)]

lemma callRm_memory (hreg : e.rmIsReg p = false) :
    SameGuest (stackDone e p (uncutOperand e p c) .callRm (atNext p c)) (e.stackEffect p .callRm (atNext p c)) ↔
      StackAgrees e p c .callRm := by
  have hdone : stackDone e p (uncutOperand e p c) .callRm (atNext p c) = { (atNext p c).pushed (nextRip p c.rip) 8 with
      rip := loadLE (storeLE c.mem (c.r rsp - 8) (nextRip p c.rip) 8) (uncutPlace e p c) 8 } := by
    simp only [stackDone, uncutOperand, hreg, Bool.false_eq_true, if_false]
    rfl
  have heffect : e.stackEffect p .callRm (atNext p c) = { (atNext p c).pushed (nextRip p c.rip) 8 with
      rip := loadLE c.mem (cutPlace e p c) 8 } := by
    simp only [Encoding.stackEffect, Encoding.rmPlace, hreg, Bool.false_eq_true, if_false]
    rfl
  rw [hdone, heffect]
  refine (same_iff (c := c)).trans ?_
  rw [and_iff_right rfl, and_iff_right rfl, eq_comm, loadLE_eq_iff (Nat.le_refl 8)]
  simp only [StackAgrees, hreg, Bool.false_eq_true, if_false]
  rfl

lemma pushRm_agrees :
    SameGuest (stackDone e p (uncutOperand e p c) .pushRm (atNext p c)) (e.stackEffect p .pushRm (atNext p c)) ↔
      StackAgrees e p c .pushRm := by
  refine (pushed_same e (atNext p c) _ _).trans ?_
  simp only [StackAgrees, uncutOperand, Encoding.rmPlace]
  rcases stackBytes_cases e with ⟨h, hn⟩ | ⟨h, hn⟩
  · exact iff_of_false (fun h' => h'.1 h) fun h' => h'.1 h
  · rw [and_iff_right h, and_iff_right h, hn]
    cases hreg : e.rmIsReg p with
    | true => exact iff_of_true rfl nofun
    | false => exact ⟨fun heq _ => heq, fun heq => heq rfl⟩

/-- What the interpreter does is what the manual says exactly under the condition. -/
lemma done_iff (i : StackInsn) : SameGuest (stackDone e p (uncutOperand e p c) i (atNext p c))
    (e.stackEffect p i (atNext p c)) ↔ StackAgrees e p c i := by
  cases i with
  | call | ret | retImm => exact iff_of_true (SameGuest.refl _) trivial
  | pushReg | pushImm => exact (pushed_same e (atNext p c) _ _).trans (and_iff_left rfl)
  | pushRm => exact pushRm_agrees e p c
  | popReg => exact popped_same e (atNext p c) e.opReg
  | leave =>
    refine (popped_same e { atNext p c with r := Function.update c.r rsp (c.r rbp) } rbp).trans ?_
    exact or_iff_left fun h => absurd h.1 (by decide)
  | callRm =>
    cases hreg : e.rmIsReg p with
    | false => exact callRm_memory e p c hreg
    | true =>
      simp only [StackAgrees, stackDone, Encoding.stackEffect, uncutOperand, Encoding.rmPlace, hreg, if_true]
      refine (same_iff (c := c)).trans ?_
      rw [and_iff_right rfl, and_iff_right rfl]
      constructor
      · intro hrip hi
        simp only [hi, Opnd.holds, Cpu.pushed, Function.update_self] at hrip
        bv_omega
      · intro hi
        simp only [Opnd.holds, Cpu.pushed, Function.update_of_ne hi]
  | popRm =>
    cases hreg : e.rmIsReg p with
    | false => exact popRm_memory e p c hreg
    | true =>
      simp only [StackAgrees, stackDone, Encoding.stackEffect, uncutOperand, Encoding.rmPlace, hreg, if_true]
      exact popped_same e (atNext p c) _

end Agreement

/-- Where the interpreter takes an instruction to end, against its length. -/
lemma insnEnd_eq {c : Cpu} (h : (encodingAt (codeOf c c.rip)).escaped = true ∨
      (encodingAt (codeOf c c.rip)).escaped = false ∧ opClass (encodingAt (codeOf c c.rip)).op ≠ .none ∧
        opClass (encodingAt (codeOf c c.rip)).op ≠ .twoByte) :
    insnEnd c = nextRip (codeOf c c.rip) c.rip +
      if (encodingAt (codeOf c c.rip)).shortImm (codeOf c c.rip) then 2 else 0 := by
  obtain ⟨len, hlen, hstep⟩ := insnLength_eq h
  rw [insnEnd, nextRip, hstep, hlen, BitVec.ofNat_add, ← BitVec.add_assoc]
  cases (encodingAt (codeOf c c.rip)).shortImm (codeOf c c.rip) <;> rfl

lemma insnEnd_next {c : Cpu} {i : StackInsn} (hi : (encodingAt (codeOf c c.rip)).stackInsn (codeOf c c.rip) = some i)
    (h : i = .pushImm → (encodingAt (codeOf c c.rip)).opsize ≠ 2) : insnEnd c = nextRip (codeOf c c.rip) c.rip := by
  obtain ⟨hesc, hclass, h6, h2⟩ := stackInsn_class hi
  have hshort : (encodingAt (codeOf c c.rip)).shortImm (codeOf c c.rip) = false := by
    have hfive : ∀ op : BitVec 8, op ∈ [0x68#8, 0x69, 0x81, 0xC7] ∨ op = 0xF7 → opClass op = classOf i →
        i = .pushImm := by
      simp only [List.mem_cons, List.not_mem_nil, or_false]
      rintro op ((rfl | rfl | rfl | rfl) | rfl) <;> cases i <;> decide
    unfold Encoding.shortImm
    by_contra hne
    simp only [Bool.not_eq_false, Bool.and_eq_true, Bool.or_eq_true, beq_iff_eq, decide_eq_true_eq] at hne
    exact h (hfive _ (hne.2.imp id And.left) hclass) hne.1.2
  rw [insnEnd_eq (.inr ⟨hesc, hclass ▸ by cases i <;> decide, hclass ▸ by cases i <;> decide⟩), hshort]
  exact BitVec.add_zero _

/-- Stack instructions have the manual's effect exactly under the condition. -/
theorem stack_instructions (fp : Fp) (rt : Runtime) (k : Kernel) (c : Cpu) (hcb : c.rip ≠ callbackMagic)
    (hret : c.rip ≠ returnMagic) (hstub : rsdStubIndex c.stubs c.rip = none) (hf : (step fp rt k c).2.fault = none)
    (i : StackInsn) (hi : (encodingAt (codeOf c c.rip)).stackInsn (codeOf c c.rip) = some i) :
    let p := codeOf c c.rip
    SameGuest (step fp rt k c).2 ((encodingAt p).stackEffect p i { c with rip := nextRip p c.rip }) ↔
      StackAgrees (encodingAt p) p c i := by
  intro p
  have hdone := step_stack hcb hret hstub hi hf
  by_cases himm : i = .pushImm ∧ (encodingAt p).opsize = 2
  · obtain ⟨rfl, h2⟩ := himm
    refine iff_of_false (fun h => ?_) fun h => h h2
    have hsame := SameGuest.trans (SameGuest.symm hdone) h
    have hrsp := congrFun hsame.r_eq rsp
    simp only [stackDone, Encoding.stackEffect, Encoding.stackBytes, if_pos h2, Cpu.pushed,
      Function.update_self] at hrsp
    exact absurd ((BitVec.sub_right_inj _).mp hrsp) (by decide)
  · have hnext : insnEnd c = nextRip p c.rip := insnEnd_next hi fun h h2 => himm ⟨h, h2⟩
    have hplace : rmOperand c = uncutOperand (encodingAt p) p c := by
      simp only [rmOperand, uncutOperand, hnext, Encoding.rmIsReg, beq_iff_eq]
      rfl
    rw [hnext, hplace] at hdone
    rw [← done_iff]
    exact ⟨fun h => SameGuest.trans (SameGuest.symm hdone) h, fun h => SameGuest.trans hdone h⟩

/-- Code with a stack at `0x8000`, whose first byte is `0x11`. -/
def stackCpu (code : List (BitVec 8)) : Cpu := { codeCpu code with
  r := fun i => if i = rsp then 0x8000 else 0
  mem := fun a => if a = 0x8000 then 0x11 else (codeCpu code).mem a }

/-- `call rsp` and `pop [rsp]`, as the manual has them. -/
def callRspDone : Cpu :=
  let p := codeOf (stackCpu [0xFF, 0xD4]) 0x1000
  (encodingAt p).stackEffect p .callRm { stackCpu [0xFF, 0xD4] with rip := 0x1002 }

def popRspDone : Cpu :=
  let p := codeOf (stackCpu [0x8F, 0x04, 0x24]) 0x1000
  (encodingAt p).stackEffect p .popRm { stackCpu [0x8F, 0x04, 0x24] with rip := 0x1003 }

/-- The call goes where the stack pointer is after the push, and the pop stores where it was before. -/
theorem call_and_pop_by_rsp :
    let called := (step sampleFp sampleRuntime sampleKernel (stackCpu [0xFF, 0xD4])).2
    let popped := (step sampleFp sampleRuntime sampleKernel (stackCpu [0x8F, 0x04, 0x24])).2
    (called.fault = none ∧ called.rip = 0x7FF8 ∧ callRspDone.rip = 0x8000 ∧ ¬ SameGuest called callRspDone) ∧
    (popped.fault = none ∧ popped.mem 0x8008 = 0x90 ∧ popRspDone.mem 0x8008 = 0x11 ∧
      ¬ SameGuest popped popRspDone) := by
  intro called popped
  have hrip : called.rip = 0x7FF8 ∧ callRspDone.rip = 0x8000 := by decide
  have hmem : popped.mem 0x8008 = 0x90 ∧ popRspDone.mem 0x8008 = 0x11 := by decide
  refine ⟨⟨by decide, hrip.1, hrip.2, fun h => ?_⟩, ⟨by decide, hmem.1, hmem.2, fun h => ?_⟩⟩
  · have h' := h.rip_eq
    rw [hrip.1, hrip.2] at h'
    exact absurd h' (by decide)
  · have hbyte := congrFun h.mem_eq 0x8008
    rw [hmem.1, hmem.2] at hbyte
    exact absurd hbyte (by decide)

/-- `push rax` is one that agrees. -/
theorem stack_instructions_push :
    SameGuest (step sampleFp sampleRuntime sampleKernel (stackCpu [0x50])).2
      ((encodingAt (codeOf (stackCpu [0x50]) 0x1000)).stackEffect (codeOf (stackCpu [0x50]) 0x1000) .pushReg
        { stackCpu [0x50] with rip := nextRip (codeOf (stackCpu [0x50]) 0x1000) 0x1000 }) :=
  (stack_instructions sampleFp sampleRuntime sampleKernel (stackCpu [0x50]) (by decide) (by decide) (by decide)
    (by decide) .pushReg (by decide)).mpr (show (encodingAt (codeOf (stackCpu [0x50]) 0x1000)).opsize ≠ 2 by decide)

end Rashid.Proofs
