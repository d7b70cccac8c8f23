import Rashid.Proofs.Emission

/-!
# The pieces of compiled instructions

What each `put_*` function adds to the buffer, piece by piece, and how many calls are in it.
-/

namespace Rashid.Proofs

/-! ### Straight code -/

/-- The sizes in which compiled code loads a field. -/
def loadsField : CpuField → Nat → Bool
  | .r _, n | .xhi _, n | .curRip, n | .tmp _, n | .as, n => n == 8
  | .xlo _, n => n == 8 || n == 4
  | .flags, n => n == 4
  | .running, n => n == 1

/-- The sizes in which it stores one; the flags are merged and not stored otherwise. -/
def storesField : CpuField → Nat → Bool
  | .r _, n => n == 8 || n == 1
  | .xlo _, n => n == 8 || n == 4
  | .xhi _, n | .curRip, n | .tmp _, n => n == 8
  | .flags, _ | .as, _ | .running, _ => false

/-- A load from the cpu's fields or from guest memory. -/
def readable (n : A64Reg) (off size : Nat) : Bool :=
  if n = cpuReg then (cpuField off).any (loadsField · size) else n != x9

def writable (n : A64Reg) (off size : Nat) : Bool := n == cpuReg && (cpuField off).any (storesField · size)

/-- Instructions that pass control on, keep the cpu pointer and write nothing but registers and
the guest's registers. -/
def plainInsn : A64 → Bool
  | .ldr t n off => t != cpuReg && readable n off 8
  | .ldrW t n off => t != cpuReg && readable n off 4
  | .ldrh t n off => t != cpuReg && readable n off 2
  | .ldrb t n off => t != cpuReg && readable n off 1
  | .ldrD _ n off => readable n off 8
  | .ldrS _ n off => readable n off 4
  | .str _ n off | .strD _ n off => writable n off 8
  | .strW _ n off | .strS _ n off => writable n off 4
  | .strb _ n off => writable n off 1
  | .movz d _ _ | .movk d _ _ | .mov d _ | .movW d _ => d != cpuReg
  | .add d _ _ | .sub d _ _ | .and d _ _ | .orr d _ _ | .eor d _ _ | .bic d _ _ | .mul d _ _ => d != cpuReg
  | .addW d _ _ | .subW d _ _ | .andW d _ _ | .orrW d _ _ | .eorW d _ _ | .mulW d _ _ => d != cpuReg
  | .addImm d _ _ | .subImm d _ _ | .addShift d _ _ _ | .orrLsl d _ _ _ | .eorLsr d _ _ _ | .eorBit d _ _ => d != cpuReg
  | .ubfx d _ _ _ | .bfi d _ _ _ | .sxt d _ _ | .sxtW d _ _ => d != cpuReg
  | .csel d _ _ _ | .cset d _ | .csetm d _ | .csetmW d _ | .fmovXd d _ | .fmovWs d _ => d != cpuReg
  | .cmp0 _ | .addsZr _ _ _ | .subsZr _ _ _ | .andsZr _ _ _ | .fcmpD _ _ | .fcmpS _ _ => true
  | .fopD _ _ _ _ | .fopS _ _ _ _ | .fsqrtD _ _ | .fsqrtS _ _ | .fcselD _ _ _ _ | .fcselS _ _ _ _ => true
  | .fmovDx _ _ | .fmovSw _ _ | .fcvtSd _ _ | .fcvtDs _ _ => true
  | .scvtfDx _ _ | .scvtfDw _ _ | .scvtfSx _ _ | .scvtfSw _ _ => true
  | .strh _ _ _ | .push _ | .pop _ | .blr _ | .b _ | .bcond _ _ | .cbzW _ _ | .ret => false

def Plain (l : List A64) : Prop := ∀ i ∈ l, plainInsn i = true

namespace Plain

variable {l l' : List A64} {i : A64}

lemma nil : Plain [] := fun _ h => absurd h List.not_mem_nil

lemma cons (hi : plainInsn i = true) (hl : Plain l) : Plain (i :: l) := by
  intro j hj
  rcases List.mem_cons.mp hj with rfl | hj
  · exact hi
  · exact hl j hj

lemma one (hi : plainInsn i = true) : Plain [i] := cons hi nil

lemma append (hl : Plain l) (hl' : Plain l') : Plain (l ++ l') := by
  intro i hi
  rcases List.mem_append.mp hi with hi | hi
  · exact hl i hi
  · exact hl' i hi

lemma ite {c : Prop} [Decidable c] (hl : Plain l) (hl' : Plain l') : Plain (if c then l else l') := by
  split
  · exact hl
  · exact hl'

lemma calls (hl : Plain l) : callCount l = 0 := by
  refine List.countP_eq_zero.mpr fun i hi hcall => ?_
  cases i with
  | blr n => exact Bool.false_ne_true (hl _ hi)
  | _ => exact Bool.false_ne_true hcall

end Plain

/-! ### Offsets -/

lemma cpuField_offR (i : Fin 16) : cpuField (offR i) = some (.r i) := by
  revert i
  decide

lemma cpuField_offXmm (i : Fin 16) : cpuField (offXmm i) = some (.xlo i) := by
  revert i
  decide

lemma cpuField_offXmmHigh (i : Fin 16) : cpuField (offXmm i + 8) = some (.xhi i) := by
  revert i
  decide

lemma cpuField_offTmp (i : Fin 8) : cpuField (offTmp i) = some (.tmp i) := by
  revert i
  decide

@[simp] lemma readable_offR (i : Fin 16) : readable cpuReg (offR i) 8 = true := by
  rw [readable, if_pos rfl, cpuField_offR]
  rfl

@[simp] lemma readable_offXmm (i : Fin 16) : readable cpuReg (offXmm i) 8 = true := by
  rw [readable, if_pos rfl, cpuField_offXmm]
  rfl

@[simp] lemma readable_offXmmLow (i : Fin 16) : readable cpuReg (offXmm i) 4 = true := by
  rw [readable, if_pos rfl, cpuField_offXmm]
  rfl

@[simp] lemma readable_offXmmHigh (i : Fin 16) : readable cpuReg (offXmm i + 8) 8 = true := by
  rw [readable, if_pos rfl, cpuField_offXmmHigh]
  rfl

@[simp] lemma writable_offR (i : Fin 16) : writable cpuReg (offR i) 8 = true := by
  rw [writable, cpuField_offR]
  rfl

@[simp] lemma writable_offRByte (i : Fin 16) : writable cpuReg (offR i) 1 = true := by
  rw [writable, cpuField_offR]
  rfl

@[simp] lemma writable_offXmm (i : Fin 16) : writable cpuReg (offXmm i) 8 = true := by
  rw [writable, cpuField_offXmm]
  rfl

@[simp] lemma writable_offXmmLow (i : Fin 16) : writable cpuReg (offXmm i) 4 = true := by
  rw [writable, cpuField_offXmm]
  rfl

@[simp] lemma writable_offXmmHigh (i : Fin 16) : writable cpuReg (offXmm i + 8) 8 = true := by
  rw [writable, cpuField_offXmmHigh]
  rfl

/-! ### Plain pieces of code -/

lemma plain_imm {r : A64Reg} (hr : (r != cpuReg) = true) (v : BitVec 64) : Plain (immCode r v) := by
  have hk (c : Prop) [Decidable c] (imm : BitVec 16) (hw : Nat) : Plain (if c then [.movk r imm hw] else []) :=
    .ite (.one hr) .nil
  have hz : plainInsn (.movz r (v.setWidth 16) 0) = true := hr
  exact (((Plain.one hz).append (hk _ _ _)).append (hk _ _ _)).append (hk _ _ _)

lemma plain_setRip (rip : BitVec 64) : Plain (setRipCode rip) := (plain_imm rfl rip).append (.one rfl)

lemma plain_condEven (cc : BitVec 8) : Plain (condEvenCode cc) := by
  refine ((Plain.one rfl).append ?_).append (.one rfl)
  split
  all_goals
    intro i hi
    simp only [List.mem_cons, List.not_mem_nil, or_false] at hi
    rcases hi with rfl | rfl | rfl | rfl | rfl <;> rfl

lemma plain_rdReg {dst : A64Reg} (hd : (dst != cpuReg) = true) (o : Insn) (reg : Fin 16) (size : Nat) :
    Plain (rdRegCode dst o reg size) := by
  have hload (i : Fin 16) : plainInsn (.ldr dst cpuReg (offR i)) = true := by
    show (dst != cpuReg && readable cpuReg (offR i) 8) = true
    rw [hd, readable_offR]
    rfl
  exact .ite (.cons (hload _) (.one hd)) (.one (hload _))

lemma plain_wrReg (src : A64Reg) (o : Insn) (reg : Fin 16) (size : Nat) : Plain (wrRegCode src o reg size) := by
  have hload (i : Fin 16) : plainInsn (.ldr x9 cpuReg (offR i)) = true := readable_offR i
  have hstore (t : A64Reg) (i : Fin 16) : plainInsn (.str t cpuReg (offR i)) = true := writable_offR i
  have hbyte (i : Fin 16) : plainInsn (.strb src cpuReg (offR i)) = true := writable_offRByte i
  exact .ite (.ite (.cons (hload _) (.cons rfl (.one (hstore _ _)))) (.one (hbyte _))) (.one (hstore _ _))

lemma plain_disp (disp : BitVec 64) : Plain (dispCode disp) := by
  unfold dispCode
  exact .ite (.one rfl) (.ite (.one rfl) (.ite ((plain_imm rfl disp).append (.one rfl)) .nil))

lemma plain_ea (o : Insn) : Plain (eaCode o) := by
  have hload (t : A64Reg) (ht : (t != cpuReg) = true) (i : Fin 16) : plainInsn (.ldr t cpuReg (offR i)) = true := by
    show (t != cpuReg && readable cpuReg (offR i) 8) = true
    rw [ht, readable_offR]
    rfl
  have hbase : Plain (if o.ea.hasBase then [.ldr x1 cpuReg (offR o.ea.base)] else [.movz x1 0 0]) :=
    .ite (.one (hload x1 rfl _)) (.one rfl)
  have hindex : Plain (if o.ea.hasIndex then [.ldr x6 cpuReg (offR o.ea.index), .addShift x1 x1 x6 o.ea.scale] else []) :=
    .ite (.cons (hload x6 rfl _) (.one rfl)) .nil
  exact .ite (plain_imm rfl _) (.ite (plain_imm rfl _) ((hbase.append hindex).append (plain_disp _)))

lemma plain_op (o : Insn) : plainInsn (opCode o) = true := by
  unfold opCode
  cases o.op <;> cases (o.size != 8) <;> rfl

lemma plain_loadInsn (size : Nat) : plainInsn (loadInsn size) = true := by
  unfold loadInsn
  split <;> rfl

lemma plain_pushSp : Plain pushSpCode := .cons rfl (.cons rfl (.one rfl))

lemma plain_popSp : Plain popSpCode := .cons rfl (.cons rfl (.one rfl))

lemma plain_memSrc (o : Insn) : Plain (memSrcCode o) := .ite (plain_imm rfl _) (plain_rdReg rfl _ _ _)

/-! ### The kinds of pieces -/

/-- What may stand between the cpu in x0 and the call. -/
def argInsn : A64 → Bool
  | .movz d _ _ | .movk d _ _ | .mov d _ => d != x0 && d != cpuReg
  | _ => false

/-- Routines that take the cpu and values, and write no guest memory. -/
def takesCpu : Helper → Bool
  | .ld128 | .st128 | .nanD | .nanS | .st | .wlog => false
  | _ => true

/-- The pieces that the code of an instruction is made of. Only stores depend on whether blocks
are checked. -/
inductive Emitted (lk : Link) (o : Insn) (check : Bool) : Piece → Prop
  | plain {l : List A64} : Plain l → Emitted lk o check (.code l)
  | call {args : List A64} {h : Helper} : takesCpu h = true → (∀ i ∈ args, argInsn i = true) →
      Emitted lk o check (.code (.mov x0 cpuReg :: args ++ callCode lk h))
  | slowStore {size : Nat} : size ∈ [o.size, 1, 4, 8] →
      Emitted lk o check (.code (.mov x0 cpuReg :: immCode x3 (BitVec.ofNat 64 size) ++ callCode lk .st))
  | pair {h : Helper} {off : Nat} : h = .ld128 ∨ h = .st128 → (∃ i, off = offXmm i) ∨ off = offTmp 0 →
      Emitted lk o check (.code ([.addImm x2 cpuReg off, .mov x0 cpuReg] ++ callCode lk h))
  | nan (dbl unary : Bool) : Emitted lk o check (.code (nanArgs dbl unary ++ callCode lk (if dbl then .nanD else .nanS)))
  | flags (add sub logic w : Bool) : Emitted lk o check (.code (flagsInlineCode add sub logic o.fneed w))
  | store {size : Nat} : size ∈ [o.size, 1, 4, 8] →
      Emitted lk o check (.code ((if check then wlogCode lk size else []) ++ [storeInsn size]))
  | region (write : Bool) (d : Nat) : Emitted lk o check (.region write d)
  | bcond (c : A64Cond) (d : Nat) : Emitted lk o check (.bcond c d)
  | cbz (d : Nat) : Emitted lk o check (.cbz x5 d)
  | b (d : Nat) : Emitted lk o check (.b d)
  | exit : Emitted lk o check .exit
  | leave : Emitted lk o check .leave

section Emitted

variable {lk : Link} {o : Insn}

/-- Emits code of the instruction `o`, with at most `k` calls. -/
abbrev EmitsFor (lk : Link) (o : Insn) (k : Nat) {α : Type} (p : Emit α) : Prop := Emits (Emitted lk o) k p

lemma emits_plain {l : List A64} (hl : Plain l) : EmitsFor lk o 0 (puts l) := by
  have h : EmitsFor lk o (callCount l) (puts l) := emits_code fun _ => .plain hl
  rwa [hl.calls] at h

lemma emits_insn {i : A64} (hi : plainInsn i = true) : EmitsFor lk o 0 (put i) := emits_plain (.one hi)

lemma calls_args {args : List A64} (h : ∀ i ∈ args, argInsn i = true) : callCount args = 0 := by
  refine List.countP_eq_zero.mpr fun i hi hcall => ?_
  cases i with
  | blr n => exact Bool.false_ne_true (h _ hi)
  | _ => exact Bool.false_ne_true hcall

lemma calls_append (l l' : List A64) : callCount (l ++ l') = callCount l + callCount l' := List.countP_append ..

lemma calls_callCode (lk : Link) (h : Helper) : callCount (callCode lk h) = 1 := by
  rw [callCode, calls_append, (plain_imm rfl _ : Plain (immCode x9 (lk.addr h))).calls]
  rfl

lemma puts_call (l : List A64) (h : Helper) : (puts l >>= fun _ => putCall lk h) = puts (l ++ callCode lk h) :=
  (puts_append l _).symm

lemma calls_call {args : List A64} (hargs : ∀ i ∈ args, argInsn i = true) (h : Helper) :
    callCount (.mov x0 cpuReg :: args ++ callCode lk h) = 1 := by
  rw [calls_append, calls_callCode, show callCount (.mov x0 cpuReg :: args) = callCount args from rfl, calls_args hargs]

lemma emits_call {args : List A64} {h : Helper} (hh : takesCpu h = true) (hargs : ∀ i ∈ args, argInsn i = true) :
    EmitsFor lk o 1 (puts (.mov x0 cpuReg :: args) >>= fun _ => putCall lk h) := by
  rw [puts_call, ← calls_call hargs h]
  exact emits_code fun _ => .call hh hargs

lemma arg_imm {r : A64Reg} (hr : (r != x0 && r != cpuReg) = true) (v : BitVec 64) :
    ∀ i ∈ immCode r v, argInsn i = true := by
  have hz : argInsn (.movz r (v.setWidth 16) 0) = true := hr
  have hk (imm : BitVec 16) (hw : Nat) : argInsn (.movk r imm hw) = true := hr
  intro i hi
  simp only [immCode, List.mem_append, List.mem_singleton, List.mem_ite_nil_right] at hi
  rcases hi with ((rfl | ⟨-, rfl⟩) | ⟨-, rfl⟩) | ⟨-, rfl⟩
  · exact hz
  · exact hk ..
  · exact hk ..
  · exact hk ..

lemma arg_append {l l' : List A64} (hl : ∀ i ∈ l, argInsn i = true) (hl' : ∀ i ∈ l', argInsn i = true) :
    ∀ i ∈ l ++ l', argInsn i = true := by
  intro i hi
  rcases List.mem_append.mp hi with hi | hi
  · exact hl i hi
  · exact hl' i hi

lemma arg_mov {d m : A64Reg} (hd : (d != x0 && d != cpuReg) = true) : ∀ i ∈ [A64.mov d m], argInsn i = true := by
  intro i hi
  rw [List.mem_singleton.mp hi]
  exact hd

lemma emits_fault : EmitsFor lk o 0 putFaultCheck :=
  emits_faultCheck (fun _ => .plain (.one rfl)) fun _ => .exit

lemma emits_leaves : EmitsFor lk o 0 putLeave := emits_leave fun _ => .leave

lemma emits_load (size : Nat) : EmitsFor lk o 1 (putLoad lk size) := by
  have hslow : EmitsFor lk o (1 + 0)
      ((puts (.mov x0 cpuReg :: immCode x2 (BitVec.ofNat 64 size)) >>= fun _ => putCall lk .ld) >>=
        fun _ => putFaultCheck) :=
    (emits_call rfl (arg_imm rfl _)).bind fun _ => emits_fault
  exact emits_access (fun _ _ => .region _ _) (fun _ _ => .b _) (emits_insn (plain_loadInsn size)) hslow

lemma calls_wlog (size : Nat) : callCount (wlogCode lk size) = 1 := by
  simp only [wlogCode, calls_append, calls_callCode, (plain_imm rfl _ : Plain (immCode x3 (BitVec.ofNat 64 size))).calls]
  rfl

lemma calls_storeInsn (size : Nat) : callCount [storeInsn size] = 0 := by
  unfold storeInsn
  split <;> rfl

/-- The store in line, logged first when blocks are checked. -/
def storeInline (lk : Link) (size : Nat) : Emit Unit := do
  let check ← isCheck
  puts (if check then wlogCode lk size else [])
  put (storeInsn size)

lemma storeInline_apply (size : Nat) (b : Buf) :
    storeInline lk size b = puts ((if b.check then wlogCode lk size else []) ++ [storeInsn size]) b := by
  rw [puts_append]
  rfl

lemma emits_storeInline {size : Nat} (hsize : size ∈ [o.size, 1, 4, 8]) : EmitsFor lk o 1 (storeInline lk size) := by
  constructor
  · intro b
    exact (Bounded.get _ b).bind ((puts_bounded _ b).bind (put_bounded _ _))
  · intro b hfull
    rw [storeInline_apply] at hfull ⊢
    obtain ⟨hb, heq⟩ := puts_grown hfull
    have hcalls : callCount ((if b.check then wlogCode lk size else []) ++ [storeInsn size]) ≤ 1 := by
      rw [calls_append, calls_storeInsn]
      split
      · exact Nat.le_of_eq (calls_wlog size)
      · exact Nat.zero_le 1
    refine ⟨[.code ((if b.check then wlogCode lk size else []) ++ [storeInsn size])],
      (Fragment.one (.store hsize) rfl).mono hcalls, hb, ?_, ?_⟩
    · rw [heq]
      exact congrArg (b.out ++ ·) (List.append_nil _).symm
    · rw [heq]
      exact (List.append_nil b.fix).symm

lemma emits_slowStore {size : Nat} (hsize : size ∈ [o.size, 1, 4, 8]) :
    EmitsFor lk o 1 (puts (.mov x0 cpuReg :: immCode x3 (BitVec.ofNat 64 size)) >>= fun _ => putCall lk .st) := by
  have hargs : ∀ i ∈ immCode x3 (BitVec.ofNat 64 size), argInsn i = true := arg_imm rfl _
  rw [puts_call, ← calls_call hargs .st]
  exact emits_code fun _ => .slowStore hsize

lemma emits_store {size : Nat} (hsize : size ∈ [o.size, 1, 4, 8]) : EmitsFor lk o 2 (putStore lk size) := by
  have hslow : EmitsFor lk o (1 + 0)
      ((puts (.mov x0 cpuReg :: immCode x3 (BitVec.ofNat 64 size)) >>= fun _ => putCall lk .st) >>=
        fun _ => putFaultCheck) :=
    (emits_slowStore hsize).bind fun _ => emits_fault
  exact emits_access (fun _ _ => .region _ _) (fun _ _ => .b _) (emits_storeInline hsize) hslow

/-! ### Flags -/

def isFlagHelper : Helper → Bool
  | .flagsAdd | .flagsSub | .flagsLogic | .flagsInc | .flagsDec => true
  | _ => false

/-- The flags are produced in registers before they are merged. -/
lemma plain_produce (add sub logic : Bool) (need : BitVec 32) (w : Bool) :
    ∃ l, Plain l ∧ flagsInlineCode add sub logic need w = l ++ mergeFlagsCode need := by
  have hset : plainInsn (flagSetCode add sub w) = true := by cases add <;> cases sub <;> rfl
  have hnzcv (f : BitVec 32) (bit : Nat) (c : A64Cond) : Plain (nzcvCode need logic f bit c) :=
    .ite .nil (.cons rfl (.one rfl))
  have hparity : Plain parityCode := .cons rfl (.cons rfl (.cons rfl (.cons rfl (.cons rfl (.one rfl)))))
  have hadjust : Plain adjustCode := .cons rfl (.cons rfl (.cons rfl (.one rfl)))
  refine ⟨_, ?_, rfl⟩
  exact (((((((Plain.ite (.one hset) .nil).append (.one rfl)).append (hnzcv _ _ _)).append (hnzcv _ _ _)).append
    (hnzcv _ _ _)).append (hnzcv _ _ _)).append (.ite hparity .nil)).append (.ite hadjust .nil)

lemma calls_flagsInline (add sub logic w : Bool) (need : BitVec 32) :
    callCount (flagsInlineCode add sub logic need w) = 0 := by
  obtain ⟨l, hl, hcode⟩ := plain_produce add sub logic need w
  have hmerge : callCount (mergeFlagsCode need) = 0 := by
    simp only [mergeFlagsCode, calls_append, (plain_imm rfl _ : Plain (immCode x12 (need.setWidth 64))).calls]
    rfl
  rw [hcode, calls_append, hl.calls, hmerge]

lemma emits_flagsCall {fn : Helper} (hfn : isFlagHelper fn = true) (size : Nat) :
    EmitsFor lk o 1 (putFlagsCall lk fn size) := by
  have htakes : takesCpu fn = true := by cases fn <;> first | rfl | cases hfn
  have hargs : ∀ i ∈ (if fn = .flagsLogic then [A64.mov x1 x3] ++ immCode x2 (BitVec.ofNat 64 size)
      else if fn = .flagsInc ∨ fn = .flagsDec then [A64.mov x2 x3] ++ immCode x3 (BitVec.ofNat 64 size)
      else immCode x4 (BitVec.ofNat 64 size)), argInsn i = true := by
    split
    · exact arg_append (arg_mov rfl) (arg_imm rfl _)
    · split
      · exact arg_append (arg_mov rfl) (arg_imm rfl _)
      · exact arg_imm rfl _
  exact emits_call htakes hargs

lemma emits_flagsInline (fn : Helper) (w : Bool) : EmitsFor lk o 0 (putFlagsInline fn o.fneed w) := by
  have hcode (add sub logic : Bool) : EmitsFor lk o 0 (puts (flagsInlineCode add sub logic o.fneed w)) := by
    rw [← calls_flagsInline add sub logic w o.fneed]
    exact emits_code fun _ => .flags add sub logic w
  exact .ite (.pure false) ((hcode _ _ _).bind fun _ => .pure true)

lemma emits_flags {fn : Option Helper} (hfn : ∀ f, fn = some f → isFlagHelper f = true) (size : Nat) :
    EmitsFor lk o 1 (putFlags lk o fn size) := by
  cases fn with
  | none => exact (Emits.pure ()).mono (Nat.zero_le 1)
  | some f =>
    have hcall : EmitsFor lk o 1 (putFlagsCall lk f size) := emits_flagsCall (hfn f rfl) size
    exact .ite ((Emits.pure ()).mono (Nat.zero_le 1)) (.ite
      ((emits_flagsInline f _).bind fun _ => .ite ((Emits.pure ()).mono (Nat.zero_le 1)) hcall) hcall)

lemma isFlagHelper_of_op (op : Op) : ∀ f, op.helper = some f → isFlagHelper f = true := by
  intro f hf
  cases op <;> cases hf <;> rfl

/-! ### Integer instructions -/

lemma emits_skip {k : Nat} : EmitsFor lk o k (pure ()) := (Emits.pure ()).mono (Nat.zero_le k)

lemma emits_setRip (rip : BitVec 64) : EmitsFor lk o 0 (putSetRip rip) := emits_plain (plain_setRip rip)

lemma emits_memEa (rip : BitVec 64) : EmitsFor lk o 0 (putMemEa o rip) :=
  (emits_setRip rip).bind fun _ => emits_plain (plain_ea o)

lemma emits_rdReg {dst : A64Reg} (hd : (dst != cpuReg) = true) (reg : Fin 16) (size : Nat) :
    EmitsFor lk o 0 (putRdReg dst o reg size) := emits_plain (plain_rdReg hd o reg size)

lemma emits_wrReg (src : A64Reg) (reg : Fin 16) (size : Nat) : EmitsFor lk o 0 (putWrReg src o reg size) :=
  emits_plain (plain_wrReg src o reg size)

/-- The flag helper that an operation returns is its own. -/
lemma emits_afterOp {α : Type} {k : Nat} {f : Option Helper → Emit α} (hf : EmitsFor lk o k (f o.op.helper)) :
    EmitsFor lk o k (putOp o >>= f) := by
  have heq : (putOp o >>= f) = (put (opCode o) >>= fun _ => f o.op.helper) := rfl
  rw [heq]
  exact ((emits_insn (plain_op o)).bind fun _ => hf).mono (Nat.le_of_eq (Nat.zero_add k))

lemma emits_regOp : EmitsFor lk o 1 (putRegOp lk o) := by
  refine emits_afterOp ?_
  have hwrite : EmitsFor lk o 0 (puts (if o.noWrite then [] else wrRegCode x3 o o.reg o.size)) :=
    emits_plain (.ite .nil (plain_wrReg x3 o o.reg o.size))
  exact hwrite.bind fun _ => emits_flags (isFlagHelper_of_op o.op) o.size

lemma emits_rr : EmitsFor lk o 1 (putRr lk o) :=
  (emits_rdReg rfl _ _).bind fun _ => (emits_rdReg rfl _ _).bind fun _ => emits_regOp

lemma emits_ri : EmitsFor lk o 1 (putRi lk o) :=
  (emits_rdReg rfl _ _).bind fun _ => (emits_plain (plain_imm rfl _)).bind fun _ => emits_regOp

lemma emits_rm (rip : BitVec 64) : EmitsFor lk o 2 (putRm lk o rip) :=
  (emits_memEa rip).bind fun _ => (emits_load o.size).bind fun _ => (emits_insn rfl).bind fun _ =>
    (emits_rdReg rfl _ _).bind fun _ => emits_regOp

lemma size_mem : o.size ∈ [o.size, 1, 4, 8] := List.mem_cons_self

lemma one_mem : 1 ∈ [o.size, 1, 4, 8] := List.mem_cons_of_mem _ List.mem_cons_self

lemma four_mem : 4 ∈ [o.size, 1, 4, 8] := List.mem_cons_of_mem _ (List.mem_cons_of_mem _ List.mem_cons_self)

lemma eight_mem : 8 ∈ [o.size, 1, 4, 8] :=
  List.mem_cons_of_mem _ (List.mem_cons_of_mem _ (List.mem_cons_of_mem _ List.mem_cons_self))

lemma emits_shiftBody (rip : BitVec 64) : EmitsFor lk o 4 (putShiftBody lk o rip) := by
  have hsave : EmitsFor lk o 0 (puts (if o.byCl then [.str x5 cpuReg (offTmp 1)] else [])) :=
    emits_plain (.ite (.one rfl) .nil)
  have hrestore : EmitsFor lk o 0 (puts (if o.byCl then [.ldr x5 cpuReg (offTmp 1)] else [])) :=
    emits_plain (.ite (.one rfl) .nil)
  have hstr : EmitsFor lk o 0 (put (.str x1 cpuReg (offTmp 0))) := emits_insn rfl
  have hmov : EmitsFor lk o 0 (put (.mov x1 x0)) := emits_insn rfl
  have hcount : EmitsFor lk o 0 (puts (if o.byCl then [.mov x2 x5] else immCode x2 (o.imm &&& shiftMask o.size))) :=
    emits_plain (.ite (.one rfl) (plain_imm rfl _))
  have hcall : EmitsFor lk o 1
      (puts ([A64.mov x0 cpuReg] ++ immCode x3 (BitVec.ofNat 64 o.size) ++ immCode x4 (o.ext.setWidth 64)) >>=
        fun _ => putCall lk .shift) := by
    have hargs : ∀ i ∈ immCode x3 (BitVec.ofNat 64 o.size) ++ immCode x4 (o.ext.setWidth 64), argInsn i = true :=
      arg_append (arg_imm rfl _) (arg_imm rfl _)
    exact emits_call rfl hargs
  have hwrite : EmitsFor lk o 2 (if o.mem then do
      puts [.mov x2 x0, .ldr x1 cpuReg (offTmp 0)]
      putStore lk o.size
    else putWrReg x0 o o.reg o.size) :=
    .ite ((emits_plain (.cons rfl (.one rfl))).bind fun _ => emits_store size_mem)
      ((emits_wrReg _ _ _).mono (Nat.zero_le 2))
  have hrest := hcount.bind fun _ => hcall.bind fun _ => hwrite
  exact .ite
    (hsave.bind fun _ => (emits_memEa rip).bind fun _ => hstr.bind fun _ => (emits_load o.size).bind fun _ =>
      hmov.bind fun _ => hrestore.bind fun _ => hrest)
    (((emits_rdReg rfl _ _).bind fun _ => hrest).mono (by decide))

lemma emits_shift (rip : BitVec 64) : EmitsFor lk o 4 (putShift lk o rip) := by
  have hcount :
      EmitsFor lk o 0 (puts [.ldr x5 cpuReg (offR rcx), .ubfx x5 x5 0 (if shiftMask o.size = 63 then 6 else 5)]) :=
    emits_plain (.cons rfl (.one rfl))
  have hover : EmitsFor lk o 4 (putOver (.cbzW x5) (putShiftBody lk o rip)) :=
    emits_over (p := .cbz x5) (fun _ _ => rfl) (fun _ => rfl) (fun _ _ _ => rfl) (fun _ => rfl) (fun _ _ => .cbz _)
      (emits_shiftBody rip)
  exact .ite emits_skip (.ite ((hcount.bind fun _ => hover).mono (Nat.le_refl 4)) (emits_shiftBody rip))

lemma emits_imul (rip : BitVec 64) : EmitsFor lk o 2 (putImul lk o rip) := by
  have hmov : EmitsFor lk o 0 (put (.mov x1 x0)) := emits_insn rfl
  have hsrc : EmitsFor lk o 0 (put (.ldr x1 cpuReg (offR o.src))) := emits_insn (readable_offR _)
  have hother : EmitsFor lk o 0 (puts (if o.immSrc then immCode x2 o.imm else [.ldr x2 cpuReg (offR o.reg)])) :=
    emits_plain (.ite (plain_imm rfl _) (.one (readable_offR _)))
  have hmul : EmitsFor lk o 0 (puts [if o.size = 8 then .mul x3 x1 x2 else .mulW x3 x1 x2, .str x3 cpuReg (offR o.reg)]) :=
    emits_plain (.cons (by split <;> rfl) (.one (writable_offR _)))
  have hflags : EmitsFor lk o 1 (putFlags lk o (some .flagsLogic) o.size) :=
    emits_flags (fun f hf => Option.some.inj hf ▸ rfl) o.size
  have hrest := hother.bind fun _ => hmul.bind fun _ => hflags
  exact .ite ((emits_memEa rip).bind fun _ => (emits_load o.size).bind fun _ => hmov.bind fun _ => hrest)
    ((hsrc.bind fun _ => hrest).mono (by decide))

lemma emits_setcc (rip : BitVec 64) : EmitsFor lk o 2 (putSetcc lk o rip) := by
  have hset : EmitsFor lk o 0 (put (.cset x0 (ccSense o.cc))) := emits_insn rfl
  have hsave : EmitsFor lk o 0 (put (.str x0 cpuReg (offTmp 0))) := emits_insn rfl
  have hrestore : EmitsFor lk o 0 (put (.ldr x2 cpuReg (offTmp 0))) := emits_insn rfl
  have hmem : EmitsFor lk o 2 (do
      put (.str x0 cpuReg (offTmp 0))
      putMemEa o rip
      put (.ldr x2 cpuReg (offTmp 0))
      putStore lk 1) :=
    hsave.bind fun _ => (emits_memEa rip).bind fun _ => hrestore.bind fun _ => emits_store one_mem
  exact (emits_plain (plain_condEven o.cc)).bind fun _ => hset.bind fun _ =>
    .ite hmem ((emits_wrReg x0 o.reg 1).mono (Nat.zero_le 2))

lemma emits_movx (rip : BitVec 64) : EmitsFor lk o 1 (putMovx lk o rip) := by
  have hbits : plainInsn (if o.sign = false then .ubfx x0 x0 0 (o.ssize * 8)
      else if o.size = 8 then .sxt x0 x0 (o.ssize * 8) else .sxtW x0 x0 (o.ssize * 8)) = true := by
    split
    · rfl
    · split <;> rfl
  have hext : EmitsFor lk o 0 (puts [if o.sign = false then .ubfx x0 x0 0 (o.ssize * 8)
      else if o.size = 8 then .sxt x0 x0 (o.ssize * 8) else .sxtW x0 x0 (o.ssize * 8), .str x0 cpuReg (offR o.reg)]) :=
    emits_plain (.cons hbits (.one (writable_offR _)))
  exact .ite ((emits_memEa rip).bind fun _ => (emits_load o.ssize).bind fun _ => hext)
    (((emits_rdReg rfl _ _).bind fun _ => hext).mono (by decide))

lemma emits_mem (rip : BitVec 64) : EmitsFor lk o 4 (putMem lk o rip) := by
  have hsrc : EmitsFor lk o 0 (puts (memSrcCode o)) := emits_plain (plain_memSrc o)
  have hsave : EmitsFor lk o 0 (put (.str x1 cpuReg (offTmp 0))) := emits_insn rfl
  have hmov : EmitsFor lk o 0 (put (.mov x1 x0)) := emits_insn rfl
  have htmps : EmitsFor lk o 0 (puts [.str x1 cpuReg (offTmp 1), .str x2 cpuReg (offTmp 2), .str x3 cpuReg (offTmp 3),
      .mov x2 x3, .ldr x1 cpuReg (offTmp 0)]) :=
    emits_plain (.cons rfl (.cons rfl (.cons rfl (.cons rfl (.one rfl)))))
  have hback : EmitsFor lk o 0 (puts [.ldr x1 cpuReg (offTmp 1), .ldr x2 cpuReg (offTmp 2), .ldr x3 cpuReg (offTmp 3)]) :=
    emits_plain (.cons rfl (.cons rfl (.one rfl)))
  have hflags : EmitsFor lk o 1 (putFlags lk o o.op.helper o.size) := emits_flags (isFlagHelper_of_op o.op) o.size
  have hmodify : EmitsFor lk o 3 (do
      let fl ← putOp o
      if o.noWrite then putFlags lk o fl o.size
      else do
        puts [.str x1 cpuReg (offTmp 1), .str x2 cpuReg (offTmp 2), .str x3 cpuReg (offTmp 3), .mov x2 x3,
          .ldr x1 cpuReg (offTmp 0)]
        putStore lk o.size
        puts [.ldr x1 cpuReg (offTmp 1), .ldr x2 cpuReg (offTmp 2), .ldr x3 cpuReg (offTmp 3)]
        putFlags lk o fl o.size) :=
    emits_afterOp (.ite (hflags.mono (by decide))
      (htmps.bind fun _ => (emits_store size_mem).bind fun _ => hback.bind fun _ => hflags))
  have hplain : EmitsFor lk o 4 (puts (memSrcCode o) >>= fun _ => putStore lk o.size) :=
    (hsrc.bind fun _ => emits_store size_mem).mono (by decide)
  exact (emits_memEa rip).bind fun _ => .ite hplain
    (hsave.bind fun _ => (emits_load o.size).bind fun _ => hmov.bind fun _ => hsrc.bind fun _ => hmodify)

lemma emits_lea : EmitsFor lk o 0 (putLea o) := by
  have hlong : Plain [.movW x3 x1, .str x3 cpuReg (offR o.reg)] := .cons rfl (.one (writable_offR _))
  have hquad : Plain [.str x1 cpuReg (offR o.reg)] := .one (writable_offR _)
  exact (emits_plain (plain_ea o)).bind fun _ => emits_plain (.ite hlong hquad)

lemma emits_push (rip : BitVec 64) : EmitsFor lk o 2 (putPush lk o rip) :=
  have hreg : plainInsn (.ldr x2 cpuReg (offR o.reg)) = true := readable_offR _
  (emits_setRip rip).bind fun _ => (emits_plain (plain_pushSp.append (.one hreg))).bind fun _ => emits_store eight_mem

lemma emits_pop (rip : BitVec 64) : EmitsFor lk o 1 (putPop lk o rip) := by
  have hsp : EmitsFor lk o 0 (put (.ldr x1 cpuReg (offR rsp))) := emits_insn rfl
  have hreg : plainInsn (.str x0 cpuReg (offR o.reg)) = true := writable_offR _
  have hend : EmitsFor lk o 0 (puts ([A64.str x0 cpuReg (offR o.reg)] ++ popSpCode)) :=
    emits_plain ((Plain.one hreg).append plain_popSp)
  exact (emits_setRip rip).bind fun _ => hsp.bind fun _ => (emits_load 8).bind fun _ => hend

lemma emits_jcc : EmitsFor lk o 0 (putJcc o) := by
  have hsel : EmitsFor lk o 0 (puts (immCode x2 o.target ++ immCode x3 o.next ++ [A64.csel x0 x2 x3 (ccSense o.cc)])) :=
    emits_plain (((plain_imm rfl _).append (plain_imm rfl _)).append (.one rfl))
  exact (emits_plain (plain_condEven o.cc)).bind fun _ => hsel.bind fun _ => emits_leaves

lemma emits_callRel (rip : BitVec 64) : EmitsFor lk o 2 (putCallRel lk o rip) := by
  have hcode : EmitsFor lk o 0 (puts (pushSpCode ++ immCode x2 o.next)) :=
    emits_plain (plain_pushSp.append (plain_imm rfl _))
  have htarget : EmitsFor lk o 0 (putImm x0 o.target) := emits_plain (plain_imm rfl _)
  exact (emits_setRip rip).bind fun _ => hcode.bind fun _ => (emits_store eight_mem).bind fun _ =>
    htarget.bind fun _ => emits_leaves

lemma emits_ret (rip : BitVec 64) : EmitsFor lk o 1 (putRet lk rip) := by
  have hsp : EmitsFor lk o 0 (put (.ldr x1 cpuReg (offR rsp))) := emits_insn rfl
  have hend : EmitsFor lk o 0 (puts ([A64.str x0 cpuReg (offTmp 0)] ++ popSpCode ++ [A64.ldr x0 cpuReg (offTmp 0)])) :=
    emits_plain (((Plain.one rfl).append plain_popSp).append (.one rfl))
  exact (emits_setRip rip).bind fun _ => hsp.bind fun _ => (emits_load 8).bind fun _ => hend.bind fun _ => emits_leaves

lemma emits_callm (rip : BitVec 64) : EmitsFor lk o 3 (putCallm lk o rip) := by
  have hea : EmitsFor lk o 0 (puts (if o.mem then eaCode o ++ [A64.str x1 cpuReg (offTmp 0)] else [])) :=
    emits_plain (.ite ((plain_ea o).append (.one rfl)) .nil)
  have hcode : EmitsFor lk o 0 (puts (pushSpCode ++ immCode x2 o.next)) :=
    emits_plain (plain_pushSp.append (plain_imm rfl _))
  have haddr : EmitsFor lk o 0 (put (.ldr x1 cpuReg (offTmp 0))) := emits_insn rfl
  have hreg : EmitsFor lk o 0 (put (.ldr x0 cpuReg (offR o.reg))) := emits_insn (readable_offR _)
  have htarget : EmitsFor lk o 1 (if o.mem then do
      put (.ldr x1 cpuReg (offTmp 0))
      putLoad lk 8
      putLeave
    else do
      put (.ldr x0 cpuReg (offR o.reg))
      putLeave) :=
    .ite (haddr.bind fun _ => (emits_load 8).bind fun _ => emits_leaves)
      ((hreg.bind fun _ => emits_leaves).mono (Nat.zero_le 1))
  exact (emits_setRip rip).bind fun _ => hea.bind fun _ => hcode.bind fun _ => (emits_store eight_mem).bind
    fun _ => htarget

lemma emits_jmpm (rip : BitVec 64) : EmitsFor lk o 1 (putJmpm lk o rip) := by
  have hreg : EmitsFor lk o 0 (put (.ldr x0 cpuReg (offR o.reg))) := emits_insn (readable_offR _)
  exact .ite ((emits_memEa rip).bind fun _ => (emits_load 8).bind fun _ => emits_leaves)
    ((hreg.bind fun _ => emits_leaves).mono (Nat.zero_le 1))

/-! ### SSE -/

lemma emits_pairCall {h : Helper} {off : Nat} (hh : h = .ld128 ∨ h = .st128)
    (hoff : (∃ i, off = offXmm i) ∨ off = offTmp 0) :
    EmitsFor lk o 1 (puts [.addImm x2 cpuReg off, .mov x0 cpuReg] >>= fun _ => putCall lk h) := by
  have hcalls : callCount ([A64.addImm x2 cpuReg off, A64.mov x0 cpuReg] ++ callCode lk h) = 1 := by
    rw [calls_append, calls_callCode]
    rfl
  rw [puts_call, ← hcalls]
  exact emits_code fun _ => .pair hh hoff

lemma plain_ldrF {dbl : Bool} {t : A64Reg} (i : Fin 16) : plainInsn (ldrF dbl t (offXmm i)) = true := by
  cases dbl
  · exact readable_offXmmLow i
  · exact readable_offXmm i

lemma plain_strF {dbl : Bool} {t : A64Reg} (i : Fin 16) : plainInsn (strF dbl t (offXmm i)) = true := by
  cases dbl
  · exact writable_offXmmLow i
  · exact writable_offXmm i

lemma plain_fcmpF (dbl : Bool) (n m : A64Reg) : plainInsn (fcmpF dbl n m) = true := by cases dbl <;> rfl

lemma plain_fopF (dbl : Bool) (op : FOp) (d n m : A64Reg) : plainInsn (fopF dbl op d n m) = true := by cases dbl <;> rfl

lemma emits_fsrc (rip : BitVec 64) (dbl : Bool) : EmitsFor lk o 1 (putFsrc lk o rip dbl) := by
  have hreg : plainInsn (if dbl then .ldrD 1 cpuReg (offXmm o.xsrc) else .ldrS 1 cpuReg (offXmm o.xsrc)) = true := by
    cases dbl
    · exact readable_offXmmLow _
    · exact readable_offXmm _
  have hmov : EmitsFor lk o 0 (put (if dbl then .fmovDx 1 x0 else .fmovSw 1 x0)) :=
    emits_insn (by cases dbl <;> rfl)
  exact .ite ((emits_insn hreg).mono (Nat.zero_le 1))
    ((emits_memEa rip).bind fun _ => (emits_load _).bind fun _ => hmov)

lemma emits_movScalar (rip : BitVec 64) : EmitsFor lk o 2 (putSseMovScalar lk o rip) := by
  have hcopy (a b : Fin 16) (c : Prop) [Decidable c] :
    Plain (if c then [.ldr x1 cpuReg (offXmm a), .str x1 cpuReg (offXmm b)]
      else [.ldrW x1 cpuReg (offXmm a), .strW x1 cpuReg (offXmm b)]) :=
    .ite (.cons (readable_offXmm a) (.one (writable_offXmm b)))
      (.cons (readable_offXmmLow a) (.one (writable_offXmmLow b)))
  have hreg : EmitsFor lk o 0 (puts (if (if o.mand = 0xF2 then 8 else 4) = 8 then
      [.ldr x1 cpuReg (if o.op2 == 0x11 then offXmm o.xreg else offXmm o.xsrc),
        .str x1 cpuReg (if o.op2 == 0x11 then offXmm o.xsrc else offXmm o.xreg)]
      else [.ldrW x1 cpuReg (if o.op2 == 0x11 then offXmm o.xreg else offXmm o.xsrc),
        .strW x1 cpuReg (if o.op2 == 0x11 then offXmm o.xsrc else offXmm o.xreg)])) := by
    cases o.op2 == 0x11
    · exact emits_plain (hcopy _ _ _)
    · exact emits_plain (hcopy _ _ _)
  have hvalue : EmitsFor lk o 0 (put (.ldr x2 cpuReg (offXmm o.xreg))) := emits_insn (readable_offXmm _)
  have hsize : (if o.mand = 0xF2 then 8 else 4) ∈ [o.size, 1, 4, 8] := by
    split
    · exact eight_mem
    · exact four_mem
  have hlow : plainInsn (.str x0 cpuReg (offXmm o.xreg)) = true := writable_offXmm _
  have hhigh : plainInsn (.str zr cpuReg (offXmm o.xreg + 8)) = true := writable_offXmmHigh _
  have hload : EmitsFor lk o 2 (putLoad lk (if o.mand = 0xF2 then 8 else 4) >>= fun _ =>
      puts [.str x0 cpuReg (offXmm o.xreg), .str zr cpuReg (offXmm o.xreg + 8)]) :=
    ((emits_load _).bind fun _ => emits_plain (.cons hlow (.one hhigh))).mono (by decide)
  exact .ite (hreg.mono (Nat.zero_le 2))
    ((emits_memEa rip).bind fun _ => .ite (hvalue.bind fun _ => emits_store hsize) hload)

lemma emits_mov128 (rip : BitVec 64) : EmitsFor lk o 1 (putSseMov128 lk o rip) := by
  have hcopy (a b : Fin 16) : Plain [.ldr x1 cpuReg (offXmm a), .ldr x2 cpuReg (offXmm a + 8), .str x1 cpuReg (offXmm b),
      .str x2 cpuReg (offXmm b + 8)] :=
    .cons (readable_offXmm a) (.cons (readable_offXmmHigh a) (.cons (writable_offXmm b) (.one (writable_offXmmHigh b))))
  have hreg (store : Bool) : EmitsFor lk o 0 (puts [.ldr x1 cpuReg (if store then offXmm o.xreg else offXmm o.xsrc),
      .ldr x2 cpuReg ((if store then offXmm o.xreg else offXmm o.xsrc) + 8),
      .str x1 cpuReg (if store then offXmm o.xsrc else offXmm o.xreg),
      .str x2 cpuReg ((if store then offXmm o.xsrc else offXmm o.xreg) + 8)]) := by
    cases store
    · exact emits_plain (hcopy _ _)
    · exact emits_plain (hcopy _ _)
  have hhelper : (if o.op2 &&& 1 != 0 then Helper.st128 else .ld128) = .ld128 ∨
      (if o.op2 &&& 1 != 0 then Helper.st128 else .ld128) = .st128 := by
    split
    · exact .inr rfl
    · exact .inl rfl
  exact .ite ((hreg _).mono (Nat.zero_le 1)) ((emits_memEa rip).bind fun _ =>
    (emits_pairCall hhelper (.inl ⟨o.xreg, rfl⟩)).bind fun _ => emits_fault)

lemma emits_bitwise (rip : BitVec 64) : EmitsFor lk o 1 (putSseBitwise lk o rip) := by
  have hpair : EmitsFor lk o 0 (puts [.ldr x4 cpuReg (offTmp 0), .ldr x5 cpuReg (offTmp 1)]) :=
    emits_plain (.cons rfl (.one rfl))
  have hreg : EmitsFor lk o 0 (puts [.ldr x4 cpuReg (offXmm o.xsrc), .ldr x5 cpuReg (offXmm o.xsrc + 8)]) :=
    emits_plain (.cons (readable_offXmm _) (.one (readable_offXmmHigh _)))
  have hops : Plain (bitwiseCode o.op2) := by
    unfold bitwiseCode
    exact .ite (.cons rfl (.one rfl)) (.ite (.cons rfl (.one rfl)) (.ite (.cons rfl (.one rfl)) (.cons rfl (.one rfl))))
  have hload : Plain [.ldr x1 cpuReg (offXmm o.xreg), .ldr x2 cpuReg (offXmm o.xreg + 8)] :=
    .cons (readable_offXmm _) (.one (readable_offXmmHigh _))
  have hstore : Plain [.str x1 cpuReg (offXmm o.xreg), .str x2 cpuReg (offXmm o.xreg + 8)] :=
    .cons (writable_offXmm _) (.one (writable_offXmmHigh _))
  have hrest : EmitsFor lk o 0 (puts ([A64.ldr x1 cpuReg (offXmm o.xreg), A64.ldr x2 cpuReg (offXmm o.xreg + 8)] ++
      bitwiseCode o.op2 ++ [A64.str x1 cpuReg (offXmm o.xreg), A64.str x2 cpuReg (offXmm o.xreg + 8)])) :=
    emits_plain ((hload.append hops).append hstore)
  exact .ite ((emits_memEa rip).bind fun _ => (emits_pairCall (.inl rfl) (.inr rfl)).bind fun _ =>
    emits_fault.bind fun _ =>
      hpair.bind fun _ => hrest)
    ((hreg.bind fun _ => hrest).mono (Nat.zero_le 1))

lemma plain_nanArgs (dbl unary : Bool) : Plain (nanArgs dbl unary) := by
  have hargs (a b c : A64) (ha : plainInsn a = true) (hb : plainInsn b = true) (hc : plainInsn c = true) :
      Plain [a, b, c] :=
    .cons ha (.cons hb (.one hc))
  unfold nanArgs
  exact (Plain.ite (hargs _ _ _ rfl rfl rfl) (hargs _ _ _ rfl rfl rfl)).append (plain_imm rfl _)

lemma emits_nan (op2 : BitVec 8) (dbl : Bool) : EmitsFor lk o 1 (putNan lk op2 dbl) := by
  have hcmp : EmitsFor lk o 0 (put (fcmpF dbl 0 0)) := emits_insn (plain_fcmpF dbl 0 0)
  have hcall :
      EmitsFor lk o 1 (puts (nanArgs dbl (op2 == 0x51)) >>= fun _ => putCall lk (if dbl then .nanD else .nanS)) := by
    have hcalls : callCount (nanArgs dbl (op2 == 0x51) ++ callCode lk (if dbl then .nanD else .nanS)) = 1 := by
      rw [calls_append, calls_callCode, (plain_nanArgs dbl _).calls]
    rw [puts_call, ← hcalls]
    exact emits_code fun _ => .nan dbl _
  have hmov : EmitsFor lk o 0 (put (if dbl then .fmovDx 0 x0 else .fmovSw 0 x0)) := emits_insn (by cases dbl <;> rfl)
  have hover : EmitsFor lk o 1 (putOver (.bcond .vc) (puts (nanArgs dbl (op2 == 0x51)) >>= fun _ =>
      putCall lk (if dbl then .nanD else .nanS) >>= fun _ => put (if dbl then .fmovDx 0 x0 else .fmovSw 0 x0))) :=
    emits_over (p := .bcond .vc) (fun _ _ => rfl) (fun _ => rfl) (fun _ _ _ => rfl) (fun _ => rfl) (fun _ _ => .bcond _ _)
      (hcall.bind fun _ => hmov)
  exact hcmp.bind fun _ => hover

lemma emits_arith (rip : BitVec 64) : EmitsFor lk o 2 (putSseArith lk o rip) := by
  have hdst : EmitsFor lk o 0 (puts (if o.op2 = 0x51 then []
      else [ldrF (o.mand == 0xF2) 0 (offXmm o.xreg), ldrF (o.mand == 0xF2) 2 (offXmm o.xreg)])) :=
    emits_plain (.ite .nil (.cons (plain_ldrF _) (.one (plain_ldrF _))))
  have hops : EmitsFor lk o 0 (puts (arithCode o.op2 (o.mand == 0xF2))) := by
    refine emits_plain ?_
    have hop (op : FOp) : Plain [fopF (o.mand == 0xF2) op 0 0 1] := .one (plain_fopF _ op 0 0 1)
    have hsqrt : plainInsn (if o.mand == 0xF2 then .fsqrtD 0 1 else .fsqrtS 0 1) = true := by split <;> rfl
    have hsel (c : A64Cond) :
        Plain [fcmpF (o.mand == 0xF2) 0 1, if o.mand == 0xF2 then .fcselD 0 0 1 c else .fcselS 0 0 1 c] :=
      .cons (plain_fcmpF _ _ _) (.one (by split <;> rfl))
    exact .ite (hop _) (.ite (hop _) (.ite (hop _) (.ite (hop _) (.ite (.one hsqrt) (.ite (hsel _) (hsel _))))))
  have hstore : EmitsFor lk o 0 (put (strF (o.mand == 0xF2) 0 (offXmm o.xreg))) := emits_insn (plain_strF _)
  exact (emits_fsrc rip _).bind fun _ => hdst.bind fun _ => hops.bind fun _ =>
    .ite (hstore.mono (Nat.zero_le 1)) ((emits_nan o.op2 _).bind fun _ => hstore)

lemma emits_cmp (rip : BitVec 64) : EmitsFor lk o 1 (putSseCmp lk o rip) := by
  have hcmp : EmitsFor lk o 0 (puts [ldrF (o.mand == 0xF2) 0 (offXmm o.xreg), fcmpF (o.mand == 0xF2) 0 1]) :=
    emits_plain (.cons (plain_ldrF _) (.one (plain_fcmpF _ _ _)))
  have hset : EmitsFor lk o 0 (puts (if o.mand == 0xF2 then [.csetm x3 (cmpCond o.pred), .str x3 cpuReg (offXmm o.xreg)]
      else [.csetmW x3 (cmpCond o.pred), .strW x3 cpuReg (offXmm o.xreg)])) :=
    emits_plain (.ite (.cons rfl (.one (writable_offXmm _))) (.cons rfl (.one (writable_offXmmLow _))))
  exact (emits_fsrc rip _).bind fun _ => hcmp.bind fun _ => hset

lemma emits_comis (rip : BitVec 64) : EmitsFor lk o 2 (putSseComis lk o rip) := by
  have hmov : EmitsFor lk o 0 (put (.mov x2 x0)) := emits_insn rfl
  have hreg : EmitsFor lk o 0
      (put (if o.mand == 0x66 then .ldr x2 cpuReg (offXmm o.xsrc) else .ldrW x2 cpuReg (offXmm o.xsrc))) := by
    refine emits_insn ?_
    split
    · exact readable_offXmm _
    · exact readable_offXmmLow _
  have hdst :
      plainInsn (if o.mand == 0x66 then .ldr x1 cpuReg (offXmm o.xreg) else .ldrW x1 cpuReg (offXmm o.xreg)) = true := by
    split
    · exact readable_offXmm _
    · exact readable_offXmmLow _
  have hhelper : takesCpu (if o.mand == 0x66 then .comisd else .comiss) = true := by split <;> rfl
  have hcall :
      EmitsFor lk o 1 (puts [.mov x0 cpuReg] >>= fun _ => putCall lk (if o.mand == 0x66 then .comisd else .comiss)) :=
    emits_call hhelper fun _ h => absurd h List.not_mem_nil
  have hrest :
    EmitsFor lk o 1 (puts [if o.mand == 0x66 then .ldr x1 cpuReg (offXmm o.xreg) else .ldrW x1 cpuReg (offXmm o.xreg),
      .mov x0 cpuReg] >>= fun _ => putCall lk (if o.mand == 0x66 then .comisd else .comiss)) :=
    (emits_insn hdst).bind fun _ => hcall
  exact .ite ((emits_memEa rip).bind fun _ => (emits_load _).bind fun _ => hmov.bind fun _ => hrest)
    ((hreg.bind fun _ => hrest).mono (by decide))

lemma emits_cvtFrom (rip : BitVec 64) : EmitsFor lk o 1 (putSseCvtFrom lk o rip) := by
  have hmov : EmitsFor lk o 0 (put (.mov x1 x0)) := emits_insn rfl
  have hreg : EmitsFor lk o 0 (put (.ldr x1 cpuReg (offR o.xsrc))) := emits_insn (readable_offR _)
  have hcvt : EmitsFor lk o 0 (put (if o.mand == 0xF2 then (if o.isize = 8 then .scvtfDx 0 x1 else .scvtfDw 0 x1)
      else (if o.isize = 8 then .scvtfSx 0 x1 else .scvtfSw 0 x1))) := by
    refine emits_insn ?_
    split
    · split <;> rfl
    · split <;> rfl
  have hstore : EmitsFor lk o 0 (put (strF (o.mand == 0xF2) 0 (offXmm o.xreg))) := emits_insn (plain_strF _)
  have hrest := hcvt.bind fun _ => hstore
  exact .ite ((emits_memEa rip).bind fun _ => (emits_load _).bind fun _ => hmov.bind fun _ => hrest)
    ((hreg.bind fun _ => hrest).mono (Nat.zero_le 1))

lemma emits_cvtTo (rip : BitVec 64) : EmitsFor lk o 2 (putSseCvtTo lk o rip) := by
  have hmov : EmitsFor lk o 0 (put (.mov x1 x0)) := emits_insn rfl
  have hreg : EmitsFor lk o 0 (put (.ldr x1 cpuReg (offXmm o.xsrc))) := emits_insn (readable_offXmm _)
  have hstore : EmitsFor lk o 0 (put (.str x0 cpuReg (offR o.xreg))) := emits_insn (writable_offR _)
  have hcall :
    EmitsFor lk o 1 (puts ([A64.mov x0 cpuReg] ++ immCode x2 (BitVec.ofNat 64 (if o.mand = 0xF2 then 8 else 4)) ++
      immCode x3 (if o.op2 = 0x2D then 1 else 0) ++ immCode x4 (BitVec.ofNat 64 o.isize)) >>=
        fun _ => putCall lk .cvt2si) :=
    emits_call rfl (arg_append (arg_append (arg_imm rfl _) (arg_imm rfl _)) (arg_imm rfl _))
  have hrest := hcall.bind fun _ => hstore
  exact .ite ((emits_memEa rip).bind fun _ => (emits_load _).bind fun _ => hmov.bind fun _ => hrest)
    ((hreg.bind fun _ => hrest).mono (by decide))

lemma emits_cvtFloat (rip : BitVec 64) : EmitsFor lk o 1 (putSseCvtFloat lk o rip) := by
  have hcvt : EmitsFor lk o 0 (puts (if o.mand == 0xF2 then [.fcvtSd 0 1, .strS 0 cpuReg (offXmm o.xreg)]
      else [.fcvtDs 0 1, .strD 0 cpuReg (offXmm o.xreg)])) :=
    emits_plain (.ite (.cons rfl (.one (writable_offXmmLow _))) (.cons rfl (.one (writable_offXmm _))))
  exact (emits_fsrc rip _).bind fun _ => hcvt

lemma emits_sse (rip : BitVec 64) : EmitsFor lk o 2 (putSse lk o rip) := by
  unfold putSse
  cases jitSse o.op2 with
  | mov => exact .ite (emits_movScalar rip) ((emits_mov128 rip).mono (by decide))
  | bitwise => exact (emits_bitwise rip).mono (by decide)
  | arith => exact emits_arith rip
  | cmp => exact (emits_cmp rip).mono (by decide)
  | comis => exact emits_comis rip
  | cvtFrom => exact (emits_cvtFrom rip).mono (by decide)
  | cvtTo => exact emits_cvtTo rip
  | cvtFloat => exact (emits_cvtFloat rip).mono (by decide)
  | none => exact Emits.setFull.mono (Nat.zero_le 2)

/-- Every instruction is emitted in these pieces, with four calls at most. -/
theorem emits_putInsn (rip : BitVec 64) : EmitsFor lk o 4 (putInsn lk o rip) := by
  unfold putInsn
  cases o.kind with
  | nop => exact emits_skip
  | sse => exact (emits_sse rip).mono (by decide)
  | rr => exact emits_rr.mono (by decide)
  | ri => exact emits_ri.mono (by decide)
  | rm => exact (emits_rm rip).mono (by decide)
  | shift => exact emits_shift rip
  | imul => exact (emits_imul rip).mono (by decide)
  | setcc => exact (emits_setcc rip).mono (by decide)
  | movx => exact (emits_movx rip).mono (by decide)
  | mr => exact emits_mem rip
  | mi => exact emits_mem rip
  | lea => exact emits_lea.mono (by decide)
  | push => exact (emits_push rip).mono (by decide)
  | pop => exact (emits_pop rip).mono (by decide)
  | jmp =>
    have htarget : EmitsFor lk o 0 (putImm x0 o.target) := emits_plain (plain_imm rfl _)
    exact (htarget.bind fun _ => emits_leaves).mono (by decide)
  | jcc => exact emits_jcc.mono (by decide)
  | call => exact (emits_callRel rip).mono (by decide)
  | ret => exact (emits_ret rip).mono (by decide)
  | callm => exact (emits_callm rip).mono (by decide)
  | jmpm => exact (emits_jmpm rip).mono (by decide)

end Emitted

end Rashid.Proofs
