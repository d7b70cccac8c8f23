import Rashid.Proofs.BlockShape
import Rashid.Proofs.InlineFlags

/-!
# Running a compiled block

From its entry on, a compiled block always comes to its end: each piece runs, whatever the
registers hold, and keeps the cpu pointer and the return address. So what every piece keeps of
the cpu, the block keeps.
-/

namespace Rashid.Proofs

/-- What compiled code relies on at every piece. -/
structure Ready (env : A64Env) (s : A64State) : Prop where
  cpu : s.x cpuReg = env.cpuPtr
  stack : s.stack = [env.retAddr]

/-- Only the guest's registers, its scratch and the address of the instruction differ. -/
def Scratched (c c' : Cpu) : Prop :=
  ∃ r x rip t, c' = { c with r := r, xmm := x, curRip := rip, jitTmp := t }

namespace Scratched

lemma refl (c : Cpu) : Scratched c c := ⟨c.r, c.xmm, c.curRip, c.jitTmp, rfl⟩

lemma trans {a b c : Cpu} (h : Scratched a b) (h' : Scratched b c) : Scratched a c := by
  obtain ⟨r, x, rip, t, rfl⟩ := h
  obtain ⟨r', x', rip', t', rfl⟩ := h'
  exact ⟨r', x', rip', t', rfl⟩

end Scratched

/-! ### Plain instructions -/

section Plain

variable {env : A64Env} {s : A64State}

/-- A state that code may go on from, with the same cpu but for scratch. -/
structure Carried (env : A64Env) (s s' : A64State) : Prop where
  ready : Ready env s'
  cpu : Scratched s.cpu s'.cpu

namespace Carried

lemma refl (h : Ready env s) : Carried env s s := ⟨h, .refl _⟩

lemma trans {s' s'' : A64State} (h : Carried env s s') (h' : Carried env s' s'') : Carried env s s'' :=
  ⟨h'.ready, h.cpu.trans h'.cpu⟩

lemma wx (h : Ready env s) {d : A64Reg} (hd : (d != cpuReg) = true) (v : BitVec 64) : Carried env s (s.wx d v) := by
  have hne : cpuReg ≠ d := fun he => by rw [he, bne_self_eq_false] at hd; cases hd
  refine ⟨⟨(wx_x_of_ne hne).trans h.cpu, wx_stack.trans h.stack⟩, ?_⟩
  rw [wx_cpu]
  exact .refl _

lemma ww (h : Ready env s) {d : A64Reg} (hd : (d != cpuReg) = true) (v : BitVec 32) : Carried env s (s.ww d v) := wx h hd _

lemma wd (h : Ready env s) (d : A64Reg) (v : BitVec 64) : Carried env s (s.wd d v) := ⟨⟨h.cpu, h.stack⟩, .refl _⟩

lemma ws (h : Ready env s) (d : A64Reg) (v : BitVec 32) : Carried env s (s.ws d v) := wd h d _

lemma flags (h : Ready env s) (f : Nzcv) : Carried env s { s with f := f } := ⟨⟨h.cpu, h.stack⟩, .refl _⟩

end Carried

lemma load_field {f : CpuField} {size : Nat} (h : loadsField f size = true) (p : BitVec 64) (c : Cpu) :
    ∃ v, f.load p c size = some v := by
  unfold loadsField at h
  cases f with
  | xlo i =>
    rcases Bool.or_eq_true_iff.mp h with h | h
    · exact ⟨_, if_pos (beq_iff_eq.mp h)⟩
    · rw [beq_iff_eq.mp h]
      exact ⟨_, rfl⟩
  | _ => exact ⟨_, if_pos (beq_iff_eq.mp h)⟩

lemma store_field {f : CpuField} {size : Nat} (h : storesField f size = true) (c : Cpu) (v : BitVec 64) :
    ∃ c', f.store c v size = some c' ∧ Scratched c c' := by
  unfold storesField at h
  cases f with
  | r i =>
    rcases Bool.or_eq_true_iff.mp h with h | h
    · rw [beq_iff_eq.mp h]
      exact ⟨_, rfl, _, c.xmm, c.curRip, c.jitTmp, rfl⟩
    · rw [beq_iff_eq.mp h]
      exact ⟨_, rfl, _, c.xmm, c.curRip, c.jitTmp, rfl⟩
  | xlo i =>
    rcases Bool.or_eq_true_iff.mp h with h | h
    · rw [beq_iff_eq.mp h]
      exact ⟨_, rfl, c.r, _, c.curRip, c.jitTmp, rfl⟩
    · rw [beq_iff_eq.mp h]
      exact ⟨_, rfl, c.r, _, c.curRip, c.jitTmp, rfl⟩
  | xhi i => exact ⟨_, if_pos (beq_iff_eq.mp h), c.r, _, c.curRip, c.jitTmp, rfl⟩
  | curRip => exact ⟨_, if_pos (beq_iff_eq.mp h), c.r, c.xmm, _, c.jitTmp, rfl⟩
  | tmp i => exact ⟨_, if_pos (beq_iff_eq.mp h), c.r, c.xmm, c.curRip, _, rfl⟩
  | flags => cases h
  | as => cases h
  | running => cases h

lemma loads (hs : Ready env s) {n : A64Reg} {off size : Nat} (h : readable n off size = true) :
    ∃ v, loadAt env s n off size = some v := by
  unfold readable at h
  unfold loadAt
  by_cases hn : n = cpuReg
  · subst hn
    rw [if_pos rfl] at h
    rw [if_pos rfl, if_pos hs.cpu]
    cases hf : cpuField off with
    | none =>
      rw [hf] at h
      cases h
    | some f =>
      rw [hf] at h
      exact load_field h env.asPtr s.cpu
  · rw [if_neg hn] at h
    have h9 : n ≠ x9 := bne_iff_ne.mp h
    rw [if_neg hn, if_neg h9]
    exact ⟨_, rfl⟩

lemma stores_at (hs : Ready env s) {n : A64Reg} {off size : Nat} (h : writable n off size = true) (v : BitVec 64) :
    ∃ s', storeAt env s n off v size = some s' ∧ Carried env s s' := by
  unfold writable at h
  obtain ⟨hn, hfield⟩ := Bool.and_eq_true_iff.mp h
  obtain rfl : n = cpuReg := beq_iff_eq.mp hn
  unfold storeAt
  rw [if_pos rfl, if_pos hs.cpu]
  cases hf : cpuField off with
  | none =>
    rw [hf] at hfield
    cases hfield
  | some f =>
    rw [hf] at hfield
    obtain ⟨c', hstore, hc⟩ := store_field (f := f) hfield s.cpu v
    refine ⟨{ s with cpu := c' }, ?_, ⟨hs.cpu, hs.stack⟩, hc⟩
    rw [Option.bind_some, hstore]
    rfl

/-- A plain instruction always passes control on. -/
lemma plain_step {i : A64} (hi : plainInsn i = true) (hs : Ready env s) :
    ∃ s', i.step env s = some s' ∧ Carried env s s' := by
  have hload (d n : A64Reg) (off size : Nat) (h : (d != cpuReg && readable n off size) = true) :
      ∃ s', (loadAt env s n off size).map (s.wx d) = some s' ∧ Carried env s s' := by
    obtain ⟨hd, hread⟩ := Bool.and_eq_true_iff.mp h
    obtain ⟨v, hv⟩ := loads hs hread
    exact ⟨s.wx d v, by rw [hv]; rfl, .wx hs hd v⟩
  have hloadF (d n : A64Reg) (off size : Nat) (h : readable n off size = true) :
      ∃ s', (loadAt env s n off size).map (s.wd d) = some s' ∧ Carried env s s' := by
    obtain ⟨v, hv⟩ := loads hs h
    exact ⟨s.wd d v, by rw [hv]; rfl, .wd hs d v⟩
  cases i with
  | ldr t n off => exact hload t n off 8 hi
  | ldrW t n off => exact hload t n off 4 hi
  | ldrh t n off => exact hload t n off 2 hi
  | ldrb t n off => exact hload t n off 1 hi
  | ldrD t n off => exact hloadF t n off 8 hi
  | ldrS t n off => exact hloadF t n off 4 hi
  | str t n off => exact stores_at hs hi _
  | strW t n off => exact stores_at hs hi _
  | strb t n off => exact stores_at hs hi _
  | strD t n off => exact stores_at hs hi _
  | strS t n off => exact stores_at hs hi _
  | strh t n off => cases hi
  | push t => cases hi
  | pop t => cases hi
  | blr n => cases hi
  | b d => cases hi
  | bcond c d => cases hi
  | cbzW t d => cases hi
  | ret => cases hi
  | cmp0 n => exact ⟨_, rfl, .flags hs _⟩
  | addsZr n m w => exact ⟨_, rfl, .flags hs _⟩
  | subsZr n m w => exact ⟨_, rfl, .flags hs _⟩
  | andsZr n m w => exact ⟨_, rfl, .flags hs _⟩
  | fcmpD n m => exact ⟨_, rfl, .flags hs _⟩
  | fcmpS n m => exact ⟨_, rfl, .flags hs _⟩
  | fopD op d n m => exact ⟨_, rfl, .wd hs d _⟩
  | fopS op d n m => exact ⟨_, rfl, .ws hs d _⟩
  | fsqrtD d n => exact ⟨_, rfl, .wd hs d _⟩
  | fsqrtS d n => exact ⟨_, rfl, .ws hs d _⟩
  | fcselD d n m c => exact ⟨_, rfl, .wd hs d _⟩
  | fcselS d n m c => exact ⟨_, rfl, .ws hs d _⟩
  | fmovDx d n => exact ⟨_, rfl, .wd hs d _⟩
  | fmovSw d n => exact ⟨_, rfl, .ws hs d _⟩
  | scvtfDx d n => exact ⟨_, rfl, .wd hs d _⟩
  | scvtfDw d n => exact ⟨_, rfl, .wd hs d _⟩
  | scvtfSx d n => exact ⟨_, rfl, .ws hs d _⟩
  | scvtfSw d n => exact ⟨_, rfl, .ws hs d _⟩
  | fcvtSd d n => exact ⟨_, rfl, .ws hs d _⟩
  | fcvtDs d n => exact ⟨_, rfl, .wd hs d _⟩
  | movW d m => exact ⟨_, rfl, .ww hs hi _⟩
  | addW d n m => exact ⟨_, rfl, .ww hs hi _⟩
  | subW d n m => exact ⟨_, rfl, .ww hs hi _⟩
  | andW d n m => exact ⟨_, rfl, .ww hs hi _⟩
  | orrW d n m => exact ⟨_, rfl, .ww hs hi _⟩
  | eorW d n m => exact ⟨_, rfl, .ww hs hi _⟩
  | mulW d n m => exact ⟨_, rfl, .ww hs hi _⟩
  | sxtW d n bits => exact ⟨_, rfl, .ww hs hi _⟩
  | csetmW d c => exact ⟨_, rfl, .ww hs hi _⟩
  | fmovWs d n => exact ⟨_, rfl, .ww hs hi _⟩
  | _ => exact ⟨_, rfl, .wx hs hi _⟩

lemma plain_runs {l : List A64} (hl : Plain l) (hs : Ready env s) : ∃ s', Runs env l s s' ∧ Carried env s s' := by
  induction l generalizing s with
  | nil => exact ⟨s, .nil, .refl hs⟩
  | cons i l ih =>
    obtain ⟨s1, hstep, h1⟩ := plain_step (hl i List.mem_cons_self) hs
    obtain ⟨s2, hrun, h2⟩ := ih (fun j hj => hl j (List.mem_cons_of_mem i hj)) h1.ready
    exact ⟨s2, .cons hstep hrun, h1.trans h2⟩

end Plain

/-! ### Calls -/

section Calls

variable {env : A64Env} {s : A64State}

/-- Routines with addresses of their own are found again. -/
lemma find_addr (lk : Link) (h : Helper) : lk.find (lk.addr h) = some h := by
  have hsame : (fun g => lk.addr g == lk.addr h) = fun g => g == h := by
    funext g
    rw [Bool.eq_iff_iff, beq_iff_eq, beq_iff_eq]
    exact ⟨lk.inj g h, congrArg lk.addr⟩
  unfold Link.find
  rw [hsame]
  cases h <;> rfl

lemma Ready.afterCall (hs : Ready env s) (v : Option (BitVec 64)) (c : Cpu) : Ready env (s.afterCall env v c) :=
  ⟨hs.cpu, hs.stack⟩

lemma call_runs {h : Helper} {v : Option (BitVec 64)} {c : Cpu}
    (hcall : callRoutine env (s.wx x9 (env.lk.addr h)) h = some (v, c)) :
    Runs env (callCode env.lk h) s ((s.wx x9 (env.lk.addr h)).afterCall env v c) := by
  have himm : Runs env (immCode x9 (env.lk.addr h)) s (s.wx x9 (env.lk.addr h)) := imm_runs (by decide) _
  refine himm.append (.one ?_)
  have h9 : (s.wx x9 (env.lk.addr h)).rx x9 = env.lk.addr h := (rx_of_ne (by decide)).trans (wx_x_same (by decide))
  show callHelper env (s.wx x9 (env.lk.addr h)) ((s.wx x9 (env.lk.addr h)).rx x9) = _
  rw [h9, callHelper, find_addr]
  show (callRoutine env (s.wx x9 (env.lk.addr h)) h).map _ = _
  rw [hcall]
  rfl

/-- The cpu pointer goes into x0 first. -/
lemma cpu_arg (hs : Ready env s) : ∃ s', Runs env [.mov x0 cpuReg] s s' ∧ Ready env s' ∧ s'.cpu = s.cpu ∧
    s'.x x0 = env.cpuPtr ∧ ∀ r, r ≠ x0 → s'.x r = s.x r := by
  have hrx : s.rx cpuReg = env.cpuPtr := (rx_of_ne (by decide)).trans hs.cpu
  refine ⟨s.wx x0 env.cpuPtr, .one ?_, (Carried.wx hs (by decide) _).ready, wx_cpu, wx_x_same (by decide),
    fun r hr => wx_x_of_ne hr⟩
  show some (s.wx x0 (s.rx cpuReg)) = _
  rw [hrx]

/-- The other arguments leave it there. -/
lemma args_run {l : List A64} (hl : ∀ i ∈ l, argInsn i = true) (hs : Ready env s) :
    ∃ s', Runs env l s s' ∧ Ready env s' ∧ s'.cpu = s.cpu ∧ s'.x x0 = s.x x0 := by
  induction l generalizing s with
  | nil => exact ⟨s, .nil, hs, rfl, rfl⟩
  | cons i l ih =>
    have hone : ∃ d v, (d != x0 && d != cpuReg) = true ∧ i.step env s = some (s.wx d v) := by
      have hi := hl i List.mem_cons_self
      cases i with
      | movz d imm hw => exact ⟨d, _, hi, rfl⟩
      | movk d imm hw => exact ⟨d, _, hi, rfl⟩
      | mov d m => exact ⟨d, _, hi, rfl⟩
      | _ => cases hi
    obtain ⟨d, v, hd, hstep⟩ := hone
    obtain ⟨h0, hcpu⟩ := Bool.and_eq_true_iff.mp hd
    have h0d : x0 ≠ d := fun he => bne_iff_ne.mp h0 he.symm
    obtain ⟨s', hrun, hready, hsame, hx0⟩ := ih (fun j hj => hl j (List.mem_cons_of_mem i hj)) (Carried.wx hs hcpu v).ready
    exact ⟨s', .cons hstep hrun, hready, hsame.trans wx_cpu, hx0.trans (wx_x_of_ne h0d)⟩

end Calls

/-! ### Effects -/

/-- The sizes and the flags that decoding and the liveness analysis leave in an instruction. -/
structure Sound (o : Insn) : Prop where
  size : o.size ∈ [1, 4, 8]
  need : o.fneed &&& ~~~flAll = 0

/-- A relation between cpus that everything a piece can do is within, graded by the calls made. -/
structure Effect (fp : Fp) (check : Bool) (R : Nat → Cpu → Cpu → Prop) : Prop where
  scratch {c c' : Cpu} : Scratched c c' → R 0 c c'
  trans {m n : Nat} {a b c : Cpu} : R m a b → R n b c → R (m + n) a c
  mono {m n : Nat} {a b : Cpu} : R m a b → m ≤ n → R n a b
  routine {h : Helper} {p : M (Option (BitVec 64))} {a1 a2 a3 a4 : BitVec 64} (c : Cpu) : takesCpu h = true →
    runHelper fp a1 a2 a3 a4 h = some p → R 1 c (p c).2
  st (a v : BitVec 64) {size : Nat} (c : Cpu) : size ∈ [1, 4, 8] → R 1 c (rsdISt a v size c).2
  ld128 (a : BitVec 64) (c : Cpu) : R 1 c (ld128 a c).2
  st128 (a : BitVec 64) (v : Xmm) (c : Cpu) : R 1 c (st128 a v c).2
  flags (need word : BitVec 32) (c : Cpu) : need &&& ~~~flAll = 0 →
    R 0 c { c with flags := (c.flags &&& ~~~need) ||| (word &&& need) }
  store (a v : BitVec 64) {size : Nat} (c : Cpu) : size ∈ [1, 4, 8] →
    R (if check then 1 else 0) c { (if check then (logWrite a v size c).2 else c) with mem := storeLE c.mem a v size }

section Pieces

variable {env : A64Env} {check : Bool} {R : Nat → Cpu → Cpu → Prop} {s : A64State} {o : Insn} {l : List A64}

/-- Code that runs to its end within `R`. -/
def Effects (env : A64Env) (R : Nat → Cpu → Cpu → Prop) (k : Nat) (l : List A64) (s : A64State) : Prop :=
  ∃ s', Runs env l s s' ∧ Ready env s' ∧ R k s.cpu s'.cpu

lemma takesCpu_routine {h : Helper} (hh : takesCpu h = true) {t : A64State} (ht : t.x x0 = env.cpuPtr) :
    ∃ p, runHelper env.fp (t.x x1) (t.x x2) (t.x x3) (t.x x4) h = some p ∧ callRoutine env t h = some (p t.cpu) := by
  cases h with
  | nanD => cases hh
  | nanS => cases hh
  | ld128 => cases hh
  | st128 => cases hh
  | st => cases hh
  | wlog => cases hh
  | _ => exact ⟨_, rfl, if_pos ht⟩

lemma routine_effects (he : Effect env.fp check R) {args : List A64} {h : Helper} (hh : takesCpu h = true)
    (hargs : ∀ i ∈ args, argInsn i = true) (hs : Ready env s) :
    Effects env R 1 (.mov x0 cpuReg :: args ++ callCode env.lk h) s := by
  obtain ⟨s1, hrun1, hs1, hcpu1, h01, -⟩ := cpu_arg hs
  obtain ⟨s2, hrun2, hs2, hcpu2, h02⟩ := args_run hargs hs1
  have h0 : (s2.wx x9 (env.lk.addr h)).x x0 = env.cpuPtr := (wx_x_of_ne (by decide)).trans (h02.trans h01)
  obtain ⟨p, hp, hcall⟩ := takesCpu_routine hh h0
  refine ⟨_, (hrun1.append hrun2).append (call_runs hcall), (Carried.wx hs2 (by decide) _).ready.afterCall _ _, ?_⟩
  have hcpu : (s2.wx x9 (env.lk.addr h)).cpu = s.cpu := wx_cpu.trans (hcpu2.trans hcpu1)
  rw [hcpu]
  exact he.routine s.cpu hh hp

lemma size_toNat {size : Nat} (h : size ∈ [1, 4, 8]) : (BitVec.ofNat 64 size).toNat = size := by
  simp only [List.mem_cons, List.not_mem_nil, or_false] at h
  rcases h with rfl | rfl | rfl <;> rfl

lemma slowStore_effects (he : Effect env.fp check R) {size : Nat} (hsize : size ∈ [1, 4, 8]) (hs : Ready env s) :
    Effects env R 1 (.mov x0 cpuReg :: immCode x3 (BitVec.ofNat 64 size) ++ callCode env.lk .st) s := by
  obtain ⟨s1, hrun1, hs1, hcpu1, h01, hx1⟩ := cpu_arg hs
  have hrun2 : Runs env (immCode x3 (BitVec.ofNat 64 size)) s1 (s1.wx x3 (BitVec.ofNat 64 size)) := imm_runs (by decide) _
  let s2 := (s1.wx x3 (BitVec.ofNat 64 size)).wx x9 (env.lk.addr .st)
  have h0 : s2.x x0 = env.cpuPtr := (wx_x_of_ne (by decide)).trans ((wx_x_of_ne (by decide)).trans h01)
  have h3 : (s2.x x3).toNat = size := by
    rw [show s2.x x3 = BitVec.ofNat 64 size from (wx_x_of_ne (by decide)).trans (wx_x_same (by decide))]
    exact size_toNat hsize
  have hcpu : s2.cpu = s.cpu := wx_cpu.trans (wx_cpu.trans hcpu1)
  have hcall : callRoutine env s2 .st = some (none, (rsdISt (s2.x x1) (s2.x x2) size s.cpu).2) := by
    rw [← hcpu, ← h3]
    exact if_pos h0
  have hs2 : Ready env s2 := (Carried.wx (Carried.wx hs1 (by decide) _).ready (by decide) _).ready
  exact ⟨_, (hrun1.append hrun2).append (call_runs hcall), hs2.afterCall _ _, he.st _ _ s.cpu hsize⟩

lemma pair_off {off : Nat} (h : (∃ i, off = offXmm i) ∨ off = offTmp 0) :
    (∃ i, cpuField off = some (.xlo i)) ∨ cpuField off = some (.tmp 0) := by
  rcases h with ⟨i, rfl⟩ | rfl
  · exact .inl ⟨i, cpuField_offXmm i⟩
  · exact .inr (cpuField_offTmp 0)

lemma pair_small {off : Nat} (h : (∃ i, off = offXmm i) ∨ off = offTmp 0) : off < 2 ^ 64 := by
  rcases h with ⟨i, rfl⟩ | rfl
  · have hi := i.isLt
    show 128 + i.val * 16 < 2 ^ 64
    omega
  · decide

lemma pair_reads {off : Nat} (h : (∃ i, off = offXmm i) ∨ off = offTmp 0) (c : Cpu) : ∃ v, readPair c off = some v := by
  unfold readPair
  rcases pair_off h with ⟨i, hf⟩ | hf
  · rw [hf]
    exact ⟨_, rfl⟩
  · rw [hf]
    exact ⟨_, rfl⟩

lemma pair_writes {off : Nat} (h : (∃ i, off = offXmm i) ∨ off = offTmp 0) (c : Cpu) (v : Xmm) :
    ∃ c', writePair c off v = some c' ∧ Scratched c c' := by
  unfold writePair
  rcases pair_off h with ⟨i, hf⟩ | hf
  · rw [hf]
    exact ⟨_, rfl, c.r, _, c.curRip, c.jitTmp, rfl⟩
  · rw [hf]
    exact ⟨_, rfl, c.r, c.xmm, c.curRip, _, rfl⟩

lemma pair_effects (he : Effect env.fp check R) {h : Helper} {off : Nat} (hh : h = .ld128 ∨ h = .st128)
    (hoff : (∃ i, off = offXmm i) ∨ off = offTmp 0) (hs : Ready env s) :
    Effects env R 1 ([.addImm x2 cpuReg off, .mov x0 cpuReg] ++ callCode env.lk h) s := by
  have hrx : s.rx cpuReg = env.cpuPtr := (rx_of_ne (by decide)).trans hs.cpu
  let s1 := s.wx x2 (env.cpuPtr + BitVec.ofNat 64 off)
  have hrun1 : Runs env [.addImm x2 cpuReg off] s s1 := by
    refine .one ?_
    show some (s.wx x2 (s.rx cpuReg + BitVec.ofNat 64 off)) = _
    rw [hrx]
  obtain ⟨s2, hrun2, hs2, hcpu2, h02, hx2⟩ := cpu_arg (s := s1) (Carried.wx hs (by decide) _).ready
  have hx : (s2.wx x9 (env.lk.addr h)).x x2 = env.cpuPtr + BitVec.ofNat 64 off :=
    (wx_x_of_ne (by decide)).trans ((hx2 x2 (by decide)).trans (wx_x_same (by decide)))
  have h0 : (s2.wx x9 (env.lk.addr h)).x x0 = env.cpuPtr := (wx_x_of_ne (by decide)).trans h02
  have hcpu : (s2.wx x9 (env.lk.addr h)).cpu = s.cpu := wx_cpu.trans (hcpu2.trans wx_cpu)
  have hdiff : ((s2.wx x9 (env.lk.addr h)).x x2 - env.cpuPtr).toNat = off := by
    rw [hx, BitVec.add_comm, BitVec.add_sub_cancel, BitVec.toNat_ofNat, Nat.mod_eq_of_lt (pair_small hoff)]
  have hs3 : Ready env (s2.wx x9 (env.lk.addr h)) := (Carried.wx hs2 (by decide) _).ready
  have hrun := (hrun1.append hrun2)
  rcases hh with rfl | rfl
  · obtain ⟨c', hwrite, hc'⟩ := pair_writes hoff (Rashid.ld128 ((s2.wx x9 (env.lk.addr .ld128)).x x1) s.cpu).2
      (Rashid.ld128 ((s2.wx x9 (env.lk.addr .ld128)).x x1) s.cpu).1
    have hcall : callRoutine env (s2.wx x9 (env.lk.addr .ld128)) .ld128 = some (none, c') := by
      rw [← hcpu, ← hdiff] at hwrite
      exact (if_pos h0).trans (congrArg (Option.map _) hwrite)
    exact ⟨_, hrun.append (call_runs hcall), hs3.afterCall _ _, he.trans (he.ld128 _ s.cpu) (he.scratch hc')⟩
  · obtain ⟨v, hread⟩ := pair_reads hoff s.cpu
    have hcall : callRoutine env (s2.wx x9 (env.lk.addr .st128)) .st128 =
        some (none, (Rashid.st128 ((s2.wx x9 (env.lk.addr .st128)).x x1) v s.cpu).2) := by
      rw [← hcpu, ← hdiff] at hread
      exact (if_pos h0).trans ((congrArg (Option.map _) hread).trans (by rw [hcpu]; rfl))
    exact ⟨_, hrun.append (call_runs hcall), hs3.afterCall _ _, he.st128 _ _ s.cpu⟩

lemma nan_effects (he : Effect env.fp check R) (dbl unary : Bool) (hs : Ready env s) :
    Effects env R 1 (nanArgs dbl unary ++ callCode env.lk (if dbl then .nanD else .nanS)) s := by
  obtain ⟨s1, hrun, h1⟩ := plain_runs (plain_nanArgs dbl unary) hs
  have hcall : ∃ v, callRoutine env (s1.wx x9 (env.lk.addr (if dbl then .nanD else .nanS)))
    (if dbl then .nanD else .nanS) =
      some (v, s1.cpu) := by
    rw [← wx_cpu (s := s1)]
    cases dbl
    · exact ⟨_, rfl⟩
    · exact ⟨_, rfl⟩
  obtain ⟨v, hcall⟩ := hcall
  exact ⟨_, hrun.append (call_runs hcall), (Carried.wx h1.ready (by decide) _).ready.afterCall _ _,
    he.mono (he.scratch h1.cpu) (Nat.zero_le 1)⟩

lemma flags_effects (he : Effect env.fp check R) (add sub logic w : Bool) {need : BitVec 32}
    (hneed : need &&& ~~~flAll = 0)
    (hs : Ready env s) : Effects env R 0 (flagsInlineCode add sub logic need w) s := by
  obtain ⟨s', hrun, hcpu, hx, -, hstack, -⟩ := flagsInline_runs add sub logic need w hs.cpu
  refine ⟨s', hrun, ⟨(hx cpuReg (by decide) (by decide) (by decide) (by decide)).trans hs.cpu, hstack.trans hs.stack⟩, ?_⟩
  rw [hcpu, inlineBits_eq]
  exact he.flags need _ s.cpu hneed

/-- The store itself. -/
lemma storeInsn_step {size : Nat} (hsize : size ∈ [1, 4, 8]) :
    (storeInsn size).step env s =
      some { s with cpu := { s.cpu with mem := storeLE s.cpu.mem (s.x x1) (s.x x2) size } } := by
  have h2 : s.rx x2 = s.x x2 := rx_of_ne (by decide)
  have hzero : s.x x1 + BitVec.ofNat 64 0 = s.x x1 := BitVec.add_zero _
  have hat (v : BitVec 64) (n : Nat) : storeAt env s x1 0 v n =
      some { s with cpu := { s.cpu with mem := storeLE s.cpu.mem (s.x x1) v n } } := by
    rw [storeAt, if_neg (by decide), if_neg (by decide), hzero]
  simp only [List.mem_cons, List.not_mem_nil, or_false] at hsize
  rcases hsize with rfl | rfl | rfl
  · exact (hat _ 1).trans (by rw [h2])
  · exact (hat _ 4).trans (by rw [h2])
  · exact (hat _ 8).trans (by rw [h2])

/-- The address and the value are kept in the temporaries while the write is logged. -/
lemma wlog_runs {size : Nat} (hsize : size ∈ [1, 4, 8]) (hs : Ready env s) :
    ∃ s' c, Runs env (wlogCode env.lk size) s s' ∧ Ready env s' ∧ s'.x x1 = s.x x1 ∧ s'.x x2 = s.x x2 ∧
      Scratched s.cpu c ∧ c.mem = s.cpu.mem ∧ s'.cpu = (logWrite (s.x x1) (s.x x2) size c).2 := by
  have hne : cpuReg ≠ zr := by decide
  have h1 : s.rx x1 = s.x x1 := rx_of_ne (by decide)
  have h2 : s.rx x2 = s.x x2 := rx_of_ne (by decide)
  let c1 := { s.cpu with jitTmp := Function.update s.cpu.jitTmp 6 (s.x x1) }
  let c2 := { s.cpu with jitTmp := Function.update (Function.update s.cpu.jitTmp 6 (s.x x1)) 7 (s.x x2) }
  have hsave1 : Runs env [.str x1 cpuReg (offTmp 6)] s { s with cpu := c1 } := by
    refine .one ?_
    show storeAt env s cpuReg (offTmp 6) (s.rx x1) 8 = _
    rw [storeAt, if_pos rfl, if_pos hs.cpu, cpuField_offTmp, h1]
    rfl
  have hsave2 : Runs env [.str x2 cpuReg (offTmp 7)] { s with cpu := c1 } { s with cpu := c2 } := by
    refine .one ?_
    show storeAt env { s with cpu := c1 } cpuReg (offTmp 7) (s.rx x2) 8 = _
    rw [storeAt, if_pos rfl, if_pos hs.cpu, cpuField_offTmp, h2]
    rfl
  have hs2 : Ready env { s with cpu := c2 } := ⟨hs.cpu, hs.stack⟩
  obtain ⟨s3, hrun3, hs3, hcpu3, h03, hx3⟩ := cpu_arg hs2
  have hrun4 : Runs env (immCode x3 (BitVec.ofNat 64 size)) s3 (s3.wx x3 (BitVec.ofNat 64 size)) := imm_runs (by decide) _
  let s5 := (s3.wx x3 (BitVec.ofNat 64 size)).wx x9 (env.lk.addr .wlog)
  have hs5 : Ready env s5 := (Carried.wx (Carried.wx hs3 (by decide) _).ready (by decide) _).ready
  have hx5 (r : A64Reg) (h0 : r ≠ x0) (h3 : r ≠ x3) (h9 : r ≠ x9) : s5.x r = s.x r :=
    (wx_x_of_ne h9).trans ((wx_x_of_ne h3).trans (hx3 r h0))
  have hcpu5 : s5.cpu = c2 := wx_cpu.trans (wx_cpu.trans hcpu3)
  have h05 : s5.x x0 = env.cpuPtr := (wx_x_of_ne (by decide)).trans ((wx_x_of_ne (by decide)).trans h03)
  have h35 : (s5.x x3).toNat = size := by
    rw [show s5.x x3 = BitVec.ofNat 64 size from (wx_x_of_ne (by decide)).trans (wx_x_same (by decide))]
    exact size_toNat hsize
  have hcall : callRoutine env s5 .wlog = some (none, (logWrite (s.x x1) (s.x x2) size c2).2) := by
    rw [← hx5 x1 (by decide) (by decide) (by decide), ← hx5 x2 (by decide) (by decide) (by decide), ← hcpu5, ← h35]
    exact if_pos h05
  let s6 := s5.afterCall env none (logWrite (s.x x1) (s.x x2) size c2).2
  have hs6 : Ready env s6 := hs5.afterCall _ _
  have htmp6 : s6.cpu.jitTmp 6 = s.x x1 := by
    show Function.update (Function.update s.cpu.jitTmp 6 (s.x x1)) 7 (s.x x2) 6 = _
    rw [Function.update_of_ne (by decide), Function.update_self]
  have htmp7 : s6.cpu.jitTmp 7 = s.x x2 := by
    show Function.update (Function.update s.cpu.jitTmp 6 (s.x x1)) 7 (s.x x2) 7 = _
    rw [Function.update_self]
  have hback (t : A64State) (r : A64Reg) (i : Fin 8) (ht : Ready env t) :
      A64.step env t (.ldr r cpuReg (offTmp i)) = some (t.wx r (t.cpu.jitTmp i)) := by
    show (loadAt env t cpuReg (offTmp i) 8).map (t.wx r) = _
    rw [loadAt, if_pos rfl, if_pos ht.cpu, cpuField_offTmp]
    rfl
  let s7 := s6.wx x1 (s.x x1)
  have hs7 : Ready env s7 := (Carried.wx hs6 (by decide) _).ready
  have hback1 : Runs env [.ldr x1 cpuReg (offTmp 6)] s6 s7 := .one ((hback s6 x1 6 hs6).trans (by rw [htmp6]))
  have hback2 : Runs env [.ldr x2 cpuReg (offTmp 7)] s7 (s7.wx x2 (s.x x2)) := by
    have htmp : s7.cpu.jitTmp 7 = s.x x2 := (congrArg (fun c => c.jitTmp 7) wx_cpu).trans htmp7
    exact .one ((hback s7 x2 7 hs7).trans (by rw [htmp]))
  refine ⟨s7.wx x2 (s.x x2), c2, ?_, (Carried.wx hs7 (by decide) _).ready, ?_, wx_x_same (by decide),
    ⟨s.cpu.r, s.cpu.xmm, s.cpu.curRip, _, rfl⟩, rfl, wx_cpu.trans wx_cpu⟩
  · exact ((((hsave1.append hsave2).append hrun3).append hrun4).append (call_runs hcall)).append (hback1.append hback2)
  · exact (wx_x_of_ne (by decide)).trans (wx_x_same (by decide))

lemma store_effects (he : Effect env.fp check R) {size : Nat} (hsize : size ∈ [1, 4, 8]) (hs : Ready env s) :
    Effects env R (if check then 1 else 0) ((if check then wlogCode env.lk size else []) ++ [storeInsn size]) s := by
  cases check with
  | false =>
    exact ⟨_, .one (storeInsn_step hsize), ⟨hs.cpu, hs.stack⟩, he.store (s.x x1) (s.x x2) s.cpu hsize⟩
  | true =>
    obtain ⟨s', c, hrun, hs', hx1, hx2, hc, hmem, hcpu⟩ := wlog_runs hsize hs
    refine ⟨_, hrun.append (.one (storeInsn_step hsize)), ⟨hs'.cpu, hs'.stack⟩, ?_⟩
    have hstore := he.store (s.x x1) (s.x x2) c hsize
    have hall := he.trans (he.scratch hc) hstore
    rw [Nat.zero_add] at hall
    rw [hx1, hx2, hcpu]
    exact hall

/-- Every piece of code runs to its end, within the relation. -/
lemma code_effects (he : Effect env.fp check R) (ho : Sound o) (hl : Emitted env.lk o check (.code l)) (hs : Ready env s) :
    Effects env R (callCount l) l s := by
  have hone {size : Nat} (h : size ∈ [o.size, 1, 4, 8]) : size ∈ [1, 4, 8] := by
    rcases List.mem_cons.mp h with rfl | h
    · exact ho.size
    · exact h
  cases hl with
  | plain hl =>
    obtain ⟨s', hrun, h⟩ := plain_runs hl hs
    rw [hl.calls]
    exact ⟨s', hrun, h.ready, he.scratch h.cpu⟩
  | call hh hargs =>
    rw [calls_call hargs]
    exact routine_effects he hh hargs hs
  | slowStore hsize =>
    rw [calls_call (arg_imm rfl _)]
    exact slowStore_effects he (hone hsize) hs
  | pair hh hoff =>
    rw [calls_append, calls_callCode]
    exact pair_effects he hh hoff hs
  | nan dbl unary =>
    rw [calls_append, (plain_nanArgs dbl unary).calls, calls_callCode]
    exact nan_effects he dbl unary hs
  | flags add sub logic w =>
    rw [calls_flagsInline]
    exact flags_effects he add sub logic w ho.need hs
  | @store size hsize =>
    have hcount : callCount ((if check then wlogCode env.lk size else []) ++ [storeInsn size]) =
        if check then 1 else 0 := by
      rw [calls_append, calls_storeInsn]
      cases check
      · rfl
      · exact calls_wlog size
    rw [hcount]
    exact store_effects he (hone hsize) hs

/-! ### Branches -/

lemma exec_skip (code : List A64) (k : Nat) : A64.exec env code k s = A64.exec env (code.drop k) 0 s := by
  induction code generalizing k with
  | nil => cases k <;> rfl
  | cons i code ih =>
    cases k with
    | zero => rfl
    | succ k => exact ih k

lemma skipOf_succ (d : Nat) : skipOf ((d + 1 : Nat) : Int) = some d := by
  have hpos : (0 : Int) < ((d + 1 : Nat) : Int) := by omega
  rw [skipOf, if_pos hpos]
  rfl

lemma exec_b (d : Nat) (rest : List A64) :
    A64.exec env (.b (d + 1 : Nat) :: rest) 0 s = A64.exec env (rest.drop d) 0 s := by
  show (skipOf ((d + 1 : Nat) : Int)).bind (fun k => A64.exec env rest k s) = _
  rw [skipOf_succ, Option.bind_some, exec_skip]

lemma exec_bcond (c : A64Cond) (d : Nat) (rest : List A64) : A64.exec env (.bcond c (d + 1 : Nat) :: rest) 0 s =
    A64.exec env rest 0 s ∨ A64.exec env (.bcond c (d + 1 : Nat) :: rest) 0 s = A64.exec env (rest.drop d) 0 s := by
  show (if c.holds s.f then (skipOf ((d + 1 : Nat) : Int)).bind (fun k => A64.exec env rest k s)
      else A64.exec env rest 0 s) = _ ∨
    (if c.holds s.f then (skipOf ((d + 1 : Nat) : Int)).bind (fun k => A64.exec env rest k s)
      else A64.exec env rest 0 s) = _
  rw [skipOf_succ, Option.bind_some, exec_skip]
  split
  · exact .inr rfl
  · exact .inl rfl

lemma exec_cbz (t : A64Reg) (d : Nat) (rest : List A64) : A64.exec env (.cbzW t (d + 1 : Nat) :: rest) 0 s =
    A64.exec env rest 0 s ∨ A64.exec env (.cbzW t (d + 1 : Nat) :: rest) 0 s = A64.exec env (rest.drop d) 0 s := by
  show (if s.rw t = 0 then (skipOf ((d + 1 : Nat) : Int)).bind (fun k => A64.exec env rest k s)
      else A64.exec env rest 0 s) = _ ∨
    (if s.rw t = 0 then (skipOf ((d + 1 : Nat) : Int)).bind (fun k => A64.exec env rest k s)
      else A64.exec env rest 0 s) = _
  rw [skipOf_succ, Option.bind_some, exec_skip]
  split
  · exact .inr rfl
  · exact .inl rfl

/-- The same cpu, and what is in x9. -/
structure Looking (env : A64Env) (s s' : A64State) : Prop where
  ready : Ready env s'
  cpu : s'.cpu = s.cpu
  as : s'.x x9 = env.asPtr

lemma Looking.wx {s' : A64State} (h : Looking env s s') {d : A64Reg} (hd : d ≠ cpuReg ∧ d ≠ x9) (v : BitVec 64) :
    Looking env s (s'.wx d v) :=
  ⟨(Carried.wx h.ready (bne_iff_ne.mpr hd.1) v).ready, wx_cpu.trans h.cpu, (wx_x_of_ne hd.2.symm).trans h.as⟩

/-- One entry against the address. -/
lemma entry_runs {off : Nat} {lo lim : BitVec 64} {s' : A64State} (h : Looking env s s')
    (hlo : asField s.cpu.as off = some lo) (hlim : asField s.cpu.as (off + 8) = some lim) :
    ∃ s'', Runs env [.ldr x10 x9 off, .ldr x11 x9 (off + 8), .sub x12 x1 x10, .subsZr x12 x11 false] s' s'' ∧
      Looking env s s'' := by
  have hload {t : A64State} (ht : Looking env s t) {d : A64Reg} {k : Nat} {v : BitVec 64}
    (hv : asField s.cpu.as k = some v) :
      A64.step env t (.ldr d x9 k) = some (t.wx d v) := by
    show (loadAt env t x9 k 8).map (t.wx d) = _
    rw [loadAt, if_neg (by decide), if_pos rfl, if_pos ⟨ht.as, rfl⟩, ht.cpu, hv]
    rfl
  have h1 := h.wx (d := x10) (by decide) lo
  have h2 := h1.wx (d := x11) (by decide) lim
  have h3 := h2.wx (d := x12) (by decide) (((s'.wx x10 lo).wx x11 lim).rx x1 - ((s'.wx x10 lo).wx x11 lim).rx x10)
  exact ⟨_, .cons (hload h hlo) (.cons (hload h1 hlim) (.cons rfl (.one rfl))),
    ⟨h3.ready.cpu, h3.ready.stack⟩, h3.cpu, h3.as⟩

lemma entry_fields (as : As) (write : Bool) : ∃ a b c d, asField as (entryOff write) = some a ∧
    asField as (entryOff write + 8) = some b ∧ asField as (entryOff write + 16) = some c ∧
      asField as (entryOff write + 24) = some d := by
  cases write
  · exact ⟨_, _, _, _, rfl, rfl, rfl, rfl⟩
  · exact ⟨_, _, _, _, rfl, rfl, rfl, rfl⟩

/-- The test goes on behind it or to its target, and changes nothing. -/
lemma exec_region (write : Bool) (d : Nat) (rest : List A64) (hs : Ready env s) :
    ∃ s', Ready env s' ∧ s'.cpu = s.cpu ∧
      (A64.exec env (regionCode write (d + 1 : Nat) ++ rest) 0 s = A64.exec env rest 0 s' ∨
      A64.exec env (regionCode write (d + 1 : Nat) ++ rest) 0 s = A64.exec env (rest.drop d) 0 s') := by
  obtain ⟨lo, lim, lo', lim', hlo, hlim, hlo', hlim'⟩ := entry_fields s.cpu.as write
  have has : Runs env [.ldr x9 cpuReg offAs] s (s.wx x9 env.asPtr) := by
    refine .one ?_
    show (loadAt env s cpuReg offAs 8).map (s.wx x9) = _
    rw [loadAt, if_pos rfl, if_pos hs.cpu]
    rfl
  have hlook : Looking env s (s.wx x9 env.asPtr) :=
    ⟨(Carried.wx hs (by decide) _).ready, wx_cpu, wx_x_same (by decide)⟩
  obtain ⟨s1, hrun1, h1⟩ := entry_runs hlook hlo hlim
  obtain ⟨s2, hrun2, h2⟩ := entry_runs h1 hlo' hlim'
  have hfirst :=
    (has.append hrun1) (.bcond .cc (5 + 1 : Nat) :: (regionSecond write ++ (.bcond .cs (d + 1 : Nat) :: rest)))
  have hsecond := hrun2 (.bcond .cs (d + 1 : Nat) :: rest)
  have hcode : regionCode write (d + 1 : Nat) ++ rest = regionFirst write ++ (.bcond .cc (5 + 1 : Nat) ::
      (regionSecond write ++ (.bcond .cs (d + 1 : Nat) :: rest))) := by
    rw [regionCode_eq]
    simp only [List.append_assoc, List.singleton_append]
    rfl
  rw [hcode]
  rcases @exec_bcond env s1 .cc 5 (regionSecond write ++ (.bcond .cs (d + 1 : Nat) :: rest)) with h | h
  · rcases @exec_bcond env s2 .cs d rest with h' | h'
    · exact ⟨s2, h2.ready, h2.cpu, .inl (hfirst.trans (h.trans (hsecond.trans h')))⟩
    · exact ⟨s2, h2.ready, h2.cpu, .inr (hfirst.trans (h.trans (hsecond.trans h')))⟩
  · exact ⟨s1, h1.ready, h1.cpu, .inl (hfirst.trans h)⟩

end Pieces

/-! ### Blocks -/

section Blocks

variable {env : A64Env} {check : Bool} {R : Nat → Cpu → Cpu → Prop} {v : List Insn}

/-- Code that leaves the block within `R`. -/
def Ends (env : A64Env) (R : Nat → Cpu → Cpu → Prop) (k : Nat) (code : List A64) (s : A64State) : Prop :=
  ∃ s', A64.exec env code 0 s = some s' ∧ R k s.cpu s'.cpu

lemma Effect.refl (he : Effect env.fp check R) (c : Cpu) : R 0 c c := he.scratch (.refl c)

lemma leave_ends (he : Effect env.fp check R) {s : A64State} (hs : Ready env s) (rest : List A64) :
    Ends env R 0 (leaveCode ++ rest) s := by
  have hpop : A64.step env s (.pop x30) = some ({ s with stack := [] }.wx x30 env.retAddr) := by
    have hstack := hs.stack
    generalize env.retAddr = back at hstack
    cases s
    cases hstack
    rfl
  have hrun : Runs env [.pop x30] s ({ s with stack := [] }.wx x30 env.retAddr) := .one hpop
  have hret : A64.exec env (.ret :: rest) 0 ({ s with stack := [] }.wx x30 env.retAddr) =
      some ({ s with stack := [] }.wx x30 env.retAddr) := if_pos ⟨wx_x_same (by decide), wx_stack⟩
  refine ⟨_, (hrun (.ret :: rest)).trans hret, ?_⟩
  rw [wx_cpu]
  exact he.refl s.cpu

lemma plain_leaves (he : Effect env.fp check R) {l : List A64} (hl : Plain l) {s : A64State} (hs : Ready env s)
    (rest : List A64) : Ends env R 0 (l ++ (leaveCode ++ rest)) s := by
  obtain ⟨s1, hrun, h1⟩ := plain_runs hl hs
  obtain ⟨s2, hexec, h2⟩ := leave_ends he h1.ready rest
  exact ⟨s2, (hrun _).trans hexec, he.trans (he.scratch h1.cpu) h2⟩

lemma exit_ends (he : Effect env.fp check R) {s : A64State} (hs : Ready env s) : Ends env R 0 faultExitCode s :=
  plain_leaves he (.one rfl) hs []

lemma fall_ends (he : Effect env.fp check R) (d : Decoded) {s : A64State} (hs : Ready env s) :
    Ends env R 0 (fallCode d ++ faultExitCode) s := by
  unfold fallCode
  split
  · exact exit_ends he hs
  · rw [List.append_assoc]
    exact plain_leaves he (plain_imm rfl _) hs _

lemma callsOf_cons (p : Piece) (ps : List Piece) : callsOf (p :: ps) = callCount (p.words 0) + callsOf ps := rfl

/-- Pieces in front of a block's end, from any state that is ready. -/
lemma pieces_end (he : Effect env.fp check R) (hv : ∀ o ∈ v, Sound o) {ps : List Piece} {e : Nat} {last : List A64}
    (hkind : ∀ p ∈ ps, EmittedOf env.lk v check p) (hlinked : Linked ps)
    (hlast : ∀ s, Ready env s → Ends env R 0 last s) (hexit : ∀ s, Ready env s → Ends env R 0 (last.drop e) s) :
    ∀ s, Ready env s → Ends env R (callsOf ps) (withEnd e last ps) s := by
  refine hlinked.suffixes (C := fun us => ∀ s, Ready env s → Ends env R (callsOf us) (withEnd e last us) s)
    hlast fun p us hin hrest hto s hs => ?_
  obtain ⟨ts, hts⟩ := hin
  obtain ⟨o, ho, hp⟩ := hkind p (hts ▸ List.mem_append_right ts List.mem_cons_self)
  have hcode : withEnd e last (p :: us) = p.words ((sizes us + 1 + e : Nat) : Int) ++ withEnd e last us :=
    List.append_assoc ..
  -- the two ways on from a piece that changes nothing itself
  have hon {s' : A64State} (hs' : Ready env s') (hcpu : s'.cpu = s.cpu)
      (hexec : A64.exec env (withEnd e last (p :: us)) 0 s = A64.exec env (withEnd e last us) 0 s') :
      Ends env R (callsOf (p :: us)) (withEnd e last (p :: us)) s := by
    obtain ⟨t, ht, hR⟩ := hrest s' hs'
    exact ⟨t, hexec.trans ht, hcpu ▸ he.mono hR (Nat.le_add_left ..)⟩
  have hjump {s' : A64State} (hs' : Ready env s') (hcpu : s'.cpu = s.cpu) {d : Nat} (hd : p.jump = some (d + 1))
      (hexec : A64.exec env (withEnd e last (p :: us)) 0 s = A64.exec env ((withEnd e last us).drop d) 0 s') :
      Ends env R (callsOf (p :: us)) (withEnd e last (p :: us)) s := by
    obtain ⟨qs, rs, hus, hsize, hC⟩ := hto (d + 1) hd
    obtain rfl : d = sizes qs := Nat.succ.inj hsize
    obtain ⟨t, ht, hR⟩ := hC s' hs'
    rw [hus, drop_withEnd] at hexec
    refine ⟨t, (hus ▸ hexec).trans ht, hcpu ▸ he.mono hR ?_⟩
    rw [callsOf_cons, hus, callsOf_append]
    omega
  have hback (d : Nat) (hd : p.jump = some d) : ∃ k, d = k + 1 := by
    obtain ⟨qs, rs, -, hsize, -⟩ := hto d hd
    exact ⟨sizes qs, hsize⟩
  cases p with
  | code l =>
    obtain ⟨s1, hrun, hs1, h1⟩ := code_effects he (hv o ho) hp hs
    obtain ⟨t, ht, hR⟩ := hrest s1 hs1
    exact ⟨t, (congrArg (fun l => A64.exec env l 0 s) hcode).trans ((hrun _).trans ht), he.trans h1 hR⟩
  | region write d =>
    obtain ⟨k, rfl⟩ := hback d rfl
    obtain ⟨s1, hs1, hcpu, hexec | hexec⟩ := exec_region write k (withEnd e last us) hs
    · exact hon hs1 hcpu hexec
    · exact hjump hs1 hcpu rfl hexec
  | bcond c d =>
    obtain ⟨k, rfl⟩ := hback d rfl
    rcases exec_bcond c k (withEnd e last us) with hexec | hexec
    · exact hon hs rfl hexec
    · exact hjump hs rfl rfl hexec
  | cbz r d =>
    obtain ⟨k, rfl⟩ := hback d rfl
    rcases exec_cbz r k (withEnd e last us) with hexec | hexec
    · exact hon hs rfl hexec
    · exact hjump hs rfl rfl hexec
  | b d =>
    obtain ⟨k, rfl⟩ := hback d rfl
    exact hjump hs rfl rfl (exec_b k (withEnd e last us))
  | exit =>
    have hdisp : sizes us + 1 + e = sizes us + e + 1 := Nat.add_right_comm ..
    rw [hdisp] at hcode
    rcases exec_cbz x9 (sizes us + e) (withEnd e last us) with hexec | hexec
    · exact hon hs rfl ((congrArg (fun l => A64.exec env l 0 s) hcode).trans hexec)
    · rw [drop_exit] at hexec
      obtain ⟨t, ht, hR⟩ := hexit s hs
      exact ⟨t, (congrArg (fun l => A64.exec env l 0 s) hcode).trans (hexec.trans ht), he.mono hR (Nat.zero_le _)⟩
  | leave =>
    obtain ⟨t, ht, hR⟩ := leave_ends he hs (withEnd e last us)
    exact ⟨t, ht, he.mono hR (Nat.zero_le _)⟩

/-- A block whose instructions have all been emitted comes to its end from any state. -/
lemma block_ends (he : Effect env.fp check R) {rip : BitVec 64} {d : Decoded} {at_ : BitVec 64} {b : Buf}
    (hd : ∀ o ∈ d.v, Sound o) (h : emitBody env.lk d.v rip (startBuf check) = ((d.v.length, at_), b))
    (start : Junk) (c : Cpu) :
    ∃ r, rsdJitEnter env start (blockCode d b) c = some r ∧ R (4 * d.v.length) c r.2 := by
  obtain ⟨-, -, ps, hps, -, hcode⟩ := finished h
  have hexit : ∀ s, Ready env s → Ends env R 0 ((fallCode d ++ faultExitCode).drop (fallCode d).length) s := by
    intro s hs
    rw [List.drop_append_length]
    exact exit_ends he hs
  let s1 : A64State := { enterState env start c with stack := [env.retAddr] }
  have hs1 : Ready env s1 := by
    refine ⟨?_, rfl⟩
    show Function.update (Function.update start.x cpuReg env.cpuPtr) x30 env.retAddr cpuReg = _
    rw [Function.update_of_ne (by decide), Function.update_self]
  have hpush : Runs env [.push x30] (enterState env start c) s1 := by
    refine .one ?_
    have h30 : (enterState env start c).rx x30 = env.retAddr := by
      show Function.update (Function.update start.x cpuReg env.cpuPtr) x30 env.retAddr x30 = _
      rw [Function.update_self]
    show some { enterState env start c with stack := (enterState env start c).rx x30 :: [] } = _
    rw [h30]
  obtain ⟨s', hexec, hR⟩ := pieces_end he hd hps.kind hps.linked (fun s hs => fall_ends he d hs) hexit s1 hs1
  refine ⟨(s'.x x0, s'.cpu), ?_, he.mono hR hps.calls⟩
  unfold rsdJitEnter
  rw [hcode]
  exact congrArg (Option.map _) ((hpush _).trans hexec)

end Blocks

end Rashid.Proofs
