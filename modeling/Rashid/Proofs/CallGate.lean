import Rashid.Proofs.Callbacks
import Rashid.Routines

/-!
# The call gate

Whatever arguments there are, the gate enters the native function with them in its registers and on the
stack. If the function keeps to the procedure call standard, so does the gate, and the four result
registers are where its caller wants them.
-/

namespace Rashid.Proofs

open scoped Arm

def argRegs (s : Arm.Data) : List (BitVec 64) :=
  [s.r (.x 0), s.r (.x 1), s.r (.x 2), s.r (.x 3), s.r (.x 4), s.r (.x 5), s.r (.x 6), s.r (.x 7)]

def argFloats (s : Arm.Data) : List (BitVec 64) := [s.d 0, s.d 1, s.d 2, s.d 3, s.d 4, s.d 5, s.d 6, s.d 7]

def results (s : Arm.Data) : List (BitVec 64) := [s.r (.x 0), s.r (.x 1), s.d 0, s.d 1]

/-- The words that the loop copies: the slots, and one more where their number is odd. -/
def gateWords (call : NativeCall) : Nat := call.slots.length + call.slots.length % 2

/-- The saved registers, and below them the stack arguments. -/
def gateBytes (call : NativeCall) : Nat := 48 + 8 * gateWords call

/-- Where the gate's part of the stack begins. -/
def gateSp (call : NativeCall) (s : Arm.State) : BitVec 64 := s.r .sp - BitVec.ofNat 64 (gateBytes call)

/-- `rsd_call_native` is called with what `call` says, as `call_native` and `call_native_variadic` do. -/
structure GateArgs (call : NativeCall) (s : Arm.State) : Prop where
  xs : call.x.length = 8
  ds : call.d.length = 8
  x : HoldsWords s.mem (s.r (.x 1)) call.x
  d : HoldsWords s.mem (s.r (.x 2)) call.d
  slots : HoldsWords s.mem (s.r (.x 3)) call.slots
  count : s.r (.x 4) = BitVec.ofNat 64 (8 * call.slots.length)

/-- The stack goes far enough down, and none of its caller's arrays is below the stack pointer. -/
structure GateRoom (call : NativeCall) (s : Arm.State) : Prop where
  room : gateBytes call ≤ (s.r .sp).toNat
  x : WindowsApart (s.r (.x 1)) 64 (gateSp call s) (gateBytes call)
  d : WindowsApart (s.r (.x 2)) 64 (gateSp call s) (gateBytes call)
  slots : WindowsApart (s.r (.x 3)) (8 * gateWords call) (gateSp call s) (gateBytes call)
  ret : WindowsApart (s.r (.x 5)) 32 (gateSp call s) (gateBytes call)

/-- The native function is entered in `t` with what `call` says. -/
structure EntersWith (call : NativeCall) (s t : Arm.State) : Prop where
  pc : t.pc = s.r (.x 0)
  x : argRegs t.data = call.x
  d : argFloats t.data = call.d
  slots : HoldsWords t.mem (t.r .sp) call.slots
  sp : t.r .sp = gateSp call s
  aligned : (t.r .sp).toNat % 16 = (s.r .sp).toNat % 16
  frame : ∀ x, ¬ inWindow (gateSp call s) (gateBytes call) x → t.mem x = s.mem x

/-- What the gate has put aside. -/
structure InGate (base : BitVec 64) (s t : Arm.State) : Prop where
  lr : t.r Arm.lr = base + 112
  fp : t.r (.x 29) = s.r .sp - 48
  ret : t.r (.x 20) = s.r (.x 5)
  saved : HoldsWords t.mem (s.r .sp - 48) [s.r (.x 29), s.r (.x 30), s.r (.x 19), s.r (.x 20), s.r (.x 21), s.r (.x 22)]
  rest : ∀ i : Fin 31, 23 ≤ i.val → i.val ≤ 28 → t.r (.x i) = s.r (.x i)
  restD : ∀ i : Fin 32, 8 ≤ i.val → i.val ≤ 15 → t.d i = s.d i

/-- Before the loop the registers have been saved and the block has its place. -/
structure GateSaved (call : NativeCall) (s : Arm.State) (d : Arm.Data) : Prop where
  sp : d.r .sp = gateSp call s
  count : d.r (.x 11) = BitVec.ofNat 64 (8 * gateWords call)
  dst : d.r (.x 9) = gateSp call s
  src : d.r (.x 10) = s.r (.x 3)
  args : d.r (.x 19) = s.r (.x 0) ∧ d.r (.x 20) = s.r (.x 5) ∧ d.r (.x 21) = s.r (.x 1) ∧ d.r (.x 22) = s.r (.x 2)
  fp : d.r (.x 29) = s.r .sp - 48
  mem : d.mem =
    storeWords s.mem (s.r .sp - 48) [s.r (.x 29), s.r (.x 30), s.r (.x 19), s.r (.x 20), s.r (.x 21), s.r (.x 22)]
  rest : ∀ i : Fin 31, 23 ≤ i.val → i.val ≤ 28 → d.r (.x i) = s.r (.x i)
  d : d.d = s.data.d

/-- What is left to do at label 2 is to load the registers. -/
structure GateReady (call : NativeCall) (s t : Arm.State) : Prop where
  pc : t.pc = s.pc + 76
  sp : t.r .sp = gateSp call s
  args : t.r (.x 19) = s.r (.x 0) ∧ t.r (.x 21) = s.r (.x 1) ∧ t.r (.x 22) = s.r (.x 2)
  fp : t.r (.x 29) = s.r .sp - 48
  ret : t.r (.x 20) = s.r (.x 5)
  saved : HoldsWords t.mem (s.r .sp - 48) [s.r (.x 29), s.r (.x 30), s.r (.x 19), s.r (.x 20), s.r (.x 21), s.r (.x 22)]
  slots : HoldsWords t.mem (gateSp call s) call.slots
  frame : ∀ x, ¬ inWindow (gateSp call s) (gateBytes call) x → t.mem x = s.mem x
  rest : ∀ i : Fin 31, 23 ≤ i.val → i.val ≤ 28 → t.r (.x i) = s.r (.x i)
  d : t.data.d = s.data.d

/-! ### Stretches of the gate -/

section Stretches

variable (s : Arm.Data)

lemma gateEnter_mem : (Arm.execAll gateEnter s).mem = storeWords s.mem (s.r .sp - 48)
    [s.r (.x 29), s.r (.x 30), s.r (.x 19), s.r (.x 20), s.r (.x 21), s.r (.x 22)] := by
  simp [Arm.execAll, gateEnter, Arm.Op.exec, Arm.Addr.ea, Arm.Addr.writeBack, Arm.Data.set, storeWords, BitVec.add_assoc,
    BitVec.sub_eq_add_neg]

lemma gateEnter_sp : (Arm.execAll gateEnter s).r .sp = s.r .sp - 48 - ((s.r (.x 4) + 15) &&& -16) := by
  simp [Arm.execAll, gateEnter, Arm.Op.exec, Arm.Addr.writeBack, Arm.Data.set, BitVec.sub_eq_add_neg]

lemma gateEnter_dst : (Arm.execAll gateEnter s).r (.x 9) = (Arm.execAll gateEnter s).r .sp := by
  simp [Arm.execAll, gateEnter, Arm.Op.exec, Arm.Addr.writeBack, Arm.Data.set]

lemma gateEnter_count : (Arm.execAll gateEnter s).r (.x 11) = (s.r (.x 4) + 15) &&& -16 := by
  simp [Arm.execAll, gateEnter, Arm.Op.exec, Arm.Addr.writeBack, Arm.Data.set]

lemma gateEnter_fp : (Arm.execAll gateEnter s).r (.x 29) = s.r .sp - 48 := by
  simp [Arm.execAll, gateEnter, Arm.Op.exec, Arm.Addr.writeBack, Arm.Data.set, BitVec.sub_eq_add_neg]

/-- The arguments of the gate that are kept in other registers. -/
lemma gateEnter_args :
    (Arm.execAll gateEnter s).r (.x 10) = s.r (.x 3) ∧ (Arm.execAll gateEnter s).r (.x 19) = s.r (.x 0) ∧
    (Arm.execAll gateEnter s).r (.x 20) = s.r (.x 5) ∧ (Arm.execAll gateEnter s).r (.x 21) = s.r (.x 1) ∧
    (Arm.execAll gateEnter s).r (.x 22) = s.r (.x 2) := by
  simp [Arm.execAll, gateEnter, Arm.Op.exec, Arm.Addr.writeBack, Arm.Data.set]

lemma gateEnter_rest : ∀ i : Fin 31, 23 ≤ i.val → i.val ≤ 28 → ∀ o ∈ gateEnter, Arm.Reg.x i ∉ o.written := by
  decide

lemma gateLoad_rest : ∀ i : Fin 31, 19 ≤ i.val → ∀ o ∈ gateLoad, Arm.Reg.x i ∉ o.written := by
  decide

lemma gateLeave_rest : ∀ i : Fin 31, 23 ≤ i.val → i.val ≤ 28 → ∀ o ∈ gateLeave, Arm.Reg.x i ∉ o.written := by
  decide

lemma gateLoad_restD : ∀ i : Fin 32, 8 ≤ i.val → ∀ o ∈ gateLoad, i ∉ o.writtenD := by
  decide

lemma gateLeave_restD : ∀ o ∈ gateLeave, ∀ i : Fin 32, i ∉ o.writtenD := by
  decide

lemma gateLoad_x : argRegs (Arm.execAll gateLoad s) = loadWords s.mem (s.r (.x 21)) 8 := by
  simp [argRegs, Arm.execAll, gateLoad, Arm.Op.exec, Arm.Addr.ea, Arm.Addr.writeBack, Arm.Data.set, Arm.Data.setD,
    loadWords, BitVec.add_assoc]

lemma gateLoad_d : argFloats (Arm.execAll gateLoad s) = loadWords s.mem (s.r (.x 22)) 8 := by
  simp [argFloats, Arm.execAll, gateLoad, Arm.Op.exec, Arm.Addr.ea, Arm.Addr.writeBack, Arm.Data.set, Arm.Data.setD,
    loadWords, BitVec.add_assoc]

lemma gateLeave_mem : (Arm.execAll gateLeave s).mem = storeWords s.mem (s.r (.x 20)) (results s) := by
  simp [results, Arm.execAll, gateLeave, Arm.Op.exec, Arm.Addr.ea, Arm.Addr.writeBack, Arm.Data.set, storeWords,
    BitVec.add_assoc]

/-- The saved registers are read where x29 points. -/
lemma gateLeave_saved : [(Arm.execAll gateLeave s).r (.x 29), (Arm.execAll gateLeave s).r (.x 30),
    (Arm.execAll gateLeave s).r (.x 19), (Arm.execAll gateLeave s).r (.x 20), (Arm.execAll gateLeave s).r (.x 21),
    (Arm.execAll gateLeave s).r (.x 22)] = loadWords (Arm.execAll gateLeave s).mem (s.r (.x 29)) 6 := by
  simp [Arm.execAll, gateLeave, Arm.Op.exec, Arm.Addr.ea, Arm.Addr.writeBack, Arm.Data.set, storeWords, loadWords,
    BitVec.add_assoc]

lemma gateLeave_sp : (Arm.execAll gateLeave s).r .sp = s.r (.x 29) + 48 := by
  simp [Arm.execAll, gateLeave, Arm.Op.exec, Arm.Addr.ea, Arm.Addr.writeBack, Arm.Data.set]

end Stretches

/-! ### The loop -/

section Loop

variable {env : Arm.Env} {label1 : BitVec 64} {s : Arm.State}

/-- What one turn leaves. -/
lemma gate_turn (hcode : Arm.Loaded env.code label1 (gateCopy label1)) (hpc : s.pc = label1) (hne : s.r (.x 11) ≠ 0) :
    ∃ t, Arm.Reaches env s t ∧ t.pc = label1 ∧ t.mem = storeLE s.mem (s.r (.x 9)) (loadLE s.mem (s.r (.x 10)) 8) 8 ∧
      t.r (.x 9) = s.r (.x 9) + 8 ∧ t.r (.x 10) = s.r (.x 10) + 8 ∧ t.r (.x 11) = s.r (.x 11) - 8 ∧ t.data.d = s.data.d ∧
      ∀ r, r ∉ [Arm.Reg.x 9, .x 10, .x 11, .x 12] → t.r r = s.r r := by
  subst hpc
  let body : List Arm.Op := [.ldr (.x 12) (.post (.x 10) 8), .str (.x 12) (.post (.x 9) 8), .subImm (.x 11) (.x 11) 8]
  have hstep : Arm.Insn.step s (.cbz (.x 11) (s.pc + 20)) = ⟨s.data, s.pc + 4⟩ := by
    rw [Arm.Insn.step, if_neg hne]
  have hbody : Arm.Loaded env.code (s.pc + 4) (Arm.ops body ++ [.b s.pc]) := hcode.2
  have hlast : Arm.Loaded env.code (s.pc + 4 + BitVec.ofNat 64 12) [.b s.pc] := hbody.right rfl
  refine ⟨⟨Arm.execAll body s.data, s.pc⟩, ?_, rfl, ?_, ?_, ?_, ?_, ?_, fun r hr => ?_⟩
  · have h1 := hcode.one
    rw [hstep] at h1
    have h2 : Arm.Reaches env ⟨s.data, s.pc + 4⟩ _ := hbody.straight (s := ⟨s.data, s.pc + 4⟩) rfl
    have h3 := hlast.one (s := ⟨Arm.execAll body s.data, s.pc + 4 + BitVec.ofNat 64 12⟩)
    exact h1.trans (h2.trans h3)
  · simp [body, Arm.execAll, Arm.Op.exec, Arm.Addr.ea, Arm.Addr.writeBack, Arm.Data.set, storeWords, Arm.State.mem]
  · simp [body, Arm.execAll, Arm.Op.exec, Arm.Addr.writeBack, Arm.Data.set, Arm.State.r]
  · simp [body, Arm.execAll, Arm.Op.exec, Arm.Addr.writeBack, Arm.Data.set, Arm.State.r]
  · simp [body, Arm.execAll, Arm.Op.exec, Arm.Addr.writeBack, Arm.Data.set, Arm.State.r]
  · rfl
  · apply Arm.execAll_r
    intro o ho hw
    simp only [body, List.mem_cons, List.not_mem_nil, or_false] at ho hr
    rcases ho with rfl | rfl | rfl <;> simp [Arm.Op.written, Arm.Addr.written] at hw <;> tauto

/-- The loop copies the words one after the other. -/
lemma gate_copies (hcode : Arm.Loaded env.code label1 (gateCopy label1)) {n : Nat} (hpc : s.pc = label1)
    (hn : 8 * n < 2 ^ 64)
    (hcount : s.r (.x 11) = BitVec.ofNat 64 (8 * n)) (hapart : WindowsApart (s.r (.x 10)) (8 * n) (s.r (.x 9)) (8 * n)) :
    ∃ t, Arm.Reaches env s t ∧ t.pc = label1 + 20 ∧
      t.mem = storeWords s.mem (s.r (.x 9)) (loadWords s.mem (s.r (.x 10)) n) ∧ t.data.d = s.data.d ∧
      ∀ r, r ∉ [Arm.Reg.x 9, .x 10, .x 11, .x 12] → t.r r = s.r r := by
  induction n generalizing s with
  | zero =>
    have hstep : Arm.Insn.step s (.cbz (.x 11) (label1 + 20)) = ⟨s.data, label1 + 20⟩ := by
      rw [Arm.Insn.step, if_pos (show s.r (.x 11) = 0 from hcount)]
    have h1 := (hpc ▸ hcode : Arm.Loaded env.code s.pc (gateCopy label1)).one
    rw [hstep] at h1
    exact ⟨_, h1, rfl, rfl, rfl, fun r _ => rfl⟩
  | succ n ih =>
    rw [Nat.mul_succ] at hapart hcount hn
    have hne : s.r (.x 11) ≠ 0 := by
      rw [hcount]
      intro h0
      have h1 := congrArg BitVec.toNat h0
      rw [BitVec.toNat_ofNat, Nat.mod_eq_of_lt hn] at h1
      exact absurd h1 (Nat.succ_ne_zero _)
    obtain ⟨t, hreach, htpc, hmem, h9, h10, h11, hd, hr⟩ := gate_turn hcode hpc hne
    have hcount' : t.r (.x 11) = BitVec.ofNat 64 (8 * n) := by
      rw [h11, hcount, BitVec.ofNat_add]
      exact BitVec.add_sub_cancel ..
    have hapart' : WindowsApart (t.r (.x 10)) (8 * n) (t.r (.x 9)) (8 * n) := by
      rw [h9, h10]
      exact hapart.next
    obtain ⟨u, hreach', hupc, hmem', hd', hr'⟩ := ih htpc (by omega) hcount' hapart'
    refine ⟨u, hreach.trans hreach', hupc, ?_, hd'.trans hd, fun r hr0 => (hr' r hr0).trans (hr r hr0)⟩
    -- the word just stored is none of those still to be copied
    have hsame : loadWords t.mem (s.r (.x 10) + 8) n = loadWords s.mem (s.r (.x 10) + 8) n := by
      apply loadWords_congr
      intro x hx
      rw [hmem]
      exact storeLE_outside fun hy => hapart x (window_next hx) (inWindow_mono (Nat.le_add_left 8 _) hy)
    rw [hmem', h9, h10, hsame, hmem]
    rfl

end Loop

/-! ### Entering and leaving -/

lemma round_up {n : Nat} (hn : 8 * n + 15 < 2 ^ 64) :
    (BitVec.ofNat 64 (8 * n) + 15) &&& -16 = BitVec.ofNat 64 (8 * (n + n % 2)) := by
  have hmask : (-16 : BitVec 64) = ~~~15 := by decide
  have hlow : ((BitVec.ofNat 64 (8 * n) + 15) &&& 15).toNat = (8 * n + 15) % 16 := by
    have hsum : (BitVec.ofNat 64 (8 * n) + 15).toNat = 8 * n + 15 := by bv_omega
    rw [BitVec.toNat_and, hsum]
    exact Nat.and_two_pow_sub_one_eq_mod _ 4
  rw [hmask, and_not_fifteen]
  generalize (BitVec.ofNat 64 (8 * n) + 15) &&& 15 = y at hlow
  bv_omega

section Gate

variable {env : Arm.Env} {base : BitVec 64} {call : NativeCall} {s t c : Arm.State}

lemma gateSp_block (call : NativeCall) (s : Arm.State) :
    gateSp call s + BitVec.ofNat 64 (8 * gateWords call) = s.r .sp - 48 := by
  unfold gateSp gateBytes
  bv_omega

lemma gateBytes_small (hroom : GateRoom call s) : 8 * gateWords call + 48 ≤ 2 ^ 64 := by
  have h := hroom.room
  have hlt := (s.r .sp).isLt
  unfold gateBytes at h
  omega

/-- The stack pointer is moved by a multiple of sixteen. -/
lemma gateSp_aligned (hroom : GateRoom call s) : (gateSp call s).toNat % 16 = (s.r .sp).toNat % 16 := by
  have hroom := hroom.room
  have hmod : gateBytes call % 16 = 0 := by
    unfold gateBytes gateWords
    omega
  unfold gateSp
  bv_omega

/-- The block and the saved registers are the gate's. -/
lemma gate_block {x : BitVec 64} (h : inWindow (gateSp call s) (8 * gateWords call) x) :
    inWindow (gateSp call s) (gateBytes call) x :=
  inWindow_mono (Nat.le_add_left ..) h

lemma gate_saved {x : BitVec 64} (h : inWindow (s.r .sp - 48) 48 x) : inWindow (gateSp call s) (gateBytes call) x := by
  rw [← gateSp_block call s] at h
  have hin := window_after h
  rwa [Nat.add_comm] at hin

lemma gate_saves (hargs : GateArgs call s) (hroom : GateRoom call s) :
    GateSaved call s (Arm.execAll gateEnter s.data) := by
  have hsmall := gateBytes_small hroom
  have hround := round_up (n := call.slots.length) (by unfold gateWords at hsmall; omega)
  have hcount : (s.data.r (.x 4) + 15) &&& -16 = BitVec.ofNat 64 (8 * gateWords call) := by
    rw [show s.data.r (.x 4) = BitVec.ofNat 64 (8 * call.slots.length) from hargs.count, hround]
    rfl
  have hsp : (Arm.execAll gateEnter s.data).r .sp = gateSp call s := by
    rw [gateEnter_sp, hcount]
    show s.r .sp - 48 - BitVec.ofNat 64 (8 * gateWords call) = gateSp call s
    unfold gateSp gateBytes
    bv_omega
  obtain ⟨hsrc, hargs'⟩ := gateEnter_args s.data
  constructor
  case sp => exact hsp
  case count => rw [gateEnter_count, hcount]
  case dst => rw [gateEnter_dst, hsp]
  case src => exact hsrc
  case args => exact hargs'
  case fp => exact gateEnter_fp s.data
  case mem => exact gateEnter_mem s.data
  case rest => exact fun i hlo hhi => Arm.execAll_r (gateEnter_rest i hlo hhi)
  case d => rfl

/-- Label 2 is reached with the stack arguments in place. -/
lemma gate_block_copied {d : Arm.Data} (hcode : Arm.Loaded env.code (s.pc + 56) (gateCopy (s.pc + 56)))
    (hargs : GateArgs call s)
    (hroom : GateRoom call s) (h : GateSaved call s d) : ∃ t, Arm.Reaches env ⟨d, s.pc + 56⟩ t ∧ GateReady call s t := by
  have hsmall := gateBytes_small hroom
  have hapart : WindowsApart (d.r (.x 10)) (8 * gateWords call) (d.r (.x 9)) (8 * gateWords call) := by
    rw [h.src, h.dst]
    exact fun x hx hy => hroom.slots x hx (gate_block hy)
  obtain ⟨t, hreach, htpc, hmem, hd, hr⟩ := gate_copies (s := ⟨d, s.pc + 56⟩) hcode rfl (by omega) h.count hapart
  have hmem : t.mem = storeWords d.mem (gateSp call s) (loadWords d.mem (s.r (.x 3)) (gateWords call)) := by
    rw [← h.dst, ← h.src]
    exact hmem
  have hkeep {r : Arm.Reg} (hne : r ∉ [Arm.Reg.x 9, .x 10, .x 11, .x 12]) : t.r r = d.r r := hr r hne
  -- before the loop only the registers have been saved
  have hold {x : BitVec 64} (hx : ¬ inWindow (gateSp call s) (gateBytes call) x) : d.mem x = s.mem x := by
    rw [h.mem]
    exact storeWords_outside fun hy => hx (gate_saved hy)
  have hlen : (loadWords d.mem (s.r (.x 3)) (gateWords call)).length = gateWords call := loadWords_length ..
  obtain ⟨h19, h20, h21, h22⟩ := h.args
  refine ⟨t, hreach, ?_⟩
  constructor
  case pc =>
    rw [htpc, BitVec.add_assoc]
    rfl
  case sp => exact (hkeep (by decide)).trans h.sp
  case args => exact ⟨(hkeep (by decide)).trans h19, (hkeep (by decide)).trans h21, (hkeep (by decide)).trans h22⟩
  case fp => exact (hkeep (by decide)).trans h.fp
  case ret => exact (hkeep (by decide)).trans h20
  case saved =>
    have hheld : HoldsWords d.mem (s.r .sp - 48)
        [s.r (.x 29), s.r (.x 30), s.r (.x 19), s.r (.x 20), s.r (.x 21), s.r (.x 22)] := by
      rw [h.mem]
      apply holdsWords_storeWords
      simp
    apply hheld.congr
    intro x hx
    rw [hmem]
    apply storeWords_outside
    rw [hlen]
    intro hy
    rw [← gateSp_block call s] at hx
    exact window_before hsmall hy hx
  case slots =>
    have hslots : HoldsWords d.mem (s.r (.x 3)) call.slots := by
      apply hargs.slots.congr
      intro x hx
      exact hold fun hy => hroom.slots x (inWindow_mono (Nat.mul_le_mul_left 8 (Nat.le_add_right ..)) hx) hy
    obtain ⟨rest, hrest⟩ := hslots.loadWords (n := gateWords call) (Nat.le_add_right ..)
    have hheld : HoldsWords t.mem (gateSp call s) (loadWords d.mem (s.r (.x 3)) (gateWords call)) := by
      rw [hmem]
      apply holdsWords_storeWords
      rw [hlen]
      omega
    rw [hrest] at hheld
    exact hheld.left
  case frame =>
    intro x hx
    rw [hmem]
    refine (storeWords_outside ?_).trans (hold hx)
    rw [hlen]
    exact fun hy => hx (gate_block hy)
  case rest =>
    intro i hlo hhi
    refine (hkeep ?_).trans (h.rest i hlo hhi)
    intro hin
    simp only [List.mem_cons, Arm.Reg.x.injEq, List.not_mem_nil, or_false] at hin
    rcases hin with rfl | rfl | rfl | rfl <;> exact absurd hlo (by decide)
  case d => exact hd.trans h.d

/-- The registers are loaded from the caller's arrays, which the gate has left as they were. -/
lemma gate_loads (hargs : GateArgs call s) (hroom : GateRoom call s) (h : GateReady call s t) :
    argRegs (Arm.execAll gateLoad t.data) = call.x ∧ argFloats (Arm.execAll gateLoad t.data) = call.d := by
  obtain ⟨-, h21, h22⟩ := h.args
  have hx : loadWords t.mem (s.r (.x 1)) 8 = loadWords s.mem (s.r (.x 1)) 8 :=
    loadWords_congr fun x hx => h.frame x fun hy => hroom.x x hx hy
  have hd : loadWords t.mem (s.r (.x 2)) 8 = loadWords s.mem (s.r (.x 2)) 8 :=
    loadWords_congr fun x hx => h.frame x fun hy => hroom.d x hx hy
  constructor
  · rw [gateLoad_x, show t.data.r (.x 21) = s.r (.x 1) from h21]
    exact hx.trans (hargs.x.loadWords_eq hargs.xs)
  · rw [gateLoad_d, show t.data.r (.x 22) = s.r (.x 2) from h22]
    exact hd.trans (hargs.d.loadWords_eq hargs.ds)

lemma argRegs_set_lr (d : Arm.Data) (v : BitVec 64) : argRegs (d.set Arm.lr v) = argRegs d := by
  simp [argRegs, Arm.Data.set]

/-- The state in which the native function is entered. -/
def entered (t : Arm.State) : Arm.State :=
  Arm.Insn.step ⟨Arm.execAll gateLoad t.data, t.pc + 32⟩ (.blr (.x 19))

lemma entered_r (t : Arm.State) {i : Fin 31} (hlo : 19 ≤ i.val) (hhi : i.val ≤ 29) :
    (entered t).r (.x i) = t.r (.x i) := by
  have hne : Arm.Reg.x i ≠ Arm.lr := Arm.x_ne_of_lt (Nat.lt_of_le_of_lt hhi (by decide))
  exact (Arm.Data.set_r_of_ne hne).trans (Arm.execAll_r (gateLoad_rest i hlo))

lemma entered_mem (t : Arm.State) : (entered t).mem = t.mem := Arm.execAll_mem (by decide)

lemma entered_sp (t : Arm.State) : (entered t).r .sp = t.r .sp := by
  have hset : (entered t).r .sp = (Arm.execAll gateLoad t.data).r .sp := Arm.Data.set_r_of_ne (by decide)
  exact hset.trans (Arm.execAll_r (by decide))

lemma gate_entered (hargs : GateArgs call s) (hroom : GateRoom call s) (h : GateReady call s t) :
    EntersWith call s (entered t) ∧ InGate s.pc s (entered t) := by
  obtain ⟨hx, hd⟩ := gate_loads hargs hroom h
  obtain ⟨h19, -, -⟩ := h.args
  constructor
  · constructor
    case pc => exact (Arm.execAll_r (gateLoad_rest 19 (by decide))).trans h19
    case x => exact (argRegs_set_lr ..).trans hx
    case d => exact hd
    case slots =>
      rw [entered_mem, entered_sp, h.sp]
      exact h.slots
    case sp => exact (entered_sp t).trans h.sp
    case aligned =>
      rw [entered_sp, h.sp]
      exact gateSp_aligned hroom
    case frame =>
      intro x hx
      rw [entered_mem]
      exact h.frame x hx
  · constructor
    case lr =>
      have hlr : (entered t).r Arm.lr = t.pc + 32 + 4 := Arm.Data.set_r_self ..
      rw [hlr, h.pc, BitVec.add_assoc, BitVec.add_assoc]
      rfl
    case fp => exact (entered_r t (by decide) (by decide)).trans h.fp
    case ret => exact (entered_r t (by decide) (by decide)).trans h.ret
    case saved =>
      rw [entered_mem]
      exact h.saved
    case rest => exact fun i hlo hhi => (entered_r t (by omega) (by omega)).trans (h.rest i hlo hhi)
    case restD =>
      intro i hlo hhi
      have hload : ∀ o ∈ gateLoad, i ∉ o.writtenD := gateLoad_restD i hlo
      exact (Arm.execAll_d hload).trans (congrFun h.d i)

lemma gate_enters (hcode : Arm.Loaded env.code s.pc (rsdCallNativeCode s.pc)) (hargs : GateArgs call s)
    (hroom : GateRoom call s) : ∃ t, Arm.Reaches env s t ∧ EntersWith call s t ∧ InGate s.pc s t := by
  have hsaved := gate_saves hargs hroom
  have hreach : Arm.Reaches env s ⟨Arm.execAll gateEnter s.data, s.pc + 56⟩ := hcode.straight rfl
  have hloop := hcode.right (k := 56) rfl
  obtain ⟨t, hcopied, hready⟩ := gate_block_copied hloop.left hargs hroom hsaved
  have hload := hloop.right (k := 20) rfl
  have h76 : s.pc + BitVec.ofNat 64 56 + BitVec.ofNat 64 20 = t.pc := by
    rw [hready.pc, BitVec.add_assoc]
    rfl
  rw [h76] at hload
  have hcall := hload.right (k := 32) rfl
  have hblr : Arm.Reaches env ⟨Arm.execAll gateLoad t.data, t.pc + 32⟩ (entered t) :=
    hcall.one (s := ⟨Arm.execAll gateLoad t.data, t.pc + 32⟩)
  exact ⟨entered t, hreach.trans (hcopied.trans ((hload.straight rfl).trans hblr)), gate_entered hargs hroom hready⟩

/-- Back in the gate: the results are stored, and what was put aside is put back. -/
lemma gate_leaves (hcode : Arm.Loaded env.code s.pc (rsdCallNativeCode s.pc))
    (hret : WindowsApart (s.r (.x 5)) 32 (s.r .sp - 48) 48)
    (hin : InGate s.pc s t) (hback : Arm.Conforms (s.r .sp - 48) 48 t c) :
    ∃ u, Arm.Reaches env c u ∧ u.mem = storeWords c.mem (s.r (.x 5)) (results c.data) ∧ u.pc = s.r Arm.lr ∧
      u.r .sp = s.r .sp ∧ (∀ i : Fin 31, 19 ≤ i.val → i.val ≤ 29 → u.r (.x i) = s.r (.x i)) ∧
      ∀ i : Fin 32, 8 ≤ i.val → i.val ≤ 15 → u.d i = s.d i := by
  have hpc : c.pc = s.pc + 112 := hback.back.trans hin.lr
  have hleave := (((hcode.right (k := 56) rfl).right (k := 20) rfl).right (k := 32) rfl).2
  have h112 : s.pc + BitVec.ofNat 64 56 + BitVec.ofNat 64 20 + BitVec.ofNat 64 32 + 4 = c.pc := by
    rw [hpc, BitVec.add_assoc, BitVec.add_assoc, BitVec.add_assoc]
    rfl
  rw [h112] at hleave
  have hfp : c.data.r (.x 29) = s.r .sp - 48 := (hback.saved 29 (by decide) (by decide)).trans hin.fp
  have h20 : c.data.r (.x 20) = s.r (.x 5) := (hback.saved 20 (by decide) (by decide)).trans hin.ret
  have hmem := gateLeave_mem c.data
  rw [h20] at hmem
  -- the saved registers are where they were, behind the results
  have hheld : HoldsWords (Arm.execAll gateLeave c.data).mem (s.r .sp - 48)
      [s.r (.x 29), s.r (.x 30), s.r (.x 19), s.r (.x 20), s.r (.x 21), s.r (.x 22)] := by
    apply hin.saved.congr
    intro x hx
    rw [hmem]
    exact (storeWords_outside fun hy => hret x hy hx).trans (hback.frame x hx)
  have hsaved := gateLeave_saved c.data
  rw [hfp, hheld.loadWords_eq (n := 6) rfl] at hsaved
  simp only [List.cons.injEq, and_true] at hsaved
  obtain ⟨h29, h30, h19, h20', h21, h22⟩ := hsaved
  have hreach : Arm.Reaches env c ⟨Arm.execAll gateLeave c.data, c.pc + BitVec.ofNat 64 24⟩ := hleave.straight rfl
  have hend := (hleave.right (k := 24) rfl).one (s := ⟨Arm.execAll gateLeave c.data, c.pc + BitVec.ofNat 64 24⟩)
  refine ⟨_, hreach.trans hend, hmem, h30, ?_, fun i hlo hhi => ?_, fun i hlo hhi => ?_⟩
  · show (Arm.execAll gateLeave c.data).r .sp = s.r .sp
    rw [gateLeave_sp, hfp]
    exact BitVec.sub_add_cancel ..
  · have hkept (hlo : 23 ≤ i.val) (hhi : i.val ≤ 28) : (Arm.execAll gateLeave c.data).r (.x i) = s.r (.x i) :=
      (Arm.execAll_r (gateLeave_rest i hlo hhi)).trans ((hback.saved i (by omega) (by omega)).trans (hin.rest i hlo hhi))
    have hcase : i = 19 ∨ i = 20 ∨ i = 21 ∨ i = 22 ∨ i = 29 ∨ 23 ≤ i.val ∧ i.val ≤ 28 := by
      simp only [Fin.ext_iff]
      omega
    rcases hcase with rfl | rfl | rfl | rfl | rfl | ⟨hlo, hhi⟩
    · exact h19
    · exact h20'
    · exact h21
    · exact h22
    · exact h29
    · exact hkept hlo hhi
  · have hleft : ∀ o ∈ gateLeave, i ∉ o.writtenD := fun o ho => gateLeave_restD o ho i
    exact (Arm.execAll_d hleft).trans ((hback.savedD i hlo hhi).trans (hin.restD i hlo hhi))

/-- The call gate enters the native function with the registers and the stack arguments that the call
says. If the function keeps to the procedure call standard, the gate returns with the results stored, and
keeps to the standard itself as far as the function does. -/
theorem call_gate (hcode : Arm.Loaded env.code s.pc (rsdCallNativeCode s.pc)) (hargs : GateArgs call s)
    (hroom : GateRoom call s)
    (hfn : env.code (s.r (.x 0)) = none) :
    ∃ t, Arm.Reaches env s t ∧ EntersWith call s t ∧ (Arm.Conforms (s.r .sp - 48) 48 t (env.call t) →
      ∃ u, Arm.Reaches env s u ∧ u.mem = storeWords (env.call t).mem (s.r (.x 5)) (results (env.call t).data) ∧
        ∀ a n, (∀ x, inWindow a n x → (env.call t).mem x = s.mem x) → WindowsApart a n (s.r (.x 5)) 32 →
          Arm.Conforms a n s u) := by
  obtain ⟨t, hreach, henters, hin⟩ := gate_enters hcode hargs hroom
  refine ⟨t, hreach, henters, fun hback => ?_⟩
  have hret : WindowsApart (s.r (.x 5)) 32 (s.r .sp - 48) 48 := fun x hx hy => hroom.ret x hx (gate_saved hy)
  obtain ⟨u, hleave, hmem, hpc, hsp, hsaved, hsavedD⟩ := gate_leaves hcode hret hin hback
  have hfn : env.code t.pc = none := henters.pc ▸ hfn
  refine ⟨u, hreach.trans ((Arm.reaches_call hfn).trans hleave), hmem, fun a n hkept hapart => ?_⟩
  refine ⟨hpc, hsp, hsaved, hsavedD, fun x hx => ?_⟩
  rw [hmem]
  exact (storeWords_outside fun hy => hapart x hx hy).trans (hkept x hx)

end Gate

/-- A function that adds its first two arguments. -/
def gateEnv : Arm.Env where
  code a := (rsdCallNativeCode 0x1000)[(a - 0x1000).toNat / 4]?
  call t := ⟨t.data.set (.x 0) (t.r (.x 0) + t.r (.x 1)), t.r Arm.lr⟩

def gateCall : NativeCall := ⟨0, [1, 2, 3, 4, 5, 6, 7, 8], [11, 12, 13, 14, 15, 16, 17, 18], [21, 22, 23]⟩

def gateStart : Arm.State where
  pc := 0x1000
  data.r := fun
    | .x 0 => 0x9000
    | .x 1 => 0x20000
    | .x 2 => 0x20040
    | .x 3 => 0x20080
    | .x 4 => 24
    | .x 5 => 0x20100
    | .x _ => 0x4000
    | .sp => 0x10000
  data.d _ := 0
  data.mem := storeWords (fun _ => 0) 0x20000 (gateCall.x ++ (gateCall.d ++ gateCall.slots))

lemma gateStart_args : GateArgs gateCall gateStart := by
  have hall : HoldsWords gateStart.mem 0x20000 (gateCall.x ++ (gateCall.d ++ gateCall.slots)) :=
    holdsWords_storeWords (by decide)
  have hrest := holdsWords_append hall
  exact ⟨rfl, rfl, hall.left, hrest.left, holdsWords_append hrest, rfl⟩

lemma gateStart_room : GateRoom gateCall gateStart := by
  have hsp : gateSp gateCall gateStart = 0xFFB0 := by decide
  have hbytes : gateBytes gateCall = 80 := rfl
  constructor
  case room => decide
  case x =>
    intro x hx hy
    rw [hsp, hbytes] at hy
    have hx : inWindow 0x20000 64 x := hx
    unfold inWindow at *
    bv_omega
  case d =>
    intro x hx hy
    rw [hsp, hbytes] at hy
    have hx : inWindow 0x20040 64 x := hx
    unfold inWindow at *
    bv_omega
  case slots =>
    intro x hx hy
    rw [hsp, hbytes] at hy
    have hx : inWindow 0x20080 32 x := hx
    unfold inWindow at *
    bv_omega
  case ret =>
    intro x hx hy
    rw [hsp, hbytes] at hy
    have hx : inWindow 0x20100 32 x := hx
    unfold inWindow at *
    bv_omega

theorem call_gate_three : ∃ t u, Arm.Reaches gateEnv gateStart t ∧ argRegs t.data = gateCall.x ∧
    HoldsWords t.mem (t.r .sp) [21, 22, 23] ∧ Arm.Reaches gateEnv gateStart u ∧ u.pc = 0x4000 ∧ u.r .sp = 0x10000 := by
  obtain ⟨t, hreach, hin, hback⟩ :=
    call_gate (show Arm.Loaded gateEnv.code gateStart.pc (rsdCallNativeCode gateStart.pc) by decide)
    gateStart_args gateStart_room (by decide)
  have hconforms : Arm.Conforms (gateStart.r .sp - 48) 48 t (gateEnv.call t) := by
    refine ⟨rfl, Arm.Data.set_r_of_ne (by decide), fun i hlo _ => Arm.Data.set_r_of_ne ?_,
      fun _ _ _ => rfl, fun _ _ => rfl⟩
    exact (Arm.x_ne_of_lt (Nat.lt_of_lt_of_le (by decide) hlo)).symm
  obtain ⟨u, hreach', -, hall⟩ := hback hconforms
  have hu := hall 0 0 (fun x hx => absurd hx (Nat.not_lt_zero _)) fun x hx => absurd hx (Nat.not_lt_zero _)
  exact ⟨t, u, hreach, hin.x, hin.slots, hreach', hu.back, hu.sp⟩

end Rashid.Proofs
