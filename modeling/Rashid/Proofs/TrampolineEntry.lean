import Rashid.Proofs.CallGate
import Rashid.Proofs.Trampolines

/-!
# Entering a trampoline

Native code that calls an address handed out for a guest function gets to `rsd_guest_call` with the number
the function is found under and a frame with the argument registers. If that keeps to the procedure call
standard, the caller is returned to with what the frame then holds.
-/

namespace Rashid.Proofs

open scoped Arm

/-- The table, its stride, and the dispatcher behind it. -/
structure TrampsLoaded (env : Arm.Env) (rt : Runtime) (guestCall : BitVec 64) : Prop where
  stride : rt.trampStride = rsdTrampStride
  table : Arm.Placed env.code rt.trampTable (rsdTrampTableCode (rt.trampTable + 4104))
  common : Arm.Loaded env.code (rt.trampTable + 4104) (rsdTrampCommonCode guestCall)

/-- `rsd_guest_call(index, frame)` is entered in `t`, for what called the trampoline in `s`. -/
structure GuestCalled (index : Nat) (s t : Arm.State) : Prop where
  index : t.r (.x 0) = BitVec.ofNat 64 index
  frame : t.r (.x 1) = s.r .sp - 160
  words : HoldsWords t.mem (s.r .sp - 160) (argRegs s.data ++ (argFloats s.data ++ [s.r .sp]))
  mem : ∀ x, ¬ inWindow (s.r .sp - 160) 160 x → t.mem x = s.mem x

/-- What the dispatcher has put aside. -/
structure InTramp (s t : Arm.State) : Prop where
  fp : t.r (.x 29) = s.r .sp - 16
  sp : t.r .sp = s.r .sp - 160
  saved : HoldsWords t.mem (s.r .sp - 16) [s.r (.x 29), s.r (.x 30)]
  rest : ∀ i : Fin 31, 19 ≤ i.val → i.val ≤ 28 → t.r (.x i) = s.r (.x i)
  d : t.data.d = s.data.d

/-- The result fields of an `rsd_callframe`: x0, x1, d0 and d1. -/
def frameResults (m : Mem) (f : BitVec 64) : List (BitVec 64) :=
  [loadLE m f 8, loadLE m (f + 8) 8, loadLE m (f + 64) 8, loadLE m (f + 72) 8]

/-! ### Stretches of the dispatcher -/

section Stretches

variable (s : Arm.Data)

lemma trampEnter_mem : (Arm.execAll trampEnter s).mem =
    storeWords (storeWords s.mem (s.r .sp - 16) [s.r (.x 29), s.r (.x 30)]) (s.r .sp - 160)
      (argRegs s ++ (argFloats s ++ [s.r .sp])) := by
  simp [argRegs, argFloats, Arm.execAll, trampEnter, Arm.Op.exec, Arm.Addr.ea, Arm.Addr.writeBack,
    Arm.Data.set, storeWords,
    BitVec.add_assoc, BitVec.sub_eq_add_neg]

lemma trampEnter_args : (Arm.execAll trampEnter s).r (.x 0) = s.r (.x 16) ∧
    (Arm.execAll trampEnter s).r (.x 1) = s.r .sp - 160 := by
  simp [Arm.execAll, trampEnter, Arm.Op.exec, Arm.Addr.writeBack, Arm.Data.set, BitVec.add_assoc, BitVec.sub_eq_add_neg]

lemma trampEnter_stack : (Arm.execAll trampEnter s).r (.x 29) = s.r .sp - 16 ∧
    (Arm.execAll trampEnter s).r .sp = s.r .sp - 160 := by
  simp [Arm.execAll, trampEnter, Arm.Op.exec, Arm.Addr.writeBack, Arm.Data.set, BitVec.add_assoc, BitVec.sub_eq_add_neg]

lemma trampEnter_rest : ∀ i : Fin 31, 19 ≤ i.val → i.val ≤ 28 → ∀ o ∈ trampEnter, Arm.Reg.x i ∉ o.written := by
  decide

lemma trampEnter_restD : ∀ i : Fin 32, ∀ o ∈ trampEnter, i ∉ o.writtenD := by
  decide

lemma trampLeave_results : results (Arm.execAll trampLeave s) = frameResults s.mem (s.r .sp) := by
  simp [results, frameResults, Arm.execAll, trampLeave, Arm.Op.exec, Arm.Addr.ea, Arm.Addr.writeBack,
    Arm.Data.set, Arm.Data.setD,
    BitVec.add_assoc]

lemma trampLeave_stack : (Arm.execAll trampLeave s).r .sp = s.r (.x 29) + 16 ∧
    [(Arm.execAll trampLeave s).r (.x 29), (Arm.execAll trampLeave s).r (.x 30)] = loadWords s.mem (s.r (.x 29)) 2 := by
  simp [Arm.execAll, trampLeave, Arm.Op.exec, Arm.Addr.ea, Arm.Addr.writeBack, Arm.Data.set, Arm.Data.setD, loadWords]

lemma trampLeave_rest : ∀ i : Fin 31, 19 ≤ i.val → i.val ≤ 28 → ∀ o ∈ trampLeave, Arm.Reg.x i ∉ o.written := by
  decide

lemma trampLeave_restD : ∀ i : Fin 32, 8 ≤ i.val → ∀ o ∈ trampLeave, i ∉ o.writtenD := by
  decide

end Stretches

section Entry

variable {env : Arm.Env} {rt : Runtime} {guestCall : BitVec 64} {s t c : Arm.State}

/-- The two instructions of one trampoline, in a table for the numbers `l`. -/
lemma table_get {a common : BitVec 64} {l : List Nat}
    (h : Arm.Placed env.code a (l.flatMap fun idx => [.op (.movz (.x 16) (BitVec.ofNat 64 idx)), .b common])) {i : Nat}
    (hi : i < l.length) :
    Arm.Loaded env.code (a + BitVec.ofNat 64 (4 * 2 * i)) [.op (.movz (.x 16) (BitVec.ofNat 64 l[i])), .b common] :=
  h.loaded.get (fun _ _ => rfl) hi

lemma tramp_loaded (h : TrampsLoaded env rt guestCall) {i : Nat} (hi : i < rsdTrampCount) :
    Arm.Loaded env.code (trampoline rt i) [.op (.movz (.x 16) (BitVec.ofNat 64 i)), .b (rt.trampTable + 4104)] := by
  have hin : i < (List.range rsdTrampCount).length := by
    rw [List.length_range]
    exact hi
  have hget := table_get (l := List.range rsdTrampCount) h.table hin
  have haddr : trampoline rt i = rt.trampTable + BitVec.ofNat 64 (4 * 2 * i) := by
    rw [trampoline, h.stride, rsdTrampStride, Nat.mul_comm, BitVec.ofNat_mul]
    rfl
  rw [List.getElem_range] at hget
  rw [haddr]
  exact hget

lemma tramp_words (s : Arm.Data) : (argRegs s ++ (argFloats s ++ [s.r .sp])).length = 17 := rfl

/-- The words saved first are above the frame. -/
lemma trampEnter_holds (s : Arm.Data) :
    HoldsWords (Arm.execAll trampEnter s).mem (s.r .sp - 160) (argRegs s ++ (argFloats s ++ [s.r .sp])) ∧
      HoldsWords (Arm.execAll trampEnter s).mem (s.r .sp - 16) [s.r (.x 29), s.r (.x 30)] := by
  rw [trampEnter_mem]
  constructor
  · apply holdsWords_storeWords
    rw [tramp_words]
    omega
  · have hheld : HoldsWords (storeWords s.mem (s.r .sp - 16) [s.r (.x 29), s.r (.x 30)]) (s.r .sp - 16)
        [s.r (.x 29), s.r (.x 30)] := by
      apply holdsWords_storeWords
      simp
    apply hheld.congr
    intro x hx
    apply storeWords_outside
    rw [tramp_words]
    have hx : inWindow (s.r .sp - 16) 16 x := hx
    unfold inWindow at *
    bv_omega

lemma trampEnter_outside (s : Arm.Data) {x : BitVec 64} (hx : ¬ inWindow (s.r .sp - 160) 160 x) :
    (Arm.execAll trampEnter s).mem x = s.mem x := by
  rw [trampEnter_mem]
  refine (storeWords_outside ?_).trans (storeWords_outside ?_)
  · rw [tramp_words]
    exact fun hy => hx (inWindow_mono (by decide) hy)
  · intro hy
    have hy : inWindow (s.r .sp - 16) 16 x := hy
    unfold inWindow at *
    bv_omega

/-- The state in which `rsd_guest_call` is entered, from where the dispatcher begins. -/
def guestEntered (guestCall : BitVec 64) (s : Arm.State) : Arm.State :=
  Arm.Insn.step ⟨Arm.execAll trampEnter s.data, s.pc + 60⟩ (.bl guestCall)

lemma guestEntered_r (s : Arm.State) {r : Arm.Reg} (hne : r ≠ Arm.lr) :
    (guestEntered guestCall s).r r = (Arm.execAll trampEnter s.data).r r := Arm.Data.set_r_of_ne hne

lemma guestEntered_mem (guestCall : BitVec 64) (s : Arm.State) :
    (guestEntered guestCall s).mem = (Arm.execAll trampEnter s.data).mem := Arm.step_bl_mem ..

lemma dispatcher_enters (hcode : Arm.Loaded env.code s.pc (rsdTrampCommonCode guestCall)) :
    Arm.Reaches env s (guestEntered guestCall s) := by
  have hreach : Arm.Reaches env s ⟨Arm.execAll trampEnter s.data, s.pc + BitVec.ofNat 64 60⟩ := hcode.straight rfl
  exact hreach.trans ((hcode.right (k := 60) rfl).one (s := ⟨Arm.execAll trampEnter s.data, s.pc + BitVec.ofNat 64 60⟩))

lemma dispatcher_entered (guestCall : BitVec 64) (s : Arm.State) {index : Nat}
    (hx16 : s.r (.x 16) = BitVec.ofNat 64 index) :
    GuestCalled index s (guestEntered guestCall s) ∧ InTramp s (guestEntered guestCall s) := by
  obtain ⟨h0, h1⟩ := trampEnter_args s.data
  obtain ⟨h29, hsp⟩ := trampEnter_stack s.data
  obtain ⟨hwords, hsaved⟩ := trampEnter_holds s.data
  constructor
  · constructor
    case index => exact (guestEntered_r s (by decide)).trans (h0.trans hx16)
    case frame => exact (guestEntered_r s (by decide)).trans h1
    case words =>
      rw [guestEntered_mem]
      exact hwords
    case mem =>
      intro x hx
      rw [guestEntered_mem]
      exact trampEnter_outside s.data hx
  · constructor
    case fp => exact (guestEntered_r s (by decide)).trans h29
    case sp => exact (guestEntered_r s (by decide)).trans hsp
    case saved =>
      rw [guestEntered_mem]
      exact hsaved
    case rest =>
      intro i hlo hhi
      have hne : Arm.Reg.x i ≠ Arm.lr := Arm.x_ne_of_lt (Nat.lt_of_le_of_lt hhi (by decide))
      exact (guestEntered_r s hne).trans (Arm.execAll_r (trampEnter_rest i hlo hhi))
    case d => exact (Arm.step_bl_d ..).trans (funext fun i => Arm.execAll_d (trampEnter_restD i))

/-- Back in the dispatcher: the results are taken from the frame, and nothing is written. -/
lemma dispatcher_leaves (hcode : Arm.Loaded env.code s.pc (rsdTrampCommonCode guestCall))
    (hback : Arm.Conforms (s.r .sp - 16) 16 (guestEntered guestCall s) c) (hin : InTramp s (guestEntered guestCall s)) :
    ∃ u, Arm.Reaches env c u ∧ u.mem = c.mem ∧ results u.data = frameResults c.mem (s.r .sp - 160) ∧ u.pc = s.r Arm.lr ∧
      u.r .sp = s.r .sp ∧ (∀ i : Fin 31, 19 ≤ i.val → i.val ≤ 29 → u.r (.x i) = s.r (.x i)) ∧
      ∀ i : Fin 32, 8 ≤ i.val → i.val ≤ 15 → u.d i = s.d i := by
  have hlr : (guestEntered guestCall s).r Arm.lr = s.pc + 60 + 4 := Arm.Data.set_r_self ..
  have hpc : c.pc = s.pc + 60 + 4 := hback.back.trans hlr
  have hleave : Arm.Loaded env.code (s.pc + 60 + 4) (Arm.ops trampLeave ++ [.ret]) := (hcode.right (k := 60) rfl).2
  rw [← hpc] at hleave
  have hfp : c.data.r (.x 29) = s.r .sp - 16 := (hback.saved 29 (by decide) (by decide)).trans hin.fp
  have hsp : c.data.r .sp = s.r .sp - 160 := hback.sp.trans hin.sp
  have hresults := trampLeave_results c.data
  obtain ⟨hstack, hsaved⟩ := trampLeave_stack c.data
  have hheld : HoldsWords c.mem (s.r .sp - 16) [s.r (.x 29), s.r (.x 30)] := hin.saved.congr fun x hx => hback.frame x hx
  rw [hfp, hheld.loadWords_eq (n := 2) rfl] at hsaved
  rw [hfp] at hstack
  rw [hsp] at hresults
  simp only [List.cons.injEq, and_true] at hsaved
  obtain ⟨h29, h30⟩ := hsaved
  have hreach : Arm.Reaches env c ⟨Arm.execAll trampLeave c.data, c.pc + BitVec.ofNat 64 16⟩ := hleave.straight rfl
  have hend := (hleave.right (k := 16) rfl).one (s := ⟨Arm.execAll trampLeave c.data, c.pc + BitVec.ofNat 64 16⟩)
  refine ⟨_, hreach.trans hend, Arm.execAll_mem (by decide), hresults, h30, ?_, fun i hlo hhi => ?_, fun i hlo hhi => ?_⟩
  · exact hstack.trans (BitVec.sub_add_cancel ..)
  · by_cases hi : i = 29
    · subst hi
      exact h29
    · have hlt : i.val ≤ 28 := by
        have hne : i.val ≠ 29 := fun heq => hi (Fin.ext heq)
        omega
      exact (Arm.execAll_r (trampLeave_rest i hlo hlt)).trans ((hback.saved i hlo hhi).trans (hin.rest i hlo hlt))
  · exact (Arm.execAll_d (trampLeave_restD i hlo)).trans ((hback.savedD i hlo hhi).trans (congrFun hin.d i))

/-- The state in which a trampoline has got to the dispatcher. -/
def taken (rt : Runtime) (i : Nat) (s : Arm.State) : Arm.State :=
  ⟨s.data.set (.x 16) (BitVec.ofNat 64 i), rt.trampTable + 4104⟩

lemma taken_r (i : Nat) (s : Arm.State) {r : Arm.Reg} (hne : r ≠ .x 16) : (taken rt i s).r r = s.r r :=
  Arm.Data.set_r_of_ne hne

lemma tramp_taken (h : TrampsLoaded env rt guestCall) {i : Nat} (hi : i < rsdTrampCount) (hpc : s.pc = trampoline rt i) :
    Arm.Reaches env s (taken rt i s) := by
  have hcode := tramp_loaded h hi
  rw [← hpc] at hcode
  have hlast : Arm.Loaded env.code (s.pc + 4) [.b (rt.trampTable + 4104)] := hcode.2
  exact hcode.one.trans (hlast.one (s := ⟨s.data.set (.x 16) (BitVec.ofNat 64 i), s.pc + 4⟩))

lemma guestCalled_taken {i : Nat} (h : GuestCalled i (taken rt i s) t) : GuestCalled i s t := by
  have hsp : (taken rt i s).r .sp = s.r .sp := taken_r i s (by decide)
  have hregs : argRegs (taken rt i s).data = argRegs s.data := by
    simp [argRegs, taken, Arm.Data.set]
  obtain ⟨hindex, hframe, hwords, hmem⟩ := h
  rw [hsp] at hframe hwords hmem
  rw [hregs] at hwords
  exact ⟨hindex, hframe, hwords, hmem⟩

/-- An address that has been handed out for a guest function leads native code to `rsd_guest_call` with a
number that stands for this function, whatever else has been asked for since, and with its arguments in
the frame. If `rsd_guest_call` keeps to the procedure call standard, its caller is returned to with the
results in the frame, and all that the standard lets it keep. -/
theorem callback_entered (hload : TrampsLoaded env rt guestCall) (hguest : env.code guestCall = none) {cpu : Cpu}
    {known : Targets}
    (htargets : cpu.targets = known.entries) {g : BitVec 64} (hne : (rsdCallbackFor rt g cpu).1 ≠ 0)
    (hpc : s.pc = (rsdCallbackFor rt g cpu).1) :
    ∃ i t, Arm.Reaches env s t ∧ t.pc = guestCall ∧ GuestCalled i s t ∧
      (∀ later, rsdCallbackTarget (answered rt later (rsdCallbackFor rt g cpu).2).targets (t.r (.x 0)) = g) ∧
      (Arm.Conforms (s.r .sp - 16) 16 t (env.call t) → ∃ u, Arm.Reaches env s u ∧ u.mem = (env.call t).mem ∧
        results u.data = frameResults (env.call t).mem (t.r (.x 1)) ∧
        ∀ a n, (∀ x, inWindow a n x → (env.call t).mem x = s.mem x) → Arm.Conforms a n s u) := by
  obtain ⟨hg, i, hi, haddr, hholds⟩ := callbackFor_some htargets hne
  have hreach := tramp_taken hload hi (hpc.trans haddr)
  have henter : Arm.Reaches env (taken rt i s) (guestEntered guestCall (taken rt i s)) := dispatcher_enters hload.common
  obtain ⟨hcalled, hin⟩ := dispatcher_entered guestCall (taken rt i s) (Arm.Data.set_r_self ..)
  have hcalled' := guestCalled_taken hcalled
  have hsp : (taken rt i s).r .sp = s.r .sp := taken_r i s (by decide)
  refine ⟨i, guestEntered guestCall (taken rt i s), hreach.trans henter, rfl, hcalled', fun later => ?_, fun hback => ?_⟩
  · have hafter : (rsdCallbackFor rt g cpu).2.targets = (known.intern g).2.entries := by
      rw [callbackFor_intern rt hg htargets]
    rw [hcalled'.index]
    exact target_holds (answered_internAll rt later hafter)
      ((Interned.internAll_kept (known.intern g).2 (later.filter (· != 0))).holds hholds)
  · have hgone : Arm.Reaches env (guestEntered guestCall (taken rt i s)) (env.call _) := Arm.reaches_call hguest
    rw [← hsp] at hback
    obtain ⟨u, hleave, hmem, hresults, hupc, husp, hsaved, hsavedD⟩ :=
      dispatcher_leaves (s := taken rt i s) hload.common hback hin
    rw [hsp, ← hcalled'.frame] at hresults
    refine ⟨u, (hreach.trans henter).trans (hgone.trans hleave), hmem, hresults, fun a n hkept => ?_⟩
    refine ⟨hupc.trans (taken_r i s (by decide)), husp.trans hsp, fun j hlo hhi => ?_, hsavedD, fun x hx => ?_⟩
    · exact (hsaved j hlo hhi).trans (taken_r i s (Arm.x_ne_of_lt (Nat.lt_of_lt_of_le (by decide) hlo)).symm)
    · rw [hmem]
      exact hkept x hx

end Entry

/-- The trampolines at `0x10000`, and an `rsd_guest_call` at `0x9000` that answers 42. -/
def trampEnv : Arm.Env where
  code a := if (a - 0x10000).toNat < 4096 then (rsdTrampTableCode 0x11008)[(a - 0x10000).toNat / 4]?
    else (rsdTrampCommonCode 0x9000)[(a - 0x11008).toNat / 4]?
  call t := ⟨{ t.data with mem := storeWords t.mem (t.r (.x 1)) [42] }, t.r Arm.lr⟩

def trampStart : Arm.State where
  pc := 0x10000
  data.r := fun
    | .x _ => 0x4000
    | .sp => 0x20000
  data.d _ := 0
  data.mem _ := 0

lemma trampTable_length (common : BitVec 64) : (rsdTrampTableCode common).length = 1024 := by
  have hlen (l : List Nat) :
      (l.flatMap fun idx => [Arm.Insn.op (.movz (.x 16) (BitVec.ofNat 64 idx)), .b common]).length = l.length * 2 := by
    induction l with
    | nil => rfl
    | cons i l ih =>
      rw [List.flatMap_cons, List.length_append, ih, List.length_cons, List.length_cons, List.length_cons, List.length_nil]
      omega
  rw [rsdTrampTableCode, hlen, List.length_range]
  rfl

lemma trampEnv_table : Arm.Placed trampEnv.code 0x10000 (rsdTrampTableCode 0x11008) := by
  apply Arm.placed_of_window
  · rw [trampTable_length]
    decide
  · intro a ha
    rw [trampTable_length] at ha
    exact if_pos ha

lemma trampEnv_loaded : TrampsLoaded trampEnv trampRuntime 0x9000 := by
  have hbase : trampRuntime.trampTable = 0x10000 := rfl
  have hcommon : (0x10000 : BitVec 64) + 4104 = 0x11008 := by decide
  constructor
  case stride => rfl
  case table =>
    rw [hbase, hcommon]
    exact trampEnv_table
  case common => decide

theorem callback_entered_first : ∃ t u, Arm.Reaches trampEnv trampStart t ∧
    rsdCallbackTarget (rsdCallbackFor trampRuntime 0x5000 Cpu.zero).2.targets (t.r (.x 0)) = 0x5000 ∧
    Arm.Reaches trampEnv trampStart u ∧ u.pc = 0x4000 ∧ u.r (.x 0) = 42 := by
  obtain ⟨i, t, hreach, -, hcalled, htarget, hback⟩ := callback_entered (s := trampStart) trampEnv_loaded (by decide)
    (show Cpu.zero.targets = Interned.empty.entries from rfl)
      (show (rsdCallbackFor trampRuntime 0x5000 Cpu.zero).1 ≠ 0 by decide)
    (by decide)
  have hconforms : Arm.Conforms (trampStart.r .sp - 16) 16 t (trampEnv.call t) := by
    refine ⟨rfl, rfl, fun _ _ _ => rfl, fun _ _ _ => rfl, fun x hx => storeWords_outside ?_⟩
    rw [hcalled.frame]
    have hx : inWindow (0x20000 - 16) 16 x := hx
    show ¬ inWindow (0x20000 - 160) 8 x
    unfold inWindow at *
    bv_omega
  obtain ⟨u, hreach', -, hresults, hall⟩ := hback hconforms
  have hu := hall 0 0 fun x hx => absurd hx (Nat.not_lt_zero _)
  have h42 : loadLE (trampEnv.call t).mem (t.r (.x 1)) 8 = 42 := loadLE_storeLE_word ..
  exact ⟨t, u, hreach, htarget [], hreach', hu.back, (List.cons.inj hresults).1.trans h42⟩

end Rashid.Proofs
