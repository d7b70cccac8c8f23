import Rashid.Proofs.CompiledBlocks
import Rashid.Proofs.RunPrims
import Rashid.Proofs.StepGauge

/-!
# The flags word and the write log in the whole machine

System calls and calls into native functions leave the log alone, and so a step makes as many
entries as its instruction. Compiled code has the same effects as the interpreter's routines.
-/

namespace Rashid.Proofs

section Gauges

variable {R : Nat → Cpu → Cpu → Prop} [Gauge R]

/-! ### System calls -/

lemma setCarry_spends {g : BitVec 32 → BitVec 32} (hg : ∀ f, reserved (g f) = reserved f) (v : BitVec 64) :
    Spends R (do let f ← rdFlags; wrFlags (g f); wrR rax v) 0 :=
  flags_then hg fun _ => inferInstance

lemma reserved_setCarry (f : BitVec 32) : reserved (f ||| fCF) = reserved f := reserved_or_of (by decide)

lemma reserved_clearCarry (f : BitVec 32) : reserved (f &&& ~~~fCF) = reserved f := reserved_clear (by decide)

instance (ret : Int) : Spends R (syscallRet ret) 0 := by
  constructor
  intro c
  by_cases h : ret < 0
  · have heq : syscallRet ret c = (do let f ← rdFlags; wrFlags (f ||| fCF); wrR rax (BitVec.ofInt 64 (-ret))) c := by
      simp only [syscallRet, if_pos h]
    rw [heq]
    exact (setCarry_spends reserved_setCarry _).spends c
  · have heq : syscallRet ret c = (do let f ← rdFlags; wrFlags (f &&& ~~~fCF); wrR rax (BitVec.ofInt 64 ret)) c := by
      simp only [syscallRet, if_neg h]
    rw [heq]
    exact (setCarry_spends reserved_clearCarry _).spends c

instance : Spends R unimplementedSyscall 0 := by
  unfold unimplementedSyscall; infer_instance

instance (as : As) (evs : List HostEvent) : Spends R (setAs as evs) 0 := spends_modify (fun _ => rfl) fun _ => rfl

instance (v : BitVec 64) : Spends R (wrGs v) 0 := spends_modify (fun _ => rfl) fun _ => rfl

instance (k : Kernel) (a0 a1 a2 : BitVec 64) : Spends R (sysRead k a0 a1 a2) 0 := by
  have hmem (bytes : List (BitVec 8)) : Spends R (Prog.modify fun c => { c with mem := poke c.mem a1 bytes }) 0 :=
    spends_modify (fun _ => rfl) fun _ => rfl
  unfold sysRead; infer_instance

instance (k : Kernel) (a0 a1 a2 : BitVec 64) : Spends R (sysWrite k a0 a1 a2) 0 := by
  unfold sysWrite; infer_instance

instance (k : Kernel) (a0 a1 : BitVec 64) : Spends R (sysMunmap k a0 a1) 0 := by
  unfold sysMunmap; infer_instance

instance (k : Kernel) (a0 a1 a2 : BitVec 64) : Spends R (sysMprotect k a0 a1 a2) 0 := by
  unfold sysMprotect; infer_instance

instance (k : Kernel) (a0 a1 a2 : BitVec 64) : Spends R (sysMmap k a0 a1 a2) 0 := by
  have hgot (v : BitVec 64) := setCarry_spends (R := R) reserved_clearCarry v
  unfold sysMmap; infer_instance

instance (n a0 : BitVec 64) : Spends R (sysMdep n a0) 0 := by
  unfold sysMdep; infer_instance

instance (a0 : BitVec 64) : Spends R (sysExit a0) 0 := by
  have hexit : Spends R (Prog.modify fun c => { c with running := false, exitCode := a0.setWidth 32 }) 0 :=
    spends_modify (fun _ => rfl) fun _ => rfl
  unfold sysExit; infer_instance

instance (k : Kernel) (n a0 a1 a2 : BitVec 64) : Spends R (sysBsd k n a0 a1 a2) 0 := by
  unfold sysBsd; infer_instance

instance (k : Kernel) : Spends R (doSyscall k) 0 := by
  unfold doSyscall; infer_instance

/-! ### Calls into native functions -/

set_option synthInstance.maxSize 512

instance : Spends R isRunning 0 := spends_same (fun _ => rfl) fun _ => rfl
instance : Spends R rdFault 0 := spends_same (fun _ => rfl) fun _ => rfl
instance : Spends R intArgs 0 := spends_same (fun _ => rfl) fun _ => rfl
instance : Spends R floatArgs 0 := spends_same (fun _ => rfl) fun _ => rfl
instance (f : Fault) : Spends R (failVariadic f) 0 := spends_modify (fun _ => rfl) fun _ => rfl
instance (imp : Nat) : Spends R (noThunk imp) 0 := spends_modify (fun _ => rfl) fun _ => rfl

instance (rt : Runtime) (fn : BitVec 64) : Spends R (rsdCallbackFor rt fn) 0 := by
  constructor
  intro c
  unfold rsdCallbackFor
  split
  · exact Graded.refl c
  · split
    · exact Graded.refl c
    · split
      · exact Graded.refl c
      · exact Gauge.same rfl rfl

instance (a : SysvReader) : Spends R (sysvStack a) 0 := by
  unfold sysvStack; infer_instance

instance (a : SysvReader) : Spends R (sysvInt a) 0 := by
  unfold sysvInt
  split <;> infer_instance

instance (a : SysvReader) : Spends R (sysvSse a) 0 := by
  unfold sysvSse
  split <;> infer_instance

instance (fuel : Nat) (p : BitVec 64) (star long : Bool) : Spends R (marshalDirective fuel p star long) 0 := by
  induction fuel generalizing p star long with
  | zero => exact ⟨Graded.refl⟩
  | succ fuel ih => unfold marshalDirective; infer_instance

instance (scan star : Bool) (conv : BitVec 64) (a : SysvReader) (slots : List (BitVec 64)) (max : Nat) :
    Spends R (marshalSlots scan star conv a slots max) 0 := by
  unfold marshalSlots; infer_instance

instance (scan : Bool) (max fuel : Nat) (p : BitVec 64) (a : SysvReader) (slots : List (BitVec 64)) :
    Spends R (marshalLoop scan max fuel p a slots) 0 := by
  induction fuel generalizing p a slots with
  | zero => exact ⟨Graded.refl⟩
  | succ fuel ih =>
    unfold marshalLoop
    refine .free_then inferInstance fun ch => .free_then inferInstance fun go => .either inferInstance
      (.either inferInstance
      (.either inferInstance (.free_then inferInstance fun x => .either inferInstance (.either inferInstance
        (.either inferInstance (.free_then inferInstance fun r => ?_))))))
    cases r <;> infer_instance

instance (fmt : BitVec 64) (scan : Bool) (a : SysvReader) (max : Nat) : Spends R (marshalFormat fmt scan a max) 0 := by
  unfold marshalFormat; infer_instance

instance (rt : Runtime) (imp : Nat) (cbarg : Int) (objcrecv : Bool) : Spends R (callNative rt imp cbarg objcrecv) 0 := by
  unfold callNative; infer_instance

instance (n : Nat) (a : SysvReader) : Spends R (fixedArgs n a) 0 := by
  induction n generalizing a with
  | zero => exact ⟨Graded.refl⟩
  | succ n ih => unfold fixedArgs; infer_instance

instance (rt : Runtime) (imp : Nat) (sp : VaSpec) (nfixed fmtIndex : Nat) (objcrecv : Bool) :
    Spends R (callFormatted rt imp sp nfixed fmtIndex objcrecv) 0 := by
  unfold callFormatted
  refine .free_then inferInstance fun sp0 => .free_then inferInstance fun x => .either inferInstance
    (.free_then inferInstance fun slots => ?_)
  cases slots <;> infer_instance

instance (rt : Runtime) (imp : Nat) (sp : VaSpec) (objcrecv : Bool) :
    Spends R (callNativeVariadic rt imp sp objcrecv) 0 := by
  unfold callNativeVariadic; infer_instance

instance (rt : Runtime) (st : Stubs) (imp : Nat) : Spends R (stepStub rt st imp) 0 := by
  unfold stepStub
  refine .either ?_ inferInstance
  split
  · refine .free_then inferInstance fun call => ?_
    cases call <;> infer_instance
  · infer_instance

instance (ret : BitVec 64 × BitVec 64 × BitVec 64 × BitVec 64) : Spends R (finishNativeCall ret) 0 := by
  unfold finishNativeCall
  exact .free_then inferInstance fun _ => .free_then inferInstance fun _ => .free_then inferInstance fun _ => inferInstance

/-! ### Steps -/

lemma stepCode_gauge (fp : Fp) (k : Kernel) (c : Cpu) : R 3 c (stepCode fp k c).2 := by
  have h : Spends R (stepCode fp k) 3 := by
    unfold stepCode
    apply Spends.then_free inferInstance
    rintro ⟨out, d⟩
    cases out <;> infer_instance
  exact h.spends c

/-- A step makes three entries at most. -/
theorem step_gauge (fp : Fp) (rt : Runtime) (k : Kernel) (c : Cpu) : R 3 c (step fp rt k c).2 := by
  have hsame {c' : Cpu} (h : R 0 c c') : R 3 c c' := Graded.mono h (Nat.zero_le 3)
  unfold step
  split
  · exact hsame (Gauge.same rfl rfl)
  · split
    · exact hsame (Gauge.same rfl rfl)
    · split
      · next st imp _ _ => exact hsame (Spends.spends (p := stepStub rt st imp) c)
      · split
        · exact stepCode_gauge fp k c
        · exact hsame (memfault_gauge ..)

/-! ### Compiled code -/

instance (a : BitVec 64) (prot : BitVec 32) : Spends R (noteHit a prot) 0 := by
  apply spends_modify
  · intro c
    split <;> rfl
  · intro c
    split <;> rfl

instance (a : BitVec 64) (n : Nat) : Spends R (rsdILd a n) 0 := by
  unfold rsdILd; infer_instance

instance (a v : BitVec 64) (n : Nat) : Spends R (rsdISt a v n) 1 := by
  unfold rsdISt; infer_instance

lemma updFlags_spends {g : BitVec 32 → BitVec 32} (hg : ∀ f, reserved (g f) = reserved f) :
    Spends R (do updFlags g; pure (none : Option (BitVec 64))) 0 := by
  have h : Spends R (updFlags g) 0 := ⟨Gauge.flags hg⟩
  infer_instance

lemma runHelper_spends (fp : Fp) {h : Helper} {p : M (Option (BitVec 64))} {a1 a2 a3 a4 : BitVec 64}
    (hh : takesCpu h = true)
    (hp : runHelper fp a1 a2 a3 a4 h = some p) : Spends R p 0 := by
  cases h with
  | ld =>
    obtain rfl := Option.some.inj hp
    exact ⟨Spends.spends (p := rsdILd a1 a2.toNat)⟩
  | flagsAdd =>
    obtain rfl := Option.some.inj hp
    exact updFlags_spends fun _ => reserved_flagsArith ..
  | flagsSub =>
    obtain rfl := Option.some.inj hp
    exact updFlags_spends fun _ => reserved_flagsArith ..
  | flagsLogic =>
    obtain rfl := Option.some.inj hp
    exact updFlags_spends fun _ => reserved_flagsLogic ..
  | flagsInc =>
    obtain rfl := Option.some.inj hp
    exact updFlags_spends fun _ => reserved_keepCarry (reserved_flagsArith ..)
  | flagsDec =>
    obtain rfl := Option.some.inj hp
    exact updFlags_spends fun _ => reserved_keepCarry (reserved_flagsArith ..)
  | shift =>
    obtain rfl := Option.some.inj hp
    exact ⟨Gauge.flags fun f => reserved_rsdIShift f a1 a2 a3.toNat (a4.setWidth 8)⟩
  | comisd =>
    obtain rfl := Option.some.inj hp
    exact updFlags_spends fun _ => reserved_comis ..
  | comiss =>
    obtain rfl := Option.some.inj hp
    exact updFlags_spends fun _ => reserved_comis ..
  | cvt2si =>
    obtain rfl := Option.some.inj hp
    infer_instance
  | st => cases hh
  | wlog => cases hh
  | ld128 => cases hh
  | st128 => cases hh
  | nanD => cases hh
  | nanS => cases hh

/-- A call makes two entries at most. -/
lemma gauge_effect (fp : Fp) (check : Bool) : Effect fp check fun n => R (2 * n) where
  scratch h := by
    obtain ⟨r, x, rip, t, rfl⟩ := h
    exact Gauge.same rfl rfl
  trans h h' := by
    rw [Nat.mul_add]
    exact Graded.trans h h'
  mono h hmn := Graded.mono h (Nat.mul_le_mul_left 2 hmn)
  routine c hh hp := Graded.mono ((runHelper_spends fp hh hp).spends c) (Nat.zero_le 2)
  st a v size c _ := Graded.mono (Spends.spends (p := rsdISt a v size) c) (by decide)
  ld128 a c := Graded.mono (Spends.spends (p := ld128 a) c) (Nat.zero_le 2)
  st128 a v c := Spends.spends (p := st128 a v) c
  flags need word c hneed := by
    have hbits : reserved ((c.flags &&& ~~~need) ||| (word &&& need)) = reserved c.flags := by
      rw [reserved_or_of (reserved_select hneed), reserved_clear hneed]
    exact Gauge.aside rfl (.inl hbits)
  store a v size c _ := by
    cases check with
    | false => exact Gauge.same rfl rfl
    | true =>
      have hmem : R 0 (logWrite a v size c).2 { (logWrite a v size c).2 with mem := storeLE c.mem a v size } :=
        Gauge.same rfl rfl
      exact Graded.mono (Graded.trans (logWrite_gauge a v size c) hmem) (by decide)

end Gauges

end Rashid.Proofs
