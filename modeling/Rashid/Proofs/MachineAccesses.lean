import Rashid.Proofs.CallAccesses
import Rashid.Proofs.StepAccesses
import Rashid.Run

/-!
# The accesses of a step

Calls through a stub and system calls with their events, and with them a whole step.
-/

namespace Rashid.Proofs

/-! ### Calls -/

instance (rt : Runtime) (fn : BitVec 64) : Traced Accounts (rsdCallbackFor rt fn) := .quiet fun c => by
  unfold rsdCallbackFor
  split
  · rfl
  · split
    · rfl
    · split <;> rfl

instance : Traced Accounts intArgs := .get _
instance : Traced Accounts floatArgs := .get _

instance (rt : Runtime) (imp : Nat) (cbarg : Int) (objcrecv : Bool) :
    Traced Accounts (callNative rt imp cbarg objcrecv) := by
  unfold callNative; infer_instance

instance fixedArgsTraced (n : Nat) (a : SysvReader) : Traced Accounts (fixedArgs n a) := by
  match n with
  | 0 => exact .pure _
  | n + 1 =>
    have ih := fixedArgsTraced n
    unfold fixedArgs
    infer_instance

instance (f : Fault) : Traced Accounts (failVariadic f) where
  events c := [.raised f c.curRip]
  accounts _ := accounts_one trivial rfl

/-- The end of a formatted call: what has been marshalled is handed over. -/
def sendSlots (imp : Nat) (x : List (BitVec 64)) : Option (List (BitVec 64)) → M (Option NativeCall)
  | none => do
    let fault ← rdFault
    if fault = none then failVariadic .variadic
    pure none
  | some slots => pure (some ⟨imp, x, List.replicate 8 0, slots⟩)

instance (imp : Nat) (x : List (BitVec 64)) (slots : Option (List (BitVec 64))) :
    Traced Accounts (sendSlots imp x slots) := by
  cases slots <;> (unfold sendSlots; infer_instance)

/-- The register arguments of a call whose fixed arguments are `vs`. -/
def callRegs (rt : Runtime) (objcrecv : Bool) (vs : List (BitVec 64)) : List (BitVec 64) :=
  let x := vs ++ List.replicate (8 - vs.length) 0
  if objcrecv then x.set 0 (rt.realClass (x.getD 0 0)) else x

/-- The marshalling once the fixed arguments have been read. -/
def sendFormatted (rt : Runtime) (imp : Nat) (sp : VaSpec) (fmtIndex : Nat) (objcrecv : Bool)
    (r : List (BitVec 64) × SysvReader) : M (Option NativeCall) :=
  let x := callRegs rt objcrecv r.1
  let fmt := x.getD fmtIndex 0
  if sp.nsformat && rt.cstring fmt == 0 then do
    failVariadic .formatString
    pure none
  else do
    let slots ← marshalFormat (if sp.nsformat then rt.cstring fmt else fmt) sp.scan r.2 64
    sendSlots imp x slots

instance (rt : Runtime) (imp : Nat) (sp : VaSpec) (fmtIndex : Nat) (objcrecv : Bool) (r : List (BitVec 64) × SysvReader) :
    Traced Accounts (sendFormatted rt imp sp fmtIndex objcrecv r) := by
  unfold sendFormatted; infer_instance

instance (rt : Runtime) (imp : Nat) (sp : VaSpec) (nfixed fmtIndex : Nat) (objcrecv : Bool) :
    Traced Accounts (callFormatted rt imp sp nfixed fmtIndex objcrecv) :=
  inferInstanceAs (Traced Accounts (do
    let sp0 ← rdR rsp
    let r ← fixedArgs (min nfixed 8) ⟨0, 0, sp0 + 8⟩
    sendFormatted rt imp sp fmtIndex objcrecv r))

instance (rt : Runtime) (imp : Nat) (sp : VaSpec) (objcrecv : Bool) :
    Traced Accounts (callNativeVariadic rt imp sp objcrecv) := by
  unfold callNativeVariadic; infer_instance

instance (imp : Nat) : Traced Accounts (noThunk imp) where
  events c := [.raised .noThunk c.rip]
  accounts _ := accounts_one trivial rfl

def callOut : Option NativeCall → StepOut
  | some call => .native call
  | none => .done

/-- A call with what is known of its arguments, or none. -/
def stubCall (rt : Runtime) (st : Stubs) (imp : Nat) : Option VaSpec → M StepOut
  | some sp => do
    let call ← callNativeVariadic rt imp sp (st.objcrecv imp)
    pure (callOut call)
  | none => do
    let call ← callNative rt imp (st.cbarg imp) (st.objcrecv imp)
    pure (.native call)

instance (rt : Runtime) (st : Stubs) (imp : Nat) (va : Option VaSpec) : Traced Accounts (stubCall rt st imp va) := by
  cases va <;> (unfold stubCall; infer_instance)

lemma stepStub_eq (rt : Runtime) (st : Stubs) (imp : Nat) : stepStub rt st imp =
    if st.fns imp then stubCall rt st imp (st.va imp) else noThunk imp >>= fun _ => pure .done := by
  unfold stepStub
  cases st.va imp with
  | none => rfl
  | some sp =>
    have hsend : (callNativeVariadic rt imp sp (st.objcrecv imp) >>= fun call => match call with
        | some call => pure (StepOut.native call)
        | none => pure StepOut.done) = stubCall rt st imp (some sp) := by
      refine congrArg (callNativeVariadic rt imp sp (st.objcrecv imp) >>= ·) (funext fun call => ?_)
      cases call <;> rfl
    exact congrArg (fun p => if st.fns imp then p else noThunk imp >>= fun _ => pure StepOut.done) hsend

instance (rt : Runtime) (st : Stubs) (imp : Nat) : Traced Accounts (stepStub rt st imp) where
  events := eventsOf (if st.fns imp then stubCall rt st imp (st.va imp) else noThunk imp >>= fun _ => pure .done)
  accounts c := by
    rw [stepStub_eq]
    exact eventsOf_accounts _ c

/-! ### System calls -/

section Syscalls

variable (k : Kernel)

lemma syscallRet_seen (ret : Int) (c : Cpu) : (syscallRet ret c).2.seen = c.seen := by
  unfold syscallRet
  by_cases h : ret < 0
  · simp only [h, if_true]
    rfl
  · simp only [h, if_false]
    rfl

instance (ret : Int) : Traced Accounts (syscallRet ret) := .quiet fun c => syscallRet_seen ret c

instance : Traced Accounts unimplementedSyscall := by
  unfold unimplementedSyscall; infer_instance

instance (as : As) (evs : List HostEvent) : Traced Accounts (setAs as evs) where
  events c := [.mapped as (evs.foldl zeroFill c.mem)]
  accounts _ := accounts_one trivial rfl

instance (a0 a1 a2 : BitVec 64) : Traced Accounts (sysRead k a0 a1 a2) where
  events c := if accessOk c.as a1 a2 rsdProtW then [.store .data a1 a2.toNat (k.read (a0.setWidth 32) a1 a2).2]
    else [.denied .data .write a1 a2.toNat .readBuffer c.curRip]
  accounts c := by
    have hn : BitVec.ofNat 64 a2.toNat = a2 := by rw [BitVec.ofNat_toNat, BitVec.setWidth_eq]
    have heval : sysRead k a0 a1 a2 c = (if accessOk c.as a1 a2 rsdProtW then do
        Prog.modify fun c => { c with mem := poke c.mem a1 (k.read (a0.setWidth 32) a1 a2).2 }
        syscallRet (k.read (a0.setWidth 32) a1 a2).1
      else memfault a1 .readBuffer : M Unit) c := rfl
    rw [heval]
    by_cases h : accessOk c.as a1 a2 rsdProtW = true
    · rw [if_pos h, if_pos h]
      refine accounts_one ?_ (syscallRet_seen _ _)
      rw [← hn] at h
      exact h
    · rw [if_neg h, if_neg h]
      exact memfault_accounts .data a1 a2.toNat c _ (by rw [hn]; exact Bool.eq_false_iff.mpr h)

instance (a0 a1 a2 : BitVec 64) : Traced Accounts (sysWrite k a0 a1 a2) where
  events c := if accessOk c.as a1 a2 rsdProtR then [.load .data a1 a2.toNat]
    else [.denied .data .read a1 a2.toNat .writeBuffer c.curRip]
  accounts c := by
    have hn : BitVec.ofNat 64 a2.toNat = a2 := by rw [BitVec.ofNat_toNat, BitVec.setWidth_eq]
    have heval : sysWrite k a0 a1 a2 c = (if accessOk c.as a1 a2 rsdProtR then
        syscallRet (k.write (a0.setWidth 32) a1 a2) else memfault a1 .writeBuffer : M Unit) c := rfl
    rw [heval]
    by_cases h : accessOk c.as a1 a2 rsdProtR = true
    · rw [if_pos h, if_pos h]
      refine accounts_one ?_ (syscallRet_seen _ _)
      rw [← hn] at h
      exact h
    · rw [if_neg h, if_neg h]
      exact memfault_accounts .data a1 a2.toNat c _ (by rw [hn]; exact Bool.eq_false_iff.mpr h)

instance (a0 a1 : BitVec 64) : Traced Accounts (sysMunmap k a0 a1) := by
  unfold sysMunmap; infer_instance

instance (a0 a1 a2 : BitVec 64) : Traced Accounts (sysMprotect k a0 a1 a2) := by
  unfold sysMprotect; infer_instance

instance (a0 a1 a2 : BitVec 64) : Traced Accounts (sysMmap k a0 a1 a2) := by
  unfold sysMmap; infer_instance

instance (v : BitVec 64) : Traced Accounts (wrGs v) := .quiet fun _ => rfl

instance (n a0 : BitVec 64) : Traced Accounts (sysMdep n a0) := by
  unfold sysMdep; infer_instance

instance (a0 : BitVec 64) : Traced Accounts (sysExit a0) := .quiet fun _ => rfl

instance (n a0 a1 a2 : BitVec 64) : Traced Accounts (sysBsd k n a0 a1 a2) := by
  unfold sysBsd; infer_instance

instance : Traced Accounts (doSyscall k) := by
  unfold doSyscall; infer_instance

end Syscalls

/-! ### The step -/

section Step

variable (fp : Fp) (rt : Runtime) (k : Kernel)

/-- What follows an instruction. -/
def codeOut : InsnOut → M StepOut
  | .done => pure .done
  | .syscall => do
    let r ← doSyscall k
    pure (sysStepOut r)

instance (out : InsnOut) : Traced Accounts (codeOut k out) := by
  cases out <;> (unfold codeOut; infer_instance)

instance : Traced Accounts (stepCode fp k) := inferInstanceAs (Traced Accounts (stepInsn fp >>= fun x => codeOut k x.1))

/-- The fetch of an instruction, or the import that is called in its place. -/
def stepFetched (c : Cpu) : Option Stubs → Option Nat → List Event
  | some st, some imp => eventsOf (stepStub rt st imp) c
  | _, _ =>
    if rsdAsOk c.as c.rip 1 rsdProtX then eventsOf (stepCode fp k) c
    else [.denied .code .fetch c.rip 1 (why c.as c.rip 1) c.curRip]

instance : Traced Accounts (step fp rt k) where
  events c := if c.rip = callbackMagic ∨ c.rip = returnMagic then []
    else stepFetched fp rt k c c.stubs (rsdStubIndex c.stubs c.rip)
  accounts c := by
    have hcode : Accounts c (if rsdAsOk c.as c.rip 1 rsdProtX then eventsOf (stepCode fp k) c
        else [.denied .code .fetch c.rip 1 (why c.as c.rip 1) c.curRip])
        (if rsdAsOk c.as c.rip 1 rsdProtX then stepCode fp k c
          else (.done, (memfault c.rip (why c.as c.rip 1) c).2)).2 := by
      by_cases hx : rsdAsOk c.as c.rip 1 rsdProtX = true
      · rw [if_pos hx, if_pos hx]
        exact eventsOf_accounts (stepCode fp k) c
      · rw [if_neg hx, if_neg hx]
        exact memfault_accounts .code c.rip 1 c _ (Bool.eq_false_iff.mpr hx)
    unfold step
    by_cases hcb : c.rip = callbackMagic
    · rw [if_pos (.inl hcb), if_pos hcb]
      rfl
    by_cases hret : c.rip = returnMagic
    · rw [if_pos (.inr hret), if_neg hcb, if_pos hret]
      rfl
    rw [if_neg (not_or.mpr ⟨hcb, hret⟩), if_neg hcb, if_neg hret]
    generalize rsdStubIndex c.stubs c.rip = imp
    generalize c.stubs = st
    cases st with
    | none => exact hcode
    | some st =>
      cases imp with
      | none => exact hcode
      | some imp => exact eventsOf_accounts (stepStub rt st imp) c

end Step

end Rashid.Proofs
