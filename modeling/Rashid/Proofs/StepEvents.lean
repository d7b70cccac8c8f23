import Rashid.Proofs.MachineAccesses
import Rashid.Proofs.SseAccesses

/-!
# The events of a step

A step fetches and executes an instruction, which may end in a system call, or it gathers the
arguments of a call. A call reads and does nothing else to memory; a system call is a single event.
-/

namespace Rashid

namespace Event

/-- A read of what a call is given, allowed or not. -/
def isRead : Event → Bool
  | load site .. => site == .data
  | denied site x .. => site == .data && x == .read
  | _ => false

def onOperand : Event → Bool
  | load site .. | store site .. | denied site .. => site == .operand
  | _ => false

def isDenied : Event → Bool
  | denied .. => true
  | _ => false

def isStore : Event → Bool
  | store .. => true
  | _ => false

def isRaised : Event → Bool
  | raised .. => true
  | _ => false

/-- A read, or a fault of its own. -/
def isGathering (e : Event) : Bool := e.isRead || e.isRaised

end Event

end Rashid

namespace Rashid.Proofs

section Causes

variable {α β : Type} {P Q : Event → Bool}

/-- A program all of whose events are of a kind. -/
def Causes (P : Event → Bool) (p : M α) [Traced Accounts p] : Prop := ∀ c, ∀ e ∈ eventsOf p c, P e = true

lemma Causes.quiet {p : M α} {_ : Traced Accounts p} (h : ∀ c, eventsOf p c = []) : Causes P p := by
  intro c e he
  rw [h] at he
  cases he

lemma Causes.pure (a : α) : Causes P (Pure.pure a : M α) := .quiet fun _ => rfl

lemma Causes.bind {x : M α} {f : α → M β} {_ : Traced Accounts x} {_ : ∀ a, Traced Accounts (f a)} (hx : Causes P x)
    (hf : ∀ a, Causes P (f a)) : Causes P (x >>= f) := by
  intro c e he
  rw [eventsOf_bind, List.mem_append] at he
  exact he.elim (hx c e) (hf _ _ e)

lemma Causes.ite {b : Prop} [Decidable b] {x y : M α} {_ : Traced Accounts x} {_ : Traced Accounts y} (hx : Causes P x)
    (hy : Causes P y) : Causes P (if b then x else y) := by
  intro c e he
  rw [eventsOf_ite] at he
  split at he
  · exact hx c e he
  · exact hy c e he

lemma Causes.dite {b : Prop} [Decidable b] {x : b → M α} {y : ¬ b → M α} {_ : ∀ h, Traced Accounts (x h)}
    {_ : ∀ h, Traced Accounts (y h)} (hx : ∀ h, Causes P (x h)) (hy : ∀ h, Causes P (y h)) :
    Causes P (if h : b then x h else y h) := by
  intro c e he
  have heq : eventsOf (if h : b then x h else y h) c = if h : b then eventsOf (x h) c else eventsOf (y h) c := rfl
  rw [heq] at he
  split at he
  · exact hx _ c e he
  · exact hy _ c e he

lemma Causes.mono {p : M α} {_ : Traced Accounts p} (h : Causes P p) (hPQ : ∀ e, P e = true → Q e = true) : Causes Q p :=
  fun c e he => hPQ e (h c e he)

/-- A single event of the kind. -/
lemma Causes.one {p : M α} {_ : Traced Accounts p} {f : Cpu → Event} (h : ∀ c, eventsOf p c = [f c])
    (hf : ∀ c, P (f c) = true) : Causes P p := by
  intro c e he
  rw [h, List.mem_singleton] at he
  rw [he]
  exact hf c

end Causes

/-! ### Calls -/

section Calls

lemma ld_loads (a : BitVec 64) (n : Nat) : Causes Event.isRead (ld a n) := by
  intro c e he
  rw [List.mem_singleton.mp he]
  unfold readEvent
  split <;> rfl

lemma sysvStack_loads (a : SysvReader) : Causes Event.isRead (sysvStack a) := .bind (ld_loads _ _) fun _ => .pure _

lemma sysvInt_loads (a : SysvReader) : Causes Event.isRead (sysvInt a) := by
  have hfrom (i : Option (Fin 16)) : Causes Event.isRead (sysvIntFrom a i) := by
    cases i with
    | some i => exact .quiet fun _ => rfl
    | none => exact sysvStack_loads a
  exact hfrom _

lemma sysvSse_loads (a : SysvReader) : Causes Event.isRead (sysvSse a) :=
  .dite (fun _ => .quiet fun _ => rfl) fun _ => sysvStack_loads a

lemma marshalDirective_loads (fuel : Nat) (p : BitVec 64) (star long : Bool) :
    Causes Event.isRead (marshalDirective fuel p star long) := by
  induction fuel generalizing p star long with
  | zero => exact .pure _
  | succ fuel ih =>
    exact .bind (ld_loads _ _) fun ch => .bind (.quiet fun _ => rfl) fun go => .ite (.pure _) <| .ite (ih _ _ _) <|
      .ite (ih _ _ _) <| .ite (.pure _) (ih _ _ _)

lemma marshalSlots_loads (scan star : Bool) (conv : BitVec 64) (a : SysvReader) (slots : List (BitVec 64)) (max : Nat) :
    Causes Event.isRead (marshalSlots scan star conv a slots max) := by
  have hslot (a : SysvReader) (slots : List (BitVec 64)) : Causes Event.isRead (if max ≤ slots.length then pure none
      else if !scan && charIn "fFeEgGaA" conv then sysvSse a >>= fun x => pure (some (x.2, slots ++ [x.1]))
      else sysvInt a >>= fun x => pure (some (x.2, slots ++ [x.1]))) :=
    .ite (.pure _) <| .ite (.bind (sysvSse_loads a) fun _ => .pure _) (.bind (sysvInt_loads a) fun _ => .pure _)
  exact .ite (.pure _) <| .ite (.bind (sysvInt_loads a) fun _ => hslot _ _) (hslot _ _)

lemma marshalLoop_loads (scan : Bool) (max fuel : Nat) (p : BitVec 64) (a : SysvReader) (slots : List (BitVec 64)) :
    Causes Event.isRead (marshalLoop scan max fuel p a slots) := by
  have hturn (fuel : Nat) (next : BitVec 64 → SysvReader → List (BitVec 64) → M (Option (List (BitVec 64))))
      [∀ p a slots, Traced Accounts (next p a slots)]
        (h : ∀ p a slots, Causes Event.isRead (next p a slots)) (p : BitVec 64)
      (a : SysvReader) (slots : List (BitVec 64)) : Causes Event.isRead (marshalTurn scan max fuel next p a slots) := by
    have hon (p : BitVec 64) (r : Option (SysvReader × List (BitVec 64))) : Causes Event.isRead (marshalOn next p r) := by
      cases r with
      | none => exact .pure _
      | some r => exact h _ _ _
    have hconv (a : SysvReader) (slots : List (BitVec 64)) (x : BitVec 64 × Bool × Bool × BitVec 64) :
        Causes Event.isRead (marshalConv scan max next a slots x) :=
      .ite (h _ _ _) <| .ite (.pure _) <| .ite (h _ _ _) <| .bind (marshalSlots_loads _ _ _ _ _ _) fun r => hon _ r
    exact .bind (ld_loads _ _) fun ch => .bind (.quiet fun _ => rfl) fun go => .ite (.pure _) <| .ite (.pure _) <|
      .ite (h _ _ _) <| .bind (marshalDirective_loads _ _ _ _) fun x => hconv _ _ x
  induction fuel generalizing p a slots with
  | zero => exact .pure _
  | succ fuel ih => exact hturn fuel (marshalLoop scan max fuel) ih p a slots

lemma formatted_loads (fmt : BitVec 64) (scan : Bool) (a : SysvReader) (max : Nat) :
    Causes Event.isRead (marshalFormat fmt scan a max) :=
  marshalLoop_loads scan max addressCount fmt a []

lemma fixedArgs_loads (n : Nat) (a : SysvReader) : Causes Event.isRead (fixedArgs n a) := by
  induction n generalizing a with
  | zero => exact .pure _
  | succ n ih => exact .bind (sysvInt_loads a) fun x => .bind (ih x.2) fun _ => .pure _

lemma callNative_loads (rt : Runtime) (imp : Nat) (cbarg : Int) (objcrecv : Bool) :
    Causes Event.isRead (callNative rt imp cbarg objcrecv) :=
  .bind (.quiet fun _ => rfl) fun _ => .ite (.bind (.quiet fun _ => rfl) fun _ => .quiet fun _ => rfl)
    (.quiet fun _ => rfl)

lemma isGathering_of_read (e : Event) (h : e.isRead = true) : e.isGathering = true := Bool.or_eq_true_iff.mpr (.inl h)

lemma callFormatted_causes (rt : Runtime) (imp : Nat) (sp : VaSpec) (nfixed fmtIndex : Nat) (objcrecv : Bool) :
    Causes Event.isGathering (callFormatted rt imp sp nfixed fmtIndex objcrecv) := by
  have hfail (f : Fault) : Causes Event.isGathering (failVariadic f) := .one (fun _ => rfl) fun _ => rfl
  have hslots (x : List (BitVec 64)) (slots : Option (List (BitVec 64))) :
      Causes Event.isGathering (sendSlots imp x slots) := by
    cases slots with
    | none => exact .bind (.quiet fun _ => rfl) fun _ => .ite (.bind (hfail _) fun _ => .pure _) (.pure _)
    | some slots => exact .pure _
  have hsend (r : List (BitVec 64) × SysvReader) :
      Causes Event.isGathering (sendFormatted rt imp sp fmtIndex objcrecv r) :=
    .ite (.bind (hfail _) fun _ => .pure _) <|
      .bind ((formatted_loads _ _ _ _).mono isGathering_of_read) fun slots => hslots _ slots
  exact .bind (.quiet fun _ => rfl) fun _ => .bind ((fixedArgs_loads _ _).mono isGathering_of_read) hsend

/-- A call reads, or raises a fault of its own. -/
lemma stepStub_causes (rt : Runtime) (st : Stubs) (imp : Nat) : Causes Event.isGathering (stepStub rt st imp) := by
  have hnative (cbarg : Int) (objcrecv : Bool) : Causes Event.isGathering (callNative rt imp cbarg objcrecv) :=
    (callNative_loads rt imp cbarg objcrecv).mono isGathering_of_read
  have hvariadic (sp : VaSpec) (objcrecv : Bool) : Causes Event.isGathering (callNativeVariadic rt imp sp objcrecv) :=
    .ite (.bind (.quiet fun _ => rfl) fun _ => .ite (.bind (hnative _ _) fun _ => .pure _)
      (callFormatted_causes _ _ _ _ _ _))
      (callFormatted_causes _ _ _ _ _ _)
  have hcall (va : Option VaSpec) : Causes Event.isGathering (stubCall rt st imp va) := by
    cases va with
    | none => exact .bind (hnative _ _) fun _ => .pure _
    | some sp => exact .bind (hvariadic _ _) fun _ => .pure _
  have hthunk : Causes Event.isGathering (noThunk imp) := .one (fun _ => rfl) fun _ => rfl
  have hall : Causes Event.isGathering
      (if st.fns imp then stubCall rt st imp (st.va imp) else noThunk imp >>= fun _ => pure StepOut.done) :=
    .ite (hcall _) (.bind hthunk fun _ => .pure _)
  exact hall

end Calls

/-! ### System calls -/

section Syscalls

variable {α β : Type}

/-- At most one event, and not at an operand. -/
def Brief (p : M α) [Traced Accounts p] : Prop :=
  ∀ c, eventsOf p c = [] ∨ ∃ e, eventsOf p c = [e] ∧ e.onOperand = false

lemma Brief.quiet {p : M α} {_ : Traced Accounts p} (h : ∀ c, eventsOf p c = []) : Brief p := fun c => .inl (h c)

lemma Brief.one {p : M α} {_ : Traced Accounts p} {f : Cpu → Event} (h : ∀ c, eventsOf p c = [f c])
    (hf : ∀ c, (f c).onOperand = false) : Brief p :=
  fun c => .inr ⟨f c, h c, hf c⟩

lemma Brief.then {x : M α} {f : α → M β} {_ : Traced Accounts x} {_ : ∀ a, Traced Accounts (f a)}
    (hx : ∀ c, eventsOf x c = []) (hf : ∀ a, Brief (f a)) : Brief (x >>= f) := by
  intro c
  rw [eventsOf_bind, hx]
  exact hf _ _

lemma Brief.last {x : M α} {f : α → M β} {_ : Traced Accounts x} {_ : ∀ a, Traced Accounts (f a)} (hx : Brief x)
    (hf : ∀ a c, eventsOf (f a) c = []) : Brief (x >>= f) := by
  intro c
  rw [eventsOf_bind, hf, List.append_nil]
  exact hx c

lemma Brief.ite {b : Prop} [Decidable b] {x y : M α} {_ : Traced Accounts x} {_ : Traced Accounts y} (hx : Brief x)
    (hy : Brief y) : Brief (if b then x else y) := by
  intro c
  rw [eventsOf_ite]
  split
  · exact hx c
  · exact hy c

variable (k : Kernel) (n a0 a1 a2 : BitVec 64)

lemma sysRead_brief : Brief (sysRead k a0 a1 a2) := by
  intro c
  right
  by_cases h : accessOk c.as a1 a2 rsdProtW = true
  · exact ⟨_, if_pos h, rfl⟩
  · exact ⟨_, if_neg h, rfl⟩

lemma sysWrite_brief : Brief (sysWrite k a0 a1 a2) := by
  intro c
  right
  by_cases h : accessOk c.as a1 a2 rsdProtR = true
  · exact ⟨_, if_pos h, rfl⟩
  · exact ⟨_, if_neg h, rfl⟩

lemma unimplementedSyscall_brief : Brief unimplementedSyscall :=
  .then (fun _ => rfl) fun _ => .one (fun _ => rfl) fun _ => rfl

lemma setAs_brief (as : As) (evs : List HostEvent) : Brief (setAs as evs) := .one (fun _ => rfl) fun _ => rfl

lemma sysMunmap_brief : Brief (sysMunmap k a0 a1) := .then (fun _ => rfl) fun _ => (setAs_brief _ _).last fun _ _ => rfl

lemma sysMprotect_brief : Brief (sysMprotect k a0 a1 a2) :=
  .then (fun _ => rfl) fun _ => (setAs_brief _ _).last fun _ _ => rfl

lemma sysMmap_brief : Brief (sysMmap k a0 a1 a2) :=
  .then (fun _ => rfl) fun _ => .then (fun _ => rfl) fun _ => .ite unimplementedSyscall_brief <|
    .then (fun _ => rfl) fun _ =>
    (setAs_brief _ _).last fun _ _ => ite_self []

lemma sysBsd_brief : Brief (sysBsd k n a0 a1 a2) := by
  have hcall {x : M Unit} [Traced Accounts x] (h : Brief x) : Brief (x >>= fun _ => pure SysOut.ret) :=
    h.last fun _ _ => rfl
  exact .ite (.quiet fun _ => rfl) <| .ite (hcall (sysRead_brief k a0 a1 a2)) <| .ite
    (hcall (sysWrite_brief k a0 a1 a2)) <|
    .ite (.quiet fun _ => rfl) <| .ite (hcall (sysMunmap_brief k a0 a1)) <| .ite (hcall (sysMprotect_brief k a0 a1 a2)) <|
      .ite (.quiet fun _ => rfl) <| .ite (hcall (sysMmap_brief k a0 a1 a2)) (hcall unimplementedSyscall_brief)

lemma doSyscall_brief : Brief (doSyscall k) := by
  have hmdep (n a0 : BitVec 64) : Brief (sysMdep n a0) :=
    .ite (.quiet fun _ => rfl) (unimplementedSyscall_brief.last fun _ _ => rfl)
  exact .then (fun _ => rfl) fun _ => .then (fun _ => rfl) fun _ => .then (fun _ => rfl) fun _ =>
    .then (fun _ => rfl) fun _ =>
    .ite (hmdep _ _) <| .ite (unimplementedSyscall_brief.last fun _ _ => rfl) (sysBsd_brief k _ _ _ _)

end Syscalls

/-! ### Steps -/

/-- An instruction is fetched and executed. -/
structure Executes (c : Cpu) : Prop where
  callback : c.rip ≠ callbackMagic
  main : c.rip ≠ returnMagic
  stub : rsdStubIndex c.stubs c.rip = none
  fetch : rsdAsOk c.as c.rip 1 rsdProtX = true

section Step

variable (fp : Fp) (rt : Runtime) (k : Kernel) {c : Cpu}

lemma step_executes (h : Executes c) : eventsOf (step fp rt k) c = eventsOf (stepCode fp k) c := by
  have hfetched (st : Option Stubs) : stepFetched fp rt k c st none = eventsOf (stepCode fp k) c := by
    cases st <;> exact if_pos h.fetch
  refine (if_neg (not_or.mpr ⟨h.callback, h.main⟩)).trans ?_
  rw [h.stub]
  exact hfetched _

/-- The events of a step that executes an instruction are those of the instruction, or of a
system call that the instruction makes and nothing else. -/
lemma executed_events (h : Executes c) : eventsOf (step fp rt k) c = eventsOf (stepInsn fp) c ∨
    actsOf (stepInsn fp) c = [] ∧ ∃ c', eventsOf (step fp rt k) c = eventsOf (doSyscall k) c' := by
  rw [step_executes fp rt k h]
  have hcode : eventsOf (stepCode fp k) c =
      eventsOf (stepInsn fp) c ++ eventsOf (codeOut k (stepInsn fp c).1.1) (stepInsn fp c).2 := rfl
  rw [hcode]
  cases hout : (stepInsn fp c).1.1 with
  | done => exact .inl (List.append_nil _)
  | syscall =>
    have hacts := syscall_acts fp c hout
    refine .inr ⟨hacts, (stepInsn fp c).2, ?_⟩
    rw [List.map_eq_nil_iff.mp hacts]
    exact List.append_nil _

/-- Otherwise nothing happens, the fetch is denied, or a call is made. -/
lemma unexecuted_events (h : ¬ Executes c) : eventsOf (step fp rt k) c = [] ∨
    (∃ what rip, eventsOf (step fp rt k) c = [.denied .code .fetch c.rip 1 what rip]) ∨
    ∃ st imp, eventsOf (step fp rt k) c = eventsOf (stepStub rt st imp) c := by
  by_cases hmagic : c.rip = callbackMagic ∨ c.rip = returnMagic
  · exact .inl (if_pos hmagic)
  obtain ⟨hcb, hret⟩ := not_or.mp hmagic
  have hrun : eventsOf (step fp rt k) c = stepFetched fp rt k c c.stubs (rsdStubIndex c.stubs c.rip) := if_neg hmagic
  rw [hrun]
  right
  cases hi : rsdStubIndex c.stubs c.rip with
  | none =>
    left
    have hx : ¬ rsdAsOk c.as c.rip 1 rsdProtX = true := fun hx => h ⟨hcb, hret, hi, hx⟩
    cases c.stubs <;> exact ⟨_, _, if_neg hx⟩
  | some imp =>
    right
    cases hst : c.stubs with
    | none =>
      rw [hst] at hi
      cases hi
    | some st => exact ⟨st, imp, rfl⟩

end Step

end Rashid.Proofs
