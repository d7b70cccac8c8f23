import Rashid.Syscall
import Rashid.Lib.Prog

/-!
# What a system call returns

The host reports a failure as -1 with a number in `errno`, and the address space as -1 or 0. The
guest is to get the number in rax with CF set, but is given the negated result of the host instead.
-/

namespace Rashid

/-- What the host makes of a call. -/
inductive Outcome (α : Type) where
  | failed (errno : BitVec 32)
  | value (v : α)
  deriving DecidableEq, Repr

namespace Outcome

def map {α β : Type} (f : α → β) : Outcome α → Outcome β
  | failed e => .failed e
  | value v => .value (f v)

/-- The result of a call of the C library, which leaves the number of an error elsewhere. -/
def libc : Outcome Nat → Int
  | failed _ => -1
  | value v => v

def ok {α : Type} : Outcome α → Bool
  | failed _ => false
  | value _ => true

def mapped {α : Type} : Outcome α → Option α
  | failed _ => none
  | value v => some v

/-- What the guest is to see: the flags and the word in rax. -/
def flags (o : Outcome (BitVec 64)) (f : BitVec 32) : BitVec 32 :=
  match o with
  | failed _ => f ||| fCF
  | value _ => f &&& ~~~fCF

def word : Outcome (BitVec 64) → BitVec 64
  | failed e => e.setWidth 64
  | value v => v

end Outcome

/-- The host with the numbers of its errors. Without a fixed address it never maps the page at 0. -/
structure Answers where
  page : BitVec 64
  read : BitVec 32 → BitVec 64 → BitVec 64 → Outcome Nat × List (BitVec 8)
  write : BitVec 32 → BitVec 64 → BitVec 64 → Outcome Nat
  close : BitVec 32 → Outcome Nat
  munmap : BitVec 64 → BitVec 64 → Outcome Unit
  mmap : BitVec 64 → BitVec 64 → Bool → Outcome (BitVec 64)
  remap : BitVec 64 → Outcome (BitVec 64)
  alloc : Bool
  mmap_ne : ∀ want len fixed, mmap want len fixed = .value 0 → want = 0 ∧ fixed = true
  remap_ne : ∀ len, remap len ≠ .value 0

def enomem : BitVec 32 := 12

namespace Answers

variable (h : Answers)

/-- As the machine sees it. -/
def kernel : Kernel where
  page := h.page
  mmap want len fixed := (h.mmap want len fixed).mapped
  remap len := (h.remap len).mapped
  munmap lo len := (h.munmap lo len).ok
  alloc := h.alloc
  read fd a n := ((h.read fd a n).1.libc, (h.read fd a n).2)
  write fd a n := (h.write fd a n).libc
  close fd := (h.close fd).libc

/-- The memory that the host gives, at the second attempt if need be. -/
def memory (at_ len : BitVec 64) (fixed : Bool) : Outcome (BitVec 64) :=
  let host := h.kernel.toHost
  match h.mmap (mapWant host at_) (mapSize host at_ len) (at_ != 0 && fixed) with
  | .value p => .value p
  | .failed e => if at_ != 0 && !fixed then h.remap (mapHi host at_ len) else .failed e

/-- The memory is to be recorded as a region. An address asked for is answered with itself. -/
def mapOutcome (as : As) (at_ len : BitVec 64) (fixed : Bool) : Outcome (BitVec 64) :=
  match h.memory at_ len fixed with
  | .failed e => .failed e
  | .value p =>
    if as.reg.length = as.cap ∧ h.alloc = false then .failed enomem
    else .value (if at_ != 0 && p == mapWant h.kernel.toHost at_ then at_ else p)

/-- What the host makes of the call that the guest asks for, if it is asked. -/
def outcome (c : Cpu) : Option (Outcome (BitVec 64)) :=
  let n := syscallNumber (c.r rax)
  let a0 := c.r rdi
  let a1 := c.r rsi
  let a2 := c.r rdx
  if syscallClass (c.r rax) ≠ 2 then none
  else if n = 3 then
    if accessOk c.as a1 a2 rsdProtW then some ((h.read (a0.setWidth 32) a1 a2).1.map (BitVec.ofNat 64)) else none
  else if n = 4 then
    if accessOk c.as a1 a2 rsdProtR then some ((h.write (a0.setWidth 32) a1 a2).map (BitVec.ofNat 64)) else none
  else if n = 6 then some ((h.close (a0.setWidth 32)).map (BitVec.ofNat 64))
  else if n = 73 then
    some ((h.munmap (pageDown h.page a0) (pageUp h.page (a0 + a1) - pageDown h.page a0)).map fun _ => 0)
  else if n = 74 then some (if a1 = 0 ∨ h.alloc = true then .value 0 else .failed enomem)
  else if n = 75 then some (.value 0)
  else if n = 197 then
    -- memory of a file is not mapped, and no memory is not asked for
    if (c.r r10 &&& 0x1000 = 0 ∧ ((c.r r8).setWidth 32).msb = false) ∨ a1 = 0 then none
    else some (h.mapOutcome c.as a0 a1 (c.r r10 &&& 0x10 != 0))
  else none

end Answers

/-- The guest sees the outcome, and of its registers and flags nothing else has changed. -/
structure GuestSees (o : Outcome (BitVec 64)) (c c' : Cpu) : Prop where
  flags : c'.flags = o.flags c.flags
  regs : c'.r = Function.update c.r rax o.word
  xmm : c'.xmm = c.xmm
  rip : c'.rip = c.rip
  bases : c'.fsBase = c.fsBase ∧ c'.gsBase = c.gsBase

end Rashid

namespace Rashid.Proofs

/-! ### Results -/

/-- Only what is mapped, and memory, may differ. -/
def SameFile (c c' : Cpu) : Prop :=
  c'.flags = c.flags ∧ c'.r = c.r ∧ c'.xmm = c.xmm ∧ c'.rip = c.rip ∧ c'.fsBase = c.fsBase ∧ c'.gsBase = c.gsBase

section Results

variable {c c' : Cpu}

lemma syscallRet_neg {ret : Int} (h : ret < 0) (c : Cpu) :
    (syscallRet ret c).2 = { c with flags := c.flags ||| fCF, r := Function.update c.r rax (BitVec.ofInt 64 (-ret)) } := by
  unfold syscallRet
  simp only [h, if_true]
  rfl

lemma syscallRet_nonneg {ret : Int} (h : ¬ ret < 0) (c : Cpu) :
    (syscallRet ret c).2 = { c with flags := c.flags &&& ~~~fCF, r := Function.update c.r rax (BitVec.ofInt 64 ret) } := by
  unfold syscallRet
  simp only [h, if_false]
  rfl

/-- A success is seen as it is. -/
lemma value_sees (h : SameFile c c') {ret : Int} {v : BitVec 64} (hret : ¬ ret < 0) (hv : BitVec.ofInt 64 ret = v) :
    GuestSees (.value v) c (syscallRet ret c').2 := by
  obtain ⟨hf, hr, hx, hip, hfs, hgs⟩ := h
  rw [syscallRet_nonneg hret]
  refine ⟨?_, ?_, hx, hip, hfs, hgs⟩
  · rw [hf]
    rfl
  · rw [hr, hv]
    rfl

/-- A failure is seen as the negated result. -/
lemma failed_sees (h : SameFile c c') {ret : Int} (k : BitVec 32) (hret : ret < 0)
    (hk : BitVec.ofInt 64 (-ret) = k.setWidth 64)
    (e : BitVec 32) : GuestSees (.failed e) c (syscallRet ret c').2 ↔ e = k := by
  obtain ⟨hf, hr, hx, hip, hfs, hgs⟩ := h
  rw [syscallRet_neg hret, hk]
  constructor
  · intro hsees
    have hrax := congrFun hsees.regs rax
    simp only [Function.update_self, Outcome.word] at hrax
    apply BitVec.eq_of_toNat_eq
    have hnat := congrArg BitVec.toNat hrax
    rw [BitVec.toNat_setWidth_of_le (by decide), BitVec.toNat_setWidth_of_le (by decide)] at hnat
    exact hnat.symm
  · rintro rfl
    refine ⟨?_, ?_, hx, hip, hfs, hgs⟩
    · rw [hf]
      rfl
    · rw [hr]
      rfl

lemma failed_iff {α : Type} (e k : BitVec 32) : (∀ e', (Outcome.failed e : Outcome α) = .failed e' → e' = k) ↔ e = k := by
  simp

lemma libc_sees (h : SameFile c c') (o : Outcome Nat) : GuestSees (o.map (BitVec.ofNat 64)) c (syscallRet o.libc c').2 ↔
    ∀ e, o.map (BitVec.ofNat 64) = .failed e → e = 1 := by
  cases o with
  | failed e => exact (failed_sees h 1 (show (-1 : Int) < 0 by decide) rfl e).trans (failed_iff e _).symm
  | value v => exact iff_of_true (value_sees h (by simp [Outcome.libc]) (BitVec.ofInt_natCast ..)) fun e h => nomatch h

end Results

/-! ### Memory -/

section Memory

variable (h : Answers) (as : As) (at_ len : BitVec 64) (prot : BitVec 32) (fixed : Bool)

lemma hostMap_memory : hostMap h.kernel.toHost at_ len fixed = none ∧ (∃ e, h.memory at_ len fixed = .failed e) ∨
    ∃ p got, hostMap h.kernel.toHost at_ len fixed = some (p, got) ∧ h.memory at_ len fixed = .value p := by
  have hmmap : h.kernel.toHost.mmap = fun want len fixed => (h.mmap want len fixed).mapped := rfl
  have hremap : h.kernel.toHost.remap = fun len => (h.remap len).mapped := rfl
  unfold hostMap Answers.memory
  simp only [hmmap, hremap]
  cases h.mmap (mapWant h.kernel.toHost at_) (mapSize h.kernel.toHost at_ len) (at_ != 0 && fixed) with
  | value p => exact .inr ⟨p, _, rfl, rfl⟩
  | failed e =>
    simp only [Outcome.mapped]
    by_cases hretry : (at_ != 0 && !fixed) = true
    · rw [if_pos hretry, if_pos hretry]
      cases h.remap (mapHi h.kernel.toHost at_ len) with
      | value p => exact .inr ⟨p, _, rfl, rfl⟩
      | failed e => exact .inl ⟨rfl, e, rfl⟩
    · rw [if_neg hretry, if_neg hretry]
      exact .inl ⟨rfl, e, rfl⟩

/-- What the address space returns for memory. -/
lemma map_result (hlen : len ≠ 0) : (rsdAsMap h.kernel.toHost as at_ len prot fixed).1 =
    match h.mapOutcome as at_ len fixed with
    | .failed _ => 0
    | .value v => v := by
  unfold rsdAsMap Answers.mapOutcome
  rw [if_neg hlen]
  rcases hostMap_memory h at_ len fixed with ⟨hnone, e, hfail⟩ | ⟨p, got, hsome, hval⟩
  · rw [hnone, hfail]
  · rw [hsome, hval]
    simp only [insert]
    by_cases hfull : as.reg.length = as.cap ∧ h.alloc = false
    · have hfull' : as.reg.length = as.cap ∧ h.kernel.toHost.alloc = false := hfull
      rw [if_pos hfull, if_pos hfull']
    · have hfull' : ¬ (as.reg.length = as.cap ∧ h.kernel.toHost.alloc = false) := hfull
      rw [if_neg hfull, if_neg hfull']

/-- An address of 0 is a failure. -/
lemma map_value_ne {v : BitVec 64} (hv : h.mapOutcome as at_ len fixed = .value v) : v ≠ 0 := by
  unfold Answers.mapOutcome at hv
  cases hmem : h.memory at_ len fixed with
  | failed e =>
    rw [hmem] at hv
    cases hv
  | value p =>
    have hplace : p = 0 → at_ ≠ 0 ∧ p = mapWant h.kernel.toHost at_ := by
      rintro rfl
      simp only [Answers.memory] at hmem
      cases hmap : h.mmap (mapWant h.kernel.toHost at_) (mapSize h.kernel.toHost at_ len) (at_ != 0 && fixed) with
      | value q =>
        rw [hmap] at hmem
        cases hmem
        obtain ⟨hwant, hfixed⟩ := h.mmap_ne _ _ _ hmap
        exact ⟨bne_iff_ne.mp (Bool.and_eq_true_iff.mp hfixed).1, hwant.symm⟩
      | failed e =>
        rw [hmap] at hmem
        have hlast : (if at_ != 0 && !fixed then h.remap (mapHi h.kernel.toHost at_ len) else .failed e) = .value 0 := hmem
        by_cases hretry : (at_ != 0 && !fixed) = true
        · rw [if_pos hretry] at hlast
          exact absurd hlast (h.remap_ne _)
        · rw [if_neg hretry] at hlast
          cases hlast
    rw [hmem] at hv
    by_cases hfull : as.reg.length = as.cap ∧ h.alloc = false
    · simp [hfull] at hv
    · simp only [hfull, if_false, Outcome.value.injEq] at hv
      rw [← hv]
      by_cases hat : (at_ != 0 && p == mapWant h.kernel.toHost at_) = true
      · rw [if_pos hat]
        exact bne_iff_ne.mp (Bool.and_eq_true_iff.mp hat).1
      · rw [if_neg hat]
        intro hp
        obtain ⟨hne, hwant⟩ := hplace hp
        exact hat (Bool.and_eq_true_iff.mpr ⟨bne_iff_ne.mpr hne, beq_iff_eq.mpr hwant⟩)

end Memory

/-! ### Calls -/

section Calls

variable (h : Answers) (c : Cpu)

lemma setAs_same (as : As) (evs : List HostEvent) : SameFile c (setAs as evs c).2 := ⟨rfl, rfl, rfl, rfl, rfl, rfl⟩

lemma sysRead_sees {a0 a1 a2 : BitVec 64} (hok : accessOk c.as a1 a2 rsdProtW = true) :
    let o := (h.read (a0.setWidth 32) a1 a2).1.map (BitVec.ofNat 64)
    GuestSees o c (sysRead h.kernel a0 a1 a2 c).2 ↔ ∀ e, o = .failed e → e = 1 := by
  have hrun : (sysRead h.kernel a0 a1 a2 c).2 = (syscallRet (h.read (a0.setWidth 32) a1 a2).1.libc
      { c with mem := poke c.mem a1 (h.read (a0.setWidth 32) a1 a2).2 }).2 := by
    unfold sysRead
    rw [Prog.bind_eval (rfl : Prog.get (fun c => c.as) c = (c.as, c)), if_pos hok]
    rfl
  rw [hrun]
  have hsame : SameFile c { c with mem := poke c.mem a1 (h.read (a0.setWidth 32) a1 a2).2 } :=
    ⟨rfl, rfl, rfl, rfl, rfl, rfl⟩
  exact libc_sees hsame (h.read (a0.setWidth 32) a1 a2).1

lemma sysWrite_sees {a0 a1 a2 : BitVec 64} (hok : accessOk c.as a1 a2 rsdProtR = true) :
    let o := (h.write (a0.setWidth 32) a1 a2).map (BitVec.ofNat 64)
    GuestSees o c (sysWrite h.kernel a0 a1 a2 c).2 ↔ ∀ e, o = .failed e → e = 1 := by
  have hrun : (sysWrite h.kernel a0 a1 a2 c).2 = (syscallRet (h.write (a0.setWidth 32) a1 a2).libc c).2 := by
    unfold sysWrite
    rw [Prog.bind_eval (rfl : Prog.get (fun c => c.as) c = (c.as, c)), if_pos hok]
    rfl
  rw [hrun]
  exact libc_sees ⟨rfl, rfl, rfl, rfl, rfl, rfl⟩ (h.write (a0.setWidth 32) a1 a2)

lemma sysMunmap_sees (a0 a1 : BitVec 64) :
    let o := (h.munmap (pageDown h.page a0) (pageUp h.page (a0 + a1) - pageDown h.page a0)).map fun _ => (0 : BitVec 64)
    GuestSees o c (sysMunmap h.kernel a0 a1 c).2 ↔ ∀ e, o = .failed e → e = 1 := by
  intro o
  have hrun : (sysMunmap h.kernel a0 a1 c).2 = (syscallRet (rsdAsUnmap h.kernel.toHost c.as a0 a1).1
      (setAs (rsdAsUnmap h.kernel.toHost c.as a0 a1).2.1 (rsdAsUnmap h.kernel.toHost c.as a0 a1).2.2 c).2).2 := rfl
  have hsame := setAs_same c (rsdAsUnmap h.kernel.toHost c.as a0 a1).2.1 (rsdAsUnmap h.kernel.toHost c.as a0 a1).2.2
  have hret : (rsdAsUnmap h.kernel.toHost c.as a0 a1).1 =
      if (h.munmap (pageDown h.page a0) (pageUp h.page (a0 + a1) - pageDown h.page a0)).ok then 0 else -1 :=
    apply_ite Prod.fst _ _ _
  rw [hrun, hret]
  show GuestSees (Outcome.map _ (h.munmap _ _)) c _ ↔ ∀ e, Outcome.map _ (h.munmap _ _) = .failed e → _
  cases h.munmap (pageDown h.page a0) (pageUp h.page (a0 + a1) - pageDown h.page a0) with
  | failed e => exact (failed_sees hsame 1 (show (-1 : Int) < 0 by decide) rfl e).trans (failed_iff e _).symm
  | value v => exact iff_of_true (value_sees hsame (show ¬ (0 : Int) < 0 by decide) rfl) fun e h => nomatch h

/-- Changing permissions needs memory, and a lack of it has a number of its own. -/
lemma sysMprotect_sees (a0 a1 a2 : BitVec 64) :
    let o : Outcome (BitVec 64) := if a1 = 0 ∨ h.alloc = true then .value 0 else .failed enomem
    GuestSees o c (sysMprotect h.kernel a0 a1 a2 c).2 ↔ ∀ e, o = .failed e → e = 1 := by
  intro o
  let m := rsdAsProtect h.kernel.toHost c.as a0 a1 ((a2 &&& 7).setWidth 32)
  have hrun : (sysMprotect h.kernel a0 a1 a2 c).2 = (syscallRet m.1 (setAs m.2 [] c).2).2 := rfl
  have hret : m.1 = if a1 = 0 ∨ h.alloc = true then 0 else -1 := by
    show (rsdAsProtect _ _ _ _ _).1 = _
    unfold rsdAsProtect
    by_cases h0 : a1 = 0
    · rw [if_pos h0, if_pos (.inl h0)]
    · rw [if_neg h0]
      by_cases ha : h.alloc = true
      · have ha' : h.kernel.toHost.alloc = true := ha
        rw [if_pos ha', if_pos (.inr ha)]
      · have ha' : ¬ h.kernel.toHost.alloc = true := ha
        rw [if_neg ha', if_neg (not_or.mpr ⟨h0, ha⟩)]
  have hsame := setAs_same c m.2 []
  rw [hrun, hret]
  show GuestSees (if a1 = 0 ∨ h.alloc = true then .value 0 else .failed enomem) c _ ↔
    ∀ e, (if a1 = 0 ∨ h.alloc = true then .value 0 else .failed enomem : Outcome (BitVec 64)) = .failed e → _
  by_cases hok : a1 = 0 ∨ h.alloc = true
  · simp only [if_pos hok]
    exact iff_of_true (value_sees hsame (show ¬ (0 : Int) < 0 by decide) rfl) fun e h => nomatch h
  · simp only [if_neg hok]
    exact (failed_sees hsame 1 (show (-1 : Int) < 0 by decide) rfl enomem).trans (failed_iff enomem _).symm

/-- An error that the code names, and an address that replaces the usual result. -/
def mmapReturn (got : BitVec 64) : M Unit :=
  if got = 0 then syscallRet (-12)
  else do
    let f ← rdFlags
    wrFlags (f &&& ~~~fCF)
    wrR rax got

lemma sysMmap_sees (a0 a1 a2 : BitVec 64) (hanon : ¬ (c.r r10 &&& 0x1000 = 0 ∧ ((c.r r8).setWidth 32).msb = false))
    (hlen : a1 ≠ 0) : let o := h.mapOutcome c.as a0 a1 (c.r r10 &&& 0x10 != 0)
    GuestSees o c (sysMmap h.kernel a0 a1 a2 c).2 ↔ ∀ e, o = .failed e → e = enomem := by
  intro o
  have hres := map_result h c.as a0 a1 ((a2 &&& 7).setWidth 32) (c.r r10 &&& 0x10 != 0) hlen
  have heval : sysMmap h.kernel a0 a1 a2 c =
      (if c.r r10 &&& 0x1000 = 0 ∧ ((c.r r8).setWidth 32).msb = false then unimplementedSyscall
       else Prog.get (fun c => c.as) >>= fun as =>
        let m := rsdAsMap h.kernel.toHost as a0 a1 ((a2 &&& 7).setWidth 32) (c.r r10 &&& 0x10 != 0)
        setAs m.2.1 m.2.2 >>= fun _ => mmapReturn m.1) c := rfl
  have hget (f : As → M Unit) : (Prog.get (fun c => c.as) >>= f) c = f c.as c := rfl
  rw [heval, if_neg hanon, hget]
  generalize rsdAsMap h.kernel.toHost c.as a0 a1 ((a2 &&& 7).setWidth 32) (c.r r10 &&& 0x10 != 0) = m at hres
  obtain ⟨got, as, evs⟩ := m
  have hrun : ((setAs as evs >>= fun _ => mmapReturn got) c).2 = (mmapReturn got (setAs as evs c).2).2 := rfl
  simp only at hres
  simp only [hrun]
  have hsame := setAs_same c as evs
  generalize (setAs as evs c).2 = c' at hsame
  cases ho : h.mapOutcome c.as a0 a1 (c.r r10 &&& 0x10 != 0) with
  | failed e =>
    rw [ho] at hres
    simp only at hres
    subst hres
    have hoe : o = .failed e := ho
    rw [hoe, mmapReturn, if_pos rfl]
    exact (failed_sees hsame enomem (by decide) (by decide) e).trans (failed_iff e _).symm
  | value v =>
    rw [ho] at hres
    simp only at hres
    subst hres
    have hov : o = .value got := ho
    rw [hov, mmapReturn, if_neg (map_value_ne h _ _ _ _ ho)]
    refine iff_of_true ?_ fun e h => by cases h
    obtain ⟨hf, hr, hx, hip, hfs, hgs⟩ := hsame
    exact ⟨congrArg (· &&& ~~~fCF) hf, congrArg (fun r : Fin 16 → BitVec 64 => Function.update r rax got) hr,
      hx, hip, hfs, hgs⟩

lemma sysBsd_eval {k : Kernel} (hclass : syscallClass (c.r rax) = 2) :
    doSyscall k c = sysBsd k (syscallNumber (c.r rax)) (c.r rdi) (c.r rsi) (c.r rdx) c := by
  have heval : doSyscall k c = (if syscallClass (c.r rax) = 3 then sysMdep (syscallNumber (c.r rax)) (c.r rdi)
      else if syscallClass (c.r rax) ≠ 2 then unimplementedSyscall >>= fun _ => pure .ret
      else sysBsd k (syscallNumber (c.r rax)) (c.r rdi) (c.r rsi) (c.r rdx)) c := rfl
  rw [heval, hclass, if_neg (by decide), if_neg (by simp)]

end Calls

/-- The number that the guest sees for an error, whatever the error is. -/
def reported (n : BitVec 64) : BitVec 32 := if n = 197 then enomem else 1

/-- The guest sees a success as it is, and an error exactly if it has the number that every error of the call gets. -/
theorem syscall_results (h : Answers) (c : Cpu) :
    (∀ o, h.outcome c = some o → GuestSees o c (doSyscall h.kernel c).2) ↔
      ∀ e, h.outcome c = some (.failed e) → e = reported (syscallNumber (c.r rax)) := by
  by_cases hclass : syscallClass (c.r rax) ≠ 2
  · have hnone : h.outcome c = none := if_pos hclass
    rw [hnone]
    exact iff_of_true nofun nofun
  rw [sysBsd_eval c (not_not.mp hclass)]
  unfold Answers.outcome
  simp only [if_neg hclass]
  generalize syscallNumber (c.r rax) = n
  have hone {o : Outcome (BitVec 64)} {c' : Cpu} {k : BitVec 32} (hk : reported n = k)
      (hsees : GuestSees o c c' ↔ ∀ e, o = .failed e → e = k) :
      (∀ x, some o = some x → GuestSees x c c') ↔ ∀ e, some o = some (.failed e) → e = reported n := by
    simp only [Option.some.injEq, forall_eq', hk]
    exact hsees
  by_cases h3 : n = 3
  · subst h3
    rw [if_pos rfl]
    by_cases hok : accessOk c.as (c.r rsi) (c.r rdx) rsdProtW = true
    · rw [if_pos hok]
      exact hone rfl (sysRead_sees h c hok)
    · rw [if_neg hok]
      exact iff_of_true nofun nofun
  rw [if_neg h3]
  by_cases h4 : n = 4
  · subst h4
    rw [if_pos rfl]
    by_cases hok : accessOk c.as (c.r rsi) (c.r rdx) rsdProtR = true
    · rw [if_pos hok]
      exact hone rfl (sysWrite_sees h c hok)
    · rw [if_neg hok]
      exact iff_of_true nofun nofun
  rw [if_neg h4]
  by_cases h6 : n = 6
  · subst h6
    exact hone rfl (libc_sees ⟨rfl, rfl, rfl, rfl, rfl, rfl⟩ (h.close ((c.r rdi).setWidth 32)))
  rw [if_neg h6]
  by_cases h73 : n = 73
  · subst h73
    exact hone rfl (sysMunmap_sees h c (c.r rdi) (c.r rsi))
  rw [if_neg h73]
  by_cases h74 : n = 74
  · subst h74
    exact hone rfl (sysMprotect_sees h c (c.r rdi) (c.r rsi) (c.r rdx))
  rw [if_neg h74]
  by_cases h75 : n = 75
  · subst h75
    exact hone rfl (libc_sees ⟨rfl, rfl, rfl, rfl, rfl, rfl⟩ (.value 0))
  rw [if_neg h75]
  by_cases h197 : n = 197
  · subst h197
    rw [if_pos rfl]
    by_cases hasked : (c.r r10 &&& 0x1000 = 0 ∧ ((c.r r8).setWidth 32).msb = false) ∨ c.r rsi = 0
    · rw [if_pos hasked]
      exact iff_of_true nofun nofun
    · rw [if_neg hasked]
      obtain ⟨hanon, hlen⟩ := not_or.mp hasked
      exact hone rfl (sysMmap_sees h c (c.r rdi) (c.r rsi) (c.r rdx) hanon hlen)
  · rw [if_neg h197]
    exact iff_of_true nofun nofun

/-- A host whose files are all closed. -/
def closedFiles : Answers where
  page := 0x4000
  read _ _ _ := (.failed 9, [])
  write _ _ _ := .failed 9
  close _ := .failed 9
  munmap _ _ := .value ()
  mmap _ _ _ := .failed enomem
  remap _ := .failed enomem
  alloc := true
  mmap_ne := nofun
  remap_ne := nofun

/-- The guest closes a file. -/
def closeCpu : Cpu := { Cpu.zero with r := fun i => if i = rax then 0x2000006 else 0 }

/-- The error is `EBADF`, which is 9, and the guest sees 1. -/
theorem close_reports_one :
    closedFiles.outcome closeCpu = some (.failed 9) ∧ (doSyscall closedFiles.kernel closeCpu).2.r rax = 1 ∧
      ¬ GuestSees (.failed 9) closeCpu (doSyscall closedFiles.kernel closeCpu).2 := by
  have hrax : (doSyscall closedFiles.kernel closeCpu).2.r rax = 1 := by decide
  refine ⟨by decide, hrax, fun h => ?_⟩
  have h9 := congrFun h.regs rax
  rw [hrax] at h9
  exact absurd h9 (by decide)

end Rashid.Proofs
