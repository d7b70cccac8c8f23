import Rashid.Cpu
import Rashid.Lib.Trace
import Rashid.Lib.Writes

/-!
# Guest accesses

What the machine does to guest memory and to the report of a fault, as a list of events: each
access with what it is for and whether it was allowed, and each fault that is not one of memory.
The account of the events says that there is nothing besides them.
-/

namespace Rashid

/-- What an access is for: the next instruction, the r/m operand of one, its stack, or what a
call or a system call is given. -/
inductive Site where
  | code | operand | stack | data
  deriving DecidableEq, Repr

inductive Access where
  | read | write | fetch
  deriving DecidableEq, Repr

def Access.allowed (as : As) (a n : BitVec 64) : Access → Bool
  | .read => accessOk as a n rsdProtR
  | .write => accessOk as a n rsdProtW
  | .fetch => rsdAsOk as a n rsdProtX

inductive Event where
  | load (site : Site) (a : BitVec 64) (n : Nat)
  /-- Of the `n` bytes that may be written, these are. -/
  | store (site : Site) (a : BitVec 64) (n : Nat) (bytes : List (BitVec 8))
  /-- An access that is not allowed, and the report of it. -/
  | denied (site : Site) (x : Access) (a : BitVec 64) (n : Nat) (what : Fault) (rip : BitVec 64)
  | raised (what : Fault) (rip : BitVec 64)
  /-- The host has changed what is mapped. -/
  | mapped (as : As) (mem : Mem)

/-- Guest memory, and the report of a fault. -/
structure Seen where
  mem : Mem
  as : As
  fault : Option Fault
  faultRip : BitVec 64
  faultAddr : BitVec 64
  faultHasAddr : Bool

def Cpu.seen (c : Cpu) : Seen := ⟨c.mem, c.as, c.fault, c.faultRip, c.faultAddr, c.faultHasAddr⟩

namespace Event

/-- The report of an access is kept out by an earlier fault, that of another fault is not. -/
def on (e : Event) (s : Seen) : Seen :=
  match e with
  | load .. => s
  | store _ a _ bytes => { s with mem := poke s.mem a bytes }
  | denied _ _ a _ what rip =>
    if s.fault = none then { s with fault := some what, faultRip := rip, faultAddr := a, faultHasAddr := true } else s
  | raised what rip => { s with fault := some what, faultRip := rip }
  | mapped as mem => { s with as := as, mem := mem }

/-- Accesses have the outcome that the region list gives them. -/
def Judged (as : As) : Event → Prop
  | load _ a n => Access.read.allowed as a (BitVec.ofNat 64 n) = true
  | store _ a n _ => Access.write.allowed as a (BitVec.ofNat 64 n) = true
  | denied _ x a n _ _ => x.allowed as a (BitVec.ofNat 64 n) = false
  | _ => True

/-- Events one after the other lead from a state to another. -/
def Lead : Seen → List Event → Seen → Prop
  | s, [], t => t = s
  | s, e :: es, t => e.Judged s.as ∧ Lead (e.on s) es t

lemma lead_append {s t u : Seen} {es fs : List Event} (h : Lead s es t) (h' : Lead t fs u) : Lead s (es ++ fs) u := by
  induction es generalizing s with
  | nil =>
    have hst : t = s := h
    rwa [hst] at h'
  | cons e es ih => exact ⟨h.1, ih h.2⟩

lemma lead_eq {s t : Seen} {es : List Event} (h : Lead s es t) : t = es.foldl (fun s e => e.on s) s := by
  induction es generalizing s with
  | nil => exact h
  | cons e es ih => exact ih h.2

end Event

def Accounts (c : Cpu) (es : List Event) (c' : Cpu) : Prop := Event.Lead c.seen es c'.seen

instance : Composes Accounts where
  nil _ := rfl
  append := Event.lead_append

/-- The events of a program. -/
def eventsOf {α : Type} (p : M α) [h : Traced Accounts p] (c : Cpu) : List Event := h.events c

section Composed

variable {α β : Type}

@[simp]
lemma eventsOf_pure (a : α) (c : Cpu) : eventsOf (pure a) c = [] := rfl

lemma eventsOf_bind (x : M α) (f : α → M β) [Traced Accounts x] [∀ a, Traced Accounts (f a)] (c : Cpu) :
    eventsOf (x >>= f) c = eventsOf x c ++ eventsOf (f (x c).1) (x c).2 := rfl

lemma eventsOf_ite (b : Prop) [Decidable b] (x y : M α) [Traced Accounts x] [Traced Accounts y] (c : Cpu) :
    eventsOf (if b then x else y) c = if b then eventsOf x c else eventsOf y c := rfl

lemma eventsOf_accounts (p : M α) [h : Traced Accounts p] (c : Cpu) : Accounts c (eventsOf p c) (p c).2 := h.accounts c

end Composed

/-! ### Loads and stores -/

/-- A read of `n` bytes, allowed or not. -/
def readEvent (site : Site) (a : BitVec 64) (n : Nat) (c : Cpu) : Event :=
  if accessOk c.as a (BitVec.ofNat 64 n) rsdProtR then .load site a n
  else .denied site .read a n (why c.as a (BitVec.ofNat 64 n)) c.curRip

def writeEvent (site : Site) (a : BitVec 64) (n : Nat) (bytes : List (BitVec 8)) (c : Cpu) : Event :=
  if accessOk c.as a (BitVec.ofNat 64 n) rsdProtW then .store site a n bytes
  else .denied site .write a n (why c.as a (BitVec.ofNat 64 n)) c.curRip

section Primitives

variable (site : Site) (a v : BitVec 64) (n : Nat) (c : Cpu)

lemma memfault_seen (x : Access) (what : Fault) :
    (memfault a what c).2.seen = (Event.denied site x a n what c.curRip).on c.seen := by
  by_cases h : c.fault = none
  · simp [memfault, Cpu.seen, Event.on, h]
  · simp [memfault, Cpu.seen, Event.on, h]

/-- A single event. -/
lemma accounts_one {c c' : Cpu} {e : Event} (hj : e.Judged c.as) (h : c'.seen = e.on c.seen) : Accounts c [e] c' :=
  ⟨hj, h⟩

lemma memfault_accounts {x : Access} (what : Fault) (h : x.allowed c.as a (BitVec.ofNat 64 n) = false) :
    Accounts c [.denied site x a n what c.curRip] (memfault a what c).2 :=
  accounts_one h (memfault_seen site a n c x what)

lemma ld_accounts : Accounts c [readEvent site a n c] (ld a n c).2 := by
  unfold readEvent ld
  by_cases h : accessOk c.as a (BitVec.ofNat 64 n) rsdProtR = true
  · rw [if_pos h, if_pos h]
    exact accounts_one h rfl
  · rw [if_neg h, if_neg h]
    exact memfault_accounts site a n c _ (Bool.eq_false_iff.mpr h)

lemma st_accounts : Accounts c [writeEvent site a n (lowBytes v n) c] (st a v n c).2 := by
  unfold writeEvent st
  by_cases h : accessOk c.as a (BitVec.ofNat 64 n) rsdProtW = true
  · rw [if_pos h, if_pos h]
    refine accounts_one h ?_
    show Cpu.seen { c with mem := storeLE c.mem a v n } = _
    rw [storeLE_lowBytes]
    rfl
  · rw [if_neg h, if_neg h]
    exact memfault_accounts site a n c _ (Bool.eq_false_iff.mpr h)

lemma ld128_accounts : Accounts c [readEvent site a 16 c] (ld128 a c).2 := by
  have hsize : BitVec.ofNat 64 16 = (16 : BitVec 64) := rfl
  unfold readEvent ld128
  rw [hsize]
  by_cases h : accessOk c.as a 16 rsdProtR = true
  · rw [if_pos h, if_pos h]
    exact accounts_one h rfl
  · rw [if_neg h, if_neg h]
    exact memfault_accounts site a 16 c _ (Bool.eq_false_iff.mpr h)

/-- Two quadwords next to each other are one write of sixteen bytes. -/
lemma poke_two (m : Mem) (lo hi : BitVec 64) :
    storeLE (storeLE m a lo 8) (a + 8) hi 8 = poke m a (lowBytes lo 8 ++ lowBytes hi 8) := by
  rw [storeLE_lowBytes, storeLE_lowBytes]
  funext x
  have hlen (v : BitVec 64) : (lowBytes v 8).length = 8 := lowBytes_length v 8
  unfold poke
  by_cases h1 : (x - a).toNat < 8
  · have h2 : 8 ≤ (x - (a + 8)).toNat := by bv_omega
    rw [List.getD_eq_default _ _ (by rwa [hlen]), List.getD_append _ _ _ _ (by rwa [hlen])]
  · have h2 : (x - (a + 8)).toNat = (x - a).toNat - 8 := by bv_omega
    rw [List.getD_append_right _ _ _ _ (by rw [hlen]; omega), hlen, h2,
      List.getD_eq_default (lowBytes lo 8) _ (by rw [hlen]; omega)]

lemma st128_accounts (v : Xmm) :
    Accounts c [writeEvent site a 16 (lowBytes v.lo 8 ++ lowBytes v.hi 8) c] (st128 a v c).2 := by
  have hsize : BitVec.ofNat 64 16 = (16 : BitVec 64) := rfl
  unfold writeEvent st128
  rw [hsize]
  by_cases h : accessOk c.as a 16 rsdProtW = true
  · rw [if_pos h, if_pos h]
    refine accounts_one h ?_
    show Cpu.seen { c with mem := storeLE (storeLE c.mem a v.lo 8) (a + 8) v.hi 8 } = _
    rw [poke_two]
    rfl
  · rw [if_neg h, if_neg h]
    exact memfault_accounts site a 16 c _ (Bool.eq_false_iff.mpr h)

lemma raise_accounts (what : Fault) (rip : BitVec 64) : Accounts c [.raised what rip] (raise what rip c).2 :=
  accounts_one trivial rfl

end Primitives

/-- The primitives with what they are for. -/
abbrev tracedLd (site : Site) (a : BitVec 64) (n : Nat) : Traced Accounts (ld a n) where
  events c := [readEvent site a n c]
  accounts := ld_accounts site a n

abbrev tracedSt (site : Site) (a v : BitVec 64) (n : Nat) : Traced Accounts (st a v n) where
  events c := [writeEvent site a n (lowBytes v n) c]
  accounts := st_accounts site a v n

abbrev tracedLd128 (site : Site) (a : BitVec 64) : Traced Accounts (ld128 a) where
  events c := [readEvent site a 16 c]
  accounts := ld128_accounts site a

abbrev tracedSt128 (site : Site) (a : BitVec 64) (v : Xmm) : Traced Accounts (st128 a v) where
  events c := [writeEvent site a 16 (lowBytes v.lo 8 ++ lowBytes v.hi 8) c]
  accounts c := st128_accounts site a c v

instance (what : Fault) (rip : BitVec 64) : Traced Accounts (raise what rip) where
  events _ := [.raised what rip]
  accounts c := raise_accounts c what rip

section Quiet

instance (i : Fin 16) : Traced Accounts (rdR i) := .quiet fun _ => rfl
instance (i : Fin 16) (v : BitVec 64) : Traced Accounts (wrR i v) := .quiet fun _ => rfl
instance (i : Fin 16) : Traced Accounts (rdX i) := .quiet fun _ => rfl
instance (i : Fin 16) (v : Xmm) : Traced Accounts (wrX i v) := .quiet fun _ => rfl
instance : Traced Accounts rdFlags := .quiet fun _ => rfl
instance (f : BitVec 32) : Traced Accounts (wrFlags f) := .quiet fun _ => rfl
instance : Traced Accounts rdRip := .quiet fun _ => rfl
instance (v : BitVec 64) : Traced Accounts (wrRip v) := .quiet fun _ => rfl
instance (v : BitVec 64) : Traced Accounts (wrCurRip v) := .quiet fun _ => rfl

end Quiet

end Rashid
