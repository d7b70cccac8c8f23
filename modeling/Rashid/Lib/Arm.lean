import Mathlib.Logic.Function.Iterate
import Rashid.Lib.Words

/-!
# Routines in AArch64 assembly

The instructions that calling sequences are written in, on a machine with the general and the
floating-point registers, a stack pointer and memory. Code that is not given is a routine that does what
it does and is back. What the procedure call standard asks of a routine is a relation between the state
it is entered in and the one it returns in.
-/

namespace Rashid.Arm

scoped instance neZero31 : NeZero 31 := ⟨by decide⟩

scoped instance neZero32 : NeZero 32 := ⟨by decide⟩

/-- A general register, or the stack pointer. -/
inductive Reg where
  | x (i : Fin 31)
  | sp
  deriving DecidableEq, Repr

/-- The link register. -/
abbrev lr : Reg := .x 30

structure Data where
  r : Reg → BitVec 64
  d : Fin 32 → BitVec 64
  mem : Mem

namespace Data

def set (s : Data) (t : Reg) (v : BitVec 64) : Data := { s with r := Function.update s.r t v }

def setD (s : Data) (t : Fin 32) (v : BitVec 64) : Data := { s with d := Function.update s.d t v }

end Data

/-- `[b, #k]`, `[b, #k]!` and `[b], #k`. -/
inductive Addr where
  | offset (b : Reg) (k : BitVec 64)
  | pre (b : Reg) (k : BitVec 64)
  | post (b : Reg) (k : BitVec 64)
  deriving DecidableEq, Repr

namespace Addr

def ea (s : Data) : Addr → BitVec 64
  | offset b k | pre b k => s.r b + k
  | post b _ => s.r b

def writeBack (s : Data) : Addr → Data
  | offset _ _ => s
  | pre b k | post b k => s.set b (s.r b + k)

end Addr

/-- Instructions that pass control to the next one. -/
inductive Op where
  | movz (t : Reg) (imm : BitVec 64)
  | mov (t n : Reg)
  | addImm (t n : Reg) (imm : BitVec 64)
  | subImm (t n : Reg) (imm : BitVec 64)
  | andImm (t n : Reg) (imm : BitVec 64)
  | sub (t n m : Reg)
  | ldr (t : Reg) (a : Addr)
  | str (t : Reg) (a : Addr)
  | ldp (t u : Reg) (a : Addr)
  | stp (t u : Reg) (a : Addr)
  | ldpD (t u : Fin 32) (a : Addr)
  | stpD (t u : Fin 32) (a : Addr)
  deriving DecidableEq, Repr

def Op.exec (s : Data) : Op → Data
  | movz t imm => s.set t imm
  | mov t n => s.set t (s.r n)
  | addImm t n imm => s.set t (s.r n + imm)
  | subImm t n imm => s.set t (s.r n - imm)
  | andImm t n imm => s.set t (s.r n &&& imm)
  | sub t n m => s.set t (s.r n - s.r m)
  | ldr t a => (a.writeBack s).set t (loadLE s.mem (a.ea s) 8)
  | str t a => { a.writeBack s with mem := storeWords s.mem (a.ea s) [s.r t] }
  | ldp t u a => ((a.writeBack s).set t (loadLE s.mem (a.ea s) 8)).set u (loadLE s.mem (a.ea s + 8) 8)
  | stp t u a => { a.writeBack s with mem := storeWords s.mem (a.ea s) [s.r t, s.r u] }
  | ldpD t u a => ((a.writeBack s).setD t (loadLE s.mem (a.ea s) 8)).setD u (loadLE s.mem (a.ea s + 8) 8)
  | stpD t u a => { a.writeBack s with mem := storeWords s.mem (a.ea s) [s.d t, s.d u] }

def Addr.written : Addr → List Reg
  | offset _ _ => []
  | pre b _ | post b _ => [b]

/-- The general registers an instruction may change. -/
def Op.written : Op → List Reg
  | movz t _ | mov t _ | addImm t _ _ | subImm t _ _ | andImm t _ _ | sub t _ _ => [t]
  | ldr t a => t :: a.written
  | ldp t u a => t :: u :: a.written
  | str _ a | stp _ _ a | ldpD _ _ a | stpD _ _ a => a.written

def Op.writtenD : Op → List (Fin 32)
  | ldpD t u _ => [t, u]
  | _ => []

def Op.stores : Op → Bool
  | str _ _ | stp _ _ _ | stpD _ _ _ => true
  | _ => false

/-- One instruction after the other. -/
def execAll (l : List Op) (s : Data) : Data := l.foldl Op.exec s

/-- Labels are addresses. -/
inductive Insn where
  | op (o : Op)
  | cbz (t : Reg) (label : BitVec 64)
  | b (label : BitVec 64)
  | bl (label : BitVec 64)
  | blr (n : Reg)
  | ret
  deriving DecidableEq, Repr

abbrev ops (l : List Op) : List Insn := l.map .op

structure State where
  data : Data
  pc : BitVec 64

namespace State

abbrev r (s : State) (t : Reg) : BitVec 64 := s.data.r t
abbrev d (s : State) (t : Fin 32) : BitVec 64 := s.data.d t
abbrev mem (s : State) : Mem := s.data.mem

end State

def Insn.step (s : State) : Insn → State
  | op o => ⟨o.exec s.data, s.pc + 4⟩
  | cbz t label => ⟨s.data, if s.r t = 0 then label else s.pc + 4⟩
  | b label => ⟨s.data, label⟩
  | bl label => ⟨s.data.set lr (s.pc + 4), label⟩
  | blr n => ⟨s.data.set lr (s.pc + 4), s.r n⟩
  | ret => ⟨s.data, s.r lr⟩

/-- The code at each address, and what the routines do whose code is not given: the state in which they
are back. -/
structure Env where
  code : BitVec 64 → Option Insn
  call : State → State

def Env.next (env : Env) (s : State) : State := ((env.code s.pc).map fun i => i.step s).getD (env.call s)

def Reaches (env : Env) (s t : State) : Prop := ∃ n, env.next^[n] s = t

/-- The instructions lie one after the other from `a` on. -/
def Loaded (code : BitVec 64 → Option Insn) (a : BitVec 64) : List Insn → Prop
  | [] => True
  | i :: rest => code a = some i ∧ Loaded code (a + 4) rest

instance decidableLoaded (code : BitVec 64 → Option Insn) : ∀ a l, Decidable (Loaded code a l)
  | _, [] => isTrue trivial
  | a, i :: rest =>
    have := decidableLoaded code (a + 4) rest
    inferInstanceAs (Decidable (code a = some i ∧ Loaded code (a + 4) rest))

/-- The same of code by the numbers of its instructions. -/
def Placed (code : BitVec 64 → Option Insn) (a : BitVec 64) (p : List Insn) : Prop :=
  ∀ i, i < p.length → code (a + BitVec.ofNat 64 (4 * i)) = p[i]?

/-- What the procedure call standard asks of a routine that is entered in `s` and back in `t`, where the
`n` bytes from `a` on are its caller's. -/
structure Conforms (a : BitVec 64) (n : Nat) (s t : State) : Prop where
  back : t.pc = s.r lr
  sp : t.r .sp = s.r .sp
  saved : ∀ i : Fin 31, 19 ≤ i.val → i.val ≤ 29 → t.r (.x i) = s.r (.x i)
  savedD : ∀ i : Fin 32, 8 ≤ i.val → i.val ≤ 15 → t.d i = s.d i
  frame : ∀ x, inWindow a n x → t.mem x = s.mem x

section Frames

variable {s : Data} {o : Op} {l : List Op} {a : Addr} {t u : Reg} {v : BitVec 64}

lemma x_ne_of_lt {i j : Fin 31} (h : i.val < j.val) : Reg.x i ≠ .x j := by
  intro heq
  cases heq
  exact Nat.lt_irrefl _ h

lemma Data.set_r_self (s : Data) (t : Reg) (v : BitVec 64) : (s.set t v).r t = v := Function.update_self ..

lemma Data.set_r_of_ne (h : t ≠ u) : (s.set u v).r t = s.r t := Function.update_of_ne h ..

lemma writeBack_r (h : t ∉ a.written) : (a.writeBack s).r t = s.r t := by
  cases a with
  | offset b k => rfl
  | pre b k => exact Data.set_r_of_ne (List.ne_of_not_mem_cons h)
  | post b k => exact Data.set_r_of_ne (List.ne_of_not_mem_cons h)

@[simp]
lemma writeBack_d : (a.writeBack s).d = s.d := by
  cases a <;> rfl

@[simp]
lemma writeBack_mem : (a.writeBack s).mem = s.mem := by
  cases a <;> rfl

lemma exec_r (h : t ∉ o.written) : (o.exec s).r t = s.r t := by
  cases o with
  | movz | mov | addImm | subImm | andImm | sub => exact Data.set_r_of_ne (List.ne_of_not_mem_cons h)
  | str | stp | ldpD | stpD => exact writeBack_r h
  | ldr =>
    exact (Data.set_r_of_ne (List.ne_of_not_mem_cons h)).trans (writeBack_r (List.not_mem_of_not_mem_cons h))
  | ldp =>
    have h' := List.not_mem_of_not_mem_cons h
    refine (Data.set_r_of_ne (List.ne_of_not_mem_cons h')).trans ?_
    exact (Data.set_r_of_ne (List.ne_of_not_mem_cons h)).trans (writeBack_r (List.not_mem_of_not_mem_cons h'))

lemma exec_d {t : Fin 32} (h : t ∉ o.writtenD) : (o.exec s).d t = s.d t := by
  cases o with
  | ldpD =>
    refine (Function.update_of_ne (List.ne_of_not_mem_cons (List.not_mem_of_not_mem_cons h)) ..).trans ?_
    exact (Function.update_of_ne (List.ne_of_not_mem_cons h) ..).trans (congrFun writeBack_d t)
  | str | stp | stpD | ldr | ldp => exact congrFun writeBack_d t
  | _ => rfl

lemma exec_mem (h : o.stores = false) : (o.exec s).mem = s.mem := by
  cases o with
  | str | stp | stpD => cases h
  | ldr | ldp | ldpD => exact writeBack_mem
  | _ => rfl

lemma execAll_r (h : ∀ o ∈ l, t ∉ o.written) : (execAll l s).r t = s.r t := by
  induction l generalizing s with
  | nil => rfl
  | cons o l ih => exact (ih fun p hp => h p (List.mem_cons_of_mem o hp)).trans (exec_r (h o List.mem_cons_self))

lemma execAll_d {t : Fin 32} (h : ∀ o ∈ l, t ∉ o.writtenD) : (execAll l s).d t = s.d t := by
  induction l generalizing s with
  | nil => rfl
  | cons o l ih => exact (ih fun p hp => h p (List.mem_cons_of_mem o hp)).trans (exec_d (h o List.mem_cons_self))

lemma execAll_mem (h : ∀ o ∈ l, o.stores = false) : (execAll l s).mem = s.mem := by
  induction l generalizing s with
  | nil => rfl
  | cons o l ih => exact (ih fun p hp => h p (List.mem_cons_of_mem o hp)).trans (exec_mem (h o List.mem_cons_self))

end Frames

section Calls

variable (s : Data) (pc label : BitVec 64) (n : Reg)

lemma step_bl_mem : (Insn.step ⟨s, pc⟩ (.bl label)).mem = s.mem := rfl

lemma step_bl_d : (Insn.step ⟨s, pc⟩ (.bl label)).data.d = s.d := rfl

lemma step_blr_mem : (Insn.step ⟨s, pc⟩ (.blr n)).mem = s.mem := rfl

lemma step_blr_d : (Insn.step ⟨s, pc⟩ (.blr n)).data.d = s.d := rfl

end Calls

section Runs

variable {env : Env} {s t u : State} {a : BitVec 64} {l : List Op} {rest : List Insn} {i : Insn}

namespace Reaches

lemma refl (env : Env) (s : State) : Reaches env s s := ⟨0, rfl⟩

lemma trans (h : Reaches env s t) (h' : Reaches env t u) : Reaches env s u := by
  obtain ⟨n, rfl⟩ := h
  obtain ⟨k, rfl⟩ := h'
  exact ⟨k + n, Function.iterate_add_apply ..⟩

lemma one (env : Env) (s : State) : Reaches env s (env.next s) := ⟨1, rfl⟩

end Reaches

/-- One instruction. -/
lemma Loaded.one (h : Loaded env.code s.pc (i :: rest)) : Reaches env s (i.step s) := by
  have hnext : env.next s = i.step s := by
    rw [Env.next, h.1]
    rfl
  exact hnext ▸ .one env s

/-- A routine whose code is not given. -/
lemma reaches_call (h : env.code s.pc = none) : Reaches env s (env.call s) := by
  have hnext : env.next s = env.call s := by
    rw [Env.next, h]
    rfl
  exact hnext ▸ .one env s

/-- A stretch of instructions without branches. -/
lemma Loaded.straight {k : Nat} (h : Loaded env.code s.pc (ops l ++ rest)) (hk : 4 * l.length = k) :
    Reaches env s ⟨execAll l s.data, s.pc + BitVec.ofNat 64 k⟩ := by
  subst hk
  induction l generalizing s with
  | nil =>
    have hpc : s.pc + BitVec.ofNat 64 0 = s.pc := BitVec.add_zero s.pc
    rw [List.length_nil, Nat.mul_zero, hpc]
    exact .refl env s
  | cons o l ih =>
    have hrest : Loaded env.code (s.pc + 4) (ops l ++ rest) := h.2
    have hpc : s.pc + BitVec.ofNat 64 (4 * (o :: l).length) = s.pc + 4 + BitVec.ofNat 64 (4 * l.length) := by
      rw [List.length_cons, Nat.mul_succ, Nat.add_comm, BitVec.ofNat_add, BitVec.add_assoc]
      rfl
    rw [hpc]
    exact h.one.trans (ih (s := ⟨o.exec s.data, s.pc + 4⟩) hrest)

lemma Loaded.left {p q : List Insn} (h : Loaded env.code a (p ++ q)) : Loaded env.code a p := by
  induction p generalizing a with
  | nil => trivial
  | cons i p ih => exact ⟨h.1, ih h.2⟩

lemma Loaded.right {p q : List Insn} {k : Nat} (h : Loaded env.code a (p ++ q)) (hk : 4 * p.length = k) :
    Loaded env.code (a + BitVec.ofNat 64 k) q := by
  subst hk
  induction p generalizing a with
  | nil => simpa using h
  | cons i p ih =>
    have hrest := ih h.2
    rwa [BitVec.add_assoc, show (4 : BitVec 64) = BitVec.ofNat 64 4 from rfl, ← BitVec.ofNat_add, Nat.add_comm 4,
      ← Nat.mul_succ] at hrest

/-- Routines of one length, one after the other. -/
lemma Loaded.get {α : Type} {f : α → List Insn} {xs : List α} {n : Nat} (h : Loaded env.code a (xs.flatMap f))
    (hn : ∀ x ∈ xs, (f x).length = n) {i : Nat} (hi : i < xs.length) :
      Loaded env.code (a + BitVec.ofNat 64 (4 * n * i)) (f xs[i]) := by
  induction xs generalizing a i with
  | nil => exact absurd hi (Nat.not_lt_zero i)
  | cons x rest ih =>
    rw [List.flatMap_cons] at h
    obtain ⟨hx, hrest⟩ := List.forall_mem_cons.mp hn
    cases i with
    | zero => simpa using h.left
    | succ i =>
      have hnext := ih (h.right (congrArg (4 * ·) hx)) hrest (Nat.lt_of_succ_lt_succ hi)
      rw [BitVec.add_assoc, ← BitVec.ofNat_add, Nat.add_comm, ← Nat.mul_succ] at hnext
      exact hnext

lemma Placed.loaded {code : BitVec 64 → Option Insn} {p : List Insn} (h : Placed code a p) : Loaded code a p := by
  induction p generalizing a with
  | nil => trivial
  | cons i p ih =>
    constructor
    · simpa using h 0 (Nat.zero_lt_succ _)
    · apply ih
      intro k hk
      have hnext := h (k + 1) (Nat.succ_lt_succ hk)
      rwa [Nat.mul_succ, Nat.add_comm, BitVec.ofNat_add, ← BitVec.add_assoc] at hnext

/-- Code that is an array from `a` on. -/
lemma placed_of_window {code : BitVec 64 → Option Insn} {p : List Insn} (hlen : 4 * p.length < 2 ^ 64)
    (h : ∀ x, (x - a).toNat < 4 * p.length → code x = p[(x - a).toNat / 4]?) : Placed code a p := by
  intro i hi
  have hsub : (a + BitVec.ofNat 64 (4 * i) - a).toNat = 4 * i := by
    rw [BitVec.add_comm, BitVec.add_sub_cancel, BitVec.toNat_ofNat, Nat.mod_eq_of_lt (by omega)]
  rw [h _ (by omega), hsub, Nat.mul_div_cancel_left i (by decide)]

end Runs

end Rashid.Arm
