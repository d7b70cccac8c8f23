import Rashid.Proofs.Opcode
import Rashid.Proofs.Stops
import Rashid.Proofs.Widths

/-!
# Operands

A register operand is read and written without a fault, a memory operand exactly if the access
is allowed. A read leaves the processor alone, and what has been written is read back.
-/

namespace Rashid.Proofs

/-- The value of an operand at its width. -/
def lowPart (size : Nat) (v : BitVec 64) : BitVec (szBits size) := v.setWidth (szBits size)

lemma lowPart_toNat {size : Nat} (v : BitVec 64) : (lowPart size v).toNat = v.toNat % 2 ^ szBits size := by
  rw [lowPart, BitVec.toNat_setWidth]

lemma truncSz_lowPart {size : Nat} (v : BitVec 64) : truncSz v size = (lowPart size v).setWidth 64 :=
  truncSz_eq_setWidth v size

lemma lowPart_truncSz {size : Nat} (v : BitVec 64) : lowPart size (truncSz v size) = lowPart size v :=
  SameLow.truncSz_left size v

lemma lowPart_ext {size : Nat} {v v' : BitVec 64} (h : ∀ i < szBits size, v.getLsbD i = v'.getLsbD i) :
    lowPart size v = lowPart size v' := by
  apply BitVec.eq_of_getLsbD_eq
  intro i hi
  rw [lowPart, lowPart, BitVec.getLsbD_setWidth, BitVec.getLsbD_setWidth, h i hi]

lemma Sized.bits {n : Nat} (h : Sized n) : szBits n = 8 * n ∧ n ≤ 8 := by
  rcases h with rfl | rfl | rfl | rfl <;> decide

/-- Whether an access to the operand is allowed. -/
def opndOk (o : Opnd) (as : As) (n : Nat) (prot : BitVec 32) : Bool :=
  match o with
  | .reg _ => true
  | .mem addr seg => accessOk as (addr + seg) (BitVec.ofNat 64 n) prot
  | .ripRel disp seg => accessOk as (disp + seg) (BitVec.ofNat 64 n) prot

/-- What a register operand holds, and the registers once it has been written. -/
def regVal (r : Fin 16 → BitVec 64) (i : Fin 16) (n : Nat) (rex : Bool) : BitVec 64 :=
  if n = 1 then (if isHigh i rex then (r (lowOf i) >>> 8) &&& 0xff else r i &&& 0xff) else truncSz (r i) n

def regSet (r : Fin 16 → BitVec 64) (i : Fin 16) (v : BitVec 64) (n : Nat) (rex : Bool) : Fin 16 → BitVec 64 :=
  if n = 1 then
    if isHigh i rex then
      Function.update r (lowOf i) ((r (lowOf i) &&& ~~~(0xff00 : BitVec 64)) ||| ((v &&& 0xff) <<< 8))
    else Function.update r i ((r i &&& ~~~(0xff : BitVec 64)) ||| (v &&& 0xff))
  else Function.update r i (mergeSz (r i) v n)

/-- The value of an operand whose read is allowed. -/
def opndVal (o : Opnd) (n : Nat) (rex : Bool) (c : Cpu) : BitVec 64 :=
  match o with
  | .reg i => regVal c.r i n rex
  | .mem addr seg => loadLE c.mem (addr + seg) n
  | .ripRel disp seg => loadLE c.mem (disp + seg) n

/-- The processor once the operand has been written, where that is allowed. -/
def opndSet (o : Opnd) (v : BitVec 64) (n : Nat) (rex : Bool) (c : Cpu) : Cpu :=
  match o with
  | .reg i => { c with r := regSet c.r i v n rex }
  | .mem addr seg | .ripRel addr seg => { c with
      wlog := c.wlog.map fun w => w.add (logEntry c.as c.mem (addr + seg) v n)
      mem := storeLE c.mem (addr + seg) v n }

section Access

variable (o : Opnd) (v : BitVec 64) (n : Nat) (rex : Bool) (c : Cpu)

lemma ld_allowed_eval {a : BitVec 64} (h : accessOk c.as a (BitVec.ofNat 64 n) rsdProtR = true) :
    ld a n c = (loadLE c.mem a n, c) := by
  unfold ld
  exact if_pos h

lemma ld_denied {a : BitVec 64} (h : accessOk c.as a (BitVec.ofNat 64 n) rsdProtR = false) :
    ld a n c = (0, (memfault a (why c.as a (BitVec.ofNat 64 n)) c).2) := by
  unfold ld
  exact if_neg (Bool.not_eq_true _ ▸ h)

lemma st_allowed_eval {a : BitVec 64} (h : accessOk c.as a (BitVec.ofNat 64 n) rsdProtW = true) :
    st a v n c = ((), { c with
      wlog := c.wlog.map fun w => w.add (logEntry c.as c.mem a v n)
      mem := storeLE c.mem a v n }) := by
  unfold st
  exact if_pos h

lemma st_denied {a : BitVec 64} (h : accessOk c.as a (BitVec.ofNat 64 n) rsdProtW = false) :
    st a v n c = memfault a (why c.as a (BitVec.ofNat 64 n)) c := by
  unfold st
  exact if_neg (Bool.not_eq_true _ ▸ h)

lemma rd_reg_eval (i : Fin 16) : rd (.reg i) n rex c = (regVal c.r i n rex, c) := by
  unfold rd regVal
  by_cases h1 : n = 1
  · simp only [h1, if_true, getreg8]
    cases isHigh i rex <;> rfl
  · simp only [h1, if_false]
    rfl

lemma wr_reg_eval (i : Fin 16) : wr (.reg i) v n rex c = ((), { c with r := regSet c.r i v n rex }) := by
  unfold wr regSet
  by_cases h1 : n = 1
  · simp only [h1, if_true, setreg8]
    cases isHigh i rex <;> rfl
  · simp only [h1, if_false]
    rfl

lemma rd_allowed (h : opndOk o c.as n rsdProtR = true) : rd o n rex c = (opndVal o n rex c, c) := by
  cases o with
  | reg i => exact rd_reg_eval n rex c i
  | mem addr seg | ripRel addr seg => exact ld_allowed_eval n c h

lemma rd_denied (h : opndOk o c.as n rsdProtR = false) : (rd o n rex c).2.fault ≠ none := by
  cases o with
  | reg i => cases h
  | mem addr seg | ripRel addr seg =>
    show (ld (addr + seg) n c).2.fault ≠ none
    rw [ld_denied n c h]
    exact memfault_fault _ _ c

/-- A read that has not faulted has changed nothing. -/
lemma rd_of_fault (h : (rd o n rex c).2.fault = none) : rd o n rex c = (opndVal o n rex c, c) := by
  cases ho : opndOk o c.as n rsdProtR with
  | true => exact rd_allowed o n rex c ho
  | false => exact absurd h (rd_denied o n rex c ho)

lemma wr_allowed (h : opndOk o c.as n rsdProtW = true) : wr o v n rex c = ((), opndSet o v n rex c) := by
  cases o with
  | reg i => exact wr_reg_eval v n rex c i
  | mem addr seg | ripRel addr seg => exact st_allowed_eval v n c h

lemma wr_denied (h : opndOk o c.as n rsdProtW = false) : (wr o v n rex c).2.fault ≠ none := by
  cases o with
  | reg i => cases h
  | mem addr seg | ripRel addr seg =>
    show (st (addr + seg) v n c).2.fault ≠ none
    rw [st_denied v n c h]
    exact memfault_fault _ _ c

lemma wr_of_fault (h : (wr o v n rex c).2.fault = none) : wr o v n rex c = ((), opndSet o v n rex c) := by
  cases ho : opndOk o c.as n rsdProtW with
  | true => exact wr_allowed o v n rex c ho
  | false => exact absurd h (wr_denied o v n rex c ho)

/-- A program that has not faulted had not after its first part. -/
lemma fault_bind {α β : Type} {x : M α} {f : α → M β} [∀ a, IsBuilt Prim (f a)] {c : Cpu}
    (h : ((x >>= f) c).2.fault = none) : (x c).2.fault = none := by
  by_contra hx
  exact (built_quiet (p := f (x c).1) (x c).2).fault.isSome hx h

/-- Where nothing has faulted in the end, the operand has been read. -/
lemma rd_bind {β : Type} {f : BitVec 64 → M β} [∀ a, IsBuilt Prim (f a)] {c : Cpu}
    (h : ((rd o n rex >>= f) c).2.fault = none) : (rd o n rex >>= f) c = f (opndVal o n rex c) c :=
  Prog.bind_eval (rd_of_fault o n rex c (fault_bind h))

/-- What an operand holds has no bits above its width. -/
lemma opndVal_trunc (hn : Sized n) : truncSz (opndVal o n rex c) n = opndVal o n rex c := by
  obtain ⟨hbits, h8⟩ := hn.bits
  have htrunc (v : BitVec 64) : truncSz (truncSz v n) n = truncSz v n := by
    rw [truncSz_lowPart, lowPart_truncSz, ← truncSz_lowPart]
  have hload (a : BitVec 64) : truncSz (loadLE c.mem a n) n = loadLE c.mem a n := by
    apply BitVec.eq_of_getLsbD_eq
    intro i hi
    rw [truncSz_lowPart, lowPart, BitVec.getLsbD_setWidth, BitVec.getLsbD_setWidth, getLsbD_loadLE _ _ _ _ hi, hbits,
      decide_eq_true hi, Bool.true_and, ← Bool.and_assoc, Bool.and_self]
  cases o with
  | reg i =>
    simp only [opndVal, regVal]
    by_cases h1 : n = 1
    · subst h1
      rw [if_pos rfl]
      split <;> exact htrunc _
    · rw [if_neg h1]
      exact htrunc _
  | mem addr seg | ripRel addr seg => exact hload _

/-- What an operand holds does not depend on the rest of the state. -/
lemma opndVal_congr {c c' : Cpu} (hr : c'.r = c.r) (hmem : c'.mem = c.mem) : opndVal o n rex c' = opndVal o n rex c := by
  unfold opndVal
  rw [hr, hmem]

@[simp] lemma opndSet_flags : (opndSet o v n rex c).flags = c.flags := by cases o <;> rfl
@[simp] lemma opndSet_fault : (opndSet o v n rex c).fault = c.fault := by cases o <;> rfl
@[simp] lemma opndSet_as : (opndSet o v n rex c).as = c.as := by cases o <;> rfl
@[simp] lemma opndSet_rip : (opndSet o v n rex c).rip = c.rip := by cases o <;> rfl

end Access

/-- What an instruction works on: its address has been noted and `rip` moved past it. -/
def begun (c : Cpu) (next : BitVec 64) : Cpu := { noted c with rip := next }

@[simp] lemma begun_r (c : Cpu) (next : BitVec 64) : (begun c next).r = c.r := rfl
@[simp] lemma begun_mem (c : Cpu) (next : BitVec 64) : (begun c next).mem = c.mem := rfl
@[simp] lemma begun_as (c : Cpu) (next : BitVec 64) : (begun c next).as = c.as := rfl
@[simp] lemma begun_flags (c : Cpu) (next : BitVec 64) : (begun c next).flags = c.flags := rfl
@[simp] lemma begun_fault (c : Cpu) (next : BitVec 64) : (begun c next).fault = c.fault := rfl

/-! ### What has been written is read back -/

section ReadBack

variable (o : Opnd) (v : BitVec 64) {n : Nat} (rex : Bool) (c : Cpu)

lemma getLsbD_ones (k i : Nat) (hk : k ≤ 64) (m : BitVec 64) (hm : m = BitVec.setWidth 64 (BitVec.allOnes k)) :
    m.getLsbD i = decide (i < k) := by
  rw [hm, BitVec.getLsbD_setWidth, BitVec.getLsbD_allOnes]
  by_cases h : i < k
  · rw [decide_eq_true h, decide_eq_true (by omega), Bool.true_and]
  · rw [decide_eq_false h, Bool.and_false]

lemma lowPart_mergeSz (hn : Sized n) (old : BitVec 64) : lowPart n (mergeSz old v n) = lowPart n v := by
  have hff (i : Nat) : (0xff : BitVec 64).getLsbD i = decide (i < 8) := getLsbD_ones 8 i (by omega) _ rfl
  have hffff (i : Nat) : (0xffff : BitVec 64).getLsbD i = decide (i < 16) := getLsbD_ones 16 i (by omega) _ rfl
  have hlow (i : Nat) : (0xffffffff : BitVec 64).getLsbD i = decide (i < 32) := getLsbD_ones 32 i (by omega) _ rfl
  apply lowPart_ext
  intro k hk
  rcases hn with rfl | rfl | rfl | rfl
  · have hk8 : k < 8 := hk
    simp only [mergeSz, BitVec.getLsbD_or, BitVec.getLsbD_and, BitVec.getLsbD_not, hff, hk8, decide_true, Bool.not_true,
      Bool.and_false, Bool.false_or, Bool.and_true]
  · have hk16 : k < 16 := hk
    simp only [mergeSz, BitVec.getLsbD_or, BitVec.getLsbD_and, BitVec.getLsbD_not, hffff, hk16, decide_true,
      Bool.not_true, Bool.and_false, Bool.false_or, Bool.and_true]
  · have hk32 : k < 32 := hk
    simp only [mergeSz, BitVec.getLsbD_and, hlow, hk32, decide_true, Bool.and_true]
  · rfl

lemma regVal_regSet (hn : Sized n) (i : Fin 16) (r : Fin 16 → BitVec 64) :
    lowPart n (regVal (regSet r i v n rex) i n rex) = lowPart n v := by
  by_cases h1 : n = 1
  · subst h1
    have hff (i : Nat) : (0xff : BitVec 64).getLsbD i = decide (i < 8) := getLsbD_ones 8 i (by omega) _ rfl
    have hhigh : ∀ k < 8, (0xff00 : BitVec 64).getLsbD (8 + k) = true := by decide
    apply lowPart_ext
    intro k hk
    have hk8 : k < 8 := hk
    unfold regVal regSet
    cases hh : isHigh i rex with
    | false =>
      simp only [if_true, Bool.false_eq_true, if_false, Function.update_self, BitVec.getLsbD_or, BitVec.getLsbD_and,
        BitVec.getLsbD_not, hff, hk8, decide_true, Bool.not_true, Bool.and_false, Bool.false_or, Bool.and_true]
    | true =>
      have hsub : 8 + k - 8 = k := by omega
      simp only [if_true, Function.update_self, BitVec.getLsbD_or, BitVec.getLsbD_and, BitVec.getLsbD_not,
        BitVec.getLsbD_ushiftRight, BitVec.getLsbD_shiftLeft, hhigh k hk8, hsub, hff, hk8, decide_true, Bool.not_true,
        Bool.and_false, Bool.false_or, Bool.and_true, show 8 + k < 64 by omega, show ¬ 8 + k < 8 by omega, decide_false,
        Bool.not_false, Bool.true_and]
  · unfold regVal regSet
    simp only [h1, if_false, Function.update_self]
    rw [lowPart_truncSz, lowPart_mergeSz v hn]

lemma opndVal_opndSet (hn : Sized n) : lowPart n (opndVal o n rex (opndSet o v n rex c)) = lowPart n v := by
  obtain ⟨hbits, h8⟩ := hn.bits
  cases o with
  | reg i => exact regVal_regSet v rex hn i c.r
  | mem addr seg | ripRel addr seg =>
    apply lowPart_ext
    intro k hk
    exact loadLE_storeLE c.mem (addr + seg) v h8 (hbits ▸ hk)

end ReadBack

end Rashid.Proofs
