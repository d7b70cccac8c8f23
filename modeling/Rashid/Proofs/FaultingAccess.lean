import Rashid.Operations
import Rashid.Proofs.StepEvents
import Rashid.Proofs.ZeroExtend

/-!
# Accesses after a fault

An access that is not allowed yields a zero or does nothing, and the instruction goes on. What it
goes on to store is stored, in the instructions that read an operand before they write it, pop
into one, or push what they read.
-/

namespace Rashid

/-- The events before the first access that is not allowed, and those behind it. -/
def beforeFault (es : List Event) : List Event := es.takeWhile fun e => !e.isDenied

def afterFault (es : List Event) : List Event := (es.dropWhile fun e => !e.isDenied).tail

namespace Act

variable (as : As)

def refused : Act → Bool
  | access _ x a n => !x.allowed as a (BitVec.ofNat 64 n)
  | _ => false

def stores : Act → Bool
  | access _ .write a n => Access.write.allowed as a (BitVec.ofNat 64 n)
  | _ => false

/-- Something is stored although an access before it was refused. -/
def late : List Act → Bool
  | [] => false
  | x :: xs => x.refused as && xs.any (stores as) || late xs

end Act

end Rashid

namespace Rashid.Proofs

/-! ### Instructions that store late -/

section Condition

variable (e : Encoding) (p : Code) (c : Cpu)

/-- The count of a shift at a width of `n` bytes: an immediate, 1, or cl. -/
def countAt (imm one : Bool) (n : Nat) : BitVec 8 :=
  (if imm then e.immByte p else if one then 1 else (c.r rcx).setWidth 8) &&& if n = 8 then 63 else 31

/-- The width at which an instruction reads its operand and writes it back. -/
def updateSize : Option Nat :=
  if e.escaped then
    if twoClass e.op = .shld ∧ countAt e p c (e.op = 0xA4 ∨ e.op = 0xAC) false e.opsize ≠ 0 then some e.opsize else none
  else
    match opClass e.op with
    | .aluRow => if !rowToReg e.op && Alu.writes (rowAlu e.op) then some (rowSize e.op e.opsize) else none
    | .grp1 => if Alu.writes (grp1Alu (e.ext p)) then some (if e.op = 0x80 then 1 else e.opsize) else none
    | .xchg => some e.opsize
    | .shift =>
      let n := shiftSize e.op e.opsize
      if countAt e p c (e.op = 0xC0 ∨ e.op = 0xC1) (e.op = 0xD0 ∨ e.op = 0xD1) n = 0 ∨ e.ext p < 4 then none else some n
    | .grp3 => if e.ext p = 2 ∨ e.ext p = 3 then some (if e.op = 0xF6 then 1 else e.opsize) else none
    | .grp5 => if e.ext p < 2 then some (if e.op = 0xFE then 1 else e.opsize) else none
    | _ => none

def Readable (a : BitVec 64) (n : Nat) : Prop := accessOk c.as a (BitVec.ofNat 64 n) rsdProtR = true

def Writable (a : BitVec 64) (n : Nat) : Prop := accessOk c.as a (BitVec.ofNat 64 n) rsdProtW = true

/-- The instruction stores although what it has read from its operand at `a`, or from the stack, cannot be read. -/
inductive StoresLate (a : BitVec 64) : Prop where
  | update (n : Nat) (hn : updateSize e p c = some n) (hr : ¬ Readable c a n) (hw : Writable c a n)
  | pop (hesc : e.escaped = false) (hop : opClass e.op = .popRm) (hr : ¬ Readable c (c.r rsp) 8) (hw : Writable c a 8)
  | call (hesc : e.escaped = false) (hop : opClass e.op = .grp5) (hext : e.ext p = 2)
      (hr : ¬ Readable c a (if e.op = 0xFE then 1 else e.opsize)) (hw : Writable c (c.r rsp - 8) 8)
  | push (hesc : e.escaped = false) (hop : opClass e.op = .grp5) (hext : e.ext p = 6)
      (hr : ¬ (Readable c a (if e.op = 0xFE then 1 else e.opsize) ∧ Readable c a 8)) (hw : Writable c (c.r rsp - 8) 8)

end Condition

/-- A step that executes such an instruction, not behind `lock`, with its operand in memory. -/
structure WritesAfterFault (c : Cpu) : Prop where
  executes : Executes c
  lock : (0xF0 : BitVec 8) ∉ (encodingAt (codeOf c c.rip)).prefixes
  memory : (encodingAt (codeOf c c.rip)).rmIsReg (codeOf c c.rip) = false
  late : StoresLate (encodingAt (codeOf c c.rip)) (codeOf c c.rip) c
    ((encodingAt (codeOf c c.rip)).address64 (codeOf c c.rip) c.r (insnEnd c) +
      segmentBase (encodingAt (codeOf c c.rip)).prefixes c.fsBase c.gsBase)

/-! ### Late stores among accesses -/

section Late

variable {as : As}

lemma late_one (x : Act) : Act.late as [x] = false := by
  simp [Act.late]

/-- A read before a write. -/
lemma late_two (site site' : Site) (a b : BitVec 64) (n m : Nat) :
    Act.late as [.access site .read a n, .access site' .write b m] =
      (!accessOk as a (BitVec.ofNat 64 n) rsdProtR && accessOk as b (BitVec.ofNat 64 m) rsdProtW) := by
  simp [Act.late, Act.refused, Act.stores, Access.allowed]

variable {e : Encoding} {p : Code} {c : Cpu} {addr seg : BitVec 64}

lemma late_two_iff {site site' : Site} {a b : BitVec 64} {n m : Nat} :
    Act.late c.as [.access site .read a n, .access site' .write b m] = true ↔ ¬ Readable c a n ∧ Writable c b m := by
  rw [late_two, Bool.and_eq_true, Bool.not_eq_true', ← Bool.not_eq_true]
  rfl

/-- A call reads again after its push, and a push of memory before it. -/
lemma late_call {site site' : Site} {a b : BitVec 64} {n m k : Nat} :
    Act.late c.as [.access site .read a n, .access site' .write b m, .access site .read a k] = true ↔
      ¬ Readable c a n ∧ Writable c b m := by
  simp [Act.late, Act.refused, Act.stores, Access.allowed, Readable, Writable]

lemma late_push {site site' : Site} {a b : BitVec 64} {n m k : Nat} :
    Act.late c.as [.access site .read a n, .access site .read a k, .access site' .write b m] = true ↔
      ¬ (Readable c a n ∧ Readable c a k) ∧ Writable c b m := by
  by_cases hn : Readable c a n
  · by_cases hk : Readable c a k <;> simp_all [Act.late, Act.refused, Act.stores, Access.allowed, Readable, Writable]
  · simp_all [Act.late, Act.refused, Act.stores, Access.allowed, Readable, Writable]

/-- Nothing is stored behind a read. -/
lemma late_read {site : Site} {a : BitVec 64} {n : Nat} {x : Act} (hx : Act.stores c.as x = false) :
    ¬ Act.late c.as [.access site .read a n, x] = true := by
  simp [Act.late, hx]

/-- An operand that is read, and written back or not. -/
lemma late_update {b : Bool} {n : Nat} : Act.late c.as ((Opnd.mem addr seg).accessed .read n ++
      if b then (Opnd.mem addr seg).accessed .write n else []) = true ↔
    ∃ m, (if b then some n else none) = some m ∧ ¬ Readable c (addr + seg) m ∧ Writable c (addr + seg) m := by
  cases b with
  | true =>
    refine late_two_iff.trans ⟨fun h => ⟨n, rfl, h⟩, ?_⟩
    rintro ⟨m, hm, h⟩
    cases hm
    exact h
  | false =>
    refine iff_of_false (fun h => ?_) ?_
    · exact absurd ((late_one _).symm.trans h) (by decide)
    · rintro ⟨m, hm, -⟩
      cases hm

/-- One that is updated unless the count is zero or the instruction faults by itself. -/
lemma late_counted {b b' : Prop} [Decidable b] [Decidable b'] {n : Nat} {f : Fault} :
    Act.late c.as (if b then [] else if b' then [.raise f] else updateActs (.mem addr seg) n) = true ↔
      ∃ m, (if b ∨ b' then none else some n) = some m ∧ ¬ Readable c (addr + seg) m ∧ Writable c (addr + seg) m := by
  by_cases h : b
  · simp [h, Act.late]
  · by_cases h' : b'
    · simp [h, h', late_one]
    · simp only [h, h', if_false, or_self]
      exact late_update (b := true)

lemma storesLate_update {a : BitVec 64} (h : e.escaped = false → opClass e.op ≠ .popRm ∧ opClass e.op ≠ .grp5) :
    StoresLate e p c a ↔ ∃ n, updateSize e p c = some n ∧ ¬ Readable c a n ∧ Writable c a n := by
  constructor
  · intro hlate
    cases hlate with
    | update n hn hr hw => exact ⟨n, hn, hr, hw⟩
    | pop hesc hop _ _ => exact absurd hop (h hesc).1
    | call hesc hop _ _ _ => exact absurd hop (h hesc).2
    | push hesc hop _ _ _ => exact absurd hop (h hesc).2
  · rintro ⟨n, hn, hr, hw⟩
    exact .update n hn hr hw

/-- What a class that stores nothing behind a read comes to. -/
lemma storesLate_none {a : BitVec 64} {xs : List Act}
    (h : e.escaped = false → opClass e.op ≠ .popRm ∧ opClass e.op ≠ .grp5)
    (hsize : updateSize e p c = none) (hxs : Act.late c.as xs = false) : Act.late c.as xs = true ↔ StoresLate e p c a := by
  rw [storesLate_update h, hxs, hsize]
  refine iff_of_false (by decide) ?_
  rintro ⟨n, hn, -⟩
  cases hn

end Late

section Classes

variable {c : Cpu} {e : Encoding} {d : Dec} (hd : Behind c.rip e d) {addr seg : BitVec 64}

include hd

lemma noted_ext : rmExt d (noted c) = e.ext (codeOf c c.rip) := by
  rw [rmExt, hd.p0, hd.n]
  rfl

lemma countAt_eq (imm one : Bool) (n : Nat) : (shiftCount (pastRm d (noted c)) (noted c) imm one).1 &&& countMask n = 0 ↔
    countAt e (codeOf c c.rip) c imm one n = 0 := by
  have hmask : ∀ b : BitVec 8, (b.setWidth 64 &&& 63 = 0 ↔ b &&& 63 = 0) ∧ (b.setWidth 64 &&& 31 = 0 ↔ b &&& 31 = 0) := by
    decide
  have hcode : codeOf (noted c) c.rip = codeOf c c.rip := rfl
  rw [shiftCount_value hd, hcode]
  unfold countMask countAt
  by_cases h8 : n = 8
  · rw [if_pos h8, if_pos h8]
    exact (hmask _).1
  · rw [if_neg h8, if_neg h8]
    exact (hmask _).2

/-- Group 5 reads its operand, then pushes for a call or reads again and pushes. -/
lemma late_grp5 (hesc : e.escaped = false) (hk : opClass e.op = .grp5) :
    Act.late c.as (oneByteActs e.op d (noted c) (.mem addr seg) .grp5) = true ↔
      StoresLate e (codeOf c c.rip) c (addr + seg) := by
  have hext : e.ext (codeOf c c.rip) ≤ 7 := extField_le _
  have hcond : StoresLate e (codeOf c c.rip) c (addr + seg) ↔
      (∃ n, (if e.ext (codeOf c c.rip) < 2 then some (if e.op = 0xFE then 1 else e.opsize) else none) = some n ∧
        ¬ Readable c (addr + seg) n ∧ Writable c (addr + seg) n) ∨
      (e.ext (codeOf c c.rip) = 2 ∧ ¬ Readable c (addr + seg) (if e.op = 0xFE then 1 else e.opsize) ∧
        Writable c (c.r rsp - 8) 8) ∨
      (e.ext (codeOf c c.rip) = 6 ∧ ¬ (Readable c (addr + seg) (if e.op = 0xFE then 1 else e.opsize) ∧
        Readable c (addr + seg) 8) ∧ Writable c (c.r rsp - 8) 8) := by
    have hsize : updateSize e (codeOf c c.rip) c =
        if e.ext (codeOf c c.rip) < 2 then some (if e.op = 0xFE then 1 else e.opsize) else none := by
      simp only [updateSize, hesc, hk, Bool.false_eq_true, if_false]
    constructor
    · intro h
      cases h with
      | update n hn hr hw => exact .inl ⟨n, hsize ▸ hn, hr, hw⟩
      | pop _ hop _ _ => exact absurd (hk.symm.trans hop) (by decide)
      | call _ _ hext hr hw => exact .inr (.inl ⟨hext, hr, hw⟩)
      | push _ _ hext hr hw => exact .inr (.inr ⟨hext, hr, hw⟩)
    · rintro (⟨n, hn, hr, hw⟩ | ⟨hext, hr, hw⟩ | ⟨hext, hr, hw⟩)
      · exact .update n (hsize.trans hn) hr hw
      · exact .call hesc hk hext hr hw
      · exact .push hesc hk hext hr hw
  rw [hcond]
  simp only [oneByteActs, noted_ext hd, hd.opsize]
  generalize e.ext (codeOf c c.rip) = ext at hext ⊢
  generalize (if e.op = 0xFE then 1 else e.opsize) = n
  rcases ext_cases hext with rfl | rfl | rfl | rfl | rfl | rfl | rfl | rfl
  · exact late_two_iff.trans (by simp)
  · exact late_two_iff.trans (by simp)
  · exact (late_call (b := c.r rsp - 8)).trans (by simp)
  · exact iff_of_false (late_read rfl) (by simp)
  · exact iff_of_false (late_read rfl) (by simp)
  · exact iff_of_false (late_read rfl) (by simp)
  · exact (late_push (b := c.r rsp - 8)).trans (by simp)
  · exact iff_of_false (late_read rfl) (by simp)

lemma late_oneByte (hesc : e.escaped = false) :
    Act.late c.as (oneByteActs e.op d (noted c) (.mem addr seg) (opClass e.op)) = true ↔
      StoresLate e (codeOf c c.rip) c (addr + seg) := by
  cases hk : opClass e.op with
  | aluRow =>
    rw [storesLate_update (by simp [hk])]
    simp only [updateSize, hesc, hk, Bool.false_eq_true, if_false, oneByteActs, hd.opsize]
    exact late_update
  | grp1 =>
    rw [storesLate_update (by simp [hk])]
    simp only [updateSize, hesc, hk, Bool.false_eq_true, if_false, oneByteActs, hd.opsize, noted_ext hd]
    exact late_update
  | xchg =>
    rw [storesLate_update (by simp [hk])]
    simp only [updateSize, hesc, hk, Bool.false_eq_true, if_false, oneByteActs, hd.opsize]
    exact late_update (b := true)
  | shift =>
    have hcount := countAt_eq hd (e.op = 0xC0 ∨ e.op = 0xC1) (e.op = 0xD0 ∨ e.op = 0xD1) (shiftSize e.op e.opsize)
    rw [storesLate_update (by simp [hk])]
    simp only [updateSize, hesc, hk, Bool.false_eq_true, if_false, oneByteActs, shiftBy, hd.opsize, noted_ext hd, ← hcount]
    exact late_counted
  | grp3 =>
    have hext : e.ext (codeOf c c.rip) ≤ 7 := extField_le _
    rw [storesLate_update (by simp [hk])]
    simp only [updateSize, hesc, hk, Bool.false_eq_true, if_false, oneByteActs, hd.opsize, noted_ext hd]
    generalize (rd (Opnd.mem addr seg) (if e.op = 0xF6 then 1 else e.opsize) d.hasRex (noted c)).1 = v
    generalize e.ext (codeOf c c.rip) = ext at hext ⊢
    generalize (if e.op = 0xF6 then 1 else e.opsize) = n
    have hdiv :
        ¬ Act.late c.as ((Opnd.mem addr seg).accessed .read n ++ if v = 0 then [.raise .divideByZero] else []) = true := by
      split
      · exact late_read rfl
      · simp [Opnd.accessed, late_one]
    rcases ext_cases hext with rfl | rfl | rfl | rfl | rfl | rfl | rfl | rfl
    · exact late_update (b := false)
    · exact late_update (b := false)
    · exact late_update (b := true)
    · exact late_update (b := true)
    · exact late_update (b := false)
    · exact late_update (b := false)
    · exact iff_of_false hdiv (by simp)
    · exact iff_of_false hdiv (by simp)
  | popRm =>
    have hsize : updateSize e (codeOf c c.rip) c = none := by simp [updateSize, hesc, hk]
    refine (late_two_iff (c := c) (a := c.r rsp)).trans ?_
    constructor
    · rintro ⟨hr, hw⟩
      exact .pop hesc hk hr hw
    · intro h
      cases h with
      | update n hn _ _ => cases hsize.symm.trans hn
      | pop _ _ hr hw => exact ⟨hr, hw⟩
      | call _ hop _ _ _ => cases hk.symm.trans hop
      | push _ hop _ _ _ => cases hk.symm.trans hop
  | grp5 => exact late_grp5 hd hesc hk
  | lea | aluEax | testEax | jcc8 | nop | cwde | cdq | movRegImm8 | movRegImm | jmp =>
    exact storesLate_none (by simp [hk]) (by simp [updateSize, hesc, hk]) rfl
  | pushReg | pushImm | pushfq | call | popReg | popfq | ret | retImm | leave | movsxd | imulImm | movRmImm |
    twoByte | none =>
    exact storesLate_none (by simp [hk]) (by simp [updateSize, hesc, hk]) (late_one _)

lemma late_twoByte (hesc : e.escaped = true) :
    Act.late c.as (twoByteActs e.op d (noted c) (.mem addr seg) (twoClass e.op)) = true ↔
      StoresLate e (codeOf c c.rip) c (addr + seg) := by
  have hno : e.escaped = false → opClass e.op ≠ .popRm ∧ opClass e.op ≠ .grp5 := fun h => by rw [hesc] at h; cases h
  cases hk : twoClass e.op with
  | shld =>
    have hcount := countAt_eq hd (e.op = 0xA4 ∨ e.op = 0xAC) false e.opsize
    rw [storesLate_update hno]
    simp only [updateSize, hesc, hk, if_true, true_and, twoByteActs, shldBy, hd.opsize, ne_eq, ← hcount]
    generalize (shiftCount (pastRm d (noted c)) (noted c) (e.op = 0xA4 ∨ e.op = 0xAC) false).1 &&& countMask e.opsize = v
    by_cases h0 : v = 0
    · subst h0
      exact iff_of_false (by simp [Act.late]) (by simp)
    · have hv : v.toNat ≠ 0 := fun h => h0 (BitVec.eq_of_toNat_eq h)
      rw [if_neg hv, if_pos h0]
      exact late_update (b := true)
  | cmov =>
    refine storesLate_none hno (by simp [updateSize, hesc, hk]) ?_
    simp only [twoByteActs]
    split
    · exact late_one _
    · rfl
  | nop | jcc => exact storesLate_none hno (by simp [updateSize, hesc, hk]) rfl
  | setcc | imul | movx | none => exact storesLate_none hno (by simp [updateSize, hesc, hk]) (late_one _)

end Classes

/-- With its operand in a register an instruction makes one access at most. -/
lemma late_reg (as : As) (op : BitVec 8) (d : Dec) (c : Cpu) (i : Fin 16) (k : OpClass) :
    Act.late as (oneByteActs op d c (.reg i) k) = false := by
  have hshort {xs : List Act} (h : xs = [] ∨ ∃ x, xs = [x]) : Act.late as xs = false := by
    rcases h with rfl | ⟨x, rfl⟩
    · rfl
    · exact late_one x
  have hupdate (n : Nat) : updateActs (.reg i) n = [] := rfl
  have hext3 (ext : BitVec 8) (a : BitVec 64) (n : Nat) :
      grp3Acts ext a (.reg i) n = [] ∨ ∃ x, grp3Acts ext a (.reg i) n = [x] := by
    unfold grp3Acts
    split
    · exact .inl rfl
    · exact .inl rfl
    · exact (ite_eq_or_eq (a = 0) _ _).symm.imp_right fun h => ⟨_, h⟩
    · exact (ite_eq_or_eq (a = 0) _ _).symm.imp_right fun h => ⟨_, h⟩
    · exact .inl rfl
  have hext5 (ext : BitVec 8) (n : Nat) : grp5Acts ext (.reg i) n c = [] ∨ ∃ x, grp5Acts ext (.reg i) n c = [x] := by
    unfold grp5Acts
    split <;> simp [Opnd.accessed]
  apply hshort
  cases k with
  | aluRow | grp1 => simp [oneByteActs, Opnd.accessed]
  | grp3 => exact hext3 _ _ _
  | grp5 => exact hext5 _ _
  | shift =>
    simp only [oneByteActs, hupdate]
    split
    · exact .inl rfl
    · split
      · exact .inr ⟨_, rfl⟩
      · exact .inl rfl
  | lea => exact .inr ⟨_, rfl⟩
  | popRm => exact .inr ⟨_, rfl⟩
  | aluEax | testEax | jcc8 | nop | cwde | cdq | movRegImm8 | movRegImm | jmp | movsxd | imulImm | movRmImm | xchg =>
    exact .inl rfl
  | pushReg | pushImm | pushfq | call | popReg | popfq | ret | retImm | leave | twoByte | none => exact .inr ⟨_, rfl⟩

lemma late_reg_two (as : As) (op : BitVec 8) (d : Dec) (c : Cpu) (i : Fin 16) (k : TwoClass) :
    Act.late as (twoByteActs op d c (.reg i) k) = false := by
  cases k with
  | nop | jcc | setcc | imul | movx => rfl
  | none => exact late_one _
  | cmov | shld =>
    simp only [twoByteActs]
    split <;> rfl

/-! ### Instructions -/

section Insn

variable (fp : Fp) (c : Cpu)

lemma rmOperand_reg (h : (encodingAt (codeOf c c.rip)).rmIsReg (codeOf c c.rip) = true) : ∃ i, rmOperand c = .reg i :=
  ⟨_, if_pos (beq_iff_eq.mp h)⟩

lemma rmOperand_memory (h : (encodingAt (codeOf c c.rip)).rmIsReg (codeOf c c.rip) = false) :
    rmOperand c = .mem ((encodingAt (codeOf c c.rip)).address64 (codeOf c c.rip) c.r (insnEnd c))
      (segmentBase (encodingAt (codeOf c c.rip)).prefixes c.fsBase c.gsBase) :=
  if_neg fun h3 => absurd (h.symm.trans (beq_iff_eq.mpr h3)) (by decide)

/-- An instruction that is not behind `lock`, with its operand in memory. -/
lemma late_insn : Act.late c.as (actsOf (stepInsn fp) c) = true ↔
    (0xF0 : BitVec 8) ∉ (encodingAt (codeOf c c.rip)).prefixes ∧
      (encodingAt (codeOf c c.rip)).rmIsReg (codeOf c c.rip) = false ∧
        StoresLate (encodingAt (codeOf c c.rip)) (codeOf c c.rip) c
          ((encodingAt (codeOf c c.rip)).address64 (codeOf c c.rip) c.r (insnEnd c) +
            segmentBase (encodingAt (codeOf c c.rip)).prefixes c.fsBase c.gsBase) := by
  have hnone (hesc : (encodingAt (codeOf c c.rip)).escaped = true) (h0 : twoClass (encodingAt (codeOf c c.rip)).op = .none)
      (a : BitVec 64) : ¬ StoresLate (encodingAt (codeOf c c.rip)) (codeOf c c.rip) c a := by
    rw [storesLate_update fun h => by rw [hesc] at h; cases h]
    simp [updateSize, hesc, h0]
  cases insn_acts fp c with
  | unknown hno h =>
    rw [h, late_one]
    refine iff_of_false (by decide) ?_
    rintro ⟨hlock, -, hlate⟩
    rcases hno with ⟨hesc, h0⟩ | hlock'
    · rw [storesLate_update (by simp [h0])] at hlate
      simp [updateSize, hesc, h0] at hlate
    · exact hlock hlock'
  | oneByte d hd hesc _ _ h =>
    rw [h, and_iff_right hd.lock]
    cases hreg : (encodingAt (codeOf c c.rip)).rmIsReg (codeOf c c.rip) with
    | true =>
      obtain ⟨i, hi⟩ := rmOperand_reg c hreg
      rw [hi, late_reg]
      exact iff_of_false (by decide) fun h => absurd h.1 (by decide)
    | false =>
      rw [rmOperand_memory c hreg, and_iff_right rfl]
      exact late_oneByte hd.toBehind hesc
  | twoByte d hd hesc _ _ h =>
    rw [h, and_iff_right hd.lock]
    cases hreg : (encodingAt (codeOf c c.rip)).rmIsReg (codeOf c c.rip) with
    | true =>
      obtain ⟨i, hi⟩ := rmOperand_reg c hreg
      rw [hi, late_reg_two]
      exact iff_of_false (by decide) fun h => absurd h.1 (by decide)
    | false =>
      rw [rmOperand_memory c hreg, and_iff_right rfl]
      exact late_twoByte hd.toBehind hesc
  | sse d hd hesc hs x n h =>
    have hlate : Act.late c.as ((rmOperand c).accessed x n) = false := by
      generalize rmOperand c = o
      cases o with
      | reg i => rfl
      | mem addr seg | ripRel addr seg => exact late_one _
    rw [h, hlate]
    exact iff_of_false (by decide) fun h' => hnone hesc (sse_two_disjoint _ hs).1 _ h'.2.2
  | declined hesc h0 h =>
    refine iff_of_false ?_ fun h' => hnone hesc h0 _ h'.2.2
    rcases h with h | h
    · rw [h]
      exact Bool.false_ne_true
    · rw [h, late_one]
      exact Bool.false_ne_true

end Insn

/-! ### Events -/

section Events

variable {s t : Seen} {es : List Event}

/-- Nothing but the host changes what is mapped, so that every event is judged alike. -/
lemma lead_judged (h : Event.Lead s es t) (hno : ∀ ev ∈ es, ev.act ≠ .remap) : ∀ ev ∈ es, ev.Judged s.as := by
  induction es generalizing s with
  | nil => exact fun _ h => nomatch h
  | cons e es ih =>
    obtain ⟨hj, hrest⟩ := h
    have has : (e.on s).as = s.as := by
      cases e with
      | mapped as mem => exact absurd rfl (hno _ List.mem_cons_self)
      | denied site x a n what rip =>
        simp only [Event.on]
        split <;> rfl
      | load | store | raised => rfl
    intro ev hev
    rcases List.mem_cons.mp hev with rfl | hev
    · exact hj
    · exact has ▸ ih hrest (fun ev h => hno ev (List.mem_cons_of_mem _ h)) ev hev

variable {as : As} {ev : Event}

lemma act_refused (h : ev.Judged as) : ev.act.refused as = ev.isDenied := by
  cases ev with
  | load site a n | store site a n bytes =>
    have hok := h
    simp only [Event.Judged] at hok
    simp [Event.act, Act.refused, Event.isDenied, hok]
  | denied site x a n what rip =>
    have hno := h
    simp only [Event.Judged] at hno
    simp [Event.act, Act.refused, Event.isDenied, hno]
  | raised | mapped => rfl

lemma act_stores (h : ev.Judged as) : ev.act.stores as = ev.isStore := by
  cases ev with
  | store site a n bytes => exact h
  | denied site x a n what rip => cases x <;> first | rfl | exact h
  | load | raised | mapped => rfl

lemma afterFault_cons (e : Event) (es : List Event) : afterFault (e :: es) = if e.isDenied then es else afterFault es := by
  unfold afterFault
  cases h : e.isDenied <;> simp [List.dropWhile, h]

lemma beforeFault_cons (e : Event) (es : List Event) :
    beforeFault (e :: es) = if e.isDenied then [] else e :: beforeFault es := by
  unfold beforeFault
  cases h : e.isDenied <;> simp [h]

/-- A store behind one refused access is a store behind the first. -/
lemma late_events (h : ∀ ev ∈ es, ev.Judged as) : Act.late as (es.map Event.act) = (afterFault es).any Event.isStore := by
  induction es with
  | nil => rfl
  | cons e es ih =>
    have hrest := ih fun ev hev => h ev (List.mem_cons_of_mem _ hev)
    have hany : (es.map Event.act).any (Act.stores as) = es.any Event.isStore := by
      rw [List.any_map, Bool.eq_iff_iff, List.any_eq_true, List.any_eq_true]
      refine exists_congr fun ev => and_congr_right fun hev => ?_
      rw [← act_stores (h ev (List.mem_cons_of_mem _ hev))]
      rfl
    have hsub : (afterFault es).any Event.isStore = true → es.any Event.isStore = true := by
      simp only [List.any_eq_true]
      rintro ⟨ev, hev, hst⟩
      exact ⟨ev, (List.dropWhile_suffix _).subset (List.mem_of_mem_tail hev), hst⟩
    rw [List.map_cons, Act.late, hany, act_refused (h e List.mem_cons_self), hrest, afterFault_cons]
    cases e.isDenied with
    | false => rfl
    | true =>
      rw [if_pos rfl, Bool.true_and]
      cases hb : (afterFault es).any Event.isStore with
      | false => exact Bool.or_false _
      | true => rw [hsub hb, Bool.or_self]

/-- An event that leaves memory alone. -/
def KeepsMem (ev : Event) : Prop := ev.isStore = false ∧ ev.act ≠ .remap

lemma on_mem (h : KeepsMem ev) : (ev.on s).mem = s.mem := by
  cases ev with
  | store => cases h.1
  | mapped => exact absurd rfl h.2
  | denied site x a n what rip =>
    simp only [Event.on]
    split <;> rfl
  | load | raised => rfl

lemma fold_mem (h : ∀ ev ∈ es, KeepsMem ev) : (es.foldl (fun s ev => ev.on s) s).mem = s.mem := by
  induction es generalizing s with
  | nil => rfl
  | cons e es ih =>
    rw [List.foldl_cons, ih fun ev hev => h ev (List.mem_cons_of_mem _ hev), on_mem (h e List.mem_cons_self)]

/-- Memory stays as it is at the first fault if nothing behind it changes memory. -/
lemma fold_fault (h : ∀ ev ∈ afterFault es, KeepsMem ev) :
    (es.foldl (fun s ev => ev.on s) s).mem = ((beforeFault es).foldl (fun s ev => ev.on s) s).mem := by
  induction es generalizing s with
  | nil => rfl
  | cons e es ih =>
    rw [afterFault_cons] at h
    rw [beforeFault_cons]
    cases hd : e.isDenied with
    | false =>
      rw [hd] at h
      exact ih h
    | true =>
      rw [hd, if_pos rfl] at h
      rw [List.foldl_cons, fold_mem h, on_mem]
      · rfl
      · cases e with
        | denied => exact ⟨rfl, nofun⟩
        | load | store | raised | mapped => cases hd

end Events

/-! ### Steps -/

section Step

variable (fp : Fp) (rt : Runtime) (k : Kernel) {c : Cpu}

/-- Memory as it was when an access was first refused, or at the end if none was. -/
def memAtFault (es : List Event) (c : Cpu) : Mem := ((beforeFault es).foldl (fun s ev => ev.on s) c.seen).mem

lemma step_mem (h : ∀ ev ∈ afterFault (eventsOf (step fp rt k) c), KeepsMem ev) :
    (step fp rt k c).2.mem = memAtFault (eventsOf (step fp rt k) c) c := by
  have hacc := Event.lead_eq (eventsOf_accounts (step fp rt k) c)
  exact (congrArg Seen.mem hacc).trans (fold_fault h)

lemma insn_judged (c : Cpu) : (∀ ev ∈ eventsOf (stepInsn fp) c, ev.act ≠ .remap) ∧
    ∀ ev ∈ eventsOf (stepInsn fp) c, ev.Judged c.as := by
  have hno : ∀ ev ∈ eventsOf (stepInsn fp) c, ev.act ≠ .remap := by
    intro ev hev hact
    have hof := insn_acts_of fp c ev.act (List.mem_map_of_mem hev)
    rw [hact] at hof
    rcases hof with ⟨x, n, h⟩ | ⟨x, a, n, h⟩ | ⟨f, h⟩
    · generalize rmOperand c = o at h
      cases o with
      | reg i => cases h
      | mem addr seg | ripRel addr seg => cases List.mem_singleton.mp h
    · cases h
    · cases h
  exact ⟨hno, lead_judged (eventsOf_accounts (stepInsn fp) c) hno⟩

/-- Nothing comes behind a single event. -/
lemma afterFault_brief {es : List Event} (h : es = [] ∨ ∃ ev, es = [ev]) : afterFault es = [] := by
  rcases h with rfl | ⟨ev, rfl⟩
  · rfl
  · rw [afterFault_cons]
    exact ite_self _

lemma gathering_keeps {ev : Event} (h : ev.isGathering = true) : KeepsMem ev := by
  cases ev with
  | store | mapped => cases h
  | load | denied | raised => exact ⟨rfl, nofun⟩

lemma mem_afterFault {es : List Event} {ev : Event} (h : ev ∈ afterFault es) : ev ∈ es :=
  (List.dropWhile_suffix _).subset (List.mem_of_mem_tail h)

/-- Once an access has been refused, the step stores nothing more and leaves memory as it was, except in the
instructions that store late. -/
theorem faulting_access (c : Cpu) :
    let es := eventsOf (step fp rt k) c
    ((∀ ev ∈ afterFault es, ev.isStore = false) ∧ (step fp rt k c).2.mem = memAtFault es c) ↔ ¬ WritesAfterFault c := by
  intro es
  have hmem := step_mem fp rt k (c := c)
  by_cases hexec : Executes c
  · have hlate : Act.late c.as (actsOf (stepInsn fp) c) = true ↔ WritesAfterFault c := by
      rw [late_insn]
      exact ⟨fun h => ⟨hexec, h.1, h.2.1, h.2.2⟩, fun h => ⟨h.lock, h.memory, h.late⟩⟩
    rcases executed_events fp rt k hexec with hev | ⟨hacts, c', hev⟩
    · obtain ⟨hno, hj⟩ := insn_judged fp c
      have hes : es = eventsOf (stepInsn fp) c := hev
      have hstores : (∀ ev ∈ afterFault es, ev.isStore = false) ↔ ¬ WritesAfterFault c := by
        rw [← hlate, actsOf, late_events hj, hes, List.any_eq_true]
        push Not
        simp only [Bool.eq_false_iff]
      rw [hstores]
      refine and_iff_left_of_imp fun h => hmem fun ev hin => ⟨hstores.mpr h ev hin, hno ev ?_⟩
      exact hes ▸ mem_afterFault hin
    · have hnil : afterFault es = [] := by
        apply afterFault_brief
        rw [show es = eventsOf (doSyscall k) c' from hev]
        exact (doSyscall_brief k c').imp_right fun h => ⟨h.choose, h.choose_spec.1⟩
      rw [← hlate, hacts]
      refine iff_of_true ⟨fun ev h => ?_, hmem fun ev h => ?_⟩ Bool.false_ne_true
      · rw [hnil] at h
        cases h
      · rw [show afterFault (eventsOf (step fp rt k) c) = [] from hnil] at h
        cases h
  · have hkeeps : ∀ ev ∈ afterFault es, KeepsMem ev := by
      intro ev hev
      rcases unexecuted_events fp rt k hexec with hnil | ⟨what, rip, hone⟩ | ⟨st, imp, hstub⟩
      · rw [show es = [] from hnil] at hev
        cases hev
      · rw [afterFault_brief (.inr ⟨_, hone⟩)] at hev
        cases hev
      · have hin := mem_afterFault hev
        rw [show es = eventsOf (stepStub rt st imp) c from hstub] at hin
        exact gathering_keeps (stepStub_causes rt st imp c ev hin)
    exact iff_of_true ⟨fun ev h => (hkeeps ev h).1, hmem hkeeps⟩ fun h => hexec h.executes

end Step

/-- `add [rdx], eax` on a page that can only be written. -/
def writeOnlyCpu : Cpu := { codeCpu [0x01, 0x02] with
  r := fun i => if i = rdx then 0x8000 else 0x11
  as := { rsdAsInit with reg := [⟨0x1000, 0x2000, 7⟩, ⟨0x8000, 0x9000, 2⟩] } }

/-- The read faults, and `eax` is stored all the same. -/
theorem stored_after_fault :
    let es := eventsOf (step sampleFp sampleRuntime sampleKernel) writeOnlyCpu
    es.map Event.isDenied = [true, false] ∧ es.map Event.isStore = [false, true] ∧
    (step sampleFp sampleRuntime sampleKernel writeOnlyCpu).2.fault ≠ none ∧
    memAtFault es writeOnlyCpu 0x8000 = 0x90 ∧
    (step sampleFp sampleRuntime sampleKernel writeOnlyCpu).2.mem 0x8000 = 0x11 := by
  refine ⟨by decide, by decide, by decide, by decide, by decide⟩

end Rashid.Proofs
