import Mathlib.Data.List.Forall2
import Rashid.CpuInit
import Rashid.Proofs.Callbacks

/-!
# The initial stack

Everything lies at a distance under the top of the stack that is known before anything is written.
No distance is compared with the size of the stack, so what is read back is right exactly if the
whole command line leaves enough room.
-/

namespace Rashid.Proofs

/-! ### Distances under the top -/

def roundUp16 (n : Nat) : Nat := (n + 15) / 16 * 16

/-- The strings with their zeroes. -/
def stringBytes (argv : List (List (BitVec 8))) : Nat := (argv.map fun s => s.length + 1).sum

/-- How far down the vector starts. -/
def vectorDepth (argv : List (List (BitVec 8))) : Nat :=
  roundUp16 (stringBytes argv) + roundUp16 (8 * (argv.length + 3))

section Distances

variable {top : BitVec 64}

lemma sub_ofNat_sub (n k : Nat) : top - BitVec.ofNat 64 n - BitVec.ofNat 64 k = top - BitVec.ofNat 64 (n + k) := by
  rw [BitVec.ofNat_add]
  bv_omega

lemma align16_below (htop : top.toNat % 16 = 0) {n : Nat} (hn : n < 2 ^ 63) :
    align16 (top - BitVec.ofNat 64 n) = top - BitVec.ofNat 64 (roundUp16 n) := by
  have hlow : ((top - BitVec.ofNat 64 n) &&& 15).toNat = (top - BitVec.ofNat 64 n).toNat % 16 := by
    rw [BitVec.toNat_and]
    exact Nat.and_two_pow_sub_one_eq_mod _ 4
  unfold align16
  rw [and_not_fifteen]
  generalize hx : (top - BitVec.ofNat 64 n) &&& 15 = x at hlow
  unfold roundUp16
  apply BitVec.eq_of_toNat_eq
  have hlt := top.isLt
  simp only [BitVec.toNat_sub, BitVec.toNat_ofNat] at hlow ⊢
  omega

lemma copyStrings_descends (argv : List (List (BitVec 8))) (n : Nat) :
    Descends top n (copyStrings (top - BitVec.ofNat 64 n) argv) (n + stringBytes argv) := by
  induction argv generalizing n with
  | nil => exact .nil (Nat.le_refl _)
  | cons s rest ih =>
    have hsum : n + stringBytes (s :: rest) = n + (s.length + 1) + stringBytes rest := by
      simp [stringBytes]
      omega
    rw [copyStrings, sub_ofNat_sub, hsum]
    apply Descends.cons rfl
    · simp
    · exact ih _

lemma lowestString_copy (argv : List (List (BitVec 8))) (n : Nat) :
    lowestString (top - BitVec.ofNat 64 n) (copyStrings (top - BitVec.ofNat 64 n) argv) =
      top - BitVec.ofNat 64 (n + stringBytes argv) := by
  induction argv generalizing n with
  | nil => rfl
  | cons s rest ih =>
    have hsum : n + stringBytes (s :: rest) = n + (s.length + 1) + stringBytes rest := by
      simp [stringBytes]
      omega
    rw [hsum, ← ih, copyStrings, sub_ofNat_sub]
    rfl

/-- Strings that do not fit are copied over the byte under the stack. -/
lemma copyStrings_outside (argv : List (List (BitVec 8))) {n : Nat} (hn : n ≤ 2 ^ 20)
    (hover : 2 ^ 20 < n + stringBytes argv) :
    ∃ w ∈ copyStrings (top - BitVec.ofNat 64 n) argv, w.covers (top - guestStackSize - 1) := by
  induction argv generalizing n with
  | nil => exact absurd hover (by simp [stringBytes]; omega)
  | cons s rest ih =>
    have hsum : n + stringBytes (s :: rest) = n + (s.length + 1) + stringBytes rest := by
      simp [stringBytes]
      omega
    rw [copyStrings, sub_ofNat_sub]
    by_cases hfits : n + (s.length + 1) ≤ 2 ^ 20
    · obtain ⟨w, hw, hcov⟩ := ih hfits (by omega)
      exact ⟨w, List.mem_cons_of_mem _ hw, hcov⟩
    · refine ⟨_, List.mem_cons_self, ?_⟩
      have hsub : (top - guestStackSize - 1 - (top - BitVec.ofNat 64 (n + (s.length + 1)))).toNat =
          (n + (s.length + 1) - 2 ^ 20 - 1) % 2 ^ 64 := by
        have hsize : guestStackSize.toNat = 2 ^ 20 := rfl
        bv_omega
      unfold Write.covers inWindow
      rw [hsub, List.length_append]
      exact Nat.lt_of_le_of_lt (Nat.mod_le _ _) (by simp; omega)

end Distances

/-! ### What is written and where -/

section Layout

variable (base : BitVec 64) (argv : List (List (BitVec 8)))

def stackTop : BitVec 64 := base + guestStackSize

def stackStrings : List Write := copyStrings (stackTop base) argv

def stackVector : BitVec 64 := vectorAt (align16 (lowestString (stackTop base) (stackStrings base argv))) argv.length

/-- Where `rsp` is left. -/
def stackPointer (hasMain : Bool) : BitVec 64 :=
  if hasMain then align16 (stackVector base argv - 4096) - 8
  else frameAt (align16 (stackVector base argv - 4096)) argv.length

def vectorWrite : Write :=
  (stackVector base argv, wordsBytes ((stackStrings base argv).map (·.1) ++ [0, 0, 0]))

def frameWrite : Write :=
  (stackPointer base argv false,
    wordsBytes ([BitVec.ofNat 64 argv.length] ++ (stackStrings base argv).map (·.1) ++ [0, 0, 0]))

/-- Every write to guest memory, in order. Only the one of the return address is checked. -/
def initWrites (as : As) (hasMain : Bool) : List Write :=
  stackStrings base argv ++ [vectorWrite base argv] ++
    if hasMain then
      if accessOk as (stackPointer base argv true) 8 rsdProtW then
        [(stackPointer base argv true, wordBytes returnMagic)]
      else []
    else [frameWrite base argv]

end Layout

section Init

variable {base : BitVec 64} {as : As} {m : Mem} {entry : BitVec 64} {argv : List (List (BitVec 8))}

lemma fillStack_start : (fillStack base as m entry false argv).mem = pokeAll m (initWrites base argv as false) ∧
    (fillStack base as m entry false argv).r rsp = stackPointer base argv false := by
  constructor
  · simp only [initWrites, Bool.false_eq_true, if_false]
    rw [pokeAll_append _ (_ ++ _)]
    rfl
  · unfold fillStack stackPointer
    simp only [Bool.false_eq_true, if_false, Function.update_self]
    rfl

/-- The registers that `main` takes its arguments in. -/
structure MainArgs (c : Cpu) (n : Nat) (vec : BitVec 64) : Prop where
  count : c.r rdi = BitVec.ofNat 64 n
  strings : c.r rsi = vec
  envp : c.r rdx = vec + BitVec.ofNat 64 (n + 1) * 8
  apple : c.r rcx = vec + BitVec.ofNat 64 (n + 2) * 8

/-- The push of the return address, done or refused. -/
lemma st_word (c : Cpu) (a v : BitVec 64) :
    (st a v 8 c).2.mem = pokeAll c.mem (if accessOk c.as a 8 rsdProtW then [(a, wordBytes v)] else []) ∧
      (st a v 8 c).2.r = c.r := by
  unfold st
  cases hok : accessOk c.as a 8 rsdProtW with
  | true =>
    simp only [if_true]
    exact ⟨storeLE_eq_poke c.mem a v, rfl⟩
  | false =>
    simp only [Bool.false_eq_true, if_false, pokeAll_nil]
    unfold memfault Prog.modify
    by_cases hf : c.fault = none
    · simp [hf]
    · simp [hf]

lemma fillStack_main : (fillStack base as m entry true argv).mem = pokeAll m (initWrites base argv as true) ∧
    (fillStack base as m entry true argv).r rsp = stackPointer base argv true ∧
    MainArgs (fillStack base as m entry true argv) argv.length (stackVector base argv) := by
  unfold fillStack
  simp only [if_true]
  rw [(st_word _ _ _).1, (st_word _ _ _).2]
  refine ⟨?_, ?_, ?_⟩
  · simp only [initWrites, if_true]
    rw [pokeAll_append _ (_ ++ _)]
    rfl
  · simp only [Function.update_self]
    rfl
  · exact ⟨rfl, rfl, rfl, rfl⟩

end Init

/-! ### What is read back -/

/-- A string up to its zero. -/
def ReadsString (m : Mem) (p : BitVec 64) (s : List (BitVec 8)) : Prop :=
  (∀ b ∈ s, b ≠ 0) ∧ peek m p (s.length + 1) = s ++ [0]

/-- A vector of strings up to its null pointer. -/
def ReadsVector (m : Mem) (a : BitVec 64) : List (List (BitVec 8)) → Prop
  | [] => loadLE m a 8 = 0
  | s :: rest => loadLE m a 8 ≠ 0 ∧ ReadsString m (loadLE m a 8) s ∧ ReadsVector m (a + 8) rest

/-- `main` has its arguments in registers. -/
structure ReadAsMain (c : Cpu) (argv : List (List (BitVec 8))) : Prop where
  count : c.r rdi = BitVec.ofNat 64 argv.length
  strings : ReadsVector c.mem (c.r rsi) argv
  envp : ReadsVector c.mem (c.r rdx) []
  apple : ReadsVector c.mem (c.r rcx) []

/-- `_start` has them in memory, from `rsp` on. -/
structure ReadAsStart (c : Cpu) (argv : List (List (BitVec 8))) : Prop where
  count : loadLE c.mem (c.r rsp) 8 = BitVec.ofNat 64 argv.length
  strings : ReadsVector c.mem (c.r rsp + 8) argv
  envp : ReadsVector c.mem (c.r rsp + 8 + BitVec.ofNat 64 (argv.length + 1) * 8) []
  apple : ReadsVector c.mem (c.r rsp + 8 + BitVec.ofNat 64 (argv.length + 2) * 8) []

section Reading

variable {m : Mem} {ws : List Write}

lemma holdsWords_written (hap : WritesApart ws) {a : BitVec 64} {vs : List (BitVec 64)}
    (hw : (a, wordsBytes vs) ∈ ws) (hlen : 8 * vs.length < 2 ^ 64) : HoldsWords (pokeAll m ws) a vs := by
  apply holdsWords_of_bytes hlen
  intro x hx
  rw [← wordsBytes_length] at hx
  exact pokeAll_inside hap hw hx 0

lemma readsString_written (hap : WritesApart ws) {p : BitVec 64} {s : List (BitVec 8)} (hs : ∀ b ∈ s, b ≠ 0)
    (hw : (p, s ++ [0]) ∈ ws) (hlen : s.length + 1 < 2 ^ 64) : ReadsString (pokeAll m ws) p s := by
  refine ⟨hs, List.ext_getElem (by simp [peek]) ?_⟩
  intro i hi hi'
  have hlt : i < s.length + 1 := by simpa using hi'
  have hsub : (p + BitVec.ofNat 64 i - p).toNat = i := by bv_omega
  have hcov : Write.covers (p, s ++ [0]) (p + BitVec.ofNat 64 i) := by
    unfold Write.covers inWindow
    rw [hsub]
    exact hi'
  have hbyte := @pokeAll_inside m ws hap _ hw _ hcov 0
  rw [hsub, List.getD_eq_getElem _ _ hi'] at hbyte
  simpa [peek] using hbyte

/-- A vector of pointers to strings that were written. -/
lemma readsVector_written (hap : WritesApart ws) {strings : List Write} {argv : List (List (BitVec 8))}
    (hstr : List.Forall₂ (fun w s => w.2 = s ++ [0]) strings argv) (hin : ∀ w ∈ strings, w ∈ ws ∧ w.1 ≠ 0)
    (htext : ∀ s ∈ argv, (∀ b ∈ s, b ≠ 0) ∧ s.length + 1 < 2 ^ 64) {a : BitVec 64} {rest : List (BitVec 64)}
    (hvec : HoldsWords (pokeAll m ws) a (strings.map (·.1) ++ 0 :: rest)) : ReadsVector (pokeAll m ws) a argv := by
  induction hstr generalizing a with
  | nil => exact hvec.1
  | @cons w s strings argv hws _ ih =>
    obtain ⟨hmem, hne⟩ := hin w List.mem_cons_self
    obtain ⟨hs, hlen⟩ := htext s List.mem_cons_self
    have hload : loadLE (pokeAll m ws) a 8 = w.1 := hvec.1
    have hw : (w.1, s ++ [0]) ∈ ws := by
      rw [← hws]
      exact hmem
    refine ⟨hload ▸ hne, ?_, ?_⟩
    · rw [hload]
      exact readsString_written hap hs hw hlen
    · apply ih
      · intro w' hw'
        exact hin w' (List.mem_cons_of_mem w hw')
      · intro s' hs'
        exact htext s' (List.mem_cons_of_mem s hs')
      · exact hvec.2

end Reading

/-! ### Room for everything -/

/-- What the kernel promises of fresh memory: it starts on a page and does not wrap. -/
structure StackRoom (base : BitVec 64) : Prop where
  aligned : base.toNat % 16 = 0
  room : base.toNat + 2 ^ 20 ≤ 2 ^ 64

def returnDepth (argv : List (List (BitVec 8))) : Nat := vectorDepth argv + 4104

def frameDepth (argv : List (List (BitVec 8))) : Nat := vectorDepth argv + 4096 + roundUp16 (8 * (argv.length + 4))

/-- The strings, the vector and what comes under it fit into the stack, or the store of the return
address is one that the check refuses. -/
def StackFits (base : BitVec 64) (as : As) (hasMain : Bool) (argv : List (List (BitVec 8))) : Prop :=
  vectorDepth argv ≤ 2 ^ 20 ∧
    if hasMain then
      returnDepth argv ≤ 2 ^ 20 ∨
        accessOk as (base + guestStackSize - BitVec.ofNat 64 (returnDepth argv)) 8 rsdProtW = false
    else frameDepth argv ≤ 2 ^ 20

/-- Nothing outside, nothing twice, and the arguments where a program looks for them. -/
structure StackGood (base : BitVec 64) (as : As) (hasMain : Bool) (argv : List (List (BitVec 8))) (c : Cpu) : Prop where
  inside : ∀ w ∈ initWrites base argv as hasMain, ∀ x, w.covers x → inWindow base (2 ^ 20) x
  apart : WritesApart (initWrites base argv as hasMain)
  reads : if hasMain then ReadAsMain c argv else ReadAsStart c argv
  aligned : (c.r rsp).toNat % 16 = if hasMain then 8 else 0

lemma roundUp16_ge (n : Nat) : n ≤ roundUp16 n := by
  unfold roundUp16
  omega

lemma roundUp16_lt (n : Nat) : roundUp16 n < n + 16 := by
  unfold roundUp16
  omega

lemma roundUp16_mod (n : Nat) : roundUp16 n % 16 = 0 := Nat.mul_mod_left _ _

lemma roundUp16_add {n : Nat} (hn : n % 16 = 0) (k : Nat) : roundUp16 (n + k) = n + roundUp16 k := by
  unfold roundUp16
  omega

lemma copyStrings_zip (argv : List (List (BitVec 8))) (strp : BitVec 64) :
    List.Forall₂ (fun w s => w.2 = s ++ [0]) (copyStrings strp argv) argv := by
  induction argv generalizing strp with
  | nil => exact .nil
  | cons s rest ih => exact .cons rfl (ih _)

lemma copyStrings_pos {argv : List (List (BitVec 8))} {strp : BitVec 64} {w : Write}
    (h : w ∈ copyStrings strp argv) : 0 < w.2.length := by
  induction argv generalizing strp with
  | nil => cases h
  | cons s rest ih =>
    rcases List.mem_cons.mp h with rfl | hin
    · simp
    · exact ih hin

lemma length_le_stringBytes {argv : List (List (BitVec 8))} {s : List (BitVec 8)} (h : s ∈ argv) :
    s.length + 1 ≤ stringBytes argv := by
  induction argv with
  | nil => cases h
  | cons t rest ih =>
    have hsum : stringBytes (t :: rest) = t.length + 1 + stringBytes rest := by simp [stringBytes]
    rcases List.mem_cons.mp h with rfl | hin
    · omega
    · have hle := ih hin
      omega

section Room

variable {base : BitVec 64} {argv : List (List (BitVec 8))}

lemma stackTop_mod (h : StackRoom base) : (stackTop base).toNat % 16 = 0 := by
  have hal := h.aligned
  have hsize : guestStackSize.toNat = 2 ^ 20 := rfl
  unfold stackTop
  rw [BitVec.toNat_add]
  omega

lemma stackStrings_eq : stackStrings base argv = copyStrings (stackTop base - BitVec.ofNat 64 0) argv := by
  rw [stackStrings]
  exact congrArg (copyStrings · argv) (BitVec.sub_zero _).symm

lemma stackStrings_descends : Descends (stackTop base) 0 (stackStrings base argv) (stringBytes argv) := by
  have hdesc := @copyStrings_descends (stackTop base) argv 0
  rw [← stackStrings_eq, Nat.zero_add] at hdesc
  exact hdesc

lemma stackStrings_length : (stackStrings base argv).length = argv.length :=
  (copyStrings_zip argv _).length_eq

lemma lowest_eq : lowestString (stackTop base) (stackStrings base argv) =
    stackTop base - BitVec.ofNat 64 (stringBytes argv) := by
  have hlow := @lowestString_copy (stackTop base) argv 0
  rw [← stackStrings_eq, Nat.zero_add] at hlow
  simpa using hlow

lemma mul_eight (n : Nat) : BitVec.ofNat 64 n * 8 = BitVec.ofNat 64 (8 * n) := by
  rw [Nat.mul_comm, BitVec.ofNat_mul]
  rfl

lemma stackVector_eq (h : StackRoom base) (hs : stringBytes argv ≤ 2 ^ 20) (hargc : argv.length ≤ 60) :
    stackVector base argv = stackTop base - BitVec.ofNat 64 (vectorDepth argv) := by
  have htop := stackTop_mod h
  have hlt := roundUp16_lt (stringBytes argv)
  unfold stackVector vectorAt
  rw [lowest_eq, align16_below htop (by omega), mul_eight, sub_ofNat_sub, align16_below htop (by omega),
    roundUp16_add (roundUp16_mod _)]
  rfl

lemma vectorDepth_mod (argv : List (List (BitVec 8))) : vectorDepth argv % 16 = 0 := by
  have h := roundUp16_mod (stringBytes argv)
  have h' := roundUp16_mod (8 * (argv.length + 3))
  unfold vectorDepth
  omega

lemma vectorDepth_lt (hs : stringBytes argv ≤ 2 ^ 20) (hargc : argv.length ≤ 60) : vectorDepth argv < 2 ^ 21 := by
  have h := roundUp16_lt (stringBytes argv)
  have h' := roundUp16_lt (8 * (argv.length + 3))
  unfold vectorDepth
  omega

lemma framed_eq (h : StackRoom base) (hs : stringBytes argv ≤ 2 ^ 20) (hargc : argv.length ≤ 60) :
    align16 (stackVector base argv - 4096) = stackTop base - BitVec.ofNat 64 (vectorDepth argv + 4096) := by
  have hlt := vectorDepth_lt hs hargc
  have h4096 : (4096 : BitVec 64) = BitVec.ofNat 64 4096 := rfl
  have hmod : (vectorDepth argv + 4096) % 16 = 0 := by
    have := vectorDepth_mod argv
    omega
  rw [stackVector_eq h hs hargc, h4096, sub_ofNat_sub, align16_below (stackTop_mod h) (by omega)]
  congr 2
  exact roundUp16_add hmod 0

lemma stackPointer_main (h : StackRoom base) (hs : stringBytes argv ≤ 2 ^ 20) (hargc : argv.length ≤ 60) :
    stackPointer base argv true = stackTop base - BitVec.ofNat 64 (returnDepth argv) := by
  have h8 : (8 : BitVec 64) = BitVec.ofNat 64 8 := rfl
  unfold stackPointer
  rw [if_pos rfl, framed_eq h hs hargc, h8, sub_ofNat_sub]
  rfl

lemma stackPointer_start (h : StackRoom base) (hs : stringBytes argv ≤ 2 ^ 20) (hargc : argv.length ≤ 60) :
    stackPointer base argv false = stackTop base - BitVec.ofNat 64 (frameDepth argv) := by
  have hlt := vectorDepth_lt hs hargc
  have hmod : (vectorDepth argv + 4096) % 16 = 0 := by
    have := vectorDepth_mod argv
    omega
  unfold stackPointer frameAt
  rw [if_neg (by decide), framed_eq h hs hargc, mul_eight, sub_ofNat_sub, align16_below (stackTop_mod h) (by omega),
    roundUp16_add hmod]
  rfl

/-- What starts under the stack is not in it. -/
lemma start_outside {k : Nat} (hk : 2 ^ 20 < k) (hk' : k < 2 ^ 63) :
    ¬ inWindow base (2 ^ 20) (stackTop base - BitVec.ofNat 64 k) := by
  have hsize : guestStackSize.toNat = 2 ^ 20 := rfl
  unfold inWindow stackTop
  bv_omega

lemma distance_inside {x : BitVec 64} (h0 : 0 < (stackTop base - x).toNat) (h1 : (stackTop base - x).toNat ≤ 2 ^ 20) :
    inWindow base (2 ^ 20) x := by
  have hsize : guestStackSize.toNat = 2 ^ 20 := rfl
  unfold stackTop at h0 h1
  unfold inWindow
  bv_omega

lemma covers_start (a : BitVec 64) {bs : List (BitVec 8)} (h : 0 < bs.length) : Write.covers (a, bs) a := by
  unfold Write.covers inWindow
  simpa using h

/-! ### Where everything lies -/

/-- The strings and the vector, each under the other. -/
lemma vector_descends (h : StackRoom base) (hs : stringBytes argv ≤ 2 ^ 20) (hargc : argv.length ≤ 60) :
    Descends (stackTop base) 0 (stackStrings base argv ++ [vectorWrite base argv]) (vectorDepth argv) := by
  apply stackStrings_descends.append
  apply Descends.cons (stackVector_eq h hs hargc)
  · have hstr := roundUp16_ge (stringBytes argv)
    have hvec := roundUp16_ge (8 * (argv.length + 3))
    rw [vectorWrite, wordsBytes_length, List.length_append, List.length_map, stackStrings_length, vectorDepth]
    simp only [List.length_cons, List.length_nil]
    omega
  · exact .nil (Nat.le_refl _)

lemma init_descends {as : As} {hasMain : Bool} (h : StackRoom base) (hargc : argv.length ≤ 60)
    (hfits : StackFits base as hasMain argv) :
    ∃ e ≤ 2 ^ 20, Descends (stackTop base) 0 (initWrites base argv as hasMain) e := by
  obtain ⟨hvec, hlast⟩ := hfits
  have hs : stringBytes argv ≤ 2 ^ 20 := by
    have := roundUp16_ge (stringBytes argv)
    unfold vectorDepth at hvec
    omega
  have hdesc := vector_descends h hs hargc
  unfold initWrites
  cases hasMain with
  | false =>
    simp only [Bool.false_eq_true, if_false] at hlast ⊢
    refine ⟨frameDepth argv, hlast, hdesc.append (.cons (stackPointer_start h hs hargc) ?_ (.nil (Nat.le_refl _)))⟩
    have hframe := roundUp16_ge (8 * (argv.length + 4))
    rw [frameWrite, wordsBytes_length, List.length_append, List.length_append, List.length_map, stackStrings_length,
      frameDepth]
    simp only [List.length_cons, List.length_nil]
    omega
  | true =>
    simp only [if_true] at hlast ⊢
    rw [stackPointer_main h hs hargc]
    cases hok : accessOk as (stackTop base - BitVec.ofNat 64 (returnDepth argv)) 8 rsdProtW with
    | false =>
      refine ⟨vectorDepth argv, hvec, ?_⟩
      rw [if_neg (by decide), List.append_nil]
      exact hdesc
    | true =>
      have hdepth : returnDepth argv ≤ 2 ^ 20 := by
        rcases hlast with hle | hno
        · exact hle
        · rw [stackTop, hno] at hok
          cases hok
      refine ⟨returnDepth argv, hdepth, ?_⟩
      rw [if_pos rfl]
      refine hdesc.append (.cons rfl ?_ (.nil (Nat.le_refl _)))
      unfold returnDepth
      simp

/-- A write that starts under the stack is not inside. -/
lemma fits_of_inside {as : As} {hasMain : Bool} (h : StackRoom base) (hargc : argv.length ≤ 60)
    (hin : ∀ w ∈ initWrites base argv as hasMain, ∀ x, w.covers x → inWindow base (2 ^ 20) x) :
    StackFits base as hasMain argv := by
  have hstrings : ∀ w ∈ stackStrings base argv, ∀ x, w.covers x → inWindow base (2 ^ 20) x := fun w hw =>
    hin w (List.mem_append_left _ (List.mem_append_left _ hw))
  have hs : stringBytes argv ≤ 2 ^ 20 := by
    by_contra hover
    rw [stackStrings_eq] at hstrings
    obtain ⟨w, hw, hcov⟩ := @copyStrings_outside (stackTop base) argv 0 (Nat.zero_le _) (by omega)
    have hbelow := hstrings w hw _ hcov
    unfold inWindow stackTop at hbelow
    have hsize : guestStackSize.toNat = 2 ^ 20 := rfl
    bv_omega
  have hlt := vectorDepth_lt hs hargc
  have hvec : vectorDepth argv ≤ 2 ^ 20 := by
    by_contra hover
    have hcov : (vectorWrite base argv).covers (stackVector base argv) := by
      apply covers_start
      rw [wordsBytes_length]
      simp
    have hbelow := hin _ (List.mem_append_left _ (List.mem_append_right _ List.mem_cons_self)) _ hcov
    rw [stackVector_eq h hs hargc] at hbelow
    exact start_outside (by omega) (by omega) hbelow
  refine ⟨hvec, ?_⟩
  cases hasMain with
  | false =>
    rw [if_neg (by decide)]
    by_contra hover
    have hframe := roundUp16_lt (8 * (argv.length + 4))
    have hcov : (frameWrite base argv).covers (stackPointer base argv false) := by
      apply covers_start
      rw [wordsBytes_length]
      simp
    have hbelow := hin _ (List.mem_append_right _ List.mem_cons_self) _ hcov
    rw [stackPointer_start h hs hargc] at hbelow
    refine start_outside (by omega) ?_ hbelow
    unfold frameDepth
    omega
  | true =>
    rw [if_pos rfl]
    by_contra hno
    rw [not_or, Bool.not_eq_false] at hno
    obtain ⟨hover, hok⟩ := hno
    change accessOk as (stackTop base - _) 8 rsdProtW = true at hok
    have hmem : (stackPointer base argv true, wordBytes returnMagic) ∈ initWrites base argv as true := by
      apply List.mem_append_right
      rw [if_pos rfl, stackPointer_main h hs hargc, if_pos hok]
      exact List.mem_cons_self
    have hbelow := hin _ hmem _ (covers_start _ (by decide))
    rw [stackPointer_main h hs hargc] at hbelow
    refine start_outside (by omega) ?_ hbelow
    unfold returnDepth
    omega

/-! ### What is read back of a stack that fits -/

section Filled

variable {as : As} {m : Mem} {entry : BitVec 64} {hasMain : Bool}

lemma below_mod (h : StackRoom base) (k : Nat) :
    (stackTop base - BitVec.ofNat 64 k).toNat % 16 = (16 - k % 16) % 16 := by
  have htop := stackTop_mod h
  rw [BitVec.toNat_sub, BitVec.toNat_ofNat]
  omega

lemma stackPointer_mod (h : StackRoom base) (hs : stringBytes argv ≤ 2 ^ 20) (hargc : argv.length ≤ 60) :
    (stackPointer base argv hasMain).toNat % 16 = if hasMain then 8 else 0 := by
  have hlt := vectorDepth_lt hs hargc
  have hmod := vectorDepth_mod argv
  cases hasMain with
  | false =>
    have hframe := roundUp16_lt (8 * (argv.length + 4))
    have hframe16 := roundUp16_mod (8 * (argv.length + 4))
    rw [stackPointer_start h hs hargc, below_mod h, if_neg (by decide), frameDepth]
    omega
  | true =>
    rw [stackPointer_main h hs hargc, below_mod h, if_pos rfl, returnDepth]
    omega

/-- The vector wherever its words lie: the strings, and the two empty vectors behind it. -/
lemma reads_vector (h : StackRoom base) (hbase : base ≠ 0) (hs : stringBytes argv ≤ 2 ^ 20)
    (htext : ∀ s ∈ argv, ∀ b ∈ s, b ≠ 0) {ws : List Write} (hap : WritesApart ws)
    (hin : ∀ w ∈ stackStrings base argv, w ∈ ws) {a : BitVec 64}
    (hwords : HoldsWords (pokeAll m ws) a ((stackStrings base argv).map (·.1) ++ [0, 0, 0])) :
    ReadsVector (pokeAll m ws) a argv ∧
      ReadsVector (pokeAll m ws) (a + BitVec.ofNat 64 (argv.length + 1) * 8) [] ∧
      ReadsVector (pokeAll m ws) (a + BitVec.ofNat 64 (argv.length + 2) * 8) [] := by
  have hne : ∀ w ∈ stackStrings base argv, w ∈ ws ∧ w.1 ≠ 0 := by
    intro w hw
    refine ⟨hin w hw, fun h0 => ?_⟩
    have hcov : w.covers w.1 := by
      exact covers_start w.1 (copyStrings_pos hw)
    have hdist := stackStrings_descends.distance (by omega) hw hcov
    have hroom := h.room
    have hsize : guestStackSize.toNat = 2 ^ 20 := rfl
    rw [h0, stackTop] at hdist
    bv_omega
  have hstr : ∀ s ∈ argv, (∀ b ∈ s, b ≠ 0) ∧ s.length + 1 < 2 ^ 64 := by
    intro s hs'
    have hle := length_le_stringBytes hs'
    exact ⟨htext s hs', by omega⟩
  have hrest := holdsWords_append hwords
  rw [List.length_map, stackStrings_length] at hrest
  have hstep : ∀ k, BitVec.ofNat 64 (argv.length + k) * 8 = BitVec.ofNat 64 argv.length * 8 + BitVec.ofNat 64 (8 * k) := by
    intro k
    rw [BitVec.ofNat_add, BitVec.add_mul, mul_eight k]
  refine ⟨readsVector_written hap (copyStrings_zip argv _) hne hstr hwords, ?_, ?_⟩
  · rw [hstep 1, ← BitVec.add_assoc]
    exact hrest.2.1
  · have h16 : a + (BitVec.ofNat 64 argv.length * 8 + BitVec.ofNat 64 (8 * 2)) =
        a + BitVec.ofNat 64 argv.length * 8 + 8 + 8 := by
      rw [BitVec.add_assoc, BitVec.add_assoc]
      rfl
    rw [hstep 2, h16]
    exact hrest.2.2.1

lemma good_of_fits (h : StackRoom base) (hbase : base ≠ 0) (hargc : argv.length ≤ 60) (htext : ∀ s ∈ argv, ∀ b ∈ s, b ≠ 0)
    (hfits : StackFits base as hasMain argv) :
    StackGood base as hasMain argv (fillStack base as m entry hasMain argv) := by
  obtain ⟨e, he, hdesc⟩ := init_descends h hargc hfits
  have hs : stringBytes argv ≤ 2 ^ 20 := by
    have hvec := hfits.1
    have := roundUp16_ge (stringBytes argv)
    unfold vectorDepth at hvec
    omega
  have hap : WritesApart (initWrites base argv as hasMain) := hdesc.apart (by omega)
  have hin : ∀ w ∈ stackStrings base argv, w ∈ initWrites base argv as hasMain := fun w hw =>
    List.mem_append_left _ (List.mem_append_left _ hw)
  have hvec : HoldsWords (pokeAll m (initWrites base argv as hasMain)) (stackVector base argv)
      ((stackStrings base argv).map (·.1) ++ [0, 0, 0]) := by
    apply holdsWords_written hap
    · exact List.mem_append_left _ (List.mem_append_right _ List.mem_cons_self)
    · simp [stackStrings_length]
      omega
  refine ⟨fun w hw x hx => ?_, hap, ?_, ?_⟩
  · have hdist := hdesc.distance (by omega) hw hx
    exact distance_inside hdist.1 (by omega)
  · cases hasMain with
    | false =>
      rw [if_neg (by decide)]
      obtain ⟨hmem, hrsp⟩ := @fillStack_start base as m entry argv
      have hframe : HoldsWords (pokeAll m (initWrites base argv as false)) (stackPointer base argv false)
          ([BitVec.ofNat 64 argv.length] ++ (stackStrings base argv).map (·.1) ++ [0, 0, 0]) := by
        apply holdsWords_written hap
        · exact List.mem_append_right _ List.mem_cons_self
        · simp [stackStrings_length]
          omega
      obtain ⟨hargv, henvp, happle⟩ := reads_vector h hbase hs htext hap hin hframe.2
      rw [← hmem, ← hrsp] at hargv henvp happle
      refine ⟨?_, hargv, henvp, happle⟩
      rw [hmem, hrsp]
      exact hframe.1
    | true =>
      rw [if_pos rfl]
      obtain ⟨hmem, -, hregs⟩ := @fillStack_main base as m entry argv
      obtain ⟨hargv, henvp, happle⟩ := reads_vector h hbase hs htext hap hin hvec
      rw [← hmem] at hargv henvp happle
      refine ⟨hregs.count, ?_, ?_, ?_⟩
      · rw [hregs.strings]
        exact hargv
      · rw [hregs.envp]
        exact henvp
      · rw [hregs.apple]
        exact happle
  · have hrsp : (fillStack base as m entry hasMain argv).r rsp = stackPointer base argv hasMain := by
      cases hasMain with
      | false => exact fillStack_start.2
      | true => exact fillStack_main.2.1
    rw [hrsp]
    exact stackPointer_mod h hs hargc

end Filled

end Room

/-- The first state of a guest: what was written is the list of writes, and the stack is as a program
expects it exactly if everything fits. -/
theorem initial_stack {h : Host} {as : As} {m : Mem} {entry : BitVec 64} {hasMain : Bool}
    {argv : List (List (BitVec 8))} {c : Cpu} (hinit : rsdCpuInit h as m entry hasMain argv = some c)
    (hargc : argv.length ≤ 60) (htext : ∀ s ∈ argv, ∀ b ∈ s, b ≠ 0) (hroom : StackRoom (mapStack h as).1) :
    c.mem = pokeAll ((mapStack h as).2.2.foldl zeroFill m)
        (initWrites (mapStack h as).1 argv (mapStack h as).2.1 hasMain) ∧
      (StackGood (mapStack h as).1 (mapStack h as).2.1 hasMain argv c ↔
        StackFits (mapStack h as).1 (mapStack h as).2.1 hasMain argv) := by
  rw [rsdCpuInit, List.take_of_length_le hargc] at hinit
  generalize mapStack h as = r at hinit hroom ⊢
  obtain ⟨base, as', evs⟩ := r
  by_cases hbase : base = 0
  · simp [hbase] at hinit
  · simp only [hbase, if_false] at hinit
    obtain rfl := Option.some.inj hinit
    constructor
    · cases hasMain with
      | false => exact fillStack_start.1
      | true => exact fillStack_main.1
    · exact ⟨fun hgood => fits_of_inside hroom hargc hgood.inside, good_of_fits hroom hbase hargc htext⟩

/-- A kernel that maps the stack at 1 MiB. -/
def stackHost : Host := ⟨0x4000, fun _ _ _ => some 0x100000, fun _ => none, fun _ _ => true, true⟩

/-- One argument of 1020 KiB: the vector still fits, the return address does not. -/
def longArgument : List (BitVec 8) := List.replicate 0xFF000 0x61

theorem long_argument_leaves_stack :
    ∃ c, rsdCpuInit stackHost rsdAsInit (fun _ => 0) 0x1000 true [longArgument] = some c ∧
      ¬ StackGood (mapStack stackHost rsdAsInit).1 (mapStack stackHost rsdAsInit).2.1 true [longArgument] c := by
  refine ⟨_, rfl, fun hgood => ?_⟩
  have hroom : StackRoom (mapStack stackHost rsdAsInit).1 := ⟨by decide, by decide⟩
  have hcount : [longArgument].length ≤ 60 := Nat.le_add_left 1 59
  obtain ⟨-, hlast⟩ := fits_of_inside hroom hcount hgood.inside
  have hlen : longArgument.length = 0xFF000 := List.length_replicate
  have hbytes : stringBytes [longArgument] = 0xFF001 := by
    simp only [stringBytes, List.map_cons, List.map_nil, List.sum_cons, List.sum_nil, hlen, Nat.reduceAdd]
  have hdepth : returnDepth [longArgument] = 0x100038 := by
    rw [returnDepth, vectorDepth, hbytes]
    rfl
  rw [if_pos rfl, hdepth] at hlast
  rcases hlast with hle | hno
  · omega
  · revert hno
    decide

theorem initial_stack_short :
    ∃ c, rsdCpuInit stackHost rsdAsInit (fun _ => 0) 0x1000 true [[0x61, 0x62], []] = some c ∧
      StackGood (mapStack stackHost rsdAsInit).1 (mapStack stackHost rsdAsInit).2.1 true [[0x61, 0x62], []] c := by
  have hroom : StackRoom (mapStack stackHost rsdAsInit).1 := ⟨by decide, by decide⟩
  have hfits : StackFits (mapStack stackHost rsdAsInit).1 (mapStack stackHost rsdAsInit).2.1 true
      [[0x61, 0x62], []] := ⟨by decide, .inl (by decide)⟩
  exact ⟨_, rfl, (initial_stack rfl (by decide) (by decide) hroom).2.mpr hfits⟩

end Rashid.Proofs
