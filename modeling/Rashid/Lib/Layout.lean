import Mathlib.Algebra.Group.Nat.Defs
import Rashid.Lib.Bytes

/-!
# Records in memory

A record is its fields one after the other, the lowest byte of a number first. What lies at an address
is read off field by field.
-/

namespace Rashid

/-- The bytes of a number, the lowest first. -/
def leBytes {w : Nat} (v : BitVec w) : List (BitVec 8) := (List.range (w / 8)).map fun i => v.extractLsb' (8 * i) 8

/-- A number of up to eight bytes. -/
def readLE (w : Nat) (m : Mem) (a : BitVec 64) : BitVec w := (loadLE m a (w / 8)).setWidth w

/-- `bs` lies at `a`. -/
def HoldsAt (m : Mem) (a : BitVec 64) (bs : List (BitVec 8)) : Prop := peek m a bs.length = bs

instance (m : Mem) (a : BitVec 64) (bs : List (BitVec 8)) : Decidable (HoldsAt m a bs) :=
  inferInstanceAs (Decidable (peek m a bs.length = bs))

section Fields

variable {m : Mem} {a : BitVec 64} {bs cs : List (BitVec 8)} {w : Nat}

@[simp]
lemma peek_length (m : Mem) (a : BitVec 64) (n : Nat) : (peek m a n).length = n := by
  simp [peek]

lemma peek_get (m : Mem) (a : BitVec 64) (n : Nat) {i : Nat} (hi : i < (peek m a n).length) :
    (peek m a n)[i] = m (a + BitVec.ofNat 64 i) := by
  simp [peek]

@[simp]
lemma leBytes_length (v : BitVec w) : (leBytes v).length = w / 8 := by
  simp [leBytes]

lemma peek_add (m : Mem) (a : BitVec 64) (n k : Nat) :
    peek m a (n + k) = peek m a n ++ peek m (a + BitVec.ofNat 64 n) k := by
  unfold peek
  rw [List.range_add, List.map_append, List.map_map]
  congr 1
  apply List.map_congr_left
  intro i _
  rw [Function.comp_apply, BitVec.ofNat_add, BitVec.add_assoc]

lemma peek_take (m : Mem) (a : BitVec 64) {n k : Nat} (h : k ≤ n) : (peek m a n).take k = peek m a k := by
  obtain ⟨d, rfl⟩ := Nat.exists_eq_add_of_le h
  rw [peek_add, List.take_left' (peek_length m a k)]

lemma HoldsAt.peek (h : HoldsAt m a bs) : Rashid.peek m a bs.length = bs := h

@[simp]
lemma holdsAt_nil (m : Mem) (a : BitVec 64) : HoldsAt m a [] := rfl

/-- The first part, and the second where the first ends. -/
lemma holdsAt_append : HoldsAt m a (bs ++ cs) ↔ HoldsAt m a bs ∧ HoldsAt m (a + BitVec.ofNat 64 bs.length) cs := by
  unfold HoldsAt
  rw [List.length_append, peek_add]
  constructor
  · intro h
    exact List.append_inj h (peek_length ..)
  · rintro ⟨hb, hc⟩
    rw [hb, hc]

lemma HoldsAt.left (h : HoldsAt m a (bs ++ cs)) : HoldsAt m a bs := (holdsAt_append.mp h).1

lemma HoldsAt.right (h : HoldsAt m a (bs ++ cs)) : HoldsAt m (a + BitVec.ofNat 64 bs.length) cs := (holdsAt_append.mp h).2

/-- Records of one length, one after the other. -/
lemma HoldsAt.get {α : Type} {f : α → List (BitVec 8)} {l : List α} {k : Nat} (h : HoldsAt m a (l.flatMap f))
    (hk : ∀ x ∈ l, (f x).length = k) {i : Nat} (hi : i < l.length) : HoldsAt m (a + BitVec.ofNat 64 (k * i)) (f l[i]) := by
  induction l generalizing a i with
  | nil => exact absurd hi (Nat.not_lt_zero i)
  | cons x rest ih =>
    rw [List.flatMap_cons] at h
    obtain ⟨hx, hrest⟩ := List.forall_mem_cons.mp hk
    cases i with
    | zero => simpa using h.left
    | succ i =>
      have hnext := ih h.right hrest (Nat.lt_of_succ_lt_succ hi)
      rw [hx, BitVec.add_assoc, ← BitVec.ofNat_add, Nat.add_comm k, ← Nat.mul_succ] at hnext
      exact hnext

/-- A number is read where its bytes lie. -/
lemma HoldsAt.read {v : BitVec w} (h : HoldsAt m a (leBytes v)) (hw : w ≤ 64) (h8 : w = 8 * (w / 8)) :
    readLE w m a = v := by
  have hbyte : ∀ i < w / 8, m (a + BitVec.ofNat 64 i) = v.extractLsb' (8 * i) 8 := by
    intro i hi
    have hlen : i < (Rashid.peek m a (leBytes v).length).length := by
      rw [peek_length, leBytes_length]
      exact hi
    rw [← peek_get m a _ hlen, List.getElem_of_eq h.peek]
    simp [leBytes]
  apply BitVec.eq_of_getLsbD_eq
  intro i hi
  have hi8 : i < 8 * (w / 8) := h8 ▸ hi
  have hmod : i % 8 < 8 := Nat.mod_lt i (by decide)
  rw [readLE, BitVec.getLsbD_setWidth, getLsbD_loadLE _ _ _ _ (Nat.lt_of_lt_of_le hi hw), hbyte (i / 8) (by omega),
    BitVec.getLsbD_extractLsb', Nat.div_add_mod, decide_eq_true hi, decide_eq_true hi8, decide_eq_true hmod]
  simp only [Bool.true_and]

/-- What has been copied somewhere lies there. -/
lemma holdsAt_poke (m : Mem) (a : BitVec 64) (hbs : bs.length ≤ 2 ^ 64) : HoldsAt (poke m a bs) a bs := by
  apply List.ext_getElem (peek_length ..)
  intro i hi hi'
  have hsub : (a + BitVec.ofNat 64 i - a).toNat = i := by
    rw [BitVec.add_comm, BitVec.add_sub_cancel, BitVec.toNat_ofNat]
    exact Nat.mod_eq_of_lt (Nat.lt_of_lt_of_le hi' hbs)
  rw [peek_get, poke, hsub]
  simp [hi']

end Fields

end Rashid
