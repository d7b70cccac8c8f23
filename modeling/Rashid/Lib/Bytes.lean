import Mathlib.Tactic.Common

/-!
# Byte memory

Little-endian loads and stores of up to eight bytes in a memory of bytes addressed by
64-bit words, and the copying of a window of bytes out of it and back.
-/

namespace Rashid

abbrev Mem := BitVec 64 → BitVec 8

/-- Whether `x` is one of the `n` bytes from `a`. -/
def inWindow (a : BitVec 64) (n : Nat) (x : BitVec 64) : Prop := (x - a).toNat < n

instance (a : BitVec 64) (n : Nat) (x : BitVec 64) : Decidable (inWindow a n x) :=
  inferInstanceAs (Decidable ((x - a).toNat < n))

def loadLE (m : Mem) (a : BitVec 64) : Nat → BitVec 64
  | 0 => 0
  | n + 1 => (loadLE m (a + 1) n <<< 8) ||| (m a).setWidth 64

def storeLE (m : Mem) (a v : BitVec 64) (n : Nat) : Mem :=
  fun x => if inWindow a n x then (v >>> (8 * (x - a).toNat)).setWidth 8 else m x

def peek (m : Mem) (a : BitVec 64) (n : Nat) : List (BitVec 8) :=
  (List.range n).map fun i => m (a + BitVec.ofNat 64 i)

def poke (m : Mem) (a : BitVec 64) (bs : List (BitVec 8)) : Mem :=
  fun x => bs.getD (x - a).toNat (m x)

lemma storeLE_outside {m : Mem} {a v x : BitVec 64} {n : Nat} (h : ¬ inWindow a n x) :
    storeLE m a v n x = m x := by
  simp [storeLE, h]

lemma inWindow_mono {a x : BitVec 64} {n k : Nat} (hk : n ≤ k) (h : inWindow a n x) : inWindow a k x :=
  Nat.lt_of_lt_of_le h hk

/-- A bit of a load is one of the bytes loaded. -/
lemma getLsbD_loadLE (m : Mem) (a : BitVec 64) (n i : Nat) (hi : i < 64) : (loadLE m a n).getLsbD i =
    (decide (i < 8 * n) && (m (a + BitVec.ofNat 64 (i / 8))).getLsbD (i % 8)) := by
  induction n generalizing a i with
  | zero => simp [loadLE]
  | succ n ih =>
    rw [loadLE, BitVec.getLsbD_or, BitVec.getLsbD_shiftLeft, BitVec.getLsbD_setWidth, decide_eq_true hi]
    by_cases h8 : i < 8
    · rw [decide_eq_true h8, decide_eq_true (by omega), Nat.div_eq_of_lt h8, Nat.mod_eq_of_lt h8]
      simp
    · have hdiv : i / 8 = (i - 8) / 8 + 1 := by omega
      have haddr : a + BitVec.ofNat 64 (i / 8) = a + 1 + BitVec.ofNat 64 ((i - 8) / 8) := by
        rw [hdiv, BitVec.ofNat_add, BitVec.add_comm (BitVec.ofNat 64 _), BitVec.add_assoc]
        rfl
      have hmod : i % 8 = (i - 8) % 8 := by omega
      have hlt : decide (i < 8 * (n + 1)) = decide (i - 8 < 8 * n) := decide_eq_decide.mpr (by omega)
      have hno : (m a).getLsbD i = false := BitVec.getLsbD_of_ge _ _ (by omega)
      rw [decide_eq_false h8, ih (a + 1) (i - 8) (by omega), haddr, hmod, hlt, hno]
      simp

/-- What has been stored is loaded. -/
lemma loadLE_storeLE (m : Mem) (a v : BitVec 64) {n i : Nat} (hn : n ≤ 8) (hi : i < 8 * n) :
    (loadLE (storeLE m a v n) a n).getLsbD i = v.getLsbD i := by
  have hk : i / 8 < n := by omega
  have hsub : (a + BitVec.ofNat 64 (i / 8) - a).toNat = i / 8 := by
    rw [BitVec.add_comm, BitVec.add_sub_cancel, BitVec.toNat_ofNat]
    omega
  have hw : inWindow a n (a + BitVec.ofNat 64 (i / 8)) := by
    unfold inWindow
    rw [hsub]
    exact hk
  rw [getLsbD_loadLE _ _ _ _ (by omega), decide_eq_true hi, Bool.true_and, storeLE, if_pos hw, hsub,
    BitVec.getLsbD_setWidth, decide_eq_true (Nat.mod_lt i (by omega)), BitVec.getLsbD_ushiftRight, Nat.div_add_mod,
    Bool.true_and]

@[simp]
lemma loadLE_storeLE_word (m : Mem) (a v : BitVec 64) : loadLE (storeLE m a v 8) a 8 = v := by
  apply BitVec.eq_of_getLsbD_eq
  intro i hi
  exact loadLE_storeLE m a v (Nat.le_refl 8) hi

/-- Loads agree exactly if the bytes do. -/
lemma loadLE_eq_iff {m m' : Mem} {a b : BitVec 64} {n : Nat} (hn : n ≤ 8) :
    loadLE m a n = loadLE m' b n ↔ ∀ i < n, m (a + BitVec.ofNat 64 i) = m' (b + BitVec.ofNat 64 i) := by
  constructor
  · intro h i hi
    apply BitVec.eq_of_getLsbD_eq
    intro j hj
    have hbit := congrArg (fun v => v.getLsbD (8 * i + j)) h
    have hdiv : (8 * i + j) / 8 = i := by omega
    have hmod : (8 * i + j) % 8 = j := by omega
    simpa only [getLsbD_loadLE _ _ _ _ (show 8 * i + j < 64 by omega), hdiv, hmod,
      decide_eq_true (show 8 * i + j < 8 * n by omega), Bool.true_and] using hbit
  · intro h
    apply BitVec.eq_of_getLsbD_eq
    intro j hj
    rw [getLsbD_loadLE _ _ _ _ hj, getLsbD_loadLE _ _ _ _ hj]
    by_cases hlt : j < 8 * n
    · rw [h (j / 8) (by omega)]
    · rw [decide_eq_false hlt, Bool.false_and, Bool.false_and]

lemma inWindow_iff {a x : BitVec 64} {n : Nat} : inWindow a n x ↔ ∃ i < n, x = a + BitVec.ofNat 64 i := by
  constructor
  · intro h
    refine ⟨(x - a).toNat, h, ?_⟩
    rw [BitVec.ofNat_toNat, BitVec.setWidth_eq, BitVec.add_comm, BitVec.sub_add_cancel]
  · rintro ⟨i, hi, rfl⟩
    rw [inWindow, BitVec.add_comm, BitVec.add_sub_cancel, BitVec.toNat_ofNat]
    exact Nat.lt_of_le_of_lt (Nat.mod_le _ _) hi

/-- A store changes nothing exactly if what it stores is there already. -/
lemma storeLE_eq_self {m : Mem} {a v : BitVec 64} : storeLE m a v 8 = m ↔ loadLE m a 8 = v := by
  have hload : loadLE (storeLE m a v 8) a 8 = v := loadLE_storeLE_word m a v
  constructor
  · intro h
    rwa [h] at hload
  · intro h
    funext x
    by_cases hx : inWindow a 8 x
    · obtain ⟨i, hi, rfl⟩ := inWindow_iff.mp hx
      exact (loadLE_eq_iff (Nat.le_refl 8)).mp (hload.trans h.symm) i hi
    · exact storeLE_outside hx

/-- Stores to two places that have no byte in common come to the same only where both change nothing. -/
lemma storeLE_apart {m : Mem} {a b v : BitVec 64} (h : ∀ x, inWindow a 8 x → ¬ inWindow b 8 x) :
    storeLE m a v 8 = storeLE m b v 8 ↔ loadLE m a 8 = v ∧ loadLE m b 8 = v := by
  rw [← storeLE_eq_self, ← storeLE_eq_self]
  constructor
  · intro heq
    have ha : storeLE m a v 8 = m := by
      funext x
      by_cases hx : inWindow a 8 x
      · rw [heq, storeLE_outside (h x hx)]
      · exact storeLE_outside hx
    exact ⟨ha, heq ▸ ha⟩
  · rintro ⟨ha, hb⟩
    rw [ha, hb]

end Rashid
