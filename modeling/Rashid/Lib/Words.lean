import Rashid.Lib.Writes

/-!
# Rows of words

Words stored one after the other, and loaded one after the other.
-/

namespace Rashid

def storeWords (m : Mem) (a : BitVec 64) : List (BitVec 64) → Mem
  | [] => m
  | v :: vs => storeWords (storeLE m a v 8) (a + 8) vs

def loadWords (m : Mem) (a : BitVec 64) : Nat → List (BitVec 64)
  | 0 => []
  | n + 1 => loadLE m a 8 :: loadWords m (a + 8) n

/-- No byte of the one window is in the other. -/
def WindowsApart (a : BitVec 64) (n : Nat) (b : BitVec 64) (k : Nat) : Prop := ∀ x, inWindow a n x → ¬ inWindow b k x

section Words

variable {m m' : Mem} {a b x : BitVec 64} {n k : Nat} {vs ws : List (BitVec 64)}

lemma window_next (h : inWindow (a + 8) n x) : inWindow a (n + 8) x := by
  unfold inWindow at *
  bv_omega

lemma window_first (hn : n + 8 ≤ 2 ^ 64) (h : inWindow a 8 x) : ¬ inWindow (a + 8) n x := by
  unfold inWindow at *
  bv_omega

lemma window_after (h : inWindow (a + BitVec.ofNat 64 k) n x) : inWindow a (k + n) x := by
  unfold inWindow at *
  bv_omega

lemma window_before (hn : k + n ≤ 2 ^ 64) (h : inWindow a k x) : ¬ inWindow (a + BitVec.ofNat 64 k) n x := by
  unfold inWindow at *
  bv_omega

lemma WindowsApart.next (h : WindowsApart a (n + 8) b (k + 8)) : WindowsApart (a + 8) n (b + 8) k :=
  fun x hx hy => h x (window_next hx) (window_next hy)

lemma WindowsApart.symm (h : WindowsApart a n b k) : WindowsApart b k a n := fun x hx hy => h x hy hx

lemma WindowsApart.mono (h : WindowsApart a n b k) {l j : Nat} (hl : l ≤ n) (hj : j ≤ k) : WindowsApart a l b j :=
  fun x hx hy => h x (inWindow_mono hl hx) (inWindow_mono hj hy)

lemma loadLE_congr (h : ∀ x, inWindow a 8 x → m x = m' x) : loadLE m a 8 = loadLE m' a 8 := by
  apply (loadLE_eq_iff (Nat.le_refl 8)).mpr
  intro i hi
  exact h _ (inWindow_iff.mpr ⟨i, hi, rfl⟩)

lemma storeWords_outside (h : ¬ inWindow a (8 * vs.length) x) : storeWords m a vs x = m x := by
  induction vs generalizing m a with
  | nil => rfl
  | cons v vs ih =>
    rw [List.length_cons, Nat.mul_succ] at h
    rw [storeWords, ih fun hx => h (window_next hx)]
    exact storeLE_outside fun hx => h (inWindow_mono (Nat.le_add_left 8 _) hx)

/-- Words that have been stored are there. -/
lemma holdsWords_storeWords (hlen : 8 * vs.length ≤ 2 ^ 64) : HoldsWords (storeWords m a vs) a vs := by
  induction vs generalizing m a with
  | nil => trivial
  | cons v vs ih =>
    rw [List.length_cons, Nat.mul_succ] at hlen
    refine ⟨?_, ih (Nat.le_trans (Nat.le_add_right _ 8) hlen)⟩
    have hfirst : loadLE (storeWords (storeLE m a v 8) (a + 8) vs) a 8 = loadLE (storeLE m a v 8) a 8 := by
      apply loadLE_congr
      intro x hx
      exact storeWords_outside (window_first hlen hx)
    rw [storeWords, hfirst, loadLE_storeLE_word]

lemma HoldsWords.congr (h : HoldsWords m a vs) (hm : ∀ x, inWindow a (8 * vs.length) x → m' x = m x) :
    HoldsWords m' a vs := by
  induction vs generalizing a with
  | nil => trivial
  | cons v vs ih =>
    rw [List.length_cons, Nat.mul_succ] at hm
    refine ⟨(loadLE_congr fun x hx => hm x (inWindow_mono (Nat.le_add_left 8 _) hx)).trans h.1, ih h.2 fun x hx => ?_⟩
    exact hm x (window_next hx)

lemma HoldsWords.left (h : HoldsWords m a (vs ++ ws)) : HoldsWords m a vs := by
  induction vs generalizing a with
  | nil => trivial
  | cons v vs ih => exact ⟨h.1, ih h.2⟩

@[simp]
lemma loadWords_length (m : Mem) (a : BitVec 64) (n : Nat) : (loadWords m a n).length = n := by
  induction n generalizing a with
  | zero => rfl
  | succ n ih => rw [loadWords, List.length_cons, ih]

lemma loadWords_congr (h : ∀ x, inWindow a (8 * n) x → m x = m' x) : loadWords m a n = loadWords m' a n := by
  induction n generalizing a with
  | zero => rfl
  | succ n ih =>
    rw [Nat.mul_succ] at h
    rw [loadWords, loadWords, ih fun x hx => h x (window_next hx),
      loadLE_congr fun x hx => h x (inWindow_mono (Nat.le_add_left 8 _) hx)]

/-- What is loaded goes on with what is there. -/
lemma HoldsWords.loadWords (h : HoldsWords m a vs) (hn : vs.length ≤ n) : ∃ rest, Rashid.loadWords m a n = vs ++ rest := by
  induction vs generalizing a n with
  | nil => exact ⟨_, rfl⟩
  | cons v vs ih =>
    cases n with
    | zero => exact absurd hn (Nat.not_succ_le_zero _)
    | succ n =>
      obtain ⟨rest, hrest⟩ := ih h.2 (Nat.le_of_succ_le_succ hn)
      exact ⟨rest, by rw [Rashid.loadWords, h.1, hrest, List.cons_append]⟩

lemma HoldsWords.loadWords_eq (h : HoldsWords m a vs) (hn : vs.length = n) : Rashid.loadWords m a n = vs := by
  obtain ⟨rest, hrest⟩ := h.loadWords (Nat.le_of_eq hn)
  have hlen := congrArg List.length hrest
  rw [loadWords_length, List.length_append, hn] at hlen
  have hnil : rest = [] := List.eq_nil_of_length_eq_zero (by omega)
  rw [hrest, hnil, List.append_nil]

end Words

end Rashid
