import Mathlib.Data.Nat.Digits.Lemmas

/-!
# Carry chains

Numbers as lists of digits in a base, the lowest digit first, added digit by digit. A chain
carries from each digit into the next, so that the digits written and the last carry together
are the sum. Read backwards, the same chain is a subtraction with borrows.
-/

namespace Rashid

/-- `AddChain B c as bs rs c'`: with `c` carried in, the digits of `as` and `bs` add up to those
of `rs` and `c'` is carried out. -/
inductive AddChain (B : Nat) : Nat → List Nat → List Nat → List Nat → Nat → Prop
  | nil (c : Nat) : AddChain B c [] [] [] c
  | cons {a b r c c' c'' : Nat} {as bs rs : List Nat} (h : r + B * c' = a + b + c)
      (t : AddChain B c' as bs rs c'') : AddChain B c (a :: as) (b :: bs) (r :: rs) c''

namespace AddChain

variable {B c c' : Nat} {as bs rs : List Nat}

/-- The numbers of a chain add up. -/
theorem value (h : AddChain B c as bs rs c') :
    Nat.ofDigits B rs + B ^ rs.length * c' = Nat.ofDigits B as + Nat.ofDigits B bs + c := by
  induction h with
  | nil c => simp
  | @cons a b r c c1 c2 as bs rs h _ ih =>
    simp only [Nat.ofDigits_cons, List.length_cons]
    calc r + B * Nat.ofDigits B rs + B ^ (rs.length + 1) * c2
        = r + B * (Nat.ofDigits B rs + B ^ rs.length * c2) := by ring
      _ = (r + B * c1) + B * (Nat.ofDigits B as + Nat.ofDigits B bs) := by rw [ih]; ring
      _ = a + B * Nat.ofDigits B as + (b + B * Nat.ofDigits B bs) + c := by rw [h]; ring

lemma length_left (h : AddChain B c as bs rs c') : as.length = rs.length := by
  induction h with
  | nil => rfl
  | cons _ _ ih => simp only [List.length_cons, ih]

/-- Where every digit written is one, they are the sum modulo the power, and the carry is the
rest of it. -/
theorem sum (h : AddChain B c as bs rs c') (hB : 1 < B) (hr : ∀ r ∈ rs, r < B) :
    Nat.ofDigits B rs = (Nat.ofDigits B as + Nat.ofDigits B bs + c) % B ^ as.length ∧
      c' = (Nat.ofDigits B as + Nat.ofDigits B bs + c) / B ^ as.length := by
  have hlt : Nat.ofDigits B rs < B ^ rs.length := Nat.ofDigits_lt_base_pow_length hB hr
  rw [← h.value, h.length_left]
  refine ⟨?_, ?_⟩
  · rw [Nat.add_mul_mod_self_left, Nat.mod_eq_of_lt hlt]
  · rw [Nat.add_mul_div_left _ _ (Nat.pow_pos (by omega)), Nat.div_eq_of_lt hlt, Nat.zero_add]

/-- Read backwards: `rs` is what is left of `as` when `bs` is taken away, modulo the power. -/
theorem difference (h : AddChain B c rs bs as c') (hB : 1 < B) (hr : ∀ r ∈ rs, r < B) :
    ((Nat.ofDigits B rs : ℕ) : ℤ) =
      ((Nat.ofDigits B as : ℕ) - (Nat.ofDigits B bs : ℕ) - c : ℤ) % ((B ^ as.length : ℕ) : ℤ) := by
  have hlt : Nat.ofDigits B rs < B ^ as.length := h.length_left ▸ Nat.ofDigits_lt_base_pow_length hB hr
  have hv := h.value
  generalize Nat.ofDigits B rs = r, Nat.ofDigits B as = a, Nat.ofDigits B bs = b, B ^ as.length = m at *
  have heq : (a : ℤ) - b - c = r + m * (-(c' : ℤ)) := by
    have : (a : ℤ) + m * c' = r + b + c := by exact_mod_cast hv
    linarith
  rw [heq, Int.add_mul_emod_self_left, Int.emod_eq_of_lt (by omega) (by omega)]

/-- A borrow is left exactly if more was taken away than there was. -/
theorem borrow (h : AddChain B c rs bs as c') (hB : 1 < B) (hr : ∀ r ∈ rs, r < B) :
    0 < c' ↔ Nat.ofDigits B as < Nat.ofDigits B bs + c := by
  have hlt : Nat.ofDigits B rs < B ^ as.length := h.length_left ▸ Nat.ofDigits_lt_base_pow_length hB hr
  have hv := h.value
  constructor
  · intro hc
    have : B ^ as.length ≤ B ^ as.length * c' := Nat.le_mul_of_pos_right _ hc
    omega
  · intro hl
    rcases Nat.eq_zero_or_pos c' with h0 | hpos
    · rw [h0, Nat.mul_zero] at hv
      omega
    · exact hpos

end AddChain

end Rashid
