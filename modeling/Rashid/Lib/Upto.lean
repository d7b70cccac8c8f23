import Mathlib.Tactic.Common

/-!
# Lists of limited length

An array that is filled from the front. What does not fit is refused, and whoever fills it says what is
done then.
-/

namespace Rashid

/-- At most `n` elements. -/
structure Upto (n : Nat) (α : Type) where
  val : List α
  fits : val.length ≤ n

namespace Upto

variable {n : Nat} {α : Type}

def empty : Upto n α := ⟨[], Nat.zero_le n⟩

/-- One more element, if there is room. -/
def push? (l : Upto n α) (x : α) : Option (Upto n α) :=
  if h : l.val.length < n then some ⟨l.val ++ [x], List.length_append ▸ h⟩ else none

/-- One more element, or the same elements. -/
def push (l : Upto n α) (x : α) : Upto n α := (l.push? x).getD l

lemma push?_none {l : Upto n α} {x : α} : l.push? x = none ↔ l.val.length = n := by
  unfold push?
  split
  · next h => exact ⟨nofun, fun he => absurd he (Nat.ne_of_lt h)⟩
  · next h => exact ⟨fun _ => Nat.le_antisymm l.fits (Nat.not_lt.mp h), fun _ => rfl⟩

lemma push?_some {l l' : Upto n α} {x : α} (h : l.push? x = some l') : l'.val = l.val ++ [x] := by
  unfold push? at h
  split at h
  · obtain rfl := Option.some.inj h
    rfl
  · cases h

/-- The first `n` of all the elements are kept. -/
lemma push_val (l : Upto n α) (x : α) : (l.push x).val = (l.val ++ [x]).take n := by
  unfold push
  cases h : l.push? x with
  | none =>
    have hfull : l.val.length = n := push?_none.mp h
    rw [Option.getD_none, List.take_left' hfull]
  | some l' =>
    have hval := push?_some h
    have hroom : (l.val ++ [x]).length ≤ n := hval ▸ l'.fits
    rw [Option.getD_some, hval, List.take_of_length_le hroom]

/-- Taking more afterwards makes no difference. -/
lemma take_take_append (l l' : List α) (n : Nat) : ((l.take n) ++ l').take n = (l ++ l').take n := by
  rcases Nat.le_total l.length n with h | h
  · rw [List.take_of_length_le h]
  · rw [List.take_append_of_le_length h, List.take_append_of_le_length (Nat.le_of_eq (List.length_take_of_le h).symm),
      List.take_take, Nat.min_self]

lemma val_eq_of_take (l : Upto n α) : l.val.take n = l.val := List.take_of_length_le l.fits

end Upto

end Rashid
