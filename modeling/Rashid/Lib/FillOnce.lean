import Mathlib.Algebra.BigOperators.Group.Finset.Piecewise
import Mathlib.Data.Fintype.BigOperators
import Mathlib.Tactic.Common

/-!
# Tables that are filled once

The slots of a table are empty or hold something, and only empty slots are written. What a slot holds
then stays there, and the room that the table takes is what was taken slot by slot.
-/

namespace Rashid

variable {ι α : Type} [DecidableEq ι] {t u v : ι → Option α}

/-- What the slots of one table hold, those of the other hold as well. -/
def KeptIn (t u : ι → Option α) : Prop := ∀ i x, t i = some x → u i = some x

namespace KeptIn

omit [DecidableEq ι] in
lemma refl (t : ι → Option α) : KeptIn t t := fun _ _ h => h

omit [DecidableEq ι] in
lemma trans (h : KeptIn t u) (h' : KeptIn u v) : KeptIn t v := fun i x hx => h' i x (h i x hx)

lemma fill {i : ι} (hi : t i = none) (x : α) : KeptIn t (Function.update t i (some x)) := by
  intro k y hy
  by_cases hk : k = i
  · rw [hk, hi] at hy
    cases hy
  · rw [Function.update_of_ne hk]
    exact hy

end KeptIn

/-- The room that a table takes. -/
def room [Fintype ι] (size : α → Nat) (t : ι → Option α) : Nat := ∑ i, (t i).elim 0 size

omit [DecidableEq ι] in
lemma room_empty [Fintype ι] (size : α → Nat) : room size (fun _ : ι => none) = 0 := Finset.sum_const_zero

lemma room_fill [Fintype ι] (size : α → Nat) {i : ι} (hi : t i = none) (x : α) :
    room size (Function.update t i (some x)) = room size t + size x := by
  have hpush : (fun k => (Function.update t i (some x) k).elim 0 size) =
      Function.update (fun k => (t k).elim 0 size) i (size x) := by
    funext k
    by_cases hk : k = i
    · rw [hk, Function.update_self, Function.update_self]
      rfl
    · rw [Function.update_of_ne hk, Function.update_of_ne hk]
  have hsplit := Finset.sum_update_of_mem (Finset.mem_univ i) (fun k => (t k).elim 0 size) (size x)
  have hrest := Finset.sum_update_of_mem (Finset.mem_univ i) (fun k => (t k).elim 0 size) ((t i).elim 0 size)
  rw [Function.update_eq_self, hi, Option.elim_none, Nat.zero_add] at hrest
  unfold room
  rw [hpush, hsplit, hrest, Nat.add_comm]

end Rashid
