import Mathlib.Tactic.Common
import Rashid.Lib.Prog

/-!
# Programs and what they spend

A relation between states graded by numbers, such that the grades add up along a sequence. What
a program spends is then put together from what its parts spend.
-/

namespace Rashid

variable {σ α β : Type}

/-- Grades add up, and may be given away. -/
class Graded (R : Nat → σ → σ → Prop) : Prop where
  refl (s : σ) : R 0 s s
  trans {m n : Nat} {s t u : σ} : R m s t → R n t u → R (m + n) s u
  mono {m n : Nat} {s t : σ} : R m s t → m ≤ n → R n s t

/-- A program that spends at most `n`, from whatever state it starts. -/
class Spends (R : Nat → σ → σ → Prop) (p : Prog σ α) (n : outParam Nat) : Prop where
  spends (s : σ) : R n s (p s).2

namespace Spends

variable {R : Nat → σ → σ → Prop} [Graded R] {m n : Nat}

instance pure (a : α) : Spends R (Pure.pure a : Prog σ α) 0 := ⟨Graded.refl⟩

instance get (f : σ → α) : Spends R (Prog.get f) 0 := ⟨Graded.refl⟩

instance bind (x : Prog σ α) (f : α → Prog σ β) [hx : Spends R x m] [hf : ∀ a, Spends R (f a) n] :
    Spends R (x >>= f) (m + n) :=
  ⟨fun s => Graded.trans (hx.spends s) ((hf (x s).1).spends (x s).2)⟩

instance ite (c : Prop) [Decidable c] (x y : Prog σ α) [hx : Spends R x m] [hy : Spends R y n] :
    Spends R (if c then x else y) (max m n) := by
  split
  · exact ⟨fun s => Graded.mono (hx.spends s) (Nat.le_max_left m n)⟩
  · exact ⟨fun s => Graded.mono (hy.spends s) (Nat.le_max_right m n)⟩

instance dite (c : Prop) [Decidable c] (x : c → Prog σ α) (y : ¬ c → Prog σ α) [hx : ∀ h, Spends R (x h) m]
    [hy : ∀ h, Spends R (y h) n] : Spends R (if h : c then x h else y h) (max m n) := by
  split
  · next h => exact ⟨fun s => Graded.mono ((hx h).spends s) (Nat.le_max_left m n)⟩
  · next h => exact ⟨fun s => Graded.mono ((hy h).spends s) (Nat.le_max_right m n)⟩

lemma le {p : Prog σ α} (h : Spends R p m) (hmn : m ≤ n) : Spends R p n :=
  ⟨fun s => Graded.mono (h.spends s) hmn⟩

/-- The continuation of a program that spends nothing may spend it all. -/
lemma free_then {x : Prog σ α} {f : α → Prog σ β} (hx : Spends R x 0) (hf : ∀ a, Spends R (f a) n) :
    Spends R (x >>= f) n := by
  have h : Spends R (x >>= f) (0 + n) := bind x f
  rwa [Nat.zero_add] at h

/-- What comes before a continuation that spends nothing may spend it all. -/
lemma then_free {x : Prog σ α} {f : α → Prog σ β} (hx : Spends R x n) (hf : ∀ a, Spends R (f a) 0) :
    Spends R (x >>= f) n := by
  have h : Spends R (x >>= f) (n + 0) := bind x f
  rwa [Nat.add_zero] at h

lemma either {c : Prop} [Decidable c] {x y : Prog σ α} (hx : Spends R x n) (hy : Spends R y n) :
    Spends R (if c then x else y) n := by
  have h : Spends R (if c then x else y) (max n n) := ite c x y
  rwa [Nat.max_self] at h

end Spends

end Rashid
