import Mathlib.Data.List.Basic
import Rashid.Lib.Prog

/-!
# Programs and the events they cause

A program together with the events that it causes from each state. What events say about a
change of state is a relation that composes, so that the account of a program is put together
from those of its parts.
-/

namespace Rashid

variable {σ ε α β : Type}

/-- Events account for a change of state one after the other. -/
class Composes (R : σ → List ε → σ → Prop) : Prop where
  nil (s : σ) : R s [] s
  append {s t u : σ} {es fs : List ε} : R s es t → R t fs u → R s (es ++ fs) u

/-- The events of a program, which account for what it does to the state. -/
class Traced (R : σ → List ε → σ → Prop) (p : Prog σ α) where
  events : σ → List ε
  accounts (s : σ) : R s (events s) (p s).2

namespace Traced

variable {R : σ → List ε → σ → Prop}

/-- Nothing happens. -/
abbrev quiet {p : Prog σ α} (h : ∀ s, R s [] (p s).2) : Traced R p := ⟨fun _ => [], h⟩

instance get (f : σ → α) [Composes R] : Traced R (Prog.get f) := quiet fun s => Composes.nil s

instance pure [Composes R] (a : α) : Traced R (Pure.pure a : Prog σ α) := quiet fun s => Composes.nil s

instance bind [Composes R] (x : Prog σ α) (f : α → Prog σ β) [hx : Traced R x] [hf : ∀ a, Traced R (f a)] :
    Traced R (x >>= f) where
  events s := hx.events s ++ (hf (x s).1).events (x s).2
  accounts s := Composes.append (hx.accounts s) ((hf (x s).1).accounts (x s).2)

instance ite (c : Prop) [hc : Decidable c] (x y : Prog σ α) [hx : Traced R x] [hy : Traced R y] :
    Traced R (if c then x else y) where
  events s := if c then hx.events s else hy.events s
  accounts s := by
    by_cases h : c
    · rw [if_pos h, if_pos h]
      exact hx.accounts s
    · rw [if_neg h, if_neg h]
      exact hy.accounts s

instance dite (c : Prop) [hc : Decidable c] (x : c → Prog σ α) (y : ¬ c → Prog σ α) [hx : ∀ h, Traced R (x h)]
    [hy : ∀ h, Traced R (y h)] : Traced R (if h : c then x h else y h) where
  events s := if h : c then (hx h).events s else (hy h).events s
  accounts s := by
    by_cases h : c
    · rw [dif_pos h, dif_pos h]
      exact (hx h).accounts s
    · rw [dif_neg h, dif_neg h]
      exact (hy h).accounts s

/-- `bind` and `ite` where the parts are not found by themselves. -/
abbrev seq [Composes R] {x : Prog σ α} {f : α → Prog σ β} (hx : Traced R x) (hf : ∀ a, Traced R (f a)) :
    Traced R (x >>= f) :=
  bind x f

abbrev cond {c : Prop} [Decidable c] {x y : Prog σ α} (hx : Traced R x) (hy : Traced R y) :
    Traced R (if c then x else y) :=
  ite c x y

end Traced

end Rashid
