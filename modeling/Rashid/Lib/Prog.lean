import Mathlib.Tactic.Common

/-!
# State programs built from primitives

A program over a state `σ` is a function from states to a value and a state. `Built P` is
the closure of a set of primitive programs under sequencing, so that whatever every
primitive does to the state, every program written with them does.
-/

namespace Rashid

def Prog (σ α : Type) : Type := σ → α × σ

namespace Prog

variable {σ α β : Type}

instance : Monad (Prog σ) where
  pure a := fun s => (a, s)
  bind x f := fun s => f (x s).1 (x s).2

def get (f : σ → α) : Prog σ α := fun s => (f s, s)

def modify (f : σ → σ) : Prog σ Unit := fun s => ((), f s)

@[simp] lemma pure_apply (a : α) (s : σ) : (pure a : Prog σ α) s = (a, s) := rfl

@[simp] lemma bind_apply (x : Prog σ α) (f : α → Prog σ β) (s : σ) :
    (x >>= f) s = f (x s).1 (x s).2 := rfl

lemma bind_eval {x : Prog σ α} {f : α → Prog σ β} {s s' : σ} {a : α} (h : x s = (a, s')) :
    (x >>= f) s = f a s' := by
  rw [bind_apply, h]

@[simp] lemma map_apply (f : α → β) (x : Prog σ α) (s : σ) :
    (f <$> x) s = (f (x s).1, (x s).2) := rfl

@[simp] lemma get_apply (f : σ → α) (s : σ) : get f s = (f s, s) := rfl

@[simp] lemma modify_apply (f : σ → σ) (s : σ) : modify f s = ((), f s) := rfl

@[simp] lemma ite_apply' (p : Prop) [Decidable p] (x y : Prog σ α) (s : σ) :
    (if p then x else y) s = if p then x s else y s := by
  split <;> rfl

lemma ite_bind (p : Prop) [Decidable p] (x y : Prog σ α) (f : α → Prog σ β) :
    (if p then x >>= f else y >>= f) = (if p then x else y) >>= f := by
  split <;> rfl

end Prog

/-- Programs sequenced from the primitives `P`. -/
inductive Built {σ : Type} (P : ∀ {α : Type}, Prog σ α → Prop) : ∀ {α : Type}, Prog σ α → Prop
  | pure {α : Type} (a : α) : Built P (pure a : Prog σ α)
  | prim {α : Type} {p : Prog σ α} : P p → Built P p
  | bind {α β : Type} {x : Prog σ α} {f : α → Prog σ β} :
      Built P x → (∀ a, Built P (f a)) → Built P (x >>= f)

namespace Built

variable {σ α : Type} {P : ∀ {α : Type}, Prog σ α → Prop}

lemma ite {c : Prop} [Decidable c] {x y : Prog σ α} (hx : Built P x) (hy : Built P y) :
    Built P (if c then x else y) := by
  split
  · exact hx
  · exact hy

/-- A reflexive and transitive relation kept by every primitive is kept by every program. -/
theorem rel {R : σ → σ → Prop} (hrefl : ∀ s, R s s) (htrans : ∀ s t u, R s t → R t u → R s u)
    (hprim : ∀ {α : Type} (p : Prog σ α), P p → ∀ s, R s (p s).2) {p : Prog σ α} (hp : Built P p) :
    ∀ s, R s (p s).2 := by
  induction hp with
  | pure a => exact hrefl
  | prim h => exact hprim _ h
  | bind _ _ ihx ihf =>
    intro s
    exact htrans _ _ _ (ihx s) (ihf _ _)

/-- If the primitives cannot tell related states apart, no program can. -/
theorem sim {E : σ → σ → Prop}
    (hprim : ∀ {α : Type} (p : Prog σ α), P p → ∀ s t, E s t → (p s).1 = (p t).1 ∧ E (p s).2 (p t).2)
    {p : Prog σ α} (hp : Built P p) : ∀ s t, E s t → (p s).1 = (p t).1 ∧ E (p s).2 (p t).2 := by
  induction hp with
  | pure a => exact fun s t h => ⟨rfl, h⟩
  | prim h => exact hprim _ h
  | bind _ _ ihx ihf =>
    intro s t h
    obtain ⟨heq, hE⟩ := ihx s t h
    simp only [Prog.bind_apply]
    rw [heq]
    exact ihf _ _ _ hE

end Built

/-- `Built` as a class, so that a program's proof is found from its text. -/
class IsBuilt {σ α : Type} (P : ∀ {α : Type}, Prog σ α → Prop) (p : Prog σ α) : Prop where
  built : Built P p

namespace IsBuilt

variable {σ α β : Type} {P : ∀ {α : Type}, Prog σ α → Prop}

instance (a : α) : IsBuilt P (pure a : Prog σ α) := ⟨.pure a⟩

instance (x : Prog σ α) (f : α → Prog σ β) [hx : IsBuilt P x] [hf : ∀ a, IsBuilt P (f a)] :
    IsBuilt P (x >>= f) :=
  ⟨.bind hx.built fun a => (hf a).built⟩

instance (c : Prop) [Decidable c] (x y : Prog σ α) [hx : IsBuilt P x] [hy : IsBuilt P y] :
    IsBuilt P (if c then x else y) :=
  ⟨.ite hx.built hy.built⟩

end IsBuilt

end Rashid
