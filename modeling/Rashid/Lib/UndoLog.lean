import Mathlib.Tactic.Common

/-!
# Undo logs

A memory is a function from addresses to values. Before a write, the part of the memory that
it may touch is saved in a log; restoring the saved parts from the newest to the oldest gives
the first memory back, however the parts overlap.
-/

namespace Rashid

section UndoLog

variable {α β : Type}

/-- A part of a memory, and what it held. -/
structure Saved (α β : Type) where
  window : α → Prop
  value : α → β
  dec : DecidablePred window

namespace Saved

def restore (e : Saved α β) (m : α → β) : α → β := fun x =>
  haveI := e.dec
  if e.window x then e.value x else m x

/-- What was saved is what the memory holds. -/
def Of (e : Saved α β) (m : α → β) : Prop := ∀ x, e.window x → e.value x = m x

lemma restore_of_mem {e : Saved α β} {x : α} (h : e.window x) (m : α → β) : e.restore m x = e.value x := by
  have := e.dec
  exact if_pos h

lemma restore_of_not_mem {e : Saved α β} {x : α} (h : ¬ e.window x) (m : α → β) : e.restore m x = m x := by
  have := e.dec
  exact if_neg h

lemma Of.restore_eq {e : Saved α β} {m : α → β} (h : e.Of m) : e.restore m = m := by
  funext x
  by_cases hx : e.window x
  · rw [restore_of_mem hx, h x hx]
  · exact restore_of_not_mem hx m

end Saved

/-- Whether some entry of the log covers an address. -/
def Covered (l : List (Saved α β)) (x : α) : Prop := ∃ e ∈ l, e.window x

/-- The newest entry, which is the last, is restored first. -/
def undo (l : List (Saved α β)) (m : α → β) : α → β := l.foldr Saved.restore m

lemma undo_concat {l : List (Saved α β)} {e : Saved α β} {m : α → β} (h : e.Of m) : undo (l ++ [e]) m = undo l m := by
  rw [undo, List.foldr_append]
  show undo l (e.restore m) = undo l m
  rw [h.restore_eq]

lemma Covered.cons_iff {e : Saved α β} {l : List (Saved α β)} {x : α} :
    Covered (e :: l) x ↔ e.window x ∨ Covered l x := by
  simp only [Covered, List.mem_cons, exists_eq_or_imp]

/-- What a covered address holds does not matter. -/
lemma undo_apply_congr {l : List (Saved α β)} {m m' : α → β} {x : α} (h : ¬ Covered l x → m x = m' x) :
    undo l m x = undo l m' x := by
  induction l with
  | nil => exact h fun ⟨e, he, _⟩ => absurd he List.not_mem_nil
  | cons e l ih =>
    show e.restore (undo l m) x = e.restore (undo l m') x
    by_cases hx : e.window x
    · rw [Saved.restore_of_mem hx, Saved.restore_of_mem hx]
    · rw [Saved.restore_of_not_mem hx, Saved.restore_of_not_mem hx]
      exact ih fun hl => h fun hc => hl ((Covered.cons_iff.mp hc).resolve_left hx)

/-- A run that saves before it writes: an entry is added for what the memory holds now, or the
memory is changed where the log covers it. -/
inductive LoggedWrites : List (Saved α β) → (α → β) → List (Saved α β) → (α → β) → Prop
  | refl (l : List (Saved α β)) (m : α → β) : LoggedWrites l m l m
  | save {l l' : List (Saved α β)} {m m' : α → β} {e : Saved α β} :
      LoggedWrites l m l' m' → e.Of m' → LoggedWrites l m (l' ++ [e]) m'
  | write {l l' : List (Saved α β)} {m m' m'' : α → β} :
      LoggedWrites l m l' m' → (∀ x, ¬ Covered l' x → m'' x = m' x) → LoggedWrites l m l' m''

namespace LoggedWrites

variable {l l' : List (Saved α β)} {m m' : α → β}

/-- Undoing after a run gives what undoing before it gave. -/
theorem undo_eq (h : LoggedWrites l m l' m') : undo l' m' = undo l m := by
  induction h with
  | refl => rfl
  | save _ he ih => rw [undo_concat he, ih]
  | write _ hw ih => exact (funext fun x => undo_apply_congr (hw x)).trans ih

/-- An address that the log does not cover has not been written. -/
theorem eq_of_not_covered (h : LoggedWrites l m l' m') {x : α} (hx : ¬ Covered l' x) : m' x = m x := by
  induction h with
  | refl => rfl
  | save _ _ ih => exact ih fun ⟨e, he, hw⟩ => hx ⟨e, List.mem_append_left _ he, hw⟩
  | write _ hw ih => exact (hw x hx).trans (ih hx)

end LoggedWrites

end UndoLog

end Rashid
