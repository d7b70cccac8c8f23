import Mathlib.Data.List.Nodup
import Mathlib.Tactic.Common

/-!
# Interning

A table of limited size gives every value that it is asked about a number of its own, and the same
number whenever it is asked again. Values are never taken out, so that a number keeps its meaning.
-/

namespace Rashid

structure Interned (cap : Nat) (α : Type) where
  entries : List α
  nodup : entries.Nodup
  small : entries.length ≤ cap

namespace Interned

variable {cap : Nat} {α : Type}

def empty : Interned cap α := ⟨[], List.nodup_nil, Nat.zero_le _⟩

/-- The number `i` has been given to `x`. -/
def Holds (t : Interned cap α) (i : Nat) (x : α) : Prop := t.entries[i]? = some x

/-- Everything that one table holds the other does. -/
def Kept (t u : Interned cap α) : Prop := t.entries <+: u.entries

variable {t : Interned cap α} {x : α}

lemma Kept.holds {u : Interned cap α} {i : Nat} (h : t.Kept u) (hi : t.Holds i x) : u.Holds i x := by
  obtain ⟨rest, hrest⟩ := h
  unfold Holds at hi ⊢
  rw [← hrest]
  exact List.getElem?_append_left (List.getElem?_eq_some_iff.mp hi).1 ▸ hi

lemma Holds.lt {i : Nat} (h : t.Holds i x) : i < cap :=
  Nat.lt_of_lt_of_le (List.getElem?_eq_some_iff.mp h).1 t.small

/-- A number has one meaning. -/
lemma Holds.unique {i : Nat} {y : α} (h : t.Holds i x) (h' : t.Holds i y) : x = y := Option.some.inj (h.symm.trans h')

variable [DecidableEq α] (t : Interned cap α) (x : α)

/-- The number of `x`, a new one if need be, and the table with it. -/
def intern : Option Nat × Interned cap α :=
  if x ∈ t.entries then (some (t.entries.idxOf x), t)
  else if h : x ∉ t.entries ∧ t.entries.length < cap then
    (some t.entries.length,
      ⟨t.entries ++ [x], List.nodup_append.mpr ⟨t.nodup, List.nodup_singleton x, by
        rintro a ha b hb rfl
        rw [List.mem_singleton] at hb
        exact h.1 (hb ▸ ha)⟩, by
        rw [List.length_append]
        exact h.2⟩)
  else (none, t)

def internAll (xs : List α) : Interned cap α := xs.foldl (fun t x => (t.intern x).2) t

variable {t x}

lemma intern_known (h : x ∈ t.entries) : t.intern x = (some (t.entries.idxOf x), t) := if_pos h

lemma intern_full (h : x ∉ t.entries) (hfull : ¬ t.entries.length < cap) : t.intern x = (none, t) := by
  unfold intern
  rw [if_neg h, dif_neg fun h' => hfull h'.2]

lemma intern_new (h : x ∉ t.entries) (hroom : t.entries.length < cap) :
    (t.intern x).1 = some t.entries.length ∧ (t.intern x).2.entries = t.entries ++ [x] := by
  unfold intern
  rw [if_neg h, dif_pos ⟨h, hroom⟩]
  exact ⟨rfl, rfl⟩

/-- The three cases of a request. -/
lemma intern_cases (t : Interned cap α) (x : α) : (x ∈ t.entries ∧ t.intern x = (some (t.entries.idxOf x), t)) ∨
    (x ∉ t.entries ∧ t.entries.length < cap ∧ (t.intern x).1 = some t.entries.length ∧
      (t.intern x).2.entries = t.entries ++ [x]) ∨
    (x ∉ t.entries ∧ t.entries.length = cap ∧ t.intern x = (none, t)) := by
  by_cases h : x ∈ t.entries
  · exact .inl ⟨h, intern_known h⟩
  · right
    by_cases hroom : t.entries.length < cap
    · exact .inl ⟨h, hroom, intern_new h hroom⟩
    · exact .inr ⟨h, Nat.le_antisymm t.small (Nat.not_lt.mp hroom), intern_full h hroom⟩

lemma intern_kept (t : Interned cap α) (x : α) : t.Kept (t.intern x).2 := by
  unfold Kept
  rcases intern_cases t x with ⟨-, h⟩ | ⟨-, -, -, h⟩ | ⟨-, -, h⟩
  · simp only [h, List.prefix_refl]
  · simp only [h, List.prefix_append]
  · simp only [h, List.prefix_refl]

lemma internAll_kept (t : Interned cap α) (xs : List α) : t.Kept (t.internAll xs) := by
  induction xs generalizing t with
  | nil => exact List.prefix_refl _
  | cons x xs ih => exact (intern_kept t x).trans (ih (t.intern x).2)

/-- The number that is given is the value's. -/
lemma intern_holds {i : Nat} (h : (t.intern x).1 = some i) : (t.intern x).2.Holds i x := by
  unfold Holds
  rcases intern_cases t x with ⟨hx, heq⟩ | ⟨-, -, hi, heq⟩ | ⟨-, -, heq⟩
  · rw [heq] at h ⊢
    cases h
    exact List.getElem?_eq_some_iff.mpr ⟨List.idxOf_lt_length_of_mem hx, List.getElem_idxOf _⟩
  · rw [hi] at h
    cases h
    rw [heq, List.getElem?_append_right (Nat.le_refl _), Nat.sub_self]
    rfl
  · rw [heq] at h
    cases h

/-- Whoever asks again gets the same number. -/
lemma Holds.intern_eq {i : Nat} (h : t.Holds i x) : t.intern x = (some i, t) := by
  obtain ⟨hi, hx⟩ := List.getElem?_eq_some_iff.mp h
  have hmem : x ∈ t.entries := hx ▸ List.getElem_mem hi
  rw [intern_known hmem]
  subst hx
  rw [t.nodup.idxOf_getElem]

lemma intern_none : (t.intern x).1 = none ↔ x ∉ t.entries ∧ t.entries.length = cap := by
  rcases intern_cases t x with ⟨hx, heq⟩ | ⟨hx, hroom, hi, -⟩ | ⟨hx, hfull, heq⟩
  · rw [heq]
    exact iff_of_false nofun fun h => h.1 hx
  · rw [hi]
    exact iff_of_false nofun fun h => Nat.ne_of_lt hroom h.2
  · rw [heq]
    exact iff_of_true rfl ⟨hx, hfull⟩

/-- A full table stays as it is. -/
lemma internAll_full (h : t.entries.length = cap) (xs : List α) : t.internAll xs = t := by
  induction xs with
  | nil => rfl
  | cons x xs ih =>
    have hsame : (t.intern x).2 = t := by
      rcases intern_cases t x with ⟨-, heq⟩ | ⟨-, hroom, -⟩ | ⟨-, -, heq⟩
      · rw [heq]
      · exact absurd h (Nat.ne_of_lt hroom)
      · rw [heq]
    show (t.intern x).2.internAll xs = t
    rw [hsame, ih]

end Interned

end Rashid
