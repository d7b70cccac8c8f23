import Mathlib.Logic.Function.Iterate
import Mathlib.Tactic.Common

/-!
# Runs of deterministic machines

Two machines and a relation between their states. One machine may take steps that the other does not
see; what the relation says of single steps it then says of whole runs. And a machine with a measure
that every step makes smaller comes to its end.
-/

namespace Rashid

variable {σ τ : Type} {f : σ → σ} {g : τ → τ} {R : σ → τ → Prop} {s : σ} {t : τ}

/-- Every step of `f` is a step of `g`, or one that `g` does not see. -/
def Follows (f : σ → σ) (g : τ → τ) (R : σ → τ → Prop) : Prop := ∀ s t, R s t → R (f s) t ∨ R (f s) (g t)

/-- Every step of `g` is made by `f` in at most `b` steps. -/
def CatchesUp (b : Nat) (f : σ → σ) (g : τ → τ) (R : σ → τ → Prop) : Prop := ∀ s t, R s t → ∃ k ≤ b, R (f^[k] s) (g t)

lemma Follows.run (h : Follows f g R) (hst : R s t) (n : Nat) : ∃ m ≤ n, R (f^[n] s) (g^[m] t) := by
  induction n with
  | zero => exact ⟨0, Nat.le_refl 0, hst⟩
  | succ n ih =>
    obtain ⟨m, hm, hR⟩ := ih
    rw [Function.iterate_succ_apply']
    rcases h _ _ hR with hstay | hstep
    · exact ⟨m, Nat.le_succ_of_le hm, hstay⟩
    · refine ⟨m + 1, Nat.succ_le_succ hm, ?_⟩
      rw [Function.iterate_succ_apply']
      exact hstep

/-- A machine whose steps that the other does not see are bounded by a measure. -/
lemma CatchesUp.of_lag (lag : σ → Nat)
    (h : ∀ s t, R s t → R (f s) (g t) ∨ R (f s) t ∧ lag (f s) < lag s ∨ R s (g t)) (hst : R s t) :
    ∃ k ≤ lag s + 1, R (f^[k] s) (g t) := by
  induction hl : lag s using Nat.strongRecOn generalizing s with
  | ind l ih =>
    rcases h s t hst with hboth | ⟨hone, hlag⟩ | hother
    · exact ⟨1, Nat.le_add_left 1 l, hboth⟩
    · rw [hl] at hlag
      obtain ⟨k, hk, hR⟩ := ih (lag (f s)) hlag hone rfl
      exact ⟨k + 1, Nat.succ_le_succ (Nat.le_trans hk hlag), hR⟩
    · exact ⟨0, Nat.zero_le _, hother⟩

lemma CatchesUp.run {b : Nat} (h : CatchesUp b f g R) (hst : R s t) (m : Nat) : ∃ n ≤ b * m, R (f^[n] s) (g^[m] t) := by
  induction m with
  | zero => exact ⟨0, Nat.zero_le _, hst⟩
  | succ m ih =>
    obtain ⟨n, hn, hR⟩ := ih
    obtain ⟨k, hk, hstep⟩ := h _ _ hR
    refine ⟨k + n, ?_, ?_⟩
    · rw [Nat.mul_succ, Nat.add_comm]
      exact Nat.add_le_add hn hk
    · rw [Function.iterate_add_apply, Function.iterate_succ_apply']
      exact hstep

/-- What every step keeps, and a measure that every step before the end makes smaller. -/
structure Winds (f : σ → σ) (ended I : σ → Prop) (μ : σ → Nat) : Prop where
  keep : ∀ s, I s → I (f s)
  less : ∀ s, I s → ¬ ended s → μ (f s) < μ s
  stays : ∀ s, ended s → ended (f s)

lemma Winds.ends {ended I : σ → Prop} {μ : σ → Nat} (h : Winds f ended I μ) (hs : I s) {n : Nat} (hn : μ s ≤ n) :
    ended (f^[n] s) := by
  induction n generalizing s with
  | zero =>
    by_contra hended
    exact Nat.not_lt_zero _ (Nat.lt_of_lt_of_le (h.less s hs hended) hn)
  | succ n ih =>
    by_cases hended : ended s
    · have hstay : ∀ k, ended (f^[k] s) := by
        intro k
        induction k with
        | zero => exact hended
        | succ k ihk =>
          rw [Function.iterate_succ_apply']
          exact h.stays _ ihk
      exact hstay (n + 1)
    · exact ih (h.keep s hs) (Nat.le_of_lt_succ (Nat.lt_of_lt_of_le (h.less s hs hended) hn))

end Rashid
