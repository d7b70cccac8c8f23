import Rashid.Proofs.ByteProtection
import Rashid.Proofs.RegionOrder

/-!
# The range checks as checks of every byte

The loop behind `rsd_as_ok` and `rsd_as_mapped` goes from the end of one region to the next. In a
list sorted by start the first region that holds an address stays the first one up to its end, so
the loop decides what a test of every single byte would.
-/

namespace Rashid.Proofs

/-- A run of the loop from `a` over `n` bytes, turn by turn, with the answer it returns. -/
inductive RangeRun (as : As) (p : Region → Bool) : BitVec 64 → BitVec 64 → Bool → Prop
  | ended (a : BitVec 64) : RangeRun as p a 0 true
  | untracked {a n : BitVec 64} : n ≠ 0 → find as a = none → RangeRun as p a n false
  | refused {a n : BitVec 64} {r : Region} : n ≠ 0 → find as a = some r → p r = false → RangeRun as p a n false
  | within {a n : BitVec 64} {r : Region} : n ≠ 0 → find as a = some r → p r = true → n ≤ r.stop - a →
      RangeRun as p a n true
  | beyond {a n : BitVec 64} {r : Region} {b : Bool} : n ≠ 0 → find as a = some r → p r = true → ¬ n ≤ r.stop - a →
      RangeRun as p (a + (r.stop - a)) (n - (r.stop - a)) b → RangeRun as p a n b

section Loop

variable {as : As} {p : Region → Bool}

lemma find_has {a : BitVec 64} {r : Region} (h : find as a = some r) : r ∈ as.reg ∧ r.has a = true :=
  ⟨List.mem_of_find?_eq_some h, by simpa using List.find?_some h⟩

/-- Every turn takes at least one byte off. -/
lemma avail_pos {a : BitVec 64} {r : Region} (h : find as a = some r) : 0 < (r.stop - a).toNat := by
  have hra := (has_iff r a).mp (find_has h).2
  bv_omega

/-- The loop comes to its end, and as many turns as there are bytes are enough for it. -/
lemma rangeRun_loop {fuel : Nat} {a n : BitVec 64} (hn : n.toNat ≤ fuel) :
    RangeRun as p a n (rangeLoop as p fuel a n) := by
  induction fuel generalizing a n with
  | zero =>
    have h0 : n = 0 := BitVec.eq_of_toNat_eq (Nat.le_zero.mp hn)
    subst h0
    exact .ended a
  | succ fuel ih =>
    rw [rangeLoop]
    by_cases h0 : n = 0
    · rw [if_pos h0, h0]
      exact .ended a
    rw [if_neg h0]
    cases hf : find as a with
    | none => exact .untracked h0 hf
    | some r =>
      cases hp : p r with
      | false =>
        simp only [hp, if_true]
        exact .refused h0 hf hp
      | true =>
        have hpos := avail_pos hf
        simp only [hp, Bool.true_eq_false, if_false]
        by_cases hle : n ≤ r.stop - a
        · rw [if_pos hle]
          exact .within h0 hf hp hle
        · rw [if_neg hle]
          refine .beyond h0 hf hp hle (ih ?_)
          bv_omega

/-- It has one answer. -/
lemma RangeRun.unique {a n : BitVec 64} {b b' : Bool} (h : RangeRun as p a n b) (h' : RangeRun as p a n b') : b = b' := by
  induction h with
  | ended => cases h' <;> first | rfl | contradiction
  | untracked h0 hf => cases h' <;> simp_all
  | refused h0 hf hp => cases h' <;> simp_all
  | within h0 hf hp hle => cases h' <;> simp_all
  | beyond h0 hf hp hle _ ih =>
    cases h' with
    | ended => exact absurd rfl h0
    | untracked _ hf' => rw [hf] at hf'; cases hf'
    | refused _ hf' hp' =>
      obtain rfl := Option.some.inj (hf.symm.trans hf')
      rw [hp] at hp'
      cases hp'
    | within _ hf' _ hle' =>
      obtain rfl := Option.some.inj (hf.symm.trans hf')
      exact absurd hle' hle
    | beyond _ hf' _ _ hrest =>
      obtain rfl := Option.some.inj (hf.symm.trans hf')
      exact ih hrest

/-! ### Bytes -/

/-- The first region that holds an address is the first for the rest of it: one that comes before
it in the list starts no later, and has ended. -/
lemma find_ahead (h : WellOrdered as) {a x : BitVec 64} {r : Region} (hf : find as a = some r)
    (hax : a.toNat ≤ x.toNat) (hx : x.toNat < r.stop.toNat) : find as x = some r := by
  obtain ⟨-, hord⟩ := h
  unfold find at hf ⊢
  generalize as.reg = l at hf hord ⊢
  induction l with
  | nil => cases hf
  | cons s rest ih =>
    obtain ⟨hs, hord⟩ := List.pairwise_cons.mp hord
    rw [List.find?_cons] at hf ⊢
    cases hsa : s.has a with
    | true =>
      rw [hsa] at hf
      obtain rfl := Option.some.inj hf
      have hsx : s.has x = true := (has_iff s x).mpr ⟨Nat.le_trans ((has_iff s a).mp hsa).1 hax, hx⟩
      rw [hsx]
    | false =>
      rw [hsa] at hf
      have hr : r ∈ rest := List.mem_of_find?_eq_some hf
      have hra : r.has a = true := by simpa using List.find?_some hf
      have hstart : s.start.toNat ≤ a.toNat :=
        Nat.le_trans (BitVec.le_def.mp (hs r hr)) ((has_iff r a).mp hra).1
      have hsx : s.has x = false := by
        rw [← Bool.not_eq_true, has_iff] at hsa ⊢
        omega
      rw [hsx]
      exact ih hf hord

/-- The test of every byte by itself. -/
def EachByte (as : As) (p : Region → Bool) (a n : BitVec 64) : Prop :=
  ∀ x, InRange a n x → ∃ r, find as x = some r ∧ p r = true

lemma rangeRun_bytes (h : WellOrdered as) {a n : BitVec 64} {b : Bool} (hrun : RangeRun as p a n b)
    (hn : a.toNat + n.toNat < 2 ^ 64) : b = true ↔ EachByte as p a n := by
  induction hrun with
  | ended a =>
    refine iff_of_true rfl fun x hx => ?_
    exact absurd hx.1 (Nat.not_le.mpr hx.2)
  | @untracked a n h0 hf =>
    refine iff_of_false Bool.false_ne_true fun heach => ?_
    obtain ⟨r, hr, -⟩ := heach a ⟨Nat.le_refl _, by bv_omega⟩
    rw [hf] at hr
    cases hr
  | @refused a n r h0 hf hp =>
    refine iff_of_false Bool.false_ne_true fun heach => ?_
    obtain ⟨r', hr, hp'⟩ := heach a ⟨Nat.le_refl _, by bv_omega⟩
    obtain rfl := Option.some.inj (hf.symm.trans hr)
    rw [hp] at hp'
    cases hp'
  | @within a n r h0 hf hp hle =>
    have hra := (has_iff r a).mp (find_has hf).2
    refine iff_of_true rfl fun x hx => ⟨r, find_ahead h hf hx.1 ?_, hp⟩
    have hhi := hx.2
    bv_omega
  | @beyond a n r b h0 hf hp hle _ ih =>
    have hra := (has_iff r a).mp (find_has hf).2
    have ha : a + (r.stop - a) = r.stop := by bv_omega
    have hrest : (n - (r.stop - a)).toNat + r.stop.toNat = a.toNat + n.toNat := by bv_omega
    rw [ha] at ih
    rw [ih (by omega)]
    constructor
    · intro heach x hx
      by_cases hin : x.toNat < r.stop.toNat
      · exact ⟨r, find_ahead h hf hx.1 hin, hp⟩
      · exact heach x ⟨by omega, by have := hx.2; omega⟩
    · intro heach x hx
      exact heach x ⟨by have := hx.1; omega, by have := hx.2; omega⟩

lemma rangeCheck_bytes (h : WellOrdered as) (a n : BitVec 64) :
    rangeCheck as p a n = true ↔ n = 0 ∨ a.toNat + n.toNat < 2 ^ 64 ∧ EachByte as p a n := by
  unfold rangeCheck
  by_cases h0 : n = 0
  · rw [if_pos h0]
    exact iff_of_true rfl (.inl h0)
  rw [if_neg h0, or_iff_right h0]
  by_cases hw : a + n < a
  · rw [if_pos hw]
    refine iff_of_false Bool.false_ne_true fun h => ?_
    bv_omega
  · rw [if_neg hw]
    have hn : a.toNat + n.toNat < 2 ^ 64 := by bv_omega
    rw [rangeRun_bytes h (rangeRun_loop (Nat.le_refl _)) hn, and_iff_right hn]

end Loop

/-- In a sorted list of regions that are not empty, overlapping or not, both loops end, with one
answer, and the checks hold exactly if every byte passes by itself. -/
theorem range_checks_per_byte {as : As} (h : WellOrdered as) (a n : BitVec 64) (prot : BitVec 32) :
    (∀ p, ∃ b, RangeRun as p a n b ∧ ∀ b', RangeRun as p a n b' → b' = b) ∧
    (rsdAsOk as a n prot = true ↔ n = 0 ∨ a.toNat + n.toNat < 2 ^ 64 ∧
      ∀ x, InRange a n x → ∃ r, find as x = some r ∧ r.allows prot = true) ∧
    (rsdAsMapped as a n = true ↔ n = 0 ∨ a.toNat + n.toNat < 2 ^ 64 ∧
      ∀ x, InRange a n x → ∃ r, find as x = some r) := by
  refine ⟨fun p => ?_, rangeCheck_bytes h a n, ?_⟩
  · have hrun : RangeRun as p a n (rangeLoop as p n.toNat a n) := rangeRun_loop (Nat.le_refl _)
    exact ⟨_, hrun, fun b' hb' => hb'.unique hrun⟩
  · refine (rangeCheck_bytes h a n).trans ?_
    simp only [EachByte, and_true]

/-- Two regions that overlap, with different permissions. -/
def overlapping : As := { rsdAsInit with reg := [⟨0x10000, 0x14000, rsdProtR⟩, ⟨0x12000, 0x18000, rsdProtW⟩] }

theorem range_checks_per_byte_overlapping :
    rsdAsOk overlapping 0x12000 0x3000 rsdProtR = false ∧ ¬ ((0x3000 : BitVec 64) = 0 ∨
      (0x12000 : BitVec 64).toNat + (0x3000 : BitVec 64).toNat < 2 ^ 64 ∧
      ∀ x, InRange 0x12000 0x3000 x → ∃ r, find overlapping x = some r ∧ r.allows rsdProtR = true) := by
  have hord : WellOrdered overlapping := by
    unfold WellOrdered
    decide
  have hno : rsdAsOk overlapping 0x12000 0x3000 rsdProtR = false := by decide
  refine ⟨hno, fun hb => ?_⟩
  rw [← (range_checks_per_byte hord 0x12000 0x3000 rsdProtR).2.1, hno] at hb
  exact Bool.false_ne_true hb

end Rashid.Proofs
