import Rashid.Proofs.Protect

/-!
# Mapping and unmapping, address by address

A fixed mapping is recorded beside what was there, so an older region that starts below it is
found first. A removal goes by host pages for the host, and by whole regions for the list.
-/

namespace Rashid.Proofs

/-! ### A new region among older ones -/

/-- The new region comes behind those that start below it and in front of the others. -/
lemma find_insertSorted {l : List Region} (hord : l.Pairwise fun r s => r.start ≤ s.start) (new : Region)
    (x : BitVec 64) : (insertSorted new l).find? (·.has x) =
      match l.find? (·.has x) with
      | some r => if new.has x = true ∧ ¬ r.start < new.start then some new else some r
      | none => if new.has x then some new else none := by
  induction l with
  | nil =>
    simp only [insertSorted, List.find?_cons, List.find?_nil]
    cases new.has x <;> rfl
  | cons s rest ih =>
    obtain ⟨hs, hrest⟩ := List.pairwise_cons.mp hord
    rw [insertSorted]
    by_cases hlt : s.start < new.start
    · rw [if_pos hlt, List.find?_cons, List.find?_cons]
      cases hsx : s.has x with
      | true => simp only [hlt, not_true, and_false, if_false]
      | false => exact ih hrest
    · rw [if_neg hlt, List.find?_cons]
      cases hnx : new.has x with
      | true =>
        cases hf : (s :: rest).find? (·.has x) with
        | none => simp only [if_true]
        | some r =>
          have hr : r ∈ s :: rest := List.mem_of_find?_eq_some hf
          have hge : ¬ r.start < new.start := by
            obtain rfl | hr := List.mem_cons.mp hr
            · exact hlt
            · have hsr := hs r hr
              bv_omega
          simp only [hge, not_false_eq_true, and_self, if_true]
      | false =>
        cases (s :: rest).find? (·.has x) with
        | none => rfl
        | some r => rfl

/-! ### A fixed mapping -/

/-- What the kernel promises for a mapping at a fixed place: the place that was asked for, no
empty range, and user addresses only. -/
def FixedGrants (h : Host) : Prop :=
  ∀ want size p, h.mmap want size true = some p → p = want ∧ 0 < size.toNat ∧ want.toNat + size.toNat ≤ 2 ^ 47

/-- The permission of every byte of the range is the new one, and outside its host pages nothing
has changed. -/
def TakesOver (h : Host) (as out : As) (at_ len : BitVec 64) (prot : BitVec 32) : Prop :=
  (∀ x, InRange at_ len x → permAt out x = some prot) ∧
    ∀ x, ¬ (pageDown h.page at_ ≤ x ∧ x < pageUp h.page (at_ + len)) → permAt out x = permAt as x

section Fixed

variable {h : Host} {as : As} {at_ len : BitVec 64} {prot : BitVec 32}

lemma pageDown_le (hp a : BitVec 64) : (pageDown hp a).toNat ≤ a.toNat := by
  rw [pageDown, BitVec.toNat_and]
  exact Nat.and_le_left

/-- Rounding down takes off less than a page. -/
lemma pageDown_ge (hp a : BitVec 64) : a.toNat ≤ (pageDown hp a).toNat + (hp - 1).toNat := by
  have hzero : (a &&& ~~~(hp - 1)) &&& (a &&& (hp - 1)) = 0 := by
    ext i hi
    simp only [BitVec.getElem_and, BitVec.getElem_not]
    cases a[i] <;> cases (hp - 1)[i] <;> simp
  have hsplit : a = (a &&& ~~~(hp - 1)) + (a &&& (hp - 1)) := by
    rw [BitVec.add_eq_or_of_and_eq_zero _ _ hzero]
    ext i hi
    simp only [BitVec.getElem_and, BitVec.getElem_or, BitVec.getElem_not]
    cases a[i] <;> cases (hp - 1)[i] <;> rfl
  have hle : (a &&& (hp - 1)).toNat ≤ (hp - 1).toNat := by
    rw [BitVec.toNat_and]
    exact Nat.and_le_right
  have hsum : a.toNat ≤ (a &&& ~~~(hp - 1)).toNat + (a &&& (hp - 1)).toNat := by
    calc a.toNat = ((a &&& ~~~(hp - 1)) + (a &&& (hp - 1))).toNat := congrArg BitVec.toNat hsplit
      _ ≤ _ := by
        rw [BitVec.toNat_add]
        exact Nat.mod_le _ _
  unfold pageDown
  omega

/-- What a successful fixed mapping records. -/
lemma fixed_recorded (hk : FixedGrants h) (hat : at_ ≠ 0) (hdone : (rsdAsMap h as at_ len prot true).1 = at_) :
    0 < (mapSize h at_ len).toNat ∧ (mapLo h at_).toNat + (mapSize h at_ len).toNat ≤ 2 ^ 47 ∧
      (rsdAsMap h as at_ len prot true).2.1.reg =
        insertSorted ⟨mapLo h at_, pageUp h.page (at_ + len), prot⟩ as.reg := by
  have hhi : mapLo h at_ + mapSize h at_ len = pageUp h.page (at_ + len) := by
    rw [mapSize, if_neg hat, mapHi, if_neg hat]
    bv_omega
  unfold rsdAsMap at hdone ⊢
  by_cases h0 : len = 0
  · rw [if_pos h0] at hdone
    exact absurd hdone.symm hat
  rw [if_neg h0] at hdone ⊢
  cases hm : h.mmap (mapWant h at_) (mapSize h at_ len) true with
  | none =>
    have hnone : hostMap h at_ len true = none := by
      simp only [hostMap, bne_iff_ne.mpr hat, Bool.and_true, hm, Bool.not_true, Bool.and_false, Bool.false_eq_true,
        if_false]
    rw [hnone] at hdone
    exact absurd hdone.symm hat
  | some p =>
    have hsome : hostMap h at_ len true = some (p, mapSize h at_ len) := by
      simp only [hostMap, bne_iff_ne.mpr hat, Bool.and_true, hm]
    obtain ⟨hp, hpos, htop⟩ := hk _ _ _ hm
    rw [mapWant, if_neg hat] at hp htop
    subst hp
    refine ⟨hpos, htop, ?_⟩
    rw [hsome] at hdone ⊢
    by_cases hfull : as.reg.length = as.cap ∧ h.alloc = false
    · simp only [insert, if_pos hfull] at hdone
      exact absurd hdone.symm hat
    · simp only [insert, if_neg hfull, hhi]

/-- Less than a page is rounded down to nothing. -/
lemma pageDown_small {k : Nat} (hk : k < 64) {y : BitVec 64} (hy : y.toNat < 2 ^ k) :
    pageDown (BitVec.ofNat 64 (2 ^ k)) y = 0#64 := by
  have hpow : 2 ^ k < 2 ^ 64 := Nat.pow_lt_pow_right (by decide) hk
  have hpos : 0 < 2 ^ k := Nat.two_pow_pos k
  have hmask : (BitVec.ofNat 64 (2 ^ k) - 1).toNat = 2 ^ k - 1 := by
    have h1 : (1 : BitVec 64).toNat = 1 := rfl
    rw [BitVec.toNat_sub, BitVec.toNat_ofNat, h1, Nat.mod_eq_of_lt hpow]
    omega
  apply BitVec.eq_of_getLsbD_eq
  intro i hi
  rw [pageDown, BitVec.getLsbD_and, BitVec.getLsbD_not, BitVec.getLsbD_zero]
  by_cases hik : i < k
  · have hbit : (BitVec.ofNat 64 (2 ^ k) - 1).getLsbD i = true := by
      rw [← BitVec.testBit_toNat, hmask, Nat.testBit_two_pow_sub_one, decide_eq_true hik]
    rw [hbit, Bool.not_true, Bool.and_false, Bool.and_false]
  · have hbit : y.getLsbD i = false := by
      rw [← BitVec.testBit_toNat]
      exact Nat.testBit_lt_two_pow (Nat.lt_of_lt_of_le hy (Nat.pow_le_pow_right (by decide) (Nat.le_of_not_lt hik)))
    rw [hbit, Bool.false_and]

/-- The recorded range covers what was asked for, unless that wraps. -/
lemma fixed_covers {k : Nat} (hk : k < 64) (hpage : h.page = BitVec.ofNat 64 (2 ^ k))
    (hw : at_.toNat + len.toNat < 2 ^ 64) (hhi : pageUp h.page (at_ + len) ≠ 0) :
    at_.toNat + len.toNat ≤ (pageUp h.page (at_ + len)).toNat := by
  have hge := pageDown_ge h.page (at_ + len + h.page - 1)
  have hpow : 2 ^ k < 2 ^ 64 := Nat.pow_lt_pow_right (by decide) hk
  have hpos : 0 < 2 ^ k := Nat.two_pow_pos k
  have hval : h.page.toNat = 2 ^ k := by
    rw [hpage, BitVec.toNat_ofNat, Nat.mod_eq_of_lt hpow]
  rcases Nat.lt_or_ge (at_.toNat + len.toNat + (h.page - 1).toNat) (2 ^ 64) with hlt | hge'
  · have hsum : (at_ + len + h.page - 1).toNat = at_.toNat + len.toNat + (h.page - 1).toNat := by
      bv_omega
    unfold pageUp
    unfold pageDown at hge
    omega
  · refine absurd ?_ hhi
    have hsmall : (at_ + len + h.page - 1).toNat < 2 ^ k := by
      bv_omega
    rw [pageUp]
    rw [hpage] at hsmall ⊢
    exact pageDown_small hk hsmall

end Fixed

/-- An older region that starts below the mapping has its permission already, wherever it is found
first in the range. -/
def LowerAgree (h : Host) (as : As) (at_ len : BitVec 64) (prot : BitVec 32) : Prop :=
  at_.toNat + len.toNat < 2 ^ 64 ∧
    ∀ x, InRange at_ len x → ∀ r, find as x = some r → r.start < pageDown h.page at_ → r.prot = prot

/-- A fixed mapping takes its range over exactly if the range does not wrap and the regions that
start below it and reach into it have the new permission already. -/
theorem fixed_mapping_takes_over {as : As} (hord : WellOrdered as) (h : Host) (hk : FixedGrants h) {k : Nat}
    (hk64 : k < 64) (hpage : h.page = BitVec.ofNat 64 (2 ^ k)) (at_ len : BitVec 64) (prot : BitVec 32) (hat : at_ ≠ 0)
    (hdone : (rsdAsMap h as at_ len prot true).1 = at_) :
    TakesOver h as (rsdAsMap h as at_ len prot true).2.1 at_ len prot ↔ LowerAgree h as at_ len prot := by
  obtain ⟨hpos, htop, hreg⟩ := fixed_recorded hk hat hdone
  generalize (rsdAsMap h as at_ len prot true).2.1 = out at hreg
  have hhi : (pageUp h.page (at_ + len)).toNat = (mapLo h at_).toNat + (mapSize h at_ len).toNat := by
    rw [mapSize, if_neg hat, mapHi, if_neg hat] at hpos htop ⊢
    bv_omega
  have hlo : (mapLo h at_).toNat ≤ at_.toNat := pageDown_le h.page at_
  have hfind (x : BitVec 64) : find out x = _ :=
    (congrArg (List.find? (·.has x)) hreg).trans
      (find_insertSorted hord.2 ⟨mapLo h at_, pageUp h.page (at_ + len), prot⟩ x)
  have hout : ∀ x, ¬ (pageDown h.page at_ ≤ x ∧ x < pageUp h.page (at_ + len)) → permAt out x = permAt as x := by
    intro x hx
    have hno : (⟨mapLo h at_, pageUp h.page (at_ + len), prot⟩ : Region).has x = false := by
      rw [← Bool.not_eq_true, has_iff]
      exact fun hin => hx ⟨BitVec.le_def.mpr hin.1, BitVec.lt_def.mpr hin.2⟩
    rw [permAt, permAt, hfind x, hno]
    unfold find
    cases as.reg.find? (·.has x) <;> simp
  rw [TakesOver, and_iff_left hout, LowerAgree]
  by_cases hw : at_.toNat + len.toNat < 2 ^ 64
  · have hcov := fixed_covers hk64 hpage hw (by bv_omega)
    rw [and_iff_right hw]
    have hx : ∀ x, InRange at_ len x → (permAt out x = some prot ↔
        ∀ r, find as x = some r → r.start < pageDown h.page at_ → r.prot = prot) := by
      intro x hin
      have hyes : (⟨mapLo h at_, pageUp h.page (at_ + len), prot⟩ : Region).has x = true := by
        rw [has_iff]
        have h1 := hin.1
        have h2 := hin.2
        simp only
        omega
      rw [permAt, hfind x, hyes]
      unfold find
      cases as.reg.find? (·.has x) with
      | none => simp
      | some r =>
        by_cases hlt : r.start < pageDown h.page at_
        · have hlt' : r.start < mapLo h at_ := hlt
          simp [hlt, hlt']
        · have hlt' : ¬ r.start < mapLo h at_ := hlt
          simp [hlt, hlt']
    exact forall₂_congr hx
  · refine iff_of_false (fun hall => ?_) fun hc => hw hc.1
    -- the last address of all is in the range, and in no region
    have hlast := hall (BitVec.allOnes 64) ⟨by rw [BitVec.toNat_allOnes]; omega, by rw [BitVec.toNat_allOnes]; omega⟩
    have hnone : find out (BitVec.allOnes 64) = none := by
      rw [find_none_iff]
      rintro ⟨r, -, hr⟩
      rw [has_iff, BitVec.toNat_allOnes] at hr
      omega
    rw [permAt, hnone] at hlast
    cases hlast

/-- One region of 16 readable pages, in a host that grants what is asked for. -/
def grantingHost : Host := { plainHost with mmap := fun want size fixed =>
  if fixed && (0 < size.toNat && want.toNat + size.toNat ≤ 2 ^ 47) then some want else none }

def sixteenPages : As := { rsdAsInit with reg := [⟨0x100000000, 0x100010000, rsdProtR⟩], cap := 16 }

lemma grantingHost_grants : FixedGrants grantingHost := by
  intro want size p hm
  simp only [grantingHost, Bool.true_and] at hm
  split at hm
  next hok =>
    simp only [Bool.and_eq_true, decide_eq_true_eq] at hok
    exact ⟨(Option.some.inj hm).symm, hok.1, hok.2⟩
  · cases hm

/-- A page mapped writable in the middle of a readable region stays readable only. -/
theorem fixed_mapping_in_the_middle :
    let out := rsdAsMap grantingHost sixteenPages 0x100004000 0x4000 rsdProtW true
    out.1 = 0x100004000 ∧ permAt out.2.1 0x100004000 = some rsdProtR ∧
      ¬ TakesOver grantingHost sixteenPages out.2.1 0x100004000 0x4000 rsdProtW := by
  intro out
  have hperm : permAt out.2.1 0x100004000 = some rsdProtR := by decide
  refine ⟨by decide, hperm, fun h => ?_⟩
  have hnew := h.1 0x100004000 ⟨by decide, by decide⟩
  rw [hperm] at hnew
  exact absurd hnew (by decide)

/-- At the start of the region it is taken over. -/
theorem fixed_mapping_at_the_start :
    LowerAgree grantingHost sixteenPages 0x100000000 0x4000 rsdProtW ∧
      TakesOver grantingHost sixteenPages (rsdAsMap grantingHost sixteenPages 0x100000000 0x4000 rsdProtW true).2.1
        0x100000000 0x4000 rsdProtW := by
  have hord : WellOrdered sixteenPages := by
    unfold WellOrdered
    decide
  have hlow : LowerAgree grantingHost sixteenPages 0x100000000 0x4000 rsdProtW := by
    refine ⟨by decide, fun x hx r hr hlt => ?_⟩
    have hmem := (find_has hr).1
    rw [List.mem_singleton.mp hmem] at hlt
    exact absurd hlt (by decide)
  exact ⟨hlow, (fixed_mapping_takes_over hord grantingHost grantingHost_grants (k := 14) (by decide) rfl 0x100000000
    0x4000 rsdProtW (by decide) (by decide)).mpr hlow⟩

/-! ### A removal -/

/-- The range is gone, and everything else is tracked, allowed and mapped as before. -/
def TouchesOnly (as out : As) (m m' : BitVec 64 → Prop) (at_ len : BitVec 64) : Prop :=
  (∀ x, InRange at_ len x → ¬ Tracked out x) ∧
    ∀ x, ¬ InRange at_ len x → permAt out x = permAt as x ∧ (m' x ↔ m x)

/-- A region wholly inside the host pages of the range, which is what the list drops. -/
def Dropped (h : Host) (at_ len : BitVec 64) (r : Region) : Prop :=
  pageDown h.page at_ ≤ r.start ∧ r.stop ≤ pageUp h.page (at_ + len)

instance (h : Host) (at_ len : BitVec 64) (r : Region) : Decidable (Dropped h at_ len r) :=
  inferInstanceAs (Decidable (_ ∧ _))

/-- A region that the range reaches lies inside its host pages. Outside the range, where a region
is dropped, the next one that is kept has its permission, and the host had mapped nothing. -/
structure PageExact (h : Host) (as : As) (m : BitVec 64 → Prop) (at_ len : BitVec 64) : Prop where
  reached : ∀ r ∈ as.reg, (∃ x, InRange at_ len x ∧ r.has x = true) → Dropped h at_ len r
  hidden : ∀ x, ¬ InRange at_ len x → ∀ r, find as x = some r → Dropped h at_ len r →
    ∃ s, (as.reg.filter fun r => !Dropped h at_ len r).find? (·.has x) = some s ∧ s.prot = r.prot
  mapped : ∀ x, InRange (pageDown h.page at_) (pageUp h.page (at_ + len) - pageDown h.page at_) x →
    ¬ InRange at_ len x → ¬ m x

section Unmap

variable {h : Host} {as : As} {at_ len : BitVec 64}

lemma unmap_done (hdone : (rsdAsUnmap h as at_ len).1 = 0) :
    (rsdAsUnmap h as at_ len).2.1.reg = as.reg.filter (fun r => !Dropped h at_ len r) ∧
      (rsdAsUnmap h as at_ len).2.2 =
        [.unmapped (pageDown h.page at_) (pageUp h.page (at_ + len) - pageDown h.page at_)] := by
  unfold rsdAsUnmap at hdone ⊢
  simp only at hdone ⊢
  split at hdone
  next hok =>
    rw [if_pos hok]
    refine ⟨List.filter_congr fun r _ => ?_, rfl⟩
    rw [← Bool.decide_and]
    rfl
  · have h1 : (-1 : Int) = 0 := hdone
    exact absurd h1 (by decide)

/-- What is found once regions have been dropped. -/
lemma find_filter (l : List Region) (q : Region → Bool) (x : BitVec 64) :
    (∃ r, l.find? (·.has x) = some r ∧ q r = true ∧ (l.filter q).find? (·.has x) = some r) ∨
      (∃ r, l.find? (·.has x) = some r ∧ q r = false) ∨
      (l.find? (·.has x) = none ∧ (l.filter q).find? (·.has x) = none) := by
  induction l with
  | nil => exact .inr (.inr ⟨rfl, rfl⟩)
  | cons s rest ih =>
    cases hsx : s.has x with
    | true =>
      cases hq : q s with
      | true => exact .inl ⟨s, by simp [hsx], hq, by simp [hsx, hq]⟩
      | false => exact .inr (.inl ⟨s, by simp [hsx], hq⟩)
    | false =>
      have hl : (s :: rest).find? (·.has x) = rest.find? (·.has x) := by simp [hsx]
      have hf : ((s :: rest).filter q).find? (·.has x) = (rest.filter q).find? (·.has x) := by
        cases hq : q s <;> simp [hsx, hq]
      rw [hl, hf]
      exact ih

end Unmap

/-- A removal touches its range only, exactly under the condition. -/
theorem unmap_touches_only (h : Host) (as : As) (m : BitVec 64 → Prop) (at_ len : BitVec 64)
    (hdone : (rsdAsUnmap h as at_ len).1 = 0) :
    TouchesOnly as (rsdAsUnmap h as at_ len).2.1 m (hostAfter m (rsdAsUnmap h as at_ len).2.2) at_ len ↔
      PageExact h as m at_ len := by
  obtain ⟨hreg, hev⟩ := unmap_done hdone
  rw [hev]
  generalize (rsdAsUnmap h as at_ len).2.1 = out at hreg
  have hgone : (∀ x, InRange at_ len x → ¬ Tracked out x) ↔
      ∀ r ∈ as.reg, (∃ x, InRange at_ len x ∧ r.has x = true) → Dropped h at_ len r := by
    unfold Tracked
    rw [hreg]
    constructor
    · rintro hno r hr ⟨x, hx, hrx⟩
      by_contra hd
      exact hno x hx ⟨r, List.mem_filter.mpr ⟨hr, by simpa using hd⟩, hrx⟩
    · rintro hall x hx ⟨r, hr, hrx⟩
      obtain ⟨hr, hd⟩ := List.mem_filter.mp hr
      exact absurd (hall r hr ⟨x, hx, hrx⟩) (by simpa using hd)
  have hperm (x : BitVec 64) : permAt out x = permAt as x ↔ ∀ r, find as x = some r → Dropped h at_ len r →
      ∃ s, (as.reg.filter fun r => !Dropped h at_ len r).find? (·.has x) = some s ∧ s.prot = r.prot := by
    unfold permAt find
    rw [hreg]
    obtain ⟨r, hr, hq, hf⟩ | ⟨r, hr, hq⟩ | ⟨hr, hf⟩ := find_filter as.reg (fun r => !Dropped h at_ len r) x
    · rw [hr, hf]
      refine iff_of_true rfl fun s hs hd => ?_
      obtain rfl := Option.some.inj hs
      exact absurd hd (by simpa using hq)
    · rw [hr]
      constructor
      · intro heq s hs _
        obtain rfl := Option.some.inj hs
        obtain ⟨t, ht, hprot⟩ := Option.map_eq_some_iff.mp heq
        exact ⟨t, ht, hprot⟩
      · intro hall
        obtain ⟨t, ht, hprot⟩ := hall r rfl (by simpa using hq)
        rw [ht]
        exact congrArg some hprot
    · rw [hr, hf]
      exact iff_of_true rfl nofun
  have hhost (x : BitVec 64) (hx : ¬ InRange at_ len x) :
      (hostAfter m [.unmapped (pageDown h.page at_) (pageUp h.page (at_ + len) - pageDown h.page at_)] x ↔ m x) ↔
        (InRange (pageDown h.page at_) (pageUp h.page (at_ + len) - pageDown h.page at_) x → ¬ m x) := by
    simp only [hostAfter, List.foldl_cons, List.foldl_nil, hostEffect]
    tauto
  constructor
  · rintro ⟨h1, h2⟩
    exact ⟨hgone.mp h1, fun x hx => (hperm x).mp (h2 x hx).1, fun x hin hx => (hhost x hx).mp (h2 x hx).2 hin⟩
  · rintro ⟨h1, h2, h3⟩
    exact ⟨hgone.mpr h1, fun x hx => ⟨(hperm x).mpr (h2 x hx), (hhost x hx).mpr fun hin => h3 x hin hx⟩⟩

/-- Where no two regions overlap nothing is hidden: a dropped region must lie in the range. -/
lemma pageExact_of_apart {h : Host} {as : As} {m : BitVec 64 → Prop} {at_ len : BitVec 64} (hap : as.reg.Pairwise Apart) :
    PageExact h as m at_ len ↔
      (∀ r ∈ as.reg, (∃ x, InRange at_ len x ∧ r.has x = true) → Dropped h at_ len r) ∧
      (∀ r ∈ as.reg, Dropped h at_ len r → ∀ x, r.has x = true → InRange at_ len x) ∧
      (∀ x, InRange (pageDown h.page at_) (pageUp h.page (at_ + len) - pageDown h.page at_) x →
        ¬ InRange at_ len x → ¬ m x) := by
  constructor
  · rintro ⟨h1, h2, h3⟩
    refine ⟨h1, fun r hr hd x hx => ?_, h3⟩
    by_contra hno
    obtain ⟨s, hs, -⟩ := h2 x hno r ((find_iff hap).mpr ⟨hr, hx⟩) hd
    obtain ⟨hs', hsd⟩ := List.mem_filter.mp (List.mem_of_find?_eq_some hs)
    have hsx : s.has x = true := by simpa using List.find?_some hs
    -- the region that is kept is the one that was dropped
    have hsr : find as x = some s := (find_iff hap).mpr ⟨hs', hsx⟩
    rw [(find_iff hap).mpr ⟨hr, hx⟩] at hsr
    obtain rfl := Option.some.inj hsr
    exact absurd hd (by simpa using hsd)
  · rintro ⟨h1, h2, h3⟩
    refine ⟨h1, fun x hx r hr hd => ?_, h3⟩
    obtain ⟨hmem, hrx⟩ := find_has hr
    exact absurd (h2 r hmem hd x hrx) hx

/-- One 4K page out of a 32K region on 16K pages: the list keeps the whole region, and the host
takes four pages away. -/
theorem unmap_one_page :
    let out := rsdAsUnmap plainHost oneRegion 0x100001000 0x1000
    let m := InRange 0x100000000 0x8000
    out.1 = 0 ∧ Tracked out.2.1 0x100001000 ∧ m 0x100000000 ∧ ¬ hostAfter m out.2.2 0x100000000 ∧
      ¬ TouchesOnly oneRegion out.2.1 m (hostAfter m out.2.2) 0x100001000 0x1000 := by
  intro out m
  have ht : Tracked out.2.1 0x100001000 := ⟨⟨0x100000000, 0x100008000, 3⟩, by decide, by decide⟩
  refine ⟨by decide, ht, ⟨by decide, by decide⟩, ?_, fun h => ?_⟩
  · have hev : out.2.2 = [.unmapped 0x100000000 0x4000] := by decide
    rw [hev]
    exact fun h => h.2 ⟨by decide, by decide⟩
  · exact h.1 0x100001000 ⟨by decide, by decide⟩ ht

/-- The whole of the region. -/
theorem unmap_touches_only_whole :
    TouchesOnly oneRegion (rsdAsUnmap plainHost oneRegion 0x100000000 0x8000).2.1 (InRange 0x100000000 0x8000)
      (hostAfter (InRange 0x100000000 0x8000) (rsdAsUnmap plainHost oneRegion 0x100000000 0x8000).2.2)
      0x100000000 0x8000 := by
  have hpages : pageDown plainHost.page 0x100000000 = 0x100000000 ∧
      pageUp plainHost.page (0x100000000 + 0x8000) - pageDown plainHost.page 0x100000000 = 0x8000 := by decide
  refine (unmap_touches_only plainHost oneRegion (InRange 0x100000000 0x8000) 0x100000000 0x8000 (by decide)).mpr
    ((pageExact_of_apart (List.pairwise_singleton _ _)).mpr ⟨fun r hr _ => ?_, fun r hr _ x hx => ?_, fun x hx hno => ?_⟩)
  · rw [List.mem_singleton.mp hr]
    decide
  · rw [List.mem_singleton.mp hr, has_iff] at hx
    exact hx
  · rw [hpages.2, hpages.1] at hx
    exact absurd hx hno

end Rashid.Proofs
