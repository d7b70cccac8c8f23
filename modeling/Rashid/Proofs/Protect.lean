import Rashid.Proofs.RangeChecks

/-!
# Protection, address by address

`rsd_as_protect` keeps, trims or splits every region. What comes out is in order again, covers the
same addresses, and differs from what went in exactly by the permission of the range.
-/

namespace Rashid.Proofs

lemma apart_of_le {r s : Region} (h : r.stop.toNat ≤ s.start.toNat) : Apart r s := by
  intro x hr hs
  rw [has_iff] at hr hs
  omega

lemma Consecutive.apart {l : List Region} (h : Consecutive l) : l.Pairwise Apart := h.order.imp apart_of_le

/-- Non-empty regions sorted by start, no two of them overlapping, lie one behind the other. -/
lemma consecutive_iff {as : As} : Consecutive as.reg ↔ WellOrdered as ∧ as.reg.Pairwise Apart := by
  constructor
  · exact fun h => ⟨h.wellOrdered, h.apart⟩
  · rintro ⟨⟨hne, hord⟩, hap⟩
    refine ⟨fun r hr => BitVec.lt_def.mp (hne r hr), ?_⟩
    refine (hord.and hap).imp_of_mem ?_
    intro r s _ hs hrs
    exact stop_le_of_apart (BitVec.lt_def.mp (hne s hs)) hrs.2 (BitVec.le_def.mp hrs.1)

/-- What is found for an address is the region that holds it. -/
lemma find_iff {as : As} (h : as.reg.Pairwise Apart) {x : BitVec 64} {r : Region} :
    find as x = some r ↔ r ∈ as.reg ∧ r.has x = true :=
  ⟨find_has, fun hr => find_eq_of_pairwise h hr.1 hr.2⟩

lemma find_none_iff {as : As} {x : BitVec 64} : find as x = none ↔ ¬ Tracked as x := by
  unfold find Tracked
  rw [List.find?_eq_none]
  push Not
  rfl

/-- The permission recorded for an address. -/
def permAt (as : As) (x : BitVec 64) : Option (BitVec 32) := (find as x).map Region.prot

lemma permAt_eq {as : As} (h : as.reg.Pairwise Apart) {r : Region} (hr : r ∈ as.reg) {x : BitVec 64}
    (hx : r.has x = true) : permAt as x = some r.prot := by
  rw [permAt, (find_iff h).mpr ⟨hr, hx⟩]
  rfl

section Pieces

variable (at_ stop : BitVec 64) (prot : BitVec 32) {r : Region}

/-- A piece has the new permission inside the range, and the old one outside. -/
lemma piece_prot {s : Region} (hs : s ∈ protectPieces at_ stop prot r) {x : BitVec 64} (hx : s.has x = true) :
    s.prot = if at_.toNat ≤ x.toNat ∧ x.toNat < stop.toNat then prot else r.prot := by
  rw [has_iff] at hx
  unfold protectPieces at hs
  by_cases hout : r.stop ≤ at_ ∨ stop ≤ r.start
  · rw [if_pos hout, List.mem_singleton] at hs
    subst hs
    simp only [BitVec.le_def] at hout
    rw [if_neg (by omega)]
  · rw [if_neg hout] at hs
    simp only [List.mem_append, List.mem_ite_nil_right, List.mem_singleton, BitVec.lt_def] at hs
    obtain (⟨-, rfl⟩ | rfl) | ⟨-, rfl⟩ := hs
    · rw [if_neg (by simp only at hx; omega)]
    · have hin : at_.toNat ≤ x.toNat ∧ x.toNat < stop.toNat := by
        simp only [toNat_if_lt] at hx
        split_ifs at hx <;> omega
      rw [if_pos hin]
    · rw [if_neg (by simp only at hx; omega)]

/-- Nothing is lost by the cutting. -/
lemma piece_exists {x : BitVec 64} (hx : r.has x = true) : ∃ s ∈ protectPieces at_ stop prot r, s.has x = true := by
  rw [has_iff] at hx
  unfold protectPieces
  by_cases hout : r.stop ≤ at_ ∨ stop ≤ r.start
  · rw [if_pos hout]
    exact ⟨r, List.mem_singleton_self r, (has_iff r x).mpr hx⟩
  · rw [if_neg hout]
    simp only [List.mem_append, List.mem_ite_nil_right, List.mem_singleton, BitVec.lt_def]
    by_cases hlo : x.toNat < at_.toNat
    · refine ⟨⟨r.start, at_, r.prot⟩, .inl (.inl ⟨by omega, rfl⟩), ?_⟩
      rw [has_iff]
      exact ⟨hx.1, hlo⟩
    by_cases hhi : stop.toNat ≤ x.toNat
    · refine ⟨⟨stop, r.stop, r.prot⟩, .inr ⟨by omega, rfl⟩, ?_⟩
      rw [has_iff]
      exact ⟨hhi, hx.2⟩
    · refine ⟨_, .inl (.inr rfl), ?_⟩
      rw [has_iff]
      simp only [toNat_if_lt]
      split_ifs <;> omega

lemma pieces_length (r : Region) : (protectPieces at_ stop prot r).length ≤ 3 := by
  unfold protectPieces
  split_ifs <;> simp

end Pieces

section Protected

variable {as : As} {h : Host} {at_ len : BitVec 64} {prot : BitVec 32}

lemma protect_reg (ha : h.alloc = true) (hlen : 0 < len) : rsdAsProtect h as at_ len prot = (0, { forget as with
    reg := as.reg.flatMap (protectPieces at_ (at_ + len) prot)
    cap := as.reg.length * 3 + 1 }) := by
  have h0 : len ≠ 0 := by bv_omega
  rw [rsdAsProtect, if_neg h0, if_pos ha]

lemma flatMap_pieces_length (l : List Region) (stop : BitVec 64) :
    (l.flatMap (protectPieces at_ stop prot)).length ≤ l.length * 3 := by
  induction l with
  | nil => exact Nat.le_refl 0
  | cons r rest ih =>
    have hr : (protectPieces at_ stop prot r).length ≤ 3 := pieces_length at_ stop prot r
    rw [List.flatMap_cons, List.length_append, List.length_cons]
    omega

lemma protect_tracked (ha : h.alloc = true) (hlen : 0 < len) (x : BitVec 64) :
    Tracked (rsdAsProtect h as at_ len prot).2 x ↔ Tracked as x := by
  rw [protect_reg ha hlen]
  constructor
  · rintro ⟨s, hs, hx⟩
    obtain ⟨r, hr, hsr⟩ := List.mem_flatMap.mp hs
    exact ⟨r, hr, protectPieces_has hsr x hx⟩
  · rintro ⟨r, hr, hx⟩
    obtain ⟨s, hs, hsx⟩ := piece_exists at_ (at_ + len) prot hx
    exact ⟨s, List.mem_flatMap.mpr ⟨r, hr, hs⟩, hsx⟩

lemma protect_consecutive (hi : Consecutive as.reg) (hw : at_.toNat + len.toNat < 2 ^ 64) :
    Consecutive (rsdAsProtect h as at_ len prot).2.reg := by
  refine consecutive_protect hi h fun hwrap => ?_
  bv_omega

/-- Every tracked address has one permission afterwards. -/
lemma protect_permAt (hi : Consecutive as.reg) (ha : h.alloc = true) (hlen : 0 < len)
    (hw : at_.toNat + len.toNat < 2 ^ 64) {r : Region} (hr : r ∈ as.reg) {x : BitVec 64} (hx : r.has x = true) :
    permAt (rsdAsProtect h as at_ len prot).2 x =
      some (if at_.toNat ≤ x.toNat ∧ x.toNat < (at_ + len).toNat then prot else r.prot) := by
  have hout : Consecutive (rsdAsProtect h as at_ len prot).2.reg := protect_consecutive hi hw
  obtain ⟨s, hs, hsx⟩ := piece_exists at_ (at_ + len) prot hx
  have hmem : s ∈ (rsdAsProtect h as at_ len prot).2.reg := by
    rw [protect_reg ha hlen]
    exact List.mem_flatMap.mpr ⟨r, hr, hs⟩
  rw [permAt_eq hout.apart hmem hsx, piece_prot at_ (at_ + len) prot hs hsx]

end Protected

/-- On a list of non-empty regions in order, `rsd_as_protect` gives every tracked address of the
range the permission, leaves every other address as it was, and writes no more regions than it has
room for. Where there is no memory for the list it changes nothing. -/
theorem protect_pointwise {as : As} (hord : WellOrdered as) (hap : as.reg.Pairwise Apart) (h : Host)
    (at_ len : BitVec 64) (prot : BitVec 32) (hlen : 0 < len) (hw : at_.toNat + len.toNat < 2 ^ 64) :
    let out := rsdAsProtect h as at_ len prot
    (WellOrdered out.2 ∧ out.2.reg.Pairwise Apart) ∧
    (∀ x, Tracked out.2 x ↔ Tracked as x) ∧
    (h.alloc = false → out = (-1, as)) ∧
    (h.alloc = true → out.1 = 0 ∧
      (∀ x, Tracked as x → InRange at_ len x → permAt out.2 x = some prot) ∧
      (∀ x, ¬ (Tracked as x ∧ InRange at_ len x) → permAt out.2 x = permAt as x) ∧
      out.2.cap = 3 * as.reg.length + 1 ∧ out.2.reg.length ≤ out.2.cap) := by
  intro out
  have hi : Consecutive as.reg := consecutive_iff.mpr ⟨hord, hap⟩
  have hout : Consecutive out.2.reg := protect_consecutive hi hw
  have hfail (hn : h.alloc = false) : out = (-1, as) := by
    have h0 : len ≠ 0 := by bv_omega
    have hn' : ¬ h.alloc = true := by
      rw [hn]
      decide
    show rsdAsProtect h as at_ len prot = (-1, as)
    rw [rsdAsProtect, if_neg h0, if_neg hn']
  have htracked : ∀ x, Tracked out.2 x ↔ Tracked as x := by
    intro x
    cases ha : h.alloc with
    | true => exact protect_tracked ha hlen x
    | false => rw [hfail ha]
  have hstop : (at_ + len).toNat = at_.toNat + len.toNat := by
    rw [BitVec.toNat_add]
    omega
  refine ⟨consecutive_iff.mp hout, htracked, hfail, fun ha => ?_⟩
  have hreg : out = (0, _) := protect_reg ha hlen
  refine ⟨congrArg Prod.fst hreg, ?_, ?_, ?_, ?_⟩
  · rintro x ⟨r, hr, hx⟩ hin
    have hin' : at_.toNat ≤ x.toNat ∧ x.toNat < at_.toNat + len.toNat := hin
    rw [protect_permAt hi ha hlen hw hr hx, hstop, if_pos hin']
  · intro x hno
    by_cases ht : Tracked as x
    · obtain ⟨r, hr, hx⟩ := ht
      have hnin : ¬ (at_.toNat ≤ x.toNat ∧ x.toNat < at_.toNat + len.toNat) := fun hin => hno ⟨⟨r, hr, hx⟩, hin⟩
      rw [protect_permAt hi ha hlen hw hr hx, hstop, if_neg hnin, permAt_eq hap hr hx]
    · have h1 : find out.2 x = none := find_none_iff.mpr fun ht' => ht ((htracked x).mp ht')
      have h2 : find as x = none := find_none_iff.mpr ht
      rw [permAt, permAt, h1, h2]
  · rw [hreg]
    exact congrArg (· + 1) (Nat.mul_comm _ _)
  · rw [hreg]
    exact Nat.le_succ_of_le (flatMap_pieces_length as.reg (at_ + len))

/-- The middle of a region made read-only. -/
theorem protect_pointwise_middle :
    Tracked oneRegion 0x100003000 ∧
      permAt (rsdAsProtect plainHost oneRegion 0x100002000 0x2000 rsdProtR).2 0x100003000 = some rsdProtR := by
  have ht : Tracked oneRegion 0x100003000 := ⟨⟨0x100000000, 0x100008000, 3⟩, by decide, by decide⟩
  have hord : WellOrdered oneRegion := by
    unfold WellOrdered
    decide
  have hap : oneRegion.reg.Pairwise Apart := List.pairwise_singleton _ _
  exact ⟨ht, ((protect_pointwise hord hap plainHost 0x100002000 0x2000 rsdProtR (by decide) (by decide)).2.2.2
    (by decide)).2.1 0x100003000 ht ⟨by decide, by decide⟩⟩

end Rashid.Proofs
