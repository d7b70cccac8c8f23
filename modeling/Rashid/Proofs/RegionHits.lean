import Rashid.AddressSpace

/-!
# The in-line region test

Compiled code skips the permission check when one unsigned compare puts the address inside
a noted region. The regions are kept pairwise apart by every operation on fresh ranges, and
every hit entry names a region that is still recorded, because each operation that changes
the list empties the entries first.
-/

namespace Rashid.Proofs

lemma has_iff (r : Region) (a : BitVec 64) :
    r.has a = true ↔ r.start.toNat ≤ a.toNat ∧ a.toNat < r.stop.toNat := by
  simp [Region.has, BitVec.le_def, BitVec.lt_def]

/-- No address lies in both regions. -/
def Apart (r s : Region) : Prop := ∀ x, r.has x = true → s.has x = true → False

lemma Apart.symm {r s : Region} (h : Apart r s) : Apart s r := fun x hs hr => h x hr hs

lemma Apart.of_sub {r s r' s' : Region} (h : Apart r s) (hr : ∀ x, r'.has x = true → r.has x = true)
    (hs : ∀ x, s'.has x = true → s.has x = true) : Apart r' s' :=
  fun x hr' hs' => h x (hr x hr') (hs x hs')

lemma find_eq_of_pairwise {l : List Region} (hl : l.Pairwise Apart) {r : Region} (hr : r ∈ l)
    {a : BitVec 64} (ha : r.has a = true) : l.find? (·.has a) = some r := by
  induction l with
  | nil => simp at hr
  | cons s rest ih =>
    rw [List.pairwise_cons] at hl
    rcases List.mem_cons.mp hr with rfl | hr
    · simp [ha]
    · have hs : s.has a = false := by
        by_contra hc
        exact hl.1 r hr a (by simpa using hc) ha
      rw [List.find?_cons, hs]
      exact ih hl.2 hr

lemma mem_insertSorted {r s : Region} {l : List Region} :
    s ∈ insertSorted r l ↔ s = r ∨ s ∈ l := by
  induction l with
  | nil => simp [insertSorted]
  | cons t rest ih =>
    simp only [insertSorted]
    split
    · simp only [List.mem_cons, ih]
      tauto
    · simp

lemma pairwise_insertSorted {r : Region} {l : List Region} (hl : l.Pairwise Apart)
    (hr : ∀ s ∈ l, Apart s r) : (insertSorted r l).Pairwise Apart := by
  induction l with
  | nil => simp [insertSorted]
  | cons t rest ih =>
    rw [List.pairwise_cons] at hl
    simp only [insertSorted]
    split
    · refine List.pairwise_cons.mpr ⟨?_, ih hl.2 fun s hs => hr s (List.mem_cons_of_mem _ hs)⟩
      intro s hs
      rcases mem_insertSorted.mp hs with rfl | hs
      · exact hr t List.mem_cons_self
      · exact hl.1 s hs
    · refine List.pairwise_cons.mpr ⟨fun s hs => (hr s hs).symm, List.pairwise_cons.mpr hl⟩

lemma toNat_if_lt (p : Prop) [Decidable p] (x y : BitVec 64) :
    (if p then x else y).toNat = if p then x.toNat else y.toNat := by
  split <;> rfl

/-- Splitting never makes a piece reach outside the region it came from. -/
lemma protectPieces_has {at_ stop : BitVec 64} {prot : BitVec 32} {r s : Region}
    (hs : s ∈ protectPieces at_ stop prot r) (x : BitVec 64) (hx : s.has x = true) : r.has x = true := by
  unfold protectPieces at hs
  split at hs
  · simp only [List.mem_singleton] at hs
    exact hs ▸ hx
  next hout =>
    simp only [not_or, BitVec.le_def, Nat.not_le] at hout
    rw [has_iff] at hx ⊢
    simp only [List.mem_append, List.mem_ite_nil_right, List.mem_singleton, BitVec.lt_def] at hs
    rcases hs with (⟨hlt, rfl⟩ | rfl) | ⟨hlt, rfl⟩
    · simp only at hx; omega
    · simp only [toNat_if_lt] at hx
      split_ifs at hx <;> omega
    · simp only at hx; omega

/-- With a range that does not wrap, the pieces of one region do not overlap. -/
lemma pairwise_protectPieces {at_ stop : BitVec 64} (hle : stop = 0 ∨ at_.toNat ≤ stop.toNat)
    (prot : BitVec 32) (r : Region) : (protectPieces at_ stop prot r).Pairwise Apart := by
  unfold protectPieces
  split
  · simp
  next hout =>
    simp only [not_or, BitVec.le_def, Nat.not_le] at hout
    have hle' : at_.toNat ≤ stop.toNat := by
      rcases hle with rfl | hle
      · simp at hout
      · exact hle
    have h12 : ∀ s ∈ (if r.start < at_ then [(⟨r.start, at_, r.prot⟩ : Region)] else []),
        ∀ x, s.has x = true → x.toNat < at_.toNat := by
      intro s hs x hx
      simp only [List.mem_ite_nil_right, List.mem_singleton] at hs
      obtain ⟨-, rfl⟩ := hs
      exact ((has_iff _ _).mp hx).2
    have h3 : ∀ s ∈ (if stop < r.stop then [(⟨stop, r.stop, r.prot⟩ : Region)] else []),
        ∀ x, s.has x = true → stop.toNat ≤ x.toNat := by
      intro s hs x hx
      simp only [List.mem_ite_nil_right, List.mem_singleton] at hs
      obtain ⟨-, rfl⟩ := hs
      exact ((has_iff _ _).mp hx).1
    have h2 : ∀ x, (⟨if at_ < r.start then r.start else at_, if r.stop < stop then r.stop else stop,
        prot⟩ : Region).has x = true → at_.toNat ≤ x.toNat ∧ x.toNat < stop.toNat := by
      intro x hx
      rw [has_iff] at hx
      simp only [toNat_if_lt, BitVec.lt_def] at hx
      split_ifs at hx <;> omega
    refine List.pairwise_append.mpr ⟨List.pairwise_append.mpr ⟨?_, List.pairwise_singleton _ _, ?_⟩, ?_, ?_⟩
    · split <;> simp
    · intro s hs t ht x hsx htx
      simp only [List.mem_singleton] at ht
      subst ht
      have h1 := h12 s hs x hsx
      have h2 := h2 x htx
      omega
    · split <;> simp
    · intro s hs t ht x hsx htx
      have h4 := h3 t ht x htx
      rcases List.mem_append.mp hs with hs | hs
      · have h1 := h12 s hs x hsx
        omega
      · simp only [List.mem_singleton] at hs
        subst hs
        have h2 := h2 x hsx
        omega

/-- A hit entry that can pass its test describes a region still recorded with the permission. -/
def HitNamed (l : List Region) (prot : BitVec 32) (e : Hit) : Prop :=
  e.lim = 0 ∨ ∃ r ∈ l, r.allows prot = true ∧ r.start = e.lo ∧
    r.start.toNat + 8 ≤ r.stop.toNat ∧ e.lim = r.stop - r.start - 7

def PairNamed (l : List Region) (prot : BitVec 32) (h : HitPair) : Prop :=
  HitNamed l prot h.first ∧ HitNamed l prot h.second

/-- Regions are pairwise apart and every hit entry names one of them. -/
structure HitInv (as : As) : Prop where
  apart : as.reg.Pairwise Apart
  rd : PairNamed as.reg rsdProtR as.rd
  wr : PairNamed as.reg rsdProtW as.wr

lemma pairNamed_empty (l : List Region) (prot : BitVec 32) : PairNamed l prot HitPair.empty :=
  ⟨.inl rfl, .inl rfl⟩

lemma hitInv_of_forgotten {as : As} {l : List Region} {cap : Nat} (hl : l.Pairwise Apart) :
    HitInv { forget as with reg := l, cap := cap } :=
  ⟨hl, pairNamed_empty _ _, pairNamed_empty _ _⟩

/-- The range a mapping request records, if the kernel grants it, holds no tracked address. -/
def FreshMap (h : Host) (as : As) (at_ len : BitVec 64) (fixed : Bool) : Prop :=
  ∀ p got, hostMap h at_ len fixed = some (p, got) →
    ∀ r ∈ as.reg, ∀ prot, Apart r ⟨p, p + mapSize h at_ len, prot⟩

lemma hitInv_insert {as : As} (hi : HitInv as) (h : Host) (start stop : BitVec 64) (prot : BitVec 32)
    (hf : ∀ r ∈ as.reg, Apart r ⟨start, stop, prot⟩) : HitInv (insert h as start stop prot).2 := by
  unfold insert
  split
  · exact ⟨hi.apart, pairNamed_empty _ _, pairNamed_empty _ _⟩
  · exact hitInv_of_forgotten (pairwise_insertSorted hi.apart hf)

lemma hitInv_map {as : As} (hi : HitInv as) (h : Host) (at_ len : BitVec 64) (prot : BitVec 32)
    (fixed : Bool) (hf : FreshMap h as at_ len fixed) : HitInv (rsdAsMap h as at_ len prot fixed).2.1 := by
  unfold rsdAsMap
  split
  · exact hi
  · split
    · exact hi
    next p got hm =>
      have hins := hitInv_insert hi h p (p + mapSize h at_ len) prot (fun r hr => hf p got hm r hr prot)
      split <;> simp_all

lemma hitInv_protect {as : As} (hi : HitInv as) (h : Host) (at_ len : BitVec 64) (prot : BitVec 32)
    (hw : at_.toNat + len.toNat ≤ 2 ^ 64) : HitInv (rsdAsProtect h as at_ len prot).2 := by
  unfold rsdAsProtect
  split
  · exact hi
  split
  · refine hitInv_of_forgotten (List.pairwise_flatMap.mpr ⟨fun r _ => ?_, ?_⟩)
    · refine pairwise_protectPieces ?_ prot r
      rcases Nat.lt_or_eq_of_le hw with hlt | heq
      · right
        rw [BitVec.toNat_add, Nat.mod_eq_of_lt hlt]
        omega
      · left
        apply BitVec.eq_of_toNat_eq
        rw [BitVec.toNat_add, heq]
        rfl
    · refine hi.apart.imp ?_
      intro r r' hrs s hs t ht
      exact hrs.of_sub (protectPieces_has hs) (protectPieces_has ht)
  · exact hi

lemma hitInv_unmap {as : As} (hi : HitInv as) (h : Host) (at_ len : BitVec 64) :
    HitInv (rsdAsUnmap h as at_ len).2.1 := by
  unfold rsdAsUnmap
  dsimp only
  split
  · exact ⟨hi.apart.sublist List.filter_sublist, pairNamed_empty _ _, pairNamed_empty _ _⟩
  · exact hi

lemma pairNamed_note {l : List Region} {prot : BitVec 32} {h : HitPair} (hp : PairNamed l prot h)
    {r : Region} (hr : r ∈ l) (ha : r.allows prot = true) (hlen : r.start.toNat + 8 ≤ r.stop.toNat) :
    PairNamed l prot (h.note r) := by
  unfold HitPair.note
  split
  · exact hp
  · exact ⟨.inr ⟨r, hr, ha, rfl, hlen, rfl⟩, hp.1⟩

lemma hitInv_note {as : As} (hi : HitInv as) (a : BitVec 64) (prot : BitVec 32) :
    HitInv (rsdAsNote as a prot) := by
  unfold rsdAsNote
  split
  · exact hi
  next r hfind =>
    have hr : r ∈ as.reg := List.mem_of_find?_eq_some hfind
    have hha : r.has a = true := by simpa using List.find?_some hfind
    split_ifs with h1 h2 h3 h4
    · exact hi
    · exact hi
    all_goals try exact hi
    all_goals
      have ha : r.allows prot = true := by simpa using h1
      have hlen : r.start.toNat + 8 ≤ r.stop.toNat := by
        rw [has_iff] at hha
        bv_omega
      subst prot
    · exact ⟨hi.apart, pairNamed_note hi.rd hr ha hlen, hi.wr⟩
    · exact ⟨hi.apart, hi.rd, pairNamed_note hi.wr hr ha hlen⟩

/-- Everything the translator does to the region list while a guest runs: mappings of fresh
ranges, protections and removals that do not wrap, and notes of any address. -/
inductive AsReachable : As → Prop
  | init : AsReachable rsdAsInit
  | map {as : As} (h : Host) (at_ len : BitVec 64) (prot : BitVec 32) (fixed : Bool) :
      AsReachable as → FreshMap h as at_ len fixed → AsReachable (rsdAsMap h as at_ len prot fixed).2.1
  | protect {as : As} (h : Host) (at_ len : BitVec 64) (prot : BitVec 32) :
      AsReachable as → at_.toNat + len.toNat ≤ 2 ^ 64 → AsReachable (rsdAsProtect h as at_ len prot).2
  | unmap {as : As} (h : Host) (at_ len : BitVec 64) :
      AsReachable as → at_.toNat + len.toNat ≤ 2 ^ 64 → AsReachable (rsdAsUnmap h as at_ len).2.1
  | note {as : As} (a : BitVec 64) (prot : BitVec 32) :
      AsReachable as → AsReachable (rsdAsNote as a prot)

lemma hitInv_of_reachable {as : As} (h : AsReachable as) : HitInv as := by
  induction h with
  | init => exact ⟨List.Pairwise.nil, pairNamed_empty _ _, pairNamed_empty _ _⟩
  | map h at_ len prot fixed _ hf ih => exact hitInv_map ih h at_ len prot fixed hf
  | protect h at_ len prot _ hw ih => exact hitInv_protect ih h at_ len prot hw
  | unmap h at_ len _ _ ih => exact hitInv_unmap ih h at_ len
  | note a prot _ ih => exact hitInv_note ih a prot

/-- A range inside the region found for its first byte passes the check in one turn. -/
lemma rangeCheck_of_region {as : As} {p : Region → Bool} {a n : BitVec 64} {r : Region}
    (hf : find as a = some r) (hp : p r = true) (hin : a.toNat + n.toNat ≤ r.stop.toNat) :
    rangeCheck as p a n = true := by
  have hlt := r.stop.isLt
  unfold rangeCheck
  split
  · rfl
  next hn0 =>
    have hpos : 0 < n.toNat := by
      rcases Nat.eq_zero_or_pos n.toNat with h | h
      · exact absurd (BitVec.eq_of_toNat_eq (by simpa using h)) hn0
      · exact h
    have hwrap : ¬ a + n < a := by
      simp only [BitVec.lt_def, BitVec.toNat_add]
      omega
    rw [if_neg hwrap]
    obtain ⟨m, hm⟩ : ∃ m, n.toNat = m + 1 := ⟨n.toNat - 1, by omega⟩
    have havail : n ≤ r.stop - a := by
      simp only [BitVec.le_def, BitVec.toNat_sub]
      omega
    rw [hm, rangeLoop]
    simp [hf, hp, havail]

lemma rsdAsOk_of_hit {as : As} (hl : as.reg.Pairwise Apart) {prot : BitVec 32} {e : Hit}
    (he : HitNamed as.reg prot e) {a n : BitVec 64} (hn : n.toNat ≤ 8) (ht : a - e.lo < e.lim) :
    rsdAsOk as a n prot = true := by
  rcases he with h0 | ⟨r, hr, hp, hlo, hlen, hlim⟩
  · rw [h0] at ht
    exact absurd ht (by simp [BitVec.lt_def])
  · -- the subtraction wraps below `lo`, so passing the compare bounds `a` on both sides
    have hlt := r.stop.isLt
    have hb : r.start.toNat ≤ a.toNat ∧ a.toNat + 8 ≤ r.stop.toNat := by
      rw [hlim, ← hlo] at ht
      bv_omega
    have hhas : r.has a = true := by
      rw [has_iff]
      omega
    exact rangeCheck_of_region (find_eq_of_pairwise hl hr hhas) hp (by omega)

/-- Whatever passes the one-compare test on a load or a store entry is allowed by the full
permission check, in every state the translator's own operations can reach. -/
theorem region_test_sound {as : As} (hr : AsReachable as) (a n : BitVec 64)
    (hn : n = 1 ∨ n = 2 ∨ n = 4 ∨ n = 8) :
    (∀ e, e = as.rd.first ∨ e = as.rd.second → a - e.lo < e.lim → rsdAsOk as a n rsdProtR = true) ∧
    (∀ e, e = as.wr.first ∨ e = as.wr.second → a - e.lo < e.lim → rsdAsOk as a n rsdProtW = true) := by
  have hi := hitInv_of_reachable hr
  have hn8 : n.toNat ≤ 8 := by
    rcases hn with rfl | rfl | rfl | rfl <;> simp
  constructor
  · rintro e (rfl | rfl) ht
    · exact rsdAsOk_of_hit hi.apart hi.rd.1 hn8 ht
    · exact rsdAsOk_of_hit hi.apart hi.rd.2 hn8 ht
  · rintro e (rfl | rfl) ht
    · exact rsdAsOk_of_hit hi.apart hi.wr.1 hn8 ht
    · exact rsdAsOk_of_hit hi.apart hi.wr.2 hn8 ht

/-- A kernel that grants every request at the same place, on 16K pages. -/
def plainHost : Host where
  page := 0x4000
  mmap := fun _ _ _ => some 0x100000000
  remap := fun _ => some 0x100000000
  munmap := fun _ _ => true
  alloc := true

def oneRegion : As := (rsdAsMap plainHost rsdAsInit 0 0x8000 3 false).2.1

theorem region_test_sound_oneRegion :
    (rsdAsNote oneRegion 0x100000000 rsdProtR).rd.first.test 0x100007ff8 = true ∧
      rsdAsOk (rsdAsNote oneRegion 0x100000000 rsdProtR) 0x100007ff8 8 rsdProtR = true := by
  have hm : AsReachable oneRegion :=
    .map plainHost 0 0x8000 3 false .init (fun _ _ _ r hr => by simp [rsdAsInit] at hr)
  have hn := AsReachable.note 0x100000000 rsdProtR hm
  exact ⟨by decide, (region_test_sound hn 0x100007ff8 8 (by simp)).1 _ (.inl rfl) (by decide)⟩

end Rashid.Proofs
