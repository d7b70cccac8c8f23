import Rashid.Proofs.HostMapping

/-!
# The order of the region list

`find`, and with it every permission check, goes through regions that are not empty and come in
the order of their starts. A sum that wraps breaks both, and so does memory that is granted a
second time because a removal had cut through the region that still records it.
-/

namespace Rashid.Proofs

def WellOrdered (as : As) : Prop :=
  (∀ r ∈ as.reg, r.start < r.stop) ∧ as.reg.Pairwise fun r s => r.start ≤ s.start

/-- What the kernel grants is page-aligned, lies below 2^47 and was free. -/
def KernelFree (h : Host) (m : BitVec 64 → Prop) : VmCall → Prop
  | .mmap at_ len _ fixed => ∀ p got, hostMap h at_ len fixed = some (p, got) →
      p &&& (h.page - 1) = 0 ∧ 0 < got.toNat ∧ p.toNat + got.toNat ≤ 2 ^ 47 ∧ ∀ x, InRange p got x → ¬ m x
  | _ => True

/-- The states of the region list and of the host's mappings that a guest's calls reach, each of
them meeting `ok` in the state it is made in. -/
inductive GuestRun (ok : Host → As → (BitVec 64 → Prop) → VmCall → Prop) : As → (BitVec 64 → Prop) → Prop
  | init : GuestRun ok rsdAsInit fun _ => False
  | call {as : As} {m : BitVec 64 → Prop} (h : Host) (v : VmCall) : GuestRun ok as m → ok h as m v →
      GuestRun ok (v.run h as).1 (hostAfter m (v.run h as).2)

/-- A mapping that the kernel refused at its hint, and that is asked for again anywhere, must not
wrap. A protection that wraps must meet no region on both sides of the gap it leaves. A removal
must not cut through a region. -/
def OrderSafe (h : Host) (as : As) : VmCall → Prop
  | .mmap at_ len _ fixed =>
      h.mmap (mapWant h at_) (mapSize h at_ len) (at_ != 0 && fixed) = none → at_ ≠ 0 → fixed = false →
        mapLo h at_ < mapHi h at_ len
  | .mprotect at_ len _ => at_ + len < at_ → ∀ r ∈ as.reg, r.stop ≤ at_ ∨ at_ + len ≤ r.start
  | .munmap at_ len => VmSafe h as (.munmap at_ len)

/-- Regions that are not empty and lie one behind the other. -/
structure Consecutive (l : List Region) : Prop where
  nonempty : ∀ r ∈ l, r.start.toNat < r.stop.toNat
  order : l.Pairwise fun r s => r.stop.toNat ≤ s.start.toNat

lemma Consecutive.wellOrdered {as : As} (h : Consecutive as.reg) : WellOrdered as := by
  refine ⟨fun r hr => BitVec.lt_def.mpr (h.nonempty r hr), ?_⟩
  refine h.order.imp_of_mem ?_
  intro r s hr _ hrs
  exact BitVec.le_def.mpr (Nat.le_trans (Nat.le_of_lt (h.nonempty r hr)) hrs)

lemma stop_le_of_apart {r s : Region} (hs : s.start.toNat < s.stop.toNat) (ha : Apart r s)
    (hrs : r.start.toNat ≤ s.start.toNat) : r.stop.toNat ≤ s.start.toNat := by
  by_contra hlt
  refine ha s.start ?_ ?_
  · rw [has_iff]
    omega
  · rw [has_iff]
    omega

lemma consecutive_insertSorted {l : List Region} {r : Region} (hl : Consecutive l)
    (hr : r.start.toNat < r.stop.toNat) (ha : ∀ s ∈ l, Apart s r) : Consecutive (insertSorted r l) := by
  refine ⟨fun s hs => ?_, ?_⟩
  · rcases mem_insertSorted.mp hs with rfl | hs
    · exact hr
    · exact hl.nonempty s hs
  induction l with
  | nil => exact List.pairwise_singleton _ _
  | cons t rest ih =>
    obtain ⟨hne, hord⟩ := hl
    rw [List.pairwise_cons] at hord
    have htail : Consecutive rest := ⟨fun s hs => hne s (List.mem_cons_of_mem t hs), hord.2⟩
    have ht := ha t List.mem_cons_self
    rw [insertSorted]
    by_cases hlt : t.start < r.start
    · rw [if_pos hlt]
      refine List.pairwise_cons.mpr ⟨fun s hs => ?_, ih htail fun s hs => ha s (List.mem_cons_of_mem t hs)⟩
      rcases mem_insertSorted.mp hs with rfl | hs
      · exact stop_le_of_apart hr ht (Nat.le_of_lt (BitVec.lt_def.mp hlt))
      · exact hord.1 s hs
    · rw [if_neg hlt]
      have hfirst : r.stop.toNat ≤ t.start.toNat :=
        stop_le_of_apart (hne t List.mem_cons_self) ht.symm (Nat.le_of_not_lt fun h => hlt (BitVec.lt_def.mpr h))
      refine List.pairwise_cons.mpr ⟨fun s hs => ?_, List.pairwise_cons.mpr hord⟩
      rcases List.mem_cons.mp hs with rfl | hs
      · exact hfirst
      · have h1 := hord.1 s hs
        have h2 := hne t List.mem_cons_self
        omega

/-! ### Each call -/

/-- A piece is not empty and lies inside the region it was cut from. -/
def PieceOf (r s : Region) : Prop :=
  r.start.toNat ≤ s.start.toNat ∧ s.start.toNat < s.stop.toNat ∧ s.stop.toNat ≤ r.stop.toNat

lemma protectPieces_pieceOf {at_ stop : BitVec 64} (prot : BitVec 32) {r : Region}
    (hr : r.start.toNat < r.stop.toNat) (hk : at_.toNat < stop.toNat ∨ r.stop ≤ at_ ∨ stop ≤ r.start) :
    (∀ s ∈ protectPieces at_ stop prot r, PieceOf r s) ∧
      (protectPieces at_ stop prot r).Pairwise fun s t => s.stop.toNat ≤ t.start.toNat := by
  unfold protectPieces
  by_cases hout : r.stop ≤ at_ ∨ stop ≤ r.start
  · rw [if_pos hout]
    refine ⟨fun s hs => ?_, List.pairwise_singleton _ _⟩
    rw [List.mem_singleton.mp hs]
    exact ⟨Nat.le_refl _, hr, Nat.le_refl _⟩
  · have hlt : at_.toNat < stop.toNat := hk.resolve_right hout
    rw [if_neg hout]
    simp only [not_or, BitVec.le_def, Nat.not_le] at hout
    obtain ⟨h1, h2⟩ := hout
    generalize hmid : (⟨if at_ < r.start then r.start else at_, if r.stop < stop then r.stop else stop, prot⟩ :
      Region) = mid
    have hstart : mid.start.toNat = max r.start.toNat at_.toNat := by
      rw [← hmid, toNat_if_lt]
      simp only [BitVec.lt_def]
      split <;> omega
    have hstop : mid.stop.toNat = min r.stop.toNat stop.toNat := by
      rw [← hmid, toNat_if_lt]
      simp only [BitVec.lt_def]
      split <;> omega
    have hleft : ∀ s ∈ (if r.start < at_ then [(⟨r.start, at_, r.prot⟩ : Region)] else []),
        PieceOf r s ∧ s.stop.toNat ≤ mid.start.toNat := by
      intro s hs
      rw [List.mem_ite_nil_right, List.mem_singleton, BitVec.lt_def] at hs
      obtain ⟨hlt, rfl⟩ := hs
      simp only [PieceOf]
      omega
    have hright : ∀ s ∈ (if stop < r.stop then [(⟨stop, r.stop, r.prot⟩ : Region)] else []),
        PieceOf r s ∧ mid.stop.toNat ≤ s.start.toNat := by
      intro s hs
      rw [List.mem_ite_nil_right, List.mem_singleton, BitVec.lt_def] at hs
      obtain ⟨hlt, rfl⟩ := hs
      simp only [PieceOf]
      omega
    have hpiece : PieceOf r mid := by
      simp only [PieceOf]
      omega
    refine ⟨fun s hs => ?_,
      List.pairwise_append.mpr ⟨List.pairwise_append.mpr ⟨?_, List.pairwise_singleton _ _, ?_⟩, ?_, ?_⟩⟩
    · rw [List.mem_append, List.mem_append, List.mem_singleton] at hs
      rcases hs with (hs | rfl) | hs
      · exact (hleft s hs).1
      · exact hpiece
      · exact (hright s hs).1
    · split <;> simp
    · intro s hs t ht
      rw [List.mem_singleton.mp ht]
      exact (hleft s hs).2
    · split <;> simp
    · intro s hs t ht
      have htr := (hright t ht).2
      rcases List.mem_append.mp hs with hs | hs
      · have hsl := (hleft s hs).2
        have hm := hpiece.2.1
        omega
      · rw [List.mem_singleton.mp hs]
        exact htr

lemma consecutive_protect {as : As} (hi : Consecutive as.reg) (h : Host) {at_ len : BitVec 64} {prot : BitVec 32}
    (hok : OrderSafe h as (.mprotect at_ len prot)) : Consecutive (rsdAsProtect h as at_ len prot).2.reg := by
  unfold rsdAsProtect
  by_cases h0 : len = 0
  · rw [if_pos h0]
    exact hi
  rw [if_neg h0]
  by_cases ha : h.alloc = true
  · rw [if_pos ha]
    have hk : ∀ r ∈ as.reg, at_.toNat < (at_ + len).toNat ∨ r.stop ≤ at_ ∨ at_ + len ≤ r.start := by
      intro r hr
      by_cases hw : at_ + len < at_
      · exact .inr (hok hw r hr)
      · left
        bv_omega
    have hp := fun r hr => protectPieces_pieceOf prot (hi.nonempty r hr) (hk r hr)
    refine ⟨fun s hs => ?_, List.pairwise_flatMap.mpr ⟨fun r hr => (hp r hr).2, ?_⟩⟩
    · obtain ⟨r, hr, hsr⟩ := List.mem_flatMap.mp hs
      exact ((hp r hr).1 s hsr).2.1
    · refine hi.order.imp_of_mem ?_
      intro r r' hr hr' hrr s hs t ht
      have h1 := ((hp r hr).1 s hs).2.2
      have h2 := ((hp r' hr').1 t ht).1
      omega
  · rw [if_neg ha]
    exact hi

lemma consecutive_unmap {as : As} (hi : Consecutive as.reg) (h : Host) (at_ len : BitVec 64) :
    Consecutive (rsdAsUnmap h as at_ len).2.1.reg := by
  unfold rsdAsUnmap
  dsimp only
  split
  · exact ⟨fun r hr => hi.nonempty r (List.mem_filter.mp hr).1, hi.order.sublist List.filter_sublist⟩
  · exact hi

/-- What is recorded for a granted mapping is not empty and lies inside what was granted. -/
lemma granted_region {h : Host} {as : As} {m : BitVec 64 → Prop} {at_ len p got : BitVec 64} {prot : BitVec 32}
    {fixed : Bool} (hfree : KernelFree h m (.mmap at_ len prot fixed))
    (hok : OrderSafe h as (.mmap at_ len prot fixed)) (hm : hostMap h at_ len fixed = some (p, got)) :
    0 < (mapSize h at_ len).toNat ∧ (mapSize h at_ len).toNat ≤ got.toNat := by
  have hpos := (hfree p got hm).2.1
  unfold hostMap at hm
  split at hm
  · simp only [Option.some.injEq, Prod.mk.injEq] at hm
    rw [hm.2]
    exact ⟨hpos, Nat.le_refl _⟩
  next hnone =>
    split at hm
    next hat =>
      simp only [Bool.and_eq_true, bne_iff_ne, Bool.not_eq_true'] at hat
      have hlt := hok hnone hat.1 hat.2
      split at hm
      · simp only [Option.some.injEq, Prod.mk.injEq] at hm
        rw [← hm.2, mapSize, if_neg hat.1]
        bv_omega
      · simp at hm
    · simp at hm

lemma consecutive_map {h : Host} {as : As} {m : BitVec 64 → Prop} {at_ len : BitVec 64} {prot : BitVec 32}
    {fixed : Bool} (hi : Consecutive as.reg) (hm : ∀ x, Tracked as x → m x)
    (hfree : KernelFree h m (.mmap at_ len prot fixed)) (hok : OrderSafe h as (.mmap at_ len prot fixed)) :
    Consecutive (rsdAsMap h as at_ len prot fixed).2.1.reg := by
  unfold rsdAsMap
  by_cases h0 : len = 0
  · rw [if_pos h0]
    exact hi
  rw [if_neg h0]
  cases hmap : hostMap h at_ len fixed with
  | none => exact hi
  | some pg =>
    obtain ⟨p, got⟩ := pg
    obtain ⟨hpos, hle⟩ := granted_region hfree hok hmap
    obtain ⟨-, -, htop, hnew⟩ := hfree p got hmap
    have hstop : (p + mapSize h at_ len).toNat = p.toNat + (mapSize h at_ len).toNat := by
      rw [BitVec.toNat_add]
      omega
    have hins : Consecutive (insertSorted ⟨p, p + mapSize h at_ len, prot⟩ as.reg) := by
      refine consecutive_insertSorted hi (by simp only; omega) fun s hs x hsx hx => ?_
      have hr := has_inRange hx
      exact hnew x ⟨hr.1, Nat.lt_of_lt_of_le hr.2 (by omega)⟩ (hm x ⟨s, hs, hsx⟩)
    by_cases hfull : as.reg.length = as.cap ∧ h.alloc = false
    · simp only [insert, if_pos hfull]
      exact hi
    · simp only [insert, if_neg hfull]
      exact hins

lemma orderSafe_keeps {h : Host} {as : As} {m : BitVec 64 → Prop} {v : VmCall} (hi : Consecutive as.reg)
    (hm : ∀ x, Tracked as x → m x) (hfree : KernelFree h m v) (hok : OrderSafe h as v) :
    Consecutive (v.run h as).1.reg ∧ ∀ x, Tracked (v.run h as).1 x → hostAfter m (v.run h as).2 x := by
  cases v with
  | mmap at_ len prot fixed =>
    refine ⟨consecutive_map hi hm hfree hok, mmap_keeps hm (fun p got hmap => (granted_region hfree hok hmap).2) ?_⟩
    intro _ _ p got hmap x hx htx
    have hle := (granted_region hfree hok hmap).2
    exact (hfree p got hmap).2.2.2 x ⟨hx.1, Nat.lt_of_lt_of_le hx.2 (by omega)⟩ (hm x htx)
  | mprotect at_ len prot => exact ⟨consecutive_protect hi h hok, mprotect_keeps hm⟩
  | munmap at_ len => exact ⟨consecutive_unmap hi h at_ len, munmap_keeps hm hok⟩

/-- In every run on a kernel that grants free memory, if no call wraps into or cuts through a
region, then every recorded region is non-empty and the list is in order in every state reached. -/
theorem region_list_well_ordered {as : As} {m : BitVec 64 → Prop}
    (hrun : GuestRun (fun h as m v => KernelFree h m v ∧ OrderSafe h as v) as m) : WellOrdered as := by
  have hinv : Consecutive as.reg ∧ ∀ x, Tracked as x → m x := by
    induction hrun with
    | init =>
      refine ⟨⟨fun r hr => absurd hr List.not_mem_nil, List.Pairwise.nil⟩, ?_⟩
      rintro x ⟨r, hr, -⟩
      exact absurd hr List.not_mem_nil
    | call h v _ hok ih => exact orderSafe_keeps ih.1 ih.2 hok.1 hok.2
  exact hinv.1.wellOrdered

/-- A kernel that grants 32K at one place and nothing else. -/
def smallHost : Host where
  page := 0x4000
  mmap := fun _ len _ => if len = 0x8000 then some 0x100000000 else none
  remap := fun _ => none
  munmap := fun _ _ => true
  alloc := true

lemma smallHost_free : KernelFree smallHost (fun _ => False) (.mmap 0 0x8000 3 false) := by
  have hmap : hostMap smallHost 0 0x8000 false = some (0x100000000, 0x8000) := by decide
  intro p got h
  rw [hmap] at h
  simp only [Option.some.injEq, Prod.mk.injEq] at h
  obtain ⟨rfl, rfl⟩ := h
  exact ⟨by decide, by decide, by decide, fun _ _ h => h⟩

theorem region_list_well_ordered_oneRegion :
    (VmCall.run smallHost rsdAsInit (.mmap 0 0x8000 3 false)).1.reg = [⟨0x100000000, 0x100008000, 3⟩] ∧
      WellOrdered (VmCall.run smallHost rsdAsInit (.mmap 0 0x8000 3 false)).1 :=
  ⟨by decide, region_list_well_ordered (.call smallHost (.mmap 0 0x8000 3 false) .init
    ⟨smallHost_free, fun h => by simp [smallHost, mapSize, mapHi, pageUp] at h⟩)⟩

/-- A protection from the middle of a region with a length that wraps to 4K below it leaves a
region whose end lies before its start. -/
theorem wrapped_mprotect_breaks_order :
    ¬ ∀ as m, GuestRun (fun h _ m v => KernelFree h m v) as m → WellOrdered as := by
  intro hall
  have hrun := GuestRun.call smallHost (.mprotect 0x100004000 0xfffffffffffff000 1)
    (GuestRun.call smallHost (.mmap 0 0x8000 3 false) (@GuestRun.init fun h _ m v => KernelFree h m v)
      smallHost_free) trivial
  have hbad := (hall _ _ hrun).1 ⟨0x100004000, 0x100003000, 1⟩ (by decide)
  exact absurd hbad (by decide)

end Rashid.Proofs
