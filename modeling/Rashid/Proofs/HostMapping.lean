import Rashid.Proofs.RegionHits

/-!
# Tracked memory and the host's mappings

The host is the set of addresses it has mapped: a successful `mmap` adds its range and
`munmap` removes one. The region list follows other rules, dropping only whole regions, so
the two agree exactly as long as no removal cuts a region and no retried mapping wraps.
-/

namespace Rashid.Proofs

/-- Membership in `len` bytes from `base`, in unbounded arithmetic. -/
def InRange (base len x : BitVec 64) : Prop :=
  base.toNat ≤ x.toNat ∧ x.toNat < base.toNat + len.toNat

def hostEffect (m : BitVec 64 → Prop) : HostEvent → BitVec 64 → Prop
  | .mapped base len => fun x => m x ∨ InRange base len x
  | .unmapped base len => fun x => m x ∧ ¬ InRange base len x

def hostAfter (m : BitVec 64 → Prop) (evs : List HostEvent) : BitVec 64 → Prop :=
  evs.foldl hostEffect m

/-- The address-space system calls a guest can make, with its own arguments. -/
inductive VmCall where
  | mmap (at_ len : BitVec 64) (prot : BitVec 32) (fixed : Bool)
  | mprotect (at_ len : BitVec 64) (prot : BitVec 32)
  | munmap (at_ len : BitVec 64)
  deriving DecidableEq, Repr

def VmCall.run (h : Host) (as : As) : VmCall → As × List HostEvent
  | .mmap at_ len prot fixed => (rsdAsMap h as at_ len prot fixed).2
  | .mprotect at_ len prot => ((rsdAsProtect h as at_ len prot).2, [])
  | .munmap at_ len => (rsdAsUnmap h as at_ len).2

/-- The states reached by calls that each meet `ok` in the state they are made in. -/
inductive VmRun (ok : Host → As → VmCall → Prop) : As → (BitVec 64 → Prop) → Prop
  | init : VmRun ok rsdAsInit fun _ => False
  | call {as : As} {m : BitVec 64 → Prop} (h : Host) (v : VmCall) : VmRun ok as m → ok h as v →
      VmRun ok (v.run h as).1 (hostAfter m (v.run h as).2)

def Tracked (as : As) (x : BitVec 64) : Prop := ∃ r ∈ as.reg, r.has x = true

/-- The condition under which a call keeps the two in step. A removal must not cut a region.
A retried mapping must not wrap, since it asks for `hi` bytes and records `hi - lo`. A mapping
that cannot be recorded is taken away again, so it must not have replaced a tracked one. -/
def VmSafe (h : Host) (as : As) : VmCall → Prop
  | .mmap at_ len _ fixed =>
      (h.mmap (mapWant h at_) (mapSize h at_ len) (at_ != 0 && fixed) = none →
        mapLo h at_ ≤ mapHi h at_ len) ∧
      (as.reg.length = as.cap → h.alloc = false → ∀ p got, hostMap h at_ len fixed = some (p, got) →
        ∀ x, InRange p (mapSize h at_ len) x → ¬ Tracked as x)
  | .mprotect _ _ _ => True
  | .munmap at_ len =>
      h.munmap (pageDown h.page at_) (pageUp h.page (at_ + len) - pageDown h.page at_) = true →
      ∀ r ∈ as.reg,
        (pageDown h.page at_ ≤ r.start ∧ r.stop ≤ pageUp h.page (at_ + len)) ∨
        ∀ x, r.has x = true →
          ¬ InRange (pageDown h.page at_) (pageUp h.page (at_ + len) - pageDown h.page at_) x

lemma tracked_insertSorted {as : As} {l : List Region} {r : Region} {x : BitVec 64}
    (hl : l = insertSorted r as.reg) (hx : ∃ s ∈ l, s.has x = true) : r.has x = true ∨ Tracked as x := by
  obtain ⟨s, hs, hsx⟩ := hx
  rw [hl] at hs
  rcases mem_insertSorted.mp hs with rfl | hs
  · exact .inl hsx
  · exact .inr ⟨s, hs, hsx⟩

/-- What the kernel gave covers what is recorded. -/
lemma hostMap_covers {h : Host} {at_ len p got : BitVec 64} {fixed : Bool}
    (hm : hostMap h at_ len fixed = some (p, got))
    (hok : h.mmap (mapWant h at_) (mapSize h at_ len) (at_ != 0 && fixed) = none →
      mapLo h at_ ≤ mapHi h at_ len) : (mapSize h at_ len).toNat ≤ got.toNat := by
  unfold hostMap at hm
  split at hm
  · simp only [Option.some.injEq, Prod.mk.injEq] at hm
    exact Nat.le_of_eq (congrArg BitVec.toNat hm.2)
  next hnone =>
    split at hm
    next hat =>
      have hle := hok hnone
      split at hm
      · simp only [Option.some.injEq, Prod.mk.injEq] at hm
        have hne : at_ ≠ 0 := by simp at hat; exact hat.1
        rw [← hm.2, mapSize, if_neg hne]
        bv_omega
      · simp at hm
    · simp at hm

lemma has_inRange {p size x : BitVec 64} {prot : BitVec 32}
    (hx : (⟨p, p + size, prot⟩ : Region).has x = true) : InRange p size x := by
  rw [has_iff] at hx
  refine ⟨hx.1, Nat.lt_of_lt_of_le hx.2 ?_⟩
  rw [BitVec.toNat_add]
  exact Nat.mod_le _ _

lemma mmap_keeps {h : Host} {as : As} {m : BitVec 64 → Prop} {at_ len : BitVec 64} {prot : BitVec 32}
    {fixed : Bool} (hm : ∀ x, Tracked as x → m x)
    (hcov : ∀ p got, hostMap h at_ len fixed = some (p, got) → (mapSize h at_ len).toNat ≤ got.toNat)
    (hnew : as.reg.length = as.cap → h.alloc = false → ∀ p got, hostMap h at_ len fixed = some (p, got) →
      ∀ x, InRange p (mapSize h at_ len) x → ¬ Tracked as x) :
    ∀ x, Tracked ((VmCall.mmap at_ len prot fixed).run h as).1 x →
      hostAfter m ((VmCall.mmap at_ len prot fixed).run h as).2 x := by
  intro x hx
  simp only [VmCall.run, rsdAsMap] at hx ⊢
  split at hx
  next h0 => simpa [h0, hostAfter] using hm x hx
  next h0 =>
    rw [if_neg h0]
    split at hx
    next hnone => simpa [hnone, hostAfter] using hm x hx
    next p got hmap =>
      by_cases hfull : as.reg.length = as.cap ∧ h.alloc = false
      · have hins : insert h as p (p + mapSize h at_ len) prot = (false, forget as) := by
          rw [insert, if_pos hfull]
        rw [hins] at hx
        have hx' : Tracked as x := hx
        simp only [hins, hostAfter, List.foldl_cons, List.foldl_nil, hostEffect]
        exact ⟨.inl (hm x hx'), fun hr => hnew hfull.1 hfull.2 p got hmap x hr hx'⟩
      · have hins : ∃ cap, insert h as p (p + mapSize h at_ len) prot =
            (true, { forget as with reg := insertSorted ⟨p, p + mapSize h at_ len, prot⟩ as.reg, cap := cap }) := by
          rw [insert, if_neg hfull]
          exact ⟨_, rfl⟩
        obtain ⟨cap, hins⟩ := hins
        rw [hins] at hx
        simp only [hins, hostAfter, List.foldl_cons, List.foldl_nil, hostEffect]
        rcases tracked_insertSorted rfl hx with hnew | hold
        · have hr := has_inRange hnew
          have hle := hcov p got hmap
          exact .inr ⟨hr.1, by have := hr.2; omega⟩
        · exact .inl (hm x hold)

lemma mprotect_keeps {h : Host} {as : As} {m : BitVec 64 → Prop} {at_ len : BitVec 64}
    {prot : BitVec 32} (hm : ∀ x, Tracked as x → m x) :
    ∀ x, Tracked ((VmCall.mprotect at_ len prot).run h as).1 x →
      hostAfter m ((VmCall.mprotect at_ len prot).run h as).2 x := by
  rintro x ⟨s, hs, hsx⟩
  simp only [VmCall.run, rsdAsProtect] at hs
  change m x
  split at hs
  · exact hm x ⟨s, hs, hsx⟩
  split at hs
  · obtain ⟨r, hr, hsr⟩ := List.mem_flatMap.mp hs
    exact hm x ⟨r, hr, protectPieces_has hsr x hsx⟩
  · exact hm x ⟨s, hs, hsx⟩

lemma munmap_keeps {h : Host} {as : As} {m : BitVec 64 → Prop} {at_ len : BitVec 64}
    (hm : ∀ x, Tracked as x → m x) (hok : VmSafe h as (.munmap at_ len)) :
    ∀ x, Tracked ((VmCall.munmap at_ len).run h as).1 x →
      hostAfter m ((VmCall.munmap at_ len).run h as).2 x := by
  rintro x ⟨r, hr, hrx⟩
  simp only [VmCall.run, rsdAsUnmap] at hr ⊢
  split at hr
  next hdone =>
    simp only [List.mem_filter, Bool.not_eq_true', Bool.and_eq_false_iff, decide_eq_false_iff_not] at hr
    simp only [hdone, if_true, hostAfter, List.foldl_cons, List.foldl_nil, hostEffect]
    refine ⟨hm x ⟨r, hr.1, hrx⟩, ?_⟩
    rcases hok hdone r hr.1 with hin | hout
    · rcases hr.2 with hlo | hhi
      · exact absurd hin.1 hlo
      · exact absurd hin.2 hhi
    · exact hout x hrx
  next hfail =>
    simp only [hfail, Bool.false_eq_true, if_false, hostAfter, List.foldl_nil]
    exact hm x ⟨r, hr, hrx⟩

/-- In every run whose calls are all safe in the state they are made in, whatever is tracked
is mapped by the host. -/
theorem tracked_memory_mapped {as : As} {m : BitVec 64 → Prop} (hrun : VmRun VmSafe as m) :
    ∀ x, Tracked as x → m x := by
  induction hrun with
  | init =>
    rintro x ⟨r, hr, -⟩
    simp [rsdAsInit] at hr
  | call h v _ hok ih =>
    cases v with
    | mmap at_ len prot fixed => exact mmap_keeps ih (fun _ _ hm => hostMap_covers hm hok.1) hok.2
    | mprotect at_ len prot => exact mprotect_keeps ih
    | munmap at_ len => exact munmap_keeps ih hok

theorem tracked_memory_mapped_oneRegion :
    Tracked (VmCall.run plainHost rsdAsInit (.mmap 0 0x8000 3 false)).1 0x100000000 ∧
      hostAfter (fun _ => False) (VmCall.run plainHost rsdAsInit (.mmap 0 0x8000 3 false)).2 0x100000000 := by
  have hsafe : VmSafe plainHost rsdAsInit (.mmap 0 0x8000 3 false) :=
    ⟨fun h => by simp [plainHost] at h, fun _ h => by simp [plainHost] at h⟩
  have ht : Tracked (VmCall.run plainHost rsdAsInit (.mmap 0 0x8000 3 false)).1 0x100000000 :=
    ⟨⟨0x100000000, 0x100008000, 3⟩, by decide, by decide⟩
  exact ⟨ht, tracked_memory_mapped (.call plainHost (.mmap 0 0x8000 3 false) .init hsafe) _ ht⟩

/-- Unmapping the first 16K of a 32K mapping leaves the whole of it tracked. -/
theorem partial_munmap_leaves_tracked : ¬ ∀ as m, VmRun (fun _ _ _ => True) as m → ∀ x, Tracked as x → m x := by
  intro hall
  have hrun := VmRun.call plainHost (.munmap 0x100000000 0x4000)
    (VmRun.call plainHost (.mmap 0 0x8000 3 false) (@VmRun.init fun _ _ _ => True) trivial) trivial
  have hm := hall _ _ hrun 0x100000000 ⟨⟨0x100000000, 0x100008000, 3⟩, by decide, by decide⟩
  have hev : (VmCall.run plainHost (VmCall.run plainHost rsdAsInit (.mmap 0 0x8000 3 false)).1
      (.munmap 0x100000000 0x4000)).2 = [.unmapped 0x100000000 0x4000] := by decide
  rw [hev] at hm
  exact hm.2 ⟨by decide, by decide⟩

end Rashid.Proofs
