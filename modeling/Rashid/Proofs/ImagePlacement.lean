import Mathlib.Data.List.Pairwise
import Rashid.Lib.Writes
import Rashid.Macho
import Rashid.Proofs.MapUnmap

/-!
# Where an image ends up

The span is one mapping, in which the segments keep their distances. The contents are copied, and
each segment's permission is set by a call of its own, whose answer nobody looks at.
-/

namespace Rashid.Proofs

/-! ### The span -/

lemma spanLo_le {segs : List Segment} {s : Segment} (hs : s ∈ segs) : spanLo segs ≤ s.vmaddr := by
  unfold spanLo
  generalize BitVec.allOnes 64 = lo
  have hfold (segs : List Segment) (lo : BitVec 64) :
      segs.foldl (fun lo s => if s.vmaddr < lo then s.vmaddr else lo) lo ≤ lo ∧
        ∀ s ∈ segs, segs.foldl (fun lo s => if s.vmaddr < lo then s.vmaddr else lo) lo ≤ s.vmaddr := by
    induction segs generalizing lo with
    | nil => exact ⟨BitVec.le_refl _, fun s hs => absurd hs List.not_mem_nil⟩
    | cons t rest ih =>
      rw [List.foldl_cons]
      obtain ⟨hle, hall⟩ := ih (if t.vmaddr < lo then t.vmaddr else lo)
      refine ⟨BitVec.le_trans hle ?_, fun s hs => ?_⟩
      · split
        · bv_omega
        · exact BitVec.le_refl _
      · rcases List.mem_cons.mp hs with rfl | hin
        · refine BitVec.le_trans hle ?_
          split
          · exact BitVec.le_refl _
          · bv_omega
        · exact hall s hin
  exact (hfold segs lo).2 s hs

lemma spanHi_ge {segs : List Segment} {s : Segment} (hs : s ∈ segs) : s.vmaddr + s.vmsize ≤ spanHi segs := by
  unfold spanHi
  generalize (0 : BitVec 64) = hi
  have hfold (segs : List Segment) (hi : BitVec 64) :
      hi ≤ segs.foldl (fun hi s => if hi < s.vmaddr + s.vmsize then s.vmaddr + s.vmsize else hi) hi ∧
        ∀ s ∈ segs, s.vmaddr + s.vmsize ≤
          segs.foldl (fun hi s => if hi < s.vmaddr + s.vmsize then s.vmaddr + s.vmsize else hi) hi := by
    induction segs generalizing hi with
    | nil => exact ⟨BitVec.le_refl _, fun s hs => absurd hs List.not_mem_nil⟩
    | cons t rest ih =>
      rw [List.foldl_cons]
      obtain ⟨hle, hall⟩ := ih (if hi < t.vmaddr + t.vmsize then t.vmaddr + t.vmsize else hi)
      refine ⟨BitVec.le_trans ?_ hle, fun s hs => ?_⟩
      · split
        · bv_omega
        · exact BitVec.le_refl _
      · rcases List.mem_cons.mp hs with rfl | hin
        · refine BitVec.le_trans ?_ hle
          split
          · exact BitVec.le_refl _
          · bv_omega
        · exact hall s hin
  exact (hfold segs hi).2 s hs

/-! ### The mapping -/

/-- What the kernel promises: a range that is not empty, below 2^47. -/
def KernelGrants (h : Host) (at_ len : BitVec 64) (fixed : Bool) : Prop :=
  ∀ p got, hostMap h at_ len fixed = some (p, got) → 0 < got.toNat ∧ p.toNat + got.toNat ≤ 2 ^ 47

/-- What a mapping into an empty address space records, and that the range asked for is in it. -/
structure MappedSpan (base len : BitVec 64) (out : As) (evs : List HostEvent) (prot : BitVec 32) (p size got : BitVec 64) :
    Prop where
  regions : out.reg = [⟨p, p + size, prot⟩]
  events : evs = [.mapped p got]
  above : p.toNat ≤ base.toNat
  below : base.toNat + len.toNat ≤ p.toNat + size.toNat
  covered : size.toNat ≤ got.toNat
  room : p.toNat + got.toNat ≤ 2 ^ 47

section Mapping

variable {h : Host} {as : As} {at_ len : BitVec 64} {prot : BitVec 32} {fixed : Bool}

/-- Rounding up covers, unless the result is nothing. -/
lemma pageUp_covers {k : Nat} (hk : k < 64) (hpage : h.page = BitVec.ofNat 64 (2 ^ k)) {a : BitVec 64}
    (ha : pageUp h.page a ≠ 0) : a.toNat ≤ (pageUp h.page a).toNat := by
  have ha64 := a.isLt
  have hcov := @fixed_covers h a 0 k hk hpage (by simpa using ha64) (by simpa using ha)
  simpa using hcov

/-- What was granted holds the range that was asked for, from the page of its first byte on. -/
lemma granted_span {k : Nat} (hk : k < 64) (hpage : h.page = BitVec.ofNat 64 (2 ^ k))
    (hgrants : KernelGrants h at_ len fixed) (hw : at_.toNat + len.toNat < 2 ^ 64) {p got : BitVec 64}
    (hm : hostMap h at_ len fixed = some (p, got)) :
    (mapSize h at_ len).toNat ≤ got.toNat ∧
      at_.toNat + len.toNat ≤ (mapLo h at_).toNat + (mapSize h at_ len).toNat := by
  obtain ⟨hpos, -⟩ := hgrants p got hm
  have hlo : (mapLo h at_).toNat ≤ at_.toNat := pageDown_le h.page at_
  by_cases hat : at_ = 0
  · have hsize : got = mapSize h at_ len := by
      unfold hostMap at hm
      simp only [hat, bne_self_eq_false, Bool.false_and, Bool.false_eq_true, if_false] at hm ⊢
      split at hm
      · exact ((Prod.mk.inj (Option.some.inj hm)).2).symm
      · cases hm
    have hhi : mapSize h at_ len = pageUp h.page len := by rw [mapSize, if_pos hat, mapHi, if_pos hat]
    have hcov : len.toNat ≤ (pageUp h.page len).toNat := by
      apply pageUp_covers hk hpage
      rw [← hhi, ← hsize]
      bv_omega
    rw [hsize, hhi, hat]
    exact ⟨Nat.le_refl _, by simpa using Nat.le_add_left_of_le hcov⟩
  · have hhi : mapHi h at_ len = pageUp h.page (at_ + len) := by rw [mapHi, if_neg hat]
    have hsize : mapSize h at_ len = mapHi h at_ len - mapLo h at_ := by rw [mapSize, if_neg hat]
    have hcov : mapHi h at_ len ≠ 0 → at_.toNat + len.toNat ≤ (mapHi h at_ len).toNat := by
      intro hne
      rw [hhi] at hne ⊢
      have hup := pageUp_covers hk hpage hne
      rwa [BitVec.toNat_add, Nat.mod_eq_of_lt hw] at hup
    unfold hostMap at hm
    split at hm
    · obtain rfl := (Prod.mk.inj (Option.some.inj hm)).2
      refine ⟨Nat.le_refl _, ?_⟩
      by_cases hz : mapHi h at_ len = 0
      · rw [hsize, hz] at hpos ⊢
        bv_omega
      · have hge := hcov hz
        rw [hsize]
        bv_omega
    · split at hm
      · split at hm
        · obtain rfl := (Prod.mk.inj (Option.some.inj hm)).2
          have hge := hcov (by bv_omega)
          rw [hsize]
          constructor
          · bv_omega
          · bv_omega
        · cases hm
      · cases hm

lemma map_span {k : Nat} (hk : k < 64) (hpage : h.page = BitVec.ofNat 64 (2 ^ k))
    (hgrants : KernelGrants h at_ len fixed) (hreg : as.reg = []) (hw : at_.toNat + len.toNat < 2 ^ 64)
    (hbase : (rsdAsMap h as at_ len prot fixed).1 ≠ 0) :
    ∃ p size got, MappedSpan (rsdAsMap h as at_ len prot fixed).1 len (rsdAsMap h as at_ len prot fixed).2.1
      (rsdAsMap h as at_ len prot fixed).2.2 prot p size got := by
  unfold rsdAsMap at hbase ⊢
  by_cases h0 : len = 0
  · rw [if_pos h0] at hbase
    exact absurd rfl hbase
  rw [if_neg h0] at hbase ⊢
  cases hm : hostMap h at_ len fixed with
  | none =>
    rw [hm] at hbase
    exact absurd rfl hbase
  | some pg =>
    obtain ⟨p, got⟩ := pg
    obtain ⟨hle, hspan⟩ := granted_span hk hpage hgrants hw hm
    have hroom := (hgrants p got hm).2
    have hlo : (mapLo h at_).toNat ≤ at_.toNat := pageDown_le h.page at_
    rw [hm] at hbase
    by_cases hfull : as.reg.length = as.cap ∧ h.alloc = false
    · simp only [insert, if_pos hfull] at hbase
      exact absurd rfl hbase
    · simp only [insert, if_neg hfull]
      have hnew : insertSorted ⟨p, p + mapSize h at_ len, prot⟩ as.reg = [⟨p, p + mapSize h at_ len, prot⟩] := by
        rw [hreg]
        rfl
      refine ⟨p, mapSize h at_ len, got, hnew, rfl, ?_, ?_, hle, hroom⟩
      · split
        next hsame =>
          simp only [Bool.and_eq_true, bne_iff_ne, beq_iff_eq, mapWant] at hsame
          rw [if_neg hsame.1] at hsame
          rw [hsame.2]
          exact hlo
        · exact Nat.le_refl _
      · split
        next hsame =>
          simp only [Bool.and_eq_true, bne_iff_ne, beq_iff_eq, mapWant] at hsame
          rw [if_neg hsame.1] at hsame
          rw [hsame.2]
          exact hspan
        · omega

end Mapping

/-! ### Contents -/

/-- The copy of one segment's contents. -/
def segmentWrite (slice : BitVec 64 → BitVec 8) (slide : BitVec 64) (s : Segment) : Write :=
  (s.vmaddr + slide, (List.range s.filesize.toNat).map fun i => slice (s.fileoff + BitVec.ofNat 64 i))

lemma copySegment_eq (slice : BitVec 64 → BitVec 8) (slide : BitVec 64) (m : Mem) (s : Segment) :
    copySegment slice slide m s = poke m (segmentWrite slice slide s).1 (segmentWrite slice slide s).2 := by
  funext x
  rw [copySegment, poke, segmentWrite]
  by_cases hx : inWindow (s.vmaddr + slide) s.filesize.toNat x
  · have hlt : (x - (s.vmaddr + slide)).toNat < s.filesize.toNat := hx
    rw [if_pos hx, List.getD_eq_getElem _ _ (by simpa using hlt), List.getElem_map, List.getElem_range,
      BitVec.ofNat_toNat, BitVec.setWidth_eq]
  · have hge : s.filesize.toNat ≤ (x - (s.vmaddr + slide)).toNat := Nat.le_of_not_lt hx
    rw [if_neg hx, List.getD_eq_default _ _ (by simpa using hge)]

lemma copies_eq (slice : BitVec 64 → BitVec 8) (slide : BitVec 64) (segs : List Segment) (m : Mem) :
    segs.foldl (copySegment slice slide) m = pokeAll m (segs.map (segmentWrite slice slide)) := by
  induction segs generalizing m with
  | nil => rfl
  | cons s rest ih =>
    rw [List.foldl_cons, ih, List.map_cons, pokeAll_cons, copySegment_eq]

/-! ### Permissions -/

section Permissions

variable {as : As} {slide : BitVec 64}

/-- One call for a permission, with or without memory for the list. -/
lemma protect_call (hi : Consecutive as.reg) (h : Host) {a len : BitVec 64} {prot : BitVec 32}
    (hw : a.toNat + len.toNat < 2 ^ 64) :
    Consecutive (rsdAsProtect h as a len prot).2.reg ∧ (∀ x, Tracked (rsdAsProtect h as a len prot).2 x ↔ Tracked as x) ∧
      ∀ x, Tracked as x →
        (h.alloc = true ∧ InRange a len x → permAt (rsdAsProtect h as a len prot).2 x = some prot) ∧
        (¬ (h.alloc = true ∧ InRange a len x) → permAt (rsdAsProtect h as a len prot).2 x = permAt as x) := by
  by_cases h0 : len = 0
  · have hsame : rsdAsProtect h as a len prot = (0, as) := by rw [rsdAsProtect, if_pos h0]
    rw [hsame]
    refine ⟨hi, fun x => Iff.rfl, fun x _ => ⟨?_, fun _ => rfl⟩⟩
    rintro ⟨-, hlo, hhi⟩
    rw [h0] at hhi
    exact absurd hlo (Nat.not_le.mpr hhi)
  have hpos : 0 < len := by bv_omega
  cases ha : h.alloc with
  | false =>
    have hsame : rsdAsProtect h as a len prot = (-1, as) := by
      rw [rsdAsProtect, if_neg h0, if_neg]
      rw [ha]
      decide
    rw [hsame]
    exact ⟨hi, fun x => Iff.rfl, fun x _ => ⟨fun hc => absurd hc.1 Bool.false_ne_true, fun _ => rfl⟩⟩
  | true =>
    refine ⟨protect_consecutive hi hw, protect_tracked ha hpos, fun x hx => ?_⟩
    obtain ⟨r, hr, hrx⟩ := hx
    have hstop : (a + len).toNat = a.toNat + len.toNat := by
      rw [BitVec.toNat_add]
      omega
    rw [protect_permAt hi ha hpos hw hr hrx, hstop, permAt_eq hi.apart hr hrx]
    constructor
    · rintro ⟨-, hin⟩
      exact congrArg some (if_pos hin)
    · intro hno
      have hout : ¬ (a.toNat ≤ x.toNat ∧ x.toNat < a.toNat + len.toNat) := fun hin => hno ⟨rfl, hin⟩
      exact congrArg some (if_neg hout)

/-- A call that gives the address its segment's permission. -/
def Grants (slide : BitVec 64) (q : Segment × Host) (x : BitVec 64) : Prop :=
  q.2.alloc = true ∧ InRange (q.1.vmaddr + slide) q.1.vmsize x

/-- All the calls. Since the segments are apart, no later one undoes what an earlier one has done. -/
lemma protectSegments_perm {l : List (Segment × Host)} (hi : Consecutive as.reg)
    (hw : ∀ q ∈ l, (q.1.vmaddr + slide).toNat + q.1.vmsize.toNat < 2 ^ 64)
    (hap : l.Pairwise fun q q' => ∀ x, ¬ (InRange (q.1.vmaddr + slide) q.1.vmsize x ∧
      InRange (q'.1.vmaddr + slide) q'.1.vmsize x)) :
    (∀ x, Tracked (protectSegments slide l as) x ↔ Tracked as x) ∧
      (∀ q ∈ l, ∀ x, Tracked as x → Grants slide q x →
        permAt (protectSegments slide l as) x = some (q.1.initprot &&& 7)) ∧
      ∀ x, Tracked as x → (∀ q ∈ l, ¬ Grants slide q x) → permAt (protectSegments slide l as) x = permAt as x := by
  induction l generalizing as with
  | nil => exact ⟨fun x => Iff.rfl, fun q hq => absurd hq List.not_mem_nil, fun x _ _ => rfl⟩
  | cons q rest ih =>
    obtain ⟨hhead, htail⟩ := List.pairwise_cons.mp hap
    obtain ⟨hi', htracked, hperm⟩ := @protect_call as hi q.2 _ _ (q.1.initprot &&& 7) (hw q List.mem_cons_self)
    obtain ⟨hout, hin, hother⟩ := ih hi' (fun q' hq' => hw q' (List.mem_cons_of_mem q hq')) htail
    refine ⟨fun x => (hout x).trans (htracked x), ?_, ?_⟩
    · intro q' hq' x hx hg
      rcases List.mem_cons.mp hq' with rfl | hrest
      · have hno : ∀ q'' ∈ rest, ¬ Grants slide q'' x := fun q'' hq'' hg' => hhead q'' hq'' x ⟨hg.2, hg'.2⟩
        exact (hother x ((htracked x).mpr hx) hno).trans ((hperm x hx).1 hg)
      · exact hin q' hrest x ((htracked x).mpr hx) hg
    · intro x hx hno
      have hrest : ∀ q' ∈ rest, ¬ Grants slide q' x := fun q' hq' => hno q' (List.mem_cons_of_mem q hq')
      exact (hother x ((htracked x).mpr hx) hrest).trans ((hperm x hx).2 (hno q List.mem_cons_self))

end Permissions

/-! ### The whole image -/

/-- Segments that are apart, do not wrap and have room for their contents. -/
structure GoodSegments (segs : List Segment) : Prop where
  nonempty : segs ≠ []
  noWrap : ∀ s ∈ segs, s.vmaddr.toNat + s.vmsize.toNat < 2 ^ 64
  contents : ∀ s ∈ segs, s.filesize.toNat ≤ s.vmsize.toNat
  apart : segs.Pairwise fun s t => ∀ x, ¬ (InRange s.vmaddr s.vmsize x ∧ InRange t.vmaddr t.vmsize x)

/-- Contents, permissions and distances of a placed image, byte by byte. -/
structure ImagePlaced (slice : BitVec 64 → BitVec 8) (segs : List Segment) (slide : BitVec 64) (as : As) (m : Mem) :
    Prop where
  contents : ∀ s ∈ segs, ∀ i < s.vmsize.toNat, m (s.vmaddr + slide + BitVec.ofNat 64 i) =
    if i < s.filesize.toNat then slice (s.fileoff + BitVec.ofNat 64 i) else 0
  permission : ∀ s ∈ segs, ∀ i < s.vmsize.toNat,
    permAt as (s.vmaddr + slide + BitVec.ofNat 64 i) = some (s.initprot &&& 7)
  between : ∀ x, Tracked as x → (∀ s ∈ segs, ¬ InRange (s.vmaddr + slide) s.vmsize x) →
    permAt as x = some (rsdProtR ||| rsdProtW)
  distances : ∀ s ∈ segs, ∀ t ∈ segs,
    (s.vmaddr + slide).toNat + t.vmaddr.toNat = (t.vmaddr + slide).toNat + s.vmaddr.toNat

/-- A segment that gets its permission: its call had memory, or nothing to do. -/
def PermissionSet (q : Segment × Host) : Prop :=
  q.1.vmsize = 0 ∨ q.2.alloc = true ∨ q.1.initprot &&& 7 = rsdProtR ||| rsdProtW

/-- Two members of a list that are not the same, in either order. -/
lemma pairwise_of_ne {α : Type} {R : α → α → Prop} {l : List α} (hsymm : ∀ a b, R a b → R b a) (h : l.Pairwise R)
    {a b : α} (ha : a ∈ l) (hb : b ∈ l) (hne : a ≠ b) : R a b := by
  have : Std.Symm R := ⟨hsymm⟩
  exact h.forall ha hb hne

section Placed

variable {segs : List Segment} {base p size got : BitVec 64} {out : As} {evs : List HostEvent}

lemma span_order (hg : GoodSegments segs) : (spanLo segs).toNat ≤ (spanHi segs).toNat := by
  obtain ⟨s, hs⟩ := List.exists_mem_of_ne_nil segs hg.nonempty
  have hlo := spanLo_le hs
  have hhi := spanHi_ge hs
  have hw := hg.noWrap s hs
  bv_omega

/-- A segment keeps its distance from the start of the span. -/
lemma slid_toNat (hg : GoodSegments segs)
    (hspan : MappedSpan base (spanHi segs - spanLo segs) out evs (rsdProtR ||| rsdProtW) p size got) {s : Segment}
    (hs : s ∈ segs) :
    (s.vmaddr + (base - spanLo segs)).toNat + (spanLo segs).toNat = base.toNat + s.vmaddr.toNat ∧
      (spanLo segs).toNat ≤ s.vmaddr.toNat ∧
      (s.vmaddr + (base - spanLo segs)).toNat + s.vmsize.toNat ≤ p.toNat + size.toNat := by
  have hlo := BitVec.le_def.mp (spanLo_le hs)
  have hhi := BitVec.le_def.mp (spanHi_ge hs)
  have hw := hg.noWrap s hs
  have hbelow := hspan.below
  have hroom := hspan.room
  have hcov := hspan.covered
  have horder := span_order hg
  have hend : (s.vmaddr + s.vmsize).toNat = s.vmaddr.toNat + s.vmsize.toNat := by
    rw [BitVec.toNat_add, Nat.mod_eq_of_lt hw]
  have hlen : (spanHi segs - spanLo segs).toNat = (spanHi segs).toNat - (spanLo segs).toNat := by
    bv_omega
  rw [hend] at hhi
  rw [hlen] at hbelow
  have hslid : (s.vmaddr + (base - spanLo segs)).toNat + (spanLo segs).toNat = base.toNat + s.vmaddr.toNat := by
    bv_omega
  exact ⟨hslid, hlo, by omega⟩

lemma slid_apart (hg : GoodSegments segs)
    (hspan : MappedSpan base (spanHi segs - spanLo segs) out evs (rsdProtR ||| rsdProtW) p size got) :
    segs.Pairwise fun s t => ∀ x, ¬ (InRange (s.vmaddr + (base - spanLo segs)) s.vmsize x ∧
      InRange (t.vmaddr + (base - spanLo segs)) t.vmsize x) := by
  refine hg.apart.imp_of_mem ?_
  rintro s t hs ht hap x ⟨hxs, hxt⟩
  obtain ⟨hsb, hslo, -⟩ := slid_toNat hg hspan hs
  obtain ⟨htb, htlo, -⟩ := slid_toNat hg hspan ht
  have hws := hg.noWrap s hs
  have hback : (x - (base - spanLo segs)).toNat + base.toNat = x.toNat + (spanLo segs).toNat := by
    have h1 := hxs.1
    have h2 := hxs.2
    bv_omega
  refine hap (x - (base - spanLo segs)) ⟨⟨?_, ?_⟩, ⟨?_, ?_⟩⟩
  · have := hxs.1
    omega
  · have := hxs.2
    omega
  · have := hxt.1
    omega
  · have := hxt.2
    omega

/-- Every byte of a segment is recorded, in the one region there is. -/
lemma slid_tracked (hg : GoodSegments segs)
    (hspan : MappedSpan base (spanHi segs - spanLo segs) out evs (rsdProtR ||| rsdProtW) p size got) {s : Segment}
    (hs : s ∈ segs) {x : BitVec 64} (hx : InRange (s.vmaddr + (base - spanLo segs)) s.vmsize x) : Tracked out x := by
  obtain ⟨hsb, hslo, htop⟩ := slid_toNat hg hspan hs
  have habove := hspan.above
  have hroom := hspan.room
  have hcov := hspan.covered
  refine ⟨⟨p, p + size, rsdProtR ||| rsdProtW⟩, ?_, (has_iff _ x).mpr ⟨?_, ?_⟩⟩
  · rw [hspan.regions]
    exact List.mem_cons_self
  · have := hx.1
    simp only
    omega
  · have := hx.2
    simp only [BitVec.toNat_add]
    omega

/-- Before any segment's permission is set, all there is can be read and written. -/
lemma span_perm (hspan : MappedSpan base (spanHi segs - spanLo segs) out evs (rsdProtR ||| rsdProtW) p size got)
    {x : BitVec 64} (hx : Tracked out x) : permAt out x = some (rsdProtR ||| rsdProtW) := by
  obtain ⟨r, hr, hrx⟩ := hx
  have hap : out.reg.Pairwise Apart := by
    rw [hspan.regions]
    exact List.pairwise_singleton _ _
  rw [permAt_eq hap hr hrx]
  rw [hspan.regions, List.mem_singleton] at hr
  rw [hr]

lemma span_consecutive (hspan : MappedSpan base (spanHi segs - spanLo segs) out evs (rsdProtR ||| rsdProtW) p size got)
    (hsize : 0 < size.toNat) : Consecutive out.reg := by
  have hroom := hspan.room
  have hcov := hspan.covered
  rw [hspan.regions]
  refine ⟨fun r hr => ?_, List.pairwise_singleton _ _⟩
  rw [List.mem_singleton.mp hr]
  simp only [BitVec.toNat_add]
  omega

lemma ofNat_inRange {a len : BitVec 64} (h : a.toNat + len.toNat < 2 ^ 64) {i : Nat} (hi : i < len.toNat) :
    InRange a len (a + BitVec.ofNat 64 i) := by
  unfold InRange
  rw [BitVec.toNat_add, BitVec.toNat_ofNat]
  omega

/-- The contents, and zeroes behind them. -/
lemma placed_contents (hg : GoodSegments segs)
    (hspan : MappedSpan base (spanHi segs - spanLo segs) out evs (rsdProtR ||| rsdProtW) p size got)
    (slice : BitVec 64 → BitVec 8) (m : Mem) {s : Segment} (hs : s ∈ segs) {i : Nat} (hi : i < s.vmsize.toNat) :
    segs.foldl (copySegment slice (base - spanLo segs)) (evs.foldl zeroFill m)
        (s.vmaddr + (base - spanLo segs) + BitVec.ofNat 64 i) =
      if i < s.filesize.toNat then slice (s.fileoff + BitVec.ofNat 64 i) else 0 := by
  have hroom := hspan.room
  have hcov := hspan.covered
  have hin (t : Segment) (ht : t ∈ segs) (x : BitVec 64)
      (hx : (segmentWrite slice (base - spanLo segs) t).covers x) :
      InRange (t.vmaddr + (base - spanLo segs)) t.vmsize x ∧
        (x - (t.vmaddr + (base - spanLo segs))).toNat < t.filesize.toNat := by
    have hlt : (x - (t.vmaddr + (base - spanLo segs))).toNat < t.filesize.toNat := by
      simpa [segmentWrite, Write.covers, inWindow] using hx
    obtain ⟨-, -, htop⟩ := slid_toNat hg hspan ht
    have hfile := hg.contents t ht
    refine ⟨?_, hlt⟩
    unfold InRange
    bv_omega
  have hap : WritesApart (segs.map (segmentWrite slice (base - spanLo segs))) := by
    refine List.pairwise_map.mpr ((slid_apart hg hspan).imp_of_mem ?_)
    intro t u ht hu htu x hxt hxu
    exact htu x ⟨(hin t ht x hxt).1, (hin u hu x hxu).1⟩
  obtain ⟨hsb, hslo, htop⟩ := slid_toNat hg hspan hs
  have hsub : (s.vmaddr + (base - spanLo segs) + BitVec.ofNat 64 i - (s.vmaddr + (base - spanLo segs))).toNat = i := by
    have hv := s.vmsize.isLt
    bv_omega
  have hrange := @ofNat_inRange (s.vmaddr + (base - spanLo segs)) s.vmsize (by omega) i hi
  rw [copies_eq]
  by_cases hfile : i < s.filesize.toNat
  · have hcovers : (segmentWrite slice (base - spanLo segs) s).covers
        (s.vmaddr + (base - spanLo segs) + BitVec.ofNat 64 i) := by
      unfold Write.covers inWindow segmentWrite
      simp only [hsub, List.length_map, List.length_range]
      exact hfile
    rw [if_pos hfile, pokeAll_inside hap (List.mem_map_of_mem hs) hcovers 0, segmentWrite]
    simp only [hsub]
    rw [List.getD_eq_getElem _ _ (by simpa using hfile), List.getElem_map, List.getElem_range]
  · rw [if_neg hfile, pokeAll_outside]
    · rw [hspan.events]
      have hzero : inWindow p got.toNat (s.vmaddr + (base - spanLo segs) + BitVec.ofNat 64 i) := by
        have h1 := hrange.1
        have h2 := hrange.2
        have habove := hspan.above
        unfold inWindow
        bv_omega
      exact if_pos hzero
    · intro w hw hcovers
      obtain ⟨t, ht, rfl⟩ := List.mem_map.mp hw
      obtain ⟨hxt, hlt⟩ := hin t ht _ hcovers
      by_cases hts : t = s
      · subst hts
        omega
      · exact pairwise_of_ne (fun _ _ h x hx => h x hx.symm) (slid_apart hg hspan) ht hs hts _ ⟨hxt, hrange⟩

lemma zip_fst {hs : List Host} (hlen : hs.length = segs.length) : (segs.zip hs).map Prod.fst = segs :=
  List.map_fst_zip (Nat.le_of_eq hlen.symm)

lemma zip_pairwise {hs : List Host} (hlen : hs.length = segs.length) {R : Segment → Segment → Prop}
    (h : segs.Pairwise R) : (segs.zip hs).Pairwise fun q q' => R q.1 q'.1 := by
  rw [← zip_fst hlen] at h
  exact List.pairwise_map.mp h

lemma placed_iff (hg : GoodSegments segs)
    (hspan : MappedSpan base (spanHi segs - spanLo segs) out evs (rsdProtR ||| rsdProtW) p size got)
    (hsize : 0 < size.toNat) {hs : List Host} (hlen : hs.length = segs.length) (slice : BitVec 64 → BitVec 8) (m : Mem) :
    ImagePlaced slice segs (base - spanLo segs) (protectSegments (base - spanLo segs) (segs.zip hs) out)
        (segs.foldl (copySegment slice (base - spanLo segs)) (evs.foldl zeroFill m)) ↔
      ∀ q ∈ segs.zip hs, PermissionSet q := by
  have hroom := hspan.room
  have hcov := hspan.covered
  have hfst (q : Segment × Host) (hq : q ∈ segs.zip hs) : q.1 ∈ segs := (List.of_mem_zip hq).1
  have hsnd (s : Segment) (hs' : s ∈ segs) : ∃ h, (s, h) ∈ segs.zip hs := by
    rw [← zip_fst hlen, List.mem_map] at hs'
    obtain ⟨q, hq, rfl⟩ := hs'
    exact ⟨q.2, hq⟩
  have hnoWrap (q : Segment × Host) (hq : q ∈ segs.zip hs) :
      (q.1.vmaddr + (base - spanLo segs)).toNat + q.1.vmsize.toNat < 2 ^ 64 := by
    obtain ⟨-, -, htop⟩ := slid_toNat hg hspan (hfst q hq)
    omega
  have hap : (segs.zip hs).Pairwise fun q q' => ∀ x, ¬ (InRange (q.1.vmaddr + (base - spanLo segs)) q.1.vmsize x ∧
      InRange (q'.1.vmaddr + (base - spanLo segs)) q'.1.vmsize x) := zip_pairwise hlen (slid_apart hg hspan)
  obtain ⟨htracked, hgranted, hkept⟩ := protectSegments_perm (span_consecutive hspan hsize) hnoWrap hap
  have hbyte (q : Segment × Host) (hq : q ∈ segs.zip hs) (i : Nat) (hi : i < q.1.vmsize.toNat) :
      InRange (q.1.vmaddr + (base - spanLo segs)) q.1.vmsize (q.1.vmaddr + (base - spanLo segs) + BitVec.ofNat 64 i) :=
    ofNat_inRange (hnoWrap q hq) hi
  constructor
  · intro hplaced q hq
    by_cases h0 : q.1.vmsize = 0
    · exact .inl h0
    cases halloc : q.2.alloc with
    | true => exact .inr (.inl halloc)
    | false =>
      refine .inr (.inr ?_)
      have hpos : 0 < q.1.vmsize.toNat := by bv_omega
      have hx := hbyte q hq 0 hpos
      have hnone : ∀ q' ∈ segs.zip hs, ¬ Grants (base - spanLo segs) q'
          (q.1.vmaddr + (base - spanLo segs) + BitVec.ofNat 64 0) := by
        rintro q' hq' ⟨halloc', hx'⟩
        by_cases hqq : q' = q
        · rw [hqq, halloc] at halloc'
          cases halloc'
        · exact pairwise_of_ne (fun _ _ h x hx => h x hx.symm) hap hq' hq hqq _ ⟨hx', hx⟩
      have ht := slid_tracked hg hspan (hfst q hq) hx
      have hperm := hplaced.permission q.1 (hfst q hq) 0 hpos
      rw [hkept _ ht hnone, span_perm hspan ht] at hperm
      exact (Option.some.inj hperm).symm
  · intro hset
    refine ⟨fun s hs' i hi => placed_contents hg hspan slice m hs' hi, ?_, ?_, ?_⟩
    · intro s hs' i hi
      obtain ⟨h, hq⟩ := hsnd s hs'
      have hx := hbyte (s, h) hq i hi
      have ht := slid_tracked hg hspan hs' hx
      by_cases halloc : h.alloc = true
      · exact hgranted (s, h) hq _ ht ⟨halloc, hx⟩
      · have hprot : s.initprot &&& 7 = rsdProtR ||| rsdProtW := by
          rcases hset (s, h) hq with h0 | h1 | h2
          · have h0' : s.vmsize = 0 := h0
            rw [h0'] at hi
            exact absurd hi (Nat.not_lt_zero i)
          · exact absurd h1 halloc
          · exact h2
        have hnone : ∀ q' ∈ segs.zip hs, ¬ Grants (base - spanLo segs) q'
            (s.vmaddr + (base - spanLo segs) + BitVec.ofNat 64 i) := by
          rintro q' hq' ⟨halloc', hx'⟩
          by_cases hqq : q' = (s, h)
          · rw [hqq] at halloc'
            exact halloc halloc'
          · exact pairwise_of_ne (fun _ _ h x hx => h x hx.symm) hap hq' hq hqq _ ⟨hx', hx⟩
        rw [hkept _ ht hnone, span_perm hspan ht, hprot]
    · intro x hx hout
      have ht := (htracked x).mp hx
      rw [hkept x ht fun q hq hgr => hout q.1 (hfst q hq) hgr.2, span_perm hspan ht]
    · intro s hs' t ht
      obtain ⟨hsb, -, -⟩ := slid_toNat hg hspan hs'
      obtain ⟨htb, -, -⟩ := slid_toNat hg hspan ht
      omega

end Placed

/-- An image that has been loaded into an empty address space is where its segments say, with the
permissions that they say exactly if every call for a permission had memory to work with, or
nothing to change. -/
theorem image_placed {h : Host} {hs : List Host} {img : Image} {entryOff : BitVec 64} {slice : BitVec 64 → BitVec 8}
    {as : As} {m : Mem} {out : Image × As × Mem} (hload : rsdLoad h hs img entryOff slice as m = some out)
    (hg : GoodSegments img.segs) (hempty : as.reg = []) (hlen : hs.length = img.segs.length) {k : Nat} (hk : k < 64)
    (hpage : h.page = BitVec.ofNat 64 (2 ^ k))
    (hgrants : KernelGrants h (spanLo img.segs) (spanHi img.segs - spanLo img.segs) (!img.pie)) :
    ImagePlaced slice img.segs out.1.slide out.2.1 out.2.2 ↔ ∀ q ∈ img.segs.zip hs, PermissionSet q := by
  have horder := span_order hg
  have hw : (spanLo img.segs).toNat + (spanHi img.segs - spanLo img.segs).toNat < 2 ^ 64 := by
    bv_omega
  rw [rsdLoad] at hload
  have hmap := @map_span h as (spanLo img.segs) (spanHi img.segs - spanLo img.segs) (rsdProtR ||| rsdProtW) (!img.pie) k
    hk hpage hgrants hempty hw
  have hlen0 : spanHi img.segs - spanLo img.segs = 0 → (rsdAsMap h as (spanLo img.segs)
      (spanHi img.segs - spanLo img.segs) (rsdProtR ||| rsdProtW) (!img.pie)).1 = 0 := by
    intro h0
    rw [rsdAsMap, if_pos h0]
  generalize rsdAsMap h as (spanLo img.segs) (spanHi img.segs - spanLo img.segs) (rsdProtR ||| rsdProtW) (!img.pie) = r
    at hload hmap hlen0
  obtain ⟨base, as', evs⟩ := r
  simp only at hload hmap hlen0
  by_cases hbase : base = 0
  · rw [if_pos hbase] at hload
    cases hload
  rw [if_neg hbase] at hload
  obtain rfl := Option.some.inj hload
  obtain ⟨p, size, got, hspan⟩ := hmap hbase
  have hsize : 0 < size.toNat := by
    have hne : spanHi img.segs - spanLo img.segs ≠ 0 := fun h0 => hbase (hlen0 h0)
    have hbelow := hspan.below
    have habove := hspan.above
    bv_omega
  exact placed_iff hg hspan hsize hlen slice m

/-- Two segments, not in the order of their addresses, the second with four bytes of contents. -/
def twoSegments : Image where
  segs := [⟨0x100004000, 0x4000, 0x4000, 0, 3⟩, ⟨0x100000000, 0x4000, 0, 4, 5⟩]
  prefBase := 0x100000000
  slide := 0
  entry := 0
  pie := true
  hasMain := true
  imports := []
  stubBase := 0

/-- A kernel that puts every mapping at one place. -/
def loadHost (alloc : Bool) : Host :=
  ⟨0x4000, fun _ _ _ => some 0x200000000, fun _ => some 0x200000000, fun _ _ => true, alloc⟩

lemma twoSegments_good : GoodSegments twoSegments.segs := by
  refine ⟨by decide, by decide, by decide, List.pairwise_pair.mpr ?_⟩
  rintro x ⟨h1, h2⟩
  have hlo := h1.1
  have hhi := h2.2
  simp at hlo hhi
  omega

lemma loadHost_grants : KernelGrants (loadHost true) (spanLo twoSegments.segs)
    (spanHi twoSegments.segs - spanLo twoSegments.segs) (!twoSegments.pie) := by
  intro p got hm
  have hmap : hostMap (loadHost true) (spanLo twoSegments.segs) (spanHi twoSegments.segs - spanLo twoSegments.segs)
      (!twoSegments.pie) = some (0x200000000, 0x8000) := by decide
  rw [hmap] at hm
  obtain ⟨rfl, rfl⟩ := Prod.mk.inj (Option.some.inj hm)
  decide

/-- The second call for a permission finds no memory, and the code segment stays writable. -/
theorem permission_lost :
    ∃ out, rsdLoad (loadHost true) [loadHost true, loadHost false] twoSegments 0 (fun _ => 0x90) rsdAsInit
        (fun _ => 0) = some out ∧ permAt out.2.1 0x200000000 = some (rsdProtR ||| rsdProtW) ∧
      ¬ ImagePlaced (fun _ => 0x90) twoSegments.segs out.1.slide out.2.1 out.2.2 := by
  refine ⟨_, rfl, by decide, fun hplaced => ?_⟩
  have hperm := hplaced.permission ⟨0x100000000, 0x4000, 0, 4, 5⟩ (by decide) 0 (by decide)
  revert hperm
  decide

theorem image_placed_two :
    ∃ out, rsdLoad (loadHost true) [loadHost true, loadHost true] twoSegments 0 (fun _ => 0x90) rsdAsInit
        (fun _ => 0) = some out ∧
      ImagePlaced (fun _ => 0x90) twoSegments.segs out.1.slide out.2.1 out.2.2 := by
  have hset : ∀ q ∈ twoSegments.segs.zip [loadHost true, loadHost true], PermissionSet q := by
    intro q hq
    have halloc : q.2 = loadHost true := by
      have hmem := (List.of_mem_zip hq).2
      simpa using hmem
    exact .inr (.inl (by rw [halloc]; rfl))
  exact ⟨_, rfl, (@image_placed (loadHost true) [loadHost true, loadHost true] twoSegments 0 (fun _ => 0x90) rsdAsInit
    (fun _ => 0) _ rfl twoSegments_good rfl rfl 14 (by decide) rfl loadHost_grants).mpr hset⟩

end Rashid.Proofs
