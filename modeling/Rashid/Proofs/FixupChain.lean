import Mathlib.Data.List.Forall2
import Rashid.Fixups
import Rashid.Lib.Writes
import Rashid.Proofs.ByteProtection

/-!
# The chain of fixups

A place holds the link to the next one until it is overwritten. The walk only goes upwards, so that
what is ahead of it is still as the file has it, and no region reaches so high that an address wraps.
-/

namespace Rashid.Proofs

/-! ### A walk, place by place -/

/-- A walk from `addr`, with what it writes and where. -/
inductive ChainRun (as : As) (format : PointerFormat) (stubBase : BitVec 64) :
    Image → Mem → BitVec 64 → List Write → Image × Mem → Prop
  | leaves {img : Image} {m : Mem} {addr : BitVec 64} : rsdAsMapped as addr 8 = false →
      ChainRun as format stubBase img m addr [] (img, m)
  | last {img img' : Image} {m : Mem} {addr v : BitVec 64} : rsdAsMapped as addr 8 = true →
      applyFixup img format stubBase (loadLE m addr 8) = (v, img', 0) →
      ChainRun as format stubBase img m addr [(addr, wordBytes v)] (img', storeLE m addr v 8)
  | next {img img' : Image} {m : Mem} {addr v : BitVec 64} {step : BitVec 12} {ws : List Write} {out : Image × Mem} :
      rsdAsMapped as addr 8 = true → step ≠ 0 → applyFixup img format stubBase (loadLE m addr 8) = (v, img', step) →
      ChainRun as format stubBase img' (storeLE m addr v 8) (nextPlace addr step) ws out →
      ChainRun as format stubBase img m addr ((addr, wordBytes v) :: ws) out

section Walk

variable {as : As} {format : PointerFormat} {stubBase : BitVec 64}

/-- All regions end in the lower half. -/
def LowRegions (as : As) : Prop := ∀ r ∈ as.reg, r.stop.toNat ≤ 2 ^ 63

lemma tracked_low (hlow : LowRegions as) {x : BitVec 64} (h : Tracked as x) : x.toNat < 2 ^ 63 := by
  obtain ⟨r, hr, hx⟩ := h
  exact Nat.lt_of_lt_of_le ((has_iff r x).mp hx).2 (hlow r hr)

lemma mapped_tracked {a x : BitVec 64} (h : rsdAsMapped as a 8 = true) (hx : InRange a 8 x) : Tracked as x := by
  obtain ⟨r, hr, hrx, -⟩ := rangeCheck_covers h hx
  exact ⟨r, hr, hrx⟩

lemma rangeLoop_tracked {fuel : Nat} {a n : BitVec 64} (hn : n.toNat ≤ fuel) (hw : a.toNat + n.toNat < 2 ^ 64)
    (h : ∀ x, InRange a n x → Tracked as x) : rangeLoop as (fun _ => true) fuel a n = true := by
  induction fuel generalizing a n with
  | zero =>
    have h0 : n = 0 := BitVec.eq_of_toNat_eq (Nat.le_zero.mp hn)
    rw [h0]
    rfl
  | succ fuel ih =>
    rw [rangeLoop]
    by_cases h0 : n = 0
    · rw [if_pos h0]
    rw [if_neg h0]
    have ha : Tracked as a := h a ⟨Nat.le_refl _, by bv_omega⟩
    cases hf : find as a with
    | none =>
      obtain ⟨r, hr, hra⟩ := ha
      exact absurd hra (List.find?_eq_none.mp hf r hr)
    | some r =>
      have hra : r.has a = true := by simpa using List.find?_some hf
      rw [has_iff] at hra
      simp only [Bool.true_eq_false, if_false]
      by_cases hle : n ≤ r.stop - a
      · rw [if_pos hle]
      · rw [if_neg hle]
        apply ih
        · bv_omega
        · bv_omega
        · intro x hx
          apply h x
          obtain ⟨hlo, hhi⟩ := hx
          constructor
          · bv_omega
          · bv_omega

lemma mapped_of_tracked {a : BitVec 64} (h : ∀ x, InRange a 8 x → Tracked as x)
    (ha : a.toNat + 8 < 2 ^ 64) : rsdAsMapped as a 8 = true := by
  unfold rsdAsMapped rangeCheck
  rw [if_neg (by decide), if_neg (by bv_omega)]
  exact rangeLoop_tracked (Nat.le_refl _) (by simpa using ha) h

/-- The next place is higher by less than a wrap. -/
lemma nextPlace_toNat {addr : BitVec 64} (h : addr.toNat < 2 ^ 63) (step : BitVec 12) :
    (nextPlace addr step).toNat = addr.toNat + 4 * step.toNat := by
  unfold nextPlace
  have hs := step.isLt
  bv_omega

lemma mapped_below (hlow : LowRegions as) {addr : BitVec 64} (h : rsdAsMapped as addr 8 = true) :
    addr.toNat < 2 ^ 63 :=
  tracked_low hlow (mapped_tracked h ⟨Nat.le_refl _, by simp⟩)

/-- The walk comes to its end. The measure is the distance to the end of memory. -/
lemma walkLoop_run (hlow : LowRegions as) {fuel : Nat} {img : Image} {m : Mem} {addr : BitVec 64}
    (hfuel : 2 ^ 64 ≤ fuel + addr.toNat) :
    ∃ ws, ChainRun as format stubBase img m addr ws (walkLoop as format stubBase fuel img m addr) := by
  induction fuel generalizing img m addr with
  | zero => have := addr.isLt; omega
  | succ fuel ih =>
    rw [walkLoop]
    cases hm : rsdAsMapped as addr 8 with
    | false => exact ⟨[], .leaves hm⟩
    | true =>
      rcases hfix : applyFixup img format stubBase (loadLE m addr 8) with ⟨v, img', step⟩
      simp only [Bool.true_eq_false, if_false]
      by_cases h0 : step = 0
      · subst h0
        rw [if_pos rfl]
        exact ⟨_, .last hm hfix⟩
      · rw [if_neg h0]
        have hpos : 0 < step.toNat := by bv_omega
        have hnext := nextPlace_toNat (mapped_below hlow hm) step
        have hrest : 2 ^ 64 ≤ fuel + (nextPlace addr step).toNat := by omega
        obtain ⟨ws, hrun⟩ := @ih img' (storeLE m addr v 8) _ hrest
        exact ⟨_, .next hm h0 hfix hrun⟩

/-- What a walk has written is the list of its writes, and every one is tracked to its last byte. -/
lemma ChainRun.writes {img : Image} {m : Mem} {addr : BitVec 64} {ws : List Write} {out : Image × Mem}
    (h : ChainRun as format stubBase img m addr ws out) :
    out.2 = pokeAll m ws ∧ ∀ w ∈ ws, w.2.length = 8 ∧ ∀ x, InRange w.1 8 x → Tracked as x := by
  induction h with
  | leaves _ => exact ⟨rfl, fun w hw => nomatch hw⟩
  | @last img img' m addr v hm _ =>
    refine ⟨storeLE_eq_poke m addr v, fun w hw => ?_⟩
    obtain rfl := List.mem_singleton.mp hw
    exact ⟨rfl, fun x => mapped_tracked hm⟩
  | @next img img' m addr v step ws out hm _ _ _ ih =>
    rw [pokeAll_cons, ← storeLE_eq_poke]
    refine ⟨ih.1, fun w hw => ?_⟩
    rcases List.mem_cons.mp hw with rfl | hin
    · exact ⟨rfl, fun x => mapped_tracked hm⟩
    · exact ih.2 w hin

/-- A walk has one outcome. -/
lemma ChainRun.unique {img : Image} {m : Mem} {addr : BitVec 64} {ws ws' : List Write} {out out' : Image × Mem}
    (h : ChainRun as format stubBase img m addr ws out) (h' : ChainRun as format stubBase img m addr ws' out') :
    ws = ws' ∧ out = out' := by
  induction h generalizing ws' out' with
  | leaves hm => cases h' <;> simp_all
  | last hm hfix => cases h' <;> simp_all
  | next hm h0 hfix _ ih =>
    cases h' with
    | leaves hm' => rw [hm] at hm'; cases hm'
    | last hm' hfix' =>
      rw [hfix] at hfix'
      exact absurd (congrArg (·.2.2) hfix') h0
    | next hm' h0' hfix' hrest =>
      rw [hfix] at hfix'
      cases hfix'
      obtain ⟨rfl, rfl⟩ := ih hrest
      exact ⟨rfl, rfl⟩

end Walk

/-! ### A chain of fixups

The layouts are those of `struct dyld_chained_ptr_64_bind` and `struct dyld_chained_ptr_64_rebase`.
-/

/-- A fixup without the way to the next one. -/
inductive Fixup where
  | bind (ordinal : BitVec 24) (addend : BitVec 8) (reserved : BitVec 19)
  | rebase (target : BitVec 36) (high8 : BitVec 8) (reserved : BitVec 7)
  deriving DecidableEq, Repr

def Fixup.encode (next : BitVec 12) : Fixup → BitVec 64
  | .bind ordinal addend reserved => BitVec.ofNat 64
      (ordinal.toNat + 2 ^ 24 * addend.toNat + 2 ^ 32 * reserved.toNat + 2 ^ 51 * next.toNat + 2 ^ 63)
  | .rebase target high8 reserved => BitVec.ofNat 64
      (target.toNat + 2 ^ 36 * high8.toNat + 2 ^ 44 * reserved.toNat + 2 ^ 51 * next.toNat)

/-- What a fixup stands for in an image that has been placed. -/
inductive Resolves (img : Image) (stubBase : BitVec 64) : PointerFormat → Fixup → BitVec 64 → Prop
  | absolute (target : BitVec 36) (high8 : BitVec 8) (reserved : BitVec 7) :
      Resolves img stubBase .ptr64 (.rebase target high8 reserved)
        ((target.setWidth 64 + img.slide) ||| (high8.setWidth 64 <<< 56))
  | offset (target : BitVec 36) (high8 : BitVec 8) (reserved : BitVec 7) :
      Resolves img stubBase .ptr64Offset (.rebase target high8 reserved)
        ((img.prefBase + img.slide + target.setWidth 64) ||| (high8.setWidth 64 <<< 56))
  | data {format : PointerFormat} {ordinal : BitVec 24} {im : Import} (addend : BitVec 8) (reserved : BitVec 19) :
      img.imports[ordinal.toNat]? = some im → im.native ≠ 0 → im.isCode = false →
      Resolves img stubBase format (.bind ordinal addend reserved) (im.native + addend.setWidth 64)
  | stub {format : PointerFormat} {ordinal : BitVec 24} {im : Import} (addend : BitVec 8) (reserved : BitVec 19) :
      img.imports[ordinal.toNat]? = some im → (im.native = 0 ∨ im.isCode = true) →
      Resolves img stubBase format (.bind ordinal addend reserved)
        (stubBase + ordinal.setWidth 64 * 16 + addend.setWidth 64)
  | outOfRange {format : PointerFormat} {ordinal : BitVec 24} (addend : BitVec 8) (reserved : BitVec 19) :
      img.imports.length ≤ ordinal.toNat → Resolves img stubBase format (.bind ordinal addend reserved) 0

lemma field_toNat (raw : BitVec 64) (start len : Nat) :
    (raw.extractLsb' start len).toNat = raw.toNat / 2 ^ start % 2 ^ len := by
  rw [BitVec.extractLsb'_toNat, Nat.shiftRight_eq_div_pow]

lemma top_toNat (raw : BitVec 64) : raw >>> 63 ≠ 0 ↔ 2 ^ 63 ≤ raw.toNat := by
  rw [Ne, ← BitVec.toNat_inj, BitVec.toNat_ushiftRight, Nat.shiftRight_eq_div_pow]
  have hraw := raw.isLt
  have hzero : (0 : BitVec 64).toNat = 0 := rfl
  omega

lemma encode_bind (next : BitVec 12) (ordinal : BitVec 24) (addend : BitVec 8) (reserved : BitVec 19) :
    (Fixup.bind ordinal addend reserved).encode next >>> 63 ≠ 0 ∧
      ChainedBind.ofRaw ((Fixup.bind ordinal addend reserved).encode next) = ⟨ordinal, addend, next⟩ := by
  have ho := ordinal.isLt
  have ha := addend.isLt
  have hr := reserved.isLt
  have hn := next.isLt
  have hraw : ((Fixup.bind ordinal addend reserved).encode next).toNat =
      ordinal.toNat + 2 ^ 24 * addend.toNat + 2 ^ 32 * reserved.toNat + 2 ^ 51 * next.toNat + 2 ^ 63 := by
    rw [Fixup.encode, BitVec.toNat_ofNat]
    omega
  constructor
  · rw [top_toNat, hraw]
    omega
  · rw [ChainedBind.ofRaw, ChainedBind.mk.injEq]
    refine ⟨?_, ?_, ?_⟩
    · apply BitVec.eq_of_toNat_eq
      rw [field_toNat, hraw]
      omega
    · apply BitVec.eq_of_toNat_eq
      rw [field_toNat, hraw]
      omega
    · apply BitVec.eq_of_toNat_eq
      rw [field_toNat, hraw]
      omega

lemma encode_rebase (next : BitVec 12) (target : BitVec 36) (high8 : BitVec 8) (reserved : BitVec 7) :
    ¬ (Fixup.rebase target high8 reserved).encode next >>> 63 ≠ 0 ∧
      ChainedRebase.ofRaw ((Fixup.rebase target high8 reserved).encode next) = ⟨target, high8, next⟩ := by
  have ht := target.isLt
  have hh := high8.isLt
  have hr := reserved.isLt
  have hn := next.isLt
  have hraw : ((Fixup.rebase target high8 reserved).encode next).toNat =
      target.toNat + 2 ^ 36 * high8.toNat + 2 ^ 44 * reserved.toNat + 2 ^ 51 * next.toNat := by
    rw [Fixup.encode, BitVec.toNat_ofNat]
    omega
  constructor
  · rw [top_toNat, hraw]
    omega
  · rw [ChainedRebase.ofRaw, ChainedRebase.mk.injEq]
    refine ⟨?_, ?_, ?_⟩
    · apply BitVec.eq_of_toNat_eq
      rw [field_toNat, hraw]
      omega
    · apply BitVec.eq_of_toNat_eq
      rw [field_toNat, hraw]
      omega
    · apply BitVec.eq_of_toNat_eq
      rw [field_toNat, hraw]
      omega

/-- What a fixup does to the imports. -/
def Fixup.mark : Fixup → List Import → List Import
  | .bind ordinal _ _, imports => markUsed imports ordinal.toNat
  | .rebase _ _ _, imports => imports

def Fixup.binds (i : Nat) : Fixup → Bool
  | .bind ordinal _ _ => ordinal.toNat == i
  | .rebase _ _ _ => false

lemma markUsed_get (imports : List Import) (k i : Nat) :
    (markUsed imports k)[i]? = imports[i]?.map fun im => { im with used := im.used || k == i } := by
  rw [markUsed, List.getElem?_modify]
  by_cases hki : k = i
  · simp [hki]
  · have hne : (k == i) = false := beq_false_of_ne hki
    simp [hki, hne]

lemma mark_get (f : Fixup) (imports : List Import) (i : Nat) :
    (f.mark imports)[i]? = imports[i]?.map fun im => { im with used := im.used || f.binds i } := by
  cases f with
  | bind ordinal addend reserved => exact markUsed_get imports ordinal.toNat i
  | rebase target high8 reserved => simp [Fixup.mark, Fixup.binds]

lemma mark_length (f : Fixup) (imports : List Import) : (f.mark imports).length = imports.length := by
  cases f with
  | bind ordinal addend reserved => exact List.length_modify _ _ _
  | rebase target high8 reserved => rfl

/-- Marking imports changes no fixup's meaning. -/
lemma resolves_of_mark {img : Image} {stubBase v : BitVec 64} {format : PointerFormat} {f g : Fixup}
    (h : Resolves { img with imports := g.mark img.imports } stubBase format f v) :
    Resolves img stubBase format f v := by
  cases h with
  | absolute target high8 reserved => exact .absolute target high8 reserved
  | offset target high8 reserved => exact .offset target high8 reserved
  | data addend reserved him hnative hcode =>
    rw [mark_get, Option.map_eq_some_iff] at him
    obtain ⟨im, him, rfl⟩ := him
    exact @Resolves.data _ _ _ _ im addend reserved him hnative hcode
  | stub addend reserved him hstub =>
    rw [mark_get, Option.map_eq_some_iff] at him
    obtain ⟨im, him, rfl⟩ := him
    exact .stub addend reserved him hstub
  | outOfRange addend reserved hlen =>
    rw [mark_length] at hlen
    exact .outOfRange addend reserved hlen

/-- A packed place is resolved, its import is marked, and the link comes back. -/
lemma applyFixup_encode (img : Image) (format : PointerFormat) (stubBase : BitVec 64) (next : BitVec 12) (f : Fixup) :
    ∃ v, Resolves img stubBase format f v ∧
      applyFixup img format stubBase (f.encode next) = (v, { img with imports := f.mark img.imports }, next) := by
  cases f with
  | bind ordinal addend reserved =>
    obtain ⟨htop, hraw⟩ := encode_bind next ordinal addend reserved
    rw [applyFixup, if_pos htop, hraw]
    refine ⟨_, ?_, rfl⟩
    unfold bindValue
    cases him : img.imports[ordinal.toNat]? with
    | none => exact .outOfRange addend reserved (List.getElem?_eq_none_iff.mp him)
    | some im =>
      simp only
      by_cases hdata : im.native ≠ 0 ∧ im.isCode = false
      · rw [if_pos hdata]
        exact .data addend reserved him hdata.1 hdata.2
      · rw [if_neg hdata]
        refine .stub addend reserved him ?_
        rw [not_and_or, not_not, Bool.not_eq_false] at hdata
        exact hdata
  | rebase target high8 reserved =>
    obtain ⟨htop, hraw⟩ := encode_rebase next target high8 reserved
    rw [applyFixup, if_neg htop, hraw]
    refine ⟨_, ?_, rfl⟩
    cases format with
    | ptr64 => exact .absolute target high8 reserved
    | ptr64Offset => exact .offset target high8 reserved

/-! ### The whole chain -/

structure Place where
  loc : BitVec 64
  fixup : Fixup
  deriving DecidableEq, Repr

/-- Memory holds the chain: every place leads to the one after it, in steps of four bytes. -/
def Chained (m : Mem) : List Place → Prop
  | [] => True
  | [p] => loadLE m p.loc 8 = p.fixup.encode 0
  | p :: q :: rest => (∃ next : BitVec 12, q.loc.toNat = p.loc.toNat + 4 * next.toNat ∧
      loadLE m p.loc 8 = p.fixup.encode next) ∧ Chained m (q :: rest)

/-- Upwards, without overlapping. -/
def Ascending (places : List Place) : Prop := places.Pairwise fun p q => p.loc.toNat + 8 ≤ q.loc.toNat

/-- A write of what a place's fixup stands for. -/
def Fixes (img : Image) (stubBase : BitVec 64) (format : PointerFormat) (p : Place) (w : Write) : Prop :=
  ∃ v, Resolves img stubBase format p.fixup v ∧ w = (p.loc, wordBytes v)

lemma chained_congr {m m' : Mem} {places : List Place} (h : ∀ p ∈ places, loadLE m' p.loc 8 = loadLE m p.loc 8)
    (hm : Chained m places) : Chained m' places := by
  induction places with
  | nil => trivial
  | cons p rest ih =>
    cases rest with
    | nil => exact (h p List.mem_cons_self).trans hm
    | cons q rest =>
      obtain ⟨⟨next, hnext, hp⟩, hrest⟩ := hm
      refine ⟨⟨next, hnext, (h p List.mem_cons_self).trans hp⟩, ?_⟩
      exact ih (fun p' hp' => h p' (List.mem_cons_of_mem p hp')) hrest

/-- Words eight bytes apart have no byte in common. -/
lemma words_apart {a b x : BitVec 64} (h : a.toNat + 8 ≤ b.toNat) (hb : b.toNat < 2 ^ 63) (hx : inWindow a 8 x) :
    ¬ inWindow b 8 x := by
  unfold inWindow at hx ⊢
  bv_omega

lemma loadLE_storeLE_apart {m : Mem} {a b v : BitVec 64} (h : a.toNat + 8 ≤ b.toNat) (hb : b.toNat < 2 ^ 63) :
    loadLE (storeLE m a v 8) b 8 = loadLE m b 8 := by
  refine (loadLE_eq_iff (Nat.le_refl 8)).mpr fun i hi => storeLE_outside fun hx => ?_
  exact words_apart h hb hx (inWindow_iff.mpr ⟨i, hi, rfl⟩)

section Chain

variable {as : As} {format : PointerFormat} {stubBase : BitVec 64}

/-- One turn of the walk, at a place that holds a packed word. -/
lemma walkLoop_place {fuel : Nat} {img : Image} {m : Mem} {p : Place} {next : BitVec 12}
    (hm : rsdAsMapped as p.loc 8 = true) (hp : loadLE m p.loc 8 = p.fixup.encode next) :
    ∃ w, Fixes img stubBase format p w ∧ walkLoop as format stubBase (fuel + 1) img m p.loc =
      if next = 0 then ({ img with imports := p.fixup.mark img.imports }, poke m w.1 w.2)
      else walkLoop as format stubBase fuel { img with imports := p.fixup.mark img.imports } (poke m w.1 w.2)
        (nextPlace p.loc next) := by
  obtain ⟨v, hv, happly⟩ := applyFixup_encode img format stubBase next p.fixup
  refine ⟨(p.loc, wordBytes v), ⟨v, hv, rfl⟩, ?_⟩
  rw [walkLoop, hm, if_neg (by decide), hp, happly, ← storeLE_eq_poke]

/-- The walk along a chain. What is ahead is apart from what has been written. -/
lemma walkLoop_chain (hlow : LowRegions as) {fuel : Nat} {img : Image} {m : Mem} {p : Place} {rest : List Place}
    (hfuel : 2 ^ 64 ≤ fuel + p.loc.toNat) (hmap : ∀ q ∈ p :: rest, rsdAsMapped as q.loc 8 = true)
    (hasc : Ascending (p :: rest)) (hm : Chained m (p :: rest)) :
    ∃ ws, List.Forall₂ (Fixes img stubBase format) (p :: rest) ws ∧ walkLoop as format stubBase fuel img m p.loc =
      ({ img with imports := (p :: rest).foldl (fun ims q => q.fixup.mark ims) img.imports }, pokeAll m ws) := by
  induction rest generalizing fuel img m p with
  | nil =>
    have hpos : 0 < fuel := by have := p.loc.isLt; omega
    obtain ⟨fuel, rfl⟩ := Nat.exists_eq_succ_of_ne_zero (Nat.ne_of_gt hpos)
    obtain ⟨w, hw, heq⟩ := @walkLoop_place as format stubBase fuel img m p 0 (hmap p List.mem_cons_self) hm
    exact ⟨[w], .cons hw .nil, heq⟩
  | cons q rest ih =>
    obtain ⟨⟨next, hnext, hp⟩, hrest⟩ := hm
    obtain ⟨hahead, hasc⟩ := List.pairwise_cons.mp hasc
    have hpos : 0 < fuel := by have := p.loc.isLt; omega
    obtain ⟨fuel, rfl⟩ := Nat.exists_eq_succ_of_ne_zero (Nat.ne_of_gt hpos)
    have hp8 : p.loc.toNat + 8 ≤ q.loc.toNat := hahead q List.mem_cons_self
    have hmapped := hmap p List.mem_cons_self
    have hqloc : nextPlace p.loc next = q.loc := by
      apply BitVec.eq_of_toNat_eq
      rw [nextPlace_toNat (mapped_below hlow hmapped), hnext]
    have hnz : next ≠ 0 := by
      rintro rfl
      simp at hnext
      omega
    obtain ⟨w, hw, heq⟩ := @walkLoop_place as format stubBase fuel img m p next hmapped hp
    obtain ⟨v, hv, rfl⟩ := hw
    rw [if_neg hnz, hqloc] at heq
    have hmap' : ∀ q' ∈ q :: rest, rsdAsMapped as q'.loc 8 = true := fun q' hq' => hmap q' (List.mem_cons_of_mem p hq')
    have hkept : Chained (poke m p.loc (wordBytes v)) (q :: rest) := by
      apply chained_congr _ hrest
      intro q' hq'
      rw [← storeLE_eq_poke]
      exact loadLE_storeLE_apart (hahead q' hq') (mapped_below hlow (hmap' q' hq'))
    obtain ⟨ws, hws, hrun⟩ := @ih fuel { img with imports := p.fixup.mark img.imports } _ q (by omega) hmap' hasc hkept
    refine ⟨(p.loc, wordBytes v) :: ws, .cons ⟨v, hv, rfl⟩ ?_, heq.trans hrun⟩
    refine hws.imp fun q' w' hw' => ?_
    obtain ⟨v', hv', rfl⟩ := hw'
    exact ⟨v', resolves_of_mark hv', rfl⟩

lemma foldl_mark_get (places : List Place) (imports : List Import) (i : Nat) :
    (places.foldl (fun ims q => q.fixup.mark ims) imports)[i]? =
      imports[i]?.map fun im => { im with used := im.used || places.any (·.fixup.binds i) } := by
  induction places generalizing imports with
  | nil => simp
  | cons p rest ih =>
    rw [List.foldl_cons, ih, mark_get, Option.map_map]
    congr 1
    funext im
    simp [Function.comp, Bool.or_assoc]

/-- A fixup stands for one value. -/
lemma Resolves.unique {img : Image} {f : Fixup} {v v' : BitVec 64} (h : Resolves img stubBase format f v)
    (h' : Resolves img stubBase format f v') : v = v' := by
  cases h with
  | absolute => cases h'; rfl
  | offset => cases h'; rfl
  | data _ _ him hnative hcode =>
    cases h' with
    | data _ _ him' => rw [Option.some.inj (him.symm.trans him')]
    | stub _ _ him' hstub =>
      obtain rfl := Option.some.inj (him.symm.trans him')
      rcases hstub with h0 | h1
      · exact absurd h0 hnative
      · rw [hcode] at h1
        cases h1
    | outOfRange _ _ hlen => rw [List.getElem?_eq_none hlen] at him; cases him
  | stub _ _ him hstub =>
    cases h' with
    | data _ _ him' hnative hcode =>
      obtain rfl := Option.some.inj (him.symm.trans him')
      rcases hstub with h0 | h1
      · exact absurd h0 hnative
      · rw [hcode] at h1
        cases h1
    | stub => rfl
    | outOfRange _ _ hlen => rw [List.getElem?_eq_none hlen] at him; cases him
  | outOfRange _ _ hlen =>
    cases h' with
    | data _ _ him' => rw [List.getElem?_eq_none hlen] at him'; cases him'
    | stub _ _ him' => rw [List.getElem?_eq_none hlen] at him'; cases him'
    | outOfRange => rfl

lemma fixes_mem {img : Image} {places : List Place} {ws : List Write}
    (h : List.Forall₂ (Fixes img stubBase format) places ws) :
    (∀ p ∈ places, ∃ w ∈ ws, Fixes img stubBase format p w) ∧ ∀ w ∈ ws, ∃ p ∈ places, Fixes img stubBase format p w := by
  induction h with
  | nil => exact ⟨fun p hp => absurd hp List.not_mem_nil, fun w hw => absurd hw List.not_mem_nil⟩
  | @cons p w places ws hpw _ ih =>
    constructor
    · intro q hq
      rcases List.mem_cons.mp hq with rfl | hin
      · exact ⟨w, List.mem_cons_self, hpw⟩
      · obtain ⟨w', hw', hqw⟩ := ih.1 q hin
        exact ⟨w', List.mem_cons_of_mem w hw', hqw⟩
    · intro w' hw'
      rcases List.mem_cons.mp hw' with rfl | hin
      · exact ⟨p, List.mem_cons_self, hpw⟩
      · obtain ⟨q, hq, hqw⟩ := ih.2 w' hin
        exact ⟨q, List.mem_cons_of_mem p hq, hqw⟩

lemma fixes_apart {img : Image} {places : List Place} {ws : List Write}
    (h : List.Forall₂ (Fixes img stubBase format) places ws) (hasc : Ascending places)
    (hbelow : ∀ p ∈ places, p.loc.toNat < 2 ^ 63) : WritesApart ws := by
  induction h with
  | nil => exact List.Pairwise.nil
  | @cons p w places ws hpw hrest ih =>
    obtain ⟨hahead, hasc⟩ := List.pairwise_cons.mp hasc
    refine List.pairwise_cons.mpr ⟨?_, ih hasc fun q hq => hbelow q (List.mem_cons_of_mem p hq)⟩
    intro w' hw' x hx
    obtain ⟨q, hq, v', -, rfl⟩ := (fixes_mem hrest).2 w' hw'
    obtain ⟨v, -, rfl⟩ := hpw
    exact words_apart (hahead q hq) (hbelow q (List.mem_cons_of_mem p hq)) hx

lemma inRange_eight {a x : BitVec 64} (ha : a.toNat < 2 ^ 63) : inWindow a 8 x ↔ InRange a 8 x := by
  unfold inWindow InRange
  bv_omega

end Chain

/-- Every walk ends, and writes words that are tracked to the last byte. A walk along a chain of
fixups leaves each place with what its fixup stands for, and everything else as it was. -/
theorem fixup_chains {as : As} (hlow : LowRegions as) (format : PointerFormat) (stubBase : BitVec 64) (img : Image)
    (m : Mem) :
    (∀ addr, ∃ ws, ChainRun as format stubBase img m addr ws (walkChain as format stubBase img m addr) ∧
      (∀ ws' out, ChainRun as format stubBase img m addr ws' out →
        ws' = ws ∧ out = walkChain as format stubBase img m addr) ∧
      (walkChain as format stubBase img m addr).2 = pokeAll m ws ∧
      ∀ w ∈ ws, w.2.length = 8 ∧ ∀ x, InRange w.1 8 x → Tracked as x) ∧
    ∀ p rest, (∀ q ∈ p :: rest, ∀ x, InRange q.loc 8 x → Tracked as x) → Ascending (p :: rest) →
      Chained m (p :: rest) →
      (∀ q ∈ p :: rest, ∀ v, Resolves img stubBase format q.fixup v ↔
        loadLE (walkChain as format stubBase img m p.loc).2 q.loc 8 = v) ∧
      (∀ x, (∀ q ∈ p :: rest, ¬ InRange q.loc 8 x) → (walkChain as format stubBase img m p.loc).2 x = m x) ∧
      ∃ imports : List Import, (walkChain as format stubBase img m p.loc).1 = { img with imports := imports } ∧
        ∀ i : Nat, imports[i]? =
          img.imports[i]?.map fun im => { im with used := im.used || (p :: rest).any (·.fixup.binds i) } := by
  constructor
  · intro addr
    obtain ⟨ws, hrun⟩ := @walkLoop_run as format stubBase hlow addressCount img m addr (Nat.le_add_right _ _)
    exact ⟨ws, hrun, fun ws' out hrun' => hrun'.unique hrun, hrun.writes⟩
  · intro p rest htracked hasc hm
    have hbelow : ∀ q ∈ p :: rest, q.loc.toNat < 2 ^ 63 := by
      intro q hq
      exact tracked_low hlow (htracked q hq q.loc ⟨Nat.le_refl _, by simp⟩)
    have hmap : ∀ q ∈ p :: rest, rsdAsMapped as q.loc 8 = true := by
      intro q hq
      have hq63 := hbelow q hq
      exact mapped_of_tracked (htracked q hq) (by omega)
    obtain ⟨ws, hws, hrun⟩ := @walkLoop_chain as format stubBase hlow addressCount img m p rest
      (Nat.le_add_right _ _) hmap hasc hm
    have hwalk : walkChain as format stubBase img m p.loc = _ := hrun
    have hap := fixes_apart hws hasc hbelow
    rw [hwalk]
    refine ⟨?_, ?_, _, rfl, foldl_mark_get (p :: rest) img.imports⟩
    · intro q hq v
      obtain ⟨w, hw, v', hv', rfl⟩ := (fixes_mem hws).1 q hq
      have hload : loadLE (pokeAll m ws) q.loc 8 = v' :=
        loadLE_wordBytes fun x hx => pokeAll_inside hap hw hx 0
      rw [hload]
      exact ⟨fun hv => hv'.unique hv, fun h => h ▸ hv'⟩
    · intro x hx
      apply pokeAll_outside
      intro w hw hcov
      obtain ⟨q, hq, v, -, rfl⟩ := (fixes_mem hws).2 w hw
      exact hx q hq ((inRange_eight (hbelow q hq)).mp hcov)

/-- A table of one data symbol, and two places: a rebase and then its binding. -/
def chainedImage : Image where
  segs := []
  prefBase := 0x100000000
  slide := 0x4000
  entry := 0
  pie := true
  hasMain := true
  imports := [⟨false, 0x9000, false⟩]
  stubBase := 0x20000

def chainedPlaces : List Place := [⟨0x10000, .rebase 0x100001000 0x80 0⟩, ⟨0x1000C, .bind 0 5 0⟩]

def chainedMem : Mem := pokeAll (fun _ => 0)
  [(0x10000, wordBytes ((Fixup.rebase 0x100001000 0x80 0).encode 3)), (0x1000C, wordBytes ((Fixup.bind 0 5 0).encode 0))]

def chainedAs : As := { rsdAsInit with reg := [⟨0x10000, 0x14000, rsdProtR⟩] }

theorem fixup_chains_two :
    loadLE (walkChain chainedAs .ptr64 0x20000 chainedImage chainedMem 0x10000).2 0x10000 8 = 0x8000000100005000 ∧
      loadLE (walkChain chainedAs .ptr64 0x20000 chainedImage chainedMem 0x10000).2 0x1000C 8 = 0x9005 := by
  have hlow : LowRegions chainedAs := by
    unfold LowRegions
    decide
  have htracked : ∀ q ∈ chainedPlaces, ∀ x, InRange q.loc 8 x → Tracked chainedAs x := by
    intro q hq x hx
    refine ⟨_, List.mem_singleton.mpr rfl, (has_iff _ x).mpr ?_⟩
    obtain ⟨hlo, hhi⟩ := hx
    rcases List.mem_pair.mp hq with rfl | rfl
    · exact ⟨hlo, by simp at hhi ⊢; omega⟩
    · exact ⟨by simp at hlo ⊢; omega, by simp at hhi ⊢; omega⟩
  have hasc : Ascending chainedPlaces := by
    unfold Ascending
    decide
  have hfirst : loadLE chainedMem 0x10000 8 = (Fixup.rebase 0x100001000 0x80 0).encode 3 := by decide
  have hlast : loadLE chainedMem 0x1000C 8 = (Fixup.bind 0 5 0).encode 0 := by decide
  have hchain : Chained chainedMem chainedPlaces := ⟨⟨3, by decide, hfirst⟩, hlast⟩
  obtain ⟨hplaces, -, -⟩ := (fixup_chains hlow .ptr64 0x20000 chainedImage chainedMem).2 _ _ htracked hasc hchain
  constructor
  · exact (hplaces _ List.mem_cons_self _).mp (.absolute _ _ _)
  · exact (hplaces _ (List.mem_cons_of_mem _ List.mem_cons_self) _).mp (@Resolves.data _ _ _ _
      ⟨false, 0x9000, false⟩ _ _ rfl
      (by decide) rfl)

end Rashid.Proofs
