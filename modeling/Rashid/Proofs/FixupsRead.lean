import Mathlib.Data.List.Forall2
import Rashid.FixupsFormat
import Rashid.Proofs.CommandFields

/-!
# Reading the data of chained fixups

Symbols, segments and pages are read as they were written, so that the loops over them come to one walk
after the other along the chains.
-/

namespace Rashid.Proofs

section Reading

variable {file : Mem} {a chain : BitVec 64} {f : FixupData}

lemma u16_of_holds {v : BitVec 16} (h : HoldsAt file a (leBytes v)) : u16 file a = v := h.read (by decide) rfl

/-! ### Symbols -/

/-- A text ends before its addresses come round again. -/
lemma text_short {t : Text} (h : HoldsAt file a (t ++ [0])) (ht : (0 : BitVec 8) ∉ t) : t.length < 2 ^ 64 := by
  by_contra hlong
  have hbyte (i : Nat) (hi : i < (t ++ [0]).length) : file (a + BitVec.ofNat 64 i) = (t ++ [0])[i] := by
    have hlen : i < (peek file a (t ++ [0]).length).length := (peek_length ..).symm ▸ hi
    rw [← peek_get file a _ hlen, List.getElem_of_eq h.peek]
  have hmod : t.length % 2 ^ 64 < t.length := Nat.lt_of_lt_of_le (Nat.mod_lt _ (by decide)) (Nat.not_lt.mp hlong)
  have hend := hbyte t.length (by simp)
  have hround := hbyte (t.length % 2 ^ 64) (by simp; omega)
  have hsame : BitVec.ofNat 64 (t.length % 2 ^ 64) = BitVec.ofNat 64 t.length := by
    apply BitVec.eq_of_toNat_eq
    rw [BitVec.toNat_ofNat, BitVec.toNat_ofNat, Nat.mod_mod]
  rw [hsame, hend, List.getElem_append_left hmod] at hround
  simp only [List.getElem_concat_length] at hround
  exact ht (hround ▸ List.getElem_mem hmod)

lemma cStringLoop_holds {t : Text} (h : HoldsAt file a (t ++ [0])) (ht : (0 : BitVec 8) ∉ t) {fuel : Nat}
    (hfuel : t.length < fuel) :
    cStringLoop file fuel a = t := by
  induction t generalizing a fuel with
  | nil =>
    obtain ⟨fuel, rfl⟩ := Nat.exists_eq_succ_of_ne_zero (Nat.ne_of_gt hfuel)
    have hzero : file a = 0 := by simpa [HoldsAt, peek] using h
    rw [cStringLoop, if_pos hzero]
  | cons b rest ih =>
    obtain ⟨fuel, rfl⟩ := Nat.exists_eq_succ_of_ne_zero (Nat.ne_of_gt (Nat.zero_lt_of_lt hfuel))
    rw [List.mem_cons, not_or] at ht
    obtain ⟨hb, hrest⟩ := ht
    obtain ⟨hfirst, hnext⟩ := holdsAt_append.mp (show HoldsAt file a ([b] ++ (rest ++ [0])) from h)
    have hbyte : file a = b := by simpa [HoldsAt, peek] using hfirst
    have hnext : HoldsAt file (a + 1) (rest ++ [0]) := hnext
    rw [cStringLoop, hbyte, if_neg (Ne.symm hb), ih hnext hrest (Nat.lt_of_succ_lt_succ hfuel)]

lemma cString_holds {t : Text} (h : HoldsAt file a (t ++ [0])) (ht : (0 : BitVec 8) ∉ t) : cString file a = t :=
  cStringLoop_holds h ht (text_short h ht)

lemma raw_fields (e : ImportEntry) : e.raw.extractLsb' 9 23 = e.nameOffset ∧ e.raw.extractLsb' 0 8 = e.libOrdinal ∧
    (e.raw.extractLsb' 8 1 != 0) = e.weak := by
  have hweak : e.raw.extractLsb' 8 1 = BitVec.ofBool e.weak := by
    apply BitVec.eq_of_getLsbD_eq
    intro i hi
    simp only [ImportEntry.raw, BitVec.getLsbD_append, BitVec.getLsbD_extractLsb']
    grind
  refine ⟨?_, ?_, ?_⟩
  · apply BitVec.eq_of_getLsbD_eq
    intro i hi
    simp only [ImportEntry.raw, BitVec.getLsbD_append, BitVec.getLsbD_extractLsb']
    grind
  · apply BitVec.eq_of_getLsbD_eq
    intro i hi
    simp only [ImportEntry.raw, BitVec.getLsbD_append, BitVec.getLsbD_extractLsb']
    grind
  · rw [hweak]
    cases e.weak <;> rfl

/-- The libraries by name. -/
lemma ordinalLib_holds {dylibs : List (BitVec 64)} {libs : List Text}
    (h : List.Forall₂ (fun a name => HoldsAt file a (name ++ [0])) dylibs libs)
    (hlibs : ∀ t ∈ libs, (0 : BitVec 8) ∉ t) (ord : Nat) :
    ordinalLib file dylibs ord =
      if 1 ≤ ord then ((libs[ord - 1]?).map afterSlash).getD (ascii "?") else ascii "?" := by
  unfold ordinalLib
  split
  · have hlen := h.length_eq
    by_cases hin : ord - 1 < libs.length
    · have hd : ord - 1 < dylibs.length := hlen.symm ▸ hin
      rw [List.getElem?_eq_getElem hd, List.getElem?_eq_getElem hin]
      have hholds := (List.forall₂_iff_get.mp h).2 (ord - 1) hd hin
      simp only [List.get_eq_getElem] at hholds
      simp only [Option.map_some, Option.getD_some]
      rw [cString_holds hholds (hlibs _ (List.getElem_mem hin))]
    · rw [List.getElem?_eq_none (hlen ▸ Nat.not_lt.mp hin), List.getElem?_eq_none (Nat.not_lt.mp hin)]
      rfl
  · rfl

lemma symbolAt_holds {dylibs : List (BitVec 64)} {libs : List Text} {e : ImportEntry} {syms : BitVec 64}
    (hdylibs : List.Forall₂ (fun a name => HoldsAt file a (name ++ [0])) dylibs libs)
      (hlibs : ∀ t ∈ libs, (0 : BitVec 8) ∉ t)
    (he : HoldsAt file a (leBytes e.raw)) (hname : HoldsAt file (syms + e.nameOffset.setWidth 64) (e.name ++ [0])) :
    symbolAt file dylibs syms a = e.symbol libs := by
  obtain ⟨hoff, hlib, hweak⟩ := raw_fields e
  unfold symbolAt ImportEntry.symbol
  simp only [u32_of_holds he, hoff, hlib, hweak, cString_holds hname e.noZero, ordinalLib_holds hdylibs hlibs]

/-- The symbols are those that were written, unless there is no memory for them. -/
lemma parseImports_holds (hf : f.LiesAt file chain) {dylibs : List (BitVec 64)} {libs : List Text}
    (hdylibs : List.Forall₂ (fun a name => HoldsAt file a (name ++ [0])) dylibs libs)
      (hlibs : ∀ t ∈ libs, (0 : BitVec 8) ∉ t)
    (alloc : Bool) : parseImports alloc file dylibs chain =
      if f.imports ≠ [] ∧ alloc = false then .error .noMemory else .ok (f.imports.map (ImportEntry.symbol libs)) := by
  have hheader := hf.header
  unfold FixupData.header at hheader
  simp only [holdsAt_append, leBytes_length, BitVec.add_assoc, Nat.reduceDiv, BitVec.reduceAdd] at hheader
  obtain ⟨-, -, himp, hsyms, hn, hformat, -⟩ := hheader
  have hcount := f.importsCount
  have hlen : (BitVec.ofNat 32 f.imports.length).toNat = f.imports.length := by
    rw [BitVec.toNat_ofNat]
    omega
  have hpos : (BitVec.ofNat 32 f.imports.length).msb = false := by
    rw [BitVec.msb_eq_decide, hlen]
    exact decide_eq_false (by omega)
  have hzero : BitVec.ofNat 32 f.imports.length = 0 ↔ f.imports = [] := by
    rw [← BitVec.toNat_inj, hlen]
    exact List.length_eq_zero_iff
  unfold parseImports
  simp only [BitVec.ofNat_eq_ofNat, u32_of_holds hformat, u32_of_holds himp, u32_of_holds hsyms, u32_of_holds hn, hpos]
  rw [if_neg (by simp)]
  split
  · next hnil =>
    rw [hzero.mp hnil]
    rfl
  · next hnil =>
    have hne : f.imports ≠ [] := fun he => hnil (hzero.mpr he)
    simp only [hne, ne_eq, not_false_eq_true, true_and, Bool.false_eq_true, or_false]
    split
    · rfl
    · rw [hlen]
      congr 1
      apply List.ext_getElem
      · simp
      · intro i hi hi'
        have hin : i < f.imports.length := by simpa using hi'
        have hat := hf.imports.get (k := 4) (fun e _ => leBytes_length _) hin
        rw [BitVec.ofNat_mul] at hat
        rw [List.getElem_map, List.getElem_map, List.getElem_range]
        exact symbolAt_holds hdylibs hlibs hat (hf.names _ (List.getElem_mem hin))

/-! ### Chains -/

/-- One walk after the other. -/
def walkAll (as : As) (stubBase : BitVec 64) (r : Image × Mem) (chains : List (PointerFormat × BitVec 64)) : Image × Mem :=
  chains.foldl (fun r c => walkChain as c.1 stubBase r.1 r.2 c.2) r

lemma walkAll_append (as : As) (stubBase : BitVec 64) (r : Image × Mem) (cs cs' : List (PointerFormat × BitVec 64)) :
    walkAll as stubBase r (cs ++ cs') = walkAll as stubBase (walkAll as stubBase r cs) cs' := List.foldl_append

lemma walkLoop_base (as : As) (format : PointerFormat) (stubBase : BitVec 64) (fuel : Nat) (img : Image) (m : Mem)
    (addr : BitVec 64) :
    (walkLoop as format stubBase fuel img m addr).1.prefBase + (walkLoop as format stubBase fuel img m addr).1.slide =
      img.prefBase + img.slide := by
  induction fuel generalizing img m addr with
  | zero => rfl
  | succ fuel ih =>
    have hone : (applyFixup img format stubBase (loadLE m addr 8)).2.1.prefBase = img.prefBase ∧
        (applyFixup img format stubBase (loadLE m addr 8)).2.1.slide = img.slide := by
      unfold applyFixup
      split <;> exact ⟨rfl, rfl⟩
    rw [walkLoop]
    split
    · rfl
    · generalize applyFixup img format stubBase (loadLE m addr 8) = x at hone
      obtain ⟨v, img', next⟩ := x
      simp only at hone ⊢
      split
      · rw [hone.1, hone.2]
      · rw [ih, hone.1, hone.2]

/-- Walks change nothing of where the image is. -/
lemma walkAll_base (as : As) (stubBase : BitVec 64) (r : Image × Mem) (chains : List (PointerFormat × BitVec 64)) :
    (walkAll as stubBase r chains).1.prefBase + (walkAll as stubBase r chains).1.slide = r.1.prefBase + r.1.slide := by
  induction chains generalizing r with
  | nil => rfl
  | cons c rest ih => exact (ih _).trans (walkLoop_base ..)

variable {as : As} {stubBase base sis : BitVec 64} {s : SegmentStarts}

lemma starts_holds (h : HoldsAt file sis s.bytes) :
    u16 file (sis + 4) = s.pageSize ∧ u16 file (sis + 6) = s.format.code ∧ u64 file (sis + 8) = s.segmentOffset ∧
      (u16 file (sis + 20)).toNat = s.pages.length ∧ HoldsAt file (sis + 22) (s.pages.flatMap pageBytes) := by
  unfold SegmentStarts.bytes at h
  simp only [holdsAt_append, leBytes_length, BitVec.add_assoc, Nat.reduceDiv, BitVec.reduceAdd] at h
  obtain ⟨-, hsize, hformat, hoff, -, hn, hpages⟩ := h
  refine ⟨u16_of_holds hsize, u16_of_holds hformat, u64_of_holds hoff, ?_, hpages⟩
  have hread : u16 file (sis + 20) = BitVec.ofNat 16 s.pages.length := u16_of_holds hn
  rw [hread, BitVec.toNat_ofNat, Nat.mod_eq_of_lt s.count]

/-- The loop over the pages comes to their chains. -/
lemma walkPages_holds (h : HoldsAt file sis s.bytes) {n p : Nat} (hp : p + n = s.pages.length) (r : Image × Mem) :
    walkPages file as s.format stubBase (base + s.segmentOffset) sis n p r =
      walkAll as stubBase r (((s.pages.drop p).zipIdx p).filterMap fun x => s.pageChain base x.2 x.1) := by
  obtain ⟨hsize, -, -, -, hpages⟩ := starts_holds h
  induction n generalizing p r with
  | zero =>
    rw [List.drop_of_length_le (by omega)]
    rfl
  | succ n ih =>
    have hin : p < s.pages.length := by omega
    have hread : u16 file (sis + 22 + 2 * BitVec.ofNat 64 p) =
        s.pages[p].elim dyldChainedPtrStartNone PageStart.offset := by
      have hat := hpages.get (k := 2) (fun x _ => leBytes_length _) hin
      rw [BitVec.ofNat_mul] at hat
      exact u16_of_holds hat
    rw [walkPages, hsize, List.drop_eq_getElem_cons hin, List.zipIdx_cons, List.filterMap_cons]
    cases hpage : s.pages[p] with
    | none =>
      have hnone : u16 file (sis + 22 + 2 * BitVec.ofNat 64 p) = dyldChainedPtrStartNone := by rw [hread, hpage]; rfl
      simp only [hnone, if_true, SegmentStarts.pageChain, Option.map_none]
      exact ih (by omega) r
    | some start =>
      have hstart : u16 file (sis + 22 + 2 * BitVec.ofNat 64 p) = start.offset := by rw [hread, hpage]; rfl
      simp only [hstart, if_neg start.isStart, SegmentStarts.pageChain, Option.map_some]
      exact ih (by omega) _

lemma pointerFormat_code (format : PointerFormat) : pointerFormat format.code = some format := by
  cases format <;> rfl

/-- The loop over the segments comes to one walk after the other. -/
lemma fixSegments_holds (hf : f.LiesAt file chain) {n i : Nat} (hi : i + n = f.segments.length) {r : Image × Mem}
    (hbase : r.1.prefBase + r.1.slide = base) :
    fixSegments file as stubBase (chain + f.startsOffset.setWidth 64) n i r = .ok (walkAll as stubBase r
      ((f.segments.drop i).flatMap fun s => s.elim [] fun x => x.starts.chains base)) := by
  have hoffsets := hf.starts.right
  simp only [leBytes_length, Nat.reduceDiv] at hoffsets
  induction n generalizing i r with
  | zero =>
    rw [List.drop_of_length_le (by omega)]
    rfl
  | succ n ih =>
    have hin : i < f.segments.length := by omega
    have hread : u32 file (chain + f.startsOffset.setWidth 64 + 4 + 4 * BitVec.ofNat 64 i) =
        FixupData.segmentOffset f.segments[i] := by
      have hat := hoffsets.get (k := 4) (fun x _ => leBytes_length _) hin
      rw [BitVec.ofNat_mul] at hat
      exact u32_of_holds hat
    have hmem : f.segments[i] ∈ f.segments := List.getElem_mem hin
    rw [fixSegments, List.drop_eq_getElem_cons hin, List.flatMap_cons, walkAll_append]
    cases hseg : f.segments[i] with
    | none =>
      have hnone : u32 file (chain + f.startsOffset.setWidth 64 + 4 + 4 * BitVec.ofNat 64 i) = 0 := by
        rw [hread, hseg]; rfl
      simp only [hnone, if_true, Option.elim_none]
      exact ih (by omega) hbase
    | some x =>
      have hoffset : u32 file (chain + f.startsOffset.setWidth 64 + 4 + 4 * BitVec.ofNat 64 i) = x.offset := by
        rw [hread, hseg]; rfl
      have hlies := hf.segments _ hmem x hseg
      obtain ⟨-, hformat, hoff, hn, -⟩ := starts_holds hlies
      simp only [hoffset, if_neg x.nonzero, hformat, pointerFormat_code, hoff, hn, hbase, Option.elim_some]
      rw [walkPages_holds hlies (Nat.zero_add _)]
      exact ih (by omega) ((walkAll_base ..).trans hbase)

end Reading

end Rashid.Proofs
