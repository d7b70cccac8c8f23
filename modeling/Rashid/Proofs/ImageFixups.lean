import Rashid.Proofs.FixupChain
import Rashid.Proofs.FixupsRead
import Rashid.Proofs.ImagePlacement
import Rashid.Proofs.StubNames

/-!
# The fixups of a whole image

Chain after chain, each place gets what its fixup stands for. No two chains share a byte, so that a chain
is still as the file has it when its turn comes; what has been marked on the way changes no meaning.
-/

namespace Rashid.Proofs

/-! ### Many chains -/

structure Chain where
  format : PointerFormat
  first : Place
  rest : List Place

namespace Chain

variable (c : Chain)

def places : List Place := c.first :: c.rest

def start : PointerFormat × BitVec 64 := (c.format, c.first.loc)

end Chain

/-- A chain in tracked memory. -/
structure GoodChain (as : As) (m : Mem) (c : Chain) : Prop where
  tracked : ∀ q ∈ c.places, ∀ x, InRange q.loc 8 x → Tracked as x
  ascending : Ascending c.places
  chained : Chained m c.places

def ChainsApart (c d : Chain) : Prop := ∀ p ∈ c.places, ∀ q ∈ d.places, ∀ x, ¬ (InRange p.loc 8 x ∧ InRange q.loc 8 x)

section Chains

variable {as : As} {m : Mem} {img : Image} {stubBase : BitVec 64} {chains : List Chain}

lemma GoodChain.below {c : Chain} (h : GoodChain as m c) (hlow : LowRegions as) :
    ∀ q ∈ c.places, q.loc.toNat < 2 ^ 63 := by
  intro q hq
  exact tracked_low hlow (h.tracked q hq q.loc ⟨Nat.le_refl _, by simp⟩)

lemma resolves_of_marks {places : List Place} {format : PointerFormat} {fixup : Fixup} {v : BitVec 64}
    (h : Resolves { img with imports := places.foldl (fun ims q => q.fixup.mark ims) img.imports } stubBase
      format fixup v) :
    Resolves img stubBase format fixup v := by
  induction places generalizing img with
  | nil => exact h
  | cons p rest ih => exact resolves_of_mark (ih h)

/-- Writes to other places leave a chain as it is. -/
lemma GoodChain.keep {c : Chain} {ws : List Write} (h : GoodChain as m c)
    (hws : ∀ w ∈ ws, ∀ q ∈ c.places, ∀ x, inWindow q.loc 8 x → ¬ w.covers x) : GoodChain as (pokeAll m ws) c := by
  refine ⟨h.tracked, h.ascending, chained_congr ?_ h.chained⟩
  intro q hq
  refine (loadLE_eq_iff (Nat.le_refl 8)).mpr fun i hi => ?_
  apply pokeAll_outside
  intro w hw
  exact hws w hw q hq _ (inWindow_iff.mpr ⟨i, hi, rfl⟩)

lemma covers_place {q : Place} {w : Write} {format : PointerFormat} (h : Fixes img stubBase format q w)
    (hq : q.loc.toNat < 2 ^ 63) (x : BitVec 64) : w.covers x ↔ InRange q.loc 8 x := by
  obtain ⟨v, -, rfl⟩ := h
  exact inRange_eight hq

/-- The places of all chains are written, each once, and nothing else is. -/
lemma walkAll_chains (hlow : LowRegions as) (hgood : ∀ c ∈ chains, GoodChain as m c)
    (hapart : chains.Pairwise ChainsApart) :
    ∃ ws, (∀ c ∈ chains, ∀ q ∈ c.places, ∃ w ∈ ws, Fixes img stubBase c.format q w) ∧
      (∀ w ∈ ws, ∃ c ∈ chains, ∃ q ∈ c.places, Fixes img stubBase c.format q w) ∧ WritesApart ws ∧
      walkAll as stubBase (img, m) (chains.map Chain.start) =
        ({ img with imports := (chains.flatMap Chain.places).foldl (fun ims q => q.fixup.mark ims) img.imports },
          pokeAll m ws) := by
  induction chains generalizing img m with
  | nil => exact ⟨[], fun c hc => absurd hc List.not_mem_nil, fun w hw => absurd hw List.not_mem_nil, .nil, rfl⟩
  | cons c rest ih =>
    obtain ⟨hc, hrest⟩ := List.forall_mem_cons.mp hgood
    obtain ⟨hother, hapart'⟩ := List.pairwise_cons.mp hapart
    have hbelow := hc.below hlow
    have hmap : ∀ q ∈ c.places, rsdAsMapped as q.loc 8 = true := by
      intro q hq
      have hq63 := hbelow q hq
      exact mapped_of_tracked (hc.tracked q hq) (by omega)
    obtain ⟨ws, hws, hrun⟩ := @walkLoop_chain as c.format stubBase hlow addressCount img m c.first c.rest
      (Nat.le_add_right _ _) hmap hc.ascending hc.chained
    obtain ⟨hplaces, hwrites⟩ := fixes_mem hws
    -- what the first chain writes is apart from everything in the others
    have hcross : ∀ w ∈ ws, ∀ d ∈ rest, ∀ q ∈ d.places, ∀ x, InRange q.loc 8 x → ¬ w.covers x := by
      intro w hw d hd q hq x hx hcov
      obtain ⟨p, hp, hfix⟩ := hwrites w hw
      exact hother d hd p hp q hq x ⟨(covers_place hfix (hbelow p hp) x).mp hcov, hx⟩
    have hkept : ∀ d ∈ rest, GoodChain as (pokeAll m ws) d := by
      intro d hd
      refine (hrest d hd).keep fun w hw q hq x hx => hcross w hw d hd q hq x ?_
      exact (inRange_eight ((hrest d hd).below hlow q hq)).mp hx
    obtain ⟨ws', hplaces', hwrites', hap', hrun'⟩ :=
      @ih (pokeAll m ws) { img with imports := c.places.foldl (fun ims q => q.fixup.mark ims) img.imports } hkept hapart'
    have hsame {format : PointerFormat} {q : Place} {w : Write} (h : Fixes
        { img with imports := c.places.foldl (fun ims q => q.fixup.mark ims) img.imports } stubBase format q w) :
        Fixes img stubBase format q w := by
      obtain ⟨v, hv, rfl⟩ := h
      exact ⟨v, resolves_of_marks hv, rfl⟩
    refine ⟨ws ++ ws', ?_, ?_, ?_, ?_⟩
    · intro d hd q hq
      rcases List.mem_cons.mp hd with rfl | hd
      · obtain ⟨w, hw, hfix⟩ := hplaces q hq
        exact ⟨w, List.mem_append_left ws' hw, hfix⟩
      · obtain ⟨w, hw, hfix⟩ := hplaces' d hd q hq
        exact ⟨w, List.mem_append_right ws hw, hsame hfix⟩
    · intro w hw
      rcases List.mem_append.mp hw with hw | hw
      · obtain ⟨q, hq, hfix⟩ := hwrites w hw
        exact ⟨c, List.mem_cons_self, q, hq, hfix⟩
      · obtain ⟨d, hd, q, hq, hfix⟩ := hwrites' w hw
        exact ⟨d, List.mem_cons_of_mem c hd, q, hq, hsame hfix⟩
    · refine List.pairwise_append.mpr ⟨fixes_apart hws hc.ascending hbelow, hap', fun w hw w' hw' x hx hx' => ?_⟩
      obtain ⟨d, hd, q, hq, hfix⟩ := hwrites' w' hw'
      exact hcross w hw d hd q hq x ((covers_place hfix ((hrest d hd).below hlow q hq) x).mp hx') hx
    · rw [List.map_cons, List.flatMap_cons, List.foldl_append, pokeAll_append]
      refine Eq.trans ?_ hrun'
      have hwalk : walkChain as c.format stubBase img m c.first.loc = _ := hrun
      show walkAll as stubBase (walkChain as c.format stubBase img m c.first.loc) _ = _
      rw [hwalk]
      rfl

end Chains

/-! ### The stubs -/

section Stubs

variable {h : Host} {as : As} {m : Mem}

/-- What the kernel promises for a mapping anywhere: user addresses, and none that is in use. -/
def GrantsFresh (h : Host) (as : As) (len : BitVec 64) : Prop :=
  ∀ p, h.mmap 0 (pageUp h.page len) false = some p → p.toNat + (pageUp h.page len).toNat ≤ 2 ^ 47 ∧
    0 < (pageUp h.page len).toNat ∧ ∀ x, inWindow p (pageUp h.page len).toNat x → ¬ Tracked as x

/-- A mapping anywhere fails, or is recorded where the kernel put it. -/
lemma map_anywhere {len : BitVec 64} (hne : len ≠ 0) (prot : BitVec 32) : (rsdAsMap h as 0 len prot false).1 = 0 ∨
    ∃ p as', h.mmap 0 (pageUp h.page len) false = some p ∧ as'.reg = insertSorted ⟨p, p + pageUp h.page len, prot⟩ as.reg ∧
      rsdAsMap h as 0 len prot false = (p, as', [.mapped p (pageUp h.page len)]) := by
  have hmap : hostMap h 0 len false = (h.mmap 0 (pageUp h.page len) false).map fun p => (p, pageUp h.page len) := by
    simp only [hostMap, mapWant, mapSize, mapHi, if_true, bne_self_eq_false, Bool.false_and, Bool.false_eq_true, if_false]
    cases h.mmap 0 (pageUp h.page len) false <;> rfl
  have hsize : mapSize h 0 len = pageUp h.page len := by simp only [mapSize, mapHi, if_true]
  unfold rsdAsMap
  rw [if_neg hne, hmap, hsize]
  cases h.mmap 0 (pageUp h.page len) false with
  | none => exact .inl rfl
  | some p =>
    simp only [Option.map_some]
    by_cases hfull : as.reg.length = as.cap ∧ h.alloc = false
    · left
      simp only [insert, if_pos hfull]
    · right
      simp only [insert, if_neg hfull, bne_self_eq_false, Bool.false_and, Bool.false_eq_true, if_false]
      exact ⟨p, _, rfl, rfl, rfl⟩

/-- The stubs are recorded: one region from `base` on has room for `n` of them, readable and executable. -/
def StubsMapped (as : As) (base : BitVec 64) (n : Nat) : Prop :=
  ∃ r ∈ as.reg, r.start = base ∧ base.toNat + 16 * n ≤ r.stop.toNat ∧ r.prot = rsdProtR ||| rsdProtX

/-- Mapping the stubs leaves everything else alone, and there is room for all of them. -/
lemma mapStubs_some {n : Nat} (hn : n < 2 ^ 31) (hlow : LowRegions as) {k : Nat} (hk : k < 64)
    (hpage : h.page = BitVec.ofNat 64 (2 ^ k)) (hfresh : GrantsFresh h as (BitVec.ofNat 64 n * rsdStubStride))
    {base : BitVec 64} {as' : As} {m' : Mem} (hmap : mapStubs h as m n = some (base, as', m')) :
    LowRegions as' ∧ (∀ x, Tracked as x → Tracked as' x ∧ m' x = m x) ∧
      (n ≠ 0 → base ≠ 0 ∧ base.toNat + 16 * n ≤ 2 ^ 64 ∧ StubsMapped as' base n) := by
  unfold mapStubs at hmap
  split at hmap
  · next h0 =>
    obtain ⟨rfl, hrest⟩ := Prod.mk.inj (Option.some.inj hmap)
    obtain ⟨rfl, rfl⟩ := Prod.mk.inj hrest
    exact ⟨hlow, fun x hx => ⟨hx, rfl⟩, fun hne => absurd h0 hne⟩
  · next h0 =>
    have hlen : (BitVec.ofNat 64 n * rsdStubStride).toNat = 16 * n := by
      rw [BitVec.toNat_mul, BitVec.toNat_ofNat, stride_toNat]
      omega
    generalize BitVec.ofNat 64 n * rsdStubStride = len at hmap hfresh hlen
    have hne : len ≠ 0 := by
      intro he
      rw [he] at hlen
      have : (0 : BitVec 64).toNat = 0 := rfl
      omega
    rcases @map_anywhere h as len hne (rsdProtR ||| rsdProtX) with hfail | ⟨p, as1, hmm, hreg, heq⟩
    · simp only at hmap
      rw [if_pos hfail] at hmap
      cases hmap
    · obtain ⟨hroom, hpos, hfree⟩ := hfresh p hmm
      simp only [heq, List.foldl_cons, List.foldl_nil, zeroFill] at hmap
      split at hmap
      · cases hmap
      · next hbase =>
        obtain ⟨rfl, hrest⟩ := Prod.mk.inj (Option.some.inj hmap)
        obtain ⟨rfl, rfl⟩ := Prod.mk.inj hrest
        have hend : (p + pageUp h.page len).toNat = p.toNat + (pageUp h.page len).toNat := by
          rw [BitVec.toNat_add]
          omega
        have hup : pageUp h.page len ≠ 0 := by
          intro hzero
          rw [hzero] at hpos
          exact absurd hpos (by decide)
        have hcov := pageUp_covers hk hpage hup
        have hmapped : StubsMapped as1 p n := by
          refine ⟨_, hreg ▸ mem_insertSorted.mpr (.inl rfl), rfl, ?_, rfl⟩
          show p.toNat + 16 * n ≤ (p + pageUp h.page len).toNat
          omega
        refine ⟨fun r hr => ?_, fun x hx => ⟨?_, ?_⟩, fun _ => ⟨hbase, by omega, hmapped⟩⟩
        · rw [hreg] at hr
          rcases mem_insertSorted.mp hr with rfl | hr
          · show (p + pageUp h.page len).toNat ≤ 2 ^ 63
            omega
          · exact hlow r hr
        · obtain ⟨r, hr, hrx⟩ := hx
          refine ⟨r, ?_, hrx⟩
          rw [hreg]
          exact mem_insertSorted.mpr (.inr hr)
        · exact if_neg fun hin => hfree x hin hx

end Stubs

/-! ### The image -/

section Image

variable {dl : Dl} {h : Host} {alloc : Bool} {file : Mem} {off : BitVec 64} {hd : Headers} {img : Image}
  {as : As} {m : Mem} {f : FixupData} {libs : List Text}

/-- An import as it has been looked up, and whether one of the chains binds to it. -/
def importOf (dl : Dl) (chains : List Chain) (i : Nat) (s : Symbol) : Import :=
  { resolveImport dl s with used := (chains.flatMap Chain.places).any (·.fixup.binds i) }

/-- The marks of all chains. -/
lemma marks_eq (dl : Dl) (chains : List Chain) (symbols : List Symbol) :
    (chains.flatMap Chain.places).foldl (fun ims q => q.fixup.mark ims) (rsdResolveImports dl symbols) =
      symbols.mapIdx (importOf dl chains) := by
  apply List.ext_getElem?
  intro i
  rw [foldl_mark_get, List.getElem?_mapIdx, rsdResolveImports, List.getElem?_map, Option.map_map]
  congr 1

/-- Whatever the fixups of an image are, in however many chains, every place gets what its fixup stands for
among the imports as they have been looked up, and memory that was in use is otherwise as it was. The
symbols are those that were written; an import is marked as used exactly if a place binds to it; there is a
stub for every import, in a region that is recorded as readable and executable. It fails only for want of
memory. -/
theorem image_fixed_up (hf : f.LiesAt file (off + hd.fixupsOff.setWidth 64)) (hsize : hd.fixupsSize ≠ 0)
    (hdylibs : List.Forall₂ (fun a name => HoldsAt file a (name ++ [0])) hd.dylibs.val libs)
    (hlibs : ∀ t ∈ libs, (0 : BitVec 8) ∉ t) (hlow : LowRegions as) {k : Nat} (hk : k < 64)
    (hpage : h.page = BitVec.ofNat 64 (2 ^ k))
    (hfresh : GrantsFresh h as (BitVec.ofNat 64 f.imports.length * rsdStubStride)) {chains : List Chain}
    (hchains : chains.map Chain.start = f.chains (img.prefBase + img.slide)) (hgood : ∀ c ∈ chains, GoodChain as m c)
    (hapart : chains.Pairwise ChainsApart) :
    (∀ e, rsdFixups dl h alloc file off hd img as m = .error e →
      f.imports ≠ [] ∧ (e = .noMemory ∧ alloc = false ∨ e = .noStubs)) ∧
    ∀ symbols out as' m', rsdFixups dl h alloc file off hd img as m = .ok (symbols, out, as', m') →
      symbols = f.imports.map (ImportEntry.symbol libs) ∧
      (f.imports ≠ [] → StubRoom out ∧ StubsMapped as' out.stubBase f.imports.length) ∧
      out = { img with imports := symbols.mapIdx (importOf dl chains), stubBase := out.stubBase } ∧
      (∀ c ∈ chains, ∀ q ∈ c.places, ∀ v,
        Resolves { out with imports := rsdResolveImports dl symbols } out.stubBase c.format q.fixup v ↔
          loadLE m' q.loc 8 = v) ∧
      ∀ x, Tracked as x → (∀ c ∈ chains, ∀ q ∈ c.places, ¬ InRange q.loc 8 x) → Tracked as' x ∧ m' x = m x := by
  have hheader := hf.header
  unfold FixupData.header at hheader
  simp only [holdsAt_append, leBytes_length, BitVec.add_assoc, Nat.reduceDiv, BitVec.reduceAdd] at hheader
  obtain ⟨hversion, hstarts, -⟩ := hheader
  have hversion := u32_of_holds hversion
  have hstarts : u32 file (off + hd.fixupsOff.setWidth 64 + 4) = f.startsOffset :=
    u32_of_holds (BitVec.add_assoc .. ▸ hstarts)
  have hcount : (u32 file (off + hd.fixupsOff.setWidth 64 + f.startsOffset.setWidth 64)).toNat = f.segments.length := by
    rw [u32_of_holds hf.starts.left, BitVec.toNat_ofNat, Nat.mod_eq_of_lt f.segmentsCount]
  have hread := parseImports_holds hf hdylibs hlibs alloc
  unfold rsdFixups
  rw [if_neg hsize]
  simp only [hversion, hstarts, hread, hcount]
  rw [if_neg (by simp)]
  by_cases hmemory : f.imports ≠ [] ∧ alloc = false
  · rw [if_pos hmemory]
    refine ⟨fun e he => ?_, fun symbols out as' m' hr => ?_⟩
    · cases he
      exact ⟨hmemory.1, .inl ⟨rfl, hmemory.2⟩⟩
    · cases hr
  · rw [if_neg hmemory]
    simp only [List.length_map]
    cases hmap : mapStubs h as m f.imports.length with
    | none =>
      refine ⟨fun e he => ?_, fun symbols out as' m' hr => ?_⟩
      · cases he
        refine ⟨fun hnil => ?_, .inr rfl⟩
        rw [hnil] at hmap
        cases hmap
      · cases hr
    | some r =>
      obtain ⟨base, as1, m1⟩ := r
      obtain ⟨hlow', hkept, hroom⟩ := mapStubs_some f.importsCount hlow hk hpage hfresh hmap
      have hgood' : ∀ c ∈ chains, GoodChain as1 m1 c := by
        intro c hc
        have hold := hgood c hc
        refine ⟨fun q hq x hx => (hkept x (hold.tracked q hq x hx)).1, hold.ascending, chained_congr ?_ hold.chained⟩
        intro q hq
        refine (loadLE_eq_iff (Nat.le_refl 8)).mpr fun i hi => ?_
        have hx := (inRange_eight (hold.below hlow q hq)).mp (inWindow_iff.mpr ⟨i, hi, rfl⟩)
        exact (hkept _ (hold.tracked q hq _ hx)).2
      let start : Image :=
        { img with imports := rsdResolveImports dl (f.imports.map (ImportEntry.symbol libs)), stubBase := base }
      obtain ⟨ws, hplaces, hwrites, hap, hwalk⟩ := @walkAll_chains as1 m1 start base chains hlow' hgood' hapart
      rw [hchains] at hwalk
      have hfix :=
        (@fixSegments_holds _ _ f as1 base _ hf f.segments.length 0 (Nat.zero_add f.segments.length) (start, m1) rfl).trans
          (congrArg Except.ok hwalk)
      have hmarks := marks_eq dl chains (f.imports.map (ImportEntry.symbol libs))
      simp only
      rw [hfix]
      refine ⟨fun e he => ?_, fun symbols out as' m' hr => ?_⟩
      · cases he
      · cases hr
        refine ⟨rfl, fun hne => ?_, ?_, fun c hc q hq v => ?_, fun x hx hout => ⟨(hkept x hx).1, ?_⟩⟩
        · obtain ⟨hbase, hbound, hmapped⟩ := hroom fun h0 => hne (List.length_eq_zero_iff.mp h0)
          have hlen : ((chains.flatMap Chain.places).foldl (fun ims q => q.fixup.mark ims) start.imports).length =
              f.imports.length := by
            rw [hmarks, List.length_mapIdx, List.length_map]
          exact ⟨⟨hlen ▸ f.importsCount, hbase, hlen ▸ hbound⟩, hmapped⟩
        · simp only [start, hmarks]
        · obtain ⟨w, hw, v', hv', rfl⟩ := hplaces c hc q hq
          have hload : loadLE (pokeAll m1 ws) q.loc 8 = v' := loadLE_wordBytes fun x hx => pokeAll_inside hap hw hx 0
          rw [hload]
          exact ⟨fun hv => hv'.unique hv, fun heq => heq ▸ hv'⟩
        · refine (pokeAll_outside ?_).trans (hkept x hx).2
          intro w hw hcov
          obtain ⟨c, hc, q, hq, hfixes⟩ := hwrites w hw
          exact hout c hc q hq ((covers_place hfixes ((hgood' c hc).below hlow' q hq) x).mp hcov)

end Image

/-! ### One chain -/

/-- One symbol that is not found, and a segment with one page whose chain begins where the page does. -/
def smallData : FixupData where
  startsOffset := 28
  importsOffset := 60
  symbolsOffset := 64
  symbolsFormat := 0
  imports := [⟨ascii "_x", 0, false, 1, by decide⟩]
  segments := [some ⟨8, by decide, ⟨24, 0x4000, .ptr64, 0, 0, [some ⟨0, by decide⟩], by decide⟩⟩]
  importsCount := by decide
  segmentsCount := by decide

def smallDataFile : Mem := poke (fun _ => 0) 0 (smallData.header ++ smallData.startsInImage ++
  [0x18, 0, 0, 0, 0, 0x40, 2, 0, 0, 0, 0, 0, 0, 0, 0, 0, 0, 0, 0, 0, 1, 0, 0, 0] ++ [1, 0, 0, 0] ++ ascii "_x")

lemma smallData_lies : smallData.LiesAt smallDataFile 0 where
  header := by decide
  starts := by decide
  segments := by
    intro s hs x hx
    obtain rfl := List.mem_singleton.mp hs
    obtain rfl := Option.some.inj hx
    decide
  imports := by decide
  names := by
    intro e he
    obtain rfl := List.mem_singleton.mp he
    decide

def smallHeaders : Headers := { Headers.empty true with fixupsSize := 72 }

def smallDl : Dl := ⟨fun _ => 0, fun _ => none, fun _ => 0⟩

def smallChain : Chain := ⟨.ptr64, ⟨0x10000, .rebase 0x100001000 0x80 0⟩, [⟨0x1000C, .bind 0 5 0⟩]⟩

lemma smallChain_good : GoodChain chainedAs chainedMem smallChain where
  tracked := by
    intro q hq x hx
    refine ⟨_, List.mem_singleton.mpr rfl, (has_iff _ x).mpr ?_⟩
    obtain ⟨hlo, hhi⟩ := hx
    have hq : q ∈ chainedPlaces := hq
    rcases List.mem_pair.mp hq with rfl | rfl
    · exact ⟨hlo, by simp at hhi ⊢; omega⟩
    · exact ⟨by simp at hlo ⊢; omega, by simp at hhi ⊢; omega⟩
  ascending := by
    unfold Ascending
    decide
  chained := by
    have hlast : loadLE chainedMem 0x1000C 8 = (Fixup.bind 0 5 0).encode 0 := by decide
    exact ⟨⟨3, by decide, by decide⟩, hlast⟩

def smallImage : Image := { chainedImage with prefBase := 0x10000, slide := 0 }

lemma smallStubs_fresh : GrantsFresh (loadHost true) chainedAs (BitVec.ofNat 64 1 * rsdStubStride) := by
  have hsize : pageUp (loadHost true).page (BitVec.ofNat 64 1 * rsdStubStride) = 0x4000 := by decide
  intro p hp
  obtain rfl := Option.some.inj hp
  rw [hsize]
  refine ⟨by decide, by decide, fun x hx htracked => ?_⟩
  obtain ⟨r, hmem, hrx⟩ := htracked
  obtain rfl := List.mem_singleton.mp hmem
  have hstop := ((has_iff _ x).mp hrx).2
  unfold inWindow at hx
  simp at hstop hx
  bv_omega

theorem image_fixed_up_small : ∃ r,
    rsdFixups smallDl (loadHost true) true smallDataFile 0 smallHeaders smallImage chainedAs chainedMem = .ok r ∧
      r.1 = [⟨ascii "_x", ascii "?", false⟩] ∧ StubsMapped r.2.2.1 r.2.1.stubBase 1 ∧
      loadLE r.2.2.2 0x10000 8 = 0x8000000100001000 := by
  obtain ⟨r, hr⟩ := ok_of_toBool (show
    (rsdFixups smallDl (loadHost true) true smallDataFile 0 smallHeaders smallImage chainedAs chainedMem).toBool =
      true by decide)
  have hlow : LowRegions chainedAs := by
    unfold LowRegions
    decide
  have hgood : ∀ c ∈ [smallChain], GoodChain chainedAs chainedMem c :=
    fun c hc => List.mem_singleton.mp hc ▸ smallChain_good
  have hstart : [smallChain].map Chain.start = smallData.chains (smallImage.prefBase + smallImage.slide) := by decide
  obtain ⟨-, hok⟩ := @image_fixed_up smallDl (loadHost true) true smallDataFile 0 smallHeaders smallImage
    chainedAs chainedMem
    smallData [] smallData_lies (by decide) .nil (fun t ht => absurd ht List.not_mem_nil) hlow 14 (by decide) rfl
      smallStubs_fresh
    [smallChain] hstart hgood (List.pairwise_singleton ..)
  obtain ⟨hsymbols, hstubs, hout, hplaces, -⟩ := hok r.1 r.2.1 r.2.2.1 r.2.2.2 hr
  have hslide : r.2.1.slide = 0 := congrArg (fun i => i.slide) hout
  have hfirst := (hplaces smallChain List.mem_cons_self _ List.mem_cons_self _).mp (.absolute 0x100001000 0x80 0)
  refine ⟨r, hr, hsymbols, (hstubs (by decide)).2, hfirst.trans ?_⟩
  simp only [hslide]
  decide

end Rashid.Proofs
