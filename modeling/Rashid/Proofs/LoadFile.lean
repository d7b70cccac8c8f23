import Rashid.Proofs.ImagePlacement
import Rashid.Proofs.LoadHeaders

/-!
# Loading a file

From the bytes of a file, thin or fat, to an image in guest memory: the slice is found, its commands are
taken in, and every segment that they name is where they say, slid.
-/

namespace Rashid.Proofs

/-! ### Finding the slice -/

section Slice

variable {file : Mem} {a : BitVec 64} {sz : Nat}

end Slice

/-! ### Taking in the commands -/

section Commands

variable {m : Mem} {mh : BitVec 64} {hd : MachHeader} {cs : Commands}

/-- Whatever commands an image has, in whatever order, the loader gathers what they say: all the segments
but `__PAGEZERO` if there is room, and as many sections and libraries as there is room for, each in the
order of the file; the last `__TEXT`, entry point and fixups. It fails exactly if there are too many
segments, or no segment or no entry point. -/
theorem headers_described (h : HoldsAt m mh (imageBytes hd cs)) :
    (∀ e, loadHeaders m mh = .error e ↔
      e = .tooManySegments ∧ rsdMaxSegs < (segmentsOf cs.all).length ∨
      e = .noEntry ∧ (segmentsOf cs.all).length ≤ rsdMaxSegs ∧ (segmentsOf cs.all = [] ∨ entriesOf cs.all = [])) ∧
    ∀ hs, loadHeaders m mh = .ok hs → Described m hd.pie cs.all hs := by
  obtain ⟨-, -, hn, hflags⟩ := header_holds h.left
  have hcommands := h.right
  rw [header_length] at hcommands
  have hcount : (u32 m (mh + 16)).toNat = cs.list.length := by
    rw [hn, BitVec.toNat_ofNat, Nat.mod_eq_of_lt cs.count]
  have hempty : Described m hd.pie [] (.empty hd.pie) := ⟨rfl, rfl, rfl, .nil, rfl, rfl, rfl⟩
  have hpie : (hd.flags &&& mhPie != 0) = hd.pie := rfl
  unfold loadHeaders commands
  rw [hcount, hflags, hpie]
  rcases hempty.run hcommands cs.sizes with ⟨h', heq, hdesc⟩ | ⟨heq, hmany⟩
  · rw [List.nil_append] at hdesc
    have hroom : (segmentsOf cs.all).length ≤ rsdMaxSegs := by
      have hle := h'.segs.fits
      rw [hdesc.segs, List.length_map] at hle
      exact hle
    have hsegs : h'.segs.val.isEmpty = true ↔ segmentsOf cs.all = [] := by
      rw [hdesc.segs, List.isEmpty_iff, List.map_eq_nil_iff]
      exact Iff.rfl
    have hentry : h'.gotEntry = false ↔ entriesOf cs.all = [] := by
      have hlast := hdesc.entry
      cases hgot : h'.gotEntry with
      | false =>
        rw [hgot, if_neg Bool.false_ne_true] at hlast
        exact ⟨fun _ => List.getLast?_eq_none_iff.mp hlast, fun _ => rfl⟩
      | true =>
        rw [hgot, if_pos rfl] at hlast
        refine ⟨fun hno => Bool.noConfusion hno, fun hnil => ?_⟩
        have hnil' : entriesOf (cs.list.map Prod.fst) = [] := hnil
        rw [hnil'] at hlast
        cases hlast
    rw [BitVec.ofNat_eq_ofNat, heq]
    simp only [Bool.or_eq_true, Bool.not_eq_true', hsegs, hentry]
    split
    · next hno =>
      refine ⟨fun e => ⟨fun he => ?_, fun he => ?_⟩, fun hs he => ?_⟩
      · cases he
        exact .inr ⟨rfl, hroom, hno⟩
      · rcases he with ⟨-, hmany⟩ | ⟨rfl, -⟩
        · exact absurd hroom (Nat.not_le.mpr hmany)
        · rfl
      · cases he
    · next hno =>
      refine ⟨fun e => ⟨fun he => ?_, fun he => ?_⟩, fun hs he => ?_⟩
      · cases he
      · rcases he with ⟨-, hmany⟩ | ⟨-, -, hnone⟩
        · exact absurd hroom (Nat.not_le.mpr hmany)
        · exact absurd hnone hno
      · cases he
        exact hdesc
  · rw [List.nil_append] at hmany
    have hmany' : rsdMaxSegs < (segmentsOf cs.all).length := hmany
    rw [BitVec.ofNat_eq_ofNat, heq]
    refine ⟨fun e => ⟨fun he => ?_, fun he => ?_⟩, fun hs he => ?_⟩
    · cases he
      exact .inl ⟨rfl, hmany'⟩
    · rcases he with ⟨rfl, -⟩ | ⟨-, hle, -⟩
      · rfl
      · exact absurd hle (Nat.not_le.mpr hmany')
    · cases he

end Commands

/-! ### The whole file -/

section File

variable {h : Host} {hs : List Host} {sz : Nat} {file : Mem} {as : As} {m : Mem} {hd : MachHeader} {cs : Commands}
  {off : BitVec 64}

end File

/-! ### A small file -/

/-- One segment with four bytes of contents, which are the first of the file. -/
def smallSegment : NamedSegment where
  name := ⟨[0x5F, 0x5F, 0x54, 0x45, 0x58, 0x54, 0, 0, 0, 0, 0, 0, 0, 0, 0, 0], rfl⟩
  vmaddr := 0x100000000
  vmsize := 0x4000
  fileoff := 0
  filesize := 4
  initprot := 5
  maxprot := 5

def smallHeader : MachHeader := ⟨cpuTypeX8664, 3, 2, 96, 0x200085, 0⟩

/-- A section of instructions and one of data, as a compiler marks them. -/
def smallSections : List SectionHeader :=
  [⟨⟨smallSegment.name, ⟨ascii "__text" ++ List.replicate 10 0, rfl⟩, 0x100000400, 0x100⟩, 0x400, 4, 0, 0,
    0x80000400, 0, 0, 0⟩,
   ⟨⟨smallSegment.name, ⟨ascii "__const" ++ List.replicate 9 0, rfl⟩, 0x100000500, 0x80⟩, 0x500, 4, 0, 0, 0, 0, 0, 0⟩]

/-- With a library, whose name is not right behind the header of its command, and fixups. -/
def sectionedCommands : Commands where
  list := [(.segment smallSegment 0 smallSections, []),
    (.dylib .load 2 0x10000 0x10000 [0, 0] (ascii "libz.dylib"), [0, 0, 0]),
    (.chainedFixups 0x4000 0x58, []), (.main 0x400 0, [])]
  count := by decide
  sizes := by decide +kernel

def sectionedFile : Mem := poke (fun _ => 0) 0 (imageBytes smallHeader sectionedCommands)

lemma sectionedFile_holds : HoldsAt sectionedFile 0 (imageBytes smallHeader sectionedCommands) := by
  apply holdsAt_poke
  decide +kernel

theorem headers_described_small : ∃ hs, loadHeaders sectionedFile 0 = .ok hs ∧
    Described sectionedFile true sectionedCommands.all hs ∧ hs.sects.val = smallSections.map SectionHeader.sect ∧
      hs.dylibs.val.length = 1 ∧ (hs.fixupsOff, hs.fixupsSize) = (0x4000, 0x58) := by
  obtain ⟨hs, hload⟩ := ok_of_toBool (show (loadHeaders sectionedFile 0).toBool = true by decide +kernel)
  have hdesc := (headers_described sectionedFile_holds).2 hs hload
  exact ⟨hs, hload, hdesc, hdesc.sects, hdesc.dylibs.length_eq, hdesc.fixups⟩

end Rashid.Proofs
