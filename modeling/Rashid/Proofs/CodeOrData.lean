import Mathlib.Data.List.Forall2
import Rashid.Imports
import Rashid.Proofs.LoadFile

/-!
# Code or data

An imported symbol is bound through a stub if it is code. What decides is the section that its address
lies in, in the native image that it comes from.
-/

namespace Rashid.Proofs

/-- All sections, in the order of the file. -/
def sectionHeadersOf (cs : List Command) : List SectionHeader := cs.flatMap fun
  | .segment _ _ sects => sects
  | _ => []

/-- Where the first `__TEXT` is linked to. -/
def firstTextOf (cs : List Command) : Option (BitVec 64) := cs.findSome? fun
  | .segment s _ _ => if s.name.is segText then some s.vmaddr else none
  | _ => none

/-- Whether a section holds an address, in an image that is slid. -/
def SectionHeader.holds (slide p : BitVec 64) (s : SectionHeader) : Bool :=
  decide (s.sect.addr + slide ≤ p ∧ p < s.sect.addr + slide + s.sect.size)

def SectionHeader.isCode (s : SectionHeader) : Bool := s.flags &&& sAttrInstructions != 0

section Commands

variable {m : Mem} {lc slide p : BitVec 64}

/-- Where the commands begin, and what lies there. -/
lemma commandsFrom_holds {cs : List (Command × Text)} (h : HoldsAt m lc (cs.flatMap fun c => c.1.bytes c.2))
    (hsizes : ∀ c ∈ cs, (c.1.bytes c.2).length < 2 ^ 32) :
    List.Forall₂ (fun a c => HoldsAt m a (c.1.bytes c.2) ∧ (c.1.bytes c.2).length < 2 ^ 32)
      (commandsFrom m cs.length lc) cs := by
  induction cs generalizing lc with
  | nil => exact .nil
  | cons c rest ih =>
    rw [List.flatMap_cons] at h
    obtain ⟨hfirst, hlater⟩ := List.forall_mem_cons.mp hsizes
    have hnext := h.right
    rw [← command_next h.left hfirst] at hnext
    exact .cons ⟨h.left, hfirst⟩ (ih hnext hlater)

lemma sectionIsCode_holds {sec : BitVec 64} {sects : List SectionHeader}
    (h : HoldsAt m sec (sects.flatMap SectionHeader.bytes)) :
    sectionIsCode m slide p sects.length sec =
      (sects.find? (SectionHeader.holds slide p)).map SectionHeader.isCode := by
  induction sects generalizing sec with
  | nil => rfl
  | cons s rest ih =>
    rw [List.flatMap_cons] at h
    have hnext := h.right
    rw [section_length] at hnext
    obtain ⟨hsect, hflags⟩ := sectAt_of_holds h.left
    have haddr : u64 m (sec + 32) = s.sect.addr := congrArg Sect.addr hsect
    have hsize : u64 m (sec + 40) = s.sect.size := congrArg Sect.size hsect
    rw [List.length_cons, sectionIsCode, haddr, hsize, hflags, List.find?_cons]
    unfold SectionHeader.holds
    by_cases hin : s.sect.addr + slide ≤ p ∧ p < s.sect.addr + slide + s.sect.size
    · simp only [if_pos hin, decide_eq_true hin, Option.map_some]
      rfl
    · simp only [if_neg hin, decide_eq_false hin]
      exact ih hnext

lemma commandIsCode_holds {c : Command} {pad : Text} (h : HoldsAt m lc (c.bytes pad))
    (hsize : (c.bytes pad).length < 2 ^ 32) :
    commandIsCode m slide p lc = ((sectionHeadersOf [c]).find? (SectionHeader.holds slide p)).map
      SectionHeader.isCode := by
  have hcode := (command_holds h).1
  unfold commandIsCode
  rw [hcode]
  cases c with
  | segment s flags sects =>
    obtain ⟨-, -, hn, hsects⟩ := segment_holds h
    simp only [Command.code, if_true]
    rw [hn, sections_count hsize, sectionIsCode_holds hsects]
    simp [sectionHeadersOf]
  | other cmd body unknown =>
    have hno : cmd ≠ lcSegment64 := fun he => unknown (he ▸ List.mem_cons_self)
    exact if_neg hno
  | main => rfl
  | unixthread => rfl
  | chainedFixups => rfl
  | dylib kind => cases kind <;> rfl

lemma findSome_code {cs : List (Command × Text)} {lcs : List (BitVec 64)}
    (h : List.Forall₂ (fun a c => HoldsAt m a (c.1.bytes c.2) ∧ (c.1.bytes c.2).length < 2 ^ 32) lcs cs) :
    lcs.findSome? (commandIsCode m slide p) =
      ((sectionHeadersOf (cs.map Prod.fst)).find? (SectionHeader.holds slide p)).map SectionHeader.isCode := by
  induction h with
  | nil => rfl
  | @cons lc c lcs cs hc _ ih =>
    have hsplit : sectionHeadersOf ((c :: cs).map Prod.fst) =
        sectionHeadersOf [c.1] ++ sectionHeadersOf (cs.map Prod.fst) := by
      simp [sectionHeadersOf]
    rw [List.findSome?_cons, commandIsCode_holds hc.1 hc.2, hsplit, List.find?_append, ih]
    cases (sectionHeadersOf [c.1]).find? (SectionHeader.holds slide p) <;> rfl

lemma textVm_holds {cs : List (Command × Text)} {lcs : List (BitVec 64)}
    (h : List.Forall₂ (fun a c => HoldsAt m a (c.1.bytes c.2) ∧ (c.1.bytes c.2).length < 2 ^ 32) lcs cs) :
    textVm m lcs = (firstTextOf (cs.map Prod.fst)).getD 0 := by
  induction h with
  | nil => rfl
  | @cons lc c lcs cs hc _ ih =>
    obtain ⟨c, pad⟩ := c
    have hcode := (command_holds hc.1).1
    have hskip (hno : c.code ≠ lcSegment64) (hnone : firstTextOf (c :: cs.map Prod.fst) = firstTextOf (cs.map Prod.fst)) :
        textVm m (lc :: lcs) = (firstTextOf (c :: cs.map Prod.fst)).getD 0 := by
      rw [hnone, ← ih]
      unfold textVm
      rw [List.find?_cons, hcode, beq_false_of_ne hno, Bool.false_and]
    rw [List.map_cons]
    cases c with
    | segment s flags sects =>
      obtain ⟨hname, hseg, -, -⟩ := segment_holds hc.1
      have hlow : u64 m (lc + 24) = s.vmaddr := congrArg (fun x => x.vmaddr) hseg
      have hfound : (u32 m lc == lcSegment64 && strEq m (lc + 8) segText) = s.name.is segText := by
        rw [hcode, strEq_of_holds hname (by decide)]
        rfl
      cases htext : s.name.is segText with
      | true =>
        unfold textVm firstTextOf
        simp only [List.find?_cons, hfound, htext, List.findSome?_cons, if_true, hlow, Option.getD_some]
      | false =>
        unfold textVm firstTextOf at ih ⊢
        simp only [List.find?_cons, hfound, htext, List.findSome?_cons, Bool.false_eq_true, if_false]
        exact ih
    | other cmd body unknown =>
      have hno : cmd ≠ lcSegment64 := fun he => unknown (he ▸ List.mem_cons_self)
      exact hskip hno rfl
    | main => exact hskip (show lcMain ≠ lcSegment64 by decide) rfl
    | unixthread => exact hskip (show lcUnixthread ≠ lcSegment64 by decide) rfl
    | chainedFixups => exact hskip (show lcDyldChainedFixups ≠ lcSegment64 by decide) rfl
    | dylib kind =>
      have hno : kind.code ≠ lcSegment64 := by cases kind <;> decide
      exact hskip hno rfl

end Commands

/-- A symbol is code exactly if the first section that its address lies in holds instructions, whatever
the segments are called and allow; and where no section holds it. -/
theorem code_by_section {dl : Dl} {p mh : BitVec 64} {hd : MachHeader} {cs : Commands} (hdladdr : dl.dladdr p = some mh)
    (hmh : mh ≠ 0) (h : HoldsAt dl.mem mh (imageBytes hd cs)) :
    addrIsCode dl p =
      ((sectionHeadersOf cs.all).find? (SectionHeader.holds (mh - (firstTextOf cs.all).getD 0) p)).elim true
      SectionHeader.isCode := by
  obtain ⟨hmagic, -, hn, -⟩ := header_holds h.left
  have hcommands := h.right
  rw [header_length] at hcommands
  have hcount : (u32 dl.mem (mh + 16)).toNat = cs.list.length := by
    rw [hn, BitVec.toNat_ofNat, Nat.mod_eq_of_lt cs.count]
  have hall := commandsFrom_holds hcommands cs.sizes
  unfold addrIsCode commands
  rw [hdladdr]
  simp only [hmagic, hcount, hmh, ne_eq, not_true_eq_false, or_self, if_false]
  rw [BitVec.ofNat_eq_ofNat, textVm_holds hall, findSome_code hall]
  unfold Commands.all
  cases (sectionHeadersOf (cs.list.map Prod.fst)).find?
    (SectionHeader.holds (mh - (firstTextOf (cs.list.map Prod.fst)).getD 0) p) <;> rfl

/-- An arm64 image, loaded at `0x50000`, whose one segment has a section of code and one of data. -/
def nativeDl : Dl :=
  ⟨fun _ => 0, fun _ => some 0x50000,
    poke (fun _ => 0) 0x50000 (imageBytes { smallHeader with cputype := 0x0100000C } sectionedCommands)⟩

lemma nativeDl_holds :
    HoldsAt nativeDl.mem 0x50000 (imageBytes { smallHeader with cputype := 0x0100000C } sectionedCommands) := by
  apply holdsAt_poke
  decide +kernel

theorem code_by_section_small : addrIsCode nativeDl 0x50410 = true ∧ addrIsCode nativeDl 0x50510 = false :=
  ⟨(code_by_section (show nativeDl.dladdr 0x50410 = some 0x50000 from rfl) (by decide) nativeDl_holds).trans (by decide),
    (code_by_section (show nativeDl.dladdr 0x50510 = some 0x50000 from rfl) (by decide) nativeDl_holds).trans (by decide)⟩

end Rashid.Proofs
