import Rashid.MachoFormat

/-!
# The fields of load commands

What is read at the offsets that the loader uses is what was written there.
-/

namespace Rashid.Proofs

lemma ok_of_toBool {ε α : Type} {r : Except ε α} (h : r.toBool = true) : ∃ a, r = .ok a := by
  cases r with
  | error e => cases h
  | ok a => exact ⟨a, rfl⟩

section Fields

variable {m : Mem} {a : BitVec 64} {pad : Text}

lemma u32_of_holds {v : BitVec 32} (h : HoldsAt m a (leBytes v)) : u32 m a = v := h.read (by decide) rfl

lemma u64_of_holds {v : BitVec 64} (h : HoldsAt m a (leBytes v)) : u64 m a = v := h.read (by decide) rfl

lemma nameAt_of_holds {n : Name} (h : HoldsAt m a n.val) : nameAt m a = n := by
  have hpeek := h.peek
  rw [n.sixteen] at hpeek
  cases n
  simp only [nameAt, hpeek]

/-- Comparing a name with a shorter text does not look past the name. -/
lemma strEq_of_holds {n : Name} (h : HoldsAt m a n.val) {s : Text} (hs : s.length < 16) : strEq m a s = n.is s := by
  have hpeek := h.peek
  rw [n.sixteen] at hpeek
  unfold strEq Name.is
  rw [← hpeek, peek_take m a hs]

/-- Every command begins with its code and its length. -/
lemma command_holds {c : Command} (h : HoldsAt m a (c.bytes pad)) :
    u32 m a = c.code ∧ u32 m (a + 4) = BitVec.ofNat 32 (8 + (c.body ++ pad).length) ∧
      HoldsAt m (a + 8) (c.body ++ pad) := by
  unfold Command.bytes at h
  obtain ⟨hcode, hrest⟩ := holdsAt_append.mp h
  obtain ⟨hsize, hbody⟩ := holdsAt_append.mp hrest
  simp only [leBytes_length, BitVec.add_assoc] at hsize hbody
  exact ⟨u32_of_holds hcode, u32_of_holds hsize, hbody⟩

lemma command_length (c : Command) (pad : Text) : (c.bytes pad).length = 8 + (c.body ++ pad).length := by
  unfold Command.bytes
  simp only [List.length_append, leBytes_length]
  omega

/-- The next command lies where this one ends. -/
lemma command_next {c : Command} (h : HoldsAt m a (c.bytes pad)) (hsize : (c.bytes pad).length < 2 ^ 32) :
    (u32 m (a + 4)).setWidth 64 = BitVec.ofNat 64 (c.bytes pad).length := by
  rw [command_length] at hsize ⊢
  rw [(command_holds h).2.1]
  apply BitVec.eq_of_toNat_eq
  rw [BitVec.toNat_setWidth, BitVec.toNat_ofNat, BitVec.toNat_ofNat]
  omega

lemma sectAt_of_holds {s : SectionHeader} (h : HoldsAt m a s.bytes) : sectAt m a = s.sect ∧ u32 m (a + 64) = s.flags := by
  unfold SectionHeader.bytes at h
  simp only [holdsAt_append, leBytes_length, s.sect.name.sixteen, s.sect.seg.sixteen, BitVec.add_assoc, Nat.reduceDiv,
    BitVec.reduceAdd] at h
  obtain ⟨hname, hseg, haddr, hsize, -, -, -, -, hflags, -⟩ := h
  refine ⟨?_, u32_of_holds hflags⟩
  unfold sectAt
  simp only [BitVec.ofNat_eq_ofNat, nameAt_of_holds hname, nameAt_of_holds hseg, u64_of_holds haddr, u64_of_holds hsize]

lemma section_length (s : SectionHeader) : s.bytes.length = 80 := by
  unfold SectionHeader.bytes
  simp only [List.length_append, leBytes_length, s.sect.name.sixteen, s.sect.seg.sixteen]

lemma segment_holds {s : NamedSegment} {flags : BitVec 32} {sects : List SectionHeader}
    (h : HoldsAt m a ((Command.segment s flags sects).bytes pad)) :
    HoldsAt m (a + 8) s.name.val ∧ segmentAt m a = s ∧ u32 m (a + 64) = BitVec.ofNat 32 sects.length ∧
      HoldsAt m (a + 72) (sects.flatMap SectionHeader.bytes) := by
  have hbody := (command_holds h).2.2.left
  unfold Command.body at hbody
  simp only [holdsAt_append, leBytes_length, s.name.sixteen, BitVec.add_assoc, Nat.reduceDiv, BitVec.reduceAdd,
    BitVec.ofNat_eq_ofNat] at hbody
  obtain ⟨hname, hvmaddr, hvmsize, hfileoff, hfilesize, hmax, hinit, hn, -, hsects⟩ := hbody
  refine ⟨hname, ?_, u32_of_holds hn, hsects⟩
  unfold segmentAt
  simp only [BitVec.ofNat_eq_ofNat, nameAt_of_holds hname, u64_of_holds hvmaddr, u64_of_holds hvmsize,
    u64_of_holds hfileoff, u64_of_holds hfilesize, u32_of_holds hmax,
    u32_of_holds hinit]

/-- The sections fit the field that counts them, as the command fits its length. -/
lemma sections_count {s : NamedSegment} {flags : BitVec 32} {sects : List SectionHeader}
    (h : ((Command.segment s flags sects).bytes pad).length < 2 ^ 32) : (BitVec.ofNat 32 sects.length).toNat =
      sects.length := by
  have hflat : (sects.flatMap SectionHeader.bytes).length = 80 * sects.length := by
    induction sects with
    | nil => rfl
    | cons x xs ih =>
      have hshort : ((Command.segment s flags xs).bytes pad).length < 2 ^ 32 := by
        refine Nat.lt_of_le_of_lt ?_ h
        simp only [command_length, Command.body, List.length_append, List.flatMap_cons, leBytes_length]
        omega
      rw [List.flatMap_cons, List.length_append, section_length, ih hshort, List.length_cons]
      omega
  simp only [command_length, Command.body, List.length_append, hflat] at h
  rw [BitVec.toNat_ofNat]
  omega

lemma main_holds {entryoff stacksize : BitVec 64} (h : HoldsAt m a ((Command.main entryoff stacksize).bytes pad)) :
    u64 m (a + 8) = entryoff := u64_of_holds ((command_holds h).2.2.left.left)

lemma words_length (regs : Fin 16 → BitVec 64) : ((List.ofFn regs).flatMap leBytes).length = 128 := by
  simp

lemma unixthread_holds {flavor count : BitVec 32} {regs : Fin 16 → BitVec 64} {rip : BitVec 64}
    (h : HoldsAt m a ((Command.unixthread flavor count regs rip).bytes pad)) : u64 m (a + 144) = rip := by
  have hbody := (command_holds h).2.2.left
  unfold Command.body at hbody
  simp only [holdsAt_append, leBytes_length, words_length, BitVec.add_assoc] at hbody
  exact u64_of_holds hbody.2.2.2

lemma chainedFixups_holds {dataoff datasize : BitVec 32}
    (h : HoldsAt m a ((Command.chainedFixups dataoff datasize).bytes pad)) :
    u32 m (a + 8) = dataoff ∧ u32 m (a + 12) = datasize := by
  have hbody := (command_holds h).2.2.left
  unfold Command.body at hbody
  simp only [holdsAt_append, leBytes_length, BitVec.add_assoc] at hbody
  exact ⟨u32_of_holds hbody.1, u32_of_holds hbody.2⟩

/-- The name of a library lies where its command says. -/
lemma dylib_holds {kind : DylibKind} {timestamp current compatibility : BitVec 32} {gap name : Text}
    (h : HoldsAt m a ((Command.dylib kind timestamp current compatibility gap name).bytes pad))
    (hsize : ((Command.dylib kind timestamp current compatibility gap name).bytes pad).length < 2 ^ 32) :
    HoldsAt m (a + (u32 m (a + 8)).setWidth 64) (name ++ [0]) := by
  have hbody := (command_holds h).2.2.left
  unfold Command.body at hbody
  rw [holdsAt_append, holdsAt_append, holdsAt_append, holdsAt_append, holdsAt_append] at hbody
  simp only [leBytes_length, BitVec.add_assoc] at hbody
  have hgap : 24 + gap.length < 2 ^ 32 := by
    simp only [Command.bytes, Command.body, List.length_append, leBytes_length] at hsize
    omega
  have hoff : (BitVec.ofNat 32 (24 + gap.length)).setWidth 64 = 24 + BitVec.ofNat 64 gap.length := by
    rw [BitVec.setWidth_ofNat_of_le_of_lt (by decide) hgap, BitVec.ofNat_add]
    rfl
  have hsum (g : BitVec 64) : 24 + g = 8 + (4 + (4 + (4 + (4 + g)))) := by
    simp only [← BitVec.add_assoc]
    rfl
  rw [u32_of_holds hbody.1, hoff, hsum]
  exact hbody.2.2.2.2.2

lemma header_holds {hd : MachHeader} {n : Nat} (h : HoldsAt m a (hd.bytes n)) :
    u32 m a = mhMagic64 ∧ u32 m (a + 4) = hd.cputype ∧ u32 m (a + 16) = BitVec.ofNat 32 n ∧ u32 m (a + 24) = hd.flags := by
  unfold MachHeader.bytes at h
  simp only [holdsAt_append, leBytes_length, BitVec.add_assoc] at h
  obtain ⟨hmagic, hcpu, -, -, hn, -, hflags, -⟩ := h
  exact ⟨u32_of_holds hmagic, u32_of_holds hcpu, u32_of_holds hn, u32_of_holds hflags⟩

lemma header_length (hd : MachHeader) (n : Nat) : (hd.bytes n).length = 32 := by
  unfold MachHeader.bytes
  simp only [List.length_append, leBytes_length]

end Fields

end Rashid.Proofs
