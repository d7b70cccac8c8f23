import Mathlib.Data.List.Forall2
import Rashid.Proofs.CommandFields

/-!
# What the load commands say

The loader takes in one command after the other. What it has gathered is what the commands so far say,
as far as the arrays of the image have room; only segments that find no room make it fail.
-/

namespace Rashid.Proofs

/-- What has been gathered from the commands `cs`. -/
structure Described (m : Mem) (pie : Bool) (cs : List Command) (h : Headers) : Prop where
  pie : h.pie = pie
  segs : h.segs.val = (segmentsOf cs).map Prod.fst
  sects : h.sects.val = (sectionsOf cs).take rsdMaxSects
  dylibs : List.Forall₂ (fun a name => HoldsAt m a (name ++ [0])) h.dylibs.val ((librariesOf cs).take rsdMaxDylibs)
  prefBase : h.prefBase = (textBaseOf cs).getD 0
  entry : (entriesOf cs).getLast? = if h.gotEntry then some (h.hasMain, h.entryOff) else none
  fixups : (h.fixupsOff, h.fixupsSize) = (fixupsOf cs).getLast?.getD (0, 0)

section Steps

variable {m : Mem} {lc : BitVec 64} {pie : Bool} {cs : List Command} {h : Headers} {c : Command} {pad : Text}

lemma segmentsOf_append (cs cs' : List Command) : segmentsOf (cs ++ cs') = segmentsOf cs ++ segmentsOf cs' :=
  List.filterMap_append

lemma entriesOf_append (cs cs' : List Command) : entriesOf (cs ++ cs') = entriesOf cs ++ entriesOf cs' :=
  List.filterMap_append

lemma fixupsOf_append (cs cs' : List Command) : fixupsOf (cs ++ cs') = fixupsOf cs ++ fixupsOf cs' := List.filterMap_append

lemma librariesOf_append (cs cs' : List Command) : librariesOf (cs ++ cs') = librariesOf cs ++ librariesOf cs' :=
  List.filterMap_append

/-- The sections of one segment are added until the array is full. -/
lemma loadSections_val {sec : BitVec 64} {sects : List SectionHeader}
    (hm : HoldsAt m sec (sects.flatMap SectionHeader.bytes))
    (l : Upto rsdMaxSects Sect) :
    (loadSections m sects.length sec l).val = (l.val ++ sects.map SectionHeader.sect).take rsdMaxSects := by
  induction sects generalizing sec l with
  | nil =>
    rw [List.map_nil, List.append_nil]
    exact l.val_eq_of_take.symm
  | cons s rest ih =>
    rw [List.flatMap_cons] at hm
    have hnext := hm.right
    rw [section_length] at hnext
    rw [List.length_cons, loadSections, (sectAt_of_holds hm.left).1, List.map_cons]
    cases hpush : l.push? s.sect with
    | none =>
      have hfull : l.val.length = rsdMaxSects := Upto.push?_none.mp hpush
      exact (List.take_left' hfull).symm
    | some l' =>
      refine (ih hnext l').trans ?_
      rw [Upto.push?_some hpush, List.append_assoc, List.singleton_append]

/-- A command that says nothing of segments changes neither them, nor their sections, nor the base. -/
lemma segments_kept (hc : segmentsOf [c] = []) (hd : Described m pie cs h) :
    h.segs.val = (segmentsOf (cs ++ [c])).map Prod.fst ∧ h.sects.val = (sectionsOf (cs ++ [c])).take rsdMaxSects ∧
      h.prefBase = (textBaseOf (cs ++ [c])).getD 0 := by
  have hsame : segmentsOf (cs ++ [c]) = segmentsOf cs := by
    rw [segmentsOf_append, hc, List.append_nil]
  unfold sectionsOf textBaseOf
  rw [hsame]
  exact ⟨hd.segs, hd.sects, hd.prefBase⟩

lemma entry_kept (hc : entriesOf [c] = []) (hd : Described m pie cs h) :
    (entriesOf (cs ++ [c])).getLast? = if h.gotEntry then some (h.hasMain, h.entryOff) else none := by
  rw [entriesOf_append, hc, List.append_nil]
  exact hd.entry

lemma fixups_kept (hc : fixupsOf [c] = []) (hd : Described m pie cs h) :
    (h.fixupsOff, h.fixupsSize) = (fixupsOf (cs ++ [c])).getLast?.getD (0, 0) := by
  rw [fixupsOf_append, hc, List.append_nil]
  exact hd.fixups

lemma dylibs_kept (hc : librariesOf [c] = []) (hd : Described m pie cs h) : List.Forall₂
    (fun a name => HoldsAt m a (name ++ [0])) h.dylibs.val ((librariesOf (cs ++ [c])).take rsdMaxDylibs) := by
  rw [librariesOf_append, hc, List.append_nil]
  exact hd.dylibs

lemma segmentsOf_one (s : NamedSegment) (flags : BitVec 32) (sects : List SectionHeader) :
    segmentsOf [.segment s flags sects] = if s.name.is segPagezero then [] else [(s, sects)] := by
  unfold segmentsOf
  cases hzero : s.name.is segPagezero with
  | true => simp [hzero]
  | false => simp [hzero]

/-- A segment is skipped, taken in, or one too many. -/
lemma segment_described {s : NamedSegment} {flags : BitVec 32} {sects : List SectionHeader} (hd : Described m pie cs h)
    (hm : HoldsAt m lc ((Command.segment s flags sects).bytes pad))
    (hsize : ((Command.segment s flags sects).bytes pad).length < 2 ^ 32) :
    (∃ h', loadSegment m h lc = .ok h' ∧ Described m pie (cs ++ [.segment s flags sects]) h') ∨
      loadSegment m h lc = .error .tooManySegments ∧
        rsdMaxSegs < (segmentsOf (cs ++ [.segment s flags sects])).length := by
  obtain ⟨hname, hseg, hn, hsects⟩ := segment_holds hm
  have hlow : u64 m (lc + 24) = s.vmaddr := congrArg (fun x => x.vmaddr) hseg
  have hone := segmentsOf_one s flags sects
  have hentry := entry_kept (c := .segment s flags sects) rfl hd
  have hfixups := fixups_kept (c := .segment s flags sects) rfl hd
  have hdylibs := dylibs_kept (c := .segment s flags sects) rfl hd
  unfold loadSegment
  rw [strEq_of_holds hname (by decide), strEq_of_holds hname (by decide), hseg, hn, sections_count hsize, hlow]
  split
  · next hzero =>
    rw [if_pos hzero] at hone
    obtain ⟨hsegs, hss, hbase⟩ := segments_kept hone hd
    exact .inl ⟨h, rfl, hd.pie, hsegs, hss, hdylibs, hbase, hentry, hfixups⟩
  · next hzero =>
    rw [if_neg hzero] at hone
    have hall : segmentsOf (cs ++ [.segment s flags sects]) = segmentsOf cs ++ [(s, sects)] := by
      rw [segmentsOf_append, hone]
    cases hpush : h.segs.push? s with
    | none =>
      have hfull : h.segs.val.length = rsdMaxSegs := Upto.push?_none.mp hpush
      rw [hd.segs, List.length_map] at hfull
      refine .inr ⟨rfl, ?_⟩
      rw [hall, List.length_append, hfull]
      exact Nat.lt_succ_self _
    | some segs =>
      refine .inl ⟨_, rfl, hd.pie, ?_, ?_, hdylibs, ?_, hentry, hfixups⟩
      · rw [hall, List.map_append]
        simp only [Upto.push?_some hpush, hd.segs, List.map_cons, List.map_nil]
      · simp only
        rw [loadSections_val hsects, hd.sects, Upto.take_take_append]
        unfold sectionsOf
        rw [hall, List.flatMap_append, List.flatMap_singleton]
      · unfold textBaseOf
        rw [hall, List.filter_append]
        simp only [List.filter_cons, List.filter_nil]
        split
        · rw [List.getLast?_concat]
          rfl
        · rw [List.append_nil]
          exact hd.prefBase

/-- One command. -/
lemma Described.step (hd : Described m pie cs h) (hm : HoldsAt m lc (c.bytes pad))
    (hsize : (c.bytes pad).length < 2 ^ 32) :
    (∃ h', loadCommand m h lc = .ok h' ∧ Described m pie (cs ++ [c]) h') ∨
      loadCommand m h lc = .error .tooManySegments ∧ rsdMaxSegs < (segmentsOf (cs ++ [c])).length := by
  have hcode := (command_holds hm).1
  unfold loadCommand
  rw [hcode]
  cases c with
  | segment s flags sects =>
    simp only [Command.code, if_true]
    exact segment_described hd hm hsize
  | main entryoff stacksize =>
    obtain ⟨hsegs, hss, hbase⟩ := segments_kept (c := .main entryoff stacksize) rfl hd
    refine .inl ⟨_, rfl, hd.pie, hsegs, hss, dylibs_kept (h := h) rfl hd, hbase, ?_, fixups_kept (h := h) rfl hd⟩
    rw [entriesOf_append, main_holds hm]
    exact List.getLast?_concat
  | unixthread flavor count regs rip =>
    obtain ⟨hsegs, hss, hbase⟩ := segments_kept (c := .unixthread flavor count regs rip) rfl hd
    refine .inl ⟨_, rfl, hd.pie, hsegs, hss, dylibs_kept (h := h) rfl hd, hbase, ?_, fixups_kept (h := h) rfl hd⟩
    rw [entriesOf_append, unixthread_holds hm]
    exact List.getLast?_concat
  | chainedFixups dataoff datasize =>
    obtain ⟨hsegs, hss, hbase⟩ := segments_kept (c := .chainedFixups dataoff datasize) rfl hd
    refine .inl ⟨_, rfl, hd.pie, hsegs, hss, dylibs_kept (h := h) rfl hd, hbase, entry_kept (h := h) rfl hd, ?_⟩
    obtain ⟨hoff, hlen⟩ := chainedFixups_holds hm
    have hlast : fixupsOf (cs ++ [.chainedFixups dataoff datasize]) = fixupsOf cs ++ [(dataoff, datasize)] :=
      fixupsOf_append ..
    rw [hlast, List.getLast?_concat, Option.getD_some, hoff, hlen]
  | dylib kind timestamp current compatibility gap name =>
    obtain ⟨hsegs, hss, hbase⟩ := segments_kept (c := .dylib kind timestamp current compatibility gap name) rfl hd
    have hdylibs : List.Forall₂ (fun a name => HoldsAt m a (name ++ [0]))
        (h.dylibs.push (lc + (u32 m (lc + 8)).setWidth 64)).val
        ((librariesOf (cs ++ [.dylib kind timestamp current compatibility gap name])).take rsdMaxDylibs) := by
      have hall : librariesOf (cs ++ [.dylib kind timestamp current compatibility gap name]) = librariesOf cs ++ [name] :=
        librariesOf_append ..
      rw [hall, Upto.push_val, ← Upto.take_take_append (librariesOf cs)]
      exact List.forall₂_take rsdMaxDylibs (List.rel_append hd.dylibs (.cons (dylib_holds hm hsize) .nil))
    cases kind with
    | load =>
      exact .inl ⟨_, rfl, hd.pie, hsegs, hss, hdylibs, hbase, entry_kept (h := h) rfl hd, fixups_kept (h := h) rfl hd⟩
    | weak =>
      exact .inl ⟨_, rfl, hd.pie, hsegs, hss, hdylibs, hbase, entry_kept (h := h) rfl hd, fixups_kept (h := h) rfl hd⟩
    | reexport =>
      exact .inl ⟨_, rfl, hd.pie, hsegs, hss, hdylibs, hbase, entry_kept (h := h) rfl hd, fixups_kept (h := h) rfl hd⟩
  | other cmd body unknown =>
    obtain ⟨hsegs, hss, hbase⟩ := segments_kept (c := .other cmd body unknown) rfl hd
    have hno : ∀ k ∈ knownCommands, cmd ≠ k := fun k hk he => unknown (he ▸ hk)
    simp only [knownCommands, List.forall_mem_cons] at hno
    obtain ⟨h1, h2, h3, h4, h5, h6, h7, -⟩ := hno
    simp only [Command.code, if_neg h1, if_neg h2, if_neg h3, if_neg h4, h5, h6, h7, or_self, if_false]
    exact .inl ⟨h, rfl, hd.pie, hsegs, hss, dylibs_kept (h := h) rfl hd, hbase, entry_kept (h := h) rfl hd,
      fixups_kept (h := h) rfl hd⟩

/-- All the commands that are left. -/
lemma Described.run (hd : Described m pie cs h) {rest : List (Command × Text)}
    (hm : HoldsAt m lc (rest.flatMap fun c => c.1.bytes c.2))
    (hsizes : ∀ c ∈ rest, (c.1.bytes c.2).length < 2 ^ 32) :
    (∃ h', (commandsFrom m rest.length lc).foldlM (loadCommand m) h = .ok h' ∧
      Described m pie (cs ++ rest.map Prod.fst) h') ∨
      (commandsFrom m rest.length lc).foldlM (loadCommand m) h = .error .tooManySegments ∧
        rsdMaxSegs < (segmentsOf (cs ++ rest.map Prod.fst)).length := by
  induction rest generalizing cs lc h with
  | nil =>
    rw [List.map_nil, List.append_nil]
    exact .inl ⟨h, rfl, hd⟩
  | cons c rest ih =>
    rw [List.flatMap_cons] at hm
    obtain ⟨hfirst, hlater⟩ := List.forall_mem_cons.mp hsizes
    have hnext := hm.right
    rw [← command_next hm.left hfirst] at hnext
    have hsplit : cs ++ (c :: rest).map Prod.fst = cs ++ [c.1] ++ rest.map Prod.fst := by
      rw [List.map_cons, List.append_assoc, List.singleton_append]
    rw [List.length_cons, commandsFrom, List.foldlM_cons, hsplit]
    rcases hd.step hm.left hfirst with ⟨h', heq, hd'⟩ | ⟨heq, hmany⟩
    · rw [heq]
      exact ih hd' hnext hlater
    · rw [heq]
      refine .inr ⟨rfl, Nat.lt_of_lt_of_le hmany ?_⟩
      rw [segmentsOf_append _ (rest.map Prod.fst), List.length_append]
      exact Nat.le_add_right ..

end Steps

end Rashid.Proofs
