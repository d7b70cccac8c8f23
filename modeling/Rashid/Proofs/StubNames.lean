import Rashid.Imports
import Rashid.Run

/-!
# The names of stubs

A stub's address is its import's number in steps of sixteen bytes, and the addend goes on top. The
number comes back by division, so it is right exactly if the addend stays within a step.
-/

namespace Rashid.Proofs

@[simp]
lemma stride_toNat : rsdStubStride.toNat = 16 := rfl

section Index

variable {img : Image}

/-- The room for the stubs, as `rsd_fixups` maps it: somewhere, and without a wrap. -/
structure StubRoom (img : Image) : Prop where
  count : img.imports.length < 2 ^ 31
  base : img.stubBase ≠ 0
  room : img.stubBase.toNat + 16 * img.imports.length ≤ 2 ^ 64

lemma stubs_bound (h : StubRoom img) {alloc : Bool} {symbols : List Symbol} :
    ((rsdStubsOf alloc symbols img).n.signExtend 64 * rsdStubStride).toNat =
      if alloc then 16 * img.imports.length else 0 := by
  have hcount := h.count
  cases alloc with
  | false => rfl
  | true =>
    have hn : (BitVec.ofNat 32 img.imports.length).toNat = img.imports.length := by
      rw [BitVec.toNat_ofNat]
      omega
    have hmsb : (BitVec.ofNat 32 img.imports.length).msb = false := by
      rw [BitVec.msb_eq_decide, hn]
      exact decide_eq_false (by omega)
    have hwide : ((BitVec.ofNat 32 img.imports.length).signExtend 64).toNat = img.imports.length := by
      rw [BitVec.signExtend_eq_setWidth_of_msb_false hmsb, BitVec.toNat_setWidth, hn]
      omega
    simp only [rsdStubsOf, if_true]
    rw [BitVec.toNat_mul, hwide, stride_toNat]
    omega

/-- The number that comes back: a step on for every sixteen bytes of the addend. -/
lemma stubIndex_address (h : StubRoom img) {alloc : Bool} {symbols : List Symbol} {b : ChainedBind}
    (hb : b.ordinal.toNat < img.imports.length) :
    rsdStubIndex (some (rsdStubsOf alloc symbols img)) (stubAddress img.stubBase b) =
      if alloc = true ∧ b.ordinal.toNat + b.addend.toNat / 16 < img.imports.length then
        some (b.ordinal.toNat + b.addend.toNat / 16)
      else none := by
  have hroom := h.room
  have hbase := h.base
  have hadd := b.addend.isLt
  have hord := b.ordinal.isLt
  have hne : img.imports.isEmpty = false := by
    cases him : img.imports with
    | nil => simp [him] at hb
    | cons _ _ => rfl
  have hoff : (stubAddress img.stubBase b).toNat =
      (img.stubBase.toNat + 16 * b.ordinal.toNat + b.addend.toNat) % 2 ^ 64 := by
    unfold stubAddress
    simp only [BitVec.toNat_add, BitVec.toNat_mul, BitVec.toNat_setWidth, stride_toNat]
    omega
  have hstart : (rsdStubsOf alloc symbols img).base = img.stubBase := by
    rw [rsdStubsOf, hne]
    rfl
  have hsub : (stubAddress img.stubBase b - img.stubBase).toNat = 16 * b.ordinal.toNat + b.addend.toNat := by
    unfold stubAddress
    rw [BitVec.add_assoc, BitVec.add_comm, BitVec.add_sub_cancel]
    simp only [BitVec.toNat_add, BitVec.toNat_mul, BitVec.toNat_setWidth, stride_toNat]
    omega
  have hdiv : ((stubAddress img.stubBase b - img.stubBase) / rsdStubStride).toNat =
      b.ordinal.toNat + b.addend.toNat / 16 := by
    rw [BitVec.toNat_udiv, hsub, stride_toNat]
    omega
  have hbound := @stubs_bound img h alloc symbols
  rw [rsdStubIndex, hstart]
  by_cases hin : alloc = true ∧ b.ordinal.toNat + b.addend.toNat / 16 < img.imports.length
  · obtain ⟨rfl, hlt⟩ := hin
    rw [if_pos rfl] at hbound
    have hlow : ¬ (img.stubBase = 0 ∨ stubAddress img.stubBase b < img.stubBase) := by
      rw [not_or, BitVec.lt_def, hoff]
      exact ⟨hbase, by omega⟩
    have hfits : ¬ (rsdStubsOf true symbols img).n.signExtend 64 * rsdStubStride ≤
        stubAddress img.stubBase b - img.stubBase := by
      rw [BitVec.le_def, hbound, hsub]
      omega
    rw [if_neg hlow, if_neg hfits, hdiv, if_pos ⟨rfl, hlt⟩]
  · rw [if_neg hin]
    by_cases hlow : img.stubBase = 0 ∨ stubAddress img.stubBase b < img.stubBase
    · rw [if_pos hlow]
    · rw [if_neg hlow, if_pos]
      rw [BitVec.le_def, hbound, hsub]
      cases alloc with
      | false => exact Nat.zero_le _
      | true =>
        have hge : ¬ b.ordinal.toNat + b.addend.toNat / 16 < img.imports.length := fun hlt => hin ⟨rfl, hlt⟩
        rw [if_pos rfl]
        omega

end Index

/-- A place bound through a stub names its own import exactly if the addend stays within the stub
and the arrays were allocated; a step that comes to such an address then goes to that import. -/
theorem stub_names_import {img : Image} (h : StubRoom img) (alloc : Bool) (symbols : List Symbol) (format : PointerFormat)
    {raw : BitVec 64} (hraw : raw >>> 63 ≠ 0) {im : Import}
    (him : img.imports[(ChainedBind.ofRaw raw).ordinal.toNat]? = some im) (hstub : im.native = 0 ∨ im.isCode = true) :
    (rsdStubIndex (some (rsdStubsOf alloc symbols img)) (applyFixup img format img.stubBase raw).1 =
        some (ChainedBind.ofRaw raw).ordinal.toNat ↔ (ChainedBind.ofRaw raw).addend.toNat < 16 ∧ alloc = true) ∧
      ((ChainedBind.ofRaw raw).addend.toNat < 16 ∧ alloc = true → ∀ fp rt k (c : Cpu),
        c.stubs = some (rsdStubsOf alloc symbols img) → c.rip = (applyFixup img format img.stubBase raw).1 →
        c.rip ≠ callbackMagic → c.rip ≠ returnMagic →
        step fp rt k c = stepStub rt (rsdStubsOf alloc symbols img) (ChainedBind.ofRaw raw).ordinal.toNat c) := by
  have hlt : (ChainedBind.ofRaw raw).ordinal.toNat < img.imports.length :=
    (List.getElem?_eq_some_iff.mp him).1
  have hvalue : (applyFixup img format img.stubBase raw).1 = stubAddress img.stubBase (ChainedBind.ofRaw raw) := by
    rw [applyFixup, if_pos hraw]
    simp only [bindValue, him]
    rw [if_neg]
    rintro ⟨hnative, hcode⟩
    rcases hstub with h0 | h1
    · exact hnative h0
    · rw [hcode] at h1
      cases h1
  have hindex : rsdStubIndex (some (rsdStubsOf alloc symbols img)) (applyFixup img format img.stubBase raw).1 =
      some (ChainedBind.ofRaw raw).ordinal.toNat ↔ (ChainedBind.ofRaw raw).addend.toNat < 16 ∧ alloc = true := by
    rw [hvalue, stubIndex_address h hlt]
    constructor
    · intro hsome
      by_cases hin : alloc = true ∧
          (ChainedBind.ofRaw raw).ordinal.toNat + (ChainedBind.ofRaw raw).addend.toNat / 16 < img.imports.length
      · rw [if_pos hin] at hsome
        have hsame := Option.some.inj hsome
        exact ⟨by omega, hin.1⟩
      · rw [if_neg hin] at hsome
        cases hsome
    · rintro ⟨hadd, halloc⟩
      have hzero : (ChainedBind.ofRaw raw).addend.toNat / 16 = 0 := Nat.div_eq_of_lt hadd
      rw [hzero, Nat.add_zero, if_pos ⟨halloc, hlt⟩]
  refine ⟨hindex, fun hcond fp rt k c hst hrip hcb hret => ?_⟩
  have hidx := hindex.mpr hcond
  rw [← hst, ← hrip] at hidx
  rw [step, if_neg hcb, if_neg hret, hidx, hst]

/-- Two symbols that were not found. -/
def unresolvedImage : Image where
  segs := []
  prefBase := 0x100000000
  slide := 0
  entry := 0
  pie := true
  hasMain := true
  imports := [⟨false, 0, false⟩, ⟨false, 0, false⟩]
  stubBase := 0x20000

/-- `_foo` and `_qsort`. -/
def unresolvedSymbols : List Symbol := [⟨ascii "_foo", ascii "?", false⟩, ⟨ascii "_qsort", ascii "?", false⟩]

/-- An addend of sixteen on the first import names the second. -/
theorem addend_names_next_import :
    (ChainedBind.ofRaw 0x8000000010000000).ordinal = 0 ∧ (ChainedBind.ofRaw 0x8000000010000000).addend = 16 ∧
      rsdStubIndex (some (rsdStubsOf true unresolvedSymbols unresolvedImage))
        (applyFixup unresolvedImage .ptr64 unresolvedImage.stubBase 0x8000000010000000).1 = some 1 := by
  refine ⟨by decide, by decide, by decide⟩

theorem stub_names_import_second :
    rsdStubIndex (some (rsdStubsOf true unresolvedSymbols unresolvedImage))
      (applyFixup unresolvedImage .ptr64 unresolvedImage.stubBase 0x8000000008000001).1 = some 1 := by
  have hroom : StubRoom unresolvedImage := ⟨by decide, by decide, by decide⟩
  have him : unresolvedImage.imports[(ChainedBind.ofRaw 0x8000000008000001).ordinal.toNat]? = some ⟨false, 0, false⟩ := by
    decide
  exact (stub_names_import hroom true unresolvedSymbols .ptr64 (by decide) him (.inl rfl)).1.mpr ⟨by decide, rfl⟩

end Rashid.Proofs
