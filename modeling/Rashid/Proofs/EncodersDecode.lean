import Rashid.Encoders
import Rashid.Proofs.Straight

/-!
# The encoders against the encoding tables

Every encoder packs its operands into one of the architecture's formats, so that its word decodes
to the instruction the encoder is named after, with its operands.
-/

namespace Rashid.Proofs

open Layout

lemma armRows_table : Row.Table armRows := by
  constructor
  · decide
  · decide

lemma decode_of_pack {r : Row 32 ArmInsn} (hr : r ∈ armRows) {args : List Nat} {x : BitVec 32}
    (hx : x = r.layout.pack args) (hfit : Fits r.layout.fields args) : armDecode x = r.make args := by
  rw [hx]
  exact Row.decode_pack armRows_table hr hfit

lemma operand_zero (pos : Nat) : operand 0 pos = 0#32 := by
  unfold operand
  exact BitVec.zero_shiftLeft ..

lemma packFrom_cons (x : BitVec 32) (f : Field) (fs : List Field) (a : Nat) (args : List Nat) :
    packFrom x (f :: fs) (a :: args) = packFrom (x ||| operand a f.pos) fs args := rfl

lemma packFrom_nil (x : BitVec 32) (args : List Nat) : packFrom x [] args = x := rfl

lemma ofCode_code (c : A64Cond) : ArmCond.ofCode c.code = some c.arm := by cases c <;> rfl

lemma ofCode_invert (c : A64Cond) : ArmCond.ofCode (c.code ^^^ 1) = some c.arm.invert := by cases c <;> rfl

lemma code_lt (c : A64Cond) : c.code < 2 ^ 4 := by cases c <;> decide

lemma invert_lt (c : A64Cond) : c.code ^^^ 1 < 2 ^ 4 := by cases c <;> decide

/-! ### Loads and stores -/

section Memory

variable {op : BitVec 32} {a : ArmAccess} {t n : A64Reg}

lemma decode_mem {off : Nat} (size v opc scale : Nat) (hop : op = armAccessImm.layout.pack [size, v, opc, 0, 0, 0])
    (hfit : size < 4 ∧ v < 2 ∧ opc < 4) (ha : armAccess size v opc = some a) (hscale : scale = 2 ^ size)
    (hdvd : scale ∣ off) (hoff : off < 4096 * scale) : armDecode (wordMem op scale t n off) =
      some (.access a t n off) := by
  have hpos : 0 < scale := hscale ▸ Nat.two_pow_pos size
  have himm : off / scale < 4096 := (Nat.div_lt_iff_lt_mul hpos).mpr hoff
  have hx : wordMem op scale t n off = armAccessImm.layout.pack [size, v, opc, off / scale, n, t] := by
    rw [hop]
    simp only [wordMem, pack, armAccessImm, packFrom_cons, packFrom_nil, operand_zero, BitVec.or_zero]
  rw [decode_of_pack (by simp [armRows]) hx ⟨hfit.1, hfit.2.1, hfit.2.2, himm, n.isLt, t.isLt, trivial⟩]
  show (armAccess size v opc).map _ = _
  rw [ha, Option.map_some, ← hscale, Nat.div_mul_cancel hdvd]

lemma decode_push : armDecode (A64.word (.push t)) = some (.accessPre (strOf 8) t 31 (-16)) := by
  have hx : A64.word (.push t) = armAccessPre.layout.pack [3, 0, 0, 0x1F0, 31, t] := rfl
  exact decode_of_pack (by simp [armRows]) hx ⟨by decide, by decide, by decide, by decide, by decide, t.isLt, trivial⟩

lemma decode_pop : armDecode (A64.word (.pop t)) = some (.accessPost (ldrOf 8) t 31 16) := by
  have hx : A64.word (.pop t) = armAccessPost.layout.pack [3, 0, 1, 16, 31, t] := rfl
  exact decode_of_pack (by simp [armRows]) hx ⟨by decide, by decide, by decide, by decide, by decide, t.isLt, trivial⟩

end Memory

/-! ### Integer operations -/

section Integer

variable {op : BitVec 32} {sf : Nat} {d n m : A64Reg}

attribute [local irreducible] operand

/-- The 32-bit forms shift by less than 32. -/
def ShiftFits (sf amount : Nat) : Prop := sf < 2 ∧ amount < 64 ∧ (sf = 0 → amount < 32)

lemma decode_addSub {sub s shift amount : Nat} {sh : ArmShift} {rd : Nat} {x : BitVec 32}
    (hx : x = armAddSubReg.layout.pack [sf, sub, s, shift, m, amount, n, rd]) (hsf : ShiftFits sf amount)
    (hb : sub < 2 ∧ s < 2 ∧ shift < 3) (hsh : armShift shift = some sh) (hd : rd < 32) :
    armDecode x = some (.addSubReg (sf == 1) (sub == 1) (s == 1) rd n m sh amount) := by
  have hfits : Fits armAddSubReg.layout.fields [sf, sub, s, shift, m, amount, n, rd] :=
    ⟨hsf.1, hb.1, hb.2.1, Nat.lt_trans hb.2.2 (by decide), m.isLt, hsf.2.1, n.isLt, hd, trivial⟩
  have hgood : ¬ (shift = 3 ∨ (sf = 0 ∧ 32 ≤ amount)) := by
    rintro (h | ⟨h, h'⟩)
    · omega
    · exact absurd (hsf.2.2 h) (Nat.not_lt.mpr h')
  rw [decode_of_pack (by simp [armRows]) hx hfits]
  show (if shift = 3 ∨ (sf = 0 ∧ 32 ≤ amount) then none else _) = _
  rw [if_neg hgood, hsh, Option.map_some]

lemma decode_logic {opc shift inv amount : Nat} {o : ArmLogic} {sh : ArmShift} {rn rd : Nat} {x : BitVec 32}
    (hx : x = armLogicReg.layout.pack [sf, opc, shift, inv, m, amount, rn, rd]) (hsf : ShiftFits sf amount)
    (hb : opc < 4 ∧ shift < 4 ∧ inv < 2) (ho : armLogic opc = some o) (hsh : armShift shift = some sh)
    (hn : rn < 32) (hd : rd < 32) :
    armDecode x = some (.logicReg (sf == 1) o (inv == 1) rd rn m sh amount) := by
  have hfits : Fits armLogicReg.layout.fields [sf, opc, shift, inv, m, amount, rn, rd] :=
    ⟨hsf.1, hb.1, hb.2.1, hb.2.2, m.isLt, hsf.2.1, hn, hd, trivial⟩
  have hgood : ¬ (sf = 0 ∧ 32 ≤ amount) := fun ⟨h, h'⟩ => absurd (hsf.2.2 h) (Nat.not_lt.mpr h')
  rw [decode_of_pack (by simp [armRows]) hx hfits]
  show (if sf = 0 ∧ 32 ≤ amount then none else _) = _
  rw [if_neg hgood, ho, hsh]
  rfl

lemma decode_add3 (sf sub : Nat) (hop : op = armAddSubReg.layout.pack [sf, sub, 0, 0, 0, 0, 0, 0])
    (hsf : ShiftFits sf 0) (hsub : sub < 2) :
    armDecode (word3 op d n m) = some (.addSubReg (sf == 1) (sub == 1) false d n m .lsl 0) := by
  have hx : word3 op d n m = armAddSubReg.layout.pack [sf, sub, 0, 0, m, 0, n, d] := by
    rw [hop]
    simp only [word3, pack, armAddSubReg, packFrom_cons, packFrom_nil, operand_zero, BitVec.or_zero]
  exact decode_addSub hx hsf ⟨hsub, by decide, by decide⟩ rfl d.isLt

lemma decode_addShift {amount : Nat} (hop : op = armAddSubReg.layout.pack [1, 0, 0, 0, 0, 0, 0, 0]) (h : amount < 64) :
    armDecode (wordShift op d n m amount) = some (.addSubReg true false false d n m .lsl amount) := by
  have hx : wordShift op d n m amount = armAddSubReg.layout.pack [1, 0, 0, 0, m, amount, n, d] := by
    rw [hop]
    simp only [wordShift, pack, armAddSubReg, packFrom_cons, packFrom_nil, operand_zero, BitVec.or_zero]
  exact decode_addSub hx ⟨by decide, h, nofun⟩ (by decide) rfl d.isLt

/-- The result goes to the zero register. -/
lemma decode_compare (sf sub : Nat) (hop : op = armAddSubReg.layout.pack [sf, sub, 1, 0, 0, 0, 0, 31])
    (hsf : ShiftFits sf 0) (hsub : sub < 2) :
    armDecode (wordCompare op n m) = some (.addSubReg (sf == 1) (sub == 1) true 31 n m .lsl 0) := by
  have hx : wordCompare op n m = armAddSubReg.layout.pack [sf, sub, 1, 0, m, 0, n, 31] := by
    rw [hop]
    simp only [wordCompare, pack, armAddSubReg, packFrom_cons, packFrom_nil, operand_zero, BitVec.or_zero]
    ac_rfl
  exact decode_addSub hx hsf ⟨hsub, by decide, by decide⟩ rfl (by decide)

lemma decode_logic3 (sf opc inv : Nat) {o : ArmLogic} (hop : op = armLogicReg.layout.pack [sf, opc, 0, inv, 0, 0, 0, 0])
    (hsf : ShiftFits sf 0) (hopc : opc < 4) (hinv : inv < 2) (ho : armLogic opc = some o) :
    armDecode (word3 op d n m) = some (.logicReg (sf == 1) o (inv == 1) d n m .lsl 0) := by
  have hx : word3 op d n m = armLogicReg.layout.pack [sf, opc, 0, inv, m, 0, n, d] := by
    rw [hop]
    simp only [word3, pack, armLogicReg, packFrom_cons, packFrom_nil, operand_zero, BitVec.or_zero]
  exact decode_logic hx hsf ⟨hopc, by decide, hinv⟩ ho rfl n.isLt d.isLt

lemma decode_tst (sf : Nat) (hop : op = armLogicReg.layout.pack [sf, 3, 0, 0, 0, 0, 0, 31]) (hsf : ShiftFits sf 0) :
    armDecode (wordCompare op n m) = some (.logicReg (sf == 1) .ands false 31 n m .lsl 0) := by
  have hx : wordCompare op n m = armLogicReg.layout.pack [sf, 3, 0, 0, m, 0, n, 31] := by
    rw [hop]
    simp only [wordCompare, pack, armLogicReg, packFrom_cons, packFrom_nil, operand_zero, BitVec.or_zero]
    ac_rfl
  exact decode_logic hx hsf (by decide) rfl rfl n.isLt (by decide)

lemma decode_mov (sf : Nat) (hop : op = armLogicReg.layout.pack [sf, 1, 0, 0, 0, 0, 31, 0]) (hsf : ShiftFits sf 0) :
    armDecode (wordMov op d m) = some (.logicReg (sf == 1) .orr false d 31 m .lsl 0) := by
  have hx : wordMov op d m = armLogicReg.layout.pack [sf, 1, 0, 0, m, 0, 31, d] := by
    rw [hop]
    simp only [wordMov, pack, armLogicReg, packFrom_cons, packFrom_nil, operand_zero, BitVec.or_zero]
    ac_rfl
  exact decode_logic hx hsf (by decide) rfl rfl (by decide) d.isLt

lemma decode_logicShift (opc shift : Nat) {amount : Nat} {o : ArmLogic} {sh : ArmShift}
    (hop : op = armLogicReg.layout.pack [1, opc, shift, 0, 0, 0, 0, 0]) (ham : amount < 64) (hopc : opc < 4)
    (hshift : shift < 4) (ho : armLogic opc = some o) (hsh : armShift shift = some sh) :
    armDecode (wordShift op d n m amount) = some (.logicReg true o false d n m sh amount) := by
  have hx : wordShift op d n m amount = armLogicReg.layout.pack [1, opc, shift, 0, m, amount, n, d] := by
    rw [hop]
    simp only [wordShift, pack, armLogicReg, packFrom_cons, packFrom_nil, operand_zero, BitVec.or_zero]
  exact decode_logic hx ⟨by decide, ham, nofun⟩ ⟨hopc, hshift, by decide⟩ ho hsh n.isLt d.isLt

lemma decode_mul (sf : Nat) (hop : op = armMulAdd.layout.pack [sf, 0, 0, 31, 0, 0]) (hsf : sf < 2) :
    armDecode (word3 op d n m) = some (.mulAdd (sf == 1) false d n m 31) := by
  have hx : word3 op d n m = armMulAdd.layout.pack [sf, m, 0, 31, n, d] := by
    rw [hop]
    simp only [word3, pack, armMulAdd, packFrom_cons, packFrom_nil, operand_zero, BitVec.or_zero]
    ac_rfl
  exact decode_of_pack (by simp [armRows]) hx ⟨hsf, m.isLt, by decide, by decide, n.isLt, d.isLt, trivial⟩

lemma decode_imm (sub : Nat) {imm : Nat} (hop : op = armAddSubImm.layout.pack [1, sub, 0, 0, 0, 0, 0]) (hsub : sub < 2)
    (himm : imm < 4096) : armDecode (wordImm op d n imm) = some (.addSubImm true (sub == 1) false d n imm) := by
  have hx : wordImm op d n imm = armAddSubImm.layout.pack [1, sub, 0, 0, imm, n, d] := by
    rw [hop]
    simp only [wordImm, pack, armAddSubImm, packFrom_cons, packFrom_nil, operand_zero, BitVec.or_zero]
  exact decode_of_pack (by simp [armRows]) hx ⟨by decide, hsub, by decide, by decide, himm, n.isLt, d.isLt, trivial⟩

lemma decode_cmp0 (hop : op = armAddSubImm.layout.pack [1, 1, 1, 0, 0, 0, 31]) :
    armDecode (op ||| operand n 5) = some (.addSubImm true true true 31 n 0) := by
  have hx : op ||| operand n 5 = armAddSubImm.layout.pack [1, 1, 1, 0, 0, n, 31] := by
    rw [hop]
    simp only [pack, armAddSubImm, packFrom_cons, packFrom_nil, operand_zero, BitVec.or_zero]
    ac_rfl
  exact decode_of_pack (by simp [armRows]) hx
    ⟨by decide, by decide, by decide, by decide, by decide, n.isLt, by decide, trivial⟩

lemma decode_wide (opc : Nat) {hw : Nat} {imm : BitVec 16} {o : ArmWide}
    (hop : op = armMoveWide.layout.pack [1, opc, 0, 0, 0]) (hhw : hw < 4)
    (ho : opc = 2 ∧ o = .movz ∨ opc = 3 ∧ o = .movk) :
    armDecode (wordWide op d imm hw) = some (.moveWide true o d imm (16 * hw)) := by
  have hx : wordWide op d imm hw = armMoveWide.layout.pack [1, opc, hw, imm.toNat, d] := by
    rw [hop]
    simp only [wordWide, pack, armMoveWide, packFrom_cons, packFrom_nil, operand_zero, BitVec.or_zero]
  have hopc : opc < 4 := by omega
  rw [decode_of_pack (by simp [armRows]) hx ⟨by decide, hopc, hhw, imm.isLt, d.isLt, trivial⟩]
  have himm : BitVec.ofNat 16 imm.toNat = imm := BitVec.ofNat_toNat ..
  rcases ho with ⟨rfl, rfl⟩ | ⟨rfl, rfl⟩
  · show some (ArmInsn.moveWide true .movz d (BitVec.ofNat 16 imm.toNat) (16 * hw)) = _
    rw [himm]
  · show some (ArmInsn.moveWide true .movk d (BitVec.ofNat 16 imm.toNat) (16 * hw)) = _
    rw [himm]

/-- The three bit-field moves differ in `opc`. -/
lemma decode_bitfield (sf opc : Nat) {immr imms : Nat} {o : ArmField} {x : BitVec 32}
    (hx : x = armBitfield.layout.pack [sf, opc, sf, immr, imms, n, d]) (hsf : sf < 2)
    (ho : opc = 0 ∧ o = .sbfm ∨ opc = 1 ∧ o = .bfm ∨ opc = 2 ∧ o = .ubfm)
    (himm : immr < 64 ∧ imms < 64 ∧ (sf = 0 → immr < 32 ∧ imms < 32)) :
    armDecode x = some (.bitfield (sf == 1) o d n immr imms) := by
  have hopc : opc < 4 := by omega
  have hgood : ¬ (sf ≠ sf ∨ (sf = 0 ∧ (32 ≤ immr ∨ 32 ≤ imms))) := by
    have := himm.2.2
    omega
  rw [decode_of_pack (by simp [armRows]) hx ⟨hsf, hopc, hsf, himm.1, himm.2.1, n.isLt, d.isLt, trivial⟩]
  show (if sf ≠ sf ∨ (sf = 0 ∧ (32 ≤ immr ∨ 32 ≤ imms)) then none else _) = _
  rw [if_neg hgood]
  rcases ho with ⟨rfl, rfl⟩ | ⟨rfl, rfl⟩ | ⟨rfl, rfl⟩
  · rfl
  · rfl
  · rfl

lemma decode_extend (sf : Nat) {bits : Nat} (hop : op = armBitfield.layout.pack [sf, 0, sf, 0, 0, 0, 0]) (hsf : sf < 2)
    (hbits : bits - 1 < 64 ∧ (sf = 0 → bits - 1 < 32)) :
    armDecode (wordExtend op d n bits) = some (.bitfield (sf == 1) .sbfm d n 0 (bits - 1)) := by
  have hx : wordExtend op d n bits = armBitfield.layout.pack [sf, 0, sf, 0, bits - 1, n, d] := by
    rw [hop]
    simp only [wordExtend, pack, armBitfield, packFrom_cons, packFrom_nil, operand_zero, BitVec.or_zero]
  exact decode_bitfield sf 0 hx hsf (.inl ⟨rfl, rfl⟩) ⟨by decide, hbits.1, fun h => ⟨by decide, hbits.2 h⟩⟩

/-- A single bit is a run of one, turned to its place. -/
lemma bitMask_bit {k : Nat} (hk : k < 64) : bitMask 1 (rotation k) 0 = some (1 <<< k) := by
  have hall : ∀ k : Fin 64, bitMask 1 (rotation k) 0 = some (1 <<< k.val) := by decide
  exact hall ⟨k, hk⟩

lemma rotation_lt (k : Nat) : rotation k < 64 := Nat.mod_lt _ (by decide)

lemma decode_eorBit {k : Nat} (hop : op = armLogicImm.layout.pack [1, 2, 1, 0, 0, 0, 0]) (hk : k < 64) :
    armDecode (op ||| operand (rotation k) 16 ||| operand n 5 ||| operand d 0) =
      some (.logicImm true .eor d n (1 <<< k)) := by
  have hx : op ||| operand (rotation k) 16 ||| operand n 5 ||| operand d 0 =
      armLogicImm.layout.pack [1, 2, 1, rotation k, 0, n, d] := by
    rw [hop]
    simp only [pack, armLogicImm, packFrom_cons, packFrom_nil, operand_zero, BitVec.or_zero]
  rw [decode_of_pack (by simp [armRows]) hx
    ⟨by decide, by decide, by decide, rotation_lt k, by decide, n.isLt, d.isLt, trivial⟩]
  show (if (1 : Nat) = 0 ∧ (1 : Nat) = 1 then none else (armLogic 2).bind fun op =>
    (bitMask 1 (rotation k) 0).bind fun imm =>
    some (ArmInsn.logicImm true op d n imm)) = _
  rw [bitMask_bit hk]
  rfl

end Integer

/-! ### Selection and branches -/

/-- A field that holds a displacement. -/
def dispField (len : Nat) (z : Int) : Nat := (BitVec.ofInt len z).toNat

lemma dispField_lt (len : Nat) (z : Int) : dispField len z < 2 ^ len := (BitVec.ofInt len z).isLt

/-- A displacement that fits is read back with its sign. -/
lemma signed_dispField {len : Nat} (hlen : 0 < len) {z : Int} (h : -2 ^ (len - 1) ≤ z ∧ z < 2 ^ (len - 1)) :
    signed len (dispField len z) = z := by
  have hint : (BitVec.ofInt len z).toInt = z := BitVec.toInt_ofInt_eq_self hlen h.1 h.2
  have hpow : 2 ^ len = 2 * 2 ^ (len - 1) := by
    rw [← Nat.pow_succ', Nat.succ_eq_add_one, Nat.sub_add_cancel hlen]
  rw [BitVec.toInt_eq_toNat_cond] at hint
  unfold signed dispField
  by_cases hk : (BitVec.ofInt len z).toNat < 2 ^ (len - 1)
  · rw [if_pos (by omega)] at hint
    rw [if_pos hk]
    exact hint
  · rw [if_neg (by omega)] at hint
    rw [if_neg hk]
    exact (congrArg _ (Int.natCast_pow 2 len).symm).trans hint

/-- Masking a displacement leaves what its field holds. -/
lemma ofInt_and (z : Int) (len : Nat) (hlen : len ≤ 32) :
    BitVec.ofInt 32 z &&& BitVec.ofNat 32 (2 ^ len - 1) = BitVec.ofNat 32 (dispField len z) := by
  have hpow : 2 ^ len ≤ 2 ^ 32 := Nat.pow_le_pow_right (by decide) hlen
  have hpos : 0 < 2 ^ len := Nat.two_pow_pos len
  have hdvd : ((2 ^ len : Nat) : Int) ∣ ((2 ^ 32 : Nat) : Int) := Int.natCast_dvd_natCast.mpr (Nat.pow_dvd_pow 2 hlen)
  have hlt := dispField_lt len z
  apply BitVec.eq_of_toNat_eq
  rw [BitVec.toNat_and, BitVec.toNat_ofNat, BitVec.toNat_ofNat, Nat.mod_eq_of_lt (by omega : 2 ^ len - 1 < 2 ^ 32),
    Nat.mod_eq_of_lt (by omega : dispField len z < 2 ^ 32), Nat.and_two_pow_sub_one_eq_mod, dispField, BitVec.toNat_ofInt,
    BitVec.toNat_ofInt]
  apply Int.ofNat_inj.mp
  rw [Int.natCast_emod, Int.toNat_of_nonneg (Int.emod_nonneg _ (by omega)),
    Int.toNat_of_nonneg (Int.emod_nonneg _ (by omega)), Int.emod_emod_of_dvd z hdvd]

/-- The two fields of displacements, at their places. -/
lemma disp19 (z : Int) : (BitVec.ofInt 32 z &&& 0x7FFFF) <<< 5 = operand (dispField 19 z) 5 := by
  have hand : BitVec.ofInt 32 z &&& 0x7FFFF = BitVec.ofNat 32 (dispField 19 z) := ofInt_and z 19 (by decide)
  rw [hand]
  rfl

lemma disp26 (z : Int) : BitVec.ofInt 32 z &&& 0x3FFFFFF = operand (dispField 26 z) 0 :=
  (ofInt_and z 26 (by decide)).trans (BitVec.shiftLeft_zero _).symm

section Control

variable {op : BitVec 32} {sf : Nat} {d n m : A64Reg} {c : A64Cond}

attribute [local irreducible] operand

lemma decode_select {neg op2 rm rn code : Nat} {o : ArmSelect} {cond : ArmCond} {x : BitVec 32}
    (hx : x = armSelect.layout.pack [sf, neg, rm, code, op2, rn, d]) (hsf : sf < 2) (hm : rm < 32) (hn : rn < 32)
    (hcode : code < 2 ^ 4) (hcond : ArmCond.ofCode code = some cond)
    (ho : neg = 0 ∧ op2 = 0 ∧ o = .csel ∨ neg = 0 ∧ op2 = 1 ∧ o = .csinc ∨ neg = 1 ∧ op2 = 0 ∧ o = .csinv) :
    armDecode x = some (.select (sf == 1) o d rn rm cond) := by
  have hneg : neg < 2 := by omega
  have hop2 : op2 < 4 := by omega
  have hfits : Fits armSelect.layout.fields [sf, neg, rm, code, op2, rn, d] :=
    ⟨hsf, hneg, hm, hcode, hop2, hn, d.isLt, trivial⟩
  rw [decode_of_pack (by simp [armRows]) hx hfits]
  rcases ho with ⟨rfl, rfl, rfl⟩ | ⟨rfl, rfl, rfl⟩ | ⟨rfl, rfl, rfl⟩
  · show (ArmCond.ofCode code).bind _ = _
    rw [hcond]
    rfl
  · show (ArmCond.ofCode code).bind _ = _
    rw [hcond]
    rfl
  · show (ArmCond.ofCode code).bind _ = _
    rw [hcond]
    rfl

lemma decode_csel (hop : op = armSelect.layout.pack [1, 0, 0, 0, 0, 0, 0]) :
    armDecode (wordSelect op d n m c) = some (.select true .csel d n m c.arm) := by
  have hx : wordSelect op d n m c = armSelect.layout.pack [1, 0, m, c.code, 0, n, d] := by
    rw [hop]
    simp only [wordSelect, pack, armSelect, packFrom_cons, packFrom_nil, operand_zero, BitVec.or_zero]
  exact decode_select hx (by decide) m.isLt n.isLt (code_lt c) (ofCode_code c) (.inl ⟨rfl, rfl, rfl⟩)

/-- `cset` and `csetm`. -/
lemma decode_set (sf neg op2 : Nat) {o : ArmSelect} (hop : op = armSelect.layout.pack [sf, neg, 31, 0, op2, 31, 0])
    (hsf : sf < 2) (ho : neg = 0 ∧ op2 = 1 ∧ o = .csinc ∨ neg = 1 ∧ op2 = 0 ∧ o = .csinv) :
    armDecode (wordSet op d c) = some (.select (sf == 1) o d 31 31 c.arm.invert) := by
  have hx : wordSet op d c = armSelect.layout.pack [sf, neg, 31, c.code ^^^ 1, op2, 31, d] := by
    rw [hop]
    simp only [wordSet, pack, armSelect, packFrom_cons, packFrom_nil, operand_zero, BitVec.or_zero]
    ac_rfl
  exact decode_select hx hsf (by decide) (by decide) (invert_lt c) (ofCode_invert c) (.inr ho)

lemma decode_bcond {z : Int} (hz : -2 ^ 18 ≤ z ∧ z < 2 ^ 18) (hop : op = armBranchCond.layout.pack [0, 0]) :
    armDecode (wordBranch op z c.code) = some (.branchCond c.arm z) := by
  have hx : wordBranch op z c.code = armBranchCond.layout.pack [dispField 19 z, c.code] := by
    rw [hop, wordBranch, disp19]
    simp only [pack, armBranchCond, packFrom_cons, packFrom_nil, operand_zero, BitVec.or_zero]
  rw [decode_of_pack (by simp [armRows]) hx ⟨dispField_lt 19 z, code_lt c, trivial⟩]
  show (ArmCond.ofCode c.code).map _ = _
  rw [ofCode_code, Option.map_some, signed_dispField (by decide) hz]

lemma decode_cbz {t : A64Reg} {z : Int} (hz : -2 ^ 18 ≤ z ∧ z < 2 ^ 18)
    (hop : op = armBranchZero.layout.pack [0, 0, 0, 0]) :
    armDecode (wordBranch op z t) = some (.branchZero false false t z) := by
  have hx : wordBranch op z t = armBranchZero.layout.pack [0, 0, dispField 19 z, t] := by
    rw [hop, wordBranch, disp19]
    simp only [pack, armBranchZero, packFrom_cons, packFrom_nil, operand_zero, BitVec.or_zero]
  rw [decode_of_pack (by simp [armRows]) hx ⟨by decide, by decide, dispField_lt 19 z, t.isLt, trivial⟩]
  show some (ArmInsn.branchZero false false t (signed 19 (dispField 19 z))) = _
  rw [signed_dispField (by decide) hz]

lemma decode_b {z : Int} (hz : -2 ^ 25 ≤ z ∧ z < 2 ^ 25) (hop : op = armBranch.layout.pack [0, 0]) :
    armDecode (op ||| (BitVec.ofInt 32 z &&& 0x3FFFFFF)) = some (.branch false z) := by
  have hx : op ||| (BitVec.ofInt 32 z &&& 0x3FFFFFF) = armBranch.layout.pack [0, dispField 26 z] := by
    rw [hop, disp26]
    simp only [pack, armBranch, packFrom_cons, packFrom_nil, operand_zero, BitVec.or_zero]
  rw [decode_of_pack (by simp [armRows]) hx ⟨by decide, dispField_lt 26 z, trivial⟩]
  show some (ArmInsn.branch false (signed 26 (dispField 26 z))) = _
  rw [signed_dispField (by decide) hz]

lemma decode_blr (hop : op = armBranchReg.layout.pack [1, 0]) :
    armDecode (op ||| operand n 5) = some (.branchReg .blr n) := by
  have hx : op ||| operand n 5 = armBranchReg.layout.pack [1, n] := by
    rw [hop]
    simp only [pack, armBranchReg, packFrom_cons, packFrom_nil, operand_zero, BitVec.or_zero]
  exact decode_of_pack (by simp [armRows]) hx ⟨by decide, n.isLt, trivial⟩

end Control

/-! ### Floating point -/

section Float

variable {op : BitVec 32} {d n m : A64Reg} {p : ArmFp}

attribute [local irreducible] operand

lemma decode_fp2 (ptype opcode : Nat) {o : ArmFp2} (hop : op = armFloat2.layout.pack [ptype, 0, opcode, 0, 0])
    (hp : ptype < 4) (hopcode : opcode < 16) (hap : armFp ptype = some p) (ho : armFp2 opcode = some o) :
    armDecode (word3 op d n m) = some (.fp2 p o d n m) := by
  have hx : word3 op d n m = armFloat2.layout.pack [ptype, m, opcode, n, d] := by
    rw [hop]
    simp only [word3, pack, armFloat2, packFrom_cons, packFrom_nil, operand_zero, BitVec.or_zero]
    ac_rfl
  rw [decode_of_pack (by simp [armRows]) hx ⟨hp, m.isLt, hopcode, n.isLt, d.isLt, trivial⟩]
  show (armFp ptype).bind (fun p => (armFp2 opcode).bind fun o => some (ArmInsn.fp2 p o d n m)) = _
  rw [hap, ho]
  rfl

lemma decode_fp1 (ptype opcode : Nat) {i : ArmInsn} (hop : op = armFloat1.layout.pack [ptype, opcode, 0, 0])
    (hp : ptype < 4) (hopcode : opcode < 64) (hi : armFloat1.make [ptype, opcode, n, d] = some i) :
    armDecode (word2 op d n) = some i := by
  have hx : word2 op d n = armFloat1.layout.pack [ptype, opcode, n, d] := by
    rw [hop]
    simp only [word2, pack, armFloat1, packFrom_cons, packFrom_nil, operand_zero, BitVec.or_zero]
  exact (decode_of_pack (by simp [armRows]) hx ⟨hp, hopcode, n.isLt, d.isLt, trivial⟩).trans hi

lemma decode_fpInt (sf ptype opcode : Nat) {i : ArmInsn} (hop : op = armFloatInt.layout.pack [sf, ptype, 0, opcode, 0, 0])
    (hsf : sf < 2) (hp : ptype < 4) (hopcode : opcode < 8)
    (hi : armFloatInt.make [sf, ptype, 0, opcode, n, d] = some i) : armDecode (word2 op d n) = some i := by
  have hx : word2 op d n = armFloatInt.layout.pack [sf, ptype, 0, opcode, n, d] := by
    rw [hop]
    simp only [word2, pack, armFloatInt, packFrom_cons, packFrom_nil, operand_zero, BitVec.or_zero]
  exact (decode_of_pack (by simp [armRows]) hx ⟨hsf, hp, by decide, hopcode, n.isLt, d.isLt, trivial⟩).trans hi

lemma decode_fcmp (ptype : Nat) (hop : op = armFloatCompare.layout.pack [ptype, 0, 0, 0]) (hp : ptype < 4)
    (hap : armFp ptype = some p) : armDecode (wordCompare op n m) = some (.fpCompare p false n m) := by
  have hx : wordCompare op n m = armFloatCompare.layout.pack [ptype, m, n, 0] := by
    rw [hop]
    simp only [wordCompare, pack, armFloatCompare, packFrom_cons, packFrom_nil, operand_zero, BitVec.or_zero]
  rw [decode_of_pack (by simp [armRows]) hx ⟨hp, m.isLt, n.isLt, by decide, trivial⟩]
  show (armFp ptype).bind _ = _
  rw [hap]
  rfl

lemma decode_fcsel (ptype : Nat) {c : A64Cond} (hop : op = armFloatSelect.layout.pack [ptype, 0, 0, 0, 0]) (hp : ptype < 4)
    (hap : armFp ptype = some p) : armDecode (wordSelect op d n m c) = some (.fpSelect p d n m c.arm) := by
  have hx : wordSelect op d n m c = armFloatSelect.layout.pack [ptype, m, c.code, n, d] := by
    rw [hop]
    simp only [wordSelect, pack, armFloatSelect, packFrom_cons, packFrom_nil, operand_zero, BitVec.or_zero]
  rw [decode_of_pack (by simp [armRows]) hx ⟨hp, m.isLt, code_lt c, n.isLt, d.isLt, trivial⟩]
  show (armFp ptype).bind (fun p => (ArmCond.ofCode c.code).bind fun c => some (ArmInsn.fpSelect p d n m c)) = _
  rw [hap, ofCode_code]
  rfl

end Float

/-! ### All of them -/

lemma fits64 : ShiftFits 1 0 := ⟨by decide, by decide, nofun⟩

lemma fits32 : ShiftFits 0 0 := ⟨by decide, by decide, fun _ => by decide⟩

lemma decode_ret : armDecode (A64.word .ret) = some (.branchReg .ret 30) := by
  have hx : A64.word .ret = armBranchReg.layout.pack [2, 30] := rfl
  exact decode_of_pack (by simp [armRows]) hx ⟨by decide, by decide, trivial⟩

lemma decode_ubfx {d n : A64Reg} {lsb width : Nat} (h : 0 < width ∧ lsb + width ≤ 64) :
    armDecode (A64.word (.ubfx d n lsb width)) = some (.bitfield true .ubfm d n lsb (lsb + width - 1)) :=
  decode_bitfield 1 2 rfl (by decide) (.inr (.inr ⟨rfl, rfl⟩)) ⟨by omega, by omega, nofun⟩

lemma decode_bfi {d n : A64Reg} {lsb width : Nat} (h : 0 < width ∧ lsb + width ≤ 64) :
    armDecode (A64.word (.bfi d n lsb width)) = some (.bitfield true .bfm d n ((64 - lsb) % 64) (width - 1)) :=
  decode_bitfield 1 1 rfl (by decide) (.inr (.inl ⟨rfl, rfl⟩)) ⟨rotation_lt lsb, by omega, nofun⟩

lemma decode_word {i : A64} (h : i.InRange) : armDecode i.word = some i.arm := by
  cases i with
  | ldr t n off => exact decode_mem 3 0 1 8 rfl (by decide) rfl rfl h.1 (Nat.lt_of_le_of_lt h.2 (by decide))
  | str t n off => exact decode_mem 3 0 0 8 rfl (by decide) rfl rfl h.1 (Nat.lt_of_le_of_lt h.2 (by decide))
  | ldrW t n off => exact decode_mem 2 0 1 4 rfl (by decide) rfl rfl h.1 (Nat.lt_of_le_of_lt h.2 (by decide))
  | strW t n off => exact decode_mem 2 0 0 4 rfl (by decide) rfl rfl h.1 (Nat.lt_of_le_of_lt h.2 (by decide))
  | ldrh t n off => exact decode_mem 1 0 1 2 rfl (by decide) rfl rfl h.1 (Nat.lt_of_le_of_lt h.2 (by decide))
  | strh t n off => exact decode_mem 1 0 0 2 rfl (by decide) rfl rfl h.1 (Nat.lt_of_le_of_lt h.2 (by decide))
  | ldrb t n off => exact decode_mem 0 0 1 1 rfl (by decide) rfl rfl (Nat.one_dvd off) (Nat.lt_of_le_of_lt h (by decide))
  | strb t n off => exact decode_mem 0 0 0 1 rfl (by decide) rfl rfl (Nat.one_dvd off) (Nat.lt_of_le_of_lt h (by decide))
  | ldrD t n off => exact decode_mem 3 1 1 8 rfl (by decide) rfl rfl h.1 (Nat.lt_of_le_of_lt h.2 (by decide))
  | strD t n off => exact decode_mem 3 1 0 8 rfl (by decide) rfl rfl h.1 (Nat.lt_of_le_of_lt h.2 (by decide))
  | ldrS t n off => exact decode_mem 2 1 1 4 rfl (by decide) rfl rfl h.1 (Nat.lt_of_le_of_lt h.2 (by decide))
  | strS t n off => exact decode_mem 2 1 0 4 rfl (by decide) rfl rfl h.1 (Nat.lt_of_le_of_lt h.2 (by decide))
  | push t => exact decode_push
  | pop t => exact decode_pop
  | movz d imm hw => exact decode_wide 2 rfl h (.inl ⟨rfl, rfl⟩)
  | movk d imm hw => exact decode_wide 3 rfl h (.inr ⟨rfl, rfl⟩)
  | mov d m => exact decode_mov 1 rfl fits64
  | movW d m => exact decode_mov 0 rfl fits32
  | add d n m => exact decode_add3 1 0 rfl fits64 (by decide)
  | sub d n m => exact decode_add3 1 1 rfl fits64 (by decide)
  | addW d n m => exact decode_add3 0 0 rfl fits32 (by decide)
  | subW d n m => exact decode_add3 0 1 rfl fits32 (by decide)
  | and d n m => exact decode_logic3 1 0 0 rfl fits64 (by decide) (by decide) rfl
  | orr d n m => exact decode_logic3 1 1 0 rfl fits64 (by decide) (by decide) rfl
  | eor d n m => exact decode_logic3 1 2 0 rfl fits64 (by decide) (by decide) rfl
  | bic d n m => exact decode_logic3 1 0 1 rfl fits64 (by decide) (by decide) rfl
  | andW d n m => exact decode_logic3 0 0 0 rfl fits32 (by decide) (by decide) rfl
  | orrW d n m => exact decode_logic3 0 1 0 rfl fits32 (by decide) (by decide) rfl
  | eorW d n m => exact decode_logic3 0 2 0 rfl fits32 (by decide) (by decide) rfl
  | addImm d n imm => exact decode_imm 0 rfl (by decide) h
  | subImm d n imm => exact decode_imm 1 rfl (by decide) h
  | cmp0 n => exact decode_cmp0 rfl
  | addShift d n m sh => exact decode_addShift rfl h
  | orrLsl d n m sh => exact decode_logicShift 1 0 rfl h (by decide) (by decide) rfl rfl
  | eorLsr d n m sh => exact decode_logicShift 2 1 rfl h (by decide) (by decide) rfl rfl
  | mul d n m => exact decode_mul 1 rfl (by decide)
  | mulW d n m => exact decode_mul 0 rfl (by decide)
  | b imm26 => exact decode_b h rfl
  | bcond cond imm19 => exact decode_bcond h rfl
  | cbzW t imm19 => exact decode_cbz h rfl
  | blr n => exact decode_blr rfl
  | ret => exact decode_ret
  | ubfx d n lsb width => exact decode_ubfx h
  | bfi d n lsb width => exact decode_bfi h
  | sxt d n bits => exact decode_extend 1 rfl (by decide) ⟨by have := h.2; omega, nofun⟩
  | sxtW d n bits => exact decode_extend 0 rfl (by decide) ⟨by have := h.2; omega, fun _ => by have := h.2; omega⟩
  | eorBit d n k => exact decode_eorBit rfl h
  | csel d n m cond => exact decode_csel rfl
  | cset d cond => exact decode_set 1 0 1 rfl (by decide) (.inl ⟨rfl, rfl, rfl⟩)
  | csetm d cond => exact decode_set 1 1 0 rfl (by decide) (.inr ⟨rfl, rfl, rfl⟩)
  | csetmW d cond => exact decode_set 0 1 0 rfl (by decide) (.inr ⟨rfl, rfl, rfl⟩)
  | addsZr n m w =>
    cases w with
    | false => exact decode_compare 1 0 rfl fits64 (by decide)
    | true => exact decode_compare 0 0 rfl fits32 (by decide)
  | subsZr n m w =>
    cases w with
    | false => exact decode_compare 1 1 rfl fits64 (by decide)
    | true => exact decode_compare 0 1 rfl fits32 (by decide)
  | andsZr n m w =>
    cases w with
    | false => exact decode_tst 1 rfl fits64
    | true => exact decode_tst 0 rfl fits32
  | fopD op d n m =>
    cases op with
    | mul => exact decode_fp2 1 0 rfl (by decide) (by decide) rfl rfl
    | div => exact decode_fp2 1 1 rfl (by decide) (by decide) rfl rfl
    | add => exact decode_fp2 1 2 rfl (by decide) (by decide) rfl rfl
    | sub => exact decode_fp2 1 3 rfl (by decide) (by decide) rfl rfl
  | fopS op d n m =>
    cases op with
    | mul => exact decode_fp2 0 0 rfl (by decide) (by decide) rfl rfl
    | div => exact decode_fp2 0 1 rfl (by decide) (by decide) rfl rfl
    | add => exact decode_fp2 0 2 rfl (by decide) (by decide) rfl rfl
    | sub => exact decode_fp2 0 3 rfl (by decide) (by decide) rfl rfl
  | fsqrtD d n => exact decode_fp1 1 3 rfl (by decide) (by decide) rfl
  | fsqrtS d n => exact decode_fp1 0 3 rfl (by decide) (by decide) rfl
  | fcvtSd d n => exact decode_fp1 1 4 rfl (by decide) (by decide) rfl
  | fcvtDs d n => exact decode_fp1 0 5 rfl (by decide) (by decide) rfl
  | fcmpD n m => exact decode_fcmp 1 rfl (by decide) rfl
  | fcmpS n m => exact decode_fcmp 0 rfl (by decide) rfl
  | fcselD d n m cond => exact decode_fcsel 1 rfl (by decide) rfl
  | fcselS d n m cond => exact decode_fcsel 0 rfl (by decide) rfl
  | fmovDx d n => exact decode_fpInt 1 1 7 rfl (by decide) (by decide) (by decide) rfl
  | fmovXd d n => exact decode_fpInt 1 1 6 rfl (by decide) (by decide) (by decide) rfl
  | fmovSw d n => exact decode_fpInt 0 0 7 rfl (by decide) (by decide) (by decide) rfl
  | fmovWs d n => exact decode_fpInt 0 0 6 rfl (by decide) (by decide) (by decide) rfl
  | scvtfDx d n => exact decode_fpInt 1 1 2 rfl (by decide) (by decide) (by decide) rfl
  | scvtfDw d n => exact decode_fpInt 0 1 2 rfl (by decide) (by decide) (by decide) rfl
  | scvtfSx d n => exact decode_fpInt 1 0 2 rfl (by decide) (by decide) (by decide) rfl
  | scvtfSw d n => exact decode_fpInt 0 0 2 rfl (by decide) (by decide) (by decide) rfl

/-! ### Constants -/

lemma runWides_append {ws ws' : List (BitVec 32)} {x x' : Nat → BitVec 64} (h : runWides ws x = some x') :
    runWides (ws ++ ws') x = runWides ws' x' := by
  induction ws generalizing x with
  | nil =>
    cases h
    rfl
  | cons w ws ih =>
    obtain ⟨i, hi, hrest⟩ := Option.bind_eq_some_iff.mp h
    obtain ⟨y, hy, hrun⟩ := Option.bind_eq_some_iff.mp hrest
    show (armDecode w).bind _ = _
    rw [hi, Option.bind_some, hy, Option.bind_some]
    exact ih hrun

section Constants

variable {r : A64Reg} {x : Nat → BitVec 64}

lemma runWides_one {i : A64} {o : ArmWide} {imm : BitVec 16} {hw : Nat} (hr : r ≠ zr)
    (hi : armDecode i.word = some (.moveWide true o r imm (16 * hw))) :
    runWides [i.word] x = some (Function.update x r (o.write (x r) imm (16 * hw))) := by
  have hne : r.val ≠ 31 := fun h => hr (Fin.ext h)
  show (armDecode i.word).bind _ = _
  rw [hi, Option.bind_some]
  show (some (if r.val = 31 then x else Function.update x r _)).bind (runWides []) = _
  rw [if_neg hne]
  rfl

lemma movz_wides (hr : r ≠ zr) (v : BitVec 64) :
    runWides [A64.word (.movz r (v.setWidth 16) 0)] x = some (Function.update x r (lowHalves v 1)) := by
  have hrange : (A64.movz r (v.setWidth 16) 0).InRange := Nat.zero_lt_succ 3
  exact (runWides_one hr (decode_word hrange)).trans
    (congrArg (fun z => some (Function.update x r.val z)) (BitVec.shiftLeft_zero _))

lemma movk_wides (hr : r ≠ zr) (v : BitVec 64) {k : Nat} (hk : k < 4) :
    runWides ((if v >>> (16 * k) ≠ 0 then [A64.movk r ((v >>> (16 * k)).setWidth 16) k] else []).map A64.word)
      (Function.update x r (lowHalves v k)) = some (Function.update x r (lowHalves v (k + 1))) := by
  by_cases hz : v >>> (16 * k) = 0
  · rw [if_neg (not_not.mpr hz), lowHalves_succ_of_zero hz]
    rfl
  · have hrange : (A64.movk r ((v >>> (16 * k)).setWidth 16) k).InRange := hk
    rw [if_pos hz]
    refine (runWides_one hr (decode_word hrange)).trans ?_
    rw [Function.update_self, Function.update_idem]
    exact congrArg (fun z => some (Function.update x r.val z)) (movk_lowHalves v k)

lemma imm_wides (hr : r ≠ zr) (v : BitVec 64) :
    runWides ((immCode r v).map A64.word) x = some (Function.update x r v) := by
  have hall : lowHalves v 4 = v := lowHalves_of_zero (BitVec.ushiftRight_eq_zero (Nat.le_refl 64))
  simp only [immCode, List.map_append, List.append_assoc]
  refine (runWides_append (movz_wides hr v)).trans ?_
  refine (runWides_append (movk_wides (k := 1) hr v (by decide))).trans ?_
  refine (runWides_append (movk_wides (k := 2) hr v (by decide))).trans ?_
  refine (movk_wides (k := 3) hr v (by decide)).trans ?_
  rw [hall]

end Constants

/-- Every encoder's word is the instruction it is named after, with its operands, under the
architecture's tables, and the words `put_imm` emits for a constant load it. -/
theorem encoders_exact :
    (∀ i : A64, i.InRange → armDecode i.word = some i.arm) ∧
    ∀ (r : A64Reg) (v : BitVec 64) (x : Nat → BitVec 64), r ≠ zr →
      runWides ((immCode r v).map A64.word) x = some (Function.update x r v) :=
  ⟨fun _ h => decode_word h, fun _ v _ hr => imm_wides hr v⟩

theorem encoders_exact_sample :
    armDecode (A64.word (.cbzW 9 (-2))) = some (.branchZero false false 9 (-2)) ∧
    runWides ((immCode x9 0x123456789ABC0000).map A64.word) (fun _ => 7) =
      some (Function.update (fun _ => 7) 9 0x123456789ABC0000) :=
  ⟨encoders_exact.1 (.cbzW 9 (-2)) ⟨by decide, by decide⟩, encoders_exact.2 x9 _ _ (by decide)⟩

end Rashid.Proofs
