import Mathlib.Algebra.Group.Nat.Defs
import Mathlib.Data.List.Pairwise
import Mathlib.Tactic.Common

/-!
# Instruction formats

A format fixes some bits of a word and lays operands out in the others. A table of formats of
which no two share a word is decoded by looking for the format that a word has.
-/

namespace Rashid

/-- `len` bits from bit `pos` on. -/
structure Field where
  pos : Nat
  len : Nat
  deriving DecidableEq, Repr

structure Layout (w : Nat) where
  mask : BitVec w
  value : BitVec w
  fields : List Field

namespace Layout

variable {w : Nat}

/-- The operands put at their places, one field after the other. -/
def packFrom (x : BitVec w) : List Field → List Nat → BitVec w
  | f :: fs, a :: args => packFrom (x ||| (BitVec.ofNat w a <<< f.pos)) fs args
  | _, _ => x

def pack (l : Layout w) (args : List Nat) : BitVec w := packFrom l.value l.fields args

def unpack (l : Layout w) (x : BitVec w) : List Nat := l.fields.map fun f => (x.extractLsb' f.pos f.len).toNat

def Matches (l : Layout w) (x : BitVec w) : Prop := x &&& l.mask = l.value

instance (l : Layout w) (x : BitVec w) : Decidable (l.Matches x) :=
  inferInstanceAs (Decidable (x &&& l.mask = l.value))

/-- The fields lie in the word, beside each other and beside the fixed bits. -/
structure Disjoint (l : Layout w) : Prop where
  fixed : l.value &&& l.mask = l.value
  inside : ∀ f ∈ l.fields, f.pos + f.len ≤ w
  free : ∀ f ∈ l.fields, l.mask.extractLsb' f.pos f.len = 0#f.len
  apart : l.fields.Pairwise fun f g => f.pos + f.len ≤ g.pos ∨ g.pos + g.len ≤ f.pos

instance (l : Layout w) : Decidable l.Disjoint :=
  decidable_of_iff (l.value &&& l.mask = l.value ∧ (∀ f ∈ l.fields, f.pos + f.len ≤ w) ∧
      (∀ f ∈ l.fields, l.mask.extractLsb' f.pos f.len = 0#f.len) ∧
      l.fields.Pairwise fun f g => f.pos + f.len ≤ g.pos ∨ g.pos + g.len ≤ f.pos)
    ⟨fun h => ⟨h.1, h.2.1, h.2.2.1, h.2.2.2⟩, fun h => ⟨h.fixed, h.inside, h.free, h.apart⟩⟩

/-- Operands that fit their fields. -/
def Fits : List Field → List Nat → Prop
  | [], [] => True
  | f :: fs, a :: args => a < 2 ^ f.len ∧ Fits fs args
  | _, _ => False

/-- A bit that no field covers is that of the starting word. -/
lemma getLsbD_packFrom {fs : List Field} {args : List Nat} (hfit : Fits fs args) {x : BitVec w} {i : Nat}
    (hi : ∀ f ∈ fs, i < f.pos ∨ f.pos + f.len ≤ i) : (packFrom x fs args).getLsbD i = x.getLsbD i := by
  induction fs generalizing args x with
  | nil => cases args <;> rfl
  | cons f fs ih =>
    cases args with
    | nil => exact hfit.elim
    | cons a args =>
      have hbit : (BitVec.ofNat w a <<< f.pos).getLsbD i = false := by
        rcases hi f List.mem_cons_self with h | h
        · simp [h]
        · have hlt : a < 2 ^ (i - f.pos) :=
            Nat.lt_of_lt_of_le hfit.1 (Nat.pow_le_pow_right Nat.zero_lt_two (Nat.le_sub_of_add_le' h))
          rw [BitVec.getLsbD_shiftLeft, BitVec.getLsbD_ofNat, Nat.testBit_lt_two_pow hlt, Bool.and_false, Bool.and_false]
      show (packFrom (x ||| _) fs args).getLsbD i = _
      rw [ih hfit.2 fun g hg => hi g (List.mem_cons_of_mem f hg), BitVec.getLsbD_or, hbit, Bool.or_false]

lemma extract_packFrom_of_disjoint {fs : List Field} {args : List Nat} (hfit : Fits fs args) {x : BitVec w} {f : Field}
    (hf : ∀ g ∈ fs, f.pos + f.len ≤ g.pos ∨ g.pos + g.len ≤ f.pos) :
    (packFrom x fs args).extractLsb' f.pos f.len = x.extractLsb' f.pos f.len := by
  apply BitVec.eq_of_getLsbD_eq
  intro i hi
  rw [BitVec.getLsbD_extractLsb', BitVec.getLsbD_extractLsb', getLsbD_packFrom hfit]
  intro g hg
  have := hf g hg
  omega

/-- A field that was empty holds the operand put into it. -/
lemma extract_or_shift {x : BitVec w} {f : Field} {a : Nat} (hx : x.extractLsb' f.pos f.len = 0#f.len)
    (hin : f.pos + f.len ≤ w) (ha : a < 2 ^ f.len) :
    ((x ||| (BitVec.ofNat w a <<< f.pos)).extractLsb' f.pos f.len).toNat = a := by
  have hfield : (BitVec.ofNat w a <<< f.pos).extractLsb' f.pos f.len = BitVec.ofNat f.len a := by
    apply BitVec.eq_of_getLsbD_eq
    intro i hi
    rw [BitVec.getLsbD_extractLsb', BitVec.getLsbD_shiftLeft, BitVec.getLsbD_ofNat, BitVec.getLsbD_ofNat,
      Nat.add_sub_cancel_left]
    simp [hi, show f.pos + i < w by omega, show i < w by omega]
  rw [BitVec.extractLsb'_or, hx, hfield, BitVec.zero_or, BitVec.toNat_ofNat, Nat.mod_eq_of_lt ha]

lemma unpack_packFrom {fs : List Field} {args : List Nat} (hfit : Fits fs args) {x : BitVec w}
    (hin : ∀ f ∈ fs, f.pos + f.len ≤ w) (hx : ∀ f ∈ fs, x.extractLsb' f.pos f.len = 0#f.len)
    (hapart : fs.Pairwise fun f g => f.pos + f.len ≤ g.pos ∨ g.pos + g.len ≤ f.pos) :
    (fs.map fun f => ((packFrom x fs args).extractLsb' f.pos f.len).toNat) = args := by
  induction fs generalizing args x with
  | nil =>
    cases args with
    | nil => rfl
    | cons a args => exact hfit.elim
  | cons f fs ih =>
    cases args with
    | nil => exact hfit.elim
    | cons a args =>
      obtain ⟨hhead, htail⟩ := List.pairwise_cons.mp hapart
      have hother : ∀ g ∈ fs, (x ||| (BitVec.ofNat w a <<< f.pos)).extractLsb' g.pos g.len = 0#g.len := by
        intro g hg
        have hone : Fits [f] [a] := ⟨hfit.1, trivial⟩
        have h : (packFrom x [f] [a]).extractLsb' g.pos g.len = x.extractLsb' g.pos g.len :=
          extract_packFrom_of_disjoint hone fun k hk => (List.mem_singleton.mp hk ▸ hhead g hg).symm
        exact h.trans (hx g (List.mem_cons_of_mem f hg))
      rw [List.map_cons]
      congr 1
      · show ((packFrom (x ||| _) fs args).extractLsb' f.pos f.len).toNat = a
        rw [extract_packFrom_of_disjoint hfit.2 hhead]
        exact extract_or_shift (hx f List.mem_cons_self) (hin f List.mem_cons_self) hfit.1
      · exact ih hfit.2 (fun g hg => hin g (List.mem_cons_of_mem f hg)) hother htail

/-- What is fixed lies outside the fields. -/
lemma Disjoint.value_free {l : Layout w} (h : l.Disjoint) {f : Field} (hf : f ∈ l.fields) :
    l.value.extractLsb' f.pos f.len = 0#f.len := by
  rw [← h.fixed, BitVec.extractLsb'_and, h.free f hf, BitVec.and_zero]

theorem unpack_pack {l : Layout w} (h : l.Disjoint) {args : List Nat} (hfit : Fits l.fields args) :
    l.unpack (l.pack args) = args :=
  unpack_packFrom hfit h.inside (fun _ => h.value_free) h.apart

/-- A packed word has the format's fixed bits. -/
theorem pack_matches {l : Layout w} (h : l.Disjoint) {args : List Nat} (hfit : Fits l.fields args) :
    l.Matches (l.pack args) := by
  apply BitVec.eq_of_getLsbD_eq
  intro i hi
  have hfixed : l.value.getLsbD i = (l.value.getLsbD i && l.mask.getLsbD i) := by
    rw [← BitVec.getLsbD_and, h.fixed]
  rw [BitVec.getLsbD_and]
  cases hm : l.mask.getLsbD i with
  | false => rw [hfixed, hm, Bool.and_false, Bool.and_false]
  | true =>
    rw [Bool.and_true]
    apply getLsbD_packFrom hfit
    intro f hf
    by_contra hcover
    have hbit : (l.mask.extractLsb' f.pos f.len).getLsbD (i - f.pos) = (0#f.len).getLsbD (i - f.pos) := by
      rw [h.free f hf]
    have hpos : f.pos + (i - f.pos) = i := by omega
    rw [BitVec.getLsbD_extractLsb', hpos, hm, BitVec.getLsbD_zero, decide_eq_true (by omega)] at hbit
    exact Bool.noConfusion hbit

end Layout

/-- A format with what it makes of its operands, which may be nothing where they are unallocated. -/
structure Row (w : Nat) (ι : Type) where
  layout : Layout w
  make : List Nat → Option ι

namespace Row

variable {w : Nat} {ι : Type}

/-- Some bit that both formats fix is fixed differently. -/
def Apart (r s : Row w ι) : Prop :=
  (r.layout.mask &&& s.layout.mask) &&& (r.layout.value ^^^ s.layout.value) ≠ 0#w

instance (r s : Row w ι) : Decidable (r.Apart s) :=
  inferInstanceAs (Decidable ((r.layout.mask &&& s.layout.mask) &&& (r.layout.value ^^^ s.layout.value) ≠ 0#w))

lemma Apart.not_both {r s : Row w ι} (h : r.Apart s) {x : BitVec w} (hr : r.layout.Matches x) :
    ¬ s.layout.Matches x := by
  intro hs
  apply h
  rw [← hr, ← hs]
  apply BitVec.eq_of_getLsbD_eq
  intro i hi
  simp only [BitVec.getLsbD_and, BitVec.getLsbD_xor, BitVec.getLsbD_zero]
  cases x.getLsbD i <;> cases r.layout.mask.getLsbD i <;> cases s.layout.mask.getLsbD i <;> rfl

/-- The first format that a word has. -/
def decode (rows : List (Row w ι)) (x : BitVec w) : Option ι :=
  (rows.find? fun r => decide (r.layout.Matches x)).bind fun r => r.make (r.layout.unpack x)

/-- A table whose formats are well laid out and share no word. -/
structure Table (rows : List (Row w ι)) : Prop where
  disjoint : ∀ r ∈ rows, r.layout.Disjoint
  apart : rows.Pairwise Apart

lemma find_of_matches {rows : List (Row w ι)} (hapart : rows.Pairwise Apart) {r : Row w ι} (hr : r ∈ rows)
    {x : BitVec w} (hx : r.layout.Matches x) : (rows.find? fun r => decide (r.layout.Matches x)) = some r := by
  induction rows with
  | nil => exact absurd hr List.not_mem_nil
  | cons s rows ih =>
    obtain ⟨hhead, htail⟩ := List.pairwise_cons.mp hapart
    rcases List.mem_cons.mp hr with rfl | hr
    · exact List.find?_cons_of_pos (p := fun r : Row w ι => decide (r.layout.Matches x)) (decide_eq_true hx)
    · have hs : ¬ s.layout.Matches x := fun hs => (hhead r hr).not_both hs hx
      have hskip := List.find?_cons_of_neg (p := fun r : Row w ι => decide (r.layout.Matches x)) (l := rows)
        (by simpa using hs : ¬ decide (s.layout.Matches x) = true)
      exact hskip.trans (ih htail hr)

/-- Decoding what was encoded with a format of the table. -/
theorem decode_pack {rows : List (Row w ι)} (h : Table rows) {r : Row w ι} (hr : r ∈ rows) {args : List Nat}
    (hfit : Layout.Fits r.layout.fields args) : decode rows (r.layout.pack args) = r.make args := by
  have hd := h.disjoint r hr
  rw [decode, find_of_matches h.apart hr (Layout.pack_matches hd hfit), Option.bind_some, Layout.unpack_pack hd hfit]

end Row

end Rashid
