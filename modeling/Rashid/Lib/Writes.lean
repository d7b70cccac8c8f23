import Mathlib.Algebra.GroupWithZero.Nat
import Mathlib.Data.List.GetD
import Rashid.Lib.Bytes

/-!
# Lists of writes

Memory after one write after another. Where no two have a byte in common, each can be read back.
-/

namespace Rashid

/-- The lowest `n` bytes of a value, the lowest first. -/
def lowBytes (v : BitVec 64) (n : Nat) : List (BitVec 8) := (List.range n).map fun i => (v >>> (8 * i)).setWidth 8

/-- The eight bytes of a word, the lowest first. -/
def wordBytes (v : BitVec 64) : List (BitVec 8) := (List.range 8).map fun i => (v >>> (8 * i)).setWidth 8

/-- Words one after the other. -/
def wordsBytes (vs : List (BitVec 64)) : List (BitVec 8) := vs.flatMap wordBytes

abbrev Write := BitVec 64 × List (BitVec 8)

def Write.covers (w : Write) (x : BitVec 64) : Prop := inWindow w.1 w.2.length x

def pokeAll (m : Mem) (ws : List Write) : Mem := ws.foldl (fun m w => poke m w.1 w.2) m

/-- No byte is written twice. -/
def WritesApart (ws : List Write) : Prop := ws.Pairwise fun w w' => ∀ x, w.covers x → ¬ w'.covers x

@[simp]
lemma lowBytes_length (v : BitVec 64) (n : Nat) : (lowBytes v n).length = n := by
  simp [lowBytes]

@[simp]
lemma wordBytes_length (v : BitVec 64) : (wordBytes v).length = 8 := rfl

lemma poke_outside {m : Mem} {w : Write} {x : BitVec 64} (h : ¬ w.covers x) : poke m w.1 w.2 x = m x := by
  apply List.getD_eq_default
  exact Nat.le_of_not_lt h

lemma poke_inside {m : Mem} {w : Write} {x : BitVec 64} (h : w.covers x) (b : BitVec 8) :
    poke m w.1 w.2 x = w.2.getD (x - w.1).toNat b := by
  have hlt : (x - w.1).toNat < w.2.length := h
  rw [poke, List.getD_eq_getElem _ _ hlt, List.getD_eq_getElem _ _ hlt]

lemma lowBytes_get (v : BitVec 64) {n i : Nat} (hi : i < n) (b : BitVec 8) :
    (lowBytes v n).getD i b = (v >>> (8 * i)).setWidth 8 := by
  rw [lowBytes, List.getD_eq_getElem _ _ (by simpa using hi)]
  simp

lemma wordBytes_get (v : BitVec 64) {i : Nat} (hi : i < 8) (b : BitVec 8) :
    (wordBytes v).getD i b = (v >>> (8 * i)).setWidth 8 :=
  lowBytes_get v hi b

lemma storeLE_lowBytes (m : Mem) (a v : BitVec 64) (n : Nat) : storeLE m a v n = poke m a (lowBytes v n) := by
  funext x
  by_cases hx : inWindow a n x
  · have hlt : (x - a).toNat < n := hx
    rw [storeLE, if_pos hx, poke, lowBytes_get v hlt]
  · rw [storeLE_outside hx]
    refine (@poke_outside m (a, lowBytes v n) x ?_).symm
    rwa [Write.covers, lowBytes_length]

lemma storeLE_eq_poke (m : Mem) (a v : BitVec 64) : storeLE m a v 8 = poke m a (wordBytes v) :=
  storeLE_lowBytes m a v 8

/-- A word is loaded where its bytes lie. -/
lemma loadLE_wordBytes {m : Mem} {a v : BitVec 64}
    (h : ∀ x, inWindow a 8 x → m x = (wordBytes v).getD (x - a).toNat 0) : loadLE m a 8 = v := by
  refine ((loadLE_eq_iff (Nat.le_refl 8)).mpr ?_).trans (loadLE_storeLE_word m a v)
  intro i hi
  have hx : inWindow a 8 (a + BitVec.ofNat 64 i) := inWindow_iff.mpr ⟨i, hi, rfl⟩
  rw [h _ hx, storeLE, if_pos hx, wordBytes_get v hx]

@[simp]
lemma pokeAll_nil (m : Mem) : pokeAll m [] = m := rfl

@[simp]
lemma pokeAll_cons (m : Mem) (w : Write) (ws : List Write) :
    pokeAll m (w :: ws) = pokeAll (poke m w.1 w.2) ws := rfl

lemma pokeAll_append (m : Mem) (ws ws' : List Write) : pokeAll m (ws ++ ws') = pokeAll (pokeAll m ws) ws' :=
  List.foldl_append

lemma pokeAll_outside {m : Mem} {ws : List Write} {x : BitVec 64} (h : ∀ w ∈ ws, ¬ w.covers x) :
    pokeAll m ws x = m x := by
  induction ws generalizing m with
  | nil => rfl
  | cons w ws ih =>
    rw [pokeAll_cons, ih fun w' hw' => h w' (List.mem_cons_of_mem w hw')]
    exact poke_outside (h w List.mem_cons_self)

/-- What has been written stays until the end. -/
lemma pokeAll_inside {m : Mem} {ws : List Write} (hap : WritesApart ws) {w : Write} (hw : w ∈ ws) {x : BitVec 64}
    (hx : w.covers x) (b : BitVec 8) : pokeAll m ws x = w.2.getD (x - w.1).toNat b := by
  induction ws generalizing m with
  | nil => cases hw
  | cons w' ws ih =>
    obtain ⟨hhead, htail⟩ := List.pairwise_cons.mp hap
    rw [pokeAll_cons]
    rcases List.mem_cons.mp hw with rfl | hin
    · rw [pokeAll_outside fun w' hw' => hhead w' hw' x hx]
      exact poke_inside hx b
    · exact ih htail hin

/-! ### Writes downwards -/

/-- Each write lies below the one before it, all between `n` and `e` bytes under `top`. -/
inductive Descends (top : BitVec 64) : Nat → List Write → Nat → Prop
  | nil {n e : Nat} : n ≤ e → Descends top n [] e
  | cons {n k e : Nat} {w : Write} {ws : List Write} : w.1 = top - BitVec.ofNat 64 k → n + w.2.length ≤ k →
      Descends top k ws e → Descends top n (w :: ws) e

section Downwards

variable {top x : BitVec 64} {n k e e' : Nat} {w : Write} {ws ws' : List Write}

lemma Descends.le (h : Descends top n ws e) : n ≤ e := by
  induction h with
  | nil hle => exact hle
  | cons _ hlen _ ih => omega

lemma Descends.append (h : Descends top n ws e) (h' : Descends top e ws' e') : Descends top n (ws ++ ws') e' := by
  induction h with
  | nil hle =>
    cases h' with
    | nil hle' => exact .nil (Nat.le_trans hle hle')
    | cons hw hlen hrest => exact .cons hw (by omega) hrest
  | cons hw hlen _ ih => exact .cons hw hlen (ih h')

/-- How far down the bytes of one write are. -/
lemma covers_distance (hw : w.1 = top - BitVec.ofNat 64 k) (hlen : n + w.2.length ≤ k) (hk : k < 2 ^ 64)
    (hx : w.covers x) : n < (top - x).toNat ∧ (top - x).toNat ≤ k := by
  unfold Write.covers inWindow at hx
  rw [hw] at hx
  have hsub : (x - (top - BitVec.ofNat 64 k)).toNat = (k + (2 ^ 64 - (top - x).toNat)) % 2 ^ 64 := by
    bv_omega
  have hlt := (top - x).isLt
  omega

lemma Descends.distance (h : Descends top n ws e) (he : e < 2 ^ 64) (hw : w ∈ ws) (hx : w.covers x) :
    n < (top - x).toNat ∧ (top - x).toNat ≤ e := by
  induction h with
  | nil => cases hw
  | cons hw' hlen hrest ih =>
    have hle := hrest.le
    rcases List.mem_cons.mp hw with rfl | hin
    · have hd := covers_distance hw' hlen (by omega) hx
      omega
    · have hd := ih he hin
      omega

lemma Descends.apart (h : Descends top n ws e) (he : e < 2 ^ 64) : WritesApart ws := by
  induction h with
  | nil => exact List.Pairwise.nil
  | cons hw hlen hrest ih =>
    refine List.pairwise_cons.mpr ⟨fun w' hw' x hx hx' => ?_, ih he⟩
    have hhere := covers_distance hw hlen (Nat.lt_of_le_of_lt hrest.le he) hx
    have hbelow := hrest.distance he hw' hx'
    omega

end Downwards

/-! ### Words in a row -/

/-- The words from `a` on. -/
def HoldsWords (m : Mem) (a : BitVec 64) : List (BitVec 64) → Prop
  | [] => True
  | v :: vs => loadLE m a 8 = v ∧ HoldsWords m (a + 8) vs

lemma wordsBytes_length (vs : List (BitVec 64)) : (wordsBytes vs).length = 8 * vs.length := by
  induction vs with
  | nil => rfl
  | cons v vs ih =>
    rw [wordsBytes, List.flatMap_cons, List.length_append, wordBytes_length, ← wordsBytes, ih, List.length_cons]
    omega

lemma holdsWords_append {m : Mem} {a : BitVec 64} {vs vs' : List (BitVec 64)} (h : HoldsWords m a (vs ++ vs')) :
    HoldsWords m (a + BitVec.ofNat 64 vs.length * 8) vs' := by
  induction vs generalizing a with
  | nil => simpa using h
  | cons v vs ih =>
    have hrest := ih h.2
    have haddr : a + 8 + BitVec.ofNat 64 vs.length * 8 = a + BitVec.ofNat 64 (vs.length + 1) * 8 := by
      rw [BitVec.ofNat_add, BitVec.add_mul, BitVec.add_assoc, BitVec.add_comm 8]
      rfl
    rwa [haddr] at hrest

/-- Words are loaded where their bytes lie. -/
lemma holdsWords_of_bytes {m : Mem} {a : BitVec 64} {vs : List (BitVec 64)} (hlen : 8 * vs.length < 2 ^ 64)
    (h : ∀ x, inWindow a (8 * vs.length) x → m x = (wordsBytes vs).getD (x - a).toNat 0) : HoldsWords m a vs := by
  induction vs generalizing a with
  | nil => trivial
  | cons v vs ih =>
    rw [List.length_cons] at hlen h
    constructor
    · apply loadLE_wordBytes
      intro x hx
      have hlt : (x - a).toNat < 8 := hx
      rw [h x (inWindow_mono (by omega) hx), wordsBytes, List.flatMap_cons,
        List.getD_append _ _ _ _ (by simpa using hlt)]
    · apply ih (by omega)
      intro x hx
      have hlt : (x - (a + 8)).toNat < 8 * vs.length := hx
      have hsub : (x - a).toNat = (x - (a + 8)).toNat + 8 := by bv_omega
      have hin : inWindow a (8 * (vs.length + 1)) x := by
        unfold inWindow
        omega
      rw [h x hin, wordsBytes, List.flatMap_cons, List.getD_append_right _ _ _ _ (by rw [hsub]; simp), hsub]
      simp only [wordBytes_length, Nat.add_sub_cancel]
      rfl

end Rashid
