import Rashid.Lib.Intern
import Rashid.Native

/-!
# Trampolines

The functions that trampolines lead to are interned in a table of 512: a function keeps its
trampoline, and a trampoline its function, whatever is asked for later.
-/

namespace Rashid.Proofs

/-- The trampolines as they are assembled: 512 of eight bytes each, somewhere in memory. -/
structure Assembled (rt : Runtime) : Prop where
  stride : rt.trampStride = 8
  start : 0 < rt.trampTable.toNat
  stop : rt.trampTable.toNat + rsdTrampCount * 8 ≤ 2 ^ 64

/-- The state after the trampolines for some functions have been asked for, one after the other. -/
def answered (rt : Runtime) (fns : List (BitVec 64)) (c : Cpu) : Cpu := fns.foldl (fun c g => (rsdCallbackFor rt g c).2) c

section Table

abbrev Targets := Interned rsdTrampCount (BitVec 64)

variable (rt : Runtime) {c : Cpu} {t : Targets} {g : BitVec 64}

def trampoline (i : Nat) : BitVec 64 := rt.trampTable + BitVec.ofNat 64 i * rt.trampStride

lemma findIdx_targets (g : BitVec 64) (l : List (BitVec 64)) :
    l.findIdx? (· == g) = if g ∈ l then some (l.idxOf g) else none := by
  by_cases h : g ∈ l
  · rw [if_pos h, List.idxOf]
    have hlt : l.findIdx (· == g) < l.length := List.idxOf_lt_length_of_mem h
    exact List.findIdx?_eq_some_of_exists (by simpa using h)
  · rw [if_neg h, List.findIdx?_eq_none_iff]
    intro x hx
    exact beq_false_of_ne fun he => h (he ▸ hx)

/-- A request interns the function. -/
lemma callbackFor_intern (hg : g ≠ 0) (h : c.targets = t.entries) : rsdCallbackFor rt g c =
    (((t.intern g).1.map (trampoline rt)).getD 0, { c with targets := (t.intern g).2.entries }) := by
  unfold rsdCallbackFor
  rw [if_neg hg, h, findIdx_targets]
  have hsame : { c with targets := t.entries } = c := by rw [← h]
  rcases Interned.intern_cases t g with ⟨hmem, heq⟩ | ⟨hmem, hroom, hi, heq⟩ | ⟨hmem, hfull, heq⟩
  · rw [if_pos hmem, heq]
    simp only [hsame]
    rfl
  · rw [if_neg hmem, hi, heq]
    simp only [if_neg (Nat.not_le.mpr hroom)]
    rfl
  · rw [if_neg hmem, heq]
    simp only [hfull, Nat.le_refl, if_true, hsame]
    rfl

/-- Requests one after the other intern the functions that are not 0. -/
lemma answered_internAll (fns : List (BitVec 64)) (h : c.targets = t.entries) :
    (answered rt fns c).targets = (t.internAll (fns.filter (· != 0))).entries := by
  induction fns generalizing c t with
  | nil => exact h
  | cons g fns ih =>
    by_cases hg : g = 0
    · subst hg
      exact ih h
    · have hstep : (rsdCallbackFor rt g c).2.targets = (t.intern g).2.entries := by rw [callbackFor_intern rt hg h]
      have hkeep : (g :: fns).filter (· != 0) = g :: fns.filter (· != 0) := List.filter_cons_of_pos (by simpa using hg)
      rw [hkeep]
      exact ih hstep

end Table

section Address

variable {rt : Runtime} (hrt : Assembled rt)

include hrt

lemma trampoline_toNat {i : Nat} (hi : i < rsdTrampCount) : (trampoline rt i).toNat = rt.trampTable.toNat + i * 8 := by
  have hcount : rsdTrampCount = 512 := rfl
  have hstop := hrt.stop
  have h8 : (8 : BitVec 64).toNat = 8 := rfl
  rw [trampoline, hrt.stride, BitVec.toNat_add, BitVec.toNat_mul, BitVec.toNat_ofNat, h8]
  omega

lemma trampoline_ne {i : Nat} (hi : i < rsdTrampCount) : trampoline rt i ≠ 0 := by
  intro h
  have hnat := trampoline_toNat hrt hi
  have hstart := hrt.start
  have h0 : (0 : BitVec 64).toNat = 0 := rfl
  rw [h, h0] at hnat
  omega

lemma trampoline_inj {i j : Nat} (hi : i < rsdTrampCount) (hj : j < rsdTrampCount)
    (h : trampoline rt i = trampoline rt j) :
    i = j := by
  have hnat := trampoline_toNat hrt hi
  rw [h, trampoline_toNat hrt hj] at hnat
  omega

end Address

section History

variable {rt : Runtime} {c : Cpu} {t u : Targets} {g : BitVec 64}

/-- A function has a trampoline exactly if the request is answered with it. -/
lemma callbackFor_some (h : c.targets = t.entries) (hne : (rsdCallbackFor rt g c).1 ≠ 0) :
    g ≠ 0 ∧ ∃ i, i < rsdTrampCount ∧ (rsdCallbackFor rt g c).1 = trampoline rt i ∧ (t.intern g).2.Holds i g := by
  have hg : g ≠ 0 := by
    rintro rfl
    exact hne rfl
  refine ⟨hg, ?_⟩
  rw [callbackFor_intern rt hg h] at hne ⊢
  cases hi : (t.intern g).1 with
  | none =>
    rw [hi] at hne
    exact absurd rfl hne
  | some i => exact ⟨i, (Interned.intern_holds hi).lt, rfl, Interned.intern_holds hi⟩

lemma callbackFor_holds (h : c.targets = t.entries) (hg : g ≠ 0) {i : Nat} (hi : t.Holds i g) :
    (rsdCallbackFor rt g c).1 = trampoline rt i := by
  rw [callbackFor_intern rt hg h, hi.intern_eq]
  rfl

lemma target_holds (h : c.targets = t.entries) {i : Nat} (hi : t.Holds i g) :
    rsdCallbackTarget c.targets (BitVec.ofNat 64 i) = g := by
  have hlt : i < 512 := hi.lt
  have hnat : (BitVec.ofNat 64 i).toNat = i := by
    rw [BitVec.toNat_ofNat]
    omega
  rw [rsdCallbackTarget, hnat, h, List.getD_eq_getElem?_getD, hi]
  rfl

lemma callbackFor_zero_iff (hrt : Assembled rt) (h : c.targets = t.entries) : (rsdCallbackFor rt g c).1 = 0 ↔
    g = 0 ∨ g ∉ c.targets ∧ c.targets.length = rsdTrampCount := by
  by_cases hg : g = 0
  · subst hg
    exact iff_of_true rfl (.inl rfl)
  · rw [or_iff_right hg, h, ← Interned.intern_none, callbackFor_intern rt hg h]
    cases hi : (t.intern g).1 with
    | none => exact iff_of_true rfl rfl
    | some i => exact iff_of_false (trampoline_ne hrt (Interned.intern_holds hi).lt) nofun

end History

/-- In every history of requests a trampoline that is handed out leads to its function then and later, a request is
answered as the one before it for the same function, different functions have different trampolines, and only 0 and
functions for which none is left get none. -/
theorem trampolines_stable (rt : Runtime) (hrt : Assembled rt) (c : Cpu) (h0 : c.targets = []) (before : List (BitVec 64))
    (g : BitVec 64) (later : List (BitVec 64)) :
    let s := answered rt before c
    let a := (rsdCallbackFor rt g s).1
    let s' := answered rt later (rsdCallbackFor rt g s).2
    (a ≠ 0 → ∃ i, i < rsdTrampCount ∧ a = rt.trampTable + BitVec.ofNat 64 i * rt.trampStride ∧
      rsdCallbackTarget s'.targets (BitVec.ofNat 64 i) = g) ∧
    (rsdCallbackFor rt g s').1 = a ∧
    (∀ g', g' ≠ g → a ≠ 0 → (rsdCallbackFor rt g' s').1 ≠ a) ∧
    (a = 0 ↔ g = 0 ∨ g ∉ s.targets ∧ s.targets.length = rsdTrampCount) := by
  intro s a s'
  obtain ⟨t, ht⟩ : ∃ t : Targets, s.targets = t.entries := ⟨_, answered_internAll rt before (t := Interned.empty) h0⟩
  by_cases hg : g = 0
  · subst hg
    have ha : a = 0 := rfl
    exact ⟨fun h => absurd ha h, rfl, fun _ _ h => absurd ha h, iff_of_true ha (.inl rfl)⟩
  have hafter : (rsdCallbackFor rt g s).2.targets = (t.intern g).2.entries := by rw [callbackFor_intern rt hg ht]
  have hs' := answered_internAll rt later hafter
  have hkept := Interned.internAll_kept (t.intern g).2 (later.filter (· != 0))
  have hzero : a = 0 ↔ g = 0 ∨ g ∉ s.targets ∧ s.targets.length = rsdTrampCount := callbackFor_zero_iff hrt ht
  refine ⟨fun hne => ?_, ?_, fun g' hg' hne heq => ?_, hzero⟩
  · obtain ⟨-, i, hlt, haddr, hi⟩ := callbackFor_some ht hne
    exact ⟨i, hlt, haddr, target_holds hs' (hkept.holds hi)⟩
  · by_cases hne : a = 0
    · -- the table is full, and stays as it is
      obtain ⟨hmem, hfull⟩ := (hzero.mp hne).resolve_left hg
      rw [ht] at hmem hfull
      have hsame : (t.intern g).2 = t := by rw [Interned.intern_full hmem (by omega)]
      rw [hsame, Interned.internAll_full hfull] at hs'
      rw [hne, callbackFor_zero_iff hrt hs', hs']
      exact .inr ⟨hmem, hfull⟩
    · obtain ⟨-, i, -, haddr, hi⟩ := callbackFor_some ht hne
      exact (callbackFor_holds hs' hg (hkept.holds hi)).trans haddr.symm
  · obtain ⟨-, i, hlt, haddr, hi⟩ := callbackFor_some ht hne
    rw [show a = trampoline rt i from haddr] at heq hne
    have hne' : (rsdCallbackFor rt g' s').1 ≠ 0 := by rwa [heq]
    obtain ⟨-, j, hlt', haddr', hj⟩ := callbackFor_some hs' hne'
    obtain rfl := trampoline_inj hrt hlt hlt' (heq.symm.trans haddr')
    have hlast := (Interned.intern_kept ((t.intern g).2.internAll (later.filter (· != 0))) g').holds (hkept.holds hi)
    exact hg' (hj.unique hlast)

/-- Trampolines at `0x10000`. -/
def trampRuntime : Runtime where
  trampTable := 0x10000
  trampStride := 8
  realClass x := x
  variadicSel _ := 0
  cstring x := x

/-- The second function keeps the second trampoline. -/
theorem trampolines_stable_second :
    (rsdCallbackFor trampRuntime 0x5000 (answered trampRuntime [0x4000] Cpu.zero)).1 = 0x10008 ∧
      (rsdCallbackFor trampRuntime 0x5000 (answered trampRuntime [0x4000, 0x6000]
        (rsdCallbackFor trampRuntime 0x5000 (answered trampRuntime [0x4000] Cpu.zero)).2)).1 =
      (rsdCallbackFor trampRuntime 0x5000 (answered trampRuntime [0x4000] Cpu.zero)).1 :=
  ⟨by decide, (trampolines_stable trampRuntime ⟨rfl, by decide, by decide⟩ Cpu.zero rfl [0x4000] 0x5000
    [0x4000, 0x6000]).2.1⟩

end Rashid.Proofs
