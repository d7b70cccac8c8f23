import Rashid.Jit

/-!
# Pieces of emitted code

Emitted code as a list of pieces: straight code, the test of the hit entries, forward branches
over the pieces that follow, branches to the fault exit and ways out of the block. A branch goes
to the start of a piece. The words of a list are as they are emitted, with the branches to the
fault exit still open, or as they are when those have been patched.
-/

namespace Rashid.Proofs

/-- Displacements count the words from the branch on. -/
inductive Piece where
  | code (l : List A64)
  | region (write : Bool) (d : Nat)
  | bcond (c : A64Cond) (d : Nat)
  | cbz (t : A64Reg) (d : Nat)
  | b (d : Nat)
  | exit
  | leave

/-- The offset of the entries for loads, or of those for stores. -/
def entryOff (write : Bool) : Nat := if write then offWr else offRd

/-- The address in x1 against the first entry, and unless it is in there against the second. -/
def regionCode (write : Bool) (d : Int) : List A64 :=
  [.ldr x9 cpuReg offAs, .ldr x10 x9 (entryOff write), .ldr x11 x9 (entryOff write + 8), .sub x12 x1 x10,
    .subsZr x12 x11 false, .bcond .cc 6, .ldr x10 x9 (entryOff write + 16), .ldr x11 x9 (entryOff write + 24),
    .sub x12 x1 x10, .subsZr x12 x11 false, .bcond .cs d]

namespace Piece

/-- With `x` as the displacement to the fault exit. -/
def words (x : Int) : Piece → List A64
  | .code l => l
  | .region write d => regionCode write d
  | .bcond c d => [.bcond c d]
  | .cbz t d => [.cbzW t d]
  | .b d => [.b d]
  | .exit => [.cbzW x9 x]
  | .leave => leaveCode

def size : Piece → Nat
  | .code l => l.length
  | .region _ _ => 11
  | .leave => 2
  | _ => 1

/-- How far the branch at the end of a piece goes. -/
def jump : Piece → Option Nat
  | .region _ d | .bcond _ d | .cbz _ d | .b d => some d
  | _ => none

@[simp] lemma length_words (x : Int) (p : Piece) : (p.words x).length = p.size := by
  cases p <;> rfl

end Piece

def sizes : List Piece → Nat
  | [] => 0
  | p :: ps => p.size + sizes ps

lemma sizes_append (ps qs : List Piece) : sizes (ps ++ qs) = sizes ps + sizes qs := by
  induction ps with
  | nil => exact (Nat.zero_add _).symm
  | cons p ps ih =>
    show p.size + sizes (ps ++ qs) = p.size + sizes ps + sizes qs
    rw [ih, Nat.add_assoc]

/-- The words as they are emitted. -/
def raw : List Piece → List A64
  | [] => []
  | p :: ps => p.words 0 ++ raw ps

/-- The words when the fault exit is `e` words behind their end. -/
def render (e : Nat) : List Piece → List A64
  | [] => []
  | p :: ps => p.words ((sizes ps + 1 + e : Nat) : Int) ++ render e ps

/-- Where the branches to the fault exit are, with the first word at `k`. -/
def fixups (k : Nat) : List Piece → List Nat
  | [] => []
  | .exit :: ps => k :: fixups (k + 1) ps
  | p :: ps => fixups (k + p.size) ps

lemma raw_append (ps qs : List Piece) : raw (ps ++ qs) = raw ps ++ raw qs := by
  induction ps with
  | nil => rfl
  | cons p ps ih =>
    show p.words 0 ++ raw (ps ++ qs) = p.words 0 ++ raw ps ++ raw qs
    rw [ih, List.append_assoc]

@[simp] lemma length_raw (ps : List Piece) : (raw ps).length = sizes ps := by
  induction ps with
  | nil => rfl
  | cons p ps ih =>
    show (p.words 0 ++ raw ps).length = p.size + sizes ps
    rw [List.length_append, Piece.length_words, ih]

@[simp] lemma length_render (e : Nat) (ps : List Piece) : (render e ps).length = sizes ps := by
  induction ps with
  | nil => rfl
  | cons p ps ih =>
    show (p.words _ ++ render e ps).length = p.size + sizes ps
    rw [List.length_append, Piece.length_words, ih]

lemma render_append (e : Nat) (ps qs : List Piece) : render e (ps ++ qs) = render (sizes qs + e) ps ++ render e qs := by
  induction ps with
  | nil => rfl
  | cons p ps ih =>
    show p.words ((sizes (ps ++ qs) + 1 + e : Nat) : Int) ++ render e (ps ++ qs) =
      p.words ((sizes ps + 1 + (sizes qs + e) : Nat) : Int) ++ render (sizes qs + e) ps ++ render e qs
    rw [ih, sizes_append, List.append_assoc, show sizes ps + sizes qs + 1 + e = sizes ps + 1 + (sizes qs + e) by omega]

lemma fixups_append (k : Nat) (ps qs : List Piece) : fixups k (ps ++ qs) = fixups k ps ++ fixups (k + sizes ps) qs := by
  induction ps generalizing k with
  | nil => rfl
  | cons p ps ih =>
    cases p with
    | exit =>
      show k :: fixups (k + 1) (ps ++ qs) = k :: (fixups (k + 1) ps ++ fixups (k + (1 + sizes ps)) qs)
      rw [ih, Nat.add_assoc]
    | _ =>
      show fixups (k + _) (ps ++ qs) = fixups (k + _) ps ++ fixups (k + (_ + sizes ps)) qs
      rw [ih, Nat.add_assoc]

lemma lt_of_mem_fixups {k j : Nat} {ps : List Piece} (h : j ∈ fixups k ps) : j < k + sizes ps := by
  induction ps generalizing k with
  | nil => exact absurd h List.not_mem_nil
  | cons p ps ih =>
    have hlater (n : Nat) (h : j ∈ fixups (k + n) ps) : j < k + (n + sizes ps) := Nat.add_assoc .. ▸ ih h
    cases p with
    | exit =>
      rcases List.mem_cons.mp h with rfl | h
      · exact Nat.lt_add_of_pos_right (Nat.add_pos_left Nat.one_pos _)
      · exact hlater 1 h
    | _ => exact hlater _ h

/-- Patching turns the words that were emitted into those of a block with its fault exit. -/
lemma patchFix_render (e : Nat) (ps : List Piece) (pre post : List A64) :
    patchFix (pre.length + sizes ps + e) (fixups pre.length ps) (pre ++ raw ps ++ post) =
      pre ++ render e ps ++ post := by
  induction ps generalizing pre with
  | nil => rfl
  | cons p ps ih =>
    have hexit : pre.length + sizes (p :: ps) + e = pre.length + p.size + sizes ps + e := by
      show pre.length + (p.size + sizes ps) + e = _
      omega
    rw [hexit]
    -- once the piece itself is as it should be, the rest is patched behind it
    have hrest (w : List A64) (hw : w.length = p.size) :
        patchFix (pre.length + p.size + sizes ps + e) (fixups (pre.length + p.size) ps) (pre ++ (w ++ raw ps) ++ post) =
          pre ++ (w ++ render e ps) ++ post := by
      have h := ih (pre ++ w)
      rw [List.length_append, hw] at h
      simpa only [List.append_assoc] using h
    cases p with
    | exit =>
      have hset : (pre ++ (A64.cbzW x9 0 :: raw ps) ++ post).set pre.length
          (.cbzW x9 (((pre.length + 1 + sizes ps + e : Nat) : Int) - pre.length)) =
            pre ++ ([A64.cbzW x9 ((sizes ps + 1 + e : Nat) : Int)] ++ raw ps) ++ post := by
        rw [List.append_assoc, List.set_append_right _ _ (Nat.le_refl _), Nat.sub_self, List.append_assoc,
          show ((pre.length + 1 + sizes ps + e : Nat) : Int) - pre.length = ((sizes ps + 1 + e : Nat) : Int) by omega]
        rfl
      refine (congrArg (patchFix _ (fixups (pre.length + 1) ps)) hset).trans ?_
      exact hrest _ rfl
    | code l => exact hrest l rfl
    | region write d => exact hrest _ rfl
    | bcond c d => exact hrest _ rfl
    | cbz t d => exact hrest _ rfl
    | b d => exact hrest _ rfl
    | leave => exact hrest _ rfl

/-! ### Branches -/

/-- Every branch goes to the start of a later piece, or to the end. -/
def Linked : List Piece → Prop
  | [] => True
  | p :: ps => (∀ d ∈ p.jump, ∃ qs rs, ps = qs ++ rs ∧ d = sizes qs + 1) ∧ Linked ps

namespace Linked

variable {p : Piece} {ps qs : List Piece}

lemma append (hp : Linked ps) (hq : Linked qs) : Linked (ps ++ qs) := by
  induction ps with
  | nil => exact hq
  | cons p ps ih =>
    refine ⟨fun d hd => ?_, ih hp.2⟩
    obtain ⟨us, vs, hps, hsize⟩ := hp.1 d hd
    exact ⟨us, vs ++ qs, (congrArg (· ++ qs) hps).trans (List.append_assoc ..), hsize⟩

lemma one (h : p.jump = none) : Linked [p] := ⟨fun _ hd => absurd (h ▸ hd) nofun, trivial⟩

/-- A branch over a list of pieces. -/
lemma across (hp : p.jump = some (sizes ps + 1)) (hps : Linked ps) : Linked (p :: ps) := by
  refine ⟨fun d hd => ⟨ps, [], (List.append_nil ps).symm, ?_⟩, hps⟩
  rw [hp] at hd
  exact (Option.mem_some_iff.mp hd).symm

/-- What holds of a list follows from what holds of all that is behind its first piece. -/
lemma suffixes {C : List Piece → Prop} (hps : Linked ps) (hnil : C [])
    (hcons : ∀ p us, (∃ ts, ps = ts ++ p :: us) → C us →
      (∀ d ∈ p.jump, ∃ vs ws, us = vs ++ ws ∧ d = sizes vs + 1 ∧ C ws) → C (p :: us)) : C ps := by
  have hall : ∀ us, (∃ ts, ps = ts ++ us) → Linked us → ∀ vs ws, us = vs ++ ws → C ws := by
    intro us
    induction us with
    | nil =>
      intro _ _ vs ws h
      rw [(List.append_eq_nil_iff.mp h.symm).2]
      exact hnil
    | cons p us ih =>
      intro hsuffix hl vs ws h
      obtain ⟨ts, hts⟩ := hsuffix
      have hbehind := ih ⟨ts ++ [p], by rw [hts, List.append_assoc]; rfl⟩ hl.2
      cases vs with
      | nil =>
        obtain rfl : p :: us = ws := h
        refine hcons p us ⟨ts, hts⟩ (hbehind [] us rfl) fun d hd => ?_
        obtain ⟨qs, rs, hus, hsize⟩ := hl.1 d hd
        exact ⟨qs, rs, hus, hsize, hbehind qs rs hus⟩
      | cons v vs => exact hbehind vs ws (List.cons.inj h).2
  exact hall ps ⟨[], rfl⟩ hps [] ps rfl

end Linked

end Rashid.Proofs
