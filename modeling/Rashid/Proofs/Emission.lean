import Rashid.Proofs.Pieces

/-!
# Emission in pieces

What a program of `put`s does to the buffer. Where it ends with the buffer not full, it has added
a list of pieces, with its branches in place; in any case it writes no word outside the buffer.
-/

namespace Rashid.Proofs

/-! ### The words written -/

/-- The positions a program writes in the buffer, in order. A full buffer takes no words and no
patches. -/
inductive Writes : ∀ {α : Type}, Emit α → Buf → List Nat → Prop
  | pure {α : Type} (a : α) (b : Buf) : Writes (pure a) b []
  | get {α : Type} (f : Buf → α) (b : Buf) : Writes (Prog.get f) b []
  | note {f : Buf → Buf} (h : ∀ b, (f b).out = b.out) (b : Buf) : Writes (Prog.modify f) b []
  | put (i : A64) {b : Buf} (h : b.n < b.max) : Writes (put i) b [b.n]
  | drop (i : A64) {b : Buf} (h : b.max ≤ b.n) : Writes (put i) b []
  | patch (at_ : Nat) (i : Int → A64) {b : Buf} (h : b.full = false) : Writes (putPatch at_ i) b [at_]
  | keep (at_ : Nat) (i : Int → A64) {b : Buf} (h : b.full = true) : Writes (putPatch at_ i) b []
  | bind {α β : Type} {x : Emit α} {f : α → Emit β} {b : Buf} {l l' : List Nat} :
      Writes x b l → Writes (f (x b).1) (x b).2 l' → Writes (x >>= f) b (l ++ l')

/-- The buffer only grows, up to its limit. -/
structure Onward (b b' : Buf) : Prop where
  max : b'.max = b.max
  check : b'.check = b.check
  grows : b.n ≤ b'.n
  fits : b.n ≤ b.max → b'.n ≤ b'.max
  full : b.full = true → b'.full = true

namespace Onward

variable {b b' b'' : Buf}

lemma refl (b : Buf) : Onward b b := ⟨rfl, rfl, Nat.le_refl _, id, id⟩

lemma trans (h : Onward b b') (h' : Onward b' b'') : Onward b b'' :=
  ⟨h'.max.trans h.max, h'.check.trans h.check, Nat.le_trans h.grows h'.grows, fun hb => h'.fits (h.fits hb),
    fun hb => h'.full (h.full hb)⟩

end Onward

/-- A program that writes inside the buffer. -/
structure Bounded {α : Type} (p : Emit α) (b : Buf) : Prop where
  within : Onward b (p b).2
  writes : b.n ≤ b.max → ∃ l, Writes p b l ∧ ∀ k ∈ l, k < b.max

namespace Bounded

variable {α β : Type} {b : Buf}

lemma bind {x : Emit α} {f : α → Emit β} (hx : Bounded x b) (hf : Bounded (f (x b).1) (x b).2) :
    Bounded (x >>= f) b := by
  refine ⟨hx.within.trans hf.within, fun hfit => ?_⟩
  obtain ⟨l, hl, hin⟩ := hx.writes hfit
  obtain ⟨l', hl', hin'⟩ := hf.writes (hx.within.fits hfit)
  refine ⟨l ++ l', .bind hl hl', fun i hi => ?_⟩
  rcases List.mem_append.mp hi with hi | hi
  · exact hin i hi
  · exact hx.within.max ▸ hin' i hi

/-- A program that writes nothing. -/
lemma silent {x : Emit α} (hw : Onward b (x b).2) (h : Writes x b []) : Bounded x b :=
  ⟨hw, fun _ => ⟨[], h, fun _ hk => absurd hk List.not_mem_nil⟩⟩

lemma pure (a : α) (b : Buf) : Bounded (pure a : Emit α) b := silent (.refl b) (.pure a b)

lemma get (f : Buf → α) (b : Buf) : Bounded (Prog.get f) b := silent (.refl b) (.get f b)

end Bounded

/-! ### The pieces added -/

/-- The buffer has taken a list of pieces. -/
structure Grown (b : Buf) (ps : List Piece) (b' : Buf) : Prop where
  notFull : b.full = false
  out : b'.out = b.out ++ raw ps
  fix : b'.fix = b.fix ++ fixups b.n ps

lemma Grown.n {b b' : Buf} {ps : List Piece} (h : Grown b ps b') : b'.n = b.n + sizes ps := by
  unfold Buf.n
  rw [h.out, List.length_append, length_raw]

/-- Calls of the routines shared with the interpreter. -/
def isCall : A64 → Bool
  | .blr _ => true
  | _ => false

def callCount (l : List A64) : Nat := l.countP isCall

def callsOf : List Piece → Nat
  | [] => 0
  | p :: ps => callCount (p.words 0) + callsOf ps

lemma callsOf_append (ps qs : List Piece) : callsOf (ps ++ qs) = callsOf ps + callsOf qs := by
  induction ps with
  | nil => exact (Nat.zero_add _).symm
  | cons p ps ih =>
    show callCount (p.words 0) + callsOf (ps ++ qs) = callCount (p.words 0) + callsOf ps + callsOf qs
    rw [ih, Nat.add_assoc]

/-- Pieces of a kind, linked among themselves, with no more than `k` calls. -/
structure Fragment (P : Piece → Prop) (k : Nat) (ps : List Piece) : Prop where
  kind : ∀ p ∈ ps, P p
  linked : Linked ps
  calls : callsOf ps ≤ k

namespace Fragment

variable {P : Piece → Prop} {k j : Nat} {ps qs : List Piece}

lemma nil : Fragment P 0 [] := ⟨fun _ h => absurd h List.not_mem_nil, trivial, Nat.le_refl 0⟩

lemma append (hp : Fragment P k ps) (hq : Fragment P j qs) : Fragment P (k + j) (ps ++ qs) := by
  refine ⟨fun p h => ?_, hp.linked.append hq.linked, ?_⟩
  · rcases List.mem_append.mp h with h | h
    · exact hp.kind p h
    · exact hq.kind p h
  · rw [callsOf_append]
    exact Nat.add_le_add hp.calls hq.calls

lemma mono (h : Fragment P k ps) (hk : k ≤ j) : Fragment P j ps := ⟨h.kind, h.linked, Nat.le_trans h.calls hk⟩

lemma imp {Q : Piece → Prop} (h : Fragment P k ps) (hPQ : ∀ p, P p → Q p) : Fragment Q k ps :=
  ⟨fun p hp => hPQ p (h.kind p hp), h.linked, h.calls⟩

/-- One piece that does not branch. -/
lemma one {p : Piece} (hp : P p) (hjump : p.jump = none) : Fragment P (callCount (p.words 0)) [p] := by
  refine ⟨fun q hq => ?_, Linked.one hjump, Nat.le_refl _⟩
  rw [List.mem_singleton.mp hq]
  exact hp

/-- A branch over a fragment. -/
lemma across {p : Piece} (hp : P p) (hjump : p.jump = some (sizes ps + 1)) (hcalls : callCount (p.words 0) = 0)
    (h : Fragment P k ps) : Fragment P k (p :: ps) := by
  refine ⟨fun q hq => ?_, Linked.across hjump h.linked, ?_⟩
  · rcases List.mem_cons.mp hq with rfl | hq
    · exact hp
    · exact h.kind q hq
  · show callCount (p.words 0) + callsOf ps ≤ k
    rw [hcalls, Nat.zero_add]
    exact h.calls

end Fragment

/-- A program that adds a fragment when it ends with room left. The kinds of pieces may depend on
whether blocks are checked. -/
structure Emits {α : Type} (P : Bool → Piece → Prop) (k : Nat) (p : Emit α) : Prop where
  bounded : ∀ b, Bounded p b
  grown : ∀ b, (p b).2.full = false → ∃ ps, Fragment (P b.check) k ps ∧ Grown b ps (p b).2

namespace Emits

variable {α β : Type} {P : Bool → Piece → Prop} {k j : Nat}

lemma bind {x : Emit α} {f : α → Emit β} (hx : Emits P k x) (hf : ∀ a, Emits P j (f a)) : Emits P (k + j) (x >>= f) := by
  constructor
  · intro b
    exact (hx.bounded b).bind ((hf (x b).1).bounded (x b).2)
  · intro b hfull
    obtain ⟨qs, hqs, hgq⟩ := (hf (x b).1).grown (x b).2 hfull
    obtain ⟨ps, hps, hgp⟩ := hx.grown b hgq.notFull
    rw [(hx.bounded b).within.check] at hqs
    refine ⟨ps ++ qs, hps.append hqs, hgp.notFull, ?_, ?_⟩
    · rw [raw_append, ← List.append_assoc, ← hgp.out]
      exact hgq.out
    · rw [fixups_append, ← List.append_assoc, ← hgp.fix, ← hgp.n]
      exact hgq.fix

lemma mono {p : Emit α} (h : Emits P k p) (hk : k ≤ j) : Emits P j p :=
  ⟨h.bounded, fun b hb => (h.grown b hb).imp fun _ h => ⟨h.1.mono hk, h.2⟩⟩

lemma imp {Q : Bool → Piece → Prop} {p : Emit α} (h : Emits P k p) (hPQ : ∀ c q, P c q → Q c q) : Emits Q k p :=
  ⟨h.bounded, fun b hb => (h.grown b hb).imp fun _ h => ⟨h.1.imp (hPQ b.check), h.2⟩⟩

lemma grown_nil (b : Buf) (hfull : b.full = false) : ∃ ps, Fragment (P b.check) 0 ps ∧ Grown b ps b :=
  ⟨[], .nil, hfull, (List.append_nil _).symm, (List.append_nil _).symm⟩

lemma pure (a : α) : Emits P 0 (pure a : Emit α) := ⟨.pure a, fun b hfull => grown_nil b hfull⟩

lemma get (f : Buf → α) : Emits P 0 (Prog.get f) := ⟨.get f, fun b hfull => grown_nil b hfull⟩

lemma setFull : Emits P 0 Rashid.setFull := by
  refine ⟨fun b => .silent ⟨rfl, rfl, Nat.le_refl _, id, fun _ => rfl⟩ ?_, fun b hfull => absurd hfull nofun⟩
  exact .note (f := fun b => { b with full := true }) (fun _ => rfl) b

lemma ite {c : Prop} [Decidable c] {x y : Emit α} (hx : Emits P k x) (hy : Emits P k y) :
    Emits P k (if c then x else y) := by
  split
  · exact hx
  · exact hy

end Emits

/-! ### Words -/

lemma put_full {i : A64} {b : Buf} (h : (put i b).2.full = false) : b.full = false ∧ b.n < b.max := by
  by_cases hn : b.max ≤ b.n
  · rw [put, Prog.modify_apply, if_pos hn] at h
    cases h
  · rw [put, Prog.modify_apply, if_neg hn] at h
    exact ⟨h, Nat.not_le.mp hn⟩

lemma put_out {i : A64} {b : Buf} (h : b.n < b.max) : (put i b).2 = { b with out := b.out ++ [i] } :=
  if_neg (Nat.not_le.mpr h)

lemma length_snoc (b : Buf) (i : A64) : ({ b with out := b.out ++ [i] } : Buf).n = b.n + 1 := List.length_append ..

lemma put_bounded (i : A64) (b : Buf) : Bounded (put i) b := by
  by_cases hn : b.max ≤ b.n
  · have hb : (put i b).2 = { b with full := true } := if_pos hn
    exact .silent (hb ▸ ⟨rfl, rfl, Nat.le_refl _, id, fun _ => rfl⟩) (.drop i hn)
  · have hlt := Nat.not_le.mp hn
    have hlen := length_snoc b i
    refine ⟨put_out hlt ▸ ⟨rfl, rfl, hlen ▸ Nat.le_succ _, fun _ => hlen ▸ hlt, id⟩,
      fun _ => ⟨[b.n], .put i hlt, fun k hk => ?_⟩⟩
    rw [List.mem_singleton.mp hk]
    exact hlt

/-- A list of words is put whole or the buffer is full. -/
lemma puts_grown {l : List A64} {b : Buf} (h : (puts l b).2.full = false) :
    b.full = false ∧ (puts l b).2 = { b with out := b.out ++ l } := by
  induction l generalizing b with
  | nil => exact ⟨h, congrArg (fun o => ({ b with out := o } : Buf)) (List.append_nil b.out).symm⟩
  | cons i l ih =>
    obtain ⟨hfull, heq⟩ := ih (b := (put i b).2) h
    obtain ⟨hb, hlt⟩ := put_full hfull
    refine ⟨hb, heq.trans ?_⟩
    rw [put_out hlt]
    exact congrArg (fun o => ({ b with out := o } : Buf)) (List.append_assoc ..)

lemma puts_bounded (l : List A64) (b : Buf) : Bounded (puts l) b := by
  induction l generalizing b with
  | nil => exact .pure () b
  | cons i l ih => exact (put_bounded i b).bind (ih (put i b).2)

lemma puts_append (l l' : List A64) : puts (l ++ l') = puts l >>= fun _ => puts l' := by
  induction l with
  | nil => rfl
  | cons i l ih =>
    show (put i >>= fun _ => puts (l ++ l')) = _
    rw [ih]
    rfl

/-! ### Pieces -/

section Pieces

variable {α : Type} {P : Bool → Piece → Prop} {k j : Nat}

lemma emits_code {l : List A64} (h : ∀ c, P c (.code l)) : Emits P (callCount l) (puts l) := by
  refine ⟨puts_bounded l, fun b hfull => ?_⟩
  obtain ⟨hb, heq⟩ := puts_grown hfull
  refine ⟨[.code l], .one (h b.check) rfl, hb, ?_, ?_⟩
  · rw [heq]
    exact congrArg (b.out ++ ·) (List.append_nil l).symm
  · rw [heq]
    exact (List.append_nil b.fix).symm

lemma emits_leave (h : ∀ c, P c .leave) : Emits P 0 putLeave := by
  refine ⟨puts_bounded leaveCode, fun b hfull => ?_⟩
  obtain ⟨hb, heq⟩ := puts_grown hfull
  refine ⟨[.leave], .one (h b.check) rfl, hb, by rw [putLeave, heq]; rfl, ?_⟩
  rw [putLeave, heq]
  exact (List.append_nil _).symm

/-- The branch of a fault check is noted for the fault exit. -/
def noteFix : Emit Unit := Prog.modify fun b =>
  if b.fix.length < maxFix ∧ b.full = false then { b with fix := b.fix ++ [b.n] } else { b with full := true }

lemma noteFix_of_not_full {b : Buf} (h : (noteFix b).2.full = false) :
    b.full = false ∧ (noteFix b).2 = { b with fix := b.fix ++ [b.n] } := by
  unfold noteFix at h ⊢
  rw [Prog.modify_apply] at h ⊢
  by_cases hc : b.fix.length < maxFix ∧ b.full = false
  · exact ⟨hc.2, if_pos hc⟩
  · rw [if_neg hc] at h
    cases h

lemma noteFix_bounded (b : Buf) : Bounded noteFix b := by
  have hout (b : Buf) : (if b.fix.length < maxFix ∧ b.full = false then { b with fix := b.fix ++ [b.n] }
      else { b with full := true }).out = b.out := by
    split <;> rfl
  refine .silent ?_ (.note hout b)
  unfold noteFix
  rw [Prog.modify_apply]
  split
  · exact ⟨rfl, rfl, Nat.le_refl _, id, id⟩
  · exact ⟨rfl, rfl, Nat.le_refl _, id, fun _ => rfl⟩

/-- A note and the branch it is about. -/
lemma emits_exit (h : ∀ c, P c .exit) : Emits P 0 (noteFix >>= fun _ => put (.cbzW x9 0)) := by
  constructor
  · intro b
    exact (noteFix_bounded b).bind (put_bounded _ _)
  · intro b hfull
    obtain ⟨hnote, hlt⟩ := put_full hfull
    obtain ⟨hb, heq⟩ := noteFix_of_not_full hnote
    refine ⟨[.exit], .one (h b.check) rfl, hb, ?_, ?_⟩
    · show (put (.cbzW x9 0) (noteFix b).2).2.out = _
      rw [put_out hlt, heq]
      rfl
    · show (put (.cbzW x9 0) (noteFix b).2).2.fix = _
      rw [put_out hlt, heq]
      rfl

lemma emits_put {i : A64} (h : ∀ c, P c (.code [i])) : Emits P (callCount [i]) (put i) := emits_code h

lemma emits_faultCheck (hload : ∀ c, P c (.code [.ldrb x9 cpuReg offRunning])) (hexit : ∀ c, P c .exit) :
    Emits P 0 putFaultCheck :=
  (emits_put hload).bind fun _ => emits_exit hexit

/-! ### Branches that are patched -/

lemma putPatch_of_not_full {at_ : Nat} {i : Int → A64} {b : Buf} (h : b.full = false) :
    (putPatch at_ i b).2 = { b with out := b.out.set at_ (i (b.n - at_)) } := by
  rw [putPatch, Prog.modify_apply, h]
  rfl

lemma putPatch_full (at_ : Nat) (i : Int → A64) (b : Buf) : (putPatch at_ i b).2.full = b.full := by
  rw [putPatch, Prog.modify_apply]
  split
  · rfl
  · rfl

/-- A position that has been written, unless the buffer is full. -/
def Past (at_ : Nat) (b : Buf) : Prop := b.full = false → at_ < b.n

lemma Past.mono {at_ : Nat} {b b' : Buf} (h : Past at_ b) (hw : Onward b b') : Past at_ b' := by
  intro hfull
  have hb : b.full = false := by
    by_contra hne
    rw [hw.full ((Bool.not_eq_false _).mp hne)] at hfull
    cases hfull
  exact Nat.lt_of_lt_of_le (h hb) hw.grows

lemma past_put (i : A64) (b : Buf) : Past b.n (put i b).2 := by
  intro hfull
  rw [put_out (put_full hfull).2, length_snoc]
  exact Nat.lt_succ_self b.n

lemma putPatch_bounded {at_ : Nat} (i : Int → A64) {b : Buf} (h : Past at_ b) : Bounded (putPatch at_ i) b := by
  by_cases hfull : b.full = true
  · have hb : (putPatch at_ i b).2 = b := by
      rw [putPatch, Prog.modify_apply]
      exact if_pos hfull
    exact .silent (hb.symm ▸ .refl b) (.keep at_ i hfull)
  · have hno := (Bool.not_eq_true _).mp hfull
    have hn : (putPatch at_ i b).2.n = b.n := by
      rw [putPatch_of_not_full hno]
      exact List.length_set ..
    refine ⟨⟨?_, ?_, Nat.le_of_eq hn.symm, fun hfit => ?_, fun hf => absurd hf hfull⟩,
      fun hfit => ⟨[at_], .patch at_ i hno, fun k hk => ?_⟩⟩
    · rw [putPatch_of_not_full hno]
    · rw [putPatch_of_not_full hno]
    · rw [hn, putPatch_of_not_full hno]
      exact hfit
    · rw [List.mem_singleton.mp hk]
      exact Nat.lt_of_lt_of_le (h hno) hfit

/-- A branch over the body. -/
def putOver (br : Int → A64) (body : Emit Unit) : Emit Unit := do
  let at_ ← here
  put (br 0)
  body
  putPatch at_ br

lemma putOver_bounded (br : Int → A64) {body : Emit Unit} (hbody : ∀ b, Bounded body b) (b : Buf) :
    Bounded (putOver br body) b := by
  have hpast := (past_put (br 0) b).mono (hbody (put (br 0) b).2).within
  exact (Bounded.get _ b).bind ((put_bounded _ b).bind ((hbody _).bind (putPatch_bounded br hpast)))

/-- A word that stands behind a list is replaced. -/
lemma set_behind (l l' : List A64) (i j : A64) : (l ++ ([i] ++ l')).set l.length j = l ++ ([j] ++ l') := by
  rw [List.set_append_right _ _ (Nat.le_refl _), Nat.sub_self]
  rfl

lemma emits_over {br : Int → A64} {p : Nat → Piece} {body : Emit Unit} (hwords : ∀ d x, (p d).words x = [br d])
    (hjump : ∀ d, (p d).jump = some d) (hfix : ∀ d j ps, fixups j (p d :: ps) = fixups (j + 1) ps)
    (hcalls : ∀ d : Int, callCount [br d] = 0) (hp : ∀ c d, P c (p d)) (hbody : Emits P k body) :
    Emits P k (putOver br body) := by
  refine ⟨putOver_bounded br hbody.bounded, fun b hfull => ?_⟩
  have hfull2 : (body (put (br 0) b).2).2.full = false := (putPatch_full b.n br _).symm.trans hfull
  obtain ⟨ps, hps, hg⟩ := hbody.grown _ hfull2
  obtain ⟨hb, hlt⟩ := put_full hg.notFull
  have hput : (put (br 0) b).2 = { b with out := b.out ++ [br 0] } := put_out hlt
  have hput_n : (put (br 0) b).2.n = b.n + 1 := by
    rw [hput]
    exact List.length_append ..
  have hcheck : (put (br 0) b).2.check = b.check := by rw [hput]
  have hend : (putOver br body b).2 = (putPatch b.n br (body (put (br 0) b).2).2).2 := rfl
  have hn : (body (put (br 0) b).2).2.n = b.n + 1 + sizes ps := hput_n ▸ hg.n
  rw [hcheck] at hps
  refine ⟨p (sizes ps + 1) :: ps, hps.across (hp _ _) (hjump _) ?_, hb, ?_, ?_⟩
  · rw [hwords]
    exact hcalls _
  · rw [hend, putPatch_of_not_full hfull2, hn, hg.out, hput]
    show (b.out ++ [br 0] ++ raw ps).set b.out.length (br (((b.n + 1 + sizes ps : Nat) : Int) - b.n)) = _
    rw [List.append_assoc, set_behind, show (((b.n + 1 + sizes ps : Nat) : Int) - b.n) =
      ((sizes ps + 1 : Nat) : Int) by omega]
    show _ = b.out ++ ((p (sizes ps + 1)).words 0 ++ raw ps)
    rw [hwords]
  · rw [hend, putPatch_of_not_full hfull2, hg.fix, hput_n, hput, hfix]

/-! ### The test of the hit entries -/

/-- The words of the test up to its first branch, and from there to its last. -/
def regionFirst (write : Bool) : List A64 :=
  [.ldr x9 cpuReg offAs, .ldr x10 x9 (entryOff write), .ldr x11 x9 (entryOff write + 8), .sub x12 x1 x10,
    .subsZr x12 x11 false]

def regionSecond (write : Bool) : List A64 :=
  [.ldr x10 x9 (entryOff write + 16), .ldr x11 x9 (entryOff write + 24), .sub x12 x1 x10, .subsZr x12 x11 false]

/-- The last word but for its branch. -/
lemma regionCode_eq (write : Bool) (d : Int) :
    regionCode write d = regionFirst write ++ ([A64.bcond .cc 6] ++ (regionSecond write ++ [A64.bcond .cs d])) := rfl

/-- The test from its first branch on. -/
def regionTail (write : Bool) : Emit Nat := do
  let hit ← here
  puts (.bcond .cc 0 :: regionSecond write)
  let at_ ← here
  put (.bcond .cs 0)
  putPatchBcond hit .cc
  pure at_

lemma putRegionCheck_eq (write : Bool) : putRegionCheck write = puts (regionFirst write) >>= fun _ => regionTail write :=
  rfl

lemma regionTail_bounded (write : Bool) (b : Buf) : Bounded (regionTail write) b := by
  have hpast : Past b.n (put (.bcond .cs 0) (puts (regionSecond write) (put (.bcond .cc 0) b).2).2).2 :=
    ((past_put _ b).mono (puts_bounded _ _).within).mono (put_bounded _ _).within
  exact (Bounded.get _ b).bind ((puts_bounded _ b).bind ((Bounded.get _ _).bind
    ((put_bounded _ _).bind ((putPatch_bounded _ hpast).bind (Bounded.pure _ _)))))

lemma regionCheck_bounded (write : Bool) (b : Buf) : Bounded (putRegionCheck write) b := by
  rw [putRegionCheck_eq]
  exact (puts_bounded _ b).bind (regionTail_bounded write _)

lemma length_out (b : Buf) (l : List A64) : ({ b with out := b.out ++ l } : Buf).n = b.n + l.length :=
  List.length_append ..

lemma regionTail_grown {write : Bool} {b : Buf} (h : (regionTail write b).2.full = false) :
    b.full = false ∧ (regionTail write b).1 = b.n + 5 ∧
      (regionTail write b).2 =
        { b with out := b.out ++ ([A64.bcond .cc 6] ++ (regionSecond write ++ [A64.bcond .cs 0])) } := by
  have hval : regionTail write b = ((puts (.bcond .cc 0 :: regionSecond write) b).2.n,
      (putPatch b.n (.bcond .cc) (put (.bcond .cs 0) (puts (.bcond .cc 0 :: regionSecond write) b).2).2).2) := rfl
  rw [hval] at h ⊢
  have hput : (put (.bcond .cs 0) (puts (.bcond .cc 0 :: regionSecond write) b).2).2.full = false :=
    (putPatch_full _ _ _).symm.trans h
  obtain ⟨hfull, hlt⟩ := put_full hput
  obtain ⟨hb, heq⟩ := puts_grown hfull
  have hlen : (A64.bcond .cc 0 :: regionSecond write).length = 5 := rfl
  have hn : (puts (.bcond .cc 0 :: regionSecond write) b).2.n = b.n + 5 := by rw [heq, length_out, hlen]
  refine ⟨hb, hn, ?_⟩
  have hn' : (put (.bcond .cs 0) (puts (.bcond .cc 0 :: regionSecond write) b).2).2.n = b.n + 6 := by
    rw [put_out hlt, length_snoc, hn]
  rw [putPatch_of_not_full hput, hn', put_out hlt, heq, show ((b.n + 6 : Nat) : Int) - b.n = 6 by omega]
  have hset := set_behind b.out (regionSecond write ++ [A64.bcond .cs 0]) (.bcond .cc 0) (.bcond .cc 6)
  rw [← hset]
  show ({ b with out := (b.out ++ (A64.bcond .cc 0 :: regionSecond write) ++ [A64.bcond .cs 0]).set b.n _ } : Buf) = _
  rw [List.append_assoc]
  rfl

lemma regionCheck_grown {write : Bool} {b : Buf} (h : (putRegionCheck write b).2.full = false) :
    b.full = false ∧ (putRegionCheck write b).1 = b.n + 10 ∧
      (putRegionCheck write b).2 = { b with out := b.out ++ regionCode write 0 } := by
  have hval : putRegionCheck write b = regionTail write (puts (regionFirst write) b).2 := rfl
  rw [hval] at h ⊢
  obtain ⟨hfirst, hpos, htail⟩ := regionTail_grown h
  obtain ⟨hb, heq⟩ := puts_grown hfirst
  have hlen : (regionFirst write).length = 5 := rfl
  rw [heq] at hpos htail ⊢
  rw [length_out, hlen] at hpos
  refine ⟨hb, hpos, htail.trans ?_⟩
  rw [regionCode_eq]
  exact congrArg (fun o => ({ b with out := o } : Buf)) (List.append_assoc ..)

/-- An access with its two paths: in line when an entry covers the address, else by a call. -/
def putAccess (write : Bool) (fast slow : Emit Unit) : Emit Unit := do
  let at_ ← putRegionCheck write
  fast
  let done ← here
  put (.b 0)
  putPatchBcond at_ .cs
  slow
  putPatchB done

/-- From the end of the fast path on. -/
def accessTail (at_ : Nat) (slow : Emit Unit) : Emit Unit := do
  let done ← here
  put (.b 0)
  putPatchBcond at_ .cs
  slow
  putPatchB done

lemma putAccess_eq (write : Bool) (fast slow : Emit Unit) :
    putAccess write fast slow = putRegionCheck write >>= fun at_ => fast >>= fun _ => accessTail at_ slow := rfl

lemma accessTail_bounded {at_ : Nat} {slow : Emit Unit} (hslow : ∀ b, Bounded slow b) {b : Buf} (hat : Past at_ b) :
    Bounded (accessTail at_ slow) b := by
  have hput := put_bounded (.b 0) b
  have hpatch := putPatch_bounded (.bcond .cs) (hat.mono hput.within)
  have hdone := ((past_put (.b 0) b).mono hpatch.within).mono (hslow _).within
  exact (Bounded.get _ b).bind (hput.bind (hpatch.bind ((hslow _).bind (putPatch_bounded .b hdone))))

lemma past_regionCheck (write : Bool) (b : Buf) : Past (putRegionCheck write b).1 (putRegionCheck write b).2 := by
  intro hfull
  obtain ⟨-, hpos, hbuf⟩ := regionCheck_grown hfull
  have hlen : (regionCode write 0).length = 11 := rfl
  rw [hpos, hbuf, length_out, hlen]
  exact Nat.lt_succ_self _

lemma putAccess_bounded (write : Bool) {fast slow : Emit Unit} (hfast : ∀ b, Bounded fast b)
    (hslow : ∀ b, Bounded slow b) (b : Buf) : Bounded (putAccess write fast slow) b := by
  rw [putAccess_eq]
  have hpast := (past_regionCheck write b).mono (hfast _).within
  exact (regionCheck_bounded write b).bind ((hfast _).bind (accessTail_bounded hslow hpast))

/-- Behind the test: its branch goes past the word that jumps over the slow path. -/
lemma accessTail_grown {at_ : Nat} {slow : Emit Unit} (hslow : Emits P k slow) {b : Buf} {l l' : List A64} {i : A64}
    (hout : b.out = l ++ ([i] ++ l')) (hat : at_ = l.length) (hfull : (accessTail at_ slow b).2.full = false) :
    b.full = false ∧ ∃ ps, Fragment (P b.check) k ps ∧
      (accessTail at_ slow b).2.out =
        l ++ ([A64.bcond .cs ((l'.length + 2 : Nat) : Int)] ++ (l' ++ ([A64.b ((sizes ps + 1 : Nat) : Int)] ++ raw ps))) ∧
      (accessTail at_ slow b).2.fix = b.fix ++ fixups (b.n + 1) ps := by
  have hval : accessTail at_ slow b =
      putPatch b.n .b (slow (putPatch at_ (.bcond .cs) (put (.b 0) b).2).2).2 := rfl
  rw [hval] at hfull ⊢
  have hfull3 := (putPatch_full _ _ _).symm.trans hfull
  obtain ⟨ps, hps, hg⟩ := hslow.grown _ hfull3
  have hput : (put (.b 0) b).2.full = false := (putPatch_full _ _ _).symm.trans hg.notFull
  obtain ⟨hb, hlt⟩ := put_full hput
  have hn : b.n = l.length + 1 + l'.length := by
    rw [Buf.n, hout, List.length_append, List.length_append, List.length_singleton, Nat.add_assoc]
  have hdisp : ((l.length + 1 + l'.length + 1 : Nat) : Int) - l.length = ((l'.length + 2 : Nat) : Int) := by omega
  have hbuf : (putPatch at_ (.bcond .cs) (put (.b 0) b).2).2 =
      { b with out := l ++ ([A64.bcond .cs ((l'.length + 2 : Nat) : Int)] ++ (l' ++ [A64.b 0])) } := by
    rw [putPatch_of_not_full hput, put_out hlt, length_snoc, hn, hat, hout, hdisp, List.append_assoc, List.append_assoc,
      set_behind]
  rw [hbuf] at hg hps hfull3 ⊢
  generalize (slow _).2 = b3 at hg hfull3 ⊢
  have hpre : (l ++ ([A64.bcond .cs ((l'.length + 2 : Nat) : Int)] ++ l')).length = b.n := by
    rw [hn, List.length_append, List.length_append, List.length_singleton, Nat.add_assoc]
  have hn2 : ({ b with out := l ++ ([A64.bcond .cs ((l'.length + 2 : Nat) : Int)] ++ (l' ++ [A64.b 0])) } : Buf).n =
      b.n + 1 := by
    rw [← hpre]
    simp only [Buf.n, List.length_append, List.length_singleton, Nat.add_assoc]
  have hn3 : b3.n = b.n + 1 + sizes ps := hn2 ▸ hg.n
  have hdisp3 : ((b.n + 1 + sizes ps : Nat) : Int) - b.n = ((sizes ps + 1 : Nat) : Int) := by omega
  have hout3 : b3.out = l ++ ([A64.bcond .cs ((l'.length + 2 : Nat) : Int)] ++ l') ++ ([A64.b 0] ++ raw ps) := by
    rw [hg.out]
    simp only [List.append_assoc]
  rw [putPatch_of_not_full hfull3]
  refine ⟨hb, ps, hps, ?_, ?_⟩
  · show b3.out.set b.n (.b (b3.n - b.n)) = _
    rw [hn3, hdisp3, hout3, ← hpre, set_behind]
    simp only [List.append_assoc]
  · exact hn2 ▸ hg.fix

lemma emits_access {write : Bool} {fast slow : Emit Unit} (hregion : ∀ c d, P c (.region write d)) (hb : ∀ c d, P c (.b d))
    (hfast : Emits P k fast) (hslow : Emits P j slow) : Emits P (k + j) (putAccess write fast slow) := by
  refine ⟨putAccess_bounded write hfast.bounded hslow.bounded, fun b hfull => ?_⟩
  have hval : putAccess write fast slow b =
      accessTail (putRegionCheck write b).1 slow (fast (putRegionCheck write b).2).2 := rfl
  rw [hval] at hfull ⊢
  have hpast : (fast (putRegionCheck write b).2).2.full = false := by
    by_contra hne
    have hbounded := accessTail_bounded hslow.bounded ((past_regionCheck write b).mono (hfast.bounded _).within)
    rw [hbounded.within.full ((Bool.not_eq_false _).mp hne)] at hfull
    cases hfull
  obtain ⟨qs, hqs, hgq⟩ := hfast.grown _ hpast
  obtain ⟨hnot, hpos, hregioned⟩ := regionCheck_grown hgq.notFull
  -- the test's last branch is the word that is patched behind the fast path
  have hlast : regionCode write 0 = (regionFirst write ++ ([A64.bcond .cc 6] ++ regionSecond write)) ++
    [A64.bcond .cs 0] := rfl
  have hlen : (regionFirst write ++ ([A64.bcond .cc 6] ++ regionSecond write)).length = 10 := rfl
  have hout : (fast (putRegionCheck write b).2).2.out =
      (b.out ++ (regionFirst write ++ ([A64.bcond .cc 6] ++ regionSecond write))) ++ ([A64.bcond .cs 0] ++ raw qs) := by
    rw [hgq.out, hregioned, hlast]
    simp only [List.append_assoc]
  have hat : (putRegionCheck write b).1 =
      (b.out ++ (regionFirst write ++ ([A64.bcond .cc 6] ++ regionSecond write))).length := by
    rw [hpos, List.length_append, hlen]
    rfl
  obtain ⟨-, ps, hps, hend, hfix⟩ := accessTail_grown hslow hout hat hfull
  have hcheck : (fast (putRegionCheck write b).2).2.check = b.check := by
    rw [(hfast.bounded _).within.check, hregioned]
  have hcheck' : (putRegionCheck write b).2.check = b.check := by rw [hregioned]
  rw [hcheck] at hps
  rw [hcheck'] at hqs
  have hjump : Fragment (P b.check) j (.b (sizes ps + 1) :: ps) := hps.across (hb _ _) rfl rfl
  refine ⟨.region write (sizes qs + 2) :: (qs ++ (.b (sizes ps + 1) :: ps)), ?_, hnot, ?_, ?_⟩
  · have hbehind := hqs.append hjump
    refine ⟨fun p hp => ?_, ⟨fun d hd => ?_, hbehind.linked⟩, ?_⟩
    · rcases List.mem_cons.mp hp with rfl | hp
      · exact hregion _ _
      · exact hbehind.kind p hp
    · refine ⟨qs ++ [Piece.b (sizes ps + 1)], ps, List.append_cons .., ?_⟩
      rw [← Option.mem_some_iff.mp hd, sizes_append]
      rfl
    · show callCount (regionCode write _) + callsOf _ ≤ k + j
      exact Nat.le_trans (Nat.le_of_eq (Nat.zero_add _)) hbehind.calls
  · rw [hend]
    show _ = b.out ++ (regionCode write ((sizes qs + 2 : Nat) : Int) ++ raw (qs ++ (.b (sizes ps + 1) :: ps)))
    rw [raw_append, regionCode_eq, length_raw]
    show _ = b.out ++ (_ ++ (raw qs ++ ([A64.b ((sizes ps + 1 : Nat) : Int)] ++ raw ps)))
    simp only [List.append_assoc]
  · have hlen11 : (regionCode write 0).length = 11 := rfl
    rw [hfix, hgq.fix, hgq.n, hregioned, length_out, hlen11]
    show _ = b.fix ++ fixups (b.n + 11) (qs ++ (.b (sizes ps + 1) :: ps))
    rw [fixups_append, ← List.append_assoc]
    rfl

end Pieces

end Rashid.Proofs
