import Rashid.Encoders
import Rashid.Proofs.EmittedKinds

/-!
# The shape of a compiled block

The loop that cuts a block until it fits ends, no turn of it writes outside the buffer, and the
block's end always fits behind it. The finished block goes forward only: each of its branches has
been patched, goes to a word of the block and can be encoded, and each path through it leaves it.
-/

namespace Rashid.Proofs

/-! ### Paths through code -/

def displacement : A64 → Option Int
  | .b d | .bcond _ d | .cbzW _ d => some d
  | _ => none

/-- Every branch goes forward, to a word of the code, and can be encoded. -/
def Inside (code : List A64) : Prop :=
  ∀ (i : Nat) (w : A64), code[i]? = some w → ∀ d ∈ displacement w, w.InRange ∧ 0 < d ∧ (i : Int) + d < code.length

/-- Neither a branch nor a return. -/
def straight : A64 → Bool
  | .b _ | .bcond _ _ | .cbzW _ _ | .ret => false
  | _ => true

/-- Every path from the first word on comes to a `pop` of x30 with a `ret` behind it. -/
inductive Leaves : List A64 → Prop
  | leave (l : List A64) : Leaves (.pop x30 :: .ret :: l)
  | next {i : A64} {l : List A64} : straight i = true → Leaves l → Leaves (i :: l)
  | b {d : Nat} {l : List A64} : Leaves (l.drop d) → Leaves (.b (d + 1 : Nat) :: l)
  | bcond {c : A64Cond} {d : Nat} {l : List A64} : Leaves l → Leaves (l.drop d) → Leaves (.bcond c (d + 1 : Nat) :: l)
  | cbz {t : A64Reg} {d : Nat} {l : List A64} : Leaves l → Leaves (l.drop d) → Leaves (.cbzW t (d + 1 : Nat) :: l)

lemma Leaves.pos {l : List A64} (h : Leaves l) : 0 < l.length := by
  cases h <;> exact Nat.succ_pos _

/-- Where a path goes on there is a word. -/
lemma Leaves.lt {l : List A64} {d : Nat} (h : Leaves (l.drop d)) : d < l.length := by
  have := h.pos
  rw [List.length_drop] at this
  omega

/-- Code that is not too long, with its branches inside and its paths leading out. -/
structure Shaped (l : List A64) : Prop where
  short : l.length ≤ maxBlock
  inside : Inside l
  leaves : Leaves l

namespace Inside

variable {l : List A64} {w : A64}

lemma cons (hl : Inside l) (hw : ∀ d ∈ displacement w, w.InRange ∧ 0 < d ∧ d < l.length + 1) : Inside (w :: l) := by
  intro i v hv d hd
  cases i with
  | zero =>
    obtain rfl : w = v := Option.some.inj hv
    obtain ⟨hrange, hpos, hlt⟩ := hw d hd
    refine ⟨hrange, hpos, ?_⟩
    rw [List.length_cons]
    omega
  | succ i =>
    obtain ⟨hrange, hpos, hlt⟩ := hl i v hv d hd
    refine ⟨hrange, hpos, ?_⟩
    rw [List.length_cons]
    omega

lemma step (hl : Inside l) (hw : displacement w = none) : Inside (w :: l) :=
  hl.cons fun _ hd => absurd (hw ▸ hd) nofun

end Inside

lemma displacement_straight {i : A64} (h : straight i = true) : displacement i = none := by
  cases i with
  | b d => cases h
  | bcond c d => cases h
  | cbzW t d => cases h
  | _ => rfl

namespace Shaped

variable {l ws : List A64} {d : Nat}

lemma step {i : A64} (hi : straight i = true) (hl : Shaped l) (hshort : l.length < maxBlock) : Shaped (i :: l) :=
  ⟨hshort, hl.inside.step (displacement_straight hi), .next hi hl.leaves⟩

/-- Straight words in front. -/
lemma append (hws : ∀ i ∈ ws, straight i = true) (hl : Shaped l) (hshort : ws.length + l.length ≤ maxBlock) :
    Shaped (ws ++ l) := by
  induction ws with
  | nil => exact hl
  | cons i ws ih =>
    have hlen : (ws ++ l).length < maxBlock := by
      rw [List.length_append]
      rw [List.length_cons] at hshort
      omega
    exact (ih (fun j hj => hws j (List.mem_cons_of_mem i hj)) (List.length_append ▸ Nat.le_of_lt hlen)).step
      (hws i List.mem_cons_self) hlen

/-- A branch to a word of the code behind it is in range. -/
lemma target (hshort : l.length < maxBlock) (hto : Leaves (l.drop d)) :
    (-2 ^ 18 ≤ ((d + 1 : Nat) : Int) ∧ ((d + 1 : Nat) : Int) < 2 ^ 18) ∧ (0 : Int) < (d + 1 : Nat) ∧
      ((d + 1 : Nat) : Int) < l.length + 1 := by
  have hlt := hto.lt
  have hmax : maxBlock = 2048 := rfl
  omega

lemma b (hl : Inside l) (hshort : l.length < maxBlock) (hto : Leaves (l.drop d)) : Shaped (.b (d + 1 : Nat) :: l) := by
  obtain ⟨hrange, hfar⟩ := target hshort hto
  have hwide : A64.InRange (.b (d + 1 : Nat)) := ⟨by omega, by omega⟩
  refine ⟨hshort, hl.cons fun e he => ?_, .b hto⟩
  rw [← Option.mem_some_iff.mp he]
  exact ⟨hwide, hfar⟩

lemma bcond {c : A64Cond} (hl : Shaped l) (hshort : l.length < maxBlock) (hto : Leaves (l.drop d)) :
    Shaped (.bcond c (d + 1 : Nat) :: l) := by
  obtain ⟨hrange, hfar⟩ := target hshort hto
  refine ⟨hshort, hl.inside.cons fun e he => ?_, .bcond hl.leaves hto⟩
  rw [← Option.mem_some_iff.mp he]
  exact ⟨hrange, hfar⟩

lemma cbz {t : A64Reg} (hl : Shaped l) (hshort : l.length < maxBlock) (hto : Leaves (l.drop d)) :
    Shaped (.cbzW t (d + 1 : Nat) :: l) := by
  obtain ⟨hrange, hfar⟩ := target hshort hto
  refine ⟨hshort, hl.inside.cons fun e he => ?_, .cbz hl.leaves hto⟩
  rw [← Option.mem_some_iff.mp he]
  exact ⟨hrange, hfar⟩

/-- The way out, whatever stands behind it. -/
lemma leave (hl : Inside l) (hshort : l.length + 2 ≤ maxBlock) : Shaped (leaveCode ++ l) :=
  ⟨hshort, (hl.step rfl).step rfl, .leave l⟩

end Shaped

/-! ### The pieces of a block -/

section Pieces

variable {lk : Link} {o : Insn} {check : Bool}

def Straight (l : List A64) : Prop := ∀ i ∈ l, straight i = true

namespace Straight

variable {l l' : List A64}

lemma cons {i : A64} (hi : straight i = true) (hl : Straight l) : Straight (i :: l) := by
  intro j hj
  rcases List.mem_cons.mp hj with rfl | hj
  · exact hi
  · exact hl j hj

lemma one {i : A64} (hi : straight i = true) : Straight [i] := cons hi fun _ h => absurd h List.not_mem_nil

lemma append (hl : Straight l) (hl' : Straight l') : Straight (l ++ l') := by
  intro i hi
  rcases List.mem_append.mp hi with hi | hi
  · exact hl i hi
  · exact hl' i hi

lemma plain (h : Plain l) : Straight l := by
  intro i hi
  have hplain := h i hi
  cases i with
  | b d => cases hplain
  | bcond c d => cases hplain
  | cbzW t d => cases hplain
  | ret => cases hplain
  | _ => rfl

lemma args (h : ∀ i ∈ l, argInsn i = true) : Straight l := by
  intro i hi
  have harg := h i hi
  cases i with
  | b d => cases harg
  | bcond c d => cases harg
  | cbzW t d => cases harg
  | ret => cases harg
  | _ => rfl

end Straight

lemma straight_call (lk : Link) (h : Helper) : Straight (callCode lk h) :=
  (Straight.plain (plain_imm rfl _)).append (.one rfl)

lemma straight_flags (add sub logic : Bool) (need : BitVec 32) (w : Bool) :
    Straight (flagsInlineCode add sub logic need w) := by
  obtain ⟨l, hl, hcode⟩ := plain_produce add sub logic need w
  have himm : Straight (immCode x12 (need.setWidth 64)) := .plain (plain_imm rfl _)
  rw [hcode]
  exact (Straight.plain hl).append ((((Straight.one rfl).append himm)).append
    ((Straight.one rfl).append ((Straight.one rfl).append (.one rfl))))

lemma straight_wlog (lk : Link) (size : Nat) : Straight (wlogCode lk size) := by
  have hsave : Straight [.str x1 cpuReg (offTmp 6), .str x2 cpuReg (offTmp 7), .mov x0 cpuReg] :=
    .plain (.cons rfl (.cons rfl (.one rfl)))
  have hback : Straight [.ldr x1 cpuReg (offTmp 6), .ldr x2 cpuReg (offTmp 7)] := .plain (.cons rfl (.one rfl))
  exact ((hsave.append (.plain (plain_imm rfl _))).append (straight_call lk _)).append hback

lemma straight_storeInsn (size : Nat) : straight (storeInsn size) = true := by
  unfold storeInsn
  split <;> rfl

/-- No code within a piece branches. -/
lemma straight_code {l : List A64} (h : Emitted lk o check (.code l)) : Straight l := by
  cases h with
  | plain hl => exact .plain hl
  | call hh hargs => exact ((Straight.one rfl).append (.args hargs)).append (straight_call lk _)
  | slowStore hsize => exact ((Straight.one rfl).append (.plain (plain_imm rfl _))).append (straight_call lk _)
  | pair hh hoff => exact ((Straight.one rfl).append (.one rfl)).append (straight_call lk _)
  | nan dbl unary => exact (Straight.plain (plain_nanArgs dbl unary)).append (straight_call lk _)
  | flags add sub logic w => exact straight_flags add sub logic o.fneed w
  | @store size hsize =>
    cases check with
    | true => exact (straight_wlog lk size).append (.one (straight_storeInsn size))
    | false => exact .one (straight_storeInsn size)

/-- The words of pieces in front of the block's end, with the fault exit `e` words into it. -/
def withEnd (e : Nat) (last : List A64) (ps : List Piece) : List A64 := render e ps ++ last

variable {e : Nat} {last : List A64}

lemma drop_withEnd (ps qs : List Piece) : (withEnd e last (ps ++ qs)).drop (sizes ps) = withEnd e last qs := by
  unfold withEnd
  rw [render_append, List.append_assoc]
  exact List.drop_left' (length_render _ _)

/-- From any piece on, the fault exit is where the branches to it go. -/
lemma drop_exit (ps : List Piece) : (withEnd e last ps).drop (sizes ps + e) = last.drop e := by
  unfold withEnd
  rw [← length_render e ps, List.drop_length_add_append]

lemma shaped_region {write : Bool} {d : Nat} {l : List A64} (hl : Shaped l) (hshort : 11 + l.length ≤ maxBlock)
    (hto : Leaves (l.drop d)) : Shaped (regionCode write (d + 1 : Nat) ++ l) := by
  have hfirst : Straight (regionFirst write) := .cons rfl (.cons rfl (.cons rfl (.cons rfl (.one rfl))))
  have hsecond : Straight (regionSecond write) := .cons rfl (.cons rfl (.cons rfl (.one rfl)))
  have hcs : Shaped (.bcond .cs (d + 1 : Nat) :: l) := hl.bcond (by omega) hto
  have htail : Shaped (regionSecond write ++ .bcond .cs (d + 1 : Nat) :: l) := by
    refine hcs.append hsecond ?_
    rw [List.length_cons]
    show 4 + (l.length + 1) ≤ maxBlock
    omega
  have hlen : (regionSecond write ++ .bcond .cs (d + 1 : Nat) :: l).length = l.length + 5 := by
    rw [List.length_append, List.length_cons]
    exact Nat.add_comm 4 (l.length + 1)
  have hcc : Shaped (.bcond .cc (5 + 1 : Nat) :: (regionSecond write ++ .bcond .cs (d + 1 : Nat) :: l)) :=
    htail.bcond (by omega) hl.leaves
  rw [regionCode_eq, List.append_assoc, List.append_assoc, List.append_assoc]
  refine hcc.append hfirst ?_
  show 5 + ((regionSecond write ++ .bcond .cs (d + 1 : Nat) :: l).length + 1) ≤ maxBlock
  rw [hlen]
  omega

/-- What one piece adds to a block that is well formed behind it and at its targets. -/
lemma shaped_piece {p : Piece} {ps : List Piece} (hp : Emitted lk o check p) (hrest : Shaped (withEnd e last ps))
    (hexit : Leaves (last.drop e)) (hshort : (withEnd e last (p :: ps)).length ≤ maxBlock)
    (hto : ∀ d ∈ p.jump, ∃ qs rs, ps = qs ++ rs ∧ d = sizes qs + 1 ∧ Shaped (withEnd e last rs)) :
    Shaped (withEnd e last (p :: ps)) := by
  have hcode : withEnd e last (p :: ps) = p.words ((sizes ps + 1 + e : Nat) : Int) ++ withEnd e last ps :=
    List.append_assoc ..
  have hlen : p.size + (withEnd e last ps).length ≤ maxBlock := by
    rwa [hcode, List.length_append, Piece.length_words] at hshort
  rw [hcode]
  have htarget (d : Nat) (hd : p.jump = some d) : ∃ k, d = k + 1 ∧ Leaves ((withEnd e last ps).drop k) := by
    obtain ⟨qs, rs, hps, hsize, hshaped⟩ := hto d hd
    refine ⟨sizes qs, hsize, ?_⟩
    rw [hps, drop_withEnd]
    exact hshaped.leaves
  have hone (h : p.size = 1) : (withEnd e last ps).length < maxBlock := by omega
  cases p with
  | code l => exact hrest.append (straight_code hp) hlen
  | region write d =>
    obtain ⟨k, rfl, hk⟩ := htarget d rfl
    exact shaped_region hrest hlen hk
  | bcond c d =>
    obtain ⟨k, rfl, hk⟩ := htarget d rfl
    exact hrest.bcond (hone rfl) hk
  | cbz t d =>
    obtain ⟨k, rfl, hk⟩ := htarget d rfl
    exact hrest.cbz (hone rfl) hk
  | b d =>
    obtain ⟨k, rfl, hk⟩ := htarget d rfl
    exact .b hrest.inside (hone rfl) hk
  | exit =>
    have hk : Leaves ((withEnd e last ps).drop (sizes ps + e)) := by
      rw [drop_exit]
      exact hexit
    have hdisp : sizes ps + 1 + e = sizes ps + e + 1 := Nat.add_right_comm ..
    rw [hdisp]
    exact hrest.cbz (hone rfl) hk
  | leave => exact .leave hrest.inside (Nat.add_comm .. ▸ hlen)

end Pieces

/-! ### The instructions of a block -/

section Block

variable {lk : Link} {check : Bool} {v : List Insn} {rip : BitVec 64}

/-- The pieces of any of the instructions. -/
def EmittedOf (lk : Link) (v : List Insn) (check : Bool) (p : Piece) : Prop := ∃ o ∈ v, Emitted lk o check p

lemma emitInsns_bounded (at_ : BitVec 64) (i : Nat) (b : Buf) : Bounded (emitInsns lk v at_ i) b := by
  induction v generalizing at_ i b with
  | nil => exact .pure _ b
  | cons o v ih =>
    refine ((emits_putInsn at_).bounded b).bind ((Bounded.get Buf.full _).bind ?_)
    show Bounded (if _ then pure (i, at_) else emitInsns lk v o.next (i + 1)) _
    split
    · exact .pure _ _
    · exact ih o.next (i + 1) _

/-- One instruction and what is behind it. -/
lemma emitInsns_cons (o : Insn) (at_ : BitVec 64) (i : Nat) (b : Buf) :
    emitInsns lk (o :: v) at_ i b =
      if (putInsn lk o at_ b).2.full then ((i, at_), (putInsn lk o at_ b).2)
      else emitInsns lk v o.next (i + 1) (putInsn lk o at_ b).2 := by
  show (if (putInsn lk o at_ b).2.full then pure (i, at_) else emitInsns lk v o.next (i + 1)) (putInsn lk o at_ b).2 = _
  split <;> rfl

lemma emitInsns_count (at_ : BitVec 64) (i : Nat) (b : Buf) :
    i ≤ (emitInsns lk v at_ i b).1.1 ∧ (emitInsns lk v at_ i b).1.1 ≤ i + v.length := by
  induction v generalizing at_ i b with
  | nil => exact ⟨Nat.le_refl i, Nat.le_refl i⟩
  | cons o v ih =>
    rw [emitInsns_cons, List.length_cons]
    split
    · exact ⟨Nat.le_refl i, Nat.le_add_right ..⟩
    · have := ih o.next (i + 1) (putInsn lk o at_ b).2
      omega

/-- When all instructions fit, their pieces have been added. -/
lemma emitInsns_grown {at_ : BitVec 64} {i : Nat} {b : Buf} (hb : b.full = false)
    (h : (emitInsns lk v at_ i b).1.1 = i + v.length) :
    (emitInsns lk v at_ i b).2.full = false ∧
      ∃ ps, Fragment (EmittedOf lk v b.check) (4 * v.length) ps ∧ Grown b ps (emitInsns lk v at_ i b).2 := by
  induction v generalizing at_ i b with
  | nil => exact ⟨hb, [], .nil, hb, (List.append_nil _).symm, (List.append_nil _).symm⟩
  | cons o v ih =>
    rw [emitInsns_cons] at h ⊢
    by_cases hfull : (putInsn lk o at_ b).2.full = true
    · rw [if_pos hfull, List.length_cons] at h
      have hlen : i = i + (v.length + 1) := h
      omega
    rw [if_neg hfull] at h ⊢
    have hno := (Bool.not_eq_true _).mp hfull
    have hfirst : EmitsFor lk o 4 (putInsn lk o at_) := emits_putInsn at_
    obtain ⟨ps, hps, hgp⟩ := hfirst.grown b hno
    have hcount : (emitInsns lk v o.next (i + 1) (putInsn lk o at_ b).2).1.1 = i + 1 + v.length := by
      rw [h, List.length_cons]
      omega
    obtain ⟨hend, qs, hqs, hgq⟩ := ih hno hcount
    refine ⟨hend, ps ++ qs, ?_, hgp.notFull, ?_, ?_⟩
    · rw [(hfirst.bounded b).within.check] at hqs
      have hone : Fragment (EmittedOf lk (o :: v) b.check) 4 ps := hps.imp fun p hp => ⟨o, List.mem_cons_self, hp⟩
      have hlater : Fragment (EmittedOf lk (o :: v) b.check) (4 * v.length) qs :=
        hqs.imp fun p ⟨u, hu, hp⟩ => ⟨u, List.mem_cons_of_mem o hu, hp⟩
      exact (hone.append hlater).mono (by rw [List.length_cons]; omega)
    · rw [hgq.out, hgp.out, raw_append, List.append_assoc]
    · rw [hgq.fix, hgp.fix, fixups_append, List.append_assoc, hgp.n]

/-! ### The loop -/

/-- The turns of the loop: the one whose instructions all fit is the last. -/
inductive Turns (lk : Link) (check : Bool) (rip : BitVec 64) : Decoded → Buf × Decoded → Prop
  | fits {d : Decoded} {at_ : BitVec 64} {b : Buf} :
      emitBody lk (flagLiveness d.v) rip (startBuf check) = (((flagLiveness d.v).length, at_), b) →
      Turns lk check rip d (b, { d with v := flagLiveness d.v })
  | cut {d : Decoded} {i : Nat} {at_ : BitVec 64} {b : Buf} {r : Buf × Decoded} :
      emitBody lk (flagLiveness d.v) rip (startBuf check) = ((i, at_), b) → i < (flagLiveness d.v).length →
      Turns lk check rip ⟨(flagLiveness d.v).take i, false, at_⟩ r → Turns lk check rip d r

lemma length_flagLiveness (v : List Insn) : (flagLiveness v).length = v.length := by
  unfold flagLiveness
  induction v with
  | nil => rfl
  | cons o v ih => exact congrArg (· + 1) ih

/-- No more instructions fit than there are. -/
lemma emitBody_count : (emitBody lk v rip (startBuf check)).1.1 ≤ v.length :=
  Nat.le_trans (emitInsns_count rip 0 _).2 (Nat.le_of_eq (Nat.zero_add _))

lemma emitLoop_succ (fuel : Nat) (d : Decoded) : emitLoop lk check rip (fuel + 1) d =
    if (emitBody lk (flagLiveness d.v) rip (startBuf check)).1.1 = (flagLiveness d.v).length then
      ((emitBody lk (flagLiveness d.v) rip (startBuf check)).2, { d with v := flagLiveness d.v })
    else emitLoop lk check rip fuel
      ⟨(flagLiveness d.v).take (emitBody lk (flagLiveness d.v) rip (startBuf check)).1.1, false,
      (emitBody lk (flagLiveness d.v) rip (startBuf check)).1.2⟩ := rfl

/-- Each turn but the last drops an instruction, so the loop ends. -/
theorem emitLoop_turns (fuel : Nat) (d : Decoded) (h : d.v.length < fuel) :
    Turns lk check rip d (emitLoop lk check rip fuel d) := by
  induction fuel generalizing d with
  | zero => exact absurd h (Nat.not_lt_zero _)
  | succ fuel ih =>
    have hcount : (emitBody lk (flagLiveness d.v) rip (startBuf check)).1.1 ≤ (flagLiveness d.v).length := emitBody_count
    rw [emitLoop_succ]
    generalize hr : emitBody lk (flagLiveness d.v) rip (startBuf check) = r at hcount ⊢
    obtain ⟨⟨i, at_⟩, b⟩ := r
    by_cases hi : i = (flagLiveness d.v).length
    · subst hi
      rw [if_pos rfl]
      exact .fits hr
    · rw [if_neg hi]
      have hlt : i < (flagLiveness d.v).length := Nat.lt_of_le_of_ne hcount hi
      refine .cut hr hlt (ih _ ?_)
      rw [List.length_take]
      rw [length_flagLiveness] at hlt ⊢
      omega

/-- The last turn has emitted all of the instructions that are left. -/
lemma Turns.ends {d : Decoded} {r : Buf × Decoded} (h : Turns lk check rip d r) :
    ∃ u at_, r.2.v = flagLiveness u ∧ emitBody lk r.2.v rip (startBuf check) = ((r.2.v.length, at_), r.1) := by
  induction h with
  | @fits d at_ b hr => exact ⟨d.v, at_, rfl, hr⟩
  | cut hr hi hturns ih => exact ih

lemma emitBody_bounded : Bounded (emitBody lk v rip) (startBuf check) :=
  (put_bounded _ _).bind (emitInsns_bounded rip 0 _)

/-- The pieces behind the first word when everything fits. -/
lemma emitBody_grown {at_ : BitVec 64} {b : Buf} (h : emitBody lk v rip (startBuf check) = ((v.length, at_), b)) :
    b.full = false ∧ b.n ≤ maxBlock - 24 ∧ ∃ ps, Fragment (EmittedOf lk v check) (4 * v.length) ps ∧
      b.out = [.push x30] ++ raw ps ∧ b.fix = fixups 1 ps := by
  have hinsns : emitInsns lk v rip 0 (put (.push x30) (startBuf check)).2 = ((v.length, at_), b) := h
  have hput : (put (.push x30) (startBuf check)).2 = { startBuf check with out := [.push x30] } := rfl
  rw [hput] at hinsns
  have hcount : (emitInsns lk v rip 0 { startBuf check with out := [.push x30] }).1.1 = 0 + v.length := by
    rw [hinsns, Nat.zero_add]
  obtain ⟨hfull, ps, hps, hg⟩ := emitInsns_grown rfl hcount
  rw [hinsns] at hfull hg
  have hbounded : Bounded (emitBody lk v rip) (startBuf check) := emitBody_bounded
  have hin := hbounded.within
  rw [h] at hin
  have hn : b.n ≤ b.max := hin.fits (Nat.zero_le _)
  have hmax : b.max = maxBlock - 24 := hin.max
  exact ⟨hfull, hmax ▸ hn, ps, hps, hg.out, hg.fix⟩

/-! ### The block's end -/

lemma length_imm (r : A64Reg) (x : BitVec 64) : (immCode r x).length ≤ 4 := by
  have hk (c : Prop) [Decidable c] (i : A64) : (if c then [i] else []).length ≤ 1 := by
    split
    · exact Nat.le_refl 1
    · exact Nat.zero_le 1
  unfold immCode
  rw [List.length_append, List.length_append, List.length_append]
  exact Nat.add_le_add (Nat.add_le_add (Nat.add_le_add (Nat.le_refl 1) (hk _ _)) (hk _ _)) (hk _ _)

lemma length_fall (d : Decoded) : (fallCode d).length ≤ 6 := by
  unfold fallCode
  split
  · exact Nat.zero_le 6
  · rw [List.length_append]
    exact Nat.add_le_add (length_imm _ _) (Nat.le_refl 2)

/-- Words for which there is room are put. -/
lemma puts_fits {l : List A64} {b : Buf} (h : b.n + l.length ≤ b.max) : (puts l b).2 = { b with out := b.out ++ l } := by
  induction l generalizing b with
  | nil => exact congrArg (fun o => ({ b with out := o } : Buf)) (List.append_nil b.out).symm
  | cons i l ih =>
    rw [List.length_cons] at h
    have hlt : b.n < b.max := by omega
    show (puts l (put i b).2).2 = _
    rw [put_out hlt, ih]
    · exact congrArg (fun o => ({ b with out := o } : Buf)) (List.append_assoc ..)
    · rw [length_snoc]
      show b.n + 1 + l.length ≤ b.max
      omega

lemma emitExit_fits {d : Decoded} {b : Buf} (h : b.n + 9 ≤ b.max) :
    emitExit d b = (b.n + (fallCode d).length, { b with out := b.out ++ (fallCode d ++ faultExitCode) }) := by
  have hfall := length_fall d
  have hend : (faultExitCode).length = 3 := rfl
  have hfirst : (puts (fallCode d) b).2 = { b with out := b.out ++ fallCode d } := puts_fits (by omega)
  have hn : (puts (fallCode d) b).2.n = b.n + (fallCode d).length := by rw [hfirst, length_out]
  have hsecond : (puts faultExitCode (puts (fallCode d) b).2).2 =
      { b with out := b.out ++ (fallCode d ++ faultExitCode) } := by
    rw [puts_fits, hfirst, List.append_assoc]
    rw [hn, hend, hfirst]
    show b.n + (fallCode d).length + 3 ≤ b.max
    omega
  exact Prod.ext hn hsecond

lemma emitExit_bounded (d : Decoded) (b : Buf) : Bounded (emitExit d) b :=
  (puts_bounded _ b).bind ((Bounded.get Buf.n _).bind ((puts_bounded _ _).bind (.pure _ _)))

lemma shaped_faultExit : Shaped faultExitCode := by
  have hnil : Inside [] := fun i w hw => absurd hw (by rw [List.getElem?_nil]; exact nofun)
  exact (Shaped.leave hnil (by decide)).step rfl (by decide)

lemma shaped_end (d : Decoded) : Shaped (fallCode d ++ faultExitCode) := by
  unfold fallCode
  split
  · exact shaped_faultExit
  · rw [List.append_assoc]
    refine (Shaped.leave shaped_faultExit.inside (by decide)).append (Straight.plain (plain_imm rfl _)) ?_
    have hlen := length_imm x0 d.pc
    have hrest : (leaveCode ++ faultExitCode).length = 5 := rfl
    have hmax : maxBlock = 2048 := rfl
    omega

/-- A block that is not too long is well formed when its end is. -/
lemma shaped_block {ps : List Piece} {e : Nat} {last : List A64} (hkind : ∀ p ∈ ps, EmittedOf lk v check p)
    (hlinked : Linked ps) (hlast : Shaped last) (hexit : Leaves (last.drop e))
    (hshort : (withEnd e last ps).length ≤ maxBlock) : Shaped (withEnd e last ps) := by
  have hall : (withEnd e last ps).length ≤ maxBlock → Shaped (withEnd e last ps) := by
    refine hlinked.suffixes (C := fun us => (withEnd e last us).length ≤ maxBlock → Shaped (withEnd e last us))
      (fun _ => hlast) fun p us hin hrest hto hlen => ?_
    obtain ⟨ts, hts⟩ := hin
    obtain ⟨o, -, hp⟩ := hkind p (hts ▸ List.mem_append_right ts List.mem_cons_self)
    have hsize (us : List Piece) : (withEnd e last us).length = sizes us + last.length := by
      unfold withEnd
      rw [List.length_append, length_render]
    have hus : (withEnd e last us).length ≤ maxBlock := by
      rw [hsize] at hlen ⊢
      have hcons : sizes (p :: us) = p.size + sizes us := rfl
      omega
    refine shaped_piece hp (hrest hus) hexit hlen fun d hd => ?_
    obtain ⟨qs, rs, hps, hdisp, hrs⟩ := hto d hd
    refine ⟨qs, rs, hps, hdisp, hrs ?_⟩
    rw [hps, hsize, sizes_append] at hus
    rw [hsize]
    omega
  exact hall hshort

/-- The words of a block with all of its instructions. -/
def blockCode (d : Decoded) (b : Buf) : List A64 :=
  patchFix (emitExit d { b with max := maxBlock }).1 (emitExit d { b with max := maxBlock }).2.fix
    (emitExit d { b with max := maxBlock }).2.out

/-- When all instructions have been emitted, so can be the block's end. -/
lemma finished {d : Decoded} {at_ : BitVec 64} {b : Buf}
    (h : emitBody lk d.v rip (startBuf check) = ((d.v.length, at_), b)) :
    (emitExit d { b with max := maxBlock }).2.full = false ∧
      (∀ k ∈ (emitExit d { b with max := maxBlock }).2.fix, k < maxBlock) ∧
      ∃ ps, Fragment (EmittedOf lk d.v check) (4 * d.v.length) ps ∧
        sizes ps + 24 < maxBlock ∧
        blockCode d b = .push x30 :: withEnd (fallCode d).length (fallCode d ++ faultExitCode) ps := by
  obtain ⟨hfull, hn, ps, hps, hout, hfix⟩ := emitBody_grown h
  have hmax : maxBlock = 2048 := rfl
  have hroom : ({ b with max := maxBlock } : Buf).n + 9 ≤ maxBlock := by
    show b.n + 9 ≤ maxBlock
    omega
  have hlen : b.n = 1 + sizes ps := by
    rw [Buf.n, hout, List.length_append, length_raw]
    rfl
  unfold blockCode
  rw [emitExit_fits hroom]
  refine ⟨hfull, fun k hk => ?_, ps, hps, by omega, ?_⟩
  · have hlt : k < 1 + sizes ps := lt_of_mem_fixups (hfix ▸ hk)
    omega
  · show patchFix (b.n + (fallCode d).length) b.fix (b.out ++ (fallCode d ++ faultExitCode)) = _
    rw [hlen, hfix, hout]
    exact (patchFix_render (fallCode d).length ps [.push x30] _).trans (List.append_assoc ..)

/-- The whole is well formed. -/
lemma finished_shaped {d : Decoded} {at_ : BitVec 64} {b : Buf}
    (h : emitBody lk d.v rip (startBuf check) = ((d.v.length, at_), b)) : Shaped (blockCode d b) := by
  obtain ⟨-, -, ps, hps, hsmall, hcode⟩ := finished h
  have hexit : Leaves ((fallCode d ++ faultExitCode).drop (fallCode d).length) := by
    rw [List.drop_append_length]
    exact shaped_faultExit.leaves
  have hsize : (withEnd (fallCode d).length (fallCode d ++ faultExitCode) ps).length < maxBlock := by
    have hfall := length_fall d
    have hend : (faultExitCode).length = 3 := rfl
    unfold withEnd
    rw [List.length_append, List.length_append, length_render]
    omega
  rw [hcode]
  exact (shaped_block hps.kind hps.linked (shaped_end d) hexit (Nat.le_of_lt hsize)).step rfl hsize

end Block

/-- The loop ends, after turns none of which writes outside the buffer; the block's end fits; and in
the finished words every branch has been patched to go forward within the block, in its range, and
every path leaves the block. -/
theorem blocks_wellFormed (lk : Link) (check : Bool) (rip : BitVec 64) (d : Decoded) :
    let r := emitLoop lk check rip (d.v.length + 1) d
    let b := { r.1 with max := maxBlock }
    let e := emitExit r.2 b
    let code := patchFix e.1 e.2.fix e.2.out
    Turns lk check rip d r ∧
      (∀ v, ∃ l, Writes (emitBody lk v rip) (startBuf check) l ∧ ∀ k ∈ l, k < maxBlock) ∧
      (∃ l, Writes (emitExit r.2) b l ∧ ∀ k ∈ l, k < maxBlock) ∧ (∀ k ∈ e.2.fix, k < maxBlock) ∧
      e.2.full = false ∧ code.length ≤ maxBlock ∧ Inside code ∧ Leaves code := by
  intro r b e code
  have hturns : Turns lk check rip d r := emitLoop_turns _ d (Nat.lt_succ_self _)
  obtain ⟨u, at_, -, hbody⟩ := hturns.ends
  obtain ⟨hfull, hfix, -⟩ := finished hbody
  have hshaped : Shaped code := finished_shaped hbody
  refine ⟨hturns, fun v => ?_, ?_, hfix, hfull, hshaped.short, hshaped.inside, hshaped.leaves⟩
  · have hbounded : Bounded (emitBody lk v rip) (startBuf check) := emitBody_bounded
    obtain ⟨l, hl, hin⟩ := hbounded.writes (Nat.zero_le _)
    refine ⟨l, hl, fun k hk => Nat.lt_of_lt_of_le (hin k hk) ?_⟩
    show maxBlock - 24 ≤ maxBlock
    exact Nat.sub_le ..
  · obtain ⟨-, hn, -⟩ := emitBody_grown hbody
    exact (emitExit_bounded r.2 b).writes (Nat.le_trans hn (Nat.sub_le ..))

/-- What the loop leaves of the instructions at an address. -/
def emitted (lk : Link) (check : Bool) (c : Cpu) (rip : BitVec 64) : Buf × Decoded :=
  emitLoop lk check rip ((decodeBlock c maxInsns rip).v.length + 1) (decodeBlock c maxInsns rip)

lemma emitted_turns (lk : Link) (check : Bool) (c : Cpu) (rip : BitVec 64) :
    Turns lk check rip (decodeBlock c maxInsns rip) (emitted lk check c rip) := emitLoop_turns _ _ (Nat.lt_succ_self _)

/-- So a block of two instructions or more is not given up. -/
theorem compileBlock_eq (lk : Link) (check : Bool) (c : Cpu) (rip : BitVec 64) : compileBlock lk check c rip =
    if (emitted lk check c rip).2.v.length < 2 then none
    else some (blockCode (emitted lk check c rip).2 (emitted lk check c rip).1, (emitted lk check c rip).2.v) := by
  obtain ⟨u, at_, -, hbody⟩ := (emitted_turns lk check c rip).ends
  obtain ⟨hfull, -⟩ := finished hbody
  show (if (emitted lk check c rip).2.v.length < 2 then none else _) = _
  split
  · rfl
  · exact if_neg (Bool.eq_false_iff.mp hfull)

end Rashid.Proofs
