import Rashid.Addressing
import Rashid.Proofs.Cursor

/-!
# Up to the opcode

The loop at the head of `step` reads any number of prefixes. Where the byte it stops at leads to
an opcode that the interpreter knows, it stops where the encoding says the prefixes end, and the
cursor holds what the prefixes and REX say.
-/

namespace Rashid.Proofs

/-- The last prefix that selects among SSE instructions, 0 when there is none. -/
def lastMand (l : List (BitVec 8)) : BitVec 8 := (l.filter isMand).getLastD 0

/-! ### The prefix loop -/

def isPrefix (b : BitVec 8) : Bool := (prefixOf b).isSome

lemma isPrefix_iff : ∀ b : BitVec 8, isPrefix b = (isLegacyPrefix b && b != 0xF0) := by
  decide

/-- What the prefixes `l` make of a cursor in front of them, but for the segment and the address size. -/
def pastPrefixes (d : Dec) (l : List (BitVec 8)) (a32 : Bool) (seg : BitVec 64) : Dec :=
  { d with
    n := d.n + l.length
    opsize := if (0x66 : BitVec 8) ∈ l then 2 else d.opsize
    addr32 := a32
    segBase := seg
    mand := (l.filter isMand).getLastD d.mand }

/-- The segment's base behind the prefixes `l`, from `seg` in front of them. -/
def segmentAfter (fs gs seg : BitVec 64) (l : List (BitVec 8)) : BitVec 64 :=
  ((l.filter fun b => b == 0x64 || b == 0x65).map fun b => if b = 0x64 then fs else gs).getLastD seg

lemma segmentAfter_cons (fs gs seg : BitVec 64) (b : BitVec 8) (l : List (BitVec 8)) :
    segmentAfter fs gs (segmentAfter fs gs seg [b]) l = segmentAfter fs gs seg (b :: l) := by
  unfold segmentAfter
  cases hb : b == 0x64 || b == 0x65 with
  | true => simp only [List.filter_cons, hb, if_true, List.filter_nil, List.map_cons, List.map_nil, List.getLastD_cons,
      List.getLastD_nil]
  | false => simp only [List.filter_cons, hb, Bool.false_eq_true, if_false, List.filter_nil, List.map_nil,
      List.getLastD_nil]

lemma applyPrefix_past (d : Dec) (b : BitVec 8) (fs gs : BitVec 64) (x : Prefix) (h : prefixOf b = some x) :
    (applyPrefix d b fs gs x).skip 1 =
      pastPrefixes d [b] (d.addr32 || decide ((0x67 : BitVec 8) ∈ [b])) (segmentAfter fs gs d.segBase [b]) := by
  unfold prefixOf at h
  split_ifs at h with h66 h67 hrep hign hfs hgs
  · subst h66
    cases h
    simp [applyPrefix, pastPrefixes, segmentAfter, Dec.skip, isMand]
  · subst h67
    cases h
    simp [applyPrefix, pastPrefixes, segmentAfter, Dec.skip, isMand]
  · cases h
    rcases hrep with rfl | rfl <;> simp [applyPrefix, pastPrefixes, segmentAfter, Dec.skip, isMand]
  · cases h
    rcases hign with rfl | rfl | rfl | rfl <;> simp [applyPrefix, pastPrefixes, segmentAfter, Dec.skip, isMand]
  · subst hfs
    cases h
    simp [applyPrefix, pastPrefixes, segmentAfter, Dec.skip, isMand]
  · subst hgs
    cases h
    simp [applyPrefix, pastPrefixes, segmentAfter, Dec.skip, isMand]

lemma pastPrefixes_cons (d : Dec) (b : BitVec 8) (l : List (BitVec 8)) (a1 a2 : Bool) (s1 s2 : BitVec 64) :
    pastPrefixes (pastPrefixes d [b] a1 s1) l a2 s2 = pastPrefixes d (b :: l) a2 s2 := by
  have hlen : d.n + [b].length + l.length = d.n + (b :: l).length := by
    simp only [List.length_cons, List.length_nil]
    omega
  have hmand : (l.filter isMand).getLastD (([b].filter isMand).getLastD d.mand) =
      ((b :: l).filter isMand).getLastD d.mand := by
    cases hb : isMand b with
    | true => simp only [List.filter_cons, hb, if_true, List.filter_nil, List.getLastD_cons, List.getLastD_nil]
    | false => simp only [List.filter_cons, hb, Bool.false_eq_true, if_false, List.filter_nil, List.getLastD_nil]
  have hsize : (if (0x66 : BitVec 8) ∈ l then 2 else if (0x66 : BitVec 8) ∈ [b] then 2 else d.opsize) =
      if (0x66 : BitVec 8) ∈ b :: l then 2 else d.opsize := by
    by_cases hl : (0x66 : BitVec 8) ∈ l
    · rw [if_pos hl, if_pos (List.mem_cons_of_mem b hl)]
    · have hiff : (0x66 : BitVec 8) ∈ b :: l ↔ (0x66 : BitVec 8) ∈ [b] := by
        rw [List.mem_cons, List.mem_singleton]
        exact or_iff_left hl
      simp only [if_neg hl, hiff]
  simp only [pastPrefixes, hlen, hmand, hsize]

/-- The loop reads prefixes `l` up to a byte that is none, or up to its bound. -/
lemma prefixLoop_eval (c : Cpu) (fuel : Nat) (d : Dec) : ∃ k,
    prefixLoop fuel d c =
      (pastPrefixes d ((List.range' d.n k).map (codeOf c d.p0))
        (d.addr32 || decide ((0x67 : BitVec 8) ∈ (List.range' d.n k).map (codeOf c d.p0)))
        (segmentAfter c.fsBase c.gsBase d.segBase ((List.range' d.n k).map (codeOf c d.p0))), c) ∧
    (∀ i < k, isPrefix (codeOf c d.p0 (d.n + i)) = true) ∧
    (k = fuel ∨ k < fuel ∧ isPrefix (codeOf c d.p0 (d.n + k)) = false) := by
  have hnone (d : Dec) : d = pastPrefixes d [] (d.addr32 || decide ((0x67 : BitVec 8) ∈ ([] : List (BitVec 8))))
      (segmentAfter c.fsBase c.gsBase d.segBase []) := by
    simp [pastPrefixes, segmentAfter]
  induction fuel generalizing d with
  | zero => exact ⟨0, congrArg (·, c) (hnone d), fun i hi => absurd hi (by omega), .inl rfl⟩
  | succ fuel ih =>
    have hc : codeAt d 0 c = (codeOf c d.p0 d.n, c) := rfl
    cases hb : prefixOf (codeOf c d.p0 d.n) with
    | none =>
      refine ⟨0, ?_, fun i hi => absurd hi (by omega), .inr ⟨by omega, ?_⟩⟩
      · rw [prefixLoop, Prog.bind_eval hc, hb]
        exact congrArg (·, c) (hnone d)
      · rw [Nat.add_zero, isPrefix, hb]
        rfl
    | some x =>
      have happ := applyPrefix_past d _ c.fsBase c.gsBase x hb
      obtain ⟨k, heval, hall, hend⟩ := ih ((applyPrefix d (codeOf c d.p0 d.n) c.fsBase c.gsBase x).skip 1)
      rw [happ] at heval hall hend
      simp only [pastPrefixes, List.length_singleton] at hall hend
      refine ⟨k + 1, ?_, ?_, ?_⟩
      · rw [prefixLoop, Prog.bind_eval hc, hb]
        have hstep : (do
            let fs ← rdFs
            let gs ← rdGs
            prefixLoop fuel ((applyPrefix d (codeOf c d.p0 d.n) fs gs x).skip 1) : M Dec) c =
            prefixLoop fuel ((applyPrefix d (codeOf c d.p0 d.n) c.fsBase c.gsBase x).skip 1) c := rfl
        have hor (b : BitVec 8) (l : List (BitVec 8)) : (d.addr32 || decide ((0x67 : BitVec 8) ∈ [b]) ||
            decide ((0x67 : BitVec 8) ∈ l)) = (d.addr32 || decide ((0x67 : BitVec 8) ∈ b :: l)) := by
          rw [Bool.or_assoc, ← Bool.decide_or]
          simp only [List.mem_cons, List.not_mem_nil, or_false]
        rw [List.range'_succ, List.map_cons, ← segmentAfter_cons, ← hor, ← pastPrefixes_cons d _ _
          (d.addr32 || decide ((0x67 : BitVec 8) ∈ [codeOf c d.p0 d.n])) _
          (segmentAfter c.fsBase c.gsBase d.segBase [codeOf c d.p0 d.n])]
        rw [happ] at hstep
        exact hstep.trans heval
      · intro i hi
        cases i with
        | zero => rw [Nat.add_zero, isPrefix, hb]; rfl
        | succ i =>
          have := hall i (by omega)
          rwa [show d.n + 1 + i = d.n + (i + 1) by omega] at this
      · rcases hend with rfl | ⟨hlt, hno⟩
        · exact .inl rfl
        · refine .inr ⟨by omega, ?_⟩
          rwa [show d.n + 1 + k = d.n + (k + 1) by omega] at hno

lemma prefixEnd_eq (p : Code) (fuel n k : Nat) (hall : ∀ i < k, isLegacyPrefix (p (n + i)) = true)
    (hend : k = fuel ∨ k < fuel ∧ isLegacyPrefix (p (n + k)) = false) : prefixEnd p fuel n = n + k := by
  induction fuel generalizing n k with
  | zero =>
    have hk : k = 0 := by omega
    rw [hk]
    rfl
  | succ fuel ih =>
    cases k with
    | zero =>
      obtain ⟨-, hno⟩ := hend.resolve_left (by omega)
      rw [prefixEnd, ← Nat.add_zero n, hno]
      rfl
    | succ k =>
      have h0 := hall 0 (by omega)
      rw [Nat.add_zero] at h0
      have hshift (i : Nat) : n + 1 + i = n + (i + 1) := by omega
      rw [prefixEnd, if_pos h0, ih (n + 1) k, hshift]
      · intro i hi
        rw [hshift]
        exact hall (i + 1) (by omega)
      · rw [hshift]
        exact hend.imp (by omega) fun h => ⟨by omega, h.2⟩

/-! ### REX and the opcode -/

/-- The cursor behind `k` prefixes and a REX byte. -/
def atOpcode (rip : BitVec 64) (p : Code) (k : Nat) (a32 : Bool) (seg : BitVec 64) : Dec where
  p0 := rip
  rip0 := rip
  n := if isRex (p k) then k + 1 else k
  rex := if isRex (p k) then p k else 0
  hasRex := isRex (p k)
  opsize := if isRex (p k) && rexW (p k) then 8 else if (0x66 : BitVec 8) ∈ (List.range k).map p then 2 else 4
  addr32 := a32
  segBase := seg
  mand := lastMand ((List.range k).map p)

lemma prefixes_of_loop {c : Cpu} {d e : Dec} (h : prefixLoop addressCount d c = (e, c)) :
    prefixes d c = (if isRex (codeOf c e.p0 e.n) then
      { e with n := e.n + 1, rex := codeOf c e.p0 e.n, hasRex := true,
               opsize := if rexW (codeOf c e.p0 e.n) then 8 else e.opsize } else e, c) := by
  have hc : codeAt e 0 c = (codeOf c e.p0 e.n, c) := rfl
  unfold prefixes
  rw [Prog.bind_eval h, Prog.bind_eval hc]
  unfold isRex
  by_cases hx : codeOf c e.p0 e.n &&& 0xF0 = 0x40
  · rw [if_pos hx, if_pos (beq_iff_eq.mpr hx)]
    rfl
  · rw [if_neg hx, if_neg (fun h => hx (beq_iff_eq.mp h))]
    rfl

/-- The address-size prefix is among the prefixes `k` bytes long, and the base they leave. -/
def addrSizeOf (p : Code) (k : Nat) : Bool := decide ((0x67 : BitVec 8) ∈ (List.range k).map p)

def segmentOf (c : Cpu) (p : Code) (k : Nat) : BitVec 64 := segmentBase ((List.range k).map p) c.fsBase c.gsBase

lemma prefixes_eval (c : Cpu) (rip : BitVec 64) : ∃ k,
    prefixes (Dec.start rip) c =
      (atOpcode rip (codeOf c rip) k (addrSizeOf (codeOf c rip) k) (segmentOf c (codeOf c rip) k), c) ∧
    (∀ i < k, isPrefix (codeOf c rip i) = true) ∧
    (k = addressCount ∨ k < addressCount ∧ isPrefix (codeOf c rip k) = false) := by
  obtain ⟨k, heval, hall, hend⟩ := prefixLoop_eval c addressCount (Dec.start rip)
  have h0 (i : Nat) : (Dec.start rip).n + i = i := Nat.zero_add i
  simp only [h0] at hall hend
  refine ⟨k, ?_, hall, hend⟩
  have hl : (List.range' (Dec.start rip).n k).map (codeOf c (Dec.start rip).p0) = (List.range k).map (codeOf c rip) := by
    rw [List.range_eq_range']
    rfl
  have hn : (Dec.start rip).n + ((List.range k).map (codeOf c rip)).length = k := by
    rw [List.length_map, List.length_range, h0]
  rw [hl] at heval
  simp only [pastPrefixes, hn] at heval
  rw [prefixes_of_loop heval]
  change (if isRex (codeOf c rip k) = true then _ else _, c) = _
  unfold atOpcode addrSizeOf segmentOf
  have hstart : (Dec.start rip).addr32 = false := rfl
  rw [hstart, Bool.false_or]
  cases hx : isRex (codeOf c rip k) <;> rfl

/-- A cursor behind the opcode of `e`, which starts at `rip`. -/
structure Behind (rip : BitVec 64) (e : Encoding) (d : Dec) : Prop where
  p0 : d.p0 = rip
  rip0 : d.rip0 = rip
  n : d.n = e.tail
  rex : d.rex = e.rex
  opsize : d.opsize = e.opsize
  mand : d.mand = lastMand e.prefixes

lemma opClass_legacy : ∀ b : BitVec 8, isLegacyPrefix b = true → opClass b = .none := by
  simp only [opClass_eq]
  decide

lemma isRex_not_legacy : ∀ b : BitVec 8, isRex b = true → isLegacyPrefix b = false := by
  decide

/-- Where an opcode is reached that the interpreter knows, the encoding has the same prefixes. -/
lemma prefixEnd_atOpcode {p : Code} {k : Nat} {rip seg : BitVec 64} {a32 : Bool}
    (hall : ∀ i < k, isPrefix (p i) = true)
    (hend : k = addressCount ∨ k < addressCount ∧ isPrefix (p k) = false)
    (hop : opClass (p (atOpcode rip p k a32 seg).n) ≠ .none) : prefixEnd p addressSpaceSize 0 = k := by
  have hk : isLegacyPrefix (p k) = false := by
    by_cases hx : isRex (p k) = true
    · exact isRex_not_legacy _ hx
    · simp only [atOpcode, if_neg hx] at hop
      exact Bool.eq_false_iff.mpr fun h => hop (opClass_legacy _ h)
  rw [prefixEnd_eq p addressSpaceSize 0 k, Nat.zero_add]
  · intro i hi
    have h := hall i hi
    rw [isPrefix_iff, Bool.and_eq_true] at h
    rw [Nat.zero_add]
    exact h.1
  · rw [Nat.zero_add]
    exact hend.imp_right fun h => ⟨h.1, hk⟩

lemma encodingAt_opsize {p : Code} {k : Nat} (rip seg : BitVec 64) (a32 : Bool) (hk : prefixEnd p addressSpaceSize 0 = k) :
    (atOpcode rip p k a32 seg).opsize = (encodingAt p).opsize := by
  have h0 : rexW 0 = false := rfl
  simp only [atOpcode, encodingAt, hk, Encoding.opsize]
  cases isRex (p k) with
  | true => rfl
  | false => simp only [Bool.false_and, Bool.false_eq_true, if_false, h0]

lemma behind_oneByte {p : Code} {k : Nat} {rip seg : BitVec 64} {a32 : Bool}
    (hk : prefixEnd p addressSpaceSize 0 = k) (h0F : p (atOpcode rip p k a32 seg).n ≠ 0x0F) :
    Behind rip (encodingAt p) ((atOpcode rip p k a32 seg).skip 1) ∧ (encodingAt p).escaped = false ∧
      (encodingAt p).op = p (atOpcode rip p k a32 seg).n := by
  have hsz := encodingAt_opsize rip seg a32 hk
  have hne : ¬ p (if isRex (p k) then k + 1 else k) = 0x0F := h0F
  refine ⟨⟨rfl, rfl, ?_, ?_, hsz, ?_⟩, ?_, ?_⟩
  · simp only [encodingAt, hk, if_neg hne]
    rfl
  · simp only [encodingAt, hk]
    rfl
  · simp only [encodingAt, hk]
    rfl
  · simp only [encodingAt, hk]
    exact beq_eq_false_iff_ne.mpr h0F
  · simp only [encodingAt, hk, if_neg hne]
    rfl

lemma behind_escaped {p : Code} {k : Nat} {rip seg : BitVec 64} {a32 : Bool}
    (hk : prefixEnd p addressSpaceSize 0 = k) (h0F : p (atOpcode rip p k a32 seg).n = 0x0F) :
    Behind rip (encodingAt p) ((atOpcode rip p k a32 seg).skip 2) ∧ (encodingAt p).escaped = true ∧
      (encodingAt p).op = p ((atOpcode rip p k a32 seg).n + 1) := by
  have hsz := encodingAt_opsize rip seg a32 hk
  have heq : p (if isRex (p k) then k + 1 else k) = 0x0F := h0F
  refine ⟨⟨rfl, rfl, ?_, ?_, hsz, ?_⟩, ?_, ?_⟩
  · simp only [encodingAt, hk, if_pos heq]
    rfl
  · simp only [encodingAt, hk]
    rfl
  · simp only [encodingAt, hk]
    rfl
  · simp only [encodingAt, hk]
    exact beq_iff_eq.mpr h0F
  · simp only [encodingAt, hk, if_pos heq]
    rfl

/-! ### The instruction behind the opcode -/

/-- `stepTwoByte` once its opcode has been fetched. -/
def stepEscaped (fp : Fp) (op2 : BitVec 8) (d : Dec) : M (InsnOut × Dec) := do
  if op2 = 0x05 then
    wrRip (decRip d)
    pure (.syscall, d)
  else
    let (handled, d) ← sseExec fp d op2
    if handled then pure (.done, d)
    else
      let d ← stepTwoByteGp op2 d
      pure (.done, d)

/-- The cpu that an instruction finds: the address it is at has been noted. -/
def noted (c : Cpu) : Cpu := { c with curRip := c.rip }

lemma opClass_twoByte : ∀ op : BitVec 8, opClass op = .twoByte ↔ op = 0x0F := by
  simp only [opClass_eq]
  decide

/-- A cursor behind the opcode, with all that the prefixes have set. -/
structure Settled (c : Cpu) (e : Encoding) (d : Dec) : Prop extends Behind c.rip e d where
  hasRex : d.hasRex = (e.rex != 0)
  segBase : d.segBase = segmentBase e.prefixes c.fsBase c.gsBase
  addr32 : d.addr32 = decide ((0x67 : BitVec 8) ∈ e.prefixes)
  lock : (0xF0 : BitVec 8) ∉ e.prefixes

lemma settled_skip {c : Cpu} {p : Code} {k n : Nat} (hall : ∀ i < k, isPrefix (p i) = true)
    (hk : prefixEnd p addressSpaceSize 0 = k)
    (h : Behind c.rip (encodingAt p) ((atOpcode c.rip p k (addrSizeOf p k) (segmentOf c p k)).skip n)) :
    Settled c (encodingAt p) ((atOpcode c.rip p k (addrSizeOf p k) (segmentOf c p k)).skip n) := by
  have hrex : ∀ b : BitVec 8, isRex b = true → (b != 0) = true := by decide
  refine ⟨h, ?_, ?_, ?_, ?_⟩
  · simp only [encodingAt, hk, Dec.skip, atOpcode]
    cases hx : isRex (p k) with
    | true => exact (hrex _ hx).symm
    | false => rfl
  · simp only [encodingAt, hk]
    rfl
  · simp only [encodingAt, hk]
    rfl
  · intro hmem
    simp only [encodingAt, hk, List.mem_map, List.mem_range] at hmem
    obtain ⟨i, hi, hp⟩ := hmem
    have h := hall i hi
    rw [hp] at h
    exact absurd h (by decide)

lemma prefixEnd_ge (p : Code) (fuel n : Nat) : n ≤ prefixEnd p fuel n := by
  induction fuel generalizing n with
  | zero => exact Nat.le_refl n
  | succ fuel ih =>
    unfold prefixEnd
    split
    · exact Nat.le_trans (Nat.le_succ n) (ih (n + 1))
    · exact Nat.le_refl n

/-- Prefixes in front are read by the encoding too. -/
lemma prefixEnd_after (p : Code) (fuel n k : Nat) (hall : ∀ i < k, isLegacyPrefix (p (n + i)) = true) (hk : k ≤ fuel) :
    n + k ≤ prefixEnd p fuel n := by
  induction k generalizing fuel n with
  | zero => exact prefixEnd_ge p fuel n
  | succ k ih =>
    obtain ⟨fuel, rfl⟩ : ∃ f, fuel = f + 1 := ⟨fuel - 1, by omega⟩
    have h0 := hall 0 (by omega)
    rw [Nat.add_zero] at h0
    have hshift (i : Nat) : n + 1 + i = n + (i + 1) := by omega
    have h := ih fuel (n + 1) (fun i hi => hshift i ▸ hall (i + 1) (by omega)) (by omega)
    rw [prefixEnd, if_pos h0]
    omega

/-- An opcode that the interpreter does not know is none in the encoding either, or the loop has
stopped at `lock`. -/
lemma unknown_atOpcode {p : Code} {k : Nat} {rip seg : BitVec 64} {a32 : Bool}
    (hall : ∀ i < k, isPrefix (p i) = true) (hend : k = addressCount ∨ k < addressCount ∧ isPrefix (p k) = false)
    (hop : opClass (p (atOpcode rip p k a32 seg).n) = .none) :
    (encodingAt p).escaped = false ∧ opClass (encodingAt p).op = .none ∨ (0xF0 : BitVec 8) ∈ (encodingAt p).prefixes := by
  have hleg (i : Nat) (hi : i < k) : isLegacyPrefix (p (0 + i)) = true := by
    have h := hall i hi
    rw [isPrefix_iff, Bool.and_eq_true] at h
    rw [Nat.zero_add]
    exact h.1
  by_cases hk : k = addressCount ∨ k < addressCount ∧ isLegacyPrefix (p k) = false
  · left
    have hpe : prefixEnd p addressSpaceSize 0 = k := by
      rw [prefixEnd_eq p addressSpaceSize 0 k hleg, Nat.zero_add]
      rw [Nat.zero_add]
      exact hk
    have h0F : p (atOpcode rip p k a32 seg).n ≠ 0x0F := by
      intro h
      rw [h] at hop
      exact absurd hop (by decide)
    obtain ⟨-, hesc, hopc⟩ := @behind_oneByte _ k rip seg a32 hpe h0F
    exact ⟨hesc, hopc ▸ hop⟩
  · right
    rw [not_or, not_and, Bool.not_eq_false] at hk
    obtain ⟨hlt, hno⟩ := hend.resolve_left hk.1
    have hlegk := hk.2 hlt
    have hF0 : p k = 0xF0 := by
      rw [isPrefix_iff, hlegk, Bool.true_and, bne_eq_false_iff_eq] at hno
      exact hno
    have hge := prefixEnd_after p addressSpaceSize 0 (k + 1)
      (fun i hi => (Nat.lt_succ_iff_lt_or_eq.mp hi).elim (hleg i) fun h => by rw [h, Nat.zero_add]; exact hlegk) hlt
    show (0xF0 : BitVec 8) ∈ (List.range (prefixEnd p addressSpaceSize 0)).map p
    exact List.mem_map.mpr ⟨k, List.mem_range.mpr (by omega), hF0⟩

/-- What `stepInsn` runs, by the encoding in front of it, from a cursor that is settled. -/
inductive SettledDispatch (fp : Fp) (c : Cpu) (e : Encoding) : Prop where
  | unknown (hop : e.escaped = false ∧ opClass e.op = .none ∨ (0xF0 : BitVec 8) ∈ e.prefixes)
      (h : (stepInsn fp c).2 = (raise .unimplementedOpcode c.rip (noted c)).2)
  | oneByte (d : Dec) (hd : Settled c e d) (hesc : e.escaped = false) (h2 : opClass e.op ≠ .twoByte)
      (hop : opClass e.op ≠ .none)
      (h : stepInsn fp c =
        ((InsnOut.done, (stepOneByte e.op d (opClass e.op) (noted c)).1), (stepOneByte e.op d (opClass e.op) (noted c)).2))
  | escaped (d : Dec) (hd : Settled c e d) (hesc : e.escaped = true)
      (h : stepInsn fp c = stepEscaped fp e.op d (noted c))

/-- The opcode that `stepInsn` fetches, and the cursor behind it, by the encoding. -/
inductive Fetched (c : Cpu) (e : Encoding) (op : BitVec 8) (d : Dec) : Prop where
  | unknown (hno : e.escaped = false ∧ opClass e.op = .none ∨ (0xF0 : BitVec 8) ∈ e.prefixes) (hop : opClass op = .none)
      (hrip : d.rip0 = c.rip)
  | oneByte (hd : Settled c e d) (hesc : e.escaped = false) (h2 : opClass op ≠ .twoByte) (hop : opClass op ≠ .none)
      (heq : op = e.op)
  | escaped (d' : Dec) (hd : Settled c e d') (hesc : e.escaped = true) (h0F : op = 0x0F)
      (hfetch : fetch8 d (noted c) = ((e.op, d'), noted c))

theorem insn_fetched (c : Cpu) : ∃ d0 op d, prefixes (Dec.start c.rip) (noted c) = (d0, noted c) ∧
    fetch8 d0 (noted c) = ((op, d), noted c) ∧ Fetched c (encodingAt (codeOf c c.rip)) op d := by
  obtain ⟨k, heval, hall, hend⟩ := prefixes_eval (noted c) c.rip
  have hcode : codeOf (noted c) c.rip = codeOf c c.rip := rfl
  have hseg : segmentOf (noted c) = segmentOf c := rfl
  rw [hcode, hseg] at heval
  rw [hcode] at hall hend
  generalize ha : addrSizeOf (codeOf c c.rip) k = a32 at heval
  generalize hs : segmentOf c (codeOf c c.rip) k = seg at heval
  refine ⟨_, _, _, heval, fetch8_eval _ _, ?_⟩
  show Fetched c _ (codeOf c c.rip (atOpcode c.rip (codeOf c c.rip) k a32 seg).n) _
  by_cases hop : opClass (codeOf c c.rip (atOpcode c.rip (codeOf c c.rip) k a32 seg).n) = .none
  · exact .unknown (unknown_atOpcode hall hend hop) hop rfl
  have hk := prefixEnd_atOpcode hall hend hop
  by_cases h0F : codeOf c c.rip (atOpcode c.rip (codeOf c c.rip) k a32 seg).n = 0x0F
  · obtain ⟨hb, hesc, hopc⟩ := @behind_escaped _ k c.rip seg a32 hk h0F
    subst ha hs
    refine .escaped _ (settled_skip hall hk hb) hesc h0F ?_
    rw [hopc]
    rfl
  · obtain ⟨hb, hesc, hopc⟩ := @behind_oneByte _ k c.rip seg a32 hk h0F
    subst ha hs
    exact .oneByte (settled_skip hall hk hb) hesc (fun h => h0F ((opClass_twoByte _).mp h)) hop hopc.symm

/-- A one-byte opcode is executed from the cursor behind it. -/
lemma stepOp_oneByte (fp : Fp) {op : BitVec 8} (d : Dec) (c : Cpu) (h2 : opClass op ≠ .twoByte) :
    stepOp fp op d c = ((.done, (stepOneByte op d (opClass op) c).1), (stepOneByte op d (opClass op) c).2) := by
  rw [stepOp]
  generalize opClass op = cls at h2
  cases cls <;> first | rfl | exact absurd rfl h2

theorem stepInsn_settled (fp : Fp) (c : Cpu) : SettledDispatch fp c (encodingAt (codeOf c c.rip)) := by
  obtain ⟨d0, op, d, hpre, hfetch, hop⟩ := insn_fetched c
  have hrun : stepInsn fp c = stepOp fp op d (noted c) := by
    have h1 : stepInsn fp c =
        (prefixes (Dec.start c.rip) >>= fun d => fetch8 d >>= fun x => stepOp fp x.1 x.2) (noted c) :=
      rfl
    rw [h1, Prog.bind_eval hpre, Prog.bind_eval hfetch]
  cases hop with
  | unknown hno hnone hrip =>
    refine .unknown hno ?_
    rw [hrun, stepOp_oneByte fp d _ (by rw [hnone]; decide), hnone, ← hrip]
    rfl
  | escaped d' hd hesc h0F hfetch =>
    refine .escaped d' hd hesc ?_
    have h2 : stepOp fp 0x0F d (noted c) = (fetch8 d >>= fun x => stepEscaped fp x.1 x.2) (noted c) := rfl
    rw [hrun, h0F, h2, Prog.bind_eval hfetch]
  | oneByte hd hesc h2 hnone heq =>
    subst heq
    exact .oneByte d hd hesc h2 hnone (hrun.trans (stepOp_oneByte fp d _ h2))

/-- What `stepInsn` runs, by the encoding in front of it. -/
inductive Dispatch (fp : Fp) (c : Cpu) (e : Encoding) : Prop where
  | unknown (h : (stepInsn fp c).2.fault = some .unimplementedOpcode)
  | oneByte (d : Dec) (hd : Behind c.rip e d) (hesc : e.escaped = false) (h2 : opClass e.op ≠ .twoByte)
      (hop : opClass e.op ≠ .none)
      (h : stepInsn fp c =
        ((InsnOut.done, (stepOneByte e.op d (opClass e.op) (noted c)).1), (stepOneByte e.op d (opClass e.op) (noted c)).2))
  | escaped (d : Dec) (hd : Behind c.rip e d) (hesc : e.escaped = true)
      (h : stepInsn fp c = stepEscaped fp e.op d (noted c))

theorem stepInsn_dispatch (fp : Fp) (c : Cpu) : Dispatch fp c (encodingAt (codeOf c c.rip)) := by
  cases stepInsn_settled fp c with
  | unknown _ h => exact .unknown (congrArg Cpu.fault h)
  | oneByte d hd hesc h2 hop h => exact .oneByte d hd.toBehind hesc h2 hop h
  | escaped d hd hesc h => exact .escaped d hd.toBehind hesc h

end Rashid.Proofs
