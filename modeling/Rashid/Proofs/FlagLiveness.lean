import Rashid.InsnMeaning
import Rashid.Proofs.DecodersAgree
import Rashid.Proofs.StatusFlags
import Rashid.Proofs.StepPrims

/-!
# Flag liveness

A block may be run with every instruction computing only the flags that are wanted from it. The
relation that carries the proof is agreement of the two flags words on what is live.
-/

namespace Rashid

def Cpu.setFlags (c : Cpu) (f : BitVec 32) : Cpu := { c with flags := f }

/-- Carries an instruction out, but updates only the flags in `m` and leaves the others stale. -/
def Insn.execMasked (fp : Fp) (o : Insn) (m : BitVec 32) : M Unit := fun c =>
  let c' := (o.exec fp c).2
  ((), c'.setFlags ((c.flags &&& ~~~m) ||| (c'.flags &&& m)))

/-- An instruction that is certain to write flags writes those in its `fneed`. The others have
none to leave out: they write no flag, or may write none, and then a routine writes them all. -/
def Insn.execNeed (fp : Fp) (o : Insn) : M Unit :=
  if flagsWritten o = 0 then o.exec fp else o.execMasked fp o.fneed

section Lists

variable (run : Insn → M Unit)

/-- The state after each instruction of a list. -/
def statesAfter : List Insn → Cpu → List Cpu
  | [], _ => []
  | o :: v, c => (run o c).2 :: statesAfter v (run o c).2

/-- The state after the last one. -/
def finalState : List Insn → Cpu → Cpu
  | [], c => c
  | o :: v, c => finalState v (run o c).2

/-- What the condition of each `setcc` and `jcc` of a list comes to. -/
def outcomes : List Insn → Cpu → List Bool
  | [], _ => []
  | o :: v, c =>
    (if o.kind = .jcc ∨ o.kind = .setcc then [cond c.flags o.cc] else []) ++ outcomes v (run o c).2

end Lists

namespace Proofs

@[simp] lemma setFlags_setFlags (c : Cpu) (f g : BitVec 32) : (c.setFlags f).setFlags g = c.setFlags g := rfl
@[simp] lemma setFlags_flags (c : Cpu) (f : BitVec 32) : (c.setFlags f).flags = f := rfl

/-! ### Programs that leave the flags alone -/

/-- Neither what it returns nor what it does to the rest depends on the flags, which it keeps. -/
def FlagFree {α : Type} (p : M α) : Prop := ∀ c f, p (c.setFlags f) = ((p c).1, (p c).2.setFlags f)

lemma memfault_flagFree {α : Type} (a : BitVec 64) (what : As → Fault) (x : α) :
    FlagFree fun c => (x, (memfault a (what c.as) c).2) := by
  intro c f
  simp only [memfault, Cpu.setFlags, Prog.modify_apply]
  split <;> rfl

/-- An access that is checked first. -/
lemma checked_flagFree {α : Type} {q : M α} (ok : As → Bool) (p : M α) (a : BitVec 64) (what : As → Fault) (x : α)
    (hq : q = fun c => if ok c.as then p c else (x, (memfault a (what c.as) c).2)) (hp : FlagFree p) : FlagFree q := by
  subst hq
  intro c f
  have has : (c.setFlags f).as = c.as := rfl
  have hm := memfault_flagFree a what x c f
  cases hok : ok c.as with
  | true => simp only [has, hok, if_true, hp c f]
  | false => simpa only [has, hok, Bool.false_eq_true, if_false] using hm

lemma ld_flagFree (a : BitVec 64) (n : Nat) : FlagFree (ld a n) :=
  checked_flagFree (accessOk · a (BitVec.ofNat 64 n) rsdProtR) (Prog.get fun c => loadLE c.mem a n) a
    (why · a (BitVec.ofNat 64 n)) 0 rfl fun _ _ => rfl

lemma st_flagFree (a v : BitVec 64) (n : Nat) : FlagFree (st a v n) :=
  checked_flagFree (accessOk · a (BitVec.ofNat 64 n) rsdProtW) (do logWrite a v n; pokeMem a v n) a
    (why · a (BitVec.ofNat 64 n)) () rfl fun _ _ => rfl

lemma ld128_flagFree (a : BitVec 64) : FlagFree (ld128 a) :=
  checked_flagFree (accessOk · a 16 rsdProtR) (Prog.get fun c => ⟨loadLE c.mem a 8, loadLE c.mem (a + 8) 8⟩) a
    (why · a 16) ⟨0, 0⟩ rfl fun _ _ => rfl

lemma st128_flagFree (a : BitVec 64) (v : Xmm) : FlagFree (st128 a v) :=
  checked_flagFree (accessOk · a 16 rsdProtW)
    (do
      logWrite a v.lo 8
      logWrite (a + 8) v.hi 8
      Prog.modify fun c => { c with mem := storeLE (storeLE c.mem a v.lo 8) (a + 8) v.hi 8 })
    a (why · a 16) () rfl fun _ _ => rfl

instance : HasWork FlagFree where
  rdR _ := fun _ _ => rfl
  wrR _ _ := fun _ _ => rfl
  rdX _ := fun _ _ => rfl
  wrX _ _ := fun _ _ => rfl
  rdGs := fun _ _ => rfl
  rdFs := fun _ _ => rfl
  rdCode _ := fun _ _ => rfl
  raise _ _ := fun _ _ => rfl
  ld := ld_flagFree
  st := st_flagFree
  ld128 := ld128_flagFree
  st128 := st128_flagFree

instance (v : BitVec 64) : IsBuilt FlagFree (wrRip v) := ⟨.prim fun _ _ => rfl⟩
instance (o : Insn) : IsBuilt FlagFree o.memOp := ⟨.prim fun _ _ => rfl⟩
instance (o : Insn) (reg : Fin 16) : IsBuilt FlagFree (o.rmOp reg) := ⟨.prim fun _ _ => rfl⟩
instance (o : Insn) : IsBuilt FlagFree (Prog.get fun c : Cpu => o.addr c.r) := ⟨.prim fun _ _ => rfl⟩

lemma flagFree_of_built {α : Type} {p : M α} (hp : Built FlagFree p) : FlagFree p := by
  induction hp with
  | pure a => exact fun _ _ => rfl
  | prim h => exact h
  | bind _ _ ihx ihf =>
    intro c f
    rw [Prog.bind_apply, ihx, ihf, Prog.bind_apply]

lemma flagFree {α : Type} (p : M α) [h : IsBuilt FlagFree p] : FlagFree p := flagFree_of_built h.built

/-! ### Programs that overwrite flags -/

/-- From `c`, the flags in `w` are overwritten without being looked at, and the others are kept. -/
def OverwritesAt {α : Type} (w : BitVec 32) (p : M α) (c : Cpu) : Prop :=
  ∃ (a : α) (c' : Cpu) (x : BitVec 32), x &&& ~~~w = 0 ∧ ∀ f, p (c.setFlags f) = (a, c'.setFlags ((f &&& ~~~w) ||| x))

lemma and_not_zero (f : BitVec 32) : f &&& ~~~0 = f := BitVec.and_allOnes

lemma overwritesAt_of_free {α : Type} {p : M α} (h : FlagFree p) (c : Cpu) : OverwritesAt 0 p c := by
  refine ⟨(p c).1, (p c).2, 0, by decide, fun f => ?_⟩
  have hf : (f &&& ~~~0) ||| 0 = f := BitVec.or_zero.trans (and_not_zero f)
  rw [hf]
  exact h c f

section Sequencing

variable {α β : Type} {x : M α} {g : α → M β} {w : BitVec 32}

lemma overwritesAt_bind_left (hx : FlagFree x) {c : Cpu} (hg : OverwritesAt w (g (x c).1) (x c).2) :
    OverwritesAt w (x >>= g) c := by
  obtain ⟨b, c', v, hv, hf⟩ := hg
  refine ⟨b, c', v, hv, fun f => ?_⟩
  rw [Prog.bind_apply, hx c f]
  exact hf f

lemma overwritesAt_bind_right {c : Cpu} (hx : OverwritesAt w x c) (hg : ∀ a, FlagFree (g a)) :
    OverwritesAt w (x >>= g) c := by
  obtain ⟨a, c', v, hv, hf⟩ := hx
  refine ⟨(g a c').1, (g a c').2, v, hv, fun f => ?_⟩
  rw [Prog.bind_eval (hf f), hg a c']

end Sequencing

lemma modFlags_overwrites {w x : BitVec 32} {g : BitVec 32 → BitVec 32} (hx : x &&& ~~~w = 0)
    (hg : ∀ f, g f = (f &&& ~~~w) ||| x) (c : Cpu) : OverwritesAt w (modFlags g) c := by
  refine ⟨(), c, x, hx, fun f => ?_⟩
  rw [← hg f]
  rfl

lemma flagsAdd_overwrites (a b r : BitVec 64) (sz : Nat) (c : Cpu) :
    OverwritesAt flAll (modFlags fun f => flagsAdd f a b r sz) c :=
  modFlags_overwrites (word_not_all _) (fun f => flagsArith_eq f _ _ _ sz _ _) c

lemma flagsSub_overwrites (a b r : BitVec 64) (sz : Nat) (c : Cpu) :
    OverwritesAt flAll (modFlags fun f => flagsSub f a b r sz) c :=
  modFlags_overwrites (word_not_all _) (fun f => flagsArith_eq f _ _ _ sz _ _) c

lemma flagsLogic_overwrites (r : BitVec 64) (sz : Nat) (c : Cpu) :
    OverwritesAt flLogic (modFlags fun f => flagsLogic f r sz) c :=
  modFlags_overwrites (word_not_logic ⟨_, _, _, _, _, false⟩) (fun f => flagsLogic_eq f r sz) c

lemma keepCarry_overwrites {g : BitVec 32 → BitVec 32} {x : Status} (hg : ∀ f, g f = (f &&& ~~~flAll) ||| x.word)
    (c : Cpu) : OverwritesAt flInc (modFlags fun f => (g f &&& ~~~fCF) ||| (f &&& fCF)) c := by
  refine modFlags_overwrites (word_not_inc x) (fun f => ?_) c
  rw [hg, keepCarry_eq]

lemma flagsInc_overwrites (a r : BitVec 64) (sz : Nat) (c : Cpu) :
    OverwritesAt flInc (modFlags fun f => flagsInc f a r sz) c :=
  keepCarry_overwrites (fun f => flagsArith_eq f _ _ _ sz _ _) c

lemma flagsDec_overwrites (a r : BitVec 64) (sz : Nat) (c : Cpu) :
    OverwritesAt flInc (modFlags fun f => flagsDec f a r sz) c :=
  keepCarry_overwrites (fun f => flagsArith_eq f _ _ _ sz _ _) c

lemma shift_overwrites (a cnt : BitVec 64) (sz : Nat) (ext : BitVec 8) (g : BitVec 64 → M Unit)
    (hg : ∀ r, FlagFree (g r)) (c : Cpu) :
    OverwritesAt flLogic (do
      let f ← rdFlags
      wrFlags (rsdIShift f a cnt sz ext).2
      g (rsdIShift f a cnt sz ext).1) c := by
  obtain ⟨res, cf, of, h⟩ := rsdIShift_eq a sz cnt ext
  refine ⟨(g res c).1, (g res c).2, _,
    word_not_logic ⟨cf, zeroOf res sz, signOf res sz, of, parityOf res sz, false⟩, fun f => ?_⟩
  rw [← hg res c]
  simp only [Prog.bind_apply, rdFlags, wrFlags, Prog.get_apply, Prog.modify_apply, setFlags_flags, h]
  rfl

lemma opExec_overwrites (op : Op) (a b : BitVec 64) (sz : Nat) (write : BitVec 64 → M Unit)
    (hw : ∀ r, FlagFree (write r)) (c : Cpu) : OverwritesAt op.flagsWritten (op.exec a b sz write) c := by
  cases op
  case add => exact overwritesAt_bind_right (flagsAdd_overwrites ..) fun _ => hw _
  case sub => exact overwritesAt_bind_right (flagsSub_overwrites ..) fun _ => hw _
  case cmp => exact flagsSub_overwrites ..
  case test => exact flagsLogic_overwrites ..
  case mov => exact overwritesAt_of_free (hw _) c
  case inc => exact overwritesAt_bind_right (flagsInc_overwrites ..) fun _ => hw _
  case dec => exact overwritesAt_bind_right (flagsDec_overwrites ..) fun _ => hw _
  all_goals exact overwritesAt_bind_right (flagsLogic_overwrites ..) fun _ => hw _

/-! ### Instructions -/

section Instructions

variable (fp : Fp) (o : Insn) (c : Cpu)

/-- Some of the six flags are overwritten, and all of `w` where it is not empty. -/
def Overwrites (w : BitVec 32) (p : M Unit) : Prop :=
  ∃ w', w' &&& ~~~flAll = 0 ∧ (w ≠ 0 → w' = w) ∧ OverwritesAt w' p c

lemma flagsWritten_all : flagsWritten o &&& ~~~flAll = 0 := by
  simp only [flagsWritten]
  cases o.kind <;> simp only <;> try decide
  case shift => split <;> decide
  all_goals cases o.op <;> decide

lemma overwrites_of_free (p : M Unit) [h : IsBuilt FlagFree p] : Overwrites c 0 p :=
  ⟨0, by decide, fun h => absurd rfl h, overwritesAt_of_free (flagFree_of_built h.built) c⟩

lemma overwrites_bind {α : Type} {w : BitVec 32} {x : M α} {g : α → M Unit} (hx : FlagFree x)
    (hg : Overwrites (x c).2 w (g (x c).1)) : Overwrites c w (x >>= g) := by
  obtain ⟨w', hall, hw, h⟩ := hg
  exact ⟨w', hall, hw, overwritesAt_bind_left hx h⟩

lemma opExec_written (op : Op) : op.flagsWritten &&& ~~~flAll = 0 := by
  cases op <;> decide

lemma row_overwrites (dst src : Opnd) : Overwrites c o.op.flagsWritten (o.execRow dst src) := by
  refine overwrites_bind _ (flagFree _) (overwrites_bind _ (flagFree _) (overwrites_bind _ (flagFree _) ?_))
  exact ⟨_, opExec_written o.op, fun _ => rfl, opExec_overwrites _ _ _ _ _ (fun r => flagFree _) _⟩

lemma imm_overwrites (dst : Opnd) : Overwrites c o.op.flagsWritten (o.execImm dst) := by
  refine overwrites_bind _ (flagFree _) ?_
  by_cases hop : o.op = .mov
  · rw [if_pos hop, hop]
    exact overwrites_of_free _ _
  · rw [if_neg hop]
    refine overwrites_bind _ (flagFree _) ?_
    exact ⟨_, opExec_written o.op, fun _ => rfl, opExec_overwrites _ _ _ _ _ (fun r => flagFree _) _⟩

/-- A masked count of zero writes nothing. The compiler is certain of a count it can read. -/
lemma shift_written (hk : o.kind = .shift) (dst : Opnd) : Overwrites c (flagsWritten o) (o.execShift dst) := by
  refine overwrites_bind _ (flagFree _) (overwrites_bind _ (flagFree _) ?_)
  by_cases hcnt : (if o.byCl then (rdR rcx c).1 &&& 0xff else o.imm) &&& countMask o.size = 0
  · have hw : flagsWritten o = 0 := by
      simp only [flagsWritten, hk]
      refine if_pos ?_
      by_cases hcl : o.byCl = true
      · exact .inl hcl
      · rw [if_neg hcl] at hcnt
        exact .inr hcnt
    rw [hw, if_pos hcnt]
    exact overwrites_of_free _ _
  · rw [if_neg hcnt]
    refine overwrites_bind _ (flagFree _) ⟨flLogic, by decide, fun hw => ?_,
      shift_overwrites _ _ _ _ (fun r => wr dst r o.size o.hasRex) (fun r => flagFree _) _⟩
    simp only [flagsWritten, hk] at hw ⊢
    split at hw
    · exact absurd rfl hw
    · rw [if_neg ‹_›]

lemma imul_overwrites (rm : Opnd) : Overwrites c flLogic (o.execImul rm) := by
  refine overwrites_bind _ (flagFree _) (overwrites_bind _ (flagFree _) (overwrites_bind _ (flagFree _)
    (overwrites_bind _ (flagFree _) ?_)))
  exact ⟨_, by decide, fun _ => rfl, flagsLogic_overwrites ..⟩

lemma comisFlags_overwrites (a b : BitVec 64) : Overwrites c 0 (modFlags fun f => comis fp f a b) := by
  refine ⟨flAll, by decide, fun h => absurd rfl h, modFlags_overwrites ?_ (fun f => rfl) c⟩
  split
  · decide
  · split
    · decide
    · split <;> decide

lemma comis_overwrites (mand : BitVec 8) (reg : Fin 16) (rm : Opnd) :
    Overwrites c 0 (sseComisExec fp mand reg rm) := by
  unfold sseComisExec
  split
  · exact overwrites_bind _ (flagFree _) (overwrites_bind _ (flagFree _) (comisFlags_overwrites ..))
  · exact overwrites_bind _ (flagFree _) (overwrites_bind _ (flagFree _) (comisFlags_overwrites ..))

lemma sse_overwrites (rm : Opnd) : Overwrites c 0 (o.execSse fp rm) := by
  refine overwrites_bind _ (flagFree _) ?_
  simp only [sseBody]
  cases sseClass o.op2
  case comis => exact comis_overwrites ..
  all_goals exact overwrites_of_free _ _

/-- What an instruction that reads no flag does to them. -/
lemma exec_overwrites (hcc : ¬ (o.kind = .jcc ∨ o.kind = .setcc)) : Overwrites c (flagsWritten o) (o.exec fp) := by
  have hshift := shift_written o
  simp only [Insn.exec]
  cases hk : o.kind
  case jcc => exact absurd (.inl hk) hcc
  case setcc => exact absurd (.inr hk) hcc
  case shift => exact overwrites_bind _ (flagFree _) (hshift _ hk _)
  all_goals simp only [flagsWritten, hk]
  case rr => exact row_overwrites ..
  case rm => exact overwrites_bind _ (flagFree _) (row_overwrites ..)
  case mr => exact overwrites_bind _ (flagFree _) (row_overwrites ..)
  case ri => exact imm_overwrites ..
  case mi => exact overwrites_bind _ (flagFree _) (imm_overwrites ..)
  case imul => exact overwrites_bind _ (flagFree _) (imul_overwrites ..)
  case sse => exact overwrites_bind _ (flagFree _) (sse_overwrites ..)
  all_goals exact overwrites_of_free _ _

end Instructions

/-! ### Conditions -/

lemma and_twoPow_ne_zero (f : BitVec 32) {g : BitVec 32} {k : Nat} (hk : k < 32) (hg : g = BitVec.twoPow 32 k) :
    (f &&& g != 0) = f.getLsbD k := by
  rw [hg, BitVec.and_twoPow]
  cases f.getLsbD k with
  | false => rfl
  | true =>
    have hne : BitVec.twoPow 32 k ≠ 0 := fun h => by
      have hb := congrArg (fun z => z.getLsbD k) h
      simp [hk] at hb
    simpa using hne

/-- A condition looks at no flag that `cc_reads` leaves out. -/
lemma cond_congr {f g : BitVec 32} {cc : BitVec 8} (hcc : cc < 16)
    (h : ∀ i, (ccReads cc).getLsbD i = true → f.getLsbD i = g.getLsbD i) : cond f cc = cond g cc := by
  have hC (x : BitVec 32) : (x &&& fCF != 0) = x.getLsbD 0 := and_twoPow_ne_zero x (by decide) rfl
  have hP (x : BitVec 32) : (x &&& fPF != 0) = x.getLsbD 2 := and_twoPow_ne_zero x (by decide) rfl
  have hZ (x : BitVec 32) : (x &&& fZF != 0) = x.getLsbD 6 := and_twoPow_ne_zero x (by decide) rfl
  have hS (x : BitVec 32) : (x &&& fSF != 0) = x.getLsbD 7 := and_twoPow_ne_zero x (by decide) rfl
  have hO (x : BitVec 32) : (x &&& fOF != 0) = x.getLsbD 11 := and_twoPow_ne_zero x (by decide) rfl
  have hpair : ∀ x : BitVec 8, x < 16 → x >>> 1 = 0 ∨ x >>> 1 = 1 ∨ x >>> 1 = 2 ∨ x >>> 1 = 3 ∨ x >>> 1 = 4 ∨
      x >>> 1 = 5 ∨ x >>> 1 = 6 ∨ x >>> 1 = 7 := by decide
  have heven : condEven f (cc >>> 1) = condEven g (cc >>> 1) := by
    simp only [condEven, hC, hP, hZ, hS, hO]
    rcases hpair cc hcc with hp | hp | hp | hp | hp | hp | hp | hp <;> simp only [ccReads, hp] at h ⊢
    · exact h 11 (by decide)
    · exact h 0 (by decide)
    · exact h 6 (by decide)
    · exact congrArg₂ or (h 0 (by decide)) (h 6 (by decide))
    · exact h 7 (by decide)
    · exact h 2 (by decide)
    · exact congrArg₂ bne (h 7 (by decide)) (h 11 (by decide))
    · exact congrArg₂ or (h 6 (by decide)) (congrArg₂ bne (h 7 (by decide)) (h 11 (by decide)))
  rw [cond, cond, heven]

lemma and_15_lt : ∀ op : BitVec 8, op &&& 0xF < 16 := by decide

lemma withRm_cc (p : Code) (n : Nat) (rex : BitVec 8) {o : Insn} {g : Fin 16 → Insn} (ho : o.cc < 16)
    (hg : ∀ i, (g i).cc < 16) : (withRm p n rex o g).2.cc < 16 := by
  simp only [withRm]
  split
  · exact hg _
  · exact ho

section Decoded

variable {p : Code} {n : Nat} {rex op mand : BitVec 8} {o : Insn} {r : Nat × Insn}

lemma decTwoByte_cc (ho : o.cc < 16) (h : decTwoByte p n rex mand o = some r) : r.2.cc < 16 := by
  simp only [decTwoByte] at h
  cases hj : jitTwo (p n) <;> simp only [hj] at h
  case sse =>
    simp only [decodeSse] at h
    repeat' split at h
    all_goals cases h
    all_goals exact withRm_cc _ _ _ ho fun _ => ho
  all_goals split at h
  all_goals cases h
  case jcc => exact and_15_lt _
  case setcc => exact withRm_cc _ _ _ (and_15_lt _) fun _ => and_15_lt _
  all_goals exact withRm_cc _ _ _ ho fun _ => ho

lemma decOp_cc (ho : o.cc < 16) (h : decOp p n rex mand op o = some r) : r.2.cc < 16 := by
  simp only [decOp] at h
  cases hj : jitClass op <;> simp only [hj] at h
  case twoByte => exact decTwoByte_cc ho h
  case jcc8 =>
    cases h
    exact and_15_lt _
  all_goals try simp only [decAluRow, decGrp1, decEax, decMovRegImm8, decMovRegImm, decShift, decImulImm, decLea,
    decPushPop, decGrp5] at h
  all_goals repeat' split at h
  all_goals cases h
  all_goals first | exact ho | exact withRm_cc _ _ _ ho fun _ => ho

lemma decode_cc {rip : BitVec 64} (h : decode p rip = some o) : o.cc < 16 := by
  obtain ⟨mand, n, hr, rex, k, n', x, -, -, -, -, -, hdec, rfl⟩ := decode_some h
  exact decOp_cc (o := insnAt rex hr) (show (0 : BitVec 8) < 16 by decide) hdec

end Decoded

/-! ### The simulation -/

/-- The two flags words agree on what is live and outside the status flags. -/
def Agree (live f g : BitVec 32) : Prop :=
  ∀ i, (live ||| ~~~flAll).getLsbD i = true → f.getLsbD i = g.getLsbD i

lemma agree_all {f g : BitVec 32} (h : Agree flAll f g) : f = g := by
  apply BitVec.eq_of_getLsbD_eq
  intro i hi
  refine h i ?_
  rw [BitVec.getLsbD_or, BitVec.getLsbD_not]
  simp [hi]

lemma agree_mono {live live' f g : BitVec 32} (hl : ∀ i, live'.getLsbD i = true → live.getLsbD i = true)
    (h : Agree live f g) : Agree live' f g := by
  intro i hi
  refine h i ?_
  rw [BitVec.getLsbD_or, Bool.or_eq_true] at hi ⊢
  exact hi.imp_left (hl i)

lemma agree_of_not_written {live w f g : BitVec 32} (h : Agree (live &&& ~~~w) f g) {i : Nat}
    (hi : (live ||| ~~~flAll).getLsbD i = true) (hw : w.getLsbD i = false) : f.getLsbD i = g.getLsbD i := by
  have hi' : i < 32 := BitVec.lt_of_getLsbD hi
  refine h i ?_
  simp only [BitVec.getLsbD_or, BitVec.getLsbD_and, BitVec.getLsbD_not, hi', hw, decide_true, Bool.true_and,
    Bool.not_false, Bool.and_true] at hi ⊢
  exact hi

/-- Both sides overwrite `w`, with the same values. -/
lemma agree_overwrite {live w x f g : BitVec 32} (h : Agree (live &&& ~~~w) f g) :
    Agree live ((f &&& ~~~w) ||| x) ((g &&& ~~~w) ||| x) := by
  intro i hi
  simp only [BitVec.getLsbD_or, BitVec.getLsbD_and, BitVec.getLsbD_not]
  cases hw : w.getLsbD i with
  | true => simp only [Bool.not_true, Bool.and_false, Bool.false_or]
  | false => rw [agree_of_not_written h hi hw]

/-- One side leaves stale the flags of `w` that are not live. -/
lemma agree_stale {live w x f g : BitVec 32} (hall : w &&& ~~~flAll = 0) (hx : x &&& ~~~w = 0)
    (h : Agree (live &&& ~~~w) f g) :
    Agree live ((f &&& ~~~(w &&& live)) ||| (((f &&& ~~~w) ||| x) &&& (w &&& live))) ((g &&& ~~~w) ||| x) := by
  intro i hi
  have hi' : i < 32 := BitVec.lt_of_getLsbD hi
  cases hw : w.getLsbD i with
  | true =>
    have hlive : live.getLsbD i = true := by
      simpa only [BitVec.getLsbD_or, BitVec.getLsbD_not, written_of_need hall hw, hi', decide_true, Bool.not_true,
        Bool.and_false, Bool.or_false] using hi
    simp only [BitVec.getLsbD_or, BitVec.getLsbD_and, BitVec.getLsbD_not, hw, hlive, Bool.not_true, Bool.and_false,
      Bool.false_or, Bool.and_true]
  | false =>
    have hxi : x.getLsbD i = false := by
      cases hb : x.getLsbD i with
      | false => rfl
      | true => rw [← hw, written_of_need hx hb]
    simp only [BitVec.getLsbD_or, BitVec.getLsbD_and, BitVec.getLsbD_not, hw, hxi, hi', decide_true, Bool.not_false,
      Bool.false_and, Bool.and_false, Bool.or_false, Bool.and_true]
    exact agree_of_not_written h hi hw

/-- An instruction with a condition looks at the flags for that alone. -/
lemma exec_cond (fp : Fp) {o : Insn} (hk : o.kind = .jcc ∨ o.kind = .setcc) :
    ∃ q : Bool → M Unit, (∀ b, FlagFree (q b)) ∧ ∀ c, o.exec fp c = q (cond c.flags o.cc) c := by
  rcases hk with hk | hk
  · refine ⟨fun b => wrRip (if b then o.target else o.next), fun b => flagFree _, fun c => ?_⟩
    simp only [Insn.exec, hk]
    rfl
  · refine ⟨fun b => (do
      let rm ← o.rmOp o.reg
      wrRip o.next
      wr rm (if b then 1 else 0) 1 o.hasRex), fun b => flagFree _, fun c => ?_⟩
    simp only [Insn.exec, hk]
    rfl

lemma flagsWritten_cond {o : Insn} (hk : o.kind = .jcc ∨ o.kind = .setcc) : flagsWritten o = 0 := by
  rcases hk with hk | hk <;> simp only [flagsWritten, hk]

lemma live_of_agree {live r f g : BitVec 32} (h : Agree (live ||| r) f g) : Agree live f g := by
  refine agree_mono (fun i hi => ?_) h
  rw [BitVec.getLsbD_or, hi, Bool.true_or]

/-- The condition of an instruction comes out the same. -/
lemma cond_agree {o : Insn} (hcc : o.cc < 16) (hk : o.kind = .jcc ∨ o.kind = .setcc) {live f g : BitVec 32}
    (h : Agree (live ||| flagsRead o) f g) : cond f o.cc = cond g o.cc := by
  refine cond_congr hcc fun i hi => h i ?_
  rw [flagsRead, if_pos hk, BitVec.getLsbD_or, BitVec.getLsbD_or, hi, Bool.or_true, Bool.true_or]

/-- One instruction: the two runs stay the same but for the flags, which agree on what is live
behind it. -/
lemma exec_agree (fp : Fp) {o : Insn} (hcc : o.cc < 16) (c : Cpu) {live f g : BitVec 32}
    (h : Agree ((live &&& ~~~flagsWritten o) ||| flagsRead o) f g) :
    ∃ c' f' g', ({ o with fneed := flagsWritten o &&& live }.execNeed fp (c.setFlags f)).2 = Cpu.setFlags c' f' ∧
      (o.exec fp (c.setFlags g)).2 = Cpu.setFlags c' g' ∧ Agree live f' g' := by
  have hneed : { o with fneed := flagsWritten o &&& live }.execNeed fp =
      if flagsWritten o = 0 then o.exec fp else o.execMasked fp (flagsWritten o &&& live) := rfl
  have hlive := live_of_agree h
  rw [hneed]
  by_cases hk : o.kind = .jcc ∨ o.kind = .setcc
  · obtain ⟨q, hq, hexec⟩ := exec_cond fp hk
    rw [flagsWritten_cond hk, and_not_zero] at hlive
    rw [flagsWritten_cond hk]
    refine ⟨(q (cond f o.cc) c).2, f, g, ?_, ?_, hlive⟩
    · rw [if_pos rfl, hexec]
      exact congrArg Prod.snd (hq _ c f)
    · rw [hexec, setFlags_flags, ← cond_agree hcc hk h]
      exact congrArg Prod.snd (hq _ c g)
  · obtain ⟨w, hall, hw, a, c', x, hx, hexec⟩ := exec_overwrites fp o c hk
    by_cases hz : flagsWritten o = 0
    · rw [hz, and_not_zero] at hlive
      rw [if_pos hz]
      refine ⟨c', _, _, congrArg Prod.snd (hexec f), congrArg Prod.snd (hexec g), agree_overwrite ?_⟩
      refine agree_mono (fun i hi => ?_) hlive
      rw [BitVec.getLsbD_and, Bool.and_eq_true] at hi
      exact hi.1
    · rw [if_neg hz]
      rw [hw hz] at hall hx hexec
      refine ⟨c', _, _, ?_, congrArg Prod.snd (hexec g), agree_stale hall hx hlive⟩
      simp only [Insn.execMasked, hexec f, setFlags_setFlags, setFlags_flags]

/-- A whole list, from states that agree on what is live before it. -/
lemma run_agree (fp : Fp) (v : List Insn) (hv : ∀ o ∈ v, o.cc < 16) (c : Cpu) (f g : BitVec 32)
    (h : Agree (flagLivenessFrom v).2 f g) :
    outcomes (Insn.execNeed fp) (flagLiveness v) (c.setFlags f) = outcomes (Insn.exec fp) v (c.setFlags g) ∧
      List.Forall₂ (fun s t => s.setFlags 0 = t.setFlags 0)
        (statesAfter (Insn.execNeed fp) (flagLiveness v) (c.setFlags f)) (statesAfter (Insn.exec fp) v (c.setFlags g)) ∧
      finalState (Insn.execNeed fp) (flagLiveness v) (c.setFlags f) = finalState (Insn.exec fp) v (c.setFlags g) := by
  induction v generalizing c f g with
  | nil =>
    refine ⟨rfl, .nil, ?_⟩
    rw [agree_all h]
    rfl
  | cons o v ih =>
    have hcc : o.cc < 16 := hv o List.mem_cons_self
    obtain ⟨c', f', g', hneed, hexec, hagree⟩ := exec_agree fp hcc c h
    obtain ⟨hout, hstates, hfinal⟩ := ih (fun x hx => hv x (List.mem_cons_of_mem o hx)) c' f' g' hagree
    have hl : flagLiveness (o :: v) =
        { o with fneed := flagsWritten o &&& (flagLivenessFrom v).2 } :: flagLiveness v := rfl
    rw [hl]
    refine ⟨?_, ?_, ?_⟩
    · rw [outcomes, outcomes, hneed, hexec, hout]
      by_cases hk : o.kind = .jcc ∨ o.kind = .setcc
      · rw [if_pos hk, if_pos hk, setFlags_flags, setFlags_flags, cond_agree hcc hk h]
      · rw [if_neg hk, if_neg hk]
    · rw [statesAfter, statesAfter, hneed, hexec]
      exact .cons rfl hstates
    · rw [finalState, finalState, hneed, hexec]
      exact hfinal

/-- Computing only the wanted flags is not observable: every condition comes out the same, every
state on the way is the same but for the flags, and the last one is the same altogether. -/
theorem flag_liveness_sound (fp : Fp) (v : List Insn) (hv : ∀ o ∈ v, ∃ p rip, decode p rip = some o) (c : Cpu) :
    outcomes (Insn.execNeed fp) (flagLiveness v) c = outcomes (Insn.exec fp) v c ∧
      List.Forall₂ (fun s t => s.setFlags 0 = t.setFlags 0)
        (statesAfter (Insn.execNeed fp) (flagLiveness v) c) (statesAfter (Insn.exec fp) v c) ∧
      finalState (Insn.execNeed fp) (flagLiveness v) c = finalState (Insn.exec fp) v c := by
  refine run_agree fp v (fun o ho => ?_) c c.flags c.flags fun _ _ => rfl
  obtain ⟨p, rip, h⟩ := hv o ho
  exact decode_cc h

/-- `add eax, ebx; inc ecx; setb dl`: the carry has to get past `inc`, the rest of what `add`
computes does not. -/
def addIncSetb : List Insn :=
  [{ Insn.zero with kind := .rr, op := .add, size := 4, len := 2, src := 3, next := 0x1002 },
    { Insn.zero with kind := .ri, op := .inc, size := 4, len := 2, reg := rcx, imm := 1, next := 0x1004 },
    { Insn.zero with kind := .setcc, size := 1, len := 3, reg := rdx, cc := 2, next := 0x1007 }]

lemma addIncSetb_decoded : ∀ o ∈ addIncSetb, ∃ p rip, decode p rip = some o := by
  simp only [addIncSetb, List.forall_mem_cons]
  refine ⟨⟨fun i => [0x01#8, 0xD8].getD i 0, 0x1000, by decide⟩, ⟨fun i => [0xFF#8, 0xC1].getD i 0, 0x1002, by decide⟩,
    ⟨fun i => [0x0F#8, 0x92, 0xC2].getD i 0, 0x1004, by decide⟩, ?_⟩
  exact fun o ho => absurd ho List.not_mem_nil

theorem flag_liveness_sound_addIncSetb :
    (flagLiveness addIncSetb).map Insn.fneed = [fCF, flInc, 0] ∧
      ∀ (fp : Fp) (c : Cpu),
        outcomes (Insn.execNeed fp) (flagLiveness addIncSetb) c = outcomes (Insn.exec fp) addIncSetb c ∧
          List.Forall₂ (fun s t => s.setFlags 0 = t.setFlags 0)
            (statesAfter (Insn.execNeed fp) (flagLiveness addIncSetb) c) (statesAfter (Insn.exec fp) addIncSetb c) ∧
          finalState (Insn.execNeed fp) (flagLiveness addIncSetb) c = finalState (Insn.exec fp) addIncSetb c :=
  ⟨by decide, fun fp c => flag_liveness_sound fp addIncSetb addIncSetb_decoded c⟩

end Proofs

end Rashid
