import Rashid.Proofs.BlockCheck
import Rashid.Proofs.CachedBlocks
import Rashid.Proofs.MachineGauge

/-!
# Undoing the writes of a block

Guest memory after any sequence of writes that are logged before they are made, however their
windows overlap, and how many entries a compiled block and its replay make.
-/

namespace Rashid.Proofs

/-! ### Sequences of logged writes -/

/-- `n` entries, and after each of them, or after the two of a 128-bit store, a change of memory within
their windows. Between writes the cpu may change as `P` allows. -/
inductive WriteSeq (P : Cpu → Cpu → Prop) (c : Cpu) : Nat → Cpu → Prop
  | start : WriteSeq P c 0 c
  | other {n : Nat} {c' c'' : Cpu} : WriteSeq P c n c' → P c' c'' → c''.mem = c'.mem → c''.wlog = c'.wlog →
    WriteSeq P c n c''
  | write {n : Nat} {c' : Cpu} (a v : BitVec 64) {size : Nat} {m : Mem} : WriteSeq P c n c' → size ∈ [1, 2, 4, 8] →
      (∀ x, ¬ inWindow a (logEntry c'.as c'.mem a v size).span x → m x = c'.mem x) →
      WriteSeq P c (n + 1) { (logWrite a v size c').2 with mem := m }
  | wide {n : Nat} {c' : Cpu} (a lo hi : BitVec 64) {m : Mem} : WriteSeq P c n c' →
      (∀ x, ¬ inWindow a (logEntry c'.as c'.mem a lo 8).span x →
        ¬ inWindow (a + 8) (logEntry c'.as c'.mem (a + 8) hi 8).span x → m x = c'.mem x) →
      WriteSeq P c (n + 2) { (logWrite (a + 8) hi 8 (logWrite a lo 8 c').2).2 with mem := m }

/-- A log of `n` entries from which the writes since `c` can be undone. -/
structure Recorded (c c' : Cpu) (n : Nat) (w : WriteLog) : Prop where
  wlog : c'.wlog = some w
  overflow : w.overflow = false
  length : w.e.length = n
  wellLogged : ∀ e ∈ w.e, WellLogged e
  writes : LoggedWrites [] c.mem (savedLog w) c'.mem

section Sequences

variable {P : Cpu → Cpu → Prop} {c c' : Cpu} {n : Nat} {w : WriteLog}

lemma Recorded.log (h : Recorded c c' n w) (a v : BitVec 64) {size : Nat} (hsize : size ∈ [1, 2, 4, 8])
    (hn : n < rsdWlogMax) :
    Recorded c (logWrite a v size c').2 (n + 1) { w with e := w.e ++ [logEntry c'.as c'.mem a v size] } where
  wlog := by
    have hroom : ¬ rsdWlogMax ≤ w.e.length := by
      rw [h.length]
      exact Nat.not_le.mpr hn
    show c'.wlog.map (fun w => w.add (logEntry c'.as c'.mem a v size)) = _
    rw [h.wlog]
    exact congrArg some (if_neg hroom)
  overflow := h.overflow
  length := by
    rw [List.length_append, h.length]
    rfl
  wellLogged e he := by
    rcases List.mem_append.mp he with he | he
    · exact h.wellLogged e he
    · rw [List.mem_singleton.mp he]
      exact wellLogged_logEntry _ _ _ _ hsize
  writes := by
    have hsave := h.writes.save (logEntry_of c'.as c'.mem a v size)
    simp only [savedLog, List.map_append, List.map_cons, List.map_nil] at hsave ⊢
    exact hsave

lemma Recorded.change (h : Recorded c c' n w) {m : Mem} (hm : ∀ x, ¬ InLog w.e x → m x = c'.mem x) :
    Recorded c { c' with mem := m } n w := by
  refine ⟨h.wlog, h.overflow, h.length, h.wellLogged, h.writes.write fun x hx => hm x ?_⟩
  rwa [covered_savedLog h.wellLogged] at hx

lemma inLog_last (l : List LogEntry) {e : LogEntry} {x : BitVec 64} (h : inWindow e.addr e.span x) : InLog (l ++ [e]) x :=
  ⟨e, List.mem_append_right l (List.mem_singleton_self e), h⟩

/-- While there is room, every entry is made. -/
lemma WriteSeq.recorded (h : WriteSeq P c n c') (hc : c.wlog = some .empty) (hn : n ≤ rsdWlogMax) :
    ∃ w, Recorded c c' n w := by
  induction h with
  | start => exact ⟨.empty, hc, rfl, rfl, fun e he => absurd he List.not_mem_nil, .refl _ _⟩
  | other _ _ hmem hwlog ih =>
    obtain ⟨w, h⟩ := ih hn
    exact ⟨w, hwlog.trans h.wlog, h.overflow, h.length, h.wellLogged, hmem ▸ h.writes⟩
  | @write n c' a v size m _ hsize hm ih =>
    obtain ⟨w, h⟩ := ih (Nat.le_of_succ_le hn)
    have hlog := h.log a v hsize hn
    refine ⟨_, hlog.change fun x hx => hm x fun hin => hx ?_⟩
    exact inLog_last w.e hin
  | @wide n c' a lo hi m _ hm ih =>
    obtain ⟨w, h⟩ := ih (Nat.le_trans (Nat.le_add_right n 2) hn)
    have hfst := h.log a lo (show 8 ∈ [1, 2, 4, 8] by decide) (Nat.lt_of_succ_le (Nat.le_of_succ_le hn))
    have hsnd := hfst.log (a + 8) hi (show 8 ∈ [1, 2, 4, 8] by decide) hn
    refine ⟨_, hsnd.change fun x hx => hm x (fun hin => hx ?_) fun hin => hx ?_⟩
    · obtain ⟨e, he, hwin⟩ := inLog_last w.e (e := logEntry c'.as c'.mem a lo 8) hin
      exact ⟨e, List.mem_append_left _ he, hwin⟩
    · exact inLog_last (w.e ++ [logEntry c'.as c'.mem a lo 8]) hin

lemma Recorded.logOf (h : Recorded c c' n w) : logOf c' = w := by
  rw [Rashid.Proofs.logOf, h.wlog, Option.getD_some]

lemma Recorded.undo (h : Recorded c c' n w) : undoWrites w c'.mem = c.mem :=
  (undoWrites_eq_undo w c'.mem).trans h.writes.undo_eq

lemma WriteSeq.trans {m : Nat} {c'' : Cpu} (h : WriteSeq P c m c') (h' : WriteSeq P c' n c'') :
    WriteSeq P c (m + n) c'' := by
  induction h' with
  | start => exact h
  | other _ hP hmem hwlog ih => exact .other ih hP hmem hwlog
  | write a v _ hsize hm ih => exact .write a v ih hsize hm
  | wide a lo hi _ hm ih => exact .wide a lo hi ih hm

/-- What holds between writes, and does not look at memory or at the log, holds over the whole. -/
lemma WriteSeq.kept {α : Type} {f : Cpu → α} (hf : ∀ c m w, f { c with mem := m, wlog := w } = f c)
    (hP : ∀ c c', P c c' → f c' = f c) (h : WriteSeq P c n c') : f c' = f c := by
  induction h with
  | start => rfl
  | other _ hPc _ _ ih => exact (hP _ _ hPc).trans ih
  | @write n c' a v size m _ _ _ ih => exact (hf c' m _).trans ih
  | @wide n c' a lo hi m _ _ ih => exact (hf c' m _).trans ih

end Sequences

/-! ### Compiled blocks -/

/-- What compiled code may do besides writing memory: the region list and the trampolines stay. -/
def Settles (c c' : Cpu) : Prop := asView c'.as = asView c.as ∧ c'.targets = c.targets

/-- At most `2 * k` entries. -/
def Within2 (k : Nat) (c c' : Cpu) : Prop := ∃ n, n ≤ 2 * k ∧ WriteSeq Settles c n c'

section Effects

lemma within_other {k : Nat} {c c' : Cpu} (h : Settles c c') (hmem : c'.mem = c.mem) (hwlog : c'.wlog = c.wlog) :
    Within2 k c c' :=
  ⟨0, Nat.zero_le _, .other .start h hmem hwlog⟩

lemma within_trans {m n : Nat} {a b c : Cpu} (h : Within2 m a b) (h' : Within2 n b c) : Within2 (m + n) a c := by
  obtain ⟨i, hi, hab⟩ := h
  obtain ⟨j, hj, hbc⟩ := h'
  refine ⟨i + j, ?_, hab.trans hbc⟩
  rw [Nat.mul_add]
  exact Nat.add_le_add hi hj

lemma asView_note (as : As) (a : BitVec 64) (prot : BitVec 32) : asView (rsdAsNote as a prot) = asView as := by
  unfold rsdAsNote
  repeat' split
  all_goals rfl

lemma noteHit_within {k : Nat} (a : BitVec 64) (prot : BitVec 32) (c : Cpu) : Within2 k c (noteHit a prot c).2 := by
  unfold noteHit
  simp only [Prog.modify_apply]
  split
  · exact within_other ⟨asView_note .., rfl⟩ rfl rfl
  · exact within_other ⟨rfl, rfl⟩ rfl rfl

lemma memfault_within {k : Nat} (a : BitVec 64) (w : Fault) (c : Cpu) : Within2 k c (memfault a w c).2 := by
  obtain ⟨_, _, _, _, h⟩ := memfault_eq a w c
  rw [h]
  exact within_other ⟨rfl, rfl⟩ rfl rfl

lemma ld_within {k : Nat} (a : BitVec 64) (n : Nat) (c : Cpu) : Within2 k c (ld a n c).2 := by
  unfold ld
  split
  · exact within_other ⟨rfl, rfl⟩ rfl rfl
  · exact memfault_within ..

lemma span_covers (as : As) (m : Mem) (a v : BitVec 64) {size : Nat} (h : size ∈ [1, 2, 4, 8]) :
    size ≤ (logEntry as m a v size).span :=
  (wellLogged_logEntry as m a v h).2

/-- A logged store. -/
lemma WriteSeq.store {P : Cpu → Cpu → Prop} {c c' : Cpu} {n : Nat} (h : WriteSeq P c n c') (a v : BitVec 64) {size : Nat}
    (hsize : size ∈ [1, 2, 4, 8]) :
    WriteSeq P c (n + 1) { (logWrite a v size c').2 with mem := storeLE c'.mem a v size } :=
  .write a v h hsize fun _ hx => storeLE_outside fun hin => hx (inWindow_mono (span_covers _ _ _ _ hsize) hin)

lemma WriteSeq.store128 {P : Cpu → Cpu → Prop} {c c' : Cpu} {n : Nat} (h : WriteSeq P c n c') (a : BitVec 64) (v : Xmm) :
    WriteSeq P c (n + 2) { (logWrite (a + 8) v.hi 8 (logWrite a v.lo 8 c').2).2 with
      mem := storeLE (storeLE c'.mem a v.lo 8) (a + 8) v.hi 8 } := by
  have hspan (b w : BitVec 64) : 8 ≤ (logEntry c'.as c'.mem b w 8).span := span_covers _ _ _ _ (by decide)
  have hm (x : BitVec 64) (hlo : ¬ inWindow a (logEntry c'.as c'.mem a v.lo 8).span x)
      (hhi : ¬ inWindow (a + 8) (logEntry c'.as c'.mem (a + 8) v.hi 8).span x) :
      storeLE (storeLE c'.mem a v.lo 8) (a + 8) v.hi 8 x = c'.mem x := by
    rw [storeLE_outside fun h => hhi (inWindow_mono (hspan _ _) h),
      storeLE_outside fun h => hlo (inWindow_mono (hspan _ _) h)]
  exact .wide a v.lo v.hi h hm

lemma store_within (a v : BitVec 64) {size : Nat} (hsize : size ∈ [1, 2, 4, 8]) (c : Cpu) :
    Within2 1 c { (logWrite a v size c).2 with mem := storeLE c.mem a v size } :=
  ⟨1, by decide, WriteSeq.start.store a v hsize⟩

lemma st_within (a v : BitVec 64) {size : Nat} (hsize : size ∈ [1, 2, 4, 8]) (c : Cpu) :
    Within2 1 c (st a v size c).2 := by
  unfold st
  split
  · exact store_within a v hsize c
  · exact memfault_within ..

lemma st128_within (a : BitVec 64) (v : Xmm) (c : Cpu) : Within2 1 c (st128 a v c).2 := by
  unfold st128
  split
  · exact ⟨2, by decide, WriteSeq.start.store128 a v⟩
  · exact memfault_within ..

lemma runHelper_within (fp : Fp) {h : Helper} {p : M (Option (BitVec 64))} {a1 a2 a3 a4 : BitVec 64} (c : Cpu)
    (hh : takesCpu h = true) (hp : runHelper fp a1 a2 a3 a4 h = some p) : Within2 1 c (p c).2 := by
  cases h with
  | ld =>
    obtain rfl := Option.some.inj hp
    exact within_trans (ld_within (k := 0) a1 a2.toNat c) (noteHit_within (k := 1) a1 rsdProtR (ld a1 a2.toNat c).2)
  | st => cases hh
  | wlog => cases hh
  | ld128 => cases hh
  | st128 => cases hh
  | nanD => cases hh
  | nanS => cases hh
  | _ =>
    obtain rfl := Option.some.inj hp
    exact within_other ⟨rfl, rfl⟩ rfl rfl

lemma within_effect (fp : Fp) : Effect fp true Within2 where
  scratch h := by
    obtain ⟨r, x, rip, t, rfl⟩ := h
    exact within_other ⟨rfl, rfl⟩ rfl rfl
  trans := within_trans
  mono h hmn := by
    obtain ⟨i, hi, hseq⟩ := h
    exact ⟨i, Nat.le_trans hi (Nat.mul_le_mul_left 2 hmn), hseq⟩
  routine := runHelper_within fp
  st a v size c hsize := by
    have hsize' : size ∈ [1, 2, 4, 8] := by
      simp only [List.mem_cons, List.not_mem_nil, or_false] at hsize ⊢
      tauto
    exact within_trans (n := 0) (st_within a v hsize' c) (noteHit_within a rsdProtW _)
  ld128 a c := by
    unfold ld128
    split
    · exact within_other ⟨rfl, rfl⟩ rfl rfl
    · exact memfault_within ..
  st128 := st128_within
  flags need word c _ := within_other ⟨rfl, rfl⟩ rfl rfl
  store a v size c hsize := by
    have hsize' : size ∈ [1, 2, 4, 8] := by
      simp only [List.mem_cons, List.not_mem_nil, or_false] at hsize ⊢
      tauto
    exact store_within a v hsize' c

end Effects

section Blocks

variable {env : Env} {aenv : A64Env} {code : List A64} {n : Nat}

/-- A compiled block fits into the log, and what it has written can be undone. -/
lemma Enters.recorded (h : Enters env aenv) (hc : Compiled env.lk true code n) (c : Cpu) :
    n ≤ maxInsns ∧ Settles c (env.enter code (logged c)).2 ∧
      ∃ m w, Recorded c (env.enter code (logged c)).2 m w := by
  obtain ⟨hn, m, hm, hseq⟩ := h.compiled (within_effect env.fp) hc (logged c)
  have hroom : m ≤ rsdWlogMax := by
    have hmax : maxInsns = 48 := rfl
    have hlog : rsdWlogMax = 512 := rfl
    omega
  obtain ⟨w, hw⟩ := hseq.recorded rfl hroom
  have hkept {α : Type} {f : Cpu → α} (hf : ∀ c m w, f { c with mem := m, wlog := w } = f c)
      (hP : ∀ c c', Settles c c' → f c' = f c) : f (env.enter code (logged c)).2 = f (logged c) := hseq.kept hf hP
  have has : asView (env.enter code (logged c)).2.as = asView c.as :=
    hkept (f := fun c => asView c.as) (fun _ _ _ => rfl) fun _ _ hP => hP.1
  have htargets : (env.enter code (logged c)).2.targets = c.targets :=
    hkept (f := fun c => c.targets) (fun _ _ _ => rfl) fun _ _ hP => hP.2
  exact ⟨hn, ⟨has, htargets⟩, m, w, hw.wlog, hw.overflow, hw.length, hw.wellLogged, hw.writes⟩

/-- A compiled block leaves the log that the checker needs. -/
lemma Enters.bodyLog (h : Enters env aenv) (hc : Compiled env.lk true code n) (c : Cpu) :
    ∃ w, BodyLog (logged c) (env.enter code (logged c)).2 w := by
  obtain ⟨-, ⟨has, htargets⟩, m, w, hw⟩ := h.recorded hc c
  exact ⟨w, hw.wlog, hw.wellLogged, hw.writes, has, htargets⟩

lemma capture_overflow (w : WriteLog) (m : Mem) : (w.capture m).overflow = w.overflow := by
  unfold WriteLog.capture
  split <;> rfl

/-- The replay starts from the memory that the block started from, and with an empty log. -/
lemma Enters.begins (h : Enters env aenv) (hc : Compiled env.lk true code n) (c : Cpu) :
    (beginCheck (env.enter code) c).1.jitLog.overflow = false ∧ (beginCheck (env.enter code) c).2.mem = c.mem := by
  obtain ⟨-, -, m, w, hw⟩ := h.recorded hc c
  have hlog : (env.enter code (logged c)).2.wlog.getD .empty = w := hw.logOf
  constructor
  · show (WriteLog.capture ((env.enter code (logged c)).2.wlog.getD .empty) _).overflow = false
    rw [capture_overflow, hlog]
    exact hw.overflow
  · show undoWrites ((env.enter code (logged c)).2.wlog.getD .empty) (env.enter code (logged c)).2.mem = c.mem
    rw [hlog]
    exact hw.undo

end Blocks

/-! ### Replays -/

/-- At most `n` entries are added to a log that has room for them. -/
def LogGrows (n : Nat) (c c' : Cpu) : Prop :=
  ∀ w, c.wlog = some w → w.overflow = false → w.e.length + n ≤ rsdWlogMax →
    ∃ w', c'.wlog = some w' ∧ w'.overflow = false ∧ w'.e.length ≤ w.e.length + n

lemma logGrows_same {c c' : Cpu} (h : c'.wlog = c.wlog) : LogGrows 0 c c' :=
  fun w hw hover _ => ⟨w, h.trans hw, hover, Nat.le_refl _⟩

instance : Gauge LogGrows where
  refl c := logGrows_same rfl
  trans h h' w hw hover hroom := by
    obtain ⟨w1, hw1, hover1, hlen1⟩ := h w hw hover (by omega)
    obtain ⟨w2, hw2, hover2, hlen2⟩ := h' w1 hw1 hover1 (by omega)
    exact ⟨w2, hw2, hover2, by omega⟩
  mono h hmn w hw hover hroom := by
    obtain ⟨w1, hw1, hover1, hlen1⟩ := h w hw hover (by omega)
    exact ⟨w1, hw1, hover1, by omega⟩
  aside h _ := logGrows_same h
  entry e h _ w hw hover hroom := by
    have hadd : w.add e = { w with e := w.e ++ [e] } := if_neg (by omega)
    refine ⟨w.add e, by rw [h, hw]; rfl, ?_, ?_⟩
    · rw [hadd]
      exact hover
    · rw [hadd, List.length_append]
      exact Nat.le_refl _

open Conf

/-- A native function that the replay has entered calls a trampoline. -/
def CallsBack (i : Input) (s : Conf) : Prop :=
  s.mode = .native ∧ (∃ k n done, s.base = .replay k n done) ∧ ∃ index x d, i.act = .callback index x d

/-- A step of the replay that a native function has interrupted. -/
def underway : Mode → Nat
  | .guest => 0
  | .native => 1

/-- A replay whose log has room for the steps that are left. -/
structure Roomy (s : Conf) (n done : Nat) : Prop where
  frames : s.frames = []
  size : n ≤ maxInsns
  steps : done + underway s.mode ≤ n
  log : ∃ w, s.cpu.wlog = some w ∧ w.overflow = false ∧ w.e.length ≤ 3 * (done + underway s.mode)

/-- What holds in a run in which no replay is called back into. -/
structure ReplayInv (env : Env) (s : Conf) : Prop where
  jit : JitOk env.lk env.jitCheck s.jit
  room (k : Check) (n done : Nat) : s.base = .replay k n done → Roomy s n done

section Replays

variable {env : Env} {aenv : A64Env} {i : Input} {s : Conf}

lemma ReplayInv.main (hjit : JitOk env.lk env.jitCheck s.jit) (hbase : s.base = .main) : ReplayInv env s :=
  ⟨hjit, fun _ _ _ h => nomatch hbase.symm.trans h⟩

/-- A finished step of the replay is counted. -/
lemma afterStep_room {k : Check} {n done : Nat} {w : WriteLog} (hbase : s.base = .replay k n done)
    (hframes : s.frames = [])
    (hmode : s.mode = .guest) (hn : n ≤ maxInsns) (hdone : done < n) (hw : s.cpu.wlog = some w)
      (hover : w.overflow = false)
    (hlen : w.e.length ≤ 3 * (done + 1)) {k' : Check} {n' done' : Nat} (h : (afterStep env s).base = .replay k' n' done') :
    Roomy (afterStep env s) n' done' := by
  have heq : afterStep env s =
      { s with faulted := s.faulted || s.cpu.fault.isSome, base := .replay k n (done + 1) } := by
    simp only [afterStep, hframes, hbase]
  rw [heq] at h ⊢
  obtain ⟨rfl, rfl, rfl⟩ := Base.replay.inj h
  have hnone : underway s.mode = 0 := by
    rw [hmode]
    rfl
  refine ⟨hframes, hn, ?_, w, hw, hover, ?_⟩
  · show done + 1 + underway s.mode ≤ n
    rw [hnone]
    exact hdone
  · show w.e.length ≤ 3 * (done + 1 + underway s.mode)
    rw [hnone]
    exact hlen

lemma interp_room {k : Check} {n done : Nat} (hbase : s.base = .replay k n done) (h : Roomy s n done)
    (hmode : s.mode = .guest)
    (hdone : done < n) {k' : Check} {n' done' : Nat} (h' : (interp env i s).base = .replay k' n' done') :
    Roomy (interp env i s) n' done' := by
  have hnone : underway s.mode = 0 := by
    rw [hmode]
    rfl
  obtain ⟨w, hw, hover, hlen⟩ := h.log
  rw [hnone, Nat.add_zero] at hlen
  have hmax : n ≤ 48 := h.size
  have hroom : w.e.length + 3 ≤ rsdWlogMax := by
    have hlog : rsdWlogMax = 512 := rfl
    omega
  obtain ⟨w', hw', hover', hlen'⟩ := step_gauge (R := LogGrows) env.fp env.rt i.kernel s.cpu w hw hover hroom
  rcases interp_cases env i s with ⟨-, heq⟩ | ⟨-, a, heq⟩
  · rw [heq] at h' ⊢
    obtain ⟨rfl, rfl, rfl⟩ := Base.replay.inj (hbase.symm.trans h')
    refine ⟨h.frames, h.size, hdone, w', hw', hover', ?_⟩
    show w'.e.length ≤ 3 * (done + 1)
    omega
  · rw [heq] at h' ⊢
    refine afterStep_room (s := { stepped env i s with asked := a }) hbase h.frames hmode h.size hdone hw' hover' ?_ h'
    omega

lemma nativeAct_room {k : Check} {n done : Nat} (hbase : s.base = .replay k n done) (h : Roomy s n done)
    (hmode : s.mode = .native)
    {act : NativeAct} (hact : ¬ ∃ index x d, act = .callback index x d) {k' : Check} {n' done' : Nat}
    (h' : (nativeAct env act s).base = .replay k' n' done') : Roomy (nativeAct env act s) n' done' := by
  have hone : underway s.mode = 1 := by
    rw [hmode]
    rfl
  cases act with
  | callback index x d => exact absurd ⟨index, x, d, rfl⟩ hact
  | write a bytes =>
    obtain ⟨rfl, rfl, rfl⟩ := Base.replay.inj (hbase.symm.trans h')
    exact ⟨h.frames, h.size, h.steps, h.log⟩
  | ret r =>
    obtain ⟨w, hw, hover, hlen⟩ := h.log
    have hsteps := h.steps
    rw [hone] at hlen hsteps
    have hmax : n ≤ 48 := h.size
    have hroom : w.e.length + 0 ≤ rsdWlogMax := by
      have hlog : rsdWlogMax = 512 := rfl
      omega
    obtain ⟨w', hw', hover', hlen'⟩ := Spends.spends (R := LogGrows) (p := finishNativeCall r) s.cpu w hw hover hroom
    exact afterStep_room (s := { s with asked := s.asked + 1, cpu := (finishNativeCall r s.cpu).2, mode := .guest })
      hbase h.frames rfl h.size hsteps hw' hover' (Nat.le_trans hlen' hlen) h'

/-- Entering a block starts its replay, or there is nothing to replay. -/
lemma block_room (henter : Enters env aenv) {code : List A64} {m : Nat} (hc : Compiled env.lk env.jitCheck code m)
    (hbase : s.base = .main) (hframes : s.frames = []) (hmode : s.mode = .guest) {k : Check} {n done : Nat}
    (h : (block env code m s).base = .replay k n done) : Roomy (block env code m s) n done := by
  unfold block at h ⊢
  cases hcheck : env.jitCheck with
  | false =>
    simp only [hcheck, Bool.false_eq_true, if_false] at h
    exact absurd (hbase.symm.trans h) nofun
  | true =>
    rw [hcheck] at hc
    simp only [hcheck, if_true] at h ⊢
    obtain ⟨-, rfl, rfl⟩ := Base.replay.inj h
    refine ⟨hframes, (henter.recorded hc s.cpu).1, ?_, .empty, rfl, rfl, Nat.zero_le _⟩
    show 0 + underway s.mode ≤ m
    rw [hmode]
    exact Nat.zero_le m

/-- A transition that does not call back out of a replay. -/
lemma next_replayInv (henter : Enters env aenv) (h : ReplayInv env s) (hact : ¬ CallsBack i s) :
    ReplayInv env (next env i s) := by
  refine ⟨next_jit h.jit, fun k n done hbase => ?_⟩
  rcases next_base h.jit hbase with ⟨d, hd⟩ | ⟨hmode, hframes, hmain, code, m, j, hc, heq⟩
  · have hroom := h.room k n d hd
    unfold next at hbase ⊢
    cases hmode : s.mode with
    | native =>
      simp only [hmode] at hbase ⊢
      exact nativeAct_room hd hroom hmode (fun hcb => hact ⟨hmode, ⟨k, n, d, hd⟩, hcb⟩) hbase
    | guest =>
      simp only [hmode, hroom.frames, hd] at hbase ⊢
      by_cases hgo : d < n ∧ s.cpu.running = true
      · rw [if_pos hgo] at hbase ⊢
        exact interp_room hd hroom hmode hgo.1 hbase
      · rw [if_neg hgo, endReplay_base] at hbase
        cases hbase
  · rw [heq] at hbase ⊢
    exact block_room (s := { s with jit := j }) henter hc hmain hframes hmode hbase

lemma run_replayInv {oracle : Nat → Input} (henter : Enters env aenv) (h : ReplayInv env s) {m : Nat}
    (hact : ∀ l < m, ¬ CallsBack (oracle (run env oracle l s).asked) (run env oracle l s)) :
      ReplayInv env (run env oracle m s) := by
  induction m with
  | zero => exact h
  | succ m ih =>
    rw [run_succ]
    exact next_replayInv henter (ih fun l hl => hact l (Nat.lt_succ_of_lt hl)) (hact m (Nat.lt_succ_self m))

/-- The log that the check compares the replay with is whole. -/
structure JitLogInv (env : Env) (s : Conf) : Prop where
  jit : JitOk env.lk env.jitCheck s.jit
  log (k : Check) (n done : Nat) : s.base = .replay k n done → k.jitLog.overflow = false

lemma block_begins (henter : Enters env aenv) {code : List A64} {m : Nat} (hc : Compiled env.lk env.jitCheck code m)
    (hbase : s.base = .main) {k : Check} {n done : Nat} (h : (block env code m s).base = .replay k n done) :
    k.jitLog.overflow = false ∧ (block env code m s).cpu.mem = s.cpu.mem := by
  unfold block at h ⊢
  cases hcheck : env.jitCheck with
  | false =>
    simp only [hcheck, Bool.false_eq_true, if_false] at h
    exact absurd (hbase.symm.trans h) nofun
  | true =>
    rw [hcheck] at hc
    simp only [hcheck, if_true] at h ⊢
    obtain ⟨rfl, -, -⟩ := Base.replay.inj h
    exact henter.begins hc s.cpu

lemma next_jitLogInv (henter : Enters env aenv) (h : JitLogInv env s) : JitLogInv env (next env i s) := by
  refine ⟨next_jit h.jit, fun k n done hbase => ?_⟩
  rcases next_base h.jit hbase with ⟨d, hd⟩ | ⟨-, -, hmain, code, m, j, hc, heq⟩
  · exact h.log k n d hd
  · rw [heq] at hbase
    exact (block_begins (s := { s with jit := j }) henter hc hmain hbase).1

end Replays

/-- Writes that have all been logged are undone exactly, whatever they are and however their windows
overlap. The writes of a compiled block are; so are those of its replay, unless a native function
that the replay enters calls back into the guest. -/
theorem undo_restores {env : Env} {aenv : A64Env} (henter : Enters env aenv) :
    (∀ P c n c', WriteSeq P c n c' → c.wlog = some .empty → n ≤ rsdWlogMax →
      (logOf c').overflow = false ∧ undoWrites (logOf c') c'.mem = c.mem) ∧
    ∀ oracle s, JitOk env.lk env.jitCheck s.jit → s.base = .main → ∀ m,
      (∀ k n done, (run env oracle m s).base = .replay k n done → k.jitLog.overflow = false) ∧
      ((run env oracle m s).base = .main → ∀ k n done, (run env oracle (m + 1) s).base = .replay k n done →
        (run env oracle (m + 1) s).cpu.mem = (run env oracle m s).cpu.mem) ∧
      ((run env oracle m s).base = .main → ∀ l,
        (∀ j < l, ¬ CallsBack (oracle (run env oracle (m + j) s).asked) (run env oracle (m + j) s)) →
        ∀ k n done, (run env oracle (m + l) s).base = .replay k n done →
          (logOf (run env oracle (m + l) s).cpu).overflow = false) := by
  constructor
  · intro P c n c' hseq hc hn
    obtain ⟨w, hw⟩ := hseq.recorded hc hn
    rw [hw.logOf]
    exact ⟨hw.overflow, hw.undo⟩
  intro oracle s hjit hmain m
  have hinv : JitLogInv env (run env oracle m s) :=
    run_keeps (fun i s h => next_jitLogInv henter h) ⟨hjit, fun _ _ _ h => nomatch hmain.symm.trans h⟩ m
  refine ⟨hinv.log, fun hm k n done hbase => ?_, fun hm l hact k n done hbase => ?_⟩
  · rw [run_succ] at hbase ⊢
    rcases next_base hinv.jit hbase with ⟨d, hd⟩ | ⟨-, -, -, code, n', j, hc, heq⟩
    · exact absurd (hm.symm.trans hd) nofun
    · rw [heq] at hbase ⊢
      exact (block_begins (s := { run env oracle m s with jit := j }) henter hc hm hbase).2
  · have hroom : ReplayInv env (run env oracle (m + l) s) := by
      rw [run_add]
      refine run_replayInv henter (.main hinv.jit hm) fun j hj => ?_
      rw [← run_add]
      exact hact j hj
    obtain ⟨w, hw, hover, -⟩ := (hroom.room k n done hbase).log
    rw [logOf, hw, Option.getD_some]
    exact hover

/-! ### A replay that is called back into -/

/-- A block that runs on into an import stub: a `nop` just below it, and one that the compiler takes
the stub for. -/
def fallCpu : Cpu := { nopCpu with
  rip := 0x1fff
  r := fun i => if i = rsp then 0x1800 else 0
  mem := fun a => if a = 0x1fff ∨ a = 0x2000 then 0x90 else 0x06
  as := { rsdAsInit with reg := [⟨0x1000, 0x3000, 7⟩] }
  stubs := some ⟨0x2000, 1, fun _ => true, fun _ => -1, fun _ => false, fun _ => none⟩
  targets := [callbackMagic] }

def fallEnv : Env where
  fp := sampleFp
  rt := sampleRuntime
  lk := sampleLink
  enter code c := (rsdJitEnter sampleA64 (sampleA64.junk 0) code c).getD (c.rip, c)
  budget := 0
  jitCheck := true

lemma fallEnv_enters : Enters fallEnv sampleA64 where
  lk := rfl
  fp := rfl
  enter code c := by
    refine ⟨sampleA64.junk 0, fun r hr => ?_⟩
    show (rsdJitEnter sampleA64 (sampleA64.junk 0) code c).getD (c.rip, c) = r
    rw [hr, Option.getD_some]

/-- The native function calls the first trampoline and never returns. -/
def fallInput : Input := ⟨sampleKernel, .callback 0 [] []⟩

def nopAt (next : BitVec 64) : Insn := { Insn.zero with kind := .nop, size := 4, len := 1, next := next }

lemma fall_decoded : decodeBlock fallCpu maxInsns 0x1fff = ⟨[nopAt 0x2000, nopAt 0x2001], false, 0x2001⟩ := by
  have hv : (decodeBlock fallCpu maxInsns 0x1fff).v = [nopAt 0x2000, nopAt 0x2001] := by decide
  have hended : (decodeBlock fallCpu maxInsns 0x1fff).ended = false := by decide
  have hpc : (decodeBlock fallCpu maxInsns 0x1fff).pc = 0x2001 := by decide
  generalize decodeBlock fallCpu maxInsns 0x1fff = d at hv hended hpc
  cases d
  subst hv hended hpc
  rfl

lemma fall_compiled :
    ∃ code v, compileBlock sampleLink true fallCpu 0x1fff = some (code, v) ∧ v.length = 2 ∧ code.length = 7 := by
  unfold compileBlock
  rw [fall_decoded]
  exact ⟨_, _, rfl, rfl, rfl⟩

lemma fall_lookup : ∃ code j, rsdJitLookup sampleLink true fallCpu 0x1fff rsdJitInit = (some code, j) ∧
    rsdJitCount j 0x1fff = 2 ∧ Compiled sampleLink true code 2 := by
  obtain ⟨code, v, hcomp, hv, hcode⟩ := fall_compiled
  have htag : ¬ (0 : BitVec 64) = 0x1fff := by decide
  have hstub : (rsdStubIndex fallCpu.stubs 0x1fff).isSome = false := by decide
  have hexec : rsdAsOk fallCpu.as 0x1fff 16 rsdProtX = true := by decide
  have hroom : ¬ rsdJitInit.size < rsdJitInit.used + code.length * 4 := by
    rw [hcode]
    decide
  let entry : JitEntry := ⟨0x1fff, some code, v.length, originsFrom fallCpu.mem 0x1fff v⟩
  let j : Jit := { rsdJitInit.set (slotOf 0x1fff) entry with used := rsdJitInit.used + code.length * 4 }
  refine ⟨code, j, ?_, ?_, fallCpu, 0x1fff, v, hcomp, hv⟩
  · have hempty : rsdJitInit.cache (slotOf 0x1fff) = JitEntry.empty := rfl
    simp only [rsdJitLookup, hempty, JitEntry.empty, if_neg htag, hstub, hexec, hcomp, if_neg hroom, Option.isSome_none,
      Bool.false_eq_true, Bool.true_eq_false, if_false, j, entry]
  · have hself : (rsdJitInit.set (slotOf 0x1fff) entry).cache (slotOf 0x1fff) = entry := cache_set ..
    have hsame : j.cache = (rsdJitInit.set (slotOf 0x1fff) entry).cache := rfl
    rw [rsdJitCount, hsame, hself, if_pos rfl]
    exact hv

section Steps

variable {env : Env} {i : Input} {s : Conf} {k : Check} {n done : Nat}

/-- The first transition enters a block that is found, and starts its replay. -/
lemma next_enters {aenv : A64Env} (henter : Enters env aenv) {c : Cpu} {j j' : Jit} {code : List A64}
    (hrun : c.running = true)
    (hcheck : env.jitCheck = true) (hlookup : rsdJitLookup env.lk true c c.rip j = (some code, j'))
    (hcount : rsdJitCount j' c.rip = n) (hc : Compiled env.lk true code n) :
    ∃ s k, next env i (Conf.start c (some j)) = s ∧ s.mode = .guest ∧ s.frames = [] ∧ s.base = .replay k n 0 ∧
      SameGuest c s.cpu ∧ s.cpu.wlog = some .empty := by
  obtain ⟨w, hbody⟩ := henter.bodyLog hc c
  have hnext : next env i (Conf.start c (some j)) = { Conf.start c (some j) with
      jit := some j'
      cpu := (beginCheck (env.enter code) c).2
      base := .replay (beginCheck (env.enter code) c).1 n 0 } := by
    simp only [next, Conf.start, hrun, if_true, dispatch, hcheck, hlookup, block, hcount]
  exact ⟨_, _, hnext, rfl, rfl, rfl, (beginCheck_same hbody).1, rfl⟩

/-- A step of the replay, on a state that looks like one where the outcome is known. -/
lemma replay_step (env : Env) {c : Cpu} (hc : SameGuest c s.cpu) (hmode : s.mode = .guest) (hframes : s.frames = [])
    (hbase : s.base = .replay k n done) (hdone : done < n) (hrun : c.running = true) (i : Input) :
    (next env i s).cpu = (step env.fp env.rt i.kernel s.cpu).2 ∧ (next env i s).frames = [] ∧
      SameGuest (step env.fp env.rt i.kernel c).2 (next env i s).cpu ∧
      if (step env.fp env.rt i.kernel c).1.isNative then (next env i s).mode = .native ∧
        (next env i s).base = .replay k n done
      else (next env i s).mode = .guest ∧ (next env i s).base = .replay k n (done + 1) := by
  have hrunning : s.cpu.running = true := (congrArg (fun c => c.running) (id hc : view c = view s.cpu)).symm.trans hrun
  have hnext : next env i s = interp env i s := by
    simp only [next, hmode, hframes, hbase]
    exact if_pos ⟨hdone, hrunning⟩
  obtain ⟨hout, hsame⟩ := step_same env.fp env.rt i.kernel hc
  rw [hnext, hout]
  rcases interp_cases env i s with ⟨hnat, heq⟩ | ⟨hnat, a, heq⟩
  · rw [heq, hnat, if_pos rfl]
    exact ⟨rfl, hframes, hsame, rfl, hbase⟩
  · have hafter : interp env i s = { stepped env i s with
        asked := a, faulted := (stepped env i s).faulted || (stepped env i s).cpu.fault.isSome,
        base := .replay k n (done + 1) } := by
      rw [heq]
      simp only [afterStep, stepped, hframes, hbase]
    rw [hafter, hnat, if_neg Bool.false_ne_true]
    exact ⟨rfl, hframes, hsame, hmode, rfl⟩

lemma enterCallback_logs (target : BitVec 64) (x d : List (BitVec 64)) {c : Cpu}
    (h : accessOk c.as (callbackSp (c.r rsp)) 8 rsdProtW = true) :
    ∃ r xmm mem e, (enterCallback target x d c).2 = { c with
      r := r, xmm := xmm, mem := mem, wlog := c.wlog.map (fun w => w.add e), rip := target, running := true } := by
  let c1 := { c with r := loadArgs x c.r, xmm := loadFloats d c.xmm }
  have hst : (st (callbackSp (c.r rsp)) callbackMagic 8 c1).2 =
      { (logWrite (callbackSp (c.r rsp)) callbackMagic 8 c1).2 with
        mem := storeLE c.mem (callbackSp (c.r rsp)) callbackMagic 8 } := by
    have h1 : accessOk c1.as (callbackSp (c.r rsp)) 8 rsdProtW = true := h
    exact congrArg Prod.snd (if_pos h1)
  unfold enterCallback
  simp only
  rw [hst]
  exact ⟨_, _, _, _, rfl⟩

lemma run_three (s : Conf) : run env (fun _ => i) 3 s = next env i (next env i (next env i s)) := rfl

end Steps

/-- The native function is about to call the trampoline. -/
structure CallingBack (s : Conf) : Prop where
  mode : s.mode = .native
  frames : s.frames = []
  base : ∃ k, s.base = .replay k 2 1
  target : rsdCallbackTarget s.cpu.targets 0 = callbackMagic
  stack : accessOk s.cpu.as (callbackSp (s.cpu.r rsp)) 8 rsdProtW = true
  fault : s.cpu.fault = none

/-- The trampoline leads to the callback's own return address: every turn logs the write of it. -/
lemma callback_turn {s : Conf} (h : CallingBack s) :
    CallingBack (run fallEnv (fun _ => fallInput) 3 s) ∧
      ∃ e, (run fallEnv (fun _ => fallInput) 3 s).cpu.wlog = s.cpu.wlog.map fun w => w.add e := by
  obtain ⟨r, xmm, mem, e, henter⟩ := enterCallback_logs callbackMagic [] [] h.stack
  have h1 : next fallEnv fallInput s =
      { s with
        asked := s.asked + 1
        cpu := { s.cpu with
          r := r, xmm := xmm, mem := mem, wlog := s.cpu.wlog.map (fun w => w.add e), rip :=
            callbackMagic, running := true }
        frames := [s.cpu.frame]
        mode := .guest } := by
    have hne : ¬ callbackMagic = 0 := by decide
    simp only [next, h.mode, fallInput, nativeAct, h.target, if_neg hne, henter, h.frames]
  have hstep (c : Cpu) (hc : c.rip = callbackMagic) : step fallEnv.fp fallEnv.rt fallInput.kernel c =
      (.done, { c with running := false }) :=
    if_pos hc
  rw [run_three, h1]
  generalize hc : ({ s.cpu with
    r := r, xmm := xmm, mem := mem, wlog := s.cpu.wlog.map (fun w => w.add e), rip := callbackMagic, running :=
      true } : Cpu) = c
  have hrip : c.rip = callbackMagic := hc ▸ rfl
  have hrun : c.running = true := hc ▸ rfl
  simp only [next, hrun, if_true, interp, hstep c hrip, afterStep, Bool.false_eq_true, if_false]
  subst hc
  exact ⟨⟨rfl, rfl, h.base, h.target, h.stack, h.fault⟩, e, rfl⟩

lemma add_full (w : WriteLog) (e : LogEntry) {n : Nat} (hlen : w.e.length ≤ rsdWlogMax)
    (h : w.overflow = true ∨ w.e.length = n) :
    (w.add e).e.length ≤ rsdWlogMax ∧ ((w.add e).overflow = true ∨ (w.add e).e.length = n + 1) := by
  unfold WriteLog.add
  split
  · exact ⟨hlen, .inl rfl⟩
  · next hroom =>
    have hlast : (w.e ++ [e]).length = w.e.length + 1 := List.length_append
    refine ⟨hlast ▸ Nat.lt_of_not_le hroom, h.imp_right fun hn => ?_⟩
    rw [hlast, hn]

lemma callback_turns {s : Conf} (h : CallingBack s) {w : WriteLog} (hw : s.cpu.wlog = some w)
    (hlen : w.e.length ≤ rsdWlogMax)
    (n : Nat) : CallingBack (run fallEnv (fun _ => fallInput) (3 * n) s) ∧
      ∃ w', (run fallEnv (fun _ => fallInput) (3 * n) s).cpu.wlog = some w' ∧ w'.e.length ≤ rsdWlogMax ∧
        (w'.overflow = true ∨ w'.e.length = w.e.length + n) := by
  induction n with
  | zero => exact ⟨h, w, hw, hlen, .inr rfl⟩
  | succ n ih =>
    obtain ⟨hn, w', hw', hlen', hfull⟩ := ih
    obtain ⟨hturn, e, hlog⟩ := callback_turn hn
    rw [Nat.mul_succ, run_add]
    rw [hw'] at hlog
    exact ⟨hturn, w'.add e, hlog, add_full w' e hlen' hfull⟩

/-- The first step of the replay is the `nop`, the second enters the native function. -/
lemma fall_calls : CallingBack (run fallEnv (fun _ => fallInput) 3 (Conf.start fallCpu (some rsdJitInit))) ∧
    ∃ w, (run fallEnv (fun _ => fallInput) 3 (Conf.start fallCpu (some rsdJitInit))).cpu.wlog = some w ∧
      w.e.length ≤ rsdWlogMax := by
  obtain ⟨code, j, hlookup, hcount, hcomp⟩ := fall_lookup
  obtain ⟨s1, k, h1, hmode1, hframes1, hbase1, hsame1, hlog1⟩ :=
    next_enters (i := fallInput) fallEnv_enters rfl rfl hlookup hcount hcomp
  have hnop : (step fallEnv.fp fallEnv.rt fallInput.kernel fallCpu).1.isNative = false := by decide
  obtain ⟨hcpu2, hframes2, hsame2, hstep2⟩ := replay_step fallEnv hsame1 hmode1 hframes1 hbase1 (by decide) rfl fallInput
  rw [hnop, if_neg Bool.false_ne_true] at hstep2
  let c1 := (step fallEnv.fp fallEnv.rt fallInput.kernel fallCpu).2
  have hnative : (step fallEnv.fp fallEnv.rt fallInput.kernel c1).1.isNative = true := by decide
  obtain ⟨hcpu3, hframes3, hsame3, hstep3⟩ :=
    replay_step fallEnv hsame2 hstep2.1 hframes2 hstep2.2 (by decide) (by decide) fallInput
  rw [hnative, if_pos rfl] at hstep3
  let c2 := (step fallEnv.fp fallEnv.rt fallInput.kernel c1).2
  rw [run_three, h1]
  generalize next fallEnv fallInput s1 = s2 at hcpu2 hcpu3 hframes3 hsame3 hstep3 ⊢
  have hlogs : ∃ w, (next fallEnv fallInput s2).cpu.wlog = some w ∧ w.e.length ≤ rsdWlogMax := by
    obtain ⟨w1, hw1, hover1, hlen1⟩ :=
      step_gauge (R := LogGrows) fallEnv.fp fallEnv.rt fallInput.kernel s1.cpu .empty hlog1 rfl (by decide)
    rw [← hcpu2] at hw1
    have hlen1' : w1.e.length ≤ 3 := hlen1
    have hmax : rsdWlogMax = 512 := rfl
    obtain ⟨w2, hw2, -, hlen2⟩ :=
      step_gauge (R := LogGrows) fallEnv.fp fallEnv.rt fallInput.kernel s2.cpu w1 hw1 hover1 (by omega)
    rw [← hcpu3] at hw2
    exact ⟨w2, hw2, by omega⟩
  refine ⟨⟨hstep3.1, hframes3, ⟨k, hstep3.2⟩, ?_, ?_, ?_⟩, hlogs⟩
  · have htargets : (next fallEnv fallInput s2).cpu.targets = c2.targets :=
      (congrArg (fun c => c.targets) (id hsame3 : view c2 = view _)).symm
    rw [htargets]
    decide
  · have hr : (next fallEnv fallInput s2).cpu.r = c2.r := hsame3.r_eq.symm
    have hreg : (next fallEnv fallInput s2).cpu.as.reg = c2.as.reg :=
      (congrArg (fun c => c.as.reg) (id hsame3 : view c2 = view _)).symm
    rw [hr, accessOk_congr hreg]
    decide
  · have hfault : (next fallEnv fallInput s2).cpu.fault = c2.fault :=
      (congrArg (fun c => c.fault) (id hsame3 : view c2 = view _)).symm
    rw [hfault]
    decide

/-- A native function that calls back often enough, from a stub that the block has run into, fills the
log of the replay. -/
theorem replay_log_overflows : Enters fallEnv sampleA64 ∧
    ∃ k, (run fallEnv (fun _ => fallInput) 1542 (Conf.start fallCpu (some rsdJitInit))).base = .replay k 2 1 ∧
      (logOf (run fallEnv (fun _ => fallInput) 1542 (Conf.start fallCpu (some rsdJitInit))).cpu).overflow = true := by
  refine ⟨fallEnv_enters, ?_⟩
  obtain ⟨hcalls, w, hw, hlen⟩ := fall_calls
  obtain ⟨hturns, w', hw', hlen', hfull⟩ := callback_turns hcalls hw hlen 513
  rw [← run_add] at hturns hw'
  obtain ⟨k, hk⟩ := hturns.base
  refine ⟨k, hk, ?_⟩
  have hmax : rsdWlogMax = 512 := rfl
  rw [logOf, hw', Option.getD_some]
  exact hfull.resolve_right (by omega)

/-- Three windows that overlap, the second of them inside the first. -/
def overlapped : Cpu :=
  let c1 := { (logWrite 0x1100 7 8 (logged nopCpu)).2 with mem := storeLE nopCpu.mem 0x1100 7 8 }
  let c2 := { (logWrite 0x1104 9 4 c1).2 with mem := storeLE c1.mem 0x1104 9 4 }
  { (logWrite (0x10fc + 8) 5 8 (logWrite 0x10fc 3 8 c2).2).2 with
    mem := storeLE (storeLE c2.mem 0x10fc 3 8) (0x10fc + 8) 5 8 }

theorem undo_restores_overlapped : WriteSeq Settles (logged nopCpu) 4 overlapped ∧
    undoWrites (logOf overlapped) overlapped.mem = nopCpu.mem ∧
    ∀ k n done, (run fallEnv (fun _ => fallInput) 1 (Conf.start fallCpu (some rsdJitInit))).base = .replay k n done →
      k.jitLog.overflow = false :=
  have hseq : WriteSeq Settles (logged nopCpu) 4 overlapped :=
    ((WriteSeq.start.store 0x1100 7 (by decide)).store 0x1104 9 (by decide)).store128 0x10fc ⟨3, 5⟩
  ⟨hseq, ((undo_restores fallEnv_enters).1 Settles _ 4 _ hseq rfl (by decide)).2,
    ((undo_restores fallEnv_enters).2 (fun _ => fallInput) (Conf.start fallCpu (some rsdJitInit))
      cacheOk_init.some rfl 1).1⟩

end Rashid.Proofs
