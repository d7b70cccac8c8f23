import Mathlib.Data.List.GetD
import Mathlib.Logic.Function.Iterate
import Rashid.Lib.UndoLog
import Rashid.Proofs.GuestView
import Rashid.Proofs.Stops

/-!
# The checker of compiled blocks

`run_block` with `-J`: the body runs with its writes logged, its writes are undone, and the
interpreter replays the block. Only the logged windows are compared; that this decides whether
the whole memory agrees is what is proved here.
-/

namespace Rashid.Proofs

/-! ### Windows of bytes -/

@[simp] lemma length_peek (m : Mem) (a : BitVec 64) (n : Nat) : (peek m a n).length = n := by
  simp [peek]

lemma getD_peek {m : Mem} {a x : BitVec 64} {n : Nat} (h : inWindow a n x) (d : BitVec 8) :
    (peek m a n).getD (x - a).toNat d = m x := by
  have hx : a + BitVec.ofNat 64 (x - a).toNat = x := by
    rw [BitVec.ofNat_toNat, BitVec.setWidth_eq, BitVec.add_comm]
    exact BitVec.sub_add_cancel x a
  rw [List.getD_eq_getElem _ d ((length_peek m a n).symm ▸ h)]
  simp only [peek, List.getElem_map, List.getElem_range, hx]

lemma peek_inj {m m' : Mem} {a x : BitVec 64} {n : Nat} (h : peek m a n = peek m' a n) (hx : inWindow a n x) :
    m x = m' x := by
  rw [← getD_peek (m := m) hx 0, h, getD_peek hx]

/-- What a log entry saved. -/
def LogEntry.saved (e : LogEntry) : Saved (BitVec 64) (BitVec 8) where
  window := inWindow e.addr e.before.length
  value x := e.before.getD (x - e.addr).toNat 0
  dec := inferInstance

lemma poke_eq_restore (e : LogEntry) (m : Mem) : poke m e.addr e.before = (LogEntry.saved e).restore m := by
  funext x
  by_cases hx : inWindow e.addr e.before.length x
  · rw [Saved.restore_of_mem (e := LogEntry.saved e) hx]
    exact (List.getD_eq_getElem _ _ hx).trans (List.getD_eq_getElem _ _ hx).symm
  · rw [Saved.restore_of_not_mem (e := LogEntry.saved e) hx]
    exact List.getD_eq_default _ _ (Nat.not_lt.mp hx)

def savedLog (w : WriteLog) : List (Saved (BitVec 64) (BitVec 8)) := w.e.map LogEntry.saved

lemma undoWrites_eq_undo (w : WriteLog) (m : Mem) : undoWrites w m = undo (savedLog w) m := by
  simp only [undoWrites, undo, savedLog, List.foldr_map, poke_eq_restore]

/-! ### Compiled bodies -/

def logOf (c : Cpu) : WriteLog := c.wlog.getD .empty

/-- Whether a logged window covers an address. -/
def InLog (l : List LogEntry) (x : BitVec 64) : Prop := ∃ e ∈ l, inWindow e.addr e.span x

/-- What a compiled body may do, whatever it computes: log a write of one of the access sizes, and
change memory inside the windows logged so far. The region list and the trampolines are not its
to change; the hit entries are. -/
inductive LoggedRun (c : Cpu) : Cpu → Prop
  | start : LoggedRun c c
  | other {c' c'' : Cpu} : LoggedRun c c' → c''.mem = c'.mem → c''.wlog = c'.wlog → asView c''.as = asView c'.as →
      c''.targets = c'.targets → LoggedRun c c''
  | log {c' : Cpu} (a v : BitVec 64) {size : Nat} : LoggedRun c c' → size ∈ [1, 2, 4, 8] →
      LoggedRun c (logWrite a v size c').2
  | store {c' : Cpu} {m : Mem} : LoggedRun c c' → (∀ x, ¬ InLog (logOf c').e x → m x = c'.mem x) →
      LoggedRun c { c' with mem := m }

/-- An entry as `log_write` makes it. -/
def WellLogged (e : LogEntry) : Prop := e.before.length = e.span ∧ e.size ≤ e.span

lemma wellLogged_logEntry (as : As) (m : Mem) (a v : BitVec 64) {size : Nat} (h : size ∈ [1, 2, 4, 8]) :
    WellLogged (logEntry as m a v size) := by
  refine ⟨length_peek .., ?_⟩
  show size ≤ if rsdAsOk as a 16 rsdProtR then 16 else size
  have hle : size ≤ 16 := by
    simp only [List.mem_cons, List.not_mem_nil, or_false] at h
    omega
  split
  · exact hle
  · exact Nat.le_refl size

lemma logEntry_of (as : As) (m : Mem) (a v : BitVec 64) (size : Nat) :
    (LogEntry.saved (logEntry as m a v size)).Of m := by
  intro x hx
  have hx' : inWindow a (logEntry as m a v size).span x := by
    have h : inWindow a (peek m a (logEntry as m a v size).span).length x := hx
    rwa [length_peek] at h
  exact getD_peek hx' 0

lemma covered_savedLog {w : WriteLog} (h : ∀ e ∈ w.e, WellLogged e) (x : BitVec 64) :
    Covered (savedLog w) x ↔ InLog w.e x := by
  constructor
  · rintro ⟨s, hs, hx⟩
    obtain ⟨e, he, rfl⟩ := List.mem_map.mp hs
    exact ⟨e, he, (h e he).1 ▸ hx⟩
  · rintro ⟨e, he, hx⟩
    refine ⟨LogEntry.saved e, List.mem_map_of_mem he, ?_⟩
    rw [← (h e he).1] at hx
    exact hx

/-- What a body that started with an empty log leaves behind. -/
structure BodyLog (c c' : Cpu) (w : WriteLog) : Prop where
  wlog : c'.wlog = some w
  wellLogged : ∀ e ∈ w.e, WellLogged e
  writes : LoggedWrites [] c.mem (savedLog w) c'.mem
  as : asView c'.as = asView c.as
  targets : c'.targets = c.targets

lemma LoggedRun.bodyLog {c c' : Cpu} (h : LoggedRun c c') (hc : c.wlog = some .empty) : ∃ w, BodyLog c c' w := by
  induction h with
  | start => exact ⟨.empty, hc, fun e he => absurd he List.not_mem_nil, .refl _ _, rfl, rfl⟩
  | other _ hmem hwlog has htargets ih =>
    obtain ⟨w, h⟩ := ih
    exact ⟨w, hwlog.trans h.wlog, h.wellLogged, hmem ▸ h.writes, has.trans h.as, htargets.trans h.targets⟩
  | @log c' a v size _ hsize ih =>
    obtain ⟨w, h⟩ := ih
    have hwlog : (logWrite a v size c').2.wlog = some (w.add (logEntry c'.as c'.mem a v size)) := by
      show c'.wlog.map (fun w => w.add (logEntry c'.as c'.mem a v size)) = _
      rw [h.wlog]
      rfl
    by_cases hfull : rsdWlogMax ≤ w.e.length
    · have hadd : w.add (logEntry c'.as c'.mem a v size) = { w with overflow := true } := if_pos hfull
      exact ⟨{ w with overflow := true }, hadd ▸ hwlog, h.wellLogged, h.writes, h.as, h.targets⟩
    · have hadd : w.add (logEntry c'.as c'.mem a v size) = { w with e := w.e ++ [logEntry c'.as c'.mem a v size] } :=
        if_neg hfull
      refine ⟨{ w with e := w.e ++ [logEntry c'.as c'.mem a v size] }, hadd ▸ hwlog, ?_, ?_, h.as, h.targets⟩
      · intro e he
        rcases List.mem_append.mp he with he | he
        · exact h.wellLogged e he
        · rw [List.mem_singleton.mp he]
          exact wellLogged_logEntry _ _ _ _ hsize
      · have hsave := h.writes.save (logEntry_of c'.as c'.mem a v size)
        simp only [savedLog, List.map_append, List.map_cons, List.map_nil] at hsave ⊢
        exact hsave
  | @store c' m _ hm ih =>
    obtain ⟨w, h⟩ := ih
    refine ⟨w, h.wlog, h.wellLogged, h.writes.write fun x hx => hm x ?_, h.as, h.targets⟩
    rw [covered_savedLog h.wellLogged] at hx
    simpa only [logOf, h.wlog, Option.getD_some] using hx

/-- The writes of a body can be undone. -/
lemma BodyLog.undo {c c' : Cpu} {w : WriteLog} (h : BodyLog c c' w) : undoWrites w c'.mem = c.mem :=
  (undoWrites_eq_undo w c'.mem).trans h.writes.undo_eq

lemma BodyLog.eq_of_not_inLog {c c' : Cpu} {w : WriteLog} (h : BodyLog c c' w) {x : BitVec 64}
    (hx : ¬ InLog w.e x) : c'.mem x = c.mem x :=
  h.writes.eq_of_not_covered fun hc => hx ((covered_savedLog h.wellLogged x).mp hc)

/-! ### The interpreter while a log is kept -/

/-- New entries follow the old ones, and memory has changed only at the bytes they name. -/
def LogExt (c c' : Cpu) : Prop := ∀ w, c.wlog = some w → ∃ w', c'.wlog = some w' ∧
  (w'.overflow = false → w.overflow = false ∧ ∃ l, w'.e = w.e ++ l ∧
    ∀ x, (∀ e ∈ l, ¬ inWindow e.addr e.size x) → c'.mem x = c.mem x)

namespace LogExt

lemma of_eq {c c' : Cpu} (hw : c'.wlog = c.wlog) (hm : c'.mem = c.mem) : LogExt c c' := fun w h =>
  ⟨w, hw.trans h, fun ho => ⟨ho, [], (List.append_nil _).symm, fun _ _ => hm ▸ rfl⟩⟩

lemma refl (c : Cpu) : LogExt c c := of_eq rfl rfl

lemma trans {a b c : Cpu} (h1 : LogExt a b) (h2 : LogExt b c) : LogExt a c := by
  intro w hw
  obtain ⟨w1, hw1, ho1⟩ := h1 w hw
  obtain ⟨w2, hw2, ho2⟩ := h2 w1 hw1
  refine ⟨w2, hw2, fun ho => ?_⟩
  obtain ⟨ho', l2, hl2, hm2⟩ := ho2 ho
  obtain ⟨ho'', l1, hl1, hm1⟩ := ho1 ho'
  refine ⟨ho'', l1 ++ l2, by rw [hl2, hl1, List.append_assoc], fun x hx => ?_⟩
  rw [hm2 x fun e he => hx e (List.mem_append_right _ he), hm1 x fun e he => hx e (List.mem_append_left _ he)]

end LogExt

lemma memfault_logExt (a : BitVec 64) (w : Fault) (c : Cpu) : LogExt c (memfault a w c).2 :=
  .of_eq (memfault_wlog a w c) (memfault_mem a w c)

/-- A write is logged before it is made. -/
lemma logWrite_logExt {c : Cpu} {a v : BitVec 64} {size : Nat} {m : Mem}
    (hm : ∀ x, ¬ inWindow a size x → m x = c.mem x) : LogExt c { (logWrite a v size c).2 with mem := m } := by
  intro w hw
  refine ⟨w.add (logEntry c.as c.mem a v size), ?_, fun ho => ?_⟩
  · show c.wlog.map (fun w => w.add (logEntry c.as c.mem a v size)) = _
    rw [hw]
    rfl
  unfold WriteLog.add at ho ⊢
  split at ho
  · cases ho
  · next hfull =>
    rw [if_neg hfull]
    exact ⟨ho, [_], rfl, fun x hx => hm x (hx _ (List.mem_singleton_self _))⟩

lemma prim_logExt {α : Type} {p : M α} (hp : Prim p) (c : Cpu) : LogExt c (p c).2 := by
  cases hp with
  | ld a n =>
    unfold ld
    split
    · exact .refl c
    · exact memfault_logExt _ _ c
  | st a v n =>
    unfold st
    split
    · exact logWrite_logExt fun x hx => storeLE_outside hx
    · exact memfault_logExt _ _ c
  | ld128 a =>
    unfold ld128
    split
    · exact .refl c
    · exact memfault_logExt _ _ c
  | st128 a v =>
    unfold st128
    split
    · -- the copy is split at its middle: the first half between the two entries, the second after them
      have hfst : LogExt c { (logWrite a v.lo 8 c).2 with mem := storeLE c.mem a v.lo 8 } :=
        logWrite_logExt fun x hx => storeLE_outside hx
      intro w hw
      obtain ⟨w1, hw1, ho1⟩ := hfst w hw
      have hsnd : LogExt (logWrite a v.lo 8 c).2
          { (logWrite (a + 8) v.hi 8 (logWrite a v.lo 8 c).2).2 with mem := storeLE c.mem (a + 8) v.hi 8 } :=
        logWrite_logExt fun x hx => storeLE_outside hx
      obtain ⟨w2, hw2, ho2⟩ := hsnd w1 hw1
      refine ⟨w2, hw2, fun ho => ?_⟩
      obtain ⟨ho', l2, hl2, hm2⟩ := ho2 ho
      obtain ⟨ho'', l1, hl1, hm1⟩ := ho1 ho'
      refine ⟨ho'', l1 ++ l2, by rw [hl2, hl1, List.append_assoc], fun x hx => ?_⟩
      have h1 : storeLE c.mem a v.lo 8 x = c.mem x := hm1 x fun e he => hx e (List.mem_append_left _ he)
      have h2 : storeLE c.mem (a + 8) v.hi 8 x = c.mem x := hm2 x fun e he => hx e (List.mem_append_right _ he)
      show storeLE (storeLE c.mem a v.lo 8) (a + 8) v.hi 8 x = c.mem x
      unfold storeLE at h1 h2 ⊢
      split at h2
      · next hin => rw [if_pos hin, h2]
      · next hin =>
        rw [if_neg hin]
        exact h1
    · exact memfault_logExt _ _ c
  | _ => exact .of_eq rfl rfl

/-- States that the guest cannot tell apart and that hold the same log. -/
def SameLogged (c c' : Cpu) : Prop := SameGuest c c' ∧ c.wlog = c'.wlog

lemma logEntry_congr {as as' : As} (h : as'.reg = as.reg) (m : Mem) (a v : BitVec 64) (size : Nat) :
    logEntry as' m a v size = logEntry as m a v size := by
  simp only [logEntry, rsdAsOk_congr h]

lemma prim_sameLogged {α : Type} {p : M α} (hp : Prim p) {c c' : Cpu} (h : SameLogged c c') :
    (p c).1 = (p c').1 ∧ SameLogged (p c).2 (p c').2 := by
  obtain ⟨hg, hw⟩ := h
  obtain ⟨h1, h2⟩ := (prim_view hp).after hg
  refine ⟨h1, h2, ?_⟩
  have hview : view c = view c' := hg
  have hreg : c'.as.reg = c.as.reg := congrArg (fun c => c.as.reg) hview.symm
  have hmem : c'.mem = c.mem := congrArg (fun c => c.mem) hview.symm
  cases hp with
  | ld a n =>
    unfold ld
    rw [accessOk_congr hreg]
    split
    · exact hw
    · simp only [memfault_wlog, hw]
  | st a v n =>
    unfold st
    rw [accessOk_congr hreg]
    split
    · show c.wlog.map (fun w => w.add (logEntry c.as c.mem a v n)) =
        c'.wlog.map fun w => w.add (logEntry c'.as c'.mem a v n)
      rw [hw, hmem, logEntry_congr hreg]
    · simp only [memfault_wlog, hw]
  | ld128 a =>
    unfold ld128
    rw [accessOk_congr hreg]
    split
    · exact hw
    · simp only [memfault_wlog, hw]
  | st128 a v =>
    unfold st128
    rw [accessOk_congr hreg]
    split
    · show (c.wlog.map (fun w => w.add (logEntry c.as c.mem a v.lo 8))).map
          (fun w => w.add (logEntry c.as c.mem (a + 8) v.hi 8)) =
        (c'.wlog.map (fun w => w.add (logEntry c'.as c'.mem a v.lo 8))).map
          fun w => w.add (logEntry c'.as c'.mem (a + 8) v.hi 8)
      rw [hw, hmem, logEntry_congr hreg, logEntry_congr hreg]
    · simp only [memfault_wlog, hw]
  | _ => exact hw

/-! ### Interpreted steps -/

section Steps

variable (fp : Fp) (rt : Runtime) (k : Kernel)

/-- A step that is neither an import stub nor a system call. -/
def CodeStep (c : Cpu) : Prop :=
  rsdStubIndex c.stubs c.rip = none ∧ ¬ (step fp rt k c).1 matches .sys ∧ ¬ (step fp rt k c).1 matches .exit

/-- Such a step, when it does not fault, stops at a magic address or is an instruction. -/
lemma codeStep_cases {c : Cpu} (h : CodeStep fp rt k c) (hf : (step fp rt k c).2.fault = none) :
    (c.rip = callbackMagic ∧ (step fp rt k c).2 = { c with running := false }) ∨
    (c.rip = returnMagic ∧
      (step fp rt k c).2 = { c with running := false, exitCode := (c.r rax &&& 0xff).setWidth 32 }) ∨
    (c.rip ≠ callbackMagic ∧ c.rip ≠ returnMagic ∧ (step fp rt k c).2 = (stepInsn fp c).2) := by
  obtain ⟨hstub, hsys, hexit⟩ := h
  by_cases hcb : c.rip = callbackMagic
  · exact .inl ⟨hcb, by rw [step, if_pos hcb]⟩
  by_cases hret : c.rip = returnMagic
  · exact .inr (.inl ⟨hret, by rw [step, if_neg hcb, if_pos hret]⟩)
  refine .inr (.inr ⟨hcb, hret, ?_⟩)
  rw [step_code fp rt k hcb hret hstub] at hf hsys hexit ⊢
  by_cases hx : rsdAsOk c.as c.rip 1 rsdProtX
  · rw [if_pos hx] at hsys hexit ⊢
    unfold stepCode at hsys hexit ⊢
    simp only [Prog.bind_apply] at hsys hexit ⊢
    generalize stepInsn fp c = x at hsys hexit ⊢
    obtain ⟨⟨out, d⟩, c1⟩ := x
    cases out with
    | done => rfl
    | syscall =>
      simp only [Prog.bind_apply, Prog.pure_apply] at hsys hexit
      cases hs : (doSyscall k c1).1 with
      | ret => exact absurd (by rw [hs]; rfl) hsys
      | exit => exact absurd (by rw [hs]; rfl) hexit
  · rw [if_neg hx] at hf
    exact absurd hf (memfault_fault _ _ c)

def interpret (c : Cpu) : Cpu := (step fp rt k c).2

/-- A run of `n` steps without a fault, all of them code. -/
structure CodeRun (n : Nat) (c : Cpu) : Prop where
  code : ∀ i < n, CodeStep fp rt k ((interpret fp rt k)^[i] c)
  fault : ((interpret fp rt k)^[n] c).fault = none

variable {fp rt k}

lemma fault_of_iterate {n : Nat} {c : Cpu} (h : ((interpret fp rt k)^[n] c).fault = none) : c.fault = none := by
  induction n generalizing c with
  | zero => exact h
  | succ n ih =>
    by_contra hc
    exact (step_stops fp rt k c).fault.isSome hc (ih h)

namespace CodeRun

variable {n : Nat} {c : Cpu}

lemma head (h : CodeRun fp rt k (n + 1) c) :
    CodeStep fp rt k c ∧ (interpret fp rt k c).fault = none ∧ CodeRun fp rt k n (interpret fp rt k c) :=
  ⟨h.code 0 (Nat.succ_pos n), fault_of_iterate h.fault, fun i hi => h.code (i + 1) (Nat.succ_lt_succ hi), h.fault⟩

end CodeRun

lemma CodeStep.same {c c' : Cpu} (h : CodeStep fp rt k c) (hc : SameGuest c c') : CodeStep fp rt k c' := by
  have hview : view c = view c' := hc
  have hstub : rsdStubIndex c'.stubs c'.rip = rsdStubIndex c.stubs c.rip :=
    congrArg (fun c => rsdStubIndex c.stubs c.rip) hview.symm
  unfold CodeStep
  rw [hstub, ← (step_same fp rt k hc).1]
  exact h

lemma SameGuest.iterate {c c' : Cpu} (hc : SameGuest c c') (n : Nat) :
    SameGuest ((interpret fp rt k)^[n] c) ((interpret fp rt k)^[n] c') := by
  induction n generalizing c c' with
  | zero => exact hc
  | succ n ih => exact ih (step_same fp rt k hc).2

lemma SameGuest.fault_eq {c c' : Cpu} (hc : SameGuest c c') : c.fault = c'.fault := by
  have h : (view c).fault = (view c').fault := congrArg Cpu.fault hc
  exact h

lemma CodeRun.same {n : Nat} {c c' : Cpu} (h : CodeRun fp rt k n c) (hc : SameGuest c c') : CodeRun fp rt k n c' :=
  ⟨fun i hi => (h.code i hi).same (hc.iterate i), (hc.iterate n).fault_eq ▸ h.fault⟩

lemma replay_stopped {stp : Cpu → Cpu} {c : Cpu} (h : c.running = false) (n : Nat) : replay stp n c = c := by
  cases n with
  | zero => rfl
  | succ n => rw [replay, h, if_neg Bool.false_ne_true]

/-- A code step leaves the guest running, or it stays where it is. -/
lemma CodeStep.running_or_fixed {c : Cpu} (h : CodeStep fp rt k c) (hf : (interpret fp rt k c).fault = none)
    (hr : c.running = true) :
    (interpret fp rt k c).running = true ∨
      (interpret fp rt k c).running = false ∧ interpret fp rt k (interpret fp rt k c) = interpret fp rt k c := by
  unfold interpret at hf ⊢
  rcases codeStep_cases fp rt k h hf with ⟨hcb, heq⟩ | ⟨hret, heq⟩ | ⟨-, -, heq⟩
  · rw [heq]
    refine .inr ⟨rfl, ?_⟩
    rw [step, if_pos hcb]
  · rw [heq]
    refine .inr ⟨rfl, ?_⟩
    have hne : returnMagic ≠ callbackMagic := by decide
    rw [step, if_neg (hret.symm ▸ hne), if_pos hret]
  · rw [heq] at hf ⊢
    rcases (built_quiet (p := stepInsn fp) c).running with hrun | ⟨-, hne⟩
    · exact .inl (hrun.trans hr)
    · exact absurd hf hne

/-- Stopping at a magic address is all that keeps the replay from making every step, and there
further steps would change nothing. -/
lemma CodeRun.replay_eq {n : Nat} {c : Cpu} (h : CodeRun fp rt k n c) (hr : c.running = true) :
    replay (interpret fp rt k) n c = (interpret fp rt k)^[n] c := by
  induction n generalizing c with
  | zero => rfl
  | succ n ih =>
    obtain ⟨hcode, hf, hrest⟩ := h.head
    rw [replay, if_pos hr, Function.iterate_succ_apply]
    rcases hcode.running_or_fixed hf hr with hrun | ⟨hstop, hfix⟩
    · exact ih hrest hrun
    · rw [replay_stopped hstop, Function.iterate_fixed hfix]

lemma CodeStep.logExt {c : Cpu} (h : CodeStep fp rt k c) (hf : (interpret fp rt k c).fault = none) :
    LogExt c (interpret fp rt k c) := by
  unfold interpret at hf ⊢
  rcases codeStep_cases fp rt k h hf with ⟨-, heq⟩ | ⟨-, heq⟩ | ⟨-, -, heq⟩
  · exact heq ▸ .of_eq rfl rfl
  · exact heq ▸ .of_eq rfl rfl
  · rw [heq]
    exact Built.rel LogExt.refl (fun _ _ _ => .trans) (fun _ h => prim_logExt h) (IsBuilt.built (P := Prim)) c

lemma CodeRun.logExt {n : Nat} {c : Cpu} (h : CodeRun fp rt k n c) : LogExt c ((interpret fp rt k)^[n] c) := by
  induction n generalizing c with
  | zero => exact .refl c
  | succ n ih =>
    obtain ⟨hcode, hf, hrest⟩ := h.head
    exact (hcode.logExt hf).trans (ih hrest)

lemma CodeStep.sameLogged {c c' : Cpu} (h : CodeStep fp rt k c) (hf : (interpret fp rt k c).fault = none)
    (hc : SameLogged c c') : SameLogged (interpret fp rt k c) (interpret fp rt k c') := by
  have hsame : SameGuest (interpret fp rt k c) (interpret fp rt k c') := (step_same fp rt k hc.1).2
  have hf' : (interpret fp rt k c').fault = none := hsame.fault_eq ▸ hf
  refine ⟨hsame, ?_⟩
  unfold interpret at hf hf' ⊢
  have hrip : c'.rip = c.rip := by
    have hview : (view c').rip = (view c).rip := congrArg Cpu.rip (Eq.symm hc.1)
    exact hview
  have hne : returnMagic ≠ callbackMagic := by decide
  rcases codeStep_cases fp rt k h hf with ⟨hr, heq⟩ | ⟨hr, heq⟩ | ⟨hr1, hr2, heq⟩ <;>
    rcases codeStep_cases fp rt k (h.same hc.1) hf' with ⟨hr', heq'⟩ | ⟨hr', heq'⟩ | ⟨hr1', hr2', heq'⟩
  · rw [heq, heq']
    exact hc.2
  · exact absurd (hr'.symm.trans (hrip.trans hr)) hne
  · exact absurd (hrip.trans hr) hr1'
  · exact absurd (hr.symm.trans (hrip.symm.trans hr')) hne
  · rw [heq, heq']
    exact hc.2
  · exact absurd (hrip.trans hr) hr2'
  · exact absurd (hrip.symm.trans hr') hr1
  · exact absurd (hrip.symm.trans hr') hr2
  · rw [heq, heq']
    exact (Built.sim (E := SameLogged) (fun _ h _ _ => prim_sameLogged h)
      (IsBuilt.built (P := Prim) (p := stepInsn fp)) c c' hc).2.2

lemma CodeRun.sameLogged {n : Nat} {c c' : Cpu} (h : CodeRun fp rt k n c) (hc : SameLogged c c') :
    SameLogged ((interpret fp rt k)^[n] c) ((interpret fp rt k)^[n] c') := by
  induction n generalizing c c' with
  | zero => exact hc
  | succ n ih =>
    obtain ⟨hcode, hf, hrest⟩ := h.head
    exact ih hrest (hcode.sameLogged hf hc)

end Steps

/-! ### The comparison -/

/-- The sequence of writes that a log records. -/
def stores (w : WriteLog) : List (BitVec 64 × Nat × BitVec 64) := w.e.map fun e => (e.addr, e.size, e.val)

lemma sameWrite_zip_iff (l l' : List LogEntry) :
    (l.length == l'.length && (l.zip l').all fun p => p.1.sameWrite p.2) = true ↔
      (l.map fun e => (e.addr, e.size, e.val)) = l'.map fun e => (e.addr, e.size, e.val) := by
  induction l generalizing l' with
  | nil => cases l' <;> simp
  | cons e l ih =>
    cases l' with
    | nil => simp
    | cons e' l' =>
      have := ih l'
      simp only [Bool.and_eq_true, beq_iff_eq] at this
      simp only [List.length_cons, List.zip_cons_cons, List.all_cons, List.map_cons, List.cons.injEq, Prod.mk.injEq,
        LogEntry.sameWrite, Bool.and_eq_true, beq_iff_eq, Nat.add_right_cancel_iff, ← this]
      tauto

/-- Without an overflow, `mem_ok` says that the writes are the same and the windows agree. -/
lemma sameWrites_iff {j i : WriteLog} {mj m : Mem} (hj : j.overflow = false) (hi : i.overflow = false) :
    sameWrites (j.capture mj) i m = true ↔
      stores j = stores i ∧ ∀ e ∈ j.e, peek mj e.addr e.span = peek m e.addr e.span := by
  have hcap : j.capture mj = { j with e := j.e.map fun e => { e with after := peek mj e.addr e.span } } :=
    if_neg (hj ▸ Bool.false_ne_true)
  have hzip := sameWrite_zip_iff (j.capture mj).e i.e
  have hstores : ((j.capture mj).e.map fun e => (e.addr, e.size, e.val)) = stores j := by
    rw [hcap, List.map_map]
    rfl
  rw [hstores] at hzip
  have hwin : ((j.capture mj).e.all fun e => e.after == peek m e.addr e.span) = true ↔
      ∀ e ∈ j.e, peek mj e.addr e.span = peek m e.addr e.span := by
    rw [hcap]
    simp only [List.all_map, List.all_eq_true, Function.comp_apply, beq_iff_eq]
  have hover : (j.capture mj).overflow = false := by rw [hcap, hj]
  unfold sameWrites
  rw [hover, hi, Bool.false_or, Bool.false_or, Bool.false_or, Bool.and_eq_true, Bool.and_eq_true, ← hwin]
  rw [Bool.and_eq_true] at hzip
  rw [← and_assoc, hzip]
  rfl

/-- What the checker promises to compare. -/
structure SameResult (c c' : Cpu) : Prop where
  r : c.r = c'.r
  xmm : c.xmm = c'.xmm
  flags : c.flags = c'.flags
  rip : c.rip = c'.rip
  mem : c.mem = c'.mem

lemma sameState_iff {a c : Cpu} (ha : a.fault = none) (hc : c.fault = none) :
    sameState a c = true ↔ c.r = a.r ∧ c.xmm = a.xmm ∧ c.flags = a.flags ∧ c.rip = a.rip := by
  simp only [sameState, ha, hc, Option.isSome_none, Option.isNone_none, Bool.and_self, Bool.false_or, Bool.true_and,
    Bool.and_eq_true, beq_iff_eq, decide_eq_true_eq, ← funext_iff]
  tauto

lemma SameGuest.sameResult {c c' : Cpu} (h : SameGuest c c') : SameResult c c' := by
  have hview : view c = view c' := h
  exact ⟨congrArg (fun c => c.r) hview, congrArg (fun c => c.xmm) hview, congrArg (fun c => c.flags) hview,
    congrArg (fun c => c.rip) hview, congrArg (fun c => c.mem) hview⟩

/-! ### The check as a whole -/

/-- A state with an empty log attached. -/
def logged (c : Cpu) : Cpu := { c with wlog := some .empty }

/-- What a body leaves, with the address it continues at. -/
def bodyEnd (body : Cpu → BitVec 64 × Cpu) (c : Cpu) : Cpu :=
  { (body (logged c)).2 with rip := (body (logged c)).1 }

/-- Two runs that made the same writes agree everywhere if they agree inside the windows. -/
lemma mem_eq_of_windows {c cj ci : Cpu} {j i : WriteLog} (hj : BodyLog c cj j)
    (hi : ∀ x, (∀ e ∈ i.e, ¬ inWindow e.addr e.size x) → ci.mem x = c.mem x) (hstores : stores j = stores i)
    (hwin : ∀ e ∈ j.e, peek cj.mem e.addr e.span = peek ci.mem e.addr e.span) : cj.mem = ci.mem := by
  funext x
  by_cases hx : InLog j.e x
  · obtain ⟨e, he, hin⟩ := hx
    exact peek_inj (hwin e he) hin
  · rw [hj.eq_of_not_inLog hx, hi x]
    intro e he hin
    -- the interpreter's entry has a partner in the body's log, whose window is no narrower
    have hmem : (e.addr, e.size, e.val) ∈ stores j := hstores ▸ List.mem_map_of_mem he
    obtain ⟨e', he', heq⟩ := List.mem_map.mp hmem
    simp only [Prod.mk.injEq] at heq
    obtain ⟨haddr, hsize, -⟩ := heq
    refine hx ⟨e', he', inWindow_mono (hj.wellLogged e' he').2 ?_⟩
    rw [haddr, hsize]
    exact hin

section Check

variable {fp : Fp} {rt : Runtime} {k : Kernel} {body : Cpu → BitVec 64 × Cpu} {n : Nat} {c : Cpu}

/-- The replay starts from the state the block started from. -/
lemma beginCheck_same {w : WriteLog} (hb : BodyLog (logged c) (body (logged c)).2 w) :
    SameLogged (logged c) (beginCheck body c).2 := by
  have hlog : (body (logged c)).2.wlog.getD .empty = w := by rw [hb.wlog, Option.getD_some]
  have hmem : (beginCheck body c).2.mem = c.mem := by
    show undoWrites ((body (logged c)).2.wlog.getD .empty) (body (logged c)).2.mem = c.mem
    rw [hlog]
    exact hb.undo
  have has : asView (beginCheck body c).2.as = asView c.as := hb.as
  have htargets : (beginCheck body c).2.targets = c.targets := hb.targets
  refine ⟨?_, rfl⟩
  show view c = { view c with
    mem := (beginCheck body c).2.mem
    as := asView (beginCheck body c).2.as
    targets := (beginCheck body c).2.targets }
  rw [hmem, has, htargets]
  rfl

lemma finishCheck_fst (q : Check) (n : Nat) (c : Cpu) :
    (finishCheck q n c).1 = (sameState q.after { c with wlog := none } && sameWrites q.jitLog (logOf c) c.mem) := by
  unfold finishCheck
  simp only
  split
  · next h => exact h.symm
  · next h => exact (Bool.not_eq_true _ ▸ h).symm

lemma finishCheck_snd {q : Check} {n : Nat} {c : Cpu} (h : (finishCheck q n c).1 = true) :
    (finishCheck q n c).2 = { c with wlog := none, icount := c.icount + BitVec.ofNat 64 n } := by
  rw [finishCheck_fst] at h
  exact congrArg Prod.snd (if_pos h)

/-- The replay as a run of the interpreter from a state that looks like the start. -/
lemma runBlock_eq {w : WriteLog} (hb : BodyLog (logged c) (body (logged c)).2 w) (hrun : c.running = true)
    (hcode : CodeRun fp rt k n c) :
    ∃ ce, runBlock true (interpret fp rt k) body n c = finishCheck (beginCheck body c).1 n ce ∧
      SameGuest ((interpret fp rt k)^[n] c) ce ∧ logOf ce = logOf ((interpret fp rt k)^[n] (logged c)) := by
  have hstart := beginCheck_same hb
  have hsame : SameGuest c (logged c) := rfl
  have hcode0 := hcode.same hsame
  refine ⟨(interpret fp rt k)^[n] (beginCheck body c).2, ?_, (hsame.trans hstart.1).iterate n, ?_⟩
  · rw [← (hcode0.same hstart.1).replay_eq hrun]
    rfl
  · rw [logOf, ← (hcode0.sameLogged hstart).2, logOf]

/-- Memory as the interpreter leaves it, where its log names no byte. -/
lemma CodeRun.mem_eq (hcode : CodeRun fp rt k n c)
    (hover : (logOf ((interpret fp rt k)^[n] (logged c))).overflow = false) {x : BitVec 64}
    (hx : ∀ e ∈ (logOf ((interpret fp rt k)^[n] (logged c))).e, ¬ inWindow e.addr e.size x) :
    ((interpret fp rt k)^[n] c).mem x = c.mem x := by
  have hsame : SameGuest c (logged c) := rfl
  obtain ⟨w, hw, hl⟩ := (hcode.same hsame).logExt _ rfl
  have hof : logOf ((interpret fp rt k)^[n] (logged c)) = w := by rw [logOf, hw, Option.getD_some]
  rw [hof] at hover hx
  obtain ⟨-, l, hl, hmem⟩ := hl hover
  rw [(hsame.iterate n).sameResult.mem]
  exact hmem x fun e he => hx e (hl ▸ List.mem_append_right _ he)

/-- What passing the check comes down to. -/
lemma check_passes_iff {w : WriteLog} (hb : BodyLog (logged c) (body (logged c)).2 w) (hrun : c.running = true)
    (hfault : (body (logged c)).2.fault = none) (hover : w.overflow = false) (hcode : CodeRun fp rt k n c)
    (hover' : (logOf ((interpret fp rt k)^[n] (logged c))).overflow = false) :
    (runBlock true (interpret fp rt k) body n c).1 = true ↔
      sameState (bodyEnd body c) ((interpret fp rt k)^[n] c) = true ∧
        stores w = stores (logOf ((interpret fp rt k)^[n] (logged c))) ∧
        ∀ e ∈ w.e, peek (bodyEnd body c).mem e.addr e.span = peek ((interpret fp rt k)^[n] c).mem e.addr e.span := by
  obtain ⟨ce, heq, hsame, hlog⟩ := runBlock_eq hb hrun hcode
  have hce : ce.fault = none := hsame.fault_eq ▸ hcode.fault
  have hres := hsame.sameResult
  have hjit : (beginCheck body c).1.jitLog = w.capture (bodyEnd body c).mem := by
    show ((body (logged c)).2.wlog.getD .empty).capture (body (logged c)).2.mem = _
    rw [hb.wlog]
    rfl
  rw [heq, finishCheck_fst, Bool.and_eq_true, hjit, hlog, sameWrites_iff hover hover', ← hres.mem]
  refine and_congr_left fun _ => ?_
  have hend : (bodyEnd body c).fault = none := hfault
  rw [sameState_iff hend hcode.fault, hres.r, hres.xmm, hres.flags, hres.rip]
  exact sameState_iff (a := (beginCheck body c).1.after) (c := { ce with wlog := none }) hfault hce

/-- A compiled block that passes the check has done what the interpreter does, one that has done
the same by the same writes passes, and after a check that passed the interpreter's state is the
one left. -/
theorem run_block_check_sound (hrun : c.running = true) (hbody : LoggedRun (logged c) (body (logged c)).2)
    (hfault : (body (logged c)).2.fault = none) (hover : (logOf (bodyEnd body c)).overflow = false)
    (hcode : CodeRun fp rt k n c) (hover' : (logOf ((interpret fp rt k)^[n] (logged c))).overflow = false) :
    ((runBlock true (interpret fp rt k) body n c).1 = true →
      SameResult (bodyEnd body c) ((interpret fp rt k)^[n] c)) ∧
    (SameResult (bodyEnd body c) ((interpret fp rt k)^[n] c) →
      stores (logOf (bodyEnd body c)) = stores (logOf ((interpret fp rt k)^[n] (logged c))) →
      (runBlock true (interpret fp rt k) body n c).1 = true) ∧
    ((runBlock true (interpret fp rt k) body n c).1 = true →
      SameGuest (runBlock true (interpret fp rt k) body n c).2
        { (interpret fp rt k)^[n] c with
          icount := ((interpret fp rt k)^[n] c).icount + BitVec.ofNat 64 n }) := by
  obtain ⟨w, hb⟩ := hbody.bodyLog rfl
  have hlog : logOf (bodyEnd body c) = w := by
    show (body (logged c)).2.wlog.getD .empty = w
    rw [hb.wlog, Option.getD_some]
  rw [hlog] at hover ⊢
  have hend : (bodyEnd body c).fault = none := hfault
  have hpass := check_passes_iff hb hrun hfault hover hcode hover'
  rw [sameState_iff hend hcode.fault] at hpass
  refine ⟨fun h => ?_, fun h hstores => ?_, fun h => ?_⟩
  · obtain ⟨⟨hr, hxmm, hflags, hrip⟩, hstores, hwin⟩ := hpass.mp h
    have hmem : (body (logged c)).2.mem = ((interpret fp rt k)^[n] c).mem :=
      mem_eq_of_windows hb (fun x hx => hcode.mem_eq hover' hx) hstores hwin
    exact ⟨hr.symm, hxmm.symm, hflags.symm, hrip.symm, hmem⟩
  · refine hpass.mpr ⟨⟨h.r.symm, h.xmm.symm, h.flags.symm, h.rip.symm⟩, hstores, fun e _ => ?_⟩
    rw [h.mem]
  · obtain ⟨ce, heq, hsame, -⟩ := runBlock_eq hb hrun hcode
    rw [heq] at h ⊢
    rw [finishCheck_snd h]
    have hview : view ((interpret fp rt k)^[n] c) = view ce := hsame
    exact congrArg (fun v : Cpu => { v with icount := v.icount + BitVec.ofNat 64 n }) hview.symm

end Check

/-- A page of `push rax`, which is also its stack. -/
def pushCpu : Cpu := { nopCpu with
  mem := fun _ => 0x50
  r := fun i => if i = rsp then 0x1800 else 0 }

/-- A body for one `push rax`. -/
def pushBody (c : Cpu) : BitVec 64 × Cpu :=
  (c.rip + 1, (do pokeMem (c.r rsp - 8) (c.r rax) 8; wrR rsp (c.r rsp - 8)) (logWrite (c.r rsp - 8) (c.r rax) 8 c).2 |>.2)

lemma pushBody_logged : LoggedRun (logged pushCpu) (pushBody (logged pushCpu)).2 := by
  have hlog : LoggedRun (logged pushCpu) (logWrite 0x17f8 0 8 (logged pushCpu)).2 := .log _ _ .start (by decide)
  have hstore := hlog.store (m := storeLE pushCpu.mem 0x17f8 0 8) fun x hx => storeLE_outside fun hin =>
    hx ⟨logEntry pushCpu.as pushCpu.mem 0x17f8 0 8, List.mem_singleton_self _, inWindow_mono (by decide) hin⟩
  exact hstore.other rfl rfl rfl rfl

lemma pushCpu_codeRun : CodeRun sampleFp sampleRuntime sampleKernel 1 pushCpu := by
  refine ⟨fun i hi => ?_, by decide⟩
  obtain rfl : i = 0 := Nat.lt_one_iff.mp hi
  exact ⟨by decide, by decide, by decide⟩

theorem run_block_check_sound_push :
    LoggedRun (logged pushCpu) (pushBody (logged pushCpu)).2 ∧
      CodeRun sampleFp sampleRuntime sampleKernel 1 pushCpu ∧
      SameResult (bodyEnd pushBody pushCpu) ((interpret sampleFp sampleRuntime sampleKernel)^[1] pushCpu) :=
  ⟨pushBody_logged, pushCpu_codeRun,
    (run_block_check_sound rfl pushBody_logged rfl rfl pushCpu_codeRun (by decide)).1 (by decide)⟩

end Rashid.Proofs
