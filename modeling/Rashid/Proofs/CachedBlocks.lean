import Rashid.Proofs.Callbacks
import Rashid.Proofs.CompiledBlocks

/-!
# Blocks in the cache

Every block that a run enters has been compiled, and its entry says how many instructions it has.
-/

namespace Rashid.Proofs

open Conf

/-- A block that the compiler has made, with the number of its instructions. -/
def Compiled (lk : Link) (check : Bool) (code : List A64) (n : Nat) : Prop :=
  ∃ c rip v, compileBlock lk check c rip = some (code, v) ∧ v.length = n

/-- What the entries of a cache hold has been compiled. -/
def CacheOk (lk : Link) (check : Bool) (j : Jit) : Prop :=
  ∀ s code, (j.cache s).code = some code → Compiled lk check code (j.cache s).count

def JitOk (lk : Link) (check : Bool) (j : Option Jit) : Prop := ∀ x ∈ j, CacheOk lk check x

section Cache

variable {lk : Link} {check : Bool} {j : Jit}

lemma cacheOk_init : CacheOk lk check rsdJitInit := fun _ _ h => nomatch h

lemma jitOk_none : JitOk lk check none := fun _ h => nomatch h

lemma CacheOk.some (h : CacheOk lk check j) : JitOk lk check (some j) := fun _ hx => Option.mem_some_iff.mp hx ▸ h

lemma cache_set (j : Jit) (i : Fin 4096) (e : JitEntry) : (j.set i e).cache i = e := Function.update_self ..

lemma CacheOk.set (h : CacheOk lk check j) {e : JitEntry}
    (he : ∀ code, e.code = Option.some code → Compiled lk check code e.count)
    (i : Fin 4096) : CacheOk lk check (j.set i e) := by
  intro s code hs
  by_cases hi : s = i
  · subst hi
    rw [cache_set] at hs ⊢
    exact he code hs
  · have hne : (j.set i e).cache s = j.cache s := Function.update_of_ne hi ..
    rw [hne] at hs ⊢
    exact h s code hs

/-- A lookup keeps the cache, and what it finds is what the count is about. -/
lemma lookup_ok (h : CacheOk lk check j) (c : Cpu) (rip : BitVec 64) :
    CacheOk lk check (rsdJitLookup lk check c rip j).2 ∧
      ∀ code, (rsdJitLookup lk check c rip j).1 = Option.some code →
        Compiled lk check code (rsdJitCount (rsdJitLookup lk check c rip j).2 rip) := by
  have hkeep : CacheOk lk check j ∧ ∀ code, (none : Option (List A64)) = Option.some code →
      Compiled lk check code (rsdJitCount j rip) := ⟨h, fun _ hc => nomatch hc⟩
  unfold rsdJitLookup
  simp only
  split
  · next htag =>
    refine ⟨h, fun code hcode => ?_⟩
    rw [rsdJitCount, if_pos htag]
    exact h _ code hcode
  · split
    · exact hkeep
    · split
      · exact hkeep
      · split
        · exact hkeep
        · cases hc : compileBlock lk check c rip with
          | none =>
            refine ⟨h.set (fun code hcode => ?_) _, fun _ hcode => nomatch hcode⟩
            cases hcode
          | some r =>
            obtain ⟨code, v⟩ := r
            have hcomp : Compiled lk check code v.length := ⟨c, rip, v, hc, rfl⟩
            simp only
            split
            · exact hkeep
            · refine ⟨?_, fun code' hcode => ?_⟩
              · exact h.set (fun code' hcode => Option.some.inj hcode ▸ hcomp) _
              · obtain rfl := Option.some.inj hcode
                rw [rsdJitCount]
                simp only [cache_set, if_true]
                exact hcomp

/-- The main loop interprets an instruction, or enters a compiled block. -/
lemma dispatch_cases (env : Env) (i : Input) (s : Conf) (h : JitOk env.lk env.jitCheck s.jit) :
    ∃ j, JitOk env.lk env.jitCheck j ∧ (dispatch env i s = interp env i { s with jit := j } ∨
      ∃ code n, Compiled env.lk env.jitCheck code n ∧ dispatch env i s = block env code n { s with jit := j }) := by
  cases hj : s.jit with
  | none =>
    refine ⟨none, jitOk_none, .inl ?_⟩
    have hs : { s with jit := none } = s := by rw [← hj]
    rw [hs]
    unfold dispatch
    rw [hj]
  | some j =>
    obtain ⟨hok, hfound⟩ := lookup_ok (h j hj) s.cpu s.cpu.rip
    refine ⟨some (rsdJitLookup env.lk env.jitCheck s.cpu s.cpu.rip j).2, hok.some, ?_⟩
    unfold dispatch
    rw [hj]
    simp only
    generalize rsdJitLookup env.lk env.jitCheck s.cpu s.cpu.rip j = r at hok hfound ⊢
    obtain ⟨code, j'⟩ := r
    cases code with
    | none => exact .inl rfl
    | some code => exact .inr ⟨code, _, hfound code rfl, rfl⟩

end Cache

/-! ### Entering them -/

/-- Compiled code is entered with the machine's own routines, whatever the other registers hold. -/
structure Enters (env : Env) (aenv : A64Env) : Prop where
  lk : aenv.lk = env.lk
  fp : aenv.fp = env.fp
  enter (code : List A64) (c : Cpu) : ∃ start, ∀ r, rsdJitEnter aenv start code c = some r → env.enter code c = r

/-- What a compiled block does when it is entered. -/
lemma Enters.compiled {env : Env} {aenv : A64Env} (h : Enters env aenv) {check : Bool} {R : Nat → Cpu → Cpu → Prop}
    (he : Effect env.fp check R) {code : List A64} {n : Nat} (hc : Compiled env.lk check code n) (c : Cpu) :
    n ≤ maxInsns ∧ R (4 * n) c (env.enter code c).2 := by
  obtain ⟨c0, rip, v, hv, rfl⟩ := hc
  rw [← h.lk] at hv
  rw [← h.fp] at he
  obtain ⟨hlen, hends⟩ := compiled_ends he hv
  obtain ⟨start, hstart⟩ := h.enter code c
  obtain ⟨r, hr, hR⟩ := hends start c
  rw [hstart r hr]
  exact ⟨hlen, hR⟩

/-! ### Runs -/

section Runs

variable {env : Env} {oracle : Nat → Input}

/-- What every transition keeps holds throughout a run. -/
lemma run_keeps {I : Conf → Prop} (hnext : ∀ i s, I s → I (next env i s)) {s : Conf} (hs : I s) (n : Nat) :
    I (run env oracle n s) := by
  induction n generalizing s with
  | zero => exact hs
  | succ n ih => exact ih (hnext _ s hs)

lemma run_add (m n : Nat) (s : Conf) : run env oracle (m + n) s = run env oracle n (run env oracle m s) := by
  induction m generalizing s with
  | zero => rw [Nat.zero_add]; rfl
  | succ m ih =>
    rw [Nat.succ_add]
    exact ih (next env (oracle s.asked) s)

end Runs

/-! ### Transitions

Only a lookup changes the cache, and only the main loop starts a replay. -/

section Transitions

variable {env : Env} {i : Input} {s : Conf} {k : Check} {n done : Nat}

lemma afterStep_jit : (afterStep env s).jit = s.jit := by
  unfold afterStep
  simp only
  split <;> rfl

lemma afterStep_base (h : (afterStep env s).base = .replay k n done) : ∃ d, s.base = .replay k n d := by
  unfold afterStep at h
  simp only at h
  split at h
  · exact ⟨done, h⟩
  · next hbase => exact absurd (hbase.symm.trans h) nofun
  · next hbase =>
    obtain ⟨rfl, rfl, -⟩ := Base.replay.inj h
    exact ⟨_, hbase⟩

lemma interp_jit : (interp env i s).jit = s.jit := by
  rcases interp_cases env i s with ⟨-, h⟩ | ⟨-, a, h⟩
  · rw [h]
    rfl
  · rw [h, afterStep_jit]
    rfl

lemma interp_base (h : (interp env i s).base = .replay k n done) : ∃ d, s.base = .replay k n d := by
  rcases interp_cases env i s with ⟨-, heq⟩ | ⟨-, a, heq⟩
  · rw [heq] at h
    exact ⟨done, h⟩
  · rw [heq] at h
    exact afterStep_base (s := { stepped env i s with asked := a }) h

lemma nativeAct_jit (act : NativeAct) : (nativeAct env act s).jit = s.jit := by
  cases act with
  | callback index x d =>
    simp only [nativeAct]
    split <;> rfl
  | write a bytes => rfl
  | ret r => exact afterStep_jit

lemma nativeAct_base {act : NativeAct} (h : (nativeAct env act s).base = .replay k n done) :
    ∃ d, s.base = .replay k n d := by
  cases act with
  | callback index x d =>
    simp only [nativeAct] at h
    split at h
    · exact ⟨done, h⟩
    · exact ⟨done, h⟩
  | write a bytes => exact ⟨done, h⟩
  | ret r =>
    exact afterStep_base (s := { s with asked := s.asked + 1, cpu := (finishNativeCall r s.cpu).2, mode := .guest }) h

lemma endReplay_jit : (endReplay env k n s).jit = s.jit := by
  unfold endReplay
  split <;> rfl

lemma endReplay_base {k' : Check} {n' : Nat} : (endReplay env k' n' s).base = .main := by
  unfold endReplay
  split <;> rfl

lemma block_jit (code : List A64) : (block env code n s).jit = s.jit := by
  unfold block
  split <;> rfl

lemma next_jit (h : JitOk env.lk env.jitCheck s.jit) : JitOk env.lk env.jitCheck (next env i s).jit := by
  unfold next
  split
  · rwa [nativeAct_jit]
  · split
    · split
      · obtain ⟨j, hj, heq | ⟨code, n, -, heq⟩⟩ := dispatch_cases env i s h
        · rwa [heq, interp_jit]
        · rwa [heq, block_jit]
      · exact h
    · split
      · rwa [interp_jit]
      · rwa [endReplay_jit]
    · split
      · rwa [interp_jit]
      · exact h

/-- A transition that leaves a replay going carries it on, or has entered the block. -/
lemma next_base (hjit : JitOk env.lk env.jitCheck s.jit) (h : (next env i s).base = .replay k n done) :
    (∃ d, s.base = .replay k n d) ∨ s.mode = .guest ∧ s.frames = [] ∧ s.base = .main ∧
      ∃ code m j, Compiled env.lk env.jitCheck code m ∧ next env i s = block env code m { s with jit := j } := by
  have hnext : next env i s = next env i s := rfl
  conv_rhs at hnext => unfold next
  cases hmode : s.mode with
  | native =>
    simp only [hmode] at hnext
    exact .inl (nativeAct_base (hnext ▸ h))
  | guest =>
    cases hframes : s.frames with
    | cons f rest =>
      simp only [hmode, hframes] at hnext
      split at hnext
      · exact .inl (interp_base (hnext ▸ h))
      · rw [hnext] at h
        exact .inl ⟨done, h⟩
    | nil =>
      cases hbase : s.base with
      | replay k' n' d =>
        simp only [hmode, hframes, hbase] at hnext
        split at hnext
        · left
          rw [← hbase]
          exact interp_base (hnext ▸ h)
        · rw [hnext, endReplay_base] at h
          cases h
      | main =>
        simp only [hmode, hframes, hbase] at hnext
        split at hnext
        · obtain ⟨j, -, heq | ⟨code, m, hc, heq⟩⟩ := dispatch_cases env i s hjit
          · rw [hnext, heq] at h
            obtain ⟨d, hd⟩ := interp_base h
            exact absurd (hbase.symm.trans hd) nofun
          · refine .inr ⟨rfl, rfl, rfl, code, m, j, hc, ?_⟩
            rw [hnext, heq, hmode, hframes, hbase]
        · rw [hnext] at h
          exact absurd (hbase.symm.trans h) nofun

end Transitions

end Rashid.Proofs
