import Rashid.Lib.FillOnce
import Rashid.Proofs.UndoRestores

/-!
# The block cache over a run

A slot that holds a block is never written again, so that the arena is filled from one end, a block
stays where it is for the rest of the run, and every block was compiled at the address that it is
entered for, at a time when the guest was there.
-/

namespace Rashid.Proofs

open Conf

/-- What a slot holds: a slot whose tag only remembers a failure holds nothing. -/
def held (e : JitEntry) : Option JitEntry := if e.code.isSome then some e else none

def table (j : Jit) (s : Fin 4096) : Option JitEntry := held (j.cache s)

/-- The bytes of a block in the arena. -/
def blockBytes (e : JitEntry) : Nat := (e.code.map List.length).getD 0 * 4

lemma held_of_code {e : JitEntry} {code : List A64} (h : e.code = some code) : held e = some e := by
  unfold held
  rw [h]
  rfl

lemma held_of_none {e : JitEntry} (h : e.code = none) : held e = none := by
  unfold held
  rw [h]
  rfl

lemma held_some {e x : JitEntry} (h : held e = some x) : e = x ∧ ∃ code, e.code = some code := by
  unfold held at h
  split at h
  · next hs => exact ⟨Option.some.inj h, Option.isSome_iff_exists.mp hs⟩
  · cases h

/-! ### Lookups -/

/-- The entry of a block just compiled. -/
def newEntry (c : Cpu) (rip : BitVec 64) (code : List A64) (v : List Insn) : JitEntry :=
  ⟨rip, some code, v.length, originsFrom c.mem rip v⟩

section Lookup

variable {lk : Link} {check : Bool} {c : Cpu} {rip : BitVec 64} {j : Jit}

/-- What a lookup makes of the cache: nothing, a failure noted in an empty slot, or a block in one. -/
lemma lookup_cases (lk : Link) (check : Bool) (c : Cpu) (rip : BitVec 64) (j : Jit) :
    (rsdJitLookup lk check c rip j).2 = j ∨
    (j.cache (slotOf rip)).code = none ∧ (rsdJitLookup lk check c rip j).2 = j.bail rip ∨
    (j.cache (slotOf rip)).code = none ∧ ∃ code v, compileBlock lk check c rip = some (code, v) ∧
      j.used + code.length * 4 ≤ j.size ∧ (rsdJitLookup lk check c rip j).2 =
        { j.set (slotOf rip) (newEntry c rip code v) with used := j.used + code.length * 4 } := by
  unfold rsdJitLookup
  simp only
  split
  · exact .inl rfl
  split
  · exact .inl rfl
  next hcode =>
  have hnone : (j.cache (slotOf rip)).code = none := Option.not_isSome_iff_eq_none.mp hcode
  split
  · exact .inl rfl
  split
  · exact .inl rfl
  cases hc : compileBlock lk check c rip with
  | none => exact .inr (.inl ⟨hnone, rfl⟩)
  | some r =>
    simp only
    split
    · exact .inl rfl
    · next hroom => exact .inr (.inr ⟨hnone, r.1, r.2, rfl, Nat.not_lt.mp hroom, rfl⟩)

lemma table_set (j : Jit) (i : Fin 4096) (e : JitEntry) : table (j.set i e) = Function.update (table j) i (held e) := by
  funext s
  by_cases hs : s = i
  · rw [hs, Function.update_self]
    exact congrArg held (Function.update_self ..)
  · rw [Function.update_of_ne hs]
    exact congrArg held (Function.update_of_ne hs ..)

lemma table_bail (h : (j.cache (slotOf rip)).code = none) : table (j.bail rip) = table j := by
  unfold Jit.bail
  rw [table_set]
  have hsame : held { j.cache (slotOf rip) with tag := rip, code := none } = table j (slotOf rip) := (held_of_none h).symm
  rw [hsame, Function.update_eq_self]

/-- The arena is used for what the slots hold, and a slot holds blocks for addresses that hash to it. -/
structure Accounted (j : Jit) : Prop where
  size : j.size = arenaSize
  used : j.used = room blockBytes (table j)
  fits : j.used ≤ j.size
  slot : ∀ s e, table j s = some e → slotOf e.tag = s

lemma accounted_init : Accounted rsdJitInit where
  size := rfl
  used := (room_empty blockBytes).symm
  fits := Nat.zero_le _
  slot _ _ h := nomatch h

lemma Accounted.lookup (h : Accounted j) : Accounted (rsdJitLookup lk check c rip j).2 := by
  rcases lookup_cases lk check c rip j with heq | ⟨hnone, heq⟩ | ⟨hnone, code, v, -, hroom, heq⟩
  · rwa [heq]
  · rw [heq]
    have htable := table_bail hnone
    exact ⟨h.size, by rw [htable]; exact h.used, h.fits, by rw [htable]; exact h.slot⟩
  · have hempty : table j (slotOf rip) = none := held_of_none hnone
    have hnew : held (newEntry c rip code v) = some (newEntry c rip code v) := held_of_code rfl
    have htable : table (rsdJitLookup lk check c rip j).2 =
        Function.update (table j) (slotOf rip) (some (newEntry c rip code v)) := by
      rw [heq, ← hnew, ← table_set]
      rfl
    refine ⟨?_, ?_, ?_, ?_⟩
    · rw [heq]
      exact h.size
    · rw [htable, room_fill blockBytes hempty, ← h.used, heq]
      rfl
    · rw [heq]
      exact hroom
    · intro s e he
      rw [htable] at he
      by_cases hs : s = slotOf rip
      · rw [hs, Function.update_self] at he
        rw [hs, ← Option.some.inj he]
        rfl
      · rw [Function.update_of_ne hs] at he
        exact h.slot s e he

lemma lookup_kept (lk : Link) (check : Bool) (c : Cpu) (rip : BitVec 64) (j : Jit) :
    KeptIn (table j) (table (rsdJitLookup lk check c rip j).2) := by
  rcases lookup_cases lk check c rip j with heq | ⟨hnone, heq⟩ | ⟨hnone, code, v, -, -, heq⟩
  · rw [heq]
    exact .refl _
  · rw [heq, table_bail hnone]
    exact .refl _
  · have hempty : table j (slotOf rip) = none := held_of_none hnone
    have htable : table (rsdJitLookup lk check c rip j).2 =
        Function.update (table j) (slotOf rip) (some (newEntry c rip code v)) := by
      rw [heq, ← held_of_code (e := newEntry c rip code v) rfl, ← table_set]
      rfl
    rw [htable]
    exact .fill hempty _

/-- A block that a lookup finds is in the slot of its address. -/
lemma lookup_found {code : List A64} (h : (rsdJitLookup lk check c rip j).1 = some code) :
    ((rsdJitLookup lk check c rip j).2.cache (slotOf rip)).tag = rip ∧
      ((rsdJitLookup lk check c rip j).2.cache (slotOf rip)).code = some code := by
  revert h
  unfold rsdJitLookup
  simp only
  split
  · next htag => exact fun h => ⟨htag, h⟩
  split
  · nofun
  split
  · nofun
  split
  · nofun
  cases compileBlock lk check c rip with
  | none => nofun
  | some r =>
    simp only
    split
    · nofun
    · intro h
      simp only [cache_set]
      exact ⟨trivial, h⟩

/-- A block that a lookup adds has just been compiled. -/
lemma lookup_new {s : Fin 4096} {e : JitEntry} (h : table (rsdJitLookup lk check c rip j).2 s = some e) :
    table j s = some e ∨ ∃ code v, compileBlock lk check c rip = some (code, v) ∧ e = newEntry c rip code v := by
  rcases lookup_cases lk check c rip j with heq | ⟨hnone, heq⟩ | ⟨-, code, v, hcomp, -, heq⟩
  · rw [heq] at h
    exact .inl h
  · rw [heq, table_bail hnone] at h
    exact .inl h
  · have htable : table (rsdJitLookup lk check c rip j).2 =
        Function.update (table j) (slotOf rip) (some (newEntry c rip code v)) := by
      rw [heq, ← held_of_code (e := newEntry c rip code v) rfl, ← table_set]
      rfl
    rw [htable] at h
    by_cases hs : s = slotOf rip
    · rw [hs, Function.update_self] at h
      exact .inr ⟨code, v, hcomp, (Option.some.inj h).symm⟩
    · rw [Function.update_of_ne hs] at h
      exact .inl h

end Lookup

/-! ### Transitions -/

section Runs

variable {env : Env} {oracle : Nat → Input} {i : Input} {s : Conf} {j : Jit}

lemma dispatch_jit (hj : s.jit = some j) :
    (dispatch env i s).jit = some (rsdJitLookup env.lk env.jitCheck s.cpu s.cpu.rip j).2 := by
  unfold dispatch
  rw [hj]
  simp only
  generalize rsdJitLookup env.lk env.jitCheck s.cpu s.cpu.rip j = r
  obtain ⟨code, j'⟩ := r
  cases code with
  | none => exact interp_jit
  | some code => exact block_jit code

/-- A transition leaves the cache alone, or looks up where the guest is. -/
lemma next_lookup (env : Env) (i : Input) (hj : s.jit = some j) : (next env i s).jit = some j ∨
    (next env i s).jit = some (rsdJitLookup env.lk env.jitCheck s.cpu s.cpu.rip j).2 := by
  unfold next
  split
  · exact .inl ((nativeAct_jit i.act).trans hj)
  · split
    · split
      · exact .inr (dispatch_jit hj)
      · exact .inl hj
    · split
      · exact .inl (interp_jit.trans hj)
      · exact .inl (endReplay_jit.trans hj)
    · split
      · exact .inl (interp_jit.trans hj)
      · exact .inl hj

/-- The blocks a run has come with were compiled when the guest was where they start. -/
def MadeBy (env : Env) (at_ : Nat → Cpu) (n : Nat) (e : JitEntry) : Prop :=
  ∃ m < n, ∃ code v, (at_ m).rip = e.tag ∧ compileBlock env.lk env.jitCheck (at_ m) e.tag = some (code, v) ∧
    e = newEntry (at_ m) e.tag code v

/-- The caches of a run. -/
structure CacheAt (env : Env) (at_ : Nat → Cpu) (n : Nat) (j : Jit) : Prop where
  accounted : Accounted j
  made : ∀ s e, table j s = some e → MadeBy env at_ n e

lemma cache_run (env : Env) (oracle : Nat → Input) (c : Cpu) (n : Nat) :
    ∃ j, (run env oracle n (Conf.start c (some rsdJitInit))).jit = some j ∧
      CacheAt env (fun m => (run env oracle m (Conf.start c (some rsdJitInit))).cpu) n j := by
  induction n with
  | zero => exact ⟨rsdJitInit, rfl, accounted_init, fun _ _ h => nomatch h⟩
  | succ n ih =>
    obtain ⟨j, hj, hacc, hmade⟩ := ih
    have hkeep (s : Fin 4096) (e : JitEntry) (h : table j s = some e) :
        MadeBy env (fun m => (run env oracle m (Conf.start c (some rsdJitInit))).cpu) (n + 1) e := by
      obtain ⟨m, hm, hrest⟩ := hmade s e h
      exact ⟨m, Nat.lt_succ_of_lt hm, hrest⟩
    rw [run_succ]
    rcases next_lookup env (oracle _) hj with heq | heq
    · exact ⟨j, heq, hacc, hkeep⟩
    · refine ⟨_, heq, hacc.lookup, fun s e he => ?_⟩
      rcases lookup_new he with hold | ⟨code, v, hcomp, rfl⟩
      · exact hkeep s e hold
      · exact ⟨n, Nat.lt_succ_self n, code, v, rfl, hcomp, rfl⟩

/-- In every state of a run the used part of the arena is made up of the blocks in the cache and is no
larger than the arena, every block is in the slot its address hashes to, and it was compiled at that
address in an earlier state of the run, with the guest there. -/
theorem cache_accounted (env : Env) (oracle : Nat → Input) (c : Cpu) (n : Nat) :
    ∃ j, (run env oracle n (Conf.start c (some rsdJitInit))).jit = some j ∧
      j.used = ∑ s, ((j.cache s).code.map List.length).getD 0 * 4 ∧ j.used ≤ arenaSize ∧
      ∀ s code, (j.cache s).code = some code → slotOf (j.cache s).tag = s ∧
        ∃ m < n, ∃ v, let c' := (run env oracle m (Conf.start c (some rsdJitInit))).cpu
          c'.rip = (j.cache s).tag ∧ compileBlock env.lk env.jitCheck c' (j.cache s).tag = some (code, v) ∧
          (j.cache s).count = v.length ∧ (j.cache s).origin = originsFrom c'.mem (j.cache s).tag v := by
  obtain ⟨j, hj, hacc, hmade⟩ := cache_run env oracle c n
  refine ⟨j, hj, ?_, hacc.size ▸ hacc.fits, fun s code hcode => ?_⟩
  · rw [hacc.used]
    refine Finset.sum_congr rfl fun s _ => ?_
    unfold table held
    cases hcode : (j.cache s).code with
    | none => rfl
    | some code =>
      show blockBytes (j.cache s) = _
      unfold blockBytes
      rw [hcode]
  · have hheld : table j s = some (j.cache s) := held_of_code hcode
    obtain ⟨m, hm, code', v, hrip, hcomp, he⟩ := hmade s _ hheld
    have hsame : code' = code := by
      rw [he] at hcode
      exact Option.some.inj hcode
    subst hsame
    refine ⟨hacc.slot s _ hheld, m, hm, v, hrip, hcomp, ?_, ?_⟩
    · rw [he]
      rfl
    · rw [he]
      rfl

lemma run_kept (env : Env) (oracle : Nat → Input) {s : Conf} {j : Jit} (hj : s.jit = some j) (k : Nat) :
    ∃ j', (run env oracle k s).jit = some j' ∧ KeptIn (table j) (table j') := by
  induction k with
  | zero => exact ⟨j, hj, .refl _⟩
  | succ k ih =>
    obtain ⟨j1, hj1, hkept⟩ := ih
    rw [run_succ]
    rcases next_lookup env (oracle _) hj1 with heq | heq
    · exact ⟨j1, heq, hkept⟩
    · exact ⟨_, heq, hkept.trans (lookup_kept _ _ _ _ _)⟩

/-- Once a lookup has found a block, every lookup for that address finds it in every later state of the
run, with the same number of instructions, whatever the guest has done to the memory that it was
compiled from. -/
theorem found_forever (env : Env) (c : Cpu) (rip : BitVec 64) (j : Jit) (code : List A64)
    (hfound : (rsdJitLookup env.lk env.jitCheck c rip j).1 = some code)
    (hj : s.jit = some (rsdJitLookup env.lk env.jitCheck c rip j).2) (oracle : Nat → Input) (k : Nat) :
    ∃ j', (run env oracle k s).jit = some j' ∧ ∀ c', rsdJitLookup env.lk env.jitCheck c' rip j' = (some code, j') ∧
      rsdJitCount j' rip = rsdJitCount (rsdJitLookup env.lk env.jitCheck c rip j).2 rip := by
  obtain ⟨htag, hcode⟩ := lookup_found hfound
  obtain ⟨j', hj', hkept⟩ := run_kept env oracle hj k
  obtain ⟨hsame, -⟩ := held_some (hkept _ _ (held_of_code hcode))
  refine ⟨j', hj', fun c' => ⟨?_, ?_⟩⟩
  · unfold rsdJitLookup
    rw [hsame, if_pos htag, hcode]
  · unfold rsdJitCount
    rw [hsame]

end Runs

/-- The block that is found once is still there when the oracle has made the native function call back
five hundred times. -/
theorem found_forever_fall : ∃ code j', (run fallEnv (fun _ => fallInput) 1542
    { Conf.start fallCpu none with jit := some (rsdJitLookup sampleLink true fallCpu 0x1fff rsdJitInit).2 }).jit =
      some j' ∧
      rsdJitLookup sampleLink true fallCpu 0x1fff j' = (some code, j') := by
  obtain ⟨code, j1, hlookup, -, -⟩ := fall_lookup
  obtain ⟨j', hj', h⟩ := found_forever fallEnv
    (s := { Conf.start fallCpu none with jit := some (rsdJitLookup sampleLink true fallCpu 0x1fff rsdJitInit).2 })
    fallCpu 0x1fff rsdJitInit code (congrArg Prod.fst hlookup) rfl (fun _ => fallInput) 1542
  exact ⟨code, j', hj', (h fallCpu).1⟩

end Rashid.Proofs
