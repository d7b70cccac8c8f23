import Rashid.Proofs.InsnLength
import Rashid.Proofs.Stops

/-!
# A native call, seen by the guest

Whatever a native function calls back, and whatever the guest functions called back call in their
turn, each frame puts back what it found. The frames between the call and its return form a stack
whose last is the one of the call itself.
-/

namespace Rashid.Proofs

open Conf

/-! ### Where a callback's frame goes -/

section Frame

variable (sp : BitVec 64)

/-- What the alignment cuts off. -/
def cutOff : BitVec 64 := (sp - 256) &&& 15

lemma and_not_fifteen (x : BitVec 64) : x &&& ~~~15 = x - (x &&& 15) := by
  have hdisj : (x &&& ~~~15) &&& (x &&& 15) = 0#64 := by
    rw [BitVec.and_comm x 15, ← BitVec.and_assoc, BitVec.and_assoc x, BitVec.and_comm _ (15 : BitVec 64)]
    simp
  have hor : (x &&& ~~~15) ||| (x &&& 15) = x := by
    ext i hi
    simp only [BitVec.getElem_or, BitVec.getElem_and, BitVec.getElem_not]
    cases x[i] <;> simp
  have hsum : (x &&& ~~~15) + (x &&& 15) = x := by
    rw [BitVec.add_eq_or_of_and_eq_zero _ _ hdisj, hor]
  rw [eq_comm, BitVec.sub_eq_iff_eq_add, hsum]

lemma cutOff_lt : (cutOff sp).toNat < 16 := by
  unfold cutOff
  rw [BitVec.toNat_and]
  exact Nat.lt_of_le_of_lt Nat.and_le_right (by decide)

lemma sub_callbackSp : sp - callbackSp sp = cutOff sp + 264 := by
  unfold callbackSp cutOff
  rw [and_not_fifteen]
  generalize (sp - 256) &&& 15 = x
  have h : (264 : BitVec 64) = 256 + 8 := by decide
  rw [h]
  bv_omega

lemma callbackSp_distance : (sp - callbackSp sp).toNat = (cutOff sp).toNat + 264 := by
  have h := cutOff_lt sp
  rw [sub_callbackSp, BitVec.toNat_add]
  exact Nat.mod_eq_of_lt (by simp; omega)

lemma callbackSp_aligned : (callbackSp sp).toNat % 16 = 8 := by
  have hlow : ((sp - 256) &&& ~~~15).toNat % 16 = 0 := by
    have h : (((sp - 256) &&& ~~~15) &&& 15 : BitVec 64) = 0 := by
      rw [BitVec.and_assoc]
      simp
    have h2 := congrArg BitVec.toNat h
    rw [BitVec.toNat_and] at h2
    exact (Nat.and_two_pow_sub_one_eq_mod _ 4).symm.trans h2
  unfold callbackSp
  generalize (sp - 256) &&& ~~~15 = x at hlow
  bv_omega

end Frame

/-- What holds of a callback that is entered in `c` and starts in `c'`. -/
structure EnteredBelow (c c' : Cpu) : Prop where
  aligned : (c'.r rsp).toNat % 16 = 8
  distance : 256 ≤ (c.r rsp - c'.r rsp).toNat
  /-- Memory is as it was from 256 bytes below the interrupted stack pointer up. -/
  mem : ∀ a : BitVec 64, (a - (c.r rsp - 256)).toNat < 2 ^ 64 - 23 → c'.mem a = c.mem a

lemma st_mem_outside {a v x : BitVec 64} {n : Nat} (c : Cpu) (h : ¬ inWindow a n x) : (st a v n c).2.mem x = c.mem x := by
  simp only [st]
  split
  · exact storeLE_outside h
  · obtain ⟨_, _, _, _, heq⟩ := memfault_eq a (why c.as a (BitVec.ofNat 64 n)) c
    rw [heq]

lemma enterCallback_below (target : BitVec 64) (x d : List (BitVec 64)) (c : Cpu) :
    EnteredBelow c (enterCallback target x d c).2 := by
  have hrsp : (enterCallback target x d c).2.r rsp = callbackSp (c.r rsp) := by
    simp only [enterCallback, Function.update_self]
  have hdist := callbackSp_distance (c.r rsp)
  have hcut := cutOff_lt (c.r rsp)
  refine ⟨?_, ?_, fun a ha => ?_⟩
  · rw [hrsp]
    exact callbackSp_aligned _
  · rw [hrsp, hdist]
    omega
  · have hout : ¬ inWindow (callbackSp (c.r rsp)) 8 a := by
      have hsub := sub_callbackSp (c.r rsp)
      unfold inWindow
      generalize callbackSp (c.r rsp) = q at hsub
      generalize cutOff (c.r rsp) = cut at hsub hcut
      generalize c.r rsp = sp at hsub ha
      have hsplit : a - q = (a - (sp - 256)) + (cut + 8) := by
        have hsp : sp = cut + 264 + q := BitVec.sub_eq_iff_eq_add.mp hsub
        subst hsp
        bv_omega
      rw [hsplit]
      generalize a - (sp - 256) = y at ha
      bv_omega
    exact st_mem_outside { c with r := loadArgs x c.r, xmm := loadFloats d c.xmm } hout

/-! ### The frames of a call -/

/-- The native call that found the cpu as `f` above the frames `base` is not through: either it is
native code's turn, or that of a guest function above it. -/
inductive Within (base : List Frame) (f : Frame) (s : Conf) : Prop
  | native (hm : s.mode = .native) (hf : s.frames = base) (hc : s.cpu.frame = f)
      (hrun : s.cpu.fault = none → s.cpu.running = true)
  | above (fs : List Frame) (hf : s.frames = fs ++ f :: base)

/-- Native code returns to the guest, with `base` for its frames. -/
def Returns (oracle : Nat → Input) (base : List Frame) (s : Conf)
    (r : BitVec 64 × BitVec 64 × BitVec 64 × BitVec 64) : Prop :=
  s.mode = .native ∧ s.frames = base ∧ (oracle s.asked).act = .ret r

section Step

variable {env : Env} {oracle : Nat → Input} {base : List Frame} {f : Frame} {s : Conf}

lemma afterStep_frames (env : Env) (s : Conf) : (afterStep env s).frames = s.frames := by
  simp only [afterStep]
  split <;> rfl

lemma interp_frames (env : Env) (i : Input) (s : Conf) : (interp env i s).frames = s.frames := by
  rcases interp_cases env i s with ⟨-, h⟩ | ⟨-, a, h⟩
  · rw [h]
    rfl
  · rw [h, afterStep_frames]
    rfl

/-- Native code acts: it calls back, writes, or returns. -/
lemma nativeAct_frames (env : Env) (act : NativeAct) (s : Conf) :
    (nativeAct env act s).frames = s.frames ∨ (nativeAct env act s).frames = s.cpu.frame :: s.frames := by
  cases act with
  | callback index x d =>
    simp only [nativeAct]
    split
    · exact .inl rfl
    · exact .inr rfl
  | write a bytes => exact .inl rfl
  | ret r => exact .inl (afterStep_frames env _)

lemma nativeAct_within (act : NativeAct) (hret : ∀ r, act ≠ .ret r) (hm : s.mode = .native) (hf : s.frames = base)
    (hc : s.cpu.frame = f) (hrun : s.cpu.fault = none → s.cpu.running = true) : Within base f (nativeAct env act s) := by
  cases act with
  | callback index x d =>
    simp only [nativeAct]
    split
    · exact .native hm hf hc hrun
    · refine .above [] ?_
      simp only [hc, hf, List.nil_append]
  | write a bytes => exact .native hm hf hc hrun
  | ret r => exact absurd rfl (hret r)

/-- One transition: a frame is put on top, the topmost is taken off, or the frames stay. -/
lemma next_frames (i : Input) {g : Frame} {rest : List Frame} (hf : s.frames = g :: rest) :
    (next env i s).frames = s.frames ∨ (next env i s).frames = s.cpu.frame :: s.frames ∨
      next env i s = { s with cpu := leaveCallback g s.cpu, frames := rest, mode := .native } := by
  unfold next
  cases hm : s.mode with
  | native => exact (nativeAct_frames env i.act s).imp_right .inl
  | guest =>
    simp only [hf]
    split
    · exact .inl ((interp_frames env i s).trans hf)
    · exact .inr (.inr rfl)

lemma next_within (h : Within base f s) (hret : ∀ r, ¬ Returns oracle base s r) :
    Within base f (next env (oracle s.asked) s) := by
  cases h with
  | native hm hf hc hrun =>
    simp only [next, hm]
    exact nativeAct_within _ (fun r hr => hret r ⟨hm, hf, hr⟩) hm hf hc hrun
  | above fs hf =>
    cases fs with
    | nil =>
      rcases next_frames (oracle s.asked) hf with h | h | h
      · exact .above [] (h.trans hf)
      · exact .above [s.cpu.frame] (by rw [h, hf]; rfl)
      · rw [h]
        -- the frame of the call itself is taken off
        refine .native rfl rfl rfl fun hfault => ?_
        exact Option.isNone_iff_eq_none.mpr hfault
    | cons g fs =>
      rcases next_frames (oracle s.asked) hf with h | h | h
      · exact .above (g :: fs) (h.trans hf)
      · exact .above (s.cpu.frame :: g :: fs) (by rw [h, hf]; rfl)
      · rw [h]
        exact .above fs rfl

lemma run_within (n : Nat) (h : Within base f s) (hret : ∀ m < n, ∀ r, ¬ Returns oracle base (run env oracle m s) r) :
    Within base f (run env oracle n s) := by
  induction n generalizing s with
  | zero => exact h
  | succ n ih =>
    refine ih (next_within h (hret 0 (by omega))) fun m hm => ?_
    exact hret (m + 1) (by omega)

lemma run_succ (n : Nat) (s : Conf) :
    run env oracle (n + 1) s = next env (oracle (run env oracle n s).asked) (run env oracle n s) := by
  induction n generalizing s with
  | zero => rfl
  | succ n ih => exact ih _

end Step

/-! ### The return -/

lemma finishNativeCall_eval (r : BitVec 64 × BitVec 64 × BitVec 64 × BitVec 64) (c : Cpu)
    (h : accessOk c.as (c.r rsp) 8 rsdProtR = true) :
    ∃ rip, (finishNativeCall r c).2 = { c with
      r := Function.update (Function.update (Function.update c.r rax r.1) rdx r.2.1) rsp (c.r rsp + 8)
      xmm := Function.update (Function.update c.xmm 0 { c.xmm 0 with lo := r.2.2.1 }) 1 { c.xmm 1 with lo := r.2.2.2 }
      rip := rip } := by
  have hok : accessOk c.as (c.r rsp) (BitVec.ofNat 64 8) rsdProtR = true := h
  refine ⟨loadLE c.mem (c.r rsp) 8, ?_⟩
  generalize hb : Function.update (Function.update c.r rax r.1) rdx r.2.1 = regs
  have hsp : regs rsp = c.r rsp := by
    rw [← hb, Function.update_of_ne (by decide), Function.update_of_ne (by decide)]
  generalize hx : Function.update (Function.update c.xmm 0 { c.xmm 0 with lo := r.2.2.1 }) 1
    { c.xmm 1 with lo := r.2.2.2 } = x
  have hfin : finishNativeCall r c = (pop >>= wrRip) { c with r := regs, xmm := x } := by
    rw [← hb, ← hx]
    rfl
  have hld : ld (regs rsp) 8 { c with r := regs, xmm := x } =
      (loadLE c.mem (c.r rsp) 8, { c with r := regs, xmm := x }) := by
    simp only [ld, hsp, hok, if_true]
  have hpop : pop { c with r := regs, xmm := x } =
      (loadLE c.mem (c.r rsp) 8, { c with r := Function.update regs rsp (c.r rsp + 8), xmm := x }) := by
    unfold pop
    rw [Prog.bind_eval (show rdR rsp { c with r := regs, xmm := x } = (regs rsp, _) from rfl), Prog.bind_eval hld, hsp]
    rfl
  rw [hfin, Prog.bind_eval hpop]
  rfl

lemma callNative_targets (rt : Runtime) (imp : Nat) (cbarg : Int) (objcrecv : Bool) (c : Cpu) :
    ∃ t, (callNative rt imp cbarg objcrecv c).2 = { c with targets := t } := by
  have hcb (fn : BitVec 64) : ∃ t, (rsdCallbackFor rt fn c).2 = { c with targets := t } := by
    unfold rsdCallbackFor
    split
    · exact ⟨c.targets, rfl⟩
    · split
      · exact ⟨c.targets, rfl⟩
      · split
        · exact ⟨c.targets, rfl⟩
        · exact ⟨_, rfl⟩
  by_cases h : 0 ≤ cbarg ∧ cbarg < 6
  · obtain ⟨t, ht⟩ := hcb ((argOrder.map c.r ++ [0, 0]).getD cbarg.toNat 0)
    refine ⟨t, ?_⟩
    unfold callNative
    rw [Prog.bind_eval (show intArgs c = (argOrder.map c.r ++ [0, 0], c) from rfl), if_pos h]
    exact ht
  · refine ⟨c.targets, ?_⟩
    unfold callNative
    rw [Prog.bind_eval (show intArgs c = (argOrder.map c.r ++ [0, 0], c) from rfl), if_neg h]
    rfl

/-- What the guest sees of a native call. -/
structure Transparent (c c' : Cpu) : Prop where
  regs : ∀ i, i ≠ rax → i ≠ rdx → i ≠ rsp → c'.r i = c.r i
  rsp : c'.r rsp = c.r rsp + 8
  xmm : ∀ i : Fin 16, 2 ≤ i → c'.xmm i = c.xmm i
  upper : ∀ i : Fin 16, (c'.xmm i).hi = (c.xmm i).hi
  flags : c'.flags = c.flags
  running : c'.running = true

lemma finishNativeCall_transparent (r : BitVec 64 × BitVec 64 × BitVec 64 × BitVec 64) {c c1 : Cpu}
    (hframe : c1.frame = c.frame) (hrun : c1.running = true) (hread : accessOk c1.as (c.r rsp) 8 rsdProtR = true) :
    Transparent c (finishNativeCall r c1).2 := by
  have hr : c1.r = c.r := congrArg Frame.r hframe
  have hx : c1.xmm = c.xmm := congrArg Frame.xmm hframe
  have hfl : c1.flags = c.flags := congrArg Frame.flags hframe
  rw [← hr] at hread
  obtain ⟨rip, heq⟩ := finishNativeCall_eval r c1 hread
  rw [heq]
  refine ⟨fun i ha hd hs => ?_, ?_, fun i hi => ?_, fun i => ?_, hfl, hrun⟩
  · simp only
    rw [Function.update_of_ne hs, Function.update_of_ne hd, Function.update_of_ne ha, hr]
  · simp only [Function.update_self, hr]
  · have h1 : i ≠ 1 := by
      rintro rfl
      exact absurd hi (by decide)
    have h0 : i ≠ 0 := by
      rintro rfl
      exact absurd hi (by decide)
    simp only
    rw [Function.update_of_ne h1, Function.update_of_ne h0, hx]
  · simp only
    by_cases h1 : i = 1
    · rw [h1, Function.update_self, hx]
    · rw [Function.update_of_ne h1]
      by_cases h0 : i = 0
      · rw [h0, Function.update_self, hx]
      · rw [Function.update_of_ne h0, hx]

/-- A native call that calls back any number of times, at any depth, and returns without a fault
leaves the guest as it was but for the result registers, if its return address can still be read;
and each callback starts on an aligned stack well below what it interrupts. -/
theorem callback_transparent (env : Env) (oracle : Nat → Input) (s : Conf) (c : Cpu) (imp : Nat) (cbarg : Int)
    (objcrecv : Bool) (hmode : s.mode = .native) (hs : s.cpu = (callNative env.rt imp cbarg objcrecv c).2)
    (hrun : c.running = true) (n : Nat) (r : BitVec 64 × BitVec 64 × BitVec 64 × BitVec 64)
    (hret : Returns oracle s.frames (run env oracle n s) r)
    (hfirst : ∀ m < n, ∀ r, ¬ Returns oracle s.frames (run env oracle m s) r)
    (hfault : (run env oracle n s).cpu.fault = none)
    (hread : accessOk (run env oracle n s).cpu.as (c.r rsp) 8 rsdProtR = true) :
    Transparent c (finishNativeCall r (run env oracle n s).cpu).2 ∧
      ∀ m < n, ∀ index x d, (run env oracle m s).mode = .native →
        (oracle (run env oracle m s).asked).act = .callback index x d →
        rsdCallbackTarget (run env oracle m s).cpu.targets index ≠ 0 →
          EnteredBelow (run env oracle m s).cpu (run env oracle (m + 1) s).cpu := by
  obtain ⟨t, ht⟩ := callNative_targets env.rt imp cbarg objcrecv c
  rw [ht] at hs
  have hstart : Within s.frames c.frame s := by
    refine .native hmode rfl ?_ fun _ => ?_
    · rw [hs]
      rfl
    · rw [hs]
      exact hrun
  refine ⟨?_, fun m hm index x d hmode hact htarget => ?_⟩
  · cases run_within n hstart hfirst with
    | native hm hf hc hrun => exact finishNativeCall_transparent r hc (hrun hfault) hread
    | above fs hf =>
      have hlen := congrArg List.length (hf.symm.trans hret.2.1)
      rw [List.length_append, List.length_cons] at hlen
      omega
  · rw [run_succ]
    simp only [next, hmode, nativeAct, hact, if_neg htarget]
    exact enterCallback_below _ x d _

def nativeIn (c : Cpu) : Conf := { Conf.start c none with mode := .native }

/-- A callback that returns at once. -/
theorem callback_transparent_ret :
    Transparent (stubCpu fun _ => 0xC3)
      (finishNativeCall (0, 0, 0, 0) (run (sampleEnv 0) callsBack 4 (nativeIn (stubCpu fun _ => 0xC3))).cpu).2 := by
  have hasked : (run (sampleEnv 0) callsBack 4 (nativeIn (stubCpu fun _ => 0xC3))).asked = 1 := by decide
  have hmode : ∀ m : Fin 4, m ≠ 0 → (run (sampleEnv 0) callsBack m (nativeIn (stubCpu fun _ => 0xC3))).mode = .guest := by
    decide
  refine (callback_transparent (sampleEnv 0) callsBack (nativeIn (stubCpu fun _ => 0xC3))
    (stubCpu fun _ => 0xC3) 0 (-1) false
    rfl rfl rfl 4 (0, 0, 0, 0) ⟨by decide, ?_, ?_⟩ ?_ (by decide) (by decide)).1
  · exact List.length_eq_zero_iff.mp (by decide)
  · rw [hasked]
    rfl
  · rintro m hm r ⟨hnative, -, hact⟩
    by_cases h0 : m = 0
    · subst h0
      cases hact
    · rw [hmode ⟨m, hm⟩ (fun h => h0 (congrArg Fin.val h))] at hnative
      cases hnative

/-- Native code calls back a function that takes the page with the return address away. -/
def protectCpu : Cpu :=
  { stubCpu (fun a => [0xB8#8, 0x4A, 0x00, 0x00, 0x02, 0x0F, 0x05, 0xC3].getD (a - 0x1000).toNat 0) with
    r := fun i => if i = rsp then 0x4000 else 0
    as := { rsdAsInit with reg := [⟨0x1000, 0x4000, 7⟩, ⟨0x4000, 0x8000, 3⟩] } }

def protects : Nat → Input
  | 0 => ⟨sampleKernel, .callback 0 [0x4000, 0x4000, 0] []⟩
  | _ => ⟨sampleKernel, .ret (0, 0, 0, 0)⟩

/-- The return address can be read when the call starts, and the callback returns without a
fault or an exit, but the guest does not run on. -/
theorem return_address_taken :
    protectCpu.running = true ∧ accessOk protectCpu.as (protectCpu.r rsp) 8 rsdProtR = true ∧
      (callNative sampleRuntime 0 (-1) false protectCpu).2.rip = protectCpu.rip ∧
      (run (sampleEnv 0) protects 5 (nativeIn protectCpu)).cpu.rip = callbackMagic ∧
      (run (sampleEnv 0) protects 6 (nativeIn protectCpu)).mode = .native ∧
      (run (sampleEnv 0) protects 6 (nativeIn protectCpu)).frames.length = 0 ∧
      (run (sampleEnv 0) protects 6 (nativeIn protectCpu)).cpu.fault = none ∧
      (run (sampleEnv 0) protects 6 (nativeIn protectCpu)).exited = false ∧
      (finishNativeCall (0, 0, 0, 0) (run (sampleEnv 0) protects 6 (nativeIn protectCpu)).cpu).2.running = false := by
  decide

end Rashid.Proofs
