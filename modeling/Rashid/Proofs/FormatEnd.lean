import Rashid.Proofs.Operands
import Rashid.Proofs.SystemV

/-!
# The end of a format

A directive that the terminator of its format cuts off takes the terminator for one of its
characters, and the walk goes on behind it. Otherwise the walk ends at the terminator, unless it
has been given up before.
-/

namespace Rashid.Proofs

/-- The bytes that are asked for one at a time, as the walk does with its format. -/
def byteReads (es : List Event) : List (BitVec 64) := es.filterMap fun e =>
  match e with
  | .load _ a n | .denied _ _ a n _ _ => if n = 1 then some a else none
  | _ => none

/-! ### Where the text leads -/

/-- Between directives, or inside one and with a star or an `L` seen. -/
inductive ScanState where
  | outside
  | inside (star long : Bool)
  deriving DecidableEq, Repr

/-- What the conversion `b` takes. A scanf star suppresses it. -/
def convArgs (scan star : Bool) (b : BitVec 8) : List ArgKind :=
  if scan then (if star then [] else [.int])
  else (if star then [.int] else []) ++ [if isFloatConv b then .sse else .int]

/-- Where the walk is at the end of a text and the arguments it takes on the way, unless an `L`
conversion ends it. -/
def walk (scan : Bool) : ScanState → Text → Option (ScanState × List ArgKind)
  | w, [] => some (w, [])
  | .outside, b :: t => if b = 0x25 then walk scan (.inside false false) t else walk scan .outside t
  | .inside star long, b :: t =>
    if b = 0x2A then walk scan (.inside true long) t
    else if b = 0x4C then walk scan (.inside star true) t
    else if !endsDirective b then walk scan (.inside star long) t
    else if b = 0x25 then walk scan .outside t
    else if long then none
    else (walk scan .outside t).map fun x => (x.1, convArgs scan star b ++ x.2)

end Rashid.Proofs

namespace Rashid.SysvReader

variable (as : As) (a : SysvReader)

/-- The next argument of a kind is in a register or can be read. -/
def readable : ArgKind → Bool
  | .int => decide (a.gp < 6) || accessOk as a.stack 8 rsdProtR
  | .sse => decide (a.sse < 8) || accessOk as a.stack 8 rsdProtR

/-- The reader behind the next argument of a kind. -/
def skip : ArgKind → SysvReader
  | .int => if a.gp < 6 then { a with gp := a.gp + 1 } else { a with stack := a.stack + 8 }
  | .sse => if a.sse < 8 then { a with sse := a.sse + 1 } else { a with stack := a.stack + 8 }

def allReadable (as : As) : SysvReader → List ArgKind → Bool
  | _, [] => true
  | a, k :: ks => a.readable as k && allReadable as (a.skip k) ks

end Rashid.SysvReader

namespace Rashid.Proofs

/-- The arguments of these kinds fit into the slots that are left, and can be read. -/
def Obtains (as : As) (max : Nat) (a : SysvReader) (used : Nat) (ks : List ArgKind) : Prop :=
  used + ks.length ≤ max ∧ a.allReadable as ks = true

/-- The text ends inside a directive, and the walk gets that far. -/
def CutOff (scan : Bool) (as : As) (max : Nat) (w : ScanState) (a : SysvReader) (used : Nat) (t : Text) : Prop :=
  ∃ star long ks, walk scan w t = some (.inside star long, ks) ∧ Obtains as max a used ks

lemma allReadable_append (as : As) (a : SysvReader) (ks ks' : List ArgKind) : a.allReadable as (ks ++ ks') =
    (a.allReadable as ks && (ks.foldl SysvReader.skip a).allReadable as ks') := by
  induction ks generalizing a with
  | nil => rfl
  | cons k ks ih =>
    rw [List.cons_append, SysvReader.allReadable, SysvReader.allReadable, ih, Bool.and_assoc]
    rfl

lemma obtains_append {as : As} {max used : Nat} {a : SysvReader} {ks ks' : List ArgKind} :
    Obtains as max a used (ks ++ ks') ↔
      Obtains as max a used ks ∧ Obtains as max (ks.foldl SysvReader.skip a) (used + ks.length) ks' := by
  unfold Obtains
  rw [allReadable_append, List.length_append, Bool.and_eq_true]
  constructor
  · rintro ⟨h, hr, hr'⟩
    exact ⟨⟨by omega, hr⟩, by omega, hr'⟩
  · rintro ⟨⟨-, hr⟩, h, hr'⟩
    exact ⟨by omega, hr, hr'⟩

/-! ### The slots of a conversion -/

/-- A processor that has stopped over the same memory. -/
def Halted (c c' : Cpu) : Prop := c'.running = false ∧ c'.mem = c.mem ∧ c'.as = c.as

section Slots

variable {c : Cpu} {a : SysvReader}

lemma sysvStack_denied (h : accessOk c.as a.stack 8 rsdProtR = false) : Halted c (sysvStack a c).2 := by
  have hld : (ld a.stack 8 c).2 = (memfault a.stack (why c.as a.stack (BitVec.ofNat 64 8)) c).2 :=
    congrArg Prod.snd (ld_denied 8 c h)
  obtain ⟨f, rip, addr, has, heq⟩ := memfault_eq a.stack (why c.as a.stack (BitVec.ofNat 64 8)) c
  have hrun : (sysvStack a c).2 = (ld a.stack 8 c).2 := rfl
  rw [hrun, hld, heq]
  exact ⟨rfl, rfl, rfl⟩

/-- An argument is read, or the guest stops. -/
lemma sysvArg_run (k : ArgKind) :
    (a.readable c.as k = true → ∃ v, sysvArg k a c = ((v, a.skip k), c)) ∧
    (a.readable c.as k = false → Halted c (sysvArg k a c).2) := by
  cases k with
  | int =>
    simp only [SysvReader.readable, SysvReader.skip, sysvArg]
    by_cases h6 : a.gp < 6
    · obtain ⟨i, hi⟩ : ∃ i, argOrder[a.gp]? = some i := ⟨_, List.getElem?_eq_getElem h6⟩
      simp only [h6, decide_true, Bool.true_or, if_true]
      exact ⟨fun _ => ⟨_, (sysvInt_register hi).1⟩, fun h => Bool.noConfusion h⟩
    · rw [(@sysvInt_stack c a (Nat.not_lt.mp h6)).1]
      simp only [h6, decide_false, Bool.false_or, if_false]
      exact ⟨fun h => ⟨_, sysvStack_eval ⟨h, rfl⟩⟩, sysvStack_denied⟩
  | sse =>
    simp only [SysvReader.readable, SysvReader.skip, sysvArg]
    by_cases h8 : a.sse < 8
    · simp only [h8, decide_true, Bool.true_or, if_true]
      exact ⟨fun _ => ⟨_, (sysvSse_register h8).1⟩, fun h => Bool.noConfusion h⟩
    · rw [(@sysvSse_stack c a (Nat.not_lt.mp h8)).1]
      simp only [h8, decide_false, Bool.false_or, if_false]
      exact ⟨fun h => ⟨_, sysvStack_eval ⟨h, rfl⟩⟩, sysvStack_denied⟩

/-- A guest that has stopped stays so. -/
lemma sysvArg_halted {c0 : Cpu} (k : ArgKind) (h : Halted c0 c) : Halted c0 (sysvArg k a c).2 := by
  cases hr : a.readable c.as k with
  | true =>
    obtain ⟨v, hv⟩ := (sysvArg_run k).1 hr
    rwa [hv]
  | false =>
    obtain ⟨hrun, hmem, has⟩ := (sysvArg_run k).2 hr
    exact ⟨hrun, hmem.trans h.2.1, has.trans h.2.2⟩

variable {scan : Bool} {max : Nat} {slots : List (BitVec 64)}

/-- The walk goes on in the same state, or in one where the guest has stopped, or not at all. -/
def GivenUp (c : Cpu) (r : Option (SysvReader × List (BitVec 64)) × Cpu) : Prop :=
  r.1 = none ∨ ∃ a slots, r.1 = some (a, slots) ∧ Halted c r.2

lemma takeValue_run (k : BitVec 8) :
    (Obtains c.as max a slots.length [convKind scan k] →
      ∃ v, takeValue scan k max a slots c = (some (a.skip (convKind scan k), slots ++ [v]), c)) ∧
    (¬ Obtains c.as max a slots.length [convKind scan k] → GivenUp c (takeValue scan k max a slots c)) := by
  unfold takeValue Obtains
  by_cases hroom : max ≤ slots.length
  · rw [if_pos hroom]
    refine ⟨fun h => ?_, fun _ => .inl rfl⟩
    have hfit := h.1
    rw [List.length_singleton] at hfit
    omega
  · rw [if_neg hroom]
    have hfit : slots.length + [convKind scan k].length ≤ max := by
      rw [List.length_singleton]
      omega
    obtain ⟨hread, hstop⟩ := @sysvArg_run c a (convKind scan k)
    simp only [SysvReader.allReadable, Bool.and_true, hfit, true_and]
    refine ⟨fun h => ?_, fun h => .inr ⟨_, _, rfl, hstop (Bool.eq_false_iff.mpr h)⟩⟩
    obtain ⟨v, hv⟩ := hread h
    exact ⟨v, Prog.bind_eval hv⟩

lemma takeValue_halted {c0 : Cpu} (k : BitVec 8) (h : Halted c0 c) : GivenUp c0 (takeValue scan k max a slots c) := by
  unfold takeValue
  by_cases hroom : max ≤ slots.length
  · rw [if_pos hroom]
    exact .inl rfl
  · rw [if_neg hroom]
    exact .inr ⟨_, _, rfl, sysvArg_halted _ h⟩

/-- The star of a directive is one argument more. -/
lemma convArgs_cons (star : Bool) (k : BitVec 8) (h : (star && scan) = false) :
    convArgs scan star k = (if star then [.int] else []) ++ [convKind scan k] := by
  unfold convArgs convKind
  cases scan with
  | false => rfl
  | true =>
    cases star with
    | false => rfl
    | true => cases h

lemma marshalSlots_run (star : Bool) (k : BitVec 8) (h : (star && scan) = false) :
    (Obtains c.as max a slots.length (convArgs scan star k) →
      ∃ slots', slots'.length = slots.length + (convArgs scan star k).length ∧
        marshalSlots scan star (k.setWidth 64) a slots max c =
          (some ((convArgs scan star k).foldl SysvReader.skip a, slots'), c)) ∧
    (¬ Obtains c.as max a slots.length (convArgs scan star k) →
      GivenUp c (marshalSlots scan star (k.setWidth 64) a slots max c)) := by
  rw [convArgs_cons star k h]
  cases star with
  | false =>
    rw [marshalSlots_value]
    obtain ⟨hgo, hstop⟩ := @takeValue_run c a scan max slots k
    refine ⟨fun ho => ?_, hstop⟩
    obtain ⟨v, hv⟩ := hgo ho
    exact ⟨_, List.length_append, hv⟩
  | true =>
    rw [marshalSlots_star, if_pos rfl, obtains_append]
    by_cases hroom : max ≤ slots.length
    · rw [if_pos hroom]
      refine ⟨fun ho => ?_, fun _ => .inl rfl⟩
      have hfit := ho.1.1
      rw [List.length_singleton] at hfit
      omega
    · rw [if_neg hroom]
      have hfit : slots.length + [ArgKind.int].length ≤ max := by
        rw [List.length_singleton]
        omega
      obtain ⟨hread, hhalt⟩ := @sysvArg_run c a .int
      cases hr : a.readable c.as .int with
      | true =>
        obtain ⟨v, hv⟩ := hread hr
        have hint : sysvInt a c = ((v, a.skip .int), c) := hv
        have hone : Obtains c.as max a slots.length [.int] := by
          refine ⟨hfit, ?_⟩
          rw [SysvReader.allReadable, hr]
          rfl
        rw [Prog.bind_eval hint]
        have hlen : (slots ++ [v]).length = slots.length + [ArgKind.int].length := List.length_append
        obtain ⟨hgo, hstop⟩ := @takeValue_run c (a.skip .int) scan max (slots ++ [v]) k
        rw [hlen] at hgo hstop
        refine ⟨fun ho => ?_, fun hno => hstop fun ho => hno ⟨hone, ho⟩⟩
        obtain ⟨v', hv'⟩ := hgo ho.2
        refine ⟨_, ?_, hv'⟩
        simp
      | false =>
        refine ⟨fun ho => ?_, fun _ => takeValue_halted k (hhalt hr)⟩
        have hok := ho.1.2
        rw [SysvReader.allReadable, hr] at hok
        cases hok

end Slots

/-! ### What is read -/

section Reads

variable {scan : Bool} {max : Nat} {p : BitVec 64} {a : SysvReader} {slots : List (BitVec 64)} {c : Cpu}

lemma byteReads_append (es fs : List Event) : byteReads (es ++ fs) = byteReads es ++ byteReads fs :=
  List.filterMap_append

lemma byteReads_ld (p : BitVec 64) (c : Cpu) : byteReads (eventsOf (ld p 1) c) = [p] := by
  show byteReads [readEvent .data p 1 c] = [p]
  unfold readEvent
  split <;> rfl

lemma byteReads_stack (a : SysvReader) (c : Cpu) : byteReads (eventsOf (sysvStack a) c) = [] := by
  show byteReads [readEvent .data a.stack 8 c] = []
  unfold readEvent
  split <;> rfl

lemma byteReads_arg (k : ArgKind) (a : SysvReader) (c : Cpu) : byteReads (eventsOf (sysvArg k a) c) = [] := by
  cases k with
  | int =>
    show byteReads (eventsOf (sysvInt a) c) = []
    by_cases h6 : a.gp < 6
    · obtain ⟨i, hi⟩ : ∃ i, argOrder[a.gp]? = some i := ⟨_, List.getElem?_eq_getElem h6⟩
      rw [(sysvInt_register hi).2]
      rfl
    · rw [(sysvInt_stack (Nat.not_lt.mp h6)).2]
      exact byteReads_stack a c
  | sse =>
    show byteReads (eventsOf (sysvSse a) c) = []
    by_cases h8 : a.sse < 8
    · rw [(sysvSse_register h8).2]
      rfl
    · rw [(sysvSse_stack (Nat.not_lt.mp h8)).2]
      exact byteReads_stack a c

/-- Programs that ask for no byte. -/
def NoBytes {α : Type} (x : M α) [Traced Accounts x] : Prop := ∀ c, byteReads (eventsOf x c) = []

lemma noBytes_pure {α : Type} (v : α) : NoBytes (pure v : M α) := fun _ => rfl

lemma noBytes_bind {α β : Type} {x : M α} {f : α → M β} [Traced Accounts x] [∀ v, Traced Accounts (f v)] (hx : NoBytes x)
    (hf : ∀ v, NoBytes (f v)) : NoBytes (x >>= f) := by
  intro c
  rw [eventsOf_bind, byteReads_append, hx c, hf _ _]
  rfl

lemma noBytes_ite {α : Type} {b : Prop} [Decidable b] {x y : M α} [Traced Accounts x] [Traced Accounts y] (hx : NoBytes x)
    (hy : NoBytes y) : NoBytes (if b then x else y) := by
  intro c
  rw [eventsOf_ite]
  split
  · exact hx c
  · exact hy c

lemma byteReads_slots (scan star : Bool) (conv : BitVec 64) (a : SysvReader) (slots : List (BitVec 64)) (max : Nat) :
    NoBytes (marshalSlots scan star conv a slots max) := by
  have hvalue (a : SysvReader) (slots : List (BitVec 64)) : NoBytes (if max ≤ slots.length then pure none
      else if !scan && charIn "fFeEgGaA" conv then sysvSse a >>= fun x => pure (some (x.2, slots ++ [x.1]))
      else sysvInt a >>= fun x => pure (some (x.2, slots ++ [x.1]))) :=
    noBytes_ite (noBytes_pure _) (noBytes_ite
      (noBytes_bind (byteReads_arg .sse a) fun _ => noBytes_pure _)
        (noBytes_bind (byteReads_arg .int a) fun _ => noBytes_pure _))
  exact noBytes_ite (noBytes_pure _) (noBytes_ite
    (noBytes_bind (byteReads_arg .int a) fun x => hvalue x.2 (slots ++ [x.1]))
    (hvalue a slots))

/-- What a program asks for, and what it comes to. -/
def outcome {α : Type} (x : M α) [Traced Accounts x] (c : Cpu) : List (BitVec 64) × (α × Cpu) :=
  (byteReads (eventsOf x c), x c)

lemma outcome_ite {α : Type} (b : Prop) [Decidable b] (x y : M α) [Traced Accounts x] [Traced Accounts y] (c : Cpu) :
    outcome (if b then x else y) c = if b then outcome x c else outcome y c := by
  unfold outcome
  rw [eventsOf_ite]
  split <;> rfl

/-- The same after a byte at `p`. -/
def behind {α : Type} (p : BitVec 64) (o : List (BitVec 64) × (α × Cpu)) : List (BitVec 64) × (α × Cpu) :=
  (p :: o.1, o.2)

lemma outcome_behind {α β : Type} {x y : M α} {f : α → M β} [Traced Accounts x] [Traced Accounts y]
    [∀ v, Traced Accounts (f v)] (h : outcome x c = behind p (outcome y c)) :
    outcome (x >>= f) c = behind p (outcome (y >>= f) c) := by
  obtain ⟨hr, hv⟩ := Prod.mk.inj h
  unfold outcome behind
  rw [eventsOf_bind, eventsOf_bind, byteReads_append, byteReads_append, hr, hv, Prog.bind_apply, Prog.bind_apply, hv]
  rfl

lemma outcome_done {α β : Type} {x : M α} {f : α → M β} {v : α} {c' : Cpu} [Traced Accounts x]
    [∀ v, Traced Accounts (f v)] (h : outcome x c = behind p ([], (v, c'))) :
    outcome (x >>= f) c = behind p (outcome (f v) c') := by
  obtain ⟨hr, hv⟩ := Prod.mk.inj h
  unfold outcome behind
  rw [eventsOf_bind, byteReads_append, hr, hv, Prog.bind_eval hv]
  rfl

/-- A byte of the format is read. -/
lemma outcome_byte {α : Type} {f : BitVec 64 → M α} [∀ v, Traced Accounts (f v)] {b : BitVec 8}
    (hok : accessOk c.as p 1 rsdProtR = true) (hb : c.mem p = b) :
    outcome (ld p 1 >>= f) c = behind p (outcome (f (b.setWidth 64)) c) := by
  refine outcome_done ?_
  unfold outcome behind
  rw [byteReads_ld, ld_byte hok hb]

lemma outcome_running {α : Type} {f : Bool → M α} [∀ v, Traced Accounts (f v)] :
    outcome (isRunning >>= f) c = outcome (f c.running) c := rfl

def fromDirective (scan : Bool) (max inner outer : Nat) (p : BitVec 64) (star long : Bool) (a : SysvReader)
    (slots : List (BitVec 64)) : M (Option (List (BitVec 64))) := do
  let (p, star, long, conv) ← marshalDirective inner p star long
  afterDirective scan max outer p star long conv a slots

instance (scan : Bool) (max fuel : Nat) (p : BitVec 64) (r : Option (SysvReader × List (BitVec 64))) :
    Traced Accounts (goOn scan max fuel p r) :=
  match r with
  | none => .pure _
  | some r => inferInstanceAs (Traced Accounts (marshalLoop scan max fuel p r.1 r.2))

instance (scan : Bool) (max fuel : Nat) (p : BitVec 64) (star long : Bool) (conv : BitVec 64) (a : SysvReader)
    (slots : List (BitVec 64)) : Traced Accounts (afterDirective scan max fuel p star long conv a slots) := by
  unfold afterDirective; infer_instance

instance (scan : Bool) (max inner outer : Nat) (p : BitVec 64) (star long : Bool) (a : SysvReader)
    (slots : List (BitVec 64)) : Traced Accounts (fromDirective scan max inner outer p star long a slots) := by
  unfold fromDirective; infer_instance

/-- One turn of the walk. -/
lemma marshalLoop_outcome {b : BitVec 8} (fuel : Nat) (hok : accessOk c.as p 1 rsdProtR = true) (hb : c.mem p = b) :
    outcome (marshalLoop scan max (fuel + 1) p a slots) c = behind p
      (if c.running = false then ([], (none, c))
       else if b = 0 then ([], (some slots, c))
       else if b = 0x25 then outcome (fromDirective scan max fuel fuel (p + 1) false false a slots) c
       else outcome (marshalLoop scan max fuel (p + 1) a slots) c) := by
  have hstep : outcome (marshalLoop scan max (fuel + 1) p a slots) c =
    outcome (ld p 1 >>= fun ch => isRunning >>= fun go =>
      if !go then pure none
      else if ch = 0 then pure (some slots)
      else if !charIn "%" ch then marshalLoop scan max fuel (p + 1) a slots
      else fromDirective scan max fuel fuel (p + 1) false false a slots) c := rfl
  rw [hstep, outcome_byte hok hb, outcome_running, outcome_ite, outcome_ite, outcome_ite, charIn_percent]
  congr 1
  cases c.running with
  | false => rfl
  | true =>
    simp only [setWidth_eq_zero, Bool.not_true, Bool.true_eq_false, Bool.false_eq_true, if_false, Bool.not_eq_true',
      beq_eq_false_iff_ne, ne_eq, ite_not]
    rfl

/-- One turn inside a directive. -/
lemma marshalDirective_outcome {b : BitVec 8} {star long : Bool} (fuel : Nat) (hrun : c.running = true)
    (hok : accessOk c.as p 1 rsdProtR = true) (hb : c.mem p = b) :
    outcome (marshalDirective (fuel + 1) p star long) c = behind p
      (if b = 0 then ([], ((p + 1, star, long, 0), c))
       else if b = 0x2A then outcome (marshalDirective fuel (p + 1) true long) c
       else if b = 0x4C then outcome (marshalDirective fuel (p + 1) star true) c
       else if endsDirective b = true then ([], ((p + 1, star, long, b.setWidth 64), c))
       else outcome (marshalDirective fuel (p + 1) star long) c) := by
  have hstep : outcome (marshalDirective (fuel + 1) p star long) c = outcome (ld p 1 >>= fun ch => isRunning >>= fun go =>
      if !go || ch == 0 then pure (p + 1, star, long, 0)
      else if charIn "*" ch then marshalDirective fuel (p + 1) true long
      else if charIn "L" ch then marshalDirective fuel (p + 1) star true
      else if charIn "diouxXcspnfFeEgGaA@%" ch then pure (p + 1, star, long, ch)
      else marshalDirective fuel (p + 1) star long) c := rfl
  rw [hstep, outcome_byte hok hb, outcome_running, outcome_ite, outcome_ite, outcome_ite, outcome_ite, charIn_star,
    charIn_long, hrun]
  congr 1
  simp only [setWidth_eq_zero, Bool.not_true, Bool.false_or, beq_iff_eq]
  rfl

lemma fromDirective_outcome {b : BitVec 8} {star long : Bool} (inner outer : Nat) (hrun : c.running = true)
    (hok : accessOk c.as p 1 rsdProtR = true) (hb : c.mem p = b) :
    outcome (fromDirective scan max (inner + 1) outer p star long a slots) c = behind p
      (if b = 0 then outcome (marshalLoop scan max outer (p + 1) a slots) c
       else if b = 0x2A then outcome (fromDirective scan max inner outer (p + 1) true long a slots) c
       else if b = 0x4C then outcome (fromDirective scan max inner outer (p + 1) star true a slots) c
       else if endsDirective b = true then
         outcome (afterDirective scan max outer (p + 1) star long (b.setWidth 64) a slots) c
       else outcome (fromDirective scan max inner outer (p + 1) star long a slots) c) := by
  have h := @marshalDirective_outcome p c b star long inner hrun hok hb
  unfold fromDirective
  split_ifs at h ⊢
  · refine (outcome_done h).trans ?_
    rfl
  · exact outcome_behind h
  · exact outcome_behind h
  · exact outcome_done h
  · exact outcome_behind h

/-- What is done with a conversion. -/
lemma afterDirective_outcome {k : BitVec 8} {star long : Bool} (fuel : Nat) (hk : endsDirective k = true) :
    outcome (afterDirective scan max fuel p star long (k.setWidth 64) a slots) c =
      if k = 0x25 then outcome (marshalLoop scan max fuel p a slots) c
      else if long then ([], (none, c))
      else if (star && scan) = true then outcome (marshalLoop scan max fuel p a slots) c
      else outcome (marshalSlots scan star (k.setWidth 64) a slots max >>= goOn scan max fuel p) c := by
  have h0 : k.setWidth 64 ≠ (0 : BitVec 64) := fun h => (endsDirective_ne k hk).1 ((setWidth_eq_zero k).mp h)
  have hstep : outcome (afterDirective scan max fuel p star long (k.setWidth 64) a slots) c =
      outcome (if k.setWidth 64 = 0 ∨ charIn "%" (k.setWidth 64) then marshalLoop scan max fuel p a slots
        else if long then pure none
        else if star && scan then marshalLoop scan max fuel p a slots
        else marshalSlots scan star (k.setWidth 64) a slots max >>= goOn scan max fuel p) c := rfl
  rw [hstep, outcome_ite, outcome_ite, outcome_ite, charIn_percent]
  simp only [h0, false_or, beq_iff_eq]
  rfl

end Reads

/-! ### The whole text -/

/-- `f` asks for bytes from `p` on and not past the end of a text of `len` bytes, whatever its bounds,
unless the text is cut off; then it does. -/
def ReadsText {β : Type} (len : Nat) (cut : Prop) (p : BitVec 64) (f : Nat → Nat → List (BitVec 64) × β) : Prop :=
  (cut → ∀ i o, len < i → len < o → len + 2 ≤ (f i o).1.length) ∧
  (¬ cut → ∃ n ≤ len + 1, ∃ r, ∀ i o, len < i → len < o → f i o = ((List.range n).map fun k => p + BitVec.ofNat 64 k, r))

section Text

variable {α : Type} {len : Nat} {cut : Prop} {p : BitVec 64} {f g : Nat → Nat → List (BitVec 64) × (α × Cpu)}

lemma range_behind (p : BitVec 64) (n : Nat) (r : α × Cpu) :
    behind p ((List.range n).map fun k => p + 1 + BitVec.ofNat 64 k, r) =
      ((List.range (n + 1)).map fun k => p + BitVec.ofNat 64 k, r) := by
  rw [List.range_succ_eq_map, List.map_cons, List.map_map, BitVec.add_zero]
  refine congrArg (fun l => (p :: l, r)) (List.map_congr_left fun k _ => ?_)
  exact add_one_ofNat p k

/-- One byte more in front. -/
lemma ReadsText.cons (h : ReadsText len cut (p + 1) f)
    (hg : ∀ i o, len + 1 < i → len + 1 < o → ∃ i' o', len < i' ∧ len < o' ∧ g i o = behind p (f i' o')) :
    ReadsText (len + 1) cut p g := by
  constructor
  · intro hcut i o hi ho
    obtain ⟨i', o', hi', ho', heq⟩ := hg i o hi ho
    have hlen := h.1 hcut i' o' hi' ho'
    rw [heq, behind, List.length_cons]
    omega
  · intro hcut
    obtain ⟨n, hn, r, hf⟩ := h.2 hcut
    refine ⟨n + 1, by omega, r, fun i o hi ho => ?_⟩
    obtain ⟨i', o', hi', ho', heq⟩ := hg i o hi ho
    rw [heq, hf i' o' hi' ho', range_behind]

/-- The last byte that is asked for. -/
lemma ReadsText.last (hcut : ¬ cut) (r : α × Cpu) (hg : ∀ i o, len < i → len < o → g i o = behind p ([], r)) :
    ReadsText len cut p g := by
  refine ⟨fun h => absurd h hcut, fun _ => ⟨1, by omega, r, fun i o hi ho => ?_⟩⟩
  rw [hg i o hi ho]
  exact range_behind p 0 r

end Text

section Walk

variable (scan : Bool) (max : Nat)

/-- The walk from where it is. -/
def walkFrom (w : ScanState) (p : BitVec 64) (a : SysvReader) (slots : List (BitVec 64)) (c : Cpu) (inner outer : Nat) :
    List (BitVec 64) × (Option (List (BitVec 64)) × Cpu) :=
  match w with
  | .outside => outcome (marshalLoop scan max outer p a slots) c
  | .inside star long => outcome (fromDirective scan max inner outer p star long a slots) c

variable {scan max} {p : BitVec 64} {a : SysvReader} {slots : List (BitVec 64)} {c : Cpu} {b : BitVec 8} {t : Text}

lemma cutOff_args {star long : Bool} (hs : b ≠ 0x2A) (hL : b ≠ 0x4C) (he : endsDirective b = true) (hp : b ≠ 0x25)
    (hlong : long = false) (as : As) (used : Nat) :
    CutOff scan as max (.inside star long) a used (b :: t) ↔
      Obtains as max a used (convArgs scan star b) ∧
        CutOff scan as max .outside ((convArgs scan star b).foldl SysvReader.skip a)
          (used + (convArgs scan star b).length) t := by
  have hwalk : walk scan (.inside star long) (b :: t) =
      (walk scan .outside t).map fun x => (x.1, convArgs scan star b ++ x.2) := by
    rw [walk, if_neg hs, if_neg hL, he, hlong, if_neg hp]
    rfl
  unfold CutOff
  rw [hwalk]
  constructor
  · rintro ⟨s, l, ks, h, ho⟩
    obtain ⟨⟨w', ks'⟩, hw, hx⟩ := Option.map_eq_some_iff.mp h
    cases hx
    obtain ⟨h1, h2⟩ := obtains_append.mp ho
    exact ⟨h1, s, l, ks', hw, h2⟩
  · rintro ⟨h1, s, l, ks, hw, h2⟩
    exact ⟨s, l, convArgs scan star b ++ ks, by rw [hw]; rfl, obtains_append.mpr ⟨h1, h2⟩⟩

/-- A step of the walk that takes nothing. -/
lemma cutOff_step (w w' : ScanState) (h : walk scan w (b :: t) = walk scan w' t) (as : As) (used : Nat) :
    CutOff scan as max w a used (b :: t) ↔ CutOff scan as max w' a used t := by
  unfold CutOff
  rw [h]

lemma marshalLoop_halted {c' : Cpu} {t : Text} (hc : Halted c c') (h : HoldsString c p t) (fuel : Nat) :
    outcome (marshalLoop scan max (fuel + 1) p a slots) c' = behind p ([], (none, c')) := by
  obtain ⟨hrun, hmem, has⟩ := hc
  obtain ⟨b, hok, hb⟩ : ∃ b, accessOk c.as p 1 rsdProtR = true ∧ c.mem p = b := by
    cases t with
    | nil => exact ⟨_, h.1, h.2.1⟩
    | cons b t => exact ⟨_, h.1, h.2.1⟩
  rw [marshalLoop_outcome fuel (has ▸ hok) (hmem ▸ hb), if_pos hrun]

lemma marshalLoop_asks (fuel : Nat) : 1 ≤ (outcome (marshalLoop scan max (fuel + 1) p a slots) c).1.length := by
  have hstep : eventsOf (marshalLoop scan max (fuel + 1) p a slots) c = eventsOf (ld p 1) c ++ _ := rfl
  rw [outcome, hstep, byteReads_append, byteReads_ld, List.length_append]
  exact Nat.le_add_right _ _

/-- The slots of a conversion are no bytes of the format. -/
lemma outcome_slots {star : Bool} {conv : BitVec 64} {fuel : Nat} {r : Option (SysvReader × List (BitVec 64))} {c' : Cpu}
    (h : marshalSlots scan star conv a slots max c = (r, c')) :
    outcome (marshalSlots scan star conv a slots max >>= goOn scan max fuel p) c =
      outcome (goOn scan max fuel p r) c' := by
  unfold outcome
  rw [eventsOf_bind, byteReads_append, byteReads_slots, h, Prog.bind_eval h]
  rfl

/-- A conversion that is not suppressed. -/
lemma conv_reads {star : Bool} (hss : (star && scan) = false) (h : HoldsString c (p + 1) t)
    (ih : ∀ (a' : SysvReader) (slots' : List (BitVec 64)), slots'.length ≤ max →
      ReadsText t.length (CutOff scan c.as max .outside a' slots'.length t) (p + 1)
        (walkFrom scan max .outside (p + 1) a' slots' c)) :
    ReadsText (t.length + 1) (Obtains c.as max a slots.length (convArgs scan star b) ∧ CutOff scan c.as max .outside
        ((convArgs scan star b).foldl SysvReader.skip a) (slots.length + (convArgs scan star b).length) t) p
      fun _ o => behind p
        (outcome (marshalSlots scan star (b.setWidth 64) a slots max >>= goOn scan max o (p + 1)) c) := by
  obtain ⟨hgo, hstop⟩ := @marshalSlots_run c a scan max slots star b hss
  by_cases ho : Obtains c.as max a slots.length (convArgs scan star b)
  · obtain ⟨slots', hlen, heq⟩ := hgo ho
    rw [and_iff_right ho, ← hlen]
    refine (ih _ slots' (hlen ▸ ho.1)).cons fun i o hi ho => ⟨i, o, by omega, by omega, ?_⟩
    rw [outcome_slots heq]
    rfl
  · have hcut : ¬ (Obtains c.as max a slots.length (convArgs scan star b) ∧ CutOff scan c.as max .outside
        ((convArgs scan star b).foldl SysvReader.skip a) (slots.length + (convArgs scan star b).length)
          t) := fun h => ho h.1
    generalize hr : marshalSlots scan star (b.setWidth 64) a slots max c = r at hstop
    obtain ⟨r, c'⟩ := r
    rcases hstop ho with hnone | ⟨a', slots', hsome, hc⟩
    · cases hnone
      refine .last hcut (none, c') fun i o _ _ => ?_
      rw [outcome_slots hr]
      rfl
    · cases hsome
      refine ⟨fun h => absurd h hcut, fun _ => ⟨2, by omega, (none, c'), fun i o _ ho => ?_⟩⟩
      obtain ⟨o, rfl⟩ : ∃ k, o = k + 1 := ⟨o - 1, by omega⟩
      beta_reduce
      rw [outcome_slots hr, ← range_behind]
      refine congrArg (behind p) ((marshalLoop_halted hc h o).trans ?_)
      exact range_behind (p + 1) 0 (none, c')

theorem walk_reads (w : ScanState) (hrun : c.running = true) (h : HoldsString c p t) (hnz : ∀ b ∈ t, b ≠ 0)
    (hfit : slots.length ≤ max) :
    ReadsText t.length (CutOff scan c.as max w a slots.length t) p (walkFrom scan max w p a slots c) := by
  induction t generalizing w p a slots with
  | nil =>
    obtain ⟨hok, hb, -⟩ := h
    cases w with
    | outside =>
      have hcut : ¬ CutOff scan c.as max .outside a slots.length [] := by
        rintro ⟨s, l, ks, hw, -⟩
        cases hw
      refine .last hcut (some slots, c) fun i o _ ho => ?_
      obtain ⟨o, rfl⟩ : ∃ k, o = k + 1 := ⟨o - 1, by omega⟩
      rw [walkFrom, marshalLoop_outcome o hok hb, hrun, if_neg (by decide), if_pos rfl]
    | inside star long =>
      have hcut : CutOff scan c.as max (.inside star long) a slots.length [] := ⟨star, long, [], rfl, hfit, rfl⟩
      refine ⟨fun _ i o hi ho => ?_, fun h => absurd hcut h⟩
      obtain ⟨i, rfl⟩ : ∃ k, i = k + 1 := ⟨i - 1, by omega⟩
      obtain ⟨o, rfl⟩ : ∃ k, o = k + 1 := ⟨o - 1, by omega⟩
      have hnext := @marshalLoop_asks scan max (p + 1) a slots c o
      rw [walkFrom, fromDirective_outcome i (o + 1) hrun hok hb, if_pos rfl, behind, List.length_cons]
      simp only [List.length_nil]
      omega
  | cons b t ih =>
    obtain ⟨hok, hb, ht⟩ := h
    have h0 : b ≠ 0 := hnz b List.mem_cons_self
    have hnz' : ∀ x ∈ t, x ≠ 0 := fun x hx => hnz x (List.mem_cons_of_mem _ hx)
    rw [List.length_cons]
    cases w with
    | outside =>
      by_cases hp : b = 0x25
      · rw [cutOff_step .outside (.inside false false) (by rw [walk, if_pos hp])]
        refine (ih (.inside false false) ht hnz' hfit).cons fun i o hi ho => ?_
        obtain ⟨o, rfl⟩ : ∃ k, o = k + 1 := ⟨o - 1, by omega⟩
        refine ⟨o, o, by omega, by omega, ?_⟩
        rw [walkFrom, marshalLoop_outcome o hok hb, hrun, if_neg (by decide), if_neg h0, if_pos hp]
        rfl
      · rw [cutOff_step .outside .outside (by rw [walk, if_neg hp])]
        refine (ih .outside ht hnz' hfit).cons fun i o hi ho => ?_
        obtain ⟨o, rfl⟩ : ∃ k, o = k + 1 := ⟨o - 1, by omega⟩
        refine ⟨o, o, by omega, by omega, ?_⟩
        rw [walkFrom, marshalLoop_outcome o hok hb, hrun, if_neg (by decide), if_neg h0, if_neg hp]
        rfl
    | inside star long =>
      -- each byte takes one from the bound of the inner loop
      have hturn (i o : Nat) (hi : t.length + 1 < i) : ∃ k, t.length < k ∧
          walkFrom scan max (.inside star long) p a slots c i o = behind p
            (if b = 0x2A then outcome (fromDirective scan max k o (p + 1) true long a slots) c
             else if b = 0x4C then outcome (fromDirective scan max k o (p + 1) star true a slots) c
             else if endsDirective b = true then
               outcome (afterDirective scan max o (p + 1) star long (b.setWidth 64) a slots) c
             else outcome (fromDirective scan max k o (p + 1) star long a slots) c) := by
        obtain ⟨k, rfl⟩ : ∃ k, i = k + 1 := ⟨i - 1, by omega⟩
        refine ⟨k, by omega, ?_⟩
        rw [walkFrom, fromDirective_outcome k o hrun hok hb, if_neg h0]
      have hinside (star' long' : Bool) (hw : walk scan (.inside star long) (b :: t) = walk scan (.inside star' long') t)
          (heq : ∀ i o, t.length + 1 < i → ∃ k, t.length < k ∧ walkFrom scan max (.inside star long) p a slots c i o =
            behind p (outcome (fromDirective scan max k o (p + 1) star' long' a slots) c)) :
          ReadsText (t.length + 1) (CutOff scan c.as max (.inside star long) a slots.length (b :: t)) p
            (walkFrom scan max (.inside star long) p a slots c) := by
        rw [cutOff_step _ _ hw]
        refine (ih (.inside star' long') ht hnz' hfit).cons fun i o hi ho => ?_
        obtain ⟨k, hk, h⟩ := heq i o hi
        exact ⟨k, o, hk, by omega, h⟩
      by_cases hs : b = 0x2A
      · refine hinside true long (by rw [walk, if_pos hs]) fun i o hi => ?_
        obtain ⟨k, hk, h⟩ := hturn i o hi
        exact ⟨k, hk, by rw [h, if_pos hs]⟩
      by_cases hL : b = 0x4C
      · refine hinside star true (by rw [walk, if_neg hs, if_pos hL]) fun i o hi => ?_
        obtain ⟨k, hk, h⟩ := hturn i o hi
        exact ⟨k, hk, by rw [h, if_neg hs, if_pos hL]⟩
      cases he : endsDirective b with
      | false =>
        refine hinside star long (by rw [walk, if_neg hs, if_neg hL, he, Bool.not_false, if_pos rfl]) fun i o hi => ?_
        obtain ⟨k, hk, h⟩ := hturn i o hi
        exact ⟨k, hk, by rw [h, if_neg hs, if_neg hL, he, if_neg Bool.false_ne_true]⟩
      | true =>
        have hend (i o : Nat) (hi : t.length + 1 < i) : walkFrom scan max (.inside star long) p a slots c i o = behind p
            (if b = 0x25 then outcome (marshalLoop scan max o (p + 1) a slots) c
             else if long then ([], (none, c))
             else if (star && scan) = true then outcome (marshalLoop scan max o (p + 1) a slots) c
             else outcome (marshalSlots scan star (b.setWidth 64) a slots max >>= goOn scan max o (p + 1)) c) := by
          obtain ⟨k, -, h⟩ := hturn i o hi
          rw [h, if_neg hs, if_neg hL, if_pos he, afterDirective_outcome o he]
        by_cases hp : b = 0x25
        · rw [cutOff_step (.inside star long) .outside (by rw [walk, if_neg hs, if_neg hL, he, if_pos hp]; rfl)]
          refine (ih .outside ht hnz' hfit).cons fun i o hi ho => ⟨i, o, by omega, by omega, ?_⟩
          rw [hend i o hi, if_pos hp]
          rfl
        cases hlong : long with
        | true =>
          have hcut : ¬ CutOff scan c.as max (.inside star true) a slots.length (b :: t) := by
            rintro ⟨s, l, ks, hw, -⟩
            rw [walk, if_neg hs, if_neg hL, he, if_neg hp] at hw
            cases hw
          refine .last hcut (none, c) fun i o hi _ => ?_
          rw [← hlong, hend i o hi, if_neg hp, if_pos hlong]
        | false =>
          rw [cutOff_args hs hL he hp rfl]
          rw [hlong] at hend
          cases hss : star && scan with
          | true =>
            have hargs : convArgs scan star b = [] := by
              rw [Bool.and_eq_true] at hss
              rw [convArgs, hss.1, hss.2]
              rfl
            have hnil : Obtains c.as max a slots.length [] := ⟨hfit, rfl⟩
            rw [hargs, and_iff_right hnil]
            refine (ih .outside ht hnz' hfit).cons fun i o hi ho => ⟨i, o, by omega, by omega, ?_⟩
            rw [hend i o hi, if_neg hp, if_neg Bool.false_ne_true, if_pos hss]
            rfl
          | false =>
            have hconv := @conv_reads scan max p a slots c b t star hss ht
              fun a' slots' hle => @ih (p + 1) a' slots' .outside ht hnz' hle
            refine ⟨fun hcut i o hi ho => ?_, fun hcut => ?_⟩
            · rw [hend i o hi, if_neg hp, if_neg Bool.false_ne_true, hss, if_neg Bool.false_ne_true]
              exact hconv.1 hcut i o hi ho
            · obtain ⟨n, hn, r, h⟩ := hconv.2 hcut
              refine ⟨n, hn, r, fun i o hi ho => ?_⟩
              rw [hend i o hi, if_neg hp, if_neg Bool.false_ne_true, hss, if_neg Bool.false_ne_true]
              exact h i o hi ho

end Walk

/-- The walk over a format asks for its bytes in order and for none behind the terminator, and it ends,
exactly if the format is not cut off in a directive that the walk gets to. -/
theorem format_scan_stops (c : Cpu) (fmt : BitVec 64) (t : Text) (scan : Bool) (a : SysvReader) (max : Nat)
    (hrun : c.running = true) (hnz : ∀ b ∈ t, b ≠ 0) (h : HoldsString c fmt t) :
    ((∃ n ≤ t.length + 1, byteReads (eventsOf (marshalFormat fmt scan a max) c) =
        (List.range n).map fun k => fmt + BitVec.ofNat 64 k) ∧
      ∀ fuel, t.length < fuel → marshalLoop scan max fuel fmt a [] c = marshalFormat fmt scan a max c) ↔
    ¬ CutOff scan c.as max .outside a 0 t := by
  have hlen := holdsString_length h hnz
  obtain ⟨hcut, hgo⟩ := @walk_reads scan max fmt a [] c t .outside hrun h hnz (Nat.zero_le _)
  constructor
  · rintro ⟨⟨n, hn, hreads⟩, -⟩ hc
    have hmore : t.length + 2 ≤ (byteReads (eventsOf (marshalFormat fmt scan a max) c)).length :=
      hcut hc addressCount addressCount hlen hlen
    rw [hreads, List.length_map, List.length_range] at hmore
    omega
  · intro hc
    obtain ⟨n, hn, r, hwalk⟩ := hgo hc
    have hall : outcome (marshalLoop scan max addressCount fmt a []) c =
        ((List.range n).map fun k => fmt + BitVec.ofNat 64 k, r) := hwalk addressCount addressCount hlen hlen
    refine ⟨⟨n, hn, congrArg Prod.fst hall⟩, fun fuel hfuel => ?_⟩
    have heq : outcome (marshalLoop scan max fuel fmt a []) c = outcome (marshalLoop scan max addressCount fmt a []) c :=
      (hwalk fuel fuel hfuel hfuel).trans hall.symm
    exact congrArg Prod.snd heq

/-- `%d` takes one argument, and the walk ends behind it. -/
theorem format_scan_stops_plain :
    (∃ n ≤ 3, byteReads (eventsOf (marshalFormat 0x1100 false ⟨1, 0, 0x1808⟩ 64) (formatCpu [0x25, 0x64])) =
        (List.range n).map fun k => 0x1100 + BitVec.ofNat 64 k) ∧
      ∀ fuel, 2 < fuel → marshalLoop false 64 fuel 0x1100 ⟨1, 0, 0x1808⟩ [] (formatCpu [0x25, 0x64]) =
        marshalFormat 0x1100 false ⟨1, 0, 0x1808⟩ 64 (formatCpu [0x25, 0x64]) := by
  refine (format_scan_stops (formatCpu [0x25, 0x64]) 0x1100 [0x25, 0x64] false ⟨1, 0, 0x1808⟩ 64 rfl (by decide)
    ⟨by decide, by decide, by decide, by decide, by decide, by decide, trivial⟩).mpr ?_
  rintro ⟨s, l, ks, hw, -⟩
  cases hw

/-- A lone `%`, and behind its terminator `%d`. -/
def loneFormat : Text := [0x25, 0, 0x25, 0x64]

/-- The walk reads on behind the terminator and takes an argument for what it finds there. -/
theorem lone_percent_reads_on :
    HoldsString (formatCpu loneFormat) 0x1100 [0x25] ∧
      byteReads (eventsOf (marshalFormat 0x1100 false ⟨1, 0, 0x1808⟩ 64) (formatCpu loneFormat)) =
        [0x1100, 0x1101, 0x1102, 0x1103, 0x1104] ∧
      (marshalFormat 0x1100 false ⟨1, 0, 0x1808⟩ 64 (formatCpu loneFormat)).1 = some [5] := by
  refine ⟨⟨by decide, by decide, by decide, by decide, trivial⟩, by decide, by decide⟩

end Rashid.Proofs
