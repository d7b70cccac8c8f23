import Rashid.Format
import Rashid.Proofs.InsnLength

/-!
# The arguments of a formatted call

`marshal_format` walks the text with one notion of a directive: a `%`, characters to skip, and a
letter that ends it. `Reads` says what it takes of a text, and the formats are compared with that.
-/

namespace Rashid.Proofs

/-! ### What the walk takes -/

/-- The letters that end a directive. -/
def endsDirective (b : BitVec 8) : Bool := charIn "diouxXcspnfFeEgGaA@%" (b.setWidth 64)

lemma endsDirective_ne : ∀ b : BitVec 8, endsDirective b = true → b ≠ 0 ∧ b ≠ 0x2A ∧ b ≠ 0x4C := by
  decide

def isFloatConv (b : BitVec 8) : Bool := charIn "fFeEgGaA" (b.setWidth 64)

/-- The slots of a directive, of whose characters only a star matters. -/
def takes (scan : Bool) (l : Text) (k : BitVec 8) : List ArgKind :=
  if scan then (if 0x2A ∈ l then [] else [.int])
  else (if 0x2A ∈ l then [.int] else []) ++ [if isFloatConv k then .sse else .int]

/-- Characters that a directive passes over. -/
def Skipped (l : Text) : Prop := ∀ b ∈ l, b ≠ 0 ∧ endsDirective b = false

/-- The walk over a text takes arguments of these kinds. -/
inductive Reads (scan : Bool) : Text → List ArgKind → Prop
  | nil : Reads scan [] []
  | plain (b : BitVec 8) {t : Text} {ks : List ArgKind} (hb : b ≠ 0 ∧ b ≠ 0x25) (h : Reads scan t ks) :
      Reads scan (b :: t) ks
  | percent {t : Text} {ks : List ArgKind} (h : Reads scan t ks) : Reads scan (0x25 :: 0x25 :: t) ks
  | take (l : Text) (k : BitVec 8) {t : Text} {ks : List ArgKind} (hl : Skipped l) (hL : 0x4C ∉ l)
      (hk : endsDirective k = true) (hp : k ≠ 0x25) (h : Reads scan t ks) :
      Reads scan (0x25 :: (l ++ k :: t)) (takes scan l k ++ ks)

namespace Reads

variable {scan : Bool}

lemma append {t t' : Text} {ks ks' : List ArgKind} (h : Reads scan t ks) (h' : Reads scan t' ks') :
    Reads scan (t ++ t') (ks ++ ks') := by
  induction h with
  | nil => exact h'
  | plain b hb _ ih => exact .plain b hb ih
  | percent _ ih => exact .percent ih
  | @take l k t ks hl hL hk hp _ ih =>
    rw [List.append_assoc, List.cons_append, List.append_assoc]
    exact .take l k hl hL hk hp ih

lemma plains {t : Text} (ht : ∀ b ∈ t, b ≠ 0 ∧ b ≠ 0x25) : Reads scan t [] := by
  induction t with
  | nil => exact .nil
  | cons b t ih =>
    exact .plain b (ht b List.mem_cons_self) (ih fun x hx => ht x (List.mem_cons_of_mem _ hx))

/-- A format whose pieces are each read. -/
lemma flatMap {α : Type} {f : List α} {text : α → Text} {ks : α → List ArgKind} (h : ∀ x ∈ f, Reads scan (text x) (ks x)) :
    Reads scan (f.flatMap text) (f.flatMap ks) := by
  induction f with
  | nil => exact .nil
  | cons x f ih =>
    rw [List.flatMap_cons, List.flatMap_cons]
    exact (h x List.mem_cons_self).append (ih fun y hy => h y (List.mem_cons_of_mem _ hy))

lemma nonzero {t : Text} {ks : List ArgKind} (h : Reads scan t ks) : ∀ b ∈ t, b ≠ 0 := by
  induction h with
  | nil => exact fun b hb => absurd hb List.not_mem_nil
  | plain b hb _ ih =>
    rw [List.forall_mem_cons]
    exact ⟨hb.1, ih⟩
  | percent _ ih =>
    rw [List.forall_mem_cons, List.forall_mem_cons]
    exact ⟨by decide, by decide, ih⟩
  | take l k hl hL hk hp _ ih =>
    rw [List.forall_mem_cons, List.forall_mem_append, List.forall_mem_cons]
    exact ⟨by decide, fun b hb => (hl b hb).1, (endsDirective_ne k hk).1, ih⟩

end Reads

/-! ### Reading the text -/

lemma charIn_star : ∀ b : BitVec 8, charIn "*" (b.setWidth 64) = (b == 0x2A) := by
  decide

lemma charIn_long : ∀ b : BitVec 8, charIn "L" (b.setWidth 64) = (b == 0x4C) := by
  decide

lemma charIn_percent : ∀ b : BitVec 8, charIn "%" (b.setWidth 64) = (b == 0x25) := by
  decide

lemma setWidth_eq_zero : ∀ b : BitVec 8, b.setWidth 64 = (0 : BitVec 64) ↔ b = 0 := by
  decide

section Text

variable {c : Cpu} {p : BitVec 64}

lemma add_one_ofNat (p : BitVec 64) (n : Nat) : p + 1 + BitVec.ofNat 64 n = p + BitVec.ofNat 64 (n + 1) := by
  rw [Nat.add_comm n 1, BitVec.ofNat_add, BitVec.add_assoc]
  rfl

lemma holdsText_append {t t' : Text} (h : HoldsText c p (t ++ t')) :
    HoldsText c p t ∧ HoldsText c (p + BitVec.ofNat 64 t.length) t' := by
  induction t generalizing p with
  | nil =>
    refine ⟨trivial, ?_⟩
    rwa [List.length_nil, BitVec.add_zero]
  | cons b t ih =>
    obtain ⟨hok, hb, h⟩ := h
    obtain ⟨ht, ht'⟩ := ih h
    refine ⟨⟨hok, hb, ht⟩, ?_⟩
    rwa [add_one_ofNat] at ht'

lemma ld_byte {b : BitVec 8} (hok : accessOk c.as p 1 rsdProtR = true) (hb : c.mem p = b) :
    ld p 1 c = (b.setWidth 64, c) := by
  have h : accessOk c.as p (BitVec.ofNat 64 1) rsdProtR = true := hok
  have hor : ((0 : BitVec 64) <<< 8) ||| b.setWidth 64 = b.setWidth 64 := by simp
  simp only [ld, h, if_true, loadLE, hb, hor]

lemma isRunning_eval (hrun : c.running = true) : isRunning c = (true, c) := by
  rw [← hrun]
  rfl

/-- The byte does not end the text. -/
lemma go_byte {b : BitVec 8} (h0 : b ≠ 0) : (!true || b.setWidth 64 == (0 : BitVec 64)) = false := by
  rw [Bool.not_true, Bool.false_or, beq_eq_false_iff_ne]
  exact fun h => h0 ((setWidth_eq_zero b).mp h)

/-- A directive is read up to the letter that ends it. -/
lemma marshalDirective_eval {l : Text} {k : BitVec 8} (hrun : c.running = true) (hl : Skipped l)
    (hk : endsDirective k = true) (fuel : Nat) (hfuel : l.length < fuel) (star long : Bool)
    (h : HoldsText c p (l ++ [k])) :
    marshalDirective fuel p star long c =
      ((p + BitVec.ofNat 64 (l.length + 1), star || decide (0x2A ∈ l), long || decide (0x4C ∈ l), k.setWidth 64), c) := by
  induction l generalizing p fuel star long with
  | nil =>
    obtain ⟨fuel, rfl⟩ : ∃ n, fuel = n + 1 := ⟨fuel - 1, by simp at hfuel; omega⟩
    obtain ⟨hok, hb, -⟩ := h
    obtain ⟨h0, hs, hL⟩ := endsDirective_ne k hk
    rw [marshalDirective, Prog.bind_eval (ld_byte hok hb),
      Prog.bind_eval (isRunning_eval hrun), go_byte h0]
    rw [charIn_star, charIn_long, beq_eq_false_iff_ne.mpr hs, beq_eq_false_iff_ne.mpr hL]
    have hconv : charIn "diouxXcspnfFeEgGaA@%" (k.setWidth 64) = true := hk
    simp only [hconv, Bool.false_eq_true, if_false, if_true, List.not_mem_nil, decide_false, Bool.or_false]
    rfl
  | cons b l ih =>
    obtain ⟨fuel, rfl⟩ : ∃ n, fuel = n + 1 := ⟨fuel - 1, by simp at hfuel; omega⟩
    obtain ⟨hok, hb, h⟩ := h
    obtain ⟨h0, hend⟩ := hl b List.mem_cons_self
    have hl' : Skipped l := fun x hx => hl x (List.mem_cons_of_mem _ hx)
    have hfuel' : l.length < fuel := by simpa using hfuel
    have hend' : charIn "diouxXcspnfFeEgGaA@%" (b.setWidth 64) = false := hend
    have hp : p + 1 + BitVec.ofNat 64 (l.length + 1) = p + BitVec.ofNat 64 ((b :: l).length + 1) := add_one_ofNat p _
    rw [marshalDirective, Prog.bind_eval (ld_byte hok hb),
      Prog.bind_eval (isRunning_eval hrun), go_byte h0]
    rw [charIn_star, charIn_long, hend']
    by_cases hs : b = 0x2A
    · simp only [hs, beq_self_eq_true, if_true, Bool.false_eq_true, if_false]
      rw [ih hl' fuel hfuel' _ _ h, hp]
      subst hs
      simp
    · rw [beq_eq_false_iff_ne.mpr hs]
      by_cases hL : b = 0x4C
      · simp only [hL, beq_self_eq_true, if_true, Bool.false_eq_true, if_false]
        rw [ih hl' fuel hfuel' _ _ h, hp]
        subst hL
        simp
      · rw [beq_eq_false_iff_ne.mpr hL]
        simp only [Bool.false_eq_true, if_false]
        rw [ih hl' fuel hfuel' _ _ h, hp]
        have hs' : (0x2A : BitVec 8) ∈ b :: l ↔ (0x2A : BitVec 8) ∈ l := List.mem_cons.trans (or_iff_right (Ne.symm hs))
        have hL' : (0x4C : BitVec 8) ∈ b :: l ↔ (0x4C : BitVec 8) ∈ l := List.mem_cons.trans (or_iff_right (Ne.symm hL))
        simp only [hs', hL']

end Text

/-! ### Reading the arguments -/

/-- The next argument of a kind. -/
def sysvArg (k : ArgKind) (a : SysvReader) : M (BitVec 64 × SysvReader) :=
  match k with
  | .int => sysvInt a
  | .sse => sysvSse a

/-- A reader whose next arguments are `args`. -/
def At (c : Cpu) (a : SysvReader) (args : List (ArgKind × BitVec 64)) : Prop := Placed c a.gp a.sse a.stack args

section Arguments

variable {c : Cpu} {a : SysvReader} {args : List (ArgKind × BitVec 64)}

lemma sysvStack_eval {v : BitVec 64} (h : OnStack c a.stack v) :
    sysvStack a c = ((v, { a with stack := a.stack + 8 }), c) := by
  have hld : ld a.stack 8 c = (v, c) := by
    have hok : accessOk c.as a.stack (BitVec.ofNat 64 8) rsdProtR = true := h.1
    simp only [ld, hok, if_true, h.2]
  unfold sysvStack
  rw [Prog.bind_eval hld]
  rfl

/-- The reader finds each argument where System V has put it. -/
lemma sysvArg_eval {k : ArgKind} {v : BitVec 64} (h : At c a ((k, v) :: args)) :
    ∃ a', sysvArg k a c = ((v, a'), c) ∧ At c a' args := by
  unfold At at h
  cases k with
  | int =>
    simp only [sysvArg, sysvInt]
    rw [Placed] at h
    cases ho : argOrder[a.gp]? with
    | some i =>
      simp only [ho] at h ⊢
      refine ⟨{ a with gp := a.gp + 1 }, ?_, h.2⟩
      rw [Prog.bind_eval (show rdR i c = (v, c) from by rw [← h.1]; rfl)]
      rfl
    | none =>
      simp only [ho] at h ⊢
      exact ⟨_, sysvStack_eval h.1, h.2⟩
  | sse =>
    simp only [sysvArg, sysvSse]
    rw [Placed] at h
    by_cases h8 : a.sse < 8
    · simp only [h8, dif_pos] at h ⊢
      refine ⟨{ a with sse := a.sse + 1 }, ?_, h.2⟩
      rw [Prog.bind_eval (show rdX ⟨a.sse, by omega⟩ c = (c.xmm ⟨a.sse, by omega⟩, c) from rfl), h.1]
      rfl
    · simp only [h8, dif_neg, not_false_eq_true] at h ⊢
      exact ⟨_, sysvStack_eval h.1, h.2⟩

/-- The fixed arguments come first. -/
lemma fixedArgs_eval (fixed : List (BitVec 64)) (h : At c a (fixed.map (ArgKind.int, ·) ++ args)) :
    ∃ a', fixedArgs fixed.length a c = ((fixed, a'), c) ∧ At c a' args := by
  induction fixed generalizing a with
  | nil => exact ⟨a, rfl, h⟩
  | cons v fixed ih =>
    obtain ⟨a1, hv, h1⟩ := sysvArg_eval h
    obtain ⟨a2, hvs, h2⟩ := ih h1
    have hint : sysvInt a c = ((v, a1), c) := hv
    refine ⟨a2, ?_, h2⟩
    rw [List.length_cons, fixedArgs, Prog.bind_eval hint]
    simp only
    rw [Prog.bind_eval hvs]
    rfl

end Arguments

/-! ### The walk -/

section Walk

variable {c : Cpu} {p : BitVec 64} {a : SysvReader} {scan : Bool} {max fuel : Nat} {slots : List (BitVec 64)}

lemma marshalLoop_end (hrun : c.running = true) (h : HoldsText c p [0]) :
    marshalLoop scan max (fuel + 1) p a slots c = (some slots, c) := by
  rw [marshalLoop, Prog.bind_eval (ld_byte h.1 h.2.1), Prog.bind_eval (isRunning_eval hrun)]
  rfl

lemma marshalLoop_plain {b : BitVec 8} (hrun : c.running = true) (h : HoldsText c p [b]) (hb : b ≠ 0 ∧ b ≠ 0x25) :
    marshalLoop scan max (fuel + 1) p a slots c = marshalLoop scan max fuel (p + 1) a slots c := by
  have h0 : b.setWidth 64 ≠ (0 : BitVec 64) := fun h => hb.1 ((setWidth_eq_zero b).mp h)
  have hp : (!charIn "%" (b.setWidth 64)) = true := by
    rw [charIn_percent, beq_eq_false_iff_ne.mpr hb.2]
    rfl
  rw [marshalLoop, Prog.bind_eval (ld_byte h.1 h.2.1), Prog.bind_eval (isRunning_eval hrun)]
  simp only [h0, hp, Bool.not_true, Bool.false_eq_true, if_false, if_true]

/-- The walk after a directive, unless its slots did not fit. -/
def goOn (scan : Bool) (max fuel : Nat) (p : BitVec 64) :
    Option (SysvReader × List (BitVec 64)) → M (Option (List (BitVec 64)))
  | none => pure none
  | some (a, slots) => marshalLoop scan max fuel p a slots

/-- What is done with a directive once it has been read. -/
def afterDirective (scan : Bool) (max fuel : Nat) (p : BitVec 64) (star long : Bool) (conv : BitVec 64) (a : SysvReader)
    (slots : List (BitVec 64)) : M (Option (List (BitVec 64))) :=
  if conv = 0 ∨ charIn "%" conv then marshalLoop scan max fuel p a slots
  else if long then pure none
  else if star && scan then marshalLoop scan max fuel p a slots
  else marshalSlots scan star conv a slots max >>= goOn scan max fuel p

lemma marshalLoop_directive {l : Text} {k : BitVec 8} (hrun : c.running = true) (hl : Skipped l)
    (hk : endsDirective k = true) (hfuel : l.length < fuel) (h : HoldsText c p (0x25 :: (l ++ [k]))) :
    marshalLoop scan max (fuel + 1) p a slots c =
      afterDirective scan max fuel (p + BitVec.ofNat 64 (l.length + 2)) (decide (0x2A ∈ l)) (decide (0x4C ∈ l))
        (k.setWidth 64) a slots c := by
  obtain ⟨hok, hb, h⟩ := h
  have hdir := marshalDirective_eval hrun hl hk fuel hfuel false false h
  rw [add_one_ofNat] at hdir
  rw [marshalLoop, Prog.bind_eval (ld_byte hok hb), Prog.bind_eval (isRunning_eval hrun)]
  have h0 : (0x25 : BitVec 8).setWidth 64 ≠ (0 : BitVec 64) := by decide
  have hp : (!charIn "%" ((0x25 : BitVec 8).setWidth 64)) = false := by decide
  simp only [h0, hp, Bool.not_true, Bool.false_eq_true, if_false]
  rw [Prog.bind_eval hdir]
  simp only [Bool.false_or]
  rfl

/-- The kind of the value that a conversion takes. -/
def convKind (scan : Bool) (k : BitVec 8) : ArgKind := if !scan && isFloatConv k then .sse else .int

/-- The value of a conversion, when there is room for it. -/
def takeValue (scan : Bool) (k : BitVec 8) (max : Nat) (a : SysvReader) (slots : List (BitVec 64)) :
    M (Option (SysvReader × List (BitVec 64))) :=
  if max ≤ slots.length then pure none
  else do
    let (v, a) ← sysvArg (convKind scan k) a
    pure (some (a, slots ++ [v]))

lemma marshalSlots_value (k : BitVec 8) :
    marshalSlots scan false (k.setWidth 64) a slots max = takeValue scan k max a slots := by
  have h : charIn "fFeEgGaA" (k.setWidth 64) = isFloatConv k := rfl
  unfold marshalSlots takeValue convKind
  rw [h]
  cases !scan && isFloatConv k <;> rfl

lemma marshalSlots_star (k : BitVec 8) : marshalSlots scan true (k.setWidth 64) a slots max =
    if max ≤ slots.length then pure none
    else sysvInt a >>= fun x => takeValue scan k max x.2 (slots ++ [x.1]) := by
  have h : charIn "fFeEgGaA" (k.setWidth 64) = isFloatConv k := rfl
  unfold marshalSlots takeValue convKind
  rw [h]
  simp only [Bool.true_and, decide_eq_true_eq, if_true]
  cases !scan && isFloatConv k <;> rfl

lemma takeValue_eval {k : BitVec 8} {v : BitVec 64} {args : List (ArgKind × BitVec 64)}
    (h : At c a ((convKind scan k, v) :: args)) (hroom : slots.length < max) :
    ∃ a', takeValue scan k max a slots c = (some (a', slots ++ [v]), c) ∧ At c a' args := by
  obtain ⟨a', hv, h'⟩ := sysvArg_eval h
  refine ⟨a', ?_, h'⟩
  unfold takeValue
  rw [if_neg (Nat.not_le.mpr hroom), Prog.bind_eval hv]
  rfl

lemma takes_scan (l : Text) (k : BitVec 8) : takes true l k = if 0x2A ∈ l then [] else [convKind true k] := rfl

lemma takes_print (l : Text) (k : BitVec 8) :
    takes false l k = (if 0x2A ∈ l then [.int] else []) ++ [convKind false k] := rfl

lemma afterDirective_conv {k : BitVec 8} {l : Text} (hk : endsDirective k = true) (hp : k ≠ 0x25) (hL : 0x4C ∉ l)
    (p : BitVec 64) (star : Bool) :
    afterDirective scan max fuel p star (decide (0x4C ∈ l)) (k.setWidth 64) a slots =
      if star && scan then marshalLoop scan max fuel p a slots
      else marshalSlots scan star (k.setWidth 64) a slots max >>= goOn scan max fuel p := by
  have hconv : ¬ (k.setWidth 64 = (0 : BitVec 64) ∨ charIn "%" (k.setWidth 64) = true) := by
    rw [charIn_percent, beq_iff_eq, setWidth_eq_zero, not_or]
    exact ⟨(endsDirective_ne k hk).1, hp⟩
  have hlong : decide ((0x4C : BitVec 8) ∈ l) = false := decide_eq_false hL
  unfold afterDirective
  rw [if_neg hconv, hlong]
  rfl

/-- The slots of a directive are its arguments. -/
lemma marshalSlots_eval {k : BitVec 8} {l : Text} {taken args : List (ArgKind × BitVec 64)}
    (hstar : ¬ (0x2A ∈ l ∧ scan = true)) (h : At c a (taken ++ args)) (hkinds : taken.map Prod.fst = takes scan l k)
    (hroom : slots.length + taken.length ≤ max) :
    ∃ a', marshalSlots scan (decide (0x2A ∈ l)) (k.setWidth 64) a slots max c =
      (some (a', slots ++ taken.map Prod.snd), c) ∧ At c a' args := by
  by_cases hs : (0x2A : BitVec 8) ∈ l
  · have hscan : scan = false := Bool.eq_false_iff.mpr fun hscan => hstar ⟨hs, hscan⟩
    subst hscan
    rw [takes_print, if_pos hs] at hkinds
    match taken, hkinds, hroom, h with
    | [(k1, v1), (k2, v2)], hkinds, hroom, h =>
      obtain ⟨rfl, rfl⟩ : k1 = .int ∧ k2 = convKind false k := by simpa using hkinds
      obtain ⟨a1, hv1, h1⟩ := sysvArg_eval h
      have hint : sysvInt a c = ((v1, a1), c) := hv1
      simp only [List.length_cons, List.length_nil] at hroom
      have hroom' : (slots ++ [v1]).length < max := by
        rw [List.length_append, List.length_singleton]
        omega
      obtain ⟨a2, hv2, h2⟩ := takeValue_eval h1 hroom'
      refine ⟨a2, ?_, h2⟩
      rw [decide_eq_true hs, marshalSlots_star, if_neg (by omega), Prog.bind_eval hint, hv2, List.append_assoc]
      rfl
  · have hone : takes scan l k = [convKind scan k] := by
      cases scan with
      | true => rw [takes_scan, if_neg hs]
      | false => rw [takes_print, if_neg hs, List.nil_append]
    rw [hone] at hkinds
    match taken, hkinds, hroom, h with
    | [(k1, v1)], hkinds, hroom, h =>
      obtain rfl : k1 = convKind scan k := by simpa using hkinds
      simp only [List.length_cons, List.length_nil] at hroom
      have hroom' : slots.length < max := by omega
      obtain ⟨a1, hv1, h1⟩ := takeValue_eval h hroom'
      refine ⟨a1, ?_, h1⟩
      rw [decide_eq_false hs, marshalSlots_value, hv1]
      rfl

lemma marshalLoop_percent (hrun : c.running = true) (hfuel : 0 < fuel) (h : HoldsText c p [0x25, 0x25]) :
    marshalLoop scan max (fuel + 1) p a slots c = marshalLoop scan max fuel (p + 2) a slots c := by
  have hl : Skipped [] := fun b hb => absurd hb List.not_mem_nil
  rw [marshalLoop_directive hrun hl (by decide) hfuel h, afterDirective, if_pos (.inr (by decide))]
  rfl

/-- The walk over a text that is read takes the arguments placed for it, in their order. -/
lemma marshalLoop_reads {t : Text} {ks : List ArgKind} (hr : Reads scan t ks) (hrun : c.running = true)
    {args : List (ArgKind × BitVec 64)} (h : HoldsString c p t) (hfuel : t.length < fuel) (hat : At c a args)
    (hkinds : args.map Prod.fst = ks) (hroom : slots.length + args.length ≤ max) :
    marshalLoop scan max fuel p a slots c = (some (slots ++ args.map Prod.snd), c) := by
  unfold HoldsString at h
  induction hr generalizing p a slots fuel args with
  | nil =>
    obtain ⟨fuel, rfl⟩ : ∃ n, fuel = n + 1 := ⟨fuel - 1, by simp at hfuel; omega⟩
    obtain rfl := List.map_eq_nil_iff.mp hkinds
    rw [marshalLoop_end hrun h, List.map_nil, List.append_nil]
  | plain b hb _ ih =>
    obtain ⟨fuel, rfl⟩ : ∃ n, fuel = n + 1 := ⟨fuel - 1, by simp at hfuel; omega⟩
    rw [marshalLoop_plain hrun ⟨h.1, h.2.1, trivial⟩ hb]
    exact ih h.2.2 (by simpa using hfuel) hat hkinds hroom
  | @percent t ks _ ih =>
    obtain ⟨fuel, rfl⟩ : ∃ n, fuel = n + 1 := ⟨fuel - 1, by simp at hfuel; omega⟩
    simp only [List.length_cons] at hfuel
    obtain ⟨hp, ht⟩ := @holdsText_append c p [0x25, 0x25] (t ++ [0]) h
    rw [marshalLoop_percent hrun (by omega) hp]
    exact ih ht (by omega) hat hkinds hroom
  | @take l k t ks hl hL hk hp _ ih =>
    obtain ⟨fuel, rfl⟩ : ∃ n, fuel = n + 1 := ⟨fuel - 1, by simp at hfuel; omega⟩
    simp only [List.length_cons, List.length_append] at hfuel
    have htext : (0x25 :: (l ++ k :: t)) ++ [0] = (0x25 :: (l ++ [k])) ++ (t ++ [0]) := by simp
    rw [htext] at h
    obtain ⟨hd, ht⟩ := holdsText_append h
    have hlen : (0x25 :: (l ++ [k])).length = l.length + 2 := by simp
    rw [hlen] at ht
    obtain ⟨taken, args', rfl, htaken, hargs'⟩ := List.map_eq_append_iff.mp hkinds
    rw [List.length_append] at hroom
    rw [marshalLoop_directive hrun hl hk (by omega) hd, afterDirective_conv hk hp hL]
    by_cases hs : (0x2A : BitVec 8) ∈ l ∧ scan = true
    · obtain ⟨hs, rfl⟩ := hs
      rw [takes_scan, if_pos hs] at htaken
      obtain rfl := List.map_eq_nil_iff.mp htaken
      rw [decide_eq_true hs, Bool.and_self, if_pos rfl]
      exact ih ht (by omega) hat hargs' (by simpa using hroom)
    · obtain ⟨a', hslots, hat'⟩ := @marshalSlots_eval c a scan max slots k l taken args' hs hat htaken (by omega)
      have hno : ¬ (decide ((0x2A : BitVec 8) ∈ l) && scan) = true := by simpa using hs
      rw [if_neg hno, Prog.bind_eval hslots, List.map_append, ← List.append_assoc]
      refine ih ht (by omega) hat' hargs' ?_
      rw [List.length_append, List.length_map]
      omega

/-! ### How many slots there are -/

lemma ld_outcome (x : BitVec 64) (n : Nat) (c : Cpu) : (ld x n c).2 = c ∨ (ld x n c).2.running = false := by
  simp only [ld]
  split
  · exact .inl rfl
  · right
    obtain ⟨_, _, _, _, h⟩ := memfault_eq x (why c.as x (BitVec.ofNat 64 n)) c
    rw [h]

lemma sysvStack_outcome (a : SysvReader) (c : Cpu) : (sysvStack a c).2 = c ∨ (sysvStack a c).2.running = false :=
  ld_outcome a.stack 8 c

lemma sysvArg_outcome (k : ArgKind) (a : SysvReader) (c : Cpu) :
    (sysvArg k a c).2 = c ∨ (sysvArg k a c).2.running = false := by
  cases k with
  | int =>
    simp only [sysvArg, sysvInt]
    cases argOrder[a.gp]? with
    | some i => exact .inl rfl
    | none => exact sysvStack_outcome a c
  | sse =>
    simp only [sysvArg, sysvSse]
    split
    · exact .inl rfl
    · exact sysvStack_outcome a c

/-- A guest that has been stopped gets no slots. -/
lemma marshalLoop_stopped (hstop : c.running = false) : (marshalLoop scan max fuel p a slots c).1 = none := by
  cases fuel with
  | zero => rfl
  | succ fuel =>
    have hrun : (ld p 1 c).2.running = false := by
      rcases ld_outcome p 1 c with h | h
      · rw [h]
        exact hstop
      · exact h
    generalize hld : ld p 1 c = r at hrun
    obtain ⟨ch, c1⟩ := r
    rw [marshalLoop, Prog.bind_eval hld, Prog.bind_eval (show isRunning c1 = (false, c1) from by rw [← hrun]; rfl)]
    rfl

/-- After a value has been taken the walk goes on with one slot more, or comes to nothing. -/
lemma takeValue_length {k : BitVec 8} {out : List (BitVec 64)}
    (h : ((takeValue scan k max a slots >>= goOn scan max fuel p) c).1 = some out) :
    ∃ a' v, (marshalLoop scan max fuel p a' (slots ++ [v]) c).1 = some out := by
  unfold takeValue at h
  by_cases hroom : max ≤ slots.length
  · rw [if_pos hroom] at h
    cases h
  rw [if_neg hroom] at h
  have hout := sysvArg_outcome (convKind scan k) a c
  generalize hr : sysvArg (convKind scan k) a c = r at hout
  obtain ⟨⟨v, a'⟩, c1⟩ := r
  have heq : ((sysvArg (convKind scan k) a >>= fun x => pure (some (x.2, slots ++ [x.1]))) >>= goOn scan max fuel p) c =
      marshalLoop scan max fuel p a' (slots ++ [v]) c1 := by
    rw [Prog.bind_apply, Prog.bind_eval hr]
    rfl
  have h' : (marshalLoop scan max fuel p a' (slots ++ [v]) c1).1 = some out := by
    rw [← heq]
    exact h
  rcases hout with hc | hstop
  · obtain rfl : c1 = c := hc
    exact ⟨a', v, h'⟩
  · rw [marshalLoop_stopped hstop] at h'
    cases h'

/-- After a directive the walk goes on with its slots, or comes to nothing. -/
lemma marshalSlots_length {k : BitVec 8} {l : Text} {out : List (BitVec 64)} (hstar : ¬ (0x2A ∈ l ∧ scan = true))
    (h : ((marshalSlots scan (decide (0x2A ∈ l)) (k.setWidth 64) a slots max >>= goOn scan max fuel p) c).1 = some out) :
    ∃ a' slots', slots'.length = slots.length + (takes scan l k).length ∧
      (marshalLoop scan max fuel p a' slots' c).1 = some out := by
  by_cases hs : (0x2A : BitVec 8) ∈ l
  · have hscan : scan = false := Bool.eq_false_iff.mpr fun hscan => hstar ⟨hs, hscan⟩
    subst hscan
    rw [decide_eq_true hs, marshalSlots_star] at h
    by_cases hroom : max ≤ slots.length
    · rw [if_pos hroom] at h
      cases h
    rw [if_neg hroom] at h
    have hout := sysvArg_outcome .int a c
    have hint : sysvArg .int a = sysvInt a := rfl
    rw [hint] at hout
    generalize hr : sysvInt a c = r at hout
    obtain ⟨⟨v, a1⟩, c1⟩ := r
    have h1 : ((takeValue false k max a1 (slots ++ [v]) >>= goOn false max fuel p) c1).1 = some out := by
      rw [Prog.bind_apply, Prog.bind_eval hr] at h
      exact h
    obtain ⟨a2, v2, h2⟩ := takeValue_length h1
    rcases hout with hc | hstop
    · obtain rfl : c1 = c := hc
      refine ⟨a2, slots ++ [v] ++ [v2], ?_, h2⟩
      rw [takes_print, if_pos hs]
      simp
    · rw [marshalLoop_stopped hstop] at h2
      cases h2
  · have hone : (takes scan l k).length = 1 := by
      cases scan with
      | true => rw [takes_scan, if_neg hs]; rfl
      | false => rw [takes_print, if_neg hs]; rfl
    rw [decide_eq_false hs, marshalSlots_value] at h
    obtain ⟨a1, v, h1⟩ := takeValue_length h
    refine ⟨a1, slots ++ [v], ?_, h1⟩
    rw [List.length_append, List.length_singleton, hone]

/-- The walk over a text that is read has as many slots as it takes arguments, if it has any. -/
lemma marshalLoop_length {t : Text} {ks : List ArgKind} (hr : Reads scan t ks) (hrun : c.running = true)
    {out : List (BitVec 64)} (h : HoldsString c p t) (hfuel : t.length < fuel)
    (hout : (marshalLoop scan max fuel p a slots c).1 = some out) : out.length = slots.length + ks.length := by
  unfold HoldsString at h
  induction hr generalizing p a slots fuel with
  | nil =>
    obtain ⟨fuel, rfl⟩ : ∃ n, fuel = n + 1 := ⟨fuel - 1, by simp at hfuel; omega⟩
    rw [marshalLoop_end hrun h] at hout
    obtain rfl := Option.some.inj hout
    rfl
  | plain b hb _ ih =>
    obtain ⟨fuel, rfl⟩ : ∃ n, fuel = n + 1 := ⟨fuel - 1, by simp at hfuel; omega⟩
    rw [marshalLoop_plain hrun ⟨h.1, h.2.1, trivial⟩ hb] at hout
    exact ih h.2.2 (by simpa using hfuel) hout
  | @percent t ks _ ih =>
    obtain ⟨fuel, rfl⟩ : ∃ n, fuel = n + 1 := ⟨fuel - 1, by simp at hfuel; omega⟩
    simp only [List.length_cons] at hfuel
    obtain ⟨hp, ht⟩ := @holdsText_append c p [0x25, 0x25] (t ++ [0]) h
    rw [marshalLoop_percent hrun (by omega) hp] at hout
    exact ih ht (by omega) hout
  | @take l k t ks hl hL hk hp _ ih =>
    obtain ⟨fuel, rfl⟩ : ∃ n, fuel = n + 1 := ⟨fuel - 1, by simp at hfuel; omega⟩
    simp only [List.length_cons, List.length_append] at hfuel
    have htext : (0x25 :: (l ++ k :: t)) ++ [0] = (0x25 :: (l ++ [k])) ++ (t ++ [0]) := by simp
    rw [htext] at h
    obtain ⟨hd, ht⟩ := holdsText_append h
    have hlen : (0x25 :: (l ++ [k])).length = l.length + 2 := by simp
    rw [hlen] at ht
    rw [marshalLoop_directive hrun hl hk (by omega) hd, afterDirective_conv hk hp hL] at hout
    by_cases hs : (0x2A : BitVec 8) ∈ l ∧ scan = true
    · obtain ⟨hs, rfl⟩ := hs
      rw [decide_eq_true hs, Bool.and_self, if_pos rfl] at hout
      rw [takes_scan, if_pos hs]
      exact ih ht (by omega) hout
    · have hno : ¬ (decide ((0x2A : BitVec 8) ∈ l) && scan) = true := by simpa using hs
      rw [if_neg hno] at hout
      obtain ⟨a', slots', hslots, hout'⟩ := marshalSlots_length hs hout
      rw [ih ht (by omega) hout', hslots, List.length_append]
      omega

end Walk

/-! ### The formats -/

/-- Characters of a directive that are neither a star nor an `L`. -/
def Quiescent (b : BitVec 8) : Prop := b ≠ 0 ∧ endsDirective b = false ∧ b ≠ 0x2A ∧ b ≠ 0x4C

instance (b : BitVec 8) : Decidable (Quiescent b) := by
  unfold Quiescent; infer_instance

lemma digit_quiescent : ∀ d : Fin 10, Quiescent (digit d) := by
  decide

lemma flag_quiescent (f : Flag) : Quiescent f.byte := by
  cases f <;> decide

lemma length_quiescent (n : Length) : ∀ b ∈ n.text, Quiescent b := by
  cases n <;> decide

lemma digits_quiescent (ds : List (Fin 10)) : ∀ b ∈ ds.map digit, Quiescent b := by
  intro b hb
  obtain ⟨d, -, rfl⟩ := List.mem_map.mp hb
  exact digit_quiescent d

lemma conv_ends (k : Conv) : endsDirective k.byte = true ∧ k.byte ≠ 0x25 := by
  cases k <;> decide

lemma conv_kind (k : Conv) : convKind false k.byte = k.kind := by
  cases k <;> decide

section Printf

/-- In the middle of a directive everything is passed over, and only a star counts. -/
lemma middle_skipped (d : Directive) : (∀ b ∈ d.middle, b = 0x2A ∨ Quiescent b) := by
  have hcount (n : Count) : ∀ b ∈ n.text, b = 0x2A ∨ Quiescent b := by
    cases n with
    | digits ds => exact fun b hb => .inr (digits_quiescent ds b hb)
    | star => exact fun b hb => .inl (List.mem_singleton.mp hb)
  unfold Directive.middle
  simp only [List.forall_mem_append]
  refine ⟨⟨⟨?_, hcount d.width⟩, ?_⟩, fun b hb => .inr (length_quiescent d.length b hb)⟩
  · intro b hb
    obtain ⟨f, -, rfl⟩ := List.mem_map.mp hb
    exact .inr (flag_quiescent f)
  · unfold Directive.precisionText
    cases d.precision with
    | none => exact fun b hb => absurd hb List.not_mem_nil
    | some n =>
      rw [List.forall_mem_cons]
      exact ⟨.inr (by decide), hcount n⟩

lemma middle_star (d : Directive) : 0x2A ∈ d.middle ↔ d.width = .star ∨ d.precision = some .star := by
  have hq {t : Text} (h : ∀ b ∈ t, Quiescent b) : (0x2A : BitVec 8) ∉ t := fun hm => (h _ hm).2.2.1 rfl
  have hcount (n : Count) : (0x2A : BitVec 8) ∈ n.text ↔ n = .star := by
    cases n with
    | digits ds => exact iff_of_false (hq (digits_quiescent ds)) (by simp)
    | star => exact iff_of_true List.mem_cons_self rfl
  have hflags : (0x2A : BitVec 8) ∉ d.flags.map Flag.byte := by
    refine hq fun b hb => ?_
    obtain ⟨f, -, rfl⟩ := List.mem_map.mp hb
    exact flag_quiescent f
  have hprec : (0x2A : BitVec 8) ∈ d.precisionText ↔ d.precision = some .star := by
    unfold Directive.precisionText
    cases d.precision with
    | none => exact iff_of_false List.not_mem_nil (by simp)
    | some n =>
      rw [List.mem_cons, hcount, Option.some.injEq]
      exact or_iff_right (by decide)
  unfold Directive.middle
  rw [List.mem_append, List.mem_append, List.mem_append, hcount, hprec]
  have hlen := hq (length_quiescent d.length)
  tauto

/-- The arguments that the walk takes for a directive. -/
def Directive.taken (d : Directive) : List ArgKind :=
  (if d.width = .star ∨ d.precision = some .star then [.int] else []) ++ [d.conv.kind]

def PrintfPiece.taken : PrintfPiece → List ArgKind
  | .conv d => Directive.taken d
  | _ => []

lemma directive_taken (d : Directive) : takes false d.middle d.conv.byte = Directive.taken d := by
  rw [takes_print, conv_kind, Directive.taken]
  simp only [middle_star]

lemma printf_reads (x : PrintfPiece) : Reads false x.text (PrintfPiece.taken x) := by
  cases x with
  | plain b h => exact .plain b h .nil
  | percent => exact .percent .nil
  | conv d =>
    have hL : (0x4C : BitVec 8) ∉ d.middle := by
      intro hm
      rcases middle_skipped d _ hm with h | h
      · exact absurd h (by decide)
      · exact h.2.2.2 rfl
    have hskip : Skipped d.middle := by
      intro b hb
      rcases middle_skipped d b hb with rfl | h
      · decide
      · exact ⟨h.1, h.2.1⟩
    have h := Reads.take d.middle d.conv.byte hskip hL (conv_ends d.conv).1 (conv_ends d.conv).2 (@Reads.nil false)
    rw [directive_taken, List.append_nil] at h
    exact h

/-- Two stars are one argument short. -/
lemma taken_args (x : PrintfPiece) :
    (PrintfPiece.taken x).length + (if x.twoStars then 1 else 0) = x.args.length ∧
      (x.twoStars = false → PrintfPiece.taken x = x.args) := by
  cases x with
  | plain b h => exact ⟨rfl, fun _ => rfl⟩
  | percent => exact ⟨rfl, fun _ => rfl⟩
  | conv d =>
    obtain ⟨flags, width, precision, length, conv⟩ := d
    cases width <;> rcases precision with - | ds | - <;>
      simp [PrintfPiece.taken, Directive.taken, PrintfPiece.twoStars, Directive.twoStars, PrintfPiece.args, Directive.args,
        Directive.precisionArgs, Count.args, Count.isStar]

end Printf

section Scanf

/-- A set that is read as if it were a conversion: the first of its characters that ends a
directive is not a `%`, before it there is no `L` and no star that would suppress it, and behind
it no `%`. -/
def ScanSet.readable (s : ScanSet) (suppress : Bool) : Bool :=
  match s.text.dropWhile fun b => !endsDirective b with
  | [] => false
  | k :: behind =>
    let before := s.text.takeWhile fun b => !endsDirective b
    k != 0x25 && !decide (0x4C ∈ before) && (suppress || !decide (0x2A ∈ before)) && !decide (0x25 ∈ behind)

def ScanfPiece.readable : ScanfPiece → Bool
  | .set suppress _ _ cs => ScanSet.readable cs suppress
  | _ => true

variable (suppress : Bool) (width : List (Fin 10)) (n : Length)

/-- What stands between the `%` and the conversion, or the set. -/
def scanHead : Text := ScanfPiece.starText suppress ++ width.map digit ++ n.text

lemma scanHead_skipped : ∀ b ∈ scanHead suppress width n, b = 0x2A ∨ Quiescent b := by
  unfold scanHead ScanfPiece.starText
  simp only [List.forall_mem_append]
  refine ⟨⟨?_, fun b hb => .inr (digits_quiescent width b hb)⟩, fun b hb => .inr (length_quiescent n b hb)⟩
  cases suppress with
  | true => exact fun b hb => .inl (List.mem_singleton.mp hb)
  | false => exact fun b hb => absurd hb List.not_mem_nil

lemma scanHead_star : 0x2A ∈ scanHead suppress width n ↔ suppress = true := by
  have hd : (0x2A : BitVec 8) ∉ width.map digit := fun hm => (digits_quiescent width _ hm).2.2.1 rfl
  have hn : (0x2A : BitVec 8) ∉ n.text := fun hm => (length_quiescent n _ hm).2.2.1 rfl
  unfold scanHead ScanfPiece.starText
  rw [List.mem_append, List.mem_append]
  cases suppress with
  | true => exact iff_of_true (.inl (.inl List.mem_cons_self)) rfl
  | false =>
    refine iff_of_false ?_ (by decide)
    rintro ((h | h) | h)
    · exact absurd h List.not_mem_nil
    · exact hd h
    · exact hn h

lemma scanHead_read : Skipped (scanHead suppress width n) ∧ 0x4C ∉ scanHead suppress width n := by
  refine ⟨fun b hb => ?_, fun hm => ?_⟩
  · rcases scanHead_skipped suppress width n b hb with rfl | h
    · decide
    · exact ⟨h.1, h.2.1⟩
  · rcases scanHead_skipped suppress width n _ hm with h | h
    · exact absurd h (by decide)
    · exact h.2.2.2 rfl

lemma scanSet_nonzero (cs : ScanSet) : ∀ b ∈ cs.text, b ≠ 0 := by
  unfold ScanSet.text
  rw [List.forall_mem_append, List.forall_mem_cons]
  refine ⟨?_, cs.first_ne.1, fun b hb => (cs.rest_ne b hb).1⟩
  cases cs.negated with
  | true => decide
  | false => exact fun b hb => absurd hb List.not_mem_nil

lemma set_reads (cs : ScanSet) (h : ScanSet.readable cs suppress = true) :
    Reads true (ScanfPiece.set suppress width n cs).text (ScanfPiece.set suppress width n cs).args := by
  have hnz := scanSet_nonzero cs
  have hsplit : cs.text.takeWhile (fun b => !endsDirective b) ++ cs.text.dropWhile (fun b => !endsDirective b) = cs.text :=
    List.takeWhile_append_dropWhile
  have hbefore : ∀ b ∈ cs.text.takeWhile (fun b => !endsDirective b), endsDirective b = false := by
    intro b hb
    have hp := List.all_eq_true.mp List.all_takeWhile b hb
    exact (Bool.not_eq_true' _).mp hp
  unfold ScanSet.readable at h
  cases hd : cs.text.dropWhile (fun b => !endsDirective b) with
  | nil =>
    rw [hd] at h
    cases h
  | cons k behind =>
    have hk : endsDirective k = true := by
      have hne : cs.text.dropWhile (fun b => !endsDirective b) ≠ [] := by
        rw [hd]
        exact List.cons_ne_nil _ _
      have hp := List.head_dropWhile_not (fun b => !endsDirective b) hne
      simp only [hd, List.head_cons] at hp
      simpa using hp
    rw [hd] at h hsplit
    simp only [Bool.and_eq_true, bne_iff_ne, ne_eq, Bool.not_eq_true', decide_eq_false_iff_not, Bool.or_eq_true] at h
    generalize cs.text.takeWhile (fun b => !endsDirective b) = before at h hsplit hbefore
    obtain ⟨⟨⟨hp, hL⟩, hs⟩, hbehind⟩ := h
    rw [← hsplit] at hnz
    simp only [List.forall_mem_append, List.forall_mem_cons] at hnz
    obtain ⟨hhead, hheadL⟩ := scanHead_read suppress width n
    have hskip : Skipped (scanHead suppress width n ++ 0x5B :: before) := by
      intro b hb
      rcases List.mem_append.mp hb with hb | hb
      · exact hhead b hb
      · rcases List.mem_cons.mp hb with rfl | hb
        · decide
        · exact ⟨hnz.1 b hb, hbefore b hb⟩
    have hnoL : (0x4C : BitVec 8) ∉ scanHead suppress width n ++ 0x5B :: before := by
      rw [List.mem_append, List.mem_cons]
      rintro (hm | hm | hm)
      · exact hheadL hm
      · exact absurd hm (by decide)
      · exact hL hm
    have hstar : (0x2A : BitVec 8) ∈ scanHead suppress width n ++ 0x5B :: before ↔ suppress = true := by
      rw [List.mem_append, List.mem_cons, scanHead_star]
      refine ⟨?_, .inl⟩
      rintro (hm | hm | hm)
      · exact hm
      · exact absurd hm (by decide)
      · exact hs.resolve_right fun h => h hm
    have hrest : Reads true (behind ++ [0x5D]) [] := by
      refine .plains fun b hb => ?_
      rcases List.mem_append.mp hb with hb | hb
      · exact ⟨hnz.2.2 b hb, fun h => hbehind (h ▸ hb)⟩
      · rw [List.mem_singleton.mp hb]
        decide
    have hread := Reads.take _ k hskip hnoL hk hp hrest
    rw [takes_scan, List.append_nil] at hread
    simp only [hstar] at hread
    have htext : (ScanfPiece.set suppress width n cs).text =
        0x25 :: ((scanHead suppress width n ++ 0x5B :: before) ++ k :: (behind ++ [0x5D])) := by
      simp only [ScanfPiece.text, scanHead, ← hsplit, List.append_assoc, List.cons_append]
    rw [htext]
    exact hread

lemma scanf_reads (x : ScanfPiece) (h : ScanfPiece.readable x = true) : Reads true x.text x.args := by
  cases x with
  | plain b hb => exact .plain b hb .nil
  | percent => exact .percent .nil
  | conv suppress width n k =>
    obtain ⟨hskip, hL⟩ := scanHead_read suppress width n
    have hread := Reads.take _ k.byte hskip hL (conv_ends k).1 (conv_ends k).2 (@Reads.nil true)
    rw [takes_scan, List.append_nil] at hread
    simp only [scanHead_star] at hread
    exact hread
  | set suppress width n cs => exact set_reads suppress width n cs h

end Scanf

/-! ### The theorem -/

lemma holdsText_get {c : Cpu} {p : BitVec 64} {t : Text} (h : HoldsText c p t) (i : Nat) (hi : i < t.length) :
    c.mem (p + BitVec.ofNat 64 i) = t[i] := by
  induction t generalizing p i with
  | nil => exact absurd hi (Nat.not_lt_zero i)
  | cons b t ih =>
    cases i with
    | zero =>
      rw [BitVec.add_zero]
      exact h.2.1
    | succ i =>
      rw [← add_one_ofNat]
      exact ih h.2.2 i (Nat.lt_of_succ_lt_succ hi)

/-- A string is shorter than the address space: past that, its end would lie on itself. -/
lemma holdsString_length {c : Cpu} {p : BitVec 64} {t : Text} (h : HoldsString c p t) (hnz : ∀ b ∈ t, b ≠ 0) :
    t.length < addressCount := by
  by_contra hlen
  have hle : 2 ^ 64 ≤ t.length := Nat.not_lt.mp hlen
  have hend := holdsText_get h t.length (by simp)
  have hself := holdsText_get h (t.length - 2 ^ 64) (by rw [List.length_append]; omega)
  have haddr : BitVec.ofNat 64 (t.length - 2 ^ 64) = BitVec.ofNat 64 t.length := by
    apply BitVec.eq_of_toNat_eq
    simp only [BitVec.toNat_ofNat]
    omega
  rw [haddr, hend, List.getElem_concat_length rfl, List.getElem_append_left (by omega)] at hself
  exact hnz _ (List.getElem_mem _) hself.symm

lemma marshalFormat_reads {c : Cpu} {fmt : BitVec 64} {a : SysvReader} {scan : Bool} {t : Text} {ks : List ArgKind}
    {args : List (ArgKind × BitVec 64)} (hr : Reads scan t ks) (hrun : c.running = true) (h : HoldsString c fmt t)
    (hat : At c a args) (hkinds : args.map Prod.fst = ks) (hlen : args.length ≤ 64) :
    (marshalFormat fmt scan a 64 c).1 = some (args.map Prod.snd) := by
  unfold marshalFormat
  rw [marshalLoop_reads hr hrun h (holdsString_length h hr.nonzero) hat hkinds (by simpa using hlen)]
  rfl

lemma flatMap_taken {f : List PrintfPiece} :
    (f.flatMap PrintfPiece.taken).length + f.countP PrintfPiece.twoStars = (f.flatMap PrintfPiece.args).length := by
  induction f with
  | nil => rfl
  | cons x f ih =>
    have hx := (taken_args x).1
    rw [List.flatMap_cons, List.flatMap_cons, List.length_append, List.length_append, List.countP_cons]
    omega

/-- The slots of a formatted call are the arguments that its format takes, placed as System V
places them behind the fixed ones: for `printf` exactly when no directive has both its width and
its precision as arguments, and for `scanf` when each set is read as a conversion. -/
theorem marshal_format_args (c : Cpu) (fmt : BitVec 64) (fixed : List (BitVec 64)) (args : List (ArgKind × BitVec 64))
    (hrun : c.running = true) (hplaced : Placed c 0 0 (c.r rsp + 8) (fixed.map (ArgKind.int, ·) ++ args))
    (hlen : args.length ≤ 64) :
    ∃ a, fixedArgs fixed.length ⟨0, 0, c.r rsp + 8⟩ c = ((fixed, a), c) ∧
      (∀ f : List PrintfPiece, HoldsString c fmt (f.flatMap PrintfPiece.text) →
        args.map Prod.fst = f.flatMap PrintfPiece.args →
        ((marshalFormat fmt false a 64 c).1 = some (args.map Prod.snd) ↔ ∀ x ∈ f, x.twoStars = false)) ∧
      (∀ f : List ScanfPiece, HoldsString c fmt (f.flatMap ScanfPiece.text) →
        args.map Prod.fst = f.flatMap ScanfPiece.args → (∀ x ∈ f, ScanfPiece.readable x = true) →
        (marshalFormat fmt true a 64 c).1 = some (args.map Prod.snd)) := by
  obtain ⟨a, hfixed, hat⟩ := @fixedArgs_eval c ⟨0, 0, c.r rsp + 8⟩ args fixed hplaced
  refine ⟨a, hfixed, fun f htext hkinds => ⟨fun hout => ?_, fun hone => ?_⟩, fun f htext hkinds hreadable => ?_⟩
  · have hr : Reads false (f.flatMap PrintfPiece.text) (f.flatMap PrintfPiece.taken) := .flatMap fun x _ => printf_reads x
    have hslots := marshalLoop_length hr hrun htext (holdsString_length htext hr.nonzero) hout
    have hcount := @flatMap_taken f
    have hargs := congrArg List.length hkinds
    rw [List.length_map] at hargs
    rw [List.length_map, List.length_nil] at hslots
    have hzero : f.countP PrintfPiece.twoStars = 0 := by omega
    intro x hx
    exact Bool.eq_false_iff.mpr (List.countP_eq_zero.mp hzero x hx)
  · have hr : Reads false (f.flatMap PrintfPiece.text) (f.flatMap PrintfPiece.args) :=
      .flatMap fun x hx => (taken_args x).2 (hone x hx) ▸ printf_reads x
    exact marshalFormat_reads hr hrun htext hat hkinds hlen
  · have hr : Reads true (f.flatMap ScanfPiece.text) (f.flatMap ScanfPiece.args) :=
      .flatMap fun x hx => scanf_reads x (hreadable x hx)
    exact marshalFormat_reads hr hrun htext hat hkinds hlen

/-- A call with a format at `0x1100` and three integers and a double behind it. -/
def formatCpu (t : Text) : Cpu := { nopCpu with
  mem := fun a => t.getD (a - 0x1100).toNat 0
  r := fun i => if i = rdi then 0x1100 else if i = rsi then 5 else if i = rdx then 3 else if i = rcx then 42
    else if i = rsp then 0x1800 else 0
  xmm := fun _ => ⟨7, 0⟩ }

/-- `%*d` and `%f`. -/
def starFormat : List PrintfPiece :=
  [.conv ⟨[], .star, none, .none, .d⟩, .conv ⟨[], .digits [], none, .none, .f⟩]

theorem marshal_format_star : ∃ a, fixedArgs 1 ⟨0, 0, 0x1808⟩ (formatCpu (starFormat.flatMap PrintfPiece.text)) =
      (([0x1100], a), formatCpu (starFormat.flatMap PrintfPiece.text)) ∧
    (marshalFormat 0x1100 false a 64 (formatCpu (starFormat.flatMap PrintfPiece.text))).1 = some [5, 3, 7] := by
  obtain ⟨a, hfixed, hprintf, -⟩ := marshal_format_args (formatCpu (starFormat.flatMap PrintfPiece.text)) 0x1100 [0x1100]
    [(.int, 5), (.int, 3), (.sse, 7)] rfl ⟨rfl, rfl, rfl, rfl, trivial⟩ (by decide)
  have htext : HoldsString (formatCpu (starFormat.flatMap PrintfPiece.text)) 0x1100
      (starFormat.flatMap PrintfPiece.text) := by
    refine ⟨?_, ?_, ?_, ?_, ?_, ?_, ?_, ?_, ?_, ?_, ?_, ?_, trivial⟩ <;> decide
  exact ⟨a, hfixed, (hprintf starFormat htext rfl).mpr (by decide)⟩

/-- `%*.*d` -/
def twoStarFormat : List PrintfPiece := [.conv ⟨[], .star, some .star, .none, .d⟩]

/-- `%[0-9]%d` -/
def setFormat : List ScanfPiece :=
  [.set false [] .none ⟨false, 0x30, [0x2D, 0x39], by decide, by decide⟩, .conv false [] .none .d]

/-- Of the three arguments of the first only two are taken, and of the two pointers of the second none. -/
theorem stars_and_sets_misread :
    (HoldsString (formatCpu (twoStarFormat.flatMap PrintfPiece.text)) 0x1100 (twoStarFormat.flatMap PrintfPiece.text) ∧
      Placed (formatCpu (twoStarFormat.flatMap PrintfPiece.text)) 0 0 0x1808
        [(.int, 0x1100), (.int, 5), (.int, 3), (.int, 42)] ∧
      twoStarFormat.flatMap PrintfPiece.args = [.int, .int, .int] ∧
      (marshalFormat 0x1100 false ⟨1, 0, 0x1808⟩ 64
        (formatCpu (twoStarFormat.flatMap PrintfPiece.text))).1 = some [5, 3]) ∧
    (HoldsString (formatCpu (setFormat.flatMap ScanfPiece.text)) 0x1100 (setFormat.flatMap ScanfPiece.text) ∧
      Placed (formatCpu (setFormat.flatMap ScanfPiece.text)) 0 0 0x1808 [(.int, 0x1100), (.int, 5), (.int, 3)] ∧
      setFormat.flatMap ScanfPiece.args = [.int, .int] ∧
      (marshalFormat 0x1100 true ⟨1, 0, 0x1808⟩ 64 (formatCpu (setFormat.flatMap ScanfPiece.text))).1 = some []) := by
  refine ⟨⟨?_, ⟨rfl, rfl, rfl, rfl, trivial⟩, rfl, by decide⟩, ?_, ⟨rfl, rfl, rfl, trivial⟩, rfl, by decide⟩
  · refine ⟨?_, ?_, ?_, ?_, ?_, ?_, ?_, ?_, ?_, ?_, ?_, ?_, trivial⟩ <;> decide
  · refine ⟨?_, ?_, ?_, ?_, ?_, ?_, ?_, ?_, ?_, ?_, ?_, ?_, ?_, ?_, ?_, ?_, ?_, ?_, trivial⟩ <;> decide

end Rashid.Proofs
