import Rashid.Proofs.CallAccesses
import Rashid.Proofs.Marshal

/-!
# Reading arguments back

Where System V puts an argument depends on how many of each kind come before it. The reader
counts the same, so it finds every argument in its place and reads no memory but its slot.
-/

namespace Rashid.Proofs

/-! ### Where the arguments are -/

inductive ArgPlace where
  | gp (i : Fin 16)
  | xmm (i : Fin 16)
  /-- One of the consecutive slots of eight bytes. -/
  | slot (n : Nat)
  deriving DecidableEq, Repr

/-- How many arguments are in memory: those that the six integer and the eight vector registers
do not hold. -/
def inMemory (ks : List ArgKind) : Nat := (ks.count .int - 6) + (ks.count .sse - 8)

/-- The eight vector registers that take arguments are among the sixteen. -/
lemma sse_lt_sixteen {ks : List ArgKind} (h : ks.count .sse < 8) : ks.count .sse < 16 := by omega

/-- The place of an argument of the kind `k` behind arguments of the kinds `ks`. -/
def placeAfter (ks : List ArgKind) : ArgKind → ArgPlace
  | .int =>
    match [rdi, rsi, rdx, rcx, r8, r9][ks.count .int]? with
    | some i => .gp i
    | none => .slot (inMemory ks)
  | .sse => if h : ks.count .sse < 8 then .xmm ⟨ks.count .sse, sse_lt_sixteen h⟩ else .slot (inMemory ks)

/-- The place of the argument `i`. -/
def placeAt (ks : List ArgKind) (i : Nat) : ArgPlace := placeAfter (ks.take i) (ks.getD i .int)

def slotAddr (base : BitVec 64) (n : Nat) : BitVec 64 := base + BitVec.ofNat 64 (8 * n)

namespace ArgPlace

def Holds (c : Cpu) (base v : BitVec 64) : ArgPlace → Prop
  | gp i => c.r i = v
  | xmm i => (c.xmm i).lo = v
  | slot n => OnStack c (slotAddr base n) v

/-- The memory accesses that it takes to read it. -/
def reads (base : BitVec 64) : ArgPlace → List Event
  | slot n => [.load .data (slotAddr base n) 8]
  | gp _ | xmm _ => []

instance (c : Cpu) (base v : BitVec 64) (p : ArgPlace) : Decidable (p.Holds c base v) :=
  match p with
  | gp i => inferInstanceAs (Decidable (c.r i = v))
  | xmm i => inferInstanceAs (Decidable ((c.xmm i).lo = v))
  | slot _ => inferInstanceAs (Decidable (_ ∧ _))

end ArgPlace

/-- All arguments are in their places, those in memory from `base` on. -/
def LaidOut (c : Cpu) (base : BitVec 64) (args : List (ArgKind × BitVec 64)) : Prop :=
  ∀ i : Fin args.length, (placeAt (args.map Prod.fst) i).Holds c base args[i].2

/-- The reader asked for an argument of each kind. -/
def readArgs : List ArgKind → SysvReader → M (List (BitVec 64) × SysvReader)
  | [], a => pure ([], a)
  | k :: ks, a => do
    let (v, a) ← sysvArg k a
    let (vs, a) ← readArgs ks a
    pure (v :: vs, a)

instance (k : ArgKind) (a : SysvReader) : Traced Accounts (sysvArg k a) := by
  cases k with
  | int => exact inferInstanceAs (Traced Accounts (sysvInt a))
  | sse => exact inferInstanceAs (Traced Accounts (sysvSse a))

/-! ### One argument -/

section One

variable {c : Cpu} {a : SysvReader}

lemma sysvStack_reads {v : BitVec 64} (h : OnStack c a.stack v) :
    sysvStack a c = ((v, { a with stack := a.stack + 8 }), c) ∧
      eventsOf (sysvStack a) c = [.load .data a.stack 8] := by
  refine ⟨sysvStack_eval h, ?_⟩
  show [readEvent .data a.stack 8 c] = _
  exact congrArg (fun e => [e]) (if_pos h.1)

lemma sysvInt_register {i : Fin 16} (h : argOrder[a.gp]? = some i) :
    sysvInt a c = ((c.r i, { a with gp := a.gp + 1 }), c) ∧ eventsOf (sysvInt a) c = [] := by
  obtain ⟨gp, sse, stack⟩ := a
  match gp with
  | 0 | 1 | 2 | 3 | 4 | 5 =>
    cases h
    exact ⟨rfl, rfl⟩
  | gp + 6 => cases h

lemma sysvInt_stack (h : 6 ≤ a.gp) :
    sysvInt a = sysvStack a ∧ eventsOf (sysvInt a) c = eventsOf (sysvStack a) c := by
  obtain ⟨gp, sse, stack⟩ := a
  obtain ⟨n, rfl⟩ : ∃ n, gp = n + 6 := Nat.exists_eq_add_of_le' h
  exact ⟨rfl, rfl⟩

lemma sysvSse_register (h : a.sse < 8) :
    sysvSse a c = (((c.xmm ⟨a.sse, Nat.lt_of_lt_of_le h (Nat.le_add_left 8 8)⟩).lo, { a with sse := a.sse + 1 }), c) ∧
      eventsOf (sysvSse a) c = [] := by
  constructor
  · unfold sysvSse
    rw [dif_pos h]
    rfl
  · exact dif_pos h

lemma sysvSse_stack (h : 8 ≤ a.sse) :
    sysvSse a = sysvStack a ∧ eventsOf (sysvSse a) c = eventsOf (sysvStack a) c := by
  constructor
  · unfold sysvSse
    rw [dif_neg (Nat.not_lt.mpr h)]
  · exact dif_neg (Nat.not_lt.mpr h)

end One

/-! ### All arguments -/

/-- The reader once arguments of these kinds have been read. -/
def readerAfter (base : BitVec 64) (ks : List ArgKind) : SysvReader :=
  ⟨min (ks.count .int) 6, min (ks.count .sse) 8, slotAddr base (inMemory ks)⟩

section Counts

variable (base : BitVec 64) (ks : List ArgKind)

lemma slotAddr_succ (n : Nat) : slotAddr base n + 8 = slotAddr base (n + 1) := by
  rw [slotAddr, slotAddr, Nat.mul_add, BitVec.ofNat_add, BitVec.add_assoc]
  rfl

/-- The slots are handed out one after the other. -/
lemma inMemory_append (k : ArgKind) :
    inMemory (ks ++ [k]) = inMemory ks + if 6 ≤ ks.count .int ∧ k = .int ∨ 8 ≤ ks.count .sse ∧ k = .sse then 1 else 0 := by
  cases k with
  | int =>
    have hint : (ks ++ [ArgKind.int]).count .int = ks.count .int + 1 := by simp
    have hsse : (ks ++ [ArgKind.int]).count .sse = ks.count .sse := by simp
    unfold inMemory
    rw [hint, hsse]
    by_cases h : 6 ≤ ks.count .int
    · rw [if_pos (.inl ⟨h, rfl⟩)]
      omega
    · rw [if_neg (by simp [h])]
      omega
  | sse =>
    have hint : (ks ++ [ArgKind.sse]).count .int = ks.count .int := by simp
    have hsse : (ks ++ [ArgKind.sse]).count .sse = ks.count .sse + 1 := by simp
    unfold inMemory
    rw [hint, hsse]
    by_cases h : 8 ≤ ks.count .sse
    · rw [if_pos (.inr ⟨h, rfl⟩)]
      omega
    · rw [if_neg (by simp [h])]
      omega

lemma readerAfter_int : readerAfter base (ks ++ [.int]) =
    if 6 ≤ ks.count .int then { readerAfter base ks with stack := (readerAfter base ks).stack + 8 }
    else { readerAfter base ks with gp := (readerAfter base ks).gp + 1 } := by
  have hint : (ks ++ [ArgKind.int]).count .int = ks.count .int + 1 := by simp
  have hsse : (ks ++ [ArgKind.int]).count .sse = ks.count .sse := by simp
  by_cases h : 6 ≤ ks.count .int
  · have hmem : inMemory (ks ++ [.int]) = inMemory ks + 1 := by rw [inMemory_append, if_pos (.inl ⟨h, rfl⟩)]
    have hgp : min (ks.count .int + 1) 6 = min (ks.count .int) 6 := by omega
    simp only [readerAfter, hint, hsse, hmem, slotAddr_succ, if_pos h, hgp]
  · have hmem : inMemory (ks ++ [.int]) = inMemory ks := by rw [inMemory_append, if_neg (by simp [h]), Nat.add_zero]
    have hgp : min (ks.count .int + 1) 6 = min (ks.count .int) 6 + 1 := by omega
    simp only [readerAfter, hint, hsse, hmem, if_neg h, hgp]

lemma readerAfter_sse : readerAfter base (ks ++ [.sse]) =
    if 8 ≤ ks.count .sse then { readerAfter base ks with stack := (readerAfter base ks).stack + 8 }
    else { readerAfter base ks with sse := (readerAfter base ks).sse + 1 } := by
  have hint : (ks ++ [ArgKind.sse]).count .int = ks.count .int := by simp
  have hsse : (ks ++ [ArgKind.sse]).count .sse = ks.count .sse + 1 := by simp
  by_cases h : 8 ≤ ks.count .sse
  · have hmem : inMemory (ks ++ [.sse]) = inMemory ks + 1 := by rw [inMemory_append, if_pos (.inr ⟨h, rfl⟩)]
    have hn : min (ks.count .sse + 1) 8 = min (ks.count .sse) 8 := by omega
    simp only [readerAfter, hint, hsse, hmem, slotAddr_succ, if_pos h, hn]
  · have hmem : inMemory (ks ++ [.sse]) = inMemory ks := by rw [inMemory_append, if_neg (by simp [h]), Nat.add_zero]
    have hn : min (ks.count .sse + 1) 8 = min (ks.count .sse) 8 + 1 := by omega
    simp only [readerAfter, hint, hsse, hmem, if_neg h, hn]

end Counts

section Placed

variable {c : Cpu} {base v : BitVec 64} {ks : List ArgKind}

/-- An argument is read from its place, and the reader keeps count. -/
lemma sysvArg_placed {k : ArgKind} (h : (placeAfter ks k).Holds c base v) :
    sysvArg k (readerAfter base ks) c = ((v, readerAfter base (ks ++ [k])), c) ∧
      eventsOf (sysvArg k (readerAfter base ks)) c = (placeAfter ks k).reads base := by
  cases k with
  | int =>
    rw [readerAfter_int]
    by_cases h6 : 6 ≤ ks.count .int
    · have hplace : placeAfter ks .int = .slot (inMemory ks) := by
        have hnone : [rdi, rsi, rdx, rcx, r8, r9][ks.count .int]? = none := List.getElem?_eq_none_iff.mpr h6
        simp only [placeAfter, hnone]
      have hgp : 6 ≤ (readerAfter base ks).gp := by simp [readerAfter, h6]
      rw [hplace] at h ⊢
      obtain ⟨heq, hev⟩ := @sysvInt_stack c _ hgp
      obtain ⟨hv, hload⟩ := @sysvStack_reads c (readerAfter base ks) _ h
      rw [if_pos h6]
      exact ⟨(congrFun heq c).trans hv, hev.trans hload⟩
    · have hlt : ks.count .int < 6 := Nat.not_le.mp h6
      have hgp : (readerAfter base ks).gp = ks.count .int := Nat.min_eq_left (Nat.le_of_lt hlt)
      obtain ⟨i, hi⟩ : ∃ i, argOrder[ks.count .int]? = some i := ⟨_, List.getElem?_eq_getElem hlt⟩
      have hplace : placeAfter ks .int = .gp i := by
        have hi' : [rdi, rsi, rdx, rcx, r8, r9][ks.count .int]? = some i := hi
        simp only [placeAfter, hi']
      rw [hplace] at h ⊢
      obtain ⟨hv, hload⟩ := @sysvInt_register c (readerAfter base ks) i (hgp ▸ hi)
      rw [if_neg h6, ← show c.r i = v from h]
      exact ⟨hv, hload⟩
  | sse =>
    rw [readerAfter_sse]
    by_cases h8 : ks.count .sse < 8
    · have hn : (readerAfter base ks).sse = ks.count .sse := Nat.min_eq_left (Nat.le_of_lt h8)
      have hplace : placeAfter ks .sse = .xmm ⟨ks.count .sse, by omega⟩ := dif_pos h8
      rw [hplace] at h ⊢
      obtain ⟨hv, hload⟩ := @sysvSse_register c (readerAfter base ks) (hn ▸ h8)
      rw [if_neg (Nat.not_le.mpr h8), ← show (c.xmm ⟨ks.count .sse, by omega⟩).lo = v from h]
      simp only [← hn]
      exact ⟨hv, hload⟩
    · have hle : 8 ≤ ks.count .sse := Nat.not_lt.mp h8
      have hn : 8 ≤ (readerAfter base ks).sse := by simp [readerAfter, hle]
      have hplace : placeAfter ks .sse = .slot (inMemory ks) := dif_neg h8
      rw [hplace] at h ⊢
      obtain ⟨heq, hev⟩ := @sysvSse_stack c _ hn
      obtain ⟨hv, hload⟩ := @sysvStack_reads c (readerAfter base ks) _ h
      rw [if_pos hle]
      exact ⟨(congrFun heq c).trans hv, hev.trans hload⟩

/-- The first `n` arguments. -/
lemma readArgs_placed (pre : List ArgKind) (n : Nat) {args : List (ArgKind × BitVec 64)}
    (h : ∀ i : Fin args.length, (placeAfter (pre ++ (args.map Prod.fst).take i) args[i].1).Holds c base args[i].2) :
    readArgs ((args.map Prod.fst).take n) (readerAfter base pre) c =
      (((args.map Prod.snd).take n, readerAfter base (pre ++ (args.map Prod.fst).take n)), c) := by
  induction args generalizing pre n with
  | nil =>
    rw [List.map_nil, List.map_nil, List.take_nil, List.take_nil, List.append_nil]
    rfl
  | cons x args ih =>
    obtain ⟨k, v⟩ := x
    cases n with
    | zero =>
      rw [List.take_zero, List.take_zero, List.append_nil]
      rfl
    | succ n =>
      have hhead : (placeAfter pre k).Holds c base v := by
        have h0 := h ⟨0, Nat.zero_lt_succ _⟩
        rwa [List.take_zero, List.append_nil] at h0
      have htail := ih (pre ++ [k]) n fun i => by
        have hi : (placeAfter (pre ++ k :: (args.map Prod.fst).take i) args[i].1).Holds c base args[i].2 := h i.succ
        rwa [List.append_cons] at hi
      rw [List.map_cons, List.map_cons, List.take_succ_cons, List.take_succ_cons, readArgs,
        Prog.bind_eval (sysvArg_placed hhead).1]
      simp only
      rw [Prog.bind_eval htail, List.append_assoc]
      rfl

/-- An argument in memory takes a slot of its own. -/
lemma placeAfter_slot {k : ArgKind} {n : Nat} (h : placeAfter ks k = .slot n) :
    n = inMemory ks ∧ inMemory (ks ++ [k]) = n + 1 := by
  cases k with
  | int =>
    simp only [placeAfter] at h
    split at h
    · cases h
    · rename_i hnone
      cases h
      have h6 : 6 ≤ ks.count .int := List.getElem?_eq_none_iff.mp hnone
      exact ⟨rfl, by rw [inMemory_append, if_pos (.inl ⟨h6, rfl⟩)]⟩
  | sse =>
    simp only [placeAfter] at h
    split at h
    · cases h
    · rename_i h8
      cases h
      exact ⟨rfl, by rw [inMemory_append, if_pos (.inr ⟨Nat.not_lt.mp h8, rfl⟩)]⟩

lemma inMemory_mono (ks ks' : List ArgKind) : inMemory ks ≤ inMemory (ks ++ ks') := by
  unfold inMemory
  rw [List.count_append, List.count_append]
  omega

/-- Later arguments take later slots. -/
lemma placeAt_slots {i j m n : Nat} (hij : i < j) (hj : j < ks.length) (hm : placeAt ks i = .slot m)
    (hn : placeAt ks j = .slot n) : m < n := by
  obtain ⟨-, hm'⟩ := placeAfter_slot hm
  obtain ⟨rfl, -⟩ := placeAfter_slot hn
  have hi : i < ks.length := Nat.lt_trans hij hj
  have hnext : ks.take i ++ [ks.getD i .int] = ks.take (i + 1) := by
    rw [List.getD_eq_getElem _ _ hi, List.take_append_getElem]
  have hle := inMemory_mono (ks.take (i + 1)) ((ks.take j).drop (i + 1))
  have htake : ks.take (i + 1) ++ (ks.take j).drop (i + 1) = ks.take j := by
    have h := List.take_append_drop (i + 1) (ks.take j)
    rwa [List.take_take, Nat.min_eq_left hij] at h
  rw [htake, ← hnext, hm'] at hle
  exact hle

/-- Two slots have no byte in common, as long as there is an address for each. -/
lemma slots_apart {m n : Nat} (hmn : m < n) (hn : n < 2 ^ 61) (x : BitVec 64) (h : inWindow (slotAddr base m) 8 x) :
    ¬ inWindow (slotAddr base n) 8 x := by
  unfold inWindow slotAddr at *
  bv_omega

end Placed

/-- Arguments that are laid out as System V has it are read back in order, each by an access to its
own slot or by none, and no two slots are the same. -/
theorem sysv_round_trip (c : Cpu) (args : List (ArgKind × BitVec 64)) (h : LaidOut c (c.r rsp + 8) args) :
    let ks := args.map Prod.fst
    let start : SysvReader := ⟨0, 0, c.r rsp + 8⟩
    (readArgs ks start c).1.1 = args.map Prod.snd ∧ (readArgs ks start c).2 = c ∧
    (∀ (i : Nat) (hi : i < args.length),
      (sysvArg args[i].1 (readArgs (ks.take i) start c).1.2 c).1.1 = args[i].2 ∧
      eventsOf (sysvArg args[i].1 (readArgs (ks.take i) start c).1.2) c = (placeAt ks i).reads (c.r rsp + 8)) ∧
    (∀ i j m n, i < j → j < args.length → placeAt ks i = .slot m → placeAt ks j = .slot n →
      m < n ∧ (n < 2 ^ 61 → ∀ x, inWindow (slotAddr (c.r rsp + 8) m) 8 x →
        ¬ inWindow (slotAddr (c.r rsp + 8) n) 8 x)) := by
  intro ks start
  have hstart : start = readerAfter (c.r rsp + 8) [] := by
    simp [start, readerAfter, inMemory, slotAddr]
  have hkind (i : Nat) (hi : i < args.length) : ks.getD i .int = args[i].1 := by
    rw [List.getD_eq_getElem _ _ (by simpa [ks] using hi), List.getElem_map]
  have hplaced (i : Fin args.length) : (placeAfter ([] ++ ks.take i) args[i].1).Holds c (c.r rsp + 8) args[i].2 := by
    have hi := h i
    rwa [placeAt, hkind i i.isLt] at hi
  have hread (n : Nat) := @readArgs_placed c (c.r rsp + 8) [] n _ hplaced
  rw [← hstart] at hread
  refine ⟨?_, ?_, fun i hi => ?_, fun i j m n hij hj hm hn => ?_⟩
  · have hall := hread args.length
    rw [List.take_of_length_le (by simp), List.take_of_length_le (by simp)] at hall
    exact congrArg (fun x => x.1.1) hall
  · have hall := hread args.length
    rw [List.take_of_length_le (by simp)] at hall
    exact congrArg Prod.snd hall
  · have hreader : (readArgs (ks.take i) start c).1.2 = readerAfter (c.r rsp + 8) (ks.take i) :=
      congrArg (fun x => x.1.2) (hread i)
    obtain ⟨hv, hev⟩ := sysvArg_placed (hplaced ⟨i, hi⟩)
    rw [hreader, placeAt, hkind i hi]
    exact ⟨congrArg (fun x => x.1.1) hv, hev⟩
  · have hlt := placeAt_slots hij (by simpa [ks] using hj) hm hn
    exact ⟨hlt, fun h61 => slots_apart hlt h61⟩

/-- Seven integers and nine doubles by turns, with two of them in memory. -/
def manyArgs : List (ArgKind × BitVec 64) :=
  [(.int, 0x107), (.sse, 0x200), (.int, 0x106), (.sse, 0x201), (.int, 0x102), (.sse, 0x202), (.int, 0x101), (.sse, 0x203),
    (.int, 0x108), (.sse, 0x204), (.int, 0x109), (.sse, 0x205), (.int, 0x11), (.sse, 0x206), (.sse, 0x207), (.sse, 0x22)]

def manyArgsCpu : Cpu := { nopCpu with
  r := fun i => if i = rsp then 0x1800 else 0x100 + BitVec.ofNat 64 i.val
  xmm := fun i => ⟨0x200 + BitVec.ofNat 64 i.val, 0⟩
  mem := fun a => if a = 0x1808 then 0x11 else if a = 0x1810 then 0x22 else 0 }

instance (c : Cpu) (base : BitVec 64) (args : List (ArgKind × BitVec 64)) : Decidable (LaidOut c base args) := by
  unfold LaidOut; infer_instance

theorem sysv_round_trip_many :
    (readArgs (manyArgs.map Prod.fst) ⟨0, 0, manyArgsCpu.r rsp + 8⟩ manyArgsCpu).1.1 = manyArgs.map Prod.snd :=
  (sysv_round_trip manyArgsCpu manyArgs (by decide)).1

end Rashid.Proofs
