import Rashid.Proofs.HostMapping
import Rashid.Proofs.StepPrims
import Rashid.Syscall

/-!
# Protection, byte by byte

A check that passes through `rsd_as_ok` is right about every byte. One that passes because the
range is not all recorded says nothing about the part that is.
-/

namespace Rashid.Proofs

/-- Some recorded region holds the byte and allows the access. -/
def Allowed (as : As) (prot : BitVec 32) (x : BitVec 64) : Prop :=
  ∃ r ∈ as.reg, r.has x = true ∧ r.allows prot = true

/-- Every recorded byte of a range allows the access. -/
def PerByte (as : As) (a n : BitVec 64) (prot : BitVec 32) : Prop :=
  ∀ x, InRange a n x → Tracked as x → Allowed as prot x

/-- The bounds within which an address that is not recorded is left to the host. -/
def userRange (a n : BitVec 64) : Bool :=
  decide (rsdMinValid ≤ a) && decide (a < rsdMaxValid) && decide (n ≤ rsdMaxValid - a)

/-- A range among user addresses that is not all recorded, with a recorded byte in it that does
not allow the access. -/
def Straddles (as : As) (a n : BitVec 64) (prot : BitVec 32) : Prop :=
  rsdAsMapped as a n = false ∧ userRange a n = true ∧ ∃ x, InRange a n x ∧ Tracked as x ∧ ¬ Allowed as prot x

section RangeChecks

variable {as : As} {p q : Region → Bool}

/-- The loop has met every byte of its range in a region that passes the test. -/
lemma rangeLoop_covers {fuel : Nat} {a n : BitVec 64} (hn : a.toNat + n.toNat ≤ 2 ^ 64)
    (h : rangeLoop as p fuel a n = true) {x : BitVec 64} (hx : InRange a n x) :
    ∃ r ∈ as.reg, r.has x = true ∧ p r = true := by
  induction fuel generalizing a n with
  | zero =>
    have h0 : n = 0 := eq_of_beq h
    obtain ⟨hlo, hhi⟩ := hx
    rw [h0] at hhi
    exact absurd hlo (Nat.not_le.mpr hhi)
  | succ fuel ih =>
    rw [rangeLoop] at h
    by_cases h0 : n = 0
    · obtain ⟨hlo, hhi⟩ := hx
      rw [h0] at hhi
      exact absurd hlo (Nat.not_le.mpr hhi)
    rw [if_neg h0] at h
    cases hf : find as a with
    | none =>
      rw [hf] at h
      cases h
    | some r =>
      have hr : r ∈ as.reg := List.mem_of_find?_eq_some hf
      have hha : r.has a = true := by simpa using List.find?_some hf
      have hra := (has_iff r a).mp hha
      simp only [hf] at h
      have hp : p r = true := by
        by_contra hc
        rw [if_pos (Bool.eq_false_iff.mpr hc)] at h
        cases h
      rw [hp, if_neg (by decide)] at h
      by_cases hin : x.toNat < r.stop.toNat
      · exact ⟨r, hr, (has_iff r x).mpr ⟨Nat.le_trans hra.1 hx.1, hin⟩, hp⟩
      · -- the byte lies behind this region, so the loop has gone on
        obtain ⟨hlo, hhi⟩ := hx
        have havail : ¬ n ≤ r.stop - a := by
          intro hle
          bv_omega
        rw [if_neg havail] at h
        have ha : a + (r.stop - a) = r.stop := by bv_omega
        rw [ha] at h
        refine ih ?_ h ⟨by omega, ?_⟩
        · bv_omega
        · bv_omega

lemma rangeCheck_covers {a n : BitVec 64} (h : rangeCheck as p a n = true) {x : BitVec 64} (hx : InRange a n x) :
    ∃ r ∈ as.reg, r.has x = true ∧ p r = true := by
  unfold rangeCheck at h
  by_cases h0 : n = 0
  · obtain ⟨hlo, hhi⟩ := hx
    rw [h0] at hhi
    exact absurd hlo (Nat.not_le.mpr hhi)
  rw [if_neg h0] at h
  by_cases hw : a + n < a
  · rw [if_pos hw] at h
    cases h
  · rw [if_neg hw] at h
    exact rangeLoop_covers (by bv_omega) h hx

end RangeChecks

section Checks

variable (as : As) (a n : BitVec 64) (prot : BitVec 32)

lemma accessOk_eq : accessOk as a n prot =
    (rsdAsOk as a n prot || (!rsdAsMapped as a n && userRange a n)) := by
  unfold accessOk userRange
  cases rsdAsOk as a n prot <;> cases rsdAsMapped as a n <;> rfl

/-- A range that passes is right about every byte exactly when it does not straddle. -/
lemma perByte_iff : (accessOk as a n prot = true → PerByte as a n prot) ↔ ¬ Straddles as a n prot := by
  constructor
  · rintro h ⟨hmap, huser, x, hx, ht, hna⟩
    refine hna (h ?_ x hx ht)
    rw [accessOk_eq, hmap, huser, Bool.not_false, Bool.true_and, Bool.or_true]
  · intro hs hok x hx ht
    by_contra hna
    rw [accessOk_eq, Bool.or_eq_true, Bool.and_eq_true, Bool.not_eq_true'] at hok
    rcases hok with hok | ⟨hmap, huser⟩
    · obtain ⟨r, hr, hrx, hp⟩ := rangeCheck_covers hok hx
      exact hna ⟨r, hr, hrx, hp⟩
    · exact hs ⟨hmap, huser, x, hx, ht, hna⟩

end Checks

/-! ### What guest accesses touch -/

lemma rangeCheck_no_wrap {as : As} {p : Region → Bool} {a n : BitVec 64} (h : rangeCheck as p a n = true) :
    a.toNat + n.toNat ≤ 2 ^ 64 := by
  unfold rangeCheck at h
  by_cases h0 : n = 0
  · rw [h0]
    exact Nat.le_of_lt a.isLt
  rw [if_neg h0] at h
  by_cases hw : a + n < a
  · rw [if_pos hw] at h
    cases h
  · bv_omega

lemma accessOk_no_wrap {as : As} {a n : BitVec 64} {prot : BitVec 32} (h : accessOk as a n prot = true) :
    a.toNat + n.toNat ≤ 2 ^ 64 := by
  rw [accessOk_eq, Bool.or_eq_true] at h
  rcases h with h | h
  · exact rangeCheck_no_wrap h
  · simp only [userRange, rsdMinValid, rsdMaxValid, Bool.and_eq_true] at h
    have hlt := of_decide_eq_true h.2.1.2
    have hle := of_decide_eq_true h.2.2
    bv_omega

lemma inRange_of_inWindow {a x : BitVec 64} {k : Nat} (hk : k < 2 ^ 64)
    (hw : a.toNat + (BitVec.ofNat 64 k).toNat ≤ 2 ^ 64) (hx : inWindow a k x) : InRange a (BitVec.ofNat 64 k) x := by
  rw [BitVec.toNat_ofNat, Nat.mod_eq_of_lt hk] at hw
  have hx' : (x - a).toNat < k := hx
  rw [InRange, BitVec.toNat_ofNat, Nat.mod_eq_of_lt hk]
  bv_omega

lemma loadLE_congr {m m' : Mem} {a : BitVec 64} {k : Nat}
    (h : ∀ i < k, m (a + BitVec.ofNat 64 i) = m' (a + BitVec.ofNat 64 i)) : loadLE m a k = loadLE m' a k := by
  induction k generalizing a with
  | zero => rfl
  | succ k ih =>
    have h0 : m a = m' a := by simpa using h 0 (Nat.succ_pos k)
    have htail : loadLE m (a + 1) k = loadLE m' (a + 1) k := by
      refine ih fun i hi => ?_
      have hs : a + 1 + BitVec.ofNat 64 i = a + BitVec.ofNat 64 (i + 1) := by
        rw [BitVec.add_assoc, BitVec.ofNat_add, BitVec.add_comm (BitVec.ofNat 64 i)]
        rfl
      rw [hs]
      exact h (i + 1) (Nat.succ_lt_succ hi)
    rw [loadLE, loadLE, h0, htail]

/-- The bytes that a program changes, where they are recorded, are writable. -/
def WritesAllowed {α : Type} (p : M α) (c : Cpu) : Prop :=
  ∀ x, (p c).2.mem x ≠ c.mem x → Tracked c.as x → Allowed c.as rsdProtW x

/-- What a program yields does not depend on recorded bytes that are not readable. -/
def ReadsAllowed {α : Type} (p : M α) (c : Cpu) : Prop :=
  ∀ m : Mem, (∀ x, m x ≠ c.mem x → Tracked c.as x ∧ ¬ Allowed c.as rsdProtR x) →
    (p { c with mem := m }).1 = (p c).1

section Accesses

variable {c : Cpu} {a : BitVec 64}

lemma load_same {k : Nat} (hk : k < 2 ^ 64) (hs : ¬ Straddles c.as a (BitVec.ofNat 64 k) rsdProtR)
    (hok : accessOk c.as a (BitVec.ofNat 64 k) rsdProtR = true) {m : Mem}
    (hm : ∀ x, m x ≠ c.mem x → Tracked c.as x ∧ ¬ Allowed c.as rsdProtR x) {i : Nat} (hi : i < k) :
    m (a + BitVec.ofNat 64 i) = c.mem (a + BitVec.ofNat 64 i) := by
  by_contra hne
  obtain ⟨ht, hna⟩ := hm _ hne
  refine hna ((perByte_iff ..).mpr hs hok _ ?_ ht)
  refine inRange_of_inWindow hk (accessOk_no_wrap hok) ?_
  rw [inWindow, BitVec.add_comm, BitVec.add_sub_cancel, BitVec.toNat_ofNat]
  exact Nat.lt_of_le_of_lt (Nat.mod_le _ _) hi

lemma ld_allowed {k : Nat} (hk : k < 2 ^ 64) (hs : ¬ Straddles c.as a (BitVec.ofNat 64 k) rsdProtR) :
    ReadsAllowed (ld a k) c := by
  intro m hm
  simp only [ld]
  by_cases hok : accessOk c.as a (BitVec.ofNat 64 k) rsdProtR = true
  · rw [if_pos hok, if_pos hok]
    exact loadLE_congr fun i hi => load_same hk hs hok hm hi
  · rw [if_neg hok, if_neg hok]

lemma ld128_allowed (hs : ¬ Straddles c.as a 16 rsdProtR) : ReadsAllowed (ld128 a) c := by
  intro m hm
  simp only [ld128]
  by_cases hok : accessOk c.as a 16 rsdProtR = true
  · rw [if_pos hok, if_pos hok]
    have hbyte {i : Nat} (hi : i < 16) := load_same (k := 16) (by decide) hs hok hm hi
    have hlo : loadLE m a 8 = loadLE c.mem a 8 := loadLE_congr fun i hi => hbyte (by omega)
    have hhi : loadLE m (a + 8) 8 = loadLE c.mem (a + 8) 8 := by
      refine loadLE_congr fun i hi => ?_
      have h8 : a + 8 + BitVec.ofNat 64 i = a + BitVec.ofNat 64 (8 + i) := by
        rw [BitVec.add_assoc, BitVec.ofNat_add]
        rfl
      rw [h8]
      exact hbyte (by omega)
    rw [hlo, hhi]
  · rw [if_neg hok, if_neg hok]

/-- A checked write changes bytes of its window only. -/
lemma write_allowed {k : Nat} (hk : k < 2 ^ 64) (hs : ¬ Straddles c.as a (BitVec.ofNat 64 k) rsdProtW)
    (hok : accessOk c.as a (BitVec.ofNat 64 k) rsdProtW = true) {x : BitVec 64} (hx : inWindow a k x)
    (ht : Tracked c.as x) : Allowed c.as rsdProtW x :=
  (perByte_iff ..).mpr hs hok x (inRange_of_inWindow hk (accessOk_no_wrap hok) hx) ht

lemma st_allowed {v : BitVec 64} {k : Nat} (hk : k < 2 ^ 64)
    (hs : ¬ Straddles c.as a (BitVec.ofNat 64 k) rsdProtW) : WritesAllowed (st a v k) c := by
  intro x hx ht
  simp only [st] at hx
  by_cases hok : accessOk c.as a (BitVec.ofNat 64 k) rsdProtW = true
  · rw [if_pos hok] at hx
    refine write_allowed hk hs hok ?_ ht
    by_contra hout
    exact hx (storeLE_outside hout)
  · rw [if_neg hok, memfault_mem] at hx
    exact absurd rfl hx

lemma st128_allowed {v : Xmm} (hs : ¬ Straddles c.as a 16 rsdProtW) : WritesAllowed (st128 a v) c := by
  intro x hx ht
  simp only [st128] at hx
  by_cases hok : accessOk c.as a 16 rsdProtW = true
  · rw [if_pos hok] at hx
    refine write_allowed (k := 16) (by decide) hs hok ?_ ht
    by_contra hout
    have hlo : ¬ inWindow a 8 x := fun h => hout (inWindow_mono (by decide) h)
    have hhi : ¬ inWindow (a + 8) 8 x := by
      simp only [inWindow] at hout ⊢
      bv_omega
    exact hx ((storeLE_outside hhi).trans (storeLE_outside hlo))
  · rw [if_neg hok, memfault_mem] at hx
    exact absurd rfl hx

lemma syscallRet_mem (ret : Int) : (syscallRet ret c).2.mem = c.mem := by
  simp only [syscallRet, Prog.bind_apply, Prog.ite_apply']
  split <;> rfl

lemma sysRead_allowed {k : Kernel} {a0 n : BitVec 64} (hlen : (k.read (a0.setWidth 32) a n).2.length ≤ n.toNat)
    (hs : ¬ Straddles c.as a n rsdProtW) : WritesAllowed (sysRead k a0 a n) c := by
  intro x hx ht
  by_cases hok : accessOk c.as a n rsdProtW = true
  · simp only [sysRead, Prog.bind_apply, Prog.get_apply, hok, if_true, syscallRet_mem] at hx
    have hn : BitVec.ofNat 64 n.toNat = n := BitVec.ofNat_toNat _ _ |>.trans (BitVec.setWidth_eq n)
    refine write_allowed (k := n.toNat) n.isLt (by rwa [hn]) (by rwa [hn]) ?_ ht
    by_contra hout
    have hlong : (k.read (a0.setWidth 32) a n).2.length ≤ (x - a).toNat := Nat.le_trans hlen (Nat.not_lt.mp hout)
    have hsame : poke c.mem a (k.read (a0.setWidth 32) a n).2 x = c.mem x := by
      simp only [poke, List.getD_eq_getElem?_getD, List.getElem?_eq_none hlong, Option.getD_none]
    exact hx hsame
  · simp only [sysRead, Prog.bind_apply, Prog.get_apply, hok, Bool.false_eq_true, if_false, memfault_mem] at hx
    exact absurd rfl hx

end Accesses

/-- A check that passes is right about every recorded byte of the range exactly when the range
does not straddle the edge of memory that forbids the access. Loads and stores of every width and
`read()` then touch no recorded byte against its permission. -/
theorem per_byte_protection (c : Cpu) (a n : BitVec 64) (prot : BitVec 32) :
    ((accessOk c.as a n prot = true → PerByte c.as a n prot) ↔ ¬ Straddles c.as a n prot) ∧
    ∀ (v : BitVec 64) (x : Xmm) (k : Nat) (kern : Kernel),
      (k < 2 ^ 64 → ¬ Straddles c.as a (BitVec.ofNat 64 k) rsdProtR → ReadsAllowed (ld a k) c) ∧
      (k < 2 ^ 64 → ¬ Straddles c.as a (BitVec.ofNat 64 k) rsdProtW → WritesAllowed (st a v k) c) ∧
      (¬ Straddles c.as a 16 rsdProtR → ReadsAllowed (ld128 a) c) ∧
      (¬ Straddles c.as a 16 rsdProtW → WritesAllowed (st128 a x) c) ∧
      ((kern.read (v.setWidth 32) a n).2.length ≤ n.toNat → ¬ Straddles c.as a n rsdProtW →
        WritesAllowed (sysRead kern v a n) c) :=
  ⟨perByte_iff .., fun _ _ _ _ => ⟨ld_allowed, st_allowed, ld128_allowed, st128_allowed, sysRead_allowed⟩⟩

/-- One read-only region, with nothing recorded behind it. -/
def readOnly : As := { rsdAsInit with reg := [⟨0x10000, 0x14000, rsdProtR⟩] }

theorem per_byte_protection_readOnly :
    accessOk readOnly 0x13ff8 8 rsdProtR = true ∧ ReadsAllowed (ld 0x13ff8 8) { Cpu.zero with as := readOnly } := by
  have hs : ¬ Straddles readOnly 0x13ff8 8 rsdProtR := fun h => absurd h.1 (by decide)
  exact ⟨by decide, ((per_byte_protection { Cpu.zero with as := readOnly } 0x13ff8 8 rsdProtR).2 0 ⟨0, 0⟩ 8
    ⟨plainHost, fun _ _ _ => (0, []), fun _ _ _ => 0, fun _ => 0⟩).1 (by decide) hs⟩

/-- An 8-byte store at the last 4 bytes of a read-only region is let through, because the other
4 are not recorded. -/
theorem straddling_store_passes :
    ¬ ∀ as a n prot, 1 ≤ n → accessOk as a n prot = true → PerByte as a n prot := by
  intro h
  have hb := h readOnly 0x13ffc 8 rsdProtW (by decide) (by decide) 0x13ffc ⟨by decide, by decide⟩
    ⟨⟨0x10000, 0x14000, rsdProtR⟩, by decide, by decide⟩
  obtain ⟨r, hr, -, hp⟩ := hb
  rw [List.mem_singleton.mp hr] at hp
  exact absurd hp (by decide)

end Rashid.Proofs
