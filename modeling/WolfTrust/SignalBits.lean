import Mathlib.Data.BitVec

namespace WolfTrust.SignalBits

variable {w : Nat} {signal : BitVec w}

def OneBit (signal : BitVec w) : Prop :=
  ∃ k, k < w ∧ signal = BitVec.twoPow w k

theorem and_twoPow_of_ne_zero {flags : BitVec w} {k : Nat} (h : flags &&& BitVec.twoPow w k ≠ 0) :
    flags &&& BitVec.twoPow w k = BitVec.twoPow w k := by
  rw [BitVec.and_twoPow] at h ⊢
  split at h
  · rw [if_pos ‹_›]
  · exact absurd rfl h

theorem twoPow_ne_zero {k : Nat} (hk : k < w) : BitVec.twoPow w k ≠ 0 := by
  intro hzero
  have hbit : (BitVec.twoPow w k).getLsbD k = true := by simp [hk]
  rw [hzero] at hbit
  simp at hbit

theorem and_twoPow_ne_zero_iff {flags : BitVec w} {k : Nat} (hk : k < w) :
    flags &&& BitVec.twoPow w k ≠ 0 ↔ flags.getLsbD k = true := by
  rw [BitVec.and_twoPow]
  split
  · rename_i hbit
    exact iff_of_true (twoPow_ne_zero hk) hbit
  · rename_i hbit
    exact iff_of_false (fun hne => hne rfl) hbit

theorem OneBit.or_self (h : OneBit signal)
    (flags : BitVec w) : (flags ||| signal) &&& signal ≠ 0 := by
  obtain ⟨k, hk, rfl⟩ := h
  rw [and_twoPow_ne_zero_iff hk]
  simp [hk]

theorem OneBit.clear_self (h : OneBit signal)
    (flags : BitVec w) : flags &&& ~~~signal &&& signal = 0 := by
  obtain ⟨k, hk, rfl⟩ := h
  by_contra hne
  rw [← ne_eq, and_twoPow_ne_zero_iff hk] at hne
  simp [hk] at hne

theorem OneBit.or_other {signal other : BitVec w} (h : OneBit signal)
    (h' : OneBit other) (hne : signal ≠ other) (flags : BitVec w) :
    (flags ||| signal) &&& other ≠ 0 ↔ flags &&& other ≠ 0 := by
  obtain ⟨j, hj, rfl⟩ := h
  obtain ⟨k, hk, rfl⟩ := h'
  have hjk : j ≠ k := fun heq => hne (by rw [heq])
  rw [and_twoPow_ne_zero_iff hk, and_twoPow_ne_zero_iff hk]
  simp [BitVec.getLsbD_twoPow, hjk]

theorem OneBit.clear_other {signal other : BitVec w} (h : OneBit signal)
    (h' : OneBit other) (hne : signal ≠ other) (flags : BitVec w) :
    flags &&& ~~~signal &&& other ≠ 0 ↔ flags &&& other ≠ 0 := by
  obtain ⟨j, hj, rfl⟩ := h
  obtain ⟨k, hk, rfl⟩ := h'
  have hjk : j ≠ k := fun heq => hne (by rw [heq])
  rw [and_twoPow_ne_zero_iff hk, and_twoPow_ne_zero_iff hk]
  simp [hk, Ne.symm hjk]

theorem OneBit.eq_of_and {signal other : BitVec w} (h : OneBit signal)
    (h' : OneBit other) (hmeet : signal &&& other ≠ 0) : signal = other := by
  obtain ⟨j, hj, rfl⟩ := h
  obtain ⟨k, hk, rfl⟩ := h'
  rw [and_twoPow_ne_zero_iff hk, BitVec.getLsbD_twoPow] at hmeet
  have hjk : j = k := by
    simp only [Bool.and_eq_true, decide_eq_true_eq] at hmeet
    exact hmeet.2
  rw [hjk]

/-- A signal in a union of signal sets is in one of them. -/
theorem OneBit.mem_union (h : OneBit signal)
    {ι : Type*} (set : ι → BitVec w) (members : List ι) (flags : BitVec w) :
    members.foldl (fun union i => union ||| set i) flags &&& signal ≠ 0 ↔
      flags &&& signal ≠ 0 ∨ ∃ i ∈ members, set i &&& signal ≠ 0 := by
  obtain ⟨k, hk, rfl⟩ := h
  simp only [and_twoPow_ne_zero_iff hk]
  induction members generalizing flags with
  | nil => simp
  | cons i rest ih =>
    rw [List.foldl_cons, ih]
    simp [or_assoc]

/-- A non-zero word with `x & (x - 1) = 0` has one bit. -/
theorem oneBit_of_and_sub_one (hne : signal ≠ 0)
    (h : signal &&& (signal - 1) = 0) : OneBit signal := by
  have hpos : signal.toNat ≠ 0 := fun hzero =>
    hne (BitVec.eq_of_toNat_eq (by simpa using hzero))
  have hw : 0 < w := by
    by_contra hw
    obtain rfl : w = 0 := by omega
    exact hne (BitVec.eq_nil signal)
  have hone : (1 : BitVec w).toNat = 1 := by
    simp [Nat.mod_eq_of_lt (Nat.one_lt_two_pow (Nat.ne_of_gt hw))]
  have hsub : (signal - 1).toNat = signal.toNat - 1 := by
    have hle : (1 : BitVec w) ≤ signal := by
      rw [BitVec.le_def, hone]
      omega
    rw [BitVec.toNat_sub_of_le hle, hone]
  have hand : signal.toNat &&& (signal.toNat - 1) = 0 := by
    have htoNat := congrArg BitVec.toNat h
    rwa [BitVec.toNat_and, hsub] at htoNat
  obtain ⟨k, hk⟩ :=
    (Nat.and_sub_one_eq_zero_iff_isPowerOfTwo hpos).mp hand
  have hkw : k < w := by
    have hlt := signal.isLt
    rw [hk] at hlt
    exact (Nat.pow_lt_pow_iff_right (by omega)).mp hlt
  refine ⟨k, hkw, BitVec.eq_of_toNat_eq ?_⟩
  rw [BitVec.toNat_twoPow, hk, Nat.mod_eq_of_lt]
  exact Nat.pow_lt_pow_right (by omega) hkw

end WolfTrust.SignalBits
