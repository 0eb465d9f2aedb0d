import Mathlib.Algebra.Ring.Nat

namespace WolfTrust.LittleEndian

/-- The number that bytes hold. -/
def littleEndian : List UInt8 → Nat
  | [] => 0
  | byte :: later => byte.toNat + 256 * littleEndian later

/-- The field of some bytes at an offset in a record. -/
def field (record : List UInt8) (width offset length : Nat) : BitVec width :=
  BitVec.ofNat width (littleEndian ((record.drop offset).take length))

def toBytes : Nat → Nat → List UInt8
  | 0, _ => []
  | count + 1, n => UInt8.ofNat n :: toBytes count (n / 256)

@[simp] theorem length_toBytes (count n : Nat) : (toBytes count n).length = count := by
  induction count generalizing n with
  | zero => rfl
  | succ count ih => rw [toBytes, List.length_cons, ih]

theorem littleEndian_toBytes {count n : Nat} (h : n < 256 ^ count) :
    littleEndian (toBytes count n) = n := by
  induction count generalizing n with
  | zero =>
    rw [Nat.pow_zero, Nat.lt_one_iff] at h
    exact h.symm
  | succ count ih =>
    have hrest : n / 256 < 256 ^ count := by
      rw [Nat.pow_succ] at h
      exact Nat.div_lt_of_lt_mul (by omega)
    have hbyte : (UInt8.ofNat n).toNat = n % 256 := rfl
    rw [toBytes, littleEndian, ih hrest, hbyte]
    omega

theorem field_toBytes {width count : Nat} (hwidth : 2 ^ width = 256 ^ count)
    (before after : List UInt8) (value : BitVec width) :
    field (before ++ (toBytes count value.toNat ++ after)) width before.length count = value := by
  have hlt : value.toNat < 256 ^ count := hwidth ▸ value.isLt
  have htaken : (toBytes count value.toNat ++ after).take count = toBytes count value.toNat :=
    List.take_left' (length_toBytes _ _)
  unfold field
  rw [List.drop_left, htaken, littleEndian_toBytes hlt, BitVec.ofNat_toNat, BitVec.setWidth_eq]

end WolfTrust.LittleEndian
