import Mathlib.Data.BitVec

namespace WolfTrust.Pmsav8

abbrev Register := BitVec 32

inductive Privilege
  | privileged
  | unprivileged
  deriving DecidableEq, Repr

/-- The base and the limit address register of one region. -/
structure Region where
  rbar : Register
  rlar : Register
  deriving DecidableEq, Repr

/-- The address bits of both registers; the five low bits are attributes. -/
def addressMask : Register := 0xFFFFFFE0

namespace Region

variable (region : Region)

def enabled : Bool := region.rlar.getLsbD 0

def base : Register := region.rbar &&& addressMask

/-- The last byte: the limit register with its attribute bits taken as ones. -/
def limit : Register := region.rlar ||| ~~~addressMask

def covers (address : Register) : Bool :=
  region.enabled && region.base ≤ address && address ≤ region.limit

def executeNever : Bool := region.rbar.getLsbD 0

end Region

/-- The four settings of `AP[2:1]`. -/
inductive AccessPermission
  | readWritePrivileged
  | readWrite
  | readOnlyPrivileged
  | readOnly
  deriving DecidableEq, Repr

def AccessPermission.reads : AccessPermission → Privilege → Bool
  | .readWritePrivileged, level => level == .privileged
  | .readWrite, _ => true
  | .readOnlyPrivileged, level => level == .privileged
  | .readOnly, _ => true

def AccessPermission.writes : AccessPermission → Privilege → Bool
  | .readWritePrivileged, level => level == .privileged
  | .readWrite, _ => true
  | .readOnlyPrivileged, _ => false
  | .readOnly, _ => false

namespace Region

variable (region : Region)

def permission : AccessPermission :=
  match region.rbar.getLsbD 2, region.rbar.getLsbD 1 with
  | false, false => .readWritePrivileged
  | false, true => .readWrite
  | true, false => .readOnlyPrivileged
  | true, true => .readOnly

def permitsWrite (level : Privilege) : Bool :=
  region.enabled && region.permission.writes level

/-- An instruction may be fetched where it may be read, unless the region is
execute-never. -/
def permitsFetch (level : Privilege) : Bool :=
  region.enabled && !region.executeNever && region.permission.reads level

def encode (base limit baseFlags limitFlags : Register) : Region :=
  { rbar := base &&& addressMask ||| baseFlags
    rlar := limit &&& addressMask ||| limitFlags }

end Region

section Encoding

variable {base limit baseFlags limitFlags : Register}

theorem getLsbD_addressMask {i : Nat} (h : i < 32) : addressMask.getLsbD i = decide (5 ≤ i) := by
  have hall : ∀ i : Fin 32, addressMask.getLsbD i = decide (5 ≤ i.val) := by decide
  exact hall ⟨i, h⟩

/-- The attribute bits of an encoded register are those of its flags. -/
theorem getLsbD_masked (address flags : Register) {i : Nat} (h : i < 5) :
    (address &&& addressMask ||| flags).getLsbD i = flags.getLsbD i := by
  have hmask : addressMask.getLsbD i = false := by
    rw [getLsbD_addressMask (by omega)]
    exact decide_eq_false (by omega)
  rw [BitVec.getLsbD_or, BitVec.getLsbD_and, hmask, Bool.and_false, Bool.false_or]

theorem toNat_and_addressMask (x : Register) : (x &&& addressMask).toNat = 32 * (x.toNat / 32) := by
  have hshift : x &&& addressMask = x >>> 5 <<< 5 := by
    apply BitVec.eq_of_getLsbD_eq
    intro i hi
    rw [BitVec.getLsbD_and, getLsbD_addressMask hi, BitVec.getLsbD_shiftLeft,
      BitVec.getLsbD_ushiftRight]
    by_cases h : 5 ≤ i
    · have hback : 5 + (i - 5) = i := by omega
      simp [h, hi, hback, Nat.not_lt.mpr h]
    · simp [h, Nat.not_le.mp h]
  have hx := x.isLt
  rw [hshift, BitVec.toNat_shiftLeft, BitVec.toNat_ushiftRight,
    Nat.shiftLeft_eq, Nat.shiftRight_eq_div_pow]
  omega

theorem toNat_or_not_addressMask (x : Register) :
    (x ||| ~~~addressMask).toNat = 32 * (x.toNat / 32) + 31 := by
  have hsplit : x ||| ~~~addressMask = (x &&& addressMask) + ~~~addressMask := by
    rw [BitVec.add_eq_or_of_and_eq_zero]
    · apply BitVec.eq_of_getLsbD_eq
      intro i hi
      simp only [BitVec.getLsbD_or, BitVec.getLsbD_and, BitVec.getLsbD_not, hi]
      cases x.getLsbD i <;> cases addressMask.getLsbD i <;> rfl
    · apply BitVec.eq_of_getLsbD_eq
      intro i hi
      simp only [BitVec.getLsbD_and, BitVec.getLsbD_not, hi, BitVec.getLsbD_zero]
      cases x.getLsbD i <;> cases addressMask.getLsbD i <;> rfl
  have hones : (~~~addressMask).toNat = 31 := by decide
  have hx := x.isLt
  rw [hsplit, BitVec.toNat_add, toNat_and_addressMask, hones]
  omega

/-- The address bits of an encoded register are those of its address. -/
theorem masked_div (address : Register) {flags : Register} (hflags : flags.toNat < 32) :
    (address &&& addressMask ||| flags).toNat / 32 = address.toNat / 32 := by
  have hapart : address &&& addressMask &&& flags = 0 := by
    apply BitVec.eq_of_getLsbD_eq
    intro i hi
    rw [BitVec.getLsbD_and, BitVec.getLsbD_and, getLsbD_addressMask hi]
    by_cases h : 5 ≤ i
    · have hfalse : flags.getLsbD i = false := by
        have hpow : 2 ^ 5 ≤ 2 ^ i := Nat.pow_le_pow_right (by decide) h
        exact Nat.testBit_lt_two_pow (by omega)
      simp [hfalse]
    · simp [h]
  rw [← BitVec.add_eq_or_of_and_eq_zero _ _ hapart, BitVec.toNat_add, toNat_and_addressMask]
  have hx := address.isLt
  omega

/-- A region of whole granules covers exactly the bytes it was made for. -/
theorem covers_encode (hbase : baseFlags.toNat < 32) (hlimit : limitFlags.toNat < 32)
    (henabled : limitFlags.getLsbD 0 = true) (address : Register) :
    (Region.encode base limit baseFlags limitFlags).covers address = true ↔
      32 * (base.toNat / 32) ≤ address.toNat ∧ address.toNat ≤ 32 * (limit.toNat / 32) + 31 := by
  unfold Region.covers Region.enabled Region.base Region.limit Region.encode
  rw [getLsbD_masked _ _ (by decide), henabled, Bool.true_and,
    Bool.and_eq_true, decide_eq_true_eq, decide_eq_true_eq, BitVec.le_def,
    BitVec.le_def, toNat_and_addressMask, toNat_or_not_addressMask,
    masked_div base hbase, masked_div limit hlimit]

theorem permitsFetch_of_executeNever {region : Region} (h : region.executeNever = true)
    (level : Privilege) : region.permitsFetch level = false := by
  unfold Region.permitsFetch
  rw [h, Bool.not_true, Bool.and_false, Bool.false_and]

end Encoding

end WolfTrust.Pmsav8
