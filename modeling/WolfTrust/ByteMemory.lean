import Mathlib.Algebra.BigOperators.Group.List.Basic
import Mathlib.Algebra.Ring.Nat

namespace WolfTrust.ByteMemory

variable {α : Type*} {cells : Nat → α} {data : List α} {base : Nat} {i : Nat}

/-- The `count` cells from `base` on. -/
def load (cells : Nat → α) (base count : Nat) : List α :=
  (List.range count).map fun i => cells (base + i)

/-- Put a run of values at `base`. -/
def store (cells : Nat → α) (base : Nat) (data : List α) : Nat → α :=
  fun i => if base ≤ i then data.getD (i - base) (cells i) else cells i

@[simp] theorem length_load (cells : Nat → α) (base count : Nat) :
    (load cells base count).length = count := by
  simp [load]

theorem getElem_load (cells : Nat → α) (base count i : Nat)
    (hi : i < (load cells base count).length) : (load cells base count)[i] = cells (base + i) := by
  simp [load]

@[simp] theorem store_nil (cells : Nat → α) (base : Nat) : store cells base [] = cells := by
  funext i
  simp [store]

theorem store_of_lt (h : i < base) : store cells base data i = cells i := by
  simp [store, Nat.not_le.mpr h]

theorem store_of_le (h : base + data.length ≤ i) : store cells base data i = cells i := by
  have hlen : data.length ≤ i - base := by omega
  simp [store, List.getD_eq_getElem?_getD, List.getElem?_eq_none hlen]

theorem store_of_outside
    (h : i < base ∨ base + data.length ≤ i) : store cells base data i = cells i := by
  rcases h with h | h
  · exact store_of_lt h
  · exact store_of_le h

theorem store_inside (hi : i < data.length) : store cells base data (base + i) = data[i] := by
  simp [store, List.getD_eq_getElem?_getD, hi]

theorem store_cons (cells : Nat → α) (base : Nat) (x : α) (data : List α) :
    store (Function.update cells base x) (base + 1) data = store cells base (x :: data) := by
  funext i
  rcases Nat.lt_trichotomy i base with h | rfl | h
  · rw [store_of_lt (by omega), store_of_lt h, Function.update_of_ne (by omega)]
  · rw [store_of_lt (by omega), Function.update_self]
    simp [store]
  · obtain ⟨k, hk⟩ : ∃ k, i - base = k + 1 := ⟨i - base - 1, by omega⟩
    simp only [store]
    rw [if_pos (by omega), if_pos (by omega),
      Function.update_of_ne (by omega), hk, List.getD_cons_succ,
      show i - (base + 1) = k by omega]

theorem store_zero (cells : Nat → α) (data : List α) (i : Nat) :
    store cells 0 data i = data.getD i (cells i) := by
  simp [store]

theorem load_congr {cells cells' : Nat → α} {base count : Nat}
    (h : ∀ i, base ≤ i → i < base + count → cells i = cells' i) :
    load cells base count = load cells' base count := by
  apply List.map_congr_left
  intro i hi
  rw [List.mem_range] at hi
  exact h (base + i) (by omega) (by omega)

theorem load_store_same (cells : Nat → α) (base : Nat) (data : List α) :
    load (store cells base data) base data.length = data := by
  apply List.ext_getElem
  · simp
  · intro i hi hi'
    rw [getElem_load, store_inside hi']

theorem load_store_disjoint {base base' count : Nat}
    (h : base + count ≤ base' ∨ base' + data.length ≤ base) :
    load (store cells base' data) base count = load cells base count := by
  apply load_congr
  intro i hlow hhigh
  apply store_of_outside
  omega

theorem load_add (cells : Nat → α) (base m n : Nat) :
    load cells base (m + n) = load cells base m ++ load cells (base + m) n := by
  simp only [load, List.range_add, List.map_append, List.map_map]
  congr 1
  apply List.map_congr_left
  intro i _
  simp [Nat.add_assoc]

theorem load_part {base k n count : Nat} (h : k + n ≤ count) :
    load cells (base + k) n = ((load cells base count).drop k).take n := by
  obtain ⟨rest, rfl⟩ := Nat.exists_eq_add_of_le h
  rw [load_add cells base (k + n) rest, load_add cells base k n,
    List.append_assoc, List.drop_left' (length_load cells base k),
    List.take_left' (length_load cells (base + k) n)]

/-- One access to memory: a run of bytes, read or written. -/
structure Access where
  address : Nat
  length : Nat
  isWrite : Bool
  deriving DecidableEq, Repr

structure Memory where
  bytes : Nat → UInt8
  trace : List Access

/-- Read a run of bytes; an empty run is no access. -/
def Memory.read (memory : Memory) (address length : Nat) : List UInt8 × Memory :=
  (load memory.bytes address length,
    if length = 0 then memory
    else { memory with trace := memory.trace ++ [⟨address, length, false⟩] })

def Memory.write (memory : Memory) (address : Nat) (data : List UInt8) : Memory :=
  if data.length = 0 then memory
  else
    { bytes := store memory.bytes address data
      trace := memory.trace ++ [⟨address, data.length, true⟩] }

@[simp] theorem Memory.read_bytes (memory : Memory) (address length : Nat) :
    (memory.read address length).2.bytes = memory.bytes := by
  unfold Memory.read
  split <;> rfl

@[simp] theorem Memory.write_bytes (memory : Memory) (address : Nat) (data : List UInt8) :
    (memory.write address data).bytes = store memory.bytes address data := by
  unfold Memory.write
  split
  · rename_i h
    rw [List.length_eq_zero_iff.mp h, store_nil]
  · rfl

/-- Between two memories only allowed accesses were made, and every byte that
changed was written by one of them. -/
def Touches (allowed : Access → Prop) (before after : Memory) : Prop :=
  ∃ made, after.trace = before.trace ++ made ∧ (∀ a ∈ made, allowed a) ∧
    ∀ x, after.bytes x ≠ before.bytes x →
      ∃ a ∈ made, a.isWrite = true ∧ a.address ≤ x ∧ x < a.address + a.length

section Touches

variable {allowed : Access → Prop} {first second third memory : Memory}

theorem Touches.refl (memory : Memory) : Touches allowed memory memory := by
  refine ⟨[], (List.append_nil _).symm, fun a ha => ?_, fun x hx => absurd rfl hx⟩
  cases ha

theorem Touches.of_eq (h : second = first) : Touches allowed first second := by
  rw [h]
  exact .refl first

theorem Touches.trans (h : Touches allowed first second)
    (h' : Touches allowed second third) : Touches allowed first third := by
  obtain ⟨made, htrace, hallowed, hbytes⟩ := h
  obtain ⟨made', htrace', hallowed', hbytes'⟩ := h'
  refine ⟨made ++ made', ?_, fun a ha => ?_, fun x hx => ?_⟩
  · rw [htrace', htrace, List.append_assoc]
  · exact (List.mem_append.mp ha).elim (hallowed a) (hallowed' a)
  · by_cases hsecond : third.bytes x = second.bytes x
    · rw [hsecond] at hx
      obtain ⟨a, ha, hwrite⟩ := hbytes x hx
      exact ⟨a, List.mem_append_left _ ha, hwrite⟩
    · obtain ⟨a, ha, hwrite⟩ := hbytes' x hsecond
      exact ⟨a, List.mem_append_right _ ha, hwrite⟩

theorem Touches.mono {allowed' : Access → Prop} (h : Touches allowed first second)
    (himp : ∀ a, allowed a → allowed' a) : Touches allowed' first second := by
  obtain ⟨made, htrace, hallowed, hbytes⟩ := h
  exact ⟨made, htrace, fun a ha => himp a (hallowed a ha), hbytes⟩

theorem Touches.read {address length : Nat} (h : length ≠ 0 → allowed ⟨address, length, false⟩) :
    Touches allowed memory (memory.read address length).2 := by
  unfold Memory.read
  by_cases hlength : length = 0
  · simp only [if_pos hlength]
    exact .refl memory
  · simp only [if_neg hlength]
    refine ⟨_, rfl, fun a ha => ?_, fun x hx => absurd rfl hx⟩
    rw [List.mem_singleton.mp ha]
    exact h hlength

theorem Touches.write {address : Nat} {data : List UInt8}
    (h : data.length ≠ 0 → allowed ⟨address, data.length, true⟩) :
    Touches allowed memory (memory.write address data) := by
  by_cases hlength : data.length = 0
  · unfold Memory.write
    rw [if_pos hlength]
    exact .refl memory
  · refine ⟨[⟨address, data.length, true⟩], ?_, fun a ha => ?_, fun x hx => ?_⟩
    · unfold Memory.write
      rw [if_neg hlength]
    · rw [List.mem_singleton.mp ha]
      exact h hlength
    · refine ⟨_, List.mem_singleton_self _, rfl, ?_⟩
      by_contra hout
      apply hx
      rw [Memory.write_bytes]
      exact store_of_outside (by dsimp only at hout; omega)

theorem Touches.foldl {ι : Type*} {change : Memory → ι → Memory} {items : List ι}
    (h : ∀ i ∈ items, ∀ memory, Touches allowed memory (change memory i)) (memory : Memory) :
    Touches allowed memory (items.foldl change memory) := by
  induction items generalizing memory with
  | nil => exact .refl memory
  | cons i items ih =>
    exact (h i List.mem_cons_self memory).trans (ih (fun k hk => h k (List.mem_cons_of_mem _ hk)) _)

end Touches

def wordBytes (value : Nat) : List UInt8 :=
  (List.range 4).map fun i => UInt8.ofNat (value / 256 ^ i)

@[simp] theorem length_wordBytes (value : Nat) : (wordBytes value).length = 4 := by
  simp [wordBytes]

end WolfTrust.ByteMemory
