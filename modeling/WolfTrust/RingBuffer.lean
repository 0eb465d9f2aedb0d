import Mathlib.Data.List.Basic
import Mathlib.Data.Nat.ModEq
import Mathlib.Logic.Function.Basic

namespace WolfTrust.RingBuffer

structure Circular (α : Type*) where
  buf : Nat → α
  capacity : Nat
  head : Nat
  tail : Nat
  count : Nat
  bounded : count ≤ capacity
  tail_lt : capacity ≠ 0 → tail < capacity
  head_eq : capacity ≠ 0 → head = (tail + count) % capacity

namespace Circular

variable {α : Type*}

def init (buf : Nat → α) (capacity : Nat) : Circular α :=
  { buf, capacity, head := 0, tail := 0, count := 0
    bounded := Nat.zero_le _
    tail_lt := Nat.pos_of_ne_zero
    head_eq := fun _ => (Nat.zero_mod _).symm }

def toList (r : Circular α) : List α :=
  (List.range r.count).map fun i => r.buf ((r.tail + i) % r.capacity)

@[simp] theorem toList_init (buf : Nat → α) (capacity : Nat) :
    (init buf capacity).toList = [] := rfl

@[simp] theorem toList_length (r : Circular α) : r.toList.length = r.count := by
  simp [toList]

theorem toList_eq_nil_iff (r : Circular α) : r.toList = [] ↔ r.count = 0 := by
  rw [← List.length_eq_zero_iff, toList_length]

/-- The element goes behind the others; the room is the caller's to check. -/
def push (r : Circular α) (x : α) (h : r.count < r.capacity) : Circular α :=
  { r with
    buf := Function.update r.buf r.head x
    head := (r.head + 1) % r.capacity
    count := r.count + 1
    bounded := h
    head_eq := fun hcap => by rw [r.head_eq hcap, Nat.mod_add_mod, Nat.add_assoc] }

theorem toList_push (r : Circular α) (x : α) (h : r.count < r.capacity) :
    (r.push x h).toList = r.toList ++ [x] := by
  have hcap : r.capacity ≠ 0 := by omega
  have htail := r.tail_lt hcap
  have hhead := r.head_eq hcap
  simp only [toList, push, List.range_succ, List.map_append, List.map_cons, List.map_nil]
  congr 1
  · refine List.map_congr_left fun i hi => Function.update_of_ne ?_ _ _
    -- two positions of the buffer less than a round apart differ
    have hi := List.mem_range.mp hi
    rw [hhead]
    intro heq
    have hsame : i % r.capacity = r.count % r.capacity := Nat.ModEq.add_left_cancel' r.tail heq
    rw [Nat.mod_eq_of_lt (by omega), Nat.mod_eq_of_lt h] at hsame
    omega
  · rw [hhead, Function.update_self]

def dropHead (r : Circular α) (h : r.count ≠ 0) : Circular α :=
  { r with
    tail := (r.tail + 1) % r.capacity
    count := r.count - 1
    bounded := Nat.le_trans (Nat.sub_le _ _) r.bounded
    tail_lt := fun hcap => Nat.mod_lt _ (Nat.pos_of_ne_zero hcap)
    head_eq := fun hcap => by
      rw [r.head_eq hcap, Nat.mod_add_mod]
      congr 1
      omega }

def peek (r : Circular α) : Option α :=
  if r.count = 0 then none else some (r.buf r.tail)

theorem toList_eq_cons (r : Circular α) (h : r.count ≠ 0) :
    r.toList = r.buf r.tail :: (r.dropHead h).toList := by
  have hcap : r.capacity ≠ 0 := by
    have := r.bounded
    omega
  obtain ⟨n, hn⟩ := Nat.exists_eq_succ_of_ne_zero h
  have htail : r.tail % r.capacity = r.tail := Nat.mod_eq_of_lt (r.tail_lt hcap)
  simp only [toList, dropHead, hn, Nat.succ_eq_add_one, Nat.add_sub_cancel]
  rw [List.range_succ_eq_map, List.map_cons, List.map_map, Nat.add_zero, htail]
  refine congrArg _ (List.map_congr_left fun i _ => ?_)
  simp only [Function.comp_apply, Nat.mod_add_mod]
  congr 2
  omega

def unpush (r : Circular α) (h : r.count ≠ 0) : Circular α :=
  { r with
    head := if r.head = 0 then r.capacity - 1 else r.head - 1
    count := r.count - 1
    bounded := Nat.le_trans (Nat.sub_le _ _) r.bounded
    head_eq := fun hcap => by
      have hhead := r.head_eq hcap
      have hbounded := r.bounded
      have htail := r.tail_lt hcap
      by_cases hwrap : r.tail + r.count < r.capacity
      · rw [Nat.mod_eq_of_lt hwrap] at hhead
        rw [Nat.mod_eq_of_lt (by omega), if_neg (by omega)]
        omega
      · have hmod : (r.tail + r.count) % r.capacity = r.tail + r.count - r.capacity := by
          rw [Nat.mod_eq_sub_mod (by omega), Nat.mod_eq_of_lt (by omega)]
        rw [hmod] at hhead
        split
        · rw [Nat.mod_eq_of_lt (by omega)]
          omega
        · rw [Nat.mod_eq_sub_mod (by omega), Nat.mod_eq_of_lt (by omega)]
          omega }

theorem toList_unpush (r : Circular α) (h : r.count ≠ 0) :
    (r.unpush h).toList = r.toList.dropLast := by
  obtain ⟨n, hn⟩ := Nat.exists_eq_succ_of_ne_zero h
  simp only [toList, unpush, hn, Nat.succ_eq_add_one, Nat.add_sub_cancel,
    List.range_succ, List.map_append, List.map_cons, List.map_nil,
    List.dropLast_concat]

/-- The oldest elements go as long as `stale` holds of them. -/
def dropStale (stale : α → Bool) : Nat → Circular α → Circular α
  | 0, r => r
  | rounds + 1, r =>
    if h : r.count = 0 then r
    else if stale (r.buf r.tail) then dropStale stale rounds (r.dropHead h)
    else r

theorem toList_dropStale {stale : α → Bool} {rounds : Nat} {r : Circular α} (h : r.count ≤ rounds) :
    (dropStale stale rounds r).toList = r.toList.dropWhile stale := by
  induction rounds generalizing r with
  | zero =>
    have hnil : r.toList = [] := (toList_eq_nil_iff r).mpr (by omega)
    simp [dropStale, hnil]
  | succ rounds ih =>
    unfold dropStale
    split
    case isTrue hcount => simp [(toList_eq_nil_iff r).mpr hcount]
    case isFalse hcount =>
      rw [toList_eq_cons r hcount]
      split
      case isTrue hstale =>
        rw [List.dropWhile_cons_of_pos hstale]
        exact ih (by simp only [dropHead]; omega)
      case isFalse hfresh =>
        rw [List.dropWhile_cons_of_neg hfresh, toList_eq_cons r hcount]

end Circular

end WolfTrust.RingBuffer
