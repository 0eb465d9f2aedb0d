import WolfTrust.ByteMemory

namespace WolfTrust.PackedRuns

open ByteMemory

section Offsets

variable {lengths : List Nat} {i k : Nat}

/-- Where run `i` begins when runs of these lengths lie end to end. -/
def offset (lengths : List Nat) (i : Nat) : Nat :=
  (lengths.take i).sum

@[simp] theorem offset_zero (lengths : List Nat) : offset lengths 0 = 0 := by
  simp [offset]

@[simp] theorem offset_cons_succ (length : Nat) (lengths : List Nat) (i : Nat) :
    offset (length :: lengths) (i + 1) = length + offset lengths i := by
  simp [offset]

theorem offset_add_le (h : i < k) : offset lengths i + lengths.getD i 0 ≤ offset lengths k := by
  induction lengths generalizing i k with
  | nil => simp [offset]
  | cons length lengths ih =>
    obtain ⟨k, rfl⟩ := Nat.exists_eq_succ_of_ne_zero (Nat.ne_zero_of_lt h)
    cases i with
    | zero => simp
    | succ =>
      have hrest := ih (Nat.lt_of_succ_lt_succ h)
      rw [offset_cons_succ, Nat.succ_eq_add_one, offset_cons_succ, List.getD_cons_succ]
      omega

theorem offset_add_le_sum (lengths : List Nat) (i : Nat) :
    offset lengths i + lengths.getD i 0 ≤ lengths.sum := by
  induction lengths generalizing i with
  | nil => simp [offset]
  | cons length lengths ih =>
    cases i with
    | zero => simp
    | succ i =>
      have hrest := ih i
      rw [offset_cons_succ, List.getD_cons_succ, List.sum_cons]
      omega

theorem offset_disjoint (h : i ≠ k) : offset lengths i + lengths.getD i 0 ≤ offset lengths k ∨
      offset lengths k + lengths.getD k 0 ≤ offset lengths i := by
  rcases Nat.lt_or_gt_of_ne h with h | h
  · exact .inl (offset_add_le h)
  · exact .inr (offset_add_le h)

def offsets (base : Nat) (lengths : List Nat) : List Nat :=
  (List.range lengths.length).map fun i => base + offset lengths i

theorem offsets_cons (base length : Nat) (lengths : List Nat) : offsets base (length :: lengths) =
      base :: offsets (base + length) lengths := by
  simp [offsets, List.range_succ_eq_map, Function.comp_def, Nat.add_assoc]

theorem getD_offsets (h : i < lengths.length) (default : Nat) :
    (offsets 0 lengths).getD i default = offset lengths i := by
  simp [offsets, List.getD_eq_getElem?_getD, h]

end Offsets

section Stores

variable {α : Type*} {cells : Nat → α} {base : Nat}

/-- Store the runs end to end, the first one at `base`. -/
def storeRuns (cells : Nat → α) (base : Nat) : List (List α) → Nat → α
  | [] => cells
  | run :: runs => storeRuns (store cells base run) (base + run.length) runs

theorem storeRuns_of_lt {runs : List (List α)} {x : Nat} (h : x < base) :
    storeRuns cells base runs x = cells x := by
  induction runs generalizing cells base with
  | nil => rfl
  | cons run runs ih => rw [storeRuns, ih (by omega), store_of_lt h]

theorem load_storeRuns {runs : List (List α)} {i : Nat} (h : i < runs.length) :
    load (storeRuns cells base runs)
      (base + offset (runs.map List.length) i) runs[i].length = runs[i] := by
  induction runs generalizing cells base i with
  | nil => cases h
  | cons run runs ih =>
    rw [storeRuns]
    cases i with
    | zero =>
      calc load (storeRuns (store cells base run) (base + run.length) runs)
            (base + offset ((run :: runs).map List.length) 0) run.length
          = load (store cells base run) base run.length := by
            rw [offset_zero, Nat.add_zero]
            exact load_congr fun x _ hx => storeRuns_of_lt hx
        _ = run := load_store_same cells base run
    | succ =>
      simp only [List.map_cons, offset_cons_succ, List.getElem_cons_succ]
      rw [← Nat.add_assoc]
      exact ih (Nat.lt_of_succ_lt_succ h)

/-- Store runs one after the other, each at its own base. -/
def storeEach (cells : Nat → α) (runs : List (Nat × List α)) : Nat → α :=
  runs.foldl (fun cells run => store cells run.1 run.2) cells

theorem storeEach_of_outside {runs : List (Nat × List α)} {x : Nat}
    (h : ∀ run ∈ runs, x < run.1 ∨ run.1 + run.2.length ≤ x) :
    storeEach cells runs x = cells x := by
  induction runs generalizing cells with
  | nil => rfl
  | cons run runs ih =>
    calc storeEach (store cells run.1 run.2) runs x = store cells run.1 run.2 x :=
          ih fun r hr => h r (List.mem_cons_of_mem _ hr)
      _ = cells x := store_of_outside (h run List.mem_cons_self)

/-- A cell holds what the last run over it stored there. -/
theorem storeEach_last {earlier later : List (Nat × List α)} {data : List α} {i : Nat}
    (hi : i < data.length) (h : ∀ run ∈ later, base + i < run.1 ∨ run.1 + run.2.length ≤ base + i) :
    storeEach cells (earlier ++ (base, data) :: later) (base + i) = data[i] := by
  rw [storeEach, List.foldl_append, List.foldl_cons]
  calc storeEach (store (storeEach cells earlier) base data) later (base + i)
      = store (storeEach cells earlier) base data (base + i) :=
        storeEach_of_outside h
    _ = data[i] := store_inside hi

theorem storeEach_range {run : Nat → Nat × List α} {n j i : Nat} (hj : j < n)
    (hi : i < (run j).2.length)
    (h : ∀ k, j < k → k < n → (run j).1 + i < (run k).1 ∨
      (run k).1 + (run k).2.length ≤ (run j).1 + i) :
    storeEach cells ((List.range n).map run) ((run j).1 + i) = (run j).2[i] := by
  obtain ⟨r, rfl⟩ := Nat.exists_eq_add_of_le hj
  rw [List.range_add, List.map_append, List.range_succ, List.map_append,
    List.map_singleton, List.append_assoc, List.singleton_append]
  refine storeEach_last hi fun later hlater => ?_
  obtain ⟨k, hk, rfl⟩ := List.mem_map.mp hlater
  obtain ⟨l, hl, rfl⟩ := List.mem_map.mp hk
  rw [List.mem_range] at hl
  exact h (j.succ + l) (by omega) (by omega)

end Stores

end WolfTrust.PackedRuns
