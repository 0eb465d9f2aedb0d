import Mathlib.Data.List.Basic

namespace WolfTrust.Validation

variable {ε α : Type*}

def require (condition : Bool) (error : ε) : Except ε Unit :=
  if condition then .ok () else .error error

def checkAll (check : α → Except ε Unit) : List α → Except ε Unit
  | [] => .ok ()
  | a :: rest => check a >>= fun _ => checkAll check rest

/-- Run `check` on every element of a table together with the elements that
stand before it. -/
def checkWithPrior (check : List α → α → Except ε Unit) : List α → List α → Except ε Unit
  | _, [] => .ok ()
  | prior, a :: rest =>
    check prior a >>= fun _ => checkWithPrior check (prior ++ [a]) rest

@[simp] theorem require_eq_ok_iff (condition : Bool) (error : ε) :
    require condition error = .ok () ↔ condition = true := by
  unfold require
  split <;> simp_all

@[simp] theorem then_eq_ok_iff (first : Except ε Unit) (second : Except ε Unit) :
    (first >>= fun _ => second) = .ok () ↔
      first = .ok () ∧ second = .ok () := by
  cases first with
  | error | ok => simp [bind, Except.bind]

@[simp] theorem mapError_eq_ok_iff {ε' : Type*} (result : Except ε Unit)
    (rename : ε → ε') : result.mapError rename = .ok () ↔ result = .ok () := by
  cases result <;> simp [Except.mapError]

theorem checkAll_eq_ok_iff (check : α → Except ε Unit) (table : List α) :
    checkAll check table = .ok () ↔ ∀ a ∈ table, check a = .ok () := by
  induction table with
  | nil => simp [checkAll]
  | cons a rest ih => simp [checkAll, ih]

theorem checkWithPrior_eq_ok_iff (check : List α → α → Except ε Unit) (prior table : List α) :
    checkWithPrior check prior table = .ok () ↔ ∀ before a after, table = before ++ a :: after →
        check (prior ++ before) a = .ok () := by
  induction table generalizing prior with
  | nil => simp [checkWithPrior]
  | cons a rest ih =>
    simp only [checkWithPrior, then_eq_ok_iff, ih]
    constructor
    · rintro ⟨hhead, htail⟩ before b after hsplit
      rcases before with _ | ⟨c, before⟩
      · obtain ⟨rfl, rfl⟩ := List.cons.inj hsplit
        simpa using hhead
      · obtain ⟨rfl, hrest⟩ := List.cons.inj hsplit
        simpa using htail before b after hrest
    · intro h
      refine ⟨by simpa using h [] a rest rfl, ?_⟩
      intro before b after hsplit
      simpa using h (a :: before) b after (by simp [hsplit])

variable {β : Type*}

theorem checkWithPrior_append (check : List α → α → Except ε Unit) (prior first second : List α) :
    checkWithPrior check prior (first ++ second) = .ok () ↔
      checkWithPrior check prior first = .ok () ∧
        checkWithPrior check (prior ++ first) second = .ok () := by
  induction first generalizing prior with
  | nil => simp [checkWithPrior]
  | cons a rest ih =>
    simp only [List.cons_append, checkWithPrior, then_eq_ok_iff, ih,
      List.append_assoc, List.nil_append, and_assoc]

/-- A table of tables is checked as the list of all their elements. -/
theorem checkWithPrior_flatMap (check : List α → α → Except ε Unit)
    (f : β → List α) (prior table : List β) :
    checkWithPrior check (prior.flatMap f) (table.flatMap f) = .ok () ↔
      checkWithPrior (fun before b =>
        checkWithPrior check (before.flatMap f) (f b)) prior table = .ok () := by
  induction table generalizing prior with
  | nil => simp [checkWithPrior]
  | cons b rest ih =>
    have hnext := ih (prior ++ [b])
    simp only [List.flatMap_append, List.flatMap_cons, List.flatMap_nil, List.append_nil] at hnext
    simp only [List.flatMap_cons, checkWithPrior_append, checkWithPrior, then_eq_ok_iff, hnext]

/-- A check against every earlier element relates any two positions. -/
theorem checkWithPrior_pair (check : List α → α → Except ε Unit) {table : List α}
    (h : checkWithPrior check [] table = .ok ()) {i j : Nat} (hij : i < j) (hj : j < table.length) :
    ∃ before, check before table[j] = .ok () ∧ table[i] ∈ before := by
  refine ⟨table.take j, ?_, ?_⟩
  · have hsplit : table = table.take j ++ table[j] :: table.drop (j + 1) := by simp
    simpa using (checkWithPrior_eq_ok_iff check [] table).mp h _ _ _ hsplit
  · rw [List.mem_take_iff_getElem]
    exact ⟨i, by omega, rfl⟩

end WolfTrust.Validation
