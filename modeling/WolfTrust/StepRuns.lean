import Mathlib.Data.List.Basic

namespace WolfTrust.StepRuns

variable {σ α : Type*} {step : σ → α → σ} {inputs : List α} {s : σ}

def run (step : σ → α → σ) (s : σ) (inputs : List α) : σ := inputs.foldl step s

@[simp] theorem run_cons (step : σ → α → σ) (s : σ) (a : α) (rest : List α) :
    run step s (a :: rest) = run step (step s a) rest := rfl

theorem run_snoc (step : σ → α → σ) (s : σ) (earlier : List α) (a : α) :
    run step s (earlier ++ [a]) = step (run step s earlier) a := by
  simp [run]

/-- The state that takes the input at `t`. -/
def stateAt (step : σ → α → σ) (s : σ) (inputs : List α) (t : Nat) : σ :=
  run step s (inputs.take t)

theorem stateAt_succ {t : Nat} {a : α} (h : inputs[t]? = some a) :
    stateAt step s inputs (t + 1) = step (stateAt step s inputs t) a := by
  rw [stateAt, List.take_add_one, h, Option.toList_some, run_snoc, stateAt]

theorem stateAt_succ_of_none {t : Nat}
    (h : inputs[t]? = none) : stateAt step s inputs (t + 1) = stateAt step s inputs t := by
  rw [stateAt, List.take_add_one, h, Option.toList_none, List.append_nil, stateAt]

/-- Every input of a run meets `P` in the state that takes it. -/
def Along (step : σ → α → σ) (P : σ → α → Prop) : σ → List α → Prop
  | _, [] => True
  | s, a :: rest => P s a ∧ Along step P (step s a) rest

instance (step : σ → α → σ) (P : σ → α → Prop) [∀ s a, Decidable (P s a)] :
    ∀ s inputs, Decidable (Along step P s inputs)
  | _, [] => .isTrue trivial
  | s, a :: rest =>
    have := instDecidableAlong step P (step s a) rest
    inferInstanceAs (Decidable (P s a ∧ Along step P (step s a) rest))

theorem along_of_forall {P : α → Prop}
    (h : ∀ a ∈ inputs, P a) : Along step (fun _ a => P a) s inputs := by
  induction inputs generalizing s with
  | nil => trivial
  | cons a rest ih => exact ⟨h a (by simp), ih fun b hb => h b (List.mem_cons_of_mem a hb)⟩

/-- What every input that meets `P` preserves holds at the end of the run. -/
theorem run_induction {P : σ → α → Prop} {I : σ → Prop}
    (hstep : ∀ s a, I s → P s a → I (step s a))
    (hs : I s) (hinputs : Along step P s inputs) : I (run step s inputs) := by
  induction inputs generalizing s with
  | nil => exact hs
  | cons a rest ih => exact ih (hstep s a hs hinputs.1) hinputs.2

theorem run_invariant {step : σ → α → σ} {I : σ → Prop} (hstep : ∀ s a, I s → I (step s a))
    {s : σ} (hs : I s) (inputs : List α) : I (run step s inputs) := by
  induction inputs generalizing s with
  | nil => exact hs
  | cons a rest ih => exact ih (hstep s a hs)

end WolfTrust.StepRuns
