import Mathlib.Logic.Basic

/-!
Programs over a durable state that report errors and may be cut off at any
primitive. `wp` is the weakest precondition with three postconditions: of the
value, of the error, and of the state a crash leaves behind.
-/

namespace WolfTrust.CrashLogic

universe u

inductive Outcome (ε α : Type*)
  | done (value : α)
  | failed (error : ε)
  | crashed
  deriving DecidableEq, Repr

def Prog (ε σ α : Type*) : Type _ := σ → Outcome ε α × σ

section Programs

variable {ε σ α β : Type*}

def ret (value : α) : Prog ε σ α := fun s => (.done value, s)

def fail (error : ε) : Prog ε σ α := fun s => (.failed error, s)

def andThen (p : Prog ε σ α) (f : α → Prog ε σ β) : Prog ε σ β := fun s =>
  match p s with
  | (.done value, s') => f value s'
  | (.failed error, s') => (.failed error, s')
  | (.crashed, s') => (.crashed, s')

/-- Hands the error to the rest of the program; a crash is not caught. -/
def attempt (p : Prog ε σ α) : Prog ε σ (Except ε α) := fun s =>
  match p s with
  | (.done value, s') => (.done (.ok value), s')
  | (.failed error, s') => (.done (.error error), s')
  | (.crashed, s') => (.crashed, s')

/-- The errors of the program, as its caller names them. -/
def mapError {ε' : Type*} (f : ε → ε') (p : Prog ε σ α) : Prog ε' σ α := fun s =>
  match p s with
  | (.done value, s') => (.done value, s')
  | (.failed error, s') => (.failed (f error), s')
  | (.crashed, s') => (.crashed, s')

end Programs

instance {ε σ : Type*} : Monad (Prog ε σ) where
  pure := ret
  bind := andThen

section Rules

variable {ε σ : Type*} {α β : Type u} {p : Prog ε σ α} {f : α → Prog ε σ β} {s : σ}
  {Q Q' : α → σ → Prop} {E E' : ε → σ → Prop} {C C' : σ → Prop} {ε' : Type*}

def wp (p : Prog ε σ α) (Q : α → σ → Prop) (E : ε → σ → Prop) (C : σ → Prop) (s : σ) : Prop :=
  match p s with
  | (.done value, s') => Q value s'
  | (.failed error, s') => E error s'
  | (.crashed, s') => C s'

@[simp] theorem wp_pure (value : α) : wp (pure value : Prog ε σ α) Q E C s ↔ Q value s := Iff.rfl

@[simp] theorem wp_fail (error : ε) : wp (fail error : Prog ε σ α) Q E C s ↔ E error s := Iff.rfl

theorem wp_bind {R : β → σ → Prop} :
    wp (p >>= f) R E C s ↔ wp p (fun value => wp (f value) R E C) E C s := by
  show wp (andThen p f) R E C s ↔ _
  unfold wp andThen
  rcases p s with ⟨_ | _ | _, s'⟩ <;> exact Iff.rfl

theorem wp_attempt {R : Except ε α → σ → Prop} : wp (attempt p) R E C s ↔
      wp p (fun value => R (.ok value)) (fun error => R (.error error)) C s := by
  unfold wp attempt
  rcases p s with ⟨_ | _ | _, s'⟩ <;> exact Iff.rfl

theorem wp_mapError {f : ε → ε'} {E : ε' → σ → Prop} :
    wp (mapError f p) Q E C s ↔ wp p Q (fun error => E (f error)) C s := by
  unfold wp mapError
  rcases p s with ⟨_ | _ | _, s'⟩ <;> exact Iff.rfl

theorem wp.mono (h : wp p Q E C s) (hQ : ∀ value s', Q value s' → Q' value s')
    (hE : ∀ error s', E error s' → E' error s') (hC : ∀ s', C s' → C' s') : wp p Q' E' C' s := by
  unfold wp at h ⊢
  rcases hp : p s with ⟨_ | _ | _, s'⟩
  · rw [hp] at h
    exact hQ _ _ h
  · rw [hp] at h
    exact hE _ _ h
  · rw [hp] at h
    exact hC _ h

theorem wp.bind {R : β → σ → Prop} (h : wp p Q E C s)
    (hf : ∀ value s', Q value s' → wp (f value) R E C s') : wp (p >>= f) R E C s :=
  wp_bind.mpr (h.mono hf (fun _ _ h => h) (fun _ h => h))

theorem wp.of_done {value : α} (h : wp p Q E C s) (hdone : (p s).1 = .done value) :
    Q value (p s).2 := by
  unfold wp at h
  rcases hp : p s with ⟨_ | _ | _, s'⟩ <;> rw [hp] at h hdone <;> cases hdone
  exact h

theorem wp.state {I : σ → Prop} (h : wp p (fun _ => I) (fun _ => I) I s) : I (p s).2 := by
  unfold wp at h
  rcases hp : p s with ⟨_ | _ | _, s'⟩ <;> rw [hp] at h <;> exact h

theorem wp_of_eq {value : α} {s' : σ} (h : p s = (.done value, s')) :
    wp p Q E C s ↔ Q value s' := by
  unfold wp
  rw [h]

theorem wp.outcome_eq {result : Outcome ε α} (h : wp p (fun value _ => result = .done value)
      (fun error _ => result = .failed error) (fun _ => False) s) :
    (p s).1 = result := by
  unfold wp at h
  rcases hp : p s with ⟨_ | _ | _, s'⟩ <;> rw [hp] at h
  · exact h.symm
  · exact h.symm
  · exact h.elim

theorem bind_done {value : β} (h : ((p >>= f) s).1 = .done value) : ∃ a, (p s).1 = .done a := by
  change (andThen p f s).1 = .done value at h
  unfold andThen at h
  rcases hp : p s with ⟨a | _ | _, s'⟩ <;> rw [hp] at h
  · exact ⟨a, rfl⟩
  · cases h
  · cases h

theorem mapError_done {g : ε → ε'} {value : α}
    (h : (mapError g p s).1 = .done value) : (p s).1 = .done value := by
  unfold mapError at h
  rcases hp : p s with ⟨_ | _ | _, s'⟩ <;> rw [hp] at h <;> cases h
  rfl

theorem bind_bind {γ : Type u} {g : β → Prog ε σ γ} : p >>= f >>= g = p >>= fun a => f a >>= g := by
  funext s
  show andThen (andThen p f) g s = andThen p (fun a => andThen (f a) g) s
  unfold andThen
  rcases p s with ⟨_ | _ | _, s₁⟩ <;> rfl

theorem bind_state (hf : ∀ value s', (f value s').2 = s') : ((p >>= f) s).2 = (p s).2 := by
  show (andThen p f s).2 = (p s).2
  unfold andThen
  rcases p s with ⟨value | _ | _, s'⟩
  · exact hf value s'
  · rfl
  · rfl

theorem mapError_state (f : ε → ε') : (mapError f p s).2 = (p s).2 := by
  unfold mapError
  rcases p s with ⟨_ | _ | _, s'⟩ <;> rfl

end Rules

end WolfTrust.CrashLogic
