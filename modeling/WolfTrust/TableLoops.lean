import Mathlib.Data.List.FinRange
import Mathlib.Data.Set.Insert
import Mathlib.Logic.Relation

namespace WolfTrust.TableLoops

variable {σ α : Type*} {n : Nat}

/-- What holds of the slots visited so far, and is extended by each visit,
holds of all slots in the end. -/
theorem foldl_visited {body : σ → α → σ} {P : Set α → σ → Prop}
    (step : ∀ visited i s, i ∉ visited → P visited s →
      P (insert i visited) (body s i)) (slots : List α) :
    ∀ visited s, slots.Nodup → (∀ i ∈ slots, i ∉ visited) → P visited s →
      P (visited ∪ {i | i ∈ slots}) (slots.foldl body s) := by
  induction slots with
  | nil =>
    intro visited s _ _ hs
    simpa using hs
  | cons i rest ih =>
    intro visited s hnodup hfresh hs
    obtain ⟨hi, hrest⟩ := List.nodup_cons.mp hnodup
    have hnext := step visited i s (hfresh i (by simp)) hs
    have hfresh' : ∀ j ∈ rest, j ∉ insert i visited := by
      intro j hj hmem
      rcases hmem with rfl | hmem
      · exact hi hj
      · exact hfresh j (by simp [hj]) hmem
    have hunion : visited ∪ {j | j ∈ i :: rest} = insert i visited ∪ {j | j ∈ rest} := by
      ext j
      simp [or_left_comm, or_assoc]
    rw [hunion]
    exact ih (insert i visited) (body s i) hrest hfresh' hnext

theorem foldl_finRange {body : σ → Fin n → σ} {P : Set (Fin n) → σ → Prop} {s : σ} (start : P ∅ s)
    (step : ∀ visited i s, i ∉ visited → P visited s → P (insert i visited) (body s i)) :
    P Set.univ ((List.finRange n).foldl body s) := by
  have hall := foldl_visited step (List.finRange n) ∅ s (List.nodup_finRange n)
    (fun _ _ => Set.notMem_empty _) start
  have huniv : (∅ ∪ {i | i ∈ List.finRange n} : Set (Fin n)) = Set.univ := by
    ext i
    simp
  rwa [huniv] at hall

theorem countP_le_succ {slots : List α} (hnodup : slots.Nodup) {p q : α → Bool} (a : α)
    (h : ∀ b ∈ slots, b ≠ a → p b = true → q b = true) : slots.countP p ≤ slots.countP q + 1 := by
  induction slots with
  | nil => simp
  | cons b rest ih =>
    obtain ⟨hb, hrest⟩ := List.nodup_cons.mp hnodup
    by_cases hba : b = a
    · subst hba
      have htail : rest.countP p ≤ rest.countP q :=
        List.countP_mono_left fun c hc hpc =>
          h c (by simp [hc]) (fun heq => hb (heq ▸ hc)) hpc
      rw [List.countP_cons, List.countP_cons]
      split <;> split <;> omega
    · have htail := ih hrest fun c hc => h c (by simp [hc])
      have hhead := h b (by simp) hba
      rw [List.countP_cons, List.countP_cons]
      split
      · rename_i hpb
        rw [if_pos (hhead hpb)]
        omega
      · split <;> omega

theorem foldl_reflTransGen {R : σ → σ → Prop} {body : σ → α → σ} (step : ∀ s i, R s (body s i))
    (slots : List α) : ∀ s, Relation.ReflTransGen R s (slots.foldl body s) := by
  induction slots with
  | nil =>
    intro s
    exact .refl
  | cons i rest ih =>
    intro s
    exact .head (step s i) (ih (body s i))

end WolfTrust.TableLoops
