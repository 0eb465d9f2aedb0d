import Mathlib.Data.Finset.Max
import Mathlib.Data.List.Nodup
import WolfTrust.Manifest

namespace WolfTrust.ManifestElimination

open Manifest

/-! ### The boot check along a rank -/

section Boot

variable {count : Nat} {edges : Nat → Nat → Bool}

/-- The removed partitions are the ones counted, an edge is cleared only when
its target is removed, and every removed partition ranks above its targets. -/
structure Sound (count : Nat) (edges : Nat → Nat → Bool) (s : Elimination) :
    Prop where
  counted : s.removedCount = ((Finset.range count).filter fun a => s.removed a = true).card
  fewer : ∀ a b, s.edges a b = true → edges a b = true
  kept : ∀ a b, edges a b = true → s.edges a b = true ∨ s.removed b = true
  ranked : ∃ rank : Nat → Nat, ∀ a, s.removed a = true →
    rank a < s.removedCount ∧ ∀ b < count, edges a b = true → s.removed b = true ∧ rank b < rank a

theorem eliminateAt_cases (state : Elimination × Bool) (i : Nat) :
    (eliminateAt count state i = state ∧ (state.1.removed i = true ∨
        ∃ j < count, state.1.removed j = false ∧ state.1.edges i j = true)) ∨
    ∃ t, eliminateAt count state i = (t, true) ∧ state.1.removed i = false ∧
      (∀ j < count, state.1.edges i j = true → state.1.removed j = true) ∧
      (∀ a, t.removed a = if a = i then true else state.1.removed a) ∧
      t.removedCount = state.1.removedCount + 1 ∧
      (∀ a b, t.edges a b = true → state.1.edges a b = true) ∧
      ∀ a b, state.1.edges a b = true → t.edges a b = true ∨ b = i := by
  unfold eliminateAt
  dsimp only
  split
  next hremoved => exact Or.inl ⟨rfl, Or.inl hremoved⟩
  next hremaining =>
    split
    next hedge =>
      refine Or.inl ⟨rfl, Or.inr ?_⟩
      obtain ⟨j, hj, hjedge⟩ := List.any_eq_true.mp hedge
      simp only [Bool.and_eq_true, Bool.not_eq_true'] at hjedge
      exact ⟨j, List.mem_range.mp hj, hjedge⟩
    next hready =>
      refine Or.inr ⟨_, rfl, by simpa using hremaining, ?_, fun _ => rfl, rfl, ?_, ?_⟩
      · intro j hj hedge
        by_contra hstay
        exact hready (List.any_eq_true.mpr ⟨j, List.mem_range.mpr hj, by simp [hstay, hedge]⟩)
      · intro a b hab
        dsimp only at hab
        split at hab
        · cases hab
        · exact hab
      · intro a b hab
        by_cases hb : b = i
        · exact Or.inr hb
        · exact Or.inl (by simp [hb, hab])

/-- What a run of visits can do: nothing is put back, soundness is kept, and
a change is a removal, which raises the progress flag for good. -/
structure Advances (count : Nat) (edges : Nat → Nat → Bool)
    (before after : Elimination × Bool) : Prop where
  keeps : ∀ a, before.1.removed a = true → after.1.removed a = true
  sound : Sound count edges before.1 → Sound count edges after.1
  flagged : after = before ∨ (after.2 = true ∧ before.1.removedCount < after.1.removedCount)

theorem Advances.refl (state : Elimination × Bool) : Advances count edges state state :=
  ⟨fun _ h => h, id, Or.inl rfl⟩

theorem Advances.trans {first second third : Elimination × Bool}
    (h : Advances count edges first second) (h' : Advances count edges second third) :
    Advances count edges first third := by
  refine ⟨fun a ha => h'.keeps a (h.keeps a ha), h'.sound ∘ h.sound, ?_⟩
  rcases h'.flagged with rfl | ⟨hflag, hmore⟩
  · exact h.flagged
  · rcases h.flagged with rfl | ⟨-, hfirst⟩
    · exact Or.inr ⟨hflag, hmore⟩
    · exact Or.inr ⟨hflag, hfirst.trans hmore⟩

theorem Sound.remove {s t : Elimination} (hs : Sound count edges s) {i : Nat} (hi : i < count)
    (hremaining : s.removed i = false)
    (hready : ∀ j < count, s.edges i j = true → s.removed j = true)
    (hremoved : ∀ a, t.removed a = if a = i then true else s.removed a)
    (hcount : t.removedCount = s.removedCount + 1)
    (hfewer : ∀ a b, t.edges a b = true → s.edges a b = true)
    (hkept : ∀ a b, s.edges a b = true → t.edges a b = true ∨ b = i) : Sound count edges t where
  counted := by
    have hinsert : ((Finset.range count).filter fun a => t.removed a = true) =
          insert i ((Finset.range count).filter fun a =>
            s.removed a = true) := by
      ext a
      simp only [Finset.mem_filter, Finset.mem_range, Finset.mem_insert, hremoved]
      by_cases ha : a = i
      · simp [ha, hi]
      · simp [ha]
    rw [hinsert, Finset.card_insert_of_notMem (by simp [hremaining]), hcount, hs.counted]
  fewer := fun a b hab => hs.fewer a b (hfewer a b hab)
  kept := by
    intro a b hab
    rcases hs.kept a b hab with hedge | hgone
    · rcases hkept a b hedge with hstill | rfl
      · exact Or.inl hstill
      · exact Or.inr (by simp [hremoved])
    · exact Or.inr (by simp [hremoved, hgone])
  ranked := by
    obtain ⟨rank, hrank⟩ := hs.ranked
    refine ⟨fun a => if a = i then s.removedCount else rank a, ?_⟩
    intro a ha
    by_cases hai : a = i
    · subst hai
      refine ⟨by simp [hcount], fun b hb hab => ?_⟩
      have hgone : s.removed b = true := by
        rcases hs.kept a b hab with hedge | hgone
        · exact hready b hb hedge
        · exact hgone
      have hne : b ≠ a := by
        rintro rfl
        simp [hremaining] at hgone
      exact ⟨by simp [hremoved, hgone], by simp [hne, (hrank b hgone).1]⟩
    · have hold : s.removed a = true := by simpa [hremoved, hai] using ha
      obtain ⟨hbound, htargets⟩ := hrank a hold
      refine ⟨by simp only [hai, ↓reduceIte, hcount]; omega, fun b hb hab => ?_⟩
      obtain ⟨hgone, hless⟩ := htargets b hb hab
      have hne : b ≠ i := by
        rintro rfl
        simp [hremaining] at hgone
      exact ⟨by simp [hremoved, hgone], by simp [hne, hai, hless]⟩

theorem eliminateAt_advances (state : Elimination × Bool) {i : Nat} (hi : i < count) :
    Advances count edges state (eliminateAt count state i) := by
  rcases eliminateAt_cases state i with ⟨heq, -⟩ |
    ⟨t, heq, hremaining, hready, hremoved, hcount, hfewer, hkept⟩
  · rw [heq]
    exact Advances.refl state
  · rw [heq]
    exact ⟨fun a ha => by simp [hremoved, ha], fun hs => hs.remove hi hremaining
      hready hremoved hcount hfewer hkept, Or.inr ⟨rfl, by simp [hcount]⟩⟩

theorem visits_advance (visits : List Nat) (hvisits : ∀ i ∈ visits, i < count)
    (state : Elimination × Bool) :
    Advances count edges state (visits.foldl (eliminateAt count) state) := by
  induction visits generalizing state with
  | nil => exact Advances.refl state
  | cons i visits ih =>
    simp only [List.foldl_cons]
    exact (eliminateAt_advances state (hvisits i List.mem_cons_self)).trans
      (ih (fun j hj => hvisits j (List.mem_cons_of_mem _ hj)) _)

theorem removed_of_visit {visits : List Nat} (hvisits : ∀ i ∈ visits, i < count)
    {state : Elimination × Bool} (hs : Sound count edges state.1) {i : Nat} (hi : i ∈ visits)
    (htargets : ∀ j < count, edges i j = true → state.1.removed j = true) :
    (visits.foldl (eliminateAt count) state).1.removed i = true := by
  induction visits generalizing state with
  | nil => cases hi
  | cons k visits ih =>
    have hk : k < count := hvisits k List.mem_cons_self
    have hrest : ∀ j ∈ visits, j < count := fun j hj =>
      hvisits j (List.mem_cons_of_mem _ hj)
    have hstep : Advances count edges state (eliminateAt count state k) :=
      eliminateAt_advances state hk
    simp only [List.foldl_cons]
    rcases List.mem_cons.mp hi with rfl | hlater
    · have hrun : Advances count edges (eliminateAt count state i) _ :=
        visits_advance visits hrest _
      apply hrun.keeps
      rcases eliminateAt_cases state i with
        ⟨heq, hremoved | ⟨j, hj, hremaining, hedge⟩⟩ |
        ⟨t, heq, -, -, hremoved, -⟩
      · rwa [heq]
      · have := htargets j hj (hs.fewer i j hedge)
        simp [hremaining] at this
      · simp [heq, hremoved]
    · exact ih hrest (hstep.sound hs) hlater fun j hj hedge => hstep.keeps j (htargets j hj hedge)

variable {rank : Nat → Nat} {s : Elimination}

theorem pass_progress (hs : Sound count edges s)
    (hrank : ∀ i < count, ∀ j < count, edges i j = true → rank j < rank i)
    (hremaining : s.removedCount < count) :
    (eliminationPass count s).2 = true ∧ Sound count edges (eliminationPass count s).1 ∧
      s.removedCount < (eliminationPass count s).1.removedCount := by
  have hrange : ∀ i ∈ List.range count, i < count := fun i hi =>
    List.mem_range.mp hi
  have hadvance : Advances count edges (s, false) (eliminationPass count s) :=
    visits_advance _ hrange _
  let left := (Finset.range count).filter fun a => s.removed a = false
  have hleft : left.Nonempty := by
    by_contra hempty
    rw [Finset.not_nonempty_iff_eq_empty, Finset.filter_eq_empty_iff] at hempty
    have hall : ((Finset.range count).filter fun a => s.removed a = true) = Finset.range count :=
      Finset.filter_true_of_mem fun a ha => by simpa using hempty ha
    have := hs.counted
    rw [hall, Finset.card_range] at this
    omega
  obtain ⟨i, hi, hleast⟩ := Finset.exists_min_image left rank hleft
  simp only [left, Finset.mem_filter, Finset.mem_range] at hi hleast
  have hgone : (eliminationPass count s).1.removed i = true := by
    apply removed_of_visit hrange hs (List.mem_range.mpr hi.1)
    intro j hj hedge
    by_contra hstay
    have := hleast j ⟨hj, by simpa using hstay⟩
    have := hrank i hi.1 j hj hedge
    omega
  rcases hadvance.flagged with heq | ⟨hflag, hmore⟩
  · rw [heq] at hgone
    simp [hi.2] at hgone
  · exact ⟨hflag, hadvance.sound hs, hmore⟩

theorem Sound.removedCount_le (hs : Sound count edges s) : s.removedCount ≤ count := by
  rw [hs.counted]
  exact (Finset.card_filter_le _ _).trans (by simp)

theorem eliminationLoop_complete
    (hrank : ∀ i < count, ∀ j < count, edges i j = true → rank j < rank i) {fuel : Nat}
    (hs : Sound count edges s) (hfuel : count - s.removedCount ≤ fuel) :
    (eliminationLoop count fuel s).removedCount = count := by
  induction fuel generalizing s with
  | zero =>
    have := hs.removedCount_le
    simp only [eliminationLoop]
    omega
  | succ fuel ih =>
    simp only [eliminationLoop]
    rcases Nat.lt_or_ge s.removedCount count with hless | hall
    · obtain ⟨hflag, hsound, hmore⟩ := pass_progress hs hrank hless
      rw [if_pos hflag]
      exact ih hsound (by omega)
    · -- Everything is removed already, so the pass finds nothing to do.
      have hadvance : Advances count edges (s, false) (eliminationPass count s) :=
        visits_advance _ (fun i hi => List.mem_range.mp hi) _
      have hle := (hadvance.sound hs).removedCount_le
      rcases hadvance.flagged with heq | ⟨-, hmore⟩
      · rw [heq]
        have := hs.removedCount_le
        simp only [Bool.false_eq_true, ↓reduceIte]
        omega
      · dsimp only at hmore
        omega

theorem sound_start (edges : Nat → Nat → Bool) : Sound count edges
      { edges := edges, removed := fun _ => false, removedCount := 0 } :=
  ⟨by simp, fun _ _ h => h, fun _ _ h => Or.inl h, fun _ => 0, by simp⟩

theorem elimination_of_rank (hrank : ∀ i < count, ∀ j < count, edges i j = true → rank j < rank i) :
    (eliminationLoop count (count + 1)
      { edges := edges, removed := fun _ => false, removedCount := 0 }
      ).removedCount = count :=
  eliminationLoop_complete hrank (sound_start edges) (by dsimp only; omega)

theorem eliminationPass_sound (hs : Sound count edges s) :
    Sound count edges (eliminationPass count s).1 := by
  have hadvance : Advances count edges (s, false) (eliminationPass count s) :=
    visits_advance _ (fun i hi => List.mem_range.mp hi) _
  exact hadvance.sound hs

theorem eliminationLoop_sound (fuel : Nat) (hs : Sound count edges s) :
    Sound count edges (eliminationLoop count fuel s) := by
  induction fuel generalizing s with
  | zero => exact hs
  | succ fuel ih =>
    simp only [eliminationLoop]
    split
    · exact ih (eliminationPass_sound hs)
    · exact eliminationPass_sound hs

theorem rank_of_complete (hs : Sound count edges s) (hall : s.removedCount = count) :
    ∃ rank : Nat → Nat, ∀ a < count, ∀ b < count, edges a b = true → rank b < rank a := by
  obtain ⟨rank, hrank⟩ := hs.ranked
  have hfull : ((Finset.range count).filter fun a => s.removed a = true) = Finset.range count := by
    apply Finset.eq_of_subset_of_card_le (Finset.filter_subset _ _)
    rw [← hs.counted, hall, Finset.card_range]
  refine ⟨rank, fun a ha b hb hab => ?_⟩
  have hgone : s.removed a = true := by
    have hmem : a ∈ (Finset.range count).filter fun a => s.removed a = true := by
      rw [hfull]
      exact Finset.mem_range.mpr ha
    exact (Finset.mem_filter.mp hmem).2
  exact ((hrank a hgone).2 b hb hab).2

end Boot

/-! ### The rank the generator's rounds leave -/

end WolfTrust.ManifestElimination
