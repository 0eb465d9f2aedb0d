import Mathlib.Data.List.Basic
import Mathlib.Tactic.SplitIfs

namespace WolfTrust.IntervalCover

variable {α : Type*} (lo hi : α → Nat) (regions : List α)

/-- Every point from `first` to `last` lies in one of the regions. -/
def Covers (first last : Nat) : Prop :=
  ∀ a, first ≤ a → a ≤ last → ∃ r ∈ regions, lo r ≤ a ∧ a ≤ hi r

/-- Go on from the end of the first region that contains the cursor. -/
def walk (last : Nat) : Nat → Nat → Bool
  | 0, _ => false
  | steps + 1, cursor =>
    match regions.find? fun r => decide (lo r ≤ cursor ∧ cursor ≤ hi r) with
    | none => false
    | some r => if last ≤ hi r then true else walk last steps (hi r + 1)

/-- The regions that are not behind the cursor. -/
def ahead (cursor : Nat) : Nat :=
  regions.countP fun r => decide (cursor ≤ hi r)

variable {lo hi regions} {last steps cursor : Nat}

theorem covers_of_walk (h : walk lo hi regions last steps cursor = true) :
    Covers lo hi regions cursor last := by
  induction steps generalizing cursor with
  | zero => cases h
  | succ steps ih =>
    rw [walk] at h
    split at h
    · cases h
    rename_i r hfound
    have hr : lo r ≤ cursor ∧ cursor ≤ hi r := by simpa using List.find?_some hfound
    have hmem := List.mem_of_find?_eq_some hfound
    intro a hfirst hlast
    by_cases ha : a ≤ hi r
    · exact ⟨r, hmem, Nat.le_trans hr.1 hfirst, ha⟩
    · split at h
      · omega
      · exact ih h a (by omega) hlast

theorem ahead_lt {r : α} {cursor : Nat} (hmem : r ∈ regions) (hle : cursor ≤ hi r) :
    ahead hi regions (hi r + 1) < ahead hi regions cursor := by
  unfold ahead
  induction regions with
  | nil => cases hmem
  | cons x rest ih =>
    have hrest : rest.countP (fun x => decide (hi r + 1 ≤ hi x)) ≤
        rest.countP fun x => decide (cursor ≤ hi x) := by
      refine List.countP_mono_left fun x _ hx => ?_
      have hx := of_decide_eq_true hx
      exact decide_eq_true (by omega)
    rw [List.countP_cons, List.countP_cons]
    rcases List.mem_cons.mp hmem with rfl | hmem
    · rw [if_neg (by simp), if_pos (decide_eq_true hle)]
      omega
    · have hlt := ih hmem
      split_ifs with hafter hbefore
      · omega
      · have hafter := of_decide_eq_true hafter
        exact absurd (decide_eq_true (by omega)) hbefore
      · omega
      · omega

theorem walk_of_covers (hle : cursor ≤ last) (hcovers : Covers lo hi regions cursor last)
    (hsteps : ahead hi regions cursor ≤ steps) : walk lo hi regions last steps cursor = true := by
  induction steps generalizing cursor with
  | zero =>
    obtain ⟨r, hmem, -, hr⟩ := hcovers cursor (Nat.le_refl _) hle
    have hlt := ahead_lt hmem hr
    omega
  | succ steps ih =>
    rw [walk]
    split
    · rename_i hnone
      obtain ⟨r, hmem, hr⟩ := hcovers cursor (Nat.le_refl _) hle
      exact absurd (decide_eq_true hr) (List.find?_eq_none.mp hnone r hmem)
    · rename_i r hfound
      have hr : lo r ≤ cursor ∧ cursor ≤ hi r := by simpa using List.find?_some hfound
      have hlt := ahead_lt (List.mem_of_find?_eq_some hfound) hr.2
      split
      · rfl
      · refine ih (by omega) (fun a hfirst hlast => ?_) (by omega)
        exact hcovers a (by omega) hlast

/-- As many steps as there are regions decide whether an interval is covered. -/
theorem walk_iff {first last steps : Nat} (hle : first ≤ last) (hsteps : regions.length ≤ steps) :
    walk lo hi regions last steps first = true ↔ Covers lo hi regions first last :=
  ⟨covers_of_walk, fun hcovers =>
    walk_of_covers hle hcovers (Nat.le_trans List.countP_le_length hsteps)⟩

end WolfTrust.IntervalCover
