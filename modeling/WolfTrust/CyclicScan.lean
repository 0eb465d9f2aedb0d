import Mathlib.Data.List.Infix
import Mathlib.Data.List.Range
import Mathlib.Tactic.SplitIfs

namespace WolfTrust.CyclicScan

variable {α ι : Type*} {n c x place : Nat}

/-- The first place from `start` on that `f` takes. -/
def scan (n start : Nat) (f : Nat → Option α) : Option (Nat × α) :=
  (List.range n).findSome? fun attempts =>
    (f ((start + attempts) % n)).map fun found => ((start + attempts) % n, found)

/-- The places that a scan behind `c` passes before it comes to `place`. -/
def ahead (n c place : Nat) : Nat :=
  if c < place then place - (c + 1) else place + n - (c + 1)

theorem ahead_lt (hc : c < n) (hplace : place < n) : ahead n c place < n := by
  unfold ahead
  split_ifs <;> omega

/-- Between the cursor and a place, what is taken is that place or closer to it. -/
theorem closer (hc : c < n) (hx : x < n) (hplace : place < n) (h : ahead n c x ≤ ahead n c place) :
    x = place ∨ ahead n x place < ahead n c place := by
  unfold ahead at h ⊢
  split_ifs at h ⊢ <;> omega

theorem add_ahead_mod (hc : c < n) (hplace : place < n) :
    ((c + 1) % n + ahead n c place) % n = place := by
  rw [Nat.mod_add_mod]
  unfold ahead
  split_ifs
  case pos h =>
    rw [show c + 1 + (place - (c + 1)) = place by omega, Nat.mod_eq_of_lt hplace]
  case neg h =>
    rw [show c + 1 + (place + n - (c + 1)) = place + n by omega,
      Nat.add_mod_right, Nat.mod_eq_of_lt hplace]

theorem ahead_add_mod {attempts : Nat} (hc : c < n) (hattempts : attempts < n) :
    ahead n c (((c + 1) % n + attempts) % n) = attempts := by
  rw [Nat.mod_add_mod]
  by_cases hover : c + 1 + attempts < n
  · rw [Nat.mod_eq_of_lt hover]
    unfold ahead
    split_ifs <;> omega
  · rw [Nat.mod_eq_sub_mod (by omega), Nat.mod_eq_of_lt (by omega)]
    unfold ahead
    split_ifs <;> omega

/-- A scan passes over no place that it could take. -/
theorem scan_ahead {f : Nat → Option α} {found : α} (hc : c < n)
    (h : scan n ((c + 1) % n) f = some (x, found)) (hplace : place < n)
    (hf : (f place).isSome) : x < n ∧ ahead n c x ≤ ahead n c place := by
  obtain ⟨before, attempts, after, hrange, htaken, hpassed⟩ :=
    List.findSome?_eq_some_iff.mp h
  obtain ⟨value, -, heq⟩ := Option.map_eq_some_iff.mp htaken
  have hx : ((c + 1) % n + attempts) % n = x := congrArg Prod.fst heq
  have hlength : before.length < n := by
    have := congrArg List.length hrange
    simp at this
    omega
  have hattempts : attempts = before.length := by
    have := congrArg (·[before.length]?) hrange
    simpa [hlength] using this.symm
  refine ⟨hx ▸ Nat.mod_lt _ (by omega), ?_⟩
  rw [← hx, ahead_add_mod hc (hattempts ▸ hlength)]
  by_contra hlt
  -- the scan met the place before, and had to take it
  have hmem : ahead n c place ∈ before := by
    have hat := congrArg (·[ahead n c place]?) hrange
    have hinside : ahead n c place < before.length := by omega
    simp only [List.getElem?_range (ahead_lt hc hplace), List.getElem?_append_left hinside] at hat
    exact List.mem_of_getElem? hat.symm
  have hnone := hpassed _ hmem
  rw [add_ahead_mod hc hplace, Option.map_eq_none_iff] at hnone
  rw [hnone] at hf
  cases hf

section Turns

variable (cursor : ι → Nat) (taken : ι → Option Nat)

/-- The cursor of each turn is the place taken last; the last one is left. -/
def Tracks : Nat → List ι → Nat → Prop
  | c, [], c' => c' = c
  | c, turn :: rest, c' => cursor turn = c ∧ Tracks ((taken turn).getD c) rest c'

variable {cursor taken}

theorem tracks_append {earlier later : List ι} {c c' : Nat} :
    Tracks cursor taken c (earlier ++ later) c' ↔ ∃ between, Tracks cursor taken c earlier between ∧
        Tracks cursor taken between later c' := by
  induction earlier generalizing c with
  | nil => simp [Tracks]
  | cons turn rest ih =>
    rw [List.cons_append, Tracks, ih]
    constructor
    · rintro ⟨hcursor, between, hrest, hlater⟩
      exact ⟨between, ⟨hcursor, hrest⟩, hlater⟩
    · rintro ⟨between, ⟨hcursor, hrest⟩, hlater⟩
      exact ⟨hcursor, between, hrest, hlater⟩

/-- Before `x` is taken again, `place` is. The turns come closer to it; `x` is
farther away than the first of them. -/
theorem taken_between {between : List ι} {last : ι} {c' : Nat}
    (htracks : Tracks cursor taken c (between ++ [last]) c') (hc : c < n)
    (hplace : place < n) (hne : x ≠ place)
    (hnear : ahead n c place ≤ ahead n x place)
    (hscan : ∀ turn ∈ between ++ [last], cursor turn < n → ∀ y, taken turn = some y →
        y < n ∧ ahead n (cursor turn) y ≤ ahead n (cursor turn) place)
    (hlast : taken last = some x) :
    ∃ turn ∈ between, taken turn = some place := by
  induction between generalizing c with
  | nil =>
    obtain ⟨rfl, -⟩ := htracks
    obtain ⟨hx, hahead⟩ := hscan last (by simp) hc x hlast
    rcases closer hc hx hplace hahead with heq | hcloser
    · exact absurd heq hne
    · omega
  | cons turn rest ih =>
    obtain ⟨rfl, hrest⟩ := htracks
    have hscan' := fun t ht => hscan t (List.mem_cons_of_mem turn ht)
    cases htaken : taken turn with
    | none =>
      rw [htaken, Option.getD_none] at hrest
      obtain ⟨t, ht, hplaced⟩ := ih hrest hc hnear hscan'
      exact ⟨t, List.mem_cons_of_mem turn ht, hplaced⟩
    | some y =>
      rw [htaken, Option.getD_some] at hrest
      obtain ⟨hy, hahead⟩ := hscan turn (by simp) hc y htaken
      rcases closer hc hy hplace hahead with rfl | hcloser
      · exact ⟨turn, List.mem_cons_self, htaken⟩
      · obtain ⟨t, ht, hplaced⟩ := ih hrest hy (by omega) hscan'
        exact ⟨t, List.mem_cons_of_mem turn ht, hplaced⟩

theorem tracks_lt {turns : List ι} {c' : Nat} (htracks : Tracks cursor taken c turns c')
    (hc : c < n) (htaken : ∀ turn ∈ turns, ∀ y, taken turn = some y → y < n) : c' < n := by
  induction turns generalizing c with
  | nil => exact htracks ▸ hc
  | cons turn rest ih =>
    refine ih htracks.2 ?_ fun t ht => htaken t (List.mem_cons_of_mem turn ht)
    cases hturn : taken turn with
    | none => exact hc
    | some y => exact htaken turn List.mem_cons_self y hturn

/-- While a place that could be taken is passed over, every place taken is one
of those ahead of it. -/
theorem length_taken_le {turns : List ι} {c' : Nat}
    (htracks : Tracks cursor taken c turns c') (hc : c < n) (hplace : place < n)
    (hscan : ∀ turn ∈ turns, cursor turn < n → ∀ y, taken turn = some y →
      y < n ∧ ahead n (cursor turn) y ≤ ahead n (cursor turn) place)
    (hpassed : ∀ turn ∈ turns, taken turn ≠ some place) :
    (turns.filterMap taken).length ≤ ahead n c place := by
  induction turns generalizing c with
  | nil => exact Nat.zero_le _
  | cons turn rest ih =>
    obtain ⟨rfl, hrest⟩ := htracks
    have hscan' := fun t ht => hscan t (List.mem_cons_of_mem turn ht)
    have hpassed' := fun t ht => hpassed t (List.mem_cons_of_mem turn ht)
    rw [List.filterMap_cons]
    cases htaken : taken turn with
    | none =>
      rw [htaken, Option.getD_none] at hrest
      exact ih hrest hc hscan' hpassed'
    | some y =>
      rw [htaken, Option.getD_some] at hrest
      obtain ⟨hy, hahead⟩ := hscan turn List.mem_cons_self hc y htaken
      rcases closer hc hy hplace hahead with rfl | hcloser
      · exact absurd htaken (hpassed turn List.mem_cons_self)
      · have hlength := ih hrest hy hscan' hpassed'
        rw [List.length_cons]
        omega

end Turns

end WolfTrust.CyclicScan
