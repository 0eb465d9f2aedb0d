import Mathlib.Data.List.Chain

namespace WolfTrust.BurstBudget

variable {τ : Type*}

/-- How many grants came one near the other, and when the last one was. -/
structure Budget (τ : Type*) where
  count : Nat
  last : τ

/-- The answer to one request. -/
structure Verdict (τ : Type*) where
  time : τ
  granted : Bool

def evaluate (limit : Nat) (near : τ → τ → Prop) [DecidableRel near] (time : τ)
    (b : Budget τ) : Bool × Budget τ :=
  let count := if 0 < b.count ∧ ¬near b.last time then 0 else b.count
  if limit ≤ count then (false, { b with count })
  else (true, { count := count + 1, last := time })

/-- When requests were granted, the first one first. -/
def grants (history : List (Verdict τ)) : List τ :=
  (history.filter Verdict.granted).map Verdict.time

/-- Among one grant more than the limit there are two, one right after the
other, that are not near; and what is refused comes near the last of as many
grants as the limit, each near the one before it. -/
structure Bounded (limit : Nat) (near : τ → τ → Prop)
    (history : List (Verdict τ)) : Prop where
  spread : ∀ burst, burst <:+: grants history → burst.length = limit + 1 →
    ∃ earlier a b later, burst = earlier ++ a :: b :: later ∧ ¬near a b
  earned : ∀ before time after, history = before ++ ⟨time, false⟩ :: after →
    ∃ burst, burst <:+ grants before ∧ burst.length = limit ∧ (burst ++ [time]).IsChain near

/-- The count is the length of the longest burst that is still going on. -/
structure Tracks (limit : Nat) (near : τ → τ → Prop)
    (history : List (Verdict τ)) (b : Budget τ) : Prop where
  count_le : b.count ≤ limit
  last_eq : 0 < b.count → (grants history).getLast? = some b.last
  recent : ∃ burst, burst <:+ grants history ∧ burst.length = b.count ∧ burst.IsChain near
  longest : ∀ burst, burst <:+ grants history → burst.IsChain near → burst.length ≤ b.count

section Histories

variable {limit : Nat} {near : τ → τ → Prop} {history : List (Verdict τ)}
  {b : Budget τ} {time : τ} {burst : List τ}

theorem grants_granted : grants (history ++ [⟨time, true⟩]) = grants history ++ [time] := by
  simp [grants]

theorem grants_refused : grants (history ++ [⟨time, false⟩]) = grants history := by
  simp [grants]

theorem Tracks.nil (last : τ) : Tracks limit near [] ⟨0, last⟩ where
  count_le := Nat.zero_le _
  last_eq := fun h => absurd h (Nat.lt_irrefl 0)
  recent := ⟨[], List.nil_suffix, rfl, .nil⟩
  longest := fun burst h _ => by
    rw [List.suffix_nil.mp h]
    exact Nat.le_refl 0

theorem Bounded.nil : Bounded limit near ([] : List (Verdict τ)) where
  spread := fun burst h hlength => by
    rw [List.infix_nil.mp h] at hlength
    cases hlength
  earned := fun before time after h => by simp at h

theorem Tracks.burst_last (h : Tracks limit near history b) (hburst : burst <:+ grants history)
    (hcount : 0 < b.count) : ∀ last ∈ burst.getLast?, last = b.last := by
  intro last hlast
  obtain ⟨earlier, hgrants⟩ := hburst
  have hall := h.last_eq hcount
  rw [← hgrants, List.getLast?_append, Option.mem_def.mp hlast] at hall
  exact Option.some.inj hall

/-- The next request continues a burst if it is near the last grant. -/
theorem Tracks.extend (h : Tracks limit near history b) (hburst : burst <:+ grants history)
    (hchain : burst.IsChain near) (hnear : 0 < b.count → near b.last time) :
    (burst ++ [time]).IsChain near := by
  refine List.isChain_append.mpr ⟨hchain, .singleton _, fun last hlast next hnext => ?_⟩
  cases hnext
  have hcount : 0 < b.count := by
    have hlength := h.longest burst hburst hchain
    cases burst with
    | nil => cases hlast
    | cons =>
      rw [List.length_cons] at hlength
      omega
  rw [h.burst_last hburst hcount last hlast]
  exact hnear hcount

theorem Tracks.restart (h : Tracks limit near history b) (hlimit : 0 < limit)
    (hcount : 0 < b.count) (hgap : ¬near b.last time) :
    Tracks limit near (history ++ [⟨time, true⟩]) ⟨1, time⟩ where
  count_le := hlimit
  last_eq := fun _ => by rw [grants_granted, List.getLast?_append]; rfl
  recent := by
    refine ⟨[time], ?_, rfl, .singleton _⟩
    rw [grants_granted]
    exact List.suffix_append _ _
  longest := by
    intro burst hburst hchain
    rw [grants_granted] at hburst
    rcases List.suffix_concat_iff.mp hburst with rfl | ⟨rest, rfl, hrest⟩
    · exact Nat.zero_le _
    · -- were there another grant in it, the request would be near that
      cases hlast : rest.getLast? with
      | none =>
        rw [List.getLast?_eq_none_iff.mp hlast]
        exact Nat.le_refl 1
      | some last =>
        have hnear := (List.isChain_append.mp hchain).2.2 last hlast time rfl
        rw [h.burst_last hrest hcount last hlast] at hnear
        exact absurd hnear hgap

theorem Tracks.continue (h : Tracks limit near history b)
    (hroom : b.count < limit) (hnear : 0 < b.count → near b.last time) :
    Tracks limit near (history ++ [⟨time, true⟩]) ⟨b.count + 1, time⟩ where
  count_le := hroom
  last_eq := fun _ => by rw [grants_granted, List.getLast?_append]; rfl
  recent := by
    obtain ⟨burst, hburst, hlength, hchain⟩ := h.recent
    refine ⟨burst ++ [time], ?_, ?_, h.extend hburst hchain hnear⟩
    · rw [grants_granted]
      exact List.suffix_concat_iff.mpr (.inr ⟨burst, rfl, hburst⟩)
    · rw [List.length_append, hlength]
      rfl
  longest := by
    intro burst hburst hchain
    rw [grants_granted] at hburst
    rcases List.suffix_concat_iff.mp hburst with rfl | ⟨rest, rfl, hrest⟩
    · exact Nat.zero_le _
    · rw [List.length_append]
      exact Nat.succ_le_succ (h.longest rest hrest (List.isChain_append.mp hchain).1)

theorem Tracks.refuse (h : Tracks limit near history b) :
    Tracks limit near (history ++ [⟨time, false⟩]) b where
  count_le := h.count_le
  last_eq := by rw [grants_refused]; exact h.last_eq
  recent := by rw [grants_refused]; exact h.recent
  longest := by rw [grants_refused]; exact h.longest

/-- A refusal in a longer history is one of the shorter history or the last. -/
theorem refused_of_append {before after : List (Verdict τ)} {verdict : Verdict τ}
    {moment : τ} (h : history ++ [verdict] = before ++ ⟨moment, false⟩ :: after) :
    (verdict = ⟨moment, false⟩ ∧ history = before) ∨
      ∃ rest, history = before ++ ⟨moment, false⟩ :: rest := by
  rcases List.eq_nil_or_concat after with rfl | ⟨rest, last, rfl⟩
  · obtain ⟨hbefore, hlast⟩ := List.append_inj' h rfl
    exact .inl ⟨List.singleton_inj.mp hlast, hbefore⟩
  · refine .inr ⟨rest, ?_⟩
    rw [List.concat_eq_append, ← List.cons_append, ← List.append_assoc] at h
    exact (List.append_inj' h rfl).1

/-- A history that is bounded stays so when the budget grants what it counts. -/
theorem Bounded.grant {next : Budget τ} (h : Bounded limit near history)
    (hnext : Tracks limit near (history ++ [⟨time, true⟩]) next) :
    Bounded limit near (history ++ [⟨time, true⟩]) where
  spread := by
    intro burst hburst hlength
    rw [grants_granted, List.infix_concat_iff] at hburst
    rcases hburst with hlatest | hearlier
    · by_contra hnone
      have hchain : burst.IsChain near := by
        refine List.isChain_iff_forall_rel_of_append_cons_cons.mpr
          fun a b earlier later hsplit => ?_
        by_contra hgap
        exact hnone ⟨earlier, a, b, later, hsplit, hgap⟩
      rw [← grants_granted] at hlatest
      have hle := hnext.longest burst hlatest hchain
      have hcount := hnext.count_le
      omega
    · exact h.spread burst hearlier hlength
  earned := by
    intro before moment after hsplit
    rcases refused_of_append hsplit with ⟨hverdict, -⟩ | ⟨rest, hrest⟩
    · cases hverdict
    · exact h.earned before moment rest hrest

theorem Bounded.refuse (h : Bounded limit near history)
    (hearned : ∃ burst, burst <:+ grants history ∧ burst.length = limit ∧
      (burst ++ [time]).IsChain near) :
    Bounded limit near (history ++ [⟨time, false⟩]) where
  spread := by
    rw [grants_refused]
    exact h.spread
  earned := by
    intro before moment after hsplit
    rcases refused_of_append hsplit with ⟨hverdict, rfl⟩ | ⟨rest, hrest⟩
    · cases hverdict
      exact hearned
    · exact h.earned before moment rest hrest

/-- The budget counts the history, which is bounded. -/
structure Kept (limit : Nat) (near : τ → τ → Prop) (history : List (Verdict τ))
    (b : Budget τ) : Prop where
  tracks : Tracks limit near history b
  bounded : Bounded limit near history

theorem Kept.nil (last : τ) : Kept limit near [] ⟨0, last⟩ :=
  ⟨.nil last, .nil⟩

end Histories

section Runs

variable {limit : Nat} {near : τ → τ → Prop} [DecidableRel near]
  {history : List (Verdict τ)} {b : Budget τ}

theorem Kept.evaluate (h : Kept limit near history b) (time : τ) :
    let answer := evaluate limit near time b
    Kept limit near (history ++ [⟨time, answer.1⟩]) answer.2 := by
  have hcount := h.tracks.count_le
  unfold BurstBudget.evaluate
  dsimp only
  by_cases hgap : 0 < b.count ∧ ¬near b.last time
  · rw [if_pos hgap, if_neg (by omega)]
    have hnext := h.tracks.restart (by omega) hgap.1 hgap.2
    exact ⟨hnext, h.bounded.grant hnext⟩
  · have hnear : 0 < b.count → near b.last time :=
      fun hpos => Classical.not_not.mp fun hfar => hgap ⟨hpos, hfar⟩
    rw [if_neg hgap]
    split
    · rename_i hfull
      obtain ⟨burst, hburst, hlength, hchain⟩ := h.tracks.recent
      exact ⟨h.tracks.refuse, h.bounded.refuse ⟨burst, hburst,
        hlength.trans (Nat.le_antisymm hcount hfull),
        h.tracks.extend hburst hchain hnear⟩⟩
    · rename_i hroom
      have hnext := h.tracks.continue (by omega) hnear
      exact ⟨hnext, h.bounded.grant hnext⟩

end Runs

end WolfTrust.BurstBudget
