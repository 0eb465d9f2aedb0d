import WolfTrust.FfmHandles
import WolfTrust.FfmSessions

namespace WolfTrust.FfmSessionRuns

open FfmRuntime FfmMachine FfmTables FfmInvariant FfmTermination FfmRestart
  FfmDiscipline FfmHandles FfmSessions

theorem ConnectionStep.releases_le {before after : Runtime}
    {c : ConnectionIndex} (h : ConnectionStep c before after) :
    (before.connections c).releases ≤ (after.connections c).releases := by
  obtain ⟨events, -, -, hmove⟩ := h
  have hle : (connectionLease c (before.connections c)).allocation ≤
      (connectionLease c (after.connections c)).allocation := by
    generalize connectionLease c (before.connections c) = old at hmove ⊢
    generalize connectionLease c (after.connections c) = new at hmove ⊢
    cases hmove with
    | stay | grant | spend => exact le_rfl
    | renew => exact Nat.le_succ _
  exact hle

def Moves (recovers : Prop) (kept : Set MessageIndex) : Session → Session → Prop :=
  Relation.ReflTransGen fun s s' =>
    SessionOk s ∧ SessionMove recovers kept s s'

section Moves

variable {recovers : Prop} {kept : Set MessageIndex} {s s' : Session}

theorem Moves.owner (h : Moves recovers kept s s') : SameOwner s.connection s'.connection ∧
        s'.connection.clientInstance = s.connection.clientInstance ∨
      s'.connection.allocated = false ∧ s.connection.releases < s'.connection.releases := by
  induction h with
  | refl => exact .inl ⟨⟨rfl, rfl, rfl, rfl, rfl⟩, rfl⟩
  | tail _ hmove ih =>
    rcases hmove.2.owner with ⟨hsame, hclient⟩ | hreleased
    · rcases ih with ⟨⟨ha, hb, hc, hd, he⟩, hf⟩ | ⟨hfree, hlt⟩
      · exact .inl ⟨⟨hsame.allocated.trans ha, hsame.caller.trans hb,
          hsame.serviceIndex.trans hc, hsame.generation.trans hd,
          hsame.releases.trans he⟩, hclient.trans hf⟩
      · exact .inr ⟨hsame.allocated.trans hfree, hlt.trans_eq hsame.releases.symm⟩
    · refine .inr ⟨hreleased ▸ rfl, ?_⟩
      rw [hreleased]
      rcases ih with ⟨hsame, -⟩ | ⟨-, hlt⟩
      · exact Nat.lt_succ_of_le hsame.releases.ge
      · exact Nat.lt_succ_of_lt hlt

theorem Moves.preserve {P : Session → Prop} (h : Moves recovers kept s s')
    (hP : ∀ s s', SessionOk s → P s → SessionMove recovers kept s s' →
      s'.connection.allocated = true → P s')
    (hs : P s) (hallocated : s'.connection.allocated = true) : P s' := by
  induction h with
  | refl => exact hs
  | tail _ hmove ih =>
    refine hP _ _ hmove.1 (ih ?_) hmove.2 hallocated
    rcases hmove.2.owner with ⟨hsame, -⟩ | hreleased
    · exact hsame.allocated.symm.trans hallocated
    · rw [hreleased] at hallocated
      cases hallocated

end Moves

section Step

variable {machine : Machine} {c : ConnectionIndex} {s₀ : Session}

theorem shows_move {recovers : Prop} {before after : Runtime} {kept : Set MessageIndex}
    (h : RuntimeOk before) (hs : Shows before c s₀)
    (hmove : ∃ s', Shows after c s' ∧ SessionMove recovers kept s₀ s') :
    ∃ s', Shows after c s' ∧ Moves recovers kept s₀ s' := by
  obtain ⟨s', hs', hmove⟩ := hmove
  exact ⟨s', hs', .single ⟨hs.ok h, hmove⟩⟩

theorem step_session_ends (s : Step) (h : MachineOk machine) (hs : Disciplined machine s)
    {kept : Set MessageIndex} (hkept : ∀ m, Ends machine s m → m ∉ kept)
    (hc : (machine.runtime.connections c).allocated = true) (hshows : Shows machine.runtime c s₀) :
    ∃ s₁, Shows (step machine s).runtime c s₁ ∧ Moves (Recovers s) kept s₀ s₁ := by
  by_cases hrecovers : Recovers s
  · obtain ⟨contents, hlists⟩ := lists_of_holds h.runtime.queues
    cases s with
    | partitionRestarted id status =>
      cases hp : findPartition machine.runtime id with
      | error =>
        simp only [step, FfmRecovery.ffmPartitionRestarted, hp]
        exact ⟨s₀, hshows, .refl⟩
      | ok =>
        obtain ⟨failed, released, hfailed, hgone, hafter⟩ :=
          ffmPartitionRestarted_restarted h.runtime hlists status hp
        have hok := hfailed.ok h.runtime
        obtain ⟨s₁, hs₁, hdown⟩ := shows_move h.runtime hshows
          (failed_session h.runtime hfailed hshows trivial)
        obtain ⟨s₂, hs₂, hmove⟩ := shows_move hok hs₁ (clientGone_session hok hgone hs₁ trivial)
        simp only [step, hafter]
        exact ⟨s₂, ⟨hs₂.connection, hs₂.message⟩, hdown.trans hmove⟩
    | failClient caller =>
      have hgone := ffmFailClientConnections_gone h.runtime hlists caller
      exact shows_move h.runtime hshows (clientGone_session h.runtime hgone hshows trivial)
    | _ => exact absurd hrecovers not_false
  · have t := @step_transition_ends True machine kept s (fun _ => ⟨h, hs.2⟩) hrecovers hkept
    exact shows_move h.runtime hshows (transition_session h.runtime t hc hshows)

theorem step_session (s : Step) (h : MachineOk machine) (hs : Disciplined machine s)
    (hc : (machine.runtime.connections c).allocated = true) (hshows : Shows machine.runtime c s₀) :
    ∃ s₁, Shows (step machine s).runtime c s₁ ∧
      Moves (Recovers s) (pins (step machine s).stack) s₀ s₁ := by
  refine step_session_ends s h hs (fun m hm hpinned => ?_) hc hshows
  exact @not_pinned_of_ends True machine s (fun _ => ⟨h, hs.2⟩) m hm ⟨trivial, hpinned⟩

theorem step_opened (s : Step) (h : MachineOk machine) (hs : Disciplined machine s)
    (hc : (machine.runtime.connections c).allocated = false) :
    ((step machine s).runtime.connections c).allocated = false ∨
      ((step machine s).runtime.connections c).state = .pendingConnect := by
  by_cases hrecovers : Recovers s
  · obtain ⟨contents, hlists⟩ := lists_of_holds h.runtime.queues
    cases s with
    | partitionRestarted id status =>
      cases hp : findPartition machine.runtime id with
      | error =>
        simp only [step, FfmRecovery.ffmPartitionRestarted, hp]
        exact .inl hc
      | ok =>
        obtain ⟨failed, released, hfailed, hgone, hafter⟩ :=
          ffmPartitionRestarted_restarted h.runtime hlists status hp
        simp only [step, hafter]
        have hfree := ClientGone.connection_free hgone (Failed.connection_free h.runtime hfailed hc)
        exact .inl hfree
    | failClient caller =>
      exact .inl (ClientGone.connection_free
        (ffmFailClientConnections_gone h.runtime hlists caller) hc)
    | _ => exact absurd hrecovers not_false
  · have t := @step_transition True machine s (fun _ => ⟨h, hs.2⟩) hrecovers
    exact transition_opened h.runtime t hc

def Everywhere (P : Session → Prop) (runtime : Runtime) : Prop :=
  ∀ c s, (runtime.connections c).allocated = true → Shows runtime c s → P s

theorem step_everywhere {P : Session → Prop} (s : Step) (h : MachineOk machine)
    (hs : Disciplined machine s)
    (hP : ∀ s' s'', SessionOk s' → P s' →
      SessionMove (Recovers s) (pins (step machine s).stack) s' s'' →
      s''.connection.allocated = true → P s'')
    (hnew : ∀ s', SessionOk s' → s'.connection.state = .pendingConnect → P s')
    (he : Everywhere P machine.runtime) :
    Everywhere P (step machine s).runtime := by
  intro c s₁ hc hs₁
  by_cases hbefore : (machine.runtime.connections c).allocated = true
  · obtain ⟨s₀, hs₀⟩ := exists_shows h.runtime c
    obtain ⟨s', hs', hmoves⟩ := step_session s h hs hbefore hs₀
    obtain rfl := hs'.unique hs₁
    exact hmoves.preserve hP (he c s₀ hbefore hs₀) (hs₁.connection ▸ hc)
  · rw [Bool.not_eq_true] at hbefore
    rcases step_opened s h hs hbefore with hfree | hopened
    · rw [hc] at hfree
      cases hfree
    · exact hnew s₁ (hs₁.ok (step_ok s h hs).runtime) (hs₁.connection ▸ hopened)

theorem step_releases (s : Step) (h : MachineOk machine)
    (hs : Orderly machine s) (c : ConnectionIndex) :
    (machine.runtime.connections c).releases ≤
      ((step machine s).runtime.connections c).releases := by
  have hrun := step_connectionRun s h hs c
  generalize (step machine s).runtime = after at hrun ⊢
  induction hrun with
  | refl => exact le_rfl
  | tail _ hstep ih => exact ih.trans (ConnectionStep.releases_le hstep)

end Step

/-- Allocation `a` of connection `c` is over, or it is there with `P`. -/
def Tracked (P : Session → Prop) (c : ConnectionIndex) (a : Nat) (runtime : Runtime) : Prop :=
  a < (runtime.connections c).releases ∨ (runtime.connections c).allocated = true ∧
      (runtime.connections c).releases = a ∧ ∃ s, Shows runtime c s ∧ P s

section Tracked

variable {P : Session → Prop} {c : ConnectionIndex} {a : Nat}
  {machine : Machine}

theorem step_tracked (s : Step) (h : MachineOk machine) (hs : Disciplined machine s)
    (hP : ∀ s' s'', SessionOk s' → P s' →
      SessionMove (Recovers s) (pins (step machine s).stack) s' s'' →
      s''.connection.allocated = true → P s'')
    (ht : Tracked P c a machine.runtime) :
    Tracked P c a (step machine s).runtime := by
  rcases ht with hover | ⟨hc, rfl, s₀, hs₀, hp⟩
  · exact .inl (hover.trans_le (step_releases s h hs.2 c))
  · obtain ⟨s₁, hs₁, hmoves⟩ := step_session s h hs hc hs₀
    rw [hs₀.connection] at hc
    rw [Tracked, hs₀.connection, hs₁.connection]
    rcases hmoves.owner with ⟨hsame, -⟩ | ⟨-, hlt⟩
    · have hallocated := hsame.allocated.trans hc
      exact .inr ⟨hallocated, hsame.releases, s₁, hs₁, hmoves.preserve hP hp hallocated⟩
    · exact .inl hlt

theorem run_tracked (steps : List Step) (h : MachineOk machine)
    (hsteps : Along Disciplined machine steps)
    (hP : ∀ recovers kept s s', SessionOk s → P s → SessionMove recovers kept s s' →
      s'.connection.allocated = true → P s')
    (ht : Tracked P c a machine.runtime) :
    Tracked P c a (run machine steps).runtime :=
  (run_induction (I := fun machine => MachineOk machine ∧ Tracked P c a machine.runtime)
    (fun _ s hinv hs => ⟨step_ok s hinv.1 hs,
      step_tracked s hinv.1 hs (hP _ _) hinv.2⟩) steps machine ⟨h, ht⟩ hsteps).2

end Tracked

end WolfTrust.FfmSessionRuns
