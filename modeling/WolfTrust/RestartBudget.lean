import WolfTrust.BurstBudget
import WolfTrust.MonitorMoves
import WolfTrust.StepRuns

namespace WolfTrust.RestartBudget

open BurstBudget
open GuestMonitor MonitorMoves StepRuns

/-- Less than a window lies between the ticks, which wrap. -/
def Within (window earlier later : UInt32) : Prop := later - earlier < window

instance (window : UInt32) : DecidableRel (Within window) := fun earlier later =>
  inferInstanceAs (Decidable (later - earlier < window))

def budgetOf (counters : Counters) : Budget UInt32 :=
  { count := counters.restartCount.toNat, last := counters.firstRestartTick }

section Policy

variable {limit window ticks : UInt32} {counters : Counters}

theorem toNat_succ_of_lt {count : UInt32} (h : count < limit) :
    (count + 1).toNat = count.toNat + 1 := by
  have hlimit := limit.toNat_lt
  rw [UInt32.lt_iff_toNat_lt] at h
  rw [UInt32.toNat_add]
  exact Nat.mod_eq_of_lt (show count.toNat + 1 < 2 ^ 32 by omega)

theorem restartPolicyEvaluate_budget (hlimit : 0 < limit) (hwindow : 0 < window) :
    let decided := restartPolicyEvaluate limit window ticks counters
    let answer := evaluate limit.toNat (Within window) ticks (budgetOf counters)
    decided.1.granted = answer.1 ∧ budgetOf decided.2 = answer.2 := by
  have hgap : (0 < counters.restartCount ∧ 0 < window ∧
      window ≤ ticks - counters.firstRestartTick) ↔
      (0 < (budgetOf counters).count ∧ ¬Within window (budgetOf counters).last ticks) := by
    rw [UInt32.lt_iff_toNat_lt, Within, UInt32.not_lt]
    exact ⟨fun h => ⟨h.1, h.2.2⟩, fun h => ⟨h.1, hwindow, h.2⟩⟩
  have hspent : limit ≤ counters.restartCount ↔
      limit.toNat ≤ (budgetOf counters).count := UInt32.le_iff_toNat_le
  unfold restartPolicyEvaluate evaluate
  dsimp only
  rw [if_pos hlimit]
  by_cases hrefilled : 0 < (budgetOf counters).count ∧ ¬Within window (budgetOf counters).last ticks
  · rw [if_pos (hgap.mpr hrefilled), if_pos hrefilled, if_neg (UInt32.not_le.mpr hlimit),
      if_neg (show ¬limit.toNat ≤ 0 from
        Nat.not_le.mpr (UInt32.lt_iff_toNat_lt.mp hlimit))]
    exact ⟨rfl, rfl⟩
  · rw [if_neg (mt hgap.mp hrefilled), if_neg hrefilled]
    by_cases hfull : limit ≤ counters.restartCount
    · rw [if_pos hfull, if_pos (hspent.mp hfull)]
      exact ⟨rfl, rfl⟩
    · rw [if_neg hfull, if_neg (mt hspent.mpr hfull)]
      refine ⟨rfl, ?_⟩
      show Budget.mk (counters.restartCount + 1).toNat ticks = _
      rw [toNat_succ_of_lt (UInt32.not_le.mp hfull)]
      rfl

theorem restartPolicyEvaluate_kept {history : List (Verdict UInt32)} (hlimit : 0 < limit)
    (hwindow : 0 < window) (h : Kept limit.toNat (Within window) history (budgetOf counters)) :
    let decided := restartPolicyEvaluate limit window ticks counters
    Kept limit.toNat (Within window)
      (history ++ [⟨ticks, decided.1.granted⟩]) (budgetOf decided.2) := by
  obtain ⟨hgranted, hbudget⟩ :=
    @restartPolicyEvaluate_budget limit window ticks counters hlimit hwindow
  dsimp only
  rw [hgranted, hbudget]
  exact h.evaluate ticks

end Policy

section Guests

variable {p : Platform} {s s' : Monitor} {guest : Nat} {config : LaunchConfig}
  {limit window : UInt32}

theorem countersOf_eq {runtime runtime' : GuestRuntime} (h : spentOf runtime' = spentOf runtime) :
    countersOf runtime' = countersOf runtime := by
  obtain ⟨hcount, htick⟩ := Prod.mk.inj h
  unfold countersOf
  rw [hcount, htick]

theorem move_spent (h : Move p s s') (guest : Nat) :
    spentOf (s'.runtime guest) = spentOf (s.runtime guest) := by
  have hset : ∀ {s : Monitor} {other : Nat} {runtime : GuestRuntime},
      spentOf runtime = spentOf (s.runtime other) →
      spentOf ((s.setRuntime other runtime).runtime guest) = spentOf (s.runtime guest) := by
    intro s other runtime hspent
    by_cases hguest : guest = other
    · rw [hguest, setRuntime_same, hspent]
    · rw [setRuntime_other s hguest]
  cases h with
  | adjusts hstate hspent => exact hspent guest
  | faults | saves | relaunches | enters => exact hset rfl
  | verifies | serves => rfl

theorem moves_spent (h : Moves p s s') (guest : Nat) :
    spentOf (s'.runtime guest) = spentOf (s.runtime guest) := by
  induction h with
  | refl => rfl
  | tail _ hmove ih => exact (move_spent hmove guest).trans ih

theorem monitorInit_spent (memory : Memory) (earlier : List Action) :
    spentOf ((monitorInit p memory earlier).runtime guest) = (0, 0) := by
  have hinit : ∀ (s : Monitor) (other : Nat), spentOf (s.runtime guest) = (0, 0) →
      spentOf ((initGuest p s other).runtime guest) = (0, 0) := by
    intro s other hspent
    unfold initGuest
    split
    · exact hspent
    · rename_i config hconfig
      dsimp only
      generalize hs : s.setRuntime other _ = s'
      have hspent' : spentOf (s'.runtime guest) = (0, 0) := by
        rw [← hs]
        by_cases hguest : guest = other
        · rw [hguest, setRuntime_same]
          rfl
        · rw [setRuntime_other s hguest]
          exact hspent
      rcases launch_cases p other s' with ⟨hverified, heq⟩ | heq
      · rw [heq]
        exact hspent'
      · rw [heq]
        exact (move_spent (p := p) (.faults other) guest).trans hspent'
  have hall : ∀ (guests : List Nat) (s : Monitor), spentOf (s.runtime guest) = (0, 0) →
      spentOf ((guests.foldl (initGuest p) s).runtime guest) = (0, 0) := by
    intro guests
    induction guests with
    | nil => exact fun s h => h
    | cons other rest ih => exact fun s h => ih _ (hinit s other h)
  exact hall _ (freshMonitor memory earlier) rfl

/-- What `wt_restart_guest` is told about the guest when the current guest
faults. -/
def guestVerdict (p : Platform) (guest : Nat) (s : Monitor) : List (Verdict UInt32) :=
  if s.currentGuest = guest then
    match p.configs[guest]? with
    | none => []
    | some config =>
      [⟨s.monotonicTicks, (guestEvaluate config guest s).1.granted⟩]
  else []

/-- A step of the monitor, with the decisions on the guest since the boot. -/
def followGuest (p : Platform) (guest : Nat) :
    Monitor × List (Verdict UInt32) → Step → Monitor × List (Verdict UInt32)
  | (s, _), .boot memory => (step p s (.boot memory), [])
  | (s, history), .fault trap reason =>
    (step p s (.fault trap reason), history ++ guestVerdict p guest s)
  | (s, history), a => (step p s a, history)

def guestHistory (p : Platform) (guest : Nat) (s : Monitor) (steps : List Step) :
    List (Verdict UInt32) :=
  (run (followGuest p guest) (s, []) steps).2

/-- The counters of the guest count the decisions on it. -/
def GuestKept (limit window : UInt32) (guest : Nat)
    (run : Monitor × List (Verdict UInt32)) : Prop :=
  Kept limit.toNat (Within window) run.2 (budgetOf (countersOf (run.1.runtime guest)))

theorem guestKept_boot (memory : Memory) (earlier : List Action) :
    GuestKept limit window guest (monitorInit p memory earlier, []) := by
  have hunspent := @monitorInit_spent p guest memory earlier
  obtain ⟨hcount, htick⟩ := Prod.mk.inj hunspent
  unfold GuestKept budgetOf countersOf
  rw [hcount]
  exact .nil _

theorem guestKept_moves {history : List (Verdict UInt32)}
    (h : GuestKept limit window guest (s, history)) (hmoves : Moves p s s') :
    GuestKept limit window guest (s', history) := by
  unfold GuestKept at h ⊢
  dsimp only at h ⊢
  rwa [countersOf_eq (moves_spent hmoves guest)]

theorem step_moves {a : Step} (hboot : ∀ memory, a ≠ .boot memory)
    (hfault : ∀ trap reason, a ≠ .fault trap reason) : Moves p s (step p s a) := by
  rcases step_cases p s a with ⟨memory, rfl⟩ | ⟨trap, reason, -, rfl, -⟩ | hmoves
  · exact absurd rfl (hboot memory)
  · exact absurd rfl (hfault trap reason)
  · exact hmoves

end Guests

section Runs

variable {p : Platform} {s : Monitor} {guest : Nat} {config : LaunchConfig} {limit window : UInt32}
  (hlimit : 0 < limit) (hwindow : 0 < window) (hconfig : p.configs[guest]? = some config)
  (hlimit' : config.restartLimit = limit.toNat)
  (hwindow' : config.restartWindowTicks = window.toNat) {history : List (Verdict UInt32)}

include hlimit hwindow hlimit' hwindow'

theorem guestKept_fault {reason : FaultReason} (h : GuestKept limit window guest (s, history)) :
    GuestKept limit window guest (restartGuest config guest reason s,
      history ++ [⟨s.monotonicTicks, (guestEvaluate config guest s).1.granted⟩]) := by
  have hkept := @restartPolicyEvaluate_kept limit window s.monotonicTicks _ _ hlimit hwindow h
  have hevaluate : guestEvaluate config guest s =
      restartPolicyEvaluate limit window s.monotonicTicks (countersOf (s.runtime guest)) := by
    unfold guestEvaluate
    rw [hlimit', hwindow', UInt32.ofNat_toNat, UInt32.ofNat_toNat]
  have hleft : countersOf ((restartGuest config guest reason s).runtime guest) =
      (guestEvaluate config guest s).2 := by
    unfold restartGuest
    dsimp only
    split
    · exact (congrArg countersOf (setRuntime_same _ guest _)).trans rfl
    · exact (congrArg countersOf (setRuntime_same _ guest _)).trans rfl
  unfold GuestKept
  dsimp only
  rw [hleft, hevaluate]
  exact hkept

include hconfig

theorem guestKept_onFault {trap : Trap} {reason : FaultReason}
    (h : GuestKept limit window guest (s, history)) :
    GuestKept limit window guest (followGuest p guest (s, history) (.fault trap reason)) := by
  show GuestKept limit window guest ((onGuestFault p trap reason s).2,
    history ++ guestVerdict p guest s)
  unfold guestVerdict onGuestFault
  by_cases hcurrent : s.currentGuest = guest
  · rw [if_pos hcurrent, hcurrent, hconfig]
    exact guestKept_moves (guestKept_fault hlimit hwindow hlimit' hwindow' h) (schedule_moves _)
  · rw [if_neg hcurrent, List.append_nil]
    cases hother : p.configs[s.currentGuest]? with
    | none => exact h
    | some other =>
      refine guestKept_moves (p := p)
        (s := restartGuest other s.currentGuest reason s) ?_ (schedule_moves _)
      have hsame : (restartGuest other s.currentGuest reason s).runtime guest =
          s.runtime guest := by
        unfold restartGuest
        dsimp only
        split
        · exact setRuntime_other _ (Ne.symm hcurrent) _
        · exact setRuntime_other _ (Ne.symm hcurrent) _
      unfold GuestKept
      dsimp only
      rw [hsame]
      exact h

theorem guestKept_follow {run : Monitor × List (Verdict UInt32)}
    (h : GuestKept limit window guest run) (a : Step) :
    GuestKept limit window guest (followGuest p guest run a) := by
  obtain ⟨s, history⟩ := run
  have hmoves : (∀ memory, a ≠ .boot memory) → (∀ trap reason, a ≠ .fault trap reason) →
      GuestKept limit window guest (step p s a, history) :=
    fun hboot hfault => guestKept_moves h (step_moves hboot hfault)
  cases a with
  | boot memory => exact guestKept_boot memory s.actions
  | fault => exact guestKept_onFault hlimit hwindow hconfig hlimit' hwindow' h
  | start | tick | idle | resume | verify | quarantine | write => exact hmoves (by simp) (by simp)

/-- Along every run of the monitor the decisions on a guest are bounded. -/
theorem guestHistory_bounded (memory : Memory) (earlier : List Action) (steps : List Step) :
    Bounded limit.toNat (Within window)
      (guestHistory p guest (monitorInit p memory earlier) steps) := by
  have hboot : GuestKept limit window guest (monitorInit p memory earlier, []) :=
    guestKept_boot memory earlier
  have hend := @run_invariant _ _ (followGuest p guest)
    (GuestKept limit window guest) (fun run a h =>
      guestKept_follow hlimit hwindow hconfig hlimit' hwindow' h a) _ hboot steps
  exact hend.bounded

end Runs

end WolfTrust.RestartBudget
