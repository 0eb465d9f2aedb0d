import WolfTrust.GuestMonitor
import Mathlib.Data.Finset.Card
import Mathlib.Logic.Relation

namespace WolfTrust.MonitorMoves

open Relation
open Domain GuestMonitor

variable {p : Platform} {trap : Trap} {s s' : Monitor} {guest : Nat}

@[simp] theorem setRuntime_same (s : Monitor) (guest : Nat) (runtime : GuestRuntime) :
    (s.setRuntime guest runtime).runtime guest = runtime :=
  Function.update_self ..

theorem setRuntime_other (s : Monitor) {guest other : Nat} (h : other ≠ guest)
    (runtime : GuestRuntime) : (s.setRuntime guest runtime).runtime other = s.runtime other :=
  Function.update_of_ne h ..

@[simp] theorem setState_state (s : Monitor) (guest : Nat) (state : DomainLifecycle) :
    ((s.setState guest state).runtime guest).state = state := by
  simp [Monitor.setState]

theorem setState_other (s : Monitor) {guest other : Nat} (h : other ≠ guest)
    (state : DomainLifecycle) : (s.setState guest state).runtime other = s.runtime other :=
  setRuntime_other s h _

def Schedulable (runtime : GuestRuntime) : Prop :=
  runtime.remainingDelayTicks = 0 ∧ (runtime.state = .ready ∨ runtime.state = .running ∨
      runtime.state = .blocked)

/-- What the restart policy counts of a guest. -/
def spentOf (runtime : GuestRuntime) : UInt32 × UInt32 :=
  (runtime.restartCount, runtime.firstRestartTick)

inductive Move (p : Platform) : Monitor → Monitor → Prop
  | adjusts {s s' : Monitor}
      (hstate : ∀ g, (s'.runtime g).state = (s.runtime g).state)
      (hspent : ∀ g, spentOf (s'.runtime g) = spentOf (s.runtime g))
      (hactions : s'.actions = s.actions) : Move p s s'
  | faults {s : Monitor} (guest : Nat) : Move p s (s.setState guest .faulted)
  | saves {s : Monitor} (guest : Nat) (hstate : (s.runtime guest).state = .running) :
      Move p s (s.setState guest .ready)
  | verifies {s : Monitor} (guest : Nat)
      (hverified : verifyGuestLaunch p s.memory guest = .ok ()) :
      Move p s (s.record (.verified guest s.memory))
  | relaunches {s : Monitor} (guest : Nat) {config : LaunchConfig}
      (hconfig : p.configs[guest]? = some config)
      (hstate : (s.runtime guest).state = .restarting)
      (hverified : verifyGuestLaunch p s.memory guest = .ok ()) :
      Move p s ((s.record (.verified guest s.memory)).setRuntime guest
        (partitionResetRuntime config (s.runtime guest)))
  | enters {s : Monitor} (guest : Nat) (hfound : Schedulable (s.runtime guest)) :
      Move p s (s.enter guest)
  | serves {s : Monitor} (guest : Nat) (hstate : (s.runtime guest).state = .blocked) :
      Move p s (s.record (.serving guest))

abbrev Moves (p : Platform) : Monitor → Monitor → Prop := ReflTransGen (Move p)

theorem launch_cases (p : Platform) (guest : Nat) (s : Monitor) :
    (verifyGuestLaunch p s.memory guest = .ok () ∧
      launch p guest s = (true, s.record (.verified guest s.memory))) ∨
    launch p guest s = (false, s) := by
  unfold launch
  split
  · exact .inl ⟨‹_›, rfl⟩
  · exact .inr rfl

theorem tickGuest_moves (p : Platform) (s : Monitor) (guest : Nat) :
    Moves p s (tickGuest p s guest) := by
  have hcounted : (s.runtime guest).countDown.state = (s.runtime guest).state ∧
      spentOf (s.runtime guest).countDown = spentOf (s.runtime guest) := by
    unfold GuestRuntime.countDown
    split <;> exact ⟨rfl, rfl⟩
  unfold tickGuest
  generalize (s.runtime guest).countDown = runtime at hcounted
  have hadjust : Move p s (s.setRuntime guest runtime) := by
    refine .adjusts (fun g => ?_) (fun g => ?_) rfl <;> by_cases h : g = guest
    · subst h
      rw [setRuntime_same, hcounted.1]
    · rw [setRuntime_other s h]
    · subst h
      rw [setRuntime_same, hcounted.2]
    · rw [setRuntime_other s h]
  dsimp only
  split
  case isFalse => exact .single hadjust
  case isTrue hdue =>
    refine .head hadjust ?_
    rcases launch_cases p guest (s.setRuntime guest runtime) with
      ⟨hverified, heq⟩ | heq
    · rw [heq]
      split
      case h_1 config _ hconfig =>
        have hmove := Move.relaunches guest hconfig
          (by rw [setRuntime_same]; exact hdue.2) hverified
        rw [setRuntime_same] at hmove
        exact .single hmove
      case h_2 => exact .tail (.single (.verifies guest hverified)) (.faults guest)
    · rw [heq]
      exact .single (.faults guest)

theorem tickRestartBackoff_moves (p : Platform) (s : Monitor) :
    Moves p s (tickRestartBackoff p s) := by
  unfold tickRestartBackoff
  generalize List.range p.guestCount = guests
  induction guests generalizing s with
  | nil => exact .refl
  | cons guest rest ih => exact (tickGuest_moves p s guest).trans (ih _)

theorem candidateRep_some {rep : SchedulerRep} (h : candidateRep p trap s guest = some rep) :
    Schedulable (s.runtime guest) ∧ (rep = .ns → (s.runtime guest).state ≠ .blocked) := by
  unfold candidateRep at h
  dsimp only at h
  split at h
  · cases h
  case isFalse hdelay =>
    have hzero : (s.runtime guest).remainingDelayTicks = 0 := by
      apply UInt32.toNat.inj
      rw [UInt32.lt_iff_toNat_lt] at hdelay
      simpa using hdelay
    split at h
    case h_1 hstate =>
      split at h
      · cases h
        exact ⟨⟨hzero, .inr (.inr hstate)⟩, by simp⟩
      · cases h
    case h_2 hstate => exact ⟨⟨hzero, .inl hstate⟩, by simp [hstate]⟩
    case h_3 hstate => exact ⟨⟨hzero, .inr (.inl hstate)⟩, by simp [hstate]⟩
    case h_4 => cases h

theorem findNextRunnable_some {start : Nat} {rep : SchedulerRep}
    (h : findNextRunnable p trap s start = some (guest, rep)) :
    guest < p.guestCount ∧ Schedulable (s.runtime guest) ∧
      (rep = .ns → (s.runtime guest).state ≠ .blocked) := by
  obtain ⟨attempts, hmem, hfound⟩ := List.exists_of_findSome?_eq_some h
  obtain ⟨found, hcandidate, heq⟩ := Option.map_eq_some_iff.mp hfound
  cases heq
  have hpos : 0 < p.guestCount := by
    have := List.mem_range.mp hmem
    omega
  exact ⟨Nat.mod_lt _ hpos, candidateRep_some hcandidate⟩

theorem dispatchGuest_moves (hfound : Schedulable (s.runtime guest)) :
    Moves p s (dispatchGuest p guest s).2 ∧ ((dispatchGuest p guest s).1 = false →
        (dispatchGuest p guest s).2.runtime = Function.update s.runtime guest
            { s.runtime guest with state := .faulted }) := by
  unfold dispatchGuest
  split
  case isFalse => exact ⟨.single (.enters guest hfound), by simp⟩
  case isTrue =>
    dsimp only
    have hclears : Move p s { s with
        firstDispatchPending := s.firstDispatchPending &&& ~~~pendingBit guest } :=
      .adjusts (fun _ => rfl) (fun _ => rfl) rfl
    rcases launch_cases p guest { s with
        firstDispatchPending := s.firstDispatchPending &&& ~~~pendingBit guest } with
      ⟨hverified, heq⟩ | heq
    · rw [heq]
      refine ⟨.head hclears (.tail (.single (.verifies guest hverified)) ?_), by simp⟩
      exact .enters guest hfound
    · rw [heq]
      exact ⟨.head hclears (.single (.faults guest)), fun _ => rfl⟩

theorem dispatchHsmTasklet_moves (guest : Nat) (s : Monitor) :
    Moves p s (dispatchHsmTasklet guest s).2 := by
  unfold dispatchHsmTasklet
  split
  · exact .refl
  case isFalse hstate =>
    exact .head (.serves guest (by simpa using hstate))
      (.single (.adjusts (fun _ => rfl) (fun _ => rfl) rfl))

theorem scheduleNextGuest_moves (rounds : Nat) (s : Monitor) :
    Moves p s (scheduleNextGuest p trap rounds s).2 := by
  induction rounds generalizing s with
  | zero => exact .refl
  | succ rounds ih =>
    unfold scheduleNextGuest
    split
    · exact .refl
    split
    · exact .refl
    case h_2 guest hfound =>
      obtain ⟨-, hschedulable, -⟩ := findNextRunnable_some hfound
      obtain ⟨hmoves, -⟩ := dispatchGuest_moves (p := p) hschedulable
      dsimp only
      split
      · exact hmoves
      · exact hmoves.trans (ih _)
    case h_3 guest hfound =>
      split
      · exact .single (.adjusts (fun _ => rfl) (fun _ => rfl) rfl)
      · exact dispatchHsmTasklet_moves guest s

def standing (p : Platform) (s : Monitor) : Finset Nat :=
  {guest ∈ Finset.range p.guestCount | (s.runtime guest).state ≠ .faulted}

theorem standing_refused (hguest : guest < p.guestCount) (hfound : Schedulable (s.runtime guest))
    (hrefused : (dispatchGuest p guest s).1 = false) :
    (standing p (dispatchGuest p guest s).2).card < (standing p s).card := by
  have hleft : standing p (dispatchGuest p guest s).2 = (standing p s).erase guest := by
    ext other
    unfold standing
    rw [(dispatchGuest_moves hfound).2 hrefused]
    by_cases hsame : other = guest <;> simp [hsame]
  have hmem : guest ∈ standing p s := by
    unfold standing
    rcases hfound.2 with hstate | hstate | hstate <;> simp [hguest, hstate]
  rw [hleft]
  exact Finset.card_erase_lt_of_mem hmem

/-- A refused guest is faulted, so the rounds are as many as guests can be
refused. -/
theorem scheduleNextGuest_finishes {rounds : Nat} {s : Monitor} (h : (standing p s).card < rounds) :
    (scheduleNextGuest p trap rounds s).1 ≠ .unfinished := by
  induction rounds generalizing s with
  | zero => exact absurd h (Nat.not_lt_zero _)
  | succ rounds ih =>
    unfold scheduleNextGuest dispatchHsmTasklet
    split
    · simp
    split
    · split <;> simp
    case h_2 guest hfound =>
      obtain ⟨hguest, hschedulable, -⟩ := findNextRunnable_some hfound
      dsimp only
      split
      · simp
      · rename_i hrefused
        have hfewer := standing_refused hguest hschedulable (Bool.eq_false_iff.mpr hrefused)
        exact ih (Nat.lt_of_lt_of_le hfewer (Nat.lt_succ_iff.mp h))
    case h_3 guest hfound =>
      split
      · simp
      · split <;> simp

theorem schedule_finishes (s : Monitor) : (schedule p trap s).1 ≠ .unfinished := by
  have hstanding : (standing p s).card ≤ (Finset.range p.guestCount).card :=
    Finset.card_filter_le _ _
  rw [Finset.card_range] at hstanding
  exact scheduleNextGuest_finishes (Nat.lt_succ_of_le hstanding)

theorem schedule_moves (s : Monitor) : Moves p s (schedule p trap s).2 :=
  scheduleNextGuest_moves _ s

theorem saveRunningGuest_moves (s : Monitor) : Moves p s (saveRunningGuest p s) := by
  unfold saveRunningGuest
  dsimp only
  split
  · exact .refl
  split
  case isTrue hstate => exact .single (.saves s.currentGuest hstate)
  case isFalse => exact .refl

theorem onSecureTimer_moves (s : Monitor) : Moves p s (onSecureTimer p trap s).2 := by
  unfold onSecureTimer
  have hticks : Move p s { s with monotonicTicks := s.monotonicTicks + 1 } :=
    .adjusts (fun _ => rfl) (fun _ => rfl) rfl
  refine .head hticks ?_
  dsimp only
  split
  · exact tickRestartBackoff_moves p _
  split
  · exact .refl
  split
  · exact tickRestartBackoff_moves p _
  · exact ((saveRunningGuest_moves _).trans (tickRestartBackoff_moves p _)).trans (schedule_moves _)

theorem quarantineGuest_moves (guest : Nat) (s : Monitor) :
    Moves p s (quarantineGuest p guest s) := by
  unfold quarantineGuest
  split
  · exact .refl
  · exact .single (.faults guest)

theorem runtimeVerifyGuest_moves (guest : Nat) (s : Monitor) :
    Moves p s (runtimeVerifyGuest p guest s) := by
  unfold runtimeVerifyGuest
  split
  · exact .refl
  split
  · exact .refl
  · exact quarantineGuest_moves guest s

theorem resumePendingTaskletGuest_moves (s : Monitor) :
    Moves p s (resumePendingTaskletGuest s).2 := by
  unfold resumePendingTaskletGuest
  split
  · exact .refl
  case h_2 guest _ =>
    have htaken : Move p s { s with pendingTaskletGuest := none } :=
      .adjusts (fun _ => rfl) (fun _ => rfl) rfl
    exact .head htaken (dispatchHsmTasklet_moves guest _)

theorem monitorStart_moves (s : Monitor) : Moves p s (monitorStart p trap s).2 := by
  unfold monitorStart
  split
  · exact .refl
  case h_2 guest rep hfound =>
    obtain ⟨-, hschedulable, -⟩ := findNextRunnable_some hfound
    obtain ⟨hmoves, -⟩ := dispatchGuest_moves (p := p) hschedulable
    dsimp only
    split
    · exact hmoves
    · exact hmoves.trans (schedule_moves _)

theorem restartGuest_cases (config : LaunchConfig) (guest : Nat)
    (reason : FaultReason) (s : Monitor) :
    let cleared := { s with memory := restartMemory config s.memory }
    (∃ runtime : GuestRuntime, runtime.state = .restarting ∧ restartGuest config guest reason s =
        (cleared.setRuntime guest runtime).record (.restarting guest)) ∨
    (∃ runtime : GuestRuntime, runtime.state = .faulted ∧
      restartGuest config guest reason s = cleared.setRuntime guest runtime) := by
  intro cleared
  unfold restartGuest
  dsimp only
  split
  · exact .inl ⟨_, rfl, rfl⟩
  · exact .inr ⟨_, rfl, rfl⟩

theorem step_cases (p : Platform) (s : Monitor) (a : Step) : (∃ memory, a = .boot memory) ∨
    (∃ trap reason config, a = .fault trap reason ∧ p.configs[s.currentGuest]? = some config ∧
      Moves p (restartGuest config s.currentGuest reason s) (step p s a)) ∨
    Moves p s (step p s a) := by
  cases a with
  | boot memory => exact .inl ⟨memory, rfl⟩
  | fault trap reason =>
    unfold step onGuestFault
    cases hconfig : p.configs[s.currentGuest]? with
    | none => exact .inr (.inr .refl)
    | some config => exact .inr (.inl ⟨trap, reason, config, rfl, rfl, schedule_moves _⟩)
  | start => exact .inr (.inr (monitorStart_moves s))
  | tick => exact .inr (.inr (onSecureTimer_moves s))
  | idle => exact .inr (.inr (schedule_moves s))
  | resume => exact .inr (.inr (resumePendingTaskletGuest_moves s))
  | verify guest => exact .inr (.inr (runtimeVerifyGuest_moves guest s))
  | quarantine guest => exact .inr (.inr (quarantineGuest_moves guest s))
  | write => exact .inr (.inr (.single (.adjusts (fun _ => rfl) (fun _ => rfl) rfl)))

theorem initGuest_spec (p : Platform) (s : Monitor) (guest : Nat) :
    (initGuest p s guest).memory = s.memory ∧
    (∀ other, other ≠ guest → (initGuest p s guest).runtime other = s.runtime other) ∧
    (guest < p.guestCount → ((initGuest p s guest).runtime guest).state = .faulted ∨
        verifyGuestLaunch p s.memory guest = .ok ()) := by
  unfold initGuest
  split
  case h_1 hconfig =>
    refine ⟨rfl, fun _ _ => rfl, fun hguest => ?_⟩
    rw [List.getElem?_eq_none_iff] at hconfig
    exact absurd hguest (Nat.not_lt.mpr hconfig)
  case h_2 config hconfig =>
    generalize partitionResetRuntime config _ = runtime
    dsimp only
    rcases launch_cases p guest (s.setRuntime guest runtime) with
      ⟨hverified, heq⟩ | heq
    · rw [heq, if_pos rfl]
      exact ⟨rfl, fun other hne => setRuntime_other s hne _, fun _ => .inr hverified⟩
    · rw [heq, if_neg (by simp)]
      refine ⟨rfl, fun other hne => ?_, fun _ => .inl (setState_state _ _ _)⟩
      rw [setState_other _ hne, setRuntime_other s hne]

end WolfTrust.MonitorMoves
