import WolfTrust.MonitorQuarantine

namespace WolfTrust.MonitorLaunch

open Relation
open GuestMonitor MonitorMoves
open WolfTrust.MonitorQuarantine (sampleConfig samplePlatform sampleTrap)
open StepRuns

theorem foldl_or_eq_zero {bytes : List UInt8} {acc : UInt8} :
    bytes.foldl (· ||| ·) acc = 0 ↔ acc = 0 ∧ ∀ x ∈ bytes, x = 0 := by
  induction bytes generalizing acc with
  | nil => simp
  | cons x bytes ih => simp [ih, UInt8.or_eq_zero_iff, and_assoc]

theorem zipWith_xor_eq_zero {a b : List UInt8} (h : a.length = b.length) :
    (∀ x ∈ List.zipWith (· ^^^ ·) a b, x = 0) ↔ a = b := by
  induction a generalizing b with
  | nil => cases b <;> simp_all
  | cons x a ih =>
    cases b with
    | nil => simp at h
    | cons y b => simp [ih (b := b) (by simpa using h)]

theorem guestDigestEqual_iff (a b : Digest) : guestDigestEqual a b = true ↔ a = b := by
  rw [guestDigestEqual, beq_iff_eq, foldl_or_eq_zero, zipWith_xor_eq_zero (by simp)]
  simp [Vector.toList_inj]

/-- The image in a guest's executable window is the one its record pins. -/
def Authentic (p : Platform) (guest : Nat) (config : LaunchConfig) (memory : Memory) : Prop :=
  ∃ window record, execWindow config = some window ∧ p.record guest = some record ∧
    record.imageSize ≠ 0 ∧ record.imageSize.toNat ≤ window.size ∧
    config.launchMinVersion ≤ record.version ∧
    p.sha256 (imageBytes memory window.base record.imageSize.toNat) = some record.digest

variable {p : Platform} {guest : Nat} {config : LaunchConfig} {s s' : Monitor}
  {actions : List Action} {memory : Memory} {action : Action} {runtime : GuestRuntime}

theorem guestVerifyImage_ok {sha256 : WolfTrust.FwuService.Bytes → Option Digest}
    {base size : Nat} {record : GuestMeasurement} {minVersion : UInt32}
    (h : guestVerifyImage sha256 memory base size record minVersion = .ok ()) :
    record.imageSize ≠ 0 ∧ record.imageSize.toNat ≤ size ∧ minVersion ≤ record.version ∧
      sha256 (imageBytes memory base record.imageSize.toNat) = some record.digest := by
  unfold guestVerifyImage at h
  split at h
  · cases h
  split at h
  · cases h
  case isFalse hlayout =>
    split at h
    · cases h
    case isFalse hversion =>
      split at h
      · cases h
      case h_2 digest hdigest =>
        split at h
        case isTrue hequal =>
          rw [guestDigestEqual_iff] at hequal
          subst hequal
          push Not at hlayout
          exact ⟨hlayout.1, hlayout.2, UInt32.not_lt.mp hversion, hdigest⟩
        case isFalse => cases h

theorem verifyGuestLaunch_authentic (hconfig : p.configs[guest]? = some config)
    (hrequired : config.launchRequired ≠ 0) (h : verifyGuestLaunch p memory guest = .ok ()) :
    Authentic p guest config memory := by
  simp only [verifyGuestLaunch, hconfig, if_neg hrequired, measureGuest] at h
  split at h
  case h_1 window record hwindow hrecord =>
    split at h
    · cases h
    case h_2 hverified =>
      exact ⟨window, record, hwindow, hrecord, guestVerifyImage_ok hverified⟩
  case h_2 => cases h

/-- The guest was measured, and neither booted nor restarted since. -/
def Measured (p : Platform) (guest : Nat) (config : LaunchConfig) (actions : List Action) : Prop :=
  ∃ recent memory earlier, actions = recent ++ .verified guest memory :: earlier ∧
    (∀ action ∈ recent, action ≠ .booted ∧ action ≠ .restarting guest) ∧
    Authentic p guest config memory

theorem Measured.push (h : Measured p guest config actions) (hboot : action ≠ .booted)
    (hrestart : action ≠ .restarting guest) : Measured p guest config (action :: actions) := by
  obtain ⟨recent, memory, earlier, heq, hrecent, hauthentic⟩ := h
  refine ⟨action :: recent, memory, earlier, by simp [heq], fun a ha => ?_, hauthentic⟩
  rcases List.mem_cons.mp ha with rfl | hmem
  · exact ⟨hboot, hrestart⟩
  · exact hrecent a hmem

theorem Measured.now (h : Authentic p guest config memory) :
    Measured p guest config (.verified guest memory :: actions) :=
  ⟨[], memory, actions, rfl, by simp, h⟩

/-- Every entry so far was of a guest without a delay that was ready or running,
and that had been measured if it has to be. -/
def Gated (p : Platform) (actions : List Action) : Prop :=
  ∀ newer older guest found, actions = newer ++ .entered guest found :: older →
    found.remainingDelayTicks = 0 ∧
    (found.state = .ready ∨ found.state = .running) ∧
    ∀ config, p.configs[guest]? = some config → config.launchRequired ≠ 0 →
      Measured p guest config older

theorem Gated.push (h : Gated p actions)
    (hother : ∀ guest found, action ≠ .entered guest found) : Gated p (action :: actions) := by
  intro newer older guest found heq
  cases newer with
  | nil =>
    rw [List.nil_append, List.cons.injEq] at heq
    exact absurd heq.1 (hother guest found)
  | cons first newer =>
    rw [List.cons_append, List.cons.injEq] at heq
    exact h newer older guest found heq.2

theorem Gated.enter {found : GuestRuntime}
    (h : Gated p actions) (hdelay : found.remainingDelayTicks = 0)
    (hstate : found.state = .ready ∨ found.state = .running)
    (hmeasured : ∀ config, p.configs[guest]? = some config →
      config.launchRequired ≠ 0 → Measured p guest config actions) :
    Gated p (.entered guest found :: actions) := by
  intro newer older guest' found' heq
  cases newer with
  | nil =>
    rw [List.nil_append, List.cons.injEq, Action.entered.injEq] at heq
    obtain ⟨⟨rfl, rfl⟩, rfl⟩ := heq
    exact ⟨hdelay, hstate, hmeasured⟩
  | cons first newer =>
    rw [List.cons_append, List.cons.injEq] at heq
    exact h newer older guest' found' heq.2

/-- The invariant: a guest that may run has been measured, none waits for a
server tasklet, and all entries so far were gated. -/
structure Launched (p : Platform) (s : Monitor) : Prop where
  measured : ∀ guest config, p.configs[guest]? = some config → config.launchRequired ≠ 0 →
    (s.runtime guest).state = .ready ∨ (s.runtime guest).state = .running →
    Measured p guest config s.actions
  unblocked : ∀ guest, (s.runtime guest).state ≠ .blocked
  gated : Gated p s.actions

theorem Launched.setRuntime (h : Launched p s)
    (hblocked : runtime.state ≠ .blocked)
    (hmeasured : ∀ config, p.configs[guest]? = some config → config.launchRequired ≠ 0 →
      runtime.state = .ready ∨ runtime.state = .running →
      Measured p guest config s.actions) :
    Launched p (s.setRuntime guest runtime) where
  measured other config hconfig hrequired hstate := by
    by_cases heq : other = guest
    · subst heq
      rw [setRuntime_same] at hstate
      exact hmeasured config hconfig hrequired hstate
    · rw [setRuntime_other s heq] at hstate
      exact h.measured other config hconfig hrequired hstate
  unblocked other := by
    by_cases heq : other = guest
    · subst heq
      rwa [setRuntime_same]
    · rw [setRuntime_other s heq]
      exact h.unblocked other
  gated := h.gated

theorem Launched.record (h : Launched p s) (hboot : action ≠ .booted)
    (hrestart : ∀ guest, action ≠ .restarting guest)
    (hother : ∀ guest found, action ≠ .entered guest found) : Launched p (s.record action) where
  measured other config hconfig hrequired hstate :=
    (h.measured other config hconfig hrequired hstate).push hboot (hrestart other)
  unblocked := h.unblocked
  gated := h.gated.push hother

theorem Launched.fault (h : Launched p s) (guest : Nat) : Launched p (s.setState guest .faulted) :=
  h.setRuntime (by simp) (by simp)

theorem Launched.enter (h : Launched p s)
    (hfound : Schedulable (s.runtime guest)) : Launched p (s.enter guest) := by
  have hstate : (s.runtime guest).state = .ready ∨ (s.runtime guest).state = .running := by
    rcases hfound.2 with hready | hrunning | hblocked
    · exact .inl hready
    · exact .inr hrunning
    · exact absurd hblocked (h.unblocked guest)
  have hentered : Launched p (s.record (.entered guest (s.runtime guest))) :=
    { measured := fun other config hconfig hrequired hother =>
        (h.measured other config hconfig hrequired hother).push (by simp) (by simp)
      unblocked := h.unblocked
      gated := h.gated.enter hfound.1 hstate fun config hconfig hrequired =>
        h.measured guest config hconfig hrequired hstate }
  have hset : Launched p (Monitor.setState _ guest .running) :=
    hentered.setRuntime (by simp) fun config hconfig hrequired _ =>
      hentered.measured guest config hconfig hrequired hstate
  exact ⟨hset.measured, hset.unblocked, hset.gated⟩

theorem Launched.relaunch (h : Launched p s) (hconfig : p.configs[guest]? = some config)
    (hverified : verifyGuestLaunch p s.memory guest = .ok ())
    (hstate : runtime.state = config.initialState) :
    Launched p ((s.record (.verified guest s.memory)).setRuntime guest runtime) := by
  have hrecorded : Launched p (s.record (.verified guest s.memory)) :=
    h.record (by simp) (by simp) (by simp)
  refine hrecorded.setRuntime ?_ fun config' hconfig' hrequired _ => ?_
  · rw [hstate]
    rcases p.initial config (List.mem_of_getElem? hconfig) with hi | hi <;> simp [hi]
  · exact .now (verifyGuestLaunch_authentic hconfig' hrequired hverified)

theorem Launched.move (h : Launched p s) (hmove : Move p s s') : Launched p s' := by
  cases hmove with
  | adjusts hstate hspent hactions =>
    refine ⟨fun other config hconfig hrequired hother => ?_, fun other => ?_, ?_⟩
    · rw [hactions]
      rw [hstate] at hother
      exact h.measured other config hconfig hrequired hother
    · rw [hstate]
      exact h.unblocked other
    · rw [hactions]
      exact h.gated
  | faults guest => exact h.fault guest
  | saves guest hstate =>
    exact h.setRuntime (by simp) fun config hconfig hrequired _ =>
      h.measured guest config hconfig hrequired (.inr hstate)
  | verifies => exact h.record (by simp) (by simp) (by simp)
  | relaunches guest hconfig _ hverified => exact h.relaunch hconfig hverified rfl
  | enters guest hfound => exact h.enter hfound
  | serves guest hstate => exact absurd hstate (h.unblocked guest)

theorem Launched.moves (h : Launched p s) (hmoves : Moves p s s') : Launched p s' := by
  induction hmoves with
  | refl => exact h
  | tail _ hmove ih => exact ih.move hmove

/-- The measurement of a guest that is to be restarted does not count any more,
but the guest may not run either. -/
theorem Launched.restart (h : Launched p s) (config : LaunchConfig) (guest : Nat)
    (reason : FaultReason) : Launched p (restartGuest config guest reason s) := by
  have hcleared : Launched p { s with memory := restartMemory config s.memory } :=
    ⟨h.measured, h.unblocked, h.gated⟩
  obtain ⟨runtime, hstate, heq⟩ | ⟨runtime, hstate, heq⟩ :=
    restartGuest_cases config guest reason s
  · have hset : Launched p (Monitor.setRuntime _ guest runtime) :=
      hcleared.setRuntime (by simp [hstate]) (by simp [hstate])
    rw [heq]
    refine ⟨fun other config' hconfig hrequired hother => ?_, hset.unblocked,
      hset.gated.push (by simp)⟩
    have hne : other ≠ guest := by
      rintro rfl
      simp [Monitor.record, hstate] at hother
    refine (hset.measured other config' hconfig hrequired hother).push (by simp) ?_
    simpa using Ne.symm hne
  · rw [heq]
    exact hcleared.setRuntime (by simp [hstate]) (by simp [hstate])

theorem Launched.initGuest (h : Launched p s) (guest : Nat) : Launched p (initGuest p s guest) := by
  unfold GuestMonitor.initGuest
  split
  · exact h
  case h_2 config hconfig =>
    generalize hruntime : partitionResetRuntime config
      { s.runtime guest with restartCount := 0, firstRestartTick := 0 } = runtime
    dsimp only
    rcases launch_cases p guest (s.setRuntime guest runtime) with
      ⟨hverified, heq⟩ | heq
    · rw [heq, if_pos rfl]
      exact h.relaunch hconfig hverified (by rw [← hruntime]; rfl)
    · rw [heq, if_neg (by simp)]
      have hidem : (s.setRuntime guest runtime).setState guest .faulted =
          s.setRuntime guest { runtime with state := .faulted } := by
        simp [Monitor.setState, Monitor.setRuntime]
      rw [hidem]
      exact h.setRuntime (by simp) (by simp)

theorem monitorInit_launched (memory : Memory) {earlier : List Action}
    (h : Gated p earlier) : Launched p (monitorInit p memory earlier) := by
  have hfold : ∀ (guests : List Nat) (s : Monitor), Launched p s →
      Launched p (guests.foldl (GuestMonitor.initGuest p) s) := by
    intro guests
    induction guests with
    | nil => exact fun _ h => h
    | cons guest rest ih => exact fun s hs => ih _ (hs.initGuest guest)
  have hfresh : Launched p (freshMonitor memory earlier) :=
    ⟨by simp [freshMonitor, stoppedRuntime], by simp [freshMonitor, stoppedRuntime],
      h.push (by simp)⟩
  have hinit := hfold (List.range p.guestCount) _ hfresh
  exact ⟨hinit.measured, hinit.unblocked, hinit.gated⟩

theorem Launched.step (h : Launched p s) (a : Step) : Launched p (GuestMonitor.step p s a) := by
  obtain ⟨memory, rfl⟩ | ⟨_, reason, config, -, -, hmoves⟩ | hmoves :=
    step_cases p s a
  · exact monitorInit_launched memory h.gated
  · exact (h.restart config s.currentGuest reason).moves hmoves
  · exact h.moves hmoves

theorem launched_run (memory : Memory) (steps : List Step) :
    Launched p (run (GuestMonitor.step p) (monitorInit p memory []) steps) := by
  have hstart : Launched p (monitorInit p memory []) :=
    monitorInit_launched memory (by simp [Gated])
  exact run_induction (P := fun _ _ => True) (fun _ a h _ => h.step a) hstart
    (along_of_forall fun _ _ => trivial)

/-- In every run, resets included, every entry of a guest found it without a
delay and ready or running, and a guest that requires an authenticated launch had
been measured since the last boot and since it was last to be restarted. -/
theorem entries_gated (p : Platform) (memory : Memory) (steps : List Step)
    (newer older : List Action) (guest : Nat) (found : GuestRuntime)
    (hentered : (run (step p) (monitorInit p memory []) steps).actions =
      newer ++ .entered guest found :: older) :
    found.remainingDelayTicks = 0 ∧
    (found.state = .ready ∨ found.state = .running) ∧
    ∀ config, p.configs[guest]? = some config → config.launchRequired ≠ 0 →
      ∃ recent measured earlier, older = recent ++ .verified guest measured :: earlier ∧
        (∀ action ∈ recent, action ≠ .booted ∧ action ≠ .restarting guest) ∧
        Authentic p guest config measured :=
  (launched_run memory steps).gated newer older guest found hentered

/-- The first entry of a guest, right after its second measurement. -/
theorem entries_gated_sample : ∃ newer older found, (run (step samplePlatform)
        (monitorInit samplePlatform (fun _ => 7) [])
        [.start (sampleTrap true)]).actions = newer ++ .entered 0 found :: older ∧
      found.state = .ready ∧
      ∃ recent measured earlier, older = recent ++ .verified 0 measured :: earlier ∧
        Authentic samplePlatform 0 sampleConfig measured := by
  let s := run (step samplePlatform) (monitorInit samplePlatform (fun _ => 7) [])
    [.start (sampleTrap true)]
  have hactions : s.actions = [] ++ .entered 0
      (partitionResetRuntime sampleConfig stoppedRuntime) :: s.actions.tail := rfl
  obtain ⟨-, -, hmeasured⟩ := entries_gated samplePlatform (fun _ => 7)
    [.start (sampleTrap true)] [] s.actions.tail 0 _ hactions
  obtain ⟨recent, measured, earlier, heq, -, hauthentic⟩ :=
    hmeasured sampleConfig rfl (by decide)
  exact ⟨[], s.actions.tail, _, hactions, rfl, recent, measured, earlier, heq, hauthentic⟩

end WolfTrust.MonitorLaunch
