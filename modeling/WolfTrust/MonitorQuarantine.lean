import WolfTrust.MonitorMoves
import WolfTrust.StepRuns

namespace WolfTrust.MonitorQuarantine

open Relation
open GuestMonitor MonitorMoves StepRuns

def Dispatches (guest : Nat) : Action → Prop
  | .entered entered _ => entered = guest
  | .serving serving => serving = guest
  | _ => False

/-- A guest is faulted, and it has not been dispatched since an earlier state. -/
structure Quarantined (guest : Nat) (before s : Monitor) : Prop where
  faulted : (s.runtime guest).state = .faulted
  undispatched : ∃ new, s.actions = new ++ before.actions ∧ ∀ action ∈ new, ¬Dispatches guest action

variable {p : Platform} {guest : Nat} {before s s' : Monitor} {other : Nat}

theorem Quarantined.start (h : (s.runtime guest).state = .faulted) : Quarantined guest s s :=
  ⟨h, [], rfl, by simp⟩

theorem Quarantined.record (h : Quarantined guest before s) {action : Action}
    (hother : ¬Dispatches guest action) : Quarantined guest before (s.record action) := by
  obtain ⟨new, hnew, hnone⟩ := h.undispatched
  refine ⟨h.faulted, action :: new, by simp [Monitor.record, hnew], fun a ha => ?_⟩
  rcases List.mem_cons.mp ha with rfl | hmem
  · exact hother
  · exact hnone a hmem

theorem Quarantined.setRuntime (h : Quarantined guest before s)
    {runtime : GuestRuntime} (hother : other = guest → runtime.state = .faulted) :
    Quarantined guest before (s.setRuntime other runtime) := by
  refine ⟨?_, h.undispatched⟩
  by_cases heq : other = guest
  · subst heq
    rw [setRuntime_same]
    exact hother rfl
  · rw [setRuntime_other s (Ne.symm heq)]
    exact h.faulted

theorem Quarantined.ne (h : Quarantined guest before s)
    (hstate : (s.runtime other).state ≠ .faulted) : other ≠ guest := by
  rintro rfl
  exact hstate h.faulted

theorem Quarantined.move (h : Quarantined guest before s) (hmove : Move p s s') :
    Quarantined guest before s' := by
  cases hmove with
  | adjusts hstate hspent hactions =>
    exact ⟨(hstate guest).trans h.faulted, hactions ▸ h.undispatched⟩
  | faults => exact h.setRuntime fun _ => rfl
  | saves other hstate =>
    have hne := h.ne (by rw [hstate]; decide)
    exact h.setRuntime fun heq => absurd heq hne
  | verifies => exact h.record id
  | relaunches other _ hstate =>
    have hne := h.ne (by rw [hstate]; decide)
    have hrecorded : Quarantined guest before (s.record (.verified other s.memory)) := h.record id
    exact hrecorded.setRuntime fun heq => absurd heq hne
  | enters other hfound =>
    have hne := h.ne (by rcases hfound.2 with h | h | h <;> rw [h] <;> decide)
    have hrecorded : Quarantined guest before
        (s.record (.entered other (s.runtime other))) := h.record hne
    have hset : Quarantined guest before (Monitor.setState _ other .running) :=
      hrecorded.setRuntime fun heq => absurd heq hne
    exact ⟨hset.faulted, hset.undispatched⟩
  | serves other hstate => exact h.record (h.ne (by rw [hstate]; decide))

theorem Quarantined.moves (h : Quarantined guest before s) (hmoves : Moves p s s') :
    Quarantined guest before s' := by
  induction hmoves with
  | refl => exact h
  | tail _ hmove ih => exact ih.move hmove

theorem Quarantined.restart (h : Quarantined guest before s)
    (hne : other ≠ guest) (config : LaunchConfig) (reason : FaultReason) :
    Quarantined guest before (restartGuest config other reason s) := by
  have hcleared : Quarantined guest before
      { s with memory := restartMemory config s.memory } :=
    ⟨h.faulted, h.undispatched⟩
  obtain ⟨runtime, -, heq⟩ | ⟨runtime, -, heq⟩ :=
    restartGuest_cases config other reason s
  · have hset : Quarantined guest before (Monitor.setRuntime _ other runtime) :=
      hcleared.setRuntime fun heq => absurd heq hne
    rw [heq]
    exact hset.record id
  · rw [heq]
    exact hcleared.setRuntime fun heq => absurd heq hne

/-- A guest fault is handled only while the current guest is not faulted. -/
def Handled (s : Monitor) : Step → Prop
  | .fault _ _ => (s.runtime s.currentGuest).state ≠ .faulted
  | _ => True

theorem Quarantined.step (h : Quarantined guest before s) {a : Step}
    (hboot : ∀ memory, a ≠ .boot memory) (hhandled : Handled s a) :
    Quarantined guest before (step p s a) := by
  obtain ⟨memory, hmemory⟩ | ⟨trap, reason, config, rfl, -, hmoves⟩ | hmoves :=
    step_cases p s a
  · exact absurd hmemory (hboot memory)
  · exact (h.restart (h.ne hhandled) config reason).moves hmoves
  · exact h.moves hmoves

/-- From any state in which a guest is faulted, in every run without a reset
whose guest faults are handled while the current guest is not faulted, the guest
stays faulted and is not dispatched. -/
theorem quarantine_terminal (p : Platform) (s : Monitor) (guest : Nat)
    (steps : List Step) (hfaulted : (s.runtime guest).state = .faulted)
    (hhandled : Along (step p) (fun s a => (∀ memory, a ≠ .boot memory) ∧ Handled s a) s steps) :
    ((run (step p) s steps).runtime guest).state = .faulted ∧
      ∃ new, (run (step p) s steps).actions = new ++ s.actions ∧
        ∀ action ∈ new, ¬Dispatches guest action := by
  have h : Quarantined guest s (run (step p) s steps) :=
    run_induction (fun _ _ h ha => h.step ha.1 ha.2) (.start hfaulted) hhandled
  exact ⟨h.faulted, h.undispatched⟩

/-- One guest that must be measured, with an image of one byte. -/
def sampleConfig : LaunchConfig :=
  { guestId := 0
    vectorTable := 0x1000
    initialMspNs := 0
    irqMask := []
    memoryWindows := [{ base := 0x1000, size := 16, attributes := 5, shareId := 0 }]
    memoryRegions := []
    restartLimit := 3
    restartWindowTicks := 64
    initialDelayTicks := 1
    initialState := .ready
    launchRequired := 1
    port :=
      { requiredCapabilities := 0, providedCapabilities := 0, vectorReadAddress := 0 }
    launchMinVersion := 1 }

def samplePlatform : Platform :=
  { configs := [sampleConfig]
    initial := by simp [sampleConfig]
    measurements := [{ guestId := 0, version := 1, imageSize := 1, digest := .replicate 32 7 }]
    sha256 := fun bytes => some (.replicate 32 (bytes.headD 0))
    wrp := none
    engineHsm := false }

def sampleTrap (fromGuestThread : Bool) : Trap :=
  { tasklet := none, serviceActive := false, fromGuestThread, handlerMode := false
    runnable := fun _ => false }

/-- The guest runs, its image changes and a re-measurement quarantines it. -/
def sampleQuarantined : Monitor :=
  run (step samplePlatform) (monitorInit samplePlatform (fun _ => 7) [])
    [.start (sampleTrap true), .write fun _ => 8, .verify 0]

/-- A second guest, with the same image, beside it. -/
def pairPlatform : Platform :=
  { samplePlatform with
    configs := [sampleConfig, { sampleConfig with guestId := 1 }]
    initial := by simp [sampleConfig]
    measurements := samplePlatform.measurements ++
      [{ guestId := 1, version := 1, imageSize := 1, digest := .replicate 32 7 }] }

/-- Guest 0 is quarantined while guest 1 runs, which then faults. -/
theorem quarantine_terminal_sample :
    let s := run (step pairPlatform) (monitorInit pairPlatform (fun _ => 7) [])
      [.start (sampleTrap true), .tick (sampleTrap true), .quarantine 0]
    let steps : List Step :=
      [.fault (sampleTrap true) .memoryViolation, .tick (sampleTrap true), .verify 0]
    (s.runtime 0).state = .faulted ∧ s.currentGuest = 1 ∧
      ((run (step pairPlatform) s steps).runtime 0).state = .faulted := by
  intro s steps
  have hfaulted : (s.runtime 0).state = .faulted := by decide +kernel
  have hhandled : (s.runtime s.currentGuest).state ≠ .faulted := by decide +kernel
  refine ⟨hfaulted, by decide +kernel, ?_⟩
  refine (quarantine_terminal pairPlatform s 0 steps hfaulted ?_).1
  exact ⟨⟨by simp, hhandled⟩, ⟨by simp, trivial⟩, ⟨by simp, trivial⟩, trivial⟩

/-- The quarantined guest, still the current one, faults: it is to be restarted,
and with its image restored it runs again. -/
theorem faulting_guest_leaves_quarantine : (sampleQuarantined.runtime 0).state = .faulted ∧
      ((run (step samplePlatform) sampleQuarantined
        [.fault (sampleTrap true) .memoryViolation]).runtime 0).state = .restarting ∧
      ((run (step samplePlatform) sampleQuarantined
        [.fault (sampleTrap true) .memoryViolation, .write fun _ => 7,
          .tick (sampleTrap false), .idle (sampleTrap false)]).runtime 0).state =
            .running := by
  refine ⟨by decide +kernel, by decide +kernel, by decide +kernel⟩

end WolfTrust.MonitorQuarantine
