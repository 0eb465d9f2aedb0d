import WolfTrust.CyclicScan
import WolfTrust.MonitorMoves
import WolfTrust.MonitorQuarantine
import WolfTrust.StepRuns

namespace WolfTrust.MonitorFairness

open CyclicScan GuestMonitor MonitorMoves
open WolfTrust.MonitorQuarantine (sampleConfig samplePlatform sampleTrap)
open StepRuns

/-- A call of `wt_find_next_runnable`. -/
structure Decision where
  before : Monitor
  dispatched : Option Nat

/-- The decisions of `wt_schedule_next_guest`. A guest that is refused is not
dispatched, and the scheduler decides again. -/
def scheduleDecisions (p : Platform) (trap : Trap) : Nat → Monitor → List Decision
  | 0, _ => []
  | rounds + 1, s =>
    if p.guestCount = 0 then []
    else
      match findNextRunnable p trap s ((s.currentGuest + 1) % p.guestCount) with
      | some (guest, .ns) =>
        let dispatched := dispatchGuest p guest s
        if dispatched.1 then [⟨s, some guest⟩]
        else ⟨s, none⟩ :: scheduleDecisions p trap rounds dispatched.2
      | _ => [⟨s, none⟩]

/-- The monitor with which a step comes to the scheduler. -/
def scheduled (p : Platform) (s : Monitor) : Step → Option (Trap × Monitor)
  | .tick trap =>
    if (p.engineHsm ∧ (trap.tasklet ≠ none ∨ trap.serviceActive)) ∨ ¬trap.fromGuestThread then none
    else
      some (trap, tickRestartBackoff p (saveRunningGuest p
        { s with monotonicTicks := s.monotonicTicks + 1 }))
  | .fault trap reason =>
    (p.configs[s.currentGuest]?).map fun config =>
      (trap, restartGuest config s.currentGuest reason s)
  | .idle trap => some (trap, s)
  | _ => none

def stepDecisions (p : Platform) (s : Monitor) : Step → List Decision
  | .start trap =>
    match findNextRunnable p trap s 0 with
    | none => [⟨s, none⟩]
    | some (guest, _) =>
      let dispatched := dispatchGuest p guest s
      if dispatched.1 then [⟨s, some guest⟩]
      else
        ⟨s, none⟩ :: scheduleDecisions p trap (p.guestCount + 1) dispatched.2
  | a =>
    match scheduled p s a with
    | some (trap, s) => scheduleDecisions p trap (p.guestCount + 1) s
    | none => []

def decisions (p : Platform) : Monitor → List Step → List Decision
  | _, [] => []
  | s, a :: rest => stepDecisions p s a ++ decisions p (step p s a) rest

def entries (s : Monitor) : List Nat :=
  s.actions.filterMap fun
    | .entered guest _ => some guest
    | _ => none

def Stays (s s' : Monitor) : Prop :=
  s'.currentGuest = s.currentGuest ∧ entries s' = entries s

section Steps

variable {p : Platform} {s s' s'' : Monitor}

theorem Stays.trans (h : Stays s s') (h' : Stays s' s'') : Stays s s'' :=
  ⟨h'.1.trans h.1, h'.2.trans h.2⟩

theorem launch_stays (p : Platform) (guest : Nat) (s : Monitor) : Stays s (launch p guest s).2 := by
  rcases launch_cases p guest s with ⟨-, heq⟩ | heq
  · rw [heq]
    exact ⟨rfl, rfl⟩
  · rw [heq]
    exact ⟨rfl, rfl⟩

theorem tickGuest_stays (p : Platform) (s : Monitor) (guest : Nat) :
    Stays s (tickGuest p s guest) := by
  unfold tickGuest
  generalize (s.runtime guest).countDown = runtime
  dsimp only
  have hlaunch := launch_stays p guest (s.setRuntime guest runtime)
  split
  · split
    · exact hlaunch
    · exact hlaunch
  · exact ⟨rfl, rfl⟩

theorem tickRestartBackoff_stays (p : Platform) (s : Monitor) :
    Stays s (tickRestartBackoff p s) := by
  unfold tickRestartBackoff
  generalize List.range p.guestCount = guests
  induction guests generalizing s with
  | nil => exact ⟨rfl, rfl⟩
  | cons guest rest ih => exact (tickGuest_stays p s guest).trans (ih _)

theorem saveRunningGuest_stays (s : Monitor) : Stays s (saveRunningGuest p s) := by
  unfold saveRunningGuest
  dsimp only
  split_ifs <;> exact ⟨rfl, rfl⟩

theorem restartGuest_stays (config : LaunchConfig) (guest : Nat) (reason : FaultReason)
    (s : Monitor) : Stays s (restartGuest config guest reason s) := by
  rcases restartGuest_cases config guest reason s with
    ⟨runtime, -, heq⟩ | ⟨runtime, -, heq⟩
  · rw [heq]
    exact ⟨rfl, rfl⟩
  · rw [heq]
    exact ⟨rfl, rfl⟩

theorem quarantineGuest_stays (guest : Nat) (s : Monitor) :
    Stays s (quarantineGuest p guest s) := by
  unfold quarantineGuest
  split_ifs <;> exact ⟨rfl, rfl⟩

theorem dispatchGuest_cases (p : Platform) (guest : Nat) (s : Monitor) :
    ((dispatchGuest p guest s).1 = true ∧ (dispatchGuest p guest s).2.currentGuest = guest ∧
      entries (dispatchGuest p guest s).2 = guest :: entries s) ∨
    ((dispatchGuest p guest s).1 = false ∧ Stays s (dispatchGuest p guest s).2) := by
  unfold dispatchGuest
  split
  · dsimp only
    have hlaunch := launch_stays p guest { s with
      firstDispatchPending := s.firstDispatchPending &&& ~~~pendingBit guest }
    split
    · exact .inl ⟨rfl, rfl, congrArg (guest :: ·) hlaunch.2⟩
    · exact .inr ⟨rfl, hlaunch⟩
  · exact .inl ⟨rfl, rfl, rfl⟩

end Steps

/-- What the decisions between two monitors say: the cursor follows the guests
dispatched, and these are the guests that were entered. -/
structure Traces (p : Platform) (s : Monitor) (ds : List Decision) (s' : Monitor) :
    Prop where
  tracks : Tracks (fun d : Decision => d.before.currentGuest) Decision.dispatched
    s.currentGuest ds s'.currentGuest
  entered : entries s' = (ds.filterMap Decision.dispatched).reverse ++ entries s
  guests : ∀ d ∈ ds, ∀ guest, d.dispatched = some guest → guest < p.guestCount

/-- The guest dispatched was found behind the current one. -/
def Scans (p : Platform) (d : Decision) : Prop :=
  ∀ guest, d.dispatched = some guest → ∃ trap rep, findNextRunnable p trap d.before
      ((d.before.currentGuest + 1) % p.guestCount) = some (guest, rep)

section Traces

variable {p : Platform} {trap : Trap} {s s' s'' : Monitor} {ds ds' : List Decision}

theorem Stays.traces (h : Stays s s') : Traces p s [] s' :=
  ⟨h.1, h.2, nofun⟩

theorem Traces.append (h : Traces p s ds s') (h' : Traces p s' ds' s'') :
    Traces p s (ds ++ ds') s'' := by
  refine ⟨tracks_append.mpr ⟨_, h.tracks, h'.tracks⟩, ?_, fun d hd => ?_⟩
  · rw [h'.entered, h.entered]
    simp
  · rcases List.mem_append.mp hd with hd | hd
    · exact h.guests d hd
    · exact h'.guests d hd

theorem traces_refused (h : Stays s s') : Traces p s [⟨s, none⟩] s' := by
  refine ⟨⟨rfl, h.1⟩, h.2, fun d hd guest hguest => ?_⟩
  obtain rfl := List.mem_singleton.mp hd
  cases hguest

theorem traces_entered {guest : Nat} (hguest : guest < p.guestCount)
    (hcurrent : s'.currentGuest = guest) (hentries : entries s' = guest :: entries s) :
    Traces p s [⟨s, some guest⟩] s' := by
  refine ⟨⟨rfl, hcurrent⟩, hentries, fun d hd other hother => ?_⟩
  obtain rfl := List.mem_singleton.mp hd
  exact Option.some.inj hother ▸ hguest

theorem candidateRep_ns (hengine : p.engineHsm = false) {guest : Nat} {rep : SchedulerRep}
    (h : candidateRep p trap s guest = some rep) : rep = .ns := by
  unfold candidateRep at h
  rw [hengine] at h
  dsimp only at h
  split at h
  · cases h
  · split at h
    · cases h
    · exact (Option.some.inj h).symm
    · exact (Option.some.inj h).symm
    · cases h

theorem findNextRunnable_ns (hengine : p.engineHsm = false) {start guest : Nat}
    {rep : SchedulerRep} (h : findNextRunnable p trap s start = some (guest, rep)) : rep = .ns := by
  obtain ⟨attempts, -, hfound⟩ := List.exists_of_findSome?_eq_some h
  obtain ⟨found, hcandidate, heq⟩ := Option.map_eq_some_iff.mp hfound
  cases heq
  exact candidateRep_ns hengine hcandidate

theorem scheduleNextGuest_traces (hengine : p.engineHsm = false) (rounds : Nat) (s : Monitor) :
    Traces p s (scheduleDecisions p trap rounds s) (scheduleNextGuest p trap rounds s).2 ∧
      ∀ d ∈ scheduleDecisions p trap rounds s, Scans p d := by
  induction rounds generalizing s with
  | zero => exact ⟨Stays.traces ⟨rfl, rfl⟩, List.forall_mem_nil _⟩
  | succ rounds ih =>
    unfold scheduleDecisions scheduleNextGuest
    by_cases hnone : p.guestCount = 0
    · rw [if_pos hnone, if_pos hnone]
      exact ⟨Stays.traces ⟨rfl, rfl⟩, List.forall_mem_nil _⟩
    rw [if_neg hnone, if_neg hnone]
    cases hfound : findNextRunnable p trap s ((s.currentGuest + 1) % p.guestCount) with
    | none =>
      refine ⟨traces_refused ⟨rfl, rfl⟩, fun d hd guest hguest => ?_⟩
      obtain rfl := List.mem_singleton.mp hd
      cases hguest
    | some found =>
      obtain ⟨guest, rep⟩ := found
      obtain rfl := findNextRunnable_ns hengine hfound
      obtain ⟨hguest, -⟩ := findNextRunnable_some hfound
      dsimp only
      rcases dispatchGuest_cases p guest s with
        ⟨htaken, hcurrent, hentries⟩ | ⟨hrefused, hstays⟩
      · rw [if_pos htaken, if_pos htaken]
        refine ⟨traces_entered hguest hcurrent hentries, fun d hd other hother => ?_⟩
        obtain rfl := List.mem_singleton.mp hd
        obtain rfl := Option.some.inj hother
        exact ⟨trap, .ns, hfound⟩
      · rw [hrefused, if_neg Bool.false_ne_true, if_neg Bool.false_ne_true]
        obtain ⟨htraces, hscans⟩ := ih (dispatchGuest p guest s).2
        refine ⟨(traces_refused hstays).append htraces, fun d hd => ?_⟩
        rcases List.mem_cons.mp hd with rfl | hd
        · intro _ hother
          cases hother
        · exact hscans d hd

end Traces

/-- The steps of a monitor that was started, in a build without the engine. -/
def Runs : Step → Prop
  | .boot _ => False
  | .start _ => False
  | .resume => False
  | _ => True

section Runs

variable {p : Platform} {s : Monitor}

theorem step_scheduled (hengine : p.engineHsm = false) (s : Monitor) {a : Step} (ha : Runs a) :
    (scheduled p s a = none ∧ Stays s (step p s a)) ∨
    ∃ trap s', scheduled p s a = some (trap, s') ∧ Stays s s' ∧
      step p s a = (schedule p trap s').2 := by
  cases a with
  | boot | start | resume => exact ha.elim
  | tick trap =>
    have hticks : Stays s { s with monotonicTicks := s.monotonicTicks + 1 } := ⟨rfl, rfl⟩
    by_cases hguest : trap.fromGuestThread
    · refine .inr ⟨trap, _, if_neg (by simp [hengine, hguest]), ?_, ?_⟩
      · exact (hticks.trans (saveRunningGuest_stays _)).trans (tickRestartBackoff_stays p _)
      · simp [step, onSecureTimer, hengine, hguest]
    · have hbackoff := hticks.trans (tickRestartBackoff_stays p _)
      refine .inl ⟨if_pos (.inr hguest), ?_⟩
      simpa [step, onSecureTimer, hengine, hguest] using hbackoff
  | fault trap reason =>
    unfold scheduled step onGuestFault
    cases p.configs[s.currentGuest]? with
    | none => exact .inl ⟨rfl, rfl, rfl⟩
    | some config => exact .inr ⟨trap, _, rfl, restartGuest_stays config _ reason s, rfl⟩
  | idle trap => exact .inr ⟨trap, s, rfl, ⟨rfl, rfl⟩, rfl⟩
  | verify guest =>
    refine .inl ⟨rfl, ?_⟩
    unfold step runtimeVerifyGuest
    dsimp only
    split
    · exact ⟨rfl, rfl⟩
    · split
      · exact ⟨rfl, rfl⟩
      · exact quarantineGuest_stays guest s
  | quarantine guest => exact .inl ⟨rfl, quarantineGuest_stays guest s⟩
  | write => exact .inl ⟨rfl, rfl, rfl⟩

theorem stepDecisions_eq (s : Monitor) {a : Step} (ha : Runs a) : stepDecisions p s a =
      match scheduled p s a with
      | some (trap, s) => scheduleDecisions p trap (p.guestCount + 1) s
      | none => [] := by
  cases a with
  | start => exact ha.elim
  | _ => rfl

theorem step_traces (hengine : p.engineHsm = false) (s : Monitor) {a : Step} (ha : Runs a) :
    Traces p s (stepDecisions p s a) (step p s a) ∧ ∀ d ∈ stepDecisions p s a, Scans p d := by
  rw [stepDecisions_eq s ha]
  rcases step_scheduled hengine s ha with
    ⟨hnone, hstays⟩ | ⟨trap, s', hsome, hstays, hstep⟩
  · rw [hnone]
    exact ⟨hstays.traces, nofun⟩
  · rw [hsome, hstep]
    obtain ⟨htraces, hscans⟩ := @scheduleNextGuest_traces p trap hengine (p.guestCount + 1) s'
    exact ⟨hstays.traces.append htraces, hscans⟩

theorem decisions_traces (hengine : p.engineHsm = false) (s : Monitor)
    {events : List Step} (hevents : ∀ a ∈ events, Runs a) :
    Traces p s (decisions p s events) (run (step p) s events) ∧
      ∀ d ∈ decisions p s events, Scans p d := by
  induction events generalizing s with
  | nil => exact ⟨Stays.traces ⟨rfl, rfl⟩, nofun⟩
  | cons a rest ih =>
    obtain ⟨htraces, hscans⟩ := step_traces hengine s (hevents a (by simp))
    obtain ⟨hrest, hlater⟩ := ih (step p s a) fun b hb => hevents b (List.mem_cons_of_mem a hb)
    refine ⟨htraces.append hrest, fun d hd => ?_⟩
    rcases List.mem_append.mp hd with hd | hd
    · exact hscans d hd
    · exact hlater d hd

theorem start_traces (hengine : p.engineHsm = false) (trap : Trap) (s : Monitor) :
    ∃ d ds, stepDecisions p s (.start trap) = d :: ds ∧
      Traces p s (d :: ds) (step p s (.start trap)) ∧ ∀ d ∈ ds, Scans p d := by
  unfold stepDecisions step monitorStart
  dsimp only
  cases hfound : findNextRunnable p trap s 0 with
  | none => exact ⟨_, _, rfl, traces_refused ⟨rfl, rfl⟩, nofun⟩
  | some found =>
    obtain ⟨guest, rep⟩ := found
    obtain ⟨hguest, -⟩ := findNextRunnable_some hfound
    dsimp only
    rcases dispatchGuest_cases p guest s with
      ⟨htaken, hcurrent, hentries⟩ | ⟨hrefused, hstays⟩
    · rw [if_pos htaken, if_pos htaken]
      exact ⟨_, _, rfl, traces_entered hguest hcurrent hentries, nofun⟩
    · rw [hrefused, if_neg nofun, if_neg nofun]
      obtain ⟨htraces, hscans⟩ := @scheduleNextGuest_traces p trap hengine
        (p.guestCount + 1) (dispatchGuest p guest s).2
      exact ⟨_, _, rfl, (traces_refused hstays).append htraces, hscans⟩

end Runs

/-- A guest that can be dispatched. That its launch verification succeeds is not
asked for: a guest that is refused is not eligible at the next decision. -/
def Eligible (s : Monitor) (guest : Nat) : Prop :=
  (s.runtime guest).remainingDelayTicks = 0 ∧
    ((s.runtime guest).state = .ready ∨ (s.runtime guest).state = .running)

instance (s : Monitor) (guest : Nat) : Decidable (Eligible s guest) :=
  inferInstanceAs (Decidable (_ ∧ _))

theorem candidateRep_eligible {s : Monitor} {guest : Nat} (h : Eligible s guest)
    (p : Platform) (trap : Trap) : (candidateRep p trap s guest).isSome := by
  obtain ⟨hdelay, hstate⟩ := h
  unfold candidateRep
  dsimp only
  rw [hdelay, if_neg (by decide)]
  rcases hstate with hstate | hstate <;> rw [hstate] <;> rfl

/-- In every run from a boot, the decisions dispatch the guests that are entered.
Between two dispatches of a guest, any other guest that was eligible at every
decision after the first of them was dispatched. -/
theorem round_robin (p : Platform) (hengine : p.engineHsm = false) (memory : Memory)
    (earlier : List Action) (trap : Trap) (events : List Step) (hevents : ∀ a ∈ events, Runs a) :
    let s := monitorInit p memory earlier
    let steps := .start trap :: events
    entries (run (step p) s steps) =
        ((decisions p s steps).filterMap Decision.dispatched).reverse ++ entries s ∧
      ∀ first between last guest other,
        first :: (between ++ [last]) <:+: decisions p s steps →
        first.dispatched = some guest → last.dispatched = some guest →
        other < p.guestCount → other ≠ guest →
        (∀ d ∈ between ++ [last], Eligible d.before other) →
        ∃ d ∈ between, d.dispatched = some other := by
  intro s steps
  obtain ⟨d, ds, hfirst, hstart, hscans⟩ := start_traces hengine trap s
  obtain ⟨hrest, hlater⟩ := decisions_traces hengine (step p s (.start trap)) hevents
  have hdecisions : decisions p s steps =
      d :: (ds ++ decisions p (step p s (.start trap)) events) := by
    rw [← List.cons_append, ← hfirst]
    rfl
  have htraces := hstart.append hrest
  rw [List.cons_append, ← hdecisions] at htraces
  refine ⟨htraces.entered, ?_⟩
  rintro first between last guest other ⟨pre, post, hsplit⟩ hdispatched hagain hother hne heligible
  -- only the very first decision does not look behind the current guest
  have hbehind : ∀ turn ∈ between ++ [last], Scans p turn := by
    intro turn hturn
    have hmem : turn ∈ ds ++ decisions p (step p s (.start trap)) events := by
      rw [hdecisions] at hsplit
      cases pre with
      | nil =>
        rw [← (List.cons.inj hsplit).2]
        exact List.mem_append_left post hturn
      | cons x pre =>
        rw [← (List.cons.inj hsplit).2]
        exact List.mem_append_left post
          (List.mem_append_right pre (List.mem_cons_of_mem first hturn))
    rcases List.mem_append.mp hmem with hmem | hmem
    · exact hscans turn hmem
    · exact hlater turn hmem
  have hguest : guest < p.guestCount := by
    refine htraces.guests first ?_ guest hdispatched
    rw [← hsplit]
    simp
  have htracks := htraces.tracks
  rw [← hsplit] at htracks
  obtain ⟨_, hwindow, -⟩ := tracks_append.mp htracks
  obtain ⟨_, -, -, hbetween⟩ := tracks_append.mp hwindow
  rw [hdispatched, Option.getD_some] at hbetween
  refine taken_between hbetween hguest hother hne.symm le_rfl ?_ hagain
  intro turn hturn hcursor found hfound
  obtain ⟨trap', rep, hscan⟩ := hbehind turn hturn found hfound
  exact scan_ahead hcursor hscan hother (candidateRep_eligible (heligible turn hturn) p trap')

/-- Two guests that need no measurement. -/
def pairPlatform : Platform :=
  { samplePlatform with
    configs := [{ sampleConfig with launchRequired := 0 },
      { sampleConfig with guestId := 1, launchRequired := 0 }]
    initial := by simp [sampleConfig]
    measurements := [] }

def pairSteps : List Step := [.tick (sampleTrap true), .tick (sampleTrap true)]

def pairTrace : List Decision :=
  decisions pairPlatform (monitorInit pairPlatform (fun _ => 7) [])
    (.start (sampleTrap true) :: pairSteps)

/-- The first guest runs, then the second, then the first again. -/
theorem round_robin_sample : pairTrace.map Decision.dispatched = [some 0, some 1, some 0] ∧
      (∀ d ∈ pairTrace, Eligible d.before 1) ∧
      ∃ d ∈ pairTrace.tail.dropLast, d.dispatched = some 1 := by
  have hdispatched : pairTrace.map Decision.dispatched = [some 0, some 1, some 0] := by
    decide +kernel
  have heligible : ∀ d ∈ pairTrace, Eligible d.before 1 := by decide +kernel
  refine ⟨hdispatched, heligible, ?_⟩
  obtain ⟨first, second, third, htrace⟩ :
      ∃ first second third, pairTrace = [first, second, third] := ⟨_, _, _, rfl⟩
  rw [htrace] at hdispatched heligible ⊢
  obtain ⟨hfirst, hrest⟩ := List.cons.inj hdispatched
  have hthird := (List.cons.inj (List.cons.inj hrest).2).1
  have hwindow : first :: ([second] ++ [third]) <:+: pairTrace := htrace ▸ List.infix_rfl
  exact (round_robin pairPlatform rfl (fun _ => 7) [] (sampleTrap true) pairSteps
    (by simp [pairSteps, Runs])).2 first [second] third 0 1 hwindow hfirst hthird
    (by decide) (by decide) fun d hd => heligible d (List.mem_cons_of_mem first hd)

/-- No guest starves. In every run of a monitor, and in every stretch of its
decisions that dispatches guests as often as there are guests, a guest that is
eligible at each decision of the stretch is dispatched. -/
theorem no_guest_starves (p : Platform) (hengine : p.engineHsm = false) (s : Monitor)
    (hcurrent : s.currentGuest < p.guestCount) (events : List Step)
    (hevents : ∀ a ∈ events, Runs a) (guest : Nat) (hguest : guest < p.guestCount)
    (stretch : List Decision) (hstretch : stretch <:+: decisions p s events)
    (heligible : ∀ d ∈ stretch, Eligible d.before guest)
    (hlong : p.guestCount ≤ (stretch.filterMap Decision.dispatched).length) :
    ∃ d ∈ stretch, d.dispatched = some guest := by
  obtain ⟨htraces, hscans⟩ := decisions_traces hengine s hevents
  obtain ⟨pre, post, hsplit⟩ := hstretch
  have htracks := htraces.tracks
  rw [← hsplit] at htracks
  obtain ⟨_, hwindow, -⟩ := tracks_append.mp htracks
  obtain ⟨cursor, hpre, hwithin⟩ := tracks_append.mp hwindow
  have hcursor : cursor < p.guestCount := by
    refine tracks_lt hpre hcurrent fun d hd => htraces.guests d ?_
    rw [← hsplit]
    exact List.mem_append_left post (List.mem_append_left stretch hd)
  by_contra hnone
  have hpassed : ∀ d ∈ stretch, d.dispatched ≠ some guest :=
    fun d hd hdispatched => hnone ⟨d, hd, hdispatched⟩
  have hbound := length_taken_le hwithin hcursor hguest ?_ hpassed
  · have hahead := ahead_lt hcursor hguest
    omega
  · intro d hd hbehind found hfound
    have hmem : d ∈ decisions p s events := by
      rw [← hsplit]
      exact List.mem_append_left post (List.mem_append_right pre hd)
    obtain ⟨trap, rep, hscan⟩ := hscans d hmem found hfound
    exact scan_ahead hbehind hscan hguest (candidateRep_eligible (heligible d hd) p trap)

def pairStarted : Monitor :=
  step pairPlatform (monitorInit pairPlatform (fun _ => 7) []) (.start (sampleTrap true))

theorem no_guest_starves_sample :
    (∀ d ∈ decisions pairPlatform pairStarted pairSteps, Eligible d.before 1) ∧
      ∃ d ∈ decisions pairPlatform pairStarted pairSteps, d.dispatched = some 1 := by
  have heligible : ∀ d ∈ decisions pairPlatform pairStarted pairSteps,
      Eligible d.before 1 := by decide +kernel
  exact ⟨heligible, no_guest_starves pairPlatform rfl pairStarted
    (by decide +kernel) pairSteps (by simp [pairSteps, Runs]) 1 (by decide) _
    List.infix_rfl heligible (by decide +kernel)⟩

end WolfTrust.MonitorFairness
