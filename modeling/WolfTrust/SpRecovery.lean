import WolfTrust.RestartBudget
import WolfTrust.SpmSched
import WolfTrust.DomainIsolation
import WolfTrust.MonitorQuarantine

namespace WolfTrust.SpRecovery

open Validation Domain Manifest DomainIsolation BurstBudget RestartBudget
open WolfTrust.GuestMonitor (Platform LaunchConfig Memory Action Step monitorInit
  Counters restartPolicyEvaluate)
open StepRuns
open WolfTrust.SpmSched (domainIdOf)

inductive SpRecoveryDecision
  | restart
  | escalate
  deriving DecidableEq, Repr

def SpRecoveryDecision.granted : SpRecoveryDecision → Bool
  | .restart => true
  | .escalate => false

/-- A domain that never restarts, or whose faults are those of the platform,
spends no budget. -/
def spRecoveryDecide (action : RestartAction)
    (restartLimit restartWindowTicks monotonicTicks : UInt32)
    (counters : Counters) : SpRecoveryDecision × Counters :=
  if action ≠ .domain then (.escalate, counters)
  else
    match restartPolicyEvaluate restartLimit restartWindowTicks monotonicTicks counters with
    | (.restart, counters) => (.restart, counters)
    | (.fault, counters) => (.escalate, counters)

/-- The steps that the port adds, on what it knows of the system. -/
structure SpRecoveryOps (σ : Type*) where
  releaseLocks : σ → σ
  failMessages : σ → σ
  scrubDomain : σ → σ
  /-- Whether the partition could be started again. -/
  restart : σ → Bool × σ
  escalate : RestartAction → σ → σ

/-- Locks and clients are seen to before the decision, whichever it is. -/
def spRecoveryRun {σ : Type*} (ops : SpRecoveryOps σ) (action : RestartAction)
    (restartLimit restartWindowTicks monotonicTicks : UInt32)
    (counters : Counters) (port : σ) : SpRecoveryDecision × Counters × σ :=
  let port := ops.failMessages (ops.releaseLocks port)
  match spRecoveryDecide action restartLimit restartWindowTicks monotonicTicks counters with
  | (.restart, counters) =>
    let restarted := ops.restart (ops.scrubDomain port)
    if restarted.1 then (.restart, counters, restarted.2)
    else (.escalate, counters, ops.escalate action restarted.2)
  | (.escalate, counters) => (.escalate, counters, ops.escalate action port)

/-- What `wt_spm_sp_t` keeps for the recovery of a partition. -/
structure SpmSlot where
  co : Nat
  partitionId : Int
  inUse : Bool
  faultPending : Bool
  counters : Counters
  deriving DecidableEq, Repr

/-- The scheduled partitions, the monitor's tick, what the port knows, and
whether the platform failed closed; with the decisions made so far, each with
the slot it was about, which no code reads. -/
structure Spm (σ : Type*) where
  slots : List SpmSlot
  monotonicTicks : UInt32
  port : σ
  failedClosed : Bool
  decisions : List (Nat × Verdict UInt32)

section Code

variable {σ : Type*} (manifest : SystemManifest) (ops : SpmSlot → SpRecoveryOps σ)

def spmDomainFor (partitionId : Int) : Option DomainDescriptor :=
  manifest.domains.find? fun domain => domain.id == domainIdOf partitionId

/-- One slot of `wt_spm_recover_faulted`. -/
def recoverSlot (s : Spm σ) (i : Nat) : Spm σ :=
  match s.slots[i]? with
  | none => s
  | some slot =>
    if s.failedClosed ∨ ¬slot.inUse ∨ ¬slot.faultPending then s
    else
      let slot := { slot with faultPending := false }
      match spmDomainFor manifest slot.partitionId with
      | none => { s with slots := s.slots.set i slot }
      | some domain =>
        let policy := domain.restartPolicy
        let limit := UInt32.ofNat policy.restartLimit
        let window := UInt32.ofNat policy.restartWindowTicks
        let run := spRecoveryRun (ops slot) policy.action limit window
          s.monotonicTicks slot.counters s.port
        { s with
          slots := s.slots.set i { slot with counters := run.2.1 }
          port := run.2.2
          failedClosed := run.1 = .escalate
          decisions := s.decisions ++ [(i, ⟨s.monotonicTicks,
            (spRecoveryDecide policy.action limit window s.monotonicTicks
              slot.counters).1.granted⟩)] }

def spmRecoverFaulted (s : Spm σ) : Spm σ :=
  (List.range s.slots.length).foldl (recoverSlot manifest ops) s

/-- `wt_spm_sp_fault`: the fault waits for the thread. -/
def spmSpFault (co : Nat) (s : Spm σ) : Spm σ :=
  match s.slots.findIdx? fun slot => slot.inUse && slot.co == co with
  | none => s
  | some i =>
    { s with slots := s.slots.modify i fun slot =>
        { slot with faultPending := true } }

/-- What happens to the partitions: one is scheduled at the boot, the timer
ticks, one faults, the thread recovers, and the port goes its own ways. -/
inductive SpmStep (σ : Type*)
  | add (co : Nat) (partitionId : Int)
  | tick
  | fault (co : Nat)
  | recover
  | port (change : σ → σ)

def spmStep (s : Spm σ) : SpmStep σ → Spm σ
  | .add co partitionId =>
    { s with slots := s.slots ++
        [{ co, partitionId, inUse := true, faultPending := false
           counters := { restartCount := 0, firstRestartTick := 0 } }] }
  | .tick => { s with monotonicTicks := s.monotonicTicks + 1 }
  | .fault co => spmSpFault co s
  | .recover => spmRecoverFaulted manifest ops s
  | .port change => { s with port := change s.port }

def bootedSpm (port : σ) : Spm σ :=
  { slots := [], monotonicTicks := 0, port, failedClosed := false
    decisions := [] }

end Code

def slotHistory {σ : Type*} (s : Spm σ) (i : Nat) : List (Verdict UInt32) :=
  (s.decisions.filter fun decision => decision.1 == i).map Prod.snd

section Decisions

variable {σ : Type*} {action : RestartAction} {limit window ticks : UInt32}
  {counters : Counters}

theorem spRecoveryDecide_domain :
    let decided := spRecoveryDecide .domain limit window ticks counters
    let policy := restartPolicyEvaluate limit window ticks counters
    decided.1.granted = policy.1.granted ∧ decided.2 = policy.2 := by
  unfold spRecoveryDecide
  rw [if_neg (not_not.mpr rfl)]
  rcases restartPolicyEvaluate limit window ticks counters with ⟨_ | _, _⟩
  · exact ⟨rfl, rfl⟩
  · exact ⟨rfl, rfl⟩

theorem spRecoveryRun_counters (ops : SpRecoveryOps σ) (port : σ) :
    (spRecoveryRun ops action limit window ticks counters port).2.1 =
      (spRecoveryDecide action limit window ticks counters).2 := by
  unfold spRecoveryRun
  rcases spRecoveryDecide action limit window ticks counters with ⟨_ | _, _⟩
  · dsimp only
    split
    · rfl
    · rfl
  · rfl

theorem action_of_limited {manifest : SystemManifest} {features : Word}
    {platform : ProfileCapabilities} {domain : DomainDescriptor}
    (hvalid : manifestValidate manifest features platform = .ok ())
    (hdomain : domain ∈ manifest.domains) (hlimited : 0 < domain.restartPolicy.restartLimit) :
    domain.restartPolicy.action = .domain := by
  obtain ⟨before, after, hsplit⟩ := List.append_of_mem hdomain
  have hcheck := (checkWithPrior_eq_ok_iff _ _ _).mp
    (manifestValidate_domains hvalid).1 before domain after hsplit
  have hrestart : domainValidateRestart domain = .ok () := by
    simp only [domainCheck, then_eq_ok_iff] at hcheck
    exact hcheck.1
  by_contra haction
  unfold domainValidateRestart at hrestart
  dsimp only at hrestart
  rw [if_neg haction, require_eq_ok_iff] at hrestart
  simp only [Bool.and_eq_true, beq_iff_eq] at hrestart
  omega

end Decisions

section Runs

variable {σ : Type*} {manifest : SystemManifest} {ops : SpmSlot → SpRecoveryOps σ} {s : Spm σ}
  {platform : ProfileCapabilities} {features : Word} {history : List (Verdict UInt32)}
  {domain : DomainDescriptor}

structure Limits (domain : DomainDescriptor) (limit window : UInt32) : Prop where
  limit_pos : 0 < limit
  window_pos : 0 < window
  limit_eq : domain.restartPolicy.restartLimit = limit.toNat
  window_eq : domain.restartPolicy.restartWindowTicks = window.toNat

/-- The counters of the slot count the decisions about it. -/
def SlotKept (manifest : SystemManifest) (history : List (Verdict UInt32))
    (slot : SpmSlot) : Prop :=
  ∀ domain limit window, spmDomainFor manifest slot.partitionId = some domain →
    Limits domain limit window →
    Kept limit.toNat (Within window) history (budgetOf slot.counters)

structure SlotsKept (manifest : SystemManifest) (s : Spm σ) : Prop where
  kept : ∀ i slot, s.slots[i]? = some slot → SlotKept manifest (slotHistory s i) slot
  fresh : ∀ i, s.slots.length ≤ i → slotHistory s i = []

theorem slotsKept_booted (port : σ) : SlotsKept manifest (bootedSpm port) where
  kept := fun i slot hslot => by cases hslot
  fresh := fun _ _ => rfl

theorem SlotKept.congr {slot slot' : SpmSlot}
    (h : SlotKept manifest history slot) (hpartition : slot'.partitionId = slot.partitionId)
    (hcounters : slot'.counters = slot.counters) : SlotKept manifest history slot' := by
  unfold SlotKept
  rw [hpartition, hcounters]
  exact h

theorem SlotKept.recover {slot : SpmSlot} {recovery : SpRecoveryOps σ} {port : σ} {ticks : UInt32}
    (hvalid : manifestValidate manifest features platform = .ok ())
    (hdomain : spmDomainFor manifest slot.partitionId = some domain)
    (h : SlotKept manifest history slot) :
    let policy := domain.restartPolicy
    let limit := UInt32.ofNat policy.restartLimit
    let window := UInt32.ofNat policy.restartWindowTicks
    SlotKept manifest (history ++ [⟨ticks, (spRecoveryDecide policy.action limit
        window ticks slot.counters).1.granted⟩])
      { slot with
        faultPending := false
        counters := (spRecoveryRun recovery policy.action limit window ticks
          slot.counters port).2.1 } := by
  intro policy limit window domain' limit' window' hdomain' hlimits
  obtain rfl := Option.some.inj (hdomain.symm.trans hdomain')
  obtain rfl : limit = limit' := by
    show UInt32.ofNat domain.restartPolicy.restartLimit = limit'
    rw [hlimits.limit_eq, UInt32.ofNat_toNat]
  obtain rfl : window = window' := by
    show UInt32.ofNat domain.restartPolicy.restartWindowTicks = window'
    rw [hlimits.window_eq, UInt32.ofNat_toNat]
  have haction : policy.action = .domain := by
    refine action_of_limited hvalid (List.mem_of_find?_eq_some hdomain) ?_
    rw [hlimits.limit_eq]
    exact UInt32.lt_iff_toNat_lt.mp hlimits.limit_pos
  obtain ⟨hgranted, hcounters⟩ :=
    @spRecoveryDecide_domain limit window ticks slot.counters
  dsimp only
  rw [spRecoveryRun_counters, haction, hgranted, hcounters]
  exact restartPolicyEvaluate_kept hlimits.limit_pos hlimits.window_pos
    (h domain limit window hdomain hlimits)

theorem slotHistory_decided {slots : List SpmSlot} {port : σ} {closed : Bool}
    {i j : Nat} {verdict : Verdict UInt32} :
    slotHistory { s with slots, port, failedClosed := closed
                         decisions := s.decisions ++ [(i, verdict)] } j =
      slotHistory s j ++ if i = j then [verdict] else [] := by
  unfold slotHistory
  rw [List.filter_append, List.map_append]
  congr 1
  by_cases h : i = j
  · simp [h]
  · simp [h]

theorem slotsKept_recoverSlot (hvalid : manifestValidate manifest features platform = .ok ())
    (h : SlotsKept manifest s) (i : Nat) : SlotsKept manifest (recoverSlot manifest ops s i) := by
  unfold recoverSlot
  split
  · exact h
  · rename_i slot hslot
    have hlt : i < s.slots.length := (List.getElem?_eq_some_iff.mp hslot).1
    have hkept := h.kept i slot hslot
    split
    · exact h
    · dsimp only
      split
      · refine ⟨fun j other hother => ?_, fun j hj => h.fresh j ?_⟩
        · show SlotKept manifest (slotHistory s j) other
          by_cases hij : i = j
          · subst hij
            rw [List.getElem?_set_self hlt] at hother
            obtain rfl := Option.some.inj hother
            exact hkept.congr rfl rfl
          · rw [List.getElem?_set_ne hij] at hother
            exact h.kept j other hother
        · rwa [List.length_set] at hj
      · rename_i domain hdomain
        refine ⟨fun j other hother => ?_, fun j hj => ?_⟩
        · rw [slotHistory_decided]
          by_cases hij : i = j
          · subst hij
            rw [List.getElem?_set_self hlt] at hother
            obtain rfl := Option.some.inj hother
            rw [if_pos rfl]
            exact hkept.recover hvalid hdomain
          · rw [List.getElem?_set_ne hij] at hother
            rw [if_neg hij, List.append_nil]
            exact h.kept j other hother
        · rw [List.length_set] at hj
          have hij : i ≠ j := by omega
          rw [slotHistory_decided, if_neg hij, List.append_nil]
          exact h.fresh j hj

theorem slotsKept_step (hvalid : manifestValidate manifest features platform = .ok ())
    (h : SlotsKept manifest s) (a : SpmStep σ) : SlotsKept manifest (spmStep manifest ops s a) := by
  cases a with
  | add co partitionId =>
    refine ⟨fun i slot hslot => ?_, fun i hi => h.fresh i ?_⟩
    · rcases Nat.lt_or_ge i s.slots.length with hlt | hge
      · rw [show (spmStep manifest ops s (.add co partitionId)).slots[i]? =
          s.slots[i]? from List.getElem?_append_left hlt] at hslot
        exact h.kept i slot hslot
      · -- the new slot: nothing was decided about it
        have hnone : slotHistory s i = [] := h.fresh i hge
        show SlotKept manifest (slotHistory s i) slot
        rw [hnone]
        have hnew : slot.counters = { restartCount := 0, firstRestartTick := 0 } := by
          have hmem := List.getElem?_append_right hge ▸ hslot
          rcases hindex : i - s.slots.length with _ | k
          · rw [hindex] at hmem
            obtain rfl := Option.some.inj hmem
            rfl
          · rw [hindex] at hmem
            cases hmem
        intro domain limit window _ _
        rw [hnew]
        exact .nil 0
    · refine Nat.le_trans ?_ hi
      show s.slots.length ≤ (s.slots ++ _).length
      rw [List.length_append]
      exact Nat.le_add_right _ _
  | tick | port => exact ⟨h.kept, h.fresh⟩
  | fault co =>
    show SlotsKept manifest (spmSpFault co s)
    unfold spmSpFault
    split
    · exact h
    · rename_i i hfound
      refine ⟨fun j slot hslot => ?_, fun j hj => h.fresh j ?_⟩
      · show SlotKept manifest (slotHistory s j) slot
        rw [List.getElem?_modify] at hslot
        obtain ⟨old, hold, rfl⟩ := Option.map_eq_some_iff.mp hslot
        refine (h.kept j old hold).congr ?_ ?_ <;> split <;> rfl
      · rwa [List.length_modify] at hj
  | recover =>
    show SlotsKept manifest (spmRecoverFaulted manifest ops s)
    unfold spmRecoverFaulted
    generalize List.range s.slots.length = slots
    induction slots generalizing s with
    | nil => exact h
    | cons i rest ih => exact ih (slotsKept_recoverSlot hvalid h i)

/-- Along every run of the partitions the decisions about a slot are bounded. -/
theorem slotHistory_bounded (hvalid : manifestValidate manifest features platform = .ok ())
    (port : σ) (steps : List (SpmStep σ)) {i : Nat} {slot : SpmSlot} {limit window : UInt32}
    (hslot : (run (spmStep manifest ops) (bootedSpm port) steps).slots[i]? = some slot)
    (hdomain : spmDomainFor manifest slot.partitionId = some domain)
    (hlimits : Limits domain limit window) :
    Bounded limit.toNat (Within window)
      (slotHistory (run (spmStep manifest ops) (bootedSpm port) steps) i) := by
  have hend := @run_invariant _ _ (spmStep manifest ops) (SlotsKept manifest)
    (fun s a h => slotsKept_step hvalid h a) _ (slotsKept_booted port) steps
  exact (hend.kept i slot hslot domain limit window hdomain hlimits).bounded

end Runs

/-- The restart budget, of a guest and of a Secure Partition. Along every run,
among the restarts granted to a domain, one more than its limit, two that follow
each other are a window or more apart; and where a restart is refused, as many as
the limit were granted before it, each less than a window after the one before,
and the last less than a window before the refusal. Ticks wrap. -/
theorem restart_budget_bounds {limit window : UInt32} (hlimit : 0 < limit) (hwindow : 0 < window) :
    (∀ (p : Platform) (guest : Nat) (config : LaunchConfig) (memory : Memory)
        (earlier : List Action) (steps : List Step),
      p.configs[guest]? = some config → config.restartLimit = limit.toNat →
      config.restartWindowTicks = window.toNat →
      Bounded limit.toNat (Within window)
        (guestHistory p guest (monitorInit p memory earlier) steps)) ∧
    ∀ (σ : Type) (manifest : SystemManifest) (features : Word)
        (platform : ProfileCapabilities) (ops : SpmSlot → SpRecoveryOps σ)
        (port : σ) (steps : List (SpmStep σ)) (i : Nat) (slot : SpmSlot)
        (domain : DomainDescriptor),
      manifestValidate manifest features platform = .ok () →
      (run (spmStep manifest ops) (bootedSpm port) steps).slots[i]? = some slot →
      spmDomainFor manifest slot.partitionId = some domain →
      domain.restartPolicy.restartLimit = limit.toNat →
      domain.restartPolicy.restartWindowTicks = window.toNat →
      Bounded limit.toNat (Within window)
        (slotHistory (run (spmStep manifest ops) (bootedSpm port) steps) i) := by
  refine ⟨?_, ?_⟩
  · intro p guest config memory earlier steps hconfig hlimit' hwindow'
    exact guestHistory_bounded hlimit hwindow hconfig hlimit' hwindow' memory earlier steps
  · intro σ manifest features platform ops port steps i slot domain hvalid hslot
      hdomain hlimit' hwindow'
    exact slotHistory_bounded hvalid port steps hslot hdomain ⟨hlimit, hwindow, hlimit', hwindow'⟩

section Sample

open WolfTrust.MonitorQuarantine (sampleTrap)
open WolfTrust.DomainIsolation (sampleManifest)

def restartingCapabilities : ProfileCapabilities :=
  { DomainIsolation.samplePlatform with capabilities := capabilityMask }

/-- A partition that may restart twice, and once more after ten ticks. -/
def restartingManifest : SystemManifest :=
  { sampleManifest with
    domains := sampleManifest.domains.map fun domain =>
      if domain.id = 2 then
        { domain with
          restartPolicy :=
            { action := .domain, restartLimit := 2, restartWindowTicks := 10
              initialDelayTicks := 0 } }
      else domain }

def restartingOps : SpRecoveryOps Unit :=
  { releaseLocks := id, failMessages := id, scrubDomain := id
    restart := fun port => (true, port), escalate := fun _ => id }

/-- Three faults close to each other; the third is refused. -/
def faultyRun : Spm Unit :=
  run (spmStep restartingManifest fun _ => restartingOps) (bootedSpm ())
    [.add 1 2, .tick, .fault 1, .recover, .tick, .tick, .fault 1, .recover, .tick,
      .fault 1, .recover]

def twiceConfig : LaunchConfig :=
  { MonitorQuarantine.sampleConfig with restartLimit := 2, restartWindowTicks := 10 }

def twicePlatform : Platform :=
  { MonitorQuarantine.samplePlatform with
    configs := [twiceConfig]
    initial := by simp [twiceConfig, MonitorQuarantine.sampleConfig] }

def faultyGuest : List (Verdict UInt32) :=
  guestHistory twicePlatform 0 (monitorInit twicePlatform (fun _ => 7) [])
    [.start (sampleTrap true), .fault (sampleTrap true) .memoryViolation,
      .tick (sampleTrap false), .fault (sampleTrap true) .memoryViolation,
      .tick (sampleTrap false), .fault (sampleTrap true) .memoryViolation]

theorem restart_budget_bounds_sample : (faultyGuest.map Verdict.granted = [true, true, false] ∧
      Bounded 2 (Within 10) faultyGuest) ∧
    ((slotHistory faultyRun 0).map Verdict.granted = [true, true, false] ∧
      Bounded 2 (Within 10) (slotHistory faultyRun 0)) := by
  obtain ⟨hguest, hslot⟩ :=
    @restart_budget_bounds 2 10 (by decide) (by decide)
  refine ⟨⟨by decide +kernel, ?_⟩, by decide +kernel, ?_⟩
  · exact hguest twicePlatform 0 twiceConfig _ _ _ rfl rfl rfl
  · have hshape : ∃ slot ∈ faultyRun.slots[0]?, ∃ domain ∈
        spmDomainFor restartingManifest slot.partitionId,
        domain.restartPolicy.restartLimit = 2 ∧ domain.restartPolicy.restartWindowTicks = 10 := by
      decide +kernel
    obtain ⟨slot, hslot₀, domain, hdomain, hlimit, hwindow⟩ := hshape
    exact hslot Unit restartingManifest manifestFeatureIpc
      restartingCapabilities _ () _ 0 slot domain (by decide +kernel)
      hslot₀ hdomain hlimit hwindow

end Sample

end WolfTrust.SpRecovery
