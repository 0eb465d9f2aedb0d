import WolfTrust.GuestBinding
import WolfTrust.FwuService
import Mathlib.Logic.Function.Basic

/-!
The guest monitor (`src/monitor.c`) with the launch measurement
(`src/guest_verify.c`) and the restart policy (`src/restart_policy.c`): the
guests' lifecycles, their scheduling and what every event does to them. The
execution contexts, the interrupt masks, the clients' connections and the
counters for the test harness are not modelled; no decision of the monitor
reads them. What the monitor does is recorded, newest first.
-/

namespace WolfTrust.GuestMonitor

open Domain SpmSched GuestBinding
open WolfTrust.FwuService (Bytes)

abbrev Memory := Nat → UInt8

abbrev Digest := Vector UInt8 32

structure GuestMeasurement where
  guestId : UInt32
  version : UInt32
  imageSize : UInt32
  digest : Digest
  deriving DecidableEq, Repr

inductive VerifyError
  | argument
  | layout
  | digest
  | version
  | hash
  | wrp
  deriving DecidableEq, Repr

/-- The comparison of all bytes of two digests. -/
def guestDigestEqual (a b : Digest) : Bool :=
  (List.zipWith (· ^^^ ·) a.toList b.toList).foldl (· ||| ·) 0 == 0

def imageBytes (memory : Memory) (base size : Nat) : Bytes :=
  (List.range size).map fun i => memory (base + i)

/-- `wc_Sha256Hash` is a parameter; it may fail. -/
def guestVerifyImage (sha256 : Bytes → Option Digest) (memory : Memory) (base size : Nat)
    (record : GuestMeasurement) (minVersion : UInt32) : Except VerifyError Unit :=
  if base = 0 ∨ size = 0 then .error .argument
  else if record.imageSize = 0 ∨ size < record.imageSize.toNat then
    .error .layout
  else if record.version < minVersion then .error .version
  else
    match sha256 (imageBytes memory base record.imageSize.toNat) with
    | none => .error .hash
    | some digest =>
      if guestDigestEqual digest record.digest then .ok () else .error .digest

structure LaunchConfig extends GuestConfig where
  launchMinVersion : UInt32
  deriving DecidableEq, Repr

/-- What a build and its board give the monitor: the bound guests, the patched
measurement slot, the hash, the check of the flash's write protection where the
build has one, and whether the build has the server tasklets. -/
structure Platform where
  configs : List LaunchConfig
  /-- A validated manifest declares no other initial lifecycle. -/
  initial : ∀ config ∈ configs, config.initialState = .stopped ∨ config.initialState = .ready
  measurements : List GuestMeasurement
  sha256 : Bytes → Option Digest
  wrp : Option (Nat → Nat → Bool)
  engineHsm : Bool

def Platform.guestCount (p : Platform) : Nat := p.configs.length

def execWindow (config : LaunchConfig) : Option MemoryResource :=
  config.memoryWindows.find? fun window => anySet window.attributes memAttrExec

def Platform.record (p : Platform) (guest : Nat) : Option GuestMeasurement :=
  p.measurements.find? fun record => record.guestId == UInt32.ofNat guest

def measureGuest (p : Platform) (memory : Memory) (guest : Nat)
    (config : LaunchConfig) : Except VerifyError Unit :=
  match execWindow config, p.record guest with
  | some window, some record =>
    match guestVerifyImage p.sha256 memory window.base window.size record
        config.launchMinVersion with
    | .error err => .error err
    | .ok () =>
      match p.wrp with
      | some covers =>
        if covers window.base window.size then .ok () else .error .wrp
      | none => .ok ()
  | _, _ => .error .argument

def verifyGuestLaunch (p : Platform) (memory : Memory) (guest : Nat) : Except VerifyError Unit :=
  match p.configs[guest]? with
  | none => .error .argument
  | some config =>
    if config.launchRequired = 0 then .ok ()
    else measureGuest p memory guest config

inductive FaultReason
  | none
  | memoryViolation
  | illegalInstruction
  | stackOverflow
  | secureEscalation
  | platform
  deriving DecidableEq, Repr

/-- `wt_guest_runtime_t` -/
structure GuestRuntime where
  state : DomainLifecycle
  remainingDelayTicks : UInt32
  restartCount : UInt32
  firstRestartTick : UInt32
  lastFault : FaultReason
  deriving DecidableEq, Repr

inductive SchedulerRep
  | ns
  | hsm
  deriving DecidableEq, Repr

/-- What the monitor did: it booted, a guest passed its launch verification on
the memory of that moment, a guest was to be restarted, and a guest was entered
as the scheduler found it, or its server tasklet was. -/
inductive Action
  | booted
  | verified (guest : Nat) (memory : Memory)
  | restarting (guest : Nat)
  | entered (guest : Nat) (found : GuestRuntime)
  | serving (guest : Nat)

/-- The scheduler's state, with the memory of the guests. -/
structure Monitor where
  runtime : Nat → GuestRuntime
  currentGuest : Nat
  currentRep : SchedulerRep
  monotonicTicks : UInt32
  firstDispatchPending : BitVec 32
  pendingTaskletGuest : Option Nat
  memory : Memory
  actions : List Action

def Monitor.record (s : Monitor) (action : Action) : Monitor :=
  { s with actions := action :: s.actions }

def Monitor.setRuntime (s : Monitor) (guest : Nat) (runtime : GuestRuntime) : Monitor :=
  { s with runtime := Function.update s.runtime guest runtime }

def Monitor.setState (s : Monitor) (guest : Nat) (state : DomainLifecycle) : Monitor :=
  s.setRuntime guest { s.runtime guest with state }

/-- Whether a guest may be launched now. -/
def launch (p : Platform) (guest : Nat) (s : Monitor) : Bool × Monitor :=
  match verifyGuestLaunch p s.memory guest with
  | .ok () => (true, s.record (.verified guest s.memory))
  | .error _ => (false, s)

/-- The runtime table keeps the restart budget over a reset. -/
def partitionResetRuntime (config : LaunchConfig) (runtime : GuestRuntime) : GuestRuntime :=
  { state := config.initialState
    remainingDelayTicks := 0
    restartCount := runtime.restartCount
    firstRestartTick := runtime.firstRestartTick
    lastFault := .none }

def GuestRuntime.countDown (runtime : GuestRuntime) : GuestRuntime :=
  if 0 < runtime.remainingDelayTicks then
    { runtime with remainingDelayTicks := runtime.remainingDelayTicks - 1 }
  else runtime

/-- One guest of `wt_tick_restart_backoff`; a relaunch is a launch. -/
def tickGuest (p : Platform) (s : Monitor) (guest : Nat) : Monitor :=
  let runtime := (s.runtime guest).countDown
  let s := s.setRuntime guest runtime
  if runtime.remainingDelayTicks = 0 ∧ runtime.state = .restarting then
    let launched := launch p guest s
    match launched.1, p.configs[guest]? with
    | true, some config =>
      launched.2.setRuntime guest (partitionResetRuntime config runtime)
    | _, _ => launched.2.setState guest .faulted
  else s

def tickRestartBackoff (p : Platform) (s : Monitor) : Monitor :=
  (List.range p.guestCount).foldl (tickGuest p) s

/-- What an event finds: the guest of the current tasklet if there is one, which
is no guest for the coroutine of a service partition; whether a secure service
is active; where the trap came from; and the server tasklets that can run. -/
structure Trap where
  tasklet : Option Nat
  serviceActive : Bool
  fromGuestThread : Bool
  handlerMode : Bool
  runnable : Nat → Bool

/-- Whether the scheduler may take a guest, and as what. -/
def candidateRep (p : Platform) (trap : Trap) (s : Monitor) (guest : Nat) : Option SchedulerRep :=
  let runtime := s.runtime guest
  if 0 < runtime.remainingDelayTicks then none
  else
    match runtime.state with
    | .blocked => if p.engineHsm && trap.runnable guest then some .hsm else none
    | .ready => some .ns
    | .running => some .ns
    | _ => none

def findNextRunnable (p : Platform) (trap : Trap) (s : Monitor) (start : Nat) :
    Option (Nat × SchedulerRep) :=
  (List.range p.guestCount).findSome? fun attempts =>
    let candidate := (start + attempts) % p.guestCount
    (candidateRep p trap s candidate).map fun rep => (candidate, rep)

def allGuestsTerminal (p : Platform) (s : Monitor) : Bool :=
  (List.range p.guestCount).all fun guest =>
    (s.runtime guest).state == .faulted || (s.runtime guest).state == .stopped

def pendingBit (guest : Nat) : BitVec 32 := BitVec.twoPow 32 guest

def Monitor.enter (s : Monitor) (guest : Nat) : Monitor :=
  { (s.record (.entered guest (s.runtime guest))).setState guest .running with
    currentGuest := guest, currentRep := .ns }

/-- `wt_dispatch_guest` up to where it leaves for the guest or, after a failed
measurement, for the scheduler. -/
def dispatchGuest (p : Platform) (guest : Nat) (s : Monitor) : Bool × Monitor :=
  if s.firstDispatchPending &&& pendingBit guest ≠ 0 then
    let launched := launch p guest
      { s with
        firstDispatchPending := s.firstDispatchPending &&& ~~~pendingBit guest }
    if launched.1 then (true, launched.2.enter guest)
    else (false, launched.2.setState guest .faulted)
  else (true, s.enter guest)

inductive Outcome
  | entered (guest : Nat)
  | served (guest : Nat)
  | deferred (guest : Nat)
  | idle
  | allGuestsFaulted
  | returned
  | panicked
  | unfinished
  deriving DecidableEq, Repr

/-- A blocked guest's server tasklet runs in the guest's place. -/
def dispatchHsmTasklet (guest : Nat) (s : Monitor) : Outcome × Monitor :=
  if (s.runtime guest).state ≠ .blocked then (.panicked, s)
  else
    (.served guest,
      { s.record (.serving guest) with currentGuest := guest, currentRep := .hsm })

/-- `wt_schedule_next_guest` up to where it waits for an interrupt or leaves. A
guest that is refused at its first dispatch sends the scheduler round again,
once for every guest at most. -/
def scheduleNextGuest (p : Platform) (trap : Trap) : Nat → Monitor → Outcome × Monitor
  | 0, s => (.unfinished, s)
  | rounds + 1, s =>
    if p.guestCount = 0 then (.allGuestsFaulted, s)
    else
      match findNextRunnable p trap s ((s.currentGuest + 1) % p.guestCount) with
      | none =>
        (if allGuestsTerminal p s then .allGuestsFaulted else .idle, s)
      | some (guest, .ns) =>
        let dispatched := dispatchGuest p guest s
        if dispatched.1 then (.entered guest, dispatched.2)
        else scheduleNextGuest p trap rounds dispatched.2
      | some (guest, .hsm) =>
        if trap.handlerMode then
          (.deferred guest, { s with pendingTaskletGuest := some guest })
        else dispatchHsmTasklet guest s

def schedule (p : Platform) (trap : Trap) (s : Monitor) : Outcome × Monitor :=
  scheduleNextGuest p trap (p.guestCount + 1) s

def saveRunningGuest (p : Platform) (s : Monitor) : Monitor :=
  let state := (s.runtime s.currentGuest).state
  if p.guestCount = 0 ∨ s.currentRep ≠ .ns ∨ p.guestCount ≤ s.currentGuest then s
  else if state = .running then s.setState s.currentGuest .ready
  else s

/-- What the policy keeps of a domain; the tick is that of the last restart. -/
structure Counters where
  restartCount : UInt32
  firstRestartTick : UInt32
  deriving DecidableEq, Repr

inductive RestartDecision
  | restart
  | fault
  deriving DecidableEq, Repr

def RestartDecision.granted : RestartDecision → Bool
  | .restart => true
  | .fault => false

/-- `wt_restart_policy_evaluate`: the budget is reset only after a whole window
without a restart. -/
def restartPolicyEvaluate (restartLimit restartWindowTicks monotonicTicks : UInt32)
    (counters : Counters) : RestartDecision × Counters :=
  let restarted (counters : Counters) : RestartDecision × Counters :=
    (.restart, { restartCount := counters.restartCount + 1
                 firstRestartTick := monotonicTicks })
  if 0 < restartLimit then
    let counters :=
      if 0 < counters.restartCount ∧ 0 < restartWindowTicks ∧
          restartWindowTicks ≤ monotonicTicks - counters.firstRestartTick then
        { counters with restartCount := 0 }
      else counters
    if restartLimit ≤ counters.restartCount then (.fault, counters)
    else restarted counters
  else restarted counters

def countersOf (runtime : GuestRuntime) : Counters :=
  { restartCount := runtime.restartCount
    firstRestartTick := runtime.firstRestartTick }

def guestEvaluate (config : LaunchConfig) (guest : Nat) (s : Monitor) :
    RestartDecision × Counters :=
  restartPolicyEvaluate (UInt32.ofNat config.restartLimit)
    (UInt32.ofNat config.restartWindowTicks) s.monotonicTicks
    (countersOf (s.runtime guest))

def zeroMemory (memory : Memory) (base size : Nat) : Memory := fun i =>
  if base ≤ i ∧ i < base + size then 0 else memory i

def clearWindow (config : LaunchConfig) : Option MemoryResource :=
  config.memoryWindows.find? fun window =>
    anySet window.attributes memoryAttrRestartClear

def restartMemory (config : LaunchConfig) (memory : Memory) : Memory :=
  match clearWindow config with
  | some window => zeroMemory memory window.base window.size
  | none => memory

def restartGuest (config : LaunchConfig) (guest : Nat) (reason : FaultReason)
    (s : Monitor) : Monitor :=
  let s := { s with memory := restartMemory config s.memory }
  let decided := guestEvaluate config guest s
  let runtime := { s.runtime guest with
    lastFault := reason
    restartCount := decided.2.restartCount
    firstRestartTick := decided.2.firstRestartTick }
  match decided.1 with
  | .restart =>
    (s.setRuntime guest
      { runtime with
        state := .restarting
        remainingDelayTicks := UInt32.ofNat config.initialDelayTicks }).record
      (.restarting guest)
  | .fault => s.setRuntime guest { runtime with state := .faulted }

def onSecureTimer (p : Platform) (trap : Trap) (s : Monitor) : Outcome × Monitor :=
  let s := { s with monotonicTicks := s.monotonicTicks + 1 }
  if p.engineHsm ∧ trap.tasklet ≠ none then (.returned, tickRestartBackoff p s)
  else if p.engineHsm ∧ trap.serviceActive then (.returned, s)
  else if ¬trap.fromGuestThread then (.returned, tickRestartBackoff p s)
  else schedule p trap (tickRestartBackoff p (saveRunningGuest p s))

def onGuestFault (p : Platform) (trap : Trap) (reason : FaultReason)
    (s : Monitor) : Outcome × Monitor :=
  match p.configs[s.currentGuest]? with
  | none => (.panicked, s)
  | some config => schedule p trap (restartGuest config s.currentGuest reason s)

def quarantineGuest (p : Platform) (guest : Nat) (s : Monitor) : Monitor :=
  if p.guestCount ≤ guest then s else s.setState guest .faulted

/-- The decision of a re-measurement, which does not look at the flash's write
protection. -/
def runtimeVerifyDecide (p : Platform) (memory : Memory) (guest : Nat)
    (config : LaunchConfig) : Except VerifyError Unit :=
  if config.launchRequired = 0 then .ok ()
  else
    match execWindow config, p.record guest with
    | some window, some record =>
      guestVerifyImage p.sha256 memory window.base window.size record config.launchMinVersion
    | _, _ => .error .argument

def runtimeVerifyGuest (p : Platform) (guest : Nat) (s : Monitor) : Monitor :=
  match p.configs[guest]? with
  | none => s
  | some config =>
    if (runtimeVerifyDecide p s.memory guest config).isOk then s
    else quarantineGuest p guest s

/-- The tasklet that a handler left to the thread. -/
def resumePendingTaskletGuest (s : Monitor) : Outcome × Monitor :=
  match s.pendingTaskletGuest with
  | none => (.panicked, s)
  | some guest => dispatchHsmTasklet guest { s with pendingTaskletGuest := none }

/-- One guest of `wt_monitor_init`. -/
def initGuest (p : Platform) (s : Monitor) (guest : Nat) : Monitor :=
  match p.configs[guest]? with
  | none => s
  | some config =>
    let s := s.setRuntime guest (partitionResetRuntime config
      { s.runtime guest with restartCount := 0, firstRestartTick := 0 })
    let launched := launch p guest s
    if launched.1 then launched.2 else launched.2.setState guest .faulted

def stoppedRuntime : GuestRuntime :=
  { state := .stopped, remainingDelayTicks := 0, restartCount := 0
    firstRestartTick := 0, lastFault := .none }

def freshMonitor (memory : Memory) (earlier : List Action) : Monitor :=
  { runtime := fun _ => stoppedRuntime
    currentGuest := 0
    currentRep := .ns
    monotonicTicks := 0
    firstDispatchPending := 0
    pendingTaskletGuest := none
    memory
    actions := .booted :: earlier }

/-- The monitor of a boot that passes the checks before the guests', with the
actions before it. -/
def monitorInit (p : Platform) (memory : Memory) (earlier : List Action) : Monitor :=
  { (List.range p.guestCount).foldl (initGuest p) (freshMonitor memory earlier) with
    firstDispatchPending :=
      if 32 ≤ p.guestCount then BitVec.allOnes 32
      else BitVec.twoPow 32 p.guestCount - 1 }

def monitorStart (p : Platform) (trap : Trap) (s : Monitor) : Outcome × Monitor :=
  match findNextRunnable p trap s 0 with
  | none => (.allGuestsFaulted, s)
  | some (guest, _) =>
    let dispatched := dispatchGuest p guest s
    if dispatched.1 then (.entered guest, dispatched.2)
    else schedule p trap dispatched.2

/-- Everything that happens to the monitor. Guests write memory as they run. -/
inductive Step
  | boot (memory : Memory)
  | start (trap : Trap)
  | tick (trap : Trap)
  | fault (trap : Trap) (reason : FaultReason)
  | idle (trap : Trap)
  | resume
  | verify (guest : Nat)
  | quarantine (guest : Nat)
  | write (memory : Memory)

def step (p : Platform) (s : Monitor) : Step → Monitor
  | .boot memory => monitorInit p memory s.actions
  | .start trap => (monitorStart p trap s).2
  | .tick trap => (onSecureTimer p trap s).2
  | .fault trap reason => (onGuestFault p trap reason s).2
  | .idle trap => (schedule p trap s).2
  | .resume => (resumePendingTaskletGuest s).2
  | .verify guest => runtimeVerifyGuest p guest s
  | .quarantine guest => quarantineGuest p guest s
  | .write memory => { s with memory }

end WolfTrust.GuestMonitor
