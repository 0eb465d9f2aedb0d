import WolfTrust.FfmDiscipline
import WolfTrust.SpmDispatch

namespace WolfTrust.SpmConfinement

open Domain Manifest ByteMemory FfmRuntime FfmVectors FfmClient FfmService
  SpmGate SpmSched SpmDispatch DomainIsolation FfmLayout FfmDiscipline

/-- The access lies wholly inside one region of the table, which is readable,
and writable if the access writes. -/
def Permits (table : SecureDomain) (access : Access) : Prop :=
  ∃ region ∈ table.regions, region.base ≤ access.address ∧
    access.address + access.length ≤ region.base + region.size ∧
    anySet region.attributes memAttrRead = true ∧
    (access.isWrite = true → anySet region.attributes memAttrWrite = true)

section Checks

variable {table : SecureDomain} {address length count : Nat} {needWrite : Bool}

theorem contains_permits (h : secureDomainContains table address length needWrite = true)
    (hcount : count ≤ length) : Permits table ⟨address, count, needWrite⟩ := by
  unfold secureDomainContains at h
  split_ifs at h with hlength haddress
  obtain ⟨region, hregion, hcontains⟩ := List.any_eq_true.mp h
  simp only [regionContains, Bool.and_eq_true, Bool.not_eq_true',
    Bool.or_eq_false_iff, Bool.and_eq_false_iff, decide_eq_true_eq,
    decide_eq_false_iff_not, beq_eq_false_iff_ne] at hcontains
  obtain ⟨⟨⟨⟨⟨hsize, htop⟩, hread⟩, hwrite⟩, hbase⟩, hend⟩ := hcontains
  refine ⟨region, hregion, hbase, ?_, hread, fun hneeds => ?_⟩
  · exact le_trans (Nat.add_le_add_left hcount address) hend
  · dsimp only at hneeds
    simpa [hneeds] using hwrite

theorem checkBuffer_permits (h : spmCheckBuffer (some table) address length needWrite = .ok ())
    (hcount : count ≤ length) (hne : count ≠ 0) : Permits table ⟨address, count, needWrite⟩ := by
  unfold spmCheckBuffer at h
  dsimp only at h
  rw [if_neg (by omega)] at h
  split_ifs at h with hnull hcontains
  exact contains_permits hcontains hcount

end Checks

section Gate

variable {table : SecureDomain} {g : GateState} {allowed : Access → Prop}
  {vec buffer numBytes : Nat} {ports : PortOps} {partition handle : Int}

theorem length_bytes (msg : PsaMsg) : msg.bytes.length = sizeofMsg := by
  simp [PsaMsg.bytes, sizeofMsg, List.length_flatMap, Function.comp_def]

theorem gateWait_touches : Touches (Permits table) g.memory (gateWait (some table) g).memory := by
  unfold gateWait
  split
  · exact .refl _
  · rename_i hcheck
    dsimp only
    split
    · exact .refl _
    · refine .write fun hne => ?_
      exact checkBuffer_permits hcheck (by simp [sizeofSignal]) hne

theorem gateGet_touches : Touches (Permits table) g.memory (gateGet (some table) g).memory := by
  unfold gateGet
  split
  · exact .refl _
  · rename_i hcheck
    dsimp only
    split
    · exact .refl _
    · refine .write fun hne => ?_
      exact checkBuffer_permits hcheck (le_of_eq (length_bytes _)) hne

theorem ffmRead_touches {runtime : Runtime} {memory : Memory}
    (h : ∀ count ≤ numBytes, count ≠ 0 → allowed ⟨buffer, count, true⟩) :
    Touches allowed memory (ffmRead runtime memory partition handle vec buffer numBytes).2.2 := by
  unfold ffmRead
  split
  · exact .refl _
  · split
    · exact .refl _
    · dsimp only
      split
      · exact .refl _
      · refine .write fun hne => ?_
        exact h _ (by simp) hne

theorem ffmWrite_touches {runtime : Runtime} {memory : Memory}
    (h : numBytes ≠ 0 → allowed ⟨buffer, numBytes, false⟩) :
    Touches allowed memory (ffmWrite runtime memory partition handle vec buffer numBytes).2.2 := by
  unfold ffmWrite
  dsimp only
  repeat' split
  all_goals first | exact .refl _ | exact .read h

theorem gateRead_touches : Touches (Permits table) g.memory (gateRead (some table) g).memory := by
  unfold gateRead
  dsimp only
  split
  · exact .refl _
  · split
    · exact .refl _
    · rename_i hcheck
      exact ffmRead_touches fun count hcount hne =>
        checkBuffer_permits hcheck hcount hne

theorem gateWrite_touches : Touches (Permits table) g.memory (gateWrite (some table) g).memory := by
  unfold gateWrite
  split
  · exact .refl _
  · rename_i hcheck
    exact ffmWrite_touches fun hne =>
      checkBuffer_permits hcheck (le_refl _) hne

theorem checkVectors_eq_ok {domain : Option SecureDomain} {needWrite : Bool}
    {vectors : List IoVec} (h : checkVectors domain needWrite vectors = .ok ()) {v : IoVec}
    (hv : v ∈ vectors) : spmCheckBuffer domain v.base v.len needWrite = .ok () := by
  induction vectors with
  | nil => cases hv
  | cons vector rest ih =>
    rw [checkVectors] at h
    split at h
    · cases h
    · rename_i hcheck
      rcases List.mem_cons.mp hv with rfl | hv
      · exact hcheck
      · exact ih h hv

theorem captureInputs_touches {vectors : List IoVec}
    (h : ∀ v ∈ vectors, v.len ≠ 0 → allowed ⟨v.base, v.len, false⟩)
    (i offset : Nat) (message : Message) (memory : Memory) :
    Touches allowed memory (captureInputs vectors i offset message memory).2 := by
  induction vectors generalizing i offset message memory with
  | nil => exact .refl memory
  | cons vector rest ih =>
    rw [captureInputs]
    refine Touches.trans (.read (h vector List.mem_cons_self)) ?_
    exact ih (fun v hv => h v (List.mem_cons_of_mem _ hv)) _ _ _ _

/-- A call that does not come to its vectors leaves the memory. -/
theorem callRequest_memory (ports : PortOps) (runtime : Runtime) (memory : Memory)
    (caller handle type : Int) (inVec outVec : List IoVec) : let memory' :=
      (callRequest ports runtime memory caller handle type inVec outVec).2.2
    memory' = memory ∨ ∃ message prepared, prepareVectors ports message memory inVec outVec =
        .ok (prepared, memory') := by
  unfold callRequest
  dsimp only
  repeat' split
  all_goals try exact .inl rfl
  exact .inr ⟨_, _, ‹prepareVectors _ _ _ _ _ = _›⟩

theorem callRequest_touches {ports : PortOps} {runtime : Runtime}
    {memory : Memory} {caller handle type : Int} {inVec outVec : List IoVec}
    (h : ∀ v ∈ inVec, v.len ≠ 0 → allowed ⟨v.base, v.len, false⟩) :
    Touches allowed memory (callRequest ports runtime memory caller handle type inVec
        outVec).2.2 := by
  rcases callRequest_memory ports runtime memory caller handle type inVec
    outVec with hsame | ⟨message, prepared, hprepared⟩
  · rw [hsame]
    exact .refl _
  · obtain ⟨-, -, hmemory⟩ := prepareVectors_eq_ok hprepared
    rw [hmemory]
    exact captureInputs_touches h _ _ _ _

/-- A publication goes to the recorded outputs of the message, each of which was
checked for the message's client. -/
def Publishes (ports : PortOps) (message : Message) (access : Access) : Prop :=
  access.isWrite = true ∧ ports.checkWrite message.caller access.address access.length = true ∧
    ∃ j < message.outCount, access.address = message.clientOutput j ∧
      access.length = message.outPosition j

theorem publishOutputs_touches {message : Message}
    (h : outputsWritable ports message = true) (memory : Memory) :
    Touches (Publishes ports message) memory (publishOutputs message memory) := by
  unfold publishOutputs
  refine Touches.foldl (fun j hj memory => .write fun hne => ?_) memory
  rw [length_load] at hne ⊢
  have hwritable := List.all_eq_true.mp h j hj
  rw [Bool.or_eq_true, beq_iff_eq] at hwritable
  exact ⟨rfl, hwritable.resolve_left hne, j, List.mem_range.mp hj, rfl, rfl⟩

theorem gateCallBegin_touches : Touches (Permits table) g.memory
      (gateCallBegin ports (some table) g).memory := by
  unfold gateCallBegin
  split
  · exact .refl _
  · rename_i hcheck
    have hinputs : ∀ v ∈ g.call.inVec, v.len ≠ 0 → Permits table ⟨v.base, v.len, false⟩ := by
      unfold spmCheckSpVectors at hcheck
      split_ifs at hcheck
      split at hcheck
      · cases hcheck
      · rename_i hin
        intro v hv hne
        exact checkBuffer_permits (checkVectors_eq_ok hin hv) (le_refl _) hne
    have htouches := @callRequest_touches _ ports g.runtime g.memory
      g.call.partitionId g.call.msgHandle g.call.callType g.call.inVec
      g.call.outVec hinputs
    dsimp only
    split
    · exact htouches
    · exact htouches

theorem gateCall_resumed {ports : PortOps} {domain : Option SecureDomain}
    (hresumed : g.call.pendingValid = true) :
    Touches (fun access => ∃ m, (g.runtime.messages m).caller = g.call.partitionId ∧
        Publishes ports (g.runtime.messages m) access)
      g.memory (gateCall ports domain g).memory := by
  unfold gateCall
  rw [if_neg (by simp [hresumed])]
  unfold gateResume
  split
  · exact .refl _
  · rename_i m howned
    have hcaller := (spmPendingOwned_eq_some howned).2
    split
    · exact .refl _
    · unfold gateCallFinish ffmCallFinish
      dsimp only
      split
      · exact .refl _
      · rename_i hwritable
        refine (publishOutputs_touches (by simpa using hwritable) _).mono ?_
        exact fun access haccess => ⟨m, hcaller, haccess⟩

theorem gateCall_touches (hports : ∀ address size,
      ports.checkWrite g.call.partitionId address size = true →
        Permits table ⟨address, size, true⟩) :
    Touches (Permits table) g.memory (gateCall ports (some table) g).memory := by
  cases hresumed : g.call.pendingValid with
  | false =>
    unfold gateCall
    rw [if_pos hresumed]
    exact gateCallBegin_touches
  | true =>
    refine (gateCall_resumed hresumed).mono ?_
    rintro ⟨address, length, isWrite⟩ ⟨m, hcaller, rfl, hcheck, -⟩
    rw [hcaller] at hcheck
    exact hports address length hcheck

theorem gateSkip_memory : (gateSkip g).memory = g.memory := by
  unfold gateSkip
  dsimp only
  split <;> rfl

theorem gateIrqLookup_memory : (gateIrqLookup g).memory = g.memory := by
  unfold gateIrqLookup
  split <;> rfl

theorem gateEoi_memory : (gateEoi g).memory = g.memory := by
  unfold gateEoi
  dsimp only
  split
  · rfl
  · exact gateIrqLookup_memory

theorem gateConnect_memory : (gateConnect g).memory = g.memory := by
  unfold gateConnect gateConnectBegin gateResume gateConnectFinish
  split
  · dsimp only
    split <;> rfl
  · split
    · rfl
    · split <;> rfl

theorem gateClose_memory : (gateClose g).memory = g.memory := by
  unfold gateClose gateCloseBegin gateResume gateCloseFinish
  split
  · dsimp only
    split <;> rfl
  · split
    · rfl
    · split <;> rfl

theorem spmGate_touches {ports : PortOps} (hports : ∀ address size,
      ports.checkWrite g.call.partitionId address size = true →
        Permits table ⟨address, size, true⟩) :
    Touches (Permits table) g.memory (spmGate ports (some table) g).2.memory := by
  unfold spmGate
  cases g.call.op with
  | wait => exact gateWait_touches
  | get => exact gateGet_touches
  | read => exact gateRead_touches
  | write => exact gateWrite_touches
  | call => exact gateCall_touches hports
  | skip => exact .of_eq gateSkip_memory
  | connect => exact .of_eq gateConnect_memory
  | close => exact .of_eq gateClose_memory
  | eoi => exact .of_eq gateEoi_memory
  | irqEnable => exact .of_eq gateIrqLookup_memory
  | setRhandle | reply | notify | clear | version | lifecycle | fwuBackend
  | keystoreFlash | keystoreEntropy | keystoreLock | measureRead
  | other => exact .refl _

end Gate

section Services

variable {σ : Type*} {ops : PlatformOps σ} {slot : SpmSp} {d : DispatchState σ}

theorem gives_touches {run : List UInt8 → Int × σ} (h : bufferOk slot d false = true) :
    Touches (Permits slot.table) d.memory (d.gives run).2.memory :=
  .read fun _ => contains_permits h (le_refl _)

theorem fills_touches {result : (Int × List UInt8) × σ} (h : bufferOk slot d true = true)
    (hlength : result.1.2.length ≤ d.call.numBytes) :
    Touches (Permits slot.table) d.memory (d.fills result).2.memory :=
  .write fun _ => contains_permits h hlength

theorem dispatchFwu_memory (hwrite : d.call.callType ≠ spmFwuWrite) :
    (dispatchFwu ops slot d).2.memory = d.memory := by
  unfold dispatchFwu
  dsimp only
  rw [if_neg hwrite]
  repeat' split
  all_goals rfl

theorem dispatchFwu_touches :
    Touches (Permits slot.table) d.memory (dispatchFwu ops slot d).2.memory := by
  by_cases hwrite : d.call.callType = spmFwuWrite
  · have hbegin : d.call.callType ≠ spmFwuBegin := by
      rw [hwrite]
      decide
    unfold dispatchFwu
    dsimp only
    rw [if_neg hbegin, if_pos hwrite]
    split
    · exact .refl _
    · split
      · exact gives_touches ‹_›
      · exact .refl _
  · rw [dispatchFwu_memory hwrite]
    exact .refl _

theorem dispatchFlash_touches : Touches (Permits slot.table) d.memory
      (dispatchFlash ops slot d).2.memory := by
  unfold dispatchFlash
  dsimp only
  split_ifs with hread hprogram herase hverify
  · exact fills_touches hread.2 (ops.flashRead_length _ _ _)
  · exact gives_touches hprogram.2
  · exact .refl _
  · exact gives_touches hverify.2
  all_goals exact .refl _

theorem dispatchEntropy_touches : Touches (Permits slot.table) d.memory
      (dispatchEntropy ops slot d).2.memory := by
  unfold dispatchEntropy
  split_ifs with hbuffer
  · exact fills_touches hbuffer (ops.rngGenerateBlock_length _ _)
  · exact .refl _

theorem dispatchLock_touches : Touches (Permits slot.table) d.memory
      (dispatchLock ops slot d).2.memory := by
  unfold dispatchLock
  split_ifs <;> exact .refl _

theorem dispatchMeasure_touches : Touches (Permits slot.table) d.memory
      (dispatchMeasure ops slot d).2.memory := by
  unfold dispatchMeasure
  dsimp only
  split
  · exact .refl _
  · split
    · exact .refl _
    · rename_i record hrecord
      split
      · rename_i hok
        refine .write fun _ => contains_permits hok.2 ?_
        rw [hok.1, ops.measurement_length _ _ _ hrecord]
      · exact .refl _

variable {ids : PinnedIds} {ports : PortOps}

theorem spmDispatchHeld_touches (hports : ∀ address size,
      ports.checkWrite slot.partitionId address size = true →
        Permits slot.table ⟨address, size, true⟩) :
    Touches (Permits slot.table) d.memory (spmDispatchHeld ops ids ports slot d).2.memory := by
  have hgate : Touches (Permits slot.table) d.memory (dispatchGate ops ports slot d).2.memory := by
    exact @spmGate_touches slot.table
      { call := { d.call with partitionId := slot.partitionId }
        runtime := d.runtime, memory := d.memory } ports hports
  unfold spmDispatchHeld
  cases d.call.op with
  | fwuBackend =>
    dsimp only
    split
    · exact hgate
    · split
      · exact .refl _
      · exact dispatchFwu_touches
  | keystoreFlash =>
    dsimp only
    split
    · exact dispatchFlash_touches
    · exact .refl _
  | keystoreEntropy =>
    dsimp only
    split
    · exact dispatchEntropy_touches
    · exact .refl _
  | keystoreLock =>
    dsimp only
    split
    · exact dispatchLock_touches
    · exact .refl _
  | measureRead =>
    dsimp only
    split
    · exact .refl _
    · exact dispatchMeasure_touches
  | _ => exact hgate

theorem spmDispatchHeld_resumed (hop : d.call.op = .call) (hresumed : d.call.pendingValid = true) :
    Touches (fun access => ∃ m, (d.runtime.messages m).caller = slot.partitionId ∧
        Publishes ports (d.runtime.messages m) access)
      d.memory (spmDispatchHeld ops ids ports slot d).2.memory := by
  unfold spmDispatchHeld dispatchGate spmGate
  rw [hop]
  exact @gateCall_resumed _ ports (some slot.table) hresumed

end Services

section Scheduled

variable {port : SchedPort} {manifest : SystemManifest} {slots : List SpmSp}

theorem TablesComposed.checkWrite_permits (h : TablesComposed port manifest slots)
    {nsCheckRead nsCheckWrite : Nat → Nat → Nat → Bool} {slot : SpmSp}
    (hslot : slot ∈ slots) {address size : Nat}
    (hcheck : (ffmBootPortOps slots nsCheckRead nsCheckWrite).checkWrite
      slot.partitionId address size = true) :
    Permits slot.table ⟨address, size, true⟩ := by
  simp only [ffmBootPortOps, if_pos (h slot hslot).1, spmPartitionMemoryOk] at hcheck
  split at hcheck
  · cases hcheck
  · rename_i found hfound
    have hid : found.partitionId = slot.partitionId := by simpa using List.find?_some hfound
    rw [← h.table_eq (List.mem_of_find?_eq_some hfound) hslot hid]
    exact contains_permits hcheck (le_refl size)

end Scheduled

/-- Whatever the state, the call block and the trapping coroutine: the
dispatcher touches only memory that the table of the scheduled partition
permits, and nothing if none is scheduled there; and the second pass of a call
writes only recorded outputs of a message of that partition, each of which
passed the write check of the message's client. -/
theorem no_confused_deputy {σ : Type*} (port : SchedPort) (manifest : SystemManifest)
    (booted : Runtime) (requests : List SchedRequest) (ops : PlatformOps σ) (ids : PinnedIds)
    (nsCheckRead nsCheckWrite : Nat → Nat → Nat → Bool) (layout : CallLayout)
    (current address : Nat) (state : SpmState σ) :
    let slots := spmSchedule port manifest booted requests
    let ports := ffmBootPortOps slots nsCheckRead nsCheckWrite
    let after := (spmDispatchCall ops ids ports layout slots current address state).2
    (spmSlotForCurrent slots current = none → after.memory = state.memory) ∧
    ∀ slot, spmSlotForCurrent slots current = some slot →
      Touches (Permits slot.table) state.memory after.memory ∧
      ∀ d : DispatchState σ, d.call.op = .call → d.call.pendingValid = true → Touches
          (fun access => ∃ m, (d.runtime.messages m).caller = slot.partitionId ∧
            Publishes ports (d.runtime.messages m) access)
          d.memory (spmDispatchHeld ops ids ports slot d).2.memory := by
  intro slots ports after
  have hcomposed : TablesComposed port manifest slots := spmSchedule_composed requests
  constructor
  · intro hnone
    simp only [after, spmDispatchCall, hnone]
  · intro slot hsome
    refine ⟨?_, fun d hop hresumed => spmDispatchHeld_resumed hop hresumed⟩
    have hslot : slot ∈ slots := List.mem_of_find?_eq_some hsome
    simp only [after, spmDispatchCall, hsome]
    split
    · exact .refl _
    · rename_i hblock
      have hcontains : secureDomainContains slot.table address sizeofCall
          true = true := by simpa using hblock
      have hread : Touches (Permits slot.table) state.memory
          (state.memory.read address sizeofCall).2 := by
        refine .read fun _ => ?_
        obtain ⟨region, hregion, hbase, hend, hread, -⟩ :=
          contains_permits hcontains (le_refl _)
        exact ⟨region, hregion, hbase, hend, hread, fun h => by cases h⟩
      -- the block is read, the request runs, and the block is written back
      refine hread.trans (Touches.trans (@spmDispatchHeld_touches σ ops slot
        { call :=
            { layout.decode (state.memory.read address sizeofCall).1 with
              retTick := ops.monotonicTicks state.platform }
          runtime := state.runtime
          memory := (state.memory.read address sizeofCall).2
          platform := state.platform, wait := state.waits current
          panicTrap := false } ids ports fun address size hcheck =>
            TablesComposed.checkWrite_permits hcomposed hslot hcheck) ?_)
      dsimp only
      split
      · exact .refl _
      · refine .write fun _ => ?_
        rw [layout.encode_length]
        exact contains_permits hcontains (le_refl _)

section Sample

/-- A platform without firmware update whose generator returns ones. -/
def samplePlatformOps : PlatformOps Unit :=
  { monotonicTicks := fun _ => 0
    fwuBegin := none, fwuWrite := none, fwuArm := none, fwuDisarm := none
    fwuVerify := none
    rollbackImageFloor := fun _ => none
    activeImageVersion := fun _ => 0
    flashRead := fun _ _ _ => ((-1, []), ())
    flashProgram := fun _ _ _ => (-1, ())
    flashErase := fun _ _ _ => (-1, ())
    flashVerify := fun _ _ _ => (-1, ())
    flashBlankCheck := fun _ _ _ => (-1, ())
    flashCleanup := fun _ => (-1, ())
    rngGenerateBlock := fun _ size => ((0, List.replicate size 1), ())
    mutexAcquireQueued := fun _ _ => (0, ())
    mutexRelease := fun _ => (0, ())
    measurementCount := fun _ => 0
    measurement := fun _ _ => none
    secureIrqEnable := fun _ _ => ()
    flashRead_length := fun _ _ _ => Nat.zero_le _
    rngGenerateBlock_length := fun _ _ => le_of_eq List.length_replicate
    measurement_length := fun _ _ _ h => by cases h }

/-- Every block asks for eight random bytes at the end of the data region of
partition 3. -/
def entropyLayout : CallLayout :=
  { decode := fun _ =>
      { blankCall .keystoreEntropy 3 with buffer := 0x21FF8, numBytes := 8 }
    encode := fun _ => List.replicate sizeofCall 0
    encode_length := fun _ => List.length_replicate }

def entropyIds : PinnedIds := { fwu := none, vault := 2, hsm := 3, attest := 2 }

def openSched : SchedPort :=
  { sharedRegions := [], peripheralsOk := fun _ => true }

def sampleRequests : List SchedRequest :=
  [{ partitionId := 3, co := some 7, irqsClaimed := true }]

def sampleSpm : SpmState Unit :=
  { runtime := sampleRuntime, memory := sampleMemory, platform := ()
    waits := fun _ => { kind := .none, mask := 0, msg := 0 }
    panicTrap := false }

def noGuest (_ _ _ : Nat) : Bool := false

theorem no_confused_deputy_sample :
    let slots := spmSchedule openSched sampleManifest sampleRuntime sampleRequests
    let after := (spmDispatchCall samplePlatformOps entropyIds
      (ffmBootPortOps slots noGuest noGuest) entropyLayout slots 7 0x21000
      sampleSpm).2
    after.memory.bytes 0x21FFF = 1 ∧ ∃ slot, spmSlotForCurrent slots 7 = some slot ∧
        Touches (Permits slot.table) sampleSpm.memory after.memory := by
  intro slots after
  have hwritten : after.memory.bytes 0x21FFF = 1 := by decide +kernel
  have hsome : (spmSlotForCurrent slots 7).isSome = true := by decide +kernel
  obtain ⟨slot, hslot⟩ := Option.isSome_iff_exists.mp hsome
  have hdeputy := no_confused_deputy openSched sampleManifest sampleRuntime
    sampleRequests samplePlatformOps entropyIds noGuest noGuest entropyLayout 7
    0x21000 sampleSpm
  exact ⟨hwritten, slot, hslot, (hdeputy.2 slot hslot).1⟩

end Sample

end WolfTrust.SpmConfinement
