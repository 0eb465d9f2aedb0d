import WolfTrust.SpmGate

namespace WolfTrust.SpmSched

open Domain Manifest FfmRuntime SpmGate

def maxMemoryRegions : Nat := 8
def memAttrExec : Word := memoryAttrExecute
def memAttrDevice : Word := memoryAttrDevice

inductive SecureDomainError
  | notFound
  | domainClass
  | capacity
  deriving DecidableEq, Repr

/-- A domain as `wt_ffm_resolve_secure_domain` leaves it. -/
structure ResolvedDomain where
  domainId : Nat
  regions : List MemoryRegion
  stackBase : Nat
  stackSize : Nat
  deriving DecidableEq, Repr

def resolvedAttributes : Word :=
  memAttrRead ||| memAttrWrite ||| memAttrExec ||| memAttrDevice |||
    memoryAttrShared ||| memoryAttrRestartClear

def ffmResolveSecureDomain (manifest : SystemManifest) (domainId : Nat) :
    Except SecureDomainError ResolvedDomain :=
  match manifest.domains.find? fun domain => domain.id == domainId with
  | none => .error .notFound
  | some domain =>
    if domain.domainClass ≠ .securePartition ∨
        domain.securityState ≠ .secure then .error .domainClass
    else if domain.memoryResources.length > maxMemoryRegions then
      .error .capacity
    else
      .ok
        { domainId
          regions := domain.memoryResources.map fun resource =>
            { base := resource.base, size := resource.size
              attributes := resource.attributes &&& resolvedAttributes }
          stackBase := domain.stackBase
          stackSize := domain.stackSize }

def privateWritable (region : MemoryRegion) : Bool :=
  anySet region.attributes memAttrWrite && !anySet region.attributes memAttrDevice &&
    !anySet region.attributes memoryAttrShared

/-- A region that may hold the partition's stack. -/
def stackCandidate (domain : ResolvedDomain) (region : MemoryRegion) : Bool :=
  privateWritable region && !(domain.stackSize != 0 && (domain.stackBase < region.base ||
        addPtr domain.stackBase domain.stackSize > addPtr region.base region.size))

def stackRegion (domain : ResolvedDomain) : Option Nat :=
  ((List.range domain.regions.length).filter fun i =>
    domain.regions[i]?.any (stackCandidate domain)).getLast?

def restartBands (domain : ResolvedDomain) (stack : Nat) : List Nat :=
  (List.range domain.regions.length).filter fun i =>
    i != stack && domain.regions[i]?.any fun region =>
      anySet region.attributes memoryAttrRestartClear && privateWritable region

/-- The thread table: the image windows every partition shares, then the
domain's own regions that are not code. -/
def composeTable (sharedRegions : List MemoryRegion) (domain : ResolvedDomain) : SecureDomain :=
  { domainId := domain.domainId
    regions := (sharedRegions ++ domain.regions.filter fun region =>
      !anySet region.attributes memAttrExec).take maxMemoryRegions }

/-- A scheduled partition. Its wait state is kept apart, so this is what is
fixed after the start. -/
structure SpmSp where
  co : Nat
  table : SecureDomain
  partitionId : Int
  partitionIndex : PartitionIndex
  deriving DecidableEq, Repr

/-- What the port contributes when partitions are added. -/
structure SchedPort where
  sharedRegions : List MemoryRegion
  peripheralsOk : List MemoryRegion → Bool

/-- One `wt_spm_sched_add`, with the outcomes of the coroutine creation and of
the interrupt claim. -/
structure SchedRequest where
  partitionId : Int
  co : Option Nat
  irqsClaimed : Bool

def domainIdOf (partitionId : Int) : Nat := (partitionId % 2 ^ 32).toNat

def spmSchedAdd (port : SchedPort) (manifest : SystemManifest) (runtime : Runtime)
    (slots : List SpmSp) (request : SchedRequest) : Except FfmError (List SpmSp) :=
  if slots.length ≥ ffmMaxPartitions then .error .resource
  else
    match ffmResolveSecureDomain manifest (domainIdOf request.partitionId) with
    | .error _ => .error .state
    | .ok domain =>
      match stackRegion domain with
      | none => .error .state
      | some stack =>
        if !port.peripheralsOk domain.regions then .error .resource
        else
          match request.co with
          | none => .error .resource
          | some co =>
            if (restartBands domain stack).length > 1 then .error .state
            else
              match (List.finRange 9).find? fun i =>
                  i.val < runtime.layout.partitionCount && (runtime.layout.manifest i).domainId ==
                      domainIdOf request.partitionId with
              | none => .error .state
              | some index =>
                if !request.irqsClaimed then .error .resource
                else
                  match findPartition runtime request.partitionId with
                  | .error _ => .error .state
                  | .ok _ =>
                    .ok (slots ++
                      [{ co
                         table := composeTable port.sharedRegions domain
                         partitionId := request.partitionId
                         partitionIndex := index }])

/-- The table of scheduled partitions after the start. -/
def spmSchedule (port : SchedPort) (manifest : SystemManifest)
    (runtime : Runtime) (requests : List SchedRequest) : List SpmSp :=
  requests.foldl (fun slots request =>
    match spmSchedAdd port manifest runtime slots request with
    | .error _ => slots
    | .ok added => added) []

def spmSlotForCurrent (slots : List SpmSp) (current : Nat) : Option SpmSp :=
  slots.find? fun slot => slot.co == current

def spmPartitionMemoryOk (slots : List SpmSp) (partitionId : Int)
    (address size : Nat) (needWrite : Bool) : Bool :=
  match slots.find? fun slot => slot.partitionId == partitionId with
  | none => false
  | some slot => secureDomainContains slot.table address size needWrite

/-- The memory checks of the target: a partition against its table, a guest
(`guest` is its number) by the architecture's check of Non-secure windows. -/
def ffmBootPortOps (slots : List SpmSp)
    (nsCheckRead nsCheckWrite : Nat → Nat → Nat → Bool) : PortOps :=
  { checkRead := fun caller address size =>
      if caller > 0 then spmPartitionMemoryOk slots caller address size false
      else if caller ≥ 0 then false
      else nsCheckRead (-caller - 1).toNat address size
    checkWrite := fun caller address size =>
      if caller > 0 then spmPartitionMemoryOk slots caller address size true
      else if caller ≥ 0 then false
      else nsCheckWrite (-caller - 1).toNat address size }

section Composed

variable {port : SchedPort} {manifest : SystemManifest} {runtime : Runtime} {slots : List SpmSp}
  {request : SchedRequest}

/-- Every slot is that of a partition, with the composition of the domain its
partition id names. -/
def TablesComposed (port : SchedPort) (manifest : SystemManifest) (slots : List SpmSp) : Prop :=
  ∀ slot ∈ slots, 0 < slot.partitionId ∧ ∃ domain,
    ffmResolveSecureDomain manifest (domainIdOf slot.partitionId) = .ok domain ∧
      slot.table = composeTable port.sharedRegions domain

/-- An added slot names a partition, with the table of its domain. -/
theorem spmSchedAdd_eq_ok {added : List SpmSp}
    (hadd : spmSchedAdd port manifest runtime slots request = .ok added) :
    ∃ slot domain partition, added = slots ++ [slot] ∧
      findPartition runtime slot.partitionId = .ok partition ∧
      ffmResolveSecureDomain manifest (domainIdOf slot.partitionId) = .ok domain ∧
      slot.table = composeTable port.sharedRegions domain := by
  unfold spmSchedAdd at hadd
  repeat' split at hadd
  all_goals cases hadd
  exact ⟨_, _, _, rfl, ‹findPartition _ _ = _›, ‹ffmResolveSecureDomain _ _ = _›, rfl⟩

theorem spmSchedAdd_composed {added : List SpmSp} (h : TablesComposed port manifest slots)
    (hadd : spmSchedAdd port manifest runtime slots request = .ok added) :
    TablesComposed port manifest added := by
  obtain ⟨new, domain, partition, rfl, hfound, hdomain, htable⟩ :=
    spmSchedAdd_eq_ok hadd
  intro slot hslot
  rcases List.mem_append.mp hslot with hslot | hslot
  · exact h slot hslot
  · rw [List.mem_singleton.mp hslot]
    exact ⟨(findPartition_eq_ok hfound).1, domain, hdomain, htable⟩

theorem spmSchedule_composed (requests : List SchedRequest) : TablesComposed port manifest
      (spmSchedule port manifest runtime requests) := by
  unfold spmSchedule
  induction requests using List.reverseRecOn with
  | nil =>
    intro slot hslot
    cases hslot
  | append_singleton requests request ih =>
    rw [List.foldl_append, List.foldl_cons, List.foldl_nil]
    split
    · exact ih
    · rename_i added hadd
      exact spmSchedAdd_composed ih hadd

theorem TablesComposed.table_eq (h : TablesComposed port manifest slots) {first second : SpmSp}
    (hfirst : first ∈ slots) (hsecond : second ∈ slots)
    (hid : first.partitionId = second.partitionId) : first.table = second.table := by
  obtain ⟨-, domain, hdomain, htable⟩ := h first hfirst
  obtain ⟨-, domain', hdomain', htable'⟩ := h second hsecond
  rw [hid, hdomain'] at hdomain
  rw [htable, htable', Except.ok.inj hdomain]

end Composed

end WolfTrust.SpmSched
