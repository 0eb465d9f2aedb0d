import WolfTrust.Domain

/-!
The system manifest and its validation at boot (`src/manifest.c`). C strings are
character lists without their terminator; tables are lists, as in `Domain`.
-/

namespace WolfTrust.Manifest

open Validation Domain

abbrev Name := List Char

def manifestFormatVersion : Nat := 1
def manifestDigestSize : Nat := 32
def manifestNameMax : Nat := 63
def manifestMaxPartitions : Nat := 32
def manifestMaxServices : Nat := 28
def manifestMaxDependencies : Nat := 32
def manifestMaxSignals : Nat := 28
def manifestReservedSignals : Word := 0xF

def ffmVersion10 : Nat := 0x0100
def ffmVersion11 : Nat := 0x0101

def manifestFeatureIpc : Word := 0x1
def manifestFeatureSfn : Word := 0x2
def manifestFeatureStateless : Word := 0x4
def manifestFeatureMask : Word := 0xF

inductive PartitionModel
  | ipc
  | sfn
  deriving DecidableEq, Repr

inductive PartitionPriority
  | low
  | normal
  | high
  deriving DecidableEq, Repr

inductive ServiceVersionPolicy
  | strict
  | relaxed
  | unspecified
  deriving DecidableEq, Repr

structure ServiceDescriptor where
  name : Name
  sid : Nat
  version : Nat
  versionPolicy : ServiceVersionPolicy
  signal : Word
  statelessHandleIndex : Nat
  nonsecureClients : Nat
  connectionBased : Nat
  deriving DecidableEq, Repr

structure ManifestInterrupt where
  signalName : Name
  interrupt : Nat
  signal : Word
  deriving DecidableEq, Repr

structure PartitionManifest where
  name : Name
  domainId : Nat
  frameworkVersion : Nat
  model : PartitionModel
  priority : PartitionPriority
  services : List ServiceDescriptor
  dependencies : List Nat
  interrupts : List ManifestInterrupt
  deriving DecidableEq, Repr

structure ManifestLimits where
  maxPartitions : Nat
  maxServicesPerPartition : Nat
  maxDependenciesPerPartition : Nat
  maxStatelessHandles : Nat
  deriving DecidableEq, Repr

structure SystemManifest where
  formatVersion : Nat
  generatorVersion : Name
  inputDigest : List UInt8
  features : Word
  isolationProfile : IsolationProfile
  profileCapabilities : ProfileCapabilities
  domains : List DomainDescriptor
  partitions : List PartitionManifest
  limits : ManifestLimits
  deriving DecidableEq, Repr

inductive ManifestError
  | format
  | generator
  | digest
  | feature
  | limit
  | domain
  | name
  | partitionId
  | frameworkVersion
  | model
  | service
  | serviceId
  | serviceVersion
  | signal
  | statelessHandle
  | dependency
  | dependencyCycle
  | interrupt
  | resourceOwnership
  | symbol
  deriving DecidableEq, Repr

def upperOrUnderscore (c : Char) : Bool :=
  ('A' ≤ c && c ≤ 'Z') || c == '_'

def nameTailChar (c : Char) : Bool :=
  ('A' ≤ c && c ≤ 'Z') || ('0' ≤ c && c ≤ '9') || c == '_'

def manifestNameValid : Name → Bool
  | [] => false
  | c :: rest =>
    rest.length + 1 ≤ manifestNameMax && upperOrUnderscore c && rest.all nameTailChar

/-- Names compare equal only when the terminator is met within the limit. -/
def manifestStringEqual (first second : Name) : Bool :=
  first == second && first.length ≤ manifestNameMax

def manifestNameEqualsGenerated (name base suffix : Name) : Bool :=
  name == base ++ suffix

def manifestGeneratedNamesEqual (firstBase firstSuffix secondBase secondSuffix : Name) : Bool :=
  firstBase ++ firstSuffix == secondBase ++ secondSuffix

def suffixModelIpc : Name := ['_', 'M', 'O', 'D', 'E', 'L', '_', 'I', 'P', 'C']
def suffixModelSfn : Name := ['_', 'M', 'O', 'D', 'E', 'L', '_', 'S', 'F', 'N']
def suffixSid : Name := ['_', 'S', 'I', 'D']
def suffixVersion : Name := ['_', 'V', 'E', 'R', 'S', 'I', 'O', 'N']
def suffixSignal : Name := ['_', 'S', 'I', 'G', 'N', 'A', 'L']
def suffixHandle : Name := ['_', 'H', 'A', 'N', 'D', 'L', 'E']

def manifestPartitionSymbolCollision (name : Name) (partition : PartitionManifest) : Bool :=
  partition.frameworkVersion == ffmVersion11 &&
    (manifestNameEqualsGenerated name partition.name suffixModelIpc ||
      manifestNameEqualsGenerated name partition.name suffixModelSfn)

def manifestServiceSymbolCollision (name : Name)
    (partition : PartitionManifest) (service : ServiceDescriptor) : Bool :=
  manifestNameEqualsGenerated name service.name suffixSid ||
    manifestNameEqualsGenerated name service.name suffixVersion ||
    (partition.model == .ipc && manifestNameEqualsGenerated name service.name suffixSignal) ||
    (service.connectionBased == 0 && manifestNameEqualsGenerated name service.name suffixHandle)

/-- One generated service symbol against the two model symbols of a
partition. -/
def modelSymbolCollision (partition : PartitionManifest)
    (service : ServiceDescriptor) (suffix : Name) : Bool :=
  manifestGeneratedNamesEqual partition.name suffixModelIpc service.name suffix ||
    manifestGeneratedNamesEqual partition.name suffixModelSfn service.name suffix

def manifestServiceModelSymbolCollision (modelPartition servicePartition : PartitionManifest)
    (service : ServiceDescriptor) : Bool :=
  modelPartition.frameworkVersion == ffmVersion11 &&
    (modelSymbolCollision modelPartition service suffixSid ||
      modelSymbolCollision modelPartition service suffixVersion ||
      (servicePartition.model == .ipc &&
        modelSymbolCollision modelPartition service suffixSignal) ||
      (service.connectionBased == 0 && modelSymbolCollision modelPartition service suffixHandle))

def manifestSignalValid (signal : Word) : Bool :=
  signal != 0 && !anySet signal manifestReservedSignals && signal &&& (signal - 1) == 0

def manifestDigestValid (digest : List UInt8) : Bool :=
  digest.length == manifestDigestSize &&
    digest.foldl (fun aggregate byte => aggregate ||| byte) 0 != 0

def manifestFindDomain (manifest : SystemManifest) (id : Nat) : Option DomainDescriptor :=
  manifest.domains.find? fun domain => domain.id == id

/-- FF-M resource ownership: a Secure Partition shares no device and no
interrupt, and a Non-secure application owns no interrupt. -/
def ffmResourceCheck (domain : DomainDescriptor) : Except ManifestError Unit := do
  require (!(domain.domainClass == .nonsecureApplication &&
    domain.interruptResources.length != 0)) .interrupt
  if domain.domainClass = .securePartition then
    checkAll (fun resource : MemoryResource =>
      require (!(anySet resource.attributes memoryAttrDevice &&
        anySet resource.attributes memoryAttrShared)) .resourceOwnership)
      domain.memoryResources
    checkAll (fun interrupt : InterruptResource =>
      require (!anySet interrupt.attributes interruptAttrShared)
        .resourceOwnership) domain.interruptResources
  else .ok ()

def manifestValidateFfmResources (manifest : SystemManifest) : Except ManifestError Unit :=
  checkAll ffmResourceCheck manifest.domains

def manifestValidateHeader (manifest : SystemManifest)
    (supportedFeatures : Word) (platform : ProfileCapabilities) :
    Except ManifestError Unit := do
  require (manifest.formatVersion == manifestFormatVersion) .format
  require (manifestNameValid manifest.generatorVersion) .generator
  require (manifestDigestValid manifest.inputDigest) .digest
  require (!anySet supportedFeatures (~~~manifestFeatureMask) &&
    anySet supportedFeatures manifestFeatureIpc &&
    !anySet manifest.features (~~~supportedFeatures) &&
    anySet manifest.features manifestFeatureIpc) .feature
  require (manifest.limits.maxPartitions != 0 &&
    manifest.limits.maxPartitions ≤ manifestMaxPartitions &&
    manifest.limits.maxServicesPerPartition != 0 &&
    manifest.limits.maxServicesPerPartition ≤ manifestMaxServices &&
    manifest.limits.maxDependenciesPerPartition != 0 &&
    manifest.limits.maxDependenciesPerPartition ≤ manifestMaxDependencies &&
    32 ≤ manifest.limits.maxStatelessHandles) .limit
  require (manifest.partitions.length != 0 &&
    manifest.partitions.length ≤ manifest.limits.maxPartitions) .limit
  require (!anySet manifest.profileCapabilities.capabilities (~~~platform.capabilities) &&
    manifest.profileCapabilities.maxDomains ≤ platform.maxDomains &&
    manifest.profileCapabilities.maxMemoryResourcesPerDomain ≤
      platform.maxMemoryResourcesPerDomain &&
    manifest.profileCapabilities.maxInterruptsPerDomain ≤ platform.maxInterruptsPerDomain) .domain
  (domainValidateSet manifest.domains manifest.isolationProfile platform).mapError fun _ => .domain
  manifestValidateFfmResources manifest

def manifestValidatePartitionHeader (manifest : SystemManifest)
    (partition : PartitionManifest) : Except ManifestError Unit := do
  require (manifestNameValid partition.name) .name
  match manifestFindDomain manifest partition.domainId with
  | none => .error .partitionId
  | some domain =>
    require (partition.domainId != 0 && partition.domainId ≤ 2 ^ 31 - 1 &&
      domain.domainClass == .securePartition) .partitionId
    require (partition.frameworkVersion == ffmVersion10 ||
      partition.frameworkVersion == ffmVersion11) .frameworkVersion
    require (!(partition.frameworkVersion == ffmVersion10 && partition.model != .ipc)) .model
    require (!((partition.model == .ipc && !anySet manifest.features manifestFeatureIpc) ||
      (partition.model == .sfn && !anySet manifest.features manifestFeatureSfn))) .feature
    require (!(partition.services.length == 0 && partition.interrupts.length == 0)) .service
    require (partition.services.length ≤ manifest.limits.maxServicesPerPartition) .service
    require (partition.dependencies.length ≤
      manifest.limits.maxDependenciesPerPartition) .dependency
    require (partition.interrupts.length == domain.interruptResources.length) .interrupt
    require (partition.interrupts.length +
      (if partition.model = .ipc then partition.services.length else 0) ≤
        manifestMaxSignals) .signal

def manifestValidateService (manifest : SystemManifest)
    (partition : PartitionManifest) (service : ServiceDescriptor) :
    Except ManifestError Unit := do
  require (manifestNameValid service.name) .name
  require (service.sid != 0) .serviceId
  require (service.version != 0 && service.versionPolicy != .unspecified) .serviceVersion
  require (service.nonsecureClients ≤ 1 && service.connectionBased ≤ 1) .service
  require (!(partition.frameworkVersion == ffmVersion10 && service.connectionBased == 0)) .service
  if service.connectionBased ≠ 0 then
    require (service.statelessHandleIndex == 0) .statelessHandle
  else do
    require (anySet manifest.features manifestFeatureStateless) .feature
    require (service.statelessHandleIndex != 0 &&
      service.statelessHandleIndex ≤ manifest.limits.maxStatelessHandles)
      .statelessHandle
  if partition.model = .ipc then
    require (manifestSignalValid service.signal) .signal
  else
    require (service.signal == 0) .signal

/-- Whether a signal is taken by one of the listed services or interrupts. -/
def manifestSignalUsed (services : List ServiceDescriptor)
    (interrupts : List ManifestInterrupt) (signal : Word) : Bool :=
  services.any (fun service => service.signal == signal) ||
    interrupts.any fun interrupt => interrupt.signal == signal

def serviceCheck (manifest : SystemManifest) (partition : PartitionManifest)
    (earlier : List ServiceDescriptor) (service : ServiceDescriptor) :
    Except ManifestError Unit := do
  manifestValidateService manifest partition service
  require (!(service.signal != 0 && manifestSignalUsed earlier [] service.signal)) .signal

def manifestValidateInterrupt (domain : DomainDescriptor)
    (partition : PartitionManifest) (earlier : List ManifestInterrupt)
    (interrupt : ManifestInterrupt) : Except ManifestError Unit := do
  require (manifestNameValid interrupt.signalName && manifestSignalValid interrupt.signal) .signal
  require (domain.interruptResources.any fun resource =>
    resource.interrupt == interrupt.interrupt) .interrupt
  checkAll (fun other : ManifestInterrupt => do
    require (other.interrupt != interrupt.interrupt) .interrupt
    require (!manifestStringEqual other.signalName interrupt.signalName) .signal) earlier
  require (!manifestSignalUsed partition.services earlier interrupt.signal) .signal

def dependencyCheck (earlier : List Nat) (dependency : Nat) : Except ManifestError Unit := do
  require (dependency != 0) .dependency
  checkAll (fun other => require (dependency != other) .dependency) earlier

def manifestValidatePartition (manifest : SystemManifest)
    (partition : PartitionManifest) : Except ManifestError Unit := do
  manifestValidatePartitionHeader manifest partition
  match manifestFindDomain manifest partition.domainId with
  | none => .error .partitionId
  | some domain =>
    checkWithPrior (serviceCheck manifest partition) [] partition.services
    checkWithPrior (manifestValidateInterrupt domain partition) [] partition.interrupts
    checkWithPrior dependencyCheck [] partition.dependencies

/-- The index of the first partition that declares a service. -/
def manifestFindService (manifest : SystemManifest) (sid : Nat) : Option Nat :=
  manifest.partitions.findIdx? fun partition =>
    partition.services.any fun service => service.sid == sid

def partitionUniquenessCheck (earlier : List PartitionManifest)
    (partition : PartitionManifest) : Except ManifestError Unit :=
  checkAll (fun other : PartitionManifest =>
    require (!(manifestStringEqual partition.name other.name ||
      partition.domainId == other.domainId)) .partitionId) earlier

def manifestValidatePartitionUniqueness (manifest : SystemManifest) : Except ManifestError Unit :=
  checkWithPrior partitionUniquenessCheck [] manifest.partitions

def manifestValidateDomainCoverage (manifest : SystemManifest) : Except ManifestError Unit :=
  checkAll (fun domain : DomainDescriptor =>
    require (!(domain.domainClass == .securePartition && !manifest.partitions.any fun partition =>
        partition.domainId == domain.id)) .partitionId) manifest.domains

def serviceUniquenessCheck (earlier : List ServiceDescriptor)
    (service : ServiceDescriptor) : Except ManifestError Unit :=
  checkAll (fun other : ServiceDescriptor => do
    require (!(service.sid == other.sid || manifestStringEqual service.name other.name)) .serviceId
    require (!(service.statelessHandleIndex != 0 &&
      service.statelessHandleIndex == other.statelessHandleIndex))
      .statelessHandle) earlier

/-- Every service against those of earlier partitions and the earlier ones of
its own, which is the order of the flattened service list. -/
def manifestValidateServiceUniqueness (manifest : SystemManifest) : Except ManifestError Unit :=
  checkWithPrior serviceUniquenessCheck []
    (manifest.partitions.flatMap fun partition => partition.services)

def partitionSymbolCheck (partition other : PartitionManifest) : Except ManifestError Unit := do
  require (!manifestPartitionSymbolCollision partition.name other) .symbol
  checkAll (fun service =>
    require (!(manifestServiceSymbolCollision partition.name other service ||
      manifestServiceModelSymbolCollision partition other service)) .symbol)
    other.services
  checkAll (fun interrupt : ManifestInterrupt =>
    require (!manifestStringEqual partition.name interrupt.signalName) .symbol) other.interrupts

def interruptSymbolCheck (manifest : SystemManifest)
    (earlier : List ManifestInterrupt) (interrupt : ManifestInterrupt) :
    Except ManifestError Unit := do
  checkAll (fun other => do
    require (!manifestPartitionSymbolCollision interrupt.signalName other) .symbol
    checkAll (fun service =>
      require (!manifestServiceSymbolCollision interrupt.signalName other
        service) .symbol) other.services) manifest.partitions
  checkAll (fun other : ManifestInterrupt =>
    require (!manifestStringEqual interrupt.signalName other.signalName) .symbol) earlier

def symbolCheck (manifest : SystemManifest)
    (earlier : List PartitionManifest) (partition : PartitionManifest) :
    Except ManifestError Unit := do
  checkAll (partitionSymbolCheck partition) manifest.partitions
  checkWithPrior (interruptSymbolCheck manifest)
    (earlier.flatMap fun other => other.interrupts) partition.interrupts

def manifestValidateSymbolUniqueness (manifest : SystemManifest) : Except ManifestError Unit :=
  checkWithPrior (symbolCheck manifest) [] manifest.partitions

/-- The working state of the dependency elimination: the edge matrix, the
removed partitions and their count. -/
structure Elimination where
  edges : Nat → Nat → Bool
  removed : Nat → Bool
  removedCount : Nat

/-- The edges partition `i` contributes, refused at the first dependency that
names no service of another partition. -/
def addDependencies (manifest : SystemManifest) (i : Nat) :
    List Nat → (Nat → Nat → Bool) → Except ManifestError (Nat → Nat → Bool)
  | [], edges => .ok edges
  | sid :: rest, edges =>
    match manifestFindService manifest sid with
    | none => .error .dependency
    | some target =>
      if target = i then .error .dependency
      else addDependencies manifest i rest fun a b =>
        if a = i ∧ b = target then true else edges a b

def addPartitionDependencies (manifest : SystemManifest) :
    Nat → List PartitionManifest → (Nat → Nat → Bool) → Except ManifestError (Nat → Nat → Bool)
  | _, [], edges => .ok edges
  | i, partition :: rest, edges =>
    match addDependencies manifest i partition.dependencies edges with
    | .error e => .error e
    | .ok edges' => addPartitionDependencies manifest (i + 1) rest edges'

/-- One visit of the elimination pass: a remaining partition without an edge
to a remaining one is removed. -/
def eliminateAt (count : Nat) (state : Elimination × Bool) (i : Nat) : Elimination × Bool :=
  let s := state.1
  if s.removed i then state
  else if (List.range count).any fun j => !s.removed j && s.edges i j then state
  else
    ({ edges := fun a b => if b = i ∧ a < count then false else s.edges a b
       removed := fun a => if a = i then true else s.removed a
       removedCount := s.removedCount + 1 }, true)

def eliminationPass (count : Nat) (s : Elimination) : Elimination × Bool :=
  (List.range count).foldl (eliminateAt count) (s, false)

/-- The `do … while (progress)` loop; every repetition follows a removal, so
`count + 1` passes reach its end. -/
def eliminationLoop (count : Nat) : Nat → Elimination → Elimination
  | 0, s => s
  | fuel + 1, s =>
    let pass := eliminationPass count s
    if pass.2 then eliminationLoop count fuel pass.1 else pass.1

def manifestValidateDependencies (manifest : SystemManifest) : Except ManifestError Unit :=
  let count := manifest.partitions.length
  match addPartitionDependencies manifest 0 manifest.partitions (fun _ _ => false) with
  | .error e => .error e
  | .ok edges =>
    let final := eliminationLoop count (count + 1)
      { edges := edges, removed := fun _ => false, removedCount := 0 }
    require (final.removedCount == count) .dependencyCycle

def manifestValidate (manifest : SystemManifest) (supportedFeatures : Word)
    (platform : ProfileCapabilities) : Except ManifestError Unit := do
  manifestValidateHeader manifest supportedFeatures platform
  checkAll (manifestValidatePartitionHeader manifest) manifest.partitions
  manifestValidatePartitionUniqueness manifest
  manifestValidateDomainCoverage manifest
  checkAll (manifestValidatePartition manifest) manifest.partitions
  manifestValidateServiceUniqueness manifest
  manifestValidateSymbolUniqueness manifest
  manifestValidateDependencies manifest

end WolfTrust.Manifest
