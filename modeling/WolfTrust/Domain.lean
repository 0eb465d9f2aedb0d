import Mathlib.Data.BitVec
import WolfTrust.Validation

/-!
Isolation domains and the checks a set of them must pass (`src/domain.c`).
Addresses and sizes are the 32-bit words of the target; a table and its element
count are one list, so the null-table branches have no counterpart here, and
the range checks on enumerators are the types themselves.
-/

namespace WolfTrust.Domain

open Validation

/-- A 32-bit word of flag bits. -/
abbrev Word := BitVec 32

def uintptrMax : Nat := 2 ^ 32 - 1

/-- `uintptr_t` addition, which wraps at the top of the address space. -/
def addPtr (base size : Nat) : Nat := (base + size) % 2 ^ 32

/-- `(flags & mask) != 0` -/
def anySet (flags mask : Word) : Bool := flags &&& mask != 0

/-- `(flags & mask) == mask` -/
def allSet (flags mask : Word) : Bool := flags &&& mask == mask

def domainIdInvalid : Nat := 2 ^ 32 - 1
def resourceShareNone : Nat := 0

def memoryAttrRead : Word := 0x1
def memoryAttrWrite : Word := 0x2
def memoryAttrExecute : Word := 0x4
def memoryAttrDevice : Word := 0x8
def memoryAttrRestartClear : Word := 0x10
def memoryAttrShared : Word := 0x20
def memoryAttrMask : Word := 0x3F

def interruptAttrShared : Word := 0x1
def interruptAttrMask : Word := interruptAttrShared

def capabilitySecurityState : Word := 0x1
def capabilityPrivilegeState : Word := 0x2
def capabilityRotIsolation : Word := 0x4
def capabilityDomainIsolation : Word := 0x8
def capabilityMemoryProtection : Word := 0x10
def capabilityInterruptIsolation : Word := 0x20
def capabilityRestart : Word := 0x40
def capabilityMask : Word := 0x7F

inductive DomainClass
  | spm
  | securePartition
  | nonsecureApplication
  deriving DecidableEq, Repr

inductive RotRole
  | none
  | spm
  | prot
  | arot
  deriving DecidableEq, Repr

inductive SecurityState
  | secure
  | nonsecure
  deriving DecidableEq, Repr

inductive PrivilegeState
  | privileged
  | unprivileged
  deriving DecidableEq, Repr

inductive DomainLifecycle
  | stopped
  | ready
  | running
  | blocked
  | faulted
  | restarting
  deriving DecidableEq, Repr

inductive RestartAction
  | never
  | domain
  | platform
  deriving DecidableEq, Repr

inductive IsolationProfile
  | serviceOnly
  | level1
  | level2
  | level3
  deriving DecidableEq, Repr

structure MemoryResource where
  base : Nat
  size : Nat
  attributes : Word
  shareId : Nat
  deriving DecidableEq, Repr

structure InterruptResource where
  interrupt : Nat
  attributes : Word
  shareId : Nat
  deriving DecidableEq, Repr

structure RestartPolicy where
  action : RestartAction
  restartLimit : Nat
  restartWindowTicks : Nat
  initialDelayTicks : Nat
  deriving DecidableEq, Repr

structure DomainDescriptor where
  id : Nat
  domainClass : DomainClass
  rotRole : RotRole
  securityState : SecurityState
  privilegeState : PrivilegeState
  initialLifecycle : DomainLifecycle
  entryPoint : Nat
  stackBase : Nat
  stackSize : Nat
  memoryResources : List MemoryResource
  interruptResources : List InterruptResource
  restartPolicy : RestartPolicy
  requiredCapabilities : Word
  launchRequired : Nat
  deriving DecidableEq, Repr

structure ProfileCapabilities where
  capabilities : Word
  maxDomains : Nat
  maxMemoryResourcesPerDomain : Nat
  maxInterruptsPerDomain : Nat
  deriving DecidableEq, Repr

inductive DomainError
  | count
  | profile
  | capability
  | id
  | rotRole
  | securityState
  | privilegeState
  | lifecycle
  | restartPolicy
  | memoryCount
  | emptyRegion
  | addressOverflow
  | memoryAttributes
  | writeExecute
  | entryPoint
  | stack
  | overlap
  | sharing
  | interruptCount
  | interrupt
  | interruptOwnership
  | spmCount
  | launchPolicy
  | isolation
  deriving DecidableEq, Repr

/-- The end of `[base, base + size)`, refused when empty or past the top. -/
def rangeEnd (base size : Nat) : Except DomainError Nat :=
  if size = 0 then .error .emptyRegion
  else if size > uintptrMax - base then .error .addressOverflow
  else .ok (addPtr base size)

def profileRequiredCapabilities : IsolationProfile → Except DomainError Word
  | .serviceOnly => .ok 0
  | .level3 => .ok (capabilitySecurityState ||| capabilityPrivilegeState |||
      capabilityRotIsolation ||| capabilityDomainIsolation |||
      capabilityMemoryProtection ||| capabilityInterruptIsolation)
  | .level1 => .error .profile
  | .level2 => .error .profile

def domainValidateIdentity (domain : DomainDescriptor) : Except DomainError Unit := do
  require (domain.id != domainIdInvalid) .id
  require (domain.initialLifecycle == .stopped || domain.initialLifecycle == .ready) .lifecycle
  match domain.domainClass with
  | .spm =>
    require (domain.rotRole == .spm) .rotRole
    require (domain.securityState == .secure) .securityState
    require (domain.privilegeState == .privileged) .privilegeState
  | .securePartition =>
    require (domain.rotRole == .prot || domain.rotRole == .arot) .rotRole
    require (domain.securityState == .secure) .securityState
    require (domain.privilegeState == .unprivileged) .privilegeState
  | .nonsecureApplication =>
    require (domain.rotRole == .none) .rotRole
    require (domain.securityState == .nonsecure) .securityState

def domainValidateLaunch (domain : DomainDescriptor) : Except DomainError Unit := do
  require (domain.launchRequired ≤ 1) .launchPolicy
  require (!(domain.launchRequired == 1 &&
    domain.domainClass != .nonsecureApplication)) .launchPolicy

def domainValidateRestart (domain : DomainDescriptor) : Except DomainError Unit :=
  let policy := domain.restartPolicy
  if policy.action = .domain then
    require (policy.restartLimit != 0 && policy.restartWindowTicks != 0) .restartPolicy
  else
    require (policy.restartLimit == 0 && policy.restartWindowTicks == 0 &&
      policy.initialDelayTicks == 0) .restartPolicy

def mpuGranule : Nat := 32

def memoryResourceValidate (resource : MemoryResource) : Except DomainError Unit := do
  let _ ← rangeEnd resource.base resource.size
  require (resource.base % mpuGranule == 0 && resource.size % mpuGranule == 0) .memoryAttributes
  require (!anySet resource.attributes (~~~memoryAttrMask)) .memoryAttributes
  require (anySet resource.attributes (memoryAttrRead ||| memoryAttrWrite ||| memoryAttrExecute))
    .memoryAttributes
  require (!(anySet resource.attributes memoryAttrDevice &&
    anySet resource.attributes memoryAttrExecute)) .memoryAttributes
  require (!(anySet resource.attributes memoryAttrRestartClear &&
    !anySet resource.attributes memoryAttrWrite)) .memoryAttributes
  require (!allSet resource.attributes (memoryAttrWrite ||| memoryAttrExecute)) .writeExecute
  if anySet resource.attributes memoryAttrShared then
    require (resource.shareId != resourceShareNone) .sharing
  else
    require (resource.shareId == resourceShareNone) .sharing

/-- The entry point lies in an executable resource and the whole stack in one
private read-write resource. -/
def domainValidateEntryAndStack (domain : DomainDescriptor) : Except DomainError Unit :=
  match rangeEnd domain.stackBase domain.stackSize with
  | .error .emptyRegion => .error .stack
  | .error e => .error e
  | .ok stackEnd => do
      require (domain.memoryResources.any fun resource =>
        anySet resource.attributes memoryAttrExecute && resource.base ≤ domain.entryPoint &&
          domain.entryPoint < addPtr resource.base resource.size) .entryPoint
      require (domain.memoryResources.any fun resource =>
        allSet resource.attributes (memoryAttrRead ||| memoryAttrWrite) &&
          !anySet resource.attributes
            (memoryAttrExecute ||| memoryAttrDevice ||| memoryAttrShared) &&
          resource.base ≤ domain.stackBase &&
          stackEnd ≤ addPtr resource.base resource.size) .stack

def memoryResourcesOverlap (first second : MemoryResource) : Bool :=
  first.base < addPtr second.base second.size && second.base < addPtr first.base first.size

def memoryResourcesShared (first second : MemoryResource) : Bool :=
  anySet first.attributes memoryAttrShared && anySet second.attributes memoryAttrShared &&
    first.shareId == second.shareId &&
    first.shareId != resourceShareNone &&
    first.base == second.base && first.size == second.size &&
    first.attributes == second.attributes

def memoryResourceCheck (earlier : List MemoryResource)
    (resource : MemoryResource) : Except DomainError Unit := do
  memoryResourceValidate resource
  checkAll (fun other => require (!memoryResourcesOverlap resource other) .overlap) earlier

def interruptResourceCheck (earlier : List InterruptResource)
    (interrupt : InterruptResource) : Except DomainError Unit := do
  require (interrupt.interrupt != 2 ^ 32 - 1 &&
    !anySet interrupt.attributes (~~~interruptAttrMask)) .interrupt
  if anySet interrupt.attributes interruptAttrShared then
    require (interrupt.shareId != resourceShareNone) .interruptOwnership
  else
    require (interrupt.shareId == resourceShareNone) .interruptOwnership
  checkAll (fun other => require (interrupt.interrupt != other.interrupt)
    .interruptOwnership) earlier

def domainValidateResources (caps : ProfileCapabilities)
    (domain : DomainDescriptor) : Except DomainError Unit := do
  require (domain.memoryResources.length != 0 &&
    domain.memoryResources.length ≤ caps.maxMemoryResourcesPerDomain)
    .memoryCount
  require (domain.interruptResources.length ≤ caps.maxInterruptsPerDomain) .interruptCount
  checkWithPrior memoryResourceCheck [] domain.memoryResources
  checkWithPrior interruptResourceCheck [] domain.interruptResources
  domainValidateEntryAndStack domain

/-- Isolation level 3: a writable resource may be shared only with the SPM.
Shared devices answer to the FF-M resource-ownership rule instead. -/
def domainPairIsolated (profile : IsolationProfile)
    (first second : DomainDescriptor) (resource : MemoryResource) : Bool :=
  if profile ≠ .level3 then true
  else if !anySet resource.attributes memoryAttrWrite then true
  else if anySet resource.attributes memoryAttrDevice then true
  else if first.domainClass = .spm ∨ second.domainClass = .spm then true
  else if first.domainClass ≠ .securePartition ∧ second.domainClass ≠ .securePartition then true
  else false

def memoryPairCheck (profile : IsolationProfile) (first second : DomainDescriptor)
    (r s : MemoryResource) : Except DomainError Unit :=
  if !memoryResourcesOverlap r s then .ok ()
  else if !memoryResourcesShared r s then
    if anySet r.attributes memoryAttrShared ||
        anySet s.attributes memoryAttrShared then .error .sharing
    else .error .overlap
  else require (domainPairIsolated profile first second r) .isolation

def interruptPairCheck (r s : InterruptResource) : Except DomainError Unit :=
  require (!(r.interrupt == s.interrupt && !(anySet r.attributes interruptAttrShared &&
      anySet s.attributes interruptAttrShared &&
      r.shareId == s.shareId && r.shareId != resourceShareNone)))
    .interruptOwnership

def domainValidatePair (profile : IsolationProfile)
    (first second : DomainDescriptor) : Except DomainError Unit := do
  require (first.id != second.id) .id
  checkAll (fun r => checkAll (memoryPairCheck profile first second r)
    second.memoryResources) first.memoryResources
  checkAll (fun r => checkAll (interruptPairCheck r)
    second.interruptResources) first.interruptResources

/-- The checks the second pass of `wt_domain_validate_set` makes of one domain
and of it against every domain before it. -/
def domainCheck (profile : IsolationProfile) (caps : ProfileCapabilities)
    (earlier : List DomainDescriptor) (domain : DomainDescriptor) :
    Except DomainError Unit := do
  domainValidateRestart domain
  domainValidateLaunch domain
  require (!anySet domain.requiredCapabilities (~~~capabilityMask) &&
    allSet caps.capabilities domain.requiredCapabilities) .capability
  require (!(domain.restartPolicy.action == .domain &&
    !anySet caps.capabilities capabilityRestart)) .capability
  require (!(domain.memoryResources.length != 0 &&
    !anySet caps.capabilities capabilityMemoryProtection)) .capability
  require (!(domain.interruptResources.length != 0 &&
    !anySet caps.capabilities capabilityInterruptIsolation)) .capability
  domainValidateResources caps domain
  checkAll (domainValidatePair profile domain) earlier

def domainValidateSet (domains : List DomainDescriptor)
    (profile : IsolationProfile) (caps : ProfileCapabilities) :
    Except DomainError Unit := do
  require (domains.length != 0 && domains.length ≤ caps.maxDomains) .count
  require (!anySet caps.capabilities (~~~capabilityMask)) .capability
  let profileRequired ← profileRequiredCapabilities profile
  require (allSet caps.capabilities profileRequired) .capability
  checkAll domainValidateIdentity domains
  require (profile == .serviceOnly ||
    domains.countP (fun domain => domain.domainClass == .spm) == 1) .spmCount
  checkWithPrior (domainCheck profile caps) [] domains

end WolfTrust.Domain
