import WolfTrust.SpmSched

namespace WolfTrust.GuestBinding

open Domain Manifest SpmGate SpmSched

def maxMemoryWindows : Nat := 8
def maxIrqWords : Nat := 8
def gtzcMpcbbBlock : Nat := 512
def usartRegionSize : Nat := 0x400

def portCapabilityVectorReadAlias : Word := 0x1
def portCapabilityNsDomainProgramming : Word := 0x2
def portCapabilityTzFilter : Word := 0x4
def portCapabilityAll : Word :=
  portCapabilityVectorReadAlias ||| portCapabilityNsDomainProgramming ||| portCapabilityTzFilter

inductive PortError
  | argument
  | capability
  | vectorAlias
  deriving DecidableEq, Repr

structure GuestPortBinding where
  requiredCapabilities : Word
  providedCapabilities : Word
  vectorReadAddress : Nat
  deriving DecidableEq, Repr

structure GuestConfig where
  guestId : Nat
  vectorTable : Nat
  initialMspNs : Nat
  irqMask : List Word
  memoryWindows : List MemoryResource
  memoryRegions : List MemoryRegion
  restartLimit : Nat
  restartWindowTicks : Nat
  initialDelayTicks : Nat
  initialState : DomainLifecycle
  launchRequired : Nat
  port : GuestPortBinding
  deriving DecidableEq, Repr

/-- The build's addresses: the console of guest zero, that of the others, and
the window of the gateway veneers. -/
structure Board where
  guest0UsartBase : Nat
  guest1UsartBase : Nat
  flashNscBase : Nat
  flashNscEnd : Nat
  deriving DecidableEq, Repr

def partitionValidatePortBinding (config : GuestConfig)
    (domain : DomainDescriptor) : Except PortError Unit :=
  let port := config.port
  if config.memoryWindows.length > maxMemoryWindows ∨
      config.memoryRegions.length > maxMemoryRegions then .error .argument
  else if anySet (port.requiredCapabilities ||| port.providedCapabilities) (~~~portCapabilityAll) ∨
      !allSet port.providedCapabilities port.requiredCapabilities then
    .error .capability
  else if anySet port.requiredCapabilities portCapabilityVectorReadAlias ∧
      (port.vectorReadAddress = 0 ∨ port.vectorReadAddress % 4 ≠ 0 ∨
        port.vectorReadAddress = config.vectorTable) then
    .error .vectorAlias
  else if config.memoryRegions.length ≠ 0 ∧
      !anySet port.providedCapabilities portCapabilityNsDomainProgramming then
    .error .capability
  else if domain.memoryResources.any fun resource =>
      anySet resource.attributes memoryAttrWrite &&
        !anySet port.providedCapabilities portCapabilityTzFilter then
    .error .capability
  else .ok ()

def mpuAttributes : Word :=
  memAttrRead ||| memAttrWrite ||| memAttrExec ||| memAttrDevice

def guestRegion (resource : MemoryResource) : MemoryRegion :=
  { base := resource.base, size := resource.size
    attributes := resource.attributes &&& mpuAttributes }

/-- One resource: the console is the only device, and all other resources are
memory windows, of which the guest has a fixed number. A writable window owns
whole blocks of the security attribution. -/
def bindResource (usartBase windowCount : Nat) (bound : List MemoryResource × List MemoryRegion)
    (resource : MemoryResource) : Option (List MemoryResource × List MemoryRegion) :=
  if anySet resource.attributes memAttrDevice then
    if resource.base ≠ usartBase ∨ resource.size ≠ usartRegionSize then none
    else some (bound.1, bound.2 ++ [guestRegion resource])
  else if bound.1.length ≥ windowCount then none
  else if anySet resource.attributes memAttrWrite ∧ (resource.base % gtzcMpcbbBlock ≠ 0 ∨
        addPtr resource.base resource.size % gtzcMpcbbBlock ≠ 0) then none
  else some (bound.1 ++ [resource], bound.2 ++ [guestRegion resource])

/-- The window of the veneers, which every guest may fetch from. -/
def nscRegion (board : Board) : MemoryRegion :=
  { base := board.flashNscBase
    size := board.flashNscEnd - board.flashNscBase + 1
    attributes := memAttrRead ||| memAttrExec }

def setIrq (mask : List Word) (irq : Nat) : Option (List Word) :=
  if irq / 32 ≥ maxIrqWords then none
  else some (mask.modify (irq / 32) fun word => word ||| 1 <<< (irq % 32))

structure BoundGuest where
  config : GuestConfig
  execBase : Nat
  execSize : Nat
  deriving DecidableEq, Repr

/-- The binding of a guest, over the port's rule for a resource. -/
def bindGuestWith (bindResource : Nat → Nat → List MemoryResource × List MemoryRegion →
      MemoryResource → Option (List MemoryResource × List MemoryRegion))
    (board : Board) (manifest : SystemManifest) (config : GuestConfig) :
    Option BoundGuest :=
  if config.guestId = domainIdInvalid then none
  else
    match manifest.domains.find? fun domain =>
        domain.id == addPtr config.guestId 1 with
    | none => none
    | some domain =>
      if domain.domainClass ≠ .nonsecureApplication ∨ domain.securityState ≠ .nonsecure ∨
          domain.privilegeState ≠ .privileged ∨
          domain.restartPolicy.action ≠ .domain then none
      else if !(partitionValidatePortBinding config domain).isOk then none
      else if domain.memoryResources.length > maxMemoryRegions - 1 then none
      else
        let usartBase :=
          if config.guestId = 0 then board.guest0UsartBase
          else board.guest1UsartBase
        match domain.memoryResources.foldlM (bindResource usartBase config.memoryWindows.length)
            ([], []) with
        | none => none
        | some (windows, regions) =>
          if windows.length ≠ config.memoryWindows.length then none
          else if domain.entryPoint = 0 ∨
              domain.interruptResources.length > maxIrqWords * 32 then none
          else
            match (domain.interruptResources.map (·.interrupt)).foldlM
                setIrq (List.replicate maxIrqWords 0),
              domain.memoryResources.find? fun resource =>
                anySet resource.attributes memAttrExec with
            | some irqMask, some executable =>
              if executable.size = 0 then none
              else if domain.stackBase > uintptrMax - domain.stackSize
              then none
              else
                some
                  { config :=
                      { config with
                        restartLimit := domain.restartPolicy.restartLimit
                        restartWindowTicks :=
                          domain.restartPolicy.restartWindowTicks
                        initialDelayTicks :=
                          domain.restartPolicy.initialDelayTicks
                        initialState := domain.initialLifecycle
                        launchRequired := domain.launchRequired
                        memoryWindows := windows
                        memoryRegions := regions ++ [nscRegion board]
                        irqMask
                        initialMspNs :=
                          domain.stackBase + domain.stackSize }
                    execBase := executable.base
                    execSize := executable.size }
            | _, _ => none

/-- What a guest is bound to: its domain, and what the port's rule made of the
domain's resources. -/
structure BoundTo
    (bindResource : Nat → Nat → List MemoryResource × List MemoryRegion →
      MemoryResource → Option (List MemoryResource × List MemoryRegion))
    (board : Board) (manifest : SystemManifest) (config guest : GuestConfig)
    (domain : DomainDescriptor) (usartBase : Nat)
    (regions : List MemoryRegion) : Prop where
  same : guest.guestId = config.guestId
  find : manifest.domains.find? (fun d => d.id == addPtr config.guestId 1) = some domain
  level : domain.privilegeState = .privileged
  few : domain.memoryResources.length < maxMemoryRegions
  resources : domain.memoryResources.foldlM
    (bindResource usartBase config.memoryWindows.length) ([], []) =
      some (guest.memoryWindows, regions)
  count : guest.memoryWindows.length = config.memoryWindows.length
  regions : guest.memoryRegions = regions ++ [nscRegion board]

theorem bindGuestWith_eq_some
    {bindResource : Nat → Nat → List MemoryResource × List MemoryRegion →
      MemoryResource → Option (List MemoryResource × List MemoryRegion)}
    {board : Board} {manifest : SystemManifest} {config : GuestConfig}
    {guest : BoundGuest}
    (h : bindGuestWith bindResource board manifest config = some guest) :
    ∃ domain usartBase regions, BoundTo bindResource board manifest config
      guest.config domain usartBase regions := by
  unfold bindGuestWith at h
  split at h
  · cases h
  split at h
  · cases h
  rename_i domain hfind
  split at h
  · cases h
  rename_i hclass
  split at h
  · cases h
  split at h
  · cases h
  rename_i hfew
  dsimp only at h
  generalize (if config.guestId = 0 then board.guest0UsartBase
    else board.guest1UsartBase) = usartBase at h
  split at h
  · cases h
  rename_i windows regions hbound
  split at h
  · cases h
  rename_i hcount
  split at h
  · cases h
  split at h
  · split at h
    · cases h
    split at h
    · cases h
    cases h
    push Not at hclass
    have hroom : domain.memoryResources.length < maxMemoryRegions := by
      unfold maxMemoryRegions at hfew ⊢
      omega
    exact ⟨domain, usartBase, regions, rfl, hfind, hclass.2.2.1, hroom, hbound,
      not_not.mp hcount, rfl⟩
  · cases h

def bindGuest (board : Board) (manifest : SystemManifest)
    (config : GuestConfig) : Option BoundGuest :=
  bindGuestWith bindResource board manifest config

/-- `wt_partitions_bind_manifest` -/
def partitionsBindManifest (board : Board) (configs : List GuestConfig)
    (manifest : SystemManifest) : Option (List BoundGuest) :=
  configs.mapM (bindGuest board manifest)

end WolfTrust.GuestBinding
