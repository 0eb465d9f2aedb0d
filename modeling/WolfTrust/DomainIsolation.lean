import WolfTrust.Manifest
import WolfTrust.SignalBits

namespace WolfTrust.DomainIsolation

open Validation Domain Manifest SignalBits

/-- The addresses of a resource, without wrap-around. -/
def Contains (resource : MemoryResource) (address : Nat) : Prop :=
  resource.base ≤ address ∧ address < resource.base + resource.size

/-- The address lies in a resource of the domain with one of these attribute bits. -/
def Accessible (domain : DomainDescriptor) (access : Word) (address : Nat) : Prop :=
  ∃ resource ∈ domain.memoryResources, Contains resource address ∧ anySet resource.attributes access

theorem rangeEnd_eq_ok {base size stop : Nat} (h : rangeEnd base size = .ok stop) :
    0 < size ∧ base + size ≤ uintptrMax := by
  unfold rangeEnd at h
  split at h
  · cases h
  · split at h
    · cases h
    · omega

theorem memoryResourceValidate_eq_ok {resource : MemoryResource}
    (h : memoryResourceValidate resource = .ok ()) :
    resource.base + resource.size ≤ uintptrMax ∧
      allSet resource.attributes (memoryAttrWrite ||| memoryAttrExecute) =
        false := by
  unfold memoryResourceValidate at h
  rcases hend : rangeEnd resource.base resource.size with e | stop
  · rw [hend] at h
    cases h
  · rw [hend] at h
    change (require _ _ >>= fun _ => _) = _ at h
    simp only [then_eq_ok_iff, require_eq_ok_iff, Bool.not_eq_true'] at h
    exact ⟨(rangeEnd_eq_ok hend).2, h.2.2.2.2.2.1⟩

theorem addPtr_eq_of_le {base size : Nat} (h : base + size ≤ uintptrMax) :
    addPtr base size = base + size := by
  unfold addPtr
  unfold uintptrMax at h
  exact Nat.mod_eq_of_lt (by omega)

variable {first second : DomainDescriptor} {address : Nat}

theorem overlap_of_contains {r s : MemoryResource}
    (hr : r.base + r.size ≤ uintptrMax) (hs : s.base + s.size ≤ uintptrMax)
    (hra : Contains r address) (hsa : Contains s address) : memoryResourcesOverlap r s = true := by
  obtain ⟨hr1, hr2⟩ := hra
  obtain ⟨hs1, hs2⟩ := hsa
  simp only [memoryResourcesOverlap, addPtr_eq_of_le hr, addPtr_eq_of_le hs,
    Bool.and_eq_true, decide_eq_true_eq]
  omega

theorem allSet_write_execute {flags : Word} (hw : anySet flags memoryAttrWrite = true)
    (hx : anySet flags memoryAttrExecute = true) :
    allSet flags (memoryAttrWrite ||| memoryAttrExecute) = true := by
  have hwrite : memoryAttrWrite = BitVec.twoPow 32 1 := by decide
  have hexecute : memoryAttrExecute = BitVec.twoPow 32 2 := by decide
  simp only [anySet, bne_iff_ne, hwrite, hexecute] at hw hx
  simp only [allSet, beq_iff_eq, hwrite, hexecute, BitVec.and_or_distrib_left,
    and_twoPow_of_ne_zero hw, and_twoPow_of_ne_zero hx]

theorem memoryResourcesShared_eq_true {r s : MemoryResource}
    (h : memoryResourcesShared r s = true) :
    r = s ∧ anySet r.attributes memoryAttrShared = true ∧ r.shareId ≠ resourceShareNone := by
  obtain ⟨base, size, attributes, shareId⟩ := r
  obtain ⟨base', size', attributes', shareId'⟩ := s
  simp only [memoryResourcesShared, Bool.and_eq_true, beq_iff_eq, bne_iff_ne] at h
  obtain ⟨⟨⟨⟨⟨⟨hshared, -⟩, rfl⟩, hid⟩, rfl⟩, rfl⟩, rfl⟩ := h
  exact ⟨rfl, hshared, hid⟩

theorem memoryPairCheck_eq_ok {profile : IsolationProfile}
    {r s : MemoryResource} (h : memoryPairCheck profile first second r s = .ok ())
    (hoverlap : memoryResourcesOverlap r s = true) :
    memoryResourcesShared r s = true ∧ domainPairIsolated profile first second r = true := by
  unfold memoryPairCheck at h
  rw [hoverlap] at h
  cases hshared : memoryResourcesShared r s with
  | false =>
    simp only [hshared, Bool.not_true, Bool.not_false, if_true, Bool.false_eq_true, if_false] at h
    split at h <;> cases h
  | true => simpa [hshared] using h

theorem domainPairIsolated_comm (profile : IsolationProfile)
    (first second : DomainDescriptor) (r : MemoryResource) :
    domainPairIsolated profile first second r = domainPairIsolated profile second first r := by
  unfold domainPairIsolated
  simp only [or_comm, and_comm]

/-- Two domains compared by the pair check, in whichever order. -/
def PairChecked (profile : IsolationProfile) (first second : DomainDescriptor) : Prop :=
  domainValidatePair profile first second = .ok () ∨
    domainValidatePair profile second first = .ok ()

theorem domainValidatePair_eq_ok {profile : IsolationProfile}
    (h : domainValidatePair profile first second = .ok ()) :
    (∀ r ∈ first.memoryResources, ∀ s ∈ second.memoryResources,
      memoryPairCheck profile first second r s = .ok ()) ∧
    ∀ x ∈ first.interruptResources, ∀ y ∈ second.interruptResources,
      interruptPairCheck x y = .ok () := by
  simp only [domainValidatePair, then_eq_ok_iff, checkAll_eq_ok_iff] at h
  exact h.2

theorem PairChecked.memory {profile : IsolationProfile}
    (h : PairChecked profile first second) {r s : MemoryResource} (hr : r ∈ first.memoryResources)
    (hs : s ∈ second.memoryResources) (hoverlap : memoryResourcesOverlap r s = true) :
    (r = s ∧ anySet r.attributes memoryAttrShared = true ∧ r.shareId ≠ resourceShareNone) ∧
      domainPairIsolated profile first second r = true := by
  rcases h with h | h
  · obtain ⟨hshared, hisolated⟩ := memoryPairCheck_eq_ok
      ((domainValidatePair_eq_ok h).1 r hr s hs) hoverlap
    exact ⟨memoryResourcesShared_eq_true hshared, hisolated⟩
  · have hoverlap' : memoryResourcesOverlap s r = true := by
      simpa only [memoryResourcesOverlap, Bool.and_comm] using hoverlap
    obtain ⟨hshared, hisolated⟩ := memoryPairCheck_eq_ok
      ((domainValidatePair_eq_ok h).1 s hs r hr) hoverlap'
    obtain ⟨rfl, hrest⟩ := memoryResourcesShared_eq_true hshared
    exact ⟨⟨rfl, hrest⟩, by rw [domainPairIsolated_comm]; exact hisolated⟩

theorem PairChecked.interrupt {profile : IsolationProfile}
    (h : PairChecked profile first second) {x y : InterruptResource}
    (hx : x ∈ first.interruptResources) (hy : y ∈ second.interruptResources)
    (hxy : x.interrupt = y.interrupt) : anySet x.attributes interruptAttrShared = true := by
  rcases h with h | h
  · have hpair := (domainValidatePair_eq_ok h).2 x hx y hy
    simp only [interruptPairCheck, require_eq_ok_iff, hxy] at hpair
    simp_all
  · have hpair := (domainValidatePair_eq_ok h).2 y hy x hx
    simp only [interruptPairCheck, require_eq_ok_iff, hxy] at hpair
    simp_all

theorem domainCheck_eq_ok {profile : IsolationProfile} {caps : ProfileCapabilities}
    {earlier : List DomainDescriptor} {domain : DomainDescriptor}
    (h : domainCheck profile caps earlier domain = .ok ()) :
    checkWithPrior memoryResourceCheck [] domain.memoryResources = .ok () ∧
      ∀ other ∈ earlier, domainValidatePair profile domain other = .ok () := by
  simp only [domainCheck, domainValidateResources, then_eq_ok_iff, checkAll_eq_ok_iff] at h
  exact ⟨h.2.2.2.2.2.2.1.2.2.1, h.2.2.2.2.2.2.2⟩

theorem memoryResourceCheck_eq_ok {earlier : List MemoryResource} {resource : MemoryResource}
    (h : memoryResourceCheck earlier resource = .ok ()) :
    memoryResourceValidate resource = .ok () ∧
      ∀ other ∈ earlier, memoryResourcesOverlap resource other = false := by
  simpa only [memoryResourceCheck, then_eq_ok_iff, checkAll_eq_ok_iff,
    require_eq_ok_iff, Bool.not_eq_true'] using h

theorem memoryResourceValidate_of_mem {table : List MemoryResource}
    (h : checkWithPrior memoryResourceCheck [] table = .ok ()) {r : MemoryResource}
    (hr : r ∈ table) : memoryResourceValidate r = .ok () := by
  obtain ⟨before, after, hsplit⟩ := List.append_of_mem hr
  exact (memoryResourceCheck_eq_ok ((checkWithPrior_eq_ok_iff _ _ _).mp h before r after hsplit)).1

theorem eq_of_contains {table : List MemoryResource}
    (h : checkWithPrior memoryResourceCheck [] table = .ok ())
    {r s : MemoryResource} (hr : r ∈ table) (hs : s ∈ table)
    (hra : Contains r address) (hsa : Contains s address) : r = s := by
  have hrangeR := (memoryResourceValidate_eq_ok (memoryResourceValidate_of_mem h hr)).1
  have hrangeS := (memoryResourceValidate_eq_ok (memoryResourceValidate_of_mem h hs)).1
  obtain ⟨i, hi, rfl⟩ := List.getElem_of_mem hr
  obtain ⟨j, hj, rfl⟩ := List.getElem_of_mem hs
  rcases lt_trichotomy i j with hij | rfl | hij
  · obtain ⟨before, hcheck, hmem⟩ := checkWithPrior_pair _ h hij hj
    have hapart := (memoryResourceCheck_eq_ok hcheck).2 _ hmem
    rw [overlap_of_contains hrangeS hrangeR hsa hra] at hapart
    cases hapart
  · rfl
  · obtain ⟨before, hcheck, hmem⟩ := checkWithPrior_pair _ h hij hi
    have hapart := (memoryResourceCheck_eq_ok hcheck).2 _ hmem
    rw [overlap_of_contains hrangeR hrangeS hra hsa] at hapart
    cases hapart

/-- The part of an accepted manifest the isolation argument rests on. -/
structure DomainsChecked (profile : IsolationProfile)
    (domains : List DomainDescriptor) : Prop where
  resources : ∀ d ∈ domains, checkWithPrior memoryResourceCheck [] d.memoryResources = .ok ()
  pairs : ∀ i j (hi : i < domains.length) (hj : j < domains.length), i ≠ j →
    PairChecked profile domains[i] domains[j]
  ownership : ∀ d ∈ domains, ffmResourceCheck d = .ok ()

theorem manifestValidate_domains {manifest : SystemManifest} {features : Word}
    {platform : ProfileCapabilities} (h : manifestValidate manifest features platform = .ok ()) :
    checkWithPrior (domainCheck manifest.isolationProfile platform) [] manifest.domains = .ok () ∧
      ∀ d ∈ manifest.domains, ffmResourceCheck d = .ok () := by
  simp only [manifestValidate, manifestValidateHeader, then_eq_ok_iff,
    mapError_eq_ok_iff, manifestValidateFfmResources, checkAll_eq_ok_iff] at h
  obtain ⟨⟨-, -, -, -, -, -, -, hset, hownership⟩, -⟩ := h
  refine ⟨?_, hownership⟩
  unfold domainValidateSet at hset
  rcases hprofile : profileRequiredCapabilities manifest.isolationProfile with e | required
  · simp only [hprofile, then_eq_ok_iff] at hset
    cases hset.2.2
  · simp only [hprofile, then_eq_ok_iff] at hset
    have hrest := hset.2.2
    change (require _ _ >>= fun _ => _) = _ at hrest
    simp only [then_eq_ok_iff] at hrest
    exact hrest.2.2.2

theorem domainsChecked_of_manifestValidate {manifest : SystemManifest} {features : Word}
    {platform : ProfileCapabilities} (h : manifestValidate manifest features platform = .ok ()) :
    DomainsChecked manifest.isolationProfile manifest.domains := by
  obtain ⟨hset, hownership⟩ := manifestValidate_domains h
  refine ⟨?_, ?_, hownership⟩
  · intro d hd
    obtain ⟨before, after, hsplit⟩ := List.append_of_mem hd
    exact (domainCheck_eq_ok ((checkWithPrior_eq_ok_iff _ _ _).mp hset before d after hsplit)).1
  · intro i j hi hj hij
    rcases Nat.lt_or_gt_of_ne hij with hlt | hgt
    · obtain ⟨before, hcheck, hmem⟩ := checkWithPrior_pair _ hset hlt hj
      exact .inr ((domainCheck_eq_ok hcheck).2 _ hmem)
    · obtain ⟨before, hcheck, hmem⟩ := checkWithPrior_pair _ hset hgt hi
      exact .inl ((domainCheck_eq_ok hcheck).2 _ hmem)

section Checked

variable {profile : IsolationProfile} {domains : List DomainDescriptor} {d : DomainDescriptor}
  {r : MemoryResource}

theorem DomainsChecked.validate (h : DomainsChecked profile domains) (hd : d ∈ domains)
    (hr : r ∈ d.memoryResources) : memoryResourceValidate r = .ok () :=
  memoryResourceValidate_of_mem (h.resources d hd) hr

theorem DomainsChecked.meet (h : DomainsChecked profile domains) {i j : Nat}
    (hi : i < domains.length) (hj : j < domains.length) (hij : i ≠ j) {r s : MemoryResource}
    (hr : r ∈ domains[i].memoryResources) (hs : s ∈ domains[j].memoryResources)
    (hra : Contains r address) (hsa : Contains s address) :
    (r = s ∧ anySet r.attributes memoryAttrShared = true ∧ r.shareId ≠ resourceShareNone) ∧
      domainPairIsolated profile domains[i] domains[j] r = true := by
  have hrangeR := (memoryResourceValidate_eq_ok (h.validate (List.getElem_mem hi) hr)).1
  have hrangeS := (memoryResourceValidate_eq_ok (h.validate (List.getElem_mem hj) hs)).1
  exact (h.pairs i j hi hj hij).memory hr hs (overlap_of_contains hrangeR hrangeS hra hsa)

theorem DomainsChecked.unshared (h : DomainsChecked profile domains)
    (hd : d ∈ domains) (hclass : d.domainClass = .securePartition) :
    (∀ r ∈ d.memoryResources, anySet r.attributes memoryAttrDevice = true →
      anySet r.attributes memoryAttrShared = false) ∧
    ∀ x ∈ d.interruptResources, anySet x.attributes interruptAttrShared = false := by
  have hcheck := h.ownership d hd
  simp only [ffmResourceCheck, hclass, then_eq_ok_iff, if_true,
    checkAll_eq_ok_iff, require_eq_ok_iff] at hcheck
  refine ⟨fun r hr hdevice => ?_, fun x hx => by simpa using hcheck.2.2 x hx⟩
  simpa [hdevice] using hcheck.2.1 r hr

theorem domainPairIsolated_level3 (h : domainPairIsolated .level3 first second r = true)
    (hfirst : first.domainClass = .securePartition) (hsecond : second.domainClass ≠ .spm)
    (hwrite : anySet r.attributes memoryAttrWrite = true) :
    anySet r.attributes memoryAttrDevice = true := by
  by_contra hdevice
  simp [domainPairIsolated, hfirst, hsecond, hwrite, hdevice] at h

/-- No resource is writable and executable, so two accesses through one
resource cannot be a write and a fetch. -/
theorem DomainsChecked.write_xor_execute (h : DomainsChecked profile domains) (hd : d ∈ domains)
    (hr : r ∈ d.memoryResources) (hwrite : anySet r.attributes memoryAttrWrite = true)
    (hexecute : anySet r.attributes memoryAttrExecute = true) : False := by
  have hnot := (memoryResourceValidate_eq_ok (h.validate hd hr)).2
  rw [allSet_write_execute hwrite hexecute] at hnot
  cases hnot

end Checked

/-- Isolation level 3, for every accepted manifest, every two of its domains
and every address. -/
theorem level3_isolation (manifest : SystemManifest) (features : Word)
    (platform : ProfileCapabilities)
    (haccept : manifestValidate manifest features platform = .ok ())
    (hlevel : manifest.isolationProfile = .level3) (i j : Nat) (hi : i < manifest.domains.length)
    (hj : j < manifest.domains.length) (address : Nat) :
    (i ≠ j → manifest.domains[i].domainClass = .securePartition →
      manifest.domains[j].domainClass ≠ .spm →
      Accessible manifest.domains[i] memoryAttrWrite address →
      ∀ s ∈ manifest.domains[j].memoryResources, ¬ Contains s address) ∧
    (Accessible manifest.domains[i] memoryAttrWrite address →
      ¬ Accessible manifest.domains[j] memoryAttrExecute address) ∧
    (i ≠ j → ∀ r ∈ manifest.domains[i].memoryResources, ∀ s ∈ manifest.domains[j].memoryResources,
      Contains r address → Contains s address →
      r = s ∧ anySet r.attributes memoryAttrShared = true ∧ r.shareId ≠ resourceShareNone) ∧
    (i ≠ j → manifest.domains[i].domainClass = .securePartition →
      ∀ x ∈ manifest.domains[i].interruptResources,
      ∀ y ∈ manifest.domains[j].interruptResources,
      x.interrupt ≠ y.interrupt) := by
  have h := domainsChecked_of_manifestValidate haccept
  rw [hlevel] at h
  have hmi := List.getElem_mem hi
  have hmj := List.getElem_mem hj
  refine ⟨?_, ?_, ?_, ?_⟩
  · rintro hij hclass hspm ⟨r, hr, hra, hwrite⟩ s hs hsa
    obtain ⟨⟨-, hshared, -⟩, hisolated⟩ := h.meet hi hj hij hr hs hra hsa
    have hdevice := domainPairIsolated_level3 hisolated hclass hspm hwrite
    rw [(h.unshared hmi hclass).1 r hr hdevice] at hshared
    cases hshared
  · rintro ⟨r, hr, hra, hwrite⟩ ⟨s, hs, hsa, hexecute⟩
    have hrs : r = s := by
      by_cases hij : i = j
      · subst hij
        exact eq_of_contains (h.resources _ hmi) hr hs hra hsa
      · exact (h.meet hi hj hij hr hs hra hsa).1.1
    exact h.write_xor_execute hmi hr hwrite (hrs ▸ hexecute)
  · intro hij r hr s hs hra hsa
    exact (h.meet hi hj hij hr hs hra hsa).1
  · intro hij hclass x hx y hy hxy
    have hshared := (h.pairs i j hi hj hij).interrupt hx hy hxy
    rw [(h.unshared hmi hclass).2 x hx] at hshared
    cases hshared

def sampleRegions (code data : Nat) : List MemoryResource :=
  [{ base := code, size := 0x1000,
     attributes := memoryAttrRead ||| memoryAttrExecute, shareId := 0 },
   { base := data, size := 0x1000,
     attributes := memoryAttrRead ||| memoryAttrWrite, shareId := 0 }]

def sampleConstants : MemoryResource :=
  { base := 0x50000, size := 0x100,
    attributes := memoryAttrRead ||| memoryAttrShared, shareId := 7 }

def sampleDevice : MemoryResource :=
  { base := 0x40000, size := 0x20,
    attributes := memoryAttrRead ||| memoryAttrWrite ||| memoryAttrDevice,
    shareId := 0 }

def sampleDomain (id : Nat) (domainClass : DomainClass) (rotRole : RotRole)
    (securityState : SecurityState) (privilegeState : PrivilegeState) (code data : Nat)
    (extra : List MemoryResource) (interrupts : List InterruptResource) : DomainDescriptor :=
  { id, domainClass, rotRole, securityState, privilegeState
    initialLifecycle := .ready
    entryPoint := code, stackBase := data, stackSize := 0x400
    memoryResources := sampleRegions code data ++ extra
    interruptResources := interrupts
    restartPolicy :=
      { action := .never, restartLimit := 0, restartWindowTicks := 0,
        initialDelayTicks := 0 }
    requiredCapabilities := 0, launchRequired := 0 }

def samplePlatform : ProfileCapabilities :=
  { capabilities := 0x3F, maxDomains := 8, maxMemoryResourcesPerDomain := 8,
    maxInterruptsPerDomain := 4 }

def sampleService (name : Name) (sid : Nat) (signal : Word) : ServiceDescriptor :=
  { name, sid, version := 1, versionPolicy := .strict, signal
    statelessHandleIndex := 0, nonsecureClients := 1, connectionBased := 1 }

/-- The SPM, two Secure Partitions of which the first depends on the service
of the second, and a Non-secure application. -/
def sampleManifest : SystemManifest :=
  { formatVersion := 1, generatorVersion := ['G', '1']
    inputDigest := List.replicate 32 1, features := manifestFeatureIpc
    isolationProfile := .level3, profileCapabilities := samplePlatform
    domains :=
      [sampleDomain 1 .spm .spm .secure .privileged 0x1000 0x2000 [] [],
       sampleDomain 2 .securePartition .arot .secure .unprivileged 0x10000
         0x11000 [sampleConstants] [],
       sampleDomain 3 .securePartition .prot .secure .unprivileged 0x20000
         0x21000 [sampleConstants, sampleDevice]
         [{ interrupt := 5, attributes := 0, shareId := 0 }],
       sampleDomain 4 .nonsecureApplication .none .nonsecure .unprivileged 0x30000 0x31000 [] []]
    partitions :=
      [{ name := ['P'], domainId := 2, frameworkVersion := ffmVersion10
         model := .ipc, priority := .normal
         services := [sampleService ['Y'] 100 0x10]
         dependencies := [200], interrupts := [] },
       { name := ['S'], domainId := 3, frameworkVersion := ffmVersion10
         model := .ipc, priority := .normal
         services := [sampleService ['X'] 200 0x10]
         dependencies := []
         interrupts :=
           [{ signalName := ['I', 'R', 'Q'], interrupt := 5,
              signal := 0x20 }] }]
    limits :=
      { maxPartitions := 8, maxServicesPerPartition := 4,
        maxDependenciesPerPartition := 4, maxStatelessHandles := 32 } }

theorem level3_isolation_sample :
    manifestValidate sampleManifest manifestFeatureIpc samplePlatform = .ok () ∧
      Accessible sampleManifest.domains[2] memoryAttrWrite 0x40000 ∧
      ∀ s ∈ sampleManifest.domains[1].memoryResources, ¬ Contains s 0x40000 := by
  have haccept : manifestValidate sampleManifest manifestFeatureIpc
      samplePlatform = .ok () := by decide +kernel
  have hwrite : Accessible sampleManifest.domains[2] memoryAttrWrite
      0x40000 :=
    ⟨sampleDevice, by decide, by unfold Contains; decide, by decide⟩
  exact ⟨haccept, hwrite, (level3_isolation sampleManifest manifestFeatureIpc samplePlatform haccept
      rfl 2 1 (by decide) (by decide) 0x40000).1 (by decide) rfl
      (by decide) hwrite⟩

end WolfTrust.DomainIsolation
