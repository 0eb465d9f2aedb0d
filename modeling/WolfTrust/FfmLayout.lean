import WolfTrust.DomainIsolation
import WolfTrust.FfmInvariant
import WolfTrust.FfmOperations

namespace WolfTrust.FfmLayout

open Validation Domain Manifest DomainIsolation SignalBits FfmRuntime FfmQueues FfmInvariant

theorem manifestSignalValid_oneBit {signal : Word} (h : manifestSignalValid signal = true) :
    OneBit signal ∧ signal ≠ psaDoorbell := by
  simp only [manifestSignalValid, Bool.and_eq_true, bne_iff_ne, beq_iff_eq, Bool.not_eq_true'] at h
  refine ⟨oneBit_of_and_sub_one h.1.1 h.2, ?_⟩
  rintro rfl
  exact absurd h.1.2 (by decide)

/-- What the runtime uses of a validated partition. -/
structure PartitionChecked (partition : PartitionManifest) : Prop where
  service : ∀ service ∈ partition.services, OneBit service.signal ∧ service.signal ≠ psaDoorbell
  distinct : partition.services.Pairwise fun first second =>
    first.signal ≠ second.signal
  interrupt : ∀ interrupt ∈ partition.interrupts, OneBit interrupt.signal ∧
    ∀ service ∈ partition.services, service.signal ≠ interrupt.signal

variable {platform : ProfileCapabilities} {partition : PartitionManifest} {features : Word}

theorem serviceCheck_eq_ok {manifest : SystemManifest} {earlier : List ServiceDescriptor}
    {service : ServiceDescriptor} (hmodel : partition.model = .ipc)
    (h : serviceCheck manifest partition earlier service = .ok ()) :
    manifestSignalValid service.signal = true ∧
      ∀ other ∈ earlier, other.signal ≠ service.signal := by
  simp only [serviceCheck, then_eq_ok_iff, manifestValidateService, hmodel,
    if_true, require_eq_ok_iff] at h
  obtain ⟨hservice, hused⟩ := h
  have hvalid : manifestSignalValid service.signal = true := by split at hservice <;> simp_all
  refine ⟨hvalid, fun other hother heq => ?_⟩
  have hnonzero : service.signal ≠ 0 := by
    simp only [manifestSignalValid, Bool.and_eq_true, bne_iff_ne] at hvalid
    exact hvalid.1.1
  have hany : manifestSignalUsed earlier [] service.signal = true := by
    simp only [manifestSignalUsed, List.any_nil, Bool.or_false, List.any_eq_true, beq_iff_eq]
    exact ⟨other, hother, heq⟩
  simp only [hany, Bool.and_true, Bool.not_eq_true', bne_eq_false_iff_eq] at hused
  exact hnonzero hused

theorem manifestValidateInterrupt_eq_ok {domain : DomainDescriptor}
    {earlier : List ManifestInterrupt} {interrupt : ManifestInterrupt}
    (h : manifestValidateInterrupt domain partition earlier interrupt = .ok ()) :
    manifestSignalValid interrupt.signal = true ∧
      ∀ service ∈ partition.services, service.signal ≠ interrupt.signal := by
  simp only [manifestValidateInterrupt, then_eq_ok_iff, require_eq_ok_iff, Bool.and_eq_true] at h
  refine ⟨h.1.2, fun service hservice heq => ?_⟩
  have hany : manifestSignalUsed partition.services earlier interrupt.signal =
      true := by
    simp only [manifestSignalUsed, Bool.or_eq_true, List.any_eq_true, beq_iff_eq]
    exact .inl ⟨service, hservice, heq⟩
  have hunused := h.2.2.2
  rw [hany] at hunused
  cases hunused

theorem partitionChecked {manifest : SystemManifest} (hmodel : partition.model = .ipc)
    (h : manifestValidatePartition manifest partition = .ok ()) : PartitionChecked partition := by
  unfold manifestValidatePartition at h
  rw [then_eq_ok_iff] at h
  obtain ⟨-, h⟩ := h
  split at h
  · cases h
  rename_i domain hdomain
  simp only [then_eq_ok_iff] at h
  obtain ⟨hservices, hinterrupts, -⟩ := h
  refine ⟨fun service hservice => ?_, ?_, fun interrupt hinterrupt => ?_⟩
  · obtain ⟨before, after, hsplit⟩ := List.append_of_mem hservice
    have hcheck := (checkWithPrior_eq_ok_iff _ _ _).mp hservices _ _ _ hsplit
    exact manifestSignalValid_oneBit (serviceCheck_eq_ok hmodel hcheck).1
  · rw [List.pairwise_iff_getElem]
    intro i j hi hj hij
    obtain ⟨before, hcheck, hmem⟩ := checkWithPrior_pair _ hservices hij hj
    exact (serviceCheck_eq_ok hmodel hcheck).2 _ hmem
  · obtain ⟨before, after, hsplit⟩ := List.append_of_mem hinterrupt
    have hcheck := (checkWithPrior_eq_ok_iff _ _ _).mp hinterrupts _ _ _ hsplit
    obtain ⟨hvalid, hother⟩ := manifestValidateInterrupt_eq_ok hcheck
    exact ⟨(manifestSignalValid_oneBit hvalid).1, hother⟩

theorem countServices_eq_ok {partitions : List PartitionManifest}
    {start count : Nat} (h : countServices partitions start = .ok count) :
    count = start + (partitions.flatMap PartitionManifest.services).length ∧
      (start ≤ ffmMaxServices → count ≤ ffmMaxServices) ∧
      ∀ partition ∈ partitions, partition.model = .ipc := by
  induction partitions generalizing start with
  | nil =>
    simp only [countServices, Except.ok.injEq] at h
    subst h
    simp
  | cons partition rest ih =>
    unfold countServices at h
    split at h
    · cases h
    rename_i hmodel
    split at h
    · cases h
    split at h
    · cases h
    rename_i hfits
    obtain ⟨hcount, hbound, hrest⟩ := ih h
    refine ⟨?_, fun hstart => hbound (by omega), ?_⟩
    · rw [hcount, List.flatMap_cons, List.length_append]
      omega
    · intro other hother
      rcases List.mem_cons.mp hother with rfl | hmem
      · simpa using hmodel
      · exact hrest other hmem

section Flat

variable {manifest : SystemManifest}

theorem map_fst_flatServices (manifest : SystemManifest) : (flatServices manifest).map Prod.fst =
      manifest.partitions.flatMap PartitionManifest.services := by
  unfold flatServices
  rw [List.map_flatMap]
  simp only [List.map_map, Function.comp_def, List.map_id']
  rw [← List.flatMap_map (fun x : PartitionManifest × Nat => x.1)
    PartitionManifest.services, List.zipIdx_map_fst]

theorem length_flatServices (manifest : SystemManifest) : (flatServices manifest).length =
      (manifest.partitions.flatMap PartitionManifest.services).length := by
  rw [← map_fst_flatServices, List.length_map]

theorem mem_flatServices {service : ServiceDescriptor} {i : Nat}
    (h : (service, i) ∈ flatServices manifest) :
    ∃ hi : i < manifest.partitions.length, service ∈ (manifest.partitions[i]).services := by
  unfold flatServices at h
  rw [List.mem_flatMap] at h
  obtain ⟨⟨partition, j⟩, hmem, hservice⟩ := h
  simp only [List.mem_map, Prod.mk.injEq] at hservice
  obtain ⟨other, hother, rfl, rfl⟩ := hservice
  obtain ⟨hi, heq⟩ := List.mem_zipIdx' hmem
  exact ⟨hi, heq ▸ hother⟩

theorem pairwise_flatServices (h : ∀ partition ∈ manifest.partitions, PartitionChecked partition) :
    (flatServices manifest).Pairwise fun first second =>
      first.2 = second.2 → first.1.signal ≠ second.1.signal := by
  unfold flatServices
  rw [List.pairwise_flatMap]
  refine ⟨fun x hx => ?_, ?_⟩
  · have hmem : x.1 ∈ manifest.partitions := by
      obtain ⟨hi, heq⟩ := List.mem_zipIdx' hx
      exact heq ▸ List.getElem_mem hi
    rw [List.pairwise_map]
    refine (h x.1 hmem).distinct.imp ?_
    intro first second hne _
    exact hne
  · -- Entries of different partitions differ in their index.
    have hnodup : (manifest.partitions.zipIdx.map Prod.snd).Nodup := by
      rw [List.zipIdx_map_snd]
      exact List.nodup_range'
    refine (List.pairwise_map.mp hnodup).imp fun hne x hx y hy heq => ?_
    simp only [List.mem_map] at hx hy
    obtain ⟨_, -, rfl⟩ := hx
    obtain ⟨_, -, rfl⟩ := hy
    exact absurd heq hne

end Flat

/-- The manifest a runtime was started with. -/
structure Booted (manifest : SystemManifest) (features : Word)
    (platform : ProfileCapabilities) (runtime : Runtime) : Prop where
  accepted : manifestValidate manifest features platform = .ok ()
  started : ffmInit manifest = .ok runtime

theorem ffmInit_eq_ok {manifest : SystemManifest} {runtime : Runtime}
    (h : ffmInit manifest = .ok runtime) :
    ∃ count, manifest.partitions.length ≤ ffmMaxPartitions ∧
      countServices manifest.partitions 0 = .ok count ∧
      runtime =
        { layout := layoutOf manifest count
          asserted := fun _ => 0
          instances := fun _ => 0
          queues :=
            { head := fun _ => none
              tail := fun _ => none
              next := fun _ => none }
          connections := fun _ => clearedConnection 1 0
          messages := fun _ => clearedMessage 1 0
          lifecycle := 0
          history := [] } := by
  unfold ffmInit at h
  split at h
  · cases h
  · rename_i hlength
    split at h
    · cases h
    · rename_i count hcount
      exact ⟨count, by omega, hcount, (Except.ok.inj h).symm⟩

theorem manifestValidate_partitions {manifest : SystemManifest}
    (h : manifestValidate manifest features platform = .ok ()) :
    manifestValidatePartitionUniqueness manifest = .ok () ∧ ∀ partition ∈ manifest.partitions,
        manifestValidatePartition manifest partition = .ok () := by
  simp only [manifestValidate, then_eq_ok_iff, checkAll_eq_ok_iff] at h
  exact ⟨h.2.2.1, h.2.2.2.2.1⟩

theorem domainId_unique {manifest : SystemManifest}
    (h : manifestValidatePartitionUniqueness manifest = .ok ()) :
    manifest.partitions.Pairwise fun first second =>
      first.domainId ≠ second.domainId := by
  rw [List.pairwise_iff_getElem]
  intro i j hi hj hij
  obtain ⟨before, hcheck, hmem⟩ := checkWithPrior_pair _ h hij hj
  simp only [partitionUniquenessCheck, checkAll_eq_ok_iff, require_eq_ok_iff] at hcheck
  have hpair := hcheck _ hmem
  simp only [Bool.not_eq_true', Bool.or_eq_false_iff, beq_eq_false_iff_ne] at hpair
  exact hpair.2.symm

section Boot

variable {manifest : SystemManifest} {count : Nat}

theorem layoutOf_entry (hlength : manifest.partitions.length ≤ 9)
    (hcount : count = (flatServices manifest).length) {s : ServiceIndex} (hs : s.val < count) :
    (flatServices manifest)[s.val]? = some ((layoutOf manifest count).descriptor s,
          ((layoutOf manifest count).partitionIndex s).val) ∧
      ((layoutOf manifest count).partitionIndex s).val < manifest.partitions.length ∧
      (layoutOf manifest count).manifest
        ((layoutOf manifest count).partitionIndex s) ∈ manifest.partitions ∧
      (layoutOf manifest count).descriptor s ∈ ((layoutOf manifest count).manifest
          ((layoutOf manifest count).partitionIndex s)).services := by
  have hbound : s.val < (flatServices manifest).length := hcount ▸ hs
  rcases hentry : (flatServices manifest)[s.val] with ⟨service, i⟩
  have hget : (flatServices manifest)[s.val]? = some (service, i) := by
    rw [List.getElem?_eq_getElem hbound, hentry]
  obtain ⟨hi, hservice⟩ := mem_flatServices (List.mem_of_getElem? hget)
  have hindex : ((layoutOf manifest count).partitionIndex s).val = i := by
    simp only [layoutOf, List.getD_eq_getElem?_getD, hget, Option.getD_some, Fin.ofNat]
    omega
  have hdescriptor : (layoutOf manifest count).descriptor s = service := by
    simp [layoutOf, List.getD_eq_getElem?_getD, hget]
  have hmanifest : (layoutOf manifest count).manifest ((layoutOf manifest count).partitionIndex s) =
        manifest.partitions[i] := by
    change manifest.partitions.getD ((layoutOf manifest count).partitionIndex s).val noPartition = _
    rw [hindex, List.getD_eq_getElem?_getD, List.getElem?_eq_getElem hi, Option.getD_some]
  rw [hmanifest, hdescriptor, hindex]
  exact ⟨hget, hi, List.getElem_mem hi, hservice⟩

theorem layoutOf_manifest (p : PartitionIndex) (hp : p.val < manifest.partitions.length) :
    (layoutOf manifest count).manifest p = manifest.partitions[p.val] := by
  change manifest.partitions.getD p.val noPartition = _
  rw [List.getD_eq_getElem?_getD, List.getElem?_eq_getElem hp, Option.getD_some]

theorem layoutOf_distinct (hlength : manifest.partitions.length ≤ 9)
    (hcount : count = (flatServices manifest).length)
    (hchecked : ∀ partition ∈ manifest.partitions,
      PartitionChecked partition) {s t : ServiceIndex} (hs : s.val < count)
    (ht : t.val < count) (hst : s.val < t.val)
    (hpartition : (layoutOf manifest count).partitionIndex s =
      (layoutOf manifest count).partitionIndex t) :
    ((layoutOf manifest count).descriptor s).signal ≠
      ((layoutOf manifest count).descriptor t).signal := by
  have hentry := (layoutOf_entry hlength hcount hs).1
  have hentry' := (layoutOf_entry hlength hcount ht).1
  rw [List.getElem?_eq_some_iff] at hentry hentry'
  obtain ⟨hbound, hentry⟩ := hentry
  obtain ⟨hbound', hentry'⟩ := hentry'
  have hpair := List.pairwise_iff_getElem.mp (pairwise_flatServices hchecked)
    s.val t.val hbound hbound' hst
  rw [hentry, hentry'] at hpair
  exact hpair (congrArg Fin.val hpartition)

theorem layoutOk (haccepted : manifestValidate manifest features platform = .ok ())
    (hlength : manifest.partitions.length ≤ 9)
    (hservices : countServices manifest.partitions 0 = .ok count) :
    LayoutOk (layoutOf manifest count) := by
  obtain ⟨hunique, hpartitions⟩ := manifestValidate_partitions haccepted
  obtain ⟨hcount, -, hmodel⟩ := countServices_eq_ok hservices
  rw [Nat.zero_add, ← length_flatServices] at hcount
  have hchecked : ∀ partition ∈ manifest.partitions,
      PartitionChecked partition := fun partition hmem =>
    partitionChecked (hmodel partition hmem) (hpartitions partition hmem)
  refine ⟨fun s hs => ?_, fun s hs => ?_, fun s t hs ht hp hsignal => ?_,
    fun s hs => ?_, fun p hp i hi => ?_, fun p q hp hq hid => ?_⟩
  · exact (layoutOf_entry hlength hcount hs).2.1
  · obtain ⟨-, -, hmem, hservice⟩ := layoutOf_entry hlength hcount hs
    exact ((hchecked _ hmem).service _ hservice).1
  · rcases lt_trichotomy s.val t.val with hst | hst | hst
    · exact absurd hsignal (layoutOf_distinct hlength hcount hchecked hs ht hst hp)
    · exact Fin.ext hst
    · exact absurd hsignal.symm (layoutOf_distinct hlength hcount hchecked ht hs hst hp.symm)
  · obtain ⟨-, -, hmem, hservice⟩ := layoutOf_entry hlength hcount hs
    exact ((hchecked _ hmem).service _ hservice).2
  · have hmem : (layoutOf manifest count).manifest p ∈ manifest.partitions := by
      rw [layoutOf_manifest p hp]
      exact List.getElem_mem hp
    obtain ⟨hone, hother⟩ := (hchecked _ hmem).interrupt i hi
    refine ⟨hone, fun s hs hsp => ?_⟩
    obtain ⟨-, -, -, hservice⟩ := layoutOf_entry hlength hcount hs
    rw [hsp] at hservice
    exact hother _ hservice
  · rw [layoutOf_manifest p hp, layoutOf_manifest q hq] at hid
    have hpair := List.pairwise_iff_getElem.mp (domainId_unique hunique)
    rcases lt_trichotomy p.val q.val with hpq | hpq | hpq
    · exact absurd hid (hpair _ _ hp hq hpq)
    · exact Fin.ext hpq
    · exact absurd hid.symm (hpair _ _ hq hp hpq)

end Boot

theorem Booted.ok {manifest : SystemManifest}
    {runtime : Runtime} (h : Booted manifest features platform runtime) : RuntimeOk runtime := by
  obtain ⟨count, hlength, hservices, rfl⟩ := ffmInit_eq_ok h.started
  refine ⟨layoutOk h.accepted hlength hservices,
    ⟨fun c => ?_, fun m => ?_, fun m hm => ?_, fun m n hm => ?_,
      fun c hc => ?_⟩, ⟨fun _ => [], ?_, fun s m => ?_⟩, fun s _ => ?_⟩
  · refine ⟨rfl, fun _ => rfl, fun hc => ?_, fun hc => ?_⟩
    · cases hc
    · cases hc
  · exact ⟨rfl, fun _ => rfl, .inr (.inr (le_refl _))⟩
  · cases hm
  · cases hm
  · cases hc
  · exact ⟨fun _ => rfl, fun _ => rfl, fun _ => List.nodup_nil, fun _ _ _ hm => by cases hm⟩
  · simp [waiting, clearedMessage]
  · simp

/-- The runtime of the sample manifest: service 0 is the one of partition 2,
service 1 the one of partition 3. -/
def sampleRuntime : Runtime :=
  { layout := layoutOf sampleManifest 2
    asserted := fun _ => 0
    instances := fun _ => 0
    queues := { head := fun _ => none, tail := fun _ => none,
                next := fun _ => none }
    connections := fun _ => clearedConnection 1 0
    messages := fun _ => clearedMessage 1 0
    lifecycle := 0
    history := [] }

theorem sampleRuntime_booted :
    Booted sampleManifest manifestFeatureIpc samplePlatform sampleRuntime :=
  ⟨by decide +kernel, rfl⟩

end WolfTrust.FfmLayout
