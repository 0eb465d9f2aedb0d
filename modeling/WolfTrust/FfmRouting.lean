import WolfTrust.FfmDeadlock

namespace WolfTrust.FfmRouting

open Validation Domain Manifest DomainIsolation ByteMemory FfmRuntime FfmService
  FfmMachine FfmQueues FfmTransition FfmOperations FfmPreservation FfmDiscipline
  FfmLayout FfmAdmission ManifestDependencies

theorem find?_of_unique {α : Type*} {table : List α} {p : α → Bool} {a : α} (ha : a ∈ table)
    (hp : p a = true) (hunique : ∀ b ∈ table, p b = true → b = a) : table.find? p = some a := by
  cases hfind : table.find? p with
  | none => exact absurd hp (List.find?_eq_none.mp hfind a ha)
  | some b => rw [hunique b (List.mem_of_find?_eq_some hfind) (List.find?_some hfind)]

theorem findSome?_of_unique {α β : Type*} {table : List α} {f : α → Option β} {a : α} {b : β}
    (ha : a ∈ table) (hf : f a = some b) (hunique : ∀ x ∈ table, ∀ y, f x = some y → x = a) :
    table.findSome? f = some b := by
  cases hfind : table.findSome? f with
  | none =>
    rw [List.findSome?_eq_none_iff.mp hfind a ha] at hf
    cases hf
  | some y =>
    obtain ⟨x, hx, hxy⟩ := List.exists_of_findSome?_eq_some hfind
    rw [hunique x hx y hxy, hf] at hxy
    exact hxy.symm

/-! ### What the validation leaves unique -/

/-- What a bit of a partition's signal word stands for. -/
inductive Source
  | service (s : ServiceIndex)
  | interrupt (index : Nat)
  | reserved

/-- Partition `p` uses `signal` for this. -/
def Stands (layout : Layout) (p : PartitionIndex) (signal : Word) : Source → Prop
  | .service s => s.val < layout.serviceCount ∧ layout.partitionIndex s = p ∧
      (layout.descriptor s).signal = signal
  | .interrupt index => ∃ interrupt,
      (layout.manifest p).interrupts[index]? = some interrupt ∧ interrupt.signal = signal
  | .reserved => anySet signal manifestReservedSignals = true

/-- What the lookups rest on. -/
structure Unambiguous (layout : Layout) : Prop where
  layoutOk : LayoutOk layout
  sid : ∀ s t : ServiceIndex, s.val < layout.serviceCount → t.val < layout.serviceCount →
    (layout.descriptor s).sid = (layout.descriptor t).sid → s = t
  sid_ne_zero : ∀ s : ServiceIndex, s.val < layout.serviceCount → (layout.descriptor s).sid ≠ 0
  domainId_ne_zero : ∀ p : PartitionIndex, p.val < layout.partitionCount →
    (layout.manifest p).domainId ≠ 0
  reservedService : ∀ s : ServiceIndex, s.val < layout.serviceCount →
    anySet (layout.descriptor s).signal manifestReservedSignals = false
  validInterrupt : ∀ p : PartitionIndex, p.val < layout.partitionCount →
    ∀ i ∈ (layout.manifest p).interrupts, manifestSignalValid i.signal = true
  interrupts : ∀ p : PartitionIndex, p.val < layout.partitionCount →
    (layout.manifest p).interrupts.Pairwise fun first second =>
      first.interrupt ≠ second.interrupt ∧ first.signal ≠ second.signal
  owner : ∀ p q : PartitionIndex, p.val < layout.partitionCount →
    q.val < layout.partitionCount → ∀ i ∈ (layout.manifest p).interrupts,
    ∀ j ∈ (layout.manifest q).interrupts, i.interrupt = j.interrupt → p = q

section Manifest

variable {manifest : SystemManifest} {partition : PartitionManifest} {domain : DomainDescriptor}

theorem manifestFindDomain_eq_some {id : Nat} (h : manifestFindDomain manifest id = some domain) :
    domain ∈ manifest.domains ∧ domain.id = id := by
  unfold manifestFindDomain at h
  have hfound := List.find?_some h
  exact ⟨List.mem_of_find?_eq_some h, beq_iff_eq.mp hfound⟩

theorem manifestValidatePartition_interrupts
    (h : manifestValidatePartition manifest partition = .ok ()) :
    ∃ domain, manifestFindDomain manifest partition.domainId = some domain ∧
      partition.domainId ≠ 0 ∧ domain.domainClass = .securePartition ∧
      checkWithPrior (serviceCheck manifest partition) [] partition.services = .ok () ∧
      checkWithPrior (manifestValidateInterrupt domain partition) []
        partition.interrupts = .ok () := by
  unfold manifestValidatePartition at h
  rw [then_eq_ok_iff] at h
  obtain ⟨hheader, h⟩ := h
  split at h
  · cases h
  rename_i domain hdomain
  simp only [then_eq_ok_iff] at h
  simp only [manifestValidatePartitionHeader, then_eq_ok_iff, hdomain,
    require_eq_ok_iff, Bool.and_eq_true, bne_iff_ne, beq_iff_eq,
    decide_eq_true_eq] at hheader
  exact ⟨domain, hdomain, hheader.2.1.1.1, hheader.2.1.2, h.1, h.2.1⟩

theorem manifestValidateInterrupt_facts {earlier : List ManifestInterrupt}
    {interrupt : ManifestInterrupt}
    (h : manifestValidateInterrupt domain partition earlier interrupt = .ok ()) :
    manifestSignalValid interrupt.signal = true ∧ (∃ resource ∈ domain.interruptResources,
        resource.interrupt = interrupt.interrupt) ∧
      ∀ other ∈ earlier, other.interrupt ≠ interrupt.interrupt ∧
        other.signal ≠ interrupt.signal := by
  simp only [manifestValidateInterrupt, then_eq_ok_iff, require_eq_ok_iff,
    Bool.and_eq_true, checkAll_eq_ok_iff, List.any_eq_true, bne_iff_ne,
    manifestSignalUsed, Bool.not_eq_true', Bool.or_eq_false_iff,
    List.any_eq_false, beq_iff_eq] at h
  obtain ⟨⟨-, hvalid⟩, hresource, hearlier, -, hsignal⟩ := h
  exact ⟨hvalid, hresource, fun other hother =>
    ⟨(hearlier other hother).1, hsignal other hother⟩⟩

theorem interrupts_checked
    (h : checkWithPrior (manifestValidateInterrupt domain partition) []
      partition.interrupts = .ok ()) :
    (∀ i ∈ partition.interrupts, manifestSignalValid i.signal = true ∧
      ∃ resource ∈ domain.interruptResources, resource.interrupt = i.interrupt) ∧
    partition.interrupts.Pairwise fun first second =>
      first.interrupt ≠ second.interrupt ∧ first.signal ≠ second.signal := by
  refine ⟨fun i hi => ?_, ?_⟩
  · obtain ⟨before, after, hsplit⟩ := List.append_of_mem hi
    have hfacts := manifestValidateInterrupt_facts
      ((checkWithPrior_eq_ok_iff _ _ _).mp h before i after hsplit)
    exact ⟨hfacts.1, hfacts.2.1⟩
  · rw [List.pairwise_iff_getElem]
    intro i j hi hj hij
    obtain ⟨before, hcheck, hmem⟩ := checkWithPrior_pair _ h hij hj
    exact (manifestValidateInterrupt_facts hcheck).2.2 _ hmem

theorem interrupt_owner {features : Word} {platform : ProfileCapabilities}
    (haccepted : manifestValidate manifest features platform = .ok ())
    {first second : PartitionManifest} (hfirst : first ∈ manifest.partitions)
    (hsecond : second ∈ manifest.partitions) {i j : ManifestInterrupt}
    (hi : i ∈ first.interrupts) (hj : j ∈ second.interrupts)
    (hij : i.interrupt = j.interrupt) : first.domainId = second.domainId := by
  have hdomains := domainsChecked_of_manifestValidate haccepted
  have hpartitions := (manifestValidate_partitions haccepted).2
  obtain ⟨d, hd, -, hclass, -, hchecked⟩ :=
    manifestValidatePartition_interrupts (hpartitions first hfirst)
  obtain ⟨e, he, -, -, -, hchecked'⟩ :=
    manifestValidatePartition_interrupts (hpartitions second hsecond)
  obtain ⟨-, x, hx, hxi⟩ := (interrupts_checked hchecked).1 i hi
  obtain ⟨-, y, hy, hyj⟩ := (interrupts_checked hchecked').1 j hj
  obtain ⟨hmem, hid⟩ := manifestFindDomain_eq_some hd
  obtain ⟨hmem', hid'⟩ := manifestFindDomain_eq_some he
  obtain ⟨m, hm, rfl⟩ := List.getElem_of_mem hmem
  obtain ⟨n, hn, rfl⟩ := List.getElem_of_mem hmem'
  rcases eq_or_ne m n with rfl | hmn
  · rw [← hid, ← hid']
  · have hshared := (hdomains.pairs m n hm hn hmn).interrupt hx hy (hxi.trans (hij.trans hyj.symm))
    have hunshared := (hdomains.unshared hmem hclass).2 x hx
    rw [hshared] at hunshared
    cases hunshared

theorem sid_pairwise (h : manifestValidateServiceUniqueness manifest = .ok ()) :
    (manifest.partitions.flatMap PartitionManifest.services).Pairwise
      fun first second => first.sid ≠ second.sid := by
  rw [List.pairwise_iff_getElem]
  intro i j hi hj hij
  obtain ⟨before, hcheck, hmem⟩ := checkWithPrior_pair _ h hij hj
  exact (serviceUniquenessCheck_ok hcheck _ hmem).symm

theorem service_checked (hmodel : partition.model = .ipc)
    (h : checkWithPrior (serviceCheck manifest partition) []
      partition.services = .ok ()) {service : ServiceDescriptor}
    (hservice : service ∈ partition.services) :
    service.sid ≠ 0 ∧ manifestSignalValid service.signal = true := by
  obtain ⟨before, after, hsplit⟩ := List.append_of_mem hservice
  have hcheck := (checkWithPrior_eq_ok_iff _ _ _).mp h before service after hsplit
  refine ⟨?_, (serviceCheck_eq_ok hmodel hcheck).1⟩
  simp only [serviceCheck, manifestValidateService, then_eq_ok_iff,
    require_eq_ok_iff, bne_iff_ne] at hcheck
  exact hcheck.1.2.1

end Manifest

theorem unambiguous_of_booted {manifest : SystemManifest} {features : Word}
    {platform : ProfileCapabilities} {runtime : Runtime}
    (hboot : Booted manifest features platform runtime) : Unambiguous runtime.layout := by
  have hlayout := hboot.ok.layout
  obtain ⟨count, hlength, hservices, rfl⟩ := ffmInit_eq_ok hboot.started
  obtain ⟨hcount, -, hmodel⟩ := countServices_eq_ok hservices
  rw [Nat.zero_add, ← length_flatServices] at hcount
  have hpartitions := (manifestValidate_partitions hboot.accepted).2
  have huniqueness : manifestValidateServiceUniqueness manifest = .ok () := by
    have haccepted := hboot.accepted
    simp only [manifestValidate, then_eq_ok_iff] at haccepted
    exact haccepted.2.2.2.2.2.1
  have hpartition (p : PartitionIndex) (hp : p.val < manifest.partitions.length) :
      (layoutOf manifest count).manifest p ∈ manifest.partitions := by
    rw [layoutOf_manifest p hp]
    exact List.getElem_mem hp
  have hservice (s : ServiceIndex) (hs : s.val < count) :
      ((layoutOf manifest count).descriptor s).sid ≠ 0 ∧
        manifestSignalValid ((layoutOf manifest count).descriptor s).signal =
          true := by
    obtain ⟨-, -, hmem, hservice⟩ := layoutOf_entry hlength hcount hs
    obtain ⟨-, -, -, -, hchecked, -⟩ :=
      manifestValidatePartition_interrupts (hpartitions _ hmem)
    exact service_checked (hmodel _ hmem) hchecked hservice
  have hentry (s : ServiceIndex) (hs : s.val < count) :
      (manifest.partitions.flatMap PartitionManifest.services)[s.val]? =
        some ((layoutOf manifest count).descriptor s) := by
    rw [← map_fst_flatServices, List.getElem?_map, (layoutOf_entry hlength hcount hs).1]
    rfl
  have hsid (s t : ServiceIndex) (hs : s.val < count) (ht : t.val < count)
      (hst : s.val < t.val) : ((layoutOf manifest count).descriptor s).sid ≠
        ((layoutOf manifest count).descriptor t).sid := by
    obtain ⟨hsl, hsget⟩ := List.getElem?_eq_some_iff.mp (hentry s hs)
    obtain ⟨htl, htget⟩ := List.getElem?_eq_some_iff.mp (hentry t ht)
    rw [← hsget, ← htget]
    exact List.pairwise_iff_getElem.mp (sid_pairwise huniqueness) _ _ hsl htl hst
  refine ⟨hlayout, fun s t hs ht hst => ?_, fun s hs => (hservice s hs).1,
    fun p hp => ?_, fun s hs => ?_, fun p hp i hi => ?_, fun p hp => ?_,
    fun p q hp hq i hi j hj hij => ?_⟩
  · rcases lt_trichotomy s.val t.val with hlt | heq | hgt
    · exact absurd hst (hsid s t hs ht hlt)
    · exact Fin.ext heq
    · exact absurd hst.symm (hsid t s ht hs hgt)
  · obtain ⟨-, -, hne, -⟩ :=
      manifestValidatePartition_interrupts (hpartitions _ (hpartition p hp))
    exact hne
  · have hvalid := (hservice s hs).2
    simp only [manifestSignalValid, Bool.and_eq_true, Bool.not_eq_true'] at hvalid
    exact hvalid.1.2
  · obtain ⟨domain, -, -, -, -, hchecked⟩ :=
      manifestValidatePartition_interrupts (hpartitions _ (hpartition p hp))
    exact ((interrupts_checked hchecked).1 i hi).1
  · obtain ⟨domain, -, -, -, -, hchecked⟩ :=
      manifestValidatePartition_interrupts (hpartitions _ (hpartition p hp))
    exact (interrupts_checked hchecked).2
  · exact hlayout.domainId p q hp hq (interrupt_owner hboot.accepted
      (hpartition p hp) (hpartition q hq) hi hj hij)

/-! ### The lookups -/

/-- The service signals of all partitions are as before. -/
def SameServices (before after : Runtime) : Prop :=
  ∀ s : ServiceIndex, s.val < before.layout.serviceCount →
    (after.asserted (before.layout.partitionIndex s) &&& (before.layout.descriptor s).signal ≠ 0 ↔
      before.asserted (before.layout.partitionIndex s) &&& (before.layout.descriptor s).signal ≠ 0)

section Lookups

variable {runtime : Runtime} (h : Unambiguous runtime.layout)

include h

theorem findService_iff (sid : Nat) (s : ServiceIndex) :
    findService runtime sid = .ok s ↔ s.val < runtime.layout.serviceCount ∧
      (runtime.layout.descriptor s).sid = sid := by
  constructor
  · intro hfound
    refine ⟨findService_eq_ok hfound, ?_⟩
    unfold findService at hfound
    split at hfound
    · cases hfound
    split at hfound
    · rename_i t ht
      cases hfound
      have hmatch := List.find?_some ht
      simp only [Bool.and_eq_true, beq_iff_eq] at hmatch
      exact hmatch.2
    · cases hfound
  · rintro ⟨hs, rfl⟩
    unfold findService
    rw [if_neg (h.sid_ne_zero s hs),
      find?_of_unique (List.mem_finRange s) (by simp [hs]) fun t _ ht => ?_]
    simp only [Bool.and_eq_true, decide_eq_true_eq, beq_iff_eq] at ht
    exact h.sid t s ht.1 hs ht.2

theorem findPartition_iff (id : Int) (p : PartitionIndex) : findPartition runtime id = .ok p ↔
      p.val < runtime.layout.partitionCount ∧
        ((runtime.layout.manifest p).domainId : Int) = id := by
  constructor
  · intro hfound
    exact (findPartition_eq_ok hfound).2
  · rintro ⟨hp, rfl⟩
    have hpositive := h.domainId_ne_zero p hp
    unfold findPartition
    rw [if_neg (by omega), find?_of_unique (List.mem_finRange p) (by simp [hp]) fun q _ hq => ?_]
    simp only [Bool.and_eq_true, decide_eq_true_eq, beq_iff_eq, Int.natCast_inj] at hq
    exact h.layoutOk.domainId q p hq.1 hp hq.2

theorem stands_unique {p : PartitionIndex} (hp : p.val < runtime.layout.partitionCount)
    {signal : Word} {first second : Source} (hfirst : Stands runtime.layout p signal first)
    (hsecond : Stands runtime.layout p signal second) : first = second := by
  have hreserved (index : Nat) (hi : Stands runtime.layout p signal (.interrupt index)) :
      anySet signal manifestReservedSignals = false := by
    obtain ⟨i, hget, rfl⟩ := hi
    have hvalid := h.validInterrupt p hp i (List.mem_of_getElem? hget)
    simp only [manifestSignalValid, Bool.and_eq_true, Bool.not_eq_true'] at hvalid
    exact hvalid.1.2
  have hother (s : ServiceIndex) (index : Nat) (hs : Stands runtime.layout p signal (.service s))
      (hi : Stands runtime.layout p signal (.interrupt index)) : False := by
    obtain ⟨hlt, hindex, hsignal⟩ := hs
    obtain ⟨i, hget, hisignal⟩ := hi
    exact (h.layoutOk.interrupt p hp i (List.mem_of_getElem? hget)).2 s hlt
      hindex (hsignal.trans hisignal.symm)
  have hindices (m n : Nat) (hm : Stands runtime.layout p signal (.interrupt m))
      (hn : Stands runtime.layout p signal (.interrupt n)) : ¬m < n := by
    intro hmn
    obtain ⟨i, hget, hisignal⟩ := hm
    obtain ⟨j, hget', hjsignal⟩ := hn
    obtain ⟨hml, rfl⟩ := List.getElem?_eq_some_iff.mp hget
    obtain ⟨hnl, rfl⟩ := List.getElem?_eq_some_iff.mp hget'
    exact (List.pairwise_iff_getElem.mp (h.interrupts p hp) m n hml hnl hmn).2
      (hisignal.trans hjsignal.symm)
  cases first with
  | service s =>
    cases second with
    | service t =>
      rw [h.layoutOk.distinct s t hfirst.1 hsecond.1 (hfirst.2.1.trans hsecond.2.1.symm)
        (hfirst.2.2.trans hsecond.2.2.symm)]
    | interrupt n => exact (hother s n hfirst hsecond).elim
    | reserved =>
      have hfree := h.reservedService s hfirst.1
      rw [hfirst.2.2] at hfree
      exact absurd (hfree.symm.trans hsecond) (by decide)
  | interrupt m =>
    cases second with
    | service t => exact (hother t m hsecond hfirst).elim
    | interrupt n =>
      have hmn := hindices m n hfirst hsecond
      have hnm := hindices n m hsecond hfirst
      rw [show m = n by omega]
    | reserved => exact absurd ((hreserved m hfirst).symm.trans hsecond) (by decide)
  | reserved =>
    cases second with
    | service t =>
      have hfree := h.reservedService t hsecond.1
      rw [hsecond.2.2] at hfree
      exact absurd (hfree.symm.trans hfirst) (by decide)
    | interrupt n => exact absurd ((hreserved n hsecond).symm.trans hfirst) (by decide)
    | reserved => rfl

/-- Partition `p` declares the interrupt with this signal. -/
def Routes (layout : Layout) (irq : Nat) (p : PartitionIndex) (signal : Word) : Prop :=
  p.val < layout.partitionCount ∧ ∃ i ∈ (layout.manifest p).interrupts,
    i.interrupt = irq ∧ i.signal = signal

theorem ffmIrqLookup_iff (id : Int) (signal : Word) (irq : Nat) :
    ffmIrqLookup runtime id signal = .ok irq ↔ ∃ p, Routes runtime.layout irq p signal ∧
        ((runtime.layout.manifest p).domainId : Int) = id := by
  constructor
  · intro hfound
    obtain ⟨-, p, hp, i, hi, hsignal, hirq⟩ := ffmIrqLookup_eq_ok hfound
    obtain ⟨-, hlt, hid⟩ := findPartition_eq_ok hp
    exact ⟨p, ⟨hlt, i, hi, hirq, hsignal⟩, hid⟩
  · rintro ⟨p, ⟨hp, i, hi, rfl, rfl⟩, hid⟩
    have hvalid := h.validInterrupt p hp i hi
    have hsingle : singleSignal i.signal = true := by
      simp only [manifestSignalValid, Bool.and_eq_true] at hvalid
      rw [singleSignal, Bool.and_eq_true]
      exact ⟨hvalid.1.1, hvalid.2⟩
    have hsignals : ((runtime.layout.manifest p).interrupts.map ManifestInterrupt.signal).Nodup :=
      List.pairwise_map.mpr ((h.interrupts p hp).imp And.right)
    have hscan := find?_of_unique (p := fun j : ManifestInterrupt =>
        j.signal == i.signal) hi (by simp) fun j hj hji =>
      List.inj_on_of_nodup_map hsignals hj hi (beq_iff_eq.mp hji)
    unfold ffmIrqLookup
    rw [(findPartition_iff h id p).mpr ⟨hp, hid⟩]
    simp only [hsingle, hscan]
    rfl

theorem ffmIrqRoute_iff (irq : Nat) (id : Int) (signal : Word) :
    ffmIrqRoute runtime irq = .ok (id, signal) ↔ ∃ p, Routes runtime.layout irq p signal ∧
        ((runtime.layout.manifest p).domainId : Int) = id := by
  constructor
  · intro hfound
    unfold ffmIrqRoute at hfound
    split at hfound
    · rename_i route hroute
      cases hfound
      obtain ⟨p, -, hp⟩ := List.exists_of_findSome?_eq_some hroute
      split at hp
      · rename_i hlt
        obtain ⟨i, hi, heq⟩ := Option.map_eq_some_iff.mp hp
        cases heq
        have hmatch := List.find?_some hi
        exact ⟨p, ⟨hlt, i, List.mem_of_find?_eq_some hi, beq_iff_eq.mp hmatch,
          rfl⟩, rfl⟩
      · cases hp
    · cases hfound
  · rintro ⟨p, ⟨hp, i, hi, rfl, rfl⟩, rfl⟩
    have hnumbers : ((runtime.layout.manifest p).interrupts.map
        ManifestInterrupt.interrupt).Nodup :=
      List.pairwise_map.mpr ((h.interrupts p hp).imp And.left)
    have hscan := find?_of_unique (p := fun j : ManifestInterrupt =>
        j.interrupt == i.interrupt) hi (by simp) fun j hj hji =>
      List.inj_on_of_nodup_map hnumbers hj hi (beq_iff_eq.mp hji)
    unfold ffmIrqRoute
    rw [findSome?_of_unique (List.mem_finRange p)
      (b := (((runtime.layout.manifest p).domainId : Int), i.signal))
      (by simp only [hp, if_true, hscan, Option.map_some]) fun q _ route hq => ?_]
    split at hq
    · rename_i hlt
      obtain ⟨j, hj, -⟩ := Option.map_eq_some_iff.mp hq
      have hmatch := List.find?_some hj
      exact h.owner q p hlt hp j (List.mem_of_find?_eq_some hj) i hi (beq_iff_eq.mp hmatch)
    · cases hq

theorem findServiceBySignal_iff (p : PartitionIndex) (signal : Word)
    (s : ServiceIndex) : findServiceBySignal runtime p signal = some s ↔
      Stands runtime.layout p signal (.service s) := by
  constructor
  · exact findServiceBySignal_eq_some
  · rintro ⟨hs, rfl, rfl⟩
    refine find?_of_unique (List.mem_finRange s) (by simp [hs]) fun t _ ht => ?_
    simp only [Bool.and_eq_true, decide_eq_true_eq, beq_iff_eq] at ht
    exact h.layoutOk.distinct t s ht.1.1 hs ht.1.2 ht.2

omit h in
theorem sameServices_setAsserted {p : PartitionIndex} {signals : Word}
    (hsame : ∀ s : ServiceIndex, s.val < runtime.layout.serviceCount →
      runtime.layout.partitionIndex s = p →
      (signals &&& (runtime.layout.descriptor s).signal ≠ 0 ↔
        runtime.asserted p &&& (runtime.layout.descriptor s).signal ≠ 0)) :
    SameServices runtime (runtime.setAsserted p signals) := by
  intro s hs
  by_cases hsp : runtime.layout.partitionIndex s = p
  · simp only [Runtime.setAsserted, hsp, Function.update_self]
    exact hsame s hs hsp
  · simp only [Runtime.setAsserted, Function.update_of_ne hsp]

theorem ffmAssertSignal_services (id : Int) (signal : Word) :
    SameServices runtime (ffmAssertSignal runtime id signal).2 := by
  unfold ffmAssertSignal
  split
  · exact fun s _ => Iff.rfl
  rename_i irq hirq
  split
  · exact fun s _ => Iff.rfl
  rename_i p hp
  obtain ⟨q, ⟨hq, i, hi, -, rfl⟩, hid⟩ := (ffmIrqLookup_iff h _ _ _).mp hirq
  obtain rfl : p = q :=
    Except.ok.inj (hp.symm.trans ((findPartition_iff h id q).mpr ⟨hq, hid⟩))
  obtain ⟨hone, hother⟩ := h.layoutOk.interrupt p hq i hi
  exact sameServices_setAsserted fun s hs hsp =>
    hone.or_other (h.layoutOk.oneBit s hs) (hother s hs hsp).symm _

theorem ffmEoi_services (id : Int) (signal : Word) :
    SameServices runtime (ffmEoi runtime id signal).2 := by
  unfold ffmEoi
  split
  · exact fun s _ => Iff.rfl
  rename_i p hp
  split
  · exact fun s _ => Iff.rfl
  rename_i hsingle
  split
  · exact fun s _ => Iff.rfl
  rename_i hdeclared
  split
  · exact fun s _ => Iff.rfl
  have hown : OwnSignal runtime.layout p signal :=
    .inr ⟨by simpa using hsingle, by simpa using hdeclared⟩
  obtain ⟨hone, hother⟩ :=
    ownSignal_ne h.layoutOk (findPartition_eq_ok hp).2.1 hown
  exact sameServices_setAsserted fun s hs hsp =>
    hone.clear_other (h.layoutOk.oneBit s hs) (hother s hs hsp) _

end Lookups

/-- Every lookup finds the one entry there is; routing an interrupt and looking
up its signal are inverse; and interrupts leave the service signals alone. -/
structure RoutesExactly (runtime : Runtime) : Prop where
  service : ∀ sid s, findService runtime sid = .ok s ↔ s.val < runtime.layout.serviceCount ∧
      (runtime.layout.descriptor s).sid = sid
  partition : ∀ id p, findPartition runtime id = .ok p ↔ p.val < runtime.layout.partitionCount ∧
      ((runtime.layout.manifest p).domainId : Int) = id
  serviceSignal : ∀ p signal s, findServiceBySignal runtime p signal = some s ↔
    Stands runtime.layout p signal (.service s)
  signal : ∀ p : PartitionIndex, p.val < runtime.layout.partitionCount →
    ∀ signal first second, Stands runtime.layout p signal first →
      Stands runtime.layout p signal second → first = second
  declared : ∀ p : PartitionIndex, p.val < runtime.layout.partitionCount →
    ∀ i ∈ (runtime.layout.manifest p).interrupts, ffmIrqRoute runtime i.interrupt =
        .ok ((runtime.layout.manifest p).domainId, i.signal)
  inverse : ∀ irq id signal, ffmIrqRoute runtime irq = .ok (id, signal) ↔
    ffmIrqLookup runtime id signal = .ok irq
  asserted : ∀ id signal, SameServices runtime (ffmAssertSignal runtime id signal).2
  ended : ∀ id signal, SameServices runtime (ffmEoi runtime id signal).2

theorem routing_unambiguous {manifest : SystemManifest} {features : Word}
    {platform : ProfileCapabilities} {runtime : Runtime}
    (hboot : Booted manifest features platform runtime) (memory : Memory) (steps : List Step) :
    RoutesExactly (run (start runtime memory) steps).runtime := by
  have hkept : Kept runtime.layout (run (start runtime memory) steps).runtime :=
    run_kept steps (kept_of_booted hboot)
  have h : Unambiguous (run (start runtime memory) steps).runtime.layout := by
    rw [hkept.1]
    exact unambiguous_of_booted hboot
  exact
    { service := findService_iff h
      partition := findPartition_iff h
      serviceSignal := findServiceBySignal_iff h
      signal := fun p hp _ _ _ => stands_unique h hp
      declared := fun p hp i hi => (ffmIrqRoute_iff h _ _ _).mpr ⟨p, ⟨hp, i, hi, rfl, rfl⟩, rfl⟩
      inverse := fun irq id signal =>
        (ffmIrqRoute_iff h irq id signal).trans (ffmIrqLookup_iff h id signal irq).symm
      asserted := ffmAssertSignal_services h
      ended := ffmEoi_services h }

/-- Interrupt 5 of partition 3 goes to its signal and back. -/
theorem routing_unambiguous_sample : ffmIrqRoute (run (start sampleRuntime sampleMemory)
      [.assertSignal 3 0x20]).runtime 5 = .ok (3, 0x20) ∧
    ffmIrqLookup (run (start sampleRuntime sampleMemory)
      [.assertSignal 3 0x20]).runtime 3 0x20 = .ok 5 := by
  have hroute : ffmIrqRoute (run (start sampleRuntime sampleMemory)
      [.assertSignal 3 0x20]).runtime 5 = .ok (3, 0x20) := by decide +kernel
  exact ⟨hroute, ((routing_unambiguous sampleRuntime_booted sampleMemory
    [.assertSignal 3 0x20]).inverse 5 3 0x20).mp hroute⟩

end WolfTrust.FfmRouting
