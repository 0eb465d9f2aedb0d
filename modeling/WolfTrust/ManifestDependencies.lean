import Mathlib.Logic.Relation
import WolfTrust.DomainIsolation
import WolfTrust.ManifestElimination

namespace WolfTrust.ManifestDependencies

open Validation Domain Manifest DomainIsolation ManifestElimination

/-! ### The partition graph -/

/-- Partition `j` declares the service `sid`. -/
def Declares (manifest : SystemManifest) (j sid : Nat) : Prop :=
  ∃ partition, manifest.partitions[j]? = some partition ∧
    ∃ service ∈ partition.services, service.sid = sid

/-- Partition `i` lists a service that partition `j` declares. -/
def DependsOn (manifest : SystemManifest) (i j : Nat) : Prop :=
  ∃ partition, manifest.partitions[i]? = some partition ∧
    ∃ sid ∈ partition.dependencies, Declares manifest j sid

/-- Every listed dependency is a service of another partition. -/
def Resolved (manifest : SystemManifest) : Prop :=
  ∀ i partition, manifest.partitions[i]? = some partition →
    ∀ sid ∈ partition.dependencies, ∃ j, j ≠ i ∧ Declares manifest j sid

/-- Some partition depends on itself through others. -/
def Cyclic (manifest : SystemManifest) : Prop :=
  ∃ i, Relation.TransGen (DependsOn manifest) i i

/-- The checks `wt_manifest_validate` makes before the dependencies. -/
def manifestValidateBeforeDependencies (manifest : SystemManifest)
    (supportedFeatures : Word) (platform : ProfileCapabilities) :
    Except ManifestError Unit := do
  manifestValidateHeader manifest supportedFeatures platform
  checkAll (manifestValidatePartitionHeader manifest) manifest.partitions
  manifestValidatePartitionUniqueness manifest
  manifestValidateDomainCoverage manifest
  checkAll (manifestValidatePartition manifest) manifest.partitions
  manifestValidateServiceUniqueness manifest
  manifestValidateSymbolUniqueness manifest

variable {manifest : SystemManifest} {edges : Nat → Nat → Bool}
  {partitions : List PartitionManifest} {e : ManifestError} {dependencies : List Nat}

/-! ### Services name one partition -/

theorem serviceUniquenessCheck_ok {earlier : List ServiceDescriptor} {service : ServiceDescriptor}
    (h : serviceUniquenessCheck earlier service = .ok ()) :
    ∀ other ∈ earlier, service.sid ≠ other.sid := by
  simp only [serviceUniquenessCheck, checkAll_eq_ok_iff, then_eq_ok_iff,
    require_eq_ok_iff, Bool.not_eq_true', Bool.or_eq_false_iff,
    beq_eq_false_iff_ne] at h
  exact fun other hother => (h other hother).1.1

theorem not_declares_twice (h : manifestValidateServiceUniqueness manifest = .ok ()) {i j sid : Nat}
    (hij : i < j) (hi : Declares manifest i sid) : ¬Declares manifest j sid := by
  rintro ⟨later, hlater, service, hservice, rfl⟩
  obtain ⟨first, hfirst, other, hother, hsame⟩ := hi
  obtain ⟨hj, rfl⟩ := List.getElem?_eq_some_iff.mp hlater
  have hsplit : manifest.partitions = manifest.partitions.take j ++
      manifest.partitions[j] :: manifest.partitions.drop (j + 1) := by simp
  unfold manifestValidateServiceUniqueness at h
  rw [← List.flatMap_nil, checkWithPrior_flatMap, checkWithPrior_eq_ok_iff] at h
  have htable := h _ _ _ hsplit
  rw [checkWithPrior_eq_ok_iff] at htable
  obtain ⟨front, back, hservices⟩ := List.append_of_mem hservice
  have hunique := serviceUniquenessCheck_ok (htable front service back hservices)
  have hearlier : first ∈ manifest.partitions.take j := by
    rw [List.mem_take_iff_getElem]
    obtain ⟨hilt, hget⟩ := List.getElem?_eq_some_iff.mp hfirst
    exact ⟨i, by omega, hget⟩
  refine hunique other (List.mem_append_left _ ?_) hsame.symm
  exact List.mem_flatMap.mpr ⟨first, by simpa using hearlier, hother⟩

theorem declares_unique (h : manifestValidateServiceUniqueness manifest = .ok ()) {i j sid : Nat}
    (hi : Declares manifest i sid) (hj : Declares manifest j sid) : i = j := by
  rcases Nat.lt_trichotomy i j with hlt | heq | hgt
  · exact absurd hj (not_declares_twice h hlt hi)
  · exact heq
  · exact absurd hi (not_declares_twice h hgt hj)

theorem declares_of_find {sid j : Nat} (h : manifestFindService manifest sid = some j) :
    Declares manifest j sid := by
  obtain ⟨hj, hany, -⟩ := List.findIdx?_eq_some_iff_getElem.mp h
  obtain ⟨service, hservice, hsid⟩ := List.any_eq_true.mp hany
  exact ⟨manifest.partitions[j], List.getElem?_eq_getElem hj, service, hservice, beq_iff_eq.mp hsid⟩

theorem manifestFindService_iff (h : manifestValidateServiceUniqueness manifest = .ok ())
    {sid j : Nat} : manifestFindService manifest sid = some j ↔ Declares manifest j sid := by
  refine ⟨declares_of_find, fun hdeclares => ?_⟩
  cases hfind : manifestFindService manifest sid with
  | none =>
    obtain ⟨partition, hget, service, hservice, hsid⟩ := hdeclares
    have hno := List.findIdx?_eq_none_iff.mp hfind partition (List.mem_of_getElem? hget)
    rw [List.any_eq_false] at hno
    exact absurd (beq_iff_eq.mpr hsid) (hno service hservice)
  | some => rw [declares_unique h (declares_of_find hfind) hdeclares]

/-! ### The edge matrix -/

theorem addDependencies_ok {i : Nat} {edges edges' : Nat → Nat → Bool}
    (h : addDependencies manifest i dependencies edges = .ok edges') :
    (∀ sid ∈ dependencies, ∃ j, j ≠ i ∧ manifestFindService manifest sid = some j) ∧
    ∀ a b, edges' a b = true ↔ edges a b = true ∨
      (a = i ∧ ∃ sid ∈ dependencies, manifestFindService manifest sid = some b) := by
  induction dependencies generalizing edges with
  | nil =>
    cases h
    simp
  | cons sid rest ih =>
    rw [addDependencies] at h
    split at h
    next => cases h
    next target hfound =>
      split at h
      next => cases h
      next hother =>
        obtain ⟨hresolved, hedges⟩ := ih h
        refine ⟨?_, fun a b => ?_⟩
        · intro other hmem
          rcases List.mem_cons.mp hmem with rfl | hmem
          · exact ⟨target, hother, hfound⟩
          · exact hresolved other hmem
        · rw [hedges a b]
          simp only [List.mem_cons, exists_eq_or_imp, hfound, Option.some.injEq]
          by_cases hnew : a = i ∧ b = target
          · simp [hnew]
          · rw [if_neg hnew]
            grind

theorem addDependencies_error {i : Nat}
    (h : addDependencies manifest i dependencies edges = .error e) :
    e = .dependency ∧ ∃ sid ∈ dependencies, ∀ j,
      manifestFindService manifest sid = some j → j = i := by
  induction dependencies generalizing edges with
  | nil => cases h
  | cons sid rest ih =>
    rw [addDependencies] at h
    split at h
    next hnone =>
      cases h
      exact ⟨rfl, sid, List.mem_cons_self, by simp [hnone]⟩
    next target hfound =>
      split at h
      next hself =>
        cases h
        refine ⟨rfl, sid, List.mem_cons_self, fun j hj => ?_⟩
        rw [hfound] at hj
        exact (Option.some.inj hj).symm.trans hself
      next =>
        obtain ⟨herror, other, hmem, hunresolved⟩ := ih h
        exact ⟨herror, other, List.mem_cons_of_mem _ hmem, hunresolved⟩

theorem addPartitionDependencies_ok {start : Nat} {edges edges' : Nat → Nat → Bool}
    (h : addPartitionDependencies manifest start partitions edges = .ok edges') :
    (∀ n partition, partitions[n]? = some partition →
      ∀ sid ∈ partition.dependencies, ∃ j, j ≠ start + n ∧
        manifestFindService manifest sid = some j) ∧
    ∀ a b, edges' a b = true ↔ edges a b = true ∨
      ∃ n partition, partitions[n]? = some partition ∧ a = start + n ∧
        ∃ sid ∈ partition.dependencies, manifestFindService manifest sid = some b := by
  induction partitions generalizing start edges with
  | nil =>
    cases h
    simp
  | cons first rest ih =>
    rw [addPartitionDependencies] at h
    split at h
    next => cases h
    next middle hfirst =>
      obtain ⟨hresolvedFirst, hedgesFirst⟩ := addDependencies_ok hfirst
      obtain ⟨hresolved, hedges⟩ := ih h
      refine ⟨?_, fun a b => ?_⟩
      · intro n partition hget
        cases n with
        | zero =>
          cases hget
          simpa using hresolvedFirst
        | succ n =>
          have := hresolved n partition (by simpa using hget)
          simpa [Nat.add_assoc, Nat.add_comm 1] using this
      · rw [hedges, hedgesFirst]
        constructor
        · rintro ((hold | ⟨rfl, hsid⟩) | ⟨n, partition, hget, rfl, hsid⟩)
          · exact Or.inl hold
          · exact Or.inr ⟨0, first, rfl, rfl, hsid⟩
          · exact Or.inr ⟨n + 1, partition, by simpa using hget,
              by omega, hsid⟩
        · rintro (hold | ⟨n, partition, hget, rfl, hsid⟩)
          · exact Or.inl (Or.inl hold)
          · cases n with
            | zero =>
              cases hget
              exact Or.inl (Or.inr ⟨rfl, hsid⟩)
            | succ n =>
              exact Or.inr ⟨n, partition, by simpa using hget,
                by omega, hsid⟩

theorem addPartitionDependencies_error {start : Nat}
    (h : addPartitionDependencies manifest start partitions edges = .error e) :
    e = .dependency ∧ ∃ n partition, partitions[n]? = some partition ∧
      ∃ sid ∈ partition.dependencies, ∀ j,
        manifestFindService manifest sid = some j → j = start + n := by
  induction partitions generalizing start edges with
  | nil => cases h
  | cons first rest ih =>
    rw [addPartitionDependencies] at h
    split at h
    next e' hfirst =>
      cases h
      obtain ⟨herror, hsid⟩ := addDependencies_error hfirst
      exact ⟨herror, 0, first, rfl, hsid⟩
    next middle hfirst =>
      obtain ⟨herror, n, partition, hget, sid, hsid, hunresolved⟩ := ih h
      refine ⟨herror, n + 1, partition, by simpa using hget, sid, hsid, fun j hj => ?_⟩
      have := hunresolved j hj
      omega

theorem resolved_of_edges (hunique : manifestValidateServiceUniqueness manifest = .ok ())
    (h : addPartitionDependencies manifest 0 manifest.partitions (fun _ _ => false) = .ok edges) :
    Resolved manifest ∧ ∀ a b, edges a b = true ↔ DependsOn manifest a b := by
  obtain ⟨hresolved, hedges⟩ := addPartitionDependencies_ok h
  constructor
  · intro i partition hget sid hsid
    obtain ⟨j, hj, hfind⟩ := hresolved i partition hget sid hsid
    exact ⟨j, by simpa using hj, declares_of_find hfind⟩
  · intro a b
    rw [hedges]
    constructor
    · rintro (hold | ⟨n, partition, hget, rfl, sid, hsid, hfind⟩)
      · cases hold
      · exact ⟨partition, by simpa using hget, sid, hsid, declares_of_find hfind⟩
    · rintro ⟨partition, hget, sid, hsid, hdeclares⟩
      exact Or.inr ⟨a, partition, hget, (Nat.zero_add a).symm, sid, hsid,
        (manifestFindService_iff hunique).mpr hdeclares⟩

theorem unresolved_of_error (hunique : manifestValidateServiceUniqueness manifest = .ok ())
    (h : addPartitionDependencies manifest 0 manifest.partitions (fun _ _ => false) = .error e) :
    e = .dependency ∧ ¬Resolved manifest := by
  obtain ⟨herror, n, partition, hget, sid, hsid, hself⟩ :=
    addPartitionDependencies_error h
  refine ⟨herror, fun hresolved => ?_⟩
  obtain ⟨j, hj, hdeclares⟩ := hresolved n partition hget sid hsid
  have := hself j ((manifestFindService_iff hunique).mpr hdeclares)
  omega

theorem dependsOn_lt {i j : Nat} (h : DependsOn manifest i j) :
    i < manifest.partitions.length ∧ j < manifest.partitions.length := by
  obtain ⟨partition, hi, sid, hsid, other, hj, -⟩ := h
  exact ⟨(List.getElem?_eq_some_iff.mp hi).1, (List.getElem?_eq_some_iff.mp hj).1⟩

/-! ### Cycles and ranks -/

theorem rank_of_not_cyclic (h : ¬Cyclic manifest) :
    ∃ rank : Nat → Nat, ∀ i j, DependsOn manifest i j → rank j < rank i := by
  classical
  refine ⟨fun i => ((Finset.range manifest.partitions.length).filter fun k =>
    Relation.TransGen (DependsOn manifest) i k).card, fun i j hij => ?_⟩
  apply Finset.card_lt_card
  refine ⟨fun k hk => ?_, fun hsub => ?_⟩
  · simp only [Finset.mem_filter] at hk ⊢
    exact ⟨hk.1, Relation.TransGen.head hij hk.2⟩
  · have hmem : j ∈ (Finset.range manifest.partitions.length).filter fun k =>
        Relation.TransGen (DependsOn manifest) j k :=
      hsub (Finset.mem_filter.mpr ⟨Finset.mem_range.mpr (dependsOn_lt hij).2,
        Relation.TransGen.single hij⟩)
    exact h ⟨j, (Finset.mem_filter.mp hmem).2⟩

theorem not_cyclic_of_rank {rank : Nat → Nat}
    (h : ∀ i j, DependsOn manifest i j → rank j < rank i) : ¬Cyclic manifest := by
  have hdown : ∀ i j, Relation.TransGen (DependsOn manifest) i j → rank j < rank i := by
    intro i j hij
    induction hij with
    | single hstep => exact h _ _ hstep
    | tail _ hstep ih => exact (h _ _ hstep).trans ih
  rintro ⟨i, hi⟩
  exact Nat.lt_irrefl _ (hdown i i hi)

/-! ### The loop -/

/-- The `do … while (progress != 0)` loop, run from a state to its end. -/
inductive LoopEnds (count : Nat) : Elimination → Elimination → Prop
  | stop {s : Elimination} (h : (eliminationPass count s).2 = false) :
      LoopEnds count s (eliminationPass count s).1
  | again {s t : Elimination} (h : (eliminationPass count s).2 = true)
      (hrest : LoopEnds count (eliminationPass count s).1 t) :
      LoopEnds count s t

theorem pass_counts {count : Nat} (edges : Nat → Nat → Bool) {s : Elimination}
    (h : (eliminationPass count s).2 = true) :
    s.removedCount < (eliminationPass count s).1.removedCount := by
  have hadvance : Advances count edges (s, false) (eliminationPass count s) :=
    visits_advance _ (fun i hi => List.mem_range.mp hi) _
  rcases hadvance.flagged with heq | ⟨-, hmore⟩
  · rw [heq] at h
    cases h
  · exact hmore

theorem loopEnds_of_fuel {count : Nat} {fuel : Nat} {s : Elimination} (hs : Sound count edges s)
    (hfuel : count - s.removedCount < fuel) : LoopEnds count s (eliminationLoop count fuel s) := by
  induction fuel generalizing s with
  | zero => omega
  | succ fuel ih =>
    simp only [eliminationLoop]
    split
    next hprogress =>
      have hsound := eliminationPass_sound hs
      have hmore := pass_counts edges hprogress
      have hbound := hsound.removedCount_le
      exact LoopEnds.again hprogress (ih hsound (by omega))
    next hdone => exact LoopEnds.stop (by simpa using hdone)

theorem elimination_exact (hedges : ∀ a b, edges a b = true ↔ DependsOn manifest a b) :
    (eliminationLoop manifest.partitions.length (manifest.partitions.length + 1)
      { edges := edges, removed := fun _ => false, removedCount := 0 }
      ).removedCount = manifest.partitions.length ↔ ¬Cyclic manifest := by
  constructor
  · intro hall
    obtain ⟨rank, hrank⟩ := rank_of_complete (eliminationLoop_sound _ (sound_start edges)) hall
    have hdown : ∀ i j, DependsOn manifest i j → rank j < rank i := by
      intro i j hij
      obtain ⟨hi, hj⟩ := dependsOn_lt hij
      exact hrank i hi j hj ((hedges i j).mpr hij)
    exact not_cyclic_of_rank hdown
  · intro hacyclic
    obtain ⟨rank, hrank⟩ := rank_of_not_cyclic hacyclic
    exact elimination_of_rank fun i _ j _ hij => hrank i j ((hedges i j).mp hij)

theorem manifestValidateDependencies_cases
    (hunique : manifestValidateServiceUniqueness manifest = .ok ()) :
    (manifestValidateDependencies manifest = .error .dependency ∧ ¬Resolved manifest) ∨
    (manifestValidateDependencies manifest = .error .dependencyCycle ∧
      Resolved manifest ∧ Cyclic manifest) ∨
    (manifestValidateDependencies manifest = .ok () ∧ Resolved manifest ∧ ¬Cyclic manifest) := by
  unfold manifestValidateDependencies
  dsimp only
  cases hadd : addPartitionDependencies manifest 0 manifest.partitions (fun _ _ => false) with
  | error =>
    obtain ⟨rfl, hunresolved⟩ := unresolved_of_error hunique hadd
    exact Or.inl ⟨rfl, hunresolved⟩
  | ok =>
    obtain ⟨hresolved, hedges⟩ := resolved_of_edges hunique hadd
    have hexact := elimination_exact hedges
    by_cases hcyclic : Cyclic manifest
    · have hleft := hexact.not.mpr (not_not.mpr hcyclic)
      exact Or.inr (Or.inl ⟨by simp [require, hleft], hresolved, hcyclic⟩)
    · exact Or.inr (Or.inr ⟨by simp [require, hexact.mpr hcyclic], hresolved, hcyclic⟩)

/-- For a manifest that has passed every earlier check, the loop ends, and the
dependencies are accepted exactly when each resolves to another partition
without a cycle; the cycle error means that they resolve and there is one. -/
theorem dependency_validation_exact (manifest : SystemManifest)
    (supportedFeatures : Word) (platform : ProfileCapabilities)
    (hreached : manifestValidateBeforeDependencies manifest supportedFeatures platform = .ok ()) :
    (∀ edges, addPartitionDependencies manifest 0 manifest.partitions
        (fun _ _ => false) = .ok edges →
      LoopEnds manifest.partitions.length
        { edges := edges, removed := fun _ => false, removedCount := 0 }
        (eliminationLoop manifest.partitions.length (manifest.partitions.length + 1)
          { edges := edges, removed := fun _ => false, removedCount := 0 })) ∧
    (manifestValidateDependencies manifest = .ok () ↔ Resolved manifest ∧ ¬Cyclic manifest) ∧
    (manifestValidateDependencies manifest = .error .dependencyCycle ↔
      Resolved manifest ∧ Cyclic manifest) := by
  have hunique : manifestValidateServiceUniqueness manifest = .ok () := by
    simp only [manifestValidateBeforeDependencies, then_eq_ok_iff] at hreached
    exact hreached.2.2.2.2.2.1
  refine ⟨fun edges _ => loopEnds_of_fuel (sound_start edges) (by simp), ?_, ?_⟩
  all_goals
    rcases manifestValidateDependencies_cases hunique with
      ⟨hresult, hgraph⟩ | ⟨hresult, hresolved, hgraph⟩ |
      ⟨hresult, hresolved, hgraph⟩
    all_goals simp_all

/-- The sample manifest with a dependency of the second partition back on the
first. -/
def loopedManifest : SystemManifest :=
  { sampleManifest with
    partitions := sampleManifest.partitions.map fun partition =>
      if partition.dependencies.isEmpty then
        { partition with dependencies := [100] }
      else partition }

theorem dependency_validation_exact_sample :
    (manifestValidateBeforeDependencies sampleManifest manifestFeatureIpc samplePlatform = .ok () ∧
      Resolved sampleManifest ∧ ¬Cyclic sampleManifest) ∧
    (manifestValidateBeforeDependencies loopedManifest manifestFeatureIpc samplePlatform = .ok () ∧
      Resolved loopedManifest ∧ Cyclic loopedManifest) := by
  have hsample : manifestValidateBeforeDependencies sampleManifest
      manifestFeatureIpc samplePlatform = .ok () := by decide +kernel
  have hlooped : manifestValidateBeforeDependencies loopedManifest
      manifestFeatureIpc samplePlatform = .ok () := by decide +kernel
  obtain ⟨-, haccepted, -⟩ := dependency_validation_exact sampleManifest
    manifestFeatureIpc samplePlatform hsample
  obtain ⟨-, -, hcycle⟩ := dependency_validation_exact loopedManifest
    manifestFeatureIpc samplePlatform hlooped
  exact ⟨⟨hsample, haccepted.mp (by decide +kernel)⟩, ⟨hlooped, hcycle.mp (by decide +kernel)⟩⟩

end WolfTrust.ManifestDependencies
