import WolfTrust.FfmAdmission
import WolfTrust.ManifestDependencies

namespace WolfTrust.FfmDeadlock

open Validation Domain Manifest ByteMemory FfmRuntime FfmMachine FfmDiscipline
  FfmLayout FfmAdmission ManifestDependencies

/-- Partition `a` is the caller of a message that a service of `b` has not
answered. -/
def WaitsFor (runtime : Runtime) (a b : PartitionIndex) : Prop :=
  ∃ m, (runtime.messages m).allocated = true ∧ (runtime.messages m).complete = false ∧
    findPartition runtime (runtime.messages m).caller = .ok a ∧
    runtime.layout.partitionIndex (runtime.messages m).serviceIndex = b

instance (runtime : Runtime) (a b : PartitionIndex) : Decidable (WaitsFor runtime a b) :=
  inferInstanceAs (Decidable (∃ _, _ ∧ _ ∧ _ ∧ _))

theorem callerAllowed_partition {runtime : Runtime} {caller : Int} {s : ServiceIndex}
    {p : PartitionIndex} (h : callerAllowed runtime caller s = true)
    (hp : findPartition runtime caller = .ok p) :
    s.val < runtime.layout.serviceCount ∧ (runtime.layout.descriptor s).sid ∈
        (runtime.layout.manifest p).dependencies := by
  obtain ⟨hpositive, -, -⟩ := findPartition_eq_ok hp
  unfold callerAllowed at h
  rw [if_neg (show ¬caller < 0 by omega)] at h
  unfold findPartition at hp
  rw [if_neg (show ¬caller ≤ 0 by omega)] at hp
  split at h
  · cases h
  rename_i hvalid
  push Not at hvalid
  refine ⟨hvalid.2, ?_⟩
  split at h
  · cases h
  rename_i i hi
  rw [hi] at hp
  cases hp
  split at h
  · cases h
  obtain ⟨sid, hmem, hsid⟩ := List.any_eq_true.mp h
  rwa [← beq_iff_eq.mp hsid]

section Manifest

variable {manifest : SystemManifest} {features : Word}
  {platform : ProfileCapabilities}

theorem not_cyclic_of_accepted (h : manifestValidate manifest features platform = .ok ()) :
    ¬Cyclic manifest := by
  simp only [manifestValidate, then_eq_ok_iff] at h
  obtain ⟨-, -, -, -, -, hservices, -, hdependencies⟩ := h
  rcases manifestValidateDependencies_cases hservices with
    ⟨herror, -⟩ | ⟨herror, -, -⟩ | ⟨-, -, hacyclic⟩
  · rw [herror] at hdependencies
    cases hdependencies
  · rw [herror] at hdependencies
    cases hdependencies
  · exact hacyclic

theorem dependsOn_of_waitsFor {runtime reached : Runtime}
    (hboot : Booted manifest features platform runtime) (hkept : Kept runtime.layout reached)
    {a b : PartitionIndex} (h : WaitsFor reached a b) : DependsOn manifest a.val b.val := by
  obtain ⟨m, hallocated, -, ha, hb⟩ := h
  have hpositive := (findPartition_eq_ok ha).1
  have hlt := (findPartition_eq_ok ha).2.1
  have hallowed : callerAllowed reached (reached.messages m).caller
      (reached.messages m).serviceIndex = true :=
    (hkept.2.message m hallocated).resolve_left (by omega)
  obtain ⟨hs, hdependency⟩ := callerAllowed_partition hallowed ha
  obtain ⟨count, hlength, hservices, hruntime⟩ := ffmInit_eq_ok hboot.started
  obtain ⟨hcount, -, -⟩ := countServices_eq_ok hservices
  rw [Nat.zero_add, ← length_flatServices] at hcount
  have hlayout : reached.layout = layoutOf manifest count := by rw [hkept.1, hruntime]
  rw [hlayout] at hs hdependency hb hlt
  obtain ⟨-, hindex, -, hservice⟩ := layoutOf_entry hlength hcount hs
  rw [layoutOf_manifest a hlt] at hdependency
  rw [layoutOf_manifest _ hindex] at hservice
  subst hb
  exact ⟨_, List.getElem?_eq_getElem hlt, _, hdependency, _,
    List.getElem?_eq_getElem hindex, _, hservice, rfl⟩

/-- In every state of every run no partition waits for itself through others. -/
theorem no_ipc_deadlock {runtime : Runtime} (hboot : Booted manifest features platform runtime)
    (memory : Memory) (steps : List Step) (a : PartitionIndex) :
    ¬Relation.TransGen (WaitsFor (run (start runtime memory) steps).runtime) a a := by
  have hkept : Kept runtime.layout (run (start runtime memory) steps).runtime :=
    run_kept steps (kept_of_booted hboot)
  intro hcycle
  refine not_cyclic_of_accepted hboot.accepted ⟨a.val, ?_⟩
  exact hcycle.lift Fin.val fun b c hwaits =>
    dependsOn_of_waitsFor hboot hkept hwaits

/-- Partition 2 waits for partition 3 when it has sent it a connect. -/
theorem no_ipc_deadlock_sample : WaitsFor (run (start sampleRuntime sampleMemory)
      [sampleGate (connectBlock 2 200)]).runtime 0 1 ∧
    ¬Relation.TransGen (WaitsFor (run (start sampleRuntime sampleMemory)
      [sampleGate (connectBlock 2 200)]).runtime) 1 1 :=
  ⟨by decide +kernel, no_ipc_deadlock sampleRuntime_booted sampleMemory
      [sampleGate (connectBlock 2 200)] 1⟩

end Manifest

end WolfTrust.FfmDeadlock
