import WolfTrust.FfmDiscipline

namespace WolfTrust.FfmTypestate

open Domain Manifest ByteMemory FfmRuntime FfmService FfmMachine FfmTables
  FfmInvariant FfmOperations FfmRestart FfmLayout FfmDiscipline

/-- Message `m` is on connection `c` and has not been answered. -/
structure Incomplete (runtime : Runtime) (m : MessageIndex)
    (c : ConnectionIndex) : Prop where
  allocated : (runtime.messages m).allocated = true
  complete : (runtime.messages m).complete = false
  connection : (runtime.messages m).connectionIndex = c

/-- What a message does that holds its connection in a given state. -/
def Holding (message : Message) : ConnectionState → Prop
  | .pendingConnect =>
    message.active = false ∧ message.type = psaIpcConnect
  | .connecting => message.active = true ∧ message.type = psaIpcConnect
  | .pendingRequest => message.active = false ∧ psaIpcCall ≤ message.type
  | .active =>
    message.active = true ∧ message.abandoned = .no ∧ psaIpcCall ≤ message.type
  | .free | .idle | .disconnecting | .error | .terminal => False

def Busy : ConnectionState → Prop
  | .pendingConnect | .connecting | .pendingRequest | .active => True
  | .free | .idle | .disconnecting | .error | .terminal => False

section Legal

variable {message : Message} {state : ConnectionState}

theorem Legal.holding (h : Legal message state) (hcomplete : message.complete = false)
    (htype : message.type = psaIpcConnect ∨ message.type = psaIpcDisconnect ∨
      psaIpcCall ≤ message.type) {other : ConnectionState}
    (hbusy : Busy other) : state = other ↔ Holding message other := by
  unfold Legal at h
  simp only [hcomplete, Bool.false_eq_true, if_false] at h
  rcases htype with hkind | hkind | hkind
  · have hcall : ¬psaIpcCall ≤ message.type := by
      rw [hkind]
      decide
    rw [if_pos hkind] at h
    split at h
    · obtain ⟨rfl, -⟩ := h
      cases other <;> simp_all [Holding, Busy]
    · obtain ⟨rfl, -⟩ := h
      cases other <;> simp_all [Holding, Busy]
  · have hcall : ¬psaIpcCall ≤ message.type := by
      rw [hkind]
      decide
    have hconnect : message.type ≠ psaIpcConnect := by
      rw [hkind]
      decide
    rw [if_neg hconnect, if_pos hkind] at h
    obtain ⟨rfl, -⟩ := h
    cases other <;> simp_all [Holding, Busy]
  · have hkinds : psaIpcConnect < psaIpcCall ∧ psaIpcDisconnect < psaIpcCall := by decide
    have hconnect : message.type ≠ psaIpcConnect := by omega
    have hdisconnect : message.type ≠ psaIpcDisconnect := by omega
    rw [if_neg hconnect, if_neg hdisconnect] at h
    split at h
    · split at h
      · subst h
        cases other <;> simp_all [Holding, Busy]
      · subst h
        cases other <;> simp_all [Holding, Busy]
      · subst h
        cases other <;> simp_all [Holding, Busy]
    · obtain ⟨rfl, -⟩ := h
      cases other <;> simp_all [Holding, Busy]

end Legal

section Runtime

variable {runtime : Runtime} {c : ConnectionIndex} {m : MessageIndex}

theorem Incomplete.belongs (hm : Incomplete runtime m c) (h : RuntimeOk runtime) :
    Belongs (runtime.messages m) (runtime.connections c) := by
  have hbelongs := h.tables.belongs m hm.allocated
  rw [hm.connection] at hbelongs
  exact hbelongs

theorem exists_incomplete (h : RuntimeOk runtime) (hbusy : Busy (runtime.connections c).state) :
    ∃ m, Incomplete runtime m c := by
  have hallocated : (runtime.connections c).allocated = true := by
    by_contra hfree
    rw [(h.tables.connection c).cleared (by simpa using hfree)] at hbusy
    exact hbusy
  by_contra hnone
  have halone : Alone (runtime.connections c).state := by
    refine h.tables.alone c hallocated fun m hm hon => ?_
    -- A message that is complete leaves its connection idle or in error.
    have hcomplete : (runtime.messages m).complete = true := by
      by_contra hopen
      exact hnone ⟨m, hm, by simpa using hopen, hon⟩
    have hlegal := (h.tables.belongs m hm).legal
    rw [hon] at hlegal
    unfold Legal at hlegal
    rw [if_pos hcomplete] at hlegal
    rcases hlegal.2.2 with hstate | hstate | hstate <;> rw [hstate] at hbusy <;>
      exact hbusy
  rcases halone with hstate | hstate | hstate | hstate <;>
    rw [hstate] at hbusy <;> exact hbusy

theorem state_eq_iff (h : RuntimeOk runtime) {state : ConnectionState}
    (hbusy : Busy state) (c : ConnectionIndex) :
    (runtime.connections c).state = state ↔
      ∃ m, Incomplete runtime m c ∧ Holding (runtime.messages m) state := by
  have hholding {m : MessageIndex} (hm : Incomplete runtime m c) :=
    Legal.holding (hm.belongs h).legal hm.complete (h.tables.message m).type hbusy
  constructor
  · intro hstate
    obtain ⟨m, hm⟩ := exists_incomplete h (hstate ▸ hbusy)
    exact ⟨m, hm, (hholding hm).mp hstate⟩
  · rintro ⟨m, hm, hdoing⟩
    exact (hholding hm).mpr hdoing

/-- What `psa_get` hands out: an unanswered message for the service of its signal,
on a connection to that service that is in use. -/
structure Delivers (runtime : Runtime) (actor : Int) (signal : Word)
    (msg : PsaMsg) (m : MessageIndex) (c : ConnectionIndex) : Prop where
  handle : msg.handle = makeHandle handleMessage m (runtime.messages m).generation
  incomplete : Incomplete runtime m c
  allocated : (runtime.connections c).allocated = true
  state : (runtime.connections c).state ≠ .free ∧ (runtime.connections c).state ≠ .idle ∧
    (runtime.connections c).state ≠ .terminal
  service : (runtime.connections c).serviceIndex = (runtime.messages m).serviceIndex
  server : runtime.layout.server (runtime.connections c).serviceIndex = actor
  signal : (runtime.layout.descriptor (runtime.connections c).serviceIndex).signal = signal

theorem ffmGet_delivers (h : RuntimeOk runtime) {actor : Int} {signal : Word} {msg : PsaMsg}
    {after : Runtime} (hget : ffmGet runtime actor signal = (.ok msg, after)) :
    ∃ m c, Delivers runtime actor signal msg m c := by
  unfold ffmGet at hget
  split at hget
  · cases hget
  split at hget
  · cases hget
  rename_i p hp
  split at hget
  · cases hget
  rename_i s hs
  split at hget
  · cases hget
  rename_i m hhead
  obtain ⟨-, hpartition, hsignal⟩ := findServiceBySignal_eq_some hs
  obtain ⟨hallocated, -, hcomplete, hservice⟩ :=
    waiting_service (h.queues.waiting_of_head hhead)
  have hm : Incomplete runtime m (runtime.messages m).connectionIndex :=
    ⟨hallocated, hcomplete, rfl⟩
  have hbelongs := hm.belongs h
  obtain ⟨hfree, hterminal, hidle⟩ := Legal.incomplete hbelongs.legal hcomplete
  refine ⟨m, _, ?_, hm, hbelongs.allocated, ⟨hfree, hidle, hterminal⟩, hbelongs.service, ?_, ?_⟩
  · cases hget
    simp [deliverMessage, Runtime.setMessage]
  · rw [hbelongs.service, hservice, Layout.server, hpartition]
    exact (findPartition_eq_ok hp).2.2
  · rw [hbelongs.service, hservice]
    exact hsignal

end Runtime

/-- The state of every connection is what its unanswered message is doing. -/
structure Typestate (runtime : Runtime) : Prop where
  belongs : ∀ m c, Incomplete runtime m c → (runtime.connections c).allocated = true ∧
      (runtime.connections c).caller = (runtime.messages m).caller ∧
      (runtime.connections c).serviceIndex = (runtime.messages m).serviceIndex
  unique : ∀ m n c, Incomplete runtime m c → Incomplete runtime n c → m = n
  pendingConnect : ∀ c, (runtime.connections c).state = .pendingConnect ↔
    ∃ m, Incomplete runtime m c ∧ (runtime.messages m).active = false ∧
      (runtime.messages m).type = psaIpcConnect
  connecting : ∀ c, (runtime.connections c).state = .connecting ↔
    ∃ m, Incomplete runtime m c ∧ (runtime.messages m).active = true ∧
      (runtime.messages m).type = psaIpcConnect
  pendingRequest : ∀ c, (runtime.connections c).state = .pendingRequest ↔
    ∃ m, Incomplete runtime m c ∧ (runtime.messages m).active = false ∧
      psaIpcCall ≤ (runtime.messages m).type
  active : ∀ c, (runtime.connections c).state = .active ↔
    ∃ m, Incomplete runtime m c ∧ (runtime.messages m).active = true ∧
      (runtime.messages m).abandoned = .no ∧
      psaIpcCall ≤ (runtime.messages m).type
  idle : ∀ c, (runtime.connections c).state = .idle → ∀ m, ¬Incomplete runtime m c

theorem RuntimeOk.typestate {runtime : Runtime} (h : RuntimeOk runtime) : Typestate runtime := by
  refine ⟨fun m c hm => ?_, fun m n c hm hn => ?_, state_eq_iff h trivial,
    state_eq_iff h trivial, state_eq_iff h trivial, state_eq_iff h trivial,
    fun c hidle m hm => ?_⟩
  · have hbelongs := hm.belongs h
    exact ⟨hbelongs.allocated, hbelongs.caller, hbelongs.service⟩
  · exact h.tables.unique m n hm.allocated hn.allocated (hm.connection.trans hn.connection.symm)
  · exact (Legal.incomplete (hm.belongs h).legal hm.complete).2.2 hidle

/-- In every state a disciplined run reaches, connections and messages agree
and `psa_get` delivers only on connections in use that belong to its service. -/
theorem connection_typestate {manifest : SystemManifest} {features : Word}
    {platform : ProfileCapabilities} {runtime : Runtime}
    (hboot : Booted manifest features platform runtime) (memory : Memory) (steps : List Step)
    (hsteps : Along Disciplined (start runtime memory) steps) :
    let reached := (run (start runtime memory) steps).runtime
    Typestate reached ∧ ∀ actor signal msg after, ffmGet reached actor signal = (.ok msg, after) →
        ∃ m c, Delivers reached actor signal msg m c := by
  intro reached
  have hok := (run_ok hboot memory steps hsteps).runtime
  constructor
  · exact RuntimeOk.typestate hok
  · intro actor signal msg after hget
    exact ffmGet_delivers hok hget

/-- A connect of client -1 to service 1 that partition 3 has taken. -/
theorem connection_typestate_sample :
    let steps : List Step := [.connect (-1) 200 1, sampleGate (getBlock 3)]
    let reached := (run sampleMachine steps).runtime
    Along Disciplined sampleMachine steps ∧
      ∃ m, Incomplete reached m 0 ∧ (reached.messages m).active = true := by
  intro steps reached
  have hsteps : Along Disciplined sampleMachine steps := by decide +kernel
  have hstate : (reached.connections 0).state = .connecting := by decide +kernel
  obtain ⟨m, hm, hactive, -⟩ := ((connection_typestate sampleRuntime_booted
    sampleMemory steps hsteps).1.connecting 0).mp hstate
  exact ⟨hsteps, m, hm, hactive⟩

/-- The connect that partition 3 has taken outlives its connection, which the
dispatch for the terminated client -1 released. -/
theorem orphaned_connect :
    let reached := (run sampleMachine orphanRun).runtime
    Along Orderly sampleMachine orphanRun ∧ Incomplete reached 0 1 ∧
      (reached.connections 1).allocated = false :=
  ⟨by decide +kernel, ⟨by decide +kernel, by decide +kernel, by decide +kernel⟩,
    by decide +kernel⟩

end WolfTrust.FfmTypestate
