import WolfTrust.FfmSlots
import WolfTrust.SlotLease

namespace WolfTrust.FfmHandles

open Domain Manifest ByteMemory SlotLease FfmRuntime FfmVectors FfmClient
  FfmRecovery FfmMachine FfmTables FfmInvariant FfmTransition FfmPreservation
  FfmTermination FfmRestart FfmLayout FfmDiscipline FfmSlots

def delivery (layout : Layout) (m : MessageIndex) (message : Message) : Event :=
  .messageDelivered (layout.server message.serviceIndex)
    (makeHandle handleMessage m message.generation) m message.releases

def messageLease (layout : Layout) (m : MessageIndex) (message : Message) : Lease Event :=
  { allocation := message.releases
    phase :=
      if message.active then .held (delivery layout m message)
      else if message.complete then .spent
      else .fresh }

def messageGrants (m : MessageIndex) : Event → Option Nat
  | .messageDelivered _ _ n a => if n = m then some a else none
  | _ => none

/-- The handle of a delivery carries the generation of its allocation. -/
def messageLawful : Event → Prop
  | .messageDelivered _ handle m a =>
    handle = makeHandle handleMessage m (generationAfter a)
  | _ => True

/-- A message handle ends with the answer to its message, or with the restart of
the partition that holds it. -/
def messageRevokes : Event → Event → Prop
  | .messageDelivered partition _ m a, e =>
    e = .messageAnswered m a ∨ e = .partitionRestarted partition
  | _, _ => False

section MessageLease

variable {spared : Prop} {layout : Layout} {m : MessageIndex}
  {message changed : Message} {events : List Event}

theorem messageGrants_of_not_about {e : Event} (h : ¬About m e) : messageGrants m e = none := by
  cases e <;> simp_all [messageGrants, About, allocationOf]

variable {runtime : Runtime} {caller : Int} {a : Nat}

theorem answered_quiet (hquiet : ∀ e ∈ events, About m e → e = .messageAnswered m a) :
    ∀ e ∈ events, messageGrants m e = none := by
  intro e he
  by_cases habout : About m e
  · rw [hquiet e he habout]
    rfl
  · exact messageGrants_of_not_about habout

theorem messageLease_idle (h : message.active = false) (h' : message.complete = false) :
    messageLease layout m message =
      { allocation := message.releases, phase := .fresh } := by
  simp [messageLease, h, h']

theorem messageLease_active (h : message.active = true) : messageLease layout m message =
      { allocation := message.releases
        phase := .held (delivery layout m message) } := by
  simp [messageLease, h]

theorem held_eq {g : Event} (h : (messageLease layout m message).phase = .held g) :
    message.active = true ∧ g = delivery layout m message := by
  simp only [messageLease] at h
  split_ifs at h with hactive
  exact ⟨hactive, (Phase.held.inj h).symm⟩

theorem stay_of_not_revoked (hquiet : ∀ e ∈ events, ¬About m e) (hserver : message.active = true →
      ∀ id, Event.partitionRestarted id ∈ events → layout.server message.serviceIndex ≠ id) :
    Move (messageGrants m) messageLawful messageRevokes (messageLease layout m message)
      (messageLease layout m message) events := by
  refine .stay events (fun e he => messageGrants_of_not_about (hquiet e he)) ?_
  intro g hg e he hrevokes
  obtain ⟨hactive, rfl⟩ := held_eq hg
  rcases hrevokes with rfl | rfl
  · exact hquiet _ he ⟨_, rfl⟩
  · exact hserver hactive _ he rfl

theorem messageLease_of_header (h : SameHeader message changed) :
    messageLease layout m changed = messageLease layout m message := by
  simp only [messageLease, delivery, h.active, h.complete, h.releases, h.serviceIndex, h.generation]

theorem stay_nil (hsame : messageLease layout m changed = messageLease layout m message) :
    Move (messageGrants m) messageLawful messageRevokes (messageLease layout m message)
      (messageLease layout m changed) [] := by
  rw [hsame]
  exact stay_of_not_revoked not_about_nil fun _ _ hid => (by cases hid)

theorem MessageMove.lease (h : MessageMove True spared layout m message changed events) :
    Move (messageGrants m) messageLawful messageRevokes (messageLease layout m message)
      (messageLease layout m changed) events := by
  cases h with
  | kept events hquiet hserver => exact stay_of_not_revoked hquiet (hserver trivial)
  | left | callLeft => exact stay_nil rfl
  | addressed caller c s type events hquiet hfree hidle =>
    obtain ⟨hactive, hcomplete⟩ := hidle trivial
    have hsame : messageLease layout m (placed message caller c s type) =
        messageLease layout m message := by
      rw [messageLease_idle hactive hcomplete]
      exact messageLease_idle hactive hcomplete
    rw [hsame]
    refine stay_of_not_revoked hquiet fun h => ?_
    rw [hactive] at h
    cases h
  | called ports caller c s type memory memory' inVec outVec _ hfree hidle
      hprepared =>
      obtain ⟨hactive, hcomplete⟩ := hidle trivial
      have hsame : messageLease layout m changed = messageLease layout m message := by
        rw [messageLease_of_header (prepareVectors_header hprepared),
          messageLease_idle hactive hcomplete]
        exact messageLease_idle hactive hcomplete
      rw [hsame]
      refine .stay _ (fun e he => ?_) fun g hg => ?_
      · obtain rfl := List.mem_singleton.mp he
        rfl
      · rw [(held_eq hg).1] at hactive
        cases hactive
  | delivered actor hwaits =>
    obtain ⟨hactive, hcomplete, hgeneration, rfl⟩ := hwaits trivial
    rw [messageLease_idle hactive hcomplete, messageLease_active rfl]
    refine .grant _ rfl (by simp [messageGrants, delivery]) ?_
    simp only [delivery, messageLawful, hgeneration]
  | chunk _ event hallocated hchunk =>
    rw [messageLease_of_header hchunk.header]
    refine .stay _ (fun e he => ?_) fun g hg e he hrevokes => ?_
    · obtain rfl := List.mem_singleton.mp he
      cases hchunk <;> rfl
    · obtain rfl := List.mem_singleton.mp he
      obtain ⟨-, rfl⟩ := held_eq hg
      cases hchunk <;> simp [messageRevokes, delivery] at hrevokes
  | answered status _ hanswered hquiet => exact .spend _ (answered_quiet hquiet)
  | replaced =>
    refine .renew _ fun e he => ?_
    obtain rfl := List.mem_singleton.mp he
    rfl
  | released _ hquiet => exact .renew _ (answered_quiet hquiet)

theorem MessageMove.revoked (h : MessageMove True True layout m message changed events) {g : Event}
    (hg : (messageLease layout m message).phase = .held g) :
    messageLease layout m changed = messageLease layout m message ∨
      ∃ e ∈ events, messageRevokes g e := by
  obtain ⟨hactive, rfl⟩ := held_eq hg
  cases h with
  | kept | left | callLeft => exact .inl rfl
  | addressed caller c s type events hquiet hfree hidle =>
    rw [(hidle trivial).1] at hactive
    cases hactive
  | called ports caller c s type memory memory' inVec outVec _ hfree hidle =>
    rw [(hidle trivial).1] at hactive
    cases hactive
  | delivered actor hwaits =>
    rw [(hwaits trivial).1] at hactive
    cases hactive
  | chunk _ event hallocated hchunk => exact .inl (messageLease_of_header hchunk.header)
  | answered status _ hanswered => exact .inr ⟨_, hanswered, .inl rfl⟩
  | replaced => exact .inr ⟨_, by simp, .inl rfl⟩
  | released _ hquiet hrevoked => exact .inr ⟨_, hrevoked trivial trivial hactive, .inl rfl⟩

end MessageLease

def connectionLease (c : ConnectionIndex) (connection : Connection) : Lease Event :=
  { allocation := connection.releases
    phase :=
      if connection.allocated then
        .held (.connectionOpened connection.caller
          (makeHandle handleConnection c connection.generation) c
          connection.releases)
      else .fresh }

def connectionGrants (c : ConnectionIndex) : Event → Option Nat
  | .connectionOpened _ _ d a => if d = c then some a else none
  | _ => none

def connectionLawful : Event → Prop
  | .connectionOpened _ handle c a =>
    handle = makeHandle handleConnection c (generationAfter a)
  | _ => True

/-- A connection ends with the restart of its client. -/
def connectionRevokes : Event → Event → Prop
  | .connectionOpened caller _ _ _, e => e = .partitionRestarted caller
  | _, _ => False

/-- A handle that is issued is that of a connection which is open. -/
def Grounded (runtime : Runtime) : Event → Prop
  | .connectionIssued caller handle c a =>
    (connectionLease c (runtime.connections c)).phase = .held (.connectionOpened caller handle c a)
  | _ => True

def ConnectionStep (c : ConnectionIndex) (before after : Runtime) : Prop :=
  ∃ events, after.history = events ++ before.history ∧ (∀ e ∈ events, Grounded before e) ∧
    Move (connectionGrants c) connectionLawful connectionRevokes
      (connectionLease c (before.connections c))
      (connectionLease c (after.connections c)) events

section ConnectionLease

variable {rings : PartitionIndex → Word → Prop} {fresh guarded : Prop} {kept : Set MessageIndex}
  {actor : Int} {before after : Runtime} {c d : ConnectionIndex} {connection changed : Connection}
  {events : List Event} {contents : ServiceIndex → List MessageIndex}

/-- Events that neither open a connection nor restart a partition, and issue only
handles of open connections. -/
def Quiet (runtime : Runtime) (events : List Event) : Prop :=
  ∀ e ∈ events, (∀ c, connectionGrants c e = none) ∧
    (∀ id, e ≠ .partitionRestarted id) ∧ Grounded runtime e

theorem quiet_of_allocation (runtime : Runtime) {e : Event} {m : MessageIndex}
    (he : allocationOf e = some (m, a)) : Quiet runtime [e] := by
  intro x hx
  obtain rfl := List.mem_singleton.mp hx
  refine ⟨fun c => ?_, ?_, ?_⟩
  · cases x <;> simp_all [allocationOf, connectionGrants]
  · rintro id rfl
    cases he
  · cases x <;> trivial

theorem quiet_of_gives {fate : Fate} (h : Gives True before actor c fate events)
    (hc : (before.connections c).allocated = true)
    (hcaller : (before.connections c).caller = actor) : Quiet before events := by
  cases h with
  | nothing =>
    intro e he
    cases he
  | handle handle hhandle =>
    intro e he
    obtain rfl := List.mem_singleton.mp he
    refine ⟨fun _ => rfl, fun id hid => (by cases hid), ?_⟩
    simp [Grounded, connectionLease, hc, hcaller, hhandle trivial]

theorem Quiet.nil (runtime : Runtime) : Quiet runtime [] := by
  intro e he
  cases he

theorem connectionRevokes_restart {g e : Event}
    (h : connectionRevokes g e) : ∃ id, e = .partitionRestarted id := by
  cases g <;> simp_all [connectionRevokes]

theorem Quiet.stay (hquiet : Quiet before events) (lease : Lease Event) :
    Move (connectionGrants c) connectionLawful connectionRevokes lease lease events := by
  refine .stay events (fun e he => (hquiet e he).1 c) ?_
  intro g _ e he hrevokes
  obtain ⟨id, rfl⟩ := connectionRevokes_restart hrevokes
  exact (hquiet _ he).2.1 id rfl

theorem Quiet.renew (hquiet : Quiet before events) :
    Move (connectionGrants c) connectionLawful connectionRevokes (connectionLease c connection)
      (connectionLease c connection.released) events :=
  .renew events fun e he => (hquiet e he).1 c

theorem Quiet.fate (hquiet : Quiet before events) (fate : Fate) :
    Move (connectionGrants c) connectionLawful connectionRevokes (connectionLease c connection)
      (connectionLease c (fate.apply connection)) events := by
  cases fate with
  | kept | failed => exact hquiet.stay _
  | freed => exact hquiet.renew

theorem Quiet.step (hquiet : Quiet before events)
    (hhistory : after.history = events ++ before.history)
    (hconnections : after.connections = Function.update before.connections d changed)
    (h : Move (connectionGrants d) connectionLawful connectionRevokes
      (connectionLease d (before.connections d)) (connectionLease d changed)
      events) :
    ConnectionStep c before after := by
  refine ⟨events, hhistory, fun e he => (hquiet e he).2.2, ?_⟩
  rw [hconnections]
  by_cases hcd : c = d
  · subst hcd
    rw [Function.update_self]
    exact h
  · rw [Function.update_of_ne hcd]
    exact hquiet.stay _

theorem Quiet.same (hquiet : Quiet before events)
    (hhistory : after.history = events ++ before.history)
    (hconnections : after.connections = before.connections) : ConnectionStep c before after := by
  refine ⟨events, hhistory, fun e he => (hquiet e he).2.2, ?_⟩
  rw [hconnections]
  exact hquiet.stay _

theorem opened_step (hfree : (before.connections d).allocated = false)
    (hchanged : changed.allocated = true ∧ changed.generation = (before.connections d).generation ∧
      changed.releases = (before.connections d).releases)
    (hstamp : (before.connections d).generation = generationAfter (before.connections d).releases)
    (hhistory : after.history =
      [.connectionOpened changed.caller
        (makeHandle handleConnection d (before.connections d).generation) d
        (before.connections d).releases] ++ before.history)
    (hconnections : after.connections = Function.update before.connections d changed) :
    ConnectionStep c before after := by
  obtain ⟨hallocated, hgeneration, hreleases⟩ := hchanged
  refine ⟨_, hhistory, by simp [Grounded], ?_⟩
  rw [hconnections]
  by_cases hcd : c = d
  · subst hcd
    rw [Function.update_self]
    simp only [connectionLease, hfree, hallocated, hgeneration, hreleases]
    refine .grant _ rfl (by simp [connectionGrants]) ?_
    rw [hstamp]
    rfl
  · rw [Function.update_of_ne hcd]
    refine .stay _ (fun e he => ?_) fun g _ e he hrevokes => ?_
    · obtain rfl := List.mem_singleton.mp he
      simp [connectionGrants, Ne.symm hcd]
    · obtain rfl := List.mem_singleton.mp he
      obtain ⟨id, hid⟩ := connectionRevokes_restart hrevokes
      cases hid

theorem Transition.connectionStep (t : Transition rings fresh True kept actor before after)
    (h : RuntimeOk before) : ConnectionStep c before after := by
  cases t with
  | stay | lifecycle | raised | cleared | left => exact (Quiet.nil before).same rfl rfl
  | rejected => exact (Quiet.nil before).step rfl rfl (Quiet.nil before).renew
  | opened d m s hactor hs hd =>
    have hchanged : (openedConnection before actor s d).allocated = true ∧
        (openedConnection before actor s d).generation = (before.connections d).generation ∧
        (openedConnection before actor s d).releases =
          (before.connections d).releases := ⟨rfl, rfl, rfl⟩
    exact opened_step hd hchanged (h.tables.connection d).generation rfl rfl
  | refused =>
    unfold refuseConnection
    split
    · exact (Quiet.nil before).step rfl rfl ((Quiet.nil before).stay _)
    · exact (Quiet.nil before).step rfl rfl ((Quiet.nil before).stay _)
  | givenBack d m fate => exact (Quiet.nil before).step rfl rfl ((Quiet.nil before).fate fate)
  | called | answered | requeued =>
    exact (quiet_of_allocation before rfl).step rfl rfl ((quiet_of_allocation before rfl).stay _)
  | closeLeft | closeSent | reversed | callLeft =>
    exact (Quiet.nil before).step rfl rfl ((Quiet.nil before).stay _)
  | delivered s m hs hserver hhead =>
    obtain ⟨-, -, -, hservice⟩ :=
      waiting_service (h.queues.waiting_of_head hhead)
    rw [deliverMessage_eq hservice rfl]
    exact (quiet_of_allocation before rfl).step rfl rfl ((quiet_of_allocation before rfl).stay _)
  | chunk m message event hserves hchunk =>
    exact (quiet_of_allocation before (Chunk.allocation hchunk)).same rfl rfl
  | retired d m status state fate =>
    have hquiet : Quiet before [.messageAnswered m (before.messages m).releases] :=
      quiet_of_allocation before rfl
    exact hquiet.step rfl rfl (@Quiet.fate before d (withState before d state) _ hquiet fate)
  | cancelled d m s fate => exact (Quiet.nil before).step rfl rfl ((Quiet.nil before).fate fate)
  | harvested d m fate hkept hcomplete howns events hgives =>
    have howns := howns trivial
    have hbelongs := h.tables.belongs m howns.allocated
    rw [howns.connection] at hbelongs
    have hquiet := quiet_of_gives hgives hbelongs.allocated (hbelongs.caller.trans howns.caller)
    exact hquiet.step rfl rfl (hquiet.fate fate)

theorem ClientGone.connectionStep
    (h : ClientGone caller before contents after) : ConnectionStep c before after := by
  refine ⟨[], h.history, fun e he => (by cases he), ?_⟩
  rw [h.connection c]
  split
  · exact (Quiet.nil before).renew
  · exact (Quiet.nil before).stay _

theorem Failed.connectionStep {id status : Int}
    (h : Failed id status before contents after) : ConnectionStep c before after := by
  obtain ⟨events, hhistory, hevents⟩ := h.events
  have hquiet : Quiet before events := by
    intro e he
    obtain ⟨m, -, rfl⟩ := (hevents e).mp he
    have hquiet : Quiet before [.messageAnswered m (before.messages m).releases] :=
      quiet_of_allocation before rfl
    exact hquiet _ (List.mem_singleton_self _)
  refine ⟨events, hhistory, fun e he => (hquiet e he).2.2, ?_⟩
  rcases h.connection c with ⟨-, -, -, -, hc⟩ | ⟨-, ⟨-, hc⟩ | ⟨-, hc⟩⟩
  · rw [hc]
    exact hquiet.renew
  · rw [hc]
    exact hquiet.stay _
  · rw [hc]
    exact hquiet.stay _

theorem ffmPartitionRestarted_connectionRun {id : Int} {p : PartitionIndex} (h : RuntimeOk before)
    (status : Int) (hp : findPartition before id = .ok p) :
    Relation.ReflTransGen (ConnectionStep c) before (ffmPartitionRestarted before id status).2 := by
  obtain ⟨contents, hlists⟩ := lists_of_holds h.queues
  obtain ⟨failed, released, hfailed, hgone, hafter⟩ :=
    ffmPartitionRestarted_restarted h hlists status hp
  refine ((Relation.ReflTransGen.single (Failed.connectionStep hfailed)).tail
    (ClientGone.connectionStep hgone)).tail ?_
  rw [hafter]
  refine ⟨[.partitionRestarted id], rfl, by simp [Grounded], .stay _ (fun e he => ?_) ?_⟩
  · obtain rfl := List.mem_singleton.mp he
    rfl
  · intro g hg e he hrevokes
    obtain rfl := List.mem_singleton.mp he
    simp only [connectionLease] at hg
    split_ifs at hg with hallocated
    obtain rfl := Phase.held.inj hg
    obtain ⟨hsame, hcaller⟩ := hgone.connection_allocated hallocated
    refine hcaller ?_
    rw [← hsame]
    exact (Event.partitionRestarted.inj hrevokes).symm

theorem step_connectionRun {machine : Machine} (s : Step)
    (h : MachineOk machine) (hs : Orderly machine s) (c : ConnectionIndex) :
    Relation.ReflTransGen (ConnectionStep c) machine.runtime (step machine s).runtime := by
  by_cases hrecovers : Recovers s
  · cases s with
    | partitionRestarted id status =>
      cases hp : findPartition machine.runtime id with
      | error =>
        simp only [step, ffmPartitionRestarted, hp]
        exact .refl
      | ok => exact ffmPartitionRestarted_connectionRun h.runtime status hp
    | failClient caller =>
      obtain ⟨contents, hlists⟩ := lists_of_holds h.runtime.queues
      exact .single (ClientGone.connectionStep
        (ffmFailClientConnections_gone h.runtime hlists caller))
    | _ => exact absurd hrecovers not_false
  · have t := @step_transition True machine s (fun _ => ⟨h, hs⟩) hrecovers
    exact .single (Transition.connectionStep t h.runtime)

end ConnectionLease

section Decoding

variable {type index generation limit : Nat} {handle : Int}

theorem makeHandle_eq (htype : type < 4) (hindex : index < 31) (hgeneration : generation < 2 ^ 24) :
    makeHandle type index generation =
      ((128 * generation + 32 * type + (index + 1) : Nat) : Int) := by
  have hgen : generation &&& handleGenMask = generation := by
    rw [show handleGenMask = 2 ^ 24 - 1 from rfl, Nat.and_two_pow_sub_one_eq_mod]
    exact Nat.mod_eq_of_lt hgeneration
  have hkind : type &&& handleTypeMask = type := by
    rw [show handleTypeMask = 2 ^ 2 - 1 from rfl, Nat.and_two_pow_sub_one_eq_mod]
    exact Nat.mod_eq_of_lt htype
  have hfirst : generation <<< 7 ||| type <<< 5 = 2 ^ 5 * (4 * generation + type) := by
    rw [Nat.shiftLeft_eq, Nat.shiftLeft_eq, Nat.mul_comm generation,
      ← Nat.two_pow_add_eq_or_of_lt (by omega)]
    omega
  unfold makeHandle
  rw [hgen, hkind, show handleGenShift = 7 from rfl,
    show handleTypeShift = 5 from rfl, hfirst,
    ← Nat.two_pow_add_eq_or_of_lt (show index + 1 < 2 ^ 5 by omega)]
  omega

theorem decodeHandle_iff : decodeHandle handle type limit = .ok (index, generation) ↔
    0 < handle ∧ handle.toNat / 32 % 4 = type ∧ handle.toNat % 32 = index + 1 ∧ index < limit ∧
      handle.toNat / 128 = generation ∧ generation ≠ 0 := by
  have hkind : handle.toNat >>> handleTypeShift &&& handleTypeMask = handle.toNat / 32 % 4 := by
    rw [show handleTypeMask = 2 ^ 2 - 1 from rfl,
      Nat.and_two_pow_sub_one_eq_mod, Nat.shiftRight_eq_div_pow]
    rfl
  have hslot : handle.toNat &&& handleIndexMask = handle.toNat % 32 := by
    rw [show handleIndexMask = 2 ^ 5 - 1 from rfl, Nat.and_two_pow_sub_one_eq_mod]
  have hgen : handle.toNat >>> handleGenShift = handle.toNat / 128 := by
    rw [Nat.shiftRight_eq_div_pow]
    rfl
  unfold decodeHandle
  simp only [hkind, hslot, hgen]
  constructor
  · intro h
    split_ifs at h with hpos hfields hzero
    obtain ⟨hindex, hgeneration⟩ := Prod.mk.inj (Except.ok.inj h)
    push Not at hfields
    refine ⟨by omega, hfields.1, ?_, ?_, hgeneration, ?_⟩ <;> omega
  · rintro ⟨hpos, hkind, hindex, hlimit, hgeneration, hzero⟩
    rw [if_neg (by omega), if_neg (by omega), if_neg (by omega)]
    rw [hindex, hgeneration, Nat.add_sub_cancel]

theorem eq_makeHandle (h : decodeHandle handle type limit =
      .ok (index, generation)) (hgeneration : generation < 2 ^ 24) :
    handle = makeHandle type index generation ∧ index < limit := by
  obtain ⟨hpos, hkind, hindex, hbound, hgen, -⟩ := decodeHandle_iff.mp h
  refine ⟨?_, hbound⟩
  rw [makeHandle_eq (by omega) (by omega) hgeneration]
  omega

theorem makeHandle_inj {index' generation' : Nat} (htype : type < 4)
    (hindex : index < 31) (hindex' : index' < 31)
    (hgeneration : generation < 2 ^ 24) (hgeneration' : generation' < 2 ^ 24)
    (h : makeHandle type index generation = makeHandle type index' generation') :
    index = index' ∧ generation = generation' := by
  rw [makeHandle_eq htype hindex hgeneration, makeHandle_eq htype hindex' hgeneration'] at h
  omega

theorem generationAfter_inj {a b : Nat} (hab : a ≤ b) (hclose : b - a < 2 ^ 24 - 1)
    (h : generationAfter a = generationAfter b) : a = b := by
  unfold generationAfter at h
  omega

theorem generationAfter_bounds (a : Nat) : generationAfter a < 2 ^ 24 ∧ generationAfter a ≠ 0 := by
  unfold generationAfter
  omega

end Decoding

section Accounted

variable {before after : Runtime} {m : MessageIndex} {c : ConnectionIndex}
  {platform : ProfileCapabilities} {manifest : SystemManifest}

def MessageRecorded (runtime : Runtime) (m : MessageIndex) : Prop :=
  Recorded (messageGrants m) messageLawful messageRevokes
    (messageLease runtime.layout m (runtime.messages m)) runtime.history

/-- The history accounts for the openings of slot `c`, and no handle is issued
before its connection is open. -/
structure ConnectionRecorded (runtime : Runtime) (c : ConnectionIndex) :
    Prop where
  opened : Recorded (connectionGrants c) connectionLawful connectionRevokes
    (connectionLease c (runtime.connections c)) runtime.history
  issued : ∀ later earlier caller handle a, runtime.history =
      later ++ .connectionIssued caller handle c a :: earlier →
    .connectionOpened caller handle c a ∈ earlier

theorem MessageRun.recorded {spared : Prop} (h : MessageRun True spared m before after)
    (hrecorded : MessageRecorded before m) : MessageRecorded after m := by
  induction h with
  | refl => exact hrecorded
  | tail _ hstep ih =>
    obtain ⟨events, hhistory, hlayout, hmove⟩ := hstep
    unfold MessageRecorded
    rw [hhistory, hlayout]
    exact (MessageMove.lease hmove).recorded ih

theorem ConnectionRun.recorded (h : Relation.ReflTransGen (ConnectionStep c) before after)
    (hrecorded : ConnectionRecorded before c) : ConnectionRecorded after c := by
  induction h with
  | refl => exact hrecorded
  | tail _ hstep ih =>
    obtain ⟨events, hhistory, hgrounded, hmove⟩ := hstep
    refine ⟨?_, ?_⟩
    · rw [hhistory]
      exact hmove.recorded ih.opened
    · intro later earlier caller handle a hsplit
      rw [hhistory] at hsplit
      rcases List.append_eq_append_iff.mp hsplit with
        ⟨middle, -, hold⟩ | ⟨middle, rfl, hnew⟩
      · exact ih.issued middle earlier caller handle a hold
      · rcases middle with _ | ⟨e, middle⟩
        · exact ih.issued [] earlier caller handle a hnew.symm
        · obtain ⟨rfl, rfl⟩ := List.cons.inj hnew
          have hheld := hgrounded (.connectionIssued caller handle c a) (by simp)
          exact List.mem_append_right _ (ih.opened.granted _ hheld).1

/-- The machine is sound and its history accounts for every slot. -/
structure Accounted (machine : Machine) : Prop where
  ok : MachineOk machine
  message : ∀ m, MessageRecorded machine.runtime m
  connection : ∀ c, ConnectionRecorded machine.runtime c

theorem step_accounted {machine : Machine} (s : Step) (h : Accounted machine)
    (hs : Disciplined machine s) : Accounted (step machine s) := by
  refine ⟨step_ok s h.ok hs, fun m => ?_, fun c => ?_⟩
  · have hrun : MessageRun True False m machine.runtime _ :=
      step_messageRun_ok s h.ok hs.2 False.elim m
    exact MessageRun.recorded hrun (h.message m)
  · exact ConnectionRun.recorded (step_connectionRun s h.ok hs.2 c) (h.connection c)

theorem start_accounted {features : Word} (hboot : Booted manifest features platform runtime)
    (memory : Memory) : Accounted (start runtime memory) := by
  have hok := run_ok hboot memory [] trivial
  obtain ⟨count, -, -, rfl⟩ := ffmInit_eq_ok hboot.started
  refine ⟨hok, fun m => .nil fun g hg => ?_,
    fun c => ⟨.nil fun g hg => ?_, fun later earlier _ _ _ hsplit => ?_⟩⟩
  · cases hg
  · cases hg
  · simp [start] at hsplit

theorem run_accounted {features : Word}
    (hboot : Booted manifest features platform runtime) (memory : Memory) (steps : List Step)
    (hsteps : Along Disciplined (start runtime memory) steps) :
    Accounted (run (start runtime memory) steps) :=
  run_induction (fun _ s h hs => step_accounted s h hs) steps _
    (start_accounted hboot memory) hsteps

end Accounted

section Accepted

variable {machine : Machine} {handle : Int} {m : MessageIndex}

theorem connectionFromHandle_makeHandle (h : MachineOk machine)
    {c : ConnectionIndex} (haccept : connectionFromHandle machine.runtime caller handle = .ok c) :
    (machine.runtime.connections c).allocated = true ∧
      (machine.runtime.connections c).caller = caller ∧
      handle = makeHandle handleConnection c (machine.runtime.connections c).generation := by
  obtain ⟨hallocated, hcaller, -, index, hdecode, rfl⟩ :=
    connectionFromHandle_eq_ok haccept
  have hgeneration := (h.runtime.tables.connection (Fin.ofNat 16 index)).generation
  obtain ⟨hhandle, hindex⟩ := eq_makeHandle hdecode (hgeneration ▸ (generationAfter_bounds _).1)
  refine ⟨hallocated, hcaller, ?_⟩
  rw [hhandle, Fin.val_ofNat, Nat.mod_eq_of_lt (show index < 16 from hindex)]

theorem messageFromHandle_makeHandle (h : MachineOk machine) {partition : Int}
    (haccept : messageFromHandle machine.runtime partition handle = .ok m) :
    (machine.runtime.messages m).active = true ∧ machine.runtime.layout.server
        (machine.runtime.messages m).serviceIndex = partition ∧
      handle = makeHandle handleMessage m (machine.runtime.messages m).generation := by
  obtain ⟨-, hactive, hserver, index, hdecode, rfl⟩ :=
    messageFromHandle_eq_ok haccept
  have hgeneration := (h.runtime.tables.message (Fin.ofNat 8 index)).generation
  obtain ⟨hhandle, hindex⟩ := eq_makeHandle hdecode (hgeneration ▸ (generationAfter_bounds _).1)
  refine ⟨hactive, hserver, ?_⟩
  rw [hhandle, Fin.val_ofNat, Nat.mod_eq_of_lt (show index < 8 from hindex)]

theorem messageFromHandle_of_active (h : RuntimeOk runtime)
    (hactive : (runtime.messages m).active = true) :
    messageFromHandle runtime (runtime.layout.server (runtime.messages m).serviceIndex)
      (makeHandle handleMessage m (runtime.messages m).generation) = .ok m := by
  have hallocated := (RuntimeOk.active h hactive).1
  have hgeneration := (h.tables.message m).generation
  have hbounds := generationAfter_bounds (runtime.messages m).releases
  rw [← hgeneration] at hbounds
  have hdecode : decodeHandle (makeHandle handleMessage m
      (runtime.messages m).generation) handleMessage ffmMaxMessages =
      .ok (m.val, (runtime.messages m).generation) := by
    rw [decodeHandle_iff, makeHandle_eq (by decide) (by omega) hbounds.1,
      show handleMessage = 2 from rfl, show ffmMaxMessages = 8 from rfl]
    omega
  unfold messageFromHandle
  rw [hdecode]
  simp [hallocated, hactive]

theorem connection_accepted (h : Accounted machine) {c : ConnectionIndex}
    (haccept : connectionFromHandle machine.runtime caller handle = .ok c) :
    (connectionLease c (machine.runtime.connections c)).phase =
        .held (.connectionOpened caller handle c (machine.runtime.connections c).releases) := by
  obtain ⟨hallocated, rfl, rfl⟩ :=
    connectionFromHandle_makeHandle h.ok haccept
  simp [connectionLease, hallocated]

theorem message_accepted (h : Accounted machine) {partition : Int}
    (haccept : messageFromHandle machine.runtime partition handle = .ok m) :
    (messageLease machine.runtime.layout m (machine.runtime.messages m)).phase =
      .held (.messageDelivered partition handle m (machine.runtime.messages m).releases) := by
  obtain ⟨hactive, rfl, rfl⟩ := messageFromHandle_makeHandle h.ok haccept
  rw [messageLease_active hactive]
  rfl

theorem connection_current (h : Accounted machine) {caller presenter : Int}
    {c d : ConnectionIndex}
    (hissued : Event.connectionOpened caller handle c a ∈ machine.runtime.history)
    (hclose : (machine.runtime.connections c).releases - a < 2 ^ 24 - 1)
    (haccept : connectionFromHandle machine.runtime presenter handle = .ok d) :
    (machine.runtime.connections c).releases = a ∧
      Since machine.runtime.history (.connectionOpened caller handle c a)
        (· = .partitionRestarted caller) := by
  have hgrants : connectionGrants c (.connectionOpened caller handle c a) =
      some a := by simp [connectionGrants]
  obtain ⟨hpast, hstamp⟩ := (h.connection c).opened.past _ hissued a hgrants
  obtain ⟨-, -, hhandle⟩ := connectionFromHandle_makeHandle h.ok haccept
  have hgeneration := (h.ok.runtime.tables.connection d).generation
  rw [hgeneration] at hhandle
  obtain ⟨hcd, hgen⟩ := makeHandle_inj (by decide) (by omega) (by omega)
    (generationAfter_bounds _).1 (generationAfter_bounds _).1
    (hstamp.symm.trans hhandle)
  obtain rfl := Fin.ext hcd
  obtain rfl := generationAfter_inj hpast hclose hgen
  have hheld := connection_accepted h haccept
  obtain rfl := Event.connectionOpened.inj
    ((h.connection c).opened.unique _ hheld _ hissued hgrants) |>.1
  exact ⟨rfl, (h.connection c).opened.since _ hheld⟩

theorem message_current (h : Accounted machine) {partition presenter : Int} {m n : MessageIndex}
    (hdelivered : Event.messageDelivered partition handle m a ∈ machine.runtime.history)
    (hclose : (machine.runtime.messages m).releases - a < 2 ^ 24 - 1)
    (haccept : messageFromHandle machine.runtime presenter handle = .ok n) :
    (machine.runtime.messages m).releases = a ∧
      Since machine.runtime.history (.messageDelivered partition handle m a)
        fun e => e = .messageAnswered m a ∨ e = .partitionRestarted partition := by
  have hgrants : messageGrants m (.messageDelivered partition handle m a) =
      some a := by simp [messageGrants]
  obtain ⟨hpast, hstamp⟩ := (h.message m).past _ hdelivered a hgrants
  obtain ⟨-, -, hhandle⟩ := messageFromHandle_makeHandle h.ok haccept
  have hgeneration := (h.ok.runtime.tables.message n).generation
  rw [hgeneration] at hhandle
  obtain ⟨hmn, hgen⟩ := makeHandle_inj (by decide) (by omega) (by omega)
    (generationAfter_bounds _).1 (generationAfter_bounds _).1
    (hstamp.symm.trans hhandle)
  obtain rfl := Fin.ext hmn
  obtain rfl := generationAfter_inj hpast hclose hgen
  have hheld := message_accepted h haccept
  obtain rfl := Event.messageDelivered.inj ((h.message m).unique _ hheld _ hdelivered hgrants) |>.1
  exact ⟨rfl, (h.message m).since _ hheld⟩

end Accepted

/-- What makes a message handle good: `psa_get` returned it to the partition for
this allocation of the slot, the message has not been answered since, by the
partition or for it, and the partition has not restarted. -/
def DeliveredTo (history : List Event) (partition handle : Int)
    (m : MessageIndex) (a : Nat) : Prop :=
  Event.messageDelivered partition handle m a ∈ history ∧
    Since history (.messageDelivered partition handle m a) fun e =>
      e = .messageAnswered m a ∨ e = .partitionRestarted partition

end WolfTrust.FfmHandles
