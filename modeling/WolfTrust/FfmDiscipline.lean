import WolfTrust.FfmLayout
import WolfTrust.FfmRestart
import WolfTrust.GateOperations

/-!
The invariant over whole runs. `Orderly` steps begin no request on a connection
that still has one and harvest no message of a suspended request; `SparesServed`
steps do not terminate a client while its request is being served. Every run of
such steps keeps the invariant, whatever else is interleaved.
-/

namespace WolfTrust.FfmDiscipline

open Domain Manifest ByteMemory FfmRuntime FfmClient SpmGate FfmMachine
  FfmTables FfmInvariant FfmTransition FfmOperations GateOperations
  FfmPreservation FfmTermination FfmRestart FfmLayout

/-- The step leaves alone the clients whose requests are suspended. -/
def SparesServed (machine : Machine) : Step → Prop
  | .partitionRestarted id _ => ∀ f ∈ machine.stack, f.request.caller ≠ id
  | .failClient caller => ∀ f ∈ machine.stack, f.request.caller ≠ caller
  | _ => True

instance (machine : Machine) (s : Step) : Decidable (SparesServed machine s) :=
  match s with
  | .partitionRestarted id _ =>
    inferInstanceAs (Decidable (∀ f ∈ machine.stack, f.request.caller ≠ id))
  | .failClient caller =>
    inferInstanceAs (Decidable (∀ f ∈ machine.stack, f.request.caller ≠ caller))
  | .gate .. | .connect .. | .call .. | .close .. | .dispatched ..
  | .callRefuse .. | .assertSignal .. | .setLifecycle _ | .scribble _ =>
    .isTrue trivial

/-- The step performs no other operation on a connection between the begin of a
request and its own finish. -/
def Orderly (machine : Machine) : Step → Prop
  | .gate _ _ call => FreshBlock machine.runtime call ∧
      ∀ m, Harvests machine.runtime call m → ∀ f ∈ machine.stack, f.request.message ≠ m
  | .call _ caller handle _ _ _ => FreshCall machine.runtime caller handle
  | .close caller handle => FreshClose machine.runtime caller handle
  | _ => True

instance (machine : Machine) (s : Step) : Decidable (Orderly machine s) :=
  match s with
  | .gate _ _ call =>
    inferInstanceAs (Decidable (FreshBlock machine.runtime call ∧
      ∀ m, Harvests machine.runtime call m → ∀ f ∈ machine.stack, f.request.message ≠ m))
  | .call _ caller handle _ _ _ =>
    inferInstanceAs (Decidable (FreshCall machine.runtime caller handle))
  | .close caller handle =>
    inferInstanceAs (Decidable (FreshClose machine.runtime caller handle))
  | .connect .. | .dispatched .. | .callRefuse .. | .assertSignal ..
  | .partitionRestarted .. | .failClient _ | .setLifecycle _ | .scribble _ =>
    .isTrue trivial

/-- Every step of a run meets `P` where it is taken. -/
def Along (P : Machine → Step → Prop) : Machine → List Step → Prop
  | _, [] => True
  | machine, s :: rest => P machine s ∧ Along P (step machine s) rest

instance (P : Machine → Step → Prop) [∀ machine s, Decidable (P machine s)] :
    ∀ machine steps, Decidable (Along P machine steps)
  | _, [] => .isTrue trivial
  | machine, s :: rest =>
    have := instDecidableAlong P (step machine s) rest
    inferInstanceAs (Decidable (P machine s ∧ Along P (step machine s) rest))

theorem along_and {P Q : Machine → Step → Prop} {steps : List Step} :
    ∀ {machine}, Along P machine steps → Along Q machine steps →
      Along (fun machine s => P machine s ∧ Q machine s) machine steps := by
  induction steps with
  | nil => exact fun _ _ => trivial
  | cons s rest ih =>
    rintro machine ⟨hp, hps⟩ ⟨hq, hqs⟩
    exact ⟨⟨hp, hq⟩, ih hps hqs⟩

/-- What is preserved by a step that meets `P` holds after every run. -/
theorem run_induction {P : Machine → Step → Prop} {I : Machine → Prop}
    (hstep : ∀ machine s, I machine → P machine s → I (step machine s)) (steps : List Step) :
    ∀ machine, I machine → Along P machine steps → I (run machine steps) := by
  induction steps with
  | nil =>
    intro machine h _
    exact h
  | cons s rest ih =>
    rintro machine h ⟨hs, hrest⟩
    exact ih (step machine s) (hstep machine s h hs) hrest

def Disciplined (machine : Machine) (s : Step) : Prop :=
  SparesServed machine s ∧ Orderly machine s

instance (machine : Machine) (s : Step) : Decidable (Disciplined machine s) :=
  inferInstanceAs (Decidable (_ ∧ _))

/-- The invariant of the machine: the runtime's, and every suspended request
still has its own message. -/
structure MachineOk (machine : Machine) : Prop where
  runtime : RuntimeOk machine.runtime
  pinned : ∀ f ∈ machine.stack, Pinned machine.runtime f
  distinct : (machine.stack.map fun f => f.request.message).Nodup

def pins (stack : List Suspended) : Set MessageIndex :=
  {m | ∃ f ∈ stack, f.request.message = m}

section Pinned

variable {rings : PartitionIndex → Word → Prop} {fresh guarded : Prop}
  {kept : Set MessageIndex} {actor : Int}
  {before after : Runtime} {m n : MessageIndex}

/-- Two contents of a slot that suspended requests cannot tell apart. -/
def SamePin (message changed : Message) : Prop :=
  SameRequest message changed ∧ changed.abandoned = message.abandoned

theorem SamePin.refl (message : Message) : SamePin message message :=
  ⟨.refl message, rfl⟩

theorem samePin_update {messages : MessageIndex → Message} {message : Message}
    (h : n = m → SamePin (messages m) message) :
    SamePin (messages m) (Function.update messages n message m) := by
  by_cases hmn : m = n
  · subst hmn
    rw [Function.update_self]
    exact h rfl
  · rw [Function.update_of_ne hmn]
    exact .refl _

theorem Transition.samePin (t : Transition rings fresh guarded kept actor before after)
    (hkept : m ∈ kept) (hm : (before.messages m).allocated = true)
    (hno : (before.messages m).abandoned = .no) :
    SamePin (before.messages m) (after.messages m) := by
  have hfree {n : MessageIndex} (hn : (before.messages n).allocated = false) : n ≠ m := by
    rintro rfl
    rw [hm] at hn
    cases hn
  have hthere {n : MessageIndex} (hn : (before.messages n).abandoned ≠ .no) : n ≠ m := by
    rintro rfl
    exact hn hno
  have hother {n : MessageIndex} (hn : n ∉ kept) : n ≠ m := by
    rintro rfl
    exact hn hkept
  have hsame : SameRequest (before.messages m)
      { before.messages m with active := true } :=
    ⟨rfl, rfl, rfl, rfl, rfl, rfl, rfl⟩
  cases t with
  | stay | lifecycle | raised | cleared | rejected | reversed => exact .refl _
  | refused =>
    unfold refuseConnection
    split <;> exact .refl _
  | opened | givenBack | called | closeSent =>
    exact samePin_update fun heq => absurd heq (hfree ‹_›)
  | closeLeft | requeued | retired => exact samePin_update fun heq => absurd heq (hthere ‹_›)
  | left | callLeft | cancelled | harvested =>
    exact samePin_update fun heq => absurd heq (hother ‹_›)
  | delivered =>
    refine samePin_update fun heq => ?_
    subst heq
    exact ⟨hsame, rfl⟩
  | chunk n message event hserves hchunk =>
    refine samePin_update fun heq => ?_
    subst heq
    exact ⟨hchunk.header.toSameRequest, hchunk.header.abandoned⟩
  | answered =>
    refine samePin_update fun heq => ?_
    subst heq
    exact ⟨⟨rfl, rfl, rfl, rfl, rfl, rfl, rfl⟩, rfl⟩

theorem generation_update {connections : ConnectionIndex → Connection} {c d : ConnectionIndex}
    {connection : Connection} (h : d = c → connection.generation = (connections c).generation) :
    (Function.update connections d connection c).generation = (connections c).generation := by
  by_cases hcd : c = d
  · subst hcd
    rw [Function.update_self]
    exact h rfl
  · rw [Function.update_of_ne hcd]

theorem Transition.generation (t : Transition rings True True kept actor before after)
    (h : RuntimeOk before) (hkept : m ∈ kept) (hm : (before.messages m).allocated = true)
    (hno : (before.messages m).abandoned = .no) {c : ConnectionIndex}
    (hc : (before.messages m).connectionIndex = c) :
    (after.connections c).generation = (before.connections c).generation := by
  have hopen : (before.connections c).allocated = true := hc ▸ (h.tables.belongs m hm).allocated
  have honly {n : MessageIndex} {d : ConnectionIndex} (hn : (before.messages n).allocated = true)
      (hon : (before.messages n).connectionIndex = d) (hd : d = c) : n = m :=
    h.tables.unique n m hn hm (hon.trans (hd.trans hc.symm))
  cases t with
  | rejected d hd =>
    refine generation_update fun heq => ?_
    rw [heq, hopen] at hd
    cases hd
  | refused =>
    unfold refuseConnection
    split
    · exact generation_update fun heq => heq ▸ rfl
    · exact generation_update fun heq => heq ▸ rfl
  | givenBack d n fate hd hcaller hidle hn hfate =>
    refine generation_update fun heq => heq ▸ ?_
    cases fate with
    | kept | failed => rfl
    | freed => exact absurd rfl hfate
  | delivered s n hs hserver hhead =>
    obtain ⟨-, -, -, hservice⟩ :=
      waiting_service (h.queues.waiting_of_head hhead)
    rw [deliverMessage_eq hservice rfl]
    exact generation_update fun heq => heq ▸ rfl
  | retired d n status state fate hserves hon hstate habandoned =>
    refine generation_update fun heq => absurd hno ?_
    rw [← honly hserves.allocated hon heq]
    exact habandoned
  | cancelled d n s fate hn hinactive howns =>
    have howns := (howns trivial).1
    refine generation_update fun heq => absurd hkept ?_
    rw [← honly howns.allocated howns.connection heq]
    exact hn
  | harvested d n fate hn hcomplete howns =>
    have howns := howns trivial
    refine generation_update fun heq => absurd hkept ?_
    rw [← honly howns.allocated howns.connection heq]
    exact hn
  | stay | lifecycle | raised | cleared | chunk | left => rfl
  | opened | called | closeLeft | closeSent | reversed | answered | requeued
  | callLeft => exact generation_update fun heq => heq ▸ rfl

theorem pinned_congr {f : Suspended} (h : Pinned before f)
    (hsame : SamePin (before.messages f.request.message) (after.messages f.request.message))
    (hgeneration : (after.connections f.request.connection).generation =
      (before.connections f.request.connection).generation) :
    Pinned after f := by
  obtain ⟨hrequest, habandoned⟩ := hsame
  refine ⟨⟨?_, ?_, ?_⟩, ?_, ?_, ?_, ?_⟩
  · exact hrequest.allocated.trans h.owns.allocated
  · exact hrequest.caller.trans h.owns.caller
  · exact hrequest.connectionIndex.trans h.owns.connection
  · exact hrequest.serviceIndex.trans h.service
  · exact habandoned.trans h.abandoned
  · rw [hrequest.type]
    exact h.type
  · have hnames := h.names
    cases f with
    | connect => exact hnames.trans (congrArg _ hgeneration.symm)
    | call | close => trivial

end Pinned

def actorOf (machine : Machine) : Step → Int
  | .gate _ _ call => call.partitionId
  | .connect caller _ _ => caller
  | .call _ caller _ _ _ _ => caller
  | .close caller _ => caller
  | .callRefuse caller _ => caller
  | .dispatched _ _ =>
    match machine.stack with
    | [] => 0
    | f :: _ => f.request.caller
  | .failClient caller => caller
  | .partitionRestarted id _ => id
  | .assertSignal .. | .setLifecycle _ | .scribble _ => 0

/-- The doorbell or interrupt a step may change. -/
def Rings (machine : Machine) : Step → PartitionIndex → Word → Prop
  | .gate _ _ call => RingsBlock machine.runtime call
  | .assertSignal id signal => fun p bit =>
    findPartition machine.runtime id = .ok p ∧ bit = signal
  | .partitionRestarted id _ => fun p _ =>
    findPartition machine.runtime id = .ok p
  | _ => fun _ _ => False

def Recovers : Step → Prop
  | .partitionRestarted .. | .failClient _ => True
  | _ => False

theorem runtime_suspend (machine : Machine) (f : Option Suspended) :
    (machine.suspend f).runtime = machine.runtime := by
  cases f <;> rfl

theorem pinned_connection_service {runtime : Runtime} {f : Suspended}
    (h : Pinned runtime f) (hok : RuntimeOk runtime) :
    (runtime.connections f.request.connection).serviceIndex =
      f.request.service := by
  have hbelongs := hok.tables.belongs _ h.owns.allocated
  rw [h.owns.connection] at hbelongs
  exact hbelongs.service.trans h.service

section Step

variable {G : Prop} {machine : Machine} {kept : Set MessageIndex}

/-- The request a step ends: the innermost suspended one when its dispatch
returns, or the one a resumed gate call harvests. -/
def Ends (machine : Machine) (s : Step) (m : MessageIndex) : Prop :=
  match s with
  | .gate _ _ call => Harvests machine.runtime call m
  | .dispatched _ _ => ∃ f ∈ machine.stack.head?, f.request.message = m
  | _ => False

theorem dispatched_transition (ports : PortOps) (ret : Int) (hG : G → MachineOk machine)
    (hkept : ∀ m, Ends machine (.dispatched ports ret) m → m ∉ kept) :
    Transition (Rings machine (.dispatched ports ret)) G G kept
      (actorOf machine (.dispatched ports ret)) machine.runtime
      (machine.dispatched ports ret).runtime := by
  unfold actorOf Machine.dispatched
  rcases hstack : machine.stack with _ | ⟨f, rest⟩
  · exact .stay
  have hpinned (hg : G) : Pinned machine.runtime f := (hG hg).pinned f (by simp [hstack])
  have hservice (hg : G) := pinned_connection_service (hpinned hg) (hG hg).runtime
  have hends : f.request.message ∉ kept := hkept _ ⟨f, by simp [hstack], rfl⟩
  have hret : dispatchResult machine.runtime f.request.message ret = ffmSuccess →
        (machine.runtime.messages f.request.message).complete = true :=
    complete_of_dispatchResult
  cases f with
  | connect => exact connectReturn_transition hends hret hpinned
  | call request outVec =>
    exact callReturn_transition ports machine.memory outVec hends hret hpinned hservice
  | close => exact closeReturn_transition hends hret hpinned hservice

/-- Every step but a recovery is one transition, which ends no request but the
step's own. -/
theorem step_transition_ends (s : Step) (hG : G → MachineOk machine ∧ Orderly machine s)
    (hs : ¬Recovers s) (hkept : ∀ m, Ends machine s m → m ∉ kept) :
    Transition (Rings machine s) G G kept
      (actorOf machine s) machine.runtime (step machine s).runtime := by
  cases s with
  | gate ports domain call =>
    exact @spmGate_transition _ G G _
      { call, runtime := machine.runtime, memory := machine.memory } ports
      domain (fun _ _ h => h) (fun hg => (hG hg).2.1) hkept
  | connect =>
    simp only [step, runtime_suspend]
    exact (connectRequest_begins _ _ _ _).transition
  | call ports =>
    simp only [step, runtime_suspend]
    exact (callRequest_begins ports _ _ _ _ _ _ _ fun hg => (hG hg).2).transition
  | close =>
    simp only [step, runtime_suspend]
    exact (closeRequest_begins _ _ _ fun hg => (hG hg).2).transition
  | dispatched ports ret => exact dispatched_transition ports ret (fun hg => (hG hg).1) hkept
  | callRefuse caller handle => exact ffmCallRefuse_transition caller handle
  | assertSignal id signal => exact ffmAssertSignal_transition id signal fun p hp => ⟨hp, rfl⟩
  | partitionRestarted | failClient => exact absurd trivial hs
  | setLifecycle lifecycle => exact .lifecycle lifecycle
  | scribble => exact .stay

theorem not_pinned_of_ends (s : Step) (hG : G → MachineOk machine ∧ Orderly machine s)
    (m : MessageIndex) (hm : Ends machine s m) : m ∉ {m | G ∧ m ∈ pins (step machine s).stack} := by
  rintro ⟨hg, f, hf, heq⟩
  cases s with
  | gate => exact (hG hg).2.2 m hm f hf heq
  | dispatched ports ret =>
    obtain ⟨g, hg', rfl⟩ := hm
    obtain ⟨rest, hstack⟩ := List.head?_eq_some_iff.mp hg'
    have hrest : (step machine (.dispatched ports ret)).stack = rest := by
      simp only [step, Machine.dispatched, hstack]
      cases g <;> rfl
    have hnodup := (hG hg).1.distinct
    rw [hstack, List.map_cons, List.nodup_cons] at hnodup
    exact hnodup.1 (List.mem_map.mpr ⟨f, hrest ▸ hf, heq⟩)
  | _ => exact hm

theorem step_transition (s : Step)
    (hG : G → MachineOk machine ∧ Orderly machine s) (hs : ¬Recovers s) :
    Transition (Rings machine s) G G
      {m | G ∧ m ∈ pins (step machine s).stack}
      (actorOf machine s) machine.runtime (step machine s).runtime :=
  step_transition_ends s hG hs (not_pinned_of_ends s hG)

end Step

section Preserved

variable {machine : Machine} {runtime : Runtime} {rings : PartitionIndex → Word → Prop}

theorem move_ok (h : MachineOk machine) {memory : Memory} {stack : List Suspended}
    {kept : Set MessageIndex} {actor : Int} (hsublist : stack.Sublist machine.stack)
    (t : Transition rings True True kept actor machine.runtime runtime)
    (hkept : ∀ f ∈ stack, f.request.message ∈ kept) : MachineOk { runtime, memory, stack } := by
  refine ⟨Transition.ok t trivial trivial h.runtime, fun f hf => ?_,
    h.distinct.sublist (hsublist.map _)⟩
  have hpinned := h.pinned f (hsublist.subset hf)
  have hsame := Transition.samePin t (hkept f hf) hpinned.owns.allocated hpinned.abandoned
  exact pinned_congr hpinned hsame (Transition.generation t h.runtime
    (hkept f hf) hpinned.owns.allocated hpinned.abandoned
    hpinned.owns.connection)

theorem suspend_ok (h : MachineOk machine) {memory : Memory} {f : Option Suspended} {caller : Int}
    (hbegins : Begins rings True True (pins machine.stack) caller machine.runtime runtime f) :
    MachineOk (Machine.suspend { machine with runtime, memory } f) := by
  have hmoved : MachineOk { machine with runtime, memory } :=
    move_ok h (.refl _) hbegins.transition fun f hf => ⟨f, hf, rfl⟩
  rcases f with _ | f
  · exact hmoved
  · have hfree := hbegins.free f rfl
    have hno := ((h.runtime.tables.message _).free hfree).2.2
    refine ⟨hmoved.runtime, ?_, ?_⟩
    · intro g hg
      rcases List.mem_cons.mp hg with rfl | hg
      · exact hbegins.pinned g rfl hno
      · exact hmoved.pinned g hg
    · refine List.nodup_cons.mpr ⟨fun hmem => ?_, hmoved.distinct⟩
      -- The new message was free, those of the others are allocated.
      obtain ⟨g, hg, heq⟩ := List.mem_map.mp hmem
      have hallocated := (h.pinned g hg).owns.allocated
      rw [heq, hfree] at hallocated
      cases hallocated

theorem recover_ok (h : MachineOk machine) (hok : RuntimeOk runtime)
    (hsame : ∀ f ∈ machine.stack, SamePin (machine.runtime.messages f.request.message)
          (runtime.messages f.request.message) ∧
        (runtime.connections f.request.connection).generation =
          (machine.runtime.connections f.request.connection).generation) :
    MachineOk { machine with runtime } :=
  ⟨hok, fun f hf => pinned_congr (h.pinned f hf) (hsame f hf).1 (hsame f hf).2, h.distinct⟩

theorem failClient_ok (h : MachineOk machine) (caller : Int)
    (hspares : ∀ f ∈ machine.stack, f.request.caller ≠ caller) :
    MachineOk (step machine (.failClient caller)) := by
  obtain ⟨contents, hlists⟩ := lists_of_holds h.runtime.queues
  have hgone := ffmFailClientConnections_gone h.runtime hlists caller
  refine recover_ok h (hgone.ok h.runtime) fun f hf => ?_
  have howns := (h.pinned f hf).owns
  have hcaller := hspares f hf
  rw [← howns.caller] at hcaller
  have hbelongs := h.runtime.tables.belongs _ howns.allocated
  rw [howns.connection] at hbelongs
  refine ⟨?_, congrArg _ (hgone.connection_of_ne (hbelongs.caller ▸ hcaller))⟩
  rw [hgone.message_of_ne hcaller]
  exact .refl _

theorem partitionRestarted_ok (h : MachineOk machine) (id status : Int)
    (hspares : ∀ f ∈ machine.stack, f.request.caller ≠ id) :
    MachineOk (step machine (.partitionRestarted id status)) := by
  refine recover_ok h (ffmPartitionRestarted_ok h.runtime id status) fun f hf => ?_
  cases hp : findPartition machine.runtime id with
  | error =>
    simp only [FfmRecovery.ffmPartitionRestarted, hp]
    exact ⟨.refl _, trivial⟩
  | ok =>
    obtain ⟨contents, hlists⟩ := lists_of_holds h.runtime.queues
    obtain ⟨failed, released, hfailed, hgone, hafter⟩ :=
      ffmPartitionRestarted_restarted h.runtime hlists status hp
    have hpinned := h.pinned f hf
    have hcaller := hspares f hf
    rw [← hpinned.owns.caller] at hcaller
    have hkept : SamePin (machine.runtime.messages f.request.message)
        (failed.messages f.request.message) := by
      rw [hfailed.message, failedMessage, if_pos hpinned.abandoned]
      split
      · exact ⟨⟨rfl, rfl, rfl, rfl, rfl, rfl, rfl⟩, rfl⟩
      · exact .refl _
    have hother : (failed.messages f.request.message).caller ≠ id := by
      rw [hkept.1.caller]
      exact hcaller
    have hbelongs := h.runtime.tables.belongs _ hpinned.owns.allocated
    rw [hpinned.owns.connection] at hbelongs
    have hlone : ∀ m, Awaits id machine.runtime m →
        (machine.runtime.messages m).abandoned = .close →
        (machine.runtime.messages m).connectionIndex ≠
          f.request.connection := by
      rintro m hawaits hclose hon
      obtain rfl := h.runtime.tables.unique m _ hawaits.1
        hpinned.owns.allocated (hon.trans hpinned.owns.connection.symm)
      rw [hpinned.abandoned] at hclose
      cases hclose
    have hconnection := hfailed.failed _ hlone
    have howner : (failed.connections f.request.connection).caller ≠ id := by
      rw [hconnection, ← hbelongs.caller] at *
      split <;> exact hcaller
    rw [hafter]
    refine ⟨?_, ?_⟩
    · change SamePin _ (released.messages f.request.message)
      rw [hgone.message_of_ne hother]
      exact hkept
    · change (released.connections f.request.connection).generation = _
      rw [hgone.connection_of_ne howner, hconnection]
      split <;> rfl

theorem step_ok (s : Step) (h : MachineOk machine)
    (hs : Disciplined machine s) : MachineOk (step machine s) := by
  have hmove (hrecovers : ¬Recovers s) (hsublist : (step machine s).stack.Sublist machine.stack) :
      MachineOk (step machine s) :=
    move_ok h hsublist (step_transition s (fun _ => ⟨h, hs.2⟩) hrecovers)
      fun f hf => ⟨trivial, f, hf, rfl⟩
  cases s with
  | connect => exact suspend_ok h (connectRequest_begins _ _ _ _ : Begins (fun _ _ => False) ..)
  | call ports =>
    exact suspend_ok h (callRequest_begins ports _ _ _ _ _ _ _
      fun _ => hs.2 : Begins (fun _ _ => False) ..)
  | close =>
    exact suspend_ok h (closeRequest_begins _ _ _ fun _ => hs.2 : Begins (fun _ _ => False) ..)
  | dispatched ports ret =>
    refine hmove id ?_
    simp only [step, Machine.dispatched]
    split
    · exact .refl _
    · rename_i f rest hstack
      rw [hstack]
      cases f <;> exact List.sublist_cons_self _ _
  | partitionRestarted id status => exact partitionRestarted_ok h id status hs.1
  | failClient caller => exact failClient_ok h caller hs.1
  | gate | callRefuse | setLifecycle | scribble => exact hmove id (.refl _)
  | assertSignal => exact hmove not_false (.refl _)

/-- The states a disciplined run reaches from the start of an accepted
manifest. -/
theorem run_ok {manifest : SystemManifest} {features : Word} {platform : ProfileCapabilities}
    (hboot : Booted manifest features platform runtime) (memory : Memory)
    (steps : List Step) (hsteps : Along Disciplined (start runtime memory) steps) :
    MachineOk (run (start runtime memory) steps) := by
  refine run_induction (fun machine s h hs => step_ok s h hs) steps _ ?_ hsteps
  refine ⟨hboot.ok, fun f hf => ?_, List.nodup_nil⟩
  cases hf

end Preserved

section Sample

def openPorts : PortOps :=
  { checkRead := fun _ _ _ => true, checkWrite := fun _ _ _ => true }

def sampleMemory : Memory := { bytes := fun _ => 0, trace := [] }

def sampleMachine : Machine := start sampleRuntime sampleMemory

def blankCall (op : SpmOp) (partitionId : Int) : SpmCall :=
  { op, partitionId, notifyPartition := 0, msgHandle := 0, signalMask := 0
    timeout := 0, signal := 0, vecIdx := 0, buffer := 0, numBytes := 0
    status := 0, msg := 0, asserted := 0, rhandle := 0, sid := 0, version := 0
    callType := 0, spIn := fun _ => ⟨0, 0⟩, spOut := fun _ => ⟨0, 0⟩
    spInLen := 0, spOutLen := 0, pendingMsg := 0, pendingValid := false
    retStatus := 0, retSize := 0, retInt := 0, retHandle := 0
    retVersion := 0, retTick := 0, mustPanic := false }

def connectBlock (partitionId : Int) (sid : Nat) : SpmCall :=
  { blankCall .connect partitionId with sid, version := 1 }

def closeBlock (partitionId handle : Int) : SpmCall :=
  { blankCall .close partitionId with msgHandle := handle }

/-- The second pass of a request, with the message index of the first one. -/
def resumeBlock (op : SpmOp) (partitionId : Int) (m : Nat) : SpmCall :=
  { blankCall op partitionId with pendingMsg := m, pendingValid := true }

def getBlock (partitionId : Int) : SpmCall :=
  { blankCall .get partitionId with signal := 0x10 }

def replyBlock (partitionId handle : Int) : SpmCall :=
  { blankCall .reply partitionId with msgHandle := handle }

def sampleGate (call : SpmCall) : Step := .gate openPorts none call

/-- Partition 2 connects to service 1 and closes the connection before it
resumes the connect: message 0 stays complete while connection 0 is released
and opened again, for client -1. -/
def staleRun : List Step :=
  [sampleGate (connectBlock 2 200), sampleGate (getBlock 3),
   sampleGate (replyBlock 3 193), sampleGate (closeBlock 2 161),
   sampleGate (getBlock 3), sampleGate (replyBlock 3 194),
   sampleGate (resumeBlock .close 2 1), .connect (-1) 200 1]

/-- Client -1 is terminated while its connect is dispatched. Partition 2 then
connects over the same slot, partition 3 takes that connect, and the dispatch
for client -1 returns. -/
def orphanRun : List Step :=
  [sampleGate (connectBlock 2 200), .connect (-1) 200 1, .failClient (-1),
   sampleGate (getBlock 3), sampleGate (replyBlock 3 193),
   sampleGate (resumeBlock .connect 2 0), sampleGate (connectBlock 2 200),
   sampleGate (getBlock 3), .dispatched openPorts 0]

end Sample

end WolfTrust.FfmDiscipline
