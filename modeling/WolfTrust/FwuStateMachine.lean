import WolfTrust.FwuClient
import WolfTrust.FwuEffects
import WolfTrust.StepRuns

namespace WolfTrust.FwuStateMachine

open WolfTrust.FfmRuntime (psaSuccess)
open StepRuns FwuService FwuClient FwuEffects

/-- A start that succeeded, with the version it declared, or a call. Of the
verifications only those that succeed are recorded. -/
inductive Event
  | started (declared : UInt32)
  | began
  | wrote
  | verified (size version : UInt32)
  | armed (size version : UInt32)
  | disarmed
  | resetRequested
  deriving DecidableEq, Repr

abbrev Record := List Event

variable {β : Type}

def noted (event : Event) (callback : β → Bool × β) (store : β × Record) : Bool × β × Record :=
  ((callback store.1).1, (callback store.1).2, event :: store.2)

def notedVerify (verify : UInt32 → β → Option UInt32 × β) (size : UInt32)
    (store : β × Record) : Option UInt32 × β × Record :=
  let found := verify size store.1
  (found.1, found.2,
    match found.1 with
    | some version => .verified size version :: store.2
    | none => store.2)

def recordedBackend (backend : Backend β) : Backend (β × Record) :=
  { begin := backend.begin.map (noted .began)
    write := backend.write.map fun write offset data =>
      noted .wrote (write offset data)
    arm := backend.arm.map fun arm size version =>
      noted (.armed size version) (arm size version)
    disarm := backend.disarm.map (noted .disarmed)
    capacity := backend.capacity
    align := backend.align
    verify := backend.verify.map notedVerify }

def recordedLinks (links : Links β) : Links (β × Record) :=
  { backend := links.backend.map recordedBackend
    transport := links.transport.map (noted .resetRequested) }

/-- The start that a turn answered with success. -/
def opening (arrival : Arrival) (turn : Turn) : Record :=
  match arrival with
  | .message msg _ _ =>
    if Op.ofType msg.type = some .start ∧ turn.reply.map Reply.status = some psaSuccess then
      match msg.decode with
      | some (req, _) => [.started req.version]
      | none => []
    else []
  | _ => []

def recordedTurn (links : Links β) (s : Service (β × Record))
    (arrival : Arrival) : Service (β × Record) :=
  let result := fwuServiceDispatch (recordedLinks links) arrival s
  { ctx := result.2.ctx
    store := (result.2.store.1, opening arrival result.1 ++ result.2.store.2) }

/-- The version declared by the start of the last session. -/
def declaredIn : Record → Option UInt32
  | [] => none
  | .started declared :: _ => some declared
  | _ :: older => declaredIn older

/-- The size and the version of a verification that succeeded in the last
session, after its last write. -/
def approvedIn : Record → Option (UInt32 × UInt32)
  | [] => none
  | .started _ :: _ => none
  | .wrote :: _ => none
  | .verified size version :: _ => some (size, version)
  | _ :: older => approvedIn older

/-- What must have happened before an image of this size and version is
armed. -/
structure Approved (floor : UInt32) (events : Record) (size version : UInt32) :
    Prop where
  verified : approvedIn events = some (size, version)
  notBelow : floor ≤ version
  declared : ∃ declared, declaredIn events = some declared ∧
    (declared ≠ fwuVersionUndeclared → version = declared)

/-- The invariant of the state machine, apart from the owner. -/
structure Steady (floor : UInt32) (s : Service (β × Record)) : Prop where
  given : s.ctx.versionFloor = floor
  armed : s.ctx.armed = true ↔ s.ctx.state = .staged
  writing : s.ctx.state = .writing → declaredIn s.store.2 = some s.ctx.candidateVersion
  candidate : s.ctx.state = .candidate →
    Approved floor s.store.2 s.ctx.writeHigh s.ctx.candidateVersion

/-- When a call may leave the service. -/
def Justified (ctx : Context) : Event → Prop
  | .armed size version =>
    ctx.state = .candidate ∧ size = ctx.writeHigh ∧ version = ctx.candidateVersion
  | .resetRequested => ctx.armed = true ∧ ctx.state = .staged
  | .started _ => False
  | _ => True

def Grows (ctx : Context) (before after : Record) : Prop :=
  ∃ new, after = new ++ before ∧ ∀ event ∈ new, Justified ctx event

theorem Grows.refl (ctx : Context) (events : Record) : Grows ctx events events :=
  ⟨[], rfl, by simp⟩

theorem Grows.one {ctx : Context} {event : Event} (h : Justified ctx event)
    (events : Record) : Grows ctx events (event :: events) :=
  ⟨[event], rfl, by simpa using h⟩

theorem Grows.trans {ctx : Context} {first second third : Record} (h : Grows ctx first second)
    (h' : Grows ctx second third) : Grows ctx first third := by
  obtain ⟨new, rfl, hnew⟩ := h
  obtain ⟨newer, rfl, hnewer⟩ := h'
  refine ⟨newer ++ new, by simp, fun event hevent => ?_⟩
  rcases List.mem_append.mp hevent with hmem | hmem
  · exact hnewer event hmem
  · exact hnew event hmem

theorem Grows.declaredIn {ctx : Context} {before after : Record} (h : Grows ctx before after) :
    FwuStateMachine.declaredIn after = FwuStateMachine.declaredIn before := by
  obtain ⟨new, rfl, hnew⟩ := h
  induction new with
  | nil => rfl
  | cons event rest ih =>
    have hrest := ih fun e he => hnew e (List.mem_cons_of_mem event he)
    cases event with
    | started declared => exact (hnew (.started declared) (by simp)).elim
    | _ => exact hrest

section Calls

variable {ctx : Context} {backend : Backend β}

theorem invoke_grows {event : Event} (h : Justified ctx event) (callback : Option (β → Bool × β))
    (store : β × Record) : Grows ctx store.2 (invoke (callback.map (noted event)) store).2.2 := by
  cases callback with
  | none => exact .refl ctx store.2
  | some => exact .one h store.2

theorem put_grows (offset : UInt32) (data : Bytes) (store : β × Record) :
    Grows ctx store.2 ((recordedBackend backend).put offset data store).2.2 := by
  have h := @invoke_grows β ctx .wrote trivial (backend.write.map (· offset data)) store
  simpa [Backend.put, recordedBackend, Function.comp_def] using h

theorem fwuProgram_grows (offset : UInt32) {data : Bytes} (hdata : data ≠ []) (store : β × Record) :
    Grows ctx store.2 (fwuProgram (recordedBackend backend) offset data store).2.2 := by
  refine @fwuProgram_preserves _ _ (fun after => Grows ctx store.2 after.2)
    (fun offset data _ _ h => ?_) offset data hdata store (.refl ctx store.2)
  exact h.trans (put_grows offset data _)

theorem notedVerify_grows (verify : UInt32 → β → Option UInt32 × β) (size : UInt32)
    (store : β × Record) : Grows ctx store.2 (notedVerify verify size store).2.2 := by
  simp only [notedVerify]
  split
  · exact .one (by trivial) store.2
  · exact .refl ctx store.2

theorem disarmArmed_grows (s : Service (β × Record)) :
    Grows ctx s.store.2 (disarmArmed (recordedBackend backend) s).2.2 := by
  unfold disarmArmed
  split
  · exact invoke_grows (by trivial) backend.disarm s.store
  · exact .refl ctx s.store.2

theorem forceDisarm_grows (links : Links β) (s : Service (β × Record)) :
    Grows ctx s.store.2 (forceDisarm (recordedLinks links) s).2.2 := by
  unfold forceDisarm
  split
  · cases hdisarm : links.backend.bind (·.disarm) with
    | none =>
      have hnone : (recordedLinks links).backend.bind (·.disarm) = none := by
        cases hbackend : links.backend <;>
          simp_all [recordedLinks, recordedBackend]
      rw [hnone]
      exact .refl ctx s.store.2
    | some disarm =>
      have hsome : (recordedLinks links).backend.bind (·.disarm) =
          some (noted .disarmed disarm) := by
        cases hbackend : links.backend <;>
          simp_all [recordedLinks, recordedBackend]
      rw [hsome]
      exact .one (by trivial) s.store.2
  · exact .refl ctx s.store.2

theorem recorded_verify {verify : UInt32 → β × Record → Option UInt32 × β × Record}
    (h : (recordedBackend backend).verify = some verify) : ∃ plain, verify = notedVerify plain := by
  obtain ⟨plain, -, rfl⟩ := Option.map_eq_some_iff.mp h
  exact ⟨plain, rfl⟩

theorem recorded_arm {arm : UInt32 → UInt32 → β × Record → Bool × β × Record}
    (h : (recordedBackend backend).arm = some arm) (size version : UInt32) (store : β × Record) :
    (arm size version store).2.2 = .armed size version :: store.2 := by
  obtain ⟨plain, -, rfl⟩ := Option.map_eq_some_iff.mp h
  rfl

end Calls

section Turns

variable {links : Links β} {backend : Backend β} {floor : UInt32}
  {s after : Service (β × Record)}

theorem effect_grows (h : Effect (recordedLinks links) (recordedBackend backend) s after) :
    Grows s.ctx s.store.2 after.store.2 := by
  cases h with
  | nothing | unverified | overtaken | cancels => exact .refl _ _
  | writes ctx offset data hdata => exact fwuProgram_grows offset hdata s.store
  | refuses verify version status hstate hverify =>
    obtain ⟨plain, rfl⟩ := recorded_verify hverify
    exact notedVerify_grows plain _ s.store
  | accepts verify version hstate hverify =>
    obtain ⟨plain, rfl⟩ := recorded_verify hverify
    exact notedVerify_grows plain _ s.store
  | armFails arm hstate harm | arms arm hstate harm =>
    dsimp only
    rw [recorded_arm harm]
    exact .one (by exact ⟨hstate, rfl, rfl⟩) s.store.2
  | disarmFails | cleans | rejects => exact disarmArmed_grows s
  | resets reset htransport hstate harmed =>
    obtain ⟨plain, -, rfl⟩ := Option.map_eq_some_iff.mp htransport
    exact .one (by exact ⟨harmed, hstate⟩) s.store.2

theorem Steady.quiet (hgiven : after.ctx.versionFloor = floor) (harmed : after.ctx.armed = false)
    (hstate : after.ctx.state = .failed ∨ after.ctx.state = .ready) : Steady floor after where
  given := hgiven
  armed := by rcases hstate with h | h <;> simp [harmed, h]
  writing h := by rcases hstate with h' | h' <;> simp [h'] at h
  candidate h := by rcases hstate with h' | h' <;> simp [h'] at h

theorem Steady.disarmed (hs : Steady floor s) (h : s.ctx.state ≠ .staged) :
    s.ctx.armed = false := by
  by_contra harmed
  exact h (hs.armed.mp (by simpa using harmed))

theorem effect_steady (hverified : backend.verify.isSome)
    (h : Effect (recordedLinks links) (recordedBackend backend) s after)
    (hs : Steady floor s) : Steady floor after := by
  have hgrows := effect_grows h
  cases h with
  | nothing => exact hs
  | writes ctx offset data hdata hstate hctx =>
    have harmed := hs.disarmed (by simp [hstate])
    rcases hctx with rfl | ⟨high, rfl⟩
    · exact .quiet hs.given harmed (.inl rfl)
    · exact
        { given := hs.given
          armed := hs.armed
          writing := fun h => hgrows.declaredIn.trans (hs.writing h)
          candidate := fun h => by simp [hstate] at h }
  | refuses verify version status hstate =>
    exact .quiet hs.given (hs.disarmed (by simp [hstate])) (.inl rfl)
  | accepts verify version hstate hverify hfound hdeclared hfloor =>
    have harmed := hs.disarmed (by simp [hstate])
    obtain ⟨plain, rfl⟩ := recorded_verify hverify
    refine
      { given := hs.given
        armed := by simp [harmed]
        writing := by simp
        candidate := fun _ => ⟨?_, ?_, s.ctx.candidateVersion, ?_, hdeclared⟩ }
    · simp only [notedVerify] at hfound ⊢
      rw [hfound]
      rfl
    · exact hs.given ▸ hfloor
    · exact hgrows.declaredIn.trans (hs.writing hstate)
  | unverified ctx hstate hverify =>
    have hnone : backend.verify = none := Option.map_eq_none_iff.mp hverify
    simp [hnone] at hverified
  | overtaken hstate => exact .quiet hs.given (hs.disarmed (by simp [hstate])) (.inl rfl)
  | armFails arm hstate harm =>
    refine
      { given := hs.given
        armed := hs.armed
        writing := fun h => by simp [hstate] at h
        candidate := fun h => ?_ }
    obtain ⟨happroved, hnotBelow, hdeclared⟩ := hs.candidate h
    refine ⟨?_, hnotBelow, ?_⟩
    · dsimp only
      rw [recorded_arm harm]
      exact happroved
    · rw [hgrows.declaredIn]
      exact hdeclared
  | arms =>
    exact
      { given := hs.given
        armed := by simp
        writing := by simp
        candidate := by simp }
  | cancels hstate =>
    refine .quiet hs.given (hs.disarmed ?_) (.inl rfl)
    rcases hstate with h | h <;> simp [h]
  | disarmFails hstate =>
    refine
      { given := hs.given
        armed := hs.armed
        writing := fun h => ?_
        candidate := fun h => ?_ } <;>
    · dsimp only at h
      rcases hstate with h' | h' | h' <;> simp [h'] at h
  | cleans => exact .quiet hs.given rfl (.inr rfl)
  | rejects => exact .quiet hs.given rfl (.inl rfl)
  | resets reset htransport hstate =>
    exact
      { given := hs.given
        armed := hs.armed
        writing := fun h => by simp [hstate] at h
        candidate := fun h => by simp [hstate] at h }

/-- The invariant of the state machine. -/
structure Lawful (floor : UInt32) (s : Service (β × Record)) : Prop where
  steady : Steady floor s
  owner : s.ctx.owner = 0 ↔ s.ctx.state = .ready

theorem Lawful.of_ctx (hs : Lawful floor s) (hctx : after.ctx = s.ctx)
    (hgrows : Grows s.ctx s.store.2 after.store.2)
    (hcandidate : s.ctx.state ≠ .candidate) : Lawful floor after where
  steady :=
    { given := hctx ▸ hs.steady.given
      armed := hctx ▸ hs.steady.armed
      writing := fun h => by
        rw [hctx] at h ⊢
        exact hgrows.declaredIn.trans (hs.steady.writing h)
      candidate := fun h => absurd (hctx ▸ h) hcandidate }
  owner := hctx ▸ hs.owner

theorem Grows.of_ready {ctx other : Context} {before after : Record} (h : Grows ctx before after)
    (hready : ctx.state = .ready) : Grows other before after := by
  obtain ⟨new, rfl, hnew⟩ := h
  refine ⟨new, rfl, fun event hevent => ?_⟩
  have hjustified := hnew event hevent
  cases event with
  | armed => exact absurd (hready.symm.trans hjustified.1) nofun
  | resetRequested => exact absurd (hready.symm.trans hjustified.2) nofun
  | started => exact hjustified.elim
  | _ => trivial

theorem reclaim_grows (client : Int) (tick : UInt32) :
    let reclaimed := (fwuReclaim (recordedLinks links) client tick s).2
    Grows s.ctx s.store.2 reclaimed.store.2 ∧
      (reclaimed.ctx = s.ctx ∨ reclaimed.ctx.state = .ready) := by
  intro reclaimed
  have hcases : Reclaims (recordedLinks links) client tick s
      (fwuReclaim (recordedLinks links) client tick s) := fwuReclaim_cases _ _
  have hgrows := @forceDisarm_grows β s.ctx links s
  generalize hresult : fwuReclaim (recordedLinks links) client tick s = result at hcases
  have heq : reclaimed = result.2 := by rw [← hresult]
  rw [heq]
  cases hcases with
  | keeps => exact ⟨.refl _ _, .inl rfl⟩
  | ends => exact ⟨hgrows, .inr rfl⟩
  | fails => exact ⟨hgrows, .inl rfl⟩

theorem reclaim_lawful (hs : Lawful floor s) (client : Int) (tick : UInt32) :
    Lawful floor (fwuReclaim (recordedLinks links) client tick s).2 := by
  have hcases : Reclaims (recordedLinks links) client tick s
      (fwuReclaim (recordedLinks links) client tick s) := fwuReclaim_cases _ _
  generalize fwuReclaim (recordedLinks links) client tick s = result at hcases ⊢
  cases hcases with
  | keeps => exact hs
  | ends => exact ⟨.quiet hs.steady.given rfl (.inr rfl), by simp [Context.cleared]⟩
  | fails h hfails =>
    refine hs.of_ctx rfl (@forceDisarm_grows β s.ctx links s) fun hstate => ?_
    -- a disarm is attempted, and can fail, only where the swap is armed
    have harmed := hs.steady.disarmed (by simp [hstate])
    simp [forceDisarm, harmed] at hfails

theorem fwuSettle_eq (op : Op) (client : Int) (tick : UInt32) (ctx : Context) :
    ∃ owner ownerTick, fwuSettle op client tick ctx =
        { ctx with owner, ownerTick } ∧
      (ctx.state = .ready → owner = 0) ∧
      (ctx.state ≠ .ready → owner = ctx.owner) := by
  unfold fwuSettle
  split
  case isTrue h => exact ⟨0, ctx.ownerTick, rfl, fun _ => rfl, absurd h⟩
  case isFalse h =>
    split
    · exact ⟨ctx.owner, tick, rfl, fun h' => absurd h' h, fun _ => rfl⟩
    · exact ⟨ctx.owner, ctx.ownerTick, rfl, fun h' => absurd h' h, fun _ => rfl⟩

theorem Steady.settle (hs : Steady floor s) {owner : Int} {ownerTick : UInt32} :
    Steady floor ⟨{ s.ctx with owner, ownerTick }, s.store⟩ :=
  { given := hs.given, armed := hs.armed, writing := hs.writing
    candidate := hs.candidate }

theorem settle_lawful (hs : Steady floor s) (op : Op) (client : Int)
    (tick : UInt32) (howner : s.ctx.state ≠ .ready → s.ctx.owner ≠ 0) :
    Lawful floor ⟨fwuSettle op client tick s.ctx, s.store⟩ := by
  obtain ⟨owner, ownerTick, heq, hready, hbusy⟩ :=
    fwuSettle_eq op client tick s.ctx
  rw [heq]
  refine ⟨hs.settle, ⟨fun hzero => ?_, hready⟩⟩
  by_contra hstate
  exact howner hstate ((hbusy hstate).symm.trans hzero)

theorem recordedLinks_backend (hbackend : links.backend = some backend) :
    (recordedLinks links).backend = some (recordedBackend backend) := by
  simp [recordedLinks, hbackend]

theorem request_grows (hbackend : links.backend = some backend) (op : Op)
    (msg : Message) (req : Req) (block : Bytes) (tick : UInt32) :
    Grows s.ctx s.store.2 (fwuRequest (recordedLinks links) op msg req block tick s).2.store.2 := by
  obtain ⟨hgrows, hctx⟩ := @reclaim_grows β links s msg.clientId tick
  obtain ⟨-, heq, -⟩ | ⟨-, -, -, heq⟩ :=
    @fwuRequest_cases _ (recordedLinks links) s op msg req block tick
  · rw [heq]
    exact hgrows
  rw [heq]
  generalize (fwuReclaim (recordedLinks links) msg.clientId tick s).2 = reclaimed at hgrows hctx
  refine hgrows.trans ?_
  by_cases hop : op = .start
  · subst hop
    have heffect := @fwuPerform_start _ (recordedLinks links)
      (recordedBackend backend) reclaimed (recordedLinks_backend hbackend) msg
      req block tick
    generalize fwuPerform (recordedLinks links) .start msg req block tick
      reclaimed = performed at heffect ⊢
    obtain ⟨⟨status, written⟩, after⟩ := performed
    cases heffect with
    | refuses => exact .refl _ _
    | beginFails | opens => exact invoke_grows (by trivial) backend.begin reclaimed.store
  · have hcalls := effect_grows (@fwuPerform_effect _ (recordedLinks links)
      (recordedBackend backend) reclaimed (recordedLinks_backend hbackend) op
      hop msg req block tick)
    rcases hctx with hctx | hready
    · exact hctx ▸ hcalls
    · exact hcalls.of_ready hready

theorem request_lawful (hbackend : links.backend = some backend)
    (hverified : backend.verify.isSome) (hs : Lawful floor s) {op : Op} (hop : op ≠ .start)
    (msg : Message) (req : Req) (block : Bytes) (tick : UInt32) :
    Lawful floor (fwuRequest (recordedLinks links) op msg req block tick s).2 := by
  have hlawful : Lawful floor (fwuReclaim (recordedLinks links) msg.clientId tick s).2 :=
    reclaim_lawful hs msg.clientId tick
  obtain ⟨-, heq, -⟩ | ⟨-, -, -, heq⟩ :=
    @fwuRequest_cases _ (recordedLinks links) s op msg req block tick
  · rw [heq]
    exact hlawful
  have heffect := @fwuPerform_effect _ (recordedLinks links) (recordedBackend backend)
    (fwuReclaim (recordedLinks links) msg.clientId tick s).2
    (recordedLinks_backend hbackend) op hop msg req block tick
  rw [heq]
  refine settle_lawful (effect_steady hverified heffect hlawful.steady) _ _ _
    fun hstate hzero => hstate ?_
  have hready := hlawful.owner.mp (heffect.owner.1.symm.trans hzero)
  rw [heffect.of_ready hready]
  exact hready

theorem start_lawful (hbackend : links.backend = some backend) (hs : Lawful floor s)
    (msg : Message) (hclient : msg.clientId ≠ 0) (req : Req) (block : Bytes) (tick : UInt32) :
    let result := fwuRequest (recordedLinks links) .start msg req block tick s
    (result.1.status ≠ psaSuccess → Lawful floor result.2) ∧ (result.1.status = psaSuccess →
        Lawful floor ⟨result.2.ctx, result.2.store.1,
          .started req.version :: result.2.store.2⟩) := by
  intro result
  have hlawful : Lawful floor (fwuReclaim (recordedLinks links) msg.clientId tick s).2 :=
    reclaim_lawful hs msg.clientId tick
  obtain ⟨hstatus, heq, -⟩ | ⟨-, -, hreply, heq⟩ :=
    @fwuRequest_cases _ (recordedLinks links) s .start msg req block tick
  · rw [show result.2 = _ from heq]
    exact ⟨fun _ => hlawful, fun h => absurd h hstatus⟩
  have heffect := @fwuPerform_start _ (recordedLinks links) (recordedBackend backend)
    (fwuReclaim (recordedLinks links) msg.clientId tick s).2
    (recordedLinks_backend hbackend) msg req block tick
  rw [show result.2 = _ from heq, show result.1 = _ from hreply]
  generalize fwuPerform (recordedLinks links) .start msg req block tick
    (fwuReclaim (recordedLinks links) msg.clientId tick s).2 = performed
    at heffect ⊢
  generalize (fwuReclaim (recordedLinks links) msg.clientId tick s).2 = reclaimed at hlawful heffect
  obtain ⟨⟨status, written⟩, after⟩ := performed
  cases heffect with
  | refuses _ hstatus =>
    exact ⟨fun _ => settle_lawful hlawful.steady _ _ _
      (fun h h' => h (hlawful.owner.mp h')), fun h => absurd h hstatus⟩
  | beginFails hready =>
    refine ⟨fun _ => ?_, fun h =>
      absurd h (by decide : psaErrorStorageFailure ≠ psaSuccess)⟩
    have hsteady : Steady floor ⟨reclaimed.ctx,
        (invoke (recordedBackend backend).begin reclaimed.store).2⟩ :=
      .quiet hlawful.steady.given (hlawful.steady.disarmed (by simp [hready])) (.inr hready)
    exact settle_lawful hsteady _ _ _ fun h => absurd hready h
  | opens =>
    refine ⟨fun h => absurd rfl h, fun _ => ?_⟩
    have hsteady : Steady floor
        ⟨{ reclaimed.ctx.opened req.version with
            owner := msg.clientId, ownerTick := tick },
          (invoke (recordedBackend backend).begin reclaimed.store).2.1,
          .started req.version :: (invoke (recordedBackend backend).begin reclaimed.store).2.2⟩ :=
      { given := hlawful.steady.given
        armed := by simp [Context.opened]
        writing := fun _ => rfl
        candidate := by simp [Context.opened] }
    exact settle_lawful hsteady .start msg.clientId tick fun _ => hclient

/-- The client of an arrival has an id. -/
def Named : Arrival → Prop
  | .message msg _ _ => msg.clientId ≠ 0
  | _ => True

instance : DecidablePred Named
  | .message msg _ _ => inferInstanceAs (Decidable (msg.clientId ≠ 0))
  | .waitFailed | .idle | .getFailed => .isTrue trivial

theorem recordedTurn_cases (links : Links β) (s : Service (β × Record)) (arrival : Arrival) :
    recordedTurn links s arrival = s ∨ ∃ op msg req block tick delivered,
        arrival = .message msg tick delivered ∧
          let result := fwuRequest (recordedLinks links) op msg req block tick s
          recordedTurn links s arrival =
            if op = .start ∧ result.1.status = psaSuccess then
              ⟨result.2.ctx, result.2.store.1, .started req.version :: result.2.store.2⟩
            else result.2 := by
  unfold recordedTurn
  have hcases : Dispatches (recordedLinks links) s arrival
      (fwuServiceDispatch (recordedLinks links) arrival s) :=
    fwuServiceDispatch_cases arrival
  generalize fwuServiceDispatch (recordedLinks links) arrival s = result at hcases ⊢
  cases hcases with
  | nothing _ turn hquiet =>
    have hopening : opening arrival turn = [] := by
      unfold opening
      split
      case h_1 msg tick delivered =>
        rcases hquiet msg tick delivered rfl with h | h | h <;> simp [h]
      case h_2 => rfl
    dsimp only
    rw [hopening]
    exact .inl rfl
  | request msg tick delivered op req block hop hdecode =>
    refine .inr ⟨op, msg, req, block, tick, delivered, rfl, ?_⟩
    dsimp only [opening]
    simp only [hop, hdecode, Option.some.injEq, Option.map_some]
    split_ifs <;> rfl

/-- What a turn adds to the record: calls that the context before it justifies,
and at most a start. -/
def Records (ctx : Context) (before after : Record) : Prop :=
  ∃ new, after = new ++ before ∧
    ∀ event ∈ new, Justified ctx event ∨ ∃ declared, event = .started declared

theorem turn_records (hbackend : links.backend = some backend) (arrival : Arrival) :
    Records s.ctx s.store.2 (recordedTurn links s arrival).store.2 := by
  obtain heq | ⟨op, msg, req, block, tick, delivered, -, heq⟩ :=
    recordedTurn_cases links s arrival
  · rw [heq]
    exact ⟨[], rfl, nofun⟩
  obtain ⟨new, hnew, hjustified⟩ :=
    @request_grows β links backend s hbackend op msg req block tick
  rw [heq]
  split_ifs
  · refine ⟨.started req.version :: new, by simp [hnew], fun event hevent => ?_⟩
    rcases List.mem_cons.mp hevent with rfl | hmem
    · exact .inr ⟨_, rfl⟩
    · exact .inl (hjustified event hmem)
  · exact ⟨new, hnew, fun event hevent => .inl (hjustified event hevent)⟩

theorem turn_lawful (hbackend : links.backend = some backend) (hverified : backend.verify.isSome)
    (hs : Lawful floor s) {arrival : Arrival} (hnamed : Named arrival) :
    Lawful floor (recordedTurn links s arrival) := by
  obtain heq | ⟨op, msg, req, block, tick, delivered, rfl, heq⟩ :=
    recordedTurn_cases links s arrival
  · rw [heq]
    exact hs
  rw [heq]
  by_cases hop : op = .start
  · subst hop
    obtain ⟨hrefused, hopened⟩ :=
      start_lawful hbackend hs msg hnamed req block tick
    split_ifs with hstatus
    · exact hopened hstatus.2
    · exact hrefused fun h => hstatus ⟨rfl, h⟩
  · rw [if_neg fun h => hop h.1]
    exact request_lawful hbackend hverified hs hop msg req block tick

theorem entry_lawful (floor active : Option UInt32) (store : β) :
    Lawful (spmFwuEntry floor active).versionFloor ⟨spmFwuEntry floor active, store, []⟩ :=
  ⟨.quiet rfl rfl (.inr rfl), by simp [spmFwuEntry]⟩

end Turns

/-- In every state of a service lifetime the swap is marked armed exactly when
it is staged, and nobody owns the update exactly when there is none. The next
turn arms only a candidate, with the staged size and the version that a
verification approved after the last write of the session, not below the floor
and as declared; and it asks for a reset only while an armed swap is staged. -/
theorem armed_only_approved (links : Links β) {backend : Backend β}
    (hbackend : links.backend = some backend) (hverify : backend.verify.isSome)
    (floor active : Option UInt32) (store : β) (arrivals : List Arrival)
    (hclients : ∀ arrival ∈ arrivals, Named arrival) :
    let entry := spmFwuEntry floor active
    let s := run (recordedTurn links) ⟨entry, store, []⟩ arrivals
    (s.ctx.armed = true ↔ s.ctx.state = .staged) ∧
    (s.ctx.owner = 0 ↔ s.ctx.state = .ready) ∧
    ∀ arrival, Named arrival → ∃ new, (recordedTurn links s arrival).store.2 = new ++ s.store.2 ∧
        (∀ size version, .armed size version ∈ new →
          s.ctx.state = .candidate ∧ size = s.ctx.writeHigh ∧
          approvedIn s.store.2 = some (size, version) ∧
          entry.versionFloor ≤ version ∧
          ∃ declared, declaredIn s.store.2 = some declared ∧
            (declared ≠ fwuVersionUndeclared → version = declared)) ∧
        (.resetRequested ∈ new → s.ctx.armed = true ∧ s.ctx.state = .staged) := by
  intro entry s
  have hlawful : Lawful entry.versionFloor s :=
    run_induction (P := fun _ arrival => Named arrival) (I := Lawful entry.versionFloor)
      (fun _ _ hs hnamed => turn_lawful hbackend hverify hs hnamed)
      (entry_lawful floor active store) (along_of_forall hclients)
  refine ⟨hlawful.steady.armed, hlawful.owner, fun arrival hnamed => ?_⟩
  obtain ⟨new, hnew, hevents⟩ := @turn_records β links backend s hbackend arrival
  refine ⟨new, hnew, fun size version hmem => ?_, fun hmem => ?_⟩
  · obtain ⟨hstate, rfl, rfl⟩ | ⟨_, heq⟩ := hevents _ hmem
    · obtain ⟨happroved, hnotBelow, hdeclared⟩ :=
        hlawful.steady.candidate hstate
      exact ⟨hstate, rfl, happroved, hnotBelow, hdeclared⟩
    · cases heq
  · obtain hjustified | ⟨_, heq⟩ := hevents _ hmem
    · exact hjustified
    · cases heq

/-- A backend on which everything succeeds; every image has version 7. -/
def sampleBackend : Backend Unit :=
  { begin := some fun _ => (true, ())
    write := some fun _ _ _ => (true, ())
    arm := some fun _ _ _ => (true, ())
    disarm := some fun _ => (true, ())
    capacity := 4096
    align := 16
    verify := some fun _ _ => (some 7, ()) }

def sampleLinks : Links Unit :=
  { backend := some sampleBackend, transport := some fun _ => (true, ()) }

def sampleArrivals : List Arrival :=
  [arrivalOf (psaFwuStart 5 0 none) 0, arrivalOf (psaFwuWrite 5 0 0 (List.replicate 20 1)) 1,
    arrivalOf (psaFwuFinish 5 0) 2]

/-- The twenty bytes are armed next. -/
theorem armed_only_approved_sample :
    let s := run (recordedTurn sampleLinks) ⟨spmFwuEntry (some 3) none, (), []⟩ sampleArrivals
    (recordedTurn sampleLinks s (arrivalOf (psaFwuInstall 5) 3)).store.2 =
        .armed 20 7 :: s.store.2 ∧
      s.ctx.state = .candidate ∧ s.ctx.owner ≠ 0 ∧
      approvedIn s.store.2 = some (20, 7) := by
  intro s
  obtain ⟨-, howner, hturns⟩ := armed_only_approved sampleLinks rfl rfl (some 3)
    none () sampleArrivals (by decide +kernel)
  obtain ⟨new, hnew, harmed, -⟩ :=
    hturns (arrivalOf (psaFwuInstall 5) 3) (by decide +kernel)
  have hrecord : (recordedTurn sampleLinks s
      (arrivalOf (psaFwuInstall 5) 3)).store.2 = .armed 20 7 :: s.store.2 := by
    decide +kernel
  have hmem : .armed 20 7 ∈ new := by
    rw [List.append_cancel_right (hnew.symm.trans hrecord : _ = [_] ++ _)]
    simp
  obtain ⟨hstate, -, happroved, -⟩ := harmed 20 7 hmem
  refine ⟨hrecord, hstate, fun hzero => ?_, happroved⟩
  exact absurd (hstate.symm.trans (howner.mp hzero)) (by decide)

end WolfTrust.FwuStateMachine
