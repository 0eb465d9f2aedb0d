import WolfTrust.FwuService

namespace WolfTrust.FwuEffects

open WolfTrust.FfmRuntime (psaSuccess)
open FwuService

variable {β : Type}

/-- What a request other than a start can do. -/
inductive Effect (links : Links β) (backend : Backend β) (s : Service β) :
    Service β → Prop
  | nothing : Effect links backend s s
  | writes (ctx : Context) (offset : UInt32) (data : Bytes) (hdata : data ≠ [])
      (hstate : s.ctx.state = .writing)
      (hctx : ctx = s.ctx.fail psaErrorStorageFailure ∨
        ∃ high, ctx = { s.ctx with writeHigh := high }) :
      Effect links backend s ⟨ctx, (fwuProgram backend offset data s.store).2⟩
  | refuses (verify : UInt32 → β → Option UInt32 × β) (version : UInt32)
      (status : Int) (hstate : s.ctx.state = .writing)
      (hverify : backend.verify = some verify) :
      Effect links backend s ⟨{ s.ctx with candidateVersion := version }.fail status,
          (verify s.ctx.writeHigh s.store).2⟩
  | accepts (verify : UInt32 → β → Option UInt32 × β) (version : UInt32)
      (hstate : s.ctx.state = .writing)
      (hverify : backend.verify = some verify)
      (hfound : (verify s.ctx.writeHigh s.store).1 = some version)
      (hdeclared : s.ctx.candidateVersion ≠ fwuVersionUndeclared → version = s.ctx.candidateVersion)
      (hfloor : s.ctx.versionFloor ≤ version) :
      Effect links backend s ⟨{ s.ctx with candidateVersion := version, state := .candidate },
          (verify s.ctx.writeHigh s.store).2⟩
  | unverified (ctx : Context) (hstate : s.ctx.state = .writing)
      (hverify : backend.verify = none)
      (hctx : ctx = s.ctx.fail psaErrorNotPermitted ∨ ctx = { s.ctx with state := .candidate }) :
      Effect links backend s ⟨ctx, s.store⟩
  | overtaken (hstate : s.ctx.state = .candidate) :
      Effect links backend s ⟨s.ctx.fail psaErrorNotPermitted, s.store⟩
  | armFails (arm : UInt32 → UInt32 → β → Bool × β)
      (hstate : s.ctx.state = .candidate) (harm : backend.arm = some arm) :
      Effect links backend s ⟨s.ctx, (arm s.ctx.writeHigh s.ctx.candidateVersion s.store).2⟩
  | arms (arm : UInt32 → UInt32 → β → Bool × β)
      (hstate : s.ctx.state = .candidate) (harm : backend.arm = some arm) :
      Effect links backend s ⟨{ s.ctx with state := .staged, armed := true },
          (arm s.ctx.writeHigh s.ctx.candidateVersion s.store).2⟩
  | cancels (hstate : s.ctx.state = .writing ∨ s.ctx.state = .candidate) :
      Effect links backend s ⟨s.ctx.fail psaSuccess, s.store⟩
  | disarmFails
      (hstate : s.ctx.state = .failed ∨ s.ctx.state = .updated ∨ s.ctx.state = .staged)
      (hfails : (disarmArmed backend s).1 = false) :
      Effect links backend s ⟨s.ctx, (disarmArmed backend s).2⟩
  | cleans (hstate : s.ctx.state = .failed ∨ s.ctx.state = .updated)
      (hdisarmed : (disarmArmed backend s).1 = true) :
      Effect links backend s ⟨s.ctx.cleared, (disarmArmed backend s).2⟩
  | rejects (error : Int) (hstate : s.ctx.state = .staged)
      (hdisarmed : (disarmArmed backend s).1 = true) :
      Effect links backend s ⟨{ s.ctx.fail error with armed := false }, (disarmArmed backend s).2⟩
  | resets (reset : β → Bool × β) (htransport : links.transport = some reset)
      (hstate : s.ctx.state = .staged) (harmed : s.ctx.armed = true) :
      Effect links backend s ⟨s.ctx, (reset s.store).2⟩

theorem granularity_pos (backend : Backend β) : 0 < backend.granularity.toNat := by
  unfold Backend.granularity
  split
  · decide
  case isFalse h => exact Nat.pos_of_ne_zero fun h' => h (UInt32.toNat.inj h')

theorem fwuProgram_preserves {backend : Backend β} {P : β → Prop}
    (hput : ∀ offset data store, data ≠ [] → P store → P (backend.put offset data store).2)
    (offset : UInt32) {data : Bytes} (hdata : data ≠ []) {store : β}
    (h : P store) : P (fwuProgram backend offset data store).2 := by
  unfold fwuProgram
  dsimp only
  split
  · exact h
  split
  · exact hput _ _ _ hdata h
  split
  · exact h
  have hwhole : ∀ whole, P (backend.putWhole offset data whole store).2 := by
    intro whole
    unfold Backend.putWhole
    split
    · exact h
    case isFalse hne =>
      refine hput _ _ _ (fun hnil => ?_) h
      rcases List.take_eq_nil_iff.mp hnil with hzero | hnil
      · exact hne (UInt32.toNat.inj hzero)
      · exact hdata hnil
  split
  · refine hput _ _ _ (List.ne_nil_of_length_pos ?_) (hwhole _)
    have hpos := granularity_pos backend
    simp only [fwuTail, List.length_append, List.length_replicate]
    omega
  · exact hwhole _

section Operations

variable {links : Links β} {backend : Backend β} {s : Service β}

theorem fwuWrite_effect (hbackend : links.backend = some backend) (component offset : UInt32)
    (data : Bytes) : Effect links backend s (fwuWrite links component offset data s).2 := by
  unfold fwuWrite
  rw [hbackend]
  dsimp only
  split
  · exact .nothing
  case _ hargs =>
    split
    · exact .nothing
    case _ hstate =>
      have hdata : data ≠ [] := fun h => hargs (.inr (by simp [h]))
      refine .writes _ offset data hdata (by simpa using hstate) ?_
      split
      · exact .inl rfl
      split
      · exact .inr ⟨_, rfl⟩
      · exact .inr ⟨s.ctx.writeHigh, rfl⟩

theorem boundVersion_ok {declared version : UInt32} {found : Option UInt32}
    (h : boundVersion declared found = .ok version) :
    found = some version ∧ (declared ≠ fwuVersionUndeclared → version = declared) := by
  cases found with
  | none => simp [boundVersion] at h
  | some =>
    simp only [boundVersion] at h
    split at h
    case isTrue hor =>
      cases h
      exact ⟨rfl, hor.resolve_left⟩
    case isFalse => cases h

theorem fwuFinish_effect (hbackend : links.backend = some backend) (component : UInt32) :
    Effect links backend s (fwuFinish links component s).2 := by
  unfold fwuFinish
  rw [hbackend]
  dsimp only
  split
  · exact .nothing
  split
  · exact .nothing
  case _ hstate =>
    replace hstate : s.ctx.state = .writing := by simpa using hstate
    split
    · exact .nothing
    cases hverify : backend.verify with
    | none =>
      dsimp only
      split
      · exact .unverified _ hstate hverify (.inl rfl)
      · exact .unverified _ hstate hverify (.inr rfl)
    | some verify =>
      dsimp only
      cases hbound : boundVersion s.ctx.candidateVersion (verify s.ctx.writeHigh s.store).1 with
      | error status => exact .refuses verify s.ctx.candidateVersion status hstate hverify
      | ok version =>
        obtain ⟨hfound, hdeclared⟩ := boundVersion_ok hbound
        dsimp only
        split
        case isTrue => exact .refuses verify version _ hstate hverify
        case isFalse haccepted =>
          have hfloor : s.ctx.versionFloor ≤ version := UInt32.not_lt.mp fun h => haccepted (.inr h)
          exact .accepts verify version hstate hverify hfound hdeclared hfloor

theorem fwuInstall_effect (hbackend : links.backend = some backend) :
    Effect links backend s (fwuInstall links s).2 := by
  unfold fwuInstall
  rw [hbackend]
  dsimp only
  split
  · exact .nothing
  case _ hstate =>
    replace hstate : s.ctx.state = .candidate := by simpa using hstate
    split
    case h_1 arm _ harm _ =>
      split
      · exact .overtaken hstate
      split
      · exact .arms arm hstate harm
      · exact .armFails arm hstate harm
    case h_2 => exact .nothing

theorem fwuCancel_effect (component : UInt32) :
    Effect links backend s (fwuCancel links component s).2 := by
  unfold fwuCancel
  split
  · exact .nothing
  split
  · exact .nothing
  split
  · exact .nothing
  case _ hstate =>
    refine .cancels ?_
    by_contra hnot
    exact hstate (not_or.mp hnot)

theorem fwuClean_effect (hbackend : links.backend = some backend) (component : UInt32) :
    Effect links backend s (fwuClean links component s).2 := by
  unfold fwuClean
  rw [hbackend]
  dsimp only
  split
  · exact .nothing
  split
  · exact .nothing
  case _ hstate =>
    replace hstate : s.ctx.state = .failed ∨ s.ctx.state = .updated := by
      by_contra hnot
      exact hstate (not_or.mp hnot)
    split
    case isTrue hdisarmed => exact .cleans hstate hdisarmed
    case isFalse hfails =>
      refine .disarmFails ?_ (by simpa using hfails)
      exact hstate.imp id .inl

theorem fwuReject_effect (hbackend : links.backend = some backend)
    (error : Int) : Effect links backend s (fwuReject links error s).2 := by
  unfold fwuReject
  rw [hbackend]
  dsimp only
  split
  · exact .nothing
  case _ hstate =>
    replace hstate : s.ctx.state = .staged := by simpa using hstate
    split
    case isTrue hdisarmed => exact .rejects error hstate hdisarmed
    case isFalse hfails =>
      exact .disarmFails (.inr (.inr hstate)) (by simpa using hfails)

theorem fwuRequestReboot_effect : Effect links backend s (fwuRequestReboot links s).2 := by
  unfold fwuRequestReboot
  split
  · exact .nothing
  case _ reset htransport =>
    split
    · exact .nothing
    case _ hstate =>
      obtain ⟨hstaged, harmed⟩ := not_or.mp hstate
      exact .resets reset htransport (by simpa using hstaged) (by simpa using harmed)

theorem fwuPerform_effect (hbackend : links.backend = some backend) {op : Op} (hop : op ≠ .start)
    (msg : Message) (req : Req) (block : Bytes) (nowTick : UInt32) :
    Effect links backend s (fwuPerform links op msg req block nowTick s).2 := by
  cases op with
  | query =>
    simp only [fwuPerform]
    split
    · exact .nothing
    · split <;> exact .nothing
  | start => exact absurd rfl hop
  | write =>
    simp only [fwuPerform]
    split
    · exact .nothing
    · exact fwuWrite_effect hbackend _ _ _
  | finish => exact fwuFinish_effect hbackend _
  | install => exact fwuInstall_effect hbackend
  | cancel => exact fwuCancel_effect _
  | clean => exact fwuClean_effect hbackend _
  | reject => exact fwuReject_effect hbackend _
  | reboot => exact fwuRequestReboot_effect
  | accept => exact .nothing

/-- What a start of a client can do, with the status it is answered. -/
inductive StartEffect (backend : Backend β) (s : Service β) (client : Int)
    (tick version : UInt32) : Int → Service β → Prop
  | refuses (status : Int) (hstatus : status ≠ psaSuccess) :
      StartEffect backend s client tick version status s
  | beginFails (hstate : s.ctx.state = .ready) :
      StartEffect backend s client tick version psaErrorStorageFailure
        ⟨s.ctx, (invoke backend.begin s.store).2⟩
  | opens (hstate : s.ctx.state = .ready) :
      StartEffect backend s client tick version psaSuccess
        ⟨{ s.ctx.opened version with owner := client, ownerTick := tick },
          (invoke backend.begin s.store).2⟩

theorem fwuStart_cases (hbackend : links.backend = some backend) (component version : UInt32) :
    (∃ status, status ≠ psaSuccess ∧ fwuStart links component version s = (status, s)) ∨
      s.ctx.state = .ready ∧ (fwuStart links component version s = (psaErrorStorageFailure,
              ⟨s.ctx, (invoke backend.begin s.store).2⟩) ∨
          fwuStart links component version s = (psaSuccess,
              ⟨s.ctx.opened version, (invoke backend.begin s.store).2⟩)) := by
  simp only [fwuStart, hbackend]
  split
  · exact .inl ⟨_, by decide, rfl⟩
  split
  · exact .inl ⟨_, by decide, rfl⟩
  case _ hstate =>
    split
    · exact .inl ⟨_, by decide, rfl⟩
    · refine .inr ⟨not_not.mp hstate, ?_⟩
      split
      · exact .inr rfl
      · exact .inl rfl

theorem fwuPerform_start (hbackend : links.backend = some backend)
    (msg : Message) (req : Req) (block : Bytes) (nowTick : UInt32) :
    StartEffect backend s msg.clientId nowTick req.version
      (fwuPerform links .start msg req block nowTick s).1.status
      (fwuPerform links .start msg req block nowTick s).2 := by
  simp only [fwuPerform]
  obtain ⟨status, hstatus, heq⟩ | ⟨hstate, heq | heq⟩ :=
    @fwuStart_cases β links backend s hbackend req.component req.version
  · rw [heq, if_neg hstatus]
    exact .refuses status hstatus
  · rw [heq, if_neg (by decide : psaErrorStorageFailure ≠ psaSuccess)]
    exact .beginFails hstate
  · rw [heq, if_pos rfl]
    exact .opens hstate

theorem Effect.owner {after : Service β} (h : Effect links backend s after) :
    after.ctx.owner = s.ctx.owner ∧ after.ctx.ownerTick = s.ctx.ownerTick := by
  cases h with
  | writes ctx offset data hdata hstate hctx =>
    rcases hctx with rfl | ⟨high, rfl⟩ <;> exact ⟨rfl, rfl⟩
  | unverified ctx hstate hverify hctx =>
    rcases hctx with rfl | rfl <;> exact ⟨rfl, rfl⟩
  | _ => exact ⟨rfl, rfl⟩

theorem Effect.of_ready {after : Service β} (h : Effect links backend s after)
    (hready : s.ctx.state = .ready) : after = s := by
  cases h with
  | nothing => rfl
  | cancels hstate | cleans hstate =>
    rcases hstate with hstate | hstate <;> simp [hready] at hstate
  | disarmFails hstate =>
    rcases hstate with hstate | hstate | hstate <;> simp [hready] at hstate
  | _ => simp_all

end Operations

section Requests

variable {links : Links β} {s : Service β}

/-- What comes before a request: nothing, or the end of an idle session, whose
swap is disarmed first. -/
inductive Reclaims (links : Links β) (client : Int) (tick : UInt32)
    (s : Service β) : Int × Service β → Prop
  | keeps (h : fwuOwnerExpired s.ctx.owner s.ctx.ownerTick tick client = false) :
      Reclaims links client tick s (psaSuccess, s)
  | ends (h : fwuOwnerExpired s.ctx.owner s.ctx.ownerTick tick client = true)
      (hdisarmed : (forceDisarm links s).1 = true) :
      Reclaims links client tick s
        (psaSuccess, ⟨{ s.ctx.cleared with owner := 0 }, (forceDisarm links s).2⟩)
  | fails (h : fwuOwnerExpired s.ctx.owner s.ctx.ownerTick tick client = true)
      (hfails : (forceDisarm links s).1 = false) :
      Reclaims links client tick s (psaErrorStorageFailure, ⟨s.ctx, (forceDisarm links s).2⟩)

theorem fwuReclaim_cases (client : Int) (tick : UInt32) :
    Reclaims links client tick s (fwuReclaim links client tick s) := by
  unfold fwuReclaim fwuForceReset
  cases h : fwuOwnerExpired s.ctx.owner s.ctx.ownerTick tick client with
  | false => exact .keeps h
  | true =>
    cases hdisarmed : (forceDisarm links s).1 with
    | true => simpa [hdisarmed] using Reclaims.ends h hdisarmed
    | false => simpa [hdisarmed] using Reclaims.fails h hdisarmed

/-- A request that is denied changes nothing after the reclaim: the reclaim
failed, a query has no room for its answer, or the client is not the owner. Any
other is performed and settled, and its client is the owner unless it queries or
starts or nobody owns the update. -/
theorem fwuRequest_cases (op : Op) (msg : Message) (req : Req) (block : Bytes) (tick : UInt32) :
    let reclaimed := fwuReclaim links msg.clientId tick s
    let result := fwuRequest links op msg req block tick s
    let performed := fwuPerform links op msg req block tick reclaimed.2
    (result.1.status ≠ psaSuccess ∧ result.2 = reclaimed.2 ∧
        (reclaimed.1 ≠ psaSuccess ∨ op = .query ∨ msg.clientId ≠ reclaimed.2.ctx.owner)) ∨
      (reclaimed.1 = psaSuccess ∧ (op = .query ∨ op = .start ∨ reclaimed.2.ctx.owner = 0 ∨
          msg.clientId = reclaimed.2.ctx.owner) ∧
        result.1 = performed.1 ∧
        result.2 = ⟨fwuSettle op msg.clientId tick performed.2.ctx, performed.2.store⟩) := by
  intro reclaimed result performed
  by_cases hreclaimed : reclaimed.1 ≠ psaSuccess
  · left
    have heq : result = ({ status := reclaimed.1, written := none },
        reclaimed.2) := if_pos hreclaimed
    rw [heq]
    exact ⟨hreclaimed, rfl, .inl hreclaimed⟩
  have hrest : result = (if op ≠ .query ∧ op ≠ .start ∧ reclaimed.2.ctx.owner ≠ 0 ∧
          msg.clientId ≠ reclaimed.2.ctx.owner then
        ({ status := psaErrorNotPermitted, written := none }, reclaimed.2)
      else if op = .query ∧ msg.outSize < sizeofInfo then
        ({ status := FfmRuntime.psaErrorInvalidArgument, written := none }, reclaimed.2)
      else (performed.1,
        { performed.2 with
          ctx := fwuSettle op msg.clientId tick performed.2.ctx })) :=
    if_neg hreclaimed
  rw [hrest]
  split
  case isTrue hforeign =>
    exact .inl ⟨(by decide : psaErrorNotPermitted ≠ psaSuccess), rfl, .inr (.inr hforeign.2.2.2)⟩
  case isFalse hallowed =>
    split
    case isTrue hquery =>
      exact .inl ⟨(by decide : FfmRuntime.psaErrorInvalidArgument ≠ psaSuccess),
        rfl, .inr (.inl hquery.1)⟩
    case isFalse =>
      refine .inr ⟨not_not.mp hreclaimed, ?_, rfl, rfl⟩
      by_contra hnot
      simp only [not_or] at hnot
      exact hallowed hnot

/-- A turn of the loop serves a request, or changes nothing: there is no
transport, no message, no operation of that type, or no request to read. -/
inductive Dispatches (links : Links β) (s : Service β) :
    Arrival → Turn × Service β → Prop
  | nothing (arrival : Arrival) (turn : Turn)
      (h : ∀ msg tick delivered, arrival = .message msg tick delivered →
        links.transport = none ∧ turn.reply = none ∨ Op.ofType msg.type = none ∨ msg.decode = none ∧
            ∀ reply, turn.reply = some reply → reply.status ≠ psaSuccess) :
      Dispatches links s arrival (turn, s)
  | request (msg : Message) (tick : UInt32) (delivered : Bool) (op : Op)
      (req : Req) (block : Bytes) (hop : Op.ofType msg.type = some op)
      (hdecode : msg.decode = some (req, block)) :
      Dispatches links s (.message msg tick delivered)
        (⟨delivered, some (fwuRequest links op msg req block tick s).1⟩,
          (fwuRequest links op msg req block tick s).2)

theorem ofType_ipc {type : Int}
    (h : type = FfmRuntime.psaIpcConnect ∨ type = FfmRuntime.psaIpcDisconnect) :
    Op.ofType type = none := by
  rcases h with rfl | rfl <;> decide

theorem fwuServiceDispatch_cases (arrival : Arrival) :
    Dispatches links s arrival (fwuServiceDispatch links arrival s) := by
  unfold fwuServiceDispatch
  split
  case isTrue htransport =>
    refine .nothing arrival _ fun _ _ _ _ => .inl ⟨?_, rfl⟩
    simpa using htransport
  case isFalse =>
    cases arrival with
    | waitFailed | idle | getFailed => exact .nothing _ _ (by simp)
    | message msg tick delivered =>
      dsimp only
      split
      case isTrue hipc =>
        refine .nothing _ _ fun _ _ _ heq => .inr (.inl ?_)
        cases heq
        exact ofType_ipc hipc
      case isFalse =>
        cases hop : Op.ofType msg.type with
        | none =>
          refine .nothing _ _ fun _ _ _ heq => .inr (.inl ?_)
          cases heq
          exact hop
        | some op =>
          dsimp only
          unfold fwuServiceCall
          cases hdecode : msg.decode with
          | none =>
            refine .nothing _ _ fun _ _ _ heq => .inr (.inr ?_)
            cases heq
            refine ⟨hdecode, fun reply hreply => ?_⟩
            cases hreply
            exact (by decide : FfmRuntime.psaErrorInvalidArgument ≠ psaSuccess)
          | some read => exact .request msg tick delivered op read.1 read.2 hop hdecode

end Requests

end WolfTrust.FwuEffects
