import WolfTrust.FfmRuntime

/-!
The firmware update service (`src/services/fwu_service.c`) and the context its
partition builds (`wt_spm_fwu_entry` in `src/spm_partitions.c`). The service
runs over a backend with a store of any type; the answers of the callbacks, and
so their failures, are the store's to decide. What a context points to (its
backend and its transport) never changes and is kept apart from its data, as
`Links`. Null pointers are `none`; the context itself is never null.
-/

namespace WolfTrust.FwuService

open FfmRuntime

abbrev Bytes := List UInt8

def psaErrorNotPermitted : Int := -133
def psaErrorBadState : Int := -137
def psaErrorStorageFailure : Int := -146
def psaSuccessReboot : Int := 1

def fwuBlockMax : Nat := 1024
def fwuComponentPrimary : UInt32 := 0
def fwuVersionUndeclared : UInt32 := 0xFFFFFFFF
def fwuOwnerIdleTimeoutTicks : UInt32 := 30000

def wolfbootMagicTrail : Nat := 0x544F4F42
def wolfbootImgStateUpdating : UInt8 := 0x70

/-- The component states `PSA_FWU_*`. -/
inductive State
  | ready
  | writing
  | candidate
  | staged
  | failed
  | trial
  | rejected
  | updated
  deriving DecidableEq, Repr

/-- The staging seam `wt_fwu_backend_t`. A callback answers whether it returned
zero; `verify` answers the header's version, or `none` when it fails. -/
structure Backend (β : Type) where
  begin : Option (β → Bool × β)
  write : Option (UInt32 → Bytes → β → Bool × β)
  arm : Option (UInt32 → UInt32 → β → Bool × β)
  disarm : Option (β → Bool × β)
  capacity : UInt32
  align : UInt32
  verify : Option (UInt32 → β → Option UInt32 × β)

/-- What a context points to. Of the transport only the platform reset acts
beyond the message being served; it answers whether the gate granted it. -/
structure Links (β : Type) where
  backend : Option (Backend β)
  transport : Option (β → Bool × β)

/-- The data of `wt_fwu_service_ctx_t`. -/
structure Context where
  versionFloor : UInt32
  state : State
  writeHigh : UInt32
  candidateVersion : UInt32
  armed : Bool
  error : Int
  activeVersion : UInt32
  owner : Int
  ownerTick : UInt32
  deriving DecidableEq, Repr

structure Service (β : Type) where
  ctx : Context
  store : β

/-- The context of a partition that starts; a floor or an active version that
the gate cannot give is `none`. -/
def spmFwuEntry (floor active : Option UInt32) : Context :=
  { versionFloor := floor.getD 0xFFFFFFFF, state := .ready, writeHigh := 0
    candidateVersion := 0, armed := false, error := psaSuccess
    activeVersion := active.getD 0, owner := 0, ownerTick := 0 }

def fwuComponentOk (component : UInt32) : Bool :=
  component == fwuComponentPrimary

/-- The topmost `len` bytes of the update partition with the swap pending. -/
def fwuWolfbootArmTrailer (len : Nat) : Option Bytes :=
  if len < 5 then none
  else
    some (List.replicate (len - 5) 0xFF ++
      [wolfbootImgStateUpdating, UInt8.ofNat (wolfbootMagicTrail % 256),
        UInt8.ofNat (wolfbootMagicTrail / 2 ^ 8 % 256),
        UInt8.ofNat (wolfbootMagicTrail / 2 ^ 16 % 256),
        UInt8.ofNat (wolfbootMagicTrail / 2 ^ 24 % 256)])

variable {β : Type}

/-- A callback that may be absent; an absent one succeeds. -/
def invoke (callback : Option (β → Bool × β)) (store : β) : Bool × β :=
  match callback with
  | none => (true, store)
  | some f => f store

def Context.opened (ctx : Context) (version : UInt32) : Context :=
  { ctx with
    state := .writing, writeHigh := 0, candidateVersion := version
    armed := false }

def fwuStart (links : Links β) (component version : UInt32) (s : Service β) : Int × Service β :=
  match links.backend with
  | none => (psaErrorBadState, s)
  | some backend =>
    if ¬fwuComponentOk component then (psaErrorInvalidArgument, s)
    else if s.ctx.state ≠ .ready then (psaErrorBadState, s)
    else if version ≠ fwuVersionUndeclared ∧ version < s.ctx.versionFloor then
      (psaErrorNotPermitted, s)
    else
      let began := invoke backend.begin s.store
      if began.1 then
        (psaSuccess, { ctx := s.ctx.opened version, store := began.2 })
      else (psaErrorStorageFailure, { s with store := began.2 })

/-- The write granularity; zero means bytes. -/
def Backend.granularity (backend : Backend β) : UInt32 :=
  if backend.align = 0 then 1 else backend.align

/-- A write through the seam, with the status it leads to. -/
def Backend.put (backend : Backend β) (offset : UInt32) (data : Bytes) (store : β) : Int × β :=
  let wrote := invoke (backend.write.map (· offset data)) store
  (if wrote.1 then psaSuccess else psaErrorStorageFailure, wrote.2)

/-- The last bytes of a block, filled up with erased bytes to a whole unit. -/
def fwuTail (align : UInt32) (rest : Bytes) : Bytes :=
  rest ++ List.replicate (align.toNat - rest.length) 0xFF

/-- The aligned part of a block, which may be empty. -/
def Backend.putWhole (backend : Backend β) (offset : UInt32) (data : Bytes)
    (whole : UInt32) (store : β) : Int × β :=
  if whole = 0 then (psaSuccess, store)
  else backend.put offset (data.take whole.toNat) store

/-- The part of `wt_fwu_write` that reaches the backend: an unaligned block is
programmed as its aligned part and one filled-up unit. -/
def fwuProgram (backend : Backend β) (offset : UInt32) (data : Bytes) (store : β) : Int × β :=
  let size := UInt32.ofNat data.length
  let align := backend.granularity
  let finish := offset + size
  if finish < offset ∨ backend.capacity < finish ∨ offset % align ≠ 0 then
    (psaErrorInvalidArgument, store)
  else
    let remainder := size % align
    if remainder = 0 then backend.put offset data store
    else
      let padding := align - remainder
      let whole := size - remainder
      if fwuBlockMax < align.toNat ∨ 0xFFFFFFFF - padding < finish ∨
          backend.capacity < finish + padding then
        (psaErrorInvalidArgument, store)
      else
        let first := backend.putWhole offset data whole store
        if first.1 = psaSuccess then
          backend.put (offset + whole) (fwuTail align (data.drop whole.toNat))
            first.2
        else first

/-- A storage failure invalidates the candidate; the extent staged so far
excludes what was filled up. -/
def fwuWrite (links : Links β) (component offset : UInt32) (data : Bytes)
    (s : Service β) : Int × Service β :=
  match links.backend with
  | none => (psaErrorBadState, s)
  | some backend =>
    if ¬fwuComponentOk component ∨ data.length = 0 then
      (psaErrorInvalidArgument, s)
    else if s.ctx.state ≠ .writing then (psaErrorBadState, s)
    else
      let programmed := fwuProgram backend offset data s.store
      let finish := offset + UInt32.ofNat data.length
      let ctx :=
        if programmed.1 = psaErrorStorageFailure then
          { s.ctx with state := .failed, error := psaErrorStorageFailure }
        else if programmed.1 = psaSuccess ∧ s.ctx.writeHigh < finish then
          { s.ctx with writeHigh := finish }
        else s.ctx
      (programmed.1, { ctx, store := programmed.2 })

/-- A candidate that cannot be accepted. -/
def Context.fail (ctx : Context) (error : Int) : Context :=
  { ctx with state := .failed, error }

/-- The version the staged image gets: the header's where there is one to read,
which must agree with a declared one. -/
def boundVersion (declared : UInt32) : Option UInt32 → Except Int UInt32
  | none => .error psaErrorInvalidArgument
  | some header =>
    if declared = fwuVersionUndeclared ∨ header = declared then .ok header
    else .error psaErrorNotPermitted

def fwuFinish (links : Links β) (component : UInt32) (s : Service β) : Int × Service β :=
  match links.backend with
  | none => (psaErrorBadState, s)
  | some backend =>
    if ¬fwuComponentOk component then (psaErrorInvalidArgument, s)
    else if s.ctx.state ≠ .writing then (psaErrorBadState, s)
    else if s.ctx.writeHigh = 0 then (psaErrorInvalidArgument, s)
    else
      let bound : Except Int UInt32 × β :=
        match backend.verify with
        | none => (.ok s.ctx.candidateVersion, s.store)
        | some verify =>
          let verified := verify s.ctx.writeHigh s.store
          (boundVersion s.ctx.candidateVersion verified.1, verified.2)
      match bound.1 with
      | .error status =>
        (status, { ctx := s.ctx.fail status, store := bound.2 })
      | .ok version =>
        let ctx := { s.ctx with candidateVersion := version }
        if version = fwuVersionUndeclared ∨ version < ctx.versionFloor then
          (psaErrorNotPermitted,
            { ctx := ctx.fail psaErrorNotPermitted, store := bound.2 })
        else
          (psaSuccess, { ctx := { ctx with state := .candidate }
                         store := bound.2 })

def fwuInstall (links : Links β) (s : Service β) : Int × Service β :=
  match links.backend with
  | none => (psaErrorBadState, s)
  | some backend =>
    if s.ctx.state ≠ .candidate then (psaErrorBadState, s)
    else
      match backend.arm, backend.disarm with
      | some arm, some _ =>
        if s.ctx.candidateVersion < s.ctx.versionFloor then
          (psaErrorNotPermitted,
            { s with ctx := s.ctx.fail psaErrorNotPermitted })
        else
          let done := arm s.ctx.writeHigh s.ctx.candidateVersion s.store
          if done.1 then
            (psaSuccessReboot,
              { ctx := { s.ctx with state := .staged, armed := true }
                store := done.2 })
          else (psaErrorStorageFailure, { s with store := done.2 })
      | _, _ => (psaErrorBadState, s)

def fwuCancel (links : Links β) (component : UInt32) (s : Service β) : Int × Service β :=
  if links.backend.isNone then (psaErrorBadState, s)
  else if ¬fwuComponentOk component then (psaErrorInvalidArgument, s)
  else if s.ctx.state ≠ .writing ∧ s.ctx.state ≠ .candidate then
    (psaErrorBadState, s)
  else (psaSuccess, { s with ctx := s.ctx.fail psaSuccess })

/-- The update is over and nothing of it is pending. -/
def Context.cleared (ctx : Context) : Context :=
  { ctx with
    state := .ready, writeHigh := 0, candidateVersion := 0, armed := false
    error := psaSuccess }

/-- Where the swap is armed the trigger is taken back. -/
def disarmArmed (backend : Backend β) (s : Service β) : Bool × β :=
  if s.ctx.armed then invoke backend.disarm s.store else (true, s.store)

def fwuClean (links : Links β) (component : UInt32) (s : Service β) : Int × Service β :=
  match links.backend with
  | none => (psaErrorBadState, s)
  | some backend =>
    if ¬fwuComponentOk component then (psaErrorInvalidArgument, s)
    else if s.ctx.state ≠ .failed ∧ s.ctx.state ≠ .updated then
      (psaErrorBadState, s)
    else
      let disarmed := disarmArmed backend s
      if disarmed.1 then
        (psaSuccess, { ctx := s.ctx.cleared, store := disarmed.2 })
      else (psaErrorStorageFailure, { s with store := disarmed.2 })

def fwuReject (links : Links β) (error : Int) (s : Service β) : Int × Service β :=
  match links.backend with
  | none => (psaErrorBadState, s)
  | some backend =>
    if s.ctx.state ≠ .staged then (psaErrorBadState, s)
    else
      let disarmed := disarmArmed backend s
      if disarmed.1 then
        (psaSuccess, { ctx := { s.ctx.fail error with armed := false }
                       store := disarmed.2 })
      else (psaErrorStorageFailure, { s with store := disarmed.2 })

def fwuRequestReboot (links : Links β) (s : Service β) : Int × Service β :=
  match links.transport with
  | none => (psaErrorBadState, s)
  | some reset =>
    if s.ctx.state ≠ .staged ∨ s.ctx.armed = false then (psaErrorBadState, s)
    else
      let granted := reset s.store
      (if granted.1 then psaSuccessReboot else psaErrorNotSupported,
        { s with store := granted.2 })

/-- The fields of `psa_fwu_component_info_t` that are not constantly zero. -/
structure Info where
  state : State
  error : Int
  build : UInt32
  maxSize : UInt32
  stagedSize : UInt32
  deriving DecidableEq, Repr

def fwuQuery (links : Links β) (component : UInt32) (s : Service β) : Except Int Info :=
  match links.backend with
  | none => .error psaErrorBadState
  | some backend =>
    if ¬fwuComponentOk component then .error psaErrorInvalidArgument
    else
      .ok { state := s.ctx.state
            error := if s.ctx.state = .failed then s.ctx.error else psaSuccess
            build := s.ctx.activeVersion
            maxSize := backend.capacity
            stagedSize := s.ctx.writeHigh }

inductive Op
  | query
  | start
  | write
  | finish
  | install
  | cancel
  | clean
  | reject
  | reboot
  | accept
  deriving DecidableEq, Repr

/-- The request types `WT_FWU_OP_*`. -/
def Op.ofType (type : Int) : Option Op :=
  if type = 1 then some .query
  else if type = 2 then some .start
  else if type = 3 then some .write
  else if type = 4 then some .finish
  else if type = 5 then some .install
  else if type = 6 then some .cancel
  else if type = 7 then some .clean
  else if type = 8 then some .reject
  else if type = 9 then some .reboot
  else if type = 10 then some .accept
  else none

/-- The wire header `wt_fwu_req_t`. -/
structure Req where
  component : UInt32
  offset : UInt32
  size : UInt32
  version : UInt32
  deriving DecidableEq, Repr

def sizeofReq : Nat := 16
def sizeofInfo : Nat := 32

def wordAt (bytes : Bytes) (i : Nat) : UInt32 :=
  UInt32.ofNat ((bytes.getD i 0).toNat + 2 ^ 8 * (bytes.getD (i + 1) 0).toNat +
    2 ^ 16 * (bytes.getD (i + 2) 0).toNat + 2 ^ 24 * (bytes.getD (i + 3) 0).toNat)

def reqOfBytes (bytes : Bytes) : Req :=
  { component := wordAt bytes 0, offset := wordAt bytes 4
    size := wordAt bytes 8, version := wordAt bytes 12 }

/-- A message. `reads` is what the reads of its first input vector give, one
after another, `none` being one that fails; after them the vector is drained.
`writable` is whether an answer to a query can be written back. -/
structure Message where
  type : Int
  clientId : Int
  inSize : Nat
  outSize : Nat
  reads : List (Option Bytes)
  writable : Bool
  deriving DecidableEq, Repr

/-- A read gives at most what is left of the buffer. -/
def fwuReadIn (capacity : Nat) : List (Option Bytes) → Bytes → Option Bytes
  | [], buffer => some buffer
  | none :: _, _ => none
  | some chunk :: later, buffer =>
    let got := chunk.take (capacity - buffer.length)
    if got = [] then some buffer
    else if capacity ≤ (buffer ++ got).length then some (buffer ++ got)
    else fwuReadIn capacity later (buffer ++ got)

/-- The header of a message and the block behind it, if the message has the
size of a request and can be read. -/
def Message.decode (msg : Message) : Option (Req × Bytes) :=
  if msg.inSize < sizeofReq then none
  else if sizeofReq + fwuBlockMax < msg.inSize then none
  else
    match fwuReadIn (sizeofReq + fwuBlockMax) msg.reads [] with
    | none => none
    | some input =>
      if input.length < sizeofReq then none
      else some (reqOfBytes input, input.drop sizeofReq)

structure Reply where
  status : Int
  written : Option Info
  deriving DecidableEq, Repr

def fwuOwnerExpired (owner : Int) (ownerTick nowTick : UInt32) (caller : Int) : Bool :=
  if owner = 0 ∨ caller = owner then false
  else decide (fwuOwnerIdleTimeoutTicks ≤ nowTick - ownerTick)

/-- Where the swap is armed the trigger must be taken back; that nothing can
take it back is a failure here. -/
def forceDisarm (links : Links β) (s : Service β) : Bool × β :=
  if s.ctx.armed then
    match links.backend.bind (·.disarm) with
    | none => (false, s.store)
    | some disarm => disarm s.store
  else (true, s.store)

def fwuForceReset (links : Links β) (s : Service β) : Int × Service β :=
  let disarmed := forceDisarm links s
  if disarmed.1 then
    (psaSuccess, { ctx := { s.ctx.cleared with owner := 0 }
                   store := disarmed.2 })
  else (psaErrorStorageFailure, { s with store := disarmed.2 })

/-- A session whose owner has gone idle is taken from it. -/
def fwuReclaim (links : Links β) (clientId : Int) (nowTick : UInt32)
    (s : Service β) : Int × Service β :=
  if fwuOwnerExpired s.ctx.owner s.ctx.ownerTick nowTick clientId then
    fwuForceReset links s
  else (psaSuccess, s)

/-- The request's own case of the service call. A reject carries its error code
in the version word. -/
def fwuPerform (links : Links β) (op : Op) (msg : Message) (req : Req)
    (block : Bytes) (nowTick : UInt32) (s : Service β) : Reply × Service β :=
  let plain (result : Int × Service β) : Reply × Service β :=
    ({ status := result.1, written := none }, result.2)
  match op with
  | .query =>
    match fwuQuery links req.component s with
    | .error status => ({ status, written := none }, s)
    | .ok info =>
      if msg.writable then ({ status := psaSuccess, written := some info }, s)
      else ({ status := psaErrorGenericError, written := none }, s)
  | .start =>
    let result := fwuStart links req.component req.version s
    if result.1 = psaSuccess then
      plain (result.1,
        { result.2 with
          ctx := { result.2.ctx with
            owner := msg.clientId, ownerTick := nowTick } })
    else plain result
  | .write =>
    if req.size ≠ UInt32.ofNat block.length then
      plain (psaErrorInvalidArgument, s)
    else plain (fwuWrite links req.component req.offset block s)
  | .finish => plain (fwuFinish links req.component s)
  | .install => plain (fwuInstall links s)
  | .cancel => plain (fwuCancel links req.component s)
  | .clean => plain (fwuClean links req.component s)
  | .reject => plain (fwuReject links req.version.toBitVec.toInt s)
  | .reboot => plain (fwuRequestReboot links s)
  | .accept => plain (psaErrorNotSupported, s)

/-- A finished update has no owner; a request of the owner that may change the
update restarts its idle time. -/
def fwuSettle (op : Op) (clientId : Int) (nowTick : UInt32) (ctx : Context) : Context :=
  if ctx.state = .ready then { ctx with owner := 0 }
  else if ctx.owner ≠ 0 ∧ clientId = ctx.owner ∧ op ≠ .query ∧ op ≠ .start then
    { ctx with ownerTick := nowTick }
  else ctx

/-- A request whose message has been read. -/
def fwuRequest (links : Links β) (op : Op) (msg : Message) (req : Req)
    (block : Bytes) (nowTick : UInt32) (s : Service β) : Reply × Service β :=
  let reclaimed := fwuReclaim links msg.clientId nowTick s
  if reclaimed.1 ≠ psaSuccess then
    ({ status := reclaimed.1, written := none }, reclaimed.2)
  else
    let s := reclaimed.2
    if op ≠ .query ∧ op ≠ .start ∧ s.ctx.owner ≠ 0 ∧ msg.clientId ≠ s.ctx.owner then
      ({ status := psaErrorNotPermitted, written := none }, s)
    else if op = .query ∧ msg.outSize < sizeofInfo then
      ({ status := psaErrorInvalidArgument, written := none }, s)
    else
      let result := fwuPerform links op msg req block nowTick s
      (result.1,
        { result.2 with
          ctx := fwuSettle op msg.clientId nowTick result.2.ctx })

def fwuServiceCall (links : Links β) (op : Op) (msg : Message)
    (nowTick : UInt32) (s : Service β) : Reply × Service β :=
  match msg.decode with
  | none => ({ status := psaErrorInvalidArgument, written := none }, s)
  | some (req, block) => fwuRequest links op msg req block nowTick s

/-- What one turn of the dispatch loop meets: a wait or a get that fails, no
signal, or a message with the tick it is taken at and whether its reply is
delivered. -/
inductive Arrival
  | waitFailed
  | idle
  | getFailed
  | message (msg : Message) (tick : UInt32) (delivered : Bool)
  deriving DecidableEq, Repr

structure Turn where
  ok : Bool
  reply : Option Reply
  deriving DecidableEq, Repr

/-- One turn of the loop; without a transport there is none. -/
def fwuServiceDispatch (links : Links β) (arrival : Arrival) (s : Service β) : Turn × Service β :=
  if links.transport.isNone then ({ ok := false, reply := none }, s)
  else
    match arrival with
    | .waitFailed => ({ ok := false, reply := none }, s)
    | .idle => ({ ok := true, reply := none }, s)
    | .getFailed => ({ ok := false, reply := none }, s)
    | .message msg tick delivered =>
      let served : Reply × Service β :=
        if msg.type = psaIpcConnect ∨ msg.type = psaIpcDisconnect then
          ({ status := psaSuccess, written := none }, s)
        else
          match Op.ofType msg.type with
          | some op => fwuServiceCall links op msg tick s
          | none => ({ status := psaErrorNotSupported, written := none }, s)
      ({ ok := delivered, reply := some served.1 }, served.2)

def serve (links : Links β) (s : Service β) (arrival : Arrival) : Service β :=
  (fwuServiceDispatch links arrival s).2

end WolfTrust.FwuService
