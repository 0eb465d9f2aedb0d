import WolfTrust.FwuStateMachine

namespace WolfTrust.FwuOwnership

open WolfTrust.FfmRuntime (psaSuccess)
open StepRuns FwuService FwuClient FwuEffects
open WolfTrust.FwuStateMachine (sampleLinks)

def sender : Arrival → Option Int
  | .message msg _ _ => some msg.clientId
  | _ => none

/-- The operation of an arrival that is well sized, and the tick it is taken
at. -/
def operation : Arrival → Option (Op × UInt32)
  | .message msg tick _ =>
    if msg.decode.isSome then (Op.ofType msg.type).map (·, tick) else none
  | _ => none

variable {β : Type}

/-- The service, and when its owner was last active. -/
structure Session (β : Type) where
  service : Service β
  last : UInt32

/-- The client owns an update and was last active at the tick. -/
structure Held (client : Int) (last : UInt32) (s : Service β) : Prop where
  owner : s.ctx.owner = client
  busy : s.ctx.state ≠ .ready
  tick : s.ctx.ownerTick = last

section Turns

variable {links : Links β} {backend : Backend β} {s : Service β} {client : Int} {last : UInt32}
  {tick : UInt32} {msg : Message} {arrival : Arrival} {caller : Int} {op : Op}

theorem serve_message (htransport : links.transport ≠ none) {req : Req}
    {block : Bytes} (hop : Op.ofType msg.type = some op)
    (hdecode : msg.decode = some (req, block)) (tick : UInt32) (delivered : Bool) :
    serve links s (.message msg tick delivered) = (fwuRequest links op msg req block tick s).2 := by
  have hcases : Dispatches links s (.message msg tick delivered)
      (fwuServiceDispatch links (.message msg tick delivered) s) :=
    fwuServiceDispatch_cases _
  unfold serve
  generalize fwuServiceDispatch links (.message msg tick delivered) s = result at hcases ⊢
  cases hcases with
  | nothing _ turn hquiet =>
    rcases hquiet msg tick delivered rfl with ⟨h, -⟩ | h | ⟨h, -⟩
    · exact absurd h htransport
    · simp [hop] at h
    · simp [hdecode] at h
  | request _ _ _ op' req' block' hop' hdecode' =>
    rw [hop] at hop'
    rw [hdecode] at hdecode'
    cases hop'
    cases hdecode'
    rfl

theorem serve_cases (htransport : links.transport ≠ none) (arrival : Arrival) :
    (operation arrival = none ∧ serve links s arrival = s) ∨ ∃ msg tick delivered op req block,
        arrival = .message msg tick delivered ∧
        operation arrival = some (op, tick) ∧
        ∀ s' : Service β, serve links s' arrival =
          (fwuRequest links op msg req block tick s').2 := by
  cases arrival with
  | message msg tick delivered =>
    cases hdecode : msg.decode with
    | none =>
      refine .inl ⟨by simp [operation, hdecode], ?_⟩
      unfold serve fwuServiceDispatch fwuServiceCall
      split
      · rfl
      · dsimp only
        split
        · rfl
        · split
          · simp [hdecode]
          · rfl
    | some read =>
      cases hop : Op.ofType msg.type with
      | none =>
        refine .inl ⟨by simp [operation, hop], ?_⟩
        unfold serve fwuServiceDispatch
        split
        · rfl
        · simp only [hop]
          split <;> rfl
      | some op =>
        exact .inr ⟨msg, tick, delivered, op, read.1, read.2, rfl,
          by simp [operation, hop, hdecode],
          fun s' => serve_message htransport hop hdecode tick delivered⟩
  | waitFailed | idle | getFailed =>
    refine .inl ⟨rfl, ?_⟩
    unfold serve fwuServiceDispatch
    split <;> rfl

end Turns

end WolfTrust.FwuOwnership
