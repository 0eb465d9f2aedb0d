import WolfTrust.FfmRuntime

namespace WolfTrust.FfmRecovery

open FfmRuntime

/-- Complete message `i` with `status` if the failed partition serves it. -/
def failServedMessage (partitionId status : Int) (state : Runtime × Nat)
    (i : MessageIndex) : Runtime × Nat :=
  let runtime := state.1
  let message := runtime.messages i
  if message.allocated = false ∨ message.complete = true then state
  else if runtime.layout.server message.serviceIndex ≠ partitionId then state
  else
    let c := message.connectionIndex
    let completed := ((runtime.setMessage i fun message =>
      { message with
        replyStatus := status, active := false
        complete := true }).setState c .error).record (.messageAnswered i message.releases)
    let settled :=
      if message.abandoned = .no then completed
      else
        releaseMessage (if message.abandoned = .close then releaseConnection completed c
            else completed) i
    (settled, state.2 + 1)

def drainService (partitionId : Int) (runtime : Runtime) (s : ServiceIndex) : Runtime :=
  if s.val < runtime.layout.serviceCount ∧ runtime.layout.server s = partitionId then
    updateServiceSignal { runtime with queues := runtime.queues.drain s } s
  else runtime

/-- A connection to the failed partition drops to the error state and loses
its reverse handle, unless its disconnect was already answered. -/
def failConnection (partitionId : Int) (runtime : Runtime) (i : ConnectionIndex) : Runtime :=
  let connection := runtime.connections i
  if connection.allocated = false ∨ connection.state = .free ∨
      connection.state = .terminal then runtime
  else if runtime.layout.server connection.serviceIndex ≠ partitionId then
    runtime
  else runtime.setConnection i fun connection =>
    { connection with state := .error, rhandle := 0 }

def ffmFailPartitionMessages (runtime : Runtime) (partitionId status : Int) : Nat × Runtime :=
  let failed := (List.finRange 8).foldl (failServedMessage partitionId status) (runtime, 0)
  let drained := (List.finRange 20).foldl (drainService partitionId) failed.1
  (failed.2, (List.finRange 16).foldl (failConnection partitionId) drained)

def releaseClientMessage (caller : Int) (runtime : Runtime) (i : MessageIndex) : Runtime :=
  let message := runtime.messages i
  if message.allocated = false ∨ message.caller ≠ caller then runtime
  else
    releaseMessage (if message.complete = false ∧ message.active = false then
        dequeueMessage runtime message.serviceIndex i
      else runtime) i

def releaseClientConnection (caller : Int) (state : Runtime × Nat)
    (i : ConnectionIndex) : Runtime × Nat :=
  let connection := state.1.connections i
  if connection.allocated = false ∨ connection.caller ≠ caller then state
  else (releaseConnection state.1 i, state.2 + 1)

def ffmFailClientConnections (runtime : Runtime) (caller : Int) : Nat × Runtime :=
  let released := (List.finRange 8).foldl (releaseClientMessage caller) runtime
  let freed := (List.finRange 16).foldl (releaseClientConnection caller) (released, 0)
  (freed.2, freed.1)

def ffmPartitionRestarted (runtime : Runtime) (partitionId status : Int) : Int × Runtime :=
  match findPartition runtime partitionId with
  | .error _ => (FfmError.policy.code, runtime)
  | .ok p =>
    let failed := ffmFailPartitionMessages runtime partitionId status
    let released := (ffmFailClientConnections failed.2 partitionId).2
    (failed.1,
      { released.setAsserted p 0 with
        instances := Function.update released.instances p ((released.instances p + 1) % 2 ^ 32)
        history := .partitionRestarted partitionId :: released.history })

end WolfTrust.FfmRecovery
