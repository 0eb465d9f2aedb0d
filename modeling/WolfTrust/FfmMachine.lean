import WolfTrust.FfmRecovery
import WolfTrust.SpmGate

/-!
The runtime as a machine. A synchronous request dispatches its service in the
middle of the call, and the dispatch may run any other operation, so such a
request is suspended on a stack: one step starts it, a later one is the return
of its dispatch function. Every order of steps is a run.
-/

namespace WolfTrust.FfmMachine

open Domain ByteMemory FfmRuntime FfmClient FfmService FfmRecovery SpmGate

/-- A synchronous request whose dispatch is running. -/
inductive Suspended
  | connect (request : Request)
  | call (request : Request) (outVec : List IoVec)
  | close (request : Request)
  deriving DecidableEq

def Suspended.request : Suspended → Request
  | .connect request => request
  | .call request _ => request
  | .close request => request

structure Machine where
  runtime : Runtime
  memory : Memory
  stack : List Suspended

inductive Step
  | gate (ports : PortOps) (domain : Option SecureDomain) (call : SpmCall)
  | connect (caller : Int) (sid version : Nat)
  | call (ports : PortOps) (caller handle type : Int)
      (inVec outVec : List IoVec)
  | close (caller handle : Int)
  | dispatched (ports : PortOps) (ret : Int)
  | callRefuse (caller handle : Int)
  | assertSignal (partitionId : Int) (signal : Word)
  | partitionRestarted (partitionId status : Int)
  | failClient (caller : Int)
  | setLifecycle (lifecycle : Nat)
  | scribble (bytes : Nat → UInt8)

/-- The gate call of a step, with the block it leaves behind. -/
def Machine.gate (machine : Machine) (ports : PortOps)
    (domain : Option SecureDomain) (call : SpmCall) : GateState :=
  (spmGate ports domain
    { call, runtime := machine.runtime, memory := machine.memory }).2

/-- The dispatch function of the innermost request returned `ret`. -/
def Machine.dispatched (machine : Machine) (ports : PortOps) (ret : Int) : Machine :=
  match machine.stack with
  | [] => machine
  | suspended :: stack =>
    let result := dispatchResult machine.runtime suspended.request.message ret
    match suspended with
    | .connect request =>
      { machine with
        runtime := (connectReturn machine.runtime request result).2
        stack := stack }
    | .call request outVec =>
      let returned := callReturn ports machine.runtime machine.memory request outVec result
      { runtime := returned.2.2.1
        memory := returned.2.2.2
        stack := stack }
    | .close request =>
      { machine with
        runtime := (closeReturn machine.runtime request result).2
        stack := stack }

def Machine.suspend (machine : Machine) (suspended : Option Suspended) : Machine :=
  match suspended with
  | none => machine
  | some suspended => { machine with stack := suspended :: machine.stack }

def step (machine : Machine) : Step → Machine
  | .gate ports domain call =>
    let gated := machine.gate ports domain call
    { machine with runtime := gated.runtime, memory := gated.memory }
  | .connect caller sid version =>
    let begun := connectRequest machine.runtime caller sid version
    Machine.suspend { machine with runtime := begun.2 } (begun.1.toOption.map .connect)
  | .call ports caller handle type inVec outVec =>
    let begun := callRequest ports machine.runtime machine.memory caller handle type inVec outVec
    Machine.suspend
      { machine with runtime := begun.2.1, memory := begun.2.2 }
      (begun.1.toOption.map fun request => .call request outVec)
  | .close caller handle =>
    let begun := closeRequest machine.runtime caller handle
    Machine.suspend { machine with runtime := begun.2 } (begun.1.toOption.join.map .close)
  | .dispatched ports ret => machine.dispatched ports ret
  | .callRefuse caller handle =>
    { machine with runtime := ffmCallRefuse machine.runtime caller handle }
  | .assertSignal partitionId signal =>
    { machine with
      runtime := (ffmAssertSignal machine.runtime partitionId signal).2 }
  | .partitionRestarted partitionId status =>
    { machine with
      runtime := (ffmPartitionRestarted machine.runtime partitionId status).2 }
  | .failClient caller =>
    { machine with
      runtime := (ffmFailClientConnections machine.runtime caller).2 }
  | .setLifecycle lifecycle =>
    { machine with
      runtime := { machine.runtime with lifecycle := lifecycle } }
  | .scribble bytes =>
    { machine with memory := { machine.memory with bytes := bytes } }

def run (machine : Machine) (steps : List Step) : Machine :=
  steps.foldl step machine

/-- The machine after `wt_ffm_init`, over any initial memory. -/
def start (runtime : Runtime) (memory : Memory) : Machine :=
  { runtime, memory, stack := [] }

end WolfTrust.FfmMachine
