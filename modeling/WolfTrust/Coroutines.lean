import Mathlib.Data.Fintype.Card
import Mathlib.Data.Fintype.Sum
import Mathlib.Tactic.DeriveFintype
import WolfTrust.LinkedQueue

/-!
The coroutines (`src/sched/coroutine.c`): their states and the run queue threaded
through them. A switch ends where the other side runs; coming back to the
bootstrap is an operation of its own, which goes on with the tick under way. The
exception that a block or a preemption asks for is taken before any thread runs
again, so it is part of them. A panic ends the run and is `none`; so is a walk
along the links that would not end. The stack canaries are left out: they only
make the platform panic. So are pointers that name no coroutine.
-/

namespace WolfTrust.Coroutines

open LinkedQueue

def coMax : Nat := 12
def coStackSize : Nat := 10 * 1024
def coStackMin : Nat := 1024

inductive CoState
  | runnable
  | running
  | blocked
  | faulted
  deriving DecidableEq, Repr

/-- What a pointer to a coroutine may name: the monitor's own context, or an
entry of the table. -/
inductive Co
  | bootstrap
  | slot (i : Fin 12)
  deriving DecidableEq, Repr, Fintype

/-- `struct wt_co` without its link in the run queue. -/
structure Block where
  state : CoState
  stackBase : Bool
  wakePending : Bool
  deriving DecidableEq, Repr

/-- The scheduler. `ticking` is how many switches the tick under way may still
make. -/
structure Sched where
  block : Co → Block
  runqueue : Queues Unit Co
  current : Co
  count : Nat
  ticking : Nat

def Sched.state (s : Sched) (co : Co) : CoState := (s.block co).state

def Sched.setBlock (s : Sched) (co : Co) (block : Block) : Sched :=
  { s with block := Function.update s.block co block }

def Sched.setState (s : Sched) (co : Co) (state : CoState) : Sched :=
  s.setBlock co { s.block co with state }

def runqueueEnqueue (s : Sched) (co : Co) : Option Sched :=
  if co = .bootstrap then none
  else some { s with runqueue := (s.runqueue.detach co).push () co }

def runqueueDequeue (s : Sched) : Option Co × Sched :=
  match s.runqueue.head () with
  | none => (none, s)
  | some co => (some co, { s with runqueue := s.runqueue.pop () co })

def doSwitch (s : Sched) (target : Co) : Sched :=
  { s.setState target .running with current := target }

/-- How many coroutines there are, so that many steps reach the end of a walk. -/
def coCount : Nat := Fintype.card Co

def lastFrom (next : Co → Option Co) : Nat → Co → Option Co
  | 0, co => if next co = none then some co else none
  | fuel + 1, co =>
    match next co with
    | none => some co
    | some later => lastFrom next fuel later

/-- `*link = node->next_run`, where the link is that of the coroutine before, or
the head. -/
def relink (q : Queues Unit Co) (node : Co) : Option Co → Queues Unit Co
  | none => { q with head := fun _ => q.next node }
  | some previous =>
    { q with next := Function.update q.next previous (q.next node) }

/-- Unlink `node`; if it was the tail, look for the new one from the head. -/
def unlinkNode (q : Queues Unit Co) (node : Co) (previous : Option Co) : Option (Queues Unit Co) :=
  let linked := relink q node previous
  let cleared (tail : Option Co) : Queues Unit Co :=
    { linked with
      tail := fun _ => tail, next := Function.update linked.next node none }
  if q.tail () = some node then
    match linked.head () with
    | none => some (cleared none)
    | some first =>
      (lastFrom linked.next coCount first).map fun last => cleared (some last)
  else some (cleared (q.tail ()))

def unlinkFrom (q : Queues Unit Co) (co : Co) :
    Nat → Option Co → Option Co → Option (Queues Unit Co)
  | _, _, none => some q
  | 0, _, some _ => none
  | fuel + 1, previous, some node =>
    if node = co then unlinkNode q node previous
    else unlinkFrom q co fuel (some node) (q.next node)

def runqueueUnlink (s : Sched) (co : Co) : Option Sched :=
  (unlinkFrom s.runqueue co coCount none (s.runqueue.head ())).map fun runqueue =>
    { s with runqueue }

structure CreateRequest where
  entry : Bool
  stack : Option Nat
  stackSize : Nat
  privStackOk : Bool

def nextSlot (s : Sched) : Co := .slot (Fin.ofNat 12 (s.count - 1))

def coCreateCommon (s : Sched) (request : CreateRequest) (initial : CoState)
    (minStack : Nat) (requirePrivStack : Bool) : Option (Option Co × Sched) :=
  match request.stack with
  | none => some (none, s)
  | some stack =>
    if ¬request.entry ∨ request.stackSize < minStack ∨
        request.stackSize < coStackMin ∨ stack % 8 ≠ 0 ∨ coMax ≤ s.count ∨
        (requirePrivStack ∧ ¬request.privStackOk) then
      some (none, s)
    else
      let co := nextSlot s
      let created :=
        { s.setBlock co { s.block co with state := initial, stackBase := true } with
          runqueue := s.runqueue.detach co
          count := s.count + 1 }
      if initial = .runnable then
        (runqueueEnqueue created co).map fun s => (some co, s)
      else some (some co, created)

def coCreate (s : Sched) (request : CreateRequest) : Option (Option Co × Sched) :=
  coCreateCommon s request .runnable coStackSize true

def coCreateBlocked (s : Sched) (request : CreateRequest) : Option (Option Co × Sched) :=
  coCreateCommon s request .blocked coStackSize true

def coCreateBlockedEx (s : Sched) (request : CreateRequest) : Option (Option Co × Sched) :=
  coCreateCommon s request .blocked coStackMin false

def coBlock (s : Sched) : Option Sched :=
  if s.current = .bootstrap then none
  else some { s.setState s.current .blocked with current := .bootstrap }

def coWake (s : Sched) : Option Co → Option Sched
  | none => some s
  | some co =>
    if co = .bootstrap then none
    else
      match s.state co with
      | .runnable => some (s.setBlock co { s.block co with wakePending := true })
      | .running => some (s.setBlock co { s.block co with wakePending := true })
      | .faulted => some s
      | .blocked =>
        runqueueEnqueue
          (s.setBlock co { s.block co with
            state := .runnable, wakePending := false }) co

/-- A coroutine that is given up or started again is not the current one. -/
def Sched.leave (s : Sched) (co : Co) : Sched :=
  if s.current = co then { s with current := .bootstrap } else s

def coMarkFaulted (s : Sched) : Option Co → Option Sched
  | none => some s
  | some co =>
    (runqueueUnlink s co).map fun s => (s.setState co .faulted).leave co

/-- A coroutine as it was at boot, on the stack it has. -/
def Sched.rearm (s : Sched) (co : Co) : Sched :=
  { s.setBlock co { s.block co with state := .blocked, wakePending := false } with
    runqueue := s.runqueue.detach co }

def coReinit (s : Sched) (entry : Bool) : Option Co → Option (Int × Sched)
  | none => some (-1, s)
  | some co =>
    if ¬entry ∨ co = .bootstrap ∨ ¬(s.block co).stackBase then some (-1, s)
    else
      (runqueueUnlink s co).map fun s => (0, (s.leave co).rearm co)

def coRun (s : Sched) : Option Co → Option (Nat × Sched)
  | none => some (0, s)
  | some co =>
    if s.current ≠ .bootstrap then some (0, s)
    else if co = .bootstrap then none
    else if s.state co ≠ .runnable then some (0, s)
    else (runqueueUnlink s co).map fun s => (1, doSwitch s co)

/-- One round of the loop of `wt_co_tick`. -/
def tickRound (s : Sched) : Sched :=
  match s.ticking with
  | 0 => s
  | left + 1 =>
    match runqueueDequeue s with
    | (none, s) => { s with ticking := 0 }
    | (some target, s) => doSwitch { s with ticking := left } target

def coTick (s : Sched) (budget : Nat) : Sched :=
  if s.current ≠ .bootstrap then s else tickRound { s with ticking := budget }

/-- A preempted coroutine could run and is not on the queue. -/
def coRequestPreempt (s : Sched) : Bool × Sched :=
  if s.current = .bootstrap then (false, s)
  else if s.state s.current ≠ .running then (false, s)
  else (true, { s.setState s.current .runnable with current := .bootstrap })

inductive Op
  | create (request : CreateRequest)
  | createBlocked (request : CreateRequest)
  | createBlockedEx (request : CreateRequest)
  | wake (co : Option Co)
  | block
  | run (co : Option Co)
  | tick (budget : Nat)
  /-- The bootstrap is back in the loop of the tick under way. -/
  | resume
  | preempt
  | markFaulted (co : Option Co)
  | reinit (entry : Bool) (co : Option Co)

def exec (s : Sched) : Op → Option Sched
  | .create request => (coCreate s request).map Prod.snd
  | .createBlocked request => (coCreateBlocked s request).map Prod.snd
  | .createBlockedEx request => (coCreateBlockedEx s request).map Prod.snd
  | .wake co => coWake s co
  | .block => coBlock s
  | .run co => (coRun s co).map Prod.snd
  | .tick budget => some (coTick s budget)
  | .resume => some (if s.current = .bootstrap then tickRound s else s)
  | .preempt => some (coRequestPreempt s).2
  | .markFaulted co => coMarkFaulted s co
  | .reinit entry co => (coReinit s entry co).map Prod.snd

/-- A platform that panicked stays as it was. -/
def step (s : Sched) (a : Op) : Sched := (exec s a).getD s

end WolfTrust.Coroutines
