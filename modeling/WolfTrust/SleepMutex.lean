import Mathlib.Data.Fintype.Card
import Mathlib.Data.List.Sublists
import WolfTrust.LinkedQueue
import WolfTrust.StepRuns

/-!
The sleep mutex of the coroutines (`src/sync/mutex.c`), for any number `n` of
them. Its wait queue is threaded through the coroutines' own links. Where the code
would follow a null pointer, or a walk along the links would not end, the result is
`none`. The scheduler is left open: a coroutine that waits may be resumed at any
time, so what `wt_co_wake` does is covered.
-/

namespace WolfTrust.SleepMutex

open LinkedQueue

variable {n : Nat}

/-- `wt_mutex_t` with the links `next_wait` of the coroutines. There is one wait
queue. -/
structure Mutex (n : Nat) where
  holder : Option (Fin n)
  wait : Queues Unit (Fin n)
  acquireCount : UInt32
  contendCount : UInt32

def mutexInit (next : Fin n → Option (Fin n)) : Mutex n :=
  { holder := none
    wait := { head := fun _ => none, tail := fun _ => none, next }
    acquireCount := 0
    contendCount := 0 }

def Mutex.take (m : Mutex n) (self : Fin n) : Mutex n :=
  { m with holder := some self, acquireCount := m.acquireCount + 1 }

/-- The end of the queue; one that has a head has a tail, or the code writes
through a null pointer. -/
def Mutex.enqueue (m : Mutex n) (self : Fin n) : Option (Mutex n) :=
  let linked := m.wait.detach self
  let counted := { m with contendCount := m.contendCount + 1 }
  match linked.head (), linked.tail () with
  | none, _ =>
    some { counted with
      wait := { linked with head := fun _ => some self, tail := fun _ => some self } }
  | some _, none => none
  | some _, some last =>
    some { counted with
      wait := { linked with
        next := Function.update linked.next last (some self)
        tail := fun _ => some self } }

/-- The first part of `wt_mutex_acquire`: whether the mutex was taken; if not, the
coroutine is queued and blocks. -/
def mutexAcquire (m : Mutex n) (self : Fin n) : Option (Bool × Mutex n) :=
  if m.holder = none then some (true, m.take self)
  else (m.enqueue self).map fun m => (false, m)

/-- What a coroutine does that is resumed in `wt_mutex_acquire`: whether it
returns. -/
def mutexResume (m : Mutex n) (self : Fin n) : Bool × Mutex n :=
  if m.holder = some self then
    (true, { m with acquireCount := m.acquireCount + 1 })
  else (false, m)

/-- The mutex goes to the head of the queue, which is woken. -/
def Mutex.handOver (m : Mutex n) : Mutex n :=
  match m.wait.head () with
  | none => { m with holder := none }
  | some next => { m with holder := some next, wait := m.wait.pop () next }

def mutexRelease (m : Mutex n) (current : Fin n) : Int × Mutex n :=
  if m.holder ≠ some current then (-1, m) else (0, m.handOver)

def mutexTryAcquire (m : Mutex n) (current : Fin n) : Bool × Mutex n :=
  if m.holder ≠ none then (false, m) else (true, m.take current)

/-- The walk of `wt_mutex_acquire_queued` along the links. -/
def isQueued (next : Fin n → Option (Fin n)) (self : Fin n) : Nat → Option (Fin n) → Option Bool
  | _, none => some false
  | 0, some _ => none
  | fuel + 1, some waiter =>
    if waiter = self then some true else isQueued next self fuel (next waiter)

/-- As long as no coroutine is met twice, `n` steps reach the end of the queue. -/
def mutexAcquireQueued (m : Mutex n) (self : Fin n) : Option (Int × Mutex n) :=
  if m.holder = none then some (0, m.take self)
  else if m.holder = some self then some (0, m)
  else
    match isQueued m.wait.next self n (m.wait.head ()) with
    | none => none
    | some true => some (1, m)
    | some false => (m.enqueue self).map fun m => (1, m)

/-- The walk of `wt_mutex_remove_waiter`. -/
def Mutex.removeFrom (m : Mutex n) (co : Fin n) :
    Nat → Option (Fin n) → Option (Fin n) → Option (Mutex n)
  | _, _, none => some m
  | 0, _, some _ => none
  | fuel + 1, previous, some current =>
    if current = co then
      some { m with wait := m.wait.unlink () co previous }
    else m.removeFrom co fuel (some current) (m.wait.next current)

def mutexRemoveWaiter (m : Mutex n) (co : Fin n) : Option (Mutex n) :=
  m.removeFrom co n none (m.wait.head ())

def mutexReleaseIfHolder (m : Mutex n) (co : Fin n) : Mutex n :=
  if m.holder ≠ some co then m else m.handOver

/-- The coroutines around the mutex: who is inside a blocking acquire, and who was
told that it has the mutex and has not given it back since. -/
structure System (n : Nat) where
  mutex : Mutex n
  inside : Fin n → Bool
  granted : Fin n → Bool

def start (next : Fin n → Option (Fin n)) : System n :=
  { mutex := mutexInit next, inside := fun _ => false, granted := fun _ => false }

inductive Action (n : Nat)
  | acquire (co : Fin n)
  | resume (co : Fin n)
  | acquireQueued (co : Fin n)
  | tryAcquire (co : Fin n)
  | release (co : Fin n)
  | recover (co : Fin n)
  deriving DecidableEq, Repr

/-- One action; `none` where the code does not return. -/
def exec (s : System n) : Action n → Option (System n)
  | .acquire co =>
    (mutexAcquire s.mutex co).map fun (taken, mutex) =>
      if taken then { s with mutex, granted := Function.update s.granted co true }
      else { s with mutex, inside := Function.update s.inside co true }
  | .resume co =>
    let (returns, mutex) := mutexResume s.mutex co
    some (if returns then
        { mutex
          inside := Function.update s.inside co false
          granted := Function.update s.granted co true }
      else { s with mutex })
  | .acquireQueued co =>
    (mutexAcquireQueued s.mutex co).map fun (status, mutex) =>
      if status = 0 then
        { s with mutex, granted := Function.update s.granted co true }
      else { s with mutex }
  | .tryAcquire co =>
    let (taken, mutex) := mutexTryAcquire s.mutex co
    some (if taken then
        { s with mutex, granted := Function.update s.granted co true }
      else { s with mutex })
  | .release co =>
    let (status, mutex) := mutexRelease s.mutex co
    some (if status = 0 then
        { s with mutex, granted := Function.update s.granted co false }
      else { s with mutex })
  | .recover co =>
    -- the coroutine is restarted from its entry
    (mutexRemoveWaiter (mutexReleaseIfHolder s.mutex co) co).map fun mutex =>
      { mutex
        inside := Function.update s.inside co false
        granted := Function.update s.granted co false }

def step (s : System n) (a : Action n) : System n := (exec s a).getD s

/-- Follow the links from a coroutine, at most `fuel` of them. -/
def follow (next : Fin n → Option (Fin n)) : Nat → Option (Fin n) → List (Fin n)
  | 0, _ => []
  | _, none => []
  | fuel + 1, some co => co :: follow next fuel (next co)

def Mutex.waiters (m : Mutex n) : List (Fin n) := follow m.wait.next n (m.wait.head ())

/-- What the mutex is for: a holder, and the coroutines that wait in line. -/
@[ext]
structure Line (n : Nat) where
  holder : Option (Fin n)
  queue : List (Fin n)

def Line.pass (l : Line n) : Line n :=
  { holder := l.queue.head?, queue := l.queue.tail }

def Line.join (l : Line n) (co : Fin n) : Line n :=
  if l.holder = none then { l with holder := some co }
  else { l with queue := l.queue ++ [co] }

def Line.step (l : Line n) : Action n → Line n
  | .acquire co => l.join co
  | .resume _ => l
  | .acquireQueued co =>
    if l.holder = some co ∨ co ∈ l.queue then l else l.join co
  | .tryAcquire co => if l.holder = none then l.join co else l
  | .release co => if l.holder = some co then l.pass else l
  | .recover co =>
    let left := if l.holder = some co then l.pass else l
    { left with queue := left.queue.erase co }

def Mutex.line (m : Mutex n) : Line n := { holder := m.holder, queue := m.waiters }

/-- The links hold this queue; the holder does not wait, and nobody waits for a
mutex that is free. -/
structure Queued (m : Mutex n) (q : List (Fin n)) : Prop where
  represents : Represents m.wait fun _ => q
  holder : ∀ co, m.holder = some co → co ∉ q
  free : m.holder = none → q = []

section Walks

variable {next : Fin n → Option (Fin n)} {first : Option (Fin n)}
  {q : List (Fin n)} {fuel : Nat}

theorem follow_eq (h : Path next first q) (hfuel : q.length ≤ fuel) :
    follow next fuel first = q := by
  induction q generalizing first fuel with
  | nil =>
    have hnone : first = none := h
    subst hnone
    cases fuel with
    | zero | succ => rfl
  | cons co rest ih =>
    obtain ⟨rfl, hrest⟩ := h
    obtain ⟨fuel, rfl⟩ := Nat.exists_eq_succ_of_ne_zero (Nat.ne_zero_of_lt hfuel)
    rw [follow, ih hrest (Nat.le_of_succ_le_succ hfuel)]

theorem isQueued_eq (h : Path next first q) (hfuel : q.length ≤ fuel)
    (co : Fin n) : isQueued next co fuel first = some (decide (co ∈ q)) := by
  induction q generalizing first fuel with
  | nil =>
    have hnone : first = none := h
    subst hnone
    simp [isQueued]
  | cons waiter rest ih =>
    obtain ⟨rfl, hrest⟩ := h
    obtain ⟨fuel, rfl⟩ := Nat.exists_eq_succ_of_ne_zero (Nat.ne_zero_of_lt hfuel)
    rw [isQueued, ih hrest (Nat.le_of_succ_le_succ hfuel)]
    by_cases heq : waiter = co
    · simp [heq]
    · simp [heq, Ne.symm heq]

theorem removeFrom_eq {m : Mutex n} (h : Path m.wait.next first q)
    (hfuel : q.length ≤ fuel) (co : Fin n) (previous : Option (Fin n)) :
    m.removeFrom co fuel previous first =
      some { m with
        wait := m.wait.removeFrom () co (fuel + 1) first previous } := by
  induction q generalizing first fuel previous with
  | nil =>
    have hnone : first = none := h
    subst hnone
    cases fuel with
    | zero | succ => rfl
  | cons waiter rest ih =>
    obtain ⟨rfl, hrest⟩ := h
    obtain ⟨fuel, rfl⟩ := Nat.exists_eq_succ_of_ne_zero (Nat.ne_zero_of_lt hfuel)
    rw [Mutex.removeFrom, Queues.removeFrom, ih hrest (Nat.le_of_succ_le_succ hfuel)]
    split_ifs
    · rfl
    · rfl

end Walks

section Queue

variable {m : Mutex n} {q : List (Fin n)}

theorem Queued.length_le (h : Queued m q) : q.length ≤ n := by
  have hcard := (h.represents.nodup ()).length_le_card
  rwa [Fintype.card_fin] at hcard

theorem Queued.waiters_eq (h : Queued m q) : m.waiters = q :=
  follow_eq (h.represents.path ()) h.length_le

theorem Queued.take (h : Queued m q) (hfree : m.holder = none) (co : Fin n) :
    Queued (m.take co) q := by
  obtain rfl := h.free hfree
  exact ⟨h.represents, fun _ _ => List.not_mem_nil, nofun⟩

theorem Queued.enqueue (h : Queued m q) {co owner : Fin n}
    (howner : m.holder = some owner) (hne : co ≠ owner) (hco : co ∉ q) :
    ∃ m', m.enqueue co = some m' ∧ m'.holder = m.holder ∧ Queued m' (q ++ [co]) := by
  have hdetached : Represents (m.wait.detach co) fun _ => q := h.represents.detach fun _ => hco
  have hlink : (m.wait.detach co).next co = none := Function.update_self _ _ _
  have hpush := hdetached.push (s := ()) (fun _ => hco) hlink
  rw [update_unit] at hpush
  have hhead := hdetached.head_eq ()
  have htail := hdetached.tail ()
  have hholder : ∀ other, some owner = some other → other ∉ q ++ [co] := by
    intro other hother hmem
    obtain rfl := Option.some.inj hother
    rcases List.mem_append.mp hmem with hmem | hmem
    · exact h.holder _ howner hmem
    · exact hne (List.mem_singleton.mp hmem).symm
  unfold Mutex.enqueue
  dsimp only
  cases hq : q.getLast? with
  | none =>
    obtain rfl := List.getLast?_eq_none_iff.mp hq
    rw [hhead]
    refine ⟨_, rfl, rfl, ?_, howner ▸ hholder, fun hnone => ?_⟩
    · simpa only [Queues.push, htail, hq, update_unit] using hpush
    · cases howner.symm.trans hnone
  | some =>
    obtain ⟨first, hfirst⟩ : ∃ first, q.head? = some first := by
      cases q with
      | nil => cases hq
      | cons first => exact ⟨first, rfl⟩
    rw [hhead, htail, hfirst, hq]
    refine ⟨_, rfl, rfl, ?_, howner ▸ hholder, fun hnone => ?_⟩
    · simpa only [Queues.push, htail, hq, update_unit] using hpush
    · cases howner.symm.trans hnone

theorem Queued.handOver (h : Queued m q) :
    m.handOver.holder = q.head? ∧ Queued m.handOver q.tail := by
  have hhead := h.represents.head_eq ()
  unfold Mutex.handOver
  rw [hhead]
  cases q with
  | nil => exact ⟨rfl, h.represents, nofun, fun _ => rfl⟩
  | cons =>
    have hpop := h.represents.pop (s := ()) rfl
    rw [update_unit] at hpop
    refine ⟨rfl, hpop, fun co hco => ?_, nofun⟩
    obtain rfl := Option.some.inj hco
    exact (List.nodup_cons.mp (h.represents.nodup ())).1

theorem Queued.remove (h : Queued m q) (co : Fin n) :
    ∃ m', mutexRemoveWaiter m co = some m' ∧ m'.holder = m.holder ∧ Queued m' (q.erase co) := by
  refine ⟨_, removeFrom_eq (h.represents.path ()) h.length_le co none, rfl, ?_⟩
  have hremoved : Represents (m.wait.removeFrom () co (n + 1) (m.wait.head ())
        ([] : List (Fin n)).getLast?)
      (Function.update (fun _ => q) () (q.erase co)) :=
    h.represents.removeFrom (List.nil_append _).symm
      (Nat.lt_succ_of_le h.length_le) (h.represents.path ()) List.not_mem_nil
  rw [update_unit] at hremoved
  refine ⟨hremoved, fun other hother hmem => ?_, fun hnone => ?_⟩
  · exact h.holder other hother (List.mem_of_mem_erase hmem)
  · rw [h.free hnone]
    rfl

end Queue

/-- A coroutine inside a blocking acquire can only be resumed. The mutex is not
recursive: one that has the mutex, or waits for it, does not enter a blocking
acquire. -/
def Allowed (s : System n) : Action n → Prop
  | .acquire co =>
    s.inside co = false ∧ s.mutex.holder ≠ some co ∧ co ∉ s.mutex.waiters
  | .resume co => s.inside co = true
  | .acquireQueued co | .tryAcquire co | .release co => s.inside co = false
  | .recover _ => True

instance (s : System n) : DecidablePred (Allowed s)
  | .acquire co => inferInstanceAs (Decidable (s.inside co = false ∧
      s.mutex.holder ≠ some co ∧ co ∉ s.mutex.waiters))
  | .resume co => inferInstanceAs (Decidable (s.inside co = true))
  | .acquireQueued co | .tryAcquire co | .release co =>
    inferInstanceAs (Decidable (s.inside co = false))
  | .recover _ => .isTrue trivial

/-- The mutex and the coroutines agree: one inside a blocking acquire waits or was
handed the mutex, and one that was told it has the mutex has it. -/
structure Sound (s : System n) (q : List (Fin n)) : Prop where
  queued : Queued s.mutex q
  inside : ∀ co, s.inside co = true → co ∈ q ∨ s.mutex.holder = some co
  granted : ∀ co, s.granted co = true → s.mutex.holder = some co

/-- A system whose mutex stands as this line says. -/
def Stands (s : System n) (l : Line n) : Prop :=
  Sound s l.queue ∧ s.mutex.holder = l.holder

section Actions

variable {s : System n} {q : List (Fin n)}

theorem Sound.free (h : Sound s q) (hfree : s.mutex.holder = none) (co : Fin n) :
    s.inside co = false ∧ s.granted co = false := by
  constructor
  · by_contra hinside
    rcases h.inside co (by simpa using hinside) with hmem | hholder
    · rw [h.queued.free hfree] at hmem
      cases hmem
    · cases hfree.symm.trans hholder
  · by_contra hgranted
    cases hfree.symm.trans (h.granted co (by simpa using hgranted))

theorem Sound.take (h : Sound s q) (hfree : s.mutex.holder = none) (co : Fin n) :
    Stands { s with
        mutex := s.mutex.take co
        granted := Function.update s.granted co true }
      ((⟨s.mutex.holder, q⟩ : Line n).join co) := by
  rw [Line.join, if_pos hfree]
  refine ⟨⟨h.queued.take hfree co, fun other hother => ?_, fun other hother => ?_⟩,
    rfl⟩
  · rw [(h.free hfree other).1] at hother
    cases hother
  · by_cases heq : other = co
    · rw [heq]
      rfl
    · dsimp only at hother
      rw [Function.update_of_ne heq, (h.free hfree other).2] at hother
      cases hother

theorem Sound.enqueue (h : Sound s q) {co owner : Fin n}
    (howner : s.mutex.holder = some owner) (hne : co ≠ owner) (hco : co ∉ q) :
    ∃ m', s.mutex.enqueue co = some m' ∧ ∀ inside : Fin n → Bool,
      (∀ other, inside other = true → other = co ∨ s.inside other = true) →
      Stands { s with mutex := m', inside } ((⟨s.mutex.holder, q⟩ : Line n).join co) := by
  obtain ⟨m', henqueue, hholder, hqueued⟩ := h.queued.enqueue howner hne hco
  have hbusy : ¬s.mutex.holder = none := by
    rw [howner]
    nofun
  refine ⟨m', henqueue, fun inside hinside => ?_⟩
  rw [Line.join, if_neg hbusy]
  refine ⟨⟨hqueued, fun other hother => ?_, fun other hother => ?_⟩, hholder⟩
  · rcases hinside other hother with rfl | hother
    · exact .inl (by simp)
    · rcases h.inside other hother with hmem | hheld
      · exact .inl (List.mem_append_left _ hmem)
      · exact .inr (hholder.trans hheld)
  · exact hholder.trans (h.granted other hother)

theorem Sound.pass (h : Sound s q) {co : Fin n}
    (hco : s.mutex.holder = some co) {inside : Fin n → Bool}
    (hinside : ∀ other, inside other = true → other ≠ co ∧ s.inside other = true) :
    Stands
      { mutex := s.mutex.handOver
        inside
        granted := Function.update s.granted co false }
      (⟨s.mutex.holder, q⟩ : Line n).pass := by
  obtain ⟨hholder, hqueued⟩ := h.queued.handOver
  refine ⟨⟨hqueued, fun other hother => ?_, fun other hother => ?_⟩, hholder⟩
  · obtain ⟨hne, hother⟩ := hinside other hother
    rcases h.inside other hother with hmem | hheld
    · show other ∈ q.tail ∨ s.mutex.handOver.holder = some other
      rw [hholder]
      cases q with
      | nil => cases hmem
      | cons =>
        rcases List.mem_cons.mp hmem with rfl | hmem
        · exact .inr rfl
        · exact .inl hmem
    · exact absurd (Option.some.inj (hheld.symm.trans hco)) hne
  · dsimp only at hother
    by_cases heq : other = co
    · rw [heq, Function.update_self] at hother
      cases hother
    · rw [Function.update_of_ne heq] at hother
      exact absurd (Option.some.inj ((h.granted other hother).symm.trans hco)) heq

theorem Sound.remove (h : Sound s q) {co : Fin n}
    (hco : s.mutex.holder ≠ some co) (hout : s.inside co = false) :
    ∃ m', mutexRemoveWaiter s.mutex co = some m' ∧
      Stands { s with mutex := m' } ⟨s.mutex.holder, q.erase co⟩ := by
  obtain ⟨m', hremoved, hholder, hqueued⟩ := h.queued.remove co
  refine ⟨m', hremoved, ⟨hqueued, fun other hother => ?_, fun other hother => ?_⟩, hholder⟩
  · have hne : other ≠ co := by
      rintro rfl
      cases hout.symm.trans hother
    rcases h.inside other hother with hmem | hheld
    · exact .inl ((List.mem_erase_of_ne hne).mpr hmem)
    · exact .inr (hholder.trans hheld)
  · exact hholder.trans (h.granted other hother)

end Actions

section Calls

variable {s : System n} {q : List (Fin n)} {co : Fin n}

theorem acquire_stands (h : Sound s q) (hholder : s.mutex.holder ≠ some co) (hwaits : co ∉ q) :
    ∃ s', exec s (.acquire co) = some s' ∧ Stands s' ((⟨s.mutex.holder, q⟩ : Line n).join co) := by
  by_cases hfree : s.mutex.holder = none
  · have hcall : mutexAcquire s.mutex co = some (true, s.mutex.take co) := if_pos hfree
    rw [exec, hcall]
    exact ⟨_, rfl, h.take hfree co⟩
  · obtain ⟨owner, howner⟩ := Option.ne_none_iff_exists'.mp hfree
    have hne : co ≠ owner := by
      rintro rfl
      exact hholder howner
    obtain ⟨m', henqueue, hstands⟩ := h.enqueue howner hne hwaits
    have hcall : mutexAcquire s.mutex co = some (false, m') := by
      rw [mutexAcquire, if_neg hfree, henqueue]
      rfl
    rw [exec, hcall]
    refine ⟨_, rfl, hstands _ fun other hother => ?_⟩
    by_cases heq : other = co
    · exact .inl heq
    · rw [Function.update_of_ne heq] at hother
      exact .inr hother

theorem resume_stands (h : Sound s q) :
    ∃ s', exec s (.resume co) = some s' ∧ Stands s' ⟨s.mutex.holder, q⟩ := by
  by_cases hheld : s.mutex.holder = some co
  · have hcall : mutexResume s.mutex co =
        (true, { s.mutex with acquireCount := s.mutex.acquireCount + 1 }) :=
      if_pos hheld
    rw [exec, hcall]
    refine ⟨_, rfl, ⟨⟨h.queued.represents, h.queued.holder, h.queued.free⟩,
      fun other hother => ?_, fun other hother => ?_⟩, rfl⟩
    · by_cases heq : other = co
      · rw [heq]
        exact .inr hheld
      · simp only [if_true, Function.update_of_ne heq] at hother
        exact h.inside other hother
    · by_cases heq : other = co
      · rw [heq]
        exact hheld
      · simp only [if_true, Function.update_of_ne heq] at hother
        exact h.granted other hother
  · have hcall : mutexResume s.mutex co = (false, s.mutex) := if_neg hheld
    rw [exec, hcall]
    exact ⟨_, rfl, h, rfl⟩

theorem acquireQueued_stands (h : Sound s q) : ∃ s', exec s (.acquireQueued co) = some s' ∧
      Stands s' ((⟨s.mutex.holder, q⟩ : Line n).step (.acquireQueued co)) := by
  rw [Line.step]
  have hwalk := isQueued_eq (h.queued.represents.path ()) h.queued.length_le co
  cases howner : s.mutex.holder with
  | none =>
    have hcall : mutexAcquireQueued s.mutex co = some (0, s.mutex.take co) := if_pos howner
    rw [exec, hcall, h.queued.free howner, if_neg (by simp)]
    exact ⟨_, rfl, howner ▸ h.queued.free howner ▸ h.take howner co⟩
  | some owner =>
    by_cases heq : owner = co
    · -- the mutex was handed over before the call was issued again
      subst heq
      have hcall : mutexAcquireQueued s.mutex owner = some (0, s.mutex) := by
        rw [mutexAcquireQueued, howner, if_neg nofun, if_pos rfl]
      rw [exec, hcall, if_pos (.inl rfl)]
      refine ⟨_, rfl, ⟨h.queued, h.inside, fun other hother => ?_⟩, howner⟩
      by_cases hother' : other = owner
      · rw [hother']
        exact howner
      · simp only [if_true, Function.update_of_ne hother'] at hother
        exact h.granted other hother
    · by_cases hwaits : co ∈ q
      · have hcall : mutexAcquireQueued s.mutex co = some (1, s.mutex) := by
          rw [mutexAcquireQueued, howner, if_neg nofun, if_neg (by simpa),
            hwalk, decide_eq_true hwaits]
        rw [exec, hcall, if_pos (.inr hwaits)]
        exact ⟨_, rfl, h, howner⟩
      · obtain ⟨m', henqueue, hstands⟩ := h.enqueue howner (Ne.symm heq) hwaits
        have hcall : mutexAcquireQueued s.mutex co = some (1, m') := by
          rw [mutexAcquireQueued, howner, if_neg nofun, if_neg (by simpa),
            hwalk, decide_eq_false hwaits, henqueue]
          rfl
        rw [exec, hcall, if_neg (by simp [heq, hwaits])]
        exact ⟨_, rfl, howner ▸ hstands s.inside fun _ => .inr⟩

theorem tryAcquire_stands (h : Sound s q) : ∃ s', exec s (.tryAcquire co) = some s' ∧
      Stands s' ((⟨s.mutex.holder, q⟩ : Line n).step (.tryAcquire co)) := by
  rw [Line.step]
  by_cases hfree : s.mutex.holder = none
  · have hcall : mutexTryAcquire s.mutex co = (true, s.mutex.take co) := if_neg (not_not.mpr hfree)
    rw [exec, hcall, if_pos hfree]
    exact ⟨_, rfl, h.take hfree co⟩
  · have hcall : mutexTryAcquire s.mutex co = (false, s.mutex) := if_pos hfree
    rw [exec, hcall, if_neg hfree]
    exact ⟨_, rfl, h, rfl⟩

theorem release_stands (h : Sound s q) (hinside : s.inside co = false) :
    ∃ s', exec s (.release co) = some s' ∧
      Stands s' ((⟨s.mutex.holder, q⟩ : Line n).step (.release co)) := by
  rw [Line.step]
  by_cases hheld : s.mutex.holder = some co
  · have hcall : mutexRelease s.mutex co = (0, s.mutex.handOver) := if_neg (not_not.mpr hheld)
    rw [exec, hcall, if_pos hheld]
    refine ⟨_, rfl, h.pass hheld fun other hother => ⟨?_, hother⟩⟩
    rintro rfl
    cases hinside.symm.trans hother
  · have hcall : mutexRelease s.mutex co = (-1, s.mutex) := if_pos hheld
    rw [exec, hcall, if_neg hheld]
    exact ⟨_, rfl, h, rfl⟩

theorem recover_stands (h : Sound s q) : ∃ s', exec s (.recover co) = some s' ∧
      Stands s' ((⟨s.mutex.holder, q⟩ : Line n).step (.recover co)) := by
  let left : System n :=
    { mutex := mutexReleaseIfHolder s.mutex co
      inside := Function.update s.inside co false
      granted := Function.update s.granted co false }
  have hinside : ∀ other, left.inside other = true → other ≠ co ∧ s.inside other = true := by
    intro other hother
    have hne : other ≠ co := by
      rintro rfl
      cases (Function.update_self ..).symm.trans hother
    exact ⟨hne, (Function.update_of_ne hne ..).symm.trans hother⟩
  -- the mutex is passed on first; then the coroutine leaves the queue
  have hleft : Stands left (if s.mutex.holder = some co then (⟨s.mutex.holder, q⟩ : Line n).pass
          else ⟨s.mutex.holder, q⟩) ∧
      left.mutex.holder ≠ some co := by
    by_cases hheld : s.mutex.holder = some co
    · have hmutex : mutexReleaseIfHolder s.mutex co = s.mutex.handOver := if_neg (not_not.mpr hheld)
      have hpass := h.pass hheld hinside
      rw [← hmutex] at hpass
      rw [if_pos hheld]
      refine ⟨hpass, fun hagain => ?_⟩
      exact h.queued.holder co hheld (List.mem_of_head? (hpass.2.symm.trans hagain))
    · have hmutex : mutexReleaseIfHolder s.mutex co = s.mutex := if_pos hheld
      rw [if_neg hheld]
      refine ⟨⟨⟨hmutex ▸ h.queued, fun other hother => ?_, fun other hother => ?_⟩,
        congrArg Mutex.holder hmutex⟩, fun hagain => hheld ?_⟩
      · show other ∈ q ∨ (mutexReleaseIfHolder s.mutex co).holder = some other
        rw [hmutex]
        exact h.inside other (hinside other hother).2
      · have hne : other ≠ co := by
          rintro rfl
          cases (Function.update_self ..).symm.trans hother
        show (mutexReleaseIfHolder s.mutex co).holder = some other
        rw [hmutex]
        exact h.granted other ((Function.update_of_ne hne ..).symm.trans hother)
      · exact (congrArg Mutex.holder hmutex).symm.trans hagain
  obtain ⟨m', hremoved, hstands⟩ := hleft.1.1.remove hleft.2 (Function.update_self ..)
  rw [Line.step, exec, hremoved]
  exact ⟨_, rfl, hleft.1.2 ▸ hstands⟩

end Calls

theorem exec_stands {s : System n} {q : List (Fin n)} (h : Sound s q)
    {a : Action n} (ha : Allowed s a) :
    ∃ s', exec s a = some s' ∧ Stands s' ((⟨s.mutex.holder, q⟩ : Line n).step a) := by
  cases a with
  | acquire => exact acquire_stands h ha.2.1 (h.queued.waiters_eq ▸ ha.2.2)
  | resume => exact resume_stands h
  | acquireQueued => exact acquireQueued_stands h
  | tryAcquire => exact tryAcquire_stands h
  | release => exact release_stands h ha
  | recover => exact recover_stands h

end WolfTrust.SleepMutex
