import WolfTrust.Coroutines
import WolfTrust.StepRuns

namespace WolfTrust.RunQueue

open LinkedQueue StepRuns Coroutines

section Unlinking

variable {Q : Queues Unit Co} {q : List Co} {before after : List Co}

end Unlinking

def Created (s : Sched) : Co → Prop
  | .bootstrap => True
  | .slot i => i.val + 1 < s.count

instance (s : Sched) (co : Co) : Decidable (Created s co) := by
  cases co <;> unfold Created <;> infer_instance

/-- What is known of the coroutines while `q` is the run queue. A preempted
coroutine is runnable and not in it. -/
structure Ready (s : Sched) (q : List Co) : Prop where
  holds : Represents s.runqueue fun _ => q
  runnable : ∀ co ∈ q, s.state co = .runnable
  proper : Co.bootstrap ∉ q
  active : s.current ≠ .bootstrap → s.state s.current = .running
  alone : ∀ co, co ≠ .bootstrap → s.state co = .running → co = s.current
  fresh : ∀ co, ¬Created s co → s.state co ≠ .runnable ∧ s.state co ≠ .running
  upright : s.state .bootstrap ≠ .blocked
  counted : 1 ≤ s.count

theorem Created.mono {s t : Sched} {co : Co} (h : Created s co)
    (hcount : s.count ≤ t.count) : Created t co := by
  cases co with
  | bootstrap => trivial
  | slot i => exact lt_of_lt_of_le (show i.val + 1 < s.count from h) hcount

section Moves

variable {s t : Sched} {q q' : List Co} {co : Co}

theorem Ready.ne_current (h : Ready s q) (hco : co ∈ q) : co ≠ s.current := by
  rintro rfl
  have hne : s.current ≠ .bootstrap := fun hboot => h.proper (hboot ▸ hco)
  have hrunning := h.active hne
  rw [h.runnable _ hco] at hrunning
  cases hrunning

theorem Ready.rest (h : Ready s q) (hholds : Represents t.runqueue fun _ => q')
    (hother : ∀ x, x ≠ co → t.state x = s.state x)
    (hmem : ∀ x ∈ q', (x ∈ q ∧ x ≠ co) ∨ (x = co ∧ t.state co = .runnable ∧ co ≠ .bootstrap))
    (hrest : t.state co ≠ .running) (hready : t.state co = .runnable → Created t co)
    (hboot : co = .bootstrap → t.state co ≠ .blocked)
    (hcurrent : t.current = if s.current = co then .bootstrap else s.current)
    (hcount : s.count ≤ t.count) : Ready t q' where
  holds := hholds
  runnable x hx := by
    rcases hmem x hx with ⟨hq, hne⟩ | ⟨rfl, hstate, -⟩
    · rw [hother x hne]
      exact h.runnable x hq
    · exact hstate
  proper hmember := by
    rcases hmem _ hmember with ⟨hq, -⟩ | ⟨rfl, -, hne⟩
    · exact h.proper hq
    · exact hne rfl
  active hne := by
    rw [hcurrent] at hne ⊢
    split at hne
    · exact absurd rfl hne
    · rename_i hco
      rw [if_neg hco, hother _ hco]
      exact h.active hne
  alone x hx hrunning := by
    have hne : x ≠ co := by
      rintro rfl
      exact hrest hrunning
    rw [hother x hne] at hrunning
    obtain rfl := h.alone x hx hrunning
    rw [hcurrent, if_neg hne]
  fresh x hx := by
    by_cases hne : x = co
    · subst hne
      exact ⟨fun hrunnable => hx (hready hrunnable), hrest⟩
    · rw [hother x hne]
      exact h.fresh x fun hcreated => hx (hcreated.mono hcount)
  upright := by
    by_cases hne : Co.bootstrap = co
    · subst hne
      exact hboot rfl
    · rw [hother _ hne]
      exact h.upright
  counted := h.counted.trans hcount

theorem Ready.enter (h : Ready s q) (hidle : s.current = .bootstrap) (hco : co ≠ .bootstrap)
    (hrunnable : s.state co = .runnable) (hholds : Represents t.runqueue fun _ => q')
    (hother : ∀ x, x ≠ co → t.state x = s.state x) (hmem : ∀ x ∈ q', x ∈ q ∧ x ≠ co)
    (hrunning : t.state co = .running) (hcurrent : t.current = co) (hcount : t.count = s.count) :
    Ready t q' where
  holds := hholds
  runnable x hx := by
    rw [hother x (hmem x hx).2]
    exact h.runnable x (hmem x hx).1
  proper hmember := h.proper (hmem _ hmember).1
  active _ := hcurrent ▸ hrunning
  alone x hx hstate := by
    rw [hcurrent]
    by_contra hne
    rw [hother x hne] at hstate
    exact hx ((h.alone x hx hstate).trans hidle)
  fresh x hx := by
    have hfresh : ¬Created s x := fun hcreated => hx (hcreated.mono hcount.ge)
    have hne : x ≠ co := by
      rintro rfl
      exact (h.fresh x hfresh).1 hrunnable
    rw [hother x hne]
    exact h.fresh x hfresh
  upright := by
    rw [hother _ (Ne.symm hco)]
    exact h.upright
  counted := hcount ▸ h.counted

theorem Ready.congr (h : Ready s q) (hqueue : t.runqueue = s.runqueue)
    (hstate : ∀ x, t.state x = s.state x) (hcurrent : t.current = s.current)
    (hcount : t.count = s.count) : Ready t q where
  holds := hqueue ▸ h.holds
  runnable x hx := (hstate x).trans (h.runnable x hx)
  proper := h.proper
  active := by
    rw [hcurrent, hstate]
    exact h.active
  alone x hx hrunning := by
    rw [hcurrent]
    exact h.alone x hx ((hstate x).symm.trans hrunning)
  fresh x hx := by
    rw [hstate]
    exact h.fresh x fun hcreated => hx (hcreated.mono hcount.ge)
  upright := by
    rw [hstate]
    exact h.upright
  counted := hcount ▸ h.counted

end Moves

section Operations

variable {s : Sched} {q : List Co} {co : Co}

theorem enqueue_represents {Q : Queues Unit Co} (h : Represents Q fun _ => q) (hco : co ∉ q) :
    Represents ((Q.detach co).push () co) fun _ => q ++ [co] := by
  have hlink : (Q.detach co).next co = none := by simp [Queues.detach]
  have hpush : Represents ((Q.detach co).push () co) _ :=
    (h.detach fun _ => hco).push (fun _ => hco) hlink
  rwa [update_unit] at hpush

theorem Ready.enqueue (h : Ready s q) {t : Sched} (hco : co ≠ .bootstrap)
    (hidle : s.state co ≠ .runnable) (hcurrent : s.current ≠ co)
    (hqueue : t.runqueue = s.runqueue ∨ t.runqueue = s.runqueue.detach co)
    (hstate : ∀ x, t.state x = if x = co then .runnable else s.state x)
    (hsame : t.current = s.current) (hcount : s.count ≤ t.count) (hcreated : Created t co) :
    ∃ t', runqueueEnqueue t co = some t' ∧ Ready t' (q ++ [co]) := by
  have hfree : co ∉ q := fun hmem => hidle (h.runnable co hmem)
  have hrunnable : t.state co = .runnable := (hstate co).trans (if_pos rfl)
  have hholds : Represents t.runqueue fun _ => q := by
    rcases hqueue with hqueue | hqueue
    · exact hqueue ▸ h.holds
    · exact hqueue ▸ h.holds.detach fun _ => hfree
  refine ⟨_, if_neg hco, h.rest (enqueue_represents hholds hfree) (fun x hx => ?_)
    (fun x hx => ?_) ?_ (fun _ => hcreated) (fun hboot => absurd hboot hco) ?_ hcount⟩
  · exact (hstate x).trans (if_neg hx)
  · rcases List.mem_append.mp hx with hx | hx
    · exact .inl ⟨hx, fun hxco => hfree (hxco ▸ hx)⟩
    · exact .inr ⟨List.mem_singleton.mp hx, hrunnable, hco⟩
  · change t.state co ≠ .running
    rw [hrunnable]
    nofun
  · rw [if_neg hcurrent]
    exact hsame

end Operations

/-- A caller wakes only what `wt_co_create` handed out. The table holds entries
that were not, and `wt_co_wake` would take one of them for a blocked coroutine. -/
def Held (s : Sched) : Op → Prop
  | .wake (some co) => Created s co
  | _ => True

instance (s : Sched) (a : Op) : Decidable (Held s a) := by
  unfold Held
  split <;> infer_instance

def restartedBy : Op → Option Co
  | .reinit _ co => co
  | _ => none

section Runs

variable {s : Sched} {q : List Co} {a : Op}

theorem Ready.unique {q' : List Co} (h : Ready s q) (h' : Ready s q') : q = q' :=
  (h.holds.path ()).unique (h'.holds.path ())

/-- In one of the states of a run the coroutine was entered, was faulted or was
started again. -/
def Taken (s : Sched) (ops : List Op) (co : Co) : Prop :=
  ∃ n ≤ ops.length, (stateAt step s ops n).current = co ∨
    (stateAt step s ops n).state co = .faulted ∨
    ∃ a, ops[n]? = some a ∧ restartedBy a = some co

theorem Taken.cons {co : Co} {rest : List Op} (h : Taken (step s a) rest co) :
    Taken s (a :: rest) co := by
  obtain ⟨n, hn, htaken⟩ := h
  exact ⟨n + 1, Nat.succ_le_succ hn, htaken⟩

/-- The list that the links of the run queue make, and the coroutines on it. -/
structure Sound (s : Sched) (q : List Co) : Prop where
  linked : Path s.runqueue.next (s.runqueue.head ()) q
  nodup : q.Nodup
  tail : s.runqueue.tail () = q.getLast?
  empty : s.runqueue.tail () = none ↔ q = []
  members : ∀ co ∈ q, s.state co = .runnable ∧ s.state co ≠ .blocked ∧
    s.state co ≠ .faulted ∧ co ≠ .bootstrap ∧ co ≠ s.current
  single : ∀ co other, co ≠ .bootstrap → other ≠ .bootstrap →
    s.state co = .running → s.state other = .running → co = other

theorem Ready.sound (h : Ready s q) : Sound s q where
  linked := h.holds.path ()
  nodup := h.holds.nodup ()
  tail := h.holds.tail ()
  empty := by rw [h.holds.tail (), List.getLast?_eq_none_iff]
  members co hco := by
    have hrunnable := h.runnable co hco
    refine ⟨hrunnable, ?_, ?_, fun hboot => h.proper (hboot ▸ hco), h.ne_current hco⟩
    all_goals
      rw [hrunnable]
      nofun
  single co other hco hother hrunning hrunning' :=
    (h.alone co hco hrunning).trans (h.alone other hother hrunning').symm

end Runs

def sampleRequest : CreateRequest :=
  { entry := true, stack := some 0x30000000, stackSize := 16384, privStackOk := true }

/-- Three coroutines: the first is entered and preempted, the second is woken,
the third faults on the queue. -/
def sampleOps : List Op :=
  [.create sampleRequest, .createBlocked sampleRequest, .create sampleRequest,
    .tick 2, .wake (some (.slot ⟨1, by decide⟩)), .preempt,
    .wake (some (.slot ⟨0, by decide⟩)), .markFaulted (some (.slot ⟨2, by decide⟩)),
    .wake (some (.slot ⟨2, by decide⟩))]

end WolfTrust.RunQueue
