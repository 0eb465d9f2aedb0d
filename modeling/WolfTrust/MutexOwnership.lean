import Mathlib.Data.List.Sublists
import WolfTrust.SleepMutex

namespace WolfTrust.MutexOwnership

open LinkedQueue SleepMutex StepRuns

variable {n : Nat}

section Line

variable {l : Line n} {first second : Fin n}

theorem join_keeps_order (h : [first, second].Sublist l.queue) (co : Fin n) :
    [first, second].Sublist (l.join co).queue := by
  unfold Line.join
  split_ifs
  · exact h
  · exact h.trans (List.sublist_append_left _ _)

theorem pass_keeps_order (h : [first, second].Sublist l.queue) :
    [first, second].Sublist l.pass.queue ∨ l.pass.holder = some first := by
  obtain ⟨holder, queue⟩ := l
  cases h with
  | cons _ hrest => exact .inl hrest
  | cons_cons => exact .inr rfl

theorem step_keeps_order (h : [first, second].Sublist l.queue) {a : Action n}
    (hfirst : a ≠ .recover first) (hsecond : a ≠ .recover second) :
    [first, second].Sublist (l.step a).queue ∨ (l.step a).holder = some first := by
  cases a with
  | acquire co => exact .inl (join_keeps_order h co)
  | resume => exact .inl h
  | acquireQueued co =>
    rw [Line.step]
    split_ifs
    · exact .inl h
    · exact .inl (join_keeps_order h co)
  | tryAcquire co =>
    rw [Line.step]
    split_ifs
    · exact .inl (join_keeps_order h co)
    · exact .inl h
  | release =>
    rw [Line.step]
    split_ifs
    · exact pass_keeps_order h
    · exact .inl h
  | recover co =>
    have hpair : [first, second].erase co = [first, second] := by
      refine List.erase_of_not_mem fun hmem => ?_
      rcases List.mem_pair.mp hmem with rfl | rfl
      · exact hfirst rfl
      · exact hsecond rfl
    have hleft : [first, second].Sublist (if l.holder = some co then l.pass else l).queue ∨
        (if l.holder = some co then l.pass else l).holder = some first := by
      split_ifs
      · exact pass_keeps_order h
      · exact .inl h
    exact hleft.imp (fun hq => hpair ▸ hq.erase co) id

/-- A coroutine waits for the mutex or has it. -/
def Participates (l : Line n) (co : Fin n) : Prop :=
  co ∈ l.queue ∨ l.holder = some co

/-- A coroutine that was recovered has left the mutex; everyone else waits on, or
has it. -/
structure Recovered (l l' : Line n) (co : Fin n) : Prop where
  left : ¬Participates l' co
  others : ∀ other, other ≠ co → (Participates l' other ↔ Participates l other)

theorem pass_recovered {co : Fin n} (hholder : l.holder = some co)
    (hco : co ∉ l.queue) : Recovered l l.pass co := by
  obtain ⟨holder, queue⟩ := l
  subst hholder
  cases queue with
  | nil =>
    refine ⟨?_, fun other hne => ?_⟩
    · simp [Participates, Line.pass]
    · simp [Participates, Line.pass, Ne.symm hne]
  | cons =>
    have hco := not_or.mp (mt List.mem_cons.mpr hco)
    refine ⟨?_, fun other hne => ?_⟩
    · simp [Participates, Line.pass, hco.2, Ne.symm hco.1]
    · simp [Participates, Line.pass, Ne.symm hne, or_comm, eq_comm]

theorem recover_recovered (hnodup : l.queue.Nodup)
    (hholder : ∀ co, l.holder = some co → co ∉ l.queue) (co : Fin n) :
    Recovered l (l.step (.recover co)) co := by
  rw [Line.step]
  by_cases hheld : l.holder = some co
  · have hpass := pass_recovered hheld (hholder co hheld)
    have herase : l.pass.queue.erase co = l.pass.queue :=
      List.erase_of_not_mem fun hmem => hpass.left (.inl hmem)
    rw [if_pos hheld, herase]
    exact hpass
  · rw [if_neg hheld]
    refine ⟨?_, fun other hne => ?_⟩
    · rintro (hmem | hagain)
      · exact (hnodup.mem_erase_iff.mp hmem).1 rfl
      · exact hheld hagain
    · exact or_congr_left (List.mem_erase_of_ne hne)

end Line

section Runs

variable {s : System n}

theorem stands_line {l : Line n} (h : Stands s l) : s.mutex.line = l :=
  Line.ext h.2 h.1.queued.waiters_eq

theorem start_sound (next : Fin n → Option (Fin n)) :
    Sound (start next) (start next).mutex.waiters := by
  have hqueued : Queued (mutexInit next) [] :=
    ⟨⟨fun _ => rfl, fun _ => rfl, fun _ => List.nodup_nil, fun _ _ _ _ => nofun⟩,
      nofun, fun _ => rfl⟩
  have hwaiters : (start next).mutex.waiters = [] := hqueued.waiters_eq
  rw [hwaiters]
  exact ⟨hqueued, nofun, nofun⟩

theorem action_line (h : Sound s s.mutex.waiters) {a : Action n} (ha : Allowed s a) :
    exec s a = some (step s a) ∧ Sound (step s a) (step s a).mutex.waiters ∧
      (step s a).mutex.line = s.mutex.line.step a := by
  obtain ⟨s', hexec, hstands⟩ := exec_stands h ha
  have hstep : step s a = s' := by rw [step, hexec, Option.getD_some]
  have hwaiters := hstands.1.queued.waiters_eq
  rw [hstep]
  exact ⟨hexec, hwaiters.symm ▸ hstands.1, stands_line hstands⟩

theorem run_sound (h : Sound s s.mutex.waiters) {actions : List (Action n)}
    (hactions : Along step Allowed s actions) :
    Sound (run step s actions) (run step s actions).mutex.waiters :=
  run_induction (I := fun s => Sound s s.mutex.waiters)
    (fun _ _ hs ha => (action_line hs ha).2.1) h hactions

theorem first_in_line (h : Sound s s.mutex.waiters) {later : List (Action n)}
    (hlater : Along step Allowed s later) {first second : Fin n}
    (hwait : [first, second].Sublist s.mutex.waiters) (hfirst : .recover first ∉ later)
    (hsecond : .recover second ∉ later) (hholder : (run step s later).mutex.holder = some second) :
    ∃ begun, begun <+: later ∧ (run step s begun).mutex.holder = some first := by
  induction later generalizing s with
  | nil =>
    have hmem : second ∈ s.mutex.waiters := hwait.subset (by simp)
    exact absurd hmem (h.queued.holder second hholder)
  | cons a rest ih =>
    obtain ⟨-, hsound, hline⟩ := action_line h hlater.1
    have hkept := step_keeps_order (l := s.mutex.line) hwait
      (a := a) (fun heq => hfirst (heq ▸ List.mem_cons_self))
      (fun heq => hsecond (heq ▸ List.mem_cons_self))
    rw [← hline] at hkept
    rcases hkept with hwait | hnow
    · obtain ⟨begun, hbegun, hheld⟩ := ih hsound hlater.2 hwait
        (fun hmem => hfirst (List.mem_cons_of_mem a hmem))
        (fun hmem => hsecond (List.mem_cons_of_mem a hmem)) hholder
      exact ⟨a :: begun, List.cons_prefix_cons.mpr ⟨rfl, hbegun⟩, hheld⟩
    · exact ⟨[a], List.cons_prefix_cons.mpr ⟨rfl, List.nil_prefix⟩, hnow⟩

end Runs

/-- In every run the links hold a queue without duplicates whose last member is
the tail, the holder does not wait, and the mutex is free only when nobody waits.
An action that is allowed returns, and does to the links what it does to the line:
a coroutine joins at the end, and the mutex passes to the first. So of two that
wait the first has the mutex before the second does, unless one of them is
recovered; and a recovery takes out that coroutine alone. -/
theorem mutex_ownership (next : Fin n → Option (Fin n)) (actions : List (Action n))
    (hactions : Along step Allowed (start next) actions) :
    let s := run step (start next) actions
    Sound s s.mutex.waiters ∧ (∀ a, Allowed s a → exec s a = some (step s a) ∧
        (step s a).mutex.line = s.mutex.line.step a) ∧
      (∀ later, Along step Allowed s later → ∀ first second,
        [first, second].Sublist s.mutex.waiters →
        .recover first ∉ later → .recover second ∉ later →
        (run step s later).mutex.holder = some second →
        ∃ begun, begun <+: later ∧ (run step s begun).mutex.holder = some first) ∧
      ∀ co, Recovered s.mutex.line (step s (.recover co)).mutex.line co := by
  intro s
  have hsound : Sound s s.mutex.waiters := run_sound (start_sound next) hactions
  refine ⟨hsound, fun a ha => ?_, fun later hlater first second => ?_, fun co => ?_⟩
  · obtain ⟨hexec, -, hline⟩ := action_line hsound ha
    exact ⟨hexec, hline⟩
  · exact first_in_line hsound hlater
  · rw [(action_line hsound (a := .recover co) trivial).2.2]
    exact recover_recovered (hsound.queued.represents.nodup ()) hsound.queued.holder co

/-- Two coroutines queue behind a third, which then faults. -/
def sampleActions : List (Action 3) :=
  [.acquire 0, .acquireQueued 1, .acquire 2, .recover 0]

theorem mutex_ownership_sample : Along step Allowed (start fun _ => none) sampleActions ∧
      (run step (start fun _ => none) sampleActions).mutex.holder = some 1 ∧
      (run step (start fun _ => none) sampleActions).mutex.waiters = [2] ∧
      Sound (run step (start fun _ => none) sampleActions)
        (run step (start fun _ => none) sampleActions).mutex.waiters := by
  have hallowed : Along step Allowed (start fun _ => none) sampleActions := by decide +kernel
  exact ⟨hallowed, by decide +kernel, by decide +kernel,
    (mutex_ownership (fun _ => none) sampleActions hallowed).1⟩

/-- What a coroutine may do if only the holder is kept out of the blocking
acquire. -/
def Unheld (s : System n) : Action n → Prop
  | .acquire co => s.inside co = false ∧ s.mutex.holder ≠ some co
  | a => Allowed s a

instance (s : System n) : DecidablePred (Unheld s)
  | .acquire co => inferInstanceAs
      (Decidable (s.inside co = false ∧ s.mutex.holder ≠ some co))
  | .resume co => inferInstanceAs (Decidable (Allowed s (.resume co)))
  | .acquireQueued co => inferInstanceAs (Decidable (Allowed s (.acquireQueued co)))
  | .tryAcquire co => inferInstanceAs (Decidable (Allowed s (.tryAcquire co)))
  | .release co => inferInstanceAs (Decidable (Allowed s (.release co)))
  | .recover co => inferInstanceAs (Decidable (Allowed s (.recover co)))

/-- A coroutine that waits after a queued acquire enters the blocking one. -/
def twiceActions : List (Action 3) := [.acquire 0, .acquireQueued 1, .acquire 1]

/-- It is linked to itself: the links hold no queue, and the next queued acquire
does not return. -/
theorem queued_twice : Along step Unheld (start fun _ => none) twiceActions ∧
      (¬∃ q, Represents (run step (start fun _ => none) twiceActions).mutex.wait fun _ => q) ∧
      exec (run step (start fun _ => none) twiceActions) (.acquireQueued 2) =
        none := by
  refine ⟨by decide +kernel, ?_, ?_⟩
  · rintro ⟨q, hq⟩
    have hshort : q.length ≤ 3 := (hq.nodup ()).length_le_card
    have hfollow := follow_eq (hq.path ()) hshort
    have hwaiters : follow (run step (start fun _ => none) twiceActions).mutex.wait.next
        3 ((run step (start fun _ => none) twiceActions).mutex.wait.head ()) =
        [1, 1, 1] := by
      decide +kernel
    have hnodup : ([1, 1, 1] : List (Fin 3)).Nodup := hwaiters.symm.trans hfollow ▸ hq.nodup ()
    exact absurd hnodup (by decide)
  · rfl

end WolfTrust.MutexOwnership
