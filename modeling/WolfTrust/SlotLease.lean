import Mathlib.Data.List.Basic

/-!
Leases on the slots of a reused pool, over any type of recorded events. A slot
is granted at most once in each of its allocations; the grant is held until the
slot is spent or renewed. If every move of the slot is recorded, then whatever
is held was granted in the current allocation and not revoked since; and if
nothing is taken away without a revocation, what was granted and not revoked is
still held. And a mark on a slot can be lost only when the slot is renewed.
-/

namespace WolfTrust.SlotLease

variable {ε : Type*}

/-- Histories have the newest event first. Since every occurrence of `e`, no
`bad` event was recorded. -/
def Since (history : List ε) (e : ε) (bad : ε → Prop) : Prop :=
  ∀ later earlier, history = later ++ e :: earlier → ∀ x ∈ later, ¬bad x

section Since

variable {history events : List ε} {e : ε} {bad : ε → Prop}

theorem Since.of_append (h : Since (events ++ history) e bad) : Since history e bad := by
  intro later earlier hsplit x hx
  refine h (events ++ later) earlier ?_ x (List.mem_append_right _ hx)
  rw [hsplit, List.append_assoc]

theorem Since.not_bad (h : Since (events ++ history) e bad)
    (he : e ∈ history) {x : ε} (hx : x ∈ events) : ¬bad x := by
  obtain ⟨later, earlier, rfl⟩ := List.append_of_mem he
  refine h (events ++ later) earlier ?_ x (List.mem_append_left _ hx)
  rw [List.append_assoc]

theorem Since.append (h : Since history e bad) (hevents : ∀ x ∈ events, x ≠ e ∧ ¬bad x) :
    Since (events ++ history) e bad := by
  intro later earlier hsplit x hx
  rcases List.append_eq_append_iff.mp hsplit with
    ⟨middle, rfl, hhistory⟩ | ⟨middle, rfl, hmiddle⟩
  · rcases List.mem_append.mp hx with hx | hx
    · exact (hevents x hx).2
    · exact h middle earlier hhistory x hx
  · -- The occurrence would be among the new events.
    rcases middle with _ | ⟨y, middle⟩
    · rw [List.append_nil] at hevents
      exact (hevents x hx).2
    · obtain rfl := (List.cons.inj hmiddle).1
      exact absurd rfl (hevents e (by simp)).1

theorem Since.first (he : e ∉ history) : Since (e :: history) e bad := by
  intro later earlier hsplit x hx
  rcases later with _ | ⟨y, later⟩
  · cases hx
  · obtain ⟨-, rfl⟩ := List.cons.inj hsplit
    exact absurd (by simp) he

/-- What comes after `e` comes with no `bad` event since. -/
theorem Since.of_precedes (h : Since history e bad) {e' : ε}
    (hprecedes : ∀ later earlier, history = later ++ e' :: earlier →
      e ∈ earlier) : Since history e' bad := by
  intro later earlier hsplit x hx
  obtain ⟨middle, first, rfl⟩ :=
    List.append_of_mem (hprecedes later earlier hsplit)
  refine h (later ++ e' :: middle) first ?_ x (List.mem_append_left _ hx)
  rw [hsplit, List.append_assoc, List.cons_append]

end Since

/-- Whether the current allocation of a slot may still be granted, is granted by
an event, or is used up. -/
inductive Phase (ε : Type*)
  | fresh
  | held (grant : ε)
  | spent

structure Lease (ε : Type*) where
  allocation : Nat
  phase : Phase ε

section Moves

variable (grants : ε → Option Nat) (lawful : ε → Prop) (revokes : ε → ε → Prop)

/-- One move of a slot, with the events it records. An event `grants` the slot
in one allocation, and only `lawful` events do; an event that `revokes` a grant
is never recorded while the grant stays. -/
inductive Move (lease : Lease ε) : Lease ε → List ε → Prop
  | stay (events : List ε) (hquiet : ∀ e ∈ events, grants e = none)
      (hheld : ∀ g, lease.phase = .held g → ∀ e ∈ events, ¬revokes g e) :
      Move lease lease events
  | grant (g : ε) (hfresh : lease.phase = .fresh)
      (hg : grants g = some lease.allocation) (hlawful : lawful g) :
      Move lease { lease with phase := .held g } [g]
  | spend (events : List ε) (hquiet : ∀ e ∈ events, grants e = none) :
      Move lease { lease with phase := .spent } events
  | renew (events : List ε) (hquiet : ∀ e ∈ events, grants e = none) :
      Move lease { allocation := lease.allocation + 1, phase := .fresh } events

/-- The history accounts for what the slot holds. -/
structure Recorded (lease : Lease ε) (history : List ε) : Prop where
  past : ∀ e ∈ history, ∀ a, grants e = some a → a ≤ lease.allocation ∧ lawful e
  fresh : lease.phase = .fresh → ∀ e ∈ history, grants e ≠ some lease.allocation
  granted : ∀ g, lease.phase = .held g → g ∈ history ∧ grants g = some lease.allocation
  unique : ∀ g, lease.phase = .held g → ∀ e ∈ history, grants e = some lease.allocation → e = g
  since : ∀ g, lease.phase = .held g → Since history g (revokes g)

/-- What was granted and not revoked is held. -/
def Lasting (lease : Lease ε) (history : List ε) : Prop :=
  ∀ g a, g ∈ history → grants g = some a → Since history g (revokes g) →
    lease.phase = .held g ∧ a = lease.allocation

end Moves

section Preserved

variable {grants : ε → Option Nat} {lawful : ε → Prop}
  {revokes : ε → ε → Prop} {lease lease' : Lease ε} {history events : List ε}

theorem Recorded.nil (hphase : ∀ g, lease.phase ≠ .held g) :
    Recorded grants lawful revokes lease [] := by
  refine ⟨fun e he => ?_, fun _ e he => ?_, fun g hg => absurd hg (hphase g),
    fun g hg => absurd hg (hphase g), fun g hg => absurd hg (hphase g)⟩
  · cases he
  · cases he

theorem Lasting.nil : Lasting grants revokes lease [] := by
  intro g a hg
  cases hg

/-- Grants in the history are not newer than the allocation. -/
theorem Recorded.past_append (h : Recorded grants lawful revokes lease history)
    (hquiet : ∀ e ∈ events, grants e = none) {e : ε} (he : e ∈ events ++ history) {a : Nat}
    (ha : grants e = some a) : e ∈ history ∧ a ≤ lease.allocation ∧ lawful e := by
  rcases List.mem_append.mp he with he | he
  · rw [hquiet e he] at ha
    cases ha
  · exact ⟨he, h.past e he a ha⟩

theorem Move.recorded (hmove : Move grants lawful revokes lease lease' events)
    (h : Recorded grants lawful revokes lease history) :
    Recorded grants lawful revokes lease' (events ++ history) := by
  cases hmove with
  | stay _ hquiet hheld =>
    refine ⟨fun e he a ha => (h.past_append hquiet he ha).2,
      fun hfresh e he ha => h.fresh hfresh e (h.past_append hquiet he ha).1 ha,
      fun g hg => ?_, fun g hg e he ha => ?_, fun g hg => ?_⟩
    · obtain ⟨hmem, hgrant⟩ := h.granted g hg
      exact ⟨List.mem_append_right _ hmem, hgrant⟩
    · exact h.unique g hg e (h.past_append hquiet he ha).1 ha
    · refine (h.since g hg).append fun x hx => ⟨?_, hheld g hg x hx⟩
      rintro rfl
      obtain ⟨-, hgrant⟩ := h.granted x hg
      rw [hquiet x hx] at hgrant
      cases hgrant
  | grant g hfresh hg hlawful =>
    have hnew : g ∉ history := fun hmem => h.fresh hfresh g hmem hg
    refine ⟨fun e he a ha => ?_, fun hphase => (by cases hphase),
      fun g' hg' => ?_, fun g' hg' e he ha => ?_, fun g' hg' => ?_⟩
    · rcases List.mem_cons.mp he with rfl | he
      · rw [hg] at ha
        exact ⟨Nat.le_of_eq (Option.some.inj ha).symm, hlawful⟩
      · exact h.past e he a ha
    · cases hg'
      exact ⟨by simp, hg⟩
    · cases hg'
      rcases List.mem_cons.mp he with rfl | he
      · rfl
      · exact absurd ha (h.fresh hfresh e he)
    · cases hg'
      exact .first hnew
  | spend _ hquiet =>
    exact ⟨fun e he a ha => (h.past_append hquiet he ha).2,
      fun hphase => (by cases hphase), fun g hg => (by cases hg),
      fun g hg => (by cases hg), fun g hg => (by cases hg)⟩
  | renew _ hquiet =>
    refine ⟨fun e he a ha => ?_, fun _ e he ha => ?_,
      fun g hg => (by cases hg), fun g hg => (by cases hg),
      fun g hg => (by cases hg)⟩
    · obtain ⟨-, hpast, hlawful⟩ := h.past_append hquiet he ha
      exact ⟨Nat.le_succ_of_le hpast, hlawful⟩
    · have hpast := (h.past_append hquiet he ha).2.1
      change lease.allocation + 1 ≤ lease.allocation at hpast
      omega

/-- A move that takes nothing away without a revocation keeps what was
granted. -/
theorem Move.lasting (hmove : Move grants lawful revokes lease lease' events)
    (h : Recorded grants lawful revokes lease history)
    (hlasting : Lasting grants revokes lease history)
    (hdrop : ∀ g, lease.phase = .held g → lease' = lease ∨ ∃ e ∈ events, revokes g e) :
    Lasting grants revokes lease' (events ++ history) := by
  have hold {g : ε} {a : Nat} (hg : g ∈ history) (ha : grants g = some a)
      (hsince : Since (events ++ history) g (revokes g)) :
      lease'.phase = .held g ∧ a = lease'.allocation := by
    obtain ⟨hphase, halloc⟩ := hlasting g a hg ha hsince.of_append
    rcases hdrop g hphase with rfl | ⟨e, he, hrevokes⟩
    · exact ⟨hphase, halloc⟩
    · exact absurd hrevokes (hsince.not_bad hg he)
  intro g a hmem ha hsince
  cases hmove with
  | stay _ hquiet => exact hold (h.past_append hquiet hmem ha).1 ha hsince
  | grant g' hfresh hg' =>
    rcases List.mem_cons.mp hmem with rfl | hmem
    · exact ⟨rfl, Option.some.inj (ha.symm.trans hg')⟩
    · exact hold hmem ha hsince
  | spend _ hquiet => exact hold (h.past_append hquiet hmem ha).1 ha hsince
  | renew _ hquiet => exact hold (h.past_append hquiet hmem ha).1 ha hsince

end Preserved

end WolfTrust.SlotLease
