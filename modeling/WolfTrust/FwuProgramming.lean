import WolfTrust.FwuStateMachine

namespace WolfTrust.FwuProgramming

open WolfTrust.FfmRuntime (psaSuccess psaErrorInvalidArgument)
open StepRuns FwuService FwuClient FwuEffects FwuStateMachine

def roundUp (size unit : Nat) : Nat := (size + unit - 1) / unit * unit

section Trace

variable {β : Type}

/-- A write that reached the backend, and whether it succeeded. -/
structure Write where
  offset : UInt32
  data : Bytes
  ok : Bool
  deriving DecidableEq, Repr

end Trace

/-- The writes follow one another from `first` to `last`. -/
def Tiles : Nat → List Write → Nat → Prop
  | first, [], last => first = last
  | first, write :: rest, last =>
    write.offset.toNat = first ∧ Tiles (first + write.data.length) rest last

theorem Tiles.le {first last : Nat} {writes : List Write}
    (h : Tiles first writes last) : first ≤ last := by
  induction writes generalizing first with
  | nil => exact Nat.le_of_eq h
  | cons write rest ih =>
    have hrest := ih h.2
    omega

theorem Tiles.covers {first last : Nat} {writes : List Write}
    (h : Tiles first writes last) (x : Nat) :
    (∃ write ∈ writes, write.offset.toNat ≤ x ∧
        x < write.offset.toNat + write.data.length) ↔ first ≤ x ∧ x < last := by
  induction writes generalizing first with
  | nil =>
    have heq : first = last := h
    simp only [List.not_mem_nil, false_and, exists_false, false_iff]
    omega
  | cons write rest ih =>
    have hle := h.2.le
    simp only [List.mem_cons, exists_eq_or_imp]
    rw [ih h.2, h.1]
    omega

section Programs

variable {β : Type} {backend : Backend β} {offset : UInt32} {data : Bytes} {whole : UInt32}

/-- Where a block that is accepted lies, and where its last incomplete unit
begins. -/
structure Placed (backend : Backend β) (offset : UInt32) (data : Bytes)
    (whole : UInt32) : Prop where
  aligned : backend.granularity.toNat ∣ offset.toNat
  whole_aligned : backend.granularity.toNat ∣ whole.toNat
  whole_le : whole.toNat ≤ data.length
  rest_lt : data.length < whole.toNat + backend.granularity.toNat
  inside : offset.toNat + roundUp data.length backend.granularity.toNat ≤ backend.capacity.toNat

/-- The writes of a block that was programmed: they succeed, they are made of
whole units, they follow one another over exactly the block rounded up, and they
carry the block and erased bytes behind it. -/
structure Programs (unit capacity offset : Nat) (data : Bytes)
    (writes : List Write) : Prop where
  ok : ∀ write ∈ writes, write.ok = true
  aligned : ∀ write ∈ writes, unit ∣ write.offset.toNat ∧ unit ∣ write.data.length
  tiles : Tiles offset writes (offset + roundUp data.length unit)
  inside : offset + roundUp data.length unit ≤ capacity
  contents : writes.flatMap Write.data =
    data ++ List.replicate (roundUp data.length unit - data.length) 0xFF

/-- What the writes of a block come to: none, a block that is programmed, or a
write that failed, and none after it. -/
inductive Outcome (unit capacity offset : Nat) (data : Bytes) :
    Int → List Write → Prop
  | refused : Outcome unit capacity offset data psaErrorInvalidArgument []
  | programmed {writes : List Write}
      (h : Programs unit capacity offset data writes) :
      Outcome unit capacity offset data psaSuccess writes
  | failed {earlier : List Write} {last : Write}
      (hearlier : ∀ write ∈ earlier, write.ok = true) (hlast : last.ok = false) :
      Outcome unit capacity offset data psaErrorStorageFailure (earlier ++ [last])

variable {write : UInt32 → Bytes → β → Bool × β}

end Programs

section Sessions

variable {β : Type} {links : Links β} {backend : Backend β}
  {s after : Service (β × Record)}

/-- A session is under way that may still be armed. -/
def Open (ctx : Context) : Prop := ctx.state = .writing ∨ ctx.state = .candidate

/-- A session was started, after the staging area was prepared for it. -/
def Reopened (backend : Backend β) (events : Record) : Prop :=
  ∃ later declared earlier, events = later ++ .started declared :: earlier ∧
    (backend.begin.isSome → earlier.head? = some .began)

theorem Reopened.append {events : Record} (h : Reopened backend events)
    (newer : Record) : Reopened backend (newer ++ events) := by
  obtain ⟨later, declared, earlier, rfl, hbegan⟩ := h
  exact ⟨newer ++ later, declared, earlier, by simp, hbegan⟩

/-- Every arming in these events comes after a start in them. -/
def Fenced (backend : Backend β) (events : Record) : Prop :=
  ∀ later size version earlier,
    events = later ++ .armed size version :: earlier → Reopened backend earlier

/-- What holds from the end of a session on, with the events since. -/
def Since (backend : Backend β) (old : Record) (s : Service (β × Record)) : Prop :=
  ∃ new, s.store.2 = new ++ old ∧ Fenced backend new ∧ (Open s.ctx → Reopened backend new)

end Sessions

section Write

variable {β : Type} {links : Links β} {backend : Backend β} {data : Bytes}

/-- The context that a block of this status, ending at `finish`, leaves. -/
def written (ctx : Context) (status : Int) (finish : UInt32) : Context :=
  if status = psaErrorStorageFailure then ctx.fail psaErrorStorageFailure
  else if status = psaSuccess ∧ ctx.writeHigh < finish then
    { ctx with writeHigh := finish }
  else ctx

end Write

def sampleBlock : Bytes := List.replicate 20 1

end WolfTrust.FwuProgramming
