import Mathlib.Data.List.Basic

/-!
A flash device with its history: contents, erases and programs that may fail,
and checks that approved the contents. A failure leaves anything in the range
that was being erased or programmed and nothing elsewhere. Programming clears
bits and never sets one.
-/

namespace WolfTrust.NorFlash

abbrev Contents := Nat → UInt8

inductive Event
  | erase (offset size : Nat)
  | program (offset size : Nat)
  | approve (contents : Contents)

/-- The device and what was done to it, newest first. -/
structure Flash where
  bytes : Contents
  history : List Event

/-- What the next operation leaves in its range if it fails; `none` is a
success. It may depend on all that happened before. -/
abbrev Faults := List Event → Option Contents

def reliable : Faults := fun _ => none

def overwrite (offset size : Nat) (new old : Contents) : Contents := fun i =>
  if offset ≤ i ∧ i < offset + size then new i else old i

theorem overwrite_inside {offset size i : Nat} (new old : Contents) (h : offset ≤ i)
    (h' : i < offset + size) : overwrite offset size new old i = new i :=
  if_pos ⟨h, h'⟩

theorem overwrite_outside {offset size i : Nat} (new old : Contents)
    (h : i < offset ∨ offset + size ≤ i) : overwrite offset size new old i = old i :=
  if_neg (by omega)

/-- The outcome of an operation on a range: the bytes it is to leave there, or
those of its failure. -/
def operate (faults : Faults) (event : Event) (offset size : Nat)
    (intended : Contents) (flash : Flash) : Bool × Flash :=
  let outcome := faults flash.history
  (outcome.isNone,
    { bytes := overwrite offset size (outcome.getD intended) flash.bytes
      history := event :: flash.history })

def erase (faults : Faults) (offset size : Nat) (flash : Flash) : Bool × Flash :=
  operate faults (.erase offset size) offset size (fun _ => 0xFF) flash

def program (faults : Faults) (offset : Nat) (data : List UInt8) (flash : Flash) : Bool × Flash :=
  operate faults (.program offset data.length) offset data.length
    (fun i => flash.bytes i &&& data.getD (i - offset) 0xFF) flash

/-- Whether the device holds the data at the offset. -/
def holds (flash : Flash) (offset : Nat) : List UInt8 → Bool
  | [] => true
  | byte :: rest => flash.bytes offset == byte && holds flash (offset + 1) rest

def approve (flash : Flash) : Flash :=
  { flash with history := .approve flash.bytes :: flash.history }

def Event.Within (offset size : Nat) : Event → Prop
  | .erase first count => offset ≤ first ∧ first + count ≤ offset + size
  | .program first count => offset ≤ first ∧ first + count ≤ offset + size
  | .approve _ => False

/-- Only a range was erased or programmed. -/
structure Confined (offset size : Nat) (before after : Flash) : Prop where
  bytes : ∀ i, i < offset ∨ offset + size ≤ i → after.bytes i = before.bytes i
  history : ∃ new, after.history = new ++ before.history ∧
    ∀ event ∈ new, Event.Within offset size event

theorem Confined.refl (offset size : Nat) (flash : Flash) : Confined offset size flash flash :=
  ⟨fun _ _ => rfl, [], rfl, by simp⟩

theorem Confined.trans {offset size : Nat} {first second third : Flash}
    (h : Confined offset size first second) (h' : Confined offset size second third) :
    Confined offset size first third := by
  obtain ⟨new, hnew, hwithin⟩ := h.history
  obtain ⟨newer, hnewer, hwithin'⟩ := h'.history
  refine ⟨fun i hi => (h'.bytes i hi).trans (h.bytes i hi), newer ++ new,
    by rw [hnewer, hnew, List.append_assoc], fun event hevent => ?_⟩
  rcases List.mem_append.mp hevent with hmem | hmem
  · exact hwithin' event hmem
  · exact hwithin event hmem

theorem operate_confined {offset size first count : Nat} {event : Event}
    (hwithin : event.Within offset size) (hfirst : offset ≤ first)
    (hlast : first + count ≤ offset + size) (faults : Faults)
    (intended : Contents) (flash : Flash) :
    Confined offset size flash (operate faults event first count intended flash).2 := by
  refine ⟨fun i hi => overwrite_outside _ _ (by omega), [event], rfl, ?_⟩
  simpa using hwithin

theorem erase_confined {offset size first count : Nat} (hfirst : offset ≤ first)
    (hlast : first + count ≤ offset + size) (faults : Faults) (flash : Flash) :
    Confined offset size flash (erase faults first count flash).2 :=
  operate_confined (by exact ⟨hfirst, hlast⟩) hfirst hlast faults _ flash

variable {data : List UInt8}

theorem program_confined {offset size first : Nat} (hfirst : offset ≤ first)
    (hlast : first + data.length ≤ offset + size) (faults : Faults) (flash : Flash) :
    Confined offset size flash (program faults first data flash).2 :=
  operate_confined (by exact ⟨hfirst, hlast⟩) hfirst hlast faults _ flash

theorem erase_blank {faults : Faults} {offset size : Nat} {flash : Flash}
    (h : (erase faults offset size flash).1 = true) {i : Nat} (hi : offset ≤ i)
    (hi' : i < offset + size) : (erase faults offset size flash).2.bytes i = 0xFF := by
  have hnone : faults flash.history = none := Option.isNone_iff_eq_none.mp h
  simp only [erase, operate, hnone, Option.getD_none]
  exact overwrite_inside _ _ hi hi'

theorem blank_and (byte : UInt8) : 0xFF &&& byte = byte := by
  apply UInt8.toBitVec_inj.mp
  simp only [UInt8.toBitVec_and]
  exact BitVec.allOnes_and

theorem program_blank {offset : Nat} {flash : Flash}
    (hblank : ∀ i, offset ≤ i → i < offset + data.length → flash.bytes i = 0xFF)
    {i : Nat} (hi : offset ≤ i) (hi' : i < offset + data.length) :
    (program reliable offset data flash).2.bytes i = data.getD (i - offset) 0xFF := by
  have h : (program reliable offset data flash).2.bytes i =
      flash.bytes i &&& data.getD (i - offset) 0xFF :=
    overwrite_inside _ _ hi hi'
  rw [h, hblank i hi hi', blank_and]

theorem holds_iff {flash : Flash} {offset : Nat} :
    holds flash offset data = true ↔
      ∀ i, i < data.length → flash.bytes (offset + i) = data.getD i 0xFF := by
  induction data generalizing offset with
  | nil => simp [holds]
  | cons byte rest ih =>
    simp only [holds, Bool.and_eq_true, beq_iff_eq, ih, List.length_cons]
    constructor
    · rintro ⟨hbyte, hrest⟩ i hi
      cases i with
      | zero => simpa using hbyte
      | succ i =>
        have := hrest i (by omega)
        simpa [Nat.add_assoc, Nat.add_comm 1 i] using this
    · intro h
      refine ⟨by simpa using h 0 (by omega), fun i hi => ?_⟩
      have := h (i + 1) (by omega)
      simpa [Nat.add_assoc, Nat.add_comm 1 i] using this

/-- A loop that stops at its first failure. -/
def untilFailure {σ : Type*} (step : Nat → σ → Bool × σ) : List Nat → σ → Bool × σ
  | [], s => (true, s)
  | i :: rest, s =>
    let done := step i s
    if done.1 then untilFailure step rest done.2 else done

theorem untilFailure_preserves {σ : Type*} {step : Nat → σ → Bool × σ} {P : σ → Prop}
    {indices : List Nat} (hstep : ∀ i ∈ indices, ∀ s, P s → P (step i s).2) {s : σ} (h : P s) :
    P (untilFailure step indices s).2 := by
  induction indices generalizing s with
  | nil => exact h
  | cons i rest ih =>
    have hdone := hstep i (by simp) s h
    simp only [untilFailure]
    split
    · exact ih (fun j hj => hstep j (List.mem_cons_of_mem i hj)) hdone
    · exact hdone

end WolfTrust.NorFlash
