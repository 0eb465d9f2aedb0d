import Mathlib.Data.Fin.VecNotation
import Mathlib.Logic.Function.Basic

namespace WolfTrust.VnetFdb

inductive VnetError
  | badArg
  | notReady
  | notOpen
  | invalMac
  | dupMac
  | noMac
  | spoof
  | frameLen
  | malformed
  | poolFull
  | queueFull
  | empty
  | staleCookie
  | notOwner
  | doubleRelease
  | droppedUnknown
  | droppedPolicy
  deriving DecidableEq, Repr

def vnetMacLen : Nat := 6

abbrev Mac := Vector UInt8 6

def macIsZero (m : Mac) : Bool :=
  (m[0] ||| m[1] ||| m[2] ||| m[3] ||| m[4] ||| m[5]) == 0

def macIsMulticast (m : Mac) : Bool := (m[0] &&& 0x01) != 0

def macIsLocallyAdministered (m : Mac) : Bool := (m[0] &&& 0x02) != 0

def macIsLocallyAdministeredUnicast (m : Mac) : Bool :=
  if macIsZero m then false
  else if macIsMulticast m then false
  else macIsLocallyAdministered m

def macEquals (a b : Mac) : Bool :=
  ((a[0] ^^^ b[0]) ||| (a[1] ^^^ b[1]) ||| (a[2] ^^^ b[2]) ||| (a[3] ^^^ b[3]) |||
    (a[4] ^^^ b[4]) ||| (a[5] ^^^ b[5])) == 0

inductive FdbKind
  | empty
  | assigned
  | learned
  deriving DecidableEq, Repr

structure FdbEntry where
  mac : Mac
  guestId : Nat
  kind : FdbKind

def fdbNoVm : Nat := 0xFFFFFFFF

structure Fdb where
  entries : Nat → FdbEntry
  capacity : Nat

def Fdb.find (fdb : Fdb) (p : FdbEntry → Bool) : Option Nat :=
  (List.range fdb.capacity).find? fun i => p (fdb.entries i)

def Fdb.findMac (fdb : Fdb) (mac : Mac) : Option Nat :=
  fdb.find fun e => e.kind != .empty && macEquals e.mac mac

def Fdb.findAssignedByGuest (fdb : Fdb) (guestId : Nat) : Option Nat :=
  fdb.find fun e => e.kind == .assigned && e.guestId == guestId

def Fdb.findEmpty (fdb : Fdb) : Option Nat := fdb.find (·.kind == .empty)

def Fdb.evictOldestLearned (fdb : Fdb) : Option Nat := fdb.find (·.kind == .learned)

def Fdb.set (fdb : Fdb) (i : Nat) (entry : FdbEntry) : Fdb :=
  { fdb with entries := Function.update fdb.entries i entry }

/-- The table whose storage held `storage` before. -/
def fdbInit (storage : Nat → FdbEntry) (capacity : Nat) : Fdb :=
  { entries := fun i =>
      if i < capacity then { storage i with guestId := fdbNoVm, kind := .empty }
      else storage i
    capacity }

def Fdb.room (fdb : Fdb) : Option Nat := fdb.findEmpty.or fdb.evictOldestLearned

def fdbAssign (fdb : Fdb) (guestId : Nat) (mac : Mac) : Except VnetError Unit × Fdb :=
  if guestId = fdbNoVm then (.error .badArg, fdb)
  else if macIsLocallyAdministeredUnicast mac = false then (.error .invalMac, fdb)
  else
    match fdb.findMac mac with
    | some i =>
      if (fdb.entries i).kind = .assigned then
        if (fdb.entries i).guestId = guestId then (.ok (), fdb)
        else (.error .dupMac, fdb)
      else if ∃ j ∈ fdb.findAssignedByGuest guestId, j ≠ i then
        (.error .dupMac, fdb)
      else
        -- a learned entry is promoted
        (.ok (), fdb.set i { fdb.entries i with kind := .assigned, guestId })
    | none =>
      if (fdb.findAssignedByGuest guestId).isSome then (.error .dupMac, fdb)
      else
        match fdb.room with
        | none => (.error .notReady, fdb)
        | some i => (.ok (), fdb.set i { mac, guestId, kind := .assigned })

def fdbLearn (fdb : Fdb) (guestId : Nat) (mac : Mac) : Except VnetError Unit × Fdb :=
  if guestId = fdbNoVm then (.error .badArg, fdb)
  else if macIsMulticast mac || macIsZero mac then (.error .badArg, fdb)
  else
    match fdb.findMac mac with
    | some i =>
      if (fdb.entries i).kind = .assigned then
        if (fdb.entries i).guestId = guestId then (.ok (), fdb)
        else (.error .spoof, fdb)
      else (.ok (), fdb.set i { fdb.entries i with guestId, kind := .learned })
    | none =>
      match fdb.room with
      | none => (.error .notReady, fdb)
      | some i => (.ok (), fdb.set i { mac, guestId, kind := .learned })

def fdbLookup (fdb : Fdb) (mac : Mac) : Nat :=
  if macIsMulticast mac || macIsZero mac then fdbNoVm
  else
    match fdb.findMac mac with
    | none => fdbNoVm
    | some i => (fdb.entries i).guestId

end WolfTrust.VnetFdb
