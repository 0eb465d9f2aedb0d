import WolfTrust.RingBuffer
import WolfTrust.VnetFdb

/-!
The virtual switch (`src/vnet/vnet_switch.c`) over its pool of frames
(`src/vnet/vnet_pool.c`) and the receive rings of the guests
(`src/vnet/vnet_ring.c`). The statistics, which no operation reads, are left out.
-/

namespace WolfTrust.VnetSwitch

open RingBuffer VnetFdb

def frameMax : Nat := 1536
def frameMin : Nat := 14
def vnetAbiVersion : Nat := 1
def vnetRxIrq : Nat := 130

structure Frame where
  len : Nat
  gen : UInt16
  refcnt : Nat
  srcVm : Nat
  bornTick : UInt32
  data : List UInt8

@[ext]
structure Pool where
  slots : Nat → Frame
  slotCount : Nat
  inUseCount : Nat
  /-- The number of slots is a 16-bit word. -/
  slotCount_lt : slotCount < 2 ^ 16

def Pool.set (p : Pool) (slot : Nat) (f : Frame) : Pool :=
  { p with slots := Function.update p.slots slot f }

/-- The pool whose storage held `storage` before. -/
def poolInit (storage : Nat → Frame) (count : Nat) (h : count < 2 ^ 16) : Pool :=
  { slots := fun i =>
      if i < count then
        { storage i with refcnt := 0, gen := 0, len := 0, srcVm := 0, bornTick := 0 }
      else storage i
    slotCount := count
    inUseCount := 0
    slotCount_lt := h }

def Pool.free (p : Pool) : Option Nat :=
  (List.range p.slotCount).find? fun i => (p.slots i).refcnt == 0

def Pool.take (p : Pool) (slot : Nat) (now : UInt32) : Pool :=
  { p.set slot
      { p.slots slot with
        gen := (p.slots slot).gen + 1
        refcnt := 1
        len := 0
        srcVm := 0
        bornTick := now } with
    inUseCount := (p.inUseCount + 1) % 2 ^ 16 }

def poolAlloc (p : Pool) (now : UInt32) : Option (Nat × Pool) :=
  p.free.map fun slot => (slot, p.take slot now)

def poolRef (p : Pool) (slot : Nat) (gen : UInt16) : Except VnetError Pool :=
  if p.slotCount ≤ slot then .error .badArg
  else if (p.slots slot).refcnt = 0 then .error .staleCookie
  else if (p.slots slot).gen ≠ gen then .error .staleCookie
  else if (p.slots slot).refcnt = 0xFFFF then .error .badArg
  else .ok (p.set slot { p.slots slot with refcnt := (p.slots slot).refcnt + 1 })

/-- One reference to the slot less; the last one frees it. -/
def Pool.unref (p : Pool) (slot : Nat) : Pool :=
  let freed := p.set slot { p.slots slot with refcnt := (p.slots slot).refcnt - 1 }
  if (p.slots slot).refcnt - 1 = 0 then { freed with inUseCount := p.inUseCount - 1 }
  else freed

def poolRelease (p : Pool) (slot : Nat) (gen : UInt16) : Except VnetError (Bool × Pool) :=
  if p.slotCount ≤ slot then .error .badArg
  else if (p.slots slot).gen ≠ gen then .error .staleCookie
  else if (p.slots slot).refcnt = 0 then .error .doubleRelease
  else .ok ((p.slots slot).refcnt - 1 = 0, p.unref slot)

/-- The reaper frees the slot whatever its references. -/
def Pool.reap (p : Pool) (slot : Nat) : Pool :=
  { p.set slot { p.slots slot with refcnt := 0 } with inUseCount := p.inUseCount - 1 }

def Pool.expired (p : Pool) (now timeout : UInt32) (slot : Nat) : Bool :=
  (p.slots slot).refcnt != 0 && decide (timeout ≤ now - (p.slots slot).bornTick)

def reapExpired (now timeout : UInt32) (state : Nat × Pool) (slot : Nat) : Nat × Pool :=
  if state.2.expired now timeout slot then (state.1 + 1, state.2.reap slot) else state

def poolDropExpired (p : Pool) (now timeout : UInt32) : Nat × Pool :=
  if timeout = 0 then (0, p)
  else (List.range p.slotCount).foldl (reapExpired now timeout) (0, p)

def poolSlot (p : Pool) (slot : Nat) (gen : UInt16) : Option Frame :=
  if p.slotCount ≤ slot then none
  else if (p.slots slot).refcnt = 0 then none
  else if (p.slots slot).gen ≠ gen then none
  else some (p.slots slot)

structure Desc where
  slot : Nat
  gen : UInt16
  len : Nat
  flags : Nat
  srcVm : Nat
  deriving DecidableEq, Repr

def ringPush (r : Circular Desc) (desc : Desc) : Except VnetError (Circular Desc) :=
  if r.capacity = 0 then .error .notReady
  else if h : r.count < r.capacity then .ok (r.push desc h)
  else .error .queueFull

def ringDropHead (r : Circular Desc) : Except VnetError (Circular Desc) :=
  if r.capacity = 0 then .error .notReady
  else if h : r.count ≠ 0 then .ok (r.dropHead h)
  else .error .empty

def ringPeek (r : Circular Desc) : Except VnetError Desc :=
  if r.capacity = 0 then .error .notReady
  else
    match r.peek with
    | none => .error .empty
    | some desc => .ok desc

structure Vnic where
  isOpen : Bool
  /-- The address, once it is set. -/
  mac : Option Mac
  mtu : Nat
  rxIrqPending : Bool
  rxq : Circular Desc

structure Switch where
  vnics : Nat → Vnic
  nvm : Nat
  pool : Pool
  fdb : Fdb
  unknownUnicastFlood : Bool

def Switch.setVnic (sw : Switch) (vm : Nat) (v : Vnic) : Switch :=
  { sw with vnics := Function.update sw.vnics vm v }

def vnicReset (ringStorage : Nat → Desc) (ringCapacity : Nat) : Vnic :=
  { isOpen := false
    mac := none
    mtu := frameMax
    rxIrqPending := false
    rxq := Circular.init ringStorage ringCapacity }

/-- The storage that the switch is given, and what it held. -/
structure Storage where
  nvm : Nat
  frames : Nat → Frame
  frameCount : Nat
  frameCount_lt : frameCount < 2 ^ 16
  fdb : Nat → FdbEntry
  fdbCapacity : Nat
  rings : Nat → Nat → Desc
  ringCapacity : Nat
  unknownUnicastFlood : Bool

def switchInit (s : Storage) : Except VnetError Switch :=
  if s.nvm = 0 ∨ s.frameCount = 0 ∨ s.fdbCapacity = 0 ∨ s.ringCapacity = 0 then
    .error .badArg
  else
    .ok
      { vnics := fun vm => vnicReset (s.rings vm) s.ringCapacity
        nvm := s.nvm
        pool := poolInit s.frames s.frameCount s.frameCount_lt
        fdb := fdbInit s.fdb s.fdbCapacity
        unknownUnicastFlood := s.unknownUnicastFlood }

structure VnetInfo where
  abiVersion : Nat
  features : Nat
  mtu : Nat
  rxIrq : Nat
  defaultMac : Option Mac

def switchOpen (sw : Switch) (vm : Nat) : Except VnetError VnetInfo × Switch :=
  if sw.nvm ≤ vm then (.error .badArg, sw)
  else
    let v := sw.vnics vm
    (.ok
      { abiVersion := vnetAbiVersion
        features := 0
        mtu := v.mtu
        rxIrq := vnetRxIrq
        defaultMac := v.mac },
      sw.setVnic vm { v with isOpen := true })

def switchAssignMac (sw : Switch) (vm : Nat) (mac : Mac) : Except VnetError Unit × Switch :=
  let v := sw.vnics vm
  if sw.nvm ≤ vm then (.error .badArg, sw)
  else if v.isOpen = false then (.error .notOpen, sw)
  else if macIsLocallyAdministeredUnicast mac = false then (.error .invalMac, sw)
  else if v.mac.any (fun own => !macEquals own mac) then (.error .dupMac, sw)
  else
    match fdbAssign sw.fdb vm mac with
    | (.error e, fdb) => (.error e, { sw with fdb })
    | (.ok (), fdb) =>
      (.ok (), { sw.setVnic vm { v with mac := some mac } with fdb })

def tryDeliverOne (sw : Switch) (dst slot : Nat) (gen : UInt16) (len srcVm : Nat) :
    Except VnetError Unit × Switch :=
  let v := sw.vnics dst
  if v.isOpen = false then (.error .droppedPolicy, sw)
  else
    match ringPush v.rxq { slot, gen, len, flags := 0, srcVm } with
    | .error e => (.error e, sw)
    | .ok rxq =>
      match poolRef sw.pool slot gen with
      | .error _ =>
        -- the push is undone
        let rxq := if h : rxq.count ≠ 0 then rxq.unpush h else rxq
        (.error .notReady, sw.setVnic dst { v with rxq })
      | .ok pool =>
        (.ok (), { sw.setVnic dst { v with rxq, rxIrqPending := true } with pool })

def deliver (slot : Nat) (gen : UInt16) (len srcVm : Nat) (state : Nat × Switch)
    (dst : Nat) : Nat × Switch :=
  match tryDeliverOne state.2 dst slot gen len srcVm with
  | (.ok (), sw) => (state.1 + 1, sw)
  | (.error _, sw) => (state.1, sw)

/-- The guests that a frame goes to. -/
def destinations (sw : Switch) (srcVm : Nat) (dstMac : Mac) : List Nat :=
  if macIsMulticast dstMac then (List.range sw.nvm).filter (· ≠ srcVm)
  else
    let dstVm := fdbLookup sw.fdb dstMac
    if dstVm ≠ fdbNoVm ∧ dstVm ≠ srcVm then
      if dstVm < sw.nvm then [dstVm] else []
    else if dstVm = fdbNoVm ∧ sw.unknownUnicastFlood then
      (List.range sw.nvm).filter (· ≠ srcVm)
    else []

def dropScratch (sw : Switch) (slot : Nat) (gen : UInt16) : Switch :=
  match poolRelease sw.pool slot gen with
  | .error _ => sw
  | .ok (_, pool) => { sw with pool }

def macAt (frame : List UInt8) (base : Nat) : Mac :=
  Vector.ofFn fun i : Fin 6 => frame.getD (base + i) 0

def Pool.fill (p : Pool) (slot : Nat) (frame : List UInt8) (srcVm : Nat) : Pool :=
  p.set slot
    { p.slots slot with
      data := frame ++ (p.slots slot).data.drop frame.length
      len := frame.length
      srcVm }

/-- The part of a transmission once the frame has its slot. -/
def forward (sw : Switch) (srcVm slot : Nat) (frame : List UInt8) :
    Except VnetError Unit × Switch :=
  let gen := (sw.pool.slots slot).gen
  let dstMac := macAt frame 0
  if macIsZero dstMac then (.error .malformed, dropScratch sw slot gen)
  else
    let sent := (destinations sw srcVm dstMac).foldl (deliver slot gen frame.length srcVm) (0, sw)
    let sw := dropScratch sent.2 slot gen
    if sent.1 = 0 then
      if macIsMulticast dstMac then (.error .droppedPolicy, sw)
      else (.error .droppedUnknown, sw)
    else (.ok (), sw)

def switchTx (sw : Switch) (srcVm : Nat) (frame : List UInt8) (now : UInt32) :
    Except VnetError Unit × Switch :=
  let src := sw.vnics srcVm
  if sw.nvm ≤ srcVm then (.error .badArg, sw)
  else if src.isOpen = false then (.error .notOpen, sw)
  else
    match src.mac with
    | none => (.error .noMac, sw)
    | some mac =>
      let srcMac := macAt frame vnetMacLen
      if frame.length < frameMin ∨ frameMax < frame.length then
        (.error .frameLen, sw)
      else if macIsZero srcMac || macIsMulticast srcMac then (.error .malformed, sw)
      else if macEquals srcMac mac = false then (.error .spoof, sw)
      else
        let fdb := (fdbLearn sw.fdb srcVm srcMac).2
        match poolAlloc sw.pool now with
        | none => (.error .poolFull, { sw with fdb })
        | some (slot, pool) =>
          forward { sw with fdb, pool := pool.fill slot frame srcVm } srcVm slot frame

def stale (p : Pool) (desc : Desc) : Bool := (poolSlot p desc.slot desc.gen).isNone

/-- The loop ends: each round takes a descriptor off the ring. -/
def skipStaleHead (sw : Switch) (vm : Nat) : Switch :=
  let v := sw.vnics vm
  sw.setVnic vm { v with rxq := v.rxq.dropStale (stale sw.pool) v.rxq.count }

def Switch.setIrq (sw : Switch) (vm : Nat) (pending : Bool) : Switch :=
  sw.setVnic vm { sw.vnics vm with rxIrqPending := pending }

structure RxMeta where
  tokenSlot : Nat
  tokenGen : UInt16
  len : Nat
  flags : Nat
  srcVm : Nat
  deriving DecidableEq, Repr

def switchPollRx (sw : Switch) (vm : Nat) : Except VnetError RxMeta × Switch :=
  if sw.nvm ≤ vm then (.error .badArg, sw)
  else if (sw.vnics vm).isOpen = false then (.error .notOpen, sw)
  else
    let sw := skipStaleHead sw vm
    if (sw.vnics vm).rxq.count = 0 then (.error .empty, sw.setIrq vm false)
    else
      match ringPeek (sw.vnics vm).rxq with
      | .error e => (.error e, sw)
      | .ok desc =>
        (.ok
          { tokenSlot := desc.slot
            tokenGen := desc.gen
            len := desc.len
            flags := desc.flags
            srcVm := desc.srcVm }, sw)

/-- The bytes that are copied to a buffer of `dstLen` bytes. -/
def switchReadRx (sw : Switch) (vm slot : Nat) (gen : UInt16) (dstLen : Nat) :
    Except VnetError (List UInt8) × Switch :=
  if sw.nvm ≤ vm then (.error .badArg, sw)
  else if (sw.vnics vm).isOpen = false then (.error .notOpen, sw)
  else
    let sw := skipStaleHead sw vm
    match ringPeek (sw.vnics vm).rxq with
    | .error _ => (.error .empty, sw)
    | .ok head =>
      if head.slot ≠ slot ∨ head.gen ≠ gen then (.error .notOwner, sw)
      else
        match poolSlot sw.pool slot gen with
        | none => (.error .staleCookie, sw)
        | some f =>
          if dstLen < f.len then (.error .badArg, sw)
          else (.ok (f.data.take f.len), sw)

/-- The head of the ring is consumed: its descriptor goes, then its reference. -/
def consumeHead (sw : Switch) (vm slot : Nat) (gen : UInt16) : Except VnetError Unit × Switch :=
  let v := sw.vnics vm
  let rxq := (ringDropHead v.rxq).toOption.getD v.rxq
  let sw := sw.setVnic vm { v with rxq }
  match poolRelease sw.pool slot gen with
  | .error e => (.error e, sw)
  | .ok (_, pool) =>
    let sw := { sw with pool }
    (.ok (), if rxq.count = 0 then sw.setIrq vm false else sw)

def switchReleaseRx (sw : Switch) (vm slot : Nat) (gen : UInt16) : Except VnetError Unit × Switch :=
  if sw.nvm ≤ vm then (.error .badArg, sw)
  else if (sw.vnics vm).isOpen = false then (.error .notOpen, sw)
  else
    let sw := skipStaleHead sw vm
    match ringPeek (sw.vnics vm).rxq with
    | .error _ => (.error .empty, sw)
    | .ok head =>
      if head.slot ≠ slot ∨ head.gen ≠ gen then (.error .notOwner, sw)
      else consumeHead sw vm slot gen

/-- Whether frames are left. -/
def switchIrqAck (sw : Switch) (vm : Nat) : Except VnetError Bool × Switch :=
  if sw.nvm ≤ vm then (.error .badArg, sw)
  else if (sw.vnics vm).isOpen = false then (.error .notOpen, sw)
  else
    let sw := skipStaleHead sw vm
    if (sw.vnics vm).rxq.count = 0 then (.ok false, sw.setIrq vm false)
    else (.ok true, sw.setIrq vm true)

def sweep (sw : Switch) (vm : Nat) : Switch :=
  let sw := skipStaleHead sw vm
  if (sw.vnics vm).rxq.count = 0 then sw.setIrq vm false else sw

def switchDropExpired (sw : Switch) (now timeout : UInt32) : Nat × Switch :=
  let (freed, pool) := poolDropExpired sw.pool now timeout
  let sw := { sw with pool }
  (freed, if 0 < freed then (List.range sw.nvm).foldl sweep sw else sw)

/-- The calls that the guests and the service make. A tick is the time since
start-up, of which the code sees a 32-bit word. -/
inductive Op
  | openVnic (vm : Nat)
  | assignMac (vm : Nat) (mac : Mac)
  | tx (srcVm : Nat) (frame : List UInt8) (tick : Nat)
  | pollRx (vm : Nat)
  | readRx (vm slot : Nat) (gen : UInt16) (dstLen : Nat)
  | releaseRx (vm slot : Nat) (gen : UInt16)
  | irqAck (vm : Nat)
  | dropExpired (tick : Nat) (timeout : UInt32)

def Op.tick : Op → Option Nat
  | .tx _ _ tick => some tick
  | .dropExpired tick _ => some tick
  | _ => none

def step (sw : Switch) : Op → Switch
  | .openVnic vm => (switchOpen sw vm).2
  | .assignMac vm mac => (switchAssignMac sw vm mac).2
  | .tx srcVm frame tick => (switchTx sw srcVm frame (UInt32.ofNat tick)).2
  | .pollRx vm => (switchPollRx sw vm).2
  | .readRx vm slot gen dstLen => (switchReadRx sw vm slot gen dstLen).2
  | .releaseRx vm slot gen => (switchReleaseRx sw vm slot gen).2
  | .irqAck vm => (switchIrqAck sw vm).2
  | .dropExpired tick timeout => (switchDropExpired sw (UInt32.ofNat tick) timeout).2

theorem macEquals_iff (a b : Mac) : macEquals a b = true ↔ a = b := by
  simp only [macEquals, beq_iff_eq, UInt8.or_eq_zero_iff, UInt8.xor_eq_zero_iff]
  constructor
  · rintro ⟨⟨⟨⟨⟨h0, h1⟩, h2⟩, h3⟩, h4⟩, h5⟩
    refine Vector.ext fun i hi => ?_
    obtain rfl | rfl | rfl | rfl | rfl | rfl :
        i = 0 ∨ i = 1 ∨ i = 2 ∨ i = 3 ∨ i = 4 ∨ i = 5 := by omega
    all_goals assumption
  · rintro rfl
    simp

theorem fdbAssign_error {fdb fdb' : Fdb} {vm : Nat} {mac : Mac} {e : VnetError}
    (h : fdbAssign fdb vm mac = (.error e, fdb')) : fdb' = fdb := by
  unfold fdbAssign at h
  repeat' split at h
  all_goals first | exact (congrArg Prod.snd h).symm | cases h

/-- An assignment is refused, or the table takes it. -/
theorem switchAssignMac_checked (sw : Switch) (vm : Nat) (mac : Mac) :
    (∃ e, switchAssignMac sw vm mac = (.error e, sw)) ∨
      ∃ fdb, fdbAssign sw.fdb vm mac = (.ok (), fdb) ∧ switchAssignMac sw vm mac =
        (.ok (), { sw.setVnic vm { sw.vnics vm with mac := some mac } with fdb }) := by
  unfold switchAssignMac
  dsimp only
  repeat' split
  case h_1 e fdb hassign =>
    rw [fdbAssign_error hassign]
    exact .inl ⟨e, rfl⟩
  case h_2 fdb hassign => exact .inr ⟨fdb, hassign, rfl⟩
  all_goals exact .inl ⟨_, rfl⟩

/-- A transmission is refused, or the frame bears the guest's own address and
goes as far as there is room. -/
theorem switchTx_checked (sw : Switch) (srcVm : Nat) (frame : List UInt8) (now : UInt32) :
    let fdb := (fdbLearn sw.fdb srcVm (macAt frame vnetMacLen)).2
    (∃ e, switchTx sw srcVm frame now = (.error e, sw)) ∨
      (sw.vnics srcVm).mac = some (macAt frame vnetMacLen) ∧
        (switchTx sw srcVm frame now = (.error .poolFull, { sw with fdb }) ∨
          ∃ slot pool, poolAlloc sw.pool now = some (slot, pool) ∧
            switchTx sw srcVm frame now =
              forward { sw with fdb, pool := pool.fill slot frame srcVm } srcVm slot frame) := by
  intro fdb
  unfold switchTx
  dsimp only
  cases hmac : (sw.vnics srcVm).mac with
  | none => split_ifs <;> exact .inl ⟨_, rfl⟩
  | some =>
    dsimp only
    split_ifs with hnvm hopen hlength hsource hequals
    any_goals exact .inl ⟨_, rfl⟩
    rw [Bool.not_eq_false, macEquals_iff] at hequals
    refine .inr ⟨congrArg some hequals.symm, ?_⟩
    split
    · exact .inl rfl
    · exact .inr ⟨_, _, ‹_›, rfl⟩

end WolfTrust.VnetSwitch
