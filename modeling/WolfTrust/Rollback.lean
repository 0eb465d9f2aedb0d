import WolfTrust.MonitorLaunch

namespace WolfTrust.Rollback

open GuestMonitor MonitorMoves
open WolfTrust.MonitorQuarantine (samplePlatform)
open StepRuns

def lifecycleAssemblyAndTest : UInt32 := 0x1000
def lifecyclePsaRotProvisioning : UInt32 := 0x2000

def rollbackLifecycleUnlocked (lifecycle : UInt32) : Bool :=
  lifecycle == lifecycleAssemblyAndTest || lifecycle == lifecyclePsaRotProvisioning

def rollbackCheck (lifecycle version floor : UInt32) : Bool :=
  rollbackLifecycleUnlocked lifecycle || decide (floor ≤ version)

/-- The floor, and whether it moved. -/
def rollbackAdvance (version floor : UInt32) : UInt32 × Bool :=
  if floor < version then (version, true) else (floor, false)

def guestMeasMaxRecords : Nat := 4
def rollbackTableMagic : UInt32 := 0x57545246

structure RollbackTable where
  magic : UInt32
  imageFloor : UInt32
  guestFloor : Fin guestMeasMaxRecords → UInt32

def rollbackTableInit : RollbackTable :=
  { magic := rollbackTableMagic, imageFloor := 0, guestFloor := fun _ => 0 }

def rollbackTableValid (table : RollbackTable) : Bool :=
  table.magic == rollbackTableMagic

/-- How a store ends. One that reports a failure may have replaced the object. -/
inductive StoreOutcome
  | stored
  | lost
  | replaced
  deriving DecidableEq, Repr

/-- A boot up to the enforcement: the image with its guests, records and version,
the memory that the guests are measured in, the lifecycle of the handoff, whether
the object can be read, and how a store would end. -/
structure Boot where
  platform : Platform
  /-- The table of either port has one or two guests. -/
  guests : platform.guestCount ≤ 2
  memory : Memory
  imageVersion : UInt32
  lifecycle : UInt32
  readable : Bool
  store : StoreOutcome

/-- The guests as the monitor's initialisation leaves them. -/
def Boot.monitor (boot : Boot) : Monitor := monitorInit boot.platform boot.memory []

abbrev Nvm := Option RollbackTable

def rollbackLoad (readable : Bool) (nvm : Nvm) : Option RollbackTable :=
  if ¬readable then none
  else
    match nvm with
    | none => some rollbackTableInit
    | some table => if rollbackTableValid table then some table else none

def rollbackStore (outcome : StoreOutcome) (table : RollbackTable) (nvm : Nvm) : Bool × Nvm :=
  match outcome with
  | .stored => (true, some table)
  | .lost => (false, nvm)
  | .replaced => (false, some table)

def quarantineAll (p : Platform) (s : Monitor) : Monitor :=
  (List.range p.guestCount).foldl (fun s guest => quarantineGuest p guest s) s

/-- The loop over the records: the table, whether it changed, and the guests. -/
structure Progress where
  table : RollbackTable
  changed : Bool
  monitor : Monitor

def enforceRecord (p : Platform) (lifecycle : UInt32) (progress : Progress)
    (record : GuestMeasurement) : Progress :=
  let guest := record.guestId.toNat
  if h : guest < guestMeasMaxRecords then
    let floor := progress.table.guestFloor ⟨guest, h⟩
    if ¬rollbackCheck lifecycle record.version floor then
      { progress with monitor := quarantineGuest p guest progress.monitor }
    else
      let advanced := rollbackAdvance record.version floor
      { progress with
        table := { progress.table with
          guestFloor := Function.update progress.table.guestFloor ⟨guest, h⟩ advanced.1 }
        changed := progress.changed || advanced.2 }
  else progress

/-- The image's floor is raised first, then the records are gone through. -/
def enforceFloors (boot : Boot) (table : RollbackTable) : Progress :=
  let advanced := rollbackAdvance boot.imageVersion table.imageFloor
  boot.platform.measurements.foldl (enforceRecord boot.platform boot.lifecycle)
    { table := { table with imageFloor := advanced.1 }
      changed := advanced.2, monitor := boot.monitor }

/-- What a boot leaves: the store, the guests, and the floor that the update
service is given. -/
structure Enforced where
  nvm : Nvm
  monitor : Monitor
  imageFloor : Option UInt32

def refuse (boot : Boot) (imageFloor : Option UInt32) (nvm : Nvm) (s : Monitor) : Enforced :=
  { nvm, monitor := quarantineAll boot.platform s, imageFloor }

/-- Floors that moved must be stored before a guest runs. -/
def persist (boot : Boot) (nvm : Nvm) (done : Progress) : Enforced :=
  let imageFloor := some done.table.imageFloor
  if done.changed then
    let stored := rollbackStore boot.store done.table nvm
    if stored.1 then { nvm := stored.2, monitor := done.monitor, imageFloor }
    else refuse boot imageFloor stored.2 done.monitor
  else { nvm, monitor := done.monitor, imageFloor }

/-- `wt_hsm_rollback_enforce` -/
def rollbackEnforce (nvm : Nvm) (boot : Boot) : Enforced :=
  match rollbackLoad boot.readable nvm with
  | none => refuse boot none nvm boot.monitor
  | some table =>
    if ¬rollbackCheck boot.lifecycle boot.imageVersion table.imageFloor then
      refuse boot (some table.imageFloor) nvm boot.monitor
    else persist boot nvm (enforceFloors boot table)

def enforce (nvm : Nvm) (boot : Boot) : Nvm := (rollbackEnforce nvm boot).nvm

/-- A guest the boot leaves to the scheduler. -/
def Admitted (nvm : Nvm) (boot : Boot) (guest : Nat) : Prop :=
  guest < boot.platform.guestCount ∧
    ((rollbackEnforce nvm boot).monitor.runtime guest).state ≠ .faulted

instance (nvm : Nvm) (boot : Boot) (guest : Nat) : Decidable (Admitted nvm boot guest) :=
  inferInstanceAs (Decidable (_ ∧ _))

/-- No floor of the first table is above that of the second. -/
structure Below (a b : RollbackTable) : Prop where
  image : a.imageFloor ≤ b.imageFloor
  guest : ∀ i, a.guestFloor i ≤ b.guestFloor i

theorem Below.refl (table : RollbackTable) : Below table table :=
  ⟨UInt32.le_refl _, fun _ => UInt32.le_refl _⟩

theorem Below.trans {a b c : RollbackTable} (h : Below a b) (h' : Below b c) : Below a c :=
  ⟨UInt32.le_trans h.image h'.image, fun i => UInt32.le_trans (h.guest i) (h'.guest i)⟩

theorem rollbackAdvance_spec (version floor : UInt32) : floor ≤ (rollbackAdvance version floor).1 ∧
      version ≤ (rollbackAdvance version floor).1 ∧
      ((rollbackAdvance version floor).2 = false → (rollbackAdvance version floor).1 = floor) := by
  unfold rollbackAdvance
  split
  case isTrue h => exact ⟨UInt32.le_of_lt h, UInt32.le_refl _, by simp⟩
  case isFalse h => exact ⟨UInt32.le_refl _, UInt32.not_lt.mp h, by simp⟩

section Records

variable {p : Platform} {lifecycle : UInt32}

variable {nvm : Nvm} {s : Monitor} {guest : Nat} {boot : Boot}

theorem quarantineGuest_faulted {guest other : Nat}
    (h : (s.runtime other).state = .faulted ∨ other = guest ∧ other < p.guestCount) :
    ((quarantineGuest p guest s).runtime other).state = .faulted := by
  unfold quarantineGuest
  split
  case isTrue hle =>
    rcases h with h | ⟨rfl, hlt⟩
    · exact h
    · omega
  case isFalse =>
    by_cases heq : other = guest
    · subst heq
      simp
    · rw [setState_other s heq]
      exact h.resolve_right fun h' => heq h'.1

/-- What the loop over the records ensures, from one progress to a later one. -/
structure Advances (p : Platform) (lifecycle : UInt32)
    (records : List GuestMeasurement) (before after : Progress) : Prop where
  below : Below before.table after.table
  image : after.table.imageFloor = before.table.imageFloor
  unchanged : after.changed = false → before.changed = false ∧ after.table = before.table
  faulted : ∀ guest, (before.monitor.runtime guest).state = .faulted →
    (after.monitor.runtime guest).state = .faulted
  admitted : ∀ i : Fin guestMeasMaxRecords, i.val < p.guestCount →
    (after.monitor.runtime i).state ≠ .faulted →
    ∀ record ∈ records, record.guestId.toNat = i.val →
      rollbackCheck lifecycle record.version (before.table.guestFloor i) = true ∧
        record.version ≤ after.table.guestFloor i

theorem enforceRecord_advances (progress : Progress) (record : GuestMeasurement) :
    Advances p lifecycle [record] progress (enforceRecord p lifecycle progress record) := by
  unfold enforceRecord
  dsimp only
  split
  case isFalse hguest =>
    refine ⟨.refl _, rfl, fun h => ⟨h, rfl⟩, fun _ h => h, ?_⟩
    rintro i - - r hr hid
    rw [List.mem_singleton.mp hr] at hid
    omega
  case isTrue hguest =>
    split
    case isTrue hrefused =>
      refine ⟨.refl _, rfl, fun h => ⟨h, rfl⟩, fun _ h => quarantineGuest_faulted (.inl h), ?_⟩
      rintro i hi hadmitted r hr hid
      rw [List.mem_singleton.mp hr] at hid
      exact absurd (quarantineGuest_faulted (.inr ⟨hid.symm, hi⟩)) hadmitted
    case isFalse hpassed =>
      obtain ⟨hfloor, hversion, hsame⟩ := rollbackAdvance_spec record.version
        (progress.table.guestFloor ⟨record.guestId.toNat, hguest⟩)
      refine ⟨⟨UInt32.le_refl _, fun i => ?_⟩, rfl, fun h => ?_, fun _ h => h, ?_⟩
      · by_cases heq : i = ⟨record.guestId.toNat, hguest⟩
        · subst heq
          simpa using hfloor
        · simp [Function.update_of_ne heq]
      · rw [Bool.or_eq_false_iff] at h
        refine ⟨h.1, ?_⟩
        simp [hsame h.2]
      · rintro i - - r hr hid
        rw [List.mem_singleton.mp hr] at hid ⊢
        obtain rfl : i = ⟨record.guestId.toNat, hguest⟩ := Fin.ext hid.symm
        exact ⟨by simpa using hpassed, by simpa using hversion⟩

theorem Advances.nil (progress : Progress) : Advances p lifecycle [] progress progress :=
  ⟨.refl _, rfl, fun h => ⟨h, rfl⟩, fun _ h => h, by simp⟩

theorem rollbackCheck_mono {version floor floor' : UInt32} (h : floor ≤ floor')
    (hcheck : rollbackCheck lifecycle version floor' = true) :
    rollbackCheck lifecycle version floor = true := by
  simp only [rollbackCheck, Bool.or_eq_true, decide_eq_true_eq] at hcheck ⊢
  exact hcheck.imp_right fun h' => UInt32.le_trans h h'

theorem Advances.append {first second : List GuestMeasurement} {a b c : Progress}
    (h : Advances p lifecycle first a b) (h' : Advances p lifecycle second b c) :
    Advances p lifecycle (first ++ second) a c where
  below := h.below.trans h'.below
  image := h'.image.trans h.image
  unchanged hc := by
    obtain ⟨hb, htable⟩ := h'.unchanged hc
    obtain ⟨ha, htable'⟩ := h.unchanged hb
    exact ⟨ha, htable.trans htable'⟩
  faulted guest hf := h'.faulted guest (h.faulted guest hf)
  admitted i hi hadmitted record hrecord hid := by
    rcases List.mem_append.mp hrecord with hmem | hmem
    · obtain ⟨hcheck, hversion⟩ := h.admitted i hi
        (fun hf => hadmitted (h'.faulted i hf)) record hmem hid
      exact ⟨hcheck, UInt32.le_trans hversion (h'.below.guest i)⟩
    · obtain ⟨hcheck, hversion⟩ := h'.admitted i hi hadmitted record hmem hid
      exact ⟨rollbackCheck_mono (h.below.guest i) hcheck, hversion⟩

theorem records_advance (records : List GuestMeasurement) (progress : Progress) :
    Advances p lifecycle records progress (records.foldl (enforceRecord p lifecycle) progress) := by
  induction records generalizing progress with
  | nil => exact .nil progress
  | cons record rest ih => exact (enforceRecord_advances progress record).append (ih _)

theorem quarantineAll_faulted (h : guest < p.guestCount) :
    ((quarantineAll p s).runtime guest).state = .faulted := by
  have hfold : ∀ (guests : List Nat) (s : Monitor),
      guest ∈ guests ∨ (s.runtime guest).state = .faulted →
      ((guests.foldl (fun s guest => quarantineGuest p guest s) s).runtime
        guest).state = .faulted := by
    intro guests
    induction guests with
    | nil => simp
    | cons first rest ih =>
      intro s hor
      refine ih _ ?_
      rcases hor with hmem | hfaulted
      · rcases List.mem_cons.mp hmem with rfl | hrest
        · exact .inr (quarantineGuest_faulted (.inr ⟨rfl, h⟩))
        · exact .inl hrest
      · exact .inr (quarantineGuest_faulted (.inl hfaulted))
  exact hfold _ s (.inl (List.mem_range.mpr h))

end Records

/-- The floors in force: an absent table has none. -/
def floors (nvm : Nvm) : RollbackTable := nvm.getD rollbackTableInit

theorem rollbackLoad_some {readable : Bool} {table : RollbackTable}
    (h : rollbackLoad readable nvm = some table) : table = floors nvm := by
  unfold rollbackLoad at h
  split at h
  · cases h
  split at h
  · cases h
    rfl
  · split at h
    · cases h
      rfl
    · cases h

/-- What a boot does to the floors and to the guests it admits. -/
structure Enforces (nvm : Nvm) (boot : Boot) : Prop where
  below : Below (floors nvm) (floors (enforce nvm boot))
  faulted : ∀ guest, guest < boot.platform.guestCount →
    (boot.monitor.runtime guest).state = .faulted →
    ((rollbackEnforce nvm boot).monitor.runtime guest).state = .faulted
  admits : ∀ guest, Admitted nvm boot guest →
    rollbackCheck boot.lifecycle boot.imageVersion (floors nvm).imageFloor = true ∧
    boot.imageVersion ≤ (floors (enforce nvm boot)).imageFloor ∧
    ∀ i : Fin guestMeasMaxRecords, i.val = guest →
      ∀ record ∈ boot.platform.measurements, record.guestId.toNat = guest →
        rollbackCheck boot.lifecycle record.version ((floors nvm).guestFloor i) = true ∧
          record.version ≤ (floors (enforce nvm boot)).guestFloor i

theorem Enforces.refused
    (hmonitor : (rollbackEnforce nvm boot).monitor = quarantineAll boot.platform s)
    (hbelow : Below (floors nvm) (floors (enforce nvm boot))) : Enforces nvm boot where
  below := hbelow
  faulted guest hguest _ := by
    rw [hmonitor]
    exact quarantineAll_faulted hguest
  admits guest hadmitted := by
    refine absurd ?_ hadmitted.2
    rw [hmonitor]
    exact quarantineAll_faulted hadmitted.1

/-- The floors of a boot that passes the image's check. -/
structure Raises (boot : Boot) (table : RollbackTable) : Prop where
  below : Below table (enforceFloors boot table).table
  image : boot.imageVersion ≤ (enforceFloors boot table).table.imageFloor
  unchanged : (enforceFloors boot table).changed = false → (enforceFloors boot table).table = table
  faulted : ∀ guest, (boot.monitor.runtime guest).state = .faulted →
    ((enforceFloors boot table).monitor.runtime guest).state = .faulted
  admitted : ∀ i : Fin guestMeasMaxRecords, i.val < boot.platform.guestCount →
    ((enforceFloors boot table).monitor.runtime i).state ≠ .faulted →
    ∀ record ∈ boot.platform.measurements, record.guestId.toNat = i.val →
      rollbackCheck boot.lifecycle record.version (table.guestFloor i) = true ∧
        record.version ≤ (enforceFloors boot table).table.guestFloor i

theorem enforceFloors_raises (boot : Boot) (table : RollbackTable) : Raises boot table := by
  obtain ⟨hfloor, hversion, hsame⟩ :=
    rollbackAdvance_spec boot.imageVersion table.imageFloor
  have hadvances : Advances boot.platform boot.lifecycle
      boot.platform.measurements _ (enforceFloors boot table) :=
    records_advance _ _
  refine ⟨⟨?_, hadvances.below.guest⟩, ?_, fun h => ?_, hadvances.faulted, hadvances.admitted⟩
  · exact UInt32.le_trans hfloor hadvances.below.image
  · rw [hadvances.image]
    exact hversion
  · obtain ⟨hmoved, htable⟩ := hadvances.unchanged h
    rw [htable, hsame hmoved]

theorem Enforces.passed
    (hcheck : rollbackCheck boot.lifecycle boot.imageVersion (floors nvm).imageFloor = true)
    (hmonitor : (rollbackEnforce nvm boot).monitor = (enforceFloors boot (floors nvm)).monitor)
    (hfloors : floors (enforce nvm boot) =
      (enforceFloors boot (floors nvm)).table) : Enforces nvm boot := by
  have hraises := enforceFloors_raises boot (floors nvm)
  refine ⟨?_, fun guest _ hfaulted => ?_, fun guest hadmitted => ⟨hcheck, ?_, ?_⟩⟩
  · rw [hfloors]
    exact hraises.below
  · rw [hmonitor]
    exact hraises.faulted guest hfaulted
  · rw [hfloors]
    exact hraises.image
  · rintro i rfl record hrecord hid
    rw [hfloors]
    refine hraises.admitted i hadmitted.1 ?_ record hrecord hid
    rw [← hmonitor]
    exact hadmitted.2

theorem enforces (nvm : Nvm) (boot : Boot) : Enforces nvm boot := by
  cases hload : rollbackLoad boot.readable nvm with
  | none =>
    have heq : rollbackEnforce nvm boot = refuse boot none nvm boot.monitor := by
      simp only [rollbackEnforce, hload]
    exact .refused (by rw [heq]; rfl) (by rw [enforce, heq]; exact .refl _)
  | some table =>
    obtain rfl := rollbackLoad_some hload
    have hraises := enforceFloors_raises boot (floors nvm)
    by_cases hcheck : rollbackCheck boot.lifecycle boot.imageVersion (floors nvm).imageFloor = true
    case neg =>
      have heq : rollbackEnforce nvm boot =
          refuse boot (some (floors nvm).imageFloor) nvm boot.monitor := by
        simp only [rollbackEnforce, hload]
        rw [if_pos hcheck]
      exact .refused (by rw [heq]; rfl) (by rw [enforce, heq]; exact .refl _)
    case pos =>
      have heq : rollbackEnforce nvm boot = persist boot nvm (enforceFloors boot (floors nvm)) := by
        simp only [rollbackEnforce, hload]
        rw [if_neg (by simp [hcheck])]
      unfold persist at heq
      split at heq
      case isFalse hunchanged =>
        -- nothing moved, so the stored table still has the floors
        have htable := hraises.unchanged (by simpa using hunchanged)
        refine .passed hcheck (by rw [heq]) ?_
        rw [enforce, heq, htable]
      case isTrue =>
        cases hstore : boot.store with
        | stored =>
          rw [hstore, rollbackStore, if_pos rfl] at heq
          exact .passed hcheck (by rw [heq]) (by rw [enforce, heq]; rfl)
        | lost =>
          rw [hstore, rollbackStore, if_neg (by simp)] at heq
          exact .refused (by rw [heq]; rfl) (by rw [enforce, heq]; exact .refl _)
        | replaced =>
          rw [hstore, rollbackStore, if_neg (by simp)] at heq
          exact .refused (by rw [heq]; rfl) (by rw [enforce, heq]; exact hraises.below)

theorem floors_never_decrease (nvm : Nvm) (boots : List Boot) :
    Below (floors nvm) (floors (run enforce nvm boots)) := by
  induction boots generalizing nvm with
  | nil => exact .refl _
  | cons boot rest ih => exact (enforces nvm boot).below.trans (ih _)

theorem monitorInit_verified (p : Platform) (memory : Memory) (hguest : guest < p.guestCount) :
    ((monitorInit p memory []).runtime guest).state = .faulted ∨
      verifyGuestLaunch p memory guest = .ok () := by
  have hfold : ∀ (guests : List Nat) (s : Monitor), s.memory = memory →
      guest ∈ guests ∨ (s.runtime guest).state = .faulted ∨
        verifyGuestLaunch p memory guest = .ok () →
      ((guests.foldl (initGuest p) s).runtime guest).state = .faulted ∨
        verifyGuestLaunch p memory guest = .ok () := by
    intro guests
    induction guests with
    | nil => simp
    | cons first rest ih =>
      intro s hmemory hor
      obtain ⟨hkept, hother, hfirst⟩ := initGuest_spec p s first
      refine ih _ (hkept.trans hmemory) ?_
      by_cases heq : guest = first
      · subst heq
        rw [hmemory] at hfirst
        exact .inr (hfirst hguest)
      · rw [hother guest heq]
        refine hor.imp_left fun hmem => ?_
        exact (List.mem_cons.mp hmem).resolve_left heq
  exact hfold (List.range p.guestCount) (freshMonitor memory []) rfl
    (.inl (List.mem_range.mpr hguest))

theorem rollbackCheck_locked {lifecycle version floor : UInt32}
    (hlocked : rollbackLifecycleUnlocked lifecycle = false)
    (h : rollbackCheck lifecycle version floor = true) : floor ≤ version := by
  simpa [rollbackCheck, hlocked] using h

theorem Admitted.recorded (h : Admitted nvm boot guest)
    {config : LaunchConfig} (hconfig : boot.platform.configs[guest]? = some config)
    (hrequired : config.launchRequired ≠ 0) :
    ∃ record ∈ boot.platform.measurements, record.guestId.toNat = guest := by
  have hsmall : guest < 2 := Nat.lt_of_lt_of_le h.1 boot.guests
  have hverified : verifyGuestLaunch boot.platform boot.memory guest = .ok () := by
    refine (monitorInit_verified boot.platform boot.memory h.1).resolve_left ?_
    exact fun hfaulted => h.2 ((enforces nvm boot).faulted guest h.1 hfaulted)
  obtain ⟨-, record, -, hrecord, -⟩ :=
    MonitorLaunch.verifyGuestLaunch_authentic hconfig hrequired hverified
  refine ⟨record, List.mem_of_find?_eq_some hrecord, ?_⟩
  have hid := List.find?_some hrecord
  rw [beq_iff_eq] at hid
  rw [hid, UInt32.toNat_ofNat_of_lt' (Nat.lt_trans hsmall (by decide))]

/-- Over every sequence of boots the floors never decrease, and a boot with a
locked lifecycle admits a guest only with an image and a record at least as new
as those with which any earlier boot admitted it. A guest that must be measured
has such a record. -/
theorem anti_rollback (nvm : Nvm) (before : List Boot) (past : Boot)
    (between : List Boot) (now : Boot) (guest : Nat) :
    let first := run enforce nvm before
    let second := run enforce nvm (before ++ past :: between)
    Below (floors first) (floors second) ∧ (Admitted first past guest → Admitted second now guest →
        rollbackLifecycleUnlocked now.lifecycle = false →
        past.imageVersion ≤ now.imageVersion ∧
        (∀ old ∈ past.platform.measurements, old.guestId.toNat = guest →
          ∀ new ∈ now.platform.measurements, new.guestId.toNat = guest →
            old.version ≤ new.version) ∧
        ∀ config, now.platform.configs[guest]? = some config → config.launchRequired ≠ 0 →
          ∃ new ∈ now.platform.measurements, new.guestId.toNat = guest) := by
  intro first second
  have hsecond : second = run enforce (enforce first past) between := by simp [first, second, run]
  have hkept : Below (floors (enforce first past)) (floors second) :=
    hsecond ▸ floors_never_decrease _ between
  refine ⟨(enforces first past).below.trans hkept, fun hpast hnow hlocked => ?_⟩
  obtain ⟨-, himage, hrecords⟩ := (enforces first past).admits guest hpast
  obtain ⟨himage', -, hrecords'⟩ := (enforces second now).admits guest hnow
  have hguest : guest < guestMeasMaxRecords :=
    Nat.lt_of_lt_of_le hnow.1 (now.guests.trans (by decide))
  refine ⟨?_, fun old hold hid new hnew hid' => ?_, fun _ hconfig hrequired =>
    hnow.recorded hconfig hrequired⟩
  · exact UInt32.le_trans (UInt32.le_trans himage hkept.image)
      (rollbackCheck_locked hlocked himage')
  · obtain ⟨-, hraised⟩ := hrecords ⟨guest, hguest⟩ rfl old hold hid
    obtain ⟨hcheck, -⟩ := hrecords' ⟨guest, hguest⟩ rfl new hnew hid'
    exact UInt32.le_trans (UInt32.le_trans hraised (hkept.guest _))
      (rollbackCheck_locked hlocked hcheck)

/-- A boot in the secured lifecycle whose guest matches its record. -/
def sampleBoot (imageVersion : UInt32) : Boot :=
  { platform := samplePlatform
    guests := by decide
    memory := fun _ => 7
    imageVersion
    lifecycle := 0x3000
    readable := true
    store := .stored }

/-- Two boots admit the guest; the second image is not older, and one that is
would be refused. -/
theorem anti_rollback_sample : Admitted none (sampleBoot 4) 0 ∧
      Admitted (enforce none (sampleBoot 4)) (sampleBoot 5) 0 ∧
      (sampleBoot 4).imageVersion ≤ (sampleBoot 5).imageVersion ∧
      ¬Admitted (enforce none (sampleBoot 4)) (sampleBoot 3) 0 := by
  have hpast : Admitted none (sampleBoot 4) 0 := by decide +kernel
  have hnow : Admitted (enforce none (sampleBoot 4)) (sampleBoot 5) 0 := by decide +kernel
  refine ⟨hpast, hnow, ?_, fun hold => ?_⟩
  · exact ((anti_rollback none [] (sampleBoot 4) [] (sampleBoot 5) 0).2 hpast hnow (by decide)).1
  · have hle := ((anti_rollback none [] (sampleBoot 4) [] (sampleBoot 3) 0).2 hpast
      hold (by decide)).1
    exact absurd hle (by decide)

end WolfTrust.Rollback
