import WolfTrust.FabricWindows
import WolfTrust.MpuProtection
import WolfTrust.StepRuns

namespace WolfTrust.GuestCurtain

open Validation Domain Manifest DomainIsolation Pmsav8 SpmGate SpmSched
  GuestBinding FabricWindows MpuProtection StepRuns

def Writable (window : MemoryResource) : Prop :=
  anySet window.attributes memoryAttrWrite = true

structure Inside {σ : Type} (fabric : Fabric σ) (window : MemoryResource) : Prop where
  lower : fabric.extentBase ≤ window.base
  upper : window.base + window.size ≤ fabric.extentEnd

variable {window : MemoryResource}

theorem opens_iff {σ : Type} {fabric : Fabric σ} (h : WholeGranules window.base window.size) :
    fabric.opens window = true ↔ Writable window ∧ Inside fabric window := by
  have hstop : addPtr window.base window.size = window.base + window.size := addPtr_eq_of_le h.range
  have hpositive := h.positive
  simp only [Fabric.opens, hstop, Bool.and_eq_true, Bool.not_eq_true', Bool.or_eq_false_iff,
    decide_eq_false_iff_not, Nat.not_le, Nat.not_lt]
  constructor
  · rintro ⟨hwrite, ⟨-, hlower⟩, hupper⟩
    exact ⟨hwrite, hlower, hupper⟩
  · rintro ⟨hwrite, hlower, hupper⟩
    exact ⟨hwrite, ⟨by omega, hlower⟩, hupper⟩

theorem fabricApplyWindows_eq {σ : Type} (fabric : Fabric σ)
    (windows : List MemoryResource) (s : σ) :
    fabricApplyWindows fabric windows s =
      (windows.filter fabric.opens).foldl (fun s w => fabric.openWindow s w.base w.size)
        (fabric.closeAll s) := by
  rw [fabricApplyWindows, List.foldl_filter]

section Blocks

open FabricWindows.Stm32h563

variable {seccfgr : Gtzc}

def blockSecure (seccfgr : Gtzc) (block : Nat) : Bool :=
  (seccfgr (block / 32)).getLsbD (block % 32)

theorem blockSecure_clearBlock (seccfgr : Gtzc) (block other : Nat) :
    blockSecure (clearBlock seccfgr block) other =
      (blockSecure seccfgr other && decide (other ≠ block)) := by
  have hlt : other % 32 < 32 := Nat.mod_lt _ (by decide)
  unfold blockSecure clearBlock
  by_cases hword : other / 32 = block / 32
  · rw [hword, Function.update_self, BitVec.getLsbD_and, BitVec.getLsbD_not,
      BitVec.getLsbD_shiftLeft]
    have hone : ∀ i, (1 : BitVec 32).getLsbD i = decide (i = 0) := by
      intro i
      simp [BitVec.getLsbD_one]
    rw [hone]
    congr 1
    rw [Bool.eq_iff_iff]
    simp [hlt]
    omega
  · have hne : other ≠ block := fun heq => hword (by rw [heq])
    rw [Function.update_of_ne hword]
    simp [hne]

theorem blockSecure_clearBlocks (blocks : List Nat) (seccfgr : Gtzc) (other : Nat) :
    blockSecure (blocks.foldl clearBlock seccfgr) other =
      (blockSecure seccfgr other && decide (other ∉ blocks)) := by
  induction blocks generalizing seccfgr with
  | nil => simp
  | cons block blocks ih =>
    rw [List.foldl_cons, ih, blockSecure_clearBlock]
    by_cases heq : other = block
    · simp [heq]
    · simp [heq]

structure WholeBlocks (window : MemoryResource) : Prop where
  base : window.base % gtzcMpcbbBlock = 0
  stop : (window.base + window.size) % gtzcMpcbbBlock = 0

theorem nonsecure_gtzcOpenWindow (hblocks : WholeBlocks window)
    (hinside : Inside Stm32h563.fabric window) {address : Nat} (hram : ramNsBase ≤ address) :
    Stm32h563.nonsecure (gtzcOpenWindow seccfgr window.base window.size) address = true ↔
      Stm32h563.nonsecure seccfgr address = true ∨ Contains window address := by
  obtain ⟨hbase, hstop⟩ := hblocks
  have hlower : ramNsBase ≤ window.base := hinside.lower
  have hopened := blockSecure_clearBlocks (List.range' ((window.base - ramNsBase) / gtzcMpcbbBlock)
      ((window.base + window.size - ramNsBase + 511) / gtzcMpcbbBlock -
        (window.base - ramNsBase) / gtzcMpcbbBlock)) seccfgr
    ((address - ramNsBase) / gtzcMpcbbBlock)
  have hmem : (address - ramNsBase) / gtzcMpcbbBlock ∈
      List.range' ((window.base - ramNsBase) / gtzcMpcbbBlock)
        ((window.base + window.size - ramNsBase + 511) / gtzcMpcbbBlock -
          (window.base - ramNsBase) / gtzcMpcbbBlock) ↔ Contains window address := by
    rw [List.mem_range'_1]
    unfold Contains
    unfold gtzcMpcbbBlock ramNsBase at *
    omega
  change (!blockSecure _ _) = true ↔ (!blockSecure _ _) = true ∨ _
  unfold gtzcOpenWindow
  rw [hopened]
  by_cases hin : Contains window address
  · simp [hmem.mpr hin, hin]
  · simp [mt hmem.mp hin, hin]

theorem nonsecure_gtzcOpenWindows {windows : List MemoryResource}
    (hblocks : ∀ w ∈ windows, WholeBlocks w) (hinside : ∀ w ∈ windows, Inside Stm32h563.fabric w)
    {address : Nat} (hram : ramNsBase ≤ address) :
    Stm32h563.nonsecure
        (windows.foldl (fun s w => gtzcOpenWindow s w.base w.size) seccfgr) address = true ↔
      Stm32h563.nonsecure seccfgr address = true ∨ ∃ w ∈ windows, Contains w address := by
  induction windows generalizing seccfgr with
  | nil => simp
  | cons w windows ih =>
    rw [List.foldl_cons, ih (fun v hv => hblocks v (List.mem_cons_of_mem w hv))
      (fun v hv => hinside v (List.mem_cons_of_mem w hv)),
      nonsecure_gtzcOpenWindow (hblocks w List.mem_cons_self)
        (hinside w List.mem_cons_self) hram, or_assoc]
    simp

theorem nonsecure_gtzcCloseAll {address : Nat} (hlower : Stm32h563.fabric.extentBase ≤ address)
    (hupper : address < Stm32h563.fabric.extentEnd) :
    Stm32h563.nonsecure (gtzcCloseAll seccfgr) address = false := by
  change ramNsBase ≤ address at hlower
  change address < guest1RamBase + guestRamSize at hupper
  have hword : (address - ramNsBase) / gtzcMpcbbBlock / 32 < nsWords ∧
      (address - ramNsBase) / gtzcMpcbbBlock / 32 < 16 := by
    unfold nsWords
    unfold gtzcMpcbbBlock guest1RamBase guestRamSize ramNsBase at *
    omega
  have hones : ∀ i < 32, secureWord.getLsbD i = true := by decide
  have hbit := hones ((address - ramNsBase) / gtzcMpcbbBlock % 32) (Nat.mod_lt _ (by decide))
  unfold Stm32h563.nonsecure gtzcCloseAll
  dsimp only
  rw [if_pos hword, hbit]
  rfl

end Blocks

section Regions

open FabricWindows.Mimxrt700

theorem sauSetRegion_eq (base limit : Register) (nsc : Bool) : sauSetRegion base limit nsc =
      Region.encode base limit 0 ((if nsc then 2 else 0) ||| 1) := by
  have hzero : base &&& addressMask ||| 0 = base &&& addressMask := BitVec.or_zero
  unfold Region.encode
  rw [hzero, ← BitVec.or_assoc]
  rfl

def windowRegion (window : MemoryResource) : Region :=
  sauSetRegion (BitVec.ofNat 32 window.base) (MpuArmv8m.lastByte window.base window.size) false

variable {windows : List MemoryResource} {address : Nat}

theorem windowRegion_covers (h : WholeGranules window.base window.size) (hlt : address < 2 ^ 32) :
    (windowRegion window).covers (BitVec.ofNat 32 address) = true ↔ Contains window address := by
  rw [windowRegion, sauSetRegion_eq,
    covers_iff h (by decide) (by decide) (by decide), BitVec.toNat_ofNat,
    Nat.mod_eq_of_lt hlt]
  rfl

theorem windowRegion_open (window : MemoryResource) :
    (windowRegion window).rlar.getLsbD 1 = false := by
  rw [windowRegion, sauSetRegion_eq, Region.encode, getLsbD_masked _ _ (by decide)]
  decide

theorem sauRegions_apart {region : Region} (hregion : region ∈ sauRegions)
    (hlower : Mimxrt700.fabric.extentBase ≤ address)
    (hupper : address < Mimxrt700.fabric.extentEnd) :
    region.covers (BitVec.ofNat 32 address) = false := by
  change 0x20100000 ≤ address at hlower
  change address < 0x20180000 at hupper
  have hmod : (BitVec.ofNat 32 address).toNat = address := by
    rw [BitVec.toNat_ofNat, Nat.mod_eq_of_lt (by omega)]
  simp only [sauRegions, List.mem_cons, List.not_mem_nil, or_false] at hregion
  obtain rfl | rfl | rfl := hregion
  · rw [sauSetRegion_eq, Bool.eq_false_iff, Ne,
      covers_encode (by decide) (by decide) (by decide), hmod]
    have hbase : (BitVec.ofNat 32 guest0FlashBase).toNat = 0x28080000 := by decide
    omega
  · rw [sauSetRegion_eq, Bool.eq_false_iff, Ne,
      covers_encode (by decide) (by decide) (by decide), hmod]
    have hlimit : (BitVec.ofNat 32 nscEnd).toNat = 0x102003FF := by decide
    omega
  · rw [sauSetRegion_eq, Bool.eq_false_iff, Ne,
      covers_encode (by decide) (by decide) (by decide), hmod]
    have hbase : (BitVec.ofNat 32 lpuart0BaseNs).toNat = 0x40110000 := by decide
    omega

theorem covers_of_disabled {region : Region} (h : region.enabled = false)
    (address : Register) : region.covers address = false := by
  simp [Region.covers, h]

/-- What no dispatch changes: the port's own regions, and the one above those of
the windows. -/
structure Attributed (sau : Sau) : Prop where
  own : ∀ i (h : i < sauRegions.length), sau.regions i = sauRegions[i]
  rest : ∀ i, sauDynLast < i → i < sauRegionCount → (sau.regions i).enabled = false

/-- The unit with these windows open and no others. -/
structure Opened (windows : List MemoryResource) (sau : Sau) : Prop extends
    Attributed sau where
  next : sau.dynNext = sauDynFirst + windows.length
  open_ : ∀ i (h : i < windows.length), sau.regions (sauDynFirst + i) = windowRegion windows[i]
  closed : ∀ i, sauDynFirst + windows.length ≤ i → i ≤ sauDynLast → (sau.regions i).enabled = false

theorem attributed_sauInit (sau : Sau) : Attributed (sauInit sau) := by
  constructor
  case own =>
    intro i h
    simp only [sauInit, List.getD_eq_getElem?_getD, List.getElem?_eq_getElem h, Option.getD_some]
  case rest =>
    intro i hlast hcount
    have hlen : sauRegions.length = 3 := rfl
    have hout : sauRegions.length ≤ i := by
      unfold sauDynLast at hlast
      omega
    simp only [sauInit, List.getD_eq_getElem?_getD, List.getElem?_eq_none hout,
      Option.getD_none, if_pos hcount]
    exact BitVec.getLsbD_zero

theorem regions_sauProgramRegion (sau : Sau) (rnr : Nat) (base limit : Register)
    (nsc enable : Bool) {i : Nat} (h : i ≠ rnr) :
    (sauProgramRegion sau rnr base limit nsc enable).regions i = sau.regions i :=
  Function.update_of_ne h _ _

theorem opened_sauCloseAll {sau : Sau} (h : Attributed sau) : Opened [] (sauCloseAll sau) := by
  have hkept : ∀ i, i < 3 ∨ 6 < i → (sauCloseAll sau).regions i = sau.regions i := by
    intro i hi
    simp only [sauCloseAll, sauDynFirst, sauDynLast, List.range', List.foldl_cons, List.foldl_nil]
    rw [regions_sauProgramRegion _ _ _ _ _ _ (by omega),
      regions_sauProgramRegion _ _ _ _ _ _ (by omega),
      regions_sauProgramRegion _ _ _ _ _ _ (by omega),
      regions_sauProgramRegion _ _ _ _ _ _ (by omega)]
  constructor
  case toAttributed =>
    constructor
    case own =>
      intro i hi
      rw [hkept i (.inl hi), h.own i hi]
    case rest =>
      intro i hlast hcount
      rw [hkept i (.inr hlast)]
      exact h.rest i hlast hcount
  case next => rfl
  case open_ =>
    intro i hi
    cases hi
  case closed =>
    intro i hfirst hlast
    change 3 ≤ i at hfirst
    change i ≤ 6 at hlast
    have hcases : i = 3 ∨ i = 4 ∨ i = 5 ∨ i = 6 := by omega
    obtain rfl | rfl | rfl | rfl := hcases
    all_goals exact BitVec.getLsbD_zero

theorem opened_sauOpenWindow {sau : Sau}
    (h : Opened windows sau) (hroom : windows.length < 4) (window : MemoryResource) :
    Opened (windows ++ [window]) (sauOpenWindow sau window.base window.size) := by
  have hnext : sau.dynNext = 3 + windows.length := h.next
  have hdyn : sau.dynNext ≤ sauDynLast := by
    change sau.dynNext ≤ 6
    omega
  unfold sauOpenWindow
  rw [if_pos hdyn, hnext]
  have hself : (sauProgramRegion sau (3 + windows.length) (BitVec.ofNat 32 window.base)
      (MpuArmv8m.lastByte window.base window.size) false true).regions
        (3 + windows.length) = windowRegion window :=
    Function.update_self _ _ _
  constructor
  case toAttributed =>
    constructor
    case own =>
      intro i hi
      have hlen : sauRegions.length = 3 := rfl
      exact (regions_sauProgramRegion _ _ _ _ _ _ (by omega)).trans (h.own i hi)
    case rest =>
      intro i hlast hcount
      change 6 < i at hlast
      dsimp only
      rw [regions_sauProgramRegion _ _ _ _ _ _ (by omega)]
      exact h.rest i hlast hcount
  case next =>
    rw [List.length_append, List.length_singleton]
    rfl
  case open_ =>
    intro i hi
    rw [List.length_append, List.length_singleton] at hi
    obtain hlt | rfl : i < windows.length ∨ i = windows.length := by omega
    · rw [List.getElem_append_left hlt]
      refine (regions_sauProgramRegion _ _ _ _ _ _ ?_).trans (h.open_ i hlt)
      change 3 + i ≠ 3 + windows.length
      omega
    · rw [List.getElem_concat_length rfl]
      exact hself
  case closed =>
    intro i hfirst hlast
    rw [List.length_append, List.length_singleton] at hfirst
    change 3 + (windows.length + 1) ≤ i at hfirst
    dsimp only
    rw [regions_sauProgramRegion _ _ _ _ _ _ (by omega)]
    refine h.closed i ?_ hlast
    change 3 + windows.length ≤ i
    omega

theorem opened_sauOpenWindows {opened windows : List MemoryResource} {sau : Sau}
    (h : Opened opened sau) (hroom : opened.length + windows.length ≤ 4) :
    Opened (opened ++ windows) (windows.foldl (fun s w => sauOpenWindow s w.base w.size) sau) := by
  induction windows generalizing opened sau with
  | nil => rwa [List.append_nil]
  | cons w windows ih =>
    rw [List.length_cons] at hroom
    have hone := opened_sauOpenWindow h (by omega) w
    have hall := ih hone (by rw [List.length_append, List.length_singleton]; omega)
    rwa [List.append_assoc, List.singleton_append] at hall

def Apart (r s : MemoryResource) : Prop := ∀ address, Contains r address → ¬Contains s address

theorem index_eq_of_apart (h : windows.Pairwise Apart)
    {i j : Nat} (hi : i < windows.length) (hj : j < windows.length)
    (hleft : Contains windows[i] address) (hright : Contains windows[j] address) : i = j := by
  rw [List.pairwise_iff_getElem] at h
  rcases Nat.lt_trichotomy i j with hlt | heq | hgt
  · exact absurd hright (h i j hi hj hlt address hleft)
  · exact heq
  · exact absurd hleft (h j i hj hi hgt address hright)

theorem filter_range_eq_singleton {p : Nat → Bool} {n i : Nat}
    (h : ∀ j, j < n ∧ p j = true ↔ j = i) : (List.range n).filter p = [i] := by
  refine List.perm_singleton.mp
    ((List.perm_ext_iff_of_nodup (List.nodup_range.filter p) (List.nodup_singleton i)).mpr ?_)
  intro j
  rw [List.mem_filter, List.mem_range, List.mem_singleton]
  exact h j

theorem Opened.nonsecure_iff {sau : Sau} (h : Opened windows sau) (hroom : windows.length ≤ 4)
    (hwhole : ∀ w ∈ windows, WholeGranules w.base w.size) (happart : windows.Pairwise Apart)
    (hlower : Mimxrt700.fabric.extentBase ≤ address)
    (hupper : address < Mimxrt700.fabric.extentEnd) :
    Mimxrt700.nonsecure sau address = true ↔ ∃ w ∈ windows, Contains w address := by
  have hlt : address < 2 ^ 32 := by
    change address < 0x20180000 at hupper
    omega
  have hmatch : ∀ i, i < sauRegionCount ∧ (sau.regions i).covers (BitVec.ofNat 32 address) = true ↔
        ∃ k, ∃ hk : k < windows.length, i = sauDynFirst + k ∧ Contains windows[k] address := by
    intro i
    constructor
    · rintro ⟨hcount, hcovers⟩
      by_cases hown : i < sauRegions.length
      · rw [h.own i hown, sauRegions_apart (List.getElem_mem hown) hlower hupper] at hcovers
        cases hcovers
      have hfirst : sauDynFirst ≤ i := Nat.not_lt.mp hown
      by_cases hopen : i < sauDynFirst + windows.length
      · have hk : i - sauDynFirst < windows.length := by omega
        have hi : sauDynFirst + (i - sauDynFirst) = i := by omega
        have hregion := h.open_ (i - sauDynFirst) hk
        rw [hi] at hregion
        rw [hregion, windowRegion_covers (hwhole _ (List.getElem_mem hk)) hlt] at hcovers
        exact ⟨i - sauDynFirst, hk, hi.symm, hcovers⟩
      · have hoff : (sau.regions i).enabled = false := by
          by_cases hlast : i ≤ sauDynLast
          · exact h.closed i (Nat.not_lt.mp hopen) hlast
          · exact h.rest i (Nat.not_le.mp hlast) hcount
        rw [covers_of_disabled hoff] at hcovers
        cases hcovers
    · rintro ⟨k, hk, rfl, hin⟩
      refine ⟨?_, ?_⟩
      · change 3 + k < 8
        omega
      · rw [h.open_ k hk, windowRegion_covers (hwhole _ (List.getElem_mem hk)) hlt]
        exact hin
  by_cases hin : ∃ w ∈ windows, Contains w address
  · obtain ⟨w, hw, hcontains⟩ := hin
    obtain ⟨k, hk, rfl⟩ := List.getElem_of_mem hw
    have hone : sauMatches sau address = [sauDynFirst + k] := by
      refine filter_range_eq_singleton fun i => ?_
      rw [hmatch i]
      constructor
      · rintro ⟨j, hj, rfl, hother⟩
        rw [index_eq_of_apart happart hj hk hother hcontains]
      · rintro rfl
        exact ⟨k, hk, rfl, hcontains⟩
    have hopen : (sau.regions (sauDynFirst + k)).rlar.getLsbD 1 = false := by
      rw [h.open_ k hk, windowRegion_open]
    unfold Mimxrt700.nonsecure
    rw [hone]
    simp only [hopen, Bool.not_false, true_iff]
    exact ⟨windows[k], hw, hcontains⟩
  · have hnone : sauMatches sau address = [] := by
      refine List.filter_eq_nil_iff.mpr fun i hi hcovers => hin ?_
      obtain ⟨k, hk, -, hcontains⟩ := (hmatch i).mp ⟨List.mem_range.mp hi, hcovers⟩
      exact ⟨windows[k], List.getElem_mem hk, hcontains⟩
    unfold Mimxrt700.nonsecure
    rw [hnone]
    simp [hin]

end Regions

section Binding

variable {board : Board} {manifest : SystemManifest} {P : MemoryResource → Prop}

def device (resource : MemoryResource) : Bool := anySet resource.attributes memAttrDevice

/-- A port's rule for a resource: a window is kept as declared, and meets `P`. -/
structure Binds (bind : List MemoryResource × List MemoryRegion → MemoryResource →
    Option (List MemoryResource × List MemoryRegion)) (P : MemoryResource → Prop) : Prop where
  windows : ∀ {bound bound' resource}, bind bound resource = some bound' →
    bound'.1 = bound.1 ++ [resource].filter (!device ·)
  accepts : ∀ {bound bound' resource}, bind bound resource = some bound' →
    device resource = false → P resource

theorem Binds.fold {bind : List MemoryResource × List MemoryRegion → MemoryResource →
      Option (List MemoryResource × List MemoryRegion)}
    (h : Binds bind P) {resources : List MemoryResource}
    {bound bound' : List MemoryResource × List MemoryRegion}
    (hfold : resources.foldlM bind bound = some bound') :
    bound'.1 = bound.1 ++ resources.filter (!device ·) ∧
      ∀ r ∈ resources, device r = false → P r := by
  induction resources generalizing bound with
  | nil =>
    cases hfold
    simp
  | cons resource rest ih =>
    rw [List.foldlM_cons] at hfold
    obtain ⟨middle, hmiddle, hrest⟩ := Option.bind_eq_some_iff.mp hfold
    obtain ⟨hwindows, haccepts⟩ := ih hrest
    constructor
    · rw [hwindows, h.windows hmiddle, List.append_assoc, ← List.filter_append,
        List.singleton_append]
    · intro r hr hwindow
      obtain rfl | hr := List.mem_cons.mp hr
      · exact h.accepts hmiddle hwindow
      · exact haccepts r hr hwindow

theorem binds_stm32h563 (usartBase windowCount : Nat) :
    Binds (GuestBinding.bindResource usartBase windowCount) fun resource =>
      Writable resource → resource.base % gtzcMpcbbBlock = 0 ∧
        addPtr resource.base resource.size % gtzcMpcbbBlock = 0 := by
  constructor
  case windows =>
    intro bound bound' resource h
    unfold GuestBinding.bindResource at h
    split_ifs at h with hdevice <;> cases h <;> simp [device, hdevice]
  case accepts =>
    intro bound bound' resource h hwindow hwrite
    unfold GuestBinding.bindResource at h
    rw [if_neg (by simpa [device] using hwindow)] at h
    split_ifs at h with hcount hblocks
    simp only [not_and, not_or, not_not] at hblocks
    exact hblocks hwrite

theorem binds_mimxrt700 (usartBase windowCount : Nat) :
    Binds (Mimxrt700.bindResource usartBase windowCount) fun _ => True := by
  constructor
  case windows =>
    intro bound bound' resource h
    unfold Mimxrt700.bindResource at h
    split_ifs at h with hdevice <;> cases h <;> simp [device, hdevice]
  case accepts => exact fun _ _ => trivial

def declaredWindows (manifest : SystemManifest) (guestId : Nat) : List MemoryResource :=
  match manifest.domains.find? fun domain => domain.id == addPtr guestId 1 with
  | none => []
  | some domain => domain.memoryResources.filter (!device ·)

/-- A bound guest: its windows are its domain's. -/
structure Declared (manifest : SystemManifest) (P : MemoryResource → Prop)
    (config : GuestConfig) (guest : GuestConfig) (domain : DomainDescriptor) : Prop where
  find : manifest.domains.find? (fun d => d.id == addPtr guest.guestId 1) = some domain
  windows : guest.memoryWindows = domain.memoryResources.filter (!device ·)
  count : guest.memoryWindows.length = config.memoryWindows.length
  same : guest.guestId = config.guestId
  accepts : ∀ r ∈ domain.memoryResources, device r = false → P r

theorem bindGuestWith_declared
    {bind : Nat → Nat → List MemoryResource × List MemoryRegion → MemoryResource →
      Option (List MemoryResource × List MemoryRegion)}
    (hbinds : ∀ usartBase windowCount, Binds (bind usartBase windowCount) P)
    {config : GuestConfig} {guest : BoundGuest}
    (h : bindGuestWith bind board manifest config = some guest) :
    ∃ domain, Declared manifest P config guest.config domain := by
  obtain ⟨domain, usartBase, regions, hbound⟩ := bindGuestWith_eq_some h
  obtain ⟨hwindows, haccepts⟩ := (hbinds usartBase _).fold hbound.resources
  exact ⟨domain, by rw [hbound.same, hbound.find], hwindows, hbound.count, hbound.same, haccepts⟩

end Binding

theorem pairwise_apart {table : List MemoryResource}
    (h : checkWithPrior memoryResourceCheck [] table = .ok ()) : table.Pairwise Apart := by
  rw [List.pairwise_iff_getElem]
  intro i j hi hj hij address hleft hright
  have hrangeLeft := (memoryResourceValidate_eq_ok
    (memoryResourceValidate_of_mem h (List.getElem_mem hi))).1
  have hrangeRight := (memoryResourceValidate_eq_ok
    (memoryResourceValidate_of_mem h (List.getElem_mem hj))).1
  obtain ⟨before, hcheck, hmem⟩ := checkWithPrior_pair _ h hij hj
  have hapart := (memoryResourceCheck_eq_ok hcheck).2 _ hmem
  rw [overlap_of_contains hrangeRight hrangeLeft hright hleft] at hapart
  cases hapart

inductive Port
  | stm32h563
  | mimxrt700
  deriving DecidableEq, Repr

namespace Port

def State : Port → Type
  | stm32h563 => Stm32h563.Gtzc
  | mimxrt700 => Mimxrt700.Sau

def fabric : (port : Port) → Fabric port.State
  | stm32h563 => Stm32h563.fabric
  | mimxrt700 => Mimxrt700.fabric

/-- The attribution that the port's initialisation leaves, from any before it. -/
def init : (port : Port) → port.State → port.State
  | stm32h563 => Stm32h563.gtzcInit
  | mimxrt700 => Mimxrt700.sauInit

def nonsecure : (port : Port) → port.State → Nat → Bool
  | stm32h563 => Stm32h563.nonsecure
  | mimxrt700 => Mimxrt700.nonsecure

def partitionConfigs (port : Port) (board : Board) : List GuestConfig :=
  match port with
  | stm32h563 => Stm32h563.partitionConfigs board
  | mimxrt700 => Mimxrt700.partitionConfigs board

/-- `wt_partitions_bind_manifest` of the port, built for `maxGuests` guests. -/
def partitionsBindManifest (port : Port) (board : Board) (maxGuests : Nat)
    (manifest : SystemManifest) : Option (List BoundGuest) :=
  let configs := (port.partitionConfigs board).take maxGuests
  match port with
  | stm32h563 => GuestBinding.partitionsBindManifest board configs manifest
  | mimxrt700 => configs.mapM (bindGuestWith Mimxrt700.bindResource board manifest)

def dispatch (port : Port) (s : port.State) (guest : BoundGuest) : port.State :=
  fabricApplyWindows port.fabric guest.config.memoryWindows s

def Fits (port : Port) (window : MemoryResource) : Prop :=
  match port with
  | stm32h563 => Writable window → window.base % gtzcMpcbbBlock = 0 ∧
      addPtr window.base window.size % gtzcMpcbbBlock = 0
  | mimxrt700 => True

theorem bound_declared {port : Port} {board : Board} {maxGuests : Nat}
    {manifest : SystemManifest} {guests : List BoundGuest}
    (h : port.partitionsBindManifest board maxGuests manifest = some guests)
    {guest : BoundGuest} (hguest : guest ∈ guests) :
    ∃ config ∈ port.partitionConfigs board, ∃ domain,
      Declared manifest port.Fits config guest.config domain := by
  cases port with
  | stm32h563 =>
    obtain ⟨config, hconfig, hbind⟩ := mem_mapM h hguest
    exact ⟨config, List.mem_of_mem_take hconfig, bindGuestWith_declared binds_stm32h563 hbind⟩
  | mimxrt700 =>
    obtain ⟨config, hconfig, hbind⟩ := mem_mapM h hguest
    exact ⟨config, List.mem_of_mem_take hconfig, bindGuestWith_declared binds_mimxrt700 hbind⟩

theorem two_windows {port : Port} {board : Board} {config : GuestConfig}
    (h : config ∈ port.partitionConfigs board) : config.memoryWindows.length = 2 := by
  cases port with
  | stm32h563 =>
    simp only [partitionConfigs, Stm32h563.partitionConfigs, List.mem_cons,
      List.not_mem_nil, or_false] at h
    obtain rfl | rfl := h <;> rfl
  | mimxrt700 =>
    simp only [partitionConfigs, Mimxrt700.partitionConfigs, List.mem_cons,
      List.not_mem_nil, or_false] at h
    obtain rfl | rfl := h <;> rfl

theorem guestId_injective {port : Port} {board : Board} {config config' : GuestConfig}
    (h : config ∈ port.partitionConfigs board) (h' : config' ∈ port.partitionConfigs board)
    (hid : addPtr config.guestId 1 = addPtr config'.guestId 1) :
    config.guestId = config'.guestId := by
  have hsmall : ∀ c ∈ port.partitionConfigs board, c.guestId ≤ 1 := by
    intro c hc
    cases port with
    | stm32h563 =>
      simp only [partitionConfigs, Stm32h563.partitionConfigs, List.mem_cons,
        List.not_mem_nil, or_false] at hc
      obtain rfl | rfl := hc
      · exact Nat.zero_le 1
      · exact Nat.le_refl 1
    | mimxrt700 =>
      simp only [partitionConfigs, Mimxrt700.partitionConfigs, List.mem_cons,
        List.not_mem_nil, or_false] at hc
      obtain rfl | rfl := hc
      · exact Nat.zero_le 1
      · exact Nat.le_refl 1
  have hc := hsmall config h
  have hc' := hsmall config' h'
  unfold addPtr at hid
  omega

/-- What every dispatch of a port leaves as it is. -/
def Steady (port : Port) (s : port.State) : Prop :=
  match port, s with
  | stm32h563, _ => True
  | mimxrt700, sau => Attributed sau

theorem steady_init (port : Port) (s : port.State) : port.Steady (port.init s) := by
  cases port with
  | stm32h563 => trivial
  | mimxrt700 => exact attributed_sauInit s

/-- What a guest's windows are once the manifest was accepted and bound. -/
structure Sound (port : Port) (windows : List MemoryResource) : Prop where
  whole : ∀ w ∈ windows, WholeGranules w.base w.size
  apart : windows.Pairwise Apart
  few : windows.length ≤ 4
  fits : ∀ w ∈ windows, port.Fits w

theorem dispatch_nonsecure {port : Port} {guest : BoundGuest} {s : port.State}
    (hs : port.Steady s) (h : port.Sound guest.config.memoryWindows) :
    port.Steady (port.dispatch s guest) ∧
      ∀ address, port.fabric.extentBase ≤ address → address < port.fabric.extentEnd →
        (port.nonsecure (port.dispatch s guest) address = true ↔ ∃ w ∈ guest.config.memoryWindows,
            Writable w ∧ Inside port.fabric w ∧ Contains w address) := by
  have hopens : ∀ address,
      (∃ w ∈ guest.config.memoryWindows.filter port.fabric.opens, Contains w address) ↔
        ∃ w ∈ guest.config.memoryWindows,
          Writable w ∧ Inside port.fabric w ∧ Contains w address := by
    intro address
    constructor
    · rintro ⟨w, hw, hin⟩
      obtain ⟨hw, hopen⟩ := List.mem_filter.mp hw
      obtain ⟨hwrite, hinside⟩ := (opens_iff (h.whole w hw)).mp hopen
      exact ⟨w, hw, hwrite, hinside, hin⟩
    · rintro ⟨w, hw, hwrite, hinside, hin⟩
      exact ⟨w, List.mem_filter.mpr ⟨hw, (opens_iff (h.whole w hw)).mpr ⟨hwrite, hinside⟩⟩, hin⟩
  unfold dispatch
  rw [fabricApplyWindows_eq]
  cases port with
  | stm32h563 =>
    refine ⟨trivial, fun address hlower hupper => ?_⟩
    have hopened : ∀ w ∈ guest.config.memoryWindows.filter Stm32h563.fabric.opens,
        Writable w ∧ Inside Stm32h563.fabric w := fun w hw =>
      (opens_iff (h.whole w (List.mem_filter.mp hw).1)).mp (List.mem_filter.mp hw).2
    have hblocks : ∀ w ∈ guest.config.memoryWindows.filter Stm32h563.fabric.opens,
        WholeBlocks w := by
      intro w hw
      have hmem := (List.mem_filter.mp hw).1
      obtain ⟨hbase, hstop⟩ := h.fits w hmem (hopened w hw).1
      rw [addPtr_eq_of_le (h.whole w hmem).range] at hstop
      exact ⟨hbase, hstop⟩
    have hclosed : Stm32h563.nonsecure (Stm32h563.gtzcCloseAll s) address = false :=
      nonsecure_gtzcCloseAll hlower hupper
    have hiff := @nonsecure_gtzcOpenWindows (Stm32h563.gtzcCloseAll s) _ hblocks
      (fun w hw => (hopened w hw).2) address hlower
    rw [hclosed] at hiff
    simp only [Bool.false_eq_true, false_or] at hiff
    rw [← hopens address]
    exact hiff
  | mimxrt700 =>
    have hfew : (guest.config.memoryWindows.filter Mimxrt700.fabric.opens).length ≤ 4 :=
      (List.length_filter_le _ _).trans h.few
    have hclosed : Opened [] (Mimxrt700.sauCloseAll s) := opened_sauCloseAll hs
    have hopened := @opened_sauOpenWindows _
      (guest.config.memoryWindows.filter Mimxrt700.fabric.opens) _ hclosed
      (by simpa using hfew)
    rw [List.nil_append] at hopened
    refine ⟨hopened.toAttributed, fun address hlower hupper => ?_⟩
    rw [← hopens address]
    exact hopened.nonsecure_iff hfew (fun w hw => h.whole w (List.mem_filter.mp hw).1)
      (h.apart.sublist List.filter_sublist) hlower hupper

/-- The guests that a port bound to an accepted manifest. -/
structure Bound (port : Port) (board : Board) (maxGuests : Nat) (manifest : SystemManifest)
    (guests : List BoundGuest) : Prop where
  checked : DomainsChecked manifest.isolationProfile manifest.domains
  bound : port.partitionsBindManifest board maxGuests manifest = some guests

section Guests

variable {port : Port} {board : Board} {maxGuests : Nat} {manifest : SystemManifest}
  {guests : List BoundGuest} {guest : BoundGuest}

theorem Bound.windows (h : port.Bound board maxGuests manifest guests) (hguest : guest ∈ guests) :
    guest.config.memoryWindows = declaredWindows manifest guest.config.guestId := by
  obtain ⟨config, -, domain, hdeclared⟩ := bound_declared h.bound hguest
  rw [declaredWindows, hdeclared.find]
  exact hdeclared.windows

theorem Bound.sound (h : port.Bound board maxGuests manifest guests)
    (hguest : guest ∈ guests) : port.Sound guest.config.memoryWindows := by
  obtain ⟨config, hconfig, domain, hdeclared⟩ := bound_declared h.bound hguest
  have hdomain : domain ∈ manifest.domains := List.mem_of_find?_eq_some hdeclared.find
  have hresource : ∀ w ∈ guest.config.memoryWindows,
      w ∈ domain.memoryResources ∧ device w = false := by
    intro w hw
    rw [hdeclared.windows] at hw
    obtain ⟨hmem, hwindow⟩ := List.mem_filter.mp hw
    exact ⟨hmem, by simpa using hwindow⟩
  constructor
  case whole =>
    intro w hw
    exact wholeGranules_of_validate (h.checked.validate hdomain (hresource w hw).1)
  case apart =>
    rw [hdeclared.windows]
    exact (pairwise_apart (h.checked.resources domain hdomain)).sublist List.filter_sublist
  case few =>
    rw [hdeclared.count, two_windows hconfig]
    decide
  case fits => exact fun w hw => hdeclared.accepts w (hresource w hw).1 (hresource w hw).2

theorem Bound.meet (h : port.Bound board maxGuests manifest guests)
    (hguest : guest ∈ guests) {other : BoundGuest} (hother : other ∈ guests)
    (hne : other.config.guestId ≠ guest.config.guestId) {w v : MemoryResource}
    (hw : w ∈ guest.config.memoryWindows) (hv : v ∈ other.config.memoryWindows)
    {address : Nat} (hwa : Contains w address) (hva : Contains v address) :
    w = v ∧ anySet w.attributes memoryAttrShared = true ∧ w.shareId ≠ resourceShareNone := by
  obtain ⟨config, hconfig, domain, hdeclared⟩ := bound_declared h.bound hguest
  obtain ⟨config', hconfig', domain', hdeclared'⟩ := bound_declared h.bound hother
  obtain ⟨i, hi, hdomain⟩ := List.getElem_of_mem (List.mem_of_find?_eq_some hdeclared.find)
  obtain ⟨j, hj, hdomain'⟩ := List.getElem_of_mem (List.mem_of_find?_eq_some hdeclared'.find)
  rw [hdeclared.windows] at hw
  rw [hdeclared'.windows] at hv
  have hid : domain.id = addPtr guest.config.guestId 1 := by
    simpa using List.find?_some hdeclared.find
  have hid' : domain'.id = addPtr other.config.guestId 1 := by
    simpa using List.find?_some hdeclared'.find
  have hij : i ≠ j := by
    rintro rfl
    have hsame : domain = domain' := hdomain.symm.trans hdomain'
    rw [hsame, hid', hdeclared.same, hdeclared'.same] at hid
    rw [hdeclared.same, hdeclared'.same] at hne
    exact hne (guestId_injective hconfig' hconfig hid)
  exact (h.checked.meet hi hj hij (hdomain ▸ (List.mem_filter.mp hw).1)
    (hdomain' ▸ (List.mem_filter.mp hv).1) hwa hva).1

/-- The port's initialisation and the dispatches after it. -/
def dispatched (port : Port) (s : port.State) (order : List BoundGuest) : port.State :=
  run port.dispatch (port.init s) order

theorem Bound.steady (h : port.Bound board maxGuests manifest guests) (s : port.State)
    {order : List BoundGuest} (horder : ∀ g ∈ order, g ∈ guests) :
    port.Steady (port.dispatched s order) := by
  refine run_induction (P := fun _ g => g ∈ guests) ?_ (port.steady_init s) (along_of_forall horder)
  exact fun s g hs hg => (dispatch_nonsecure hs (h.sound hg)).1

end Guests

end Port

/-- While a guest is dispatched, the extent of the guests' RAM is open where the
guest declares a writable window that lies in the extent, and closed where another
guest declares one that the two do not share. -/
theorem guest_ram_curtain {port : Port} {board : Board} {maxGuests : Nat}
    {manifest : SystemManifest} {features : Word} {platform : ProfileCapabilities}
    {guests : List BoundGuest} (hvalid : manifestValidate manifest features platform = .ok ())
    (hbound : port.partitionsBindManifest board maxGuests manifest = some guests) (s : port.State)
    {earlier : List BoundGuest} (hearlier : ∀ g ∈ earlier, g ∈ guests) {guest : BoundGuest}
    (hguest : guest ∈ guests) :
    (∀ address, port.fabric.extentBase ≤ address → address < port.fabric.extentEnd →
      (port.nonsecure (port.dispatched s (earlier ++ [guest])) address = true ↔
        ∃ w ∈ declaredWindows manifest guest.config.guestId,
          Writable w ∧ Inside port.fabric w ∧ Contains w address)) ∧
    ∀ other ∈ guests, other.config.guestId ≠ guest.config.guestId →
      ∀ v ∈ declaredWindows manifest other.config.guestId, Writable v →
        (∀ w ∈ declaredWindows manifest guest.config.guestId, memoryResourcesShared w v = false) →
        ∀ address, port.fabric.extentBase ≤ address → address < port.fabric.extentEnd →
          Contains v address →
          port.nonsecure (port.dispatched s (earlier ++ [guest])) address = false := by
  have h : port.Bound board maxGuests manifest guests :=
    ⟨domainsChecked_of_manifestValidate hvalid, hbound⟩
  have hexact := (Port.dispatch_nonsecure (h.steady s hearlier) (h.sound hguest)).2
  rw [Port.dispatched, run_snoc]
  change ∀ address, _ → _ → (port.nonsecure
    (port.dispatch (run port.dispatch (port.init s) earlier) guest) address = true ↔ _) at hexact
  rw [← h.windows hguest]
  refine ⟨hexact, fun other hother hne v hv _ hunshared address hlower hupper hin => ?_⟩
  rw [← h.windows hother] at hv
  rw [Bool.eq_false_iff, Ne, hexact address hlower hupper]
  rintro ⟨w, hw, -, -, hwa⟩
  obtain ⟨rfl, hshared, hid⟩ := h.meet hguest hother hne hw hv hwa hin
  have hself : memoryResourcesShared w w = true := by simp [memoryResourcesShared, hshared, hid]
  rw [hunshared w hw] at hself
  cases hself

section Sample

def sampleGuestDomain (id code data : Nat) : DomainDescriptor :=
  { sampleDomain id .nonsecureApplication .none .nonsecure .privileged code data [] [] with
    restartPolicy :=
      { action := .domain, restartLimit := 3, restartWindowTicks := 64
        initialDelayTicks := 1 } }

/-- Two guests with a page each at the start of the port's RAM. -/
def curtainManifest (port : Port) : SystemManifest :=
  let ram := port.fabric.extentBase
  { sampleManifest with
    profileCapabilities := guestPlatform
    domains :=
      [sampleDomain 0 .spm .spm .secure .privileged 0x1000 0x2000 [] [],
        sampleGuestDomain 1 0x30000 ram,
        sampleGuestDomain 2 0x32000 (ram + 0x1000),
        sampleDomain 3 .securePartition .arot .secure .unprivileged 0x10000 0x11000 [] [],
        sampleDomain 4 .securePartition .prot .secure .unprivileged 0x20000 0x21000 []
          [{ interrupt := 5, attributes := 0, shareId := 0 }]]
    partitions := sampleManifest.partitions.map fun partition =>
      { partition with domainId := partition.domainId + 1 } }

def sampleGuests (port : Port) : List BoundGuest :=
  (port.partitionsBindManifest sampleBoard 2 (curtainManifest port)).getD []

def samplePage (port : Port) (guest : BoundGuest) : MemoryResource :=
  { base := port.fabric.extentBase + 0x1000 * guest.config.guestId, size := 0x1000
    attributes := memoryAttrRead ||| memoryAttrWrite, shareId := 0 }

/-- Each guest reaches its own page and not that of the other one, which ran before
it. -/
theorem guest_ram_curtain_sample :
    (∀ port : Port, (sampleGuests port).map (·.config.guestId) = [0, 1]) ∧
      ∀ port : Port, ∀ guest ∈ sampleGuests port, ∀ other ∈ sampleGuests port,
        other.config.guestId ≠ guest.config.guestId → ∀ s : port.State,
          let now := port.dispatched s [other, guest]
          port.nonsecure now (samplePage port guest).base = true ∧
            port.nonsecure now (samplePage port other).base = false := by
  refine ⟨fun port => by cases port <;> decide +kernel,
    fun port guest hguest other hother hne s => ?_⟩
  have hvalid : manifestValidate (curtainManifest port) manifestFeatureIpc guestPlatform =
      .ok () := by
    cases port <;> decide +kernel
  have hbound : port.partitionsBindManifest sampleBoard 2 (curtainManifest port) =
      some (sampleGuests port) := by
    cases port <;> decide +kernel
  have hpages : ∀ guest ∈ sampleGuests port,
      samplePage port guest ∈ declaredWindows (curtainManifest port) guest.config.guestId ∧
        port.fabric.extentBase ≤ (samplePage port guest).base ∧
        (samplePage port guest).base + 0x1000 ≤ port.fabric.extentEnd ∧
        ∀ w ∈ declaredWindows (curtainManifest port) guest.config.guestId,
          anySet w.attributes memoryAttrShared = false := by
    cases port <;> decide +kernel
  obtain ⟨hpage, hlower, hupper, hprivate⟩ := hpages guest hguest
  obtain ⟨hpage', hlower', hupper', -⟩ := hpages other hother
  have hwrite : ∀ g, Writable (samplePage port g) := fun g =>
    show anySet (memoryAttrRead ||| memoryAttrWrite) memoryAttrWrite = true by decide
  have hstart : ∀ g, Contains (samplePage port g) (samplePage port g).base := fun g =>
    ⟨Nat.le_refl _, Nat.lt_add_of_pos_right (show 0 < 0x1000 by decide)⟩
  obtain ⟨hexact, happart⟩ := guest_ram_curtain hvalid hbound s
    (show ∀ g ∈ [other], g ∈ sampleGuests port by simpa using hother) hguest
  constructor
  · exact (hexact _ hlower (by omega)).mpr ⟨_, hpage, hwrite guest, ⟨hlower, hupper⟩, hstart guest⟩
  · refine happart other hother hne _ hpage' (hwrite other) (fun w hw => ?_) _ hlower'
      (by omega) (hstart other)
    simp [memoryResourcesShared, hprivate w hw]

/-- The second guest has its data outside the RAM of the guests, in the pages of
the images. -/
def imageManifest : SystemManifest :=
  { curtainManifest .mimxrt700 with
    domains := (curtainManifest .mimxrt700).domains.set 2 (sampleGuestDomain 2 0x32000 0x28101000) }

/-- The attribution unit leaves the images open to every guest, so the first one
reaches the writable window of the second. -/
theorem image_window_reachable :
    let s : Port.mimxrt700.State := { regions := fun _ => ⟨0, 0⟩, dynNext := 0 }
    let guests := (Port.mimxrt700.partitionsBindManifest sampleBoard 2 imageManifest).getD []
    manifestValidate imageManifest manifestFeatureIpc guestPlatform = .ok () ∧
      guests.map (·.config.guestId) = [0, 1] ∧
      (∃ v ∈ declaredWindows imageManifest 1, anySet v.attributes memoryAttrWrite = true ∧
        (v.base, v.size) = (0x28101000, 0x1000) ∧
        ∀ w ∈ declaredWindows imageManifest 0, memoryResourcesShared w v = false) ∧
      ∀ guest ∈ guests, guest.config.guestId = 0 →
        Port.mimxrt700.nonsecure (Port.mimxrt700.dispatched s [guest]) 0x28101000 = true := by
  decide +kernel

end Sample

end WolfTrust.GuestCurtain
