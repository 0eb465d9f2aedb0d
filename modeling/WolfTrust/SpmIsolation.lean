import WolfTrust.SpmSched

namespace WolfTrust.SpmIsolation

open Domain FfmRuntime SpmGate SpmSched

/-- The end of `[base, base + size)`; none for a range that is empty or wraps. -/
def secureRange (base size : Nat) : Option Nat :=
  if size = 0 ∨ base > uintptrMax - size then none else some (base + size)

def secureRegionsOverlap (first second : MemoryRegion) : Bool :=
  match secureRange first.base first.size, secureRange second.base second.size with
  | some firstEnd, some secondEnd =>
    first.base < secondEnd && second.base < firstEnd
  | _, _ => false

def secureRegionWithin (region window : MemoryRegion) : Bool :=
  match secureRange region.base region.size, secureRange window.base window.size with
  | some regionEnd, some windowEnd =>
    region.base ≥ window.base && regionEnd ≤ windowEnd
  | _, _ => false

/-- A region that wraps the address space reaches everything. -/
def wraps (region : MemoryRegion) : Bool :=
  region.size != 0 && region.base > uintptrMax - region.size

def secureDomainExcludes (domain : SecureDomain) (base size : Nat) : Bool :=
  if domain.regions.length > maxMemoryRegions then false
  else
    domain.regions.all fun region =>
      !wraps region && !secureRegionsOverlap region { base, size, attributes := 0 }

def secureDomainsIsolated (first second : SecureDomain)
    (sharedWindows : List MemoryRegion) : Bool :=
  if first.regions.length > maxMemoryRegions ∨ second.regions.length > maxMemoryRegions then false
  else
    first.regions.all fun a => second.regions.all fun b =>
      !anySet (a.attributes ||| b.attributes) memAttrWrite || !secureRegionsOverlap a b ||
        sharedWindows.any fun window =>
          secureRegionWithin a window && secureRegionWithin b window

/-- The loop over the table: each slot against the SPM's ranges and against
every later slot. -/
def slotsValid (spmRam sharedWindows : List MemoryRegion) : List SpmSp → Bool
  | [] => true
  | slot :: later =>
    (spmRam.all fun range =>
      secureDomainExcludes slot.table range.base range.size) &&
    (later.all fun other =>
      secureDomainsIsolated slot.table other.table sharedWindows) &&
    slotsValid spmRam sharedWindows later

def spmSchedValidate (spmRam sharedWindows : List MemoryRegion)
    (slots : List SpmSp) : Except FfmError Unit :=
  if spmRam.length = 0 then .error .isolation
  else if slotsValid spmRam sharedWindows slots then .ok ()
  else .error .isolation

def vnetDataSize : Nat := 0x5000

/-- The constants of a port that place the SPM's memory (`memory_map.h` and
`l3_layout.h`): its RAM below the keystore, less the virtual network's band if
that is built in, and a band of RAM code if the port has one. -/
structure L3Layout where
  ramSBase : Nat
  spmRamSize : Nat
  configVnet : Bool
  ramfunc : Option (Nat × Nat)
  ram_fits : ramSBase + spmRamSize ≤ uintptrMax
  vnet_fits : vnetDataSize ≤ spmRamSize
  ramfunc_fits : ∀ band ∈ ramfunc, band.1 + band.2 ≤ uintptrMax

def L3Layout.firstBand (layout : L3Layout) : Nat :=
  let keystoreBase := layout.ramSBase + layout.spmRamSize
  if layout.configVnet then keystoreBase - vnetDataSize else keystoreBase

def spmPrivateRegions (layout : L3Layout) (max : Nat) : List MemoryRegion :=
  let ram : MemoryRegion :=
    { base := layout.ramSBase, size := layout.firstBand - layout.ramSBase
      attributes := memAttrRead ||| memAttrWrite }
  match layout.ramfunc with
  | none => if max < 1 then [] else [ram]
  | some (base, size) =>
    if max < 2 then []
    else [ram, { base, size, attributes := memAttrRead ||| memAttrExec }]

def stm32h563Layout (configVnet : Bool) : L3Layout :=
  { ramSBase := 0x30028000, spmRamSize := 0x4D000, configVnet, ramfunc := none
    ram_fits := by decide
    vnet_fits := by decide
    ramfunc_fits := fun _ h => by cases h }

def mimxrt700Layout (configVnet : Bool) : L3Layout :=
  { ramSBase := 0x30188000, spmRamSize := 0x4D000, configVnet
    ramfunc := some (0x10200000, 0x4000)
    ram_fits := by decide
    vnet_fits := by decide
    ramfunc_fits := by decide }

/-- The address is that of a byte of the region, counted around the top of the
address space. -/
def Covers (region : MemoryRegion) (x : Nat) : Prop :=
  ∃ i < region.size, (region.base + i) % 2 ^ 32 = x

def Accessible (table : SecureDomain) (x : Nat) : Prop :=
  ∃ region ∈ table.regions, Covers region x

def Writable (table : SecureDomain) (x : Nat) : Prop :=
  ∃ region ∈ table.regions, anySet region.attributes memAttrWrite = true ∧ Covers region x

section Ranges

variable {first second region window : MemoryRegion} {x : Nat}

theorem Covers.lt (h : Covers region x) : x < 2 ^ 32 := by
  obtain ⟨i, -, rfl⟩ := h
  exact Nat.mod_lt _ (by decide)

theorem wraps_eq_false_iff : wraps region = false ↔
      region.size = 0 ∨ region.base ≤ uintptrMax - region.size := by
  simp only [wraps, Bool.and_eq_false_iff, bne_eq_false_iff_eq,
    decide_eq_false_iff_not, not_lt, gt_iff_lt]

theorem Covers.bounds (h : Covers region x) (hwraps : wraps region = false) :
    region.base ≤ x ∧ x < region.base + region.size := by
  obtain ⟨i, hi, rfl⟩ := h
  rw [wraps_eq_false_iff, uintptrMax] at hwraps
  omega

theorem Covers.secureRange (h : Covers region x) (hwraps : wraps region = false) :
    secureRange region.base region.size = some (region.base + region.size) := by
  obtain ⟨i, hi, -⟩ := h
  rw [wraps_eq_false_iff] at hwraps
  refine if_neg fun hor => ?_
  omega

theorem overlap_of_covers (hfirst : Covers first x) (hsecond : Covers second x)
    (hwraps : wraps first = false) (hwraps' : wraps second = false) :
    secureRegionsOverlap first second = true := by
  have hbounds := hfirst.bounds hwraps
  have hbounds' := hsecond.bounds hwraps'
  simp only [secureRegionsOverlap, hfirst.secureRange hwraps,
    hsecond.secureRange hwraps', Bool.and_eq_true, decide_eq_true_eq]
  omega

theorem secureRange_eq_some {base size last : Nat}
    (h : SpmIsolation.secureRange base size = some last) : last = base + size := by
  unfold SpmIsolation.secureRange at h
  split at h
  · cases h
  · exact (Option.some.inj h).symm

theorem covers_of_within (h : secureRegionWithin region window = true) (hcovers : Covers region x)
    (hwraps : wraps region = false) : Covers window x := by
  have hbounds := hcovers.bounds hwraps
  have hlt := hcovers.lt
  unfold secureRegionWithin at h
  split at h
  · rename_i regionEnd windowEnd hregion hwindow
    rw [secureRange_eq_some hregion, secureRange_eq_some hwindow] at h
    simp only [Bool.and_eq_true, decide_eq_true_eq] at h
    refine ⟨x - window.base, by omega, ?_⟩
    rw [Nat.add_sub_cancel' (by omega)]
    exact Nat.mod_eq_of_lt hlt
  · cases h

end Ranges

section Tables

variable {first second table : SecureDomain} {sharedWindows spmRam : List MemoryRegion}
  {slots : List SpmSp} {x : Nat} {flags flags' mask : Word}

theorem secureDomainExcludes_eq_true {base size : Nat}
    (h : secureDomainExcludes table base size = true) :
    ∀ region ∈ table.regions, wraps region = false ∧
      secureRegionsOverlap region { base, size, attributes := 0 } = false := by
  unfold secureDomainExcludes at h
  split at h
  · cases h
  · simpa using h

theorem not_accessible_of_excludes {range : MemoryRegion}
    (h : secureDomainExcludes table range.base range.size = true) (hwraps : wraps range = false)
    (hcovers : Covers range x) : ¬ Accessible table x := by
  rintro ⟨region, hregion, hx⟩
  obtain ⟨hregionWraps, hdisjoint⟩ :=
    secureDomainExcludes_eq_true h region hregion
  have hoverlap := overlap_of_covers hx
    (show Covers { range with attributes := 0 } x from hcovers) hregionWraps
    hwraps
  rw [hoverlap] at hdisjoint
  cases hdisjoint

theorem anySet_or_of_left
    (h : anySet flags mask = true) : anySet (flags ||| flags') mask = true := by
  simp only [anySet, bne_iff_ne] at h ⊢
  intro hzero
  apply h
  rw [BitVec.and_or_distrib_right] at hzero
  exact (BitVec.or_eq_zero_iff.mp hzero).1

theorem anySet_or_of_right (h : anySet flags' mask = true) :
    anySet (flags ||| flags') mask = true := by
  rw [BitVec.or_comm]
  exact anySet_or_of_left h

theorem shared_of_isolated (h : secureDomainsIsolated first second sharedWindows = true)
    (hfirst : ∀ region ∈ first.regions, wraps region = false)
    (hsecond : ∀ region ∈ second.regions, wraps region = false) {a b : MemoryRegion}
    (ha : a ∈ first.regions) (hb : b ∈ second.regions)
    (hwrite : anySet (a.attributes ||| b.attributes) memAttrWrite = true) (hxa : Covers a x)
    (hxb : Covers b x) : ∃ window ∈ sharedWindows, Covers window x := by
  unfold secureDomainsIsolated at h
  split at h
  · cases h
  · have hpair := List.all_eq_true.mp (List.all_eq_true.mp h a ha) b hb
    rw [hwrite, overlap_of_covers hxa hxb (hfirst a ha) (hsecond b hb)] at hpair
    obtain ⟨window, hwindow, hwithin⟩ := List.any_eq_true.mp hpair
    exact ⟨window, hwindow, covers_of_within (Bool.and_eq_true_iff.mp hwithin).1 hxa (hfirst a ha)⟩

theorem slotsValid_excludes (h : slotsValid spmRam sharedWindows slots = true) :
    ∀ slot ∈ slots, ∀ range ∈ spmRam,
      secureDomainExcludes slot.table range.base range.size = true := by
  induction slots with
  | nil =>
    intro slot hslot
    cases hslot
  | cons head later ih =>
    simp only [slotsValid, Bool.and_eq_true] at h
    intro slot hslot
    rcases List.mem_cons.mp hslot with rfl | hlater
    · exact List.all_eq_true.mp h.1.1
    · exact ih h.2 slot hlater

theorem slotsValid_pairwise (h : slotsValid spmRam sharedWindows slots = true) :
    slots.Pairwise fun slot other =>
      secureDomainsIsolated slot.table other.table sharedWindows = true := by
  induction slots with
  | nil => exact .nil
  | cons head later ih =>
    simp only [slotsValid, Bool.and_eq_true] at h
    exact .cons (List.all_eq_true.mp h.1.2) (ih h.2)

theorem spmSchedValidate_eq_ok (h : spmSchedValidate spmRam sharedWindows slots = .ok ()) :
    spmRam ≠ [] ∧ slotsValid spmRam sharedWindows slots = true := by
  unfold spmSchedValidate at h
  split at h
  · cases h
  · rename_i hlength
    split at h
    · rename_i hvalid
      exact ⟨fun hnil => hlength (congrArg List.length hnil), hvalid⟩
    · cases h

theorem regions_not_wrap (h : spmSchedValidate spmRam sharedWindows slots = .ok ()) :
    ∀ slot ∈ slots, ∀ region ∈ slot.table.regions, wraps region = false := by
  obtain ⟨hram, hvalid⟩ := spmSchedValidate_eq_ok h
  obtain ⟨range, hrange⟩ := List.exists_mem_of_ne_nil spmRam hram
  intro slot hslot region hregion
  exact (secureDomainExcludes_eq_true
    (slotsValid_excludes hvalid slot hslot range hrange) region hregion).1

end Tables

theorem spmPrivateRegions_not_wrap (layout : L3Layout) (max : Nat) :
    ∀ range ∈ spmPrivateRegions layout max, wraps range = false := by
  have hram := layout.ram_fits
  have hfirst : layout.firstBand ≤ layout.ramSBase + layout.spmRamSize := by
    unfold L3Layout.firstBand
    dsimp only
    split <;> omega
  have hbelow : layout.ramSBase ≤ layout.firstBand := by
    have hvnet := layout.vnet_fits
    unfold L3Layout.firstBand
    dsimp only
    split <;> omega
  have hramWraps : wraps
      { base := layout.ramSBase, size := layout.firstBand - layout.ramSBase
        attributes := memAttrRead ||| memAttrWrite } = false :=
    wraps_eq_false_iff.mpr (.inr (by dsimp only; omega))
  intro range hrange
  unfold spmPrivateRegions at hrange
  dsimp only at hrange
  split at hrange
  · split at hrange
    · cases hrange
    · rw [List.mem_singleton.mp hrange]
      exact hramWraps
  · rename_i base size hfunc
    have hfits := layout.ramfunc_fits (base, size) hfunc
    split at hrange
    · cases hrange
    · simp only [List.mem_cons, List.not_mem_nil, or_false] at hrange
      rcases hrange with rfl | rfl
      · exact hramWraps
      · exact wraps_eq_false_iff.mpr (.inr (by dsimp only at hfits ⊢; omega))

/-- Tables that pass the boot check: no partition reaches the SPM's memory, and
an address that one partition can write and another reaches is in a shared
window. The tables are arbitrary, as are the windows. -/
theorem scheduled_tables_isolated (layout : L3Layout) (max : Nat)
    (sharedWindows : List MemoryRegion) (slots : List SpmSp)
    (h : spmSchedValidate (spmPrivateRegions layout max) sharedWindows slots = .ok ()) (x : Nat) :
    (∀ slot ∈ slots, ∀ range ∈ spmPrivateRegions layout max,
      Covers range x → ¬ Accessible slot.table x) ∧
    ∀ i j : Fin slots.length, i ≠ j → Writable (slots.get i).table x →
      Accessible (slots.get j).table x → ∃ window ∈ sharedWindows, Covers window x := by
  obtain ⟨-, hvalid⟩ := spmSchedValidate_eq_ok h
  have hwraps := regions_not_wrap h
  refine ⟨fun slot hslot range hrange hcovers => ?_, ?_⟩
  · exact not_accessible_of_excludes (slotsValid_excludes hvalid slot hslot range hrange)
      (spmPrivateRegions_not_wrap layout max range hrange) hcovers
  · rintro i j hij ⟨a, ha, hwrite, hxa⟩ ⟨b, hb, hxb⟩
    have hpairs := List.pairwise_iff_get.mp (slotsValid_pairwise hvalid)
    have hi := hwraps _ (List.get_mem slots i)
    have hj := hwraps _ (List.get_mem slots j)
    -- the loop compares each pair once, the earlier slot first
    rcases lt_or_gt_of_ne hij with hlt | hgt
    · exact shared_of_isolated (hpairs i j hlt) hi hj ha hb (anySet_or_of_left hwrite) hxa hxb
    · exact shared_of_isolated (hpairs j i hgt) hj hi hb ha (anySet_or_of_right hwrite) hxb hxa

/-- Two partitions with a private band each, on the port with RAM code. -/
def isolatedSlots : List SpmSp :=
  [{ co := 1, partitionId := 2, partitionIndex := ⟨0, by decide⟩
     table := { domainId := 2
                regions := [{ base := 0x301D5000, size := 0x2000
                              attributes := memAttrRead ||| memAttrWrite }] } },
   { co := 2, partitionId := 3, partitionIndex := ⟨1, by decide⟩
     table := { domainId := 3
                regions := [{ base := 0x301D7000, size := 0x800
                              attributes := memAttrRead ||| memAttrWrite }] } }]

theorem scheduled_tables_isolated_sample :
    spmSchedValidate (spmPrivateRegions (mimxrt700Layout false) 2) [] isolatedSlots = .ok () ∧
      Writable (isolatedSlots.get ⟨0, by decide⟩).table 0x301D6FFF ∧
      ¬ Accessible (isolatedSlots.get ⟨1, by decide⟩).table 0x301D6FFF := by
  have haccept : spmSchedValidate (spmPrivateRegions (mimxrt700Layout false) 2)
      [] isolatedSlots = .ok () := by decide +kernel
  have hwrite : Writable (isolatedSlots.get ⟨0, by decide⟩).table 0x301D6FFF :=
    ⟨{ base := 0x301D5000, size := 0x2000
       attributes := memAttrRead ||| memAttrWrite }, List.mem_singleton_self _,
      by decide, 0x1FFF, by decide, by decide⟩
  refine ⟨haccept, hwrite, fun haccess => ?_⟩
  obtain ⟨window, hwindow, -⟩ := (scheduled_tables_isolated
    (mimxrt700Layout false) 2 [] isolatedSlots haccept 0x301D6FFF).2
    ⟨0, by decide⟩ ⟨1, by decide⟩ (by decide) hwrite haccess
  cases hwindow

end WolfTrust.SpmIsolation
