import WolfTrust.GuestMonitor
import WolfTrust.IntervalCover

namespace WolfTrust.FlashProtection

open Domain IntervalCover GuestMonitor

/-- `wt_frad_region_t`. Both addresses are inclusive. -/
structure FradRegion where
  start : Word
  endAddr : Word
  writeAcp : Word
  valid : Word
  locked : Word
  deriving DecidableEq, Repr

def fradRegionDeniesWrite (region : FradRegion) : Bool :=
  region.valid != 0 && region.locked != 0 && region.writeAcp == 0

/-- The steps of the cursor; whether the window's last address was reached. -/
def fradWalk (regions : List FradRegion) (last : Word) : Nat → Word → Bool
  | 0, _ => false
  | steps + 1, cursor =>
    match regions.find? fun region => fradRegionDeniesWrite region &&
        decide (region.start ≤ cursor) && decide (cursor ≤ region.endAddr) with
    | none => false
    | some region =>
      if last ≤ region.endAddr then true
      else fradWalk regions last steps (region.endAddr + 1)

def guestFlashFradCovers (regions : Option (List FradRegion))
    (windowBase windowSize : Word) : Except VerifyError Unit :=
  match regions with
  | none => .error .argument
  | some regions =>
    if regions.length = 0 ∨ windowSize = 0 then .error .argument
    else
      let last := windowBase + windowSize - 1
      if last < windowBase then .error .argument
      else if regions.any fun region => region.valid != 0 &&
          decide (region.start ≤ last) && decide (windowBase ≤ region.endAddr) &&
          !fradRegionDeniesWrite region then .error .wrp
      else if fradWalk regions last regions.length windowBase then .ok ()
      else .error .wrp

/-- A set bit of the map is a group that is not protected. -/
def guestFlashWrpCovers (wrpBitmap windowBase windowSize bankBase sectorSize
    sectorsPerGroup : Word) : Except VerifyError Unit :=
  if windowSize = 0 ∨ sectorSize = 0 ∨ sectorsPerGroup = 0 ∨
      windowBase < bankBase then .error .argument
  else
    let offset := windowBase - bankBase
    let firstGroup := offset / sectorSize / sectorsPerGroup
    let lastGroup := (offset + windowSize - 1) / sectorSize / sectorsPerGroup
    if 32 ≤ lastGroup then .error .layout
    else if (List.range' firstGroup.toNat (lastGroup.toNat + 1 - firstGroup.toNat)).any fun group =>
          (wrpBitmap &&& BitVec.twoPow 32 group) != 0 then .error .wrp
    else .ok ()

def InWindow (windowBase windowSize : Word) (a : Nat) : Prop :=
  windowBase.toNat ≤ a ∧ a < windowBase.toNat + windowSize.toNat

def InRegion (region : FradRegion) (a : Nat) : Prop :=
  region.start.toNat ≤ a ∧ a ≤ region.endAddr.toNat

/-- The window has addresses, and they end in the address space. -/
structure Window (windowBase windowSize : Word) : Prop where
  nonempty : windowSize ≠ 0
  fits : windowBase.toNat + windowSize.toNat ≤ 2 ^ 32

section Window

variable {windowBase windowSize : Word} (h : Window windowBase windowSize)

include h

theorem Window.pos : 0 < windowSize.toNat := by
  refine Nat.pos_of_ne_zero fun hzero => h.nonempty ?_
  exact BitVec.eq_of_toNat_eq hzero

theorem Window.last_toNat : (windowBase + windowSize - 1).toNat =
      windowBase.toNat + windowSize.toNat - 1 := by
  have hpos := h.pos
  have hfits := h.fits
  have hone : (1 : Word).toNat = 1 := rfl
  rw [BitVec.toNat_sub, BitVec.toNat_add, hone]
  omega

end Window

section Descriptors

theorem fradWalk_eq (regions : List FradRegion) (last : Word) (steps : Nat) (cursor : Word) :
    fradWalk regions last steps cursor =
      walk (fun region => region.start.toNat) (fun region => region.endAddr.toNat)
        (regions.filter fradRegionDeniesWrite) last.toNat steps cursor.toNat := by
  induction steps generalizing cursor with
  | zero => rfl
  | succ steps ih =>
    have hfind : (regions.filter fradRegionDeniesWrite).find? (fun region =>
        decide (region.start.toNat ≤ cursor.toNat ∧ cursor.toNat ≤ region.endAddr.toNat)) =
        regions.find? fun region => fradRegionDeniesWrite region &&
          decide (region.start ≤ cursor) &&
          decide (cursor ≤ region.endAddr) := by
      rw [List.find?_filter]
      congr 1
      funext region
      simp [BitVec.le_def, Bool.and_assoc]
    rw [fradWalk, walk, hfind]
    generalize regions.find? _ = found
    cases found with
    | none => rfl
    | some region =>
    dsimp only
    by_cases hreached : last ≤ region.endAddr
    · rw [if_pos hreached, if_pos (BitVec.le_def.mp hreached)]
    · have hlt : region.endAddr.toNat < last.toNat := by
        rw [← Nat.not_le, ← BitVec.le_def]
        exact hreached
      have hone : (1 : Word).toNat = 1 := rfl
      have hnext : (region.endAddr + 1).toNat = region.endAddr.toNat + 1 := by
        rw [BitVec.toNat_add, hone]
        exact Nat.mod_eq_of_lt (by have := last.isLt; omega)
      rw [if_neg hreached, if_neg (mt BitVec.le_def.mpr hreached), ih, hnext]

/-- A region that is usable denies writes until the next reset. -/
def DeniesWrites (region : FradRegion) : Prop :=
  region.valid ≠ 0 ∧ region.locked ≠ 0 ∧ region.writeAcp = 0

theorem deniesWrite_iff (region : FradRegion) :
    fradRegionDeniesWrite region = true ↔ DeniesWrites region := by
  simp [fradRegionDeniesWrite, DeniesWrites, and_assoc]

theorem intersects_iff {region : FradRegion} {windowBase windowSize : Word}
    (h : Window windowBase windowSize) (hregion : region.start ≤ region.endAddr) :
    (∃ a, InWindow windowBase windowSize a ∧ InRegion region a) ↔
      region.start ≤ windowBase + windowSize - 1 ∧ windowBase ≤ region.endAddr := by
  have hpos := h.pos
  rw [BitVec.le_def] at hregion
  rw [BitVec.le_def, BitVec.le_def, h.last_toNat]
  constructor
  · rintro ⟨a, hwindow, hin⟩
    obtain ⟨hfirst, hlast⟩ := hwindow
    obtain ⟨hstart, hend⟩ := hin
    omega
  · intro hboth
    refine ⟨max windowBase.toNat region.start.toNat, ⟨?_, ?_⟩, ?_, ?_⟩ <;> omega

theorem fradCovers_iff {regions : List FradRegion} {windowBase windowSize : Word}
    (h : Window windowBase windowSize)
    (hregions : ∀ region ∈ regions, region.start ≤ region.endAddr) :
    guestFlashFradCovers (some regions) windowBase windowSize = .ok () ↔
      (∀ a, InWindow windowBase windowSize a →
        ∃ region ∈ regions, DeniesWrites region ∧ InRegion region a) ∧
      ∀ region ∈ regions, region.valid ≠ 0 →
        (∃ a, InWindow windowBase windowSize a ∧ InRegion region a) →
        DeniesWrites region := by
  have hpos := h.pos
  have hlast := h.last_toNat
  have hcovers : fradWalk regions (windowBase + windowSize - 1) regions.length windowBase = true ↔
      ∀ a, InWindow windowBase windowSize a →
        ∃ region ∈ regions, DeniesWrites region ∧ InRegion region a := by
    rw [fradWalk_eq, walk_iff (by omega) (List.length_filter_le _ _)]
    refine forall_congr' fun a => ?_
    have hwindow : InWindow windowBase windowSize a ↔
        windowBase.toNat ≤ a ∧ a ≤ (windowBase + windowSize - 1).toNat := by
      unfold InWindow
      omega
    rw [hwindow, and_imp]
    simp only [List.mem_filter, deniesWrite_iff, and_assoc]
    rfl
  have hmeets : (regions.any fun region => region.valid != 0 &&
        decide (region.start ≤ windowBase + windowSize - 1) &&
        decide (windowBase ≤ region.endAddr) &&
        !fradRegionDeniesWrite region) = false ↔
      ∀ region ∈ regions, region.valid ≠ 0 →
        (∃ a, InWindow windowBase windowSize a ∧ InRegion region a) →
        DeniesWrites region := by
    rw [List.any_eq_false]
    refine forall₂_congr fun region hmem => ?_
    rw [intersects_iff h (hregions region hmem), ← deniesWrite_iff]
    simp only [Bool.and_eq_true, bne_iff_ne, decide_eq_true_eq, Bool.not_eq_true',
      not_and, Bool.not_eq_false, and_imp]
  have hnowrap : ¬windowBase + windowSize - 1 < windowBase := by
    rw [BitVec.lt_def, hlast]
    omega
  unfold guestFlashFradCovers
  dsimp only
  rw [← hmeets, ← hcovers]
  by_cases hnone : regions.length = 0
  · rw [if_pos (.inl hnone), hnone]
    exact iff_of_false nofun fun h => by cases h.1
  rw [if_neg (not_or.mpr ⟨hnone, h.nonempty⟩), if_neg hnowrap]
  split_ifs with hany hwalk
  · exact iff_of_false nofun fun h => by rw [h.2] at hany; cases hany
  · exact iff_of_true rfl ⟨hwalk, by simpa using hany⟩
  · exact iff_of_false nofun fun h => hwalk h.1

end Descriptors

section Groups

variable {wrpBitmap windowBase windowSize bankBase sectorSize sectorsPerGroup : Word}

def InSector (bankBase sectorSize : Word) (sector a : Nat) : Prop :=
  bankBase.toNat + sector * sectorSize.toNat ≤ a ∧
    a < bankBase.toNat + (sector + 1) * sectorSize.toNat

def InGroup (sectorsPerGroup : Word) (group sector : Nat) : Prop :=
  group * sectorsPerGroup.toNat ≤ sector ∧ sector < (group + 1) * sectorsPerGroup.toNat

/-- The address lies in a sector of one of the 32 groups, and the bit of that
group is clear. -/
def Protected (wrpBitmap bankBase sectorSize sectorsPerGroup : Word) (a : Nat) : Prop :=
  ∃ sector group, InSector bankBase sectorSize sector a ∧
    InGroup sectorsPerGroup group sector ∧ group < 32 ∧
    wrpBitmap.getLsbD group = false

def groupOf (bankBase sectorSize sectorsPerGroup : Word) (a : Nat) : Nat :=
  (a - bankBase.toNat) / sectorSize.toNat / sectorsPerGroup.toNat

theorem div_eq_of_between {x unit n : Nat} (hlow : n * unit ≤ x)
    (hhigh : x < (n + 1) * unit) : 0 < unit ∧ x / unit = n := by
  have hunit : 0 < unit := by
    refine Nat.pos_of_ne_zero fun hzero => ?_
    rw [hzero] at hhigh
    omega
  rw [Nat.add_mul] at hhigh
  refine ⟨hunit, (Nat.div_eq_iff hunit).mpr ⟨hlow, by omega⟩⟩

theorem between_div {x unit : Nat} (hunit : 0 < unit) :
    x / unit * unit ≤ x ∧ x < (x / unit + 1) * unit := by
  obtain ⟨hlow, hhigh⟩ := (Nat.div_eq_iff hunit).mp (rfl : x / unit = x / unit)
  refine ⟨hlow, ?_⟩
  rw [Nat.add_mul]
  omega

theorem protected_iff {a : Nat} : Protected wrpBitmap bankBase sectorSize sectorsPerGroup a ↔
      0 < sectorSize.toNat ∧ 0 < sectorsPerGroup.toNat ∧ bankBase.toNat ≤ a ∧
        groupOf bankBase sectorSize sectorsPerGroup a < 32 ∧
        wrpBitmap.getLsbD (groupOf bankBase sectorSize sectorsPerGroup a) =
          false := by
  unfold groupOf
  constructor
  · rintro ⟨sector, group, ⟨hlow, hhigh⟩, ⟨hfirst, hlast⟩, hgroup, hbit⟩
    obtain ⟨hsize, hsector⟩ := div_eq_of_between
      (Nat.le_sub_of_add_le' hlow : _ ≤ a - bankBase.toNat) (by omega)
    obtain ⟨hper, hindex⟩ := div_eq_of_between hfirst hlast
    rw [hsector, hindex]
    exact ⟨hsize, hper, by omega, hgroup, hbit⟩
  · rintro ⟨hsize, hper, hbank, hgroup, hbit⟩
    obtain ⟨hlow, hhigh⟩ := @between_div (a - bankBase.toNat) _ hsize
    exact ⟨_, _, ⟨by omega, by omega⟩, between_div hper, hgroup, hbit⟩

theorem wrp_bit_iff {group : Nat} (h : group < 32) : (wrpBitmap &&& BitVec.twoPow 32 group) ≠ 0 ↔
      wrpBitmap.getLsbD group = true := by
  rw [BitVec.and_twoPow]
  cases wrpBitmap.getLsbD group with
  | false => simp
  | true =>
    refine iff_of_true (fun hzero => ?_) rfl
    have hbit := congrArg (BitVec.getLsbD · group) hzero
    simp [h] at hbit

theorem exists_in_group {bank unit first last group : Nat} (hunit : 0 < unit)
    (hbank : bank ≤ first) (hle : first ≤ last) (hfirst : (first - bank) / unit ≤ group)
    (hlast : group ≤ (last - bank) / unit) :
    ∃ a, first ≤ a ∧ a ≤ last ∧ (a - bank) / unit = group := by
  have hstart : group * unit ≤ last - bank := (Nat.le_div_iff_mul_le hunit).mp hlast
  by_cases hbefore : first ≤ bank + group * unit
  · refine ⟨bank + group * unit, hbefore, by omega, ?_⟩
    rw [Nat.add_sub_cancel_left, Nat.mul_div_cancel _ hunit]
  · refine ⟨first, le_rfl, hle, Nat.le_antisymm hfirst ?_⟩
    exact (Nat.le_div_iff_mul_le hunit).mpr (by omega)

theorem wrpCovers_eq_ok_iff (h : Window windowBase windowSize) :
    guestFlashWrpCovers wrpBitmap windowBase windowSize bankBase sectorSize
        sectorsPerGroup = .ok () ↔
      0 < sectorSize.toNat ∧ 0 < sectorsPerGroup.toNat ∧ bankBase.toNat ≤ windowBase.toNat ∧
        groupOf bankBase sectorSize sectorsPerGroup (windowBase.toNat + windowSize.toNat - 1) < 32 ∧
        ∀ group, groupOf bankBase sectorSize sectorsPerGroup windowBase.toNat ≤ group →
          group ≤ groupOf bankBase sectorSize sectorsPerGroup
            (windowBase.toNat + windowSize.toNat - 1) →
          wrpBitmap.getLsbD group = false := by
  have hpos := h.pos
  have hfits := h.fits
  have hzero : ∀ {x : Word}, x = 0 ↔ ¬0 < x.toNat := by
    intro x
    rw [Nat.not_lt, Nat.le_zero]
    exact BitVec.toNat_inj.symm
  unfold guestFlashWrpCovers
  dsimp only
  by_cases hargs : windowSize = 0 ∨ sectorSize = 0 ∨ sectorsPerGroup = 0 ∨ windowBase < bankBase
  · rw [if_pos hargs]
    refine iff_of_false nofun fun hall => ?_
    rcases hargs with hnone | hsize | hper | hbelow
    · exact h.nonempty hnone
    · exact hzero.mp hsize hall.1
    · exact hzero.mp hper hall.2.1
    · rw [BitVec.lt_def] at hbelow
      exact absurd hall.2.2.1 (Nat.not_le.mpr hbelow)
  rw [if_neg hargs]
  push Not at hargs
  obtain ⟨-, hsize, hper, hbank⟩ := hargs
  have hbank : bankBase ≤ windowBase := BitVec.not_lt.mp hbank
  have hoffset := BitVec.toNat_sub_of_le hbank
  rw [BitVec.le_def] at hbank
  have hone : (1 : Word).toNat = 1 := rfl
  have hlast : (windowBase - bankBase + windowSize - 1).toNat =
      windowBase.toNat + windowSize.toNat - 1 - bankBase.toNat := by
    rw [BitVec.toNat_sub, BitVec.toNat_add, hoffset, hone]
    omega
  have hfirstGroup : ((windowBase - bankBase) / sectorSize / sectorsPerGroup).toNat =
        groupOf bankBase sectorSize sectorsPerGroup windowBase.toNat := by
    rw [BitVec.toNat_udiv, BitVec.toNat_udiv, hoffset, groupOf]
  have hlastGroup : ((windowBase - bankBase + windowSize - 1) / sectorSize /
      sectorsPerGroup).toNat = groupOf bankBase sectorSize sectorsPerGroup
          (windowBase.toNat + windowSize.toNat - 1) := by
    rw [BitVec.toNat_udiv, BitVec.toNat_udiv, hlast, groupOf]
  have hmap : 32 ≤ (windowBase - bankBase + windowSize - 1) / sectorSize /
      sectorsPerGroup ↔ 32 ≤ groupOf bankBase sectorSize sectorsPerGroup
        (windowBase.toNat + windowSize.toNat - 1) := by
    rw [BitVec.le_def, hlastGroup]
    rfl
  have hbits : ∀ first last, last < 32 → (((List.range' first (last + 1 - first)).any fun group =>
        (wrpBitmap &&& BitVec.twoPow 32 group) != 0) = false ↔
      ∀ group, first ≤ group → group ≤ last → wrpBitmap.getLsbD group = false) := by
    intro first last hlt
    rw [List.any_eq_false]
    refine forall_congr' fun group => ?_
    rw [List.mem_range'_1, bne_iff_ne]
    constructor
    · intro hclear hup hdown
      rw [← Bool.not_eq_true, ← wrp_bit_iff (by omega)]
      exact hclear ⟨hup, by omega⟩
    · rintro hclear ⟨hup, hdown⟩
      rw [wrp_bit_iff (by omega), hclear hup (by omega)]
      exact Bool.false_ne_true
  rw [hfirstGroup, hlastGroup]
  by_cases hfar : 32 ≤ groupOf bankBase sectorSize sectorsPerGroup
      (windowBase.toNat + windowSize.toNat - 1)
  · rw [if_pos (hmap.mpr hfar)]
    exact iff_of_false nofun fun hall => absurd hfar (Nat.not_le.mpr hall.2.2.2.1)
  rw [if_neg (mt hmap.mp hfar), ← hbits _ _ (Nat.not_le.mp hfar)]
  have hsize : 0 < sectorSize.toNat := not_not.mp (mt hzero.mpr hsize)
  have hper : 0 < sectorsPerGroup.toNat := not_not.mp (mt hzero.mpr hper)
  split_ifs with hany
  · exact iff_of_false nofun fun hall => by rw [hall.2.2.2.2] at hany; cases hany
  · exact iff_of_true rfl ⟨hsize, hper, hbank, Nat.not_le.mp hfar, by simpa using hany⟩

theorem wrpCovers_iff (h : Window windowBase windowSize) :
    guestFlashWrpCovers wrpBitmap windowBase windowSize bankBase sectorSize
        sectorsPerGroup = .ok () ↔
      ∀ a, InWindow windowBase windowSize a →
        Protected wrpBitmap bankBase sectorSize sectorsPerGroup a := by
  have hpos := h.pos
  have hfirst : InWindow windowBase windowSize windowBase.toNat := ⟨le_rfl, by omega⟩
  have hlast : InWindow windowBase windowSize
      (windowBase.toNat + windowSize.toNat - 1) := ⟨by omega, by omega⟩
  rw [wrpCovers_eq_ok_iff h]
  constructor
  · rintro ⟨hsize, hper, hbank, hmap, hbits⟩ a ⟨hafter, hbefore⟩
    have hup : groupOf bankBase sectorSize sectorsPerGroup windowBase.toNat ≤
        groupOf bankBase sectorSize sectorsPerGroup a :=
      Nat.div_le_div_right (Nat.div_le_div_right (by omega))
    have hdown : groupOf bankBase sectorSize sectorsPerGroup a ≤
        groupOf bankBase sectorSize sectorsPerGroup (windowBase.toNat + windowSize.toNat - 1) :=
      Nat.div_le_div_right (Nat.div_le_div_right (by omega))
    exact protected_iff.mpr ⟨hsize, hper, by omega, hdown.trans_lt hmap, hbits _ hup hdown⟩
  · intro hall
    obtain ⟨hsize, hper, hbank, -⟩ := protected_iff.mp (hall _ hfirst)
    obtain ⟨-, -, -, hmap, -⟩ := protected_iff.mp (hall _ hlast)
    refine ⟨hsize, hper, hbank, hmap, fun group hup hdown => ?_⟩
    rw [groupOf, Nat.div_div_eq_div_mul] at hup hdown
    obtain ⟨a, hafter, hbefore, hgroup⟩ := exists_in_group
      (Nat.mul_pos hsize hper) hbank (by omega) hup hdown
    obtain ⟨-, -, -, -, hbit⟩ :=
      protected_iff.mp (hall a ⟨hafter, by omega⟩)
    rwa [groupOf, Nat.div_div_eq_div_mul, hgroup] at hbit

end Groups

/-- The two checks of a window are exact: the descriptors cover it if and only if
each of its addresses lies in a valid, locked region that denies writes and every
valid region that meets the window is such a region; the bits of a bank cover it if
and only if each sector that it touches belongs to one of the 32 groups and the bit
of that group is clear. -/
theorem flash_protection_exact {windowBase windowSize : Word} (h : Window windowBase windowSize) :
    (∀ regions : List FradRegion, (∀ region ∈ regions, region.start ≤ region.endAddr) →
      (guestFlashFradCovers (some regions) windowBase windowSize = .ok () ↔
        (∀ a, InWindow windowBase windowSize a →
          ∃ region ∈ regions, DeniesWrites region ∧ InRegion region a) ∧
        ∀ region ∈ regions, region.valid ≠ 0 →
          (∃ a, InWindow windowBase windowSize a ∧ InRegion region a) →
          DeniesWrites region)) ∧
      ∀ wrpBitmap bankBase sectorSize sectorsPerGroup : Word,
        guestFlashWrpCovers wrpBitmap windowBase windowSize bankBase sectorSize
            sectorsPerGroup = .ok () ↔
          ∀ a, InWindow windowBase windowSize a →
            Protected wrpBitmap bankBase sectorSize sectorsPerGroup a :=
  ⟨fun _ hregions => fradCovers_iff h hregions, fun _ _ _ _ => wrpCovers_iff h⟩

/-- Three regions out of order, of which two overlap; the last is not locked, and
beyond the window. -/
def sampleRegions : List FradRegion :=
  [⟨0x180, 0x2FF, 0, 1, 1⟩, ⟨0x100, 0x1FF, 0, 1, 1⟩, ⟨0x300, 0x3FF, 1, 1, 0⟩]

theorem flash_protection_exact_sample :
    guestFlashFradCovers (some sampleRegions) 0x100 0x200 = .ok () ∧ (∀ a, InWindow 0x100 0x200 a →
        ∃ region ∈ sampleRegions, DeniesWrites region ∧ InRegion region a) ∧
      guestFlashFradCovers (some sampleRegions) 0x100 0x201 = .error .wrp ∧
      guestFlashWrpCovers 0xFFFFFFFC 0x100 0x200 0 0x100 2 = .ok () ∧
      ∀ a, InWindow 0x100 0x200 a → Protected 0xFFFFFFFC 0 0x100 2 a := by
  have hwindow : Window 0x100 0x200 := ⟨by decide, by decide⟩
  obtain ⟨hfrad, hwrp⟩ := flash_protection_exact hwindow
  have hregions : guestFlashFradCovers (some sampleRegions) 0x100 0x200 =
      .ok () := by decide +kernel
  have hgroups : guestFlashWrpCovers 0xFFFFFFFC 0x100 0x200 0 0x100 2 = .ok () := by decide +kernel
  exact ⟨hregions, ((hfrad sampleRegions (by decide)).mp hregions).1,
    by decide +kernel, hgroups, (hwrp 0xFFFFFFFC 0 0x100 2).mp hgroups⟩

end WolfTrust.FlashProtection
