import WolfTrust.MpuArmv8m
import WolfTrust.GuestBinding
import WolfTrust.DomainIsolation
import WolfTrust.FfmLayout

namespace WolfTrust.MpuProtection

open Validation Domain Manifest DomainIsolation Pmsav8 SpmGate SpmSched
  MpuArmv8m GuestBinding FfmLayout

/-- What the validation of a resource establishes about its range. -/
structure WholeGranules (base size : Nat) : Prop where
  positive : 0 < size
  range : base + size ≤ uintptrMax
  base_aligned : base % 32 = 0
  size_aligned : size % 32 = 0

theorem wholeGranules_of_validate {resource : MemoryResource}
    (h : memoryResourceValidate resource = .ok ()) : WholeGranules resource.base resource.size := by
  unfold memoryResourceValidate at h
  rcases hend : rangeEnd resource.base resource.size with e | stop
  · rw [hend] at h
    cases h
  · rw [hend] at h
    change (require _ _ >>= fun _ => _) = _ at h
    simp only [then_eq_ok_iff, require_eq_ok_iff, Bool.and_eq_true, beq_iff_eq] at h
    obtain ⟨hpositive, hrange⟩ := rangeEnd_eq_ok hend
    exact ⟨hpositive, hrange, h.1.1, h.1.2⟩

section Ranges

variable {base size : Nat}

theorem lastByte_toNat (h : WholeGranules base size) :
    (lastByte base size).toNat = base + size - 1 := by
  have hpositive := h.positive
  have hrange := h.range
  unfold uintptrMax at hrange
  unfold lastByte
  rw [BitVec.toNat_sub, BitVec.toNat_add, BitVec.toNat_ofNat, BitVec.toNat_ofNat]
  have hone : (1 : Register).toNat = 1 := rfl
  rw [hone]
  omega

theorem covers_iff (h : WholeGranules base size) {baseFlags limitFlags : Register}
    (hbase : baseFlags.toNat < 32) (hlimit : limitFlags.toNat < 32)
    (henabled : limitFlags.getLsbD 0 = true) (address : Register) :
    (Region.encode (BitVec.ofNat 32 base) (lastByte base size) baseFlags
      limitFlags).covers address = true ↔ base ≤ address.toNat ∧ address.toNat < base + size := by
  rw [covers_encode hbase hlimit henabled, lastByte_toNat h, BitVec.toNat_ofNat]
  have hpositive := h.positive
  have hrange := h.range
  have hbase := h.base_aligned
  have hsize := h.size_aligned
  unfold uintptrMax at hrange
  omega

end Ranges

/-- An encoder's region for some memory: the bytes it covers, whether it lets
a level store, and whether it lets any level fetch. -/
structure Encoded (base size : Nat) (region : Region) (level : Privilege)
    (stores fetches : Bool) : Prop where
  covers : WholeGranules base size → ∀ address : Register, region.covers address = true ↔
      base ≤ address.toNat ∧ address.toNat < base + size
  write : region.permitsWrite level = stores
  never : region.executeNever = !fetches

/-- What the level may store to is not fetched from. -/
def Exclusive (level : Privilege) (region : Region) : Prop :=
  region.permitsWrite level = true → ∀ other, region.permitsFetch other = false

/-- The region protects the resource at the level its domain runs at. -/
structure Within (level : Privilege) (resource : MemoryResource)
    (region : Region) : Prop where
  covers : ∀ address : Register, region.covers address = true ↔ resource.base ≤ address.toNat ∧
      address.toNat < resource.base + resource.size
  write : region.permitsWrite level = true → anySet resource.attributes memoryAttrWrite = true
  fetch : ∀ other, region.permitsFetch other = true →
    anySet resource.attributes memoryAttrExecute = true
  exclusive : Exclusive level region

section Resources

variable {resource : MemoryResource} {region : Region} {level : Privilege} {stores fetches : Bool}
  {program : MemoryRegion → Region} {regions : List MemoryRegion}

theorem Encoded.exclusive {base size : Nat} (h : Encoded base size region level stores fetches)
    (hone : stores = true → fetches = false) : Exclusive level region := by
  intro hwrite other
  rw [h.write] at hwrite
  refine permitsFetch_of_executeNever ?_ other
  rw [h.never, hone hwrite]
  rfl

variable {guest : BoundGuest} {i : Nat}

end Resources

section Partitions

variable {manifest : SystemManifest} {regions : List MemoryRegion} {domain : DomainDescriptor}
  {resolved : ResolvedDomain} {image : SpmImage}

end Partitions

section Guests

variable {manifest : SystemManifest} {board : Board} {usartBase windowCount : Nat}
  {resource : MemoryResource}

theorem mem_mapM {α β : Type} {f : α → Option β} {b : β} : ∀ {inputs : List α} {outputs : List β},
      inputs.mapM f = some outputs → b ∈ outputs → ∃ a ∈ inputs, f a = some b
  | [], outputs, h, hb => by
      cases h
      cases hb
  | a :: rest, outputs, h, hb => by
      rw [List.mapM_cons] at h
      obtain ⟨first, hfirst, hrest⟩ := Option.bind_eq_some_iff.mp h
      obtain ⟨others, hothers, hall⟩ := Option.bind_eq_some_iff.mp hrest
      cases hall
      rcases List.mem_cons.mp hb with rfl | hb
      · exact ⟨a, List.mem_cons_self, hfirst⟩
      · obtain ⟨a', ha', heq⟩ := mem_mapM hothers hb
        exact ⟨a', List.mem_cons_of_mem _ ha', heq⟩

end Guests

section Main

variable {manifest : SystemManifest} {features : Word}
  {platform : ProfileCapabilities}

end Main

def guestPlatform : ProfileCapabilities :=
  { samplePlatform with capabilities := capabilityMask }

def sampleBoard : Board :=
  { guest0UsartBase := 0x40004800, guest1UsartBase := 0x40004800
    flashNscBase := 0x0C000400, flashNscEnd := 0x0C0007FF }

def sampleImage : SpmImage :=
  { flashSBase := 0x0C000000, flashSSize := 0x20000, eSecureText := 0x0C010000
    handoffBase := 0, handoffSize := 0, sdata := 0x30000000
    estack := 0x30008000, dregion := 12 }

end WolfTrust.MpuProtection
