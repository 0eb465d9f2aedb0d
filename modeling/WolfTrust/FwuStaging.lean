import Mathlib.Data.List.GetD
import WolfTrust.FwuTrigger

namespace WolfTrust.FwuStaging

open WolfTrust.FfmRuntime (psaSuccess)
open StepRuns NorFlash FwuService FwuFlash FwuClient
open WolfTrust.FwuOwnership (serve_message)

section Partition

variable {cfg : Geometry} {part : Part} {staged data : Bytes} {ready : Nat}

/-- The partition starts with the staged bytes and is blank behind them up to
the end of a sector. -/
structure Prepared (cfg : Geometry) (part : Part) (staged : Bytes)
    (ready : Nat) : Prop where
  unlocked : part.writeLocked = false
  written : ∀ i, i < staged.length → part.flash.bytes i = staged.getD i 0xFF
  blank : ∀ i, staged.length ≤ i → i < ready → part.flash.bytes i = 0xFF
  covered : staged.length ≤ ready
  aligned : ready % cfg.sectorSize = 0

structure Regular (cfg : Geometry) : Prop where
  sector : 0 < cfg.sectorSize
  unit : cfg.programUnit = 16

theorem flashRangeOk_of_le (hcfg : Regular cfg) {offset size : Nat}
    (h : offset + size ≤ cfg.size) : flashRangeOk cfg offset size = true := by
  have hsector := hcfg.sector
  have hunit := hcfg.unit
  simp only [flashRangeOk, decide_eq_true_eq]
  omega

theorem hsmFlashErase_eq (hcfg : Regular cfg) {offset : Nat} (hunlocked : part.writeLocked = false)
    (haligned : offset % cfg.sectorSize = 0)
    (hroom : offset + cfg.sectorSize ≤ cfg.size) :
    hsmFlashErase cfg reliable offset cfg.sectorSize part =
      (true, { part with
        flash := (erase reliable offset cfg.sectorSize part.flash).2 }) := by
  have hsector := hcfg.sector
  have hrange := flashRangeOk_of_le hcfg hroom
  unfold hsmFlashErase
  rw [if_neg (by simp [hrange, haligned]), if_neg (by simp [hunlocked]), if_neg (by omega)]
  rfl

theorem Prepared.erase (h : Prepared cfg part staged ready) (hcfg : Regular cfg)
    (hroom : ready + cfg.sectorSize ≤ cfg.size) :
    (hsmFlashErase cfg reliable ready cfg.sectorSize part).1 = true ∧
      Prepared cfg (hsmFlashErase cfg reliable ready cfg.sectorSize part).2 staged
        (ready + cfg.sectorSize) := by
  have hconfined := erase_confined (le_refl ready)
    (le_refl (ready + cfg.sectorSize)) reliable part.flash
  rw [hsmFlashErase_eq hcfg h.unlocked h.aligned hroom]
  refine ⟨rfl, h.unlocked, fun i hi => ?_, fun i hi hready => ?_, ?_, ?_⟩
  · have hcovered := h.covered
    exact (hconfined.bytes i (.inl (by omega))).trans (h.written i hi)
  · by_cases hold : i < ready
    · exact (hconfined.bytes i (.inl hold)).trans (h.blank i hi hold)
    · exact erase_blank rfl (by omega) hready
  · exact Nat.le_add_right_of_le h.covered
  · simp [h.aligned]

theorem hsmFlashProgram_eq (hcfg : Regular cfg) {offset : Nat}
    (hunlocked : part.writeLocked = false) (hoffset : offset % 16 = 0)
    (hdata : data.length % 16 = 0) (hne : data ≠ []) (hroom : offset + data.length ≤ cfg.size) :
    hsmFlashProgram cfg reliable offset data part =
      (true, { part with
        flash := (program reliable offset data part.flash).2 }) := by
  have hrange := flashRangeOk_of_le hcfg hroom
  unfold hsmFlashProgram
  rw [if_neg (by simp [hrange, hcfg.unit, hoffset, hdata]),
    if_neg (by simp [hunlocked]), if_neg (by simpa using hne)]
  rfl

theorem Prepared.program (h : Prepared cfg part staged ready) (hcfg : Regular cfg)
    (hstaged : staged.length % 16 = 0) (hdata : data.length % 16 = 0) (hne : data ≠ [])
    (hready : staged.length + data.length ≤ ready) (hroom : ready ≤ cfg.size) :
    let programmed := hsmFlashProgram cfg reliable staged.length data part
    programmed.1 = true ∧ holds programmed.2.flash staged.length data = true ∧
      Prepared cfg programmed.2 (staged ++ data) ready := by
  intro programmed
  have hblank : ∀ i, staged.length ≤ i → i < staged.length + data.length →
      part.flash.bytes i = 0xFF := fun i hi hi' => h.blank i hi (by omega)
  have hconfined := program_confined (le_refl staged.length)
    (le_refl (staged.length + data.length)) reliable part.flash
  have heq : programmed = (true, { part with
      flash := (NorFlash.program reliable staged.length data part.flash).2 }) :=
    hsmFlashProgram_eq hcfg h.unlocked hstaged hdata hne (by omega)
  rw [heq]
  refine ⟨rfl, holds_iff.mpr fun i hi => ?_, h.unlocked, fun i hi => ?_,
    fun i hi hi' => ?_, by simpa using hready, h.aligned⟩
  · rw [program_blank hblank (by omega) (by omega), Nat.add_sub_cancel_left]
  · rw [List.length_append] at hi
    by_cases hold : i < staged.length
    · rw [List.getD_append _ _ _ _ hold]
      exact (hconfined.bytes i (.inl hold)).trans (h.written i hold)
    · rw [List.getD_append_right _ _ _ _ (by omega)]
      exact program_blank hblank (by omega) (by omega)
  · rw [List.length_append] at hi
    exact (hconfined.bytes i (.inr hi)).trans (h.blank i (by omega) hi')

end Partition

theorem toNat_ofNat_of_le {n bound : Nat} (h : n ≤ bound) (hbound : bound < 2 ^ 32) :
    (UInt32.ofNat n).toNat = n := by
  rw [UInt32.toNat_ofNat']
  exact Nat.mod_eq_of_lt (by omega)

namespace Stm32h563

theorem regular : Regular Stm32h563.cfg := ⟨by decide, rfl⟩

/-- The mask counts the first `e` sectors as erased. -/
structure Ready (store : Stm32h563.Store) (staged : Bytes) (e : Nat) : Prop where
  prepared : Prepared Stm32h563.cfg store.part staged (e * 0x2000)
  mask : ∀ t, t < 32 → store.erasedSectors.getLsbD t = decide (t < e)

variable {store : Stm32h563.Store} {staged data : Bytes}

theorem Ready.skip {e s : Nat} (h : Ready store staged e) (hs : s < e)
    (hs' : s < 32) : Stm32h563.eraseSector reliable s store = (true, store) := by
  unfold Stm32h563.eraseSector
  rw [if_pos ⟨hs', by simpa [h.mask s hs'] using hs⟩]

theorem Ready.next {e : Nat} (h : Ready store staged e) (he : e < 32) :
    (Stm32h563.eraseSector reliable e store).1 = true ∧
      Ready (Stm32h563.eraseSector reliable e store).2 staged (e + 1) := by
  obtain ⟨hdone, hprepared⟩ := h.prepared.erase regular
    (show e * 0x2000 + 0x2000 ≤ 0x40000 by omega)
  have hnot : ¬(e < 32 ∧ store.erasedSectors.getLsbD e = true) := by simp [h.mask e he]
  unfold Stm32h563.eraseSector
  rw [if_neg hnot]
  refine ⟨hdone, ?_, fun t ht => ?_⟩
  · rw [Nat.succ_mul]
    exact hprepared
  · have hmask : (hsmFlashErase Stm32h563.cfg reliable
        (e * Stm32h563.cfg.sectorSize) Stm32h563.cfg.sectorSize
        store.part).1 = true ∧ e < 32 := ⟨hdone, he⟩
    dsimp only
    rw [if_pos hmask, BitVec.getLsbD_or, h.mask t ht, BitVec.getLsbD_twoPow]
    by_cases heq : e = t
    · simp [heq, ht]
    · have : t < e ↔ t < e + 1 := by omega
      simp [heq, this]

theorem Ready.sectors {first count e : Nat} (h : Ready store staged e)
    (hfirst : first ≤ e) (hcount : first + count ≤ 32) :
    let done := untilFailure (Stm32h563.eraseSector reliable) (List.range' first count) store
    done.1 = true ∧ Ready done.2 staged (max e (first + count)) := by
  induction count generalizing first e store with
  | zero => exact ⟨rfl, by rwa [Nat.add_zero, max_eq_left hfirst]⟩
  | succ count ih =>
    have hend : first + (count + 1) = first + 1 + count := by omega
    rw [List.range'_succ, untilFailure, hend]
    rcases Nat.lt_or_eq_of_le hfirst with hlt | rfl
    · rw [h.skip hlt (by omega)]
      exact ih h hlt (by omega)
    · obtain ⟨hdone, hnext⟩ := h.next (by omega)
      simp only [hdone, if_true]
      have hmax : max first (first + 1 + count) = max (first + 1) (first + 1 + count) := by omega
      rw [hmax]
      exact ih hnext le_rfl (by omega)

def Staged (store : Stm32h563.Store) (staged : Bytes) : Prop :=
  ∃ e, e ≤ 32 ∧ Ready store staged e

theorem Staged.begin (store : Stm32h563.Store) : (Stm32h563.fwuBackendBegin store).1 = true ∧
      Staged (Stm32h563.fwuBackendBegin store).2 [] := by
  refine ⟨rfl, 0, by omega, ⟨rfl, fun i hi => ?_, fun i _ hi => ?_, ?_, ?_⟩, ?_⟩
  · simp at hi
  · omega
  · simp
  · simp
  · intro t ht
    simp [Stm32h563.fwuBackendBegin, hsmFlashInit, Stm32h563.cfg]

theorem Ready.ensureErased {e : Nat} (h : Ready store staged e) (he : e ≤ 32)
    (hne : data ≠ []) (hroom : staged.length + data.length ≤ 0x3E000) :
    let done := Stm32h563.fwuEnsureErased reliable staged.length data.length store
    done.1 = true ∧ ∃ e', e' ≤ 32 ∧ staged.length + data.length ≤ e' * 0x2000 ∧
      Ready done.2 staged e' := by
  have hcovered := h.prepared.covered
  have hlength : 0 < data.length := List.length_pos_iff.mpr hne
  have hrange : staged.length + data.length ≠ 0 := by omega
  have hlast : staged.length / 0x2000 + ((staged.length + data.length - 1) / 0x2000 + 1 -
        staged.length / 0x2000) =
      (staged.length + data.length - 1) / 0x2000 + 1 := by omega
  have hbelow : (staged.length + data.length - 1) / 0x2000 + 1 ≤ 31 := by omega
  have hend : staged.length + data.length ≤
      ((staged.length + data.length - 1) / 0x2000 + 1) * 0x2000 := by omega
  obtain ⟨hdone, hready⟩ := h.sectors (show staged.length / 0x2000 ≤ e by omega)
    (show staged.length / 0x2000 + ((staged.length + data.length - 1) / 0x2000 + 1 -
        staged.length / 0x2000) ≤ 32 by omega)
  unfold Stm32h563.fwuEnsureErased
  simp only [if_neg hrange]
  refine ⟨hdone, _, ?_, ?_, hready⟩
  · rw [hlast]
    omega
  · rw [hlast]
    exact hend.trans (Nat.mul_le_mul_right _ (le_max_right _ _))

theorem Staged.write (h : Staged store staged)
    (hstaged : staged.length % 16 = 0) (hdata : data.length % 16 = 0)
    (hne : data ≠ []) (hroom : staged.length + data.length ≤ 0x3E000) :
    let wrote := Stm32h563.fwuBackendWrite reliable (UInt32.ofNat staged.length) data store
    wrote.1 = true ∧ Staged wrote.2 (staged ++ data) := by
  obtain ⟨e, he, hready⟩ := h
  have hlength : 0 < data.length := List.length_pos_iff.mpr hne
  have hoffset : (UInt32.ofNat staged.length).toNat = staged.length :=
    toNat_ofNat_of_le (show staged.length ≤ 0x3E000 by omega) (by omega)
  have hfits : ¬(0x3E000 ≤ staged.length ∨ 0x3E000 - staged.length < data.length) := by omega
  obtain ⟨hdone, e', he', hend, hready'⟩ := hready.ensureErased he hne hroom
  obtain ⟨hprogrammed, hholds, hprepared⟩ := hready'.prepared.program regular
    hstaged hdata hne hend (show e' * 0x2000 ≤ 0x40000 by omega)
  have hreserved : Stm32h563.cfg.reserved = 0x3E000 := rfl
  unfold Stm32h563.fwuBackendWrite
  rw [hoffset, hreserved, if_neg hfits]
  dsimp only
  rw [if_pos hdone]
  refine ⟨?_, e', he', hprepared, hready'.mask⟩
  rw [Stm32h563.programChecked, hprogrammed, hholds]
  rfl

end Stm32h563

namespace Mimxrt700

theorem regular : Regular Mimxrt700.cfg := ⟨by decide, rfl⟩

/-- The first `e` sectors count as erased and the staged bytes as written. -/
structure Ready (store : Mimxrt700.Store) (staged : Bytes) (e : Nat) : Prop where
  prepared : Prepared Mimxrt700.cfg store.part staged (e * 0x1000)
  erased : store.erasedEnd = e * 0x1000
  written : store.writtenEnd = staged.length

variable {store : Mimxrt700.Store} {staged data : Bytes}

theorem Ready.next {e : Nat} (h : Ready store staged e) (he : e < 64) :
    (Mimxrt700.eraseAt reliable (e * 0x1000) store).1 = true ∧
      Ready (Mimxrt700.eraseAt reliable (e * 0x1000) store).2 staged (e + 1) := by
  obtain ⟨hdone, hprepared⟩ := h.prepared.erase regular
    (show e * 0x1000 + 0x1000 ≤ 0x40000 by omega)
  have hnext : (e + 1) * 0x1000 = e * 0x1000 + 0x1000 := Nat.succ_mul _ _
  unfold Mimxrt700.eraseAt
  rw [if_pos hdone]
  refine ⟨rfl, ?_, hnext.symm, h.written⟩
  rw [hnext]
  exact hprepared

theorem Ready.sectors {count e : Nat} (h : Ready store staged e) (hcount : e + count ≤ 64) :
    let done := untilFailure (Mimxrt700.eraseAt reliable)
      (List.range' (e * 0x1000) count 0x1000) store
    done.1 = true ∧ Ready done.2 staged (e + count) := by
  induction count generalizing e store with
  | zero => exact ⟨rfl, h⟩
  | succ count ih =>
    obtain ⟨hdone, hnext⟩ := h.next (by omega)
    have hend : e + (count + 1) = e + 1 + count := by omega
    rw [List.range'_succ, untilFailure, hend, ← Nat.succ_mul]
    simp only [hdone, if_true]
    exact ih hnext (by omega)

def Staged (store : Mimxrt700.Store) (staged : Bytes) : Prop :=
  ∃ e, e ≤ 64 ∧ Ready store staged e

theorem Staged.begin (store : Mimxrt700.Store) : (Mimxrt700.fwuBackendBegin store).1 = true ∧
      Staged (Mimxrt700.fwuBackendBegin store).2 [] := by
  refine ⟨rfl, 0, by omega, ⟨rfl, fun i hi => ?_, fun i _ hi => ?_, ?_, ?_⟩, rfl, rfl⟩
  · simp at hi
  · omega
  · simp
  · simp

theorem Ready.ensureErased {e : Nat} (h : Ready store staged e) (he : e ≤ 64)
    (hroom : staged.length + data.length ≤ 0x3F000) :
    let done := Mimxrt700.fwuEnsureErased reliable staged.length data.length store
    done.1 = true ∧ ∃ e', e' ≤ 64 ∧ staged.length + data.length ≤ e' * 0x1000 ∧
      Ready done.2 staged e' := by
  have hcount : e + ((staged.length + data.length + 0x1000 - 1) / 0x1000 *
      0x1000 - e * 0x1000 + 0x1000 - 1) / 0x1000 ≤ 64 := by omega
  obtain ⟨hdone, hready⟩ := h.sectors hcount
  unfold Mimxrt700.fwuEnsureErased
  rw [h.erased]
  refine ⟨hdone, _, hcount, ?_, hready⟩
  omega

theorem Staged.write (h : Staged store staged)
    (hstaged : staged.length % 16 = 0) (hdata : data.length % 16 = 0)
    (hne : data ≠ []) (hroom : staged.length + data.length ≤ 0x3F000) :
    let wrote := Mimxrt700.fwuBackendWrite reliable (UInt32.ofNat staged.length) data store
    wrote.1 = true ∧ Staged wrote.2 (staged ++ data) := by
  obtain ⟨e, he, hready⟩ := h
  have hlength : 0 < data.length := List.length_pos_iff.mpr hne
  have hoffset : (UInt32.ofNat staged.length).toNat = staged.length :=
    toNat_ofNat_of_le (show staged.length ≤ 0x3F000 by omega) (by omega)
  have hfits : ¬(0x3F000 ≤ staged.length ∨ 0x3F000 - staged.length < data.length ∨
      staged.length ≠ store.writtenEnd) := by
    rw [hready.written]
    omega
  obtain ⟨hdone, e', he', hend, hready'⟩ :=
    hready.ensureErased he hroom
  obtain ⟨hprogrammed, hholds, hprepared⟩ := hready'.prepared.program regular
    hstaged hdata hne hend (show e' * 0x1000 ≤ 0x40000 by omega)
  have hchecked : (Mimxrt700.programChecked reliable staged.length data
      (Mimxrt700.fwuEnsureErased reliable staged.length data.length store).2).1 = true := by
    rw [Mimxrt700.programChecked, hprogrammed, hholds]
    rfl
  have hreserved : Mimxrt700.cfg.reserved = 0x3F000 := rfl
  unfold Mimxrt700.fwuBackendWrite
  rw [hoffset, hreserved, if_neg hfits]
  dsimp only
  rw [if_pos hdone, if_pos hchecked]
  exact ⟨rfl, e', he', hprepared, hready'.erased, by simp⟩

end Mimxrt700

section Service

variable {σ : Type} {backend : Backend σ} {links : Links σ} {room : Nat} {Staged : σ → Bytes → Prop}
  {store : σ} {s : Service σ} {client : Int} {declared floor : UInt32}
  {staged data image final : Bytes} {block : Bytes} {req : Req} {arrival : Arrival}
  {writes : List Arrival} {rest : List Arrival} {op : Op}

/-- What the service needs of a backend: in whole units it stages what is
written right behind what is staged. -/
structure Streams (backend : Backend σ) (room : Nat)
    (Staged : σ → Bytes → Prop) : Prop where
  capacity : backend.capacity = UInt32.ofNat room
  align : backend.align = UInt32.ofNat 16
  small : room < 2 ^ 20
  begin : ∀ store, (invoke backend.begin store).1 = true ∧ Staged (invoke backend.begin store).2 []
  write : ∀ store staged data, Staged store staged → staged.length % 16 = 0 →
    data.length % 16 = 0 → data ≠ [] → staged.length + data.length ≤ room →
    (backend.put (UInt32.ofNat staged.length) data store).1 = psaSuccess ∧
      Staged (backend.put (UInt32.ofNat staged.length) data store).2 (staged ++ data)

def padded (bytes : Bytes) : Bytes :=
  bytes ++ List.replicate ((16 - bytes.length % 16) % 16) 0xFF

theorem padded_length (bytes : Bytes) : (padded bytes).length = (bytes.length + 15) / 16 * 16 := by
  simp only [padded, List.length_append, List.length_replicate]
  omega

theorem padded_of_whole {bytes : Bytes} (h : bytes.length % 16 = 0) : padded bytes = bytes := by
  simp [padded, h]

theorem padded_append (hstaged : staged.length % 16 = 0) (hdata : data.length % 16 ≠ 0) :
    padded (staged ++ data) = staged ++ data.take (data.length - data.length % 16) ++
        fwuTail 16 (data.drop (data.length - data.length % 16)) := by
  have hrest : (data.drop (data.length - data.length % 16)).length = data.length % 16 := by
    rw [List.length_drop]
    omega
  have hpad : (16 - (staged ++ data).length % 16) % 16 =
      (16 : UInt32).toNat - data.length % 16 := by
    rw [List.length_append]
    show _ = 16 - data.length % 16
    omega
  rw [padded, fwuTail, hrest, hpad]
  simp only [List.append_assoc]
  rw [← List.append_assoc (List.take _ _), List.take_append_drop]

theorem putWhole_streams (h : Streams backend room Staged) (hs : Staged store staged)
    (hstaged : staged.length % 16 = 0) {whole : Nat} (hwhole : whole % 16 = 0)
    (hle : whole ≤ data.length) (hroom : staged.length + data.length ≤ room) :
    let done := backend.putWhole (UInt32.ofNat staged.length) data (UInt32.ofNat whole) store
    done.1 = psaSuccess ∧ Staged done.2 (staged ++ data.take whole) := by
  have hsmall := h.small
  have hnat : (UInt32.ofNat whole).toNat = whole :=
    toNat_ofNat_of_le (show _ ≤ 2 ^ 20 by omega) (by omega)
  have hlength : (data.take whole).length = whole := by
    rw [List.length_take]
    omega
  unfold Backend.putWhole
  by_cases hzero : whole = 0
  · subst hzero
    simpa using hs
  · have hne : UInt32.ofNat whole ≠ 0 := fun hz => hzero (by
      rw [← hnat, hz]
      rfl)
    rw [if_neg hne, hnat]
    refine h.write store staged _ hs hstaged (by rwa [hlength]) ?_ (by omega)
    exact fun hnil => hzero (by rw [← hlength, hnil]; rfl)

theorem ofNat_ne_zero {n : Nat} (hn : n < 2 ^ 32) (h : n ≠ 0) : UInt32.ofNat n ≠ 0 := by
  intro hz
  have hnat := congrArg UInt32.toNat hz
  rw [UInt32.toNat_ofNat_of_lt' hn] at hnat
  exact h hnat

theorem fwuProgram_eq (h : Streams backend room Staged) {offset : Nat} (hoffset : offset % 16 = 0)
    (hroom : (offset + data.length + 15) / 16 * 16 ≤ room) :
    fwuProgram backend (UInt32.ofNat offset) data store =
      if data.length % 16 = 0 then backend.put (UInt32.ofNat offset) data store
      else
        let whole := data.length - data.length % 16
        let first := backend.putWhole (UInt32.ofNat offset) data (UInt32.ofNat whole) store
        if first.1 = psaSuccess then
          backend.put (UInt32.ofNat (offset + whole)) (fwuTail 16 (data.drop whole)) first.2
        else first := by
  have hsmall := h.small
  have hsize : UInt32.size = 2 ^ 32 := rfl
  have halign : backend.granularity = UInt32.ofNat 16 := by
    rw [Backend.granularity, h.align]
    rfl
  have hguard : ¬(UInt32.ofNat (offset + data.length) < UInt32.ofNat offset ∨
      UInt32.ofNat room < UInt32.ofNat (offset + data.length) ∨
      UInt32.ofNat offset % UInt32.ofNat 16 ≠ 0) := by
    rw [UInt32.ofNat_lt_iff_lt (by omega) (by omega), UInt32.ofNat_lt_iff_lt (by omega) (by omega),
      ← UInt32.ofNat_mod (by omega) (by omega), hoffset]
    rintro (hlt | hlt | hne)
    · omega
    · omega
    · exact hne rfl
  have hrem : UInt32.ofNat data.length % UInt32.ofNat 16 = UInt32.ofNat (data.length % 16) :=
    (UInt32.ofNat_mod (by omega) (by omega)).symm
  unfold fwuProgram
  simp only [halign, h.capacity, ← UInt32.ofNat_add]
  rw [if_neg hguard, hrem]
  by_cases hdata : data.length % 16 = 0
  · rw [if_pos hdata, hdata]
    rfl
  · have hpad : UInt32.ofNat 16 - UInt32.ofNat (data.length % 16) =
        UInt32.ofNat (16 - data.length % 16) :=
      (UInt32.ofNat_sub (by omega)).symm
    have hwhole : UInt32.ofNat data.length - UInt32.ofNat (data.length % 16) =
        UInt32.ofNat (data.length - data.length % 16) :=
      (UInt32.ofNat_sub (by omega)).symm
    have hdrop : (UInt32.ofNat (data.length - data.length % 16)).toNat =
        data.length - data.length % 16 :=
      UInt32.toNat_ofNat_of_lt' (by omega)
    have hmax : (0xFFFFFFFF : UInt32) - UInt32.ofNat (16 - data.length % 16) =
        UInt32.ofNat (0xFFFFFFFF - (16 - data.length % 16)) :=
      (UInt32.ofNat_sub (show 16 - data.length % 16 ≤ 0xFFFFFFFF by omega)).symm
    have hguard' : ¬(fwuBlockMax < (UInt32.ofNat 16).toNat ∨
        UInt32.ofNat (0xFFFFFFFF - (16 - data.length % 16)) < UInt32.ofNat (offset + data.length) ∨
        UInt32.ofNat room < UInt32.ofNat (offset + data.length + (16 - data.length % 16))) := by
      rw [UInt32.ofNat_lt_iff_lt (by omega) (by omega),
        UInt32.ofNat_lt_iff_lt (by omega) (by omega)]
      rintro (hlt | hlt | hlt)
      · exact absurd hlt (by decide)
      · omega
      · omega
    rw [if_neg (ofNat_ne_zero (by omega) hdata), if_neg hdata, hpad, hwhole, hmax,
      ← UInt32.ofNat_add, ← UInt32.ofNat_add, hdrop, if_neg hguard']
    rfl

theorem fwuProgram_streams (h : Streams backend room Staged)
    (hs : Staged store staged) (hstaged : staged.length % 16 = 0)
    (hne : data ≠ []) (hroom : (padded (staged ++ data)).length ≤ room) :
    let done := fwuProgram backend (UInt32.ofNat staged.length) data store
    done.1 = psaSuccess ∧ Staged done.2 (padded (staged ++ data)) := by
  rw [padded_length, List.length_append] at hroom
  rw [fwuProgram_eq h hstaged hroom]
  by_cases hdata : data.length % 16 = 0
  · rw [if_pos hdata, padded_of_whole (by rw [List.length_append]; omega)]
    exact h.write store staged data hs hstaged hdata hne (by omega)
  · have hlength : (staged ++ data.take (data.length - data.length % 16)).length =
        staged.length + (data.length - data.length % 16) := by
      rw [List.length_append, List.length_take]
      omega
    have htail : (fwuTail 16 (data.drop (data.length - data.length % 16))).length = 16 := by
      rw [fwuTail, List.length_append, List.length_replicate, List.length_drop]
      show _ + (16 - _) = 16
      omega
    obtain ⟨hfirst, hstored⟩ := putWhole_streams h hs hstaged
      (show (data.length - data.length % 16) % 16 = 0 by omega) (Nat.sub_le _ _)
      (show staged.length + data.length ≤ room by omega)
    have hlast := h.write _ _ (fwuTail 16 (data.drop
      (data.length - data.length % 16))) hstored (by rw [hlength]; omega)
      (by rw [htail]) (fun hnil => by simp [hnil] at htail)
      (by rw [hlength, htail]; omega)
    rw [hlength] at hlast
    rw [if_neg hdata, padded_append hstaged hdata]
    dsimp only
    rw [if_pos hfirst]
    exact hlast

/-- A message of the client that carries a request and a block. -/
structure Sent (client : Int) (op : Op) (req : Req) (block : Bytes)
    (arrival : Arrival) : Prop where
  sent : ∃ msg tick delivered, arrival = .message msg tick delivered ∧
    Op.ofType msg.type = some op ∧ msg.decode = some (req, block) ∧
    msg.clientId = client

/-- The image is being written: its bytes are staged, filled up to whole units,
and the extent is its own length. -/
structure Writing (Staged : σ → Bytes → Prop) (client : Int)
    (declared floor : UInt32) (image : Bytes) (s : Service σ) : Prop where
  state : s.ctx.state = .writing
  owner : s.ctx.owner = client
  declared : s.ctx.candidateVersion = declared
  floor : s.ctx.versionFloor = floor
  extent : s.ctx.writeHigh = UInt32.ofNat image.length
  staged : Staged s.store (padded image)

theorem serve_owner (htransport : links.transport ≠ none)
    (hsent : Sent client op req block arrival)
    (howner : s.ctx.owner = client) (hquery : op ≠ .query) :
    ∃ msg tick, serve links s arrival =
      let after := (fwuPerform links op msg req block tick s).2
      { after with ctx := fwuSettle op client tick after.ctx } := by
  obtain ⟨msg, tick, delivered, rfl, hop, hdecode, rfl⟩ := hsent.sent
  refine ⟨msg, tick, ?_⟩
  have hexpired : fwuOwnerExpired s.ctx.owner s.ctx.ownerTick tick msg.clientId =
      false := by simp [fwuOwnerExpired, howner]
  rw [serve_message htransport hop hdecode, fwuRequest, fwuReclaim, hexpired]
  simp [howner, hquery]

theorem Writing.settle {tick : UInt32} {sender : Int}
    (h : Writing Staged client declared floor image s) :
    Writing Staged client declared floor image
      { s with ctx := fwuSettle op sender tick s.ctx } := by
  have hstate := h.state
  unfold fwuSettle
  rw [if_neg (by simp [hstate])]
  split
  · exact ⟨h.state, h.owner, h.declared, h.floor, h.extent, h.staged⟩
  · exact h

theorem Writing.write (h : Streams backend room Staged) (hbackend : links.backend = some backend)
    (htransport : links.transport ≠ none) (hs : Writing Staged client declared floor image s)
    (himage : image.length % 16 = 0) (hroom : (padded (image ++ data)).length ≤ room)
    (hcomponent : req.component = 0) (hoffset : req.offset = UInt32.ofNat image.length)
    (hsize : req.size = UInt32.ofNat data.length) (hsent : Sent client .write req data arrival) :
    Writing Staged client declared floor (image ++ data) (serve links s arrival) := by
  obtain ⟨msg, tick, heq⟩ :=
    serve_owner htransport hsent hs.owner (by decide : Op.write ≠ .query)
  rw [heq]
  refine Writing.settle ?_
  have hok : fwuComponentOk req.component = true := by rw [hcomponent]; rfl
  have hstaged := hs.staged
  rw [padded_of_whole himage] at hstaged
  have hperform : (fwuPerform links .write msg req data tick s).2 =
      (fwuWrite links req.component req.offset data s).2 := by
    simp [fwuPerform, hsize]
  rw [hperform, fwuWrite, hbackend]
  dsimp only
  by_cases hnil : data = []
  · subst hnil
    simpa using hs
  · have hlength : data.length ≠ 0 := by simpa using hnil
    obtain ⟨hdone, hafter⟩ := fwuProgram_streams h hstaged himage hnil hroom
    rw [if_neg (by simp [hok, hnil]), if_neg (by simp [hs.state]), hoffset, hdone]
    have hgrows : s.ctx.writeHigh < UInt32.ofNat image.length + UInt32.ofNat data.length := by
      have hsmall := h.small
      have hnat : UInt32.size = 2 ^ 32 := rfl
      rw [padded_length, List.length_append] at hroom
      rw [hs.extent, ← UInt32.ofNat_add, UInt32.ofNat_lt_iff_lt (by omega) (by omega)]
      omega
    refine ⟨?_, ?_, ?_, ?_, ?_, hafter⟩ <;>
      simp [hgrows, hs.state, hs.owner, hs.declared, hs.floor,
        (by decide : psaSuccess ≠ psaErrorStorageFailure)]

/-- The client writes the rest of the image behind what it has written, block
by block; a block that others follow ends with a whole unit. -/
inductive Streamed (client : Int) (final : Bytes) : Bytes → List Arrival → Prop
  | done : Streamed client final final []
  | block {image data : Bytes} {req : Req} {arrival : Arrival}
      {rest : List Arrival} (haligned : image.length % 16 = 0)
      (hcomponent : req.component = 0)
      (hoffset : req.offset = UInt32.ofNat image.length)
      (hsize : req.size = UInt32.ofNat data.length)
      (hsent : Sent client .write req data arrival)
      (hrest : Streamed client final (image ++ data) rest) :
      Streamed client final image (arrival :: rest)

theorem Streamed.length_le
    (h : Streamed client final image writes) : image.length ≤ final.length := by
  induction h with
  | done => exact le_rfl
  | block _ _ _ _ _ _ ih =>
    rw [List.length_append] at ih
    omega

theorem Writing.stream (h : Streams backend room Staged) (hbackend : links.backend = some backend)
    (htransport : links.transport ≠ none) (hroom : (padded final).length ≤ room)
    (hwrites : Streamed client final image writes)
    (hs : Writing Staged client declared floor image s) :
    Writing Staged client declared floor final (run (serve links) s writes) := by
  induction hwrites generalizing s with
  | done => exact hs
  | block haligned hcomponent hoffset hsize hsent hrest ih =>
    refine ih (hs.write h hbackend htransport haligned ?_ hcomponent hoffset hsize hsent)
    have hle := hrest.length_le
    rw [padded_length] at hroom ⊢
    omega

/-- The component is READY where the first message is taken, after the session of
an overdue owner, if there is one, was reset. -/
def Startable (links : Links σ) (s : Service σ) (arrivals : List Arrival) : Prop :=
  ∃ msg tick delivered rest, arrivals = .message msg tick delivered :: rest ∧
    (fwuReclaim links msg.clientId tick s).1 = psaSuccess ∧
    (fwuReclaim links msg.clientId tick s).2.ctx.state = .ready

theorem fwuReclaim_floor (links : Links σ) (client : Int) (tick : UInt32) (s : Service σ) :
    (fwuReclaim links client tick s).2.ctx.versionFloor = s.ctx.versionFloor := by
  unfold fwuReclaim fwuForceReset
  split
  · dsimp only
    split <;> rfl
  · rfl

theorem serve_start (htransport : links.transport ≠ none)
    {arrival : Arrival} (hsent : Sent client .start req block arrival)
    (hstartable : Startable links s (arrival :: rest)) :
    ∃ tick ready, ready.ctx.state = .ready ∧ ready.ctx.versionFloor = s.ctx.versionFloor ∧
      serve links s arrival =
        let started := fwuStart links req.component req.version ready
        let after := if started.1 = psaSuccess then
            { started.2 with ctx := { started.2.ctx with
                owner := client, ownerTick := tick } }
          else started.2
        { after with ctx := fwuSettle .start client tick after.ctx } := by
  obtain ⟨msg, tick, delivered, rfl, hop, hdecode, rfl⟩ := hsent.sent
  obtain ⟨_, _, _, _, hhead, hreset, hready⟩ := hstartable
  cases hhead
  refine ⟨tick, _, hready, fwuReclaim_floor _ _ _ s, ?_⟩
  rw [serve_message htransport hop hdecode, fwuRequest]
  simp only [hreset, ne_eq, not_true_eq_false, if_false, fwuPerform, false_and,
    and_false, reduceCtorEq]
  split <;> rfl

theorem start_writing (h : Streams backend room Staged)
    (hbackend : links.backend = some backend) (htransport : links.transport ≠ none)
    (hcomponent : req.component = 0)
    (hversion : req.version = fwuVersionUndeclared ∨
      s.ctx.versionFloor ≤ req.version) {arrival : Arrival}
    (hsent : Sent client .start req block arrival)
    (hstartable : Startable links s (arrival :: rest)) :
    Writing Staged client req.version s.ctx.versionFloor [] (serve links s arrival) := by
  obtain ⟨tick, ready, hready, hfloor, heq⟩ :=
    serve_start htransport hsent hstartable
  obtain ⟨hbegan, hstaged⟩ := h.begin ready.store
  have hok : fwuComponentOk req.component = true := by rw [hcomponent]; rfl
  have hallowed : ¬(req.version ≠ fwuVersionUndeclared ∧ req.version < ready.ctx.versionFloor) := by
    rintro ⟨hne, hlt⟩
    rw [hfloor] at hlt
    exact absurd (hversion.resolve_left hne) (UInt32.not_le.mpr hlt)
  have hstart : fwuStart links req.component req.version ready =
      (psaSuccess, { ctx := ready.ctx.opened req.version
                     store := (invoke backend.begin ready.store).2 }) := by
    rw [fwuStart, hbackend]
    dsimp only
    rw [if_neg (by simp [hok]), if_neg (by simp [hready]), if_neg hallowed, if_pos hbegan]
  rw [heq, hstart]
  have hopened : Writing Staged client req.version s.ctx.versionFloor []
      { ctx := { ready.ctx.opened req.version with
          owner := client, ownerTick := tick }
        store := (invoke backend.begin ready.store).2 } :=
    ⟨rfl, rfl, rfl, hfloor, rfl, hstaged⟩
  exact hopened.settle

/-- No update is under way and nobody owns the component. -/
def Idle (s : Service σ) : Prop := s.ctx.state = .ready ∧ s.ctx.owner = 0

theorem idle_settle {tick : UInt32} (hready : s.ctx.state = .ready) :
    Idle { s with ctx := fwuSettle op client tick s.ctx } := by
  simp [Idle, fwuSettle, hready]

theorem start_refused (hbackend : links.backend = some backend)
    (htransport : links.transport ≠ none) (hcomponent : req.component = 0)
    (hversion : req.version ≠ fwuVersionUndeclared) (hbelow : req.version < s.ctx.versionFloor)
    {arrival : Arrival} (hsent : Sent client .start req block arrival)
    (hstartable : Startable links s (arrival :: rest)) : Idle (serve links s arrival) := by
  obtain ⟨tick, ready, hready, hfloor, heq⟩ :=
    serve_start htransport hsent hstartable
  have hok : fwuComponentOk req.component = true := by rw [hcomponent]; rfl
  have hstart : fwuStart links req.component req.version ready = (psaErrorNotPermitted, ready) := by
    rw [fwuStart, hbackend]
    dsimp only
    rw [if_neg (by simp [hok]), if_neg (by simp [hready]), if_pos ⟨hversion, by rwa [hfloor]⟩]
  rw [heq, hstart]
  exact idle_settle hready

theorem idle_serve (hs : Idle s) (hbackend : links.backend = some backend)
    (htransport : links.transport ≠ none) (hop : op = .write ∨ op = .finish)
    (hsent : Sent client op req block arrival) : Idle (serve links s arrival) := by
  obtain ⟨msg, tick, delivered, rfl, hof, hdecode, rfl⟩ := hsent.sent
  have hexpired : fwuOwnerExpired s.ctx.owner s.ctx.ownerTick tick msg.clientId =
      false := by simp [fwuOwnerExpired, hs.2]
  have hkept : (fwuPerform links op msg req block tick s).2 = s := by
    rcases hop with rfl | rfl
    · simp only [fwuPerform, fwuWrite, hbackend, hs.1]
      split_ifs <;> first | rfl | simp_all
    · simp only [fwuPerform, fwuFinish, hbackend, hs.1]
      split_ifs <;> first | rfl | simp_all
  rw [serve_message htransport hof hdecode, fwuRequest, fwuReclaim, hexpired]
  have hquery : op ≠ .query := by rcases hop with rfl | rfl <;> decide
  simp only [Bool.false_eq_true, if_false, ne_eq, not_true_eq_false, hs.2, hquery,
    false_and, and_false, hkept]
  exact idle_settle hs.1

theorem idle_stream (hs : Idle s) (hbackend : links.backend = some backend)
    (htransport : links.transport ≠ none)
    (hwrites : Streamed client final image writes) : Idle (run (serve links) s writes) := by
  induction hwrites generalizing s with
  | done => exact hs
  | block _ _ _ _ hsent _ ih => exact ih (idle_serve hs hbackend htransport (.inl rfl) hsent)

/-- The version that a session may end with: the header's, which the session
declared if it declared one, and which is not the mark for an undeclared one. -/
def Bindable (declared version : UInt32) : Prop :=
  (declared = fwuVersionUndeclared ∨ declared = version) ∧ version ≠ fwuVersionUndeclared

theorem Writing.finish (hbackend : links.backend = some backend)
    (htransport : links.transport ≠ none) {verify : UInt32 → σ → Option UInt32 × σ}
    (hverify : backend.verify = some verify) (hs : Writing Staged client declared floor image s)
    (hne : image ≠ []) (hsmall : image.length < 2 ^ 32) (hcomponent : req.component = 0)
    (hsent : Sent client .finish req block arrival) {found : Option UInt32}
    (hfound : (verify (UInt32.ofNat image.length) s.store).1 = found) :
    ((serve links s arrival).ctx.state = .candidate ↔
      ∃ version, found = some version ∧ Bindable declared version ∧ floor ≤ version) ∧
    (found = none → (serve links s arrival).ctx.state = .failed) := by
  have hok : fwuComponentOk req.component = true := by rw [hcomponent]; rfl
  have hextent : UInt32.ofNat image.length ≠ 0 := ofNat_ne_zero hsmall (by simpa using hne)
  obtain ⟨msg, tick, heq⟩ :=
    serve_owner htransport hsent hs.owner (by decide : Op.finish ≠ .query)
  have hstate : (serve links s arrival).ctx.state =
      (fwuFinish links req.component s).2.ctx.state := by
    rw [heq]
    show (fwuSettle _ _ _ (fwuFinish links req.component s).2.ctx).state = _
    unfold fwuSettle
    split
    · rfl
    · split <;> rfl
  rw [hstate, fwuFinish, hbackend]
  simp only [hok, hs.state, hextent, hverify, hs.declared, hs.extent, hs.floor,
    not_true_eq_false, ne_eq, if_false]
  rcases found with _ | version
  · simp [hfound, boundVersion, Context.fail]
  · refine ⟨?_, fun hnone => (by cases hnone)⟩
    simp only [hfound, Option.some.injEq, exists_eq_left', Bindable, boundVersion]
    by_cases hdeclared : declared = fwuVersionUndeclared ∨ version = declared
    · rw [if_pos hdeclared]
      have hbound := hdeclared.imp_right Eq.symm
      by_cases hlow : version = fwuVersionUndeclared ∨ version < floor
      · simp only [if_pos hlow, Context.fail, reduceCtorEq, false_iff]
        rintro ⟨⟨-, hversion⟩, hfloor⟩
        exact UInt32.not_lt.mpr hfloor (hlow.resolve_left hversion)
      · simp only [if_neg hlow, true_iff]
        rw [not_or, UInt32.not_lt] at hlow
        exact ⟨⟨hbound, hlow.1⟩, hlow.2⟩
    · simp only [if_neg hdeclared, Context.fail, reduceCtorEq, false_iff]
      exact fun hall => hdeclared (hall.1.1.imp_right Eq.symm)

end Service

/-- The bytes of an image as the boot loader would see them in flash. -/
def contentsOf (image : Bytes) : Contents := fun i => image.getD i 0xFF

/-- An image whose header parses, with its version, and whose payload fits. -/
structure WellFormed (image : Bytes) (version : UInt32) : Prop where
  header : imageHeaderSize ≤ image.length
  payload : (longAt (contentsOf image) 4).toNat ≤ image.length - imageHeaderSize
  parses : imageVersion (contentsOf image) = some version

instance (image : Bytes) (version : UInt32) : Decidable (WellFormed image version) :=
  decidable_of_iff (imageHeaderSize ≤ image.length ∧
      (longAt (contentsOf image) 4).toNat ≤ image.length - imageHeaderSize ∧
      imageVersion (contentsOf image) = some version)
    ⟨fun h => ⟨h.1, h.2.1, h.2.2⟩, fun h => ⟨h.header, h.payload, h.parses⟩⟩

theorem WellFormed.staged_header {cfg : Geometry} {part : Part} {ready : Nat}
    {image : Bytes} {version : UInt32} (h : WellFormed image version)
    (hprepared : Prepared cfg part (padded image) ready) :
    headerVersion part.flash.bytes image.length = some version := by
  have hheader := h.header
  have hbytes : ∀ i, i < imageHeaderSize → part.flash.bytes i = contentsOf image i := by
    intro i hi
    have hlt : i < image.length := by omega
    have hle : i < (padded image).length := by
      rw [padded_length]
      omega
    rw [hprepared.written i hle, padded, List.getD_append _ _ _ _ hlt]
    rfl
  have hpayload : longAt part.flash.bytes 4 = longAt (contentsOf image) 4 :=
    FwuTrigger.longAt_congr fun i _ hi =>
      hbytes i (by simp only [imageHeaderSize]; omega)
  rw [headerVersion, if_neg (by omega), hpayload,
    if_neg (Nat.not_lt.mpr h.payload), FwuTrigger.imageVersion_congr hbytes]
  exact h.parses

theorem Stm32h563.streams : Streams (spmFwuGate (Stm32h563.fwuFlashBackend reliable)) 0x3E000
      Stm32h563.Staged where
  capacity := rfl
  align := rfl
  small := by omega
  begin := Stm32h563.Staged.begin
  write store staged data hs hstaged hdata hne hroom := by
    obtain ⟨hdone, hafter⟩ := hs.write hstaged hdata hne hroom
    refine ⟨?_, hafter⟩
    exact if_pos hdone

theorem Mimxrt700.streams : Streams (spmFwuGate (Mimxrt700.fwuFlashBackend reliable)) 0x3F000
      Mimxrt700.Staged where
  capacity := rfl
  align := rfl
  small := by omega
  begin := Mimxrt700.Staged.begin
  write store staged data hs hstaged hdata hne hroom := by
    obtain ⟨hdone, hafter⟩ := hs.write hstaged hdata hne hroom
    refine ⟨?_, hafter⟩
    exact if_pos hdone

/-- One client starts an update, streams the image and finishes. -/
inductive Session (client : Int) (declared : UInt32) (image : Bytes) :
    List Arrival → Prop
  | intro {first last : Arrival} {writes : List Arrival} {opening closing : Req}
      {extra extra' : Bytes} (hopening : opening.component = 0)
      (hdeclared : opening.version = declared)
      (hfirst : Sent client .start opening extra first)
      (hwrites : Streamed client image [] writes)
      (hclosing : closing.component = 0)
      (hlast : Sent client .finish closing extra' last) :
      Session client declared image (first :: (writes ++ [last]))

section Sessions

variable {client : Int} {declared version : UInt32} {image : Bytes}
  {arrivals : List Arrival}

theorem Session.writing {σ : Type} {backend : Backend σ} {room : Nat} {Staged : σ → Bytes → Prop}
    {links : Links σ} {s : Service σ} (hsession : Session client declared image arrivals)
    (h : Streams backend room Staged) (hbackend : links.backend = some backend)
    (htransport : links.transport ≠ none) (hstartable : Startable links s arrivals)
    (hroom : (image.length + 15) / 16 * 16 ≤ room) :
    (declared = fwuVersionUndeclared ∨ s.ctx.versionFloor ≤ declared) ∧
        (∃ written last, ∃ closing : Req, ∃ extra,
          Writing Staged client declared s.ctx.versionFloor image written ∧
          closing.component = 0 ∧ Sent client .finish closing extra last ∧
          run (serve links) s arrivals = serve links written last) ∨
      (declared ≠ fwuVersionUndeclared ∧ declared < s.ctx.versionFloor) ∧
        Idle (run (serve links) s arrivals) := by
  rcases hsession with ⟨hopening, rfl, hfirst, hwrites, hclosing, hlast⟩
  rw [run_cons, run_snoc]
  rename_i opening closing _ _
  by_cases hversion : opening.version = fwuVersionUndeclared ∨ s.ctx.versionFloor ≤ opening.version
  · have hstarted := start_writing h hbackend htransport hopening hversion hfirst hstartable
    refine .inl ⟨hversion, _, _, _, _,
      hstarted.stream h hbackend htransport ?_ hwrites, hclosing, hlast, rfl⟩
    rwa [padded_length]
  · rw [not_or, UInt32.not_le] at hversion
    have hidle := start_refused hbackend htransport hopening hversion.1 hversion.2 hfirst hstartable
    exact .inr ⟨hversion, idle_serve (idle_stream hidle hbackend htransport hwrites)
      hbackend htransport (.inr rfl) hlast⟩

theorem WellFormed.ne_nil (h : WellFormed image version) : image ≠ [] := by
  rintro rfl
  exact absurd h.header (by decide)

theorem Session.ends {σ : Type} {flash : Backend σ} {room : Nat}
    {Staged : σ → Bytes → Prop} {s : Service σ} {granted : Bool}
    (hsession : Session client declared image arrivals)
    (himage : WellFormed image version) (h : Streams (spmFwuGate flash) room Staged)
    {verify : UInt32 → σ → Option UInt32 × σ} (hverify : flash.verify = some verify)
    (hstartable : Startable (spmFwuLinks flash granted) s arrivals)
    (hroom : (image.length + 15) / 16 * 16 ≤ room) {answer : Option UInt32}
    (hanswer : ∀ store, Staged store (padded image) →
      (verify (UInt32.ofNat image.length) store).1 = answer) :
    let ended := run (serve (spmFwuLinks flash granted)) s arrivals
    (ended.ctx.state = .candidate ↔ ∃ version, answer = some version ∧
      Bindable declared version ∧ s.ctx.versionFloor ≤ version) ∧
    (declared = fwuVersionUndeclared → answer = none → ended.ctx.state = .failed) := by
  intro ended
  have hbackend : (spmFwuLinks flash granted).backend = some (spmFwuGate flash) := rfl
  have htransport : (spmFwuLinks flash granted).transport ≠ none := by simp [spmFwuLinks]
  have hgate : (spmFwuGate flash).verify = some verify := by simp [spmFwuGate, hverify]
  have hsmall := h.small
  rcases hsession.writing h hbackend htransport hstartable hroom with
    ⟨-, written, last, closing, extra, hwriting, hclosing, hlast, hrun⟩ |
    ⟨⟨hdeclared, hbelow⟩, hidle⟩
  · obtain ⟨hcandidate, hfailed⟩ := hwriting.finish hbackend htransport hgate
      himage.ne_nil (by omega) hclosing hlast (hanswer _ hwriting.staged)
    simp only [ended, hrun]
    exact ⟨hcandidate, fun _ => hfailed⟩
  · refine ⟨?_, fun hundeclared => absurd hundeclared hdeclared⟩
    rw [hidle.1]
    simp only [reduceCtorEq, false_iff]
    rintro ⟨version, -, ⟨hbound, -⟩, hfloor⟩
    obtain rfl := hbound.resolve_left hdeclared
    exact UInt32.not_lt.mpr hfloor hbelow

theorem Stm32h563.verifies {store : Stm32h563.Store} (himage : WellFormed image version)
    (hsmall : image.length < 2 ^ 32) (hstaged : Stm32h563.Staged store (padded image)) :
    (Stm32h563.fwuBackendVerify (UInt32.ofNat image.length) store).1 = some version := by
  obtain ⟨_, -, hready⟩ := hstaged
  rw [Stm32h563.fwuBackendVerify, UInt32.toNat_ofNat_of_lt' hsmall,
    himage.staged_header hready.prepared]

theorem Mimxrt700.verifies {store : Mimxrt700.Store} (himage : WellFormed image version)
    (hsmall : image.length < 2 ^ 32) (hstaged : Mimxrt700.Staged store (padded image)) :
    (Mimxrt700.fwuBackendVerify (UInt32.ofNat image.length) store).1 =
      if image.length % 16 = 0 then some version else none := by
  obtain ⟨_, -, hready⟩ := hstaged
  have hheader := himage.header
  have hwritten := hready.written
  rw [padded_length] at hwritten
  rw [Mimxrt700.fwuBackendVerify, UInt32.toNat_ofNat_of_lt' hsmall, hwritten]
  by_cases haligned : image.length % 16 = 0
  · rw [if_neg (by omega), if_pos haligned, himage.staged_header hready.prepared]
  · rw [if_pos (by omega), if_neg haligned]

/-- A session that streams a well-formed image ends with a candidate exactly if the
header's version can be bound, and on the MIMXRT700 if the image also consists of
whole program units. -/
theorem update_staged (hsession : Session client declared image arrivals)
    (himage : WellFormed image version) (granted : Bool) :
    (∀ s : Service Stm32h563.Store,
      let backend := Stm32h563.fwuFlashBackend reliable
      let links := spmFwuLinks backend granted
      Startable links s arrivals → s.ctx.versionFloor ≤ version →
      (image.length + 15) / 16 * 16 ≤ backend.capacity.toNat →
      ((run (serve links) s arrivals).ctx.state = .candidate ↔ Bindable declared version)) ∧
    (∀ s : Service Mimxrt700.Store,
      let backend := Mimxrt700.fwuFlashBackend reliable
      let links := spmFwuLinks backend granted
      Startable links s arrivals → s.ctx.versionFloor ≤ version →
      (image.length + 15) / 16 * 16 ≤ backend.capacity.toNat →
      ((run (serve links) s arrivals).ctx.state = .candidate ↔
        Bindable declared version ∧ image.length % 16 = 0)) := by
  refine ⟨fun s => ?_, fun s => ?_⟩
  · intro backend links hstartable hfloor hroom
    have hroom' : (image.length + 15) / 16 * 16 ≤ 0x3E000 := hroom
    rw [(hsession.ends himage Stm32h563.streams rfl hstartable hroom'
      fun store => Stm32h563.verifies himage (by omega)).1]
    simp [hfloor]
  · intro backend links hstartable hfloor hroom
    have hroom' : (image.length + 15) / 16 * 16 ≤ 0x3F000 := hroom
    rw [(hsession.ends himage Mimxrt700.streams rfl hstartable hroom'
      fun store => Mimxrt700.verifies himage (by omega)).1]
    by_cases haligned : image.length % 16 = 0
    · simp [haligned, hfloor]
    · simp [haligned]

theorem mimxrt700_refuses_tail (hsession : Session client fwuVersionUndeclared image arrivals)
    (himage : WellFormed image version) {granted : Bool} {s : Service Mimxrt700.Store}
    (hstartable : Startable (spmFwuLinks (Mimxrt700.fwuFlashBackend reliable) granted) s arrivals)
    (hroom : (image.length + 15) / 16 * 16 ≤ 0x3F000) (htail : image.length % 16 ≠ 0) :
    (run (serve (spmFwuLinks (Mimxrt700.fwuFlashBackend reliable) granted)) s
      arrivals).ctx.state = .failed :=
  (hsession.ends himage Mimxrt700.streams rfl hstartable hroom
    fun store => Mimxrt700.verifies himage (by omega)).2 rfl (if_neg htail)

end Sessions

theorem sent_of_call {client : Int} {op : Op} {req : Req} {block : Bytes}
    {info : Bool} (h : block.length ≤ psaFwuMaxWriteSize) (tick : UInt32) :
    Sent client op req block (arrivalOf (fwuClientCall client op req block info) tick) := by
  cases hcall : fwuClientCall client op req block info with
  | none =>
    rw [fwuClientCall, if_neg (by omega)] at hcall
    cases hcall
  | some msg =>
    obtain ⟨hdecode, hop, hclient⟩ := fwuClientCall_decode hcall
    exact ⟨msg, tick, true, rfl, hop, hdecode, hclient⟩

theorem write_sent {client : Int} {offset : UInt32} {block : Bytes}
    (hne : block ≠ []) (h : block.length ≤ psaFwuMaxWriteSize) (tick : UInt32) :
    Sent client .write
      { plainReq 0 with offset, size := UInt32.ofNat block.length } block
      (arrivalOf (psaFwuWrite client 0 offset block) tick) := by
  rw [psaFwuWrite, if_neg hne]
  exact sent_of_call h tick

/-- A header of version 7 that declares no payload, and 512 bytes with it. -/
def sampleBlock : Bytes :=
  [0x57, 0x4F, 0x4C, 0x46, 0, 0, 0, 0, 1, 0, 4, 0, 7, 0, 0, 0] ++ List.replicate 496 0

def sampleImage (rest : Nat) : Bytes := sampleBlock ++ List.replicate rest 0

def sampleSession (rest : Nat) : List Arrival :=
  [arrivalOf (psaFwuStart 5 0 none) 0, arrivalOf (psaFwuWrite 5 0 0 sampleBlock) 1,
    arrivalOf (psaFwuWrite 5 0 512 (List.replicate rest 0)) 2,
    arrivalOf (psaFwuFinish 5 0) 3]

theorem sampleSession_session {rest : Nat} (hpos : 0 < rest) (hrest : rest ≤ psaFwuMaxWriteSize) :
    Session 5 fwuVersionUndeclared (sampleImage rest) (sampleSession rest) := by
  have hnil : List.replicate rest (0 : UInt8) ≠ [] := by
    intro h
    rw [List.replicate_eq_nil_iff] at h
    omega
  have hfirst : Sent 5 .start { plainReq 0 with version := fwuVersionUndeclared }
      [] (arrivalOf (psaFwuStart 5 0 none) 0) :=
    sent_of_call (by decide) 0
  have hblock := @write_sent 5 0 sampleBlock (by decide +kernel) (by decide +kernel) 1
  have htail := @write_sent 5 512 _ hnil (by rwa [List.length_replicate]) 2
  have hlast : Sent 5 .finish (plainReq 0) [] (arrivalOf (psaFwuFinish 5 0) 3) :=
    sent_of_call (by decide) 3
  have hoffset : (512 : UInt32) = UInt32.ofNat ([] ++ sampleBlock).length := by decide +kernel
  have hwrites : Streamed 5 (sampleImage rest) []
      [arrivalOf (psaFwuWrite 5 0 0 sampleBlock) 1,
        arrivalOf (psaFwuWrite 5 0 512 (List.replicate rest 0)) 2] :=
    .block rfl rfl rfl rfl hblock (.block (by decide +kernel) rfl hoffset rfl htail .done)
  exact .intro rfl rfl hfirst hwrites rfl hlast

def sampleService {σ : Type} (store : σ) : Service σ :=
  { ctx := spmFwuEntry (some 3) none, store }

def samplePart : Part :=
  { flash := { bytes := fun _ => 0, history := [] }, writeLocked := true }

theorem sampleSession_startable {σ : Type} (links : Links σ) (store : σ)
    (rest : Nat) : Startable links (sampleService store) (sampleSession rest) :=
  ⟨_, _, _, _, rfl, rfl, rfl⟩

/-- An image of 1024 bytes is staged on both ports. -/
theorem update_staged_sample : (run (serve (spmFwuLinks (Stm32h563.fwuFlashBackend reliable) false))
        (sampleService ⟨samplePart, 0⟩) (sampleSession 512)).ctx.state =
        .candidate ∧
      (run (serve (spmFwuLinks (Mimxrt700.fwuFlashBackend reliable) false))
        (sampleService ⟨samplePart, 0, 0⟩) (sampleSession 512)).ctx.state =
        .candidate := by
  obtain ⟨hstm, hrt⟩ := update_staged (sampleSession_session (by decide : 0 < 512) (by decide))
    (by decide +kernel : WellFormed (sampleImage 512) 7) false
  have hbindable : Bindable fwuVersionUndeclared 7 := ⟨.inl rfl, by decide⟩
  exact ⟨(hstm _ (sampleSession_startable _ _ _) (by decide) (by decide +kernel)).mpr hbindable,
    (hrt _ (sampleSession_startable _ _ _) (by decide)
      (by decide +kernel)).mpr ⟨hbindable, by decide +kernel⟩⟩

/-- The same image with one byte more is well formed and fits, and fails. -/
theorem unaligned_update_fails :
    Session 5 fwuVersionUndeclared (sampleImage 513) (sampleSession 513) ∧
      WellFormed (sampleImage 513) 7 ∧
      ((sampleImage 513).length + 15) / 16 * 16 ≤
        (Mimxrt700.fwuFlashBackend reliable).capacity.toNat ∧
      (run (serve (spmFwuLinks (Mimxrt700.fwuFlashBackend reliable) false))
        (sampleService ⟨samplePart, 0, 0⟩) (sampleSession 513)).ctx.state =
        .failed := by
  have hsession := sampleSession_session (by decide : 0 < 513) (by decide)
  have himage : WellFormed (sampleImage 513) 7 := by decide +kernel
  refine ⟨hsession, himage, by decide +kernel, ?_⟩
  exact mimxrt700_refuses_tail hsession himage (sampleSession_startable _ _ _)
    (by decide +kernel) (by decide +kernel)

end WolfTrust.FwuStaging
