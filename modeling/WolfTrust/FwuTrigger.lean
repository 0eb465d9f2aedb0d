import WolfTrust.FwuFlash
import WolfTrust.FwuOwnership

namespace WolfTrust.FwuTrigger

open StepRuns NorFlash FwuService FwuEffects FwuFlash FwuClient
open WolfTrust.FwuOwnership (operation serve_cases)

/-- The header lies in the staging area and the trigger in the trailer. -/
structure Roomy (cfg : Geometry) : Prop where
  header : imageHeaderSize ≤ cfg.reserved
  trailer : cfg.reserved + 5 ≤ cfg.size
  sector : cfg.reserved + cfg.sectorSize = cfg.size

/-- What the callbacks of a staging backend do to the flash: a write keeps to
the staging area and the trigger's callbacks to the trailer, a disarm that
succeeds leaves no trigger, and a verification that succeeds approves the
contents and reports the version in their header. -/
structure Stages {σ : Type} (backend : Backend σ) (flash : σ → Flash)
    (cfg : Geometry) : Prop where
  room : Roomy cfg
  begin : ∀ store, flash (invoke backend.begin store).2 = flash store
  write : ∀ write, backend.write = some write → ∀ offset data store, data ≠ [] →
    Confined 0 cfg.reserved (flash store) (flash (write offset data store).2)
  arm : ∀ arm, backend.arm = some arm → ∀ size version store,
    Confined cfg.reserved cfg.sectorSize (flash store) (flash (arm size version store).2)
  disarm : ∀ store, Confined cfg.reserved cfg.sectorSize (flash store)
        (flash (invoke backend.disarm store).2) ∧
      ((invoke backend.disarm store).1 = true →
        ¬Triggered cfg (flash (invoke backend.disarm store).2).bytes)
  canDisarm : backend.disarm.isSome
  refuses : ∀ verify, backend.verify = some verify → ∀ size store,
    (verify size store).1 = none → flash (verify size store).2 = flash store
  approves : ∀ verify, backend.verify = some verify → ∀ size store version,
    (verify size store).1 = some version →
    flash (verify size store).2 = approve (flash store) ∧
      imageVersion (flash store).bytes = some version
  canVerify : backend.verify.isSome

/-- The staged bytes are those of the last approval, the staging area has been
neither erased nor programmed since, and their header's version is not below the
floor. -/
def Sound (cfg : Geometry) (floor : UInt32) (flash : Flash) : Prop :=
  ∃ newer approved older, flash.history = newer ++ .approve approved :: older ∧
    (∀ event ∈ newer, Event.Within cfg.reserved cfg.sectorSize event) ∧
    (∀ i, i < cfg.reserved → flash.bytes i = approved i) ∧
    ∃ version, imageVersion flash.bytes = some version ∧ floor ≤ version

variable {a b : Contents}

theorem halfAt_congr {offset : Nat} (h : a offset = b offset)
    (h' : a (offset + 1) = b (offset + 1)) : halfAt a offset = halfAt b offset := by
  simp only [halfAt, h, h']

theorem longAt_congr {offset : Nat}
    (h : ∀ i, offset ≤ i → i < offset + 4 → a i = b i) : longAt a offset = longAt b offset := by
  simp only [longAt, halfAt, h offset (by omega) (by omega),
    h (offset + 1) (by omega) (by omega), h (offset + 2) (by omega) (by omega),
    h (offset + 2 + 1) (by omega) (by omega)]

theorem scanTags_congr (h : ∀ i, i < imageHeaderSize → a i = b i)
    (rounds offset : Nat) (version : Option UInt32) :
    scanTags a rounds offset version = scanTags b rounds offset version := by
  induction rounds generalizing offset version with
  | zero => rfl
  | succ rounds ih =>
    simp only [scanTags]
    by_cases hend : imageHeaderSize < offset + 4
    · rw [if_pos hend, if_pos hend]
    rw [if_neg hend, if_neg hend, h offset (by omega),
      halfAt_congr (h offset (by omega)) (h (offset + 1) (by omega)),
      halfAt_congr (h (offset + 2) (by omega)) (h (offset + 2 + 1) (by omega))]
    by_cases hlen : imageHeaderSize < offset + 4 + halfAt b (offset + 2)
    · simp only [hlen, if_true, ih]
    have hversion : halfAt b offset = hdrTagVersion ∧ halfAt b (offset + 2) = 4 →
        longAt a (offset + 4) = longAt b (offset + 4) := by
      rintro ⟨-, hfour⟩
      exact longAt_congr fun i _ hi => h i (by omega)
    by_cases htag : halfAt b offset = hdrTagVersion ∧ halfAt b (offset + 2) = 4
    · simp only [ih, if_pos htag, hversion htag]
    · simp only [ih, if_neg htag]

theorem imageVersion_congr (h : ∀ i, i < imageHeaderSize → a i = b i) :
    imageVersion a = imageVersion b := by
  have hmagic : longAt a 0 = longAt b 0 :=
    longAt_congr fun i _ hi => h i (by simp only [imageHeaderSize]; omega)
  simp only [imageVersion, hmagic, scanTags_congr h]

theorem triggered_congr {cfg : Geometry} (hroom : Roomy cfg)
    (h : ∀ i, cfg.reserved ≤ i → a i = b i) : Triggered cfg a ↔ Triggered cfg b := by
  have hspace := hroom.trailer
  have hmagic : longAt a (cfg.size - 4) = longAt b (cfg.size - 4) :=
    longAt_congr fun i hi _ => h i (by omega)
  simp only [Triggered, hmagic, h (cfg.size - 5) (by omega)]

theorem Sound.confined {cfg : Geometry} (hroom : Roomy cfg) {floor : UInt32}
    {before after : Flash} (h : Sound cfg floor before)
    (hconfined : Confined cfg.reserved cfg.sectorSize before after) : Sound cfg floor after := by
  obtain ⟨newer, approved, older, hhistory, hnewer, hstaged, version, hversion, hfloor⟩ := h
  obtain ⟨new, hnew, hwithin⟩ := hconfined.history
  refine ⟨new ++ newer, approved, older, by rw [hnew, hhistory, List.append_assoc],
    fun event hevent => ?_, fun i hi => ?_, version, ?_, hfloor⟩
  · rcases List.mem_append.mp hevent with hmem | hmem
    · exact hwithin event hmem
    · exact hnewer event hmem
  · exact (hconfined.bytes i (.inl hi)).trans (hstaged i hi)
  · rw [← hversion]
    have hheader := hroom.header
    exact imageVersion_congr fun i hi => hconfined.bytes i (.inl (by omega))

section Service

variable {σ : Type} {backend : Backend σ} {flash : σ → Flash} {cfg : Geometry}
  {links : Links σ} {s after : Service σ}

/-- The invariant: a candidate is sound, a trigger releases only what is sound,
and none is there while an image is being written. -/
structure Safe (cfg : Geometry) (flash : σ → Flash) (s : Service σ) : Prop where
  armed : s.ctx.armed = true ↔ s.ctx.state = .staged
  trigger : Triggered cfg (flash s.store).bytes → Sound cfg s.ctx.versionFloor (flash s.store)
  candidate : s.ctx.state = .candidate ∨ s.ctx.state = .staged →
    Sound cfg s.ctx.versionFloor (flash s.store)
  writing : s.ctx.state = .writing → ¬Triggered cfg (flash s.store).bytes

theorem Safe.disarmed (hs : Safe cfg flash s) (h : s.ctx.state ≠ .staged) :
    s.ctx.armed = false := by
  by_contra harmed
  exact h (hs.armed.mp (by simpa using harmed))

theorem Safe.rest (hs : Safe cfg flash s) (hfloor : after.ctx.versionFloor = s.ctx.versionFloor)
    (hflash : flash after.store = flash s.store) (harmed : after.ctx.armed = false)
    (hstate : after.ctx.state = .failed ∨ after.ctx.state = .ready) : Safe cfg flash after where
  armed := by rcases hstate with h | h <;> simp [harmed, h]
  trigger h := by
    rw [hflash] at h ⊢
    exact hfloor ▸ hs.trigger h
  candidate h := by rcases hstate with h' | h' <;> simp [h'] at h
  writing h := by rcases hstate with h' | h' <;> simp [h'] at h

theorem Safe.of_sound (hroom : Roomy cfg) (hsound : Sound cfg s.ctx.versionFloor (flash s.store))
    (hconfined : Confined cfg.reserved cfg.sectorSize (flash s.store) (flash after.store))
    (hfloor : after.ctx.versionFloor = s.ctx.versionFloor)
    (harmed : after.ctx.armed = true ↔ after.ctx.state = .staged)
    (hstate : after.ctx.state ≠ .writing) : Safe cfg flash after :=
  have h : Sound cfg after.ctx.versionFloor (flash after.store) :=
    hfloor ▸ hsound.confined hroom hconfined
  { armed := harmed, trigger := fun _ => h, candidate := fun _ => h
    writing := fun h' => absurd h' hstate }

theorem disarmArmed_confined (hstages : Stages backend flash cfg) :
    Confined cfg.reserved cfg.sectorSize (flash s.store) (flash (disarmArmed backend s).2) := by
  unfold disarmArmed
  split
  · exact (hstages.disarm s.store).1
  · exact .refl _ _ _

theorem put_confined (hstages : Stages backend flash cfg) {data : Bytes}
    (hdata : data ≠ []) (offset : UInt32) (store : σ) :
    Confined 0 cfg.reserved (flash store) (flash (backend.put offset data store).2) := by
  cases hwrite : backend.write with
  | none => simpa [Backend.put, hwrite, invoke] using Confined.refl _ _ _
  | some write =>
    simpa [Backend.put, hwrite, invoke] using hstages.write write hwrite offset data store hdata

theorem fwuProgram_confined (hstages : Stages backend flash cfg) {data : Bytes}
    (hdata : data ≠ []) (offset : UInt32) (store : σ) :
    Confined 0 cfg.reserved (flash store) (flash (fwuProgram backend offset data store).2) := by
  refine @fwuProgram_preserves _ _
    (fun after => Confined 0 cfg.reserved (flash store) (flash after))
    (fun offset data _ hne h => ?_) offset data hdata store (.refl _ _ _)
  exact h.trans (put_confined hstages hne offset _)

theorem Safe.untriggered (hnot : ¬Triggered cfg (flash after.store).bytes)
    (harmed : after.ctx.armed = false)
    (hstate : after.ctx.state ≠ .candidate ∧ after.ctx.state ≠ .staged) : Safe cfg flash after where
  armed := by simp [harmed, hstate.2]
  trigger h := absurd h hnot
  candidate h := (h.elim hstate.1 hstate.2).elim
  writing _ := hnot

theorem verify_bytes (hstages : Stages backend flash cfg)
    {verify : UInt32 → σ → Option UInt32 × σ} (hverify : backend.verify = some verify)
    (size : UInt32) (store : σ) : (flash (verify size store).2).bytes = (flash store).bytes := by
  cases hfound : (verify size store).1 with
  | none => rw [hstages.refuses verify hverify size store hfound]
  | some version =>
    rw [(hstages.approves verify hverify size store version hfound).1]
    rfl

theorem effect_safe (hstages : Stages backend flash cfg)
    (hreset : ∀ reset, links.transport = some reset → ∀ store, flash (reset store).2 = flash store)
    (h : Effect links backend s after) (hs : Safe cfg flash s) : Safe cfg flash after := by
  cases h with
  | nothing => exact hs
  | writes ctx offset data hdata hstate hctx =>
    have harmed := hs.disarmed (by simp [hstate])
    have hconfined := fwuProgram_confined hstages hdata offset s.store
    have hnot : ¬Triggered cfg (flash (fwuProgram backend offset data s.store).2).bytes := by
      rw [triggered_congr hstages.room fun i hi =>
        hconfined.bytes i (.inr (by omega))]
      exact hs.writing hstate
    rcases hctx with rfl | ⟨high, rfl⟩
    · exact .untriggered hnot harmed (by simp [Context.fail])
    · exact .untriggered hnot harmed (by simp [hstate])
  | refuses verify version status hstate hverify =>
    refine .untriggered ?_ (hs.disarmed (by simp [hstate])) (by simp [Context.fail])
    dsimp only
    rw [verify_bytes hstages hverify]
    exact hs.writing hstate
  | accepts verify version hstate hverify hfound hdeclared hfloor =>
    obtain ⟨hflash, hversion⟩ :=
      hstages.approves verify hverify _ s.store version hfound
    have hnot : ¬Triggered cfg (flash (verify s.ctx.writeHigh s.store).2).bytes := by
      rw [verify_bytes hstages hverify]
      exact hs.writing hstate
    refine
      { armed := by simp [hs.disarmed (by simp [hstate])]
        trigger := fun h => absurd h hnot
        candidate := fun _ => ?_
        writing := by simp }
    dsimp only
    rw [hflash]
    exact ⟨[], _, _, rfl, by simp, fun _ _ => rfl, version, hversion, hfloor⟩
  | unverified ctx hstate hverify => simpa [hverify] using hstages.canVerify
  | overtaken hstate => exact hs.rest rfl rfl (hs.disarmed (by simp [hstate])) (.inl rfl)
  | armFails arm hstate harm =>
    exact .of_sound hstages.room (hs.candidate (.inl hstate))
      (hstages.arm arm harm _ _ _) rfl hs.armed (by simp [hstate])
  | arms arm hstate harm =>
    exact .of_sound hstages.room (hs.candidate (.inl hstate))
      (hstages.arm arm harm _ _ _) rfl (by simp) (by simp)
  | cancels hstate =>
    refine hs.rest rfl rfl (hs.disarmed ?_) (.inl rfl)
    rcases hstate with h | h <;> simp [h]
  | disarmFails hstate hfails =>
    -- a disarm is attempted, and can fail, only where the swap is armed
    have hstaged : s.ctx.state = .staged := by
      by_contra hnot
      simp [disarmArmed, hs.disarmed hnot] at hfails
    exact .of_sound hstages.room (hs.candidate (.inr hstaged))
      (disarmArmed_confined hstages) rfl hs.armed (by simp [hstaged])
  | cleans hstate =>
    have harmed : s.ctx.armed = false := hs.disarmed (by rcases hstate with h | h <;> simp [h])
    exact hs.rest rfl (by simp [disarmArmed, harmed]) rfl (.inr rfl)
  | rejects error hstate =>
    exact .of_sound hstages.room (hs.candidate (.inr hstate))
      (disarmArmed_confined hstages) rfl (by simp [Context.fail])
      (by simp [Context.fail])
  | resets reset htransport hstate =>
    have hflash := hreset reset htransport s.store
    exact .of_sound hstages.room (hs.candidate (.inr hstate))
      (hflash ▸ .refl _ _ _) rfl hs.armed (by simp [hstate])

theorem forceDisarm_eq (hbackend : links.backend = some backend) (hdisarm : backend.disarm.isSome) :
    forceDisarm links s = disarmArmed backend s := by
  obtain ⟨disarm, hdisarm⟩ := Option.isSome_iff_exists.mp hdisarm
  simp [forceDisarm, disarmArmed, hbackend, hdisarm, invoke]

/-- After the reclaim an update may be opened only where no trigger is left,
unless one was left without being marked as armed. -/
theorem reclaim_safe (hstages : Stages backend flash cfg)
    (hbackend : links.backend = some backend) (hs : Safe cfg flash s)
    (client : Int) (tick : UInt32) :
    let reclaimed := (fwuReclaim links client tick s).2
    Safe cfg flash reclaimed ∧ (reclaimed.ctx.state = .ready →
        Triggered cfg (flash reclaimed.store).bytes →
        Triggered cfg (flash s.store).bytes ∧ s.ctx.armed = false) := by
  intro reclaimed
  have hcases : Reclaims links client tick s (fwuReclaim links client tick s) :=
    fwuReclaim_cases _ _
  have hdisarm := @forceDisarm_eq _ backend links s hbackend hstages.canDisarm
  generalize hresult : fwuReclaim links client tick s = result at hcases
  have heq : reclaimed = result.2 := by rw [← hresult]
  rw [heq]
  cases hcases with
  | keeps =>
    refine ⟨hs, fun (hready : s.ctx.state = .ready) h => ⟨h, hs.disarmed ?_⟩⟩
    simp [hready]
  | ends _ hdisarmed =>
    rw [hdisarm] at hdisarmed ⊢
    by_cases harmed : s.ctx.armed = true
    · have hflash : disarmArmed backend s = invoke backend.disarm s.store := if_pos harmed
      rw [hflash] at hdisarmed ⊢
      have hnot := (hstages.disarm s.store).2 hdisarmed
      exact ⟨.untriggered hnot rfl (by simp [Context.cleared]), fun _ h => absurd h hnot⟩
    · replace harmed : s.ctx.armed = false := by simpa using harmed
      have hstore : (disarmArmed backend s).2 = s.store := by simp [disarmArmed, harmed]
      rw [hstore]
      exact ⟨hs.rest rfl rfl rfl (.inr rfl), fun _ h => ⟨h, harmed⟩⟩
  | fails _ hfails =>
    rw [hdisarm] at hfails ⊢
    have hstaged : s.ctx.state = .staged := by
      by_contra hnot
      simp [disarmArmed, hs.disarmed hnot] at hfails
    exact ⟨.of_sound hstages.room (hs.candidate (.inr hstaged))
      (disarmArmed_confined hstages) rfl hs.armed (by simp [hstaged]),
      fun h => by simp [hstaged] at h⟩

theorem Safe.settle (hs : Safe cfg flash s) (op : Op) (client : Int) (tick : UInt32) :
    Safe cfg flash ⟨fwuSettle op client tick s.ctx, s.store⟩ := by
  obtain ⟨owner, ownerTick, heq, -⟩ :=
    FwuStateMachine.fwuSettle_eq op client tick s.ctx
  rw [heq]
  exact ⟨hs.armed, hs.trigger, hs.candidate, hs.writing⟩

theorem request_safe (hstages : Stages backend flash cfg) (hbackend : links.backend = some backend)
    (hreset : ∀ reset, links.transport = some reset → ∀ store, flash (reset store).2 = flash store)
    (hs : Safe cfg flash s) (op : Op) (msg : Message) (req : Req)
    (block : Bytes) (tick : UInt32)
    (hstart : op = .start → Triggered cfg (flash s.store).bytes → s.ctx.armed = true) :
    Safe cfg flash (fwuRequest links op msg req block tick s).2 := by
  obtain ⟨hsafe, hleft⟩ := reclaim_safe hstages hbackend hs msg.clientId tick
  obtain ⟨-, heq, -⟩ | ⟨-, -, -, heq⟩ :=
    @fwuRequest_cases _ links s op msg req block tick
  · rw [heq]
    exact hsafe
  rw [heq]
  refine Safe.settle ?_ op msg.clientId tick
  by_cases hop : op = .start
  · subst hop
    have heffect := @fwuPerform_start _ links backend
      (fwuReclaim links msg.clientId tick s).2 hbackend msg req block tick
    generalize fwuPerform links .start msg req block tick
      (fwuReclaim links msg.clientId tick s).2 = performed at heffect ⊢
    generalize (fwuReclaim links msg.clientId tick s).2 = reclaimed at hsafe hleft heffect
    obtain ⟨⟨status, written⟩, after⟩ := performed
    cases heffect with
    | refuses => exact hsafe
    | beginFails hready =>
      exact hsafe.rest rfl (hstages.begin _) (hsafe.disarmed (by simp [hready])) (.inr hready)
    | opens hready =>
      refine .untriggered ?_ rfl (by simp [Context.opened])
      dsimp only
      rw [hstages.begin]
      intro htriggered
      obtain ⟨hbefore, harmed⟩ := hleft hready htriggered
      simp [harmed] at hstart
      exact hstart hbefore
  · exact effect_safe hstages hreset (fwuPerform_effect hbackend hop _ _ _ _) hsafe

end Service

/-- What happens to the partition: a turn of its loop, or a restart that is
given a floor and an active version. -/
inductive Step
  | turn (arrival : Arrival)
  | restart (floor active : Option UInt32)
  deriving DecidableEq, Repr

def step {σ : Type} (links : Links σ) (s : Service σ) : Step → Service σ
  | .turn arrival => serve links s arrival
  | .restart floor active => { s with ctx := spmFwuEntry floor active }

/-- The floor a restart is given does not exceed the version of a header. -/
def FloorMet (floor : UInt32) (bytes : Contents) : Prop :=
  ∃ version ∈ imageVersion bytes, floor ≤ version

instance (floor : UInt32) (bytes : Contents) : Decidable (FloorMet floor bytes) :=
  match h : imageVersion bytes with
  | none => .isFalse (by simp [FloorMet, h])
  | some version =>
    decidable_of_iff (floor ≤ version) (by simp [FloorMet, h])

/-- The condition on a step: no start is taken while the trailer holds a trigger
that the context does not know of, and a restart that finds a trigger is not
given a floor above the version that is staged. -/
def Careful {σ : Type} (cfg : Geometry) (flash : σ → Flash) (s : Service σ) : Step → Prop
  | .turn arrival =>
    (operation arrival).map Prod.fst = some .start →
      Triggered cfg (flash s.store).bytes → s.ctx.armed = true
  | .restart floor active =>
    Triggered cfg (flash s.store).bytes →
      FloorMet (spmFwuEntry floor active).versionFloor (flash s.store).bytes

instance {σ : Type} (cfg : Geometry) (flash : σ → Flash) (s : Service σ) :
    DecidablePred (Careful cfg flash s)
  | .turn _ => inferInstanceAs (Decidable (_ → _ → _))
  | .restart _ _ => inferInstanceAs (Decidable (_ → _))

theorem step_safe {σ : Type} {backend : Backend σ} {flash : σ → Flash} {cfg : Geometry}
    {links : Links σ} (hstages : Stages backend flash cfg)
    (hbackend : links.backend = some backend) (htransport : links.transport ≠ none)
    (hreset : ∀ reset, links.transport = some reset → ∀ store, flash (reset store).2 = flash store)
    (s : Service σ) (a : Step) (hs : Safe cfg flash s) (hcareful : Careful cfg flash s a) :
    Safe cfg flash (step links s a) := by
  cases a with
  | turn arrival =>
    obtain ⟨-, heq⟩ | ⟨msg, tick, delivered, op, req, block, rfl, hop, heq⟩ :=
      @serve_cases _ links s htransport arrival
    · rw [step, heq]
      exact hs
    · rw [step, heq]
      refine request_safe hstages hbackend hreset hs op msg req block tick ?_
      rintro rfl
      exact hcareful (by simp [hop])
  | restart =>
    refine
      { armed := by simp [step, spmFwuEntry]
        trigger := fun htriggered => ?_
        candidate := fun h => by simp [step, spmFwuEntry] at h
        writing := fun h => by simp [step, spmFwuEntry] at h }
    obtain ⟨newer, approved, older, hhistory, hnewer, hstaged, -⟩ :=
      hs.trigger htriggered
    obtain ⟨version, hversion, hfloor⟩ := hcareful htriggered
    exact ⟨newer, approved, older, hhistory, hnewer, hstaged, version, hversion, hfloor⟩

section Ports

variable {faults : Faults} {lo n offset : Nat} {data : Bytes}

theorem hsmFlashErase_confined {cfg : Geometry} {lo n offset size : Nat}
    (hlo : lo ≤ offset) (hhi : offset + size ≤ lo + n) (part : Part) :
    Confined lo n part.flash (hsmFlashErase cfg faults offset size part).2.flash := by
  unfold hsmFlashErase
  split
  · exact .refl _ _ _
  split
  · exact .refl _ _ _
  split
  · exact .refl _ _ _
  · exact erase_confined hlo hhi faults part.flash

theorem hsmFlashProgram_confined {cfg : Geometry}
    (hlo : lo ≤ offset) (hhi : offset + data.length ≤ lo + n) (part : Part) :
    Confined lo n part.flash (hsmFlashProgram cfg faults offset data part).2.flash := by
  unfold hsmFlashProgram
  split
  · exact .refl _ _ _
  split
  · exact .refl _ _ _
  split
  · exact .refl _ _ _
  · exact program_confined hlo hhi faults part.flash

theorem confined_then {σ : Type} {flash : σ → Flash} {lo n : Nat} {before : Flash}
    {first : Bool × σ} {next : Bool × σ} (h : Confined lo n before (flash first.2))
    (h' : Confined lo n (flash first.2) (flash next.2)) :
    Confined lo n before (flash (if first.1 then next else first).2) := by
  split
  · exact h.trans h'
  · exact h

theorem orDisarm_confined {σ : Type} {flash : σ → Flash} {lo n : Nat} {disarm : σ → Bool × σ}
    (h : ∀ store, Confined lo n (flash store) (flash (disarm store).2)) (armed : Bool × σ) :
    Confined lo n (flash armed.2)
      (flash (if armed.1 then armed else (false, (disarm armed.2).2)).2) := by
  split
  · exact .refl _ _ _
  · exact h _

theorem hsmFlashErase_untriggered {cfg : Geometry} (hroom : Roomy cfg)
    (hsector : cfg.sectorSize ≠ 0) {part : Part}
    (h : (hsmFlashErase cfg faults cfg.reserved cfg.sectorSize part).1 = true) :
    ¬Triggered cfg (hsmFlashErase cfg faults cfg.reserved cfg.sectorSize part).2.flash.bytes := by
  rintro ⟨hstate, -⟩
  have htrailer := hroom.trailer
  have hsize := hroom.sector
  unfold hsmFlashErase at h hstate
  split at h
  · cases h
  split at h
  · cases h
  rw [if_neg (by assumption), if_neg (by assumption), if_neg hsector] at hstate
  have hblank := @erase_blank faults cfg.reserved cfg.sectorSize part.flash h
    (cfg.size - 5) (by omega) (by omega)
  rw [show (erase faults cfg.reserved cfg.sectorSize part.flash).2.bytes
    (cfg.size - 5) = wolfbootImgStateUpdating from hstate] at hblank
  exact absurd hblank (by decide)

theorem headerVersion_some {hdr : Contents} {stagedSize : Nat} {version : UInt32}
    (h : headerVersion hdr stagedSize = some version) : imageVersion hdr = some version := by
  unfold headerVersion at h
  split at h
  · cases h
  split at h
  · cases h
  · exact h

theorem triggerBlock_length {cfg : Geometry} {block : Bytes}
    (h : triggerBlock cfg = some block) : block.length = cfg.programUnit := by
  unfold triggerBlock fwuWolfbootArmTrailer at h
  split at h
  · cases h
  · cases h
    simp only [List.length_append, List.length_replicate, List.length_cons, List.length_nil]
    omega

theorem end_le_reserved {reserved offset size : Nat}
    (h : ¬(reserved ≤ offset ∨ reserved - offset < size)) : offset + size ≤ reserved := by
  omega

namespace Stm32h563

open FwuFlash.Stm32h563

theorem room : Roomy cfg := ⟨by decide, by decide, by decide⟩

theorem eraseSector_confined {lo n s : Nat} (hlo : lo ≤ s * cfg.sectorSize)
    (hhi : s * cfg.sectorSize + cfg.sectorSize ≤ lo + n) (store : Store) :
    Confined lo n store.part.flash (eraseSector faults s store).2.part.flash := by
  unfold eraseSector
  split
  · exact .refl _ _ _
  · exact hsmFlashErase_confined hlo hhi store.part

theorem sector_within {first count offset size s : Nat} (hlo : first * 8192 ≤ offset)
    (hhi : offset + size ≤ (first + count) * 8192) (hsize : 0 < size) (h : offset / 8192 ≤ s)
    (h' : s < offset / 8192 + ((offset + size - 1) / 8192 + 1 - offset / 8192)) :
    first * 8192 ≤ s * 8192 ∧ s * 8192 + 8192 ≤ first * 8192 + count * 8192 := by
  omega

theorem fwuEnsureErased_confined {first count offset size : Nat}
    (hlo : first * cfg.sectorSize ≤ offset)
    (hhi : offset + size ≤ (first + count) * cfg.sectorSize) (hsize : 0 < size) (store : Store) :
    Confined (first * cfg.sectorSize) (count * cfg.sectorSize) store.part.flash
      (fwuEnsureErased faults offset size store).2.part.flash := by
  refine @untilFailure_preserves _ _
    (fun after => Confined (first * cfg.sectorSize) (count * cfg.sectorSize)
      store.part.flash after.part.flash) _ (fun s hs after h => ?_) store
    (.refl _ _ _)
  rw [if_neg (by omega)] at hs
  obtain ⟨hfirst, hlast⟩ := List.mem_range'_1.mp hs
  obtain ⟨hlo, hhi⟩ := sector_within hlo hhi hsize hfirst hlast
  exact h.trans (eraseSector_confined hlo hhi after)

theorem programChecked_confined
    (hlo : lo ≤ offset) (hhi : offset + data.length ≤ lo + n) (store : Store) :
    Confined lo n store.part.flash (programChecked faults offset data store).2.part.flash :=
  hsmFlashProgram_confined hlo hhi store.part

theorem disarm_confined (store : Store) : Confined cfg.reserved cfg.sectorSize store.part.flash
      (fwuBackendDisarm faults store).2.part.flash :=
  hsmFlashErase_confined le_rfl le_rfl store.part

theorem ensureErased_staging {offset size : Nat} (hsize : 0 < size)
    (hend : offset + size ≤ cfg.reserved) (store : Store) :
    Confined 0 cfg.reserved store.part.flash
      (fwuEnsureErased faults offset size store).2.part.flash := by
  have hreserved : cfg.reserved = 31 * cfg.sectorSize := rfl
  have h := @fwuEnsureErased_confined faults 0 31 offset size (by simp)
    (by rwa [Nat.zero_add, ← hreserved]) hsize store
  rwa [Nat.zero_mul, ← hreserved] at h

theorem ensureErased_trailer (store : Store) : Confined cfg.reserved cfg.sectorSize store.part.flash
      (fwuEnsureErased faults (cfg.size - cfg.programUnit) 16 store).2.part.flash := by
  have hreserved : cfg.reserved = 31 * cfg.sectorSize := rfl
  have h := @fwuEnsureErased_confined faults 31 1 (cfg.size - cfg.programUnit)
    16 (by decide) (by decide) (by decide) store
  rwa [Nat.one_mul, ← hreserved] at h

theorem write_confined (hdata : data ≠ []) (offset : UInt32) (store : Store) :
    Confined 0 cfg.reserved store.part.flash
      (fwuBackendWrite faults offset data store).2.part.flash := by
  unfold fwuBackendWrite
  split
  · exact .refl _ _ _
  case isFalse hfits =>
    have hend := end_le_reserved hfits
    have hblank := @ensureErased_staging faults offset.toNat data.length
      (List.length_pos_of_ne_nil hdata) hend store
    have hprogram : ∀ store : Store, Confined 0 cfg.reserved store.part.flash
        (programChecked faults offset.toNat data store).2.part.flash :=
      programChecked_confined (Nat.zero_le _) (by rwa [Nat.zero_add])
    exact @confined_then _ (fun store : Store => store.part.flash) _ _ _ _ _ hblank (hprogram _)

theorem arm_confined (size version : UInt32) (store : Store) :
    Confined cfg.reserved cfg.sectorSize store.part.flash
      (fwuBackendArm faults size version store).2.part.flash := by
  unfold fwuBackendArm
  split
  · exact .refl _ _ _
  case h_2 block hblock =>
    have hlength : block.length = 16 := triggerBlock_length hblock
    have hblank := @ensureErased_trailer faults store
    have hprogram : ∀ store : Store, Confined cfg.reserved cfg.sectorSize
        store.part.flash (programChecked faults (cfg.size - cfg.programUnit)
          block store).2.part.flash := fun store =>
      programChecked_confined (by decide) (by rw [hlength]; decide) store
    rw [← hlength] at hblank
    exact @confined_then _ (fun store : Store => store.part.flash) _ _ _ _ _
      hblank ((hprogram _).trans (@orDisarm_confined Store (·.part.flash) _ _ _ disarm_confined _))

theorem stages (faults : Faults) :
    Stages (fwuFlashBackend faults) (fun store => store.part.flash) cfg where
  room := room
  begin _ := rfl
  write := by
    rintro _ ⟨⟩ offset data store hdata
    exact write_confined hdata offset store
  arm := by
    rintro _ ⟨⟩ size version store
    exact arm_confined size version store
  disarm store := ⟨disarm_confined store, hsmFlashErase_untriggered room (by decide)⟩
  canDisarm := rfl
  refuses := by
    rintro _ ⟨⟩ size store hfound
    unfold fwuBackendVerify at hfound ⊢
    split at hfound
    · rfl
    · cases hfound
  approves := by
    rintro _ ⟨⟩ size store version hfound
    unfold fwuBackendVerify at hfound ⊢
    split at hfound
    · cases hfound
    case h_2 found hheader =>
      cases hfound
      exact ⟨rfl, headerVersion_some hheader⟩
  canVerify := rfl

end Stm32h563

namespace Mimxrt700

open FwuFlash.Mimxrt700

theorem room : Roomy cfg := ⟨by decide, by decide, by decide⟩

theorem eraseAt_confined {s : Nat} (hs : s < cfg.reserved) (store : Store) :
    Confined 0 cfg.reserved store.part.flash (eraseAt faults s store).2.part.flash := by
  have herase : Confined 0 cfg.reserved store.part.flash
      (hsmFlashErase cfg faults s cfg.sectorSize store.part).2.flash := by
    by_cases haligned : s % cfg.sectorSize = 0
    · refine hsmFlashErase_confined (Nat.zero_le _) ?_ store.part
      have hreserved : cfg.reserved = 63 * 4096 := rfl
      have hsector : cfg.sectorSize = 4096 := rfl
      rw [hreserved] at hs ⊢
      rw [hsector] at haligned ⊢
      omega
    · unfold hsmFlashErase
      rw [if_pos (.inr (.inl haligned))]
      exact .refl _ _ _
  unfold eraseAt
  dsimp only
  split <;> exact herase

theorem sector_below {start i finish : Nat} (hend : finish ≤ 63 * 4096)
    (hi : i < ((finish + 4096 - 1) / 4096 * 4096 - start + 4096 - 1) / 4096) :
    start + 4096 * i < 63 * 4096 := by
  omega

theorem ensureErased_staging {offset size : Nat}
    (hend : offset + size ≤ cfg.reserved) (store : Store) :
    Confined 0 cfg.reserved store.part.flash
      (fwuEnsureErased faults offset size store).2.part.flash := by
  refine @untilFailure_preserves _ _
    (fun after => Confined 0 cfg.reserved store.part.flash after.part.flash) _
    (fun s hs after h => ?_) store (.refl _ _ _)
  obtain ⟨i, hi, rfl⟩ := List.mem_range'.mp hs
  exact h.trans (eraseAt_confined (sector_below hend hi) after)

theorem programChecked_confined
    (hlo : lo ≤ offset) (hhi : offset + data.length ≤ lo + n) (store : Store) :
    Confined lo n store.part.flash (programChecked faults offset data store).2.part.flash :=
  hsmFlashProgram_confined hlo hhi store.part

theorem disarm_confined (store : Store) : Confined cfg.reserved cfg.sectorSize store.part.flash
      (fwuBackendDisarm faults store).2.part.flash :=
  hsmFlashErase_confined le_rfl le_rfl store.part

theorem write_confined (offset : UInt32) (data : Bytes) (store : Store) :
    Confined 0 cfg.reserved store.part.flash
      (fwuBackendWrite faults offset data store).2.part.flash := by
  unfold fwuBackendWrite
  split
  · exact .refl _ _ _
  case isFalse hfits =>
    have hend : offset.toNat + data.length ≤ cfg.reserved :=
      end_le_reserved fun h => hfits (h.imp id .inl)
    have hprogram : ∀ store : Store, Confined 0 cfg.reserved store.part.flash
        (programChecked faults offset.toNat data store).2.part.flash :=
      programChecked_confined (Nat.zero_le _) (by rwa [Nat.zero_add])
    have hcounted : ∀ done : Bool × Store, Confined 0 cfg.reserved done.2.part.flash (if done.1 then
          (true, { done.2 with writtenEnd := offset.toNat + data.length })
          else done).2.part.flash := by
      intro done
      split <;> exact .refl _ _ _
    exact @confined_then _ (fun store : Store => store.part.flash) _ _ _ _ _
      (ensureErased_staging hend store) ((hprogram _).trans (hcounted _))

theorem arm_confined (size version : UInt32) (store : Store) :
    Confined cfg.reserved cfg.sectorSize store.part.flash
      (fwuBackendArm faults size version store).2.part.flash := by
  unfold fwuBackendArm
  split
  · exact .refl _ _ _
  case h_2 block hblock =>
    have hlength : block.length = 16 := triggerBlock_length hblock
    have hprogram : ∀ store : Store, Confined cfg.reserved cfg.sectorSize
        store.part.flash (programChecked faults (cfg.size - cfg.programUnit)
          block store).2.part.flash := fun store =>
      programChecked_confined (by decide) (by rw [hlength]; decide) store
    exact @confined_then _ (fun store : Store => store.part.flash) _ _ _ _ _
      (disarm_confined store)
      ((hprogram _).trans (@orDisarm_confined Store (·.part.flash) _ _ _ disarm_confined _))

theorem verify_cases (size : UInt32) (store : Store) : ((fwuBackendVerify size store).1 = none ∧
      (fwuBackendVerify size store).2.part.flash = store.part.flash) ∨
    ∃ version, (fwuBackendVerify size store).1 = some version ∧
      (fwuBackendVerify size store).2.part.flash = approve store.part.flash ∧
      imageVersion store.part.flash.bytes = some version := by
  unfold fwuBackendVerify
  split
  · exact .inl ⟨rfl, rfl⟩
  split
  · exact .inl ⟨rfl, rfl⟩
  case h_2 version hheader =>
    exact .inr ⟨version, rfl, rfl, headerVersion_some hheader⟩

theorem stages (faults : Faults) :
    Stages (fwuFlashBackend faults) (fun store => store.part.flash) cfg where
  room := room
  begin _ := rfl
  write := by
    rintro _ ⟨⟩ offset data store -
    exact write_confined offset data store
  arm := by
    rintro _ ⟨⟩ size version store
    exact arm_confined size version store
  disarm store := ⟨disarm_confined store, hsmFlashErase_untriggered room (by decide)⟩
  canDisarm := rfl
  refuses := by
    rintro _ ⟨⟩ size store hfound
    rcases verify_cases size store with ⟨-, hkept⟩ | ⟨_, hsome, -⟩
    · exact hkept
    · rw [hsome] at hfound
      cases hfound
  approves := by
    rintro _ ⟨⟩ size store version hfound
    rcases verify_cases size store with ⟨hnone, -⟩ | ⟨_, hsome, hkept, hver⟩
    · rw [hnone] at hfound
      cases hfound
    · rw [hsome] at hfound
      cases hfound
      exact ⟨hkept, hver⟩
  canVerify := rfl

end Mimxrt700

theorem Stages.gate {σ : Type} {backend : Backend σ} {flash : σ → Flash} {cfg : Geometry}
    (h : Stages backend flash cfg) : Stages (spmFwuGate backend) flash cfg where
  room := h.room
  begin store := by
    have hbegin := h.begin store
    cases hcall : backend.begin <;> simp_all [spmFwuGate, invoke]
  write := by
    rintro _ ⟨⟩ offset data store hdata
    cases hcall : backend.write with
    | none => exact .refl _ _ _
    | some write => exact h.write write hcall offset data store hdata
  arm := by
    rintro _ ⟨⟩ size version store
    cases hcall : backend.arm with
    | none => exact .refl _ _ _
    | some arm => exact h.arm arm hcall size version store
  disarm store := by
    have hdisarm := h.disarm store
    obtain ⟨disarm, hcall⟩ := Option.isSome_iff_exists.mp h.canDisarm
    simpa [spmFwuGate, invoke, hcall] using hdisarm
  canDisarm := rfl
  refuses := by
    rintro _ ⟨⟩ size store
    obtain ⟨verify, hcall⟩ := Option.isSome_iff_exists.mp h.canVerify
    simpa [hcall] using h.refuses verify hcall size store
  approves := by
    rintro _ ⟨⟩ size store version
    obtain ⟨verify, hcall⟩ := Option.isSome_iff_exists.mp h.canVerify
    simpa [hcall] using h.approves verify hcall size store version
  canVerify := rfl

end Ports

/-- In every run whose steps are careful, from a flash without a trigger, a
trigger only ever releases what is sound. -/
theorem careful_run_safe {σ : Type} {backend : Backend σ} {flash : σ → Flash}
    {cfg : Geometry} (hstages : Stages backend flash cfg) (granted : Bool)
    (floor active : Option UInt32) (store : σ)
    (hblank : ¬Triggered cfg (flash store).bytes) (steps : List Step)
    (hcareful : Along (step (spmFwuLinks backend granted)) (Careful cfg flash)
      ⟨spmFwuEntry floor active, store⟩ steps) :
    Safe cfg flash (run (step (spmFwuLinks backend granted))
      ⟨spmFwuEntry floor active, store⟩ steps) := by
  refine run_induction (fun s a hs ha => ?_) ?_ hcareful
  · exact step_safe hstages.gate rfl (by simp [spmFwuLinks]) (by rintro _ ⟨⟩ store; rfl) s a hs ha
  · exact .untriggered hblank rfl (by simp [spmFwuEntry])

/-- The trigger's integrity on both ports, whatever flash operations fail. -/
theorem trigger_integrity (faults : Faults) (granted : Bool)
    (floor active : Option UInt32) (steps : List Step) :
    (∀ store : Stm32h563.Store,
      let flash := fun store : Stm32h563.Store => store.part.flash
      let links := spmFwuLinks (Stm32h563.fwuFlashBackend faults) granted
      let start : Service Stm32h563.Store := ⟨spmFwuEntry floor active, store⟩
      let s := run (step links) start steps
      ¬Triggered Stm32h563.cfg (flash store).bytes →
      Along (step links) (Careful Stm32h563.cfg flash) start steps →
      Triggered Stm32h563.cfg (flash s.store).bytes →
      Sound Stm32h563.cfg s.ctx.versionFloor (flash s.store)) ∧
    (∀ store : Mimxrt700.Store,
      let flash := fun store : Mimxrt700.Store => store.part.flash
      let links := spmFwuLinks (Mimxrt700.fwuFlashBackend faults) granted
      let start : Service Mimxrt700.Store := ⟨spmFwuEntry floor active, store⟩
      let s := run (step links) start steps
      ¬Triggered Mimxrt700.cfg (flash store).bytes →
      Along (step links) (Careful Mimxrt700.cfg flash) start steps →
      Triggered Mimxrt700.cfg (flash s.store).bytes →
      Sound Mimxrt700.cfg s.ctx.versionFloor (flash s.store)) := by
  refine ⟨fun store => ?_, fun store => ?_⟩
  · intro flash links start s hblank hcareful
    exact (careful_run_safe (Stm32h563.stages faults) granted floor active store
      hblank steps hcareful).trigger
  · intro flash links start s hblank hcareful
    exact (careful_run_safe (Mimxrt700.stages faults) granted floor active store
      hblank steps hcareful).trigger

def sampleHeader : Bytes :=
  [0x57, 0x4F, 0x4C, 0x46, 0, 0, 0, 0, 1, 0, 4, 0, 7, 0, 0, 0] ++ List.replicate 16 0

def sampleInstall : List Step :=
  [.turn (arrivalOf (psaFwuStart 5 0 none) 0), .turn (arrivalOf (psaFwuWrite 5 0 0 sampleHeader) 1),
    .turn (arrivalOf (psaFwuWrite 5 0 0x3F0 (List.replicate 16 0)) 2),
    .turn (arrivalOf (psaFwuFinish 5 0) 3),
    .turn (arrivalOf (psaFwuInstall 5) 4)]

def sampleStore : Stm32h563.Store :=
  { part := { flash := { bytes := fun _ => 0xFF, history := [] }
              writeLocked := false }
    erasedSectors := 0 }

def sampleRun (steps : List Step) : Service Stm32h563.Store :=
  run (step (spmFwuLinks (Stm32h563.fwuFlashBackend reliable) false))
    ⟨spmFwuEntry (some 3) none, sampleStore⟩ steps

theorem trigger_integrity_sample :
    Triggered Stm32h563.cfg (sampleRun sampleInstall).store.part.flash.bytes ∧
      Sound Stm32h563.cfg (sampleRun sampleInstall).ctx.versionFloor
        (sampleRun sampleInstall).store.part.flash := by
  have htriggered : Triggered Stm32h563.cfg
      (sampleRun sampleInstall).store.part.flash.bytes := by decide +kernel
  exact ⟨htriggered, (trigger_integrity reliable false (some 3) none
    sampleInstall).1 sampleStore (by decide +kernel) (by decide +kernel)
    htriggered⟩

def span : Event → Option (Nat × Nat)
  | .erase offset size => some (offset, size)
  | .program offset size => some (offset, size)
  | .approve _ => none

/-- The partition restarts with the trigger in place, and the next start and
write erase and program the image it releases. -/
def sampleOverwrite : List Step :=
  sampleInstall ++
    [.restart (some 3) none, .turn (arrivalOf (psaFwuStart 5 0 none) 5),
      .turn (arrivalOf (psaFwuWrite 5 0 0 (List.replicate 16 0)) 6)]

theorem restart_overwrites :
    let flash := (sampleRun sampleOverwrite).store.part.flash
    Triggered Stm32h563.cfg flash.bytes ∧ flash.history.head?.bind span = some (0, 16) ∧
      imageVersion flash.bytes = none ∧
      ¬Sound Stm32h563.cfg (sampleRun sampleOverwrite).ctx.versionFloor flash := by
  have hnone : imageVersion (sampleRun sampleOverwrite).store.part.flash.bytes =
      none := by decide +kernel
  refine ⟨by decide +kernel, by decide +kernel, hnone, ?_⟩
  rintro ⟨-, -, -, -, -, -, version, hversion, -⟩
  rw [hnone] at hversion
  cases hversion

end WolfTrust.FwuTrigger
