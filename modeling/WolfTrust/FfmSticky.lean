import WolfTrust.FfmPublication
import WolfTrust.FfmSessionRuns

namespace WolfTrust.FfmSticky

open Domain Manifest ByteMemory FfmRuntime FfmClient FfmService SpmGate
  GateOperations FfmMachine FfmTables FfmInvariant FfmTransition FfmOperations
  FfmPreservation FfmRestart FfmLayout FfmDiscipline FfmSessions FfmSessionRuns
  FfmPublication

/-- A connection that can never be idle again. -/
inductive Dead (s : Session) : Prop
  | dropped (hstate : s.connection.state = .error)
      (hlatch : ∀ m message, s.message = some (m, message) →
        message.complete = false → s.connection.errorLatch = true)
  | latched (hstate : s.connection.state = .pendingRequest ∨
        s.connection.state = .active)
      (hlatch : s.connection.errorLatch = true)
  | closing (hstate : s.connection.state = .disconnecting ∨
        s.connection.state = .terminal)
  | orphaned (hstate : s.connection.state = .connecting)
      (hleft : ∀ m message, s.message = some (m, message) → message.abandoned ≠ .no)

section Dead

variable {kept : Set MessageIndex} {s : Session} {connection : Connection}

theorem Dead.not_idle (h : Dead s) : s.connection.state ≠ .idle := by
  intro hidle
  cases h with
  | dropped hstate => simp [hidle] at hstate
  | latched hstate => simp [hidle] at hstate
  | closing hstate => simp [hidle] at hstate
  | orphaned hstate => simp [hidle] at hstate

theorem dead_error
    {message : Option (MessageIndex × Message)}
    (hstate : connection.state = .error)
    (hcomplete : ∀ m content, message = some (m, content) →
      content.complete = true) : Dead ⟨connection, message⟩ := by
  refine .dropped hstate fun m content hm hpending => ?_
  rw [hcomplete m content hm] at hpending
  cases hpending

theorem Dead.drop (h : Dead s) : Dead ⟨s.connection, none⟩ := by
  cases h with
  | dropped hstate => exact dead_error hstate fun _ _ hm => by cases hm
  | latched hstate hlatch => exact .latched hstate hlatch
  | closing hstate => exact .closing hstate
  | orphaned hstate => exact .orphaned hstate fun _ _ hm => by cases hm

theorem Dead.fate (h : Dead s) (fate : Fate)
    (hallocated : (fate.apply s.connection).allocated = true) :
    Dead ⟨fate.apply s.connection, none⟩ := by
  cases fate with
  | kept => exact h.drop
  | failed => exact dead_error rfl fun _ _ hm => by cases hm
  | freed => exact absurd hallocated Bool.false_ne_true

theorem SessionOk.not_free (hok : SessionOk s) (hallocated : s.connection.allocated = true) :
    s.connection.state ≠ .free := by
  intro hfree
  cases hmessage : s.message with
  | none =>
    have halone := hok.alone hmessage hallocated
    simp [Alone, hfree] at halone
  | some pair =>
    have hlegal := (hok.belongs pair.1 pair.2 hmessage).1.legal
    by_cases hcomplete : pair.2.complete = true
    · have halone := Legal.complete hlegal hcomplete
      simp [Alone, hfree] at halone
    · rw [Bool.not_eq_true] at hcomplete
      exact (Legal.incomplete hlegal hcomplete).1 hfree

theorem dead_refused (hok : SessionOk s) (hallocated : s.connection.allocated = true)
    (hpending : s.connection.state ≠ .pendingConnect)
    (hconnecting : s.connection.state ≠ .connecting) :
    Dead ⟨refusedConnection s.connection, s.message⟩ := by
  unfold refusedConnection
  split
  · rename_i hidle
    refine dead_error rfl fun m message hm => ?_
    by_contra hcomplete
    rw [Bool.not_eq_true] at hcomplete
    exact (Legal.incomplete (hok.belongs m message hm).1.legal hcomplete).2.2 hidle
  · rename_i hbusy
    cases hstate : s.connection.state with
    | free => exact absurd hstate (SessionOk.not_free hok hallocated)
    | pendingConnect => exact absurd hstate hpending
    | connecting => exact absurd hstate hconnecting
    | idle => exact absurd hstate hbusy
    | pendingRequest => exact .latched (.inl rfl) rfl
    | active => exact .latched (.inr rfl) rfl
    | disconnecting => exact .closing (.inl rfl)
    | error => exact .dropped rfl fun _ _ _ _ => rfl
    | terminal => exact .closing (.inr rfl)

theorem Dead.refused (h : Dead s) : Dead ⟨refusedConnection s.connection, s.message⟩ := by
  rw [refusedConnection, if_neg h.not_idle]
  cases h with
  | dropped hstate => exact .dropped hstate fun _ _ _ _ => rfl
  | latched hstate => exact .latched hstate rfl
  | closing hstate => exact .closing hstate
  | orphaned hstate hleft => exact .orphaned hstate hleft

theorem Dead.reversed (h : Dead s) (rhandle : Nat) :
    Dead ⟨{ s.connection with rhandle := rhandle }, s.message⟩ := by
  cases h with
  | dropped hstate hlatch => exact .dropped hstate hlatch
  | latched hstate hlatch => exact .latched hstate hlatch
  | closing hstate => exact .closing hstate
  | orphaned hstate hleft => exact .orphaned hstate hleft

theorem Dead.congr (h : Dead s) {m : MessageIndex} {message changed : Message}
    (hm : s.message = some (m, message)) (hstate : connection.state = s.connection.state)
    (hlatch : connection.errorLatch = s.connection.errorLatch)
    (hcomplete : changed.complete = message.complete)
    (habandoned : changed.abandoned = message.abandoned) :
    Dead ⟨connection, some (m, changed)⟩ := by
  cases h with
  | dropped hdropped hlatched =>
    refine .dropped (hstate.trans hdropped) fun n content hn hpending => ?_
    obtain ⟨rfl, rfl⟩ := Prod.mk.inj (Option.some.inj hn)
    exact hlatch.trans (hlatched m message hm (hcomplete ▸ hpending))
  | latched hbusy hlatched => exact .latched (by rw [hstate]; exact hbusy) (hlatch.trans hlatched)
  | closing hclosing => exact .closing (by rw [hstate]; exact hclosing)
  | orphaned hconnecting hleft =>
    refine .orphaned (hstate.trans hconnecting) fun n content hn => ?_
    obtain ⟨rfl, rfl⟩ := Prod.mk.inj (Option.some.inj hn)
    rw [habandoned]
    exact hleft m message hm

end Dead

section Moves

variable {recovers : Prop} {kept : Set MessageIndex} {s s' : Session} {m : MessageIndex}
  {message : Message} {state : ConnectionState}

theorem Dead.no_connect (h : Dead s) (hok : SessionOk s) (hm : s.message = some (m, message))
    (htype : message.type = psaIpcConnect) (hcomplete : message.complete = false)
    (hno : message.active = true → message.abandoned = .no) : False := by
  have hstate := Legal.connect (hok.belongs m message hm).1.legal htype hcomplete
  split at hstate
  · rename_i hactive
    cases h with
    | dropped hdropped => simp [hstate] at hdropped
    | latched hbusy => simp [hstate] at hbusy
    | closing hclosing => simp [hstate] at hclosing
    | orphaned hconnecting hleft => exact hleft m message hm (hno hactive)
  · cases h with
    | dropped hdropped => simp [hstate] at hdropped
    | latched hbusy => simp [hstate] at hbusy
    | closing hclosing => simp [hstate] at hclosing
    | orphaned hconnecting => simp [hstate] at hconnecting

theorem Dead.latch_of_waiting (h : Dead s) (hstate : s.connection.state = .pendingRequest ∨
      s.connection.state = .active) : s.connection.errorLatch = true := by
  cases h with
  | dropped hdropped => simp [hdropped] at hstate
  | latched hbusy hlatch => exact hlatch
  | closing hclosing => rcases hclosing with h | h <;> simp [h] at hstate
  | orphaned hconnecting => simp [hconnecting] at hstate

theorem dead_delivered (hok : SessionOk s) (h : Dead s)
    (hm : s.message = some (m, message)) (hwaits : Waits message) :
    Dead ⟨{ s.connection with
        state := deliveredState message.type s.connection.state },
      some (m, { message with active := true })⟩ := by
  obtain ⟨hbelongs, hmessage⟩ := hok.belongs m message hm
  have hlegal := hbelongs.legal
  rcases hmessage.type with hconnect | hdisconnect | hcall
  · refine (h.no_connect hok hm hconnect hwaits.complete fun hactive => ?_).elim
    rw [hwaits.active] at hactive
    cases hactive
  · have hstate := Legal.disconnecting hlegal hdisconnect hwaits.complete
    rw [hdisconnect, hstate]
    exact .closing (.inl rfl)
  · have hstate := Legal.call hlegal hcall hwaits.complete
    rw [hwaits.active] at hstate
    have hactive : deliveredState message.type s.connection.state = .active := by
      rw [deliveredState, if_neg (call_ne hcall).1, if_pos hcall]
    rw [hactive]
    exact .latched (.inr rfl) (h.latch_of_waiting (.inl hstate))

theorem dead_answered (hok : SessionOk s) (h : Dead s)
    (hm : s.message = some (m, message)) (hactive : message.active = true)
    (hno : message.abandoned = .no) {status : Int}
    (hreplied : repliedState message.type status s.connection.errorLatch =
      .ok state) {changed : Message} (hchanged : changed.complete = true) :
    Dead ⟨{ s.connection with state := state }, some (m, changed)⟩ := by
  obtain ⟨hbelongs, hmessage⟩ := hok.belongs m message hm
  have hlegal := hbelongs.legal
  have hcomplete := Legal.active hlegal hactive
  rcases hmessage.type with hconnect | hdisconnect | hcall
  · exact (h.no_connect hok hm hconnect hcomplete fun _ => hno).elim
  · rw [hdisconnect] at hreplied
    obtain rfl := Except.ok.inj hreplied
    exact .closing (.inr rfl)
  · have hstate := Legal.call hlegal hcall hcomplete
    rw [hactive, hno] at hstate
    rw [h.latch_of_waiting (.inr hstate)] at hreplied
    obtain rfl := repliedState_latched hcall hreplied
    refine dead_error rfl fun n content hn => ?_
    obtain ⟨rfl, rfl⟩ := Prod.mk.inj (Option.some.inj hn)
    exact hchanged

theorem dead_retired (hok : SessionOk s) (h : Dead s)
    (hm : s.message = some (m, message)) (hactive : message.active = true)
    (hleft : message.abandoned ≠ .no) {status : Int}
    (howes : ¬(message.type = psaIpcConnect ∧ status = psaSuccess ∨
      psaIpcCall ≤ message.type ∧ message.abandoned = .close))
    (hreplied : repliedState message.type status s.connection.errorLatch =
      .ok state) (hcall : ¬message.type < psaIpcCall) :
    Dead ⟨{ s.connection with state := state }, none⟩ := by
  have hlegal := (hok.belongs m message hm).1.legal
  have hcomplete := Legal.active hlegal hactive
  rw [not_lt] at hcall
  have hstate := Legal.call hlegal hcall hcomplete
  cases habandoned : message.abandoned with
  | no => exact absurd habandoned hleft
  | close => exact absurd (.inr ⟨hcall, habandoned⟩) howes
  | reply =>
    rw [hactive, habandoned] at hstate
    have hlatch : s.connection.errorLatch = true := by
      cases h with
      | dropped hdropped hlatch => exact hlatch m message hm hcomplete
      | latched hbusy hlatch => exact hlatch
      | closing hclosing => rcases hclosing with h | h <;> simp [h] at hstate
      | orphaned hconnecting => simp [hconnecting] at hstate
    rw [hlatch] at hreplied
    obtain rfl := repliedState_latched hcall hreplied
    exact dead_error rfl fun _ _ hn => by cases hn

theorem dead_left (hok : SessionOk s) (h : Dead s)
    (hm : s.message = some (m, message)) (hactive : message.active = true)
    (hno : message.abandoned = .no) (htype : message.type < psaIpcCall)
    {changed : Message} : Dead ⟨s.connection, some (m, changed)⟩ := by
  obtain ⟨hbelongs, hmessage⟩ := hok.belongs m message hm
  have hlegal := hbelongs.legal
  have hcomplete := Legal.active hlegal hactive
  rcases hmessage.type with hconnect | hdisconnect | hcall
  · exact (h.no_connect hok hm hconnect hcomplete fun _ => hno).elim
  · exact .closing (.inl (Legal.disconnecting hlegal hdisconnect hcomplete))
  · exact absurd htype (not_lt.mpr hcall)

theorem dead_move (hok : SessionOk s) (h : Dead s) (hmove : SessionMove recovers kept s s')
    (hallocated : s'.connection.allocated = true) : Dead s' := by
  cases hmove with
  | stay => exact h
  | refused => exact h.refused
  | failed hidle => exact absurd hidle h.not_idle
  | called n other hnone hidle => exact absurd hidle h.not_idle
  | closeLeft | closeSent | requeued => exact .closing (.inl rfl)
  | delivered n other hn hwaits => exact dead_delivered hok h hn hwaits
  | reversed rhandle => exact h.reversed rhandle
  | chunk n other changed hn hactive hheader =>
    exact h.congr hn rfl rfl hheader.complete hheader.abandoned
  | answered n other status state hn hactive hno hreplied =>
    exact dead_answered hok h hn hactive hno hreplied rfl
  | retired n other status state hn hactive hleft howes hreplied =>
    split at hallocated
    · exact absurd hallocated Bool.false_ne_true
    · rename_i hcall
      rw [if_neg hcall]
      exact dead_retired hok h hn hactive hleft howes hreplied hcall
  | left n other hkept hn hactive hno htype => exact dead_left hok h hn hactive hno htype
  | callLeft => exact .dropped rfl fun _ _ _ _ => rfl
  | cancelled n other fate => exact h.fate fate hallocated
  | harvested n other fate => exact h.fate fate hallocated
  | clientGone | closeDropped => exact absurd hallocated Bool.false_ne_true
  | serverGone hcomplete => exact dead_error rfl hcomplete
  | answeredFor =>
    refine dead_error rfl fun k content hk => ?_
    obtain ⟨rfl, rfl⟩ := Prod.mk.inj (Option.some.inj hk)
    rfl
  | replyDropped => exact dead_error rfl fun _ _ hk => by cases hk

end Moves

/-- A request that was answered with a programmer error left its connection in
error, or was its disconnect. -/
def Marked (s : Session) : Prop :=
  ∀ m message, s.message = some (m, message) → message.complete = true →
    message.replyStatus = psaErrorProgrammerError →
    s.connection.state = .error ∨ s.connection.state = .terminal

section Marked

variable {recovers : Prop} {kept : Set MessageIndex} {s s' : Session} {connection : Connection}

theorem marked_none (connection : Connection) : Marked ⟨connection, none⟩ := by
  intro m message hm
  cases hm

theorem marked_pending {m : MessageIndex} {message : Message}
    (h : message.complete = false) : Marked ⟨connection, some (m, message)⟩ := by
  intro n content hn hcomplete
  obtain ⟨rfl, rfl⟩ := Prod.mk.inj (Option.some.inj hn)
  rw [h] at hcomplete
  cases hcomplete

theorem marked_error {message : Option (MessageIndex × Message)}
    (h : connection.state = .error) : Marked ⟨connection, message⟩ :=
  fun _ _ _ _ _ => .inl h

theorem repliedState_programmerError {type : Int} {latch : Bool} {state : ConnectionState}
    (h : repliedState type psaErrorProgrammerError latch = .ok state) :
    state = .error ∨ state = .terminal := by
  unfold repliedState at h
  split at h
  · split at h
    · cases h
    · rename_i hrefused
      exact absurd ⟨by decide, by decide, by decide⟩ hrefused
  split at h
  · exact .inr (Except.ok.inj h).symm
  split at h
  · rw [if_neg (by decide), if_pos (.inl rfl)] at h
    exact .inl (Except.ok.inj h).symm
  · cases h

theorem marked_move (hok : SessionOk s) (h : Marked s)
    (hmove : SessionMove recovers kept s s') : Marked s' := by
  have hpending {m : MessageIndex} {message : Message}
      (hm : s.message = some (m, message)) (hactive : message.active = true) :
      message.complete = false :=
    Legal.active (hok.belongs m message hm).1.legal hactive
  cases hmove with
  | stay | reversed => exact h
  | refused =>
    unfold refusedConnection
    split
    · exact marked_error rfl
    · exact h
  | failed | serverGone | answeredFor => exact marked_error rfl
  | called n other hnone hidle htype hwaits => exact marked_pending hwaits.complete
  | closeLeft n other hn hstate hleft =>
    refine marked_pending ?_
    by_contra hcomplete
    rw [Bool.not_eq_false] at hcomplete
    have hlegal := (hok.belongs n other hn).1.legal
    rw [Legal, if_pos hcomplete] at hlegal
    exact hleft hlegal.2.1
  | closeSent n other hnone hstate htype hwaits => exact marked_pending hwaits.complete
  | delivered n other hn hwaits => exact marked_pending hwaits.complete
  | chunk n other changed hn hactive hheader =>
    exact marked_pending (hheader.complete.trans (hpending hn hactive))
  | answered n other status state hn hactive hno hreplied =>
    intro k content hk hcomplete hstatus
    obtain ⟨rfl, rfl⟩ := Prod.mk.inj (Option.some.inj hk)
    rw [show status = psaErrorProgrammerError from hstatus] at hreplied
    exact repliedState_programmerError hreplied
  | requeued n other owed status hn hactive hleft howes htype hwaits =>
    exact marked_pending hwaits.complete
  | retired | cancelled | harvested | clientGone | replyDropped | closeDropped =>
    exact marked_none _
  | left n other hkept hn hactive =>
    have hcomplete := hpending hn hactive
    exact marked_pending hcomplete
  | callLeft n other hkept hn hactive =>
    have hcomplete := hpending hn hactive
    exact marked_pending hcomplete

theorem marked_new (hok : SessionOk s)
    (hstate : s.connection.state = .pendingConnect) : Marked s := by
  intro m message hm hcomplete
  have halone := Legal.complete (hok.belongs m message hm).1.legal hcomplete
  simp [Alone, hstate] at halone

theorem run_marked {manifest : SystemManifest} {features : Word} {platform : ProfileCapabilities}
    {runtime : Runtime} (hboot : Booted manifest features platform runtime) (memory : Memory)
    (steps : List Step) (hsteps : Along Disciplined (start runtime memory) steps) :
    Everywhere Marked (run (start runtime memory) steps).runtime := by
  refine (run_induction (I := fun machine => MachineOk machine ∧
      Everywhere Marked machine.runtime) ?_ steps _ ⟨?_, ?_⟩ hsteps).2
  · rintro machine s ⟨hok, hmarked⟩ hs
    exact ⟨step_ok s hok hs, step_everywhere s hok hs
      (fun _ _ hsession h hmove _ => marked_move hsession h hmove)
      (fun _ hsession hstate => marked_new hsession hstate) hmarked⟩
  · exact run_ok hboot memory [] trivial
  · intro c s hc
    obtain ⟨count, -, -, rfl⟩ := ffmInit_eq_ok hboot.started
    cases hc

end Marked

/-- The requests on the connection are those that were on it in `runtime`. -/
def Carried (runtime : Runtime) (c : ConnectionIndex) (s : Session) : Prop :=
  ∀ m message, s.message = some (m, message) → psaIpcCall ≤ message.type →
    On runtime c m ∧ psaIpcCall ≤ (runtime.messages m).type ∧
      (runtime.messages m).releases = message.releases

section Carried

variable {recovers : Prop} {runtime : Runtime} {c : ConnectionIndex} {kept : Set MessageIndex}
  {s s' : Session} {connection : Connection}

theorem carried_self (h : Shows runtime c s) : Carried runtime c s := by
  intro m message hm htype
  obtain ⟨hon, rfl⟩ := (h.message m message).mp hm
  exact ⟨hon, htype, rfl⟩

theorem carried_none (connection : Connection) : Carried runtime c ⟨connection, none⟩ := by
  intro m message hm
  cases hm

theorem Carried.congr (h : Carried runtime c s) {m : MessageIndex}
    {message changed : Message} (hm : s.message = some (m, message))
    (htype : changed.type = message.type) (hreleases : changed.releases = message.releases) :
    Carried runtime c ⟨connection, some (m, changed)⟩ := by
  intro n content hn hcall
  obtain ⟨rfl, rfl⟩ := Prod.mk.inj (Option.some.inj hn)
  rw [hreleases]
  exact h m message hm (htype ▸ hcall)

theorem carried_disconnect {m : MessageIndex}
    {message : Message} (htype : message.type = psaIpcDisconnect) :
    Carried runtime c ⟨connection, some (m, message)⟩ := by
  intro n content hn hcall
  obtain ⟨rfl, rfl⟩ := Prod.mk.inj (Option.some.inj hn)
  exact absurd htype (call_ne hcall).2

theorem carried_move (hidle : s.connection.state ≠ .idle) (h : Carried runtime c s)
    (hmove : SessionMove recovers kept s s') : Carried runtime c s' := by
  cases hmove with
  | stay | refused | failed | reversed | serverGone => exact h
  | called n other hnone hstate => exact absurd hstate hidle
  | closeLeft n other hn => exact h.congr hn rfl rfl
  | closeSent n other hnone hstate htype => exact carried_disconnect htype
  | delivered n other hn => exact h.congr hn rfl rfl
  | chunk n other changed hn hactive hheader => exact h.congr hn hheader.type hheader.releases
  | answered n other status state hn => exact h.congr hn rfl rfl
  | requeued n other owed status hn hactive hleft howes htype => exact carried_disconnect htype
  | retired | cancelled | harvested | clientGone | replyDropped | closeDropped =>
    exact carried_none _
  | left n other hkept hn => exact h.congr hn rfl rfl
  | callLeft n other hkept hn => exact h.congr hn rfl rfl
  | answeredFor n other status hn => exact h.congr hn rfl rfl

end Carried

/-- The allocation that connection `c` had in `runtime` is over, or the
connection is dead and has no new request. -/
def Stuck (runtime : Runtime) (c : ConnectionIndex) (after : Runtime) : Prop :=
  Tracked (fun s => Dead s ∧ Carried runtime c s) c (runtime.connections c).releases after

section Stuck

variable {runtime : Runtime} {c : ConnectionIndex} {m : MessageIndex}

theorem refuseConnection_stuck (h : RuntimeOk runtime)
    (hc : (runtime.connections c).allocated = true)
    (hpending : (runtime.connections c).state ≠ .pendingConnect)
    (hconnecting : (runtime.connections c).state ≠ .connecting) :
    Stuck runtime c (refuseConnection runtime c) := by
  obtain ⟨s, hs⟩ := exists_shows h c
  have hafter := hs.refuse
  have howner : SameOwner s.connection (refusedConnection s.connection) := by
    unfold refusedConnection
    split
    · exact ⟨rfl, rfl, rfl, rfl, rfl⟩
    · exact ⟨rfl, rfl, rfl, rfl, rfl⟩
  rw [hs.connection] at hc hpending hconnecting
  refine .inr ⟨?_, ?_, _, hafter, dead_refused (hs.ok h) hc hpending hconnecting,
    fun n message hn => carried_self hs n message hn⟩
  · rw [hafter.connection]
    exact howner.allocated.trans hc
  · rw [hafter.connection, hs.connection]
    exact howner.releases

theorem failed_stuck (h : RuntimeOk runtime) (hc : (runtime.connections c).allocated = true)
    (hidle : (runtime.connections c).state = .idle) (hm : (runtime.messages m).allocated = false) :
    Stuck runtime c (settled runtime c (Fate.failed.apply (runtime.connections c)) m []) := by
  obtain ⟨s, hs⟩ := exists_shows h c
  have hafter := hs.giveBack hm .failed
  have hdead := dead_refused (hs.ok h) (hs.connection ▸ hc) (by rw [← hs.connection, hidle]; decide)
    (by rw [← hs.connection, hidle]; decide)
  rw [refusedConnection, if_pos (hs.connection ▸ hidle)] at hdead
  refine .inr ⟨?_, ?_, _, hafter, hdead, fun n message hn => carried_self hs n message hn⟩
  · rw [hafter.connection, ← hs.connection]
    exact hc
  · rw [hafter.connection, hs.connection]
    rfl

theorem released_stuck (h : RuntimeOk runtime) (hon : On runtime c m) {after : Runtime}
    {connection : Connection} (hconnection : after.connections c = connection)
    (hmessages : after.messages = Function.update runtime.messages m (runtime.messages m).released)
    (howner : SameOwner (runtime.connections c) connection)
    (hstate : connection.state = .error ∨ connection.state = .terminal) :
    Stuck runtime c after := by
  obtain ⟨s, hs⟩ := exists_shows h c
  have hc := (h.tables.belongs m hon.1).allocated
  rw [hon.2] at hc
  have hdead : Dead ⟨connection, none⟩ := by
    rcases hstate with herror | hterminal
    · exact dead_error herror fun _ _ hn => by cases hn
    · exact .closing (.inr hterminal)
  refine .inr ⟨?_, ?_, _, Shows.remove hconnection hmessages
    (fun n hn => hs.only hon hn) rfl, hdead, carried_none _⟩
  · rw [hconnection]
    exact howner.allocated.trans hc
  · rw [hconnection]
    exact howner.releases

theorem publishReply_stuck (h : RuntimeOk runtime) (hon : On runtime c m)
    (hcomplete : (runtime.messages m).complete = true) (hmarked : Everywhere Marked runtime)
    {answers : Nat → Bool} {memory : Memory} {outVec : List IoVec}
    (herror : (publishReply answers runtime memory c m outVec).1 = psaErrorProgrammerError) :
    Stuck runtime c (publishReply answers runtime memory c m outVec).2.2.1 := by
  unfold publishReply at herror ⊢
  dsimp only at herror ⊢
  split
  · refine released_stuck h hon (Function.update_self ..) rfl ⟨rfl, rfl, rfl, rfl, rfl⟩ (.inl rfl)
  · rename_i haccepted
    rw [if_neg haccepted] at herror
    obtain ⟨s, hs⟩ := exists_shows h c
    have hc := (h.tables.belongs m hon.1).allocated
    rw [hon.2] at hc
    have hstate := hmarked c s hc hs m _ (hs.eq_of_on hon) hcomplete herror
    rw [← hs.connection] at hstate
    exact released_stuck h hon rfl rfl ⟨rfl, rfl, rfl, rfl, rfl⟩ hstate

theorem callRequest_stuck (h : RuntimeOk runtime) {ports : PortOps}
    {memory : Memory} {caller handle type : Int} {inVec outVec : List IoVec}
    (hc : connectionFromHandle runtime caller handle = .ok c)
    (hpending : (runtime.connections c).state ≠ .pendingConnect)
    (hconnecting : (runtime.connections c).state ≠ .connecting)
    (herror : (callRequest ports runtime memory caller handle type inVec
      outVec).1 = .error psaErrorProgrammerError) :
    Stuck runtime c (callRequest ports runtime memory caller handle type inVec outVec).2.1 := by
  have hallocated := (connectionFromHandle_eq_ok hc).1
  have hrefused := refuseConnection_stuck h hallocated hpending hconnecting
  generalize hresult : callRequest ports runtime memory caller handle type inVec
    outVec = result at herror ⊢
  unfold callRequest at hresult
  split at hresult
  · subst hresult
    cases herror
  rw [hc] at hresult
  dsimp only at hresult
  split at hresult
  · subst hresult
    exact hrefused
  split at hresult
  · rename_i hbusy
    subst hresult
    rwa [refuseConnection, if_neg hbusy] at hrefused
  rename_i hidle
  rw [not_not] at hidle
  split at hresult
  · subst hresult
    cases herror
  rename_i m allocated halloc
  obtain ⟨hm, rfl⟩ := allocMessage_eq_some halloc
  split at hresult
  · subst hresult
    cases herror
  · subst hresult
    have hstuck := failed_stuck h hallocated hidle hm
    rw [← failMessage_addressed runtime caller type] at hstuck
    exact hstuck
  · subst hresult
    cases herror

end Stuck

/-- The connect of connection `c` has been answered. -/
def Established (runtime : Runtime) (c : ConnectionIndex) : Prop :=
  (runtime.connections c).state ≠ .pendingConnect ∧ (runtime.connections c).state ≠ .connecting

/-- The step ends or refuses a call on connection `c` with a programmer error:
the call is refused, by the runtime or by the gateway before it, or it returns
from its dispatch or is resumed with the error. -/
def Errs (machine : Machine) (s : Step) (c : ConnectionIndex) : Prop :=
  match s with
  | .call ports caller handle type inVec outVec =>
    connectionFromHandle machine.runtime caller handle = .ok c ∧ Established machine.runtime c ∧
      (callRequest ports machine.runtime machine.memory caller handle type
        inVec outVec).1 = .error psaErrorProgrammerError
  | .callRefuse caller handle =>
    connectionFromHandle machine.runtime caller handle = .ok c ∧ Established machine.runtime c
  | .dispatched ports ret =>
    ∃ request outVec rest, machine.stack = .call request outVec :: rest ∧ request.connection = c ∧
      (callReturn ports machine.runtime machine.memory request outVec
        (dispatchResult machine.runtime request.message ret)).1 = psaErrorProgrammerError
  | .gate ports domain call =>
    call.op = .call ∧ (call.pendingValid = false ∧ spmCheckSpVectors domain call = .ok () ∧
          connectionFromHandle machine.runtime call.partitionId call.msgHandle = .ok c ∧
          Established machine.runtime c ∧
          (callRequest ports machine.runtime machine.memory call.partitionId
            call.msgHandle call.callType call.inVec call.outVec).1 =
              .error psaErrorProgrammerError ∨
        ∃ m, Harvests machine.runtime call m ∧ (machine.runtime.messages m).connectionIndex = c ∧
          (ffmCallFinish ports machine.runtime machine.memory m
            call.outVec).1 = psaErrorProgrammerError)
  | _ => False

section Errs

variable {machine : Machine} {c : ConnectionIndex}

theorem gate_callBegin (ports : PortOps) {domain : Option SecureDomain} {call : SpmCall}
    (hop : call.op = .call) (hpending : call.pendingValid = false)
    (hvectors : spmCheckSpVectors domain call = .ok ()) :
    (step machine (.gate ports domain call)).runtime =
      (callRequest ports machine.runtime machine.memory call.partitionId
        call.msgHandle call.callType call.inVec call.outVec).2.1 := by
  have hheld : call.preset.pendingValid = false := hpending
  have haccepted : spmCheckSpVectors domain call.preset = .ok () := hvectors
  simp only [step, Machine.gate, spmGate, hop, gateCall, if_pos hheld]
  unfold gateCallBegin
  simp only [haccepted]
  split
  · rfl
  · rfl

theorem gate_callFinish (ports : PortOps) (domain : Option SecureDomain) {call : SpmCall}
    (hop : call.op = .call) {m : MessageIndex} (hharvests : Harvests machine.runtime call m) :
    (step machine (.gate ports domain call)).runtime =
      (ffmCallFinish ports machine.runtime machine.memory m call.outVec).2.2.1 := by
  obtain ⟨hheld, hmessage, hdone⟩ := hharvests.resumes
  simp only [step, Machine.gate, spmGate, hop, gateCall, if_neg hheld, gateResume, hmessage, hdone]
  rfl

theorem step_stuck (s : Step) (h : MachineOk machine)
    (hmarked : Everywhere Marked machine.runtime) (hs : Errs machine s c) :
    Stuck machine.runtime c (step machine s).runtime := by
  cases s with
  | call =>
    obtain ⟨hc, hestablished, herror⟩ := hs
    simp only [step, runtime_suspend]
    exact callRequest_stuck h.runtime hc hestablished.1 hestablished.2 herror
  | callRefuse caller =>
    obtain ⟨hc, hestablished⟩ := hs
    obtain ⟨hallocated, hcaller, -⟩ := connectionFromHandle_eq_ok hc
    have hclient := (h.runtime.tables.connection c).caller hallocated
    rw [hcaller] at hclient
    simp only [step, ffmCallRefuse, if_neg hclient, hc]
    exact refuseConnection_stuck h.runtime hallocated hestablished.1 hestablished.2
  | dispatched ports ret =>
    obtain ⟨request, outVec, rest, hstack, rfl, herror⟩ := hs
    have hpinned := h.pinned (.call request outVec) (by simp [hstack])
    have hret : dispatchResult machine.runtime request.message ret =
        ffmSuccess := by
      by_contra hfailed
      have hgeneric : psaErrorGenericError ≠ psaErrorProgrammerError := by decide
      simp only [callReturn, if_pos hfailed] at herror
      split at herror
      · exact hgeneric herror
      · exact hgeneric herror
    have hcomplete := complete_of_dispatchResult hret
    simp only [step, Machine.dispatched, hstack, Suspended.request]
    rw [hret, callReturn_eq] at herror ⊢
    exact publishReply_stuck h.runtime
      ⟨hpinned.owns.allocated, hpinned.owns.connection⟩ hcomplete hmarked
      herror
  | gate ports domain =>
    obtain ⟨hop, ⟨hpending, hvectors, hc, hestablished, herror⟩ | ⟨m, hharvests, rfl, herror⟩⟩ := hs
    · rw [gate_callBegin ports hop hpending hvectors]
      exact callRequest_stuck h.runtime hc hestablished.1 hestablished.2 herror
    · rw [gate_callFinish ports domain hop hharvests]
      rw [ffmCallFinish_eq] at herror ⊢
      exact publishReply_stuck h.runtime ⟨(spmPendingOwned_eq_some hharvests.2.2.1).1, rfl⟩
        hharvests.2.2.2 hmarked herror
  | connect | close | assertSignal | partitionRestarted | failClient | setLifecycle | scribble =>
    exact hs.elim

theorem callRequest_not_idle {runtime : Runtime} (h : RuntimeOk runtime) {caller handle : Int}
    (hc : connectionFromHandle runtime caller handle = .ok c)
    (hbusy : (runtime.connections c).state ≠ .idle) (ports : PortOps) (memory : Memory)
    (type : Int) (inVec outVec : List IoVec) :
    let begun := callRequest ports runtime memory caller handle type inVec outVec
    begun.1 = .error psaErrorProgrammerError ∧ begun.2.1.messages = runtime.messages := by
  obtain ⟨hallocated, hcaller, -⟩ := connectionFromHandle_eq_ok hc
  have hclient := (h.tables.connection c).caller hallocated
  rw [hcaller] at hclient
  unfold callRequest
  rw [if_neg hclient, hc]
  dsimp only
  split
  · refine ⟨rfl, ?_⟩
    unfold refuseConnection
    split
    · rfl
    · rfl
  · exact ⟨rfl, rfl⟩

end Errs

/-- After a call on an established connection ended in a programmer error, and
as long as that connection is there, no state of the run has a request on it
that was not there already, and every call on it is refused. -/
theorem programmer_errors_sticky {manifest : SystemManifest} {features : Word}
    {platform : ProfileCapabilities} {runtime : Runtime}
    (hboot : Booted manifest features platform runtime) (memory : Memory) (steps : List Step)
    (hsteps : Along Disciplined (start runtime memory) steps) (s : Step) (c : ConnectionIndex)
    (hs : Disciplined (run (start runtime memory) steps) s)
    (herrs : Errs (run (start runtime memory) steps) s c) (later : List Step)
    (hlater : Along Disciplined (step (run (start runtime memory) steps) s) later) :
    let machine := run (start runtime memory) steps
    let last := run (step machine s) later
    (last.runtime.connections c).releases = (machine.runtime.connections c).releases →
      (∀ m, On last.runtime c m → psaIpcCall ≤ (last.runtime.messages m).type →
        On machine.runtime c m ∧ psaIpcCall ≤ (machine.runtime.messages m).type ∧
          (machine.runtime.messages m).releases = (last.runtime.messages m).releases) ∧
      ∀ ports caller handle type inVec outVec,
        connectionFromHandle last.runtime caller handle = .ok c →
        let begun := callRequest ports last.runtime last.memory caller handle type inVec outVec
        begun.1 = .error psaErrorProgrammerError ∧ begun.2.1.messages = last.runtime.messages := by
  intro machine last hreleases
  have hok : MachineOk machine := run_ok hboot memory steps hsteps
  have hstuck := step_stuck s hok (run_marked hboot memory steps hsteps) herrs
  have hnext := step_ok s hok hs
  have hlast : MachineOk last :=
    run_induction (fun machine s h hs => step_ok s h hs) later _ hnext hlater
  have htracked := run_tracked later hnext hlater (fun _ _ _ _ hsession h hmove hallocated =>
      ⟨dead_move hsession h.1 hmove hallocated, carried_move h.1.not_idle h.2 hmove⟩) hstuck
  rcases htracked with hover | ⟨-, -, session, hshows, hdead, hcarried⟩
  · exact absurd hreleases hover.ne'
  · refine ⟨fun m hm hcall => hcarried m _ (hshows.eq_of_on hm) hcall, ?_⟩
    intro ports caller handle type inVec outVec hc
    refine callRequest_not_idle hlast.runtime hc ?_ ports last.memory type inVec outVec
    rw [hshows.connection]
    exact hdead.not_idle

def establishRun : List Step :=
  [.connect (-1) 200 1, sampleGate (getBlock 3),
    sampleGate (replyBlock 3 193), .dispatched openPorts ffmSuccess]

/-- A call of a negative type, and the attempt to call again. -/
theorem programmer_errors_sticky_sample :
    let machine := run sampleMachine establishRun
    let last := run (step machine (.call openPorts (-1) 161 (-5) [] []))
      [.call openPorts (-1) 161 0 [] []]
    Errs machine (.call openPorts (-1) 161 (-5) [] []) 0 ∧
      (callRequest openPorts last.runtime last.memory (-1) 161 0 [] []).1 =
        .error psaErrorProgrammerError := by
  have herrs : Errs (run (start sampleRuntime sampleMemory) establishRun)
      (.call openPorts (-1) 161 (-5) [] []) 0 :=
    ⟨by decide +kernel, ⟨by decide +kernel, by decide +kernel⟩,
      by decide +kernel⟩
  refine ⟨herrs, ?_⟩
  exact ((programmer_errors_sticky sampleRuntime_booted sampleMemory
    establishRun (by decide +kernel) (.call openPorts (-1) 161 (-5) [] []) 0
    (by decide +kernel) herrs [.call openPorts (-1) 161 0 [] []]
    (by decide +kernel) (by decide +kernel)).2 openPorts (-1) 161 0 [] []
    (by decide +kernel)).1

/-- Client -2 gets the slot of the connect that outlived its connection. The
answer to that connect makes the connection idle again after the gateway refused
a call of client -2, whose next call is delivered. -/
theorem reopened_after_error :
    let opened := orphanRun ++
      [.connect (-2) 200 1, sampleGate (getBlock 3),
       sampleGate (replyBlock 3 450), .dispatched openPorts 0]
    let machine := run sampleMachine opened
    let refused : Step := .callRefuse (-2) 418
    let later := [sampleGate (replyBlock 3 321),
      sampleGate (resumeBlock .connect 2 0), .call openPorts (-2) 418 0 [] [],
      sampleGate (getBlock 3)]
    let last := run (step machine refused) later
    Along Orderly sampleMachine (opened ++ refused :: later) ∧ Errs machine refused 1 ∧
      (last.runtime.connections 1).releases = (machine.runtime.connections 1).releases ∧
      (machine.runtime.messages 0).type = psaIpcConnect ∧
      On last.runtime 1 0 ∧ (last.runtime.messages 0).type = psaIpcCall ∧
      (last.runtime.messages 0).active = true :=
  ⟨by decide +kernel, ⟨by decide +kernel, by decide +kernel, by decide +kernel⟩,
    by decide +kernel, by decide +kernel,
    ⟨by decide +kernel, by decide +kernel⟩, by decide +kernel,
    by decide +kernel⟩

end WolfTrust.FfmSticky
