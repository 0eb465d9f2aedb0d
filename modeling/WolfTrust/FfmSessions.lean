import WolfTrust.FfmDiscipline

namespace WolfTrust.FfmSessions

open Domain FfmRuntime FfmVectors FfmClient FfmService FfmTables FfmInvariant
  FfmTransition FfmPreservation FfmTermination FfmRestart FfmDiscipline

def On (runtime : Runtime) (c : ConnectionIndex) (m : MessageIndex) : Prop :=
  (runtime.messages m).allocated = true ∧ (runtime.messages m).connectionIndex = c

/-- A connection and the message on it. -/
structure Session where
  connection : Connection
  message : Option (MessageIndex × Message)

/-- Connection `c` and its only message are `s`. -/
structure Shows (runtime : Runtime) (c : ConnectionIndex) (s : Session) :
    Prop where
  connection : runtime.connections c = s.connection
  message : ∀ m message, s.message = some (m, message) ↔
    On runtime c m ∧ runtime.messages m = message

section Shows

variable {runtime : Runtime} {c : ConnectionIndex} {s : Session}

variable {m : MessageIndex}

theorem shows_one (hm : On runtime c m) (honly : ∀ n, On runtime c n → n = m) :
    Shows runtime c ⟨runtime.connections c, some (m, runtime.messages m)⟩ := by
  refine ⟨rfl, fun n message => ?_⟩
  rw [Option.some.injEq, Prod.mk.injEq]
  constructor
  · rintro ⟨rfl, rfl⟩
    exact ⟨hm, rfl⟩
  · rintro ⟨hn, rfl⟩
    obtain rfl := honly n hn
    exact ⟨rfl, rfl⟩

theorem shows_none (hnone : ∀ n, ¬On runtime c n) :
    Shows runtime c ⟨runtime.connections c, none⟩ := by
  refine ⟨rfl, fun n message => ?_⟩
  constructor
  · intro hsome
    cases hsome
  · rintro ⟨hn, -⟩
    exact absurd hn (hnone n)

theorem exists_shows (h : RuntimeOk runtime) (c : ConnectionIndex) : ∃ s, Shows runtime c s := by
  by_cases hon : ∃ m, On runtime c m
  · obtain ⟨m, hm⟩ := hon
    refine ⟨_, shows_one hm fun n hn => ?_⟩
    exact h.tables.unique n m hn.1 hm.1 (hn.2.trans hm.2.symm)
  · exact ⟨_, shows_none fun n hn => hon ⟨n, hn⟩⟩

theorem Shows.unique {s' : Session} (h : Shows runtime c s) (h' : Shows runtime c s') : s' = s := by
  obtain ⟨connection, message⟩ := s
  obtain ⟨connection', message'⟩ := s'
  have hmessage : message' = message := by
    ext ⟨m, content⟩
    exact (h'.message m content).trans (h.message m content).symm
  rw [Session.mk.injEq]
  exact ⟨h'.connection.symm.trans h.connection, hmessage⟩

theorem Shows.eq_of_on (h : Shows runtime c s)
    (hm : On runtime c m) : s.message = some (m, runtime.messages m) :=
  (h.message m _).mpr ⟨hm, rfl⟩

theorem Shows.only (h : Shows runtime c s) {m n : MessageIndex}
    (hm : On runtime c m) (hn : On runtime c n) : n = m := by
  have hsame := (h.eq_of_on hn).symm.trans (h.eq_of_on hm)
  exact congrArg Prod.fst (Option.some.inj hsame)

theorem Shows.served (h : Shows runtime c s) {n : MessageIndex} {d : ConnectionIndex}
    (hn : (runtime.messages n).allocated = true) (hon : (runtime.messages n).connectionIndex = d) :
    c ≠ d ∨ c = d ∧ s.message = some (n, runtime.messages n) ∧ ∀ m, On runtime c m → m = n := by
  rcases eq_or_ne c d with rfl | hne
  · exact .inr ⟨rfl, h.eq_of_on ⟨hn, hon⟩, fun m hm => h.only ⟨hn, hon⟩ hm⟩
  · exact .inl hne

theorem Shows.none_of (h : Shows runtime c s) (hnone : ∀ m, ¬On runtime c m) :
    s.message = none := by
  cases hm : s.message with
  | none => rfl
  | some pair => exact absurd ((h.message pair.1 pair.2).mp hm).1 (hnone _)

end Shows

section Change

variable {before after : Runtime} {c d : ConnectionIndex} {n : MessageIndex}
  {connection : Connection} {message : Message} {s : Session}

theorem on_update (hmessages : after.messages = Function.update before.messages n message)
    (hm : m ≠ n) : after.messages m = before.messages m := by
  rw [hmessages, Function.update_of_ne hm]

theorem Shows.frame (h : Shows before c s)
    (hconnection : after.connections c = before.connections c)
    (hmessages : after.messages = Function.update before.messages n message)
    (hbefore : ¬On before c n)
    (hafter : ¬(message.allocated = true ∧ message.connectionIndex = c)) : Shows after c s := by
  refine ⟨hconnection.trans h.connection, fun m content => ?_⟩
  rcases eq_or_ne m n with rfl | hm
  · have hself : after.messages m = message := by rw [hmessages, Function.update_self]
    rw [h.message]
    refine iff_of_false (fun hon => hbefore hon.1) fun hon => hafter ?_
    rw [← hself]
    exact hon.1
  · rw [h.message, On, On, on_update hmessages hm]

theorem Shows.other (h : Shows before c s) (hne : c ≠ d) (hconnections : after.connections =
      Function.update before.connections d connection)
    (hmessages : after.messages = Function.update before.messages n message)
    (hbefore : (before.messages n).allocated = true → (before.messages n).connectionIndex = d)
    (hafter : message.allocated = true → message.connectionIndex = d) :
    Shows after c s := by
  refine h.frame ?_ hmessages ?_ ?_
  · rw [hconnections, Function.update_of_ne hne]
  · intro hon
    exact hne (hon.2.symm.trans (hbefore hon.1))
  · intro hon
    exact hne (hon.2.symm.trans (hafter hon.1))

theorem Shows.reconnect (h : Shows before c s) (hconnection : after.connections c = connection)
    (hmessages : after.messages = before.messages) : Shows after c ⟨connection, s.message⟩ := by
  refine ⟨hconnection, fun m content => ?_⟩
  rw [h.message, On, On, hmessages]

theorem Shows.survive (h : Shows before c s) (hconnection : after.connections c = connection)
    (hback : ∀ m, On after c m → On before c m)
    (hsame : ∀ m, On before c m → after.messages m = before.messages m) :
    Shows after c ⟨connection, s.message⟩ := by
  refine ⟨hconnection, fun m content => ?_⟩
  rw [h.message]
  constructor
  · rintro ⟨hon, rfl⟩
    have hkept := hsame m hon
    refine ⟨?_, hkept⟩
    rwa [On, hkept]
  · rintro ⟨hon, rfl⟩
    exact ⟨hback m hon, (hsame m (hback m hon)).symm⟩

theorem only_written (hmessages : after.messages = Function.update before.messages n message)
    (honly : ∀ m, On before c m → m = n) (m : MessageIndex) (hon : On after c m) : m = n := by
  by_contra hm
  rw [On, on_update hmessages hm] at hon
  exact hm (honly m hon)

theorem Shows.replace (hconnection : after.connections c = connection)
    (hmessages : after.messages = Function.update before.messages n message)
    (honly : ∀ m, On before c m → m = n)
    (hafter : message.allocated = true ∧ message.connectionIndex = c) :
    Shows after c ⟨connection, some (n, message)⟩ := by
  have hself : after.messages n = message := by rw [hmessages, Function.update_self]
  have hon : On after c n := by rwa [On, hself]
  have hshows := shows_one hon (only_written hmessages honly)
  rwa [hconnection, hself] at hshows

theorem Shows.remove (hconnection : after.connections c = connection)
    (hmessages : after.messages = Function.update before.messages n message)
    (honly : ∀ m, On before c m → m = n) (hafter : message.allocated = false) :
    Shows after c ⟨connection, none⟩ := by
  have hnone (m : MessageIndex) : ¬On after c m := by
    intro hon
    obtain rfl := only_written hmessages honly m hon
    rw [On, hmessages, Function.update_self, hafter] at hon
    cases hon.1
  have hshows := shows_none hnone
  rwa [hconnection] at hshows

end Change

structure Waits (message : Message) : Prop where
  active : message.active = false
  complete : message.complete = false

def refusedConnection (connection : Connection) : Connection :=
  if connection.state = .idle then { connection with state := .error }
  else { connection with errorLatch := true }

/-- What one operation does to an allocated connection and its message. The
requests of `kept` are not ended. The last five are those of the recovery
loops. -/
inductive SessionMove (recovers : Prop) (kept : Set MessageIndex)
    (s : Session) : Session → Prop
  | stay : SessionMove recovers kept s s
  | refused :
      SessionMove recovers kept s ⟨refusedConnection s.connection, s.message⟩
  | failed (hidle : s.connection.state = .idle) :
      SessionMove recovers kept s ⟨{ s.connection with state := .error }, s.message⟩
  | called (m : MessageIndex) (message : Message) (hnone : s.message = none)
      (hidle : s.connection.state = .idle) (htype : psaIpcCall ≤ message.type)
      (hwaits : Waits message) (hno : message.abandoned = .no) :
      SessionMove recovers kept s
        ⟨{ s.connection with state := .pendingRequest }, some (m, message)⟩
  | closeLeft (m : MessageIndex) (message : Message)
      (hm : s.message = some (m, message))
      (hstate : s.connection.state = .idle ∨ s.connection.state = .error)
      (hleft : message.abandoned ≠ .no) :
      SessionMove recovers kept s ⟨{ s.connection with state := .disconnecting },
          some (m, { message with abandoned := .close })⟩
  | closeSent (m : MessageIndex) (message : Message) (hnone : s.message = none)
      (hstate : s.connection.state = .idle ∨ s.connection.state = .error)
      (htype : message.type = psaIpcDisconnect) (hwaits : Waits message)
      (hno : message.abandoned = .no) :
      SessionMove recovers kept s ⟨{ s.connection with state := .disconnecting }, some (m, message)⟩
  | delivered (m : MessageIndex) (message : Message)
      (hm : s.message = some (m, message)) (hwaits : Waits message) :
      SessionMove recovers kept s
        ⟨{ s.connection with
            state := deliveredState message.type s.connection.state },
          some (m, { message with active := true })⟩
  | reversed (rhandle : Nat) :
      SessionMove recovers kept s ⟨{ s.connection with rhandle := rhandle }, s.message⟩
  | chunk (m : MessageIndex) (message changed : Message)
      (hm : s.message = some (m, message)) (hactive : message.active = true)
      (hheader : SameHeader message changed) :
      SessionMove recovers kept s ⟨s.connection, some (m, changed)⟩
  | answered (m : MessageIndex) (message : Message) (status : Int)
      (state : ConnectionState) (hm : s.message = some (m, message))
      (hactive : message.active = true) (hno : message.abandoned = .no)
      (hstate : repliedState message.type status s.connection.errorLatch = .ok state) :
      SessionMove recovers kept s ⟨{ s.connection with state := state },
          some (m, { message with
            replyStatus := status, active := false, complete := true })⟩
  | requeued (m : MessageIndex) (message owed : Message) (status : Int)
      (hm : s.message = some (m, message)) (hactive : message.active = true)
      (hleft : message.abandoned ≠ .no)
      (howes : message.type = psaIpcConnect ∧ status = psaSuccess ∨
        psaIpcCall ≤ message.type ∧ message.abandoned = .close)
      (htype : owed.type = psaIpcDisconnect) (hwaits : Waits owed)
      (hclose : owed.abandoned = .close) :
      SessionMove recovers kept s ⟨{ s.connection with state := .disconnecting }, some (m, owed)⟩
  | retired (m : MessageIndex) (message : Message) (status : Int)
      (state : ConnectionState) (hm : s.message = some (m, message))
      (hactive : message.active = true) (hleft : message.abandoned ≠ .no)
      (howes : ¬(message.type = psaIpcConnect ∧ status = psaSuccess ∨
        psaIpcCall ≤ message.type ∧ message.abandoned = .close))
      (hstate : repliedState message.type status s.connection.errorLatch = .ok state) :
      SessionMove recovers kept s ⟨(if message.type < psaIpcCall then Fate.freed else .kept).apply
          { s.connection with state := state }, none⟩
  | left (m : MessageIndex) (message : Message) (hkept : m ∉ kept)
      (hm : s.message = some (m, message)) (hactive : message.active = true)
      (hno : message.abandoned = .no) (htype : message.type < psaIpcCall) :
      SessionMove recovers kept s ⟨s.connection, some (m, { message with abandoned := .close })⟩
  | callLeft (m : MessageIndex) (message : Message) (hkept : m ∉ kept)
      (hm : s.message = some (m, message)) (hactive : message.active = true)
      (hno : message.abandoned = .no) (htype : psaIpcCall ≤ message.type) :
      SessionMove recovers kept s ⟨{ s.connection with state := .error, errorLatch := true },
          some (m, { message with
            abandoned := .reply, clientOutput := fun _ => 0 })⟩
  | cancelled (m : MessageIndex) (message : Message) (fate : Fate)
      (hkept : m ∉ kept) (hm : s.message = some (m, message))
      (hinactive : message.active = false)
      (hfate : fate = .kept → message.type = psaIpcDisconnect) :
      SessionMove recovers kept s ⟨fate.apply s.connection, none⟩
  | harvested (m : MessageIndex) (message : Message) (fate : Fate)
      (hkept : m ∉ kept) (hm : s.message = some (m, message))
      (hcomplete : message.complete = true) :
      SessionMove recovers kept s ⟨fate.apply s.connection, none⟩
  | clientGone (hrecovers : recovers) :
      SessionMove recovers kept s ⟨s.connection.released, none⟩
  | serverGone
      (hcomplete : ∀ m message, s.message = some (m, message) →
        message.complete = true) (hrecovers : recovers) :
      SessionMove recovers kept s ⟨{ s.connection with state := .error, rhandle := 0 }, s.message⟩
  | answeredFor (m : MessageIndex) (message : Message) (status : Int)
      (hm : s.message = some (m, message)) (hcomplete : message.complete = false)
      (hno : message.abandoned = .no) (hrecovers : recovers) :
      SessionMove recovers kept s ⟨{ s.connection with state := .error, rhandle := 0 },
          some (m, { message with
            replyStatus := status, active := false, complete := true })⟩
  | replyDropped (m : MessageIndex) (message : Message)
      (hm : s.message = some (m, message)) (hcomplete : message.complete = false)
      (hreply : message.abandoned = .reply) (hrecovers : recovers) :
      SessionMove recovers kept s ⟨{ s.connection with state := .error, rhandle := 0 }, none⟩
  | closeDropped (m : MessageIndex) (message : Message)
      (hm : s.message = some (m, message)) (hcomplete : message.complete = false)
      (hclose : message.abandoned = .close) (hrecovers : recovers) :
      SessionMove recovers kept s ⟨s.connection.released, none⟩

theorem Shows.refuse {runtime : Runtime} {c : ConnectionIndex} {s : Session}
    (h : Shows runtime c s) :
    Shows (refuseConnection runtime c) c ⟨refusedConnection s.connection, s.message⟩ := by
  refine h.reconnect ?_ ?_
  · rw [← h.connection]
    unfold refuseConnection refusedConnection
    split
    · exact Function.update_self ..
    · exact Function.update_self ..
  · unfold refuseConnection
    split
    · rfl
    · rfl

theorem Shows.giveBack {runtime : Runtime} {c : ConnectionIndex} {s : Session}
    (h : Shows runtime c s) {n : MessageIndex}
    (hn : (runtime.messages n).allocated = false) (fate : Fate) :
    Shows (settled runtime c (fate.apply (runtime.connections c)) n []) c
      ⟨fate.apply s.connection, s.message⟩ := by
  have hnot : ¬On runtime c n := by
    intro hon
    rw [hon.1] at hn
    cases hn
  have hframed : Shows
      { runtime with
        messages := Function.update runtime.messages n (runtime.messages n).released } c s :=
    h.frame rfl rfl hnot fun hon => Bool.false_ne_true hon.1
  refine hframed.reconnect ?_ rfl
  rw [← h.connection]
  exact Function.update_self ..

theorem owesDisconnect_iff {runtime : Runtime} {status : Int} :
    owesDisconnect (answeredMessage runtime m status) = true ↔
      (runtime.messages m).type = psaIpcConnect ∧ status = psaSuccess ∨
        psaIpcCall ≤ (runtime.messages m).type ∧ (runtime.messages m).abandoned = .close := by
  simp [owesDisconnect, answeredMessage]

section Transition

variable {rings : PartitionIndex → Word → Prop} {recovers : Prop}
  {kept : Set MessageIndex} {actor : Int} {before after : Runtime}
  {c : ConnectionIndex} {s : Session}

theorem transition_session (h : RuntimeOk before)
    (t : Transition rings True True kept actor before after)
    (hc : (before.connections c).allocated = true) (hs : Shows before c s) :
    ∃ s', Shows after c s' ∧ SessionMove recovers kept s s' := by
  have hself {d : ConnectionIndex} {connection : Connection} :
      Function.update before.connections d connection d = connection :=
    Function.update_self ..
  have hfree {n : MessageIndex} {d : ConnectionIndex} (hn : (before.messages n).allocated = false) :
      (before.messages n).allocated = true → (before.messages n).connectionIndex = d := by
    intro hm
    rw [hn] at hm
    cases hm
  have hunused {d : ConnectionIndex} (hd : (before.connections d).allocated = false) : c ≠ d := by
    rintro rfl
    rw [hc] at hd
    cases hd
  cases t with
  | stay => exact ⟨s, hs, .stay⟩
  | lifecycle | raised | cleared => exact ⟨s, ⟨hs.connection, hs.message⟩, .stay⟩
  | rejected d hd =>
    have hother : (releaseConnection before d).connections c = before.connections c :=
      Function.update_of_ne (hunused hd) _ _
    exact ⟨s, ⟨hother.trans hs.connection, hs.message⟩, .stay⟩
  | opened d n service hactor hservice hd hn =>
    exact ⟨s, hs.other (hunused hd) rfl rfl (hfree hn) fun _ => rfl, .stay⟩
  | refused d =>
    rcases eq_or_ne c d with rfl | hne
    · exact ⟨_, hs.refuse, .refused⟩
    · refine ⟨s, ⟨Eq.trans ?_ hs.connection, ?_⟩, .stay⟩
      · unfold refuseConnection
        split
        · exact Function.update_of_ne hne _ _
        · exact Function.update_of_ne hne _ _
      · unfold refuseConnection
        split
        · exact hs.message
        · exact hs.message
  | givenBack d n fate hd hcaller hidle hn hfate =>
    rcases eq_or_ne c d with rfl | hne
    · refine ⟨_, hs.giveBack hn fate, ?_⟩
      cases fate with
      | kept => exact .stay
      | failed => exact .failed (hs.connection ▸ hidle)
      | freed => exact absurd rfl hfate
    · exact ⟨s, hs.other hne rfl rfl (hfree hn) fun hm => absurd hm Bool.false_ne_true, .stay⟩
  | called d n type ports memory memory' inVec outVec prepared hd hcaller
      hidle hfresh hn htype hprepared =>
    have hheader := prepareVectors_header hprepared
    rcases eq_or_ne c d with rfl | hne
    · have hnone := no_message_of_idle h hidle (hfresh trivial)
      obtain ⟨hactive, hcomplete, hno⟩ := (h.tables.message n).free hn
      refine ⟨_, Shows.replace hself rfl (fun m hon => absurd hon.2 (hnone m hon.1))
        ⟨hheader.allocated, hheader.connectionIndex⟩, ?_⟩
      rw [withState, hs.connection]
      exact .called n prepared (hs.none_of fun m hon => hnone m hon.1 hon.2)
        (hs.connection ▸ hidle) (htype.trans_eq hheader.type.symm)
        ⟨hheader.active.trans hactive, hheader.complete.trans hcomplete⟩
        (hheader.abandoned.trans hno)
    · exact ⟨s, hs.other hne rfl rfl (hfree hn) fun _ => hheader.connectionIndex, .stay⟩
  | closeLeft d n hd hcaller hstate hn hleft hon =>
    rcases hs.served hn hon with hne | ⟨rfl, hmessage, honly⟩
    · exact ⟨s, hs.other hne rfl rfl (fun _ => hon) fun _ => hon, .stay⟩
    · refine ⟨_, Shows.replace hself rfl honly ⟨hn, hon⟩, ?_⟩
      rw [withState, hs.connection]
      exact .closeLeft n _ hmessage (hs.connection ▸ hstate) hleft
  | closeSent d n hd hcaller hstate hnone hfresh hn =>
    rcases eq_or_ne c d with rfl | hne
    · have hempty (m : MessageIndex) : ¬On before c m := by
        intro hon
        by_cases hno : (before.messages m).abandoned = .no
        · exact hfresh trivial ⟨m, hon.1, hno, hon.2⟩
        · exact hnone m hon.1 hno hon.2
      obtain ⟨hactive, hcomplete, hno⟩ := (h.tables.message n).free hn
      refine ⟨_, Shows.replace hself rfl (fun m hon => absurd hon (hempty m)) ⟨rfl, rfl⟩, ?_⟩
      rw [withState, hs.connection]
      exact .closeSent n _ (hs.none_of hempty) (hs.connection ▸ hstate) rfl ⟨hactive, hcomplete⟩ hno
    · exact ⟨s, hs.other hne rfl rfl (hfree hn) fun _ => rfl, .stay⟩
  | delivered service n hservice hserver hhead =>
    obtain ⟨hn, hactive, hcomplete, rfl⟩ :=
      waiting_service (h.queues.waiting_of_head hhead)
    rw [deliverMessage_eq rfl rfl]
    rcases hs.served hn rfl with hne | ⟨rfl, hmessage, honly⟩
    · exact ⟨s, hs.other hne rfl rfl (fun _ => rfl) fun _ => rfl, .stay⟩
    · refine ⟨_, Shows.replace hself rfl honly ⟨hn, rfl⟩, ?_⟩
      rw [withState, hs.connection]
      exact .delivered n _ hmessage ⟨hactive, hcomplete⟩
  | reversed n rhandle hserves =>
    rcases hs.served hserves.allocated rfl with hne | ⟨rfl, hmessage, honly⟩
    · refine ⟨s, ⟨Eq.trans ?_ hs.connection, hs.message⟩, .stay⟩
      exact Function.update_of_ne hne _ _
    · refine ⟨_, hs.reconnect hself rfl, ?_⟩
      rw [hs.connection]
      exact .reversed rhandle
  | chunk n message event hserves hchunk =>
    have hheader := hchunk.header
    rcases hs.served hserves.allocated rfl with hne | ⟨rfl, hmessage, honly⟩
    · refine ⟨s, hs.frame rfl rfl ?_ ?_, .stay⟩
      · exact fun hon => hne hon.2.symm
      · exact fun hon => hne (hon.2.symm.trans hheader.connectionIndex)
    · exact ⟨_, Shows.replace hs.connection rfl honly
        ⟨hheader.allocated.trans hserves.allocated, hheader.connectionIndex⟩,
        .chunk n _ message hmessage hserves.active hheader⟩
  | answered d n status state hserves hon hstate hno =>
    rcases hs.served hserves.allocated hon with hne | ⟨rfl, hmessage, honly⟩
    · exact ⟨s, hs.other hne rfl rfl (fun _ => hon) fun _ => hon, .stay⟩
    · refine ⟨_, Shows.replace hself rfl honly ⟨hserves.allocated, hon⟩, ?_⟩
      rw [withState, hs.connection]
      exact .answered n _ status state hmessage hserves.active hno (hs.connection ▸ hstate)
  | requeued d n status hserves hon hleft howes =>
    rcases hs.served hserves.allocated hon with hne | ⟨rfl, hmessage, honly⟩
    · exact ⟨s, hs.other hne rfl rfl (fun _ => hon) fun _ => rfl, .stay⟩
    · refine ⟨_, Shows.replace hself rfl honly ⟨rfl, rfl⟩, ?_⟩
      rw [withState, hs.connection]
      exact .requeued n _ _ status hmessage hserves.active hleft
        (owesDisconnect_iff.mp howes) rfl ⟨rfl, rfl⟩ rfl
  | retired d n status state fate hserves hon hstate hleft howes hfate =>
    rcases hs.served hserves.allocated hon with hne | ⟨rfl, hmessage, honly⟩
    · exact ⟨s, hs.other hne rfl rfl (fun _ => hon) fun hm => absurd hm Bool.false_ne_true, .stay⟩
    · refine ⟨_, Shows.remove hself rfl honly rfl, ?_⟩
      rw [hfate, withState, hs.connection]
      refine .retired n _ status state hmessage hserves.active hleft
        (fun hyes => ?_) (hs.connection ▸ hstate)
      rw [owesDisconnect_iff.mpr hyes] at howes
      cases howes
  | left d n hkept hactive howns =>
    obtain ⟨howns, hno, htype⟩ := howns trivial
    rcases hs.served howns.allocated rfl with hne | ⟨rfl, hmessage, honly⟩
    · refine ⟨s, hs.frame rfl rfl ?_ ?_, .stay⟩
      · exact fun hon => hne hon.2.symm
      · exact fun hon => hne hon.2.symm
    · exact ⟨_, Shows.replace hs.connection rfl honly
        ⟨howns.allocated, rfl⟩, .left n _ hkept hmessage hactive hno htype⟩
  | callLeft d n hkept hactive howns =>
    obtain ⟨howns, hno, htype⟩ := howns trivial
    rcases hs.served howns.allocated howns.connection with
      hne | ⟨rfl, hmessage, honly⟩
    · exact ⟨s, hs.other hne rfl rfl (fun _ => howns.connection) fun _ => howns.connection, .stay⟩
    · refine ⟨_, Shows.replace hself rfl honly ⟨howns.allocated, howns.connection⟩, ?_⟩
      rw [hs.connection]
      exact .callLeft n _ hkept hmessage hactive hno htype
  | cancelled d n service fate hkept hinactive howns =>
    obtain ⟨howns, -, hfate⟩ := howns trivial
    rcases hs.served howns.allocated howns.connection with
      hne | ⟨rfl, hmessage, honly⟩
    · exact ⟨s, hs.other hne rfl rfl (fun _ => howns.connection)
        fun hm => absurd hm Bool.false_ne_true, .stay⟩
    · refine ⟨_, Shows.remove hself rfl honly rfl, ?_⟩
      rw [hs.connection]
      exact .cancelled n _ fate hkept hmessage hinactive hfate
  | harvested d n fate hkept hcomplete howns =>
    have howns := howns trivial
    rcases hs.served howns.allocated howns.connection with
      hne | ⟨rfl, hmessage, honly⟩
    · exact ⟨s, hs.other hne rfl rfl (fun _ => howns.connection)
        fun hm => absurd hm Bool.false_ne_true, .stay⟩
    · refine ⟨_, Shows.remove hself rfl honly rfl, ?_⟩
      rw [hs.connection]
      exact .harvested n _ fate hkept hmessage hcomplete

theorem transition_opened (h : RuntimeOk before)
    (t : Transition rings True True kept actor before after)
    (hc : (before.connections c).allocated = false) :
    (after.connections c).allocated = false ∨ (after.connections c).state = .pendingConnect := by
  have hother {d : ConnectionIndex} {connection : Connection}
      (hd : (before.connections d).allocated = true) :
      (Function.update before.connections d connection c).allocated = false := by
    rw [Function.update_of_ne, hc]
    rintro rfl
    rw [hc] at hd
    cases hd
  have hserved {n : MessageIndex} {d : ConnectionIndex} (hn : (before.messages n).allocated = true)
      (hon : (before.messages n).connectionIndex = d) :
      (before.connections d).allocated = true := by
    rw [← hon]
    exact (h.tables.belongs n hn).allocated
  cases t with
  | stay | lifecycle | raised | cleared | chunk | left => exact .inl hc
  | rejected d =>
    rcases eq_or_ne c d with rfl | hne
    · simp [releaseConnection, Runtime.setConnection, Connection.released, clearedConnection]
    · simp [releaseConnection, Runtime.setConnection, Function.update_of_ne hne, hc]
  | opened d =>
    rcases eq_or_ne c d with rfl | hne
    · simp [openedConnection]
    · simp [Function.update_of_ne hne, hc]
  | refused d hd =>
    refine .inl ?_
    unfold refuseConnection
    split <;> exact hother hd
  | givenBack | called | closeLeft | closeSent => exact .inl (hother ‹_›)
  | delivered service n hservice hserver hhead =>
    obtain ⟨hn, -, -, rfl⟩ := waiting_service (h.queues.waiting_of_head hhead)
    rw [deliverMessage_eq rfl rfl]
    exact .inl (hother (hserved hn rfl))
  | reversed n rhandle hserves => exact .inl (hother (hserved hserves.allocated rfl))
  | answered | requeued | retired => exact .inl (hother (hserved (Serves.allocated ‹_›) ‹_›))
  | callLeft d n hkept hactive howns =>
    have howns := (howns trivial).1
    exact .inl (hother (hserved howns.allocated howns.connection))
  | cancelled d n service fate hkept hinactive howns =>
    have howns := (howns trivial).1
    exact .inl (hother (hserved howns.allocated howns.connection))
  | harvested d n fate hkept hcomplete howns =>
    have howns := howns trivial
    exact .inl (hother (hserved howns.allocated howns.connection))

end Transition

section Recovery

variable {recovers : Prop} {before after : Runtime} {c : ConnectionIndex}
  {s : Session} {contents : ServiceIndex → List MessageIndex}
  {kept : Set MessageIndex}

theorem failed_session {p status : Int} (h : RuntimeOk before)
    (hfailed : Failed p status before contents after) (hs : Shows before c s)
    (hrecovers : recovers) : ∃ s', Shows after c s' ∧ SessionMove recovers kept s s' := by
  have hback (n : MessageIndex) (hon : On after c n) : On before c n := by
    obtain ⟨hn, hsame, -, -⟩ := hfailed.allocated hon.1
    exact ⟨hn, hsame.connectionIndex.symm.trans hon.2⟩
  have hquiet (n : MessageIndex) (hn : ¬Awaits p before n) :
      after.messages n = before.messages n := by
    rw [hfailed.message, if_neg hn]
  have hdropped {m : MessageIndex} (hawaits : Awaits p before m)
      (hon : On before c m) (hleft : (before.messages m).abandoned ≠ .no)
      (n : MessageIndex) : ¬On after c n := by
    intro hn
    obtain rfl := hs.only hon (hback n hn)
    rw [On, hfailed.message, if_pos hawaits, failedMessage, if_neg hleft] at hn
    exact Bool.false_ne_true hn.1
  rcases hfailed.connection c with
    ⟨m, hawaits, hclose, hon, hreleased⟩ | ⟨hopen, ⟨hf, hstate⟩ | ⟨hf, hsame⟩⟩
  · have hm : On before c m := ⟨hawaits.1, hon⟩
    have hshows := shows_none (hdropped hawaits hm (by simp [hclose]))
    rw [hreleased, hs.connection] at hshows
    exact ⟨_, hshows, .closeDropped m _ (hs.eq_of_on hm) hawaits.2.1 hclose hrecovers⟩
  · by_cases hpending : ∃ m, On before c m ∧ (before.messages m).complete = false
    · obtain ⟨m, hm, hcomplete⟩ := hpending
      have hbelongs := h.tables.belongs m hm.1
      have hawaits : Awaits p before m := by
        refine ⟨hm.1, hcomplete, ?_⟩
        rw [← hbelongs.service, hm.2]
        exact hf.2.2.2
      have hmessage := hfailed.message m
      rw [if_pos hawaits, failedMessage] at hmessage
      cases habandoned : (before.messages m).abandoned with
      | no =>
        rw [if_pos habandoned] at hmessage
        have hon : On after c m := by
          rw [On, hmessage]
          exact hm
        have hshows := shows_one hon fun n hn => hs.only hm (hback n hn)
        rw [hstate, hs.connection, hmessage] at hshows
        exact ⟨_, hshows, .answeredFor m _ status (hs.eq_of_on hm) hcomplete habandoned hrecovers⟩
      | reply =>
        have hshows := shows_none (hdropped hawaits hm (by simp [habandoned]))
        rw [hstate, hs.connection] at hshows
        exact ⟨_, hshows, .replyDropped m _ (hs.eq_of_on hm) hcomplete habandoned hrecovers⟩
      | close => exact absurd hm.2 (hopen m hawaits habandoned)
    · push Not at hpending
      have hcomplete (m : MessageIndex) (hm : On before c m) :
          (before.messages m).complete = true := by
        simpa using hpending m hm
      rw [hs.connection] at hstate
      refine ⟨_, hs.survive hstate hback fun n hn => hquiet n fun hawaits => ?_,
        .serverGone (fun m message hm => ?_) hrecovers⟩
      · exact hpending n hn hawaits.2.1
      · obtain ⟨hon, rfl⟩ := (hs.message m message).mp hm
        exact hcomplete m hon
  · refine ⟨s, hs.survive (hsame.trans hs.connection) hback
      fun n hn => hquiet n fun hawaits => ?_, .stay⟩
    have hfailable := failable_of_awaits h hawaits
    rw [hn.2] at hfailable
    exact hf hfailable

theorem clientGone_session {caller : Int} (h : RuntimeOk before)
    (hgone : ClientGone caller before contents after) (hs : Shows before c s)
    (hrecovers : recovers) : ∃ s', Shows after c s' ∧ SessionMove recovers kept s s' := by
  have hback (n : MessageIndex) (hon : On after c n) :
      On before c n ∧ (before.messages n).caller ≠ caller := by
    have hmessage := hgone.message n
    split at hmessage
    · rw [On, hmessage] at hon
      exact absurd hon.1 Bool.false_ne_true
    · rename_i hsent
      rw [On, hmessage] at hon
      exact ⟨hon, fun hcaller => hsent ⟨hon.1, hcaller⟩⟩
  have howner (n : MessageIndex) (hn : On before c n) :
      Belongs (before.messages n) (before.connections c) :=
    hn.2 ▸ h.tables.belongs n hn.1
  have hconnection := hgone.connection c
  split at hconnection
  · rename_i hopened
    have hnone (n : MessageIndex) : ¬On after c n := by
      intro hon
      obtain ⟨hn, hcaller⟩ := hback n hon
      exact hcaller ((howner n hn).caller.symm.trans hopened.2)
    have hshows := shows_none hnone
    rw [hconnection, hs.connection] at hshows
    exact ⟨_, hshows, .clientGone hrecovers⟩
  · rename_i hopened
    refine ⟨s, hs.survive (hconnection.trans hs.connection)
      (fun n hn => (hback n hn).1) fun n hn => ?_, .stay⟩
    rw [hgone.message_of_ne]
    intro hcaller
    have hbelongs := howner n hn
    exact hopened ⟨hbelongs.allocated, hbelongs.caller.trans hcaller⟩

theorem Failed.connection_free {p status : Int} (h : RuntimeOk before)
    (hfailed : Failed p status before contents after)
    (hc : (before.connections c).allocated = false) : (after.connections c).allocated = false := by
  rcases hfailed.connection c with
    ⟨m, hawaits, -, rfl, -⟩ | ⟨-, ⟨hf, -⟩ | ⟨-, hsame⟩⟩
  · rw [(h.tables.belongs m hawaits.1).allocated] at hc
    cases hc
  · rw [hf.1] at hc
    cases hc
  · rw [hsame]
    exact hc

theorem ClientGone.connection_free {caller : Int} (hgone : ClientGone caller before contents after)
    (hc : (before.connections c).allocated = false) :
    (after.connections c).allocated = false := by
  rw [hgone.connection, if_neg]
  · exact hc
  · intro hopened
    rw [hopened.1] at hc
    cases hc

end Recovery

/-- What a connection and its message satisfy. -/
structure SessionOk (s : Session) : Prop where
  belongs : ∀ m message, s.message = some (m, message) →
    Belongs message s.connection ∧ MessageOk message
  alone : s.message = none → s.connection.allocated = true → Alone s.connection.state

theorem Shows.ok {runtime : Runtime} {c : ConnectionIndex} {s : Session}
    (hs : Shows runtime c s) (h : RuntimeOk runtime) : SessionOk s := by
  refine ⟨fun m message hm => ?_, fun hnone hc => ?_⟩
  · obtain ⟨hon, rfl⟩ := (hs.message m message).mp hm
    have hbelongs := h.tables.belongs m hon.1
    rw [hon.2, hs.connection] at hbelongs
    exact ⟨hbelongs, h.tables.message m⟩
  · rw [← hs.connection] at hc ⊢
    refine h.tables.alone c hc fun m hm hon => ?_
    have hsome := hs.eq_of_on ⟨hm, hon⟩
    rw [hnone] at hsome
    cases hsome

theorem message_unique {s : Session} {m n : MessageIndex}
    {message other : Message} (hm : s.message = some (m, message))
    (hn : s.message = some (n, other)) : n = m ∧ other = message :=
  Prod.mk.inj (Option.some.inj (hn.symm.trans hm))

theorem SessionMove.owner {recovers : Prop} {kept : Set MessageIndex} {s s' : Session}
    (h : SessionMove recovers kept s s') :
    SameOwner s.connection s'.connection ∧
        s'.connection.clientInstance = s.connection.clientInstance ∨
      s'.connection = s.connection.released := by
  have hfate (fate : Fate) (connection : Connection) (hsame : SameOwner s.connection connection ∧
        connection.clientInstance = s.connection.clientInstance)
      (hreleased : connection.released = s.connection.released) :
      SameOwner s.connection (fate.apply connection) ∧ (fate.apply connection).clientInstance =
            s.connection.clientInstance ∨
        fate.apply connection = s.connection.released := by
    cases fate with
    | kept => exact .inl hsame
    | failed =>
      obtain ⟨⟨ha, hb, hc, hd, he⟩, hf⟩ := hsame
      exact .inl ⟨⟨ha, hb, hc, hd, he⟩, hf⟩
    | freed => exact .inr hreleased
  cases h with
  | refused =>
    unfold refusedConnection
    split
    · exact .inl ⟨⟨rfl, rfl, rfl, rfl, rfl⟩, rfl⟩
    · exact .inl ⟨⟨rfl, rfl, rfl, rfl, rfl⟩, rfl⟩
  | retired | cancelled | harvested => exact hfate _ _ ⟨⟨rfl, rfl, rfl, rfl, rfl⟩, rfl⟩ rfl
  | clientGone | closeDropped => exact .inr rfl
  | _ => exact .inl ⟨⟨rfl, rfl, rfl, rfl, rfl⟩, rfl⟩

end WolfTrust.FfmSessions
