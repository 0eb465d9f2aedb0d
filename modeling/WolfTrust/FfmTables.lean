import WolfTrust.FfmRuntime

namespace WolfTrust.FfmTables

open FfmRuntime

def generationAfter (releases : Nat) : Nat := releases % (2 ^ 24 - 1) + 1

/-- The connection states that go with a message, by what the message is
doing. -/
def Legal (message : Message) (state : ConnectionState) : Prop :=
  if message.complete then
    message.active = false ∧ message.abandoned = .no ∧
      (state = .idle ∨ state = .error ∨ state = .terminal)
  else if message.type = psaIpcConnect then
    if message.active then state = .connecting ∧ message.abandoned ≠ .reply
    else state = .pendingConnect ∧ message.abandoned = .no
  else if message.type = psaIpcDisconnect then
    state = .disconnecting ∧ message.abandoned ≠ .reply
  else if message.active then
    match message.abandoned with
    | .no => state = .active
    | .reply => state = .error
    | .close => state = .disconnecting
  else state = .pendingRequest ∧ message.abandoned = .no

/-- The states of a connection no message belongs to. -/
def Alone (state : ConnectionState) : Prop :=
  state = .idle ∨ state = .error ∨ state = .disconnecting ∨ state = .terminal

/-- What a connection slot satisfies by itself. -/
structure ConnectionOk (layout : Layout) (connection : Connection) :
    Prop where
  generation : connection.generation = generationAfter connection.releases
  cleared : connection.allocated = false →
    connection = clearedConnection connection.generation connection.releases
  service : connection.allocated = true → connection.serviceIndex.val < layout.serviceCount
  caller : connection.allocated = true → connection.caller ≠ 0

/-- What a message slot satisfies by itself. -/
structure MessageOk (message : Message) : Prop where
  generation : message.generation = generationAfter message.releases
  cleared : message.allocated = false → message = clearedMessage message.generation message.releases
  type : message.type = psaIpcConnect ∨ message.type = psaIpcDisconnect ∨ psaIpcCall ≤ message.type

theorem MessageOk.free {message : Message} (h : MessageOk message)
    (hfree : message.allocated = false) :
    message.active = false ∧ message.complete = false ∧ message.abandoned = .no := by
  rw [h.cleared hfree]
  exact ⟨rfl, rfl, rfl⟩

structure Belongs (message : Message) (connection : Connection) : Prop where
  allocated : connection.allocated = true
  caller : connection.caller = message.caller
  service : connection.serviceIndex = message.serviceIndex
  legal : Legal message connection.state

/-- Two contents of a connection slot in one allocation. -/
structure SameOwner (connection changed : Connection) : Prop where
  allocated : changed.allocated = connection.allocated
  caller : changed.caller = connection.caller
  serviceIndex : changed.serviceIndex = connection.serviceIndex
  generation : changed.generation = connection.generation
  releases : changed.releases = connection.releases

theorem SameOwner.connectionOk {layout : Layout} {connection changed : Connection}
    (h : SameOwner connection changed) (hok : ConnectionOk layout connection)
    (hallocated : connection.allocated = true) : ConnectionOk layout changed := by
  refine ⟨?_, fun hfree => ?_, fun _ => ?_, fun _ => ?_⟩
  · rw [h.generation, h.releases]
    exact hok.generation
  · rw [h.allocated, hallocated] at hfree
    cases hfree
  · rw [h.serviceIndex]
    exact hok.service hallocated
  · rw [h.caller]
    exact hok.caller hallocated

/-- Two contents of a message slot in one allocation, for one request. -/
structure SameRequest (message changed : Message) : Prop where
  caller : changed.caller = message.caller
  generation : changed.generation = message.generation
  connectionIndex : changed.connectionIndex = message.connectionIndex
  serviceIndex : changed.serviceIndex = message.serviceIndex
  type : changed.type = message.type
  allocated : changed.allocated = message.allocated
  releases : changed.releases = message.releases

theorem SameRequest.refl (message : Message) : SameRequest message message :=
  ⟨rfl, rfl, rfl, rfl, rfl, rfl, rfl⟩

theorem SameRequest.trans {first second third : Message} (h : SameRequest first second)
    (h' : SameRequest second third) : SameRequest first third :=
  ⟨h'.caller.trans h.caller, h'.generation.trans h.generation,
    h'.connectionIndex.trans h.connectionIndex,
    h'.serviceIndex.trans h.serviceIndex, h'.type.trans h.type,
    h'.allocated.trans h.allocated, h'.releases.trans h.releases⟩

theorem SameRequest.messageOk {message changed : Message} (h : SameRequest message changed)
    (hok : MessageOk message) (hallocated : message.allocated = true) : MessageOk changed := by
  refine ⟨?_, fun hfree => ?_, ?_⟩
  · rw [h.generation, h.releases]
    exact hok.generation
  · rw [h.allocated, hallocated] at hfree
    cases hfree
  · rw [h.type]
    exact hok.type

theorem Belongs.change {message changed : Message}
    {connection other : Connection} (hb : Belongs message connection)
    (h : SameRequest message changed) (ho : SameOwner connection other)
    (hlegal : Legal changed other.state) : Belongs changed other := by
  refine ⟨?_, ?_, ?_, hlegal⟩
  · rw [ho.allocated]
    exact hb.allocated
  · rw [ho.caller, h.caller]
    exact hb.caller
  · rw [ho.serviceIndex, h.serviceIndex]
    exact hb.service

/-- Two contents of a message slot that differ in the payload at most. -/
structure SameHeader (message changed : Message) : Prop extends
    SameRequest message changed where
  replyStatus : changed.replyStatus = message.replyStatus
  active : changed.active = message.active
  complete : changed.complete = message.complete
  abandoned : changed.abandoned = message.abandoned

theorem SameHeader.refl (message : Message) : SameHeader message message :=
  ⟨.refl message, rfl, rfl, rfl, rfl⟩

theorem SameHeader.trans {first second third : Message} (h : SameHeader first second)
    (h' : SameHeader second third) : SameHeader first third :=
  ⟨h.toSameRequest.trans h'.toSameRequest,
    h'.replyStatus.trans h.replyStatus, h'.active.trans h.active,
    h'.complete.trans h.complete, h'.abandoned.trans h.abandoned⟩

theorem SameHeader.legal {message changed : Message} (h : SameHeader message changed)
    (state : ConnectionState) : Legal changed state ↔ Legal message state := by
  unfold Legal
  rw [h.complete, h.active, h.abandoned, h.type]

structure TablesOk (layout : Layout)
    (connections : ConnectionIndex → Connection)
    (messages : MessageIndex → Message) : Prop where
  connection : ∀ c, ConnectionOk layout (connections c)
  message : ∀ m, MessageOk (messages m)
  belongs : ∀ m, (messages m).allocated = true →
    Belongs (messages m) (connections (messages m).connectionIndex)
  unique : ∀ m n, (messages m).allocated = true → (messages n).allocated = true →
    (messages m).connectionIndex = (messages n).connectionIndex → m = n
  alone : ∀ c, (connections c).allocated = true → (∀ m, (messages m).allocated = true →
      (messages m).connectionIndex ≠ c) → Alone (connections c).state

theorem nextGeneration_generationAfter (releases : Nat) :
    nextGeneration (generationAfter releases) = generationAfter (releases + 1) := by
  have hmask (n : Nat) : n &&& handleGenMask = n % 2 ^ 24 := Nat.and_two_pow_sub_one_eq_mod n 24
  unfold nextGeneration
  simp only [hmask]
  unfold generationAfter
  have hlt : releases % (2 ^ 24 - 1) < 2 ^ 24 - 1 := Nat.mod_lt _ (by decide)
  by_cases hlast : releases % (2 ^ 24 - 1) = 2 ^ 24 - 2
  · -- The last generation is followed by the first, zero being skipped.
    have hwrap : (releases + 1) % (2 ^ 24 - 1) = 0 := by omega
    rw [hlast, hwrap]
    rfl
  · have hnext : (releases + 1) % (2 ^ 24 - 1) = releases % (2 ^ 24 - 1) + 1 := by omega
    rw [hnext, Nat.mod_eq_of_lt (by omega), if_neg (by omega)]

theorem ConnectionOk.released {layout : Layout} {connection : Connection}
    (h : ConnectionOk layout connection) : ConnectionOk layout connection.released := by
  refine ⟨?_, fun _ => rfl, fun hallocated => ?_, fun hallocated => ?_⟩
  · change nextGeneration connection.generation = _
    rw [h.generation, nextGeneration_generationAfter]
    rfl
  · cases hallocated
  · cases hallocated

theorem MessageOk.released {message : Message} (h : MessageOk message) :
    MessageOk message.released := by
  refine ⟨?_, fun _ => rfl, .inr (.inr (le_refl _))⟩
  change nextGeneration message.generation = _
  rw [h.generation, nextGeneration_generationAfter]
  rfl

section Changes

variable {layout : Layout} {connections : ConnectionIndex → Connection}
  {messages : MessageIndex → Message} {connection : Connection} {m : MessageIndex}
  {c : ConnectionIndex} {message : Message}

theorem TablesOk.no_message (h : TablesOk layout connections messages)
    (hfree : (connections c).allocated = false) (m : MessageIndex)
    (hm : (messages m).allocated = true) : (messages m).connectionIndex ≠ c := by
  rintro rfl
  have hallocated := (h.belongs m hm).allocated
  rw [hfree] at hallocated
  cases hallocated

theorem TablesOk.update_pair (h : TablesOk layout connections messages)
    (hbefore : (messages m).allocated = true → (messages m).connectionIndex = c)
    (hothers : ∀ n, n ≠ m → (messages n).allocated = true → (messages n).connectionIndex ≠ c)
    (hconnection : ConnectionOk layout connection) (hmessage : MessageOk message)
    (hbelongs : message.allocated = true → message.connectionIndex = c ∧ Belongs message connection)
    (halone : connection.allocated = true → message.allocated = false → Alone connection.state) :
    TablesOk layout (Function.update connections c connection)
      (Function.update messages m message) := by
  refine ⟨fun d => ?_, fun n => ?_, fun n hn => ?_, fun n k hn hk hnk => ?_, fun d hd hnone => ?_⟩
  · by_cases hdc : d = c
    · rw [hdc, Function.update_self]
      exact hconnection
    · rw [Function.update_of_ne hdc]
      exact h.connection d
  · by_cases hnm : n = m
    · rw [hnm, Function.update_self]
      exact hmessage
    · rw [Function.update_of_ne hnm]
      exact h.message n
  · by_cases hnm : n = m
    · subst hnm
      rw [Function.update_self] at hn ⊢
      rw [(hbelongs hn).1, Function.update_self]
      exact (hbelongs hn).2
    · rw [Function.update_of_ne hnm] at hn ⊢
      rw [Function.update_of_ne (hothers n hnm hn)]
      exact h.belongs n hn
  · by_cases hnm : n = m <;> by_cases hkm : k = m
    · rw [hnm, hkm]
    · subst hnm
      rw [Function.update_self] at hn hnk
      rw [Function.update_of_ne hkm] at hk hnk
      exact absurd (hnk.symm.trans (hbelongs hn).1) (hothers k hkm hk)
    · subst hkm
      rw [Function.update_of_ne hnm] at hn hnk
      rw [Function.update_self] at hk hnk
      exact absurd (hnk.trans (hbelongs hk).1) (hothers n hnm hn)
    · rw [Function.update_of_ne hnm] at hn hnk
      rw [Function.update_of_ne hkm] at hk hnk
      exact h.unique n k hn hk hnk
  · by_cases hdc : d = c
    · subst hdc
      rw [Function.update_self] at hd ⊢
      refine halone hd ?_
      by_contra hallocated
      rw [Bool.not_eq_false] at hallocated
      refine hnone m ?_ ?_
      · rwa [Function.update_self]
      · rw [Function.update_self]
        exact (hbelongs hallocated).1
    · rw [Function.update_of_ne hdc] at hd ⊢
      refine h.alone d hd fun n hn hnd => ?_
      have hnm : n ≠ m := by
        rintro rfl
        exact hdc (hnd.symm.trans (hbefore hn))
      refine hnone n ?_ ?_
      · rwa [Function.update_of_ne hnm]
      · rwa [Function.update_of_ne hnm]

theorem TablesOk.update_alone (h : TablesOk layout connections messages)
    (hnone : ∀ m, (messages m).allocated = true → (messages m).connectionIndex ≠ c)
    (hconnection : ConnectionOk layout connection)
    (halone : connection.allocated = true → Alone connection.state) :
    TablesOk layout (Function.update connections c connection) messages := by
  refine ⟨fun d => ?_, h.message, fun m hm => ?_, h.unique, fun d hd hd' => ?_⟩
  · by_cases hdc : d = c
    · rw [hdc, Function.update_self]
      exact hconnection
    · rw [Function.update_of_ne hdc]
      exact h.connection d
  · rw [Function.update_of_ne (hnone m hm)]
    exact h.belongs m hm
  · by_cases hdc : d = c
    · rw [hdc, Function.update_self] at hd ⊢
      exact halone hd
    · rw [Function.update_of_ne hdc] at hd ⊢
      exact h.alone d hd hd'

theorem TablesOk.update_free (h : TablesOk layout connections messages)
    (hfree : (messages m).allocated = false) (hmessage : MessageOk message)
    (hfree' : message.allocated = false) :
    TablesOk layout connections (Function.update messages m message) := by
  have hne : ∀ n, (Function.update messages m message n).allocated = true → n ≠ m := by
    rintro n hn rfl
    rw [Function.update_self, hfree'] at hn
    cases hn
  refine ⟨h.connection, fun n => ?_, fun n hn => ?_, fun n k hn hk hnk => ?_,
    fun d hd hnone => h.alone d hd fun n hn => ?_⟩
  · by_cases hnm : n = m
    · rw [hnm, Function.update_self]
      exact hmessage
    · rw [Function.update_of_ne hnm]
      exact h.message n
  · have hnm := hne n hn
    rw [Function.update_of_ne hnm] at hn ⊢
    exact h.belongs n hn
  · have hnm := hne n hn
    have hkm := hne k hk
    rw [Function.update_of_ne hnm] at hn hnk
    rw [Function.update_of_ne hkm] at hk hnk
    exact h.unique n k hn hk hnk
  · have hnm : n ≠ m := by
      rintro rfl
      rw [hfree] at hn
      cases hn
    have hkeep := hnone n
    rw [Function.update_of_ne hnm] at hkeep
    exact hkeep hn

theorem TablesOk.others (h : TablesOk layout connections messages)
    (hm : (messages m).allocated = true) (n : MessageIndex)
    (hnm : n ≠ m) (hn : (messages n).allocated = true) :
    (messages n).connectionIndex ≠ (messages m).connectionIndex :=
  fun heq => hnm (h.unique n m hn hm heq)

theorem TablesOk.update_both (h : TablesOk layout connections messages)
    (hm : (messages m).allocated = true)
    (hconnection : ConnectionOk layout connection)
    (hmessage : MessageOk message)
    (hbelongs : message.allocated = true → message.connectionIndex = (messages m).connectionIndex ∧
        Belongs message connection)
    (halone : connection.allocated = true → message.allocated = false → Alone connection.state) :
    TablesOk layout (Function.update connections (messages m).connectionIndex connection)
      (Function.update messages m message) :=
  h.update_pair (fun _ => rfl) (h.others hm) hconnection hmessage hbelongs halone

theorem TablesOk.update_message (h : TablesOk layout connections messages)
    (hm : (messages m).allocated = true)
    (hmessage : MessageOk message)
    (hbelongs : message.allocated = true → message.connectionIndex = (messages m).connectionIndex ∧
        Belongs message (connections (messages m).connectionIndex))
    (halone : message.allocated = false → Alone (connections (messages m).connectionIndex).state) :
    TablesOk layout connections (Function.update messages m message) := by
  have hpair := h.update_both hm (h.connection _) hmessage hbelongs fun _ => halone
  rwa [Function.update_eq_self] at hpair

theorem TablesOk.update_connection (h : TablesOk layout connections messages)
    (hconnection : ConnectionOk layout connection)
    (hbelongs : ∀ m, (messages m).allocated = true →
      (messages m).connectionIndex = c → Belongs (messages m) connection)
    (halone : (∀ m, (messages m).allocated = true → (messages m).connectionIndex ≠ c) →
      connection.allocated = true → Alone connection.state) :
    TablesOk layout (Function.update connections c connection) messages := by
  by_cases hmessage : ∃ m, (messages m).allocated = true ∧ (messages m).connectionIndex = c
  · obtain ⟨m, hm, rfl⟩ := hmessage
    have hpair := h.update_both hm hconnection (h.message m) (fun _ => ⟨rfl, hbelongs m hm rfl⟩)
      (fun _ hfree => by rw [hm] at hfree; cases hfree)
    rwa [Function.update_eq_self] at hpair
  · have hnone : ∀ m, (messages m).allocated = true → (messages m).connectionIndex ≠ c :=
      fun m hm heq => hmessage ⟨m, hm, heq⟩
    exact h.update_alone hnone hconnection (halone hnone)

end Changes

end WolfTrust.FfmTables
