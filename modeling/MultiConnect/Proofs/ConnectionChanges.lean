/-
Module: MultiConnect.Proofs.ConnectionChanges
Layer: Proofs
Purpose: What an operation can do to one connection (`grown_of_apply`). A connection that is there
  afterwards was there before, or was opened; it is connected only when it was before, when a hello came
  in, or when an acknowledgement came in on it; and its timer is the one it had, or starts again because
  something was heard on the connection, or has just fired.
Trusted boundary: none
Main exports: Hears, ConnectionEntry.Changes, Opened, Grown, grown_of_apply
-/
import MultiConnect.Proofs.Disconnected
import MultiConnect.Proofs.Provenance

namespace MultiConnect

open ConnectionManager

/-! ### One connection -/

/-- An operation hears from the peer on a connection, which it knows by its key: a hello, or an
    acknowledgement of one. -/
inductive Hears : ManagerOp → EndpointId → String × SocketAddr → Instant → Prop
  | listening {hello : Hello} {sourceAddress : SocketAddr} {interfaceName : String}
      {openSocket : OpenSocket} {firstAck lastAck : Nat → SendResult} {now : Instant} :
      Hears (.handleHello (some (.hello hello)) sourceAddress interfaceName openSocket firstAck lastAck
        now) hello.id (interfaceName, sourceAddress) now
  | hello {readInfo : ReadInfo} {openSocket : OpenSocket} {ack : Nat → SendResult} {now : Instant}
      {hello : Hello} (decoded : readInfo.packetBytes = some (.hello hello)) :
      Hears (.handleEstablishedMessage readInfo openSocket ack now) hello.id
        (readInfo.interfaceName, readInfo.sourceAddress) now
  | helloAck {readInfo : ReadInfo} {openSocket : OpenSocket} {ack : Nat → SendResult} {now : Instant}
      {helloAck : HelloAck} (decoded : readInfo.packetBytes = some (.helloAck helloAck)) :
      Hears (.handleEstablishedMessage readInfo openSocket ack now) helloAck.id
        (readInfo.interfaceName, readInfo.sourceAddress) now

/-- An operation takes in a hello. -/
def ManagerOp.Greeted (op : ManagerOp) : Prop :=
  ∃ hello, op.received = some (.hello hello)

/-- How an operation can change a connection that stays. -/
structure ConnectionEntry.Changes (op : ManagerOp) (k : EndpointId) (entry entry' : ConnectionEntry) :
    Prop where
  key : entry'.key = entry.key
  socket : entry'.connection.socket = entry.connection.socket
  duration : entry'.connection.connectionTimeoutDuration = entry.connection.connectionTimeoutDuration
  connected : entry'.connection.state = .connected →
    entry.connection.state = .connected ∨ op.Greeted ∨ ∃ now, Hears op k entry.key now
  timer : entry'.connection.connectionTimeout = entry.connection.connectionTimeout ∨
    (∃ now, Hears op k entry.key now ∧ entry'.connection.connectionTimeout =
      Timer.after now entry.connection.connectionTimeoutDuration) ∨
    entry'.connection.connectionTimeout = Timer.never ∧ ∃ id index now, op = .awaitTimeout id index now

/-- A connection as an operation opens it. -/
inductive Opened (m₀ : ConnectionManager) (op : ManagerOp) (k : EndpointId) : ConnectionEntry → Prop
  | incoming {sourceAddress localAddr : SocketAddr} {interfaceName : String} {now : Instant}
      (greeted : op.Greeted) (hears : Hears op k (interfaceName, sourceAddress) now) :
      Opened m₀ op k (Endpoint.incomingEntry sourceAddress interfaceName localAddr
        m₀.connectionTimeout now)
  | outgoing {info : ConnectionInfo} {dial : Dial} {localAddr : SocketAddr}
      (dials : Dials m₀ op info dial) (key : info.destinationEndpointId = k) :
      Opened m₀ op k (outgoingEntry info.interfaceName info.destinationAddress localAddr
        m₀.connectionTimeout dial.now)

section Entry

variable {op : ManagerOp} {k : EndpointId} {entry mid entry' : ConnectionEntry}

theorem ConnectionEntry.Changes.refl (op : ManagerOp) (k : EndpointId) (entry : ConnectionEntry) :
    entry.Changes op k entry :=
  ⟨rfl, rfl, rfl, Or.inl, Or.inl rfl⟩

/-- What two changes of one operation amount to is a change of it as well. -/
theorem ConnectionEntry.Changes.trans (h : entry.Changes op k mid) (h' : mid.Changes op k entry') :
    entry.Changes op k entry' where
  key := h'.key.trans h.key
  socket := h'.socket.trans h.socket
  duration := h'.duration.trans h.duration
  connected hstate := (h'.connected hstate).elim h.connected fun heard => Or.inr (h.key ▸ heard)
  timer := by
    rcases h'.timer with hsame | ⟨now, hears, hafter⟩ | hfired
    · rw [hsame]
      exact h.timer
    · exact Or.inr (Or.inl ⟨now, h.key ▸ hears, h.duration ▸ hafter⟩)
    · exact Or.inr (Or.inr hfired)

/-- A change of state and flag alone. -/
theorem changes_of_timer (key : entry'.key = entry.key)
    (socket : entry'.connection.socket = entry.connection.socket)
    (duration : entry'.connection.connectionTimeoutDuration =
      entry.connection.connectionTimeoutDuration)
    (connected : entry'.connection.state = .connected →
      entry.connection.state = .connected ∨ op.Greeted ∨ ∃ now, Hears op k entry.key now)
    (timer : entry'.connection.connectionTimeout = entry.connection.connectionTimeout) :
    entry.Changes op k entry' :=
  ⟨key, socket, duration, connected, Or.inl timer⟩

/-- Starting the timer again is a change for an operation that hears from the peer at that instant. -/
theorem changes_resetHelloTimeout {now : Instant} (hears : Hears op k entry.key now) :
    entry.Changes op k (entry.resetHelloTimeout now) :=
  ⟨rfl, rfl, rfl, Or.inl, Or.inr (Or.inl ⟨now, hears, rfl⟩)⟩

end Entry

/-! ### The connections of an endpoint -/

/-- Every connection was there before, or was opened, and was changed by nothing but the operation. -/
def Grown (m₀ : ConnectionManager) (op : ManagerOp) (k : EndpointId)
    (before after : List ConnectionEntry) : Prop :=
  ∀ entry' ∈ after, ∃ entry, (entry ∈ before ∨ Opened m₀ op k entry) ∧ entry.Changes op k entry'

namespace Grown

variable {m₀ : ConnectionManager} {op : ManagerOp} {k : EndpointId}
  {before mid after : List ConnectionEntry}

theorem of_subset (h : after ⊆ before) : Grown m₀ op k before after := fun entry hentry =>
  ⟨entry, Or.inl (h hentry), .refl op k entry⟩

theorem refl (before : List ConnectionEntry) : Grown m₀ op k before before :=
  of_subset (List.Subset.refl before)

theorem trans (h : Grown m₀ op k before mid) (h' : Grown m₀ op k mid after) :
    Grown m₀ op k before after := by
  intro entry' hentry'
  obtain ⟨entry, hmid | hopened, hchanges⟩ := h' entry' hentry'
  · obtain ⟨first, hfirst, hchanges'⟩ := h entry hmid
    exact ⟨first, hfirst, hchanges'.trans hchanges⟩
  · exact ⟨entry, Or.inr hopened, hchanges⟩

/-- An operation may add a connection that it opened. -/
theorem append {entry : ConnectionEntry} (opened : Opened m₀ op k entry) :
    Grown m₀ op k before (before ++ [entry]) := by
  intro entry' hentry'
  rcases List.mem_append.mp hentry' with hold | hnew
  · exact ⟨entry', Or.inl hold, .refl op k entry'⟩
  · obtain rfl := List.mem_singleton.mp hnew
    exact ⟨entry', Or.inr opened, .refl op k entry'⟩

/-- Every connection comes from one that was there. -/
theorem of_forall (h : ∀ entry' ∈ after, ∃ entry ∈ before, entry.Changes op k entry') :
    Grown m₀ op k before after := fun entry' hentry' => by
  obtain ⟨entry, hentry, hchanges⟩ := h entry' hentry'
  exact ⟨entry, Or.inl hentry, hchanges⟩

/-- Changes may reach every connection, in place. -/
theorem map {f : ConnectionEntry → ConnectionEntry}
    (changes : ∀ entry : ConnectionEntry, entry.Changes op k (f entry)) :
    Grown m₀ op k before (before.map f) :=
  of_forall fun entry' hentry' => by
    obtain ⟨entry, hentry, rfl⟩ := List.mem_map.mp hentry'
    exact ⟨entry, hentry, changes entry⟩

/-- Or only the connection at an index. -/
theorem set {index : Nat} {entry changed : ConnectionEntry} (hentry : before[index]? = some entry)
    (changes : entry.Changes op k changed) : Grown m₀ op k before (before.set index changed) :=
  of_forall fun entry' hentry' => by
    rcases List.mem_or_eq_of_mem_set hentry' with hold | rfl
    · exact ⟨entry', hold, .refl op k entry'⟩
    · exact ⟨entry, List.mem_of_getElem? hentry, changes⟩

/-- Or the first connection that is looked for. -/
theorem updateFirst {p : ConnectionEntry → Bool} {f : ConnectionEntry → ConnectionEntry}
    (changes : ∀ entry : ConnectionEntry, p entry = true → entry.Changes op k (f entry)) :
    ∀ {before after : List ConnectionEntry}, MultiConnect.updateFirst p f before = some after →
      Grown m₀ op k before after
  | first :: rest, after, h => by
      unfold MultiConnect.updateFirst at h
      split at h
      · rename_i hfirst
        obtain rfl := Option.some.inj h
        exact set (show (first :: rest)[0]? = some first from rfl) (changes first hfirst)
      · obtain ⟨rest', hrest, rfl⟩ := Option.map_eq_some_iff.mp h
        intro entry' hentry'
        rcases List.mem_cons.mp hentry' with rfl | hentry'
        · exact ⟨entry', Or.inl List.mem_cons_self, .refl op k entry'⟩
        · obtain ⟨entry, hentry, hchanges⟩ := updateFirst changes hrest entry' hentry'
          exact ⟨entry, hentry.imp (List.mem_cons_of_mem _) id, hchanges⟩

/-- A message that is written on some connections touches nothing but their states. -/
theorem broadcast {eligible : ConnectionEntry → Bool}
    {settle : SendResult → ConnectionState → ConnectionState} (sends : Nat → SendResult)
    (connects : ∀ sent state, settle sent state = .connected → state = .connected ∨ op.Greeted) :
    Grown m₀ op k before (MultiConnect.broadcast eligible settle sends before) :=
  of_forall fun entry' hentry' => by
    obtain ⟨index, hindex, rfl⟩ := List.mem_mapIdx.mp hentry'
    refine ⟨before[index], List.getElem_mem hindex, ?_⟩
    split
    · exact changes_of_timer rfl rfl rfl (fun h => (connects _ _ h).imp_right Or.inl) rfl
    · exact .refl op k _

end Grown

section Endpoint

variable {m₀ manager : ConnectionManager} {op : ManagerOp} {k : EndpointId} {e added : Endpoint}
  {sourceAddress : SocketAddr} {interfaceName : String} {openSocket : OpenSocket} {now : Instant}

/-- An acknowledgement is written on the connections that are not broken. -/
theorem grown_acknowledge (greeted : op.Greeted) (sends : Nat → SendResult)
    (connections : List ConnectionEntry) :
    Grown m₀ op k connections
      (broadcast ConnectionEntry.isLive Endpoint.settleAck sends connections) :=
  Grown.broadcast sends fun _ _ _ => Or.inr greeted

/-- Greetings break connections and open none. -/
theorem grown_greet (ownId : EndpointId) (ownStaticRoutes : Option (List Route))
    (sends : Nat → SendResult) :
    Grown m₀ op k e.connections (e.greet ownId ownStaticRoutes sends).1.connections :=
  Grown.broadcast sends fun sent state h => by
    unfold Endpoint.settleHello at h
    split at h
    · cases h
    · exact Or.inl h

/-- So do packets. -/
theorem grown_tunnel (bytes : List UInt8) (sends : Nat → SendResult) :
    Grown m₀ op k e.connections (e.tunnel bytes sends).1.connections :=
  Grown.broadcast sends fun sent state h => by
    unfold Endpoint.settlePacket at h
    split at h
    · cases h
    · exact Or.inl h

/-- A hello from a connection that is known starts its timer again, another opens a connection. -/
theorem grown_addConnection (timeout : manager.connectionTimeout = m₀.connectionTimeout)
    (greeted : op.Greeted) (hears : Hears op k (interfaceName, sourceAddress) now)
    (h : e.addConnection sourceAddress interfaceName manager.localAddress manager.connectionTimeout
      openSocket now = .ok added) : Grown m₀ op k e.connections added.connections := by
  unfold Endpoint.addConnection at h
  split at h
  · rename_i connections hknown
    obtain rfl := Except.ok.inj h
    refine Grown.updateFirst (fun entry hfor => changes_resetHelloTimeout ?_) hknown
    simp only [ConnectionEntry.isFor, Bool.and_eq_true, beq_iff_eq] at hfor
    rw [ConnectionEntry.key, hfor.1, hfor.2]
    exact hears
  · split at h
    · cases h
    · obtain rfl := Except.ok.inj h
      rw [timeout]
      exact Grown.append (.incoming greeted hears)

/-- Taking in a hello adds its connection or starts the timer of a known one, and the acknowledgements
    connect what they are sent on. -/
theorem grown_addAndAcknowledge (timeout : manager.connectionTimeout = m₀.connectionTimeout)
    (greeted : op.Greeted) (hears : Hears op k (interfaceName, sourceAddress) now)
    (firstAck lastAck : Nat → SendResult) :
    Grown m₀ op k e.connections (manager.addAndAcknowledge e sourceAddress interfaceName openSocket
      firstAck lastAck now).1.connections := by
  unfold addAndAcknowledge
  split
  · rename_i added hadd
    exact ((grown_addConnection timeout greeted hears hadd).trans
      (grown_acknowledge greeted firstAck _)).trans (grown_acknowledge greeted lastAck _)
  · exact grown_acknowledge greeted lastAck _

/-- An acknowledgement connects its connection, and starts the timer again unless it is broken. -/
theorem changes_acknowledged {readInfo : ReadInfo}
    (hears : Hears op k (readInfo.interfaceName, readInfo.sourceAddress) now)
    (entry : ConnectionEntry) : entry.Changes op k (acknowledged readInfo now entry) := by
  unfold acknowledged
  split
  · rename_i hkey
    have hconnected : entry.Changes op k
        (if entry.connection.state = .startup then entry.setState .connected else entry) := by
      split
      · refine changes_of_timer rfl rfl rfl (fun _ => Or.inr (Or.inr ⟨now, ?_⟩)) rfl
        rw [ConnectionEntry.key, hkey.1, hkey.2]
        exact hears
      · exact .refl op k entry
    dsimp only
    generalize (if entry.connection.state = .startup then entry.setState .connected else entry) =
      connected at hconnected ⊢
    split
    · refine hconnected.trans (changes_resetHelloTimeout ?_)
      rw [hconnected.key, ConnectionEntry.key, hkey.1, hkey.2]
      exact hears
    · exact hconnected
  · exact .refl op k entry

end Endpoint

/-! ### The operations -/

/-- The connections of every endpoint were there before, or were opened. -/
def AllGrown (m₀ : ConnectionManager) (op : ManagerOp) (manager next : ConnectionManager) : Prop :=
  ∀ k, Grown m₀ op k (manager.connectionsOf k) (next.connectionsOf k)

section Manager

variable {m₀ manager mid next : ConnectionManager} {op : ManagerOp} {outs : List Output}

theorem AllGrown.refl (manager : ConnectionManager) : AllGrown m₀ op manager manager :=
  fun k => Grown.refl (manager.connectionsOf k)

theorem AllGrown.trans (h : AllGrown m₀ op manager mid) (h' : AllGrown m₀ op mid next) :
    AllGrown m₀ op manager next :=
  fun k => (h k).trans (h' k)

/-- Replacing one endpoint changes its connections only. -/
theorem AllGrown.setEndpoint {id : EndpointId} {endpoint changed : Endpoint}
    (found : manager.endpoints.get? id = some endpoint)
    (h : Grown m₀ op id endpoint.connections changed.connections) :
    AllGrown m₀ op manager (manager.setEndpoint id changed) := by
  intro k
  rw [connectionsOf_setEndpoint]
  split
  · rename_i hk
    rw [hk, connectionsOf_of_get? found]
    exact h
  · exact Grown.refl _

/-- A loop over all endpoints grows each of them on its own. -/
theorem AllGrown.mapVals {f : EndpointId → Endpoint → Endpoint}
    (h : ∀ k e, Grown m₀ op k e.connections (f k e).connections) :
    AllGrown m₀ op manager { manager with endpoints := manager.endpoints.mapVals f } := by
  intro k
  simp only [connectionsOf, OrdMap.get?_mapVals]
  cases manager.endpoints.get? k with
  | none => exact Grown.refl []
  | some e => exact h k e

theorem grown_admitHello {hello : Hello} {endpoint : Endpoint} {sourceAddress : SocketAddr}
    {interfaceName : String} {openSocket : OpenSocket} {firstAck lastAck : Nat → SendResult}
    {now : Instant} (timeout : manager.connectionTimeout = m₀.connectionTimeout)
    (found : manager.endpoints.get? hello.id = some endpoint) :
    AllGrown m₀ (.handleHello (some (.hello hello)) sourceAddress interfaceName openSocket firstAck
      lastAck now) manager (manager.admitHello hello sourceAddress interfaceName openSocket firstAck
      lastAck now).1 := by
  simp only [admitHello, found]
  exact AllGrown.setEndpoint found (grown_addAndAcknowledge timeout ⟨_, rfl⟩ .listening firstAck
    lastAck)

/-- A fresh endpoint begins without connections, so installing one opens none. -/
theorem grown_handleHello {message : Option Messages} {sourceAddress : SocketAddr}
    {interfaceName : String} {openSocket : OpenSocket} {firstAck lastAck : Nat → SendResult}
    {now : Instant} :
    AllGrown manager (.handleHello message sourceAddress interfaceName openSocket firstAck lastAck
      now) manager (manager.handleHello message sourceAddress interfaceName openSocket firstAck lastAck
      now).1 := by
  by_cases hhello : ∃ hello, message = some (.hello hello)
  · obtain ⟨hello, rfl⟩ := hhello
    rcases manager.handleHello_cases hello sourceAddress interfaceName openSocket firstAck lastAck now
      with ⟨-, hafter⟩ | ⟨e, found, -, hafter⟩ | ⟨-, -, -, -, hafter⟩
    · rw [hafter]
      have hinstalled : AllGrown manager (.handleHello (some (.hello hello)) sourceAddress interfaceName
          openSocket firstAck lastAck now) manager (manager.installFresh hello now) := fun k => by
        refine Grown.of_subset ?_
        rw [connectionsOf, installFresh, OrdMap.get?_insert]
        split
        · exact List.nil_subset _
        · exact List.Subset.refl _
      exact hinstalled.trans (grown_admitHello rfl (get?_installFresh manager hello now))
    · rw [hafter]
      exact grown_admitHello rfl found
    · rw [hafter]
      exact AllGrown.refl manager
  · unfold handleHello
    split
    · exact absurd ⟨_, rfl⟩ hhello
    · exact AllGrown.refl manager

/-- Of the messages on connections, a hello can open one, an acknowledgement connects the one that it
    came in on, and a packet changes none. -/
theorem grown_handleEstablishedMessage {readInfo : ReadInfo} {openSocket : OpenSocket}
    {ack : Nat → SendResult} {now : Instant}
    (h : manager.handleEstablishedMessage readInfo openSocket ack now = some (next, outs)) :
    AllGrown manager (.handleEstablishedMessage readInfo openSocket ack now) manager next := by
  have hsame : ∀ {outs'}, some (manager, outs') = some (next, outs) →
      AllGrown manager (.handleEstablishedMessage readInfo openSocket ack now) manager next :=
    fun heq => (Prod.mk.inj (Option.some.inj heq)).1 ▸ AllGrown.refl manager
  unfold handleEstablishedMessage at h
  split at h
  · split at h
    · rename_i found
      obtain ⟨rfl, -⟩ := Prod.mk.inj (Option.some.inj h)
      exact AllGrown.setEndpoint found (Grown.refl _)
    · exact hsame h
  · rename_i hello hread
    split at h
    · rename_i found
      have hgreeted : (ManagerOp.handleEstablishedMessage readInfo openSocket ack now).Greeted :=
        ⟨_, hread⟩
      dsimp only at h
      split at h
      · rename_i added hadd
        obtain ⟨rfl, -⟩ := Prod.mk.inj (Option.some.inj h)
        exact AllGrown.setEndpoint found ((grown_addConnection rfl hgreeted (.hello hread) hadd).trans
          (grown_acknowledge hgreeted ack _))
      · cases h
    · exact hsame h
  · rename_i helloAck hread
    split at h
    · rename_i endpoint found
      obtain ⟨rfl, -⟩ := Prod.mk.inj (Option.some.inj h)
      exact AllGrown.setEndpoint found (Grown.map fun entry =>
        changes_acknowledged (.helloAck hread) entry)
    · exact hsame h
  · exact hsame h

/-- An attempt opens at most the connection that it dials. -/
theorem grown_tryLink {info : ConnectionInfo} {dial : Dial}
    (timeout : manager.connectionTimeout = m₀.connectionTimeout) (dials : Dials m₀ op info dial)
    (h : manager.tryLink (info, dial) = some (next, outs)) : AllGrown m₀ op manager next := by
  rcases tryLink_connections h with hsame | ⟨localAddr, hadded⟩
  · intro k
    rw [hsame]
    exact Grown.refl _
  · intro k
    rw [hadded]
    split
    · rename_i hk
      rw [timeout, hk]
      exact Grown.append (.outgoing dials rfl)
    · exact Grown.refl _

theorem grown_handlePacketFromTun {sliced : SlicedPacket} {bytes : List UInt8}
    {sends : EndpointId → Nat → SendResult}
    (h : manager.handlePacketFromTun sliced bytes sends = some (next, outs)) :
    AllGrown m₀ op manager next := by
  unfold handlePacketFromTun at h
  split at h
  · refine Run.run_induction (C := fun _ _ _ => True) (P := fun _ mid _ => AllGrown m₀ op manager mid)
      (AllGrown.refl manager) ?_ (fun _ _ _ _ _ _ _ _ _ _ => trivial) h
    intro _ id mid _ after now _ hmid _ hstep
    unfold tunnelTo at hstep
    split at hstep
    · rename_i found
      obtain ⟨rfl, -⟩ := Prod.mk.inj (Option.some.inj hstep)
      exact hmid.trans (AllGrown.setEndpoint found (grown_tunnel bytes (sends id)))
    · cases hstep
  · exact (Prod.mk.inj (Option.some.inj h)).1 ▸ AllGrown.refl manager

/-- Each attempt of the loop is judged against the state before the loop, where the link was dead. -/
theorem grown_ensureEndpointConnections {id : EndpointId} {connectionInfos : List ConnectionInfo}
    {dials : Nat → Dial}
    (h : manager.ensureEndpointConnections id connectionInfos dials = some (next, outs)) :
    AllGrown manager (.ensureEndpointConnections id connectionInfos dials) manager next := by
  unfold ensureEndpointConnections at h
  split at h
  · rename_i e found
    refine (Run.run_induction
      (C := fun _ _ attempt => Dials manager (.ensureEndpointConnections id connectionInfos dials)
        attempt.1 attempt.2)
      (P := fun _ mid _ => Continues manager mid ∧ AllGrown manager
        (.ensureEndpointConnections id connectionInfos dials) manager mid)
      ⟨Continues.refl manager, AllGrown.refl manager⟩ ?_ (Run.eachStep_of_forall ?_) h).2
    · intro _ attempt mid _ after now _ hmid hdials hstep
      exact ⟨hmid.1.trans (continues_tryLink hstep),
        hmid.2.trans (grown_tryLink hmid.1.connectionTimeout hdials hstep)⟩
    · intro attempt hattempt _
      obtain ⟨⟨info, index⟩, hlisted, rfl⟩ := List.mem_map.mp hattempt
      obtain ⟨hlisted, hdead⟩ := List.mem_filter.mp hlisted
      exact .ensure found hlisted (of_decide_eq_true hdead)
  · exact (Prod.mk.inj (Option.some.inj h)).1 ▸ AllGrown.refl manager

/-- A command sets a flag that no change looks at. -/
theorem grown_handleSelectiveDuplicationCommand
    (duplicationCommand : Option DuplicationCommands) :
    AllGrown m₀ op manager (manager.handleSelectiveDuplicationCommand duplicationCommand) := by
  unfold handleSelectiveDuplicationCommand
  split
  · refine AllGrown.mapVals fun k e => ?_
    split <;> exact Grown.map fun entry => by
      split
      · exact changes_of_timer rfl rfl rfl Or.inl rfl
      · exact .refl op k entry
  · exact AllGrown.refl manager

/-- What an operation does to the connections. -/
theorem grown_of_apply (h : ManagerOp.apply manager op = some (next, outs)) :
    AllGrown manager op manager next := by
  cases op with
  | handleHello =>
      obtain ⟨rfl, -⟩ := Prod.mk.inj (Option.some.inj h)
      exact grown_handleHello
  | handleEstablishedMessage => exact grown_handleEstablishedMessage h
  | createNewConnection info dial => exact grown_tryLink rfl (.create info dial) h
  | handlePacketFromTun => exact grown_handlePacketFromTun h
  | removeConnection =>
      obtain ⟨rfl, -⟩ := Prod.mk.inj (Option.some.inj h)
      exact fun k => Grown.of_subset (removeConnection_sublist _ _ _ k).subset
  | removeDisconnected =>
      obtain ⟨rfl, -⟩ := Prod.mk.inj (Option.some.inj h)
      exact fun k => Grown.of_subset (removeDisconnected_sublist k).subset
  | greetAllEndpoints sends =>
      obtain ⟨rfl, -⟩ := Prod.mk.inj (Option.some.inj h)
      exact AllGrown.mapVals fun k e => grown_greet _ _ _
  | ensureEndpointConnections => exact grown_ensureEndpointConnections h
  | handleSelectiveDuplicationCommand =>
      obtain ⟨rfl, -⟩ := Prod.mk.inj (Option.some.inj h)
      exact grown_handleSelectiveDuplicationCommand _
  | handlePacketSorterDeadline id now =>
      obtain ⟨rfl, -⟩ := Prod.mk.inj (Option.some.inj h)
      unfold handlePacketSorterDeadline
      split
      · rename_i found
        exact AllGrown.setEndpoint found (Grown.refl _)
      · exact AllGrown.refl manager
  | awaitTimeout id index now =>
      obtain ⟨-, e, entry, found, hentry, rfl⟩ := apply_awaitTimeout h
      refine AllGrown.setEndpoint found (Grown.set hentry ⟨rfl, rfl, rfl, Or.inl, ?_⟩)
      exact Or.inr (Or.inr ⟨rfl, id, index, now, rfl⟩)
  | awaitPacketSorters =>
      obtain ⟨-, e, found, rfl⟩ := apply_awaitPacketSorters h
      exact AllGrown.setEndpoint found (Grown.refl _)
  | awaitEndpointSortedPackets =>
      obtain ⟨e, sorter, packet, found, -, -, rfl⟩ := apply_awaitEndpointSortedPackets h
      exact AllGrown.setEndpoint found (Grown.refl _)

end Manager

end MultiConnect
