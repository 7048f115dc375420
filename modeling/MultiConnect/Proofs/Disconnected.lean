/-
Module: MultiConnect.Proofs.Disconnected
Layer: Proofs
Purpose: What becomes of a connection that is found to be broken. No operation brings it back and no
  operation writes on it, except that a packet from the TUN device is written on every enabled
  connection; so everything rests on the broken connections being gone when the next event is handled.
  They are, unless a server without endpoints takes in a hello that it cannot acknowledge, where the
  clean-up does not run, or two connections share the key by which the clean-up finds them.
Trusted boundary: none
Main exports: Continued, WritesLive, StaysDown, keepsDown_of_apply, NoneDisconnected,
  noneDisconnected_removeDisconnected, DisconnectedIsFinal, disconnected_is_final_iff
-/
import MultiConnect.Library.EraseKeys
import MultiConnect.Proofs.ConnectionKeys

namespace MultiConnect

open ConnectionManager

/-- The connection was found to be broken. -/
def ConnectionEntry.isDisconnected (entry : ConnectionEntry) : Bool :=
  entry.connection.state == .disconnected

/-! ### Connections that go on -/

/-- The same connection at a later moment: once Disconnected it stays so. -/
structure ConnectionEntry.Later (entry entry' : ConnectionEntry) : Prop where
  key : entry'.key = entry.key
  socket : entry'.connection.socket = entry.connection.socket
  final : entry.isDisconnected = true → entry'.isDisconnected = true

/-- Every connection is still in its place; others may have joined behind. -/
def Continued (before after : List ConnectionEntry) : Prop :=
  ∀ (index : Nat) (entry : ConnectionEntry), before[index]? = some entry →
    ∃ entry', after[index]? = some entry' ∧ entry.Later entry'

namespace Continued

variable {before mid after : List ConnectionEntry}

theorem refl (before : List ConnectionEntry) : Continued before before :=
  fun _ entry h => ⟨entry, h, rfl, rfl, id⟩

theorem trans (h : Continued before mid) (h' : Continued mid after) : Continued before after := by
  intro index entry hentry
  obtain ⟨between, hbetween, later⟩ := h index entry hentry
  obtain ⟨entry', hentry', later'⟩ := h' index between hbetween
  exact ⟨entry', hentry', later'.key.trans later.key, later'.socket.trans later.socket,
    later'.final ∘ later.final⟩

theorem append (before joined : List ConnectionEntry) : Continued before (before ++ joined) := by
  intro index entry hentry
  refine ⟨entry, ?_, rfl, rfl, id⟩
  rw [List.getElem?_append_left (List.getElem?_eq_some_iff.mp hentry).1]
  exact hentry

theorem map {f : ConnectionEntry → ConnectionEntry}
    (later : ∀ entry : ConnectionEntry, entry.Later (f entry)) :
    Continued before (before.map f) := by
  intro index entry hentry
  exact ⟨f entry, by rw [List.getElem?_map, hentry]; rfl, later entry⟩

theorem set {index : Nat} {entry changed : ConnectionEntry} (hentry : before[index]? = some entry)
    (later : entry.Later changed) : Continued before (before.set index changed) := by
  intro i other hother
  rw [List.getElem?_set]
  split
  · rename_i hi
    subst hi
    obtain rfl := Option.some.inj (hentry.symm.trans hother)
    exact ⟨changed, if_pos (List.getElem?_eq_some_iff.mp hentry).1, later⟩
  · exact ⟨other, hother, rfl, rfl, id⟩

theorem updateFirst {p : ConnectionEntry → Bool} {f : ConnectionEntry → ConnectionEntry}
    (later : ∀ entry : ConnectionEntry, entry.Later (f entry)) :
    ∀ {before after : List ConnectionEntry}, MultiConnect.updateFirst p f before = some after →
      Continued before after
  | first :: rest, after, h => by
      unfold MultiConnect.updateFirst at h
      split at h
      · obtain rfl := Option.some.inj h
        exact Continued.set (show (first :: rest)[0]? = some first from rfl) (later first)
      · obtain ⟨rest', hrest, rfl⟩ := Option.map_eq_some_iff.mp h
        intro index entry hentry
        cases index with
        | zero =>
            obtain rfl : first = entry := by simpa using hentry
            exact ⟨first, rfl, rfl, rfl, id⟩
        | succ index => exact Continued.updateFirst later hrest index entry (by simpa using hentry)

/-- Writing on all eligible connections breaks some of them and mends none. -/
theorem broadcast {eligible : ConnectionEntry → Bool}
    {settle : SendResult → ConnectionState → ConnectionState} (sends : Nat → SendResult)
    (final : ∀ entry, eligible entry = true → entry.isDisconnected = true →
      ∀ sent, settle sent .disconnected = .disconnected) :
    Continued before (MultiConnect.broadcast eligible settle sends before) := by
  intro index entry hentry
  rw [MultiConnect.broadcast, List.getElem?_mapIdx, hentry]
  refine ⟨_, rfl, ?_⟩
  dsimp only
  split
  · rename_i heligible
    refine ⟨rfl, rfl, fun hdown => ?_⟩
    have hstate : entry.connection.state = .disconnected := beq_iff_eq.mp hdown
    simp [ConnectionEntry.isDisconnected, ConnectionEntry.setState, hstate,
      final entry heligible hdown]
  · exact ⟨rfl, rfl, id⟩

end Continued

/-- The two kinds of messages that are written on live connections only. -/
theorem not_disconnected_of_isLive {entry : ConnectionEntry} (live : entry.isLive = true) :
    entry.isDisconnected = false := by
  unfold ConnectionEntry.isLive at live
  unfold ConnectionEntry.isDisconnected
  cases hstate : entry.connection.state with
  | disconnected => simp [hstate] at live
  | startup | connected => rfl

/-- No message was written on a connection that was broken at that moment. -/
def WritesLive (outs : List Output) : Prop :=
  ∀ write, .write write ∈ outs → write.entry.isDisconnected = false

theorem writesLive_nil : WritesLive [] := fun _ h => absurd h List.not_mem_nil

theorem WritesLive.append {outs more : List Output} (h : WritesLive outs) (h' : WritesLive more) :
    WritesLive (outs ++ more) :=
  fun write hmem => (List.mem_append.mp hmem).elim (h write) (h' write)

theorem writesLive_writes {endpoint : Endpoint} {eligible : ConnectionEntry → Bool}
    {message : Messages} (live : ∀ entry ∈ endpoint.connections, eligible entry = true →
      entry.isDisconnected = false) : WritesLive ((endpoint.writes eligible message).map .write) := by
  intro write hwrite
  obtain ⟨write', hmem, heq⟩ := List.mem_map.mp hwrite
  obtain rfl := Output.write.inj heq
  obtain ⟨entry, hentry, heligible, rfl⟩ := Endpoint.mem_writes.mp hmem
  exact live entry hentry heligible

/-! ### The operations on one endpoint -/

section Endpoint

variable (endpoint : Endpoint) (ownId : EndpointId) (ownStaticRoutes : Option (List Route))
  (sends : Nat → SendResult)

theorem continued_acknowledge (sessionId : Uuid) :
    Continued endpoint.connections
      (endpoint.acknowledge ownId sessionId ownStaticRoutes sends).1.connections :=
  Continued.broadcast sends fun _ live down =>
    absurd down (by simp [not_disconnected_of_isLive live])

theorem writesLive_acknowledge (sessionId : Uuid) :
    WritesLive ((endpoint.acknowledge ownId sessionId ownStaticRoutes sends).2.map .write) :=
  writesLive_writes fun _ _ live => not_disconnected_of_isLive live

theorem continued_greet :
    Continued endpoint.connections (endpoint.greet ownId ownStaticRoutes sends).1.connections :=
  Continued.broadcast sends fun _ live down =>
    absurd down (by simp [not_disconnected_of_isLive live])

theorem writesLive_greet :
    WritesLive ((endpoint.greet ownId ownStaticRoutes sends).2.map .write) :=
  writesLive_writes fun _ _ live => not_disconnected_of_isLive live

theorem continued_tunnel (bytes : List UInt8) :
    Continued endpoint.connections (endpoint.tunnel bytes sends).1.connections :=
  Continued.broadcast sends fun _ _ _ sent => by
    unfold Endpoint.settlePacket
    split <;> rfl

theorem later_resetHelloTimeout (entry : ConnectionEntry) (now : Instant) :
    entry.Later (entry.resetHelloTimeout now) :=
  ⟨rfl, rfl, id⟩

variable {endpoint}

theorem continued_addConnection {added : Endpoint} {sourceAddress localAddress : SocketAddr}
    {interfaceName : String} {connectionTimeout : UInt64} {openSocket : OpenSocket} {now : Instant}
    (h : endpoint.addConnection sourceAddress interfaceName localAddress connectionTimeout openSocket
      now = .ok added) : Continued endpoint.connections added.connections := by
  unfold Endpoint.addConnection at h
  split at h
  · rename_i connections hknown
    obtain rfl := Except.ok.inj h
    exact Continued.updateFirst (fun entry => later_resetHelloTimeout entry now) hknown
  · split at h
    · cases h
    · obtain rfl := Except.ok.inj h
      exact Continued.append _ _

/-- A hello acknowledgement connects a connection that starts up, and no other. -/
theorem later_acknowledged (readInfo : ReadInfo) (now : Instant) (entry : ConnectionEntry) :
    entry.Later (acknowledged readInfo now entry) := by
  unfold acknowledged
  split
  · cases hstate : entry.connection.state with
    | startup =>
        refine ⟨rfl, rfl, fun hdown => ?_⟩
        simp [ConnectionEntry.isDisconnected, hstate] at hdown
    | connected => exact ⟨by simp [hstate, ConnectionEntry.key, ConnectionEntry.resetHelloTimeout],
        by simp [hstate, ConnectionEntry.resetHelloTimeout, Connection.resetHelloTimeout],
        fun hdown => by simp [ConnectionEntry.isDisconnected, hstate] at hdown⟩
    | disconnected => exact ⟨by simp [hstate], by simp [hstate], fun hdown => by simp [hstate, hdown]⟩
  · exact ⟨rfl, rfl, id⟩

theorem continued_addAndAcknowledge (manager : ConnectionManager) (endpoint : Endpoint)
    (sourceAddress : SocketAddr) (interfaceName : String) (openSocket : OpenSocket)
    (firstAck lastAck : Nat → SendResult) (now : Instant) :
    let after := manager.addAndAcknowledge endpoint sourceAddress interfaceName openSocket firstAck
      lastAck now
    Continued endpoint.connections after.1.connections ∧ WritesLive (after.2.map .write) := by
  intro after
  cases hadd : endpoint.addConnection sourceAddress interfaceName manager.localAddress
      manager.connectionTimeout openSocket now with
  | ok added =>
      simp only [after, addAndAcknowledge, hadd, List.map_append]
      exact ⟨((continued_addConnection hadd).trans (continued_acknowledge _ _ _ _ _)).trans
        (continued_acknowledge _ _ _ _ _),
        (writesLive_acknowledge _ _ _ _ _).append (writesLive_acknowledge _ _ _ _ _)⟩
  | error error =>
      simp only [after, addAndAcknowledge, hadd]
      exact ⟨continued_acknowledge _ _ _ _ _, writesLive_acknowledge _ _ _ _ _⟩

end Endpoint

/-! ### The operations of the manager -/

/-- No endpoint holds a broken connection. -/
def NoneDisconnected (manager : ConnectionManager) : Prop :=
  ∀ k, ∀ entry ∈ manager.connectionsOf k, entry.isDisconnected = false

/-- The connections of each endpoint go on, or some were removed, or all of them went with the session
    that was overwritten. -/
def StaysDown (manager : ConnectionManager) (op : ManagerOp) (next : ConnectionManager) : Prop :=
  ∀ k, Continued (manager.connectionsOf k) (next.connectionsOf k) ∨
    (op.removes = true ∧ (next.connectionsOf k).Sublist (manager.connectionsOf k)) ∨
    ∃ e', next.endpoints.get? k = some e' ∧
      ∀ e, manager.endpoints.get? k = some e → e'.sessionId ≠ e.sessionId

/-- The connections of every endpoint go on. -/
def AllContinued (manager next : ConnectionManager) : Prop :=
  ∀ k, Continued (manager.connectionsOf k) (next.connectionsOf k)

section Manager

variable {manager mid next : ConnectionManager} {outs : List Output}

theorem AllContinued.refl (manager : ConnectionManager) : AllContinued manager manager :=
  fun k => Continued.refl (manager.connectionsOf k)

theorem AllContinued.trans (h : AllContinued manager mid) (h' : AllContinued mid next) :
    AllContinued manager next :=
  fun k => (h k).trans (h' k)

theorem AllContinued.staysDown (h : AllContinued manager next) (op : ManagerOp) :
    StaysDown manager op next :=
  fun k => Or.inl (h k)

theorem AllContinued.setEndpoint {id : EndpointId} {endpoint changed : Endpoint}
    (found : manager.endpoints.get? id = some endpoint)
    (h : Continued endpoint.connections changed.connections) :
    AllContinued manager (manager.setEndpoint id changed) := by
  intro k
  rw [connectionsOf_setEndpoint]
  split
  · rename_i hk
    rw [hk, connectionsOf_of_get? found]
    exact h
  · exact Continued.refl _

theorem AllContinued.mapVals {f : EndpointId → Endpoint → Endpoint}
    (h : ∀ k e, Continued e.connections (f k e).connections) :
    AllContinued manager { manager with endpoints := manager.endpoints.mapVals f } := by
  intro k
  simp only [connectionsOf, OrdMap.get?_mapVals]
  cases manager.endpoints.get? k with
  | none => exact Continued.refl []
  | some e => exact h k e

/-- An admitted hello. -/
theorem admitHello_continued {hello : Hello} {endpoint : Endpoint}
    (found : manager.endpoints.get? hello.id = some endpoint) (sourceAddress : SocketAddr)
    (interfaceName : String) (openSocket : OpenSocket) (firstAck lastAck : Nat → SendResult)
    (now : Instant) :
    let after := manager.admitHello hello sourceAddress interfaceName openSocket firstAck lastAck now
    WritesLive after.2 ∧ AllContinued manager after.1 := by
  intro after
  obtain ⟨hcontinued, hwrites⟩ := continued_addAndAcknowledge manager endpoint sourceAddress
    interfaceName openSocket firstAck lastAck now
  simp only [after, admitHello, found]
  exact ⟨hwrites, AllContinued.setEndpoint found hcontinued⟩

theorem tryLink_continued {attempt : ConnectionInfo × Dial}
    (h : manager.tryLink attempt = some (next, outs)) :
    WritesLive outs ∧ AllContinued manager next := by
  constructor
  · obtain ⟨result, hopen⟩ := tryLink_eq_some h
    rcases openLink_cases hopen with
      ⟨-, -, rfl, -⟩ | ⟨-, -, ⟨-, -, -, rfl, -⟩ | ⟨-, entry, -, rfl, -, rfl, -⟩⟩
    · exact writesLive_nil
    · exact writesLive_nil
    · intro write hwrite
      obtain rfl := Output.write.inj (List.mem_singleton.mp hwrite)
      rfl
  · rcases tryLink_connections h with hsame | ⟨localAddr, hadded⟩
    · intro k
      rw [hsame]
      exact Continued.refl _
    · intro k
      rw [hadded]
      split
      · exact Continued.append _ _
      · exact Continued.refl _

theorem run_tryLink_continued {attempts : List (ConnectionInfo × Dial)}
    (h : Run.run tryLink manager attempts = some (next, outs)) :
    WritesLive outs ∧ AllContinued manager next := by
  refine Run.run_induction (C := fun _ _ _ => True)
    (P := fun _ mid outs => WritesLive outs ∧ AllContinued manager mid)
    ⟨writesLive_nil, AllContinued.refl manager⟩ ?_ (fun _ _ _ _ _ _ _ _ _ _ => trivial) h
  intro _ _ mid _ _ _ _ ⟨hwrites, hmid⟩ _ hstep
  obtain ⟨hnow, hnext⟩ := tryLink_continued hstep
  exact ⟨hwrites.append hnow, hmid.trans hnext⟩

/-- A packet is written on the connections as they were when it came: its endpoints all differ. -/
theorem handlePacketFromTun_continued {sliced : SlicedPacket} {bytes : List UInt8}
    {sends : EndpointId → Nat → SendResult} (clean : NoneDisconnected manager)
    (h : manager.handlePacketFromTun sliced bytes sends = some (next, outs)) :
    WritesLive outs ∧ AllContinued manager next := by
  unfold handlePacketFromTun at h
  split at h
  case h_2 =>
    obtain ⟨rfl, rfl⟩ := Prod.mk.inj (Option.some.inj h)
    exact ⟨writesLive_nil, AllContinued.refl _⟩
  rename_i ids hroute
  have hnodup : ids.Nodup := by
    unfold getRoute at hroute
    split at hroute
    case h_2 =>
      obtain rfl := Option.some.inj hroute
      exact Router.nodup_lookup _ _
    all_goals cases hroute
  have hrun := Run.run_induction (C := fun past _ id => id ∉ past)
    (P := fun past mid outs => WritesLive outs ∧ AllContinued manager mid ∧
      ∀ k, k ∉ past → mid.connectionsOf k = manager.connectionsOf k)
    ⟨writesLive_nil, AllContinued.refl manager, fun _ _ => rfl⟩ ?_ ?_ h
  · exact ⟨hrun.1, hrun.2.1⟩
  · intro past id mid _ after now _ ⟨hwrites, hmid, huntouched⟩ hnew hstep
    unfold tunnelTo at hstep
    split at hstep
    case h_2 => cases hstep
    rename_i endpoint found
    obtain ⟨rfl, rfl⟩ := Prod.mk.inj (Option.some.inj hstep)
    refine ⟨hwrites.append ?_, hmid.trans ?_, fun k hk => ?_⟩
    · refine writesLive_writes fun entry hentry _ => ?_
      rw [← connectionsOf_of_get? found, huntouched id hnew] at hentry
      exact clean id entry hentry
    · exact AllContinued.setEndpoint found (continued_tunnel _ _ _)
    · rw [connectionsOf_setEndpoint, if_neg (fun heq => hk (by simp [heq]))]
      exact huntouched k fun hmem => hk (List.mem_append_left _ hmem)
  · intro past id future _ _ _ _ heq _ _
    rw [heq] at hnodup
    exact fun hmem => (List.nodup_append'.mp hnodup).2.2 hmem List.mem_cons_self

theorem removeConnection_sublist (id : EndpointId) (interfaceName : String) (address : SocketAddr)
    (k : EndpointId) :
    ((manager.removeConnection id interfaceName address).connectionsOf k).Sublist
      (manager.connectionsOf k) := by
  rw [connectionsOf_removeConnection]
  split
  · rename_i hk
    rw [hk]
    exact List.eraseP_sublist
  · exact List.Sublist.refl _

theorem removeDisconnected_sublist (k : EndpointId) :
    (manager.removeDisconnected.connectionsOf k).Sublist (manager.connectionsOf k) :=
  List.foldlRecOn _ _ (motive := fun mid : ConnectionManager =>
    (mid.connectionsOf k).Sublist (manager.connectionsOf k)) (List.Sublist.refl _)
    fun _ hmid _ _ => (removeConnection_sublist _ _ _ k).trans hmid

theorem handleEstablishedMessage_continued {readInfo : ReadInfo} {openSocket : OpenSocket}
    {ack : Nat → SendResult} {now : Instant}
    (h : manager.handleEstablishedMessage readInfo openSocket ack now = some (next, outs)) :
    WritesLive outs ∧ AllContinued manager next := by
  unfold handleEstablishedMessage at h
  split at h
  · split at h
    · rename_i found
      obtain ⟨rfl, rfl⟩ := Prod.mk.inj (Option.some.inj h)
      exact ⟨writesLive_nil, AllContinued.setEndpoint found (Continued.refl _)⟩
    · obtain ⟨rfl, rfl⟩ := Prod.mk.inj (Option.some.inj h)
      exact ⟨writesLive_nil, AllContinued.refl _⟩
  · split at h
    · rename_i found
      dsimp only at h
      split at h
      · rename_i added hadd
        obtain ⟨rfl, rfl⟩ := Prod.mk.inj (Option.some.inj h)
        exact ⟨writesLive_acknowledge _ _ _ _ _, AllContinued.setEndpoint found
          ((continued_addConnection hadd).trans (continued_acknowledge _ _ _ _ _))⟩
      · cases h
    · obtain ⟨rfl, rfl⟩ := Prod.mk.inj (Option.some.inj h)
      exact ⟨writesLive_nil, AllContinued.refl _⟩
  · split at h
    · rename_i endpoint found
      obtain ⟨rfl, rfl⟩ := Prod.mk.inj (Option.some.inj h)
      exact ⟨writesLive_nil, AllContinued.setEndpoint found
        (Continued.map fun entry => later_acknowledged readInfo now entry)⟩
    · obtain ⟨rfl, rfl⟩ := Prod.mk.inj (Option.some.inj h)
      exact ⟨writesLive_nil, AllContinued.refl _⟩
  · obtain ⟨rfl, rfl⟩ := Prod.mk.inj (Option.some.inj h)
    exact ⟨writesLive_nil, AllContinued.refl _⟩

end Manager

/-- A hello on the listening socket either puts a new session in place, or lets the connections go on. -/
theorem keepsDown_handleHello {manager next : ConnectionManager} {op : ManagerOp} {outs : List Output}
    {hello : Hello} (hop : op.listeningHello = some hello)
    (h : ManagerOp.apply manager op = some (next, outs)) :
    WritesLive outs ∧ StaysDown manager op next := by
  obtain ⟨source, name, openSocket, firstAck, lastAck, now, rfl⟩ := eq_of_listeningHello hop
  rcases manager.handleHello_cases hello source name openSocket firstAck lastAck now with
    ⟨installs, hafter⟩ | ⟨e, found, -, hafter⟩ | ⟨-, -, -, -, hafter⟩ <;>
    obtain ⟨rfl, rfl⟩ := Prod.mk.inj ((Option.some.inj h).symm.trans hafter)
  · have hfresh := get?_installFresh manager hello now
    obtain ⟨hwrites, hcontinued⟩ := admitHello_continued hfresh source name openSocket firstAck
      lastAck now
    refine ⟨hwrites, fun k => ?_⟩
    by_cases hk : k = hello.id
    · obtain ⟨e', found, session⟩ := get?_admitHello source name openSocket firstAck lastAck now
        hfresh
      subst hk
      refine Or.inr (Or.inr ⟨e', found, fun e hold heq => ?_⟩)
      exact (installs e hold).1 (heq.symm.trans session)
    · have hother : (manager.installFresh hello now).connectionsOf k = manager.connectionsOf k := by
        rw [connectionsOf, installFresh, OrdMap.get?_insert_of_ne _ _ hk]
        rfl
      exact Or.inl (hother ▸ hcontinued k)
  · obtain ⟨hwrites, hcontinued⟩ := admitHello_continued found source name openSocket firstAck
      lastAck now
    exact ⟨hwrites, hcontinued.staysDown _⟩
  · exact ⟨writesLive_nil, (AllContinued.refl _).staysDown _⟩

theorem handleSelectiveDuplicationCommand_continued (manager : ConnectionManager)
    (duplicationCommand : Option DuplicationCommands) :
    AllContinued manager (manager.handleSelectiveDuplicationCommand duplicationCommand) := by
  unfold handleSelectiveDuplicationCommand
  split
  · refine AllContinued.mapVals fun k e => ?_
    split <;> exact Continued.map fun entry => by split <;> exact ⟨rfl, rfl, id⟩
  · exact AllContinued.refl _

theorem handlePacketSorterDeadline_continued (manager : ConnectionManager) (id : EndpointId)
    (now : Instant) : AllContinued manager (manager.handlePacketSorterDeadline id now) := by
  unfold handlePacketSorterDeadline
  split
  · rename_i found
    exact AllContinued.setEndpoint found (Continued.refl _)
  · exact AllContinued.refl _

/-- No operation writes on a broken connection or brings one back; a packet from the TUN device needs
    that none is there. -/
theorem keepsDown_of_apply {manager next : ConnectionManager} {op : ManagerOp} {outs : List Output}
    (clean : op.tunnels = true → NoneDisconnected manager)
    (h : ManagerOp.apply manager op = some (next, outs)) :
    WritesLive outs ∧ StaysDown manager op next := by
  have hstays : WritesLive outs ∧ AllContinued manager next →
      WritesLive outs ∧ StaysDown manager op next := fun h => ⟨h.1, h.2.staysDown op⟩
  cases hlistens : op.listeningHello with
  | some hello => exact keepsDown_handleHello hlistens h
  | none =>
      cases op with
      | handleHello =>
          simp only [ManagerOp.apply, handleHello] at h
          split at h
          · cases hlistens
          · obtain ⟨rfl, rfl⟩ := Prod.mk.inj (Option.some.inj h)
            exact hstays ⟨writesLive_nil, AllContinued.refl _⟩
      | handleEstablishedMessage => exact hstays (handleEstablishedMessage_continued h)
      | createNewConnection => exact hstays (tryLink_continued h)
      | handlePacketFromTun => exact hstays (handlePacketFromTun_continued (clean rfl) h)
      | removeConnection =>
          obtain ⟨rfl, rfl⟩ := Prod.mk.inj (Option.some.inj h)
          exact ⟨writesLive_nil, fun k => Or.inr (Or.inl ⟨rfl, removeConnection_sublist _ _ _ k⟩)⟩
      | removeDisconnected =>
          obtain ⟨rfl, rfl⟩ := Prod.mk.inj (Option.some.inj h)
          exact ⟨writesLive_nil, fun k => Or.inr (Or.inl ⟨rfl, removeDisconnected_sublist k⟩)⟩
      | greetAllEndpoints sends =>
          obtain ⟨rfl, rfl⟩ := Prod.mk.inj (Option.some.inj h)
          refine hstays ⟨fun write hwrite => ?_,
            AllContinued.mapVals fun k e => continued_greet _ _ _ _⟩
          obtain ⟨⟨id, e⟩, -, hmem⟩ := List.mem_flatMap.mp hwrite
          exact writesLive_greet e _ _ _ write hmem
      | ensureEndpointConnections =>
          simp only [ManagerOp.apply, ensureEndpointConnections] at h
          split at h
          · exact hstays (run_tryLink_continued h)
          · obtain ⟨rfl, rfl⟩ := Prod.mk.inj (Option.some.inj h)
            exact hstays ⟨writesLive_nil, AllContinued.refl _⟩
      | handleSelectiveDuplicationCommand =>
          obtain ⟨rfl, rfl⟩ := Prod.mk.inj (Option.some.inj h)
          exact hstays ⟨writesLive_nil, handleSelectiveDuplicationCommand_continued _ _⟩
      | handlePacketSorterDeadline =>
          obtain ⟨rfl, rfl⟩ := Prod.mk.inj (Option.some.inj h)
          exact hstays ⟨writesLive_nil, handlePacketSorterDeadline_continued _ _ _⟩
      | awaitTimeout =>
          obtain ⟨rfl, e, entry, found, hentry, rfl⟩ := apply_awaitTimeout h
          exact hstays ⟨writesLive_nil,
            AllContinued.setEndpoint found (Continued.set hentry ⟨rfl, rfl, id⟩)⟩
      | awaitPacketSorters =>
          obtain ⟨rfl, e, found, rfl⟩ := apply_awaitPacketSorters h
          exact hstays ⟨writesLive_nil, AllContinued.setEndpoint found (Continued.refl _)⟩
      | awaitEndpointSortedPackets =>
          obtain ⟨e, sorter, packet, found, -, rfl, rfl⟩ := apply_awaitEndpointSortedPackets h
          exact hstays ⟨by simp [WritesLive], AllContinued.setEndpoint found (Continued.refl _)⟩

/-! ### The clean-up -/

section CleanUp

variable {manager : ConnectionManager}

theorem eraseP_isFor (key : String × SocketAddr) (connections : List ConnectionEntry) :
    connections.eraseP (ConnectionEntry.isFor key.1 key.2) =
      connections.eraseP fun entry => entry.key = key := by
  congr 1
  funext entry
  simp [ConnectionEntry.isFor, ConnectionEntry.key, Prod.ext_iff, beq_eq_decide]

/-- Removing connections one by one erases their keys from their endpoints. -/
theorem connectionsOf_foldl_removeConnection (k : EndpointId)
    (removed : List (EndpointId × String × SocketAddr)) :
    ∀ manager : ConnectionManager, (removed.foldl
        (fun manager removed => manager.removeConnection removed.1 removed.2.1 removed.2.2)
        manager).connectionsOf k =
      eraseKeys ConnectionEntry.key ((removed.filter fun removed => removed.1 = k).map (·.2))
        (manager.connectionsOf k) := by
  induction removed with
  | nil => exact fun _ => rfl
  | cons first rest ih =>
      intro manager
      rw [List.foldl_cons, ih, connectionsOf_removeConnection]
      by_cases hk : first.1 = k
      · rw [if_pos hk.symm, List.filter_cons_of_pos (by simpa using hk), List.map_cons,
          eraseP_isFor, hk]
        rfl
      · rw [if_neg (Ne.symm hk), List.filter_cons_of_neg (by simpa using hk)]

/-- The clean-up lists the keys of the broken connections, endpoint by endpoint. -/
theorem disconnected_of (manager : ConnectionManager) (k : EndpointId) :
    (manager.disconnected.filter fun removed => removed.1 = k).map (·.2) =
      ((manager.connectionsOf k).filter ConnectionEntry.isDisconnected).map ConnectionEntry.key := by
  rw [disconnected, List.filter_flatMap, List.map_flatMap, OrdMap.flatMap_entries (k := k)]
  · rw [connectionsOf]
    cases manager.endpoints.get? k with
    | none => rfl
    | some e =>
        simp only [Option.map_some, Option.getD_some]
        rw [List.filter_eq_self.mpr ?_, List.map_map]
        · rfl
        · intro removed hremoved
          obtain ⟨entry, -, rfl⟩ := List.mem_map.mp hremoved
          exact decide_eq_true rfl
  · intro entry _ hne
    rw [List.map_eq_nil_iff, List.filter_eq_nil_iff]
    rintro removed hremoved heq
    obtain ⟨connection, -, rfl⟩ := List.mem_map.mp hremoved
    exact hne (of_decide_eq_true heq)

/-- The clean-up leaves no broken connection exactly when, under each key of an endpoint, the broken
    connections come first. -/
theorem noneDisconnected_removeDisconnected :
    NoneDisconnected manager.removeDisconnected ↔
      ∀ k, MarkedFirst ConnectionEntry.key ConnectionEntry.isDisconnected (manager.connectionsOf k) := by
  refine forall_congr' fun k => ?_
  rw [← forall_mem_eraseKeys_iff, ← disconnected_of, ← connectionsOf_foldl_removeConnection]
  rfl

/-- The clean-up finds every broken connection. -/
def CleansUp (manager : ConnectionManager) (op : ManagerOp) : Prop :=
  op = .removeDisconnected →
    ∀ k, MarkedFirst ConnectionEntry.key ConnectionEntry.isDisconnected (manager.connectionsOf k)

/-- After operations that end in a clean-up no broken connection is left exactly when the clean-up finds
    all of them. -/
theorem noneDisconnected_iff_cleansUp {next : ConnectionManager} {ops : List ManagerOp}
    {outs : List Output} (other : ∀ op ∈ ops, op ≠ .removeDisconnected)
    (h : Run.run ManagerOp.apply manager (ops ++ [.removeDisconnected]) = some (next, outs)) :
    NoneDisconnected next ↔
      Run.EachStep ManagerOp.apply (fun _ => CleansUp) manager (ops ++ [.removeDisconnected]) := by
  obtain ⟨mid, before, now, hrun, hlast, -⟩ := Run.run_concat_eq_some.mp h
  obtain ⟨rfl, rfl⟩ := Prod.mk.inj (Option.some.inj hlast)
  rw [noneDisconnected_removeDisconnected]
  constructor
  · intro hmarked
    refine (Run.eachStep_of_forall fun op hop _ heq => absurd heq (other op hop)).append
      fun mid' _ hrun' => Run.eachStep_singleton fun _ => ?_
    obtain ⟨rfl, -⟩ := Prod.mk.inj (Option.some.inj (hrun.symm.trans hrun'))
    exact hmarked
  · exact fun h => h ops _ [] mid before _ _ rfl hrun hlast rfl

end CleanUp

/-! ### The iterations -/

section Iterations

variable {manager next : ConnectionManager} {ops : List ManagerOp} {outs : List Output}

/-- The operations of an event: a packet from the TUN device comes first, and the clean-up follows them
    all. -/
structure BeforeCleanUp (ops : List ManagerOp) : Prop where
  tunnels : ∀ op ∈ ops.tail, op.tunnels = false
  other : ∀ op ∈ ops, op ≠ .removeDisconnected

theorem BeforeCleanUp.tunnels_concat (h : BeforeCleanUp ops) :
    ∀ op ∈ (ops ++ [ManagerOp.removeDisconnected]).tail, op.tunnels = false := by
  intro op hop
  cases ops with
  | nil => cases hop
  | cons first rest =>
      rcases List.mem_append.mp hop with hrest | hlast
      · exact h.tunnels op hrest
      · obtain rfl := List.mem_singleton.mp hlast
        rfl

theorem beforeCleanUp_of_loopEvent {event : LoopEvent} (hops : event.ops manager = some ops) :
    BeforeCleanUp ops := by
  cases event with
  | newEstablishedMessage | connectionTimeout | packetSorter =>
      obtain ⟨awaited, -, rfl⟩ := Option.map_eq_some_iff.mp hops
      constructor <;> simp [ManagerOp.tunnels]
  | newSortedPacket id tunSent =>
      cases tunSent with
      | error => cases hops
      | ok =>
          obtain rfl := Option.some.inj hops
          constructor <;> simp
  | establishedError | tunnelPacket | tunnelError | duplicationMessage =>
      obtain rfl := Option.some.inj hops
      constructor <;> simp

/-- An iteration of the server ends in the clean-up, or takes in the first connection. -/
theorem serverOps_cases {event : ServerEvent} (hops : serverOps manager event = some ops) :
    (manager.hasEndpoints = true ∧ ∃ before, BeforeCleanUp before ∧
      ops = before ++ [.removeDisconnected]) ∨
    (manager.hasEndpoints = false ∧
      ∃ (message : Option Messages) (sourceAddress : SocketAddr) (openSocket : OpenSocket)
        (firstAck lastAck : Nat → SendResult) (now : Instant),
        event = .newConnection message sourceAddress openSocket firstAck lastAck now ∧
        ops = [.handleHello message sourceAddress serverInterfaceName openSocket firstAck lastAck
          now]) := by
  cases hhas : manager.hasEndpoints with
  | true =>
      refine Or.inl ⟨rfl, ?_⟩
      cases event with
      | newConnection message source openSocket firstAck lastAck now =>
          refine ⟨[.handleHello message source serverInterfaceName openSocket firstAck lastAck now],
            ⟨by simp, by simp⟩, ?_⟩
          simpa [serverOps, hhas] using hops.symm
      | loop event =>
          simp only [serverOps, hhas, if_pos] at hops
          obtain ⟨before, hbefore, rfl⟩ := Option.map_eq_some_iff.mp hops
          exact ⟨before, beforeCleanUp_of_loopEvent hbefore, rfl⟩
      | flushInterfaceLog =>
          refine ⟨[], ⟨by simp, by simp⟩, ?_⟩
          simpa [serverOps, hhas] using hops.symm
  | false =>
      refine Or.inr ⟨rfl, ?_⟩
      cases event with
      | newConnection message source openSocket firstAck lastAck now =>
          refine ⟨message, source, openSocket, firstAck, lastAck, now, rfl, ?_⟩
          simpa [serverOps, hhas] using hops.symm
      | loop | flushInterfaceLog => simp [serverOps, hhas] at hops

/-- An iteration of the client ends in the clean-up, or opens every link again. -/
theorem clientOps_cases {settings : ClientSettings} {event : ClientEvent}
    (hops : clientOps settings manager event = some ops) :
    (∃ before, BeforeCleanUp before ∧ ops = before ++ [.removeDisconnected]) ∨
    (manager.hasEndpoints = false ∧ ∃ dials : Nat → Dial,
      ops = settings.connectionInfo.zipIdx.map fun attempt =>
        .createNewConnection attempt.1 (dials attempt.2)) := by
  cases event with
  | loop event =>
      simp only [clientOps] at hops
      split at hops
      · obtain ⟨before, hbefore, rfl⟩ := Option.map_eq_some_iff.mp hops
        exact Or.inl ⟨before, beforeCleanUp_of_loopEvent hbefore, rfl⟩
      · cases hops
  | sendKeepalive sends dials =>
      simp only [clientOps] at hops
      split at hops
      · obtain rfl := Option.some.inj hops
        exact Or.inl ⟨[.greetAllEndpoints sends, .ensureEndpointConnections settings.serverId
          settings.connectionInfo dials], ⟨by simp [ManagerOp.tunnels], by simp⟩, rfl⟩
      · cases hops
  | restart dials =>
      simp only [clientOps] at hops
      split at hops
      · cases hops
      · rename_i hnone
        exact Or.inr ⟨by simpa using hnone, dials, (Option.some.inj hops).symm⟩

/-- No operation of an iteration writes on a broken connection or brings one back. -/
def KeepsDown (manager : ConnectionManager) (op : ManagerOp) : Prop :=
  ∀ next outs, ManagerOp.apply manager op = some (next, outs) →
    WritesLive outs ∧ StaysDown manager op next

/-- In an iteration that begins without broken connections: the packet from the TUN device comes
    first. -/
theorem keepsDown_of_noneDisconnected (clean : NoneDisconnected manager)
    (tunnels : ∀ op ∈ ops.tail, op.tunnels = false) :
    Run.EachStep ManagerOp.apply (fun _ => KeepsDown) manager ops := by
  rintro past op future mid before next now rfl hrun -
  intro next outs happly
  refine keepsDown_of_apply (fun htunnels => ?_) happly
  cases past with
  | nil =>
      obtain ⟨rfl, -⟩ := Prod.mk.inj (Option.some.inj hrun)
      exact clean
  | cons first past => exact absurd htunnels (by simp [tunnels op (by simp)])

/-- New links are not broken. -/
theorem noneDisconnected_restart {connectionInfos : List (ConnectionInfo × Nat)} {dials : Nat → Dial}
    (clean : NoneDisconnected manager)
    (h : Run.run ManagerOp.apply manager (connectionInfos.map fun attempt =>
      .createNewConnection attempt.1 (dials attempt.2)) = some (next, outs)) :
    NoneDisconnected next := by
  rw [Run.run_map] at h
  refine Run.run_invariant (P := NoneDisconnected) ?_ clean h
  intro mid attempt after _ hmid hstep k entry hentry
  rcases tryLink_connections hstep with hsame | ⟨localAddr, hadded⟩
  · exact hmid k entry (hsame k ▸ hentry)
  · rw [hadded] at hentry
    split at hentry
    · rcases List.mem_append.mp hentry with hold | hnew
      · exact hmid k entry hold
      · obtain rfl := List.mem_singleton.mp hnew
        rfl
    · exact hmid k entry hentry

end Iterations

/-! ### The first connection of a server -/

/-- When a server without endpoints opens a connection for a hello, it can acknowledge it, both
    times. -/
def AcknowledgesFirst (manager : ConnectionManager) : ServerEvent → Prop
  | .newConnection (some (.hello _)) sourceAddress openSocket firstAck lastAck _ =>
      manager.hasEndpoints = false →
        ∀ localAddr, openSocket manager.localAddress sourceAddress = .ok localAddr →
          (∃ sent, Connection.write (firstAck 0) = .ok sent) ∧
            ∃ sent, Connection.write (lastAck 0) = .ok sent
  | _ => True

/-- With endpoints no event opens a first connection. -/
theorem acknowledgesFirst_of_hasEndpoints {manager : ConnectionManager} {event : ServerEvent}
    (running : manager.hasEndpoints = true) : AcknowledgesFirst manager event := by
  cases event with
  | loop | flushInterfaceLog => trivial
  | newConnection message =>
      cases message with
      | none => trivial
      | some message =>
          cases message with
          | packet | helloAck => trivial
          | hello => exact fun hnone => absurd running (by simp [hnone])

/-- The only connection of a fresh endpoint is broken when one of the two acknowledgements on it
    fails. -/
theorem disconnected_addAndAcknowledge (manager : ConnectionManager) (id : EndpointId)
    (sessionId : Uuid) (sourceAddress : SocketAddr) (interfaceName : String) (openSocket : OpenSocket)
    (firstAck lastAck : Nat → SendResult) (now : Instant) :
    (∀ entry ∈ (manager.addAndAcknowledge
        (Endpoint.new id sessionId manager.packetSorterDeadline now) sourceAddress interfaceName
        openSocket firstAck lastAck now).1.connections, entry.isDisconnected = false) ↔
      ∀ localAddr, openSocket manager.localAddress sourceAddress = .ok localAddr →
        (∃ sent, Connection.write (firstAck 0) = .ok sent) ∧
          ∃ sent, Connection.write (lastAck 0) = .ok sent := by
  cases hopen : openSocket manager.localAddress sourceAddress with
  | error e =>
      have hadd : (Endpoint.new id sessionId manager.packetSorterDeadline now).addConnection
          sourceAddress interfaceName manager.localAddress manager.connectionTimeout openSocket now =
          .error e := Endpoint.addConnection_eq_error.mpr ⟨List.forall_mem_nil _, hopen⟩
      rw [addAndAcknowledge, hadd]
      simp [Endpoint.acknowledge, Endpoint.new, broadcast]
  | ok localAddr =>
      have hadd : (Endpoint.new id sessionId manager.packetSorterDeadline now).addConnection
          sourceAddress interfaceName manager.localAddress manager.connectionTimeout openSocket now =
          .ok { Endpoint.new id sessionId manager.packetSorterDeadline now with
            connections := [Endpoint.incomingEntry sourceAddress interfaceName localAddr
              manager.connectionTimeout now] } := by
        simp [Endpoint.addConnection, Endpoint.new, updateFirst, hopen]
      rw [addAndAcknowledge, hadd]
      cases hfirst : Connection.write (firstAck 0) <;> cases hlast : Connection.write (lastAck 0) <;>
        simp [Endpoint.acknowledge, broadcast, ConnectionEntry.isLive, ConnectionEntry.setState,
          ConnectionEntry.isDisconnected, Endpoint.settleAck, Endpoint.incomingEntry, Connection.new,
          hfirst, hlast]

/-- A hello to a manager without endpoints leaves the connections of its own endpoint, fresh and
    acknowledged. -/
theorem connectionsOf_firstHello (manager : ConnectionManager)
    (absent : ∀ k, manager.endpoints.get? k = none) (hello : Hello) (sourceAddress : SocketAddr)
    (interfaceName : String) (openSocket : OpenSocket) (firstAck lastAck : Nat → SendResult)
    (now : Instant) (k : EndpointId) :
    (manager.handleHello (some (.hello hello)) sourceAddress interfaceName openSocket firstAck lastAck
      now).1.connectionsOf k =
      if k = hello.id then (manager.addAndAcknowledge (Endpoint.new hello.id hello.sessionId
        manager.packetSorterDeadline now) sourceAddress interfaceName openSocket firstAck lastAck
        now).1.connections
      else [] := by
  obtain ⟨-, hafter⟩ | ⟨e, found, -⟩ | ⟨e, found, -⟩ := manager.handleHello_cases hello sourceAddress
    interfaceName openSocket firstAck lastAck now
  case inr.inl | inr.inr => simp [absent] at found
  simp only [hafter, admitHello, get?_installFresh]
  rw [connectionsOf, OrdMap.get?_insert]
  split
  · rfl
  · rename_i hk
    rw [installFresh, OrdMap.get?_insert_of_ne _ _ hk, absent]
    rfl

/-- Without endpoints there is no clean-up: the state after a hello is the one it leaves. -/
theorem noneDisconnected_firstHello (manager : ConnectionManager)
    (absent : ∀ k, manager.endpoints.get? k = none) (message : Option Messages)
    (sourceAddress : SocketAddr) (openSocket : OpenSocket) (firstAck lastAck : Nat → SendResult)
    (now : Instant) :
    NoneDisconnected (manager.handleHello message sourceAddress serverInterfaceName openSocket
        firstAck lastAck now).1 ↔
      AcknowledgesFirst manager
        (.newConnection message sourceAddress openSocket firstAck lastAck now) := by
  have hclean : NoneDisconnected manager := fun k entry hentry => by
    rw [connectionsOf_of_none (absent k)] at hentry
    cases hentry
  cases message with
  | none => exact iff_of_true hclean trivial
  | some message =>
      cases message with
      | packet | helloAck => exact iff_of_true hclean trivial
      | hello hello =>
          rw [AcknowledgesFirst, ← disconnected_addAndAcknowledge manager hello.id hello.sessionId
            sourceAddress serverInterfaceName]
          constructor
          · intro h _ entry hentry
            refine h hello.id entry ?_
            rw [connectionsOf_firstHello manager absent, if_pos rfl]
            exact hentry
          · intro h k entry hentry
            rw [connectionsOf_firstHello manager absent] at hentry
            split at hentry
            · exact h (hasEndpoints_eq_false.mpr absent) entry hentry
            · cases hentry

/-! ### The loops -/

/-- Broken connections are gone whenever the loop waits for its next event, and in handling any event no
    operation writes on one or brings one back. -/
structure DisconnectedIsFinal {ε : Type}
    (ops : ConnectionManager → ε → Option (List ManagerOp)) (manager : ConnectionManager) : Prop where
  gone : NoneDisconnected manager
  final : ∀ event list, ops manager event = some list →
    Run.EachStep ManagerOp.apply (fun _ => KeepsDown) manager list

theorem disconnectedIsFinal_server {manager : ConnectionManager} :
    DisconnectedIsFinal serverOps manager ↔ NoneDisconnected manager := by
  refine ⟨fun h => h.gone, fun clean => ⟨clean, fun event list hops => ?_⟩⟩
  refine keepsDown_of_noneDisconnected clean ?_
  rcases serverOps_cases hops with ⟨-, before, hbefore, rfl⟩ | ⟨-, _, _, _, _, _, _, -, rfl⟩
  · exact hbefore.tunnels_concat
  · simp

theorem disconnectedIsFinal_client {settings : ClientSettings} {manager : ConnectionManager} :
    DisconnectedIsFinal (clientOps settings) manager ↔ NoneDisconnected manager := by
  refine ⟨fun h => h.gone, fun clean => ⟨clean, fun event list hops => ?_⟩⟩
  refine keepsDown_of_noneDisconnected clean ?_
  rcases clientOps_cases hops with ⟨before, hbefore, rfl⟩ | ⟨-, dials, rfl⟩
  · exact hbefore.tunnels_concat
  · intro op hop
    obtain ⟨attempt, -, rfl⟩ := List.mem_map.mp (List.mem_of_mem_tail hop)
    rfl

/-- All connections of the server's endpoints have keys of their own, so the clean-up finds every
    broken one; what is left is the first hello, which is not followed by a clean-up. -/
theorem noneDisconnected_serverStep {manager next : ConnectionManager} {event : ServerEvent}
    {outs : List Output} (keyed : Keyed manager) (identified : ServerIdentified manager)
    (h : serverStep manager event = some (next, outs)) :
    NoneDisconnected next ↔ AcknowledgesFirst manager event := by
  obtain ⟨ops, hops, hrun⟩ := serverStep_eq_some.mp h
  have hserver := onServer_of_serverOps hops
  rcases serverOps_cases hops with ⟨hhas, before, -, rfl⟩ |
    ⟨hnone, message, source, openSocket, firstAck, lastAck, now, rfl, rfl⟩
  · obtain ⟨mid, first, last, hbefore, hlast, -⟩ := Run.run_concat_eq_some.mp hrun
    obtain ⟨rfl, rfl⟩ := Prod.mk.inj (Option.some.inj hlast)
    have hmid := serverIdentified_run keyed identified hserver.of_append hbefore
    exact iff_of_true (noneDisconnected_removeDisconnected.mpr fun k =>
      markedFirst_of_nodup _ (hmid k).distinct) (acknowledgesFirst_of_hasEndpoints hhas)
  · rw [Run.run_singleton] at hrun
    obtain rfl : _ = next := congrArg Prod.fst (Option.some.inj hrun)
    exact noneDisconnected_firstHello manager (hasEndpoints_eq_false.mp hnone) _ _ _ _ _ _

/-- The operations that an event of the client leads to clean up. -/
def ClientCleansUp (settings : ClientSettings) (manager : ConnectionManager) (event : ClientEvent) :
    Prop :=
  ∀ ops, clientOps settings manager event = some ops →
    Run.EachStep ManagerOp.apply (fun _ => CleansUp) manager ops

theorem noneDisconnected_clientStep {settings : ClientSettings} {manager next : ConnectionManager}
    {event : ClientEvent} {outs : List Output} (clean : NoneDisconnected manager)
    (h : clientStep settings manager event = some (next, outs)) :
    NoneDisconnected next ↔ ClientCleansUp settings manager event := by
  obtain ⟨ops, hops, hrun⟩ := clientStep_eq_some.mp h
  have hcleans : ClientCleansUp settings manager event ↔
      Run.EachStep ManagerOp.apply (fun _ => CleansUp) manager ops := by
    refine ⟨fun h => h ops hops, fun h ops' hops' => ?_⟩
    obtain rfl := Option.some.inj (hops.symm.trans hops')
    exact h
  rw [hcleans]
  rcases clientOps_cases hops with ⟨before, hbefore, rfl⟩ | ⟨-, dials, rfl⟩
  · exact noneDisconnected_iff_cleansUp hbefore.other hrun
  · refine iff_of_true (noneDisconnected_restart clean hrun)
      (Run.eachStep_of_forall fun op hop mid heq => ?_)
    obtain ⟨attempt, -, rfl⟩ := List.mem_map.mp hop
    cases heq

/-- When the configured links have keys of their own, so have the connections, and the clean-up finds
    every broken one. -/
theorem clientCleansUp_of_distinct {settings : ClientSettings} {manager : ConnectionManager}
    {event : ClientEvent} (distinct : settings.Distinct) (keyed : Keyed manager)
    (identified : ClientIdentified settings manager) : ClientCleansUp settings manager event := by
  intro ops hops
  rcases onClient_of_clientOps hops with client | ⟨-, dials, rfl⟩
  · rintro past op future mid before _ _ rfl hrun - - k
    exact markedFirst_of_nodup _
      ((clientIdentified_run distinct keyed identified client.of_append hrun).identified k).distinct
  · refine Run.eachStep_of_forall fun op hop mid heq => ?_
    obtain ⟨attempt, -, rfl⟩ := List.mem_map.mp hop
    cases heq

section Reached

variable (localAddress : SocketAddr) (ownId : EndpointId) (ownStaticRoutes : Option (List Route))
  (connectionTimeout packetSorterDeadline : UInt64)

theorem noneDisconnected_new : NoneDisconnected (ConnectionManager.new localAddress ownId
    ownStaticRoutes connectionTimeout packetSorterDeadline) := by
  intro k entry hentry
  cases hentry

/-- On the server, Disconnected is final in every state that a run visits exactly as long as each first
    connection that it opens can be acknowledged. On the client, it is exactly as long as each clean-up
    finds every broken connection, which it does when no two links of the configuration share an
    interface name and a server address. -/
theorem disconnected_is_final_iff :
    (∀ events : List ServerEvent,
      Run.Throughout serverStep (DisconnectedIsFinal serverOps) (ConnectionManager.new localAddress
          ownId ownStaticRoutes connectionTimeout packetSorterDeadline) events ↔
        Run.EachStep serverStep (fun _ => AcknowledgesFirst) (ConnectionManager.new localAddress ownId
          ownStaticRoutes connectionTimeout packetSorterDeadline) events) ∧
    ∀ settings dials start first,
      clientStart settings dials (ConnectionManager.new localAddress ownId ownStaticRoutes
        connectionTimeout packetSorterDeadline) = some (start, first) →
      ∀ events : List ClientEvent,
        (Run.Throughout (clientStep settings) (DisconnectedIsFinal (clientOps settings)) start events ↔
          Run.EachStep (clientStep settings) (fun _ => ClientCleansUp settings) start events) ∧
        (settings.Distinct → Run.Throughout (clientStep settings)
          (DisconnectedIsFinal (clientOps settings)) start events) := by
  refine ⟨fun events => ?_, fun settings dials start first begins events => ?_⟩
  · refine Run.throughout_iff_eachStep (E := fun _ => True)
      (I := fun manager => Keyed manager ∧ ServerIdentified manager) ?_ ?_ (fun _ _ => trivial)
      ⟨keyed_new _ _ _ _ _, fun _ => Identified.nil _⟩
      (disconnectedIsFinal_server.mpr (noneDisconnected_new _ _ _ _ _))
    · intro mid event next now ⟨keyed, identified⟩ _ hstep
      exact ⟨keyed_serverStep keyed hstep, serverIdentified_serverStep keyed identified hstep⟩
    · intro mid event next now ⟨keyed, identified⟩ _ _ hstep
      rw [disconnectedIsFinal_server]
      exact noneDisconnected_serverStep keyed identified hstep
  · have hstart : NoneDisconnected start :=
      noneDisconnected_restart (noneDisconnected_new _ _ _ _ _) (clientStart_eq_some begins).1
    have hiff : Run.Throughout (clientStep settings) (DisconnectedIsFinal (clientOps settings)) start
        events ↔ Run.EachStep (clientStep settings) (fun _ => ClientCleansUp settings) start events := by
      refine Run.throughout_iff_eachStep (E := fun _ => True) (I := fun _ => True)
        (fun _ _ _ _ _ _ _ => trivial) ?_ (fun _ _ => trivial) trivial
        (disconnectedIsFinal_client.mpr hstart)
      intro mid event next now _ _ clean hstep
      rw [disconnectedIsFinal_client]
      exact noneDisconnected_clientStep clean.gone hstep
    refine ⟨hiff, fun distinct => hiff.mpr ?_⟩
    intro past event future mid before _ _ _ hrun _
    obtain ⟨keyed, identified⟩ := clientIdentified_reached distinct begins hrun
    exact clientCleansUp_of_distinct distinct keyed identified

end Reached

/-- A server without endpoints cannot acknowledge its first hello. The connection is broken, it is still
    there when the next packet comes from the TUN device, and the packet is written on it. -/
theorem broken_connection_carries_packet :
    (¬ ∀ events : List ServerEvent, Run.Throughout serverStep (DisconnectedIsFinal serverOps)
      (ConnectionManager.new (.v4 2130706433 40000) 1 none 10000 100) events) ∧
    ∃ manager outs,
      Run.run serverStep (ConnectionManager.new (.v4 2130706433 40000) 1 none 10000 100)
        [.newConnection (some (.hello ⟨154, 1, some [⟨167772160, 4278190080⟩], 0⟩))
            (.v4 2130706434 123) (fun _ _ => .ok (.v4 2130706433 40000))
            (fun _ => .error .connectionRefused) (fun _ => .ok 1) 0,
          .loop (.tunnelPacket (.ipv4 167772161) [1, 2, 3] fun _ _ => .ok 3)] =
        some (manager, outs) ∧
      ∃ write, .write write ∈ outs ∧ write.entry.isDisconnected = true ∧
        write.message = .packet ⟨0, 154, [1, 2, 3]⟩ := by
  constructor
  · intro h
    have hgone := (h [.newConnection (some (.hello ⟨154, 1, none, 0⟩)) (.v4 2130706434 123)
      (fun _ _ => .ok (.v4 2130706433 40000)) (fun _ => .error .connectionRefused) (fun _ => .ok 1) 0]
      _ [] _ _ (List.append_nil _).symm rfl).gone 154
    exact absurd hgone (by decide)
  · exact ⟨_, _, rfl, _, List.mem_cons_of_mem _ List.mem_cons_self, rfl, rfl⟩

end MultiConnect
