/-
Module: MultiConnect.Proofs.Keepalive
Layer: Proofs
Purpose: The keepalive tick of the client. It greets, which can break connections, then opens the
  configured links that have no connection, and then removes what is broken. A broken connection still
  counts as one when the links are opened, so a link whose only connections are broken is not opened
  again and is without any after the tick. Apart from that the tick does what it is for.
Trusted boundary: none
Main exports: Interface.key, ConnectionEntry.brokenAfter, LinksSurvive, Reopened, tryLink_of_opens,
  run_tryLink_of_opens, keepalive_reopens_iff
-/
import MultiConnect.Proofs.CleanUp

namespace MultiConnect

open ConnectionManager

/-! ### Attempts that succeed -/

section Attempts

/-- An attempt from an IPv4 address that gets as far as a greeted connection adds it, live, to its
    endpoint. -/
theorem tryLink_of_opens (manager : ConnectionManager) {attempt : ConnectionInfo × Dial} {ip : Ipv4Addr}
    {port : UInt16} (address : attempt.1.localAddress = .v4 ip port) (opens : attempt.2.Opens) :
    ∃ next outs added, manager.tryLink attempt = some (next, outs) ∧
      added.key = attemptKey attempt ∧ added.isDisconnected = false ∧
      next.connectionsOf attempt.1.destinationEndpointId =
        manager.connectionsOf attempt.1.destinationEndpointId ++ [added] := by
  obtain ⟨⟨localAddr, reaches⟩, sent, hsend⟩ := opens
  have hsocket : makeSocket attempt.2 = some (.ok ()) := by
    rw [makeSocket, reaches.device, reaches.bind]
  have hsome : (manager.tryLink attempt).isSome = true := by
    simp [tryLink, openLink, createNewConnection, address, hsocket, reaches.connect, hsend]
  obtain ⟨⟨next, outs⟩, hstep⟩ := Option.isSome_iff_exists.mp hsome
  obtain ⟨result, hopen⟩ := tryLink_eq_some hstep
  rcases openLink_cases hopen with
    ⟨unreached, -⟩ | ⟨localAddr', -, ⟨error, hfails, -⟩ | ⟨-, entry, -, hentry, rfl, -⟩⟩
  · exact absurd reaches (unreached localAddr)
  · rw [hsend] at hfails
    cases hfails
  · refine ⟨_, outs, entry, hstep, by rw [hentry]; rfl, by rw [hentry]; rfl, ?_⟩
    have hensured := connections_ensureDestination manager attempt.1.destinationEndpointId attempt.2
    rw [connectionsOf_ensureDestination, if_pos rfl]
    exact congrArg (· ++ _) hensured

/-- Attempts that all succeed add a live connection each. -/
theorem run_tryLink_of_opens {id : EndpointId} (attempts : List (ConnectionInfo × Dial))
    (succeed : ∀ attempt ∈ attempts, (∃ ip port, attempt.1.localAddress = .v4 ip port) ∧
      attempt.2.Opens ∧ attempt.1.destinationEndpointId = id) :
    ∀ manager : ConnectionManager, ∃ next outs added, Run.run tryLink manager attempts = some (next, outs) ∧
      added.map ConnectionEntry.key = attempts.map attemptKey ∧
      (∀ entry ∈ added, entry.isDisconnected = false) ∧
      next.connectionsOf id = manager.connectionsOf id ++ added := by
  induction attempts with
  | nil => exact fun manager => ⟨manager, [], [], rfl, rfl, List.forall_mem_nil _, (List.append_nil _).symm⟩
  | cons attempt rest ih =>
      intro manager
      obtain ⟨⟨ip, port, address⟩, opens, rfl⟩ := succeed attempt List.mem_cons_self
      obtain ⟨mid, first, entry, hstep, hkey, hlive, hmid⟩ := tryLink_of_opens manager address opens
      obtain ⟨next, outs, added, hrun, hkeys, hlives, hnext⟩ :=
        ih (fun other hother => succeed other (List.mem_cons_of_mem _ hother)) mid
      refine ⟨next, first ++ outs, entry :: added,
        Run.run_cons_eq_some.mpr ⟨mid, first, outs, hstep, hrun, rfl⟩, ?_, ?_, ?_⟩
      · rw [List.map_cons, List.map_cons, hkey, hkeys]
      · exact List.forall_mem_cons.mpr ⟨hlive, hlives⟩
      · rw [hnext, hmid, List.append_assoc, List.singleton_append]

end Attempts

/-! ### What a greeting leaves -/

/-- The connection is broken when the tick is over with greeting. -/
def ConnectionEntry.brokenAfter (sent : SendResult) (entry : ConnectionEntry) : Bool :=
  entry.isDisconnected || sent == .error .networkUnreachable

/-- What a greeting makes of one connection. -/
def ConnectionEntry.greeted (sent : SendResult) (entry : ConnectionEntry) : ConnectionEntry :=
  if entry.isLive then
    entry.setState (Endpoint.settleHello (Connection.write sent) entry.connection.state)
  else entry

theorem connections_greet (e : Endpoint) (ownId : EndpointId) (ownStaticRoutes : Option (List Route))
    (sends : Nat → SendResult) :
    (e.greet ownId ownStaticRoutes sends).1.connections =
      e.connections.zipIdx.map fun place => place.1.greeted (sends place.2) := by
  rw [Endpoint.greet, broadcast, List.mapIdx_eq_zipIdx_map]
  rfl

@[simp] theorem key_greeted (sent : SendResult) (entry : ConnectionEntry) :
    (entry.greeted sent).key = entry.key := by
  unfold ConnectionEntry.greeted
  split <;> rfl

@[simp] theorem isDisconnected_greeted (sent : SendResult) (entry : ConnectionEntry) :
    (entry.greeted sent).isDisconnected = entry.brokenAfter sent := by
  unfold ConnectionEntry.greeted ConnectionEntry.brokenAfter
  split
  · rename_i hlive
    rw [not_disconnected_of_isLive hlive, Bool.false_or]
    have hstate : entry.connection.state ≠ .disconnected := fun h => by
      simp [ConnectionEntry.isLive, h] at hlive
    cases sent with
    | ok sent => simp [ConnectionEntry.setState, ConnectionEntry.isDisconnected, Connection.write,
        Endpoint.settleHello, hstate]
    | error kind => cases kind <;> simp [ConnectionEntry.setState, ConnectionEntry.isDisconnected,
        Connection.write, Endpoint.settleHello, hstate]
  · rename_i hlive
    have hbroken : entry.isDisconnected = true := by
      cases hstate : entry.connection.state <;>
        simp_all [ConnectionEntry.isLive, ConnectionEntry.isDisconnected]
    rw [hbroken, Bool.true_or]

/-! ### The tick -/

/-- What the connection of a link of the configuration is stored under. -/
def Interface.key (interface : Interface) : String × SocketAddr :=
  (interface.interfaceName, interface.serverAddress)

/-- Every configured link that has a connection has one that is not broken by the greeting, and among
    the connections of one link those that are broken then come first. -/
structure LinksSurvive (settings : ClientSettings) (e : Endpoint) (sends : Nat → SendResult) :
    Prop where
  survives : ∀ interface ∈ settings.interfaces, interface.key ∈ e.getAliveConnections →
    ∃ place ∈ e.connections.zipIdx, place.1.key = interface.key ∧
      place.1.brokenAfter (sends place.2) = false
  brokenFirst : MarkedFirst (fun place => place.1.key)
    (fun place => place.1.brokenAfter (sends place.2)) e.connections.zipIdx

/-- What a keepalive tick is for: after the links were opened every configured link has a connection
    that is not broken, those that were not broken before are still there, and the clean-up at the end
    keeps them all, and the endpoint. -/
structure Reopened (settings : ClientSettings) (greeted ensured : ConnectionManager) : Prop where
  configured : ∀ interface ∈ settings.interfaces, ∃ entry ∈ ensured.connectionsOf settings.serverId,
    entry.key = interface.key ∧ entry.isDisconnected = false
  kept : ((greeted.connectionsOf settings.serverId).filter fun entry => !entry.isDisconnected).Sublist
    (ensured.connectionsOf settings.serverId)
  survive : ((ensured.connectionsOf settings.serverId).filter fun entry => !entry.isDisconnected).Sublist
    (ensured.removeDisconnected.connectionsOf settings.serverId)
  present : ensured.removeDisconnected.endpoints.contains settings.serverId = true

section Tick

variable {settings : ClientSettings} {manager greeted ensured : ConnectionManager} {e : Endpoint}
  {added : List ConnectionEntry}

/-- The clean-up keeps what is not broken exactly when the broken connections come first. -/
theorem survive_iff (k : EndpointId) :
    ((manager.connectionsOf k).filter fun entry => !entry.isDisconnected).Sublist
        (manager.removeDisconnected.connectionsOf k) ↔
      MarkedFirst ConnectionEntry.key ConnectionEntry.isDisconnected (manager.connectionsOf k) := by
  rw [← filter_sublist_eraseKeys_iff, ← disconnected_of, ← connectionsOf_foldl_removeConnection]
  rfl

/-- The tick reaches its aim exactly when the links survive the greeting, given what the attempts
    added. -/
theorem reopened_iff {sends : Nat → SendResult} (linked : settings.interfaces ≠ [])
    (hgreeted : greeted.connectionsOf settings.serverId =
      e.connections.zipIdx.map fun place => place.1.greeted (sends place.2))
    (hensured : ensured.connectionsOf settings.serverId =
      greeted.connectionsOf settings.serverId ++ added)
    (live : ∀ entry ∈ added, entry.isDisconnected = false)
    (keys : ∀ interface ∈ settings.interfaces,
      interface.key ∈ added.map ConnectionEntry.key ↔ interface.key ∉ e.getAliveConnections) :
    Reopened settings greeted ensured ↔ LinksSurvive settings e sends := by
  have hfirst : MarkedFirst ConnectionEntry.key ConnectionEntry.isDisconnected
      (ensured.connectionsOf settings.serverId) ↔
      MarkedFirst (fun place => place.1.key) (fun place => place.1.brokenAfter (sends place.2))
        e.connections.zipIdx := by
    rw [hensured, markedFirst_append live, hgreeted, MarkedFirst, List.pairwise_map]
    simp only [key_greeted, isDisconnected_greeted]
    rfl
  constructor
  · intro h
    refine ⟨fun interface hinterface halive => ?_, hfirst.mp ((survive_iff _).mp h.survive)⟩
    obtain ⟨entry, hentry, hkey, hlive⟩ := h.configured interface hinterface
    rw [hensured, hgreeted] at hentry
    rcases List.mem_append.mp hentry with hold | hnew
    · obtain ⟨place, hplace, rfl⟩ := List.mem_map.mp hold
      exact ⟨place, hplace, by simpa using hkey, by simpa using hlive⟩
    · exact absurd halive ((keys interface hinterface).mp (hkey ▸ List.mem_map_of_mem hnew))
  · intro h
    have hconfigured : ∀ interface ∈ settings.interfaces,
        ∃ entry ∈ ensured.connectionsOf settings.serverId,
          entry.key = interface.key ∧ entry.isDisconnected = false := by
      intro interface hinterface
      rw [hensured, hgreeted]
      by_cases halive : interface.key ∈ e.getAliveConnections
      · obtain ⟨place, hplace, hkey, hlive⟩ := h.survives interface hinterface halive
        exact ⟨_, List.mem_append_left _ (List.mem_map_of_mem hplace), by simpa using hkey,
          by simpa using hlive⟩
      · obtain ⟨entry, hentry, hkey⟩ := List.mem_map.mp ((keys interface hinterface).mpr halive)
        exact ⟨entry, List.mem_append_right _ hentry, hkey, live entry hentry⟩
    have hsurvive := (survive_iff _).mpr (hfirst.mpr h.brokenFirst)
    refine ⟨hconfigured, ?_, hsurvive, ?_⟩
    · rw [hensured]
      exact List.filter_sublist.trans (List.sublist_append_left _ _)
    · -- some link is configured, and its connection is still there
      obtain ⟨interface, hinterface⟩ := List.exists_mem_of_ne_nil _ linked
      obtain ⟨entry, hentry, -, hlive⟩ := hconfigured interface hinterface
      have hleft := hsurvive.subset (List.mem_filter.mpr ⟨hentry, by simp [hlive]⟩)
      cases hfound : ensured.removeDisconnected.endpoints.get? settings.serverId with
      | none =>
          rw [connectionsOf_of_none hfound] at hleft
          cases hleft
      | some left => exact OrdMap.contains_iff.mpr ⟨left, hfound⟩

end Tick

/-! ### What the client's loop reaches -/

section Reached

variable {localAddress : SocketAddr} {ownId : EndpointId} {ownStaticRoutes : Option (List Route)}
  {connectionTimeout packetSorterDeadline : UInt64} {settings : ClientSettings}
  {firstDials : Nat → Dial} {start manager : ConnectionManager} {firstOuts outs : List Output}

/-- A socket can be made for IPv4 addresses only. -/
theorem address_of_tryLink {next : ConnectionManager} {attempt : ConnectionInfo × Dial}
    (h : manager.tryLink attempt = some (next, outs)) :
    ∃ ip port, attempt.1.localAddress = .v4 ip port := by
  obtain ⟨result, hopen⟩ := tryLink_eq_some h
  unfold openLink createNewConnection at hopen
  split at hopen
  · cases hopen
  · rename_i ip port haddress
    exact ⟨ip, port, haddress⟩

/-- The first connections were made, so every configured link has an IPv4 address to bind. -/
theorem address_of_clientStart (begins : clientStart settings firstDials manager = some (start, firstOuts)) :
    ∀ info ∈ settings.connectionInfo, ∃ ip port, info.localAddress = .v4 ip port := by
  have hrun := (clientStart_eq_some begins).1
  have hall : ∀ attempt ∈ settings.connectionInfo.zipIdx.map fun link =>
      ManagerOp.createNewConnection link.1 (firstDials link.2),
      ∀ info dial, attempt = .createNewConnection info dial →
        ∃ ip port, info.localAddress = .v4 ip port := by
    refine Run.run_induction (C := fun _ _ _ => True)
      (P := fun past _ _ => ∀ op ∈ past, ∀ info dial, op = ManagerOp.createNewConnection info dial →
        ∃ ip port, info.localAddress = .v4 ip port)
      (List.forall_mem_nil _) ?_ (fun _ _ _ _ _ _ _ _ _ _ => trivial) hrun
    intro past op mid before next now _ hpast _ hstep
    refine List.forall_mem_append.mpr ⟨hpast, List.forall_mem_singleton.mpr ?_⟩
    rintro info dial rfl
    have htry : mid.tryLink (info, dial) = some (next, now) := hstep
    exact address_of_tryLink htry
  intro info hinfo
  obtain ⟨index, hindex⟩ := List.mem_iff_getElem?.mp hinfo
  have hlisted : (info, index) ∈ settings.connectionInfo.zipIdx :=
    List.mem_zipIdx_iff_getElem?.mpr hindex
  exact hall _ (List.mem_map_of_mem hlisted) info (firstDials index) rfl

/-- Without a configured link the client never has an endpoint. -/
theorem linked_of_reached (begins : clientStart settings firstDials (ConnectionManager.new localAddress
      ownId ownStaticRoutes connectionTimeout packetSorterDeadline) = some (start, firstOuts))
    {events : List ClientEvent}
    (reached : Run.run (clientStep settings) start events = some (manager, outs))
    {k : EndpointId} {e : Endpoint} (present : manager.endpoints.get? k = some e) :
    settings.interfaces ≠ [] := by
  intro hnone
  have hlinks : settings.connectionInfo = [] := by rw [ClientSettings.connectionInfo, hnone]; rfl
  have hempty : manager.hasEndpoints = false := by
    refine Run.run_invariant (P := fun mid => mid.hasEndpoints = false) ?_ ?_ reached
    · intro mid event next now hmid hstep
      obtain ⟨ops, hops, hrun⟩ := clientStep_eq_some.mp hstep
      cases event with
      | loop event => simp [clientOps, hmid] at hops
      | sendKeepalive sends dials => simp [clientOps, hmid] at hops
      | restart dials =>
          obtain rfl : [] = ops := by simpa [clientOps, hmid, hlinks] using hops
          obtain ⟨rfl, -⟩ := Prod.mk.inj (Option.some.inj hrun)
          exact hmid
    · rw [clientStart, hlinks] at begins
      obtain ⟨rfl, -⟩ := Prod.mk.inj (Option.some.inj begins)
      rfl
  rw [hasEndpoints_eq_false.mp hempty k] at present
  cases present

/-- With attempts that all succeed the links without a connection are opened. -/
theorem ensure_of_opens {dials : Nat → Dial} {e : Endpoint}
    (addresses : ∀ info ∈ settings.connectionInfo, ∃ ip port, info.localAddress = .v4 ip port)
    (present : manager.endpoints.get? settings.serverId = some e)
    (succeed : ∀ info dial, Dials manager (.ensureEndpointConnections settings.serverId
      settings.connectionInfo dials) info dial → dial.Opens) :
    ∃ ensured outs added, manager.ensureEndpointConnections settings.serverId settings.connectionInfo
        dials = some (ensured, outs) ∧
      ensured.connectionsOf settings.serverId = manager.connectionsOf settings.serverId ++ added ∧
      (∀ entry ∈ added, entry.isDisconnected = false) ∧
      ∀ interface ∈ settings.interfaces,
        interface.key ∈ added.map ConnectionEntry.key ↔ interface.key ∉ e.getAliveConnections := by
  have hdead : ∀ info index, (info, index) ∈ (settings.connectionInfo.zipIdx.filter fun link =>
      (link.1.interfaceName, link.1.destinationAddress) ∉ e.getAliveConnections) ↔
      (info, index) ∈ settings.connectionInfo.zipIdx ∧
        (info.interfaceName, info.destinationAddress) ∉ e.getAliveConnections := fun info index => by
    rw [List.mem_filter, decide_eq_true_iff]
  have hattempts : ∀ attempt ∈ (settings.connectionInfo.zipIdx.filter fun link =>
      (link.1.interfaceName, link.1.destinationAddress) ∉ e.getAliveConnections).map fun link =>
        (link.1, dials link.2), (∃ ip port, attempt.1.localAddress = .v4 ip port) ∧
      attempt.2.Opens ∧ attempt.1.destinationEndpointId = settings.serverId := by
    intro attempt hattempt
    obtain ⟨⟨info, index⟩, hlink, rfl⟩ := List.mem_map.mp hattempt
    obtain ⟨hlisted, hdown⟩ := (hdead info index).mp hlink
    exact ⟨addresses info (List.fst_mem_of_mem_zipIdx hlisted),
      succeed info _ (Dials.ensure present hlisted hdown), destination_of_listed hlisted⟩
  obtain ⟨ensured, outs, added, hrun, hkeys, hlive, hadded⟩ :=
    run_tryLink_of_opens _ hattempts manager
  refine ⟨ensured, outs, added, ?_, hadded, hlive, fun interface hinterface => ?_⟩
  · rw [ensureEndpointConnections, present]
    exact hrun
  · rw [hkeys, List.map_map]
    constructor
    · intro hmem
      obtain ⟨⟨info, index⟩, hlink, hkey⟩ := List.mem_map.mp hmem
      exact hkey ▸ ((hdead info index).mp hlink).2
    · intro hdown
      obtain ⟨index, hindex⟩ := List.mem_iff_getElem?.mp
        (List.mem_map_of_mem (f := fun interface : Interface => (⟨interface.interfaceName,
          interface.bindAddress, interface.serverAddress, settings.serverId⟩ : ConnectionInfo))
          hinterface)
      exact List.mem_map.mpr ⟨(_, index),
        (hdead _ index).mpr ⟨List.mem_zipIdx_iff_getElem?.mpr hindex, hdown⟩, rfl⟩

end Reached

/-- A keepalive tick whose attempts all succeed leaves every configured link with a connection, and keeps
    what was live, exactly when each link that has a connection has one that survives the greeting, and
    those that do not come first among the connections of their link. -/
theorem keepalive_reopens_iff (localAddress : SocketAddr) (ownId : EndpointId)
    (ownStaticRoutes : Option (List Route)) (connectionTimeout packetSorterDeadline : UInt64)
    (settings : ClientSettings) (firstDials : Nat → Dial) (start : ConnectionManager)
    (firstOuts : List Output)
    (begins : clientStart settings firstDials (ConnectionManager.new localAddress ownId
      ownStaticRoutes connectionTimeout packetSorterDeadline) = some (start, firstOuts))
    (events : List ClientEvent) (manager : ConnectionManager) (outs : List Output)
    (reached : Run.run (clientStep settings) start events = some (manager, outs))
    (e : Endpoint) (present : manager.endpoints.get? settings.serverId = some e)
    (sends : EndpointId → Nat → SendResult) (dials : Nat → Dial)
    (succeed : ∀ info dial, Dials (manager.greetAllEndpoints sends).1
      (.ensureEndpointConnections settings.serverId settings.connectionInfo dials) info dial →
        dial.Opens) :
    (∃ ensured opened, (manager.greetAllEndpoints sends).1.ensureEndpointConnections settings.serverId
        settings.connectionInfo dials = some (ensured, opened) ∧
      Reopened settings (manager.greetAllEndpoints sends).1 ensured) ↔
      LinksSurvive settings e (sends settings.serverId) := by
  have hgreeted : (manager.greetAllEndpoints sends).1.endpoints.get? settings.serverId =
      some (e.greet manager.ownId manager.ownStaticRoutes (sends settings.serverId)).1 := by
    rw [greetAllEndpoints, OrdMap.get?_mapVals, present]
    rfl
  have hconnections := (connectionsOf_of_get? hgreeted).trans (connections_greet ..)
  obtain ⟨ensured, opened, added, hensure, hadded, hlive, hkeys⟩ :=
    ensure_of_opens (address_of_clientStart begins) hgreeted succeed
  rw [getAliveConnections_of_touched (Endpoint.touched_greet ..)] at hkeys
  have hiff := reopened_iff (linked_of_reached begins reached present) hconnections hadded hlive hkeys
  rw [← hiff]
  constructor
  · rintro ⟨other, more, hother, h⟩
    obtain ⟨rfl, -⟩ := Prod.mk.inj (Option.some.inj (hensure.symm.trans hother))
    exact h
  · exact fun h => ⟨ensured, opened, hensure, h⟩

/-- A client with one link, and what the outside answers when it is opened. -/
private def oneLink : ClientSettings :=
  ⟨[⟨"eth0", .v4 2130706434 0, .v4 2130706433 40000⟩], 1⟩

private def openedLink : Nat → Dial :=
  fun _ => ⟨.bound, .ok (), .ok (.v4 2130706434 5000), 7, .ok 1, 0⟩

private theorem openedLink_opens {manager : ConnectionManager} {info : ConnectionInfo} {dial : Dial}
    (attempts : Dials manager (.ensureEndpointConnections oneLink.serverId oneLink.connectionInfo
      openedLink) info dial) : dial.Opens := by
  cases attempts
  exact ⟨⟨_, rfl, rfl, rfl⟩, 1, rfl⟩

theorem keepalive_reopens_one_link :
    ∃ start firstOuts e, clientStart oneLink openedLink
        (ConnectionManager.new (.v4 2130706434 0) 154 none 10000 100) = some (start, firstOuts) ∧
      start.endpoints.get? 1 = some e ∧
      ((∃ ensured opened, (start.greetAllEndpoints fun _ _ => .ok 1).1.ensureEndpointConnections 1
          oneLink.connectionInfo openedLink = some (ensured, opened) ∧
        Reopened oneLink (start.greetAllEndpoints fun _ _ => .ok 1).1 ensured) ↔
        LinksSurvive oneLink e fun _ => .ok 1) :=
  ⟨_, _, _, rfl, rfl, keepalive_reopens_iff _ _ _ _ _ oneLink openedLink _ _ rfl [] _ _ rfl _ rfl
    (fun _ _ => .ok 1) openedLink fun _ _ => openedLink_opens⟩

/-- The greeting on the only link finds the network unreachable. The tick does not open the link again,
    though it could be opened, and the server's endpoint is gone after it. -/
theorem keepalive_leaves_link_dead :
    ¬ ∀ (settings : ClientSettings) (firstDials : Nat → Dial) (start manager : ConnectionManager)
        (firstOuts outs : List Output) (events : List ClientEvent) (e : Endpoint)
        (sends : EndpointId → Nat → SendResult) (dials : Nat → Dial),
      clientStart settings firstDials (ConnectionManager.new (.v4 2130706434 0) 154 none 10000 100) =
        some (start, firstOuts) →
      Run.run (clientStep settings) start events = some (manager, outs) →
      manager.endpoints.get? settings.serverId = some e →
      (∀ info dial, Dials (manager.greetAllEndpoints sends).1 (.ensureEndpointConnections
        settings.serverId settings.connectionInfo dials) info dial → dial.Opens) →
      ∃ ensured opened, (manager.greetAllEndpoints sends).1.ensureEndpointConnections settings.serverId
          settings.connectionInfo dials = some (ensured, opened) ∧
        Reopened settings (manager.greetAllEndpoints sends).1 ensured := by
  intro h
  obtain ⟨ensured, opened, hensure, hreopened⟩ := h oneLink openedLink _ _ _ _ [] _
    (fun _ _ => .error .networkUnreachable) openedLink rfl rfl rfl fun _ _ => openedLink_opens
  obtain ⟨rfl, -⟩ := Prod.mk.inj (Option.some.inj hensure)
  exact absurd hreopened.present (by decide)

end MultiConnect
