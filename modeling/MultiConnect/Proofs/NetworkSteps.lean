/-
Module: MultiConnect.Proofs.NetworkSteps
Layer: Proofs
Purpose: What one step of a network can be (`networkMove_of_step`): a program starts, or an iteration of
  its loop performs a list of operations. The operations of a loop are handed nothing but what came in
  through the network and what the sockets of the client are bound to (`offers_of_serverOps`,
  `offers_of_clientOps`).
Trusted boundary: none
Main exports: NetworkMove, networkMove_of_step, Owned, offers_of_serverOps, offers_of_clientOps
-/
import MultiConnect.Network
import MultiConnect.Proofs.CounterAgreement
import MultiConnect.Proofs.Provenance

namespace MultiConnect

open ConnectionManager

/-! ### The steps -/

/-- The sockets that are opened for the links of a client are bound to addresses that lead to it. -/
def Owned (deployment : Deployment) (id : EndpointId) (config : ClientConfig) (dials : Nat → Dial) :
    Prop :=
  ∀ index < config.interfaces.length, ∀ localAddr, (dials index).connect = .ok localAddr →
    deployment.owner localAddr = id

/-- What the network lets a client's loop come upon. -/
structure ClientMeets (deployment : Deployment) (network : Network) (id : EndpointId)
    (config : ClientConfig) (client : ConnectionManager) (event : ClientEvent) : Prop where
  delivers : ∀ loopEvent, event = .loop loopEvent →
    MultiConnect.delivers network.net .toClient client loopEvent = true
  keepalive : ∀ sends dials, event = .sendKeepalive sends dials → Owned deployment id config dials
  restart : ∀ dials, event = .restart dials → Owned deployment id config dials

/-- What the network lets the server's loop come upon. -/
structure ServerMeets (network : Network) (event : ServerEvent) : Prop where
  delivers : ∀ loopEvent, event = .loop loopEvent →
    MultiConnect.delivers network.net .toServer network.server loopEvent = true
  listens : ∀ message sourceAddress openSocket firstAck lastAck now,
    event = .newConnection (some message) sourceAddress openSocket firstAck lastAck now →
    ∃ d ∈ network.net, d.direction = .toServer ∧ d.clientAddr = sourceAddress ∧ d.message = message

/-- The steps of a network. -/
inductive NetworkMove (deployment : Deployment) (network : Network) :
    NetworkEvent → Network → List Traffic → Prop
  | startClient {id : EndpointId} {dials : Nat → Dial} {config : ClientConfig}
      {client : ConnectionManager} {outs : List Output}
      (configured : deployment.clients.get? id = some config) (owned : Owned deployment id config dials)
      (starts : clientMain config dials = some (client, outs)) :
      NetworkMove deployment network (.startClient id dials) (network.setClient id client outs) []
  | client {id : EndpointId} {event : ClientEvent} {config : ClientConfig}
      {client next : ConnectionManager} {outs : List Output}
      (configured : deployment.clients.get? id = some config)
      (running : network.clients.get? id = some client)
      (meets : ClientMeets deployment network id config client event)
      (steps : clientStep config.toClientSettings client event = some (next, outs)) :
      NetworkMove deployment network (.client id event) (network.setClient id next outs)
        (event.routed id client ++ delivered (.client id) outs)
  | startServer {server : ConnectionManager} (starts : serverMain deployment.server = some server) :
      NetworkMove deployment network .startServer (network.setServer server []) []
  | server {event : ServerEvent} {next : ConnectionManager} {outs : List Output}
      (meets : ServerMeets network event)
      (steps : serverStep network.server event = some (next, outs)) :
      NetworkMove deployment network (.server event) (network.setServer next outs)
        (event.routed network.server ++ delivered .server outs)

theorem owned_of_owns {deployment : Deployment} {id : EndpointId} {config : ClientConfig}
    {dials : Nat → Dial}
    (h : Network.owns deployment id dials config.interfaces.length = true) :
    Owned deployment id config dials := by
  intro index hindex localAddr hconnect
  have := List.all_eq_true.mp h index (List.mem_range.mpr hindex)
  simpa [hconnect] using this

theorem clientMeets_of_allows {deployment : Deployment} {network : Network} {id : EndpointId}
    {config : ClientConfig} {client : ConnectionManager} {event : ClientEvent}
    (configured : deployment.clients.get? id = some config)
    (running : network.clients.get? id = some client)
    (allowed : network.allows deployment (.client id event) = true) :
    ClientMeets deployment network id config client event := by
  simp only [Network.allows, configured, running] at allowed
  constructor
  · rintro loopEvent rfl
    exact allowed
  · rintro sends dials rfl
    exact owned_of_owns allowed
  · rintro dials rfl
    exact owned_of_owns allowed

theorem serverMeets_of_allows {deployment : Deployment} {network : Network} {event : ServerEvent}
    (allowed : network.allows deployment (.server event) = true) : ServerMeets network event := by
  constructor
  · rintro loopEvent rfl
    exact allowed
  · rintro message sourceAddress openSocket firstAck lastAck now rfl
    obtain ⟨d, hd, hsame⟩ := List.any_eq_true.mp allowed
    simp only [Bool.and_eq_true, beq_iff_eq] at hsame
    exact ⟨d, hd, hsame.1.1, hsame.1.2, hsame.2⟩

/-- Every step of a network is one of its moves. -/
theorem networkMove_of_step {deployment : Deployment} {network next : Network} {event : NetworkEvent}
    {traffic : List Traffic}
    (h : networkStep deployment network event = some (next, traffic)) :
    NetworkMove deployment network event next traffic := by
  unfold networkStep at h
  split at h
  · rename_i allowed
    cases event with
    | startClient id dials =>
        dsimp only at h
        split at h
        · rename_i config configured
          obtain ⟨⟨client, outs⟩, hmain, heq⟩ := Option.map_eq_some_iff.mp h
          obtain ⟨rfl, rfl⟩ := Prod.mk.inj heq
          simp only [Network.allows, configured] at allowed
          exact .startClient configured (owned_of_owns allowed) hmain
        · cases h
    | client id event =>
        dsimp only at h
        split at h
        · rename_i config client configured running
          obtain ⟨⟨after, outs⟩, hstep, heq⟩ := Option.map_eq_some_iff.mp h
          obtain ⟨rfl, rfl⟩ := Prod.mk.inj heq
          exact .client configured running (clientMeets_of_allows configured running allowed) hstep
        · cases h
    | startServer =>
        obtain ⟨server, hmain, heq⟩ := Option.map_eq_some_iff.mp h
        obtain ⟨rfl, rfl⟩ := Prod.mk.inj heq
        exact .startServer hmain
    | server event =>
        obtain ⟨⟨after, outs⟩, hstep, heq⟩ := Option.map_eq_some_iff.mp h
        obtain ⟨rfl, rfl⟩ := Prod.mk.inj heq
        exact .server (serverMeets_of_allows allowed) hstep
  · cases h

/-! ### Invariants of the programs -/

section Invariants

variable {deployment : Deployment} {start network : Network} {events : List NetworkEvent}
  {traffic : List Traffic}

/-- What holds of the server when it starts, and is kept by its loop, holds in every reachable
    network. -/
theorem server_invariant {P : ConnectionManager → Prop}
    (new : ∀ server, serverMain deployment.server = some server → P server)
    (step : ∀ manager event next outs, P manager → serverStep manager event = some (next, outs) →
      P next)
    (begins : networkStart deployment = some start)
    (reached : Run.run (networkStep deployment) start events = some (network, traffic)) :
    P network.server := by
  refine Run.run_invariant (P := fun mid => P mid.server) ?_ ?_ reached
  · intro mid event next more hmid hstep
    cases networkMove_of_step hstep with
    | startClient | client => exact hmid
    | startServer starts => exact new _ starts
    | server meets steps => exact step _ _ _ _ hmid steps
  · obtain ⟨server, hserver, rfl⟩ := Option.map_eq_some_iff.mp begins
    exact new server hserver

/-- What holds of every client when it starts, and is kept by its loop, holds in every reachable
    network. -/
theorem clients_invariant {P : EndpointId → ConnectionManager → Prop}
    (new : ∀ id config dials client outs, deployment.clients.get? id = some config →
      clientMain config dials = some (client, outs) → P id client)
    (step : ∀ id config manager event next outs, deployment.clients.get? id = some config →
      P id manager → clientStep config.toClientSettings manager event = some (next, outs) →
      P id next)
    (begins : networkStart deployment = some start)
    (reached : Run.run (networkStep deployment) start events = some (network, traffic)) :
    ∀ id client, network.clients.get? id = some client → P id client := by
  have hset : ∀ {mid : Network} {id : EndpointId} {client : ConnectionManager} {outs : List Output},
      (∀ id client, mid.clients.get? id = some client → P id client) → P id client →
      ∀ k other, (mid.setClient id client outs).clients.get? k = some other → P k other := by
    intro mid id client outs hmid hclient k other hother
    rw [Network.setClient, OrdMap.get?_insert] at hother
    split at hother
    · rename_i heq
      exact heq ▸ Option.some.inj hother ▸ hclient
    · exact hmid k other hother
  refine Run.run_invariant
    (P := fun mid : Network => ∀ id client, mid.clients.get? id = some client → P id client)
    ?_ ?_ reached
  · intro mid event next more hmid hstep
    cases networkMove_of_step hstep with
    | startClient configured owned starts => exact hset hmid (new _ _ _ _ _ configured starts)
    | client configured running meets steps =>
        exact hset hmid (step _ _ _ _ _ _ configured (hmid _ _ running) steps)
    | startServer | server => exact hmid
  · obtain ⟨server, -, rfl⟩ := Option.map_eq_some_iff.mp begins
    intro id client hclient
    cases hclient

end Invariants

/-! ### What the operations of a loop are handed -/

theorem read_of_readAck {op : ManagerOp} {helloAck : HelloAck} (h : op.readAck = some helloAck) :
    ∃ readInfo, op.reading = some readInfo ∧ readInfo.packetBytes = some (.helloAck helloAck) := by
  unfold ManagerOp.readAck at h
  split at h
  · obtain rfl := Option.some.inj h
    exact ⟨_, rfl, rfl⟩
  · cases h

section Offers

variable {origins : Origins} {manager : ConnectionManager} {op : ManagerOp} {ops : List ManagerOp}

/-- An operation that does not read is handed what it listens to and dials. -/
theorem offers_of_unread (listens : op.listeningHello = none) (reading : op.reading = none)
    (dialled : ∀ manager info dial localAddr, Dials manager op info dial → dial.Reaches localAddr →
      ∀ timeout now, origins.address info.destinationEndpointId (origins.direction.clientAddr
        (outgoingEntry info.interfaceName info.destinationAddress localAddr timeout now))) :
    Offers origins op where
  hears hello hreceived := by
    cases op with
    | handleHello message =>
        obtain rfl : message = some (.hello hello) := hreceived
        cases listens
    | handleEstablishedMessage => cases reading
    | _ => cases hreceived
  packet _ _ hread := by simp [reading] at hread
  listened _ _ _ _ _ _ _ hop := by simp [hop, ManagerOp.listeningHello] at listens
  greeted _ _ hread := by simp [reading] at hread
  acknowledged _ hack := by
    obtain ⟨_, hread, -⟩ := read_of_readAck hack
    simp [reading] at hread
  dialled := dialled

theorem offers_of_plain (plain : op.Plain) (reading : op.reading = none) : Offers origins op :=
  offers_of_unread plain.2 reading fun _ _ _ _ dials =>
    absurd dials.greets (by simp [plain.1])

/-- A datagram that is read is handed on. -/
theorem offers_of_read {readInfo : ReadInfo} {openSocket : OpenSocket} {ack : Nat → SendResult}
    {now : Instant}
    (packet : ∀ packet, readInfo.packetBytes = some (.packet packet) →
      origins.packet readInfo.endpointId packet)
    (greeted : ∀ hello, readInfo.packetBytes = some (.hello hello) → origins.hears ∧
      ∀ localAddr timeout now, origins.address hello.id (origins.direction.clientAddr
        (Endpoint.incomingEntry readInfo.sourceAddress readInfo.interfaceName localAddr timeout now)))
    (acknowledged : ∀ helloAck, readInfo.packetBytes = some (.helloAck helloAck) → origins.acked ∧
      ∀ route ∈ helloAck.staticRoutes.getD [], origins.route ⟨route, helloAck.id⟩) :
    Offers origins (.handleEstablishedMessage readInfo openSocket ack now) where
  hears hello hreceived := (greeted hello hreceived).1
  packet _ pkt hread := Option.some.inj hread ▸ packet pkt
  listened _ _ _ _ _ _ _ hop := by cases hop
  greeted _ hello hread := Option.some.inj hread ▸ fun hbytes => (greeted hello hbytes).2
  acknowledged helloAck hack := by
    obtain ⟨_, hread, hbytes⟩ := read_of_readAck hack
    obtain rfl := Option.some.inj hread
    exact acknowledged helloAck hbytes
  dialled _ _ _ _ dials := by cases dials

/-- A hello that is listened to is handed on. -/
theorem offers_of_listen {message : Option Messages} {sourceAddress : SocketAddr}
    {interfaceName : String} {openSocket : OpenSocket} {firstAck lastAck : Nat → SendResult}
    {now : Instant}
    (listened : ∀ hello, message = some (.hello hello) → origins.hears ∧
      (∀ localAddr timeout now, origins.address hello.id (origins.direction.clientAddr
        (Endpoint.incomingEntry sourceAddress interfaceName localAddr timeout now))) ∧
      ∀ route ∈ hello.staticRoutes.getD [], origins.route ⟨route, hello.id⟩) :
    Offers origins (.handleHello message sourceAddress interfaceName openSocket firstAck lastAck
      now) where
  hears hello hreceived := (listened hello hreceived).1
  packet _ _ hread := by cases hread
  listened hello _ _ _ _ _ _ hop := by
    cases hop
    exact (listened hello rfl).2
  greeted _ _ hread := by cases hread
  acknowledged _ hack := by cases hack
  dialled _ _ _ _ dials := by cases dials

/-- The operations of an event of both loops are handed the datagram that it brings, if any. -/
theorem offers_of_loopEvent {event : LoopEvent} (hops : event.ops manager = some ops)
    (read : ∀ id index packetBytes openSocket ack now readInfo,
      event = .newEstablishedMessage id index packetBytes openSocket ack now →
      manager.awaitIncoming id index packetBytes = some readInfo →
      Offers origins (.handleEstablishedMessage readInfo openSocket ack now)) :
    ∀ op ∈ ops ++ [.removeDisconnected], Offers origins op := by
  refine List.forall_mem_append.mpr ⟨?_, ?_⟩
  · rcases loopEvent_cases hops with idle | ⟨id, index, packetBytes, openSocket, ack, now, readInfo,
      hevent, hread, rfl⟩ | ⟨sliced, bytes, sends, -, rfl⟩
    · exact fun op hop => offers_of_plain (idle op hop).plain (idle op hop).reading
    · exact List.forall_mem_singleton.mpr (read _ _ _ _ _ _ _ hevent hread)
    · exact List.forall_mem_singleton.mpr (offers_of_plain ⟨rfl, rfl⟩ rfl)
  · exact List.forall_mem_singleton.mpr
      (offers_of_plain idle_removeDisconnected.plain idle_removeDisconnected.reading)

end Offers

/-! ### The iterations of the loops -/

section Iterations

variable {manager : ConnectionManager} {ops : List ManagerOp}

/-- The server listens, handles an event of both loops, or only cleans up. -/
theorem ops_of_serverEvent {event : ServerEvent} (h : serverOps manager event = some ops) :
    (∃ message sourceAddress openSocket firstAck lastAck now rest,
      event = .newConnection message sourceAddress openSocket firstAck lastAck now ∧
      (∀ op ∈ rest, op = .removeDisconnected) ∧ ops = .handleHello message sourceAddress
        serverInterfaceName openSocket firstAck lastAck now :: rest) ∨
    (∃ loopEvent loopOps, event = .loop loopEvent ∧ loopEvent.ops manager = some loopOps ∧
      ops = loopOps ++ [.removeDisconnected]) ∨
    ops = [.removeDisconnected] := by
  cases event with
  | newConnection message sourceAddress openSocket firstAck lastAck now =>
      refine Or.inl ⟨message, sourceAddress, openSocket, firstAck, lastAck, now, ?_⟩
      simp only [serverOps] at h
      split at h
      · exact ⟨[.removeDisconnected], rfl, by simp, (Option.some.inj h).symm⟩
      · exact ⟨[], rfl, by simp, (Option.some.inj h).symm⟩
  | loop loopEvent =>
      simp only [serverOps] at h
      split at h
      · obtain ⟨loopOps, hloop, rfl⟩ := Option.map_eq_some_iff.mp h
        exact Or.inr (Or.inl ⟨loopEvent, loopOps, rfl, hloop, rfl⟩)
      · cases h
  | flushInterfaceLog =>
      simp only [serverOps] at h
      split at h
      · exact Or.inr (Or.inr (Option.some.inj h).symm)
      · cases h

/-- The client handles an event of both loops, keeps its connections alive, or opens them all again. -/
theorem ops_of_clientEvent {settings : ClientSettings} {event : ClientEvent}
    (h : clientOps settings manager event = some ops) :
    (∃ loopEvent loopOps, event = .loop loopEvent ∧ loopEvent.ops manager = some loopOps ∧
      ops = loopOps ++ [.removeDisconnected]) ∨
    (∃ sends dials, event = .sendKeepalive sends dials ∧ ops = [.greetAllEndpoints sends,
      .ensureEndpointConnections settings.serverId settings.connectionInfo dials,
      .removeDisconnected]) ∨
    ∃ dials, event = .restart dials ∧ ops = settings.connectionInfo.zipIdx.map fun (info, index) =>
      .createNewConnection info (dials index) := by
  cases event with
  | loop loopEvent =>
      simp only [clientOps] at h
      split at h
      · obtain ⟨loopOps, hloop, rfl⟩ := Option.map_eq_some_iff.mp h
        exact Or.inl ⟨loopEvent, loopOps, rfl, hloop, rfl⟩
      · cases h
  | sendKeepalive sends dials =>
      simp only [clientOps] at h
      split at h
      · exact Or.inr (Or.inl ⟨sends, dials, rfl, (Option.some.inj h).symm⟩)
      · cases h
  | restart dials =>
      simp only [clientOps] at h
      split at h
      · cases h
      · exact Or.inr (Or.inr ⟨dials, rfl, (Option.some.inj h).symm⟩)

/-- A packet that an event of both loops writes was routed by that event. -/
theorem routed_of_loopEvent {event : LoopEvent} {past future : List ManagerOp} {op : ManagerOp}
    {mid : ConnectionManager} {before : List Output} {k : EndpointId} {packet : Packet}
    (hops : event.ops manager = some ops)
    (split : ops ++ [.removeDisconnected] = past ++ op :: future)
    (hpast : Run.run ManagerOp.apply manager past = some (mid, before))
    (authored : Authored mid op k (.packet packet)) (party : Party) :
    ∃ destination, k ∈ manager.routes.lookup destination ∧
      .routed party k destination packet.bytes ∈ event.routed party manager := by
  obtain ⟨destination, sends, rfl, hk⟩ := authored
  have hmem : .handlePacketFromTun (.ipv4 destination) packet.bytes sends ∈
      ops ++ [.removeDisconnected] := split ▸ by simp
  rcases loopEvent_cases hops with idle | ⟨_, _, _, _, _, _, _, -, -, rfl⟩ |
    ⟨sliced, bytes, sends', rfl, rfl⟩
  · rcases List.mem_append.mp hmem with hmem | hmem
    · exact absurd (idle _ hmem).tunnels (by simp [ManagerOp.tunnels])
    · simp at hmem
  · simp at hmem
  · -- the packet is the first operation, so its route is that of the manager before the event
    cases past with
    | nil =>
        obtain ⟨rfl, -⟩ := Prod.mk.inj (Option.some.inj hpast)
        simp only [List.nil_append, List.cons_append, List.cons.injEq,
          ManagerOp.handlePacketFromTun.injEq] at split
        obtain ⟨⟨rfl, rfl, -⟩, -⟩ := split
        exact ⟨destination, hk, List.mem_map_of_mem hk⟩
    | cons first rest => simp [List.cons_eq_append_iff] at split

end Iterations

end MultiConnect
