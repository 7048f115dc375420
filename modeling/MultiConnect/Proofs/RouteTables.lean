/-
Module: MultiConnect.Proofs.RouteTables
Layer: Proofs
Purpose: The routing tables of a network are what was announced, exactly. The table of the server holds
  every route of every client that it has an endpoint for, and nothing else; so a destination is routed
  to the clients that are there and announced it. The table of a client is empty, or holds exactly what
  the server announces (`tables_are_announcements`).
Trusted boundary: none
Main exports: routes_of_apply, ServerTable, ClientTable, tables_are_announcements
-/
import MultiConnect.Proofs.CleanUp
import MultiConnect.Proofs.Panics

namespace MultiConnect

open ConnectionManager

/-! ### One operation -/

section Operation

variable {manager next : ConnectionManager} {op : ManagerOp} {outs : List Output}

/-- An operation that takes in no routes leaves the table alone, or withdraws the routes to the endpoints
    that it removes. -/
theorem routes_of_apply (hello : op.listeningHello = none) (helloAck : op.readAck = none)
    (h : ManagerOp.apply manager op = some (next, outs)) :
    next.routes = manager.routes ∨ Withdraws manager next := by
  cases op with
  | handleHello =>
      obtain ⟨rfl, -⟩ := Prod.mk.inj (Option.some.inj h)
      split
      · cases hello
      · exact Or.inl rfl
  | handleEstablishedMessage readInfo =>
      left
      obtain ⟨packetBytes, sourceAddress, interfaceName, endpointId⟩ := readInfo
      simp only [ManagerOp.apply, handleEstablishedMessage] at h
      split at h
      · split at h <;> obtain ⟨rfl, -⟩ := Prod.mk.inj (Option.some.inj h) <;> rfl
      · split at h
        · split at h
          · obtain ⟨rfl, -⟩ := Prod.mk.inj (Option.some.inj h)
            rfl
          · cases h
        · obtain ⟨rfl, -⟩ := Prod.mk.inj (Option.some.inj h)
          rfl
      · cases helloAck
      · obtain ⟨rfl, -⟩ := Prod.mk.inj (Option.some.inj h)
        rfl
  | createNewConnection => exact Or.inl (routes_tryLink h)
  | handlePacketFromTun =>
      left
      simp only [ManagerOp.apply, handlePacketFromTun] at h
      split at h
      · exact Run.run_invariant (P := fun mid => mid.routes = manager.routes)
          (fun _ _ _ _ hmid hstep => (routes_tunnelTo hstep).trans hmid) rfl h
      · obtain ⟨rfl, -⟩ := Prod.mk.inj (Option.some.inj h)
        rfl
  | removeConnection =>
      obtain ⟨rfl, -⟩ := Prod.mk.inj (Option.some.inj h)
      exact Or.inr (withdraws_removeConnection ..)
  | removeDisconnected =>
      obtain ⟨rfl, -⟩ := Prod.mk.inj (Option.some.inj h)
      exact Or.inr (withdraws_removeDisconnected manager)
  | greetAllEndpoints =>
      obtain ⟨rfl, -⟩ := Prod.mk.inj (Option.some.inj h)
      exact Or.inl rfl
  | ensureEndpointConnections =>
      left
      simp only [ManagerOp.apply, ensureEndpointConnections] at h
      split at h
      · exact Run.run_invariant (P := fun mid => mid.routes = manager.routes)
          (fun _ _ _ _ hmid hstep => (routes_tryLink hstep).trans hmid) rfl h
      · obtain ⟨rfl, -⟩ := Prod.mk.inj (Option.some.inj h)
        rfl
  | handleSelectiveDuplicationCommand =>
      obtain ⟨rfl, -⟩ := Prod.mk.inj (Option.some.inj h)
      unfold handleSelectiveDuplicationCommand
      split <;> exact Or.inl rfl
  | handlePacketSorterDeadline =>
      obtain ⟨rfl, -⟩ := Prod.mk.inj (Option.some.inj h)
      unfold handlePacketSorterDeadline
      split <;> exact Or.inl rfl
  | awaitTimeout =>
      obtain ⟨-, -, -, -, -, rfl⟩ := apply_awaitTimeout h
      exact Or.inl rfl
  | awaitPacketSorters =>
      obtain ⟨-, -, -, rfl⟩ := apply_awaitPacketSorters h
      exact Or.inl rfl
  | awaitEndpointSortedPackets =>
      obtain ⟨-, -, -, -, -, -, rfl⟩ := apply_awaitEndpointSortedPackets h
      exact Or.inl rfl

/-- A route to an endpoint that is still there afterwards stays. -/
theorem mem_routes_of_kept {aem : AddressEndpointMapping} (hello : op.listeningHello = none)
    (helloAck : op.readAck = none) (h : ManagerOp.apply manager op = some (next, outs))
    (haem : aem ∈ manager.routes.routes)
    (stays : next.endpoints.contains aem.endpointId = true) : aem ∈ next.routes.routes := by
  rcases routes_of_apply hello helloAck h with hsame | withdraws
  · rw [hsame]
    exact haem
  · rw [withdraws.routes]
    exact List.mem_filter.mpr ⟨haem, by simp [ConnectionManager.gone, stays]⟩

/-- An operation that neither listens nor dials makes no endpoint. -/
theorem exists_endpoint_of_apply (keyed : Keyed manager) (hello : op.listeningHello = none)
    (dialless : ∀ info dial, ¬ Dials manager op info dial)
    (h : ManagerOp.apply manager op = some (next, outs)) {k : EndpointId} {e' : Endpoint}
    (found : next.endpoints.get? k = some e') : ∃ e, manager.endpoints.get? k = some e := by
  have hsteps := (decomposes_of_apply keyed h).steps k
  rw [found] at hsteps
  refine hsteps.invariant (P := fun o _ => (∃ e, o = some e) →
    ∃ e, manager.endpoints.get? k = some e) ?_ id ⟨e', rfl⟩
  intro mid before more after hmid step _
  cases step with
  | install hop =>
      subst hop
      cases hello
  | create dials => exact (dialless _ _ dials).elim
  | remove => exact hmid ⟨_, rfl⟩
  | signal | acceptListening | acceptEstablished | dial | switch | tunnel | sort | fire | drop =>
      exact hmid ⟨_, rfl⟩

end Operation

/-! ### The server -/

/-- An endpoint of the server is a configured client, and the table holds every route of it. -/
def ServerTable (deployment : Deployment) (server : ConnectionManager) : Prop :=
  ∀ k e, server.endpoints.get? k = some e → ∃ config tunnel,
    deployment.clients.get? k = some config ∧ config.tunnelConfig.route = some tunnel ∧
      ∀ route ∈ config.announced tunnel, ⟨route, k⟩ ∈ server.routes.routes

/-- A hello that an operation listens to announces everything that its client announces. -/
def ListensToClients (deployment : Deployment) (op : ManagerOp) : Prop :=
  ∀ hello, op.listeningHello = some hello → ∃ config tunnel,
    deployment.clients.get? hello.id = some config ∧ config.tunnelConfig.route = some tunnel ∧
      hello.staticRoutes = some (config.announced tunnel)

section Server

variable {deployment : Deployment} {traffic : List Traffic} {net : List Datagram}
  {server next : ConnectionManager} {op : ManagerOp} {ops : List ManagerOp} {outs : List Output}

theorem serverTable_of_apply (traces : Traces (serverOrigins deployment net traffic) server)
    (offers : Offers (serverOrigins deployment net traffic) op) (greets : op.greets = false)
    (listens : ListensToClients deployment op) (table : ServerTable deployment server)
    (h : ManagerOp.apply server op = some (next, outs)) : ServerTable deployment next := by
  have hunacked : op.readAck = none := by
    by_contra hack
    obtain ⟨helloAck, hack⟩ := Option.ne_none_iff_exists'.mp hack
    exact (offers.acknowledged helloAck hack).1
  cases hlistens : op.listeningHello with
  | none =>
      intro k e' found'
      have hdialless : ∀ info dial, ¬ Dials server op info dial := fun _ _ dials =>
        absurd dials.greets (by simp [greets])
      obtain ⟨e, found⟩ := exists_endpoint_of_apply traces.keyed hlistens hdialless h found'
      obtain ⟨config, tunnel, configured, subnet, hroutes⟩ := table k e found
      exact ⟨config, tunnel, configured, subnet, fun route hroute =>
        mem_routes_of_kept hlistens hunacked h (hroutes route hroute)
          (OrdMap.contains_iff.mpr ⟨e', found'⟩)⟩
  | some hello =>
      obtain ⟨sourceAddress, interfaceName, openSocket, firstAck, lastAck, now, rfl⟩ :=
        eq_of_listeningHello hlistens
      have hnext : (server.handleHello (some (.hello hello)) sourceAddress interfaceName openSocket
          firstAck lastAck now).1 = next := (Prod.mk.inj (Option.some.inj h)).1
      have hcases := handleHello_routes server hello sourceAddress interfaceName openSocket firstAck
        lastAck now
      dsimp only at hcases
      rw [hnext] at hcases
      rcases hcases with ⟨-, hroutes, -, hothers⟩ | ⟨-, rfl⟩
      · intro k e' found'
        by_cases hk : k = hello.id
        · subst hk
          obtain ⟨config, tunnel, configured, subnet, hannounced⟩ := listens hello hlistens
          refine ⟨config, tunnel, configured, subnet, fun route hroute => ?_⟩
          rw [hroutes, hannounced]
          exact Router.mem_insertRoutes.mpr (Or.inl ⟨rfl, hroute⟩)
        · rw [hothers k hk] at found'
          obtain ⟨config, tunnel, configured, subnet, hold⟩ := table k e' found'
          refine ⟨config, tunnel, configured, subnet, fun route hroute => ?_⟩
          rw [hroutes]
          exact Router.mem_insertRoutes.mpr (Or.inr (hold route hroute))
      · exact table

theorem listensToClients_of_serverOps {network : Network} {event : ServerEvent}
    (genuine : ∀ d ∈ network.net, Genuine deployment traffic d) (meets : ServerMeets network event)
    (hops : serverOps network.server event = some ops) :
    ∀ op ∈ ops, ListensToClients deployment op := by
  rcases ops_of_serverEvent hops with ⟨message, sourceAddress, openSocket, firstAck, lastAck, now, rest,
    rfl, hrest, rfl⟩ | ⟨loopEvent, loopOps, rfl, hloop, rfl⟩ | rfl
  · refine List.forall_mem_cons.mpr ⟨fun hello hlistens => ?_, fun op hop hello hlistens => ?_⟩
    · obtain ⟨_, _, _, _, _, _, heq⟩ := eq_of_listeningHello hlistens
      obtain ⟨rfl, -⟩ := ManagerOp.handleHello.inj heq
      obtain ⟨d, hd, hdirection, rfl, hsame⟩ := meets.listens _ _ _ _ _ _ rfl
      have hhello := genuine d hd
      simp only [Genuine, hdirection, hsame] at hhello
      exact hhello.2
    · rw [hrest op hop] at hlistens
      cases hlistens
  · refine List.forall_mem_append.mpr ⟨fun op hop hello hlistens => ?_, ?_⟩
    · simp [(plain_of_loopEvent hloop op hop).2] at hlistens
    · simp [ListensToClients, ManagerOp.listeningHello]
  · simp [ListensToClients, ManagerOp.listeningHello]

/-- The table of the server through an iteration of its loop. -/
theorem serverTable_of_run (traces : Traces (serverOrigins deployment net traffic) server)
    (offers : ∀ op ∈ ops, Offers (serverOrigins deployment net traffic) op)
    (greets : ∀ op ∈ ops, op.greets = false) (listens : ∀ op ∈ ops, ListensToClients deployment op)
    (table : ServerTable deployment server)
    (h : Run.run ManagerOp.apply server ops = some (next, outs)) : ServerTable deployment next := by
  refine (Run.run_induction (C := fun _ _ op => op ∈ ops)
    (P := fun _ mid _ => Traces (serverOrigins deployment net traffic) mid ∧
      ServerTable deployment mid)
    ⟨traces, table⟩ ?_ (Run.eachStep_of_forall fun op hop _ => hop) h).2
  intro _ op mid _ after now _ ⟨htraces, htable⟩ hop hstep
  exact ⟨(traces_of_apply htraces (offers op hop) hstep).1,
    serverTable_of_apply htraces (offers op hop) (greets op hop) (listens op hop) htable hstep⟩

end Server

/-! ### The clients -/

/-- Where the table of a client holds anything, it holds every route of the server. -/
def ClientTable (deployment : Deployment) (client : ConnectionManager) : Prop :=
  ∀ aem ∈ client.routes.routes, ∃ tunnel, deployment.server.tunnelConfig.route = some tunnel ∧
    ∀ route ∈ ServerSettings.announced tunnel,
      ⟨route, deployment.server.peerId⟩ ∈ client.routes.routes

/-- An acknowledgement that an operation reads announces everything that the server announces. -/
def ReadsServer (deployment : Deployment) (op : ManagerOp) : Prop :=
  ∀ helloAck, op.readAck = some helloAck → helloAck.id = deployment.server.peerId ∧ ∃ tunnel,
    deployment.server.tunnelConfig.route = some tunnel ∧
      helloAck.staticRoutes = some (ServerSettings.announced tunnel)

section Client

variable {deployment : Deployment} {traffic : List Traffic} {net : List Datagram} {id : EndpointId}
  {config : ClientConfig} {client next : ConnectionManager} {op : ManagerOp} {ops : List ManagerOp}
  {outs : List Output}

theorem clientTable_of_apply (known : RoutesKnown next)
    (traces : Traces (clientOrigins deployment net traffic id config) client)
    (offers : Offers (clientOrigins deployment net traffic id config) op)
    (reads : ReadsServer deployment op) (table : ClientTable deployment client)
    (h : ManagerOp.apply client op = some (next, outs)) : ClientTable deployment next := by
  have hdeaf : op.listeningHello = none := by
    by_contra hlistens
    obtain ⟨hello, hlistens⟩ := Option.ne_none_iff_exists'.mp hlistens
    obtain ⟨_, _, _, _, _, _, rfl⟩ := eq_of_listeningHello hlistens
    exact offers.hears hello rfl
  cases hack : op.readAck with
  | none =>
      intro aem haem
      -- the route was there before, so every route was, and its endpoint is still there
      have hold := routes_subset_of_apply hdeaf hack h haem
      obtain ⟨tunnel, subnet, hroutes⟩ := table aem hold
      refine ⟨tunnel, subnet, fun route hroute =>
        mem_routes_of_kept hdeaf hack h (hroutes route hroute) ?_⟩
      have hid := (traces.route aem hold).2.1
      have hstays := known aem haem
      rw [hid] at hstays
      exact hstays
  | some helloAck =>
      rcases apply_readAck hack h with ⟨-, rfl⟩ | ⟨_, _, -, -, -, hroutes⟩
      · exact table
      · obtain ⟨hid, tunnel, subnet, hannounced⟩ := reads helloAck hack
        refine fun _ _ => ⟨tunnel, subnet, fun route hroute => ?_⟩
        rw [hroutes, hannounced]
        exact Router.mem_insertRoutes.mpr (Or.inl ⟨hid.symm, hroute⟩)

theorem readsServer_of_clientOps {settings : ClientSettings} {event : ClientEvent}
    (genuine : ∀ d ∈ net, Genuine deployment traffic d)
    (arrives : ∀ loopEvent, event = .loop loopEvent → delivers net .toClient client loopEvent = true)
    (hops : clientOps settings client event = some ops) : ∀ op ∈ ops, ReadsServer deployment op := by
  have hunread : ∀ {op : ManagerOp}, op.reading = none → ReadsServer deployment op := by
    intro op hreading helloAck hack
    obtain ⟨_, hread, -⟩ := read_of_readAck hack
    simp [hreading] at hread
  rcases ops_of_clientEvent hops with ⟨loopEvent, loopOps, rfl, hloop, rfl⟩ |
    ⟨sends, dials, rfl, rfl⟩ | ⟨dials, rfl, rfl⟩
  · refine List.forall_mem_append.mpr ⟨?_, List.forall_mem_singleton.mpr (hunread rfl)⟩
    rcases loopEvent_cases hloop with idle | ⟨k, index, packetBytes, openSocket, ack, now, readInfo,
      rfl, hread, rfl⟩ | ⟨sliced, bytes, sends, rfl, rfl⟩
    · exact fun op hop => hunread (idle op hop).reading
    · refine List.forall_mem_singleton.mpr fun helloAck hack => ?_
      obtain ⟨_, hreading, hbytes⟩ := read_of_readAck hack
      obtain rfl := Option.some.inj hreading
      obtain ⟨e, entry, -, -, rfl, hwritten⟩ := read_of_delivers (arrives _ rfl) hread
      obtain ⟨d, hd, hdirection, -, hsame⟩ := hwritten _ hbytes
      have hgenuine := genuine d hd
      simp only [Genuine, hdirection, hsame] at hgenuine
      exact hgenuine
    · exact List.forall_mem_singleton.mpr (hunread rfl)
  · simp only [List.forall_mem_cons]
    exact ⟨hunread rfl, hunread rfl, hunread rfl, by simp⟩
  · intro op hop
    obtain ⟨_, -, rfl⟩ := List.mem_map.mp hop
    exact hunread rfl

/-- The table of a client through an iteration of its loop. -/
theorem clientTable_of_run (known : RoutesKnown client)
    (traces : Traces (clientOrigins deployment net traffic id config) client)
    (offers : ∀ op ∈ ops, Offers (clientOrigins deployment net traffic id config) op)
    (reads : ∀ op ∈ ops, ReadsServer deployment op) (table : ClientTable deployment client)
    (h : Run.run ManagerOp.apply client ops = some (next, outs)) : ClientTable deployment next := by
  refine (Run.run_induction (C := fun _ _ op => op ∈ ops)
    (P := fun _ mid _ => RoutesKnown mid ∧
      Traces (clientOrigins deployment net traffic id config) mid ∧ ClientTable deployment mid)
    ⟨known, traces, table⟩ ?_ (Run.eachStep_of_forall fun op hop _ => hop) h).2.2
  intro _ op mid _ after now _ ⟨hknown, htraces, htable⟩ hop hstep
  have hafter := routesKnown_step hknown hstep
  exact ⟨hafter, (traces_of_apply htraces (offers op hop) hstep).1,
    clientTable_of_apply hafter htraces (offers op hop) (reads op hop) htable hstep⟩

end Client

/-! ### The network -/

/-- The tables of all programs. -/
structure Tabled (deployment : Deployment) (network : Network) : Prop where
  server : ServerTable deployment network.server
  clients : ∀ id client, network.clients.get? id = some client → ClientTable deployment client

section Network

variable {deployment : Deployment} {start network next : Network} {traffic : List Traffic}
  {events : List NetworkEvent}

theorem serverTable_new {server : ConnectionManager} (h : serverMain deployment.server = some server) :
    ServerTable deployment server := by
  obtain ⟨tunnel, -, rfl⟩ := serverMain_eq_some h
  intro k e found
  cases found

theorem Tabled.setClient {id : EndpointId} {client : ConnectionManager} {outs : List Output}
    (tabled : Tabled deployment network) (table : ClientTable deployment client) :
    Tabled deployment (network.setClient id client outs) where
  server := tabled.server
  clients other running hother := by
    rw [Network.setClient, OrdMap.get?_insert] at hother
    split at hother
    · exact Option.some.inj hother ▸ table
    · exact tabled.clients other running hother

/-- A step keeps the tables. -/
theorem tabled_step {event : NetworkEvent} {more : List Traffic}
    (isolated : Isolated deployment network traffic)
    (known : ∀ id client, network.clients.get? id = some client → RoutesKnown client)
    (tabled : Tabled deployment network)
    (h : networkStep deployment network event = some (next, more)) : Tabled deployment next := by
  cases networkMove_of_step h with
  | @startClient id dials config client outs configured owned starts =>
      unfold clientMain at starts
      split at starts
      · rename_i manager hmanager
        have runs := clientRuns_new network.net traffic configured hmanager
        obtain ⟨tunnel, localAddress, -, rfl⟩ := clientManager_eq_some hmanager
        have hnone : ∀ aem, aem ∉ (ConnectionManager.new localAddress config.peerId
            (some (config.announced tunnel)) config.connectionTimeout
            config.packetSorterDeadline).routes.routes := fun _ => List.not_mem_nil
        refine tabled.setClient (clientTable_of_run (fun _ haem => (hnone _ haem).elim) runs.traces
          (offers_of_openLinks owned) ?_ (fun _ haem => (hnone _ haem).elim)
          (clientStart_eq_some starts).1)
        intro op hop helloAck hack
        obtain ⟨_, -, rfl⟩ := List.mem_map.mp hop
        cases hack
      · cases starts
  | startServer starts => exact ⟨serverTable_new starts, tabled.clients⟩
  | server meets steps =>
      obtain ⟨ops, hops, hrun⟩ := serverStep_eq_some.mp steps
      exact ⟨serverTable_of_run isolated.server.traces
        (offers_of_serverOps isolated.net isolated.server.traces meets hops)
        (greets_of_serverOps hops) (listensToClients_of_serverOps isolated.net meets hops)
        tabled.server hrun, tabled.clients⟩
  | @client id event config client after outs configured running meets steps =>
      obtain ⟨config', configured', runs⟩ := isolated.clients id client running
      obtain rfl := Option.some.inj (configured.symm.trans configured')
      obtain ⟨ops, hops, hrun⟩ := clientStep_eq_some.mp steps
      exact tabled.setClient (clientTable_of_run (known id client running) runs.traces
        (offers_of_clientOps configured isolated.net runs.traces meets hops)
        (readsServer_of_clientOps isolated.net meets.delivers hops) (tabled.clients id client running)
        hrun)

theorem tabled_run (begins : networkStart deployment = some start)
    (reached : Run.run (networkStep deployment) start events = some (network, traffic)) :
    Tabled deployment network := by
  refine Run.run_induction (C := fun _ _ _ => True) (P := fun _ mid _ => Tabled deployment mid)
    ?_ ?_ (fun _ _ _ _ _ _ _ _ _ _ => trivial) reached
  · obtain ⟨server, hserver, rfl⟩ := Option.map_eq_some_iff.mp begins
    exact ⟨serverTable_new hserver, fun id client running => by cases running⟩
  · intro past event mid before after more hpast hmid _ hstep
    exact tabled_step (isolated_run begins hpast).1 (client_reached begins hpast) hmid hstep

end Network

/-- In every network that is reached, the server's table holds exactly the routes that are announced by
    the clients that it has an endpoint for, and so it routes a packet to exactly those of them that
    announced a subnet of the destination; the table of a client is empty, or holds exactly the routes
    that the server announces, after an acknowledgement was written to this client. -/
theorem tables_are_announcements (deployment : Deployment) (start network : Network)
    (begins : networkStart deployment = some start) (events : List NetworkEvent)
    (traffic : List Traffic)
    (reached : Run.run (networkStep deployment) start events = some (network, traffic)) :
    (∀ aem, aem ∈ network.server.routes.routes ↔ ∃ config tunnel,
      network.server.endpoints.contains aem.endpointId = true ∧
      deployment.clients.get? aem.endpointId = some config ∧
      config.tunnelConfig.route = some tunnel ∧ aem.address ∈ config.announced tunnel) ∧
    (∀ destination id, id ∈ network.server.routes.lookup destination ↔ ∃ config tunnel route,
      network.server.endpoints.contains id = true ∧ deployment.clients.get? id = some config ∧
      config.tunnelConfig.route = some tunnel ∧ route ∈ config.announced tunnel ∧
      route.reachableFrom destination = true) ∧
    ∀ id client, network.clients.get? id = some client → client.routes.routes = [] ∨
      AckTo deployment network.net id ∧ ∃ tunnel, deployment.server.tunnelConfig.route = some tunnel ∧
        ∀ aem, aem ∈ client.routes.routes ↔ aem.endpointId = deployment.server.peerId ∧
          aem.address ∈ ServerSettings.announced tunnel := by
  have isolated := (isolated_run begins reached).1
  have known := (server_reached begins reached).1
  obtain ⟨server, clients⟩ := tabled_run begins reached
  have hserver : ∀ aem, aem ∈ network.server.routes.routes ↔ ∃ config tunnel,
      network.server.endpoints.contains aem.endpointId = true ∧
      deployment.clients.get? aem.endpointId = some config ∧
      config.tunnelConfig.route = some tunnel ∧ aem.address ∈ config.announced tunnel := by
    intro aem
    constructor
    · intro haem
      obtain ⟨config, tunnel, configured, subnet, hannounced⟩ := isolated.server.traces.route aem haem
      exact ⟨config, tunnel, known aem haem, configured, subnet, hannounced⟩
    · rintro ⟨config, tunnel, present, configured, subnet, hannounced⟩
      obtain ⟨e, found⟩ := OrdMap.contains_iff.mp present
      obtain ⟨config', tunnel', configured', subnet', hroutes⟩ := server aem.endpointId e found
      obtain rfl := Option.some.inj (configured.symm.trans configured')
      obtain rfl := Option.some.inj (subnet.symm.trans subnet')
      exact hroutes aem.address hannounced
  refine ⟨hserver, fun destination id => ?_, fun id client running => ?_⟩
  · rw [Router.mem_lookup]
    constructor
    · rintro ⟨aem, haem, rfl, reachable⟩
      obtain ⟨config, tunnel, present, configured, subnet, hannounced⟩ := (hserver aem).mp haem
      exact ⟨config, tunnel, aem.address, present, configured, subnet, hannounced, reachable⟩
    · rintro ⟨config, tunnel, route, present, configured, subnet, hannounced, reachable⟩
      exact ⟨⟨route, id⟩, (hserver ⟨route, id⟩).mpr ⟨config, tunnel, present, configured, subnet,
        hannounced⟩, rfl, reachable⟩
  · refine or_iff_not_imp_left.mpr fun hnonempty => ?_
    obtain ⟨first, hfirst⟩ := List.exists_mem_of_ne_nil _ hnonempty
    obtain ⟨config, -, runs⟩ := isolated.clients id client running
    obtain ⟨tunnel, subnet, hroutes⟩ := clients id client running first hfirst
    refine ⟨(runs.traces.route first hfirst).1, tunnel, subnet, fun aem => ⟨fun haem => ?_, ?_⟩⟩
    · obtain ⟨-, hid, tunnel', subnet', hannounced⟩ := runs.traces.route aem haem
      obtain rfl := Option.some.inj (subnet.symm.trans subnet')
      exact ⟨hid, hannounced⟩
    · obtain ⟨address, endpointId⟩ := aem
      rintro ⟨rfl, hannounced⟩
      exact hroutes address hannounced

theorem tables_are_announcements_relayed :
    ∃ start network traffic, networkStart relayDeployment = some start ∧
      Run.run (networkStep relayDeployment) start relayEvents = some (network, traffic) ∧
      (155 ∈ network.server.routes.lookup 167772163 ↔ ∃ config tunnel route,
        network.server.endpoints.contains 155 = true ∧
        relayDeployment.clients.get? 155 = some config ∧
        config.tunnelConfig.route = some tunnel ∧ route ∈ config.announced tunnel ∧
        route.reachableFrom 167772163 = true) := by
  have hrun : ((networkStart relayDeployment).bind fun start =>
      Run.run (networkStep relayDeployment) start relayEvents).isSome = true := by decide
  obtain ⟨⟨network, traffic⟩, hreached⟩ := Option.isSome_iff_exists.mp hrun
  obtain ⟨start, hstart, hreached⟩ := Option.bind_eq_some_iff.mp hreached
  exact ⟨start, network, traffic, hstart, hreached, (tables_are_announcements relayDeployment start
    network hstart relayEvents traffic hreached).2.1 167772163 155⟩

end MultiConnect
