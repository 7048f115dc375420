/-
Module: MultiConnect.Proofs.Handshake
Layer: Proofs
Purpose: The order of the handshake in a network, however its programs are interleaved and whichever
  messages are lost, delayed, repeated or overtaken. The server writes nothing to an address before a
  hello was written from it; a client writes no packet before an acknowledgement was written to it; and
  a connection of a client is connected only when one was written to the address of that connection
  (`handshake_comes_first`).
Trusted boundary: a connected socket reports the address that it was connected to as its peer, and
  yields datagrams of this peer only
Main exports: Answered, Acked, handshake_comes_first
-/
import MultiConnect.Proofs.ConnectionChanges
import MultiConnect.Proofs.Isolation

namespace MultiConnect

open ConnectionManager

/-- An acknowledgement was written to an address of a client. -/
def AckedAt (net : List Datagram) (addr : SocketAddr) : Prop :=
  ∃ d ∈ net, d.direction = .toClient ∧ d.clientAddr = addr ∧
    ∃ helloAck, d.message = .helloAck helloAck

/-- What was written before a message: before any of the server's, a hello from where it goes to; before
    a packet of a client's, an acknowledgement to this client. -/
structure Answered (deployment : Deployment) (before : List Datagram) (d : Datagram) : Prop where
  server : d.direction = .toClient → HelloFrom before d.clientAddr
  client : d.direction = .toServer → ∀ packet, d.message = .packet packet →
    AckTo deployment before (deployment.owner d.clientAddr)

/-- The connections of a client that are connected were acknowledged. -/
def Acked (net : List Datagram) (client : ConnectionManager) : Prop :=
  ∀ k, ∀ entry ∈ client.connectionsOf k, entry.connection.state = .connected →
    AckedAt net entry.connection.socket.localAddr

section Mono

variable {net net' : List Datagram}

theorem AckedAt.mono {addr : SocketAddr} (subset : net ⊆ net') (h : AckedAt net addr) :
    AckedAt net' addr :=
  h.imp fun _ hd => ⟨subset hd.1, hd.2⟩

theorem Acked.mono {client : ConnectionManager} (subset : net ⊆ net') (h : Acked net client) :
    Acked net' client :=
  fun k entry hentry hstate => (h k entry hentry hstate).mono subset

end Mono

/-! ### The connections of a client -/

/-- What an operation of a client hears: no hello, and an acknowledgement only on a connection that it
    was written to. -/
structure HearsAcks (net : List Datagram) (manager : ConnectionManager) (op : ManagerOp) : Prop where
  greeted : ¬ op.Greeted
  heard : ∀ k key now, Hears op k key now → ∀ entry ∈ manager.connectionsOf k, entry.key = key →
    AckedAt net entry.connection.socket.localAddr

section Client

variable {net : List Datagram} {settings : ClientSettings} {client next : ConnectionManager}
  {op : ManagerOp} {outs : List Output}

theorem Hears.deaf {k : EndpointId} {key : String × SocketAddr} {now : Instant}
    (hears : Hears op k key now) : op.listeningHello ≠ none ∨ op.reading ≠ none := by
  cases hears with
  | listening => exact Or.inl (by simp [ManagerOp.listeningHello])
  | hello | helloAck => exact Or.inr (by simp [ManagerOp.reading])

theorem hearsAcks_of_deaf (listens : op.listeningHello = none) (reading : op.reading = none) :
    HearsAcks net client op where
  greeted := by
    rintro ⟨hello, hreceived⟩
    cases op with
    | handleHello message =>
        obtain rfl : message = some (.hello hello) := hreceived
        cases listens
    | handleEstablishedMessage => cases reading
    | _ => cases hreceived
  heard k key now hears := (hears.deaf.elim (· listens) (· reading)).elim

/-- What a client hears on a connection was written to it. -/
theorem hearsAcks_of_read {id : EndpointId} {index : Nat} {packetBytes : Option Messages}
    {openSocket : OpenSocket} {ack : Nat → SendResult} {now : Instant} {readInfo : ReadInfo}
    (identified : ClientIdentified settings client)
    (greeted : ¬ (ManagerOp.handleEstablishedMessage readInfo openSocket ack now).Greeted)
    (arrives : delivers net .toClient client
      (.newEstablishedMessage id index packetBytes openSocket ack now) = true)
    (h : client.awaitIncoming id index packetBytes = some readInfo) :
    HearsAcks net client (.handleEstablishedMessage readInfo openSocket ack now) where
  greeted := greeted
  heard k key now' hears entry hentry hkey := by
    obtain ⟨e, read, found, hread, rfl, hwritten⟩ := read_of_delivers arrives h
    cases hears with
    | hello decoded => exact (greeted ⟨_, decoded⟩).elim
    | @helloAck _ _ _ _ helloAck decoded =>
        obtain ⟨d, hd, hdirection, haddr, hsame⟩ := hwritten _ decoded
        -- the acknowledgement names the only endpoint, and its key one connection of that endpoint
        have hid : helloAck.id = id := by
          cases found' : client.endpoints.get? helloAck.id with
          | none =>
              rw [connectionsOf_of_none found'] at hentry
              cases hentry
          | some e' => rw [identified.only _ e' found', identified.only id e found]
        rw [hid, connectionsOf_of_get? found] at hentry
        have hidentified := identified.identified id
        rw [connectionsOf_of_get? found] at hidentified
        have own := hidentified.own read hread
        have hsamekey : entry.key = read.key := by
          rw [hkey, ConnectionEntry.key, own.interfaceName, own.interfaceAddress]
        obtain rfl := List.inj_on_of_nodup_map hidentified.distinct hentry hread hsamekey
        exact ⟨d, hd, hdirection, haddr, helloAck, hsame⟩

/-- An operation connects only connections that were acknowledged. -/
theorem acked_of_apply (acked : Acked net client) (hears : HearsAcks net client op)
    (h : ManagerOp.apply client op = some (next, outs)) : Acked net next := by
  intro k entry' hentry' hstate
  obtain ⟨entry, hentry, changes⟩ := grown_of_apply h k entry' hentry'
  rw [changes.socket]
  rcases hentry with hold | hopened
  · rcases changes.connected hstate with hconnected | hgreeted | ⟨now, hheard⟩
    · exact acked k entry hold hconnected
    · exact (hears.greeted hgreeted).elim
    · exact hears.heard k _ now hheard entry hold rfl
  · cases hopened with
    | incoming greeted => exact (hears.greeted greeted).elim
    | outgoing dials =>
        rcases changes.connected hstate with hconnected | hgreeted | ⟨now, hheard⟩
        · cases hconnected
        · exact (hears.greeted hgreeted).elim
        · cases dials <;> cases hheard

theorem acked_of_run {ops : List ManagerOp} (acked : Acked net client)
    (hears : Run.EachStep ManagerOp.apply (fun _ => HearsAcks net) client ops)
    (h : Run.run ManagerOp.apply client ops = some (next, outs)) : Acked net next := by
  refine Run.run_induction (P := fun _ mid _ => Acked net mid) acked ?_ hears h
  intro _ op mid _ after now _ hmid hhears hstep
  exact acked_of_apply hmid hhears hstep

/-- The attempts to open links hear nothing. -/
theorem hearsAcks_of_openLinks {dials : Nat → Dial} :
    Run.EachStep ManagerOp.apply (fun _ => HearsAcks net) client
      (settings.connectionInfo.zipIdx.map fun (info, index) =>
        ManagerOp.createNewConnection info (dials index)) := by
  refine Run.eachStep_of_forall fun op hop _ => ?_
  obtain ⟨_, -, rfl⟩ := List.mem_map.mp hop
  exact hearsAcks_of_deaf rfl rfl

/-- What the operations of an iteration of a client hear. -/
theorem hearsAcks_of_clientOps {event : ClientEvent} {ops : List ManagerOp}
    (identified : ClientIdentified settings client) (unheard : ∀ op ∈ ops, ¬ op.Greeted)
    (arrives : ∀ loopEvent, event = .loop loopEvent → delivers net .toClient client loopEvent = true)
    (hops : clientOps settings client event = some ops) :
    Run.EachStep ManagerOp.apply (fun _ => HearsAcks net) client ops := by
  rcases ops_of_clientEvent hops with ⟨loopEvent, loopOps, rfl, hloop, rfl⟩ |
    ⟨sends, dials, rfl, rfl⟩ | ⟨dials, rfl, rfl⟩
  · refine Run.EachStep.append ?_ fun mid _ _ =>
      Run.eachStep_singleton (hearsAcks_of_deaf rfl rfl)
    rcases loopEvent_cases hloop with idle | ⟨id, index, packetBytes, openSocket, ack, now, readInfo,
      rfl, hread, rfl⟩ | ⟨sliced, bytes, sends, rfl, rfl⟩
    · exact Run.eachStep_of_forall fun op hop _ =>
        hearsAcks_of_deaf (idle op hop).plain.2 (idle op hop).reading
    · exact Run.eachStep_singleton (hearsAcks_of_read identified (unheard _ (by simp))
        (arrives _ rfl) hread)
    · exact Run.eachStep_singleton (hearsAcks_of_deaf rfl rfl)
  · refine Run.eachStep_of_forall fun op hop _ => ?_
    simp only [List.mem_cons, List.not_mem_nil, or_false] at hop
    rcases hop with rfl | rfl | rfl <;> exact hearsAcks_of_deaf rfl rfl
  · exact hearsAcks_of_openLinks

end Client

/-! ### The network -/

section Network

variable {deployment : Deployment} {start network next : Network} {traffic : List Traffic}
  {events : List NetworkEvent} {id : EndpointId} {config : ClientConfig}

/-- In a reachable network the client has one connection under each name and address. -/
theorem clients_identified (begins : networkStart deployment = some start)
    (reached : Run.run (networkStep deployment) start events = some (network, traffic)) :
    ∀ id client, network.clients.get? id = some client → ∀ config,
      deployment.clients.get? id = some config → config.toClientSettings.Distinct →
      Keyed client ∧ ClientIdentified config.toClientSettings client := by
  refine clients_invariant (P := fun id client => ∀ config,
    deployment.clients.get? id = some config → config.toClientSettings.Distinct →
    Keyed client ∧ ClientIdentified config.toClientSettings client) ?_ ?_ begins reached
  · intro id config dials client outs configured hmain config' configured' distinct
    obtain rfl := Option.some.inj (configured.symm.trans configured')
    unfold clientMain at hmain
    split at hmain
    · rename_i manager hmanager
      obtain ⟨tunnel, localAddress, -, rfl⟩ := clientManager_eq_some hmanager
      have hrun := (clientStart_eq_some hmain).1
      exact ⟨keyed_run (keyed_new _ _ _ _ _) hrun,
        clientIdentified_restart distinct (fun _ => rfl) hrun⟩
    · cases hmain
  · intro id config manager event next outs configured keeps hstep config' configured' distinct
    obtain rfl := Option.some.inj (configured.symm.trans configured')
    obtain ⟨keyed, identified⟩ := keeps config configured distinct
    exact ⟨keyed_clientStep keyed hstep, clientIdentified_clientStep distinct keyed identified hstep⟩

/-- What an iteration of the server writes goes to where a hello came from. -/
theorem answered_of_serverStep {server : ConnectionManager} {event : ServerEvent} {outs : List Output}
    (isolated : Isolated deployment network traffic) (meets : ServerMeets network event)
    (steps : serverStep network.server event = some (server, outs)) (between : List Datagram) :
    ∀ d ∈ datagrams .toClient outs, Answered deployment (network.net ++ between) d := by
  obtain ⟨ops, hops, hrun⟩ := serverStep_eq_some.mp steps
  have offers := offers_of_serverOps isolated.net isolated.server.traces meets hops
  intro d hd
  obtain ⟨write, hwrite, rfl⟩ := mem_datagrams.mp hd
  obtain ⟨-, hgreeted⟩ : deployment.owner (Direction.toClient.clientAddr write.entry) =
      write.endpointId ∧ HelloFrom network.net (Direction.toClient.clientAddr write.entry) :=
    (traces_of_run isolated.server.traces offers hrun).2 _ hwrite
  exact ⟨fun _ => hgreeted.mono (List.subset_append_left ..), by simp⟩

/-- A client writes a packet only along a route, and routes only come with acknowledgements. -/
theorem answered_of_clientRun {client after : ConnectionManager} {ops : List ManagerOp}
    {outs : List Output} {net : List Datagram} (runs : ClientRuns deployment net traffic id config client)
    (offers : ∀ op ∈ ops, Offers (clientOrigins deployment net traffic id config) op)
    (hrun : Run.run ManagerOp.apply client ops = some (after, outs)) (between : List Datagram) :
    ∀ d ∈ datagrams .toServer outs, Answered deployment (net ++ between) d := by
  intro d hd
  obtain ⟨write, hwrite, rfl⟩ := mem_datagrams.mp hd
  refine ⟨by simp, fun _ packet hpacket => ?_⟩
  obtain ⟨past, op, future, mid, before, rfl, hpast, -, hauthored⟩ :=
    authored_of_run runs.traces.keyed hrun hwrite
  obtain ⟨-, howner⟩ := (traces_of_run runs.traces offers hrun).2 _ hwrite
  have hmid := (traces_of_run runs.traces (fun op hop => offers op (List.mem_append_left _ hop))
    hpast).1
  dsimp only at hpacket
  rw [hpacket] at hauthored
  obtain ⟨destination, sends, -, hk⟩ := hauthored
  obtain ⟨aem, haem, -⟩ := Router.mem_lookup.mp hk
  have hacked : AckTo deployment net id := (hmid.route aem haem).1
  rw [← howner] at hacked
  exact hacked.mono (List.subset_append_left ..)

/-- Every message follows what it answers, and the connected connections of the clients were
    acknowledged. -/
structure Handshaken (deployment : Deployment) (network : Network) : Prop where
  net : History.Preceded (Answered deployment) network.net
  clients : ∀ id config client, deployment.clients.get? id = some config →
    network.clients.get? id = some client → config.toClientSettings.Distinct → Acked network.net client

theorem Handshaken.setClient {client : ConnectionManager} {outs : List Output}
    (handshaken : Handshaken deployment network)
    (answered : ∀ d ∈ datagrams .toServer outs, ∀ between,
      Answered deployment (network.net ++ between) d)
    (acked : ∀ config, deployment.clients.get? id = some config →
      config.toClientSettings.Distinct → Acked network.net client) :
    Handshaken deployment (network.setClient id client outs) where
  net := handshaken.net.append answered
  clients other config running configured hother distinct := by
    rw [Network.setClient, OrdMap.get?_insert] at hother
    refine Acked.mono (List.subset_append_left ..) ?_
    split at hother
    · rename_i heq
      subst heq
      obtain rfl := Option.some.inj hother
      exact acked config configured distinct
    · exact handshaken.clients other config running configured hother distinct

theorem Handshaken.setServer {server : ConnectionManager} {outs : List Output}
    (handshaken : Handshaken deployment network)
    (answered : ∀ d ∈ datagrams .toClient outs, ∀ between,
      Answered deployment (network.net ++ between) d) :
    Handshaken deployment (network.setServer server outs) where
  net := handshaken.net.append answered
  clients id config client configured running distinct :=
    (handshaken.clients id config client configured running distinct).mono
      (List.subset_append_left ..)

/-- A step keeps the order of the handshake. -/
theorem handshaken_step {event : NetworkEvent} {more : List Traffic}
    (isolated : Isolated deployment network traffic)
    (identified : ∀ id client, network.clients.get? id = some client → ∀ config,
      deployment.clients.get? id = some config → config.toClientSettings.Distinct →
      Keyed client ∧ ClientIdentified config.toClientSettings client)
    (handshaken : Handshaken deployment network)
    (h : networkStep deployment network event = some (next, more)) : Handshaken deployment next := by
  cases networkMove_of_step h with
  | @startClient id dials config client outs configured owned starts =>
      unfold clientMain at starts
      split at starts
      · rename_i manager hmanager
        have runs := clientRuns_new network.net traffic configured hmanager
        obtain ⟨tunnel, localAddress, -, rfl⟩ := clientManager_eq_some hmanager
        have hrun := (clientStart_eq_some starts).1
        refine handshaken.setClient (fun d hd between => ?_) fun _ _ _ => ?_
        · exact answered_of_clientRun runs (offers_of_openLinks owned) hrun between d hd
        · refine acked_of_run (fun k entry hentry => ?_) hearsAcks_of_openLinks hrun
          cases hentry
      · cases starts
  | startServer => exact handshaken.setServer (by simp)
  | server meets steps =>
      exact handshaken.setServer fun d hd between =>
        answered_of_serverStep isolated meets steps between d hd
  | @client id event config client after outs configured running meets steps =>
      obtain ⟨config', configured', runs⟩ := isolated.clients id client running
      obtain rfl := Option.some.inj (configured.symm.trans configured')
      obtain ⟨ops, hops, hrun⟩ := clientStep_eq_some.mp steps
      have offers := offers_of_clientOps configured isolated.net runs.traces meets hops
      refine handshaken.setClient (fun d hd between => ?_) fun config' configured' distinct => ?_
      · exact answered_of_clientRun runs offers hrun between d hd
      · obtain rfl := Option.some.inj (configured.symm.trans configured')
        have hears := hearsAcks_of_clientOps
          (identified id client running config configured distinct).2
          (fun op hop ⟨hello, hreceived⟩ => (offers op hop).hears hello hreceived) meets.delivers hops
        exact acked_of_run (handshaken.clients id config client configured running distinct) hears hrun

theorem handshaken_run (begins : networkStart deployment = some start)
    (reached : Run.run (networkStep deployment) start events = some (network, traffic)) :
    Handshaken deployment network := by
  refine Run.run_induction (C := fun _ _ _ => True) (P := fun _ mid _ => Handshaken deployment mid)
    ?_ ?_ (fun _ _ _ _ _ _ _ _ _ _ => trivial) reached
  · obtain ⟨server, -, rfl⟩ := Option.map_eq_some_iff.mp begins
    exact ⟨History.preceded_nil _, fun _ _ _ _ running => by cases running⟩
  · intro past event mid before after more hpast hmid _ hstep
    exact handshaken_step (isolated_run begins hpast).1 (clients_identified begins hpast) hmid hstep

end Network

/-- However the programs of a network are interleaved, and whatever it does to their messages: before
    the server writes anything to an address, a hello was written from there; before a client writes a
    packet, an acknowledgement was written to this client; and where a client's links are distinct, its
    connections are connected only when an acknowledgement was written to their own address. -/
theorem handshake_comes_first (deployment : Deployment) (start network : Network)
    (begins : networkStart deployment = some start) (events : List NetworkEvent)
    (traffic : List Traffic)
    (reached : Run.run (networkStep deployment) start events = some (network, traffic)) :
    (∀ before d after, network.net = before ++ d :: after → Answered deployment before d) ∧
    ∀ id config client, deployment.clients.get? id = some config →
      network.clients.get? id = some client → config.toClientSettings.Distinct →
      ∀ k, ∀ entry ∈ client.connectionsOf k, entry.connection.state = .connected →
        AckedAt network.net entry.connection.socket.localAddr :=
  have handshaken := handshaken_run begins reached
  ⟨handshaken.net, handshaken.clients⟩

theorem handshake_comes_first_relayed :
    ∃ start network traffic client entry, networkStart relayDeployment = some start ∧
      Run.run (networkStep relayDeployment) start (relayEvents.take 5) = some (network, traffic) ∧
      network.clients.get? 154 = some client ∧ client.connectionsOf 1 = [entry] ∧
      entry.connection.state = .connected ∧
      AckedAt network.net entry.connection.socket.localAddr := by
  have hrun : ((networkStart relayDeployment).bind fun start =>
      (Run.run (networkStep relayDeployment) start (relayEvents.take 5)).bind fun reached =>
        (reached.1.clients.get? 154).map fun client =>
          (client.connectionsOf 1).map fun entry => entry.connection.state) =
      some [.connected] := by decide
  obtain ⟨start, hstart, hrest⟩ := Option.bind_eq_some_iff.mp hrun
  obtain ⟨⟨network, traffic⟩, hreached, hclients⟩ := Option.bind_eq_some_iff.mp hrest
  obtain ⟨client, hclient, hstates⟩ := Option.map_eq_some_iff.mp hclients
  obtain ⟨entry, hentry, hstate⟩ := List.map_eq_singleton_iff.mp hstates
  obtain ⟨config, hconfig, hdistinct⟩ : ∃ config,
      relayDeployment.clients.get? 154 = some config ∧ config.toClientSettings.Distinct :=
    ⟨_, rfl, List.nodup_singleton _⟩
  exact ⟨start, network, traffic, client, entry, hstart, hreached, hclient, hentry, hstate,
    (handshake_comes_first relayDeployment start network hstart _ traffic hreached).2 154 config client
      hconfig hclient hdistinct 1 entry (hentry ▸ List.mem_singleton_self entry) hstate⟩

end MultiConnect
